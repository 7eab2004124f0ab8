import Mathlib.Data.List.Sort
import Mathlib.Data.List.TakeWhile
import Mathlib.Data.String.Basic

namespace AgenticSecurity.Python

instance lawfulText : LawfulBEq (List Char) := inferInstance

/-- What the code uses of the Unicode database of the interpreter. -/
structure UnicodeData where
  isPrintable : Char → Bool
  isAlnum : Char → Bool
  lower : List Char → List Char
  decimal : Char → Option ℕ

def asciiData : UnicodeData where
  isPrintable c := 32 ≤ c.toNat && c.toNat < 127
  isAlnum := Char.isAlphanum
  lower := List.map Char.toLower
  decimal c := if c.isDigit then some (c.toNat - 48) else none

/-- The case mappings of `str.title`; `lower` is given the characters before and after. -/
structure CaseData where
  isCased : Char → Bool
  title : Char → List Char
  lower : List Char → Char → List Char → List Char

def asciiCases : CaseData where
  isCased := Char.isAlpha
  title c := [c.toUpper]
  lower _ c _ := [c.toLower]

theorem forall_mem_of_all {p : Char → Prop} [DecidablePred p] {text : List Char}
    (h : (text.all fun c ↦ decide (p c)) = true) : ∀ c ∈ text, p c :=
  fun c hc ↦ of_decide_eq_true (List.all_eq_true.mp h c hc)

/-- `str.isspace` on one character, which is also `\s`. -/
def isSpace (c : Char) : Bool :=
  (9 ≤ c.toNat && c.toNat ≤ 13) || (28 ≤ c.toNat && c.toNat ≤ 32) || c.toNat = 133 ||
    c.toNat = 160 ||
    c.toNat = 5760 || (8192 ≤ c.toNat && c.toNat ≤ 8202) || c.toNat = 8232 || c.toNat = 8233 ||
    c.toNat = 8239 || c.toNat = 8287 || c.toNat = 12288

def strip (text : List Char) : List Char :=
  ((text.dropWhile isSpace).reverse.dropWhile isSpace).reverse

/-- `part` is what has been read of the current part. -/
def splitFrom (separator : Char) (part : List Char) : List Char → List (List Char)
  | [] => [part]
  | c :: rest =>
    if c = separator then part :: splitFrom separator [] rest
      else splitFrom separator (part ++ [c]) rest

/-- `text.split(separator)`. -/
def split (separator : Char) (text : List Char) : List (List Char) := splitFrom separator [] text

/-- The line boundaries of `str.splitlines`. -/
def isLineBreak (c : Char) : Bool :=
  (10 ≤ c.toNat && c.toNat ≤ 13) || (28 ≤ c.toNat && c.toNat ≤ 30) || c.toNat = 133 ||
    c.toNat = 8232 || c.toNat = 8233

/-- `line` is what has been read of the current line. -/
def splitlinesFrom (line : List Char) : List Char → List (List Char)
  | [] => if line = [] then [] else [line]
  | '\r' :: '\n' :: rest => line :: splitlinesFrom [] rest
  | c :: rest =>
    if isLineBreak c then line :: splitlinesFrom [] rest else splitlinesFrom (line ++ [c]) rest

def splitlines (text : List Char) : List (List Char) := splitlinesFrom [] text

def join (separator : List Char) (parts : List (List Char)) : List Char :=
  separator.intercalate parts

/-- `part in text`. -/
def contains (part text : List Char) : Bool := text.tails.any part.isPrefixOf

/-- The characters after an occurrence of `old` are skipped while `skip` is not zero. -/
def replaceFrom (old new : List Char) : ℕ → List Char → List Char
  | _, [] => []
  | skip + 1, _ :: rest => replaceFrom old new skip rest
  | 0, c :: rest =>
    if old.isPrefixOf (c :: rest) then new ++ replaceFrom old new (old.length - 1) rest
    else c :: replaceFrom old new 0 rest

/-- `text.replace(old, new)` for a non-empty `old`. -/
def replace (old new text : List Char) : List Char := replaceFrom old new 0 text

def titleFrom (cases : CaseData) (before : List Char) (afterCased : Bool) : List Char → List Char
  | [] => []
  | c :: rest =>
    (if afterCased then cases.lower before c rest else cases.title c) ++
      titleFrom cases (before ++ [c]) (cases.isCased c) rest

def title (cases : CaseData) (text : List Char) : List Char := titleFrom cases [] false text

/-- `sorted` of strings: by code points. -/
def sortedStrings (parts : List (List Char)) : List (List Char) := parts.insertionSort (· ≤ ·)

/-- The digits of an integer literal after `value`, with single underscores between them. -/
def digitsValue (unicode : UnicodeData) : ℕ → List Char → Option ℕ
  | value, [] => some value
  | value, '_' :: c :: rest =>
    (unicode.decimal c).bind fun d ↦ digitsValue unicode (10 * value + d) rest
  | value, c :: rest => (unicode.decimal c).bind fun d ↦ digitsValue unicode (10 * value + d) rest

def digitsInt (unicode : UnicodeData) : List Char → Option ℕ
  | [] => none
  | c :: rest => (unicode.decimal c).bind fun d ↦ digitsValue unicode d rest

/-- `int(text)`, which refuses more than 4300 digits. -/
def parseInt (unicode : UnicodeData) (text : List Char) : Option ℤ :=
  if 4300 < text.countP fun c ↦ (unicode.decimal c).isSome then none
  else
    match strip text with
    | '-' :: rest => (digitsInt unicode rest).map fun n ↦ -(n : ℤ)
    | '+' :: rest => (digitsInt unicode rest).map Int.ofNat
    | rest => (digitsInt unicode rest).map Int.ofNat

/-- `text.encode("utf-8")`. -/
def encodeUtf8 (text : String) : List UInt8 := text.toUTF8.data.toList

/-- `content.decode("utf-8")`. -/
def decodeUtf8 (content : List UInt8) : Option (List Char) :=
  (String.fromUTF8? ⟨content.toArray⟩).map String.toList

/-- `width` hexadecimal digits of `n`, as `format(n, "0wx")` for a number that fits. -/
def hex : ℕ → ℕ → List Char
  | 0, _ => []
  | width + 1, n => hex width (n / 16) ++ [Nat.digitChar (n % 16)]

/-- The quote `repr` puts around a string. -/
def reprQuote (text : List Char) : Char :=
  if '\'' ∈ text ∧ '"' ∉ text then '"' else '\''

def reprCharacter (unicode : UnicodeData) (quote c : Char) : List Char :=
  if c = quote ∨ c = '\\' then ['\\', c]
  else if c = '\t' then ['\\', 't']
  else if c = '\n' then ['\\', 'n']
  else if c = '\r' then ['\\', 'r']
  else if c.toNat < 32 ∨ c.toNat = 127 then '\\' :: 'x' :: hex 2 c.toNat
  else if c.toNat < 127 ∨ unicode.isPrintable c then [c]
  else if c.toNat ≤ 255 then '\\' :: 'x' :: hex 2 c.toNat
  else if c.toNat ≤ 65535 then '\\' :: 'u' :: hex 4 c.toNat
  else '\\' :: 'U' :: hex 8 c.toNat

def reprString (unicode : UnicodeData) (text : String) : String :=
  let quote := reprQuote text.toList
  String.ofList ([quote] ++ text.toList.flatMap (reprCharacter unicode quote) ++ [quote])

/-- `str` of a dictionary from strings to integers, in insertion order. -/
def strDict (unicode : UnicodeData) (items : List (String × ℤ)) : String :=
  "\x7b" ++ ", ".intercalate
    (items.map fun item ↦ reprString unicode item.1 ++ ": " ++ toString item.2)
    ++ "\x7d"

theorem isLower_iff {c : Char} : c.isLower = true ↔ 'a'.val ≤ c.val ∧ c.val ≤ 'z'.val := by
  change (decide ('a'.val ≤ c.val) && decide (c.val ≤ 'z'.val)) = true ↔ _
  rw [Bool.and_eq_true, decide_eq_true_eq, decide_eq_true_eq]

theorem strip_surrounded (text : List Char) : ∃ lead post, text = lead ++ (strip text ++ post) ∧
    (∀ c ∈ lead, isSpace c = true) ∧ ∀ c ∈ post, isSpace c = true := by
  refine ⟨text.takeWhile isSpace,
    ((text.dropWhile isSpace).reverse.takeWhile isSpace).reverse, ?_, ?_, ?_⟩
  · rw [strip, ← List.reverse_append, List.takeWhile_append_dropWhile, List.reverse_reverse,
      List.takeWhile_append_dropWhile]
  · exact fun c hc ↦ List.mem_takeWhile_imp hc
  · exact fun c hc ↦ List.mem_takeWhile_imp (List.mem_reverse.mp hc)

theorem alphanum_range {c : Char} (h : c.isAlphanum = true) :
    (65 ≤ c.toNat ∧ c.toNat ≤ 90) ∨ (97 ≤ c.toNat ∧ c.toNat ≤ 122) ∨
    (48 ≤ c.toNat ∧ c.toNat ≤ 57) := by
  have hrange {low high : Char} (h : low.val ≤ c.val ∧ c.val ≤ high.val) :
      low.toNat ≤ c.toNat ∧ c.toNat ≤ high.toNat :=
    ⟨UInt32.le_iff_toNat_le.mp h.1, UInt32.le_iff_toNat_le.mp h.2⟩
  rcases Bool.or_eq_true_iff.mp h with halpha | hdigit
  · rcases Bool.or_eq_true_iff.mp halpha with hupper | hlower
    · exact .inl (@hrange 'A' 'Z' (of_decide_eq_true hupper))
    · exact .inr (.inl (@hrange 'a' 'z' (isLower_iff.mp hlower)))
  · have hbounds := Bool.and_eq_true_iff.mp hdigit
    exact .inr (.inr (@hrange '0' '9' ⟨of_decide_eq_true hbounds.1, of_decide_eq_true hbounds.2⟩))

theorem isSpace_of_alphanum {c : Char} (h : c.isAlphanum = true) : isSpace c = false := by
  have hclasses := alphanum_range h
  simp only [isSpace, Bool.or_eq_false_iff, Bool.and_eq_false_iff, decide_eq_false_iff_not]
  omega

theorem isAlpha_of_isLower {c : Char} (h : c.isLower = true) : c.isAlpha = true := by
  change (c.isUpper || c.isLower) = true
  rw [h, Bool.or_true]

theorem toLower_cases (c : Char) : c.toLower = c ∨ c.toLower.isLower = true := by
  unfold Char.toLower
  split_ifs with h
  · refine .inr ?_
    have hlow := UInt32.le_iff_toNat_le.mp h.1
    have hhigh := UInt32.le_iff_toNat_le.mp h.2
    have hA : 'A'.val.toNat = 65 := rfl
    have hZ : 'Z'.val.toNat = 90 := rfl
    have ha : 'a'.val.toNat = 97 := rfl
    have hz : 'z'.val.toNat = 122 := rfl
    have hstep : ('a'.val - 'A'.val).toNat = 32 := rfl
    have hsum : (c.val + ('a'.val - 'A'.val)).toNat = c.val.toNat + 32 := by
      rw [UInt32.toNat_add, hstep]
      omega
    simp only [isLower_iff, UInt32.le_iff_toNat_le, hsum]
    omega
  · exact .inl rfl

theorem toLower_of_isLower {c : Char} (h : c.isLower = true) : c.toLower = c := by
  unfold Char.toLower
  refine dif_neg fun hupper ↦ ?_
  simp only [isLower_iff, UInt32.le_iff_toNat_le] at h
  have hhigh := UInt32.le_iff_toNat_le.mp hupper.2
  have hZ : 'Z'.val.toNat = 90 := rfl
  have ha : 'a'.val.toNat = 97 := rfl
  omega

theorem toLower_of_not_isUpper {c : Char} (h : c.isUpper = false) : c.toLower = c := by
  unfold Char.toLower
  exact dif_neg fun hupper ↦ of_decide_eq_false h hupper

theorem toLower_toLower (c : Char) : c.toLower.toLower = c.toLower := by
  rcases toLower_cases c with h | h
  · rw [h, h]
  · exact toLower_of_isLower h

theorem splitlinesFrom_cons {line : List Char} {c : Char} {rest : List Char}
    (h : ¬ (c = '\r' ∧ ∃ rest', rest = '\n' :: rest')) :
    splitlinesFrom line (c :: rest) =
      if isLineBreak c then line :: splitlinesFrom [] rest
        else splitlinesFrom (line ++ [c]) rest := by
  rw [splitlinesFrom.eq_def]
  split
  next he => cases he
  next rest' he =>
    cases he
    exact absurd ⟨rfl, _, rfl⟩ h
  next he => cases he; rfl

theorem splitlinesFrom_append (p : List Char → Bool) (hp : p [] = false) (line xs ys : List Char) :
    (splitlinesFrom line (xs ++ '\n' :: ys)).filter p =
      (splitlinesFrom line xs).filter p ++ (splitlines ys).filter p := by
  have hnewline : ∀ line, splitlinesFrom line ('\n' :: ys) = line :: splitlines ys := by
    intro line
    rw [splitlinesFrom_cons (by simp)]
    rfl
  fun_induction splitlinesFrom line xs with
  | case1 => rw [List.nil_append, hnewline, List.filter_cons_of_neg (by simp [hp]), List.filter_nil,
      List.nil_append]
  | case2 line => rw [List.nil_append, hnewline, ← List.singleton_append, List.filter_append]
  | case3 line rest ih =>
    rw [List.cons_append, List.cons_append, splitlinesFrom, ← List.singleton_append,
      List.filter_append, ih, ← List.append_assoc, ← List.filter_append, List.singleton_append]
  | case4 line c rest hcrlf hbreak ih =>
    -- a carriage return at the end of `xs` joins the newline that follows it
    by_cases hjoin : c = '\r' ∧ rest = []
    · obtain ⟨rfl, rfl⟩ := hjoin
      rw [List.cons_append, List.nil_append, splitlinesFrom, splitlinesFrom, if_pos rfl,
        ← List.singleton_append, List.filter_append]
      rfl
    · have hsplit : ¬ (c = '\r' ∧ ∃ rest', rest ++ '\n' :: ys = '\n' :: rest') := by
        rintro ⟨rfl, rest', he⟩
        cases rest with
        | nil => exact hjoin ⟨rfl, rfl⟩
        | cons d rest => exact hcrlf rest rfl (by rw [(List.cons.inj he).1])
      rw [List.cons_append, splitlinesFrom_cons hsplit, if_pos hbreak, ← List.singleton_append,
        List.filter_append, ih, ← List.append_assoc, ← List.filter_append, List.singleton_append]
  | case5 line c rest hcrlf hbreak ih =>
    have hsplit : ¬ (c = '\r' ∧ ∃ rest', rest ++ '\n' :: ys = '\n' :: rest') := by
      rintro ⟨rfl, -⟩
      exact hbreak rfl
    rw [List.cons_append, splitlinesFrom_cons hsplit, if_neg hbreak, ih]

theorem splitlinesFrom_of_noBreak {text : List Char} (h : text.all fun c ↦ ¬ isLineBreak c)
    (line : List Char) :
    splitlinesFrom line text = if line ++ text = [] then [] else [line ++ text] := by
  induction text generalizing line with
  | nil => rw [splitlinesFrom, List.append_nil]
  | cons c rest ih =>
    rw [List.all_cons, Bool.and_eq_true] at h
    have hc : ¬ isLineBreak c = true := by simpa using h.1
    have hsplit : ¬ (c = '\r' ∧ ∃ rest', rest = '\n' :: rest') := by
      rintro ⟨rfl, -⟩
      exact hc rfl
    rw [splitlinesFrom_cons hsplit, if_neg hc, ih h.2, List.append_assoc, List.singleton_append]

end AgenticSecurity.Python
