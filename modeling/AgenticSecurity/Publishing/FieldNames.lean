import AgenticSecurity.Publishing.SecretScan
import Mathlib.Data.List.DropRight

namespace AgenticSecurity.Publishing

open Library Python Regex Runs

def collapsed (unicode : UnicodeData) (name : List Char) : List Char :=
  unicode.lower (name.filter unicode.isAlnum)

def isHump (b c : Char) : Bool := (b.isLower || b.isDigit) && c.isUpper

/-- `part` is what has been read of the current part. -/
def partsFrom (unicode : UnicodeData) (part : List Char) : List Char → List (List Char)
  | [] => if part = [] then [] else [part]
  | c :: rest =>
    if ¬ unicode.isAlnum c then
      if part = [] then partsFrom unicode [] rest else part :: partsFrom unicode [] rest
    else if part.getLast?.any (isHump · c) then part :: partsFrom unicode [c] rest
    else partsFrom unicode (part ++ [c]) rest

def parts (unicode : UnicodeData) (name : List Char) : List (List Char) := partsFrom unicode [] name

def SpelledInWords (unicode : UnicodeData) (name : List Char) : Prop :=
  ∃ key ∈ forbiddenNormalizedKeys, (parts unicode name).map unicode.lower = split '_' key.toList

/-- The Unicode database: only the lower case of a text of ASCII results matters here. It is made
character by character, and it has no ASCII letter or digit from a character that is not
alphanumeric. -/
structure LawfulCase (unicode : UnicodeData) : Prop where
  ascii : ∀ c : Char, c.toNat < 128 → unicode.lower [c] = [c.toLower] ∧
    unicode.isAlnum c = c.isAlphanum
  nonempty : ∀ c, unicode.lower [c] ≠ []
  signs : ∀ c, unicode.isAlnum c = false → ∀ d ∈ unicode.lower [c], d.isLower = false ∧
    d.isDigit = false
  characters : ∀ text, (∀ d ∈ unicode.lower text, d.toNat < 128) →
    ∀ c ∈ text, ∀ d ∈ unicode.lower [c], d.toNat < 128
  text : ∀ text, (∀ c ∈ text, unicode.isAlnum c = true → ∀ d ∈ unicode.lower [c], d.toNat < 128) →
    unicode.lower text = text.flatMap fun c ↦ unicode.lower [c]

def inWord (c : Char) : Bool := c.isLower || c.isDigit

theorem inWord_ne {c : Char} (h : inWord c = true) : c ≠ '_' := by
  rintro rfl
  exact absurd h (by decide)

theorem rdropWhile_append {p : Char → Bool} (text rest : List Char) :
    (text ++ rest).rdropWhile p =
      if rest.rdropWhile p = [] then text.rdropWhile p else text ++ rest.rdropWhile p := by
  unfold List.rdropWhile
  rw [List.reverse_append, List.dropWhile_append]
  by_cases hnil : rest.reverse.dropWhile p = []
  · simp [hnil]
  · simp [hnil, List.isEmpty_iff]

theorem mem_findallFrom {accepts : Char → Bool} {run : List Char}
    (hrun : ∀ c ∈ run, accepts c = true) (text : List Char) :
    ∀ found ∈ findallFrom accepts run text, found ≠ [] ∧ ∀ c ∈ found, accepts c = true := by
  induction text generalizing run with
  | nil =>
    intro found hfound
    unfold findallFrom at hfound
    split_ifs at hfound with hnil
    · cases hfound
    · rw [List.mem_singleton.mp hfound]
      exact ⟨hnil, hrun⟩
  | cons c text ih =>
    intro found hfound
    have hnone := @ih [] (by simp) found
    unfold findallFrom at hfound
    split_ifs at hfound with hc hnil
    · refine @ih (run ++ [c]) ?_ found hfound
      exact List.forall_mem_append.mpr ⟨hrun, List.forall_mem_singleton.mpr hc⟩
    · exact hnone hfound
    · rcases List.mem_cons.mp hfound with rfl | hmem
      · exact ⟨hnil, hrun⟩
      · exact hnone hmem

theorem join_ne_nil {words : List (List Char)} (hne : words ≠ []) (h : ∀ word ∈ words, word ≠ []) :
    join ['_'] words ≠ [] := by
  obtain ⟨word, words, rfl⟩ := List.exists_cons_of_ne_nil hne
  have hword := h word List.mem_cons_self
  by_cases hlast : words = []
  · simpa [hlast, join] using hword
  · rw [join, List.intercalate_cons_of_ne_nil hlast]
    simp

theorem underscored_word {inRun : Bool} {c : Char} {text : List Char} (hc : inWord c = true) :
    underscored inRun (c :: text) = c :: underscored false text := if_pos hc

theorem underscored_gap {c : Char} (text : List Char) (hc : ¬ inWord c = true) :
    underscored false (c :: text) = '_' :: underscored true text ∧
      underscored true (c :: text) = underscored true text :=
  ⟨(if_neg hc).trans (if_neg Bool.false_ne_true), (if_neg hc).trans (if_pos rfl)⟩

theorem rstrip_underscored (text : List Char) :
    (∀ run, run ≠ [] → (∀ c ∈ run, inWord c = true) →
      (run ++ underscored false text).rdropWhile (· = '_') =
        join ['_'] (findallFrom inWord run text)) ∧
    (underscored true text).rdropWhile (· = '_') = join ['_'] (findallFrom inWord [] text) := by
  have hlast {run : List Char} (hrun : ∀ c ∈ run, inWord c = true) :
      run.rdropWhile (· = '_') = run := by
    rw [List.rdropWhile_eq_self_iff]
    intro hne'
    simpa using inWord_ne (hrun _ (List.getLast_mem hne'))
  induction text with
  | nil =>
    refine ⟨fun run hne hrun ↦ ?_, rfl⟩
    rw [underscored, List.append_nil, hlast hrun, findallFrom, if_neg hne]
    simp [join]
  | cons c text ih =>
    by_cases hc : inWord c = true
    · constructor
      · intro run hne hrun
        rw [underscored_word hc, findallFrom, if_pos hc, List.append_cons]
        exact ih.1 _ (by simp) (List.forall_mem_append.mpr ⟨hrun, List.forall_mem_singleton.mpr hc⟩)
      · rw [underscored_word hc, findallFrom, if_pos hc]
        exact ih.1 [c] (List.cons_ne_nil _ _) (List.forall_mem_singleton.mpr hc)
    · obtain ⟨hgap, hskip⟩ := underscored_gap text hc
      constructor
      · intro run hne hrun
        rw [hgap, findallFrom, if_neg hc, if_neg hne]
        have hdrop : ('_' :: underscored true text).rdropWhile (· = '_') =
            if findallFrom inWord [] text = [] then []
              else '_' :: join ['_'] (findallFrom inWord [] text) := by
          rw [← List.singleton_append, rdropWhile_append, ih.2]
          by_cases hnil : findallFrom inWord [] text = []
          · simp [hnil, join, List.rdropWhile]
          · have hwords :=
              join_ne_nil hnil fun word hword ↦ (mem_findallFrom (by simp) text word hword).1
            rw [if_neg hwords, if_neg hnil, List.singleton_append]
        rw [rdropWhile_append, hdrop]
        by_cases hnil : findallFrom inWord [] text = []
        · rw [hnil, if_pos rfl, if_pos rfl, hlast hrun]
          simp [join]
        · rw [if_neg hnil, if_neg (List.cons_ne_nil _ _), join, join,
            List.intercalate_cons_of_ne_nil hnil, List.append_assoc, List.singleton_append]
      · rw [hskip, findallFrom, if_neg hc, if_pos rfl]
        exact ih.2

theorem strip_underscored (text : List Char) :
    stripUnderscores (underscored false text) = join ['_'] (findallFrom inWord [] text) := by
  have hstrip (text : List Char) :
      stripUnderscores text = (text.dropWhile (· = '_')).rdropWhile (· = '_') := rfl
  have hhead (text : List Char) : (underscored true text).dropWhile (· = '_') =
      underscored true text := by
    induction text with
    | nil => rfl
    | cons c text ih =>
      by_cases hc : inWord c = true
      · rw [underscored_word hc, List.dropWhile_cons_of_neg (by simpa using inWord_ne hc)]
      · rw [(underscored_gap text hc).2, ih]
  rw [hstrip]
  cases text with
  | nil => rfl
  | cons c text =>
    by_cases hc : inWord c = true
    · rw [underscored_word hc, List.dropWhile_cons_of_neg (by simpa using inWord_ne hc),
        findallFrom, if_pos hc]
      exact (rstrip_underscored text).1 [c] (List.cons_ne_nil _ _)
        (List.forall_mem_singleton.mpr hc)
    · rw [(underscored_gap text hc).1, List.dropWhile_cons_of_pos (by simp), hhead, findallFrom,
        if_neg hc, if_pos rfl]
      exact (rstrip_underscored text).2

theorem splitFrom_plain {part word : List Char} (h : '_' ∉ word) :
    splitFrom '_' part word = [part ++ word] := by
  induction word generalizing part with
  | nil => rw [splitFrom, List.append_nil]
  | cons c word ih =>
    obtain ⟨hc, hword⟩ := not_or.mp (List.mem_cons.not.mp h)
    rw [splitFrom, if_neg (Ne.symm hc), ih hword, List.append_assoc, List.singleton_append]

theorem splitFrom_word {part word rest : List Char} (h : '_' ∉ word) :
    splitFrom '_' part (word ++ '_' :: rest) = (part ++ word) :: split '_' rest := by
  induction word generalizing part with
  | nil => rw [List.nil_append, splitFrom, if_pos rfl, List.append_nil, split]
  | cons c word ih =>
    obtain ⟨hc, hword⟩ := not_or.mp (List.mem_cons.not.mp h)
    rw [List.cons_append, splitFrom, if_neg (Ne.symm hc), ih hword, List.append_assoc,
      List.singleton_append]

theorem split_join {words : List (List Char)} (hne : words ≠ []) (h : ∀ word ∈ words, '_' ∉ word) :
    split '_' (join ['_'] words) = words := by
  induction words with
  | nil => exact absurd rfl hne
  | cons word words ih =>
    obtain ⟨hword, hwords⟩ := List.forall_mem_cons.mp h
    by_cases hlast : words = []
    · simp [hlast, join, split, splitFrom_plain hword]
    · rw [join, List.intercalate_cons_of_ne_nil hlast, List.append_assoc,
        List.singleton_append, split, splitFrom_word hword, List.nil_append, ← join,
        ih hlast hwords]

theorem splitFrom_ne_nil (part text : List Char) : splitFrom '_' part text ≠ [] := by
  induction text generalizing part with
  | nil => exact List.cons_ne_nil _ _
  | cons c text ih =>
    rw [splitFrom]
    split_ifs
    · exact List.cons_ne_nil _ _
    · exact ih _

theorem join_splitFrom (part text : List Char) :
    join ['_'] (splitFrom '_' part text) = part ++ text := by
  induction text generalizing part with
  | nil => simp [splitFrom, join]
  | cons c text ih =>
    rw [splitFrom]
    split_ifs with hc
    · rw [join, List.intercalate_cons_of_ne_nil (splitFrom_ne_nil _ _), ← join, ih, hc]
      simp
    · rw [ih, List.append_assoc, List.singleton_append]

theorem normalized_eq_iff {text key : List Char} (hkey : key ≠ []) :
    stripUnderscores (underscored false text) = key ↔
    findallFrom inWord [] text = split '_' key := by
  rw [strip_underscored]
  constructor
  · rintro rfl
    refine (split_join ?_ fun word hword hunderscore ↦ ?_).symm
    · intro hnil
      rw [hnil] at hkey
      exact hkey rfl
    · exact inWord_ne ((mem_findallFrom (by simp) text word hword).2 _ hunderscore) rfl
  · intro hruns
    rw [hruns, split, join_splitFrom, List.nil_append]

/-- What `withWordBoundaries` makes of the characters after `b`. -/
def boundedAfter (b : Option Char) : List Char → List Char
  | [] => []
  | c :: rest => if b.any (isHump · c) then '_' :: c :: boundedAfter (some c) rest
      else c :: boundedAfter (some c) rest

theorem withWordBoundaries_cons (c : Char) (rest : List Char) :
    withWordBoundaries (c :: rest) = c :: boundedAfter (some c) rest := by
  induction rest generalizing c with
  | nil => rfl
  | cons d rest ih =>
    rw [withWordBoundaries, boundedAfter, ih]
    exact (apply_ite (List.cons c) (isHump c d = true) _ _).symm

theorem withWordBoundaries_eq (name : List Char) :
    withWordBoundaries name = boundedAfter none name := by
  cases name with
  | nil => rfl
  | cons c rest => exact withWordBoundaries_cons c rest

theorem findallFrom_append {run word rest : List Char} (h : ∀ c ∈ word, inWord c = true) :
    findallFrom inWord run (word ++ rest) = findallFrom inWord (run ++ word) rest := by
  induction word generalizing run with
  | nil => rw [List.nil_append, List.append_nil]
  | cons c word ih =>
    obtain ⟨hc, hword⟩ := List.forall_mem_cons.mp h
    rw [List.cons_append, findallFrom, if_pos hc, ih hword, List.append_assoc,
      List.singleton_append]

theorem findallFrom_gap {run gap rest : List Char} (hne : gap ≠ [])
    (h : ∀ c ∈ gap, inWord c = false) :
    findallFrom inWord run (gap ++ rest) =
      if run = [] then findallFrom inWord [] rest else run :: findallFrom inWord [] rest := by
  have hskip : ∀ gap : List Char, (∀ c ∈ gap, inWord c = false) →
      findallFrom inWord [] (gap ++ rest) = findallFrom inWord [] rest := by
    intro gap hgap
    induction gap with
    | nil => rfl
    | cons c gap ih =>
      obtain ⟨hc, hgap⟩ := List.forall_mem_cons.mp hgap
      rw [List.cons_append, findallFrom, if_neg (by simp [hc]), if_pos rfl, ih hgap]
  obtain ⟨c, gap, rfl⟩ := List.exists_cons_of_ne_nil hne
  obtain ⟨hc, hgap⟩ := List.forall_mem_cons.mp h
  rw [List.cons_append, findallFrom, if_neg (by simp [hc]), hskip gap hgap]

section Parts

variable {unicode : UnicodeData}

def lowered (unicode : UnicodeData) (text : List Char) : List Char :=
  text.flatMap fun c ↦ unicode.lower [c]

theorem lowered_append (text rest : List Char) :
    lowered unicode (text ++ rest) = lowered unicode text ++ lowered unicode rest :=
  List.flatMap_append

theorem lowered_cons (c : Char) (rest : List Char) :
    lowered unicode (c :: rest) = unicode.lower [c] ++ lowered unicode rest := List.flatMap_cons

theorem ascii_of_alphanum {c : Char} (h : c.isAlphanum = true) : c.toNat < 128 := by
  have hrange := alphanum_range h
  omega

theorem isAlnum_of_alphanum (hdata : LawfulCase unicode) {c : Char} (h : c.isAlphanum = true) :
    unicode.isAlnum c = true := (hdata.ascii c (ascii_of_alphanum h)).2.trans h

theorem alphanum_of_inWord {c : Char} (h : inWord c = true) : c.isAlphanum = true := by
  rcases Bool.or_eq_true_iff.mp h with hlower | hdigit
  · exact Bool.or_eq_true_iff.mpr (.inl (isAlpha_of_isLower hlower))
  · exact Bool.or_eq_true_iff.mpr (.inr hdigit)

theorem alnum_of_isHump (hdata : LawfulCase unicode) {b c : Char} (h : isHump b c = true) :
    unicode.isAlnum b = true ∧ unicode.isAlnum c = true := by
  obtain ⟨hb, hc⟩ := Bool.and_eq_true_iff.mp h
  refine ⟨isAlnum_of_alphanum hdata (alphanum_of_inWord hb), isAlnum_of_alphanum hdata ?_⟩
  exact Bool.or_eq_true_iff.mpr (.inl (Bool.or_eq_true_iff.mpr (.inl hc)))

theorem lowered_eq_nil (hdata : LawfulCase unicode) {text : List Char} : lowered unicode text = [] ↔
    text = [] := by
  constructor
  · intro h
    cases text with
    | nil => rfl
    | cons c rest =>
      rw [lowered_cons, List.append_eq_nil_iff] at h
      exact absurd h.1 (hdata.nonempty c)
  · rintro rfl
    rfl

theorem runs_eq_parts (hdata : LawfulCase unicode) {name : List Char}
    (hname : ∀ c ∈ name, unicode.isAlnum c = true → ∀ d ∈ unicode.lower [c], inWord d = true)
    {b : Option Char}
    {part : List Char} (hb : ∀ c, b.any (isHump · c) = part.getLast?.any (isHump · c)) :
    findallFrom inWord (lowered unicode part) (lowered unicode (boundedAfter b name)) =
      (partsFrom unicode part name).map (lowered unicode) := by
  induction name generalizing b part with
  | nil =>
    rw [boundedAfter, partsFrom]
    by_cases hpart : part = []
    · subst hpart
      rfl
    · have hlowered := mt (lowered_eq_nil hdata).mp hpart
      rw [if_neg hpart]
      exact if_neg hlowered
  | cons c rest ih =>
    obtain ⟨hc, hrest⟩ := List.forall_mem_cons.mp hname
    rw [boundedAfter, partsFrom]
    by_cases halnum : unicode.isAlnum c = true
    · rw [if_neg (not_not.mpr halnum)]
      by_cases hhump : b.any (isHump · c) = true
      · -- an underscore ends the run
        have hpart : part ≠ [] := by
          rintro rfl
          rw [hb] at hhump
          cases hhump
        have hunderscore : unicode.lower ['_'] = ['_'] := (hdata.ascii '_' (by decide)).1
        have hrun := mt (lowered_eq_nil hdata).mp hpart
        rw [if_pos hhump, if_pos (hb c ▸ hhump), lowered_cons, hunderscore,
          findallFrom_gap (List.cons_ne_nil _ _) (forall_mem_of_all (by decide)), if_neg hrun,
          lowered_cons,
          findallFrom_append (hc halnum), List.map_cons, ← @ih hrest (some c) [c] fun _ ↦ rfl]
        simp [lowered]
      · have hrun := @ih hrest (some c) (part ++ [c]) fun d ↦ by rw [List.getLast?_concat]
        rw [if_neg hhump, if_neg (hb c ▸ hhump), lowered_cons,
          findallFrom_append (hc halnum), ← hrun, lowered_append, lowered_cons]
        simp [lowered]
    · rw [if_pos halnum]
      have hhump : ¬ b.any (isHump · c) = true := by
        intro hhump
        cases b with
        | none => cases hhump
        | some d => exact halnum (alnum_of_isHump hdata hhump).2
      have hnext : ∀ d, (some c).any (isHump · d) = ([] : List Char).getLast?.any (isHump · d) := by
        intro d
        refine Bool.eq_false_iff.mpr fun hhump ↦ ?_
        exact halnum (alnum_of_isHump hdata hhump).1
      have hgap : ∀ d ∈ unicode.lower [c], inWord d = false := by
        intro d hd
        obtain ⟨hlower, hdigit⟩ := hdata.signs c (by simpa using halnum) d hd
        rw [inWord, hlower, hdigit]
        rfl
      rw [if_neg hhump, lowered_cons, findallFrom_gap (hdata.nonempty c) hgap]
      have hih := ih hrest hnext
      by_cases hpart : part = []
      · subst hpart
        exact hih
      · rw [if_neg (mt (lowered_eq_nil hdata).mp hpart), if_neg hpart, List.map_cons, ← hih]
        rfl

theorem lower_eq_lowered (hdata : LawfulCase unicode) {text : List Char}
    (h : ∀ c ∈ text, unicode.isAlnum c = true → ∀ d ∈ unicode.lower [c], inWord d = true) :
    unicode.lower text = lowered unicode text :=
  hdata.text text fun c hc halnum d hd ↦ ascii_of_alphanum (alphanum_of_inWord (h c hc halnum d hd))

theorem mem_boundedAfter {b : Option Char} {name : List Char} :
    ∀ c ∈ boundedAfter b name, c = '_' ∨ c ∈ name := by
  induction name generalizing b with
  | nil =>
    intro c hc
    cases hc
  | cons d rest ih =>
    intro c hc
    have hrest : c ∈ d :: boundedAfter (some d) rest → c = '_' ∨ c ∈ d :: rest := by
      intro hc
      rcases List.mem_cons.mp hc with rfl | hc
      · exact .inr List.mem_cons_self
      · exact (ih c hc).imp_right (List.mem_cons_of_mem _)
    rw [boundedAfter] at hc
    split_ifs at hc
    · exact (List.mem_cons.mp hc).elim .inl hrest
    · exact hrest hc

theorem mem_partsFrom {part name : List Char} :
    ∀ found ∈ partsFrom unicode part name, ∀ c ∈ found, c ∈ part ∨ c ∈ name := by
  induction name generalizing part with
  | nil =>
    intro found hfound c hc
    rw [partsFrom] at hfound
    split_ifs at hfound
    · cases hfound
    · rw [List.mem_singleton.mp hfound] at hc
      exact .inl hc
  | cons d rest ih =>
    intro found hfound c hc
    have hnone : found ∈ partsFrom unicode [] rest → c ∈ part ∨ c ∈ d :: rest := by
      intro hfound
      exact .inr (List.mem_cons_of_mem _ ((ih found hfound c hc).resolve_left List.not_mem_nil))
    have hpart : found = part → c ∈ part ∨ c ∈ d :: rest := by
      rintro rfl
      exact .inl hc
    rw [partsFrom] at hfound
    split_ifs at hfound
    · refine (List.mem_cons.mp hfound).elim hpart fun hfound ↦ .inr ?_
      exact (ih found hfound c hc).elim (fun h ↦ List.mem_singleton.mp h ▸ List.mem_cons_self)
        (List.mem_cons_of_mem _)
    · rcases ih found hfound c hc with hread | hrest
      · rcases List.mem_append.mp hread with hread | hlast
        · exact .inl hread
        · exact .inr (List.mem_singleton.mp hlast ▸ List.mem_cons_self)
      · exact .inr (List.mem_cons_of_mem _ hrest)
    · exact hnone hfound
    · exact (List.mem_cons.mp hfound).elim hpart hnone

end Parts

variable {data : ScanData}

theorem normalizeKey_eq_iff (hdata : LawfulCase data.toUnicodeData) {name : List Char}
    (hname : ∀ c ∈ name, data.isAlnum c = true → ∀ d ∈ data.lower [c], inWord d = true)
    {key : String}
    (hkey : key.toList ≠ []) :
    normalizeKey data name = key ↔
      (parts data.toUnicodeData name).map data.lower = split '_' key.toList := by
  have hunderscore : data.isAlnum '_' = false := (hdata.ascii '_' (by decide)).2
  have hbounded : data.lower (withWordBoundaries name) =
      lowered data.toUnicodeData (boundedAfter none name) := by
    rw [withWordBoundaries_eq]
    refine lower_eq_lowered hdata fun c hc halnum ↦ ?_
    rcases mem_boundedAfter c hc with rfl | hc
    · rw [hunderscore] at halnum
      cases halnum
    · exact hname c hc halnum
  have hparts : (parts data.toUnicodeData name).map (lowered data.toUnicodeData) =
      (parts data.toUnicodeData name).map data.lower := by
    refine List.map_congr_left fun part hpart ↦ (lower_eq_lowered hdata fun c hc ↦ ?_).symm
    exact hname c ((mem_partsFrom part hpart c hc).resolve_left List.not_mem_nil)
  have hruns : findallFrom inWord [] (lowered data.toUnicodeData (boundedAfter none name)) =
      (parts data.toUnicodeData name).map (lowered data.toUnicodeData) :=
    @runs_eq_parts _ hdata name hname none [] fun _ ↦ rfl
  rw [← hparts, ← hruns, ← normalized_eq_iff hkey, normalizeKey, hbounded]
  exact ⟨fun h ↦ by rw [← h, String.toList_ofList], fun h ↦ by rw [h, String.ofList_toList]⟩

theorem forbidden_key_words : ∀ key ∈ forbiddenNormalizedKeys,
    key.toList ≠ [] ∧ ∀ c ∈ key.toList.filter (· ≠ '_'), inWord c = true := by
  have hall : (forbiddenNormalizedKeys.all fun key ↦
      !key.toList.isEmpty && (key.toList.filter (· ≠ '_')).all inWord) = true := by decide +kernel
  intro key hkey
  have hwords := Bool.and_eq_true_iff.mp (List.all_eq_true.mp hall key hkey)
  exact ⟨by simpa using hwords.1, List.all_eq_true.mp hwords.2⟩

theorem inWord_of_collapsed (hdata : LawfulCase data.toUnicodeData) {name key : List Char}
    (hkey : ∀ c ∈ key, inWord c = true) (hname : collapsed data.toUnicodeData name = key) :
    ∀ c ∈ name, data.isAlnum c = true → ∀ d ∈ data.lower [c], inWord d = true := by
  intro c hc halnum d hd
  have hmem : c ∈ name.filter data.isAlnum := List.mem_filter.mpr ⟨hc, halnum⟩
  have hascii := hdata.characters (name.filter data.isAlnum) fun d hd ↦
    ascii_of_alphanum (alphanum_of_inWord (hkey d (hname ▸ hd)))
  have hlower := hdata.text (name.filter data.isAlnum) fun c hc _ ↦ hascii c hc
  refine hkey d (hname ▸ ?_)
  rw [collapsed, hlower]
  exact List.mem_flatMap.mpr ⟨c, hmem, hd⟩

mutual

theorem scanJson_names : ∀ (value : Json) {location : String} {allowed : Option ℕ},
    scanJson data value location allowed = .ok () →
      ∀ name ∈ value.names, normalizeKey data (characters name) ∉ forbiddenNormalizedKeys
  | .null, _, _, _, _, hname => absurd hname List.not_mem_nil
  | .boolean _, _, _, _, _, hname => absurd hname List.not_mem_nil
  | .number, _, _, _, _, hname => absurd hname List.not_mem_nil
  | .string _, _, _, _, _, hname => absurd hname List.not_mem_nil
  | .array items, _, _, h, name, hname => scanItems_names items h name hname
  | .object members, _, _, h, name, hname => scanMembers_names members h name hname

theorem scanItems_names :
    ∀ (items : List Json) {location : String} {index : ℕ} {allowed : Option ℕ},
    scanItems data items location index allowed = .ok () →
      ∀ name ∈ itemNames items, normalizeKey data (characters name) ∉ forbiddenNormalizedKeys
  | [], _, _, _, _, _, hname => absurd hname List.not_mem_nil
  | item :: items, _, _, _, h, name, hname => by
    obtain ⟨_, hitem, hitems⟩ := except_bind_ok.mp h
    rcases List.mem_append.mp hname with hname | hname
    · exact scanJson_names item hitem name hname
    · exact scanItems_names items hitems name hname

theorem scanMembers_names : ∀ (members : List (CodePoints × Json)) {location : String},
    scanMembers data members location = .ok () →
      ∀ name ∈ memberNames members, normalizeKey data (characters name) ∉ forbiddenNormalizedKeys
  | [], _, _, _, hname => absurd hname List.not_mem_nil
  | (key, item) :: members, _, h, name, hname => by
    rw [scanMembers] at h
    split_ifs at h with hkey
    obtain ⟨_, hitem, hmembers⟩ := except_bind_ok.mp h
    rw [memberNames, List.mem_cons, List.mem_append] at hname
    rcases hname with rfl | hname | hname
    · exact hkey
    · exact scanJson_names item hitem name hname
    · exact scanMembers_names members hmembers name hname

end

/-- A name that is a forbidden one without separators and case is refused, wherever it stands,
exactly when its parts are the words of a forbidden name. -/
theorem forbidden_name_refused_iff (hdata : LawfulCase data.toUnicodeData) {name : CodePoints}
    (hname : ∃ key ∈ forbiddenNormalizedKeys,
      collapsed data.toUnicodeData (characters name) = key.toList.filter (· ≠ '_')) :
    (∀ (value : Json) (location : String) (allowed : Option ℕ), name ∈ value.names →
        scanJson data value location allowed ≠ .ok ()) ↔
      SpelledInWords data.toUnicodeData (characters name) := by
  have hwords :
      ∀ c ∈ characters name, data.isAlnum c = true → ∀ d ∈ data.lower [c], inWord d = true := by
    obtain ⟨key, hkey, hcollapsed⟩ := hname
    exact inWord_of_collapsed hdata (forbidden_key_words key hkey).2 hcollapsed
  have hnormalized : normalizeKey data (characters name) ∈ forbiddenNormalizedKeys ↔
      SpelledInWords data.toUnicodeData (characters name) := by
    constructor
    · intro hkey
      refine ⟨_, hkey, ?_⟩
      exact (normalizeKey_eq_iff hdata hwords (forbidden_key_words _ hkey).1).mp rfl
    · rintro ⟨key, hkey, hparts⟩
      rwa [(normalizeKey_eq_iff hdata hwords (forbidden_key_words key hkey).1).mpr hparts]
  rw [← hnormalized]
  constructor
  · intro hrefused
    have hmember := hrefused (.object [(name, .null)]) "" none List.mem_cons_self
    by_contra hkey
    refine hmember ?_
    rw [scanJson, scanMembers, if_neg hkey]
    rfl
  · intro hkey value location allowed hmem haccepted
    exact scanJson_names value haccepted name hmem hkey

theorem asciiCase : LawfulCase asciiData where
  ascii _ _ := ⟨rfl, rfl⟩
  nonempty _ := List.cons_ne_nil _ _
  signs c hc d hd := by
    obtain rfl := List.mem_singleton.mp hd
    obtain ⟨halpha, hdigit⟩ := Bool.or_eq_false_iff.mp (show c.isAlphanum = false from hc)
    obtain ⟨hupper, hlower⟩ := Bool.or_eq_false_iff.mp halpha
    rw [toLower_of_not_isUpper hupper]
    exact ⟨hlower, hdigit⟩
  characters text h c hc d hd := by
    obtain rfl := List.mem_singleton.mp hd
    exact h _ (List.mem_map_of_mem hc)
  text text _ := List.map_eq_flatMap

def apiKeyName (spelling : String) : CodePoints := spelling.toList.map Char.toNat

/-- `APIKey` is `api_key` without separators and case, and a value may have it. -/
theorem run_together_name_accepted :
    (∃ key ∈ forbiddenNormalizedKeys,
      collapsed asciiScan.toUnicodeData (characters (apiKeyName "APIKey")) =
        key.toList.filter (· ≠ '_')) ∧
    scanJson asciiScan (.object [(apiKeyName "APIKey", .string (apiKeyName "hunter2"))])
      "content.json" none =
      .ok () :=
  ⟨⟨"api_key", by decide, by decide +kernel⟩, by decide +kernel⟩

theorem forbidden_name_refused_iff_apiKey :
    SpelledInWords asciiScan.toUnicodeData (characters (apiKeyName "apiKey")) ∧
      ∀ (value : Json) (location : String) (allowed : Option ℕ), apiKeyName "apiKey" ∈ value.names →
        scanJson asciiScan value location allowed ≠ .ok () := by
  have hwords : SpelledInWords asciiScan.toUnicodeData (characters (apiKeyName "apiKey")) :=
    ⟨"api_key", by decide, by decide +kernel⟩
  exact ⟨hwords,
    (forbidden_name_refused_iff asciiCase ⟨"api_key", by decide, by decide +kernel⟩).mpr hwords⟩

end AgenticSecurity.Publishing
