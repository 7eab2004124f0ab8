import AgenticSecurity.Publishing.FieldNames
import AgenticSecurity.Python.Matches

namespace AgenticSecurity.Publishing

open Library Python Regex

/-- What the patterns for assignments see of the Unicode database. -/
structure LawfulWords (unicode : UnicodeData) : Prop extends LawfulCase unicode where
  letters : ∀ c, letterIgnoringCase c = true → unicode.isAlnum c = true
  spaces : ∀ c, isSpace c = true → unicode.isAlnum c = false
  longS : unicode.lower ['\u017F'] = ['\u017F']

def secretKeyword : Regex :=
  anyOf
    [ compound "api" "key", compound "client" "secret", compound "private" "key",
      compound "access" "token", compound "refresh" "token", textIgnoringCase "password",
      textIgnoringCase "passwd",
      textIgnoringCase "secret", textIgnoringCase "token" ]

def isQuote (c : Char) : Bool := c = '\'' || c = '"'

def assignmentSign : Regex :=
  Regex.sequence [many (one isSpace), one (fun c ↦ c = ':' || c = '='), many (one isSpace),
    upTo 1 (one isQuote)]

def valueCharacter (c : Char) : Bool :=
  letterIgnoringCase c || c.isDigit || c ∈ ['_', '.', '/', '+', '=', '-']

theorem secretAssignmentLead_eq :
    secretAssignmentLead = seq boundary (seq secretKeyword (seq boundary assignmentSign)) := rfl

def keywordCharacter (c : Char) : Bool := letterIgnoringCase c || c = '_' || c = '-'

def keywordHead (c : Char) : Bool := ['a', 'c', 'p', 'r', 's', 't'].any (sameLetter · c)

structure KeywordPattern (r : Regex) : Prop where
  free : Free r
  solid : Solid (fun c ↦ ! keywordCharacter c) r
  starts : StartsSolid (fun c ↦ ! keywordHead c) r
  ends : EndsSolid (fun c ↦ ! letterIgnoringCase c) r

theorem letter_of_sameLetter {p c : Char} (hp : (p.isAlpha && p.toUpper.isAlpha) = true)
    (h : sameLetter p c = true) : letterIgnoringCase c = true := by
  obtain ⟨hlower, hupper⟩ := Bool.and_eq_true_iff.mp hp
  simp only [sameLetter, Bool.or_eq_true, Bool.and_eq_true, decide_eq_true_eq] at h
  simp only [letterIgnoringCase, Bool.or_eq_true, decide_eq_true_eq]
  rcases h with (((rfl | rfl) | ⟨-, h⟩) | ⟨-, h⟩) | ⟨-, h⟩
  · exact .inl (.inl (.inl (.inl hlower)))
  · exact .inl (.inl (.inl (.inl hupper)))
  · exact .inl (.inl (.inl (.inr h)))
  · exact .inl (.inl (.inr h))
  · exact h.elim (fun h ↦ .inl (.inr h)) .inr

theorem keyword_of_letter {c : Char} (h : letterIgnoringCase c = true) :
    keywordCharacter c = true := by
  rw [keywordCharacter, h]
  rfl

section Words

variable {literal : String}
  (hletters : ∀ p ∈ literal.toList, (p.isAlpha && p.toUpper.isAlpha) = true)

include hletters

theorem solid_word : Solid (fun c ↦ ! letterIgnoringCase c) (textIgnoringCase literal) := by
  apply solid_sequence
  intro r hr
  obtain ⟨p, hp, rfl⟩ := List.mem_map.mp hr
  intro c hc
  exact congrArg not (letter_of_sameLetter (hletters p hp) hc)

theorem endsSolid_word (hne : literal.toList ≠ []) :
    EndsSolid (fun c ↦ ! letterIgnoringCase c) (textIgnoringCase literal) := by
  unfold textIgnoringCase
  generalize literal.toList = letters at hletters hne
  induction letters with
  | nil => exact absurd rfl hne
  | cons p letters ih =>
    obtain ⟨hp, hrest⟩ := List.forall_mem_cons.mp hletters
    cases letters with
    | nil =>
      intro c hc
      exact congrArg not (letter_of_sameLetter hp hc)
    | cons q letters => exact .inl (ih hrest (List.cons_ne_nil _ _))

theorem keywordPattern_word {p : Char} {rest : List Char} (hfirst : literal.toList = p :: rest)
    (hp : p ∈ ['a', 'c', 'p', 'r', 's', 't']) : KeywordPattern (textIgnoringCase literal) where
  free := free_textIgnoringCase literal
  solid c hc := by
    have hletter := solid_word hletters c hc
    exact congrArg not (keyword_of_letter (by simpa using hletter))
  starts := by
    have hone : StartsSolid (fun c ↦ ! keywordHead c) (one (sameLetter p)) := by
      intro c hc
      exact congrArg not (List.any_eq_true.mpr ⟨p, hp, hc⟩)
    unfold textIgnoringCase
    rw [hfirst, List.map_cons]
    cases rest with
    | nil => exact hone
    | cons q rest => exact .inl hone
  ends := endsSolid_word hletters (by simp [hfirst])

end Words

theorem keywordPattern_compound {first second : String}
    (hfirst : KeywordPattern (textIgnoringCase first))
    (hletters : ∀ p ∈ second.toList, (p.isAlpha && p.toUpper.isAlpha) = true)
    (hne : second.toList ≠ []) :
    KeywordPattern (compound first second) where
  free := ⟨hfirst.free, trivial, free_textIgnoringCase second⟩
  solid c hc := by
    rcases hc with hc | hc | hc
    · exact hfirst.solid c hc
    · have hsign : c = '_' ∨ c = '-' := by simpa [Consumes] using hc
      rcases hsign with rfl | rfl <;> decide
    · have hletter := solid_word hletters c hc
      exact congrArg not (keyword_of_letter (by simpa using hletter))
  starts := .inl hfirst.starts
  ends := .inl (.inl (endsSolid_word hletters hne))

theorem keywordPattern_alt {first second : Regex} (hfirst : KeywordPattern first)
    (hsecond : KeywordPattern second) :
    KeywordPattern (alt first second) where
  free := ⟨hfirst.free, hsecond.free⟩
  solid c hc := hc.elim (hfirst.solid c) (hsecond.solid c)
  starts := ⟨hfirst.starts, hsecond.starts⟩
  ends := ⟨hfirst.ends, hsecond.ends⟩

theorem keywordPattern_secretKeyword : KeywordPattern secretKeyword := by
  have hkey :
      ∀ p ∈ "key".toList, (p.isAlpha && p.toUpper.isAlpha) = true := forall_mem_of_all (by decide)
  have hsecret :
      ∀ p ∈ "secret".toList, (p.isAlpha && p.toUpper.isAlpha) = true :=
    forall_mem_of_all (by decide)
  have htoken :
      ∀ p ∈ "token".toList, (p.isAlpha && p.toUpper.isAlpha) = true := forall_mem_of_all (by decide)
  have hword {literal : String} (p : Char) (rest : List Char) (hfirst : literal.toList = p :: rest)
      (hp : p ∈ ['a', 'c', 'p', 'r', 's', 't'])
      (h : (literal.toList.all fun p ↦ decide ((p.isAlpha && p.toUpper.isAlpha) = true)) = true) :
      KeywordPattern (textIgnoringCase literal) :=
    keywordPattern_word (forall_mem_of_all h) hfirst hp
  refine keywordPattern_alt (keywordPattern_compound ?_ hkey (by decide)) <|
    keywordPattern_alt (keywordPattern_compound ?_ hsecret (by decide)) <|
    keywordPattern_alt (keywordPattern_compound ?_ hkey (by decide)) <|
    keywordPattern_alt (keywordPattern_compound ?_ htoken (by decide)) <|
    keywordPattern_alt (keywordPattern_compound ?_ htoken (by decide)) <|
    keywordPattern_alt ?_ <| keywordPattern_alt ?_ <| keywordPattern_alt ?_ ?_
  · exact hword 'a' "pi".toList rfl (by decide) (by decide)
  · exact hword 'c' "lient".toList rfl (by decide) (by decide)
  · exact hword 'p' "rivate".toList rfl (by decide) (by decide)
  · exact hword 'a' "ccess".toList rfl (by decide) (by decide)
  · exact hword 'r' "efresh".toList rfl (by decide) (by decide)
  · exact hword 'p' "assword".toList rfl (by decide) (by decide)
  · exact hword 'p' "asswd".toList rfl (by decide) (by decide)
  · exact hword 's' "ecret".toList rfl (by decide) (by decide)
  · exact hword 't' "oken".toList rfl (by decide) (by decide)

def signCharacter (c : Char) : Bool := isSpace c || c = ':' || c = '=' || isQuote c

theorem free_assignmentSign : Free assignmentSign := ⟨trivial, trivial, trivial, trivial⟩

theorem language_sign {sign : List Char} (h : Language assignmentSign sign) :
    ∃ spaces c spaces' quote, sign = spaces ++ (c :: (spaces' ++ quote)) ∧
      (∀ x ∈ spaces, isSpace x = true) ∧
      (c = ':' ∨ c = '=') ∧ (∀ x ∈ spaces', isSpace x = true) ∧
      (quote = [] ∨ ∃ q, quote = [q] ∧ isQuote q = true) := by
  obtain ⟨spaces, _, rfl, hspaces, _, _, rfl, ⟨c, rfl, hc⟩, spaces', quote, rfl, hspaces',
      hquote⟩ := h
  exact ⟨spaces, c, spaces', quote, rfl, language_many_one.mp hspaces, by simpa using hc,
    language_many_one.mp hspaces', language_upTo_one.mp hquote⟩

theorem signCharacter_of_mem {sign : List Char} (h : Language assignmentSign sign) :
    ∀ c ∈ sign, signCharacter c = true := by
  have hsolid : Solid (fun c ↦ ! signCharacter c) assignmentSign := by
    intro c hc
    suffices hsign : signCharacter c = true from congrArg not hsign
    rcases hc with hc | hc | hc | hc
    · simp [signCharacter, show isSpace c = true from hc]
    · have hsign : c = ':' ∨ c = '=' := by simpa [Consumes] using hc
      rcases hsign with rfl | rfl <;> decide
    · simp [signCharacter, show isSpace c = true from hc]
    · simp [signCharacter, show isQuote c = true from hc]
  intro c hc
  simpa using language_solid hsolid h c hc

theorem secret_of_keywordCharacter {c : Char} (h : keywordCharacter c = true) :
    secretCharacter c = true := by
  rcases Bool.or_eq_true_iff.mp h with h | hdash
  · rcases Bool.or_eq_true_iff.mp h with hletter | hunderscore
    · simp [secretCharacter, hletter]
    · rw [of_decide_eq_true hunderscore]
      decide
  · rw [of_decide_eq_true hdash]
    decide

theorem secret_of_valueCharacter {c : Char} (h : valueCharacter c = true) :
    secretCharacter c = true := by
  rcases Bool.or_eq_true_iff.mp h with h | hsign
  · rw [secretCharacter, h]
    rfl
  · have hsigns :
        ∀ d ∈ ['_', '.', '/', '+', '=', '-'], secretCharacter d = true :=
      forall_mem_of_all (by decide)
    exact hsigns c (of_decide_eq_true hsign)

theorem sign_not_keyword {c : Char} (h : signCharacter c = true) : keywordCharacter c = false := by
  by_contra hkeyword
  have hspace := apart_isSpace c (secret_of_keywordCharacter (by simpa using hkeyword))
  have hsigns :
      ∀ d ∈ [':', '=', '\'', '"'], keywordCharacter d = false := forall_mem_of_all (by decide)
  have hmem : c ∈ [':', '=', '\'', '"'] := by
    simpa [signCharacter, isQuote, hspace, or_assoc] using h
  exact hkeyword (hsigns c hmem)

theorem quote_not_value {c : Char} (h : isQuote c = true) : valueCharacter c = false := by
  have hquotes : ∀ d ∈ ['\'', '"'], valueCharacter d = false := forall_mem_of_all (by decide)
  exact hquotes c (by simpa [isQuote] using h)

theorem quote_not_space {c : Char} (h : isQuote c = true) : isSpace c = false := by
  have hquotes : ∀ d ∈ ['\'', '"'], isSpace d = false := forall_mem_of_all (by decide)
  exact hquotes c (by simpa [isQuote] using h)

theorem letter_of_keywordHead {c : Char} (h : keywordHead c = true) :
    letterIgnoringCase c = true := by
  have hletters : ∀ p ∈ ['a', 'c', 'p', 'r', 's', 't'], (p.isAlpha && p.toUpper.isAlpha) = true :=
    forall_mem_of_all (by decide)
  obtain ⟨p, hp, hc⟩ := List.any_eq_true.mp h
  exact letter_of_sameLetter (hletters p hp) hc

def afterSign (text : List Char) : List Char :=
  ((((text.dropWhile keywordCharacter).dropWhile isSpace).tail).dropWhile isSpace).dropWhile isQuote

theorem afterSign_eq {word sign value rest : List Char}
    (hword : ∀ c ∈ word, keywordCharacter c = true) (hsign : Language assignmentSign sign)
    (hvalue : ∀ c ∈ value, valueCharacter c = true) (hne : value ≠ []) :
    afterSign (word ++ (sign ++ (value ++ rest))) = value ++ rest := by
  obtain ⟨first, value, rfl⟩ := List.exists_cons_of_ne_nil hne
  have hfirst := hvalue first List.mem_cons_self
  have hspace : isSpace first = false := apart_isSpace first (secret_of_valueCharacter hfirst)
  have hquote : isQuote first = false := by
    by_contra hquote
    rw [quote_not_value (by simpa using hquote)] at hfirst
    cases hfirst
  have hkeyword : ∀ d ∈ sign, keywordCharacter d = false :=
    fun d hd ↦ sign_not_keyword (signCharacter_of_mem hsign d hd)
  obtain ⟨spaces, c, spaces', quote, rfl, hspaces, hc, hspaces', hquotes⟩ := language_sign hsign
  have hcolon : isSpace c = false := by rcases hc with rfl | rfl <;> decide
  have hword' :
      (word ++ (spaces ++ (c :: (spaces' ++ quote)) ++ (first :: value ++ rest))).dropWhile
      keywordCharacter = spaces ++ (c :: (spaces' ++ quote)) ++ (first :: value ++ rest) := by
    cases spaces with
    | nil => exact dropWhile_run_cons hword (hkeyword c (by simp))
    | cons d spaces => exact dropWhile_run_cons hword (hkeyword d (by simp))
  rw [afterSign, hword', List.append_assoc, List.cons_append, dropWhile_run_cons hspaces hcolon,
    List.tail_cons, List.append_assoc]
  rcases hquotes with rfl | ⟨q, rfl, hq⟩
  · rw [List.nil_append, List.cons_append, dropWhile_run_cons hspaces' hspace]
    exact List.dropWhile_cons_of_neg (by simp [hquote])
  · rw [List.singleton_append, dropWhile_run_cons hspaces' (quote_not_space hq),
      List.dropWhile_cons_of_pos hq]
    exact List.dropWhile_cons_of_neg (by simp [hquote])

section Assignments

variable {unicode : UnicodeData}

/-- `lead` and `value` are a match of `SECRET_ASSIGNMENT` and its group, between the characters
`b` and `d`. -/
structure Assignment (unicode : UnicodeData) (b : Option Char) (lead value : List Char)
    (d : Option Char) : Prop where
  start : b.any (isWord unicode) = false
  lead : ∃ keyword sign, lead = keyword ++ sign ∧ Language secretKeyword keyword ∧
    Language assignmentSign sign
  characters : ∀ c ∈ value, valueCharacter c = true
  length : 12 ≤ value.length
  stop : d.any valueCharacter = false

def matchAssignment (unicode : UnicodeData) (cursor : Cursor) : Option (List Char × Cursor) :=
  lastGroup unicode secretAssignmentLead secretAssignmentValue cursor

theorem isWord_of_letter (hdata : LawfulWords unicode) {c : Char}
    (h : letterIgnoringCase c = true) :
    isWord unicode c = true := by
  rw [isWord, hdata.letters c h]
  rfl

theorem sign_not_word (hdata : LawfulWords unicode) {c : Char} (h : signCharacter c = true) :
    isWord unicode c = false := by
  have hunderscore : c ≠ '_' := by
    rintro rfl
    exact absurd h (by decide)
  rw [isWord, decide_eq_false hunderscore, Bool.or_false]
  by_cases hspace : isSpace c = true
  · exact hdata.spaces c hspace
  · have hsigns : ∀ d ∈ [':', '=', '\'', '"'], d.toNat < 128 ∧ d.isAlphanum = false :=
      forall_mem_of_all (by decide)
    obtain ⟨hascii, halnum⟩ :=
      hsigns c (by simpa [signCharacter, isQuote, hspace, or_assoc] using h)
    rw [(hdata.ascii c hascii).2, halnum]

theorem keyword_first {keyword : List Char} (h : Language secretKeyword keyword) :
    ∃ c rest, keyword = c :: rest ∧ keywordHead c = true := by
  obtain ⟨c, rest, hkeyword, hc⟩ :=
    language_first keywordPattern_secretKeyword.free keywordPattern_secretKeyword.starts h
  exact ⟨c, rest, hkeyword, by simpa using hc⟩

theorem keyword_last {keyword : List Char} (h : Language secretKeyword keyword) :
    ∃ rest c, keyword = rest ++ [c] ∧ letterIgnoringCase c = true := by
  obtain ⟨rest, c, hkeyword, hc⟩ :=
    language_last keywordPattern_secretKeyword.free keywordPattern_secretKeyword.ends h
  exact ⟨rest, c, hkeyword, by simpa using hc⟩

theorem keyword_characters {keyword : List Char} (h : Language secretKeyword keyword) :
    ∀ c ∈ keyword, keywordCharacter c = true := by
  intro c hc
  simpa using language_solid keywordPattern_secretKeyword.solid h c hc

theorem sign_first {sign : List Char} (h : Language assignmentSign sign) :
    ∃ c rest, sign = c :: rest ∧ signCharacter c = true := by
  have hsigns := signCharacter_of_mem h
  obtain ⟨spaces, c, spaces', quote, rfl, -⟩ := language_sign h
  cases spaces with
  | nil => exact ⟨c, spaces' ++ quote, rfl, hsigns c (by simp)⟩
  | cons d spaces => exact ⟨d, _, rfl, hsigns d (by simp)⟩

theorem mem_lead_iff (hdata : LawfulWords unicode) {b : Option Char} {text : List Char}
    {start : Cursor} :
    start ∈ ends unicode secretAssignmentLead (b, text) ↔
      b.any (isWord unicode) = false ∧ ∃ keyword sign, Language secretKeyword keyword ∧
        Language assignmentSign sign ∧ Past (keyword ++ sign) (b, text) start := by
  have hstart {keyword : List Char} {mid : Cursor} (hkeyword : Language secretKeyword keyword)
      (hpast : Past keyword (b, text) mid) : atBoundary unicode (b, text) =
        ! b.any (isWord unicode) := by
    obtain ⟨c, rest, rfl, hc⟩ := keyword_first hkeyword
    have htext : text = c :: (rest ++ mid.2) := hpast.text
    have hword := isWord_of_letter hdata (letter_of_keywordHead hc)
    simp [atBoundary, htext, hword]
  have hboundary {keyword sign : List Char} {mid : Cursor}
      (hkeyword : Language secretKeyword keyword)
      (hsign : Language assignmentSign sign) (hpast : Past keyword (b, text) mid)
        (hnext : Past sign mid start) :
      atBoundary unicode mid = true := by
    obtain ⟨rest, c, rfl, hc⟩ := keyword_last hkeyword
    obtain ⟨d, rest', rfl, hd⟩ := sign_first hsign
    have hword := isWord_of_letter hdata hc
    simp [atBoundary, hpast.before, hnext.text, hword, sign_not_word hdata hd]
  rw [secretAssignmentLead_eq]
  constructor
  · intro h
    obtain ⟨first, hfirst, hrest⟩ := List.mem_flatMap.mp h
    obtain ⟨mid, hmid, hrest⟩ := List.mem_flatMap.mp hrest
    obtain ⟨next, hnext, hend⟩ := List.mem_flatMap.mp hrest
    obtain ⟨hbound, rfl⟩ := mem_boundary.mp hfirst
    obtain ⟨-, rfl⟩ := mem_boundary.mp hnext
    obtain ⟨keyword, hkeyword, hpast⟩ := (mem_ends_iff keywordPattern_secretKeyword.free).mp hmid
    obtain ⟨sign, hsign, hpast'⟩ := (mem_ends_iff free_assignmentSign).mp hend
    rw [hstart hkeyword hpast] at hbound
    exact ⟨by simpa using hbound, keyword, sign, hkeyword, hsign, past_append.mpr ⟨_, hpast, hpast'⟩⟩
  · rintro ⟨hb, keyword, sign, hkeyword, hsign, h⟩
    obtain ⟨mid, hpast, hnext⟩ := past_append.mp h
    refine List.mem_flatMap.mpr ⟨(b, text), mem_boundary.mpr ⟨?_, rfl⟩, ?_⟩
    · rw [hstart hkeyword hpast, hb]
      rfl
    · refine List.mem_flatMap.mpr ⟨mid, ?_, List.mem_flatMap.mpr ⟨mid, ?_, ?_⟩⟩
      · exact (mem_ends_iff keywordPattern_secretKeyword.free).mpr ⟨keyword, hkeyword, hpast⟩
      · exact mem_boundary.mpr ⟨hboundary hkeyword hsign hpast hnext, rfl⟩
      · exact (mem_ends_iff free_assignmentSign).mpr ⟨sign, hsign, hnext⟩

theorem assignment_of_match (hdata : LawfulWords unicode) {b : Option Char} {text value : List Char}
    {stop : Cursor} (h : matchAssignment unicode (b, text) = some (value, stop)) :
    ∃ lead, text = lead ++ (value ++ stop.2) ∧ Assignment unicode b lead value stop.2.head? := by
  obtain ⟨start, hstart, hlength, rfl, rfl⟩ := lastGroup_run h
  obtain ⟨hb, keyword, sign, hkeyword, hsign, hpast⟩ := (mem_lead_iff hdata).mp hstart
  refine ⟨keyword ++ sign, ?_, hb, ⟨keyword, sign, rfl, hkeyword, hsign⟩, ?_, hlength, ?_⟩
  · have htext : text = keyword ++ sign ++ start.2 := hpast.text
    rw [htext, afterRun, List.takeWhile_append_dropWhile]
  · exact fun c hc ↦ List.mem_takeWhile_imp hc
  · exact head?_dropWhile_any valueCharacter start.2

theorem Assignment.ne_nil {b d : Option Char} {lead value : List Char}
    (h : Assignment unicode b lead value d) :
    value ≠ [] := by
  rintro rfl
  exact absurd h.length (by decide)

theorem Assignment.value_eq {b : Option Char} {lead value rest : List Char}
    (h : Assignment unicode b lead value rest.head?) :
    (afterSign (lead ++ (value ++ rest))).takeWhile valueCharacter = value := by
  obtain ⟨keyword, sign, rfl, hkeyword, hsign⟩ := h.lead
  rw [List.append_assoc, afterSign_eq (keyword_characters hkeyword) hsign h.characters h.ne_nil]
  exact takeWhile_run h.characters h.stop

theorem match_of_assignment (hdata : LawfulWords unicode) {b : Option Char}
    {lead value rest : List Char} (h : Assignment unicode b lead value rest.head?) :
    ∃ stop, matchAssignment unicode (b, lead ++ (value ++ rest)) = some (value, stop) := by
  obtain ⟨keyword, sign, hlead, hkeyword, hsign⟩ := h.lead
  have hstart : (lead.getLast?.or b, value ++ rest) ∈
      ends unicode secretAssignmentLead (b, lead ++ (value ++ rest)) := by
    refine (mem_lead_iff hdata).mpr ⟨h.start, keyword, sign, hkeyword, hsign, ?_⟩
    rw [← hlead]
    exact ⟨rfl, rfl⟩
  have hrun : ((lead.getLast?.or b, value ++ rest) : Cursor).2.takeWhile valueCharacter = value :=
    takeWhile_run h.characters h.stop
  obtain ⟨found, stop, hfound⟩ := exists_lastGroup hstart (hrun.symm ▸ h.length)
  obtain ⟨lead', htext, h'⟩ := assignment_of_match hdata hfound
  have hvalue : found = value := by rw [← h'.value_eq, ← htext, h.value_eq]
  exact ⟨stop, hvalue ▸ hfound⟩

theorem length_le_lowered (hdata : LawfulCase unicode) (text : List Char) :
    text.length ≤ (lowered unicode text).length := by
  induction text with
  | nil => exact Nat.zero_le _
  | cons c text ih =>
    have hpos := List.length_pos_of_ne_nil (hdata.nonempty c)
    rw [lowered_cons, List.length_append, List.length_cons]
    omega

theorem lowered_placeholder (hdata : LawfulWords unicode) {value : List Char}
    (hlength : 12 ≤ value.length) (hsafe : String.ofList (unicode.lower value) ∈ safePlaceholders) :
    lowered unicode value = "not_configured".toList := by
  have hall : (safePlaceholders.all fun safe ↦ (safe.toList.all fun d ↦ decide (d.toNat < 128)) &&
      (decide (safe.toList.length < 12) || safe.toList = "not_configured".toList)) = true := by
        decide +kernel
  obtain ⟨hascii, hlong⟩ := Bool.and_eq_true_iff.mp (List.all_eq_true.mp hall _ hsafe)
  rw [String.toList_ofList] at hascii hlong
  have hlower : unicode.lower value = lowered unicode value := by
    refine hdata.text value fun c hc _ ↦ hdata.characters value (fun d hd ↦ ?_) c hc
    exact of_decide_eq_true (List.all_eq_true.mp hascii d hd)
  have hle := length_le_lowered hdata.toLawfulCase value
  rw [hlower] at hlong
  rcases Bool.or_eq_true_iff.mp hlong with hshort | hlong
  · have hlt := of_decide_eq_true hshort
    omega
  · exact of_decide_eq_true hlong

theorem lower_keywordHead (hdata : LawfulWords unicode) {c : Char} (h : keywordHead c = true) :
    unicode.lower [c] ∈ [['a'], ['c'], ['p'], ['r'], ['s'], ['t'], ['\u017F']] := by
  have hheads : ∀ p ∈ ['a', 'c', 'p', 'r', 's', 't'], p.toNat < 128 ∧ p.toUpper.toNat < 128 ∧
      [p.toLower] ∈ [['a'], ['c'], ['p'], ['r'], ['s'], ['t'], ['\u017F']] ∧
      [p.toUpper.toLower] ∈ [['a'], ['c'], ['p'], ['r'], ['s'], ['t'], ['\u017F']] ∧
      p ≠ 'k' ∧ p ≠ 'i' :=
    forall_mem_of_all (by decide)
  obtain ⟨p, hp, hc⟩ := List.any_eq_true.mp h
  obtain ⟨hascii, hascii', hlower, hupper, hk, hi⟩ := hheads p hp
  simp only [sameLetter, Bool.or_eq_true, Bool.and_eq_true, decide_eq_true_eq, hk, hi, false_and,
    or_false] at hc
  rcases hc with (rfl | rfl) | ⟨-, hc⟩
  · rwa [(hdata.ascii c hascii).1]
  · rwa [(hdata.ascii _ hascii').1]
  · obtain rfl : c = '\u017F' := Char.ext (UInt32.toNat_inj.mp hc)
    rw [hdata.longS]
    decide

theorem placeholder_characters (hdata : LawfulWords unicode) {value : List Char}
    (hvalue : ∀ c ∈ value, valueCharacter c = true) (hlength : 12 ≤ value.length)
    (hsafe : String.ofList (unicode.lower value) ∈ safePlaceholders) :
    (∀ c ∈ value, isWord unicode c = true) ∧
      ∀ c rest, value = c :: rest → keywordHead c = false := by
  have hlowered := lowered_placeholder hdata hlength hsafe
  constructor
  · intro c hc
    rcases Bool.or_eq_true_iff.mp (hvalue c hc) with halnum | hsign
    · rcases Bool.or_eq_true_iff.mp halnum with hletter | hdigit
      · exact isWord_of_letter hdata hletter
      · have hdigit :=
          isAlnum_of_alphanum hdata.toLawfulCase (Bool.or_eq_true_iff.mpr (.inr hdigit))
        rw [isWord, hdigit]
        rfl
    · have hsigns : ∀ d ∈ ['_', '.', '/', '+', '=', '-'],
          d = '_' ∨ d.toNat < 128 ∧ d.toLower ∉ "not_configured".toList :=
        forall_mem_of_all (by decide)
      rcases hsigns c (of_decide_eq_true hsign) with rfl | ⟨hascii, hnot⟩
      · simp [isWord]
      · refine absurd ?_ hnot
        rw [← hlowered]
        refine List.mem_flatMap.mpr ⟨c, hc, ?_⟩
        rw [(hdata.ascii c hascii).1]
        exact List.mem_singleton_self _
  · rintro c rest rfl
    by_contra hhead
    have hlower := lower_keywordHead hdata (by simpa using hhead)
    rw [lowered_cons] at hlowered
    simp only [List.mem_cons, List.not_mem_nil, or_false] at hlower
    rcases hlower with h | h | h | h | h | h | h <;>
    · rw [h] at hlowered
      exact absurd (List.cons.inj hlowered).1 (by decide)

theorem append_cases {pre rest word tail : List Char} (h : pre ++ rest = word ++ tail) :
    (∃ c inside, word = pre ++ c :: inside ∧ rest = c :: inside ++ tail) ∨
      ∃ skipped, pre = word ++ skipped ∧ tail = skipped ++ rest := by
  rcases List.append_eq_append_iff.mp h with ⟨inside, hword, hrest⟩ | ⟨skipped, hpre, htail⟩
  · cases inside with
    | nil => exact .inr ⟨[], by simpa using hword.symm, hrest.symm⟩
    | cons c inside => exact .inl ⟨c, inside, hword, hrest⟩
  · exact .inr ⟨skipped, hpre, htail⟩

theorem hidden_secret (hdata : LawfulWords unicode) {b : Option Char}
    {pre rest value found : List Char} {stop stop' : Cursor}
    (hfound : matchAssignment unicode (b, pre ++ rest) = some (found, stop'))
    (hvalue : matchAssignment unicode (pre.getLast?.or b, rest) = some (value, stop))
    (hcover : stop'.2.length < rest.length)
    (hsecret : String.ofList (unicode.lower value) ∉ safePlaceholders) :
    String.ofList (unicode.lower found) ∉ safePlaceholders := by
  intro hsafe
  obtain ⟨lead, htext, hassign⟩ := assignment_of_match hdata hfound
  obtain ⟨lead', rfl, hassign'⟩ := assignment_of_match hdata hvalue
  obtain ⟨hwords, hhead⟩ := placeholder_characters hdata hassign.characters hassign.length hsafe
  obtain ⟨keyword, sign, rfl, hkeyword, hsign⟩ := hassign.lead
  obtain ⟨keyword', sign', hlead', hkeyword', -⟩ := hassign'.lead
  -- the hidden assignment begins with the first letter of a keyword
  obtain ⟨first, letters, hletters, hfirst⟩ := keyword_first hkeyword'
  have hbegin : ∀ {c : Char} {text : List Char}, lead' ++ (value ++ stop.2) = c :: text →
      keywordHead c = true := by
    intro c text h
    rw [hlead', hletters] at h
    rwa [← (List.cons.inj h).1]
  rw [List.append_assoc] at htext
  rcases append_cases htext with ⟨c, inside, hinside, hrest⟩ | ⟨skipped, rfl, hrest⟩
  · -- inside the keyword: the value is the same
    have hcharacters : ∀ d ∈ c :: inside, keywordCharacter d = true := by
      intro d hd
      exact keyword_characters hkeyword d (hinside ▸ List.mem_append_right _ hd)
    have hsame := hassign'.value_eq
    rw [hrest, afterSign_eq hcharacters hsign hassign.characters hassign.ne_nil,
      takeWhile_run hassign.characters hassign.stop] at hsame
    exact hsecret (hsame ▸ hsafe)
  · rcases append_cases hrest.symm with ⟨c, inside, hinside, hsuffix⟩ | ⟨skipped', rfl, hsuffix⟩
    · -- inside the sign, which has no letter
      have hletter := keyword_of_letter (letter_of_keywordHead (hbegin hsuffix))
      rw [sign_not_keyword (signCharacter_of_mem hsign c (hinside ▸ by simp))] at hletter
      cases hletter
    · rcases append_cases hsuffix.symm with ⟨c, inside, rfl, hlater⟩ | ⟨beyond, rfl, hlater⟩
      · -- inside the placeholder, which is one word
        rcases List.eq_nil_or_concat skipped' with rfl | ⟨skipped', d, rfl⟩
        · have hletter := hbegin hlater
          rw [hhead c inside rfl] at hletter
          cases hletter
        · have hstart := hassign'.start
          have hword := hwords d (by simp)
          rw [List.concat_eq_append, ← List.append_assoc, ← List.append_assoc,
            List.getLast?_concat] at hstart
          simp [hword] at hstart
      · have hlength := congrArg List.length hlater
        rw [List.length_append] at hlength
        omega

end Assignments

end AgenticSecurity.Publishing
