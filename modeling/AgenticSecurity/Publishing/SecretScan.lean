import AgenticSecurity.Library.Runs
import AgenticSecurity.Publishing.Scanner

namespace AgenticSecurity.Publishing

open Library Python Regex Runs

variable (data : ScanData)

/-- The string matches a credential format. -/
def KnownSecret (value : CodePoints) : Prop :=
  ∃ pattern ∈ knownSecretPatterns, search data.toUnicodeData pattern (characters value) = true

variable {data}

def secretCharacter (c : Char) : Bool :=
  letterIgnoringCase c || c.isDigit || c ∈ ['_', '-', '.', '/', '+', '=', '*']

def Apart (blank : Char → Bool) : Prop := ∀ c, secretCharacter c = true → blank c = false

theorem secretCharacter_of_alphanum {c : Char} (h : c.isAlphanum = true) :
    secretCharacter c = true := by
  rcases Bool.or_eq_true_iff.mp h with halpha | hdigit
  · simp [secretCharacter, letterIgnoringCase, halpha]
  · simp [secretCharacter, hdigit]

theorem secretCharacter_of_alnumOr {extra : List Char}
    (hextra : ∀ c ∈ extra, secretCharacter c = true) {c : Char} (h : alnumOr extra c = true) :
    secretCharacter c = true := by
  rcases Bool.or_eq_true_iff.mp h with h | h
  · exact secretCharacter_of_alphanum h
  · exact hextra c (of_decide_eq_true h)

theorem secretCharacter_of_upperOrDigit {c : Char} (h : upperOrDigit c = true) :
    secretCharacter c = true := by
  apply secretCharacter_of_alphanum
  rcases Bool.or_eq_true_iff.mp h with h | h
  · exact Bool.or_eq_true_iff.mpr (.inl (Bool.or_eq_true_iff.mpr (.inl h)))
  · exact Bool.or_eq_true_iff.mpr (.inr h)

theorem apart_isSpace : Apart isSpace := by
  intro c hc
  rcases Bool.or_eq_true_iff.mp hc with hc | hsign
  · rcases Bool.or_eq_true_iff.mp hc with hletter | hdigit
    · by_cases halpha : c.isAlpha = true
      · exact isSpace_of_alphanum (Bool.or_eq_true_iff.mpr (.inl halpha))
      · have hfolded : c.toNat = 8490 ∨ c.toNat = 383 ∨ c.toNat = 304 ∨ c.toNat = 305 := by
          simpa [letterIgnoringCase, halpha, or_assoc] using hletter
        simp only [isSpace, Bool.or_eq_false_iff, Bool.and_eq_false_iff, decide_eq_false_iff_not]
        omega
    · exact isSpace_of_alphanum (Bool.or_eq_true_iff.mpr (.inr hdigit))
  · have hsigns :
        ∀ d ∈ ['_', '-', '.', '/', '+', '=', '*'], isSpace d = false :=
      forall_mem_of_all (by decide)
    exact hsigns c (of_decide_eq_true hsign)

section Bordered

variable {blank : Char → Bool}

variable (blank) in
def Plain (r : Regex) : Prop := Blind blank r ∧ Solid blank r

theorem plain_one {accepts : Char → Bool} (h : ∀ c, accepts c = true → blank c = false) :
    Plain blank (one accepts) :=
  ⟨trivial, h⟩

theorem plain_text {literal : String} (h : ∀ c ∈ literal.toList, blank c = false) :
    Plain blank (text literal) :=
  ⟨blind_text literal, solid_text h⟩

theorem plain_atLeast {m : ℕ} {body : Regex} (h : Plain blank body) :
    Plain blank (atLeast m body) :=
  bordered_repetition h.1 h.2 h

theorem plain_between {m n : ℕ} {body : Regex} (h : Plain blank body) :
    Plain blank (between m n body) :=
  bordered_repetition h.1 h.2 h

theorem bordered_isolated {outside : Char → Bool}
    (houtside : ∀ c, outside c = true → blank c = false) {first : Regex} {inner : List Regex}
    (hstart : StartsSolid blank first)
    (h : ∀ r ∈ first :: inner, Plain blank r) :
    Bordered blank (isolated outside (first :: inner)) := by
  have hreject : ∀ c, blank c = true → outside c = false := fun c hc ↦ by
    by_contra hout
    rw [houtside c (by simpa using hout)] at hc
    cases hc
  have hparts :
      ∀ r ∈ notAfter outside :: (first :: inner ++ [notBefore outside]), Plain blank r := by
    intro r hr
    rcases List.mem_cons.mp hr with rfl | hr
    · exact ⟨hreject, fun c hc ↦ absurd hc id⟩
    · rcases List.mem_append.mp hr with hr | hr
      · exact h r hr
      · obtain rfl := List.mem_singleton.mp hr
        exact ⟨hreject, fun c hc ↦ absurd hc id⟩
  refine ⟨blind_sequence fun r hr ↦ (hparts r hr).1, .inr ⟨trivial, ?_⟩,
    .inl (solid_sequence fun r hr ↦ (hparts r hr).2)⟩
  cases inner with
  | nil => exact .inl hstart
  | cons r inner => exact .inl hstart

variable (hblank : Apart blank)

include hblank

theorem solid_literal {literal : String} (h : ∀ c ∈ literal.toList, secretCharacter c = true) :
    ∀ c ∈ literal.toList, blank c = false := fun c hc ↦ hblank c (h c hc)

theorem bordered_privateKeyHeader : Bordered blank privateKeyHeader := by
  have hdash : blank '-' = false := hblank '-' (by decide)
  have hstart : StartsSolid blank (text "-----BEGIN ") :=
    startsSolid_text '-' "----BEGIN ".toList rfl hdash
  have hend : EndsSolid blank (text "PRIVATE KEY-----") := by
    apply endsSolid_text "PRIVATE KEY----".toList '-'
    · decide
    · exact hdash
  unfold privateKeyHeader
  simp only [Regex.sequence]
  exact ⟨⟨blind_text _, trivial, blind_text _⟩, .inl hstart, .inr (.inl (.inl hend))⟩

theorem bordered_known {pattern : Regex} (h : pattern ∈ knownSecretPatterns) :
    Bordered blank pattern := by
  have halnum : ∀ c, alnumOr [] c = true → blank c = false :=
    fun c hc ↦ hblank c (secretCharacter_of_alnumOr (by simp) hc)
  have hword : ∀ c, alnumOr ['_'] c = true → blank c = false :=
    fun c hc ↦ hblank c (secretCharacter_of_alnumOr (forall_mem_of_all (by decide)) hc)
  have hdash : ∀ c, alnumOr ['_', '-'] c = true → blank c = false :=
    fun c hc ↦ hblank c (secretCharacter_of_alnumOr (forall_mem_of_all (by decide)) hc)
  have hupper : ∀ c, upperOrDigit c = true → blank c = false :=
    fun c hc ↦ hblank c (secretCharacter_of_upperOrDigit hc)
  have hliteral {literal : String} (h : ∀ c ∈ literal.toList, secretCharacter c = true) :
      Plain blank (text literal) := plain_text (solid_literal hblank h)
  have hstart {literal : String} (c : Char) (rest : List Char) (h : literal.toList = c :: rest)
      (hc : secretCharacter c = true) : StartsSolid blank (text literal) :=
    startsSolid_text c rest h (hblank c hc)
  simp only [knownSecretPatterns, List.mem_cons, List.not_mem_nil, or_false] at h
  rcases h with rfl | rfl | rfl | rfl | rfl | rfl | rfl
  · exact bordered_privateKeyHeader hblank
  · refine bordered_isolated halnum (hstart 'g' "hp_".toList rfl (by decide)) ?_
    simp only [List.forall_mem_cons]
    exact ⟨hliteral (forall_mem_of_all (by decide)), plain_between (plain_one halnum), by simp⟩
  · refine bordered_isolated hword (hstart 'g' "ithub_pat_".toList rfl (by decide)) ?_
    simp only [List.forall_mem_cons]
    exact ⟨hliteral (forall_mem_of_all (by decide)), plain_between (plain_one hword), by simp⟩
  · refine bordered_isolated hdash (hstart 's' "k-proj-".toList rfl (by decide)) ?_
    simp only [List.forall_mem_cons]
    exact ⟨hliteral (forall_mem_of_all (by decide)), plain_between (plain_one hdash), by simp⟩
  · refine bordered_isolated hdash (hstart 's' "k-".toList rfl (by decide)) ?_
    simp only [List.forall_mem_cons]
    exact ⟨hliteral (forall_mem_of_all (by decide)), plain_between (plain_one halnum), by simp⟩
  · refine bordered_isolated hupper ?_ ?_
    · exact ⟨hstart 'A' "KIA".toList rfl (by decide), hstart 'A' "SIA".toList rfl (by decide)⟩
    · have hkeys : Plain blank (anyOf [text "AKIA", text "ASIA"]) := by
        have hone : Plain blank (text "AKIA") := hliteral (forall_mem_of_all (by decide))
        have htwo : Plain blank (text "ASIA") := hliteral (forall_mem_of_all (by decide))
        exact ⟨⟨hone.1, htwo.1⟩, fun c hc ↦ hc.elim (hone.2 c) (htwo.2 c)⟩
      simp only [List.forall_mem_cons]
      exact ⟨hkeys, plain_between (plain_one hupper), by simp⟩
  · refine bordered_isolated hdash (hstart 'e' "yJ".toList rfl (by decide)) ?_
    have hpart : Plain blank (atLeast 8 (one (alnumOr ['_', '-']))) :=
      plain_atLeast (plain_one hdash)
    have hdot : Plain blank (text ".") := hliteral (forall_mem_of_all (by decide))
    simp only [List.forall_mem_cons]
    exact ⟨hliteral (forall_mem_of_all (by decide)), hpart, hdot, hpart, hdot, hpart, by simp⟩

theorem bordered_masked : Bordered blank maskedSecret := by
  have hstar : ∀ c, decide (c = '*') = true → blank c = false :=
    fun c hc ↦ hblank c (of_decide_eq_true hc ▸ by decide)
  refine bordered_isolated hstar (.inl hstar) ?_
  simp only [List.forall_mem_cons]
  exact ⟨plain_atLeast (plain_one hstar), by simp⟩

end Bordered

theorem search_strip {pattern : Regex} (hpattern : pattern ∈ knownSecretPatterns)
    {value : List Char} (h : search data.toUnicodeData pattern value = true) :
    search data.toUnicodeData pattern (strip value) = true := by
  obtain ⟨lead, post, hsplit, hlead, hpost⟩ := strip_surrounded value
  rw [hsplit] at h
  exact search_of_surrounded (bordered_known apart_isSpace hpattern) hlead hpost h

theorem scanPatterns_ok {value : List Char} {location : String}
    (h : scanPatterns data value location = .ok ()) :
    ∀ pattern ∈ knownSecretPatterns, search data.toUnicodeData pattern value = false := by
  unfold scanPatterns at h
  split_ifs at h with hmasked hknown
  simpa using hknown

theorem scanString_ok {value : List Char} {location : String} {allowed : Option ℕ}
    (h : scanString data value location allowed = .ok ()) :
    ∀ pattern ∈ knownSecretPatterns, search data.toUnicodeData pattern value = false := by
  obtain ⟨_, hpatterns, -⟩ := except_bind_ok.mp h
  intro pattern hpattern
  cases hfound : search data.toUnicodeData pattern value with
  | false => rfl
  | true =>
    rw [← scanPatterns_ok hpatterns pattern hpattern]
    exact (search_strip hpattern hfound).symm

mutual

theorem scanJson_ok : ∀ (value : Json) {location : String} {allowed : Option ℕ},
    scanJson data value location allowed = .ok () → ∀ s ∈ value.texts, ¬ KnownSecret data s
  | .null, _, _, _, _, hs => absurd hs List.not_mem_nil
  | .boolean _, _, _, _, _, hs => absurd hs List.not_mem_nil
  | .number, _, _, _, _, hs => absurd hs List.not_mem_nil
  | .string text, _, _, h, s, hs => by
    obtain rfl := List.mem_singleton.mp hs
    rintro ⟨pattern, hpattern, hfound⟩
    rw [scanString_ok h pattern hpattern] at hfound
    cases hfound
  | .array items, _, _, h, s, hs => scanItems_ok items h s hs
  | .object members, _, _, h, s, hs => scanMembers_ok members h s hs

theorem scanItems_ok : ∀ (items : List Json) {location : String} {index : ℕ} {allowed : Option ℕ},
    scanItems data items location index allowed = .ok () →
    ∀ s ∈ itemTexts items, ¬ KnownSecret data s
  | [], _, _, _, _, _, hs => absurd hs List.not_mem_nil
  | item :: items, _, _, _, h, s, hs => by
    obtain ⟨_, hitem, hitems⟩ := except_bind_ok.mp h
    rcases List.mem_append.mp hs with hs | hs
    · exact scanJson_ok item hitem s hs
    · exact scanItems_ok items hitems s hs

theorem scanMembers_ok : ∀ (members : List (CodePoints × Json)) {location : String},
    scanMembers data members location = .ok () → ∀ s ∈ memberTexts members, ¬ KnownSecret data s
  | [], _, _, _, hs => absurd hs List.not_mem_nil
  | (key, item) :: members, _, h, s, hs => by
    rw [scanMembers] at h
    split_ifs at h with hkey
    obtain ⟨_, hitem, hmembers⟩ := except_bind_ok.mp h
    rcases List.mem_append.mp hs with hs | hs
    · exact scanJson_ok item hitem s hs
    · exact scanMembers_ok members hmembers s hs

end

theorem scanPublicFile_json {path : Git.TreePath} {raw : Bytes} {text : List Char} {document : Json}
    (hjson : loweredSuffix data path = ".json") (htext : decodeUtf8 raw = some text)
    (hdocument : readDocument text = some document) (h : scanPublicFile data path raw = .ok ()) :
    scanJson data document.value (asPosix path) none = .ok () := by
  unfold scanPublicFile at h
  rw [htext] at h
  dsimp only at h
  split_ifs at h with hpath htype hnull
  rwa [loads, hdocument] at h

/-- In an accepted document only names, and values whose member is repeated later in the same
object, can match a credential format. -/
theorem no_known_secret_iff {path : Git.TreePath} {raw : Bytes} {text : List Char} {document : Json}
    (hjson : loweredSuffix data path = ".json") (htext : decodeUtf8 raw = some text)
    (hdocument : readDocument text = some document) (h : scanPublicFile data path raw = .ok ()) :
    (∀ s ∈ document.strings, ¬ KnownSecret data s) ↔
      (∀ s ∈ document.names, ¬ KnownSecret data s) ∧
        ∀ s ∈ document.shadowed, ¬ KnownSecret data s := by
  have hscan := scanPublicFile_json hjson htext hdocument h
  constructor
  · intro hall
    exact ⟨fun s hs ↦ hall s (document.strings_of_names hs),
      fun s hs ↦ hall s (document.strings_of_shadowed hs)⟩
  · rintro ⟨hnames, hshadowed⟩ s hs
    rcases document.mem_strings hs with hs | hs | hs
    · exact hnames s hs
    · exact hshadowed s hs
    · exact scanJson_ok document.value hscan s hs

def asciiScan : ScanData where
  toUnicodeData := asciiData
  nfkc := id
  bracketedNetloc _ := false
  isGlobal _ := none
  decodeReplace bytes := bytes.map fun b ↦ Char.ofNat b.toNat
  highEntropy _ := true

def contentPath : Git.TreePath := ["content.json"]

def tokenName : String := "\x7b\"ghp_AAAAAAAAAAAAAAAAAAAA\":1\x7d"

def tokenShadowed : String := "\x7b\"a\":\"ghp_AAAAAAAAAAAAAAAAAAAA\",\"a\":1\x7d"

def githubToken : CodePoints := "ghp_AAAAAAAAAAAAAAAAAAAA".toList.map Char.toNat

theorem githubToken_known : KnownSecret asciiScan githubToken :=
  ⟨isolated (alnumOr []) [text "ghp_",
    between 20 255 (one (alnumOr []))], by simp [knownSecretPatterns], by decide +kernel⟩

theorem tokenName_strings :
    (readDocument tokenName.toList).map Json.strings = some [githubToken] := by
  decide +kernel

theorem tokenShadowed_strings : (readDocument tokenShadowed.toList).map Json.strings =
    some [[97], githubToken, [97]] := by decide +kernel

/-- Both are accepted, although the token stands in them. -/
theorem tokens_accepted :
    (scanPublicFile asciiScan contentPath (encodeUtf8 tokenName) = .ok () ∧
      ∃ document, readDocument tokenName.toList = some document ∧
        ∃ s ∈ document.strings, KnownSecret asciiScan s) ∧
    scanPublicFile asciiScan contentPath (encodeUtf8 tokenShadowed) = .ok () ∧
      ∃ document, readDocument tokenShadowed.toList = some document ∧
        ∃ s ∈ document.strings, KnownSecret asciiScan s := by
  obtain ⟨named, hnamed, hnames⟩ := Option.map_eq_some_iff.mp tokenName_strings
  obtain ⟨shadowing, hshadowing, hshadowed⟩ := Option.map_eq_some_iff.mp tokenShadowed_strings
  refine ⟨⟨by decide +kernel, named, hnamed, githubToken, ?_, githubToken_known⟩, by decide +kernel, shadowing,
    hshadowing, githubToken, ?_, githubToken_known⟩
  · rw [hnames]
    exact List.mem_singleton_self _
  · rw [hshadowed]
    exact List.mem_cons_of_mem _ List.mem_cons_self

def plainDocument : String := "\x7b\"a\":\"b\"\x7d"

theorem no_known_secret_iff_plain :
    scanPublicFile asciiScan contentPath (encodeUtf8 plainDocument) = .ok () ∧
      ∃ document, readDocument plainDocument.toList = some document ∧
        ((∀ s ∈ document.strings, ¬ KnownSecret asciiScan s) ↔
          (∀ s ∈ document.names, ¬ KnownSecret asciiScan s) ∧
            ∀ s ∈ document.shadowed, ¬ KnownSecret asciiScan s) := by
  have haccepted : scanPublicFile asciiScan contentPath (encodeUtf8 plainDocument) = .ok () := by
    decide +kernel
  have hread : (readDocument plainDocument.toList).map Json.strings = some [[97], [98]] := by
    decide +kernel
  obtain ⟨document, hdocument, -⟩ := Option.map_eq_some_iff.mp hread
  exact ⟨haccepted, document, hdocument,
    no_known_secret_iff (show loweredSuffix asciiScan contentPath = ".json" by decide +kernel)
      (show decodeUtf8 (encodeUtf8 plainDocument) = some plainDocument.toList by decide +kernel)
        hdocument haccepted⟩

end AgenticSecurity.Publishing
