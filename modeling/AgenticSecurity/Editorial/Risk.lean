import AgenticSecurity.Editorial.Pipelines
import AgenticSecurity.Publishing.Laundering
import AgenticSecurity.Python.TimeOrder
import AgenticSecurity.Python.Words

namespace AgenticSecurity.Editorial

open Library FixedWidth Models Python Regex
open Publishing (LawfulWords letter_of_sameLetter foldedScan lawfulWords_folded)

inductive EditorialRisk
  | low | medium | high
  deriving DecidableEq, Repr

/-- `zero[- ]day`. -/
def zeroDay : Regex :=
  Regex.sequence [textIgnoringCase "zero", one (fun c ↦ c = '-' || c = ' '), textIgnoringCase "day"]

def highTerms : Regex :=
  anyOf
    [zeroDay, textIgnoringCase "exploitability", textIgnoringCase "breach",
      textIgnoringCase "named victim", textIgnoringCase "attribution",
      textIgnoringCase "security failure",
      textIgnoringCase "unpublished vulnerability", textIgnoringCase "accusation"]

def mediumTerms : Regex :=
  anyOf
    [textIgnoringCase "compare", textIgnoringCase "benchmark", textIgnoringCase "architecture",
      textIgnoringCase "trend", textIgnoringCase "better than", textIgnoringCase "leader"]

section Classify

variable (unicode : UnicodeData)

def classifyEditorialRisk (text : String) : EditorialRisk :=
  if search unicode (asWord highTerms) text.toList then .high
  else if search unicode (asWord mediumTerms) text.toList then .medium
  else .low

def requireHumanReview (text : String) (humanApproved : Bool) : Except String Unit :=
  if classifyEditorialRisk unicode text = .high ∧ ¬ humanApproved then
    .error "HIGH-risk editorial content requires explicit human review"
  else .ok ()

end Classify

def separators : List Char := ['\n', ',', ':']

def isSeparator (text : String) : Bool :=
  match text.toList with
  | c :: blanks => separators.contains c && blanks.all (· = ' ')
  | [] => false

structure Terms (blank : Char → Bool) (r : Regex) : Prop where
  free : Free r
  starts : StartsSolid blank r
  ends : EndsSolid blank r
  whole : ∀ c ∈ separators, ¬ Consumes r c

def plainLetter (p : Char) : Bool := p.isAlpha && p.toUpper.isAlpha

def isTerm (literal : String) : Bool :=
  literal.toList.head?.any plainLetter && literal.toList.getLast?.any plainLetter &&
    literal.toList.all fun p ↦ separators.all fun c ↦ ! sameLetter p c

variable {unicode : UnicodeData} {blank : Char → Bool} {r : Regex} {rs : List Regex}

theorem startsSolid_sequence (h : StartsSolid blank r) :
    StartsSolid blank (Regex.sequence (r :: rs)) := by
  cases rs with
  | nil => exact h
  | cons s rs => exact .inl h

theorem endsSolid_sequence (h : EndsSolid blank r) :
    EndsSolid blank (Regex.sequence (rs ++ [r])) := by
  induction rs with
  | nil => exact h
  | cons s rs ih =>
    cases rs with
    | nil => exact .inl h
    | cons t rs => exact .inl ih

theorem terms_ignoringCase (hletters : ∀ c, letterIgnoringCase c = true → blank c = false)
    {literal : String} (h : isTerm literal = true) : Terms blank (textIgnoringCase literal) := by
  obtain ⟨hedges, hwhole⟩ := Bool.and_eq_true_iff.mp h
  obtain ⟨hhead, hlast⟩ := Bool.and_eq_true_iff.mp hedges
  refine { free := free_textIgnoringCase literal, starts := ?_, ends := ?_, whole := ?_ }
  · obtain ⟨p, hp, hletter⟩ := (Option.any_eq_true _ _).mp hhead
    obtain ⟨rest, hrest⟩ := List.head?_eq_some_iff.mp hp
    rw [textIgnoringCase, hrest, List.map_cons]
    exact startsSolid_sequence fun c hc ↦ hletters c (letter_of_sameLetter hletter hc)
  · obtain ⟨p, hp, hletter⟩ := (Option.any_eq_true _ _).mp hlast
    obtain ⟨rest, hrest⟩ := List.getLast?_eq_some_iff.mp hp
    rw [textIgnoringCase, hrest, List.map_append]
    exact endsSolid_sequence fun c hc ↦ hletters c (letter_of_sameLetter hletter hc)
  · intro c hc
    have hsolid : Solid (fun d ↦ d = c) (textIgnoringCase literal) := by
      apply solid_sequence
      intro s hs
      obtain ⟨p, hp, rfl⟩ := List.mem_map.mp hs
      intro d hd
      have hnot := List.all_eq_true.mp (List.all_eq_true.mp hwhole p hp) c hc
      refine decide_eq_false ?_
      intro he
      subst he
      rw [show sameLetter p d = true from hd] at hnot
      cases hnot
    intro hconsumes
    exact absurd (hsolid c hconsumes) (by simp)

theorem terms_anyOf (h : ∀ r ∈ rs, Terms blank r) : Terms blank (anyOf rs) := by
  induction rs with
  | nil =>
    exact
      { free := trivial
        starts := fun c hc ↦ (by cases hc)
        ends := fun c hc ↦ (by cases hc)
        whole := fun c _ hc ↦ (by cases hc) }
  | cons r rs ih =>
    obtain ⟨hr, hrs⟩ := List.forall_mem_cons.mp h
    cases rs with
    | nil => exact hr
    | cons s rs =>
      have hrest := ih hrs
      exact
        { free := ⟨hr.free, hrest.free⟩
          starts := ⟨hr.starts, hrest.starts⟩
          ends := ⟨hr.ends, hrest.ends⟩
          whole := fun c hc hconsumes ↦ hconsumes.elim (hr.whole c hc) (hrest.whole c hc) }

section Letters

variable (hletters : ∀ c, letterIgnoringCase c = true → blank c = false)

include hletters

theorem terms_zeroDay : Terms blank zeroDay := by
  have hzero : Terms blank (textIgnoringCase "zero") := terms_ignoringCase hletters (by decide)
  have hday : Terms blank (textIgnoringCase "day") := terms_ignoringCase hletters (by decide)
  refine ⟨⟨hzero.free, trivial, hday.free⟩, startsSolid_sequence hzero.starts, ?_, ?_⟩
  · change EndsSolid blank
      (Regex.sequence ([textIgnoringCase "zero", one (fun c ↦ c = '-' || c = ' ')] ++
        [textIgnoringCase "day"]))
    exact endsSolid_sequence hday.ends
  · intro c hc hconsumes
    rcases hconsumes with h | h | h
    · exact hzero.whole c hc h
    · have hnot : ∀ c ∈ separators, (c = '-' || c = ' ') = false := forall_mem_of_all (by decide)
      exact Bool.false_ne_true ((hnot c hc).symm.trans h)
    · exact hday.whole c hc h

theorem terms_literals {literals : List String} (h : literals.all isTerm = true) :
    ∀ r ∈ literals.map textIgnoringCase, Terms blank r := by
  intro r hr
  obtain ⟨literal, hliteral, rfl⟩ := List.mem_map.mp hr
  exact terms_ignoringCase hletters (List.all_eq_true.mp h literal hliteral)

theorem terms_highTerms : Terms blank highTerms := by
  have hrest := terms_literals hletters
    (show ["exploitability", "breach", "named victim", "attribution", "security failure",
      "unpublished vulnerability",
      "accusation"].all isTerm = true by decide)
  exact terms_anyOf (List.forall_mem_cons.mpr ⟨terms_zeroDay hletters, hrest⟩)

theorem terms_mediumTerms : Terms blank mediumTerms :=
  terms_anyOf (terms_literals hletters
    (show ["compare", "benchmark", "architecture", "trend", "better than", "leader"].all isTerm =
      true by decide))

end Letters

theorem Terms.wordlike (h : Terms (notWord unicode) r) : Wordlike unicode r :=
  ⟨h.free, h.starts, h.ends⟩

theorem word_of_letter (hdata : LawfulWords unicode) (c : Char) (h : letterIgnoringCase c = true) :
    notWord unicode c = false := by
  rw [notWord_eq_false, isWord, hdata.letters c h]
  rfl

def Mentions (unicode : UnicodeData) (terms : Regex) (text : String) : Prop :=
  Occurs (Standing unicode terms) text.toList

theorem classify_high_iff (hdata : LawfulWords unicode) {text : String} :
    classifyEditorialRisk unicode text = .high ↔ Mentions unicode highTerms text := by
  rw [Mentions, ← search_asWord (terms_highTerms (word_of_letter hdata)).wordlike,
    classifyEditorialRisk]
  split_ifs <;> simp_all

theorem classify_ne_low (hdata : LawfulWords unicode) {text : String}
    (h : Mentions unicode mediumTerms text) :
    classifyEditorialRisk unicode text ≠ .low := by
  rw [Mentions, ← search_asWord (terms_mediumTerms (word_of_letter hdata)).wordlike] at h
  rw [classifyEditorialRisk]
  split_ifs <;> simp_all

theorem notWord_ascii (hdata : LawfulWords unicode) {c : Char} (h : c.toNat < 128)
    (hnot : (c.isAlphanum || c = '_') = false) : notWord unicode c = true := by
  rw [notWord_eq_true, isWord, (hdata.ascii c h).2]
  exact hnot

/-- A character of `### ` and `- `. -/
def isBullet (c : Char) : Bool := c = '#' || c = '-' || c = ' '

section Terms

variable {terms : Regex} (hdata : LawfulWords unicode) (hterms : Terms (notWord unicode) terms)

include hdata hterms

theorem separates_terms {separator : String} (h : isSeparator separator = true) :
    Separates (notWord unicode) (Standing unicode terms) separator.toList where
  exists_cons := by
    unfold isSeparator at h
    split at h
    next c blanks hseparator =>
      obtain ⟨hc, hblanks⟩ := Bool.and_eq_true_iff.mp h
      replace hc : c ∈ separators := List.contains_iff_mem.mp hc
      have hascii : ∀ c ∈ separators, c.toNat < 128 ∧ (c.isAlphanum || c = '_') = false :=
        forall_mem_of_all (by decide)
      refine ⟨c, blanks, hseparator, notWord_ascii hdata (hascii c hc).1 (hascii c hc).2, ?_, ?_⟩
      · intro d hd
        rw [of_decide_eq_true (List.all_eq_true.mp hblanks d hd)]
        exact notWord_ascii hdata (by decide) (by decide)
      · intro b word d hword hmem
        have hsolid : Solid (fun d ↦ d = c) terms := by
          intro d hd
          refine decide_eq_false ?_
          intro he
          exact hterms.whole c hc (he ▸ hd)
        exact absurd (language_solid hsolid hword.1 c hmem) (by simp)
    next => cases h

theorem mentions_separated (a b : String) {separator : String} (h : isSeparator separator = true) :
    Mentions unicode terms (a ++ separator ++ b) ↔ Mentions unicode terms a ∨
    Mentions unicode terms b := by
  rw [Mentions, String.toList_append, String.toList_append, List.append_assoc]
  exact hterms.wordlike.surroundable.occurs_separated (separates_terms hdata hterms h)

theorem mentions_intercalate (parts : List String) {separator : String}
    (h : isSeparator separator = true) :
    Mentions unicode terms (separator.intercalate parts) ↔
    ∃ part ∈ parts, Mentions unicode terms part := by
  rw [Mentions, String.toList_intercalate,
    hterms.wordlike.surroundable.occurs_intercalate (separates_terms hdata hterms h)]
  simp [Mentions]

theorem mentions_joinLines (lines : List String) :
    Mentions unicode terms (joinLines lines) ↔ ∃ line ∈ lines, Mentions unicode terms line := by
  have hnot : ¬ Mentions unicode terms "" := by
    refine not_occurs_nil fun b word d hword ↦ ?_
    obtain ⟨c, rest, hfirst, -⟩ := hterms.wordlike.surroundable.first hword
    exact hfirst ▸ List.cons_ne_nil c rest
  have hnewline : isSeparator "\n" = true := by decide
  have hjoin := mentions_separated hdata hterms ("\n".intercalate lines) "" hnewline
  rw [joinLines, ← mentions_intercalate hdata hterms lines hnewline]
  simpa [hnot] using hjoin

theorem mentions_bullet {bullet : String} (h : bullet.toList.all isBullet = true) (text : String) :
    Mentions unicode terms (bullet ++ text) ↔ Mentions unicode terms text := by
  have hblank : ∀ c ∈ bullet.toList, notWord unicode c = true := by
    intro c hc
    have hsign := List.all_eq_true.mp h c hc
    simp only [isBullet, Bool.or_eq_true, decide_eq_true_eq] at hsign
    obtain (rfl | rfl) | rfl := hsign
    · exact notWord_ascii hdata (by decide) (by decide)
    · exact notWord_ascii hdata (by decide) (by decide)
    · exact notWord_ascii hdata (by decide) (by decide)
  rw [Mentions, String.toList_append]
  exact hterms.wordlike.surroundable.occurs_behind hblank

end Terms

theorem language_of_mentions {terms : Regex} {text : String} (h : Mentions unicode terms text) :
    Occurs (fun _ word _ ↦ Language terms word) text.toList := by
  obtain ⟨pre, word, tail, hsplit, hword⟩ := h
  exact ⟨pre, word, tail, hsplit, hword.1⟩

theorem not_mentions_of_search {terms : Regex} (hfree : Free terms) {text : String}
    (h : search asciiData terms text.toList = false) : ¬ Mentions unicode terms text := by
  intro hmentions
  rw [search_of_language hfree (language_of_mentions hmentions)] at h
  cases h

def notLetter (c : Char) : Bool := ! letterIgnoringCase c

theorem terms_notLetter : Terms notLetter highTerms := terms_highTerms fun _ h ↦ congrArg not h

theorem notLetter_of_isDigit {c : Char} (h : c.isDigit = true) : notLetter c = true := by
  have hdigits : ∀ n < 58, 48 ≤ n → notLetter (Char.ofNat n) = true := by decide
  have hbounds : 48 ≤ c.toNat ∧ c.toNat ≤ 57 := Char.isDigit_iff_toNat.mp h
  rw [← Char.ofNat_toNat c]
  exact hdigits c.toNat (by omega) hbounds.1

theorem not_mentions_dated {text : String} (h : search asciiData highTerms text.toList = false)
    (d : Date) :
    ¬ Mentions unicode highTerms (text ++ d.isoformat) := by
  intro hmentions
  have hoccurs := language_of_mentions hmentions
  rw [String.toList_append] at hoccurs
  have hsurroundable : Surroundable notLetter (fun _ word _ ↦ Language highTerms word) :=
    { before := fun _ ↦ Iff.rfl
      after := fun _ ↦ Iff.rfl
      first := fun hword ↦ language_first terms_notLetter.free terms_notLetter.starts hword
      last := fun hword ↦ language_last terms_notLetter.free terms_notLetter.ends hword }
  have hdate : ∀ c ∈ d.isoformat.toList, notLetter c = true := by
    intro c hc
    rcases d.isoformat_characters c hc with hdigit | rfl
    · exact notLetter_of_isDigit hdigit
    · decide
  rw [search_of_language terms_notLetter.free ((hsurroundable.occurs_before hdate).mp hoccurs)] at h
  cases h

def quiet (text : String) : Bool := ! search asciiData highTerms text.toList

theorem not_mentions_of_quiet {text : String} (h : quiet text = true) :
    ¬ Mentions unicode highTerms text :=
  not_mentions_of_search terms_notLetter.free (by simpa [quiet] using h)

theorem not_mentions_lines {lines : List String} (h : lines.all quiet = true) :
    ¬ ∃ line ∈ lines, Mentions unicode highTerms line := by
  intro hline
  obtain ⟨line, hmem, hmentions⟩ := hline
  exact not_mentions_of_quiet (List.all_eq_true.mp h line hmem) hmentions

theorem not_mentions_titled {title : String}
    (h : search asciiData highTerms title.toList = false) (d : Date) {lines : List String}
    (hlines : lines.all quiet = true) :
    ¬ ∃ line ∈ (title ++ d.isoformat) :: lines, Mentions unicode highTerms line := by
  intro hline
  obtain ⟨line, hmem, hmentions⟩ := hline
  rcases List.mem_cons.mp hmem with rfl | hmem
  · exact not_mentions_dated h d hmentions
  · exact not_mentions_lines hlines ⟨line, hmem, hmentions⟩

theorem mentions_shown {α : Type*} {terms : Regex} (items : List α) (shown : α → Bool)
    {line : α → String} {tells : α → Prop}
    (h : ∀ item, Mentions unicode terms (line item) ↔ tells item) :
    (∃ text ∈ (items.filter shown).map line, Mentions unicode terms text) ↔
      ∃ item ∈ items, shown item = true ∧ tells item := by
  simp only [List.mem_map, exists_exists_and_eq_and]
  simp only [List.mem_filter, h, and_assoc]

theorem mentions_between {terms : Regex} (hfree : Free terms) (pre word tail : List Char)
    {text : String} (hsplit : text.toList = pre ++ (word ++ tail))
    (hword : fullmatch asciiData terms word = true)
    (hbefore : pre.getLast?.any (isWord unicode) = false)
    (hafter : tail.head?.any (isWord unicode) = false) :
    Mentions unicode terms text :=
  ⟨pre, word, tail, hsplit, language_of_fullmatch hfree hword, hbefore, hafter⟩

theorem quiet_statusSection (confirmed : List MaterialChange) {status : DailyStatus}
    (h : status ≠ .materialChanges) :
    (statusSection confirmed status).all quiet = true := by
  cases status with
  | materialChanges => exact absurd rfl h
  | noReviewedContent =>
    change (statusSection [] .noReviewedContent).all quiet = true
    decide +kernel
  | noMaterialChange =>
    change (statusSection [] .noMaterialChange).all quiet = true
    decide +kernel
  | noConfirmedMaterialChange =>
    change (statusSection [] .noConfirmedMaterialChange).all quiet = true
    decide +kernel
  | reviewPending =>
    change (statusSection [] .reviewPending).all quiet = true
    decide +kernel

section Reports

variable (hdata : LawfulWords unicode)

include hdata

def ChangeMentions (unicode : UnicodeData) (change : MaterialChange) : Prop :=
  Mentions unicode highTerms change.description ∨
  ∃ id ∈ change.assertionIds, Mentions unicode highTerms id.text

theorem mentions_changeSection (change : MaterialChange) :
    (∃ line ∈ changeSection change, Mentions unicode highTerms line) ↔
      ChangeMentions unicode change := by
  have hterms := terms_highTerms (word_of_letter hdata)
  have himpacts : ¬ Mentions unicode highTerms
      ("- Decision impact: " ++ ", ".intercalate (sortedImpacts change.decisionImpacts)) := by
    have hsplit := mentions_separated hdata hterms "- Decision impact"
      (", ".intercalate (sortedImpacts change.decisionImpacts)) (show isSeparator ": " =
        true by decide)
    have hvalues : ∀ impact : DecisionImpact, quiet impact.value = true := by
      intro impact
      cases impact <;> decide +kernel
    rw [show "- Decision impact: " = "- Decision impact" ++ ": " from rfl, hsplit,
      mentions_intercalate hdata hterms _ (show isSeparator ", " = true by decide)]
    intro hmentions
    rcases hmentions with hfixed | ⟨value, hvalue, hmentions⟩
    · exact not_mentions_of_quiet (by decide +kernel) hfixed
    · obtain ⟨impact, -, rfl⟩ := List.mem_map.mp hvalue
      exact not_mentions_of_quiet (hvalues impact) hmentions
  have hassertions : Mentions unicode highTerms
      ("- Assertions: " ++ ", ".intercalate (change.assertionIds.map (·.text))) ↔
        ∃ id ∈ change.assertionIds, Mentions unicode highTerms id.text := by
    have hsplit := mentions_separated hdata hterms "- Assertions"
      (", ".intercalate (change.assertionIds.map (·.text))) (show isSeparator ": " = true by decide)
    rw [show "- Assertions: " = "- Assertions" ++ ": " from rfl, hsplit,
      mentions_intercalate hdata hterms _ (show isSeparator ", " = true by decide),
      or_iff_right (not_mentions_of_quiet (by decide +kernel))]
    simp
  have hblank : ¬ Mentions unicode highTerms "" := not_mentions_of_quiet (by decide +kernel)
  simp only [changeSection, List.mem_cons, List.not_mem_nil, or_false, exists_eq_or_imp,
    exists_eq_left, mentions_bullet hdata hterms (show "### ".toList.all isBullet = true by decide),
    hblank, himpacts,
    hassertions, false_or, ChangeMentions]

theorem mentions_statusSection (confirmed : List MaterialChange) (status : DailyStatus) :
    (∃ line ∈ statusSection confirmed status, Mentions unicode highTerms line) ↔
      status = .materialChanges ∧ ∃ change ∈ confirmed, ChangeMentions unicode change := by
  cases status with
  | materialChanges =>
    simp only [statusSection, List.mem_flatMap, true_and, ← mentions_changeSection hdata]
    constructor
    · intro h
      obtain ⟨line, ⟨change, hchange, hline⟩, hmentions⟩ := h
      exact ⟨change, hchange, line, hline, hmentions⟩
    · intro h
      obtain ⟨change, hchange, line, hline, hmentions⟩ := h
      exact ⟨line, ⟨change, hchange, hline⟩, hmentions⟩
  | noReviewedContent | noMaterialChange | noConfirmedMaterialChange | reviewPending =>
    exact iff_of_false (not_mentions_lines (quiet_statusSection confirmed (by decide)))
      fun h ↦ absurd h.1 (by decide)

theorem mentions_dailyBrief (day : Date) (changes : List MaterialChange)
    (candidates : List StructuredDiff) (reviews : List ChangeReviewItem) (available : Bool) :
    Mentions unicode highTerms (buildDailyBrief day changes candidates reviews available).markdown ↔
      ∃ change ∈ changes, change.humanConfirmed = true ∧ ChangeMentions unicode change := by
  have htitle :
      ¬ ∃ line ∈ ["# Agentic Security Change Brief — " ++ day.isoformat, "", "## Material Changes"],
      Mentions unicode highTerms line :=
    not_mentions_titled (by decide +kernel) day (by decide +kernel)
  have hstatus : (buildDailyBrief day changes candidates reviews available).status =
      .materialChanges ∧
      (∃ change ∈ changes.filter (·.humanConfirmed), ChangeMentions unicode change) ↔
        ∃ change ∈ changes, change.humanConfirmed = true ∧ ChangeMentions unicode change := by
    rw [buildDailyBrief_materialChanges]
    simp only [List.mem_filter, and_assoc]
    constructor
    · exact And.right
    · intro h
      obtain ⟨change, hchange, hconfirmed, hmentions⟩ := h
      exact ⟨⟨change, hchange, hconfirmed⟩, change, hchange, hconfirmed, hmentions⟩
  rw [← hstatus, ← mentions_statusSection hdata]
  dsimp only [buildDailyBrief]
  rw [mentions_joinLines hdata (terms_highTerms (word_of_letter hdata))]
  simp only [List.mem_append, or_and_right, exists_or]
  rw [or_iff_right htitle, or_iff_left (not_mentions_lines (by decide +kernel))]

theorem mentions_weeklyPack (weekEnding : Date) (changes : List MaterialChange)
    (conflicts : List ContradictionFlag) (freshness : List (AssertionId × Freshness))
    (trendResults : List (String × String)) (available : Bool) :
    Mentions unicode highTerms
        (buildWeeklyPack weekEnding changes conflicts freshness trendResults available).markdown ↔
      (∃ change ∈ changes, change.humanConfirmed = true ∧
        Mentions unicode highTerms change.description) ∨
        (∃ flag ∈ conflicts, flag.status = .pending ∧
          (Mentions unicode highTerms flag.id.text ∨ Mentions unicode highTerms flag.rationale)) ∨
        (∃ item ∈ freshness, alerting item.2 = true ∧ Mentions unicode highTerms item.1.text) ∨
        ∃ trend ∈ trendResults, Mentions unicode highTerms trend.1 ∨
          Mentions unicode highTerms trend.2 := by
  have hterms := terms_highTerms (word_of_letter hdata)
  have hbullet (text : String) : Mentions unicode highTerms ("- " ++ text) ↔
      Mentions unicode highTerms text :=
    mentions_bullet hdata hterms (by decide) text
  have hpair (a b : String) : Mentions unicode highTerms ("- " ++ a ++ ": " ++ b) ↔
      Mentions unicode highTerms a ∨ Mentions unicode highTerms b := by
    rw [mentions_separated hdata hterms ("- " ++ a) b (show isSeparator ": " = true by decide),
      hbullet]
  have hchanges :
      (∃ line ∈ (changes.filter (·.humanConfirmed)).map (fun item ↦ "- " ++ item.description),
        Mentions unicode highTerms line) ↔
        ∃ change ∈ changes, change.humanConfirmed = true ∧
          Mentions unicode highTerms change.description :=
    mentions_shown changes (·.humanConfirmed) fun item ↦ hbullet item.description
  have hconflicts : (∃ line ∈ (conflicts.filter (·.status = .pending)).map
      (fun item ↦ "- " ++ item.id.text ++ ": " ++ item.rationale),
      Mentions unicode highTerms line) ↔
        ∃ flag ∈ conflicts, flag.status = .pending ∧
          (Mentions unicode highTerms flag.id.text ∨
            Mentions unicode highTerms flag.rationale) := by
    have hshown :=
      mentions_shown conflicts (·.status = .pending) fun item ↦ hpair item.id.text item.rationale
    simpa only [decide_eq_true_eq] using hshown
  have halerts : (∃ line ∈ ((freshness.filter fun item ↦ alerting item.2).map (·.1)).map
      (fun item ↦ "- " ++ item.text), Mentions unicode highTerms line) ↔
        ∃ item ∈ freshness, alerting item.2 = true ∧ Mentions unicode highTerms item.1.text := by
    rw [List.map_map]
    exact mentions_shown freshness (fun item ↦ alerting item.2) fun item ↦ hbullet item.1.text
  have htrends : (∃ line ∈ (trendResults.insertionSort fun a b ↦ a.1 ≤ b.1).map
      (fun item ↦ "- " ++ item.1 ++ ": " ++ item.2), Mentions unicode highTerms line) ↔
        ∃ trend ∈ trendResults, Mentions unicode highTerms trend.1 ∨
          Mentions unicode highTerms trend.2 := by
    simp only [List.mem_map, exists_exists_and_eq_and, List.mem_insertionSort, hpair]
  have htitle : ¬ ∃ line ∈
      ["# Weekly Evidence Pack — " ++ weekEnding.isoformat, "", "## Executive Summary", ""],
      Mentions unicode highTerms line :=
    not_mentions_titled (by decide +kernel) weekEnding (by decide +kernel)
  have hempty : ¬ ∃ line ∈ (if available then [] else ["### No Reviewed Content", "",
      "The initialized ledger contains no reviewed systems or evidence-backed " ++
      "changes. No weekly change conclusion is implied.", ""] : List String),
        Mentions unicode highTerms line := by
    refine not_mentions_lines ?_
    cases available <;> decide +kernel
  dsimp only [buildWeeklyPack]
  rw [mentions_joinLines hdata hterms]
  simp only [List.mem_append, or_and_right, exists_or, ← or_assoc]
  -- only the lines that are built from the data can mention a term
  refine (or_iff_left (not_mentions_lines (by decide +kernel))).trans (or_congr ?_ htrends)
  refine (or_iff_left (not_mentions_lines (by decide +kernel))).trans (or_congr ?_ halerts)
  refine (or_iff_left (not_mentions_lines (by decide +kernel))).trans (or_congr ?_ hconflicts)
  refine (or_iff_left (not_mentions_lines (by decide +kernel))).trans ?_
  refine (or_iff_right (not_or.mpr ⟨not_or.mpr ⟨htitle, hempty⟩,
    not_mentions_lines (by decide +kernel)⟩)).trans ?_
  exact hchanges

theorem mentions_medium {lines : List String} {line : String} (hline : line ∈ lines)
    (h : Mentions unicode mediumTerms line) :
    classifyEditorialRisk unicode (joinLines lines) ≠ .low :=
  classify_ne_low hdata
    ((mentions_joinLines hdata (terms_mediumTerms (word_of_letter hdata)) lines).mpr
      ⟨line, hline, h⟩)

theorem dailyBrief_ne_low (day : Date) (changes : List MaterialChange)
    (candidates : List StructuredDiff) (reviews : List ChangeReviewItem) (available : Bool) :
    classifyEditorialRisk unicode
      (buildDailyBrief day changes candidates reviews available).markdown ≠ .low := by
  have hspace : isWord unicode ' ' = false :=
    notWord_eq_true.mp (notWord_ascii hdata (by decide) (by decide))
  have hline : Mentions unicode mediumTerms "## Research & Benchmark Changes" :=
    mentions_between (terms_mediumTerms (word_of_letter hdata)).free "## Research & ".toList
      "Benchmark".toList
      " Changes".toList rfl (by decide +kernel) hspace hspace
  exact mentions_medium hdata (List.mem_append_right _ (by simp)) hline

theorem weeklyPack_ne_low (weekEnding : Date) (changes : List MaterialChange)
    (conflicts : List ContradictionFlag) (freshness : List (AssertionId × Freshness))
    (trendResults : List (String × String)) (available : Bool) :
    classifyEditorialRisk unicode
      (buildWeeklyPack weekEnding changes conflicts freshness trendResults available).markdown ≠
        .low := by
  have hsigns : isWord unicode ' ' = false ∧ isWord unicode '/' = false :=
    ⟨notWord_eq_true.mp (notWord_ascii hdata (by decide) (by decide)),
      notWord_eq_true.mp (notWord_ascii hdata (by decide) (by decide))⟩
  have hline : Mentions unicode mediumTerms "## Architecture/Control Pattern" :=
    mentions_between (terms_mediumTerms (word_of_letter hdata)).free "## ".toList
      "Architecture".toList
      "/Control Pattern".toList rfl (by decide +kernel) hsigns.1 hsigns.2
  exact mentions_medium hdata (List.mem_append_right _ (by simp)) hline

end Reports

theorem requireHumanReview_refuses {text : String} {humanApproved : Bool} :
    requireHumanReview unicode text humanApproved ≠ .ok () ↔
      humanApproved = false ∧ classifyEditorialRisk unicode text = .high := by
  rw [requireHumanReview]
  split_ifs with h
  · simpa using And.comm.mp h
  · simpa [and_comm] using h

/-- A change of the daily brief shows a text of high risk. -/
def RiskyBrief (unicode : UnicodeData) (changes : List MaterialChange) : Prop :=
  ∃ change ∈ changes, change.humanConfirmed = true ∧
    (classifyEditorialRisk unicode change.description = .high ∨
      ∃ id ∈ change.assertionIds, classifyEditorialRisk unicode id.text = .high)

/-- A row of the weekly pack shows a text of high risk. -/
def RiskyPack (unicode : UnicodeData) (changes : List MaterialChange)
    (conflicts : List ContradictionFlag) (freshness : List (AssertionId × Freshness))
    (trendResults : List (String × String)) : Prop :=
  (∃ change ∈ changes, change.humanConfirmed = true ∧
    classifyEditorialRisk unicode change.description = .high) ∨
  (∃ flag ∈ conflicts, flag.status = .pending ∧
    (classifyEditorialRisk unicode flag.id.text = .high ∨
      classifyEditorialRisk unicode flag.rationale = .high)) ∨
  (∃ item ∈ freshness, alerting item.2 = true ∧ classifyEditorialRisk unicode item.1.text = .high) ∨
  ∃ trend ∈ trendResults, classifyEditorialRisk unicode trend.1 = .high ∨
    classifyEditorialRisk unicode trend.2 = .high

/-- No report is of low risk, and a report is of high risk, and refused without the review of a
human, exactly if one of the texts from the ledger that it shows is of high risk by itself. -/
theorem reports_reviewed_iff (unicode : UnicodeData) (hdata : LawfulWords unicode) :
    (∀ day changes candidates reviews available humanApproved,
      classifyEditorialRisk unicode
        (buildDailyBrief day changes candidates reviews available).markdown ≠ .low ∧
      (classifyEditorialRisk unicode
        (buildDailyBrief day changes candidates reviews available).markdown = .high ↔
        RiskyBrief unicode changes) ∧
      (requireHumanReview unicode
        (buildDailyBrief day changes candidates reviews available).markdown humanApproved ≠ .ok () ↔
        humanApproved = false ∧ RiskyBrief unicode changes)) ∧
    ∀ weekEnding changes conflicts freshness trendResults available humanApproved,
      classifyEditorialRisk unicode
        (buildWeeklyPack weekEnding changes conflicts freshness trendResults available).markdown ≠
          .low ∧
      (classifyEditorialRisk unicode
          (buildWeeklyPack weekEnding changes conflicts freshness trendResults available).markdown =
            .high ↔
        RiskyPack unicode changes conflicts freshness trendResults) ∧
      (requireHumanReview unicode
          (buildWeeklyPack weekEnding changes conflicts freshness trendResults available).markdown
            humanApproved ≠ .ok () ↔
        humanApproved = false ∧ RiskyPack unicode changes conflicts freshness trendResults) := by
  constructor
  · intro day changes candidates reviews available humanApproved
    have hrisk :
        classifyEditorialRisk unicode
        (buildDailyBrief day changes candidates reviews available).markdown = .high ↔
        RiskyBrief unicode changes := by
      rw [classify_high_iff hdata, mentions_dailyBrief hdata]
      simp only [RiskyBrief, classify_high_iff hdata, ChangeMentions]
    refine ⟨dailyBrief_ne_low hdata day changes candidates reviews available, hrisk, ?_⟩
    rw [requireHumanReview_refuses, hrisk]
  · intro weekEnding changes conflicts freshness trendResults available humanApproved
    have hrisk : classifyEditorialRisk unicode
          (buildWeeklyPack weekEnding changes conflicts freshness trendResults available).markdown =
            .high ↔
        RiskyPack unicode changes conflicts freshness trendResults := by
      rw [classify_high_iff hdata, mentions_weeklyPack hdata]
      simp only [RiskyPack, classify_high_iff hdata]
    refine ⟨weeklyPack_ne_low hdata weekEnding changes conflicts freshness trendResults available,
      hrisk, ?_⟩
    rw [requireHumanReview_refuses, hrisk]

def breachChange : MaterialChange :=
  { januaryChange with description := "Breach of tenant isolation." }

theorem reports_reviewed_iff_breach :
    requireHumanReview foldedScan.toUnicodeData
      (buildDailyBrief sampleDay [breachChange] [] [] true).markdown false ≠ .ok () ∧
      requireHumanReview foldedScan.toUnicodeData
        (buildDailyBrief sampleDay [breachChange] [] [] true).markdown true = .ok () := by
  have hiff :=
    (reports_reviewed_iff foldedScan.toUnicodeData lawfulWords_folded).1 sampleDay
    [breachChange] [] [] true
  constructor
  · exact (hiff false).2.2.mpr ⟨rfl, breachChange, List.mem_singleton_self _, rfl,
      .inl (by decide +kernel)⟩
  · exact not_not.mp fun h ↦ absurd ((hiff true).2.2.mp h).1 (by decide)

end AgenticSecurity.Editorial
