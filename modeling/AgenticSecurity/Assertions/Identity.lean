import AgenticSecurity.Assertions.Service
import AgenticSecurity.Library.Paths

namespace AgenticSecurity.Assertions

open Library Models Python

def termCharacter (c : Char) : Bool := c.isLower || c.isDigit

/-- A term with a key of the pattern `^[a-z0-9][a-z0-9-]*$`. -/
structure TaxonomyTerm where
  key : String
  pattern : key.toList.head?.any termCharacter ∧
    key.toList.all (fun c ↦ termCharacter c || c = '-') := by decide
  deriving DecidableEq

structure TaxonomyVersion where
  id : String
  vocabularies : List (String × List TaxonomyTerm)
  deriving DecidableEq

inductive CandidateError
  | versionMismatch
  | unknownVocabulary (vocabulary : String)
  | notApproved (term taxonomyId : String)
  deriving DecidableEq, Repr

def validateTerm (taxonomy : TaxonomyVersion) (vocabulary term : String) :
    Except CandidateError Unit :=
  match taxonomy.vocabularies.lookup vocabulary with
  | none => .error (.unknownVocabulary vocabulary)
  | some entries =>
    if term ∉ entries.map TaxonomyTerm.key then .error (.notApproved term taxonomy.id) else .ok ()

structure AssertionCandidate where
  slots : AssertionSlots
  statement : String
  scope : AssertionScope
  evidenceId : EvidenceId
  taxonomyVersion : String
  deriving DecidableEq

def vocabularyOf : SubjectType → Option String
  | .capability => some "capabilities"
  | .control => some "controls"
  | .architecturePattern => some "architecture_patterns"
  | .autonomyFacet | .availability | .benchmarkResult => none

def validateCandidate (candidate : AssertionCandidate) (taxonomy : TaxonomyVersion) :
    Except CandidateError Unit :=
  if candidate.taxonomyVersion ≠ taxonomy.id then .error .versionMismatch
  else do
    match vocabularyOf candidate.slots.subjectType with
    | some vocabulary => validateTerm taxonomy vocabulary candidate.slots.subject
    | none => pure ()
    validateTerm taxonomy "actions" candidate.slots.action
    validateTerm taxonomy "objects" candidate.slots.object

/-- The terms of a vocabulary, none where the taxonomy does not have it. -/
def TaxonomyVersion.approved (taxonomy : TaxonomyVersion) (vocabulary : String) : List String :=
  ((taxonomy.vocabularies.lookup vocabulary).getD []).map TaxonomyTerm.key

theorem validateTerm_ok {taxonomy : TaxonomyVersion} {vocabulary term : String} :
    validateTerm taxonomy vocabulary term = .ok () ↔ term ∈ taxonomy.approved vocabulary := by
  rw [validateTerm, TaxonomyVersion.approved]
  cases taxonomy.vocabularies.lookup vocabulary with
  | none => simp
  | some entries =>
    simp only [Option.getD_some]
    split_ifs with h <;> simp [h]

theorem unit_bind_ok {ε : Type} {x y : Except ε Unit} : (x >>= fun _ ↦ y) = .ok () ↔ x = .ok () ∧
    y = .ok () := by
  cases x <;> simp [bind, Except.bind]

theorem validateCandidate_ok {candidate : AssertionCandidate} {taxonomy : TaxonomyVersion} :
    validateCandidate candidate taxonomy = .ok () ↔ candidate.taxonomyVersion = taxonomy.id ∧
      (∀ vocabulary ∈ vocabularyOf candidate.slots.subjectType,
        candidate.slots.subject ∈ taxonomy.approved vocabulary) ∧
      candidate.slots.action ∈ taxonomy.approved "actions" ∧
      candidate.slots.object ∈ taxonomy.approved "objects" := by
  rw [validateCandidate]
  split_ifs with hversion
  · simp [hversion]
  · rw [not_not] at hversion
    cases hvocabulary : vocabularyOf candidate.slots.subjectType with
    | none => simp [hversion, unit_bind_ok, validateTerm_ok]
    | some vocabulary => simp [hversion, unit_bind_ok, validateTerm_ok]

/-- What a claim is about: its slots but for the key of their scope. -/
def claimOf (slots : AssertionSlots) : String × Option String × SubjectType × String ×
    String × String :=
  (slots.system, slots.agent, slots.subjectType, slots.subject, slots.action, slots.object)

def keyAgent (slots : AssertionSlots) : String :=
  if truthy slots.agent then slots.agent.getD "" else "_system"

def keyParts (slots : AssertionSlots) : List String :=
  [slots.system, keyAgent slots, slots.subject, slots.action, slots.object]

theorem keyParts_of_key {a b : AssertionSlots} (h : assertionKey a = assertionKey b)
    (ha : ∀ part ∈ keyParts a, ':' ∉ part.toList) (hb : ∀ part ∈ keyParts b, ':' ∉ part.toList) :
    keyParts a = keyParts b := by
  have hjoin : ∀ slots : AssertionSlots, (assertionKey slots).toList =
      Paths.joined ':' ((keyParts slots).map String.toList) := fun slots ↦ by
    have hkey : assertionKey slots = ":".intercalate (keyParts slots) := rfl
    have hcolon : ":".toList = [':'] := by decide
    rw [hkey, String.toList_intercalate, hcolon]
  have hfree : ∀ {parts : List String}, (∀ part ∈ parts, ':' ∉ part.toList) →
      ∀ name ∈ parts.map String.toList, ':' ∉ name := by
    intro parts hparts name hname
    obtain ⟨part, hpart, rfl⟩ := List.mem_map.mp hname
    exact hparts part hpart
  have hlists := congrArg String.toList h
  rw [hjoin, hjoin] at hlists
  have hparts :=
    Paths.joined_injective (by simp [keyParts]) (by simp [keyParts]) (hfree ha) (hfree hb) hlists
  exact List.map_injective_iff.mpr (fun _ _ ↦ String.toList_inj.mp) hparts

def NamedAgent (slots : AssertionSlots) : Prop :=
  slots.agent ≠ some "" ∧ slots.agent ≠ some "_system"

theorem agent_of_keyAgent {a b : AssertionSlots} (ha : NamedAgent a) (hb : NamedAgent b)
    (h : keyAgent a = keyAgent b) : a.agent = b.agent := by
  obtain ⟨hempty, hsystem⟩ := ha
  obtain ⟨hempty', hsystem'⟩ := hb
  unfold keyAgent truthy at h
  cases hagent : a.agent <;> cases hagent' : b.agent <;> simp_all

theorem term_no_colon {taxonomy : TaxonomyVersion} {vocabulary term : String}
    (h : term ∈ taxonomy.approved vocabulary) : ':' ∉ term.toList := by
  obtain ⟨entry, -, rfl⟩ := List.mem_map.mp h
  intro hcolon
  have hcharacter := List.all_eq_true.mp entry.pattern.2 ':' hcolon
  exact absurd hcharacter (by decide)

/-- The parts that are free texts are told apart by their separators. -/
structure SeparateParts (slots : AssertionSlots) : Prop where
  agent : NamedAgent slots
  colon : ∀ part ∈ [slots.system, keyAgent slots, slots.subject], ':' ∉ part.toList

theorem claim_of_key {taxonomy : TaxonomyVersion} {c c' : AssertionCandidate}
    (hc : validateCandidate c taxonomy = .ok ()) (hc' : validateCandidate c' taxonomy = .ok ())
    (htype : c.slots.subjectType = c'.slots.subjectType) (hparts : SeparateParts c.slots)
    (hparts' : SeparateParts c'.slots) (hkey : assertionKey c.slots = assertionKey c'.slots) :
    claimOf c.slots = claimOf c'.slots := by
  obtain ⟨-, -, haction, hobject⟩ := validateCandidate_ok.mp hc
  obtain ⟨-, -, haction', hobject'⟩ := validateCandidate_ok.mp hc'
  have hsame : keyParts c.slots = keyParts c'.slots := by
    refine keyParts_of_key hkey ?_ ?_
    · simpa [keyParts, term_no_colon haction, term_no_colon hobject] using hparts.colon
    · simpa [keyParts, term_no_colon haction', term_no_colon hobject'] using hparts'.colon
  simp only [keyParts, List.cons.injEq, and_true] at hsame
  obtain ⟨hsystem, hkeyAgent, hsubject, hsameAction, hsameObject⟩ := hsame
  have hagent := agent_of_keyAgent hparts.agent hparts'.agent hkeyAgent
  simp only [claimOf, hsystem, hagent, htype, hsubject, hsameAction, hsameObject]

def AcceptedSlots (taxonomy : TaxonomyVersion) (slots : AssertionSlots) : Prop :=
  ∃ candidate : AssertionCandidate, validateCandidate candidate taxonomy = .ok () ∧
    candidate.slots = slots

/-- Accepted candidates with one key are of one claim, and no observation of accepted slots is
attached to the assertion of another claim. -/
structure FaithfulIdentity (unicode : UnicodeData) (taxonomy : TaxonomyVersion) : Prop where
  keys : ∀ candidate candidate' : AssertionCandidate,
    validateCandidate candidate taxonomy = .ok () →
    validateCandidate candidate' taxonomy = .ok () →
    assertionKey candidate.slots = assertionKey candidate'.slots →
    claimOf candidate.slots = claimOf candidate'.slots
  attaches : ∀ calls : List UpsertCall, (∀ call ∈ calls, AcceptedSlots taxonomy call.slots) →
    ∀ history call result, history ++ [call] <+: calls →
      ((({} : AssertionLedger).afterAll unicode history).upsert unicode call).2 = .ok result →
      claimOf result.assertion.slots = claimOf call.slots

theorem exists_rival {taxonomy : TaxonomyVersion} {candidate : AssertionCandidate}
    (h : validateCandidate candidate taxonomy = .ok ()) : ∃ rival : AssertionCandidate,
      validateCandidate rival taxonomy = .ok () ∧
      assertionKey rival.slots = assertionKey candidate.slots ∧
      claimOf rival.slots ≠ claimOf candidate.slots := by
  obtain ⟨hversion, -, haction, hobject⟩ := validateCandidate_ok.mp h
  -- a type without a vocabulary takes every subject
  have hrival :
      ∀ subjectType, vocabularyOf subjectType = none → subjectType ≠ candidate.slots.subjectType →
      ∃ rival : AssertionCandidate, validateCandidate rival taxonomy = .ok () ∧
        assertionKey rival.slots = assertionKey candidate.slots ∧
        claimOf rival.slots ≠ claimOf candidate.slots := by
    intro subjectType hnone hother
    refine ⟨{ candidate with slots := { candidate.slots with subjectType } },
      validateCandidate_ok.mpr
      ⟨hversion, fun vocabulary hvocabulary ↦ ?_, haction, hobject⟩, rfl, fun hclaim ↦ ?_⟩
    · cases hnone.symm.trans hvocabulary
    · exact hother (congrArg (fun claim ↦ claim.2.2.1) hclaim)
  by_cases htype : candidate.slots.subjectType = .availability
  · exact hrival .autonomyFacet rfl (htype ▸ by decide)
  · exact hrival .availability rfl (Ne.symm htype)

theorem faithfulIdentity_iff (unicode : UnicodeData) (taxonomy : TaxonomyVersion) :
    FaithfulIdentity unicode taxonomy ↔ taxonomy.approved "actions" = [] ∨
    taxonomy.approved "objects" = [] := by
  constructor
  · intro h
    by_contra hterms
    obtain ⟨hactions, hobjects⟩ := not_or.mp hterms
    obtain ⟨action, haction⟩ := List.exists_mem_of_ne_nil _ hactions
    obtain ⟨object, hobject⟩ := List.exists_mem_of_ne_nil _ hobjects
    let candidate : AssertionCandidate :=
      { slots := { system := "", subjectType := .availability, subject := "", action, object }
        statement := "", scope := {}, evidenceId := { text := "EV-CLAIM" },
        taxonomyVersion := taxonomy.id }
    have haccepted : validateCandidate candidate taxonomy = .ok () :=
      validateCandidate_ok.mpr ⟨rfl, fun vocabulary h ↦ (by cases h), haction, hobject⟩
    obtain ⟨rival, hrival, hkey, hclaim⟩ := exists_rival haccepted
    exact hclaim (h.keys rival candidate hrival haccepted hkey)
  · intro hterms
    have hnone : ∀ slots, ¬ AcceptedSlots taxonomy slots := by
      intro slots h
      obtain ⟨candidate, haccepted, -⟩ := h
      obtain ⟨-, -, haction, hobject⟩ := validateCandidate_ok.mp haccepted
      rcases hterms with hactions | hobjects
      · exact List.not_mem_nil (hactions ▸ haction)
      · exact List.not_mem_nil (hobjects ▸ hobject)
    refine ⟨fun candidate _ haccepted _ _ ↦ absurd ⟨candidate, haccepted, rfl⟩ (hnone _), ?_⟩
    intro calls hcalls history call result hpre _
    exact absurd (hcalls call (hpre.subset (by simp))) (hnone _)

/-- The key is faithful under the taxonomies that accept no candidate, and under no other: every
accepted candidate has a rival. Between candidates of one subject type it is, where the parts
that are free texts are separate. -/
theorem faithful_identity_iff (unicode : UnicodeData) (taxonomy : TaxonomyVersion) :
    (FaithfulIdentity unicode taxonomy ↔
      taxonomy.approved "actions" = [] ∨ taxonomy.approved "objects" = []) ∧
    (∀ candidate : AssertionCandidate, validateCandidate candidate taxonomy = .ok () →
      ∃ rival : AssertionCandidate, validateCandidate rival taxonomy = .ok () ∧
        assertionKey rival.slots = assertionKey candidate.slots ∧
        claimOf rival.slots ≠ claimOf candidate.slots) ∧
    ∀ candidate candidate' : AssertionCandidate, validateCandidate candidate taxonomy = .ok () →
      validateCandidate candidate' taxonomy = .ok () →
      candidate.slots.subjectType = candidate'.slots.subjectType →
      SeparateParts candidate.slots → SeparateParts candidate'.slots →
      assertionKey candidate.slots = assertionKey candidate'.slots →
      claimOf candidate.slots = claimOf candidate'.slots :=
  ⟨faithfulIdentity_iff unicode taxonomy, fun _ ↦ exists_rival, fun _ _ ↦ claim_of_key⟩

def triageTaxonomy : TaxonomyVersion where
  id := "ASI-TAXONOMY-1.1"
  vocabularies :=
    [("capabilities", [{ key := "triage" }]), ("actions", [{ key := "ranks" }]),
      ("objects", [{ key := "alerts" }])]

def triageCandidate : AssertionCandidate where
  slots :=
    { system := "copilot", subjectType := .capability, subject := "triage", action := "ranks",
      object := "alerts" }
  statement := "Copilot ranks alerts."
  scope := {}
  evidenceId := { text := "EV-TRIAGE-CLAIM" }
  taxonomyVersion := "ASI-TAXONOMY-1.1"

/-- The capability and the autonomy facet of one name have one key. -/
theorem triage_not_faithful : ¬ FaithfulIdentity asciiData triageTaxonomy := by
  intro h
  let rival : AssertionCandidate :=
    { triageCandidate with slots := { triageCandidate.slots with subjectType := .autonomyFacet } }
  have hclaims := h.keys triageCandidate rival (by decide) (by decide) rfl
  exact absurd hclaims (by decide)

end AgenticSecurity.Assertions
