import AgenticSecurity.Derivations
import AgenticSecurity.Library.Runs
import AgenticSecurity.Packets
import AgenticSecurity.Python.Dict
import Mathlib.Data.List.Induction
import Mathlib.Data.String.Basic

namespace AgenticSecurity.Assertions

open Library Models Python Derivations

/-- The arguments of `AssertionLedger.upsert`. -/
structure UpsertCall where
  assertionId : AssertionId
  observationId : ObservationId
  slots : AssertionSlots
  statement : String
  canonicalRendering : String
  scope : AssertionScope
  state : AssertionState
  confidence : SupportConfidence
  confidenceRationale : String
  evidenceId : EvidenceId
  observedAt : Datetime
  methodologyVersion : String
  taxonomyVersion : String
  deriving DecidableEq

def UpsertCall.key (call : UpsertCall) : String := assertionKey call.slots

structure UpsertResult where
  assertion : Assertion
  observation : Observation
  created : Bool
  deriving DecidableEq

structure AssertionLedger where
  byKey : List (String × Assertion) := []
  observations : List Observation := []
  deriving DecidableEq

def AssertionLedger.currentScope (ledger : AssertionLedger) (assertionId : AssertionId) :
    AssertionScope :=
  deriveCurrentScope assertionId ledger.observations

def UpsertCall.observation (call : UpsertCall) (existing : Option Assertion) : Observation where
  id := call.observationId
  assertionId := (existing.map (·.id)).getD call.assertionId
  evidenceId := call.evidenceId
  observedStatement := call.statement
  observedAt := call.observedAt
  firstSeenAt := call.observedAt
  retrievedAt := call.observedAt
  lastSeenAt := call.observedAt
  lastVerifiedAt := call.observedAt
  isParaphrase := existing.any fun assertion ↦ assertion.statement ≠ call.statement
  scope := call.scope

def UpsertCall.fields (call : UpsertCall) : AssertionFields where
  id := call.assertionId
  assertionKey := call.key
  taxonomyVersion := call.taxonomyVersion
  systemId := call.slots.system
  agentId := call.slots.agent
  slots := call.slots
  statement := call.statement
  canonicalRendering := call.canonicalRendering
  state := call.state
  supportConfidence := call.confidence
  supportConfidenceRationale := call.confidenceRationale
  firstSeenAt := call.observedAt
  retrievedAt := call.observedAt
  lastSeenAt := call.observedAt
  firstObservedAt := call.observedAt
  lastVerifiedAt := call.observedAt
  methodologyVersion := call.methodologyVersion
  evidenceIds := [call.evidenceId]

/-- `tuple(dict.fromkeys((*existing.evidence_ids, evidence_id)))`. -/
def attachedEvidence (existing : Assertion) (evidenceId : EvidenceId) : List EvidenceId :=
  (existing.evidenceIds ++ [evidenceId]).eraseDups

theorem mem_attachedEvidence {existing : Assertion} {evidenceId e : EvidenceId} :
    e ∈ attachedEvidence existing evidenceId ↔ e ∈ existing.evidenceIds ∨ e = evidenceId := by
  rw [attachedEvidence, List.mem_eraseDups, List.mem_append, List.mem_singleton]

theorem attach_accepted (existing : Assertion) (call : UpsertCall) :
    ({ existing.toAssertionFields with
      lastVerifiedAt := call.observedAt
      evidenceIds := attachedEvidence existing call.evidenceId } :
        AssertionFields).enforceSemantics = none := by
  have hsome : attachedEvidence existing call.evidenceId ≠ [] :=
    List.ne_nil_of_mem (mem_attachedEvidence.mpr (.inr rfl))
  have haccepted := existing.accepted
  unfold AssertionFields.enforceSemantics at haccepted ⊢
  split_ifs at haccepted with hkey _ hdisputed
  rw [if_neg hkey, if_neg fun h ↦ hsome h.2.1, if_neg hdisputed]

/-- The `model_copy` of the attach path. -/
def attach (existing : Assertion) (call : UpsertCall) : Assertion where
  toAssertionFields := { existing.toAssertionFields with
    lastVerifiedAt := call.observedAt
    evidenceIds := attachedEvidence existing call.evidenceId }
  accepted := attach_accepted existing call

/-- The ledger after the call, which a call that raises may have changed: the observation is
recorded before the new assertion is checked. The text of a `ValidationError` is left out. -/
def AssertionLedger.upsert (unicode : UnicodeData) (ledger : AssertionLedger) (call : UpsertCall) :
    AssertionLedger × Except String UpsertResult :=
  if call.state = .conditional ∧ call.scope.conditions = [] then
    (ledger, .error "CONDITIONAL assertions require accepted observation scope.conditions")
  else
    let existing := ledger.byKey.lookup call.key
    let observation := call.observation existing
    let observations := ledger.observations ++ [observation]
    match existing with
    | some existing =>
      let updated := attach existing call
      ({ byKey := dictSet ledger.byKey call.key updated, observations },
        .ok { assertion := updated, observation, created := false })
    | none =>
      if isTaxonomyId unicode call.taxonomyVersion ∧
        isMethodologyId unicode call.methodologyVersion then
        match h : call.fields.enforceSemantics with
        | some message => ({ ledger with observations }, .error message)
        | none =>
          let assertion : Assertion := { toAssertionFields := call.fields, accepted := h }
          ({ byKey := dictSet ledger.byKey call.key assertion, observations },
            .ok { assertion, observation, created := true })
      else ({ ledger with observations }, .error "validation error")

/-- The ledger after a call, also one that raises. -/
def AssertionLedger.after (unicode : UnicodeData) (ledger : AssertionLedger) (call : UpsertCall) :
    AssertionLedger :=
  (ledger.upsert unicode call).1

def AssertionLedger.afterAll (unicode : UnicodeData) (ledger : AssertionLedger)
    (calls : List UpsertCall) :
    AssertionLedger :=
  calls.foldl (AssertionLedger.after unicode) ledger

/-- The arguments of `upsert` as they are passed: the identifiers and versions are texts, which
are checked where a record is made of them. -/
structure UpsertArguments where
  assertionId : String
  observationId : String
  slots : AssertionSlots
  statement : String
  canonicalRendering : String
  scope : AssertionScope
  state : AssertionState
  confidence : SupportConfidence
  confidenceRationale : String
  evidenceId : String
  observedAt : Datetime
  methodologyVersion : String
  taxonomyVersion : String

def UpsertArguments.key (args : UpsertArguments) : String := assertionKey args.slots

/-- `existing.id if existing else assertion_id`. -/
def UpsertArguments.observedId (args : UpsertArguments) : Option Assertion → Option AssertionId
  | some existing => some existing.id
  | none => Id.ofText "ASRT-" args.assertionId

/-- The call with the identifiers that the observation is made of. -/
def UpsertArguments.call (args : UpsertArguments) (existing : Option Assertion) :
    Option UpsertCall := do
  let assertionId ← args.observedId existing
  let observationId ← Id.ofText "OBS-" args.observationId
  let evidenceId ← Id.ofText "EV-" args.evidenceId
  return {
    assertionId
    observationId
    slots := args.slots
    statement := args.statement
    canonicalRendering := args.canonicalRendering
    scope := args.scope
    state := args.state
    confidence := args.confidence
    confidenceRationale := args.confidenceRationale
    evidenceId
    observedAt := args.observedAt
    methodologyVersion := args.methodologyVersion
    taxonomyVersion := args.taxonomyVersion }

/-- `upsert` with the checks that the observation makes of its identifiers. -/
def AssertionLedger.upsertArguments (unicode : UnicodeData) (ledger : AssertionLedger)
    (args : UpsertArguments) :
    AssertionLedger × Except String UpsertResult :=
  if args.state = .conditional ∧ args.scope.conditions = [] then
    (ledger, .error "CONDITIONAL assertions require accepted observation scope.conditions")
  else
    match args.call (ledger.byKey.lookup args.key) with
    | none => (ledger, .error "validation error")
    | some call => ledger.upsert unicode call

def AssertionLedger.reached (unicode : UnicodeData) (calls : List UpsertArguments) :
    AssertionLedger :=
  calls.foldl (fun ledger args ↦ (ledger.upsertArguments unicode args).1) {}

theorem reached_snoc (unicode : UnicodeData) (calls : List UpsertArguments)
    (args : UpsertArguments) :
    AssertionLedger.reached unicode (calls ++ [args]) =
      ((AssertionLedger.reached unicode calls).upsertArguments unicode args).1 := List.foldl_append

theorem enforceSemantics_fields (call : UpsertCall) :
    call.fields.enforceSemantics =
      if call.state = .disputed then some "DISPUTED assertions require contradicting evidence"
        else none := by
  have hkey : call.fields.assertionKey = assertionKey call.fields.slots := rfl
  have hevidence : ¬ (call.fields.state = .explicitlyUnsupported ∧ call.fields.evidenceIds = [] ∧
      call.fields.contradictingEvidenceIds = []) := fun h ↦ absurd h.2.1 (List.cons_ne_nil _ _)
  rw [AssertionFields.enforceSemantics, if_neg (not_not.mpr hkey), if_neg hevidence]
  simp [UpsertCall.fields]

def UpsertCall.Refused (call : UpsertCall) : Prop :=
  call.state = .conditional ∧ call.scope.conditions = []

def UpsertCall.MakesAssertion (unicode : UnicodeData) (call : UpsertCall) : Prop :=
  call.state ≠ .disputed ∧ isTaxonomyId unicode call.taxonomyVersion = true ∧
    isMethodologyId unicode call.methodologyVersion = true

inductive UpsertCase (unicode : UnicodeData) (ledger : AssertionLedger) (call : UpsertCall) :
    AssertionLedger → Option Assertion → Prop
  | refused (hrefused : call.Refused) : UpsertCase unicode ledger call ledger none
  | attached (existing : Assertion) (haccepted : ¬ call.Refused)
      (hfound : ledger.byKey.lookup call.key = some existing) :
      UpsertCase unicode ledger call
        { byKey := dictSet ledger.byKey call.key (attach existing call)
          observations := ledger.observations ++ [call.observation (some existing)] }
        (some (attach existing call))
  | invalid (haccepted : ¬ call.Refused) (hfound : ledger.byKey.lookup call.key = none)
      (hmakes : ¬ call.MakesAssertion unicode) :
      UpsertCase unicode ledger call
        { ledger with observations := ledger.observations ++ [call.observation none] } none
  | created (assertion : Assertion) (haccepted : ¬ call.Refused)
      (hfound : ledger.byKey.lookup call.key = none)
      (hmakes : call.MakesAssertion unicode) (hfields : assertion.toAssertionFields = call.fields) :
      UpsertCase unicode ledger call
        { byKey := dictSet ledger.byKey call.key assertion
          observations := ledger.observations ++ [call.observation none] }
        (some assertion)

section Calls

variable (unicode : UnicodeData) (ledger : AssertionLedger)

theorem upsert_cases (call : UpsertCall) :
    UpsertCase unicode ledger call (ledger.upsert unicode call).1
    ((ledger.upsert unicode call).2.toOption.map UpsertResult.assertion) := by
  unfold AssertionLedger.upsert
  by_cases hrefused : call.state = .conditional ∧ call.scope.conditions = []
  · rw [if_pos hrefused]
    exact .refused hrefused
  · rw [if_neg hrefused]
    dsimp only
    split
    next existing hfound =>
      rw [hfound]
      exact .attached existing hrefused hfound
    next hfound =>
      rw [hfound]
      by_cases hversions :
        isTaxonomyId unicode call.taxonomyVersion ∧ isMethodologyId unicode call.methodologyVersion
      · rw [if_pos hversions]
        split
        next message hmessage =>
          rw [enforceSemantics_fields] at hmessage
          split_ifs at hmessage with hdisputed
          exact .invalid hrefused hfound fun hmakes ↦ hmakes.1 hdisputed
        next hvalid =>
          have hstate : call.state ≠ .disputed := fun h ↦ by
            rw [enforceSemantics_fields, if_pos h] at hvalid
            cases hvalid
          exact .created _ hrefused hfound ⟨hstate, hversions⟩ rfl
      · rw [if_neg hversions]
        exact .invalid hrefused hfound fun hmakes ↦ hversions hmakes.2

variable {unicode ledger} {args : UpsertArguments}

theorem call_eq {existing : Option Assertion} {call : UpsertCall}
    (h : args.call existing = some call) :
    call.key = args.key ∧ call.state = args.state ∧ call.scope = args.scope ∧
      call.taxonomyVersion = args.taxonomyVersion ∧
      call.methodologyVersion = args.methodologyVersion := by
  obtain ⟨_, -, h⟩ := Option.bind_eq_some_iff.mp h
  obtain ⟨_, -, h⟩ := Option.bind_eq_some_iff.mp h
  obtain ⟨_, -, h⟩ := Option.bind_eq_some_iff.mp h
  obtain rfl := Option.some.inj h
  exact ⟨rfl, rfl, rfl, rfl, rfl⟩

def UpsertArguments.Refused (args : UpsertArguments) : Prop := args.state = .conditional ∧
    args.scope.conditions = []

inductive ArgumentsCase (unicode : UnicodeData) (ledger : AssertionLedger)
    (args : UpsertArguments) :
    AssertionLedger × Except String UpsertResult → Prop
  | refused (message : String) (hearly : args.Refused ∨
      args.call (ledger.byKey.lookup args.key) = none) :
      ArgumentsCase unicode ledger args (ledger, .error message)
  | passed (call : UpsertCall) (haccepted : ¬ args.Refused)
      (hcall : args.call (ledger.byKey.lookup args.key) = some call) :
      ArgumentsCase unicode ledger args (ledger.upsert unicode call)

theorem upsertArguments_cases :
    ArgumentsCase unicode ledger args (ledger.upsertArguments unicode args) := by
  unfold AssertionLedger.upsertArguments
  split_ifs with hrefused
  · exact .refused _ (.inl hrefused)
  · split
    next hinvalid => exact .refused _ (.inr hinvalid)
    next call hcall => exact .passed call hrefused hcall

end Calls

theorem observedBefore_iff {a b : Observation} : observedBefore a b = true ↔
    a.observedAt.instant < b.observedAt.instant ∨
      a.observedAt.instant = b.observedAt.instant ∧ a.id.text < b.id.text := by
  simp [observedBefore]

theorem observedBefore_asymm {a b : Observation} (h : observedBefore a b = true) :
    ¬ observedBefore b a = true := by
  rw [observedBefore_iff] at h ⊢
  rintro (hlt | ⟨he, hlt⟩)
  · omega
  · rcases h with hlt' | ⟨-, hlt'⟩
    · omega
    · exact lt_asymm hlt hlt'

theorem observedBefore_total {a b : Observation} (h : a.id ≠ b.id) :
    observedBefore a b = true ∨ observedBefore b a = true := by
  have htext : a.id.text ≠ b.id.text := fun he ↦ h (Id.ext_text he)
  rw [observedBefore_iff, observedBefore_iff]
  rcases lt_trichotomy a.observedAt.instant b.observedAt.instant with hlt | he | hgt
  · exact .inl (.inl hlt)
  · rcases lt_or_gt_of_ne htext with hlt | hgt
    · exact .inl (.inr ⟨he, hlt⟩)
    · exact .inr (.inr ⟨he.symm, hgt⟩)
  · exact .inr (.inl hgt)

theorem observedBefore_of_not {a b c : Observation} (h : ¬ observedBefore b a = true)
    (hbc : observedBefore b c = true) : observedBefore a c = true := by
  rw [observedBefore_iff] at h hbc ⊢
  obtain ⟨hinstant, htext⟩ := not_or.mp h
  rw [not_lt] at hinstant
  rcases hbc with hlt | ⟨he, hlt⟩
  · exact .inl (by omega)
  · by_cases hab : a.observedAt.instant = b.observedAt.instant
    · have hle : a.id.text ≤ b.id.text := not_lt.mp fun hgt ↦ htext ⟨hab.symm, hgt⟩
      exact .inr ⟨hab.trans he, lt_of_le_of_lt hle hlt⟩
    · exact .inl (by omega)

def AssertionLedger.accepted (ledger : AssertionLedger) (assertionId : AssertionId) :
    List Observation :=
  ledger.observations.filter fun item ↦ item.assertionId = assertionId && item.accepted

/-- The one that `max` finds. -/
def latest : List Observation → Option Observation
  | [] => none
  | first :: rest =>
    some (rest.foldl (fun best item ↦ if observedBefore best item then item else best) first)

theorem latest_snoc (observations : List Observation) (item : Observation) :
    latest (observations ++ [item]) =
      some ((latest observations).elim item fun best ↦ if observedBefore best item then item
        else best) := by
  cases observations with
  | nil => rfl
  | cons first rest =>
    rw [List.cons_append, latest, List.foldl_append]
    rfl

theorem latest_mem {observations : List Observation} {best : Observation}
    (h : latest observations = some best) :
    best ∈ observations := by
  induction observations using List.reverseRecOn generalizing best with
  | nil => cases h
  | append_singleton observations item ih =>
    rw [latest_snoc] at h
    obtain rfl := Option.some.inj h
    cases hbest : latest observations with
    | none => exact List.mem_append_right _ (List.mem_singleton_self item)
    | some best =>
      rw [Option.elim_some]
      split_ifs
      · exact List.mem_append_right _ (List.mem_singleton_self item)
      · exact List.mem_append_left _ (ih hbest)

theorem latest_greatest {observations : List Observation} {best : Observation}
    (h : latest observations = some best) :
    ∀ item ∈ observations, ¬ observedBefore best item = true := by
  induction observations using List.reverseRecOn generalizing best with
  | nil => cases h
  | append_singleton observations last ih =>
    rw [latest_snoc] at h
    obtain rfl := Option.some.inj h
    have hself : ∀ item : Observation, ¬ observedBefore item item = true := fun item hitem ↦
      observedBefore_asymm hitem hitem
    intro item hitem
    rcases List.mem_append.mp hitem with hold | hnew
    · cases hbest : latest observations with
      | none =>
        cases observations with
        | nil => cases hold
        | cons first rest => cases hbest
      | some best =>
        rw [Option.elim_some]
        split_ifs with hlater
        · exact fun hbefore ↦ ih hbest item hold (observedBefore_of_not
            (observedBefore_asymm hlater) hbefore)
        · exact ih hbest item hold
    · obtain rfl := List.mem_singleton.mp hnew
      cases hbest : latest observations with
      | none => exact hself item
      | some best =>
        rw [Option.elim_some]
        split_ifs with hlater
        · exact hself item
        · exact hlater

theorem currentScope_eq (ledger : AssertionLedger) (assertionId : AssertionId) :
    ledger.currentScope assertionId =
      (latest (ledger.accepted assertionId)).elim {} Observation.scope := by
  rw [AssertionLedger.currentScope, deriveCurrentScope, AssertionLedger.accepted]
  cases ledger.observations.filter fun item ↦ item.assertionId = assertionId && item.accepted with
  | nil => rfl
  | cons first rest => rfl

theorem accepted_snoc (ledger : AssertionLedger) (call : UpsertCall) (existing : Option Assertion)
    (byKey : List (String × Assertion)) (assertionId : AssertionId) :
    ({ byKey, observations := ledger.observations ++ [call.observation existing] } :
      AssertionLedger).accepted assertionId =
      if (call.observation existing).assertionId = assertionId then
        ledger.accepted assertionId ++ [call.observation existing]
      else ledger.accepted assertionId := by
  have hkept : (call.observation existing).accepted = true := rfl
  rw [AssertionLedger.accepted, List.filter_append, ← AssertionLedger.accepted]
  split_ifs with hid <;> simp [hid, hkept]

end AgenticSecurity.Assertions
