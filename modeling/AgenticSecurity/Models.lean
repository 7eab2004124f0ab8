import AgenticSecurity.Python.Time
import Mathlib.Data.Finset.Basic

namespace AgenticSecurity.Models

open Python

def idCharacter (c : Char) : Bool := c.isUpper || c.isDigit || c = '-'

/-- `^<prefix>[A-Z0-9-]+$`. -/
def matchesId (kind text : String) : Bool :=
  kind.toList.isPrefixOf text.toList &&
    (text.toList.drop kind.length != [] && (text.toList.drop kind.length).all idCharacter)

structure Id (kind : String) where
  text : String
  pattern : matchesId kind text = true := by decide
  deriving DecidableEq

theorem matchesId_append {kind text suffix : String} (h : matchesId kind text = true)
    (hsuffix : suffix.toList.all idCharacter = true) : matchesId kind (text ++ suffix) = true := by
  simp only [matchesId, Bool.and_eq_true, bne_iff_ne, ne_eq, List.isPrefixOf_iff_prefix] at h ⊢
  obtain ⟨hkind, hnonempty, hall⟩ := h
  have hlength : kind.length ≤ text.toList.length := hkind.length_le
  rw [String.toList_append, List.drop_append_of_le_length hlength]
  refine ⟨hkind.trans (List.prefix_append _ _), ?_, ?_⟩
  · exact fun hnil ↦ hnonempty (List.append_eq_nil_iff.mp hnil).1
  · rw [List.all_append, hall, hsuffix, Bool.and_self]

instance lawfulId (kind : String) : LawfulBEq (Id kind) := inferInstance

abbrev SourceId := Id "SRC-"
abbrev SnapshotId := Id "SNAP-"
abbrev EvidenceId := Id "EV-"
abbrev AssertionId := Id "ASRT-"
abbrev ObservationId := Id "OBS-"
abbrev ChangeId := Id "CHANGE-"
abbrev DiffId := Id "DIFF-"
abbrev ReviewId := Id "REVIEW-"
abbrev ConflictId := Id "CONFLICT-"
abbrev ResolutionId := Id "RESOLUTION-"
abbrev LifecycleId := Id "LIFE-"

theorem Id.ext_text {kind : String} {a b : Id kind} (h : a.text = b.text) : a = b := by
  cases a
  cases b
  cases h
  rfl

/-- `^[a-f0-9]{64}$`. -/
structure Sha256 where
  text : String
  pattern : text.length = 64 ∧
    text.toList.all (fun c ↦ c.isDigit || ('a' ≤ c && c ≤ 'f')) := by decide
  deriving DecidableEq

def zeroHash : Sha256 :=
  { text := "0000000000000000000000000000000000000000000000000000000000000000" }

inductive TrustClass
  | primary | official | research | independent | community | secondary | unverified | self
  deriving DecidableEq, Repr

inductive RegistryStatus
  | proposed | approved | disabled
  deriving DecidableEq, Repr

inductive SourceKind
  | http | git | fixture
  deriving DecidableEq, Repr

inductive SourceRole
  | input | output
  deriving DecidableEq, Repr

def SourceRole.value : SourceRole → String
  | .input => "INPUT"
  | .output => "OUTPUT"

inductive SourceClass
  | p1 | p2 | r1 | r2 | o1 | i1 | c1 | s1 | u
  deriving DecidableEq, Repr

def SourceClass.value : SourceClass → String
  | .p1 => "P1"
  | .p2 => "P2"
  | .r1 => "R1"
  | .r2 => "R2"
  | .o1 => "O1"
  | .i1 => "I1"
  | .c1 => "C1"
  | .s1 => "S1"
  | .u => "U"

inductive EvidenceMaturity
  | e0 | e1 | e2 | e3 | e4 | e5
  deriving DecidableEq, Repr

def EvidenceMaturity.value : EvidenceMaturity → String
  | .e0 => "E0"
  | .e1 => "E1"
  | .e2 => "E2"
  | .e3 => "E3"
  | .e4 => "E4"
  | .e5 => "E5"

inductive ClaimPurpose
  | documentation | demonstration | benchmarkResult | independentValidation | effectiveness
  deriving DecidableEq, Repr

def ClaimPurpose.value : ClaimPurpose → String
  | .documentation => "DOCUMENTATION"
  | .demonstration => "DEMONSTRATION"
  | .benchmarkResult => "BENCHMARK_RESULT"
  | .independentValidation => "INDEPENDENT_VALIDATION"
  | .effectiveness => "EFFECTIVENESS"

inductive SubjectType
  | capability | control | architecturePattern | autonomyFacet | availability | benchmarkResult
  deriving DecidableEq, Repr

inductive SupportConfidence
  | high | medium | low
  deriving DecidableEq, Repr

def SupportConfidence.value : SupportConfidence → String
  | .high => "HIGH"
  | .medium => "MEDIUM"
  | .low => "LOW"

inductive Freshness
  | fresh | aging | stale | revalidationRequired
  deriving DecidableEq, Repr

def Freshness.value : Freshness → String
  | .fresh => "FRESH"
  | .aging => "AGING"
  | .stale => "STALE"
  | .revalidationRequired => "REVALIDATION_REQUIRED"

inductive AvailabilityState
  | unknown | privatePreview | limitedPublicPreview | publicPreview | ga | deprecated
  deriving DecidableEq, Repr

def AvailabilityState.value : AvailabilityState → String
  | .unknown => "UNKNOWN"
  | .privatePreview => "PRIVATE_PREVIEW"
  | .limitedPublicPreview => "LIMITED_PUBLIC_PREVIEW"
  | .publicPreview => "PUBLIC_PREVIEW"
  | .ga => "GA"
  | .deprecated => "DEPRECATED"

inductive AssertionState
  | affirmed | explicitlyUnsupported | unknown | partiallySupported | conditional | disputed
  deriving DecidableEq, Repr

def AssertionState.value : AssertionState → String
  | .affirmed => "AFFIRMED"
  | .explicitlyUnsupported => "EXPLICITLY_UNSUPPORTED"
  | .unknown => "UNKNOWN"
  | .partiallySupported => "PARTIAL"
  | .conditional => "CONDITIONAL"
  | .disputed => "DISPUTED"

inductive FundingRelationship
  | none | unrestrictedGrant | commissioned | employment | undisclosed
  deriving DecidableEq, Repr

inductive CommercialRelationship
  | none | customer | partner | vendorSelf | undisclosed
  deriving DecidableEq, Repr

inductive IndependenceDesignation
  | independent | vendorInfluenced | vendorSelf | undetermined
  deriving DecidableEq, Repr

def IndependenceDesignation.value : IndependenceDesignation → String
  | .independent => "INDEPENDENT"
  | .vendorInfluenced => "VENDOR_INFLUENCED"
  | .vendorSelf => "VENDOR_SELF"
  | .undetermined => "UNDETERMINED"

inductive Trigger
  | humanInitiated | eventDriven | scheduled | continuous
  deriving DecidableEq, Repr

/-- `Trigger(value)`. -/
def Trigger.ofValue : String → Option Trigger
  | "HUMAN_INITIATED" => some .humanInitiated
  | "EVENT_DRIVEN" => some .eventDriven
  | "SCHEDULED" => some .scheduled
  | "CONTINUOUS" => some .continuous
  | _ => none

inductive PermissionScope
  | readOnly | scopedWrite | broadWrite | unknown
  deriving DecidableEq, Repr

def PermissionScope.ofValue : String → Option PermissionScope
  | "READ_ONLY" => some .readOnly
  | "SCOPED_WRITE" => some .scopedWrite
  | "BROAD_WRITE" => some .broadWrite
  | "UNKNOWN" => some .unknown
  | _ => none

inductive HumanGate
  | preAction | postAction | notifyOnly | none | unknown
  deriving DecidableEq, Repr

def HumanGate.ofValue : String → Option HumanGate
  | "PRE_ACTION" => some .preAction
  | "POST_ACTION" => some .postAction
  | "NOTIFY_ONLY" => some .notifyOnly
  | "NONE" => some .none
  | "UNKNOWN" => some .unknown
  | _ => Option.none

inductive CapabilityEvidenceLevel
  | high | medium | low | noneFound | unknown
  deriving DecidableEq, Repr

def CapabilityEvidenceLevel.value : CapabilityEvidenceLevel → String
  | .high => "HIGH"
  | .medium => "MEDIUM"
  | .low => "LOW"
  | .noneFound => "NONE_FOUND"
  | .unknown => "UNKNOWN"

inductive DecisionImpact
  | deployment | authorization | architecture | risk | procurement | operations | evaluation
  deriving DecidableEq, Repr

def DecisionImpact.value : DecisionImpact → String
  | .deployment => "DEPLOYMENT"
  | .authorization => "AUTHORIZATION"
  | .architecture => "ARCHITECTURE"
  | .risk => "RISK"
  | .procurement => "PROCUREMENT"
  | .operations => "OPERATIONS"
  | .evaluation => "EVALUATION"

def DecisionImpact.sorted : List DecisionImpact :=
  [.architecture, .authorization, .deployment, .evaluation, .operations, .procurement, .risk]

/-- `sorted(item.value for item in impacts)`. -/
def sortedImpacts (impacts : Finset DecisionImpact) : List String :=
  (DecisionImpact.sorted.filter (· ∈ impacts)).map DecisionImpact.value

theorem DecisionImpact.mem_sorted (impact : DecisionImpact) : impact ∈ sorted := by
  cases impact <;> decide

theorem DecisionImpact.value_injective : Function.Injective DecisionImpact.value := by
  intro a b
  cases a <;> cases b <;> decide

theorem mem_sortedImpacts {impacts : Finset DecisionImpact} {impact : DecisionImpact} :
    impact.value ∈ sortedImpacts impacts ↔ impact ∈ impacts := by
  simp only [sortedImpacts, List.mem_map, List.mem_filter, decide_eq_true_eq]
  constructor
  · rintro ⟨other, hother, he⟩
    exact DecisionImpact.value_injective he ▸ hother.2
  · exact fun h ↦ ⟨impact, ⟨impact.mem_sorted, h⟩, rfl⟩

theorem sortedImpacts_injective : Function.Injective sortedImpacts := by
  intro s t h
  ext impact
  rw [← mem_sortedImpacts, h, mem_sortedImpacts]

inductive ChangeClassification
  | capabilityAddition | capabilityRemoval | controlChange | autonomyFacetChange
  | availabilityLifecycleChange | architectureChange | modelChange | agentAddition
  | agentRemoval | permissionChange | triggerChange | approvalChange | benchmarkResultChange
  | evidenceStatusChange | documentationDeprecation | notMaterial
  deriving DecidableEq, Repr

def ChangeClassification.value : ChangeClassification → String
  | .capabilityAddition => "CAPABILITY_ADDITION"
  | .capabilityRemoval => "CAPABILITY_REMOVAL"
  | .controlChange => "CONTROL_CHANGE"
  | .autonomyFacetChange => "AUTONOMY_FACET_CHANGE"
  | .availabilityLifecycleChange => "AVAILABILITY_LIFECYCLE_CHANGE"
  | .architectureChange => "ARCHITECTURE_CHANGE"
  | .modelChange => "MODEL_CHANGE"
  | .agentAddition => "AGENT_ADDITION"
  | .agentRemoval => "AGENT_REMOVAL"
  | .permissionChange => "PERMISSION_CHANGE"
  | .triggerChange => "TRIGGER_CHANGE"
  | .approvalChange => "APPROVAL_CHANGE"
  | .benchmarkResultChange => "BENCHMARK_RESULT_CHANGE"
  | .evidenceStatusChange => "EVIDENCE_STATUS_CHANGE"
  | .documentationDeprecation => "DOCUMENTATION_DEPRECATION"
  | .notMaterial => "NOT_MATERIAL"

inductive EvidenceStatusChangeSubtype
  | independentValidationAdded | evidenceMaturityChanged | evidenceContradictionAdded
  deriving DecidableEq, Repr

def EvidenceStatusChangeSubtype.value : EvidenceStatusChangeSubtype → String
  | .independentValidationAdded => "INDEPENDENT_VALIDATION_ADDED"
  | .evidenceMaturityChanged => "EVIDENCE_MATURITY_CHANGED"
  | .evidenceContradictionAdded => "EVIDENCE_CONTRADICTION_ADDED"

inductive ReviewStatus
  | pending | confirmed | rejected
  deriving DecidableEq, Repr

inductive DailyStatus
  | materialChanges | noReviewedContent | noMaterialChange | noConfirmedMaterialChange
  | reviewPending
  deriving DecidableEq, Repr

def DailyStatus.value : DailyStatus → String
  | .materialChanges => "MATERIAL_CHANGES"
  | .noReviewedContent => "NO_REVIEWED_CONTENT"
  | .noMaterialChange => "NO_MATERIAL_CHANGE"
  | .noConfirmedMaterialChange => "NO_CONFIRMED_MATERIAL_CHANGE"
  | .reviewPending => "REVIEW_PENDING"

structure SourcePolicy where
  allowedClaimTypes : Finset SubjectType
  prohibitedClaimTypes : Finset SubjectType := ∅
  allowedClaimPurposes : Finset ClaimPurpose
  prohibitedClaimPurposes : Finset ClaimPurpose := ∅
  crawlFrequency : String
  humanApprovalRequired : Bool := true
  usableAsIndependentEvidence : Bool := true
  deriving DecidableEq

structure SourceFields where
  id : SourceId
  publisher : String
  name : String
  kind : SourceKind
  role : SourceRole := .input
  domains : List String
  baseUrl : Option String := none
  repository : Option String := none
  trustClass : TrustClass
  status : RegistryStatus
  enabled : Bool
  policy : SourcePolicy
  pinnedAt : Date
  fallbackNote : String
  derivativeOfHints : List SourceId := []
  notes : String := ""
  deriving DecidableEq

def SourceFields.approvalIsRequired (self : SourceFields) : Option String :=
  if self.enabled ∧ self.status ≠ .approved then some "only APPROVED sources may be enabled"
  else if self.trustClass = .self ∧ self.policy.usableAsIndependentEvidence then
    some "self sources cannot be independent evidence"
  else if self.role = .output ∧
      (self.trustClass ≠ .self ∨ self.policy.usableAsIndependentEvidence ∨
        self.policy.allowedClaimTypes ≠ ∅ ∨ self.policy.allowedClaimPurposes ≠ ∅) then
    some "output sources must be SELF and contribute no evidence"
  else none

structure Source extends SourceFields where
  accepted : toSourceFields.approvalIsRequired = none := by decide
  deriving DecidableEq

structure SnapshotFields where
  id : SnapshotId
  sourceId : SourceId
  canonicalUri : String
  retrievedAt : Datetime
  normalizerVersion : String
  sha256 : Sha256
  contentType : String
  rawContent : String
  normalizedText : String
  duplicateOf : Option SnapshotId := none
  repository : Option String := none
  commitSha : Option String := none
  filePath : Option String := none
  deriving DecidableEq

def truthy (value : Option String) : Bool := value.getD "" ≠ ""

def SnapshotFields.gitFieldsAreComplete (self : SnapshotFields) : Option String :=
  let values := [self.repository, self.commitSha, self.filePath]
  if values.any truthy ∧ ¬ values.all truthy then
    some "repository, commit_sha, and file_path must be supplied together"
  else none

structure Snapshot extends SnapshotFields where
  accepted : toSnapshotFields.gitFieldsAreComplete = none := by decide
  deriving DecidableEq

structure EvidenceAnchorFields where
  snapshotId : SnapshotId
  snapshotSha256 : Sha256
  normalizerVersion : String
  documentPath : String
  documentHeading : String
  quote : String
  startOffset : ℕ
  endOffset : ℕ
  repository : Option String := none
  commitSha : Option String := none
  filePath : Option String := none
  lineStart : Option ℕ := none
  lineEnd : Option ℕ := none
  deriving DecidableEq

def EvidenceAnchorFields.gitValues (self : EvidenceAnchorFields) : List Bool :=
  [self.repository.isSome, self.commitSha.isSome, self.filePath.isSome, self.lineStart.isSome,
    self.lineEnd.isSome]

def EvidenceAnchorFields.validateShape (self : EvidenceAnchorFields) : Option String :=
  if self.endOffset ≤ self.startOffset then some "end_offset must exceed start_offset"
  else if self.gitValues.any id ∧ ¬ self.gitValues.all id then
    some "all git anchor fields must be supplied together"
  else if self.lineStart.getD 0 ≠ 0 ∧ self.lineEnd.getD 0 ≠ 0 ∧
      self.lineEnd.getD 0 < self.lineStart.getD 0 then
    some "line_end must not precede line_start"
  else none

structure EvidenceAnchor extends EvidenceAnchorFields where
  bounded : 1 ≤ quote.length ∧ quote.length ≤ 2000 ∧ 0 < endOffset ∧
    (∀ n ∈ lineStart, 1 ≤ n) ∧ ∀ n ∈ lineEnd, 1 ≤ n := by decide
  accepted : toEvidenceAnchorFields.validateShape = none := by decide
  deriving DecidableEq

structure IndependenceFacets where
  fundingRelationship : FundingRelationship
  commercialRelationship : CommercialRelationship
  vendorSelectedMethodology : Bool
  vendorOperatedTest : Bool
  vendorReviewedBeforePublication : Bool
  reproducibleMethod : Bool
  publicEnvironment : Bool
  deriving DecidableEq

structure Evidence where
  id : EvidenceId
  sourceId : SourceId
  sourceClass : SourceClass
  maturity : EvidenceMaturity
  claimPurpose : ClaimPurpose
  anchor : EvidenceAnchor
  publishedAt : Option Datetime
  modifiedAt : Option Datetime := none
  firstSeenAt : Datetime
  retrievedAt : Datetime
  lastSeenAt : Datetime
  lastVerifiedAt : Datetime
  effectiveAt : Option Datetime := none
  independenceFacets : Option IndependenceFacets := none
  derivativeOfEvidenceId : Option EvidenceId := none
  deriving DecidableEq

structure MaterialChangeFields where
  id : ChangeId
  assertionIds : List AssertionId
  description : String
  dimensions : List SubjectType
  decisionImpacts : Finset DecisionImpact
  humanConfirmed : Bool
  confirmedBy : Option String := none
  confirmedAt : Option Datetime := none
  deriving DecidableEq

def MaterialChangeFields.humanGate (self : MaterialChangeFields) : Option String :=
  if self.humanConfirmed ∧
      (self.decisionImpacts = ∅ ∨ ¬ truthy self.confirmedBy ∨ self.confirmedAt = none) then
    some "confirmed changes require impacts, reviewer, and timestamp"
  else none

structure MaterialChange extends MaterialChangeFields where
  accepted : toMaterialChangeFields.humanGate = none := by decide
  deriving DecidableEq

theorem MaterialChange.confirmed_fields (change : MaterialChange) (h : change.humanConfirmed) :
    change.decisionImpacts ≠ ∅ ∧ truthy change.confirmedBy ∧ change.confirmedAt ≠ none := by
  have haccepted := change.accepted
  unfold MaterialChangeFields.humanGate at haccepted
  split_ifs at haccepted with hgate
  simpa only [h, true_and, not_or, not_not] using hgate

structure StructuredDiff where
  id : DiffId
  sourceId : SourceId
  oldSnapshotId : SnapshotId
  newSnapshotId : SnapshotId
  added : List String := []
  removed : List String := []
  cosmeticOnly : Bool := false
  paraphraseOnly : Bool := false
  derivativeOnly : Bool := false
  materialCandidate : Bool := false
  evidenceStatusSubtype : Option EvidenceStatusChangeSubtype := none
  fingerprint : Sha256
  deriving DecidableEq

structure ReviewFields where
  id : ReviewId
  candidateId : DiffId
  machineClassification : ChangeClassification
  machineRationale : String
  machineDecisionImpacts : Finset DecisionImpact := ∅
  evidenceStatusSubtype : Option EvidenceStatusChangeSubtype := none
  status : ReviewStatus := .pending
  reviewer : Option String := none
  reviewedAt : Option Datetime := none
  humanClassification : Option ChangeClassification := none
  confirmedDecisionImpacts : Finset DecisionImpact := ∅
  humanRationale : Option String := none
  methodologyVersion : String
  priorReviewId : Option ReviewId := none
  deriving DecidableEq

def ReviewFields.anyDecision (self : ReviewFields) : Bool :=
  self.reviewer.isSome || self.reviewedAt.isSome || self.humanClassification.isSome ||
    self.humanRationale.isSome

def ReviewFields.allDecision (self : ReviewFields) : Bool :=
  self.reviewer.isSome && self.reviewedAt.isSome && self.humanClassification.isSome &&
    self.humanRationale.isSome

def ReviewFields.enforceHumanDecision (self : ReviewFields) : Option String :=
  if self.status = .pending ∧
      (self.anyDecision ∨ self.confirmedDecisionImpacts ≠ ∅ ∨ self.priorReviewId ≠ none) then
    some "pending machine proposal cannot contain a human decision"
  else if self.status ≠ .pending ∧ (¬ self.allDecision ∨ self.priorReviewId = none) then
    some ("completed review requires reviewer, time, classification, rationale, " ++
      "and prior review reference")
  else if self.status = .confirmed ∧ self.humanClassification ≠ some .notMaterial ∧
      self.confirmedDecisionImpacts = ∅ then
    some "confirmed material change requires human-confirmed decision impacts"
  else if (self.machineClassification = .evidenceStatusChange) ≠ self.evidenceStatusSubtype.isSome
  then some "evidence-status classifications require exactly one subtype"
  else none

structure ChangeReviewItem extends ReviewFields where
  accepted : toReviewFields.enforceHumanDecision = none := by decide
  deriving DecidableEq

theorem ChangeReviewItem.completed_fields (review : ChangeReviewItem)
    (h : review.status ≠ .pending) :
    review.allDecision ∧ review.priorReviewId ≠ none ∧
    (review.status = .confirmed → review.humanClassification ≠ some .notMaterial →
      review.confirmedDecisionImpacts ≠ ∅) := by
  have haccepted := review.accepted
  unfold ReviewFields.enforceHumanDecision at haccepted
  split_ifs at haccepted with _ hdone hconfirmed _
  rw [not_and, not_or, not_not] at hdone
  rw [not_and, not_and] at hconfirmed
  exact ⟨(hdone h).1, (hdone h).2, hconfirmed⟩

theorem ChangeReviewItem.pending_fields (review : ChangeReviewItem) (h : review.status = .pending) :
    review.anyDecision = false ∧ review.priorReviewId = none := by
  have haccepted := review.accepted
  unfold ReviewFields.enforceHumanDecision at haccepted
  split_ifs at haccepted with hpending _ _ _
  rw [not_and, not_or, not_or, not_not, Bool.not_eq_true] at hpending
  exact ⟨(hpending h).1, not_not.mp (hpending h).2.2⟩

theorem ChangeReviewItem.subtype_iff (review : ChangeReviewItem) :
    review.machineClassification = .evidenceStatusChange ↔ review.evidenceStatusSubtype.isSome := by
  have haccepted := review.accepted
  unfold ReviewFields.enforceHumanDecision at haccepted
  split_ifs at haccepted with _ _ _ hsubtype
  exact iff_of_eq (not_not.mp hsubtype)

structure Vendor where
  id : String
  name : String
  website : String
  deriving DecidableEq

structure System where
  id : String
  vendorId : String
  name : String
  category : String
  description : String
  firstObservedAt : Datetime
  lastVerifiedAt : Datetime
  deriving DecidableEq

/-- The check that an agent is not named `_system` is left out: it lower-cases the name. -/
structure Agent where
  id : String
  systemId : String
  name : String
  category : String
  description : String
  firstObservedAt : Datetime
  lastVerifiedAt : Datetime
  deriving DecidableEq

structure Capability where
  id : String
  name : String
  description : String
  taxonomyVersion : String
  deriving DecidableEq

structure AssertionScope where
  licenseTier : String := "unknown"
  availability : AvailabilityState := .unknown
  regions : List String := []
  conditions : List String := []
  deriving DecidableEq, Repr

structure AssertionSlots where
  system : String
  agent : Option String := none
  subjectType : SubjectType
  subject : String
  action : String
  object : String
  scopeKey : String := "default"
  deriving DecidableEq

/-- Identity from the slots; a missing agent and an empty one are both `_system`. -/
def assertionKey (slots : AssertionSlots) : String :=
  let agent := if truthy slots.agent then slots.agent.getD "" else "_system"
  ":".intercalate [slots.system, agent, slots.subject, slots.action, slots.object]

structure AssertionFields where
  id : AssertionId
  assertionKey : String
  taxonomyVersion : String
  systemId : String
  agentId : Option String := none
  slots : AssertionSlots
  statement : String
  canonicalRendering : String
  state : AssertionState
  supportConfidence : SupportConfidence
  supportConfidenceRationale : String
  publishedAt : Option Datetime := none
  modifiedAt : Option Datetime := none
  firstSeenAt : Datetime
  retrievedAt : Datetime
  lastSeenAt : Datetime
  firstObservedAt : Datetime
  lastVerifiedAt : Datetime
  effectiveAt : Option Datetime := none
  methodologyVersion : String
  evidenceIds : List EvidenceId
  contradictingEvidenceIds : List EvidenceId := []
  supersededBy : Option AssertionId := none
  deriving DecidableEq

def AssertionFields.enforceSemantics (self : AssertionFields) : Option String :=
  if self.assertionKey ≠ Models.assertionKey self.slots then
    some "assertion_key does not match ontology slots"
  else if self.state = .explicitlyUnsupported ∧ self.evidenceIds = [] ∧
  self.contradictingEvidenceIds = [] then
    some "negative assertions require explicit evidence"
  else if self.state = .disputed ∧ self.contradictingEvidenceIds = [] then
    some "DISPUTED assertions require contradicting evidence"
  else none

structure Assertion extends AssertionFields where
  accepted : toAssertionFields.enforceSemantics = none := by decide
  deriving DecidableEq

structure Observation where
  id : ObservationId
  assertionId : AssertionId
  evidenceId : EvidenceId
  observedStatement : String
  observedAt : Datetime
  publishedAt : Option Datetime := none
  modifiedAt : Option Datetime := none
  firstSeenAt : Datetime
  retrievedAt : Datetime
  lastSeenAt : Datetime
  lastVerifiedAt : Datetime
  effectiveAt : Option Datetime := none
  isParaphrase : Bool := false
  accepted : Bool := true
  scope : AssertionScope := {}
  deriving DecidableEq

structure LifecycleModifiers where
  regions : List String := []
  conditions : List String := []
  deriving DecidableEq

structure LifecycleFields where
  id : LifecycleId
  systemId : Option String := none
  agentId : Option String := none
  state : AvailabilityState
  modifiers : LifecycleModifiers := {}
  effectiveAt : Option Moment
  evidenceId : EvidenceId
  sourceClass : SourceClass
  retrievedAt : Datetime
  rationale : String
  deriving DecidableEq

def LifecycleFields.exactlyOneEntity (self : LifecycleFields) : Option String :=
  if self.systemId.isNone = self.agentId.isNone then
    some "exactly one of system_id or agent_id is required"
  else none

structure LifecycleEvent extends LifecycleFields where
  accepted : toLifecycleFields.exactlyOneEntity = none := by decide
  deriving DecidableEq

structure AutonomyFacetEvidence where
  value : String
  evidenceId : EvidenceId
  supportConfidence : SupportConfidence
  methodologyVersion : String
  lastVerifiedAt : Datetime
  deriving DecidableEq

/-- `actionHumanGates` are the items of the mapping. -/
structure AutonomyFields where
  id : String
  systemId : String
  agentId : Option String := none
  trigger : AutonomyFacetEvidence
  persistence : AutonomyFacetEvidence
  permissionScope : AutonomyFacetEvidence
  humanGate : AutonomyFacetEvidence
  actionHumanGates : List (String × AutonomyFacetEvidence) := []
  deriving DecidableEq

def approvedGateCategories : List String :=
  ["alert-triage", "autonomous-investigation", "attack-simulation", "remediation",
    "detection-authoring", "vulnerability-validation"]

def AutonomyFields.unapprovedGateCategories (self : AutonomyFields) : List String :=
  (self.actionHumanGates.map Prod.fst).filter (· ∉ approvedGateCategories)

structure AutonomyAssessment extends AutonomyFields where
  accepted : toAutonomyFields.unapprovedGateCategories = [] := by decide
  deriving DecidableEq

structure CapabilityEvidencePanel where
  capabilityId : String
  vendorDocumentation : CapabilityEvidenceLevel
  publicDemonstration : CapabilityEvidenceLevel
  independentValidation : CapabilityEvidenceLevel
  productionEffectiveness : CapabilityEvidenceLevel
  methodologyVersion : String
  rationale : String
  deriving DecidableEq

structure ContradictionFlag where
  id : ConflictId
  assertionIds : List AssertionId
  detectedBy : String
  rationale : String
  humanReviewRequired : Bool := true
  status : ReviewStatus := .pending
  deriving DecidableEq

structure ContradictionResolution where
  id : ResolutionId
  conflictId : String
  resolution : String
  resultingState : AssertionState
  resultingScope : AssertionScope
  reviewer : String
  reviewedAt : Datetime
  deriving DecidableEq

end AgenticSecurity.Models
