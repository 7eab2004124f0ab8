import AgenticSecurity.Models

namespace AgenticSecurity.Derivations

open Models Python

def daysInMicroseconds (days : ℤ) : ℤ := days * microsecondsPerDay

def deriveFreshness (lastVerifiedAt asOf : Datetime) : Freshness :=
  let age := asOf.instant - lastVerifiedAt.instant
  if age ≤ daysInMicroseconds 30 then .fresh
  else if age ≤ daysInMicroseconds 90 then .aging
  else if age ≤ daysInMicroseconds 180 then .stale
  else .revalidationRequired

/-- `a` comes before `b` in the order of `(observed_at, id)`. -/
def observedBefore (a b : Observation) : Bool :=
  a.observedAt.instant < b.observedAt.instant ||
    (a.observedAt.instant = b.observedAt.instant && a.id.text < b.id.text)

def deriveCurrentScope (assertionId : AssertionId) (observations : List Observation) :
    AssertionScope :=
  match observations.filter fun item ↦ item.assertionId = assertionId && item.accepted with
  | [] => {}
  | first :: rest =>
    (rest.foldl (fun best item ↦ if observedBefore best item then item else best) first).scope

def deriveIndependence (facets : IndependenceFacets) : IndependenceDesignation :=
  if facets.fundingRelationship = .undisclosed ∨ facets.commercialRelationship = .undisclosed then
    .undetermined
  else if facets.commercialRelationship = .vendorSelf then .vendorSelf
  else if facets.fundingRelationship ∈
    [FundingRelationship.commissioned, .employment] then .vendorSelf
  else if facets.vendorSelectedMethodology ∨ facets.vendorOperatedTest ∨
  facets.vendorReviewedBeforePublication
  then .vendorInfluenced
  else if facets.reproducibleMethod then .independent
  else .undetermined

def deriveSupportConfidence (evidence : List Evidence) (freshness : Freshness)
    (hasUnresolvedContradiction : Bool) : SupportConfidence :=
  let nonDerivative := evidence.filter fun item ↦ item.derivativeOfEvidenceId.isNone
  if hasUnresolvedContradiction ∨ freshness ∈ [Freshness.stale, .revalidationRequired] ∨
    evidence = [] then .low
  else if freshness = .fresh ∧
  nonDerivative.any fun item ↦ item.sourceClass = .p1 && item.maturity ≠ .e0 then
    .high
  else if freshness = .aging ∨
      nonDerivative.any fun item ↦ item.sourceClass ∈ [SourceClass.p2, .r1, .r2, .o1, .i1] then
    .medium
  else .low

def provenanceIndependentCount (evidence : List Evidence)
    (rootByEvidence : List (String × String)) : ℕ :=
  let direct := evidence.filter fun item ↦ item.derivativeOfEvidenceId.isNone
  (direct.map fun item ↦ (rootByEvidence.lookup item.id.text).getD item.id.text).eraseDups.length

/-- `ValueError("'<value>' is not a valid <enumeration>")`. -/
structure InvalidMember where
  enumeration : String
  value : String
  deriving DecidableEq, Repr

def member {α : Type} (enumeration : String) (ofValue : String → Option α) (value : String) :
    Except InvalidMember α :=
  match ofValue value with
  | none => .error { enumeration, value }
  | some a => .ok a

def deriveAutonomyLabel (assessment : AutonomyAssessment) : Except InvalidMember String := do
  let trigger ← member "Trigger" Trigger.ofValue assessment.trigger.value
  let permission ← member "PermissionScope" PermissionScope.ofValue assessment.permissionScope.value
  let gate ← member "HumanGate" HumanGate.ofValue assessment.humanGate.value
  let actionGates ← assessment.actionHumanGates.mapM
    fun item ↦ member "HumanGate" HumanGate.ofValue item.2.value
  if trigger = .continuous ∧ permission ≠ .readOnly ∧
      ∀ g ∈ gate :: actionGates, g ∈ [HumanGate.none, .notifyOnly] then
    return "A4"
  else if trigger ∈ [Trigger.eventDriven, .scheduled, .continuous] then return "A3"
  else if trigger = .humanInitiated ∧
  permission ∈ [PermissionScope.scopedWrite, .broadWrite] then return "A2"
  else if trigger = .humanInitiated ∧ permission = .readOnly then return if gate = .preAction then
    "A0" else "A1"
  else return "A1"

def isVendorDocumentation (e : Evidence) : Bool :=
  e.claimPurpose = .documentation && e.maturity ∈ [EvidenceMaturity.e1, .e2, .e3, .e4, .e5] &&
    e.sourceClass ∈ [SourceClass.p1, .p2]

def isDemonstration (e : Evidence) : Bool :=
  e.claimPurpose = .demonstration && e.maturity ∈ [EvidenceMaturity.e2, .e3, .e4, .e5]

def isIndependentValidation (e : Evidence) : Bool :=
  e.claimPurpose = .independentValidation && e.maturity ∈ [EvidenceMaturity.e3, .e4, .e5] &&
    e.independenceFacets.any fun facets ↦ deriveIndependence facets = .independent

def isProductionEvidence (e : Evidence) : Bool :=
  e.claimPurpose = .effectiveness && e.maturity ∈ [EvidenceMaturity.e4, .e5] &&
    e.independenceFacets.any fun facets ↦ deriveIndependence facets = .independent &&
      facets.publicEnvironment

def deriveCapabilityEvidencePanel (capabilityId : String) (evidence : List Evidence) :
    CapabilityEvidencePanel where
  capabilityId := capabilityId
  vendorDocumentation := if evidence.any isVendorDocumentation then .high else .noneFound
  publicDemonstration := if evidence.any isDemonstration then .medium else .noneFound
  independentValidation := if evidence.any isIndependentValidation then .high else .noneFound
  productionEffectiveness := if evidence.any isProductionEvidence then .medium else .unknown
  methodologyVersion := "ASI-1.0"
  rationale :=
    "Rows represent evidence categories; assertion support confidence is intentionally " ++
    "not rendered beside the capability name."

def AvailabilityState.isPreview : AvailabilityState → Bool
  | .privatePreview | .limitedPublicPreview | .publicPreview => true
  | _ => false

def systemIds (events : List LifecycleEvent) : List String :=
  (events.filterMap fun e ↦ e.systemId.filter (· ≠ "")).eraseDups

/-- `(ga[-1].effective_at - previews[0].effective_at).days`, where both exist. -/
def velocity (history : List LifecycleEvent) : Except String (Option ℤ) :=
  let previews := history.filter fun e ↦ AvailabilityState.isPreview e.state && e.effectiveAt.isSome
  let ga := history.filter fun e ↦ e.state = .ga && e.effectiveAt.isSome
  match previews.head?.bind (·.effectiveAt), ga.getLast?.bind (·.effectiveAt) with
  | some start, some stop =>
    (stop.since start).map fun elapsed ↦ some (elapsed / microsecondsPerDay)
  | _, _ => .ok none

def previewToGaVelocity (events : List LifecycleEvent) : Except String (List (String × ℤ)) := do
  let velocities ← (systemIds events).mapM fun systemId ↦
    (velocity (events.filter fun e ↦ e.systemId = some systemId)).map fun days ↦ days.map fun n ↦
      (systemId, n)
  return velocities.filterMap id

end AgenticSecurity.Derivations
