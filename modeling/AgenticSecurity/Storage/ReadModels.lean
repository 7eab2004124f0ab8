import AgenticSecurity.Library.History
import AgenticSecurity.Storage.Schema
import Mathlib.Data.List.Sort

namespace AgenticSecurity.Storage

open Library Models Python

/-- The dictionary `change_reviews` is kept as its items. -/
structure PublicationLedgerData where
  taxonomyVersion : String := "ASI-TAXONOMY-1.1"
  methodologyVersion : String := "ASI-1.0"
  methodologyPublishedAt : Datetime := .midnight sampleDay
  vendors : List Vendor := []
  systems : List System := []
  agents : List Agent := []
  capabilities : List Capability := []
  sources : List Source := []
  evidence : List Evidence := []
  assertions : List Assertion := []
  observations : List Observation := []
  lifecycleEvents : List LifecycleEvent := []
  autonomyAssessments : List AutonomyAssessment := []
  candidates : List StructuredDiff := []
  confirmedChanges : List MaterialChange := []
  changeReviews : List (String × ChangeReviewItem) := []
  conflicts : List ContradictionFlag := []
  latestReviewDecisions : List ChangeReviewItem := []
  deriving DecidableEq

def Ledger.confirmedChangePayloads (ledger : Ledger) : List MaterialChange :=
  ledger.confirmedChanges.map ConfirmedChangeRow.payload

def Ledger.candidates (ledger : Ledger) : List StructuredDiff :=
  ledger.structuredDiffs.map DiffRow.payload

def Ledger.conflicts (ledger : Ledger) : List ContradictionFlag :=
  ledger.contradictionFlags.map FlagRow.payload

def Ledger.currentReviews (ledger : Ledger) : List ReviewRow :=
  History.latest ReviewRow.id ReviewRow.priorReviewId ledger.changeReviewQueue

def Ledger.latestReviews (ledger : Ledger) : List ChangeReviewItem :=
  ledger.currentReviews.map ReviewRow.payload

def textsBefore : List String → List String → Bool
  | a :: as, b :: bs => a < b || (a = b && textsBefore as bs)
  | _, _ => true

/-- `ORDER BY` columns that no two rows share. -/
def orderBy {ρ : Type} (columns : ρ → List String) (rows : List ρ) : List ρ :=
  rows.insertionSort fun a b ↦ textsBefore (columns a) (columns b)

def Ledger.taxonomyVersion (ledger : Ledger) : Except LedgerError String :=
  match (orderBy (fun r ↦ [r.publishedAt.isoformat, r.id]) ledger.taxonomyVersions).getLast? with
  | none => .error (.valueError "ledger has no taxonomy version")
  | some row => .ok row.id

def Ledger.methodologyVersion (ledger : Ledger) : Except LedgerError String :=
  match (orderBy (fun r ↦ [r.publishedAt.isoformat, r.id]) ledger.methodologyVersions).getLast? with
  | none => .error (.valueError "ledger has no methodology version")
  | some row => .ok row.id

def Ledger.acceptedObservations (ledger : Ledger) : List Observation :=
  orderBy (fun item ↦ [item.observedAt.isoformat, item.id.text])
    (ledger.observations.filter (·.accepted))

def Ledger.confirmedChangeReviews (ledger : Ledger) : List (String × ChangeReviewItem) :=
  (orderBy (fun change ↦ [change.confirmedAt.isoformat, change.id.text])
    ledger.confirmedChanges).filterMap
    fun change ↦ (ledger.changeReviewQueue.find? fun review ↦ review.id = change.reviewId).map
      fun review ↦ (change.id.text, review.payload)

/-- What is read once the metadata of the ledger has been verified: that check only raises.
`methodologyPublishedAt` is the time in the verified metadata. -/
def Ledger.publicationData (ledger : Ledger) (methodologyPublishedAt : Datetime) :
    Except LedgerError PublicationLedgerData := do
  let taxonomyVersion ← ledger.taxonomyVersion
  let methodologyVersion ← ledger.methodologyVersion
  return {
    taxonomyVersion
    methodologyVersion
    methodologyPublishedAt
    vendors := orderBy (fun item ↦ [item.id]) ledger.vendors
    systems := orderBy (fun item ↦ [item.id]) ledger.systems
    agents := orderBy (fun item ↦ [item.id]) ledger.agents
    capabilities := orderBy (fun item ↦ [item.id]) ledger.capabilities
    sources := ledger.sources.map SourceRow.payload
    evidence := ledger.evidence.map EvidenceRow.payload
    assertions := ledger.assertions
    observations := ledger.acceptedObservations
    lifecycleEvents := ledger.lifecycleEvents
    autonomyAssessments := ledger.autonomyAssessments
    candidates := ledger.candidates
    confirmedChanges := ledger.confirmedChangePayloads
    changeReviews := ledger.confirmedChangeReviews
    conflicts := ledger.conflicts
    latestReviewDecisions := ledger.latestReviews }

structure PendingReview where
  reviewId : ReviewId
  candidateId : DiffId
  machineClassification : ChangeClassification
  evidenceStatusSubtype : Option EvidenceStatusChangeSubtype
  decisionImpacts : List String
  status : ReviewStatus
  deriving DecidableEq

def ReviewRow.pendingReview (row : ReviewRow) : PendingReview where
  reviewId := row.id
  candidateId := row.candidateId
  machineClassification := row.machineClassification
  evidenceStatusSubtype := row.evidenceStatusSubtype
  decisionImpacts := row.machineDecisionImpactsJson
  status := row.status

/-- `current.status='PENDING' AND NOT EXISTS (... newer ...)`. -/
def Ledger.pendingRows (ledger : Ledger) : List ReviewRow :=
  ledger.changeReviewQueue.filter fun current ↦
    current.status = .pending &&
      ledger.changeReviewQueue.all fun newer ↦ newer.priorReviewId ≠ some current.id

def Ledger.pendingReviewCount (ledger : Ledger) : ℕ := ledger.pendingRows.length

def Ledger.pendingReviews (ledger : Ledger) (limit : ℕ) : List PendingReview :=
  (ledger.pendingRows.take limit).map ReviewRow.pendingReview

end AgenticSecurity.Storage
