import AgenticSecurity.Packets

namespace AgenticSecurity.Storage

open Models Python

structure MethodologyRow where
  id : String
  publishedAt : Datetime
  description : String
  normalizerVersion : String
  deriving DecidableEq

structure TaxonomyRow where
  id : String
  publishedAt : Datetime
  previousVersion : Option String := none
  deriving DecidableEq

structure SourceRow where
  id : SourceId
  publisher : String
  name : String
  kind : SourceKind
  trustClass : TrustClass
  status : RegistryStatus
  enabled : Bool
  payload : Source
  deriving DecidableEq

structure EvidenceRow where
  id : EvidenceId
  sourceId : SourceId
  snapshotId : SnapshotId
  sourceClass : SourceClass
  maturity : EvidenceMaturity
  claimPurpose : ClaimPurpose
  derivativeOfEvidenceId : Option EvidenceId
  payload : Evidence
  deriving DecidableEq

structure DiffRow where
  id : DiffId
  sourceId : SourceId
  oldSnapshotId : SnapshotId
  newSnapshotId : SnapshotId
  materialCandidate : Bool
  payload : StructuredDiff
  deriving DecidableEq

/-- The two impact columns hold a JSON array of strings, kept here as the list. -/
structure ReviewRow where
  id : ReviewId
  candidateId : DiffId
  priorReviewId : Option ReviewId
  machineClassification : ChangeClassification
  machineRationale : String
  machineDecisionImpactsJson : List String
  evidenceStatusSubtype : Option EvidenceStatusChangeSubtype
  status : ReviewStatus
  reviewer : Option String
  reviewedAt : Option Datetime
  humanClassification : Option ChangeClassification
  confirmedDecisionImpactsJson : List String
  humanRationale : Option String
  methodologyVersion : String
  payload : ChangeReviewItem
  deriving DecidableEq

structure ConfirmedChangeRow where
  id : ChangeId
  reviewId : ReviewId
  confirmedAt : Datetime
  payload : MaterialChange
  deriving DecidableEq

structure FlagRow where
  id : ConflictId
  status : ReviewStatus
  payload : ContradictionFlag
  deriving DecidableEq

structure ResolutionRow where
  id : ResolutionId
  conflictId : String
  reviewedAt : Datetime
  payload : ContradictionResolution
  deriving DecidableEq

inductive EvidenceRelation
  | supports | contradicts
  deriving DecidableEq, Repr

structure AssertionEvidenceRow where
  assertionId : AssertionId
  evidenceId : EvidenceId
  relation : EvidenceRelation
  deriving DecidableEq

structure PacketTables where
  controls : List Control := []
  architecturePatterns : List ArchitecturePattern := []
  models : List ModelEntity := []
  harnesses : List Harness := []
  benchmarks : List Benchmark := []
  sourceProvenance : List ProvenanceEdge := []
  benchmarkResults : List BenchmarkResult := []
  materialChangeExamples : List MaterialChange := []
  deriving DecidableEq

/-- The tables of the ledger, each in rowid order; lifecycle events in the order of their
sequence. A table of records has the fields of its records as columns, and a `payload_json` column
the record that was written to it, which reading it back gives. -/
structure Ledger where
  methodologyVersions : List MethodologyRow := []
  taxonomyVersions : List TaxonomyRow := []
  vendors : List Vendor := []
  systems : List System := []
  agents : List Agent := []
  capabilities : List Capability := []
  sources : List SourceRow := []
  snapshots : List Snapshot := []
  evidence : List EvidenceRow := []
  assertions : List Assertion := []
  assertionEvidence : List AssertionEvidenceRow := []
  observations : List Observation := []
  lifecycleEvents : List LifecycleEvent := []
  autonomyAssessments : List AutonomyAssessment := []
  packet : PacketTables := {}
  structuredDiffs : List DiffRow := []
  changeReviewQueue : List ReviewRow := []
  confirmedChanges : List ConfirmedChangeRow := []
  contradictionFlags : List FlagRow := []
  contradictionResolutions : List ResolutionRow := []
  deriving DecidableEq

/-- A statement that raises is rolled back on its own. -/
inductive LedgerError
  | valueError (message : String)
  | raised (message : String)
  | checkFailed (table : String)
  | uniqueFailed (columns : String)
  | foreignKeyFailed
  deriving DecidableEq, Repr

def ReviewRow.subtypeCheck (row : ReviewRow) : Bool :=
  (row.machineClassification = .evidenceStatusChange && row.evidenceStatusSubtype.isSome) ||
    (row.machineClassification ≠ .evidenceStatusChange && row.evidenceStatusSubtype.isNone)

def ReviewRow.decisionCheck (row : ReviewRow) : Bool :=
  (row.status = .pending && row.reviewer.isNone && row.reviewedAt.isNone &&
      row.humanClassification.isNone && row.humanRationale.isNone && row.priorReviewId.isNone) ||
    (row.status ≠ .pending && row.reviewer.isSome && row.reviewedAt.isSome &&
      row.humanClassification.isSome && row.humanRationale.isSome && row.priorReviewId.isSome)

/-- `COALESCE(evidence_status_subtype, '')`. -/
def coalesce (subtype : Option EvidenceStatusChangeSubtype) : String :=
  (subtype.map EvidenceStatusChangeSubtype.value).getD ""

/-- The rows that the trigger `change_review_queue_preserve_machine_proposal` looks for. -/
def ReviewRow.preservedBy (row prior : ReviewRow) : Bool :=
  some prior.id = row.priorReviewId &&
    prior.candidateId = row.candidateId &&
    prior.machineClassification = row.machineClassification &&
    prior.machineRationale = row.machineRationale &&
    prior.machineDecisionImpactsJson = row.machineDecisionImpactsJson &&
    coalesce prior.evidenceStatusSubtype = coalesce row.evidenceStatusSubtype &&
    prior.methodologyVersion = row.methodologyVersion

theorem coalesce_injective : Function.Injective coalesce := by
  intro a b
  cases a with
  | none => cases b with
    | none => exact fun _ ↦ rfl
    | some b => cases b <;> decide
  | some a => cases b with
    | none => cases a <;> decide
    | some b => cases a <;> cases b <;> decide

/-- The order in which SQLite acts on an insert: the trigger before it, the two
checks, the unique indexes, and the foreign keys when the statement ends. -/
def insertReview (ledger : Ledger) (row : ReviewRow) : Except LedgerError Ledger :=
  let queue := ledger.changeReviewQueue
  if row.priorReviewId.isSome ∧ ¬ queue.any row.preservedBy then
    .error (.raised "machine proposal is immutable across review history")
  else if ¬ row.subtypeCheck ∨ ¬ row.decisionCheck then .error (.checkFailed "change_review_queue")
  else if row.id ∈ queue.map ReviewRow.id then .error (.uniqueFailed "change_review_queue.id")
  else if row.priorReviewId = none ∧
      ∃ r ∈ queue, r.priorReviewId = none ∧ r.candidateId = row.candidateId then
    .error (.uniqueFailed "change_review_queue.candidate_id")
  else if row.priorReviewId ≠ none ∧ ∃ r ∈ queue, r.priorReviewId = row.priorReviewId then
    .error (.uniqueFailed "change_review_queue.prior_review_id")
  else if row.candidateId ∉ ledger.structuredDiffs.map DiffRow.id ∨
      row.methodologyVersion ∉ ledger.methodologyVersions.map MethodologyRow.id then
    .error .foreignKeyFailed
  else .ok { ledger with changeReviewQueue := queue ++ [row] }

end AgenticSecurity.Storage
