import AgenticSecurity.Jobs.Store
import AgenticSecurity.Library.FirstSeen
import AgenticSecurity.Python.Dict
import AgenticSecurity.Storage.Repositories

namespace AgenticSecurity.Collection

open Library Models Python Storage

def normalizerVersion : String := "norm-1.0"

/-- The normalization of a page's text and the SHA-256 of the result. -/
structure ContentFunctions where
  normalize : String → String
  contentSha256 : String → Sha256

/-- What a retrieval found for one source of a run. -/
structure Page where
  source : Source
  snapshotId : SnapshotId
  canonicalUri : String
  contentType : String
  rawText : String
  retrievedAt : Datetime

def buildSnapshot (functions : ContentFunctions) (page : Page) : Snapshot where
  id := page.snapshotId
  sourceId := page.source.id
  canonicalUri := page.canonicalUri
  retrievedAt := page.retrievedAt
  normalizerVersion := normalizerVersion
  sha256 := functions.contentSha256 (functions.normalize page.rawText)
  contentType := page.contentType
  rawContent := page.rawText
  normalizedText := functions.normalize page.rawText
  accepted := rfl

inductive CollectionError
  | live (category : Jobs.FailureCategory) (safeMessage : String)
  | ledger (error : LedgerError)
  deriving DecidableEq, Repr

structure CollectionResult where
  fetchedCount : ℕ
  persistedCount : ℕ
  duplicateCount : ℕ
  sourceIds : List SourceId
  deriving DecidableEq

/-- The ledger and the snapshot directory, whose files are named by snapshot id. -/
structure CollectionState where
  ledger : Ledger := {}
  files : List (SnapshotId × Snapshot) := []
  deriving DecidableEq

def approvedForCollection (source : Source) : Bool :=
  source.enabled && source.status = .approved && source.role = .input &&
    source.trustClass ≠ .self &&
    source.kind = .http && source.baseUrl.isSome

/-- The checks of `_validated_sources` on the configured sources that the registry returned. -/
def validatedSources (maxSourcesPerRun : ℕ) (sources : List Source) :
    Except CollectionError (List Source) :=
  if sources = [] then
    .error (.live .configurationUnavailable "No live collection sources are configured.")
  else if sources.length > maxSourcesPerRun then
    .error (.live .configurationUnavailable
      "Configured live collection sources exceed the run limit.")
  else if ¬ sources.all approvedForCollection then
    .error (.live .configurationUnavailable
      "A configured source is not approved for live HTTP collection.")
  else .ok sources

/-- The loop variables of `_persist`. -/
structure Progress where
  state : CollectionState
  persistedIds : List SnapshotId := []
  duplicateCount : ℕ := 0

/-- The columns of the query `source_id=? AND sha256=?`. -/
def duplicateKey (r : Snapshot) : SourceId × Sha256 := (r.sourceId, r.sha256)

def persistSnapshot (progress : Progress) (snapshot : Snapshot) : Except LedgerError Progress :=
  if duplicateKey snapshot ∈ progress.state.ledger.snapshots.map duplicateKey then
    .ok { progress with duplicateCount := progress.duplicateCount + 1 }
  else
    (progress.state.ledger.addSnapshot snapshot).map fun ledger ↦
      { progress with
        state := { ledger, files := dictSet progress.state.files snapshot.id snapshot }
        persistedIds := progress.persistedIds ++ [snapshot.id] }

def verifyPersisted (state : CollectionState) (snapshotIds : List SnapshotId)
    (sources : List Source) :
    Except CollectionError Unit :=
  if ¬ sources.all fun source ↦
      (state.ledger.sources.find? fun r ↦ r.id = source.id).any fun r ↦ r.payload = source then
    .error (.live .collectionFailed "Governed source persistence could not be verified.")
  else if ¬ snapshotIds.all fun id ↦
      id ∈ state.ledger.snapshots.map (·.id) && id ∈ state.files.map Prod.fst then
    .error (.live .collectionFailed "Collected snapshot persistence could not be verified.")
  else .ok ()

def persist (state : CollectionState) (fetched : List (Source × Snapshot)) :
    Except CollectionError (CollectionState × CollectionResult) := do
  let ledger ← ((fetched.map Prod.fst).foldlM Ledger.syncSource state.ledger).mapError .ledger
  let progress ← ((fetched.map Prod.snd).foldlM persistSnapshot
    { state := { state with ledger } }).mapError .ledger
  verifyPersisted progress.state progress.persistedIds (fetched.map Prod.fst)
  return (progress.state,
    { fetchedCount := fetched.length
      persistedCount := progress.persistedIds.length
      duplicateCount := progress.duplicateCount
      sourceIds := fetched.map (·.1.id) })

def collect (functions : ContentFunctions) (maxSourcesPerRun : ℕ) (state : CollectionState)
    (pages : List Page) : Except CollectionError (CollectionState × CollectionResult) := do
  let _ ← validatedSources maxSourcesPerRun (pages.map Page.source)
  persist state (pages.map fun page ↦ (page.source, buildSnapshot functions page))

end AgenticSecurity.Collection
