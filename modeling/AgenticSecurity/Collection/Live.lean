import AgenticSecurity.Collection.Service
import AgenticSecurity.Jobs.Executor
import AgenticSecurity.Library.Fallible
import AgenticSecurity.Sources.Registry

namespace AgenticSecurity.Collection

open Library Models Sources Jobs Fallible

/-- What a retrieval raises. A `UnicodeDecodeError` is a `ValueError`. -/
inductive RetrievalError
  | permissionError
  | httpError
  | valueError
  | other (error : SystemError)

structure LiveCollection where
  sourceIds : List String
  maxSourcesPerRun : ℕ
  registryFile : Except SystemError SourceRegistry
  retrieve : Source → Except RetrievalError Page

namespace LiveCollection

variable (service : LiveCollection)

def sourceRegistry : Except Jobs.Raised SourceRegistry :=
  service.registryFile.mapError fun
    | .fileNotFoundError | .valueError =>
      .liveCollectionError .configurationUnavailable "The governed source registry is unavailable."
    | .other name => .other name

/-- The turn of `_validated_sources` for one configured id. -/
def validatedSource (registry : SourceRegistry) (sourceId : String) : Except Jobs.Raised Source :=
  match registry.get sourceId with
  | .error _ =>
    .error (.liveCollectionError .configurationUnavailable
      "A configured live collection source is not governed.")
  | .ok source =>
    if ¬ approvedForCollection source then
      .error (.liveCollectionError .configurationUnavailable
        "A configured source is not approved for live HTTP collection.")
    else .ok source

def validatedSources : Except Jobs.Raised (List Source) :=
  if service.sourceIds = [] then
    .error (.liveCollectionError .configurationUnavailable
      "No live collection sources are configured.")
  else if service.sourceIds.length > service.maxSourcesPerRun then
    .error (.liveCollectionError .configurationUnavailable
      "Configured live collection sources exceed the run limit.")
  else do
    let registry ← service.sourceRegistry
    service.sourceIds.mapM (validatedSource registry)

def fetch (source : Source) : Except Jobs.Raised Page :=
  (service.retrieve source).mapError fun
    | .permissionError =>
      .liveCollectionError .collectionFailed
        "Collection was denied by the configured source access policy."
    | .httpError | .valueError =>
      .liveCollectionError .collectionFailed
        "One or more configured sources could not be collected."
    | .other error => error.raised

def persistError : CollectionError → Jobs.Raised
  | .live category safeMessage => .liveCollectionError category safeMessage
  | .ledger _ => .other "sqlite3.Error"

/-- `LiveCollectionService.collect`. -/
def collect (functions : ContentFunctions) (state : CollectionState) :
    Except Jobs.Raised (CollectionState × CollectionResult) := do
  let sources ← service.validatedSources
  let pages ← sources.mapM service.fetch
  (persist state (pages.map fun page ↦ (page.source, buildSnapshot functions page))).mapError
    persistError

def messages : FailureCategory → List String
  | .configurationUnavailable =>
    ["No live collection sources are configured.",
      "Configured live collection sources exceed the run limit.",
      "A configured live collection source is not governed.",
      "A configured source is not approved for live HTTP collection.",
      "The governed source registry is unavailable."]
  | .collectionFailed =>
    ["Collection was denied by the configured source access policy.",
      "One or more configured sources could not be collected.",
      "Governed source persistence could not be verified.",
      "Collected snapshot persistence could not be verified."]
  | _ => []

variable {service}

theorem sourceRegistry_safe {raised : Jobs.Raised} (he : service.sourceRegistry = .error raised) :
    raised.Safe messages := by
  obtain ⟨inner, -, rfl⟩ := mapError_error.mp he
  cases inner with
  | fileNotFoundError | valueError => simp [Jobs.Raised.Safe, messages]
  | other => trivial

theorem validatedSource_safe {registry : SourceRegistry} {sourceId : String} {raised : Jobs.Raised}
    (he : validatedSource registry sourceId = .error raised) : raised.Safe messages := by
  unfold validatedSource at he
  split at he
  · obtain rfl := Except.error.inj he
    simp [Jobs.Raised.Safe, messages]
  · split_ifs at he
    obtain rfl := Except.error.inj he
    simp [Jobs.Raised.Safe, messages]

theorem validatedSources_safe {raised : Jobs.Raised}
    (he : service.validatedSources = .error raised) : raised.Safe messages := by
  unfold validatedSources at he
  split_ifs at he
  · obtain rfl := Except.error.inj he
    simp [Jobs.Raised.Safe, messages]
  · obtain rfl := Except.error.inj he
    simp [Jobs.Raised.Safe, messages]
  · rcases bind_error.mp he with hregistry | ⟨registry, -, hloop⟩
    · exact sourceRegistry_safe hregistry
    · obtain ⟨sourceId, -, hturn⟩ := mapM_error hloop
      exact validatedSource_safe hturn

theorem fetch_safe {source : Source} {raised : Jobs.Raised}
    (he : service.fetch source = .error raised) : raised.Safe messages := by
  obtain ⟨inner, -, rfl⟩ := mapError_error.mp he
  cases inner with
  | permissionError | httpError | valueError => simp [Jobs.Raised.Safe, messages]
  | other error => exact Raised.safe_of_plain error.raised_plain

theorem verifyPersisted_safe {state : CollectionState} {snapshotIds : List SnapshotId}
    {sources : List Source} {error : CollectionError}
    (he : verifyPersisted state snapshotIds sources = .error error) :
    (persistError error).Safe messages := by
  unfold verifyPersisted at he
  split_ifs at he
  all_goals
    obtain rfl := Except.error.inj he
    simp [persistError, Jobs.Raised.Safe, messages]

theorem persist_safe {state : CollectionState} {fetched : List (Source × Snapshot)}
    {error : CollectionError} (he : persist state fetched = .error error) :
    (persistError error).Safe messages := by
  unfold persist at he
  rcases bind_error.mp he with hsync | ⟨ledger, -, he⟩
  · obtain ⟨inner, -, rfl⟩ := mapError_error.mp hsync
    trivial
  · rcases bind_error.mp he with hsave | ⟨progress, -, he⟩
    · obtain ⟨inner, -, rfl⟩ := mapError_error.mp hsave
      trivial
    · rcases bind_error.mp he with hverify | ⟨_, -, hpure⟩
      · exact verifyPersisted_safe hverify
      · cases hpure

theorem collect_safe {functions : ContentFunctions} {state : CollectionState}
    {raised : Jobs.Raised} (he : service.collect functions state = .error raised) :
    raised.Safe messages := by
  unfold collect at he
  rcases bind_error.mp he with hsources | ⟨sources, -, he⟩
  · exact validatedSources_safe hsources
  · rcases bind_error.mp he with hpages | ⟨pages, -, he⟩
    · obtain ⟨source, -, hturn⟩ := mapM_error hpages
      exact fetch_safe hturn
    · obtain ⟨error, herror, rfl⟩ := mapError_error.mp he
      exact persist_safe herror

end LiveCollection

end AgenticSecurity.Collection
