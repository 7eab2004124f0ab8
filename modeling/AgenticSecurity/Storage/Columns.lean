import AgenticSecurity.Packets
import AgenticSecurity.Storage.Schema

namespace AgenticSecurity.Storage

open Models Python

/-- `model_dump_json` of a model and `model_validate_json`, or `model_validate` after
`json.loads`. -/
structure JsonForm (α : Type) where
  dump : α → String
  parse : String → Option α

/-- The text forms of values that pydantic and the standard library define. A URL is kept as its
text. -/
structure TextForms where
  parseDatetime : String → Option Datetime
  parseMoment : String → Option Moment
  parseUrl : String → Option String
  source : JsonForm Source
  evidence : JsonForm Evidence
  assertion : JsonForm Assertion
  scope : JsonForm AssertionScope
  modifiers : JsonForm LifecycleModifiers
  autonomyAssessment : JsonForm AutonomyAssessment
  benchmarkResult : JsonForm BenchmarkResult
  materialChange : JsonForm MaterialChange

/-- The text of a `ValidationError`, which is a `ValueError`, is left out. -/
def validated {α : Type} : Option α → Except LedgerError α
  | none => .error (.valueError "validation error")
  | some value => .ok value

variable (unicode : UnicodeData) (forms : TextForms)

def nullable {α : Type} (read : String → Option α) : Option String → Option (Option α)
  | none => some none
  | some text => (read text).map some

@[simp] theorem nullable_map {α : Type} {read : String → Option α} {write : α → String}
    {value : Option α} (h : ∀ a ∈ value, read (write a) = some a) :
    nullable read (value.map write) = some value := by
  cases value with
  | none => rfl
  | some a => rw [Option.map_some, nullable, h a rfl, Option.map_some]

structure VendorColumns where
  id : String
  name : String
  website : String
  deriving DecidableEq

def vendorColumns (item : Vendor) : VendorColumns where
  id := item.id
  name := item.name
  website := item.website

def VendorColumns.vendor (row : VendorColumns) : Option Vendor := do
  let website ← forms.parseUrl row.website
  return { id := row.id, name := row.name, website }

structure SystemColumns where
  id : String
  vendorId : String
  name : String
  category : String
  description : String
  firstObservedAt : String
  lastVerifiedAt : String
  deriving DecidableEq

def systemColumns (item : System) : SystemColumns where
  id := item.id
  vendorId := item.vendorId
  name := item.name
  category := item.category
  description := item.description
  firstObservedAt := item.firstObservedAt.isoformat
  lastVerifiedAt := item.lastVerifiedAt.isoformat

def SystemColumns.system (row : SystemColumns) : Option System := do
  let firstObservedAt ← forms.parseDatetime row.firstObservedAt
  let lastVerifiedAt ← forms.parseDatetime row.lastVerifiedAt
  return {
    id := row.id
    vendorId := row.vendorId
    name := row.name
    category := row.category
    description := row.description
    firstObservedAt
    lastVerifiedAt }

structure AgentColumns where
  id : String
  systemId : String
  name : String
  category : String
  description : String
  firstObservedAt : String
  lastVerifiedAt : String
  deriving DecidableEq

def agentColumns (item : Agent) : AgentColumns where
  id := item.id
  systemId := item.systemId
  name := item.name
  category := item.category
  description := item.description
  firstObservedAt := item.firstObservedAt.isoformat
  lastVerifiedAt := item.lastVerifiedAt.isoformat

def AgentColumns.agent (row : AgentColumns) : Option Agent := do
  let firstObservedAt ← forms.parseDatetime row.firstObservedAt
  let lastVerifiedAt ← forms.parseDatetime row.lastVerifiedAt
  let agent : Agent := {
    id := row.id
    systemId := row.systemId
    name := row.name
    category := row.category
    description := row.description
    firstObservedAt
    lastVerifiedAt }
  if agent.reserveSystemSentinel unicode = none then some agent else none

/-- The columns of `capabilities`, `controls` and `architecture_patterns`. -/
structure TermColumns where
  id : String
  name : String
  description : String
  taxonomyVersion : String
  deriving DecidableEq

def capabilityColumns (item : Capability) : TermColumns where
  id := item.id
  name := item.name
  description := item.description
  taxonomyVersion := item.taxonomyVersion

def controlColumns (item : Control) : TermColumns where
  id := item.id
  name := item.name
  description := item.description
  taxonomyVersion := item.taxonomyVersion

def architecturePatternColumns (item : ArchitecturePattern) : TermColumns where
  id := item.id
  name := item.name
  description := item.description
  taxonomyVersion := item.taxonomyVersion

def TermColumns.capability (row : TermColumns) : Option Capability :=
  if isTaxonomyId unicode row.taxonomyVersion then
    some
      { id := row.id, name := row.name, description := row.description,
        taxonomyVersion := row.taxonomyVersion }
  else none

def TermColumns.control (row : TermColumns) : Option Control :=
  if isTaxonomyId unicode row.taxonomyVersion then
    some
      { id := row.id, name := row.name, description := row.description,
        taxonomyVersion := row.taxonomyVersion }
  else none

def TermColumns.architecturePattern (row : TermColumns) : Option ArchitecturePattern :=
  if isTaxonomyId unicode row.taxonomyVersion then
    some
      { id := row.id, name := row.name, description := row.description,
        taxonomyVersion := row.taxonomyVersion }
  else none

structure ModelColumns where
  id : String
  provider : String
  name : String
  version : Option String
  deriving DecidableEq

def modelColumns (item : ModelEntity) : ModelColumns where
  id := item.id
  provider := item.provider
  name := item.name
  version := item.version

structure HarnessColumns where
  id : String
  name : String
  version : Option String
  repositoryUrl : Option String
  deriving DecidableEq

def harnessColumns (item : Harness) : HarnessColumns where
  id := item.id
  name := item.name
  version := item.version
  repositoryUrl := item.repositoryUrl

structure BenchmarkColumns where
  id : String
  name : String
  version : String
  taskDefinition : String
  successCriterion : String
  deriving DecidableEq

def benchmarkColumns (item : Benchmark) : BenchmarkColumns where
  id := item.id
  name := item.name
  version := item.version
  taskDefinition := item.taskDefinition
  successCriterion := item.successCriterion

structure SourceColumns where
  id : String
  publisher : String
  name : String
  kind : String
  trustClass : String
  status : String
  enabled : ℕ
  payloadJson : String
  deriving DecidableEq

def sourceColumns (source : Source) : SourceColumns where
  id := source.id.text
  publisher := source.publisher
  name := source.name
  kind := source.kind.value
  trustClass := source.trustClass.value
  status := source.status.value
  enabled := source.enabled.toNat
  payloadJson := forms.source.dump source

structure ProvenanceColumns where
  sourceId : String
  derivativeOfSourceId : String
  rationale : String
  deriving DecidableEq

def provenanceColumns (item : ProvenanceEdge) : ProvenanceColumns where
  sourceId := item.sourceId.text
  derivativeOfSourceId := item.derivativeOfSourceId.text
  rationale := item.rationale

structure SnapshotColumns where
  id : String
  sourceId : String
  canonicalUri : String
  retrievedAt : String
  normalizerVersion : String
  sha256 : String
  contentType : String
  rawContent : String
  normalizedText : String
  duplicateOf : Option String
  repository : Option String
  commitSha : Option String
  filePath : Option String
  deriving DecidableEq

def snapshotColumns (snapshot : Snapshot) : SnapshotColumns where
  id := snapshot.id.text
  sourceId := snapshot.sourceId.text
  canonicalUri := snapshot.canonicalUri
  retrievedAt := snapshot.retrievedAt.isoformat
  normalizerVersion := snapshot.normalizerVersion
  sha256 := snapshot.sha256.text
  contentType := snapshot.contentType
  rawContent := snapshot.rawContent
  normalizedText := snapshot.normalizedText
  duplicateOf := snapshot.duplicateOf.map Id.text
  repository := snapshot.repository
  commitSha := snapshot.commitSha
  filePath := snapshot.filePath

def SnapshotColumns.snapshot (row : SnapshotColumns) : Option Snapshot := do
  let id ← Id.ofText "SNAP-" row.id
  let sourceId ← Id.ofText "SRC-" row.sourceId
  let retrievedAt ← forms.parseDatetime row.retrievedAt
  let sha256 ← Sha256.ofText row.sha256
  let duplicateOf ← nullable (Id.ofText "SNAP-") row.duplicateOf
  let fields : SnapshotFields := {
    id
    sourceId
    canonicalUri := row.canonicalUri
    retrievedAt
    normalizerVersion := row.normalizerVersion
    sha256
    contentType := row.contentType
    rawContent := row.rawContent
    normalizedText := row.normalizedText
    duplicateOf
    repository := row.repository
    commitSha := row.commitSha
    filePath := row.filePath }
  if isNormalizerVersion unicode row.normalizerVersion ∧ row.commitSha.all isCommitSha then
    if h : fields.gitFieldsAreComplete = none then some { fields with accepted := h } else none
  else none

structure EvidenceColumns where
  id : String
  sourceId : String
  snapshotId : String
  sourceClass : String
  maturity : String
  claimPurpose : String
  derivativeOfEvidenceId : Option String
  payloadJson : String
  deriving DecidableEq

def evidenceColumns (evidence : Evidence) : EvidenceColumns where
  id := evidence.id.text
  sourceId := evidence.sourceId.text
  snapshotId := evidence.anchor.snapshotId.text
  sourceClass := evidence.sourceClass.value
  maturity := evidence.maturity.value
  claimPurpose := evidence.claimPurpose.value
  derivativeOfEvidenceId := evidence.derivativeOfEvidenceId.map Id.text
  payloadJson := forms.evidence.dump evidence

structure AssertionColumns where
  id : String
  assertionKey : String
  taxonomyVersion : String
  systemId : String
  agentId : Option String
  state : String
  statement : String
  publishedAt : Option String
  modifiedAt : Option String
  firstSeenAt : String
  retrievedAt : String
  lastSeenAt : String
  lastVerifiedAt : String
  effectiveAt : Option String
  supersededBy : Option String
  payloadJson : String
  deriving DecidableEq

def assertionColumns (assertion : Assertion) : AssertionColumns where
  id := assertion.id.text
  assertionKey := assertion.assertionKey
  taxonomyVersion := assertion.taxonomyVersion
  systemId := assertion.systemId
  agentId := assertion.agentId
  state := assertion.state.value
  statement := assertion.statement
  publishedAt := assertion.publishedAt.map Datetime.isoformat
  modifiedAt := assertion.modifiedAt.map Datetime.isoformat
  firstSeenAt := assertion.firstSeenAt.isoformat
  retrievedAt := assertion.retrievedAt.isoformat
  lastSeenAt := assertion.lastSeenAt.isoformat
  lastVerifiedAt := assertion.lastVerifiedAt.isoformat
  effectiveAt := assertion.effectiveAt.map Datetime.isoformat
  supersededBy := assertion.supersededBy.map Id.text
  payloadJson := forms.assertion.dump assertion

structure LinkColumns where
  assertionId : String
  evidenceId : String
  relation : String
  deriving DecidableEq

def linkColumns (assertion : Assertion) : List LinkColumns :=
  (assertion.evidenceIds.map fun id ↦ ⟨assertion.id.text, id.text, "SUPPORTS"⟩) ++
    assertion.contradictingEvidenceIds.map fun id ↦ ⟨assertion.id.text, id.text, "CONTRADICTS"⟩

structure ObservationColumns where
  id : String
  assertionId : String
  evidenceId : String
  observedStatement : String
  observedAt : String
  publishedAt : Option String
  modifiedAt : Option String
  firstSeenAt : String
  retrievedAt : String
  lastSeenAt : String
  lastVerifiedAt : String
  effectiveAt : Option String
  isParaphrase : ℕ
  accepted : ℕ
  scopeJson : String
  deriving DecidableEq

def observationColumns (observation : Observation) : ObservationColumns where
  id := observation.id.text
  assertionId := observation.assertionId.text
  evidenceId := observation.evidenceId.text
  observedStatement := observation.observedStatement
  observedAt := observation.observedAt.isoformat
  publishedAt := observation.publishedAt.map Datetime.isoformat
  modifiedAt := observation.modifiedAt.map Datetime.isoformat
  firstSeenAt := observation.firstSeenAt.isoformat
  retrievedAt := observation.retrievedAt.isoformat
  lastSeenAt := observation.lastSeenAt.isoformat
  lastVerifiedAt := observation.lastVerifiedAt.isoformat
  effectiveAt := observation.effectiveAt.map Datetime.isoformat
  isParaphrase := observation.isParaphrase.toNat
  accepted := observation.accepted.toNat
  scopeJson := forms.scope.dump observation.scope

/-- `bool` of an integer column is whether it is not zero. -/
def ObservationColumns.observation (row : ObservationColumns) : Option Observation := do
  let id ← Id.ofText "OBS-" row.id
  let assertionId ← Id.ofText "ASRT-" row.assertionId
  let evidenceId ← Id.ofText "EV-" row.evidenceId
  let observedAt ← forms.parseDatetime row.observedAt
  let publishedAt ← nullable forms.parseDatetime row.publishedAt
  let modifiedAt ← nullable forms.parseDatetime row.modifiedAt
  let firstSeenAt ← forms.parseDatetime row.firstSeenAt
  let retrievedAt ← forms.parseDatetime row.retrievedAt
  let lastSeenAt ← forms.parseDatetime row.lastSeenAt
  let lastVerifiedAt ← forms.parseDatetime row.lastVerifiedAt
  let effectiveAt ← nullable forms.parseDatetime row.effectiveAt
  let scope ← forms.scope.parse row.scopeJson
  return {
    id
    assertionId
    evidenceId
    observedStatement := row.observedStatement
    observedAt
    publishedAt
    modifiedAt
    firstSeenAt
    retrievedAt
    lastSeenAt
    lastVerifiedAt
    effectiveAt
    isParaphrase := row.isParaphrase ≠ 0
    accepted := row.accepted ≠ 0
    scope }

structure LifecycleColumns where
  id : String
  systemId : Option String
  agentId : Option String
  state : String
  modifiersJson : String
  effectiveAt : Option String
  evidenceId : String
  sourceClass : String
  retrievedAt : String
  rationale : String
  deriving DecidableEq

def lifecycleColumns (event : LifecycleEvent) : LifecycleColumns where
  id := event.id.text
  systemId := event.systemId
  agentId := event.agentId
  state := event.state.value
  modifiersJson := forms.modifiers.dump event.modifiers
  effectiveAt := event.effectiveAt.map Moment.isoformat
  evidenceId := event.evidenceId.text
  sourceClass := event.sourceClass.value
  retrievedAt := event.retrievedAt.isoformat
  rationale := event.rationale

def LifecycleColumns.event (row : LifecycleColumns) : Option LifecycleEvent := do
  let id ← Id.ofText "LIFE-" row.id
  let state ← AvailabilityState.ofValue row.state
  let modifiers ← forms.modifiers.parse row.modifiersJson
  let effectiveAt ← nullable forms.parseMoment row.effectiveAt
  let evidenceId ← Id.ofText "EV-" row.evidenceId
  let sourceClass ← SourceClass.ofValue row.sourceClass
  let retrievedAt ← forms.parseDatetime row.retrievedAt
  let fields : LifecycleFields := {
    id
    systemId := row.systemId
    agentId := row.agentId
    state
    modifiers
    effectiveAt
    evidenceId
    sourceClass
    retrievedAt
    rationale := row.rationale }
  if h : fields.exactlyOneEntity = none then some { fields with accepted := h } else none

structure AutonomyColumns where
  id : String
  systemId : String
  agentId : Option String
  payloadJson : String
  deriving DecidableEq

def autonomyColumns (item : AutonomyAssessment) : AutonomyColumns where
  id := item.id
  systemId := item.systemId
  agentId := item.agentId
  payloadJson := forms.autonomyAssessment.dump item

structure BenchmarkResultColumns where
  id : String
  benchmarkId : String
  modelId : String
  harnessId : String
  evidenceId : String
  payloadJson : String
  deriving DecidableEq

def benchmarkResultColumns (item : BenchmarkResult) : BenchmarkResultColumns where
  id := item.id
  benchmarkId := item.benchmarkId
  modelId := item.modelId
  harnessId := item.harnessId
  evidenceId := item.evidenceId.text
  payloadJson := forms.benchmarkResult.dump item

structure ExampleColumns where
  id : String
  payloadJson : String
  deriving DecidableEq

def exampleColumns (item : MaterialChange) : ExampleColumns where
  id := item.id.text
  payloadJson := forms.materialChange.dump item

def systemTimes (item : System) : List Datetime := [item.firstObservedAt, item.lastVerifiedAt]

def agentTimes (item : Agent) : List Datetime := [item.firstObservedAt, item.lastVerifiedAt]

def observationTimes (item : Observation) : List Datetime :=
  [item.observedAt, item.firstSeenAt, item.retrievedAt, item.lastSeenAt, item.lastVerifiedAt] ++
    item.publishedAt.toList ++ item.modifiedAt.toList ++ item.effectiveAt.toList

def lifecycleTimes (item : LifecycleEvent) : List Datetime := [item.retrievedAt]

def TextForms.ReadsTimes (forms : TextForms) (times : List Datetime) : Prop :=
  ∀ t ∈ times, forms.parseDatetime t.isoformat = some t

variable {unicode : UnicodeData} {forms : TextForms}

theorem vendor_readBack {item : Vendor} (h : forms.parseUrl item.website = some item.website) :
    (vendorColumns item).vendor forms = some item := by
  simp [VendorColumns.vendor, vendorColumns, h]

theorem system_readBack {item : System} (h : forms.ReadsTimes (systemTimes item)) :
    (systemColumns item).system forms = some item := by
  simp only [TextForms.ReadsTimes, systemTimes, List.forall_mem_cons] at h
  simp [SystemColumns.system, systemColumns, h]

theorem agent_readBack {item : Agent} (h : forms.ReadsTimes (agentTimes item))
    (hname : item.reserveSystemSentinel unicode = none) :
    (agentColumns item).agent unicode forms = some item := by
  simp only [TextForms.ReadsTimes, agentTimes, List.forall_mem_cons] at h
  simp [AgentColumns.agent, agentColumns, h, hname]

theorem capability_readBack {item : Capability}
    (h : isTaxonomyId unicode item.taxonomyVersion = true) :
    (capabilityColumns item).capability unicode = some item := by
  simp [TermColumns.capability, capabilityColumns, h]

theorem control_readBack {item : Control} (h : isTaxonomyId unicode item.taxonomyVersion = true) :
    (controlColumns item).control unicode = some item := by
  simp [TermColumns.control, controlColumns, h]

theorem architecturePattern_readBack {item : ArchitecturePattern}
    (h : isTaxonomyId unicode item.taxonomyVersion = true) :
    (architecturePatternColumns item).architecturePattern unicode = some item := by
  simp [TermColumns.architecturePattern, architecturePatternColumns, h]

theorem observation_readBack {item : Observation} (h : forms.ReadsTimes (observationTimes item))
    (hscope : forms.scope.parse (forms.scope.dump item.scope) = some item.scope) :
    (observationColumns forms item).observation forms = some item := by
  simp only [TextForms.ReadsTimes, observationTimes, List.forall_mem_append, List.forall_mem_cons,
    Option.mem_toList] at h
  obtain ⟨⟨⟨⟨hobserved, hfirst, hretrieved, hlast, hverified, -⟩, hpublished⟩, hmodified⟩,
      heffective⟩ := h
  simp [ObservationColumns.observation, observationColumns, hobserved, hfirst, hretrieved, hlast,
    hverified, hscope, nullable_map hpublished, nullable_map hmodified, nullable_map heffective]

theorem lifecycle_readBack {item : LifecycleEvent} (h : forms.ReadsTimes (lifecycleTimes item))
    (heffective : ∀ t ∈ item.effectiveAt, forms.parseMoment t.isoformat = some t)
    (hmodifiers : forms.modifiers.parse (forms.modifiers.dump item.modifiers) =
      some item.modifiers) :
    (lifecycleColumns forms item).event forms = some item := by
  simp only [TextForms.ReadsTimes, lifecycleTimes, List.forall_mem_cons] at h
  obtain ⟨hretrieved, -⟩ := h
  have haccepted := item.accepted
  simp only [LifecycleColumns.event, lifecycleColumns, Id.ofText_text,
    AvailabilityState.ofValue_value, SourceClass.ofValue_value, hretrieved, hmodifiers,
    nullable_map heffective]
  exact dif_pos haccepted

end AgenticSecurity.Storage
