import AgenticSecurity.Storage.Tables

namespace AgenticSecurity.Storage

open Library Models Python

variable (unicode : UnicodeData) (forms : TextForms) (contentSha256 : String → Sha256)

def Tables.applyTaxonomy (insertMissing : Bool) (tables : Tables) (taxonomy : TaxonomyMetadata) :
    Except LedgerError Tables :=
  match tables.taxonomyVersions.find? fun row ↦ row.id = taxonomy.id with
  | none =>
    if ¬ insertMissing then
      .error (.valueError ("ledger is missing authoritative taxonomy " ++ taxonomy.id))
    else execute taxonomyTable tables (taxonomyColumns taxonomy)
  | some row =>
    if row ≠ taxonomyColumns taxonomy then
      .error (.valueError ("ledger taxonomy metadata drift detected for " ++ taxonomy.id))
    else .ok tables

def Tables.applyMethodology (insertMissing : Bool) (tables : Tables)
    (methodology : MethodologyVersion) :
    Except LedgerError Tables :=
  if ∃ row ∈ tables.methodologyVersions, row.id ≠ methodology.id then
    .error (.valueError "ledger contains unexpected methodology metadata")
  else
    match tables.methodologyVersions.find? fun row ↦ row.id = methodology.id with
    | none =>
      if ¬ insertMissing then
        .error (.valueError ("ledger is missing authoritative methodology " ++ methodology.id))
      else execute methodologyTable tables (methodologyColumns methodology)
    | some row =>
      if row ≠ methodologyColumns methodology then
        .error (.valueError ("ledger methodology metadata drift detected for " ++ methodology.id))
      else .ok tables

/-- `sorted` of a set of texts, in a message. -/
def reprTexts (texts : List String) : String :=
  "[" ++ ", ".intercalate ((orderBy (fun text ↦ [text]) texts.eraseDups).map
    (reprString unicode)) ++ "]"

def Tables.applyAuthoritativeMetadata (metadata : AuthoritativeMetadata) (insertMissing : Bool)
    (tables : Tables) :
    Except LedgerError Tables := do
  let unexpected := (tables.taxonomyVersions.map (·.id)).filter (· ∉ metadata.taxonomies.map (·.id))
  if unexpected ≠ [] then
    .error (.valueError ("ledger contains unexpected taxonomy metadata: " ++
      reprTexts unicode unexpected))
  else
    let tables ← metadata.taxonomies.foldlM (Tables.applyTaxonomy insertMissing) tables
    tables.applyMethodology insertMissing metadata.methodology

def Tables.addSource (tables : Tables) (source : Source) : Except LedgerError Tables :=
  execute sourceTable tables (sourceColumns forms source)

def Tables.addSnapshot (tables : Tables) (snapshot : Snapshot) : Except LedgerError Tables :=
  execute snapshotTable tables (snapshotColumns snapshot)

def Tables.addEvidence (tables : Tables) (evidence : Evidence) : Except LedgerError Tables :=
  match tables.sources.find? fun row ↦ row.id = evidence.sourceId.text with
  | none => .error (.valueError ("unknown source: " ++ evidence.sourceId.text))
  | some sourceRow =>
    match tables.snapshots.find? fun row ↦ row.id = evidence.anchor.snapshotId.text with
    | none => .error (.valueError ("unknown snapshot: " ++ evidence.anchor.snapshotId.text))
    | some snapshotRow => do
      let snapshot ← validated (snapshotRow.snapshot unicode forms)
      if evidence.sourceId ≠ snapshot.sourceId then
        .error (.valueError "evidence source_id must match snapshot source_id")
      else
        (Evidence.validateEvidenceAnchor contentSha256 evidence snapshot).mapError .valueError
        (Evidence.validateEvidenceClassification evidence).mapError .valueError
        let source ← validated (forms.source.parse sourceRow.payloadJson)
        (Evidence.validateEvidencePurpose evidence source).mapError .valueError
        execute evidenceTable tables (evidenceColumns forms evidence)

def Tables.addAssertion (tables : Tables) (assertion : Assertion) : Except LedgerError Tables := do
  let tables ← execute assertionTable tables (assertionColumns forms assertion)
  executemany assertionEvidenceTable tables (linkColumns assertion)

def Tables.addObservation (tables : Tables) (observation : Observation) :
    Except LedgerError Tables :=
  execute observationTable tables (observationColumns forms observation)

def Tables.history (tables : Tables) (entity : String × String) :
    Except LedgerError (List LifecycleEvent) :=
  Sql.readAll (fun row ↦ validated (LifecycleColumns.event forms row))
    (tables.lifecycleEvents.filter fun row ↦
      (if entity.1 = "system" then row.systemId else row.agentId) = some entity.2)

def Tables.appendLifecycle (tables : Tables) (event : LifecycleEvent) :
    Except LedgerError Tables := do
  let history ← tables.history forms (Lifecycle.entity event)
  (Lifecycle.validateTransition history event).mapError .valueError
  execute lifecycleTable tables (lifecycleColumns forms event)

/-- `GateAPacketRepository.load`. -/
def Tables.load (metadata : AuthoritativeMetadata) (tables : Tables)
    (packet : GateAPacket unicode) :
    Except LedgerError Tables := do
  if packet.methodologyVersion ≠ metadata.methodology.id ∨
      packet.taxonomyVersion ≠ metadata.currentTaxonomy.id then
    .error (.valueError "fixture packet version does not match authoritative metadata")
  else
    let tables ← tables.applyAuthoritativeMetadata unicode metadata true
    let tables ← executemany vendorTable tables (packet.vendors.map vendorColumns)
    let tables ← executemany systemTable tables (packet.systems.map systemColumns)
    let tables ← executemany agentTable tables (packet.agents.map agentColumns)
    let tables ← executemany capabilityTable tables (packet.capabilities.map capabilityColumns)
    let tables ← executemany controlTable tables (packet.controls.map controlColumns)
    let tables ← executemany architecturePatternTable tables
      (packet.architecturePatterns.map architecturePatternColumns)
    let tables ← executemany modelTable tables (packet.models.map modelColumns)
    let tables ← executemany harnessTable tables (packet.harnesses.map harnessColumns)
    let tables ← executemany benchmarkTable tables (packet.benchmarks.map benchmarkColumns)
    let tables ← packet.sources.foldlM (Tables.addSource forms) tables
    let tables ← executemany provenanceTable tables (packet.provenanceEdges.map provenanceColumns)
    let tables ← packet.snapshots.foldlM Tables.addSnapshot tables
    let tables ← packet.evidence.foldlM (Tables.addEvidence unicode forms contentSha256) tables
    let tables ← packet.assertions.foldlM (Tables.addAssertion forms) tables
    let tables ← packet.observations.foldlM (Tables.addObservation forms) tables
    let tables ← packet.lifecycleEvents.foldlM (Tables.appendLifecycle forms) tables
    let tables ← executemany autonomyTable tables
      (packet.autonomyAssessments.map (autonomyColumns forms))
    let tables ← executemany benchmarkResultTable tables
      (packet.benchmarkResults.map (benchmarkResultColumns forms))
    executemany exampleTable tables (packet.materialChanges.map (exampleColumns forms))

/-- All that the publication reads. -/
structure LedgerData extends PublicationLedgerData where
  controls : List Control := []
  architecturePatterns : List ArchitecturePattern := []
  deriving DecidableEq

variable {unicode} in
/-- `PublicationLedgerData.from_packet`. -/
def LedgerData.fromPacket (metadata : AuthoritativeMetadata) (packet : GateAPacket unicode)
    (conflicts : List ContradictionFlag) (candidates : List StructuredDiff)
    (latestReviewDecisions : List ChangeReviewItem) : LedgerData where
  taxonomyVersion := packet.taxonomyVersion
  methodologyVersion := packet.methodologyVersion
  methodologyPublishedAt := metadata.methodology.publishedAt.datetime
  vendors := packet.vendors
  systems := packet.systems
  agents := packet.agents
  capabilities := packet.capabilities
  controls := packet.controls
  architecturePatterns := packet.architecturePatterns
  sources := packet.sources
  evidence := packet.evidence
  assertions := packet.assertions
  observations := packet.observations.filter (·.accepted)
  lifecycleEvents := packet.lifecycleEvents
  autonomyAssessments := packet.autonomyAssessments
  candidates := candidates
  confirmedChanges := packet.materialChanges
  changeReviews := []
  conflicts := conflicts
  latestReviewDecisions := latestReviewDecisions

section Reads

variable {ρ α : Type}

/-- The records of some rows, by `ORDER BY` columns that no two rows share. -/
def readOrdered (columns : ρ → List String) (read : ρ → Option α) (rows : List ρ) :
    Except LedgerError (List α) :=
  Sql.readAll (fun row ↦ validated (read row)) (orderBy columns rows)

/-- `_payloads`. -/
def payloads (payload : ρ → String) (form : JsonForm α) (rows : List ρ) :
    Except LedgerError (List α) :=
  Sql.readAll (fun row ↦ validated (form.parse (payload row))) rows

end Reads

def Tables.acceptedObservations (tables : Tables) : Except LedgerError (List Observation) :=
  readOrdered (fun row ↦ [row.observedAt, row.id]) (ObservationColumns.observation forms)
    (tables.observations.filter (·.accepted = 1))

def Tables.lifecycle (tables : Tables) : Except LedgerError (List LifecycleEvent) :=
  Sql.readAll (fun row ↦ validated (LifecycleColumns.event forms row)) tables.lifecycleEvents

def Tables.taxonomyVersion (tables : Tables) : Except LedgerError String :=
  match (orderBy (fun row ↦ [row.publishedAt, row.id]) tables.taxonomyVersions).getLast? with
  | none => .error (.valueError "ledger has no taxonomy version")
  | some row => .ok row.id

def Tables.methodologyVersion (tables : Tables) : Except LedgerError String :=
  match (orderBy (fun row ↦ [row.publishedAt, row.id]) tables.methodologyVersions).getLast? with
  | none => .error (.valueError "ledger has no methodology version")
  | some row => .ok row.id

def Tables.publicationData (metadata : AuthoritativeMetadata) (tables : Tables) :
    Except LedgerError LedgerData := do
  let _ ← tables.applyAuthoritativeMetadata unicode metadata false
  let systems ← readOrdered (fun row ↦ [row.id]) (SystemColumns.system forms) tables.systems
  let taxonomyVersion ← tables.taxonomyVersion
  let methodologyVersion ← tables.methodologyVersion
  let vendors ← readOrdered (fun row ↦ [row.id]) (VendorColumns.vendor forms) tables.vendors
  let agents ← readOrdered (fun row ↦ [row.id]) (AgentColumns.agent unicode forms) tables.agents
  let capabilities ← readOrdered (fun row ↦ [row.id]) (TermColumns.capability unicode)
    tables.capabilities
  let controls ← readOrdered (fun row ↦ [row.id]) (TermColumns.control unicode) tables.controls
  let architecturePatterns ← readOrdered (fun row ↦ [row.id])
    (TermColumns.architecturePattern unicode)
    tables.architecturePatterns
  let sources ← payloads (·.payloadJson) forms.source tables.sources
  let evidence ← payloads (·.payloadJson) forms.evidence tables.evidence
  let assertions ← payloads (·.payloadJson) forms.assertion tables.assertions
  let observations ← tables.acceptedObservations forms
  let lifecycleEvents ← tables.lifecycle forms
  let autonomyAssessments ← payloads (·.payloadJson) forms.autonomyAssessment
    tables.autonomyAssessments
  return {
    taxonomyVersion
    methodologyVersion
    methodologyPublishedAt := metadata.methodology.publishedAt.datetime
    vendors
    systems
    agents
    capabilities
    controls
    architecturePatterns
    sources
    evidence
    assertions
    observations
    lifecycleEvents
    autonomyAssessments
    candidates := tables.reviews.candidates
    confirmedChanges := tables.reviews.confirmedChangePayloads
    changeReviews := tables.reviews.confirmedChangeReviews
    conflicts := tables.reviews.conflicts
    latestReviewDecisions := tables.reviews.latestReviews }

end AgenticSecurity.Storage
