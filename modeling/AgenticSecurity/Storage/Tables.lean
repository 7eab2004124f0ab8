import AgenticSecurity.Evidence.Validation
import AgenticSecurity.Library.Sql
import AgenticSecurity.Lifecycle.StateMachine
import AgenticSecurity.Storage.Columns
import AgenticSecurity.Storage.ReadModels

namespace AgenticSecurity.Storage

open Library Models Python

structure MethodologyVersion where
  id : String
  publishedAt : Moment
  description : String
  normalizerVersion : String
  deriving DecidableEq

/-- A taxonomy with the text that `_taxonomy_payload` gives of it. -/
structure TaxonomyMetadata where
  id : String
  publishedAt : Moment
  previousVersion : Option String := none
  payload : String
  deriving DecidableEq

structure AuthoritativeMetadata where
  methodology : MethodologyVersion
  taxonomies : List TaxonomyMetadata
  nonempty : taxonomies ≠ [] := by decide

def AuthoritativeMetadata.currentTaxonomy (metadata : AuthoritativeMetadata) : TaxonomyMetadata :=
  metadata.taxonomies.getLast metadata.nonempty

structure MethodologyColumns where
  id : String
  publishedAt : String
  description : String
  normalizerVersion : String
  deriving DecidableEq

def methodologyColumns (item : MethodologyVersion) : MethodologyColumns where
  id := item.id
  publishedAt := item.publishedAt.isoformat
  description := item.description
  normalizerVersion := item.normalizerVersion

structure TaxonomyColumns where
  id : String
  publishedAt : String
  previousVersion : Option String
  payloadJson : String
  deriving DecidableEq

def taxonomyColumns (item : TaxonomyMetadata) : TaxonomyColumns where
  id := item.id
  publishedAt := item.publishedAt.isoformat
  previousVersion := item.previousVersion
  payloadJson := item.payload

/-- Each table in rowid order. The tables of the reviews, which the loading of a packet leaves
alone, are those of `reviews`. -/
structure Tables where
  methodologyVersions : List MethodologyColumns := []
  taxonomyVersions : List TaxonomyColumns := []
  vendors : List VendorColumns := []
  systems : List SystemColumns := []
  agents : List AgentColumns := []
  capabilities : List TermColumns := []
  controls : List TermColumns := []
  architecturePatterns : List TermColumns := []
  models : List ModelColumns := []
  harnesses : List HarnessColumns := []
  benchmarks : List BenchmarkColumns := []
  sources : List SourceColumns := []
  sourceProvenance : List ProvenanceColumns := []
  snapshots : List SnapshotColumns := []
  evidence : List EvidenceColumns := []
  assertions : List AssertionColumns := []
  assertionEvidence : List LinkColumns := []
  observations : List ObservationColumns := []
  lifecycleEvents : List LifecycleColumns := []
  autonomyAssessments : List AutonomyColumns := []
  benchmarkResults : List BenchmarkResultColumns := []
  materialChangeExamples : List ExampleColumns := []
  reviews : Ledger := {}

/-- `GLOB 'ASI-[0-9]*.[0-9]*'`. -/
def matchesMethodologyGlob (text : String) : Bool :=
  "ASI-".toList.isPrefixOf text.toList &&
    match text.toList.drop 4 with
    | c :: rest => c.isDigit && rest.tails.any fun tail ↦ match tail with
      | '.' :: d :: _ => d.isDigit
      | _ => false
    | [] => false

def methodologyTable : Sql.Table Tables MethodologyColumns where
  name := "methodology_versions"
  rows := Tables.methodologyVersions
  put rows tables := { tables with methodologyVersions := rows }
  check row := matchesMethodologyGlob row.id
  uniques := [("methodology_versions.id", fun row other ↦ row.id = other.id)]

def taxonomyTable : Sql.Table Tables TaxonomyColumns where
  name := "taxonomy_versions"
  rows := Tables.taxonomyVersions
  put rows tables := { tables with taxonomyVersions := rows }
  uniques := [("taxonomy_versions.id", fun row other ↦ row.id = other.id)]
  references row tables := row.previousVersion.all (· ∈ tables.taxonomyVersions.map (·.id))

def vendorTable : Sql.Table Tables VendorColumns where
  name := "vendors"
  rows := Tables.vendors
  put rows tables := { tables with vendors := rows }
  uniques := [("vendors.id", fun row other ↦ row.id = other.id)]

def systemTable : Sql.Table Tables SystemColumns where
  name := "systems"
  rows := Tables.systems
  put rows tables := { tables with systems := rows }
  uniques := [("systems.id", fun row other ↦ row.id = other.id)]
  references row tables := row.vendorId ∈ tables.vendors.map (·.id)

def agentTable : Sql.Table Tables AgentColumns where
  name := "agents"
  rows := Tables.agents
  put rows tables := { tables with agents := rows }
  uniques := [("agents.id", fun row other ↦ row.id = other.id)]
  references row tables := row.systemId ∈ tables.systems.map (·.id)

def Tables.hasTaxonomy (tables : Tables) (row : TermColumns) : Bool :=
  row.taxonomyVersion ∈ tables.taxonomyVersions.map (·.id)

def capabilityTable : Sql.Table Tables TermColumns where
  name := "capabilities"
  rows := Tables.capabilities
  put rows tables := { tables with capabilities := rows }
  uniques := [("capabilities.id", fun row other ↦ row.id = other.id)]
  references row tables := tables.hasTaxonomy row

def controlTable : Sql.Table Tables TermColumns where
  name := "controls"
  rows := Tables.controls
  put rows tables := { tables with controls := rows }
  uniques := [("controls.id", fun row other ↦ row.id = other.id)]
  references row tables := tables.hasTaxonomy row

def architecturePatternTable : Sql.Table Tables TermColumns where
  name := "architecture_patterns"
  rows := Tables.architecturePatterns
  put rows tables := { tables with architecturePatterns := rows }
  uniques := [("architecture_patterns.id", fun row other ↦ row.id = other.id)]
  references row tables := tables.hasTaxonomy row

def modelTable : Sql.Table Tables ModelColumns where
  name := "models"
  rows := Tables.models
  put rows tables := { tables with models := rows }
  uniques := [("models.id", fun row other ↦ row.id = other.id)]

def harnessTable : Sql.Table Tables HarnessColumns where
  name := "harnesses"
  rows := Tables.harnesses
  put rows tables := { tables with harnesses := rows }
  uniques := [("harnesses.id", fun row other ↦ row.id = other.id)]

def benchmarkTable : Sql.Table Tables BenchmarkColumns where
  name := "benchmarks"
  rows := Tables.benchmarks
  put rows tables := { tables with benchmarks := rows }
  uniques := [("benchmarks.id", fun row other ↦ row.id = other.id)]

/-- The check `id LIKE 'SRC-%'` holds of every source identifier; so it is with the checks on
the other identifiers. -/
def sourceTable : Sql.Table Tables SourceColumns where
  name := "sources"
  rows := Tables.sources
  put rows tables := { tables with sources := rows }
  uniques := [("sources.id", fun row other ↦ row.id = other.id)]

def provenanceTable : Sql.Table Tables ProvenanceColumns where
  name := "source_provenance"
  rows := Tables.sourceProvenance
  put rows tables := { tables with sourceProvenance := rows }
  check row := row.sourceId ≠ row.derivativeOfSourceId
  uniques :=
    [("source_provenance.source_id, source_provenance.derivative_of_source_id", fun row other ↦
    row.sourceId = other.sourceId && row.derivativeOfSourceId = other.derivativeOfSourceId)]
  references row tables := row.sourceId ∈ tables.sources.map (·.id) &&
    row.derivativeOfSourceId ∈ tables.sources.map (·.id)

def snapshotTable : Sql.Table Tables SnapshotColumns where
  name := "snapshots"
  rows := Tables.snapshots
  put rows tables := { tables with snapshots := rows }
  uniques := [("snapshots.id", fun row other ↦ row.id = other.id),
    ("snapshots.source_id, snapshots.canonical_uri, snapshots.sha256", fun row other ↦
      row.sourceId = other.sourceId && row.canonicalUri = other.canonicalUri &&
        row.sha256 = other.sha256)]
  references row tables := row.sourceId ∈ tables.sources.map (·.id) &&
    row.duplicateOf.all (· ∈ tables.snapshots.map (·.id))

def evidenceTable : Sql.Table Tables EvidenceColumns where
  name := "evidence"
  rows := Tables.evidence
  put rows tables := { tables with evidence := rows }
  uniques := [("evidence.id", fun row other ↦ row.id = other.id)]
  references row tables := row.sourceId ∈ tables.sources.map (·.id) &&
    row.snapshotId ∈ tables.snapshots.map (·.id) &&
    row.derivativeOfEvidenceId.all (· ∈ tables.evidence.map (·.id))

def assertionTable : Sql.Table Tables AssertionColumns where
  name := "assertions"
  rows := Tables.assertions
  put rows tables := { tables with assertions := rows }
  uniques := [("assertions.id", fun row other ↦ row.id = other.id),
    ("assertions.assertion_key", fun row other ↦ row.assertionKey = other.assertionKey)]
  references row tables := row.taxonomyVersion ∈ tables.taxonomyVersions.map (·.id) &&
    row.systemId ∈ tables.systems.map (·.id) && row.agentId.all (· ∈ tables.agents.map (·.id)) &&
    row.supersededBy.all (· ∈ tables.assertions.map (·.id))

def assertionEvidenceTable : Sql.Table Tables LinkColumns where
  name := "assertion_evidence"
  rows := Tables.assertionEvidence
  put rows tables := { tables with assertionEvidence := rows }
  uniques := [("assertion_evidence.assertion_id, assertion_evidence.evidence_id, assertion_evidence.relation",
    fun row other ↦ row = other)]
  references row tables := row.assertionId ∈ tables.assertions.map (·.id) &&
    row.evidenceId ∈ tables.evidence.map (·.id)

def observationTable : Sql.Table Tables ObservationColumns where
  name := "observations"
  rows := Tables.observations
  put rows tables := { tables with observations := rows }
  uniques := [("observations.id", fun row other ↦ row.id = other.id)]
  references row tables := row.assertionId ∈ tables.assertions.map (·.id) &&
    row.evidenceId ∈ tables.evidence.map (·.id)

def lifecycleTable : Sql.Table Tables LifecycleColumns where
  name := "lifecycle_events"
  rows := Tables.lifecycleEvents
  put rows tables := { tables with lifecycleEvents := rows }
  check row := row.systemId.isNone ≠ row.agentId.isNone
  uniques := [("lifecycle_events.id", fun row other ↦ row.id = other.id)]
  references row tables := row.systemId.all (· ∈ tables.systems.map (·.id)) &&
    row.agentId.all (· ∈ tables.agents.map (·.id)) && row.evidenceId ∈ tables.evidence.map (·.id)

def autonomyTable : Sql.Table Tables AutonomyColumns where
  name := "autonomy_assessments"
  rows := Tables.autonomyAssessments
  put rows tables := { tables with autonomyAssessments := rows }
  uniques := [("autonomy_assessments.id", fun row other ↦ row.id = other.id)]
  references row tables := row.systemId ∈ tables.systems.map (·.id) &&
    row.agentId.all (· ∈ tables.agents.map (·.id))

def benchmarkResultTable : Sql.Table Tables BenchmarkResultColumns where
  name := "benchmark_results"
  rows := Tables.benchmarkResults
  put rows tables := { tables with benchmarkResults := rows }
  uniques := [("benchmark_results.id", fun row other ↦ row.id = other.id)]
  references row tables := row.benchmarkId ∈ tables.benchmarks.map (·.id) &&
    row.modelId ∈ tables.models.map (·.id) && row.harnessId ∈ tables.harnesses.map (·.id) &&
    row.evidenceId ∈ tables.evidence.map (·.id)

def exampleTable : Sql.Table Tables ExampleColumns where
  name := "material_change_examples"
  rows := Tables.materialChangeExamples
  put rows tables := { tables with materialChangeExamples := rows }
  uniques := [("material_change_examples.id", fun row other ↦ row.id = other.id)]

def LedgerError.ofRefusal : Sql.Refusal → LedgerError
  | .check table => .checkFailed table
  | .unique columns => .uniqueFailed columns
  | .foreignKey => .foreignKeyFailed

section Inserts

variable {ρ : Type} (table : Sql.Table Tables ρ)

/-- `connection.execute` of one insert. -/
def execute (tables : Tables) (row : ρ) : Except LedgerError Tables :=
  (table.insert tables row).mapError .ofRefusal

def executemany (tables : Tables) (rows : List ρ) : Except LedgerError Tables :=
  (table.insertMany tables rows).mapError .ofRefusal

variable {table} {tables tables' : Tables}

theorem execute_ok {row : ρ} (h : execute table tables row = .ok tables') :
    tables' = table.put (table.rows tables ++ [row]) tables :=
  Sql.Table.insert_ok (Runs.except_mapError_ok.mp h)

theorem executemany_ok {rows : List ρ} (h : executemany table tables rows = .ok tables') :
    tables' = table.put (table.rows tables ++ rows) tables :=
  Sql.Table.insertMany_ok (Runs.except_mapError_ok.mp h)

end Inserts

end AgenticSecurity.Storage
