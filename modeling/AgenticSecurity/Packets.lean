import AgenticSecurity.Models
import AgenticSecurity.Python.Text

namespace AgenticSecurity.Models

open Python

def isDecimal (unicode : UnicodeData) (c : Char) : Bool := (unicode.decimal c).isSome

/-- `^<kind>\d+\.\d+$`. -/
def isVersion (unicode : UnicodeData) (kind text : String) : Bool :=
  let version := text.toList.drop kind.length
  kind.toList.isPrefixOf text.toList && version.takeWhile (isDecimal unicode) ≠ [] &&
    match version.dropWhile (isDecimal unicode) with
    | '.' :: minor => minor ≠ [] && minor.all (isDecimal unicode)
    | _ => false

def isTaxonomyId (unicode : UnicodeData) (text : String) : Bool :=
  isVersion unicode "ASI-TAXONOMY-" text

def isMethodologyId (unicode : UnicodeData) (text : String) : Bool := isVersion unicode "ASI-" text

def isNormalizerVersion (unicode : UnicodeData) (text : String) : Bool :=
  isVersion unicode "norm-" text

/-- `^[a-f0-9]{40}$`. -/
def isCommitSha (text : String) : Bool :=
  text.length = 40 && text.toList.all fun c ↦ c.isDigit || ('a' ≤ c && c ≤ 'f')

def Agent.reserveSystemSentinel (unicode : UnicodeData) (self : Agent) : Option String :=
  if self.id = "_system" ∨ unicode.lower (strip self.name.toList) = "_system".toList then
    some "_system is reserved for system-level ontology keys"
  else none

structure Control where
  id : String
  name : String
  description : String
  taxonomyVersion : String
  deriving DecidableEq

structure ArchitecturePattern where
  id : String
  name : String
  description : String
  taxonomyVersion : String
  deriving DecidableEq

structure ModelEntity where
  id : String
  provider : String
  name : String
  version : Option String := none
  deriving DecidableEq

structure Harness where
  id : String
  name : String
  version : Option String := none
  repositoryUrl : Option String := none
  deriving DecidableEq

structure Benchmark where
  id : String
  name : String
  version : String
  taskDefinition : String
  successCriterion : String
  deriving DecidableEq

structure ProvenanceEdge where
  sourceId : SourceId
  derivativeOfSourceId : SourceId
  rationale : String
  deriving DecidableEq

structure BenchmarkResult where
  id : String
  benchmarkId : String
  modelId : String
  harnessId : String
  tools : List String
  score : String
  retries : ℕ
  timeBudget : String
  sampleSize : ℕ
  environment : String
  limitations : List String
  resultDate : Date
  evidenceId : EvidenceId
  sourceClass : SourceClass
  maturity : EvidenceMaturity
  reportingParty : String
  independenceFacets : IndependenceFacets
  positive : 0 < sampleSize := by decide
  deriving DecidableEq

/-- The records of the corpus, with the checks of agents and vocabularies that the types above
do not carry. -/
structure GateAPacket (unicode : UnicodeData) where
  taxonomyVersion : String
  methodologyVersion : String
  vendors : List Vendor := []
  systems : List System := []
  agents : List Agent := []
  capabilities : List Capability := []
  controls : List Control := []
  architecturePatterns : List ArchitecturePattern := []
  models : List ModelEntity := []
  harnesses : List Harness := []
  benchmarks : List Benchmark := []
  sources : List Source := []
  provenanceEdges : List ProvenanceEdge := []
  snapshots : List Snapshot := []
  evidence : List Evidence := []
  assertions : List Assertion := []
  observations : List Observation := []
  lifecycleEvents : List LifecycleEvent := []
  autonomyAssessments : List AutonomyAssessment := []
  benchmarkResults : List BenchmarkResult := []
  materialChanges : List MaterialChange := []
  agentNames : ∀ agent ∈ agents, agent.reserveSystemSentinel unicode = none := by decide
  taxonomyIds : ∀ id ∈ capabilities.map (·.taxonomyVersion) ++ controls.map (·.taxonomyVersion) ++
    architecturePatterns.map (·.taxonomyVersion), isTaxonomyId unicode id = true := by decide

def TrustClass.value : TrustClass → String
  | .primary => "PRIMARY"
  | .official => "OFFICIAL"
  | .research => "RESEARCH"
  | .independent => "INDEPENDENT"
  | .community => "COMMUNITY"
  | .secondary => "SECONDARY"
  | .unverified => "UNVERIFIED"
  | .self => "SELF"

def RegistryStatus.value : RegistryStatus → String
  | .proposed => "PROPOSED"
  | .approved => "APPROVED"
  | .disabled => "DISABLED"

def SourceKind.value : SourceKind → String
  | .http => "HTTP"
  | .git => "GIT"
  | .fixture => "FIXTURE"

def SourceClass.ofValue : String → Option SourceClass
  | "P1" => some .p1
  | "P2" => some .p2
  | "R1" => some .r1
  | "R2" => some .r2
  | "O1" => some .o1
  | "I1" => some .i1
  | "C1" => some .c1
  | "S1" => some .s1
  | "U" => some .u
  | _ => none

def AvailabilityState.ofValue : String → Option AvailabilityState
  | "UNKNOWN" => some .unknown
  | "PRIVATE_PREVIEW" => some .privatePreview
  | "LIMITED_PUBLIC_PREVIEW" => some .limitedPublicPreview
  | "PUBLIC_PREVIEW" => some .publicPreview
  | "GA" => some .ga
  | "DEPRECATED" => some .deprecated
  | _ => none

@[simp] theorem SourceClass.ofValue_value (c : SourceClass) : ofValue c.value = some c := by
  cases c <;> rfl

@[simp] theorem AvailabilityState.ofValue_value (state : AvailabilityState) :
    ofValue state.value = some state := by
  cases state <;> rfl

def Id.ofText (kind text : String) : Option (Id kind) :=
  if h : matchesId kind text = true then some ⟨text, h⟩ else none

def Sha256.ofText (text : String) : Option Sha256 :=
  if h : text.length = 64 ∧ text.toList.all (fun c ↦ c.isDigit || ('a' ≤ c && c ≤ 'f')) then
    some ⟨text, h⟩
  else none

@[simp] theorem Id.ofText_text {kind : String} (id : Id kind) : ofText kind id.text = some id := by
  rw [ofText, dif_pos id.pattern]

end AgenticSecurity.Models
