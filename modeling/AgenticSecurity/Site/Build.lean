import AgenticSecurity.Editorial.Pipelines
import AgenticSecurity.Sources.Registry

namespace AgenticSecurity.Site

open Models Python Derivations Storage Editorial

structure EvidenceItem where
  id : EvidenceId
  sourceId : SourceId
  sourceClass : String
  maturity : String
  purpose : String
  quote : String
  independence : String
  deriving DecidableEq

structure SupportItem where
  value : String
  rationale : String
  methodologyVersion : String
  deriving DecidableEq

structure CapabilityRow where
  assertionId : AssertionId
  agentId : Option String
  capabilityId : String
  name : String
  statement : String
  state : String
  scope : AssertionScope
  supportConfidence : SupportItem
  evidencePanel : CapabilityEvidencePanel
  evidence : List EvidenceItem
  deriving DecidableEq

structure ClaimRow where
  systemId : String
  systemName : String
  capability : String
  vendorClaims : String
  primaryDocumentation : String
  demonstrated : String
  benchmarked : String
  independentlyValidated : String
  unknown : String
  evidencePanel : CapabilityEvidencePanel
  deriving DecidableEq

structure ChangeRow where
  id : ChangeId
  systemId : String
  description : String
  classification : String
  decisionImpacts : List String
  date : Option String
  deriving DecidableEq

structure AgentRow extends Agent where
  capabilities : List String
  controls : List String
  deriving DecidableEq

structure LifecycleRow where
  state : String
  effectiveAt : String
  conditions : List String
  regions : List String
  evidenceId : EvidenceId
  deriving DecidableEq

structure AutonomyRow where
  derivedLabel : String
  trigger : AutonomyFacetEvidence
  persistence : AutonomyFacetEvidence
  permissionScope : AutonomyFacetEvidence
  humanGate : AutonomyFacetEvidence
  actionHumanGates : List (String × AutonomyFacetEvidence)
  deriving DecidableEq

structure StatementRow where
  statement : String
  state : String
  evidenceIds : List EvidenceId
  deriving DecidableEq

structure SystemSource where
  id : SourceId
  publisher : String
  name : String
  deriving DecidableEq

structure SystemRow where
  id : String
  name : String
  vendor : String
  category : String
  description : String
  firstObservedAt : String
  lastVerifiedAt : String
  freshness : String
  agents : List AgentRow
  lifecycle : List LifecycleRow
  autonomy : Option AutonomyRow
  controls : List StatementRow
  architecture : List StatementRow
  capabilities : List CapabilityRow
  conflicts : List ContradictionFlag
  recentChanges : List ChangeRow
  sources : List SystemSource
  methodologyVersion : String
  taxonomyVersion : String
  deriving DecidableEq

structure DailyRow where
  date : String
  status : String
  markdown : String
  deriving DecidableEq

structure WeeklyRow where
  date : String
  markdown : String
  deriving DecidableEq

structure PublicSource where
  id : SourceId
  publisher : String
  name : String
  role : String
  contributesEvidence : Bool
  deriving DecidableEq

structure Payload where
  generatedAt : String
  canonicalBase : String
  methodologyVersion : String
  taxonomyVersion : String
  systems : List SystemRow
  claims : List ClaimRow
  changes : List ChangeRow
  daily : List DailyRow
  weekly : List WeeklyRow
  sources : List PublicSource
  deriving DecidableEq

inductive SiteError
  | keyError (key : String)
  | valueError (error : InvalidMember)
  | typeError (message : String)
  deriving DecidableEq, Repr

variable (cases : CaseData) (data : PublicationLedgerData) (asOf : Datetime)

def excludedSourceIds : List SourceId :=
  (data.sources.filter fun item ↦ item.role = .output || item.trustClass = .self).map (·.id)

/-- The dictionary `evidence`. -/
def evidenceById : List (EvidenceId × Evidence) :=
  dictOf ((data.evidence.filter fun item ↦ item.sourceId ∉ excludedSourceIds data).map
    fun item ↦ (item.id, item))

def assertionsById : List (AssertionId × Assertion) :=
  dictOf (data.assertions.map fun item ↦ (item.id, item))

def changeClassifications : List (String × String) :=
  data.changeReviews.filterMap fun item ↦
    item.2.humanClassification.map fun classification ↦ (item.1, classification.value)

def changeRow (item : MaterialChange) : ChangeRow where
  id := item.id
  systemId :=
    ((item.assertionIds.filterMap
      fun assertionId ↦ (assertionsById data).lookup assertionId).head?.map
      (·.systemId)).getD "unknown"
  description := item.description
  classification := ((changeClassifications data).lookup item.id.text).getD "HUMAN_CONFIRMED"
  decisionImpacts := sortedImpacts item.decisionImpacts
  date := item.confirmedAt.map fun t ↦ t.date.isoformat

def changeRows : List ChangeRow := data.confirmedChanges.map (changeRow data)

def publishedItems (assertion : Assertion) : List Evidence :=
  assertion.evidenceIds.filterMap fun item ↦ (evidenceById data).lookup item

def evidenceItem (item : Evidence) : EvidenceItem where
  id := item.id
  sourceId := item.sourceId
  sourceClass := item.sourceClass.value
  maturity := item.maturity.value
  purpose := item.claimPurpose.value
  quote := item.anchor.quote
  independence :=
    match item.independenceFacets with
    | some facets => (deriveIndependence facets).value
    | none => IndependenceDesignation.undetermined.value

def capabilityName (subject : String) : String :=
  match (dictOf (data.capabilities.map fun item ↦ (item.id, item))).lookup subject with
  | some capability => capability.name
  | none => String.ofList (title cases (replace ['-'] [' '] subject.toList))

def excludedEvidence (assertion : Assertion) : Bool :=
  (publishedItems data assertion).length ≠ assertion.evidenceIds.length

def supportItem (assertion : Assertion) : SupportItem where
  value :=
    (if excludedEvidence data assertion then
      deriveSupportConfidence (publishedItems data assertion)
        (deriveFreshness assertion.lastVerifiedAt asOf)
        (assertion.contradictingEvidenceIds ≠ [])
    else assertion.supportConfidence).value
  rationale :=
    if excludedEvidence data assertion then "Recomputed after excluding SELF/OUTPUT sources."
    else assertion.supportConfidenceRationale
  methodologyVersion := assertion.methodologyVersion

def capabilityRow (assertion : Assertion) : CapabilityRow where
  assertionId := assertion.id
  agentId := assertion.agentId
  capabilityId := assertion.slots.subject
  name := capabilityName cases data assertion.slots.subject
  statement := assertion.statement
  state := assertion.state.value
  scope := deriveCurrentScope assertion.id data.observations
  supportConfidence := supportItem data asOf assertion
  evidencePanel :=
    deriveCapabilityEvidencePanel assertion.slots.subject (publishedItems data assertion)
  evidence := (publishedItems data assertion).map evidenceItem

def independentItems (row : CapabilityRow) : List EvidenceItem :=
  row.evidence.filter fun item ↦
    item.independence = "INDEPENDENT" && item.purpose = ClaimPurpose.independentValidation.value &&
      item.maturity ∈ ["E3", "E4", "E5"]

def claimRow (system : System) (row : CapabilityRow) : ClaimRow where
  systemId := system.id
  systemName := system.name
  capability := row.name
  vendorClaims := row.statement
  primaryDocumentation :=
    if row.evidence.any fun item ↦ item.sourceClass = "P1" then row.statement else "NONE_FOUND"
  demonstrated :=
    if row.evidencePanel.publicDemonstration.value ≠ "NONE_FOUND" then
      "Public demonstration evidence is recorded."
    else "NONE_FOUND"
  benchmarked :=
    if row.evidence.any fun item ↦ item.maturity ∈ ["E4",
      "E5"] then "Benchmark evidence is recorded."
    else "NONE_FOUND"
  independentlyValidated :=
    match independentItems row with
    | item :: _ => item.quote
    | [] => "No independent validation published as of " ++ asOf.date.isoformat ++ "."
  unknown :=
    if row.evidencePanel.productionEffectiveness.value = "UNKNOWN" then
      "Production effectiveness remains UNKNOWN."
    else "No additional production-effectiveness unknown recorded."
  evidencePanel := row.evidencePanel

def assertionsOf (system : System) : List Assertion :=
  data.assertions.filter fun item ↦ item.systemId = system.id

def capabilityRows (system : System) : List CapabilityRow :=
  ((assertionsOf data system).filter fun item ↦ item.slots.subjectType = .capability).map
    (capabilityRow cases data asOf)

def claimRows (system : System) : List ClaimRow :=
  (capabilityRows cases data asOf system).map (claimRow asOf system)

def lifecycleRow (item : LifecycleEvent) : LifecycleRow where
  state := item.state.value
  effectiveAt := (item.effectiveAt.map fun t ↦ t.date.isoformat).getD "UNKNOWN"
  conditions := item.modifiers.conditions
  regions := item.modifiers.regions
  evidenceId := item.evidenceId

def lifecycleRows (system : System) : List LifecycleRow :=
  (data.lifecycleEvents.filter fun item ↦ item.systemId = some system.id).map lifecycleRow

def agentRow (system : System) (item : Agent) : AgentRow where
  toAgent := item
  capabilities :=
    ((capabilityRows cases data asOf system).filter fun row ↦ row.agentId = some item.id).map
      (·.name)
  controls :=
    ((assertionsOf data system).filter fun assertion ↦
      assertion.agentId = some item.id && assertion.slots.subjectType = .control).map (·.statement)

def autonomyOf (system : System) : Option AutonomyAssessment :=
  data.autonomyAssessments.find? fun item ↦ item.systemId = system.id

def autonomyRow (autonomy : AutonomyAssessment) : Except InvalidMember AutonomyRow := do
  let derivedLabel ← deriveAutonomyLabel autonomy
  return {
    derivedLabel
    trigger := autonomy.trigger
    persistence := autonomy.persistence
    permissionScope := autonomy.permissionScope
    humanGate := autonomy.humanGate
    actionHumanGates := autonomy.actionHumanGates }

def autonomyRowOf (system : System) : Except SiteError (Option AutonomyRow) :=
  match autonomyOf data system with
  | some autonomy => ((autonomyRow autonomy).mapError .valueError).map some
  | none => .ok none

/-- `vendors[system.vendor_id]`. -/
def vendorOf (system : System) : Except SiteError Vendor :=
  match (dictOf (data.vendors.map fun item ↦ (item.id, item))).lookup system.vendorId with
  | some vendor => .ok vendor
  | none => .error (.keyError system.vendorId)

def statementRows (system : System) (subjectType : SubjectType) : List StatementRow :=
  ((assertionsOf data system).filter fun item ↦ item.slots.subjectType = subjectType).map fun item ↦
    { statement := item.statement, state := item.state.value, evidenceIds := item.evidenceIds }

def conflictsOf (system : System) : List ContradictionFlag :=
  data.conflicts.filter fun item ↦
    item.assertionIds.any fun assertionId ↦ assertionId ∈ (assertionsOf data system).map (·.id)

def citedSourceIds (system : System) : List SourceId :=
  ((capabilityRows cases data asOf system).flatMap fun row ↦ row.evidence.map (·.sourceId)) ++
    (assertionsOf data system).flatMap fun assertion ↦
      (assertion.contradictingEvidenceIds.filterMap fun item ↦ (evidenceById data).lookup item).map
        (·.sourceId)

def systemSources (system : System) : List SystemSource :=
  (data.sources.filter fun source ↦ source.id ∈ citedSourceIds cases data asOf system).map
    fun source ↦
    { id := source.id, publisher := source.publisher, name := source.name }

def systemRow (system : System) : Except SiteError SystemRow := do
  let vendor ← vendorOf data system
  let autonomy ← autonomyRowOf data system
  return {
    id := system.id
    name := system.name
    vendor := vendor.name
    category := system.category
    description := system.description
    firstObservedAt := system.firstObservedAt.date.isoformat
    lastVerifiedAt := system.lastVerifiedAt.date.isoformat
    freshness := (deriveFreshness system.lastVerifiedAt asOf).value
    agents :=
      (data.agents.filter fun item ↦ item.systemId = system.id).map
      (agentRow cases data asOf system)
    lifecycle := lifecycleRows data system
    autonomy
    controls := statementRows data system .control
    architecture := statementRows data system .architecturePattern
    capabilities := capabilityRows cases data asOf system
    conflicts := conflictsOf data system
    recentChanges := (changeRows data).filter fun item ↦ item.systemId = system.id
    sources := systemSources cases data asOf system
    methodologyVersion := data.methodologyVersion
    taxonomyVersion := data.taxonomyVersion }

def publicSources (systems : List SystemRow) : List PublicSource :=
  let publicSourceIds := systems.flatMap fun system ↦ system.sources.map (·.id)
  (data.sources.filter fun item ↦ item.id ∈ publicSourceIds).map fun item ↦
    { id := item.id
      publisher := item.publisher
      name := item.name
      role := item.role.value
      contributesEvidence := item.id ∉ excludedSourceIds data }

def reportRows (unicode : UnicodeData) : Except SiteError (List DailyRow × List WeeklyRow) :=
  ((siteReports unicode data asOf).mapError .typeError).map fun
    | some (daily, weekly) =>
      ([{ date := daily.date.isoformat, status := daily.status.value, markdown := daily.markdown }],
        [{ date := weekly.weekEnding.isoformat, markdown := weekly.markdown }])
    | none => ([], [])

/-- A call with `ledger_data`; `now` is the clock. -/
def buildSiteData (unicode : UnicodeData) (now : Datetime)
    (generatedAt semanticAsOf : Option Datetime) (canonicalBase : String) :
    Except SiteError Payload := do
  let generatedAt := generatedAt.getD now
  let asOf := semanticAsOf.getD generatedAt
  let systems ← data.systems.mapM (systemRow cases data asOf)
  let reports ← reportRows data asOf unicode
  return {
    generatedAt := generatedAt.isoformat
    canonicalBase := String.ofList (Sources.rstripSlashes canonicalBase.toList)
    methodologyVersion := data.methodologyVersion
    taxonomyVersion := data.taxonomyVersion
    systems
    claims := data.systems.flatMap (claimRows cases data asOf)
    changes := changeRows data
    daily := reports.1
    weekly := reports.2
    sources := publicSources data systems }

/-- `_semantic_as_of` of the export: the latest of the times, the first of those that tie. -/
def semanticAsOf : Datetime :=
  let values := data.systems.map (·.lastVerifiedAt) ++ data.assertions.map (·.lastVerifiedAt) ++
    data.evidence.map (·.lastVerifiedAt) ++ data.confirmedChanges.filterMap (·.confirmedAt) ++
    data.latestReviewDecisions.filterMap (·.reviewedAt)
  match values with
  | [] => data.methodologyPublishedAt
  | first :: rest => rest.foldl (fun best t ↦ if best.instant < t.instant then t else best) first

end AgenticSecurity.Site
