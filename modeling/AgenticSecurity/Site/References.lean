import AgenticSecurity.Site.Build

namespace AgenticSecurity.Site

open Library Models Python Derivations Storage Related

def facetEvidenceIds (facets : List AutonomyFacetEvidence) : List EvidenceId :=
  facets.map (·.evidenceId)

def AutonomyRow.evidenceIds (row : AutonomyRow) : List EvidenceId :=
  facetEvidenceIds
    ([row.trigger, row.persistence, row.permissionScope, row.humanGate] ++
      row.actionHumanGates.map Prod.snd)

def SystemRow.plainEvidenceIds (row : SystemRow) : List EvidenceId :=
  row.controls.flatMap (·.evidenceIds) ++ row.architecture.flatMap (·.evidenceIds) ++
    row.lifecycle.map (·.evidenceId) ++ (row.autonomy.map AutonomyRow.evidenceIds).getD []

def SystemRow.capabilityEvidenceIds (row : SystemRow) : List EvidenceId :=
  row.capabilities.flatMap fun capability ↦ capability.evidence.map (·.id)

def Resolves (data : PublicationLedgerData) (payload : Payload) (id : EvidenceId) : Prop :=
  ∃ item ∈ data.evidence, item.id = id ∧
    ∃ source ∈ data.sources, source.id = item.sourceId ∧ source.role ≠ .output ∧
      source.trustClass ≠ .self ∧
      ∃ row ∈ payload.sources, row.id = source.id ∧ row.contributesEvidence = true

def ReferencesResolve (data : PublicationLedgerData) (payload : Payload) : Prop :=
  ∀ system ∈ payload.systems, ∀ id ∈ system.capabilityEvidenceIds ++ system.plainEvidenceIds,
    Resolves data payload id

variable (data : PublicationLedgerData)

def autonomyEvidenceIds (autonomy : AutonomyAssessment) : List EvidenceId :=
  facetEvidenceIds ([autonomy.trigger, autonomy.persistence, autonomy.permissionScope,
    autonomy.humanGate] ++
    autonomy.actionHumanGates.map Prod.snd)

/-- What the controls, the architecture, the lifecycle and the autonomy of a system refer to.
`build_site_data` copies these ids. -/
def plainReferences (system : System) : List EvidenceId :=
  (((assertionsOf data system).filter fun item ↦ item.slots.subjectType = .control).flatMap
    (·.evidenceIds)) ++
    (((assertionsOf data system).filter fun item ↦ item.slots.subjectType =
      .architecturePattern).flatMap
      (·.evidenceIds)) ++
    ((data.lifecycleEvents.filter fun item ↦ item.systemId = some system.id).map (·.evidenceId)) ++
    ((autonomyOf data system).map autonomyEvidenceIds).getD []

/-- The published evidence of the capability assertions of a system. -/
def capabilityItems (system : System) : List Evidence :=
  ((assertionsOf data system).filter fun item ↦ item.slots.subjectType = .capability).flatMap
    (publishedItems data)

def contradictingItems (system : System) : List Evidence :=
  (assertionsOf data system).flatMap fun assertion ↦
    assertion.contradictingEvidenceIds.filterMap fun item ↦ (evidenceById data).lookup item

/-- The source is registered, contributes evidence, and stands behind published capability
evidence or contradicting evidence. -/
def Cited (id : SourceId) : Prop :=
  (∃ source ∈ data.sources, source.id = id) ∧ id ∉ excludedSourceIds data ∧
    ∃ system ∈ data.systems, ∃ item ∈ capabilityItems data system ++ contradictingItems data system,
      item.sourceId = id

/-- The id is that of a record whose source is cited. -/
def Publishable (id : EvidenceId) : Prop :=
  ∃ item ∈ data.evidence, item.id = id ∧ Cited data item.sourceId

variable {data}

theorem not_mem_excluded_iff {id : SourceId} :
    id ∉ excludedSourceIds data ↔ ∀ source ∈ data.sources, source.id = id →
      source.role ≠ .output ∧ source.trustClass ≠ .self := by
  simp only [excludedSourceIds, List.mem_map, List.mem_filter, Bool.or_eq_true,
    decide_eq_true_eq, not_exists, not_and]
  constructor
  · intro h source hsource hid
    exact not_or.mp fun hbad ↦ h source ⟨hsource, hbad⟩ hid
  · rintro h source ⟨hsource, hbad⟩ hid
    obtain ⟨houtput, hself⟩ := h source hsource hid
    exact hbad.elim houtput hself

theorem mem_of_evidenceById {id : EvidenceId} {item : Evidence}
    (h : (evidenceById data).lookup id = some item) :
    item ∈ data.evidence ∧ item.id = id ∧ item.sourceId ∉ excludedSourceIds data := by
  have hmem := mem_dictOf (mem_of_lookup h)
  obtain ⟨other, hother, he⟩ := List.mem_map.mp hmem
  obtain ⟨rfl, rfl⟩ := Prod.mk.inj he
  obtain ⟨hevidence, hsource⟩ := List.mem_filter.mp hother
  exact ⟨hevidence, rfl, of_decide_eq_true hsource⟩

theorem mem_lookups {ids : List EvidenceId} {item : Evidence}
    (h : item ∈ ids.filterMap fun id ↦ (evidenceById data).lookup id) :
    item ∈ data.evidence ∧ item.sourceId ∉ excludedSourceIds data := by
  obtain ⟨id, -, hid⟩ := List.mem_filterMap.mp h
  obtain ⟨hmem, -, hsource⟩ := mem_of_evidenceById hid
  exact ⟨hmem, hsource⟩

variable {cases : CaseData} {asOf : Datetime}

theorem mem_citedSourceIds {system : System} {id : SourceId} :
    id ∈ citedSourceIds cases data asOf system ↔
      ∃ item ∈ capabilityItems data system ++ contradictingItems data system,
      item.sourceId = id := by
  simp only [citedSourceIds, capabilityRows, capabilityItems, contradictingItems, capabilityRow,
    evidenceItem, List.mem_append, List.mem_flatMap, List.mem_map, exists_exists_and_eq_and]
  constructor
  · rintro (⟨assertion, hassertion, item, hitem, rfl⟩ | ⟨assertion, hassertion, item, hitem, rfl⟩)
    · exact ⟨item, .inl ⟨assertion, hassertion, hitem⟩, rfl⟩
    · exact ⟨item, .inr ⟨assertion, hassertion, hitem⟩, rfl⟩
  · rintro ⟨item, ⟨assertion, hassertion, hitem⟩ | ⟨assertion, hassertion, hitem⟩, rfl⟩
    · exact .inl ⟨assertion, hassertion, item, hitem, rfl⟩
    · exact .inr ⟨assertion, hassertion, item, hitem, rfl⟩

theorem autonomyRow_ok {autonomy : AutonomyAssessment} {row : AutonomyRow}
    (h : autonomyRow autonomy = .ok row) :
    row.evidenceIds = autonomyEvidenceIds autonomy := by
  obtain ⟨label, -, h⟩ := Runs.except_bind_ok.mp h
  obtain rfl := Except.ok.inj h
  rfl

theorem autonomy_ok {system : System} {autonomy : Option AutonomyRow}
    (h : autonomyRowOf data system = .ok autonomy) :
    (autonomy.map AutonomyRow.evidenceIds).getD [] =
      ((autonomyOf data system).map autonomyEvidenceIds).getD [] := by
  unfold autonomyRowOf at h
  cases hautonomy : autonomyOf data system with
  | none =>
    rw [hautonomy] at h
    obtain rfl := Except.ok.inj h
    rfl
  | some assessment =>
    rw [hautonomy] at h
    obtain ⟨row, hrow, rfl⟩ := Runs.except_map_ok.mp h
    exact autonomyRow_ok (Runs.except_mapError_ok.mp hrow)

theorem systemRow_ok {system : System} {row : SystemRow}
    (h : systemRow cases data asOf system = .ok row) :
    row.capabilityEvidenceIds = (capabilityItems data system).map (·.id) ∧
    row.plainEvidenceIds = plainReferences data system ∧
    row.sources = systemSources cases data asOf system := by
  obtain ⟨vendor, -, h⟩ := Runs.except_bind_ok.mp h
  obtain ⟨autonomy, hautonomy, h⟩ := Runs.except_bind_ok.mp h
  obtain rfl := Except.ok.inj h
  refine ⟨?_, ?_, rfl⟩
  · simp only [SystemRow.capabilityEvidenceIds, capabilityRows, capabilityItems, List.flatMap_map,
      List.map_flatMap, capabilityRow, List.map_map]
    rfl
  · simp only [SystemRow.plainEvidenceIds, plainReferences, autonomy_ok hautonomy, statementRows,
      lifecycleRows, List.flatMap_map, List.map_map]
    rfl

theorem buildSiteData_ok {unicode : UnicodeData} {now : Datetime}
    {generatedAt asOf : Option Datetime} {canonicalBase : String} {payload : Payload}
    (h : buildSiteData cases data unicode now generatedAt asOf canonicalBase = .ok payload) :
    List.Forall₂
      (fun system row ↦ systemRow cases data (asOf.getD (generatedAt.getD now)) system = .ok row)
      data.systems payload.systems ∧
    payload.claims = data.systems.flatMap
      (claimRows cases data (asOf.getD (generatedAt.getD now))) ∧
    payload.sources = publicSources data payload.systems := by
  obtain ⟨systems, hsystems, h⟩ := Runs.except_bind_ok.mp h
  obtain ⟨reports, -, h⟩ := Runs.except_bind_ok.mp h
  obtain rfl := Except.ok.inj h
  exact ⟨forall₂_of_mapM hsystems, rfl, rfl⟩

theorem mem_systemSources {system : System} {id : SourceId} :
    id ∈ (systemSources cases data asOf system).map (·.id) ↔
      (∃ source ∈ data.sources, source.id = id) ∧
        ∃ item ∈ capabilityItems data system ++ contradictingItems data system,
        item.sourceId = id := by
  rw [← @mem_citedSourceIds data cases asOf]
  simp only [systemSources, List.map_map, List.mem_map, List.mem_filter, decide_eq_true_eq,
    Function.comp_apply]
  constructor
  · rintro ⟨source, ⟨hsource, hcited⟩, rfl⟩
    exact ⟨⟨source, hsource, rfl⟩, hcited⟩
  · rintro ⟨⟨source, hsource, rfl⟩, hcited⟩
    exact ⟨source, ⟨hsource, hcited⟩, rfl⟩

section Payload

variable {payload : Payload}
  (hsystems : List.Forall₂ (fun system row ↦ systemRow cases data asOf system = .ok row)
    data.systems payload.systems)
  (hsources : payload.sources = publicSources data payload.systems)

include hsystems hsources

theorem listed_iff {id : SourceId} :
    (∃ row ∈ payload.sources, row.id = id ∧ row.contributesEvidence = true) ↔ Cited data id := by
  have hlisted : (id ∈ payload.systems.flatMap fun system ↦ system.sources.map (·.id)) ↔
      ∃ system ∈ data.systems, id ∈ (systemSources cases data asOf system).map (·.id) := by
    have hflat : (payload.systems.flatMap fun system ↦ system.sources.map (·.id)) =
        data.systems.flatMap fun system ↦ (systemSources cases data asOf system).map (·.id) :=
      (flatMap_eq hsystems fun system row hrow ↦ by rw [(systemRow_ok hrow).2.2]).symm
    rw [hflat, List.mem_flatMap]
  simp only [hsources, publicSources, List.mem_map, List.mem_filter, decide_eq_true_eq]
  constructor
  · rintro ⟨row, ⟨source, ⟨hsource, hmem⟩, rfl⟩, rfl, hexcluded⟩
    obtain ⟨system, hsystem, hcited⟩ := hlisted.mp hmem
    exact ⟨⟨source, hsource, rfl⟩, of_decide_eq_true hexcluded, system, hsystem,
      (mem_systemSources.mp hcited).2⟩
  · rintro ⟨⟨source, hsource, rfl⟩, hexcluded, system, hsystem, hcited⟩
    have hmem :=
      hlisted.mpr ⟨system, hsystem, mem_systemSources.mpr ⟨⟨source, hsource, rfl⟩, hcited⟩⟩
    exact ⟨_, ⟨source, ⟨hsource, hmem⟩, rfl⟩, rfl, decide_eq_true hexcluded⟩

theorem resolves_iff {id : EvidenceId} : Resolves data payload id ↔ Publishable data id := by
  have hlisted : ∀ id, (∃ row ∈ payload.sources, row.id = id ∧ row.contributesEvidence = true) ↔
      Cited data id :=
    fun _ ↦ listed_iff hsystems hsources
  constructor
  · rintro ⟨item, hitem, rfl, source, -, hid, -, -, hrow⟩
    exact ⟨item, hitem, rfl, hid ▸ (hlisted source.id).mp hrow⟩
  · rintro ⟨item, hitem, rfl, hcited⟩
    obtain ⟨source, hsource, hid⟩ := hcited.1
    obtain ⟨houtput, hself⟩ := not_mem_excluded_iff.mp hcited.2.1 source hsource hid
    exact ⟨item, hitem, rfl, source, hsource, hid, houtput, hself,
      (hlisted source.id).mpr (hid ▸ hcited)⟩

end Payload

theorem publishable_of_registered {system : System} (hsystem : system ∈ data.systems)
    {item : Evidence} (hitem : item ∈ capabilityItems data system)
    (hsource : ∃ source ∈ data.sources, source.id = item.sourceId) :
    Publishable data item.id := by
  obtain ⟨assertion, -, hpublished⟩ := List.mem_flatMap.mp hitem
  obtain ⟨hevidence, hexcluded⟩ := mem_lookups hpublished
  exact ⟨item, hevidence, rfl, hsource, hexcluded, system, hsystem, item,
    List.mem_append_left _ hitem, rfl⟩

/-- The references resolve exactly when those that are copied from assertions, lifecycle
events and autonomy facets are publishable; the filtered ones only need a registered source. -/
theorem references_resolve_iff {unicode : UnicodeData} {now : Datetime}
    {generatedAt asOf : Option Datetime} {canonicalBase : String} {payload : Payload}
    (h : buildSiteData cases data unicode now generatedAt asOf canonicalBase = .ok payload) :
    ReferencesResolve data payload ↔
      ∀ system ∈ data.systems,
        (∀ id ∈ plainReferences data system, Publishable data id) ∧
        ∀ item ∈ capabilityItems data system,
          (∃ source ∈ data.sources, source.id = item.sourceId) ∨ Publishable data item.id := by
  obtain ⟨hsystems, -, hsources⟩ := buildSiteData_ok h
  have hflat :
      (payload.systems.flatMap fun row ↦ row.capabilityEvidenceIds ++ row.plainEvidenceIds) =
      data.systems.flatMap fun system ↦
        (capabilityItems data system).map (·.id) ++ plainReferences data system :=
    (flatMap_eq hsystems
      fun system row hrow ↦ by rw [(systemRow_ok hrow).1, (systemRow_ok hrow).2.1]).symm
  have hall : ReferencesResolve data payload ↔
      ∀ system ∈ data.systems,
      ∀ id ∈ (capabilityItems data system).map (·.id) ++ plainReferences data system,
        Publishable data id := by
    have hids :
        ∀ id, (∃ row ∈ payload.systems, id ∈ row.capabilityEvidenceIds ++ row.plainEvidenceIds) ↔
        ∃ system ∈ data.systems, id ∈ (capabilityItems data system).map (·.id) ++
          plainReferences data system :=
      fun id ↦ by rw [← List.mem_flatMap, hflat, List.mem_flatMap]
    constructor
    · intro hresolve system hsystem id hid
      obtain ⟨row, hrow, hmem⟩ := (hids id).mpr ⟨system, hsystem, hid⟩
      exact (resolves_iff hsystems hsources).mp (hresolve row hrow id hmem)
    · intro hpublishable row hrow id hid
      obtain ⟨system, hsystem, hmem⟩ := (hids id).mp ⟨row, hrow, hid⟩
      exact (resolves_iff hsystems hsources).mpr (hpublishable system hsystem id hmem)
  rw [hall]
  refine forall₂_congr fun system hsystem ↦ ?_
  simp only [List.mem_append, or_imp, forall_and, List.forall_mem_map]
  rw [and_comm]
  refine and_congr_right fun _ ↦ forall₂_congr fun item hitem ↦ ?_
  exact ⟨.inr, fun hor ↦ hor.elim (publishable_of_registered hsystem hitem) id⟩

def outputSource : Source where
  id := { text := "SRC-BRIEF" }
  publisher := "Publisher"
  name := "Brief"
  kind := .fixture
  role := .output
  domains := []
  trustClass := .self
  status := .approved
  enabled := true
  policy :=
    { allowedClaimTypes := ∅, allowedClaimPurposes := ∅, crawlFrequency := "never",
      usableAsIndependentEvidence := false }
  pinnedAt := sampleDay
  fallbackNote := ""

def outputEvidence : Evidence where
  id := { text := "EV-APPROVAL" }
  sourceId := outputSource.id
  sourceClass := .p1
  maturity := .e1
  claimPurpose := .documentation
  anchor :=
    { snapshotId := { text := "SNAP-BRIEF" }, snapshotSha256 := zeroHash,
      normalizerVersion := "norm-1.0", documentPath := "brief", documentHeading := "",
      quote := "Approval is required.", startOffset := 0,
      endOffset := 21 }
  publishedAt := none
  firstSeenAt := .midnight sampleDay
  retrievedAt := .midnight sampleDay
  lastSeenAt := .midnight sampleDay
  lastVerifiedAt := .midnight sampleDay

def approvalSystem : System where
  id := "system"
  vendorId := "vendor"
  name := "System"
  category := "agent"
  description := ""
  firstObservedAt := .midnight sampleDay
  lastVerifiedAt := .midnight sampleDay

def approvalAssertion : Assertion where
  id := { text := "ASRT-APPROVAL" }
  assertionKey := "system:_system:approval:requires:human"
  taxonomyVersion := "ASI-TAXONOMY-1.1"
  systemId := "system"
  slots :=
    { system := "system", subjectType := .control, subject := "approval", action := "requires",
      object := "human" }
  statement := "Approval is required."
  canonicalRendering := "Approval is required."
  state := .affirmed
  supportConfidence := .high
  supportConfidenceRationale := ""
  firstSeenAt := .midnight sampleDay
  retrievedAt := .midnight sampleDay
  lastSeenAt := .midnight sampleDay
  firstObservedAt := .midnight sampleDay
  lastVerifiedAt := .midnight sampleDay
  methodologyVersion := "ASI-1.0"
  evidenceIds := [outputEvidence.id]

def approvalData : PublicationLedgerData where
  vendors := [{ id := "vendor", name := "Vendor", website := "https://example.com" }]
  systems := [approvalSystem]
  sources := [outputSource]
  evidence := [outputEvidence]
  assertions := [approvalAssertion]

def approvalSite : Except SiteError Payload :=
  buildSiteData asciiCases approvalData asciiData (.midnight sampleDay) none none
    "https://example.com"

theorem approvalSite_ok : ∃ payload, approvalSite = .ok payload := ⟨_, rfl⟩

/-- The control row still refers to the evidence. -/
theorem output_evidence_published :
    ∃ payload, approvalSite = .ok payload ∧ ¬ ReferencesResolve approvalData payload := by
  obtain ⟨payload, hpayload⟩ := approvalSite_ok
  refine ⟨payload, hpayload, fun hresolve ↦ ?_⟩
  obtain ⟨hsystems, -, -⟩ := buildSiteData_ok hpayload
  obtain ⟨row, rows, hrow, -, hrows⟩ := List.forall₂_cons_left_iff.mp hsystems
  have hmem : outputEvidence.id ∈ row.capabilityEvidenceIds ++ row.plainEvidenceIds := by
    rw [(systemRow_ok hrow).2.1]
    exact List.mem_append_right _ (by decide)
  obtain ⟨item, -, -, source, hsource, -, hrole, -, -⟩ :=
    hresolve row (hrows ▸ List.mem_cons_self) _ hmem
  obtain rfl := List.mem_singleton.mp hsource
  exact hrole rfl

theorem references_resolve_iff_approvalData :
    ∃ payload, approvalSite = .ok payload ∧
      (ReferencesResolve approvalData payload ↔
        ∀ system ∈ approvalData.systems,
          (∀ id ∈ plainReferences approvalData system, Publishable approvalData id) ∧
          ∀ item ∈ capabilityItems approvalData system,
            (∃ source ∈ approvalData.sources, source.id = item.sourceId) ∨
              Publishable approvalData item.id) := by
  obtain ⟨payload, hpayload⟩ := approvalSite_ok
  exact ⟨payload, hpayload, references_resolve_iff hpayload⟩

end AgenticSecurity.Site
