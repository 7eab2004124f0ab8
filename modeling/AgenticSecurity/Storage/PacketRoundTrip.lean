import AgenticSecurity.Storage.Representation
import AgenticSecurity.Storage.EvidencePolicy

namespace AgenticSecurity.Storage

open Library Models Python Runs

variable {unicode : UnicodeData} {forms : TextForms} {contentSha256 : String → Sha256}
  {metadata : AuthoritativeMetadata} {tables tables' : Tables}

theorem applyTaxonomy_ok {taxonomy : TaxonomyMetadata}
    (h : tables.applyTaxonomy true taxonomy = .ok tables') :
    ∃ added : List TaxonomyColumns, (∀ row ∈ added, row = taxonomyColumns taxonomy) ∧
      tables' = { tables with taxonomyVersions := tables.taxonomyVersions ++ added } ∧
      tables'.taxonomyVersions.find? (fun row ↦ row.id = taxonomy.id) =
        some (taxonomyColumns taxonomy) := by
  unfold Tables.applyTaxonomy at h
  split at h
  next hnone =>
    rw [if_neg (by simp)] at h
    obtain rfl := execute_ok h
    refine ⟨[taxonomyColumns taxonomy], fun row hrow ↦ List.mem_singleton.mp hrow, rfl, ?_⟩
    · change (tables.taxonomyVersions ++ [taxonomyColumns taxonomy]).find? _ = _
      rw [List.find?_append, hnone]
      simp [taxonomyColumns]
  next row hfound =>
    split_ifs at h with hsame
    obtain rfl := Except.ok.inj h
    refine ⟨[], fun row hrow ↦ absurd hrow List.not_mem_nil, by rw [List.append_nil], ?_⟩
    rw [hfound, not_not.mp hsame]

theorem applyTaxonomies_ok {taxonomies : List TaxonomyMetadata}
    (h : taxonomies.foldlM (Tables.applyTaxonomy true) tables = .ok tables') :
    ∃ added : List TaxonomyColumns, (∀ row ∈ added, row ∈ taxonomies.map taxonomyColumns) ∧
      tables' = { tables with taxonomyVersions := tables.taxonomyVersions ++ added } ∧
      ∀ taxonomy ∈ taxonomies, tables'.taxonomyVersions.find? (fun row ↦ row.id = taxonomy.id) =
        some (taxonomyColumns taxonomy) := by
  induction taxonomies generalizing tables with
  | nil =>
    obtain rfl := Except.ok.inj h
    exact ⟨[], fun row hrow ↦ absurd hrow List.not_mem_nil, by rw [List.append_nil],
      fun taxonomy hmem ↦ absurd hmem List.not_mem_nil⟩
  | cons taxonomy taxonomies ih =>
    obtain ⟨next, hnext, hrest⟩ := except_bind_ok.mp h
    obtain ⟨first, hfirst, rfl, hfound⟩ := applyTaxonomy_ok hnext
    obtain ⟨added, hadded, rfl, hothers⟩ := ih hrest
    refine ⟨first ++ added, fun row hrow ↦ ?_, by simp, ?_⟩
    · rcases List.mem_append.mp hrow with h | h
      · exact hfirst row h ▸ List.mem_cons_self
      · exact List.mem_cons_of_mem _ (hadded row h)
    · refine List.forall_mem_cons.mpr ⟨?_, hothers⟩
      change (tables.taxonomyVersions ++ first ++ added).find? _ = _
      have hfound' : (tables.taxonomyVersions ++ first).find? (fun row ↦ row.id = taxonomy.id) =
          some (taxonomyColumns taxonomy) := hfound
      rw [List.find?_append, hfound', Option.some_or]

theorem applyTaxonomies_verified (insertMissing : Bool) {taxonomies : List TaxonomyMetadata}
    (h : ∀ taxonomy ∈ taxonomies, tables.taxonomyVersions.find? (fun row ↦ row.id = taxonomy.id) =
      some (taxonomyColumns taxonomy)) :
    taxonomies.foldlM (Tables.applyTaxonomy insertMissing) tables = .ok tables := by
  induction taxonomies with
  | nil => rfl
  | cons taxonomy taxonomies ih =>
    obtain ⟨hfirst, hothers⟩ := List.forall_mem_cons.mp h
    have hstep : tables.applyTaxonomy insertMissing taxonomy = .ok tables := by
      rw [Tables.applyTaxonomy, hfirst]
      simp
    rw [List.foldlM_cons, hstep]
    exact ih hothers

structure Tables.Seeded (metadata : AuthoritativeMetadata) (tables : Tables) : Prop where
  known : ∀ row ∈ tables.taxonomyVersions, row.id ∈ metadata.taxonomies.map (·.id)
  taxonomies : ∀ taxonomy ∈ metadata.taxonomies,
    tables.taxonomyVersions.find? (fun row ↦ row.id = taxonomy.id) = some (taxonomyColumns taxonomy)
  only : ∀ row ∈ tables.methodologyVersions, row.id = metadata.methodology.id
  methodology : tables.methodologyVersions.find? (fun row ↦ row.id = metadata.methodology.id) =
    some (methodologyColumns metadata.methodology)

theorem applyMethodology_ok {methodology : MethodologyVersion}
    (h : tables.applyMethodology true methodology = .ok tables') :
    ∃ rows : List MethodologyColumns, tables.methodologyVersions <+: rows ∧
      tables' = { tables with methodologyVersions := rows } ∧
      (∀ row ∈ rows, row.id = methodology.id) ∧
      rows.find? (fun row ↦ row.id = methodology.id) = some (methodologyColumns methodology) := by
  unfold Tables.applyMethodology at h
  by_cases hunexpected : ∃ row ∈ tables.methodologyVersions, row.id ≠ methodology.id
  · rw [if_pos hunexpected] at h
    cases h
  rw [if_neg hunexpected] at h
  have honly : ∀ row ∈ tables.methodologyVersions, row.id = methodology.id := by
    simpa using hunexpected
  split at h
  next hnone =>
    rw [if_neg (by simp)] at h
    obtain rfl := execute_ok h
    refine ⟨tables.methodologyVersions ++ [methodologyColumns methodology],
      List.prefix_append _ _, rfl, fun row hrow ↦ ?_, ?_⟩
    · rcases List.mem_append.mp hrow with hold | hnew
      · exact honly row hold
      · rw [List.mem_singleton.mp hnew, methodologyColumns]
    · rw [List.find?_append, hnone]
      simp [methodologyColumns]
  next row hfound =>
    split_ifs at h with hsame
    obtain rfl := Except.ok.inj h
    exact ⟨tables.methodologyVersions, List.prefix_rfl, rfl,
      honly, by rw [hfound, not_not.mp hsame]⟩

theorem applyAuthoritativeMetadata_ok
    (h : tables.applyAuthoritativeMetadata unicode metadata true = .ok tables') :
    ∃ methodologyVersions taxonomyVersions, tables.methodologyVersions <+: methodologyVersions ∧
      tables.taxonomyVersions <+: taxonomyVersions ∧
      (∀ row ∈ taxonomyVersions, row ∈ tables.taxonomyVersions ∨
        row ∈ metadata.taxonomies.map taxonomyColumns) ∧
      tables' = { tables with methodologyVersions, taxonomyVersions } ∧
      tables'.Seeded metadata := by
  unfold Tables.applyAuthoritativeMetadata at h
  dsimp only at h
  split_ifs at h with hunexpected
  obtain ⟨next, htaxonomies, hmethodology⟩ := except_bind_ok.mp h
  obtain ⟨added, hadded, rfl, hfound⟩ := applyTaxonomies_ok htaxonomies
  obtain ⟨rows, hrows, rfl, honly, hmethodologyFound⟩ := applyMethodology_ok hmethodology
  refine ⟨rows, tables.taxonomyVersions ++ added, hrows, List.prefix_append _ _,
    fun row hrow ↦ (List.mem_append.mp hrow).imp_right (hadded row), rfl, fun row hrow ↦ ?_,
    hfound, honly,
    hmethodologyFound⟩
  rcases List.mem_append.mp hrow with hold | hnew
  · have hknown := not_not.mp hunexpected
    rw [List.filter_eq_nil_iff] at hknown
    simpa using hknown row.id (List.mem_map_of_mem hold)
  · obtain ⟨taxonomy, hmem, rfl⟩ := List.mem_map.mp (hadded row hnew)
    exact List.mem_map_of_mem hmem

theorem Tables.Seeded.verified (insertMissing : Bool) (h : tables.Seeded metadata) :
    tables.applyAuthoritativeMetadata unicode metadata insertMissing = .ok tables := by
  have hknown :
      (tables.taxonomyVersions.map (·.id)).filter (· ∉ metadata.taxonomies.map (·.id)) = [] := by
    refine List.filter_eq_nil_iff.mpr fun id hid ↦ ?_
    obtain ⟨row, hrow, rfl⟩ := List.mem_map.mp hid
    simpa using h.known row hrow
  have hexpected : ¬ ∃ row ∈ tables.methodologyVersions, row.id ≠ metadata.methodology.id := by
    rintro ⟨row, hrow, hne⟩
    exact hne (h.only row hrow)
  have hmethodology : tables.applyMethodology insertMissing metadata.methodology = .ok tables := by
    rw [Tables.applyMethodology, if_neg hexpected, h.methodology]
    simp
  unfold Tables.applyAuthoritativeMetadata
  dsimp only
  rw [hknown, if_neg (by simp), applyTaxonomies_verified insertMissing h.taxonomies]
  exact hmethodology

theorem addEvidence_inserts {evidence : Evidence}
    (h : tables.addEvidence unicode forms contentSha256 evidence = .ok tables') :
    tables' = evidenceTable.put (evidenceTable.rows tables ++
      [evidenceColumns forms evidence]) tables := by
  unfold Tables.addEvidence at h
  split at h
  · cases h
  · split at h
    · cases h
    · obtain ⟨snapshot, -, h⟩ := except_bind_ok.mp h
      split_ifs at h
      obtain ⟨_, -, h⟩ := except_bind_ok.mp h
      obtain ⟨_, -, h⟩ := except_bind_ok.mp h
      obtain ⟨_, -, h⟩ := except_bind_ok.mp h
      obtain ⟨_, -, h⟩ := except_bind_ok.mp h
      exact execute_ok h

theorem appendLifecycle_inserts {event : LifecycleEvent}
    (h : tables.appendLifecycle forms event = .ok tables') :
    tables' = lifecycleTable.put (lifecycleTable.rows tables ++
      [lifecycleColumns forms event]) tables := by
  obtain ⟨_, -, h⟩ := except_bind_ok.mp h
  obtain ⟨_, -, h⟩ := except_bind_ok.mp h
  exact execute_ok h

theorem addAssertions_insert {assertions : List Assertion}
    (h : assertions.foldlM (Tables.addAssertion forms) tables = .ok tables') :
    tables' = { tables with
      assertions := tables.assertions ++ assertions.map (assertionColumns forms)
      assertionEvidence := tables.assertionEvidence ++ assertions.flatMap linkColumns } := by
  induction assertions generalizing tables with
  | nil =>
    obtain rfl := Except.ok.inj h
    simp
  | cons assertion assertions ih =>
    obtain ⟨next, hnext, hrest⟩ := except_bind_ok.mp h
    obtain ⟨inserted, hinserted, hlinks⟩ := except_bind_ok.mp hnext
    obtain rfl := execute_ok hinserted
    obtain rfl := executemany_ok hlinks
    rw [ih hrest, List.map_cons, List.flatMap_cons]
    simp [assertionTable, assertionEvidenceTable]

theorem load_ok {packet : GateAPacket unicode}
    (h : tables.load unicode forms contentSha256 metadata packet = .ok tables') :
    ∃ methodologyVersions taxonomyVersions, tables'.Seeded metadata ∧
      tables' =
        { methodologyVersions
          taxonomyVersions
          vendors := tables.vendors ++ packet.vendors.map vendorColumns
          systems := tables.systems ++ packet.systems.map systemColumns
          agents := tables.agents ++ packet.agents.map agentColumns
          capabilities := tables.capabilities ++ packet.capabilities.map capabilityColumns
          controls := tables.controls ++ packet.controls.map controlColumns
          architecturePatterns :=
            tables.architecturePatterns ++
              packet.architecturePatterns.map architecturePatternColumns
          models := tables.models ++ packet.models.map modelColumns
          harnesses := tables.harnesses ++ packet.harnesses.map harnessColumns
          benchmarks := tables.benchmarks ++ packet.benchmarks.map benchmarkColumns
          sources := tables.sources ++ packet.sources.map (sourceColumns forms)
          sourceProvenance := tables.sourceProvenance ++
            packet.provenanceEdges.map provenanceColumns
          snapshots := tables.snapshots ++ packet.snapshots.map snapshotColumns
          evidence := tables.evidence ++ packet.evidence.map (evidenceColumns forms)
          assertions := tables.assertions ++ packet.assertions.map (assertionColumns forms)
          assertionEvidence := tables.assertionEvidence ++ packet.assertions.flatMap linkColumns
          observations := tables.observations ++ packet.observations.map (observationColumns forms)
          lifecycleEvents := tables.lifecycleEvents ++
            packet.lifecycleEvents.map (lifecycleColumns forms)
          autonomyAssessments :=
            tables.autonomyAssessments ++ packet.autonomyAssessments.map (autonomyColumns forms)
          benchmarkResults :=
            tables.benchmarkResults ++ packet.benchmarkResults.map (benchmarkResultColumns forms)
          materialChangeExamples :=
            tables.materialChangeExamples ++ packet.materialChanges.map (exampleColumns forms)
          reviews := tables.reviews } := by
  unfold Tables.load at h
  split_ifs at h
  obtain ⟨seeded, hseeded, h⟩ := except_bind_ok.mp h
  obtain ⟨methodologies, taxonomies, -, -, -, rfl, hmetadata⟩ :=
    applyAuthoritativeMetadata_ok hseeded
  obtain ⟨_, hvendors, h⟩ := except_bind_ok.mp h
  obtain rfl := executemany_ok hvendors
  obtain ⟨_, hsystems, h⟩ := except_bind_ok.mp h
  obtain rfl := executemany_ok hsystems
  obtain ⟨_, hagents, h⟩ := except_bind_ok.mp h
  obtain rfl := executemany_ok hagents
  obtain ⟨_, hcapabilities, h⟩ := except_bind_ok.mp h
  obtain rfl := executemany_ok hcapabilities
  obtain ⟨_, hcontrols, h⟩ := except_bind_ok.mp h
  obtain rfl := executemany_ok hcontrols
  obtain ⟨_, hpatterns, h⟩ := except_bind_ok.mp h
  obtain rfl := executemany_ok hpatterns
  obtain ⟨_, hmodels, h⟩ := except_bind_ok.mp h
  obtain rfl := executemany_ok hmodels
  obtain ⟨_, hharnesses, h⟩ := except_bind_ok.mp h
  obtain rfl := executemany_ok hharnesses
  obtain ⟨_, hbenchmarks, h⟩ := except_bind_ok.mp h
  obtain rfl := executemany_ok hbenchmarks
  obtain ⟨_, hsources, h⟩ := except_bind_ok.mp h
  obtain rfl := Sql.foldlM_put _ (fun _ _ _ hadd ↦ execute_ok hadd) hsources
  obtain ⟨_, hprovenance, h⟩ := except_bind_ok.mp h
  obtain rfl := executemany_ok hprovenance
  obtain ⟨_, hsnapshots, h⟩ := except_bind_ok.mp h
  obtain rfl := Sql.foldlM_put _ (fun _ _ _ hadd ↦ execute_ok hadd) hsnapshots
  obtain ⟨_, hevidence, h⟩ := except_bind_ok.mp h
  obtain rfl := Sql.foldlM_put _ (fun _ _ _ hadd ↦ addEvidence_inserts hadd) hevidence
  obtain ⟨_, hassertions, h⟩ := except_bind_ok.mp h
  obtain rfl := addAssertions_insert hassertions
  obtain ⟨_, hobservations, h⟩ := except_bind_ok.mp h
  obtain rfl := Sql.foldlM_put _ (fun _ _ _ hadd ↦ execute_ok hadd) hobservations
  obtain ⟨_, hlifecycle, h⟩ := except_bind_ok.mp h
  obtain rfl := Sql.foldlM_put _ (fun _ _ _ hadd ↦ appendLifecycle_inserts hadd) hlifecycle
  obtain ⟨_, hautonomy, h⟩ := except_bind_ok.mp h
  obtain rfl := executemany_ok hautonomy
  obtain ⟨_, hresults, h⟩ := except_bind_ok.mp h
  obtain rfl := executemany_ok hresults
  obtain rfl := executemany_ok h
  exact ⟨methodologies, taxonomies,
    ⟨hmetadata.known, hmetadata.taxonomies, hmetadata.only, hmetadata.methodology⟩, rfl⟩

def packetLedger (packet : GateAPacket unicode) : Ledger where
  vendors := packet.vendors
  systems := packet.systems
  agents := packet.agents
  capabilities := packet.capabilities
  sources := packet.sources.map sourceRow
  snapshots := packet.snapshots
  evidence := packet.evidence.map evidenceRow
  assertions := packet.assertions
  observations := packet.observations
  lifecycleEvents := packet.lifecycleEvents
  autonomyAssessments := packet.autonomyAssessments

theorem packetLedger_sources (packet : GateAPacket unicode) :
    (packetLedger packet).sources.map SourceRow.payload = packet.sources := by
  have hpayload : SourceRow.payload ∘ sourceRow = id := rfl
  rw [packetLedger, List.map_map, hpayload, List.map_id]

theorem packetLedger_evidence (packet : GateAPacket unicode) :
    (packetLedger packet).evidence.map EvidenceRow.payload = packet.evidence := by
  have hpayload : EvidenceRow.payload ∘ evidenceRow = id := rfl
  rw [packetLedger, List.map_map, hpayload, List.map_id]

theorem packetLedger_valid (packet : GateAPacket unicode) :
    (packetLedger packet).Valid unicode packet.controls packet.architecturePatterns := by
  have hids := packet.taxonomyIds
  simp only [List.forall_mem_append, List.forall_mem_map] at hids
  obtain ⟨⟨hcapabilities, hcontrols⟩, hpatterns⟩ := hids
  exact ⟨packet.agentNames, hcapabilities, hcontrols, hpatterns⟩

theorem taxonomyVersion_isOk (h : tables.Seeded metadata) :
    ∃ version, tables.taxonomyVersion = .ok version := by
  have hfound := h.taxonomies metadata.currentTaxonomy (List.getLast_mem metadata.nonempty)
  have hmem :=
    (orderBy_perm (fun row ↦ [row.publishedAt, row.id]) tables.taxonomyVersions).mem_iff.mpr
    (List.mem_of_find?_eq_some hfound)
  obtain ⟨last, hlast⟩ :=
    Option.ne_none_iff_exists'.mp (mt List.getLast?_eq_none_iff.mp (List.ne_nil_of_mem hmem))
  exact ⟨last.id, by rw [Tables.taxonomyVersion, hlast]⟩

theorem methodologyVersion_isOk (h : tables.Seeded metadata) :
    ∃ version, tables.methodologyVersion = .ok version := by
  have hmem :=
    (orderBy_perm (fun row ↦ [row.publishedAt, row.id]) tables.methodologyVersions).mem_iff.mpr
    (List.mem_of_find?_eq_some h.methodology)
  obtain ⟨last, hlast⟩ :=
    Option.ne_none_iff_exists'.mp (mt List.getLast?_eq_none_iff.mp (List.ne_nil_of_mem hmem))
  exact ⟨last.id, by rw [Tables.methodologyVersion, hlast]⟩

def Tables.MetadataOnly (tables : Tables) : Prop :=
  ∃ methodologyVersions taxonomyVersions, tables = { methodologyVersions, taxonomyVersions }

theorem load_represents {packet : GateAPacket unicode} (honly : tables.MetadataOnly)
    (h : tables.load unicode forms contentSha256 metadata packet = .ok tables') :
    tables'.Seeded metadata ∧
      Represents forms tables' (packetLedger packet) packet.controls
        packet.architecturePatterns := by
  obtain ⟨_, _, rfl⟩ := honly
  obtain ⟨methodologies, taxonomies, hseeded, htables⟩ := load_ok h
  refine ⟨hseeded, ?_⟩
  subst htables
  constructor
  case sources => rw [packetLedger_sources]; rfl
  case evidence => rw [packetLedger_evidence]; rfl
  all_goals rfl

/-- What the publication reads is what the packet brought. -/
structure Survives (packet : GateAPacket unicode) (data : LedgerData) : Prop where
  vendors : OrderedBy Vendor.id packet.vendors data.vendors
  systems : OrderedBy System.id packet.systems data.systems
  agents : OrderedBy Agent.id packet.agents data.agents
  capabilities : OrderedBy Capability.id packet.capabilities data.capabilities
  controls : OrderedBy Control.id packet.controls data.controls
  architecturePatterns :
    OrderedBy ArchitecturePattern.id packet.architecturePatterns data.architecturePatterns
  sources : data.sources = packet.sources
  evidence : data.evidence = packet.evidence
  assertions : data.assertions = packet.assertions
  lifecycleEvents : data.lifecycleEvents = packet.lifecycleEvents
  autonomyAssessments : data.autonomyAssessments = packet.autonomyAssessments
  observations : data.observations.Perm (packet.observations.filter (·.accepted))

theorem packet_survives (unicode : UnicodeData) (forms : TextForms)
    (contentSha256 : String → Sha256) (metadata : AuthoritativeMetadata)
    (packet : GateAPacket unicode) (tables tables' : Tables)
    (hforms : forms.Inverse (packetLedger packet)) (honly : tables.MetadataOnly)
    (hload : tables.load unicode forms contentSha256 metadata packet = .ok tables') :
    ∃ data, tables'.publicationData unicode forms metadata = .ok data ∧ Survives packet data := by
  obtain ⟨hseeded, hrep⟩ := load_represents honly hload
  obtain ⟨taxonomyVersion, htaxonomy⟩ := taxonomyVersion_isOk hseeded
  obtain ⟨methodologyVersion, hmethodology⟩ := methodologyVersion_isOk hseeded
  have hdata :=
    publicationData_represents hrep hforms (packetLedger_valid packet)
    (hseeded.verified false) htaxonomy
    hmethodology
  refine ⟨_, hdata, ?_⟩
  exact {
    vendors := orderBy_ordered _ _
    systems := orderBy_ordered _ _
    agents := orderBy_ordered _ _
    capabilities := orderBy_ordered _ _
    controls := orderBy_ordered _ _
    architecturePatterns := orderBy_ordered _ _
    sources := packetLedger_sources packet
    evidence := packetLedger_evidence packet
    assertions := rfl
    lifecycleEvents := rfl
    autonomyAssessments := rfl
    observations := orderBy_perm _ _ }

def sampleTime : Datetime := .midnight sampleDay

def JsonForm.ofText {α : Type} (value : α) (text : String) : JsonForm α where
  dump _ := text
  parse other := if other = text then some value else none

theorem JsonForm.ofText_parse {α : Type} (value : α) (text : String) :
    (JsonForm.ofText value text).parse ((JsonForm.ofText value text).dump value) = some value :=
  if_pos rfl

def guideAssertion : Assertion where
  id := { text := "ASRT-GUIDE" }
  assertionKey := "guide-system:_system:alert-triage:performs:alerts"
  taxonomyVersion := "ASI-TAXONOMY-1.1"
  systemId := "guide-system"
  slots :=
    { system := "guide-system", subjectType := .capability, subject := "alert-triage",
             action := "performs", object := "alerts" }
  statement := "The agent triages alerts."
  canonicalRendering := "guide-system performs alert-triage on alerts"
  state := .affirmed
  supportConfidence := .medium
  supportConfidenceRationale := ""
  firstSeenAt := sampleTime
  retrievedAt := sampleTime
  lastSeenAt := sampleTime
  firstObservedAt := sampleTime
  lastVerifiedAt := sampleTime
  methodologyVersion := "ASI-1.0"
  evidenceIds := [guideEvidence.id]

def guideObservation (id : ObservationId) (accepted : Bool) : Observation where
  id := id
  assertionId := guideAssertion.id
  evidenceId := guideEvidence.id
  observedStatement := "The agent triages alerts."
  observedAt := sampleTime
  firstSeenAt := sampleTime
  retrievedAt := sampleTime
  lastSeenAt := sampleTime
  lastVerifiedAt := sampleTime
  accepted := accepted

def guideEvent : LifecycleEvent where
  id := { text := "LIFE-GUIDE" }
  systemId := some "guide-system"
  state := .ga
  effectiveAt := none
  evidenceId := guideEvidence.id
  sourceClass := .p1
  retrievedAt := sampleTime
  rationale := ""

def guidePacket : GateAPacket asciiData where
  taxonomyVersion := "ASI-TAXONOMY-1.1"
  methodologyVersion := "ASI-1.0"
  vendors := [{ id := "vendor-b", name := "B", website := "https://b.example/" },
    { id := "vendor-a", name := "A", website := "https://a.example/" }]
  systems := [{ id := "guide-system", vendorId := "vendor-a", name := "Guide", category := "soc", description := "",
                firstObservedAt := sampleTime, lastVerifiedAt := sampleTime }]
  agents :=
    [{ id := "guide-agent", systemId := "guide-system", name := "Triage agent", category := "soc",
               description := "", firstObservedAt := sampleTime, lastVerifiedAt := sampleTime }]
  capabilities := [{ id := "alert-triage", name := "Triage", description := "",
                     taxonomyVersion := "ASI-TAXONOMY-1.1" }]
  controls :=
    [{ id := "approval", name := "Approval", description := "",
        taxonomyVersion := "ASI-TAXONOMY-1.1" }]
  sources := [guideSource {.documentation}]
  snapshots := [guideSnapshot]
  evidence := [guideEvidence]
  assertions := [guideAssertion]
  observations :=
    [guideObservation { text := "OBS-GUIDE" } true,
      guideObservation { text := "OBS-REFUSED" } false]
  lifecycleEvents := [guideEvent]

def guideForms : TextForms where
  parseDatetime text := if text = sampleTime.isoformat then some sampleTime else none
  parseMoment text := if text = sampleTime.isoformat then some (.aware sampleTime) else none
  parseUrl := some
  source := .ofText (guideSource {.documentation})
    ("\x7b\"id\":\"SRC-GUIDE\",\"publisher\":\"Publisher\",\"name\":\"Guide\",\"kind\":\"FIXTURE\"," ++
      "\"role\":\"INPUT\",\"domains\":[],\"base_url\":null,\"repository\":null,\"trust_class\":\"OFFICIAL\"," ++
      "\"status\":\"APPROVED\",\"enabled\":true,\"policy\":\x7b\"allowed_claim_types\":[\"capability\"]," ++
      "\"prohibited_claim_types\":[],\"allowed_claim_purposes\":[\"DOCUMENTATION\"]," ++
      "\"prohibited_claim_purposes\":[],\"crawl_frequency\":\"weekly\",\"human_approval_required\":true," ++
      "\"usable_as_independent_evidence\":true\x7d,\"pinned_at\":\"2026-01-01\",\"fallback_note\":\"\"," ++
      "\"derivative_of_hints\":[],\"notes\":\"\"\x7d")
  evidence := .ofText guideEvidence
    ("\x7b\"id\":\"EV-GUIDE\",\"source_id\":\"SRC-GUIDE\",\"source_class\":\"P1\",\"maturity\":\"E1\"," ++
      "\"claim_purpose\":\"DOCUMENTATION\",\"anchor\":\x7b\"snapshot_id\":\"SNAP-GUIDE\"," ++
      "\"snapshot_sha256\":\"4b617f552548ddf88148b42ddfe0b7c0839e1ad01544262c772b425834042e24\"," ++
      "\"normalizer_version\":\"norm-1.0\",\"document_path\":\"guide\",\"document_heading\":\"Triage\"," ++
      "\"quote\":\"The agent triages alerts.\",\"start_offset\":0,\"end_offset\":25,\"repository\":null," ++
      "\"commit_sha\":null,\"file_path\":null,\"line_start\":null,\"line_end\":null\x7d,\"published_at\":null," ++
      "\"modified_at\":null,\"first_seen_at\":\"2026-01-01T00:00:00Z\",\"retrieved_at\":\"2026-01-01T00:00:00Z\"," ++
      "\"last_seen_at\":\"2026-01-01T00:00:00Z\",\"last_verified_at\":\"2026-01-01T00:00:00Z\"," ++
      "\"effective_at\":null,\"independence_facets\":null,\"derivative_of_evidence_id\":null\x7d")
  assertion := .ofText guideAssertion
    ("\x7b\"id\":\"ASRT-GUIDE\",\"assertion_key\":\"guide-system:_system:alert-triage:performs:alerts\"," ++
      "\"taxonomy_version\":\"ASI-TAXONOMY-1.1\",\"system_id\":\"guide-system\",\"agent_id\":null," ++
      "\"slots\":\x7b\"system\":\"guide-system\",\"agent\":null,\"subject_type\":\"capability\"," ++
      "\"subject\":\"alert-triage\",\"action\":\"performs\",\"object\":\"alerts\",\"scope_key\":\"default\"\x7d," ++
      "\"statement\":\"The agent triages alerts.\"," ++
      "\"canonical_rendering\":\"guide-system performs alert-triage on alerts\",\"state\":\"AFFIRMED\"," ++
      "\"support_confidence\":\"MEDIUM\",\"support_confidence_rationale\":\"\",\"published_at\":null," ++
      "\"modified_at\":null,\"first_seen_at\":\"2026-01-01T00:00:00Z\",\"retrieved_at\":\"2026-01-01T00:00:00Z\"," ++
      "\"last_seen_at\":\"2026-01-01T00:00:00Z\",\"first_observed_at\":\"2026-01-01T00:00:00Z\"," ++
      "\"last_verified_at\":\"2026-01-01T00:00:00Z\",\"effective_at\":null,\"methodology_version\":\"ASI-1.0\"," ++
      "\"evidence_ids\":[\"EV-GUIDE\"],\"contradicting_evidence_ids\":[],\"superseded_by\":null\x7d")
  scope := .ofText {}
    "\x7b\"license_tier\":\"unknown\",\"availability\":\"UNKNOWN\",\"regions\":[],\"conditions\":[]\x7d"
  modifiers := .ofText {}
    "\x7b\"regions\":[],\"conditions\":[]\x7d"
  autonomyAssessment := ⟨fun _ ↦ "", fun _ ↦ none⟩
  benchmarkResult := ⟨fun _ ↦ "", fun _ ↦ none⟩
  materialChange := ⟨fun _ ↦ "", fun _ ↦ none⟩

def guideMetadata : AuthoritativeMetadata where
  methodology :=
    { id := "ASI-1.0", publishedAt := .aware sampleTime, description := "",
        normalizerVersion := "norm-1.0" }
  taxonomies :=
    [{ id := "ASI-TAXONOMY-1.1", publishedAt := .aware sampleTime, payload := "\x7b\x7d" }]

set_option maxRecDepth 4000 in
theorem guide_loaded :
    (({} : Tables).load asciiData guideForms triageSha256 guideMetadata guidePacket).isOk = true := by
  decide +kernel

theorem guide_inverse : guideForms.Inverse (packetLedger guidePacket) := by
  constructor
  case times =>
    unfold TextForms.ReadsTimes
    decide
  case moments => decide
  case urls => exact fun _ _ ↦ rfl
  case sources =>
    rw [packetLedger_sources]
    exact List.forall_mem_singleton.mpr (JsonForm.ofText_parse _ _)
  case evidence =>
    rw [packetLedger_evidence]
    exact List.forall_mem_singleton.mpr (JsonForm.ofText_parse _ _)
  case assertions => exact List.forall_mem_singleton.mpr (JsonForm.ofText_parse _ _)
  case scopes =>
    exact List.forall_mem_cons.mpr
      ⟨JsonForm.ofText_parse _ _, List.forall_mem_singleton.mpr (JsonForm.ofText_parse _ _)⟩
  case modifiers => exact List.forall_mem_singleton.mpr (JsonForm.ofText_parse _ _)
  case autonomyAssessments => exact fun _ hitem ↦ absurd hitem List.not_mem_nil

theorem packet_survives_guide : ∃ tables' data,
    ({} : Tables).load asciiData guideForms triageSha256 guideMetadata guidePacket = .ok tables' ∧
      tables'.publicationData asciiData guideForms guideMetadata = .ok data ∧
      Survives guidePacket data := by
  have hloaded := guide_loaded
  cases hload : ({} : Tables).load asciiData guideForms triageSha256 guideMetadata guidePacket with
  | error e =>
    rw [hload] at hloaded
    cases hloaded
  | ok tables' =>
    obtain ⟨data, hdata, hsurvives⟩ :=
      packet_survives asciiData guideForms triageSha256 guideMetadata guidePacket {}
      tables' guide_inverse ⟨[], [], rfl⟩ hload
    exact ⟨tables', data, rfl, hdata, hsurvives⟩

end AgenticSecurity.Storage
