import AgenticSecurity.Storage.PacketStore
import AgenticSecurity.Storage.Repositories

namespace AgenticSecurity.Storage

open Library Models Python Runs

variable {unicode : UnicodeData} {forms : TextForms} {metadata : AuthoritativeMetadata}
  {tables : Tables} {ledger : Ledger}

section Reads

variable {ρ α : Type}

structure OrderedBy (key : α → String) (items read : List α) : Prop where
  same : read.Perm items
  ordered : read.Pairwise fun a b ↦ key a ≤ key b

theorem textsBefore_singleton {a b : String} : textsBefore [a] [b] = true ↔ a ≤ b := by
  simp [textsBefore, le_iff_lt_or_eq]

theorem orderBy_perm (columns : ρ → List String) (rows : List ρ) :
    (orderBy columns rows).Perm rows :=
  List.perm_insertionSort _ rows

theorem orderBy_ordered (key : α → String) (items : List α) :
    OrderedBy key items (orderBy (fun item ↦ [key item]) items) := by
  refine ⟨orderBy_perm _ items, ?_⟩
  have htotal : Std.Total fun a b : α ↦ textsBefore [key a] [key b] = true :=
    ⟨fun a b ↦ by simpa only [textsBefore_singleton] using le_total (key a) (key b)⟩
  have htrans : IsTrans α fun a b ↦ textsBefore [key a] [key b] = true :=
    ⟨fun a b c ↦ by simpa only [textsBefore_singleton] using le_trans⟩
  have hsorted :=
    List.pairwise_insertionSort (fun a b : α ↦ textsBefore [key a] [key b] = true) items
  exact hsorted.imp textsBefore_singleton.mp

theorem orderBy_map (columns : ρ → List String) (columns' : α → List String) {write : α → ρ}
    (hcolumns : ∀ item, columns (write item) = columns' item) (items : List α) :
    orderBy columns (items.map write) = (orderBy columns' items).map write := by
  refine (List.map_insertionSort _ _ write items fun a _ b _ ↦ ?_).symm
  rw [hcolumns, hcolumns]

theorem readOrdered_map {columns : ρ → List String} {columns' : α → List String}
    {read : ρ → Option α} {write : α → ρ} {items : List α}
    (hcolumns : ∀ item, columns (write item) = columns' item)
    (h : ∀ item ∈ items, read (write item) = some item) :
    readOrdered columns read (items.map write) = .ok (orderBy columns' items) := by
  rw [readOrdered, orderBy_map columns columns' hcolumns]
  refine Sql.readAll_map fun item hitem ↦ ?_
  rw [h item ((orderBy_perm columns' items).mem_iff.mp hitem), validated]

theorem payloads_map {payload : ρ → String} {form : JsonForm α} {write : α → ρ} {items : List α}
    (hpayload : ∀ item, payload (write item) = form.dump item)
    (h : ∀ item ∈ items, form.parse (form.dump item) = some item) :
    payloads payload form (items.map write) = .ok items := by
  refine Sql.readAll_map fun item hitem ↦ ?_
  rw [hpayload, h item hitem, validated]

end Reads

def Ledger.columnTimes (ledger : Ledger) : List Datetime :=
  ledger.systems.flatMap systemTimes ++ ledger.agents.flatMap agentTimes ++
    ledger.observations.flatMap observationTimes ++ ledger.lifecycleEvents.flatMap lifecycleTimes

/-- On the values of the ledger, parsing is the inverse of formatting and of dumping. -/
structure TextForms.Inverse (forms : TextForms) (ledger : Ledger) : Prop where
  times : forms.ReadsTimes ledger.columnTimes
  moments :
    ∀ item ∈ ledger.lifecycleEvents, ∀ t ∈ item.effectiveAt, forms.parseMoment t.isoformat = some t
  urls : ∀ item ∈ ledger.vendors, forms.parseUrl item.website = some item.website
  sources :
    ∀ item ∈ ledger.sources.map SourceRow.payload,
    forms.source.parse (forms.source.dump item) = some item
  evidence : ∀ item ∈ ledger.evidence.map EvidenceRow.payload,
    forms.evidence.parse (forms.evidence.dump item) = some item
  assertions :
    ∀ item ∈ ledger.assertions, forms.assertion.parse (forms.assertion.dump item) = some item
  scopes :
    ∀ item ∈ ledger.observations, forms.scope.parse (forms.scope.dump item.scope) = some item.scope
  modifiers : ∀ item ∈ ledger.lifecycleEvents,
    forms.modifiers.parse (forms.modifiers.dump item.modifiers) = some item.modifiers
  autonomyAssessments : ∀ item ∈ ledger.autonomyAssessments,
    forms.autonomyAssessment.parse (forms.autonomyAssessment.dump item) = some item

structure Ledger.Valid (unicode : UnicodeData) (ledger : Ledger) (controls : List Control)
    (architecturePatterns : List ArchitecturePattern) : Prop where
  agentNames : ∀ item ∈ ledger.agents, item.reserveSystemSentinel unicode = none
  capabilities : ∀ item ∈ ledger.capabilities, isTaxonomyId unicode item.taxonomyVersion = true
  controls : ∀ item ∈ controls, isTaxonomyId unicode item.taxonomyVersion = true
  architecturePatterns :
    ∀ item ∈ architecturePatterns, isTaxonomyId unicode item.taxonomyVersion = true

structure Represents (forms : TextForms) (tables : Tables) (ledger : Ledger)
    (controls : List Control) (architecturePatterns : List ArchitecturePattern) : Prop where
  vendors : tables.vendors = ledger.vendors.map vendorColumns
  systems : tables.systems = ledger.systems.map systemColumns
  agents : tables.agents = ledger.agents.map agentColumns
  capabilities : tables.capabilities = ledger.capabilities.map capabilityColumns
  controls : tables.controls = controls.map controlColumns
  architecturePatterns : tables.architecturePatterns =
    architecturePatterns.map architecturePatternColumns
  sources : tables.sources = (ledger.sources.map SourceRow.payload).map (sourceColumns forms)
  snapshots : tables.snapshots = ledger.snapshots.map snapshotColumns
  evidence : tables.evidence = (ledger.evidence.map EvidenceRow.payload).map (evidenceColumns forms)
  assertions : tables.assertions = ledger.assertions.map (assertionColumns forms)
  observations : tables.observations = ledger.observations.map (observationColumns forms)
  lifecycleEvents : tables.lifecycleEvents = ledger.lifecycleEvents.map (lifecycleColumns forms)
  autonomyAssessments : tables.autonomyAssessments =
    ledger.autonomyAssessments.map (autonomyColumns forms)
  candidates : tables.reviews.structuredDiffs = ledger.structuredDiffs
  reviews : tables.reviews.changeReviewQueue = ledger.changeReviewQueue
  changes : tables.reviews.confirmedChanges = ledger.confirmedChanges
  conflicts : tables.reviews.contradictionFlags = ledger.contradictionFlags

section Represented

variable {controls : List Control} {architecturePatterns : List ArchitecturePattern}

theorem TextForms.Inverse.mem_times (hforms : forms.Inverse ledger) {times : List Datetime}
    (h : times ⊆ ledger.columnTimes) : forms.ReadsTimes times := fun t ht ↦ hforms.times t (h ht)

theorem readVendors (hrep : Represents forms tables ledger controls architecturePatterns)
    (hforms : forms.Inverse ledger) :
    readOrdered (fun row ↦ [row.id]) (VendorColumns.vendor forms) tables.vendors =
      .ok (orderBy (fun item ↦ [item.id]) ledger.vendors) := by
  rw [hrep.vendors]
  exact readOrdered_map (fun _ ↦ rfl) fun item hitem ↦ vendor_readBack (hforms.urls item hitem)

theorem readSystems (hrep : Represents forms tables ledger controls architecturePatterns)
    (hforms : forms.Inverse ledger) :
    readOrdered (fun row ↦ [row.id]) (SystemColumns.system forms) tables.systems =
      .ok (orderBy (fun item ↦ [item.id]) ledger.systems) := by
  rw [hrep.systems]
  refine readOrdered_map (fun _ ↦ rfl)
    fun item hitem ↦ system_readBack (hforms.mem_times fun t ht ↦ ?_)
  have hmem : t ∈ ledger.systems.flatMap systemTimes := List.mem_flatMap.mpr ⟨item, hitem, ht⟩
  simp [Ledger.columnTimes, hmem]

theorem readAgents (hrep : Represents forms tables ledger controls architecturePatterns)
    (hforms : forms.Inverse ledger) (hvalid : ledger.Valid unicode controls architecturePatterns) :
    readOrdered (fun row ↦ [row.id]) (AgentColumns.agent unicode forms) tables.agents =
      .ok (orderBy (fun item ↦ [item.id]) ledger.agents) := by
  rw [hrep.agents]
  refine readOrdered_map (fun _ ↦ rfl) fun item hitem ↦
    agent_readBack (hforms.mem_times fun t ht ↦ ?_) (hvalid.agentNames item hitem)
  have hmem : t ∈ ledger.agents.flatMap agentTimes := List.mem_flatMap.mpr ⟨item, hitem, ht⟩
  simp [Ledger.columnTimes, hmem]

theorem readCapabilities (hrep : Represents forms tables ledger controls architecturePatterns)
    (hvalid : ledger.Valid unicode controls architecturePatterns) :
    readOrdered (fun row ↦ [row.id]) (TermColumns.capability unicode) tables.capabilities =
      .ok (orderBy (fun item ↦ [item.id]) ledger.capabilities) := by
  rw [hrep.capabilities]
  exact readOrdered_map (fun _ ↦ rfl)
    fun item hitem ↦ capability_readBack (hvalid.capabilities item hitem)

theorem readControls (hrep : Represents forms tables ledger controls architecturePatterns)
    (hvalid : ledger.Valid unicode controls architecturePatterns) :
    readOrdered (fun row ↦ [row.id]) (TermColumns.control unicode) tables.controls =
      .ok (orderBy (fun item ↦ [item.id]) controls) := by
  rw [hrep.controls]
  exact readOrdered_map (fun _ ↦ rfl) fun item hitem ↦ control_readBack (hvalid.controls item hitem)

theorem readArchitecturePatterns
    (hrep : Represents forms tables ledger controls architecturePatterns)
    (hvalid : ledger.Valid unicode controls architecturePatterns) :
    readOrdered (fun row ↦ [row.id]) (TermColumns.architecturePattern unicode)
      tables.architecturePatterns =
      .ok (orderBy (fun item ↦ [item.id]) architecturePatterns) := by
  rw [hrep.architecturePatterns]
  exact readOrdered_map (fun _ ↦ rfl) fun item hitem ↦
    architecturePattern_readBack (hvalid.architecturePatterns item hitem)

theorem accepted_rows (observations : List Observation) :
    (observations.map (observationColumns forms)).filter (·.accepted = 1) =
      (observations.filter (·.accepted)).map (observationColumns forms) := by
  rw [List.filter_map]
  refine congrArg (List.map _) (List.filter_congr fun item _ ↦ ?_)
  cases haccepted : item.accepted <;> simp [observationColumns, haccepted]

theorem readObservations (hrep : Represents forms tables ledger controls architecturePatterns)
    (hforms : forms.Inverse ledger) :
    tables.acceptedObservations forms = .ok ledger.acceptedObservations := by
  rw [Tables.acceptedObservations, hrep.observations, accepted_rows]
  refine readOrdered_map (fun _ ↦ rfl) fun item hitem ↦ ?_
  have hitem' : item ∈ ledger.observations := List.mem_of_mem_filter hitem
  refine observation_readBack (hforms.mem_times fun t ht ↦ ?_) (hforms.scopes item hitem')
  have hmem : t ∈ ledger.observations.flatMap observationTimes :=
    List.mem_flatMap.mpr ⟨item, hitem', ht⟩
  simp [Ledger.columnTimes, hmem]

theorem readLifecycle (hrep : Represents forms tables ledger controls architecturePatterns)
    (hforms : forms.Inverse ledger) : tables.lifecycle forms = .ok ledger.lifecycleEvents := by
  rw [Tables.lifecycle, hrep.lifecycleEvents]
  refine Sql.readAll_map fun item hitem ↦ ?_
  have htimes : forms.ReadsTimes (lifecycleTimes item) := by
    refine hforms.mem_times fun t ht ↦ ?_
    have hmem : t ∈ ledger.lifecycleEvents.flatMap lifecycleTimes :=
      List.mem_flatMap.mpr ⟨item, hitem, ht⟩
    simp [Ledger.columnTimes, hmem]
  rw [lifecycle_readBack htimes (hforms.moments item hitem) (hforms.modifiers item hitem),
    validated]

theorem publicationData_represents {taxonomyVersion methodologyVersion : String}
    (hrep : Represents forms tables ledger controls architecturePatterns)
    (hforms : forms.Inverse ledger)
    (hvalid : ledger.Valid unicode controls architecturePatterns)
    (hmetadata : tables.applyAuthoritativeMetadata unicode metadata false = .ok tables)
    (htaxonomy : tables.taxonomyVersion = .ok taxonomyVersion)
    (hmethodology : tables.methodologyVersion = .ok methodologyVersion) :
    tables.publicationData unicode forms metadata = .ok
      { taxonomyVersion
        methodologyVersion
        methodologyPublishedAt := metadata.methodology.publishedAt.datetime
        vendors := orderBy (fun item ↦ [item.id]) ledger.vendors
        systems := orderBy (fun item ↦ [item.id]) ledger.systems
        agents := orderBy (fun item ↦ [item.id]) ledger.agents
        capabilities := orderBy (fun item ↦ [item.id]) ledger.capabilities
        controls := orderBy (fun item ↦ [item.id]) controls
        architecturePatterns := orderBy (fun item ↦ [item.id]) architecturePatterns
        sources := ledger.sources.map SourceRow.payload
        evidence := ledger.evidence.map EvidenceRow.payload
        assertions := ledger.assertions
        observations := ledger.acceptedObservations
        lifecycleEvents := ledger.lifecycleEvents
        autonomyAssessments := ledger.autonomyAssessments
        candidates := ledger.candidates
        confirmedChanges := ledger.confirmedChangePayloads
        changeReviews := ledger.confirmedChangeReviews
        conflicts := ledger.conflicts
        latestReviewDecisions := ledger.latestReviews } := by
  have hsources : payloads (·.payloadJson) forms.source tables.sources =
      .ok (ledger.sources.map SourceRow.payload) := by
    rw [hrep.sources]
    exact payloads_map (fun _ ↦ rfl) hforms.sources
  have hevidence : payloads (·.payloadJson) forms.evidence tables.evidence =
      .ok (ledger.evidence.map EvidenceRow.payload) := by
    rw [hrep.evidence]
    exact payloads_map (fun _ ↦ rfl) hforms.evidence
  have hassertions : payloads (·.payloadJson) forms.assertion tables.assertions =
      .ok ledger.assertions := by
    rw [hrep.assertions]
    exact payloads_map (fun _ ↦ rfl) hforms.assertions
  have hautonomy : payloads (·.payloadJson) forms.autonomyAssessment tables.autonomyAssessments =
      .ok ledger.autonomyAssessments := by
    rw [hrep.autonomyAssessments]
    exact payloads_map (fun _ ↦ rfl) hforms.autonomyAssessments
  -- the queries in the order in which the read model makes them
  unfold Tables.publicationData
  refine except_bind_ok.mpr ⟨_, hmetadata, ?_⟩
  refine except_bind_ok.mpr ⟨_, readSystems hrep hforms, ?_⟩
  refine except_bind_ok.mpr ⟨_, htaxonomy, ?_⟩
  refine except_bind_ok.mpr ⟨_, hmethodology, ?_⟩
  refine except_bind_ok.mpr ⟨_, readVendors hrep hforms, ?_⟩
  refine except_bind_ok.mpr ⟨_, readAgents hrep hforms hvalid, ?_⟩
  refine except_bind_ok.mpr ⟨_, readCapabilities hrep hvalid, ?_⟩
  refine except_bind_ok.mpr ⟨_, readControls hrep hvalid, ?_⟩
  refine except_bind_ok.mpr ⟨_, readArchitecturePatterns hrep hvalid, ?_⟩
  refine except_bind_ok.mpr ⟨_, hsources, ?_⟩
  refine except_bind_ok.mpr ⟨_, hevidence, ?_⟩
  refine except_bind_ok.mpr ⟨_, hassertions, ?_⟩
  refine except_bind_ok.mpr ⟨_, readObservations hrep hforms, ?_⟩
  refine except_bind_ok.mpr ⟨_, readLifecycle hrep hforms, ?_⟩
  refine except_bind_ok.mpr ⟨_, hautonomy, ?_⟩
  simp only [Ledger.candidates, Ledger.confirmedChangePayloads, Ledger.confirmedChangeReviews,
    Ledger.conflicts, Ledger.latestReviews, Ledger.currentReviews, hrep.candidates, hrep.reviews,
    hrep.changes, hrep.conflicts]
  rfl

end Represented

end AgenticSecurity.Storage
