import AgenticSecurity.Library.Fallible
import AgenticSecurity.Library.Grouping
import AgenticSecurity.Library.Related
import AgenticSecurity.Site.Changes
import AgenticSecurity.Site.References
import AgenticSecurity.Storage.Integrity
import AgenticSecurity.Storage.PreviewVelocity

namespace AgenticSecurity.Site

open Library Models Python Derivations Storage Runs Integrity Fallible

def assertionsAbout (ledger : Ledger) (subjectType : SubjectType) : List Assertion :=
  ledger.assertions.filter fun item ↦ item.slots.subjectType = subjectType

def assertionsAboutSystem (ledger : Ledger) (subjectType : SubjectType) (system : System) :
    List Assertion :=
  (assertionsAbout ledger subjectType).filter fun item ↦ item.systemId = system.id

def statementRow (item : Assertion) : StatementRow where
  statement := item.statement
  state := item.state.value
  evidenceIds := item.evidenceIds

/-- The row of a system shows the vendor that the system refers to, and of each kind the records
of that system and no others. -/
structure Shows (ledger : Ledger) (system : System) (row : SystemRow) : Prop where
  id : row.id = system.id
  name : row.name = system.name
  vendor : ∃ vendor ∈ ledger.vendors, vendor.id = system.vendorId ∧ row.vendor = vendor.name
  agents : row.agents.map (·.toAgent) =
    (orderBy (fun item ↦ [item.id]) ledger.agents).filter fun item ↦ item.systemId = system.id
  capabilities : (row.capabilities.map fun shown ↦ (shown.assertionId, shown.statement)) =
    (assertionsAboutSystem ledger .capability system).map fun item ↦ (item.id, item.statement)
  controls : row.controls = (assertionsAboutSystem ledger .control system).map statementRow
  architecture :
    row.architecture = (assertionsAboutSystem ledger .architecturePattern system).map statementRow
  lifecycle : row.lifecycle =
    (ledger.lifecycleEvents.filter fun item ↦ item.systemId = some system.id).map lifecycleRow

structure Owned (ledger : Ledger) : Prop where
  distinct : (ledger.systems.map (·.id)).Nodup
  agents : ∀ item ∈ ledger.agents, ∃ system ∈ ledger.systems, system.id = item.systemId
  assertions : ∀ item ∈ ledger.assertions, ∃ system ∈ ledger.systems, system.id = item.systemId
  lifecycle :
    ∀ item ∈ ledger.lifecycleEvents, ∀ id ∈ item.systemId, ∃ system ∈ ledger.systems, system.id = id

/-- Every record that the site publishes is in it once, under the system it belongs to. -/
structure AccountsFor (ledger : Ledger) (payload : Payload) : Prop where
  owned : Owned ledger
  systems :
    List.Forall₂ (Shows ledger) (orderBy (fun item ↦ [item.id]) ledger.systems) payload.systems
  agents : ((payload.systems.flatMap (·.agents)).map (·.toAgent)).Perm ledger.agents
  capabilities :
    ((payload.systems.flatMap (·.capabilities)).map fun row ↦ (row.assertionId, row.statement)).Perm
    ((assertionsAbout ledger .capability).map fun item ↦ (item.id, item.statement))
  claims : (payload.claims.map fun row ↦ (row.systemId, row.vendorClaims)) =
    (orderBy (fun item ↦ [item.id]) ledger.systems).flatMap fun system ↦
      (assertionsAboutSystem ledger .capability system).map fun item ↦ (system.id, item.statement)
  controls :
    (payload.systems.flatMap (·.controls)).Perm ((assertionsAbout ledger .control).map statementRow)
  architecture : (payload.systems.flatMap (·.architecture)).Perm
    ((assertionsAbout ledger .architecturePattern).map statementRow)
  lifecycle : (payload.systems.flatMap (·.lifecycle)).Perm
    ((ledger.lifecycleEvents.filter (·.systemId.isSome)).map lifecycleRow)
  changes : payload.changes.map (·.id) = ledger.confirmedChangePayloads.map (·.id)
  recentChanges : ∀ row ∈ payload.systems,
    row.recentChanges = payload.changes.filter fun change ↦ change.systemId = row.id

variable {cases : CaseData} {data : PublicationLedgerData} {asOf : Datetime}

structure RowOf (cases : CaseData) (data : PublicationLedgerData) (asOf : Datetime)
    (system : System) (row : SystemRow) : Prop where
  id : row.id = system.id
  name : row.name = system.name
  vendor : ∃ vendor ∈ data.vendors, vendor.id = system.vendorId ∧ row.vendor = vendor.name
  agents : row.agents =
    (data.agents.filter fun item ↦ item.systemId = system.id).map (agentRow cases data asOf system)
  lifecycle : row.lifecycle = lifecycleRows data system
  controls : row.controls = statementRows data system .control
  architecture : row.architecture = statementRows data system .architecturePattern
  capabilities : row.capabilities = capabilityRows cases data asOf system
  recentChanges :
    row.recentChanges = (changeRows data).filter fun change ↦ change.systemId = system.id

theorem vendorOf_ok {system : System} {vendor : Vendor} (h : vendorOf data system = .ok vendor) :
    vendor ∈ data.vendors ∧ vendor.id = system.vendorId := by
  unfold vendorOf at h
  split at h
  next found hfound =>
    obtain rfl := Except.ok.inj h
    obtain ⟨item, hitem, heq⟩ := List.mem_map.mp (mem_dictOf (mem_of_lookup hfound))
    obtain ⟨hid, rfl⟩ := Prod.mk.inj heq
    exact ⟨hitem, hid⟩
  · cases h

theorem vendorOf_error {system : System} {e : SiteError} (h : vendorOf data system = .error e) :
    ∀ vendor ∈ data.vendors, vendor.id ≠ system.vendorId := by
  unfold vendorOf at h
  split at h
  · cases h
  next hnone =>
    intro vendor hvendor hid
    rw [lookup_dictOf, List.lookup_eq_none_iff] at hnone
    have hne := hnone (vendor.id, vendor) (List.mem_reverse.mpr (List.mem_map_of_mem hvendor))
    exact bne_iff_ne.mp hne hid.symm

theorem rowOf_systemRow {system : System} {row : SystemRow}
    (h : systemRow cases data asOf system = .ok row) :
    RowOf cases data asOf system row := by
  obtain ⟨vendor, hvendor, h⟩ := except_bind_ok.mp h
  obtain ⟨autonomy, -, h⟩ := except_bind_ok.mp h
  obtain rfl := Except.ok.inj h
  obtain ⟨hmem, hid⟩ := vendorOf_ok hvendor
  exact ⟨rfl, rfl, ⟨vendor, hmem, hid, rfl⟩, rfl, rfl, rfl, rfl, rfl, rfl⟩

theorem systemRow_error {system : System} {e : SiteError}
    (h : systemRow cases data asOf system = .error e)
    (hvendor : ∃ vendor ∈ data.vendors, vendor.id = system.vendorId) :
    ∃ autonomy ∈ data.autonomyAssessments, ∃ invalid,
      deriveAutonomyLabel autonomy = .error invalid ∧ e = .valueError invalid := by
  unfold systemRow at h
  rcases bind_error.mp h with hnone | ⟨vendor, -, h⟩
  · obtain ⟨vendor, hmem, hid⟩ := hvendor
    exact absurd hid (vendorOf_error hnone vendor hmem)
  · rcases bind_error.mp h with hautonomy | ⟨autonomy, -, hpure⟩
    · unfold autonomyRowOf at hautonomy
      split at hautonomy
      next autonomy hfound =>
        have hmap : (autonomyRow autonomy).mapError SiteError.valueError = .error e := by
          cases hrow : (autonomyRow autonomy).mapError SiteError.valueError with
          | ok row => rw [hrow] at hautonomy; cases hautonomy
          | error e' => rw [hrow] at hautonomy; injection hautonomy with he; rw [he]
        obtain ⟨invalid, hinvalid, rfl⟩ := mapError_error.mp hmap
        refine ⟨autonomy, List.mem_of_find?_eq_some hfound, invalid, ?_, rfl⟩
        rcases bind_error.mp hinvalid with hlabel | ⟨label, -, hrest⟩
        · exact hlabel
        · cases hrest
      · cases hautonomy
    · cases hpure

theorem publicationData_ok {ledger : Ledger} {publishedAt : Datetime}
    (h : ledger.publicationData publishedAt = .ok data) :
    data.vendors = orderBy (fun item ↦ [item.id]) ledger.vendors ∧
      data.systems = orderBy (fun item ↦ [item.id]) ledger.systems ∧
      data.agents = orderBy (fun item ↦ [item.id]) ledger.agents ∧
      data.assertions = ledger.assertions ∧ data.lifecycleEvents = ledger.lifecycleEvents ∧
      data.autonomyAssessments = ledger.autonomyAssessments ∧
      data.confirmedChanges = ledger.confirmedChangePayloads := by
  obtain ⟨_, -, h⟩ := except_bind_ok.mp h
  obtain ⟨_, -, h⟩ := except_bind_ok.mp h
  obtain rfl := Except.ok.inj h
  exact ⟨rfl, rfl, rfl, rfl, rfl, rfl, rfl⟩

theorem orderBy_perm {ρ : Type} (columns : ρ → List String) (rows : List ρ) :
    (orderBy columns rows).Perm rows :=
  List.perm_insertionSort _ rows

theorem owned_perm {ledger : Ledger} (h : ledger.Intact) {α γ : Type} {records : List α}
    (key : α → Option String) (view : α → γ)
    (hrecords : ∀ r ∈ records, ∃ system ∈ ledger.systems, system.id ∈ key r) :
    ((orderBy (fun item ↦ [item.id]) ledger.systems).flatMap fun system ↦
      (records.filter fun r ↦ key r = some system.id).map view).Perm (records.map view) := by
  refine Grouping.groups_perm ?_ key ?_ view
  · exact ((orderBy_perm _ _).map _).nodup_iff.mpr (held_nodup (h.sound.unique .systems))
  · intro r hr
    obtain ⟨system, hsystem, hkey⟩ := hrecords r hr
    exact ⟨system, (orderBy_perm _ _).mem_iff.mpr hsystem, hkey⟩

section Payload

variable {ledger : Ledger} (h : ledger.Intact) {rows : List SystemRow}
  (hrows : List.Forall₂ (RowOf cases data asOf)
    (orderBy (fun item ↦ [item.id]) ledger.systems) rows)
include h hrows

theorem shown_perm {α β γ : Type} (records : List α) (key : α → Option String)
    (field : SystemRow → List β) (view : β → γ) (view' : α → γ)
    (hrecords : ∀ r ∈ records, ∃ system ∈ ledger.systems, system.id ∈ key r)
    (hfield : ∀ system row, RowOf cases data asOf system row →
      (field row).map view = (records.filter fun r ↦ key r = some system.id).map view') :
    ((rows.flatMap field).map view).Perm (records.map view') := by
  rw [List.map_flatMap,
    ← Related.flatMap_eq hrows fun system row hrow ↦ (hfield system row hrow).symm]
  exact owned_perm h key view' hrecords

theorem agents_perm (hagents : data.agents = orderBy (fun item ↦ [item.id]) ledger.agents) :
    ((rows.flatMap (·.agents)).map (·.toAgent)).Perm ledger.agents := by
  have hperm :=
    shown_perm h hrows data.agents (fun item ↦ some item.systemId) (·.agents) (·.toAgent) id
    (fun r hr ↦ ?_) fun system row hrow ↦ ?_
  · rw [List.map_id, hagents] at hperm
    exact hperm.trans (orderBy_perm _ _)
  · rw [hagents] at hr
    obtain ⟨system, hsystem, hid⟩ := h.agent_system ((orderBy_perm _ _).mem_iff.mp hr)
    exact ⟨system, hsystem, congrArg some hid.symm⟩
  · rw [hrow.agents, List.map_map]
    simp only [Option.some.injEq]
    rfl

theorem lifecycle_perm (hevents : data.lifecycleEvents = ledger.lifecycleEvents) :
    (rows.flatMap (·.lifecycle)).Perm
      ((ledger.lifecycleEvents.filter (·.systemId.isSome)).map lifecycleRow) := by
  have hperm :=
    shown_perm h hrows (ledger.lifecycleEvents.filter (·.systemId.isSome)) (·.systemId)
    (·.lifecycle)
    id lifecycleRow (fun r hr ↦ ?_) fun system row hrow ↦ ?_
  · rwa [List.map_id] at hperm
  · obtain ⟨hmem, hsome⟩ := List.mem_filter.mp hr
    obtain ⟨id, hid⟩ := Option.isSome_iff_exists.mp hsome
    obtain ⟨system, hsystem, rfl⟩ := h.event_system hmem hid
    exact ⟨system, hsystem, hid⟩
  · rw [List.map_id, hrow.lifecycle, lifecycleRows, hevents, List.filter_filter]
    congr 1
    refine List.filter_congr fun item _ ↦ ?_
    cases hid : item.systemId <;> simp

end Payload

theorem assertionsAbout_system {ledger : Ledger} (h : ledger.Intact) (subjectType : SubjectType) :
    ∀ r ∈ assertionsAbout ledger subjectType, ∃ system ∈ ledger.systems,
    system.id ∈ some r.systemId := by
  intro r hr
  obtain ⟨system, hsystem, hid⟩ := h.assertion_system (List.mem_filter.mp hr).1
  exact ⟨system, hsystem, congrArg some hid.symm⟩

theorem assertionsOf_about {ledger : Ledger} (hassertions : data.assertions = ledger.assertions)
    (system : System) (subjectType : SubjectType) :
    (assertionsOf data system).filter (fun item ↦ item.slots.subjectType = subjectType) =
      assertionsAboutSystem ledger subjectType system := by
  rw [assertionsOf, assertionsAboutSystem, assertionsAbout, hassertions, List.filter_filter,
    List.filter_filter]
  refine List.filter_congr fun item _ ↦ ?_
  rw [Bool.and_comm]

theorem assertionsAboutSystem_key (ledger : Ledger) (subjectType : SubjectType) (system : System) :
    assertionsAboutSystem ledger subjectType system =
      (assertionsAbout ledger subjectType).filter fun item ↦ some item.systemId =
        some system.id := by
  simp only [assertionsAboutSystem, Option.some.injEq]

theorem statements_perm {ledger : Ledger} (h : ledger.Intact) {rows : List SystemRow}
    (hrows : List.Forall₂ (RowOf cases data asOf)
      (orderBy (fun item ↦ [item.id]) ledger.systems) rows)
    (hassertions : data.assertions = ledger.assertions) (subjectType : SubjectType)
    (field : SystemRow → List StatementRow)
    (hfield : ∀ system row, RowOf cases data asOf system row →
      field row = statementRows data system subjectType) :
    (rows.flatMap field).Perm ((assertionsAbout ledger subjectType).map statementRow) := by
  have hperm := shown_perm h hrows _ (fun item ↦ some item.systemId) field id statementRow
    (assertionsAbout_system h subjectType) fun system row hrow ↦ by
      rw [List.map_id, hfield system row hrow, statementRows, assertionsOf_about hassertions,
        assertionsAboutSystem_key]
      rfl
  rwa [List.map_id] at hperm

theorem owned_of_intact {ledger : Ledger} (h : ledger.Intact) : Owned ledger where
  distinct := held_nodup (h.sound.unique .systems)
  agents _ hitem := h.agent_system hitem
  assertions _ hitem := h.assertion_system hitem
  lifecycle _ hitem _ hid := h.event_system hitem hid

theorem shows_of_row {ledger : Ledger} {publishedAt : Datetime}
    (hdata : ledger.publicationData publishedAt = .ok data) {system : System} {row : SystemRow}
    (hrow : RowOf cases data asOf system row) : Shows ledger system row := by
  obtain ⟨hvendors, -, hagents, hassertions, hevents, -, -⟩ := publicationData_ok hdata
  obtain ⟨vendor, hvendor, hshown⟩ := hrow.vendor
  refine ⟨hrow.id, hrow.name, ⟨vendor, (orderBy_perm _ _).mem_iff.mp (hvendors ▸ hvendor), hshown⟩,
    ?_, ?_, ?_, ?_, ?_⟩
  · rw [hrow.agents, List.map_map, hagents]
    exact List.map_id _
  · rw [hrow.capabilities, capabilityRows, assertionsOf_about hassertions, List.map_map]
    rfl
  · rw [hrow.controls, statementRows, assertionsOf_about hassertions]
    rfl
  · rw [hrow.architecture, statementRows, assertionsOf_about hassertions]
    rfl
  · rw [hrow.lifecycle, lifecycleRows, hevents]

theorem accounts_of_payload {ledger : Ledger} (h : ledger.Intact) {publishedAt : Datetime}
    (hdata : ledger.publicationData publishedAt = .ok data) {unicode : UnicodeData} {now : Datetime}
    {generatedAt semanticAsOf : Option Datetime} {canonicalBase : String} {payload : Payload}
    (hpayload : buildSiteData cases data unicode now generatedAt semanticAsOf canonicalBase =
      .ok payload) :
    AccountsFor ledger payload := by
  obtain ⟨hbuilt, hclaims, -⟩ := buildSiteData_ok hpayload
  obtain ⟨hvendors, hsystems, hagents, hassertions, hevents, -, hconfirmed⟩ :=
    publicationData_ok hdata
  have hrows := hbuilt.imp fun system row hrow ↦ rowOf_systemRow hrow
  rw [hsystems] at hrows
  refine ⟨owned_of_intact h,
    hrows.imp fun system row hrow ↦ shows_of_row hdata hrow, agents_perm h hrows hagents, ?_, ?_,
    ?_, ?_, lifecycle_perm h hrows hevents, hconfirmed ▸ buildSiteData_changes hpayload, ?_⟩
  · refine shown_perm h hrows _ (fun item : Assertion ↦ some item.systemId) (·.capabilities) _ _
      (assertionsAbout_system h .capability) fun system row hrow ↦ ?_
    rw [hrow.capabilities, capabilityRows, assertionsOf_about hassertions,
      assertionsAboutSystem_key, List.map_map]
    rfl
  · rw [hclaims, hsystems, List.map_flatMap]
    refine List.flatMap_congr fun system _ ↦ ?_
    rw [claimRows, capabilityRows, assertionsOf_about hassertions, List.map_map, List.map_map]
    rfl
  · exact statements_perm h hrows hassertions .control _ fun _ _ hrow ↦ hrow.controls
  · exact statements_perm h hrows hassertions .architecturePattern _
      fun _ _ hrow ↦ hrow.architecture
  · intro row hrow
    obtain ⟨system, -, hshown⟩ := Related.exists_left hrows hrow
    rw [hshown.recentChanges, hshown.id, buildSiteData_changeRows hpayload]

theorem reportRows_error {unicode : UnicodeData} {e : SiteError}
    (h : reportRows data asOf unicode = .error e) :
    MixesDates data.lifecycleEvents ∧ ∃ message, e = .typeError message := by
  obtain ⟨message, hreports, rfl⟩ := mapError_error.mp (map_error.mp h)
  refine ⟨?_, message, rfl⟩
  unfold Editorial.siteReports at hreports
  split_ifs at hreports
  exact previewToGaVelocity_error (map_error.mp (map_error.mp hreports))

/-- What can keep a site from being built: an autonomy that has no label, or dates that cannot be
subtracted. -/
def CannotBuild (ledger : Ledger) (e : SiteError) : Prop :=
  (∃ autonomy ∈ ledger.autonomyAssessments, ∃ invalid,
      deriveAutonomyLabel autonomy = .error invalid ∧ e = .valueError invalid) ∨
    MixesDates ledger.lifecycleEvents ∧ ∃ message, e = .typeError message

theorem buildSiteData_error {ledger : Ledger} (h : ledger.Intact) {publishedAt : Datetime}
    (hdata : ledger.publicationData publishedAt = .ok data) {unicode : UnicodeData} {now : Datetime}
    {generatedAt semanticAsOf : Option Datetime} {canonicalBase : String} {e : SiteError}
    (he : buildSiteData cases data unicode now generatedAt semanticAsOf canonicalBase = .error e) :
    CannotBuild ledger e := by
  obtain ⟨hvendors, hsystems, -, -, hevents, hautonomy, -⟩ := publicationData_ok hdata
  rcases bind_error.mp he with hloop | ⟨rows, -, hrest⟩
  · obtain ⟨system, hsystem, hrow⟩ := mapM_error hloop
    refine .inl (hautonomy ▸ systemRow_error hrow ?_)
    rw [hsystems] at hsystem
    obtain ⟨vendor, hvendor, hid⟩ := h.vendor ((orderBy_perm _ _).mem_iff.mp hsystem)
    exact ⟨vendor, hvendors ▸ (orderBy_perm _ _).mem_iff.mpr hvendor, hid⟩
  · rcases bind_error.mp hrest with hreports | ⟨reports, -, hpure⟩
    · exact .inr (hevents ▸ reportRows_error hreports)
    · cases hpure

/-- The site of every ledger that the repositories can build is complete: no record is left out or
shown twice or under another system, and nothing but an autonomy without a label, or dates of a
preview and of GA that cannot be subtracted, can keep it from being built. -/
theorem site_accounts_for_ledger (contentSha256 : String → Sha256) (unicode : UnicodeData)
    (cases : CaseData) {ledger : Ledger} (h : ledger.Intact) (calls : List RepositoryCall)
    {publishedAt : Datetime}
    {data : PublicationLedgerData}
    (hdata : (attempts (Ledger.perform contentSha256) ledger calls).publicationData publishedAt =
      .ok data)
    (now : Datetime) (generatedAt semanticAsOf : Option Datetime) (canonicalBase : String) :
    (∀ payload, buildSiteData cases data unicode now generatedAt semanticAsOf canonicalBase =
      .ok payload →
      AccountsFor (attempts (Ledger.perform contentSha256) ledger calls) payload) ∧
    ∀ e, buildSiteData cases data unicode now generatedAt semanticAsOf canonicalBase = .error e →
      CannotBuild (attempts (Ledger.perform contentSha256) ledger calls) e := by
  have hreached : (attempts (Ledger.perform contentSha256) ledger calls).Intact :=
    attempts_invariant Ledger.Intact h fun s call s' _ hs hok ↦ perform_intact hok hs
  constructor
  · intro payload hpayload
    exact accounts_of_payload hreached hdata hpayload
  · intro e he
    exact buildSiteData_error hreached hdata he

theorem site_accounts_for_ledger_vendorCalls :
    ∃ data payload, (attempts (Ledger.perform fun _ ↦ zeroHash) metadataLedger
      vendorCalls).publicationData
        (.midnight sampleDay) = .ok data ∧
      buildSiteData asciiCases data asciiData (.midnight sampleDay) none none "" = .ok payload ∧
      payload.systems.map (·.vendor) = ["Acme"] ∧
      AccountsFor (attempts (Ledger.perform fun _ ↦ zeroHash) metadataLedger vendorCalls) payload :=
  ⟨_, _, rfl, rfl, rfl,
    (site_accounts_for_ledger (fun _ ↦ zeroHash) asciiData asciiCases metadataLedger_intact
      vendorCalls rfl
      (.midnight sampleDay) none none "").1 _ rfl⟩

end AgenticSecurity.Site
