import AgenticSecurity.Site.References
import AgenticSecurity.Storage.Corpus

namespace AgenticSecurity.Site

open Library Models Python Derivations Storage Runs Related

structure IndependentlyValidated (data : PublicationLedgerData) (item : Evidence) : Prop where
  recorded : item ∈ data.evidence
  purpose : item.claimPurpose = .independentValidation
  maturity : item.maturity ∈ [EvidenceMaturity.e3, .e4, .e5]
  independent :
    ∃ facets, item.independenceFacets = some facets ∧ deriveIndependence facets = .independent
  usable : ∃ source ∈ data.sources, source.id = item.sourceId ∧ source.role = .input ∧
    source.trustClass ≠ .self ∧ source.policy.usableAsIndependentEvidence = true

def ReportsQuote (row : CapabilityRow) (claim : ClaimRow) : Prop :=
  ∃ item ∈ independentItems row, claim.independentlyValidated = item.quote

structure ValidationReported (data : PublicationLedgerData) (row : CapabilityRow)
    (claim : ClaimRow) : Prop where
  agree : row.evidencePanel.independentValidation = .high ↔ ReportsQuote row claim
  backed : row.evidencePanel.independentValidation = .high ∨ ReportsQuote row claim →
    ∃ assertion ∈ data.assertions, assertion.id = row.assertionId ∧
      ∃ item, item.id ∈ assertion.evidenceIds ∧ IndependentlyValidated data item

/-- The capabilities of the payload with their claims rows, in order. -/
def ValidationsReported (data : PublicationLedgerData) (payload : Payload) : Prop :=
  List.Forall₂ (ValidationReported data) (payload.systems.flatMap (·.capabilities)) payload.claims

theorem independent_value_iff {designation : IndependenceDesignation} :
    designation.value = "INDEPENDENT" ↔ designation = .independent := by
  cases designation <;> decide

theorem purpose_value_iff {purpose : ClaimPurpose} :
    purpose.value = ClaimPurpose.independentValidation.value ↔
    purpose = .independentValidation := by
  cases purpose <;> decide

theorem maturity_value_iff {maturity : EvidenceMaturity} :
    maturity.value ∈ ["E3", "E4", "E5"] ↔ maturity ∈ [EvidenceMaturity.e3, .e4, .e5] := by
  cases maturity <;> decide

theorem isIndependentValidation_iff {item : Evidence} :
    isIndependentValidation item = true ↔ item.claimPurpose = .independentValidation ∧
      item.maturity ∈ [EvidenceMaturity.e3, .e4, .e5] ∧
      ∃ facets, item.independenceFacets = some facets ∧
        deriveIndependence facets = .independent := by
  unfold isIndependentValidation
  simp only [Bool.and_eq_true, decide_eq_true_eq, Option.any_eq_true, and_assoc]

theorem evidenceItem_independent_iff {item : Evidence} :
    (evidenceItem item).independence = "INDEPENDENT" ↔
      ∃ facets, item.independenceFacets = some facets ∧
        deriveIndependence facets = .independent := by
  unfold evidenceItem
  cases hfacets : item.independenceFacets with
  | none => simp [independent_value_iff]
  | some facets => simp [independent_value_iff]

variable {data : PublicationLedgerData} {cases : CaseData} {asOf : Datetime}

theorem independentItems_eq (assertion : Assertion) :
    independentItems (capabilityRow cases data asOf assertion) =
      ((publishedItems data assertion).filter isIndependentValidation).map evidenceItem := by
  unfold independentItems capabilityRow
  rw [List.filter_map]
  congr 1
  refine List.filter_congr fun item _ ↦ ?_
  rw [Bool.eq_iff_iff, isIndependentValidation_iff, ← evidenceItem_independent_iff]
  simp only [Function.comp_apply, Bool.and_eq_true, decide_eq_true_eq]
  rw [show (evidenceItem item).purpose = item.claimPurpose.value from rfl, purpose_value_iff,
    show (evidenceItem item).maturity = item.maturity.value from rfl, maturity_value_iff]
  tauto

theorem panel_high_iff (assertion : Assertion) :
    (capabilityRow cases data asOf assertion).evidencePanel.independentValidation = .high ↔
      ∃ item ∈ publishedItems data assertion, isIndependentValidation item = true := by
  rw [← List.any_eq_true]
  unfold capabilityRow deriveCapabilityEvidencePanel
  dsimp only
  split_ifs with hany
  · simp [hany]
  · simp [hany]

theorem reportsQuote_iff (system : System) (assertion : Assertion) :
    ReportsQuote (capabilityRow cases data asOf assertion)
        (claimRow asOf system (capabilityRow cases data asOf assertion)) ↔
      ∃ item ∈ publishedItems data assertion, isIndependentValidation item = true := by
  unfold ReportsQuote
  constructor
  · rintro ⟨shown, hshown, -⟩
    rw [independentItems_eq] at hshown
    obtain ⟨item, hitem, -⟩ := List.mem_map.mp hshown
    exact ⟨item, List.mem_filter.mp hitem⟩
  · rintro ⟨item, hitem⟩
    have hmem : evidenceItem item ∈ independentItems (capabilityRow cases data asOf assertion) := by
      rw [independentItems_eq]
      exact List.mem_map_of_mem (List.mem_filter.mpr hitem)
    cases hitems : independentItems (capabilityRow cases data asOf assertion) with
    | nil =>
      rw [hitems] at hmem
      exact absurd hmem List.not_mem_nil
    | cons first rest =>
      refine ⟨first, List.mem_cons_self, ?_⟩
      simp only [claimRow, hitems]

theorem panel_agrees (system : System) (assertion : Assertion) :
    (capabilityRow cases data asOf assertion).evidencePanel.independentValidation = .high ↔
      ReportsQuote (capabilityRow cases data asOf assertion)
        (claimRow asOf system (capabilityRow cases data asOf assertion)) :=
  (panel_high_iff assertion).trans (reportsQuote_iff system assertion).symm

/-- The call does not put independent validation behind a source that is not usable for it. -/
def keepsIndependence (ledger : Ledger) : RepositoryCall → Bool
  | .evidence (.addEvidence evidence) =>
    !isIndependentValidation evidence ||
      (ledger.storedSource evidence.sourceId).all (·.policy.usableAsIndependentEvidence)
  | .evidence (.syncSource source) =>
    source.policy.usableAsIndependentEvidence || source.trustClass = .self ||
      ledger.evidence.all fun row ↦ row.payload.sourceId ≠ source.id ||
        !isIndependentValidation row.payload
  | _ => true

structure IndependenceKept (ledger : Ledger) : Prop where
  sourceIds : ∀ row ∈ ledger.sources, row.id = row.payload.id
  usable : ∀ row ∈ ledger.evidence, isIndependentValidation row.payload = true →
    ∃ source, ledger.storedSource row.payload.sourceId = some source ∧
      (source.policy.usableAsIndependentEvidence = true ∨ source.trustClass = .self)

variable {contentSha256 : String → Sha256} {ledger ledger' : Ledger}

theorem syncSource_sourceIds {source : Source} (h : ledger.syncSource source = .ok ledger')
    (hids : ∀ row ∈ ledger.sources, row.id = row.payload.id) :
    ∀ row ∈ ledger'.sources, row.id = row.payload.id := by
  unfold Ledger.syncSource at h
  split at h
  · obtain ⟨-, rfl⟩ := addSource_ok h
    intro row hrow
    rcases List.mem_append.mp hrow with hold | hnew
    · exact hids row hold
    · rw [List.mem_singleton.mp hnew, sourceRow]
  · split_ifs at h
    · obtain rfl := Except.ok.inj h
      exact hids
    · obtain rfl := Except.ok.inj h
      intro row hrow
      obtain ⟨old, hold, rfl⟩ := Table.mem_updateWhere.mp hrow
      split_ifs
      · rfl
      · exact hids old hold

theorem record_independenceKept {call : EvidenceCall}
    (h : ledger.record contentSha256 call = .ok ledger')
    (hcall : keepsIndependence ledger (.evidence call) = true) (hkept : IndependenceKept ledger) :
    IndependenceKept ledger' := by
  cases call with
  | addSource source =>
    have hstored := @record_storedSource _ _ _ _ h
    obtain ⟨-, rfl⟩ := addSource_ok h
    refine ⟨fun row hrow ↦ ?_, fun row hrow hvalid ↦ ?_⟩
    · rcases List.mem_append.mp hrow with hold | hnew
      · exact hkept.sourceIds row hold
      · rw [List.mem_singleton.mp hnew, sourceRow]
    · obtain ⟨stored, hold, husable⟩ := hkept.usable row hrow hvalid
      rcases hstored hold with hsame | ⟨_, hsync, -⟩
      · exact ⟨stored, hsame, husable⟩
      · cases hsync
  | syncSource source =>
    refine ⟨syncSource_sourceIds h hkept.sourceIds, fun row hrow hvalid ↦ ?_⟩
    rw [syncSource_evidence h] at hrow
    rw [syncSource_storedSource h]
    split_ifs with hid
    · refine ⟨source, rfl, ?_⟩
      simp only [keepsIndependence, Bool.or_eq_true, decide_eq_true_eq] at hcall
      refine hcall.resolve_right fun hall ↦ ?_
      have hnot := List.all_eq_true.mp hall row hrow
      simp [hid, hvalid] at hnot
    · exact hkept.usable row hrow hvalid
  | addSnapshot snapshot =>
    obtain rfl := addSnapshot_ok h
    exact ⟨hkept.sourceIds, hkept.usable⟩
  | addEvidence evidence =>
    obtain ⟨source, -, hsource, -, -, -, -, -, -, -, rfl⟩ := addEvidence_ok h
    refine ⟨hkept.sourceIds, fun row hrow hvalid ↦ ?_⟩
    rcases List.mem_append.mp hrow with hold | hnew
    · exact hkept.usable row hold hvalid
    · obtain rfl := List.mem_singleton.mp hnew
      refine ⟨source, hsource, .inl ?_⟩
      have hvalid' : isIndependentValidation evidence = true := hvalid
      simpa [keepsIndependence, hvalid', hsource] using hcall

theorem perform_independenceKept {call : RepositoryCall}
    (h : ledger.perform contentSha256 call = .ok ledger')
    (hcall : keepsIndependence ledger call = true) (hkept : IndependenceKept ledger) :
    IndependenceKept ledger' := by
  by_cases hevidence : ∃ c, call = .evidence c
  · obtain ⟨c, rfl⟩ := hevidence
    exact record_independenceKept h hcall hkept
  · have hsame := perform_evidenceTables h fun c hc ↦ hevidence ⟨c, hc⟩
    obtain ⟨hsources, hrows⟩ := Prod.mk.inj hsame
    refine ⟨hsources ▸ hkept.sourceIds, fun row hrow hvalid ↦ ?_⟩
    rw [Ledger.storedSource, hsources]
    exact hkept.usable row (hrows ▸ hrow) hvalid

theorem systemRow_capabilities {system : System} {row : SystemRow}
    (h : systemRow cases data asOf system = .ok row) :
    row.capabilities = capabilityRows cases data asOf system := by
  obtain ⟨vendor, -, h⟩ := except_bind_ok.mp h
  obtain ⟨autonomy, -, h⟩ := except_bind_ok.mp h
  obtain rfl := Except.ok.inj h
  rfl

theorem publicationData_tables {publishedAt : Datetime}
    (h : ledger.publicationData publishedAt = .ok data) :
    data.sources = ledger.sources.map SourceRow.payload ∧
    data.evidence = ledger.evidence.map EvidenceRow.payload := by
  obtain ⟨_, -, h⟩ := except_bind_ok.mp h
  obtain ⟨_, -, h⟩ := except_bind_ok.mp h
  obtain rfl := Except.ok.inj h
  exact ⟨rfl, rfl⟩

theorem published_usable {publishedAt : Datetime}
    (hdata : ledger.publicationData publishedAt = .ok data) (hkept : IndependenceKept ledger)
    {assertion : Assertion} {item : Evidence}
    (hitem : item ∈ publishedItems data assertion) (hvalid : isIndependentValidation item = true) :
    item.id ∈ assertion.evidenceIds ∧ IndependentlyValidated data item := by
  obtain ⟨hsources, hrecords⟩ := publicationData_tables hdata
  obtain ⟨id, hid, hlookup⟩ := List.mem_filterMap.mp hitem
  obtain ⟨hmem, rfl, hexcluded⟩ := mem_of_evidenceById hlookup
  obtain ⟨hpurpose, hmaturity, hindependent⟩ := isIndependentValidation_iff.mp hvalid
  refine ⟨hid, hmem, hpurpose, hmaturity, hindependent, ?_⟩
  obtain ⟨row, hrow, rfl⟩ := List.mem_map.mp (hrecords ▸ hmem)
  obtain ⟨source, hstored, husable⟩ := hkept.usable row hrow hvalid
  obtain ⟨stored, hfind, rfl⟩ := Option.map_eq_some_iff.mp hstored
  have hsource : stored.payload ∈ data.sources :=
    hsources ▸ List.mem_map_of_mem (List.mem_of_find?_eq_some hfind)
  have hsourceId : stored.payload.id = row.payload.sourceId := by
    rw [← hkept.sourceIds stored (List.mem_of_find?_eq_some hfind)]
    simpa using List.find?_some hfind
  obtain ⟨houtput, hself⟩ := not_mem_excluded_iff.mp hexcluded _ hsource hsourceId
  refine ⟨stored.payload, hsource, hsourceId, ?_, hself, husable.resolve_right hself⟩
  cases hrole : stored.payload.role with
  | input => rfl
  | output => exact absurd hrole houtput

theorem validationsReported {publishedAt : Datetime}
    (hdata : ledger.publicationData publishedAt = .ok data) (hkept : IndependenceKept ledger)
    {unicode : UnicodeData} {now : Datetime} {generatedAt asOf : Option Datetime}
    {canonicalBase : String} {payload : Payload}
    (h : buildSiteData cases data unicode now generatedAt asOf canonicalBase = .ok payload) :
    ValidationsReported data payload := by
  obtain ⟨hsystems, hclaims, -⟩ := buildSiteData_ok h
  unfold ValidationsReported
  rw [hclaims]
  refine List.rel_flatMap hsystems.flip fun row system hrow ↦ ?_
  rw [systemRow_capabilities hrow, claimRows, List.forall₂_map_right_iff, List.forall₂_same]
  intro capability hcapability
  obtain ⟨assertion, hassertion, rfl⟩ := List.mem_map.mp hcapability
  have hmem : assertion ∈ data.assertions :=
    List.mem_of_mem_filter (List.mem_of_mem_filter hassertion)
  refine ⟨panel_agrees system assertion, fun hreported ↦ ?_⟩
  rw [← panel_agrees system assertion, or_self, panel_high_iff] at hreported
  obtain ⟨item, hitem, hvalid⟩ := hreported
  exact ⟨assertion, hmem, rfl, item, published_usable hdata hkept hitem hvalid⟩

/-- In a run whose accepted calls all keep independence, whatever is published of any state on the
way reports independent validation only where a usable source stands behind it. -/
theorem independent_validation_backed (contentSha256 : String → Sha256)
    (methodologyVersions : List MethodologyRow)
    (taxonomyVersions : List TaxonomyRow) {calls : List RepositoryCall}
    (h : acceptedPass (Ledger.perform contentSha256) keepsIndependence { methodologyVersions, taxonomyVersions }
      calls = true) :
    ∀ pre, pre <+: calls → ∀ publishedAt data,
      (attempts (Ledger.perform contentSha256) { methodologyVersions, taxonomyVersions } pre).publicationData
        publishedAt = .ok data →
      ∀ cases unicode now generatedAt asOf canonicalBase payload,
        buildSiteData cases data unicode now generatedAt asOf canonicalBase = .ok payload →
        ValidationsReported data payload := by
  have hkept : ∀ pre, pre <+: calls →
      IndependenceKept (attempts (Ledger.perform contentSha256) { methodologyVersions, taxonomyVersions } pre) :=
    attempts_prefix_invariant IndependenceKept ⟨by simp, by simp⟩
      fun pre call ledger' hpre hkept hop ↦
        perform_independenceKept hop (check_of_accepted h hpre hop) hkept
  intro pre hpre publishedAt data hdata cases unicode now generatedAt asOf canonicalBase
    payload hpayload
  exact validationsReported hdata (hkept pre hpre) hpayload

def labSource (usable : Bool) : Source where
  id := { text := "SRC-LAB" }
  publisher := "Laboratory"
  name := "Lab report"
  kind := .fixture
  domains := []
  trustClass := .independent
  status := .approved
  enabled := true
  policy :=
    { allowedClaimTypes := {.capability}, allowedClaimPurposes := {.independentValidation},
      crawlFrequency := "weekly", usableAsIndependentEvidence := usable }
  pinnedAt := sampleDay
  fallbackNote := ""
  accepted := by cases usable <;> decide

def labSnapshot : Snapshot where
  id := { text := "SNAP-LAB" }
  sourceId := (labSource true).id
  canonicalUri := "https://example.com/lab"
  retrievedAt := .midnight sampleDay
  normalizerVersion := "norm-1.0"
  sha256 := triageHash
  contentType := "text/html"
  rawContent := triageText
  normalizedText := triageText

def labEvidence : Evidence where
  id := { text := "EV-LAB" }
  sourceId := (labSource true).id
  sourceClass := .i1
  maturity := .e3
  claimPurpose := .independentValidation
  anchor := { guideEvidence.anchor with snapshotId := labSnapshot.id }
  publishedAt := none
  firstSeenAt := .midnight sampleDay
  retrievedAt := .midnight sampleDay
  lastSeenAt := .midnight sampleDay
  lastVerifiedAt := .midnight sampleDay
  independenceFacets := some
    { fundingRelationship := .none, commercialRelationship := .none,
      vendorSelectedMethodology := false, vendorOperatedTest := false,
      vendorReviewedBeforePublication := false, reproducibleMethod := true,
      publicEnvironment := true }

def labAssertion : Assertion where
  id := { text := "ASRT-LAB" }
  assertionKey := "system:_system:alert-triage:supports:alerts"
  taxonomyVersion := "ASI-TAXONOMY-1.1"
  systemId := "system"
  slots :=
    { system := "system", subjectType := .capability, subject := "alert-triage",
      action := "supports", object := "alerts" }
  statement := triageText
  canonicalRendering := triageText
  state := .affirmed
  supportConfidence := .medium
  supportConfidenceRationale := ""
  firstSeenAt := .midnight sampleDay
  retrievedAt := .midnight sampleDay
  lastSeenAt := .midnight sampleDay
  firstObservedAt := .midnight sampleDay
  lastVerifiedAt := .midnight sampleDay
  methodologyVersion := "ASI-1.0"
  evidenceIds := [labEvidence.id]

def labVendor : Vendor where
  id := "vendor"
  name := "Vendor"
  website := "https://example.com"

def labMethodologies : List MethodologyRow :=
  [{ id := "ASI-1.0", publishedAt := .midnight sampleDay, description := "",
      normalizerVersion := "norm-1.0" }]

def labTaxonomies : List TaxonomyRow :=
  [{ id := "ASI-TAXONOMY-1.1", publishedAt := .midnight sampleDay }]

def labCalls (usable : Bool) : List RepositoryCall :=
  [ .addVendor labVendor, .addSystem approvalSystem, .evidence (.addSource (labSource usable)),
    .evidence (.addSnapshot labSnapshot), .evidence (.addEvidence labEvidence),
    .addAssertion labAssertion ]

def labLedger (usable : Bool) : Ledger :=
  attempts (Ledger.perform triageSha256)
    { methodologyVersions := labMethodologies, taxonomyVersions := labTaxonomies } (labCalls usable)

def labData (usable : Bool) : PublicationLedgerData where
  vendors := [labVendor]
  systems := [approvalSystem]
  sources := [labSource usable]
  evidence := [labEvidence]
  assertions := [labAssertion]

theorem labLedger_data (usable : Bool) :
    (labLedger usable).publicationData (.midnight sampleDay) = .ok (labData usable) := by
  cases usable <;> rfl

def labSite (usable : Bool) : Except SiteError Payload :=
  buildSiteData asciiCases (labData usable) asciiData (.midnight sampleDay) none none
    "https://example.com"

theorem labSite_ok (usable : Bool) : ∃ payload, labSite usable = .ok payload := by
  cases usable <;> exact ⟨_, rfl⟩

/-- Independent validation is reported although the source may not be used for it. -/
theorem unusable_source_reported :
    (labLedger false).publicationData (.midnight sampleDay) = .ok (labData false) ∧
      ∃ payload, labSite false = .ok payload ∧ ¬ ValidationsReported (labData false) payload := by
  obtain ⟨payload, hpayload⟩ := labSite_ok false
  refine ⟨labLedger_data false, payload, hpayload, fun hreported ↦ ?_⟩
  obtain ⟨hsystems, -, -⟩ := buildSiteData_ok hpayload
  have hrows : payload.systems.flatMap (·.capabilities) =
      [capabilityRow asciiCases (labData false) (.midnight sampleDay) labAssertion] :=
    (flatMap_eq hsystems fun system row hrow ↦ (systemRow_capabilities hrow).symm).symm
  unfold ValidationsReported at hreported
  rw [hrows] at hreported
  obtain ⟨claim, -, hreport, -, -⟩ := List.forall₂_cons_left_iff.mp hreported
  have hhigh := (@panel_high_iff (labData false) asciiCases (.midnight sampleDay) labAssertion).mpr
    ⟨labEvidence, by decide, by decide⟩
  obtain ⟨_, -, -, item, -, hvalid⟩ := hreport.backed (.inl hhigh)
  obtain rfl := List.mem_singleton.mp hvalid.recorded
  obtain ⟨source, hsource, -, -, -, husable⟩ := hvalid.usable
  obtain rfl := List.mem_singleton.mp hsource
  cases husable

theorem independent_validation_backed_lab :
    ∃ payload, labSite true = .ok payload ∧ ValidationsReported (labData true) payload := by
  obtain ⟨payload, hpayload⟩ := labSite_ok true
  exact ⟨payload, hpayload, independent_validation_backed triageSha256 labMethodologies labTaxonomies
    (show acceptedPass _ _ _ (labCalls true) = true by decide) _ List.prefix_rfl _ _
    (labLedger_data true) _ _ _ _ _ _ _
    hpayload⟩

end AgenticSecurity.Site
