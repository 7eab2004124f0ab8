import AgenticSecurity.Site.Build

namespace AgenticSecurity.Site

open Library Models Python Derivations Storage Editorial Related

def Source.SamePublic (a b : Source) : Prop :=
  a.toSourceFields =
    { b.toSourceFields with notes := a.notes, fallbackNote := a.fallbackNote, policy := a.policy }

def Evidence.SamePublic (a b : Evidence) : Prop :=
  a.anchor.quote = b.anchor.quote ∧ a = { b with anchor := a.anchor }

def Observation.SamePublic (a b : Observation) : Prop :=
  a = { b with observedStatement := a.observedStatement }

def MaterialChange.SamePublic (a b : MaterialChange) : Prop :=
  a.toMaterialChangeFields = { b.toMaterialChangeFields with confirmedBy := a.confirmedBy }

def ChangeReviewItem.SamePublic (a b : ChangeReviewItem) : Prop :=
  a.toReviewFields =
    { b.toReviewFields with
      reviewer := a.reviewer, humanRationale := a.humanRationale,
      machineRationale := a.machineRationale }

def StructuredDiff.SamePublic (a b : StructuredDiff) : Prop :=
  a = { b with added := a.added, removed := a.removed, fingerprint := a.fingerprint }

structure SamePublic (a b : PublicationLedgerData) : Prop where
  sources : List.Forall₂ Source.SamePublic a.sources b.sources
  evidence : List.Forall₂ Evidence.SamePublic a.evidence b.evidence
  observations : List.Forall₂ Observation.SamePublic a.observations b.observations
  candidates : List.Forall₂ StructuredDiff.SamePublic a.candidates b.candidates
  confirmedChanges : List.Forall₂ MaterialChange.SamePublic a.confirmedChanges b.confirmedChanges
  changeReviews : RelatedItems ChangeReviewItem.SamePublic a.changeReviews b.changeReviews
  latestReviewDecisions :
    List.Forall₂ ChangeReviewItem.SamePublic a.latestReviewDecisions b.latestReviewDecisions
  rest : a = { b with
    sources := a.sources
    evidence := a.evidence
    observations := a.observations
    candidates := a.candidates
    confirmedChanges := a.confirmedChanges
    changeReviews := a.changeReviews
    latestReviewDecisions := a.latestReviewDecisions }

theorem Source.SamePublic.fields {a b : Source} (h : Source.SamePublic a b) :
    a.id = b.id ∧ a.publisher = b.publisher ∧ a.name = b.name ∧ a.role = b.role ∧
      a.trustClass = b.trustClass := by
  rw [h]
  exact ⟨rfl, rfl, rfl, rfl, rfl⟩

theorem MaterialChange.SamePublic.fields {a b : MaterialChange}
    (h : MaterialChange.SamePublic a b) :
    a.id = b.id ∧ a.assertionIds = b.assertionIds ∧ a.description = b.description ∧
      a.decisionImpacts = b.decisionImpacts ∧ a.humanConfirmed = b.humanConfirmed ∧
      a.confirmedAt = b.confirmedAt := by
  rw [h]
  exact ⟨rfl, rfl, rfl, rfl, rfl, rfl⟩

theorem ChangeReviewItem.SamePublic.fields {a b : ChangeReviewItem}
    (h : ChangeReviewItem.SamePublic a b) :
    a.candidateId = b.candidateId ∧ a.status = b.status ∧ a.reviewedAt = b.reviewedAt ∧
      a.humanClassification = b.humanClassification := by
  rw [h]
  exact ⟨rfl, rfl, rfl, rfl⟩

variable {items items' : List Evidence}

theorem evidenceItem_eq {a b : Evidence} (h : Evidence.SamePublic a b) :
    evidenceItem a = evidenceItem b := by
  obtain ⟨hquote, hrest⟩ := h
  rw [evidenceItem, hquote, hrest]
  rfl

theorem panel_eq (subject : String) (h : List.Forall₂ Evidence.SamePublic items items') :
    deriveCapabilityEvidencePanel subject items = deriveCapabilityEvidencePanel subject items' := by
  have hany : ∀ p : Evidence → Bool, (∀ a b, Evidence.SamePublic a b → p a = p b) →
      items.any p = items'.any p :=
    fun p hp ↦ any_eq h hp
  unfold deriveCapabilityEvidencePanel
  rw [hany isVendorDocumentation fun a b hab ↦ by rw [hab.2]; rfl,
    hany isDemonstration fun a b hab ↦ by rw [hab.2]; rfl,
    hany isIndependentValidation fun a b hab ↦ by rw [hab.2]; rfl,
    hany isProductionEvidence fun a b hab ↦ by rw [hab.2]; rfl]

theorem supportConfidence_eq (freshness : Freshness) (contradicted : Bool)
    (h : List.Forall₂ Evidence.SamePublic items items') :
    deriveSupportConfidence items freshness contradicted =
      deriveSupportConfidence items' freshness contradicted := by
  have hdirect : List.Forall₂ Evidence.SamePublic
      (items.filter fun item ↦ item.derivativeOfEvidenceId.isNone)
      (items'.filter fun item ↦ item.derivativeOfEvidenceId.isNone) :=
    filter_related h fun a b hab ↦ by rw [hab.2]
  unfold deriveSupportConfidence
  dsimp only
  rw [any_eq (q := fun item ↦ item.sourceClass = .p1 && item.maturity ≠ .e0) hdirect
    fun a b hab ↦ by
    rw [hab.2], any_eq (q :=
        fun item ↦ item.sourceClass ∈ [SourceClass.p2, .r1, .r2, .o1, .i1]) hdirect
      fun a b hab ↦ by rw [hab.2]]
  simp only [nil_iff h]

theorem currentScope_eq {observations observations' : List Observation} (assertionId : AssertionId)
    (h : List.Forall₂ Observation.SamePublic observations observations') :
    deriveCurrentScope assertionId observations = deriveCurrentScope assertionId observations' := by
  have hfiltered := filter_related (p := fun item ↦ item.assertionId = assertionId && item.accepted)
    (q := fun item ↦ item.assertionId = assertionId && item.accepted) h fun a b hab ↦ by rw [hab]
  unfold deriveCurrentScope
  generalize observations.filter _ = accepted, observations'.filter _ = accepted' at hfiltered
  cases hfiltered with
  | nil => rfl
  | cons hab hrest =>
    have hscope : ∀ {a b}, Observation.SamePublic a b → a.scope = b.scope := fun hab ↦ by rw [hab]
    refine hscope (foldl_related hrest (fun a b a' b' hab hab' ↦ ?_) hab)
    have hbefore : observedBefore a a' = observedBefore b b' := by
      rw [hab, hab']
      rfl
    rw [hbefore]
    split_ifs
    · exact hab'
    · exact hab

variable {changes changes' : List MaterialChange} {candidates candidates' : List StructuredDiff}
  {reviews reviews' : List ChangeReviewItem}

theorem confirmed_related (h : List.Forall₂ MaterialChange.SamePublic changes changes') :
    List.Forall₂ MaterialChange.SamePublic (changes.filter (·.humanConfirmed))
      (changes'.filter (·.humanConfirmed)) :=
  filter_related h fun _ _ hab ↦ hab.fields.2.2.2.2.1

theorem confirmedIds_eq (h : List.Forall₂ MaterialChange.SamePublic changes changes') :
    (changes.filter (·.humanConfirmed)).map (·.id) =
      (changes'.filter (·.humanConfirmed)).map (·.id) :=
  map_eq (confirmed_related h) fun _ _ hab ↦ hab.fields.1

theorem changeSection_eq {a b : MaterialChange} (h : MaterialChange.SamePublic a b) :
    changeSection a = changeSection b := by
  obtain ⟨-, hassertions, hdescription, himpacts, -, -⟩ := h.fields
  unfold changeSection
  rw [hassertions, hdescription, himpacts]

theorem completedCandidates_eq (h : List.Forall₂ ChangeReviewItem.SamePublic reviews reviews') :
    (reviews.filter (·.status ≠ .pending)).map (·.candidateId) =
      (reviews'.filter (·.status ≠ .pending)).map (·.candidateId) := by
  refine map_eq (filter_related h fun a b hab ↦ ?_) fun a b hab ↦ hab.fields.1
  rw [hab.fields.2.1]

theorem dailyBrief_eq (day : Date) (available : Bool)
    (hchanges : List.Forall₂ MaterialChange.SamePublic changes changes')
    (hcandidates : List.Forall₂ StructuredDiff.SamePublic candidates candidates')
    (hreviews : List.Forall₂ ChangeReviewItem.SamePublic reviews reviews') :
    buildDailyBrief day changes candidates reviews available =
      buildDailyBrief day changes' candidates' reviews' available := by
  have hconfirmed := confirmed_related hchanges
  have hsurviving :=
    filter_related (p := (·.materialCandidate)) (q := (·.materialCandidate)) hcandidates
    fun a b hab ↦ by rw [hab]
  have hstatus : ∀ completed : List DiffId,
      dailyStatus (changes.filter (·.humanConfirmed))
        (candidates.filter (·.materialCandidate)) completed
          available =
        dailyStatus (changes'.filter (·.humanConfirmed))
          (candidates'.filter (·.materialCandidate)) completed
          available := by
    intro completed
    unfold dailyStatus
    rw [any_eq (q := fun item ↦ item.id ∉ completed) hsurviving fun a b hab ↦ by rw [hab]]
    simp only [ne_eq, nil_iff hconfirmed, nil_iff hsurviving]
  have hsection : ∀ status, statusSection (changes.filter (·.humanConfirmed)) status =
      statusSection (changes'.filter (·.humanConfirmed)) status := by
    intro status
    cases status with
    | materialChanges => exact flatMap_eq hconfirmed fun a b hab ↦ changeSection_eq hab
    | _ => rfl
  unfold buildDailyBrief
  dsimp only
  rw [completedCandidates_eq hreviews, hstatus, hsection, confirmedIds_eq hchanges]

theorem weeklyPack_eq (weekEnding : Date) (conflicts : List ContradictionFlag)
    (freshness : List (AssertionId × Freshness)) (trends : List (String × String))
    (available : Bool)
    (hchanges : List.Forall₂ MaterialChange.SamePublic changes changes') :
    buildWeeklyPack weekEnding changes conflicts freshness trends available =
      buildWeeklyPack weekEnding changes' conflicts freshness trends available := by
  have hlines : (changes.filter (·.humanConfirmed)).map (fun item ↦ "- " ++ item.description) =
      (changes'.filter (·.humanConfirmed)).map (fun item ↦ "- " ++ item.description) :=
    map_eq (confirmed_related hchanges) fun a b hab ↦ congrArg ("- " ++ ·) hab.fields.2.2.1
  unfold buildWeeklyPack
  dsimp only
  rw [hlines, confirmedIds_eq hchanges]

variable {a b : PublicationLedgerData} (cases : CaseData) (asOf : Datetime)

theorem excludedSourceIds_eq (h : SamePublic a b) : excludedSourceIds a = excludedSourceIds b := by
  refine map_eq (filter_related h.sources fun x y hxy ↦ ?_) fun x y hxy ↦ hxy.fields.1
  obtain ⟨-, -, -, hrole, htrust⟩ := hxy.fields
  rw [hrole, htrust]

theorem evidenceById_related (h : SamePublic a b) :
    RelatedItems Evidence.SamePublic (evidenceById a) (evidenceById b) := by
  have hfiltered := filter_related (p := fun item ↦ item.sourceId ∉ excludedSourceIds a)
    (q := fun item ↦ item.sourceId ∉ excludedSourceIds b) h.evidence fun x y hxy ↦ by
      rw [hxy.2, excludedSourceIds_eq h]
  refine dictOf_related (List.forall₂_map_left_iff.mpr
    (List.forall₂_map_right_iff.mpr (hfiltered.imp ?_)))
  exact fun x y hxy ↦ ⟨by rw [hxy.2], hxy⟩

theorem lookups_related (h : SamePublic a b) (ids : List EvidenceId) :
    List.Forall₂ Evidence.SamePublic (ids.filterMap fun id ↦ (evidenceById a).lookup id)
      (ids.filterMap fun id ↦ (evidenceById b).lookup id) := by
  refine filterMap_related (R := Eq) (List.forall₂_eq_eq_eq ▸ rfl) ?_
  rintro id _ rfl
  exact lookup_related (evidenceById_related h) id

theorem publishedItems_related (h : SamePublic a b) (assertion : Assertion) :
    List.Forall₂ Evidence.SamePublic (publishedItems a assertion) (publishedItems b assertion) :=
  lookups_related h assertion.evidenceIds

theorem capabilityRow_eq (h : SamePublic a b) (assertion : Assertion) :
    capabilityRow cases a asOf assertion = capabilityRow cases b asOf assertion := by
  have hitems := publishedItems_related h assertion
  have hname : capabilityName cases a assertion.slots.subject =
      capabilityName cases b assertion.slots.subject := by
    rw [h.rest]
    rfl
  have hexcluded : excludedEvidence a assertion = excludedEvidence b assertion := by
    unfold excludedEvidence
    rw [hitems.length_eq]
  have hsupport : supportItem a asOf assertion = supportItem b asOf assertion := by
    unfold supportItem
    rw [hexcluded, supportConfidence_eq _ _ hitems]
  unfold capabilityRow
  rw [hname, hsupport, currentScope_eq assertion.id h.observations, panel_eq _ hitems,
    map_eq hitems fun x y hxy ↦ evidenceItem_eq hxy]

theorem changeRow_eq (h : SamePublic a b) {x y : MaterialChange}
    (hxy : MaterialChange.SamePublic x y) :
    changeRow a x = changeRow b y := by
  have hclassifications : changeClassifications a = changeClassifications b := by
    refine filterMap_eq h.changeReviews fun x y hxy ↦ ?_
    rw [hxy.1, hxy.2.fields.2.2.2]
  have hassertions : assertionsById a = assertionsById b := by
    rw [h.rest]
    rfl
  obtain ⟨hid, hnamed, hdescription, himpacts, -, hat⟩ := hxy.fields
  unfold changeRow
  rw [hclassifications, hassertions, hid, hnamed, hdescription, himpacts, hat]

theorem changeRows_eq (h : SamePublic a b) : changeRows a = changeRows b :=
  map_eq h.confirmedChanges fun _ _ hxy ↦ changeRow_eq h hxy

theorem assertionsOf_eq (h : SamePublic a b) (system : System) :
    assertionsOf a system = assertionsOf b system := by
  rw [h.rest]
  rfl

theorem capabilityRows_eq (h : SamePublic a b) (system : System) :
    capabilityRows cases a asOf system = capabilityRows cases b asOf system := by
  unfold capabilityRows
  rw [assertionsOf_eq h]
  exact List.map_congr_left fun assertion _ ↦ capabilityRow_eq cases asOf h assertion

theorem agentRow_eq (h : SamePublic a b) (system : System) (agent : Agent) :
    agentRow cases a asOf system agent = agentRow cases b asOf system agent := by
  unfold agentRow
  rw [capabilityRows_eq cases asOf h, assertionsOf_eq h]

theorem citedSourceIds_eq (h : SamePublic a b) (system : System) :
    citedSourceIds cases a asOf system = citedSourceIds cases b asOf system := by
  unfold citedSourceIds
  rw [capabilityRows_eq cases asOf h, assertionsOf_eq h]
  congr 1
  refine List.flatMap_congr fun assertion _ ↦ ?_
  exact map_eq (lookups_related h assertion.contradictingEvidenceIds) fun x y hxy ↦ by rw [hxy.2]

theorem systemSources_eq (h : SamePublic a b) (system : System) :
    systemSources cases a asOf system = systemSources cases b asOf system := by
  unfold systemSources
  rw [citedSourceIds_eq cases asOf h]
  refine map_eq (filter_related h.sources fun x y hxy ↦ ?_) fun x y hxy ↦ ?_
  · rw [hxy.fields.1]
  · obtain ⟨hid, hpublisher, hname, -, -⟩ := hxy.fields
    rw [hid, hpublisher, hname]

theorem systemRow_eq (h : SamePublic a b) (system : System) :
    systemRow cases a asOf system = systemRow cases b asOf system := by
  have hvendor : vendorOf a system = vendorOf b system := by
    rw [h.rest]
    rfl
  have hagents : a.agents = b.agents := by rw [h.rest]
  have hautonomy : autonomyRowOf a system = autonomyRowOf b system := by
    rw [h.rest]
    rfl
  have hlifecycle : lifecycleRows a system = lifecycleRows b system := by
    rw [h.rest]
    rfl
  have hconflicts : conflictsOf a system = conflictsOf b system := by
    rw [h.rest]
    rfl
  have hversions : a.methodologyVersion = b.methodologyVersion ∧
      a.taxonomyVersion = b.taxonomyVersion := by
    rw [h.rest]
    exact ⟨rfl, rfl⟩
  have hstatements : statementRows a system = statementRows b system := by
    funext subjectType
    rw [statementRows, statementRows, assertionsOf_eq h]
  have hagentRows : agentRow cases a asOf system = agentRow cases b asOf system :=
    funext fun agent ↦ agentRow_eq cases asOf h system agent
  unfold systemRow
  rw [hvendor, hagents, hautonomy, hlifecycle, hconflicts, hversions.1, hversions.2,
    hstatements, hagentRows, changeRows_eq h, capabilityRows_eq cases asOf h,
    systemSources_eq cases asOf h]

theorem publicSources_eq (h : SamePublic a b) (systems : List SystemRow) :
    publicSources a systems = publicSources b systems := by
  unfold publicSources
  dsimp only
  rw [excludedSourceIds_eq h]
  refine map_eq (filter_related h.sources fun x y hxy ↦ ?_) fun x y hxy ↦ ?_
  · rw [hxy.fields.1]
  · obtain ⟨hid, hpublisher, hname, hrole, -⟩ := hxy.fields
    rw [hid, hpublisher, hname, hrole]

theorem reportRows_eq (unicode : UnicodeData) (h : SamePublic a b) :
    reportRows a asOf unicode = reportRows b asOf unicode := by
  have hassertions : a.assertions = b.assertions := by rw [h.rest]
  have hsystems : a.systems = b.systems := by rw [h.rest]
  have hconflicts : a.conflicts = b.conflicts := by rw [h.rest]
  have hlifecycle : a.lifecycleEvents = b.lifecycleEvents := by rw [h.rest]
  have hcontent : hasReportContent a = hasReportContent b := by
    unfold hasReportContent
    rw [hassertions, hsystems, hconflicts]
    simp only [ne_eq, nil_iff h.candidates, nil_iff h.confirmedChanges,
      nil_iff h.latestReviewDecisions]
  have hreports : siteReports unicode a asOf = siteReports unicode b asOf := by
    unfold siteReports assertionFreshness trendResults
    rw [hcontent, hassertions, hconflicts, hlifecycle,
      dailyBrief_eq _ _ h.confirmedChanges h.candidates h.latestReviewDecisions]
    simp only [weeklyPack_eq _ _ _ _ _ h.confirmedChanges]
  unfold reportRows
  rw [hreports]

theorem semanticAsOf_eq (h : SamePublic a b) : semanticAsOf a = semanticAsOf b := by
  have hsystems : a.systems = b.systems := by rw [h.rest]
  have hassertions : a.assertions = b.assertions := by rw [h.rest]
  have hpublished : a.methodologyPublishedAt = b.methodologyPublishedAt := by rw [h.rest]
  unfold semanticAsOf
  rw [hsystems, hassertions, hpublished,
    map_eq (g := (·.lastVerifiedAt)) h.evidence fun x y hxy ↦ by rw [hxy.2],
    filterMap_eq (g := (·.confirmedAt)) h.confirmedChanges fun x y hxy ↦ hxy.fields.2.2.2.2.2,
    filterMap_eq (g := (·.reviewedAt)) h.latestReviewDecisions fun x y hxy ↦ hxy.fields.2.2.1]

/-- The publication and its date are functions of the public fields. -/
theorem private_fields_unpublished {a b : PublicationLedgerData} (h : SamePublic a b)
    (cases : CaseData) (unicode : UnicodeData) (now : Datetime) (generatedAt asOf : Option Datetime)
    (canonicalBase : String) :
    buildSiteData cases a unicode now generatedAt asOf canonicalBase =
      buildSiteData cases b unicode now generatedAt asOf canonicalBase ∧
    semanticAsOf a = semanticAsOf b := by
  refine ⟨?_, semanticAsOf_eq h⟩
  have hsystems : a.systems = b.systems := by rw [h.rest]
  have hversions : a.methodologyVersion = b.methodologyVersion ∧
      a.taxonomyVersion = b.taxonomyVersion := by
    rw [h.rest]
    exact ⟨rfl, rfl⟩
  have hrows : ∀ t, systemRow cases a t = systemRow cases b t :=
    fun t ↦ funext fun system ↦ systemRow_eq cases t h system
  have hclaims : ∀ t, claimRows cases a t = claimRows cases b t := by
    intro t
    funext system
    rw [claimRows, claimRows, capabilityRows_eq cases t h]
  have hsources : publicSources a = publicSources b :=
    funext fun systems ↦ publicSources_eq h systems
  unfold buildSiteData
  dsimp only
  rw [hsystems, hrows, hclaims, hversions.1, hversions.2, hsources, changeRows_eq h,
    reportRows_eq _ unicode h]

def notedSource (notes : String) : Source where
  id := { text := "SRC-NOTED" }
  publisher := "Publisher"
  name := "Documentation"
  kind := .fixture
  domains := []
  trustClass := .official
  status := .approved
  enabled := true
  policy := { allowedClaimTypes := ∅, allowedClaimPurposes := ∅, crawlFrequency := notes }
  pinnedAt := sampleDay
  fallbackNote := notes
  notes := notes
  accepted := rfl

def notedObservation (statement : String) : Observation where
  id := { text := "OBS-NOTED" }
  assertionId := { text := "ASRT-NOTED" }
  evidenceId := { text := "EV-NOTED" }
  observedStatement := statement
  observedAt := .midnight sampleDay
  firstSeenAt := .midnight sampleDay
  retrievedAt := .midnight sampleDay
  lastSeenAt := .midnight sampleDay
  lastVerifiedAt := .midnight sampleDay

def notedEvidence (notes : String) : Evidence where
  id := (notedObservation notes).evidenceId
  sourceId := (notedSource notes).id
  sourceClass := .p1
  maturity := .e1
  claimPurpose := .documentation
  anchor :=
    { snapshotId := { text := "SNAP-NOTED" }, snapshotSha256 := zeroHash,
      normalizerVersion := "norm-1.0", documentPath := notes, documentHeading := notes,
      quote := "The agent triages alerts.", startOffset := 0,
      endOffset := 25, accepted := rfl }
  publishedAt := none
  firstSeenAt := .midnight sampleDay
  retrievedAt := .midnight sampleDay
  lastSeenAt := .midnight sampleDay
  lastVerifiedAt := .midnight sampleDay

def notedAssertion : Assertion where
  id := (notedObservation "").assertionId
  assertionKey := "triage-system:_system:alert-triage:supports:alerts"
  taxonomyVersion := "ASI-TAXONOMY-1.1"
  systemId := "triage-system"
  slots :=
    { system := "triage-system", subjectType := .capability, subject := "alert-triage",
      action := "supports", object := "alerts" }
  statement := "The agent triages alerts."
  canonicalRendering := "triage-system supports alert-triage on alerts"
  state := .affirmed
  supportConfidence := .medium
  supportConfidenceRationale := ""
  firstSeenAt := .midnight sampleDay
  retrievedAt := .midnight sampleDay
  lastSeenAt := .midnight sampleDay
  firstObservedAt := .midnight sampleDay
  lastVerifiedAt := .midnight sampleDay
  methodologyVersion := "ASI-1.0"
  evidenceIds := [(notedEvidence "").id]

def notedData (notes : String) : PublicationLedgerData where
  vendors := [{ id := "triage-vendor", name := "Vendor", website := "https://example.com" }]
  systems :=
    [{ id := "triage-system", vendorId := "triage-vendor", name := "System", category := "agent", description := "",
       firstObservedAt := .midnight sampleDay, lastVerifiedAt := .midnight sampleDay }]
  sources := [notedSource notes]
  evidence := [notedEvidence notes]
  assertions := [notedAssertion]
  observations := [notedObservation notes]
  confirmedChanges :=
    [{ januaryChange with confirmedBy := some ("Reviewer " ++ notes), accepted := by rfl }]

theorem private_fields_unpublished_notedData :
    ∃ payload system, payload.systems = [system] ∧ system.capabilities.length = 1 ∧
      buildSiteData asciiCases (notedData "internal") asciiData (.midnight sampleDay) none none
        "https://example.com/" =
        .ok payload ∧
      buildSiteData asciiCases (notedData "") asciiData (.midnight sampleDay) none none "https://example.com/" =
        .ok payload ∧
      semanticAsOf (notedData "internal") = semanticAsOf (notedData "") := by
  have hsame : SamePublic (notedData "internal") (notedData "") :=
    { sources := .cons rfl .nil
      evidence := .cons ⟨rfl, rfl⟩ .nil
      observations := .cons rfl .nil
      candidates := .nil
      confirmedChanges := .cons rfl .nil
      changeReviews := .nil
      latestReviewDecisions := .nil
      rest := rfl }
  obtain ⟨hsite, hdate⟩ :=
    private_fields_unpublished hsame asciiCases asciiData (.midnight sampleDay) none none
      "https://example.com/"
  exact ⟨_, _, rfl, rfl, hsite.trans rfl, rfl, hdate⟩

end AgenticSecurity.Site
