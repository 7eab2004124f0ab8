import AgenticSecurity.Storage.EvidencePolicy

namespace AgenticSecurity.Storage

open Library Models Runs

/-- The row quotes the snapshot: the anchor is of it, of its hash and, where it is of a repository,
of its commit and file, and the quote stands between the offsets. -/
structure QuotesSnapshot (contentSha256 : String → Sha256) (row : EvidenceRow)
    (snapshot : Snapshot) : Prop where
  ids : row.snapshotId = snapshot.id ∧ row.payload.anchor.snapshotId = snapshot.id
  source : snapshot.sourceId = row.sourceId
  ownHash : snapshot.sha256 = contentSha256 snapshot.normalizedText
  anchorHash : row.payload.anchor.snapshotSha256 = snapshot.sha256
  normalizer : row.payload.anchor.normalizerVersion = snapshot.normalizerVersion
  repository : snapshot.repository.isSome → row.payload.anchor.repository = snapshot.repository ∧
    row.payload.anchor.commitSha = snapshot.commitSha ∧
    row.payload.anchor.filePath = snapshot.filePath
  withinText : row.payload.anchor.endOffset ≤ snapshot.normalizedText.toList.length
  quote : (snapshot.normalizedText.toList.take row.payload.anchor.endOffset).drop
    row.payload.anchor.startOffset =
    row.payload.anchor.quote.toList

structure EvidenceRow.Limited (row : EvidenceRow) : Prop where
  vendorSelf :
    ∀ facets ∈ row.payload.independenceFacets, facets.commercialRelationship = .vendorSelf →
    row.maturity ≠ .e4 ∧ row.maturity ≠ .e5
  derivative : row.derivativeOfEvidenceId.isSome → row.maturity = .e0 ∨ row.maturity = .e1
  secondary : row.sourceClass = .s1 → row.maturity = .e0 ∨ row.maturity = .e1

theorem quotes_of_valid {contentSha256 : String → Sha256} {evidence : Evidence}
    {snapshot : Snapshot} (hown : snapshot.sourceId = evidence.sourceId)
    (h : Evidence.validateEvidenceAnchor contentSha256 evidence snapshot = .ok ()) :
    QuotesSnapshot contentSha256 (evidenceRow evidence) snapshot := by
  have haccepted := Evidence.anchorAccepted_of_ok h
  exact ⟨⟨haccepted.snapshotId, haccepted.snapshotId⟩, hown, haccepted.ownHash,
    haccepted.anchorHash.trans haccepted.ownHash.symm, haccepted.normalizer,
    fun hrepository ↦ ⟨(haccepted.git hrepository).repository,
      (haccepted.git hrepository).commitSha,
      (haccepted.git hrepository).filePath⟩, haccepted.within, haccepted.quote⟩

theorem limited_of_valid {evidence : Evidence}
    (h : Evidence.validateEvidenceClassification evidence = .ok ()) :
    (evidenceRow evidence).Limited := by
  unfold Evidence.validateEvidenceClassification at h
  split_ifs at h with hvendor hderivative hsecondary
  rw [not_and] at hvendor
  rw [not_and, not_not] at hderivative hsecondary
  have hlow : evidence.maturity ∈ [EvidenceMaturity.e0, .e1] → evidence.maturity = .e0 ∨
      evidence.maturity = .e1 :=
    List.mem_pair.mp
  refine ⟨fun facets hfacets hself ↦ ?_, fun hsome ↦ hlow (hderivative hsome),
    fun hclass ↦ hlow (hsecondary hclass)⟩
  have hfacets' : evidence.independenceFacets = some facets := hfacets
  have hmaturity := hvendor (by rw [hfacets']; exact decide_eq_true hself)
  exact ⟨fun h ↦ hmaturity (List.mem_pair.mpr (.inl h)),
    fun h ↦ hmaturity (List.mem_pair.mpr (.inr h))⟩

/-- Each row has the columns of its payload, keeps the limits, and quotes the snapshot that is
stored under its id. -/
def EvidenceExact (contentSha256 : String → Sha256) (ledger : Ledger) : Prop :=
  ∀ row ∈ ledger.evidence, row = evidenceRow row.payload ∧ row.Limited ∧
    ∃ snapshot, ledger.snapshots.find? (fun s ↦ s.id = row.snapshotId) = some snapshot ∧
      QuotesSnapshot contentSha256 row snapshot

theorem EvidenceExact.of_eq {contentSha256 : String → Sha256} {ledger ledger' : Ledger}
    (h : EvidenceExact contentSha256 ledger) (hevidence : ledger'.evidence = ledger.evidence)
    (hsnapshots : ledger.snapshots <+: ledger'.snapshots) :
    EvidenceExact contentSha256 ledger' := by
  intro row hrow
  obtain ⟨hcolumns, hlimited, snapshot, hfound, hquotes⟩ := h row (hevidence ▸ hrow)
  obtain ⟨later, hlater⟩ := hsnapshots
  refine ⟨hcolumns, hlimited, snapshot, ?_, hquotes⟩
  rw [← hlater, List.find?_append, hfound, Option.some_or]

theorem EvidenceExact.record {contentSha256 : String → Sha256} {ledger ledger' : Ledger}
    {call : EvidenceCall} (h : EvidenceExact contentSha256 ledger)
    (hcall : ledger.record contentSha256 call = .ok ledger') :
    EvidenceExact contentSha256 ledger' := by
  cases call with
  | addSource source =>
    obtain ⟨-, rfl⟩ := addSource_ok hcall
    exact h.of_eq rfl List.prefix_rfl
  | syncSource source =>
    exact h.of_eq (syncSource_evidence hcall) (by rw [syncSource_snapshots hcall])
  | addSnapshot snapshot =>
    obtain rfl := addSnapshot_ok hcall
    exact h.of_eq rfl (List.prefix_append _ _)
  | addEvidence evidence =>
    obtain ⟨_, snapshot, -, hfound, hown, hanchor, hclass, -, -, -, rfl⟩ := addEvidence_ok hcall
    intro row hrow
    rcases List.mem_append.mp hrow with hold | hnew
    · exact h row hold
    · obtain rfl := List.mem_singleton.mp hnew
      exact ⟨rfl, limited_of_valid hclass, snapshot, hfound, quotes_of_valid hown hanchor⟩

/-- After every sequence of calls, accepted and refused. -/
theorem evidence_exact (contentSha256 : String → Sha256) (calls : List EvidenceCall) :
    EvidenceExact contentSha256 (recorded contentSha256 calls) :=
  attempts_invariant (EvidenceExact contentSha256) (fun _ hrow ↦ absurd hrow List.not_mem_nil)
    fun _ _ _ _ h hcall ↦ h.record hcall

end AgenticSecurity.Storage
