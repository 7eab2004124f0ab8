import AgenticSecurity.Changes.Review
import AgenticSecurity.Storage.Corpus
import AgenticSecurity.Storage.ReviewHistory

namespace AgenticSecurity.Storage

open Changes Library Models Python Runs

theorem reviewRow_subtypeCheck (review : ChangeReviewItem) :
    (reviewRow review).subtypeCheck = true := by
  have hiff := review.subtype_iff
  simp only [ReviewRow.subtypeCheck, reviewRow]
  cases hsubtype : review.evidenceStatusSubtype with
  | none =>
    have hclass : review.machineClassification ≠ .evidenceStatusChange :=
      fun h ↦ by simp [hsubtype, h] at hiff
    simp [hclass]
  | some subtype =>
    have hclass : review.machineClassification = .evidenceStatusChange :=
      hiff.mpr (by simp [hsubtype])
    simp [hclass]

theorem reviewRow_decisionCheck (review : ChangeReviewItem) :
    (reviewRow review).decisionCheck = true := by
  simp only [ReviewRow.decisionCheck, reviewRow]
  by_cases hstatus : review.status = .pending
  · obtain ⟨hdecision, hprior⟩ := review.pending_fields hstatus
    simp only [ReviewFields.anyDecision, Bool.or_eq_false_iff, Option.isSome_eq_false_iff]
      at hdecision
    simp [hstatus, hdecision, hprior]
  · obtain ⟨hdecision, hprior, -⟩ := review.completed_fields hstatus
    simp only [ReviewFields.allDecision, Bool.and_eq_true] at hdecision
    simp [hstatus, hdecision, Option.isSome_iff_ne_none.mpr hprior]

variable {ledger ledger' : Ledger}

theorem addDiff_admitted {diff : StructuredDiff}
    (hfresh : diff.id ∉ ledger.structuredDiffs.map DiffRow.id)
    (hsource : diff.sourceId ∈ ledger.sources.map SourceRow.id)
    (hold : diff.oldSnapshotId ∈ ledger.snapshots.map (·.id))
    (hnew : diff.newSnapshotId ∈ ledger.snapshots.map (·.id)) :
    ledger.addDiff diff = .ok { ledger with structuredDiffs :=
        ledger.structuredDiffs ++ [diffRow diff] } := by
  have hinsert := Table.insert_eq_some.mpr ⟨show (diffRow diff).id ∉ _ from hfresh, rfl⟩
  rw [Ledger.addDiff, hinsert]
  simp [hsource, hold, hnew]

theorem addReview_admitted (ledger : Ledger) (review : ChangeReviewItem)
    (htrigger : ∀ prior, review.priorReviewId = some prior →
      ∃ older ∈ ledger.changeReviewQueue, (reviewRow review).preservedBy older = true)
    (hfresh : review.id ∉ ledger.changeReviewQueue.map ReviewRow.id)
    (hroot : review.priorReviewId = none →
      ∀ r ∈ ledger.changeReviewQueue, r.candidateId ≠ review.candidateId)
    (hlast : ∀ prior, review.priorReviewId = some prior →
      ∀ r ∈ ledger.changeReviewQueue, r.priorReviewId ≠ some prior)
    (hcandidate : review.candidateId ∈ ledger.structuredDiffs.map DiffRow.id)
    (hmethodology : review.methodologyVersion ∈ ledger.methodologyVersions.map MethodologyRow.id) :
    ledger.addReview review =
      .ok { ledger with changeReviewQueue := ledger.changeReviewQueue ++ [reviewRow review] } := by
  have hpreserved : ¬ ((reviewRow review).priorReviewId.isSome ∧
      ¬ ledger.changeReviewQueue.any (reviewRow review).preservedBy) := by
    rintro ⟨hsome, hnone⟩
    obtain ⟨prior, hprior⟩ := Option.isSome_iff_exists.mp hsome
    exact hnone (List.any_eq_true.mpr (htrigger prior hprior))
  have hchecks : ¬ (¬ (reviewRow review).subtypeCheck ∨ ¬ (reviewRow review).decisionCheck) := by
    simp [reviewRow_subtypeCheck, reviewRow_decisionCheck]
  have hid : (reviewRow review).id ∉ ledger.changeReviewQueue.map ReviewRow.id := hfresh
  have hproposal : ¬ ((reviewRow review).priorReviewId = none ∧ ∃ r ∈ ledger.changeReviewQueue,
      r.priorReviewId = none ∧ r.candidateId = (reviewRow review).candidateId) := by
    rintro ⟨hnone, r, hr, -, hsame⟩
    exact hroot hnone r hr hsame
  have hsuccessor : ¬ ((reviewRow review).priorReviewId ≠ none ∧
      ∃ r ∈ ledger.changeReviewQueue, r.priorReviewId = (reviewRow review).priorReviewId) := by
    rintro ⟨hsome, r, hr, hsame⟩
    obtain ⟨prior, hprior⟩ := Option.ne_none_iff_exists'.mp hsome
    exact hlast prior hprior r hr (hsame.trans hprior)
  have hforeign : ¬ ((reviewRow review).candidateId ∉ ledger.structuredDiffs.map DiffRow.id ∨
      (reviewRow review).methodologyVersion ∉ ledger.methodologyVersions.map MethodologyRow.id) :=
    not_or.mpr ⟨not_not.mpr hcandidate, not_not.mpr hmethodology⟩
  unfold Ledger.addReview insertReview
  dsimp only
  rw [if_neg hpreserved, if_neg hchecks, if_neg hid, if_neg hproposal, if_neg hsuccessor,
    if_neg hforeign]

structure Ledger.Linked (ledger : Ledger) : Prop where
  methodology : "ASI-1.0" ∈ ledger.methodologyVersions.map MethodologyRow.id
  sources : ∀ snapshot ∈ ledger.snapshots, snapshot.sourceId ∈ ledger.sources.map SourceRow.id
  candidates : ∀ r ∈ ledger.changeReviewQueue, r.candidateId ∈ ledger.structuredDiffs.map DiffRow.id
  priors : ∀ r ∈ ledger.changeReviewQueue, ∀ prior, r.priorReviewId = some prior →
    prior ∈ ledger.changeReviewQueue.map ReviewRow.id

theorem syncSource_kept {source : Source} (h : ledger.syncSource source = .ok ledger') :
    ∃ sources : List SourceRow, ledger' = { ledger with sources } ∧
      ∀ id ∈ ledger.sources.map SourceRow.id, id ∈ sources.map SourceRow.id := by
  unfold Ledger.syncSource at h
  split at h
  · obtain ⟨-, rfl⟩ := addSource_ok h
    exact ⟨_, rfl, fun id hid ↦ by rw [List.map_append]; exact List.mem_append_left _ hid⟩
  · split_ifs at h
    · exact ⟨ledger.sources, (Except.ok.inj h).symm, fun _ hid ↦ hid⟩
    · refine ⟨_, (Except.ok.inj h).symm, fun id hid ↦ ?_⟩
      obtain ⟨row, hrow, rfl⟩ := List.mem_map.mp hid
      by_cases hsame : row.id = source.id
      · refine List.mem_map.mpr ⟨sourceRow source,
          Table.mem_updateWhere.mpr ⟨row, hrow, ?_⟩, hsame.symm⟩
        rw [if_pos (decide_eq_true hsame)]
      · refine List.mem_map.mpr ⟨row, Table.mem_updateWhere.mpr ⟨row, hrow, ?_⟩, rfl⟩
        rw [if_neg (by simpa using hsame)]

theorem Ledger.Linked.record {contentSha256 : String → Sha256} {call : EvidenceCall}
    (hlinked : ledger.Linked) (h : ledger.record contentSha256 call = .ok ledger') :
    ledger'.Linked := by
  cases call with
  | addSource source =>
    obtain ⟨-, rfl⟩ := addSource_ok h
    refine ⟨hlinked.methodology, fun snapshot hsnapshot ↦ ?_, hlinked.candidates, hlinked.priors⟩
    rw [List.map_append]
    exact List.mem_append_left _ (hlinked.sources snapshot hsnapshot)
  | syncSource source =>
    obtain ⟨sources, rfl, hkept⟩ := syncSource_kept h
    exact ⟨hlinked.methodology,
      fun snapshot hsnapshot ↦ hkept _ (hlinked.sources snapshot hsnapshot), hlinked.candidates,
      hlinked.priors⟩
  | addSnapshot snapshot =>
    replace h : ledger.addSnapshot snapshot = .ok ledger' := h
    unfold Ledger.addSnapshot at h
    split_ifs at h with _ _ hforeign
    obtain rfl := Except.ok.inj h
    refine ⟨hlinked.methodology, fun s hs ↦ ?_, hlinked.candidates, hlinked.priors⟩
    rcases List.mem_append.mp hs with hold | hnew
    · exact hlinked.sources s hold
    · obtain rfl := List.mem_singleton.mp hnew
      exact not_not.mp (not_or.mp hforeign).1
  | addEvidence evidence =>
    obtain ⟨_, _, -, -, -, -, -, -, -, -, rfl⟩ := addEvidence_ok h
    exact ⟨hlinked.methodology, hlinked.sources, hlinked.candidates, hlinked.priors⟩

theorem addReview_linked {review : ChangeReviewItem} (hlinked : ledger.Linked)
    (h : ledger.addReview review = .ok ledger') : ledger'.Linked := by
  have hcandidate : review.candidateId ∈ ledger.structuredDiffs.map DiffRow.id := by
    have h' := h
    unfold Ledger.addReview insertReview at h'
    dsimp only at h'
    split_ifs at h' with _ _ _ _ _ hforeign
    exact not_not.mp (not_or.mp hforeign).1
  obtain ⟨htrigger, -, -, -, -, -, rfl⟩ := insertReview_ok h
  refine ⟨hlinked.methodology, hlinked.sources, fun r hr ↦ ?_, fun r hr prior hprior ↦ ?_⟩
  · rcases List.mem_append.mp hr with hold | hnew
    · exact hlinked.candidates r hold
    · obtain rfl := List.mem_singleton.mp hnew
      exact hcandidate
  · rw [List.map_append]
    refine List.mem_append_left _ ?_
    rcases List.mem_append.mp hr with hold | hnew
    · exact hlinked.priors r hold prior hprior
    · obtain rfl := List.mem_singleton.mp hnew
      obtain ⟨older, holder, hpreserved⟩ := htrigger (by simp [hprior])
      simp only [ReviewRow.preservedBy, Bool.and_eq_true, decide_eq_true_eq,
        and_assoc] at hpreserved
      exact List.mem_map.mpr ⟨older, holder, Option.some.inj (hpreserved.1.trans hprior)⟩

theorem Ledger.Linked.pass2 {call : Pass2Call} (hlinked : ledger.Linked)
    (h : ledger.pass2 call = .ok ledger') :
    ledger'.Linked := by
  cases call with
  | addDiff diff =>
    obtain rfl := addDiff_ok h
    refine ⟨hlinked.methodology, hlinked.sources, fun r hr ↦ ?_, hlinked.priors⟩
    rw [List.map_append]
    exact List.mem_append_left _ (hlinked.candidates r hr)
  | addReview review => exact addReview_linked hlinked h
  | addConfirmedChange change reviewId =>
    obtain ⟨_, _, -, -, -, -, -, -, rfl⟩ := addConfirmedChange_ok h
    exact ⟨hlinked.methodology, hlinked.sources, hlinked.candidates, hlinked.priors⟩
  | addConflict conflict =>
    obtain ⟨-, rfl⟩ := addConflict_ok h
    exact ⟨hlinked.methodology, hlinked.sources, hlinked.candidates, hlinked.priors⟩
  | addResolution resolution =>
    obtain ⟨-, -, rfl⟩ := addResolution_ok.mp h
    exact ⟨hlinked.methodology, hlinked.sources, hlinked.candidates, hlinked.priors⟩

theorem Ledger.Linked.perform {contentSha256 : String → Sha256} {call : RepositoryCall}
    (hlinked : ledger.Linked) (h : ledger.perform contentSha256 call = .ok ledger') :
    ledger'.Linked := by
  by_cases hevidence : ∃ c, call = .evidence c
  · obtain ⟨c, rfl⟩ := hevidence
    exact hlinked.record h
  by_cases hpass2 : ∃ c, call = .pass2 c
  · obtain ⟨c, rfl⟩ := hpass2
    exact hlinked.pass2 h
  have houtside := perform_outsideCorpus h (fun c hc ↦ hevidence ⟨c, hc⟩) fun c hc ↦ hpass2 ⟨c, hc⟩
  have hlinked' : ledger.outsideCorpus.Linked :=
    ⟨hlinked.methodology, hlinked.sources, hlinked.candidates, hlinked.priors⟩
  rw [← houtside] at hlinked'
  exact ⟨hlinked'.methodology, hlinked'.sources, hlinked'.candidates, hlinked'.priors⟩

/-- The ledger after the metadata has been seeded and some calls have been tried. -/
def seededRun (sha256 : String → Sha256) (methodologies : List MethodologyRow)
    (taxonomies : List TaxonomyRow) (calls : List RepositoryCall) : Ledger :=
  attempts (Ledger.perform sha256)
    { methodologyVersions := methodologies, taxonomyVersions := taxonomies } calls

theorem seededRun_linked (sha256 : String → Sha256) {methodologies : List MethodologyRow}
    (taxonomies : List TaxonomyRow) (calls : List RepositoryCall)
    (hseeded : "ASI-1.0" ∈ methodologies.map MethodologyRow.id) :
    (seededRun sha256 methodologies taxonomies calls).Linked := by
  refine attempts_invariant Ledger.Linked ?_ fun _ _ _ _ hlinked hcall ↦ hlinked.perform hcall
  exact ⟨hseeded, fun _ h ↦ absurd h List.not_mem_nil, fun _ h ↦ absurd h List.not_mem_nil,
    fun _ h ↦ absurd h List.not_mem_nil⟩

theorem decision_preservedBy {item decision : ChangeReviewItem} {reviewId : Option ReviewId}
    {reviewer rationale : String} {reviewedAt : Datetime} {classification : ChangeClassification}
    {impacts : Finset DecisionImpact}
    (h : decision.toReviewFields =
      decisionFields item reviewId reviewer reviewedAt classification impacts rationale) :
    (reviewRow decision).preservedBy (reviewRow item) = true := by
  simp [ReviewRow.preservedBy, reviewRow, h, decisionFields]

theorem store_reviewed {unicode : UnicodeData} {diff : StructuredDiff}
    {proposal decision : ChangeReviewItem} {reviewId : ReviewId} {decisionId : Option ReviewId}
    {reviewer rationale : String} {reviewedAt : Datetime}
    {classification : ChangeClassification} {impacts : Finset DecisionImpact}
    (hlinked : ledger.Linked)
    (hproposal : proposal.toReviewFields = proposalFields unicode diff reviewId)
    (hdecision : decision.toReviewFields =
      decisionFields proposal decisionId reviewer reviewedAt classification impacts rationale)
    (hsource : diff.sourceId ∈ ledger.sources.map SourceRow.id)
    (hold : diff.oldSnapshotId ∈ ledger.snapshots.map (·.id))
    (hnew : diff.newSnapshotId ∈ ledger.snapshots.map (·.id))
    (hdiff : diff.id ∉ ledger.structuredDiffs.map DiffRow.id)
    (hreview : reviewId ∉ ledger.changeReviewQueue.map ReviewRow.id)
    (hfresh : decision.id ∉ reviewId :: ledger.changeReviewQueue.map ReviewRow.id) :
    [Pass2Call.addDiff diff, .addReview proposal, .addReview decision].foldlM Ledger.pass2 ledger =
      .ok { ledger with
        structuredDiffs := ledger.structuredDiffs ++ [diffRow diff]
        changeReviewQueue := ledger.changeReviewQueue ++ [reviewRow proposal] ++
          [reviewRow decision] } := by
  have hid : proposal.id = reviewId := congrArg ReviewFields.id hproposal
  have hcandidate : proposal.candidateId = diff.id := congrArg ReviewFields.candidateId hproposal
  have hmethodology : proposal.methodologyVersion = "ASI-1.0" :=
    congrArg ReviewFields.methodologyVersion hproposal
  have hroot : proposal.priorReviewId = none := congrArg ReviewFields.priorReviewId hproposal
  have hprior : decision.priorReviewId = some proposal.id :=
    congrArg ReviewFields.priorReviewId hdecision
  have hsame : decision.candidateId = diff.id :=
    (congrArg ReviewFields.candidateId hdecision).trans hcandidate
  have hversion : decision.methodologyVersion = "ASI-1.0" :=
    (congrArg ReviewFields.methodologyVersion hdecision).trans hmethodology
  have hstored : diff.id ∈ (ledger.structuredDiffs ++ [diffRow diff]).map DiffRow.id :=
    List.mem_map.mpr ⟨diffRow diff, List.mem_append_right _ (List.mem_singleton_self _), rfl⟩
  -- no row of the queue is about the new diff, and none follows the new review
  have hother : ∀ r ∈ ledger.changeReviewQueue, r.candidateId ≠ diff.id :=
    fun r hr h ↦ hdiff (h ▸ hlinked.candidates r hr)
  have hunfollowed : ∀ r ∈ ledger.changeReviewQueue, r.priorReviewId ≠ some reviewId :=
    fun r hr h ↦ hreview (hlinked.priors r hr reviewId h)
  have hfirst := addDiff_admitted hdiff hsource hold hnew
  have hsecond :=
    addReview_admitted { ledger with structuredDiffs := ledger.structuredDiffs ++ [diffRow diff] }
    proposal (fun prior h ↦ absurd (hroot.symm.trans h) (by simp)) (hid ▸ hreview)
    (fun _ r hr ↦ hcandidate ▸ hother r hr) (fun prior h ↦ absurd (hroot.symm.trans h) (by simp))
    (hcandidate ▸ hstored) (hmethodology ▸ hlinked.methodology)
  have hids :
      decision.id ∉ (ledger.changeReviewQueue ++ [reviewRow proposal]).map ReviewRow.id := by
    rw [List.map_append, List.mem_append, not_or]
    obtain ⟨hne, hnotin⟩ := not_or.mp (mt List.mem_cons.mpr hfresh)
    exact ⟨hnotin, fun h ↦ hne ((List.mem_singleton.mp h).trans hid)⟩
  have hlast :
      ∀ r ∈ ledger.changeReviewQueue ++ [reviewRow proposal], r.priorReviewId ≠ some reviewId := by
    intro r hr
    rcases List.mem_append.mp hr with hqueue | hnew
    · exact hunfollowed r hqueue
    · obtain rfl := List.mem_singleton.mp hnew
      exact fun h ↦ absurd (hroot.symm.trans h) (by simp)
  have hthird := addReview_admitted
    { ledger with
      structuredDiffs := ledger.structuredDiffs ++ [diffRow diff]
      changeReviewQueue := ledger.changeReviewQueue ++ [reviewRow proposal] }
    decision
    (fun _ _ ↦ ⟨reviewRow proposal, List.mem_append_right _ (List.mem_singleton_self _),
      decision_preservedBy hdecision⟩)
    hids (fun h ↦ absurd (hprior.symm.trans h) (by simp))
    (fun prior h ↦ Option.some.inj (h.symm.trans hprior) ▸ hid.symm ▸ hlast) (hsame ▸ hstored)
    (hversion ▸ hlinked.methodology)
  rw [List.foldlM_cons, Ledger.pass2, hfirst]
  change [Pass2Call.addReview proposal, .addReview decision].foldlM Ledger.pass2 _ = _
  rw [List.foldlM_cons, Ledger.pass2, hsecond]
  change [Pass2Call.addReview decision].foldlM Ledger.pass2 _ = _
  rw [List.foldlM_cons, Ledger.pass2, hthird]
  rfl

/-- What detection, classification, the review and its confirmation produce from two stored
snapshots of one source, every one of them and the table accepts. -/
theorem review_pipeline_closed (unicode : UnicodeData) (sha256 : String → Sha256)
    (methodologies : List MethodologyRow) (taxonomies : List TaxonomyRow)
    (calls : List RepositoryCall)
    (ledger : Ledger) (hrun : ledger = seededRun sha256 methodologies taxonomies calls)
    (hseeded : "ASI-1.0" ∈ methodologies.map MethodologyRow.id) (old new : Snapshot)
    (hold : old ∈ ledger.snapshots) (hnew : new ∈ ledger.snapshots)
    (hsource : old.sourceId = new.sourceId)
    (derivativeOnly : Bool) (diffId : DiffId)
    (hdiff : diffId ∉ ledger.structuredDiffs.map DiffRow.id)
    (reviewId : ReviewId) (hreview : reviewId ∉ ledger.changeReviewQueue.map ReviewRow.id) :
    ∃ diff proposal, detectChange unicode sha256 old new diffId derivativeOnly = .ok diff ∧
      createReview unicode diff reviewId = .ok proposal ∧ proposal.status = .pending ∧
      (proposal.evidenceStatusSubtype.isSome ↔
        proposal.machineClassification = .evidenceStatusChange) ∧
      ∀ (decisionId : Option ReviewId) (reviewer : String) (reviewedAt : Datetime)
        (classification : ChangeClassification) (impacts : Finset DecisionImpact)
        (rationale : String),
        classification = .notMaterial ∨ impacts ≠ ∅ →
        ∃ decision, confirmReview proposal decisionId reviewer reviewedAt classification
          impacts rationale =
            .ok decision ∧
          (decisionId.getD (firstHumanId reviewId) ∉ reviewId ::
            ledger.changeReviewQueue.map ReviewRow.id →
            [Pass2Call.addDiff diff, .addReview proposal,
              .addReview decision].foldlM Ledger.pass2 ledger =
              .ok { ledger with
                structuredDiffs := ledger.structuredDiffs ++ [diffRow diff]
                changeReviewQueue :=
                  ledger.changeReviewQueue ++ [reviewRow proposal] ++ [reviewRow decision] }) := by
  have hlinked : ledger.Linked := hrun ▸ seededRun_linked sha256 taxonomies calls hseeded
  obtain ⟨diff, hdetected, hspec⟩ := detectChange_spec unicode sha256 diffId derivativeOnly hsource
  obtain ⟨hid, hdiffSource, hdiffOld, hdiffNew⟩ := detectChange_references hdetected
  have hsubtype : diff.evidenceStatusSubtype.isSome → diff.materialCandidate = true := by
    rw [hspec.subtype]
    split_ifs with hmaterial
    · exact fun _ ↦ hmaterial
    · exact fun h ↦ absurd h (by simp)
  obtain ⟨proposal, hcreated⟩ := createReview_isOk.mpr hsubtype
  have hproposal := validateReview_ok.mp hcreated
  have hpending : proposal.status = .pending := congrArg ReviewFields.status hproposal
  refine ⟨diff, proposal, hdetected, hcreated, hpending, proposal.subtype_iff.symm, ?_⟩
  intro decisionId reviewer reviewedAt classification impacts rationale himpacts
  obtain ⟨decision, hconfirmed⟩ := confirmReview_isOk.mpr ⟨hpending, himpacts⟩
  have hdecision := confirmReview_fields hconfirmed
  refine ⟨decision, hconfirmed, fun hfresh ↦ ?_⟩
  refine store_reviewed hlinked hproposal hdecision (hdiffSource ▸ hlinked.sources old hold)
    (hdiffOld ▸ List.mem_map_of_mem hold) (hdiffNew ▸ List.mem_map_of_mem hnew) (hid ▸
      hdiff) hreview ?_
  have hdecisionId : decision.id = decisionId.getD (firstHumanId proposal.id) :=
    congrArg ReviewFields.id hdecision
  have hproposalId : proposal.id = reviewId := congrArg ReviewFields.id hproposal
  rw [hdecisionId, hproposalId]
  exact hfresh

def revisedText : String := "Agents triage alerts. An approval is required."

def revisedSnapshot : Snapshot where
  id := { text := "SNAP-GUIDE-REVISED" }
  sourceId := (guideSource ∅).id
  canonicalUri := "https://example.com/guide"
  retrievedAt := .midnight sampleDay
  normalizerVersion := "norm-1.0"
  sha256 := zeroHash
  contentType := "text/html"
  rawContent := revisedText
  normalizedText := revisedText

def guideCalls : List RepositoryCall :=
  [.evidence (.addSource (guideSource {.documentation})), .evidence (.addSnapshot guideSnapshot),
    .evidence (.addSnapshot revisedSnapshot)]

theorem review_pipeline_closed_guide :
    ∃ diff proposal decision stored,
      detectChange asciiData triageSha256 guideSnapshot revisedSnapshot diffA.id false = .ok diff ∧
      createReview asciiData diff proposalA.id = .ok proposal ∧
      confirmReview proposal none "Reviewer" seedTime .approvalChange {.authorization} =
        .ok decision ∧
      [Pass2Call.addDiff diff, .addReview proposal, .addReview decision].foldlM Ledger.pass2
        (seededRun triageSha256 seededLedger.methodologyVersions [] guideCalls) = .ok stored := by
  obtain ⟨diff, proposal, hdetected, hcreated, -, -, hconfirm⟩ :=
    review_pipeline_closed asciiData triageSha256 seededLedger.methodologyVersions
      [] guideCalls _ rfl (by decide)
      guideSnapshot revisedSnapshot (by decide) (by decide) rfl false diffA.id
        (by decide) proposalA.id (by decide)
  obtain ⟨decision, hconfirmed, hstored⟩ :=
    hconfirm none "Reviewer" seedTime .approvalChange {.authorization} _ (.inr (by decide))
  exact ⟨diff, proposal, decision, _, hdetected, hcreated, hconfirmed, hstored (by decide)⟩

end AgenticSecurity.Storage
