import AgenticSecurity.Evidence.Validation
import AgenticSecurity.Library.Runs
import AgenticSecurity.Library.Table
import AgenticSecurity.Storage.Schema

namespace AgenticSecurity.Storage

open Library Models

def sourceRow (source : Source) : SourceRow where
  id := source.id
  publisher := source.publisher
  name := source.name
  kind := source.kind
  trustClass := source.trustClass
  status := source.status
  enabled := source.enabled
  payload := source

/-- The check `id LIKE 'SRC-%'` holds of every source identifier. -/
def Ledger.addSource (ledger : Ledger) (source : Source) : Except LedgerError Ledger :=
  match Table.insert SourceRow.id ledger.sources (sourceRow source) with
  | none => .error (.uniqueFailed "sources.id")
  | some sources => .ok { ledger with sources }

def Ledger.syncSource (ledger : Ledger) (source : Source) : Except LedgerError Ledger :=
  match ledger.sources.find? fun r ↦ r.id = source.id with
  | none => ledger.addSource source
  | some row =>
    if row.payload = source then .ok ledger
    else .ok { ledger with
      sources := Table.updateWhere (fun r ↦ r.id = source.id) (fun _ ↦ sourceRow source)
        ledger.sources }

def Ledger.addSnapshot (ledger : Ledger) (snapshot : Snapshot) : Except LedgerError Ledger :=
  if snapshot.id ∈ ledger.snapshots.map (·.id) then .error (.uniqueFailed "snapshots.id")
  else if ∃ r ∈ ledger.snapshots, r.sourceId = snapshot.sourceId ∧
      r.canonicalUri = snapshot.canonicalUri ∧ r.sha256 = snapshot.sha256 then
    .error (.uniqueFailed "snapshots.source_id, snapshots.canonical_uri, snapshots.sha256")
  else if snapshot.sourceId ∉ ledger.sources.map SourceRow.id ∨
      ∃ original, snapshot.duplicateOf = some original ∧
        original ∉ snapshot.id :: ledger.snapshots.map (·.id) then
    .error .foreignKeyFailed
  else .ok { ledger with snapshots := ledger.snapshots ++ [snapshot] }

def evidenceRow (evidence : Evidence) : EvidenceRow where
  id := evidence.id
  sourceId := evidence.sourceId
  snapshotId := evidence.anchor.snapshotId
  sourceClass := evidence.sourceClass
  maturity := evidence.maturity
  claimPurpose := evidence.claimPurpose
  derivativeOfEvidenceId := evidence.derivativeOfEvidenceId
  payload := evidence

def Ledger.insertEvidence (ledger : Ledger) (evidence : Evidence) : Except LedgerError Ledger :=
  match Table.insert EvidenceRow.id ledger.evidence (evidenceRow evidence) with
  | none => .error (.uniqueFailed "evidence.id")
  | some rows =>
    if ∃ original, evidence.derivativeOfEvidenceId = some original ∧
      original ∉ rows.map EvidenceRow.id then
      .error .foreignKeyFailed
    else .ok { ledger with evidence := rows }

def Ledger.addEvidence (contentSha256 : String → Sha256) (ledger : Ledger) (evidence : Evidence) :
    Except LedgerError Ledger :=
  match ledger.sources.find? fun r ↦ r.id = evidence.sourceId with
  | none => .error (.valueError ("unknown source: " ++ evidence.sourceId.text))
  | some sourceRow =>
    match ledger.snapshots.find? fun r ↦ r.id = evidence.anchor.snapshotId with
    | none => .error (.valueError ("unknown snapshot: " ++ evidence.anchor.snapshotId.text))
    | some snapshot =>
      if evidence.sourceId ≠ snapshot.sourceId then
        .error (.valueError "evidence source_id must match snapshot source_id")
      else do
        (Evidence.validateEvidenceAnchor contentSha256 evidence snapshot).mapError .valueError
        (Evidence.validateEvidenceClassification evidence).mapError .valueError
        (Evidence.validateEvidencePurpose evidence sourceRow.payload).mapError .valueError
        ledger.insertEvidence evidence

def diffRow (diff : StructuredDiff) : DiffRow where
  id := diff.id
  sourceId := diff.sourceId
  oldSnapshotId := diff.oldSnapshotId
  newSnapshotId := diff.newSnapshotId
  materialCandidate := diff.materialCandidate
  payload := diff

def Ledger.addDiff (ledger : Ledger) (diff : StructuredDiff) : Except LedgerError Ledger :=
  match Table.insert DiffRow.id ledger.structuredDiffs (diffRow diff) with
  | none => .error (.uniqueFailed "structured_diffs.id")
  | some structuredDiffs =>
    if diff.sourceId ∉ ledger.sources.map SourceRow.id ∨
        diff.oldSnapshotId ∉ ledger.snapshots.map (·.id) ∨
        diff.newSnapshotId ∉ ledger.snapshots.map (·.id) then
      .error .foreignKeyFailed
    else .ok { ledger with structuredDiffs }

def reviewRow (review : ChangeReviewItem) : ReviewRow where
  id := review.id
  candidateId := review.candidateId
  priorReviewId := review.priorReviewId
  machineClassification := review.machineClassification
  machineRationale := review.machineRationale
  machineDecisionImpactsJson := sortedImpacts review.machineDecisionImpacts
  evidenceStatusSubtype := review.evidenceStatusSubtype
  status := review.status
  reviewer := review.reviewer
  reviewedAt := review.reviewedAt
  humanClassification := review.humanClassification
  confirmedDecisionImpactsJson := sortedImpacts review.confirmedDecisionImpacts
  humanRationale := review.humanRationale
  methodologyVersion := review.methodologyVersion
  payload := review

def Ledger.addReview (ledger : Ledger) (review : ChangeReviewItem) : Except LedgerError Ledger :=
  insertReview ledger (reviewRow review)

/-- The row is inserted under the id of the review that the query found. -/
def Ledger.addConfirmedChange (ledger : Ledger) (change : MaterialChange) (reviewId : String) :
    Except LedgerError Ledger :=
  match change.humanConfirmed, change.confirmedAt with
  | true, some confirmedAt =>
    match ledger.changeReviewQueue.find? fun r ↦ r.id.text = reviewId with
    | none => .error (.valueError "material change requires a confirmed human review")
    | some review =>
      if review.status ≠ .confirmed then
        .error (.valueError "material change requires a confirmed human review")
      else
        match Table.insert ConfirmedChangeRow.id ledger.confirmedChanges
            { id := change.id, reviewId := review.id, confirmedAt, payload := change } with
        | none => .error (.uniqueFailed "confirmed_changes.id")
        | some confirmedChanges => .ok { ledger with confirmedChanges }
  | _, _ => .error (.valueError "only human-confirmed material changes enter the ledger")

def flagRow (conflict : ContradictionFlag) : FlagRow where
  id := conflict.id
  status := conflict.status
  payload := conflict

def Ledger.addConflict (ledger : Ledger) (conflict : ContradictionFlag) :
    Except LedgerError Ledger :=
  match Table.insert FlagRow.id ledger.contradictionFlags (flagRow conflict) with
  | none => .error (.uniqueFailed "contradiction_flags.id")
  | some contradictionFlags => .ok { ledger with contradictionFlags }

def resolutionRow (resolution : ContradictionResolution) : ResolutionRow where
  id := resolution.id
  conflictId := resolution.conflictId
  reviewedAt := resolution.reviewedAt
  payload := resolution

/-- The update after the insert touches the column `status` only. -/
def Ledger.addResolution (ledger : Ledger) (resolution : ContradictionResolution) :
    Except LedgerError Ledger :=
  match Table.insert ResolutionRow.id ledger.contradictionResolutions
    (resolutionRow resolution) with
  | none => .error (.uniqueFailed "contradiction_resolutions.id")
  | some contradictionResolutions =>
    if resolution.conflictId ∉ ledger.contradictionFlags.map (·.id.text) then
      .error .foreignKeyFailed
    else .ok { ledger with
      contradictionResolutions
      contradictionFlags := Table.updateWhere (fun r ↦ r.id.text = resolution.conflictId)
        (fun r ↦ { r with status := .confirmed }) ledger.contradictionFlags }

/-- The calls on a `Pass2Repository`. -/
inductive Pass2Call
  | addDiff (diff : StructuredDiff)
  | addReview (review : ChangeReviewItem)
  | addConfirmedChange (change : MaterialChange) (reviewId : String)
  | addConflict (conflict : ContradictionFlag)
  | addResolution (resolution : ContradictionResolution)
  deriving DecidableEq

def Ledger.pass2 (ledger : Ledger) : Pass2Call → Except LedgerError Ledger
  | .addDiff diff => ledger.addDiff diff
  | .addReview review => ledger.addReview review
  | .addConfirmedChange change reviewId => ledger.addConfirmedChange change reviewId
  | .addConflict conflict => ledger.addConflict conflict
  | .addResolution resolution => ledger.addResolution resolution

def Ledger.storedSource (ledger : Ledger) (id : SourceId) : Option Source :=
  (ledger.sources.find? fun r ↦ r.id = id).map SourceRow.payload

theorem addSource_ok {ledger ledger' : Ledger} {source : Source}
    (h : ledger.addSource source = .ok ledger') :
    source.id ∉ ledger.sources.map SourceRow.id ∧
    ledger' = { ledger with sources := ledger.sources ++ [sourceRow source] } := by
  unfold Ledger.addSource at h
  split at h
  · cases h
  next rows hinsert =>
    obtain ⟨hfresh, rfl⟩ := Table.insert_eq_some.mp hinsert
    exact ⟨hfresh, (Except.ok.inj h).symm⟩

theorem addSource_storedSource {ledger ledger' : Ledger} {source : Source}
    (h : ledger.addSource source = .ok ledger') (id : SourceId) :
    ledger'.storedSource id = if id = source.id then some source else ledger.storedSource id := by
  obtain ⟨hfresh, rfl⟩ := addSource_ok h
  unfold Ledger.storedSource
  rw [List.find?_append]
  split_ifs with hid
  · have hnone : ledger.sources.find? (fun r ↦ r.id = id) = none := by
      refine List.find?_eq_none.mpr fun r hr he ↦ hfresh ?_
      rw [← hid, ← of_decide_eq_true he]
      exact List.mem_map_of_mem hr
    rw [hnone, hid]
    simp [sourceRow]
  · simp [sourceRow, Ne.symm hid]

theorem syncSource_storedSource {ledger ledger' : Ledger} {source : Source}
    (h : ledger.syncSource source = .ok ledger') (id : SourceId) :
    ledger'.storedSource id = if id = source.id then some source else ledger.storedSource id := by
  unfold Ledger.syncSource at h
  split at h
  · exact addSource_storedSource h id
  next row hrow =>
    split_ifs at h with hsame
    · obtain rfl := Except.ok.inj h
      split_ifs with hid
      · rw [hid, Ledger.storedSource, hrow, Option.map_some, hsame]
      · rfl
    · obtain rfl := Except.ok.inj h
      unfold Ledger.storedSource
      rw [Table.find_replaceKey (show (sourceRow source).id = source.id from rfl)]
      split_ifs with hid
      · rw [hrow]
        rfl
      · rfl

theorem addEvidence_ok {contentSha256 : String → Sha256} {ledger ledger' : Ledger}
    {evidence : Evidence} (h : ledger.addEvidence contentSha256 evidence = .ok ledger') :
    ∃ source snapshot, ledger.storedSource evidence.sourceId = some source ∧
      ledger.snapshots.find? (fun r ↦ r.id = evidence.anchor.snapshotId) = some snapshot ∧
      snapshot.sourceId = evidence.sourceId ∧
      Evidence.validateEvidenceAnchor contentSha256 evidence snapshot = .ok () ∧
      Evidence.validateEvidenceClassification evidence = .ok () ∧
      Evidence.Permits source evidence.claimPurpose ∧
      evidence.id ∉ ledger.evidence.map EvidenceRow.id ∧
      (∀ original, evidence.derivativeOfEvidenceId = some original →
        original = evidence.id ∨ original ∈ ledger.evidence.map EvidenceRow.id) ∧
      ledger' = { ledger with evidence := ledger.evidence ++ [evidenceRow evidence] } := by
  unfold Ledger.addEvidence at h
  split at h
  · cases h
  next row hrow =>
    split at h
    · cases h
    next snapshot hsnapshot =>
      split_ifs at h with hsource
      obtain ⟨_, hanchor, h⟩ := Runs.except_bind_ok.mp h
      obtain ⟨_, hclass, h⟩ := Runs.except_bind_ok.mp h
      obtain ⟨_, hpurpose, h⟩ := Runs.except_bind_ok.mp h
      unfold Ledger.insertEvidence at h
      split at h
      · cases h
      next rows hinsert =>
        obtain ⟨hfresh, rfl⟩ := Table.insert_eq_some.mp hinsert
        split_ifs at h with hforeign
        refine ⟨row.payload,
          snapshot, by
          rw [Ledger.storedSource, hrow, Option.map_some], hsnapshot, (not_not.mp hsource).symm,
          Runs.except_mapError_ok.mp hanchor, Runs.except_mapError_ok.mp hclass,
          Evidence.validateEvidencePurpose_ok_iff.mp (Runs.except_mapError_ok.mp hpurpose), hfresh,
          fun original horiginal ↦ ?_, (Except.ok.inj h).symm⟩
        have hrows := not_not.mp (not_and.mp (not_exists.mp hforeign original) horiginal)
        rw [List.map_append, List.mem_append] at hrows
        exact hrows.symm.imp_left List.mem_singleton.mp

theorem syncSource_snapshots {ledger ledger' : Ledger} {source : Source}
    (h : ledger.syncSource source = .ok ledger') : ledger'.snapshots = ledger.snapshots := by
  unfold Ledger.syncSource Ledger.addSource at h
  split at h
  · split at h
    · cases h
    · exact Except.ok.inj h ▸ rfl
  · split_ifs at h
    · exact Except.ok.inj h ▸ rfl
    · exact Except.ok.inj h ▸ rfl

theorem syncSource_evidence {ledger ledger' : Ledger} {source : Source}
    (h : ledger.syncSource source = .ok ledger') : ledger'.evidence = ledger.evidence := by
  unfold Ledger.syncSource at h
  split at h
  · obtain ⟨-, rfl⟩ := addSource_ok h
    rfl
  · split_ifs at h
    · exact Except.ok.inj h ▸ rfl
    · exact Except.ok.inj h ▸ rfl

theorem addSnapshot_ok {ledger ledger' : Ledger} {snapshot : Snapshot}
    (h : ledger.addSnapshot snapshot = .ok ledger') :
    ledger' = { ledger with snapshots := ledger.snapshots ++ [snapshot] } := by
  unfold Ledger.addSnapshot at h
  split_ifs at h
  exact (Except.ok.inj h).symm

theorem addSnapshot_snapshots {ledger ledger' : Ledger} {snapshot : Snapshot}
    (h : ledger.addSnapshot snapshot = .ok ledger') :
    ledger'.snapshots = ledger.snapshots ++ [snapshot] := by
  rw [addSnapshot_ok h]

theorem insertReview_ok {ledger ledger' : Ledger} {row : ReviewRow}
    (h : insertReview ledger row = .ok ledger') :
    (row.priorReviewId.isSome → ∃ prior ∈ ledger.changeReviewQueue, row.preservedBy prior) ∧
    row.subtypeCheck ∧ row.decisionCheck ∧
    row.id ∉ ledger.changeReviewQueue.map ReviewRow.id ∧
    (row.priorReviewId = none → ∀ r ∈ ledger.changeReviewQueue,
      r.priorReviewId = none → r.candidateId ≠ row.candidateId) ∧
    (row.priorReviewId ≠ none → ∀ r ∈ ledger.changeReviewQueue,
      r.priorReviewId ≠ row.priorReviewId) ∧
    ledger' = { ledger with changeReviewQueue := ledger.changeReviewQueue ++ [row] } := by
  unfold insertReview at h
  dsimp only at h
  split_ifs at h with htrigger hcheck hid hroot hsuccessor hforeign
  simp only [not_and, not_not, List.any_eq_true] at htrigger
  simp only [not_or, not_not] at hcheck
  simp only [not_and, not_exists] at hroot hsuccessor
  exact ⟨htrigger, hcheck.1, hcheck.2, hid, hroot, hsuccessor, (Except.ok.inj h).symm⟩

theorem addConfirmedChange_ok {ledger ledger' : Ledger} {change : MaterialChange}
    {reviewId : String} (h : ledger.addConfirmedChange change reviewId = .ok ledger') :
    ∃ confirmedAt, ∃ review ∈ ledger.changeReviewQueue,
      change.humanConfirmed = true ∧ change.confirmedAt = some confirmedAt ∧
      review.id.text = reviewId ∧ review.status = .confirmed ∧
      change.id ∉ ledger.confirmedChanges.map ConfirmedChangeRow.id ∧
      ledger' = { ledger with
        confirmedChanges := ledger.confirmedChanges ++
          [{ id := change.id, reviewId := review.id, confirmedAt, payload := change }] } := by
  unfold Ledger.addConfirmedChange at h
  split at h
  next confirmedAt hhuman hat =>
    split at h
    · cases h
    next review hfind =>
      split_ifs at h with hstatus
      split at h
      · cases h
      next rows hinsert =>
        obtain ⟨hfresh, rfl⟩ := Table.insert_eq_some.mp hinsert
        refine ⟨confirmedAt, review, List.mem_of_find?_eq_some hfind, hhuman, hat, ?_,
          not_not.mp hstatus, hfresh, (Except.ok.inj h).symm⟩
        simpa using List.find?_some hfind
  · cases h

theorem addConflict_ok {ledger ledger' : Ledger} {conflict : ContradictionFlag}
    (h : ledger.addConflict conflict = .ok ledger') :
    conflict.id ∉ ledger.contradictionFlags.map FlagRow.id ∧
    ledger' = { ledger with
      contradictionFlags := ledger.contradictionFlags ++ [flagRow conflict] } := by
  unfold Ledger.addConflict at h
  split at h
  · cases h
  next rows hinsert =>
    obtain ⟨hfresh, rfl⟩ := Table.insert_eq_some.mp hinsert
    exact ⟨hfresh, (Except.ok.inj h).symm⟩

theorem addResolution_ok {ledger ledger' : Ledger} {resolution : ContradictionResolution} :
    ledger.addResolution resolution = .ok ledger' ↔
    resolution.id ∉ ledger.contradictionResolutions.map ResolutionRow.id ∧
    resolution.conflictId ∈ ledger.contradictionFlags.map (·.id.text) ∧
    { ledger with
      contradictionResolutions := ledger.contradictionResolutions ++ [resolutionRow resolution]
      contradictionFlags := Table.updateWhere (fun r ↦ r.id.text = resolution.conflictId)
        (fun r ↦ { r with status := .confirmed }) ledger.contradictionFlags } = ledger' := by
  unfold Ledger.addResolution Table.insert
  by_cases hid : resolution.id ∈ ledger.contradictionResolutions.map ResolutionRow.id
  · simp [resolutionRow, hid]
  · by_cases hflag : resolution.conflictId ∈ ledger.contradictionFlags.map (·.id.text)
    · simp [resolutionRow, hid, hflag]
    · simp [resolutionRow, hid, hflag]

theorem addDiff_ok {ledger ledger' : Ledger} {diff : StructuredDiff}
    (h : ledger.addDiff diff = .ok ledger') :
    ledger' = { ledger with structuredDiffs := ledger.structuredDiffs ++ [diffRow diff] } := by
  unfold Ledger.addDiff at h
  split at h
  · cases h
  next rows hinsert =>
    obtain ⟨_, rfl⟩ := Table.insert_eq_some.mp hinsert
    split_ifs at h
    exact (Except.ok.inj h).symm

end AgenticSecurity.Storage
