import AgenticSecurity.Storage.ReviewHistory

namespace AgenticSecurity.Storage

open Library Models Runs

/-- The gate that `add_confirmed_change`, the models and the constraints enforce
together. It leaves open which decision on the candidate is the latest, and how the
change compares with the classification and the impacts of the review. -/
structure ConfirmedGate (queue : List ReviewRow) (row : ConfirmedChangeRow) (review : ReviewRow) :
    Prop where
  stored : review ∈ queue
  named : review.id = row.reviewId
  confirmed : review.status = .confirmed
  columns : review = reviewRow review.payload
  decided : review.payload.allDecision = true
  prior : ∃ older ∈ queue, review.priorReviewId = some older.id ∧
    older.candidateId = review.candidateId
  impacts : review.humanClassification ≠ some .notMaterial →
    review.payload.confirmedDecisionImpacts ≠ ∅
  human : row.payload.humanConfirmed = true
  changeImpacts : row.payload.decisionImpacts ≠ ∅
  changeReviewer : truthy row.payload.confirmedBy = true
  changeTime : row.payload.confirmedAt = some row.confirmedAt

structure ConfirmedInv (ledger : Ledger) : Prop where
  queue : QueueInv ledger.changeReviewQueue
  changes :
    ∀ row ∈ ledger.confirmedChanges, ∃ review, ConfirmedGate ledger.changeReviewQueue row review

theorem ConfirmedGate.mono {queue queue' : List ReviewRow} {row : ConfirmedChangeRow}
    {review : ReviewRow} (hsub : queue ⊆ queue') (h : ConfirmedGate queue row review) :
    ConfirmedGate queue' row review := by
  obtain ⟨older, holder, hprior⟩ := h.prior
  exact { h with stored := hsub h.stored, prior := ⟨older, hsub holder, hprior⟩ }

theorem confirmedGate_of_query {ledger : Ledger} (hinv : QueueInv ledger.changeReviewQueue)
    {change : MaterialChange} {review : ReviewRow} {confirmedAt : Python.Datetime}
    (hreview : review ∈ ledger.changeReviewQueue) (hstatus : review.status = .confirmed)
    (hhuman : change.humanConfirmed = true) (hat : change.confirmedAt = some confirmedAt) :
    ConfirmedGate ledger.changeReviewQueue
      { id := change.id, reviewId := review.id, confirmedAt, payload := change } review := by
  have hwell := hinv.rows review hreview
  have hcolumn : review.payload.status = review.status := by
    conv_rhs => rw [hwell.columns]
    rfl
  have hclass : review.payload.humanClassification = review.humanClassification := by
    conv_rhs => rw [hwell.columns]
    rfl
  have hdone : review.payload.status ≠ .pending := by simp [hcolumn, hstatus]
  obtain ⟨hall, -, himpacts⟩ := review.payload.completed_fields hdone
  obtain ⟨hchange, hreviewer, -⟩ := change.confirmed_fields hhuman
  have hprior : review.priorReviewId ≠ none := fun hnone ↦
    hdone (hcolumn.trans (hwell.pending.mpr hnone))
  obtain ⟨k, hk⟩ := Option.ne_none_iff_exists'.mp hprior
  obtain ⟨older, holder, holderId, hcandidate⟩ := hinv.chains.linked review hreview k hk
  exact
    { stored := hreview
      named := rfl
      confirmed := hstatus
      columns := hwell.columns
      decided := hall
      prior := ⟨older, holder, holderId ▸ hk, hcandidate⟩
      impacts := fun hmaterial ↦ himpacts (hcolumn.trans hstatus) (hclass ▸ hmaterial)
      human := hhuman
      changeImpacts := hchange
      changeReviewer := hreviewer
      changeTime := hat }

theorem pass2_confirmed {ledger ledger' : Ledger} {call : Pass2Call} (hinv : ConfirmedInv ledger)
    (h : ledger.pass2 call = .ok ledger') : ConfirmedInv ledger' := by
  refine ⟨pass2_queue hinv.queue h, fun row hrow ↦ ?_⟩
  cases call with
  | addConfirmedChange change reviewId =>
    obtain ⟨confirmedAt, review, hreview, hhuman, hat, -, hstatus, -, rfl⟩ :=
      addConfirmedChange_ok h
    rcases List.mem_append.mp hrow with hold | hnew
    · exact hinv.changes row hold
    · obtain rfl := List.mem_singleton.mp hnew
      exact ⟨review, confirmedGate_of_query hinv.queue hreview hstatus hhuman hat⟩
  | addReview review =>
    obtain ⟨-, -, -, -, -, -, rfl⟩ := insertReview_ok h
    obtain ⟨named, hgate⟩ := hinv.changes row hrow
    exact ⟨named, hgate.mono (List.subset_append_left _ _)⟩
  | addDiff diff =>
    obtain rfl := addDiff_ok h
    exact hinv.changes row hrow
  | addConflict conflict =>
    obtain ⟨_, rfl⟩ := addConflict_ok h
    exact hinv.changes row hrow
  | addResolution resolution =>
    obtain ⟨_, _, rfl⟩ := addResolution_ok.mp h
    exact hinv.changes row hrow

/-- In every reachable ledger each confirmed change names a stored review with
status CONFIRMED that passes the gate; an accepted call adds one such row and leaves
the reviews as they are. -/
theorem confirmed_changes_gate (start : Ledger) (calls : List Pass2Call) :
    let ledger := attempts Ledger.pass2
      { start with changeReviewQueue := [], confirmedChanges := [] } calls
    (∀ row ∈ ledger.confirmedChanges, ∃ review, ConfirmedGate ledger.changeReviewQueue row review) ∧
    ∀ change reviewId ledger', ledger.addConfirmedChange change reviewId = .ok ledger' →
      ∃ row review, ConfirmedGate ledger.changeReviewQueue row review ∧ review.id.text = reviewId ∧
        row.payload = change ∧
        ledger' = { ledger with confirmedChanges := ledger.confirmedChanges ++ [row] } := by
  intro ledger
  have hinv : ConfirmedInv ledger := by
    refine attempts_invariant ConfirmedInv ⟨queueInv_nil, fun row hrow ↦ ?_⟩
      fun _ _ _ _ hinv hcall ↦ pass2_confirmed hinv hcall
    exact absurd hrow List.not_mem_nil
  refine ⟨hinv.changes, fun change reviewId ledger' h ↦ ?_⟩
  obtain ⟨confirmedAt, review, hreview, hhuman, hat, hid, hstatus, -, rfl⟩ :=
    addConfirmedChange_ok h
  exact ⟨_, review, confirmedGate_of_query hinv.queue hreview hstatus hhuman hat, hid, rfl, rfl⟩

def immaterialA : ChangeReviewItem :=
  { decisionA with humanClassification := some .notMaterial, confirmedDecisionImpacts := ∅ }

def rejectionA : ChangeReviewItem :=
  { decisionA with
    id := { text := "REVIEW-A-R2" }, status := .rejected, confirmedDecisionImpacts := ∅,
    priorReviewId := some decisionA.id }

def changeA : MaterialChange where
  id := { text := "CHANGE-A" }
  assertionIds := []
  description := "Agent added deployment."
  dimensions := [.capability]
  decisionImpacts := {.deployment}
  humanConfirmed := true
  confirmedBy := some "Reviewer"
  confirmedAt := some seedTime

def supersededLedger : Ledger :=
  attempts Ledger.pass2 { seededLedger with changeReviewQueue := [], confirmedChanges := [] }
    [.addReview proposalA, .addReview immaterialA, .addReview rejectionA]

/-- The change enters the ledger under a review that has a successor, says
NOT_MATERIAL and confirms other impacts. -/
theorem supersededLedger_accepts :
    (supersededLedger.addConfirmedChange changeA immaterialA.id.text).toBool = true ∧
    (supersededLedger.changeReviewQueue.map fun r ↦ r.priorReviewId.map (·.text)) =
      [none, some "REVIEW-A", some "REVIEW-A-H1"] ∧
    ∃ review ∈ supersededLedger.changeReviewQueue, review.id = immaterialA.id ∧
      (∃ newer ∈ supersededLedger.changeReviewQueue, newer.priorReviewId = some review.id) ∧
      review.humanClassification = some .notMaterial ∧
      review.payload.confirmedDecisionImpacts ≠ changeA.decisionImpacts := by
  decide

theorem confirmed_changes_gate_supersededLedger :
    ∃ row review, ConfirmedGate supersededLedger.changeReviewQueue row review ∧
      review.id.text = "REVIEW-A-H1" ∧ row.payload = changeA := by
  have h := (confirmed_changes_gate seededLedger
    [.addReview proposalA, .addReview immaterialA, .addReview rejectionA]).2 changeA "REVIEW-A-H1"
  have hok : (supersededLedger.addConfirmedChange changeA "REVIEW-A-H1").toBool = true := by decide
  cases hadd : supersededLedger.addConfirmedChange changeA "REVIEW-A-H1" with
  | error e => simp [hadd, Except.toBool] at hok
  | ok ledger' =>
    obtain ⟨row, review, hgate, hid, hpayload, -⟩ := h ledger' hadd
    exact ⟨row, review, hgate, hid, hpayload⟩

end AgenticSecurity.Storage
