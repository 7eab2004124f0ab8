import AgenticSecurity.Changes.Context

namespace AgenticSecurity.Changes

open Models Python

/-- `ChangeReviewItem(...)`. -/
def validateReview (fields : ReviewFields) : Except String ChangeReviewItem :=
  match h : fields.enforceHumanDecision with
  | none => .ok { fields with accepted := h }
  | some message => .error message

def proposalFields (unicode : UnicodeData) (diff : StructuredDiff) (reviewId : ReviewId) :
    ReviewFields :=
  let (classification, impacts, rationale) := classifyDiff unicode diff
  { id := reviewId
    candidateId := diff.id
    machineClassification := classification
    machineDecisionImpacts := impacts
    machineRationale := rationale
    evidenceStatusSubtype := diff.evidenceStatusSubtype
    methodologyVersion := "ASI-1.0" }

def createReview (unicode : UnicodeData) (diff : StructuredDiff) (reviewId : ReviewId) :
    Except String ChangeReviewItem :=
  validateReview (proposalFields unicode diff reviewId)

/-- `f"{item.id}-H1"`. -/
def firstHumanId (id : ReviewId) : ReviewId where
  text := id.text ++ "-H1"
  pattern := matchesId_append id.pattern (by decide)

def decisionFields (item : ChangeReviewItem) (reviewId : Option ReviewId) (reviewer : String)
    (reviewedAt : Datetime) (classification : ChangeClassification)
    (decisionImpacts : Finset DecisionImpact)
    (rationale : String) : ReviewFields where
  id := reviewId.getD (firstHumanId item.id)
  candidateId := item.candidateId
  machineClassification := item.machineClassification
  machineRationale := item.machineRationale
  machineDecisionImpacts := item.machineDecisionImpacts
  evidenceStatusSubtype := item.evidenceStatusSubtype
  status := .confirmed
  reviewer := some reviewer
  reviewedAt := some reviewedAt
  humanClassification := some classification
  confirmedDecisionImpacts := decisionImpacts
  humanRationale := some rationale
  methodologyVersion := item.methodologyVersion
  priorReviewId := some item.id

def confirmReview (item : ChangeReviewItem) (reviewId : Option ReviewId) (reviewer : String)
    (reviewedAt : Datetime) (classification : ChangeClassification)
    (decisionImpacts : Finset DecisionImpact)
    (rationale : String := "Human reviewer confirmed the classification and decision impact.") :
    Except String ChangeReviewItem :=
  if item.status ≠ .pending then
    .error "a completed review cannot be overwritten; append from the machine proposal"
  else validateReview
    (decisionFields item reviewId reviewer reviewedAt classification decisionImpacts rationale)

theorem validateReview_ok {fields : ReviewFields} {review : ChangeReviewItem} :
    validateReview fields = .ok review ↔ review.toReviewFields = fields := by
  unfold validateReview
  split
  next h =>
    rw [Except.ok.injEq]
    constructor
    · rintro rfl
      rfl
    · rintro rfl
      rfl
  next message h =>
    refine iff_of_false (by simp) ?_
    rintro rfl
    rw [review.accepted] at h
    cases h

theorem validateReview_isOk {fields : ReviewFields} :
    (∃ review, validateReview fields = .ok review) ↔ fields.enforceHumanDecision = none := by
  constructor
  · rintro ⟨review, h⟩
    rw [← validateReview_ok.mp h]
    exact review.accepted
  · exact fun h ↦ ⟨⟨fields, h⟩, validateReview_ok.mpr rfl⟩

theorem rules_status : ∀ rule ∈ rules, rule.2.1 ≠ .evidenceStatusChange := by decide

variable {unicode : UnicodeData}

theorem classifyDiff_evidenceStatusChange {diff : StructuredDiff} :
    (classifyDiff unicode diff).1 = .evidenceStatusChange ↔
      diff.materialCandidate = true ∧ diff.evidenceStatusSubtype.isSome := by
  unfold classifyDiff
  cases hmaterial : diff.materialCandidate with
  | false => simp
  | true =>
    simp only [not_true_eq_false, if_false, true_and]
    split
    next subtype hsubtype => simp [hsubtype]
    next hsubtype =>
      refine iff_of_false ?_ (by simp [hsubtype])
      split_ifs
      · exact nofun
      · exact nofun
      · split
        next hrule => exact rules_status _ (List.mem_of_find?_eq_some hrule)
        · exact nofun

theorem createReview_isOk {diff : StructuredDiff} {reviewId : ReviewId} :
    (∃ proposal, createReview unicode diff reviewId = .ok proposal) ↔
      (diff.evidenceStatusSubtype.isSome → diff.materialCandidate = true) := by
  rw [createReview, validateReview_isOk]
  have hclass := @classifyDiff_evidenceStatusChange unicode diff
  simp only [ReviewFields.enforceHumanDecision, proposalFields, ReviewFields.anyDecision, hclass]
  cases diff.materialCandidate <;> cases diff.evidenceStatusSubtype <;> simp

theorem confirmReview_fields {item decision : ChangeReviewItem} {reviewId : Option ReviewId}
    {reviewer rationale : String} {reviewedAt : Datetime} {classification : ChangeClassification}
    {decisionImpacts : Finset DecisionImpact}
    (h : confirmReview item reviewId reviewer reviewedAt classification decisionImpacts rationale =
      .ok decision) :
    decision.toReviewFields =
      decisionFields item reviewId reviewer reviewedAt classification decisionImpacts
        rationale := by
  unfold confirmReview at h
  split_ifs at h
  exact validateReview_ok.mp h

theorem confirmReview_isOk {item : ChangeReviewItem} {reviewId : Option ReviewId}
    {reviewer rationale : String} {reviewedAt : Datetime} {classification : ChangeClassification}
    {decisionImpacts : Finset DecisionImpact} :
    (∃ decision, confirmReview item reviewId reviewer reviewedAt classification
      decisionImpacts rationale =
        .ok decision) ↔
      item.status = .pending ∧ (classification = .notMaterial ∨ decisionImpacts ≠ ∅) := by
  unfold confirmReview
  split_ifs with hstatus
  · simp [hstatus]
  · rw [validateReview_isOk]
    have haccepted := item.subtype_iff
    simp only [ReviewFields.enforceHumanDecision, decisionFields,
      ReviewFields.allDecision, haccepted]
    simp [not_not.mp hstatus]
    tauto

end AgenticSecurity.Changes
