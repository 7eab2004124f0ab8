import AgenticSecurity.Editorial.Reports
import AgenticSecurity.Storage.ReviewHistory

namespace AgenticSecurity.Editorial

open Models Python Storage

/-- A human confirmed the candidate of the review as material. -/
def ConfirmedMaterial (review : ChangeReviewItem) : Prop :=
  review.status = .confirmed ∧ ∃ classification, review.humanClassification = some classification ∧
    classification ≠ .notMaterial

def Completes (review : ChangeReviewItem) (candidate : StructuredDiff) : Prop :=
  review.candidateId = candidate.id ∧ review.status ≠ .pending

/-- No status says more than the reviews behind it. -/
structure StatusAgrees (changes : List MaterialChange) (candidates : List StructuredDiff)
    (reviews : List ChangeReviewItem) (status : DailyStatus) : Prop where
  reviewed : status = .noConfirmedMaterialChange → ∀ candidate ∈ candidates,
    candidate.materialCandidate = true → ∃ review ∈ reviews, Completes review candidate
  unconfirmed : status = .noConfirmedMaterialChange → ∀ candidate ∈ candidates,
    candidate.materialCandidate = true →
    ∀ review ∈ reviews, Completes review candidate → ¬ ConfirmedMaterial review
  unchanged : status = .noMaterialChange ∨ status = .noReviewedContent →
    (∀ candidate ∈ candidates, candidate.materialCandidate = false) ∧
      ∀ change ∈ changes, change.humanConfirmed = false
  pending : status = .reviewPending → ∃ candidate ∈ candidates, candidate.materialCandidate = true ∧
    ∀ review ∈ reviews, ¬ Completes review candidate

def Awaits (candidates : List StructuredDiff) (reviews : List ChangeReviewItem) : Prop :=
  ∃ candidate ∈ candidates, candidate.materialCandidate = true ∧
    ∀ review ∈ reviews, ¬ Completes review candidate

section Status

variable {changes : List MaterialChange} {candidates : List StructuredDiff}
  {reviews : List ChangeReviewItem} {day : Date} {available : Bool}

theorem mem_completedCandidateIds {candidate : StructuredDiff} :
    candidate.id ∈ (reviews.filter (·.status ≠ .pending)).map (·.candidateId) ↔
      ∃ review ∈ reviews, Completes review candidate := by
  simp only [List.mem_map, List.mem_filter, decide_eq_true_eq, Completes, and_assoc]
  exact exists_congr fun review ↦ and_congr_right fun _ ↦ and_comm

theorem awaits_iff : ((candidates.filter (·.materialCandidate)).any fun item ↦
    item.id ∉ (reviews.filter (·.status ≠ .pending)).map (·.candidateId)) = true ↔
      Awaits candidates reviews := by
  simp only [List.any_eq_true, decide_eq_true_eq, mem_completedCandidateIds,
    List.mem_filter, Awaits, not_exists, not_and, and_assoc]

theorem filter_humanConfirmed_eq_nil :
    changes.filter (·.humanConfirmed) = [] ↔ ∀ change ∈ changes, change.humanConfirmed = false := by
  simp [List.filter_eq_nil_iff]

theorem filter_materialCandidate_eq_nil : candidates.filter (·.materialCandidate) = [] ↔
    ∀ candidate ∈ candidates, candidate.materialCandidate = false := by
  simp [List.filter_eq_nil_iff]

theorem dailyStatus_cases :
    (buildDailyBrief day changes candidates reviews available).status = .materialChanges ∧
      (∃ change ∈ changes, change.humanConfirmed = true) ∨
    (buildDailyBrief day changes candidates reviews available).status = .reviewPending ∧
      (∀ change ∈ changes, change.humanConfirmed = false) ∧ Awaits candidates reviews ∨
    (buildDailyBrief day changes candidates reviews available).status = .noConfirmedMaterialChange ∧
      (∀ change ∈ changes, change.humanConfirmed = false) ∧ ¬ Awaits candidates reviews ∨
    ((buildDailyBrief day changes candidates reviews available).status = .noReviewedContent ∨
        (buildDailyBrief day changes candidates reviews available).status = .noMaterialChange) ∧
      (∀ change ∈ changes, change.humanConfirmed = false) ∧
        ∀ candidate ∈ candidates, candidate.materialCandidate = false := by
  dsimp only [buildDailyBrief, dailyStatus]
  split_ifs with hconfirmed hpending hsurviving havailable
  · refine .inl ⟨rfl, ?_⟩
    by_contra hnone
    exact hconfirmed (filter_humanConfirmed_eq_nil.mpr (by simpa using hnone))
  all_goals have hchanges := filter_humanConfirmed_eq_nil.mp (not_not.mp hconfirmed)
  · exact .inr (.inl ⟨rfl, hchanges, awaits_iff.mp hpending⟩)
  · exact .inr (.inr (.inl ⟨rfl, hchanges, mt awaits_iff.mpr hpending⟩))
  all_goals have hcandidates := filter_materialCandidate_eq_nil.mp (not_not.mp hsurviving)
  · exact .inr (.inr (.inr ⟨.inr rfl, hchanges, hcandidates⟩))
  · exact .inr (.inr (.inr ⟨.inl rfl, hchanges, hcandidates⟩))

end Status

/-- The brief looks at which candidates have a completed review, not at what it decided. So it
is right unless all candidates are reviewed, some of them were confirmed as material and no
change has been promoted yet. -/
theorem daily_status_agrees_iff (day : Date) (changes : List MaterialChange)
    (candidates : List StructuredDiff) (reviews : List ChangeReviewItem) (available : Bool) :
    StatusAgrees changes candidates reviews
      (buildDailyBrief day changes candidates reviews available).status ↔
      (∃ change ∈ changes, change.humanConfirmed = true) ∨ Awaits candidates reviews ∨
        ∀ candidate ∈ candidates, candidate.materialCandidate = true →
          ∀ review ∈ reviews, Completes review candidate → ¬ ConfirmedMaterial review := by
  constructor
  · intro h
    rcases dailyStatus_cases with ⟨-, hchange⟩ | ⟨-, -, hawaits⟩ | ⟨hstatus, -, -⟩ | ⟨-, -,
      hcandidates⟩
    · exact .inl hchange
    · exact .inr (.inl hawaits)
    · exact .inr (.inr (h.unconfirmed hstatus))
    · refine .inr (.inr fun candidate hcandidate hmaterial ↦ ?_)
      rw [hcandidates candidate hcandidate] at hmaterial
      cases hmaterial
  · intro h
    rcases dailyStatus_cases with ⟨hstatus, -⟩ | ⟨hstatus, -, hawaits⟩ | ⟨hstatus,
      hchanges, hawaits⟩ |
      ⟨hstatus, hchanges, hcandidates⟩
    · constructor <;> rw [hstatus] <;> simp
    · rw [hstatus]
      exact ⟨by simp, by simp, by simp, fun _ ↦ hawaits⟩
    · have hunconfirmed := (h.resolve_left fun ⟨change, hchange, hhuman⟩ ↦ ?_).resolve_left hawaits
      · rw [hstatus]
        refine ⟨fun _ candidate hcandidate hmaterial ↦ ?_, fun _ ↦ hunconfirmed, by simp, by simp⟩
        by_contra hnone
        exact hawaits ⟨candidate, hcandidate, hmaterial,
          fun review hreview hdone ↦ hnone ⟨review, hreview, hdone⟩⟩
      · rw [hchanges change hchange] at hhuman
        cases hhuman
    · rcases hstatus with hstatus | hstatus <;> rw [hstatus] <;>
        exact ⟨by simp, by simp, fun _ ↦ ⟨hcandidates, hchanges⟩, by simp⟩

/-- A candidate whose review was confirmed and whose change is not promoted yet: the brief says
that none was confirmed as material. -/
theorem confirmed_review_unpromoted :
    (buildDailyBrief sampleDay [] [diffA] [decisionA] true).status = .noConfirmedMaterialChange ∧
    ¬ StatusAgrees [] [diffA] [decisionA]
      (buildDailyBrief sampleDay [] [diffA] [decisionA] true).status := by
  have hstatus : (buildDailyBrief sampleDay [] [diffA] [decisionA] true).status =
      .noConfirmedMaterialChange := by
    decide
  refine ⟨hstatus, fun h ↦ ?_⟩
  have hcompletes : Completes decisionA diffA := ⟨rfl, by decide⟩
  have hmaterial : ConfirmedMaterial decisionA := ⟨rfl, _, rfl, by decide⟩
  exact h.unconfirmed hstatus diffA List.mem_cons_self rfl decisionA List.mem_cons_self
    hcompletes hmaterial

end AgenticSecurity.Editorial
