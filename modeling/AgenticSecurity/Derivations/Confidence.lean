import AgenticSecurity.Derivations
import AgenticSecurity.Library.Grouping
import AgenticSecurity.Storage.EvidencePolicy

namespace AgenticSecurity.Derivations

open Library.Grouping Models

def staleness : Freshness → ℕ
  | .fresh => 0
  | .aging => 1
  | .stale => 2
  | .revalidationRequired => 3

def confidenceRank : SupportConfidence → ℕ
  | .low => 0
  | .medium => 1
  | .high => 2

def direct (evidence : List Evidence) : List Evidence :=
  evidence.filter fun item ↦ item.derivativeOfEvidenceId.isNone

def HasPrimary (evidence : List Evidence) : Prop :=
  ∃ item ∈ evidence, item.derivativeOfEvidenceId = none ∧ item.sourceClass = .p1 ∧
    item.maturity ≠ .e0

def HasCorroboration (evidence : List Evidence) : Prop :=
  ∃ item ∈ evidence, item.derivativeOfEvidenceId = none ∧ item.sourceClass ∈ [SourceClass.p2, .r1,
    .r2, .o1, .i1]

variable {evidence evidence' : List Evidence} {freshness : Freshness} {contradicted : Bool}

theorem any_primary :
    ((direct evidence).any fun item ↦ item.sourceClass = .p1 && item.maturity ≠ .e0) = true ↔
    HasPrimary evidence := by
  simp [direct, HasPrimary]

theorem any_corroboration :
    ((direct evidence).any fun item ↦ item.sourceClass ∈ [SourceClass.p2, .r1, .r2, .o1, .i1]) =
      true ↔
      HasCorroboration evidence := by
  simp [direct, HasCorroboration]

theorem not_primary (h : direct evidence = []) : ¬ HasPrimary evidence := by
  rw [← any_primary, h]
  simp

theorem not_corroboration (h : direct evidence = []) : ¬ HasCorroboration evidence := by
  rw [← any_corroboration, h]
  simp

theorem HasPrimary.ne_nil (h : HasPrimary evidence) : evidence ≠ [] := by
  obtain ⟨item, hitem, -⟩ := h
  exact List.ne_nil_of_mem hitem

theorem HasCorroboration.ne_nil (h : HasCorroboration evidence) : evidence ≠ [] := by
  obtain ⟨item, hitem, -⟩ := h
  exact List.ne_nil_of_mem hitem

theorem confidence_contradicted : deriveSupportConfidence evidence freshness true = .low := by
  simp [deriveSupportConfidence]

theorem confidence_nil : deriveSupportConfidence [] freshness contradicted = .low := by
  simp [deriveSupportConfidence]

theorem confidence_stale (h : 2 ≤ staleness freshness) :
    deriveSupportConfidence evidence freshness contradicted = .low := by
  cases freshness with
  | fresh | aging => exact absurd h (by decide)
  | stale | revalidationRequired => simp [deriveSupportConfidence]

theorem confidence_aging (h : evidence ≠ []) :
    deriveSupportConfidence evidence .aging false = .medium := by
  simp [deriveSupportConfidence, h]

theorem confidence_fresh (h : evidence ≠ []) : deriveSupportConfidence evidence .fresh false =
    if (direct evidence).any fun item ↦ item.sourceClass = .p1 && item.maturity ≠ .e0 then .high
    else if (direct evidence).any fun item ↦ item.sourceClass ∈ [SourceClass.p2, .r1, .r2, .o1,
      .i1] then .medium
    else .low := by
  simp [deriveSupportConfidence, direct, h]

theorem confidence_fresh_high (h : HasPrimary evidence) :
    deriveSupportConfidence evidence .fresh false = .high := by
  rw [confidence_fresh h.ne_nil, if_pos (any_primary.mpr h)]

theorem confidence_fresh_medium (hprimary : ¬ HasPrimary evidence) (h : HasCorroboration evidence) :
    deriveSupportConfidence evidence .fresh false = .medium := by
  rw [confidence_fresh h.ne_nil, if_neg (mt any_primary.mp hprimary),
    if_pos (any_corroboration.mpr h)]

theorem confidence_fresh_low (hprimary : ¬ HasPrimary evidence) (h : ¬ HasCorroboration evidence) :
    deriveSupportConfidence evidence .fresh false = .low := by
  by_cases hnil : evidence = []
  · rw [hnil, confidence_nil]
  · rw [confidence_fresh hnil, if_neg (mt any_primary.mp hprimary),
      if_neg (mt any_corroboration.mp h)]

theorem HasPrimary.mono (hprimary : HasPrimary evidence) (h : evidence ⊆ evidence') :
    HasPrimary evidence' := by
  obtain ⟨item, hitem, hcounts⟩ := hprimary
  exact ⟨item, h hitem, hcounts⟩

theorem HasCorroboration.mono (hcorroboration : HasCorroboration evidence)
    (h : evidence ⊆ evidence') :
    HasCorroboration evidence' := by
  obtain ⟨item, hitem, hcounts⟩ := hcorroboration
  exact ⟨item, h hitem, hcounts⟩

structure ConfidenceMonotone (evidence : List Evidence) : Prop where
  staler : ∀ freshness freshness' contradicted, staleness freshness ≤ staleness freshness' →
    confidenceRank (deriveSupportConfidence evidence freshness' contradicted) ≤
      confidenceRank (deriveSupportConfidence evidence freshness contradicted)
  contradicted : ∀ freshness, confidenceRank (deriveSupportConfidence evidence freshness true) ≤
    confidenceRank (deriveSupportConfidence evidence freshness false)
  added : ∀ evidence' freshness contradicted, evidence.Subperm evidence' →
    confidenceRank (deriveSupportConfidence evidence freshness contradicted) ≤
      confidenceRank (deriveSupportConfidence evidence' freshness contradicted)

theorem confidence_added (h : evidence ⊆ evidence') :
    confidenceRank (deriveSupportConfidence evidence freshness contradicted) ≤
      confidenceRank (deriveSupportConfidence evidence' freshness contradicted) := by
  by_cases hnil : evidence = []
  · rw [hnil, confidence_nil]
    exact Nat.zero_le _
  have hnil' : evidence' ≠ [] := fun h' ↦ hnil (List.subset_nil.mp (h' ▸ h))
  cases contradicted with
  | true => rw [confidence_contradicted, confidence_contradicted]
  | false =>
    cases freshness with
    | stale | revalidationRequired =>
      rw [confidence_stale (by decide)]
      exact Nat.zero_le _
    | aging => rw [confidence_aging hnil, confidence_aging hnil']
    | fresh =>
      by_cases hprimary : HasPrimary evidence
      · rw [confidence_fresh_high hprimary, confidence_fresh_high (hprimary.mono h)]
      · by_cases hcorroboration : HasCorroboration evidence
        · rw [confidence_fresh_medium hprimary hcorroboration]
          by_cases hprimary' : HasPrimary evidence'
          · rw [confidence_fresh_high hprimary']
            decide
          · rw [confidence_fresh_medium hprimary' (hcorroboration.mono h)]
        · rw [confidence_fresh_low hprimary hcorroboration]
          exact Nat.zero_le _

theorem confidence_aged (hcounts : evidence = [] ∨ HasPrimary evidence ∨
    HasCorroboration evidence) :
    confidenceRank (deriveSupportConfidence evidence .aging contradicted) ≤
      confidenceRank (deriveSupportConfidence evidence .fresh contradicted) := by
  cases contradicted with
  | true => rw [confidence_contradicted, confidence_contradicted]
  | false =>
    rcases hcounts with rfl | hprimary | hcorroboration
    · rw [confidence_nil, confidence_nil]
    · rw [confidence_aging hprimary.ne_nil, confidence_fresh_high hprimary]
      decide
    · rw [confidence_aging hcorroboration.ne_nil]
      by_cases hprimary : HasPrimary evidence
      · rw [confidence_fresh_high hprimary]
        decide
      · rw [confidence_fresh_medium hprimary hcorroboration]

/-- Aging evidence gives medium confidence whatever it is. So the confidence is monotone exactly
when the evidence is of some weight while it is fresh. -/
theorem support_confidence_monotone_iff (evidence : List Evidence) :
    ConfidenceMonotone evidence ↔ evidence = [] ∨ HasPrimary evidence ∨
    HasCorroboration evidence := by
  constructor
  · intro h
    by_contra hnot
    obtain ⟨hnil, hweight⟩ := not_or.mp hnot
    obtain ⟨hprimary, hcorroboration⟩ := not_or.mp hweight
    have haged := h.staler .fresh .aging false (by decide)
    rw [confidence_aging hnil, confidence_fresh_low hprimary hcorroboration] at haged
    exact absurd haged (by decide)
  · intro hcounts
    refine ⟨?_, ?_, fun evidence' freshness contradicted h ↦ confidence_added h.subset⟩
    · intro freshness freshness' contradicted hstaler
      cases freshness' with
      | stale | revalidationRequired =>
        rw [confidence_stale (by decide)]
        exact Nat.zero_le _
      | aging =>
        cases freshness with
        | fresh => exact confidence_aged hcounts
        | aging => exact le_rfl
        | stale | revalidationRequired => exact absurd hstaler (by decide)
      | fresh =>
        cases freshness with
        | fresh => exact le_rfl
        | aging | stale | revalidationRequired => exact absurd hstaler (by decide)
    · intro freshness
      rw [confidence_contradicted]
      exact Nat.zero_le _

def secondaryEvidence : List Evidence := [{ Storage.guideEvidence with sourceClass := .s1 }]

/-- It supports the assertion more once it is older. -/
theorem secondaryEvidence_rises :
    deriveSupportConfidence secondaryEvidence .fresh false = .low ∧
      deriveSupportConfidence secondaryEvidence .aging false = .medium ∧
      ¬ ConfidenceMonotone secondaryEvidence := by
  refine ⟨by decide, by decide, fun h ↦ ?_⟩
  exact absurd (h.staler .fresh .aging false (by decide)) (by decide)

def AllDerivative (evidence : List Evidence) : Prop :=
  ∀ item ∈ evidence, item.derivativeOfEvidenceId.isSome

/-- Neither result changes when the items are merged in. -/
structure Uninflated (evidence merged : List Evidence) (freshness : Freshness) (contradicted : Bool)
    (rootByEvidence : List (String × String)) : Prop where
  confidence : deriveSupportConfidence merged freshness contradicted =
    deriveSupportConfidence evidence freshness contradicted
  count : provenanceIndependentCount merged rootByEvidence =
    provenanceIndependentCount evidence rootByEvidence

section Merged

variable {derivatives merged : List Evidence}

theorem direct_merged (hderivatives : AllDerivative derivatives)
    (h : merged.Perm (evidence ++ derivatives)) :
    (direct merged).Perm (direct evidence) := by
  have hnone : direct derivatives = [] := by
    rw [direct, List.filter_eq_nil_iff]
    intro item hitem
    simp [Option.isSome_iff_ne_none.mp (hderivatives item hitem)]
  have hperm : (direct merged).Perm (direct (evidence ++ derivatives)) := h.filter _
  unfold direct at hnone hperm ⊢
  rwa [List.filter_append, hnone, List.append_nil] at hperm

theorem confidence_congr (hnil : merged = [] ↔ evidence = [])
    (h : (direct merged).Perm (direct evidence)) :
    deriveSupportConfidence merged freshness contradicted =
      deriveSupportConfidence evidence freshness contradicted := by
  unfold direct at h
  simp only [deriveSupportConfidence, hnil, h.any_eq]

theorem count_congr (rootByEvidence : List (String × String))
    (h : (direct merged).Perm (direct evidence)) :
    provenanceIndependentCount merged rootByEvidence =
      provenanceIndependentCount evidence rootByEvidence := by
  have hroots := h.map fun item ↦ (rootByEvidence.lookup item.id.text).getD item.id.text
  apply List.Perm.length_eq
  rw [List.perm_ext_iff_of_nodup (nodup_eraseDups _) (nodup_eraseDups _)]
  intro root
  rw [List.mem_eraseDups, List.mem_eraseDups]
  exact hroots.mem_iff

/-- Derivative items count where there is no other evidence and it is aging. -/
theorem derivative_evidence_uninflated_iff (hderivatives : AllDerivative derivatives)
    (h : merged.Perm (evidence ++ derivatives)) (freshness : Freshness) (contradicted : Bool)
    (rootByEvidence : List (String × String)) :
    Uninflated evidence merged freshness contradicted rootByEvidence ↔
      evidence ≠ [] ∨ derivatives = [] ∨ freshness ≠ .aging ∨ contradicted = true := by
  have hdirect := direct_merged hderivatives h
  have hcount := count_congr rootByEvidence hdirect
  have hmerged : merged = [] ↔ evidence = [] ∧ derivatives = [] := by
    rw [← List.length_eq_zero_iff, h.length_eq, List.length_eq_zero_iff, List.append_eq_nil_iff]
  by_cases hnil : merged = [] ↔ evidence = []
  · refine iff_of_true ⟨confidence_congr hnil hdirect, hcount⟩ ?_
    tauto
  -- only derivative items
  obtain ⟨rfl, hsome⟩ : evidence = [] ∧ merged ≠ [] := by tauto
  have hderived : derivatives ≠ [] := by tauto
  constructor
  · intro huninflated
    by_contra hnot
    obtain ⟨-, -, hfreshness, hcontradicted⟩ : ¬ ([] : List Evidence) ≠ [] ∧ derivatives ≠ [] ∧
        freshness = .aging ∧
        contradicted = false := by
      simpa [not_or] using hnot
    have hconfidence := huninflated.confidence
    rw [hfreshness, hcontradicted, confidence_aging hsome, confidence_nil] at hconfidence
    cases hconfidence
  · intro hcondition
    refine ⟨?_, hcount⟩
    have hnone : direct merged = [] := List.perm_nil.mp hdirect
    rw [confidence_nil]
    cases contradicted with
    | true => exact confidence_contradicted
    | false =>
      cases freshness with
      | fresh => exact confidence_fresh_low (not_primary hnone) (not_corroboration hnone)
      | aging => simp at hcondition; tauto
      | stale | revalidationRequired => exact confidence_stale (by decide)

end Merged

def copiedEvidence : List Evidence :=
  [{ Storage.guideEvidence with derivativeOfEvidenceId := some Storage.guideEvidence.id }]

theorem copiedEvidence_allDerivative : AllDerivative copiedEvidence := by
  simp [AllDerivative, copiedEvidence]

/-- By itself the copy supports the assertion, where no evidence does not. -/
theorem copiedEvidence_inflates : deriveSupportConfidence copiedEvidence .aging false = .medium ∧
    deriveSupportConfidence [] .aging false = .low ∧
    ¬ Uninflated [] copiedEvidence .aging false [] := by
  refine ⟨by decide, by decide, fun h ↦ ?_⟩
  exact absurd h.confidence (by decide)

theorem copiedEvidence_uninflated :
    Uninflated [Storage.guideEvidence] (copiedEvidence ++
      [Storage.guideEvidence]) .aging false [] :=
  (derivative_evidence_uninflated_iff copiedEvidence_allDerivative List.perm_append_comm .aging
    false []).mpr
    (.inl (List.cons_ne_nil _ _))

end AgenticSecurity.Derivations
