import AgenticSecurity.Contradictions.Rules
import Mathlib.Data.Set.Basic

namespace AgenticSecurity.Contradictions

open Models

structure OneSubject (left right : Assertion) : Prop where
  systemId : left.systemId = right.systemId
  agentId : left.agentId = right.agentId
  subjectType : left.slots.subjectType = right.slots.subjectType
  subject : left.slots.subject = right.slots.subject

def OpposedStates (left right : Assertion) : Prop :=
  left.state = .affirmed ∧ right.state = .explicitlyUnsupported ∨
    left.state = .explicitlyUnsupported ∧ right.state = .affirmed

def Includes (evidenceById : List (EvidenceId × Evidence)) (evidenceIds : List EvidenceId)
    (sourceClass : SourceClass) :
    Prop :=
  ∃ id ∈ evidenceIds, ∃ evidence, evidenceById.lookup id = some evidence ∧
    evidence.sourceClass = sourceClass

variable (evidenceById : List (EvidenceId × Evidence))

def PairCondition (rule : Rule) (left right : Assertion) : Prop :=
  OneSubject left right ∧
    match rule with
    | .state => OpposedStates left right
    | .availability => left.slots.subjectType = .availability ∧ left.statement ≠ right.statement
    | .benchmark => left.slots.subjectType = .benchmarkResult ∧ left.statement ≠ right.statement ∧
        Includes evidenceById (left.evidenceIds ++ right.evidenceIds) .p2 ∧
          (Includes evidenceById (left.evidenceIds ++ right.evidenceIds) .r2 ∨
            Includes evidenceById (left.evidenceIds ++ right.evidenceIds) .i1)
    | .autonomy => False

def AutonomyCondition (assertion : Assertion) : Prop :=
  (assertion.slots.subject = "remediation" ∨ assertion.slots.subject = "autonomous-investigation") ∧
    Includes evidenceById assertion.evidenceIds .p2 ∧
    Includes evidenceById assertion.contradictingEvidenceIds .p1

variable {evidenceById} {left right : Assertion} {rule : Rule}

theorem sameSubject_iff : sameSubject left right = true ↔ OneSubject left right := by
  rw [sameSubject, decide_eq_true_eq]
  constructor
  · intro h
    obtain ⟨hsystem, hagent, htype, hsubject⟩ := by simpa only [Prod.mk.injEq] using h
    exact ⟨hsystem, hagent, htype, hsubject⟩
  · rintro ⟨hsystem, hagent, htype, hsubject⟩
    rw [hsystem, hagent, htype, hsubject]

theorem opposedStates_iff : opposedStates left right = true ↔ OpposedStates left right := by
  simp [opposedStates, OpposedStates]

theorem mem_sourceClasses {evidenceIds : List EvidenceId} {sourceClass : SourceClass} :
    sourceClass ∈ sourceClasses evidenceById evidenceIds ↔
    Includes evidenceById evidenceIds sourceClass := by
  simp only [sourceClasses, Includes, List.mem_map, List.mem_filterMap]
  constructor
  · rintro ⟨evidence, ⟨id, hid, hlookup⟩, hclass⟩
    exact ⟨id, hid, evidence, hlookup, hclass⟩
  · rintro ⟨id, hid, evidence, hlookup, hclass⟩
    exact ⟨evidence, ⟨id, hid, hlookup⟩, hclass⟩

theorem benchmarkConflict_iff : benchmarkConflict evidenceById left right = true ↔
    Includes evidenceById (left.evidenceIds ++ right.evidenceIds) .p2 ∧
      (Includes evidenceById (left.evidenceIds ++ right.evidenceIds) .r2 ∨
        Includes evidenceById (left.evidenceIds ++ right.evidenceIds) .i1) := by
  simp only [benchmarkConflict, Bool.and_eq_true, Bool.or_eq_true, decide_eq_true_eq,
    mem_sourceClasses]

theorem autonomyConflict_iff {assertion : Assertion} :
    autonomyConflict evidenceById assertion = true ↔ AutonomyCondition evidenceById assertion := by
  simp only [autonomyConflict, AutonomyCondition, Bool.and_eq_true, decide_eq_true_eq,
    mem_sourceClasses, and_assoc, List.mem_cons, List.not_mem_nil, or_false]

theorem mem_pairRules : rule ∈ pairRules evidenceById left right ↔
    PairCondition evidenceById rule left right := by
  simp only [pairRules, PairCondition, List.mem_append, ← sameSubject_iff, ← opposedStates_iff,
    ← benchmarkConflict_iff]
  by_cases hsubject : sameSubject left right = true
  · cases rule with
    | state => simp [hsubject]
    | availability => simp [hsubject, and_comm]
    | benchmark => simp [hsubject, and_left_comm]
    | autonomy => simp [hsubject]
  · simp [hsubject]

def SameFinding (found found' : Conflict) : Prop :=
  found.rule = found'.rule ∧ found.assertionIds.Perm found'.assertionIds

theorem pairRules_nodup : (pairRules evidenceById left right).Nodup := by
  unfold pairRules
  split_ifs <;> decide

theorem pairConflicts_pairwise (pair : Assertion × Assertion) :
    (pairConflicts evidenceById pair).Pairwise fun found found' ↦ ¬ SameFinding found found' := by
  rw [pairConflicts, List.pairwise_map]
  exact pairRules_nodup.imp fun hne hsame ↦ hne hsame.1

theorem autonomyConflicts_pairwise (assertion : Assertion) :
    (autonomyConflicts evidenceById assertion).Pairwise
      fun found found' ↦ ¬ SameFinding found found' := by
  unfold autonomyConflicts
  split_ifs with h
  · exact List.pairwise_singleton _ _
  · exact List.Pairwise.nil

theorem laterPairs_pairwise {assertions : List Assertion} (hids : (assertions.map (·.id)).Nodup) :
    (laterPairs assertions).Pairwise fun pair pair' ↦ ¬ [pair.1.id, pair.2.id].Perm [pair'.1.id,
      pair'.2.id] := by
  induction assertions with
  | nil => exact List.Pairwise.nil
  | cons assertion assertions ih =>
    obtain ⟨hassertion, hids⟩ := List.nodup_cons.mp hids
    rw [laterPairs, List.pairwise_append]
    refine ⟨?_, ih hids, ?_⟩
    · rw [List.pairwise_map]
      apply (List.pairwise_map.mp hids).imp
      intro right right' hne hperm
      exact hne (List.singleton_perm_singleton.mp (List.Perm.cons_inv hperm))
    · -- the first item is in none of the pairs of the others
      intro pair hpair pair' hpair' hperm
      obtain ⟨right, -, rfl⟩ := List.mem_map.mp hpair
      have hsublist := mem_laterPairs.mp hpair'
      have hmem : assertion.id ∈ [pair'.1.id, pair'.2.id] := hperm.subset List.mem_cons_self
      have hsubset := (hsublist.map (·.id)).subset hmem
      exact hassertion hsubset

theorem assertionIds_of_pairConflicts {pair : Assertion × Assertion} {found : Conflict}
    (h : found ∈ pairConflicts evidenceById pair) :
    found.assertionIds = [pair.1.id, pair.2.id] := by
  obtain ⟨rule, -, rfl⟩ := List.mem_map.mp h
  rfl

theorem assertionIds_of_autonomyConflicts {assertion : Assertion} {found : Conflict}
    (h : found ∈ autonomyConflicts evidenceById assertion) :
    found.assertionIds = [assertion.id] := by
  unfold autonomyConflicts at h
  split_ifs at h with hautonomy
  · rw [List.mem_singleton.mp h]
  · cases h

theorem conflicts_pairwise {assertions : List Assertion} (hids : (assertions.map (·.id)).Nodup) :
    (conflicts evidenceById assertions).Pairwise fun found found' ↦ ¬ SameFinding found found' := by
  rw [conflicts, List.pairwise_append]
  refine ⟨?_, ?_, ?_⟩
  · rw [List.pairwise_flatMap]
    refine ⟨fun pair _ ↦ pairConflicts_pairwise pair, (laterPairs_pairwise hids).imp ?_⟩
    intro pair pair' hne found hfound found' hfound' hsame
    refine hne ?_
    rw [← assertionIds_of_pairConflicts hfound, ← assertionIds_of_pairConflicts hfound']
    exact hsame.2
  · rw [List.pairwise_flatMap]
    refine ⟨fun assertion _ ↦ autonomyConflicts_pairwise assertion,
      (List.pairwise_map.mp hids).imp ?_⟩
    intro assertion assertion' hne found hfound found' hfound' hsame
    refine hne (List.singleton_perm_singleton.mp ?_)
    rw [← assertionIds_of_autonomyConflicts hfound, ← assertionIds_of_autonomyConflicts hfound']
    exact hsame.2
  · intro found hfound found' hfound' hsame
    obtain ⟨pair, -, hpair⟩ := List.mem_flatMap.mp hfound
    obtain ⟨assertion, -, hassertion⟩ := List.mem_flatMap.mp hfound'
    have hlength := hsame.2.length_eq
    rw [assertionIds_of_pairConflicts hpair,
      assertionIds_of_autonomyConflicts hassertion] at hlength
    cases hlength

structure About (rule : Rule) (assertionIds : List AssertionId) (flag : ContradictionFlag) :
    Prop where
  detectedBy : flag.detectedBy = rule.detectedBy
  assertionIds : flag.assertionIds.Perm assertionIds

theorem about_of_rule {found : Conflict} (count : ℕ) :
    About found.rule found.assertionIds (found.flag count) :=
  ⟨rfl, .refl _⟩

theorem mem_flags {assertions : List Assertion} {flag : ContradictionFlag} :
    flag ∈ flagContradictions evidenceById assertions ↔
      ∃ (i : ℕ) (found : Conflict), (conflicts evidenceById assertions)[i]? = some found ∧
        found.flag (i + 1) = flag := by
  rw [List.mem_iff_getElem?]
  exact exists_congr fun i ↦ getElem?_flags

theorem flag_of_conflict {assertions : List Assertion} {found : Conflict}
    (h : found ∈ conflicts evidenceById assertions) :
    ∃ flag ∈ flagContradictions evidenceById assertions,
    About found.rule found.assertionIds flag := by
  obtain ⟨i, hi⟩ := List.getElem?_of_mem h
  exact ⟨found.flag (i + 1), mem_flags.mpr ⟨i, found, hi, rfl⟩, about_of_rule _⟩

theorem flag_unique {assertions : List Assertion} (hids : (assertions.map (·.id)).Nodup)
    {rule : Rule} {assertionIds : List AssertionId} {flag flag' : ContradictionFlag}
    (hflag : flag ∈ flagContradictions evidenceById assertions)
    (habout : About rule assertionIds flag)
    (hflag' : flag' ∈ flagContradictions evidenceById assertions)
    (habout' : About rule assertionIds flag') :
    flag = flag' := by
  obtain ⟨i, found, hi, rfl⟩ := mem_flags.mp hflag
  obtain ⟨j, found', hj, rfl⟩ := mem_flags.mp hflag'
  have hsame : SameFinding found found' :=
    ⟨detectedBy_inj.mp (habout.1.trans habout'.1.symm), habout.2.trans habout'.2.symm⟩
  have hconflicts :
      (conflicts evidenceById assertions).Pairwise fun found found' ↦ ¬ SameFinding found found' :=
    conflicts_pairwise hids
  have hpairwise := List.pairwise_iff_getElem.mp hconflicts
  obtain ⟨hi', rfl⟩ := List.getElem?_eq_some_iff.mp hi
  obtain ⟨hj', rfl⟩ := List.getElem?_eq_some_iff.mp hj
  rcases Nat.lt_trichotomy i j with hlt | rfl | hlt
  · exact absurd hsame (hpairwise i j hi' hj' hlt)
  · rfl
  · exact absurd ⟨hsame.1.symm, hsame.2.symm⟩ (hpairwise j i hj' hi' hlt)

theorem conflict_of_pair {assertions : List Assertion} (hleft : left ∈ assertions)
    (hright : right ∈ assertions) (hne : left.id ≠ right.id)
    (h : PairCondition evidenceById rule left right) :
    ∃ found ∈ conflicts evidenceById assertions, found.rule = rule ∧
      found.assertionIds.Perm [left.id, right.id] := by
  have hpair : [left, right].Subperm assertions := by
    apply List.subperm_of_subset
    · simpa using fun heq : left = right ↦ hne (by rw [heq])
    · simp [hleft, hright]
  obtain ⟨pair, hperm, hsublist⟩ := hpair
  rcases List.perm_pair.mp hperm with rfl | rfl
  · exact ⟨⟨rule, [left.id, right.id]⟩,
      mem_conflicts.mpr (.inl ⟨left, right, hsublist, mem_pairRules.mpr h, rfl⟩), rfl, .refl _⟩
  · refine ⟨⟨rule, [right.id, left.id]⟩, mem_conflicts.mpr (.inl ⟨right, left, hsublist, ?_, rfl⟩),
      rfl, .swap _ _ _⟩
    rw [pairRules_comm]
    exact mem_pairRules.mpr h

theorem conflict_of_assertion {assertions : List Assertion} {assertion : Assertion}
    (hassertion : assertion ∈ assertions) (h : AutonomyCondition evidenceById assertion) :
    { rule := .autonomy, assertionIds := [assertion.id] } ∈ conflicts evidenceById assertions :=
  mem_conflicts.mpr (.inr ⟨assertion, hassertion, autonomyConflict_iff.mpr h, rfl, rfl⟩)

/-- The rules and the sets of assertions that are flagged. -/
def flagged (evidenceById : List (EvidenceId × Evidence)) (assertions : List Assertion) :
    Set (String × Set AssertionId) :=
  {finding | ∃ flag ∈ flagContradictions evidenceById assertions,
    finding = (flag.detectedBy, {id | id ∈ flag.assertionIds})}

theorem flagged_subset {assertions assertions' : List Assertion} (h : assertions.Perm assertions') :
    flagged evidenceById assertions ⊆ flagged evidenceById assertions' := by
  rintro finding ⟨flag, hflag, rfl⟩
  obtain ⟨i, found, hi, rfl⟩ := mem_flags.mp hflag
  obtain ⟨again, hagain, hrule, hids⟩ := conflict_again h.subperm (List.mem_of_getElem? hi)
  obtain ⟨flag', hflag', habout⟩ := flag_of_conflict hagain
  have hmembers : {id | id ∈ found.assertionIds} = {id | id ∈ flag'.assertionIds} :=
    Set.ext fun id ↦ (hids id).trans habout.assertionIds.mem_iff.symm
  refine ⟨flag', hflag', Prod.ext ?_ hmembers⟩
  rw [habout.detectedBy, hrule]
  rfl

/-- Each conflict is flagged once, and nothing else is flagged. -/
structure ExactFlags (evidenceById : List (EvidenceId × Evidence)) (assertions : List Assertion)
    (flags : List ContradictionFlag) : Prop where
  pair : ∀ left ∈ assertions, ∀ right ∈ assertions, left.id ≠ right.id → ∀ rule,
    PairCondition evidenceById rule left right →
    ∃! flag, flag ∈ flags ∧ About rule [left.id, right.id] flag
  autonomy : ∀ assertion ∈ assertions, AutonomyCondition evidenceById assertion →
    ∃! flag, flag ∈ flags ∧ About .autonomy [assertion.id] flag
  only : ∀ flag ∈ flags,
    (∃ left ∈ assertions, ∃ right ∈ assertions, left.id ≠ right.id ∧ ∃ rule,
      PairCondition evidenceById rule left right ∧ About rule [left.id, right.id] flag) ∨
    ∃ assertion ∈ assertions, AutonomyCondition evidenceById assertion ∧
      About .autonomy [assertion.id] flag
  ids : (flags.map (·.id)).Nodup

theorem flag_contradictions_exact {assertions : List Assertion}
    (hids : (assertions.map (·.id)).Nodup) (evidenceById : List (EvidenceId × Evidence)) :
    ExactFlags evidenceById assertions (flagContradictions evidenceById assertions) ∧
      ∀ assertions', assertions.Perm assertions' →
        flagged evidenceById assertions' = flagged evidenceById assertions := by
  refine ⟨⟨?_, ?_, ?_, flag_ids_nodup assertions⟩, fun assertions' h ↦
    Set.Subset.antisymm (flagged_subset h.symm) (flagged_subset h)⟩
  · intro left hleft right hright hne rule h
    obtain ⟨found, hfound, hrule, hpair⟩ := conflict_of_pair hleft hright hne h
    obtain ⟨flag, hflag, habout⟩ := flag_of_conflict hfound
    have habout' : About rule [left.id, right.id] flag :=
      ⟨hrule ▸ habout.detectedBy, habout.assertionIds.trans hpair⟩
    exact ⟨flag, ⟨hflag, habout'⟩, fun flag' h' ↦ flag_unique hids h'.1 h'.2 hflag habout'⟩
  · intro assertion hassertion h
    obtain ⟨flag, hflag, habout⟩ := flag_of_conflict (conflict_of_assertion hassertion h)
    exact ⟨flag, ⟨hflag, habout⟩, fun flag' h' ↦ flag_unique hids h'.1 h'.2 hflag habout⟩
  · intro flag hflag
    obtain ⟨i, found, hi, rfl⟩ := mem_flags.mp hflag
    have habout : About found.rule found.assertionIds (found.flag (i + 1)) := about_of_rule _
    rcases mem_conflicts.mp (List.mem_of_getElem? hi) with
      ⟨left, right, hpair, hrule, hpairIds⟩ | ⟨assertion, hassertion, hautonomy, hrule,
        hassertionIds⟩
    · rw [hpairIds] at habout
      have hdistinct := (hpair.map (·.id)).nodup hids
      exact .inl ⟨left, hpair.subset List.mem_cons_self, right,
        hpair.subset (List.mem_cons_of_mem _
          List.mem_cons_self), by simpa using hdistinct, found.rule, mem_pairRules.mp hrule, habout⟩
    · rw [hassertionIds, hrule] at habout
      exact .inr ⟨assertion, hassertion, autonomyConflict_iff.mp hautonomy, habout⟩

theorem huntingStances_ids : (huntingStances.map (·.id)).Nodup := by decide

theorem flag_contradictions_exact_hunting :
    (flagContradictions [] huntingStances).length = 1 ∧
      ∃! flag, flag ∈ flagContradictions [] huntingStances ∧
        About .state (huntingStances.map (·.id)) flag := by
  refine ⟨by decide,
    (flag_contradictions_exact huntingStances_ids []).1.pair (huntingStances.get ⟨0, by decide⟩)
    (List.get_mem _ _) (huntingStances.get ⟨1, by decide⟩) (List.get_mem _ _) (by decide) .state ?_⟩
  exact ⟨⟨rfl, rfl, rfl, rfl⟩, .inl ⟨rfl, rfl⟩⟩

end AgenticSecurity.Contradictions
