import AgenticSecurity.Models
import Mathlib.Data.List.Nodup
import Mathlib.Data.List.Permutation

namespace AgenticSecurity.Contradictions

open Models

inductive Rule
  | state | availability | benchmark | autonomy
  deriving DecidableEq, Repr

def Rule.idText : Rule → String
  | .state => "CONFLICT-STATE-"
  | .availability => "CONFLICT-AVAILABILITY-"
  | .benchmark => "CONFLICT-BENCHMARK-"
  | .autonomy => "CONFLICT-AUTONOMY-"

def Rule.detectedBy : Rule → String
  | .state => "rule:same-subject-conflicting-state"
  | .availability => "rule:availability-source-conflict"
  | .benchmark => "rule:benchmark-claim-vs-operator-record"
  | .autonomy => "rule:autonomy-claim-vs-gate-doc"

def Rule.rationale : Rule → String
  | .state => "Same subject has affirmed and explicitly unsupported states."
  | .availability => "Sources establish incompatible availability descriptions."
  | .benchmark => "Vendor benchmark claim differs from an operator or independent record."
  | .autonomy => "Official marketing autonomy claim conflicts with primary gate documentation."

theorem idText_pattern (rule : Rule) (count : ℕ) :
    matchesId "CONFLICT-" (rule.idText ++ Nat.repr count) = true := by
  refine matchesId_append (by cases rule <;> decide) ?_
  rw [Nat.toList_repr, List.all_eq_true]
  intro c hc
  have hdigit := Nat.isDigit_of_mem_toDigits (by decide) (by decide) hc
  simp [idCharacter, hdigit]

/-- `f"CONFLICT-...-{count}"`. -/
def conflictId (rule : Rule) (count : ℕ) : ConflictId where
  text := rule.idText ++ Nat.repr count
  pattern := idText_pattern rule count

theorem rule_of_conflictId {rule rule' : Rule} {count count' : ℕ}
    (h : conflictId rule count = conflictId rule' count') : rule = rule' := by
  have hletter (rule : Rule) (count : ℕ) :
      (conflictId rule count).text.toList[10]? = rule.idText.toList[10]? := by
    have hlength : 10 < rule.idText.toList.length := by cases rule <;> decide
    rw [conflictId, String.toList_append, List.getElem?_append_left hlength]
  have hletters : rule.idText.toList[10]? = rule'.idText.toList[10]? := by
    rw [← hletter rule count, ← hletter rule' count', h]
  revert hletters
  cases rule <;> cases rule' <;> decide

theorem conflictId_inj {rule rule' : Rule} {count count' : ℕ} :
    conflictId rule count = conflictId rule' count' ↔ rule = rule' ∧ count = count' := by
  constructor
  · intro h
    obtain rfl := rule_of_conflictId h
    have htexts : rule.idText ++ Nat.repr count = rule.idText ++ Nat.repr count' :=
      congrArg Id.text h
    have hdigits := congrArg String.toList (String.append_right_inj _ |>.mp htexts)
    rw [Nat.toList_repr, Nat.toList_repr] at hdigits
    refine ⟨rfl, ?_⟩
    rw [← Nat.ofDigitChars_toDigits (b := 10) (n := count) (by decide) (by decide), hdigits,
      Nat.ofDigitChars_toDigits (by decide) (by decide)]
  · rintro ⟨rfl, rfl⟩
    rfl

theorem detectedBy_inj {rule rule' : Rule} : rule.detectedBy = rule'.detectedBy ↔ rule = rule' := by
  refine ⟨?_, fun h ↦ h ▸ rfl⟩
  cases rule <;> cases rule' <;> decide

structure Conflict where
  rule : Rule
  assertionIds : List AssertionId
  deriving DecidableEq

def Conflict.flag (conflict : Conflict) (count : ℕ) : ContradictionFlag where
  id := conflictId conflict.rule count
  assertionIds := conflict.assertionIds
  detectedBy := conflict.rule.detectedBy
  rationale := conflict.rule.rationale

variable (evidenceById : List (EvidenceId × Evidence))

def sameSubject (left right : Assertion) : Bool :=
  (left.systemId, left.agentId, left.slots.subjectType, left.slots.subject) =
    (right.systemId, right.agentId, right.slots.subjectType, right.slots.subject)

def opposedStates (left right : Assertion) : Bool :=
  left.state = .affirmed && right.state = .explicitlyUnsupported ||
    left.state = .explicitlyUnsupported && right.state = .affirmed

def sourceClasses (evidenceIds : List EvidenceId) : List SourceClass :=
  (evidenceIds.filterMap fun id ↦ evidenceById.lookup id).map (·.sourceClass)

def benchmarkConflict (left right : Assertion) : Bool :=
  let classes := sourceClasses evidenceById (left.evidenceIds ++ right.evidenceIds)
  .p2 ∈ classes && (.r2 ∈ classes || .i1 ∈ classes)

def pairRules (left right : Assertion) : List Rule :=
  (if sameSubject left right && opposedStates left right then [.state] else []) ++
    if sameSubject left right && left.statement ≠ right.statement then
      (if left.slots.subjectType = .availability then [.availability] else []) ++
        if left.slots.subjectType = .benchmarkResult &&
          benchmarkConflict evidenceById left right then [.benchmark]
        else []
    else []

def autonomyConflict (assertion : Assertion) : Bool :=
  assertion.slots.subject ∈ ["remediation", "autonomous-investigation"] &&
    .p2 ∈ sourceClasses evidenceById assertion.evidenceIds &&
      .p1 ∈ sourceClasses evidenceById assertion.contradictingEvidenceIds

def laterPairs {α : Type} : List α → List (α × α)
  | [] => []
  | left :: items => items.map (fun right ↦ (left, right)) ++ laterPairs items

/-- `flags.append`, with the count in the id. -/
def addFlag (flags : List ContradictionFlag) (conflict : Conflict) : List ContradictionFlag :=
  flags ++ [conflict.flag (flags.length + 1)]

def flagPair (flags : List ContradictionFlag) (pair : Assertion × Assertion) :
    List ContradictionFlag :=
  (pairRules evidenceById pair.1 pair.2).foldl
    (fun flags rule ↦ addFlag flags { rule, assertionIds := [pair.1.id, pair.2.id] }) flags

def flagAutonomy (flags : List ContradictionFlag) (assertion : Assertion) :
    List ContradictionFlag :=
  if autonomyConflict evidenceById assertion then
    addFlag flags { rule := .autonomy, assertionIds := [assertion.id] }
  else flags

def flagContradictions (assertions : List Assertion) : List ContradictionFlag :=
  assertions.foldl (flagAutonomy evidenceById)
    ((laterPairs assertions).foldl (flagPair evidenceById) [])

def pairConflicts (pair : Assertion × Assertion) : List Conflict :=
  (pairRules evidenceById pair.1 pair.2).map fun rule ↦
    { rule, assertionIds := [pair.1.id, pair.2.id] }

def autonomyConflicts (assertion : Assertion) : List Conflict :=
  if autonomyConflict evidenceById assertion then
    [{ rule := .autonomy, assertionIds := [assertion.id] }] else []

/-- What the rules find, in the order of the scan. -/
def conflicts (assertions : List Assertion) : List Conflict :=
  (laterPairs assertions).flatMap (pairConflicts evidenceById) ++
    assertions.flatMap (autonomyConflicts evidenceById)

def numbered (conflicts : List Conflict) : List ContradictionFlag :=
  conflicts.zipIdx.map fun item ↦ item.1.flag (item.2 + 1)

theorem numbered_snoc (found : List Conflict) (conflict : Conflict) :
    numbered (found ++ [conflict]) = addFlag (numbered found) conflict := by
  simp [numbered, addFlag, List.zipIdx_append]

theorem foldl_addFlag (found conflicts : List Conflict) :
    conflicts.foldl addFlag (numbered found) = numbered (found ++ conflicts) := by
  induction conflicts generalizing found with
  | nil => rw [List.append_nil, List.foldl_nil]
  | cons conflict conflicts ih =>
    rw [List.foldl_cons, ← numbered_snoc, ih, List.append_assoc, List.singleton_append]

variable {evidenceById}

theorem flagPair_eq (flags : List ContradictionFlag) (pair : Assertion × Assertion) :
    flagPair evidenceById flags pair = (pairConflicts evidenceById pair).foldl addFlag flags := by
  rw [flagPair, pairConflicts, List.foldl_map]

theorem flagAutonomy_eq (flags : List ContradictionFlag) (assertion : Assertion) :
    flagAutonomy evidenceById flags assertion =
      (autonomyConflicts evidenceById assertion).foldl addFlag flags := by
  unfold flagAutonomy autonomyConflicts
  split_ifs <;> rfl

theorem flagContradictions_eq (assertions : List Assertion) :
    flagContradictions evidenceById assertions = numbered (conflicts evidenceById assertions) := by
  have hpairs :
      flagPair evidenceById =
      fun flags pair ↦ (pairConflicts evidenceById pair).foldl addFlag flags :=
    funext fun flags ↦ funext fun pair ↦ flagPair_eq flags pair
  have hautonomy : flagAutonomy evidenceById =
      fun flags assertion ↦ (autonomyConflicts evidenceById assertion).foldl addFlag flags :=
    funext fun flags ↦ funext fun assertion ↦ flagAutonomy_eq flags assertion
  have hnone : ([] : List ContradictionFlag) = numbered [] := rfl
  rw [flagContradictions, hpairs, hautonomy, ← List.foldl_flatMap, ← List.foldl_flatMap, hnone,
    foldl_addFlag, foldl_addFlag, List.nil_append, conflicts]

theorem getElem?_numbered (found : List Conflict) (i : ℕ) :
    (numbered found)[i]? = found[i]?.map fun conflict ↦ conflict.flag (i + 1) := by
  simp only [numbered, List.getElem?_map, List.getElem?_zipIdx, Option.map_map, Nat.zero_add]
  rfl

/-- The flags are about the same conflict: one rule and one set of assertions. -/
def SameConflict (flag flag' : ContradictionFlag) : Prop :=
  flag.detectedBy = flag'.detectedBy ∧ ∀ id, id ∈ flag.assertionIds ↔ id ∈ flag'.assertionIds

theorem sameSubject_comm (left right : Assertion) :
    sameSubject left right = sameSubject right left :=
  Bool.decide_congr eq_comm

theorem opposedStates_comm (left right : Assertion) :
    opposedStates left right = opposedStates right left := by
  rw [opposedStates, opposedStates, Bool.or_comm, Bool.and_comm (decide (right.state = .affirmed)),
    Bool.and_comm (decide (right.state = .explicitlyUnsupported))]

theorem benchmarkConflict_comm (left right : Assertion) :
    benchmarkConflict evidenceById left right = benchmarkConflict evidenceById right left := by
  simp only [benchmarkConflict, sourceClasses, List.filterMap_append, List.map_append,
    List.mem_append, or_comm]

theorem pairRules_comm (left right : Assertion) :
    pairRules evidenceById left right = pairRules evidenceById right left := by
  unfold pairRules
  rw [sameSubject_comm left right, opposedStates_comm left right, benchmarkConflict_comm left right]
  by_cases hsubject : sameSubject right left = true
  · have htype : left.slots.subjectType = right.slots.subjectType := by
      simp only [sameSubject, decide_eq_true_eq, Prod.mk.injEq] at hsubject
      exact hsubject.2.2.1.symm
    have hstatement : decide (left.statement ≠ right.statement) =
        decide (right.statement ≠ left.statement) :=
      Bool.decide_congr ne_comm
    rw [htype, hstatement]
  · simp [hsubject]

theorem mem_laterPairs {α : Type} {items : List α} {left right : α} :
    (left, right) ∈ laterPairs items ↔ [left, right].Sublist items := by
  induction items with
  | nil => simp [laterPairs]
  | cons item items ih =>
    rw [laterPairs, List.mem_append, ih, List.cons_sublist_cons', List.singleton_sublist, or_comm]
    simp [and_left_comm, eq_comm]

theorem mem_conflicts {assertions : List Assertion} {conflict : Conflict} :
    conflict ∈ conflicts evidenceById assertions ↔
      (∃ left right, [left, right].Sublist assertions ∧
        conflict.rule ∈ pairRules evidenceById left right ∧
        conflict.assertionIds = [left.id, right.id]) ∨
      ∃ assertion ∈ assertions, autonomyConflict evidenceById assertion = true ∧
        conflict.rule = .autonomy ∧
        conflict.assertionIds = [assertion.id] := by
  obtain ⟨rule, assertionIds⟩ := conflict
  simp only [conflicts, List.mem_append, List.mem_flatMap, Prod.exists, mem_laterPairs,
    pairConflicts, autonomyConflicts, List.mem_map, Conflict.mk.injEq]
  constructor
  · rintro (⟨left, right, hpair, found, hfound, rfl, rfl⟩ | ⟨assertion, hassertion, hfound⟩)
    · exact .inl ⟨left, right, hpair, hfound, rfl⟩
    · split_ifs at hfound with hautonomy
      · obtain ⟨rfl, rfl⟩ := Conflict.mk.inj (List.mem_singleton.mp hfound)
        exact .inr ⟨assertion, hassertion, hautonomy, rfl, rfl⟩
      · cases hfound
  · rintro (⟨left, right, hpair, hfound, rfl⟩ | ⟨assertion, hassertion, hautonomy, rfl, rfl⟩)
    · exact .inl ⟨left, right, hpair, rule, hfound, rfl, rfl⟩
    · exact .inr ⟨assertion, hassertion, by rw [if_pos hautonomy]; exact List.mem_singleton_self _⟩

theorem conflict_again {assertions grown : List Assertion} (h : assertions.Subperm grown)
    {conflict : Conflict} (hfound : conflict ∈ conflicts evidenceById assertions) :
    ∃ again ∈ conflicts evidenceById grown, again.rule = conflict.rule ∧
      ∀ id, id ∈ conflict.assertionIds ↔ id ∈ again.assertionIds := by
  rcases mem_conflicts.mp hfound with ⟨left, right, hpair, hrule, hids⟩ | ⟨assertion, hassertion,
    hautonomy, hrule, hids⟩
  · obtain ⟨pair, hperm, hsublist⟩ := hpair.subperm.trans h
    rcases List.perm_pair.mp hperm with rfl | rfl
    · exact ⟨conflict, mem_conflicts.mpr (.inl ⟨left, right, hsublist, hrule, hids⟩), rfl,
        fun id ↦ Iff.rfl⟩
    · refine ⟨⟨conflict.rule, [right.id, left.id]⟩,
        mem_conflicts.mpr (.inl ⟨right, left, hsublist, ?_, rfl⟩), rfl, ?_⟩
      · rwa [pairRules_comm] at hrule
      · intro id
        simp [hids, or_comm]
  · exact ⟨conflict, mem_conflicts.mpr
      (.inr ⟨assertion, h.subset hassertion, hautonomy, hrule, hids⟩), rfl, fun id ↦ Iff.rfl⟩

theorem getElem?_flags {assertions : List Assertion} {i : ℕ} {flag : ContradictionFlag} :
    (flagContradictions evidenceById assertions)[i]? = some flag ↔
      ∃ conflict, (conflicts evidenceById assertions)[i]? = some conflict ∧
        conflict.flag (i + 1) = flag := by
  rw [flagContradictions_eq, getElem?_numbered, Option.map_eq_some_iff]

theorem flag_id_iff {assertions grown : List Assertion} {i j : ℕ} {flag flag' : ContradictionFlag}
    (h : (flagContradictions evidenceById assertions)[i]? = some flag)
    (h' : (flagContradictions evidenceById grown)[j]? = some flag') :
    flag.id = flag'.id ↔ flag.detectedBy = flag'.detectedBy ∧ i = j := by
  obtain ⟨conflict, -, rfl⟩ := getElem?_flags.mp h
  obtain ⟨conflict', -, rfl⟩ := getElem?_flags.mp h'
  rw [Conflict.flag, Conflict.flag, conflictId_inj, detectedBy_inj, Nat.add_right_cancel_iff]

theorem flag_ids_nodup (assertions : List Assertion) :
    ((flagContradictions evidenceById assertions).map (·.id)).Nodup := by
  apply List.pairwise_iff_getElem.mpr
  intro i j hi hj hlt hid
  rw [List.length_map] at hi hj
  simp only [List.getElem_map] at hid
  have hsame := (flag_id_iff (List.getElem?_eq_getElem hi) (List.getElem?_eq_getElem hj)).mp hid
  omega

/-- A run over more assertions, in any order, flags each conflict again; the flag has the same id
exactly when as many flags come before it. -/
theorem conflict_id_same_iff {assertions grown : List Assertion} (h : assertions.Subperm grown) :
    (∀ flag ∈ flagContradictions evidenceById assertions,
        ∃ flag' ∈ flagContradictions evidenceById grown, SameConflict flag flag') ∧
      ∀ (i j : ℕ) (flag flag' : ContradictionFlag),
      (flagContradictions evidenceById assertions)[i]? = some flag →
        (flagContradictions evidenceById grown)[j]? = some flag' → SameConflict flag flag' →
          (flag.id = flag'.id ↔ i = j) := by
  constructor
  · intro flag hflag
    obtain ⟨i, hi⟩ := List.getElem?_of_mem hflag
    obtain ⟨conflict, hconflict, rfl⟩ := getElem?_flags.mp hi
    obtain ⟨again, hagain, hrule, hids⟩ := conflict_again h (List.mem_of_getElem? hconflict)
    obtain ⟨j, hj⟩ := List.getElem?_of_mem hagain
    have hflag' := getElem?_flags.mpr ⟨again, hj, rfl⟩
    exact ⟨again.flag (j + 1), List.mem_of_getElem? hflag',
      (congrArg Rule.detectedBy hrule).symm, hids⟩
  · intro i j flag flag' hi hj hsame
    rw [flag_id_iff hi hj]
    exact and_iff_right hsame.1

def stance (id : AssertionId) (subject : String) (unsupported : Bool) : Assertion where
  id := id
  assertionKey := assertionKey
    { system := "copilot", subjectType := .capability, subject, action := "runs", object := "alone" }
  taxonomyVersion := "ASI-TAXONOMY-1.1"
  systemId := "copilot"
  slots :=
    { system := "copilot", subjectType := .capability, subject, action := "runs",
      object := "alone" }
  statement := "Copilot runs " ++ subject ++ "."
  canonicalRendering := "copilot runs alone"
  state := if unsupported then .explicitlyUnsupported else .affirmed
  supportConfidence := .medium
  supportConfidenceRationale := "one official page"
  firstSeenAt := .midnight Python.sampleDay
  retrievedAt := .midnight Python.sampleDay
  lastSeenAt := .midnight Python.sampleDay
  firstObservedAt := .midnight Python.sampleDay
  lastVerifiedAt := .midnight Python.sampleDay
  methodologyVersion := "ASI-1.0"
  evidenceIds := [{ text := "EV-STANCE" }]
  accepted := by cases unsupported <;> simp [AssertionFields.enforceSemantics]

def huntingStances : List Assertion :=
  [stance { text := "ASRT-HUNTING" } "hunting" false,
    stance { text := "ASRT-NO-HUNTING" } "hunting" true]

def grownStances : List Assertion :=
  [stance { text := "ASRT-PATCHING" } "patching" false,
    stance { text := "ASRT-NO-PATCHING" } "patching" true] ++
    huntingStances

theorem huntingStances_subperm : huntingStances.Subperm grownStances :=
  (List.sublist_append_right _ _).subperm

/-- The conflict about hunting is the first of one run and the second of the other. -/
theorem hunting_conflict_renumbered :
    ∃ flag ∈ flagContradictions [] huntingStances, ∃ flag' ∈ flagContradictions [] grownStances,
      huntingStances.Subperm grownStances ∧ SameConflict flag flag' ∧ flag.id ≠ flag'.id := by
  refine ⟨(flagContradictions [] huntingStances).get ⟨0, by decide⟩, List.get_mem _ _,
    (flagContradictions [] grownStances).get ⟨1, by decide⟩, List.get_mem _ _,
    huntingStances_subperm, ?_, by decide⟩
  exact ⟨by decide, fun id ↦ Iff.rfl⟩

theorem conflict_id_same_iff_hunting :
    ∃ flag' ∈ flagContradictions [] grownStances,
      SameConflict ((flagContradictions [] huntingStances).get ⟨0, by decide⟩) flag' :=
  (conflict_id_same_iff huntingStances_subperm).1 _ (List.get_mem _ _)

end AgenticSecurity.Contradictions
