import AgenticSecurity.Library.Table
import Mathlib.Data.List.Induction

namespace AgenticSecurity.Library.History

variable {ρ κ γ : Type*}

/-- Each row names the key of the row before it; the first one names `p`. -/
def ChainFrom (key : ρ → κ) (prior : ρ → Option κ) : Option κ → List ρ → Prop
  | _, [] => True
  | p, r :: rs => prior r = p ∧ ChainFrom key prior (some (key r)) rs

/-- The rows of one group, oldest first. -/
def history [DecidableEq γ] (group : ρ → γ) (g : γ) (rows : List ρ) : List ρ :=
  rows.filter fun r ↦ group r = g

/-- The rows that no row names as its predecessor. -/
def latest [DecidableEq κ] (key : ρ → κ) (prior : ρ → Option κ) (rows : List ρ) : List ρ :=
  rows.filter fun r ↦ rows.all fun newer ↦ prior newer ≠ some (key r)

variable {key : ρ → κ} {prior : ρ → Option κ} {group : ρ → γ}

theorem chainFrom_append_singleton {p : Option κ} {rows : List ρ} {row : ρ} :
    ChainFrom key prior p (rows ++ [row]) ↔
      ChainFrom key prior p rows ∧ prior row = (rows.getLast?.map key).or p := by
  induction rows generalizing p with
  | nil => simp [ChainFrom]
  | cons r rs ih =>
    simp only [List.cons_append, ChainFrom, ih, and_assoc, List.getLast?_cons]
    cases rs.getLast? <;> simp

theorem ChainFrom.prior_head {p : Option κ} {r : ρ} {rs : List ρ}
    (h : ChainFrom key prior p (r :: rs)) : prior r = p := h.1

theorem ChainFrom.last_or_named {p : Option κ} {rows : List ρ} (h : ChainFrom key prior p rows)
    {r : ρ} (hr : r ∈ rows) :
    rows.getLast? = some r ∨ ∃ newer ∈ rows, prior newer = some (key r) := by
  induction rows generalizing p with
  | nil => exact absurd hr List.not_mem_nil
  | cons first rest ih =>
    rcases List.mem_cons.mp hr with rfl | hrest
    · cases rest with
      | nil => exact .inl rfl
      | cons second rest => exact .inr ⟨second, by simp, h.2.1⟩
    · rcases ih h.2 hrest with hlast | ⟨newer, hnewer, hp⟩
      · exact .inl (by rw [List.getLast?_cons, hlast, Option.getD_some])
      · exact .inr ⟨newer, List.mem_cons_of_mem first hnewer, hp⟩

theorem ChainFrom.prior_mem {p : Option κ} {rows : List ρ} (h : ChainFrom key prior p rows)
    {r : ρ} (hr : r ∈ rows) : prior r = p ∨ ∃ older ∈ rows, prior r = some (key older) := by
  induction rows generalizing p with
  | nil => exact absurd hr List.not_mem_nil
  | cons first rest ih =>
    rcases List.mem_cons.mp hr with rfl | hrest
    · exact .inl h.1
    · refine .inr ?_
      rcases ih h.2 hrest with hfirst | ⟨older, holder, hp⟩
      · exact ⟨first, List.mem_cons_self, hfirst⟩
      · exact ⟨older, List.mem_cons_of_mem first holder, hp⟩

theorem ChainFrom.unique_root {rows : List ρ} (h : ChainFrom key prior none rows)
    (hne : rows ≠ []) :
    ∃! r, r ∈ rows ∧ prior r = none := by
  cases rows with
  | nil => exact absurd rfl hne
  | cons first rest =>
    refine ⟨first, ⟨List.mem_cons_self, h.1⟩, ?_⟩
    rintro r ⟨hr, hnone⟩
    rcases List.mem_cons.mp hr with rfl | hrest
    · rfl
    · rcases h.2.prior_mem hrest with hp | ⟨older, -, hp⟩ <;> simp [hp] at hnone

theorem ChainFrom.eq_singleton {rows : List ρ} (h : ChainFrom key prior none rows) {r : ρ}
    (hlast : rows.getLast? = some r) (hnone : prior r = none) : rows = [r] := by
  obtain ⟨older, rfl⟩ := List.getLast?_eq_some_iff.mp hlast
  have hp := (chainFrom_append_singleton.mp h).2
  rw [hnone, Option.or_none, eq_comm, Option.map_eq_none_iff, List.getLast?_eq_none_iff] at hp
  rw [hp, List.nil_append]

theorem ChainFrom.latest_eq [DecidableEq κ] {rows : List ρ} (h : ChainFrom key prior none rows)
    (hkeys : (rows.map key).Nodup) : latest key prior rows = rows.getLast?.toList := by
  induction rows using List.reverseRecOn with
  | nil => rfl
  | append_singleton rows row ih =>
    obtain ⟨hrows, hrow⟩ := chainFrom_append_singleton.mp h
    rw [Option.or_none] at hrow
    rw [List.map_append, List.nodup_append] at hkeys
    have hfresh : ∀ r ∈ rows, key r ≠ key row := fun r hr ↦
      hkeys.2.2 (key r) (List.mem_map_of_mem hr) (key row) (by simp)
    have hold : latest key prior rows = rows.getLast?.toList := ih hrows hkeys.1
    have hsplit : ∀ r, ((rows ++ [row]).all fun newer ↦ prior newer ≠ some (key r)) =
        (decide (prior row ≠ some (key r)) && rows.all fun newer ↦ prior newer ≠ some (key r)) := by
      simp [Bool.and_comm]
    have hkeep : (latest key prior rows).filter (fun r ↦ prior row ≠ some (key r)) = [] := by
      rw [hold, hrow]
      cases rows.getLast? <;> simp
    have hself : ((rows ++ [row]).all fun newer ↦ prior newer ≠ some (key row)) = true := by
      rw [hsplit, Bool.and_eq_true, List.all_eq_true]
      refine ⟨decide_eq_true fun hp ↦ ?_, fun newer hnewer ↦ decide_eq_true fun hp ↦ ?_⟩
      · rw [hrow, Option.map_eq_some_iff] at hp
        obtain ⟨last, hlast, hk⟩ := hp
        exact hfresh last (List.mem_of_getLast? hlast) hk
      · rcases hrows.prior_mem hnewer with hnone | ⟨older, holder, hp'⟩
        · simp [hnone] at hp
        · exact hfresh older holder (Option.some.inj (hp'.symm.trans hp))
    have hrest :
        (rows.filter fun r ↦ (rows ++ [row]).all fun newer ↦ prior newer ≠ some (key r)) = [] := by
      simp only [hsplit]
      rw [← List.filter_filter]
      exact hkeep
    rw [List.getLast?_concat, latest, List.filter_append, hrest, List.filter_singleton, hself]
    rfl

/-- What an insertion must satisfy: a new key, one first row a group, and one
successor a row, in the group of that row. -/
structure Admits (key : ρ → κ) (prior : ρ → Option κ) (group : ρ → γ) (rows : List ρ) (row : ρ) :
    Prop where
  fresh : key row ∉ rows.map key
  root : prior row = none → ∀ r ∈ rows, group r = group row → prior r ≠ none
  linked : ∀ k, prior row = some k → ∃ older ∈ rows, key older = k ∧ group older = group row
  single : ∀ k, prior row = some k → ∀ r ∈ rows, prior r ≠ some k

structure Chains [DecidableEq γ] (key : ρ → κ) (prior : ρ → Option κ) (group : ρ → γ)
    (rows : List ρ) : Prop where
  keys : (rows.map key).Nodup
  linked : ∀ r ∈ rows, ∀ k, prior r = some k → ∃ older ∈ rows, key older = k ∧ group older = group r
  single : ∀ r ∈ rows, ∀ r' ∈ rows, ∀ k, prior r = some k → prior r' = some k → r = r'
  linear : ∀ g, ChainFrom key prior none (history group g rows)

variable [DecidableEq γ]

theorem mem_history {g : γ} {rows : List ρ} {r : ρ} :
    r ∈ history group g rows ↔ r ∈ rows ∧ group r = g := by simp [history]

theorem Chains.nil : Chains key prior group [] where
  keys := List.nodup_nil
  linked _ hr := absurd hr List.not_mem_nil
  single _ hr := absurd hr List.not_mem_nil
  linear _ := trivial

/-- An admitted row starts the chain of its group or goes to its end. -/
theorem Chains.linear_append {rows : List ρ} {row : ρ} (h : Chains key prior group rows)
    (ha : Admits key prior group rows row) :
    prior row = ((history group (group row) rows).getLast?.map key).or none := by
  rw [Option.or_none]
  cases hprior : prior row with
  | none =>
    cases hh : history group (group row) rows with
    | nil => rfl
    | cons first rest =>
      have hfirst :=
        mem_history.mp (hh ▸ List.mem_cons_self : first ∈ history group (group row) rows)
      have hnone : prior first = none := (hh ▸ h.linear (group row)).prior_head
      exact absurd hnone (ha.root hprior first hfirst.1 hfirst.2)
  | some k =>
    obtain ⟨older, holder, hk, hg⟩ := ha.linked k hprior
    rcases (h.linear (group row)).last_or_named (mem_history.mpr ⟨holder, hg⟩) with hlast | hnamed
    · rw [hlast, Option.map_some, hk]
    · obtain ⟨newer, hnewer, hp⟩ := hnamed
      exact absurd (hk ▸ hp) (ha.single k hprior newer (mem_history.mp hnewer).1)

theorem Chains.append {rows : List ρ} {row : ρ} (h : Chains key prior group rows)
    (ha : Admits key prior group rows row) : Chains key prior group (rows ++ [row]) where
  keys := Table.nodup_append_singleton h.keys ha.fresh
  linked r hr k hp := by
    rcases List.mem_append.mp hr with hr | hr
    · obtain ⟨older, holder, hold⟩ := h.linked r hr k hp
      exact ⟨older, List.mem_append_left _ holder, hold⟩
    · obtain rfl := List.mem_singleton.mp hr
      obtain ⟨older, holder, hold⟩ := ha.linked k hp
      exact ⟨older, List.mem_append_left _ holder, hold⟩
  single r hr r' hr' k hp hp' := by
    rw [List.mem_append, List.mem_singleton] at hr hr'
    rcases hr with hr | rfl <;> rcases hr' with hr' | rfl
    · exact h.single r hr r' hr' k hp hp'
    · exact absurd hp (ha.single k hp' r hr)
    · exact absurd hp' (ha.single k hp r' hr')
    · rfl
  linear g := by
    rw [history, List.filter_append]
    by_cases hg : group row = g
    · subst hg
      rw [List.filter_cons_of_pos (by simp), List.filter_nil]
      exact chainFrom_append_singleton.mpr ⟨h.linear (group row), h.linear_append ha⟩
    · rw [List.filter_cons_of_neg (by simpa using hg), List.filter_nil, List.append_nil]
      exact h.linear g

theorem Chains.history_latest [DecidableEq κ] {rows : List ρ} (h : Chains key prior group rows)
    (g : γ) : history group g (latest key prior rows) = (history group g rows).getLast?.toList := by
  have hkeys : ((history group g rows).map key).Nodup :=
    h.keys.sublist (List.filter_sublist.map key)
  rw [← (h.linear g).latest_eq hkeys]
  simp only [history, latest, List.filter_filter]
  refine List.filter_congr fun r hr ↦ ?_
  by_cases hg : group r = g
  · simp only [hg, decide_true, Bool.true_and, Bool.and_true]
    rw [Bool.eq_iff_iff, List.all_eq_true, List.all_eq_true]
    constructor
    · exact fun hall newer hnewer ↦ hall newer (List.mem_of_mem_filter hnewer)
    · intro hall newer hnewer
      refine decide_eq_true fun hp ↦ ?_
      obtain ⟨older, holder, hk, hgroup⟩ := h.linked newer hnewer (key r) hp
      have hr' : older = r := List.inj_on_of_nodup_map h.keys holder hr hk
      have hin : newer ∈ rows.filter fun r ↦ group r = g := by
        simpa using ⟨hnewer, hgroup ▸ hr' ▸ hg⟩
      exact of_decide_eq_true (hall newer hin) hp
  · simp [hg]

end AgenticSecurity.Library.History
