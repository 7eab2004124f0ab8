import Mathlib.Data.List.Nodup

namespace AgenticSecurity.Library.Table

variable {ρ κ : Type*}

/-- Insert at the next rowid, unless the key is already taken. -/
def insert [DecidableEq κ] (key : ρ → κ) (rows : List ρ) (row : ρ) : Option (List ρ) :=
  if key row ∈ rows.map key then none else some (rows ++ [row])

/-- `UPDATE ... SET f WHERE p`. -/
def updateWhere (p : ρ → Bool) (f : ρ → ρ) (rows : List ρ) : List ρ :=
  rows.map fun r ↦ if p r then f r else r

variable {key : ρ → κ}

theorem insert_eq_some [DecidableEq κ] {rows rows' : List ρ} {row : ρ} :
    insert key rows row = some rows' ↔ key row ∉ rows.map key ∧ rows' = rows ++ [row] := by
  unfold insert
  split_ifs with h
  · simp [h]
  · simp [h, eq_comm]

theorem nodup_append_singleton {rows : List ρ} {row : ρ} (h : (rows.map key).Nodup)
    (hrow : key row ∉ rows.map key) : ((rows ++ [row]).map key).Nodup := by
  rw [List.map_append, List.nodup_append]
  refine ⟨h, List.nodup_singleton _, ?_⟩
  intro a ha b hb hab
  rw [List.map_singleton, List.mem_singleton] at hb
  exact hrow (hb ▸ hab ▸ ha)

theorem eq_of_key {rows : List ρ} (h : (rows.map key).Nodup) {r r' : ρ} (hr : r ∈ rows)
    (hr' : r' ∈ rows) (hk : key r = key r') : r = r' := List.inj_on_of_nodup_map h hr hr' hk

theorem find_key [DecidableEq κ] {rows : List ρ} (h : (rows.map key).Nodup) {r : ρ}
    (hr : r ∈ rows) :
    rows.find? (fun r' ↦ key r' = key r) = some r := by
  cases hf : rows.find? (fun r' ↦ key r' = key r) with
  | none => exact absurd (List.find?_eq_none.mp hf r hr) (by simp)
  | some r' =>
    have hk : key r' = key r := by simpa using List.find?_some hf
    rw [eq_of_key h (List.mem_of_find?_eq_some hf) hr hk]

theorem length_filter_key [DecidableEq κ] {rows : List ρ} (h : (rows.map key).Nodup) {r : ρ}
    (hr : r ∈ rows) : (rows.filter fun r' ↦ key r' = key r).length = 1 := by
  have hone : (rows.map key).count (key r) = 1 :=
    List.count_eq_one_of_mem h (List.mem_map_of_mem hr)
  rw [List.count, List.countP_map, List.countP_eq_length_filter] at hone
  simpa only [Function.comp_def, beq_eq_decide] using hone

theorem updateWhere_keys {p : ρ → Bool} {f : ρ → ρ} (hf : ∀ r, key (f r) = key r)
    (rows : List ρ) : (updateWhere p f rows).map key = rows.map key := by
  rw [updateWhere, List.map_map]
  refine List.map_congr_left fun r _ ↦ ?_
  simp only [Function.comp_apply]
  split_ifs <;> simp only [hf]

theorem replaceKey_keys [DecidableEq κ] {row : ρ} {k : κ} (hrow : key row = k) (rows : List ρ) :
    (updateWhere (fun r ↦ key r = k) (fun _ ↦ row) rows).map key = rows.map key := by
  rw [updateWhere, List.map_map]
  refine List.map_congr_left fun r _ ↦ ?_
  by_cases hr : key r = k
  · simp [hr, hrow]
  · simp [hr]

theorem mem_updateWhere {p : ρ → Bool} {f : ρ → ρ} {rows : List ρ} {r : ρ} :
    r ∈ updateWhere p f rows ↔ ∃ r' ∈ rows, (if p r' then f r' else r') = r := by
  simp only [updateWhere, List.mem_map]

theorem find_replaceKey [DecidableEq κ] {row : ρ} {k : κ} (hrow : key row = k)
    (rows : List ρ) (k' : κ) :
    (updateWhere (fun r ↦ key r = k) (fun _ ↦ row) rows).find? (fun r ↦ key r = k') =
      if k' = k then (rows.find? fun r ↦ key r = k).map fun _ ↦ row
      else rows.find? fun r ↦ key r = k' := by
  induction rows with
  | nil => simp [updateWhere]
  | cons r rows ih =>
    have ih' := ih
    rw [updateWhere] at ih'
    rw [updateWhere, List.map_cons, List.find?_cons, List.find?_cons, List.find?_cons, ih']
    by_cases hr : key r = k <;> by_cases hk : k' = k
    · simp [hr, hk, hrow]
    · simp [hr, hk, hrow, Ne.symm hk]
    · simp [hr, hk]
    · simp [hr, hk]

theorem foldl_update [DecidableEq κ] (f : ρ → ρ → ρ) (hf : ∀ t r, key (f t r) = key r)
    {todo : List ρ} (h : (todo.map key).Nodup) (rows : List ρ) :
    todo.foldl (fun acc t ↦ updateWhere (fun r ↦ key r = key t) (f t) acc) rows =
      rows.map fun r ↦ ((todo.find? fun t ↦ key t = key r).map fun t ↦ f t r).getD r := by
  induction todo generalizing rows with
  | nil => simp
  | cons t todo ih =>
    rw [List.map_cons, List.nodup_cons] at h
    rw [List.foldl_cons, ih h.2, updateWhere, List.map_map]
    refine List.map_congr_left fun r _ ↦ ?_
    simp only [Function.comp_apply, List.find?_cons]
    by_cases hk : key r = key t
    · have hnone : todo.find? (fun t' ↦ key t' = key t) = none := by
        refine List.find?_eq_none.mpr fun t' ht' he ↦ h.1 ?_
        exact of_decide_eq_true he ▸ List.mem_map_of_mem ht'
      simp only [hk, decide_true, if_true, hf, hnone, Option.map_none, Option.getD_none,
        Option.map_some, Option.getD_some]
    · simp only [hk, Ne.symm hk, decide_false, Bool.false_eq_true, if_false]

end AgenticSecurity.Library.Table
