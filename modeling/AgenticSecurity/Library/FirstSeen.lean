import AgenticSecurity.Library.Table
import Mathlib.Data.List.Induction

namespace AgenticSecurity.Library.FirstSeen

variable {α κ κ' : Type*} [DecidableEq κ] [DecidableEq κ']

/-- Append the element, unless one with its key is there. -/
def addNew (key : α → κ) (seen : List α) (x : α) : List α :=
  if key x ∈ seen.map key then seen else seen ++ [x]

/-- The first element of each key, in order. -/
def firstSeen (key : α → κ) (xs : List α) : List α := xs.foldl (addNew key) []

@[simp] theorem firstSeen_nil (key : α → κ) : firstSeen key [] = [] := rfl

theorem firstSeen_snoc (key : α → κ) (xs : List α) (x : α) :
    firstSeen key (xs ++ [x]) = addNew key (firstSeen key xs) x := by
  rw [firstSeen, List.foldl_append]
  rfl

variable {key : α → κ} {key' : α → κ'}

theorem mem_keys_addNew {seen : List α} {x : α} {k : κ} :
    k ∈ (addNew key seen x).map key ↔ k ∈ seen.map key ∨ k = key x := by
  unfold addNew
  split_ifs with h
  · exact ⟨.inl, fun hk ↦ hk.elim id fun he ↦ he ▸ h⟩
  · rw [List.map_append, List.mem_append, List.map_singleton, List.mem_singleton]

theorem mem_keys_firstSeen {xs : List α} {k : κ} :
    k ∈ (firstSeen key xs).map key ↔ k ∈ xs.map key := by
  induction xs using List.reverseRecOn with
  | nil => rfl
  | append_singleton xs x ih =>
    rw [firstSeen_snoc, mem_keys_addNew, ih, List.map_append, List.mem_append, List.map_singleton,
      List.mem_singleton]

theorem firstSeen_sublist (key : α → κ) (xs : List α) : (firstSeen key xs).Sublist xs := by
  induction xs using List.reverseRecOn with
  | nil => exact .slnil
  | append_singleton xs x ih =>
    rw [firstSeen_snoc, addNew]
    split_ifs
    · exact ih.trans (List.sublist_append_left xs [x])
    · exact ih.append (.refl [x])

theorem firstSeen_congr {xs : List α} (h : ∀ x ∈ xs, ∀ y ∈ xs, key x = key y ↔ key' x = key' y) :
    firstSeen key xs = firstSeen key' xs := by
  induction xs using List.reverseRecOn with
  | nil => rfl
  | append_singleton xs x ih =>
    have hold : firstSeen key xs = firstSeen key' xs := ih fun y hy z hz ↦
      h y (List.mem_append_left _ hy) z (List.mem_append_left _ hz)
    have hseen : key x ∈ (firstSeen key xs).map key ↔ key' x ∈ (firstSeen key' xs).map key' := by
      rw [mem_keys_firstSeen, mem_keys_firstSeen]
      simp only [List.mem_map]
      refine exists_congr fun y ↦ and_congr_right fun hy ↦ ?_
      exact h y (List.mem_append_left _ hy) x (by simp)
    rw [firstSeen_snoc, firstSeen_snoc, addNew, addNew, ← hold]
    rw [← hold] at hseen
    simp only [hseen]

theorem firstSeen_append (key : α → κ) (xs ys : List α) :
    ∃ more, firstSeen key (xs ++ ys) = firstSeen key xs ++ more ∧
      ∀ y ∈ more, key y ∉ xs.map key := by
  induction ys using List.reverseRecOn with
  | nil =>
    exact ⟨[], by rw [List.append_nil, List.append_nil], fun y hy ↦ absurd hy List.not_mem_nil⟩
  | append_singleton ys y ih =>
    obtain ⟨more, hmore, hnew⟩ := ih
    rw [← List.append_assoc, firstSeen_snoc, addNew]
    split_ifs with hy
    · exact ⟨more, hmore, hnew⟩
    · refine ⟨more ++ [y], by rw [hmore, List.append_assoc], fun z hz ↦ ?_⟩
      rcases List.mem_append.mp hz with hz | hz
      · exact hnew z hz
      · rw [mem_keys_firstSeen, List.map_append, List.mem_append, not_or] at hy
        exact List.mem_singleton.mp hz ▸ hy.1

theorem mem_firstSeen_iff {before after : List α} {x : α} (hx : x ∉ before) :
    x ∈ firstSeen key (before ++ x :: after) ↔ key x ∉ before.map key := by
  obtain ⟨more, hmore, hnew⟩ := firstSeen_append key (before ++ [x]) after
  have hx' : x ∉ more := fun h ↦ hnew x h (by simp)
  rw [List.append_cons, hmore, List.mem_append, or_iff_left hx', firstSeen_snoc, addNew]
  split_ifs with hk <;> rw [mem_keys_firstSeen] at hk
  · exact iff_of_false (fun h ↦ hx ((firstSeen_sublist key before).mem h)) (not_not.mpr hk)
  · exact iff_of_true (by simp) hk

theorem filter_foldl_addNew {γ : Type*} [DecidableEq γ] {group : α → γ} (g : γ) (xs seen : List α) :
    (xs.foldl (addNew fun x ↦ (group x, key x)) seen).filter (fun x ↦ group x = g) =
      (xs.filter fun x ↦ group x = g).foldl (addNew key) (seen.filter fun x ↦ group x = g) := by
  induction xs generalizing seen with
  | nil => rfl
  | cons x xs ih =>
    rw [List.foldl_cons, ih]
    by_cases hx : group x = g
    · rw [List.filter_cons_of_pos (by simpa using hx), List.foldl_cons]
      congr 1
      have hseen : (group x, key x) ∈ seen.map (fun y ↦ (group y, key y)) ↔
          key x ∈ (seen.filter fun y ↦ group y = g).map key := by
        simp only [List.mem_map, List.mem_filter, decide_eq_true_eq, Prod.mk.injEq, hx, and_assoc]
      unfold addNew
      by_cases hk : key x ∈ (seen.filter fun y ↦ group y = g).map key
      · rw [if_pos hk, if_pos (hseen.mpr hk)]
      · rw [if_neg hk, if_neg (mt hseen.mp hk), List.filter_append,
          List.filter_cons_of_pos (by simpa using hx), List.filter_nil]
    · rw [List.filter_cons_of_neg (by simpa using hx)]
      congr 1
      unfold addNew
      split_ifs
      · rfl
      · rw [List.filter_append, List.filter_cons_of_neg (by simpa using hx), List.filter_nil,
          List.append_nil]

end AgenticSecurity.Library.FirstSeen
