import AgenticSecurity.Library.Related
import Mathlib.Data.List.Basic

namespace AgenticSecurity.Python

open Library

variable {κ ν : Type*} [DecidableEq κ]

def dictSet (items : List (κ × ν)) (key : κ) (value : ν) : List (κ × ν) :=
  if key ∈ items.map Prod.fst then items.map fun item ↦ if item.1 = key then (key, value) else item
  else items ++ [(key, value)]

def dictOf (items : List (κ × ν)) : List (κ × ν) :=
  items.foldl (fun acc item ↦ dictSet acc item.1 item.2) []

theorem mem_dictSet {items : List (κ × ν)} {key : κ} {value : ν} {item : κ × ν}
    (h : item ∈ dictSet items key value) : item ∈ items ∨ item = (key, value) := by
  unfold dictSet at h
  split_ifs at h
  · obtain ⟨old, hold, rfl⟩ := List.mem_map.mp h
    split_ifs
    · exact .inr rfl
    · exact .inl hold
  · exact (List.mem_append.mp h).imp_right List.mem_singleton.mp

theorem mem_dictOf {items : List (κ × ν)} {item : κ × ν} (h : item ∈ dictOf items) :
    item ∈ items := by
  have hfold :
      ∀ {acc : List (κ × ν)}, item ∈ items.foldl (fun acc item ↦ dictSet acc item.1 item.2) acc →
      item ∈ acc ∨ item ∈ items := by
    clear h
    induction items with
    | nil => exact fun hacc ↦ .inl hacc
    | cons first items ih =>
      intro acc hacc
      rcases ih hacc with hset | hrest
      · refine (mem_dictSet hset).imp_right ?_
        rintro rfl
        exact List.mem_cons_self
      · exact .inr (List.mem_cons_of_mem _ hrest)
  exact (hfold h).resolve_left List.not_mem_nil

theorem mem_dictSet_self {items : List (κ × ν)} {key : κ} {value : ν} :
    (key, value) ∈ dictSet items key value := by
  unfold dictSet
  split_ifs with hkey
  · obtain ⟨item, hitem, rfl⟩ := List.mem_map.mp hkey
    exact List.mem_map.mpr ⟨item, hitem, if_pos rfl⟩
  · exact List.mem_append_right _ (List.mem_singleton_self _)

theorem mem_dictSet_of_ne {items : List (κ × ν)} {key : κ} {value : ν} {item : κ × ν}
    (hitem : item ∈ items) (hkey : item.1 ≠ key) : item ∈ dictSet items key value := by
  unfold dictSet
  split_ifs
  · exact List.mem_map.mpr ⟨item, hitem, if_neg hkey⟩
  · exact List.mem_append_left _ hitem

theorem mem_dictOf_of_last {front back : List (κ × ν)} {item : κ × ν}
    (h : item.1 ∉ back.map Prod.fst) :
    item ∈ dictOf (front ++ item :: back) := by
  have hfold : ∀ {acc : List (κ × ν)}, item ∈ acc →
      item ∈ back.foldl (fun acc item ↦ dictSet acc item.1 item.2) acc := by
    induction back with
    | nil => exact fun hacc ↦ hacc
    | cons first back ih =>
      rw [List.map_cons, List.mem_cons, not_or] at h
      exact fun hacc ↦ ih h.2 (mem_dictSet_of_ne hacc h.1)
  rw [dictOf, List.foldl_append, List.foldl_cons]
  exact hfold mem_dictSet_self

theorem lookup_map_set (items : List (κ × ν)) (key : κ) (value : ν) (key' : κ) :
    (items.map fun item ↦ if item.1 = key then (key, value) else item).lookup key' =
      if key' = key then (items.lookup key).map fun _ ↦ value else items.lookup key' := by
  induction items with
  | nil => split_ifs <;> rfl
  | cons item items ih =>
    obtain ⟨k, v⟩ := item
    by_cases hk : k = key <;> by_cases hk' : key' = key
    · subst hk hk'
      simp
    · have hne : (key' == key) = false := beq_false_of_ne hk'
      simp [List.lookup_cons, ih, hk, hk', hne]
    · subst hk'
      have hne : (key' == k) = false := beq_false_of_ne (Ne.symm hk)
      simp [List.lookup_cons, ih, hk, hne]
    · simp [List.lookup_cons, ih, hk, hk']

theorem lookup_dictSet (items : List (κ × ν)) (key : κ) (value : ν) (key' : κ) :
    (dictSet items key value).lookup key' = if key' = key then some value
      else items.lookup key' := by
  unfold dictSet
  split_ifs with hmem hkey hkey
  · have hsome : (items.lookup key).isSome := by
      rw [List.lookup_isSome_iff]
      obtain ⟨item, hitem, rfl⟩ := List.mem_map.mp hmem
      exact ⟨item, hitem, beq_self_eq_true _⟩
    obtain ⟨old, hold⟩ := Option.isSome_iff_exists.mp hsome
    rw [lookup_map_set, if_pos hkey, hold]
    rfl
  · rw [lookup_map_set, if_neg hkey]
  · have hnone : items.lookup key = none :=
      List.lookup_eq_none_iff.mpr fun item hitem ↦
        bne_iff_ne.mpr fun h ↦ hmem (h ▸ List.mem_map_of_mem hitem)
    rw [hkey, List.lookup_append, hnone]
    simp
  · simp [List.lookup_append, List.lookup_cons, beq_false_of_ne hkey]

theorem lookup_dictOf (items : List (κ × ν)) (key : κ) :
    (dictOf items).lookup key = items.reverse.lookup key := by
  induction items using List.reverseRecOn with
  | nil => rfl
  | append_singleton items item ih =>
    obtain ⟨k, v⟩ := item
    have hset : dictOf (items ++ [(k, v)]) = dictSet (dictOf items) k v := by
      rw [dictOf, List.foldl_append]
      rfl
    rw [hset, lookup_dictSet, ih, List.reverse_append, List.reverse_singleton,
      List.singleton_append, List.lookup_cons]
    by_cases hkey : key = k
    · simp [hkey]
    · simp [hkey, beq_false_of_ne hkey]

theorem mem_of_lookup {α β : Type*} [BEq α] [LawfulBEq α] {items : List (α × β)}
    {key : α} {value : β} (h : items.lookup key = some value) : (key, value) ∈ items := by
  obtain ⟨front, back, rfl, -⟩ := List.lookup_eq_some_iff.mp h
  exact List.mem_append_right _ List.mem_cons_self

def RelatedItems {α β : Type*} (R : α → β → Prop) : List (κ × α) → List (κ × β) → Prop :=
  List.Forall₂ fun x y ↦ x.1 = y.1 ∧ R x.2 y.2

variable {α β : Type*} {R : α → β → Prop} {items : List (κ × α)} {items' : List (κ × β)}

theorem dictSet_related {key : κ} {a : α} {b : β} (h : RelatedItems R items items') (hab : R a b) :
    RelatedItems R (dictSet items key a) (dictSet items' key b) := by
  unfold dictSet
  rw [Related.map_eq h fun _ _ hxy ↦ hxy.1]
  split_ifs
  · refine List.forall₂_map_left_iff.mpr (List.forall₂_map_right_iff.mpr (h.imp fun x y hxy ↦ ?_))
    rw [hxy.1]
    split_ifs
    · exact ⟨rfl, hab⟩
    · exact hxy
  · exact List.rel_append h (.cons ⟨rfl, hab⟩ .nil)

theorem dictOf_related (h : RelatedItems R items items') :
    RelatedItems R (dictOf items) (dictOf items') := by
  have hfold : ∀ {acc : List (κ × α)} {acc' : List (κ × β)}, RelatedItems R acc acc' →
      RelatedItems R (items.foldl (fun acc item ↦ dictSet acc item.1 item.2) acc)
        (items'.foldl (fun acc item ↦ dictSet acc item.1 item.2) acc') := by
    induction h with
    | nil => exact fun hacc ↦ hacc
    | cons hxy _ ih =>
      intro acc acc' hacc
      rw [List.foldl_cons, List.foldl_cons, hxy.1]
      exact ih (dictSet_related hacc hxy.2)
  exact hfold .nil

theorem lookup_related (h : RelatedItems R items items') (key : κ) :
    Option.Rel R (items.lookup key) (items'.lookup key) := by
  induction h with
  | nil => exact .none
  | @cons x y _ _ hxy _ ih =>
    obtain ⟨k, a⟩ := x
    obtain ⟨k', b⟩ := y
    obtain ⟨rfl, hab⟩ := hxy
    rw [List.lookup_cons, List.lookup_cons]
    cases key == k
    · exact ih
    · exact .some hab

end AgenticSecurity.Python
