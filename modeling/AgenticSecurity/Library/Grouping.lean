import Mathlib.Data.List.Nodup
import Mathlib.Data.List.Perm.Basic

namespace AgenticSecurity.Library.Grouping

variable {α β γ κ : Type*} [DecidableEq κ]

theorem nodup_eraseDups {α : Type*} [BEq α] [LawfulBEq α] (items : List α) :
    items.eraseDups.Nodup := by
  induction hlength : items.length using Nat.strongRecOn generalizing items with
  | _ n ih =>
    cases items with
    | nil => exact List.nodup_nil
    | cons item items =>
      rw [List.eraseDups_cons, List.nodup_cons, List.mem_eraseDups]
      refine ⟨by simp, ih _ ?_ _ rfl⟩
      have hle := List.length_filter_le (fun other ↦ !other == item) items
      rw [← hlength, List.length_cons]
      omega

theorem groups_perm_filter (key : α → Option κ) {keys : List κ} (hkeys : keys.Nodup)
    (rows : List α) :
    (keys.flatMap fun k ↦ rows.filter fun r ↦ key r = some k).Perm
      (rows.filter fun r ↦ (key r).any fun k ↦ keys.contains k) := by
  induction keys with
  | nil =>
    have hnone : (rows.filter fun r ↦ (key r).any fun k ↦ ([] : List κ).contains k) = [] := by
      refine List.filter_eq_nil_iff.mpr fun r _ hr ↦ ?_
      cases hk : key r <;> simp [hk] at hr
    rw [hnone]
    exact .nil
  | cons k keys ih =>
    obtain ⟨hk, hkeys⟩ := List.nodup_cons.mp hkeys
    have hsplit := List.filter_append_perm (fun r ↦ key r = some k)
      (rows.filter fun r ↦ (key r).any fun k' ↦ (k :: keys).contains k')
    rw [List.filter_filter, List.filter_filter] at hsplit
    have hhead :
        (rows.filter fun r ↦ decide (key r = some k) && (key r).any fun k' ↦ (k ::
          keys).contains k') =
        rows.filter fun r ↦ key r = some k := by
      refine List.filter_congr fun r _ ↦ ?_
      by_cases hr : key r = some k
      · simp [hr]
      · simp [hr]
    have htail :
        (rows.filter fun r ↦ !decide (key r = some k) && (key r).any fun k' ↦ (k ::
          keys).contains k') =
        rows.filter fun r ↦ (key r).any fun k' ↦ keys.contains k' := by
      refine List.filter_congr fun r _ ↦ ?_
      cases hr : key r with
      | none => rfl
      | some k' =>
        by_cases heq : k' = k
        · simp [heq, hk]
        · simp [heq]
    rw [hhead, htail] at hsplit
    rw [List.flatMap_cons]
    exact ((ih hkeys).append_left _).trans hsplit

theorem groups_perm {owners : List β} {name : β → κ} (hnames : (owners.map name).Nodup)
    (key : α → Option κ) {rows : List α}
    (hrows : ∀ r ∈ rows, ∃ owner ∈ owners, key r = some (name owner)) (view : α → γ) :
    (owners.flatMap fun owner ↦ (rows.filter fun r ↦ key r = some (name owner)).map view).Perm
      (rows.map view) := by
  have hgroups := groups_perm_filter key hnames rows
  rw [List.flatMap_map] at hgroups
  have hall : (rows.filter fun r ↦ (key r).any fun k ↦ (owners.map name).contains k) = rows := by
    refine List.filter_eq_self.mpr fun r hr ↦ ?_
    obtain ⟨owner, howner, hk⟩ := hrows r hr
    rw [hk, Option.any_some, List.contains_iff_mem]
    exact List.mem_map_of_mem howner
  rw [hall] at hgroups
  rw [← List.map_flatMap]
  exact hgroups.map view

end AgenticSecurity.Library.Grouping
