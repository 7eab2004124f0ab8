import AgenticSecurity.Library.EventLog
import AgenticSecurity.Library.Table
import Mathlib.Data.List.Induction
import Mathlib.Logic.Relation

namespace AgenticSecurity.Library.Origins

open Relation

variable {ρ κ : Type*} {key : ρ → κ} {origin : ρ → Option κ}

/-- A row that names an origin names a row before it. -/
def Ordered (key : ρ → κ) (origin : ρ → Option κ) (rows : List ρ) : Prop :=
  EventLog.Admissible (fun before row ↦ ∀ k, origin row = some k → k ∈ before.map key) rows

/-- The first row names the second one. -/
def Names (key : ρ → κ) (origin : ρ → Option κ) (rows : List ρ) (row row' : ρ) : Prop :=
  row' ∈ rows ∧ origin row = some (key row')

/-- The row that the names lead to in the end. -/
def HasRoot (key : ρ → κ) (origin : ρ → Option κ) (rows : List ρ) (row root : ρ) : Prop :=
  ReflTransGen (Names key origin rows) row root ∧ origin root = none

theorem HasRoot.mono {rows rows' : List ρ} (h : rows ⊆ rows') {row root : ρ}
    (hroot : HasRoot key origin rows row root) : HasRoot key origin rows' row root :=
  ⟨hroot.1.lift id fun _ _ hnames ↦ ⟨h hnames.1, hnames.2⟩, hroot.2⟩

theorem exists_root {rows : List ρ} (h : Ordered key origin rows) {row : ρ} (hrow : row ∈ rows) :
    ∃ root, HasRoot key origin rows row root := by
  induction rows using List.reverseRecOn generalizing row with
  | nil => exact absurd hrow List.not_mem_nil
  | append_singleton rows last ih =>
    have hsub : rows ⊆ rows ++ [last] := List.subset_append_left rows [last]
    have hold : ∀ {r}, r ∈ rows → ∃ root, HasRoot key origin (rows ++ [last]) r root := fun hr ↦
      (ih (h.mono (List.prefix_append rows [last])) hr).imp fun _ ↦ HasRoot.mono hsub
    rcases List.mem_append.mp hrow with hearlier | hlast
    · exact hold hearlier
    · obtain rfl := List.mem_singleton.mp hlast
      cases horigin : origin row with
      | none => exact ⟨row, .refl, horigin⟩
      | some k =>
        obtain ⟨older, holder, rfl⟩ := List.mem_map.mp (h rows row List.prefix_rfl k horigin)
        obtain ⟨root, hchain, hroot⟩ := hold holder
        exact ⟨root, .head ⟨hsub holder, horigin⟩ hchain, hroot⟩

theorem HasRoot.unique {rows : List ρ} (hkeys : (rows.map key).Nodup) {row root root' : ρ}
    (h : HasRoot key origin rows row root) (h' : HasRoot key origin rows row root') :
    root = root' := by
  obtain ⟨hchain, hroot⟩ := h
  induction hchain using ReflTransGen.head_induction_on with
  | refl =>
    rcases h'.1.cases_head with hsame | ⟨next, hnames, -⟩
    · exact hsame
    · cases hroot.symm.trans hnames.2
  | head hnames _ ih =>
    rcases h'.1.cases_head with rfl | ⟨next, hnames', hrest⟩
    · cases h'.2.symm.trans hnames.2
    · have hkey := Option.some.inj (hnames.2.symm.trans hnames'.2)
      obtain rfl := Table.eq_of_key hkeys hnames.1 hnames'.1 hkey
      exact ih ⟨hrest, h'.2⟩

/-- Where names lead back in the table, every row has one root. -/
theorem existsUnique_root {rows : List ρ} (hkeys : (rows.map key).Nodup)
    (h : Ordered key origin rows) {row : ρ} (hrow : row ∈ rows) :
    ∃! root, HasRoot key origin rows row root := by
  obtain ⟨root, hroot⟩ := exists_root h hrow
  exact ⟨root, hroot, fun _ hother ↦ hother.unique hkeys hroot⟩

theorem root_of_closed {rows : List ρ} (h : Ordered key origin rows) {items : Set ρ}
    (hrows : ∀ r ∈ items, r ∈ rows)
    (hclosed : ∀ r ∈ items, ∀ r', Names key origin rows r r' → r' ∈ items)
    {row : ρ} (hrow : row ∈ items) : ∃ root ∈ items, origin root = none := by
  obtain ⟨root, hchain, hroot⟩ := exists_root h (hrows row hrow)
  refine ⟨root, ?_, hroot⟩
  clear hroot
  induction hchain with
  | refl => exact hrow
  | tail _ hnames ih => exact hclosed _ ih _ hnames

theorem not_hasRoot_of_self {rows : List ρ} (hkeys : (rows.map key).Nodup) {row root : ρ}
    (hrow : row ∈ rows) (hself : origin row = some (key row)) :
    ¬ HasRoot key origin rows row root := by
  rintro ⟨hchain, hroot⟩
  have hsame : root = row := by
    clear hroot
    induction hchain with
    | refl => rfl
    | tail _ hnames ih =>
      subst ih
      exact (Table.eq_of_key hkeys hrow hnames.1 (Option.some.inj (hself.symm.trans hnames.2))).symm
  rw [hsame, hself] at hroot
  cases hroot

end AgenticSecurity.Library.Origins
