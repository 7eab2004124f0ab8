import Mathlib.Data.List.Lex
import Mathlib.Order.Lattice

namespace AgenticSecurity.Library.Paths

variable {α : Type*} {sep : α}

/-- The names of a path with a separator between them. -/
abbrev joined (sep : α) (path : List (List α)) : List α := [sep].intercalate path

@[simp] theorem joined_nil : joined sep [] = [] := rfl

@[simp] theorem joined_singleton (name : List α) : joined sep [name] = name := by simp [joined]

theorem joined_cons {rest : List (List α)} (name : List α) (h : rest ≠ []) :
    joined sep (name :: rest) = name ++ sep :: joined sep rest := by
  cases rest with
  | nil => exact absurd rfl h
  | cons next rest => simp [joined, List.intercalate]

theorem exists_joined_append_cons (sep : α) (name tail : List α) (after : List (List α)) :
    ∃ end', joined sep ((name ++ tail) :: after) = name ++ (tail ++ end') := by
  cases after with
  | nil => exact ⟨[], by simp⟩
  | cons next after => exact ⟨sep :: joined sep (next :: after), by simp⟩

theorem joined_injective [DecidableEq α] {p q : List (List α)} (hp : p ≠ []) (hq : q ≠ [])
    (hsp : ∀ name ∈ p, sep ∉ name) (hsq : ∀ name ∈ q, sep ∉ name)
    (h : joined sep p = joined sep q) :
    p = q := by
  rw [← List.splitOn_intercalate sep hsp hp, ← List.splitOn_intercalate sep hsq hq]
  exact congrArg (List.splitOn sep) h

section Order

variable [LT α]

theorem lt_cases {a b : List α} (h : a < b) :
    (∃ c rest, b = a ++ c :: rest) ∨
      ∃ front x y a' b', a = front ++ x :: a' ∧ b = front ++ y :: b' ∧ x < y := by
  induction h with
  | nil => exact .inl ⟨_, _, rfl⟩
  | rel hlt => exact .inr ⟨[], _, _, _, _, rfl, rfl, hlt⟩
  | @cons x _ _ _ ih =>
    obtain ⟨c, rest, rfl⟩ | ⟨front, y, z, a', b', rfl, rfl, hlt⟩ := ih
    · exact .inl ⟨c, rest, rfl⟩
    · exact .inr ⟨x :: front, y, z, a', b', rfl, rfl, hlt⟩

theorem append_lt_append {a b : List α} (front : List α) (h : a < b) : front ++ a < front ++ b := by
  induction front with
  | nil => exact h
  | cons x front ih => exact .cons ih

/-- The second path continues a name of the first one, below which the first one goes on,
with an element that sorts before the separator. -/
def Overtakes (sep : α) (p q : List (List α)) : Prop :=
  ∃ folder name c rest below after, p = folder ++ name :: below ∧ below ≠ [] ∧
    q = folder ++ (name ++ c :: rest) :: after ∧ c < sep

theorem Overtakes.cons {p q : List (List α)} (name : List α) (h : Overtakes sep p q) :
    Overtakes sep (name :: p) (name :: q) := by
  obtain ⟨folder, other, c, rest, below, after, rfl, hbelow, rfl, hc⟩ := h
  exact ⟨name :: folder, other, c, rest, below, after, rfl, hbelow, rfl, hc⟩

theorem Overtakes.lt {p q : List (List α)} (h : Overtakes sep p q) : p < q := by
  obtain ⟨folder, name, c, rest, below, after, rfl, -, rfl, -⟩ := h
  have hname : name < name ++ c :: rest := by
    simpa using append_lt_append name (List.Lex.nil (a := c) (l := rest))
  exact append_lt_append folder (.rel hname)

theorem Overtakes.joined_lt {p q : List (List α)} (h : Overtakes sep p q) :
    joined sep q < joined sep p := by
  obtain ⟨folder, name, c, rest, below, after, rfl, hbelow, rfl, hc⟩ := h
  induction folder with
  | nil =>
    obtain ⟨end', he⟩ := exists_joined_append_cons sep name (c :: rest) after
    rw [List.nil_append, List.nil_append, he, joined_cons name hbelow]
    exact append_lt_append name (.rel hc)
  | cons first folder ih =>
    rw [List.cons_append, List.cons_append, joined_cons first (by simp),
      joined_cons first (by simp)]
    exact append_lt_append first (.cons ih)

end Order

/-- Joined paths are in the order of their names, unless the later one overtakes. -/
theorem joined_lt_or_overtakes [LinearOrder α] {p q : List (List α)} (h : p < q) (hp : p ≠ [])
    (hsep : ∀ name ∈ q, sep ∉ name) : joined sep p < joined sep q ∨ Overtakes sep p q := by
  induction h with
  | nil => exact absurd rfl hp
  | @rel a p b q hlt =>
    have hb : sep ∉ b := hsep b List.mem_cons_self
    obtain ⟨c, rest, rfl⟩ | ⟨front, x, y, a', b', rfl, rfl, hxy⟩ := lt_cases hlt
    · obtain ⟨end', he⟩ := exists_joined_append_cons sep a (c :: rest) q
      by_cases hbelow : p = []
      · left
        subst hbelow
        rw [joined_singleton, he]
        simpa using append_lt_append a (List.Lex.nil (a := c) (l := rest ++ end'))
      · have hc : c ≠ sep := fun hc ↦ hb (by simp [hc])
        rcases lt_or_gt_of_ne hc with hlt | hgt
        · exact .inr ⟨[], a, c, rest, p, q, rfl, hbelow, rfl, hlt⟩
        · left
          rw [he, joined_cons a hbelow]
          exact append_lt_append a (.rel hgt)
    · left
      obtain ⟨end₁, h₁⟩ := exists_joined_append_cons sep front (x :: a') p
      obtain ⟨end₂, h₂⟩ := exists_joined_append_cons sep front (y :: b') q
      rw [h₁, h₂]
      exact append_lt_append front (.rel hxy)
  | @cons name p q hrest ih =>
    have hq : q ≠ [] := by
      rintro rfl
      cases hrest
    by_cases hbelow : p = []
    · left
      subst hbelow
      rw [joined_singleton, joined_cons name hq]
      simpa using append_lt_append name (List.Lex.nil (a := sep) (l := joined sep q))
    · refine (ih hbelow fun other hother ↦ hsep other (List.mem_cons_of_mem _ hother)).imp ?_ ?_
      · intro hlt
        rw [joined_cons name hbelow, joined_cons name hq]
        exact append_lt_append name (.cons hlt)
      · exact Overtakes.cons name

end AgenticSecurity.Library.Paths
