import Mathlib.Data.Set.Basic

namespace AgenticSecurity.Library

/-- What is taken out of a set and what is put in. -/
@[ext] structure Patch (α : Type*) where
  added : Set α
  removed : Set α

namespace Patch

variable {α : Type*}

/-- The patch that says exactly what differs. -/
def between (a b : Set α) : Patch α := ⟨b \ a, a \ b⟩

def apply (a : Set α) (p : Patch α) : Set α := (a \ p.removed) ∪ p.added

def inverse (p : Patch α) : Patch α := ⟨p.removed, p.added⟩

theorem mem_apply {a : Set α} {p : Patch α} {x : α} : x ∈ apply a p ↔ (x ∈ a ∧ x ∉ p.removed) ∨
    x ∈ p.added := Iff.rfl

theorem inverse_between (a b : Set α) : (between a b).inverse = between b a := rfl

theorem apply_between (a b : Set α) : apply a (between a b) = b := by
  ext x
  rw [mem_apply]
  change (x ∈ a ∧ ¬ (x ∈ a ∧ x ∉ b)) ∨ (x ∈ b ∧ x ∉ a) ↔ x ∈ b
  by_cases hb : x ∈ b
  · simp [hb, Classical.em]
  · simp [hb]

/-- The patches from each set to the next. -/
inductive Log : Set α → List (Patch α) → Set α → Prop
  | nil (a : Set α) : Log a [] a
  | cons {a b c : Set α} {ps : List (Patch α)} : Log b ps c → Log a (between a b :: ps) c

section Log

variable {a b c : Set α} {ps qs : List (Patch α)} {p q : Patch α} {x : α}

theorem Log.append (h : Log a ps b) (h' : Log b qs c) : Log a (ps ++ qs) c := by
  induction h with
  | nil => exact h'
  | cons _ ih => exact .cons (ih h')

theorem Log.of_append (h : Log a (ps ++ qs) c) : ∃ b, Log a ps b ∧ Log b qs c := by
  induction ps generalizing a with
  | nil => exact ⟨a, .nil a, h⟩
  | cons p ps ih =>
    cases h with
    | cons h =>
      obtain ⟨b, hfirst, hsecond⟩ := ih h
      exact ⟨b, .cons hfirst, hsecond⟩

theorem Log.replay (h : Log a ps b) : ps.foldl apply a = b := by
  induction h with
  | nil => rfl
  | @cons a b c ps h ih => rw [List.foldl_cons, apply_between, ih]

theorem Log.reverse (h : Log a ps b) : Log b (ps.map inverse).reverse a := by
  induction h with
  | nil => exact .nil _
  | @cons a b c ps h ih =>
    rw [List.map_cons, List.reverse_cons, inverse_between]
    exact ih.append (.cons (.nil a))

theorem Log.mem_of_not_removed (h : Log a ps b) (hx : x ∈ a) (hnot : ∀ p ∈ ps, x ∉ p.removed) :
    x ∈ b := by
  induction h with
  | nil => exact hx
  | @cons a b c ps h ih =>
    obtain ⟨hfirst, hrest⟩ := List.forall_mem_cons.mp hnot
    exact ih (Classical.not_not.mp fun hb ↦ hfirst ⟨hx, hb⟩) hrest

theorem Log.mem_of_added (h : Log a (p :: ps) b) (hx : x ∈ p.added)
    (hnot : ∀ q ∈ ps, x ∉ q.removed) : x ∈ b := by
  cases h with
  | cons h => exact h.mem_of_not_removed hx.1 hnot

theorem Log.mem_iff (h : Log a ps b) : x ∈ b ↔
    (∃ pre p post, ps = pre ++ p :: post ∧ x ∈ p.added ∧ ∀ q ∈ post, x ∉ q.removed) ∨
      (x ∈ a ∧ ∀ p ∈ ps, x ∉ p.removed) := by
  constructor
  · intro hx
    induction h with
    | nil => exact .inr ⟨hx, by simp⟩
    | @cons a b c ps h ih =>
      rcases ih hx with ⟨pre, p, post, rfl, hp, hpost⟩ | ⟨hb, hps⟩
      · exact .inl ⟨between a b :: pre, p, post, rfl, hp, hpost⟩
      · by_cases ha : x ∈ a
        · refine .inr ⟨ha, List.forall_mem_cons.mpr ⟨?_, hps⟩⟩
          intro hremoved
          exact hremoved.2 hb
        · exact .inl ⟨[], between a b, ps, rfl, ⟨hb, ha⟩, hps⟩
  · intro hx
    rcases hx with ⟨pre, p, post, rfl, hp, hpost⟩ | ⟨ha, hps⟩
    · obtain ⟨mid, -, hrest⟩ := h.of_append
      exact hrest.mem_of_added hp hpost
    · exact h.mem_of_not_removed ha hps

/-- Between two patches that put the same element in there is one that takes it out. -/
theorem Log.removed_between (h : Log a (p :: (ps ++ q :: qs)) b) (hp : x ∈ p.added)
    (hq : x ∈ q.added) :
    ∃ r ∈ ps, x ∈ r.removed := by
  by_contra hnone
  push Not at hnone
  cases h with
  | cons h =>
    obtain ⟨mid, hps, hrest⟩ := h.of_append
    have hmid : x ∈ mid := hps.mem_of_not_removed hp.1 hnone
    cases hrest with
    | cons => exact hq.2 hmid

theorem Log.added_between (h : Log a (p :: (ps ++ q :: qs)) b) (hp : x ∈ p.removed)
    (hq : x ∈ q.removed) :
    ∃ r ∈ ps, x ∈ r.added := by
  cases h with
  | cons h =>
    obtain ⟨mid, hps, hrest⟩ := h.of_append
    cases hrest with
    | cons =>
      rcases hps.mem_iff.mp hq.1 with ⟨pre, r, post, rfl, hr, -⟩ | ⟨hstart, -⟩
      · exact ⟨r, by simp, hr⟩
      · exact absurd hstart hp.2

end Log

end Patch

end AgenticSecurity.Library
