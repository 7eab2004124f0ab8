import AgenticSecurity.Library.Runs
import Mathlib.Data.List.Sort

namespace AgenticSecurity.Library

namespace Fifo

variable {α : Type*}

/-- What happens at the two ends of a queue. -/
inductive Event (α : Type*)
  | arrive (x : α)
  | serve (x : α)
  deriving DecidableEq, Repr

/-- Only the element at the head is served. -/
def step [DecidableEq α] : List α → Event α → Option (List α)
  | queue, .arrive x => some (queue ++ [x])
  | [], .serve _ => none
  | y :: queue, .serve x => if x = y then some queue else none

def arrivals (events : List (Event α)) : List α :=
  events.filterMap fun | .arrive x => some x | .serve _ => none

def services (events : List (Event α)) : List α :=
  events.filterMap fun | .arrive _ => none | .serve x => some x

theorem exec_arrive [DecidableEq α] (queue xs : List α) :
    Runs.exec step queue (xs.map .arrive) = some (queue ++ xs) := by
  induction xs generalizing queue with
  | nil => simp
  | cons x xs ih =>
    rw [List.map_cons, Runs.exec_cons]
    exact ⟨queue ++ [x], rfl, by rw [ih, List.append_assoc, List.singleton_append]⟩

theorem exec_serve [DecidableEq α] (x : α) (queue : List α) :
    Runs.exec step (x :: queue) [.serve x] = some queue := by
  rw [Runs.exec_cons]
  exact ⟨queue, if_pos rfl, rfl⟩

/-- First in, first out: what was there and what arrived, in this order, is what was
served and what is still there, in this order. -/
theorem arrivals_eq_services [DecidableEq α] {queue queue' : List α} {events : List (Event α)}
    (h : Runs.exec step queue events = some queue') :
    queue ++ arrivals events = services events ++ queue' := by
  induction events generalizing queue with
  | nil =>
    obtain rfl := Option.some.inj h
    exact List.append_nil queue
  | cons event events ih =>
    obtain ⟨next, hstep, hrest⟩ := Runs.exec_cons.mp h
    have hnext := ih hrest
    cases event with
    | arrive x =>
      obtain rfl := Option.some.inj hstep
      rw [List.append_assoc] at hnext
      exact hnext
    | serve x =>
      cases queue with
      | nil => cases hstep
      | cons y queue =>
        simp only [step] at hstep
        split_ifs at hstep with hxy
        obtain rfl := Option.some.inj hstep
        subst hxy
        exact congrArg (x :: ·) hnext

end Fifo

theorem insertionSort_eq {α : Type*} {r : α → α → Prop} [DecidableRel r] [Std.Total r] [IsTrans α r]
    {l sorted : List α} (hperm : sorted.Perm l) (hsorted : sorted.Pairwise r)
    (hanti : ∀ a ∈ l, ∀ b ∈ l, r a b → r b a → a = b) : l.insertionSort r = sorted := by
  refine ((List.perm_insertionSort r l).trans hperm.symm).eq_of_pairwise (fun a b ha hb ↦ ?_)
    (List.pairwise_insertionSort r l) hsorted
  exact hanti a ((List.mem_insertionSort r).mp ha) b (hperm.subset hb)

theorem filter_insertionSort {α : Type*} {r : α → α → Prop} [DecidableRel r] [Std.Total r]
    [IsTrans α r] {l : List α} (hanti : ∀ a ∈ l, ∀ b ∈ l, r a b → r b a → a = b) (p : α → Bool) :
    (l.insertionSort r).filter p = (l.filter p).insertionSort r := by
  refine (insertionSort_eq ((List.perm_insertionSort r l).filter p) ?_ ?_).symm
  · exact (List.pairwise_insertionSort r l).filter p
  · exact fun a ha b hb ↦ hanti a (List.mem_of_mem_filter ha) b (List.mem_of_mem_filter hb)

theorem filter_map_same {α : Type*} {p : α → Bool} {f : α → α} {l : List α}
    (hkeep : ∀ a ∈ l, p a = true → f a = a) (hout : ∀ a ∈ l, p a = false → p (f a) = false) :
    (l.map f).filter p = l.filter p := by
  induction l with
  | nil => rfl
  | cons a l ih =>
    have ih' :=
      ih (fun b hb ↦ hkeep b (List.mem_cons_of_mem a hb))
      fun b hb ↦ hout b (List.mem_cons_of_mem a hb)
    rw [List.map_cons]
    cases hp : p a with
    | true =>
      rw [hkeep a List.mem_cons_self hp, List.filter_cons_of_pos hp,
        List.filter_cons_of_pos hp, ih']
    | false =>
      have hpf := hout a List.mem_cons_self hp
      rw [List.filter_cons_of_neg (by simp [hpf]), List.filter_cons_of_neg (by simp [hp]), ih']

theorem filter_map_perm {α : Type*} {p q : α → Bool} {f : α → α} (hkeep : ∀ a, p a = true → f a = a)
    (hdisj : ∀ a, p a = true → q a = false) {l : List α}
    (hmove : ∀ a ∈ l, p a = false → p (f a) = q a) :
    ((l.map f).filter p).Perm (l.filter p ++ (l.filter q).map f) := by
  induction l with
  | nil => exact List.Perm.refl _
  | cons a l ih =>
    have ih' := ih fun b hb ↦ hmove b (List.mem_cons_of_mem a hb)
    rw [List.map_cons]
    cases hp : p a with
    | true =>
      have hfa : p (f a) = true := (hkeep a hp).symm ▸ hp
      rw [List.filter_cons_of_pos hfa, List.filter_cons_of_pos hp,
        List.filter_cons_of_neg (by simp [hdisj a hp]), hkeep a hp, List.cons_append]
      exact ih'.cons a
    | false =>
      have hpf := hmove a List.mem_cons_self hp
      rw [List.filter_cons_of_neg (l := l) (by simp [hp])]
      cases hq : q a with
      | true =>
        rw [List.filter_cons_of_pos (hpf.trans hq), List.filter_cons_of_pos hq, List.map_cons]
        exact (ih'.cons (f a)).trans List.perm_middle.symm
      | false =>
        rw [List.filter_cons_of_neg (by simp [hpf, hq]), List.filter_cons_of_neg (by simp [hq])]
        exact ih'

end AgenticSecurity.Library
