import AgenticSecurity.Library.Runs
import Mathlib.Data.List.Forall2
import Mathlib.Tactic.SplitIfs

namespace AgenticSecurity.Library.Related

open List

variable {α β γ : Type*} {R : α → β → Prop} {l : List α} {l' : List β}

theorem map_eq {f : α → γ} {g : β → γ} (h : Forall₂ R l l') (hf : ∀ a b, R a b → f a = g b) :
    l.map f = l'.map g := by
  induction h with
  | nil => rfl
  | cons hab _ ih => rw [List.map_cons, List.map_cons, hf _ _ hab, ih]

theorem filterMap_eq {f : α → Option γ} {g : β → Option γ} (h : Forall₂ R l l')
    (hf : ∀ a b, R a b → f a = g b) : l.filterMap f = l'.filterMap g := by
  induction h with
  | nil => rfl
  | cons hab _ ih => rw [List.filterMap_cons, List.filterMap_cons, hf _ _ hab, ih]

theorem flatMap_eq {f : α → List γ} {g : β → List γ} (h : Forall₂ R l l')
    (hf : ∀ a b, R a b → f a = g b) :
    l.flatMap f = l'.flatMap g := by
  rw [List.flatMap_def, List.flatMap_def, map_eq h hf]

theorem any_eq {p : α → Bool} {q : β → Bool} (h : Forall₂ R l l') (hp : ∀ a b, R a b → p a = q b) :
    l.any p = l'.any q := by
  induction h with
  | nil => rfl
  | cons hab _ ih => rw [List.any_cons, List.any_cons, hp _ _ hab, ih]

theorem exists_left (h : Forall₂ R l l') {b : β} (hb : b ∈ l') : ∃ a ∈ l, R a b := by
  induction h with
  | nil => cases hb
  | @cons a b' l l' hab _ ih =>
    rcases List.mem_cons.mp hb with rfl | hrest
    · exact ⟨a, mem_cons_self, hab⟩
    · obtain ⟨a', ha', hrel⟩ := ih hrest
      exact ⟨a', mem_cons_of_mem a ha', hrel⟩

theorem nil_iff (h : Forall₂ R l l') : l = [] ↔ l' = [] := by
  cases h <;> simp

theorem filter_related {p : α → Bool} {q : β → Bool} (h : Forall₂ R l l')
    (hp : ∀ a b, R a b → p a = q b) :
    Forall₂ R (l.filter p) (l'.filter q) := by
  induction h with
  | nil => exact .nil
  | @cons a b _ _ hab _ ih =>
    rw [List.filter_cons, List.filter_cons, hp _ _ hab]
    split_ifs
    · exact .cons hab ih
    · exact ih

theorem filterMap_related {δ : Type*} {S : γ → δ → Prop} {f : α → Option γ} {g : β → Option δ}
    (h : Forall₂ R l l') (hf : ∀ a b, R a b → Option.Rel S (f a) (g b)) :
    Forall₂ S (l.filterMap f) (l'.filterMap g) := by
  induction h with
  | nil => exact .nil
  | @cons a b _ _ hab _ ih =>
    have hrel := hf a b hab
    rw [List.filterMap_cons, List.filterMap_cons]
    generalize f a = x, g b = y at hrel
    cases hrel with
    | none => exact ih
    | some hs => exact .cons hs ih

theorem foldl_related {f : α → α → α} {g : β → β → β} (h : Forall₂ R l l')
    (hf : ∀ a b a' b', R a b → R a' b' → R (f a a') (g b b')) :
    ∀ {a b}, R a b → R (l.foldl f a) (l'.foldl g b) := by
  induction h with
  | nil => exact fun hab ↦ hab
  | cons hab' _ ih => exact fun hab ↦ ih (hf _ _ _ _ hab hab')

theorem forall₂_of_mapM {ε : Type*} {f : α → Except ε β} (h : l.mapM f = .ok l') :
    Forall₂ (fun a b ↦ f a = .ok b) l l' := by
  induction l generalizing l' with
  | nil =>
    obtain rfl := Except.ok.inj h
    exact .nil
  | cons a l ih =>
    rw [List.mapM_cons] at h
    obtain ⟨b, hb, h⟩ := Runs.except_bind_ok.mp h
    obtain ⟨bs, hbs, h⟩ := Runs.except_bind_ok.mp h
    obtain rfl := Except.ok.inj h
    exact .cons hb (ih hbs)

end AgenticSecurity.Library.Related
