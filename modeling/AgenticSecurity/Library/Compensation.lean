import Mathlib.Data.Set.Function

namespace AgenticSecurity.Library.Compensation

variable {κ ν : Type*} [DecidableEq κ]

def unlinkAll (directory : κ → Option ν) (created : List κ) : κ → Option ν :=
  fun key ↦ if key ∈ created then none else directory key

variable {before directory : κ → Option ν} {created : List κ}

/-- Only the files of the list differ from those before the call. -/
def Confined (before directory : κ → Option ν) (created : List κ) : Prop :=
  ∀ key, key ∉ created → directory key = before key

theorem Confined.create (h : Confined before directory created) (key : κ) (value : Option ν) :
    Confined before (Function.update directory key value) (created ++ [key]) := by
  intro other hother
  rw [List.mem_append, List.mem_singleton, not_or] at hother
  rw [Function.update_of_ne hother.2, h other hother.1]

theorem Confined.unlinkAll_eq_iff (h : Confined before directory created) :
    unlinkAll directory created = before ↔ ∀ key ∈ created, before key = none := by
  constructor
  · rintro rfl key hkey
    exact if_pos hkey
  · intro hnone
    funext key
    by_cases hkey : key ∈ created
    · rw [unlinkAll, if_pos hkey, hnone key hkey]
    · rw [unlinkAll, if_neg hkey, h key hkey]

theorem Confined.unlinkAll_update_eq_iff (h : Confined before directory created) (key : κ)
    (value : ν) :
    unlinkAll (Function.update directory key (some value)) created = before ↔
      (∀ other ∈ created, before other = none) ∧ (key ∈ created ∨ before key = some value) := by
  constructor
  · intro hrestored
    refine ⟨fun other hother ↦ by rw [← hrestored, unlinkAll, if_pos hother], ?_⟩
    by_cases hkey : key ∈ created
    · exact .inl hkey
    · exact .inr (by rw [← hrestored, unlinkAll, if_neg hkey, Function.update_self])
  · intro ⟨hnone, hvalue⟩
    funext other
    by_cases hother : other ∈ created
    · rw [unlinkAll, if_pos hother, hnone other hother]
    rw [unlinkAll, if_neg hother]
    by_cases hsame : other = key
    · subst hsame
      rw [Function.update_self, hvalue.resolve_left hother]
    · rw [Function.update_of_ne hsame, h other hother]

end AgenticSecurity.Library.Compensation
