import Mathlib.Data.List.Basic

namespace AgenticSecurity.Library.EventLog

variable {ε : Type*}

/-- Every entry of a log stands in the relation `P` to the entries before it. -/
def Admissible (P : List ε → ε → Prop) (log : List ε) : Prop :=
  ∀ before e, before ++ [e] <+: log → P before e

theorem admissible_nil (P : List ε → ε → Prop) : Admissible P [] := fun before e h ↦ by
  simp at h

theorem Admissible.snoc {P : List ε → ε → Prop} {log : List ε} {e : ε} (h : Admissible P log)
    (he : P log e) : Admissible P (log ++ [e]) := by
  intro before e' hbefore
  rcases List.prefix_concat_iff.mp hbefore with hlast | hinner
  · obtain ⟨rfl, hsingle⟩ := List.append_inj' hlast rfl
    obtain rfl := List.singleton_inj.mp hsingle
    exact he
  · exact h before e' hinner

theorem Admissible.mono {P : List ε → ε → Prop} {log log' : List ε} (h : Admissible P log')
    (hlog : log <+: log') : Admissible P log :=
  fun before e hbefore ↦ h before e (hbefore.trans hlog)

theorem Admissible.of_mem {P : List ε → ε → Prop} {log : List ε} {e : ε} (h : Admissible P log)
    (he : e ∈ log) : ∃ before, before ++ [e] <+: log ∧ P before e := by
  obtain ⟨before, rest, rfl⟩ := List.append_of_mem he
  have hbefore : before ++ [e] <+: before ++ e :: rest := ⟨rest, by simp⟩
  exact ⟨before, hbefore, h before e hbefore⟩

end AgenticSecurity.Library.EventLog
