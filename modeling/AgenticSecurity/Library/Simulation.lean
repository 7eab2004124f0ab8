import AgenticSecurity.Library.Runs

namespace AgenticSecurity.Library.Simulation

open Runs

variable {σ ω α η : Type*} {step : σ → ω → Option σ} {step' : α → η → Option α} {view : σ → α}
  {label : ω → Option η}

theorem exec_single {s : σ} {o : ω} : exec step s [o] = step s o := by
  rw [exec]
  cases step s o <;> rfl

/-- A machine refines another when each of its steps is a step of the other or none at all. -/
theorem exec_refines (Inv : σ → Prop)
    (hstep : ∀ s o t, Inv s → step s o = some t →
      Inv t ∧ exec step' (view s) (label o).toList = some (view t))
    {s t : σ} {os : List ω} (hs : Inv s) (hrun : exec step s os = some t) :
    Inv t ∧ exec step' (view s) (os.filterMap label) = some (view t) := by
  induction os generalizing s with
  | nil =>
    obtain rfl := Option.some.inj hrun
    exact ⟨hs, rfl⟩
  | cons o os ih =>
    obtain ⟨u, hu, hrest⟩ := exec_cons.mp hrun
    obtain ⟨hinv, hhead⟩ := hstep s o u hs hu
    obtain ⟨ht, htail⟩ := ih hinv hrest
    have hlabels : (o :: os).filterMap label = (label o).toList ++ os.filterMap label := by
      cases ho : label o <;> simp [ho]
    rw [hlabels, exec_append]
    exact ⟨ht, view u, hhead, htail⟩

/-- Every run of the other is a run of the machine when each step can be made up of its own. -/
theorem exec_realizes (Inv : σ → Prop)
    (hstep : ∀ s e a, Inv s → step' (view s) e = some a →
      ∃ os t, os.filterMap label = [e] ∧ exec step s os = some t ∧ Inv t ∧ view t = a)
    {s : σ} {a : α} {es : List η} (hs : Inv s) (hrun : exec step' (view s) es = some a) :
    ∃ os t, os.filterMap label = es ∧ exec step s os = some t ∧ Inv t ∧ view t = a := by
  induction es generalizing s with
  | nil => exact ⟨[], s, rfl, rfl, hs, Option.some.inj hrun⟩
  | cons e es ih =>
    obtain ⟨b, hb, hrest⟩ := exec_cons.mp hrun
    obtain ⟨os, u, hlabels, hhead, hu, rfl⟩ := hstep s e b hs hb
    obtain ⟨os', t, hlabels', htail, ht, hview⟩ := ih hu hrest
    refine ⟨os ++ os', t, ?_, exec_append.mpr ⟨u, hhead, htail⟩, ht, hview⟩
    rw [List.filterMap_append, hlabels, hlabels', List.singleton_append]

end AgenticSecurity.Library.Simulation
