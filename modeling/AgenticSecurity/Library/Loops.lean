import Mathlib.Data.Nat.Basic

namespace AgenticSecurity.Library.Loops

variable {σ ρ : Type*}

/-- One turn of a `while True` loop: it goes round again with a state, or leaves with a result. -/
inductive Turn (σ ρ : Type*)
  | again (state : σ)
  | leave (result : ρ)
  deriving DecidableEq

variable (turn : σ → Turn σ ρ)

/-- The result of the loop where it leaves within `n` turns. -/
def run : ℕ → σ → Option ρ
  | 0, _ => none
  | n + 1, s =>
    match turn s with
    | .again s' => run n s'
    | .leave result => some result

variable {turn} {s s' : σ} {result : ρ}

theorem run_again (h : turn s = .again s') (n : ℕ) : run turn (n + 1) s = run turn n s' := by
  simp only [run, h]

theorem run_leave (h : turn s = .leave result) (n : ℕ) : run turn (n + 1) s = some result := by
  simp only [run, h]

theorem run_mono {m n : ℕ} (h : run turn m s = some result) (hmn : m ≤ n) :
    run turn n s = some result := by
  induction m generalizing s n with
  | zero => cases h
  | succ m ih =>
    obtain ⟨n, rfl⟩ : ∃ k, n = k + 1 := ⟨n - 1, by omega⟩
    cases hturn : turn s with
    | again next =>
      rw [run_again hturn] at h ⊢
      exact ih h (by omega)
    | leave result' =>
      rw [run_leave hturn] at h ⊢
      exact h

/-- What every turn keeps holds where the loop leaves. -/
theorem run_invariant (Inv : σ → Prop) (hstep : ∀ s s', Inv s → turn s = .again s' → Inv s') {n : ℕ}
    (h0 : Inv s) (h : run turn n s = some result) : ∃ s', Inv s' ∧ turn s' = .leave result := by
  induction n generalizing s with
  | zero => cases h
  | succ n ih =>
    cases hturn : turn s with
    | again next =>
      rw [run_again hturn] at h
      exact ih (hstep s next h0 hturn) h
    | leave result' =>
      rw [run_leave hturn] at h
      obtain rfl := Option.some.inj h
      exact ⟨s, h0, hturn⟩

/-- A loop whose turns lower a measure leaves. -/
theorem run_isSome (Inv : σ → Prop) (measure : σ → ℕ)
    (hstep : ∀ s s', Inv s → turn s = .again s' → Inv s' ∧ measure s' < measure s) {n : ℕ}
    (h0 : Inv s)
    (hn : measure s < n) : (run turn n s).isSome := by
  induction n generalizing s with
  | zero => omega
  | succ n ih =>
    cases hturn : turn s with
    | again next =>
      obtain ⟨hnext, hlt⟩ := hstep s next h0 hturn
      rw [run_again hturn]
      exact ih hnext (by omega)
    | leave result => rw [run_leave hturn, Option.isSome_some]

end AgenticSecurity.Library.Loops
