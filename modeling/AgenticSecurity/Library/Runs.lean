import Mathlib.Data.List.Induction

namespace AgenticSecurity.Library.Runs

variable {σ ω ε : Type*}

/-- A run of a partial step function: every operation must be possible. -/
def exec (step : σ → ω → Option σ) : σ → List ω → Option σ
  | s, [] => some s
  | s, o :: os => (step s o).bind fun t ↦ exec step t os

@[simp] theorem exec_nil (step : σ → ω → Option σ) (s : σ) : exec step s [] = some s := rfl

theorem exec_cons {step : σ → ω → Option σ} {s t : σ} {o : ω} {os : List ω} :
    exec step s (o :: os) = some t ↔ ∃ u, step s o = some u ∧ exec step u os = some t :=
  Option.bind_eq_some_iff

theorem exec_append {step : σ → ω → Option σ} {s t : σ} {os os' : List ω} :
    exec step s (os ++ os') = some t ↔ ∃ u, exec step s os = some u ∧ exec step u os' = some t := by
  induction os generalizing s with
  | nil => simp
  | cons o os ih =>
    simp only [List.cons_append, exec_cons, ih]
    constructor
    · rintro ⟨v, hv, u, hu, ht⟩
      exact ⟨u, ⟨v, hv, hu⟩, ht⟩
    · rintro ⟨u, ⟨v, hv, hu⟩, ht⟩
      exact ⟨v, hv, u, hu, ht⟩

/-- The states between the operations of a run, both ends included. -/
def Visits (step : σ → ω → Option σ) (s : σ) (os : List ω) (u : σ) : Prop :=
  ∃ pre, pre <+: os ∧ exec step s pre = some u

/-- The operation `o`, taken in state `u`, is a step of the run. -/
def Takes (step : σ → ω → Option σ) (s : σ) (os : List ω) (u : σ) (o : ω) : Prop :=
  ∃ pre, pre ++ [o] <+: os ∧ exec step s pre = some u

theorem visits_end {step : σ → ω → Option σ} {s t : σ} {os : List ω}
    (h : exec step s os = some t) : Visits step s os t := ⟨os, List.prefix_rfl, h⟩

theorem Takes.visits {step : σ → ω → Option σ} {s u : σ} {os : List ω} {o : ω}
    (h : Takes step s os u o) : Visits step s os u := by
  obtain ⟨pre, hpre, he⟩ := h
  exact ⟨pre, (List.prefix_append pre [o]).trans hpre, he⟩

theorem Takes.next {step : σ → ω → Option σ} {s u v : σ} {os : List ω} {o : ω}
    (h : Takes step s os u o) (hv : step u o = some v) : Visits step s os v := by
  obtain ⟨pre, hpre, he⟩ := h
  exact ⟨pre ++ [o], hpre, exec_append.mpr ⟨u, he, exec_cons.mpr ⟨v, hv, rfl⟩⟩⟩

theorem Takes.append {step : σ → ω → Option σ} {s t u : σ} {pre os : List ω} {o : ω}
    (hpre : exec step s pre = some t) (h : Takes step t os u o) : Takes step s (pre ++ os) u o := by
  obtain ⟨mid, hmid, he⟩ := h
  refine ⟨pre ++ mid, ?_, exec_append.mpr ⟨t, hpre, he⟩⟩
  rw [List.append_assoc]
  exact (List.prefix_append_right_inj pre).mpr hmid

/-- Induction over a run: `Inv` holds at the start, and every step the run
takes from a visited state keeps it. -/
theorem visits_invariant {step : σ → ω → Option σ} {s : σ} {os : List ω} (Inv : σ → Prop)
    (h0 : Inv s)
    (hstep : ∀ u o v, Takes step s os u o → Inv u → step u o = some v → Inv v) :
    ∀ u, Visits step s os u → Inv u := by
  rintro u ⟨pre, hpre, he⟩
  induction pre using List.reverseRecOn generalizing u with
  | nil => exact Option.some.inj he ▸ h0
  | append_singleton pre o ih =>
    obtain ⟨w, hw, hlast⟩ := exec_append.mp he
    obtain ⟨v, hv, hnil⟩ := exec_cons.mp hlast
    have hvu : v = u := Option.some.inj hnil
    subst hvu
    have hw' := ih w ((List.prefix_append pre [o]).trans hpre) hw
    exact hstep w o v ⟨pre, hpre, hw⟩ hw' hv

/-- Every step of the run passes `check`. -/
def stepsPass (step : σ → ω → Option σ) (check : σ → ω → Bool) : σ → List ω → Bool
  | _, [] => true
  | s, o :: os => check s o && (step s o).all fun t ↦ stepsPass step check t os

theorem check_of_takes {step : σ → ω → Option σ} {check : σ → ω → Bool} {s u : σ}
    {os : List ω} {o : ω} (h : stepsPass step check s os = true) (htakes : Takes step s os u o) :
    check u o = true := by
  induction os generalizing s with
  | nil =>
    obtain ⟨pre, hpre, -⟩ := htakes
    simp at hpre
  | cons o' os ih =>
    obtain ⟨pre, hpre, he⟩ := htakes
    rw [stepsPass, Bool.and_eq_true] at h
    cases pre with
    | nil =>
      obtain rfl : o = o' := (List.cons_prefix_cons.mp hpre).1
      obtain rfl : s = u := Option.some.inj he
      exact h.1
    | cons o'' pre =>
      obtain ⟨rfl, hrest⟩ := List.cons_prefix_cons.mp hpre
      obtain ⟨t, ht, he⟩ := exec_cons.mp he
      rw [ht] at h
      exact ih h.2 ⟨pre, hrest, he⟩

theorem except_map_ok {α β : Type*} {x : Except ε α} {f : α → β} {b : β} :
    x.map f = .ok b ↔ ∃ a, x = .ok a ∧ f a = b := by cases x <;> simp [Except.map]

theorem except_bind_ok {α β : Type*} {x : Except ε α} {f : α → Except ε β} {b : β} :
    x.bind f = .ok b ↔ ∃ a, x = .ok a ∧ f a = .ok b := by cases x <;> simp [Except.bind]

theorem except_mapError_ok {α ε' : Type*} {x : Except ε α} {f : ε → ε'} {a : α} :
    x.mapError f = .ok a ↔ x = .ok a := by cases x <;> simp [Except.mapError]

theorem except_guard_ok {α : Type*} {c : Prop} [Decidable c] {e : ε} {x : Except ε α} {a : α} :
    (if c then .error e else x) = .ok a ↔ ¬ c ∧ x = .ok a := by
  by_cases h : c <;> simp [h]

theorem foldlM_view {τ : Type*} (view : σ → τ) {op : σ → ω → Except ε σ} {f : τ → ω → τ} {s t : σ}
    {os : List ω} (hop : ∀ s o s', op s o = .ok s' → view s' = f (view s) o)
    (h : os.foldlM op s = .ok t) : view t = os.foldl f (view s) := by
  induction os generalizing s with
  | nil => exact Except.ok.inj h ▸ rfl
  | cons o os ih =>
    obtain ⟨u, hu, ht⟩ := except_bind_ok.mp h
    rw [List.foldl_cons, ← hop s o u hu]
    exact ih ht

/-- An operation that raises leaves the state as it was. -/
def attempt (op : σ → ω → Except ε σ) (s : σ) (o : ω) : σ :=
  match op s o with
  | .ok s' => s'
  | .error _ => s

theorem attempt_ok {op : σ → ω → Except ε σ} {s s' : σ} {o : ω} (h : op s o = .ok s') :
    attempt op s o = s' := by simp only [attempt, h]

theorem attempt_error {op : σ → ω → Except ε σ} {s : σ} {o : ω} {e : ε} (h : op s o = .error e) :
    attempt op s o = s := by simp only [attempt, h]

/-- The state after a sequence of attempts, in the order given. -/
def attempts (op : σ → ω → Except ε σ) (s : σ) (os : List ω) : σ := os.foldl (attempt op) s

@[simp] theorem attempts_nil (op : σ → ω → Except ε σ) (s : σ) : attempts op s [] = s := rfl

@[simp] theorem attempts_cons (op : σ → ω → Except ε σ) (s : σ) (o : ω) (os : List ω) :
    attempts op s (o :: os) = attempts op (attempt op s o) os := rfl

theorem attempts_append (op : σ → ω → Except ε σ) (s : σ) (os os' : List ω) :
    attempts op s (os ++ os') = attempts op (attempts op s os) os' := List.foldl_append

theorem attempts_snoc (op : σ → ω → Except ε σ) (s : σ) (os : List ω) (o : ω) :
    attempts op s (os ++ [o]) = attempt op (attempts op s os) o := attempts_append op s os [o]

/-- How often `event` holds of an operation of the sequence and the state it is tried in. -/
def countAttempts (op : σ → ω → Except ε σ) (event : σ → ω → Bool) : σ → List ω → ℕ
  | _, [] => 0
  | s, o :: os => (event s o).toNat + countAttempts op event (attempt op s o) os

theorem countAttempts_append (op : σ → ω → Except ε σ) (event : σ → ω → Bool) (s : σ)
    (os os' : List ω) :
    countAttempts op event s (os ++ os') =
      countAttempts op event s os + countAttempts op event (attempts op s os) os' := by
  induction os generalizing s with
  | nil => simp [countAttempts]
  | cons o os ih =>
    simp only [List.cons_append, countAttempts, attempts_cons, ih]
    omega

theorem countAttempts_snoc (op : σ → ω → Except ε σ) (event : σ → ω → Bool) (s : σ)
    (os : List ω) (o : ω) :
    countAttempts op event s (os ++ [o]) =
      countAttempts op event s os + (event (attempts op s os) o).toNat :=
  countAttempts_append op event s os [o]

theorem attempts_relation {op : σ → ω → Except ε σ} (R : σ → σ → Prop) (hrefl : ∀ s, R s s)
    (htrans : ∀ {s t u}, R s t → R t u → R s u) {s : σ} {os : List ω}
    (hop : ∀ s o s', o ∈ os → op s o = .ok s' → R s s') : R s (attempts op s os) := by
  induction os generalizing s with
  | nil => exact hrefl s
  | cons o os ih =>
    have hhead : R s (attempt op s o) := by
      cases h : op s o with
      | ok s' => exact (attempt_ok h).symm ▸ hop s o s' List.mem_cons_self h
      | error e => exact (attempt_error h).symm ▸ hrefl s
    exact htrans hhead (ih fun u p u' hp hu ↦ hop u p u' (List.mem_cons_of_mem o hp) hu)

theorem attempts_invariant {op : σ → ω → Except ε σ} (Inv : σ → Prop) {s : σ} {os : List ω}
    (h0 : Inv s) (hop : ∀ s o s', o ∈ os → Inv s → op s o = .ok s' → Inv s') :
    Inv (attempts op s os) :=
  attempts_relation (fun s t ↦ Inv s → Inv t) (fun _ h ↦ h) (fun h h' hs ↦ h' (h hs))
    (fun s o s' ho hs' hs ↦ hop s o s' ho hs hs') h0

/-- Induction over the states between the attempts of a sequence. -/
theorem attempts_prefix_invariant {op : σ → ω → Except ε σ} (Inv : σ → Prop) {s : σ} {os : List ω}
    (h0 : Inv s)
    (hop : ∀ pre o s', pre ++ [o] <+: os → Inv (attempts op s pre) →
      op (attempts op s pre) o = .ok s' → Inv s') :
    ∀ pre, pre <+: os → Inv (attempts op s pre) := by
  intro pre hpre
  induction pre using List.reverseRecOn with
  | nil => exact h0
  | append_singleton pre o ih =>
    have hi := ih ((List.prefix_append pre [o]).trans hpre)
    rw [attempts_snoc]
    cases h : op (attempts op s pre) o with
    | ok s' => exact (attempt_ok h).symm ▸ hop pre o s' hpre hi h
    | error e => exact (attempt_error h).symm ▸ hi

/-- Every attempt of the sequence that is accepted passes `check` in the state in which it is
made. -/
def acceptedPass (op : σ → ω → Except ε σ) (check : σ → ω → Bool) : σ → List ω → Bool
  | _, [] => true
  | s, o :: os => (!(op s o).isOk || check s o) && acceptedPass op check (attempt op s o) os

theorem check_of_accepted {op : σ → ω → Except ε σ} {check : σ → ω → Bool} {s s' : σ}
    {os pre : List ω} {o : ω} (h : acceptedPass op check s os = true) (hpre : pre ++ [o] <+: os)
    (hop : op (attempts op s pre) o = .ok s') :
    check (attempts op s pre) o = true := by
  induction pre generalizing s os with
  | nil =>
    obtain ⟨rest, rfl⟩ := hpre
    have hpass := (Bool.and_eq_true_iff.mp h).1
    rw [attempts_nil] at hop ⊢
    rw [hop] at hpass
    exact hpass
  | cons p pre ih =>
    obtain ⟨rest, rfl⟩ := hpre
    exact ih (Bool.and_eq_true_iff.mp h).2 (List.prefix_append _ rest) hop

/-- What the attempts of a sequence show of themselves to an observer. -/
def emitted {η : Type*} (op : σ → ω → Except ε σ) (emit : σ → ω → List η) : σ → List ω → List η
  | _, [] => []
  | s, o :: os => emit s o ++ emitted op emit (attempt op s o) os

theorem emitted_snoc {η : Type*} (op : σ → ω → Except ε σ) (emit : σ → ω → List η) (s : σ)
    (os : List ω) (o : ω) :
    emitted op emit s (os ++ [o]) = emitted op emit s os ++ emit (attempts op s os) o := by
  induction os generalizing s with
  | nil => exact List.append_nil _
  | cons o' os ih =>
    rw [List.cons_append, emitted, emitted, ih, List.append_assoc]
    rfl

/-- A simulation by an abstraction of the state: where the abstract machine can follow
what each attempt shows, it can follow the whole sequence. -/
theorem exec_emitted {η α : Type*} {op : σ → ω → Except ε σ} {emit : σ → ω → List η}
    {step : α → η → Option α} (view : σ → α) {s : σ} {os : List ω}
    (h : ∀ pre o, pre ++ [o] <+: os →
      exec step (view (attempts op s pre)) (emit (attempts op s pre) o) =
        some (view (attempt op (attempts op s pre) o))) :
    exec step (view s) (emitted op emit s os) = some (view (attempts op s os)) := by
  induction os generalizing s with
  | nil => rfl
  | cons o os ih =>
    have hhead := h [] o (List.prefix_append [o] os)
    have hrest := ih fun pre p hpre ↦ h (o :: pre) p (List.cons_prefix_cons.mpr ⟨rfl, hpre⟩)
    rw [emitted, exec_append]
    exact ⟨_, hhead, hrest⟩

end AgenticSecurity.Library.Runs
