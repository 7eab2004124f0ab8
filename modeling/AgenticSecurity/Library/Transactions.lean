import AgenticSecurity.Library.Runs
import Mathlib.Logic.Function.Basic

namespace AgenticSecurity.Library.Transactions

open Library

variable {σ κ ψ ι ε ρ : Type*}

/-- What a call does inside its transaction: where it begins, its next statement, which may
take an `ι` from outside, and where it returns or raises. -/
structure Body (σ κ ψ ι ε ρ : Type*) where
  start : κ → ψ
  next : κ → σ → ψ → ι → σ × ψ
  result : ψ → Option (Except ε ρ)

/-- The tables after a transaction: a call that raises is rolled back. -/
def settle (before tables : σ) : Except ε ρ → σ
  | .ok _ => tables
  | .error _ => before

namespace Body

variable (body : Body σ κ ψ ι ε ρ)

/-- The tables and the place of a call after its statements. -/
def run (call : κ) (before : σ) (inputs : List ι) : σ × ψ :=
  inputs.foldl (fun place input ↦ body.next call place.1 place.2 input) (before, body.start call)

theorem run_snoc (call : κ) (before : σ) (inputs : List ι) (input : ι) :
    body.run call before (inputs ++ [input]) =
      body.next call (body.run call before inputs).1 (body.run call before inputs).2 input :=
  List.foldl_append

/-- Alone on the tables, the call can end so. -/
def Produces (call : κ) (before : σ) (result : Except ε ρ) (after : σ) : Prop :=
  ∃ inputs, body.result (body.run call before inputs).2 = some result ∧
    after = settle before (body.run call before inputs).1 result

/-- What every statement keeps holds where the call ends. -/
theorem run_invariant {call : κ} {before : σ} (Inv : σ → ψ → Prop)
    (h0 : Inv before (body.start call)) (hnext : ∀ tables stage input, Inv tables stage →
      Inv (body.next call tables stage input).1 (body.next call tables stage input).2) (inputs :
    List ι) :
    Inv (body.run call before inputs).1 (body.run call before inputs).2 := by
  induction inputs using List.reverseRecOn with
  | nil => exact h0
  | append_singleton inputs input ih =>
    rw [run_snoc]
    exact hnext _ _ input ih

end Body

/-- The transaction that holds the write lock. -/
structure Ongoing (σ κ ψ : Type*) where
  client : ℕ
  call : κ
  tables : σ
  stage : ψ

/-- A transaction that has ended, with the stored tables before and after it. -/
structure Ended (σ κ ε ρ : Type*) where
  call : κ
  before : σ
  result : Except ε ρ
  after : σ

structure World (σ κ ψ ε ρ : Type*) where
  committed : σ
  waiting : ℕ → Option κ := fun _ ↦ none
  transaction : Option (Ongoing σ κ ψ) := none
  history : List (Ended σ κ ε ρ) := []

/-- `BEGIN IMMEDIATE` takes the write lock or waits for it, up to the busy timeout. -/
inductive Event (κ ι : Type*)
  | call (client : ℕ) (call : κ)
  | beginImmediate (client : ℕ)
  | timeout (client : ℕ)
  | statement (input : ι)
  | close
  | die (client : ℕ)
  deriving DecidableEq, Repr

variable (body : Body σ κ ψ ι ε ρ)

def World.step (world : World σ κ ψ ε ρ) : Event κ ι → Option (World σ κ ψ ε ρ)
  | .call client call =>
    if (world.waiting client).isSome ∨ world.transaction.map Ongoing.client = some client then none
    else some { world with waiting := Function.update world.waiting client (some call) }
  | .beginImmediate client =>
    match world.waiting client, world.transaction with
    | some call, none => some { world with
        waiting := Function.update world.waiting client none
        transaction := some { client, call, tables := world.committed, stage := body.start call } }
    | _, _ => none
  | .timeout client =>
    if (world.waiting client).isSome then
      some { world with waiting := Function.update world.waiting client none }
    else none
  | .statement input =>
    match world.transaction with
    | none => none
    | some t =>
      if (body.result t.stage).isSome then none
      else
        let (tables, stage) := body.next t.call t.tables t.stage input
        some { world with transaction := some { t with tables, stage } }
  | .close =>
    match world.transaction with
    | none => none
    | some t => (body.result t.stage).map fun result ↦
        let after := settle world.committed t.tables result
        { world with
          committed := after
          transaction := none
          history := world.history ++ [⟨t.call, world.committed, result, after⟩] }
  | .die client =>
    -- a connection that is lost has its transaction rolled back
    some { world with
      waiting := Function.update world.waiting client none
      transaction := world.transaction.filter fun t ↦ t.client ≠ client }

/-- Transactions that ran one after another, each alone on the tables of the one before. -/
inductive Serial (init : σ) : List (Ended σ κ ε ρ) → σ → Prop
  | start : Serial init [] init
  | ended {history : List (Ended σ κ ε ρ)} {before after : σ} {call : κ} {result : Except ε ρ}
      (earlier : Serial init history before) (produces : body.Produces call before result after) :
      Serial init (history ++ [⟨call, before, result, after⟩]) after

/-- An ended transaction ran alone on what the ones before it had left. -/
theorem Serial.split {init s : σ} {earlier later : List (Ended σ κ ε ρ)} {e : Ended σ κ ε ρ}
    (h : Serial body init (earlier ++ e :: later) s) :
    Serial body init earlier e.before ∧ body.Produces e.call e.before e.result e.after := by
  induction later using List.reverseRecOn generalizing s with
  | nil =>
    generalize hall : earlier ++ [e] = all at h
    cases h with
    | start => simp at hall
    | ended before produces =>
      obtain ⟨rfl, hlast⟩ := List.append_inj' hall rfl
      obtain rfl := List.singleton_inj.mp hlast
      exact ⟨before, produces⟩
  | append_singleton later last ih =>
    generalize hall : earlier ++ e :: (later ++ [last]) = all at h
    cases h with
    | start => simp at hall
    | ended before produces =>
      rw [← List.cons_append, ← List.append_assoc] at hall
      obtain ⟨rfl, -⟩ := List.append_inj' hall rfl
      exact ih before

/-- The ongoing transaction has run alone on the stored tables since it began. -/
structure World.Inv (init : σ) (world : World σ κ ψ ε ρ) : Prop where
  serial : Serial body init world.history world.committed
  alone : ∀ t ∈ world.transaction, ∃ inputs, (t.tables,
    t.stage) = body.run t.call world.committed inputs

theorem Inv_init (init : σ) : (World.Inv body init { committed := init }) where
  serial := .start
  alone t ht := by cases ht

theorem World.Inv_step {init : σ} {world world' : World σ κ ψ ε ρ} {event : Event κ ι}
    (h : world.Inv body init) (hs : world.step body event = some world') :
    world'.Inv body init := by
  cases event with
  | call client call =>
    simp only [World.step] at hs
    split_ifs at hs
    obtain rfl := Option.some.inj hs
    exact ⟨h.serial, h.alone⟩
  | beginImmediate client =>
    simp only [World.step] at hs
    split at hs
    · obtain rfl := Option.some.inj hs
      refine ⟨h.serial, fun t ht ↦ ⟨[], ?_⟩⟩
      obtain rfl := Option.some.inj ht
      rfl
    · cases hs
  | timeout client =>
    simp only [World.step] at hs
    split_ifs at hs
    obtain rfl := Option.some.inj hs
    exact ⟨h.serial, h.alone⟩
  | statement input =>
    simp only [World.step] at hs
    split at hs
    · cases hs
    next t ht =>
    split_ifs at hs
    obtain rfl := Option.some.inj hs
    refine ⟨h.serial, fun t' ht' ↦ ?_⟩
    obtain ⟨inputs, hinputs⟩ := h.alone t ht
    obtain rfl := Option.some.inj ht'
    refine ⟨inputs ++ [input], ?_⟩
    rw [Body.run_snoc, ← hinputs]
  | close =>
    simp only [World.step] at hs
    split at hs
    · cases hs
    next t ht =>
    obtain ⟨result, hresult, rfl⟩ := Option.map_eq_some_iff.mp hs
    obtain ⟨inputs, hinputs⟩ := h.alone t ht
    refine ⟨.ended h.serial ⟨inputs, ?_, ?_⟩, fun t' ht' ↦ by cases ht'⟩
    · rw [← hinputs]
      exact hresult
    · rw [← hinputs]
  | die client =>
    obtain rfl := Option.some.inj hs
    exact ⟨h.serial, fun t ht ↦ h.alone t (Option.mem_filter_iff.mp ht).1⟩

/-- Whatever the clients do at once, the transactions that ended are serial. -/
theorem history_serial {init : σ} {events : List (Event κ ι)} {world : World σ κ ψ ε ρ}
    (h : Runs.Visits (World.step body) { committed := init } events world) :
    Serial body init world.history world.committed :=
  (Runs.visits_invariant (World.Inv body init) (Inv_init body init)
    (fun _ _ _ _ hu hv ↦ World.Inv_step body hu hv) world h).serial

section Statements

variable {ω α : Type*} {op : σ → ω → Except ε σ} {before tables : σ} {statements : List ω}

/-- Statements one after the other, up to the first that raises. What the ones before it wrote is
still in the tables. -/
def upToError (op : σ → ω → Except ε σ) : σ → List ω → σ × Except ε Unit
  | tables, [] => (tables, .ok ())
  | tables, statement :: statements =>
    match op tables statement with
    | .ok tables => upToError op tables statements
    | .error error => (tables, .error error)

theorem upToError_result (op : σ → ω → Except ε σ) (before : σ) (statements : List ω) :
    (upToError op before statements).2.map (fun () ↦ (upToError op before statements).1) =
      statements.foldlM op before := by
  induction statements generalizing before with
  | nil => rfl
  | cons statement statements ih =>
    rw [List.foldlM_cons]
    cases hop : op before statement with
    | ok tables =>
      simp only [upToError, hop]
      exact ih tables
    | error error =>
      simp only [upToError, hop]
      rfl

theorem upToError_invariant (Inv : σ → Prop) (h0 : Inv before)
    (hop : ∀ tables statement tables', Inv tables → op tables statement = .ok tables' →
      Inv tables') :
    Inv (upToError op before statements).1 := by
  induction statements generalizing before with
  | nil => exact h0
  | cons statement statements ih =>
    cases hstatement : op before statement with
    | ok tables =>
      simp only [upToError, hstatement]
      exact ih (hop before statement tables h0 hstatement)
    | error error =>
      simp only [upToError, hstatement]
      exact h0

/-- A transaction: it may fail to begin, its statements may raise, and so may the commit. -/
def transact (opening commit : Except ε Unit) (statements : σ → σ × Except ε α) (before : σ) :
    σ × Except ε α :=
  match opening with
  | .error error => (before, .error error)
  | .ok () =>
    let (tables, result) := statements before
    let result := result.bind fun value ↦ commit.map fun () ↦ value
    (settle before tables result, result)

variable {opening commit : Except ε Unit} {body : σ → σ × Except ε α}

theorem transact_ok {value : α} (h : (transact opening commit body before).2 = .ok value) :
    (body before).2 = .ok value ∧ (transact opening commit body before).1 = (body before).1 := by
  unfold transact at h ⊢
  cases opening with
  | error error => cases h
  | ok =>
    simp only at h ⊢
    rw [h]
    obtain ⟨_, hbody, hcommit⟩ := Runs.except_bind_ok.mp h
    obtain ⟨-, -, rfl⟩ := Runs.except_map_ok.mp hcommit
    exact ⟨hbody, rfl⟩

theorem transact_error {error : ε} (h : (transact opening commit body before).2 = .error error) :
    (transact opening commit body before).1 = before := by
  unfold transact at h ⊢
  cases opening with
  | error error => rfl
  | ok =>
    simp only at h ⊢
    rw [h]
    rfl

end Statements

end AgenticSecurity.Library.Transactions
