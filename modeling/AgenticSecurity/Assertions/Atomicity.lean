import AgenticSecurity.Assertions.History
import AgenticSecurity.Packets

namespace AgenticSecurity.Assertions

open Library Models Python

/-- A call that raises leaves the assertions and the observations as they were. -/
def Atomic (unicode : UnicodeData) (ledger : AssertionLedger) (args : UpsertArguments) : Prop :=
  ∀ message, (ledger.upsertArguments unicode args).2 = .error message →
    (ledger.upsertArguments unicode args).1 = ledger

def UpsertArguments.MakesAssertion (unicode : UnicodeData) (args : UpsertArguments) : Prop :=
  args.state ≠ .disputed ∧ isTaxonomyId unicode args.taxonomyVersion = true ∧
    isMethodologyId unicode args.methodologyVersion = true

/-- The call has an assertion to attach to, is refused before the observation is recorded, or
makes an assertion that passes its checks. -/
def ChecksFirst (unicode : UnicodeData) (ledger : AssertionLedger) (args : UpsertArguments) :
    Prop :=
  ledger.byKey.lookup args.key ≠ none ∨ args.Refused ∨ args.call none = none ∨
  args.MakesAssertion unicode

def AssertionLedger.Holds (ledger : AssertionLedger) (id : AssertionId) : Prop :=
  ∃ key assertion, ledger.byKey.lookup key = some assertion ∧ assertion.id = id

def ObservationsRefer (ledger : AssertionLedger) : Prop :=
  ∀ observation ∈ ledger.observations, ledger.Holds observation.assertionId

section Runs

variable {unicode : UnicodeData} {ledger ledger' : AssertionLedger} {args : UpsertArguments}

theorem makesAssertion_call {existing : Option Assertion} {call : UpsertCall}
    (h : args.call existing = some call) :
    call.MakesAssertion unicode ↔ args.MakesAssertion unicode := by
  obtain ⟨-, hstate, -, htaxonomy, hmethodology⟩ := call_eq h
  rw [UpsertCall.MakesAssertion, UpsertArguments.MakesAssertion, hstate, htaxonomy, hmethodology]

theorem raises_of_none {result : Except String UpsertResult}
    (h : result.toOption.map UpsertResult.assertion = none) :
    ∃ message, result = .error message := by
  cases result with
  | error message => exact ⟨message, rfl⟩
  | ok result => cases h

theorem atomic_iff : Atomic unicode ledger args ↔ ChecksFirst unicode ledger args := by
  have hcases : ArgumentsCase unicode ledger args (ledger.upsertArguments unicode args) :=
    upsertArguments_cases
  unfold Atomic
  generalize ledger.upsertArguments unicode args = after at hcases
  cases hcases with
  | refused message hearly =>
    refine iff_of_true (fun _ _ ↦ rfl) ?_
    by_cases hfound : ledger.byKey.lookup args.key = none
    · rw [hfound] at hearly
      exact .inr (hearly.imp_right .inl)
    · exact .inl hfound
  | passed call haccepted hcall =>
    obtain ⟨hkey, hstate, hscope, -⟩ := call_eq hcall
    have haccepted' : ¬ call.Refused := by rwa [UpsertCall.Refused, hstate, hscope]
    have hupsert := upsert_cases unicode ledger call
    generalize ledger.upsert unicode call = after at hupsert
    obtain ⟨ledger', result⟩ := after
    dsimp only at hupsert ⊢
    generalize hreturned : result.toOption.map UpsertResult.assertion = returned at hupsert
    have hreturns : ∀ {assertion message}, returned = some assertion → result ≠ .error message := by
      intro assertion message hsome herror
      rw [herror, hsome] at hreturned
      cases hreturned
    cases hupsert with
    | refused hrefused => exact absurd hrefused haccepted'
    | attached existing _ hfound =>
      refine iff_of_true (fun message herror ↦ absurd herror (hreturns rfl)) (.inl ?_)
      rw [← hkey, hfound]
      exact Option.some_ne_none existing
    | created assertion _ hfound hmakes =>
      exact iff_of_true (fun message herror ↦ absurd herror (hreturns rfl))
        (.inr (.inr (.inr ((makesAssertion_call hcall).mp hmakes))))
    | invalid _ hfound hmakes =>
      -- the observation stays in the list
      obtain ⟨message, herror⟩ := raises_of_none hreturned
      refine iff_of_false (fun hatomic ↦ ?_) ?_
      · have hsame := congrArg (fun l ↦ l.observations.length) (hatomic message herror)
        simp at hsame
      · rw [hkey] at hfound
        rw [hfound] at hcall
        rintro (hsome | hrefused | hinvalid | hvalid)
        · exact hsome hfound
        · exact haccepted hrefused
        · cases hinvalid.symm.trans hcall
        · exact hmakes ((makesAssertion_call hcall).mpr hvalid)

theorem holds_dictSet {key : String} {assertion : Assertion} {observations : List Observation}
    (hsame : ∀ existing, ledger.byKey.lookup key = some existing → assertion.id = existing.id)
    {id : AssertionId}
    (h : ledger.Holds id) :
    ({ byKey := dictSet ledger.byKey key assertion, observations } : AssertionLedger).Holds id := by
  obtain ⟨key', existing, hfound, rfl⟩ := h
  by_cases hkey : key' = key
  · subst hkey
    exact ⟨key', assertion, by rw [lookup_dictSet, if_pos rfl], hsame existing hfound⟩
  · exact ⟨key', existing, by rw [lookup_dictSet, if_neg hkey, hfound], rfl⟩

theorem holds_dictSet_self {key : String} {assertion : Assertion}
    {observations : List Observation} :
    ({ byKey := dictSet ledger.byKey key assertion, observations } : AssertionLedger).Holds
      assertion.id :=
  ⟨key, assertion, by rw [lookup_dictSet, if_pos rfl], rfl⟩

theorem ObservationsRefer.upsert {call : UpsertCall} {assertion : Assertion}
    (hrefer : ObservationsRefer ledger)
    (hcase : UpsertCase unicode ledger call ledger' (some assertion)) :
    ObservationsRefer ledger' := by
  cases hcase with
  | attached existing _ hfound =>
    have hsame :
        ∀ other, ledger.byKey.lookup call.key = some other →
        (attach existing call).id = other.id := by
      intro other hother
      obtain rfl := Option.some.inj (hfound.symm.trans hother)
      rfl
    intro observation hobservation
    rcases List.mem_append.mp hobservation with hold | hnew
    · exact holds_dictSet hsame (hrefer observation hold)
    · rw [List.mem_singleton.mp hnew]
      exact holds_dictSet_self
  | created assertion _ hfound _ hfields =>
    have hsame : ∀ other, ledger.byKey.lookup call.key = some other → assertion.id = other.id := by
      intro other hother
      rw [hfound] at hother
      cases hother
    have hid : assertion.id = call.assertionId := congrArg AssertionFields.id hfields
    intro observation hobservation
    rcases List.mem_append.mp hobservation with hold | hnew
    · exact holds_dictSet hsame (hrefer observation hold)
    · rw [List.mem_singleton.mp hnew]
      change AssertionLedger.Holds _ call.assertionId
      rw [← hid]
      exact holds_dictSet_self

theorem ObservationsRefer.step (hrefer : ObservationsRefer ledger)
    (hfirst : ChecksFirst unicode ledger args) :
    ObservationsRefer (ledger.upsertArguments unicode args).1 := by
  have hatomic : Atomic unicode ledger args := atomic_iff.mpr hfirst
  have hcases : ArgumentsCase unicode ledger args (ledger.upsertArguments unicode args) :=
    upsertArguments_cases
  unfold Atomic at hatomic
  generalize ledger.upsertArguments unicode args = after at hcases hatomic
  cases hcases with
  | refused => exact hrefer
  | passed call =>
    have hcase := upsert_cases unicode ledger call
    cases hresult : (ledger.upsert unicode call).2 with
    | error message => rwa [hatomic message hresult]
    | ok result =>
      rw [hresult] at hcase
      exact hrefer.upsert hcase

end Runs

/-- The observation is recorded before the assertion that it needs has been made. So a call is
atomic exactly when the making of the assertion cannot fail after that, and a ledger that was
reached by such calls holds the assertion of every observation. -/
theorem upsert_atomic_iff (unicode : UnicodeData) :
    (∀ ledger args, Atomic unicode ledger args ↔ ChecksFirst unicode ledger args) ∧
    ∀ calls, (∀ before args, before ++ [args] <+: calls →
        ChecksFirst unicode (AssertionLedger.reached unicode before) args) →
      ObservationsRefer (AssertionLedger.reached unicode calls) := by
  refine ⟨fun ledger args ↦ atomic_iff, fun calls hcalls ↦ ?_⟩
  induction calls using List.reverseRecOn with
  | nil => exact fun observation hobservation ↦ absurd hobservation List.not_mem_nil
  | append_singleton calls args ih =>
    have hbefore :=
      ih fun before last hbegins ↦ hcalls before last (hbegins.trans (List.prefix_append _ _))
    have hstep := hbefore.step (hcalls calls args (List.prefix_refl _))
    rwa [reached_snoc]

def disputedLedger : AssertionLedger := .reached asciiData [triageArguments .disputed]

/-- The call raises, and its observation stays without an assertion. -/
theorem disputed_observation_stays :
    ¬ Atomic asciiData {} (triageArguments .disputed) ∧ ¬ ObservationsRefer disputedLedger := by
  have hcount : disputedLedger.observations.length = 1 := by decide
  have hnone : disputedLedger.byKey = [] := by decide
  constructor
  · intro h
    have hsame :=
      congrArg (fun l ↦ l.observations.length)
      (h "DISPUTED assertions require contradicting evidence" rfl)
    exact absurd (hcount.symm.trans hsame) Nat.one_ne_zero
  · intro h
    obtain ⟨observation, hobservation⟩ := List.exists_mem_of_length_pos (hcount ▸ Nat.one_pos)
    obtain ⟨key, assertion, hfound, -⟩ := h observation hobservation
    rw [hnone] at hfound
    cases hfound

theorem upsert_atomic_triage :
    Atomic asciiData {} (triageArguments .affirmed) ∧
    ObservationsRefer (.reached asciiData [triageArguments .affirmed]) := by
  have hmakes : (triageArguments .affirmed).MakesAssertion asciiData :=
    ⟨by decide, by decide, by decide⟩
  have h := upsert_atomic_iff asciiData
  refine ⟨(h.1 {} (triageArguments .affirmed)).mpr (.inr (.inr (.inr hmakes))),
    h.2 _ fun before args hbegins ↦ ?_⟩
  have hargs : args = triageArguments .affirmed := List.mem_singleton.mp (hbegins.subset (by simp))
  exact .inr (.inr (.inr (hargs ▸ hmakes)))

end AgenticSecurity.Assertions
