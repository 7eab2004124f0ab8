import AgenticSecurity.Assertions.Service
import Mathlib.Order.Bounds.Basic

namespace AgenticSecurity.Assertions

open Library Models Python Derivations

/-- The ledger after a call that returns. -/
def AssertionLedger.accept (unicode : UnicodeData) (ledger : AssertionLedger) (call : UpsertCall) :
    Option AssertionLedger :=
  match ledger.upsert unicode call with
  | (ledger, .ok _) => some ledger
  | (_, .error _) => none

variable {unicode : UnicodeData}

theorem accept_eq_some {ledger ledger' : AssertionLedger} {call : UpsertCall}
    (h : ledger.accept unicode call = some ledger') :
    ∃ assertion, UpsertCase unicode ledger call ledger' (some assertion) := by
  have hcases := upsert_cases unicode ledger call
  rw [AssertionLedger.accept] at h
  generalize ledger.upsert unicode call = after at h hcases
  obtain ⟨after, result⟩ := after
  cases result with
  | error message => cases h
  | ok result =>
    obtain rfl := Option.some.inj h
    exact ⟨result.assertion, hcases⟩

theorem UpsertCase.not_refused {ledger ledger' : AssertionLedger} {call : UpsertCall}
    {assertion : Assertion} (h : UpsertCase unicode ledger call ledger' (some assertion)) :
    ¬ call.Refused := by
  cases h with
  | attached _ haccepted => exact haccepted
  | created _ haccepted => exact haccepted

theorem accept_attached (unicode : UnicodeData) {ledger : AssertionLedger} {call : UpsertCall}
    {existing : Assertion} (haccepted : ¬ call.Refused)
    (hfound : ledger.byKey.lookup call.key = some existing) :
    ledger.accept unicode call = some
      { byKey := dictSet ledger.byKey call.key (attach existing call)
        observations := ledger.observations ++ [call.observation (some existing)] } := by
  have hcall : ¬ (call.state = .conditional ∧ call.scope.conditions = []) := haccepted
  rw [AssertionLedger.accept, AssertionLedger.upsert, if_neg hcall]
  simp only [hfound]

theorem accepted_of_exec {ledger final : AssertionLedger} {calls : List UpsertCall}
    (h : Runs.exec (AssertionLedger.accept unicode) ledger calls = some final) :
    ∀ call ∈ calls, ¬ call.Refused := by
  induction calls generalizing ledger with
  | nil => exact fun call hcall ↦ absurd hcall List.not_mem_nil
  | cons first calls ih =>
    obtain ⟨next, hnext, hrest⟩ := Runs.exec_cons.mp h
    obtain ⟨assertion, hcase⟩ := accept_eq_some hnext
    intro call hcall
    rcases List.mem_cons.mp hcall with rfl | hlater
    · exact hcase.not_refused
    · exact ih hrest call hlater

theorem exec_attached {ledger : AssertionLedger} {calls : List UpsertCall} {key : String}
    {existing : Assertion} (hfound : ledger.byKey.lookup key = some existing)
    (hkeys : ∀ call ∈ calls, call.key = key)
    (haccepted : ∀ call ∈ calls, ¬ call.Refused) :
    ∃ final, Runs.exec (AssertionLedger.accept unicode) ledger calls = some final ∧
      final.byKey.lookup key = some (calls.foldl attach existing) ∧
      final.observations = ledger.observations ++
        calls.map fun call ↦ call.observation (some existing) := by
  induction calls generalizing ledger existing with
  | nil => exact ⟨ledger, rfl, hfound, (List.append_nil _).symm⟩
  | cons call calls ih =>
    obtain rfl := hkeys call List.mem_cons_self
    have hnext := accept_attached unicode (haccepted call List.mem_cons_self) hfound
    let next : AssertionLedger :=
      { byKey := dictSet ledger.byKey call.key (attach existing call)
        observations := ledger.observations ++ [call.observation (some existing)] }
    have hupdated : next.byKey.lookup call.key = some (attach existing call) :=
      (lookup_dictSet _ _ _ _).trans (if_pos rfl)
    obtain ⟨final, hexec, hassertion, hobservations⟩ := ih hupdated
      (fun c hc ↦ hkeys c (List.mem_cons_of_mem _ hc))
        fun c hc ↦ haccepted c (List.mem_cons_of_mem _ hc)
    refine ⟨final, Runs.exec_cons.mpr ⟨_, hnext, hexec⟩, hassertion, hobservations.trans ?_⟩
    rw [List.append_assoc]
    rfl

theorem mem_foldl_attach {calls : List UpsertCall} {existing : Assertion} {e : EvidenceId} :
    e ∈ (calls.foldl attach existing).evidenceIds ↔
      e ∈ existing.evidenceIds ∨ ∃ call ∈ calls, call.evidenceId = e := by
  induction calls generalizing existing with
  | nil => simp
  | cons call calls ih =>
    rw [List.foldl_cons, ih]
    have hattach : e ∈ (attach existing call).evidenceIds ↔ e ∈ existing.evidenceIds ∨
        call.evidenceId = e :=
      mem_attachedEvidence.trans (or_congr_right eq_comm)
    simp only [hattach, List.mem_cons, exists_eq_or_imp, or_assoc]

theorem foldl_attach_verified (calls : List UpsertCall) (last : UpsertCall) (existing : Assertion) :
    ((calls ++ [last]).foldl attach existing).lastVerifiedAt = last.observedAt := by
  rw [List.foldl_append]
  rfl

theorem latest_perm {old new new' : List Observation} (hids : (new.map Observation.id).Nodup)
    (h : new'.Perm new) :
    latest (old ++ new') = latest (old ++ new) := by
  let later (best : Option Observation) (item : Observation) : Option Observation :=
    some (best.elim item fun best ↦ if observedBefore best item then item else best)
  have hfold : ∀ items, latest (old ++ items) = items.foldl later (latest old) := by
    intro items
    induction items using List.reverseRecOn with
    | nil => simp
    | append_singleton items item ih =>
      rw [← List.append_assoc, latest_snoc, ih, List.foldl_append]
      rfl
  rw [hfold, hfold]
  refine h.foldl_eq' (fun x hx y hy best ↦ ?_) _
  by_cases hsame : x = y
  · rw [hsame]
  · have hid : x.id ≠ y.id :=
      fun he ↦ hsame (List.inj_on_of_nodup_map hids (h.subset hx) (h.subset hy) he)
    cases best with
    | none =>
      simp only [later, Option.elim_none, Option.elim_some]
      rcases observedBefore_total hid with hlt | hgt
      · rw [if_pos hlt, if_neg (observedBefore_asymm hlt)]
      · rw [if_pos hgt, if_neg (observedBefore_asymm hgt)]
    | some best =>
      simp only [later, Option.elim_some]
      rcases observedBefore_total hid with hlt | hgt
      · have hnot := observedBefore_asymm hlt
        by_cases hx' : observedBefore best x = true
        · have hy' : observedBefore best y = true :=
            observedBefore_of_not (observedBefore_asymm hx') hlt
          rw [if_pos hx', if_pos hlt, if_pos hy', if_neg hnot]
        · rw [if_neg hx']
          by_cases hy' : observedBefore best y = true
          · rw [if_pos hy', if_neg hnot]
          · rw [if_neg hy', if_neg hx']
      · have hnot := observedBefore_asymm hgt
        by_cases hy' : observedBefore best y = true
        · have hx' : observedBefore best x = true :=
            observedBefore_of_not (observedBefore_asymm hy') hgt
          rw [if_pos hx', if_neg hnot, if_pos hy', if_pos hgt]
        · rw [if_neg hy']
          by_cases hx' : observedBefore best x = true
          · rw [if_pos hx', if_neg hnot]
          · rw [if_neg hx', if_neg hy']

def verifiedInstants (existing : Assertion) (calls : List UpsertCall) : Set ℤ :=
  {t | t = existing.lastVerifiedAt.instant ∨ ∃ call ∈ calls, call.observedAt.instant = t}

/-- What the calls come to in every order: the same time of verification, which is the latest
of all, the same evidence and the same scope. -/
def OrderIrrelevant (unicode : UnicodeData) (ledger : AssertionLedger) (key : String)
    (existing : Assertion) (calls : List UpsertCall) : Prop :=
  ∀ calls', calls'.Perm calls → ∃ final final' : AssertionLedger,
  ∃ assertion assertion' : Assertion,
    Runs.exec (AssertionLedger.accept unicode) ledger calls = some final ∧
    final.byKey.lookup key = some assertion ∧
    Runs.exec (AssertionLedger.accept unicode) ledger calls' = some final' ∧
    final'.byKey.lookup key = some assertion' ∧
    assertion'.lastVerifiedAt.instant = assertion.lastVerifiedAt.instant ∧
    (∀ e, e ∈ assertion'.evidenceIds ↔ e ∈ assertion.evidenceIds) ∧
    final'.currentScope existing.id = final.currentScope existing.id ∧
    IsGreatest (verifiedInstants existing calls) assertion'.lastVerifiedAt.instant

/-- Every call is of one instant, which is not before the last verification. -/
def OneInstant (existing : Assertion) (calls : List UpsertCall) : Prop :=
  ∀ call ∈ calls, existing.lastVerifiedAt.instant ≤ call.observedAt.instant ∧
    ∀ other ∈ calls, other.observedAt.instant = call.observedAt.instant

theorem OneInstant.greatest {existing : Assertion} {calls calls' : List UpsertCall}
    (h : OneInstant existing calls) (hperm : calls'.Perm calls) :
    IsGreatest (verifiedInstants existing calls)
      (calls'.foldl attach existing).lastVerifiedAt.instant := by
  induction calls' using List.reverseRecOn with
  | nil =>
    obtain rfl := List.nil_perm.mp hperm
    refine ⟨.inl rfl, ?_⟩
    rintro t (rfl | ⟨call, hcall, -⟩)
    · exact le_rfl
    · cases hcall
  | append_singleton front last _ =>
    have hlast : last ∈ calls :=
      hperm.subset (List.mem_append_right _ (List.mem_singleton_self last))
    rw [foldl_attach_verified]
    refine ⟨.inr ⟨last, hlast, rfl⟩, ?_⟩
    rintro t (rfl | ⟨call, hcall, rfl⟩)
    · exact (h last hlast).1
    · exact ((h last hlast).2 call hcall).le

/-- Evidence and scope do not depend on the order of the calls. The time of verification is the
last call's, so that it does not either only where they all have one instant. -/
theorem order_irrelevant_iff (unicode : UnicodeData) {ledger : AssertionLedger} {key : String}
    {existing : Assertion} {calls : List UpsertCall}
    (hfound : ledger.byKey.lookup key = some existing)
    (hkeys : ∀ call ∈ calls, call.key = key) (hids : (calls.map UpsertCall.observationId).Nodup)
    (hsucceed : (Runs.exec (AssertionLedger.accept unicode) ledger calls).isSome) :
    OrderIrrelevant unicode ledger key existing calls ↔ OneInstant existing calls := by
  obtain ⟨run, hrun⟩ := Option.isSome_iff_exists.mp hsucceed
  have haccepted := accepted_of_exec hrun
  have hruns : ∀ {calls' : List UpsertCall}, calls'.Perm calls → ∃ final,
      Runs.exec (AssertionLedger.accept unicode) ledger calls' = some final ∧
      final.byKey.lookup key = some (calls'.foldl attach existing) ∧
      final.observations = ledger.observations ++
        calls'.map fun call ↦ call.observation (some existing) :=
    fun hperm ↦ exec_attached hfound (fun call hcall ↦ hkeys call (hperm.subset hcall))
      fun call hcall ↦ haccepted call (hperm.subset hcall)
  obtain ⟨final, hexec, hassertion, hobservations⟩ := hruns (.refl calls)
  constructor
  · -- every call can be made the last one
    intro h
    have hgreatest :
        ∀ call ∈ calls, IsGreatest (verifiedInstants existing calls) call.observedAt.instant := by
      intro call hcall
      have hperm : (calls.erase call ++ [call]).Perm calls :=
        (List.perm_append_singleton call (calls.erase call)).trans (List.perm_cons_erase hcall).symm
      obtain ⟨-, final', -, assertion', -, -, hexec', hassertion', -, -, -, hmax⟩ := h _ hperm
      obtain ⟨last, hlast, hverified, -⟩ := hruns hperm
      obtain rfl := Option.some.inj (hexec'.symm.trans hlast)
      obtain rfl := Option.some.inj (hassertion'.symm.trans hverified)
      rwa [foldl_attach_verified] at hmax
    intro call hcall
    refine ⟨(hgreatest call hcall).2 (.inl rfl), fun other hother ↦ ?_⟩
    exact (hgreatest other hother).unique (hgreatest call hcall)
  · intro h calls' hperm
    obtain ⟨final', hexec', hassertion', hobservations'⟩ := hruns hperm
    refine ⟨final, final', _, _, hexec, hassertion, hexec', hassertion', ?_,
      fun e ↦ ?_, ?_, h.greatest hperm⟩
    · exact (h.greatest hperm).unique (h.greatest (.refl calls))
    · simp only [mem_foldl_attach, hperm.mem_iff]
    · let observed : List UpsertCall → List Observation :=
        List.map fun call ↦ call.observation (some existing)
      have hsplit : ∀ {u : AssertionLedger} {cs : List UpsertCall},
          u.observations = ledger.observations ++ observed cs →
            u.accepted existing.id = ledger.accepted existing.id ++ observed cs := by
        intro u cs hu
        rw [AssertionLedger.accepted, hu, List.filter_append, ← AssertionLedger.accepted]
        congr 1
        refine List.filter_eq_self.mpr fun item hitem ↦ ?_
        obtain ⟨call, -, rfl⟩ := List.mem_map.mp hitem
        simp [UpsertCall.observation]
      have hnodup : ((observed calls).map Observation.id).Nodup := by
        rw [List.map_map]
        exact hids
      rw [currentScope_eq, currentScope_eq, hsplit hobservations', hsplit hobservations,
        latest_perm hnodup (hperm.map _)]

def triageDay : Date := ⟨2026, 2, 2, by decide⟩

def firstCall : UpsertCall where
  assertionId := { text := "ASRT-TRIAGE" }
  observationId := { text := "OBS-TRIAGE" }
  slots :=
    { system := "copilot", subjectType := .capability, subject := "triage", action := "ranks",
      object := "alerts" }
  statement := "Copilot ranks alerts."
  canonicalRendering := "copilot ranks alerts"
  scope := {}
  state := .affirmed
  confidence := .medium
  confidenceRationale := "one official page"
  evidenceId := { text := "EV-TRIAGE" }
  observedAt := .midnight triageDay
  methodologyVersion := "ASI-1.0"
  taxonomyVersion := "ASI-TAXONOMY-1.1"

def firstAssertion : Assertion where
  toAssertionFields := firstCall.fields
  accepted := (enforceSemantics_fields firstCall).trans rfl

def firstLedger : AssertionLedger := ({} : AssertionLedger).after asciiData firstCall

def lateCall : UpsertCall :=
  { firstCall with
    observationId := { text := "OBS-LATE" }, evidenceId := { text := "EV-LATE" },
    observedAt := .midnight sampleDay }

theorem firstLedger_found : firstLedger.byKey.lookup firstCall.key = some firstAssertion := rfl

theorem lateCall_key :
    ∀ call ∈ [lateCall], call.key = firstCall.key := fun _ h ↦ List.mem_singleton.mp h ▸ rfl

theorem late_observation_ages :
    ¬ OrderIrrelevant asciiData firstLedger firstCall.key firstAssertion [lateCall] := by
  intro h
  obtain ⟨-, final, -, assertion, -, -, hexec, hassertion, -, -, -, hgreatest⟩ :=
    h [lateCall] (.refl _)
  have haccepted :
      ∀ call ∈ [lateCall], ¬ call.Refused := by simp [UpsertCall.Refused, lateCall, firstCall]
  obtain ⟨run, hrun, hverified, -⟩ := exec_attached firstLedger_found lateCall_key haccepted
  obtain rfl := Option.some.inj (hexec.symm.trans hrun)
  obtain rfl := Option.some.inj (hassertion.symm.trans hverified)
  exact absurd (hgreatest.2 (.inl rfl)) (by decide)

def repeatedCall : UpsertCall :=
  { firstCall with
    observationId := { text := "OBS-REPEATED" }, evidenceId := { text := "EV-REPEATED" } }

def confirmingCall : UpsertCall :=
  { firstCall with
    observationId := { text := "OBS-CONFIRMING" }, evidenceId := { text := "EV-CONFIRMING" } }

theorem order_irrelevant_iff_firstLedger :
    (∃ final final' : AssertionLedger, ∃ assertion assertion' : Assertion,
      Runs.exec (AssertionLedger.accept asciiData) firstLedger [repeatedCall, confirmingCall] =
        some final ∧
      final.byKey.lookup firstCall.key = some assertion ∧
      Runs.exec (AssertionLedger.accept asciiData) firstLedger [confirmingCall, repeatedCall] =
        some final' ∧
      final'.byKey.lookup firstCall.key = some assertion' ∧
      assertion'.lastVerifiedAt.instant = assertion.lastVerifiedAt.instant ∧
      ∀ e, e ∈ assertion'.evidenceIds ↔ e ∈ assertion.evidenceIds) ∧
    ¬ OrderIrrelevant asciiData firstLedger firstCall.key firstAssertion [lateCall,
      repeatedCall] := by
  constructor
  · have hiff :=
      @order_irrelevant_iff asciiData _ _ _ [repeatedCall, confirmingCall] firstLedger_found
      (by decide) (by decide) rfl
    have honce : OneInstant firstAssertion [repeatedCall, confirmingCall] := by
      unfold OneInstant
      decide
    obtain ⟨final, final', assertion, assertion', hexec, hfound, hexec', hfound', hverified,
        hevidence, -⟩ :=
      hiff.mpr honce [confirmingCall, repeatedCall] (.swap _ _ _)
    exact ⟨final, final', assertion, assertion', hexec, hfound, hexec', hfound',
      hverified, hevidence⟩
  · have hiff := @order_irrelevant_iff asciiData _ _ _ [lateCall, repeatedCall] firstLedger_found
      (by decide) (by decide) rfl
    have htwice : ¬ OneInstant firstAssertion [lateCall, repeatedCall] := by
      unfold OneInstant
      decide
    exact fun h ↦ htwice (hiff.mp h)

/-- Every supporting id was supplied by a call on the key with the state of the assertion. -/
def EvidenceAgrees (history : List UpsertCall) (ledger : AssertionLedger) : Prop :=
  ∀ key assertion, ledger.byKey.lookup key = some assertion → ∀ e ∈ assertion.evidenceIds,
    ∃ call ∈ history, call.key = key ∧ call.evidenceId = e ∧ call.state = assertion.state

/-- A call on a key with an assertion states the same, or brings evidence that it has. -/
def SuppliesState (ledger : AssertionLedger) (call : UpsertCall) : Prop :=
  ∀ existing, ledger.byKey.lookup call.key = some existing →
    call.state = existing.state ∨ call.evidenceId ∈ existing.evidenceIds

def AllSupplied (history : List UpsertCall) (ledger : AssertionLedger) : Prop :=
  ∀ call ∈ history, ∃ assertion, ledger.byKey.lookup call.key = some assertion ∧
    call.evidenceId ∈ assertion.evidenceIds

theorem lookup_accept {ledger ledger' : AssertionLedger} {call : UpsertCall} {assertion : Assertion}
    (h : UpsertCase unicode ledger call ledger' (some assertion)) (key : String) :
    ledger'.byKey.lookup key = if key = call.key then some assertion
      else ledger.byKey.lookup key := by
  cases h with
  | attached => exact lookup_dictSet _ _ _ _
  | created => exact lookup_dictSet _ _ _ _

theorem AllSupplied.accept {history : List UpsertCall} {ledger ledger' : AssertionLedger}
    {call : UpsertCall} (h : AllSupplied history ledger)
    (hcall : ledger.accept unicode call = some ledger') :
    AllSupplied (history ++ [call]) ledger' := by
  obtain ⟨assertion, hcase⟩ := accept_eq_some hcall
  have hlookup := lookup_accept hcase
  intro earlier hearlier
  by_cases hkey : earlier.key = call.key
  · refine ⟨assertion, (hlookup _).trans (if_pos hkey), ?_⟩
    cases hcase with
    | attached existing haccepted hfound =>
      refine mem_attachedEvidence.mpr ?_
      rcases List.mem_append.mp hearlier with hold | hnew
      · obtain ⟨old, hold, hmem⟩ := h earlier hold
        obtain rfl := Option.some.inj (hfound.symm.trans (hkey ▸ hold))
        exact .inl hmem
      · exact .inr (congrArg _ (List.mem_singleton.mp hnew))
    | created _ haccepted hfound hmakes hfields =>
      rcases List.mem_append.mp hearlier with hold | hnew
      · obtain ⟨old, hold, -⟩ := h earlier hold
        rw [hkey, hfound] at hold
        cases hold
      · obtain rfl := List.mem_singleton.mp hnew
        rw [hfields]
        exact List.mem_singleton_self _
  · rcases List.mem_append.mp hearlier with hold | hnew
    · obtain ⟨old, hold, hmem⟩ := h earlier hold
      exact ⟨old, (hlookup _).trans ((if_neg hkey).trans hold), hmem⟩
    · exact absurd (congrArg UpsertCall.key (List.mem_singleton.mp hnew)) hkey

theorem EvidenceAgrees.accept {history : List UpsertCall} {ledger ledger' : AssertionLedger}
    {call : UpsertCall} (h : EvidenceAgrees history ledger)
    (hcall : ledger.accept unicode call = some ledger')
    (hsupplies : SuppliesState ledger call) : EvidenceAgrees (history ++ [call]) ledger' := by
  obtain ⟨assertion, hcase⟩ := accept_eq_some hcall
  have hlookup := lookup_accept hcase
  have hold : ∀ {key e} old, ledger.byKey.lookup key = some old → e ∈ old.evidenceIds →
      ∃ c ∈ history ++ [call], c.key = key ∧ c.evidenceId = e ∧ c.state = old.state := by
    intro key e old hfound he
    obtain ⟨c, hc, hfits⟩ := h key old hfound e he
    exact ⟨c, List.mem_append_left _ hc, hfits⟩
  intro key current hcurrent e he
  rw [hlookup] at hcurrent
  split_ifs at hcurrent with hkey
  · obtain rfl := Option.some.inj hcurrent
    subst hkey
    have hself : call ∈ history ++ [call] := List.mem_append_right _ (List.mem_singleton_self call)
    cases hcase with
    | attached existing haccepted hfound =>
      rcases mem_attachedEvidence.mp he with hthere | rfl
      · exact hold existing hfound hthere
      · rcases hsupplies existing hfound with hstate | hthere
        · exact ⟨call, hself, rfl, rfl, hstate⟩
        · exact hold existing hfound hthere
    | created _ haccepted hfound hmakes hfields =>
      rw [hfields] at he
      refine ⟨call, hself, rfl, (List.mem_singleton.mp he).symm, ?_⟩
      rw [hfields]
      rfl
  · exact hold current hcurrent he

theorem EvidenceAgrees.supplies {history : List UpsertCall} {ledger ledger' : AssertionLedger}
    {call : UpsertCall} (h : EvidenceAgrees (history ++ [call]) ledger')
    (hsupplied : AllSupplied history ledger)
    (hcall : ledger.accept unicode call = some ledger') : SuppliesState ledger call := by
  intro existing hfound
  obtain ⟨assertion, hcase⟩ := accept_eq_some hcall
  have hlookup := (lookup_accept hcase call.key).trans (if_pos rfl)
  cases hcase with
  | attached existing' haccepted hfound' =>
    obtain rfl := Option.some.inj (hfound.symm.trans hfound')
    obtain ⟨c, hc, hkey, hevidence, hstate⟩ :=
      h call.key _ hlookup call.evidenceId (mem_attachedEvidence.mpr (.inr rfl))
    rcases List.mem_append.mp hc with hold | hnew
    · obtain ⟨old, hold, hmem⟩ := hsupplied c hold
      obtain rfl := Option.some.inj (hfound.symm.trans (hkey ▸ hold))
      exact .inr (hevidence ▸ hmem)
    · obtain rfl := List.mem_singleton.mp hnew
      exact .inl hstate
  | created _ haccepted hnone hmakes hfields => cases hfound.symm.trans hnone

/-- In a run of successful calls the evidence agrees with the state all the way exactly where
every call on a key with an assertion states the same or brings no new evidence. -/
theorem evidence_agrees_iff (unicode : UnicodeData) (calls : List UpsertCall)
    (final : AssertionLedger)
    (hrun : Runs.exec (AssertionLedger.accept unicode) {} calls = some final) :
    (∀ history ledger, history <+: calls →
      Runs.exec (AssertionLedger.accept unicode) {} history = some ledger →
      EvidenceAgrees history ledger) ↔
    ∀ history call ledger, history ++ [call] <+: calls →
      Runs.exec (AssertionLedger.accept unicode) {} history = some ledger →
      SuppliesState ledger call := by
  have hsnoc : ∀ {history : List UpsertCall} {call : UpsertCall} {ledger' : AssertionLedger},
      Runs.exec (AssertionLedger.accept unicode) {} (history ++ [call]) = some ledger' →
      ∃ ledger, Runs.exec (AssertionLedger.accept unicode) {} history = some ledger ∧
        ledger.accept unicode call = some ledger' := by
    intro history call ledger' hexec
    obtain ⟨ledger, hledger, hlast⟩ := Runs.exec_append.mp hexec
    obtain ⟨_, hcall, hnil⟩ := Runs.exec_cons.mp hlast
    obtain rfl := Option.some.inj hnil
    exact ⟨ledger, hledger, hcall⟩
  have hsupplied : ∀ {history : List UpsertCall} {ledger : AssertionLedger},
      Runs.exec (AssertionLedger.accept unicode) {} history = some ledger →
      AllSupplied history ledger := by
    intro history ledger hexec
    induction history using List.reverseRecOn generalizing ledger with
    | nil => exact fun call hcall ↦ absurd hcall List.not_mem_nil
    | append_singleton history call ih =>
      obtain ⟨before, hbefore, hcall⟩ := hsnoc hexec
      exact (ih hbefore).accept hcall
  constructor
  · rintro hagrees history call ledger ⟨rest, hrest⟩ hledger
    rw [← hrest] at hrun
    obtain ⟨next, hnext, -⟩ := Runs.exec_append.mp hrun
    obtain ⟨before, hbefore, hcall⟩ := hsnoc hnext
    obtain rfl := Option.some.inj (hbefore.symm.trans hledger)
    exact (hagrees _ next ⟨rest, hrest⟩ hnext).supplies (hsupplied hledger) hcall
  · intro hsupplies history
    induction history using List.reverseRecOn with
    | nil =>
      intro ledger _ hledger
      obtain rfl := Option.some.inj hledger
      exact fun key assertion hfound ↦ by cases hfound
    | append_singleton history call ih =>
      intro ledger hpre hledger
      obtain ⟨before, hbefore, hcall⟩ := hsnoc hledger
      have hagrees := ih before ((List.prefix_append history [call]).trans hpre) hbefore
      exact hagrees.accept hcall (hsupplies history call before hpre hbefore)

def denyingCall : UpsertCall :=
  { lateCall with state := .explicitlyUnsupported, statement := "Copilot ranks no alerts." }

theorem denial_supports :
    ∃ ledger, Runs.exec (AssertionLedger.accept asciiData) {} [firstCall,
      denyingCall] = some ledger ∧
    ¬ EvidenceAgrees [firstCall, denyingCall] ledger := by
  refine ⟨_, rfl, fun h ↦ ?_⟩
  obtain ⟨call, hcall, -, hevidence, hstate⟩ :=
    h firstCall.key (attach firstAssertion denyingCall) rfl denyingCall.evidenceId
      (mem_attachedEvidence.mpr (.inr rfl))
  rcases List.mem_pair.mp hcall with rfl | rfl
  · exact absurd hevidence (by decide)
  · exact absurd hstate (by decide)

theorem evidence_agrees_iff_denial :
    ∃ final, Runs.exec (AssertionLedger.accept asciiData) {} [firstCall, denyingCall] = some final ∧
    ((∀ history ledger, history <+: [firstCall, denyingCall] →
      Runs.exec (AssertionLedger.accept asciiData) {} history = some ledger →
      EvidenceAgrees history ledger) ↔
    ∀ history call ledger, history ++ [call] <+: [firstCall, denyingCall] →
      Runs.exec (AssertionLedger.accept asciiData) {} history = some ledger →
      SuppliesState ledger call) :=
  ⟨_, rfl, evidence_agrees_iff asciiData [firstCall, denyingCall] _ rfl⟩

/-- Every conditional assertion has conditions in its current scope. -/
def ConditionsKept (ledger : AssertionLedger) : Prop :=
  ∀ key assertion, ledger.byKey.lookup key = some assertion → assertion.state = .conditional →
    (ledger.currentScope assertion.id).conditions ≠ []

def AssertionLedger.records (ledger : AssertionLedger) (call : UpsertCall) : Observation :=
  call.observation (ledger.byKey.lookup call.key)

def AssertionLedger.ConditionalUnder (unicode : UnicodeData) (ledger : AssertionLedger)
    (call : UpsertCall) : Prop :=
  (∃ key assertion, ledger.byKey.lookup key = some assertion ∧ assertion.state = .conditional ∧
    assertion.id = (ledger.records call).assertionId) ∨
  (ledger.byKey.lookup call.key = none ∧ call.state = .conditional ∧ call.MakesAssertion unicode)

def AssertionLedger.latestConditions (ledger : AssertionLedger) (call : UpsertCall) : List String :=
  let observation := ledger.records call
  if (ledger.accepted observation.assertionId).all fun item ↦ observedBefore item observation then
    call.scope.conditions
  else (ledger.currentScope observation.assertionId).conditions

/-- The call raises before it records anything, or leaves conditions on what is conditional. -/
def AssertionLedger.KeepsConditions (unicode : UnicodeData) (ledger : AssertionLedger)
    (args : UpsertArguments) : Prop :=
  args.Refused ∨ ∀ call, args.call (ledger.byKey.lookup args.key) = some call →
    ledger.ConditionalUnder unicode call → ledger.latestConditions call ≠ []

theorem observedBefore_all_iff {observations : List Observation} {item : Observation} :
    (observations.all fun other ↦ observedBefore other item) = true ↔
      ∀ best ∈ latest observations, observedBefore best item = true := by
  rw [List.all_eq_true]
  constructor
  · exact fun h best hbest ↦ h best (latest_mem hbest)
  · intro h other hother
    cases hbest : latest observations with
    | none =>
      cases observations with
      | nil => cases hother
      | cons first rest => cases hbest
    | some best => exact observedBefore_of_not (latest_greatest hbest other hother) (h best hbest)

theorem currentScope_recorded (ledger : AssertionLedger) (call : UpsertCall)
    (byKey : List (String × Assertion)) :
    (({ byKey, observations := ledger.observations ++ [ledger.records call] } :
      AssertionLedger).currentScope (ledger.records call).assertionId).conditions =
      ledger.latestConditions call := by
  rw [currentScope_eq, AssertionLedger.records, accepted_snoc, if_pos rfl, latest_snoc,
    AssertionLedger.latestConditions]
  let item := call.observation (ledger.byKey.lookup call.key)
  have hiff :
      ((ledger.accepted item.assertionId).all fun other ↦ observedBefore other item) = true ↔
      ∀ best ∈ latest (ledger.accepted item.assertionId), observedBefore best item = true :=
    observedBefore_all_iff
  change ((latest (ledger.accepted item.assertionId)).elim item fun best ↦
    if observedBefore best item then item else best).scope.conditions =
      if (ledger.accepted item.assertionId).all fun other ↦ observedBefore other item then
        call.scope.conditions
      else (ledger.currentScope item.assertionId).conditions
  by_cases hall :
    ((ledger.accepted item.assertionId).all fun other ↦ observedBefore other item) = true
  · rw [if_pos hall]
    cases hbest : latest (ledger.accepted item.assertionId) with
    | none => rfl
    | some best =>
      rw [Option.elim_some, if_pos (hiff.mp hall best hbest)]
      rfl
  · rw [if_neg hall, currentScope_eq]
    cases hbest : latest (ledger.accepted item.assertionId) with
    | none =>
      refine absurd (hiff.mpr fun best h ↦ ?_) hall
      cases hbest.symm.trans h
    | some best =>
      have hnot : ¬ observedBefore best item = true := fun h ↦
        hall (hiff.mpr fun other hother ↦ Option.some.inj (hbest.symm.trans hother) ▸ h)
      rw [Option.elim_some, if_neg hnot]
      rfl

theorem currentScope_other (ledger : AssertionLedger) (call : UpsertCall)
    (byKey : List (String × Assertion)) {assertionId : AssertionId}
    (h : (ledger.records call).assertionId ≠ assertionId) :
    ({ byKey, observations := ledger.observations ++ [ledger.records call] } :
      AssertionLedger).currentScope assertionId = ledger.currentScope assertionId := by
  have hother : (call.observation (ledger.byKey.lookup call.key)).assertionId ≠ assertionId := h
  rw [currentScope_eq, AssertionLedger.records, accepted_snoc, if_neg hother, ← currentScope_eq]

/-- What a call that is not refused leaves: its observation, and for each key an assertion of the
same id and state as before or, where the call creates one, of its own. -/
structure Recorded (unicode : UnicodeData) (ledger : AssertionLedger) (call : UpsertCall)
    (after : AssertionLedger) :
    Prop where
  observations : after.observations = ledger.observations ++ [ledger.records call]
  kept : ∀ key old, ledger.byKey.lookup key = some old →
    ∃ new, after.byKey.lookup key = some new ∧ new.id = old.id ∧ new.state = old.state
  known : ∀ key new, after.byKey.lookup key = some new →
    (∃ old, ledger.byKey.lookup key = some old ∧ new.id = old.id ∧ new.state = old.state) ∨
      (ledger.byKey.lookup call.key = none ∧ call.MakesAssertion unicode ∧
        new.id = (ledger.records call).assertionId ∧ new.state = call.state)
  created : ledger.byKey.lookup call.key = none → call.MakesAssertion unicode →
    ∃ new, after.byKey.lookup call.key = some new ∧ new.id = (ledger.records call).assertionId ∧
      new.state = call.state

theorem upsert_recorded {ledger : AssertionLedger} {call : UpsertCall}
    (haccepted : ¬ call.Refused) :
    Recorded unicode ledger call (ledger.upsert unicode call).1 := by
  have hcases := upsert_cases unicode ledger call
  generalize (ledger.upsert unicode call).1 = after at hcases ⊢
  generalize (ledger.upsert unicode call).2.toOption.map UpsertResult.assertion =
    assertion at hcases
  cases hcases with
  | refused hrefused => exact absurd hrefused haccepted
  | attached existing _ hfound =>
    have hlookup := lookup_dictSet ledger.byKey call.key (attach existing call)
    refine ⟨?_, fun key old hold ↦ ?_, fun key new hnew ↦ ?_, fun hnone ↦ ?_⟩
    · rw [AssertionLedger.records, hfound]
    · by_cases hkey : key = call.key
      · subst hkey
        obtain rfl := Option.some.inj (hfound.symm.trans hold)
        exact ⟨_, (hlookup _).trans (if_pos rfl), rfl, rfl⟩
      · exact ⟨old, (hlookup _).trans ((if_neg hkey).trans hold), rfl, rfl⟩
    · rw [hlookup] at hnew
      split_ifs at hnew with hkey
      · subst hkey
        obtain rfl := Option.some.inj hnew
        exact .inl ⟨existing, hfound, rfl, rfl⟩
      · exact .inl ⟨new, hnew, rfl, rfl⟩
    · cases hfound.symm.trans hnone
  | invalid _ hfound hmakes =>
    refine ⟨?_, fun key old hold ↦ ⟨old, hold, rfl, rfl⟩, fun key new hnew ↦ .inl ⟨new, hnew,
      rfl, rfl⟩, ?_⟩
    · rw [AssertionLedger.records, hfound]
    · exact fun _ hmakes' ↦ absurd hmakes' hmakes
  | created assertion _ hfound hmakes hfields =>
    have hlookup := lookup_dictSet ledger.byKey call.key assertion
    have hid : assertion.id = (ledger.records call).assertionId := by
      rw [hfields, AssertionLedger.records, hfound]
      rfl
    have hsame : assertion.state = call.state := by
      rw [hfields]
      rfl
    refine ⟨?_, fun key old hold ↦ ?_, fun key new hnew ↦ ?_, fun _ _ ↦ ?_⟩
    · rw [AssertionLedger.records, hfound]
    · have hkey : key ≠ call.key := fun h ↦ by cases (h ▸ hfound).symm.trans hold
      exact ⟨old, (hlookup _).trans ((if_neg hkey).trans hold), rfl, rfl⟩
    · rw [hlookup] at hnew
      split_ifs at hnew with hkey
      · obtain rfl := Option.some.inj hnew
        exact .inr ⟨hfound, hmakes, hid, hsame⟩
      · exact .inl ⟨new, hnew, rfl, rfl⟩
    · exact ⟨assertion, (hlookup _).trans (if_pos rfl), hid, hsame⟩

theorem Recorded.conditions {ledger after : AssertionLedger} {call : UpsertCall}
    (h : Recorded unicode ledger call after) (assertionId : AssertionId) :
    (after.currentScope assertionId).conditions =
      if (ledger.records call).assertionId = assertionId then ledger.latestConditions call
      else (ledger.currentScope assertionId).conditions := by
  obtain ⟨byKey, observations⟩ := after
  obtain rfl : observations = _ := h.observations
  split_ifs with hid
  · rw [← hid, currentScope_recorded]
  · rw [currentScope_other ledger call byKey hid]

theorem upsertArguments_recorded (unicode : UnicodeData) (ledger : AssertionLedger)
    (args : UpsertArguments) :
    ((args.Refused ∨ args.call (ledger.byKey.lookup args.key) = none) ∧
        (ledger.upsertArguments unicode args).1 = ledger) ∨
      ∃ call, ¬ args.Refused ∧ args.call (ledger.byKey.lookup args.key) = some call ∧
        Recorded unicode ledger call (ledger.upsertArguments unicode args).1 := by
  have hcases : ArgumentsCase unicode ledger args (ledger.upsertArguments unicode args) :=
    upsertArguments_cases
  generalize ledger.upsertArguments unicode args = after at hcases ⊢
  cases hcases with
  | refused message hearly => exact .inl ⟨hearly, rfl⟩
  | passed call haccepted hcall =>
    obtain ⟨-, hstate, hscope, -⟩ := call_eq hcall
    have haccepted' : ¬ call.Refused := by rwa [UpsertCall.Refused, hstate, hscope]
    exact .inr ⟨call, haccepted, hcall, upsert_recorded haccepted'⟩

theorem ConditionsKept.step {ledger : AssertionLedger} {args : UpsertArguments}
    (h : ConditionsKept ledger) (hkeeps : ledger.KeepsConditions unicode args) :
    ConditionsKept (ledger.upsertArguments unicode args).1 := by
  rcases upsertArguments_recorded unicode ledger args with ⟨-, hsame⟩ | ⟨call, haccepted,
    hcall, hrecorded⟩
  · rw [hsame]
    exact h
  · have hlatest := hkeeps.resolve_left haccepted call hcall
    intro key new hnew hstate
    rw [hrecorded.conditions]
    split_ifs with hid
    · refine hlatest ?_
      rcases hrecorded.known key new hnew with ⟨old, hold, hsameId, hsameState⟩ | ⟨hnone, hmakes,
        -, hsameState⟩
      · exact .inl ⟨key, old, hold, hsameState ▸ hstate, hsameId.symm.trans hid.symm⟩
      · exact .inr ⟨hnone, hsameState ▸ hstate, hmakes⟩
    · rcases hrecorded.known key new hnew with ⟨old, hold, hsameId, hsameState⟩ | ⟨-, -, hsameId, -⟩
      · rw [hsameId]
        exact h key old hold (hsameState ▸ hstate)
      · exact absurd hsameId.symm hid

theorem ConditionsKept.keeps {ledger : AssertionLedger} {args : UpsertArguments}
    (h : ConditionsKept (ledger.upsertArguments unicode args).1) :
    ledger.KeepsConditions unicode args := by
  rcases upsertArguments_recorded unicode ledger args with ⟨hearly, -⟩ | ⟨call, -, hcall, hrecorded⟩
  · refine hearly.imp_right fun hnone call hcall ↦ ?_
    cases hnone.symm.trans hcall
  · right
    intro call' hcall' hconditional
    obtain rfl := Option.some.inj (hcall.symm.trans hcall')
    rcases hconditional with ⟨key, old, hold, hstate, hid⟩ | ⟨hnone, hstate, hmakes⟩
    · obtain ⟨new, hnew, hsameId, hsameState⟩ := hrecorded.kept key old hold
      have hconditions := h key new hnew (hsameState.trans hstate)
      rwa [hrecorded.conditions, if_pos (hid.symm.trans hsameId.symm)] at hconditions
    · obtain ⟨new, hnew, hid, hsame⟩ := hrecorded.created hnone hmakes
      have hconditions := h call.key new hnew (hsame.trans hstate)
      rwa [hrecorded.conditions, if_pos hid.symm] at hconditions

/-- The arguments of `firstCall` with another state. -/
def triageArguments (state : AssertionState) : UpsertArguments where
  assertionId := firstCall.assertionId.text
  observationId := firstCall.observationId.text
  slots := firstCall.slots
  statement := firstCall.statement
  canonicalRendering := firstCall.canonicalRendering
  scope := {}
  state := state
  confidence := .medium
  confidenceRationale := firstCall.confidenceRationale
  evidenceId := firstCall.evidenceId.text
  observedAt := firstCall.observedAt
  methodologyVersion := "ASI-1.0"
  taxonomyVersion := "ASI-TAXONOMY-1.1"

end AgenticSecurity.Assertions
