import AgenticSecurity.Library.KeyedLog
import AgenticSecurity.Storage.Corpus
import AgenticSecurity.Storage.PacketRoundTrip

namespace AgenticSecurity.Storage

open Library Models Python Runs KeyedLog

def stage : AvailabilityState → ℕ
  | .unknown => 0
  | .privatePreview => 1
  | .limitedPublicPreview => 2
  | .publicPreview => 3
  | .ga => 4
  | .deprecated => 5

theorem mem_allowed {a b : AvailabilityState} : b ∈ Lifecycle.allowed a ↔ stage a = 0 ∨
    stage a < stage b := by
  cases a <;> cases b <;> decide

theorem stage_eq_zero {state : AvailabilityState} : stage state = 0 ↔ state = .unknown := by
  cases state <;> decide

theorem stage_le (state : AvailabilityState) : stage state ≤ stage .deprecated := by
  cases state <;> decide

/-- Unknown at first, then strictly forward through at most five states, and recorded in the
order in which it was retrieved. -/
structure MovesForward (history : List LifecycleEvent) : Prop where
  states :
    ∃ unknowns known, history = unknowns ++ known ∧ (∀ event ∈ unknowns, event.state = .unknown) ∧
    (∀ event ∈ known, event.state ≠ .unknown) ∧ known.length ≤ 5 ∧
    known.Pairwise fun a b ↦ stage a.state < stage b.state
  neverUnknownAgain : history.Pairwise fun a b ↦ a.state ≠ .unknown → b.state ≠ .unknown
  deprecatedLast : history.Pairwise fun a _ ↦ a.state ≠ .deprecated
  retrieved : history.Pairwise fun a b ↦ a.retrievedAt.instant ≤ b.retrievedAt.instant

def Follows (a b : LifecycleEvent) : Prop :=
  Advances (fun event ↦ stage event.state) a b ∧ a.retrievedAt.instant ≤ b.retrievedAt.instant

theorem movesForward_of_chain {history : List LifecycleEvent} (h : history.IsChain Follows) :
    MovesForward history := by
  have hadvances := h.imp fun _ _ hfollows ↦ hfollows.1
  have htrans : IsTrans LifecycleEvent fun a b ↦ a.retrievedAt.instant ≤ b.retrievedAt.instant :=
    ⟨fun _ _ _ ↦ le_trans⟩
  have hpairs := pairwise_of_chain hadvances
  obtain ⟨unknowns, known, hsplit, hunknowns, hknown, hincreasing⟩ := split_of_chain hadvances
  constructor
  · refine ⟨unknowns, known, hsplit, fun event hevent ↦ stage_eq_zero.mp (hunknowns event hevent),
      fun event hevent ↦ mt stage_eq_zero.mpr (hknown event hevent), ?_, hincreasing⟩
    exact length_le_of_ranks (fun event hevent ↦ ⟨hknown event hevent,
      stage_le event.state⟩) hincreasing
  · refine hpairs.imp fun {a b} hab hknownState hunknown ↦ ?_
    have hb := stage_eq_zero.mpr hunknown
    have ha := mt stage_eq_zero.mp hknownState
    have hadvance : stage a.state = 0 ∨ stage a.state < stage b.state := hab
    omega
  · refine hpairs.imp fun {a b} hab hdeprecated ↦ ?_
    have hb := stage_le b.state
    have hadvance : stage a.state = 0 ∨ stage a.state < stage b.state := hab
    rw [hdeprecated] at hadvance
    simp only [stage] at hadvance hb
    omega
  · exact List.isChain_iff_pairwise.mp (h.imp fun _ _ hfollows ↦ hfollows.2)

section Histories

variable {ledger ledger' : Ledger} {event other : LifecycleEvent}

theorem entity_cases (event : LifecycleEvent) :
    (∃ system, event.systemId = some system ∧ event.agentId = none ∧
      Lifecycle.entity event = ("system", system)) ∨
    ∃ agent, event.systemId = none ∧ event.agentId = some agent ∧ Lifecycle.entity event = ("agent",
      agent) := by
  have haccepted := event.accepted
  unfold LifecycleFields.exactlyOneEntity at haccepted
  split_ifs at haccepted with hone
  cases hsystem : event.systemId with
  | some system =>
    have hagent : event.agentId = none := by simpa [hsystem] using hone
    refine .inl ⟨system, rfl, hagent, ?_⟩
    by_cases hempty : system = ""
    · simp [Lifecycle.entity, hsystem, hagent, truthy, hempty]
    · simp [Lifecycle.entity, hsystem, truthy, hempty]
  | none =>
    obtain ⟨agent, hagent⟩ := Option.ne_none_iff_exists'.mp (by simpa [hsystem] using hone)
    refine .inr ⟨agent, rfl, hagent, ?_⟩
    simp [Lifecycle.entity, hsystem, hagent, truthy]

theorem history_entity (ledger : Ledger) (entity : String × String) : ledger.history entity =
    entriesOf Lifecycle.entity (if entity.1 = "system" then "system" else "agent", entity.2)
      ledger.lifecycleEvents := by
  refine List.filter_congr fun event _ ↦ decide_eq_decide.mpr ?_
  rcases entity_cases event with ⟨system, hsystem, hagent, hentity⟩ | ⟨agent, hsystem,
    hagent, hentity⟩
  · rw [hentity, hsystem, hagent]
    by_cases hkind : entity.1 = "system" <;> simp [hkind]
  · rw [hentity, hsystem, hagent]
    by_cases hkind : entity.1 = "system" <;> simp [hkind]

theorem history_self (ledger : Ledger) (event : LifecycleEvent) :
    ledger.history (Lifecycle.entity event) =
      entriesOf Lifecycle.entity (Lifecycle.entity event) ledger.lifecycleEvents := by
  rw [history_entity]
  rcases entity_cases event with ⟨system, -, -, hentity⟩ | ⟨agent, -, -, hentity⟩ <;>
    rw [hentity] <;> rfl

theorem validateTransition_ok {history : List LifecycleEvent}
    (h : Lifecycle.validateTransition history event = .ok ()) :
    ∀ last ∈ history.getLast?, Follows last event := by
  intro last hlast
  unfold Lifecycle.validateTransition at h
  rw [Option.mem_def.mp hlast] at h
  dsimp only at h
  split_ifs at h with _ hstate htime
  exact ⟨mem_allowed.mp hstate, not_lt.mp htime⟩

theorem appendLifecycle_chained (hchained : Chained Lifecycle.entity Follows ledger.lifecycleEvents)
    (h : ledger.appendLifecycle event = .ok ledger') :
    Chained Lifecycle.entity Follows ledger'.lifecycleEvents := by
  obtain ⟨hvalid, rfl⟩ := appendLifecycle_ok h
  rw [history_self] at hvalid
  exact hchained.snoc (validateTransition_ok hvalid)

theorem attempts_chained (start : Ledger) (events : List LifecycleEvent) :
    Chained Lifecycle.entity Follows
    (attempts Ledger.appendLifecycle { start with lifecycleEvents :=
        [] } events).lifecycleEvents := by
  refine attempts_invariant (fun l : Ledger ↦ Chained Lifecycle.entity Follows l.lifecycleEvents)
    chained_nil ?_
  exact fun _ _ _ _ hinv happend ↦ appendLifecycle_chained hinv happend

theorem appendLifecycle_isOk_of_other (hentity : Lifecycle.entity event ≠ Lifecycle.entity other)
    (hid : event.id ≠ other.id) (h : ledger.appendLifecycle event = .ok ledger') :
    (ledger'.appendLifecycle other).isOk = (ledger.appendLifecycle other).isOk := by
  obtain ⟨-, rfl⟩ := appendLifecycle_ok h
  have hhistory :
      Ledger.history { ledger with lifecycleEvents := ledger.lifecycleEvents ++ [event] }
      (Lifecycle.entity other) = ledger.history (Lifecycle.entity other) := by
    rw [history_self, history_self]
    exact entriesOf_snoc_of_ne hentity
  unfold Ledger.appendLifecycle
  rw [hhistory]
  have hseen : other.id ∈ (ledger.lifecycleEvents ++ [event]).map (·.id) ↔
      other.id ∈ ledger.lifecycleEvents.map (·.id) := by
    simp [hid.symm]
  simp only [hseen]
  cases (Lifecycle.validateTransition (ledger.history (Lifecycle.entity other)) other).mapError
    LedgerError.valueError with
  | error e => rfl
  | ok _ =>
    dsimp only [bind, Except.bind]
    split_ifs <;> rfl

end Histories

/-- Every history that appends reach moves forward. An append for one entity can stop an append
for another only by taking its id, which is unique in the table. -/
theorem lifecycle_moves_forward (start : Ledger) (events : List LifecycleEvent) :
    let ledger := attempts Ledger.appendLifecycle { start with lifecycleEvents := [] } events
    (∀ entity, MovesForward (ledger.history entity)) ∧
    ∀ event other, Lifecycle.entity event ≠ Lifecycle.entity other → event.id ≠ other.id →
      ((attempt Ledger.appendLifecycle ledger event).appendLifecycle other).isOk =
        (ledger.appendLifecycle other).isOk := by
  intro ledger
  have hchained := attempts_chained start events
  constructor
  · intro entity
    rw [history_entity]
    exact movesForward_of_chain (hchained _)
  · intro event other hentity hid
    cases h : ledger.appendLifecycle event with
    | error e => rw [attempt_error h]
    | ok ledger' =>
      rw [attempt_ok h]
      exact appendLifecycle_isOk_of_other hentity hid h

def guideTables : Ledger := { packetLedger guidePacket with lifecycleEvents := [] }

def agentEvent (id : LifecycleId) : LifecycleEvent where
  id := id
  agentId := some "guide-agent"
  state := .publicPreview
  effectiveAt := none
  evidenceId := guideEvidence.id
  sourceClass := .p1
  retrievedAt := sampleTime
  rationale := ""
  accepted := rfl

/-- The agent's event is refused because the system's has its id. -/
theorem shared_id_refused :
    Lifecycle.entity guideEvent ≠ Lifecycle.entity (agentEvent guideEvent.id) ∧
    (guideTables.appendLifecycle (agentEvent guideEvent.id)).isOk = true ∧
    ((attempt Ledger.appendLifecycle guideTables guideEvent).appendLifecycle
      (agentEvent guideEvent.id)).isOk = false := by
  decide

def systemEvent (id : LifecycleId) (state : AvailabilityState) : LifecycleEvent :=
  { guideEvent with id := id, state := state, accepted := rfl }

def previewThenGa : List LifecycleEvent :=
  [systemEvent { text := "LIFE-FIRST" } .publicPreview, guideEvent]

theorem lifecycle_moves_forward_guide :
    let ledger := attempts Ledger.appendLifecycle guideTables previewThenGa
    ledger.history ("system", "guide-system") = previewThenGa ∧
    MovesForward (ledger.history ("system", "guide-system")) ∧
    (ledger.appendLifecycle (agentEvent { text := "LIFE-AGENT" })).isOk = true ∧
    ((attempt Ledger.appendLifecycle ledger (agentEvent { text := "LIFE-AGENT" })).appendLifecycle
      (systemEvent { text := "LIFE-END" } .deprecated)).isOk = true := by
  intro ledger
  obtain ⟨hforward, hother⟩ := lifecycle_moves_forward guideTables previewThenGa
  refine ⟨by decide, hforward ("system", "guide-system"), by decide, ?_⟩
  have hsame :=
    hother (agentEvent { text := "LIFE-AGENT" }) (systemEvent { text := "LIFE-END" } .deprecated)
    (by decide) (by decide)
  exact hsame.trans (by decide)

end AgenticSecurity.Storage
