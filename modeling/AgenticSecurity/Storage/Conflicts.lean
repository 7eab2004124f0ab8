import AgenticSecurity.Editorial.Reports
import AgenticSecurity.Storage.ReadModels
import AgenticSecurity.Storage.Repositories

namespace AgenticSecurity.Storage

open Library Models Runs Editorial

def Ledger.resolved (ledger : Ledger) (id : ConflictId) : Bool :=
  ledger.contradictionResolutions.any fun r ↦ r.conflictId = id.text

/-- The readers report as open exactly the conflicts without a resolution, and a
flag has one status. -/
structure ConflictsAgree (ledger : Ledger) : Prop where
  conflicts : ∀ f ∈ ledger.contradictionFlags,
    (∃ c ∈ ledger.conflicts, c.id = f.id ∧ c.status = .pending) ↔ ledger.resolved f.id = false
  weekly : ∀ f ∈ ledger.contradictionFlags, ∀ weekEnding changes freshness trends available,
    f.id ∈ (buildWeeklyPack weekEnding changes ledger.conflicts freshness trends
      available).openConflictIds ↔ ledger.resolved f.id = false
  statuses : ∀ f ∈ ledger.contradictionFlags, f.status = f.payload.status

/-- The two statements of `add_resolution` succeed on this ledger: the id is new and
the conflict is stored. -/
def Ledger.admitsResolution (ledger : Ledger) (resolution : ContradictionResolution) : Bool :=
  resolution.id ∉ ledger.contradictionResolutions.map ResolutionRow.id &&
    resolution.conflictId ∈ ledger.contradictionFlags.map (·.id.text)

theorem pass2_conflictTables {ledger ledger' : Ledger} {call : Pass2Call}
    (h : ledger.pass2 call = .ok ledger') :
    (∃ conflict, call = .addConflict conflict ∧
      ledger'.contradictionFlags = ledger.contradictionFlags ++ [flagRow conflict] ∧
      ledger'.contradictionResolutions = ledger.contradictionResolutions) ∨
    (∃ resolution, call = .addResolution resolution ∧ ledger.admitsResolution resolution = true ∧
      ledger'.contradictionFlags = Table.updateWhere (fun r ↦ r.id.text = resolution.conflictId)
        (fun r ↦ { r with status := .confirmed }) ledger.contradictionFlags ∧
      ledger'.contradictionResolutions =
        ledger.contradictionResolutions ++ [resolutionRow resolution]) ∨
    (ledger'.contradictionFlags = ledger.contradictionFlags ∧
      ledger'.contradictionResolutions = ledger.contradictionResolutions) := by
  cases call with
  | addConflict conflict =>
    obtain ⟨-, rfl⟩ := addConflict_ok h
    exact .inl ⟨conflict, rfl, rfl, rfl⟩
  | addResolution resolution =>
    obtain ⟨hid, hflag, rfl⟩ := addResolution_ok.mp h
    refine .inr (.inl ⟨resolution, rfl, ?_, rfl, rfl⟩)
    simp only [Ledger.admitsResolution, Bool.and_eq_true, decide_eq_true_eq]
    exact ⟨hid, hflag⟩
  | addDiff diff =>
    obtain rfl := addDiff_ok h
    exact .inr (.inr ⟨rfl, rfl⟩)
  | addReview review =>
    obtain ⟨-, -, -, -, -, -, rfl⟩ := insertReview_ok h
    exact .inr (.inr ⟨rfl, rfl⟩)
  | addConfirmedChange change reviewId =>
    obtain ⟨_, _, _, _, _, _, _, _, rfl⟩ := addConfirmedChange_ok h
    exact .inr (.inr ⟨rfl, rfl⟩)

structure PendingPayload (f : FlagRow) : Prop where
  id : f.payload.id = f.id
  status : f.payload.status = .pending

def PayloadInv (ledger : Ledger) : Prop := ∀ f ∈ ledger.contradictionFlags, PendingPayload f

structure UnresolvedInv (ledger : Ledger) : Prop where
  columns : ∀ f ∈ ledger.contradictionFlags, f.status = .pending
  none : ledger.contradictionResolutions = []

def Pass2Call.addsPending (call : Pass2Call) : Prop :=
  ∀ conflict, call = .addConflict conflict → conflict.status = .pending

theorem pass2_payloads {ledger ledger' : Ledger} {call : Pass2Call} (hpending : call.addsPending)
    (hinv : PayloadInv ledger) (h : ledger.pass2 call = .ok ledger') : PayloadInv ledger' := by
  intro f hf
  obtain ⟨conflict, hcall, hflags, -⟩ | ⟨resolution, -, -, hflags, -⟩ | ⟨hflags, -⟩ :=
    pass2_conflictTables h
  · rw [hflags, List.mem_append, List.mem_singleton] at hf
    rcases hf with hold | rfl
    · exact hinv f hold
    · exact ⟨rfl, hpending conflict hcall⟩
  · rw [hflags] at hf
    obtain ⟨f', hf', rfl⟩ := Table.mem_updateWhere.mp hf
    have hold := hinv f' hf'
    split_ifs
    · exact ⟨hold.id, hold.status⟩
    · exact hold
  · exact hinv f (hflags ▸ hf)

theorem pass2_unresolved {ledger ledger' : Ledger} {call : Pass2Call} (hpending : call.addsPending)
    (hrefused : ∀ resolution, call = .addResolution resolution →
      ledger.admitsResolution resolution = false)
    (hinv : UnresolvedInv ledger) (h : ledger.pass2 call = .ok ledger') :
    UnresolvedInv ledger' := by
  obtain ⟨conflict, hcall, hflags, hresolutions⟩ | ⟨resolution, hcall, hadmits, -, -⟩ |
    ⟨hflags, hresolutions⟩ := pass2_conflictTables h
  · refine ⟨fun f hf ↦ ?_, hresolutions.trans hinv.none⟩
    rw [hflags, List.mem_append, List.mem_singleton] at hf
    rcases hf with hold | rfl
    · exact hinv.columns f hold
    · exact hpending conflict hcall
  · exact absurd hadmits (by simp [hrefused resolution hcall])
  · exact ⟨fun f hf ↦ hinv.columns f (hflags ▸ hf), hresolutions.trans hinv.none⟩

theorem exists_pending_conflict {ledger : Ledger} (hpayloads : PayloadInv ledger) {f : FlagRow}
    (hf : f ∈ ledger.contradictionFlags) :
    ∃ c ∈ ledger.conflicts, c.id = f.id ∧ c.status = .pending :=
  ⟨f.payload, List.mem_map_of_mem hf, (hpayloads f hf).id, (hpayloads f hf).status⟩

theorem mem_openConflictIds {ledger : Ledger} {id : ConflictId} {weekEnding : Python.Date}
    {changes : List MaterialChange} {freshness : List (AssertionId × Freshness)}
    {trends : List (String × String)} {available : Bool} :
    id ∈ (buildWeeklyPack weekEnding changes ledger.conflicts freshness trends
      available).openConflictIds ↔
      ∃ c ∈ ledger.conflicts, c.id = id ∧ c.status = .pending := by
  simp only [buildWeeklyPack_openConflictIds, List.mem_map, List.mem_filter, decide_eq_true_eq]
  constructor
  · rintro ⟨c, ⟨hc, hstatus⟩, hid⟩
    exact ⟨c, hc, hid, hstatus⟩
  · rintro ⟨c, hc, hid, hstatus⟩
    exact ⟨c, ⟨hc, hstatus⟩, hid⟩

theorem conflictsAgree_of_unresolved {ledger : Ledger} (hpayloads : PayloadInv ledger)
    (h : UnresolvedInv ledger) : ConflictsAgree ledger := by
  have hresolved : ∀ id, ledger.resolved id = false := by
    intro id
    rw [Ledger.resolved, h.none, List.any_nil]
  have hopen : ∀ f ∈ ledger.contradictionFlags,
      (∃ c ∈ ledger.conflicts, c.id = f.id ∧ c.status = .pending) ↔ ledger.resolved f.id = false :=
    fun f hf ↦ iff_of_true (exists_pending_conflict hpayloads hf) (hresolved f.id)
  refine ⟨hopen, fun f hf _ _ _ _ _ ↦ mem_openConflictIds.trans (hopen f hf), fun f hf ↦ ?_⟩
  rw [h.columns f hf, (hpayloads f hf).status]

theorem not_conflictsAgree_of_accepted {ledger ledger' : Ledger}
    {resolution : ContradictionResolution} (hpayloads : PayloadInv ledger')
    (hadmits : ledger.admitsResolution resolution = true)
    (h : ledger.addResolution resolution = .ok ledger') : ¬ ConflictsAgree ledger' := by
  intro hagree
  obtain ⟨-, -, rfl⟩ := addResolution_ok.mp h
  simp only [Ledger.admitsResolution, Bool.and_eq_true, decide_eq_true_eq, List.mem_map] at hadmits
  obtain ⟨-, f, hf, hid⟩ := hadmits
  have hmem : { f with status := .confirmed } ∈ Table.updateWhere
      (fun r ↦ r.id.text = resolution.conflictId) (fun r ↦ { r with status := .confirmed })
      ledger.contradictionFlags := Table.mem_updateWhere.mpr ⟨f, hf, by simp [hid]⟩
  have hstatus := hagree.statuses _ hmem
  rw [(hpayloads _ hmem).status] at hstatus
  cases hstatus

theorem pass2_admitted {ledger : Ledger} {resolution : ContradictionResolution}
    (h : ledger.admitsResolution resolution = true) :
    ∃ ledger', ledger.addResolution resolution = .ok ledger' := by
  simp only [Ledger.admitsResolution, Bool.and_eq_true, decide_eq_true_eq] at h
  exact ⟨_, addResolution_ok.mpr ⟨h.1, h.2, rfl⟩⟩

/-- In a run that adds pending conflicts, the readers agree with the resolutions in
every state exactly when no resolution of the run is accepted. -/
theorem conflicts_agree_iff (start : Ledger) (calls : List Pass2Call)
    (hpending : ∀ call ∈ calls, call.addsPending) :
    let first : Ledger := { start with contradictionFlags := [], contradictionResolutions := [] }
    (∀ pre, pre <+: calls → ConflictsAgree (attempts Ledger.pass2 first pre)) ↔
      ∀ pre resolution, pre ++ [.addResolution resolution] <+: calls →
        (attempts Ledger.pass2 first pre).admitsResolution resolution = false := by
  intro first
  have hmem : ∀ {pre call}, pre ++ [call] <+: calls → call.addsPending := fun hpre ↦
    hpending _ (hpre.subset (List.mem_append_right _ List.mem_cons_self))
  have hpayloads : ∀ pre, pre <+: calls → PayloadInv (attempts Ledger.pass2 first pre) :=
    attempts_prefix_invariant PayloadInv (fun f hf ↦ absurd hf List.not_mem_nil)
      fun pre call ledger' hpre hinv h ↦ pass2_payloads (hmem hpre) hinv h
  constructor
  · intro hagree pre resolution hpre
    refine Bool.eq_false_iff.mpr fun hadmits ↦ ?_
    obtain ⟨ledger', h⟩ := pass2_admitted hadmits
    have hnext : attempts Ledger.pass2 first (pre ++ [.addResolution resolution]) = ledger' := by
      rw [attempts_snoc]
      exact attempt_ok h
    exact not_conflictsAgree_of_accepted (hnext ▸ hpayloads _ hpre) hadmits h (hnext ▸
      hagree _ hpre)
  · intro hrefused pre hpre
    have hunresolved : ∀ pre, pre <+: calls → UnresolvedInv (attempts Ledger.pass2 first pre) :=
      attempts_prefix_invariant UnresolvedInv ⟨fun f hf ↦ absurd hf List.not_mem_nil, rfl⟩
        fun pre call ledger' hpre hinv h ↦ pass2_unresolved (hmem hpre)
          (fun resolution hcall ↦ hrefused pre resolution (hcall ▸ hpre)) hinv h
    exact conflictsAgree_of_unresolved (hpayloads pre hpre) (hunresolved pre hpre)

def conflictA : ContradictionFlag where
  id := { text := "CONFLICT-A" }
  assertionIds := []
  detectedBy := "contradictions"
  rationale := "Opposite states."

def resolutionA : ContradictionResolution where
  id := { text := "RESOLUTION-A" }
  conflictId := "CONFLICT-A"
  resolution := "The newer source is right."
  resultingState := .affirmed
  resultingScope := {}
  reviewer := "Reviewer"
  reviewedAt := .midnight Python.sampleDay

def resolvedLedger : Ledger :=
  attempts Ledger.pass2 { ({} : Ledger) with contradictionFlags := [], contradictionResolutions := [] }
    [.addConflict conflictA, .addResolution resolutionA]

theorem resolved_conflict_stays_open :
    resolvedLedger.resolved conflictA.id = true ∧
    conflictA ∈ resolvedLedger.conflicts ∧ conflictA.status = .pending ∧
    (buildWeeklyPack ⟨2026, 1, 4, by decide⟩ [] resolvedLedger.conflicts [] [] true).openConflictIds =
      [conflictA.id] ∧
    resolvedLedger.contradictionFlags.map (fun f ↦ (f.status, f.payload.status)) =
      [(.confirmed, .pending)] := by
  decide

theorem conflicts_agree_iff_resolvedLedger :
    ¬ ∀ pre, pre <+: [.addConflict conflictA, .addResolution resolutionA] →
      ConflictsAgree (attempts Ledger.pass2
        { ({} : Ledger) with contradictionFlags := [], contradictionResolutions := [] } pre) := by
  have hpending : ∀ call ∈ [Pass2Call.addConflict conflictA, .addResolution resolutionA],
      call.addsPending := by
    simp [Pass2Call.addsPending, conflictA]
  intro h
  have hrefused := (conflicts_agree_iff {} _ hpending).mp h
  exact absurd (hrefused [.addConflict conflictA] resolutionA (by decide)) (by decide)

end AgenticSecurity.Storage
