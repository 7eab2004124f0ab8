import AgenticSecurity.Collection.History
import AgenticSecurity.Library.Compensation

namespace AgenticSecurity.Collection

open Library Library.Compensation Models Python Storage

/-- How the writing of a snapshot's file ends: it may fail before the file is opened, or after
that with what has reached the file. -/
inductive WriteOutcome
  | done
  | refused
  | halfway (text : String)
  deriving DecidableEq

/-- A fetched pair, and whether each step of its own succeeds. -/
structure Attempt where
  source : Source
  snapshot : Snapshot
  syncs : Bool := true
  selects : Bool := true
  write : WriteOutcome := .done
  inserts : Bool := true

inductive PersistError
  | environment
  | ledger (error : LedgerError)
  deriving DecidableEq

/-- The tables, and the text of each file of the snapshot directory. -/
structure Stored where
  ledger : Ledger
  directory : SnapshotId → Option String

structure Persisting where
  ledger : Ledger
  directory : SnapshotId → Option String
  createdPaths : List SnapshotId := []
  persistedIds : List SnapshotId := []
  duplicateCount : ℕ := 0

def syncSources (ledger : Ledger) (attempts : List Attempt) : Except PersistError Ledger :=
  attempts.foldlM (fun ledger attempt ↦
    if attempt.syncs then (ledger.syncSource attempt.source).mapError .ledger
      else .error .environment) ledger

def Duplicates (ledger : Ledger) (snapshot : Snapshot) : Prop :=
  ∃ row ∈ ledger.snapshots, duplicateKey row = duplicateKey snapshot

instance (ledger : Ledger) (snapshot : Snapshot) : Decidable (Duplicates ledger snapshot) :=
  inferInstanceAs (Decidable (∃ row ∈ ledger.snapshots, duplicateKey row = duplicateKey snapshot))

def persistAttempt (dump : Snapshot → String) (progress : Persisting) (attempt : Attempt) :
    Persisting × Option PersistError :=
  let snapshot := attempt.snapshot
  if ¬ attempt.selects then (progress, some .environment)
  else if Duplicates progress.ledger snapshot then
    ({ progress with duplicateCount := progress.duplicateCount + 1 }, none)
  else
    match attempt.write with
    | .refused => (progress, some .environment)
    | .halfway text =>
      ({ progress with directory := Function.update progress.directory snapshot.id (some text) },
        some .environment)
    | .done =>
      let saved := { progress with
        directory := Function.update progress.directory snapshot.id (some (dump snapshot))
        createdPaths := progress.createdPaths ++ [snapshot.id] }
      if ¬ attempt.inserts then (saved, some .environment)
      else
        match progress.ledger.addSnapshot snapshot with
        | .error error => (saved, some (.ledger error))
        | .ok ledger =>
          ({ saved with ledger, persistedIds := progress.persistedIds ++ [snapshot.id] }, none)

def persistAttempts (dump : Snapshot → String) : Persisting → List Attempt →
    Persisting × Option PersistError
  | progress, [] => (progress, none)
  | progress, attempt :: attempts =>
    match persistAttempt dump progress attempt with
    | (progress, some error) => (progress, some error)
    | (progress, none) => persistAttempts dump progress attempts

def Stored.verifyPersisted (stored : Stored) (snapshotIds : List SnapshotId)
    (sources : List Source) :
    Except CollectionError Unit :=
  if ¬ sources.all fun source ↦
      (stored.ledger.sources.find? fun r ↦ r.id = source.id).any fun r ↦ r.payload = source then
    .error (.live .collectionFailed "Governed source persistence could not be verified.")
  else if ¬ snapshotIds.all fun id ↦
      id ∈ stored.ledger.snapshots.map (·.id) && (stored.directory id).isSome then
    .error (.live .collectionFailed "Collected snapshot persistence could not be verified.")
  else .ok ()

inductive Ending
  | rolledBack (error : PersistError)
  | committed (result : Except CollectionError CollectionResult)

def Stored.rollBack (stored : Stored) (progress : Persisting) : Stored :=
  { stored with directory := unlinkAll progress.directory progress.createdPaths }

def Stored.persist (dump : Snapshot → String) (connects commits : Bool) (stored : Stored)
    (attempts : List Attempt) :
    Stored × Ending :=
  if ¬ connects then (stored, .rolledBack .environment)
  else
    match syncSources stored.ledger attempts with
    | .error error => (stored, .rolledBack error)
    | .ok ledger =>
      match persistAttempts dump { ledger, directory := stored.directory } attempts with
      | (progress, some error) => (stored.rollBack progress, .rolledBack error)
      | (progress, none) =>
        if ¬ commits then (stored.rollBack progress, .rolledBack .environment)
        else
          let after : Stored := { ledger := progress.ledger, directory := progress.directory }
          (after, .committed
            ((after.verifyPersisted progress.persistedIds (attempts.map Attempt.source)).map fun _ ↦
            { fetchedCount := attempts.length
              persistedCount := progress.persistedIds.length
              duplicateCount := progress.duplicateCount
              sourceIds := attempts.map (·.source.id) }))

/-- A file that is written in full was not there before the call. One that is left halfway is of a
snapshot for which this call had created a file, or had that very text before. -/
def FitsDirectory (directory : SnapshotId → Option String) (progress : Persisting)
    (attempt : Attempt) : Prop :=
  attempt.selects = true → ¬ Duplicates progress.ledger attempt.snapshot →
    match attempt.write with
    | .done => directory attempt.snapshot.id = none
    | .halfway text => attempt.snapshot.id ∈ progress.createdPaths ∨
        directory attempt.snapshot.id = some text
    | .refused => True

def AttemptsFit (dump : Snapshot → String) (directory : SnapshotId → Option String) :
    Persisting → List Attempt → Prop
  | _, [] => True
  | progress, attempt :: attempts =>
    FitsDirectory directory progress attempt ∧
      ((persistAttempt dump progress attempt).2 = none →
        AttemptsFit dump directory (persistAttempt dump progress attempt).1 attempts)

section Attempts

variable {dump : Snapshot → String} {stored : Stored} {progress progress' : Persisting}
  {attempt : Attempt}
variable {attempts : List Attempt}

structure Progressed (dump : Snapshot → String) (stored : Stored) (progress : Persisting)
    (added : List Snapshot) :
    Prop where
  confined : Confined stored.directory progress.directory progress.createdPaths
  rows : progress.ledger.snapshots = stored.ledger.snapshots ++ added
  created : added.map (·.id) = progress.createdPaths
  nodup : (added.map (·.id)).Nodup
  texts : ∀ snapshot ∈ added, progress.directory snapshot.id = some (dump snapshot)

def Fresh (stored : Stored) (progress : Persisting) : Prop :=
  ∀ id ∈ progress.createdPaths, stored.directory id = none

theorem fresh_snoc {id : SnapshotId} (h : progress'.createdPaths = progress.createdPaths ++ [id]) :
    Fresh stored progress' ↔ Fresh stored progress ∧ stored.directory id = none := by
  simp [Fresh, h, or_imp, forall_and]

theorem not_mem_of_addSnapshot {ledger ledger' : Ledger} {snapshot : Snapshot}
    (h : ledger.addSnapshot snapshot = .ok ledger') :
    snapshot.id ∉ ledger.snapshots.map (·.id) := by
  unfold Ledger.addSnapshot at h
  split_ifs at h with hid
  exact hid

theorem Progressed.save {added : List Snapshot} (h : Progressed dump stored progress added)
    {snapshot : Snapshot} {ledger : Ledger}
    (hadd : progress.ledger.addSnapshot snapshot = .ok ledger) (persistedIds : List SnapshotId) :
    Progressed dump stored
      { progress with
        ledger
        directory := Function.update progress.directory snapshot.id (some (dump snapshot))
        createdPaths := progress.createdPaths ++ [snapshot.id]
        persistedIds } (added ++ [snapshot]) := by
  have hnew : snapshot.id ∉ added.map (·.id) := by
    have hid := not_mem_of_addSnapshot hadd
    rw [h.rows, List.map_append, List.mem_append, not_or] at hid
    exact hid.2
  refine ⟨h.confined.create _ _, ?_, ?_, ?_, ?_⟩
  · rw [addSnapshot_snapshots hadd, h.rows, List.append_assoc]
  · rw [List.map_append, h.created]
    rfl
  · rw [List.map_append]
    exact List.Nodup.append h.nodup (List.nodup_singleton _) (by simpa using hnew)
  · intro other hother
    rcases List.mem_append.mp hother with hold | hlast
    · have hne : other.id ≠ snapshot.id := fun he ↦ hnew (he ▸ List.mem_map_of_mem hold)
      exact (Function.update_of_ne hne _ _).trans (h.texts other hold)
    · obtain rfl := List.mem_singleton.mp hlast
      exact Function.update_self ..

inductive AttemptCase (dump : Snapshot → String) (progress : Persisting) (attempt : Attempt) :
    Persisting × Option PersistError → Prop
  | unselected (hselects : attempt.selects = false) :
      AttemptCase dump progress attempt (progress, some .environment)
  | duplicate (hduplicate : Duplicates progress.ledger attempt.snapshot) :
    AttemptCase dump progress attempt ({ progress with duplicateCount :=
        progress.duplicateCount + 1 }, none)
  | refused (hwrite : attempt.write = .refused) :
      AttemptCase dump progress attempt (progress, some .environment)
  | halfway (hselects : attempt.selects = true)
      (hnew : ¬ Duplicates progress.ledger attempt.snapshot) (text : String)
    (hwrite : attempt.write = .halfway text) :
    AttemptCase dump progress attempt
      ({ progress with directory :=
        Function.update progress.directory attempt.snapshot.id (some text) }, some .environment)
  | saved (hselects : attempt.selects = true) (hnew : ¬ Duplicates progress.ledger attempt.snapshot)
    (hwrite : attempt.write = .done) (error : PersistError) :
    AttemptCase dump progress attempt
      ({ progress with
          directory :=
            Function.update progress.directory attempt.snapshot.id (some (dump attempt.snapshot))
          createdPaths := progress.createdPaths ++ [attempt.snapshot.id] }, some error)
  | persisted (hselects : attempt.selects = true)
      (hnew : ¬ Duplicates progress.ledger attempt.snapshot)
    (hwrite : attempt.write = .done) (ledger : Ledger)
    (hadd : progress.ledger.addSnapshot attempt.snapshot = .ok ledger) :
    AttemptCase dump progress attempt
      ({ progress with
          ledger
          directory :=
            Function.update progress.directory attempt.snapshot.id (some (dump attempt.snapshot))
          createdPaths := progress.createdPaths ++ [attempt.snapshot.id]
          persistedIds := progress.persistedIds ++ [attempt.snapshot.id] }, none)

theorem persistAttempt_cases (dump : Snapshot → String) (progress : Persisting)
    (attempt : Attempt) :
    AttemptCase dump progress attempt (persistAttempt dump progress attempt) := by
  unfold persistAttempt
  dsimp only
  by_cases hselects : attempt.selects = true
  · rw [if_neg (not_not.mpr hselects)]
    by_cases hduplicate : Duplicates progress.ledger attempt.snapshot
    · rw [if_pos hduplicate]
      exact .duplicate hduplicate
    · rw [if_neg hduplicate]
      cases hwrite : attempt.write with
      | refused => exact .refused hwrite
      | halfway text => exact .halfway hselects hduplicate text hwrite
      | done =>
        dsimp only
        split_ifs with hinserts
        · cases hadd : progress.ledger.addSnapshot attempt.snapshot with
          | error error => exact .saved hselects hduplicate hwrite (.ledger error)
          | ok ledger => exact .persisted hselects hduplicate hwrite ledger hadd
        · exact .saved hselects hduplicate hwrite .environment
  · rw [if_pos hselects]
    exact .unselected (Bool.not_eq_true _ ▸ hselects)

theorem fitsDirectory_done (hselects : attempt.selects = true)
    (hnew : ¬ Duplicates progress.ledger attempt.snapshot) (hwrite : attempt.write = .done) :
    FitsDirectory stored.directory progress attempt ↔
    stored.directory attempt.snapshot.id = none := by
  simp [FitsDirectory, hselects, hnew, hwrite]

theorem fitsDirectory_halfway (hselects : attempt.selects = true)
    (hnew : ¬ Duplicates progress.ledger attempt.snapshot) {text : String}
    (hwrite : attempt.write = .halfway text) :
    FitsDirectory stored.directory progress attempt ↔
      attempt.snapshot.id ∈ progress.createdPaths ∨
      stored.directory attempt.snapshot.id = some text := by
  simp [FitsDirectory, hselects, hnew, hwrite]

theorem Progressed.step {added : List Snapshot} (h : Progressed dump stored progress added)
    (hstep : persistAttempt dump progress attempt = (progress', none)) :
    (∃ added', Progressed dump stored progress' added') ∧
      (Fresh stored progress' ↔ Fresh stored progress ∧
        FitsDirectory stored.directory progress attempt) := by
  have hcase := persistAttempt_cases dump progress attempt
  rw [hstep] at hcase
  cases hcase with
  | duplicate hduplicate =>
    have hfits : FitsDirectory stored.directory progress attempt :=
      fun _ hnew ↦ absurd hduplicate hnew
    exact ⟨⟨added, h.confined, h.rows, h.created, h.nodup, h.texts⟩, (and_iff_left hfits).symm⟩
  | persisted hselects hnew hwrite ledger hadd =>
    rw [fitsDirectory_done hselects hnew hwrite]
    exact ⟨⟨_, h.save hadd _⟩, fresh_snoc rfl⟩

theorem Progressed.raise {added : List Snapshot} {error : PersistError}
    (h : Progressed dump stored progress added)
    (hstep : persistAttempt dump progress attempt = (progress', some error)) :
    unlinkAll progress'.directory progress'.createdPaths = stored.directory ↔
      Fresh stored progress ∧ FitsDirectory stored.directory progress attempt := by
  have hcase := persistAttempt_cases dump progress attempt
  rw [hstep] at hcase
  cases hcase with
  | unselected hnot =>
    have hfits : FitsDirectory stored.directory progress attempt :=
      fun hselects ↦ absurd hselects (by simp [hnot])
    rw [h.confined.unlinkAll_eq_iff, and_iff_left hfits, Fresh]
  | refused hwrite =>
    have hfits : FitsDirectory stored.directory progress attempt := by
      intro _ _
      rw [hwrite]
      trivial
    rw [h.confined.unlinkAll_eq_iff, and_iff_left hfits, Fresh]
  | halfway hselects hnew text hwrite =>
    rw [h.confined.unlinkAll_update_eq_iff, fitsDirectory_halfway hselects hnew hwrite, Fresh]
  | saved hselects hnew hwrite error =>
    have hconfined := h.confined.create attempt.snapshot.id (some (dump attempt.snapshot))
    rw [hconfined.unlinkAll_eq_iff, fitsDirectory_done hselects hnew hwrite]
    exact @fresh_snoc stored progress { progress with createdPaths := progress.createdPaths ++
      [attempt.snapshot.id] } _ rfl

theorem Progressed.run {added : List Snapshot} (h : Progressed dump stored progress added) :
    (∀ progress', persistAttempts dump progress attempts = (progress', none) →
      (∃ added', Progressed dump stored progress' added') ∧
        (Fresh stored progress' ↔ Fresh stored progress ∧
          AttemptsFit dump stored.directory progress attempts)) ∧
    ∀ progress' error, persistAttempts dump progress attempts = (progress', some error) →
      (unlinkAll progress'.directory progress'.createdPaths = stored.directory ↔
        Fresh stored progress ∧ AttemptsFit dump stored.directory progress attempts) := by
  induction attempts generalizing progress added with
  | nil =>
    constructor
    · intro progress' hrun
      obtain rfl := (Prod.mk.inj hrun).1
      exact ⟨⟨added, h⟩, (and_iff_left trivial).symm⟩
    · intro progress' error hrun
      cases hrun
  | cons attempt attempts ih =>
    cases hstep : persistAttempt dump progress attempt with
    | mk next raised =>
      cases raised with
      | none =>
        obtain ⟨⟨added', hnext⟩, hfresh⟩ := h.step hstep
        have hfit : AttemptsFit dump stored.directory progress (attempt :: attempts) ↔
            FitsDirectory stored.directory progress attempt ∧
            AttemptsFit dump stored.directory next attempts := by
          simp [AttemptsFit, hstep]
        simp only [persistAttempts, hstep, hfit, ← and_assoc, ← hfresh]
        exact ih hnext
      | some raised =>
        have hfit : AttemptsFit dump stored.directory progress (attempt :: attempts) ↔
            FitsDirectory stored.directory progress attempt := by
          simp [AttemptsFit, hstep]
        simp only [persistAttempts, hstep, hfit]
        constructor
        · intro progress' hrun
          cases hrun
        · intro progress' error hrun
          obtain ⟨rfl, -⟩ := Prod.mk.inj hrun
          exact h.raise hstep

end Attempts

section Undisturbed

variable (dump : Snapshot → String)

def CollectionState.stored (state : CollectionState) : Stored where
  ledger := state.ledger
  directory id := (state.files.lookup id).map dump

def Attempt.ofPair (pair : Source × Snapshot) : Attempt := { source := pair.1, snapshot := pair.2 }

def Progress.persisting (progress : Progress) (createdPaths : List SnapshotId) : Persisting where
  ledger := progress.state.ledger
  directory := (progress.state.stored dump).directory
  createdPaths
  persistedIds := progress.persistedIds
  duplicateCount := progress.duplicateCount

theorem directory_dictSet (files : List (SnapshotId × Snapshot)) (ledger : Ledger)
    (snapshot : Snapshot) :
    (CollectionState.stored dump { ledger, files := dictSet files snapshot.id snapshot }).directory =
      Function.update (CollectionState.stored dump { ledger, files }).directory snapshot.id
        (some (dump snapshot)) := by
  funext id
  by_cases hid : id = snapshot.id
  · simp [CollectionState.stored, lookup_dictSet, hid]
  · simp [CollectionState.stored, lookup_dictSet, hid]

theorem persistAttempt_ofPair {progress progress' : Progress} {pair : Source × Snapshot}
    (h : persistSnapshot progress pair.2 = .ok progress') (created : List SnapshotId) :
    ∃ created', persistAttempt dump (progress.persisting dump created) (.ofPair pair) =
      (progress'.persisting dump created', none) := by
  unfold persistSnapshot at h
  by_cases hduplicate : Duplicates progress.state.ledger pair.2
  · rw [if_pos (List.mem_map.mpr hduplicate)] at h
    obtain rfl := Except.ok.inj h
    exact ⟨created, by simp [persistAttempt, Attempt.ofPair, Progress.persisting, hduplicate]⟩
  · rw [if_neg fun hmem ↦ hduplicate (List.mem_map.mp hmem)] at h
    cases hadd : progress.state.ledger.addSnapshot pair.2 with
    | error error => rw [hadd] at h; cases h
    | ok ledger =>
      rw [hadd] at h
      obtain rfl := Except.ok.inj h
      refine ⟨created ++ [pair.2.id], ?_⟩
      simp only [persistAttempt, Attempt.ofPair, Progress.persisting, directory_dictSet, hadd,
        hduplicate, not_true_eq_false,
        if_false]
      -- the rows are no part of the directory
      rfl

theorem persistAttempts_ofPair {pairs : List (Source × Snapshot)} {progress progress' : Progress}
    (h : (pairs.map Prod.snd).foldlM persistSnapshot progress = .ok progress')
    (created : List SnapshotId) :
    ∃ created', persistAttempts dump (progress.persisting dump created) (pairs.map .ofPair) =
      (progress'.persisting dump created', none) := by
  induction pairs generalizing progress created with
  | nil => exact ⟨created, by rw [Except.ok.inj h]; rfl⟩
  | cons pair pairs ih =>
    obtain ⟨next, hnext, hrest⟩ := Runs.except_bind_ok.mp h
    obtain ⟨created', hstep⟩ := persistAttempt_ofPair dump hnext created
    obtain ⟨created'', hrun⟩ := ih hrest created'
    exact ⟨created'', by rw [List.map_cons, persistAttempts, hstep]; exact hrun⟩

theorem syncSources_ofPair {pairs : List (Source × Snapshot)} {ledger ledger' : Ledger}
    (h : (pairs.map Prod.fst).foldlM Ledger.syncSource ledger = .ok ledger') :
    syncSources ledger (pairs.map .ofPair) = .ok ledger' := by
  induction pairs generalizing ledger with
  | nil => rw [Except.ok.inj h]; rfl
  | cons pair pairs ih =>
    obtain ⟨next, hnext, hrest⟩ := Runs.except_bind_ok.mp h
    rw [List.map_cons, syncSources, List.foldlM_cons]
    apply Runs.except_bind_ok.mpr
    exact ⟨next, by simp [Attempt.ofPair, hnext, Except.mapError], ih hrest⟩

theorem verifyPersisted_stored (state : CollectionState) (ids : List SnapshotId)
    (sources : List Source) :
    (state.stored dump).verifyPersisted ids sources =
      Collection.verifyPersisted state ids sources := by
  have hfile (id : SnapshotId) : ((state.stored dump).directory id).isSome =
      decide (id ∈ state.files.map Prod.fst) := by
    rw [CollectionState.stored, Option.isSome_map, Bool.eq_iff_iff, decide_eq_true_iff,
      List.lookup_isSome_iff, List.mem_map]
    constructor
    · intro ⟨file, hfile, hid⟩
      exact ⟨file, hfile, (eq_of_beq hid).symm⟩
    · intro ⟨file, hfile, hid⟩
      exact ⟨file, hfile, beq_iff_eq.mpr hid.symm⟩
  simp only [Stored.verifyPersisted, hfile]
  rfl

theorem persist_undisturbed {state state' : CollectionState} {fetched : List (Source × Snapshot)}
    {result : CollectionResult} (h : persist state fetched = .ok (state', result)) :
    (state.stored dump).persist dump true true (fetched.map .ofPair) =
      (state'.stored dump, .committed (.ok result)) := by
  obtain ⟨ledger, hsync, h⟩ := Runs.except_bind_ok.mp h
  obtain ⟨progress, hloop, h⟩ := Runs.except_bind_ok.mp h
  obtain ⟨⟨⟩, hverify, h⟩ := Runs.except_bind_ok.mp h
  obtain ⟨rfl, rfl⟩ := Prod.mk.inj (Except.ok.inj h)
  obtain ⟨created, hrun⟩ := persistAttempts_ofPair dump (Runs.except_mapError_ok.mp hloop) []
  have hsync' := syncSources_ofPair (Runs.except_mapError_ok.mp hsync)
  have hsources : (fetched.map Attempt.ofPair).map Attempt.source = fetched.map Prod.fst := by
    rw [List.map_map]
    rfl
  have hverified : (progress.state.stored dump).verifyPersisted progress.persistedIds
      ((fetched.map Attempt.ofPair).map Attempt.source) = .ok () := by
    rw [verifyPersisted_stored, hsources, hverify]
  have hloop' :
      persistAttempts dump { ledger, directory := (state.stored dump).directory }
      (fetched.map .ofPair) =
      (progress.persisting dump created, none) := hrun
  have hledger : syncSources (state.stored dump).ledger (fetched.map .ofPair) = .ok ledger := hsync'
  have hfinal :
      Stored.mk (progress.persisting dump created).ledger
      (progress.persisting dump created).directory =
      progress.state.stored dump := rfl
  simp only [Stored.persist, not_true_eq_false, if_false, hledger, hloop', hfinal]
  have hids : (progress.persisting dump created).persistedIds = progress.persistedIds := rfl
  rw [hids, hverified]
  simp [Except.map, Progress.persisting, Attempt.ofPair]

end Undisturbed

end AgenticSecurity.Collection
