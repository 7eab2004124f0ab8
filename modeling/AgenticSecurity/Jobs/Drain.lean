import AgenticSecurity.Jobs.Fifo
import AgenticSecurity.Jobs.Worker

namespace AgenticSecurity.Jobs

open Library Runs

/-- What one call of `run_once` reads from the clock, and what executing the job does. -/
structure Turn where
  recoverAt : Timestamp
  claimAt : Timestamp
  finishedAt : Timestamp
  outcome : Outcome
  deriving DecidableEq, Repr

def Turn.finish (turn : Turn) (jobId : String) : JobOp :=
  .finish turn.finishedAt jobId turn.outcome.status turn.outcome.failureCategory
    turn.outcome.sanitizedFailureMessage

/-- `Worker.run_once` behind the lock, with the job it worked on. It returns whether there was
one. -/
def runOnce (config : WorkerConfig) (store : JobStore) (turn : Turn) :
    JobStore × Option JobRecord :=
  let recovered := (store.recoverInterrupted turn.recoverAt config.maxRestartRetries).1
  let claimed := recovered.claimNext turn.claimAt config.pipelineLeaseSeconds
  match claimed.2 with
  | none => (claimed.1, none)
  | some job => (attempt JobOp.apply claimed.1 (turn.finish job.jobId), some job)

/-- `Worker.run_forever` for as many turns as are given, with the jobs of the turns. -/
def runForever (config : WorkerConfig) (store : JobStore) :
    List Turn → JobStore × List (JobRecord × Turn)
  | [] => (store, [])
  | turn :: turns =>
    let once := runOnce config store turn
    let rest := runForever config once.1 turns
    (rest.1, once.2.toList.map (·, turn) ++ rest.2)

/-- The steps of the system that one call of `run_once` takes. -/
def turnEvents (config : WorkerConfig) (worker : ℕ) (store : JobStore) (turn : Turn) : List Event :=
  [.clock turn.recoverAt, .acquire worker, .readRecover worker, .recover worker,
    .clock turn.claimAt, .readClaim worker, .claim worker] ++
  (match (runOnce config store turn).2 with
    | none => []
    | some _ => [.clock turn.finishedAt, .executed worker turn.outcome, .finish worker]) ++
  [.leave worker]

def foreverEvents (config : WorkerConfig) (worker : ℕ) (store : JobStore) : List Turn → List Event
  | [] => []
  | turn :: turns =>
    turnEvents config worker store turn ++
      foreverEvents config worker (runOnce config store turn).1 turns

/-- No worker is inside the block. -/
structure World.Quiet (world : World) : Prop where
  idle : ∀ worker, world.phase worker = .idle
  unlocked : world.lock = none

theorem Quiet_of_unlocked {world : World} (h : world.Inv) (hlock : world.lock = none) :
    world.Quiet := by
  refine ⟨fun worker ↦ ?_, hlock⟩
  by_contra hphase
  rw [h.exclusive worker hphase] at hlock
  cases hlock

theorem Quiet_of_update {world : World} (h : world.Quiet) (worker : ℕ) (store : JobStore)
    (clock : Timestamp) :
    ({ store, clock, phase := Function.update world.phase worker .idle } : World).Quiet := by
  refine ⟨fun other ↦ ?_, rfl⟩
  change Function.update world.phase worker .idle other = .idle
  rw [Function.update_apply]
  split_ifs
  · rfl
  · exact h.idle other

theorem exec_turnEvents {config : ℕ → WorkerConfig} {world : World} (h : world.Quiet) (worker : ℕ)
    (turn : Turn) :
    ∃ world', exec (step config) world (turnEvents (config worker) worker world.store turn) =
      some world' ∧
      world'.Quiet ∧ world'.store = (runOnce (config worker) world.store turn).1 := by
  cases hclaimed :
    ((world.store.recoverInterrupted turn.recoverAt (config worker).maxRestartRetries).1.claimNext
      turn.claimAt (config worker).pipelineLeaseSeconds).2 with
  | none =>
    have hnone : (runOnce (config worker) world.store turn).2 = none := by
      simp only [runOnce, hclaimed]
    refine ⟨_, ?_, Quiet_of_update h worker (runOnce (config worker) world.store turn).1
      turn.claimAt, rfl⟩
    rw [turnEvents, hnone]
    simp [runOnce, hclaimed, exec, step, h.idle, h.unlocked, World.goto, World.release]
  | some job =>
    have hsome : (runOnce (config worker) world.store turn).2 = some job := by
      simp only [runOnce, hclaimed]
    refine ⟨_, ?_, Quiet_of_update h worker (runOnce (config worker) world.store turn).1
      turn.finishedAt, rfl⟩
    rw [turnEvents, hsome]
    simp [runOnce, hclaimed, exec, step, h.idle, h.unlocked, World.goto, World.release, Turn.finish]

theorem exec_foreverEvents {config : ℕ → WorkerConfig} {world : World} (h : world.Quiet)
    (worker : ℕ) (turns : List Turn) :
    ∃ world', exec (step config) world (foreverEvents (config worker) worker world.store turns) =
      some world' ∧
      world'.Quiet ∧ world'.store = (runForever (config worker) world.store turns).1 := by
  induction turns generalizing world with
  | nil => exact ⟨world, rfl, h, rfl⟩
  | cons turn turns ih =>
    obtain ⟨next, hnext, hquiet, hstore⟩ := exec_turnEvents h worker turn
    obtain ⟨last, hlast, hend, hresult⟩ := ih hquiet
    rw [hstore] at hlast hresult
    exact ⟨last, exec_append.mpr ⟨next, hnext, hlast⟩, hend, hresult⟩

/-- Nothing is left of an earlier turn. -/
structure JobStore.Rested (store : JobStore) : Prop where
  inv : store.Inv
  leases : store.pipelineLeases = []
  running : ∀ j ∈ store.jobs, j.status ≠ .running

theorem Rested_recoverInterrupted {store : JobStore} (h : store.Inv) {current : Timestamp}
    (maxRetries : ℕ) (hleases : ∀ l ∈ store.pipelineLeases, l.expiresAt ≤ current) :
    (store.recoverInterrupted current maxRetries).1.Rested := by
  have hnil : dropExpired current store.pipelineLeases = [] :=
    List.filter_eq_nil_iff.mpr fun l hl ↦ by simpa using hleases l hl
  refine ⟨Inv_recoverInterrupted h current maxRetries, hnil, fun j hj ↦ ?_⟩
  rw [recoverInterrupted_jobs h.ids, List.mem_map] at hj
  obtain ⟨i, -, rfl⟩ := hj
  rw [hnil]
  exact recoverUpdate_not_running current maxRetries i i

theorem recoverInterrupted_rested {store : JobStore} (h : store.Rested) (current : Timestamp)
    (maxRetries : ℕ) :
    (store.recoverInterrupted current maxRetries).1 = store := by
  obtain ⟨jobs, leases⟩ := store
  have hleases : leases = [] := h.leases
  subst hleases
  have hjobs := recoverInterrupted_jobs h.inv.ids current maxRetries
  have hsame : jobs.map (recoverRow current maxRetries none) = jobs := by
    refine (List.map_congr_left fun j hj ↦ ?_).trans (List.map_id jobs)
    simp [recoverRow, recoverUpdate, h.running j hj]
  exact congrArg₂ JobStore.mk (hjobs.trans hsame) rfl

theorem claimNext_empty {store : JobStore} (h : store.Rested) (hwaiting : store.waiting = [])
    (current : Timestamp) (leaseSeconds : ℤ) :
    store.claimNext current leaseSeconds = (store, none) := by
  obtain ⟨jobs, leases⟩ := store
  have hleases : leases = [] := h.leases
  subst hleases
  have hnext : nextQueued jobs = none := congrArg List.head? hwaiting
  simp only [JobStore.claimNext, dropExpired, List.filter_nil, activeLease, List.find?_nil, hnext]

/-- What a turn records of the job that it has executed. -/
def Turn.record (turn : Turn) : JobRecord → JobRecord :=
  finishUpdate turn.finishedAt turn.outcome.status turn.outcome.failureCategory
    turn.outcome.sanitizedFailureMessage

theorem Outcome.status_terminal (outcome : Outcome) : outcome.status.terminal := by
  cases outcome <;> rfl

theorem runOnce_rested (config : WorkerConfig) {store : JobStore} (h : store.Rested)
    {row : JobRecord} {rest : List JobRecord} (hwaiting : store.waiting = row :: rest)
    (turn : Turn) :
    (runOnce config store turn).2 = some (claimUpdate turn.claimAt row) ∧
      (runOnce config store turn).1.Rested ∧ (runOnce config store turn).1.waiting = rest ∧
      (runOnce config store turn).1.jobs =
        Table.updateWhere (fun j ↦ j.jobId = row.jobId)
          (fun j ↦ turn.record (claimUpdate turn.claimAt j)) store.jobs := by
  let lease := claimLease turn.claimAt config.pipelineLeaseSeconds row.jobId
  let claimed : JobStore :=
    { jobs := Table.updateWhere (fun j ↦ j.jobId = row.jobId ∧ j.status = .queued)
        (claimUpdate turn.claimAt) store.jobs, pipelineLeases := [lease] }
  obtain ⟨hrow, hqueued⟩ := mem_waiting.mp (hwaiting ▸ List.mem_cons_self : row ∈ store.waiting)
  have hstarted : claimUpdate turn.claimAt row ∈ claimed.jobs :=
    Table.mem_updateWhere.mpr ⟨row, hrow, by simp [hqueued]⟩
  have hclaim : store.claimNext turn.claimAt config.pipelineLeaseSeconds =
      (claimed, claimed.byId row.jobId) := by
    have hnext : nextQueued store.jobs = some row := congrArg List.head? hwaiting
    simp only [JobStore.claimNext, h.leases, dropExpired, List.filter_nil, activeLease,
      List.find?_nil, hnext]
    rfl
  have hinv : claimed.Inv := by
    have hkept := Inv_claimNext h.inv turn.claimAt config.pipelineLeaseSeconds
    rw [hclaim] at hkept
    exact hkept
  have hfind : claimed.byId row.jobId = some (claimUpdate turn.claimAt row) :=
    Table.find_key hinv.ids hstarted
  have honce : runOnce config store turn =
      (attempt JobOp.apply claimed (turn.finish row.jobId),
        some (claimUpdate turn.claimAt row)) := by
    simp only [runOnce, recoverInterrupted_rested h, hclaim, hfind]
    rfl
  have hjobs :
      Table.updateWhere (fun j ↦ j.jobId = row.jobId ∧ j.status = .running) turn.record
      claimed.jobs =
      Table.updateWhere (fun j ↦ j.jobId = row.jobId)
        (fun j ↦ turn.record (claimUpdate turn.claimAt j))
        store.jobs := by
    simp only [claimed, Table.updateWhere, List.map_map]
    refine List.map_congr_left fun j hj ↦ ?_
    by_cases hid : j.jobId = row.jobId
    · obtain rfl := Table.eq_of_key h.inv.ids hj hrow hid
      simp [hqueued, claimUpdate]
    · simp [hid]
  obtain ⟨finished, record, hfinish⟩ : ∃ finished record, claimed.finish turn.finishedAt row.jobId
      turn.outcome.status turn.outcome.failureCategory turn.outcome.sanitizedFailureMessage =
        .ok (finished, record) := by
    have hone :
        (claimed.jobs.filter fun j ↦ j.jobId = row.jobId ∧ j.status = .running).length = 1 := by
      have hkey := Table.length_filter_key hinv.ids hstarted
      rw [← hkey]
      refine congrArg List.length
        (List.filter_congr fun j hj ↦ decide_eq_decide.mpr ⟨And.left, fun hid ↦ ?_⟩)
      obtain rfl := Table.eq_of_key hinv.ids hj hstarted hid
      exact ⟨rfl, rfl⟩
    simp only [JobStore.finish, Outcome.status_terminal, hone]
    exact ⟨_, _, rfl⟩
  have hended : attempt JobOp.apply claimed (turn.finish row.jobId) = finished :=
    attempt_ok (by simp only [Turn.finish, JobOp.apply, hfinish, Except.map])
  rw [honce, hended]
  refine ⟨rfl, ?_, ?_, ?_⟩
  · have hkept := Inv_finish hinv turn.outcome.failureCategory_isSome hfinish
    obtain ⟨-, -, rfl⟩ := finish_cases hfinish
    refine ⟨hkept, by simp [claimed, lease, claimLease], fun j hj ↦ ?_⟩
    have hj' : j ∈ Table.updateWhere (fun j ↦ j.jobId = row.jobId)
      (fun j ↦ turn.record (claimUpdate turn.claimAt j)) store.jobs := hjobs ▸ hj
    obtain ⟨i, hi, rfl⟩ := Table.mem_updateWhere.mp hj'
    split_ifs
    · intro hrun
      have hstatus : turn.outcome.status = .running := hrun
      have hterm := turn.outcome.status_terminal
      rw [hstatus] at hterm
      cases hterm
    · exact h.running i hi
  · rw [finish_waiting hfinish]
    exact waiting_of_head h.inv.ids hwaiting turn.claimAt [lease]
  · obtain ⟨-, -, rfl⟩ := finish_cases hfinish
    exact hjobs

theorem runOnce_extends (config : WorkerConfig) {store : JobStore} (h : store.Inv) (turn : Turn) :
    store.Extends (runOnce config store turn).1 := by
  obtain ⟨ops, hops, hresult⟩ : ∃ ops : List JobOp, (∀ op ∈ ops, op.AsRunOnce) ∧
      (runOnce config store turn).1 = attempts JobOp.apply store ops := by
    let calls : List JobOp := [.recoverInterrupted turn.recoverAt config.maxRestartRetries,
      .claimNext turn.claimAt config.pipelineLeaseSeconds]
    rw [runOnce]
    split
    · exact ⟨calls, by simp [calls, JobOp.AsRunOnce], rfl⟩
    · rename_i job _
      refine ⟨calls ++ [turn.finish job.jobId], ?_, rfl⟩
      simpa [calls, JobOp.AsRunOnce, Turn.finish] using turn.outcome.failureCategory_isSome
  rw [hresult]
  exact extends_attempts h hops

theorem runForever_rested (config : WorkerConfig) {store : JobStore} (h : store.Rested)
    (turns : List Turn) :
    (runForever config store turns).2 =
        (store.waiting.zip turns).map (fun x ↦ (claimUpdate x.2.claimAt x.1, x.2)) ∧
      (runForever config store turns).1.Rested ∧
      (runForever config store turns).1.waiting = store.waiting.drop turns.length ∧
      store.Extends (runForever config store turns).1 ∧
      ∀ x ∈ (runForever config store turns).2,
      x.2.record x.1 ∈ (runForever config store turns).1.jobs := by
  induction turns generalizing store with
  | nil =>
    rw [List.zip_nil_right]
    exact ⟨rfl, h, rfl, .refl store, fun x hx ↦ by cases hx⟩
  | cons turn turns ih =>
    rw [runForever]
    cases hwaiting : store.waiting with
    | nil =>
      have honce : runOnce config store turn = (store, none) := by
        simp only [runOnce, recoverInterrupted_rested h, claimNext_empty h hwaiting]
      have hrest := ih h
      rw [hwaiting, List.zip_nil_left, List.map_nil, List.drop_nil] at hrest
      rw [honce, List.zip_nil_left, List.map_nil, List.drop_nil]
      exact hrest
    | cons row rest =>
      obtain ⟨hjob, hrested, hnext, hjobs⟩ := runOnce_rested config h hwaiting turn
      obtain ⟨hexecuted, hend, hleft, hextends, hrecorded⟩ := ih hrested
      rw [hnext] at hexecuted hleft
      rw [hjob]
      have hstep := runOnce_extends config h.inv turn
      refine ⟨?_, hend, ?_, hstep.trans hextends, fun x hx ↦ ?_⟩
      · rw [hexecuted]
        rfl
      · rw [hleft]
        rfl
      · rcases List.mem_append.mp hx with hx | hx
        · obtain rfl : x = (claimUpdate turn.claimAt row, turn) := List.mem_singleton.mp hx
          obtain ⟨hrow, -⟩ := mem_waiting.mp (hwaiting ▸ List.mem_cons_self : row ∈ store.waiting)
          have hmem : turn.record (claimUpdate turn.claimAt row) ∈
              (runOnce config store turn).1.jobs := by
            rw [hjobs]
            exact Table.mem_updateWhere.mpr ⟨row, hrow, if_pos (decide_eq_true rfl)⟩
          obtain ⟨j, hj, hevolves⟩ := hextends _ hmem
          rwa [hevolves.absorbing turn.outcome.status_terminal] at hj
        · exact hrecorded x hx

theorem runOnce_recovered {config : WorkerConfig} {store : JobStore} (turn : Turn)
    (h : (store.recoverInterrupted turn.recoverAt config.maxRestartRetries).1.Rested) :
    runOnce config (store.recoverInterrupted turn.recoverAt config.maxRestartRetries).1 turn =
      runOnce config store turn := by
  rw [runOnce, recoverInterrupted_rested h]
  rfl

theorem length_waiting_recoverInterrupted {store : JobStore}
    (hids : (store.jobs.map JobRecord.jobId).Nodup) (current : Timestamp) (maxRetries : ℕ) :
    (store.recoverInterrupted current maxRetries).1.waiting.length ≤
      (store.jobs.filter fun j ↦ !j.status.terminal).length := by
  rw [(waiting_perm _).length_eq, recoverInterrupted_jobs hids, ← List.countP_eq_length_filter,
    ← List.countP_eq_length_filter, List.countP_map]
  refine List.countP_mono_left fun j _ hj ↦ ?_
  simp only [Function.comp_apply, decide_eq_true_eq] at hj
  rw [Bool.not_eq_true']
  by_contra hterm
  rw [Bool.not_eq_false] at hterm
  rw [(recoverRow_evolves _ _ _ j).absorbing hterm] at hj
  rw [hj] at hterm
  cases hterm

variable (config : ℕ → WorkerConfig)

/-- A worker that nothing interrupts works the queue off. Whatever state the system was left in,
once no lease is alive the turns execute the waiting jobs, those of dead workers among them, one
after another in the order of the queue, and no job twice. What a turn makes of its job is
recorded for good, and with as many turns as there were open jobs every job has ended. -/
theorem worker_drains {events : List Event} {world : World}
    (hreach : Visits (step config) {} events world) (hlock : world.lock = none) (worker : ℕ)
    (first : Turn) (turns : List Turn)
    (hleases : ∀ l ∈ world.store.pipelineLeases, l.expiresAt ≤ first.recoverAt) :
    let recovered :=
      (world.store.recoverInterrupted first.recoverAt (config worker).maxRestartRetries).1
    let executed :=
      (recovered.waiting.zip (first :: turns)).map fun x ↦ (claimUpdate x.2.claimAt x.1, x.2)
    ∃ world', exec (step config) world (foreverEvents (config worker) worker world.store
      (first :: turns)) =
        some world' ∧
      world'.Quiet ∧ world'.store.Rested ∧
      runForever (config worker) world.store (first :: turns) = (world'.store, executed) ∧
      (∀ x ∈ executed, x.2.record x.1 ∈ world'.store.jobs) ∧
      ((world.store.jobs.filter fun j ↦ !j.status.terminal).length ≤ turns.length + 1 →
        ∀ j ∈ world'.store.jobs, j.status.terminal) := by
  intro recovered executed
  have hquiet : world.Quiet := Quiet_of_unlocked (Inv_visits hreach) hlock
  have hinv := (Inv_visits hreach).store
  have hrested : recovered.Rested := Rested_recoverInterrupted hinv _ hleases
  have hsame : runForever (config worker) world.store (first :: turns) =
      runForever (config worker) recovered (first :: turns) := by
    rw [runForever, runForever, runOnce_recovered first hrested]
  obtain ⟨hexecuted, hend, hleft, -, hrecorded⟩ :=
    runForever_rested (config worker) hrested (first :: turns)
  have hexecuted : (runForever (config worker) recovered (first :: turns)).2 = executed := hexecuted
  obtain ⟨world', hexec, hquiet', hstore⟩ := exec_foreverEvents hquiet worker (first :: turns)
  rw [hsame] at hstore
  rw [← hstore, hexecuted] at hrecorded
  rw [← hstore] at hend hleft
  refine ⟨world', hexec, hquiet', hend, ?_, hrecorded, fun hlength j hj ↦ ?_⟩
  · rw [hsame, ← hexecuted, hstore]
  · have hbound : recovered.waiting.length ≤ _ :=
      length_waiting_recoverInterrupted hinv.ids first.recoverAt (config worker).maxRestartRetries
    have hnone : world'.store.waiting = [] := by
      rw [hleft]
      apply List.drop_eq_nil_of_le
      rw [List.length_cons]
      omega
    have hqueued : j.status ≠ .queued := fun hq ↦ by
      have hmem := mem_waiting.mpr ⟨hj, hq⟩
      rw [hnone] at hmem
      cases hmem
    have hrunning := hend.running j hj
    cases hs : j.status <;> simp_all [JobStatus.terminal]

def deadWorkerRun : List Event :=
  [.enqueue 0 "a" .daily "api" "k1", .enqueue 1 "b" .collect "api" "k2",
    .acquire 1, .readRecover 1, .recover 1, .readClaim 1, .claim 1, .crash 1]

theorem worker_drains_deadWorkerRun :
    let turns : List Turn := [⟨3600000000, 3600000000, 3600000001, .success⟩,
      ⟨3600000002, 3600000002, 3600000003, .exception⟩]
    ∃ world world', Visits (step fun _ ↦ {}) {} deadWorkerRun world ∧
      exec (step fun _ ↦ {}) world (foreverEvents {} 2 world.store turns) = some world' ∧
      ∀ j ∈ world'.store.jobs, j.status.terminal := by
  intro turns
  obtain ⟨world, hexec, hlock, hleases, hopen⟩ : ∃ world,
      exec (step fun _ ↦ {}) {} deadWorkerRun = some world ∧ world.lock = none ∧
      world.store.pipelineLeases = [claimLease 0 3600 "a"] ∧
      (world.store.jobs.filter fun j ↦ !j.status.terminal).length ≤ 2 :=
    ⟨_, rfl, rfl, by decide, by decide⟩
  have hvisits := visits_end hexec
  obtain ⟨world', hdrained, -, -, -, -, hended⟩ := worker_drains (fun _ ↦ {}) hvisits hlock 2
    ⟨3600000000, 3600000000, 3600000001,
      .success⟩ [⟨3600000002, 3600000002, 3600000003, .exception⟩]
    (by rw [hleases]; decide)
  exact ⟨world, world', hvisits, hdrained, hended hopen⟩

end AgenticSecurity.Jobs
