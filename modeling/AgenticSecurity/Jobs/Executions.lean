import AgenticSecurity.Jobs.Worker

namespace AgenticSecurity.Jobs

open Library Runs

/-- One run of a job, as the claim that started it left the tables. The endings are
the steps by which the job left the status `RUNNING`. -/
structure Execution where
  worker : ℕ
  job : JobRecord
  lease : Option PipelineLease
  endings : List Event := []
  deriving DecidableEq, Repr

/-- The system with all executions so far, the newest first. -/
structure Trace where
  world : World := {}
  executions : List Execution := []

def started (event : Event) (world : World) : List Execution :=
  match event with
  | .claim worker =>
    match world.phase worker with
    | .executing jobId =>
      ((world.store.byId jobId).map fun job ↦
        { worker, job, lease := activeLease world.store.pipelineLeases }).toList
    | _ => []
  | _ => []

/-- The jobs that are in status `RUNNING` before a step and not after it. -/
def stopped (before after : JobStore) : List String :=
  (before.runningJobs.map JobRecord.jobId).filter (· ∉ after.runningJobs.map JobRecord.jobId)

def close (event : Event) : List String → List Execution → List Execution
  | _, [] => []
  | jobIds, x :: xs =>
    if x.job.jobId ∈ jobIds then
      { x with endings := x.endings ++ [event] } :: close event (jobIds.filter (· ≠ x.job.jobId)) xs
    else x :: close event jobIds xs

variable (config : ℕ → WorkerConfig)

def Trace.step (trace : Trace) (event : Event) : Option Trace :=
  (Jobs.step config trace.world event).map fun world ↦
    { world,
      executions := started event world ++
        close event (stopped trace.world.store world.store) trace.executions }

def latest (jobId : String) (executions : List Execution) : Option Execution :=
  executions.find? fun x ↦ x.job.jobId = jobId

theorem latest_cons_self (x : Execution) (xs : List Execution) :
    latest x.job.jobId (x :: xs) = some x := by
  simp [latest]

theorem latest_cons_of_ne {jobId : String} {x : Execution} (h : x.job.jobId ≠ jobId)
    (xs : List Execution) : latest jobId (x :: xs) = latest jobId xs := by
  simp [latest, h]

@[simp] theorem close_nil (event : Event) (xs : List Execution) : close event [] xs = xs := by
  induction xs with
  | nil => rfl
  | cons x xs ih => rw [close, if_neg List.not_mem_nil, ih]

theorem latest_close {event : Event} {jobIds : List String} {jobId : String} (h : jobId ∉ jobIds)
    (xs : List Execution) : latest jobId (close event jobIds xs) = latest jobId xs := by
  induction xs generalizing jobIds with
  | nil => rfl
  | cons x xs ih =>
    rw [close]
    split_ifs with hx
    · have hne : x.job.jobId ≠ jobId := fun he ↦ h (he ▸ hx)
      rw [latest_cons_of_ne hne]
      refine (latest_cons_of_ne ?_ _).trans (ih fun hmem ↦ h (List.mem_of_mem_filter hmem))
      exact hne
    · by_cases hne : x.job.jobId = jobId
      · rw [← hne, latest_cons_self, latest_cons_self]
      · rw [latest_cons_of_ne hne, latest_cons_of_ne hne, ih h]

theorem mem_close {event : Event} {jobIds : List String} {xs : List Execution} {y : Execution}
    (h : y ∈ close event jobIds xs) :
    y ∈ xs ∨ ∃ x, latest x.job.jobId xs = some x ∧ x.job.jobId ∈ jobIds ∧
      y = { x with endings := x.endings ++ [event] } := by
  induction xs generalizing jobIds with
  | nil => cases h
  | cons x xs ih =>
    rw [close] at h
    split_ifs at h with hx
    · rcases List.mem_cons.mp h with rfl | hmem
      · exact .inr ⟨x, latest_cons_self x xs, hx, rfl⟩
      · rcases ih hmem with hold | ⟨z, hz, hin, rfl⟩
        · exact .inl (List.mem_cons_of_mem x hold)
        · obtain ⟨hin, hne⟩ := List.mem_filter.mp hin
          have hne : x.job.jobId ≠ z.job.jobId := fun he ↦ of_decide_eq_true hne he.symm
          exact .inr ⟨z, by rwa [latest_cons_of_ne hne], hin, rfl⟩
    · rcases List.mem_cons.mp h with rfl | hmem
      · exact .inl List.mem_cons_self
      · rcases ih hmem with hold | ⟨z, hz, hin, rfl⟩
        · exact .inl (List.mem_cons_of_mem x hold)
        · have hne : x.job.jobId ≠ z.job.jobId := fun he ↦ hx (he ▸ hin)
          exact .inr ⟨z, by rwa [latest_cons_of_ne hne], hin, rfl⟩

theorem mem_stopped {before after : JobStore} {jobId : String} :
    jobId ∈ stopped before after ↔
      (∃ j ∈ before.runningJobs, j.jobId = jobId) ∧ ∀ j ∈ after.runningJobs, j.jobId ≠ jobId := by
  simp [stopped]

theorem stopped_eq_nil {before after : JobStore}
    (h : ∀ j ∈ before.runningJobs, j ∈ after.runningJobs) : stopped before after = [] := by
  refine List.eq_nil_iff_forall_not_mem.mpr fun jobId hmem ↦ ?_
  obtain ⟨⟨j, hj, rfl⟩, hnone⟩ := mem_stopped.mp hmem
  exact hnone j (h j hj) rfl

def Phase.Executes (jobId : String) : Phase → Prop
  | .executing other | .finishing _ other _ => other = jobId
  | _ => False

/-- The newest execution is the worker's own and still runs, and the tables hold of it
what its claim wrote. -/
structure Trace.Owns (trace : Trace) (worker : ℕ) (jobId : String) (x : Execution) : Prop where
  newest : trace.executions.head? = some x
  byWorker : x.worker = worker
  ofJob : x.job.jobId = jobId
  running : x.job ∈ trace.world.store.runningJobs
  held : x.lease.map PipelineLease.holderId = some jobId
  leases : trace.world.store.pipelineLeases = x.lease.toList
  unended : x.endings = []

def Execution.ClosedOnce (x : Execution) : Prop :=
  x.endings = [] ∨ x.endings = [.finish x.worker] ∨ ∃ worker, x.endings = [.recover worker]

structure Trace.Inv (trace : Trace) : Prop where
  world : trace.world.Inv
  running : ∀ j ∈ trace.world.store.runningJobs,
    ∃ x, latest j.jobId trace.executions = some x ∧ x.job = j ∧ x.endings = []
  closedOnce : ∀ x ∈ trace.executions, x.ClosedOnce
  inside :
    ∀ worker jobId, (trace.world.phase worker).Executes jobId → ∃ x, trace.Owns worker jobId x

variable {config}

theorem Trace.Owns.latest {trace : Trace} {worker : ℕ} {jobId : String} {x : Execution}
    (h : trace.Owns worker jobId x) : Jobs.latest jobId trace.executions = some x := by
  obtain ⟨xs, hxs⟩ := List.head?_eq_some_iff.mp h.newest
  rw [hxs, ← h.ofJob, latest_cons_self]

theorem Inv_quiet {trace : Trace} (h : trace.Inv) {world : World} (hworld : world.Inv)
    {event : Event} (hstart : started event world = [])
    (hrun : world.store.runningJobs = trace.world.store.runningJobs)
    (hinside : ∀ worker jobId, (world.phase worker).Executes jobId →
      (trace.world.phase worker).Executes jobId ∧
        world.store.pipelineLeases = trace.world.store.pipelineLeases) :
    ({ world,
       executions := started event world ++
         close event (stopped trace.world.store world.store) trace.executions } : Trace).Inv := by
  have hstop : stopped trace.world.store world.store = [] := stopped_eq_nil fun j hj ↦ hrun ▸ hj
  rw [hstart, hstop, close_nil, List.nil_append]
  refine ⟨hworld, ?_, h.closedOnce, fun worker jobId hw ↦ ?_⟩
  · rw [hrun]
    exact h.running
  · obtain ⟨hold, hlease⟩ := hinside worker jobId hw
    obtain ⟨x, hx⟩ := h.inside worker jobId hold
    exact ⟨x, hx.newest, hx.byWorker, hx.ofJob, hrun ▸ hx.running, hx.held, hlease ▸ hx.leases,
      hx.unended⟩

theorem Inv_close {trace : Trace} (h : trace.Inv) {world : World} (hworld : world.Inv)
    {event : Event} (hrun : ∀ j ∈ world.store.runningJobs, j ∈ trace.world.store.runningJobs)
    (hstart : started event world = [])
    (hinside : ∀ worker jobId, ¬ (world.phase worker).Executes jobId)
    (hevent : ∀ x, latest x.job.jobId trace.executions = some x →
      x.job.jobId ∈ stopped trace.world.store world.store →
      event = .finish x.worker ∨ ∃ worker, event = .recover worker) :
    ({ world,
       executions := started event world ++
         close event (stopped trace.world.store world.store) trace.executions } : Trace).Inv := by
  rw [hstart, List.nil_append]
  refine ⟨hworld, fun j hj ↦ ?_, fun y hy ↦ ?_,
    fun worker jobId hw ↦ absurd hw (hinside worker jobId)⟩
  · obtain ⟨x, hx, hjob, hnil⟩ := h.running j (hrun j hj)
    have hkept : j.jobId ∉ stopped trace.world.store world.store :=
      fun hmem ↦ (mem_stopped.mp hmem).2 j hj rfl
    exact ⟨x, (latest_close hkept _).trans hx, hjob, hnil⟩
  · rcases mem_close hy with hold | ⟨x, hx, hstop, rfl⟩
    · exact h.closedOnce y hold
    · obtain ⟨⟨j, hj, hid⟩, -⟩ := mem_stopped.mp hstop
      obtain ⟨z, hz, -, hnil⟩ := h.running j hj
      obtain rfl : z = x := Option.some.inj (hz.symm.trans (hid ▸ hx))
      unfold Execution.ClosedOnce
      rw [hnil, List.nil_append]
      rcases hevent z hx hstop with he | ⟨worker, he⟩
      · exact .inr (.inl (by rw [he]))
      · exact .inr (.inr ⟨worker, by rw [he]⟩)
theorem claimed_row {store : JobStore} (h : store.Inv) {current : Timestamp} {leaseSeconds : ℤ}
    {job : JobRecord} (hjob : (store.claimNext current leaseSeconds).2 = some job) :
    ∃ row ∈ store.jobs, row.status = .queued ∧ job = claimUpdate current row ∧
      (store.claimNext current leaseSeconds).1.jobs =
        Table.updateWhere (fun j ↦ j.jobId = row.jobId ∧ j.status = .queued) (claimUpdate current)
          store.jobs ∧
      (store.claimNext current leaseSeconds).1.pipelineLeases =
        [claimLease current leaseSeconds row.jobId] := by
  rcases claimNext_cases store current leaseSeconds with ⟨-, he⟩ | ⟨row, hrow, hq, hnone, hid, he⟩
  · rw [he] at hjob
    cases hjob
  have hjobs := congrArg JobStore.jobs he
  have hleases := congrArg JobStore.pipelineLeases he
  have hnil : dropExpired current store.pipelineLeases = [] :=
    (activeLease_eq_none fun l hl ↦ h.named l (mem_dropExpired.mp hl).1).mp hnone
  have hmem := (mem_runningJobs.mp (runningJobs_claimNext hrow hq hjobs).1).1
  have hfind : (store.claimNext current leaseSeconds).1.byId row.jobId =
      some (claimUpdate current row) :=
    Table.find_key (Inv_claimNext h current leaseSeconds).ids hmem
  refine ⟨row, hrow, hq, ?_, hjobs, ?_⟩
  · rw [hid, hfind] at hjob
    exact (Option.some.inj hjob).symm
  · rw [hleases, hnil, List.nil_append]

theorem claimed_none {store : JobStore} (h : store.Inv) {current : Timestamp} {leaseSeconds : ℤ}
    (hjob : (store.claimNext current leaseSeconds).2 = none) :
    (store.claimNext current leaseSeconds).1.jobs = store.jobs := by
  rcases claimNext_cases store current leaseSeconds with ⟨-, he⟩ | ⟨row, hrow, hq, -, hid, he⟩
  · rw [he]
  · have hmem :=
      (mem_runningJobs.mp (runningJobs_claimNext hrow hq (congrArg JobStore.jobs he)).1).1
    have hfind : (store.claimNext current leaseSeconds).1.byId row.jobId =
        some (claimUpdate current row) :=
      Table.find_key (Inv_claimNext h current leaseSeconds).ids hmem
    rw [hid, hfind] at hjob
    cases hjob

theorem not_executes_goto {world : World} (h : world.Inv) {worker : ℕ}
    (hw : world.phase worker ≠ .idle) {next : Phase} (hnext : ∀ jobId, ¬ next.Executes jobId)
    (other : ℕ) (jobId : String) :
    ¬ ((world.goto worker next).phase other).Executes jobId := by
  rw [goto_phase]
  split_ifs with he
  · exact hnext jobId
  · rw [idle_of_ne h hw he]
    exact id

theorem executes_of_goto {world : World} {worker other : ℕ} {next : Phase} {jobId : String}
    (hnext : next.Executes jobId → (world.phase worker).Executes jobId)
    (h : ((world.goto worker next).phase other).Executes jobId) :
    (world.phase other).Executes jobId := by
  rw [goto_phase] at h
  split_ifs at h with he
  · exact he ▸ hnext h
  · exact h

theorem Inv_claimed {trace : Trace} (h : trace.Inv) {worker : ℕ} {current : Timestamp}
    {job : JobRecord} {leaseSeconds : ℤ} (hw : trace.world.phase worker = .claiming current)
    (hjob : (trace.world.store.claimNext current leaseSeconds).2 = some job) {world : World}
    (hworld : world.Inv)
    (hphase : world.phase = (trace.world.goto worker (.executing job.jobId)).phase)
    (hstore : world.store = (trace.world.store.claimNext current leaseSeconds).1) :
    ({ world,
       executions := started (.claim worker) world ++
         close (.claim worker) (stopped trace.world.store world.store) trace.executions } :
           Trace).Inv := by
  obtain ⟨row, hrow, hq, rfl, hjobs, hleases⟩ := claimed_row h.world.store hjob
  obtain ⟨hnew, hold, hafter⟩ := runningJobs_claimNext hrow hq hjobs
  rw [← hstore] at hjobs hleases hnew hold hafter
  have hfind : world.store.byId (claimUpdate current row).jobId = some (claimUpdate current row) :=
    Table.find_key hworld.store.ids (mem_runningJobs.mp hnew).1
  have hactive : activeLease world.store.pipelineLeases =
      some (claimLease current leaseSeconds row.jobId) := by
    rw [hleases]
    rfl
  have hstart : started (.claim worker) world =
      [{ worker, job := claimUpdate current row,
         lease := some (claimLease current leaseSeconds row.jobId) }] := by
    simp only [started, hphase, goto_phase, if_true, hfind, hactive]
    rfl
  rw [hstart, stopped_eq_nil hold, close_nil]
  refine ⟨hworld, fun j hj ↦ ?_, fun x hx ↦ ?_, fun other jobId hother ↦ ?_⟩
  · rcases hafter j hj with hid | hprior
    · obtain rfl : j = claimUpdate current row :=
        Table.eq_of_key hworld.store.ids (mem_runningJobs.mp hj).1 (mem_runningJobs.mp hnew).1 hid
      exact ⟨_, latest_cons_self _ _, rfl, rfl⟩
    · obtain ⟨x, hx, hxj, hnil⟩ := h.running j hprior
      have hne : row.jobId ≠ j.jobId := by
        intro he
        have hsame := Table.eq_of_key h.world.store.ids hrow (mem_runningJobs.mp hprior).1 he
        rw [hsame, (mem_runningJobs.mp hprior).2] at hq
        cases hq
      exact ⟨x, (latest_cons_of_ne hne _).trans hx, hxj, hnil⟩
  · rcases List.mem_cons.mp hx with rfl | hmem
    · exact .inl rfl
    · exact h.closedOnce x hmem
  · rw [hphase, goto_phase] at hother
    split_ifs at hother with he
    · exact ⟨_, rfl, he.symm, hother, hnew, congrArg some hother, hleases, rfl⟩
    · rw [idle_of_ne h.world (by simp [hw]) he] at hother
      exact hother.elim

theorem Trace.Owns.finish_ok {trace : Trace} (h : trace.Inv) {worker : ℕ} {jobId : String}
    {x : Execution} (hx : trace.Owns worker jobId x) (finishedAt : Timestamp) (outcome : Outcome) :
    ∃ store record, trace.world.store.finish finishedAt jobId outcome.status outcome.failureCategory
      outcome.sanitizedFailureMessage = .ok (store, record) := by
  obtain ⟨hmem, hrun⟩ := mem_runningJobs.mp hx.running
  have hterm : outcome.status.terminal = true := by cases outcome <;> rfl
  have hsame : trace.world.store.jobs.filter (fun j ↦ j.jobId = jobId ∧ j.status = .running) =
      trace.world.store.jobs.filter (fun j ↦ j.jobId = jobId) := by
    refine List.filter_congr fun j hj ↦ ?_
    by_cases hid : j.jobId = jobId
    · have he : j = x.job := Table.eq_of_key h.world.store.ids hj hmem (hid.trans hx.ofJob.symm)
      simp [he, hrun]
    · simp [hid]
  have hone : (trace.world.store.jobs.filter (fun j ↦ j.jobId = jobId ∧ j.status = .running)).length = 1 := by
    rw [hsame, ← hx.ofJob]
    exact Table.length_filter_key h.world.store.ids hmem
  simp only [JobStore.finish, hterm, hone, not_true_eq_false, if_false, ne_eq]
  exact ⟨_, _, rfl⟩

theorem finish_attempt_others {store : JobStore} {finishedAt : Timestamp} {jobId : String}
    (outcome : Outcome) {j : JobRecord} (hj : j ∈ store.runningJobs) (hne : j.jobId ≠ jobId) :
    j ∈ (attempt JobOp.apply store (.finish finishedAt jobId outcome.status outcome.failureCategory
      outcome.sanitizedFailureMessage)).runningJobs := by
  cases ha : JobOp.apply store (.finish finishedAt jobId outcome.status outcome.failureCategory
    outcome.sanitizedFailureMessage) with
  | error e => rwa [attempt_error ha]
  | ok store' =>
    rw [attempt_ok ha]
    obtain ⟨⟨s, record⟩, hf, rfl⟩ := except_map_ok.mp ha
    obtain ⟨-, -, rfl⟩ := finish_cases hf
    obtain ⟨hmem, hrun⟩ := mem_runningJobs.mp hj
    exact mem_runningJobs.mpr ⟨Table.mem_updateWhere.mpr ⟨j, hmem, by simp [hne]⟩, hrun⟩

theorem Trace.Inv_step {trace trace' : Trace} {event : Event} (h : trace.Inv)
    (htrace : trace.step config event = some trace') : trace'.Inv := by
  obtain ⟨world, hs, rfl⟩ := Option.map_eq_some_iff.mp htrace
  have hworld := Jobs.Inv_step h.world hs
  cases step_cases hs with
  | clock reading => exact Inv_quiet h hworld rfl rfl fun worker jobId hw ↦ ⟨hw, rfl⟩
  | enqueue createdAt jobId jobType requestedBy key =>
    obtain ⟨hrun, hlease⟩ := enqueue_attempt trace.world.store createdAt jobId jobType requestedBy key
    exact Inv_quiet h hworld rfl hrun fun worker jobId hw ↦ ⟨hw, hlease⟩
  | refused worker => exact Inv_quiet h hworld rfl rfl fun worker jobId hw ↦ ⟨hw, rfl⟩
  | acquired worker _ _ | readRecover worker _ | readClaim worker _ | leave worker _ | crash worker =>
    exact Inv_quiet h hworld rfl rfl fun other jobId hw ↦ ⟨executes_of_goto False.elim hw, rfl⟩
  | executed worker outcome jobId hphase =>
    refine Inv_quiet h hworld rfl rfl fun other jobId hw ↦ ⟨executes_of_goto (fun he ↦ ?_) hw, rfl⟩
    rw [hphase]
    exact he
  | recover worker current hphase =>
    refine Inv_close h hworld
      (fun j hj ↦ (runningJobs_recoverInterrupted h.world.store hj).1) rfl ?_
      fun _ _ _ ↦ .inr ⟨worker, rfl⟩
    exact not_executes_goto h.world (by simp [hphase]) fun _ ↦ id
  | claimedNone worker current hphase hjob =>
    refine Inv_quiet h hworld ?_ ?_ fun other jobId hw ↦
      absurd hw (not_executes_goto h.world (by simp [hphase]) (fun _ ↦ id) other jobId)
    · simp only [started, goto_phase, if_true]
    · simp only [JobStore.runningJobs, claimed_none h.world.store hjob]
  | claimed worker current job hphase hjob => exact Inv_claimed h hphase hjob hworld rfl rfl
  | finish worker finishedAt jobId outcome hphase =>
    refine Inv_close h hworld (finish_attempt _ _ _ _) rfl
      (not_executes_goto h.world (by simp [hphase]) fun _ ↦ id) fun y hy hstop ↦ .inl ?_
    obtain ⟨x, hx⟩ := h.inside worker jobId (by rw [hphase]; rfl)
    obtain ⟨⟨j, hj, hid⟩, hnone⟩ := mem_stopped.mp hstop
    have hjob : y.job.jobId = jobId := by
      by_contra hne
      exact hnone j (finish_attempt_others outcome hj (hid ▸ hne)) hid
    obtain rfl : y = x := Option.some.inj ((hjob ▸ hy).symm.trans hx.latest)
    rw [hx.byWorker]

theorem Trace.Inv_visits {events : List Event} {trace : Trace}
    (h : Visits (Trace.step config) {} events trace) : trace.Inv := by
  refine visits_invariant Trace.Inv ⟨Inv_start, ?_, ?_,
    ?_⟩ (fun _ _ _ _ hu hs ↦ Trace.Inv_step hu hs) trace h
  · exact fun j hj ↦ absurd hj List.not_mem_nil
  · exact fun x hx ↦ absurd hx List.not_mem_nil
  · exact fun worker jobId hw ↦ hw.elim

variable (config)

/-- Every `finish` of a `run_once` records the outcome of the newest execution, which is
its own, on the row and over the lease that its claim wrote, and does not raise. No
execution ends more than once, nor by the `finish` of another worker. -/
theorem executions_closed_by_own_claim (events : List Event) :
    (∀ trace worker, Takes (Trace.step config) {} events trace (.finish worker) →
      ∀ finishedAt jobId outcome, trace.world.phase worker = .finishing finishedAt jobId outcome →
        (∃ x, trace.Owns worker jobId x) ∧
        ∃ store record, trace.world.store.finish finishedAt jobId outcome.status
          outcome.failureCategory outcome.sanitizedFailureMessage = .ok (store, record)) ∧
    ∀ trace, Visits (Trace.step config) {} events trace → ∀ x ∈ trace.executions, x.ClosedOnce := by
  refine ⟨fun trace worker htakes finishedAt jobId outcome hphase ↦ ?_,
    fun trace hvisits ↦ (Trace.Inv_visits hvisits).closedOnce⟩
  have hinv := Trace.Inv_visits htakes.visits
  obtain ⟨x, hx⟩ := hinv.inside worker jobId (by rw [hphase]; rfl)
  exact ⟨⟨x, hx⟩, hx.finish_ok hinv finishedAt outcome⟩

/-- Worker 1 dies while it executes `a` and worker 2 recovers the job. Its second
execution outlives the lease, and worker 1 is refused the lock until it has ended. -/
def overrunRun : List Event :=
  [.enqueue 0 "a" .daily "api" "k1", .acquire 1, .readRecover 1, .recover 1, .readClaim 1, .claim 1,
    .crash 1, .clock 40000000, .acquire 2, .readRecover 2, .recover 2, .readClaim 2, .claim 2,
    .enqueue 1 "b" .collect "api" "k2", .clock 90000000, .acquire 1,
    .executed 2 .success, .finish 2]

theorem executions_closed_by_own_claim_overrunRun :
    ∃ trace, Visits (Trace.step fun _ ↦ { pipelineLeaseSeconds := 30 }) {} overrunRun trace ∧
      trace.executions.map (fun x ↦ (x.worker, x.job.jobId, x.endings)) =
        [(2, "a", [.finish 2]), (1, "a", [.recover 2])] ∧
      ∀ x ∈ trace.executions, x.ClosedOnce := by
  have hrun : (exec (Trace.step fun _ ↦ { pipelineLeaseSeconds := 30 }) {} overrunRun).map
      (fun trace ↦ trace.executions.map fun x ↦ (x.worker, x.job.jobId, x.endings)) =
      some [(2, "a", [.finish 2]), (1, "a", [.recover 2])] := by decide
  obtain ⟨trace, hexec, hendings⟩ := Option.map_eq_some_iff.mp hrun
  exact ⟨trace, visits_end hexec, hendings,
    (executions_closed_by_own_claim _ overrunRun).2 trace (visits_end hexec)⟩

end AgenticSecurity.Jobs
