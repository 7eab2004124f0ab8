import AgenticSecurity.Jobs.StoreInvariant
import Mathlib.Logic.Function.Basic

namespace AgenticSecurity.Jobs

open Library Runs

/-- What `RuntimeJobExecutor.execute` does, as `run_once` sees it. -/
inductive Outcome
  | success
  | jobExecutionError (category : FailureCategory) (safeMessage : String)
  | exception
  deriving DecidableEq, Repr

def Outcome.status : Outcome → JobStatus
  | .success => .succeeded
  | .jobExecutionError _ _ | .exception => .failed

def Outcome.failureCategory : Outcome → Option FailureCategory
  | .success => none
  | .jobExecutionError category _ => some category
  | .exception => some .internalError

def Outcome.sanitizedFailureMessage : Outcome → Option String
  | .success => none
  | .jobExecutionError _ safeMessage => some safeMessage
  | .exception => some "The job failed unexpectedly; inspect private service logs."

theorem Outcome.failureCategory_isSome (outcome : Outcome) :
    outcome.failureCategory.isSome ↔ outcome.status = .failed := by
  cases outcome <;> simp [failureCategory, status]

/-- Where a worker process stands in `Worker.run_once`. A transaction uses the
reading of the clock that the phase before it took. -/
inductive Phase
  | idle
  | locked
  | recovering (current : Timestamp)
  | recovered
  | claiming (current : Timestamp)
  | executing (jobId : String)
  | finishing (finishedAt : Timestamp) (jobId : String) (outcome : Outcome)
  | leaving
  deriving DecidableEq, Repr

structure WorkerConfig where
  pipelineLeaseSeconds : ℤ := 3600
  maxRestartRetries : ℕ := 1

/-- One job database, one lock file and any number of worker processes. -/
structure World where
  store : JobStore := {}
  clock : Timestamp := 0
  lock : Option ℕ := none
  phase : ℕ → Phase := fun _ ↦ .idle

inductive Event
  | clock (reading : Timestamp)
  | enqueue (createdAt : Timestamp) (jobId : String) (jobType : JobType) (requestedBy key : String)
  | acquire (worker : ℕ)
  | readRecover (worker : ℕ)
  | recover (worker : ℕ)
  | readClaim (worker : ℕ)
  | claim (worker : ℕ)
  | executed (worker : ℕ) (outcome : Outcome)
  | finish (worker : ℕ)
  | leave (worker : ℕ)
  | crash (worker : ℕ)
  deriving DecidableEq, Repr

def World.goto (world : World) (worker : ℕ) (phase : Phase) : World :=
  { world with phase := Function.update world.phase worker phase }

def World.release (world : World) (worker : ℕ) : World :=
  { world.goto worker .idle with lock := if world.lock = some worker then none else world.lock }

variable (config : ℕ → WorkerConfig)

/-- One step of the system; `none` when the event is not possible in the phase. -/
def step (world : World) : Event → Option World
  | .clock reading => some { world with clock := reading }
  | .enqueue createdAt jobId jobType requestedBy key =>
    some { world with
      store := attempt JobOp.apply world.store
        (.enqueue createdAt jobId jobType requestedBy key) }
  | .acquire worker =>
    match world.phase worker with
    | .idle =>
      if world.lock = none then some { world.goto worker .locked with lock := some worker }
      else some world
    | _ => none
  | .readRecover worker =>
    match world.phase worker with
    | .locked => some (world.goto worker (.recovering world.clock))
    | _ => none
  | .recover worker =>
    match world.phase worker with
    | .recovering current =>
      some { world.goto worker .recovered with
        store := (world.store.recoverInterrupted current (config worker).maxRestartRetries).1 }
    | _ => none
  | .readClaim worker =>
    match world.phase worker with
    | .recovered => some (world.goto worker (.claiming world.clock))
    | _ => none
  | .claim worker =>
    match world.phase worker with
    | .claiming current =>
      let claimed := world.store.claimNext current (config worker).pipelineLeaseSeconds
      let next := match claimed.2 with | none => .leaving | some job => .executing job.jobId
      some { world.goto worker next with store := claimed.1 }
    | _ => none
  | .executed worker outcome =>
    match world.phase worker with
    | .executing jobId => some (world.goto worker (.finishing world.clock jobId outcome))
    | _ => none
  | .finish worker =>
    match world.phase worker with
    -- `finish` leaves the block whether it records the outcome or raises
    | .finishing finishedAt jobId outcome =>
      some { world.goto worker .leaving with
        store := attempt JobOp.apply world.store
          (.finish finishedAt jobId outcome.status outcome.failureCategory
            outcome.sanitizedFailureMessage) }
    | _ => none
  | .leave worker =>
    match world.phase worker with
    | .leaving => some (world.release worker)
    | _ => none
  | .crash worker => some (world.release worker)

inductive StepCase (world : World) : Event → World → Prop
  | clock (reading : Timestamp) : StepCase world (.clock reading) { world with clock := reading }
  | enqueue (createdAt : Timestamp) (jobId : String) (jobType : JobType)
      (requestedBy key : String) :
      StepCase world (.enqueue createdAt jobId jobType requestedBy key)
        { world with
          store := attempt JobOp.apply world.store
            (.enqueue createdAt jobId jobType requestedBy key) }
  | acquired (worker : ℕ) (hw : world.phase worker = .idle) (hlock : world.lock = none) :
      StepCase world (.acquire worker) { world.goto worker .locked with lock := some worker }
  | refused (worker : ℕ) : StepCase world (.acquire worker) world
  | readRecover (worker : ℕ) (hw : world.phase worker = .locked) :
      StepCase world (.readRecover worker) (world.goto worker (.recovering world.clock))
  | recover (worker : ℕ) (current : Timestamp) (hw : world.phase worker = .recovering current) :
      StepCase world (.recover worker)
        { world.goto worker .recovered with
          store := (world.store.recoverInterrupted current (config worker).maxRestartRetries).1 }
  | readClaim (worker : ℕ) (hw : world.phase worker = .recovered) :
      StepCase world (.readClaim worker) (world.goto worker (.claiming world.clock))
  | claimedNone (worker : ℕ) (current : Timestamp) (hw : world.phase worker = .claiming current)
      (hjob : (world.store.claimNext current (config worker).pipelineLeaseSeconds).2 = none) :
      StepCase world (.claim worker)
        { world.goto worker .leaving with
          store := (world.store.claimNext current (config worker).pipelineLeaseSeconds).1 }
  | claimed (worker : ℕ) (current : Timestamp) (job : JobRecord)
      (hw : world.phase worker = .claiming current)
      (hjob : (world.store.claimNext current (config worker).pipelineLeaseSeconds).2 = some job) :
      StepCase world (.claim worker)
        { world.goto worker (.executing job.jobId) with
          store := (world.store.claimNext current (config worker).pipelineLeaseSeconds).1 }
  | executed (worker : ℕ) (outcome : Outcome) (jobId : String)
      (hw : world.phase worker = .executing jobId) :
      StepCase world (.executed worker outcome)
        (world.goto worker (.finishing world.clock jobId outcome))
  | finish (worker : ℕ) (finishedAt : Timestamp) (jobId : String) (outcome : Outcome)
      (hw : world.phase worker = .finishing finishedAt jobId outcome) :
      StepCase world (.finish worker)
        { world.goto worker .leaving with
          store := attempt JobOp.apply world.store
            (.finish finishedAt jobId outcome.status outcome.failureCategory
              outcome.sanitizedFailureMessage) }
  | leave (worker : ℕ) (hw : world.phase worker = .leaving) :
      StepCase world (.leave worker) (world.release worker)
  | crash (worker : ℕ) : StepCase world (.crash worker) (world.release worker)

variable {config} in
theorem step_cases {world world' : World} {event : Event}
    (hs : step config world event = some world') :
    StepCase config world event world' := by
  cases event with
  | clock reading => exact Option.some.inj hs ▸ .clock reading
  | enqueue createdAt jobId jobType requestedBy key => exact Option.some.inj hs ▸ .enqueue ..
  | acquire worker =>
    simp only [step] at hs
    split at hs
    next hw =>
      split_ifs at hs with hlock <;> obtain rfl := Option.some.inj hs
      · exact .acquired worker hw hlock
      · exact .refused worker
    · cases hs
  | claim worker =>
    simp only [step] at hs
    split at hs
    next current hw =>
      obtain rfl := Option.some.inj hs
      cases hjob : (world.store.claimNext current (config worker).pipelineLeaseSeconds).2 with
      | none => exact .claimedNone worker current hw hjob
      | some job => exact .claimed worker current job hw hjob
    · cases hs
  | crash worker => exact Option.some.inj hs ▸ .crash worker
  | readRecover worker | recover worker | readClaim worker | executed worker outcome | finish worker
  | leave worker =>
    simp only [step] at hs
    split at hs
    · obtain rfl := Option.some.inj hs
      constructor
      assumption
    · cases hs

/-- The jobs in status `RUNNING`, of which `active_job` shows the first. -/
def JobStore.runningJobs (store : JobStore) : List JobRecord :=
  store.jobs.filter fun j ↦ j.status = .running

def JobStore.SingleRunning (store : JobStore) : Prop := store.runningJobs.length ≤ 1

/-- The claim about to be made has a queued job to start, and it reads the clock
at or after the expiry of a lease that is still stored. -/
def ClaimsOverExpiredLease (world : World) : Event → Prop
  | .claim worker => ∃ current, world.phase worker = .claiming current ∧
      (∃ l ∈ world.store.pipelineLeases, l.expiresAt ≤ current) ∧
      ∃ j ∈ world.store.jobs, j.status = .queued
  | _ => False

theorem mem_runningJobs {store : JobStore} {j : JobRecord} :
    j ∈ store.runningJobs ↔ j ∈ store.jobs ∧ j.status = .running := by
  simp [JobStore.runningJobs]

theorem singleRunning_iff {store : JobStore} (hids : (store.jobs.map JobRecord.jobId).Nodup) :
    store.SingleRunning ↔ ∀ j ∈ store.runningJobs, ∀ k ∈ store.runningJobs, j.jobId = k.jobId := by
  have hnodup : (store.runningJobs.map JobRecord.jobId).Nodup :=
    hids.sublist (List.filter_sublist.map _)
  unfold JobStore.SingleRunning
  match hr : store.runningJobs with
  | [] => simp
  | [_] => simp
  | a :: b :: _ =>
    rw [hr] at hnodup
    constructor
    · intro h
      simp at h
    · intro h
      have hab := h a (by simp) b (by simp)
      simp [hab] at hnodup

theorem singleRunning_of_subset {store store' : JobStore} (h : store.Inv) (h' : store'.Inv)
    (hsub : ∀ j ∈ store'.runningJobs, ∃ k ∈ store.runningJobs, k.jobId = j.jobId)
    (hs : store.SingleRunning) : store'.SingleRunning := by
  rw [singleRunning_iff h'.ids]
  rw [singleRunning_iff h.ids] at hs
  intro j hj k hk
  obtain ⟨a, ha, haj⟩ := hsub j hj
  obtain ⟨b, hb, hbk⟩ := hsub k hk
  exact haj.symm.trans ((hs a ha b hb).trans hbk)

theorem recoverUpdate_not_running (current : Timestamp) (maxRetries : ℕ) (seen j : JobRecord) :
    (recoverUpdate current maxRetries seen j).status ≠ .running := by
  unfold recoverUpdate
  split_ifs with hrun <;> simp_all

theorem runningJobs_recoverInterrupted {store : JobStore} (h : store.Inv) {current : Timestamp}
    {maxRetries : ℕ} {j : JobRecord}
    (hj : j ∈ (store.recoverInterrupted current maxRetries).1.runningJobs) :
    j ∈ store.runningJobs ∧
      some j.jobId = (activeLease (dropExpired current store.pipelineLeases)).map
        PipelineLease.holderId := by
  obtain ⟨hj, hrun⟩ := mem_runningJobs.mp hj
  rw [recoverInterrupted_jobs h.ids, List.mem_map] at hj
  obtain ⟨i, hi, rfl⟩ := hj
  unfold recoverRow at hrun ⊢
  split_ifs at hrun ⊢ with hheld
  · exact ⟨mem_runningJobs.mpr ⟨hi, hrun⟩, hheld⟩
  · exact absurd hrun (recoverUpdate_not_running _ _ _ _)

theorem runningJobs_enqueue {store store' : JobStore} {createdAt : Timestamp} {jobId : String}
    {jobType : JobType} {requestedBy key : String} {job : JobRecord} {replay : Bool}
    (he : store.enqueue createdAt jobId jobType requestedBy key = .ok (store', job, replay)) :
    store'.runningJobs = store.runningJobs ∧ store'.pipelineLeases = store.pipelineLeases := by
  rcases enqueue_cases he with ⟨-, rfl, -⟩ | ⟨-, -, -, rfl, rfl⟩
  · exact ⟨rfl, rfl⟩
  · exact ⟨by simp [JobStore.runningJobs], rfl⟩

theorem runningJobs_finish {store store' : JobStore} {finishedAt : Timestamp} {jobId : String}
    {status : JobStatus} {failureCategory : Option FailureCategory} {message : Option String}
    {record : Option JobRecord}
    (hf : store.finish finishedAt jobId status failureCategory message = .ok (store', record)) :
    ∀ j ∈ store'.runningJobs, j ∈ store.runningJobs := by
  obtain ⟨hterm, -, rfl⟩ := finish_cases hf
  intro j hj
  obtain ⟨hj, hrun⟩ := mem_runningJobs.mp hj
  obtain ⟨i, hi, rfl⟩ := Table.mem_updateWhere.mp hj
  split_ifs at hrun ⊢ with hp
  · rw [show status = .running from hrun] at hterm
    cases hterm
  · exact mem_runningJobs.mpr ⟨hi, hrun⟩

/-- Only the holder of the lock file is inside the block, and between its two
transactions a job still runs only under a stored lease. -/
structure World.Inv (world : World) : Prop where
  store : world.store.Inv
  exclusive : ∀ worker, world.phase worker ≠ .idle → world.lock = some worker
  recovered : ∀ worker,
    (world.phase worker = .recovered ∨ ∃ current, world.phase worker = .claiming current) →
    world.store.pipelineLeases = [] → world.store.runningJobs = []

variable {config}

theorem goto_phase (world : World) (worker other : ℕ) (phase : Phase) :
    (world.goto worker phase).phase other =
      if other = worker then phase else world.phase other := by
  simp only [World.goto, Function.update_apply]

theorem idle_of_ne {world : World} (h : world.Inv) {worker other : ℕ}
    (hw : world.phase worker ≠ .idle) (hne : other ≠ worker) : world.phase other = .idle := by
  by_contra hother
  have hlock := (h.exclusive other hother).symm.trans (h.exclusive worker hw)
  exact hne (Option.some.inj hlock)

theorem Inv_goto {world : World} (h : world.Inv) {worker : ℕ} {next : Phase} {store : JobStore}
    (hw : world.phase worker ≠ .idle) (hstore : store.Inv)
    (hrec : (next = .recovered ∨ ∃ current, next = .claiming current) →
      store.pipelineLeases = [] → store.runningJobs = []) :
    { world.goto worker next with store := store : World }.Inv := by
  refine ⟨hstore, ?_, ?_⟩
  · intro other hother
    by_cases he : other = worker
    · exact he ▸ h.exclusive worker hw
    · rw [goto_phase, if_neg he] at hother
      exact absurd (idle_of_ne h hw he) hother
  · intro other hother
    rw [goto_phase] at hother
    split_ifs at hother with he
    · exact hrec hother
    · rw [idle_of_ne h hw he] at hother
      simp at hother

theorem Inv_release {world : World} (h : world.Inv) (worker : ℕ) : (world.release worker).Inv := by
  refine ⟨h.store, ?_, ?_⟩
  · intro other hother
    have hphase : (world.release worker).phase other =
        if other = worker then .idle else world.phase other := goto_phase world worker other .idle
    rw [hphase] at hother
    split_ifs at hother with he
    · exact absurd rfl hother
    · have hlock := h.exclusive other hother
      simp [World.release, hlock, he]
  · intro other hother
    have hphase : (world.release worker).phase other =
        if other = worker then .idle else world.phase other := goto_phase world worker other .idle
    rw [hphase] at hother
    split_ifs at hother
    · simp at hother
    · exact h.recovered other hother

theorem enqueue_attempt (store : JobStore) (createdAt : Timestamp) (jobId : String)
    (jobType : JobType) (requestedBy key : String) :
    (attempt JobOp.apply store (.enqueue createdAt jobId jobType requestedBy key)).runningJobs =
      store.runningJobs ∧
    (attempt JobOp.apply store (.enqueue createdAt jobId jobType requestedBy key)).pipelineLeases =
      store.pipelineLeases := by
  cases ha : JobOp.apply store (.enqueue createdAt jobId jobType requestedBy key) with
  | error e => rw [attempt_error ha]; exact ⟨rfl, rfl⟩
  | ok store' =>
    rw [attempt_ok ha]
    obtain ⟨⟨s, job, replay⟩, he, rfl⟩ := except_map_ok.mp ha
    exact runningJobs_enqueue he

theorem finish_attempt (store : JobStore) (finishedAt : Timestamp) (jobId : String)
    (outcome : Outcome) :
    ∀ j ∈ (attempt JobOp.apply store (.finish finishedAt jobId outcome.status
      outcome.failureCategory outcome.sanitizedFailureMessage)).runningJobs,
    j ∈ store.runningJobs := by
  cases ha : JobOp.apply store (.finish finishedAt jobId outcome.status outcome.failureCategory
    outcome.sanitizedFailureMessage) with
  | error e => rw [attempt_error ha]; exact fun _ hj ↦ hj
  | ok store' =>
    rw [attempt_ok ha]
    obtain ⟨⟨s, record⟩, hf, rfl⟩ := except_map_ok.mp ha
    exact runningJobs_finish hf

theorem Inv_attempt {store : JobStore} (h : store.Inv) {op : JobOp} (hop : op.AsRunOnce) :
    (attempt JobOp.apply store op).Inv := by
  have hops : ∀ op' ∈ [op], op'.AsRunOnce := by simpa using hop
  exact Inv_attempts h hops

theorem Inv_step {world world' : World} {event : Event} (h : world.Inv)
    (hs : step config world event = some world') : world'.Inv := by
  cases step_cases hs with
  | clock reading => exact ⟨h.store, h.exclusive, h.recovered⟩
  | enqueue createdAt jobId jobType requestedBy key =>
    obtain ⟨hrun, hlease⟩ := enqueue_attempt world.store createdAt jobId jobType requestedBy key
    exact ⟨Inv_attempt h.store trivial, h.exclusive,
      fun worker hw hnil ↦ hrun.trans (h.recovered worker hw (hlease.symm.trans hnil))⟩
  | acquired worker _ hlock =>
    have hall : ∀ other, world.phase other = .idle := by
      intro other
      by_contra hother
      exact absurd (hlock.symm.trans (h.exclusive other hother)) (by simp)
    refine ⟨h.store, fun other hother ↦ ?_, fun other hother ↦ ?_⟩
    · rw [goto_phase, hall other] at hother
      split_ifs at hother with he
      · rw [he]
      · exact absurd rfl hother
    · rw [goto_phase, hall other] at hother
      split_ifs at hother <;> simp at hother
  | refused worker => exact h
  | readRecover worker hw => exact Inv_goto h (by simp [hw]) h.store (by simp)
  | recover worker current hw =>
    refine Inv_goto h (by simp [hw]) (Inv_recoverInterrupted h.store _ _) fun _ hnil ↦ ?_
    refine List.eq_nil_iff_forall_not_mem.mpr fun j hj ↦ ?_
    have hheld := (runningJobs_recoverInterrupted h.store hj).2
    rw [recoverInterrupted_leases] at hnil
    simp [hnil, activeLease] at hheld
  | readClaim worker hw =>
    exact Inv_goto h (by simp [hw]) h.store fun _ ↦ h.recovered worker (.inl hw)
  | claimedNone worker current hw _ =>
    exact Inv_goto h (by simp [hw]) (Inv_claimNext h.store _ _) (by simp)
  | claimed worker current job hw _ =>
    exact Inv_goto h (by simp [hw]) (Inv_claimNext h.store _ _) (by simp)
  | executed worker outcome jobId hw => exact Inv_goto h (by simp [hw]) h.store (by simp)
  | finish worker finishedAt jobId outcome hw =>
    exact Inv_goto h (by simp [hw]) (Inv_attempt h.store outcome.failureCategory_isSome) (by simp)
  | leave worker _ => exact Inv_release h worker
  | crash worker => exact Inv_release h worker

theorem Inv_start : ({} : World).Inv :=
  ⟨Inv_empty, fun _ h ↦ absurd rfl h, fun _ _ _ ↦ rfl⟩

theorem Inv_visits {events : List Event} {world : World}
    (h : Visits (step config) {} events world) : world.Inv :=
  visits_invariant World.Inv Inv_start (fun _ _ _ _ hu hs ↦ Inv_step hu hs) world h

theorem step_store {world world' : World} {event : Event}
    (hs : step config world event = some world') :
    world'.store = world.store ∨
    (∃ createdAt jobId jobType requestedBy key,
      world'.store = attempt JobOp.apply world.store
        (.enqueue createdAt jobId jobType requestedBy key)) ∨
    (∃ worker current, world.phase worker = .recovering current ∧
      world'.store =
        (world.store.recoverInterrupted current (config worker).maxRestartRetries).1) ∨
    (∃ worker current, event = .claim worker ∧ world.phase worker = .claiming current ∧
      world'.store = (world.store.claimNext current (config worker).pipelineLeaseSeconds).1) ∨
    ∃ finishedAt jobId outcome,
      world'.store = attempt JobOp.apply world.store (.finish finishedAt jobId
        (Outcome.status outcome) outcome.failureCategory outcome.sanitizedFailureMessage) := by
  cases step_cases hs with
  | enqueue createdAt jobId jobType requestedBy key =>
    exact .inr (.inl ⟨createdAt, jobId, jobType, requestedBy, key, rfl⟩)
  | recover worker current hw => exact .inr (.inr (.inl ⟨worker, current, hw, rfl⟩))
  | claimedNone worker current hw _ =>
    exact .inr (.inr (.inr (.inl ⟨worker, current, rfl, hw, rfl⟩)))
  | claimed worker current job hw _ =>
    exact .inr (.inr (.inr (.inl ⟨worker, current, rfl, hw, rfl⟩)))
  | finish worker finishedAt jobId outcome hw =>
    exact .inr (.inr (.inr (.inr ⟨finishedAt, jobId, outcome, rfl⟩)))
  | _ => exact .inl rfl

theorem runningJobs_claimNext {store : JobStore} {current : Timestamp} {leaseSeconds : ℤ}
    {row : JobRecord} (hrow : row ∈ store.jobs) (hs : row.status = .queued)
    (he : (store.claimNext current leaseSeconds).1.jobs =
      Table.updateWhere (fun j ↦ j.jobId = row.jobId ∧ j.status = .queued)
        (claimUpdate current) store.jobs) :
    claimUpdate current row ∈ (store.claimNext current leaseSeconds).1.runningJobs ∧
    (∀ j ∈ store.runningJobs, j ∈ (store.claimNext current leaseSeconds).1.runningJobs) ∧
    ∀ j ∈ (store.claimNext current leaseSeconds).1.runningJobs,
      j.jobId = row.jobId ∨ j ∈ store.runningJobs := by
  simp only [mem_runningJobs, he, Table.mem_updateWhere]
  refine ⟨⟨⟨row, hrow, by simp [hs]⟩, rfl⟩, fun j hj ↦ ⟨⟨j, hj.1, by simp [hj.2]⟩, hj.2⟩, ?_⟩
  rintro _ ⟨⟨i, hi, rfl⟩, hrun⟩
  split_ifs at hrun ⊢ with hp
  · exact .inl (of_decide_eq_true hp).1
  · exact .inr ⟨hi, hrun⟩

theorem singleRunning_claim {world : World} (h : world.Inv) {worker : ℕ} {current : Timestamp}
    (hw : world.phase worker = .claiming current) (leaseSeconds : ℤ)
    (hgood : ¬ ClaimsOverExpiredLease world (.claim worker)) (hs : world.store.SingleRunning) :
    (world.store.claimNext current leaseSeconds).1.SingleRunning := by
  rcases claimNext_cases world.store current leaseSeconds with ⟨-, he⟩ | ⟨row, hrow, hq,
    hnone, -, he⟩
  · rw [he]
    exact hs
  have hstored : dropExpired current world.store.pipelineLeases = world.store.pipelineLeases := by
    refine List.filter_eq_self.mpr fun l hl ↦ decide_eq_true fun hexp ↦ hgood ?_
    exact ⟨current, hw, ⟨l, hl, hexp⟩, row, hrow, hq⟩
  have hnil : world.store.pipelineLeases = [] :=
    (activeLease_eq_none h.store.named).mp (hstored ▸ hnone)
  have hidle : world.store.runningJobs = [] := h.recovered worker (.inr ⟨current, hw⟩) hnil
  obtain ⟨-, -, hafter⟩ := runningJobs_claimNext hrow hq (congrArg JobStore.jobs he)
  rw [singleRunning_iff (Inv_claimNext h.store current leaseSeconds).ids]
  have hall : ∀ j ∈ (world.store.claimNext current leaseSeconds).1.runningJobs,
      j.jobId = row.jobId := by
    intro j hj
    rcases hafter j hj with hj | hj
    · exact hj
    · simp [hidle] at hj
  exact fun j hj k hk ↦ (hall j hj).trans (hall k hk).symm

theorem singleRunning_step {world world' : World} {event : Event} (h : world.Inv)
    (hs : step config world event = some world') (hgood : ¬ ClaimsOverExpiredLease world event)
    (hsingle : world.store.SingleRunning) : world'.store.SingleRunning := by
  have h' := (Inv_step h hs).store
  rcases step_store hs with he | ⟨_, _, _, _, _, he⟩ | ⟨worker, current, -, he⟩ |
    ⟨worker, current, rfl, hw, he⟩ | ⟨_, _, _, he⟩
  · exact he ▸ hsingle
  · unfold JobStore.SingleRunning
    rw [he, (enqueue_attempt _ _ _ _ _ _).1]
    exact hsingle
  · rw [he] at h' ⊢
    exact singleRunning_of_subset h.store h'
      (fun j hj ↦ ⟨j, (runningJobs_recoverInterrupted h.store hj).1, rfl⟩) hsingle
  · exact he ▸ singleRunning_claim h hw _ hgood hsingle
  · rw [he] at h' ⊢
    exact singleRunning_of_subset h.store h'
      (fun j hj ↦ ⟨j, finish_attempt _ _ _ _ j hj, rfl⟩) hsingle

theorem two_running_of_claim {world world' : World} {event : Event} (h : world.Inv)
    (hs : step config world event = some world') (hbad : ClaimsOverExpiredLease world event) :
    ¬ world'.store.SingleRunning := by
  cases event with
  | claim worker =>
    obtain ⟨current, hw, ⟨l, hl, hexp⟩, i, hi, hiq⟩ := hbad
    have he' : world'.store =
        (world.store.claimNext current (config worker).pipelineLeaseSeconds).1 := by
      simp only [step, hw] at hs
      exact Option.some.inj hs ▸ rfl
    have hnil : dropExpired current world.store.pipelineLeases = [] := by
      refine List.filter_eq_nil_iff.mpr fun k hk ↦ ?_
      have hkl : k = l := Table.eq_of_key h.store.names hk hl
        ((h.store.named k hk).trans (h.store.named l hl).symm)
      simpa [hkl] using hexp
    rcases claimNext_cases world.store current (config worker).pipelineLeaseSeconds with
      ⟨hstop, -⟩ | ⟨row, hrow, hq, -, -, he⟩
    · rcases hstop with hactive | hnone
      · simp [hnil, activeLease] at hactive
      · exact absurd hiq (hnone i hi)
    obtain ⟨j, hj, hjl, hjrun⟩ := h.store.holder l hl
    obtain ⟨hnew, hold, -⟩ := runningJobs_claimNext hrow hq (congrArg JobStore.jobs he)
    rw [he', singleRunning_iff (Inv_claimNext h.store current _).ids]
    intro hall
    have hid := hall j (hold j (mem_runningJobs.mpr ⟨hj, hjrun⟩)) _ hnew
    have hsame := Table.eq_of_key h.store.ids hj hrow hid
    rw [hsame, hq] at hjrun
    cases hjrun
  | _ => exact hbad.elim

variable (config)

/-- In a run, at most one job is running in every state that the run visits
exactly when no claim of the run is made over an expired lease. -/
theorem single_running_iff (events : List Event) :
    (∀ world, Visits (step config) {} events world → world.store.SingleRunning) ↔
    ∀ world event, Takes (step config) {} events world event →
      ¬ ClaimsOverExpiredLease world event := by
  constructor
  · intro hsingle world event htakes hbad
    have hinv := Inv_visits htakes.visits
    cases event with
    | claim worker =>
      obtain ⟨current, hw, -⟩ := id hbad
      obtain ⟨world', hs⟩ : ∃ world', step config world (.claim worker) = some world' := by
        simp only [step, hw]
        exact ⟨_, rfl⟩
      exact two_running_of_claim hinv hs hbad (hsingle world' (htakes.next hs))
    | _ => exact hbad
  · intro hgood
    refine visits_invariant _ (by simp [JobStore.SingleRunning, JobStore.runningJobs]) ?_
    exact fun u o v htakes hu hs ↦
      singleRunning_step (Inv_visits htakes.visits) hs (hgood u o htakes) hu

def clockReadings : List Event → List Timestamp
  | [] => []
  | .clock reading :: events => reading :: clockReadings events
  | _ :: events => clockReadings events

/-- A worker dies while it executes `a`. The lease of `a` is alive when the next
worker recovers and has expired when that worker claims `b`. -/
def leaseExpiryRun : List Event :=
  [.enqueue 0 "a" .daily "api" "k1", .enqueue 0 "b" .collect "api" "k2",
    .acquire 1, .readRecover 1, .recover 1, .readClaim 1, .claim 1, .crash 1,
    .clock 29999999, .acquire 2, .readRecover 2, .recover 2,
    .clock 30000000, .readClaim 2, .claim 2]

theorem leaseExpiryRun_two_running :
    (clockReadings leaseExpiryRun).Pairwise (· ≤ ·) ∧
    ∃ world, Visits (step fun _ ↦ { pipelineLeaseSeconds := 30 }) {} leaseExpiryRun world ∧
      world.store.runningJobs.map JobRecord.jobId = ["a", "b"] ∧
      ¬ world.store.SingleRunning := by
  have hrun : (exec (step fun _ ↦ { pipelineLeaseSeconds := 30 }) {} leaseExpiryRun).map
      (fun world ↦ world.store.runningJobs.map JobRecord.jobId) = some ["a", "b"] := by decide
  obtain ⟨world, hexec, hids⟩ := Option.map_eq_some_iff.mp hrun
  refine ⟨by decide, world, visits_end hexec, hids, fun hsingle ↦ ?_⟩
  have hlength := congrArg List.length hids
  simp only [List.length_map, List.length_cons, List.length_nil] at hlength
  exact absurd hsingle (by simp [JobStore.SingleRunning, hlength])

end AgenticSecurity.Jobs
