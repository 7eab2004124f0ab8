import AgenticSecurity.Jobs.Worker

namespace AgenticSecurity.Jobs

open Library Runs

/-- The exceptions that the executor tells apart. A `LiveCollectionError`, a `PublicationError`
and a `JobExecutionError` are runtime errors with a category and a safe message. -/
inductive Raised
  | liveCollectionError (category : FailureCategory) (safeMessage : String)
  | publicationError (category : FailureCategory) (safeMessage : String)
  | jobExecutionError (category : FailureCategory) (safeMessage : String)
  | fileNotFoundError
  | valueError
  | runtimeError (message : String)
  | other (name : String)
  deriving DecidableEq, Repr

def Raised.Plain : Raised → Prop
  | .liveCollectionError _ _ | .publicationError _ _ | .jobExecutionError _ _ => False
  | .fileNotFoundError | .valueError | .runtimeError _ | .other _ => True

inductive SystemError
  | fileNotFoundError
  | valueError
  | other (name : String)
  deriving DecidableEq, Repr

def SystemError.raised : SystemError → Raised
  | .fileNotFoundError => .fileNotFoundError
  | .valueError => .valueError
  | .other name => .other name

theorem SystemError.raised_plain (e : SystemError) : e.raised.Plain := by cases e <;> trivial

structure Services where
  freeBytes : Except SystemError ℕ
  collect : Except Raised Unit
  runDailyPipeline : Except Raised Unit
  runWeeklyPipeline : Except Raised Unit
  exportBundle : Except Raised Unit
  publish : Except Raised Unit

/-- `disk_guard`, which makes the directory of the jobs and asks for its free space. -/
def diskGuard (freeBytes : Except SystemError ℕ) (minFreeBytes : ℕ) : Except Raised Unit :=
  match freeBytes with
  | .error e => .error e.raised
  | .ok free => if free < minFreeBytes then .error (.runtimeError "DISK_GUARD") else .ok ()

/-- `RuntimeJobExecutor._execute_allowlisted`, which has a branch for every job type. -/
def executeAllowlisted (services : Services) : JobType → Except Raised Unit
  | .collect => services.collect
  | .research =>
    .error (.jobExecutionError .providerUnavailable
      "A production research provider is not configured.")
  | .daily => services.runDailyPipeline
  | .weeklyPack => services.runWeeklyPipeline
  | .publicationExport => services.exportBundle
  | .publicationPr => services.publish

/-- The `except` clauses of `RuntimeJobExecutor.execute`. -/
def Raised.translated : Raised → Raised
  | .liveCollectionError category safeMessage | .publicationError category safeMessage =>
    .jobExecutionError category safeMessage
  | .fileNotFoundError =>
    .jobExecutionError .ledgerUnavailable "The configured ledger is unavailable."
  | .valueError =>
    .jobExecutionError .publicationValidationFailed "The job input failed repository validation."
  | .runtimeError message =>
    if message = "DISK_GUARD" then
      .jobExecutionError .diskGuard "Insufficient free disk space for the job."
    else .runtimeError message
  | .jobExecutionError category safeMessage => .jobExecutionError category safeMessage
  | .other name => .other name

def execute (minFreeBytes : ℕ) (services : Services) (jobType : JobType) : Except Raised Unit :=
  (do
    diskGuard services.freeBytes minFreeBytes
    executeAllowlisted services jobType).mapError Raised.translated

/-- What `run_once` makes of a call of the executor. -/
def Outcome.ofExecution : Except Raised Unit → Outcome
  | .ok () => .success
  | .error (.jobExecutionError category safeMessage) => .jobExecutionError category safeMessage
  | .error _ => .exception

def jobMessages : FailureCategory → List String
  | .ledgerUnavailable => ["The configured ledger is unavailable."]
  | .publicationValidationFailed => ["The job input failed repository validation."]
  | .diskGuard => ["Insufficient free disk space for the job."]
  | .internalError => ["The job failed unexpectedly; inspect private service logs."]
  | .interrupted => ["The worker stopped before the job completed."]
  | _ => []

abbrev ServiceMessages := JobType → FailureCategory → List String

/-- A job failed with a fixed text of its category, or it has no text. -/
structure JobRecord.Reports (messages : ServiceMessages) (j : JobRecord) : Prop where
  text : ∀ message ∈ j.sanitizedFailureMessage, ∃ category ∈ j.failureCategory,
    message ∈ jobMessages category ∨ message ∈ messages j.jobType category
  failed : j.status = .failed → j.sanitizedFailureMessage ≠ none
  research : j.jobType = .research → j.status ≠ .succeeded

structure Outcome.Allowed (messages : ServiceMessages) (jobType : JobType) (outcome : Outcome) :
    Prop where
  text : ∀ message ∈ outcome.sanitizedFailureMessage, ∃ category ∈ outcome.failureCategory,
    message ∈ jobMessages category ∨ message ∈ messages jobType category
  research : jobType = .research → outcome.status ≠ .succeeded

def Raised.Safe (messages : FailureCategory → List String) : Raised → Prop
  | .liveCollectionError category safeMessage | .publicationError category safeMessage
  | .jobExecutionError category safeMessage => safeMessage ∈ messages category
  | .fileNotFoundError | .valueError | .runtimeError _ | .other _ => True

theorem Raised.safe_of_plain {messages : FailureCategory → List String} {raised : Raised}
    (h : raised.Plain) :
    raised.Safe messages := by
  cases raised with
  | liveCollectionError | publicationError | jobExecutionError => cases h
  | fileNotFoundError | valueError | runtimeError | other => trivial

theorem diskGuard_plain {freeBytes : Except SystemError ℕ} {minFreeBytes : ℕ} {raised : Raised}
    (h : diskGuard freeBytes minFreeBytes = .error raised) : raised.Plain := by
  unfold diskGuard at h
  split at h
  next e =>
    obtain rfl := Except.error.inj h
    exact e.raised_plain
  · split_ifs at h
    obtain rfl := Except.error.inj h
    trivial

theorem failed_allowed {messages : ServiceMessages} {jobType : JobType} {category : FailureCategory}
    {safeMessage : String} (h : safeMessage ∈ jobMessages category ∨
      safeMessage ∈ messages jobType category) :
    (Outcome.jobExecutionError category safeMessage).Allowed messages jobType :=
  ⟨fun message hmessage ↦ ⟨category, rfl, Option.some.inj hmessage ▸ h⟩, fun _ hs ↦ by cases hs⟩

theorem exception_allowed (messages : ServiceMessages) (jobType : JobType) :
    Outcome.exception.Allowed messages jobType :=
  ⟨fun message hmessage ↦ ⟨.internalError, rfl,
    .inl (Option.some.inj hmessage ▸ List.mem_singleton_self _)⟩, fun _ hs ↦ by cases hs⟩

theorem translated_allowed {messages : ServiceMessages} {jobType : JobType} {raised : Raised}
    (h : raised.Safe (messages jobType)) :
    (Outcome.ofExecution (.error raised.translated)).Allowed messages jobType := by
  cases raised with
  | liveCollectionError category safeMessage | publicationError category safeMessage
  | jobExecutionError category safeMessage => exact failed_allowed (.inr h)
  | fileNotFoundError | valueError => exact failed_allowed (.inl (by simp [jobMessages]))
  | runtimeError message =>
    rw [Raised.translated]
    split_ifs
    · exact failed_allowed (.inl (by simp [jobMessages]))
    · exact exception_allowed messages jobType
  | other name => exact exception_allowed messages jobType

theorem ofExecution_allowed {messages : ServiceMessages} {services : Services} {jobType : JobType}
    (h : ∀ raised, executeAllowlisted services jobType = .error raised →
      raised.Safe (messages jobType))
    (minFreeBytes : ℕ) :
    (Outcome.ofExecution (execute minFreeBytes services jobType)).Allowed messages jobType := by
  unfold execute
  cases hguard : diskGuard services.freeBytes minFreeBytes with
  | error raised => exact translated_allowed (Raised.safe_of_plain (diskGuard_plain hguard))
  | ok =>
    cases he : executeAllowlisted services jobType with
    | error raised => exact translated_allowed (h raised he)
    | ok result =>
      refine ⟨fun message hmessage ↦ (by cases hmessage), fun hjob _ ↦ ?_⟩
      subst hjob
      cases he

theorem Reports_recover {messages : ServiceMessages} {j : JobRecord} (h : j.Reports messages)
    (current : Timestamp) (maxRetries : ℕ) (holder : Option String) :
    (recoverRow current maxRetries holder j).Reports messages := by
  unfold recoverRow recoverUpdate
  split_ifs
  · exact h
  · exact h
  · exact ⟨fun message hmessage ↦ by (cases hmessage), fun hs ↦ by (cases hs),
      fun _ hs ↦ by (cases hs)⟩
  · refine ⟨fun message hmessage ↦ ⟨.interrupted, rfl, .inl ?_⟩, fun _ ↦ Option.some_ne_none _,
      fun _ hs ↦ by cases hs⟩
    exact Option.some.inj hmessage ▸ List.mem_singleton_self _

theorem Reports_claim {messages : ServiceMessages} {j : JobRecord} (h : j.Reports messages)
    (current : Timestamp) : (claimUpdate current j).Reports messages :=
  ⟨h.text, fun hs ↦ (by cases hs), fun _ hs ↦ (by cases hs)⟩

theorem Reports_finish {messages : ServiceMessages} {j : JobRecord} {outcome : Outcome}
    (h : outcome.Allowed messages j.jobType) (finishedAt : Timestamp) :
    (finishUpdate finishedAt outcome.status outcome.failureCategory outcome.sanitizedFailureMessage
      j).Reports messages := by
  refine ⟨h.text, fun hs ↦ ?_, h.research⟩
  cases outcome with
  | success => cases hs
  | jobExecutionError | exception => exact Option.some_ne_none _

/-- The reports of the rows, and of the outcomes that are about to be recorded. -/
structure World.Reports (messages : ServiceMessages) (world : World) : Prop where
  inv : world.Inv
  rows : ∀ j ∈ world.store.jobs, j.Reports messages
  executing :
    ∀ worker jobId, world.phase worker = .executing jobId → ∃ j ∈ world.store.jobs, j.jobId = jobId
  finishing :
    ∀ worker finishedAt jobId outcome, world.phase worker = .finishing finishedAt jobId outcome →
    ∃ j ∈ world.store.jobs, j.jobId = jobId ∧ outcome.Allowed messages j.jobType

def Event.Allowed (messages : ServiceMessages) (world : World) : Event → Prop
  | .executed worker outcome => ∀ jobId, world.phase worker = .executing jobId →
      ∀ j ∈ world.store.jobs, j.jobId = jobId → outcome.Allowed messages j.jobType
  | _ => True

theorem Reports_phase {messages : ServiceMessages} {world world' : World}
    (h : world.Reports messages) (hinv : world'.Inv) {worker : ℕ} {next : Phase}
    (hphase : ∀ other, world'.phase other = if other = worker then next else world.phase other)
    (hextends : world.store.Extends world'.store)
    (hrows : ∀ j ∈ world'.store.jobs, j.Reports messages)
    (hexecuting : ∀ jobId, next = .executing jobId → ∃ j ∈ world'.store.jobs, j.jobId = jobId)
    (hfinishing : ∀ finishedAt jobId outcome, next = .finishing finishedAt jobId outcome →
      ∃ j ∈ world'.store.jobs, j.jobId = jobId ∧ outcome.Allowed messages j.jobType) :
    world'.Reports messages := by
  refine ⟨hinv, hrows, fun other jobId hother ↦ ?_, fun other finishedAt jobId outcome hother ↦ ?_⟩
  · rw [hphase] at hother
    split_ifs at hother
    · exact hexecuting jobId hother
    · obtain ⟨j, hj, hid⟩ := h.executing other jobId hother
      obtain ⟨j', hj', hevolves⟩ := hextends j hj
      exact ⟨j', hj', hevolves.jobId.trans hid⟩
  · rw [hphase] at hother
    split_ifs at hother
    · exact hfinishing finishedAt jobId outcome hother
    · obtain ⟨j, hj, hid, hallowed⟩ := h.finishing other finishedAt jobId outcome hother
      obtain ⟨j', hj', hevolves⟩ := hextends j hj
      exact ⟨j', hj', hevolves.jobId.trans hid, hevolves.jobType ▸ hallowed⟩

theorem enqueue_attempt_reports {messages : ServiceMessages} {store : JobStore}
    (h : ∀ j ∈ store.jobs, j.Reports messages) (createdAt : Timestamp) (jobId : String)
    (jobType : JobType)
    (requestedBy key : String) :
    ∀ j ∈ (attempt JobOp.apply store (.enqueue createdAt jobId jobType requestedBy key)).jobs,
      j.Reports messages := by
  cases ha : JobOp.apply store (.enqueue createdAt jobId jobType requestedBy key) with
  | error e => exact (attempt_error ha).symm ▸ h
  | ok store' =>
    rw [attempt_ok ha]
    obtain ⟨⟨s, job, replay⟩, he, rfl⟩ := except_map_ok.mp ha
    rcases enqueue_cases he with ⟨-, rfl, -⟩ | ⟨-, -, -, rfl, rfl⟩
    · exact h
    · intro j hj
      rcases List.mem_append.mp hj with hold | hnew
      · exact h j hold
      · obtain rfl := List.mem_singleton.mp hnew
        exact ⟨fun message hmessage ↦ (by cases hmessage), fun hs ↦ (by cases hs),
          fun _ hs ↦ (by cases hs)⟩

theorem claimNext_reports {messages : ServiceMessages} {store : JobStore}
    (h : ∀ j ∈ store.jobs, j.Reports messages) (current : Timestamp) (leaseSeconds : ℤ) :
    ∀ j ∈ (store.claimNext current leaseSeconds).1.jobs, j.Reports messages := by
  rcases claimNext_cases store current leaseSeconds with ⟨-, he⟩ | ⟨row, -, -, -, -, he⟩
  · rw [he]
    exact h
  · rw [he]
    intro j hj
    obtain ⟨i, hi, rfl⟩ := Table.mem_updateWhere.mp hj
    split_ifs
    · exact Reports_claim (h i hi) current
    · exact h i hi

theorem finish_attempt_reports {messages : ServiceMessages} {store : JobStore} (hinv : store.Inv)
    (h : ∀ j ∈ store.jobs, j.Reports messages) (finishedAt : Timestamp) {jobId : String} {outcome : Outcome}
    (hallowed : ∃ j ∈ store.jobs, j.jobId = jobId ∧ outcome.Allowed messages j.jobType) :
    ∀ j ∈ (attempt JobOp.apply store (.finish finishedAt jobId outcome.status outcome.failureCategory
      outcome.sanitizedFailureMessage)).jobs, j.Reports messages := by
  cases ha : JobOp.apply store (.finish finishedAt jobId outcome.status outcome.failureCategory
    outcome.sanitizedFailureMessage) with
  | error e => exact (attempt_error ha).symm ▸ h
  | ok store' =>
    rw [attempt_ok ha]
    obtain ⟨⟨s, record⟩, hf, rfl⟩ := except_map_ok.mp ha
    obtain ⟨-, -, rfl⟩ := finish_cases hf
    obtain ⟨row, hrow, hid, hallowed⟩ := hallowed
    intro j hj
    obtain ⟨i, hi, rfl⟩ := Table.mem_updateWhere.mp hj
    split_ifs with hrunning
    · obtain rfl := Table.eq_of_key hinv.ids hi hrow ((of_decide_eq_true hrunning).1.trans hid.symm)
      exact Reports_finish hallowed finishedAt
    · exact h i hi

variable {config : ℕ → WorkerConfig}

theorem Reports_step {messages : ServiceMessages} {world world' : World} {event : Event}
    (h : world.Reports messages) (hallowed : event.Allowed messages world)
    (hs : step config world event = some world') : world'.Reports messages := by
  have hinv := Inv_step h.inv hs
  have hattempt : ∀ op : JobOp, op.AsRunOnce → world.store.Extends (attempt JobOp.apply world.store op) :=
    fun op hop ↦ @extends_attempts world.store h.inv.store [op] (by simpa using hop)
  cases step_cases hs with
  | clock reading => exact ⟨hinv, h.rows, h.executing, h.finishing⟩
  | refused worker => exact h
  | enqueue createdAt jobId jobType requestedBy key =>
    have hextends := hattempt (.enqueue createdAt jobId jobType requestedBy key) trivial
    refine ⟨hinv, enqueue_attempt_reports h.rows _ _ _ _ _, fun worker jobId hphase ↦ ?_,
      fun worker finishedAt jobId outcome hphase ↦ ?_⟩
    · obtain ⟨j, hj, hid⟩ := h.executing worker jobId hphase
      obtain ⟨j', hj', hevolves⟩ := hextends j hj
      exact ⟨j', hj', hevolves.jobId.trans hid⟩
    · obtain ⟨j, hj, hid, hout⟩ := h.finishing worker finishedAt jobId outcome hphase
      obtain ⟨j', hj', hevolves⟩ := hextends j hj
      exact ⟨j', hj', hevolves.jobId.trans hid, hevolves.jobType ▸ hout⟩
  | acquired worker hw hlock | readRecover worker hw | readClaim worker hw | leave worker hw | crash worker =>
    exact Reports_phase h hinv (goto_phase world worker · _) (.refl _) h.rows (by simp) (by simp)
  | recover worker current hw =>
    have hjobs := recoverInterrupted_jobs h.inv.store.ids current (config worker).maxRestartRetries
    refine Reports_phase h hinv (goto_phase world worker · _)
      (extends_map hjobs (recoverRow_evolves _ _ _)) ?_
      (by simp) (by simp)
    intro j hj
    obtain ⟨i, hi, rfl⟩ := List.mem_map.mp (hjobs ▸ hj)
    exact Reports_recover (h.rows i hi) _ _ _
  | claimedNone worker current hw hjob =>
    exact Reports_phase h hinv (goto_phase world worker · _)
      (hattempt (.claimNext current _) trivial)
      (claimNext_reports h.rows _ _) (by simp) (by simp)
  | claimed worker current job hw hjob =>
    refine Reports_phase h hinv (goto_phase world worker · _)
      (hattempt (.claimNext current _) trivial)
      (claimNext_reports h.rows _ _) (fun jobId hnext ↦ ?_) (by simp)
    obtain rfl := Phase.executing.inj hnext
    rcases claimNext_cases world.store current (config worker).pipelineLeaseSeconds with ⟨-,
      he⟩ | ⟨row, -, -, -, hfound, -⟩
    · rw [he] at hjob
      cases hjob
    · rw [hfound] at hjob
      exact ⟨job, List.mem_of_find?_eq_some hjob, rfl⟩
  | executed worker outcome jobId hw =>
    obtain ⟨j, hj, hid⟩ := h.executing worker jobId hw
    refine Reports_phase h hinv (goto_phase world worker · _) (.refl _) h.rows (by simp) ?_
    intro finishedAt jobId' outcome' hnext
    obtain ⟨rfl, rfl, rfl⟩ := Phase.finishing.inj hnext
    exact ⟨j, hj, hid, hallowed _ hw j hj hid⟩
  | finish worker finishedAt jobId outcome hw =>
    exact Reports_phase h hinv (goto_phase world worker · _)
      (hattempt _ outcome.failureCategory_isSome)
      (finish_attempt_reports h.inv.store h.rows finishedAt
        (h.finishing worker finishedAt jobId outcome hw))
      (by simp) (by simp)

theorem Reports_visits {messages : ServiceMessages} {events : List Event}
    (hallowed : ∀ world event, Takes (step config) {} events world event →
      event.Allowed messages world)
    {world : World} (h : Visits (step config) {} events world) : world.Reports messages := by
  refine visits_invariant (World.Reports messages) ?_ ?_ world h
  · exact ⟨Inv_start, fun j hj ↦ (by cases hj), fun _ _ hphase ↦ (by cases hphase),
      fun _ _ _ _ hphase ↦ (by cases hphase)⟩
  · exact fun u event v htakes hu hs ↦ Reports_step hu (hallowed u event htakes) hs

end AgenticSecurity.Jobs
