import AgenticSecurity.Api.CreateJob
import AgenticSecurity.Jobs.Reads
import AgenticSecurity.Storage.CurrentTaxonomy

namespace AgenticSecurity.Api

open Library Jobs Storage

structure ServerConfig extends RuntimeConfig where
  workerHeartbeatTtlSeconds : ℕ := 60

/-- What the host and the database give the handling of one request. -/
structure Machine where
  now : Timestamp
  freeBytes : ℕ
  ledgerRaises : Bool := false
  ledgerReachable : Bool := true
  runtimeWritable : Bool := true

structure RuntimeChecks where
  configValid : Bool
  ledgerReachable : Bool
  runtimeWritable : Bool
  workerAvailable : Bool
  deriving DecidableEq

def RuntimeChecks.healthy (checks : RuntimeChecks) : Bool :=
  checks.configValid && checks.ledgerReachable && checks.runtimeWritable && checks.workerAvailable

structure StatusJobSummary where
  jobId : String
  jobType : JobType
  status : JobStatus
  startedAt : Option Timestamp
  finishedAt : Option Timestamp
  deriving DecidableEq

def StatusJobSummary.fromJob (job : JobRecord) : StatusJobSummary where
  jobId := job.jobId
  jobType := job.jobType
  status := job.status
  startedAt := job.startedAt
  finishedAt := job.finishedAt

structure RuntimeStatusResponse where
  service : String
  asiVersion : String
  checks : RuntimeChecks
  methodologyVersion : Option String
  taxonomyVersion : Option String
  sourceLedgerVersion : Option String
  queuedJobs : ℕ
  runningJobs : ℕ
  failedJobs : ℕ
  pendingReviewCount : ℕ
  lastSuccessfulJob : Option StatusJobSummary
  activeJob : Option StatusJobSummary
  lastCollection : Option StatusJobSummary
  lastDailyOutput : Option StatusJobSummary
  lastWeeklyOutput : Option StatusJobSummary
  lastPublicationExport : Option StatusJobSummary
  deriving DecidableEq

/-- `Query(ge=1, le=100)`. -/
structure PageLimit where
  limit : ℕ := 100
  valid : 1 ≤ limit ∧ limit ≤ 100 := by decide

inductive Read
  | health
  | runtimeStatus
  | getJob (jobId : String)
  | listJobs (jobStatus : Option JobStatus) (page : PageLimit)
  | pendingReview (page : PageLimit)

inductive Call
  | createJob (payload : JobCreateRequest) (createdAt : Timestamp) (jobId : String)
  | read (endpoint : Read)

structure Request where
  headers : Headers
  machine : Machine
  call : Call

inductive Reply
  | health (statusCode : ℕ) (checks : RuntimeChecks)
  | runtimeStatus (response : RuntimeStatusResponse)
  | job (job : JobRecord)
  | jobs (jobs : List JobRecord)
  | pendingReview (items : List PendingReview)
  | notFound (detail : String)
  | answer (answer : Answer)
  deriving DecidableEq

/-- The runtime's own tables, the other tables of the database, and what clients were answered. -/
structure World where
  runtime : RuntimeTables := {}
  database : Tables := {}
  userVersion : ℕ := 0
  exchanges : List (Request × Reply) := []

/-- `safe_runtime_checks` with the answer of `worker_available`, which an error of the database
makes false. -/
def World.checks (world : World) (config : ServerConfig) (machine : Machine) : RuntimeChecks where
  configValid := true
  ledgerReachable := machine.ledgerReachable
  runtimeWritable := machine.runtimeWritable
  workerAvailable := !machine.ledgerRaises &&
    workerAvailable (machine.now - config.workerHeartbeatTtlSeconds * 1000000)
      world.runtime.workerHeartbeats

def World.runtimeStatus (world : World) (config : ServerConfig) (machine : Machine) :
    RuntimeStatusResponse :=
  let store := world.runtime.store
  let latest := fun jobType ↦ (store.latestSuccessful jobType).map StatusJobSummary.fromJob
  let versions := world.database.ledgerVersions world.userVersion
  if machine.ledgerRaises then
    { service := "asi-runtime", asiVersion := "0.1.0", checks := world.checks config machine,
      methodologyVersion := none, taxonomyVersion := none,
      sourceLedgerVersion := none, queuedJobs := 0,
      runningJobs := 0, failedJobs := 0, pendingReviewCount := 0,
      lastSuccessfulJob := none, activeJob := none,
      lastCollection := none, lastDailyOutput := none,
      lastWeeklyOutput := none, lastPublicationExport := none }
  else
    { service := "asi-runtime", asiVersion := "0.1.0", checks := world.checks config machine,
      methodologyVersion := versions.1, taxonomyVersion := versions.2.1,
      sourceLedgerVersion := some versions.2.2,
      queuedJobs := store.queueCounts .queued, runningJobs := store.queueCounts .running,
      failedJobs := store.queueCounts .failed,
      pendingReviewCount := world.database.reviews.pendingReviewCount,
      lastSuccessfulJob := latest none, activeJob := store.activeJob.map StatusJobSummary.fromJob,
      lastCollection := latest (some .collect), lastDailyOutput := latest (some .daily),
      lastWeeklyOutput := latest (some .weeklyPack),
      lastPublicationExport := latest (some .publicationExport) }

def World.read (world : World) (config : ServerConfig) (machine : Machine) : Read → Reply
  | .health =>
    let checks := world.checks config machine
    .health (if checks.healthy then 200 else 503) checks
  | .runtimeStatus => .runtimeStatus (world.runtimeStatus config machine)
  | .getJob jobId =>
    if machine.ledgerRaises then .answer ledgerUnavailable
    else
      match world.runtime.store.byId jobId with
      | none => .notFound "Job not found."
      | some job => .job job
  | .listJobs jobStatus page =>
    if machine.ledgerRaises then .answer ledgerUnavailable
    else .jobs (world.runtime.store.list jobStatus page.limit)
  | .pendingReview page =>
    if machine.ledgerRaises then .answer ledgerUnavailable
    else .pendingReview (world.database.reviews.pendingReviews page.limit)

/-- Every endpoint depends on `require_mtls`; that of `create_job` is part of `createJob`. -/
def World.handle (world : World) (config : ServerConfig) (request : Request) : JobStore × Reply :=
  match request.call with
  | .createJob payload createdAt jobId =>
    let post : JobPost :=
      { headers := request.headers, payload, freeBytes := request.machine.freeBytes,
        ledgerRaises := request.machine.ledgerRaises, createdAt, jobId }
    let (store, answer) := createJob config.toRuntimeConfig post world.runtime.store
    (store, .answer answer)
  | .read endpoint =>
    match requireMtls config.toRuntimeConfig request.headers with
    | .error answer => (world.runtime.store, .answer answer)
    | .ok _ => (world.runtime.store, world.read config request.machine endpoint)

inductive WorkerCall
  | heartbeat (workerId : String) (startedAt heartbeatAt : Timestamp)
  | recoverInterrupted (current : Timestamp) (maxRetries : ℕ)
  | claimNext (current : Timestamp) (leaseSeconds : ℤ)
  | finish (finishedAt : Timestamp) (jobId : String) (status : JobStatus)
      (failureCategory : Option FailureCategory) (message : Option String)

def WorkerCall.op : WorkerCall → RuntimeOp
  | .heartbeat workerId startedAt heartbeatAt => .heartbeat workerId startedAt heartbeatAt
  | .recoverInterrupted current maxRetries => .job (.recoverInterrupted current maxRetries)
  | .claimNext current leaseSeconds => .job (.claimNext current leaseSeconds)
  | .finish finishedAt jobId status failureCategory message =>
    .job (.finish finishedAt jobId status failureCategory message)

/-- A request, a call of a worker, or other tables written by anything else. -/
inductive Event
  | request (request : Request)
  | worker (call : WorkerCall)
  | database (database : Tables) (userVersion : ℕ)

def World.step (config : ServerConfig) (world : World) : Event → World
  | .request request =>
    let (store, reply) := world.handle config request
    { world with runtime := { world.runtime with store }, exchanges := world.exchanges ++
      [(request, reply)] }
  | .worker call => { world with runtime := Runs.attempt RuntimeOp.apply world.runtime call.op }
  | .database database userVersion => { world with database, userVersion }

def World.run (config : ServerConfig) (world : World) (events : List Event) : World :=
  events.foldl (World.step config) world

/-- The requester that a job of the request is for. -/
def Request.asks (config : ServerConfig) (request : Request) (job : JobRecord) : Prop :=
  ∃ payload identity, request.call = .createJob payload job.createdAt job.jobId ∧
    requireMtls config.toRuntimeConfig request.headers = .ok identity ∧
    isRequester (requester identity payload) = true ∧
    job = newJob job.createdAt job.jobId payload.jobType
      (storedRequester (requester identity payload))
      payload.idempotencyKey

def newIn : Request × Reply → Option JobRecord
  | (_, .answer (.created job false)) => some job
  | _ => none

def World.created (world : World) : List JobRecord := world.exchanges.filterMap newIn

/-- Some client was told about the job. -/
def World.Told (world : World) (job : JobRecord) : Prop :=
  ∃ request replay, (request, Reply.answer (.created job replay)) ∈ world.exchanges

structure Accounts (config : ServerConfig) (world : World) : Prop where
  keyed : Keyed world.runtime.store
  rows : List.Forall₂ JobRecord.Evolves world.created world.runtime.store.jobs
  asked : ∀ request job, (request, .answer (.created job false)) ∈ world.exchanges →
    request.asks config job
  told : ∀ job, world.Told job → ∃ row ∈ world.runtime.store.jobs, job.Evolves row

section Step

variable {config : ServerConfig} {world : World}

theorem refused_ne (statusCode : ℕ) (category message : String) (job : JobRecord) (replay : Bool) :
    Answer.refused statusCode category message ≠ .created job replay := fun h ↦ Answer.noConfusion h

theorem requireMtls_error {config : RuntimeConfig} {headers : Headers} {answer : Answer}
    (h : requireMtls config headers = .error answer) : answer = mtlsRequired ∨
    answer = identityRequired := by
  unfold requireMtls at h
  split_ifs at h
  · exact .inl (Except.error.inj h).symm
  · split at h
    · exact .inr (Except.error.inj h).symm
    · split_ifs at h
      exact .inr (Except.error.inj h).symm

theorem createJob_cases (config : RuntimeConfig) (post : JobPost) (store : JobStore) :
    ((createJob config post store).1 = store ∧
      ∀ job replay, (createJob config post store).2 ≠ .created job replay) ∨
      ∃ identity store' job replay, requireMtls config post.headers = .ok identity ∧
        isRequester (requester identity post.payload) = true ∧
        store.enqueue post.createdAt post.jobId post.payload.jobType
          (storedRequester (requester identity post.payload))
          post.payload.idempotencyKey = .ok (store', job, replay) ∧
        createJob config post store = (store', .created job replay) := by
  unfold createJob
  cases hidentity : requireMtls config post.headers with
  | error answer =>
    refine .inl ⟨rfl, ?_⟩
    rcases requireMtls_error hidentity with rfl | rfl
    · exact refused_ne _ _ _
    · exact refused_ne _ _ _
  | ok identity =>
    dsimp only
    split
    · exact .inl ⟨rfl, refused_ne _ _ _⟩
    · split
      · exact .inl ⟨rfl, refused_ne _ _ _⟩
      next haccepted =>
        split
        · exact .inl ⟨rfl, refused_ne _ _ _⟩
        · split
          next store' job replay henqueue =>
            exact .inr ⟨identity, store', job, replay, rfl, not_not.mp haccepted, henqueue, rfl⟩
          · exact .inl ⟨rfl, refused_ne _ _ _⟩
          · exact .inl ⟨rfl, refused_ne _ _ _⟩
          · exact .inl ⟨rfl, fun _ _ h ↦ Answer.noConfusion h⟩

theorem forall₂_extended {created rows rows' : List JobRecord} {change : JobRecord → JobRecord}
    (h : List.Forall₂ JobRecord.Evolves created rows) (hrows : rows' = rows.map change)
    (hevolves : ∀ j : JobRecord, j.Evolves (change j)) :
    List.Forall₂ JobRecord.Evolves created rows' := by
  rw [hrows, List.forall₂_map_right_iff]
  exact h.imp fun _ row hrow ↦ hrow.trans (hevolves row)

theorem worker_rows {store store' : JobStore} (hstore : Keyed store) {call : WorkerCall}
    {op : JobOp} (hcall : call.op = .job op) (ha : op.apply store = .ok store') :
    ∃ change, store'.jobs = store.jobs.map change ∧ ∀ j : JobRecord, j.Evolves (change j) := by
  obtain ⟨m, hm⟩ := op.retriesUpTo_some
  obtain ⟨change, added, hrows⟩ := apply_rowSteps hstore.ids hm ha
  refine ⟨change, ?_, hrows.evolves⟩
  have hnone : added = [] := by
    refine List.eq_nil_iff_forall_not_mem.mpr fun j hj ↦ ?_
    have henqueue := (hrows.fresh j hj).2.2.2.2
    rw [henqueue] at hcall
    cases call <;> cases hcall
  rw [hrows.jobs, hnone, List.append_nil]

theorem read_ne_created (config : ServerConfig) (world : World) (machine : Machine)
    (endpoint : Read) (job : JobRecord) (replay : Bool) :
    world.read config machine endpoint ≠ .answer (.created job replay) := by
  intro h
  cases endpoint with
  | health => cases h
  | runtimeStatus => cases h
  | getJob jobId =>
    simp only [World.read] at h
    split at h
    · exact refused_ne _ _ _ job replay (Reply.answer.inj h)
    · split at h <;> cases h
  | listJobs jobStatus page =>
    simp only [World.read] at h
    split at h
    · exact refused_ne _ _ _ job replay (Reply.answer.inj h)
    · cases h
  | pendingReview page =>
    simp only [World.read] at h
    split at h
    · exact refused_ne _ _ _ job replay (Reply.answer.inj h)
    · cases h

theorem handle_cases (config : ServerConfig) (world : World) (request : Request) :
    ((world.handle config request).1 = world.runtime.store ∧
      ∀ job replay, (world.handle config request).2 ≠ .answer (.created job replay)) ∨
    ∃ payload createdAt jobId identity store' job replay,
    request.call = .createJob payload createdAt jobId ∧
      requireMtls config.toRuntimeConfig request.headers = .ok identity ∧
      isRequester (requester identity payload) = true ∧
      world.runtime.store.enqueue createdAt jobId payload.jobType
        (storedRequester (requester identity payload))
        payload.idempotencyKey = .ok (store', job, replay) ∧
      world.handle config request = (store', .answer (.created job replay)) := by
  unfold World.handle
  cases request.call with
  | createJob payload createdAt jobId =>
    dsimp only
    rcases createJob_cases config.toRuntimeConfig ⟨request.headers, payload,
      request.machine.freeBytes, request.machine.ledgerRaises, createdAt, jobId⟩ world.runtime.store
        with ⟨hstore, hanswer⟩ |
        ⟨identity, store', job, replay, hidentity, haccepted, henqueue, hcreated⟩
    · exact .inl ⟨hstore, fun job replay h ↦ hanswer job replay (Reply.answer.inj h)⟩
    · refine .inr ⟨payload, createdAt, jobId, identity, store', job, replay, rfl, hidentity,
        haccepted, henqueue, ?_⟩
      rw [hcreated]
  | read endpoint =>
    dsimp only
    refine .inl ?_
    cases hidentity : requireMtls config.toRuntimeConfig request.headers with
    | error answer =>
      refine ⟨rfl, fun job replay h ↦ ?_⟩
      rcases requireMtls_error hidentity with rfl | rfl
      · exact refused_ne _ _ _ job replay (Reply.answer.inj h)
      · exact refused_ne _ _ _ job replay (Reply.answer.inj h)
    | ok identity => exact ⟨rfl, read_ne_created config world request.machine endpoint⟩

theorem created_snoc_other {request : Request} {reply : Reply}
    (h : ∀ job replay, reply ≠ .answer (.created job replay)) (exchanges : List (Request × Reply)) :
    (exchanges ++ [(request, reply)]).filterMap newIn = exchanges.filterMap newIn := by
  have hnone : newIn (request, reply) = none := by
    unfold newIn
    split
    next job heq => exact absurd (congrArg Prod.snd heq) (h job false)
    · rfl
  rw [List.filterMap_append, List.filterMap_cons_none hnone, List.filterMap_nil, List.append_nil]

theorem Accounts.request (h : Accounts config world) (request : Request) :
    Accounts config (world.step config (.request request)) := by
  have hmem : ∀ {exchange : Request × Reply},
      exchange ∈ (world.step config (.request request)).exchanges →
        exchange ∈ world.exchanges ∨ exchange = (request, (world.handle config request).2) := by
    intro exchange hexchange
    exact (List.mem_append.mp hexchange).imp_right List.mem_singleton.mp
  rcases handle_cases config world request with ⟨hstore, hother⟩ |
    ⟨payload, createdAt, jobId, identity, store', job, replay, hcall, hidentity, haccepted,
      henqueue, hhandle⟩
  · have hsame : (world.step config (.request request)).runtime.store =
        world.runtime.store := hstore
    refine ⟨hsame ▸ h.keyed, ?_, fun r j hr ↦ ?_, fun j ⟨r, replay, hr⟩ ↦ ?_⟩
    · rw [hsame, World.created, World.step, created_snoc_other hother]
      exact h.rows
    · rcases hmem hr with hold | hnew
      · exact h.asked r j hold
      · exact absurd (congrArg Prod.snd hnew).symm (hother j false)
    · rw [hsame]
      rcases hmem hr with hold | hnew
      · exact h.told j ⟨r, replay, hold⟩
      · exact absurd (congrArg Prod.snd hnew).symm (hother j replay)
  · have hstore' : (world.step config (.request request)).runtime.store = store' :=
      congrArg Prod.fst hhandle
    have happly :
        (JobOp.enqueue createdAt jobId payload.jobType
          (storedRequester (requester identity payload))
        payload.idempotencyKey).apply world.runtime.store = .ok store' :=
            congrArg (Except.map Prod.fst) henqueue
    obtain ⟨hkeyed, hextends⟩ := h.keyed.apply happly
    have hreply : (world.handle config request).2 = .answer (.created job replay) :=
      congrArg Prod.snd hhandle
    have hexchanges : (world.step config (.request request)).exchanges =
        world.exchanges ++ [(request, .answer (.created job replay))] := hreply ▸ rfl
    have htold :
        ∀ j, (world.step config (.request request)).Told j →
        ∃ row ∈ store'.jobs, j.Evolves row := by
      rintro j ⟨r, again, hr⟩
      rcases hmem hr with hold | hnew
      · obtain ⟨row, hrow, hevolves⟩ := h.told j ⟨r, again, hold⟩
        obtain ⟨row', hrow', hevolves'⟩ := hextends row hrow
        exact ⟨row', hrow', hevolves.trans hevolves'⟩
      · have hanswer := (congrArg Prod.snd hnew).trans hreply
        obtain ⟨rfl, -⟩ := Answer.created.inj (Reply.answer.inj hanswer)
        exact ⟨j, (enqueue_returns henqueue).1, .refl j⟩
    rw [← hstore'] at hkeyed htold
    rcases enqueue_cases henqueue with ⟨rfl, hsame, -⟩ | ⟨rfl, -, -, hjob, hsame⟩
    · refine ⟨hkeyed, ?_, fun r j hr ↦ ?_, htold⟩
      · rw [hstore', hsame, World.created, hexchanges, List.filterMap_append]
        exact (List.append_nil _).symm ▸ h.rows
      · rw [hexchanges] at hr
        rcases List.mem_append.mp hr with hold | hnew
        · exact h.asked r j hold
        · cases List.mem_singleton.mp hnew
    · refine ⟨hkeyed, ?_, fun r j hr ↦ ?_, htold⟩
      · rw [hstore', hsame, World.created, hexchanges, List.filterMap_append]
        exact List.rel_append h.rows (.cons (.refl job) .nil)
      · rw [hexchanges] at hr
        rcases List.mem_append.mp hr with hold | hnew
        · exact h.asked r j hold
        · cases List.mem_singleton.mp hnew
          exact ⟨payload, identity, hjob ▸ hcall, hidentity, haccepted, by rw [hjob]; rfl⟩

theorem Accounts.worker (h : Accounts config world) (call : WorkerCall) :
    Accounts config (world.step config (.worker call)) := by
  cases hop : call.op with
  | heartbeat workerId startedAt heartbeatAt =>
    have hsame : (world.step config (.worker call)).runtime.store = world.runtime.store := by
      simp only [World.step, hop]
      rfl
    exact ⟨hsame ▸ h.keyed, hsame ▸ h.rows, h.asked, fun j hj ↦ hsame ▸ h.told j hj⟩
  | job op =>
    have hstore : (world.step config (.worker call)).runtime.store =
        Runs.attempt JobOp.apply world.runtime.store op := by
      simp only [World.step, hop, Runs.attempt, RuntimeOp.apply]
      cases op.apply world.runtime.store <;> rfl
    cases ha : op.apply world.runtime.store with
    | error e =>
      rw [Runs.attempt_error ha] at hstore
      exact ⟨hstore ▸ h.keyed, hstore ▸ h.rows, h.asked, fun j hj ↦ hstore ▸ h.told j hj⟩
    | ok store' =>
      rw [Runs.attempt_ok ha] at hstore
      obtain ⟨hkeyed, hextends⟩ := h.keyed.apply ha
      obtain ⟨change, hrows, hevolves⟩ := worker_rows h.keyed hop ha
      refine ⟨hstore ▸ hkeyed, hstore ▸ forall₂_extended h.rows hrows hevolves, h.asked,
        fun j hj ↦ ?_⟩
      obtain ⟨row, hrow, hto⟩ := h.told j hj
      obtain ⟨row', hrow', hto'⟩ := hextends row hrow
      exact ⟨row', hstore ▸ hrow', hto.trans hto'⟩

end Step

theorem Accounts.run {config : ServerConfig} {world : World} (h : Accounts config world)
    (events : List Event) :
    Accounts config (world.run config events) := by
  induction events generalizing world with
  | nil => exact h
  | cons event events ih =>
    refine ih ?_
    cases event with
    | request request => exact h.request request
    | worker call => exact h.worker call
    | database database userVersion => exact ⟨h.keyed, h.rows, h.asked, h.told⟩

theorem accounts_empty (config : ServerConfig) : Accounts config {} :=
  ⟨⟨List.nodup_nil, List.nodup_nil⟩, .nil, fun _ _ h ↦ (by cases h), fun _ ⟨_, _, h⟩ ↦ (by cases h)⟩

/-- An authenticated `GET /jobs/{job_id}` that the database does not fail. -/
structure Request.Gets (config : ServerConfig) (request : Request) (jobId : String) : Prop where
  call : request.call = .read (.getJob jobId)
  authenticated : ∃ identity, requireMtls config.toRuntimeConfig request.headers = .ok identity
  reachable : request.machine.ledgerRaises = false

theorem handle_get {config : ServerConfig} {request : Request} {jobId : String}
    (h : request.Gets config jobId) (world : World) : (world.handle config request).2 =
      match world.runtime.store.byId jobId with
      | none => .notFound "Job not found."
      | some job => .job job := by
  obtain ⟨identity, hidentity⟩ := h.authenticated
  rw [World.handle, h.call]
  simp only [hidentity, World.read, h.reachable]
  rfl

theorem handle_get_row {config : ServerConfig} {request : Request} {world : World}
    (hworld : Accounts config world) {row : JobRecord} (hrow : row ∈ world.runtime.store.jobs)
    (h : request.Gets config row.jobId) :
    (world.handle config request).2 = .job row := by
  have hfind : world.runtime.store.byId row.jobId = some row := Table.find_key hworld.keyed.ids hrow
  rw [handle_get h, hfind]

theorem handle_get_absent {config : ServerConfig} {request : Request} {world : World}
    {jobId : String} (habsent : jobId ∉ world.runtime.store.jobs.map JobRecord.jobId)
    (h : request.Gets config jobId) :
    (world.handle config request).2 = .notFound "Job not found." := by
  have hfind : world.runtime.store.byId jobId = none := by
    refine List.find?_eq_none.mpr fun j hj hid ↦ habsent ?_
    exact List.mem_map.mpr ⟨j, hj, of_decide_eq_true hid⟩
  rw [handle_get h, hfind]

theorem mem_created {world : World} {job : JobRecord} :
    job ∈ world.created ↔ ∃ request, (request,
      Reply.answer (.created job false)) ∈ world.exchanges := by
  rw [World.created, List.mem_filterMap]
  constructor
  · rintro ⟨⟨request, reply⟩, hmem, hnew⟩
    unfold newIn at hnew
    split at hnew
    next heq =>
      obtain rfl := Option.some.inj hnew
      exact ⟨request, (Prod.mk.inj heq).2 ▸ hmem⟩
    · cases hnew
  · rintro ⟨request, hmem⟩
    exact ⟨_, hmem, rfl⟩

theorem created_ids {config : ServerConfig} {world : World} (h : Accounts config world) :
    world.created.map JobRecord.jobId = world.runtime.store.jobs.map JobRecord.jobId := by
  have hids :=
    List.rel_map (R := JobRecord.Evolves) (P := Eq) (fun _ _ hevolves ↦ hevolves.jobId.symm) h.rows
  rwa [List.forall₂_eq_eq_eq] at hids

theorem told_ids {config : ServerConfig} {world : World} (h : Accounts config world)
    (jobId : String) :
    jobId ∈ world.runtime.store.jobs.map JobRecord.jobId ↔
    ∃ job, world.Told job ∧ job.jobId = jobId := by
  constructor
  · rw [← created_ids h]
    intro hid
    obtain ⟨job, hjob, rfl⟩ := List.mem_map.mp hid
    obtain ⟨request, hmem⟩ := mem_created.mp hjob
    exact ⟨job, ⟨request, false, hmem⟩, rfl⟩
  · rintro ⟨job, htold, rfl⟩
    obtain ⟨row, hrow, hevolves⟩ := h.told job htold
    exact List.mem_map.mpr ⟨row, hrow, hevolves.jobId⟩

theorem run_exchanges (config : ServerConfig) (world : World) (events : List Event) :
    world.exchanges <+: (world.run config events).exchanges := by
  induction events generalizing world with
  | nil => exact List.prefix_rfl
  | cons event events ih =>
    refine List.IsPrefix.trans ?_ (ih (world.step config event))
    cases event with
    | request request => exact List.prefix_append _ _
    | worker call => exact List.prefix_rfl
    | database database userVersion => exact List.prefix_rfl

theorem requireMtls_ok {config : RuntimeConfig} (hmtls : config.requireMtlsHeader = true)
    {headers : Headers} {identity : Option String} : requireMtls config headers = .ok identity ↔
      headers.clientVerify = some "SUCCESS" ∧ headers.clientDn = identity ∧
      ∃ name ≠ "", identity = some name := by
  unfold requireMtls
  rw [if_neg (by simp [hmtls])]
  by_cases hverify : headers.clientVerify = some "SUCCESS"
  · rw [if_neg (not_not.mpr hverify)]
    cases hdn : headers.clientDn with
    | none =>
      refine iff_of_false nofun ?_
      rintro ⟨-, rfl, name, -, hname⟩
      cases hname
    | some name =>
      dsimp only
      split_ifs with hempty
      · refine iff_of_false nofun ?_
        rintro ⟨-, rfl, other, hother, hname⟩
        exact hother (Option.some.inj hname ▸ hempty)
      · constructor
        · intro h
          obtain rfl := Except.ok.inj h
          exact ⟨hverify, rfl, name, hempty, rfl⟩
        · rintro ⟨-, rfl, -⟩
          rfl
  · rw [if_pos hverify]
    exact iff_of_false nofun fun h ↦ hverify h.1

/-- The server over every run of requests, worker calls and other writes: its new jobs are the
rows of the table in their order, each asked for by a requester that was let in; what it once told
of a job stays readable, and is told to whoever asks; and it knows no other job. -/
theorem api_contract (config : ServerConfig) (events more : List Event) :
    let before := World.run config {} events
    let after := World.run config before more
    List.Forall₂ JobRecord.Evolves after.created after.runtime.store.jobs ∧
    (∀ request job, (request, .answer (.created job false)) ∈ after.exchanges →
      request.asks config job) ∧
    (∀ job request, before.Told job → request.Gets config job.jobId →
      ∃ row ∈ after.runtime.store.jobs, job.Evolves row ∧
        (after.handle config request).2 = .job row) ∧
    (∀ jobId request, request.Gets config jobId →
      ((after.handle config request).2 = .notFound "Job not found." ↔
        ∀ job, after.Told job → job.jobId ≠ jobId)) ∧
    (config.requireMtlsHeader = true →
      ∀ row ∈ after.runtime.store.jobs, ∃ exchange ∈ after.exchanges, ∃ name,
      exchange.1.headers.clientVerify = some "SUCCESS" ∧ exchange.1.headers.clientDn = some name ∧
        isRequester name = true ∧ row.requestedBy = storedRequester name) := by
  intro before after
  have hafter : Accounts config after := ((accounts_empty config).run events).run more
  have hprefix : before.exchanges <+: after.exchanges := run_exchanges config before more
  refine ⟨hafter.rows, hafter.asked,
    fun job request ⟨r, replay, htold⟩ hget ↦ ?_, fun jobId request hget ↦ ?_,
    fun hmtls row hrow ↦ ?_⟩
  · obtain ⟨row, hrow, hevolves⟩ := hafter.told job ⟨r, replay, hprefix.subset htold⟩
    exact ⟨row, hrow, hevolves, handle_get_row hafter hrow (hevolves.jobId ▸ hget)⟩
  · have hids := told_ids hafter jobId
    constructor
    · intro hnone job htold hid
      obtain ⟨row, hrow, hrowId⟩ := List.mem_map.mp (hids.mpr ⟨job, htold, hid⟩)
      rw [handle_get_row hafter hrow (hrowId ▸ hget)] at hnone
      cases hnone
    · intro hother
      refine handle_get_absent (fun hid ↦ ?_) hget
      obtain ⟨job, htold, hsame⟩ := hids.mp hid
      exact hother job htold hsame
  · have hid : row.jobId ∈ after.created.map JobRecord.jobId := created_ids hafter ▸
      List.mem_map_of_mem hrow
    obtain ⟨job, hjob, hsame⟩ := List.mem_map.mp hid
    obtain ⟨request, hmem⟩ := mem_created.mp hjob
    obtain ⟨payload, identity, -, hidentity, haccepted, hasked⟩ := hafter.asked request job hmem
    obtain ⟨hverify, hdn, name, hne, rfl⟩ := (requireMtls_ok hmtls).mp hidentity
    obtain ⟨row', hrow', hevolves⟩ := hafter.told job ⟨request, false, hmem⟩
    -- the row that the answer has become is the one with its id
    obtain rfl : row' = row :=
      Table.eq_of_key hafter.keyed.ids hrow' hrow (hevolves.jobId.trans hsame)
    have hrequester : requester (some name) payload = name := if_neg hne
    rw [hrequester] at haccepted hasked
    refine ⟨_, hmem, name, hverify, hdn, haccepted, hevolves.requestedBy.trans ?_⟩
    rw [hasked]
    rfl

def dailyCall : Request where
  headers := { clientVerify := some "SUCCESS", clientDn := some "CN=first" }
  machine := { now := 0, freeBytes := 200000000 }
  call := .createJob dailyRequest 0 "00000000-0000-4000-8000-000000000001"

def dailyGet : Request where
  headers := { clientVerify := some "SUCCESS", clientDn := some "CN=second" }
  machine := { now := 2, freeBytes := 0 }
  call := .read (.getJob "00000000-0000-4000-8000-000000000001")

theorem api_contract_dailyGet :
    let after := World.run {} {} [.request dailyCall, .worker (.claimNext 1 3600)]
    ∃ row ∈ after.runtime.store.jobs, row.status = .running ∧
      (after.handle {} dailyGet).2 = .job row := by
  intro after
  obtain ⟨-, -, htold, -⟩ := api_contract {} [.request dailyCall] [.worker (.claimNext 1 3600)]
  obtain ⟨row, hrow, -, hreply⟩ := htold
    (newJob 0 "00000000-0000-4000-8000-000000000001" .daily "CN=first" "daily-run-1") dailyGet
    ⟨dailyCall, false, List.mem_singleton_self _⟩ ⟨rfl, ⟨_, rfl⟩, rfl⟩
  exact ⟨row, hrow, by decide +revert, hreply⟩

end AgenticSecurity.Api
