import AgenticSecurity.Jobs.Retries
import AgenticSecurity.Library.Transactions

namespace AgenticSecurity.Jobs

open Library Transactions

/-- The calls of `JobStore` that write, each with the clock reading that it takes before its
transaction begins. -/
inductive JobCall
  | enqueue (createdAt : Timestamp) (jobType : JobType) (requestedBy key : String)
  | recoverInterrupted (current : Timestamp) (maxRetries : ℕ)
  | claimNext (current : Timestamp) (leaseSeconds : ℤ)
  | finish (finishedAt : Timestamp) (jobId : String) (status : JobStatus)
      (failureCategory : Option FailureCategory) (message : Option String)
  deriving DecidableEq, Repr

inductive Reply
  | enqueued (job : JobRecord) (replay : Bool)
  | recovered (count : ℕ)
  | claimed (job : Option JobRecord)
  | finished (job : Option JobRecord)
  deriving DecidableEq, Repr

/-- Where a call stands. `lookUp`, `insert` and `fallback` are the statements of `enqueue`;
the other calls are `update` as a whole. -/
inductive CallStage
  | lookUp
  | insert
  | fallback
  | update
  | returned (reply : Reply)
  | raised (error : JobStoreError)
  deriving DecidableEq, Repr

def CallStage.result : CallStage → Option (Except JobStoreError Reply)
  | .returned reply => some (.ok reply)
  | .raised error => some (.error error)
  | _ => none

/-- `_validate_idempotent_replay` on the row that a lookup found. -/
def replayStage (job : JobRecord) (jobType : JobType) (requestedBy : String) : CallStage :=
  match validateIdempotentReplay job jobType requestedBy with
  | .ok job => .returned (.enqueued job true)
  | .error error => .raised error

def newJob (createdAt : Timestamp) (jobId : String) (jobType : JobType) (requestedBy key : String) :
    JobRecord :=
  { jobId, jobType, requestedBy, idempotencyKey := key, createdAt, queuedAt := createdAt,
    updatedAt := createdAt, status := .queued, retryCount := 0 }

/-- The next statement of `enqueue`; `jobId` is the value of `uuid.uuid4()`. The insert is
refused by the primary key and by the unique key column. -/
def enqueueNext (createdAt : Timestamp) (jobType : JobType) (requestedBy key : String)
    (store : JobStore) (jobId : String) : CallStage → JobStore × CallStage
  | .lookUp =>
    match store.byKey key with
    | some existing => (store, replayStage existing jobType requestedBy)
    | none => (store, .insert)
  | .insert =>
    if jobId ∈ store.jobs.map JobRecord.jobId ∨ key ∈ store.jobs.map JobRecord.idempotencyKey then
      (store, .fallback)
    else
      let row := newJob createdAt jobId jobType requestedBy key
      ({ store with jobs := store.jobs ++ [row] }, .returned (.enqueued row false))
  | .fallback =>
    match store.byKey key with
    | some replay => (store, replayStage replay jobType requestedBy)
    | none => (store, .raised .integrityError)
  | stage => (store, stage)

def updateNext (store : JobStore) : JobCall → JobStore × CallStage
  | .enqueue .. => (store, .update)
  | .recoverInterrupted current maxRetries =>
    let (store, count) := store.recoverInterrupted current maxRetries
    (store, .returned (.recovered count))
  | .claimNext current leaseSeconds =>
    let (store, job) := store.claimNext current leaseSeconds
    (store, .returned (.claimed job))
  | .finish finishedAt jobId status failureCategory message =>
    match store.finish finishedAt jobId status failureCategory message with
    | .ok (store, job) => (store, .returned (.finished job))
    | .error error => (store, .raised error)

def JobCall.next (call : JobCall) (store : JobStore) (stage : CallStage) (jobId : String) :
    JobStore × CallStage :=
  match call with
  | .enqueue createdAt jobType requestedBy key =>
    enqueueNext createdAt jobType requestedBy key store jobId stage
  | call => if stage = .update then updateNext store call else (store, stage)

def JobCall.start : JobCall → CallStage
  | .enqueue .. => .lookUp
  | _ => .update

def jobBody : Body JobStore JobCall CallStage String JobStoreError Reply where
  start := JobCall.start
  next := JobCall.next
  result := CallStage.result

/-- The tables of one database file and the clients of its job store. -/
abbrev JobWorld := Transactions.World JobStore JobCall CallStage JobStoreError Reply

abbrev JobEvent := Transactions.Event JobCall String

/-- The call as one step, with the id that it draws. -/
def JobCall.op (jobId : String) : JobCall → JobOp
  | .enqueue createdAt jobType requestedBy key => .enqueue createdAt jobId jobType requestedBy key
  | .recoverInterrupted current maxRetries => .recoverInterrupted current maxRetries
  | .claimNext current leaseSeconds => .claimNext current leaseSeconds
  | .finish finishedAt jobId status failureCategory message =>
    .finish finishedAt jobId status failureCategory message

section Enqueue

variable {createdAt : Timestamp} {jobType : JobType} {requestedBy key : String} {before : JobStore}

/-- What a call of `enqueue` knows where it stands. -/
def EnqueueKnows (createdAt : Timestamp) (jobType : JobType) (requestedBy key : String)
    (before store : JobStore) :
    CallStage → Prop
  | .lookUp => store = before
  | .insert => store = before ∧ before.byKey key = none
  | .fallback => store = before ∧ before.byKey key = none ∧
      ∃ jobId, jobId ∈ before.jobs.map JobRecord.jobId
  | .update => False
  | .returned reply => ∃ jobId job replay, reply = .enqueued job replay ∧
      before.enqueue createdAt jobId jobType requestedBy key = .ok (store, job, replay)
  | .raised error => ∃ jobId, before.enqueue createdAt jobId jobType requestedBy key = .error error

theorem enqueue_found {existing : JobRecord} (h : before.byKey key = some existing)
    (jobId : String) :
    before.enqueue createdAt jobId jobType requestedBy key =
      (validateIdempotentReplay existing jobType requestedBy).map fun job ↦ (before,
        job, true) := by
  simp only [JobStore.enqueue, h]
  cases validateIdempotentReplay existing jobType requestedBy <;> rfl

theorem byKey_some {store : JobStore} {job : JobRecord} (h : store.byKey key = some job) :
    job ∈ store.jobs ∧ job.idempotencyKey = key :=
  ⟨List.mem_of_find?_eq_some h, by simpa using List.find?_some h⟩

theorem key_absent (h : before.byKey key = none) :
    key ∉ before.jobs.map JobRecord.idempotencyKey := by
  intro hkey
  obtain ⟨j, hj, hjkey⟩ := List.mem_map.mp hkey
  exact List.find?_eq_none.mp h j hj (decide_eq_true hjkey)

theorem enqueue_new (h : before.byKey key = none) {jobId : String}
    (hid : jobId ∉ before.jobs.map JobRecord.jobId) :
    before.enqueue createdAt jobId jobType requestedBy key =
      .ok ({ before with jobs := before.jobs ++ [newJob createdAt jobId jobType requestedBy key] },
        newJob createdAt jobId jobType requestedBy key, false) := by
  simp only [JobStore.enqueue, h, Table.insert, if_neg hid]
  rfl

theorem enqueue_taken (h : before.byKey key = none) {jobId : String}
    (hid : jobId ∈ before.jobs.map JobRecord.jobId) :
    before.enqueue createdAt jobId jobType requestedBy key = .error .integrityError := by
  simp only [JobStore.enqueue, h, Table.insert, if_pos hid]

theorem knows_replay {existing : JobRecord} (h : before.byKey key = some existing) :
    EnqueueKnows createdAt jobType requestedBy key before before
      (replayStage existing jobType requestedBy) := by
  have hfound : ∀ jobId, before.enqueue createdAt jobId jobType requestedBy key =
      (validateIdempotentReplay existing jobType requestedBy).map fun job ↦ (before, job, true) :=
    enqueue_found h
  unfold replayStage
  split
  next job hjob =>
    rw [hjob] at hfound
    exact ⟨"", job, true, rfl, hfound ""⟩
  next error herror =>
    rw [herror] at hfound
    exact ⟨"", hfound ""⟩

theorem knows_next {store : JobStore} {stage : CallStage}
    (h : EnqueueKnows createdAt jobType requestedBy key before store stage) (jobId : String) :
    EnqueueKnows createdAt jobType requestedBy key before
      (enqueueNext createdAt jobType requestedBy key store jobId stage).1
      (enqueueNext createdAt jobType requestedBy key store jobId stage).2 := by
  cases stage with
  | lookUp =>
    obtain rfl : store = before := h
    cases hkey : store.byKey key with
    | some existing =>
      simp only [enqueueNext, hkey]
      exact knows_replay hkey
    | none =>
      simp only [enqueueNext, hkey]
      exact ⟨rfl, hkey⟩
  | insert =>
    obtain ⟨rfl, hkey⟩ := h
    by_cases hid : jobId ∈ store.jobs.map JobRecord.jobId
    · simp only [enqueueNext,
        if_pos (Or.inl hid : _ ∨ key ∈ store.jobs.map JobRecord.idempotencyKey)]
      exact ⟨rfl, hkey, jobId, hid⟩
    · have hfree :
          ¬ (jobId ∈ store.jobs.map JobRecord.jobId ∨
            key ∈ store.jobs.map JobRecord.idempotencyKey) :=
        not_or_intro hid (key_absent hkey)
      simp only [enqueueNext, if_neg hfree]
      exact ⟨jobId, _, false, rfl, enqueue_new hkey hid⟩
  | fallback =>
    obtain ⟨rfl, hkey, hid⟩ := h
    simp only [enqueueNext, hkey]
    obtain ⟨jobId, hid⟩ := hid
    exact ⟨jobId, enqueue_taken hkey hid⟩
  | update => exact h
  | returned reply => exact h
  | raised error => exact h

end Enqueue

theorem result_cases {stage : CallStage} {result : Except JobStoreError Reply}
    (h : stage.result = some result) :
    (∃ reply, result = .ok reply ∧ stage = .returned reply) ∨
      ∃ error, result = .error error ∧ stage = .raised error := by
  cases stage with
  | returned reply => exact .inl ⟨reply, (Option.some.inj h).symm, rfl⟩
  | raised error => exact .inr ⟨error, (Option.some.inj h).symm, rfl⟩
  | lookUp | insert | fallback | update => cases h

theorem enqueue_produces {createdAt : Timestamp} {jobType : JobType} {requestedBy key : String}
    {before after : JobStore} {result : Except JobStoreError Reply}
    (h : jobBody.Produces (.enqueue createdAt jobType requestedBy key) before result after) :
    ∃ jobId, (∃ job replay, result = .ok (.enqueued job replay) ∧
        before.enqueue createdAt jobId jobType requestedBy key = .ok (after, job, replay)) ∨
      ∃ error, result = .error error ∧ after = before ∧
        before.enqueue createdAt jobId jobType requestedBy key = .error error := by
  obtain ⟨inputs, hresult, rfl⟩ := h
  let call : JobCall := .enqueue createdAt jobType requestedBy key
  have hknows :
      EnqueueKnows createdAt jobType requestedBy key before (jobBody.run call before inputs).1
      (jobBody.run call before inputs).2 := by
    refine jobBody.run_invariant (EnqueueKnows createdAt jobType requestedBy key before)
      ?_ ?_ inputs
    · exact (rfl : before = before)
    · exact fun _ _ jobId hk ↦ knows_next hk jobId
  rcases result_cases hresult with ⟨reply, rfl, hstage⟩ | ⟨error, rfl, hstage⟩
  · rw [hstage] at hknows
    obtain ⟨jobId, job, replay, rfl, hjob⟩ := hknows
    exact ⟨jobId, .inl ⟨job, replay, rfl, hjob⟩⟩
  · rw [hstage] at hknows
    obtain ⟨jobId, hraised⟩ := hknows
    exact ⟨jobId, .inr ⟨error, rfl, rfl, hraised⟩⟩

def UpdateKnows (call : JobCall) (before store : JobStore) : CallStage → Prop
  | .update => store = before
  | .returned _ => (call.op "").apply before = .ok store
  | .raised _ => True
  | _ => False

theorem knows_update (call : JobCall) (before : JobStore) :
    UpdateKnows call before (updateNext before call).1 (updateNext before call).2 := by
  cases call with
  | enqueue createdAt jobType requestedBy key => exact (rfl : before = before)
  | recoverInterrupted current maxRetries => exact rfl
  | claimNext current leaseSeconds => exact rfl
  | finish finishedAt jobId status failureCategory message =>
    cases hf : before.finish finishedAt jobId status failureCategory message with
    | ok finished =>
      simp only [updateNext, hf]
      exact congrArg (Except.map Prod.fst) hf
    | error e =>
      simp only [updateNext, hf]
      trivial

theorem update_produces {call : JobCall} (hcall : call.start = .update) {before after : JobStore}
    {result : Except JobStoreError Reply} (h : jobBody.Produces call before result after) :
    after = before ∨ ∃ reply, result = .ok reply ∧ (call.op "").apply before = .ok after := by
  obtain ⟨inputs, hresult, rfl⟩ := h
  have hnext : ∀ store stage jobId, call.next store stage jobId =
      if stage = .update then updateNext store call else (store, stage) := by
    cases call with
    | enqueue => cases hcall
    | recoverInterrupted | claimNext | finish => exact fun _ _ _ ↦ rfl
  have hknows :
      UpdateKnows call before (jobBody.run call before inputs).1
      (jobBody.run call before inputs).2 := by
    refine jobBody.run_invariant (UpdateKnows call before) ?_ (fun store stage jobId hk ↦ ?_) inputs
    · have hstart : jobBody.start call = .update := hcall
      rw [hstart]
      exact (rfl : before = before)
    · have hstep : jobBody.next call store stage jobId =
        if stage = .update then updateNext store call else (store, stage) := hnext store stage jobId
      rw [hstep]
      split_ifs with hupdate
      · subst hupdate
        obtain rfl : store = before := hk
        exact knows_update call store
      · exact hk
  rcases result_cases hresult with ⟨reply, rfl, hstage⟩ | ⟨error, rfl, hstage⟩
  · rw [hstage] at hknows
    exact .inr ⟨reply, rfl, hknows⟩
  · exact .inl rfl

theorem produces_step {call : JobCall} {before after : JobStore}
    {result : Except JobStoreError Reply} (h : jobBody.Produces call before result after) :
    after = before ∨ ∃ jobId reply, result = .ok reply ∧
      (call.op jobId).apply before = .ok after := by
  cases call with
  | enqueue createdAt jobType requestedBy key =>
    obtain ⟨jobId, ⟨job, replay, hreply, hjob⟩ | ⟨-, -, hsame, -⟩⟩ := enqueue_produces h
    · exact .inr ⟨jobId, _, hreply, congrArg (Except.map Prod.fst) hjob⟩
    · exact .inl hsame
  | recoverInterrupted | claimNext | finish =>
    exact (update_produces rfl h).imp_right fun ⟨reply, hreply, happly⟩ ↦ ⟨"", reply,
      hreply, happly⟩

abbrev JobHistory := List (Ended JobStore JobCall JobStoreError Reply)

/-- The transaction is a successful `enqueue` of the key. -/
def Enqueues (key : String) (e : Ended JobStore JobCall JobStoreError Reply) : Prop :=
  ∃ createdAt jobType requestedBy job replay,
    e.call = .enqueue createdAt jobType requestedBy key ∧ e.result = .ok (.enqueued job replay)

structure Rows (history : JobHistory) (store : JobStore) : Prop where
  ids : (store.jobs.map JobRecord.jobId).Nodup
  keys : (store.jobs.map JobRecord.idempotencyKey).Nodup
  enqueued : ∀ j ∈ store.jobs, ∃ e ∈ history, Enqueues j.idempotencyKey e
  stays : ∀ e ∈ history, e.after.Extends store

theorem JobOp.retriesUpTo_some (op : JobOp) : ∃ m, op.RetriesUpTo m := by
  cases op with
  | recoverInterrupted current maxRetries => exact ⟨maxRetries, rfl⟩
  | enqueue | claimNext | finish => exact ⟨0, trivial⟩

theorem Rows.ended {history : JobHistory} {call : JobCall} {before after : JobStore}
    {result : Except JobStoreError Reply} (h : Rows history before)
    (hproduces : jobBody.Produces call before result after) :
    Rows (history ++ [⟨call, before, result, after⟩]) after := by
  have hold : ∀ {key}, (∃ e ∈ history, Enqueues key e) →
      ∃ e ∈ history ++ [⟨call, before, result, after⟩], Enqueues key e :=
    fun ⟨e, he, hkey⟩ ↦ ⟨e, List.mem_append_left _ he, hkey⟩
  have hextends : before.Extends after →
      ∀ e ∈ history ++ [⟨call, before, result, after⟩], e.after.Extends after := by
    intro hstep e he
    rcases List.mem_append.mp he with hearlier | hlast
    · exact (h.stays e hearlier).trans hstep
    · obtain rfl := List.mem_singleton.mp hlast
      exact .refl _
  rcases produces_step hproduces with rfl | ⟨jobId, reply, rfl, happly⟩
  · exact ⟨h.ids, h.keys, fun j hj ↦ hold (h.enqueued j hj), hextends (.refl _)⟩
  · obtain ⟨m, hm⟩ := (call.op jobId).retriesUpTo_some
    obtain ⟨change, added, hrows⟩ := apply_rowSteps h.ids hm happly
    refine ⟨hrows.nodup h.ids, ?_, fun j hj ↦ ?_, hextends fun j hj ↦ ?_⟩
    · exact hrows.nodup_map (fun j ↦ (hrows.evolves j).idempotencyKey) h.keys fun j hj ↦
        key_absent (hrows.fresh j hj).2.1
    · rcases hrows.mem hj with ⟨i, hi, rfl⟩ | hadded
      · rw [(hrows.evolves i).idempotencyKey]
        exact hold (h.enqueued i hi)
      · -- only `enqueue` adds a row
        obtain ⟨-, -, -, -, hop⟩ := hrows.fresh j hadded
        cases call with
        | enqueue createdAt jobType requestedBy key =>
          have hkey : key = j.idempotencyKey := (JobOp.enqueue.inj hop).2.2.2.2
          obtain ⟨-, ⟨job, replay, hreply, -⟩ | ⟨error, herror, -⟩⟩ := enqueue_produces hproduces
          · refine ⟨_, List.mem_append_right _ (List.mem_singleton.mpr rfl), createdAt, jobType,
              requestedBy, job, replay, ?_, hreply⟩
            rw [hkey]
          · cases herror
        | recoverInterrupted | claimNext | finish => cases hop
    · exact ⟨change j, hrows.jobs ▸ List.mem_append_left _ (List.mem_map_of_mem hj),
        hrows.evolves j⟩

theorem rows_of_serial {history : JobHistory} {store : JobStore}
    (h : Serial jobBody {} history store) :
    Rows history store := by
  induction h with
  | start =>
    exact ⟨List.nodup_nil, List.nodup_nil, fun j hj ↦ absurd hj List.not_mem_nil,
      fun e he ↦ absurd he List.not_mem_nil⟩
  | ended _ produces ih => exact ih.ended produces

theorem enqueue_returns {createdAt : Timestamp} {jobId : String} {jobType : JobType}
    {requestedBy key : String} {before after : JobStore} {job : JobRecord} {replay : Bool}
    (h : before.enqueue createdAt jobId jobType requestedBy key = .ok (after, job, replay)) :
    job ∈ after.jobs ∧ job.jobType = jobType ∧ job.requestedBy = requestedBy ∧
    job.idempotencyKey = key := by
  rcases enqueue_cases h with ⟨-, rfl, hfound, hsame⟩ | ⟨-, -, -, rfl, rfl⟩
  · exact ⟨(byKey_some hfound).1, hsame.1, hsame.2, (byKey_some hfound).2⟩
  · exact ⟨List.mem_append_right _ (List.mem_singleton.mpr rfl), rfl, rfl, rfl⟩

theorem enqueue_first {createdAt : Timestamp} {jobId : String} {jobType : JobType}
    {requestedBy key : String} {before after : JobStore} {job : JobRecord} {replay : Bool}
    (h : before.enqueue createdAt jobId jobType requestedBy key = .ok (after, job, replay))
    (hkey : key ∉ before.jobs.map JobRecord.idempotencyKey) : replay = false := by
  rcases enqueue_cases h with ⟨-, -, hfound, -⟩ | ⟨hreplay, -⟩
  · obtain ⟨hjob, rfl⟩ := byKey_some hfound
    exact absurd (List.mem_map_of_mem hjob) hkey
  · exact hreplay

theorem enqueue_existing {createdAt : Timestamp} {jobType : JobType} {requestedBy key : String}
    {before after : JobStore} {result : Except JobStoreError Reply}
    (hkeys : (before.jobs.map JobRecord.idempotencyKey).Nodup) {row : JobRecord}
    (hrow : row ∈ before.jobs)
    (hkey : row.idempotencyKey = key)
    (h : jobBody.Produces (.enqueue createdAt jobType requestedBy key) before result after) :
    after = before ∧
    (row.jobType = jobType ∧ row.requestedBy = requestedBy → result = .ok (.enqueued row true)) ∧
    (¬ (row.jobType = jobType ∧ row.requestedBy = requestedBy) → result = .error
      (.idempotencyConflict "idempotency key conflicts with the original effective request")) := by
  have hfind : before.byKey key = some row := hkey ▸ Table.find_key hkeys hrow
  obtain ⟨jobId, hends⟩ := enqueue_produces h
  rw [enqueue_found hfind, validateIdempotentReplay] at hends
  by_cases hsame : row.jobType = jobType ∧ row.requestedBy = requestedBy
  · rw [if_neg (by simp [hsame])] at hends
    rcases hends with ⟨job, replay, rfl, hjob⟩ | ⟨error, -, -, herror⟩
    · obtain ⟨rfl, rfl, rfl⟩ : before = after ∧ row = job ∧ true = replay := by
        simpa [Except.map] using hjob
      exact ⟨rfl, fun _ ↦ rfl, fun hdiff ↦ absurd hsame hdiff⟩
    · cases herror
  · rw [if_pos (by simpa only [not_and_or] using hsame)] at hends
    rcases hends with ⟨job, replay, -, hjob⟩ | ⟨error, rfl, hafter, herror⟩
    · cases hjob
    · exact ⟨hafter, fun h ↦ absurd h hsame,
        fun _ ↦ congrArg Except.error (Except.error.inj herror).symm⟩

/-- Whatever the clients of a new database do at once: a key has one job row, for ever. The
first successful `enqueue` of a key makes it, a later one of the same request returns it as it
is then, and one of another request is refused. No later one changes the tables. -/
theorem enqueue_idempotent (events : List JobEvent) (world : JobWorld)
    (h : Runs.Visits (Transactions.World.step jobBody) { committed := {} } events world) :
    (world.committed.jobs.map JobRecord.idempotencyKey).Nodup ∧
    (∀ e ∈ world.history, ∀ j ∈ e.after.jobs, ∀ j' ∈ world.committed.jobs,
      j'.idempotencyKey = j.idempotencyKey → j'.jobId = j.jobId) ∧
    ∀ earlier later createdAt jobType requestedBy key before result after,
      world.history = earlier ++
        ⟨.enqueue createdAt jobType requestedBy key, before, result, after⟩ :: later →
      (∀ reply, result = .ok reply → (∀ e ∈ earlier, ¬ Enqueues key e) →
        ∃ job ∈ after.jobs, reply = .enqueued job false ∧ job.idempotencyKey = key) ∧
      ∀ e ∈ earlier, ∀ createdAt₀ jobType₀ requestedBy₀ job₀ replay₀,
        e.call = .enqueue createdAt₀ jobType₀ requestedBy₀ key →
        e.result = .ok (.enqueued job₀ replay₀) →
        after = before ∧
        (jobType = jobType₀ ∧ requestedBy = requestedBy₀ →
          ∃ job ∈ before.jobs, job.jobId = job₀.jobId ∧ result = .ok (.enqueued job true)) ∧
        (jobType ≠ jobType₀ ∨ requestedBy ≠ requestedBy₀ → result = .error
          (.idempotencyConflict
            "idempotency key conflicts with the original effective request")) := by
  have hserial := history_serial jobBody h
  have hrows := rows_of_serial hserial
  refine ⟨hrows.keys, fun e he j hj j' hj' hkey ↦ ?_, ?_⟩
  · obtain ⟨k, hk, hevolves⟩ := hrows.stays e he j hj
    obtain rfl := Table.eq_of_key hrows.keys hj' hk (hkey.trans hevolves.idempotencyKey.symm)
    exact hevolves.jobId
  · intro earlier later createdAt jobType requestedBy key before result after hhistory
    rw [hhistory] at hserial
    obtain ⟨hearlier, hproduces⟩ := hserial.split
    have hbefore := rows_of_serial hearlier
    refine ⟨fun reply hreply hfirst ↦ ?_,
      fun e he createdAt₀ jobType₀ requestedBy₀ job₀ replay₀ hcall hresult ↦ ?_⟩
    · obtain ⟨jobId, ⟨job, replay, hjob, henqueue⟩ | ⟨error, herror, -⟩⟩ :=
        enqueue_produces hproduces
      · have hnew : key ∉ before.jobs.map JobRecord.idempotencyKey := by
          intro hmem
          obtain ⟨row, hrow, rfl⟩ := List.mem_map.mp hmem
          obtain ⟨e, he, henqueues⟩ := hbefore.enqueued row hrow
          exact hfirst e he henqueues
        obtain rfl := enqueue_first henqueue hnew
        obtain ⟨hmem, -, -, hkey⟩ := enqueue_returns henqueue
        exact ⟨job, hmem, Except.ok.inj (hreply.symm.trans hjob), hkey⟩
      · cases hreply.symm.trans herror
    · -- the row of the earlier call is there still
      obtain ⟨front, back, rfl⟩ := List.append_of_mem he
      obtain ⟨-, hfirst⟩ := hearlier.split
      rw [hcall, hresult] at hfirst
      obtain ⟨jobId, ⟨job, replay, hjob, henqueue⟩ | ⟨error, herror, -⟩⟩ := enqueue_produces hfirst
      · obtain ⟨rfl, rfl⟩ := Reply.enqueued.inj (Except.ok.inj hjob)
        obtain ⟨hmem, rfl, rfl, hkey⟩ := enqueue_returns henqueue
        obtain ⟨row, hrow, hevolves⟩ := hbefore.stays e he job₀ hmem
        obtain ⟨hsame, hreplay, hconflict⟩ :=
          enqueue_existing hbefore.keys hrow (hevolves.idempotencyKey.trans hkey) hproduces
        rw [hevolves.jobType, hevolves.requestedBy] at hreplay hconflict
        refine ⟨hsame, fun hboth ↦ ?_, fun hdiff ↦ hconflict fun hboth ↦ ?_⟩
        · exact ⟨row, hrow, hevolves.jobId, hreplay ⟨hboth.1.symm, hboth.2.symm⟩⟩
        · exact hdiff.elim (fun hne ↦ hne hboth.1.symm) fun hne ↦ hne hboth.2.symm
      · cases herror

def racingRun : List JobEvent :=
  [.call 0 (.enqueue 0 .daily "api" "k1"), .call 1 (.enqueue 1 .daily "api" "k1"),
    .beginImmediate 0, .statement "", .statement "a", .close, .beginImmediate 1,
    .statement "b", .close]

theorem enqueue_idempotent_racingRun :
    ∃ world : JobWorld,
      Runs.Visits (Transactions.World.step jobBody) { committed := {} } racingRun world ∧
      world.history.map Ended.result =
        [.ok (.enqueued (newJob 0 "a" .daily "api" "k1") false),
          .ok (.enqueued (newJob 0 "a" .daily "api" "k1") true)] ∧
      (world.committed.jobs.map JobRecord.idempotencyKey).Nodup :=
  ⟨_, Runs.visits_end rfl, rfl, (enqueue_idempotent racingRun _ (Runs.visits_end rfl)).1⟩

end AgenticSecurity.Jobs
