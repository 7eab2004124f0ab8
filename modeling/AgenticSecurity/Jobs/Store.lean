import AgenticSecurity.Library.Runs
import AgenticSecurity.Library.Table
import Mathlib.Data.List.Sort
import Mathlib.Data.String.Basic

namespace AgenticSecurity.Jobs

open Library

inductive JobType
  | collect | research | daily | weeklyPack | publicationExport | publicationPr
  deriving DecidableEq, Repr

inductive JobStatus
  | queued | running | succeeded | failed | cancelled
  deriving DecidableEq, Repr

def JobStatus.terminal : JobStatus → Bool
  | .succeeded | .failed | .cancelled => true
  | .queued | .running => false

inductive FailureCategory
  | configurationUnavailable | providerUnavailable | collectionFailed | diskGuard
  | ledgerUnavailable | githubAuthUnavailable | publicationValidationFailed
  | concurrencyTimeout | interrupted | internalError
  deriving DecidableEq, Repr

abbrev Timestamp := ℤ

structure JobRecord where
  jobId : String
  jobType : JobType
  requestedBy : String
  idempotencyKey : String
  createdAt : Timestamp
  queuedAt : Timestamp
  startedAt : Option Timestamp := none
  finishedAt : Option Timestamp := none
  updatedAt : Timestamp
  status : JobStatus
  retryCount : ℕ
  failureCategory : Option FailureCategory := none
  sanitizedFailureMessage : Option String := none
  deriving DecidableEq, Repr

structure PipelineLease where
  name : String
  holderId : String
  acquiredAt : Timestamp
  expiresAt : Timestamp
  deriving DecidableEq, Repr

def pipelineLease : String := "mutating-pipeline"

/-- The two tables that the job operations read and write. -/
structure JobStore where
  jobs : List JobRecord := []
  pipelineLeases : List PipelineLease := []
  deriving DecidableEq, Repr

inductive JobStoreError
  | idempotencyConflict (message : String)
  | integrityError
  | valueError (message : String)
  deriving DecidableEq, Repr

def validateIdempotentReplay (job : JobRecord) (jobType : JobType) (requestedBy : String) :
    Except JobStoreError JobRecord :=
  if job.jobType ≠ jobType ∨ job.requestedBy ≠ requestedBy then
    .error (.idempotencyConflict "idempotency key conflicts with the original effective request")
  else .ok job

def JobStore.byKey (store : JobStore) (key : String) : Option JobRecord :=
  store.jobs.find? fun j ↦ j.idempotencyKey = key

def JobStore.byId (store : JobStore) (jobId : String) : Option JobRecord :=
  store.jobs.find? fun j ↦ j.jobId = jobId

/-- `jobId` is the value of `uuid.uuid4()`. A second insert of one id breaks the
primary key, and the fallback lookup by idempotency key then finds nothing. -/
def JobStore.enqueue (store : JobStore) (createdAt : Timestamp) (jobId : String) (jobType : JobType)
    (requestedBy key : String) : Except JobStoreError (JobStore × JobRecord × Bool) :=
  match store.byKey key with
  | some existing => do
    let job ← validateIdempotentReplay existing jobType requestedBy
    return (store, job, true)
  | none =>
    let row : JobRecord :=
      { jobId, jobType, requestedBy, idempotencyKey := key, createdAt, queuedAt := createdAt,
        updatedAt := createdAt, status := .queued, retryCount := 0 }
    match Table.insert JobRecord.jobId store.jobs row with
    | some jobs => .ok ({ store with jobs }, row, false)
    | none =>
      match store.byKey key with
      | some replay => do
        let job ← validateIdempotentReplay replay jobType requestedBy
        return (store, job, true)
      | none => .error .integrityError

/-- `DELETE FROM pipeline_leases WHERE expires_at<=?`. -/
def dropExpired (current : Timestamp) (leases : List PipelineLease) : List PipelineLease :=
  leases.filter fun l ↦ ¬ l.expiresAt ≤ current

def activeLease (leases : List PipelineLease) : Option PipelineLease :=
  leases.find? fun l ↦ l.name = pipelineLease

/-- The two updates of the recovery loop, each guarded by `status='RUNNING'`.
`seen` is the row as the loop's query returned it. -/
def recoverUpdate (current : Timestamp) (maxRetries : ℕ) (seen job : JobRecord) : JobRecord :=
  if job.status ≠ .running then job
  else if seen.retryCount < maxRetries then
    { job with
      status := .queued, startedAt := none, queuedAt := current, updatedAt := current,
      retryCount := job.retryCount + 1, failureCategory := none, sanitizedFailureMessage := none }
  else
    { job with
      status := .failed, finishedAt := some current, updatedAt := current,
      failureCategory := some .interrupted,
      sanitizedFailureMessage := some "The worker stopped before the job completed." }

/-- The rows that the recovery loop does not skip. -/
def JobStore.interrupted (store : JobStore) (leases : List PipelineLease) : List JobRecord :=
  (store.jobs.filter fun j ↦ j.status = .running).filter fun j ↦
    some j.jobId ≠ (activeLease leases).map PipelineLease.holderId

def JobStore.recoverInterrupted (store : JobStore) (current : Timestamp) (maxRetries : ℕ) :
    JobStore × ℕ :=
  let leases := dropExpired current store.pipelineLeases
  let rows := store.interrupted leases
  let jobs := rows.foldl
    (fun jobs row ↦
      Table.updateWhere (fun j ↦ j.jobId = row.jobId) (recoverUpdate current maxRetries row) jobs)
    store.jobs
  ({ jobs, pipelineLeases := leases }, rows.length)

/-- `ORDER BY queued_at,created_at,job_id`. -/
def queueOrder (a b : JobRecord) : Prop :=
  a.queuedAt < b.queuedAt ∨ a.queuedAt = b.queuedAt ∧
    (a.createdAt < b.createdAt ∨ a.createdAt = b.createdAt ∧ a.jobId ≤ b.jobId)

instance : DecidableRel queueOrder := fun a b ↦ by unfold queueOrder; infer_instance

def nextQueued (jobs : List JobRecord) : Option JobRecord :=
  ((jobs.filter fun j ↦ j.status = .queued).insertionSort queueOrder).head?

def claimUpdate (current : Timestamp) (job : JobRecord) : JobRecord :=
  { job with status := .running, startedAt := some current, updatedAt := current }

def JobStore.claimNext (store : JobStore) (current : Timestamp) (leaseSeconds : ℤ) :
    JobStore × Option JobRecord :=
  let expiresAt := current + leaseSeconds * 1000000
  let leases := dropExpired current store.pipelineLeases
  match activeLease leases with
  | some _ => ({ store with pipelineLeases := leases }, none)
  | none =>
    match nextQueued store.jobs with
    | none => ({ store with pipelineLeases := leases }, none)
    | some row =>
      let lease : PipelineLease :=
        { name := pipelineLease, holderId := row.jobId, acquiredAt := current, expiresAt }
      let jobs := Table.updateWhere (fun j ↦ j.jobId = row.jobId ∧ j.status = .queued)
        (claimUpdate current) store.jobs
      let claimed : JobStore := { jobs, pipelineLeases := leases ++ [lease] }
      (claimed, claimed.byId row.jobId)

def finishUpdate (finishedAt : Timestamp) (status : JobStatus)
    (failureCategory : Option FailureCategory) (message : Option String) (job : JobRecord) :
    JobRecord :=
  { job with
    status, finishedAt := some finishedAt, updatedAt := finishedAt, failureCategory,
    sanitizedFailureMessage := message }

def JobStore.finish (store : JobStore) (finishedAt : Timestamp) (jobId : String)
    (status : JobStatus) (failureCategory : Option FailureCategory) (message : Option String) :
    Except JobStoreError (JobStore × Option JobRecord) :=
  if ¬ status.terminal then .error (.valueError "finish requires a terminal job status")
  else
    let running : JobRecord → Bool := fun j ↦ j.jobId = jobId ∧ j.status = .running
    if (store.jobs.filter running).length ≠ 1 then .error (.valueError "job is not running")
    else
      let jobs := Table.updateWhere running
        (finishUpdate finishedAt status failureCategory message) store.jobs
      let leases := store.pipelineLeases.filter fun l ↦
        ¬ (l.name = pipelineLease ∧ l.holderId = jobId)
      let finished : JobStore := { jobs, pipelineLeases := leases }
      .ok (finished, finished.byId jobId)

/-- `ORDER BY started_at,job_id`; a missing start sorts first. -/
def startOrder (a b : JobRecord) : Prop :=
  match a.startedAt, b.startedAt with
  | none, some _ => True
  | some _, none => False
  | none, none => a.jobId ≤ b.jobId
  | some s, some t => s < t ∨ s = t ∧ a.jobId ≤ b.jobId

instance : DecidableRel startOrder := fun a b ↦ by unfold startOrder; split <;> infer_instance

def JobStore.activeJob (store : JobStore) : Option JobRecord :=
  ((store.jobs.filter fun j ↦ j.status = .running).insertionSort startOrder).head?

/-- The calls that write the tables, each one transaction with the readings it uses. -/
inductive JobOp
  | enqueue (createdAt : Timestamp) (jobId : String) (jobType : JobType) (requestedBy key : String)
  | recoverInterrupted (current : Timestamp) (maxRetries : ℕ)
  | claimNext (current : Timestamp) (leaseSeconds : ℤ)
  | finish (finishedAt : Timestamp) (jobId : String) (status : JobStatus)
      (failureCategory : Option FailureCategory) (message : Option String)
  deriving DecidableEq, Repr

def JobOp.apply (store : JobStore) : JobOp → Except JobStoreError JobStore
  | .enqueue createdAt jobId jobType requestedBy key =>
    (store.enqueue createdAt jobId jobType requestedBy key).map Prod.fst
  | .recoverInterrupted current maxRetries => .ok (store.recoverInterrupted current maxRetries).1
  | .claimNext current leaseSeconds => .ok (store.claimNext current leaseSeconds).1
  | .finish finishedAt jobId status failureCategory message =>
    (store.finish finishedAt jobId status failureCategory message).map Prod.fst

end AgenticSecurity.Jobs
