import AgenticSecurity.Jobs.Store
import AgenticSecurity.Python.TimeOrder

namespace AgenticSecurity.Jobs

open Library FixedWidth Python

/-- A datetime in UTC, as `_now()` and the sums made of it are. -/
structure UtcTime where
  datetime : Datetime
  utc : datetime.utcOffsetSeconds = 0
  deriving DecidableEq

def epoch : Date := ⟨1970, 1, 1, by decide⟩

def UtcTime.timestamp (t : UtcTime) : Timestamp :=
  t.datetime.instant - epoch.toOrdinal * microsecondsPerDay

/-- `_iso`. -/
def iso (t : UtcTime) : String := t.datetime.isoMicroseconds

theorem iso_le_iff {t u : UtcTime} : iso t ≤ iso u ↔ t.timestamp ≤ u.timestamp := by
  rw [iso, iso, String.le_iff_toList_le, Datetime.isoMicroseconds_sorts.le_iff t.utc u.utc]
  exact Int.sub_le_sub_right_iff.symm

theorem iso_lt_iff {t u : UtcTime} : iso t < iso u ↔ t.timestamp < u.timestamp := by
  rw [← not_le, ← not_le, iso_le_iff]

theorem iso_eq_iff {t u : UtcTime} : iso t = iso u ↔ t.timestamp = u.timestamp := by
  rw [le_antisymm_iff, le_antisymm_iff, iso_le_iff, iso_le_iff]

structure LeaseColumns where
  name : String
  holderId : String
  acquiredAt : String
  expiresAt : String
  deriving DecidableEq

structure JobColumns where
  jobId : String
  jobType : JobType
  requestedBy : String
  idempotencyKey : String
  createdAt : String
  queuedAt : String
  startedAt : Option String
  finishedAt : Option String
  updatedAt : String
  status : JobStatus
  retryCount : ℕ
  failureCategory : Option FailureCategory
  sanitizedFailureMessage : Option String
  deriving DecidableEq

structure HeartbeatColumns where
  workerId : String
  startedAt : String
  heartbeatAt : String
  deriving DecidableEq

/-- `DELETE FROM pipeline_leases WHERE expires_at<=?` on the texts. -/
def dropExpiredColumns (current : String) (rows : List LeaseColumns) : List LeaseColumns :=
  rows.filter fun row ↦ ¬ row.expiresAt ≤ current

/-- `ORDER BY queued_at,created_at,job_id` on the texts. -/
def queueOrderColumns (a b : JobColumns) : Prop :=
  a.queuedAt < b.queuedAt ∨ a.queuedAt = b.queuedAt ∧
    (a.createdAt < b.createdAt ∨ a.createdAt = b.createdAt ∧ a.jobId ≤ b.jobId)

instance : DecidableRel queueOrderColumns := fun a b ↦ by unfold queueOrderColumns; infer_instance

def nextQueuedColumns (rows : List JobColumns) : Option JobColumns :=
  ((rows.filter fun row ↦ row.status = .queued).insertionSort queueOrderColumns).head?

/-- `SELECT 1 FROM worker_heartbeats WHERE heartbeat_at>=? LIMIT 1` on the texts. -/
def workerAvailableColumns (threshold : String) (rows : List HeartbeatColumns) : Bool :=
  rows.any fun row ↦ threshold ≤ row.heartbeatAt

structure WorkerHeartbeat where
  workerId : String
  startedAt : Timestamp
  heartbeatAt : Timestamp
  deriving DecidableEq, Repr

/-- `threshold` is the reading less the time to live. -/
def workerAvailable (threshold : Timestamp) (heartbeats : List WorkerHeartbeat) : Bool :=
  heartbeats.any fun row ↦ threshold ≤ row.heartbeatAt

structure WrittenLease where
  name : String
  holderId : String
  acquiredAt : UtcTime
  expiresAt : UtcTime

def WrittenLease.columns (l : WrittenLease) : LeaseColumns where
  name := l.name
  holderId := l.holderId
  acquiredAt := iso l.acquiredAt
  expiresAt := iso l.expiresAt

def WrittenLease.lease (l : WrittenLease) : PipelineLease where
  name := l.name
  holderId := l.holderId
  acquiredAt := l.acquiredAt.timestamp
  expiresAt := l.expiresAt.timestamp

structure WrittenJob where
  jobId : String
  jobType : JobType
  requestedBy : String
  idempotencyKey : String
  createdAt : UtcTime
  queuedAt : UtcTime
  startedAt : Option UtcTime
  finishedAt : Option UtcTime
  updatedAt : UtcTime
  status : JobStatus
  retryCount : ℕ
  failureCategory : Option FailureCategory
  sanitizedFailureMessage : Option String

def WrittenJob.columns (j : WrittenJob) : JobColumns :=
  { j with
    createdAt := iso j.createdAt
    queuedAt := iso j.queuedAt
    startedAt := j.startedAt.map iso
    finishedAt := j.finishedAt.map iso
    updatedAt := iso j.updatedAt }

def WrittenJob.record (j : WrittenJob) : JobRecord :=
  { j with
    createdAt := j.createdAt.timestamp
    queuedAt := j.queuedAt.timestamp
    startedAt := j.startedAt.map UtcTime.timestamp
    finishedAt := j.finishedAt.map UtcTime.timestamp
    updatedAt := j.updatedAt.timestamp }

structure WrittenHeartbeat where
  workerId : String
  startedAt : UtcTime
  heartbeatAt : UtcTime

def WrittenHeartbeat.columns (h : WrittenHeartbeat) : HeartbeatColumns where
  workerId := h.workerId
  startedAt := iso h.startedAt
  heartbeatAt := iso h.heartbeatAt

def WrittenHeartbeat.heartbeat (h : WrittenHeartbeat) : WorkerHeartbeat where
  workerId := h.workerId
  startedAt := h.startedAt.timestamp
  heartbeatAt := h.heartbeatAt.timestamp

theorem dropExpiredColumns_written (current : UtcTime) (leases : List WrittenLease) :
    dropExpiredColumns (iso current) (leases.map WrittenLease.columns) =
      (leases.filter fun l ↦ ¬ l.expiresAt.timestamp ≤ current.timestamp).map
        WrittenLease.columns := by
  rw [dropExpiredColumns, List.filter_map]
  simp only [Function.comp_def, WrittenLease.columns, iso_le_iff]

theorem dropExpired_written (current : UtcTime) (leases : List WrittenLease) :
    dropExpired current.timestamp (leases.map WrittenLease.lease) =
      (leases.filter fun l ↦ ¬ l.expiresAt.timestamp ≤ current.timestamp).map
        WrittenLease.lease := by
  rw [dropExpired, List.filter_map]
  rfl

def earliestQueued (jobs : List WrittenJob) : Option WrittenJob :=
  ((jobs.filter fun j ↦ j.status = .queued).insertionSort
    fun a b ↦ queueOrder a.record b.record).head?

theorem queueOrderColumns_written (a b : WrittenJob) :
    queueOrder a.record b.record ↔ queueOrderColumns a.columns b.columns := by
  have hqueued : iso a.queuedAt < iso b.queuedAt ↔ _ := iso_lt_iff
  have hqueuedEq : iso a.queuedAt = iso b.queuedAt ↔ _ := iso_eq_iff
  have hcreated : iso a.createdAt < iso b.createdAt ↔ _ := iso_lt_iff
  have hcreatedEq : iso a.createdAt = iso b.createdAt ↔ _ := iso_eq_iff
  change _ ↔ iso a.queuedAt < iso b.queuedAt ∨ iso a.queuedAt = iso b.queuedAt ∧
    (iso a.createdAt < iso b.createdAt ∨ iso a.createdAt = iso b.createdAt ∧ a.jobId ≤ b.jobId)
  rw [hqueued, hqueuedEq, hcreated, hcreatedEq]
  rfl

theorem nextQueuedColumns_written (jobs : List WrittenJob) :
    nextQueuedColumns (jobs.map WrittenJob.columns) =
      (earliestQueued jobs).map WrittenJob.columns := by
  rw [nextQueuedColumns, List.filter_map, earliestQueued, ← List.head?_map,
    List.map_insertionSort _ queueOrderColumns WrittenJob.columns _
      fun a _ b _ ↦ queueOrderColumns_written a b]
  rfl

theorem nextQueued_written (jobs : List WrittenJob) :
    nextQueued (jobs.map WrittenJob.record) = (earliestQueued jobs).map WrittenJob.record := by
  rw [nextQueued, List.filter_map, earliestQueued, ← List.head?_map,
    List.map_insertionSort _ queueOrder WrittenJob.record _ fun _ _ _ _ ↦ Iff.rfl]
  rfl

theorem workerAvailableColumns_written (threshold : UtcTime) (heartbeats : List WrittenHeartbeat) :
    workerAvailableColumns (iso threshold) (heartbeats.map WrittenHeartbeat.columns) =
      workerAvailable threshold.timestamp (heartbeats.map WrittenHeartbeat.heartbeat) := by
  rw [Bool.eq_iff_iff]
  simp only [workerAvailableColumns, workerAvailable, List.any_map, List.any_eq_true,
    Function.comp_apply, decide_eq_true_eq]
  exact exists_congr fun h ↦ and_congr_right fun _ ↦ iso_le_iff

/-- The texts of UTC datetimes are in the order of time. What a query drops, selects or finds by
them is what it would by the times. -/
theorem timestamps_sort_by_time :
    (∀ t u : UtcTime, iso t ≤ iso u ↔ t.timestamp ≤ u.timestamp) ∧
    (∀ (current : UtcTime) (leases : List WrittenLease), ∃ kept : List WrittenLease,
      dropExpiredColumns (iso current) (leases.map WrittenLease.columns) =
        kept.map WrittenLease.columns ∧
        dropExpired current.timestamp (leases.map WrittenLease.lease) =
          kept.map WrittenLease.lease ∧
        ∀ l, l ∈ kept ↔ l ∈ leases ∧ current.timestamp < l.expiresAt.timestamp) ∧
    (∀ jobs : List WrittenJob, ∃ next : Option WrittenJob,
      nextQueuedColumns (jobs.map WrittenJob.columns) = next.map WrittenJob.columns ∧
        nextQueued (jobs.map WrittenJob.record) = next.map WrittenJob.record) ∧
    ∀ (threshold : UtcTime) (heartbeats : List WrittenHeartbeat),
      workerAvailableColumns (iso threshold) (heartbeats.map WrittenHeartbeat.columns) =
        workerAvailable threshold.timestamp (heartbeats.map WrittenHeartbeat.heartbeat) := by
  refine ⟨fun t u ↦ iso_le_iff, fun current leases ↦ ⟨_, dropExpiredColumns_written current leases,
    dropExpired_written current leases, fun l ↦ ?_⟩, fun jobs ↦ ⟨_, nextQueuedColumns_written jobs,
    nextQueued_written jobs⟩, workerAvailableColumns_written⟩
  simp

example :
    (⟨sampleDay, 0, 0, by decide⟩ : Datetime).isoMicroseconds =
      "2026-01-01T00:00:00.000000+00:00" := by decide

end AgenticSecurity.Jobs
