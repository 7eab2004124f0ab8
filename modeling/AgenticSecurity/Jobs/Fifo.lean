import AgenticSecurity.Jobs.Retries
import AgenticSecurity.Library.Fifo
import Mathlib.Data.Prod.Lex

namespace AgenticSecurity.Jobs

open Library

/-- The queued jobs in the order in which `claim_next` would start them. -/
def JobStore.waiting (store : JobStore) : List JobRecord :=
  (store.jobs.filter fun j ↦ j.status = .queued).insertionSort queueOrder

/-- The queue that the table stands for. -/
def JobStore.line (store : JobStore) : List String := store.waiting.map JobRecord.jobId

def createdOrder (a b : JobRecord) : Prop :=
  a.createdAt < b.createdAt ∨ a.createdAt = b.createdAt ∧ a.jobId ≤ b.jobId

instance : DecidableRel createdOrder := fun a b ↦ by unfold createdOrder; infer_instance

def JobStore.requeued (store : JobStore) (current : Timestamp) (maxRetries : ℕ) : List JobRecord :=
  (store.interrupted (dropExpired current store.pipelineLeases)).filter
    fun j ↦ j.retryCount < maxRetries

/-- The reading of the clock that becomes `queued_at` of what a call puts into the queue. -/
def JobOp.queuedAt : JobOp → Option Timestamp
  | .enqueue createdAt _ _ _ _ => some createdAt
  | .recoverInterrupted current _ => some current
  | .claimNext _ _ | .finish _ _ _ _ _ => none

/-- What a call does at the two ends of the queue. -/
def JobOp.queueEvents (store : JobStore) : JobOp → List (Fifo.Event String)
  | .enqueue createdAt jobId jobType requestedBy key =>
    match store.enqueue createdAt jobId jobType requestedBy key with
    | .ok (_, job, false) => [.arrive job.jobId]
    | .ok (_, _, true) | .error _ => []
  | .recoverInterrupted current maxRetries =>
    (((store.requeued current maxRetries).insertionSort createdOrder).map JobRecord.jobId).map
      .arrive
  | .claimNext current leaseSeconds =>
    ((JobOp.claimNext current leaseSeconds).claims store).toList.map .serve
  | .finish _ _ _ _ _ => []

theorem queueOrder_iff {a b : JobRecord} :
    queueOrder a b ↔ toLex (a.queuedAt, toLex (a.createdAt, a.jobId)) ≤
      toLex (b.queuedAt, toLex (b.createdAt, b.jobId)) := by
  simp only [queueOrder, Prod.Lex.toLex_le_toLex]

theorem createdOrder_iff {a b : JobRecord} :
    createdOrder a b ↔ toLex (a.createdAt, a.jobId) ≤ toLex (b.createdAt, b.jobId) := by
  simp only [createdOrder, Prod.Lex.toLex_le_toLex]

instance : Std.Total queueOrder :=
  ⟨fun a b ↦ by simpa only [queueOrder_iff] using le_total _ _⟩

instance : IsTrans JobRecord queueOrder :=
  ⟨fun a b c ↦ by simpa only [queueOrder_iff] using le_trans⟩

instance : Std.Total createdOrder :=
  ⟨fun a b ↦ by simpa only [createdOrder_iff] using le_total _ _⟩

instance : IsTrans JobRecord createdOrder :=
  ⟨fun a b c ↦ by simpa only [createdOrder_iff] using le_trans⟩

theorem queueOrder_of_lt {a b : JobRecord} (h : a.queuedAt < b.queuedAt) : queueOrder a b := .inl h

theorem jobId_eq_of_queueOrder {a b : JobRecord} (h : queueOrder a b) (h' : queueOrder b a) :
    a.jobId = b.jobId := by
  rw [queueOrder_iff] at h h'
  have hkey := toLex.injective (le_antisymm h h')
  exact (Prod.mk.inj (toLex.injective (Prod.mk.inj hkey).2)).2

theorem mem_waiting {store : JobStore} {j : JobRecord} :
    j ∈ store.waiting ↔ j ∈ store.jobs ∧ j.status = .queued := by
  simp [JobStore.waiting]

theorem waiting_sorted (store : JobStore) : store.waiting.Pairwise queueOrder :=
  List.pairwise_insertionSort queueOrder _

theorem waiting_perm (store : JobStore) :
    store.waiting.Perm (store.jobs.filter fun j ↦ j.status = .queued) :=
  List.perm_insertionSort queueOrder _

theorem waiting_eq {store : JobStore} (hids : (store.jobs.map JobRecord.jobId).Nodup)
    {rows : List JobRecord} (hperm : rows.Perm (store.jobs.filter fun j ↦ j.status = .queued))
    (hsorted : rows.Pairwise queueOrder) :
    store.waiting = rows := by
  refine insertionSort_eq hperm hsorted fun a ha b hb hab hba ↦ ?_
  exact Table.eq_of_key hids (List.mem_of_mem_filter ha) (List.mem_of_mem_filter hb)
    (jobId_eq_of_queueOrder hab hba)

theorem waiting_enqueue {store store' : JobStore} {job : JobRecord}
    (hids : (store'.jobs.map JobRecord.jobId).Nodup) (hjobs : store'.jobs = store.jobs ++ [job])
    (hqueued : job.status = .queued) (hlater : ∀ j ∈ store.waiting, j.queuedAt < job.queuedAt) :
    store'.waiting = store.waiting ++ [job] := by
  have hfilter : store'.jobs.filter (fun j ↦ j.status = .queued) =
      (store.jobs.filter fun j ↦ j.status = .queued) ++ [job] := by
    rw [hjobs, List.filter_append, List.filter_cons_of_pos (by simpa using hqueued),
      List.filter_nil]
  apply waiting_eq hids
  · rw [hfilter]
    exact (waiting_perm store).append_right [job]
  · rw [List.pairwise_append]
    refine ⟨waiting_sorted store, List.pairwise_singleton _ _, fun a ha b hb ↦ ?_⟩
    rw [List.mem_singleton.mp hb]
    exact queueOrder_of_lt (hlater a ha)

theorem requeued_eq {store : JobStore} {current : Timestamp} {maxRetries : ℕ} :
    store.requeued current maxRetries = store.jobs.filter fun j ↦
      (j.status = .running ∧
        some j.jobId ≠ (activeLease (dropExpired current store.pipelineLeases)).map
          PipelineLease.holderId) ∧
      j.retryCount < maxRetries := by
  rw [JobStore.requeued, JobStore.interrupted, List.filter_filter, List.filter_filter]
  refine List.filter_congr fun j _ ↦ ?_
  simp only [ne_eq, decide_not, Bool.decide_and]
  grind

theorem recoverRow_queued {current : Timestamp} {maxRetries : ℕ} {holder : Option String}
    {j : JobRecord} (h : j.status = .queued) : recoverRow current maxRetries holder j = j := by
  simp [recoverRow, recoverUpdate, h]

theorem recoverRow_requeued {current : Timestamp} {maxRetries : ℕ} {holder : Option String}
    {j : JobRecord} (h : j.status ≠ .queued) :
    (recoverRow current maxRetries holder j).status = .queued ↔
      (j.status = .running ∧ some j.jobId ≠ holder) ∧ j.retryCount < maxRetries := by
  unfold recoverRow recoverUpdate
  split_ifs with hheld hrun hretry <;> simp_all

theorem recoverRow_queuedAt {current : Timestamp} {maxRetries : ℕ} {holder : Option String}
    {j : JobRecord} (h : (j.status = .running ∧ some j.jobId ≠ holder) ∧
      j.retryCount < maxRetries) :
    (recoverRow current maxRetries holder j).queuedAt = current ∧
      (recoverRow current maxRetries holder j).createdAt = j.createdAt := by
  simp [recoverRow, recoverUpdate, h.1.1, h.1.2, h.2]

theorem line_recoverInterrupted {store : JobStore} (hids : (store.jobs.map JobRecord.jobId).Nodup)
    {current : Timestamp} {maxRetries : ℕ} (hlater : ∀ j ∈ store.waiting, j.queuedAt < current) :
    (store.recoverInterrupted current maxRetries).1.line =
      store.line ++ ((store.requeued current maxRetries).insertionSort createdOrder).map
        JobRecord.jobId := by
  let holder := (activeLease (dropExpired current store.pipelineLeases)).map PipelineLease.holderId
  let change := recoverRow current maxRetries holder
  let rows := (store.requeued current maxRetries).insertionSort createdOrder
  have hjobs : (store.recoverInterrupted current maxRetries).1.jobs = store.jobs.map change :=
    recoverInterrupted_jobs hids current maxRetries
  have hid :
      ∀ j : JobRecord, (change j).jobId = j.jobId := fun j ↦ (recoverRow_evolves _ _ _ j).jobId
  have hrows : ∀ j ∈ rows, (change j).queuedAt = current ∧ (change j).createdAt = j.createdAt := by
    intro j hj
    have hmem := (List.mem_insertionSort createdOrder).mp hj
    rw [requeued_eq, List.mem_filter] at hmem
    exact recoverRow_queuedAt (of_decide_eq_true hmem.2)
  have hwaiting : (store.recoverInterrupted current maxRetries).1.waiting = store.waiting ++
      rows.map change := by
    apply waiting_eq
    · rw [hjobs, List.map_map]
      exact (congrArg List.Nodup (List.map_congr_left fun j _ ↦ hid j)).mpr hids
    · rw [hjobs]
      refine List.Perm.trans ?_
        (filter_map_perm (q := fun j ↦ (j.status = .running ∧ some j.jobId ≠ holder) ∧
        j.retryCount < maxRetries) (fun j hj ↦ recoverRow_queued (of_decide_eq_true hj)) ?_ ?_).symm
      · rw [← requeued_eq]
        exact (waiting_perm store).append ((List.perm_insertionSort createdOrder _).map change)
      · intro j hj
        simp [of_decide_eq_true hj]
      · intro j _ hj
        exact decide_eq_decide.mpr (recoverRow_requeued (of_decide_eq_false hj))
    · rw [List.pairwise_append]
      refine ⟨waiting_sorted store, ?_, fun a ha b hb ↦ ?_⟩
      · rw [List.pairwise_map]
        refine (List.pairwise_insertionSort createdOrder _).imp_of_mem
          fun {a b} ha hb hab ↦ .inr ⟨?_, ?_⟩
        · rw [(hrows a ha).1, (hrows b hb).1]
        · rw [(hrows a ha).2, (hrows b hb).2, hid, hid]
          exact hab
      · obtain ⟨j, hj, rfl⟩ := List.mem_map.mp hb
        exact queueOrder_of_lt ((hrows j hj).1.symm ▸ hlater a ha)
  rw [JobStore.line, hwaiting, List.map_append, List.map_map]
  exact congrArg (store.line ++ ·) (List.map_congr_left fun j _ ↦ hid j)

theorem filter_updateWhere_queued {jobs : List JobRecord} {p : JobRecord → Bool}
    {f : JobRecord → JobRecord} (hf : ∀ j, (f j).status ≠ .queued) :
    (Table.updateWhere p f jobs).filter (fun j ↦ j.status = .queued) =
      (jobs.filter fun j ↦ j.status = .queued).filter fun j ↦ !p j := by
  induction jobs with
  | nil => rfl
  | cons j jobs ih =>
    rw [Table.updateWhere] at ih
    rw [Table.updateWhere, List.map_cons, List.filter_filter]
    rw [List.filter_filter] at ih
    cases hp : p j <;> by_cases hq : j.status = .queued <;> simp [hp, hq, hf, ih]

theorem waiting_of_head {store : JobStore} {row : JobRecord} {rest : List JobRecord}
    (hids : (store.jobs.map JobRecord.jobId).Nodup) (hwaiting : store.waiting = row :: rest)
    (current : Timestamp) (leases : List PipelineLease) :
    ({ jobs := Table.updateWhere (fun j ↦ j.jobId = row.jobId ∧ j.status = .queued)
          (claimUpdate current) store.jobs,
       pipelineLeases := leases } : JobStore).waiting = rest := by
  have hperm := waiting_perm store
  rw [hwaiting] at hperm
  have hnodup : ((row :: rest).map JobRecord.jobId).Nodup :=
    (hperm.map JobRecord.jobId).nodup_iff.mpr (hids.sublist (List.filter_sublist.map _))
  rw [List.map_cons, List.nodup_cons] at hnodup
  have hqueued : ∀ j ∈ row :: rest, j.status = .queued := fun j hj ↦
    (mem_waiting.mp (hwaiting ▸ hj)).2
  apply waiting_eq
  · exact (updateWhere_ids (claimUpdate current) (fun _ ↦ rfl) _ _).symm ▸ hids
  · rw [filter_updateWhere_queued fun j ↦ by simp [claimUpdate]]
    refine List.Perm.trans (List.Perm.of_eq ?_) (hperm.filter _)
    rw [List.filter_cons_of_neg (by simp [hqueued row List.mem_cons_self])]
    refine (List.filter_eq_self.mpr fun j hj ↦ ?_).symm
    have hne : j.jobId ≠ row.jobId := fun he ↦ hnodup.1 (he ▸ List.mem_map_of_mem hj)
    simp [hne]
  · exact (List.pairwise_cons.mp (hwaiting ▸ waiting_sorted store)).2

theorem exec_claimNext {store : JobStore} (hids : (store.jobs.map JobRecord.jobId).Nodup)
    (current : Timestamp) (leaseSeconds : ℤ) :
    Runs.exec Fifo.step store.line ((JobOp.claimNext current leaseSeconds).queueEvents store) =
      some (store.claimNext current leaseSeconds).1.line := by
  cases ha : activeLease (dropExpired current store.pipelineLeases) with
  | some l =>
    simp only [JobOp.queueEvents, JobOp.claims, JobStore.claimNext, ha]
    rfl
  | none =>
    have hnext : nextQueued store.jobs = store.waiting.head? := rfl
    cases hw : store.waiting with
    | nil =>
      rw [hw, List.head?_nil] at hnext
      simp only [JobOp.queueEvents, JobOp.claims, JobStore.claimNext, ha, hnext]
      rfl
    | cons row rest =>
      rw [hw, List.head?_cons] at hnext
      obtain ⟨hrow, hqueued⟩ := mem_waiting.mp (hw ▸ List.mem_cons_self : row ∈ store.waiting)
      have hnodup : ((Table.updateWhere (fun j ↦ j.jobId = row.jobId ∧ j.status = .queued)
          (claimUpdate current) store.jobs).map JobRecord.jobId).Nodup :=
        (updateWhere_ids (claimUpdate current) (fun _ ↦ rfl) _ _).symm ▸ hids
      have hstarted : claimUpdate current row ∈ Table.updateWhere
          (fun j ↦ j.jobId = row.jobId ∧ j.status = .queued) (claimUpdate current) store.jobs :=
        Table.mem_updateWhere.mpr ⟨row, hrow, by simp [hqueued]⟩
      have hfind := Table.find_key hnodup hstarted
      have hclaims : (JobOp.claimNext current leaseSeconds).claims store = some row.jobId := by
        simp only [JobOp.claims, JobStore.claimNext, ha, hnext]
        exact congrArg (Option.map JobRecord.jobId) hfind
      have hafter : (store.claimNext current leaseSeconds).1.waiting = rest := by
        simp only [JobStore.claimNext, ha, hnext]
        exact waiting_of_head hids hw current _
      rw [JobOp.queueEvents, hclaims, JobStore.line, JobStore.line, hw, hafter]
      exact Fifo.exec_serve row.jobId (rest.map JobRecord.jobId)

theorem finish_waiting {store store' : JobStore} {finishedAt : Timestamp} {jobId : String}
    {status : JobStatus} {failureCategory : Option FailureCategory} {message : Option String}
    {record : Option JobRecord}
    (h : store.finish finishedAt jobId status failureCategory message = .ok (store', record)) :
    store'.waiting = store.waiting := by
  obtain ⟨hterm, -, rfl⟩ := finish_cases h
  have hended :
      ∀ j, (finishUpdate finishedAt status failureCategory message j).status ≠ .queued := by
    intro j he
    have hstatus : status = .queued := he
    rw [hstatus] at hterm
    cases hterm
  rw [JobStore.waiting, filter_updateWhere_queued hended]
  refine congrArg (List.insertionSort queueOrder) ?_
  refine List.filter_eq_self.mpr fun j hj ↦ ?_
  simp [of_decide_eq_true (List.mem_filter.mp hj).2]

theorem exec_queueEvents {store : JobStore} (hids : (store.jobs.map JobRecord.jobId).Nodup)
    {op : JobOp} (hlater : ∀ reading ∈ op.queuedAt, ∀ j ∈ store.waiting, j.queuedAt < reading) :
    Runs.exec Fifo.step store.line (op.queueEvents store) =
      some (Runs.attempt JobOp.apply store op).line := by
  cases op with
  | enqueue createdAt jobId jobType requestedBy key =>
    cases he : store.enqueue createdAt jobId jobType requestedBy key with
    | error e =>
      have ha : (JobOp.enqueue createdAt jobId jobType requestedBy key).apply store = .error e := by
        simp only [JobOp.apply, he, Except.map]
      simp only [JobOp.queueEvents, he, Runs.attempt_error ha]
      rfl
    | ok result =>
      obtain ⟨store', job, replay⟩ := result
      have ha : (JobOp.enqueue createdAt jobId jobType requestedBy key).apply store =
          .ok store' := by
        simp only [JobOp.apply, he, Except.map]
      rw [Runs.attempt_ok ha]
      rcases enqueue_cases he with ⟨rfl, rfl, -⟩ | ⟨rfl, -, hfresh, hjob, hstore⟩
      · simp only [JobOp.queueEvents, he]
        rfl
      · have hwaiting : store'.waiting = store.waiting ++ [job] := by
          apply waiting_enqueue
          · rw [hstore]
            exact Table.nodup_append_singleton hids (by rw [hjob]; exact hfresh)
          · rw [hstore]
          · rw [hjob]
          · rw [hjob]
            exact hlater createdAt rfl
        simp only [JobOp.queueEvents, he, JobStore.line, hwaiting, List.map_append]
        exact Fifo.exec_arrive (store.waiting.map JobRecord.jobId) [job.jobId]
  | recoverInterrupted current maxRetries =>
    have ha : (JobOp.recoverInterrupted current maxRetries).apply store =
      .ok (store.recoverInterrupted current maxRetries).1 := rfl
    rw [Runs.attempt_ok ha, line_recoverInterrupted hids (hlater current rfl)]
    exact Fifo.exec_arrive _ _
  | claimNext current leaseSeconds =>
    have ha : (JobOp.claimNext current leaseSeconds).apply store =
      .ok (store.claimNext current leaseSeconds).1 := rfl
    rw [Runs.attempt_ok ha]
    exact exec_claimNext hids current leaseSeconds
  | finish finishedAt jobId status failureCategory message =>
    cases ha : (JobOp.finish finishedAt jobId status failureCategory message).apply store with
    | error e =>
      rw [Runs.attempt_error ha]
      rfl
    | ok store' =>
      obtain ⟨⟨s, record⟩, hf, rfl⟩ := Runs.except_map_ok.mp ha
      rw [Runs.attempt_ok ha, JobStore.line, JobStore.line, finish_waiting hf]
      rfl

theorem ids_attempts (ops : List JobOp) :
    ((Runs.attempts JobOp.apply {} ops).jobs.map JobRecord.jobId).Nodup := by
  apply Runs.attempts_invariant fun store : JobStore ↦ (store.jobs.map JobRecord.jobId).Nodup
  · exact List.nodup_nil
  · intro store op store' _ hids ha
    obtain ⟨m, hm⟩ : ∃ m, op.RetriesUpTo m := by
      cases op with
      | recoverInterrupted current maxRetries => exact ⟨maxRetries, rfl⟩
      | _ => exact ⟨0, trivial⟩
    obtain ⟨change, added, hrows⟩ := apply_rowSteps hids hm ha
    exact hrows.nodup hids

theorem updateWhere_queuedAt {jobs : List JobRecord} {p : JobRecord → Bool}
    {f : JobRecord → JobRecord} (hf : ∀ j, (f j).queuedAt = j.queuedAt) {j' : JobRecord}
    (h : j' ∈ Table.updateWhere p f jobs) :
    ∃ j ∈ jobs, j.queuedAt = j'.queuedAt := by
  obtain ⟨j, hj, rfl⟩ := Table.mem_updateWhere.mp h
  refine ⟨j, hj, ?_⟩
  split_ifs
  · exact (hf j).symm
  · rfl

theorem apply_queuedAt {store store' : JobStore} (hids : (store.jobs.map JobRecord.jobId).Nodup)
    {op : JobOp} (ha : op.apply store = .ok store') {j' : JobRecord} (hj' : j' ∈ store'.jobs) :
    (∃ j ∈ store.jobs, j.queuedAt = j'.queuedAt) ∨ j'.queuedAt ∈ op.queuedAt := by
  cases op with
  | enqueue createdAt jobId jobType requestedBy key =>
    obtain ⟨⟨s, job, replay⟩, he, rfl⟩ := Runs.except_map_ok.mp ha
    rcases enqueue_cases he with ⟨-, rfl, -⟩ | ⟨-, -, -, hjob, rfl⟩
    · exact .inl ⟨j', hj', rfl⟩
    · rcases List.mem_append.mp hj' with hold | hnew
      · exact .inl ⟨j', hold, rfl⟩
      · right
        rw [List.mem_singleton.mp hnew, hjob]
        rfl
  | recoverInterrupted current maxRetries =>
    obtain rfl := Except.ok.inj ha
    rw [recoverInterrupted_jobs hids, List.mem_map] at hj'
    obtain ⟨j, hj, rfl⟩ := hj'
    unfold recoverRow recoverUpdate
    split_ifs
    · exact .inl ⟨j, hj, rfl⟩
    · exact .inl ⟨j, hj, rfl⟩
    · exact .inr rfl
    · exact .inl ⟨j, hj, rfl⟩
  | claimNext current leaseSeconds =>
    obtain rfl := Except.ok.inj ha
    rcases claimNext_cases store current leaseSeconds with ⟨-, he⟩ | ⟨row, -, -, -, -, he⟩
    · rw [he] at hj'
      exact .inl ⟨j', hj', rfl⟩
    · rw [he] at hj'
      exact .inl (updateWhere_queuedAt (f := claimUpdate current) (fun _ ↦ rfl) hj')
  | finish finishedAt jobId status failureCategory message =>
    obtain ⟨⟨s, record⟩, hf, rfl⟩ := Runs.except_map_ok.mp ha
    obtain ⟨-, -, rfl⟩ := finish_cases hf
    exact .inl (updateWhere_queuedAt (f := finishUpdate finishedAt status failureCategory message)
      (fun _ ↦ rfl) hj')

theorem queuedAt_attempts (ops : List JobOp) :
    ∀ j ∈ (Runs.attempts JobOp.apply {} ops).jobs, j.queuedAt ∈ ops.filterMap JobOp.queuedAt := by
  induction ops using List.reverseRecOn with
  | nil =>
    intro j hj
    cases hj
  | append_singleton ops op ih =>
    intro j' hj'
    rw [Runs.attempts_snoc] at hj'
    rw [List.filterMap_append, List.mem_append]
    cases ha : op.apply (Runs.attempts JobOp.apply {} ops) with
    | error e =>
      rw [Runs.attempt_error ha] at hj'
      exact .inl (ih j' hj')
    | ok store' =>
      rw [Runs.attempt_ok ha] at hj'
      rcases apply_queuedAt (ids_attempts ops) ha hj' with ⟨j, hj, hsame⟩ | hreading
      · exact .inl (hsame ▸ ih j hj)
      · exact .inr (List.mem_filterMap.mpr ⟨op, List.mem_singleton_self op, hreading⟩)

/-- From every store that can be reached, over every sequence of calls whose readings of the clock
follow each other, the table refines a queue: jobs are claimed exactly in the order in which
they were put into it. -/
theorem claims_in_order (ops more : List JobOp)
    (hclock : ((ops ++ more).filterMap JobOp.queuedAt).Pairwise (· < ·)) :
    let store := Runs.attempts JobOp.apply {} ops
    let store' := Runs.attempts JobOp.apply store more
    let events := Runs.emitted JobOp.apply JobOp.queueEvents store more
    Runs.exec Fifo.step store.line events = some store'.line ∧
      store.line ++ Fifo.arrivals events = Fifo.services events ++ store'.line := by
  intro store store' events
  have hexec : Runs.exec Fifo.step store.line events = some store'.line := by
    apply Runs.exec_emitted JobStore.line
    intro pre op hpre
    have hbefore : Runs.attempts JobOp.apply store pre =
        Runs.attempts JobOp.apply {} (ops ++ pre) :=
      (Runs.attempts_append JobOp.apply {} ops pre).symm
    rw [hbefore]
    apply exec_queueEvents (ids_attempts _)
    intro reading hreading j hj
    -- the reading of this call comes after those of all calls before it
    obtain ⟨rest, hmore⟩ := hpre
    rw [← hmore, ← List.append_assoc, ← List.append_assoc, List.append_assoc (ops ++ pre),
      List.filterMap_append, List.pairwise_append] at hclock
    refine hclock.2.2 j.queuedAt (queuedAt_attempts _ j (mem_waiting.mp hj).1) reading ?_
    exact List.mem_filterMap.mpr ⟨op,
      List.mem_append_left rest (List.mem_singleton_self op), hreading⟩
  exact ⟨hexec, Fifo.arrivals_eq_services hexec⟩

theorem claims_in_order_interruptedRun :
    let events := Runs.emitted JobOp.apply JobOp.queueEvents {} interruptedRun
    Fifo.arrivals events = Fifo.services events ++
      (Runs.attempts JobOp.apply {} interruptedRun).line :=
  (claims_in_order [] interruptedRun (by decide)).2

end AgenticSecurity.Jobs
