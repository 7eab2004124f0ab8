import AgenticSecurity.Jobs.Store

namespace AgenticSecurity.Jobs

open Library

/-- The columns that a status leaves empty and those that it fills. -/
def JobRecord.StatusFields (j : JobRecord) : Prop :=
  match j.status with
  | .queued => j.startedAt = none ∧ j.finishedAt = none ∧ j.failureCategory = none
  | .running => j.startedAt ≠ none ∧ j.finishedAt = none ∧ j.failureCategory = none
  | .succeeded | .cancelled => j.startedAt ≠ none ∧ j.finishedAt ≠ none ∧ j.failureCategory = none
  | .failed => j.startedAt ≠ none ∧ j.finishedAt ≠ none ∧ j.failureCategory ≠ none

structure JobStore.Inv (store : JobStore) : Prop where
  ids : (store.jobs.map JobRecord.jobId).Nodup
  names : (store.pipelineLeases.map PipelineLease.name).Nodup
  named : ∀ l ∈ store.pipelineLeases, l.name = pipelineLease
  holder : ∀ l ∈ store.pipelineLeases, ∃ j ∈ store.jobs, j.jobId = l.holderId ∧ j.status = .running
  fields : ∀ j ∈ store.jobs, j.StatusFields

/-- What a row keeps for as long as the store exists; a finished row keeps everything. -/
structure JobRecord.Evolves (j j' : JobRecord) : Prop where
  jobId : j'.jobId = j.jobId
  jobType : j'.jobType = j.jobType
  requestedBy : j'.requestedBy = j.requestedBy
  idempotencyKey : j'.idempotencyKey = j.idempotencyKey
  createdAt : j'.createdAt = j.createdAt
  absorbing : j.status.terminal → j' = j

theorem JobRecord.Evolves.refl (j : JobRecord) : j.Evolves j :=
  ⟨rfl, rfl, rfl, rfl, rfl, fun _ ↦ rfl⟩

theorem JobRecord.Evolves.trans {a b c : JobRecord} (h : a.Evolves b) (h' : b.Evolves c) :
    a.Evolves c where
  jobId := h'.jobId.trans h.jobId
  jobType := h'.jobType.trans h.jobType
  requestedBy := h'.requestedBy.trans h.requestedBy
  idempotencyKey := h'.idempotencyKey.trans h.idempotencyKey
  createdAt := h'.createdAt.trans h.createdAt
  absorbing ha := by
    obtain rfl := h.absorbing ha
    exact h'.absorbing ha

/-- No row disappears, and each row that stays evolves. -/
def JobStore.Extends (store store' : JobStore) : Prop :=
  ∀ j ∈ store.jobs, ∃ j' ∈ store'.jobs, j.Evolves j'

theorem JobStore.Extends.refl (store : JobStore) : store.Extends store :=
  fun j hj ↦ ⟨j, hj, .refl j⟩

theorem JobStore.Extends.trans {a b c : JobStore} (h : a.Extends b) (h' : b.Extends c) :
    a.Extends c := by
  intro j hj
  obtain ⟨k, hk, hjk⟩ := h j hj
  obtain ⟨l, hl, hkl⟩ := h' k hk
  exact ⟨l, hl, hjk.trans hkl⟩

theorem extends_map {store store' : JobStore} {f : JobRecord → JobRecord}
    (hjobs : store'.jobs = store.jobs.map f) (hf : ∀ j : JobRecord, j.Evolves (f j)) :
    store.Extends store' :=
  fun j hj ↦ ⟨f j, hjobs ▸ List.mem_map_of_mem hj, hf j⟩

theorem mem_dropExpired {current : Timestamp} {leases : List PipelineLease} {l : PipelineLease} :
    l ∈ dropExpired current leases ↔ l ∈ leases ∧ current < l.expiresAt := by
  simp [dropExpired]

theorem activeLease_eq_none {leases : List PipelineLease}
    (h : ∀ l ∈ leases, l.name = pipelineLease) :
    activeLease leases = none ↔ leases = [] := by
  constructor
  · intro hnone
    refine List.eq_nil_iff_forall_not_mem.mpr fun l hl ↦ ?_
    exact List.find?_eq_none.mp hnone l hl (by simpa using h l hl)
  · rintro rfl
    rfl

/-- The row that the recovery loop writes in the place of `j`. -/
def recoverRow (current : Timestamp) (maxRetries : ℕ) (holder : Option String) (j : JobRecord) :
    JobRecord :=
  if some j.jobId = holder then j else recoverUpdate current maxRetries j j

theorem recoverUpdate_jobId (current : Timestamp) (maxRetries : ℕ) (seen j : JobRecord) :
    (recoverUpdate current maxRetries seen j).jobId = j.jobId := by
  unfold recoverUpdate
  split_ifs <;> rfl

theorem recoverInterrupted_leases (store : JobStore) (current : Timestamp) (maxRetries : ℕ) :
    (store.recoverInterrupted current maxRetries).1.pipelineLeases =
      dropExpired current store.pipelineLeases := rfl

theorem recoverInterrupted_jobs {store : JobStore} (hids : (store.jobs.map JobRecord.jobId).Nodup)
    (current : Timestamp) (maxRetries : ℕ) :
    (store.recoverInterrupted current maxRetries).1.jobs =
      store.jobs.map (recoverRow current maxRetries
        ((activeLease (dropExpired current store.pipelineLeases)).map PipelineLease.holderId)) := by
  let leases := dropExpired current store.pipelineLeases
  have hsub : (store.interrupted leases).Sublist store.jobs :=
    List.filter_sublist.trans List.filter_sublist
  have hnodup : ((store.interrupted leases).map JobRecord.jobId).Nodup := hids.sublist (hsub.map _)
  refine (Table.foldl_update _ (recoverUpdate_jobId current maxRetries) hnodup _).trans ?_
  refine List.map_congr_left fun j hj ↦ ?_
  by_cases hmem : j ∈ store.interrupted leases
  · have hskip : some j.jobId ≠ (activeLease leases).map PipelineLease.holderId := by
      simpa using (List.mem_filter.mp hmem).2
    rw [Table.find_key hnodup hmem, recoverRow, if_neg hskip]
    rfl
  · have hnone : (store.interrupted leases).find? (fun t ↦ t.jobId = j.jobId) = none := by
      refine List.find?_eq_none.mpr fun t ht he ↦ hmem ?_
      exact Table.eq_of_key hids (hsub.subset ht) hj (of_decide_eq_true he) ▸ ht
    rw [hnone, recoverRow]
    split_ifs with hskip
    · rfl
    · have hrun : j.status ≠ .running := by
        intro hrun
        exact hmem (List.mem_filter.mpr ⟨List.mem_filter.mpr ⟨hj, by simpa using hrun⟩,
          by simpa using hskip⟩)
      simp [recoverUpdate, hrun]

theorem mem_nextQueued {jobs : List JobRecord} {row : JobRecord} (h : nextQueued jobs = some row) :
    row ∈ jobs ∧ row.status = .queued := by
  have hmem := List.mem_of_mem_head? h
  rw [List.mem_insertionSort, List.mem_filter] at hmem
  exact ⟨hmem.1, by simpa using hmem.2⟩

theorem nextQueued_eq_none {jobs : List JobRecord} :
    nextQueued jobs = none ↔ ∀ j ∈ jobs, j.status ≠ .queued := by
  rw [nextQueued, List.head?_eq_none_iff, ← List.length_eq_zero_iff, List.length_insertionSort,
    List.length_eq_zero_iff, List.filter_eq_nil_iff]
  simp

/-- The lease that a claim of the job `jobId` adds. -/
def claimLease (current : Timestamp) (leaseSeconds : ℤ) (jobId : String) : PipelineLease :=
  { name := pipelineLease, holderId := jobId, acquiredAt := current,
    expiresAt := current + leaseSeconds * 1000000 }

theorem claimNext_cases (store : JobStore) (current : Timestamp) (leaseSeconds : ℤ) :
    (((activeLease (dropExpired current store.pipelineLeases)).isSome ∨
        ∀ j ∈ store.jobs, j.status ≠ .queued) ∧
      store.claimNext current leaseSeconds =
        ({ store with pipelineLeases := dropExpired current store.pipelineLeases }, none)) ∨
    ∃ row ∈ store.jobs, row.status = .queued ∧
      activeLease (dropExpired current store.pipelineLeases) = none ∧
      (store.claimNext current leaseSeconds).2 =
        (store.claimNext current leaseSeconds).1.byId row.jobId ∧
      (store.claimNext current leaseSeconds).1 =
        { jobs := Table.updateWhere (fun j ↦ j.jobId = row.jobId ∧ j.status = .queued)
            (claimUpdate current) store.jobs,
          pipelineLeases := dropExpired current store.pipelineLeases ++
            [claimLease current leaseSeconds row.jobId] } := by
  cases ha : activeLease (dropExpired current store.pipelineLeases) with
  | some l => exact .inl ⟨.inl rfl, by simp only [JobStore.claimNext, ha]⟩
  | none =>
    cases hq : nextQueued store.jobs with
    | none =>
      exact .inl ⟨.inr (nextQueued_eq_none.mp hq), by simp only [JobStore.claimNext, ha, hq]⟩
    | some row =>
      obtain ⟨hrow, hs⟩ := mem_nextQueued hq
      exact .inr ⟨row, hrow, hs, rfl, by simp only [JobStore.claimNext, ha, hq],
        by simp only [JobStore.claimNext, ha, hq, claimLease]⟩

theorem finish_cases {store store' : JobStore} {finishedAt : Timestamp} {jobId : String}
    {status : JobStatus} {failureCategory : Option FailureCategory} {message : Option String}
    {record : Option JobRecord}
    (h : store.finish finishedAt jobId status failureCategory message = .ok (store', record)) :
    status.terminal ∧ (∃ j ∈ store.jobs, j.jobId = jobId ∧ j.status = .running) ∧
    store' =
      { jobs := Table.updateWhere (fun j ↦ j.jobId = jobId ∧ j.status = .running)
          (finishUpdate finishedAt status failureCategory message) store.jobs,
        pipelineLeases := store.pipelineLeases.filter fun l ↦
          ¬ (l.name = pipelineLease ∧ l.holderId = jobId) } := by
  unfold JobStore.finish at h
  split_ifs at h with hterm
  dsimp only at h
  split_ifs at h with hcount
  obtain ⟨rfl, -⟩ := Prod.mk.inj (Except.ok.inj h)
  have hone := not_not.mp hcount
  obtain ⟨j, hj⟩ := List.exists_mem_of_length_pos (hone ▸ Nat.one_pos)
  obtain ⟨hj, hp⟩ := List.mem_filter.mp hj
  exact ⟨hterm, ⟨j, hj, of_decide_eq_true hp⟩, rfl⟩

theorem enqueue_cases {store store' : JobStore} {createdAt : Timestamp} {jobId : String}
    {jobType : JobType} {requestedBy key : String} {job : JobRecord} {replay : Bool}
    (h : store.enqueue createdAt jobId jobType requestedBy key = .ok (store', job, replay)) :
    (replay = true ∧ store' = store ∧ store.byKey key = some job ∧
      job.jobType = jobType ∧ job.requestedBy = requestedBy) ∨
    (replay = false ∧ store.byKey key = none ∧ jobId ∉ store.jobs.map JobRecord.jobId ∧
      job = { jobId, jobType, requestedBy, idempotencyKey := key, createdAt, queuedAt := createdAt,
              updatedAt := createdAt, status := .queued, retryCount := 0 } ∧
      store' = { store with jobs := store.jobs ++ [job] }) := by
  unfold JobStore.enqueue at h
  cases hk : store.byKey key with
  | some existing =>
    simp only [hk, validateIdempotentReplay] at h
    split_ifs at h with hdiff
    · cases h
    · obtain ⟨rfl, rfl, rfl⟩ : store = store' ∧ existing = job ∧ true = replay := by
        simpa [bind, Except.bind, pure, Except.pure] using h
      rw [not_or, not_not, not_not] at hdiff
      exact .inl ⟨rfl, rfl, rfl, hdiff⟩
  | none =>
    simp only [hk] at h
    split at h
    · rename_i jobs hi
      obtain ⟨hfresh, rfl⟩ := Table.insert_eq_some.mp hi
      obtain ⟨rfl, rfl, rfl⟩ : _ = store' ∧ _ = job ∧ false = replay := by simpa using h
      exact .inr ⟨rfl, rfl, hfresh, rfl, rfl⟩
    · cases h

theorem mem_activeLease {store : JobStore} (h : store.Inv) {leases : List PipelineLease}
    (hsub : leases.Sublist store.pipelineLeases) {l : PipelineLease} (hl : l ∈ leases) :
    activeLease leases = some l := by
  have hname := h.named l (hsub.subset hl)
  have hnodup : (leases.map PipelineLease.name).Nodup := h.names.sublist (hsub.map _)
  have hfind := Table.find_key hnodup hl
  rwa [hname] at hfind

theorem dropExpired_sublist (current : Timestamp) (leases : List PipelineLease) :
    (dropExpired current leases).Sublist leases := List.filter_sublist

theorem recoverUpdate_fields {current : Timestamp} {maxRetries : ℕ} {seen j : JobRecord}
    (h : j.StatusFields) : (recoverUpdate current maxRetries seen j).StatusFields := by
  unfold recoverUpdate
  split_ifs with hrun hretry
  · exact h
  · rw [not_not] at hrun
    simp only [JobRecord.StatusFields, hrun] at h ⊢
    exact ⟨trivial, h.2.1, trivial⟩
  · rw [not_not] at hrun
    simp only [JobRecord.StatusFields, hrun] at h ⊢
    exact ⟨h.1, Option.some_ne_none _, Option.some_ne_none _⟩

theorem recoverRow_fields {current : Timestamp} {maxRetries : ℕ} {holder : Option String}
    {j : JobRecord} (h : j.StatusFields) :
    (recoverRow current maxRetries holder j).StatusFields := by
  unfold recoverRow
  split_ifs
  · exact h
  · exact recoverUpdate_fields h

theorem recoverRow_evolves (current : Timestamp) (maxRetries : ℕ) (holder : Option String)
    (j : JobRecord) : j.Evolves (recoverRow current maxRetries holder j) := by
  unfold recoverRow recoverUpdate
  split_ifs with hheld hrun
  · exact .refl j
  · exact .refl j
  all_goals
    refine ⟨rfl, rfl, rfl, rfl, rfl, fun ht ↦ ?_⟩
    rw [not_not.mp hrun] at ht
    cases ht

theorem updateWhere_ids (f : JobRecord → JobRecord) (hf : ∀ j, (f j).jobId = j.jobId)
    (p : JobRecord → Bool) (jobs : List JobRecord) :
    (Table.updateWhere p f jobs).map JobRecord.jobId = jobs.map JobRecord.jobId :=
  Table.updateWhere_keys hf jobs

theorem updateWhere_running_evolves {p : JobRecord → Bool} {f : JobRecord → JobRecord}
    (hp : ∀ j, p j = true → j.status.terminal = false)
    (hf : ∀ j : JobRecord, j.status.terminal = false → j.Evolves (f j)) (j : JobRecord) :
    j.Evolves (if p j then f j else j) := by
  split_ifs with h
  · exact hf j (hp j h)
  · exact .refl j

theorem Inv_recoverInterrupted {store : JobStore} (h : store.Inv) (current : Timestamp)
    (maxRetries : ℕ) : (store.recoverInterrupted current maxRetries).1.Inv := by
  have hjobs := recoverInterrupted_jobs h.ids current maxRetries
  have hleases := recoverInterrupted_leases store current maxRetries
  have hsub := dropExpired_sublist current store.pipelineLeases
  refine ⟨?_, ?_, ?_, ?_, ?_⟩
  · rw [hjobs, List.map_map]
    refine (congrArg List.Nodup (List.map_congr_left fun j _ ↦ ?_)).mpr h.ids
    exact (recoverRow_evolves current maxRetries _ j).jobId
  · exact h.names.sublist (hsub.map _)
  · exact fun l hl ↦ h.named l (hsub.subset hl)
  · intro l hl
    rw [hleases] at hl
    obtain ⟨j, hj, hid, hrun⟩ := h.holder l (hsub.subset hl)
    have hkept : recoverRow current maxRetries
        ((activeLease (dropExpired current store.pipelineLeases)).map PipelineLease.holderId) j =
        j := by
      rw [mem_activeLease h hsub hl, Option.map_some, hid.symm, recoverRow, if_pos rfl]
    exact ⟨j, hjobs ▸ List.mem_map.mpr ⟨j, hj, hkept⟩, hid, hrun⟩
  · intro j hj
    rw [hjobs, List.mem_map] at hj
    obtain ⟨i, hi, rfl⟩ := hj
    exact recoverRow_fields (h.fields i hi)

theorem Inv_dropExpired {store : JobStore} (h : store.Inv) (current : Timestamp) :
    { store with pipelineLeases := dropExpired current store.pipelineLeases : JobStore }.Inv := by
  have hsub := dropExpired_sublist current store.pipelineLeases
  exact ⟨h.ids, h.names.sublist (hsub.map _), fun l hl ↦ h.named l (hsub.subset hl),
    fun l hl ↦ h.holder l (hsub.subset hl), h.fields⟩

theorem Inv_claimNext {store : JobStore} (h : store.Inv) (current : Timestamp)
    (leaseSeconds : ℤ) : (store.claimNext current leaseSeconds).1.Inv := by
  rcases claimNext_cases store current leaseSeconds with ⟨-, he⟩ | ⟨row, hrow, hs, hnone, -, he⟩
  · rw [he]
    exact Inv_dropExpired h current
  rw [he]
  -- no lease outlives the expiry test, so the new one is the only row
  have hnil : dropExpired current store.pipelineLeases = [] :=
    (activeLease_eq_none (Inv_dropExpired h current).named).mp hnone
  rw [hnil, List.nil_append]
  refine ⟨?_, List.nodup_singleton _, ?_, ?_, ?_⟩
  · exact (updateWhere_ids (claimUpdate current) (fun _ ↦ rfl) _ _).symm ▸ h.ids
  · intro l hl
    rw [List.mem_singleton.mp hl]
    rfl
  · intro l hl
    rw [List.mem_singleton.mp hl]
    exact ⟨claimUpdate current row, Table.mem_updateWhere.mpr ⟨row, hrow, by simp [hs]⟩, rfl, rfl⟩
  · intro j hj
    obtain ⟨i, hi, rfl⟩ := Table.mem_updateWhere.mp hj
    split_ifs with hp
    · have hq := h.fields i hi
      simp only [JobRecord.StatusFields, (of_decide_eq_true hp).2] at hq
      exact ⟨Option.some_ne_none _, hq.2⟩
    · exact h.fields i hi

/-- The worker gives a failure category exactly when it records a failure. -/
def JobOp.AsRunOnce : JobOp → Prop
  | .finish _ _ status failureCategory _ => failureCategory.isSome ↔ status = .failed
  | _ => True

theorem finishUpdate_fields {finishedAt : Timestamp} {status : JobStatus}
    {failureCategory : Option FailureCategory} {message : Option String} {j : JobRecord}
    (hterm : status.terminal) (hcat : failureCategory.isSome ↔ status = .failed)
    (hrun : j.status = .running) (h : j.StatusFields) :
    (finishUpdate finishedAt status failureCategory message j).StatusFields := by
  simp only [JobRecord.StatusFields, hrun] at h
  cases status with
  | queued | running => cases hterm
  | succeeded | cancelled =>
    refine ⟨h.1, Option.some_ne_none _, ?_⟩
    simpa [finishUpdate] using hcat
  | failed =>
    refine ⟨h.1, Option.some_ne_none _, ?_⟩
    simpa [finishUpdate, Option.isSome_iff_ne_none] using hcat

theorem Inv_finish {store store' : JobStore} (h : store.Inv) {finishedAt : Timestamp}
    {jobId : String} {status : JobStatus} {failureCategory : Option FailureCategory}
    {message : Option String} {record : Option JobRecord}
    (hcat : failureCategory.isSome ↔ status = .failed)
    (hf : store.finish finishedAt jobId status failureCategory message = .ok (store', record)) :
    store'.Inv := by
  obtain ⟨hterm, -, rfl⟩ := finish_cases hf
  refine ⟨?_, ?_, ?_, ?_, ?_⟩
  · exact (updateWhere_ids (finishUpdate finishedAt status failureCategory message)
      (fun _ ↦ rfl) _ _).symm ▸ h.ids
  · exact h.names.sublist (List.filter_sublist.map _)
  · exact fun l hl ↦ h.named l (List.filter_sublist.subset hl)
  · intro l hl
    obtain ⟨hl, hother⟩ := List.mem_filter.mp hl
    obtain ⟨j, hj, hid, hrun⟩ := h.holder l hl
    have hne : j.jobId ≠ jobId := by
      intro he
      simp [h.named l hl, hid.symm.trans he] at hother
    exact ⟨j, Table.mem_updateWhere.mpr ⟨j, hj, by simp [hne]⟩, hid, hrun⟩
  · intro j hj
    obtain ⟨i, hi, rfl⟩ := Table.mem_updateWhere.mp hj
    split_ifs with hp
    · exact finishUpdate_fields hterm hcat (of_decide_eq_true hp).2 (h.fields i hi)
    · exact h.fields i hi

theorem Inv_enqueue {store store' : JobStore} (h : store.Inv) {createdAt : Timestamp}
    {jobId : String} {jobType : JobType} {requestedBy key : String} {job : JobRecord}
    {replay : Bool}
    (he : store.enqueue createdAt jobId jobType requestedBy key = .ok (store', job, replay)) :
    store'.Inv := by
  rcases enqueue_cases he with ⟨-, rfl, -⟩ | ⟨-, -, hfresh, rfl, rfl⟩
  · exact h
  · refine ⟨Table.nodup_append_singleton h.ids hfresh, h.names, h.named, ?_, ?_⟩
    · intro l hl
      obtain ⟨j, hj, hjl⟩ := h.holder l hl
      exact ⟨j, List.mem_append_left _ hj, hjl⟩
    · intro j hj
      rcases List.mem_append.mp hj with hj | hj
      · exact h.fields j hj
      · rw [List.mem_singleton.mp hj]
        exact ⟨rfl, rfl, rfl⟩

theorem Inv_apply {store store' : JobStore} (h : store.Inv) {op : JobOp} (hop : op.AsRunOnce)
    (ha : op.apply store = .ok store') : store'.Inv := by
  cases op with
  | enqueue createdAt jobId jobType requestedBy key =>
    obtain ⟨⟨s, job, replay⟩, he, rfl⟩ := Runs.except_map_ok.mp ha
    exact Inv_enqueue h he
  | recoverInterrupted current maxRetries =>
    obtain rfl := Except.ok.inj ha
    exact Inv_recoverInterrupted h current maxRetries
  | claimNext current leaseSeconds =>
    obtain rfl := Except.ok.inj ha
    exact Inv_claimNext h current leaseSeconds
  | finish finishedAt jobId status failureCategory message =>
    obtain ⟨⟨s, record⟩, hf, rfl⟩ := Runs.except_map_ok.mp ha
    exact Inv_finish h hop hf

theorem extends_apply {store store' : JobStore} (h : store.Inv) {op : JobOp}
    (ha : op.apply store = .ok store') : store.Extends store' := by
  cases op with
  | enqueue createdAt jobId jobType requestedBy key =>
    obtain ⟨⟨s, job, replay⟩, he, rfl⟩ := Runs.except_map_ok.mp ha
    rcases enqueue_cases he with ⟨-, rfl, -⟩ | ⟨-, -, -, -, rfl⟩
    · exact .refl _
    · exact fun j hj ↦ ⟨j, List.mem_append_left _ hj, .refl j⟩
  | recoverInterrupted current maxRetries =>
    obtain rfl := Except.ok.inj ha
    exact extends_map (recoverInterrupted_jobs h.ids current maxRetries)
      (recoverRow_evolves current maxRetries _)
  | claimNext current leaseSeconds =>
    obtain rfl := Except.ok.inj ha
    rcases claimNext_cases store current leaseSeconds with ⟨-, he⟩ | ⟨row, -, -, -, -, he⟩
    · rw [he]
      exact fun j hj ↦ ⟨j, hj, .refl j⟩
    · rw [he]
      refine extends_map rfl (updateWhere_running_evolves (fun j hp ↦ ?_) fun j ht ↦ ?_)
      · rw [(of_decide_eq_true hp).2]
        rfl
      · exact ⟨rfl, rfl, rfl, rfl, rfl, fun h ↦ by simp [ht] at h⟩
  | finish finishedAt jobId status failureCategory message =>
    obtain ⟨⟨s, record⟩, hf, rfl⟩ := Runs.except_map_ok.mp ha
    obtain ⟨-, -, rfl⟩ := finish_cases hf
    refine extends_map rfl (updateWhere_running_evolves (fun j hp ↦ ?_) fun j ht ↦ ?_)
    · rw [(of_decide_eq_true hp).2]
      rfl
    · exact ⟨rfl, rfl, rfl, rfl, rfl, fun h ↦ by simp [ht] at h⟩

theorem Inv_empty : ({} : JobStore).Inv :=
  ⟨List.nodup_nil, List.nodup_nil, by simp, by simp, by simp⟩

theorem Inv_attempts {store : JobStore} (h : store.Inv) {ops : List JobOp}
    (hops : ∀ op ∈ ops, op.AsRunOnce) : (Runs.attempts JobOp.apply store ops).Inv :=
  Runs.attempts_invariant JobStore.Inv h fun _ _ _ hop hs ha ↦ Inv_apply hs (hops _ hop) ha

theorem extends_attempts {store : JobStore} (h : store.Inv) {ops : List JobOp}
    (hops : ∀ op ∈ ops, op.AsRunOnce) : store.Extends (Runs.attempts JobOp.apply store ops) := by
  have hrel : store.Inv →
      (Runs.attempts JobOp.apply store ops).Inv ∧
      store.Extends (Runs.attempts JobOp.apply store ops) :=
    Runs.attempts_relation (fun s t ↦ s.Inv → t.Inv ∧ s.Extends t) (fun s hs ↦ ⟨hs, .refl s⟩)
    (fun hst htu hs ↦ ⟨(htu (hst hs).1).1, (hst hs).2.trans (htu (hst hs).1).2⟩)
    fun s op t hop ha hs ↦ ⟨Inv_apply hs (hops op hop) ha, extends_apply hs ha⟩
  exact (hrel h).2

theorem pipelineLease_rows {store : JobStore} (h : store.Inv) :
    (store.pipelineLeases.filter fun l ↦ l.name = pipelineLease).length ≤ 1 := by
  have hall : store.pipelineLeases.map PipelineLease.name =
      List.replicate store.pipelineLeases.length pipelineLease := by
    refine List.eq_replicate_iff.mpr ⟨List.length_map _, fun n hn ↦ ?_⟩
    obtain ⟨l, hl, rfl⟩ := List.mem_map.mp hn
    exact h.named l hl
  exact (List.length_filter_le _ _).trans (List.nodup_replicate.mp (hall ▸ h.names))

/-- The state machine of the job store, over every sequence of calls from an
empty store: the lease, the columns of each status, and what no later call changes. -/
theorem job_store_invariant (ops : List JobOp) (hops : ∀ op ∈ ops, op.AsRunOnce) :
    let store := Runs.attempts JobOp.apply {} ops
    (store.pipelineLeases.filter fun l ↦ l.name = pipelineLease).length ≤ 1 ∧
    (∀ l ∈ store.pipelineLeases, l.name = pipelineLease →
      ∃ j ∈ store.jobs, j.jobId = l.holderId ∧ j.status = .running) ∧
    (∀ j ∈ store.jobs, j.StatusFields) ∧
    (store.jobs.map JobRecord.jobId).Nodup ∧
    ∀ more : List JobOp, (∀ op ∈ more, op.AsRunOnce) →
      store.Extends (Runs.attempts JobOp.apply store more) := by
  intro store
  have h : store.Inv := Inv_attempts Inv_empty hops
  exact ⟨pipelineLease_rows h, fun l hl _ ↦ h.holder l hl, h.fields, h.ids,
    fun more hmore ↦ extends_attempts h hmore⟩

def interruptedRun : List JobOp :=
  [.enqueue 0 "a" .daily "api" "k1", .enqueue 1 "b" .collect "api" "k2", .claimNext 2 30,
    .recoverInterrupted 40000000 1, .claimNext 40000001 30,
    .finish 40000002 "b" .failed (some .internalError) none]

theorem job_store_invariant_interruptedRun :
    (∀ op ∈ interruptedRun, op.AsRunOnce) ∧
    ∀ j ∈ (Runs.attempts JobOp.apply {} interruptedRun).jobs, j.StatusFields :=
  have hops : ∀ op ∈ interruptedRun, op.AsRunOnce := by
    simp [interruptedRun, JobOp.AsRunOnce]
  ⟨hops, (job_store_invariant interruptedRun hops).2.2.1⟩

end AgenticSecurity.Jobs
