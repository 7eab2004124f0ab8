import AgenticSecurity.Jobs.Fifo
import AgenticSecurity.Jobs.Timestamps

namespace AgenticSecurity.Jobs

open Library

/-- `ORDER BY created_at DESC,job_id DESC`. -/
def listOrder (a b : JobRecord) : Prop :=
  b.createdAt < a.createdAt ∨ b.createdAt = a.createdAt ∧ b.jobId ≤ a.jobId

instance : DecidableRel listOrder := fun a b ↦ by unfold listOrder; infer_instance

def JobStore.list (store : JobStore) (status : Option JobStatus) (limit : ℕ) : List JobRecord :=
  match status with
  | none => (store.jobs.insertionSort listOrder).take limit
  | some status =>
    ((store.jobs.filter fun j ↦ j.status = status).insertionSort listOrder).take limit

/-- `COUNT(*) ... GROUP BY status` over zeros for every status. -/
def JobStore.queueCounts (store : JobStore) (status : JobStatus) : ℕ :=
  store.jobs.countP fun j ↦ j.status = status

/-- `ORDER BY finished_at DESC,job_id DESC`; a missing time sorts last. -/
def finishOrder (a b : JobRecord) : Prop :=
  match a.finishedAt, b.finishedAt with
  | some _, none => True
  | none, some _ => False
  | none, none => b.jobId ≤ a.jobId
  | some s, some t => t < s ∨ t = s ∧ b.jobId ≤ a.jobId

instance : DecidableRel finishOrder := fun a b ↦ by unfold finishOrder; split <;> infer_instance

/-- `WHERE status=?`, and `AND job_type=?` where a type is given. -/
def succeededWith (jobType : Option JobType) (j : JobRecord) : Bool :=
  j.status = .succeeded && jobType.all fun t ↦ j.jobType = t

def JobStore.successful (store : JobStore) (jobType : Option JobType) : List JobRecord :=
  (store.jobs.filter (succeededWith jobType)).insertionSort finishOrder

def JobStore.latestSuccessful (store : JobStore) (jobType : Option JobType) : Option JobRecord :=
  (store.successful jobType).head?

theorem listOrder_iff {a b : JobRecord} :
    listOrder a b ↔ toLex (b.createdAt, b.jobId) ≤ toLex (a.createdAt, a.jobId) := by
  simp only [listOrder, Prod.Lex.toLex_le_toLex]

def finishKey (j : JobRecord) : Lex (ℕ × Lex (Timestamp × String)) :=
  toLex (j.finishedAt.isSome.toNat, toLex (j.finishedAt.getD 0, j.jobId))

theorem finishOrder_iff {a b : JobRecord} : finishOrder a b ↔ finishKey b ≤ finishKey a := by
  rw [finishKey, finishKey, Prod.Lex.toLex_le_toLex, Prod.Lex.toLex_le_toLex]
  unfold finishOrder
  cases a.finishedAt with
  | none =>
    cases b.finishedAt with
    | none => simp
    | some t => simp
  | some s =>
    cases b.finishedAt with
    | none => simp
    | some t => simp

instance : Std.Total listOrder :=
  ⟨fun a b ↦ by simpa only [listOrder_iff] using le_total _ _⟩

instance : IsTrans JobRecord listOrder :=
  ⟨fun _ _ _ hab hbc ↦ listOrder_iff.mpr ((listOrder_iff.mp hbc).trans (listOrder_iff.mp hab))⟩

instance : Std.Total finishOrder :=
  ⟨fun a b ↦ by simpa only [finishOrder_iff] using le_total _ _⟩

instance : IsTrans JobRecord finishOrder :=
  ⟨fun _ _ _ hab hbc ↦ finishOrder_iff.mpr ((finishOrder_iff.mp hbc).trans
    (finishOrder_iff.mp hab))⟩

theorem listOrder_antisymm {store : JobStore} (hids : (store.jobs.map JobRecord.jobId).Nodup) :
    ∀ a ∈ store.jobs, ∀ b ∈ store.jobs, listOrder a b → listOrder b a → a = b := by
  intro a ha b hb hab hba
  rw [listOrder_iff] at hab hba
  exact Table.eq_of_key hids ha hb (Prod.mk.inj (toLex.injective (le_antisymm hba hab))).2

theorem finishOrder_antisymm {store : JobStore} (hids : (store.jobs.map JobRecord.jobId).Nodup) :
    ∀ a ∈ store.jobs, ∀ b ∈ store.jobs, finishOrder a b → finishOrder b a → a = b := by
  intro a ha b hb hab hba
  rw [finishOrder_iff] at hab hba
  have hkey := (Prod.mk.inj (toLex.injective (le_antisymm hba hab))).2
  exact Table.eq_of_key hids ha hb (Prod.mk.inj (toLex.injective hkey)).2

theorem list_all (store : JobStore) :
    store.list none store.jobs.length = store.jobs.insertionSort listOrder :=
  List.take_of_length_le (List.length_insertionSort listOrder _).le

theorem list_status {store : JobStore} (hids : (store.jobs.map JobRecord.jobId).Nodup)
    (status : JobStatus) (limit : ℕ) : store.list (some status) limit =
      ((store.list none store.jobs.length).filter fun j ↦ j.status = status).take limit := by
  rw [list_all, filter_insertionSort (listOrder_antisymm hids)]
  rfl

theorem queueCounts_eq (store : JobStore) (status : JobStatus) :
    store.queueCounts status =
      ((store.list none store.jobs.length).filter fun j ↦ j.status = status).length := by
  rw [list_all, ← List.countP_eq_length_filter]
  exact ((List.perm_insertionSort listOrder store.jobs).countP_eq _).symm

theorem queueCounts_sum (store : JobStore) :
    store.queueCounts .queued + store.queueCounts .running + store.queueCounts .succeeded +
      store.queueCounts .failed + store.queueCounts .cancelled = store.jobs.length := by
  simp only [JobStore.queueCounts]
  induction store.jobs with
  | nil => rfl
  | cons j jobs ih =>
    simp only [List.countP_cons, List.length_cons]
    cases j.status <;> simp <;> omega

theorem activeJob_isSome (store : JobStore) :
    store.activeJob.isSome ↔ 0 < store.queueCounts .running := by
  rw [JobStore.activeJob, JobStore.queueCounts, List.countP_eq_length_filter, List.isSome_head?,
    ← List.length_pos_iff, List.length_insertionSort]

theorem successful_type {store : JobStore} (hids : (store.jobs.map JobRecord.jobId).Nodup)
    (jobType : JobType) :
    store.successful (some jobType) =
      (store.successful none).filter fun j ↦ j.jobType = jobType := by
  rw [JobStore.successful, JobStore.successful, filter_insertionSort, List.filter_filter]
  · refine congrArg _ (List.filter_congr fun j _ ↦ ?_)
    simp [succeededWith, Bool.and_comm]
  · exact fun a ha b hb ↦ finishOrder_antisymm hids a (List.mem_of_mem_filter ha) b
      (List.mem_of_mem_filter hb)

theorem latestSuccessful_type {store : JobStore} (hids : (store.jobs.map JobRecord.jobId).Nodup)
    {j : JobRecord} (h : store.latestSuccessful none = some j) :
    store.latestSuccessful (some j.jobType) = some j := by
  obtain ⟨rest, hrest⟩ := List.head?_eq_some_iff.mp h
  rw [JobStore.latestSuccessful, successful_type hids, hrest, List.filter_cons_of_pos (by simp)]
  rfl

theorem latestSuccessful_newest {store : JobStore} (hids : (store.jobs.map JobRecord.jobId).Nodup)
    {jobType : JobType} {k : JobRecord} (h : store.latestSuccessful (some jobType) = some k) :
    ∃ j, store.latestSuccessful none = some j ∧ finishOrder j k := by
  have hk := List.mem_of_mem_head? h
  rw [successful_type hids, List.mem_filter] at hk
  have hsorted : (store.successful none).Pairwise finishOrder :=
    List.pairwise_insertionSort finishOrder _
  cases hall : store.successful none with
  | nil =>
    rw [hall] at hk
    cases hk.1
  | cons j rest =>
    refine ⟨j, congrArg List.head? hall, ?_⟩
    rw [hall] at hk hsorted
    rcases List.mem_cons.mp hk.1 with rfl | hrest
    · exact Std.Refl.refl k
    · exact (List.pairwise_cons.mp hsorted).1 k hrest

/-- In every store that can be reached, what the read endpoints show fits together: a page is the
start of the listing, a listing by status is that part of the whole, the counts are its lengths
and add up, a job is active where one is counted as running, and the latest success is the newest
of the latest ones of each type. -/
theorem reads_agree (ops : List JobOp) :
    let store := Runs.attempts JobOp.apply {} ops
    let all := store.list none store.jobs.length
    (∀ limit, store.list none limit = all.take limit) ∧
    (∀ status limit, store.list (some status) limit =
      (all.filter fun j ↦ j.status = status).take limit) ∧
    (∀ status, store.queueCounts status = (all.filter fun j ↦ j.status = status).length) ∧
    store.queueCounts .queued + store.queueCounts .running + store.queueCounts .succeeded +
      store.queueCounts .failed + store.queueCounts .cancelled = all.length ∧
    (store.activeJob.isSome ↔ 0 < store.queueCounts .running) ∧
    ((store.latestSuccessful none).isSome ↔ 0 < store.queueCounts .succeeded) ∧
    (∀ j, store.latestSuccessful none = some j → store.latestSuccessful (some j.jobType) = some j) ∧
    ∀ jobType k, store.latestSuccessful (some jobType) = some k →
      ∃ j, store.latestSuccessful none = some j ∧ finishOrder j k := by
  intro store all
  have hids : (store.jobs.map JobRecord.jobId).Nodup := ids_attempts ops
  have hall : all = store.jobs.insertionSort listOrder := list_all store
  refine ⟨fun limit ↦ by rw [hall]; rfl, list_status hids, queueCounts_eq store, ?_,
    activeJob_isSome store, ?_,
    fun _ ↦ latestSuccessful_type hids, fun _ _ ↦ latestSuccessful_newest hids⟩
  · rw [queueCounts_sum, hall, List.length_insertionSort]
  · have hsame : store.jobs.filter (succeededWith none) =
        store.jobs.filter fun j ↦ j.status = .succeeded :=
      List.filter_congr fun j _ ↦ Bool.and_true _
    rw [JobStore.latestSuccessful, List.isSome_head?, ← List.length_pos_iff, JobStore.successful,
      List.length_insertionSort, JobStore.queueCounts, List.countP_eq_length_filter, hsame]

def mixedRun : List JobOp :=
  [.enqueue 1 "job-1" .collect "operator" "collect-1",
    .enqueue 2 "job-2" .daily "operator" "daily-1", .claimNext 4 3600,
    .finish 5 "job-1" .succeeded none none]

theorem reads_agree_mixedRun :
    let store := Runs.attempts JobOp.apply {} mixedRun
    (store.list none 1).map JobRecord.jobId = ["job-2"] ∧
    (store.latestSuccessful none).isSome = true ∧
      ∃ j, store.latestSuccessful none = some j ∧
        store.latestSuccessful (some .collect) = some j := by
  intro store
  obtain ⟨hpage, -, -, -, -, hsome, htype, -⟩ := reads_agree mixedRun
  refine ⟨?_, hsome.mpr (by decide), ?_⟩
  · rw [hpage]
    decide
  · obtain ⟨j, hj⟩ := Option.isSome_iff_exists.mp (hsome.mpr (by decide))
    have hcollect : j.jobType = .collect := by
      have hshown : (store.latestSuccessful none).map JobRecord.jobType = some .collect := by decide
      rw [hj] at hshown
      exact Option.some.inj hshown
    exact ⟨j, hj, hcollect ▸ htype j hj⟩

/-- A job of the type is recorded as succeeded by the call. -/
def JobOp.succeeds (jobType : Option JobType) (store : JobStore) : JobOp → List String
  | .finish finishedAt jobId status failureCategory message =>
    match store.finish finishedAt jobId status failureCategory message with
    | .ok (_, some record) => if succeededWith jobType record then [record.jobId] else []
    | _ => []
  | _ => []

def JobOp.succeededAt (store : JobStore) : JobOp → List Timestamp
  | .finish finishedAt jobId .succeeded failureCategory message =>
    match store.finish finishedAt jobId .succeeded failureCategory message with
    | .ok _ => [finishedAt]
    | .error _ => []
  | _ => []

/-- The readings of the clock that the accepted calls record successes with. -/
def successReadings (ops : List JobOp) : List Timestamp :=
  Runs.emitted JobOp.apply JobOp.succeededAt {} ops

theorem successReadings_snoc (ops : List JobOp) (op : JobOp) :
    successReadings (ops ++ [op]) = successReadings ops ++
      op.succeededAt (Runs.attempts JobOp.apply {} ops) :=
  Runs.emitted_snoc _ _ _ _ _

theorem recoverRow_succeeded (jobType : Option JobType) (current : Timestamp) (maxRetries : ℕ)
    (holder : Option String) (j : JobRecord) :
    (succeededWith jobType j = true → recoverRow current maxRetries holder j = j) ∧
      (succeededWith jobType j = false →
        succeededWith jobType (recoverRow current maxRetries holder j) = false) := by
  by_cases hs : j.status = .succeeded
  · have hkept : recoverRow current maxRetries holder j = j := by
      simp [recoverRow, recoverUpdate, hs]
    exact ⟨fun _ ↦ hkept, fun h ↦ hkept.symm ▸ h⟩
  · refine ⟨fun h ↦ absurd (of_decide_eq_true (Bool.and_eq_true_iff.mp h).1) hs, fun _ ↦ ?_⟩
    unfold recoverRow recoverUpdate
    split_ifs <;> simp [succeededWith, hs]

theorem updateWhere_succeeded {jobs : List JobRecord} {p : JobRecord → Bool}
    {f : JobRecord → JobRecord} {jobType : Option JobType}
    (hp : ∀ j ∈ jobs, p j = true → succeededWith jobType j = false ∧
      succeededWith jobType (f j) = false) :
    (Table.updateWhere p f jobs).filter (succeededWith jobType) =
      jobs.filter (succeededWith jobType) := by
  apply filter_map_same
  · intro j hj hs
    rw [if_neg]
    intro hpj
    exact Bool.false_ne_true ((hp j hj hpj).1.symm.trans hs)
  · intro j hj hs
    split_ifs with hpj
    · exact (hp j hj hpj).2
    · exact hs

theorem finish_record {store store' : JobStore} (hids : (store.jobs.map JobRecord.jobId).Nodup)
    {finishedAt : Timestamp} {jobId : String} {status : JobStatus}
    {failureCategory : Option FailureCategory}
    {message : Option String} {record : Option JobRecord}
    (h : store.finish finishedAt jobId status failureCategory message = .ok (store', record)) :
    ∃ row ∈ store.jobs, row.jobId = jobId ∧ row.status = .running ∧
      record = some (finishUpdate finishedAt status failureCategory message row) := by
  obtain ⟨-, ⟨row, hrow, hid, hrunning⟩, hstore⟩ := finish_cases h
  have hrecord : record = store'.byId jobId := by
    unfold JobStore.finish at h
    split_ifs at h
    dsimp only at h
    split_ifs at h
    obtain ⟨rfl, rfl⟩ := Prod.mk.inj (Except.ok.inj h)
    rfl
  have hmem : finishUpdate finishedAt status failureCategory message row ∈ store'.jobs := by
    rw [hstore]
    exact Table.mem_updateWhere.mpr ⟨row, hrow, if_pos (decide_eq_true ⟨hid, hrunning⟩)⟩
  have hnodup : (store'.jobs.map JobRecord.jobId).Nodup := by
    rw [hstore]
    exact (updateWhere_ids (finishUpdate finishedAt status failureCategory message)
      (fun _ ↦ rfl) _ _).symm ▸ hids
  refine ⟨row, hrow, hid, hrunning, hrecord.trans ?_⟩
  rw [← hid]
  exact Table.find_key hnodup hmem

theorem successful_same {store store' : JobStore} (hids : (store.jobs.map JobRecord.jobId).Nodup)
    {op : JobOp} {jobType : Option JobType} (ha : op.apply store = .ok store')
    (hnone : op.succeeds jobType store = []) :
    store'.successful jobType = store.successful jobType := by
  refine congrArg (List.insertionSort finishOrder) ?_
  cases op with
  | enqueue createdAt jobId type requestedBy key =>
    obtain ⟨⟨s, job, replay⟩, he, rfl⟩ := Runs.except_map_ok.mp ha
    rcases enqueue_cases he with ⟨-, rfl, -⟩ | ⟨-, -, -, hjob, rfl⟩
    · rfl
    · rw [List.filter_append, List.filter_cons_of_neg (by simp [hjob, succeededWith]),
        List.filter_nil, List.append_nil]
  | recoverInterrupted current maxRetries =>
    obtain rfl := Except.ok.inj ha
    rw [recoverInterrupted_jobs hids]
    exact filter_map_same (fun j _ ↦ (recoverRow_succeeded jobType _ _ _ j).1)
      fun j _ ↦ (recoverRow_succeeded jobType _ _ _ j).2
  | claimNext current leaseSeconds =>
    obtain rfl := Except.ok.inj ha
    rcases claimNext_cases store current leaseSeconds with ⟨-, he⟩ | ⟨row, -, -, -, -, he⟩
    · rw [he]
    · rw [he]
      apply updateWhere_succeeded
      intro j _ hp
      simp [succeededWith, (of_decide_eq_true hp).2, claimUpdate]
  | finish finishedAt jobId status failureCategory message =>
    obtain ⟨⟨s, record⟩, hf, rfl⟩ := Runs.except_map_ok.mp ha
    obtain ⟨row, hrow, hid, hrunning, rfl⟩ := finish_record hids hf
    have hfailed :
        succeededWith jobType (finishUpdate finishedAt status failureCategory message row) =
        false := by
      simp only [JobOp.succeeds, hf] at hnone
      split_ifs at hnone with hs
      exact Bool.eq_false_iff.mpr hs
    obtain ⟨-, -, rfl⟩ := finish_cases hf
    apply updateWhere_succeeded
    intro j hj hp
    obtain rfl := Table.eq_of_key hids hj hrow ((of_decide_eq_true hp).1.trans hid.symm)
    exact ⟨by simp [succeededWith, hrunning], hfailed⟩

theorem successful_cons {store store' : JobStore} (hids : (store.jobs.map JobRecord.jobId).Nodup)
    {jobType : Option JobType} {finishedAt : Timestamp} {jobId : String} {status : JobStatus}
    {failureCategory : Option FailureCategory} {message : Option String} {record : JobRecord}
    (hf : store.finish finishedAt jobId status failureCategory message = .ok (store', some record))
    (hs : succeededWith jobType record = true)
    (hlater : ∀ j ∈ store.jobs, j.status = .succeeded → ∃ t ∈ j.finishedAt, t < finishedAt) :
    store'.successful jobType = record :: store.successful jobType := by
  obtain ⟨row, hrow, hid, hrunning, hrecord⟩ := finish_record hids hf
  obtain rfl := Option.some.inj hrecord
  obtain ⟨-, -, rfl⟩ := finish_cases hf
  let change : JobRecord → JobRecord := finishUpdate finishedAt status failureCategory message
  let running : JobRecord → Bool := fun j ↦ j.jobId = jobId ∧ j.status = .running
  have hnodup : ((Table.updateWhere running change store.jobs).map JobRecord.jobId).Nodup :=
    (updateWhere_ids change (fun _ ↦ rfl) _ _).symm ▸ hids
  have hperm : ((Table.updateWhere running change store.jobs).filter (succeededWith jobType)).Perm
      (change row :: store.jobs.filter (succeededWith jobType)) := by
    have hself : running row = true := decide_eq_true ⟨hid, hrunning⟩
    have hrow_of : ∀ j ∈ store.jobs, running j = true → j = row := fun j hj hp ↦
      Table.eq_of_key hids hj hrow ((of_decide_eq_true hp).1.trans hid.symm)
    have hnot : ∀ j, running j = true → succeededWith jobType j = false := fun j hp ↦ by
      simp [succeededWith, (of_decide_eq_true hp).2]
    have hsingle : store.jobs.filter running = [row] := by
      refine List.perm_singleton.mp
        ((List.perm_ext_iff_of_nodup ?_ (List.nodup_singleton row)).mpr fun j ↦ ?_)
      · exact (List.Nodup.of_map _ hids).filter _
      · rw [List.mem_filter, List.mem_singleton]
        exact ⟨fun h ↦ hrow_of j h.1 h.2, fun h ↦ h ▸ ⟨hrow, hself⟩⟩
    refine (filter_map_perm (q := running) (fun j hp ↦ ?_) (fun j hp ↦ ?_) fun j hj hp ↦ ?_).trans
      ?_
    · rw [if_neg fun hr ↦ Bool.false_ne_true ((hnot j hr).symm.trans hp)]
    · exact Bool.eq_false_iff.mpr fun hr ↦ Bool.false_ne_true ((hnot j hr).symm.trans hp)
    · split_ifs with hr
      · rw [hr, hrow_of j hj hr]
        exact hs
      · rw [hp, Bool.eq_false_iff.mpr hr]
    · rw [hsingle, List.map_singleton, if_pos hself]
      exact List.perm_append_singleton _ _
  refine insertionSort_eq ?_ ?_ ?_
  · exact ((List.perm_insertionSort finishOrder _).cons _).trans hperm.symm
  · rw [List.pairwise_cons]
    refine ⟨fun j hj ↦ ?_, List.pairwise_insertionSort finishOrder _⟩
    obtain ⟨hj, hsucceeded⟩ := List.mem_filter.mp ((List.mem_insertionSort finishOrder).mp hj)
    obtain ⟨t, ht, hlt⟩ := hlater j hj (of_decide_eq_true (Bool.and_eq_true_iff.mp hsucceeded).1)
    unfold finishOrder
    rw [Option.mem_def.mp ht]
    exact .inl hlt
  · exact fun a ha b hb ↦ finishOrder_antisymm hnodup a (List.mem_of_mem_filter ha) b
      (List.mem_of_mem_filter hb)

theorem apply_succeededAt {store store' : JobStore} (hids : (store.jobs.map JobRecord.jobId).Nodup)
    {op : JobOp} (ha : op.apply store = .ok store') {j' : JobRecord} (hj' : j' ∈ store'.jobs)
    (hs : j'.status = .succeeded) :
    j' ∈ store.jobs ∨ ∃ t ∈ j'.finishedAt, t ∈ op.succeededAt store := by
  cases op with
  | enqueue createdAt jobId jobType requestedBy key =>
    obtain ⟨⟨s, job, replay⟩, he, rfl⟩ := Runs.except_map_ok.mp ha
    rcases enqueue_cases he with ⟨-, rfl, -⟩ | ⟨-, -, -, hjob, rfl⟩
    · exact .inl hj'
    · rcases List.mem_append.mp hj' with hold | hnew
      · exact .inl hold
      · rw [List.mem_singleton.mp hnew, hjob] at hs
        cases hs
  | recoverInterrupted current maxRetries =>
    obtain rfl := Except.ok.inj ha
    rw [recoverInterrupted_jobs hids, List.mem_map] at hj'
    obtain ⟨j, hj, rfl⟩ := hj'
    generalize Option.map PipelineLease.holderId _ = holder at hs ⊢
    by_cases hbefore : j.status = .succeeded
    · have hkept :=
        (recoverRow_succeeded none current maxRetries holder j).1 (by simp [succeededWith, hbefore])
      exact .inl (hkept.symm ▸ hj)
    · have hafter :=
        (recoverRow_succeeded none current maxRetries holder j).2 (by simp [succeededWith, hbefore])
      simp [succeededWith, hs] at hafter
  | claimNext current leaseSeconds =>
    obtain rfl := Except.ok.inj ha
    rcases claimNext_cases store current leaseSeconds with ⟨-, he⟩ | ⟨row, -, -, -, -, he⟩
    · rw [he] at hj'
      exact .inl hj'
    · rw [he] at hj'
      obtain ⟨j, hj, rfl⟩ := Table.mem_updateWhere.mp hj'
      split_ifs at hs ⊢
      · cases hs
      · exact .inl hj
  | finish finishedAt jobId status failureCategory message =>
    obtain ⟨⟨s, record⟩, hf, rfl⟩ := Runs.except_map_ok.mp ha
    obtain ⟨-, -, rfl⟩ := finish_cases hf
    obtain ⟨j, hj, rfl⟩ := Table.mem_updateWhere.mp hj'
    split_ifs at hs ⊢
    · obtain rfl : status = .succeeded := hs
      refine .inr ⟨finishedAt, rfl, ?_⟩
      rw [JobOp.succeededAt, hf]
      exact List.mem_singleton_self finishedAt
    · exact .inl hj

theorem succeededAt_attempts (ops : List JobOp) :
    ∀ j ∈ (Runs.attempts JobOp.apply {} ops).jobs, j.status = .succeeded →
      ∃ t ∈ j.finishedAt, t ∈ successReadings ops := by
  induction ops using List.reverseRecOn with
  | nil =>
    intro j hj
    cases hj
  | append_singleton ops op ih =>
    intro j hj hs
    rw [Runs.attempts_snoc] at hj
    rw [successReadings_snoc]
    have hold : j ∈ (Runs.attempts JobOp.apply {} ops).jobs →
        ∃ t ∈ j.finishedAt, t ∈ successReadings ops ++
          op.succeededAt (Runs.attempts JobOp.apply {} ops) := by
      intro hbefore
      obtain ⟨t, ht, hmem⟩ := ih j hbefore hs
      exact ⟨t, ht, List.mem_append_left _ hmem⟩
    cases ha : op.apply (Runs.attempts JobOp.apply {} ops) with
    | error e =>
      rw [Runs.attempt_error ha] at hj
      exact hold hj
    | ok store' =>
      rw [Runs.attempt_ok ha] at hj
      rcases apply_succeededAt (ids_attempts ops) ha hj hs with hbefore | ⟨t, ht, hreading⟩
      · exact hold hbefore
      · exact ⟨t, ht, List.mem_append_right _ hreading⟩

theorem successful_history (ops : List JobOp) (jobType : Option JobType)
    (hclock : (successReadings ops).Pairwise (· < ·)) :
    ((Runs.attempts JobOp.apply {} ops).successful jobType).map JobRecord.jobId =
      (Runs.emitted JobOp.apply (fun store op ↦ op.succeeds jobType store) {} ops).reverse := by
  induction ops using List.reverseRecOn with
  | nil => rfl
  | append_singleton ops op ih =>
    rw [successReadings_snoc, List.pairwise_append] at hclock
    have hrest := ih hclock.1
    rw [Runs.emitted_snoc, Runs.attempts_snoc, List.reverse_append, ← hrest]
    cases hsucceeds : op.succeeds jobType (Runs.attempts JobOp.apply {} ops) with
    | nil =>
      cases ha : op.apply (Runs.attempts JobOp.apply {} ops) with
      | error e =>
        rw [Runs.attempt_error ha]
        rfl
      | ok store' =>
        rw [Runs.attempt_ok ha, successful_same (ids_attempts ops) ha hsucceeds]
        rfl
    | cons first others =>
      obtain ⟨finishedAt, jobId, status, failureCategory, message, rfl⟩ :
          ∃ finishedAt jobId status failureCategory
          message, op = .finish finishedAt jobId status failureCategory message := by
        cases op with
        | finish finishedAt jobId status failureCategory message => exact ⟨_, _, _, _, _, rfl⟩
        | _ => cases hsucceeds
      simp only [JobOp.succeeds] at hsucceeds
      split at hsucceeds
      next store' record hf =>
        split_ifs at hsucceeds with hrecord
        obtain ⟨row, -, -, -, hwritten⟩ := finish_record (ids_attempts ops) hf
        -- the row that is returned has the status that was asked for
        obtain rfl : status = .succeeded := by
          have hs := of_decide_eq_true (Bool.and_eq_true_iff.mp hrecord).1
          rwa [Option.some.inj hwritten] at hs
        have ha : (JobOp.finish finishedAt jobId .succeeded failureCategory message).apply
            (Runs.attempts JobOp.apply {} ops) = .ok store' := by
          simp only [JobOp.apply, hf, Except.map]
        have hcons := successful_cons (ids_attempts ops) hf hrecord fun j hj hs ↦ by
          obtain ⟨t, ht, hmem⟩ := succeededAt_attempts ops j hj hs
          refine ⟨t, ht, hclock.2.2 t hmem finishedAt ?_⟩
          rw [JobOp.succeededAt, hf]
          exact List.mem_singleton_self finishedAt
        rw [Runs.attempt_ok ha, hcons, ← hsucceeds]
        rfl
      · cases hsucceeds

structure RuntimeTables where
  store : JobStore := {}
  workerHeartbeats : List WorkerHeartbeat := []

/-- `INSERT ... ON CONFLICT(worker_id) DO UPDATE SET heartbeat_at=excluded.heartbeat_at`. -/
def heartbeat (workerId : String) (startedAt heartbeatAt : Timestamp)
    (rows : List WorkerHeartbeat) :
    List WorkerHeartbeat :=
  if rows.any fun row ↦ row.workerId = workerId then
    Table.updateWhere (fun row ↦ row.workerId = workerId)
      (fun row ↦ { row with heartbeatAt := heartbeatAt }) rows
  else rows ++ [⟨workerId, startedAt, heartbeatAt⟩]

inductive RuntimeOp
  | job (op : JobOp)
  | heartbeat (workerId : String) (startedAt heartbeatAt : Timestamp)

def RuntimeOp.apply (tables : RuntimeTables) : RuntimeOp → Except JobStoreError RuntimeTables
  | .job op => (op.apply tables.store).map fun store ↦ { tables with store }
  | .heartbeat workerId startedAt heartbeatAt =>
    .ok { tables with workerHeartbeats :=
        Jobs.heartbeat workerId startedAt heartbeatAt tables.workerHeartbeats }

def RuntimeOp.jobOp : RuntimeOp → Option JobOp
  | .job op => some op
  | .heartbeat _ _ _ => none

def RuntimeOp.beat : RuntimeOp → Option WorkerHeartbeat
  | .job _ => none
  | .heartbeat workerId startedAt heartbeatAt => some ⟨workerId, startedAt, heartbeatAt⟩

theorem mem_heartbeat {workerId : String} {startedAt heartbeatAt : Timestamp}
    {rows : List WorkerHeartbeat} {row : WorkerHeartbeat}
    (h : row ∈ heartbeat workerId startedAt heartbeatAt rows) :
    row ∈ rows ∨ row.workerId = workerId ∧ row.heartbeatAt = heartbeatAt := by
  unfold heartbeat at h
  split_ifs at h
  · obtain ⟨before, hbefore, rfl⟩ := Table.mem_updateWhere.mp h
    split_ifs with hid
    · exact .inr ⟨of_decide_eq_true hid, rfl⟩
    · exact .inl hbefore
  · rcases List.mem_append.mp h with hold | hnew
    · exact .inl hold
    · obtain rfl := List.mem_singleton.mp hnew
      exact .inr ⟨rfl, rfl⟩

theorem heartbeat_mem (workerId : String) (startedAt heartbeatAt : Timestamp)
    (rows : List WorkerHeartbeat) :
    ∃ row ∈ heartbeat workerId startedAt heartbeatAt rows, row.workerId = workerId ∧
      row.heartbeatAt = heartbeatAt := by
  unfold heartbeat
  split_ifs with hany
  · obtain ⟨row, hrow, hid⟩ := List.any_eq_true.mp hany
    exact ⟨_, Table.mem_updateWhere.mpr ⟨row, hrow, if_pos hid⟩, of_decide_eq_true hid, rfl⟩
  · exact ⟨_, List.mem_append_right rows (List.mem_singleton_self _), rfl, rfl⟩

theorem heartbeat_keeps (workerId : String) (startedAt : Timestamp) {heartbeatAt : Timestamp}
    {rows : List WorkerHeartbeat} {row : WorkerHeartbeat} (h : row ∈ rows)
    (hlater : row.heartbeatAt ≤ heartbeatAt) :
    ∃ row' ∈ heartbeat workerId startedAt heartbeatAt rows, row'.workerId = row.workerId ∧
      row.heartbeatAt ≤ row'.heartbeatAt := by
  unfold heartbeat
  split_ifs
  · refine ⟨_, Table.mem_updateWhere.mpr ⟨row, h, rfl⟩, ?_⟩
    split_ifs
    · exact ⟨rfl, hlater⟩
    · exact ⟨rfl, le_rfl⟩
  · exact ⟨row, List.mem_append_left _ h, rfl, le_rfl⟩

structure Beats (ops : List RuntimeOp) (rows : List WorkerHeartbeat) : Prop where
  origin : ∀ row ∈ rows, ∃ beat ∈ ops.filterMap RuntimeOp.beat, beat.workerId = row.workerId ∧
    beat.heartbeatAt = row.heartbeatAt
  latest : ∀ beat ∈ ops.filterMap RuntimeOp.beat, ∃ row ∈ rows, row.workerId = beat.workerId ∧
    beat.heartbeatAt ≤ row.heartbeatAt

theorem beats_attempts (ops : List RuntimeOp)
    (hclock : (ops.filterMap RuntimeOp.beat).Pairwise fun a b ↦ a.heartbeatAt ≤ b.heartbeatAt) :
    Beats ops (Runs.attempts RuntimeOp.apply {} ops).workerHeartbeats := by
  induction ops using List.reverseRecOn with
  | nil => exact ⟨fun row h ↦ (by cases h), fun beat h ↦ (by cases h)⟩
  | append_singleton ops op ih =>
    rw [List.filterMap_append, List.pairwise_append] at hclock
    obtain ⟨horigin, hlatest⟩ := ih hclock.1
    rw [Runs.attempts_snoc]
    cases op with
    | job op =>
      have hsame :
          (Runs.attempt RuntimeOp.apply (Runs.attempts RuntimeOp.apply {} ops)
            (.job op)).workerHeartbeats =
          (Runs.attempts RuntimeOp.apply {} ops).workerHeartbeats := by
        rw [Runs.attempt, RuntimeOp.apply]
        cases op.apply (Runs.attempts RuntimeOp.apply {} ops).store <;> rfl
      have hbeats : (ops ++ [RuntimeOp.job op]).filterMap RuntimeOp.beat =
          ops.filterMap RuntimeOp.beat := by
        rw [List.filterMap_append]
        exact List.append_nil _
      rw [hsame]
      exact ⟨hbeats.symm ▸ horigin, hbeats.symm ▸ hlatest⟩
    | heartbeat workerId startedAt heartbeatAt =>
      let beat : WorkerHeartbeat := ⟨workerId, startedAt, heartbeatAt⟩
      have hbeats :
          (ops ++ [RuntimeOp.heartbeat workerId startedAt heartbeatAt]).filterMap RuntimeOp.beat =
          ops.filterMap RuntimeOp.beat ++ [beat] := by
        rw [List.filterMap_append]
        rfl
      refine ⟨fun row hrow ↦ ?_, fun other hother ↦ ?_⟩
      · rw [hbeats]
        rcases mem_heartbeat hrow with hold | ⟨hid, hat⟩
        · obtain ⟨earlier, hearlier, hsame⟩ := horigin row hold
          exact ⟨earlier, List.mem_append_left _ hearlier, hsame⟩
        · exact ⟨beat, List.mem_append_right _ (List.mem_singleton_self beat), hid.symm, hat.symm⟩
      · rw [hbeats] at hother
        rcases List.mem_append.mp hother with hold | hnew
        · obtain ⟨row, hrow, hid, hle⟩ := hlatest other hold
          obtain ⟨earlier, hearlier, -, hat⟩ := horigin row hrow
          -- a row holds the reading of an earlier heartbeat
          have hlater : row.heartbeatAt ≤ heartbeatAt :=
            hat ▸ hclock.2.2 earlier hearlier beat (List.mem_singleton_self beat)
          obtain ⟨row', hrow', hid', hle'⟩ := heartbeat_keeps workerId startedAt hrow hlater
          exact ⟨row', hrow', hid'.trans hid, hle.trans hle'⟩
        · obtain rfl := List.mem_singleton.mp hnew
          obtain ⟨row, hrow, hid, hat⟩ := heartbeat_mem workerId startedAt heartbeatAt
            (Runs.attempts RuntimeOp.apply {} ops).workerHeartbeats
          exact ⟨row, hrow, hid, hat.ge⟩

theorem store_attempts (ops : List RuntimeOp) :
    (Runs.attempts RuntimeOp.apply {} ops).store =
      Runs.attempts JobOp.apply {} (ops.filterMap RuntimeOp.jobOp) := by
  induction ops using List.reverseRecOn with
  | nil => rfl
  | append_singleton ops op ih =>
    rw [Runs.attempts_snoc, List.filterMap_append]
    cases op with
    | job op =>
      rw [show [RuntimeOp.job op].filterMap RuntimeOp.jobOp = [op] from rfl,
        Runs.attempts_snoc, ← ih, Runs.attempt, Runs.attempt, RuntimeOp.apply]
      cases op.apply (Runs.attempts RuntimeOp.apply {} ops).store <;> rfl
    | heartbeat workerId startedAt heartbeatAt =>
      rw [show [RuntimeOp.heartbeat workerId startedAt heartbeatAt].filterMap RuntimeOp.jobOp =
        [] from rfl, List.append_nil, ← ih]
      rfl

/-- What the status page says is what happened: the latest success of each type, and of all, is
the job whose success was recorded last, and a worker is available exactly where some worker has
sent a heartbeat since the threshold. -/
theorem status_tells_history (ops : List RuntimeOp)
    (hclock : (successReadings (ops.filterMap RuntimeOp.jobOp)).Pairwise (· < ·))
    (hbeats : (ops.filterMap RuntimeOp.beat).Pairwise fun a b ↦ a.heartbeatAt ≤ b.heartbeatAt) :
    let tables := Runs.attempts RuntimeOp.apply {} ops
    (∀ jobType, (tables.store.latestSuccessful jobType).map JobRecord.jobId =
      (Runs.emitted JobOp.apply (fun store op ↦ op.succeeds jobType store) {}
        (ops.filterMap RuntimeOp.jobOp)).getLast?) ∧
    ∀ threshold, workerAvailable threshold tables.workerHeartbeats = true ↔
      ∃ beat ∈ ops.filterMap RuntimeOp.beat, threshold ≤ beat.heartbeatAt := by
  intro tables
  refine ⟨fun jobType ↦ ?_, fun threshold ↦ ?_⟩
  · have hstore : tables.store = _ := store_attempts ops
    rw [JobStore.latestSuccessful, ← List.head?_map, hstore, successful_history _ jobType hclock,
      List.head?_reverse]
  · obtain ⟨horigin, hlatest⟩ := beats_attempts ops hbeats
    simp only [workerAvailable, List.any_eq_true, decide_eq_true_eq]
    constructor
    · rintro ⟨row, hrow, hle⟩
      obtain ⟨beat, hbeat, -, hat⟩ := horigin row hrow
      exact ⟨beat, hbeat, hat ▸ hle⟩
    · rintro ⟨beat, hbeat, hle⟩
      obtain ⟨row, hrow, -, hat⟩ := hlatest beat hbeat
      exact ⟨row, hrow, hle.trans hat⟩

def twoSuccessesRun : List RuntimeOp :=
  [.job (.enqueue 1 "job-1" .collect "operator" "collect-1"),
    .job (.enqueue 2 "job-2" .daily "operator" "daily-1"), .heartbeat "worker" 0 3,
    .job (.claimNext 4 3600), .job (.finish 5 "job-1" .succeeded none none),
    .heartbeat "worker" 0 6, .job (.claimNext 7 3600),
    .job (.finish 8 "job-2" .succeeded none none)]

theorem status_tells_history_twoSuccesses :
    let tables := Runs.attempts RuntimeOp.apply {} twoSuccessesRun
    (tables.store.latestSuccessful none).map JobRecord.jobId = some "job-2" ∧
      (tables.store.latestSuccessful (some .collect)).map JobRecord.jobId = some "job-1" ∧
      workerAvailable 5 tables.workerHeartbeats = true :=
  have h := status_tells_history twoSuccessesRun (by decide) (by decide)
  ⟨(h.1 none).trans (by decide), (h.1 (some .collect)).trans (by decide),
    (h.2 5).mpr ⟨⟨"worker", 0, 6⟩, by decide, by decide⟩⟩

end AgenticSecurity.Jobs
