import AgenticSecurity.Jobs.StoreInvariant

namespace AgenticSecurity.Jobs

open Library

def JobOp.claims (store : JobStore) : JobOp → Option String
  | .claimNext current leaseSeconds => (store.claimNext current leaseSeconds).2.map JobRecord.jobId
  | _ => none

/-- The job is put back from `RUNNING` to `QUEUED`. -/
def putBack (before after : JobStore) (jobId : String) : Bool :=
  ((before.byId jobId).any fun j ↦ j.status = .running) &&
    (after.byId jobId).any fun j ↦ j.status = .queued

/-- How often a job is claimed over a sequence of calls. -/
def claimCount (store : JobStore) (ops : List JobOp) (jobId : String) : ℕ :=
  Runs.countAttempts JobOp.apply (fun store op ↦ op.claims store = some jobId) store ops

/-- How often a job is put back over a sequence of calls. -/
def requeueCount (store : JobStore) (ops : List JobOp) (jobId : String) : ℕ :=
  Runs.countAttempts JobOp.apply
    (fun store op ↦ putBack store (Runs.attempt JobOp.apply store op) jobId) store ops

/-- Every recovery allows the same number of retries. -/
def JobOp.RetriesUpTo (m : ℕ) : JobOp → Prop
  | .recoverInterrupted _ maxRetries => maxRetries = m
  | _ => True

inductive RowStep (m : ℕ) (j j' : JobRecord) : Bool → Prop
  | kept (same : j' = j) : RowStep m j j' false
  | claimed (before : j.status = .queued) (after : j'.status = .running)
      (retries : j'.retryCount = j.retryCount) : RowStep m j j' true
  | requeued (before : j.status = .running) (after : j'.status = .queued)
      (allowed : j.retryCount < m)
      (retries : j'.retryCount = j.retryCount + 1) : RowStep m j j' false
  | ended (before : j.status = .running) (after : j'.status.terminal)
      (retries : j'.retryCount = j.retryCount) : RowStep m j j' false

structure RowSteps (m : ℕ) (store : JobStore) (op : JobOp) (store' : JobStore)
    (change : JobRecord → JobRecord) (added : List JobRecord) : Prop where
  jobs : store'.jobs = store.jobs.map change ++ added
  evolves : ∀ j : JobRecord, j.Evolves (change j)
  steps : ∀ j ∈ store.jobs, RowStep m j (change j) (op.claims store = some j.jobId)
  single : added.length ≤ 1
  fresh : ∀ j ∈ added, j.jobId ∉ store.jobs.map JobRecord.jobId ∧
    store.byKey j.idempotencyKey = none ∧
    j.status = .queued ∧ j.retryCount = 0 ∧
    op = .enqueue j.createdAt j.jobId j.jobType j.requestedBy j.idempotencyKey
  known : ∀ jobId, op.claims store = some jobId → jobId ∈ store.jobs.map JobRecord.jobId

theorem RowSteps.changes {m : ℕ} {store store' : JobStore} {op : JobOp}
    {change : JobRecord → JobRecord} (hclaims : op.claims store = none)
    (hjobs : store'.jobs = store.jobs.map change)
    (hevolves : ∀ j : JobRecord, j.Evolves (change j))
    (hsteps : ∀ j ∈ store.jobs, RowStep m j (change j) false) :
    RowSteps m store op store' change [] where
  jobs := hjobs.trans (List.append_nil _).symm
  evolves := hevolves
  steps j hj := by
    rw [hclaims]
    exact hsteps j hj
  single := Nat.zero_le 1
  fresh j hj := by cases hj
  known jobId h := by cases hclaims.symm.trans h

theorem RowSteps.same {m : ℕ} {store store' : JobStore} {op : JobOp}
    (hclaims : op.claims store = none) (hjobs : store'.jobs = store.jobs) :
    RowSteps m store op store' id [] :=
  .changes hclaims (by rw [hjobs, List.map_id]) JobRecord.Evolves.refl fun _ _ ↦ .kept rfl

theorem recoverRow_step (current : Timestamp) (m : ℕ) (holder : Option String) (j : JobRecord) :
    RowStep m j (recoverRow current m holder j) false := by
  unfold recoverRow recoverUpdate
  split_ifs with hheld hrun hretry
  · exact .kept rfl
  · exact .kept rfl
  · exact .requeued (not_not.mp hrun) rfl hretry rfl
  · exact .ended (not_not.mp hrun) rfl rfl

theorem claimNext_rowSteps {store : JobStore}
    (hids : (store.jobs.map JobRecord.jobId).Nodup) (m : ℕ) (current : Timestamp)
    (leaseSeconds : ℤ) :
    ∃ change added, RowSteps m store (.claimNext current leaseSeconds)
      (store.claimNext current leaseSeconds).1 change added := by
  rcases claimNext_cases store current leaseSeconds with ⟨-, he⟩ | ⟨row, hrow, hqueued, -,
    hclaimed, he⟩
  · have hclaims : (JobOp.claimNext current leaseSeconds).claims store = none := by
      simp only [JobOp.claims, he, Option.map_none]
    exact ⟨id, [], .same hclaims (by rw [he])⟩
  · have hjobs := congrArg JobStore.jobs he
    let change : JobRecord → JobRecord := fun j ↦
      if j.jobId = row.jobId ∧ j.status = .queued then claimUpdate current j else j
    have hchange : (store.claimNext current leaseSeconds).1.jobs = store.jobs.map change := by
      rw [hjobs]
      exact List.map_congr_left fun j _ ↦ by simp only [change, decide_eq_true_eq]
    have hevolves : ∀ j : JobRecord, j.Evolves (change j) := fun j ↦ by
      simp only [change]
      split_ifs with hj
      · exact ⟨rfl, rfl, rfl, rfl, rfl, fun hterm ↦ by simp [hj.2, JobStatus.terminal] at hterm⟩
      · exact .refl j
    have hnodup : ((store.claimNext current leaseSeconds).1.jobs.map JobRecord.jobId).Nodup := by
      rw [hchange, List.map_map]
      exact (congrArg List.Nodup (List.map_congr_left fun j _ ↦ (hevolves j).jobId)).mpr hids
    have hstarted : claimUpdate current row ∈ (store.claimNext current leaseSeconds).1.jobs := by
      rw [hchange]
      exact List.mem_map.mpr ⟨row, hrow, if_pos ⟨rfl, hqueued⟩⟩
    have hclaims : (JobOp.claimNext current leaseSeconds).claims store = some row.jobId := by
      have hfind : (store.claimNext current leaseSeconds).1.byId row.jobId =
          some (claimUpdate current row) :=
        Table.find_key hnodup hstarted
      rw [JobOp.claims, hclaimed, hfind]
      rfl
    refine ⟨change, [], hchange.trans (List.append_nil _).symm, hevolves,
      fun j hj ↦ ?_, Nat.zero_le 1, fun j hj ↦ absurd hj List.not_mem_nil, fun jobId hjobId ↦ ?_⟩
    · rw [hclaims]
      by_cases hid : row.jobId = j.jobId
      · obtain rfl := Table.eq_of_key hids hrow hj hid
        have hrowChange : change row = claimUpdate current row := if_pos ⟨rfl, hqueued⟩
        rw [hrowChange, decide_eq_true rfl]
        exact .claimed hqueued rfl rfl
      · have hkept : change j = j := if_neg fun h ↦ hid h.1.symm
        rw [hkept, decide_eq_false fun h ↦ hid (Option.some.inj h)]
        exact .kept rfl
    · obtain rfl := Option.some.inj (hclaims.symm.trans hjobId)
      exact List.mem_map_of_mem hrow

theorem finish_rowSteps {store store' : JobStore} {finishedAt : Timestamp} {jobId : String}
    {status : JobStatus} {failureCategory : Option FailureCategory} {message : Option String}
    {record : Option JobRecord} (m : ℕ)
    (h : store.finish finishedAt jobId status failureCategory message = .ok (store', record)) :
    ∃ change added,
      RowSteps m store (.finish finishedAt jobId status failureCategory message) store'
        change added := by
  obtain ⟨hterm, -, rfl⟩ := finish_cases h
  refine ⟨_, [], .changes rfl rfl (fun j ↦ ?_) fun j _ ↦ ?_⟩
  · dsimp only
    split_ifs with hrunning
    · exact ⟨rfl, rfl, rfl, rfl, rfl, fun hended ↦ by
        simp [(of_decide_eq_true hrunning).2, JobStatus.terminal] at hended⟩
    · exact .refl j
  · dsimp only
    split_ifs with hrunning
    · exact .ended (of_decide_eq_true hrunning).2 hterm rfl
    · exact .kept rfl

theorem enqueue_rowSteps {store store' : JobStore} {createdAt : Timestamp} {jobId : String}
    {jobType : JobType} {requestedBy key : String} {job : JobRecord} {replay : Bool} (m : ℕ)
    (h : store.enqueue createdAt jobId jobType requestedBy key = .ok (store', job, replay)) :
    ∃ change added,
      RowSteps m store (.enqueue createdAt jobId jobType requestedBy key) store' change added := by
  rcases enqueue_cases h with ⟨-, rfl, -⟩ | ⟨-, hkey, hfresh, rfl, rfl⟩
  · exact ⟨id, [], .same rfl rfl⟩
  · refine ⟨id, [_], by rw [List.map_id], JobRecord.Evolves.refl, fun j _ ↦ .kept rfl, le_rfl, ?_,
      fun jobId hclaims ↦ by cases hclaims⟩
    intro j hj
    obtain rfl := List.mem_singleton.mp hj
    exact ⟨hfresh, hkey, rfl, rfl, rfl⟩

theorem apply_rowSteps {store store' : JobStore}
    (hids : (store.jobs.map JobRecord.jobId).Nodup) {m : ℕ} {op : JobOp} (hop : op.RetriesUpTo m)
    (ha : op.apply store = .ok store') :
    ∃ change added, RowSteps m store op store' change added := by
  cases op with
  | enqueue createdAt jobId jobType requestedBy key =>
    obtain ⟨⟨s, job, replay⟩, he, rfl⟩ := Runs.except_map_ok.mp ha
    exact enqueue_rowSteps m he
  | recoverInterrupted current maxRetries =>
    obtain rfl := Except.ok.inj ha
    obtain rfl : maxRetries = m := hop
    exact ⟨_, [], .changes rfl (recoverInterrupted_jobs hids current maxRetries)
      (recoverRow_evolves current maxRetries _) fun j _ ↦ recoverRow_step _ _ _ j⟩
  | claimNext current leaseSeconds =>
    obtain rfl := Except.ok.inj ha
    exact claimNext_rowSteps hids m current leaseSeconds
  | finish finishedAt jobId status failureCategory message =>
    obtain ⟨⟨s, record⟩, hf, rfl⟩ := Runs.except_map_ok.mp ha
    exact finish_rowSteps m hf

theorem RowSteps.nodup_map {m : ℕ} {store store' : JobStore} {op : JobOp}
    {change : JobRecord → JobRecord} {added : List JobRecord}
    (h : RowSteps m store op store' change added) {column : JobRecord → String}
    (hsame : ∀ j, column (change j) = column j) (hnodup : (store.jobs.map column).Nodup)
    (hfresh : ∀ j ∈ added, column j ∉ store.jobs.map column) : (store'.jobs.map column).Nodup := by
  have hcolumn : (store.jobs.map change).map column = store.jobs.map column := by
    rw [List.map_map]
    exact List.map_congr_left fun j _ ↦ hsame j
  have hadded : (added.map column).Nodup :=
    List.nodup_iff_count_le_one.mpr
      fun a ↦ List.count_le_length.trans ((List.length_map column).trans_le h.single)
  rw [h.jobs, List.map_append, hcolumn, List.nodup_append]
  refine ⟨hnodup, hadded, fun a ha b hb hab ↦ ?_⟩
  obtain ⟨j, hj, rfl⟩ := List.mem_map.mp hb
  exact hfresh j hj (hab ▸ ha)

theorem RowSteps.nodup {m : ℕ} {store store' : JobStore} {op : JobOp}
    {change : JobRecord → JobRecord} {added : List JobRecord}
    (h : RowSteps m store op store' change added)
    (hids : (store.jobs.map JobRecord.jobId).Nodup) : (store'.jobs.map JobRecord.jobId).Nodup :=
  h.nodup_map (fun j ↦ (h.evolves j).jobId) hids fun j hj ↦ (h.fresh j hj).1

theorem RowSteps.mem {m : ℕ} {store store' : JobStore} {op : JobOp} {change : JobRecord → JobRecord}
    {added : List JobRecord} (h : RowSteps m store op store' change added) {j' : JobRecord}
    (hj' : j' ∈ store'.jobs) : (∃ j ∈ store.jobs, change j = j') ∨ j' ∈ added := by
  rw [h.jobs] at hj'
  rcases List.mem_append.mp hj' with hold | hnew
  · exact .inl (List.mem_map.mp hold)
  · exact .inr hnew

theorem RowSteps.putBack_changed {m : ℕ} {store store' : JobStore} {op : JobOp}
    {change : JobRecord → JobRecord} {added : List JobRecord}
    (h : RowSteps m store op store' change added)
    (hids : (store.jobs.map JobRecord.jobId).Nodup) {j : JobRecord} (hj : j ∈ store.jobs) :
    putBack store store' j.jobId =
      (decide (j.status = .running) && decide ((change j).status = .queued)) := by
  have hmem : change j ∈ store'.jobs := h.jobs ▸ List.mem_append_left _ (List.mem_map_of_mem hj)
  have hbefore : store.byId j.jobId = some j := Table.find_key hids hj
  have hafter : store'.byId j.jobId = some (change j) := by
    rw [← (h.evolves j).jobId]
    exact Table.find_key (h.nodup hids) hmem
  rw [putBack, hbefore, hafter]
  rfl

structure Counted (m : ℕ) (ops : List JobOp) (j : JobRecord) : Prop where
  requeues : requeueCount {} ops j.jobId = j.retryCount
  allowed : j.retryCount ≤ m
  claims : claimCount {} ops j.jobId = j.retryCount + if j.status = .queued then 0 else 1

structure Counts (m : ℕ) (ops : List JobOp) : Prop where
  ids : ((Runs.attempts JobOp.apply {} ops).jobs.map JobRecord.jobId).Nodup
  rows : ∀ j ∈ (Runs.attempts JobOp.apply {} ops).jobs, Counted m ops j
  others : ∀ jobId, jobId ∉ (Runs.attempts JobOp.apply {} ops).jobs.map JobRecord.jobId →
    claimCount {} ops jobId = 0 ∧ requeueCount {} ops jobId = 0

theorem claimCount_snoc (store : JobStore) (ops : List JobOp) (op : JobOp) (jobId : String) :
    claimCount store (ops ++ [op]) jobId = claimCount store ops jobId +
      (decide (op.claims (Runs.attempts JobOp.apply store ops) = some jobId)).toNat :=
  Runs.countAttempts_snoc _ _ store ops op

theorem requeueCount_snoc (store : JobStore) (ops : List JobOp) (op : JobOp) (jobId : String) :
    requeueCount store (ops ++ [op]) jobId = requeueCount store ops jobId +
      (putBack (Runs.attempts JobOp.apply store ops) (Runs.attempts JobOp.apply store (ops ++ [op]))
        jobId).toNat := by
  rw [Runs.attempts_snoc]
  exact Runs.countAttempts_snoc _ _ store ops op

theorem Counted.step {m : ℕ} {ops : List JobOp} {op : JobOp} {j j' : JobRecord} {claimed : Bool}
    (h : Counted m ops j) (hstep : RowStep m j j' claimed) (hid : j'.jobId = j.jobId)
    (hclaims : claimCount {} (ops ++ [op]) j.jobId = claimCount {} ops j.jobId + claimed.toNat)
    (hrequeues : requeueCount {} (ops ++ [op]) j.jobId = requeueCount {} ops j.jobId +
      (decide (j.status = .running) && decide (j'.status = .queued)).toNat) :
    Counted m (ops ++ [op]) j' := by
  obtain ⟨hr, ha, hc⟩ := h
  cases hstep with
  | kept hsame =>
    subst hsame
    have hnot : (decide (j'.status = .running) && decide (j'.status = .queued)) = false := by
      cases j'.status <;> rfl
    rw [hnot] at hrequeues
    exact ⟨hrequeues.trans hr, ha, hclaims.trans hc⟩
  | claimed hbefore hafter hretries =>
    simp only [hbefore, hafter, if_true] at hc hrequeues
    refine ⟨?_, hretries ▸ ha, ?_⟩
    · rw [hid, hrequeues, hretries]
      exact hr
    · rw [hid, hclaims, hc, hafter, hretries]
      rfl
  | requeued hbefore hafter hallowed hretries =>
    simp only [hbefore, hafter, decide_true, Bool.and_true, Bool.toNat_true] at hc hrequeues
    refine ⟨?_, by omega, ?_⟩
    · rw [hid, hrequeues, hretries, hr]
    · rw [hid, hclaims, hc, hafter, hretries]
      rfl
  | ended hbefore hafter hretries =>
    have hqueued : j'.status ≠ .queued := fun he ↦ by simp [he, JobStatus.terminal] at hafter
    simp only [hbefore, decide_true, Bool.true_and, decide_eq_false hqueued, Bool.toNat_false]
      at hc hrequeues
    refine ⟨?_, hretries ▸ ha, ?_⟩
    · rw [hid, hrequeues, hretries]
      exact hr
    · rw [hid, hclaims, hc, if_neg hqueued, hretries]
      rfl

theorem putBack_absent {before after : JobStore} {jobId : String}
    (h : jobId ∉ before.jobs.map JobRecord.jobId) : putBack before after jobId = false := by
  have hbefore : before.byId jobId = none := by
    refine List.find?_eq_none.mpr fun i hi hsame ↦ h ?_
    exact of_decide_eq_true hsame ▸ List.mem_map_of_mem hi
  rw [putBack, hbefore]
  rfl

theorem putBack_self (store : JobStore) (jobId : String) : putBack store store jobId = false := by
  rw [putBack]
  cases store.byId jobId with
  | none => rfl
  | some j => cases hs : j.status <;> simp [hs]

theorem counts_step {m : ℕ} {ops : List JobOp} {op : JobOp} (h : Counts m ops)
    (hop : op.RetriesUpTo m) :
    Counts m (ops ++ [op]) := by
  let store := Runs.attempts JobOp.apply {} ops
  have hsnoc := Runs.attempts_snoc JobOp.apply {} ops op
  cases ha : op.apply store with
  | error e =>
    have hsame : Runs.attempts JobOp.apply {} (ops ++ [op]) = store :=
      hsnoc.trans (Runs.attempt_error ha)
    have hclaims : op.claims store = none := by
      cases op with
      | claimNext => cases ha
      | _ => rfl
    have hc : ∀ jobId, claimCount {} (ops ++ [op]) jobId = claimCount {} ops jobId := by
      intro jobId
      have hnot : decide (op.claims store = some jobId) = false := by
        rw [hclaims]
        rfl
      exact (claimCount_snoc _ _ _ _).trans (congrArg (_ + Bool.toNat ·) hnot)
    have hr : ∀ jobId, requeueCount {} (ops ++ [op]) jobId = requeueCount {} ops jobId := by
      intro jobId
      rw [requeueCount_snoc, hsame]
      exact congrArg (_ + Bool.toNat ·) (putBack_self store jobId)
    refine ⟨by rw [hsame]; exact h.ids, fun j hj ↦ ?_, fun jobId hj ↦ ?_⟩
    · rw [hsame] at hj
      have hold := h.rows j hj
      exact ⟨(hr _).trans hold.requeues, hold.allowed, (hc _).trans hold.claims⟩
    · rw [hsame] at hj
      rw [hc, hr]
      exact h.others jobId hj
  | ok store' =>
    have hafter : Runs.attempts JobOp.apply {} (ops ++ [op]) = store' :=
      hsnoc.trans (Runs.attempt_ok ha)
    obtain ⟨change, added, hrows⟩ := apply_rowSteps h.ids hop ha
    -- a job without a row before the call has no history after it
    have hnew : ∀ jobId, jobId ∉ store.jobs.map JobRecord.jobId →
        claimCount {} (ops ++ [op]) jobId = 0 ∧ requeueCount {} (ops ++ [op]) jobId = 0 := by
      intro jobId hjobId
      obtain ⟨hc, hr⟩ := h.others jobId hjobId
      have hclaims : decide (op.claims store = some jobId) = false :=
        decide_eq_false fun hsome ↦ hjobId (hrows.known jobId hsome)
      have hputBack : putBack store store' jobId = false := putBack_absent hjobId
      rw [claimCount_snoc, requeueCount_snoc, hafter, hc, hr]
      exact ⟨congrArg (0 + Bool.toNat ·) hclaims, congrArg (0 + Bool.toNat ·) hputBack⟩
    refine ⟨by rw [hafter]; exact hrows.nodup h.ids, fun j' hj' ↦ ?_,
      fun jobId hjobId ↦ hnew jobId fun hmem ↦ ?_⟩
    · rw [hafter] at hj'
      rcases hrows.mem hj' with ⟨j, hj, rfl⟩ | hadded
      · refine (h.rows j hj).step (hrows.steps j hj) (hrows.evolves j).jobId
          (claimCount_snoc _ _ _ _) ?_
        rw [requeueCount_snoc, hafter]
        exact congrArg (_ + Bool.toNat ·) (hrows.putBack_changed h.ids hj)
      · obtain ⟨hfresh, -, hqueued, hzero, -⟩ := hrows.fresh j' hadded
        obtain ⟨hc, hr⟩ := hnew j'.jobId hfresh
        exact ⟨hr.trans hzero.symm, hzero ▸ Nat.zero_le m, by rw [hc, hqueued, hzero]; rfl⟩
    · obtain ⟨j, hj, rfl⟩ := List.mem_map.mp hmem
      refine hjobId (List.mem_map.mpr ⟨change j, ?_, (hrows.evolves j).jobId⟩)
      rw [hafter, hrows.jobs]
      exact List.mem_append_left _ (List.mem_map_of_mem hj)

theorem counts (m : ℕ) (ops : List JobOp) (hops : ∀ op ∈ ops, op.RetriesUpTo m) : Counts m ops := by
  induction ops using List.reverseRecOn with
  | nil => exact ⟨List.nodup_nil, fun j hj ↦ absurd hj List.not_mem_nil, fun _ _ ↦ ⟨rfl, rfl⟩⟩
  | append_singleton ops op ih =>
    have hops' :
        ∀ op' ∈ ops, op'.RetriesUpTo m := fun op' hop' ↦ hops op' (List.mem_append_left _ hop')
    exact counts_step (ih hops') (hops op (List.mem_append_right _ (List.mem_singleton_self op)))

theorem attempts_terminal {m : ℕ} {store : JobStore} (hids : (store.jobs.map JobRecord.jobId).Nodup)
    {ops : List JobOp} (hops : ∀ op ∈ ops, op.RetriesUpTo m) {j : JobRecord} (hj : j ∈ store.jobs)
    (hterm : j.status.terminal) :
    j ∈ (Runs.attempts JobOp.apply store ops).jobs ∧ claimCount store ops j.jobId = 0 := by
  induction ops generalizing store with
  | nil => exact ⟨hj, rfl⟩
  | cons op ops ih =>
    have hops' :
        ∀ op' ∈ ops, op'.RetriesUpTo m := fun op' hop' ↦ hops op' (List.mem_cons_of_mem op hop')
    cases ha : op.apply store with
    | error e =>
      have hclaims : op.claims store = none := by
        cases op with
        | claimNext => cases ha
        | _ => rfl
      obtain ⟨hmem, hcount⟩ := ih hids hops' hj
      rw [Runs.attempts_cons, claimCount, Runs.countAttempts, Runs.attempt_error ha, hclaims]
      exact ⟨hmem, congrArg (0 + ·) hcount⟩
    | ok store' =>
      obtain ⟨change, added, hrows⟩ := apply_rowSteps hids (hops op List.mem_cons_self) ha
      have hkept : change j = j ∧ decide (op.claims store = some j.jobId) = false := by
        generalize hclaimed : decide (op.claims store = some j.jobId) = claimed
        have hstep := hrows.steps j hj
        rw [hclaimed] at hstep
        cases hstep with
        | kept hsame => exact ⟨hsame, rfl⟩
        | claimed hbefore | requeued hbefore | ended hbefore =>
          rw [hbefore] at hterm
          cases hterm
      have hj' : j ∈ store'.jobs := by
        rw [hrows.jobs, ← hkept.1]
        exact List.mem_append_left _ (List.mem_map_of_mem hj)
      obtain ⟨hmem, hcount⟩ := ih (hrows.nodup hids) hops' hj'
      rw [Runs.attempts_cons, claimCount, Runs.countAttempts, Runs.attempt_ok ha, hkept.2]
      exact ⟨hmem, congrArg (0 + ·) hcount⟩

theorem recover_exhausted {store : JobStore} (hids : (store.jobs.map JobRecord.jobId).Nodup)
    {current : Timestamp} {m : ℕ} {j : JobRecord}
    (hj : j ∈ store.interrupted (dropExpired current store.pipelineLeases))
    (hretries : j.retryCount = m) :
    ∃ j' ∈ (store.recoverInterrupted current m).1.jobs, j'.jobId = j.jobId ∧ j'.status = .failed ∧
      j'.failureCategory = some .interrupted := by
  obtain ⟨hrunning, hheld⟩ := List.mem_filter.mp hj
  obtain ⟨hj, hstatus⟩ := List.mem_filter.mp hrunning
  refine ⟨_, by rw [recoverInterrupted_jobs hids]; exact List.mem_map_of_mem hj, ?_⟩
  rw [recoverRow, if_neg (of_decide_eq_true hheld), recoverUpdate,
    if_neg (not_not.mpr (of_decide_eq_true hstatus)), if_neg (by omega)]
  exact ⟨rfl, rfl, rfl⟩

/-- Over every sequence of calls with one limit of retries: no job is claimed more than
once more often than that, its retry count is how often it was put back, and a job that
is interrupted once more after the last retry ends as failed and is not claimed again. -/
theorem bounded_reexecution (m : ℕ) (ops : List JobOp) (hops : ∀ op ∈ ops, op.RetriesUpTo m) :
    (∀ jobId, claimCount {} ops jobId ≤ m + 1) ∧
    (∀ j ∈ (Runs.attempts JobOp.apply {} ops).jobs,
      j.retryCount = requeueCount {} ops j.jobId ∧ j.retryCount ≤ m) ∧
    ∀ before current after, ops = before ++ .recoverInterrupted current m :: after →
      let store := Runs.attempts JobOp.apply {} before
      ∀ j ∈ store.interrupted (dropExpired current store.pipelineLeases),
      requeueCount {} before j.jobId = m →
        ∃ j' ∈ (Runs.attempts JobOp.apply {} ops).jobs, j'.jobId = j.jobId ∧ j'.status = .failed ∧
          j'.failureCategory = some .interrupted ∧
          claimCount (store.recoverInterrupted current m).1 after j.jobId = 0 := by
  have h := counts m ops hops
  refine ⟨fun jobId ↦ ?_, fun j hj ↦ ⟨(h.rows j hj).requeues.symm, (h.rows j hj).allowed⟩, ?_⟩
  · by_cases hmem : jobId ∈ (Runs.attempts JobOp.apply {} ops).jobs.map JobRecord.jobId
    · obtain ⟨j, hj, rfl⟩ := List.mem_map.mp hmem
      obtain ⟨-, hallowed, hclaims⟩ := h.rows j hj
      rw [hclaims]
      split_ifs <;> omega
    · rw [(h.others jobId hmem).1]
      exact Nat.zero_le _
  · rintro before current after rfl store j hj hrequeues
    have hbefore := counts m before fun op hop ↦ hops op (List.mem_append_left _ hop)
    have hmem : j ∈ store.jobs := List.mem_of_mem_filter (List.mem_of_mem_filter hj)
    obtain ⟨j', hj', hid, hfailed, hcategory⟩ :=
      recover_exhausted hbefore.ids hj ((hbefore.rows j hmem).requeues.symm.trans hrequeues)
    have hrecover : JobOp.apply store (.recoverInterrupted current m) =
      .ok (store.recoverInterrupted current m).1 := rfl
    have hlimit : (JobOp.recoverInterrupted current m).RetriesUpTo m := rfl
    obtain ⟨change, added, hrows⟩ := apply_rowSteps hbefore.ids hlimit hrecover
    obtain ⟨hkept, hnever⟩ := attempts_terminal (hrows.nodup hbefore.ids)
      (fun op hop ↦ hops op (List.mem_append_right _ (List.mem_cons_of_mem _ hop))) hj'
        (by rw [hfailed]; rfl)
    refine ⟨j', ?_, hid, hfailed, hcategory, hid ▸ hnever⟩
    rw [Runs.attempts_append, Runs.attempts_cons, Runs.attempt_ok hrecover]
    exact hkept

def exhaustedRun : List JobOp :=
  [.enqueue 0 "a" .daily "api" "k1", .claimNext 2 30, .recoverInterrupted 40000000 1,
    .claimNext 40000001 30, .recoverInterrupted 80000000 1, .claimNext 80000001 30]

theorem bounded_reexecution_exhaustedRun :
    claimCount {} exhaustedRun "a" = 2 ∧ claimCount {} exhaustedRun "a" ≤ 1 + 1 := by
  have hops : ∀ op ∈ exhaustedRun, op.RetriesUpTo 1 := by
    simp [exhaustedRun, JobOp.RetriesUpTo]
  exact ⟨by decide +kernel, (bounded_reexecution 1 exhaustedRun hops).1 "a"⟩

end AgenticSecurity.Jobs
