import AgenticSecurity.Jobs.Idempotency

namespace AgenticSecurity.Api

open Library Jobs

def isAsciiWord (c : Char) : Bool := c.isAlphanum

/-- `[A-Za-z0-9][A-Za-z0-9 ._:@/+=,-]*`. -/
def isRequester (text : String) : Bool :=
  match text.toList with
  | [] => false
  | first :: rest => isAsciiWord first && rest.all fun c ↦ isAsciiWord c || c ∈ " ._:@/+=,-".toList

/-- `[A-Za-z0-9][A-Za-z0-9._:-]*`. -/
def isIdempotencyKey (text : String) : Bool :=
  match text.toList with
  | [] => false
  | first :: rest => isAsciiWord first && rest.all fun c ↦ isAsciiWord c || c ∈ "._:-".toList

structure JobCreateRequest where
  jobType : JobType
  requestedBy : String
  idempotencyKey : String
  valid : requestedBy.length ≤ 200 ∧ isRequester requestedBy = true ∧
    8 ≤ idempotencyKey.length ∧ idempotencyKey.length ≤ 200 ∧ isIdempotencyKey idempotencyKey = true

structure RuntimeConfig where
  requireMtlsHeader : Bool := true
  minFreeBytes : ℕ := 104857600

/-- `X-ASI-Client-Verify` and `X-ASI-Client-DN`. -/
structure Headers where
  clientVerify : Option String := none
  clientDn : Option String := none

/-- One request with what its handling takes from outside. -/
structure JobPost where
  headers : Headers
  payload : JobCreateRequest
  freeBytes : ℕ
  ledgerRaises : Bool := false
  createdAt : Timestamp
  jobId : String

inductive Answer
  | created (job : JobRecord) (idempotentReplay : Bool)
  | refused (statusCode : ℕ) (category message : String)
  | internalError
  deriving DecidableEq

def mtlsRequired : Answer := .refused 401 "AUTHENTICATION_REQUIRED" "mTLS is required."

def identityRequired : Answer :=
  .refused 401 "AUTHENTICATION_REQUIRED" "An authenticated mTLS client identity is required."

def diskGuard : Answer := .refused 507 "DISK_GUARD" "Insufficient free disk space for a new job."

def invalidRequester : Answer :=
  .refused 400 "INVALID_REQUESTER" "The requester identity is invalid."

def idempotencyConflict : Answer :=
  .refused 409 "IDEMPOTENCY_CONFLICT" "The idempotency key belongs to a different request."

def ledgerUnavailable : Answer :=
  .refused 503 "LEDGER_UNAVAILABLE" "The runtime ledger is unavailable."

def requireMtls (config : RuntimeConfig) (headers : Headers) : Except Answer (Option String) :=
  if ¬ config.requireMtlsHeader then .ok headers.clientDn
  else if headers.clientVerify ≠ some "SUCCESS" then .error mtlsRequired
  else
    match headers.clientDn with
    | none => .error identityRequired
    | some identity => if identity = "" then .error identityRequired else .ok (some identity)

/-- `identity or payload.requested_by`. -/
def requester (identity : Option String) (payload : JobCreateRequest) : String :=
  match identity with
  | some identity => if identity = "" then payload.requestedBy else identity
  | none => payload.requestedBy

/-- `requested_by[:200]`. -/
def storedRequester (requestedBy : String) : String := .ofList (requestedBy.toList.take 200)

def createJob (config : RuntimeConfig) (post : JobPost) (store : JobStore) : JobStore × Answer :=
  match requireMtls config post.headers with
  | .error answer => (store, answer)
  | .ok identity =>
    if post.freeBytes < config.minFreeBytes then (store, diskGuard)
    else
      let requestedBy := requester identity post.payload
      if ¬ isRequester requestedBy then (store, invalidRequester)
      else if post.ledgerRaises then (store, ledgerUnavailable)
      else
        match store.enqueue post.createdAt post.jobId post.payload.jobType
          (storedRequester requestedBy)
          post.payload.idempotencyKey with
        | .ok (store, job, replay) => (store, .created job replay)
        | .error (.idempotencyConflict _) => (store, idempotencyConflict)
        | .error .integrityError => (store, ledgerUnavailable)
        | .error (.valueError _) => (store, .internalError)

theorem isRequester_ne_empty {text : String} (h : isRequester text = true) : text ≠ "" := by
  intro hempty
  rw [hempty] at h
  cases h

/-- The primary key and the unique column of `jobs`. -/
structure Keyed (store : JobStore) : Prop where
  ids : (store.jobs.map JobRecord.jobId).Nodup
  keys : (store.jobs.map JobRecord.idempotencyKey).Nodup

theorem Keyed.apply {store store' : JobStore} {op : JobOp} (h : Keyed store)
    (ha : op.apply store = .ok store') :
    Keyed store' ∧ store.Extends store' := by
  obtain ⟨m, hm⟩ := op.retriesUpTo_some
  obtain ⟨change, added, hrows⟩ := apply_rowSteps h.ids hm ha
  refine ⟨⟨hrows.nodup h.ids, ?_⟩, fun j hj ↦ ?_⟩
  · exact hrows.nodup_map (fun j ↦ (hrows.evolves j).idempotencyKey) h.keys
      fun j hj ↦ key_absent (hrows.fresh j hj).2.1
  · exact ⟨change j, hrows.jobs ▸ List.mem_append_left _ (List.mem_map_of_mem hj), hrows.evolves j⟩

theorem Keyed.attempts {store : JobStore} (h : Keyed store) (ops : List JobOp) :
    Keyed (Runs.attempts JobOp.apply store ops) ∧
    store.Extends (Runs.attempts JobOp.apply store ops) :=
  Runs.attempts_relation (fun s t ↦ Keyed s → Keyed t ∧ s.Extends t) (fun s hs ↦ ⟨hs, .refl s⟩)
    (fun hst htu hs ↦ ⟨(htu (hst hs).1).1, (hst hs).2.trans (htu (hst hs).1).2⟩)
    (fun _ _ _ _ ha hs ↦ hs.apply ha) h

section Answers

variable {config : RuntimeConfig} {post : JobPost} {store store' : JobStore} {job : JobRecord}
  {replay : Bool} {identity : String}

theorem createJob_created (hidentity : requireMtls config post.headers = .ok (some identity))
    (hne : identity ≠ "") (h : createJob config post store = (store', .created job replay)) :
    store.enqueue post.createdAt post.jobId post.payload.jobType (storedRequester identity)
      post.payload.idempotencyKey = .ok (store', job, replay) := by
  unfold createJob at h
  rw [hidentity] at h
  simp only [requester, if_neg hne] at h
  split at h
  · cases h
  · split at h
    · cases h
    · split at h
      · cases h
      · split at h
        next hok =>
          cases h
          exact hok
        all_goals cases h

theorem createJob_refused (hidentity : requireMtls config post.headers = .ok (some identity))
    (haccepted : isRequester identity = true)
    (hrefused : post.freeBytes < config.minFreeBytes ∨ post.ledgerRaises = true) :
    (createJob config post store).2 = diskGuard ∨
    (createJob config post store).2 = ledgerUnavailable := by
  unfold createJob
  rw [hidentity]
  simp only [requester, if_neg (isRequester_ne_empty haccepted)]
  by_cases hdisk : post.freeBytes < config.minFreeBytes
  · exact .inl (by rw [if_pos hdisk])
  · have hledger := hrefused.resolve_left hdisk
    exact .inr (by rw [if_neg hdisk, if_neg (by simp [haccepted]), if_pos hledger])

theorem createJob_existing (hstore : Keyed store)
    (hidentity : requireMtls config post.headers = .ok (some identity))
    (haccepted : isRequester identity = true) (hdisk : config.minFreeBytes ≤ post.freeBytes)
    (hledger : post.ledgerRaises = false) (hjob : job ∈ store.jobs)
    (hkey : job.idempotencyKey = post.payload.idempotencyKey)
    (htype : job.jobType = post.payload.jobType) :
    createJob config post store = (store,
      if job.requestedBy = storedRequester identity then .created job true
        else idempotencyConflict) := by
  have hne := isRequester_ne_empty haccepted
  have hfind : store.byKey post.payload.idempotencyKey = some job :=
    hkey ▸ Table.find_key hstore.keys hjob
  unfold createJob
  rw [hidentity]
  simp only [requester, if_neg hne]
  rw [if_neg (by omega), if_neg (by simp [haccepted]), if_neg (by simp [hledger]),
    enqueue_found hfind, validateIdempotentReplay]
  by_cases hsame : job.requestedBy = storedRequester identity
  · rw [if_neg (by simp [htype, hsame]), if_pos hsame]
    rfl
  · rw [if_pos (.inr hsame), if_neg hsame]
    rfl

theorem createJob_new (hidentity : requireMtls config post.headers = .ok (some identity))
    (haccepted : isRequester identity = true) (hdisk : config.minFreeBytes ≤ post.freeBytes)
    (hledger : post.ledgerRaises = false) (hkey : store.byKey post.payload.idempotencyKey = none)
    (hid : post.jobId ∉ store.jobs.map JobRecord.jobId)
    (hjob : job = newJob post.createdAt post.jobId
      post.payload.jobType (storedRequester identity) post.payload.idempotencyKey) :
    createJob config post store =
      ({ store with jobs := store.jobs ++ [job] }, .created job false) := by
  have hne := isRequester_ne_empty haccepted
  unfold createJob
  rw [hidentity]
  simp only [requester, if_neg hne]
  rw [if_neg (by omega), if_neg (by simp [haccepted]), if_neg (by simp [hledger]),
    enqueue_new hkey hid, hjob]

theorem storedRequester_eq_iff {a b : String} :
    storedRequester a = storedRequester b ↔ a.toList.take 200 = b.toList.take 200 := by
  rw [storedRequester, storedRequester, ← String.toList_inj, String.toList_ofList,
    String.toList_ofList]

end Answers

/-- The later request is told that the key is another's, and not of the other's job. -/
def Separated (job : JobRecord) (answer : Answer) : Prop :=
  answer = idempotencyConflict ∧
  ∀ other replay, answer = .created other replay → other.jobId ≠ job.jobId

/-- Two identities that send one key and one job type are kept apart exactly where the later
request gets to the store and they differ in their first 200 characters, whatever the jobs go
through between the two requests. -/
theorem requesters_separated_iff (config : RuntimeConfig) (first later : JobPost)
    (store store' : JobStore) (job : JobRecord) (replay : Bool) (between : List JobOp)
    (a b : String) (hstore : Keyed store)
    (hfirst : requireMtls config first.headers = .ok (some a))
    (hlater : requireMtls config later.headers = .ok (some b))
    (haccepted : isRequester a = true ∧ isRequester b = true)
    (hcreated : createJob config first store = (store', .created job replay))
    (hkey : later.payload.idempotencyKey = first.payload.idempotencyKey)
    (htype : later.payload.jobType = first.payload.jobType) :
    Separated job (createJob config later (Runs.attempts JobOp.apply store' between)).2 ↔
      config.minFreeBytes ≤ later.freeBytes ∧ later.ledgerRaises = false ∧
      a.toList.take 200 ≠ b.toList.take 200 := by
  by_cases hrefused : later.freeBytes < config.minFreeBytes ∨ later.ledgerRaises = true
  · have hanswer :
        (createJob config later (Runs.attempts JobOp.apply store' between)).2 = diskGuard ∨
        (createJob config later (Runs.attempts JobOp.apply store' between)).2 = ledgerUnavailable :=
      createJob_refused hlater haccepted.2 hrefused
    refine iff_of_false (fun h ↦ ?_) (fun h ↦ ?_)
    · rcases hanswer with he | he
      · cases he.symm.trans h.1
      · cases he.symm.trans h.1
    · rcases hrefused with hdisk | hledger
      · omega
      · exact Bool.false_ne_true (h.2.1.symm.trans hledger)
  · obtain ⟨hdisk, hledger⟩ := not_or.mp hrefused
    rw [Nat.not_lt] at hdisk
    rw [Bool.not_eq_true] at hledger
    have henqueue := createJob_created hfirst (isRequester_ne_empty haccepted.1) hcreated
    have happly :
        (JobOp.enqueue first.createdAt first.jobId first.payload.jobType (storedRequester a)
        first.payload.idempotencyKey).apply store = .ok store' :=
            congrArg (Except.map Prod.fst) henqueue
    obtain ⟨hstore', -⟩ := hstore.apply happly
    obtain ⟨hmem, hjobType, hrequestedBy, hjobKey⟩ := enqueue_returns henqueue
    obtain ⟨hbetween, hextends⟩ := hstore'.attempts between
    obtain ⟨row, hrow, hevolves⟩ := hextends job hmem
    have hanswer := createJob_existing hbetween hlater haccepted.2 hdisk hledger hrow
      (hevolves.idempotencyKey.trans (hjobKey.trans hkey.symm))
        (hevolves.jobType.trans (hjobType.trans htype.symm))
    rw [hevolves.requestedBy, hrequestedBy] at hanswer
    rw [hanswer, Ne, ← storedRequester_eq_iff]
    by_cases hsame : storedRequester a = storedRequester b
    · rw [if_pos hsame]
      exact ⟨fun h ↦ absurd h.1 (by simp [idempotencyConflict]), fun h ↦ absurd hsame h.2.2⟩
    · rw [if_neg hsame]
      exact ⟨fun _ ↦ ⟨hdisk, hledger, hsame⟩, fun _ ↦ ⟨rfl, fun _ _ h ↦ (nomatch h)⟩⟩

def dailyRequest : JobCreateRequest where
  jobType := .daily
  requestedBy := "operator"
  idempotencyKey := "daily-run-1"
  valid := by decide

def dailyPost (identity : String) : JobPost where
  headers := { clientVerify := some "SUCCESS", clientDn := some identity }
  payload := dailyRequest
  freeBytes := 200000000
  createdAt := 0
  jobId := "00000000-0000-4000-8000-000000000001"

theorem requesters_separated_iff_clients :
    Separated (newJob 0 "00000000-0000-4000-8000-000000000001" .daily "CN=first" "daily-run-1")
      (createJob {} (dailyPost "CN=second") (createJob {} (dailyPost "CN=first") {}).1).2 :=
  (requesters_separated_iff {} (dailyPost "CN=first") (dailyPost "CN=second") {} _ _ false
    [] "CN=first" "CN=second"
    ⟨List.nodup_nil, List.nodup_nil⟩ rfl rfl (by decide) rfl rfl rfl).mpr (by decide)

def longIdentity (last : Char) : String :=
  .ofList ("CN=".toList ++ List.replicate 197 'a' ++ [last])

def longJob : JobRecord :=
  newJob 0 "00000000-0000-4000-8000-000000000001" .daily (storedRequester (longIdentity '1'))
    "daily-run-1"

theorem toList_longIdentity (last : Char) :
    (longIdentity last).toList = "CN=".toList ++ List.replicate 197 'a' ++ [last] :=
  String.toList_ofList

theorem longIdentity_accepted {last : Char} (hlast : isAsciiWord last = true) :
    isRequester (longIdentity last) = true := by
  unfold isRequester
  rw [toList_longIdentity, show "CN=".toList = 'C' :: ['N', '='] by decide]
  simp only [List.cons_append, List.all_cons, List.all_append, List.all_replicate, List.nil_append,
    List.all_nil, hlast, Bool.true_or]
  decide

theorem storedRequester_longIdentity (last : Char) :
    storedRequester (longIdentity last) = .ofList ("CN=".toList ++ List.replicate 197 'a') := by
  rw [storedRequester, toList_longIdentity]
  refine congrArg String.ofList (List.take_left' ?_)
  rw [List.length_append, List.length_replicate]
  decide

/-- The second client is answered with the job of the first. -/
theorem long_identity_replayed :
    (isRequester (longIdentity '1') ∧ isRequester (longIdentity '2') ∧
      longIdentity '1' ≠ longIdentity '2') ∧
      (createJob {} (dailyPost (longIdentity '1')) {}).2 = .created longJob false ∧
      (createJob {} (dailyPost (longIdentity '2'))
        (createJob {} (dailyPost (longIdentity '1')) {}).1).2 =
        .created longJob true := by
  have hfirst : isRequester (longIdentity '1') = true := longIdentity_accepted (by decide)
  have hsecond : isRequester (longIdentity '2') = true := longIdentity_accepted (by decide)
  have hne : longIdentity '1' ≠ longIdentity '2' := by
    rw [Ne, ← String.toList_inj, toList_longIdentity, toList_longIdentity, List.append_right_inj]
    decide
  have hstored : storedRequester (longIdentity '1') = storedRequester (longIdentity '2') := by
    rw [storedRequester_longIdentity, storedRequester_longIdentity]
  have hidentity : ∀ last, isRequester (longIdentity last) = true →
      requireMtls {} (dailyPost (longIdentity last)).headers = .ok (some (longIdentity last)) := by
    intro last haccepted
    simp [requireMtls, dailyPost, isRequester_ne_empty haccepted]
  have hcreated : createJob {} (dailyPost (longIdentity '1')) {} =
      ({ jobs := [longJob] }, .created longJob false) :=
    createJob_new (hidentity '1' hfirst) hfirst (by decide) rfl rfl List.not_mem_nil rfl
  have hreplayed : createJob {} (dailyPost (longIdentity '2')) { jobs := [longJob] } =
      ({ jobs := [longJob] }, if longJob.requestedBy = storedRequester (longIdentity '2') then
        .created longJob true else idempotencyConflict) :=
    createJob_existing ⟨List.nodup_singleton _,
      List.nodup_singleton _⟩ (hidentity '2' hsecond) hsecond (by decide) rfl
      (List.mem_singleton_self longJob) rfl rfl
  rw [hcreated]
  refine ⟨⟨hfirst, hsecond, hne⟩, rfl, ?_⟩
  rw [hreplayed, if_pos (show longJob.requestedBy =
    storedRequester (longIdentity '2') from hstored)]

end AgenticSecurity.Api
