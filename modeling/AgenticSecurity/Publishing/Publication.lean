import AgenticSecurity.Publishing.Exclusive

namespace AgenticSecurity.Publishing

open Library Models Python

variable {p : Publisher}

/-- The condition on a step: a copy takes the bundle that was validated, git keeps the files of
the bundle, and a working directory is cleared only where no other run holds it. -/
def Meets (p : Publisher) (s : State) (op : Op) : Prop :=
  Exclusive s op ∧ ∀ index outcome run, op = .advance index outcome → s.runs[index]? = some run →
    CopiesValidated p s.world run.call run.phase ∧ KeepsBundle p s.world run.call run.phase

structure RunsInv (p : Publisher) (s : State) : Prop where
  phases : ∀ (i : ℕ) (run : Run), s.runs[i]? = some run → PhaseInv p s.world run.call run.phase
  apart : Separate s

theorem runsInv_start (w : World) : RunsInv p { world := w, runs := [] } where
  phases i run h := by simp at h
  apart i run key h := by simp at h

theorem RunsInv.update {s : State} {index : ℕ} {run : Run} {next : World × Phase} (h : RunsInv p s)
    (hrun : s.runs[index]? = some run)
    (hfree : ∀ key, run.phase.takes run.call = some key → HeldByNoOther s index key)
    (hframes : Frames run.call s.world run.phase next)
    (hadvances : Advances p run.call s.world next) :
    RunsInv p (s.update index run next) := by
  refine ⟨fun i other hi ↦ ?_, h.apart.update hrun hfree hframes⟩
  rw [lookup_update hrun] at hi
  split_ifs at hi with hindex
  · obtain rfl := Option.some.inj hi
    exact hadvances.inv
  · exact (h.phases i other hi).mono hadvances.remote
      fun key hkey ↦ h.apart.frame hrun hfree hframes hindex hi hkey

theorem runsInv_step {s s' : State} {op : Op} (h : RunsInv p s) (hmeets : Meets p s op)
    (hstep : step p s op = some s') : RunsInv p s' := by
  obtain ⟨hexclusive, hbundles⟩ := hmeets
  cases step_cases hstep with
  | publish call =>
    refine ⟨fun i run hi ↦ ?_, h.apart.publish call⟩
    rcases lookup_publish hi with hold | hstart
    · exact h.phases i run hold
    · rw [hstart]
      trivial
  | advance index outcome run hrun =>
    obtain ⟨hcopies, hkeeps⟩ := hbundles index outcome run rfl hrun
    exact h.update hrun (hexclusive run hrun) (advance_frames outcome run.phase)
      (advances outcome (h.phases index run hrun) hcopies hkeeps)
  | crash index left run hrun =>
    exact h.update hrun (hexclusive run hrun) (abandon_frames _ _ _ _)
      ⟨trivial, .of_remote (abandon_remote _ _ _ _)⟩
  | exported root bundle =>
    exact ⟨fun i run hi ↦ (h.phases i run hi).mono (.of_remote rfl) fun _ _ ↦ rfl, h.apart⟩

/-- In every run of the system whose steps all meet the condition, every result that
`publish` has returned names a branch that stores the bundle with its hash, ends in
the first digits of the hash, and has a draft pull request against main. -/
theorem published_of_meets (p : Publisher) (w : World) (ops : List Op) (s : State)
    (hmeets : ∀ u op, Runs.Takes (step p) { world := w, runs := [] } ops u op → Meets p u op)
    (hvisit : Runs.Visits (step p) { world := w, runs := [] } ops s) (run : Run)
    (hrun : run ∈ s.runs)
    (result : PublishResult) (hresult : run.phase = .returned result) :
    Published p s.world result := by
  have hinv := Runs.visits_invariant (RunsInv p) (runsInv_start w)
    (fun u op v htakes hu hv ↦ runsInv_step hu (hmeets u op htakes) hv) s hvisit
  obtain ⟨i, hi⟩ := List.mem_iff_getElem?.mp hrun
  have hphase := hinv.phases i run hi
  rw [hresult] at hphase
  exact hphase

def copiesValidated (p : Publisher) (w : World) (run : Run) : Bool :=
  match run.phase with
  | .copyTree job =>
    (w.bundles run.call.bundleRoot).all fun bundle ↦
      match validatePublicationBundle p.toBundleFunctions bundle with
      | .error _ => true
      | .ok manifest =>
        publicationArtifactHash p.toBundleFunctions manifest =
          publicationArtifactHash p.toBundleFunctions job.manifest
  | _ => true

def exclusive (s : State) (index : ℕ) : Bool :=
  s.runs[index]?.all fun run ↦ (run.phase.takes run.call).all fun key ↦
    s.runs.zipIdx.all fun other ↦ other.2 = index || other.1.phase.holds other.1.call ≠ some key

def meets (p : Publisher) (s : State) : Op → Bool
  | .advance index _ => exclusive s index && s.runs[index]?.all (copiesValidated p s.world)
  | .crash index _ => exclusive s index
  | .publish _ | .exported _ _ => true

theorem exclusive_of_check {s : State} {index : ℕ} (h : exclusive s index = true) (run : Run)
    (hrun : s.runs[index]? = some run) (key : String × Branch)
    (hkey : run.phase.takes run.call = some key) :
    HeldByNoOther s index key := by
  intro i other hi hother
  rw [exclusive, hrun, Option.all_some, hkey, Option.all_some, List.all_eq_true] at h
  have hother' := h (other, i) (List.mk_mem_zipIdx_iff_getElem?.mpr hother)
  simpa [hi] using hother'

theorem meets_of_check (hkeeps : ∀ w call phase, KeepsBundle p w call phase) {s : State} {op : Op}
    (h : meets p s op = true) : Meets p s op := by
  cases op with
  | publish | exported => exact ⟨trivial, fun _ _ _ hop ↦ by cases hop⟩
  | crash index left => exact ⟨exclusive_of_check h, fun _ _ _ hop ↦ by cases hop⟩
  | advance index outcome =>
    obtain ⟨hexclusive, hcopies⟩ := Bool.and_eq_true_iff.mp h
    refine ⟨exclusive_of_check hexclusive, fun index' outcome' run hop hrun ↦ ⟨?_, hkeeps _ _ _⟩⟩
    cases hop
    rw [hrun, Option.all_some] at hcopies
    intro job bundle manifest hphase hbundle hvalid
    rw [copiesValidated, hphase] at hcopies
    dsimp only at hcopies
    rw [hbundle, Option.all_some, hvalid] at hcopies
    exact of_decide_eq_true hcopies

def ledgerText (second : Bool) : Bytes := encodeUtf8 (if second then "[1, 2, 3]\n" else "[]\n")

def ledgerHash (second : Bool) : Sha256 :=
  if second then { text := "67358ed8fd6cd4d8aac33acaa376b58237beb891c3e984e505d3e57e43f7d320" }
  else { text := "37517e5f3dc66819f61f5a7bb8ace1921282415f10551d2defa5c3eb0985b570" }

/-- The digest of the line `data/ledger.json:<digest of the ledger>`. -/
def bundleHash (second : Bool) : Sha256 :=
  if second then { text := "eb6d45639bbef0186a72ed805a15901fcefcea7b5dd834e681f788ec6410f8c0" }
  else { text := "5095c52955d047c687325579a57b9568da105baf105badde41dbe28a9d826e54" }

def ledgerManifest (second : Bool) : PublicationManifest where
  generatedAt := .midnight sampleDay
  methodologyVersion := "1"
  taxonomyVersion := "1"
  sourceLedgerVersion := "sqlite-schema-1"
  contentCount := 0
  confirmedChangeCount := 0
  pendingReviewCount := 0
  files := [{ path := "data/ledger.json", sha256 := ledgerHash second,
              sizeBytes := (ledgerText second).length }]

def manifestText (second : Bool) : Bytes :=
  [ "\x7b\"generated_at\": \"2026-01-01T00:00:00Z\", \"methodology_version\": \"1\", ",
    "\"taxonomy_version\": \"1\", \"source_ledger_version\": \"sqlite-schema-1\", ",
    "\"content_count\": 0, \"confirmed_change_count\": 0, \"pending_review_count\": 0, ",
    "\"files\": [\x7b\"path\": \"data/ledger.json\", \"sha256\": \"", (ledgerHash second).text,
    "\", \"size_bytes\": ", if second then "10" else "3", "\x7d]\x7d\n" ].flatMap encodeUtf8

def ledgerBundle (second : Bool) : Directory :=
  [(["manifest.json"], manifestText second), (["data", "ledger.json"], ledgerText second)]

def bundleLine : Bytes :=
  encodeUtf8 "data/ledger.json:37517e5f3dc66819f61f5a7bb8ace1921282415f10551d2defa5c3eb0985b570"

def ledgerPublisher : Publisher where
  sha256 content :=
    if content = ledgerText false then ledgerHash false
    else if content = ledgerText true then ledgerHash true
    else if content = bundleLine then bundleHash false
    else bundleHash true
  parseManifest raw :=
    if raw.length = (manifestText false).length then .ok (ledgerManifest false)
    else if raw.length = (manifestText true).length then .ok (ledgerManifest true)
    else .error "Invalid JSON"
  scanPublicFile _ _ := .ok ()
  repository := "owner/downstream"
  git := .plain
  quotePath path := (asPosix path).toList
  isGithubUrl url := "https://github.com/".toList.isPrefixOf url.toList

def ledgerWorld : World where
  bundles root := if root = "export" then some (ledgerBundle false) else none
  worktrees _ := none
  remote :=
    { main := [{ tree := [(["README.md"], encodeUtf8 "Site\n")], stamp := 0 }],
      branches := fun _ ↦ none, pullRequests := [], nextNumber := 1 }

def publishCall : PublishCall where
  bundleRoot := "export"
  worktreeRoot := "worktrees"
  artifactType := "publication".toList

theorem ledgerPublisher_keeps (w : World) (call : PublishCall) (phase : Phase) :
    KeepsBundle ledgerPublisher w call phase := by
  cases phase with
  | cloneBranch job existing => exact fun _ _ _ _ _ ↦ rfl
  | add job => exact fun worktree _ ↦ Git.Settings.plain_storesAll worktree "publication"
  | _ => trivial

def plainOps : List Op := .publish publishCall :: List.replicate 20 (.advance 0 (.succeeds 1))

def replacedOps : List Op :=
  [.publish publishCall, .advance 0 (.succeeds 1), .exported "export" none,
    .exported "export" (some (ledgerBundle true))] ++ List.replicate 19 (.advance 0 (.succeeds 1))

def Phase.result : Phase → Option PublishResult
  | .returned result => some result
  | _ => none

def storedHash (p : Publisher) (w : World) (branch : Branch) : Option Sha256 :=
  (w.remote.branches branch).bind fun history ↦
    (validatePublicationBundle p.toBundleFunctions
      (history.tree.subtree "publication")).toOption.map
      (publicationArtifactHash p.toBundleFunctions)

theorem Stores.storedHash {p : Publisher} {w : World} {branch : Branch} {artifactHash : Sha256}
    (h : Stores p w branch artifactHash) : storedHash p w branch = some artifactHash := by
  obtain ⟨history, hbranch, manifest, hvalid, hhash⟩ := h
  simp [Publishing.storedHash, hbranch, hvalid, hhash, Except.toOption]

def firstResult (ops : List Op) : Option (Sha256 × Option Sha256) :=
  (Runs.exec (step ledgerPublisher) { world := ledgerWorld, runs := [] } ops).bind fun s ↦
    s.runs.head?.bind fun run ↦ run.phase.result.map fun result ↦
      (result.artifactHash, storedHash ledgerPublisher s.world result.branch)

theorem firstResult_eq {ops : List Op} {artifactHash : Sha256} {stored : Option Sha256}
    (h : firstResult ops = some (artifactHash, stored)) :
    ∃ s run result,
      Runs.exec (step ledgerPublisher) { world := ledgerWorld, runs := [] } ops = some s ∧
      run ∈ s.runs ∧
        run.phase = .returned result ∧ result.artifactHash = artifactHash ∧
        storedHash ledgerPublisher s.world result.branch = stored := by
  obtain ⟨s, hs, h⟩ := Option.bind_eq_some_iff.mp h
  obtain ⟨run, hrun, h⟩ := Option.bind_eq_some_iff.mp h
  obtain ⟨result, hresult, h⟩ := Option.map_eq_some_iff.mp h
  obtain ⟨hhash, hstored⟩ := Prod.mk.inj h
  refine ⟨s, run, result, hs, List.mem_of_mem_head? hrun, ?_, hhash, hstored⟩
  cases hphase : run.phase with
  | returned result' =>
    rw [hphase] at hresult
    rw [Option.some.inj hresult]
  | _ =>
    rw [hphase] at hresult
    cases hresult

theorem published_of_meets_plain :
    ∃ s run result,
      Runs.exec (step ledgerPublisher) { world := ledgerWorld, runs := [] } plainOps = some s ∧
        run ∈ s.runs ∧ run.phase = .returned result ∧ result.artifactHash = bundleHash false ∧
        Published ledgerPublisher s.world result := by
  have hfirst : firstResult plainOps = some (bundleHash false, some (bundleHash false)) := by
    decide +kernel
  have hchecked : Runs.stepsPass (step ledgerPublisher) (meets ledgerPublisher)
      { world := ledgerWorld, runs := [] } plainOps = true := by decide +kernel
  obtain ⟨s, run, result, hs, hrun, hresult, hhash, -⟩ := firstResult_eq hfirst
  exact ⟨s, run, result, hs, hrun, hresult, hhash,
    published_of_meets ledgerPublisher ledgerWorld plainOps s
      (fun u op htakes ↦ meets_of_check ledgerPublisher_keeps (Runs.check_of_takes hchecked htakes))
        (Runs.visits_end hs) run hrun
      result hresult⟩

/-- The result names the bundle that was validated, and its branch stores the one that
was copied. -/
theorem replaced_bundle_published :
    ∃ s run result,
      Runs.exec (step ledgerPublisher) { world := ledgerWorld, runs := [] } replacedOps = some s ∧
        run ∈ s.runs ∧ run.phase = .returned result ∧ result.artifactHash = bundleHash false ∧
        storedHash ledgerPublisher s.world result.branch = some (bundleHash true) ∧
        ¬ Published ledgerPublisher s.world result := by
  have hfirst : firstResult replacedOps = some (bundleHash false, some (bundleHash true)) := by
    decide +kernel
  have hdiffer : bundleHash true ≠ bundleHash false := by decide +kernel
  obtain ⟨s, run, result, hs, hrun, hresult, hhash, hstored⟩ := firstResult_eq hfirst
  refine ⟨s, run, result, hs, hrun, hresult, hhash, hstored, fun hpublished ↦ ?_⟩
  have hclaimed := hpublished.stored.storedHash
  rw [hstored, hhash] at hclaimed
  exact hdiffer (Option.some.inj hclaimed)

end AgenticSecurity.Publishing
