import AgenticSecurity.Publishing.Projection
import AgenticSecurity.Publishing.Retry

namespace AgenticSecurity.Publishing

open Library Models Python

variable {e : ExportFunctions} {ledger : LedgerExport}

def exportManifest (e : ExportFunctions) (ledger : LedgerExport) : PublicationManifest :=
  manifestOf ledger ([(ledgerPath, ledger.ledgerText)].map (fileHash e.toBundleFunctions))

theorem exported_undisturbed {manifest : PublicationManifest} (previous : Option Directory)
    (hvalid : validatePublicationBundle e.toBundleFunctions (stagedBundle e ledger) = .ok manifest) :
    exported e none ledger previous = (.ok manifest, { target := some (stagedBundle e ledger) }) := by
  have hnone : ∀ step, fails none step = false := fun _ ↦ rfl
  have hstage : (fillAndValidateStage e none ledger).run { target := previous } =
      (.ok (), { target := previous, stage := some (stagedBundle e ledger) }) := by
    rcases @fillAndValidateStage_outcome e none ledger { target := previous } with ⟨hfails, -⟩ | ⟨-, he⟩
    · rcases hfails with ⟨step, -, hstep⟩ | ⟨message, hinvalid⟩
      · cases hstep
      · cases hinvalid.symm.trans hvalid
    · exact he
  have hfinal : (validateStep e none .validateTarget Disk.target).run { target := some (stagedBundle e ledger) } =
      (.ok manifest, { target := some (stagedBundle e ledger) }) := by
    rcases @validateStep_cases e none .validateTarget Disk.target { target := some (stagedBundle e ledger) } with
      ⟨h, -⟩ | ⟨-, he⟩
    · cases h
    · rw [he]
      simp only [Option.getD_some, hvalid]
      rfl
  have hswap : (swap e none).run { target := previous, stage := some (stagedBundle e ledger) } =
      (.ok manifest, { target := some (stagedBundle e ledger) }) := by
    cases previous with
    | none => exact hfinal
    | some before => exact hfinal
  unfold exported exportBundle
  change (tryCatch (do fillAndValidateStage e none ledger; swap e none) fun error ↦ do
      modify cleanUp
      throw error).run { target := previous } = _
  rw [run_tryCatch, run_bind, hstage]
  dsimp only
  rw [hswap]

variable {p : Publisher} {call : PublishCall}

/-- The artifact is an export of the ledger, whose manifest is read back as it was written. -/
structure Exports (e : ExportFunctions) (ledger : LedgerExport) (a : Artifact p call) : Prop where
  functions : e.toBundleFunctions = p.toBundleFunctions
  bundle : a.bundle = stagedBundle e ledger
  readsBack : e.parseManifest (e.dumpManifest (exportManifest e ledger)) =
    .ok (exportManifest e ledger)

theorem validate_parses {functions : BundleFunctions} {root : Directory} {raw : Bytes}
    {manifest parsed : PublicationManifest}
    (hvalid : validatePublicationBundle functions root = .ok manifest)
    (hraw : root.lookup manifestPath = some raw)
    (hparse : functions.parseManifest raw = .ok parsed) : manifest = parsed := by
  unfold validatePublicationBundle at hvalid
  rw [hraw] at hvalid
  dsimp only at hvalid
  rw [hparse] at hvalid
  obtain ⟨read, hread, hrest⟩ := Runs.except_bind_ok.mp hvalid
  obtain rfl := Except.ok.inj hread
  obtain ⟨-, hrest⟩ := Runs.except_guard_ok.mp hrest
  obtain ⟨-, hrest⟩ := Runs.except_guard_ok.mp hrest
  obtain ⟨-, -, hrest⟩ := Runs.except_bind_ok.mp hrest
  obtain ⟨-, -, hrest⟩ := Runs.except_bind_ok.mp hrest
  exact (Except.ok.inj hrest).symm

theorem Exports.manifest {a : Artifact p call} (h : Exports e ledger a) :
    a.manifest = exportManifest e ledger := by
  have hvalid := a.valid
  rw [h.bundle, ← h.functions] at hvalid
  exact validate_parses hvalid rfl h.readsBack

structure Alike (a b : Artifact p call) : Prop where
  main : b.main = a.main
  files : b.manifest.files = a.manifest.files
  manifest : { a.manifest with generatedAt := b.manifest.generatedAt } = b.manifest

theorem Exports.alike {a b : Artifact p call} {later : Datetime} (ha : Exports e ledger a)
    (hb : Exports e { ledger with generatedAt := later } b) (hmain : b.main = a.main) :
    Alike a b := by
  refine ⟨hmain, ?_, ?_⟩
  · rw [ha.manifest, hb.manifest]
    rfl
  · rw [ha.manifest, hb.manifest]
    rfl

theorem Alike.hash {a b : Artifact p call} (h : Alike a b) :
    b.job.artifactHash = a.job.artifactHash := by
  change publicationArtifactHash _ _ = publicationArtifactHash _ _
  unfold publicationArtifactHash
  rw [h.files]

theorem Alike.branch {a b : Artifact p call} (h : Alike a b) : b.job.branch = a.job.branch := by
  have hhash : publicationArtifactHash p.toBundleFunctions b.manifest =
      publicationArtifactHash p.toBundleFunctions a.manifest := h.hash
  change branchName _ _ = branchName _ _
  rw [hhash]

theorem Alike.checkRemoteBundle {a b : Artifact p call} (h : Alike a b) :
    checkRemoteBundle p b.job a.bundle = none := by
  have hhash : publicationArtifactHash p.toBundleFunctions a.manifest =
      b.job.artifactHash := h.hash.symm
  have hmanifest : { a.manifest with generatedAt := b.job.manifest.generatedAt } =
      b.job.manifest := h.manifest
  simp only [Publishing.checkRemoteBundle, a.valid, hhash, hmanifest, ne_eq,
    not_true_eq_false, if_false]

structure Settled (a : Artifact p call) (remote : Remote) (commit : Git.Commit Bytes)
    (row : PullRequest) : Prop where
  main : remote.main = a.main
  committable : a.Committable
  branch : remote.branches a.job.branch = some (commit :: a.main)
  tree : commit.tree = a.tree
  pullRequests : remote.pullRequests.filter (fun other ↦ other.headRefName = a.job.branch) = [row]
  draft : Artifact.Draft p row

structure Repeats (b : Artifact p call) (row : PullRequest) (result : PublishResult) : Prop where
  branch : result.branch = b.job.branch
  number : result.pullRequestNumber = row.number
  url : result.pullRequestUrl = row.url
  duplicate : result.duplicate = true

def FoundAgain (b : Artifact p call) (row : PullRequest) (existing : Option PublishResult) : Prop :=
  ∃ result, existing = some result ∧ Repeats b row result

def EndsAgain (b : Artifact p call) (row : PullRequest) : Ending → Prop
  | .raises _ => True
  | .returns result => Repeats b row result ∧ result.artifactHash = b.job.artifactHash
  | .creates => False

def AgainAt (b : Artifact p call) (history : Git.History Bytes) (row : PullRequest) (w : World) :
    Phase → Prop
  | .start | .raised _ | .crashed => True
  | .authenticate job | .lookUp job => job = b.job
  | .inspect job existing | .clearBranch job existing => job = b.job ∧ FoundAgain b row existing
  | .cloneBranch job existing => job = b.job ∧ FoundAgain b row existing ∧
      w.worktrees (call.key b.job) = none
  | .fetchMain job existing =>
    job = b.job ∧ FoundAgain b row existing ∧
    w.worktrees (call.key b.job) = some (p.git.clone history)
  | .diffBranch job existing | .checkBranch job existing =>
    job = b.job ∧ FoundAgain b row existing ∧
      w.worktrees (call.key b.job) =
        some { p.git.clone history with originMain := some history.tail }
  | .cleanUp job ending => job = b.job ∧ EndsAgain b row ending
  | .returned result => Repeats b row result ∧ result.artifactHash = b.job.artifactHash
  | _ => False

/-- How many operations are left. -/
def Phase.left : Phase → ℕ
  | .start => 10
  | .authenticate _ => 9
  | .lookUp _ => 8
  | .inspect _ _ => 7
  | .clearBranch _ _ => 6
  | .cloneBranch _ _ => 5
  | .fetchMain _ _ => 4
  | .diffBranch _ _ => 3
  | .checkBranch _ _ => 2
  | .cleanUp _ _ => 1
  | _ => 0

def Phase.failed : Phase → Prop
  | .raised _ | .crashed | .cleanUp _ (.raises _) => True
  | _ => False

structure GoesAgain (b : Artifact p call) (history : Git.History Bytes) (row : PullRequest)
    (w : World) (phase : Phase) (next : World × Phase) : Prop where
  remote : next.1.remote = w.remote
  bundles : next.1.bundles = w.bundles
  stands : AgainAt b history row next.1 next.2
  left : next.2.left ≤ phase.left - 1
  failed : next.2.failed → phase.failed

section Again

variable {a b : Artifact p call} {w : World} {commit : Git.Commit Bytes}
  {row : PullRequest} {time : ℕ} {existing : Option PublishResult}

theorem existingPr_duplicate {answer : Option (List PullRequest)} {branch : Branch}
    {result : PublishResult} (h : existingPr p answer branch = .ok (some result)) :
    result.duplicate = true := by
  unfold existingPr at h
  split at h
  · cases h
  · cases h
  · split_ifs at h
    obtain rfl := Option.some.inj (Except.ok.inj h)
    rfl

theorem Settled.lookUp (h : Settled a w.remote commit row) (hab : Alike a b) (time : ℕ) :
    ∃ result, existingPr p (w.listed b.job.branch (.succeeds time)) b.job.branch =
      .ok (some result) ∧
      Repeats b row result := by
  have hrow : (b.view w).pullRequests = [row] := by
    change w.remote.pullRequests.filter (fun other ↦ other.headRefName = b.job.branch) = [row]
    rw [hab.branch]
    exact h.pullRequests
  obtain ⟨result, hresult, row', hrow', -, hbranch, hnumber, hurl, -, -⟩ :=
    @Artifact.existingPr_some _ _ w time b _ hrow h.draft
  obtain rfl : row = row' := List.singleton_inj.mp (hrow.symm.trans hrow')
  exact ⟨result, hresult, hbranch, hnumber, hurl, existingPr_duplicate hresult⟩

theorem again_start (hbundle : w.bundles call.bundleRoot = some b.bundle) :
    GoesAgain b (commit :: a.main) row w .start (advance p call w (.succeeds time) .start) := by
  have hcharacters : ¬ (call.artifactType = [] ∨
      call.artifactType.any (fun c ↦ ¬ artifactTypeCharacter c) = true) := by
    rintro (hnil | hany)
    · exact b.nonempty hnil
    · obtain ⟨c, hc, hout⟩ := List.any_eq_true.mp hany
      simp [b.characters c hc] at hout
  have hnext : advance p call w (.succeeds time) .start = (w, .authenticate b.job) := by
    unfold advance
    simp only [if_neg hcharacters, hbundle, Option.getD_some, b.valid]
    rfl
  rw [hnext]
  exact ⟨rfl, rfl, rfl, le_rfl, False.elim⟩

theorem again_lookUp (h : Settled a w.remote commit row) (hab : Alike a b) :
    GoesAgain b (commit :: a.main) row w (.lookUp b.job)
      (advance p call w (.succeeds time) (.lookUp b.job)) := by
  obtain ⟨result, hresult, hrepeats⟩ := h.lookUp hab time
  have hnext : advance p call w (.succeeds time) (.lookUp b.job) =
      (w, .inspect b.job (some result)) := by
    unfold advance
    simp only [hresult]
  rw [hnext]
  exact ⟨rfl, rfl, ⟨rfl, result, rfl, hrepeats⟩, le_rfl, False.elim⟩

theorem again_inspect (h : Settled a w.remote commit row) (hab : Alike a b)
    (hfound : FoundAgain b row existing) :
    GoesAgain b (commit :: a.main) row w (.inspect b.job existing)
      (advance p call w (.succeeds time) (.inspect b.job existing)) := by
  have hbranch : w.remote.branches b.job.branch = some (commit :: a.main) := hab.branch ▸ h.branch
  have hnext : advance p call w (.succeeds time) (.inspect b.job existing) =
      (w, .clearBranch b.job existing) := by
    unfold advance
    simp [hbranch]
  rw [hnext]
  exact ⟨rfl, rfl, ⟨rfl, hfound⟩, le_rfl, False.elim⟩

theorem again_cloneBranch (h : Settled a w.remote commit row) (hab : Alike a b)
    (hfound : FoundAgain b row existing) (hworktree : w.worktrees (call.key b.job) = none) :
    GoesAgain b (commit :: a.main) row w (.cloneBranch b.job existing)
      (advance p call w (.succeeds time) (.cloneBranch b.job existing)) := by
  have hbranch : w.remote.branches b.job.branch = some (commit :: a.main) := hab.branch ▸ h.branch
  have hnext : advance p call w (.succeeds time) (.cloneBranch b.job existing) =
      (w.setWorktree (call.key b.job) (some (p.git.clone (commit :: a.main))),
        .fetchMain b.job existing) := by
    unfold advance
    simp only [hbranch, hworktree]
  rw [hnext]
  exact ⟨rfl, rfl, ⟨rfl, hfound, setWorktree_self _ _ _⟩, le_rfl, False.elim⟩

theorem again_fetchMain (h : Settled a w.remote commit row) (hfound : FoundAgain b row existing)
    (hworktree : w.worktrees (call.key b.job) = some (p.git.clone (commit :: a.main))) :
    GoesAgain b (commit :: a.main) row w (.fetchMain b.job existing)
      (advance p call w (.succeeds time) (.fetchMain b.job existing)) := by
  have hnext : advance p call w (.succeeds time) (.fetchMain b.job existing) =
      (w.setWorktree (call.key b.job)
        (some { p.git.clone (commit :: a.main) with originMain := some w.remote.main }),
        .diffBranch b.job existing) :=
    inWorktree_succeeds hworktree rfl rfl
  rw [hnext, h.main]
  exact ⟨rfl, rfl, ⟨rfl, hfound, setWorktree_self _ _ _⟩, le_rfl, False.elim⟩

theorem again_diffBranch (h : Settled a w.remote commit row) (hfound : FoundAgain b row existing)
    (hworktree : w.worktrees (call.key b.job) =
      some { p.git.clone (commit :: a.main) with originMain := some a.main }) :
    GoesAgain b (commit :: a.main) row w (.diffBranch b.job existing)
      (advance p call w (.succeeds time) (.diffBranch b.job existing)) := by
  have hscope : listedPaths p (p.git.diff (p.git.mergeBase a.main (commit :: a.main)).tree
      (Git.History.tree (commit :: a.main))) = a.changed := by
    rw [p.git.mergeBase_cons, Git.History.tree_cons, h.tree]
    rfl
  have hnext : advance p call w (.succeeds time) (.diffBranch b.job existing) =
      (w, .checkBranch b.job existing) := by
    refine inWorktree_succeeds hworktree rfl ?_
    dsimp only [Option.map_some, Git.Settings.clone]
    rw [hscope, if_neg (committable_branch h.committable)]
  rw [hnext]
  exact ⟨rfl, rfl, ⟨rfl, hfound, hworktree⟩, le_rfl, False.elim⟩

theorem again_checkBranch (hkept : a.Kept) (h : Settled a w.remote commit row) (hab : Alike a b)
    (hfound : FoundAgain b row existing)
    (hworktree : w.worktrees (call.key b.job) =
      some { p.git.clone (commit :: a.main) with originMain := some a.main }) :
    GoesAgain b (commit :: a.main) row w (.checkBranch b.job existing)
      (advance p call w (.succeeds time) (.checkBranch b.job existing)) := by
  obtain ⟨result, rfl, hrepeats⟩ := hfound
  have hkey : call.key b.job = call.key a.job := by
    rw [PublishCall.key, hab.branch, PublishCall.key]
  have hpublication : w.publication (call.key b.job) = a.bundle := by
    rw [hkey] at hworktree ⊢
    exact a.cloned_publication hkept h.tree hworktree
  have hnext : advance p call w (.succeeds time) (.checkBranch b.job (some result)) =
      (w, .cleanUp b.job (.returns (result.withHash b.job.artifactHash result.duplicate))) := by
    unfold advance
    dsimp only
    rw [hpublication, hab.checkRemoteBundle]
  rw [hnext]
  exact ⟨rfl, rfl, ⟨rfl, ⟨hrepeats.branch, hrepeats.number, hrepeats.url, hrepeats.duplicate⟩, rfl⟩,
    le_rfl, False.elim⟩

theorem again_cleanUp {ending : Ending} (hends : EndsAgain b row ending) :
    GoesAgain b (commit :: a.main) row w (.cleanUp b.job ending)
      (advance p call w (.succeeds time) (.cleanUp b.job ending)) := by
  cases ending with
  | raises failure => exact ⟨rfl, rfl, trivial, le_rfl, id⟩
  | returns result => exact ⟨rfl, rfl, hends, le_rfl, False.elim⟩
  | creates => cases hends

theorem goesAgain (hkept : a.Kept) (h : Settled a w.remote commit row) (hab : Alike a b)
    (hbundle : w.bundles call.bundleRoot = some b.bundle) {phase : Phase}
    (hphase : AgainAt b (commit :: a.main) row w phase) :
    GoesAgain b (commit :: a.main) row w phase (advance p call w (.succeeds time) phase) := by
  cases phase with
  | start => exact again_start hbundle
  | authenticate job => exact ⟨rfl, rfl, hphase, le_rfl, False.elim⟩
  | lookUp job =>
    obtain rfl : job = b.job := hphase
    exact again_lookUp h hab
  | inspect job existing =>
    obtain ⟨rfl, hfound⟩ := hphase
    exact again_inspect h hab hfound
  | clearBranch job existing =>
    obtain ⟨rfl, hfound⟩ := hphase
    exact ⟨rfl, rfl, ⟨rfl, hfound, setWorktree_self _ _ _⟩, le_rfl, False.elim⟩
  | cloneBranch job existing =>
    obtain ⟨rfl, hfound, hworktree⟩ := hphase
    exact again_cloneBranch h hab hfound hworktree
  | fetchMain job existing =>
    obtain ⟨rfl, hfound, hworktree⟩ := hphase
    exact again_fetchMain h hfound hworktree
  | diffBranch job existing =>
    obtain ⟨rfl, hfound, hworktree⟩ := hphase
    exact again_diffBranch h hfound hworktree
  | checkBranch job existing =>
    obtain ⟨rfl, hfound, hworktree⟩ := hphase
    exact again_checkBranch hkept h hab hfound hworktree
  | cleanUp job ending =>
    obtain ⟨rfl, hends⟩ := hphase
    exact again_cleanUp hends
  | returned | raised | crashed => exact ⟨rfl, rfl, hphase, le_rfl, id⟩
  | _ => cases hphase

end Again

structure AgainInv (b : Artifact p call) (remote : Remote) (history : Git.History Bytes)
    (row : PullRequest) (s : Attempts) : Prop where
  remote : s.world.remote = remote
  bundle : s.world.bundles call.bundleRoot = some b.bundle
  phase : AgainAt b history row s.world s.phase
  pushes : s.pushes = 0

theorem AgainAt.push_refused {b : Artifact p call} {history : Git.History Bytes}
    {row : PullRequest} {w : World} {phase : Phase} (h : AgainAt b history row w phase) :
    acceptsPush call w phase = false := by
  cases phase with
  | push job => cases h
  | _ => rfl

theorem AgainAt.job {b : Artifact p call} {history : Git.History Bytes}
    {row : PullRequest} {w : World} {phase : Phase} (h : AgainAt b history row w phase)
    {job : Publication} (hjob : phase.job = some job) :
    job = b.job := by
  cases phase with
  | start | returned | raised | crashed => cases hjob
  | authenticate | lookUp => exact Option.some.inj hjob ▸ h
  | inspect | clearBranch | cloneBranch | fetchMain | diffBranch | checkBranch | cleanUp =>
    exact Option.some.inj hjob ▸ h.1
  | _ => cases h

theorem AgainAt.stops {b : Artifact p call} {history : Git.History Bytes} {row : PullRequest}
    {w w' : World} {phase : Phase} {next : World × Phase} (h : AgainAt b history row w phase)
    (hstops : Stops w' phase next) :
    AgainAt b history row next.1 next.2 := by
  rcases hstops.phase with ⟨failure, hraised⟩ | ⟨job, failure, hjob, hcleans⟩ | ⟨job, fresh,
    hcreate, -⟩ |
    ⟨hended, hsame⟩
  · rw [hraised]
    trivial
  · rw [hcleans]
    exact ⟨h.job hjob, trivial⟩
  · rw [hcreate] at h
    cases h
  · rw [hsame]
    cases phase with
    | returned result => exact h
    | raised failure | crashed => trivial
    | _ => cases hended

section Runs

variable {a b : Artifact p call} {remote : Remote} {commit : Git.Commit Bytes} {row : PullRequest}
  {s s' : Attempts}

theorem AgainInv.stopped {history : Git.History Bytes} (h : AgainInv b remote history row s)
    {outcome : Outcome} (houtcome : ∀ time, outcome ≠ .succeeds time) :
    AgainInv b remote history row
      { s with world := (advance p call s.world outcome s.phase).1
               phase := (advance p call s.world outcome s.phase).2 } := by
  have hstops : Stops s.world s.phase (advance p call s.world outcome s.phase) := stops _ _ houtcome
  refine ⟨hstops.remote.trans h.remote, ?_, h.phase.stops hstops, h.pushes⟩
  rw [hstops.bundles]
  exact h.bundle

theorem againInv_step (hkept : a.Kept) (hsettled : Settled a remote commit row) (hab : Alike a b)
    (h : AgainInv b remote (commit :: a.main) row s) {act : Act} (hown : act.own = true)
    (hstep : attemptStep p call s act = some s') : AgainInv b remote (commit :: a.main) row s' := by
  have hsettled' : Settled a s.world.remote commit row := h.remote ▸ hsettled
  have hrefused := h.phase.push_refused
  have hgoes : ∀ time, GoesAgain b (commit :: a.main) row s.world s.phase
      (advance p call s.world (.succeeds time) s.phase) :=
    fun time ↦ goesAgain hkept hsettled' hab h.bundle h.phase
  cases act with
  | retry left =>
    obtain rfl := Option.some.inj hstep
    refine ⟨(abandon_remote _ _ _ _).trans h.remote, ?_, trivial, h.pushes⟩
    rw [abandon_bundles]
    exact h.bundle
  | succeeds time =>
    obtain rfl := Option.some.inj hstep
    refine ⟨(hgoes time).remote.trans h.remote, ?_,
      (hgoes time).stands, by rw [Attempts.go, hrefused, h.pushes]; rfl⟩
    rw [Attempts.go, (hgoes time).bundles]
    exact h.bundle
  | fails left =>
    obtain rfl := Option.some.inj hstep
    exact h.stopped (by simp)
  | garbled =>
    obtain rfl := Option.some.inj hstep
    exact h.stopped (by simp)
  | lost time left =>
    obtain rfl := Option.some.inj hstep
    have hstops : Stops (advance p call s.world (.succeeds time) s.phase).1 s.phase
      (advance p call (advance p call s.world (.succeeds time) s.phase).1 (.fails left) s.phase) :=
      stops _ _ (by simp)
    refine ⟨hstops.remote.trans ((hgoes time).remote.trans h.remote), ?_, h.phase.stops hstops,
      by rw [Attempts.go, hrefused, h.pushes]; rfl⟩
    rw [Attempts.go, hstops.bundles, (hgoes time).bundles]
    exact h.bundle
  | others world => cases hown

theorem againInv_run (hkept : a.Kept) (hsettled : Settled a remote commit row) (hab : Alike a b)
    {acts : List Act} (h : AgainInv b remote (commit :: a.main) row s)
    (hown : ∀ act ∈ acts, act.own = true)
    (hexec : Runs.exec (attemptStep p call) s acts = some s') :
    AgainInv b remote (commit :: a.main) row s' := by
  induction acts generalizing s with
  | nil => exact Option.some.inj hexec ▸ h
  | cons act acts ih =>
    obtain ⟨u, hstep, hrest⟩ := Runs.exec_cons.mp hexec
    have hu := againInv_step hkept hsettled hab h (hown act List.mem_cons_self) hstep
    exact ih hu (fun later hlater ↦ hown later (List.mem_cons_of_mem act hlater)) hrest

theorem again_returns (hkept : a.Kept) (hsettled : Settled a remote commit row) (hab : Alike a b)
    {acts : List Act} (h : AgainInv b remote (commit :: a.main) row s) (hfailed : ¬ s.phase.failed)
    (hcommands : ∀ act ∈ acts, act.isCommand = true)
    (hexec : Runs.exec (attemptStep p call) s acts = some s') :
    ¬ s'.phase.failed ∧ s'.phase.left ≤ s.phase.left - acts.length := by
  induction acts generalizing s with
  | nil =>
    obtain rfl := Option.some.inj hexec
    exact ⟨hfailed, le_rfl⟩
  | cons act acts ih =>
    obtain ⟨u, hstep, hrest⟩ := Runs.exec_cons.mp hexec
    have hcommand := hcommands act List.mem_cons_self
    cases act with
    | succeeds time =>
      have hu := againInv_step hkept hsettled hab h rfl hstep
      obtain rfl := Option.some.inj hstep
      have hsettled' : Settled a s.world.remote commit row := h.remote ▸ hsettled
      have hgoes : GoesAgain b (commit :: a.main) row s.world s.phase
          (advance p call s.world (.succeeds time) s.phase) :=
        goesAgain hkept hsettled' hab h.bundle h.phase
      obtain ⟨hfine, hleft⟩ := ih hu (fun hbad ↦ hfailed (hgoes.failed hbad))
        (fun later hlater ↦ hcommands later (List.mem_cons_of_mem _ hlater)) hrest
      have hnext : (s.go call (advance p call s.world (.succeeds time) s.phase)).phase.left ≤
          s.phase.left - 1 :=
        hgoes.left
      refine ⟨hfine, ?_⟩
      rw [List.length_cons]
      omega
    | retry | fails | garbled | lost | others => cases hcommand

end Runs

theorem AgainAt.ended {b : Artifact p call} {history : Git.History Bytes} {row : PullRequest}
    {w : World} {phase : Phase} (h : AgainAt b history row w phase) (hfailed : ¬ phase.failed)
    (hleft : phase.left = 0) :
    ∃ result, phase = .returned result ∧ Repeats b row result ∧
      result.artifactHash = b.job.artifactHash := by
  cases phase with
  | returned result => exact ⟨result, rfl, h⟩
  | raised failure | crashed => exact absurd trivial hfailed
  | start | authenticate | lookUp | inspect | clearBranch | cloneBranch | fetchMain | diffBranch | checkBranch
  | cleanUp => cases hleft
  | _ => cases h

/-- An export into the directory that a publisher reads. -/
def World.export (w : World) (root : String) (e : ExportFunctions) (ledger : LedgerExport) :
    World :=
  { w with bundles :=
      Function.update w.bundles root (exported e none ledger (w.bundles root)).2.target }

theorem export_bundle {a : Artifact p call} (h : Exports e ledger a) (w : World) (root : String) :
    (w.export root e ledger).bundles root = some a.bundle := by
  have hvalid : validatePublicationBundle e.toBundleFunctions (stagedBundle e ledger) =
      .ok a.manifest := by
    rw [h.functions, ← h.bundle]
    exact a.valid
  have hset : (w.export root e ledger).bundles root =
      (exported e none ledger (w.bundles root)).2.target :=
    Function.update_self _ _ _
  rw [hset, exported_undisturbed _ hvalid, h.bundle]

theorem settled_of_returned {a : Artifact p call} {s : Attempts} (h : AttemptsInv a s)
    {result : PublishResult} (hresult : s.phase = .returned result) :
    ∃ commit row, Settled a s.world.remote commit row ∧
      result.branch = a.job.branch ∧ result.pullRequestNumber = row.number ∧
      result.pullRequestUrl = row.url ∧
      result.artifactHash = a.job.artifactHash := by
  have hphase := h.ok.phase
  rw [hresult] at hphase
  obtain ⟨⟨row, hrow, hdraft, hbranch, hnumber, hurl, -, -⟩, hhash⟩ := hphase
  rcases h.ok.reached.stage with ⟨-, hnil⟩ | ⟨⟨hcommittable, commit, hstored, htree⟩, -⟩
  · cases hnil.symm.trans hrow
  · exact ⟨commit, row, ⟨h.ok.reached.main, hcommittable, hstored, htree, hrow, hdraft⟩, hbranch,
      hnumber, hurl, hhash⟩

/-- Once a ledger has been exported and published, with however many attempts, an export of the
same ledger at another time and however many attempts at publishing it change nothing in the
downstream repository. Each of them that comes to its end returns the pull request that is there,
and ten operations that succeed bring it there. -/
theorem republication_changes_nothing (e : ExportFunctions) (ledger : LedgerExport)
    (later : Datetime) (p : Publisher) (call : PublishCall) (first again : Artifact p call)
    (hfirst : Exports e ledger first)
    (hagain : Exports e { ledger with generatedAt := later } again)
    (hmain : again.main = first.main)
    (hgithub : HasGithubUrls p) (hkept : first.Kept) (w : World)
    (hw : first.Unpublished (w.export call.bundleRoot e ledger))
    (acts : List Act) (s : Attempts)
    (hfair :
      ∀ u act, Runs.Takes (attemptStep p call) (.first (w.export call.bundleRoot e ledger))
        acts u act →
      act.Fair first u)
    (hexec : Runs.exec (attemptStep p call) (.first (w.export call.bundleRoot e ledger)) acts =
      some s)
    (result : PublishResult) (hresult : s.phase = .returned result) (more : List Act)
    (s' : Attempts)
    (hown : ∀ act ∈ more, act.own = true)
    (hmore : Runs.exec (attemptStep p call)
      (.first (s.world.export call.bundleRoot e { ledger with generatedAt := later })) more =
        some s') :
    s'.world.remote = s.world.remote ∧ s'.pushes = 0 ∧
    (∀ result', s'.phase = .returned result' → result'.branch = result.branch ∧
      result'.pullRequestNumber = result.pullRequestNumber ∧
      result'.pullRequestUrl = result.pullRequestUrl ∧
      result'.artifactHash = result.artifactHash ∧ result'.duplicate = true) ∧
    ∀ before left rest, more = before ++ .retry left :: rest →
      (∀ act ∈ rest, act.isCommand = true) → 10 ≤ rest.length →
      ∃ result', s'.phase = .returned result' := by
  have hab : Alike first again := hfirst.alike hagain hmain
  have hinv : AttemptsInv first s :=
    Runs.visits_invariant (AttemptsInv first) (attemptsInv_first hw)
      (fun u act v htakes hu hv ↦ attemptsInv_step hgithub hkept hu (hfair u act htakes) hv) s
        (Runs.visits_end hexec)
  obtain ⟨commit, row, hsettled, hbranch, hnumber, hurl, hhash⟩ := settled_of_returned hinv hresult
  have hstart : AgainInv again s.world.remote (commit :: first.main) row
      (.first (s.world.export call.bundleRoot e { ledger with generatedAt := later })) :=
    ⟨rfl, export_bundle hagain s.world call.bundleRoot, trivial, rfl⟩
  have hend := againInv_run hkept hsettled hab hstart hown hmore
  refine ⟨hend.remote, hend.pushes,
    fun result' hreturned ↦ ?_, fun before left rest hmoreIs hcommands hcount ↦ ?_⟩
  · have hphase := hend.phase
    rw [hreturned] at hphase
    obtain ⟨hrepeats, hsameHash⟩ := hphase
    exact ⟨hrepeats.branch.trans (hab.branch.trans hbranch.symm),
      hrepeats.number.trans hnumber.symm, hrepeats.url.trans hurl.symm,
      hsameHash.trans (hab.hash.trans hhash.symm), hrepeats.duplicate⟩
  · subst hmoreIs
    obtain ⟨u, hu, hlast⟩ := Runs.exec_append.mp hmore
    obtain ⟨v, hretry, hrest⟩ := Runs.exec_cons.mp hlast
    have hbefore :=
      againInv_run hkept hsettled hab hstart
      (fun act hact ↦ hown act (List.mem_append_left _ hact)) hu
    have hv := againInv_step hkept hsettled hab hbefore rfl hretry
    obtain rfl := Option.some.inj hretry
    obtain ⟨hfine, hleft⟩ := again_returns hkept hsettled hab hv id hcommands hrest
    have hzero : s'.phase.left = 0 := by
      have hstarts : Phase.start.left = 10 := rfl
      simp only [hstarts] at hleft
      omega
    obtain ⟨result', hreturned, -⟩ := hend.phase.ended hfine hzero
    exact ⟨result', hreturned⟩

def noon : Datetime where
  date := sampleDay
  microseconds := 43200000000

def noonManifest : PublicationManifest := { emptyManifest with generatedAt := noon }

def noonManifestText : Bytes :=
  [ "\x7b\n  \"generated_at\": \"2026-01-01T12:00:00Z\",\n  \"methodology_version\": \"ASI-1.0\",\n",
    "  \"taxonomy_version\": \"ASI-TAXONOMY-1.1\",\n  \"source_ledger_version\": \"sqlite-schema-1\",\n",
    "  \"content_count\": 0,\n  \"confirmed_change_count\": 0,\n  \"pending_review_count\": 0,\n",
    "  \"files\": [\n    \x7b\n      \"path\": \"data/ledger.json\",\n      \"sha256\": ",
    "\"bb36565c88fb295f56f3ad1afb795c2e3dcfba89cb51ad5ff32df1d839e2b857\",\n",
    "      \"size_bytes\": 297\n    \x7d\n  ]\n\x7d\n" ].flatMap encodeUtf8

def emptyLine : Bytes :=
  encodeUtf8 "data/ledger.json:bb36565c88fb295f56f3ad1afb795c2e3dcfba89cb51ad5ff32df1d839e2b857"

def twiceFunctions : ExportFunctions where
  sha256 content :=
    if content = emptyLedgerText then emptyLedgerHash
    else if content = emptyLine then
      { text := "9fa1eb2580428b90fc23e60ad8bb97f52c198d44b83cbe0b230bac0118e4269e" }
    else zeroHash
  parseManifest raw :=
    if raw = emptyManifestText then .ok emptyManifest
    else if raw = noonManifestText then .ok noonManifest
    else .error "Invalid JSON"
  scanPublicFile _ _ := .ok ()
  dumpManifest manifest :=
    if manifest = emptyManifest then emptyManifestText
    else if manifest = noonManifest then noonManifestText
    else []

def twicePublisher : Publisher :=
  { ledgerPublisher with toBundleFunctions := twiceFunctions.toBundleFunctions }

def Artifact.rebundled {p : Publisher} {call : PublishCall} (a : Artifact p call) (q : Publisher)
    (bundle : Directory) (manifest : PublicationManifest)
    (valid : validatePublicationBundle q.toBundleFunctions bundle = .ok manifest) :
    Artifact q call :=
  { bundle, manifest, valid, nonempty := a.nonempty, characters := a.characters, hyphen := a.hyphen,
    main := a.main }

theorem Artifact.rebundled_main {p q : Publisher} {call : PublishCall} (a : Artifact p call)
    {bundle : Directory} {manifest : PublicationManifest}
    (h : validatePublicationBundle q.toBundleFunctions bundle = .ok manifest) :
    (a.rebundled q bundle manifest h).main = a.main := rfl

def morningArtifact : Artifact twicePublisher publishCall :=
  (ledgerArtifact ledgerWorld.remote.main).rebundled twicePublisher
    (stagedBundle twiceFunctions emptyLedger)
    emptyManifest (by decide +kernel)

def noonArtifact : Artifact twicePublisher publishCall :=
  (ledgerArtifact ledgerWorld.remote.main).rebundled twicePublisher
    (stagedBundle twiceFunctions { emptyLedger with generatedAt := noon }) noonManifest
      (by decide +kernel)

theorem exec_attempts (p : Publisher) (call : PublishCall) (s : Attempts) (acts : List Act) :
    ∃ s', Runs.exec (attemptStep p call) s acts = some s' := by
  induction acts generalizing s with
  | nil => exact ⟨s, rfl⟩
  | cons act acts ih =>
    obtain ⟨u, hstep⟩ : ∃ u, attemptStep p call s act = some u := by cases act <;> exact ⟨_, rfl⟩
    obtain ⟨s', hs'⟩ := ih u
    exact ⟨s', Runs.exec_cons.mpr ⟨u, hstep, hs'⟩⟩

theorem republication_changes_nothing_atNoon :
    ∃ (s s' : Attempts) (result result' : PublishResult), s.phase = .returned result ∧
      s'.phase = .returned result' ∧
      Runs.exec (attemptStep twicePublisher publishCall)
        (.first (s.world.export publishCall.bundleRoot twiceFunctions
          { emptyLedger with generatedAt := noon }))
        (.retry none :: List.replicate 10 (.succeeds 2)) = some s' ∧
      s'.world.remote = s.world.remote ∧ result'.pullRequestNumber = result.pullRequestNumber := by
  have hfirst : Exports twiceFunctions emptyLedger morningArtifact := ⟨rfl, rfl, by decide +kernel⟩
  have hagain : Exports twiceFunctions { emptyLedger with generatedAt := noon } noonArtifact :=
    ⟨rfl, rfl, by decide +kernel⟩
  have hmain : noonArtifact.main = morningArtifact.main :=
    (Artifact.rebundled_main ..).trans (Artifact.rebundled_main ..).symm
  have hgithub : HasGithubUrls twicePublisher := ledgerPublisher_urls
  have hkept : morningArtifact.Kept :=
    ⟨Git.Settings.plain_storesAll _ _, fun _ _ _ ↦ rfl, by decide +kernel⟩
  have hunpublished :
      morningArtifact.Unpublished
      (ledgerWorld.export publishCall.bundleRoot twiceFunctions emptyLedger) :=
    ⟨rfl, export_bundle hfirst ledgerWorld _, rfl, nofun, le_rfl⟩
  have hfair : ∀ u act, Runs.Takes (attemptStep twicePublisher publishCall)
      (.first (ledgerWorld.export publishCall.bundleRoot twiceFunctions emptyLedger))
        (List.replicate 20 (.succeeds 1)) u
      act → act.Fair morningArtifact u := by
    rintro u act ⟨pre, hpre, -⟩
    rw [List.eq_of_mem_replicate
      (hpre.subset (List.mem_append_right pre (List.mem_singleton_self act)))]
    trivial
  obtain ⟨s, hs⟩ := exec_attempts twicePublisher publishCall
    (.first (ledgerWorld.export publishCall.bundleRoot twiceFunctions emptyLedger))
      (List.replicate 20 (.succeeds 1))
  obtain ⟨hinv, htrack, hrank⟩ :=
    uninterrupted_run hgithub hkept (attemptsInv_first hunpublished) trivial (by decide) hfair hs
  have hcommittable : morningArtifact.Committable := by decide +kernel
  have hzero : s.phase.rank = 0 := Nat.le_zero.mp hrank
  obtain ⟨result, hresult, -⟩ :=
    (hinv.ended htrack hzero).resolve_right fun hnot ↦ hnot.1 hcommittable
  obtain ⟨s', hs'⟩ := exec_attempts twicePublisher publishCall
    (.first (s.world.export publishCall.bundleRoot twiceFunctions
      { emptyLedger with generatedAt := noon }))
    (.retry none :: List.replicate 10 (.succeeds 2))
  obtain ⟨hremote, -, hnames, hreturns⟩ :=
    republication_changes_nothing twiceFunctions emptyLedger noon twicePublisher
    publishCall morningArtifact noonArtifact hfirst hagain hmain hgithub hkept ledgerWorld
      hunpublished _ s hfair hs result hresult
    (.retry none :: List.replicate 10 (.succeeds 2)) s' (by decide) hs'
  obtain ⟨result', hresult'⟩ :=
    hreturns [] none (List.replicate 10 (.succeeds 2)) rfl (by decide) le_rfl
  exact ⟨s, s', result, result', hresult, hresult', hs', hremote, (hnames result' hresult').2.1⟩

end AgenticSecurity.Publishing
