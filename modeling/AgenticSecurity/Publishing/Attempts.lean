import AgenticSecurity.Publishing.Publication

namespace AgenticSecurity.Publishing

open Library Models Python

variable {p : Publisher} {call : PublishCall}

/-- The diff that a commit is made of: something changes, all of it under
`publication/`, and no database. -/
def committable (paths : List (List Char)) : Bool :=
  paths ≠ [] && paths.all fun path ↦ inPublication path && !isDatabase path

theorem committable_staged {paths : List (List Char)} :
    (paths = [] ∨ paths.any (fun path ↦ ¬ inPublication path || isDatabase path) = true) ↔
      committable paths = false := by
  rw [← Bool.not_eq_true, committable, Bool.and_eq_true, not_and_or, decide_eq_true_eq, not_not,
    List.any_eq_true, List.all_eq_true]
  simp [imp_iff_not_or]

theorem committable_branch {paths : List (List Char)} (h : committable paths = true) :
    ¬ (paths = [] ∨ paths.any (fun path ↦ ¬ inPublication path) = true) := by
  rw [committable, Bool.and_eq_true, List.all_eq_true] at h
  rintro (hnil | hany)
  · simp [hnil] at h
  · obtain ⟨path, hpath, hout⟩ := List.any_eq_true.mp hany
    have hin := h.2 path hpath
    simp_all

/-- A valid bundle, with an artifact type that a branch can be named after, and the
main branch that it is published against. -/
structure Artifact (p : Publisher) (call : PublishCall) where
  bundle : Directory
  manifest : PublicationManifest
  valid : validatePublicationBundle p.toBundleFunctions bundle = .ok manifest
  nonempty : call.artifactType ≠ []
  characters : ∀ c ∈ call.artifactType, artifactTypeCharacter c = true
  hyphen : call.artifactType.head? ≠ some '-'
  main : Git.History Bytes

namespace Artifact

variable (a : Artifact p call)

def job : Publication where
  manifest := a.manifest
  artifactHash := publicationArtifactHash p.toBundleFunctions a.manifest
  branch := branchName call.artifactType (publicationArtifactHash p.toBundleFunctions a.manifest)

def tree : Git.Tree Bytes := a.main.tree.withSubtree "publication" a.bundle

def changed : List (List Char) := listedPaths p (p.git.diff a.main.tree a.tree)

def Committable : Prop := committable a.changed = true

instance : Decidable a.Committable := inferInstanceAs (Decidable (_ = true))

structure View where
  main : Git.History Bytes
  branch : Option (Git.History Bytes)
  pullRequests : List PullRequest
  bundle : Option Directory
  worktree : Option (Git.Worktree Bytes)

def view (w : World) : View where
  main := w.remote.main
  branch := w.remote.branches a.job.branch
  pullRequests := w.remote.pullRequests.filter fun row ↦ row.headRefName = a.job.branch
  bundle := w.bundles call.bundleRoot
  worktree := w.worktrees (call.key a.job)

theorem view_setWorktree (w : World) (worktree : Option (Git.Worktree Bytes)) :
    a.view (w.setWorktree (call.key a.job) worktree) = { a.view w with worktree } := by
  simp [view, World.setWorktree]

/-- The pull request that publishing makes. -/
structure Draft (p : Publisher) (row : PullRequest) : Prop where
  isDraft : row.isDraft = true
  isOpen : row.isOpen = true
  base : row.baseRefName = "main"
  positive : 1 ≤ row.number
  url : p.isGithubUrl row.url = true

/-- The branch has one commit on main, with the bundle. -/
def Stored (v : View) : Prop :=
  a.Committable ∧ ∃ commit, v.branch = some (commit :: a.main) ∧ commit.tree = a.tree

def Stage (v : View) : Prop :=
  (v.branch = none ∧ v.pullRequests = []) ∨
    (a.Stored v ∧ (v.pullRequests = [] ∨ ∃ row, v.pullRequests = [row] ∧ Draft p row))

structure Reached (v : View) : Prop where
  main : v.main = a.main
  bundle : v.bundle = some a.bundle
  stage : a.Stage v

/-- The result names the pull request of the branch. -/
def Names (v : View) (result : PublishResult) : Prop :=
  ∃ row, v.pullRequests = [row] ∧ Draft p row ∧ result.branch = a.job.branch ∧
    result.pullRequestNumber = row.number ∧ result.pullRequestUrl = row.url ∧
    result.draft = true ∧ result.baseBranch = "main"

def Looked (v : View) : Option PublishResult → Prop
  | none => v.pullRequests = []
  | some result => a.Names v result

theorem Reached.stored {a : Artifact p call} {v : View} (h : a.Reached v)
    (hbranch : v.branch ≠ none) : a.Stored v := by
  rcases h.stage with ⟨hnone, -⟩ | ⟨hstored, -⟩
  · exact absurd hnone hbranch
  · exact hstored

def cloned : Git.Worktree Bytes := p.git.clone a.main

def cleared : Git.Worktree Bytes :=
  { a.cloned with files := a.cloned.files.withSubtree "publication" [] }

def copied : Git.Worktree Bytes :=
  { a.cloned with files := a.cleared.files.withSubtree "publication" a.bundle }

def staged : Git.Worktree Bytes := { a.copied with index := a.tree }

def committed (stamp : ℕ) : Git.Worktree Bytes :=
  { a.staged with history := { tree := a.tree, stamp } :: a.main }

/-- Git passes over no file of the bundle and changes none, and main has no file in the place
of `publication/`. -/
structure Kept : Prop where
  stores : p.git.StoresAll a.copied "publication"
  writes : p.git.WritesAll a.tree "publication"
  free : a.main.tree.lookup ["publication"] = none

def Working (v : View) (worktree : Git.Worktree Bytes) : Prop :=
  v.branch = none ∧ v.worktree = some worktree

def Cloned (v : View) (originMain : Option (Git.History Bytes)) : Prop :=
  ∃ commit, v.branch = some (commit :: a.main) ∧ commit.tree = a.tree ∧
    v.worktree = some { p.git.clone (commit :: a.main) with originMain }

def EndingAt (v : View) : Ending → Prop
  | .raises _ => True
  | .returns result => a.Names v result ∧ result.artifactHash = a.job.artifactHash
  | .creates => a.Stored v ∧ v.pullRequests = []

def PhaseAt (v : View) : Phase → Prop
  | .start | .raised _ | .crashed => True
  | .authenticate job | .lookUp job => job = a.job
  | .inspect job existing => job = a.job ∧ a.Looked v existing
  | .clearBranch job existing => job = a.job ∧ a.Looked v existing ∧ a.Stored v
  | .cloneBranch job existing => job = a.job ∧ a.Looked v existing ∧ a.Stored v ∧ v.worktree = none
  | .fetchMain job existing => job = a.job ∧ a.Looked v existing ∧ a.Committable ∧ a.Cloned v none
  | .diffBranch job existing | .checkBranch job existing =>
    job = a.job ∧ a.Looked v existing ∧ a.Committable ∧ a.Cloned v (some a.main)
  | .clearMain job => job = a.job ∧ v.branch = none
  | .cloneMain job => job = a.job ∧ v.branch = none ∧ v.worktree = none
  | .checkout job | .clearTarget job => job = a.job ∧ Working v a.cloned
  | .copyTree job => job = a.job ∧ Working v a.cleared
  | .revalidate job | .configureName job | .configureEmail job | .add job =>
    job = a.job ∧ Working v a.copied
  | .diffCached job => job = a.job ∧ Working v a.staged
  | .commit job => job = a.job ∧ a.Committable ∧ Working v a.staged
  | .push job => job = a.job ∧ a.Committable ∧ ∃ stamp, Working v (a.committed stamp)
  | .verify job => job = a.job ∧ a.Stored v ∧ v.pullRequests = [] ∧
      ∃ stamp, v.worktree = some (a.committed stamp)
  | .createPr job fresh =>
    job = a.job ∧ a.Stored v ∧ v.pullRequests = [] ∧ (fresh = true → v.worktree.isSome)
  | .racedPr job _ => job = a.job ∧ a.Stored v
  | .confirmPr job _ => job = a.job ∧ a.Stored v ∧ ∃ row, v.pullRequests = [row] ∧ Draft p row
  | .cleanUp job ending => job = a.job ∧ a.EndingAt v ending
  | .returned result => a.Names v result ∧ result.artifactHash = a.job.artifactHash

structure Ok (w : World) (phase : Phase) : Prop where
  reached : a.Reached (a.view w)
  phase : a.PhaseAt (a.view w) phase
  number : 1 ≤ w.remote.nextNumber

/-- The refusal of a diff that cannot be committed. -/
def refusal : Failure :=
  .publication .publicationValidationFailed "Only validated public bundle files may be committed."

def OnTrack : Phase → Prop
  | .raised failure | .cleanUp _ (.raises failure) => ¬ a.Committable ∧ failure = refusal
  | .crashed | .racedPr _ _ => False
  | _ => True

end Artifact

def Phase.rank : Phase → ℕ
  | .start => 20
  | .authenticate _ => 19
  | .lookUp _ => 18
  | .inspect _ _ => 17
  | .clearMain _ => 16
  | .cloneMain _ => 15
  | .checkout _ => 14
  | .clearTarget _ => 13
  | .copyTree _ => 12
  | .revalidate _ => 11
  | .configureName _ => 10
  | .configureEmail _ | .clearBranch _ _ => 9
  | .add _ | .cloneBranch _ _ => 8
  | .diffCached _ | .fetchMain _ _ => 7
  | .commit _ | .diffBranch _ _ => 6
  | .push _ | .checkBranch _ _ => 5
  | .verify _ | .cleanUp _ .creates => 4
  | .createPr _ _ => 3
  | .racedPr _ _ | .confirmPr _ _ => 2
  | .cleanUp _ (.raises _) | .cleanUp _ (.returns _) => 1
  | .returned _ | .raised _ | .crashed => 0

def acceptsPush (call : PublishCall) (w : World) : Phase → Bool
  | .push job => (w.worktrees (call.key job)).any fun worktree ↦
      worktree.isRepository && (Git.push (w.remote.branches job.branch) worktree.history).isSome
  | _ => false

structure Goes (a : Artifact p call) (w : World) (phase : Phase) (next : World × Phase) : Prop where
  ok : a.Ok next.1 next.2
  branch : (a.view next.1).branch.isSome.toNat =
    (a.view w).branch.isSome.toNat + (acceptsPush call w phase).toNat
  onTrack : a.OnTrack phase → a.OnTrack next.2
  rank : next.2.rank ≤ phase.rank - 1

variable {a : Artifact p call} {w : World} {phase phase' : Phase} {time : ℕ}

theorem Goes.same (h : a.Ok w phase) (hphase : a.PhaseAt (a.view w) phase')
    (hpush : acceptsPush call w phase = false) (htrack : a.OnTrack phase → a.OnTrack phase')
    (hrank : phase'.rank ≤ phase.rank - 1) : Goes a w phase (w, phase') :=
  ⟨⟨h.reached, hphase, h.number⟩, by simp [hpush], htrack, hrank⟩

theorem Goes.worktree {worktree : Option (Git.Worktree Bytes)} (h : a.Ok w phase)
    (hphase : a.PhaseAt { a.view w with worktree } phase')
    (hpush : acceptsPush call w phase = false) (htrack : a.OnTrack phase → a.OnTrack phase')
    (hrank : phase'.rank ≤ phase.rank - 1) :
    Goes a w phase (w.setWorktree (call.key a.job) worktree, phase') where
  ok :=
    { reached := by
        rw [a.view_setWorktree]
        exact ⟨h.reached.main, h.reached.bundle, h.reached.stage⟩
      phase := by rwa [a.view_setWorktree]
      number := h.number }
  branch := by rw [a.view_setWorktree, hpush]; rfl
  onTrack := htrack
  rank := hrank

theorem existingPr_none {branch : Branch}
    (h : w.remote.pullRequests.filter (fun row ↦ row.headRefName = branch) = []) :
    existingPr p (w.listed branch (.succeeds time)) branch = .ok none := by
  rw [World.listed, h]
  rfl

theorem artifactTypeCharacter_pattern {c : Char} (h : artifactTypeCharacter c = true) :
    (c.isLower || c.isDigit || decide (c = '-')) = true := by
  have hall : ∀ c ∈ "abcdefghijklmnopqrstuvwxyz0123456789-".toList,
      (c.isLower || c.isDigit || decide (c = '-')) = true := forall_mem_of_all (by decide +kernel)
  exact hall c (of_decide_eq_true h)

theorem hexCharacter_pattern {c : Char}
    (h : (c.isDigit || decide ('a' ≤ c) && decide (c ≤ 'f')) = true) :
    (c.isLower || c.isDigit || decide (c = '-')) = true := by
  rcases Bool.or_eq_true_iff.mp h with hdigit | hletter
  · simp [hdigit]
  · have hlower : c.isLower = true := by
      rw [Bool.and_eq_true, decide_eq_true_eq, decide_eq_true_eq] at hletter
      exact isLower_iff.mpr ⟨hletter.1, hletter.2.trans (by decide)⟩
    simp [hlower]

theorem Artifact.digits (a : Artifact p call) :
    (a.job.artifactHash.text.toList.take 16).length = 16 ∧
      ∀ c ∈ a.job.artifactHash.text.toList.take 16,
        (c.isDigit || decide ('a' ≤ c) && decide (c ≤ 'f')) = true := by
  have hpattern := a.job.artifactHash.pattern
  refine ⟨?_, fun c hc ↦ List.all_eq_true.mp hpattern.2 c (List.mem_of_mem_take hc)⟩
  rw [List.length_take, String.length_toList, hpattern.1]
  rfl

theorem Artifact.afterLast_branch (a : Artifact p call) :
    afterLast '-' a.job.branch = a.job.artifactHash.text.toList.take 16 := by
  have hhyphen : '-' ∉ a.job.artifactHash.text.toList.take 16 := fun h ↦ by
    simpa using a.digits.2 '-' h
  exact afterLast_append hhyphen

theorem Artifact.matchesBranch (a : Artifact p call) : matchesBranch a.job.branch = true := by
  have hnonempty := a.nonempty
  have hcharacters := a.characters
  have hhyphen := a.hyphen
  have hbranch : a.job.branch =
    "asi/".toList ++ call.artifactType ++ '-' :: a.job.artifactHash.text.toList.take 16 := rfl
  rw [hbranch]
  cases htype : call.artifactType with
  | nil => exact absurd htype hnonempty
  | cons first rest =>
    rw [htype] at hcharacters hhyphen
    have hfirst := artifactTypeCharacter_pattern (hcharacters first List.mem_cons_self)
    have hne : first ≠ '-' := fun he ↦ hhyphen (he ▸ rfl)
    rw [decide_eq_false hne, Bool.or_false] at hfirst
    change ((first.isLower || first.isDigit) && (rest ++ '-' :: _).all _) = true
    rw [hfirst, Bool.true_and, List.all_append, List.all_cons, Bool.and_eq_true, Bool.and_eq_true]
    refine ⟨List.all_eq_true.mpr fun c hc ↦ ?_, rfl, List.all_eq_true.mpr fun c hc ↦ ?_⟩
    · exact artifactTypeCharacter_pattern (hcharacters c (List.mem_cons_of_mem first hc))
    · exact hexCharacter_pattern (a.digits.2 c hc)

theorem Artifact.isDigest (a : Artifact p call) : isDigest (paddedDigits a.job.branch) = true := by
  rw [paddedDigits, a.afterLast_branch, Publishing.isDigest, List.length_append,
    List.length_replicate, a.digits.1, List.all_append, List.all_replicate]
  simp only [Bool.and_eq_true]
  exact ⟨rfl, rfl, List.all_eq_true.mpr a.digits.2⟩

theorem Artifact.existingPr_some (a : Artifact p call) {row : PullRequest}
    (hrow : (a.view w).pullRequests = [row]) (hdraft : Draft p row) :
    ∃ result, existingPr p (w.listed a.job.branch (.succeeds time)) a.job.branch =
      .ok (some result) ∧
      a.Names (a.view w) result := by
  have hfilter : w.remote.pullRequests.filter (fun row ↦ row.headRefName = a.job.branch) =
      [row] := hrow
  have hmem : row ∈ w.remote.pullRequests.filter fun row ↦ row.headRefName = a.job.branch :=
    hfilter ▸ List.mem_singleton_self row
  have hhead : row.headRefName = a.job.branch := by simpa using (List.mem_filter.mp hmem).2
  have hlength : ¬ (afterLast '-' a.job.branch).length ≠ 16 := by
    rw [a.afterLast_branch]
    exact not_not.mpr a.digits.1
  have hmatches :
      ¬ (row.headRefName ≠ a.job.branch ∨ row.baseRefName ≠ "main" ∨ row.isDraft = false) := by
    simp [hhead, hdraft.base, hdraft.isDraft]
  let result : PublishResult :=
    { repository := p.repository, branch := a.job.branch, branchPattern := a.matchesBranch,
      artifactHash := digest _ a.isDigest, pullRequestNumber := row.number,
      positive := hdraft.positive,
      pullRequestUrl := row.url, duplicate := true }
  refine ⟨result, ?_, row, hrow, hdraft, rfl, rfl, rfl, rfl, rfl⟩
  rw [World.listed, hfilter, existingPr]
  rw [if_neg hmatches, if_neg hlength,
    dif_pos ⟨hdraft.url, a.matchesBranch, hdraft.positive, a.isDigest⟩]

theorem goes_start (h : a.Ok w .start) :
    Goes a w .start (advance p call w (.succeeds time) .start) := by
  have hcharacters : ¬ (call.artifactType = [] ∨
      call.artifactType.any (fun c ↦ ¬ artifactTypeCharacter c) = true) := by
    rintro (hnil | hany)
    · exact a.nonempty hnil
    · obtain ⟨c, hc, hout⟩ := List.any_eq_true.mp hany
      simp [a.characters c hc] at hout
  have hbundle : w.bundles call.bundleRoot = some a.bundle := h.reached.bundle
  have hnext : advance p call w (.succeeds time) .start = (w, .authenticate a.job) := by
    unfold advance
    simp only [if_neg hcharacters, hbundle, Option.getD_some, a.valid]
    rfl
  rw [hnext]
  exact .same h rfl rfl (fun _ ↦ trivial) (by simp [Phase.rank])

theorem goes_authenticate {job : Publication} (h : a.Ok w (.authenticate job)) :
    Goes a w (.authenticate job) (advance p call w (.succeeds time) (.authenticate job)) :=
  .same h h.phase rfl (fun _ ↦ trivial) le_rfl

theorem goes_lookUp {job : Publication} (h : a.Ok w (.lookUp job)) :
    Goes a w (.lookUp job) (advance p call w (.succeeds time) (.lookUp job)) := by
  obtain rfl : job = a.job := h.phase
  have hfound :
      ∃ existing, existingPr p (w.listed a.job.branch (.succeeds time)) a.job.branch =
      .ok existing ∧
      a.Looked (a.view w) existing := by
    rcases h.reached.stage with ⟨-, hnone⟩ | ⟨-, hnone | ⟨row, hrow, hdraft⟩⟩
    · exact ⟨none, existingPr_none hnone, hnone⟩
    · exact ⟨none, existingPr_none hnone, hnone⟩
    · obtain ⟨result, hresult, hnames⟩ := a.existingPr_some hrow hdraft
      exact ⟨some result, hresult, hnames⟩
  obtain ⟨existing, hexisting, hlooked⟩ := hfound
  have hnext : advance p call w (.succeeds time) (.lookUp a.job) =
      (w, .inspect a.job existing) := by
    unfold advance
    simp only [hexisting]
  rw [hnext]
  exact .same h ⟨rfl, hlooked⟩ rfl (fun _ ↦ trivial) le_rfl

theorem goes_inspect {job : Publication} {existing : Option PublishResult}
    (h : a.Ok w (.inspect job existing)) :
    Goes a w (.inspect job existing)
      (advance p call w (.succeeds time) (.inspect job existing)) := by
  obtain ⟨rfl, hlooked⟩ := h.phase
  cases hbranch : w.remote.branches a.job.branch with
  | some history =>
    have hnext : advance p call w (.succeeds time) (.inspect a.job existing) =
        (w, .clearBranch a.job existing) := by
      unfold advance
      simp [hbranch]
    have hstored : a.Stored (a.view w) := h.reached.stored fun hnone ↦ by
      rw [Artifact.view, hbranch] at hnone
      cases hnone
    rw [hnext]
    exact .same h ⟨rfl, hlooked, hstored⟩ rfl (fun _ ↦ trivial) (by simp [Phase.rank])
  | none =>
    -- without the branch there is no pull request of it
    have hnone : existing = none := by
      rcases h.reached.stage with ⟨-, hnil⟩ | ⟨⟨-, commit, hsome, -⟩, -⟩
      · cases existing with
        | none => rfl
        | some result =>
          obtain ⟨row, hrow, -⟩ := hlooked
          rw [hnil] at hrow
          cases hrow
      · have hnot : some (commit :: a.main) = none := hsome.symm.trans hbranch
        cases hnot
    subst hnone
    have hnext : advance p call w (.succeeds time) (.inspect a.job none) =
        (w, .clearMain a.job) := by
      unfold advance
      simp [hbranch]
    rw [hnext]
    exact .same h ⟨rfl, hbranch⟩ rfl (fun _ ↦ trivial) le_rfl

theorem goes_clearBranch {job : Publication} {existing : Option PublishResult}
    (h : a.Ok w (.clearBranch job existing)) :
    Goes a w (.clearBranch job existing)
      (advance p call w (.succeeds time) (.clearBranch job existing)) := by
  obtain ⟨rfl, hlooked, hstored⟩ := h.phase
  exact .worktree h ⟨rfl, by cases existing <;> exact hlooked, hstored, rfl⟩ rfl
    (fun _ ↦ trivial) le_rfl

theorem goes_cloneBranch {job : Publication} {existing : Option PublishResult}
    (h : a.Ok w (.cloneBranch job existing)) :
    Goes a w (.cloneBranch job existing)
      (advance p call w (.succeeds time) (.cloneBranch job existing)) := by
  obtain ⟨rfl, hlooked, ⟨hcommittable, commit, hbranch, htree⟩, hworktree⟩ := h.phase
  have hhistory : w.remote.branches a.job.branch = some (commit :: a.main) := hbranch
  have hnone : w.worktrees (call.key a.job) = none := hworktree
  have hnext : advance p call w (.succeeds time) (.cloneBranch a.job existing) =
      (w.setWorktree (call.key a.job) (some (p.git.clone (commit :: a.main))),
        .fetchMain a.job existing) := by
    unfold advance
    simp only [hhistory, hnone]
  rw [hnext]
  exact .worktree h
    ⟨rfl, by cases existing <;> exact hlooked, hcommittable, commit, hbranch, htree, rfl⟩ rfl
    (fun _ ↦ trivial) le_rfl

theorem inWorktree_succeeds {job : Publication} {worktree : Git.Worktree Bytes} {failure : Failure}
    {command : Git.Worktree Bytes → ℕ → Option (World × Phase)} {next : World × Phase}
    (hworktree : w.worktrees (call.key job) = some worktree)
    (hrepository : worktree.isRepository = true)
    (hcommand : command worktree time = some next) :
    inWorktree call job w (.succeeds time) failure command = next := by
  simp [inWorktree, hworktree, hrepository, hcommand]

theorem goes_fetchMain {job : Publication} {existing : Option PublishResult}
    (h : a.Ok w (.fetchMain job existing)) :
    Goes a w (.fetchMain job existing)
      (advance p call w (.succeeds time) (.fetchMain job existing)) := by
  obtain ⟨rfl, hlooked, hcommittable, commit, hbranch, htree, hworktree⟩ := h.phase
  have hmain : w.remote.main = a.main := h.reached.main
  have hnext : advance p call w (.succeeds time) (.fetchMain a.job existing) =
      (w.setWorktree (call.key a.job)
        (some { p.git.clone (commit :: a.main) with originMain := some w.remote.main }),
        .diffBranch a.job existing) :=
    inWorktree_succeeds hworktree rfl rfl
  rw [hnext, hmain]
  exact .worktree h
    ⟨rfl, by cases existing <;> exact hlooked, hcommittable, commit, hbranch, htree, rfl⟩ rfl
    (fun _ ↦ trivial) le_rfl

theorem goes_diffBranch {job : Publication} {existing : Option PublishResult}
    (h : a.Ok w (.diffBranch job existing)) :
    Goes a w (.diffBranch job existing)
      (advance p call w (.succeeds time) (.diffBranch job existing)) := by
  obtain ⟨rfl, hlooked, hcommittable, commit, hbranch, htree, hworktree⟩ := h.phase
  have hscope : listedPaths p (p.git.diff (p.git.mergeBase a.main (commit :: a.main)).tree
      (Git.History.tree (commit :: a.main))) = a.changed := by
    rw [p.git.mergeBase_cons, Git.History.tree_cons, htree]
    rfl
  have hnext : advance p call w (.succeeds time) (.diffBranch a.job existing) =
      (w, .checkBranch a.job existing) := by
    refine inWorktree_succeeds hworktree rfl ?_
    dsimp only [Option.map_some, Git.Settings.clone]
    rw [hscope, if_neg (committable_branch hcommittable)]
  rw [hnext]
  exact .same h ⟨rfl, hlooked, hcommittable, commit, hbranch, htree,
    hworktree⟩ rfl (fun _ ↦ trivial) le_rfl

theorem Artifact.checkRemoteBundle (a : Artifact p call) :
    checkRemoteBundle p a.job a.bundle = none := by
  have hhash : publicationArtifactHash p.toBundleFunctions a.manifest = a.job.artifactHash := rfl
  have hmanifest : { a.manifest with generatedAt := a.job.manifest.generatedAt } =
      a.job.manifest := rfl
  simp only [Publishing.checkRemoteBundle, a.valid, hhash, hmanifest, ne_eq,
    not_true_eq_false, if_false]

theorem Artifact.cloned_publication (hkept : a.Kept) {commit : Git.Commit Bytes}
    (htree : commit.tree = a.tree) {originMain : Option (Git.History Bytes)}
    (hworktree : w.worktrees (call.key a.job) =
      some { p.git.clone (commit :: a.main) with originMain }) :
    w.publication (call.key a.job) = a.bundle := by
  rw [World.publication, hworktree]
  change (p.git.checkout commit.tree).subtree "publication" = a.bundle
  rw [htree, Git.Settings.checkout_subtree hkept.writes]
  exact Git.Tree.subtree_withSubtree _ _ _

theorem goes_checkBranch (hkept : a.Kept) {job : Publication} {existing : Option PublishResult}
    (h : a.Ok w (.checkBranch job existing)) :
    Goes a w (.checkBranch job existing)
      (advance p call w (.succeeds time) (.checkBranch job existing)) := by
  obtain ⟨rfl, hlooked, hcommittable, commit, hbranch, htree, hworktree⟩ := h.phase
  have hpublication := a.cloned_publication hkept htree hworktree
  cases existing with
  | none =>
    have hnext : advance p call w (.succeeds time) (.checkBranch a.job none) =
        (w, .cleanUp a.job .creates) := by
      unfold advance
      dsimp only
      rw [hpublication, a.checkRemoteBundle]
    rw [hnext]
    exact .same h ⟨rfl, ⟨hcommittable, commit, hbranch, htree⟩,
      hlooked⟩ rfl (fun _ ↦ trivial) le_rfl
  | some result =>
    have hnext : advance p call w (.succeeds time) (.checkBranch a.job (some result)) =
        (w, .cleanUp a.job (.returns (result.withHash a.job.artifactHash result.duplicate))) := by
      unfold advance
      dsimp only
      rw [hpublication, a.checkRemoteBundle]
    rw [hnext]
    exact .same h ⟨rfl, hlooked, rfl⟩ rfl (fun _ ↦ trivial) (by simp [Phase.rank])

theorem goes_clearMain {job : Publication} (h : a.Ok w (.clearMain job)) :
    Goes a w (.clearMain job) (advance p call w (.succeeds time) (.clearMain job)) := by
  obtain ⟨rfl, hbranch⟩ := h.phase
  exact .worktree h ⟨rfl, hbranch, rfl⟩ rfl (fun _ ↦ trivial) le_rfl

theorem goes_cloneMain {job : Publication} (h : a.Ok w (.cloneMain job)) :
    Goes a w (.cloneMain job) (advance p call w (.succeeds time) (.cloneMain job)) := by
  obtain ⟨rfl, hbranch, hworktree⟩ := h.phase
  have hmain : w.remote.main = a.main := h.reached.main
  have hnone : w.worktrees (call.key a.job) = none := hworktree
  have hnext : advance p call w (.succeeds time) (.cloneMain a.job) =
      (w.setWorktree (call.key a.job) (some (p.git.clone w.remote.main)), .checkout a.job) := by
    unfold advance
    simp only [hnone]
  rw [hnext, hmain]
  exact .worktree h ⟨rfl, hbranch, rfl⟩ rfl (fun _ ↦ trivial) le_rfl

theorem goes_checkout {job : Publication} (h : a.Ok w (.checkout job)) :
    Goes a w (.checkout job) (advance p call w (.succeeds time) (.checkout job)) := by
  obtain ⟨rfl, hworking⟩ := h.phase
  have hnext : advance p call w (.succeeds time) (.checkout a.job) = (w, .clearTarget a.job) :=
    inWorktree_succeeds hworking.2 rfl rfl
  rw [hnext]
  exact .same h h.phase rfl (fun _ ↦ trivial) le_rfl

theorem Artifact.cloned_free (hkept : a.Kept) : a.cloned.files.lookup ["publication"] = none := by
  have hfree := List.lookup_eq_none_iff.mp hkept.free
  refine List.lookup_eq_none_iff.mpr fun file hfile ↦ ?_
  obtain ⟨stored, hstored, rfl⟩ := List.mem_map.mp hfile
  exact hfree stored hstored

theorem goes_clearTarget (hkept : a.Kept) {job : Publication} (h : a.Ok w (.clearTarget job)) :
    Goes a w (.clearTarget job) (advance p call w (.succeeds time) (.clearTarget job)) := by
  obtain ⟨rfl, hbranch, hworktree⟩ := h.phase
  have hsome : w.worktrees (call.key a.job) = some a.cloned := hworktree
  have hnext : advance p call w (.succeeds time) (.clearTarget a.job) =
      (w.setWorktree (call.key a.job) (some a.cleared), .copyTree a.job) := by
    unfold advance
    simp only [hsome, a.cloned_free hkept]
    rfl
  rw [hnext]
  exact .worktree h ⟨rfl, hbranch, rfl⟩ rfl (fun _ ↦ trivial) le_rfl

theorem goes_copyTree {job : Publication} (h : a.Ok w (.copyTree job)) :
    Goes a w (.copyTree job) (advance p call w (.succeeds time) (.copyTree job)) := by
  obtain ⟨rfl, hbranch, hworktree⟩ := h.phase
  have hbundle : w.bundles call.bundleRoot = some a.bundle := h.reached.bundle
  have hsome : w.worktrees (call.key a.job) = some a.cleared := hworktree
  have hcleared : a.cleared.files.subtree "publication" = [] := Git.Tree.subtree_withSubtree _ _ _
  have hnext : advance p call w (.succeeds time) (.copyTree a.job) =
      (w.setWorktree (call.key a.job) (some a.copied), .revalidate a.job) := by
    unfold advance
    simp only [hbundle, hsome, Option.getD_some, if_pos hcleared]
    rfl
  rw [hnext]
  exact .worktree h ⟨rfl, hbranch, rfl⟩ rfl (fun _ ↦ trivial) le_rfl

theorem Artifact.copied_subtree (a : Artifact p call) :
    a.copied.files.subtree "publication" = a.bundle :=
  Git.Tree.subtree_withSubtree _ _ _

theorem goes_revalidate {job : Publication} (h : a.Ok w (.revalidate job)) :
    Goes a w (.revalidate job) (advance p call w (.succeeds time) (.revalidate job)) := by
  obtain ⟨rfl, hworking⟩ := h.phase
  have hsome : w.worktrees (call.key a.job) = some a.copied := hworking.2
  have hvalid : validatePublicationBundle p.toBundleFunctions (w.publication (call.key a.job)) =
      .ok a.manifest := by
    rw [World.publication, hsome]
    change validatePublicationBundle p.toBundleFunctions (a.copied.files.subtree "publication") =
      .ok a.manifest
    rw [a.copied_subtree, a.valid]
  have hnext : advance p call w (.succeeds time) (.revalidate a.job) =
      (w, .configureName a.job) := by
    unfold advance
    simp only [hvalid]
  rw [hnext]
  exact .same h h.phase rfl (fun _ ↦ trivial) le_rfl

theorem goes_configureName {job : Publication} (h : a.Ok w (.configureName job)) :
    Goes a w (.configureName job) (advance p call w (.succeeds time) (.configureName job)) := by
  obtain ⟨rfl, hworking⟩ := h.phase
  have hnext : advance p call w (.succeeds time) (.configureName a.job) =
      (w, .configureEmail a.job) :=
    inWorktree_succeeds hworking.2 rfl rfl
  rw [hnext]
  exact .same h h.phase rfl (fun _ ↦ trivial) le_rfl

theorem goes_configureEmail {job : Publication} (h : a.Ok w (.configureEmail job)) :
    Goes a w (.configureEmail job) (advance p call w (.succeeds time) (.configureEmail job)) := by
  obtain ⟨rfl, hworking⟩ := h.phase
  have hnext : advance p call w (.succeeds time) (.configureEmail a.job) = (w, .add a.job) :=
    inWorktree_succeeds hworking.2 rfl rfl
  rw [hnext]
  exact .same h h.phase rfl (fun _ ↦ trivial) le_rfl

theorem Artifact.bundle_ne_nil (a : Artifact p call) : a.bundle ≠ [] := by
  intro hnil
  have hvalid := a.valid
  rw [hnil] at hvalid
  cases hvalid

theorem Artifact.copied_add (a : Artifact p call) (hkept : a.Kept) :
    p.git.add a.copied "publication" = some a.staged := by
  have hsubtree := a.copied_subtree
  have hstored := Git.Settings.stored_all hkept.stores
  have hsome :
      ¬ (a.copied.files.subtree "publication" = [] ∧ a.copied.index.subtree "publication" = []) :=
    fun hnone ↦ a.bundle_ne_nil (hsubtree.symm.trans hnone.1)
  rw [Git.Settings.add, if_neg hsome, hstored, hsubtree]
  rfl

theorem goes_add (hkept : a.Kept) {job : Publication} (h : a.Ok w (.add job)) :
    Goes a w (.add job) (advance p call w (.succeeds time) (.add job)) := by
  obtain ⟨rfl, hbranch, hworktree⟩ := h.phase
  have hnext : advance p call w (.succeeds time) (.add a.job) =
      (w.setWorktree (call.key a.job) (some a.staged), .diffCached a.job) := by
    refine inWorktree_succeeds hworktree rfl ?_
    rw [a.copied_add hkept]
    rfl
  rw [hnext]
  exact .worktree h ⟨rfl, hbranch, rfl⟩ rfl (fun _ ↦ trivial) le_rfl

theorem goes_diffCached {job : Publication} (h : a.Ok w (.diffCached job)) :
    Goes a w (.diffCached job) (advance p call w (.succeeds time) (.diffCached job)) := by
  obtain ⟨rfl, hworking⟩ := h.phase
  have hpaths : listedPaths p (p.git.diff a.staged.history.tree a.staged.index) = a.changed := rfl
  by_cases hcommittable : a.Committable
  · have hnext : advance p call w (.succeeds time) (.diffCached a.job) = (w, .commit a.job) := by
      refine inWorktree_succeeds hworking.2 rfl ?_
      dsimp only
      rw [hpaths, if_neg (mt committable_staged.mp ((Bool.not_eq_false _).mpr hcommittable))]
    rw [hnext]
    exact .same h ⟨rfl, hcommittable, hworking⟩ rfl (fun _ ↦ trivial) le_rfl
  · have hnext : advance p call w (.succeeds time) (.diffCached a.job) =
        (w, .cleanUp a.job (.raises Artifact.refusal)) := by
      refine inWorktree_succeeds hworking.2 rfl ?_
      dsimp only
      rw [hpaths, if_pos (committable_staged.mpr (Bool.eq_false_iff.mpr hcommittable))]
      rfl
    rw [hnext]
    exact .same h ⟨rfl, trivial⟩ rfl (fun _ ↦ ⟨hcommittable, rfl⟩) (by simp [Phase.rank])

theorem Artifact.staged_commit (a : Artifact p call) (h : a.Committable) (stamp : ℕ) :
    a.staged.commit stamp = some (a.committed stamp) := by
  have hchanged : ¬ Git.changedPaths a.staged.history.tree a.staged.index = [] := by
    intro hnil
    have hdiff : p.git.diff a.staged.history.tree a.staged.index = [] :=
      Git.diff_eq_nil hnil
    have hpaths : a.changed = [] := by
      change listedPaths p (p.git.diff a.staged.history.tree a.staged.index) = []
      rw [hdiff]
      rfl
    rw [Artifact.Committable, hpaths] at h
    cases h
  rw [Git.Worktree.commit, if_neg hchanged]
  rfl

theorem goes_commit {job : Publication} (h : a.Ok w (.commit job)) :
    Goes a w (.commit job) (advance p call w (.succeeds time) (.commit job)) := by
  obtain ⟨rfl, hcommittable, hbranch, hworktree⟩ := h.phase
  have hnext : advance p call w (.succeeds time) (.commit a.job) =
      (w.setWorktree (call.key a.job) (some (a.committed time)), .push a.job) := by
    refine inWorktree_succeeds hworktree rfl ?_
    rw [a.staged_commit hcommittable]
    rfl
  rw [hnext]
  exact .worktree h ⟨rfl, hcommittable, time, hbranch, rfl⟩ rfl (fun _ ↦ trivial) le_rfl

theorem goes_push {job : Publication} (h : a.Ok w (.push job)) :
    Goes a w (.push job) (advance p call w (.succeeds time) (.push job)) := by
  obtain ⟨rfl, hcommittable, stamp, hbranch, hworktree⟩ := h.phase
  have hnone : w.remote.branches a.job.branch = none := hbranch
  have hsome : w.worktrees (call.key a.job) = some (a.committed stamp) := hworktree
  have hnil : (a.view w).pullRequests = [] := by
    rcases h.reached.stage with ⟨-, hnil⟩ | ⟨⟨-, commit, hcommit, -⟩, -⟩
    · exact hnil
    · have hnot : none = some (commit :: a.main) := hbranch.symm.trans hcommit
      cases hnot
  let remote : Remote := { w.remote with
    branches := Function.update w.remote.branches a.job.branch (some (a.committed stamp).history) }
  have hnext : advance p call w (.succeeds time) (.push a.job) =
      ({ w with remote }, .verify a.job) := by
    refine inWorktree_succeeds hworktree rfl ?_
    rw [hnone]
    rfl
  have hview : a.view { w with remote } =
      { a.view w with branch := some ({ tree := a.tree, stamp } :: a.main) } := by
    simp only [Artifact.view, remote, Function.update_self]
    rfl
  have hstored : a.Stored (a.view { w with remote }) := by
    rw [hview]
    exact ⟨hcommittable, _, rfl, rfl⟩
  rw [hnext]
  refine ⟨⟨⟨?_, ?_, .inr ⟨hstored, .inl ?_⟩⟩, ⟨rfl, hstored, ?_, stamp, ?_⟩, h.number⟩, ?_,
    fun _ ↦ trivial, le_rfl⟩
  · exact h.reached.main
  · exact h.reached.bundle
  · exact hnil
  · exact hnil
  · exact hworktree
  · have haccepts : acceptsPush call w (.push a.job) = true := by
      have hrepository : (a.committed stamp).isRepository = true := rfl
      simp [acceptsPush, hsome, hnone, hrepository, Git.push]
    rw [hview, haccepts, hbranch]
    rfl

theorem goes_verify {job : Publication} (h : a.Ok w (.verify job)) :
    Goes a w (.verify job) (advance p call w (.succeeds time) (.verify job)) := by
  obtain ⟨rfl, hstored, hnil, stamp, hsome⟩ := h.phase
  obtain ⟨-, commit, hbranch, -⟩ := hstored
  have hthere : (w.remote.branches a.job.branch).isSome = true := Option.isSome_of_eq_some hbranch
  have hnext : advance p call w (.succeeds time) (.verify a.job) = (w, .createPr a.job true) := by
    refine inWorktree_succeeds hsome rfl ?_
    rw [if_pos hthere]
  rw [hnext]
  exact .same h ⟨rfl, h.phase.2.1, hnil, fun _ ↦ Option.isSome_of_eq_some hsome⟩ rfl
    (fun _ ↦ trivial) le_rfl

/-- What the host of a pull request of the repository is read from. -/
def HasGithubUrls (p : Publisher) : Prop :=
  ∀ number : ℕ, p.isGithubUrl ("https://github.com/" ++ p.repository ++ "/pull/" ++
    toString number) = true

theorem goes_createPr {job : Publication} {fresh : Bool} (hgithub : HasGithubUrls p)
    (h : a.Ok w (.createPr job fresh)) :
    Goes a w (.createPr job fresh) (advance p call w (.succeeds time) (.createPr job fresh)) := by
  obtain ⟨rfl, hstored, hnil, hfresh⟩ := h.phase
  obtain ⟨hcommittable, commit, hbranch, htree⟩ := hstored
  have hfilter : w.remote.pullRequests.filter (fun row ↦ row.headRefName = a.job.branch) = [] :=
    hnil
  have hsome : w.remote.branches a.job.branch = some (commit :: a.main) := hbranch
  let row : PullRequest :=
    { number := w.remote.nextNumber,
      url := "https://github.com/" ++ p.repository ++ "/pull/" ++ toString w.remote.nextNumber,
      isDraft := true, headRefName := a.job.branch, baseRefName := "main", isOpen := true }
  let remote : Remote := { w.remote with
    pullRequests := row :: w.remote.pullRequests, nextNumber := w.remote.nextNumber + 1 }
  have hopen : (w.remote.pullRequests.any fun row ↦ row.isOpen && row.headRefName = a.job.branch &&
      row.baseRefName = "main") = false := by
    refine List.any_eq_false.mpr fun row hrow ↦ ?_
    have hother := List.filter_eq_nil_iff.mp hfilter row hrow
    simp_all
  have hworktree : (fresh && (w.worktrees (call.key a.job)).isNone) = false := by
    cases fresh with
    | false => rfl
    | true =>
      obtain ⟨worktree, hworktree⟩ := Option.isSome_iff_exists.mp (hfresh rfl)
      have hkey : w.worktrees (call.key a.job) = some worktree := hworktree
      rw [hkey]
      rfl
  have hnext : advance p call w (.succeeds time) (.createPr a.job fresh) =
      ({ w with remote }, .confirmPr a.job fresh) := by
    unfold advance
    simp only [hopen, hworktree, hsome, Option.isNone_some, Bool.or_false]
    rfl
  have hrows : (a.view { w with remote }).pullRequests = [row] := by
    change (row :: w.remote.pullRequests).filter (fun row ↦ row.headRefName = a.job.branch) = [row]
    rw [List.filter_cons_of_pos (by simp [row]), hfilter]
  have hdraft : Artifact.Draft p row := ⟨rfl, rfl, rfl, h.number, hgithub _⟩
  have hstored' : a.Stored (a.view { w with remote }) := ⟨hcommittable, commit, hbranch, htree⟩
  rw [hnext]
  exact ⟨⟨⟨h.reached.main, h.reached.bundle, .inr ⟨hstored', .inr ⟨row, hrows, hdraft⟩⟩⟩,
    ⟨rfl, hstored', row, hrows, hdraft⟩, Nat.le_add_left _ _⟩, rfl, fun _ ↦ trivial, le_rfl⟩

theorem Goes.finished {ending : Ending} {fresh : Bool} (h : a.Ok w phase)
    (hending : a.EndingAt (a.view w) ending) (hpush : acceptsPush call w phase = false)
    (hcreates : ending ≠ .creates)
    (htrack : a.OnTrack phase → a.OnTrack (.cleanUp a.job ending)) (hrank : 2 ≤ phase.rank) :
    Goes a w phase (w, Ending.finish a.job fresh ending) := by
  have hone : 1 ≤ phase.rank - 1 := by omega
  cases ending with
  | creates => exact absurd rfl hcreates
  | raises failure =>
    cases fresh with
    | false => exact .same h trivial hpush htrack (Nat.zero_le _)
    | true => exact .same h ⟨rfl, trivial⟩ hpush htrack hone
  | returns result =>
    cases fresh with
    | false => exact .same h hending hpush (fun _ ↦ trivial) (Nat.zero_le _)
    | true => exact .same h ⟨rfl, hending⟩ hpush (fun _ ↦ trivial) hone

theorem goes_confirmPr {job : Publication} {fresh : Bool} (h : a.Ok w (.confirmPr job fresh)) :
    Goes a w (.confirmPr job fresh) (advance p call w (.succeeds time) (.confirmPr job fresh)) := by
  obtain ⟨rfl, hstored, row, hrow, hdraft⟩ := h.phase
  obtain ⟨result, hresult, hnames⟩ := @Artifact.existingPr_some _ _ w time a _ hrow hdraft
  have hnext : advance p call w (.succeeds time) (.confirmPr a.job fresh) =
      (w, Ending.finish a.job fresh (.returns (result.withHash a.job.artifactHash (!fresh)))) := by
    unfold advance
    simp only [hresult]
  rw [hnext]
  exact .finished h ⟨hnames, rfl⟩ rfl nofun (fun _ ↦ trivial) le_rfl

theorem goes_racedPr {job : Publication} {fresh : Bool} (h : a.Ok w (.racedPr job fresh)) :
    Goes a w (.racedPr job fresh) (advance p call w (.succeeds time) (.racedPr job fresh)) := by
  obtain ⟨rfl, hstored⟩ := h.phase
  obtain ⟨-, commit, hbranch, -⟩ := id hstored
  rcases h.reached.stage with ⟨hnone, -⟩ | ⟨-, hnil | ⟨row, hrow, hdraft⟩⟩
  · rw [hbranch] at hnone
    cases hnone
  · have hnext : advance p call w (.succeeds time) (.racedPr a.job fresh) =
        (w, Ending.finish a.job fresh
          (.raises (unavailable "The draft publication pull request could not be created."))) := by
      unfold advance
      simp only [existingPr_none hnil]
    rw [hnext]
    exact .finished h trivial rfl nofun False.elim le_rfl
  · obtain ⟨result, hresult, hnames⟩ := @Artifact.existingPr_some _ _ w time a _ hrow hdraft
    have hnext : advance p call w (.succeeds time) (.racedPr a.job fresh) =
        (w, Ending.finish a.job fresh (.returns (result.withHash a.job.artifactHash true))) := by
      unfold advance
      simp only [hresult]
    rw [hnext]
    exact .finished h ⟨hnames, rfl⟩ rfl nofun (fun _ ↦ trivial) le_rfl

theorem goes_cleanUp {job : Publication} {ending : Ending} (h : a.Ok w (.cleanUp job ending)) :
    Goes a w (.cleanUp job ending) (advance p call w (.succeeds time) (.cleanUp job ending)) := by
  obtain ⟨rfl, hending⟩ := h.phase
  cases ending with
  | raises failure => exact .worktree h trivial rfl id (Nat.zero_le _)
  | returns result => exact .worktree h hending rfl (fun _ ↦ trivial) (Nat.zero_le _)
  | creates =>
    exact .worktree h ⟨rfl, hending.1, hending.2, fun hfresh ↦ absurd hfresh Bool.false_ne_true⟩ rfl
      (fun _ ↦ trivial) le_rfl

theorem goes (hgithub : HasGithubUrls p) (hkept : a.Kept) (h : a.Ok w phase) :
    Goes a w phase (advance p call w (.succeeds time) phase) := by
  cases phase with
  | start => exact goes_start h
  | authenticate job => exact goes_authenticate h
  | lookUp job => exact goes_lookUp h
  | inspect job existing => exact goes_inspect h
  | clearBranch job existing => exact goes_clearBranch h
  | cloneBranch job existing => exact goes_cloneBranch h
  | fetchMain job existing => exact goes_fetchMain h
  | diffBranch job existing => exact goes_diffBranch h
  | checkBranch job existing => exact goes_checkBranch hkept h
  | clearMain job => exact goes_clearMain h
  | cloneMain job => exact goes_cloneMain h
  | checkout job => exact goes_checkout h
  | clearTarget job => exact goes_clearTarget hkept h
  | copyTree job => exact goes_copyTree h
  | revalidate job => exact goes_revalidate h
  | configureName job => exact goes_configureName h
  | configureEmail job => exact goes_configureEmail h
  | add job => exact goes_add hkept h
  | diffCached job => exact goes_diffCached h
  | commit job => exact goes_commit h
  | push job => exact goes_push h
  | verify job => exact goes_verify h
  | createPr job fresh => exact goes_createPr hgithub h
  | racedPr job fresh => exact goes_racedPr h
  | confirmPr job fresh => exact goes_confirmPr h
  | cleanUp job ending => exact goes_cleanUp h
  | returned result | raised failure | crashed => exact .same h h.phase rfl id le_rfl

end AgenticSecurity.Publishing
