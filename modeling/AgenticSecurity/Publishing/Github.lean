import AgenticSecurity.Jobs.Store
import AgenticSecurity.Library.Runs
import AgenticSecurity.Publishing.Validation
import AgenticSecurity.Python.Url
import Mathlib.Logic.Function.Basic
import Mathlib.Tactic.SplitIfs

namespace AgenticSecurity.Publishing

open Library Models Python Jobs

abbrev Branch := List Char

structure PullRequest where
  number : ℕ
  url : String
  isDraft : Bool
  headRefName : Branch
  baseRefName : String
  isOpen : Bool
  deriving DecidableEq

structure Remote where
  main : Git.History Bytes
  branches : Branch → Option (Git.History Bytes)
  pullRequests : List PullRequest
  nextNumber : ℕ

/-- Everything the publish runs share: the bundle directories, the working directories
under each publisher root, and the remote. -/
structure World where
  bundles : String → Option Directory
  worktrees : String × Branch → Option (Git.Worktree Bytes)
  remote : Remote

def World.setWorktree (w : World) (key : String × Branch) (worktree : Option (Git.Worktree Bytes)) :
    World :=
  { w with worktrees := Function.update w.worktrees key worktree }

/-- `^asi/[a-z0-9][a-z0-9-]*$`. -/
def matchesBranch (branch : Branch) : Bool :=
  match branch with
  | 'a' :: 's' :: 'i' :: '/' :: first :: rest =>
    (first.isLower || first.isDigit) && rest.all fun c ↦ c.isLower || c.isDigit || c = '-'
  | _ => false

structure PublishResult where
  repository : String
  branch : Branch
  branchPattern : matchesBranch branch = true
  baseBranch : String := "main"
  artifactHash : Sha256
  pullRequestNumber : ℕ
  positive : 1 ≤ pullRequestNumber
  pullRequestUrl : String
  draft : Bool := true
  duplicate : Bool
  deriving DecidableEq

/-- A `PublicationError`, or another exception. -/
inductive Failure
  | publication (category : FailureCategory) (safeMessage : String)
  | other (name : String)
  deriving DecidableEq

/-- The publisher: its repository, what git does by its settings and how it prints a path, and
which URLs have the host `github.com`. -/
structure Publisher extends BundleFunctions where
  repository : String
  git : Git.Settings Bytes
  quotePath : Git.TreePath → List Char
  isGithubUrl : String → Bool

variable (p : Publisher)

def isDigest (digits : List Char) : Bool :=
  digits.length = 64 && digits.all fun c ↦ c.isDigit || ('a' ≤ c && c ≤ 'f')

def digest (digits : List Char) (h : isDigest digits = true) : Sha256 where
  text := String.ofList digits
  pattern := by simpa [isDigest] using h

/-- `"0" * 48 + branch.rsplit("-", 1)[-1]`. -/
def paddedDigits (branch : Branch) : List Char := List.replicate 48 '0' ++ afterLast '-' branch

/-- `_existing_pr` on the rows that the lookup prints, or on something that is no JSON list. -/
def existingPr (answer : Option (List PullRequest)) (branch : Branch) :
    Except Failure (Option PublishResult) :=
  match answer with
  | none =>
    .error (.publication .publicationValidationFailed
      "GitHub returned an invalid pull-request response.")
  | some [] => .ok none
  | some (row :: _) =>
    if row.headRefName ≠ branch ∨ row.baseRefName ≠ "main" ∨ row.isDraft = false then
      .error (.publication .publicationValidationFailed
        "An existing publication pull request is not draft-only against main.")
    else if (afterLast '-' branch).length ≠ 16 then
      .error (.publication .publicationValidationFailed
        "The existing publication branch is malformed.")
    else if h : p.isGithubUrl row.url = true ∧ matchesBranch branch = true ∧ 1 ≤ row.number ∧
        isDigest (paddedDigits branch) = true then
      .ok (some
        { repository := p.repository, branch, branchPattern := h.2.1,
          artifactHash := digest _ h.2.2.2, pullRequestNumber := row.number,
          positive := h.2.2.1, pullRequestUrl := row.url,
          duplicate := true })
    else
      .error (.publication .publicationValidationFailed
        "GitHub returned incomplete pull-request metadata.")

def listedPaths (paths : List Git.TreePath) : List (List Char) :=
  ((splitlines (paths.flatMap fun path ↦ p.quotePath path ++ ['\n'])).map strip).filter (· ≠ [])

def inPublication (path : List Char) : Bool := "publication/".toList.isPrefixOf path

/-- `Path(path).suffix`. -/
def suffix (path : List Char) : List Char :=
  let name := afterLast '/' path
  let extension := afterLast '.' name
  if extension.length + 1 < name.length ∧ extension ≠ [] then '.' :: extension else []

def isDatabase (path : List Char) : Bool :=
  (suffix path).map Char.toLower ∈ [".db".toList, ".sqlite".toList, ".sqlite3".toList]

structure PublishCall where
  bundleRoot : String
  worktreeRoot : String
  artifactType : List Char

structure Publication where
  manifest : PublicationManifest
  artifactHash : Sha256
  branch : Branch

inductive Ending
  | raises (failure : Failure)
  | returns (result : PublishResult)
  | creates

/-- Where a run stands: before the command or the file operation of that name. The two
`clear` phases are `_worktree`, and `cleanUp` is the `finally` of a working directory. -/
inductive Phase
  | start
  | authenticate (job : Publication)
  | lookUp (job : Publication)
  | inspect (job : Publication) (existing : Option PublishResult)
  | clearBranch (job : Publication) (existing : Option PublishResult)
  | cloneBranch (job : Publication) (existing : Option PublishResult)
  | fetchMain (job : Publication) (existing : Option PublishResult)
  | diffBranch (job : Publication) (existing : Option PublishResult)
  | checkBranch (job : Publication) (existing : Option PublishResult)
  | clearMain (job : Publication)
  | cloneMain (job : Publication)
  | checkout (job : Publication)
  | clearTarget (job : Publication)
  | copyTree (job : Publication)
  | revalidate (job : Publication)
  | configureName (job : Publication)
  | configureEmail (job : Publication)
  | add (job : Publication)
  | diffCached (job : Publication)
  | commit (job : Publication)
  | push (job : Publication)
  | verify (job : Publication)
  | createPr (job : Publication) (fresh : Bool)
  | racedPr (job : Publication) (fresh : Bool)
  | confirmPr (job : Publication) (fresh : Bool)
  | cleanUp (job : Publication) (ending : Ending)
  | returned (result : PublishResult)
  | raised (failure : Failure)
  | crashed

def Phase.job : Phase → Option Publication
  | .authenticate job | .lookUp job | .inspect job _ | .clearBranch job _ | .cloneBranch job _
  | .fetchMain job _ | .diffBranch job _ | .checkBranch job _ | .clearMain job | .cloneMain job
  | .checkout job | .clearTarget job | .copyTree job | .revalidate job | .configureName job
  | .configureEmail job | .add job | .diffCached job | .commit job | .push job | .verify job
  | .createPr job _ | .racedPr job _ | .confirmPr job _ | .cleanUp job _ => some job
  | .start | .returned _ | .raised _ | .crashed => none

/-- A command or a file operation fails, and leaves this of the working directory; or it
succeeds, at that time. What a lookup prints may also be no JSON list. -/
inductive Outcome
  | fails (left : Option (Git.Worktree Bytes))
  | garbled
  | succeeds (time : ℕ)

def artifactTypeCharacter (c : Char) : Bool := c ∈ "abcdefghijklmnopqrstuvwxyz0123456789-".toList

/-- `f"asi/{artifact_type}-{artifact_hash[:16]}"`. -/
def branchName (artifactType : List Char) (artifactHash : Sha256) : Branch :=
  "asi/".toList ++ artifactType ++ '-' :: artifactHash.text.toList.take 16

def PublishCall.key (call : PublishCall) (job : Publication) : String × Branch :=
  (call.worktreeRoot, replace ['/'] ['-'] job.branch)

def invalid (safeMessage : String) : Failure :=
  .publication .publicationValidationFailed safeMessage

def unavailable (safeMessage : String) : Failure := .publication .githubAuthUnavailable safeMessage

def internal (safeMessage : String) : Failure := .publication .internalError safeMessage

def osError : Failure := .other "OSError"

def Phase.takes (call : PublishCall) : Phase → Option (String × Branch)
  | .clearBranch job _ | .clearMain job => some (call.key job)
  | _ => none

def Phase.holds (call : PublishCall) : Phase → Option (String × Branch)
  | .cloneBranch job _ | .fetchMain job _ | .diffBranch job _ | .checkBranch job _
  | .cloneMain job | .checkout job | .clearTarget job | .copyTree job | .revalidate job
  | .configureName job | .configureEmail job | .add job | .diffCached job | .commit job
  | .push job | .verify job | .createPr job true | .racedPr job true
  | .confirmPr job true | .cleanUp job _ => some (call.key job)
  | _ => none

def Phase.uses (call : PublishCall) (phase : Phase) : Option (String × Branch) :=
  (phase.takes call).or (phase.holds call)

/-- The end of a run that does not create a pull request any more. -/
def Ending.phase (job : Publication) : Ending → Phase
  | .raises failure => .raised failure
  | .returns result => .returned result
  | .creates => .createPr job false

/-- A run ends, and removes the working directory of a branch that it has pushed. -/
def Ending.finish (job : Publication) (fresh : Bool) (ending : Ending) : Phase :=
  if fresh then .cleanUp job ending else ending.phase job

def World.leave (w : World) (key : String × Branch) : Outcome → World
  | .fails left => w.setWorktree key left
  | .garbled | .succeeds _ => w

def inWorktree (call : PublishCall) (job : Publication) (w : World) (outcome : Outcome)
    (failure : Failure) (command : Git.Worktree Bytes → ℕ → Option (World × Phase)) :
    World × Phase :=
  let failed : Phase := .cleanUp job (.raises failure)
  match outcome, w.worktrees (call.key job) with
  | .succeeds time, some worktree =>
    if worktree.isRepository then (command worktree time).getD (w, failed) else (w, failed)
  | _, _ => (w.leave (call.key job) outcome, failed)

/-- The files in `publication/` of a working directory. -/
def World.publication (w : World) (key : String × Branch) : Directory :=
  match w.worktrees key with
  | none => []
  | some worktree => worktree.files.subtree "publication"

/-- What `gh pr list` prints for a branch. -/
def World.listed (w : World) (branch : Branch) : Outcome → Option (List PullRequest)
  | .succeeds _ => some (w.remote.pullRequests.filter fun row ↦ row.headRefName = branch)
  | .fails _ | .garbled => none

/-- `existing.model_copy(update=...)`. -/
def PublishResult.withHash (result : PublishResult) (artifactHash : Sha256) (duplicate : Bool) :
    PublishResult :=
  { result with artifactHash, duplicate }

/-- The checks of `_validate_remote_branch` on the bundle of the branch. -/
def checkRemoteBundle (job : Publication) (publication : Directory) : Option String :=
  match validatePublicationBundle p.toBundleFunctions publication with
  | .error _ => some "The existing publication branch contains an invalid public bundle."
  | .ok remote =>
    if publicationArtifactHash p.toBundleFunctions remote ≠ job.artifactHash then
      some "The existing publication branch does not match the requested artifact."
    else if { remote with generatedAt := job.manifest.generatedAt } ≠ job.manifest then
      some "The existing publication manifest does not match the requested artifact."
    else none

def advance (call : PublishCall) (w : World) (outcome : Outcome) : Phase → World × Phase
  | .start =>
    if call.artifactType = [] ∨ call.artifactType.any (fun c ↦ ¬ artifactTypeCharacter c) then
      (w, .raised (invalid "The publication artifact type is invalid."))
    else
      match outcome,
        validatePublicationBundle p.toBundleFunctions ((w.bundles call.bundleRoot).getD []) with
      | .succeeds _, .ok manifest =>
        let artifactHash := publicationArtifactHash p.toBundleFunctions manifest
        (w, .authenticate { manifest, artifactHash, branch := branchName call.artifactType artifactHash })
      | _, _ => (w, .raised (invalid "The public bundle failed validation."))
  | .authenticate job =>
    match outcome with
    | .succeeds _ => (w, .lookUp job)
    | _ => (w, .raised (unavailable "GitHub authentication is unavailable."))
  | .lookUp job =>
    match outcome with
    | .fails _ => (w, .raised (unavailable "GitHub pull-request lookup failed."))
    | _ =>
      match existingPr p (w.listed job.branch outcome) job.branch with
      | .error failure => (w, .raised failure)
      | .ok existing => (w, .inspect job existing)
  | .inspect job existing =>
    match outcome with
    | .succeeds _ =>
      if (w.remote.branches job.branch).isSome then (w, .clearBranch job existing)
      else if existing.isSome then
        (w, .raised (invalid "The existing publication branch was not found."))
      else (w, .clearMain job)
    | _ => (w, .raised (unavailable "The publication branch could not be inspected."))
  | .clearBranch job existing =>
    match outcome with
    | .succeeds _ => (w.setWorktree (call.key job) none, .cloneBranch job existing)
    | _ => (w.leave (call.key job) outcome, .raised osError)
  | .cloneBranch job existing =>
    match outcome, w.remote.branches job.branch, w.worktrees (call.key job) with
    | .succeeds _, some history, none =>
      (w.setWorktree (call.key job) (some (p.git.clone history)), .fetchMain job existing)
    | _, _, _ =>
      (w.leave (call.key job) outcome,
        .raised (unavailable "The existing publication branch could not be cloned."))
  | .fetchMain job existing =>
    inWorktree call job w outcome (unavailable "The downstream main branch could not be fetched.")
      fun worktree _ ↦
        some (w.setWorktree (call.key job)
          (some { worktree with originMain := some w.remote.main }), .diffBranch job existing)
  | .diffBranch job existing =>
    inWorktree call job w outcome
      (internal "The existing publication branch scope could not be verified.") fun worktree _ ↦
        worktree.originMain.map fun main ↦
          let changed := listedPaths p
            (p.git.diff (p.git.mergeBase main worktree.history).tree worktree.history.tree)
          if changed = [] ∨ changed.any (fun path ↦ ¬ inPublication path) then
            (w, .cleanUp job
              (.raises
                (invalid "The existing publication branch changes files outside publication/.")))
          else (w, .checkBranch job existing)
  | .checkBranch job existing =>
    match outcome, checkRemoteBundle p job (w.publication (call.key job)) with
    | .succeeds _, some safeMessage => (w, .cleanUp job (.raises (invalid safeMessage)))
    | .succeeds _, none =>
      match existing with
      | some result =>
        (w, .cleanUp job (.returns (result.withHash job.artifactHash result.duplicate)))
      | none => (w, .cleanUp job .creates)
    | _, _ =>
      (w.leave (call.key job) outcome, .cleanUp job
        (.raises (invalid "The existing publication branch contains an invalid public bundle.")))
  | .clearMain job =>
    match outcome with
    | .succeeds _ => (w.setWorktree (call.key job) none, .cloneMain job)
    | _ => (w.leave (call.key job) outcome, .raised osError)
  | .cloneMain job =>
    match outcome, w.worktrees (call.key job) with
    | .succeeds _, none =>
      (w.setWorktree (call.key job) (some (p.git.clone w.remote.main)), .checkout job)
    | _, _ =>
      (w.leave (call.key job) outcome,
        .raised (unavailable "The downstream publication repository could not be cloned."))
  | .checkout job =>
    inWorktree call job w outcome (internal "The draft publication branch could not be created.")
      fun _ _ ↦ some (w, .clearTarget job)
  | .clearTarget job =>
    match outcome, w.worktrees (call.key job) with
    | .succeeds _, none => (w, .copyTree job)
    | .succeeds _, some worktree =>
      -- `rmtree` refuses a file of that name
      if (worktree.files.lookup ["publication"]).isSome then (w, .cleanUp job (.raises osError))
      else
        (w.setWorktree (call.key job)
          (some { worktree with files := worktree.files.withSubtree "publication" [] }),
          .copyTree job)
    | _, _ => (w.leave (call.key job) outcome, .cleanUp job (.raises osError))
  | .copyTree job =>
    match outcome, w.bundles call.bundleRoot with
    | .succeeds _, some bundle =>
      -- `copytree` makes the directories above its target, and refuses one that is there
      let worktree := (w.worktrees (call.key job)).getD (Git.plainDirectory [])
      if worktree.files.subtree "publication" = [] then
        (w.setWorktree (call.key job)
          (some { worktree with files := worktree.files.withSubtree "publication" bundle }),
          .revalidate job)
      else (w, .cleanUp job (.raises osError))
    | _, _ => (w.leave (call.key job) outcome, .cleanUp job (.raises osError))
  | .revalidate job =>
    match outcome, validatePublicationBundle p.toBundleFunctions (w.publication (call.key job)) with
    | .succeeds _, .ok _ => (w, .configureName job)
    | .succeeds _, .error _ => (w, .cleanUp job (.raises (.other "ValueError")))
    | _, _ => (w.leave (call.key job) outcome, .cleanUp job (.raises osError))
  | .configureName job =>
    inWorktree call job w outcome
      (internal "The local publication identity could not be configured.") fun _ _ ↦
        some (w, .configureEmail job)
  | .configureEmail job =>
    inWorktree call job w outcome
      (internal "The local publication identity could not be configured.")
        fun _ _ ↦ some (w, .add job)
  | .add job =>
    inWorktree call job w outcome (internal "The public bundle could not be staged.")
      fun worktree _ ↦ (p.git.add worktree "publication").map fun worktree ↦
        (w.setWorktree (call.key job) (some worktree), .diffCached job)
  | .diffCached job =>
    inWorktree call job w outcome (internal "The staged publication files could not be verified.")
      fun worktree _ ↦
        let paths := listedPaths p (p.git.diff worktree.history.tree worktree.index)
        if paths = [] ∨ paths.any (fun path ↦ ¬ inPublication path || isDatabase path) then
          some (w,
            .cleanUp job (.raises (invalid "Only validated public bundle files may be committed.")))
        else some (w, .commit job)
  | .commit job =>
    inWorktree call job w outcome (internal "The public bundle commit could not be created.")
      fun worktree time ↦ (worktree.commit time).map fun worktree ↦
        (w.setWorktree (call.key job) (some worktree), .push job)
  | .push job =>
    inWorktree call job w outcome
      (unavailable "The draft publication branch could not be pushed.") fun worktree _ ↦
        (Git.push (w.remote.branches job.branch) worktree.history).map fun history ↦
          ({ w with remote := { w.remote with
              branches := Function.update w.remote.branches job.branch (some history) } },
                .verify job)
  | .verify job =>
    inWorktree call job w outcome
      (unavailable "The pushed publication branch could not be verified.") fun _ _ ↦
        if (w.remote.branches job.branch).isSome then some (w, .createPr job true)
        else some (w,
          .cleanUp job (.raises (invalid "The pushed publication branch was not found.")))
  | .createPr job fresh =>
    -- `gh` refuses a second open pull request, and a branch that is not there
    let refused :=
      w.remote.pullRequests.any (fun row ↦ row.isOpen && row.headRefName = job.branch &&
        row.baseRefName = "main") || (w.remote.branches job.branch).isNone ||
      (fresh && (w.worktrees (call.key job)).isNone)
    match outcome, refused with
    | .succeeds _, false =>
      let row : PullRequest :=
        { number := w.remote.nextNumber,
          url := "https://github.com/" ++ p.repository ++ "/pull/" ++ toString w.remote.nextNumber,
          isDraft := true, headRefName := job.branch, baseRefName := "main", isOpen := true }
      ({ w with remote := { w.remote with
          pullRequests := row :: w.remote.pullRequests, nextNumber := w.remote.nextNumber + 1 } },
        .confirmPr job fresh)
    | _, _ => (w, .racedPr job fresh)
  | .racedPr job fresh =>
    match outcome with
    | .fails _ =>
      (w, Ending.finish job fresh (.raises (unavailable "GitHub pull-request lookup failed.")))
    | _ =>
      match existingPr p (w.listed job.branch outcome) job.branch with
      | .error failure => (w, Ending.finish job fresh (.raises failure))
      | .ok none =>
        (w, Ending.finish job fresh
          (.raises (unavailable "The draft publication pull request could not be created.")))
      | .ok (some raced) =>
        (w, Ending.finish job fresh (.returns (raced.withHash job.artifactHash true)))
  | .confirmPr job fresh =>
    match outcome with
    | .fails _ =>
      (w, Ending.finish job fresh (.raises (unavailable "GitHub pull-request lookup failed.")))
    | _ =>
      match existingPr p (w.listed job.branch outcome) job.branch with
      | .error failure => (w, Ending.finish job fresh (.raises failure))
      | .ok none =>
        (w, Ending.finish job fresh
          (.raises (invalid "The draft publication pull request could not be verified.")))
      | .ok (some created) =>
        (w, Ending.finish job fresh (.returns (created.withHash job.artifactHash (!fresh))))
  | .cleanUp job ending =>
    match outcome with
    | .succeeds _ => (w.setWorktree (call.key job) none, ending.phase job)
    | _ => (w.leave (call.key job) outcome, .raised osError)
  | phase => (w, phase)

structure Run where
  call : PublishCall
  phase : Phase

structure State where
  world : World
  runs : List Run

def Phase.ended : Phase → Bool
  | .returned _ | .raised _ | .crashed => true
  | _ => false

def World.abandon (w : World) (call : PublishCall) (phase : Phase)
    (left : Option (Git.Worktree Bytes)) : World :=
  match phase.uses call with
  | some key => w.setWorktree key left
  | none => w

/-- A new run of `publish`, the next operation of a run, the death of its process, and
what an export does to the directory it replaces: it renames it away, and a bundle
into its place. -/
inductive Op
  | publish (call : PublishCall)
  | advance (index : ℕ) (outcome : Outcome)
  | crash (index : ℕ) (left : Option (Git.Worktree Bytes))
  | exported (root : String) (bundle : Option Directory)

/-- The run at `index` goes on, with what it does to the world. -/
def State.update (s : State) (index : ℕ) (run : Run) (next : World × Phase) : State where
  world := next.1
  runs := s.runs.set index { run with phase := next.2 }

def step (s : State) : Op → Option State
  | .publish call => some { s with runs := s.runs ++ [{ call, phase := .start }] }
  | .advance index outcome =>
    s.runs[index]?.map fun run ↦ s.update index run (advance p run.call s.world outcome run.phase)
  | .crash index left =>
    s.runs[index]?.bind fun run ↦
      if run.phase.ended then none
      else some (s.update index run (s.world.abandon run.call run.phase left, .crashed))
  | .exported root bundle =>
    some { s with world := { s.world with bundles := Function.update s.world.bundles root bundle } }

inductive Stepped (p : Publisher) (s : State) : Op → State → Prop
  | publish (call : PublishCall) :
      Stepped p s (.publish call) { s with runs := s.runs ++ [{ call, phase := .start }] }
  | advance (index : ℕ) (outcome : Outcome) (run : Run) (hrun : s.runs[index]? = some run) :
      Stepped p s (.advance index outcome)
        (s.update index run (advance p run.call s.world outcome run.phase))
  | crash (index : ℕ) (left : Option (Git.Worktree Bytes)) (run : Run)
      (hrun : s.runs[index]? = some run) :
      Stepped p s (.crash index left)
        (s.update index run (s.world.abandon run.call run.phase left, .crashed))
  | exported (root : String) (bundle : Option Directory) :
      Stepped p s (.exported root bundle)
        { s with world := { s.world with bundles := Function.update s.world.bundles root bundle } }

variable {p}

theorem step_cases {s s' : State} {op : Op} (h : step p s op = some s') : Stepped p s op s' := by
  cases op with
  | publish call =>
    obtain rfl := Option.some.inj h
    exact .publish call
  | advance index outcome =>
    obtain ⟨run, hrun, rfl⟩ := Option.map_eq_some_iff.mp h
    exact .advance index outcome run hrun
  | crash index left =>
    obtain ⟨run, hrun, hresult⟩ := Option.bind_eq_some_iff.mp h
    split_ifs at hresult
    obtain rfl := Option.some.inj hresult
    exact .crash index left run hrun
  | exported root bundle =>
    obtain rfl := Option.some.inj h
    exact .exported root bundle

theorem mem_update {s : State} {index : ℕ} {run other : Run} {next : World × Phase}
    (h : other ∈ (s.update index run next).runs) : other ∈ s.runs ∨
    other = { run with phase := next.2 } :=
  List.mem_or_eq_of_mem_set h

end AgenticSecurity.Publishing
