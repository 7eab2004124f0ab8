import AgenticSecurity.Publishing.Github

namespace AgenticSecurity.Publishing

open Library Models Python

def BundleOf (p : Publisher) (artifactHash : Sha256) (bundle : Directory) : Prop :=
  ∃ manifest, validatePublicationBundle p.toBundleFunctions bundle = .ok manifest ∧
    publicationArtifactHash p.toBundleFunctions manifest = artifactHash

def Stores (p : Publisher) (w : World) (branch : Branch) (artifactHash : Sha256) : Prop :=
  ∃ history, w.remote.branches branch = some history ∧
    BundleOf p artifactHash (history.tree.subtree "publication")

def DraftPr (w : World) (result : PublishResult) : Prop :=
  result.draft = true ∧ result.baseBranch = "main" ∧
    ∃ row ∈ w.remote.pullRequests, row.number = result.pullRequestNumber ∧ row.isDraft = true ∧
      row.headRefName = result.branch ∧ row.baseRefName = "main"

/-- What is published under a hash is what has that hash. -/
structure Published (p : Publisher) (w : World) (result : PublishResult) : Prop where
  stored : Stores p w result.branch result.artifactHash
  named : result.artifactHash.text.toList.take 16 <:+ result.branch
  draft : DraftPr w result

structure JobOk (p : Publisher) (call : PublishCall) (job : Publication) : Prop where
  hash : job.artifactHash = publicationArtifactHash p.toBundleFunctions job.manifest
  branch : job.branch = branchName call.artifactType job.artifactHash

theorem JobOk.named {p : Publisher} {call : PublishCall} {job : Publication}
    (h : JobOk p call job) :
    job.artifactHash.text.toList.take 16 <:+ job.branch := by
  rw [h.branch]
  exact ⟨"asi/".toList ++ call.artifactType ++ ['-'], by simp [branchName]⟩

theorem JobOk.published {p : Publisher} {call : PublishCall} {job : Publication} {w : World}
    {result : PublishResult} (h : JobOk p call job)
    (hstores : Stores p w job.branch job.artifactHash)
    (hresult : result.branch = job.branch ∧ DraftPr w result) (duplicate : Bool) :
    Published p w (result.withHash job.artifactHash duplicate) where
  stored := hresult.1.symm ▸ hstores
  named := hresult.1.symm ▸ h.named
  draft := hresult.2

def Found (w : World) (job : Publication) (existing : Option PublishResult) : Prop :=
  ∀ result, existing = some result → result.branch = job.branch ∧ DraftPr w result

def Fresh (w : World) (job : Publication) : Prop :=
  ∀ history, w.remote.branches job.branch = some history → ∃ commit, history = commit ::
    w.remote.main

/-- The working directory has the files of the branch in `publication/`. -/
def ClonedBranch (w : World) (key : String × Branch) (job : Publication) : Prop :=
  ∃ worktree history, w.worktrees key = some worktree ∧
    w.remote.branches job.branch = some history ∧
    worktree.files.subtree "publication" = history.tree.subtree "publication"

/-- The working directory is on main, and `P` holds of it. -/
def OnMain (w : World) (key : String × Branch) (P : Git.Worktree Bytes → Prop) : Prop :=
  ∃ worktree, w.worktrees key = some worktree ∧ worktree.history = w.remote.main ∧ P worktree

def Committed (p : Publisher) (w : World) (key : String × Branch) (job : Publication) : Prop :=
  ∃ worktree commit, w.worktrees key = some worktree ∧ worktree.history = commit :: w.remote.main ∧
    BundleOf p job.artifactHash (commit.tree.subtree "publication")

def EndingInv (p : Publisher) (w : World) (call : PublishCall) (job : Publication) : Ending → Prop
  | .raises _ => True
  | .returns result => Published p w result
  | .creates => JobOk p call job ∧ Stores p w job.branch job.artifactHash

def PhaseInv (p : Publisher) (w : World) (call : PublishCall) : Phase → Prop
  | .start | .raised _ | .crashed => True
  | .authenticate job | .lookUp job => JobOk p call job
  | .inspect job existing | .clearBranch job existing | .cloneBranch job existing =>
    JobOk p call job ∧ Found w job existing
  | .fetchMain job existing | .diffBranch job existing | .checkBranch job existing =>
    JobOk p call job ∧ Found w job existing ∧ ClonedBranch w (call.key job) job
  | .clearMain job | .cloneMain job => JobOk p call job ∧ Fresh w job
  | .checkout job | .clearTarget job | .copyTree job =>
    JobOk p call job ∧ Fresh w job ∧ OnMain w (call.key job) fun _ ↦ True
  | .revalidate job =>
    JobOk p call job ∧ Fresh w job ∧ OnMain w (call.key job) fun worktree ↦
      ∀ manifest, validatePublicationBundle p.toBundleFunctions
        (worktree.files.subtree "publication") =
        .ok manifest → publicationArtifactHash p.toBundleFunctions manifest = job.artifactHash
  | .configureName job | .configureEmail job | .add job =>
    JobOk p call job ∧ Fresh w job ∧ OnMain w (call.key job) fun worktree ↦
      BundleOf p job.artifactHash (worktree.files.subtree "publication")
  | .diffCached job | .commit job =>
    JobOk p call job ∧ Fresh w job ∧ OnMain w (call.key job) fun worktree ↦
      BundleOf p job.artifactHash (worktree.index.subtree "publication")
  | .push job => JobOk p call job ∧ Fresh w job ∧ Committed p w (call.key job) job
  | .verify job | .createPr job _ | .racedPr job _ | .confirmPr job _ =>
    JobOk p call job ∧ Stores p w job.branch job.artifactHash
  | .cleanUp job ending => EndingInv p w call job ending
  | .returned result => Published p w result

/-- Branches stay as they are once they are there, a new one has one commit on main,
and pull requests stay. -/
structure Extends (w w' : World) : Prop where
  main : w'.remote.main = w.remote.main
  kept : ∀ branch history, w.remote.branches branch = some history →
    w'.remote.branches branch = some history
  made : ∀ branch history, w'.remote.branches branch = some history →
    w.remote.branches branch = some history ∨ ∃ commit, history = commit :: w.remote.main
  pullRequests : ∀ row ∈ w.remote.pullRequests, row ∈ w'.remote.pullRequests

theorem Extends.of_remote {w w' : World} (h : w'.remote = w.remote) : Extends w w' :=
  ⟨congrArg Remote.main h, fun _ _ hb ↦ h ▸ hb, fun _ _ hb ↦ .inl (h ▸ hb), fun _ hrow ↦ h ▸ hrow⟩

theorem Stores.mono {p : Publisher} {w w' : World} {branch : Branch} {artifactHash : Sha256}
    (h : Stores p w branch artifactHash) (hw : Extends w w') : Stores p w' branch artifactHash := by
  obtain ⟨history, hbranch, hbundle⟩ := h
  exact ⟨history, hw.kept branch history hbranch, hbundle⟩

theorem DraftPr.mono {w w' : World} {result : PublishResult} (h : DraftPr w result)
    (hw : Extends w w') : DraftPr w' result := by
  obtain ⟨hdraft, hbase, row, hrow, hmatches⟩ := h
  exact ⟨hdraft, hbase, row, hw.pullRequests row hrow, hmatches⟩

theorem Published.mono {p : Publisher} {w w' : World} {result : PublishResult}
    (h : Published p w result) (hw : Extends w w') : Published p w' result :=
  ⟨h.stored.mono hw, h.named, h.draft.mono hw⟩

theorem Found.mono {w w' : World} {job : Publication} {existing : Option PublishResult}
    (h : Found w job existing) (hw : Extends w w') : Found w' job existing :=
  fun result hresult ↦ ⟨(h result hresult).1, (h result hresult).2.mono hw⟩

theorem Fresh.mono {w w' : World} {job : Publication} (h : Fresh w job) (hw : Extends w w') :
    Fresh w' job := by
  intro history hhistory
  rw [hw.main]
  rcases hw.made _ _ hhistory with hold | hnew
  · exact h history hold
  · exact hnew

theorem ClonedBranch.mono {w w' : World} {key : String × Branch} {job : Publication}
    (h : ClonedBranch w key job) (hw : Extends w w') (hkey : w'.worktrees key = w.worktrees key) :
    ClonedBranch w' key job := by
  obtain ⟨worktree, history, hworktree, hbranch, hfiles⟩ := h
  exact ⟨worktree, history, hkey.trans hworktree, hw.kept _ _ hbranch, hfiles⟩

theorem OnMain.mono {w w' : World} {key : String × Branch} {P : Git.Worktree Bytes → Prop}
    (h : OnMain w key P) (hw : Extends w w') (hkey : w'.worktrees key = w.worktrees key) :
    OnMain w' key P := by
  obtain ⟨worktree, hworktree, hhistory, hP⟩ := h
  exact ⟨worktree, hkey.trans hworktree, hhistory.trans hw.main.symm, hP⟩

theorem Committed.mono {p : Publisher} {w w' : World} {key : String × Branch} {job : Publication}
    (h : Committed p w key job) (hw : Extends w w') (hkey : w'.worktrees key = w.worktrees key) :
    Committed p w' key job := by
  obtain ⟨worktree, commit, hworktree, hhistory, hbundle⟩ := h
  exact ⟨worktree, commit, hkey.trans hworktree, by rw [hhistory, hw.main], hbundle⟩

theorem EndingInv.mono {p : Publisher} {w w' : World} {call : PublishCall} {job : Publication}
    {ending : Ending} (h : EndingInv p w call job ending) (hw : Extends w w') :
    EndingInv p w' call job ending := by
  cases ending with
  | raises => trivial
  | returns => exact Published.mono h hw
  | creates => exact ⟨h.1, h.2.mono hw⟩

theorem PhaseInv.mono {p : Publisher} {w w' : World} {call : PublishCall} {phase : Phase}
    (h : PhaseInv p w call phase) (hw : Extends w w')
    (hkey : ∀ key, phase.holds call = some key → w'.worktrees key = w.worktrees key) :
    PhaseInv p w' call phase := by
  cases phase with
  | start | authenticate | lookUp | raised | crashed => exact h
  | inspect | clearBranch | cloneBranch => exact ⟨h.1, h.2.mono hw⟩
  | fetchMain | diffBranch | checkBranch =>
    exact ⟨h.1, h.2.1.mono hw, h.2.2.mono hw (hkey _ rfl)⟩
  | clearMain | cloneMain => exact ⟨h.1, h.2.mono hw⟩
  | checkout | clearTarget | copyTree | revalidate | configureName | configureEmail | add | diffCached
  | commit => exact ⟨h.1, h.2.1.mono hw, h.2.2.mono hw (hkey _ rfl)⟩
  | push => exact ⟨h.1, h.2.1.mono hw, h.2.2.mono hw (hkey _ rfl)⟩
  | verify | createPr | racedPr | confirmPr => exact ⟨h.1, h.2.mono hw⟩
  | cleanUp => exact EndingInv.mono h hw
  | returned => exact Published.mono h hw

theorem existingPr_some_row {p : Publisher} {answer : Option (List PullRequest)} {branch : Branch}
    {result : PublishResult} (h : existingPr p answer branch = .ok (some result)) :
    ∃ row rows, answer = some (row :: rows) ∧ row.headRefName = branch ∧ row.baseRefName = "main" ∧
      row.isDraft = true ∧ result.branch = branch ∧ result.pullRequestNumber = row.number ∧
      result.draft = true ∧ result.baseBranch = "main" ∧ result.duplicate = true := by
  unfold existingPr at h
  split at h
  · cases h
  · cases h
  next row rows =>
    split_ifs at h with hrow hlength hcomplete
    obtain rfl := Option.some.inj (Except.ok.inj h)
    simp only [not_or, not_not, Bool.not_eq_false] at hrow
    exact ⟨row, rows, rfl, hrow.1, hrow.2.1, hrow.2.2, rfl, rfl, rfl, rfl, rfl⟩

theorem existingPr_ok {p : Publisher} {w : World} {branch : Branch} {outcome : Outcome}
    {result : PublishResult} (h : existingPr p (w.listed branch outcome) branch =
      .ok (some result)) :
    result.branch = branch ∧ DraftPr w result := by
  obtain ⟨row, rows, hlisted, hhead, hbase, hdraft, hbranch, hnumber, hresult, hmain, -⟩ :=
    existingPr_some_row h
  cases outcome with
  | fails | garbled => cases hlisted
  | succeeds time =>
    have hmem : row ∈ w.remote.pullRequests.filter fun row ↦ row.headRefName = branch :=
      (Option.some.inj hlisted) ▸ List.mem_cons_self
    exact ⟨hbranch, hresult, hmain, row, (List.mem_filter.mp hmem).1, hnumber.symm, hdraft,
      hhead.trans hbranch.symm, hbase⟩

theorem checkRemoteBundle_none {p : Publisher} {job : Publication} {publication : Directory}
    (h : checkRemoteBundle p job publication = none) : BundleOf p job.artifactHash publication := by
  unfold checkRemoteBundle at h
  split at h
  · cases h
  next remote hremote =>
    split_ifs at h with hhash
    exact ⟨remote, hremote, not_not.mp hhash⟩

end AgenticSecurity.Publishing
