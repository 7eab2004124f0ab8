import AgenticSecurity.Publishing.PublishInvariant

namespace AgenticSecurity.Publishing

open Library Models Python

variable {p : Publisher} {call : PublishCall} {w w' : World} {phase phase' : Phase}
  {job : Publication}

theorem setWorktree_self (w : World) (key : String × Branch)
    (worktree : Option (Git.Worktree Bytes)) :
    (w.setWorktree key worktree).worktrees key = worktree := Function.update_self _ _ _

theorem setWorktree_of_ne {key key' : String × Branch} (h : key' ≠ key) (w : World)
    (worktree : Option (Git.Worktree Bytes)) :
    (w.setWorktree key worktree).worktrees key' = w.worktrees key' := Function.update_of_ne h _ _

theorem leave_cases (w : World) (key : String × Branch) (outcome : Outcome) :
    w.leave key outcome = w ∨ ∃ left, w.leave key outcome = w.setWorktree key left := by
  cases outcome with
  | fails left => exact .inr ⟨left, rfl⟩
  | garbled | succeeds => exact .inl rfl

theorem leave_remote (w : World) (key : String × Branch) (outcome : Outcome) :
    (w.leave key outcome).remote = w.remote := by cases outcome <;> rfl

theorem inWorktree_cases {outcome : Outcome} {failure : Failure}
    {command : Git.Worktree Bytes → ℕ → Option (World × Phase)} {next : World × Phase}
    (h : inWorktree call job w outcome failure command = next) :
    (next.2 = .cleanUp job (.raises failure) ∧
      ∃ outcome', next.1 = w.leave (call.key job) outcome') ∨
      ∃ time worktree, outcome = .succeeds time ∧ w.worktrees (call.key job) = some worktree ∧
        command worktree time = some next := by
  subst h
  unfold inWorktree
  cases outcome with
  | fails left => exact .inl ⟨rfl, .fails left, rfl⟩
  | garbled => exact .inl ⟨rfl, .garbled, rfl⟩
  | succeeds time =>
    cases hworktree : w.worktrees (call.key job) with
    | none => exact .inl ⟨rfl, .garbled, rfl⟩
    | some worktree =>
      dsimp only
      by_cases hrepository : worktree.isRepository = true
      · rw [if_pos hrepository]
        cases hcommand : command worktree time with
        | none => exact .inl ⟨rfl, .garbled, rfl⟩
        | some next => exact .inr ⟨time, worktree, rfl, rfl, hcommand⟩
      · rw [if_neg hrepository]
        exact .inl ⟨rfl, .garbled, rfl⟩

structure Frames (call : PublishCall) (w : World) (phase : Phase) (next : World × Phase) :
    Prop where
  worktrees : ∀ key, phase.uses call ≠ some key → next.1.worktrees key = w.worktrees key
  holds : ∀ key, next.2.holds call = some key → phase.uses call = some key

theorem Frames.idle (h : phase'.holds call = none) : Frames call w phase (w, phase') :=
  ⟨fun _ _ ↦ rfl, fun key hkey ↦ by rw [h] at hkey; cases hkey⟩

theorem Frames.same (huses : phase.uses call = some (call.key job))
    (h : phase'.holds call = some (call.key job)) :
    Frames call w phase (w, phase') :=
  ⟨fun _ _ ↦ rfl, fun _ hkey ↦ huses.trans (h.symm.trans hkey)⟩

theorem Frames.worktree (huses : phase.uses call = some (call.key job))
    (worktree : Option (Git.Worktree Bytes))
    (h : phase'.holds call = none ∨ phase'.holds call = some (call.key job)) :
    Frames call w phase (w.setWorktree (call.key job) worktree, phase') := by
  refine ⟨fun key hkey ↦ setWorktree_of_ne
    (fun he ↦ hkey (huses.trans (congrArg some he.symm))) w worktree, fun key hkey ↦ ?_⟩
  rcases h with hnone | hsome
  · cases hnone.symm.trans hkey
  · exact huses.trans (hsome.symm.trans hkey)

theorem Frames.leave (huses : phase.uses call = some (call.key job)) (outcome : Outcome)
    (h : phase'.holds call = none ∨ phase'.holds call = some (call.key job)) :
    Frames call w phase (w.leave (call.key job) outcome, phase') := by
  rcases leave_cases w (call.key job) outcome with hsame | ⟨left, hleft⟩
  · rw [hsame]
    exact ⟨fun _ _ ↦ rfl, fun key hkey ↦ h.elim (fun hnone ↦ by cases hnone.symm.trans hkey)
      fun hsome ↦ huses.trans (hsome.symm.trans hkey)⟩
  · rw [hleft]
    exact .worktree huses left h

theorem frames_inWorktree {outcome : Outcome} {failure : Failure}
    {command : Git.Worktree Bytes → ℕ → Option (World × Phase)}
    (huses : phase.uses call = some (call.key job))
    (hcommand : ∀ worktree time next, command worktree time = some next →
      Frames call w phase next) :
    Frames call w phase (inWorktree call job w outcome failure command) := by
  rcases inWorktree_cases (rfl : inWorktree call job w outcome failure command = _) with
    ⟨hphase, outcome', hworld⟩ | ⟨time, worktree, -, -, hnext⟩
  · have hnext : inWorktree call job w outcome failure command =
        (w.leave (call.key job) outcome', .cleanUp job (.raises failure)) := Prod.ext hworld hphase
    rw [hnext]
    exact .leave huses outcome' (.inr rfl)
  · exact hcommand worktree time _ hnext

theorem ending_holds (job : Publication) (ending : Ending) :
    (ending.phase job).holds call = none := by
  cases ending <;> rfl

theorem frames_finish {fresh : Bool} (h : fresh = true → phase.uses call = some (call.key job))
    (ending : Ending) : Frames call w phase (w, Ending.finish job fresh ending) := by
  cases fresh with
  | false => exact .idle (ending_holds job ending)
  | true => exact .same (h rfl) rfl

theorem advance_frames (outcome : Outcome) (phase : Phase) :
    Frames call w phase (advance p call w outcome phase) := by
  cases phase with
  | start =>
    unfold advance
    dsimp only
    split_ifs
    · exact .idle rfl
    · split <;> exact .idle rfl
  | authenticate job =>
    unfold advance
    dsimp only
    split <;> exact .idle rfl
  | lookUp job =>
    unfold advance
    dsimp only
    split
    · exact .idle rfl
    · split <;> exact .idle rfl
  | inspect job existing =>
    unfold advance
    dsimp only
    split
    · split_ifs <;> exact .idle rfl
    · exact .idle rfl
  | clearBranch job existing | clearMain job =>
    unfold advance
    dsimp only
    split
    · exact .worktree rfl none (.inr rfl)
    · exact .leave rfl _ (.inl rfl)
  | cloneBranch job existing | cloneMain job =>
    unfold advance
    dsimp only
    split
    · exact .worktree rfl _ (.inr rfl)
    · exact .leave rfl _ (.inl rfl)
  | fetchMain job existing =>
    refine frames_inWorktree rfl fun worktree time next hnext ↦ ?_
    obtain rfl := Option.some.inj hnext
    exact .worktree rfl _ (.inr rfl)
  | diffBranch job existing =>
    refine frames_inWorktree rfl fun worktree time next hnext ↦ ?_
    obtain ⟨main, -, rfl⟩ := Option.map_eq_some_iff.mp hnext
    dsimp only
    split_ifs <;> exact .same rfl rfl
  | checkBranch job existing =>
    unfold advance
    dsimp only
    split
    · exact .same rfl rfl
    · cases existing <;> exact .same rfl rfl
    · exact .leave rfl _ (.inr rfl)
  | checkout job | configureName job | configureEmail job =>
    refine frames_inWorktree rfl fun worktree time next hnext ↦ ?_
    obtain rfl := Option.some.inj hnext
    exact .same rfl rfl
  | clearTarget job =>
    unfold advance
    dsimp only
    split
    · exact .same rfl rfl
    · split_ifs
      · exact .same rfl rfl
      · exact .worktree rfl _ (.inr rfl)
    · exact .leave rfl _ (.inr rfl)
  | copyTree job =>
    unfold advance
    dsimp only
    split
    · split_ifs
      · exact .worktree rfl _ (.inr rfl)
      · exact .same rfl rfl
    · exact .leave rfl _ (.inr rfl)
  | revalidate job =>
    unfold advance
    dsimp only
    split
    · exact .same rfl rfl
    · exact .same rfl rfl
    · exact .leave rfl _ (.inr rfl)
  | add job | commit job =>
    refine frames_inWorktree rfl fun worktree time next hnext ↦ ?_
    obtain ⟨found, -, rfl⟩ := Option.map_eq_some_iff.mp hnext
    exact .worktree rfl _ (.inr rfl)
  | diffCached job =>
    refine frames_inWorktree rfl fun worktree time next hnext ↦ ?_
    dsimp only at hnext
    split_ifs at hnext <;> exact Option.some.inj hnext ▸ .same rfl rfl
  | push job =>
    refine frames_inWorktree rfl fun worktree time next hnext ↦ ?_
    obtain ⟨history, -, rfl⟩ := Option.map_eq_some_iff.mp hnext
    exact ⟨fun _ _ ↦ rfl, fun _ hkey ↦ hkey⟩
  | verify job =>
    refine frames_inWorktree rfl fun worktree time next hnext ↦ ?_
    split_ifs at hnext <;> exact Option.some.inj hnext ▸ .same rfl rfl
  | createPr job fresh =>
    unfold advance
    dsimp only
    split <;> exact ⟨fun _ _ ↦ rfl, fun key hkey ↦ by cases fresh <;> exact hkey⟩
  | racedPr job fresh | confirmPr job fresh =>
    unfold advance
    dsimp only
    split
    · exact frames_finish (fun hfresh ↦ by subst hfresh; rfl) _
    · split <;> exact frames_finish (fun hfresh ↦ by subst hfresh; rfl) _
  | cleanUp job ending =>
    unfold advance
    dsimp only
    split
    · exact .worktree rfl none (.inl (ending_holds job ending))
    · exact .leave rfl _ (.inl rfl)
  | returned result | raised failure | crashed => exact .idle rfl

structure Advances (p : Publisher) (call : PublishCall) (w : World) (next : World × Phase) :
    Prop where
  inv : PhaseInv p next.1 call next.2
  remote : Extends w next.1

theorem Advances.same (h : PhaseInv p w call phase') : Advances p call w (w, phase') :=
  ⟨h, .of_remote rfl⟩

theorem Advances.worktree {key : String × Branch} {worktree : Option (Git.Worktree Bytes)}
    (h : PhaseInv p (w.setWorktree key worktree) call phase') :
    Advances p call w (w.setWorktree key worktree, phase') := ⟨h, .of_remote rfl⟩

theorem Advances.raised (failure : Failure) : Advances p call w (w, .raised failure) :=
  .same trivial

theorem Advances.leave {key : String × Branch} {outcome : Outcome}
    (h : ∀ w, PhaseInv p w call phase') :
    Advances p call w (w.leave key outcome, phase') := ⟨h _, .of_remote (leave_remote _ _ _)⟩

theorem advances_inWorktree {outcome : Outcome} {failure : Failure}
    {command : Git.Worktree Bytes → ℕ → Option (World × Phase)}
    (hcommand : ∀ worktree time next, w.worktrees (call.key job) = some worktree →
      command worktree time = some next → Advances p call w next) :
    Advances p call w (inWorktree call job w outcome failure command) := by
  rcases inWorktree_cases (rfl : inWorktree call job w outcome failure command = _) with
    ⟨hphase, outcome', hworld⟩ | ⟨time, worktree, -, hworktree, hnext⟩
  · have hnext : inWorktree call job w outcome failure command =
        (w.leave (call.key job) outcome', .cleanUp job (.raises failure)) := Prod.ext hworld hphase
    rw [hnext]
    exact .leave fun _ ↦ trivial
  · exact hcommand worktree time _ hworktree hnext

theorem advances_query {outcome : Outcome} {failure : Failure} (h : PhaseInv p w call phase') :
    Advances p call w (inWorktree call job w outcome failure fun _ _ ↦ some (w, phase')) := by
  refine advances_inWorktree fun worktree time next _ hnext ↦ ?_
  obtain rfl := Option.some.inj hnext
  exact .same h

theorem advances_start (outcome : Outcome) :
    Advances p call w (advance p call w outcome .start) := by
  unfold advance
  dsimp only
  split_ifs
  · exact .raised _
  · split
    · exact .same ⟨rfl, rfl⟩
    · exact .raised _

theorem advances_authenticate (outcome : Outcome) (h : PhaseInv p w call (.authenticate job)) :
    Advances p call w (advance p call w outcome (.authenticate job)) := by
  unfold advance
  dsimp only
  split
  · exact .same h
  · exact .raised _

theorem advances_lookUp (outcome : Outcome) (h : PhaseInv p w call (.lookUp job)) :
    Advances p call w (advance p call w outcome (.lookUp job)) := by
  unfold advance
  dsimp only
  split
  · exact .raised _
  · split
    · exact .raised _
    next existing hexisting =>
      exact .same ⟨h, fun result hresult ↦ existingPr_ok (hresult ▸ hexisting)⟩

theorem advances_inspect {existing : Option PublishResult} (outcome : Outcome)
    (h : PhaseInv p w call (.inspect job existing)) :
    Advances p call w (advance p call w outcome (.inspect job existing)) := by
  unfold advance
  dsimp only
  split
  · split_ifs with hbranch
    · exact .same h
    · exact .raised _
    · refine .same ⟨h.1, fun history hhistory ↦ ?_⟩
      rw [hhistory] at hbranch
      exact absurd rfl hbranch
  · exact .raised _

theorem advances_clearBranch {existing : Option PublishResult} (outcome : Outcome)
    (h : PhaseInv p w call (.clearBranch job existing)) :
    Advances p call w (advance p call w outcome (.clearBranch job existing)) := by
  unfold advance
  dsimp only
  split
  · exact .worktree h
  · exact .leave fun _ ↦ trivial

/-- Git keeps the files of the bundle: it clones a branch whose files are written as they are
stored, and stores all of the files that a run adds, as they are. -/
def KeepsBundle (p : Publisher) (w : World) (call : PublishCall) : Phase → Prop
  | .cloneBranch job _ => ∀ history, w.remote.branches job.branch = some history →
      p.git.WritesAll history.tree "publication"
  | .add job =>
    ∀ worktree, w.worktrees (call.key job) = some worktree → p.git.StoresAll worktree "publication"
  | _ => True

theorem advances_cloneBranch {existing : Option PublishResult} (outcome : Outcome)
    (h : PhaseInv p w call (.cloneBranch job existing))
    (hkeeps : KeepsBundle p w call (.cloneBranch job existing)) :
    Advances p call w (advance p call w outcome (.cloneBranch job existing)) := by
  unfold advance
  dsimp only
  split
  next time history hbranch _ =>
    refine .worktree ⟨h.1, h.2, _, history, setWorktree_self _ _ _, hbranch, ?_⟩
    exact Git.Settings.checkout_subtree (hkeeps history hbranch)
  · exact .leave fun _ ↦ trivial

theorem advances_fetchMain {existing : Option PublishResult} (outcome : Outcome)
    (h : PhaseInv p w call (.fetchMain job existing)) :
    Advances p call w (advance p call w outcome (.fetchMain job existing)) := by
  obtain ⟨hjob, hfound, worktree, history, hworktree, hbranch, hfiles⟩ := h
  refine advances_inWorktree fun worktree' time next hworktree' hnext ↦ ?_
  obtain rfl : worktree = worktree' := Option.some.inj (hworktree.symm.trans hworktree')
  obtain rfl := Option.some.inj hnext
  exact .worktree ⟨hjob, hfound, _, history, setWorktree_self _ _ _, hbranch, hfiles⟩

theorem advances_diffBranch {existing : Option PublishResult} (outcome : Outcome)
    (h : PhaseInv p w call (.diffBranch job existing)) :
    Advances p call w (advance p call w outcome (.diffBranch job existing)) := by
  refine advances_inWorktree fun worktree time next _ hnext ↦ ?_
  obtain ⟨main, -, rfl⟩ := Option.map_eq_some_iff.mp hnext
  dsimp only
  split_ifs
  · exact .same trivial
  · exact .same h

theorem ClonedBranch.stores {key : String × Branch} (h : ClonedBranch w key job)
    (hchecked : checkRemoteBundle p job (w.publication key) = none) :
    Stores p w job.branch job.artifactHash := by
  obtain ⟨worktree, history, hworktree, hbranch, hfiles⟩ := h
  have hpublication : w.publication key = history.tree.subtree "publication" := by
    rw [World.publication, hworktree]
    exact hfiles
  exact ⟨history, hbranch, hpublication ▸ checkRemoteBundle_none hchecked⟩

theorem advances_checkBranch {existing : Option PublishResult} (outcome : Outcome)
    (h : PhaseInv p w call (.checkBranch job existing)) :
    Advances p call w (advance p call w outcome (.checkBranch job existing)) := by
  obtain ⟨hjob, hfound, hcloned⟩ := h
  unfold advance
  dsimp only
  split
  · exact .same trivial
  next time hchecked =>
    have hstores := hcloned.stores hchecked
    cases existing with
    | none => exact .same ⟨hjob, hstores⟩
    | some result => exact .same (hjob.published hstores (hfound result rfl) _)
  · exact .leave fun _ ↦ trivial

theorem advances_clearMain (outcome : Outcome) (h : PhaseInv p w call (.clearMain job)) :
    Advances p call w (advance p call w outcome (.clearMain job)) := by
  unfold advance
  dsimp only
  split
  · exact .worktree h
  · exact .leave fun _ ↦ trivial

theorem advances_cloneMain (outcome : Outcome) (h : PhaseInv p w call (.cloneMain job)) :
    Advances p call w (advance p call w outcome (.cloneMain job)) := by
  unfold advance
  dsimp only
  split
  · exact .worktree ⟨h.1, h.2, p.git.clone w.remote.main, setWorktree_self _ _ _, rfl, trivial⟩
  · exact .leave fun _ ↦ trivial

theorem advances_clearTarget (outcome : Outcome) (h : PhaseInv p w call (.clearTarget job)) :
    Advances p call w (advance p call w outcome (.clearTarget job)) := by
  obtain ⟨hjob, hfresh, worktree, hworktree, hhistory, -⟩ := h
  unfold advance
  dsimp only
  split
  next hnone => cases hnone.symm.trans hworktree
  next time worktree' hworktree' =>
    obtain rfl : worktree = worktree' := Option.some.inj (hworktree.symm.trans hworktree')
    split_ifs
    · exact .same trivial
    · exact .worktree ⟨hjob, hfresh, _, setWorktree_self _ _ _, hhistory, trivial⟩
  · exact .leave fun _ ↦ trivial

def CopiesValidated (p : Publisher) (w : World) (call : PublishCall) (phase : Phase) : Prop :=
  ∀ job bundle manifest, phase = .copyTree job → w.bundles call.bundleRoot = some bundle →
    validatePublicationBundle p.toBundleFunctions bundle = .ok manifest →
    publicationArtifactHash p.toBundleFunctions manifest =
      publicationArtifactHash p.toBundleFunctions job.manifest

theorem advances_copyTree (outcome : Outcome) (h : PhaseInv p w call (.copyTree job))
    (hcopies : CopiesValidated p w call (.copyTree job)) :
    Advances p call w (advance p call w outcome (.copyTree job)) := by
  obtain ⟨hjob, hfresh, worktree, hworktree, hhistory, -⟩ := h
  unfold advance
  dsimp only
  split
  next time bundle hbundle =>
    rw [hworktree, Option.getD_some]
    split_ifs
    · refine .worktree ⟨hjob, hfresh, _, setWorktree_self _ _ _, hhistory, fun manifest hvalid ↦ ?_⟩
      rw [Git.Tree.subtree_withSubtree] at hvalid
      exact (hcopies job bundle manifest rfl hbundle hvalid).trans hjob.hash.symm
    · exact .same trivial
  · exact .leave fun _ ↦ trivial

theorem advances_revalidate (outcome : Outcome) (h : PhaseInv p w call (.revalidate job)) :
    Advances p call w (advance p call w outcome (.revalidate job)) := by
  obtain ⟨hjob, hfresh, worktree, hworktree, hhistory, hvalidated⟩ := h
  unfold advance
  dsimp only
  split
  next time manifest hvalid =>
    rw [World.publication, hworktree] at hvalid
    exact .same ⟨hjob, hfresh, worktree, hworktree, hhistory, manifest, hvalid,
      hvalidated manifest hvalid⟩
  · exact .same trivial
  · exact .leave fun _ ↦ trivial

theorem advances_add (outcome : Outcome) (h : PhaseInv p w call (.add job))
    (hkeeps : KeepsBundle p w call (.add job)) :
    Advances p call w (advance p call w outcome (.add job)) := by
  obtain ⟨hjob, hfresh, worktree, hworktree, hhistory, hbundle⟩ := h
  refine advances_inWorktree fun worktree' time next hworktree' hnext ↦ ?_
  obtain rfl : worktree = worktree' := Option.some.inj (hworktree.symm.trans hworktree')
  obtain ⟨added, hadded, rfl⟩ := Option.map_eq_some_iff.mp hnext
  refine .worktree ⟨hjob, hfresh, added, setWorktree_self _ _ _,
    (Git.Settings.add_ok hadded).1.trans hhistory, ?_⟩
  change BundleOf p job.artifactHash (added.index.subtree "publication")
  rw [Git.Settings.add_subtree (hkeeps worktree hworktree) hadded]
  exact hbundle

theorem advances_diffCached (outcome : Outcome) (h : PhaseInv p w call (.diffCached job)) :
    Advances p call w (advance p call w outcome (.diffCached job)) := by
  refine advances_inWorktree fun worktree time next _ hnext ↦ ?_
  dsimp only at hnext
  split_ifs at hnext <;> obtain rfl := Option.some.inj hnext
  · exact .same trivial
  · exact .same h

theorem advances_commit (outcome : Outcome) (h : PhaseInv p w call (.commit job)) :
    Advances p call w (advance p call w outcome (.commit job)) := by
  obtain ⟨hjob, hfresh, worktree, hworktree, hhistory, hbundle⟩ := h
  refine advances_inWorktree fun worktree' time next hworktree' hnext ↦ ?_
  obtain rfl : worktree = worktree' := Option.some.inj (hworktree.symm.trans hworktree')
  obtain ⟨committed, hcommitted, rfl⟩ := Option.map_eq_some_iff.mp hnext
  have hnew := Git.Worktree.commit_ok hcommitted
  rw [hhistory] at hnew
  exact .worktree ⟨hjob, hfresh, committed, _, setWorktree_self _ _ _, hnew, hbundle⟩

theorem extends_push {history : Git.History Bytes} {commit : Git.Commit Bytes}
    (hfresh : Fresh w job)
    (hpush : Git.push (w.remote.branches job.branch) (commit :: w.remote.main) = some history) :
    Extends w { w with remote := { w.remote with
      branches := Function.update w.remote.branches job.branch (some history) } } := by
  refine ⟨rfl, fun branch old hold ↦ ?_, fun branch new hnew ↦ ?_, fun row hrow ↦ hrow⟩
  · by_cases hbranch : branch = job.branch
    · subst hbranch
      obtain ⟨earlier, rfl⟩ := hfresh old hold
      rw [hold] at hpush
      rw [Git.push_sibling hpush]
      exact Function.update_self _ _ _
    · exact (Function.update_of_ne hbranch _ _).trans hold
  · by_cases hbranch : branch = job.branch
    · subst hbranch
      have hset : Function.update w.remote.branches job.branch (some history) job.branch =
          some new := hnew
      rw [Function.update_self] at hset
      obtain rfl := Option.some.inj hset
      exact .inr ⟨commit, Git.push_ok hpush⟩
    · exact .inl ((Function.update_of_ne hbranch _ _).symm.trans hnew)

theorem advances_push (outcome : Outcome) (h : PhaseInv p w call (.push job)) :
    Advances p call w (advance p call w outcome (.push job)) := by
  obtain ⟨hjob, hfresh, worktree, commit, hworktree, hhistory, hbundle⟩ := h
  refine advances_inWorktree fun worktree' time next hworktree' hnext ↦ ?_
  obtain rfl : worktree = worktree' := Option.some.inj (hworktree.symm.trans hworktree')
  obtain ⟨history, hpush, rfl⟩ := Option.map_eq_some_iff.mp hnext
  rw [hhistory] at hpush
  refine ⟨⟨hjob, history, Function.update_self _ _ _, ?_⟩, extends_push hfresh hpush⟩
  rw [Git.push_ok hpush]
  exact hbundle

theorem advances_verify (outcome : Outcome) (h : PhaseInv p w call (.verify job)) :
    Advances p call w (advance p call w outcome (.verify job)) := by
  refine advances_inWorktree fun worktree time next _ hnext ↦ ?_
  split_ifs at hnext <;> obtain rfl := Option.some.inj hnext
  · exact .same h
  · exact .same trivial

theorem advances_createPr {fresh : Bool} (outcome : Outcome)
    (h : PhaseInv p w call (.createPr job fresh)) :
    Advances p call w (advance p call w outcome (.createPr job fresh)) := by
  unfold advance
  dsimp only
  split
  · refine ⟨⟨h.1, h.2.mono ?_⟩, ?_⟩ <;>
      exact ⟨rfl, fun _ _ hold ↦ hold, fun _ _ hnew ↦ .inl hnew,
        fun _ hrow ↦ List.mem_cons_of_mem _ hrow⟩
  · exact .same h

theorem finish_inv {ending : Ending} {fresh : Bool} (h : EndingInv p w call job ending) :
    PhaseInv p w call (Ending.finish job fresh ending) := by
  cases fresh with
  | true => exact h
  | false => cases ending <;> exact h

theorem advances_racedPr {fresh : Bool} (outcome : Outcome)
    (h : PhaseInv p w call (.racedPr job fresh)) :
    Advances p call w (advance p call w outcome (.racedPr job fresh)) := by
  unfold advance
  dsimp only
  split
  · exact .same (finish_inv trivial)
  · split
    · exact .same (finish_inv trivial)
    · exact .same (finish_inv trivial)
    next raced hraced => exact .same (finish_inv (h.1.published h.2 (existingPr_ok hraced) true))

theorem advances_confirmPr {fresh : Bool} (outcome : Outcome)
    (h : PhaseInv p w call (.confirmPr job fresh)) :
    Advances p call w (advance p call w outcome (.confirmPr job fresh)) := by
  unfold advance
  dsimp only
  split
  · exact .same (finish_inv trivial)
  · split
    · exact .same (finish_inv trivial)
    · exact .same (finish_inv trivial)
    next created hcreated =>
      exact .same (finish_inv (h.1.published h.2 (existingPr_ok hcreated) (!fresh)))

theorem advances_cleanUp {ending : Ending} (outcome : Outcome)
    (h : PhaseInv p w call (.cleanUp job ending)) :
    Advances p call w (advance p call w outcome (.cleanUp job ending)) := by
  unfold advance
  dsimp only
  split
  · have hended : EndingInv p (w.setWorktree (call.key job) none) call job ending :=
      EndingInv.mono h (.of_remote rfl)
    refine .worktree ?_
    cases ending <;> exact hended
  · exact .leave fun _ ↦ trivial

theorem advances (outcome : Outcome) (h : PhaseInv p w call phase)
    (hcopies : CopiesValidated p w call phase) (hkeeps : KeepsBundle p w call phase) :
    Advances p call w (advance p call w outcome phase) := by
  cases phase with
  | start => exact advances_start outcome
  | authenticate job => exact advances_authenticate outcome h
  | lookUp job => exact advances_lookUp outcome h
  | inspect job existing => exact advances_inspect outcome h
  | clearBranch job existing => exact advances_clearBranch outcome h
  | cloneBranch job existing => exact advances_cloneBranch outcome h hkeeps
  | fetchMain job existing => exact advances_fetchMain outcome h
  | diffBranch job existing => exact advances_diffBranch outcome h
  | checkBranch job existing => exact advances_checkBranch outcome h
  | clearMain job => exact advances_clearMain outcome h
  | cloneMain job => exact advances_cloneMain outcome h
  | checkout job => exact advances_query h
  | clearTarget job => exact advances_clearTarget outcome h
  | copyTree job => exact advances_copyTree outcome h hcopies
  | revalidate job => exact advances_revalidate outcome h
  | configureName job => exact advances_query h
  | configureEmail job => exact advances_query h
  | add job => exact advances_add outcome h hkeeps
  | diffCached job => exact advances_diffCached outcome h
  | commit job => exact advances_commit outcome h
  | push job => exact advances_push outcome h
  | verify job => exact advances_verify outcome h
  | createPr job fresh => exact advances_createPr outcome h
  | racedPr job fresh => exact advances_racedPr outcome h
  | confirmPr job fresh => exact advances_confirmPr outcome h
  | cleanUp job ending => exact advances_cleanUp outcome h
  | returned result => exact .same h
  | raised failure => exact .raised failure
  | crashed => exact .same trivial

end AgenticSecurity.Publishing
