import AgenticSecurity.Publishing.Publication

namespace AgenticSecurity.Publishing

open Library Models

/-- A name that `publish` gives to a branch. -/
def Named (branch : Branch) : Prop :=
  ∃ artifactType artifactHash, artifactType ≠ [] ∧
    (∀ c ∈ artifactType, artifactTypeCharacter c = true) ∧
    branch = branchName artifactType artifactHash

/-- Commits that change files under `publication/`, on a history that was there at the start. -/
def Rooted (start : Remote) (history : Git.History Bytes) : Prop :=
  ∃ base, (base = start.main ∨ ∃ branch, start.branches branch = some base) ∧
    Git.ChangesOnly "publication" base history

/-- Main is as it was, branches are only continued, and only under names of publications and with
changes to their files; pull requests are only added, as drafts of such branches against main. -/
structure Contained (start remote : Remote) : Prop where
  main : remote.main = start.main
  kept : ∀ branch history, start.branches branch = some history →
    ∃ history', remote.branches branch = some history' ∧ history <:+ history'
  made : ∀ branch history, remote.branches branch = some history →
    start.branches branch = some history ∨ Named branch ∧ Rooted start history
  pullRequests : ∃ opened, remote.pullRequests = opened ++ start.pullRequests ∧
    ∀ row ∈ opened, row.isDraft = true ∧ row.isOpen = true ∧ row.baseRefName = "main" ∧
      Named row.headRefName ∧
      (remote.branches row.headRefName).isSome = true

theorem Contained.refl (remote : Remote) : Contained remote remote where
  main := rfl
  kept _ history h := ⟨history, h, List.suffix_rfl⟩
  made _ _ h := .inl h
  pullRequests := ⟨[], rfl, fun _ h ↦ (by cases h)⟩

structure Tended (start : Remote) (worktree : Git.Worktree Bytes) : Prop where
  history : Rooted start worktree.history
  index : worktree.index.outside "publication" = worktree.history.tree.outside "publication"

theorem Contained.rooted {start remote : Remote} (h : Contained start remote) {branch : Branch}
    {history : Git.History Bytes} (hbranch : remote.branches branch = some history) :
    Rooted start history := by
  rcases h.made branch history hbranch with hold | ⟨-, hrooted⟩
  · exact ⟨history, .inr ⟨branch, hold⟩, .refl _ _⟩
  · exact hrooted

theorem Contained.rooted_main {start remote : Remote} (h : Contained start remote) :
    Rooted start remote.main :=
  ⟨start.main, .inl rfl, h.main ▸ .refl _ _⟩

theorem Contained.push {start remote : Remote} (h : Contained start remote) {branch : Branch}
    {history history' : Git.History Bytes} (hnamed : Named branch) (hhistory : Rooted start history)
    (hpush : Git.push (remote.branches branch) history = some history') :
    Contained start
      { remote with branches := Function.update remote.branches branch (some history') } := by
  obtain rfl := Git.push_ok hpush
  refine ⟨h.main, fun other old hold ↦ ?_, fun other new hnew ↦ ?_, ?_⟩
  · obtain ⟨current, hcurrent, hsuffix⟩ := h.kept other old hold
    by_cases hother : other = branch
    · subst hother
      rw [hcurrent] at hpush
      exact ⟨history', Function.update_self _ _ _, hsuffix.trans (Git.push_suffix hpush)⟩
    · exact ⟨current, (Function.update_of_ne hother _ _).trans hcurrent, hsuffix⟩
  · by_cases hother : other = branch
    · subst hother
      obtain rfl :=
        Option.some.inj
        ((Function.update_self other (some history') remote.branches).symm.trans hnew)
      exact .inr ⟨hnamed, hhistory⟩
    · exact h.made other new ((Function.update_of_ne hother _ _).symm.trans hnew)
  · obtain ⟨opened, hrows, hopened⟩ := h.pullRequests
    refine ⟨opened, hrows, fun row hrow ↦ ?_⟩
    obtain ⟨hdraft, hopen, hbase, hhead, hthere⟩ := hopened row hrow
    refine ⟨hdraft, hopen, hbase, hhead, ?_⟩
    by_cases hother : row.headRefName = branch
    · rw [hother]
      exact congrArg Option.isSome (Function.update_self branch (some history') remote.branches)
    · exact (congrArg Option.isSome (Function.update_of_ne hother _ _)).trans hthere

theorem Contained.open {start remote : Remote} (h : Contained start remote) {row : PullRequest}
    {nextNumber : ℕ} (hrow : row.isDraft = true ∧ row.isOpen = true ∧ row.baseRefName = "main" ∧
      Named row.headRefName ∧
      (remote.branches row.headRefName).isSome = true) :
    Contained start { remote with pullRequests := row :: remote.pullRequests, nextNumber } := by
  obtain ⟨opened, hrows, hopened⟩ := h.pullRequests
  exact ⟨h.main, h.kept, h.made, row :: opened, congrArg (row :: ·) hrows,
    List.forall_mem_cons.mpr ⟨hrow, hopened⟩⟩

def Phase.workplace (call : PublishCall) : Phase → Option (String × Branch)
  | .checkout job | .clearTarget job | .copyTree job | .revalidate job | .configureName job
  | .configureEmail job | .add job | .diffCached job | .commit job | .push job =>
    some (call.key job)
  | _ => none

theorem workplace_holds {call : PublishCall} {phase : Phase} {key : String × Branch}
    (h : phase.workplace call = some key) : phase.holds call = some key := by
  cases phase <;> first | exact h | cases h

structure Tending (start : Remote) (w : World) (call : PublishCall) (phase : Phase) : Prop where
  named : ∀ job, phase.job = some job → Named job.branch
  workplace : ∀ key, phase.workplace call = some key → ∃ worktree, w.worktrees key = some worktree ∧
    Tended start worktree

structure Tends (start : Remote) (call : PublishCall) (next : World × Phase) : Prop where
  remote : Contained start next.1.remote
  run : Tending start next.1 call next.2

section Step

variable {p : Publisher} {start : Remote} {w : World} {call : PublishCall} {phase phase' : Phase}
  {job : Publication}

theorem tending_idle (hjob : phase.job = none) (hworkplace : phase.workplace call = none) :
    Tending start w call phase := by
  refine ⟨fun job h ↦ ?_, fun key h ↦ ?_⟩
  · cases hjob.symm.trans h
  · cases hworkplace.symm.trans h

theorem Tending.mono {w' : World} (h : Tending start w call phase)
    (hworktrees : ∀ key, phase.holds call = some key → w'.worktrees key = w.worktrees key) :
    Tending start w' call phase := by
  refine ⟨h.named, fun key hkey ↦ ?_⟩
  obtain ⟨worktree, hworktree, htended⟩ := h.workplace key hkey
  exact ⟨worktree, (hworktrees key (workplace_holds hkey)).trans hworktree, htended⟩

theorem Tends.raised {w' : World} (h : Contained start w.remote) (hremote : w'.remote = w.remote)
    (failure : Failure) :
    Tends start call (w', .raised failure) := ⟨by rw [hremote]; exact h, tending_idle rfl rfl⟩

theorem Tends.away {w' : World} (h : Contained start w.remote) (hremote : w'.remote = w.remote)
    (hnamed : Named job.branch) (hjob : phase'.job = some job ∨ phase'.job = none)
    (hworkplace : phase'.workplace call = none) : Tends start call (w', phase') := by
  refine ⟨by rw [hremote]; exact h, fun job' h ↦ ?_, fun key h ↦ ?_⟩
  · rcases hjob with hsome | hnone
    · obtain rfl := Option.some.inj (hsome.symm.trans h)
      exact hnamed
    · cases hnone.symm.trans h
  · cases hworkplace.symm.trans h

theorem Tends.cleanup {w' : World} (h : Contained start w.remote) (hremote : w'.remote = w.remote)
    (hnamed : Named job.branch) (ending : Ending) : Tends start call (w', .cleanUp job ending) :=
  .away h hremote hnamed (.inl rfl) rfl

theorem Tends.stay (h : Contained start w.remote) (hrun : Tending start w call phase)
    (hjob : phase'.job = phase.job) (hworkplace : phase'.workplace call = phase.workplace call) :
    Tends start call (w, phase') :=
  ⟨h, fun job' hsome ↦ hrun.named job' (hjob.symm.trans hsome), fun key hkey ↦
    hrun.workplace key (hworkplace.symm.trans hkey)⟩

theorem Tends.worktree (h : Contained start w.remote) (hnamed : Named job.branch)
    {worktree : Git.Worktree Bytes} (htended : Tended start worktree) (hjob : phase'.job = some job)
    (hworkplace : phase'.workplace call = some (call.key job)) :
    Tends start call (w.setWorktree (call.key job) (some worktree), phase') := by
  refine ⟨h, fun job' hsome ↦ ?_, fun key hkey ↦ ?_⟩
  · obtain rfl := Option.some.inj (hjob.symm.trans hsome)
    exact hnamed
  · obtain rfl := Option.some.inj (hworkplace.symm.trans hkey)
    exact ⟨worktree, setWorktree_self w (call.key job) (some worktree), htended⟩

theorem tends_inWorktree (h : Contained start w.remote) (hnamed : Named job.branch)
    {outcome : Outcome} {failure : Failure}
    {command : Git.Worktree Bytes → ℕ → Option (World × Phase)}
    (hcommand : ∀ worktree time next, w.worktrees (call.key job) = some worktree →
      command worktree time = some next →
      Tends start call next) :
    Tends start call (inWorktree call job w outcome failure command) := by
  rcases inWorktree_cases (rfl : inWorktree call job w outcome failure command = _) with
    ⟨hphase, outcome', hworld⟩ | ⟨time, worktree, -, hworktree, hnext⟩
  · have hnext : inWorktree call job w outcome failure command =
        (w.leave (call.key job) outcome', .cleanUp job (.raises failure)) := Prod.ext hworld hphase
    rw [hnext]
    exact .cleanup h (leave_remote _ _ _) hnamed _
  · exact hcommand worktree time _ hworktree hnext

theorem Tending.tended (h : Tending start w call phase) {key : String × Branch}
    (hkey : phase.workplace call = some key) {worktree : Git.Worktree Bytes}
    (hworktree : w.worktrees key = some worktree) : Tended start worktree := by
  obtain ⟨worktree', hworktree', htended⟩ := h.workplace key hkey
  obtain rfl := Option.some.inj (hworktree'.symm.trans hworktree)
  exact htended

theorem tends_start (outcome : Outcome) (h : Contained start w.remote) :
    Tends start call (advance p call w outcome .start) := by
  unfold advance
  dsimp only
  split_ifs with htype
  · exact .raised h rfl _
  · rw [not_or] at htype
    split
    · refine .away h rfl ⟨call.artifactType, _, htype.1, fun c hc ↦ ?_, rfl⟩ (.inl rfl) rfl
      by_contra hbad
      exact htype.2 (List.any_eq_true.mpr ⟨c, hc, decide_eq_true hbad⟩)
    · exact .raised h rfl _

theorem tends_cloneMain (outcome : Outcome) (h : Contained start w.remote)
    (hrun : Tending start w call (.cloneMain job)) :
    Tends start call (advance p call w outcome (.cloneMain job)) := by
  unfold advance
  dsimp only
  split
  · exact .worktree h (hrun.named job rfl) ⟨h.rooted_main, rfl⟩ rfl rfl
  · exact .raised h (leave_remote _ _ _) _

theorem tends_clearTarget (outcome : Outcome) (h : Contained start w.remote)
    (hrun : Tending start w call (.clearTarget job)) :
    Tends start call (advance p call w outcome (.clearTarget job)) := by
  have hnamed := hrun.named job rfl
  unfold advance
  dsimp only
  split
  · exact .stay h hrun rfl rfl
  next time worktree hworktree =>
    have htended := hrun.tended rfl hworktree
    split_ifs
    · exact .cleanup h rfl hnamed _
    · exact .worktree h hnamed ⟨htended.history, htended.index⟩ rfl rfl
  · exact .cleanup h (leave_remote _ _ _) hnamed _

theorem tends_copyTree (outcome : Outcome) (h : Contained start w.remote)
    (hrun : Tending start w call (.copyTree job)) :
    Tends start call (advance p call w outcome (.copyTree job)) := by
  obtain ⟨worktree, hworktree, htended⟩ := hrun.workplace (call.key job) rfl
  have hnamed := hrun.named job rfl
  unfold advance
  dsimp only
  rw [hworktree, Option.getD_some]
  split
  · split_ifs
    · exact .worktree h hnamed ⟨htended.history, htended.index⟩ rfl rfl
    · exact .cleanup h rfl hnamed _
  · exact .cleanup h (leave_remote _ _ _) hnamed _

theorem tends_add (outcome : Outcome) (h : Contained start w.remote)
    (hrun : Tending start w call (.add job)) :
    Tends start call (advance p call w outcome (.add job)) := by
  refine tends_inWorktree h (hrun.named job rfl) fun worktree time next hworktree hnext ↦ ?_
  obtain ⟨staged, hstaged, rfl⟩ := Option.map_eq_some_iff.mp hnext
  have htended := hrun.tended rfl hworktree
  -- what is staged under `publication` changes nothing else in the index
  obtain ⟨hhistory, hindex⟩ := Git.Settings.add_ok hstaged
  refine .worktree h (hrun.named job rfl) ⟨hhistory ▸ htended.history, ?_⟩ rfl rfl
  rw [hindex, hhistory]
  exact htended.index

theorem tends_commit (outcome : Outcome) (h : Contained start w.remote)
    (hrun : Tending start w call (.commit job)) :
    Tends start call (advance p call w outcome (.commit job)) := by
  refine tends_inWorktree h (hrun.named job rfl) fun worktree time next hworktree hnext ↦ ?_
  obtain ⟨committed, hcommitted, rfl⟩ := Option.map_eq_some_iff.mp hnext
  have htended := hrun.tended rfl hworktree
  obtain ⟨base, hbase, hchanges⟩ := htended.history
  have hhistory := Git.Worktree.commit_ok hcommitted
  have hindex := Git.Worktree.commit_index hcommitted
  refine .worktree h (hrun.named job rfl) ⟨⟨base, hbase, ?_⟩, ?_⟩ rfl rfl
  · rw [hhistory]
    exact hchanges.commit htended.index
  · rw [hhistory, hindex]
    rfl

theorem tends_push (outcome : Outcome) (h : Contained start w.remote)
    (hrun : Tending start w call (.push job)) :
    Tends start call (advance p call w outcome (.push job)) := by
  refine tends_inWorktree h (hrun.named job rfl) fun worktree time next hworktree hnext ↦ ?_
  obtain ⟨history, hpush, rfl⟩ := Option.map_eq_some_iff.mp hnext
  have htended := hrun.tended rfl hworktree
  exact ⟨h.push (hrun.named job rfl) htended.history hpush, hrun.named, fun _ hkey ↦ by cases hkey⟩

theorem tends_createPr {fresh : Bool} (outcome : Outcome) (h : Contained start w.remote)
    (hrun : Tending start w call (.createPr job fresh)) :
    Tends start call (advance p call w outcome (.createPr job fresh)) := by
  have hnamed := hrun.named job rfl
  unfold advance
  dsimp only
  split
  next time hrefused =>
    rw [Bool.or_eq_false_iff, Bool.or_eq_false_iff] at hrefused
    have hthere : (w.remote.branches job.branch).isSome = true := by
      rw [← Option.not_isNone, hrefused.1.2]
      rfl
    exact ⟨h.open ⟨rfl, rfl, rfl, hnamed, hthere⟩, hrun.named, fun _ hkey ↦ by cases hkey⟩
  · exact .away h rfl hnamed (.inl rfl) rfl

theorem tends_finish (h : Contained start w.remote) (hnamed : Named job.branch) (fresh : Bool)
    (ending : Ending) :
    Tends start call (w, Ending.finish job fresh ending) := by
  cases fresh with
  | true => exact .cleanup h rfl hnamed _
  | false =>
    cases ending with
    | creates => exact .away h rfl hnamed (.inl rfl) rfl
    | raises failure => exact .raised h rfl failure
    | returns result => exact .away h rfl hnamed (.inr rfl) rfl

theorem tends_lookUp (outcome : Outcome) (h : Contained start w.remote)
    (hrun : Tending start w call (.lookUp job)) :
    Tends start call (advance p call w outcome (.lookUp job)) := by
  unfold advance
  dsimp only
  split
  · exact .raised h rfl _
  · split
    · exact .raised h rfl _
    · exact .away h rfl (hrun.named job rfl) (.inl rfl) rfl

theorem tends_inspect {existing : Option PublishResult} (outcome : Outcome)
    (h : Contained start w.remote) (hrun : Tending start w call (.inspect job existing)) :
    Tends start call (advance p call w outcome (.inspect job existing)) := by
  unfold advance
  dsimp only
  split
  · split_ifs
    · exact .away h rfl (hrun.named job rfl) (.inl rfl) rfl
    · exact .raised h rfl _
    · exact .away h rfl (hrun.named job rfl) (.inl rfl) rfl
  · exact .raised h rfl _

theorem tends_checkBranch {existing : Option PublishResult} (outcome : Outcome)
    (h : Contained start w.remote) (hrun : Tending start w call (.checkBranch job existing)) :
    Tends start call (advance p call w outcome (.checkBranch job existing)) := by
  unfold advance
  dsimp only
  split
  · exact .cleanup h rfl (hrun.named job rfl) _
  · split <;> exact .cleanup h rfl (hrun.named job rfl) _
  · exact .cleanup h (leave_remote _ _ _) (hrun.named job rfl) _

theorem tends_cleanUp {ending : Ending} (outcome : Outcome) (h : Contained start w.remote)
    (hrun : Tending start w call (.cleanUp job ending)) :
    Tends start call (advance p call w outcome (.cleanUp job ending)) := by
  unfold advance
  dsimp only
  split
  · cases ending with
    | creates => exact .away h rfl (hrun.named job rfl) (.inl rfl) rfl
    | raises failure => exact .away h rfl (hrun.named job rfl) (.inr rfl) rfl
    | returns result => exact .away h rfl (hrun.named job rfl) (.inr rfl) rfl
  · exact .raised h (leave_remote _ _ _) _

theorem tends (outcome : Outcome) (h : Contained start w.remote)
    (hrun : Tending start w call phase) :
    Tends start call (advance p call w outcome phase) := by
  cases phase with
  | start => exact tends_start outcome h
  | authenticate job =>
    unfold advance
    dsimp only
    split
    · exact .away h rfl (hrun.named job rfl) (.inl rfl) rfl
    · exact .raised h rfl _
  | clearBranch job existing | clearMain job =>
    unfold advance
    dsimp only
    split
    · exact .away h rfl (hrun.named job rfl) (.inl rfl) rfl
    · exact .raised h (leave_remote _ _ _) _
  | lookUp job => exact tends_lookUp outcome h hrun
  | inspect job existing => exact tends_inspect outcome h hrun
  | cloneBranch job existing =>
    unfold advance
    dsimp only
    split
    · exact .away h rfl (hrun.named job rfl) (.inl rfl) rfl
    · exact .raised h (leave_remote _ _ _) _
  | fetchMain job existing =>
    refine tends_inWorktree h (hrun.named job rfl) fun worktree time next _ hnext ↦ ?_
    obtain rfl := Option.some.inj hnext
    exact .away h rfl (hrun.named job rfl) (.inl rfl) rfl
  | diffBranch job existing =>
    refine tends_inWorktree h (hrun.named job rfl) fun worktree time next _ hnext ↦ ?_
    obtain ⟨main, -, rfl⟩ := Option.map_eq_some_iff.mp hnext
    dsimp only
    split_ifs <;> exact .away h rfl (hrun.named job rfl) (.inl rfl) rfl
  | checkBranch job existing => exact tends_checkBranch outcome h hrun
  | cloneMain job => exact tends_cloneMain outcome h hrun
  | checkout job | configureName job | configureEmail job =>
    refine tends_inWorktree h (hrun.named job rfl) fun worktree time next _ hnext ↦ ?_
    obtain rfl := Option.some.inj hnext
    exact .stay h hrun rfl rfl
  | clearTarget job => exact tends_clearTarget outcome h hrun
  | copyTree job => exact tends_copyTree outcome h hrun
  | revalidate job =>
    unfold advance
    dsimp only
    split
    · exact .stay h hrun rfl rfl
    · exact .cleanup h rfl (hrun.named job rfl) _
    · exact .cleanup h (leave_remote _ _ _) (hrun.named job rfl) _
  | add job => exact tends_add outcome h hrun
  | diffCached job =>
    refine tends_inWorktree h (hrun.named job rfl) fun worktree time next _ hnext ↦ ?_
    dsimp only at hnext
    split_ifs at hnext <;> obtain rfl := Option.some.inj hnext
    · exact .cleanup h rfl (hrun.named job rfl) _
    · exact .stay h hrun rfl rfl
  | commit job => exact tends_commit outcome h hrun
  | push job => exact tends_push outcome h hrun
  | verify job =>
    refine tends_inWorktree h (hrun.named job rfl) fun worktree time next _ hnext ↦ ?_
    split_ifs at hnext <;> obtain rfl := Option.some.inj hnext
    · exact .away h rfl (hrun.named job rfl) (.inl rfl) rfl
    · exact .cleanup h rfl (hrun.named job rfl) _
  | createPr job fresh => exact tends_createPr outcome h hrun
  | racedPr job fresh | confirmPr job fresh =>
    unfold advance
    dsimp only
    split
    · exact tends_finish h (hrun.named job rfl) fresh _
    · split <;> exact tends_finish h (hrun.named job rfl) fresh _
  | cleanUp job ending => exact tends_cleanUp outcome h hrun
  | returned | raised | crashed => exact .stay h hrun rfl rfl

end Step

structure Tidy (start : Remote) (s : State) : Prop where
  remote : Contained start s.world.remote
  runs : ∀ (i : ℕ) (run : Run), s.runs[i]? = some run → Tending start s.world run.call run.phase
  apart : Separate s

theorem Tidy.update {start : Remote} {s : State} {index : ℕ} {run : Run} {next : World × Phase}
    (h : Tidy start s) (hrun : s.runs[index]? = some run)
    (hfree : ∀ key, run.phase.takes run.call = some key → HeldByNoOther s index key)
    (hframes : Frames run.call s.world run.phase next) (htends : Tends start run.call next) :
    Tidy start (s.update index run next) := by
  refine ⟨htends.remote, fun i other hi ↦ ?_, h.apart.update hrun hfree hframes⟩
  rw [lookup_update hrun] at hi
  split_ifs at hi with hindex
  · obtain rfl := Option.some.inj hi
    exact htends.run
  · exact (h.runs i other hi).mono fun key hkey ↦ h.apart.frame hrun hfree hframes hindex hi hkey

theorem Tidy.step {p : Publisher} {start : Remote} {s s' : State} {op : Op} (h : Tidy start s)
    (hexclusive : Exclusive s op) (hs : step p s op = some s') : Tidy start s' := by
  cases step_cases hs with
  | publish call =>
    refine ⟨h.remote, fun i run hi ↦ ?_, h.apart.publish call⟩
    rcases lookup_publish hi with hold | hstart
    · exact h.runs i run hold
    · rw [hstart]
      exact tending_idle rfl rfl
  | advance index outcome run hrun =>
    exact h.update hrun (hexclusive run hrun) (advance_frames outcome run.phase)
      (tends outcome h.remote (h.runs index run hrun))
  | crash index left run hrun =>
    refine h.update hrun (hexclusive run hrun) (abandon_frames _ _ _ _) ⟨?_, tending_idle rfl rfl⟩
    rw [abandon_remote]
    exact h.remote
  | exported root bundle =>
    exact ⟨h.remote, fun i run hi ↦ (h.runs i run hi).mono fun _ _ ↦ rfl, h.apart⟩

/-- Whatever publish runs do side by side, none of them clearing a working directory that another
holds, stopped anywhere, and with exports replacing the bundles under them, the downstream
repository stays contained. -/
theorem publishing_contained (p : Publisher) (world : World) (ops : List Op)
    (hexclusive : ∀ u op, Runs.Takes (step p) { world, runs := [] } ops u op → Exclusive u op)
    (s : State)
    (h : Runs.exec (step p) { world, runs := [] } ops = some s) :
    Contained world.remote s.world.remote := by
  have hstart : Tidy world.remote { world, runs := [] } :=
    ⟨.refl _, fun _ _ hrun ↦ by simp at hrun, fun _ _ _ hrun ↦ by simp at hrun⟩
  have hinv : ∀ u, Runs.Visits (step p) { world, runs := [] } ops u → Tidy world.remote u :=
    Runs.visits_invariant (Tidy world.remote) hstart fun u op _ htakes hu hstep ↦
      hu.step (hexclusive u op htakes) hstep
  exact (hinv s (Runs.visits_end h)).remote

def besideOps : List Op :=
  .publish publishCall :: List.replicate 9 (.advance 0 (.succeeds 1)) ++
    .publish { publishCall with worktreeRoot := "elsewhere" } ::
      List.replicate 20 (.advance 1 (.succeeds 2)) ++
    List.replicate 11 (.advance 0 (.succeeds 3))

def returnedRuns (ops : List Op) : Option (List Bool) :=
  (Runs.exec (step ledgerPublisher) { world := ledgerWorld, runs := [] } ops).map fun s ↦
    s.runs.map fun run ↦ run.phase.result.isSome

def exclusiveStep (s : State) : Op → Bool
  | .advance index _ | .crash index _ => exclusive s index
  | .publish _ | .exported _ _ => true

theorem exclusiveStep_ok {s : State} {op : Op} (h : exclusiveStep s op = true) :
    Exclusive s op := by
  cases op with
  | publish | exported => trivial
  | advance | crash => exact exclusive_of_check h

theorem publishing_contained_beside :
    ∃ s, Runs.exec (step ledgerPublisher) { world := ledgerWorld, runs := [] } besideOps = some s ∧
      returnedRuns besideOps = some [false, true] ∧
      Contained ledgerWorld.remote s.world.remote := by
  have hrun : returnedRuns besideOps = some [false, true] := by decide +kernel
  have hchecked : Runs.stepsPass (step ledgerPublisher) exclusiveStep
      { world := ledgerWorld, runs := [] } besideOps = true := by decide +kernel
  obtain ⟨s, hs, -⟩ := Option.map_eq_some_iff.mp hrun
  exact ⟨s, hs, hrun, publishing_contained ledgerPublisher ledgerWorld besideOps
    (fun u op htakes ↦ exclusiveStep_ok (Runs.check_of_takes hchecked htakes)) s hs⟩

end AgenticSecurity.Publishing
