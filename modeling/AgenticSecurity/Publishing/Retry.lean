import AgenticSecurity.Publishing.Attempts

namespace AgenticSecurity.Publishing

open Library Models Python

variable {p : Publisher} {call : PublishCall} {a : Artifact p call} {w : World} {phase : Phase}

/-- The world, where the last attempt stands, and how many pushes the remote has accepted. -/
structure Attempts where
  world : World
  phase : Phase
  pushes : ℕ

/-- A new attempt, which may follow the death of the last one at any point, with what that
death leaves of the working directory; a command that succeeds, that fails, whose answer cannot be
read, or that takes effect and is reported to have failed; and what others do. -/
inductive Act
  | retry (left : Option (Git.Worktree Bytes))
  | succeeds (time : ℕ)
  | fails (left : Option (Git.Worktree Bytes))
  | garbled
  | lost (time : ℕ) (left : Option (Git.Worktree Bytes))
  | others (world : World)

def Act.uninterrupted : Act → Bool
  | .succeeds _ | .others _ => true
  | _ => false

def Act.isCommand : Act → Bool
  | .succeeds _ => true
  | _ => false

def Act.own : Act → Bool
  | .others _ => false
  | _ => true

def Attempts.go (call : PublishCall) (s : Attempts) (next : World × Phase) : Attempts where
  world := next.1
  phase := next.2
  pushes := s.pushes + (acceptsPush call s.world s.phase).toNat

def attemptStep (p : Publisher) (call : PublishCall) (s : Attempts) : Act → Option Attempts
  | .retry left => some { s with world := s.world.abandon call s.phase left, phase := .start }
  | .succeeds time => some (s.go call (advance p call s.world (.succeeds time) s.phase))
  | .fails left =>
    let next := advance p call s.world (.fails left) s.phase
    some { s with world := next.1, phase := next.2 }
  | .garbled =>
    let next := advance p call s.world .garbled s.phase
    some { s with world := next.1, phase := next.2 }
  | .lost time left =>
    let done := advance p call s.world (.succeeds time) s.phase
    some (s.go call (advance p call done.1 (.fails left) s.phase))
  | .others world => some { s with world }

/-- Before the first attempt. -/
def Attempts.first (w : World) : Attempts where
  world := w
  phase := .start
  pushes := 0

/-- An operation that does not succeed leaves the remote as it was; the attempt raises, after it
has removed the working directory or at once, or it looks for the pull request that it could not
create. -/
structure Stops (w : World) (phase : Phase) (next : World × Phase) : Prop where
  remote : next.1.remote = w.remote
  bundles : next.1.bundles = w.bundles
  phase : (∃ failure, next.2 = .raised failure) ∨
    (∃ job failure, phase.job = some job ∧ next.2 = .cleanUp job (.raises failure)) ∨
    (∃ job fresh, phase = .createPr job fresh ∧ next.2 = .racedPr job fresh) ∨
    (phase.ended = true ∧ next.2 = phase)

theorem leave_bundles (w : World) (key : String × Branch) (outcome : Outcome) :
    (w.leave key outcome).bundles = w.bundles := by cases outcome <;> rfl

variable {outcome : Outcome} {job : Publication}

theorem Stops.raised (failure : Failure) : Stops w phase (w, .raised failure) :=
  ⟨rfl, rfl, .inl ⟨failure, rfl⟩⟩

theorem Stops.left (key : String × Branch) (failure : Failure) :
    Stops w phase (w.leave key outcome, .raised failure) :=
  ⟨leave_remote _ _ _, leave_bundles _ _ _, .inl ⟨failure, rfl⟩⟩

theorem Stops.cleanup (hjob : phase.job = some job) (key : String × Branch) (failure : Failure) :
    Stops w phase (w.leave key outcome, .cleanUp job (.raises failure)) :=
  ⟨leave_remote _ _ _, leave_bundles _ _ _, .inr (.inl ⟨job, failure, hjob, rfl⟩)⟩

theorem Stops.finish (hjob : phase.job = some job) (fresh : Bool) (failure : Failure) :
    Stops w phase (w, Ending.finish job fresh (.raises failure)) := by
  cases fresh with
  | false => exact .raised failure
  | true => exact ⟨rfl, rfl, .inr (.inl ⟨job, failure, hjob, rfl⟩)⟩

theorem inWorktree_stops (houtcome : ∀ time, outcome ≠ .succeeds time) (hjob : phase.job = some job)
    (failure : Failure) (command : Git.Worktree Bytes → ℕ → Option (World × Phase)) :
    Stops w phase (inWorktree call job w outcome failure command) := by
  cases outcome with
  | succeeds time => exact absurd rfl (houtcome time)
  | fails | garbled => exact .cleanup hjob _ failure

theorem listed_none (houtcome : ∀ time, outcome ≠ .succeeds time) (branch : Branch) :
    w.listed branch outcome = none := by
  cases outcome with
  | succeeds time => exact absurd rfl (houtcome time)
  | fails | garbled => rfl

theorem stops (w : World) (phase : Phase) (houtcome : ∀ time, outcome ≠ .succeeds time) :
    Stops w phase (advance p call w outcome phase) := by
  cases phase with
  | start =>
    unfold advance
    dsimp only
    split_ifs
    · exact .raised _
    · split
      · exact absurd rfl (houtcome _)
      · exact .raised _
  | authenticate job | inspect job existing =>
    unfold advance
    dsimp only
    split
    · exact absurd rfl (houtcome _)
    · exact .raised _
  | lookUp job =>
    unfold advance
    dsimp only
    rw [listed_none houtcome]
    split <;> exact .raised _
  | clearBranch job existing | clearMain job | cleanUp job ending =>
    unfold advance
    dsimp only
    split
    · exact absurd rfl (houtcome _)
    · exact .left _ _
  | cloneBranch job existing | cloneMain job =>
    unfold advance
    dsimp only
    split
    · exact absurd rfl (houtcome _)
    · exact .left _ _
  | fetchMain job existing | diffBranch job existing | checkout job | configureName job
  | configureEmail job | add job
  | diffCached job | commit job | push job | verify job => exact inWorktree_stops houtcome rfl _ _
  | checkBranch job existing | clearTarget job | revalidate job =>
    unfold advance
    dsimp only
    split
    · exact absurd rfl (houtcome _)
    · exact absurd rfl (houtcome _)
    · exact .cleanup rfl _ _
  | copyTree job =>
    unfold advance
    dsimp only
    split
    · exact absurd rfl (houtcome _)
    · exact .cleanup rfl _ _
  | createPr job fresh =>
    unfold advance
    dsimp only
    split
    · exact absurd rfl (houtcome _)
    · exact ⟨rfl, rfl, .inr (.inr (.inl ⟨job, fresh, rfl, rfl⟩))⟩
  | racedPr job fresh | confirmPr job fresh =>
    unfold advance
    dsimp only
    rw [listed_none houtcome]
    split <;> exact .finish rfl fresh _
  | returned result | raised failure | crashed => exact ⟨rfl, rfl, .inr (.inr (.inr ⟨rfl, rfl⟩))⟩

theorem Stops.view {next : World × Phase} (h : Stops w phase next) :
    a.view next.1 = { a.view w with worktree := (a.view next.1).worktree } := by
  simp only [Artifact.view, h.remote, h.bundles]

theorem Artifact.job_of_phaseAt {v : Artifact.View} (h : a.PhaseAt v phase)
    (hjob : phase.job = some job) :
    job = a.job := by
  cases phase with
  | start | returned | raised | crashed => cases hjob
  | authenticate | lookUp => exact Option.some.inj hjob ▸ h
  | _ => exact Option.some.inj hjob ▸ h.1

theorem Stops.ok {next : World × Phase} (h : Stops w phase next) (hreached : a.Reached (a.view w))
    (hnumber : 1 ≤ w.remote.nextNumber) (hjob : ∀ job, phase.job = some job → job = a.job)
    (hraced : ∀ job fresh, phase = .createPr job fresh → a.Stored (a.view w))
    (hended : phase.ended = true → a.PhaseAt (a.view w) phase) : a.Ok next.1 next.2 := by
  refine ⟨?_, ?_, by rw [h.remote]; exact hnumber⟩
  · rw [h.view]
    exact ⟨hreached.main, hreached.bundle, hreached.stage⟩
  · rw [h.view]
    rcases h.phase with ⟨failure, hraised⟩ | ⟨job, failure, hcleans, hnext⟩ | ⟨job, fresh,
      hphase, hnext⟩ |
      ⟨hend, hsame⟩
    · rw [hraised]
      trivial
    · rw [hnext]
      exact ⟨hjob job hcleans, trivial⟩
    · rw [hnext]
      exact ⟨hjob job (hphase ▸ rfl), hraced job fresh hphase⟩
    · rw [hsame]
      cases phase with
      | returned result => exact hended hend
      | raised failure | crashed => trivial
      | _ => cases hend

/-- Main stays, and so do the pull requests that are there; none is merged, closed or
marked as ready. -/
structure Keeps (w w' : World) : Prop where
  main : w'.remote.main = w.remote.main
  pullRequests : w.remote.pullRequests <:+ w'.remote.pullRequests

theorem Keeps.of_remote {w w' : World} (h : w'.remote = w.remote) : Keeps w w' :=
  ⟨congrArg Remote.main h, h ▸ List.suffix_rfl⟩

theorem Keeps.trans {w₁ w₂ w₃ : World} (h : Keeps w₁ w₂) (h' : Keeps w₂ w₃) : Keeps w₁ w₃ :=
  ⟨h'.main.trans h.main, h.pullRequests.trans h'.pullRequests⟩

theorem inWorktree_keeps {failure : Failure}
    {command : Git.Worktree Bytes → ℕ → Option (World × Phase)}
    (h : ∀ worktree time next, command worktree time = some next → Keeps w next.1) :
    Keeps w (inWorktree call job w outcome failure command).1 := by
  rcases inWorktree_cases (rfl : inWorktree call job w outcome failure command = _) with
    ⟨-, outcome', hworld⟩ | ⟨time, worktree, -, -, hnext⟩
  · rw [hworld]
    exact .of_remote (leave_remote _ _ _)
  · exact h worktree time _ hnext

theorem advance_keeps (outcome : Outcome) (phase : Phase) :
    Keeps w (advance p call w outcome phase).1 := by
  cases phase with
  | start =>
    unfold advance
    dsimp only
    split_ifs
    · exact .of_remote rfl
    · split <;> exact .of_remote rfl
  | authenticate job | clearBranch job existing | clearMain job | cleanUp job ending =>
    cases outcome <;> exact .of_remote rfl
  | lookUp job =>
    unfold advance
    dsimp only
    split
    · exact .of_remote rfl
    · split <;> exact .of_remote rfl
  | inspect job existing =>
    unfold advance
    dsimp only
    split
    · split_ifs <;> exact .of_remote rfl
    · exact .of_remote rfl
  | cloneBranch job existing | cloneMain job =>
    unfold advance
    dsimp only
    split
    · exact .of_remote rfl
    · exact .of_remote (leave_remote _ _ _)
  | checkBranch job existing =>
    unfold advance
    dsimp only
    split
    · exact .of_remote rfl
    · cases existing <;> exact .of_remote rfl
    · exact .of_remote (leave_remote _ _ _)
  | clearTarget job =>
    unfold advance
    dsimp only
    split
    · exact .of_remote rfl
    · split_ifs <;> exact .of_remote rfl
    · exact .of_remote (leave_remote _ _ _)
  | copyTree job =>
    unfold advance
    dsimp only
    split
    · split_ifs <;> exact .of_remote rfl
    · exact .of_remote (leave_remote _ _ _)
  | revalidate job =>
    unfold advance
    dsimp only
    split
    · exact .of_remote rfl
    · exact .of_remote rfl
    · exact .of_remote (leave_remote _ _ _)
  | fetchMain job existing | checkout job | configureName job | configureEmail job =>
    refine inWorktree_keeps fun worktree time next hnext ↦ ?_
    obtain rfl := Option.some.inj hnext
    exact .of_remote rfl
  | diffBranch job existing =>
    refine inWorktree_keeps fun worktree time next hnext ↦ ?_
    obtain ⟨main, -, hnext⟩ := Option.map_eq_some_iff.mp hnext
    dsimp only at hnext
    split_ifs at hnext <;> exact hnext ▸ .of_remote rfl
  | add job | commit job =>
    refine inWorktree_keeps fun worktree time next hnext ↦ ?_
    obtain ⟨found, -, rfl⟩ := Option.map_eq_some_iff.mp hnext
    exact .of_remote rfl
  | diffCached job =>
    refine inWorktree_keeps fun worktree time next hnext ↦ ?_
    dsimp only at hnext
    split_ifs at hnext <;> exact Option.some.inj hnext ▸ .of_remote rfl
  | verify job =>
    refine inWorktree_keeps fun worktree time next hnext ↦ ?_
    split_ifs at hnext <;> exact Option.some.inj hnext ▸ .of_remote rfl
  | push job =>
    refine inWorktree_keeps fun worktree time next hnext ↦ ?_
    obtain ⟨history, -, rfl⟩ := Option.map_eq_some_iff.mp hnext
    exact ⟨rfl, List.suffix_rfl⟩
  | createPr job fresh =>
    unfold advance
    dsimp only
    split
    · exact ⟨rfl, List.suffix_cons _ _⟩
    · exact .of_remote rfl
  | racedPr job fresh | confirmPr job fresh =>
    unfold advance
    dsimp only
    split
    · exact .of_remote rfl
    · split <;> exact .of_remote rfl
  | returned result | raised failure | crashed => exact .of_remote rfl

def Artifact.Unaffected (a : Artifact p call) (w w' : World) : Prop :=
  a.view w' = a.view w ∧ w.remote.nextNumber ≤ w'.remote.nextNumber

/-- Neither the branch nor a pull request of it is there. -/
structure Artifact.Unpublished (a : Artifact p call) (w : World) : Prop where
  main : w.remote.main = a.main
  bundle : w.bundles call.bundleRoot = some a.bundle
  branch : w.remote.branches a.job.branch = none
  pullRequests : ∀ row ∈ w.remote.pullRequests, row.headRefName ≠ a.job.branch
  number : 1 ≤ w.remote.nextNumber

structure AttemptsInv (a : Artifact p call) (s : Attempts) : Prop where
  ok : a.Ok s.world s.phase
  pushes : s.pushes = (a.view s.world).branch.isSome.toNat

theorem attemptsInv_first (h : a.Unpublished w) : AttemptsInv a (.first w) where
  ok :=
    { reached :=
        { main := h.main
          bundle := h.bundle
          stage := .inl ⟨h.branch, List.filter_eq_nil_iff.mpr fun row hrow ↦ by
            simpa using h.pullRequests row hrow⟩ }
      phase := trivial
      number := h.number }
  pushes := by
    have hbranch : (a.view w).branch = none := h.branch
    change 0 = (a.view w).branch.isSome.toNat
    rw [hbranch]
    rfl

/-- The condition on what others do. -/
def Act.Fair (a : Artifact p call) (s : Attempts) : Act → Prop
  | .others world => a.Unaffected s.world world
  | _ => True

theorem Artifact.Reached.abandon (h : a.Reached (a.view w)) (phase : Phase)
    (left : Option (Git.Worktree Bytes)) :
    a.Reached (a.view (w.abandon call phase left)) ∧
      (a.view (w.abandon call phase left)).branch = (a.view w).branch := by
  unfold World.abandon
  split
  · exact ⟨⟨h.main, h.bundle, h.stage⟩, rfl⟩
  · exact ⟨h, rfl⟩

theorem AttemptsInv.stopped {s : Attempts} (h : AttemptsInv a s) {outcome : Outcome}
    (houtcome : ∀ time, outcome ≠ .succeeds time) :
    AttemptsInv a
      { s with world := (advance p call s.world outcome s.phase).1
               phase := (advance p call s.world outcome s.phase).2 } := by
  have hstops : Stops s.world s.phase (advance p call s.world outcome s.phase) := stops _ _ houtcome
  refine ⟨hstops.ok h.ok.reached h.ok.number (fun job ↦ Artifact.job_of_phaseAt h.ok.phase)
    (fun job fresh hphase ↦ ?_)
    fun _ ↦ h.ok.phase, ?_⟩
  · have hcreate := h.ok.phase
    rw [hphase] at hcreate
    exact hcreate.2.1
  · rw [hstops.view]
    exact h.pushes

theorem AttemptsInv.lost (hgithub : HasGithubUrls p) (hkept : a.Kept) {s : Attempts}
    (h : AttemptsInv a s) (time : ℕ) (left : Option (Git.Worktree Bytes)) :
    AttemptsInv a (s.go call
      (advance p call (advance p call s.world (.succeeds time) s.phase).1
        (.fails left) s.phase)) := by
  have hgoes : Goes a s.world s.phase (advance p call s.world (.succeeds time) s.phase) :=
    goes hgithub hkept h.ok
  have hstops : Stops (advance p call s.world (.succeeds time) s.phase).1 s.phase
    (advance p call (advance p call s.world (.succeeds time) s.phase).1 (.fails left) s.phase) :=
    stops _ _ nofun
  refine ⟨hstops.ok hgoes.ok.reached hgoes.ok.number (fun job ↦ Artifact.job_of_phaseAt h.ok.phase)
    (fun job fresh hphase ↦ ?_)
    fun hended ↦ ?_, ?_⟩
  · -- the pull request is there, and so is the branch that it is of
    have hcreate := h.ok.phase
    rw [hphase] at hcreate
    obtain ⟨-, ⟨-, commit, hbranch, -⟩, -⟩ := hcreate
    refine hgoes.ok.reached.stored fun hnone ↦ ?_
    have hcount := hgoes.branch
    simp only [hnone, hbranch, Option.isSome_none, Option.isSome_some, Bool.toNat_false,
      Bool.toNat_true] at hcount
    omega
  · cases hphase : s.phase with
    | returned result =>
      have hreturned := h.ok.phase
      rw [hphase] at hreturned
      exact hreturned
    | raised failure | crashed => trivial
    | _ =>
      rw [hphase] at hended
      cases hended
  · rw [Attempts.go, hstops.view, h.pushes]
    exact hgoes.branch.symm

theorem attemptsInv_step (hgithub : HasGithubUrls p) (hkept : a.Kept) {s s' : Attempts} {act : Act}
    (h : AttemptsInv a s) (hfair : act.Fair a s) (hstep : attemptStep p call s act = some s') :
    AttemptsInv a s' := by
  cases act with
  | retry left =>
    obtain rfl := Option.some.inj hstep
    obtain ⟨hreached, hbranch⟩ := h.ok.reached.abandon s.phase left
    refine ⟨⟨hreached, trivial, ?_⟩, ?_⟩
    · rw [abandon_remote]
      exact h.ok.number
    · rw [hbranch]
      exact h.pushes
  | succeeds time =>
    obtain rfl := Option.some.inj hstep
    have hgoes : Goes a s.world s.phase (advance p call s.world (.succeeds time) s.phase) :=
      goes hgithub hkept h.ok
    exact ⟨hgoes.ok, by rw [Attempts.go, hgoes.branch, h.pushes]⟩
  | fails left =>
    obtain rfl := Option.some.inj hstep
    exact h.stopped nofun
  | garbled =>
    obtain rfl := Option.some.inj hstep
    exact h.stopped nofun
  | lost time left =>
    obtain rfl := Option.some.inj hstep
    exact h.lost hgithub hkept time left
  | others world =>
    obtain rfl := Option.some.inj hstep
    obtain ⟨hview, hnumber⟩ := hfair
    exact ⟨⟨hview ▸ h.ok.reached, hview ▸ h.ok.phase,
      h.ok.number.trans hnumber⟩, by rw [hview]; exact h.pushes⟩

theorem uninterrupted_run (hgithub : HasGithubUrls p) (hkept : a.Kept) {s t : Attempts}
    {acts : List Act} (h : AttemptsInv a s) (htrack : a.OnTrack s.phase)
    (huninterrupted : acts.all Act.uninterrupted = true)
    (hfair : ∀ u act, Runs.Takes (attemptStep p call) s acts u act → act.Fair a u)
    (hexec : Runs.exec (attemptStep p call) s acts = some t) :
    AttemptsInv a t ∧ a.OnTrack t.phase ∧
    t.phase.rank ≤ s.phase.rank - acts.countP Act.isCommand := by
  induction acts generalizing s with
  | nil =>
    obtain rfl := Option.some.inj hexec
    exact ⟨h, htrack, le_rfl⟩
  | cons act acts ih =>
    obtain ⟨u, hstep, hrest⟩ := Runs.exec_cons.mp hexec
    rw [List.all_cons, Bool.and_eq_true] at huninterrupted
    have hone : Runs.exec (attemptStep p call) s [act] = some u :=
      Runs.exec_cons.mpr ⟨u, hstep, rfl⟩
    have hinv := attemptsInv_step hgithub hkept h
      (hfair s act ⟨[], List.prefix_append [act] acts, rfl⟩) hstep
    have hfair' : ∀ v act', Runs.Takes (attemptStep p call) u acts v act' → act'.Fair a v :=
      fun v act' htakes ↦ hfair v act' (htakes.append hone)
    cases act with
    | succeeds time =>
      obtain rfl := Option.some.inj hstep
      have hgoes : Goes a s.world s.phase (advance p call s.world (.succeeds time) s.phase) :=
        goes hgithub hkept h.ok
      obtain ⟨hinv', htrack', hrank⟩ := ih hinv (hgoes.onTrack htrack) huninterrupted.2 hfair' hrest
      have hnext : (s.go call (advance p call s.world (.succeeds time) s.phase)).phase.rank ≤
          s.phase.rank - 1 :=
        hgoes.rank
      refine ⟨hinv', htrack', hrank.trans ?_⟩
      rw [List.countP_cons_of_pos rfl]
      omega
    | others world =>
      obtain rfl := Option.some.inj hstep
      obtain ⟨hinv', htrack', hrank⟩ := ih hinv htrack huninterrupted.2 hfair' hrest
      exact ⟨hinv', htrack', by rwa [List.countP_cons_of_neg Bool.false_ne_true]⟩
    | retry | fails | garbled | lost => cases huninterrupted.1

theorem AttemptsInv.ended {s : Attempts} (h : AttemptsInv a s) (htrack : a.OnTrack s.phase)
    (hrank : s.phase.rank = 0) :
    (∃ result, s.phase = .returned result ∧ a.Names (a.view s.world) result ∧
        result.artifactHash = a.job.artifactHash) ∨
      (¬ a.Committable ∧ s.phase = .raised Artifact.refusal) := by
  have hphase := h.ok.phase
  cases hs : s.phase with
  | returned result =>
    rw [hs] at hphase
    exact .inl ⟨result, rfl, hphase⟩
  | raised failure =>
    rw [hs] at htrack
    exact .inr ⟨htrack.1, congrArg Phase.raised htrack.2⟩
  | crashed =>
    rw [hs] at htrack
    cases htrack
  | cleanUp job ending =>
    rw [hs] at hrank
    cases ending <;> cases hrank
  | _ =>
    rw [hs] at hrank
    cases hrank

theorem AttemptsInv.pushes_le {s : Attempts} (h : AttemptsInv a s) : s.pushes ≤ 1 := by
  rw [h.pushes]
  exact Bool.toNat_le _

/-- However often attempts at publishing an unchanged bundle stop, and wherever: the
branch is pushed at most once, there is at most one pull request of it, a draft, and
no command does anything to one that is there. The first attempt that is not
interrupted returns that pull request; where the diff cannot be committed it refuses,
and nothing has been published. -/
theorem publish_converges (p : Publisher) (call : PublishCall) (a : Artifact p call)
    (hgithub : HasGithubUrls p) (hkept : a.Kept) (w : World) (hw : a.Unpublished w)
    (acts : List Act)
    (hfair : ∀ s act, Runs.Takes (attemptStep p call) (.first w) acts s act → act.Fair a s) :
    (∀ s, Runs.Visits (attemptStep p call) (.first w) acts s → s.pushes ≤ 1 ∧
      ((a.view s.world).pullRequests = [] ∨
        ∃ row, (a.view s.world).pullRequests = [row] ∧ Artifact.Draft p row)) ∧
    (∀ s act s', Runs.Takes (attemptStep p call) (.first w) acts s act → act.own = true →
      attemptStep p call s act = some s' → Keeps s.world s'.world) ∧
    ∀ before left rest s, acts = before ++ .retry left :: rest → rest.all Act.uninterrupted = true →
      20 ≤ rest.countP Act.isCommand → Runs.exec (attemptStep p call) (.first w) acts = some s →
      if a.Committable then
        ∃ result, s.phase = .returned result ∧ a.Names (a.view s.world) result ∧
          result.artifactHash = a.job.artifactHash
      else
        s.phase = .raised Artifact.refusal ∧ (a.view s.world).branch = none ∧
          (a.view s.world).pullRequests = [] := by
  have hinv := Runs.visits_invariant (AttemptsInv a) (attemptsInv_first hw)
    fun u act v htakes hu hv ↦ attemptsInv_step hgithub hkept hu (hfair u act htakes) hv
  refine ⟨fun s hvisit ↦ ⟨(hinv s hvisit).pushes_le, ?_⟩, fun s act s' _ hown hstep ↦ ?_, ?_⟩
  · rcases (hinv s hvisit).ok.reached.stage with ⟨-, hnil⟩ | ⟨-, hrows⟩
    · exact .inl hnil
    · exact hrows
  · cases act with
    | retry left =>
      obtain rfl := Option.some.inj hstep
      exact .of_remote (abandon_remote _ _ _ _)
    | succeeds time | fails left | garbled =>
      obtain rfl := Option.some.inj hstep
      exact advance_keeps _ _
    | lost time left =>
      obtain rfl := Option.some.inj hstep
      exact (advance_keeps _ _).trans (advance_keeps _ _)
    | others world => cases hown
  · rintro before left rest s rfl huninterrupted hcount hexec
    obtain ⟨u, hu, hlast⟩ := Runs.exec_append.mp hexec
    obtain ⟨v, hretry, hrest⟩ := Runs.exec_cons.mp hlast
    have hbefore : Runs.exec (attemptStep p call) (.first w) (before ++ [.retry left]) = some v :=
      Runs.exec_append.mpr ⟨u, hu, Runs.exec_cons.mpr ⟨v, hretry, rfl⟩⟩
    have hstart : AttemptsInv a v := hinv v ⟨before ++ [.retry left], by simp, hbefore⟩
    have hphase : v.phase = .start := by rw [← Option.some.inj hretry]
    obtain ⟨hs, htrack, hrank⟩ :=
      uninterrupted_run hgithub hkept hstart (hphase ▸ trivial) huninterrupted
      (fun v act htakes ↦ hfair v act (by simpa using htakes.append hbefore)) hrest
    have hzero : s.phase.rank = 0 := by
      have hstarts : v.phase.rank = 20 := by rw [hphase]; rfl
      omega
    rcases hs.ended htrack hzero with hreturned | ⟨hnot, hraised⟩
    · split_ifs with hcommittable
      · exact hreturned
      · obtain ⟨result, -, ⟨row, hrow, -⟩, -⟩ := hreturned
        rcases hs.ok.reached.stage with ⟨-, hnil⟩ | ⟨⟨hyes, -⟩, -⟩
        · rw [hnil] at hrow
          cases hrow
        · exact absurd hyes hcommittable
    · rw [if_neg hnot]
      rcases hs.ok.reached.stage with ⟨hbranch, hnil⟩ | ⟨⟨hyes, -⟩, -⟩
      · exact ⟨hraised, hbranch, hnil⟩
      · exact absurd hyes hnot

def ledgerArtifact (main : Git.History Bytes) : Artifact ledgerPublisher publishCall where
  bundle := ledgerBundle false
  manifest := ledgerManifest false
  valid := by decide +kernel
  nonempty := by decide +kernel
  characters := forall_mem_of_all (by decide +kernel)
  hyphen := by decide +kernel
  main := main

theorem ledgerPublisher_urls : HasGithubUrls ledgerPublisher := fun number ↦ by
  change "https://github.com/".toList.isPrefixOf
    ("https://github.com/" ++ "owner/downstream" ++ "/pull/" ++ toString number).toList = true
  rw [String.toList_append, String.toList_append, String.toList_append, List.append_assoc,
    List.append_assoc]
  exact List.isPrefixOf_iff_prefix.mpr (List.prefix_append _ _)

theorem ledgerArtifact_kept : (ledgerArtifact ledgerWorld.remote.main).Kept where
  stores := Git.Settings.plain_storesAll _ _
  writes _ _ _ := rfl
  free := by decide +kernel

/-- The first attempt's push is reported to have failed, the second dies once it has made
the pull request, and the third finds it. -/
def crashActs : List Act :=
  .retry none :: List.replicate 15 (.succeeds 1) ++ .lost 2 none :: .retry none ::
    List.replicate 11 (.succeeds 3) ++
    .retry none :: List.replicate 20 (.succeeds 4)

def pushesAndResult (w : World) (acts : List Act) : Option (ℕ × Option ℕ) :=
  (Runs.exec (attemptStep ledgerPublisher publishCall) (.first w) acts).map fun s ↦
    (s.pushes, s.phase.result.map PublishResult.pullRequestNumber)

example : pushesAndResult ledgerWorld crashActs = some (1, some 1) := by decide +kernel

theorem publish_converges_crashed :
    ∃ s result, Runs.exec (attemptStep ledgerPublisher publishCall) (.first ledgerWorld) crashActs =
      some s ∧
      s.pushes ≤ 1 ∧ s.phase = .returned result ∧
      (ledgerArtifact ledgerWorld.remote.main).Names
        ((ledgerArtifact ledgerWorld.remote.main).view s.world) result := by
  have hrun :
      (Runs.exec (attemptStep ledgerPublisher publishCall) (.first ledgerWorld) crashActs).isSome =
    true := by decide +kernel
  obtain ⟨s, hs⟩ := Option.isSome_iff_exists.mp hrun
  have hfair :
      ∀ u act, Runs.Takes (attemptStep ledgerPublisher publishCall) (.first ledgerWorld) crashActs u
      act → act.Fair (ledgerArtifact ledgerWorld.remote.main) u := by
    rintro u act ⟨pre, hpre, -⟩
    have hown : act.own = true :=
      List.all_eq_true.mp (show crashActs.all Act.own = true by decide +kernel) act
        (hpre.subset (List.mem_append_right pre (List.mem_singleton_self act)))
    cases act with
    | others world => cases hown
    | retry | succeeds | fails | garbled | lost => trivial
  have hunpublished : (ledgerArtifact ledgerWorld.remote.main).Unpublished ledgerWorld :=
    ⟨rfl, rfl, rfl, nofun, le_rfl⟩
  have hcommittable : (ledgerArtifact ledgerWorld.remote.main).Committable := by decide +kernel
  obtain ⟨hpushes, -, hconverges⟩ := publish_converges ledgerPublisher publishCall
    (ledgerArtifact ledgerWorld.remote.main) ledgerPublisher_urls ledgerArtifact_kept ledgerWorld
      hunpublished crashActs
    hfair
  have hlast := hconverges
    (.retry none :: List.replicate 15 (.succeeds 1) ++ .lost 2 none :: .retry none ::
      List.replicate 11 (.succeeds 3))
    none (List.replicate 20 (.succeeds 4)) s rfl (by decide) (by decide) hs
  rw [if_pos hcommittable] at hlast
  obtain ⟨result, hresult, hnames, -⟩ := hlast
  exact ⟨s, result, hs, (hpushes s (Runs.visits_end hs)).1, hresult, hnames⟩

def mergedWorld : World :=
  { ledgerWorld with remote := { ledgerWorld.remote with
      main := { tree := (ledgerArtifact ledgerWorld.remote.main).tree, stamp := 1 } ::
        ledgerWorld.remote.main } }

theorem mergedArtifact_kept : (ledgerArtifact mergedWorld.remote.main).Kept where
  stores := Git.Settings.plain_storesAll _ _
  writes _ _ _ := rfl
  free := by decide +kernel

theorem mergedWorld_unpublished :
    (ledgerArtifact mergedWorld.remote.main).Unpublished mergedWorld :=
  ⟨rfl, rfl, rfl, nofun, le_rfl⟩

/-- An attempt at publishing what main holds already is refused without an interruption,
and there is no pull request to return. -/
theorem merged_bundle_refused :
    (ledgerArtifact mergedWorld.remote.main).Unpublished mergedWorld ∧
      ∃ s, Runs.exec (attemptStep ledgerPublisher publishCall) (.first mergedWorld)
          (.retry none :: List.replicate 20 (.succeeds 1)) = some s ∧
        s.phase = .raised Artifact.refusal ∧
        ((ledgerArtifact mergedWorld.remote.main).view s.world).pullRequests = [] := by
  have hrun : (Runs.exec (attemptStep ledgerPublisher publishCall) (.first mergedWorld)
      (List.replicate 20 (.succeeds 1))).isSome = true := by decide +kernel
  have hnot : ¬ (ledgerArtifact mergedWorld.remote.main).Committable := by decide +kernel
  obtain ⟨s, hs⟩ := Option.isSome_iff_exists.mp hrun
  have hfair : ∀ u act, Runs.Takes (attemptStep ledgerPublisher publishCall) (.first mergedWorld)
      (List.replicate 20 (.succeeds 1)) u act →
      act.Fair (ledgerArtifact mergedWorld.remote.main) u := by
    rintro u act ⟨pre, hpre, -⟩
    have hact :=
      List.eq_of_mem_replicate (hpre.subset
        (List.mem_append_right pre (List.mem_singleton_self act)))
    subst hact
    trivial
  obtain ⟨hinv, htrack, hrank⟩ := uninterrupted_run ledgerPublisher_urls mergedArtifact_kept
    (attemptsInv_first mergedWorld_unpublished) trivial (by decide) hfair hs
  have hcount : (List.replicate 20 (Act.succeeds 1)).countP Act.isCommand = 20 := by decide
  have hstart : (Attempts.first mergedWorld).phase.rank = 20 := rfl
  rw [hstart, hcount] at hrank
  have hzero : s.phase.rank = 0 := Nat.le_zero.mp hrank
  rcases hinv.ended htrack hzero with ⟨result, -, ⟨row, hrow, -⟩, -⟩ | ⟨-, hraised⟩
  · rcases hinv.ok.reached.stage with ⟨-, hnil⟩ | ⟨⟨hyes, -⟩, -⟩
    · rw [hnil] at hrow
      cases hrow
    · exact absurd hyes hnot
  · rcases hinv.ok.reached.stage with ⟨-, hnil⟩ | ⟨⟨hyes, -⟩, -⟩
    · exact ⟨mergedWorld_unpublished, s, Runs.exec_cons.mpr ⟨_, rfl, hs⟩, hraised, hnil⟩
    · exact absurd hyes hnot

end AgenticSecurity.Publishing
