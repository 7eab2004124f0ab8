import AgenticSecurity.Publishing.PublishSteps

namespace AgenticSecurity.Publishing

open Library Jobs

def publisherMessages : FailureCategory → List String
  | .publicationValidationFailed =>
    ["The publication artifact type is invalid.", "The public bundle failed validation.",
      "GitHub returned an invalid pull-request response.",
      "An existing publication pull request is not draft-only against main.",
      "The existing publication branch is malformed.",
      "GitHub returned incomplete pull-request metadata.",
      "The existing publication branch was not found.",
      "The existing publication branch changes files outside publication/.",
      "The existing publication branch contains an invalid public bundle.",
      "The existing publication branch does not match the requested artifact.",
      "The existing publication manifest does not match the requested artifact.",
      "Only validated public bundle files may be committed.",
      "The pushed publication branch was not found.",
      "The draft publication pull request could not be verified."]
  | .githubAuthUnavailable =>
    ["GitHub authentication is unavailable.", "GitHub pull-request lookup failed.",
      "The publication branch could not be inspected.",
      "The existing publication branch could not be cloned.",
      "The downstream main branch could not be fetched.",
      "The downstream publication repository could not be cloned.",
      "The draft publication branch could not be pushed.",
      "The pushed publication branch could not be verified.",
      "The draft publication pull request could not be created."]
  | .internalError =>
    ["The existing publication branch scope could not be verified.",
      "The draft publication branch could not be created.",
      "The local publication identity could not be configured.",
      "The public bundle could not be staged.",
      "The staged publication files could not be verified.",
      "The public bundle commit could not be created."]
  | _ => []

def Failure.Safe : Failure → Prop
  | .publication category safeMessage => safeMessage ∈ publisherMessages category
  | .other name => name = "OSError" ∨ name = "ValueError"

def Ending.Safe : Ending → Prop
  | .raises failure => failure.Safe
  | .returns _ | .creates => True

def Phase.Safe : Phase → Prop
  | .raised failure => failure.Safe
  | .cleanUp _ ending => ending.Safe
  | _ => True

variable {p : Publisher} {call : PublishCall} {w : World} {job : Publication}

theorem invalid_safe {safeMessage : String}
    (h : safeMessage ∈ publisherMessages .publicationValidationFailed) :
    (invalid safeMessage).Safe := h

theorem unavailable_safe {safeMessage : String}
    (h : safeMessage ∈ publisherMessages .githubAuthUnavailable) :
    (unavailable safeMessage).Safe := h

theorem internal_safe {safeMessage : String} (h : safeMessage ∈ publisherMessages .internalError) :
    (internal safeMessage).Safe := h

theorem osError_safe : osError.Safe := .inl rfl

theorem existingPr_safe {answer : Option (List PullRequest)} {branch : Branch} {failure : Failure}
    (h : existingPr p answer branch = .error failure) : failure.Safe := by
  unfold existingPr at h
  split at h
  · obtain rfl := Except.error.inj h
    simp [Failure.Safe, publisherMessages]
  · cases h
  · split_ifs at h
    all_goals
      obtain rfl := Except.error.inj h
      simp [Failure.Safe, publisherMessages]

theorem checkRemoteBundle_safe {publication : Directory} {safeMessage : String}
    (h : checkRemoteBundle p job publication = some safeMessage) :
    safeMessage ∈ publisherMessages .publicationValidationFailed := by
  unfold checkRemoteBundle at h
  split at h
  · obtain rfl := Option.some.inj h
    simp [publisherMessages]
  · split_ifs at h
    all_goals
      obtain rfl := Option.some.inj h
      simp [publisherMessages]

theorem inWorktree_safe {outcome : Outcome} {failure : Failure}
    {command : Git.Worktree Bytes → ℕ → Option (World × Phase)} (hfailure : failure.Safe)
    (hcommand : ∀ worktree time next, command worktree time = some next → next.2.Safe) :
    (inWorktree call job w outcome failure command).2.Safe := by
  rcases inWorktree_cases (rfl : inWorktree call job w outcome failure command = _) with
    ⟨hphase, -⟩ | ⟨time, worktree, -, -, hnext⟩
  · rw [hphase]
    exact hfailure
  · exact hcommand worktree time _ hnext

theorem finish_safe {fresh : Bool} {ending : Ending} (h : ending.Safe) :
    (Ending.finish job fresh ending).Safe := by
  cases fresh with
  | true => exact h
  | false => cases ending <;> exact h

theorem start_safe (outcome : Outcome) : (advance p call w outcome .start).2.Safe := by
  unfold advance
  dsimp only
  split_ifs
  · exact invalid_safe (by simp [publisherMessages])
  · split
    · trivial
    · exact invalid_safe (by simp [publisherMessages])

theorem authenticate_safe (outcome : Outcome) :
    (advance p call w outcome (.authenticate job)).2.Safe := by
  unfold advance
  dsimp only
  split
  · trivial
  · exact unavailable_safe (by simp [publisherMessages])

theorem lookUp_safe (outcome : Outcome) : (advance p call w outcome (.lookUp job)).2.Safe := by
  unfold advance
  dsimp only
  split
  · exact unavailable_safe (by simp [publisherMessages])
  · split
    next failure hfound => exact existingPr_safe hfound
    · trivial

section Existing

variable {existing : Option PublishResult}

theorem inspect_safe (outcome : Outcome) :
    (advance p call w outcome (.inspect job existing)).2.Safe := by
  unfold advance
  dsimp only
  split
  · split_ifs
    · trivial
    · exact invalid_safe (by simp [publisherMessages])
    · trivial
  · exact unavailable_safe (by simp [publisherMessages])

theorem clearBranch_safe (outcome : Outcome) :
    (advance p call w outcome (.clearBranch job existing)).2.Safe := by
  unfold advance
  dsimp only
  split
  · trivial
  · exact osError_safe

theorem cloneBranch_safe (outcome : Outcome) :
    (advance p call w outcome (.cloneBranch job existing)).2.Safe := by
  unfold advance
  dsimp only
  split
  · trivial
  · exact unavailable_safe (by simp [publisherMessages])

theorem fetchMain_safe (outcome : Outcome) :
    (advance p call w outcome (.fetchMain job existing)).2.Safe := by
  refine inWorktree_safe (unavailable_safe (by simp [publisherMessages]))
    fun worktree time next hnext ↦ ?_
  obtain rfl := Option.some.inj hnext
  trivial

theorem diffBranch_safe (outcome : Outcome) :
    (advance p call w outcome (.diffBranch job existing)).2.Safe := by
  refine inWorktree_safe (internal_safe (by simp [publisherMessages]))
    fun worktree time next hnext ↦ ?_
  obtain ⟨main, -, rfl⟩ := Option.map_eq_some_iff.mp hnext
  dsimp only
  split_ifs
  · exact invalid_safe (by simp [publisherMessages])
  · trivial

theorem checkBranch_safe (outcome : Outcome) :
    (advance p call w outcome (.checkBranch job existing)).2.Safe := by
  unfold advance
  dsimp only
  split
  next safeMessage hchecked => exact invalid_safe (checkRemoteBundle_safe hchecked)
  · split <;> trivial
  · exact invalid_safe (by simp [publisherMessages])

end Existing

theorem clearMain_safe (outcome : Outcome) :
    (advance p call w outcome (.clearMain job)).2.Safe := by
  unfold advance
  dsimp only
  split
  · trivial
  · exact osError_safe

theorem cloneMain_safe (outcome : Outcome) :
    (advance p call w outcome (.cloneMain job)).2.Safe := by
  unfold advance
  dsimp only
  split
  · trivial
  · exact unavailable_safe (by simp [publisherMessages])

theorem checkout_safe (outcome : Outcome) : (advance p call w outcome (.checkout job)).2.Safe := by
  refine inWorktree_safe (internal_safe (by simp [publisherMessages]))
    fun worktree time next hnext ↦ ?_
  obtain rfl := Option.some.inj hnext
  trivial

theorem clearTarget_safe (outcome : Outcome) :
    (advance p call w outcome (.clearTarget job)).2.Safe := by
  unfold advance
  dsimp only
  split
  · trivial
  · split_ifs
    · exact osError_safe
    · trivial
  · exact osError_safe

theorem copyTree_safe (outcome : Outcome) : (advance p call w outcome (.copyTree job)).2.Safe := by
  unfold advance
  dsimp only
  split
  · split_ifs
    · trivial
    · exact osError_safe
  · exact osError_safe

theorem revalidate_safe (outcome : Outcome) :
    (advance p call w outcome (.revalidate job)).2.Safe := by
  unfold advance
  dsimp only
  split
  · trivial
  · exact .inr rfl
  · exact osError_safe

theorem configure_safe (outcome : Outcome) :
    (advance p call w outcome (.configureName job)).2.Safe ∧
    (advance p call w outcome (.configureEmail job)).2.Safe := by
  constructor
  all_goals
    refine inWorktree_safe (internal_safe (by simp [publisherMessages]))
      fun worktree time next hnext ↦ ?_
    obtain rfl := Option.some.inj hnext
    trivial

theorem add_safe (outcome : Outcome) : (advance p call w outcome (.add job)).2.Safe := by
  refine inWorktree_safe (internal_safe (by simp [publisherMessages]))
    fun worktree time next hnext ↦ ?_
  obtain ⟨staged, -, rfl⟩ := Option.map_eq_some_iff.mp hnext
  trivial

theorem diffCached_safe (outcome : Outcome) :
    (advance p call w outcome (.diffCached job)).2.Safe := by
  refine inWorktree_safe (internal_safe (by simp [publisherMessages]))
    fun worktree time next hnext ↦ ?_
  dsimp only at hnext
  split_ifs at hnext
  all_goals obtain rfl := Option.some.inj hnext
  · exact invalid_safe (by simp [publisherMessages])
  · trivial

theorem commit_safe (outcome : Outcome) : (advance p call w outcome (.commit job)).2.Safe := by
  refine inWorktree_safe (internal_safe (by simp [publisherMessages]))
    fun worktree time next hnext ↦ ?_
  obtain ⟨committed, -, rfl⟩ := Option.map_eq_some_iff.mp hnext
  trivial

theorem push_safe (outcome : Outcome) : (advance p call w outcome (.push job)).2.Safe := by
  refine inWorktree_safe (unavailable_safe (by simp [publisherMessages]))
    fun worktree time next hnext ↦ ?_
  obtain ⟨history, -, rfl⟩ := Option.map_eq_some_iff.mp hnext
  trivial

theorem verify_safe (outcome : Outcome) : (advance p call w outcome (.verify job)).2.Safe := by
  refine inWorktree_safe (unavailable_safe (by simp [publisherMessages]))
    fun worktree time next hnext ↦ ?_
  split_ifs at hnext
  all_goals obtain rfl := Option.some.inj hnext
  · trivial
  · exact invalid_safe (by simp [publisherMessages])

section Fresh

variable {fresh : Bool}

theorem createPr_safe (outcome : Outcome) :
    (advance p call w outcome (.createPr job fresh)).2.Safe := by
  unfold advance
  dsimp only
  split <;> trivial

theorem racedPr_safe (outcome : Outcome) :
    (advance p call w outcome (.racedPr job fresh)).2.Safe := by
  unfold advance
  dsimp only
  split
  · exact finish_safe (unavailable_safe (by simp [publisherMessages]))
  · split
    next failure hfound => exact finish_safe (existingPr_safe hfound)
    · exact finish_safe (unavailable_safe (by simp [publisherMessages]))
    · exact finish_safe trivial

theorem confirmPr_safe (outcome : Outcome) :
    (advance p call w outcome (.confirmPr job fresh)).2.Safe := by
  unfold advance
  dsimp only
  split
  · exact finish_safe (unavailable_safe (by simp [publisherMessages]))
  · split
    next failure hfound => exact finish_safe (existingPr_safe hfound)
    · exact finish_safe (invalid_safe (by simp [publisherMessages]))
    · exact finish_safe trivial

end Fresh

theorem cleanUp_safe {ending : Ending} (outcome : Outcome) (h : ending.Safe) :
    (advance p call w outcome (.cleanUp job ending)).2.Safe := by
  unfold advance
  dsimp only
  split
  · cases ending <;> exact h
  · exact osError_safe

theorem advance_safe (outcome : Outcome) {phase : Phase} (h : phase.Safe) :
    (advance p call w outcome phase).2.Safe := by
  cases phase with
  | start => exact start_safe outcome
  | authenticate job => exact authenticate_safe outcome
  | lookUp job => exact lookUp_safe outcome
  | inspect job existing => exact inspect_safe outcome
  | clearBranch job existing => exact clearBranch_safe outcome
  | cloneBranch job existing => exact cloneBranch_safe outcome
  | fetchMain job existing => exact fetchMain_safe outcome
  | diffBranch job existing => exact diffBranch_safe outcome
  | checkBranch job existing => exact checkBranch_safe outcome
  | clearMain job => exact clearMain_safe outcome
  | cloneMain job => exact cloneMain_safe outcome
  | checkout job => exact checkout_safe outcome
  | clearTarget job => exact clearTarget_safe outcome
  | copyTree job => exact copyTree_safe outcome
  | revalidate job => exact revalidate_safe outcome
  | configureName job => exact (configure_safe outcome).1
  | configureEmail job => exact (configure_safe outcome).2
  | add job => exact add_safe outcome
  | diffCached job => exact diffCached_safe outcome
  | commit job => exact commit_safe outcome
  | push job => exact push_safe outcome
  | verify job => exact verify_safe outcome
  | createPr job fresh => exact createPr_safe outcome
  | racedPr job fresh => exact racedPr_safe outcome
  | confirmPr job fresh => exact confirmPr_safe outcome
  | cleanUp job ending => exact cleanUp_safe outcome h
  | returned | raised | crashed => exact h

/-- What a run of `publish` can come to, whatever the world is like at each of its operations:
other runs, git, GitHub and everyone else may change it in between. -/
inductive Comes (p : Publisher) (call : PublishCall) : Phase → Prop
  | start : Comes p call .start
  | advance {phase : Phase} (w : World) (outcome : Outcome) (h : Comes p call phase) :
      Comes p call (advance p call w outcome phase).2

theorem Comes.safe {phase : Phase} (h : Comes p call phase) : phase.Safe := by
  induction h with
  | start => trivial
  | advance w outcome _ ih => exact advance_safe outcome ih

end AgenticSecurity.Publishing
