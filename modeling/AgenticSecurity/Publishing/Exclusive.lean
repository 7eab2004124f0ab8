import AgenticSecurity.Publishing.PublishSteps

namespace AgenticSecurity.Publishing

open Library

variable {p : Publisher}

/-- No run but the one at `index` holds the working directory. -/
def HeldByNoOther (s : State) (index : ℕ) (key : String × Branch) : Prop :=
  ∀ (i : ℕ) (other : Run), i ≠ index → s.runs[i]? = some other →
    other.phase.holds other.call ≠ some key

/-- The condition on a step: a working directory is cleared only where no other run holds it. -/
def Exclusive (s : State) : Op → Prop
  | .advance index _ | .crash index _ => ∀ run, s.runs[index]? = some run →
      ∀ key, run.phase.takes run.call = some key → HeldByNoOther s index key
  | .publish _ | .exported _ _ => True

def Separate (s : State) : Prop :=
  ∀ (i : ℕ) (run : Run) key, s.runs[i]? = some run → run.phase.holds run.call = some key →
    HeldByNoOther s i key

theorem lookup_update {s : State} {index : ℕ} {run : Run} (hrun : s.runs[index]? = some run)
    (next : World × Phase) (i : ℕ) : (s.update index run next).runs[i]? =
      if i = index then some { run with phase := next.2 } else s.runs[i]? := by
  by_cases hi : i = index
  · subst hi
    rw [if_pos rfl, State.update, List.getElem?_set_self (List.getElem?_eq_some_iff.mp hrun).1]
  · rw [if_neg hi, State.update, List.getElem?_set_ne (Ne.symm hi)]

theorem lookup_publish {s : State} {call : PublishCall} {i : ℕ} {run : Run}
    (h : (s.runs ++ [{ call, phase := .start }])[i]? = some run) : s.runs[i]? = some run ∨
    run.phase = .start := by
  rcases lt_or_ge i s.runs.length with hlt | hge
  · exact .inl (by rwa [List.getElem?_append_left hlt] at h)
  · rw [List.getElem?_append_right hge] at h
    exact .inr (by rw [List.mem_singleton.mp (List.mem_of_getElem? h)])

theorem abandon_frames (w : World) (call : PublishCall) (phase : Phase)
    (left : Option (Git.Worktree Bytes)) :
    Frames call w phase (w.abandon call phase left, .crashed) := by
  unfold World.abandon
  cases huses : phase.uses call with
  | none => exact .idle rfl
  | some key =>
    exact ⟨fun other hother ↦
      setWorktree_of_ne (fun he ↦ hother (huses.trans (congrArg some he.symm))) w left,
      fun _ hkey ↦ by cases hkey⟩

theorem abandon_remote (w : World) (call : PublishCall) (phase : Phase)
    (left : Option (Git.Worktree Bytes)) :
    (w.abandon call phase left).remote = w.remote := by
  unfold World.abandon
  split <;> rfl

theorem abandon_bundles (w : World) (call : PublishCall) (phase : Phase)
    (left : Option (Git.Worktree Bytes)) :
    (w.abandon call phase left).bundles = w.bundles := by
  unfold World.abandon
  split <;> rfl

section Step

variable {s : State} {index : ℕ} {run : Run} {next : World × Phase}

theorem Separate.uses (h : Separate s) (hrun : s.runs[index]? = some run)
    (hfree : ∀ key, run.phase.takes run.call = some key → HeldByNoOther s index key)
    {key : String × Branch}
    (huses : run.phase.uses run.call = some key) : HeldByNoOther s index key := by
  rcases Option.or_eq_some_iff.mp huses with htakes | ⟨-, hholds⟩
  · exact hfree key htakes
  · exact h index run key hrun hholds

theorem Separate.frame (h : Separate s) (hrun : s.runs[index]? = some run)
    (hfree : ∀ key, run.phase.takes run.call = some key → HeldByNoOther s index key)
    (hframes : Frames run.call s.world run.phase next) {i : ℕ} {other : Run} (hi : i ≠ index)
    (hother : s.runs[i]? = some other) {key : String × Branch}
    (hkey : other.phase.holds other.call = some key) :
    next.1.worktrees key = s.world.worktrees key :=
  hframes.worktrees key fun huses ↦ h.uses hrun hfree huses i other hi hother hkey

theorem Separate.update (h : Separate s) (hrun : s.runs[index]? = some run)
    (hfree : ∀ key, run.phase.takes run.call = some key → HeldByNoOther s index key)
    (hframes : Frames run.call s.world run.phase next) : Separate (s.update index run next) := by
  intro i other key hi hkey j another hji hj
  rw [lookup_update hrun] at hi hj
  split_ifs at hi hj with hindex hindex' hindex'
  · exact absurd (hindex'.trans hindex.symm) hji
  · obtain rfl := Option.some.inj hi
    exact h.uses hrun hfree (hframes.holds key hkey) j another hindex' hj
  · obtain rfl := Option.some.inj hj
    exact fun hanother ↦ h.uses hrun hfree (hframes.holds key hanother) i other hindex hi hkey
  · exact h i other key hi hkey j another hji hj

end Step

theorem Separate.publish {s : State} (h : Separate s) (call : PublishCall) :
    Separate { s with runs := s.runs ++ [{ call, phase := .start }] } := by
  intro i run key hi hkey j other hji hj hother
  rcases lookup_publish hi with hold | hstart
  · rcases lookup_publish hj with hold' | hstart'
    · exact h i run key hold hkey j other hji hold' hother
    · rw [hstart'] at hother
      cases hother
  · rw [hstart] at hkey
    cases hkey

end AgenticSecurity.Publishing
