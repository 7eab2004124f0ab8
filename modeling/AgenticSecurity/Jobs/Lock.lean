import AgenticSecurity.Jobs.Worker
import AgenticSecurity.Library.Simulation

namespace AgenticSecurity.Jobs

open Library Runs Simulation

/-- Where a process stands around the block of `run_once`. Every handle is an open file
description of its own. -/
inductive HandlePhase
  | closed
  | opened
  | empty
  | ready
  | refused
  | inside
  | unlocked
  deriving DecidableEq, Repr

structure LockFile where
  size : Option ℕ := none
  owner : Option ℕ := none
  deriving DecidableEq, Repr

/-- One job database, one lock file as the operating system has it, and the processes. -/
structure Machine where
  store : JobStore := {}
  clock : Timestamp := 0
  phase : ℕ → Phase := fun _ ↦ .idle
  handle : ℕ → HandlePhase := fun _ ↦ .closed
  file : LockFile := {}

inductive Act
  | block (event : Event)
  | openFile (worker : ℕ)
  | statFile (worker : ℕ)
  | writeByte (worker : ℕ)
  | tryLock (worker : ℕ)
  | unlock (worker : ℕ)
  | close (worker : ℕ)
  | crash (worker : ℕ)
  deriving DecidableEq, Repr

def Event.inBlock : Event → Bool
  | .acquire _ | .leave _ | .crash _ => false
  | _ => true

/-- The system with a lock that is acquired and released in one step. -/
def Machine.world (m : Machine) : World where
  store := m.store
  clock := m.clock
  lock := m.file.owner
  phase := m.phase

def Machine.adopt (m : Machine) (world : World) : Machine :=
  { m with store := world.store, clock := world.clock, phase := world.phase }

def Machine.moved (m : Machine) (worker : ℕ) (phase : HandlePhase) : Machine :=
  { m with handle := Function.update m.handle worker phase }

def LockFile.dropped (file : LockFile) (worker : ℕ) : LockFile :=
  { file with owner := if file.owner = some worker then none else file.owner }

variable (config : ℕ → WorkerConfig)

def Machine.step (m : Machine) : Act → Option Machine
  | .block event => if event.inBlock then (Jobs.step config m.world event).map m.adopt else none
  -- `open("a+b")` creates the file if it is not there
  | .openFile worker =>
    if m.handle worker = .closed then
      some { m.moved worker .opened with file := { m.file with size := some (m.file.size.getD 0) } }
    else none
  | .statFile worker =>
    if m.handle worker = .opened then
      some (m.moved worker (if m.file.size = some 0 then .empty else .ready))
    else none
  | .writeByte worker =>
    if m.handle worker = .empty then
      some { m.moved worker .ready with file := { m.file with size := m.file.size.map (· + 1) } }
    else none
  -- `LOCK_EX | LOCK_NB`: the lock is taken or the call fails at once
  | .tryLock worker =>
    if m.handle worker = .ready then
      if m.file.owner = none then
        some { m.moved worker .inside with
          file := { m.file with owner := some worker }
          phase := Function.update m.phase worker .locked }
      else some (m.moved worker .refused)
    else none
  | .unlock worker =>
    if m.handle worker = .inside ∧ m.phase worker = .leaving then
      some { m.moved worker .unlocked with
        file := m.file.dropped worker
        phase := Function.update m.phase worker .idle }
    else none
  | .close worker =>
    if m.handle worker = .refused ∨ m.handle worker = .unlocked then
      some { m.moved worker .closed with file := m.file.dropped worker }
    else none
  -- a process that raises or dies: its handle is closed for it
  | .crash worker =>
    some { m.moved worker .closed with
      file := m.file.dropped worker
      phase := Function.update m.phase worker .idle }

/-- The step of the system that an action is. -/
def Act.event : Act → Option Event
  | .block event => some event
  | .tryLock worker => some (.acquire worker)
  | .unlock worker => some (.leave worker)
  | .crash worker => some (.crash worker)
  | .openFile _ | .statFile _ | .writeByte _ | .close _ => none

/-- The process inside the block is the owner of the lock and works there; nobody has a handle
on a file that does not exist, or on an empty one once it is to be locked. -/
structure Machine.Inv (m : Machine) : Prop where
  owner : ∀ worker, m.file.owner = some worker ↔ m.handle worker = .inside
  phase : ∀ worker, m.phase worker ≠ .idle ↔ m.handle worker = .inside
  created : ∀ worker, m.handle worker ≠ .closed → m.file.size.isSome
  filled : ∀ worker, m.handle worker ∈ [HandlePhase.ready, .refused, .inside, .unlocked] →
    m.file.size ≠ some 0

variable {config}

theorem goto_idle_iff (world : World) {worker : ℕ} {next : Phase} (hw : world.phase worker ≠ .idle)
    (hnext : next ≠ .idle) (other : ℕ) : (world.goto worker next).phase other ≠ .idle ↔
    world.phase other ≠ .idle := by
  rw [goto_phase]
  split_ifs with he
  · rw [he]
    exact iff_of_true hnext hw
  · rfl

theorem step_inBlock {world world' : World} {event : Event} (hin : event.inBlock = true)
    (hs : step config world event = some world') :
    world'.lock = world.lock ∧ ∀ other, world'.phase other ≠ .idle ↔ world.phase other ≠ .idle := by
  cases step_cases hs with
  | clock reading => exact ⟨rfl, fun _ ↦ Iff.rfl⟩
  | enqueue createdAt jobId jobType requestedBy key => exact ⟨rfl, fun _ ↦ Iff.rfl⟩
  | acquired worker hw hlock => cases hin
  | refused worker => cases hin
  | readRecover worker hw => exact ⟨rfl, goto_idle_iff world (by simp [hw]) (by simp)⟩
  | recover worker current hw => exact ⟨rfl, goto_idle_iff world (by simp [hw]) (by simp)⟩
  | readClaim worker hw => exact ⟨rfl, goto_idle_iff world (by simp [hw]) (by simp)⟩
  | claimedNone worker current hw hjob => exact ⟨rfl, goto_idle_iff world (by simp [hw]) (by simp)⟩
  | claimed worker current job hw hjob => exact ⟨rfl, goto_idle_iff world (by simp [hw]) (by simp)⟩
  | executed worker outcome jobId hw => exact ⟨rfl, goto_idle_iff world (by simp [hw]) (by simp)⟩
  | finish worker finishedAt jobId outcome hw =>
    exact ⟨rfl, goto_idle_iff world (by simp [hw]) (by simp)⟩
  | leave worker hw => cases hin
  | crash worker => cases hin

theorem moved_handle (m : Machine) (worker other : ℕ) (phase : HandlePhase) :
    (m.moved worker phase).handle other = if other = worker then phase else m.handle other := by
  simp only [Machine.moved, Function.update_apply]

theorem dropped_owner (file : LockFile) (worker other : ℕ) :
    (file.dropped worker).owner = some other ↔ file.owner = some other ∧ other ≠ worker := by
  unfold LockFile.dropped
  dsimp only
  split_ifs with h
  · simp [h, eq_comm]
  · constructor
    · intro ho
      exact ⟨ho, fun he ↦ h (he ▸ ho)⟩
    · exact fun ho ↦ ho.1

theorem Inv_start_machine : ({} : Machine).Inv := by
  refine ⟨fun w ↦ ?_, fun w ↦ ?_, fun w h ↦ absurd rfl h, fun w h ↦ ?_⟩
  · exact iff_of_false (by simp) (by simp)
  · exact iff_of_false (by simp) (by simp)
  · simp at h

theorem Machine.Inv.move {m : Machine} (h : m.Inv) {worker : ℕ} {next : HandlePhase}
    {size : Option ℕ} (hnow : m.handle worker ≠ .inside) (hnext : next ≠ .inside)
    (hcreated : next ≠ .closed ∨ m.file.size.isSome → size.isSome)
    (hfilled : next ∈ [HandlePhase.ready, .refused, .inside, .unlocked] → size ≠ some 0)
    (hkept : m.file.size.isSome → m.file.size ≠ some 0 → size ≠ some 0) :
    { m.moved worker next with file := { m.file with size := size } : Machine }.Inv := by
  have hhandle :
      ∀ other, (m.moved worker next).handle other = .inside ↔ m.handle other = .inside := by
    intro other
    rw [moved_handle]
    split_ifs with he
    · rw [he]
      exact iff_of_false hnext hnow
    · rfl
  refine ⟨fun other ↦ ?_, fun other ↦ ?_, fun other hother ↦ ?_, fun other hother ↦ ?_⟩
  · exact (h.owner other).trans (hhandle other).symm
  · exact (h.phase other).trans (hhandle other).symm
  · change (m.moved worker next).handle other ≠ .closed at hother
    rw [moved_handle] at hother
    split_ifs at hother with he
    · exact hcreated (.inl hother)
    · exact hcreated (.inr (h.created other hother))
  · change (m.moved worker next).handle other ∈ _ at hother
    rw [moved_handle] at hother
    split_ifs at hother with he
    · exact hfilled hother
    · have hopen : m.handle other ≠ .closed := by
        intro hclosed
        rw [hclosed] at hother
        simp at hother
      exact hkept (h.created other hopen) (h.filled other hother)

theorem Machine.Inv.drop {m : Machine} (h : m.Inv) {worker : ℕ} {next : HandlePhase}
    (hnext : next ≠ .inside) (hopen : next ≠ .closed → m.handle worker = .inside) :
    { m.moved worker next with
      file := m.file.dropped worker
      phase := Function.update m.phase worker .idle : Machine }.Inv := by
  refine ⟨fun other ↦ ?_, fun other ↦ ?_, fun other hother ↦ ?_, fun other hother ↦ ?_⟩
  · change (m.file.dropped worker).owner = some other ↔ (m.moved worker next).handle other = .inside
    rw [dropped_owner, moved_handle, h.owner other]
    split_ifs with he
    · exact iff_of_false (fun hi ↦ hi.2 he) hnext
    · exact and_iff_left he
  · change Function.update m.phase worker .idle other ≠ .idle ↔
      (m.moved worker next).handle other = .inside
    rw [Function.update_apply, moved_handle]
    split_ifs with he
    · exact iff_of_false (fun hi ↦ hi rfl) hnext
    · exact h.phase other
  · change (m.moved worker next).handle other ≠ .closed at hother
    change m.file.size.isSome
    rw [moved_handle] at hother
    split_ifs at hother with he
    · refine h.created worker ?_
      rw [hopen hother]
      simp
    · exact h.created other hother
  · change (m.moved worker next).handle other ∈ _ at hother
    change m.file.size ≠ some 0
    rw [moved_handle] at hother
    split_ifs at hother with he
    · by_cases hclosed : next = .closed
      · rw [hclosed] at hother
        simp at hother
      · refine h.filled worker ?_
        rw [hopen hclosed]
        simp
    · exact h.filled other hother

theorem block_refines {m m' : Machine} {event : Event} (h : m.Inv)
    (hs : m.step config (.block event) = some m') :
    m'.Inv ∧ step config m.world event = some m'.world := by
  simp only [Machine.step] at hs
  split_ifs at hs with hin
  obtain ⟨world', hw, rfl⟩ := Option.map_eq_some_iff.mp hs
  obtain ⟨hlock, hphase⟩ := step_inBlock hin hw
  refine ⟨⟨h.owner, fun other ↦ (hphase other).trans (h.phase other), h.created, h.filled⟩, ?_⟩
  rw [hw]
  exact congrArg some (congrArg (fun lock ↦ { world' with lock := lock }) hlock)

theorem tryLock_refines {m m' : Machine} {worker : ℕ} (h : m.Inv)
    (hs : m.step config (.tryLock worker) = some m') :
    m'.Inv ∧ step config m.world (.acquire worker) = some m'.world := by
  simp only [Machine.step] at hs
  split_ifs at hs with hready hfree
  · obtain rfl := Option.some.inj hs
    have hidle : m.phase worker = .idle := by
      by_contra hbusy
      exact absurd ((h.phase worker).mp hbusy) (by rw [hready]; simp)
    have hnone : ∀ other, m.handle other ≠ .inside := by
      intro other hother
      exact absurd ((h.owner other).mpr hother) (by rw [hfree]; simp)
    refine ⟨⟨fun other ↦ ?_, fun other ↦ ?_, fun other hother ↦ ?_, fun other hother ↦ ?_⟩, ?_⟩
    · change some worker = some other ↔ (m.moved worker .inside).handle other = .inside
      rw [moved_handle, Option.some.injEq]
      split_ifs with he
      · exact iff_of_true he.symm rfl
      · exact iff_of_false (fun heq ↦ he heq.symm) (hnone other)
    · change Function.update m.phase worker .locked other ≠ .idle ↔
        (m.moved worker .inside).handle other = .inside
      rw [Function.update_apply, moved_handle]
      split_ifs with he
      · exact iff_of_true (by simp) rfl
      · exact h.phase other
    · change (m.moved worker .inside).handle other ≠ .closed at hother
      rw [moved_handle] at hother
      split_ifs at hother with he
      · exact h.created worker (by rw [hready]; simp)
      · exact h.created other hother
    · change (m.moved worker .inside).handle other ∈ _ at hother
      rw [moved_handle] at hother
      split_ifs at hother with he
      · exact h.filled worker (by rw [hready]; simp)
      · exact h.filled other hother
    · simp only [Jobs.step, Machine.world, hidle, hfree, if_true]
      rfl
  · obtain rfl := Option.some.inj hs
    have hidle : m.phase worker = .idle := by
      by_contra hbusy
      exact absurd ((h.phase worker).mp hbusy) (by rw [hready]; simp)
    refine ⟨?_, ?_⟩
    · refine h.move (by rw [hready]; simp) (by simp)
        (fun _ ↦ h.created worker (by rw [hready]; simp)) ?_
        fun _ hsize ↦ hsize
      exact fun _ ↦ h.filled worker (by rw [hready]; simp)
    · simp only [Jobs.step, Machine.world, hidle, hfree, if_false]
      rfl

theorem act_refines {m m' : Machine} {act : Act} (h : m.Inv) (hs : m.step config act = some m') :
    m'.Inv ∧ exec (step config) m.world act.event.toList = some m'.world := by
  cases act with
  | block event =>
    obtain ⟨hinv, hstep⟩ := block_refines h hs
    exact ⟨hinv, exec_single.trans hstep⟩
  | tryLock worker =>
    obtain ⟨hinv, hstep⟩ := tryLock_refines h hs
    exact ⟨hinv, exec_single.trans hstep⟩
  | openFile worker =>
    simp only [Machine.step] at hs
    split_ifs at hs with hclosed
    obtain rfl := Option.some.inj hs
    refine ⟨h.move (by rw [hclosed]; simp) (by simp) (fun _ ↦ rfl) (by simp) ?_, rfl⟩
    intro hsome hsize
    obtain ⟨size, hsize'⟩ := Option.isSome_iff_exists.mp hsome
    rwa [hsize', Option.getD_some, ← hsize']
  | statFile worker =>
    simp only [Machine.step] at hs
    split_ifs at hs with hopened hempty <;> obtain rfl := Option.some.inj hs
    · refine ⟨h.move (by rw [hopened]; simp) (by simp) ?_ (by simp) fun _ hsize ↦ hsize, rfl⟩
      exact fun _ ↦ h.created worker (by rw [hopened]; simp)
    · refine ⟨h.move (by rw [hopened]; simp) (by simp) ?_ (fun _ ↦ hempty) fun _ hsize ↦ hsize, rfl⟩
      exact fun _ ↦ h.created worker (by rw [hopened]; simp)
  | writeByte worker =>
    simp only [Machine.step] at hs
    split_ifs at hs with hempty
    obtain rfl := Option.some.inj hs
    have hsome := h.created worker (by rw [hempty]; simp)
    obtain ⟨size, hsize⟩ := Option.isSome_iff_exists.mp hsome
    have hnext : m.file.size.map (· + 1) = some (size + 1) := by rw [hsize, Option.map_some]
    refine ⟨h.move (by rw [hempty]; simp) (by simp) (fun _ ↦ by rw [hnext]; rfl) ?_ ?_, rfl⟩
    · exact fun _ ↦ by rw [hnext]; simp
    · exact fun _ _ ↦ by rw [hnext]; simp
  | unlock worker =>
    simp only [Machine.step] at hs
    split_ifs at hs with hleaving
    obtain rfl := Option.some.inj hs
    refine ⟨h.drop (by simp) fun _ ↦ hleaving.1, exec_single.trans ?_⟩
    simp only [Jobs.step, Machine.world, hleaving.2]
    rfl
  | close worker =>
    simp only [Machine.step] at hs
    split_ifs at hs with hdone
    obtain rfl := Option.some.inj hs
    have hout : m.handle worker ≠ .inside := by
      rcases hdone with hdone | hdone <;> rw [hdone] <;> simp
    have howner : m.file.owner ≠ some worker := fun ho ↦ hout ((h.owner worker).mp ho)
    have hfile : m.file.dropped worker = m.file := by
      rw [LockFile.dropped, if_neg howner]
    refine ⟨?_, ?_⟩
    · rw [hfile]
      exact h.move hout (by simp) (fun hsome ↦ hsome.resolve_left (by simp))
        (by simp) fun _ hsize ↦ hsize
    · rw [hfile]
      rfl
  | crash worker =>
    obtain rfl := Option.some.inj hs
    exact ⟨h.drop (by simp) (by simp), rfl⟩

/-- No process is between two calls of `acquire`. -/
def Machine.Quiet (m : Machine) : Prop :=
  ∀ worker, m.handle worker = .closed ∨ m.handle worker = .inside

/-- The action is possible, and takes the handle of the process to `next`. -/
def Moves (config : ℕ → WorkerConfig) (m : Machine) (act : Act) (worker : ℕ) (next : HandlePhase) :
    Prop :=
  ∃ m', m.step config act = some m' ∧ m'.handle = Function.update m.handle worker next

section Moves

variable {m : Machine} {worker : ℕ}

theorem openFile_moves (h : m.handle worker = .closed) :
    Moves config m (.openFile worker) worker .opened :=
  ⟨_, if_pos h, rfl⟩

theorem statFile_moves (h : m.handle worker = .opened) :
    Moves config m (.statFile worker) worker (if m.file.size = some 0 then .empty else .ready) :=
  ⟨_, if_pos h, rfl⟩

theorem writeByte_moves (h : m.handle worker = .empty) :
    Moves config m (.writeByte worker) worker .ready :=
  ⟨_, if_pos h, rfl⟩

theorem tryLock_moves (h : m.handle worker = .ready) :
    Moves config m (.tryLock worker) worker (if m.file.owner = none then .inside
      else .refused) := by
  unfold Moves
  rw [Machine.step, if_pos h]
  split_ifs
  · exact ⟨_, rfl, rfl⟩
  · exact ⟨_, rfl, rfl⟩

theorem unlock_moves (h : m.handle worker = .inside) (hphase : m.phase worker = .leaving) :
    Moves config m (.unlock worker) worker .unlocked := ⟨_, if_pos ⟨h, hphase⟩, rfl⟩

theorem close_moves (h : m.handle worker = .refused ∨ m.handle worker = .unlocked) :
    Moves config m (.close worker) worker .closed := ⟨_, if_pos h, rfl⟩

end Moves

/-- The process gets from one phase of its handle to another, by actions that are these steps of
the system, while the other handles stay as they are. -/
def Reaches (config : ℕ → WorkerConfig) (m : Machine) (worker : ℕ) (events : List Event)
    (goal : HandlePhase → Prop) : Prop :=
  ∃ acts m', acts.filterMap Act.event = events ∧ exec (Machine.step config) m acts = some m' ∧
    goal (m'.handle worker) ∧ ∀ other, other ≠ worker → m'.handle other = m.handle other

theorem Moves.reaches {m : Machine} {act : Act} {worker : ℕ} {next : HandlePhase}
    (h : Moves config m act worker next) {events : List Event} {goal : HandlePhase → Prop}
    (hrest : ∀ m', m'.handle worker = next → Reaches config m' worker events goal) :
    Reaches config m worker (act.event.toList ++ events) goal := by
  obtain ⟨m', hstep, hhandle⟩ := h
  obtain ⟨acts, m'', hevents, hrun, hgoal, hothers⟩ :=
    hrest m' (by rw [hhandle, Function.update_self])
  refine ⟨act :: acts, m'', ?_, exec_cons.mpr ⟨m', hstep, hrun⟩, hgoal, fun other hne ↦ ?_⟩
  · rw [← hevents, List.filterMap_cons]
    cases act.event <;> rfl
  · rw [hothers other hne, hhandle, Function.update_of_ne hne]

theorem Reaches.here {m : Machine} {worker : ℕ} {goal : HandlePhase → Prop}
    (h : goal (m.handle worker)) :
    Reaches config m worker [] goal := ⟨[], m, rfl, rfl, h, fun _ _ ↦ rfl⟩

theorem Machine.Quiet.settle {m : Machine} (h : m.Quiet) {worker : ℕ} {events : List Event}
    (hreaches : Reaches config m worker events fun next ↦ next = .closed ∨ next = .inside) :
    ∃ acts m', acts.filterMap Act.event = events ∧ exec (Machine.step config) m acts = some m' ∧
      m'.Quiet := by
  obtain ⟨acts, m', hevents, hrun, hworker, hothers⟩ := hreaches
  refine ⟨acts, m', hevents, hrun, fun other ↦ ?_⟩
  by_cases he : other = worker
  · rw [he]
    exact hworker
  · rw [hothers other he]
    exact h other

theorem reaches_acquire {m : Machine} {worker : ℕ} (hclosed : m.handle worker = .closed) :
    Reaches config m worker [.acquire worker] fun next ↦ next = .closed ∨ next = .inside := by
  have htry : ∀ m' : Machine, m'.handle worker = .ready →
      Reaches config m' worker [.acquire worker] fun next ↦ next = .closed ∨ next = .inside := by
    intro m' hready
    refine (tryLock_moves hready).reaches fun tried htried ↦ ?_
    split_ifs at htried
    · exact .here (.inr htried)
    · exact (close_moves (.inl htried)).reaches fun closed hdone ↦ .here (.inl hdone)
  refine (openFile_moves hclosed).reaches
    fun opened hopened ↦ (statFile_moves hopened).reaches fun sized hsized ↦ ?_
  split_ifs at hsized
  · exact (writeByte_moves hsized).reaches htry
  · exact htry sized hsized

theorem step_realized {m : Machine} {event : Event} {world : World} (h : m.Inv ∧ m.Quiet)
    (hs : step config m.world event = some world) :
    ∃ acts m', acts.filterMap Act.event = [event] ∧ exec (Machine.step config) m acts = some m' ∧
      (m'.Inv ∧ m'.Quiet) ∧ m'.world = world := by
  obtain ⟨hinv, hquiet⟩ := h
  have hreach :
      ∃ acts m', acts.filterMap Act.event = [event] ∧ exec (Machine.step config) m acts = some m' ∧
      m'.Quiet := by
    by_cases hin : event.inBlock = true
    · refine ⟨[.block event], m.adopt world, rfl, exec_single.trans ?_, hquiet⟩
      rw [Machine.step, if_pos hin, hs, Option.map_some]
    · cases event with
      | acquire worker =>
        have hidle : m.phase worker = .idle := by
          by_contra hbusy
          simp only [Jobs.step] at hs
          split at hs
          next hw => exact hbusy hw
          · cases hs
        refine hquiet.settle (reaches_acquire ((hquiet worker).resolve_right fun hinside ↦ ?_))
        exact absurd hidle ((hinv.phase worker).mpr hinside)
      | leave worker =>
        have hleaving : m.phase worker = .leaving := by
          simp only [Jobs.step] at hs
          split at hs
          next hw => exact hw
          · cases hs
        have hinside := (hinv.phase worker).mp (by rw [hleaving]; simp)
        refine hquiet.settle ((unlock_moves hinside hleaving).reaches fun unlocked hunlocked ↦ ?_)
        exact (close_moves (.inr hunlocked)).reaches fun closed hdone ↦ .here (.inl hdone)
      | crash worker =>
        have hcrash : Moves config m (.crash worker) worker .closed := ⟨_, rfl, rfl⟩
        exact hquiet.settle (hcrash.reaches fun closed hdone ↦ .here (.inl hdone))
      | _ => exact absurd rfl hin
  obtain ⟨acts, m', hacts, hrun, hquiet'⟩ := hreach
  obtain ⟨hinv', hworld⟩ :=
    exec_refines Machine.Inv (fun _ _ _ hm hstep ↦ act_refines hm hstep) hinv hrun
  rw [hacts, exec_single, hs] at hworld
  exact ⟨acts, m', hacts, hrun, ⟨hinv', hquiet'⟩, (Option.some.inj hworld).symm⟩

/-- The lock file, its handles and the calls on them give the workers exactly the lock that is
taken and released in one step: every run of the calls is a run of that system, with the lock
owned by the one process inside the block, and every run of that system can be made of calls. -/
theorem lock_refines (config : ℕ → WorkerConfig) :
    (∀ acts m, exec (Machine.step config) {} acts = some m →
      exec (step config) {} (acts.filterMap Act.event) = some m.world ∧
        ∀ worker, m.world.lock = some worker ↔ m.handle worker = .inside) ∧
    ∀ events world, exec (step config) {} events = some world →
      ∃ acts m, acts.filterMap Act.event = events ∧ exec (Machine.step config) {} acts = some m ∧
        m.world = world := by
  constructor
  · intro acts m hrun
    obtain ⟨hinv, hworld⟩ :=
      exec_refines Machine.Inv (fun _ _ _ hm hstep ↦ act_refines hm hstep) Inv_start_machine hrun
    exact ⟨hworld, hinv.owner⟩
  · intro events world hrun
    obtain ⟨acts, m, hacts, hacted, -, hworld⟩ :=
      exec_realizes (fun m : Machine ↦ m.Inv ∧ m.Quiet) (fun _ _ _ hm hs ↦ step_realized hm hs)
        (s := ({} : Machine)) ⟨Inv_start_machine, fun _ ↦ .inl rfl⟩ hrun
    exact ⟨acts, m, hacts, hacted, hworld⟩

def twoHandles : List Act :=
  [.openFile 0, .statFile 0, .openFile 1, .statFile 1, .writeByte 1, .tryLock 1,
    .writeByte 0, .tryLock 0]

theorem lock_refines_twoHandles : ∃ m, exec (Machine.step fun _ ↦ {}) {} twoHandles = some m ∧
    exec (step fun _ ↦ {}) {} [.acquire 1, .acquire 0] = some m.world ∧ m.world.lock = some 1 ∧
    m.handle 1 = .inside ∧ m.handle 0 = .refused := by
  refine ⟨_, rfl, ?_⟩
  obtain ⟨hworld, howner⟩ := (lock_refines fun _ ↦ {}).1 twoHandles _ rfl
  exact ⟨hworld, (howner 1).mpr rfl, rfl, rfl⟩

end AgenticSecurity.Jobs
