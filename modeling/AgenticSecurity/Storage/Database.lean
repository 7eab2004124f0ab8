import AgenticSecurity.Library.Runs
import AgenticSecurity.Library.Table
import Mathlib.Data.String.Basic
import Mathlib.Logic.Function.Basic

namespace AgenticSecurity.Storage

open Library Runs

inductive SchemaObject
  | table (name : String)
  | index (name : String)
  | trigger (name : String)
  deriving DecidableEq, Repr

/-- `schema.sql`, of which every statement is a `CREATE ... IF NOT EXISTS`. -/
@[irreducible] def schemaScript : List SchemaObject :=
  [.table "methodology_versions", .table "taxonomy_versions", .table "vendors", .table "systems",
    .table "agents", .table "capabilities", .table "controls", .table "architecture_patterns",
    .table "models", .table "harnesses", .table "benchmarks", .table "sources",
    .table "source_provenance", .table "snapshots", .table "evidence", .table "assertions",
    .table "assertion_evidence", .table "observations", .table "lifecycle_events",
    .trigger "lifecycle_events_no_update", .trigger "lifecycle_events_no_delete",
    .table "autonomy_assessments", .table "benchmark_results", .table "material_change_examples",
    .table "structured_diffs", .table "change_review_queue",
    .trigger "change_review_queue_no_update", .trigger "change_review_queue_no_delete",
    .trigger "change_review_queue_preserve_machine_proposal",
    .index "one_machine_proposal_per_candidate", .index "one_successor_per_review",
    .table "confirmed_changes", .table "contradiction_flags", .table "contradiction_resolutions",
    .table "output_articles", .table "output_trends"]

/-- A file of `migrations`: the parts of its stem around the first underscore, and its
`CREATE ... IF NOT EXISTS` statements. -/
structure Migration where
  version : ℕ
  name : String
  script : List SchemaObject
  deriving DecidableEq, Repr

/-- The files of `migrations` in the order of their names. -/
structure MigrationDirectory where
  files : List Migration
  versions : (files.map Migration.version).Nodup

def migrationDirectory : MigrationDirectory where
  files :=
    [{ version := 1, name := "runtime_jobs",
       script := [.table "jobs", .index "jobs_status_created_idx", .table "pipeline_leases",
        .table "worker_heartbeats"] }]
  versions := List.nodup_singleton 1

structure MigrationRow where
  version : ℕ
  name : String
  appliedAt : ℤ
  deriving DecidableEq, Repr

/-- The rows of `schema_migrations`, whose primary key is the version. -/
structure SchemaMigrations where
  rows : List MigrationRow := []
  primaryKey : (rows.map MigrationRow.version).Nodup := by simp

def SchemaMigrations.versions (table : SchemaMigrations) : List ℕ :=
  table.rows.map MigrationRow.version

def SchemaMigrations.insert (table : SchemaMigrations) (row : MigrationRow) :
    Option SchemaMigrations :=
  if h : row.version ∈ table.versions then none
  else some ⟨table.rows ++ [row], Table.nodup_append_singleton table.primaryKey h⟩

structure DatabaseFile where
  objects : List SchemaObject := []
  schemaMigrations : Option SchemaMigrations := none
  userVersion : ℕ := 0

/-- `executescript` on statements that skip what exists. -/
def DatabaseFile.executescript (database : DatabaseFile) (script : List SchemaObject) :
    DatabaseFile :=
  { database with
    objects := script.foldl (fun objects o ↦ if o ∈ objects then objects else objects ++ [o])
      database.objects }

inductive DatabaseError
  | noSuchTable (name : String)
  | uniqueFailed (column : String)
  deriving DecidableEq, Repr

def DatabaseFile.migrate (database : DatabaseFile) (file : Migration) (now : ℤ) :
    Except DatabaseError DatabaseFile :=
  let created := database.executescript file.script
  match created.schemaMigrations with
  | none => .error (.noSuchTable "schema_migrations")
  | some table =>
    match table.insert { version := file.version, name := file.name, appliedAt := now } with
    | none => .error (.uniqueFailed "schema_migrations.version")
    | some table => .ok { created with schemaMigrations := some table, userVersion := file.version }

/-- Where a call stands; `rest` are the files that its loop has yet to look at. -/
inductive InitializePhase
  | idle
  | schema
  | createMigrations
  | check (rest : List Migration)
  | apply (file : Migration) (rest : List Migration)
  | returned
  | raised (error : DatabaseError)
  deriving DecidableEq, Repr

structure InitializeWorld where
  database : DatabaseFile
  phase : ℕ → InitializePhase := fun _ ↦ .idle

inductive InitializeEvent
  | call (process : ℕ)
  | step (process : ℕ) (now : ℤ)
  deriving DecidableEq, Repr

def InitializeWorld.goto (world : InitializeWorld) (process : ℕ) (phase : InitializePhase) :
    InitializeWorld :=
  { world with phase := Function.update world.phase process phase }

variable (directory : MigrationDirectory)

/-- The next transaction of a call; `none` when it has ended or not begun. -/
def InitializeWorld.step (world : InitializeWorld) : InitializeEvent → Option InitializeWorld
  | .call process =>
    match world.phase process with
    | .idle => some (world.goto process .schema)
    | _ => none
  | .step process now =>
    match world.phase process with
    | .schema =>
      some { world.goto process .createMigrations with
        database := world.database.executescript schemaScript }
    | .createMigrations =>
      some { world.goto process (.check directory.files) with
        database := { world.database with
          schemaMigrations := some (world.database.schemaMigrations.getD {}) } }
    | .check [] => some (world.goto process .returned)
    | .check (file :: rest) =>
      match world.database.schemaMigrations with
      | none => some (world.goto process (.raised (.noSuchTable "schema_migrations")))
      | some table =>
        if file.version ∈ table.versions then some (world.goto process (.check rest))
        else some (world.goto process (.apply file rest))
    | .apply file rest =>
      match world.database.migrate file now with
      | .error error => some (world.goto process (.raised error))
      | .ok database => some { world.goto process (.check rest) with database }
    | _ => none

theorem migrate_ok {database database' : DatabaseFile} {file : Migration} {now : ℤ}
    (h : database.migrate file now = .ok database') :
    ∃ table table', database.schemaMigrations = some table ∧ file.version ∉ table.versions ∧
      database'.schemaMigrations = some table' ∧ table'.versions = table.versions ++
        [file.version] := by
  simp only [DatabaseFile.migrate, DatabaseFile.executescript, SchemaMigrations.insert] at h
  split at h
  · cases h
  next table htable =>
    split at h
    · cases h
    next table' hinsert =>
      split_ifs at hinsert with hfresh
      obtain rfl := Option.some.inj hinsert
      obtain rfl := Except.ok.inj h
      exact ⟨table, _, htable, hfresh, rfl, List.map_append⟩

theorem migrate_error {database : DatabaseFile} {table : SchemaMigrations}
    {file : Migration} (now : ℤ) (htable : database.schemaMigrations = some table) :
    (∃ error, database.migrate file now = .error error) ↔ file.version ∈ table.versions := by
  simp only [DatabaseFile.migrate, DatabaseFile.executescript, htable, SchemaMigrations.insert]
  split_ifs with hstored <;> simp [hstored]

/-- The migration that a step applies is in the table already: another call has applied it
since this one looked. -/
def AppliesStored (world : InitializeWorld) : InitializeEvent → Prop
  | .call _ => False
  | .step process _ => ∃ file rest table, world.phase process = .apply file rest ∧
      world.database.schemaMigrations = some table ∧ file.version ∈ table.versions

/-- The versions that are stored, none before the table exists. -/
def DatabaseFile.stored (database : DatabaseFile) : Option (List ℕ) :=
  database.schemaMigrations.map SchemaMigrations.versions

/-- The files that a call inside its loop has not found or put in the table. -/
def InitializePhase.pending : InitializePhase → Option (List Migration)
  | .check rest => some rest
  | .apply file rest => some (file :: rest)
  | .returned => some []
  | _ => none

/-- The transactions that are left to a call. -/
def InitializePhase.remaining : InitializePhase → ℕ
  | .idle | .schema => 2 * directory.files.length + 3
  | .createMigrations => 2 * directory.files.length + 2
  | .check rest => 2 * rest.length + 1
  | .apply _ rest => 2 * rest.length + 2
  | .returned | .raised _ => 0

theorem goto_phase (world : InitializeWorld) (process other : ℕ) (phase : InitializePhase) :
    (world.goto process phase).phase other = if other = process then phase
      else world.phase other := by
  simp only [InitializeWorld.goto, Function.update_apply]

inductive InitializeCase (world : InitializeWorld) : InitializeEvent → InitializeWorld → Prop
  | call (process : ℕ) (hp : world.phase process = .idle) :
      InitializeCase world (.call process) (world.goto process .schema)
  | schema (process : ℕ) (now : ℤ) (hp : world.phase process = .schema) :
      InitializeCase world (.step process now)
        { world.goto process .createMigrations with
          database := world.database.executescript schemaScript }
  | createMigrations (process : ℕ) (now : ℤ) (hp : world.phase process = .createMigrations) :
      InitializeCase world (.step process now)
        { world.goto process (.check directory.files) with
          database := { world.database with
            schemaMigrations := some (world.database.schemaMigrations.getD {}) } }
  | returned (process : ℕ) (now : ℤ) (hp : world.phase process = .check []) :
      InitializeCase world (.step process now) (world.goto process .returned)
  | noTable (process : ℕ) (now : ℤ) (file : Migration) (rest : List Migration)
      (hp : world.phase process = .check (file :: rest))
      (htable : world.database.schemaMigrations = none) :
      InitializeCase world (.step process now)
        (world.goto process (.raised (.noSuchTable "schema_migrations")))
  | found (process : ℕ) (now : ℤ) (file : Migration) (rest : List Migration)
      (table : SchemaMigrations)
      (hp : world.phase process = .check (file :: rest))
      (htable : world.database.schemaMigrations = some table)
      (hfile : file.version ∈ table.versions) :
      InitializeCase world (.step process now) (world.goto process (.check rest))
  | missing (process : ℕ) (now : ℤ) (file : Migration) (rest : List Migration)
      (hp : world.phase process = .check (file :: rest)) :
      InitializeCase world (.step process now) (world.goto process (.apply file rest))
  | refused (process : ℕ) (now : ℤ) (file : Migration) (rest : List Migration)
      (error : DatabaseError)
      (hp : world.phase process = .apply file rest)
      (herror : world.database.migrate file now = .error error) :
      InitializeCase world (.step process now) (world.goto process (.raised error))
  | applied (process : ℕ) (now : ℤ) (file : Migration) (rest : List Migration)
      (database : DatabaseFile)
      (hp : world.phase process = .apply file rest)
      (hok : world.database.migrate file now = .ok database) :
      InitializeCase world (.step process now) { world.goto process (.check rest) with database }

variable {directory}

theorem initialize_cases {world world' : InitializeWorld} {event : InitializeEvent}
    (hs : world.step directory event = some world') :
    InitializeCase directory world event world' := by
  cases event with
  | call process =>
    simp only [InitializeWorld.step] at hs
    split at hs
    next hp => exact Option.some.inj hs ▸ .call process hp
    · cases hs
  | step process now =>
    simp only [InitializeWorld.step] at hs
    split at hs
    next hp => exact Option.some.inj hs ▸ .schema process now hp
    next hp => exact Option.some.inj hs ▸ .createMigrations process now hp
    next hp => exact Option.some.inj hs ▸ .returned process now hp
    next file rest hp =>
      split at hs
      next htable => exact Option.some.inj hs ▸ .noTable process now file rest hp htable
      next table htable =>
        split_ifs at hs with hfile
        · exact Option.some.inj hs ▸ .found process now file rest table hp htable hfile
        · exact Option.some.inj hs ▸ .missing process now file rest hp
    next file rest hp =>
      split at hs
      next error herror => exact Option.some.inj hs ▸ .refused process now file rest error hp herror
      next database hok => exact Option.some.inj hs ▸ .applied process now file rest database hp hok
    · cases hs

def stepsOf (process : ℕ) (events : List InitializeEvent) : ℕ :=
  events.countP fun | .call _ => false | .step other _ => other = process

theorem remaining_step {world world' : InitializeWorld} {event : InitializeEvent}
    (hs : world.step directory event = some world') (process : ℕ) :
    stepsOf process [event] + (world'.phase process).remaining directory ≤
      (world.phase process).remaining directory := by
  have hmove : ∀ (other : ℕ) (next : InitializePhase) (n : ℕ),
      n + next.remaining directory ≤ (world.phase other).remaining directory →
      (if other = process then n
        else 0) + ((world.goto other next).phase process).remaining directory ≤
        (world.phase process).remaining directory := by
    intro other next n hle
    rw [goto_phase]
    by_cases he : process = other
    · subst he
      simpa only [if_true] using hle
    · rw [if_neg he, if_neg (Ne.symm he), Nat.zero_add]
  have hcount :
      ∀ other now, stepsOf process [.step other now] = if other = process then 1 else 0 := by
    intro other now
    simp [stepsOf, List.countP_cons]
  cases initialize_cases hs with
  | call other hp =>
    have h := hmove other .schema 0 (by simp [hp, InitializePhase.remaining])
    simpa [stepsOf] using h
  | schema other now hp | createMigrations other now hp | returned other now hp
  | noTable other now file rest hp _ | found other now file rest table hp _ _
  | missing other now file rest hp | refused other now file rest error hp _
  | applied other now file rest database hp _ =>
    rw [hcount]
    refine hmove other _ 1 ?_
    simp only [hp, InitializePhase.remaining, List.length_cons, List.length_nil]
    omega

theorem remaining_exec {world world' : InitializeWorld} {events : List InitializeEvent}
    (h : exec (InitializeWorld.step directory) world events = some world') (process : ℕ) :
    stepsOf process events + (world'.phase process).remaining directory ≤
      (world.phase process).remaining directory := by
  induction events generalizing world with
  | nil =>
    obtain rfl := Option.some.inj h
    simp [stepsOf]
  | cons event events ih =>
    obtain ⟨u, hu, hrest⟩ := exec_cons.mp h
    have hhead := remaining_step hu process
    have htail := ih hrest
    have hcount : stepsOf process (event :: events) =
        stepsOf process [event] + stepsOf process events := by
      simp only [stepsOf, List.countP_cons, List.countP_nil]
      omega
    omega

structure InitializeWorld.Inv (directory : MigrationDirectory) (world : InitializeWorld) :
    Prop where
  noError : ∀ process error, world.phase process ≠ .raised error
  done : ∀ process rest, (world.phase process).pending = some rest →
    ∃ versions, world.database.stored = some versions ∧
      ∀ file ∈ directory.files, file ∉ rest → file.version ∈ versions

theorem Inv_goto {world : InitializeWorld} (h : world.Inv directory) {process : ℕ}
    {next : InitializePhase} {database : DatabaseFile}
    (hstored : ∀ versions, world.database.stored = some versions →
      ∃ added, database.stored = some (versions ++ added))
    (hnext : ∀ error, next ≠ .raised error)
    (hdone : ∀ rest, next.pending = some rest → ∃ versions, database.stored = some versions ∧
      ∀ file ∈ directory.files, file ∉ rest → file.version ∈ versions) :
    { world.goto process next with database : InitializeWorld }.Inv directory := by
  constructor
  · intro other error
    change (world.goto process next).phase other ≠ _
    rw [goto_phase]
    split_ifs
    · exact hnext error
    · exact h.noError other error
  · intro other rest hrest
    change ((world.goto process next).phase other).pending = _ at hrest
    rw [goto_phase] at hrest
    split_ifs at hrest
    · exact hdone rest hrest
    · obtain ⟨versions, hversions, hin⟩ := h.done other rest hrest
      obtain ⟨added, hadded⟩ := hstored versions hversions
      exact ⟨_, hadded, fun file hfile hne ↦ List.mem_append_left added (hin file hfile hne)⟩

theorem Inv_step {world world' : InitializeWorld} {event : InitializeEvent}
    (h : world.Inv directory) (hs : world.step directory event = some world')
    (hfresh : ¬ AppliesStored world event) :
    world'.Inv directory := by
  have hsame : ∀ versions, world.database.stored = some versions →
      ∃ added, world.database.stored = some (versions ++ added) :=
    fun versions hv ↦ ⟨[], by rw [List.append_nil, hv]⟩
  cases initialize_cases hs with
  | call process hp => exact Inv_goto h hsame (by simp) (by simp [InitializePhase.pending])
  | schema process now hp => exact Inv_goto h hsame (by simp) (by simp [InitializePhase.pending])
  | createMigrations process now hp =>
    refine Inv_goto h (fun versions hv ↦ ⟨[], ?_⟩) (by simp) fun rest hrest ↦ ?_
    · obtain ⟨table, htable, rfl⟩ := Option.map_eq_some_iff.mp hv
      simp [DatabaseFile.stored, htable]
    · obtain rfl := Option.some.inj hrest
      exact ⟨_, rfl, fun file hfile hne ↦ absurd hfile hne⟩
  | returned process now hp =>
    refine Inv_goto h hsame (by simp) fun rest hrest ↦ h.done process rest ?_
    rw [hp]
    exact hrest
  | noTable process now file rest hp htable =>
    obtain ⟨versions, hversions, -⟩ := h.done process (file :: rest) (by rw [hp]; rfl)
    simp [DatabaseFile.stored, htable] at hversions
  | found process now file rest table hp htable hfile =>
    refine Inv_goto h hsame (by simp) fun rest' hrest ↦ ?_
    obtain rfl := Option.some.inj hrest
    obtain ⟨versions, hversions, hin⟩ := h.done process (file :: rest) (by rw [hp]; rfl)
    refine ⟨versions, hversions, fun other hother hne ↦ ?_⟩
    by_cases he : other = file
    · simp only [DatabaseFile.stored, htable, Option.map_some, Option.some.injEq] at hversions
      exact he ▸ hversions ▸ hfile
    · exact hin other hother (by simp [he, hne])
  | missing process now file rest hp =>
    refine Inv_goto h hsame (by simp) fun rest' hrest ↦ h.done process rest' ?_
    rw [hp]
    exact hrest
  | refused process now file rest error hp herror =>
    obtain ⟨versions, hversions, -⟩ := h.done process (file :: rest) (by rw [hp]; rfl)
    obtain ⟨table, htable, rfl⟩ := Option.map_eq_some_iff.mp hversions
    exact absurd ⟨file, rest, table, hp, htable,
      (migrate_error now htable).mp ⟨error, herror⟩⟩ hfresh
  | applied process now file rest database hp hok =>
    obtain ⟨table, table', htable, -, htable', hversions'⟩ := migrate_ok hok
    have hstored : world.database.stored = some table.versions := by
      simp [DatabaseFile.stored, htable]
    have hstored' : database.stored = some (table.versions ++ [file.version]) := by
      simp [DatabaseFile.stored, htable', hversions']
    refine Inv_goto h (fun versions hv ↦ ⟨[file.version], ?_⟩) (by simp) fun rest' hrest ↦ ?_
    · rw [hstored', Option.some.inj (hstored.symm.trans hv)]
    · obtain rfl := Option.some.inj hrest
      obtain ⟨versions, hv, hin⟩ := h.done process (file :: rest) (by rw [hp]; rfl)
      obtain rfl := Option.some.inj (hstored.symm.trans hv)
      refine ⟨_, hstored', fun other hother hne ↦ ?_⟩
      by_cases he : other = file
      · exact he ▸ List.mem_append_right _ (List.mem_singleton_self _)
      · exact List.mem_append_left _ (hin other hother (by simp [he, hne]))

variable (directory)

/-- In a run on one database file every call goes on until it returns, after at most
`2 * files + 3` transactions and without an error, and then every file has one row. -/
structure InitializesSafely (start : DatabaseFile) (events : List InitializeEvent) : Prop where
  noError : ∀ world, Visits (InitializeWorld.step directory) { database := start } events world →
    ∀ process error, world.phase process ≠ .raised error
  goesOn : ∀ world, Visits (InitializeWorld.step directory) { database := start } events world →
    ∀ process, world.phase process = .idle ∨ world.phase process = .returned ∨
      ∀ now, (world.step directory (.step process now)).isSome
  returns : ∀ pre, pre <+: events → ∀ world,
    exec (InitializeWorld.step directory) { database := start } pre = some world →
    ∀ process, 2 * directory.files.length + 3 ≤ stepsOf process pre →
      world.phase process = .returned
  oneRow : ∀ world, Visits (InitializeWorld.step directory) { database := start } events world →
    ∀ process, world.phase process = .returned → ∀ file ∈ directory.files,
      ∃ table, world.database.schemaMigrations = some table ∧
        (table.rows.filter fun row ↦ row.version = file.version).length = 1

variable {directory}

theorem Inv_visits {start : DatabaseFile} {events : List InitializeEvent}
    (hfresh : ∀ world event,
      Takes (InitializeWorld.step directory) { database := start } events world event →
        ¬ AppliesStored world event) {world : InitializeWorld}
    (h : Visits (InitializeWorld.step directory) { database := start } events world) :
    world.Inv directory := by
  refine visits_invariant (InitializeWorld.Inv directory) ⟨?_, ?_⟩
    (fun u o v htakes hu hs ↦ Inv_step hu hs (hfresh u o htakes)) world h
  · exact fun process error ↦ InitializePhase.noConfusion
  · intro process rest hrest
    cases hrest

variable (directory)

theorem step_isSome (world : InitializeWorld) (process : ℕ) :
    world.phase process = .idle ∨ world.phase process = .returned ∨
      (∃ error, world.phase process = .raised error) ∨
      ∀ now, (world.step directory (.step process now)).isSome := by
  cases hp : world.phase process with
  | idle => exact .inl rfl
  | returned => exact .inr (.inl rfl)
  | raised error => exact .inr (.inr (.inl ⟨error, rfl⟩))
  | schema | createMigrations =>
    exact .inr (.inr (.inr fun now ↦ by simp [InitializeWorld.step, hp]))
  | check rest =>
    refine .inr (.inr (.inr fun now ↦ ?_))
    cases rest with
    | nil => simp [InitializeWorld.step, hp]
    | cons file rest =>
      simp only [InitializeWorld.step, hp]
      split
      · rfl
      · split_ifs <;> rfl
  | apply file rest =>
    refine .inr (.inr (.inr fun now ↦ ?_))
    simp only [InitializeWorld.step, hp]
    split <;> rfl

theorem raised_of_appliesStored {world : InitializeWorld} {event : InitializeEvent}
    (h : AppliesStored world event) : ∃ world' process error,
      world.step directory event = some world' ∧ world'.phase process = .raised error := by
  cases event with
  | call process => exact h.elim
  | step process now =>
    obtain ⟨file, rest, table, hp, htable, hfile⟩ := h
    obtain ⟨error, herror⟩ := (migrate_error now htable).mpr hfile
    refine ⟨world.goto process (.raised error), process, error, ?_, ?_⟩
    · simp only [InitializeWorld.step, hp, herror]
    · rw [goto_phase, if_pos rfl]

theorem remaining_pos {phase : InitializePhase} (hreturned : phase ≠ .returned)
    (hraised : ∀ error, phase ≠ .raised error) : 0 < phase.remaining directory := by
  cases phase with
  | returned => exact absurd rfl hreturned
  | raised error => exact absurd rfl (hraised error)
  | idle | schema | createMigrations | check rest | apply file rest =>
    simp only [InitializePhase.remaining]
    omega

/-- The calls of a run end safely exactly when none of them applies a migration that
another call has applied since its own check. -/
theorem initializes_safely_iff (start : DatabaseFile) (events : List InitializeEvent) :
    InitializesSafely directory start events ↔
    ∀ world event, Takes (InitializeWorld.step directory) { database := start } events world event →
      ¬ AppliesStored world event := by
  constructor
  · intro hsafe world event htakes hstored
    obtain ⟨world', process, error, hs, hraised⟩ := raised_of_appliesStored directory hstored
    exact hsafe.noError world' (htakes.next hs) process error hraised
  · intro hfresh
    have hno : ∀ world, Visits (InitializeWorld.step directory) { database := start } events world →
        ∀ process error, world.phase process ≠ .raised error :=
      fun world hvisits ↦ (Inv_visits hfresh hvisits).noError
    refine ⟨hno, fun world hvisits process ↦ ?_, fun pre hpre world hexec process hsteps ↦ ?_,
      fun world hvisits process hreturned file hfile ↦ ?_⟩
    · rcases step_isSome directory world process with h | h | ⟨error, h⟩ | h
      · exact .inl h
      · exact .inr (.inl h)
      · exact absurd h (hno world hvisits process error)
      · exact .inr (.inr h)
    · by_contra hreturned
      have hpos := remaining_pos directory hreturned (hno world ⟨pre, hpre, hexec⟩ process)
      have hbound := remaining_exec hexec process
      simp only [InitializePhase.remaining] at hbound hpos
      omega
    · obtain ⟨versions, hstored, hin⟩ :=
        (Inv_visits hfresh hvisits).done process [] (by rw [hreturned]; rfl)
      obtain ⟨table, htable, rfl⟩ := Option.map_eq_some_iff.mp hstored
      obtain ⟨row, hrow, hversion⟩ := List.mem_map.mp (hin file hfile List.not_mem_nil)
      refine ⟨table, htable, ?_⟩
      rw [← hversion]
      exact Table.length_filter_key table.primaryKey hrow

def racedStart : List InitializeEvent :=
  [.call 0, .step 0 0, .step 0 0, .step 0 0, .call 1, .step 1 0, .step 1 0, .step 1 0,
    .step 0 1, .step 1 2, .step 0 3]

theorem racedStart_raises :
    ∃ world, Visits (InitializeWorld.step migrationDirectory) { database := {} } racedStart world ∧
      world.phase 0 = .returned ∧
      world.phase 1 = .raised (.uniqueFailed "schema_migrations.version") ∧
      ¬ InitializesSafely migrationDirectory {} racedStart := by
  have hrun : (exec (InitializeWorld.step migrationDirectory) { database := {} } racedStart).map
      (fun world ↦ (world.phase 0, world.phase 1)) =
      some (.returned, .raised (.uniqueFailed "schema_migrations.version")) := by decide +kernel
  obtain ⟨world, hexec, hphases⟩ := Option.map_eq_some_iff.mp hrun
  obtain ⟨hfirst, hsecond⟩ := Prod.mk.inj hphases
  exact ⟨world, visits_end hexec, hfirst, hsecond,
    fun hsafe ↦ hsafe.noError world (visits_end hexec) 1 _ hsecond⟩

end AgenticSecurity.Storage
