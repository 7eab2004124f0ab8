import AgenticSecurity.Collection.Live
import AgenticSecurity.Publishing.Artifacts
import AgenticSecurity.Publishing.Failures
import AgenticSecurity.Publishing.Projection

namespace AgenticSecurity.Jobs

open Library Runs Collection

/-- The exceptions that the error of a pipeline stands for. A `ValidationError` is a `ValueError`,
and a `FileNotFoundError` is an `OSError`. -/
inductive PipelineRaises : Publishing.PipelineError → Raised → Prop
  | fileNotFound : PipelineRaises .fileNotFoundError .fileNotFoundError
  | missing : PipelineRaises .osError .fileNotFoundError
  | os (name : String) : PipelineRaises .osError (.other name)
  | database (name : String) : PipelineRaises .databaseError (.other name)
  | value (message : String) : PipelineRaises (.valueError message) .valueError
  | validation : PipelineRaises .validationError .valueError
  | type (message : String) : PipelineRaises (.typeError message) (.other "TypeError")

theorem pipelineRaises_plain {error : Publishing.PipelineError} {raised : Raised}
    (h : PipelineRaises error raised) :
    raised.Plain := by cases h <;> trivial

def PipelineEnd (pipeline : Publishing.Pipeline) (result : Except Raised Unit) : Prop :=
  ∃ (functions : Publishing.ArtifactFunctions) (unicode : Python.UnicodeData)
    (jobRoot : Git.TreePath)
    (files : Publishing.Files) (run : Publishing.PipelineRun),
    run.pipeline = pipeline ∧ run.dryRun = false ∧ run.demo = false ∧
      match (run.perform functions unicode jobRoot files).2 with
      | .ok _ => result = .ok ()
      | .error error => ∃ raised, PipelineRaises error raised ∧ result = .error raised

def ExportEnd (result : Except Raised Unit) : Prop :=
  ∃ (functions : Publishing.ExportFunctions) (fault : Option Publishing.Fault)
    (ledger : Publishing.LedgerExport)
    (target : Option Publishing.Directory),
    match (Publishing.exported functions fault ledger target).1 with
    | .ok _ => result = .ok ()
    | .error (.raised _) => ∃ error : SystemError, result = .error error.raised
    | .error (.invalid _ _) => result = .error .valueError

inductive PublishEnd : Publishing.Phase → Except Raised Unit → Prop
  | returned (result : Publishing.PublishResult) : PublishEnd (.returned result) (.ok ())
  | publication (category : FailureCategory) (safeMessage : String) :
      PublishEnd (.raised (.publication category safeMessage))
        (.error (.publicationError category safeMessage))
  | value : PublishEnd (.raised (.other "ValueError")) (.error .valueError)
  | fileNotFound : PublishEnd (.raised (.other "OSError")) (.error .fileNotFoundError)
  | os (name : String) : PublishEnd (.raised (.other "OSError")) (.error (.other name))

/-- What the executor is wired to for a job type. The collection can also be stopped by the
file system or by the database. -/
def Services.Wired (services : Services) : JobType → Prop
  | .collect => (∃ error : SystemError, services.collect = .error error.raised) ∨
      ∃ (service : LiveCollection) (functions : ContentFunctions) (state : CollectionState),
        services.collect = (service.collect functions state).map fun _ ↦ ()
  | .research => True
  | .daily => PipelineEnd .daily services.runDailyPipeline
  | .weeklyPack => PipelineEnd .weekly services.runWeeklyPipeline
  | .publicationExport => ExportEnd services.exportBundle
  | .publicationPr =>
    ∃ (publisher : Publishing.Publisher) (call : Publishing.PublishCall) (phase : Publishing.Phase),
      Publishing.Comes publisher call phase ∧ PublishEnd phase services.publish

/-- The texts that the service of a job type can hand over. -/
def serviceMessages : ServiceMessages
  | .collect => LiveCollection.messages
  | .research => fun
    | .providerUnavailable => ["A production research provider is not configured."]
    | _ => []
  | .publicationPr => Publishing.publisherMessages
  | .daily | .weeklyPack | .publicationExport => fun _ ↦ []

section Ends

variable {messages : FailureCategory → List String} {raised : Raised}

theorem collect_raises {services : Services} (h : services.Wired .collect)
    (he : services.collect = .error raised) : raised.Safe LiveCollection.messages := by
  rcases h with ⟨error, herror⟩ | ⟨service, functions, state, hcollect⟩
  · obtain rfl := Except.error.inj (herror.symm.trans he)
    exact Raised.safe_of_plain error.raised_plain
  · cases hresult : service.collect functions state with
    | ok result =>
      rw [hresult, he] at hcollect
      cases hcollect
    | error inner =>
      rw [hresult, he] at hcollect
      obtain rfl := Except.error.inj hcollect
      exact LiveCollection.collect_safe hresult

theorem pipelineEnd_plain {pipeline : Publishing.Pipeline}
    (h : PipelineEnd pipeline (.error raised)) :
    raised.Plain := by
  obtain ⟨functions, unicode, jobRoot, files, run, -, -, -, hend⟩ := h
  split at hend
  · cases hend
  · obtain ⟨raised', hraises, hresult⟩ := hend
    obtain rfl := Except.error.inj hresult
    exact pipelineRaises_plain hraises

theorem exportEnd_plain (h : ExportEnd (.error raised)) : raised.Plain := by
  obtain ⟨functions, fault, ledger, target, hend⟩ := h
  split at hend
  · cases hend
  · obtain ⟨error, herror⟩ := hend
    obtain rfl := Except.error.inj herror
    exact error.raised_plain
  · obtain rfl := Except.error.inj hend
    trivial

theorem publishEnd_safe {phase : Publishing.Phase} (h : phase.Safe)
    (hend : PublishEnd phase (.error raised)) :
    raised.Safe Publishing.publisherMessages := by
  cases hend with
  | publication category safeMessage => exact h
  | value | fileNotFound | os => trivial

end Ends

theorem wired_safe {services : Services} {jobType : JobType} (h : services.Wired jobType)
    {raised : Raised} (he : executeAllowlisted services jobType = .error raised) :
    raised.Safe (serviceMessages jobType) := by
  cases jobType with
  | collect => exact collect_raises h he
  | research =>
    obtain rfl := Except.error.inj he
    exact List.mem_singleton_self _
  | daily =>
    have hresult : services.runDailyPipeline = .error raised := he
    have hend : PipelineEnd .daily services.runDailyPipeline := h
    exact Raised.safe_of_plain (pipelineEnd_plain (hresult ▸ hend))
  | weeklyPack =>
    have hresult : services.runWeeklyPipeline = .error raised := he
    have hend : PipelineEnd .weekly services.runWeeklyPipeline := h
    exact Raised.safe_of_plain (pipelineEnd_plain (hresult ▸ hend))
  | publicationExport =>
    have hresult : services.exportBundle = .error raised := he
    have hend : ExportEnd services.exportBundle := h
    exact Raised.safe_of_plain (exportEnd_plain (hresult ▸ hend))
  | publicationPr =>
    obtain ⟨publisher, call, phase, hcomes, hend⟩ := h
    have hpublish : services.publish = .error raised := he
    rw [hpublish] at hend
    exact publishEnd_safe hcomes.safe hend

/-- What a worker sees of an execution is what the executor makes of the wired services. -/
def Event.Wired (minFreeBytes : ℕ) (world : World) : Event → Prop
  | .executed worker outcome => ∀ jobId, world.phase worker = .executing jobId →
      ∀ j ∈ world.store.jobs, j.jobId = jobId → ∃ services : Services, services.Wired j.jobType ∧
        outcome = Outcome.ofExecution (execute minFreeBytes services j.jobType)
  | _ => True

/-- Over every run of the system, with workers that die and leases that expire, a job record holds
no text but the fixed ones: its failure message is one of the sentences that the recovery loop,
the worker, the executor or the service of its own job type has for its category, a failed job has
one, and a research job never succeeds. -/
theorem failure_texts (config : ℕ → WorkerConfig) (minFreeBytes : ℕ) {events : List Event}
    (hwired : ∀ world event, Takes (step config) {} events world event →
      event.Wired minFreeBytes world)
    {world : World} (h : Visits (step config) {} events world) :
    ∀ j ∈ world.store.jobs, j.Reports serviceMessages := by
  refine (Reports_visits (fun u event htakes ↦ ?_) h).rows
  have hevent := hwired u event htakes
  cases event with
  | executed worker outcome =>
    intro jobId hphase j hj hid
    obtain ⟨services, hservices, rfl⟩ := hevent jobId hphase j hj hid
    exact ofExecution_allowed (fun raised he ↦ wired_safe hservices he) minFreeBytes
  | _ => trivial

def zeros : Models.Sha256 where
  text := String.ofList (List.replicate 64 '0')

def unconfigured : LiveCollection where
  sourceIds := []
  maxSourcesPerRun := 1
  registryFile := .ok ⟨[]⟩
  retrieve _ := .error .httpError

def unconfiguredOutcome : Outcome :=
  .jobExecutionError .configurationUnavailable "No live collection sources are configured."

def unconfiguredRun : List Event :=
  [.enqueue 0 "a" .collect "api" "k1", .acquire 1, .readRecover 1, .recover 1,
    .readClaim 1, .claim 1, .executed 1 unconfiguredOutcome, .finish 1, .leave 1]

theorem failure_texts_unconfiguredRun : ∃ world, Visits (step fun _ ↦ {}) {} unconfiguredRun world ∧
    world.store.jobs.map JobRecord.status = [.failed] ∧
    ∀ j ∈ world.store.jobs, j.Reports serviceMessages := by
  obtain ⟨world, hexec, hstatus⟩ : ∃ world, exec (step fun _ ↦ {}) {} unconfiguredRun = some world ∧
      world.store.jobs.map JobRecord.status = [.failed] := ⟨_, rfl, by decide⟩
  refine ⟨world, visits_end hexec, hstatus, failure_texts (fun _ ↦ {}) 0 ?_ (visits_end hexec)⟩
  intro u event htakes
  have hpass : stepsPass (step fun _ ↦ {}) (fun world event ↦ match event with
      | .executed _ outcome =>
        decide (outcome = unconfiguredOutcome) && world.store.jobs.all fun j ↦ j.jobType = .collect
      | _ => true) {} unconfiguredRun = true := by decide
  have hchecked := check_of_takes hpass htakes
  cases event with
  | executed worker outcome =>
    obtain ⟨houtcome, hjobs⟩ := Bool.and_eq_true_iff.mp hchecked
    intro jobId _ j hj _
    have hcollect : j.jobType = .collect := of_decide_eq_true (List.all_eq_true.mp hjobs j hj)
    let services : Services :=
      { freeBytes := .ok 1, runDailyPipeline := .ok (), runWeeklyPipeline := .ok (),
        exportBundle := .ok (), publish := .ok (),
        collect := .error (.liveCollectionError .configurationUnavailable
          "No live collection sources are configured.") }
    refine ⟨services, ?_, ?_⟩
    · rw [hcollect]
      exact .inr ⟨unconfigured, ⟨id, fun _ ↦ zeros⟩, {}, rfl⟩
    · rw [of_decide_eq_true houtcome, hcollect]
      rfl
  | _ => trivial

end AgenticSecurity.Jobs
