import AgenticSecurity.Editorial.Pipelines
import AgenticSecurity.Publishing.Validation
import AgenticSecurity.Python.TimeOrder

namespace AgenticSecurity.Publishing

open Library Models Python Storage Editorial

structure PublicationFile where
  path : String
  sha256 : Sha256
  sizeBytes : ℕ
  deriving DecidableEq

def isBranchCharacter (c : Char) : Bool := ('a' ≤ c && c ≤ 'z') || c.isDigit

/-- The pattern of a branch: `agent/`, then a letter or a digit, then these, dots, underscores,
slashes and hyphens. -/
def isAgentBranch (branch : String) : Bool :=
  match branch.toList with
  | 'a' :: 'g' :: 'e' :: 'n' :: 't' :: '/' :: first :: rest =>
    isBranchCharacter first && rest.all fun c ↦ isBranchCharacter c || c ∈ ['.', '_', '/', '-']
  | _ => false

structure PullRequestArtifact where
  branch : String
  baseBranch : String
  title : String
  body : String
  draft : Bool := true
  files : List PublicationFile
  generatedAt : Datetime
  humanMergeRequired : Bool := true
  autoMerge : Bool := false
  accepted : isAgentBranch branch = true

/-- The regular files, with what each of them holds. -/
abbrev Files := Git.TreePath → Option Bytes

def Files.write (files : Files) (path : Git.TreePath) (content : Bytes) : Files :=
  fun other ↦ if other = path then some content else files other

inductive PipelineError
  | fileNotFoundError
  | valueError (message : String)
  | osError
  | databaseError
  | validationError
  | typeError (message : String)
  deriving DecidableEq, Repr

/-- The digest, and the text that `json.dumps` gives for an artifact. -/
structure ArtifactFunctions where
  sha256 : Bytes → Sha256
  dump : PullRequestArtifact → String

variable (functions : ArtifactFunctions)

def publicationFile (files : Files) (path : Git.TreePath) : Except PipelineError PublicationFile :=
  match files path with
  | none => .error .fileNotFoundError
  | some content =>
    .ok { path := asPosix path, sha256 := functions.sha256 content, sizeBytes := content.length }

def buildPullRequestArtifact (files : Files) (paths : List Git.TreePath)
    (branch baseBranch title body : String) (generatedAt : Datetime) :
    Except PipelineError PullRequestArtifact := do
  let listed ← (orderBy id paths).mapM (publicationFile functions files)
  if accepted : isAgentBranch branch = true then
    return { branch, baseBranch, title, body, files := listed, generatedAt, accepted }
  else .error .validationError

structure PipelineInputs where
  ledger : Except PipelineError PublicationLedgerData
  demoData : PublicationLedgerData
  demoNow : Datetime
  now : Datetime

def pipelineData (inputs : PipelineInputs) (databasePath : Option String) (demo : Bool) :
    Except PipelineError PublicationLedgerData :=
  if demo ∧ databasePath.isSome then
    .error (.valueError "choose either database_path or demo mode, not both")
  else if demo then .ok inputs.demoData
  else inputs.ledger

inductive Pipeline
  | daily | weekly
  deriving DecidableEq, Repr

def Pipeline.folder : Pipeline → String
  | .daily => "daily"
  | .weekly => "weekly"

def Pipeline.artifactName : Pipeline → String
  | .daily => "daily-pr.json"
  | .weekly => "weekly-pr.json"

def Pipeline.title : Pipeline → Date → String
  | .daily, date => "Daily change brief " ++ date.isoformat
  | .weekly, date => "Weekly evidence pack " ++ date.isoformat

def Pipeline.branch (pipeline : Pipeline) (date : Date) : String :=
  "agent/" ++ pipeline.folder ++ "-" ++ date.isoformat

def Pipeline.report (unicode : UnicodeData) (demo : Bool) (data : PublicationLedgerData)
    (generatedAt : Datetime) :
    Pipeline → Except PipelineError (String × String)
  | .daily =>
    let brief := runDailyPipeline data generatedAt
    .ok (brief.markdown,
      "Status: " ++ brief.status.value ++ "\n\nGenerated from " ++
        (if demo then "explicit demo data" else "the configured SQLite ledger") ++
        ". Human review and merge are required.")
  | .weekly =>
    ((runWeeklyPipeline unicode data generatedAt).mapError .typeError).map fun pack ↦
      (pack.markdown,
        "Ledger-derived evidence pack. Interpretation and merge remain human-controlled.")

/-- A call of one of the two functions, and the write that fails in it, with what that
write has left in its file. -/
structure PipelineRun where
  pipeline : Pipeline
  dryRun : Bool
  databasePath : Option String := none
  demo : Bool := false
  inputs : PipelineInputs
  reportFails : Option (Option Bytes) := none
  artifactFails : Option (Option Bytes) := none

variable (unicode : UnicodeData) (outputRoot : Git.TreePath)

def PipelineRun.generatedAt (run : PipelineRun) : Datetime :=
  if run.demo then run.inputs.demoNow else run.inputs.now

def reportPath (pipeline : Pipeline) (date : Date) : Git.TreePath :=
  outputRoot ++ ["content", pipeline.folder, date.isoformat ++ ".md"]

def artifactPath (pipeline : Pipeline) : Git.TreePath :=
  outputRoot ++ ["artifacts", pipeline.artifactName]

def writeText (files : Files) (fails : Option (Option Bytes)) (path : Git.TreePath)
    (content : String) :
    Files × Except PipelineError Unit :=
  match fails with
  | none => (files.write path (encodeUtf8 content), .ok ())
  | some none => (files, .error .osError)
  | some (some leaves) => (files.write path leaves, .error .osError)

def PipelineRun.artifact (run : PipelineRun) (files : Files) (body : String) :
    Except PipelineError PullRequestArtifact :=
  let date := run.generatedAt.date
  let path := reportPath outputRoot run.pipeline date
  buildPullRequestArtifact functions files (if (files path).isSome then [path] else [])
    (run.pipeline.branch date) "publication" (run.pipeline.title date) body run.generatedAt

/-- The texts of the run, which are built before anything is written. -/
def PipelineRun.texts (run : PipelineRun) : Except PipelineError (String × String) := do
  let data ← pipelineData run.inputs run.databasePath run.demo
  run.pipeline.report unicode run.demo data run.generatedAt

/-- `run_daily_pipeline` and `run_weekly_pipeline`. -/
def PipelineRun.perform (run : PipelineRun) (files : Files) :
    Files × Except PipelineError PullRequestArtifact :=
  match run.texts unicode with
  | .error e => (files, .error e)
  | .ok (markdown, body) =>
    let written :=
      if run.dryRun then (files, .ok ())
      else writeText files run.reportFails
        (reportPath outputRoot run.pipeline run.generatedAt.date) markdown
    match written.2, run.artifact functions outputRoot written.1 body with
    | .error e, _ => (written.1, .error e)
    | .ok (), .error e => (written.1, .error e)
    | .ok (), .ok artifact =>
      if run.dryRun then (written.1, .ok artifact)
      else
        let saved := writeText written.1 run.artifactFails (artifactPath outputRoot run.pipeline)
          (functions.dump artifact ++ "\n")
        (saved.1, saved.2.map fun _ ↦ artifact)

/-- The disk after the runs, one after the other. -/
def runPipelines (files : Files) (runs : List PipelineRun) : Files :=
  runs.foldl (fun files run ↦ (run.perform functions unicode outputRoot files).1) files

theorem branch_accepted (pipeline : Pipeline) (date : Date) :
    isAgentBranch (pipeline.branch date) = true := by
  have hdate :
      date.isoformat.toList.all (fun c ↦ isBranchCharacter c || c ∈ ['.', '_', '/', '-']) =
      true := by
    refine List.all_eq_true.mpr fun c hc ↦ ?_
    cases Date.isoformat_characters date c hc with
    | inl hdigit => simp [isBranchCharacter, hdigit]
    | inr hdash => simp [hdash]
  have hsplit : (pipeline.branch date).toList =
      ("agent/" ++ pipeline.folder ++ "-").toList ++ date.isoformat.toList := by
    simp only [Pipeline.branch, String.toList_append]
  rw [isAgentBranch, hsplit]
  cases pipeline with
  | daily =>
    have hfolder : ("agent/" ++ Pipeline.daily.folder ++ "-").toList = 'a' :: 'g' :: 'e' :: 'n' ::
        't' :: '/' :: 'd' ::
        ['a', 'i', 'l', 'y', '-'] := rfl
    rw [hfolder]
    simp only [List.cons_append, List.all_append, List.all_cons, hdate]
    rfl
  | weekly =>
    have hfolder : ("agent/" ++ Pipeline.weekly.folder ++ "-").toList = 'a' :: 'g' :: 'e' :: 'n' ::
        't' :: '/' :: 'w' ::
        ['e', 'e', 'k', 'l', 'y', '-'] := rfl
    rw [hfolder]
    simp only [List.cons_append, List.all_append, List.all_cons, hdate]
    rfl

theorem reportPath_ne (pipeline other : Pipeline) (date : Date) :
    reportPath outputRoot pipeline date ≠ artifactPath outputRoot other := by
  intro h
  have hnames := List.append_cancel_left h
  injection hnames with hfolder _
  exact absurd hfolder (by decide)

theorem artifactPath_injective {pipeline other : Pipeline}
    (h : artifactPath outputRoot pipeline = artifactPath outputRoot other) : pipeline = other := by
  have hnames := List.append_cancel_left h
  cases pipeline <;> cases other <;> first | rfl | exact absurd hnames (by decide)

theorem reportPath_pipeline {pipeline other : Pipeline} {date date' : Date}
    (h : reportPath outputRoot pipeline date = reportPath outputRoot other date') :
    pipeline = other := by
  have hnames := List.append_cancel_left h
  injection hnames with _ hnames
  injection hnames with hfolder _
  cases pipeline <;> cases other <;> first | rfl | exact absurd hfolder (by decide)

variable {functions unicode outputRoot}

theorem write_self (files : Files) (path : Git.TreePath) (content : Bytes) :
    files.write path content path = some content := if_pos rfl

theorem write_other {files : Files} {path other : Git.TreePath} (content : Bytes)
    (h : other ≠ path) :
    files.write path content other = files other := if_neg h

theorem writeText_other {files : Files} {fails : Option (Option Bytes)} {path other : Git.TreePath}
    (content : String) (h : other ≠ path) :
    (writeText files fails path content).1 other = files other := by
  unfold writeText
  split
  · exact write_other _ h
  · rfl
  · exact write_other _ h

/-- What an artifact says of the report of the run, if the file is there. -/
def PipelineRun.listed (functions : ArtifactFunctions) (outputRoot : Git.TreePath)
    (run : PipelineRun) (files : Files) : List PublicationFile :=
  (files (reportPath outputRoot run.pipeline run.generatedAt.date)).toList.map fun content ↦
    { path := asPosix (reportPath outputRoot run.pipeline run.generatedAt.date)
      sha256 := functions.sha256 content
      sizeBytes := content.length }

def PipelineRun.drafted (run : PipelineRun) (body : String) (files : List PublicationFile) :
    PullRequestArtifact where
  branch := run.pipeline.branch run.generatedAt.date
  baseBranch := "publication"
  title := run.pipeline.title run.generatedAt.date
  body := body
  files := files
  generatedAt := run.generatedAt
  accepted := branch_accepted run.pipeline run.generatedAt.date

theorem artifact_eq (run : PipelineRun) (files : Files) (body : String) :
    run.artifact functions outputRoot files body =
      .ok (run.drafted body (run.listed functions outputRoot files)) := by
  have hlisted :
      (orderBy id (if (files (reportPath outputRoot run.pipeline run.generatedAt.date)).isSome then
      [reportPath outputRoot run.pipeline run.generatedAt.date] else [])).mapM
        (publicationFile functions files) =
      .ok (run.listed functions outputRoot files) := by
    unfold PipelineRun.listed
    cases hreport : files (reportPath outputRoot run.pipeline run.generatedAt.date) with
    | none => rfl
    | some content =>
      have hfile :
          publicationFile functions files
          (reportPath outputRoot run.pipeline run.generatedAt.date) =
          .ok ⟨asPosix (reportPath outputRoot run.pipeline run.generatedAt.date),
            functions.sha256 content, content.length⟩ := by
        rw [publicationFile, hreport]
      simp only [Option.isSome_some, if_true, orderBy, List.insertionSort, List.foldr_cons,
        List.foldr_nil, List.orderedInsert, List.mapM_cons, List.mapM_nil, hfile]
      rfl
  unfold PipelineRun.artifact buildPullRequestArtifact
  dsimp only
  rw [hlisted]
  exact dif_pos (branch_accepted run.pipeline run.generatedAt.date)

theorem perform_dryRun {run : PipelineRun} (h : run.dryRun = true) (files : Files) :
    (run.perform functions unicode outputRoot files).1 = files := by
  unfold PipelineRun.perform
  cases run.texts unicode with
  | error e => rfl
  | ok texts =>
    simp only [h, if_true, artifact_eq]

theorem perform_other {run : PipelineRun} (files : Files) {path : Git.TreePath}
    (hreport : path ≠ reportPath outputRoot run.pipeline run.generatedAt.date)
    (hartifact : path ≠ artifactPath outputRoot run.pipeline) :
    (run.perform functions unicode outputRoot files).1 path = files path := by
  cases hdry : run.dryRun with
  | true => rw [perform_dryRun hdry]
  | false =>
    unfold PipelineRun.perform
    cases run.texts unicode with
    | error e => rfl
    | ok texts =>
      simp only [hdry, Bool.false_eq_true, if_false, artifact_eq]
      split
      · exact writeText_other _ hreport
      · exact writeText_other _ hreport
      · rw [writeText_other _ hartifact, writeText_other _ hreport]

/-- The report and the artifact of a pipeline, as the run has them. -/
structure Described (functions : ArtifactFunctions) (outputRoot : Git.TreePath) (disk : Files)
    (run : PipelineRun) (markdown : String) (artifact : PullRequestArtifact) : Prop where
  report : disk (reportPath outputRoot run.pipeline run.generatedAt.date) =
    some (encodeUtf8 markdown)
  described : disk (artifactPath outputRoot run.pipeline) =
    some (encodeUtf8 (functions.dump artifact ++ "\n"))
  files : artifact.files = [{
    path := asPosix (reportPath outputRoot run.pipeline run.generatedAt.date)
    sha256 := functions.sha256 (encodeUtf8 markdown)
    sizeBytes := (encodeUtf8 markdown).length }]

theorem perform_described {run : PipelineRun} (files : Files) {texts : String × String}
    (htexts : run.texts unicode = .ok texts) (hwet : run.dryRun = false)
    (hreport : run.reportFails = none) (hartifact : run.artifactFails = none) :
    ∃ listed, (run.perform functions unicode outputRoot files).2 =
      .ok (run.drafted texts.2 listed) ∧
      Described functions outputRoot (run.perform functions unicode outputRoot files).1 run texts.1
        (run.drafted texts.2 listed) := by
  unfold PipelineRun.perform
  simp only [htexts, hwet, hreport, hartifact, Bool.false_eq_true, if_false, artifact_eq, writeText]
  refine ⟨_, rfl, ?_, ?_, ?_⟩
  · rw [write_other _ (reportPath_ne outputRoot _ _ _), write_self]
  · rw [write_self]
  · simp only [PipelineRun.drafted, PipelineRun.listed, write_self]
    rfl

theorem runPipelines_append (files : Files) (runs runs' : List PipelineRun) :
    runPipelines functions unicode outputRoot files (runs ++ runs') =
      runPipelines functions unicode outputRoot
        (runPipelines functions unicode outputRoot files runs) runs' :=
  List.foldl_append

theorem runPipelines_cons (files : Files) (run : PipelineRun) (runs : List PipelineRun) :
    runPipelines functions unicode outputRoot files (run :: runs) =
      runPipelines functions unicode outputRoot
        (run.perform functions unicode outputRoot files).1 runs := rfl

theorem runPipelines_keeps {pipeline : Pipeline} {path : Git.TreePath} {runs : List PipelineRun}
    (files : Files) (hdry : ∀ other ∈ runs, other.pipeline = pipeline → other.dryRun = true)
    (hpath : ∀ other ∈ runs, other.pipeline ≠ pipeline →
      path ≠ reportPath outputRoot other.pipeline other.generatedAt.date ∧
        path ≠ artifactPath outputRoot other.pipeline) :
    runPipelines functions unicode outputRoot files runs path = files path := by
  induction runs generalizing files with
  | nil => rfl
  | cons run runs ih =>
    rw [runPipelines_cons, ih _ (fun other hother ↦ hdry other (List.mem_cons_of_mem run hother))
      fun other hother ↦ hpath other (List.mem_cons_of_mem run hother)]
    by_cases hsame : run.pipeline = pipeline
    · rw [perform_dryRun (hdry run List.mem_cons_self hsame)]
    · obtain ⟨hreport, hartifact⟩ := hpath run List.mem_cons_self hsame
      exact perform_other files hreport hartifact

theorem runPipelines_dryRuns (files : Files) (runs : List PipelineRun) :
    runPipelines functions unicode outputRoot files runs =
      runPipelines functions unicode outputRoot files (runs.filter (!·.dryRun)) := by
  induction runs generalizing files with
  | nil => rfl
  | cons run runs ih =>
    rw [runPipelines_cons, ih]
    cases hdry : run.dryRun with
    | true => rw [List.filter_cons_of_neg (by simp [hdry]), perform_dryRun hdry]
    | false => rw [List.filter_cons_of_pos (by simp [hdry]), runPipelines_cons]

/-- After any runs of the two pipelines, some of which may have failed halfway, and until the same
pipeline writes again, the artifact on the disk is that of the last completed run and lists the
report that this run wrote, by its digest and size. Dry runs leave no trace, and what they return
lists the report that is on the disk, not one that they would have written. -/
theorem pull_requests_describe_reports (functions : ArtifactFunctions) (unicode : UnicodeData)
    (outputRoot : Git.TreePath) (files : Files) :
    (∀ (before after : List PipelineRun) (run : PipelineRun) (texts : String × String),
      run.texts unicode = .ok texts → run.dryRun = false →
      run.reportFails = none → run.artifactFails = none →
      (∀ other ∈ after, other.pipeline = run.pipeline → other.dryRun = true) →
      ∃ artifact, (run.perform functions unicode outputRoot
          (runPipelines functions unicode outputRoot files before)).2 = .ok artifact ∧
        artifact.draft = true ∧ artifact.humanMergeRequired = true ∧ artifact.autoMerge = false ∧
        artifact.body = texts.2 ∧
        Described functions outputRoot
          (runPipelines functions unicode outputRoot files (before ++ run :: after)) run
          texts.1 artifact) ∧
    (∀ runs, runPipelines functions unicode outputRoot files runs =
      runPipelines functions unicode outputRoot files (runs.filter (!·.dryRun))) ∧
    ∀ (run : PipelineRun) (texts : String × String), run.texts unicode = .ok texts →
      run.dryRun = true →
      ∃ artifact, (run.perform functions unicode outputRoot files).2 = .ok artifact ∧
        artifact.files = run.listed functions outputRoot files := by
  refine ⟨?_, runPipelines_dryRuns files, ?_⟩
  · intro before after run texts htexts hwet hreport hartifact hafter
    obtain ⟨listed, hdone, hdescribed⟩ := perform_described
      (runPipelines functions unicode outputRoot files before) htexts hwet hreport hartifact
    refine ⟨run.drafted texts.2 listed, hdone, rfl, rfl, rfl, rfl, ?_⟩
    rw [runPipelines_append, runPipelines_cons]
    refine ⟨?_, ?_, hdescribed.files⟩
    · rw [runPipelines_keeps _ hafter fun other _ hne ↦ ⟨?_, reportPath_ne outputRoot _ _ _⟩]
      · exact hdescribed.report
      · exact fun hpath ↦ hne (reportPath_pipeline outputRoot hpath).symm
    · rw [runPipelines_keeps _ hafter fun other _ hne ↦ ⟨?_, ?_⟩]
      · exact hdescribed.described
      · exact (reportPath_ne outputRoot _ _ _).symm
      · exact fun hpath ↦ hne (artifactPath_injective outputRoot hpath).symm
  · intro run texts htexts hdry
    unfold PipelineRun.perform
    simp only [htexts, hdry, if_true, artifact_eq]
    exact ⟨_, rfl, rfl⟩

def januaryRun : PipelineRun where
  pipeline := .daily
  dryRun := false
  databasePath := some "ledger.sqlite"
  inputs :=
    { ledger := .ok januaryData, demoData := {}, demoNow := januaryTime, now := januaryTime }

def januaryFunctions : ArtifactFunctions where
  sha256 _ := zeroHash
  dump artifact := artifact.body

theorem pull_requests_describe_reports_january : ∃ artifact body,
    januaryRun.texts asciiData = .ok body ∧ artifact.draft = true ∧ artifact.body = body.2 ∧
      Described januaryFunctions ["out"]
        (runPipelines januaryFunctions asciiData ["out"] (fun _ ↦ none)
        [{ januaryRun with pipeline := .weekly, reportFails := some none }, januaryRun,
          { januaryRun with pipeline := .weekly, artifactFails := some (some []) }]) januaryRun
            body.1 artifact := by
  obtain ⟨artifact, -, hdraft, -, -, hbody, hdescribed⟩ :=
    (pull_requests_describe_reports januaryFunctions asciiData ["out"] fun _ ↦ none).1
      [{ januaryRun with pipeline := .weekly, reportFails := some none }]
      [{ januaryRun with pipeline := .weekly, artifactFails := some (some []) }] januaryRun _
        rfl rfl rfl rfl
      (by simp [januaryRun])
  exact ⟨artifact, _, rfl, hdraft, hbody, hdescribed⟩

end AgenticSecurity.Publishing
