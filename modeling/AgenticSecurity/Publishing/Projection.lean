import AgenticSecurity.Publishing.Validation

namespace AgenticSecurity.Publishing

open Library Models Python

/-- The steps of `export` that can raise, in order. -/
inductive ExportStep
  | readLedger | buildSiteData | makeParent | makeStage | writeData | hashFiles | readVersion
  | writeManifest | validateStage | moveTarget | moveStage | removeBackup | validateTarget
  deriving DecidableEq, Repr

structure Fault where
  step : ExportStep
  leaves : Directory
  deriving DecidableEq

inductive ExportError
  | raised (step : ExportStep)
  | invalid (step : ExportStep) (message : String)
  deriving DecidableEq, Repr

structure Disk where
  target : Option Directory := none
  stage : Option Directory := none
  backup : Option Directory := none
  deriving DecidableEq

abbrev Exporting := ExceptT ExportError (StateM Disk)

/-- The values that `export` has read from the ledger when it writes. -/
structure LedgerExport where
  ledgerText : Bytes
  generatedAt : Datetime
  methodologyVersion : String
  taxonomyVersion : String
  sourceLedgerVersion : String
  contentCount : ℕ
  confirmedChangeCount : ℕ
  pendingReviewCount : ℕ
  deriving DecidableEq

/-- `dumpManifest` is the text of `manifest.json` for a manifest. -/
structure ExportFunctions extends BundleFunctions where
  dumpManifest : PublicationManifest → Bytes

variable (functions : ExportFunctions) (fault : Option Fault) (ledger : LedgerExport)

def fails (step : ExportStep) : Bool := fault.any fun f ↦ f.step = step

/-- A step that raises, with the effect it has by then, or that has its whole effect. -/
def perform (step : ExportStep) (broken : Directory → Disk → Disk) (effect : Disk → Disk) :
    Exporting Unit :=
  match fault with
  | none => modify effect
  | some f =>
    if f.step = step then do
      modify (broken f.leaves)
      throw (.raised step)
    else modify effect

def unchanged (_ : Directory) (disk : Disk) : Disk := disk

def fillStage (content : Directory) (disk : Disk) : Disk := { disk with stage := some content }

def validateStep (step : ExportStep) (root : Disk → Option Directory) :
    Exporting PublicationManifest := do
  perform fault step unchanged id
  let directory := (root (← get)).getD []
  ofExcept ((validatePublicationBundle functions.toBundleFunctions directory).mapError
    (.invalid step))

def ledgerPath : Git.TreePath := ["data", "ledger.json"]

def manifestOf (files : List PublicationHash) : PublicationManifest where
  generatedAt := ledger.generatedAt
  methodologyVersion := ledger.methodologyVersion
  taxonomyVersion := ledger.taxonomyVersion
  sourceLedgerVersion := ledger.sourceLedgerVersion
  contentCount := ledger.contentCount
  confirmedChangeCount := ledger.confirmedChangeCount
  pendingReviewCount := ledger.pendingReviewCount
  files := files

/-- The part of the `try` block up to the validation of the stage. -/
def fillAndValidateStage : Exporting Unit := do
  perform fault .makeStage fillStage (fillStage [])
  perform fault .writeData fillStage (fillStage [(ledgerPath, ledger.ledgerText)])
  perform fault .hashFiles unchanged id
  let staged := ((← get).stage.getD []).insertionSort fun a b ↦ a.1 ≤ b.1
  let hashes := staged.map (fileHash functions.toBundleFunctions)
  perform fault .readVersion unchanged id
  let manifest := manifestOf ledger hashes
  perform fault .writeManifest fillStage fun disk ↦
    fillStage ((disk.stage.getD []) ++ [(manifestPath, functions.dumpManifest manifest)]) disk
  let _ ← validateStep functions fault .validateStage Disk.stage

def swap : Exporting PublicationManifest := do
  if (← get).target.isSome then
    perform fault .moveTarget unchanged fun disk ↦
      { disk with target := none, backup := disk.target }
  perform fault .moveStage unchanged fun disk ↦ { disk with target := disk.stage, stage := none }
  if (← get).backup.isSome then
    perform fault .removeBackup (fun rest disk ↦ { disk with backup := some rest })
      fun disk ↦ { disk with backup := none }
  validateStep functions fault .validateTarget Disk.target

def cleanUp (disk : Disk) : Disk :=
  let disk := { disk with stage := none }
  if disk.backup.isSome ∧ disk.target.isNone then
    { disk with target := disk.backup, backup := none }
  else disk

def exportBundle : Exporting PublicationManifest := do
  perform fault .readLedger unchanged id
  perform fault .buildSiteData unchanged id
  perform fault .makeParent unchanged id
  tryCatch (do fillAndValidateStage functions fault ledger; swap functions fault) fun error ↦ do
    modify cleanUp
    throw error

/-- A call of `export` on a target, with how it ends and what it leaves on the disk. -/
def exported (target : Option Directory) : Except ExportError PublicationManifest × Disk :=
  (exportBundle functions fault ledger).run { target }

def stagedBundle : Directory :=
  let files := [(ledgerPath, ledger.ledgerText)]
  files ++
    [(manifestPath,
      functions.dumpManifest (manifestOf ledger
        (files.map (fileHash functions.toBundleFunctions))))]

variable {functions fault ledger}

theorem run_bind {α β : Type} (x : Exporting α) (f : α → Exporting β) (disk : Disk) :
    (x >>= f).run disk =
      match x.run disk with
      | (.error error, disk) => (.error error, disk)
      | (.ok a, disk) => (f a).run disk := by
  change (match x.run disk with
    | (r, disk) => (ExceptT.bindCont f r).run disk) = _
  match x.run disk with
  | (.error error, disk) => rfl
  | (.ok a, disk) => rfl

theorem perform_cases (step : ExportStep) (broken : Directory → Disk → Disk) (effect : Disk → Disk)
    (disk : Disk) :
    (fails fault step = true ∧ ∃ leaves,
      (perform fault step broken effect).run disk = (.error (.raised step), broken leaves disk)) ∨
    fails fault step = false ∧
    (perform fault step broken effect).run disk = (.ok (), effect disk) := by
  cases fault with
  | none => exact .inr ⟨rfl, rfl⟩
  | some f =>
    by_cases he : f.step = step
    · refine .inl ⟨by simp [fails, he], f.leaves, ?_⟩
      simp only [perform, he, if_true]
      rfl
    · refine .inr ⟨by simp [fails, he], ?_⟩
      simp only [perform, he, if_false]
      rfl

theorem run_perform_bind {α : Type} (P : Except ExportError α × Disk → Prop) (step : ExportStep)
    (broken : Directory → Disk → Disk) (effect : Disk → Disk) (k : Unit → Exporting α) (disk : Disk)
    (herror : fails fault step = true → ∀ leaves, P (.error (.raised step), broken leaves disk))
    (hok : fails fault step = false → P ((k ()).run (effect disk))) :
    P ((perform fault step broken effect >>= k).run disk) := by
  rw [run_bind]
  rcases @perform_cases fault step broken effect disk with ⟨h, leaves, he⟩ | ⟨h, he⟩ <;> rw [he]
  · exact herror h leaves
  · exact hok h

theorem run_get_bind {α : Type} (P : Except ExportError α × Disk → Prop) (k : Disk → Exporting α)
    (disk : Disk) (h : P ((k disk).run disk)) : P ((get >>= k).run disk) := h

theorem validateStep_cases (step : ExportStep) (root : Disk → Option Directory) (disk : Disk) :
    (fails fault step = true ∧
      (validateStep functions fault step root).run disk = (.error (.raised step), disk)) ∨
    fails fault step = false ∧ (validateStep functions fault step root).run disk =
      ((validatePublicationBundle functions.toBundleFunctions ((root disk).getD [])).mapError
        (.invalid step), disk) := by
  unfold validateStep
  rcases @perform_cases fault step unchanged id disk with ⟨hfails, leaves, he⟩ | ⟨hfails, he⟩
  · exact .inl ⟨hfails, by rw [run_bind, he]; rfl⟩
  · refine .inr ⟨hfails, ?_⟩
    rw [run_bind, he]
    dsimp only
    rw [run_bind]
    change (ofExcept
      ((validatePublicationBundle functions.toBundleFunctions ((root disk).getD [])).mapError
      (.invalid step)) : Exporting PublicationManifest).run disk = _
    cases (validatePublicationBundle functions.toBundleFunctions ((root disk).getD [])).mapError
      (ExportError.invalid step) <;> rfl

theorem run_validate_bind {α : Type} (P : Except ExportError α × Disk → Prop) (step : ExportStep)
    (root : Disk → Option Directory) (k : PublicationManifest → Exporting α) (disk : Disk)
    (hfails : fails fault step = true → P (.error (.raised step), disk))
    (hinvalid : fails fault step = false → ∀ message,
      validatePublicationBundle functions.toBundleFunctions ((root disk).getD []) = .error message →
      P (.error (.invalid step message), disk))
    (hok : fails fault step = false → ∀ manifest,
      validatePublicationBundle functions.toBundleFunctions ((root disk).getD []) = .ok manifest →
      P ((k manifest).run disk)) :
    P ((validateStep functions fault step root >>= k).run disk) := by
  rw [run_bind]
  rcases @validateStep_cases functions fault step root disk with ⟨h, he⟩ | ⟨h, he⟩ <;> rw [he]
  · exact hfails h
  · cases hvalid : validatePublicationBundle functions.toBundleFunctions ((root disk).getD []) with
    | error message => exact hinvalid h message hvalid
    | ok manifest => exact hok h manifest hvalid

variable (functions fault ledger)

def StageFails : Prop :=
  (∃ step ∈ [ExportStep.makeStage, .writeData, .hashFiles, .readVersion, .writeManifest, .validateStage],
    fails fault step = true) ∨
  ∃ message, validatePublicationBundle functions.toBundleFunctions (stagedBundle functions ledger) =
    .error message

variable {functions fault ledger}

def StageOutcome (functions : ExportFunctions) (fault : Option Fault) (ledger : LedgerExport)
    (disk : Disk) (r : Except ExportError Unit × Disk) : Prop :=
  (StageFails functions fault ledger ∧ ∃ error stage, r = (.error error, { disk with stage })) ∨
    ¬ StageFails functions fault ledger ∧
      r = (.ok (), { disk with stage := some (stagedBundle functions ledger) })

theorem fillAndValidateStage_outcome (disk : Disk) :
    StageOutcome functions fault ledger disk
      ((fillAndValidateStage functions fault ledger).run disk) := by
  have hstep : ∀ step ∈ [ExportStep.makeStage, .writeData, .hashFiles, .readVersion, .writeManifest,
      .validateStage], fails fault step = true → ∀ error stage,
      StageOutcome functions fault ledger disk (.error error, { disk with stage }) :=
    fun step hmem hfails error stage ↦ .inl ⟨.inl ⟨step, hmem, hfails⟩, error, stage, rfl⟩
  unfold fillAndValidateStage
  refine run_perform_bind _ _ _ _ _ _ (fun h _ ↦ hstep _ (by simp) h _ _) fun h₁ ↦ ?_
  refine run_perform_bind _ _ _ _ _ _ (fun h _ ↦ hstep _ (by simp) h _ _) fun h₂ ↦ ?_
  refine run_perform_bind _ _ _ _ _ _ (fun h _ ↦ hstep _ (by simp) h _ _) fun h₃ ↦ ?_
  refine run_get_bind _ _ _ ?_
  refine run_perform_bind _ _ _ _ _ _ (fun h _ ↦ hstep _ (by simp) h _ _) fun h₄ ↦ ?_
  refine run_perform_bind _ _ _ _ _ _ (fun h _ ↦ hstep _ (by simp) h _ _) fun h₅ ↦ ?_
  refine run_validate_bind _ _ _ _ _ (fun h ↦ hstep _ (by simp) h _ _) (fun _ message hinvalid ↦ ?_)
    fun h₆ manifest hvalid ↦ ?_
  · exact .inl ⟨.inr ⟨message, hinvalid⟩, _, _, rfl⟩
  · refine .inr ⟨?_, rfl⟩
    rintro (⟨step, hmem, hfails⟩ | ⟨message, hinvalid⟩)
    · have hall :
          ∀ step ∈ [ExportStep.makeStage, .writeData, .hashFiles, .readVersion, .writeManifest,
          .validateStage], fails fault step = false := by
        simp [h₁, h₂, h₃, h₄, h₅, h₆]
      rw [hall step hmem] at hfails
      cases hfails
    · cases hinvalid.symm.trans hvalid

def SameContent (a b : Option Directory) : Prop :=
  (a.map fun directory path ↦ directory.lookup path) =
    b.map fun directory path ↦ directory.lookup path

variable (functions fault ledger)

/-- An export that raises leaves the target as it was and no sibling; one that returns
leaves the new bundle, which passes the validation. -/
def KeepsTarget (previous : Option Directory) (r : Except ExportError PublicationManifest × Disk) :
    Prop :=
  match r with
  | (.error _, after) => SameContent after.target previous ∧ after.stage = none ∧
      after.backup = none
  | (.ok manifest, after) => after.target = some (stagedBundle functions ledger) ∧
      validatePublicationBundle functions.toBundleFunctions (stagedBundle functions ledger) =
        .ok manifest

/-- The removal of the backup raises, or the final validation does over a target that held
other files: the step comes after the second rename. -/
def RaisesAfterSwap (previous : Option Directory) : Prop :=
  (∃ manifest, validatePublicationBundle functions.toBundleFunctions
    (stagedBundle functions ledger) =
    .ok manifest) ∧
  (previous.isSome ∧ fails fault .removeBackup = true ∨
    fails fault .validateTarget = true ∧
    ¬ SameContent (some (stagedBundle functions ledger)) previous)

variable {functions fault ledger} {previous : Option Directory}

theorem fails_unique {step step' : ExportStep} (h : fails fault step = true)
    (h' : fails fault step' = true) :
    step = step' := by
  cases fault with
  | none => cases h
  | some f =>
    simp only [fails, Option.any_some, decide_eq_true_eq] at h h'
    exact h.symm.trans h'

theorem not_raisesAfterSwap {step : ExportStep} (h : fails fault step = true)
    (hbackup : step ≠ .removeBackup) (htarget : step ≠ .validateTarget) :
    ¬ RaisesAfterSwap functions fault ledger previous := by
  rintro ⟨-, ⟨-, hlate⟩ | ⟨hlate, -⟩⟩
  · exact hbackup (fails_unique h hlate)
  · exact htarget (fails_unique h hlate)

theorem run_tryCatch (x : Exporting PublicationManifest) (disk : Disk) :
    (tryCatch x fun error ↦ do
      modify cleanUp
      throw error).run disk =
      match x.run disk with
      | (.error error, disk) => (.error error, cleanUp disk)
      | (.ok manifest, disk) => (.ok manifest, disk) := by
  simp only [tryCatch, tryCatchThe, MonadExceptOf.tryCatch, ExceptT.tryCatch, ExceptT.run,
    ExceptT.mk, bind, StateT.bind]
  rcases x disk with ⟨error | manifest, disk⟩ <;> rfl

theorem swap_outcome {manifest : PublicationManifest}
    (hvalid : validatePublicationBundle functions.toBundleFunctions
      (stagedBundle functions ledger) =
      .ok manifest) :
    KeepsTarget functions ledger previous
      (match (swap functions fault).run
        { target := previous, stage := some (stagedBundle functions ledger) } with
      | (.error error, disk) => (.error error, cleanUp disk)
      | (.ok manifest, disk) => (.ok manifest, disk)) ↔
    ¬ RaisesAfterSwap functions fault ledger previous := by
  -- the handler acts on whatever the swap leaves where it raises
  let P (r : Except ExportError PublicationManifest × Disk) : Prop :=
    KeepsTarget functions ledger previous
      (match r with
      | (.error error, disk) => (.error error, cleanUp disk)
      | (.ok manifest, disk) => (.ok manifest, disk)) ↔
    ¬ RaisesAfterSwap functions fault ledger previous
  change P _
  have hearly : ∀ step, fails fault step = true → step ≠ .removeBackup → step ≠ .validateTarget →
      ∀ disk, cleanUp disk = { target := previous } → P (.error (.raised step), disk) := by
    intro step hfails hbackup htarget disk hclean
    refine iff_of_true ?_ (not_raisesAfterSwap hfails hbackup htarget)
    change KeepsTarget functions ledger previous (.error _, cleanUp disk)
    rw [hclean]
    exact ⟨rfl, rfl, rfl⟩
  have hfinal : ¬ (previous.isSome = true ∧ fails fault .removeBackup = true) →
      P ((validateStep functions fault .validateTarget Disk.target).run
        { target := some (stagedBundle functions ledger) }) := by
    intro hbackup
    rcases @validateStep_cases functions fault .validateTarget Disk.target
      { target := some (stagedBundle functions ledger) } with ⟨h, he⟩ | ⟨h, he⟩ <;> rw [he]
    · have hkeeps : KeepsTarget functions ledger previous (.error (.raised .validateTarget),
          cleanUp { target := some (stagedBundle functions ledger) }) ↔
          SameContent (some (stagedBundle functions ledger)) previous :=
        ⟨fun hk ↦ hk.1, fun hsame ↦ ⟨hsame, rfl, rfl⟩⟩
      refine hkeeps.trans ⟨fun hsame hlate ↦ ?_, fun hlate ↦ ?_⟩
      · exact hlate.2.elim hbackup fun hother ↦ hother.2 hsame
      · by_contra hother
        exact hlate ⟨⟨manifest, hvalid⟩, .inr ⟨h, hother⟩⟩
    · refine iff_of_true ?_ fun hlate ↦ ?_
      · rw [show validatePublicationBundle functions.toBundleFunctions
          ((Disk.target { target := some (stagedBundle functions ledger) }).getD []) =
            .ok manifest from hvalid]
        exact ⟨rfl, hvalid⟩
      · rcases hlate.2 with hremoved | ⟨hfails, -⟩
        · exact hbackup hremoved
        · rw [h] at hfails
          cases hfails
  unfold swap
  refine run_get_bind P _ _ ?_
  cases previous with
  | none =>
    refine run_perform_bind P _ _ _ _ _ (fun h _ ↦ hearly _ h (by simp) (by simp) _ rfl) fun _ ↦ ?_
    exact run_get_bind P _ _ (hfinal (by simp))
  | some before =>
    refine run_perform_bind P _ _ _ _ _ (fun h _ ↦ hearly _ h (by simp) (by simp) _ rfl) fun _ ↦ ?_
    refine run_perform_bind P _ _ _ _ _ (fun h _ ↦ hearly _ h (by simp) (by simp) _ rfl) fun _ ↦ ?_
    refine run_get_bind P _ _ ?_
    refine run_perform_bind P _ _ _ _ _ (fun h rest ↦ iff_of_false ?_ ?_) fun h ↦ ?_
    · exact fun hkeeps ↦ absurd hkeeps.2.2 (Option.some_ne_none rest)
    · exact not_not.mpr ⟨⟨manifest, hvalid⟩, .inl ⟨rfl, h⟩⟩
    · exact hfinal (by simp [h])

variable (functions fault ledger)

/-- An export does what it should exactly when no step after the second rename raises. -/
theorem export_keeps_target_iff (previous : Option Directory) :
    KeepsTarget functions ledger previous (exported functions fault ledger previous) ↔
    ¬ RaisesAfterSwap functions fault ledger previous := by
  let P (r : Except ExportError PublicationManifest × Disk) : Prop :=
    KeepsTarget functions ledger previous r ↔ ¬ RaisesAfterSwap functions fault ledger previous
  change P _
  have hearly : ∀ step, fails fault step = true → step ≠ .removeBackup → step ≠ .validateTarget →
      P (.error (.raised step), { target := previous }) :=
    fun step hfails hbackup htarget ↦
      iff_of_true ⟨rfl, rfl, rfl⟩ (not_raisesAfterSwap hfails hbackup htarget)
  unfold exported exportBundle
  refine run_perform_bind P _ _ _ _ _ (fun h _ ↦ hearly _ h (by simp) (by simp)) fun _ ↦ ?_
  refine run_perform_bind P _ _ _ _ _ (fun h _ ↦ hearly _ h (by simp) (by simp)) fun _ ↦ ?_
  refine run_perform_bind P _ _ _ _ _ (fun h _ ↦ hearly _ h (by simp) (by simp)) fun _ ↦ ?_
  rw [run_tryCatch, run_bind]
  dsimp only [id]
  rcases @fillAndValidateStage_outcome functions fault ledger { target := previous } with
    ⟨hfails, error, stage, he⟩ | ⟨hok, he⟩
  · rw [he]
    refine iff_of_true ⟨rfl, rfl, rfl⟩ fun ⟨⟨manifest, hvalid⟩, hlate⟩ ↦ ?_
    rcases hfails with ⟨step, hmem, hstep⟩ | ⟨message, hinvalid⟩
    · have hne : step ≠ .removeBackup ∧ step ≠ .validateTarget := by
        constructor <;> rintro rfl <;> simp at hmem
      exact not_raisesAfterSwap hstep hne.1 hne.2 ⟨⟨manifest, hvalid⟩, hlate⟩
    · cases hinvalid.symm.trans hvalid
  · rw [he]
    cases hvalid :
      validatePublicationBundle functions.toBundleFunctions (stagedBundle functions ledger) with
    | error message => exact absurd (.inr ⟨message, hvalid⟩) hok
    | ok manifest => exact swap_outcome hvalid

def emptyLedgerText : Bytes :=
  [ "\x7b\n  \"canonical_base\": \"https://agentic-security-intelligence.pages.dev\",\n",
    "  \"changes\": [],\n  \"claims\": [],\n  \"daily\": [],\n",
    "  \"generated_at\": \"2026-01-01T00:00:00+00:00\",\n  \"methodology_version\": \"ASI-1.0\",\n",
    "  \"sources\": [],\n  \"systems\": [],\n  \"taxonomy_version\": \"ASI-TAXONOMY-1.1\",\n",
    "  \"weekly\": []\n\x7d\n" ].flatMap encodeUtf8

def emptyLedgerHash : Sha256 :=
  { text := "bb36565c88fb295f56f3ad1afb795c2e3dcfba89cb51ad5ff32df1d839e2b857" }

def emptyLedger : LedgerExport where
  ledgerText := emptyLedgerText
  generatedAt := .midnight sampleDay
  methodologyVersion := "ASI-1.0"
  taxonomyVersion := "ASI-TAXONOMY-1.1"
  sourceLedgerVersion := "sqlite-schema-1"
  contentCount := 0
  confirmedChangeCount := 0
  pendingReviewCount := 0

def emptyManifest : PublicationManifest :=
  manifestOf emptyLedger [{ path := "data/ledger.json", sha256 := emptyLedgerHash, sizeBytes := 297 }]

def emptyManifestText : Bytes :=
  [ "\x7b\n  \"generated_at\": \"2026-01-01T00:00:00Z\",\n  \"methodology_version\": \"ASI-1.0\",\n",
    "  \"taxonomy_version\": \"ASI-TAXONOMY-1.1\",\n  \"source_ledger_version\": \"sqlite-schema-1\",\n",
    "  \"content_count\": 0,\n  \"confirmed_change_count\": 0,\n  \"pending_review_count\": 0,\n",
    "  \"files\": [\n    \x7b\n      \"path\": \"data/ledger.json\",\n      \"sha256\": ",
    "\"bb36565c88fb295f56f3ad1afb795c2e3dcfba89cb51ad5ff32df1d839e2b857\",\n",
    "      \"size_bytes\": 297\n    \x7d\n  ]\n\x7d\n" ].flatMap encodeUtf8

def emptyLedgerFunctions : ExportFunctions where
  sha256 content := if content = emptyLedgerText then emptyLedgerHash else zeroHash
  parseManifest raw := if raw = emptyManifestText then .ok emptyManifest else .error "Invalid JSON"
  scanPublicFile _ _ := .ok ()
  dumpManifest manifest := if manifest = emptyManifest then emptyManifestText else []

def earlierFiles : Directory := [(["manifest.json"], encodeUtf8 "earlier"), (["data", "ledger.json"], [])]

def backupFault : Fault where
  step := .removeBackup
  leaves := [(["manifest.json"], encodeUtf8 "earlier")]

set_option linter.constructorNameAsVariable false in
theorem export_replaces_target :
    ∃ after,
      exported emptyLedgerFunctions (some backupFault) emptyLedger (some earlierFiles) =
        (.error (.raised .removeBackup), after) ∧
      after.target = some (stagedBundle emptyLedgerFunctions emptyLedger) ∧
      after.backup = some backupFault.leaves ∧
      ¬ KeepsTarget emptyLedgerFunctions emptyLedger (some earlierFiles)
        (exported emptyLedgerFunctions (some backupFault) emptyLedger (some earlierFiles)) := by
  have hrun : exported emptyLedgerFunctions (some backupFault) emptyLedger (some earlierFiles) =
      (.error (.raised .removeBackup),
        { target := some (stagedBundle emptyLedgerFunctions emptyLedger),
          backup := some backupFault.leaves }) := by
    decide +kernel
  refine ⟨_, hrun, rfl, rfl, fun hkeeps ↦ ?_⟩
  rw [hrun] at hkeeps
  exact absurd hkeeps.2.2 (Option.some_ne_none _)

end AgenticSecurity.Publishing
