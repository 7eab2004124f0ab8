import AgenticSecurity.Collection.Service
import AgenticSecurity.Evidence.LineAnchors
import AgenticSecurity.Normalization
import AgenticSecurity.Sources.Registry

namespace AgenticSecurity.Collection

open Evidence Models Normalization Python Sources

structure ContentData where
  unicode : UnicodeData
  html : HtmlData
  contentSha256 : String → Sha256
  now : Datetime

structure SnapshotArguments where
  snapshotId : SnapshotId
  sourceId : SourceId
  canonicalUri : String
  contentType : String
  rawText : String
  retrievedAt : Option Datetime := none
  repository : Option String := none
  commitSha : Option String := none
  filePath : Option String := none

def SnapshotArguments.fields (args : SnapshotArguments) (data : ContentData) (normalized : String) :
    SnapshotFields where
  id := args.snapshotId
  sourceId := args.sourceId
  canonicalUri := args.canonicalUri
  retrievedAt := args.retrievedAt.getD data.now
  normalizerVersion := normalizerVersion
  sha256 := data.contentSha256 normalized
  contentType := args.contentType
  rawContent := args.rawText
  normalizedText := normalized
  repository := args.repository
  commitSha := args.commitSha
  filePath := args.filePath

/-- `build_snapshot` with all its arguments. -/
def SnapshotArguments.buildSnapshot (args : SnapshotArguments) (data : ContentData) :
    Except String Snapshot :=
  match normalizeV1 data.unicode data.html args.rawText.toList with
  | none => .error "Exceeds the limit (4300 digits) for integer string conversion"
  | some normalized =>
    let fields := args.fields data (String.ofList normalized)
    if h : fields.gitFieldsAreComplete = none then .ok { fields with accepted := h }
    else .error (fields.gitFieldsAreComplete.getD "")

structure GitBackend where
  sync (repositoryUrl destination : String) : Except String Unit
  head (destination : String) : Except String String
  read (destination commitSha filePath : String) : Except String String

structure GitRetriever where
  registry : SourceRegistry
  checkoutRoot : String
  backend : GitBackend

def isSafePath (path : List Char) : Bool :=
  path ≠ [] && path.all fun c ↦ c.isAlphanum || c ∈ "._/-".toList

def isCommitSha (text : List Char) : Bool :=
  text.length = 40 && text.all fun c ↦ c.isDigit || ('a' ≤ c && c ≤ 'f')

def GitRetriever.retrieve (self : GitRetriever) (data : ContentData) (sourceId filePath : String)
    (snapshotId : SnapshotId) : Except String Snapshot := do
  let source ← self.registry.get sourceId
  if ¬ source.enabled ∨ source.kind ≠ .git ∨ source.baseUrl = none ∨ ¬ truthy source.repository then
    .error "source is not an enabled git source"
  else if ¬ isSafePath filePath.toList ∨ ['.', '.'] ∈ split '/' filePath.toList then
    .error "unsafe git file path"
  else
    let destination := self.checkoutRoot ++ "/" ++ sourceId
    let repositoryUrl := source.baseUrl.getD ""
    self.backend.sync repositoryUrl destination
    let commitSha ← self.backend.head destination
    if ¬ isCommitSha commitSha.toList then .error "git backend returned an invalid commit SHA"
    else
      let text ← self.backend.read destination commitSha filePath
      SnapshotArguments.buildSnapshot
        { snapshotId, sourceId := source.id,
          canonicalUri := repositoryUrl ++ "@" ++ commitSha ++ ":" ++ filePath,
          contentType := "text/markdown", rawText := text, repository := source.repository,
          commitSha, filePath } data

theorem buildSnapshot_ok {args : SnapshotArguments} {data : ContentData} {snapshot : Snapshot}
    (h : args.buildSnapshot data = .ok snapshot) :
    snapshot.rawContent = args.rawText ∧ snapshot.repository = args.repository ∧
      normalizeV1 data.unicode data.html args.rawText.toList =
        some snapshot.normalizedText.toList := by
  unfold SnapshotArguments.buildSnapshot at h
  split at h
  next => cases h
  next normalized hnormalized =>
    dsimp only at h
    split_ifs at h with haccepted
    obtain rfl := Except.ok.inj h
    exact ⟨rfl, rfl, by rw [hnormalized]; simp [SnapshotArguments.fields]⟩

theorem GitRetriever.retrieve_ok {self : GitRetriever} {data : ContentData}
    {sourceId filePath : String} {snapshotId : SnapshotId} {snapshot : Snapshot}
    (h : self.retrieve data sourceId filePath snapshotId = .ok snapshot) :
    snapshot.repository.isSome ∧
      normalizeV1 data.unicode data.html snapshot.rawContent.toList =
        some snapshot.normalizedText.toList := by
  unfold GitRetriever.retrieve at h
  obtain ⟨source, -, h⟩ := Library.Runs.except_bind_ok.mp h
  split_ifs at h with henabled hpath
  obtain ⟨-, -, h⟩ := Library.Runs.except_bind_ok.mp h
  obtain ⟨commitSha, -, h⟩ := Library.Runs.except_bind_ok.mp h
  split_ifs at h with hsha
  obtain ⟨text, -, h⟩ := Library.Runs.except_bind_ok.mp h
  obtain ⟨hraw, hrepository, hnormalized⟩ := buildSnapshot_ok h
  rw [hraw, hrepository]
  refine ⟨?_, hnormalized⟩
  obtain ⟨-, -, -, htruthy⟩ : source.enabled ∧ source.kind = .git ∧ source.baseUrl ≠ none ∧
      truthy source.repository := by
    simpa [not_or] using henabled
  cases hvalue : source.repository with
  | none => simp [truthy, hvalue] at htruthy
  | some repository => rfl

def FileLinesQuoted (data : ContentData) (anchor : EvidenceAnchor) (snapshot : Snapshot) : Prop :=
  normalizeV1 data.unicode data.html
      (join ['\n'] (lineSlice (splitlines snapshot.rawContent.toList) (anchor.lineStart.getD 0)
        (anchor.lineEnd.getD 0))) =
    some anchor.quote.toList

/-- Lines are numbered among those that normalization keeps of the text without markup. Where the
file has no markup these are lines of the file, and they alone normalize to the quote. -/
theorem git_lines_are_kept_lines (retriever : GitRetriever) (data : ContentData)
    (sourceId filePath : String) (snapshotId : SnapshotId) (snapshot : Snapshot)
    (evidence : Models.Evidence)
    (hretrieved : retriever.retrieve data sourceId filePath snapshotId = .ok snapshot)
    (haccepted : validateEvidenceAnchor data.contentSha256 evidence snapshot = .ok ()) :
    ∃ lineStart lineEnd remaining, evidence.anchor.lineStart = some lineStart ∧
      evidence.anchor.lineEnd = some lineEnd ∧
      1 ≤ lineStart ∧ lineStart ≤ lineEnd ∧
      withoutMarkup data.unicode data.html snapshot.rawContent.toList = some remaining ∧
      join ['\n']
        ((lineSlice ((splitlines remaining).filter keeps) lineStart lineEnd).map compact) =
        evidence.anchor.quote.toList ∧
      ('&' ∉ snapshot.rawContent.toList → '<' ∉ snapshot.rawContent.toList →
        normalizeV1 data.unicode data.html
            (join ['\n'] (lineSlice ((splitlines snapshot.rawContent.toList).filter keeps)
              lineStart lineEnd)) =
          some evidence.anchor.quote.toList) := by
  obtain ⟨hrepository, hnormalized⟩ := retriever.retrieve_ok hretrieved
  obtain ⟨lineStart, lineEnd, h⟩ := gitAnchored_of_valid hrepository haccepted
  obtain ⟨remaining, hremaining, hsplit⟩ := splitlines_normalizeV1 hnormalized
  have hquote :
      join ['\n']
      ((lineSlice ((splitlines remaining).filter keeps) lineStart lineEnd).map compact) =
      evidence.anchor.quote.toList := by
    rw [← h.lines, hsplit, lineSlice, lineSlice, List.map_drop, List.map_take, keptLines]
  refine ⟨lineStart, lineEnd, remaining, h.lineStart_eq, h.lineEnd_eq, h.positive, h.ordered,
    hremaining, hquote, ?_⟩
  intro hentity htag
  have hsame : splitlines remaining = splitlines snapshot.rawContent.toList := by
    rw [withoutMarkup_of_plain _ _ hentity htag, Option.some_inj] at hremaining
    rw [← hremaining, splitlines_newlines]
  rw [normalizeV1_lines data.unicode data.html hentity htag, ← hsame, hquote]
  exact List.Subset.trans (List.drop_subset _ _) (List.take_subset _ _)

def runbookSource : Source where
  id := runbookSnapshot.sourceId
  publisher := "Publisher"
  name := "Runbook"
  kind := .git
  domains := ["example.com"]
  baseUrl := some "https://example.com/docs"
  repository := runbookSnapshot.repository
  trustClass := .official
  status := .approved
  enabled := true
  policy :=
    { allowedClaimTypes := {.capability}, allowedClaimPurposes := {.documentation},
      crawlFrequency := "weekly" }
  pinnedAt := sampleDay
  fallbackNote := ""
  accepted := rfl

def runbookRetriever (text : String) : GitRetriever where
  registry := { sources := [runbookSource] }
  checkoutRoot := "checkouts"
  backend :=
    { sync _ _ := .ok ()
      head _ := .ok "aaaaaaaaaaaaaaaaaaaaaaaaaaaaaaaaaaaaaaaa"
      read _ _ _ := .ok text }

def runbookContent : ContentData where
  unicode := asciiData
  html := { html5 _ := none }
  contentSha256 := runbookSha256
  now := .midnight sampleDay

def shiftedSnapshot : Snapshot :=
  { runbookSnapshot with
    canonicalUri :=
      "https://example.com/docs@aaaaaaaaaaaaaaaaaaaaaaaaaaaaaaaaaaaaaaaa:docs/runbook.md"
    rawContent := "\n" ++ runbookText }

theorem retrieve_shifted :
    (runbookRetriever ("\n" ++ runbookText)).retrieve runbookContent "SRC-RUNBOOK" "docs/runbook.md"
      runbookSnapshot.id =
      .ok shiftedSnapshot := by
  rfl

/-- The second line of the file is the first one of its normalized text. -/
theorem blank_line_shifts_lines :
    (runbookRetriever ("\n" ++ runbookText)).retrieve runbookContent "SRC-RUNBOOK" "docs/runbook.md"
      runbookSnapshot.id =
        .ok shiftedSnapshot ∧
      validateEvidenceAnchor runbookContent.contentSha256
        (runbookEvidence 1 le_rfl) shiftedSnapshot = .ok () ∧
        ¬ FileLinesQuoted runbookContent (runbookEvidence 1 le_rfl).anchor shiftedSnapshot := by
  refine ⟨retrieve_shifted, by decide, ?_⟩
  unfold FileLinesQuoted
  decide

theorem git_lines_are_kept_lines_shifted :
    ∃ lineStart lineEnd, (runbookEvidence 1 le_rfl).anchor.lineStart = some lineStart ∧
      normalizeV1 asciiData runbookContent.html
          (join ['\n'] (lineSlice ((splitlines shiftedSnapshot.rawContent.toList).filter keeps)
            lineStart lineEnd)) =
        some (runbookEvidence 1 le_rfl).anchor.quote.toList := by
  obtain ⟨lineStart, lineEnd, _, hstart, -, -, -, -, -, hquote⟩ :=
    git_lines_are_kept_lines _ runbookContent _ _ _ shiftedSnapshot
      (runbookEvidence 1 le_rfl) retrieve_shifted (by decide)
  exact ⟨lineStart, lineEnd, hstart, hquote (by decide) (by decide)⟩

end AgenticSecurity.Collection
