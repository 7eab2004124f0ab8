import AgenticSecurity.Evidence.Validation
import AgenticSecurity.Python.Lines

namespace AgenticSecurity.Evidence

open Models Python

/-- The lines of the line anchor are lines of the text, the first begins and the last ends where
the offset anchor does. -/
def AnchorsAgree (anchor : EvidenceAnchor) (text : List Char) : Prop :=
  ∃ lineStart lineEnd, anchor.lineStart = some lineStart ∧ anchor.lineEnd = some lineEnd ∧
    1 ≤ lineStart ∧ lineStart ≤ lineEnd ∧ lineEnd ≤ (splitlines text).length ∧
    anchor.startOffset = lineBegin (linesOf text) (lineStart - 1) ∧
    anchor.endOffset = lineStop (linesOf text) (lineEnd - 1)

/-- The line numbers are counted from the offset and the quote, and the offset is not inside a
break of two characters. -/
def LinesCounted (anchor : EvidenceAnchor) (text : List Char) : Prop :=
  ∃ lineStart, anchor.lineStart = some lineStart ∧
    lineStart = lineBreaks (text.take anchor.startOffset) + 1 ∧
    anchor.lineEnd = some (lineStart + anchor.quote.toList.count '\n') ∧
    ¬ InsideBreak text anchor.startOffset

structure GitAnchored (anchor : EvidenceAnchor) (text : List Char) (lineStart lineEnd : ℕ) :
    Prop where
  lineStart_eq : anchor.lineStart = some lineStart
  lineEnd_eq : anchor.lineEnd = some lineEnd
  positive : 1 ≤ lineStart
  ordered : lineStart ≤ lineEnd
  within : anchor.endOffset ≤ text.length
  nonempty : anchor.startOffset < anchor.endOffset
  quote : (text.take anchor.endOffset).drop anchor.startOffset = anchor.quote.toList
  lines : join ['\n'] (lineSlice (splitlines text) lineStart lineEnd) = anchor.quote.toList

theorem shape_of_accepted (anchor : EvidenceAnchor) :
    anchor.startOffset < anchor.endOffset ∧ ∀ lineStart lineEnd, anchor.lineStart = some lineStart →
      anchor.lineEnd = some lineEnd → 1 ≤ lineStart ∧ lineStart ≤ lineEnd := by
  have hshape := anchor.accepted
  unfold EvidenceAnchorFields.validateShape at hshape
  split_ifs at hshape with hoffsets hgit horder
  refine ⟨not_le.mp hoffsets, fun lineStart lineEnd hstart hend ↦ ?_⟩
  have hpositive := anchor.bounded.2.2.2.1 lineStart hstart
  have hpositive' := anchor.bounded.2.2.2.2 lineEnd hend
  rw [hstart, hend, Option.getD_some, Option.getD_some] at horder
  omega

theorem gitAnchored_of_valid {contentSha256 : String → Sha256} {evidence : Evidence}
    {snapshot : Snapshot} (hrepository : snapshot.repository.isSome)
    (h : validateEvidenceAnchor contentSha256 evidence snapshot = .ok ()) :
    ∃ lineStart lineEnd, GitAnchored evidence.anchor snapshot.normalizedText.toList lineStart
      lineEnd := by
  have haccepted := anchorAccepted_of_ok h
  have hgit := haccepted.git hrepository
  have hcomplete := hgit.complete
  have hlines := hgit.lines
  obtain ⟨hnonempty, horder⟩ := shape_of_accepted evidence.anchor
  simp only [EvidenceAnchorFields.gitValues, List.all_cons, List.all_nil, Bool.and_true,
    Bool.and_eq_true, id] at hcomplete
  obtain ⟨-, -, -, hstart, hend⟩ := hcomplete
  obtain ⟨lineStart, hstart⟩ := Option.isSome_iff_exists.mp hstart
  obtain ⟨lineEnd, hend⟩ := Option.isSome_iff_exists.mp hend
  obtain ⟨hpositive, hordered⟩ := horder lineStart lineEnd hstart hend
  rw [hstart, hend] at hlines
  exact ⟨lineStart, lineEnd, hstart, hend, hpositive, hordered, haccepted.within, hnonempty,
    haccepted.quote, hlines⟩

theorem lineSlice_splitlines (text : List Char) (start stop : ℕ) :
    lineSlice (splitlines text) start stop =
      (((linesOf text).take stop).drop (start - 1)).map Line.body := by
  rw [lineSlice, splitlines, splitlinesFrom_eq, ← linesOf, List.map_drop, List.map_take]

theorem length_splitlines (text : List Char) :
    (splitlines text).length = (linesOf text).length := by
  rw [splitlines, splitlinesFrom_eq, List.length_map, linesOf]

theorem GitAnchored.quote_length {anchor : EvidenceAnchor} {text : List Char}
    {lineStart lineEnd : ℕ} (h : GitAnchored anchor text lineStart lineEnd) :
    anchor.startOffset + anchor.quote.toList.length = anchor.endOffset := by
  have hwithin := h.within
  have hnonempty := h.nonempty
  rw [← h.quote, List.length_drop, List.length_take]
  omega

theorem GitAnchored.agree_iff {anchor : EvidenceAnchor} {text : List Char} {lineStart lineEnd : ℕ}
    (h : GitAnchored anchor text lineStart lineEnd) : AnchorsAgree anchor text ↔
    LinesCounted anchor text := by
  have hpositive := h.positive
  have hordered := h.ordered
  have hlength := h.quote_length
  have hne : anchor.quote.toList ≠ [] := by
    apply List.ne_nil_of_length_pos
    have hnonempty := h.nonempty
    omega
  have hbegins : anchor.quote.toList <+: text.drop anchor.startOffset := by
    rw [← h.quote, List.drop_take]
    exact List.take_prefix _ _
  have hlines : join ['\n'] ((((linesOf text).take lineEnd).drop (lineStart - 1)).map Line.body) =
      anchor.quote.toList := by
    rw [← lineSlice_splitlines, h.lines]
  have hplace :=
    (lines_linesOf text).same_place_iff (h.nonempty.le.trans h.within) (by omega) hlines hne hbegins
  rw [hlength] at hplace
  constructor
  · intro ⟨first, last, hfirst, hlast, _, _, hcount, hbegin, hstop⟩
    obtain rfl := Option.some.inj (h.lineStart_eq.symm.trans hfirst)
    obtain rfl := Option.some.inj (h.lineEnd_eq.symm.trans hlast)
    rw [length_splitlines] at hcount
    obtain ⟨hbreaks, hnewlines, hinside⟩ := hplace.mp ⟨hcount, hbegin, hstop⟩
    exact ⟨lineStart, hfirst, by omega, by rw [hlast]; congr 1; omega, hinside⟩
  · intro ⟨first, hfirst, hbreaks, hlast, hinside⟩
    obtain rfl := Option.some.inj (h.lineStart_eq.symm.trans hfirst)
    have hstop := Option.some.inj (h.lineEnd_eq.symm.trans hlast)
    obtain ⟨hcount, hbegin, hend⟩ := hplace.mpr ⟨by omega, by omega, hinside⟩
    exact ⟨lineStart, lineEnd, hfirst, h.lineEnd_eq, hpositive,
      hordered, by rwa [length_splitlines], hbegin, hend⟩

/-- The two anchors of accepted evidence are at one place exactly when the line numbers are those
that are counted from the offset. -/
theorem anchors_agree_iff (contentSha256 : String → Sha256) (evidence : Evidence)
    (snapshot : Snapshot) (hrepository : snapshot.repository.isSome)
    (haccepted : validateEvidenceAnchor contentSha256 evidence snapshot = .ok ()) :
    AnchorsAgree evidence.anchor snapshot.normalizedText.toList ↔
      LinesCounted evidence.anchor snapshot.normalizedText.toList := by
  obtain ⟨lineStart, lineEnd, h⟩ := gitAnchored_of_valid hrepository haccepted
  exact h.agree_iff

def runbookText : String := "Triage runs.\nTriage runs."

def runbookHash : Sha256 :=
  { text := "4aa93c79ece88470b6f82c18daeef9909828ffd0787340933226ea066c025036" }

def runbookSha256 (text : String) : Sha256 := if text = runbookText then runbookHash else zeroHash

def runbookSnapshot : Snapshot where
  id := { text := "SNAP-RUNBOOK" }
  sourceId := { text := "SRC-RUNBOOK" }
  canonicalUri := "https://example.com/docs"
  retrievedAt := .midnight sampleDay
  normalizerVersion := "norm-1.0"
  sha256 := runbookHash
  contentType := "text/markdown"
  rawContent := runbookText
  normalizedText := runbookText
  repository := some "Example/docs"
  commitSha := some "aaaaaaaaaaaaaaaaaaaaaaaaaaaaaaaaaaaaaaaa"
  filePath := some "docs/runbook.md"

def runbookEvidence (line : ℕ) (h : 1 ≤ line) : Evidence where
  id := { text := "EV-RUNBOOK" }
  sourceId := runbookSnapshot.sourceId
  sourceClass := .p1
  maturity := .e1
  claimPurpose := .documentation
  anchor :=
    { snapshotId := runbookSnapshot.id, snapshotSha256 := runbookHash,
      normalizerVersion := "norm-1.0", documentPath := "docs/runbook.md",
      documentHeading := "Triage", quote := "Triage runs.", startOffset := 0,
      endOffset := 12, repository := runbookSnapshot.repository,
      commitSha := runbookSnapshot.commitSha,
      filePath := runbookSnapshot.filePath, lineStart := some line, lineEnd := some line,
      bounded := by simpa using ⟨by decide, by decide, h⟩
      accepted := by simp [EvidenceAnchorFields.validateShape, EvidenceAnchorFields.gitValues, runbookSnapshot] }
  publishedAt := none
  firstSeenAt := .midnight sampleDay
  retrievedAt := .midnight sampleDay
  lastSeenAt := .midnight sampleDay
  lastVerifiedAt := .midnight sampleDay

/-- The offsets are those of the first line and the line numbers those of the second one. -/
theorem repeated_line_accepted :
    runbookSnapshot.repository.isSome ∧
      validateEvidenceAnchor runbookSha256 (runbookEvidence 2 (by decide)) runbookSnapshot =
        .ok () ∧
        ¬ AnchorsAgree (runbookEvidence 2 (by decide)).anchor
          runbookSnapshot.normalizedText.toList := by
  refine ⟨rfl, by decide, ?_⟩
  intro ⟨lineStart, lineEnd, hstart, _, _, _, _, hbegin, _⟩
  obtain rfl : 2 = lineStart := Option.some.inj hstart
  exact absurd hbegin (by decide)

theorem anchors_agree_iff_first_line :
    AnchorsAgree (runbookEvidence 1 le_rfl).anchor runbookSnapshot.normalizedText.toList ↔
      LinesCounted (runbookEvidence 1 le_rfl).anchor runbookSnapshot.normalizedText.toList :=
  anchors_agree_iff runbookSha256 (runbookEvidence 1 le_rfl) runbookSnapshot rfl (by decide)

end AgenticSecurity.Evidence
