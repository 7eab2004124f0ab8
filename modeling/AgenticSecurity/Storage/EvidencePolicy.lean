import AgenticSecurity.Storage.Repositories

namespace AgenticSecurity.Storage

open Library Models Python Runs Evidence

/-- The calls that write sources, snapshots and evidence. -/
inductive EvidenceCall
  | addSource (source : Source)
  | syncSource (source : Source)
  | addSnapshot (snapshot : Snapshot)
  | addEvidence (evidence : Evidence)
  deriving DecidableEq

def Ledger.record (contentSha256 : String → Sha256) (ledger : Ledger) :
    EvidenceCall → Except LedgerError Ledger
  | .addSource source => ledger.addSource source
  | .syncSource source => ledger.syncSource source
  | .addSnapshot snapshot => ledger.addSnapshot snapshot
  | .addEvidence evidence => ledger.addEvidence contentSha256 evidence

variable (contentSha256 : String → Sha256)

/-- The ledger after the calls, of which some may have been refused. -/
def recorded (calls : List EvidenceCall) : Ledger := attempts (Ledger.record contentSha256) {} calls

def EvidencePermitted (ledger : Ledger) : Prop :=
  ∀ row ∈ ledger.evidence, ∃ stored, ledger.storedSource row.sourceId = some stored ∧
    Permits stored row.claimPurpose

def AcceptsCall (calls : List EvidenceCall) (call : EvidenceCall) : Prop :=
  ∃ ledger, (recorded contentSha256 calls).record contentSha256 call = .ok ledger

/-- The accepted call that inserted a row, the source that permitted it, and what is stored of this
source now: itself, or what a later accepted call has made of it. -/
def PermittedAtInsertion (calls : List EvidenceCall) (row : EvidenceRow) : Prop :=
  ∃ before evidence after source stored, calls = before ++ .addEvidence evidence :: after ∧
    AcceptsCall contentSha256 before (.addEvidence evidence) ∧ row = evidenceRow evidence ∧
    (recorded contentSha256 before).storedSource row.sourceId = some source ∧
    Permits source row.claimPurpose ∧
    (recorded contentSha256 calls).storedSource row.sourceId = some stored ∧
    (stored = source ∨ ∃ middle last, after = middle ++ .syncSource stored :: last ∧
      AcceptsCall contentSha256 (before ++ .addEvidence evidence :: middle) (.syncSource stored))

variable {contentSha256}

theorem recorded_snoc (calls : List EvidenceCall) (call : EvidenceCall) :
    recorded contentSha256 (calls ++ [call]) =
      attempt (Ledger.record contentSha256) (recorded contentSha256 calls) call :=
  attempts_snoc _ _ _ _

theorem record_evidence {ledger ledger' : Ledger} {call : EvidenceCall}
    (h : ledger.record contentSha256 call = .ok ledger') :
    ledger'.evidence = ledger.evidence ∨
      ∃ evidence source, call = .addEvidence evidence ∧
        ledger'.evidence = ledger.evidence ++ [evidenceRow evidence] ∧
        ledger'.storedSource evidence.sourceId = some source ∧
        ledger.storedSource evidence.sourceId = some source ∧
        Permits source evidence.claimPurpose := by
  cases call with
  | addSource source =>
    obtain ⟨-, rfl⟩ := addSource_ok h
    exact .inl rfl
  | syncSource source => exact .inl (syncSource_evidence h)
  | addSnapshot snapshot =>
    obtain rfl := addSnapshot_ok h
    exact .inl rfl
  | addEvidence evidence =>
    obtain ⟨source, _, hsource, -, -, -, -, hpermits, -, -, rfl⟩ := addEvidence_ok h
    exact .inr ⟨evidence, source, rfl, rfl, hsource, hsource, hpermits⟩

theorem record_storedSource {ledger ledger' : Ledger} {call : EvidenceCall}
    (h : ledger.record contentSha256 call = .ok ledger') {id : SourceId} {source : Source}
    (hsource : ledger.storedSource id = some source) :
    ledger'.storedSource id = some source ∨
      ∃ synced, call = .syncSource synced ∧ ledger'.storedSource id = some synced := by
  cases call with
  | addSource other =>
    left
    rw [addSource_storedSource h, if_neg, hsource]
    rintro rfl
    obtain ⟨row, hrow, -⟩ := Option.map_eq_some_iff.mp hsource
    have hid : row.id = other.id := by simpa using List.find?_some hrow
    exact (addSource_ok h).1 (hid ▸ List.mem_map_of_mem (List.mem_of_find?_eq_some hrow))
  | syncSource synced =>
    by_cases hid : id = synced.id
    · exact .inr ⟨synced, rfl, by rw [syncSource_storedSource h, if_pos hid]⟩
    · exact .inl (by rw [syncSource_storedSource h, if_neg hid, hsource])
  | addSnapshot snapshot =>
    obtain rfl := addSnapshot_ok h
    exact .inl hsource
  | addEvidence evidence =>
    obtain ⟨_, _, -, -, -, -, -, -, -, -, rfl⟩ := addEvidence_ok h
    exact .inl hsource

theorem PermittedAtInsertion.snoc {calls : List EvidenceCall} {row : EvidenceRow}
    (call : EvidenceCall) (h : PermittedAtInsertion contentSha256 calls row) :
    PermittedAtInsertion contentSha256 (calls ++ [call]) row := by
  obtain ⟨before, evidence, after, source, stored, rfl, haccepted, hrow, hsource, hpermits,
      hstored, hlast⟩ := h
  have hcalls : (before ++ EvidenceCall.addEvidence evidence :: after) ++ [call] =
      before ++ .addEvidence evidence :: (after ++ [call]) := by simp
  have hkeep (hsame : (recorded contentSha256
      ((before ++ .addEvidence evidence :: after) ++ [call])).storedSource row.sourceId =
        some stored) :
      PermittedAtInsertion contentSha256 ((before ++ .addEvidence evidence :: after) ++
        [call]) row := by
    refine ⟨before, evidence, after ++ [call], source, stored, hcalls, haccepted, hrow, hsource,
      hpermits, hsame, hlast.imp_right ?_⟩
    intro ⟨middle, last, hafter, hsynced⟩
    exact ⟨middle, last ++ [call], by rw [hafter, List.append_assoc, List.cons_append], hsynced⟩
  cases hop :
    (recorded contentSha256 (before ++ .addEvidence evidence :: after)).record
    contentSha256 call with
  | error e =>
    refine hkeep ?_
    rw [recorded_snoc, attempt_error hop]
    exact hstored
  | ok ledger' =>
    have hledger : recorded contentSha256 ((before ++ .addEvidence evidence :: after) ++ [call]) =
        ledger' := by
      rw [recorded_snoc, attempt_ok hop]
    rcases record_storedSource hop hstored with hsame | ⟨synced, rfl, hsynced⟩
    · exact hkeep (by rw [hledger, hsame])
    · exact ⟨before, evidence, after ++ [.syncSource synced], source, synced, hcalls, haccepted,
        hrow, hsource, hpermits, by rw [hledger, hsynced], .inr ⟨after, [], rfl, ledger', hop⟩⟩

/-- Each row was permitted by the source as it was stored when the row was inserted. It
still is, unless that source has been synchronized since. -/
theorem evidence_permitted_at_insertion (contentSha256 : String → Sha256)
    (calls : List EvidenceCall) :
    ∀ row ∈ (recorded contentSha256 calls).evidence,
    PermittedAtInsertion contentSha256 calls row := by
  induction calls using List.reverseRecOn with
  | nil => exact fun row hrow ↦ absurd hrow List.not_mem_nil
  | append_singleton calls call ih =>
    intro row hrow
    cases hop : (recorded contentSha256 calls).record contentSha256 call with
    | error e =>
      rw [recorded_snoc, attempt_error hop] at hrow
      exact (ih row hrow).snoc call
    | ok ledger' =>
      have hledger : recorded contentSha256 (calls ++ [call]) = ledger' := by
        rw [recorded_snoc, attempt_ok hop]
      rw [hledger] at hrow
      rcases record_evidence hop with hsame | ⟨evidence, source, rfl, hrows, hstored,
        hsource, hpermits⟩
      · exact (ih row (hsame ▸ hrow)).snoc call
      · rw [hrows] at hrow
        rcases List.mem_append.mp hrow with hold | hnew
        · exact (ih row hold).snoc _
        · obtain rfl := List.mem_singleton.mp hnew
          exact ⟨calls, evidence, [], source, source, rfl, ⟨ledger', hop⟩, rfl, hsource, hpermits,
            by rw [hledger]; exact hstored, .inl rfl⟩

def triageText : String := "The agent triages alerts."

def triageHash : Sha256 :=
  { text := "4b617f552548ddf88148b42ddfe0b7c0839e1ad01544262c772b425834042e24" }

def triageSha256 (text : String) : Sha256 := if text = triageText then triageHash else zeroHash

def guideSource (purposes : Finset ClaimPurpose) : Source where
  id := { text := "SRC-GUIDE" }
  publisher := "Publisher"
  name := "Guide"
  kind := .fixture
  domains := []
  trustClass := .official
  status := .approved
  enabled := true
  policy :=
    { allowedClaimTypes := {.capability}, allowedClaimPurposes := purposes,
      crawlFrequency := "weekly" }
  pinnedAt := sampleDay
  fallbackNote := ""
  accepted := rfl

def guideSnapshot : Snapshot where
  id := { text := "SNAP-GUIDE" }
  sourceId := (guideSource ∅).id
  canonicalUri := "https://example.com/guide"
  retrievedAt := .midnight sampleDay
  normalizerVersion := "norm-1.0"
  sha256 := triageHash
  contentType := "text/html"
  rawContent := triageText
  normalizedText := triageText

def guideEvidence : Evidence where
  id := { text := "EV-GUIDE" }
  sourceId := (guideSource ∅).id
  sourceClass := .p1
  maturity := .e1
  claimPurpose := .documentation
  anchor :=
    { snapshotId := guideSnapshot.id, snapshotSha256 := triageHash, normalizerVersion := "norm-1.0",
      documentPath := "guide", documentHeading := "Triage", quote := triageText, startOffset := 0,
      endOffset := 25 }
  publishedAt := none
  firstSeenAt := .midnight sampleDay
  retrievedAt := .midnight sampleDay
  lastSeenAt := .midnight sampleDay
  lastVerifiedAt := .midnight sampleDay

def withdrawingCalls : List EvidenceCall :=
  [ .addSource (guideSource {.documentation}), .addSnapshot guideSnapshot,
    .addEvidence guideEvidence, .syncSource (guideSource {.demonstration}) ]

theorem evidence_permitted_at_insertion_withdrawn :
    PermittedAtInsertion triageSha256 withdrawingCalls (evidenceRow guideEvidence) :=
  evidence_permitted_at_insertion triageSha256 withdrawingCalls _ (by decide)

theorem withdrawn_purpose_stays : ¬ EvidencePermitted (recorded triageSha256 withdrawingCalls) := by
  intro h
  have hrow : evidenceRow guideEvidence ∈ (recorded triageSha256 withdrawingCalls).evidence := by
    decide
  obtain ⟨stored, hstored, hpermits⟩ := h _ hrow
  have hnarrow : (recorded triageSha256 withdrawingCalls).storedSource guideEvidence.sourceId =
      some (guideSource {.demonstration}) := by decide
  obtain rfl : stored = guideSource {.demonstration} := Option.some.inj (hstored.symm.trans hnarrow)
  exact absurd hpermits.allowed (by decide)

end AgenticSecurity.Storage
