import AgenticSecurity.Library.Runs
import AgenticSecurity.Models
import AgenticSecurity.Python.Text

namespace AgenticSecurity.Evidence

open Library Models Python

/-- `lines[start - 1 : end]` for a `start` that is not zero. -/
def lineSlice (lines : List (List Char)) (start stop : ℕ) : List (List Char) :=
  (lines.take stop).drop (start - 1)

/-- `contentSha256` is the hash of a text's UTF-8 bytes. -/
def validateEvidenceAnchor (contentSha256 : String → Sha256) (evidence : Evidence)
    (snapshot : Snapshot) :
    Except String Unit :=
  let anchor := evidence.anchor
  let actualHash := contentSha256 snapshot.normalizedText
  let text := snapshot.normalizedText.toList
  if anchor.snapshotId ≠ snapshot.id then .error "anchor snapshot_id mismatch"
  else if snapshot.sha256 ≠ actualHash ∨ anchor.snapshotSha256 ≠ actualHash then
    .error "snapshot hash mismatch"
  else if anchor.normalizerVersion ≠ snapshot.normalizerVersion then
    .error "normalizer version mismatch"
  else if anchor.endOffset > text.length then .error "anchor offset exceeds snapshot"
  else if (text.take anchor.endOffset).drop anchor.startOffset ≠ anchor.quote.toList then
    .error "quote does not resolve at stated offsets"
  else if snapshot.repository.isSome then
    if ¬ anchor.gitValues.all id then
      .error "repository-backed snapshot requires complete git anchor provenance"
    else if anchor.repository ≠ snapshot.repository ∨ anchor.commitSha ≠ snapshot.commitSha ∨
        anchor.filePath ≠ snapshot.filePath then
      .error "git anchor provenance mismatch"
    else if join ['\n'] (lineSlice (splitlines text) (anchor.lineStart.getD 0)
      (anchor.lineEnd.getD 0)) ≠
        anchor.quote.toList then
      .error "git line anchor does not resolve"
    else .ok ()
  else if anchor.gitValues.any id then .error "git anchor provenance mismatch"
  else .ok ()

def validateEvidenceClassification (evidence : Evidence) : Except String Unit :=
  if (evidence.independenceFacets.any fun facets ↦ facets.commercialRelationship = .vendorSelf) ∧
      evidence.maturity ∈ [EvidenceMaturity.e4, .e5] then
    .error "vendor-self evidence cannot be E4/E5"
  else if evidence.derivativeOfEvidenceId.isSome ∧
  evidence.maturity ∉ [EvidenceMaturity.e0, .e1] then
    .error "derivative evidence cannot raise maturity above E1"
  else if evidence.sourceClass = .s1 ∧ evidence.maturity ∉ [EvidenceMaturity.e0, .e1] then
    .error "secondary reporting cannot exceed E1"
  else .ok ()

def validateEvidencePurpose (evidence : Evidence) (source : Source) : Except String Unit :=
  if source.role = .output ∨ source.trustClass = .self then
    .error (source.id.text ++ " is SELF/OUTPUT and cannot contribute evidence")
  else if evidence.claimPurpose ∈ source.policy.prohibitedClaimPurposes then
    .error (evidence.claimPurpose.value ++ " is prohibited for " ++ source.id.text)
  else if evidence.claimPurpose ∉ source.policy.allowedClaimPurposes then
    .error (evidence.claimPurpose.value ++ " is not allowed for " ++ source.id.text)
  else .ok ()

structure GitAccepted (anchor : EvidenceAnchor) (snapshot : Snapshot) : Prop where
  complete : anchor.gitValues.all id = true
  repository : anchor.repository = snapshot.repository
  commitSha : anchor.commitSha = snapshot.commitSha
  filePath : anchor.filePath = snapshot.filePath
  lines : join ['\n'] (lineSlice (splitlines snapshot.normalizedText.toList)
    (anchor.lineStart.getD 0)
    (anchor.lineEnd.getD 0)) = anchor.quote.toList

structure AnchorAccepted (contentSha256 : String → Sha256) (anchor : EvidenceAnchor)
    (snapshot : Snapshot) : Prop where
  snapshotId : anchor.snapshotId = snapshot.id
  ownHash : snapshot.sha256 = contentSha256 snapshot.normalizedText
  anchorHash : anchor.snapshotSha256 = contentSha256 snapshot.normalizedText
  normalizer : anchor.normalizerVersion = snapshot.normalizerVersion
  within : anchor.endOffset ≤ snapshot.normalizedText.toList.length
  quote : (snapshot.normalizedText.toList.take anchor.endOffset).drop anchor.startOffset =
    anchor.quote.toList
  git : snapshot.repository.isSome → GitAccepted anchor snapshot

theorem anchorAccepted_of_ok {contentSha256 : String → Sha256} {evidence : Evidence}
    {snapshot : Snapshot} (h : validateEvidenceAnchor contentSha256 evidence snapshot = .ok ()) :
    AnchorAccepted contentSha256 evidence.anchor snapshot := by
  obtain ⟨hid, h⟩ := Runs.except_guard_ok.mp h
  obtain ⟨hhashes, h⟩ := Runs.except_guard_ok.mp h
  obtain ⟨hown, hanchor⟩ := not_or.mp hhashes
  obtain ⟨hnormalizer, h⟩ := Runs.except_guard_ok.mp h
  obtain ⟨hoffset, h⟩ := Runs.except_guard_ok.mp h
  obtain ⟨hquote, h⟩ := Runs.except_guard_ok.mp h
  refine ⟨not_not.mp hid, not_not.mp hown, not_not.mp hanchor, not_not.mp hnormalizer,
    not_lt.mp hoffset, not_not.mp hquote, fun hrepository ↦ ?_⟩
  rw [if_pos hrepository] at h
  obtain ⟨hcomplete, h⟩ := Runs.except_guard_ok.mp h
  obtain ⟨hprovenance, h⟩ := Runs.except_guard_ok.mp h
  obtain ⟨hlines, -⟩ := Runs.except_guard_ok.mp h
  obtain ⟨hsame, hprovenance⟩ := not_or.mp hprovenance
  obtain ⟨hcommit, hfile⟩ := not_or.mp hprovenance
  exact ⟨not_not.mp hcomplete, not_not.mp hsame, not_not.mp hcommit, not_not.mp hfile,
    not_not.mp hlines⟩

structure Permits (source : Source) (purpose : ClaimPurpose) : Prop where
  notOutput : source.role ≠ .output
  notSelf : source.trustClass ≠ .self
  allowed : purpose ∈ source.policy.allowedClaimPurposes
  notProhibited : purpose ∉ source.policy.prohibitedClaimPurposes

theorem validateEvidencePurpose_ok_iff {evidence : Evidence} {source : Source} :
    validateEvidencePurpose evidence source = .ok () ↔ Permits source evidence.claimPurpose := by
  unfold validateEvidencePurpose
  constructor
  · intro h
    split_ifs at h with hself hprohibited hallowed
    rw [not_or] at hself
    exact ⟨hself.1, hself.2, hallowed, hprohibited⟩
  · rintro ⟨houtput, hself, hallowed, hprohibited⟩
    rw [if_neg (by simp [houtput, hself]), if_neg hprohibited, if_neg (not_not.mpr hallowed)]

end AgenticSecurity.Evidence
