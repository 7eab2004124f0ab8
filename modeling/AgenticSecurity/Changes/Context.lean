import AgenticSecurity.Changes.Detection

namespace AgenticSecurity.Changes

open Models Python

/-- The text with further lines at its end. -/
def appendLines (text : String) (lines : List String) : String :=
  lines.foldl (fun text line ↦ text ++ "\n" ++ line) text

variable {unicode : UnicodeData}

theorem isMeaningful_nil : isMeaningful unicode [] = false := by simp [isMeaningful, strip]

theorem meaningfulLines_newline (xs ys : List Char) :
    meaningfulLines unicode (xs ++ '\n' :: ys) =
      meaningfulLines unicode xs ++ meaningfulLines unicode ys := by
  unfold meaningfulLines
  rw [← List.map_append]
  exact congrArg (List.map strip)
    (splitlinesFrom_append (isMeaningful unicode) isMeaningful_nil [] xs ys)

theorem mem_meaningfulLines_line {line : List Char} (h : line.all fun c ↦ ¬ isLineBreak c)
    {x : List Char} (hx : x ∈ meaningfulLines unicode line) : x = strip line := by
  unfold meaningfulLines splitlines at hx
  rw [splitlinesFrom_of_noBreak h, List.nil_append] at hx
  split_ifs at hx
  · exact absurd hx List.not_mem_nil
  · obtain ⟨line', hline', rfl⟩ := List.mem_map.mp hx
    rw [List.mem_singleton.mp (List.mem_of_mem_filter hline')]

def contextLines (unicode : UnicodeData) (lines : List String) : List (List Char) :=
  lines.flatMap fun line ↦ meaningfulLines unicode line.toList

theorem meaningfulLines_appendLines (text : String) (lines : List String) :
    meaningfulLines unicode (appendLines text lines).toList =
      meaningfulLines unicode text.toList ++ contextLines unicode lines := by
  unfold appendLines contextLines
  induction lines generalizing text with
  | nil => rw [List.foldl_nil, List.flatMap_nil, List.append_nil]
  | cons line lines ih =>
    have htext : (text ++ "\n" ++ line).toList = text.toList ++ '\n' :: line.toList := by
      simp [String.toList_append]
    rw [List.foldl_cons, ih, htext, meaningfulLines_newline, List.flatMap_cons, List.append_assoc]

theorem appendLines_inj {text text' : String} (lines : List String) :
    appendLines text lines = appendLines text' lines ↔ text = text' := by
  unfold appendLines
  induction lines generalizing text text' with
  | nil => rfl
  | cons line lines ih =>
    rw [List.foldl_cons, List.foldl_cons, ih]
    simp [← String.toList_inj, String.toList_append]

theorem sortedDifference_append {lines others context : List (List Char)}
    (h : ∀ x ∈ context, x ∉ lines) :
    sortedDifference (lines ++ context) (others ++ context) = sortedDifference lines others := by
  have hcontext : ((context.removeAll lines).eraseDups).filter (· ∉ others ++ context) = [] := by
    refine List.filter_eq_nil_iff.mpr fun x hx ↦ ?_
    have hmem : x ∈ context := by
      rw [List.mem_eraseDups, List.removeAll, List.mem_filter] at hx
      exact hx.1
    simp [hmem]
  have hlines : lines.eraseDups.filter (· ∉ others ++ context) =
      lines.eraseDups.filter (· ∉ others) := by
    refine List.filter_congr fun x hx ↦ ?_
    have hnot : x ∉ context := fun hmem ↦ h x hmem (List.mem_eraseDups.mp hx)
    simp [hnot]
  unfold sortedDifference
  rw [List.eraseDups_append, List.filter_append, hcontext, List.append_nil, hlines]

theorem rules_material : ∀ rule ∈ rules, rule.2.1 ≠ .notMaterial := by decide

theorem classifyDiff_notMaterial {diff : StructuredDiff} :
    (classifyDiff unicode diff).1 = .notMaterial ↔ diff.materialCandidate = false := by
  unfold classifyDiff
  cases hmaterial : diff.materialCandidate with
  | false => simp
  | true =>
    refine iff_of_false ?_ (by simp)
    simp only [not_true_eq_false, if_false]
    split
    · exact nofun
    · split_ifs
      · exact nofun
      · exact nofun
      · split
        next hrule => exact rules_material _ (List.mem_of_find?_eq_some hrule)
        · exact nofun

theorem classifyDiff_congr {diff diff' : StructuredDiff} (hadded : diff'.added = diff.added)
    (hremoved : diff'.removed = diff.removed)
    (hmaterial : diff'.materialCandidate = diff.materialCandidate)
    (hsubtype : diff'.evidenceStatusSubtype = diff.evidenceStatusSubtype) :
    classifyDiff unicode diff' = classifyDiff unicode diff := by
  unfold classifyDiff
  rw [hadded, hremoved, hmaterial, hsubtype]

/-- What `detect_change` says of two snapshots of one source. -/
structure Detected (unicode : UnicodeData) (oldText newText : String) (derivativeOnly : Bool)
    (diff : StructuredDiff) : Prop where
  added : diff.added = sortedDifference (meaningfulLines unicode newText.toList)
    (meaningfulLines unicode oldText.toList)
  removed : diff.removed = sortedDifference (meaningfulLines unicode oldText.toList)
    (meaningfulLines unicode newText.toList)
  cosmetic : diff.cosmeticOnly = (decide (oldText = newText) ||
    !(decide (diff.added ≠ []) || decide (diff.removed ≠ [])))
  material : diff.materialCandidate =
    !(diff.cosmeticOnly || diff.paraphraseOnly || derivativeOnly)
  paraphrase : diff.paraphraseOnly = (!diff.cosmeticOnly && isParaphrase unicode
    (meaningfulLines unicode oldText.toList) (meaningfulLines unicode newText.toList))
  subtype : diff.evidenceStatusSubtype =
    if diff.materialCandidate then evidenceStatusSubtype unicode diff.added diff.removed else none

theorem detectChange_spec (unicode : UnicodeData) (sha256 : String → Sha256) {old new : Snapshot}
    (diffId : DiffId) (derivativeOnly : Bool) (h : old.sourceId = new.sourceId) :
    ∃ diff, detectChange unicode sha256 old new diffId derivativeOnly = .ok diff ∧
      Detected unicode old.normalizedText new.normalizedText derivativeOnly diff := by
  unfold detectChange
  rw [if_neg (not_not.mpr h)]
  refine ⟨_, rfl, ?_⟩
  refine ⟨by dsimp only, by dsimp only, by simp, ?_, by simp, by dsimp only⟩
  -- a difference that is not cosmetic has changed lines
  dsimp only
  generalize sortedDifference (meaningfulLines unicode new.normalizedText.toList)
    (meaningfulLines unicode old.normalizedText.toList) = added
  generalize sortedDifference (meaningfulLines unicode old.normalizedText.toList)
    (meaningfulLines unicode new.normalizedText.toList) = removed
  cases hchanged : (decide (added ≠ []) || decide (removed ≠ [])) <;> simp

theorem detectChange_references {sha256 : String → Sha256} {old new : Snapshot} {diffId : DiffId}
    {derivativeOnly : Bool} {diff : StructuredDiff}
    (h : detectChange unicode sha256 old new diffId derivativeOnly = .ok diff) :
    diff.id = diffId ∧ diff.sourceId = old.sourceId ∧ diff.oldSnapshotId = old.id ∧
    diff.newSnapshotId = new.id := by
  unfold detectChange at h
  split_ifs at h
  obtain rfl := Except.ok.inj h
  exact ⟨rfl, rfl, rfl, rfl⟩

/-- The whole-document comparison that `paraphrase_only` makes. -/
def paraphraseVerdict (unicode : UnicodeData) (oldText newText : String) : Bool :=
  isParaphrase unicode (meaningfulLines unicode oldText.toList)
    (meaningfulLines unicode newText.toList)

theorem material_eq_iff (derivative cosmetic verdict verdict' : Bool) :
    (!(cosmetic || (!cosmetic && verdict') || derivative)) =
        (!(cosmetic || (!cosmetic && verdict) || derivative)) ↔
      derivative = true ∨ cosmetic = true ∨ verdict' = verdict := by
  cases derivative <;> cases cosmetic <;> cases verdict <;> cases verdict' <;> decide

/-- New lines at the end of both snapshots leave the changed lines and
`cosmetic_only` as they are. The other verdicts stay as they are exactly when the
comparison of the whole documents comes out the same or is not asked. -/
theorem detectChange_appendLines (unicode : UnicodeData) (sha256 : String → Sha256)
    (old new old' new' : Snapshot) (lines : List String) (diffId diffId' : DiffId)
    (derivativeOnly : Bool)
    (hsource : old.sourceId = new.sourceId) (hsource' : old'.sourceId = new'.sourceId)
    (hold : old'.normalizedText = appendLines old.normalizedText lines)
    (hnew : new'.normalizedText = appendLines new.normalizedText lines)
    (hbreak : ∀ line ∈ lines, line.toList.all fun c ↦ ¬ isLineBreak c)
    (hfresh : ∀ line ∈ lines,
      strip line.toList ∉ meaningfulLines unicode old.normalizedText.toList ∧
      strip line.toList ∉ meaningfulLines unicode new.normalizedText.toList) :
    ∃ diff diff', detectChange unicode sha256 old new diffId derivativeOnly = .ok diff ∧
      detectChange unicode sha256 old' new' diffId' derivativeOnly = .ok diff' ∧
      diff'.added = diff.added ∧ diff'.removed = diff.removed ∧
      diff'.cosmeticOnly = diff.cosmeticOnly ∧
      (diff'.materialCandidate = diff.materialCandidate ↔
        derivativeOnly = true ∨ diff.cosmeticOnly = true ∨
          paraphraseVerdict unicode old'.normalizedText new'.normalizedText =
            paraphraseVerdict unicode old.normalizedText new.normalizedText) ∧
      ((diff'.materialCandidate = diff.materialCandidate ∧
          diff'.evidenceStatusSubtype = diff.evidenceStatusSubtype ∧
          classifyDiff unicode diff' = classifyDiff unicode diff) ↔
        derivativeOnly = true ∨ diff.cosmeticOnly = true ∨
          paraphraseVerdict unicode old'.normalizedText new'.normalizedText =
            paraphraseVerdict unicode old.normalizedText new.normalizedText) ∧
      (diff'.materialCandidate ≠ diff.materialCandidate →
        (classifyDiff unicode diff').1 ≠ (classifyDiff unicode diff).1) := by
  obtain ⟨diff, hdiff, hspec⟩ := detectChange_spec unicode sha256 diffId derivativeOnly hsource
  obtain ⟨diff', hdiff', hspec'⟩ := detectChange_spec unicode sha256 diffId' derivativeOnly hsource'
  have hcontext : ∀ x ∈ contextLines unicode lines,
      x ∉ meaningfulLines unicode old.normalizedText.toList ∧
      x ∉ meaningfulLines unicode new.normalizedText.toList := by
    intro x hx
    obtain ⟨line, hline, hmem⟩ := List.mem_flatMap.mp hx
    rw [mem_meaningfulLines_line (hbreak line hline) hmem]
    exact hfresh line hline
  have hadded : diff'.added = diff.added := by
    rw [hspec'.added, hspec.added, hold, hnew, meaningfulLines_appendLines,
      meaningfulLines_appendLines]
    exact sortedDifference_append fun x hx ↦ (hcontext x hx).2
  have hremoved : diff'.removed = diff.removed := by
    rw [hspec'.removed, hspec.removed, hold, hnew, meaningfulLines_appendLines,
      meaningfulLines_appendLines]
    exact sortedDifference_append fun x hx ↦ (hcontext x hx).1
  have hcosmetic : diff'.cosmeticOnly = diff.cosmeticOnly := by
    rw [hspec'.cosmetic, hspec.cosmetic, hadded, hremoved, hold, hnew]
    simp only [appendLines_inj]
  have hmaterial : diff'.materialCandidate = diff.materialCandidate ↔
      derivativeOnly = true ∨ diff.cosmeticOnly = true ∨
        paraphraseVerdict unicode old'.normalizedText new'.normalizedText =
          paraphraseVerdict unicode old.normalizedText new.normalizedText := by
    rw [hspec'.material, hspec.material, hspec'.paraphrase, hspec.paraphrase, hcosmetic]
    exact material_eq_iff _ _ _ _
  refine ⟨diff, diff', hdiff, hdiff', hadded, hremoved, hcosmetic, hmaterial, ?_,
    fun hne hclass ↦ hne ?_⟩
  · refine ⟨fun h ↦ hmaterial.mp h.1, fun h ↦ ?_⟩
    have hsame := hmaterial.mpr h
    have hsubtype : diff'.evidenceStatusSubtype = diff.evidenceStatusSubtype := by
      rw [hspec'.subtype, hspec.subtype, hsame, hadded, hremoved]
    exact ⟨hsame, hsubtype, classifyDiff_congr hadded hremoved hsame hsubtype⟩
  · have hiff := @classifyDiff_notMaterial unicode diff
    rw [← hclass, classifyDiff_notMaterial] at hiff
    cases hm : diff.materialCandidate with
    | false => exact hiff.mpr hm
    | true => exact Bool.eq_true_of_not_eq_false fun hm' ↦ absurd (hiff.mp hm') (by simp [hm])

def approvalSnapshot (id : SnapshotId) (normalizedText : String) : Snapshot where
  id := id
  sourceId := { text := "SRC-POLICY" }
  canonicalUri := "https://vendor.example/"
  retrievedAt := .midnight sampleDay
  normalizerVersion := "norm-1.0"
  sha256 := zeroHash
  contentType := "text/html"
  rawContent := normalizedText
  normalizedText := normalizedText
  accepted := rfl

def approvalDiff (before after : String) : Except String StructuredDiff :=
  detectChange asciiData (fun _ ↦ zeroHash) (approvalSnapshot { text := "SNAP-1" } before)
    (approvalSnapshot { text := "SNAP-2" } after) { text := "DIFF-1" } false

theorem introduction_hides_approval :
    (approvalDiff "Approval on" "Approval off").toOption.map
      (fun diff ↦ (diff.added, diff.removed, diff.materialCandidate,
        (classifyDiff asciiData diff).1)) =
      some (["Approval off"], ["Approval on"], true, .approvalChange) ∧
    (approvalDiff (appendLines "Approval on" ["Introduction"])
        (appendLines "Approval off" ["Introduction"])).toOption.map
      (fun diff ↦ (diff.added, diff.removed, diff.materialCandidate,
        (classifyDiff asciiData diff).1)) =
      some (["Approval off"], ["Approval on"], false, .notMaterial) := by
  decide +kernel

theorem detectChange_appendLines_introduction :
    ∃ diff diff', approvalDiff "Approval on" "Approval off" = .ok diff ∧
      approvalDiff "Approval on\nIntroduction" "Approval off\nIntroduction" = .ok diff' ∧
      diff'.added = diff.added ∧ diff'.removed = diff.removed := by
  obtain ⟨diff, diff', hdiff, hdiff', hadded, hremoved, -⟩ :=
    detectChange_appendLines asciiData (fun _ ↦ zeroHash)
      (approvalSnapshot { text := "SNAP-1" } "Approval on")
      (approvalSnapshot { text := "SNAP-2" } "Approval off")
      (approvalSnapshot { text := "SNAP-1" } "Approval on\nIntroduction")
      (approvalSnapshot { text := "SNAP-2" } "Approval off\nIntroduction") ["Introduction"]
      { text := "DIFF-1" } { text := "DIFF-1" } false rfl rfl (by decide) (by decide) (by decide)
      (by decide)
  exact ⟨diff, diff', hdiff, hdiff', hadded, hremoved⟩

end AgenticSecurity.Changes
