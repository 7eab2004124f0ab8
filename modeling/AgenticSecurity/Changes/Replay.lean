import AgenticSecurity.Changes.Context
import AgenticSecurity.Library.Grouping
import AgenticSecurity.Library.Patch
import Mathlib.Data.List.Sort
import Mathlib.Order.Lex

namespace AgenticSecurity.Changes

open Library Models Python

variable (unicode : UnicodeData) (sha256 : String → Sha256)

/-- The lines of a snapshot that a comparison looks at. -/
def comparedLines (snapshot : Snapshot) : Set String :=
  {line | line.toList ∈ meaningfulLines unicode snapshot.normalizedText.toList}

def linePatch (diff : StructuredDiff) : Patch String :=
  ⟨{line | line ∈ diff.added}, {line | line ∈ diff.removed}⟩

/-- The differences from each snapshot of a source to the next. -/
inductive Compared : Snapshot → List StructuredDiff → Snapshot → Prop
  | nil (snapshot : Snapshot) : Compared snapshot [] snapshot
  | cons {first next last : Snapshot} {diff : StructuredDiff} {diffs : List StructuredDiff}
      (diffId : DiffId)
      (derivativeOnly : Bool) :
    detectChange unicode sha256 first next diffId derivativeOnly = .ok diff →
      Compared next diffs last → Compared first (diff :: diffs) last

variable {unicode sha256}

theorem mem_sortedDifference {lines others : List (List Char)} {line : String} :
    line ∈ sortedDifference lines others ↔ line.toList ∈ lines ∧ line.toList ∉ others := by
  simp only [sortedDifference, sortedStrings, List.mem_map, List.mem_insertionSort, List.mem_filter,
    List.mem_eraseDups, decide_eq_true_eq]
  constructor
  · intro h
    obtain ⟨text, htext, rfl⟩ := h
    rwa [String.toList_ofList]
  · intro h
    exact ⟨line.toList, h, String.ofList_toList⟩

theorem sortedDifference_pairwise (lines others : List (List Char)) :
    (sortedDifference lines others).Pairwise fun a b ↦ a.toList < b.toList := by
  rw [sortedDifference, List.pairwise_map]
  simp only [String.toList_ofList]
  have hsorted := List.pairwise_insertionSort (· ≤ ·) (lines.eraseDups.filter (· ∉ others))
  have hnodup : (sortedStrings (lines.eraseDups.filter (· ∉ others))).Nodup :=
    (List.perm_insertionSort _ _).nodup_iff.mpr ((Grouping.nodup_eraseDups lines).filter _)
  exact (hsorted.and hnodup).imp fun h ↦ lt_of_le_of_ne h.1 h.2

theorem detectChange_ok {old new : Snapshot} {diffId : DiffId} {derivativeOnly : Bool}
    {diff : StructuredDiff}
    (h : detectChange unicode sha256 old new diffId derivativeOnly = .ok diff) :
    old.sourceId = new.sourceId ∧
      diff.added = sortedDifference (meaningfulLines unicode new.normalizedText.toList)
        (meaningfulLines unicode old.normalizedText.toList) ∧
      diff.removed = sortedDifference (meaningfulLines unicode old.normalizedText.toList)
        (meaningfulLines unicode new.normalizedText.toList) := by
  unfold detectChange at h
  split_ifs at h with hsource
  obtain rfl := Except.ok.inj h
  exact ⟨not_not.mp hsource, rfl, rfl⟩

theorem detectChange_patch {old new : Snapshot} {diffId : DiffId} {derivativeOnly : Bool}
    {diff : StructuredDiff}
    (h : detectChange unicode sha256 old new diffId derivativeOnly = .ok diff) :
    linePatch diff = Patch.between (comparedLines unicode old) (comparedLines unicode new) := by
  obtain ⟨-, hadded, hremoved⟩ := detectChange_ok h
  apply Patch.ext
  · ext line
    rw [linePatch, hadded]
    exact mem_sortedDifference
  · ext line
    rw [linePatch, hremoved]
    exact mem_sortedDifference

theorem detectChange_sorted {old new : Snapshot} {diffId : DiffId} {derivativeOnly : Bool}
    {diff : StructuredDiff}
    (h : detectChange unicode sha256 old new diffId derivativeOnly = .ok diff) :
    (diff.added.Pairwise fun a b ↦ a.toList < b.toList) ∧
      (diff.removed.Pairwise fun a b ↦ a.toList < b.toList) ∧
      ∀ line ∈ diff.added, line ∉ diff.removed := by
  obtain ⟨-, hadded, hremoved⟩ := detectChange_ok h
  rw [hadded, hremoved]
  refine ⟨sortedDifference_pairwise _ _, sortedDifference_pairwise _ _, ?_⟩
  intro line hin hout
  exact (mem_sortedDifference.mp hin).2 (mem_sortedDifference.mp hout).1

section Compared

variable {first last : Snapshot} {diffs : List StructuredDiff}

theorem Compared.log (h : Compared unicode sha256 first diffs last) :
    Patch.Log (comparedLines unicode first) (diffs.map linePatch) (comparedLines unicode last) := by
  induction h with
  | nil => exact .nil _
  | cons diffId derivativeOnly hdiff _ ih =>
    rw [List.map_cons, detectChange_patch hdiff]
    exact .cons ih

theorem Compared.sourceId (h : Compared unicode sha256 first diffs last) :
    first.sourceId = last.sourceId := by
  induction h with
  | nil => rfl
  | cons diffId derivativeOnly hdiff _ ih => exact (detectChange_ok hdiff).1.trans ih

theorem Compared.of_mem (h : Compared unicode sha256 first diffs last) {diff : StructuredDiff}
    (hdiff : diff ∈ diffs) :
    ∃ old new diffId derivativeOnly, detectChange unicode sha256 old new diffId derivativeOnly =
      .ok diff := by
  induction h with
  | nil => cases hdiff
  | cons diffId derivativeOnly hfirst _ ih =>
    rcases List.mem_cons.mp hdiff with rfl | hdiff
    · exact ⟨_, _, diffId, derivativeOnly, hfirst⟩
    · exact ih hdiff

theorem Compared.undone (h : Compared unicode sha256 first diffs last) :
    (diffs.reverse.map fun diff ↦ (linePatch diff).inverse).foldl Patch.apply
      (comparedLines unicode last) =
      comparedLines unicode first := by
  have hback := h.log.reverse.replay
  rwa [← List.map_reverse, ← List.map_reverse, List.map_map] at hback

theorem Compared.mem_iff (h : Compared unicode sha256 first diffs last) {line : String} :
    line ∈ comparedLines unicode last ↔
      (∃ earlier diff later, diffs = earlier ++ diff :: later ∧ line ∈ diff.added ∧
        ∀ d ∈ later, line ∉ d.removed) ∨
        (line ∈ comparedLines unicode first ∧ ∀ d ∈ diffs, line ∉ d.removed) := by
  rw [h.log.mem_iff]
  refine or_congr ?_ ?_
  · constructor
    · intro hadded
      obtain ⟨pre, p, post, hsplit, hp, hpost⟩ := hadded
      obtain ⟨earlier, rest, rfl, rfl, hrest⟩ := List.map_eq_append_iff.mp hsplit
      obtain ⟨diff, later, rfl, rfl, rfl⟩ := List.map_eq_cons_iff.mp hrest
      exact ⟨earlier, diff, later, rfl, hp, fun d hd ↦ hpost _ (List.mem_map_of_mem hd)⟩
    · intro hadded
      obtain ⟨earlier, diff, later, rfl, hdiff, hlater⟩ := hadded
      refine ⟨earlier.map linePatch, linePatch diff, later.map linePatch, by simp, hdiff, ?_⟩
      exact List.forall_mem_map.mpr hlater
  · rw [List.forall_mem_map]
    rfl

theorem Compared.alternates {earlier between later : List StructuredDiff}
    {diff diff' : StructuredDiff}
    (h : Compared unicode sha256 first (earlier ++ diff :: (between ++ diff' :: later)) last)
    {line : String} :
    (line ∈ diff.added → line ∈ diff'.added → ∃ d ∈ between, line ∈ d.removed) ∧
      (line ∈ diff.removed → line ∈ diff'.removed → ∃ d ∈ between, line ∈ d.added) := by
  have hlog := h.log
  rw [List.map_append] at hlog
  obtain ⟨mid, -, hrest⟩ := hlog.of_append
  rw [List.map_cons, List.map_append, List.map_cons] at hrest
  constructor
  · intro hadded hadded'
    obtain ⟨r, hr, hline⟩ := hrest.removed_between hadded hadded'
    obtain ⟨d, hd, rfl⟩ := List.mem_map.mp hr
    exact ⟨d, hd, hline⟩
  · intro hremoved hremoved'
    obtain ⟨r, hr, hline⟩ := hrest.added_between hremoved hremoved'
    obtain ⟨d, hd, rfl⟩ := List.mem_map.mp hr
    exact ⟨d, hd, hline⟩

theorem Compared.net (h : Compared unicode sha256 first diffs last) (diffId : DiffId)
    (derivativeOnly : Bool) :
    ∃ net, detectChange unicode sha256 first last diffId derivativeOnly = .ok net ∧
      Patch.apply (comparedLines unicode first) (linePatch net) = comparedLines unicode last := by
  obtain ⟨net, hnet, -⟩ := detectChange_spec unicode sha256 diffId derivativeOnly h.sourceId
  refine ⟨net, hnet, ?_⟩
  rw [detectChange_patch hnet, Patch.apply_between]

end Compared

/-- The differences of a source tell its whole history: played forward they lead from the
first snapshot to the last, played backward from the last to the first, and they say of
each line when it came and went. -/
theorem differences_replay (unicode : UnicodeData) (sha256 : String → Sha256)
    {first last : Snapshot} {diffs : List StructuredDiff}
    (h : Compared unicode sha256 first diffs last) :
    (diffs.map linePatch).foldl Patch.apply (comparedLines unicode first) =
      comparedLines unicode last ∧
    (diffs.reverse.map fun diff ↦ (linePatch diff).inverse).foldl Patch.apply
      (comparedLines unicode last) =
      comparedLines unicode first ∧
    (∀ line, line ∈ comparedLines unicode last ↔
      (∃ earlier diff later, diffs = earlier ++ diff :: later ∧ line ∈ diff.added ∧
        ∀ d ∈ later, line ∉ d.removed) ∨
        (line ∈ comparedLines unicode first ∧ ∀ d ∈ diffs, line ∉ d.removed)) ∧
    (∀ earlier diff between diff' later line, diffs = earlier ++ diff :: (between ++
      diff' :: later) →
      (line ∈ diff.added → line ∈ diff'.added → ∃ d ∈ between, line ∈ d.removed) ∧
        (line ∈ diff.removed → line ∈ diff'.removed → ∃ d ∈ between, line ∈ d.added)) ∧
    (∀ diff ∈ diffs, (diff.added.Pairwise fun a b ↦ a.toList < b.toList) ∧
      (diff.removed.Pairwise fun a b ↦ a.toList < b.toList) ∧
        ∀ line ∈ diff.added, line ∉ diff.removed) ∧
    ∀ diffId derivativeOnly, ∃ net,
    detectChange unicode sha256 first last diffId derivativeOnly = .ok net ∧
      Patch.apply (comparedLines unicode first) (linePatch net) = comparedLines unicode last := by
  refine ⟨h.log.replay, h.undone, fun line ↦ h.mem_iff, ?_, ?_, h.net⟩
  · intro earlier diff between diff' later line hsplit
    subst hsplit
    exact h.alternates
  · intro diff hdiff
    obtain ⟨old, new, diffId, derivativeOnly, hdetect⟩ := h.of_mem hdiff
    exact detectChange_sorted hdetect

def approvalOn : Snapshot := approvalSnapshot { text := "SNAP-ON" } "Approval on"

def approvalOff : Snapshot := approvalSnapshot { text := "SNAP-OFF" } "Approval off"

theorem differences_replay_approval : ∃ off on,
    detectChange asciiData (fun _ ↦ zeroHash) approvalOn approvalOff { text := "DIFF-OFF" } false =
      .ok off ∧
    detectChange asciiData (fun _ ↦ zeroHash) approvalOff approvalOn { text := "DIFF-ON" } false =
      .ok on ∧
    [linePatch off, linePatch on].foldl Patch.apply (comparedLines asciiData approvalOn) =
      comparedLines asciiData approvalOn := by
  obtain ⟨off, hoff, -⟩ :=
    detectChange_spec asciiData (fun _ ↦ zeroHash) { text := "DIFF-OFF" } false
    (show approvalOn.sourceId = approvalOff.sourceId from rfl)
  obtain ⟨on, hon, -⟩ := detectChange_spec asciiData (fun _ ↦ zeroHash) { text := "DIFF-ON" } false
    (show approvalOff.sourceId = approvalOn.sourceId from rfl)
  have hcompared : Compared asciiData (fun _ ↦ zeroHash) approvalOn [off, on] approvalOn :=
    .cons _ false hoff (.cons _ false hon (.nil _))
  exact ⟨off, on, hoff, hon, (differences_replay asciiData (fun _ ↦ zeroHash) hcompared).1⟩

end AgenticSecurity.Changes
