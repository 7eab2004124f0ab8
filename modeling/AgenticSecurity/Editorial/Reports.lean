import AgenticSecurity.Models
import Mathlib.Data.List.Sort

namespace AgenticSecurity.Editorial

open Models Python

structure DailyBrief where
  date : Date
  markdown : String
  confirmedChangeIds : List ChangeId
  status : DailyStatus
  deriving DecidableEq

structure WeeklyEvidencePack where
  weekEnding : Date
  markdown : String
  confirmedChangeIds : List ChangeId
  openConflictIds : List ConflictId
  freshnessAlertAssertionIds : List AssertionId
  deriving DecidableEq

/-- `"\n".join(lines) + "\n"`. -/
def joinLines (lines : List String) : String := "\n".intercalate lines ++ "\n"

def dailyStatus (confirmed : List MaterialChange) (surviving : List StructuredDiff)
    (completedCandidateIds : List DiffId) (reviewedContentAvailable : Bool) : DailyStatus :=
  if confirmed ≠ [] then .materialChanges
  else if surviving.any fun item ↦ item.id ∉ completedCandidateIds then .reviewPending
  else if surviving ≠ [] then .noConfirmedMaterialChange
  else if ¬ reviewedContentAvailable then .noReviewedContent
  else .noMaterialChange

def changeSection (change : MaterialChange) : List String :=
  ["",
    "### " ++ change.description,
    "- Decision impact: " ++ ", ".intercalate (sortedImpacts change.decisionImpacts),
    "- Assertions: " ++ ", ".intercalate (change.assertionIds.map (·.text))]

def statusSection (confirmed : List MaterialChange) : DailyStatus → List String
  | .noReviewedContent =>
    ["", "## No Reviewed Content", "",
      "The initialized ledger contains no reviewed systems or change candidates. " ++
      "This is not an observation that tracked systems remained unchanged."]
  | .noMaterialChange =>
    ["", "## No Material Change", "", "No material capability or control change observed."]
  | .noConfirmedMaterialChange =>
    ["", "## No Confirmed Material Change", "",
      "Candidates were reviewed; none were confirmed as material."]
  | .reviewPending =>
    ["", "## Review Pending", "", "Surviving change candidates await completed human review."]
  | .materialChanges => confirmed.flatMap changeSection

def buildDailyBrief (day : Date) (changes : List MaterialChange) (candidates : List StructuredDiff)
    (reviews : List ChangeReviewItem) (reviewedContentAvailable : Bool) : DailyBrief :=
  let confirmed := changes.filter (·.humanConfirmed)
  let surviving := candidates.filter (·.materialCandidate)
  let completedCandidateIds := (reviews.filter (·.status ≠ .pending)).map (·.candidateId)
  let status := dailyStatus confirmed surviving completedCandidateIds reviewedContentAvailable
  { date := day
    markdown := joinLines
      (["# Agentic Security Change Brief — " ++ day.isoformat, "", "## Material Changes"] ++
        statusSection confirmed status ++
        ["", "## Control/Autonomy Changes", "", "## Availability & Lifecycle Changes", "",
          "## Capability Changes", "", "## Research & Benchmark Changes", "",
          "## Evidence Conflicts", "", "## Why It Matters", "", "## Sources"])
    confirmedChangeIds := confirmed.map (·.id)
    status }

def alerting : Freshness → Bool
  | .stale | .revalidationRequired => true
  | .fresh | .aging => false

/-- `trendResults` are the items of the mapping with their values as text. -/
def buildWeeklyPack (weekEnding : Date) (changes : List MaterialChange)
    (conflicts : List ContradictionFlag) (freshness : List (AssertionId × Freshness))
    (trendResults : List (String × String)) (reviewedContentAvailable : Bool) :
    WeeklyEvidencePack :=
  let confirmed := changes.filter (·.humanConfirmed)
  let openConflicts := conflicts.filter (·.status = .pending)
  let alerts := (freshness.filter fun item ↦ alerting item.2).map (·.1)
  { weekEnding
    markdown := joinLines
      (["# Weekly Evidence Pack — " ++ weekEnding.isoformat, "", "## Executive Summary", ""] ++
        (if reviewedContentAvailable then []
          else ["### No Reviewed Content", "",
            "The initialized ledger contains no reviewed systems or evidence-backed " ++
            "changes. No weekly change conclusion is implied.", ""]) ++
        ["## What Changed This Week"] ++
        confirmed.map (fun item ↦ "- " ++ item.description) ++
        ["", "## Evidence Conflicts"] ++
        openConflicts.map (fun item ↦ "- " ++ item.id.text ++ ": " ++ item.rationale) ++
        ["", "## Freshness Alerts"] ++
        alerts.map (fun item ↦ "- " ++ item.text) ++
        ["", "## Trend Primitives"] ++
        (trendResults.insertionSort fun a b ↦ a.1 ≤ b.1).map
          (fun item ↦ "- " ++ item.1 ++ ": " ++ item.2) ++
        ["", "## Architecture/Control Pattern", "", "## Independent Perspective", "",
          "## What Remains Unknown", "", "## Implications", "", "## What to Watch Next", "",
          "## Methodology", "", "## Sources", "", "Interpretation sections remain human-authored."])
    confirmedChangeIds := confirmed.map (·.id)
    openConflictIds := openConflicts.map (·.id)
    freshnessAlertAssertionIds := alerts }

@[simp] theorem buildDailyBrief_ids (day : Date) (changes : List MaterialChange)
    (candidates : List StructuredDiff) (reviews : List ChangeReviewItem) (available : Bool) :
    (buildDailyBrief day changes candidates reviews available).confirmedChangeIds =
      (changes.filter (·.humanConfirmed)).map (·.id) := rfl

@[simp] theorem buildWeeklyPack_ids (weekEnding : Date) (changes : List MaterialChange)
    (conflicts : List ContradictionFlag) (freshness : List (AssertionId × Freshness))
    (trendResults : List (String × String)) (available : Bool) :
    (buildWeeklyPack weekEnding changes conflicts freshness trendResults
      available).confirmedChangeIds =
      (changes.filter (·.humanConfirmed)).map (·.id) := rfl

@[simp] theorem buildWeeklyPack_openConflictIds (weekEnding : Date) (changes : List MaterialChange)
    (conflicts : List ContradictionFlag) (freshness : List (AssertionId × Freshness))
    (trendResults : List (String × String)) (available : Bool) :
    (buildWeeklyPack weekEnding changes conflicts freshness trendResults
      available).openConflictIds =
      (conflicts.filter (·.status = .pending)).map (·.id) := rfl

theorem buildDailyBrief_materialChanges {day : Date} {changes : List MaterialChange}
    {candidates : List StructuredDiff} {reviews : List ChangeReviewItem} {available : Bool} :
    (buildDailyBrief day changes candidates reviews available).status = .materialChanges ↔
      ∃ change ∈ changes, change.humanConfirmed = true := by
  have hstatus : (buildDailyBrief day changes candidates reviews available).status =
      .materialChanges ↔
      changes.filter (·.humanConfirmed) ≠ [] := by
    dsimp only [buildDailyBrief, dailyStatus]
    split_ifs <;> simp_all
  rw [hstatus, ne_eq, List.filter_eq_nil_iff]
  simp

theorem buildDailyBrief_filter (day : Date) (changes : List MaterialChange)
    (candidates : List StructuredDiff) (reviews : List ChangeReviewItem) (available : Bool) :
    buildDailyBrief day (changes.filter (·.humanConfirmed)) candidates reviews available =
      buildDailyBrief day changes candidates reviews available := by
  simp only [buildDailyBrief, List.filter_filter, Bool.and_self]

end AgenticSecurity.Editorial
