import AgenticSecurity.Derivations
import AgenticSecurity.Editorial.Reports
import AgenticSecurity.Python.Dict
import AgenticSecurity.Python.Text
import AgenticSecurity.Storage.ReadModels

namespace AgenticSecurity.Editorial

open Library Models Python Derivations Storage Runs

/-- The brief that `run_daily_pipeline` builds at the time `generatedAt`. -/
def runDailyPipeline (data : PublicationLedgerData) (generatedAt : Datetime) : DailyBrief :=
  let reviewedContentAvailable := data.systems ≠ [] || data.assertions ≠ [] ||
    data.candidates ≠ [] ||
    data.confirmedChanges ≠ [] || data.latestReviewDecisions ≠ []
  buildDailyBrief generatedAt.date data.confirmedChanges data.candidates data.latestReviewDecisions
    reviewedContentAvailable

def assertionFreshness (data : PublicationLedgerData) (asOf : Datetime) :
    List (AssertionId × Freshness) :=
  dictOf (data.assertions.map fun item ↦ (item.id, deriveFreshness item.lastVerifiedAt asOf))

def trendResults (unicode : UnicodeData) (data : PublicationLedgerData) :
    Except String (List (String × String)) :=
  (previewToGaVelocity data.lifecycleEvents).map
    fun days ↦ [("preview_to_ga_days", strDict unicode days)]

/-- The pack that `run_weekly_pipeline` builds at the time `generatedAt`. -/
def runWeeklyPipeline (unicode : UnicodeData) (data : PublicationLedgerData)
    (generatedAt : Datetime) :
    Except String WeeklyEvidencePack :=
  let reviewedContentAvailable := data.systems ≠ [] || data.assertions ≠ [] ||
    data.confirmedChanges ≠ [] || data.conflicts ≠ []
  (trendResults unicode data).map fun trends ↦
    buildWeeklyPack generatedAt.date data.confirmedChanges data.conflicts
      (assertionFreshness data generatedAt) trends reviewedContentAvailable

def hasReportContent (data : PublicationLedgerData) : Bool :=
  data.systems ≠ [] || data.assertions ≠ [] || data.candidates ≠ [] || data.confirmedChanges ≠ [] ||
    data.conflicts ≠ [] || data.latestReviewDecisions ≠ []

/-- The reports from which `build_site_data` takes its daily and weekly rows. -/
def siteReports (unicode : UnicodeData) (data : PublicationLedgerData) (semanticAsOf : Datetime) :
    Except String (Option (DailyBrief × WeeklyEvidencePack)) :=
  if hasReportContent data then
    (trendResults unicode data).map fun trends ↦
      some
        (buildDailyBrief semanticAsOf.date data.confirmedChanges data.candidates
          data.latestReviewDecisions true,
        buildWeeklyPack semanticAsOf.date data.confirmedChanges data.conflicts
          (assertionFreshness data semanticAsOf) trends true)
  else .ok none

/-- The change was confirmed on the UTC day `day`. -/
def confirmedOn (day : Date) (change : MaterialChange) : Bool :=
  change.confirmedAt.any fun t ↦ t.utcDay = day.toOrdinal

/-- The change was confirmed on one of the seven UTC days that end with `weekEnding`. -/
def confirmedInWeek (weekEnding : Date) (change : MaterialChange) : Bool :=
  change.confirmedAt.any fun t ↦
    weekEnding.toOrdinal - 6 ≤ t.utcDay && t.utcDay ≤ weekEnding.toOrdinal

def confirmedDuring (period : MaterialChange → Bool) (changes : List MaterialChange) :
    List MaterialChange := changes.filter fun c ↦ c.humanConfirmed && period c

/-- The brief reports its own day. -/
structure ReportsDay (data : PublicationLedgerData) (day : Date) (brief : DailyBrief) : Prop where
  date : brief.date = day
  changes : brief.confirmedChangeIds =
    (confirmedDuring (confirmedOn day) data.confirmedChanges).map (·.id)
  status : brief.status = .materialChanges →
    ∃ c ∈ data.confirmedChanges, c.humanConfirmed = true ∧ confirmedOn day c = true

/-- The pack reports its own week, in its ids and in the section under its heading. -/
structure ReportsWeek (data : PublicationLedgerData) (weekEnding : Date)
    (pack : WeeklyEvidencePack) :
    Prop where
  date : pack.weekEnding = weekEnding
  changes : pack.confirmedChangeIds =
    (confirmedDuring (confirmedInWeek weekEnding) data.confirmedChanges).map (·.id)
  listed : ∃ before after, pack.markdown = joinLines (before ++ ["## What Changed This Week"] ++
    (confirmedDuring (confirmedInWeek weekEnding) data.confirmedChanges).map
      (fun c ↦ "- " ++ c.description) ++ ["", "## Evidence Conflicts"] ++ after)

theorem confirmedDuring_eq {period : MaterialChange → Bool} {changes : List MaterialChange}
    (h : ∀ c ∈ changes, c.humanConfirmed = true → period c = true) :
    confirmedDuring period changes = changes.filter (·.humanConfirmed) := by
  refine List.filter_congr fun c hc ↦ ?_
  cases hhuman : c.humanConfirmed with
  | false => rfl
  | true => rw [Bool.true_and, h c hc hhuman]

theorem confirmedDuring_eq_iff {period : MaterialChange → Bool} {changes : List MaterialChange} :
    (changes.filter (·.humanConfirmed)).map (·.id) = (confirmedDuring period changes).map (·.id) ↔
      ∀ c ∈ changes, c.humanConfirmed = true → period c = true := by
  refine ⟨fun h c hc hhuman ↦ ?_, fun h ↦ by rw [confirmedDuring_eq h]⟩
  have hsplit : confirmedDuring period changes =
      (changes.filter (·.humanConfirmed)).filter period := by
    simp only [confirmedDuring, List.filter_filter, Bool.and_comm]
  -- the filtered list is as long as the whole one, so the filter drops nothing
  have hlength := congrArg List.length h
  rw [List.length_map, List.length_map, hsplit, eq_comm,
    List.length_filter_eq_length_iff] at hlength
  exact hlength c (List.mem_filter.mpr ⟨hc, hhuman⟩)

theorem reportsDay_iff {data : PublicationLedgerData} {day : Date} {available : Bool} :
    ReportsDay data day (buildDailyBrief day data.confirmedChanges data.candidates
        data.latestReviewDecisions available) ↔
      ∀ c ∈ data.confirmedChanges, c.humanConfirmed = true → confirmedOn day c = true := by
  refine ⟨fun h ↦ confirmedDuring_eq_iff.mp h.changes,
    fun h ↦ ⟨rfl, confirmedDuring_eq_iff.mpr h, fun hstatus ↦ ?_⟩⟩
  obtain ⟨c, hc, hhuman⟩ := buildDailyBrief_materialChanges.mp hstatus
  exact ⟨c, hc, hhuman, h c hc hhuman⟩

theorem reportsWeek_iff {data : PublicationLedgerData} {weekEnding : Date}
    {freshness : List (AssertionId × Freshness)} {trends : List (String × String)}
    {available : Bool} :
    ReportsWeek data weekEnding (buildWeeklyPack weekEnding data.confirmedChanges data.conflicts
        freshness trends available) ↔
      ∀ c ∈ data.confirmedChanges, c.humanConfirmed = true →
        confirmedInWeek weekEnding c = true := by
  refine ⟨fun h ↦ confirmedDuring_eq_iff.mp h.changes,
    fun h ↦ ⟨rfl, confirmedDuring_eq_iff.mpr h, ?_⟩⟩
  rw [confirmedDuring_eq h]
  simp only [buildWeeklyPack, List.append_assoc]
  exact ⟨_ ++ _, _, by simp only [List.append_assoc]; rfl⟩

theorem buildDailyBrief_insert_iff {day : Date} {before after : List MaterialChange}
    {change : MaterialChange} {candidates : List StructuredDiff} {reviews : List ChangeReviewItem}
    {available : Bool} :
    buildDailyBrief day (before ++ change :: after) candidates reviews available =
        buildDailyBrief day (before ++ after) candidates reviews available ↔
      change.humanConfirmed = false := by
  constructor
  · intro h
    have hids := congrArg (List.length ∘ DailyBrief.confirmedChangeIds) h
    cases hhuman : change.humanConfirmed with
    | false => rfl
    | true => simp [hhuman] at hids
  · intro h
    rw [← buildDailyBrief_filter day (before ++ change :: after),
      ← buildDailyBrief_filter day (before ++ after)]
    simp [h]

/-- The builders take every human-confirmed change of the ledger. So a report is
about its own period exactly when the ledger holds no other, and a further
confirmed change shows in every brief, whatever the brief's day. -/
theorem reports_own_period_iff (unicode : UnicodeData) (data : PublicationLedgerData)
    (t : Datetime) :
    (ReportsDay data t.date (runDailyPipeline data t) ↔
      ∀ c ∈ data.confirmedChanges, c.humanConfirmed = true → confirmedOn t.date c = true) ∧
    (∀ pack, runWeeklyPipeline unicode data t = .ok pack → (ReportsWeek data t.date pack ↔
      ∀ c ∈ data.confirmedChanges, c.humanConfirmed = true → confirmedInWeek t.date c = true)) ∧
    (∀ daily weekly, siteReports unicode data t = .ok (some (daily, weekly)) →
      (ReportsDay data t.date daily ↔
        ∀ c ∈ data.confirmedChanges, c.humanConfirmed = true → confirmedOn t.date c = true) ∧
      (ReportsWeek data t.date weekly ↔
        ∀ c ∈ data.confirmedChanges, c.humanConfirmed = true → confirmedInWeek t.date c = true)) ∧
    ∀ before after change available, data.confirmedChanges = before ++ after →
      (buildDailyBrief t.date (before ++ change :: after) data.candidates data.latestReviewDecisions
          available =
        buildDailyBrief t.date data.confirmedChanges data.candidates data.latestReviewDecisions
          available ↔
      change.humanConfirmed = false) := by
  refine ⟨reportsDay_iff, fun pack h ↦ ?_, fun daily weekly h ↦ ?_,
    fun before after change available h ↦ ?_⟩
  · obtain ⟨trends, -, rfl⟩ := except_map_ok.mp h
    exact reportsWeek_iff
  · unfold siteReports at h
    split_ifs at h
    · obtain ⟨trends, -, hreports⟩ := except_map_ok.mp h
      obtain ⟨rfl, rfl⟩ := Prod.mk.inj (Option.some.inj hreports)
      exact ⟨reportsDay_iff, reportsWeek_iff⟩
    · cases Except.ok.inj h
  · rw [h]
    exact buildDailyBrief_insert_iff

def januaryTime : Datetime := .midnight sampleDay

def januaryChange : MaterialChange where
  id := { text := "CHANGE-JANUARY" }
  assertionIds := []
  description := "Agent gained a deployment tool."
  dimensions := [.capability]
  decisionImpacts := {.deployment}
  humanConfirmed := true
  confirmedBy := some "Reviewer"
  confirmedAt := some januaryTime

def januaryData : PublicationLedgerData := { confirmedChanges := [januaryChange] }

def marchTime : Datetime := .midnight ⟨2026, 3, 1, by decide⟩

theorem january_change_in_march_reports :
    (runDailyPipeline januaryData marchTime).status = .materialChanges ∧
    ¬ ReportsDay januaryData marchTime.date (runDailyPipeline januaryData marchTime) ∧
    ∃ pack, runWeeklyPipeline asciiData januaryData marchTime = .ok pack ∧
      ¬ ReportsWeek januaryData marchTime.date pack :=
  ⟨by decide, fun h ↦ absurd h.changes (by decide), _, rfl, fun h ↦ absurd h.changes (by decide)⟩

theorem reports_own_period_iff_january :
    ReportsDay januaryData januaryTime.date (runDailyPipeline januaryData januaryTime) ∧
    ∃ daily weekly, siteReports asciiData januaryData januaryTime = .ok (some (daily, weekly)) ∧
      ReportsWeek januaryData januaryTime.date weekly := by
  have h := reports_own_period_iff asciiData januaryData januaryTime
  exact ⟨h.1.mpr (by decide), _, _, rfl, (h.2.2.1 _ _ rfl).2.mpr (by decide)⟩

end AgenticSecurity.Editorial
