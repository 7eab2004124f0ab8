import AgenticSecurity.Site.Build
import AgenticSecurity.Storage.ReviewHistory
import Mathlib.Algebra.GroupWithZero.Nat

namespace AgenticSecurity.Site

open Models Python Storage Editorial Library.Runs

theorem length_joinLines {lines : List String} (h : lines ≠ []) :
    (joinLines lines).length = (lines.map fun line ↦ line.length + 1).sum := by
  have hbreak : "\n".length = 1 := rfl
  induction lines with
  | nil => exact absurd rfl h
  | cons line lines ih =>
    cases lines with
    | nil => simp [joinLines, hbreak]
    | cons next rest =>
      have hrest := ih (by simp)
      unfold joinLines at hrest ⊢
      rw [String.length_append] at hrest
      rw [String.length_append, String.intercalate_cons_of_ne_nil (by simp), String.length_append,
        String.length_append, List.map_cons, List.sum_cons, ← hrest, hbreak]
      omega

theorem joinLines_insert_ne {before inserted after : List String} (hinserted : inserted ≠ [])
    (hrest : before ++ after ≠ []) :
    joinLines (before ++ (inserted ++ after)) ≠ joinLines (before ++ after) := by
  intro h
  have hlength := congrArg String.length h
  rw [length_joinLines hrest, length_joinLines (by simp [hinserted])] at hlength
  obtain ⟨line, lines, rfl⟩ := List.exists_cons_of_ne_nil hinserted
  simp only [List.map_append, List.map_cons, List.sum_append, List.sum_cons] at hlength
  omega

section Available

variable {day : Date} {changes : List MaterialChange} {candidates : List StructuredDiff}
  {reviews : List ChangeReviewItem} {conflicts : List ContradictionFlag}
  {freshness : List (AssertionId × Freshness)} {trendResults : List (String × String)}

theorem buildDailyBrief_available : (buildDailyBrief day [] [] reviews true).status ≠
    (buildDailyBrief day [] [] reviews false).status := by
  simp [buildDailyBrief, dailyStatus]

theorem buildWeeklyPack_available :
    (buildWeeklyPack day changes conflicts freshness trendResults true).markdown ≠
      (buildWeeklyPack day changes conflicts freshness trendResults false).markdown := by
  intro h
  simp only [buildWeeklyPack, List.append_assoc, List.nil_append, if_true] at h
  exact joinLines_insert_ne (by simp) (by simp) h.symm

end Available

/-- The rows of the payload are those that the pipelines would publish at the time `t`. -/
structure ReportsAgree (unicode : UnicodeData) (data : PublicationLedgerData) (t : Datetime)
    (payload : Payload) : Prop where
  dailyStatus : ∀ row ∈ payload.daily, row.status = (runDailyPipeline data t).status.value
  dailyMarkdown : ∀ row ∈ payload.daily, row.markdown = (runDailyPipeline data t).markdown
  weeklyMarkdown : ∀ row ∈ payload.weekly, ∃ pack, runWeeklyPipeline unicode data t = .ok pack ∧
    row.markdown = pack.markdown

/-- What makes the site report counts for each of the pipelines. -/
structure ReviewedForBoth (data : PublicationLedgerData) : Prop where
  daily : data.systems = [] → data.assertions = [] → data.candidates = [] →
    data.confirmedChanges = [] →
    data.latestReviewDecisions = [] → data.conflicts = []
  weekly : data.systems = [] → data.assertions = [] → data.confirmedChanges = [] →
    data.conflicts = [] →
    data.candidates = [] ∧ data.latestReviewDecisions = []

theorem DailyStatus.value_injective {a b : DailyStatus} (h : a.value = b.value) : a = b := by
  cases a <;> cases b <;> first | rfl | exact absurd h (by decide)

section Agreement

variable {unicode : UnicodeData} {cases : CaseData} {data : PublicationLedgerData} {t : Datetime}

theorem reportRows_of_content {rows : List DailyRow × List WeeklyRow}
    (h : hasReportContent data = true) (hrows : reportRows data t unicode = .ok rows) :
    ∃ trends, trendResults unicode data = .ok trends ∧ rows =
      ([{ date := t.date.isoformat
          status :=
            (buildDailyBrief t.date data.confirmedChanges data.candidates data.latestReviewDecisions
            true).status.value
          markdown :=
            (buildDailyBrief t.date data.confirmedChanges data.candidates data.latestReviewDecisions
            true).markdown }],
        [{ date := t.date.isoformat
           markdown :=
             (buildWeeklyPack t.date data.confirmedChanges data.conflicts
               (assertionFreshness data t)
            trends true).markdown }]) := by
  rw [reportRows, siteReports, if_pos h] at hrows
  obtain ⟨reports, hreports, rfl⟩ := except_map_ok.mp hrows
  obtain ⟨trends, htrends, rfl⟩ := except_map_ok.mp (except_mapError_ok.mp hreports)
  exact ⟨trends, htrends, rfl⟩

theorem reportRows_of_empty {rows : List DailyRow × List WeeklyRow}
    (h : hasReportContent data = false) (hrows : reportRows data t unicode = .ok rows) :
    rows = ([], []) := by
  rw [reportRows, siteReports, if_neg (by simp [h])] at hrows
  exact (Except.ok.inj hrows).symm

theorem runDailyPipeline_eq
    (h : ¬ (data.systems = [] ∧ data.assertions = [] ∧ data.candidates = [] ∧
    data.confirmedChanges = [] ∧ data.latestReviewDecisions = [])) :
    runDailyPipeline data t =
      buildDailyBrief t.date data.confirmedChanges data.candidates
        data.latestReviewDecisions true := by
  rw [runDailyPipeline]
  congr 1
  simp only [decide_not, Bool.or_eq_true, Bool.not_eq_true', decide_eq_false_iff_not]
  tauto

theorem runWeeklyPipeline_eq
    (h : ¬ (data.systems = [] ∧ data.assertions = [] ∧ data.confirmedChanges = [] ∧
    data.conflicts = [])) {trends : List (String × String)} (htrends : trendResults unicode data =
      .ok trends) :
    runWeeklyPipeline unicode data t =
      .ok (buildWeeklyPack t.date data.confirmedChanges data.conflicts
      (assertionFreshness data t) trends true) := by
  rw [runWeeklyPipeline, htrends]
  refine congrArg Except.ok ?_
  dsimp only
  congr 1
  simp only [decide_not, Bool.or_eq_true, Bool.not_eq_true', decide_eq_false_iff_not]
  tauto

theorem buildSiteData_reports {now : Datetime} {generatedAt : Option Datetime}
    {canonicalBase : String} {payload : Payload}
    (h : buildSiteData cases data unicode now generatedAt (some t) canonicalBase = .ok payload) :
    reportRows data t unicode = .ok (payload.daily, payload.weekly) := by
  obtain ⟨systems, -, h⟩ := except_bind_ok.mp h
  obtain ⟨reports, hreports, hpayload⟩ := except_bind_ok.mp h
  rw [← Except.ok.inj hpayload]
  exact hreports

end Agreement

/-- The site takes content for reviewed that the pipelines do not count: conflicts for the daily
brief, candidates and reviews for the weekly pack. Its reports are those of the pipelines
exactly when the ledger holds, beside these, something that the pipelines count. -/
theorem reports_agree_iff (cases : CaseData) (unicode : UnicodeData) (data : PublicationLedgerData)
    (now t : Datetime) (generatedAt : Option Datetime) (canonicalBase : String) (payload : Payload)
    (h : buildSiteData cases data unicode now generatedAt (some t) canonicalBase = .ok payload) :
    ReportsAgree unicode data t payload ↔ ReviewedForBoth data := by
  have hrows := buildSiteData_reports h
  cases hcontent : hasReportContent data with
  | false =>
    obtain ⟨hdaily, hweekly⟩ := Prod.mk.inj (reportRows_of_empty hcontent hrows)
    simp only [hasReportContent, decide_not, Bool.or_eq_false_iff, Bool.not_eq_false',
      decide_eq_true_eq] at hcontent
    constructor
    · intro _
      exact ⟨by tauto, by tauto⟩
    · intro _
      constructor <;> simp [hdaily, hweekly]
  | true =>
    obtain ⟨trends, htrends, hboth⟩ := reportRows_of_content hcontent hrows
    obtain ⟨hdaily, hweekly⟩ := Prod.mk.inj hboth
    simp only [hasReportContent, decide_not, Bool.or_eq_true, Bool.not_eq_true',
      decide_eq_false_iff_not] at hcontent
    constructor
    · intro hagree
      have hstatus := hagree.dailyStatus
      have hmarkdown := hagree.weeklyMarkdown
      rw [hdaily, List.forall_mem_singleton] at hstatus
      rw [hweekly, List.forall_mem_singleton] at hmarkdown
      constructor
      · intro hsystems hassertions hcandidates hchanges hreviews
        have hsame := DailyStatus.value_injective hstatus
        simp only [runDailyPipeline, hsystems, hassertions, hcandidates, hchanges,
          hreviews] at hsame
        exact absurd hsame buildDailyBrief_available
      · intro hsystems hassertions hchanges hconflicts
        obtain ⟨pack, hpack, hmarkdown⟩ := hmarkdown
        obtain ⟨trends', htrends', rfl⟩ := except_map_ok.mp hpack
        obtain rfl := Except.ok.inj (htrends.symm.trans htrends')
        simp only [hsystems, hassertions, hchanges, hconflicts] at hmarkdown
        exact absurd hmarkdown buildWeeklyPack_available
    · intro hreviewed
      have hdailyCounts : ¬ (data.systems = [] ∧ data.assertions = [] ∧ data.candidates = [] ∧
          data.confirmedChanges = [] ∧ data.latestReviewDecisions = []) := by
        rintro ⟨hsystems, hassertions, hcandidates, hchanges, hreviews⟩
        have hconflicts := hreviewed.daily hsystems hassertions hcandidates hchanges hreviews
        tauto
      have hweeklyCounts :
          ¬ (data.systems = [] ∧ data.assertions = [] ∧ data.confirmedChanges = [] ∧
          data.conflicts = []) := by
        rintro ⟨hsystems, hassertions, hchanges, hconflicts⟩
        obtain ⟨hcandidates, hreviews⟩ := hreviewed.weekly hsystems hassertions hchanges hconflicts
        tauto
      constructor
      · rw [hdaily, List.forall_mem_singleton, runDailyPipeline_eq hdailyCounts]
      · rw [hdaily, List.forall_mem_singleton, runDailyPipeline_eq hdailyCounts]
      · rw [hweekly, List.forall_mem_singleton]
        exact ⟨_, runWeeklyPipeline_eq hweeklyCounts htrends, rfl⟩

def candidateData : PublicationLedgerData := { candidates := [diffA] }

/-- The pack of the site leaves out that no content was reviewed. -/
theorem candidateData_weekly_differs :
    ∃ payload, buildSiteData asciiCases candidateData asciiData seedTime none (some seedTime) "" =
      .ok payload ∧
      ¬ ReportsAgree asciiData candidateData seedTime payload := by
  refine ⟨_, rfl, fun h ↦ ?_⟩
  obtain ⟨pack, hpack, hmarkdown⟩ := h.weeklyMarkdown _ List.mem_cons_self
  rw [runWeeklyPipeline] at hpack
  obtain ⟨trends, htrends, rfl⟩ := except_map_ok.mp hpack
  obtain rfl : _ = trends := Except.ok.inj htrends
  exact buildWeeklyPack_available hmarkdown

theorem reports_agree_january :
    ∃ payload, buildSiteData asciiCases januaryData asciiData seedTime none (some seedTime) "" =
      .ok payload ∧
      ReportsAgree asciiData januaryData seedTime payload := by
  refine ⟨_, rfl,
    (reports_agree_iff asciiCases asciiData januaryData seedTime seedTime none "" _ rfl).mpr ?_⟩
  have hchanges : januaryData.confirmedChanges ≠ [] := List.cons_ne_nil _ _
  exact ⟨fun _ _ _ hnone _ ↦ absurd hnone hchanges, fun _ _ hnone _ ↦ absurd hnone hchanges⟩

end AgenticSecurity.Site
