import AgenticSecurity.Collection.Service
import Mathlib.Data.Set.Function

namespace AgenticSecurity.Collection

open Library Models Python Storage FirstSeen

/-- A sequence of runs, each on the state that the one before it left. -/
def collectAll (functions : ContentFunctions) (maxSourcesPerRun : ℕ) (state : CollectionState)
    (runs : List (List Page)) : Except CollectionError CollectionState :=
  runs.foldlM (fun state pages ↦ (collect functions maxSourcesPerRun state pages).map Prod.fst)
    state

/-- What the runs fetched for one source, in order. -/
def fetchedOf (functions : ContentFunctions) (source : SourceId) (runs : List (List Page)) :
    List Snapshot :=
  (runs.flatten.map (buildSnapshot functions)).filter fun r ↦ r.sourceId = source

def CollectionState.snapshotsOf (state : CollectionState) (source : SourceId) : List Snapshot :=
  state.ledger.snapshots.filter fun r ↦ r.sourceId = source

theorem persistSnapshot_snapshots {progress progress' : Progress} {snapshot : Snapshot}
    (h : persistSnapshot progress snapshot = .ok progress') :
    progress'.state.ledger.snapshots =
      addNew duplicateKey progress.state.ledger.snapshots snapshot := by
  unfold persistSnapshot at h
  unfold addNew
  split_ifs at h with hseen
  · rw [if_pos hseen, ← Except.ok.inj h]
  · obtain ⟨ledger, hadd, rfl⟩ := Runs.except_map_ok.mp h
    rw [if_neg hseen]
    exact addSnapshot_snapshots hadd

theorem foldlM_sync_snapshots {ledger ledger' : Ledger} {sources : List Source}
    (h : sources.foldlM Ledger.syncSource ledger = .ok ledger') :
    ledger'.snapshots = ledger.snapshots := by
  have hview := Runs.foldlM_view (f := fun snapshots _ ↦ snapshots) Ledger.snapshots
    (fun _ _ _ hsync ↦ syncSource_snapshots hsync) h
  rwa [List.foldl_const, Function.iterate_fixed rfl] at hview

theorem collect_snapshots {functions : ContentFunctions} {maxSourcesPerRun : ℕ}
    {state state' : CollectionState} {pages : List Page} {result : CollectionResult}
    (h : collect functions maxSourcesPerRun state pages = .ok (state', result)) :
    state'.ledger.snapshots =
      (pages.map (buildSnapshot functions)).foldl (addNew duplicateKey) state.ledger.snapshots := by
  obtain ⟨_, -, hpersist⟩ := Runs.except_bind_ok.mp h
  obtain ⟨ledger, hsync, hrest⟩ := Runs.except_bind_ok.mp hpersist
  obtain ⟨progress, hloop, hverified⟩ := Runs.except_bind_ok.mp hrest
  obtain ⟨_, -, hreturn⟩ := Runs.except_bind_ok.mp hverified
  have hsnapshots := Runs.foldlM_view (fun progress ↦ progress.state.ledger.snapshots)
    (fun _ _ _ hpersist ↦ persistSnapshot_snapshots hpersist) (Runs.except_mapError_ok.mp hloop)
  have hledger := foldlM_sync_snapshots (Runs.except_mapError_ok.mp hsync)
  rw [List.map_map] at hsnapshots
  rw [← (Prod.mk.inj (Except.ok.inj hreturn)).1, hsnapshots]
  exact congrArg (List.foldl _ · _) hledger

theorem collectAll_snapshots {functions : ContentFunctions} {maxSourcesPerRun : ℕ}
    {start final : CollectionState} {runs : List (List Page)}
    (h : collectAll functions maxSourcesPerRun start runs = .ok final) :
    final.ledger.snapshots =
      (runs.flatten.map (buildSnapshot functions)).foldl
        (addNew duplicateKey) start.ledger.snapshots := by
  have hone : ∀ state pages state',
      (collect functions maxSourcesPerRun state pages).map Prod.fst = .ok state' →
      state'.ledger.snapshots =
        (pages.map (buildSnapshot functions)).foldl
          (addNew duplicateKey) state.ledger.snapshots := by
    intro state pages state' hmap
    obtain ⟨⟨_, result⟩, hcollect, rfl⟩ := Runs.except_map_ok.mp hmap
    exact collect_snapshots hcollect
  have hview := Runs.foldlM_view (f := fun snapshots pages ↦
      (pages.map (buildSnapshot functions)).foldl (addNew duplicateKey) snapshots)
    (fun state ↦ state.ledger.snapshots) hone h
  rw [hview, List.map_flatten, List.foldl_flatten, List.foldl_map]

theorem snapshotsOf_eq {functions : ContentFunctions} {maxSourcesPerRun : ℕ}
    {start final : CollectionState} {runs : List (List Page)} {source : SourceId}
    (h : collectAll functions maxSourcesPerRun start runs = .ok final)
    (hstart : start.snapshotsOf source = []) :
    final.snapshotsOf source = firstSeen (·.sha256) (fetchedOf functions source runs) := by
  rw [CollectionState.snapshotsOf, collectAll_snapshots h]
  unfold duplicateKey
  rw [filter_foldl_addNew]
  unfold CollectionState.snapshotsOf at hstart
  rw [hstart]
  rfl

theorem fetchedOf_sha256 {functions : ContentFunctions} {source : SourceId}
    {runs : List (List Page)} {r : Snapshot} (hr : r ∈ fetchedOf functions source runs) :
    r.sha256 = functions.contentSha256 r.normalizedText := by
  obtain ⟨page, -, rfl⟩ := List.mem_map.mp (List.mem_of_mem_filter hr)
  rfl

/-- The stored snapshots of a source are the first fetches of its contents. So a
content that was seen at any earlier time adds no row, and the most recent row has
the content that was new last. -/
theorem collected_contents_first_seen (functions : ContentFunctions) (maxSourcesPerRun : ℕ)
    (source : SourceId) (start final : CollectionState) (runs : List (List Page))
    (hrun : collectAll functions maxSourcesPerRun start runs = .ok final)
    (hstart : start.snapshotsOf source = [])
    (hcollision : Set.InjOn functions.contentSha256
      {c | c ∈ (fetchedOf functions source runs).map (·.normalizedText)})
    (htimes : (fetchedOf functions source runs).Pairwise fun a b ↦
      a.retrievedAt.instant < b.retrievedAt.instant) :
    final.snapshotsOf source = firstSeen (·.normalizedText) (fetchedOf functions source runs) ∧
    (∀ last, (final.snapshotsOf source).getLast? = some last →
      ∀ r ∈ final.snapshotsOf source, r ≠ last → r.retrievedAt.instant < last.retrievedAt.instant) ∧
    (∀ r ∈ fetchedOf functions source runs,
      r.normalizedText ∈ (final.snapshotsOf source).map (·.normalizedText)) ∧
    ∀ before r after, fetchedOf functions source runs = before ++ r :: after →
      (r ∈ final.snapshotsOf source ↔ r.normalizedText ∉ before.map (·.normalizedText)) := by
  have hrows : final.snapshotsOf source =
      firstSeen (·.normalizedText) (fetchedOf functions source runs) := by
    rw [snapshotsOf_eq hrun hstart]
    refine firstSeen_congr fun x hx y hy ↦ ?_
    rw [fetchedOf_sha256 hx, fetchedOf_sha256 hy]
    exact hcollision.eq_iff (List.mem_map.mpr ⟨x, hx, rfl⟩) (List.mem_map.mpr ⟨y, hy, rfl⟩)
  rw [hrows]
  refine ⟨rfl, fun last hlast r hr hne ↦ ?_, fun r hr ↦ ?_, fun before r after hsplit ↦ ?_⟩
  · obtain ⟨older, holder⟩ := List.getLast?_eq_some_iff.mp hlast
    have hsorted := htimes.sublist (firstSeen_sublist (·.normalizedText) _)
    rw [holder] at hr hsorted
    have hin : r ∈ older := (List.mem_append.mp hr).resolve_right (by simpa using hne)
    exact (List.pairwise_append.mp hsorted).2.2 r hin last (by simp)
  · exact mem_keys_firstSeen.mpr (List.mem_map_of_mem hr)
  · rw [hsplit] at htimes ⊢
    refine mem_firstSeen_iff fun hmem ↦ ?_
    exact lt_irrefl _ ((List.pairwise_append.mp htimes).2.2 r hmem r List.mem_cons_self)

def pageSource : Source where
  id := { text := "SRC-PAGE" }
  publisher := "Vendor"
  name := "Page"
  kind := .http
  domains := ["vendor.example"]
  baseUrl := some "https://vendor.example/"
  trustClass := .primary
  status := .approved
  enabled := true
  policy := { allowedClaimTypes := {.capability}, allowedClaimPurposes := {.documentation},
              crawlFrequency := "daily" }
  pinnedAt := sampleDay
  fallbackNote := ""

def plainFunctions : ContentFunctions where
  normalize := id
  contentSha256 text :=
    if text = "A" then
      { text := "559aead08264d5795d3909718cdd05abd49572e84fe55590eef31a88a08fdffd" }
    else
      { text := "df7e70e5021544f4834bbee64a9e3789febc4be81470df629cad6ddb03320a5c" }

def pageFetch (id : SnapshotId) (rawText : String) (retrievedAt : Datetime) : Page where
  source := pageSource
  snapshotId := id
  canonicalUri := "https://vendor.example/"
  contentType := "text/plain"
  rawText := rawText
  retrievedAt := retrievedAt

def threeRuns : List (List Page) :=
  [[pageFetch { text := "SNAP-PAGE-1" } "A" (.midnight sampleDay)],
    [pageFetch { text := "SNAP-PAGE-2" } "B" (.midnight ⟨2026, 1, 2, by decide⟩)],
    [pageFetch { text := "SNAP-PAGE-3" } "A" (.midnight ⟨2026, 1, 3, by decide⟩)]]

/-- The third run differs from the second and adds no row; the latest row stays B. -/
theorem threeRuns_latest_row :
    (fetchedOf plainFunctions pageSource.id threeRuns).map (·.normalizedText) = ["A", "B", "A"] ∧
    (collectAll plainFunctions 10 {} threeRuns).toOption.map
      (fun final ↦ (final.snapshotsOf pageSource.id).map fun r ↦ (r.id.text, r.normalizedText)) =
      some [("SNAP-PAGE-1", "A"), ("SNAP-PAGE-2", "B")] := by
  decide

theorem collected_contents_first_seen_threeRuns :
    ∃ final, collectAll plainFunctions 10 {} threeRuns = .ok final ∧
      final.snapshotsOf pageSource.id =
        firstSeen (·.normalizedText) (fetchedOf plainFunctions pageSource.id threeRuns) := by
  have hok : ((collectAll plainFunctions 10 {} threeRuns).toOption).isSome = true := by decide
  cases hrun : collectAll plainFunctions 10 {} threeRuns with
  | error e => simp [hrun, Except.toOption] at hok
  | ok final =>
    refine ⟨final, rfl,
      (collected_contents_first_seen plainFunctions 10 pageSource.id {} final threeRuns
      hrun rfl ?_ (by decide)).1⟩
    have hcontents : ∀ a ∈ ["A", "B", "A"], ∀ b ∈ ["A", "B", "A"],
        plainFunctions.contentSha256 a = plainFunctions.contentSha256 b → a = b := by decide
    exact fun a ha b hb he ↦ hcontents a ha b hb he

end AgenticSecurity.Collection
