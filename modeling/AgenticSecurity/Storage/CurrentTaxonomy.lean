import AgenticSecurity.Storage.Seeding
import Mathlib.Data.Prod.Lex

namespace AgenticSecurity.Storage

open Library Models Python

/-- The queries of `JobStore.ledger_versions`; `userVersion` is the number of the schema. -/
def Tables.ledgerVersions (userVersion : ℕ) (tables : Tables) :
    Option String × Option String × String :=
  (((orderBy (fun row ↦ [row.publishedAt, row.id]) tables.methodologyVersions).getLast?).map (·.id),
    ((orderBy (fun row ↦ [row.publishedAt, row.id]) tables.taxonomyVersions).getLast?).map (·.id),
    "sqlite-schema-" ++ toString userVersion)

section Last

variable {ρ : Type} {rows : List ρ} {date id : ρ → String}

theorem textsBefore_pair {a b c d : String} : textsBefore [a, b] [c, d] = true ↔
    toLex (a, b) ≤ toLex (c, d) := by
  simp only [textsBefore, Bool.or_eq_true, Bool.and_eq_true, decide_eq_true_eq, Bool.and_true,
    Prod.Lex.toLex_le_toLex, le_iff_lt_or_eq (a := b)]

theorem orderBy_pair_sorted (date id : ρ → String) (rows : List ρ) :
    (orderBy (fun row ↦ [date row, id row]) rows).Pairwise fun a b ↦ toLex (date a,
      id a) ≤ toLex (date b, id b) := by
  have htotal : Std.Total fun a b : ρ ↦ textsBefore [date a, id a] [date b, id b] = true :=
    ⟨fun a b ↦ by simpa only [textsBefore_pair] using le_total (toLex (date a, id a)) (toLex (date b, id b))⟩
  have htrans : IsTrans ρ fun a b ↦ textsBefore [date a, id a] [date b, id b] = true :=
    ⟨fun a b c ↦ by simpa only [textsBefore_pair] using le_trans⟩
  have hsorted := List.pairwise_insertionSort
    (fun a b : ρ ↦ textsBefore [date a, id a] [date b, id b] = true) rows
  exact hsorted.imp textsBefore_pair.mp

theorem getLast_orderBy_pair {last : ρ}
    (h : (orderBy (fun row ↦ [date row, id row]) rows).getLast? = some last) :
    last ∈ rows ∧ ∀ row ∈ rows, toLex (date row, id row) ≤ toLex (date last, id last) := by
  have hperm := orderBy_perm (fun row ↦ [date row, id row]) rows
  have hsorted := orderBy_pair_sorted date id rows
  obtain ⟨earlier, hearlier⟩ := List.getLast?_eq_some_iff.mp h
  rw [hearlier] at hperm hsorted
  refine ⟨hperm.mem_iff.mp (List.mem_append_right _ (List.mem_singleton_self _)), fun row hrow ↦ ?_⟩
  rcases List.mem_append.mp (hperm.mem_iff.mpr hrow) with hbefore | hlast
  · exact (List.pairwise_append.mp hsorted).2.2 row hbefore last (List.mem_singleton_self _)
  · rw [List.mem_singleton.mp hlast]

end Last

/-- By the text of its date and then by its id, no taxonomy comes after the current one. -/
def PublishedLast (metadata : AuthoritativeMetadata) : Prop :=
  ∀ taxonomy ∈ metadata.taxonomies,
    taxonomy.publishedAt.isoformat < metadata.currentTaxonomy.publishedAt.isoformat ∨
      taxonomy.publishedAt.isoformat = metadata.currentTaxonomy.publishedAt.isoformat ∧
        taxonomy.id ≤ metadata.currentTaxonomy.id

variable {unicode : UnicodeData} {metadata : AuthoritativeMetadata} {tables : Tables}

theorem taxonomyVersion_eq_ok {version : String} :
    tables.taxonomyVersion = .ok version ↔
      ((orderBy (fun row ↦ [row.publishedAt, row.id]) tables.taxonomyVersions).getLast?).map
        (·.id) = some version := by
  unfold Tables.taxonomyVersion
  split
  next h => simp [h]
  next row h => simp [h]

theorem ledgerVersions_taxonomy {version : String} (userVersion : ℕ) :
    (tables.ledgerVersions userVersion).2.1 = some version ↔ tables.taxonomyVersion = .ok version :=
  taxonomyVersion_eq_ok.symm

theorem load_demands {forms : TextForms} {contentSha256 : String → Sha256}
    {packet : GateAPacket unicode} {after : Tables}
    (h : tables.load unicode forms contentSha256 metadata packet = .ok after) :
    packet.taxonomyVersion = metadata.currentTaxonomy.id := by
  obtain ⟨hversions, -⟩ := Runs.except_guard_ok.mp h
  exact not_not.mp (not_or.mp hversions).2

theorem current_iff (hids : (metadata.taxonomies.map (·.id)).Nodup)
    (hseeded : tables.Seeded metadata)
    (hrows : ∀ row ∈ tables.taxonomyVersions, row ∈ metadata.taxonomies.map taxonomyColumns) :
    tables.taxonomyVersion = .ok metadata.currentTaxonomy.id ↔ PublishedLast metadata := by
  have hcurrent : metadata.currentTaxonomy ∈ metadata.taxonomies :=
    List.getLast_mem metadata.nonempty
  have hstored :
      ∀ taxonomy ∈ metadata.taxonomies, taxonomyColumns taxonomy ∈ tables.taxonomyVersions :=
    fun taxonomy hmem ↦ List.mem_of_find?_eq_some (hseeded.taxonomies taxonomy hmem)
  obtain ⟨version, hversion⟩ := taxonomyVersion_isOk hseeded
  obtain ⟨last, hlast, rfl⟩ := Option.map_eq_some_iff.mp (taxonomyVersion_eq_ok.mp hversion)
  obtain ⟨hmem, hmax⟩ := getLast_orderBy_pair hlast
  obtain ⟨taxonomy, htaxonomy, rfl⟩ := List.mem_map.mp (hrows last hmem)
  rw [hversion, Except.ok.injEq]
  constructor
  · intro hid other hother
    obtain rfl : taxonomy = metadata.currentTaxonomy := Table.eq_of_key hids htaxonomy hcurrent hid
    exact Prod.Lex.toLex_le_toLex.mp (hmax _ (hstored other hother))
  · intro hpublished
    have hle : toLex (taxonomy.publishedAt.isoformat, taxonomy.id) ≤
        toLex (metadata.currentTaxonomy.publishedAt.isoformat, metadata.currentTaxonomy.id) :=
      Prod.Lex.toLex_le_toLex.mpr (hpublished taxonomy htaxonomy)
    exact congrArg Prod.snd (toLex.injective (le_antisymm hle (hmax _ (hstored _ hcurrent))))

/-- On a ledger that was empty when it was seeded, the published version and the version that the
status reports are the current one exactly where the texts of the dates and ids put the current
taxonomy last. A packet must always have the current one. -/
theorem published_version_iff (unicode : UnicodeData) (dump : TaxonomyVersion → String)
    (files : ConfigurationFiles) (metadata : AuthoritativeMetadata) (tables after : Tables)
    (userVersion : ℕ)
    (hload : loadAuthoritativeMetadata unicode dump files = .ok metadata)
    (hempty : tables.taxonomyVersions = [])
    (hseed : tables.seedAuthoritativeMetadata unicode metadata = (after, .ok ())) :
    ((after.taxonomyVersion = .ok metadata.currentTaxonomy.id ∧
        (after.ledgerVersions userVersion).2.1 = some metadata.currentTaxonomy.id) ↔
      PublishedLast metadata) ∧
    ∀ forms contentSha256 (packet : GateAPacket unicode) loaded,
      after.load unicode forms contentSha256 metadata packet = .ok loaded →
        packet.taxonomyVersion = metadata.currentTaxonomy.id := by
  have hok : (tables.applyStatements unicode metadata true).2 = .ok () := congrArg Prod.snd hseed
  have hafter : (tables.applyStatements unicode metadata true).1 = after := congrArg Prod.fst hseed
  have happlied := applyStatements_ok hok
  rw [hafter] at happlied
  obtain ⟨_, _, -, -, hrows, rfl, hseeded⟩ := applyAuthoritativeMetadata_ok happlied
  rw [hempty] at hrows
  refine ⟨?_, fun forms contentSha256 packet loaded ↦ load_demands⟩
  rw [ledgerVersions_taxonomy, and_self]
  exact current_iff (loaded_ids_nodup unicode hload) hseeded
    fun row hrow ↦ (hrows row hrow).resolve_left List.not_mem_nil

def releaseLedger : Tables :=
  (({} : Tables).seedAuthoritativeMetadata asciiData releaseMetadata).1

theorem releaseLedger_seeded :
    ({} : Tables).seedAuthoritativeMetadata asciiData releaseMetadata = (releaseLedger, .ok ()) :=
  rfl

theorem release_not_last : ¬ PublishedLast releaseMetadata := by
  intro h
  have hfirst := h _ List.mem_cons_self
  revert hfirst
  decide

theorem published_version_iff_release :
    releaseMetadata.currentTaxonomy.id = "ASI-TAXONOMY-1.10" ∧
      ¬ (releaseLedger.taxonomyVersion = .ok releaseMetadata.currentTaxonomy.id ∧
        (releaseLedger.ledgerVersions 1).2.1 = some releaseMetadata.currentTaxonomy.id) :=
  ⟨rfl, fun h ↦ release_not_last
    ((published_version_iff asciiData releasePayload releaseFiles releaseMetadata {}
    releaseLedger 1 release_loads rfl releaseLedger_seeded).1.mp h)⟩

/-- The publication and the status name the release before the current one. -/
theorem release_published_stale :
    loadAuthoritativeMetadata asciiData releasePayload releaseFiles = .ok releaseMetadata ∧
      ({} : Tables).seedAuthoritativeMetadata asciiData releaseMetadata = (releaseLedger, .ok ()) ∧
      releaseMetadata.currentTaxonomy.id = "ASI-TAXONOMY-1.10" ∧
      releaseLedger.taxonomyVersion = .ok "ASI-TAXONOMY-1.9" ∧
      (releaseLedger.ledgerVersions 1).2.1 = some "ASI-TAXONOMY-1.9" := by
  refine ⟨release_loads, releaseLedger_seeded, rfl, ?_, ?_⟩ <;> decide +kernel

end AgenticSecurity.Storage
