import AgenticSecurity.Library.Transactions
import AgenticSecurity.Storage.Initialization
import AgenticSecurity.Storage.PacketRoundTrip

namespace AgenticSecurity.Storage

open Library Models Python Transactions

section Calls

variable (unicode : UnicodeData) (metadata : AuthoritativeMetadata)

/-- `_apply_authoritative_metadata` with what it leaves in the tables where it raises. -/
def Tables.applyStatements (insertMissing : Bool) (tables : Tables) :
    Tables × Except LedgerError Unit :=
  let unexpected := (tables.taxonomyVersions.map (·.id)).filter (· ∉ metadata.taxonomies.map (·.id))
  if unexpected ≠ [] then
    (tables, .error (.valueError
      ("ledger contains unexpected taxonomy metadata: " ++ reprTexts unicode unexpected)))
  else
    match upToError (Tables.applyTaxonomy insertMissing) tables metadata.taxonomies with
    | (tables, .error error) => (tables, .error error)
    | (tables, .ok ()) =>
      upToError (Tables.applyMethodology insertMissing) tables [metadata.methodology]

def Tables.seedAuthoritativeMetadata (tables : Tables) : Tables × Except LedgerError Unit :=
  tables.applyStatements unicode metadata true

def Tables.verifyAuthoritativeMetadata (tables : Tables) : Tables × Except LedgerError Unit :=
  tables.applyStatements unicode metadata false

/-- The transaction of `initialize_authoritative_ledger`. -/
def Tables.seedLedger (opening commit : Except LedgerError Unit) (tables : Tables) :
    Tables × Except LedgerError Unit :=
  transact opening commit (Tables.seedAuthoritativeMetadata unicode metadata) tables

end Calls

inductive InitializationError
  | load (error : LoadError)
  | ledger (error : LedgerError)

/-- `initialize_authoritative_ledger` on tables that exist. -/
def initializeAuthoritativeLedger (unicode : UnicodeData) (dump : TaxonomyVersion → String)
    (files : ConfigurationFiles) (opening commit : Except LedgerError Unit) (tables : Tables) :
    Tables × Except InitializationError AuthoritativeMetadata :=
  match loadAuthoritativeMetadata unicode dump files with
  | .error error => (tables, .error (.load error))
  | .ok metadata =>
    let (tables, result) := tables.seedLedger unicode metadata opening commit
    (tables, (result.mapError .ledger).map fun () ↦ metadata)

/-- The primary keys of the two tables. -/
structure Tables.MetadataKeys (tables : Tables) : Prop where
  taxonomies : (tables.taxonomyVersions.map (·.id)).Nodup
  methodologies : (tables.methodologyVersions.map (·.id)).Nodup

/-- The two tables hold the taxonomies and the methodology, every column as it is, and no other
row. -/
structure Tables.Holds (metadata : AuthoritativeMetadata) (tables : Tables) : Prop where
  taxonomies : tables.taxonomyVersions.Perm (metadata.taxonomies.map taxonomyColumns)
  methodology : tables.methodologyVersions = [methodologyColumns metadata.methodology]

variable {unicode : UnicodeData} {metadata : AuthoritativeMetadata} {tables tables' : Tables}

theorem applyStatements_result (insertMissing : Bool) (tables : Tables) :
    (tables.applyStatements unicode metadata insertMissing).2.map
        (fun () ↦ (tables.applyStatements unicode metadata insertMissing).1) =
      tables.applyAuthoritativeMetadata unicode metadata insertMissing := by
  unfold Tables.applyStatements Tables.applyAuthoritativeMetadata
  dsimp only
  split_ifs
  · rfl
  · have hloop := upToError_result (Tables.applyTaxonomy insertMissing) tables metadata.taxonomies
    rw [← hloop]
    cases hrun : upToError (Tables.applyTaxonomy insertMissing) tables metadata.taxonomies with
    | mk seeded result =>
      cases result with
      | error error => rfl
      | ok =>
        have hlast :=
          upToError_result (Tables.applyMethodology insertMissing) seeded [metadata.methodology]
        simp only [List.foldlM_cons, List.foldlM_nil, bind_pure] at hlast
        exact hlast

theorem applyStatements_ok {insertMissing : Bool}
    (h : (tables.applyStatements unicode metadata insertMissing).2 = .ok ()) :
    tables.applyAuthoritativeMetadata unicode metadata insertMissing =
      .ok (tables.applyStatements unicode metadata insertMissing).1 := by
  rw [← applyStatements_result, h]
  rfl

theorem applyStatements_of_ok {insertMissing : Bool}
    (h : tables.applyAuthoritativeMetadata unicode metadata insertMissing = .ok tables') :
    tables.applyStatements unicode metadata insertMissing = (tables', .ok ()) := by
  rw [← applyStatements_result] at h
  obtain ⟨_, hresult, htables⟩ := Runs.except_map_ok.mp h
  exact Prod.ext htables hresult

theorem applyTaxonomy_verifies {taxonomy : TaxonomyMetadata}
    (h : tables.applyTaxonomy false taxonomy = .ok tables') :
    tables' = tables ∧
      tables.taxonomyVersions.find? (fun row ↦ row.id = taxonomy.id) =
        some (taxonomyColumns taxonomy) := by
  unfold Tables.applyTaxonomy at h
  split at h
  next => cases h
  next row hfound =>
    obtain ⟨hsame, h⟩ := Runs.except_guard_ok.mp h
    exact ⟨(Except.ok.inj h).symm, by rw [hfound, not_not.mp hsame]⟩

theorem applyMethodology_verifies {methodology : MethodologyVersion}
    (h : tables.applyMethodology false methodology = .ok tables') :
    tables' = tables ∧ (∀ row ∈ tables.methodologyVersions, row.id = methodology.id) ∧
      tables.methodologyVersions.find? (fun row ↦ row.id = methodology.id) =
        some (methodologyColumns methodology) := by
  unfold Tables.applyMethodology at h
  obtain ⟨hunexpected, h⟩ := Runs.except_guard_ok.mp h
  split at h
  next => cases h
  next row hfound =>
    obtain ⟨hsame, h⟩ := Runs.except_guard_ok.mp h
    refine ⟨(Except.ok.inj h).symm, fun row hrow ↦ ?_, by rw [hfound, not_not.mp hsame]⟩
    by_contra hne
    exact hunexpected ⟨row, hrow, hne⟩

theorem verify_unchanged (unicode : UnicodeData) (metadata : AuthoritativeMetadata)
    (tables : Tables) :
    (tables.verifyAuthoritativeMetadata unicode metadata).1 = tables := by
  unfold Tables.verifyAuthoritativeMetadata Tables.applyStatements
  dsimp only
  split_ifs
  · rfl
  · have hloop : (upToError (Tables.applyTaxonomy false) tables metadata.taxonomies).1 = tables :=
      upToError_invariant (· = tables) rfl
        fun _ _ _ hsame hop ↦ (applyTaxonomy_verifies hop).1.trans hsame
    split
    next hrun =>
      rw [hrun] at hloop
      exact hloop
    next hrun =>
      rw [hrun] at hloop
      exact upToError_invariant
        (· = tables) hloop fun _ _ _ hsame hop ↦ (applyMethodology_verifies hop).1.trans hsame

theorem applyTaxonomies_verifies {taxonomies : List TaxonomyMetadata}
    (h : taxonomies.foldlM (Tables.applyTaxonomy false) tables = .ok tables') :
    tables' = tables ∧ ∀ taxonomy ∈ taxonomies,
      tables.taxonomyVersions.find? (fun row ↦ row.id = taxonomy.id) =
        some (taxonomyColumns taxonomy) := by
  induction taxonomies with
  | nil => exact ⟨(Except.ok.inj h).symm, fun taxonomy hmem ↦ absurd hmem List.not_mem_nil⟩
  | cons taxonomy taxonomies ih =>
    obtain ⟨next, hnext, hrest⟩ := Runs.except_bind_ok.mp h
    obtain ⟨rfl, hfound⟩ := applyTaxonomy_verifies hnext
    obtain ⟨hsame, hothers⟩ := ih hrest
    exact ⟨hsame, List.forall_mem_cons.mpr ⟨hfound, hothers⟩⟩

theorem Tables.Seeded.of_verified
    (h : tables.applyAuthoritativeMetadata unicode metadata false = .ok tables') :
    tables.Seeded metadata := by
  unfold Tables.applyAuthoritativeMetadata at h
  obtain ⟨hunexpected, h⟩ := Runs.except_guard_ok.mp h
  obtain ⟨next, htaxonomies, hmethodology⟩ := Runs.except_bind_ok.mp h
  obtain ⟨rfl, hfound⟩ := applyTaxonomies_verifies htaxonomies
  obtain ⟨-, honly, hmethodologyFound⟩ := applyMethodology_verifies hmethodology
  refine ⟨fun row hrow ↦ ?_, hfound, honly, hmethodologyFound⟩
  have hknown :=
    List.filter_eq_nil_iff.mp (not_not.mp hunexpected) row.id (List.mem_map_of_mem hrow)
  simpa using hknown

theorem seeded_iff_holds (hkeys : tables.MetadataKeys)
    (hids : (metadata.taxonomies.map (·.id)).Nodup) :
    tables.Seeded metadata ↔ tables.Holds metadata := by
  have hrows : tables.taxonomyVersions.Nodup := hkeys.taxonomies.of_map
  have hexpected : (metadata.taxonomies.map taxonomyColumns).Nodup := by
    refine List.Nodup.of_map TaxonomyColumns.id ?_
    rwa [List.map_map]
  constructor
  · intro h
    refine ⟨(List.perm_ext_iff_of_nodup hrows hexpected).mpr
      fun row ↦ ⟨fun hrow ↦ ?_, fun hrow ↦ ?_⟩, ?_⟩
    · obtain ⟨taxonomy, hmem, hid⟩ := List.mem_map.mp (h.known row hrow)
      have hfound := h.taxonomies taxonomy hmem
      rw [hid, Table.find_key hkeys.taxonomies hrow, Option.some.injEq] at hfound
      exact hfound ▸ List.mem_map_of_mem hmem
    · obtain ⟨taxonomy, hmem, rfl⟩ := List.mem_map.mp hrow
      exact List.mem_of_find?_eq_some (h.taxonomies taxonomy hmem)
    · have hmem := List.mem_of_find?_eq_some h.methodology
      refine List.perm_singleton.mp
        ((List.perm_ext_iff_of_nodup hkeys.methodologies.of_map (List.nodup_singleton _)).mpr
          fun row ↦ ?_)
      rw [List.mem_singleton]
      exact ⟨fun hrow ↦ Table.eq_of_key hkeys.methodologies hrow hmem (h.only row hrow),
        fun he ↦ he ▸ hmem⟩
  · intro h
    refine ⟨fun row hrow ↦ ?_, fun taxonomy hmem ↦ ?_, fun row hrow ↦ ?_, ?_⟩
    · obtain ⟨taxonomy, hmem, rfl⟩ := List.mem_map.mp (h.taxonomies.mem_iff.mp hrow)
      exact List.mem_map_of_mem hmem
    · exact Table.find_key hkeys.taxonomies (h.taxonomies.mem_iff.mpr (List.mem_map_of_mem hmem))
    · rw [h.methodology, List.mem_singleton] at hrow
      rw [hrow]
      rfl
    · rw [h.methodology]
      exact List.find?_cons_of_pos (decide_eq_true rfl)

theorem verify_ok_iff_seeded :
    (tables.verifyAuthoritativeMetadata unicode metadata).2 = .ok () ↔ tables.Seeded metadata := by
  constructor
  · intro h
    exact .of_verified (applyStatements_ok h)
  · intro h
    have hverified : tables.verifyAuthoritativeMetadata unicode metadata = (tables, .ok ()) :=
      applyStatements_of_ok (h.verified false)
    rw [hverified]

theorem verify_ok_iff (hkeys : tables.MetadataKeys)
    (hids : (metadata.taxonomies.map (·.id)).Nodup) :
    (tables.verifyAuthoritativeMetadata unicode metadata).2 = .ok () ↔ tables.Holds metadata :=
  verify_ok_iff_seeded.trans (seeded_iff_holds hkeys hids)

/-- What seeding in a transaction does to the tables. -/
structure SeedsSafely (unicode : UnicodeData) (metadata : AuthoritativeMetadata)
    (before after : Tables) (result : Except LedgerError Unit) : Prop where
  verifies : result = .ok () → (after.verifyAuthoritativeMetadata unicode metadata).2 = .ok ()
  keeps : result = .ok () → before.taxonomyVersions <+: after.taxonomyVersions ∧
    before.methodologyVersions <+: after.methodologyVersions
  onlyMetadata : after = { before with
    methodologyVersions := after.methodologyVersions, taxonomyVersions := after.taxonomyVersions }
  repeats : result = .ok () →
    after.seedLedger unicode metadata (.ok ()) (.ok ()) = (after, .ok ()) ∧
    ∀ opening commit, (after.seedLedger unicode metadata opening commit).1 = after
  unchanged : ∀ error, result = .error error → after = before

theorem seedLedger_ok {opening commit : Except LedgerError Unit}
    (h : (tables.seedLedger unicode metadata opening commit).2 = .ok ()) :
    tables.applyAuthoritativeMetadata unicode metadata true =
      .ok (tables.seedLedger unicode metadata opening commit).1 := by
  obtain ⟨hbody, htables⟩ := transact_ok h
  rw [Tables.seedLedger, htables]
  exact applyStatements_ok hbody

theorem seedLedger_again (h : tables.Seeded metadata) :
    tables.seedLedger unicode metadata (.ok ()) (.ok ()) = (tables, .ok ()) ∧
      ∀ opening commit, (tables.seedLedger unicode metadata opening commit).1 = tables := by
  have hbody : tables.seedAuthoritativeMetadata unicode metadata = (tables, .ok ()) :=
    applyStatements_of_ok (h.verified true)
  refine ⟨?_, fun opening commit ↦ ?_⟩
  · rw [Tables.seedLedger, transact, hbody]
    rfl
  · cases hresult : (tables.seedLedger unicode metadata opening commit).2 with
    | ok => exact (transact_ok hresult).2.trans (congrArg Prod.fst hbody)
    | error error => exact transact_error hresult

theorem seedLedger_safe (unicode : UnicodeData) (metadata : AuthoritativeMetadata)
    (opening commit : Except LedgerError Unit) (tables : Tables) :
    SeedsSafely unicode metadata tables (tables.seedLedger unicode metadata opening commit).1
      (tables.seedLedger unicode metadata opening commit).2 := by
  cases hresult : (tables.seedLedger unicode metadata opening commit).2 with
  | ok =>
    have hseeded := seedLedger_ok hresult
    generalize (tables.seedLedger unicode metadata opening commit).1 = after at hseeded
    obtain ⟨_, _, hmethodologies, htaxonomies, -, rfl, hafter⟩ :=
      applyAuthoritativeMetadata_ok hseeded
    exact ⟨fun _ ↦ verify_ok_iff_seeded.mpr hafter, fun _ ↦ ⟨htaxonomies, hmethodologies⟩, rfl,
      fun _ ↦ seedLedger_again hafter, nofun⟩
  | error error =>
    have hafter : (tables.seedLedger unicode metadata opening commit).1 = tables :=
      transact_error hresult
    rw [hafter]
    exact ⟨nofun, nofun, rfl, nofun, fun _ _ ↦ rfl⟩

/-- Every stored row is one of the metadata. -/
structure Tables.Legacy (metadata : AuthoritativeMetadata) (tables : Tables) : Prop where
  taxonomies : ∀ row ∈ tables.taxonomyVersions, row ∈ metadata.taxonomies.map taxonomyColumns
  methodologies : ∀ row ∈ tables.methodologyVersions, row = methodologyColumns metadata.methodology

theorem execute_taxonomy {row : TaxonomyColumns}
    (hid : tables.taxonomyVersions.find? (fun r ↦ r.id = row.id) = none)
    (hprevious : ∀ previous ∈ row.previousVersion, previous ∈ tables.taxonomyVersions.map (·.id)) :
    execute taxonomyTable tables row = .ok { tables with taxonomyVersions :=
        tables.taxonomyVersions ++ [row] } := by
  have hunique :
      taxonomyTable.uniques.find? (fun unique ↦ (taxonomyTable.rows tables).any (unique.2 row)) =
      none := by
    refine List.find?_eq_none.mpr fun unique hmem ↦ ?_
    obtain rfl := List.mem_singleton.mp hmem
    rw [List.any_eq_true]
    rintro ⟨other, hother, he⟩
    exact List.find?_eq_none.mp hid other hother (decide_eq_true (of_decide_eq_true he).symm)
  have hreference :
      taxonomyTable.references row (taxonomyTable.put (taxonomyTable.rows tables ++ [row]) tables) =
      true := by
    change row.previousVersion.all (· ∈ (tables.taxonomyVersions ++ [row]).map (·.id)) = true
    cases hrow : row.previousVersion with
    | none => rfl
    | some previous =>
      refine decide_eq_true ?_
      rw [List.map_append]
      exact List.mem_append_left _ (hprevious previous hrow)
  rw [execute, Sql.Table.insert, if_neg (by simp [taxonomyTable]), hunique]
  dsimp only
  rw [if_pos hreference]
  rfl

theorem applyTaxonomy_completes {taxonomy : TaxonomyMetadata}
    (hids : (metadata.taxonomies.map (·.id)).Nodup) (hmem : taxonomy ∈ metadata.taxonomies)
    (hrows : ∀ row ∈ tables.taxonomyVersions, row ∈ metadata.taxonomies.map taxonomyColumns)
    (hprevious : ∀ previous ∈ taxonomy.previousVersion,
      previous ∈ tables.taxonomyVersions.map (·.id)) :
    ∃ after, tables.applyTaxonomy true taxonomy = .ok after ∧
      (∀ row ∈ after.taxonomyVersions, row ∈ metadata.taxonomies.map taxonomyColumns) ∧
      taxonomy.id ∈ after.taxonomyVersions.map (·.id) := by
  unfold Tables.applyTaxonomy
  split
  next hnone =>
    rw [if_neg (by simp), execute_taxonomy hnone hprevious]
    refine ⟨_, rfl, fun row hrow ↦ ?_, ?_⟩
    · rcases List.mem_append.mp hrow with hold | hnew
      · exact hrows row hold
      · exact List.mem_singleton.mp hnew ▸ List.mem_map_of_mem hmem
    · rw [List.map_append]
      exact List.mem_append_right _ (List.mem_singleton_self _)
  next row hfound =>
    have hrow := List.mem_of_find?_eq_some hfound
    have hid : row.id = taxonomy.id := by simpa using List.find?_some hfound
    obtain ⟨other, hother, rfl⟩ := List.mem_map.mp (hrows row hrow)
    obtain rfl : other = taxonomy := Table.eq_of_key hids hother hmem hid
    rw [if_neg (by simp)]
    exact ⟨tables, rfl, hrows, hid ▸ List.mem_map_of_mem hrow⟩

theorem applyTaxonomies_complete {taxonomies : List TaxonomyMetadata}
    (hids : (metadata.taxonomies.map (·.id)).Nodup) (hsubset : taxonomies ⊆ metadata.taxonomies)
    (hlinked : taxonomies.IsChain fun earlier later ↦ later.previousVersion = some earlier.id)
    (hrows : ∀ row ∈ tables.taxonomyVersions, row ∈ metadata.taxonomies.map taxonomyColumns)
    (hfirst : ∀ first ∈ taxonomies.head?, ∀ previous ∈ first.previousVersion,
      previous ∈ tables.taxonomyVersions.map (·.id)) :
    ∃ after, taxonomies.foldlM (Tables.applyTaxonomy true) tables = .ok after := by
  induction taxonomies generalizing tables with
  | nil => exact ⟨tables, rfl⟩
  | cons taxonomy taxonomies ih =>
    obtain ⟨next, hnext, hrowsNext, hid⟩ :=
      applyTaxonomy_completes hids (hsubset List.mem_cons_self) hrows
      (hfirst taxonomy rfl)
    obtain ⟨after, hafter⟩ :=
      ih (fun _ h ↦ hsubset (List.mem_cons_of_mem _ h)) hlinked.tail hrowsNext (by
      intro successor hsuccessor previous hprevious
      rw [List.isChain_cons] at hlinked
      rw [hlinked.1 successor hsuccessor, Option.mem_some] at hprevious
      exact hprevious ▸ hid)
    refine ⟨after, ?_⟩
    rw [List.foldlM_cons, hnext]
    exact hafter

theorem applyMethodology_completes {methodology : MethodologyVersion}
    (hglob : matchesMethodologyGlob methodology.id = true)
    (hrows : ∀ row ∈ tables.methodologyVersions, row = methodologyColumns methodology) :
    ∃ after, tables.applyMethodology true methodology = .ok after := by
  have hexpected : ¬ ∃ row ∈ tables.methodologyVersions, row.id ≠ methodology.id := by
    intro ⟨row, hrow, hne⟩
    exact hne (hrows row hrow ▸ rfl)
  unfold Tables.applyMethodology
  rw [if_neg hexpected]
  split
  next hnone =>
    have hempty : tables.methodologyVersions = [] := by
      refine List.eq_nil_iff_forall_not_mem.mpr fun row hrow ↦ ?_
      exact List.find?_eq_none.mp hnone row hrow (decide_eq_true (hrows row hrow ▸ rfl))
    have hcheck : methodologyTable.check (methodologyColumns methodology) = true := hglob
    rw [if_neg (by simp), execute, Sql.Table.insert, if_neg (by rw [hcheck]; simp)]
    have hunique : methodologyTable.uniques.find?
        (fun unique ↦ (methodologyTable.rows tables).any (unique.2
          (methodologyColumns methodology))) = none := by
      change [_].find? (fun unique ↦ tables.methodologyVersions.any _) = none
      rw [hempty]
      rfl
    rw [hunique]
    exact ⟨_, rfl⟩
  next row hfound =>
    rw [if_neg (not_not.mpr (hrows row (List.mem_of_find?_eq_some hfound)))]
    exact ⟨tables, rfl⟩

theorem seedLedger_completes {dump : TaxonomyVersion → String} {files : ConfigurationFiles}
    (hload : loadAuthoritativeMetadata unicode dump files = .ok metadata)
    (hrows : tables.Legacy metadata)
    (hglob : matchesMethodologyGlob metadata.methodology.id = true) :
    ∃ after, tables.seedLedger unicode metadata (.ok ()) (.ok ()) = (after, .ok ()) := by
  obtain ⟨configured, chain, hchain, htaxonomies⟩ := loadAuthoritativeMetadata_chain unicode hload
  have hids := loaded_ids_nodup unicode hload
  have hlinked :
      metadata.taxonomies.IsChain fun earlier later ↦ later.previousVersion = some earlier.id := by
    rw [htaxonomies, List.isChain_map]
    exact hchain.linked
  have hfirst : ∀ first ∈ metadata.taxonomies.head?, first.previousVersion = none := by
    intro first hmem
    rw [htaxonomies, List.head?_map] at hmem
    obtain ⟨oldest, holdest, rfl⟩ := Option.mem_map.mp hmem
    have hnone := hchain.first
    rw [holdest] at hnone
    exact Option.some.inj hnone
  obtain ⟨middle, hmiddle⟩ :=
    applyTaxonomies_complete hids (List.Subset.refl _) hlinked hrows.taxonomies (by
    intro first hmem previous hprevious
    rw [hfirst first hmem] at hprevious
    cases hprevious)
  obtain ⟨added, -, rfl, -⟩ := applyTaxonomies_ok hmiddle
  obtain ⟨after, hafter⟩ :=
    @applyMethodology_completes { tables with taxonomyVersions := tables.taxonomyVersions ++ added }
    metadata.methodology hglob hrows.methodologies
  have hunexpected :
      (tables.taxonomyVersions.map (·.id)).filter (· ∉ metadata.taxonomies.map (·.id)) = [] := by
    refine List.filter_eq_nil_iff.mpr fun id hid ↦ ?_
    obtain ⟨row, hrow, rfl⟩ := List.mem_map.mp hid
    obtain ⟨taxonomy, hmem, rfl⟩ := List.mem_map.mp (hrows.taxonomies row hrow)
    simpa using ⟨taxonomy, hmem, rfl⟩
  have hseed : tables.seedAuthoritativeMetadata unicode metadata = (after, .ok ()) := by
    refine applyStatements_of_ok ?_
    unfold Tables.applyAuthoritativeMetadata
    dsimp only
    rw [hunexpected, if_neg (by simp), hmiddle]
    exact hafter
  refine ⟨after, ?_⟩
  rw [Tables.seedLedger, transact, hseed]
  rfl

/-- Seeding with the metadata that was loaded is safe on any tables and completes tables that hold
a part of it. Verifying it writes nothing and accepts the tables that hold exactly this metadata. -/
theorem metadata_seeding (unicode : UnicodeData) (dump : TaxonomyVersion → String)
    (files : ConfigurationFiles) (metadata : AuthoritativeMetadata) (tables : Tables)
    (opening commit : Except LedgerError Unit)
    (hload : loadAuthoritativeMetadata unicode dump files = .ok metadata)
    (hkeys : tables.MetadataKeys) :
    SeedsSafely unicode metadata tables (tables.seedLedger unicode metadata opening commit).1
        (tables.seedLedger unicode metadata opening commit).2 ∧
      initializeAuthoritativeLedger unicode dump files opening commit tables =
        ((tables.seedLedger unicode metadata opening commit).1,
          ((tables.seedLedger unicode metadata opening commit).2.mapError .ledger).map
            fun () ↦ metadata) ∧
      (tables.verifyAuthoritativeMetadata unicode metadata).1 = tables ∧
      ((tables.verifyAuthoritativeMetadata unicode metadata).2 = .ok () ↔ tables.Holds metadata) ∧
      (tables.Legacy metadata → matchesMethodologyGlob metadata.methodology.id = true →
        ∃ after, tables.seedLedger unicode metadata (.ok ()) (.ok ()) = (after, .ok ())) := by
  refine ⟨seedLedger_safe unicode metadata opening commit tables, ?_,
    verify_unchanged unicode metadata tables, verify_ok_iff hkeys (loaded_ids_nodup unicode hload),
    seedLedger_completes hload⟩
  rw [initializeAuthoritativeLedger, hload]

def releaseTaxonomy (id : String) (previousVersion : Option String) : TaxonomyVersion where
  id := id
  publishedAt := .aware sampleTime
  vocabularies := []
  previousVersion := previousVersion

def releaseDocument (id : String) (previousVersion : Option String) :
    Except LoadError TaxonomyDocument :=
  .ok
    { taxonomyVersion := some id, publishedAt := some (.aware sampleTime),
      vocabularies := some [], previousVersion }

def releaseFiles : ConfigurationFiles where
  settings := .ok
    { methodologyFile := some "config/methodology.yaml"
      methodologyVersion := some "ASI-1.0"
      normalizerVersion := some "norm-1.0"
      taxonomyFile := some "config/taxonomy.yaml" }
  methodology _ := .ok
    { methodologyVersion := some "ASI-1.0"
      normalizerVersion := some "norm-1.0"
      publishedAt := some (.aware sampleTime)
      taxonomyVersion := some "ASI-TAXONOMY-1.10" }
  taxonomy _ := (
    { files := [
        ("taxonomy.yaml", releaseDocument "ASI-TAXONOMY-1.10" (some "ASI-TAXONOMY-1.9")),
        ("ASI-TAXONOMY-1.9.yaml", releaseDocument "ASI-TAXONOMY-1.9" none)] },
    "taxonomy.yaml")

def releasePayload (taxonomy : TaxonomyVersion) : String :=
  "\x7b\"gate_category_reuse\":null,\"id\":\"" ++ taxonomy.id ++
    "\",\"mappings\":[],\"previous_version\":" ++
    taxonomy.previousVersion.elim "null" (fun previous ↦ "\"" ++ previous ++ "\"") ++
    ",\"published_at\":\"2026-01-01T00:00:00Z\",\"reserved_agent_ids\":[],\"vocabularies\":\x7b\x7d\x7d"

def releaseMetadata : AuthoritativeMetadata where
  methodology :=
    { id := "ASI-1.0"
      publishedAt := .aware sampleTime
      description := "Authoritative methodology metadata for ASI-1.0."
      normalizerVersion := "norm-1.0" }
  taxonomies := [releaseTaxonomy "ASI-TAXONOMY-1.9" none,
    releaseTaxonomy "ASI-TAXONOMY-1.10" (some "ASI-TAXONOMY-1.9")].map
      (TaxonomyVersion.metadata releasePayload)

theorem release_loads :
    loadAuthoritativeMetadata asciiData releasePayload releaseFiles = .ok releaseMetadata := by
  rfl

def firstRelease : Tables where
  taxonomyVersions :=
    [taxonomyColumns ((releaseTaxonomy "ASI-TAXONOMY-1.9" none).metadata releasePayload)]

theorem metadata_seeding_release :
    firstRelease.taxonomyVersions.length = 1 ∧
      SeedsSafely asciiData releaseMetadata firstRelease
        (firstRelease.seedLedger asciiData releaseMetadata (.ok ()) (.ok ())).1
        (firstRelease.seedLedger asciiData releaseMetadata (.ok ()) (.ok ())).2 :=
  ⟨rfl, (metadata_seeding asciiData releasePayload releaseFiles releaseMetadata firstRelease
    (.ok ()) (.ok ()) release_loads
    ⟨List.nodup_singleton _, List.nodup_nil⟩).1⟩

end AgenticSecurity.Storage
