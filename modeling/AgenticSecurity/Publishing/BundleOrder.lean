import AgenticSecurity.Library.Paths
import AgenticSecurity.Publishing.Validation
import AgenticSecurity.Python.Dict

namespace AgenticSecurity.Publishing

open Library Models Python

structure BundleTree where
  files : Directory
  distinct : (files.map Prod.fst).Nodup
  named : ∀ file ∈ files, file.1 ≠ [] ∧ ∀ name ∈ file.1, '/' ∉ name.toList

variable (functions : BundleFunctions) (root : BundleTree)

/-- The files that a manifest has to list. -/
def BundleTree.listed : Directory := root.files.filter fun file ↦ file.1 ≠ manifestPath

/-- The manifest lists each file once, in the order of the path strings, and no file holds
private data. -/
def WellFormed (manifest : PublicationManifest) : Prop :=
  ∃ raw, root.files.lookup manifestPath = some raw ∧ functions.parseManifest raw = .ok manifest ∧
    manifest.files.Perm (root.listed.map (fileHash functions)) ∧
    (manifest.files.Pairwise fun a b ↦ a.path ≤ b.path) ∧
    ∀ file ∈ root.files, functions.scanPublicFile file.1 file.2 = .ok ()

/-- Below a directory `x` lies a file, and beside `x` an entry whose name is `x` followed by
a character before the separator. -/
def HasOvertaking : Prop :=
  ∃ p ∈ root.listed, ∃ q ∈ root.listed,
    Paths.Overtakes '/' (p.1.map String.toList) (q.1.map String.toList)

def BundleTree.walk : Directory :=
  (root.files.insertionSort fun a b ↦ a.1 ≤ b.1).filter fun file ↦ file.1 ≠ manifestPath

variable {functions root}

theorem toList_asPosix (path : Git.TreePath) :
    (asPosix path).toList = Paths.joined '/' (path.map String.toList) := by
  simp [asPosix, Paths.joined]

theorem asPosix_lt_iff {p q : Git.TreePath} :
    asPosix p < asPosix q ↔
      Paths.joined '/' (p.map String.toList) < Paths.joined '/' (q.map String.toList) := by
  rw [String.lt_iff_toList_lt, toList_asPosix, toList_asPosix]

theorem map_toList_lt {p q : Git.TreePath} (h : p < q) :
    p.map String.toList < q.map String.toList := by
  induction h with
  | nil => exact .nil
  | rel hlt => exact .rel (String.lt_iff_toList_lt.mp hlt)
  | cons _ ih => exact .cons ih

theorem lt_of_map_toList_lt {p q : Git.TreePath} (h : p.map String.toList < q.map String.toList) :
    p < q := by
  by_contra hle
  rcases (not_lt.mp hle).lt_or_eq with hlt | rfl
  · exact lt_asymm h (map_toList_lt hlt)
  · exact lt_irrefl _ h

theorem asPosix_injective {p q : Git.TreePath} (hp : p ≠ [] ∧ ∀ name ∈ p, '/' ∉ name.toList)
    (hq : q ≠ [] ∧ ∀ name ∈ q, '/' ∉ name.toList) (h : asPosix p = asPosix q) : p = q := by
  have hjoined := congrArg String.toList h
  rw [toList_asPosix, toList_asPosix] at hjoined
  have hmap := Paths.joined_injective (by simpa using hp.1) (by simpa using hq.1)
    (by simpa using hp.2) (by simpa using hq.2) hjoined
  exact List.map_injective_iff.mpr (fun _ _ ↦ String.toList_inj.mp) hmap

theorem walk_perm : root.walk.Perm root.listed := (List.perm_insertionSort _ _).filter _

theorem mem_files_of_mem_listed {file : Git.TreePath × Bytes} (h : file ∈ root.listed) :
    file ∈ root.files :=
  (List.mem_filter.mp h).1

theorem walk_named {file : Git.TreePath × Bytes} (h : file ∈ root.walk) :
    file.1 ≠ [] ∧ ∀ name ∈ file.1, '/' ∉ name.toList :=
  root.named file (mem_files_of_mem_listed (walk_perm.mem_iff.mp h))

instance pathTotal :
    Std.Total fun a b : Git.TreePath × Bytes ↦ a.1 ≤ b.1 := ⟨fun a b ↦ le_total a.1 b.1⟩

instance pathTrans : IsTrans (Git.TreePath × Bytes) fun a b ↦ a.1 ≤ b.1 := ⟨fun _ _ _ ↦ le_trans⟩

theorem walk_pairwise_lt : root.walk.Pairwise fun a b ↦ a.1 < b.1 := by
  have hle := List.pairwise_insertionSort (fun a b : Git.TreePath × Bytes ↦ a.1 ≤ b.1) root.files
  have hne : (root.files.insertionSort fun a b ↦ a.1 ≤ b.1).Pairwise fun a b ↦ a.1 ≠ b.1 :=
    List.pairwise_map.mp (((List.perm_insertionSort _ root.files).map Prod.fst).nodup_iff.mpr
      root.distinct)
  exact ((hle.and hne).imp fun ⟨h, hn⟩ ↦ lt_of_le_of_ne h hn).filter _

theorem walk_sorted_iff :
    (root.walk.Pairwise fun a b ↦ asPosix a.1 ≤ asPosix b.1) ↔ ¬ HasOvertaking root := by
  constructor
  · rintro hsorted ⟨p, hp, q, hq, hover⟩
    have hpq : p.1 < q.1 := lt_of_map_toList_lt hover.lt
    have hposix : asPosix q.1 < asPosix p.1 := asPosix_lt_iff.mpr hover.joined_lt
    -- `p` stands before `q` in the walk
    have hboth := hsorted.and walk_pairwise_lt
    have hsymm : ∀ a ∈ root.walk, ∀ b ∈ root.walk, a = b ∨
        (asPosix a.1 ≤ asPosix b.1 ∧ a.1 < b.1) ∨ (asPosix b.1 ≤ asPosix a.1 ∧ b.1 < a.1) := by
      refine List.Pairwise.forall_of_forall_of_flip (fun a _ ↦ .inl rfl)
        (hboth.imp fun h ↦ .inr (.inl h))
        (hboth.imp fun h ↦ .inr (.inr h))
    rcases hsymm p (walk_perm.mem_iff.mpr hp) q (walk_perm.mem_iff.mpr hq) with rfl | ⟨hle,
      -⟩ | ⟨-, hlt⟩
    · exact lt_irrefl _ hpq
    · exact absurd hposix (not_lt.mpr hle)
    · exact lt_asymm hpq hlt
  · intro hover
    refine walk_pairwise_lt.imp_of_mem fun {a b} ha hb hlt ↦ ?_
    have hnames : ∀ name ∈ b.1.map String.toList, '/' ∉ name := by simpa using (walk_named hb).2
    rcases Paths.joined_lt_or_overtakes (map_toList_lt hlt)
      (by simpa using (walk_named ha).1) hnames with
      h | h
    · exact (asPosix_lt_iff.mpr h).le
    · exact absurd ⟨a, walk_perm.mem_iff.mp ha, b, walk_perm.mem_iff.mp hb, h⟩ hover

instance entryTotal :
    Std.Total fun a b : PublicationHash ↦ a.path ≤ b.path := ⟨fun a b ↦ le_total a.path b.path⟩

instance entryTrans : IsTrans PublicationHash fun a b ↦ a.path ≤ b.path := ⟨fun _ _ _ ↦ le_trans⟩

theorem sorted_iff (files : List PublicationHash) :
    (files.insertionSort fun a b ↦ a.path ≤ b.path) = files ↔
      files.Pairwise fun a b ↦ a.path ≤ b.path := by
  constructor
  · intro h
    rw [← h]
    exact List.pairwise_insertionSort _ _
  · exact fun h ↦ h.insertionSort_eq

variable (functions) in
theorem checkFiles_iff (files : Directory) (entries : List PublicationHash)
    (hpaths : entries.map PublicationHash.path = files.map fun file ↦ asPosix file.1) :
    checkFiles functions (files.zip entries) = .ok () ↔
      entries = files.map (fileHash functions) ∧
        ∀ file ∈ files, functions.scanPublicFile file.1 file.2 = .ok () := by
  induction files generalizing entries with
  | nil => simp [checkFiles, List.map_eq_nil_iff.mp hpaths]
  | cons file files ih =>
    obtain ⟨entry, entries, rfl, -, hpaths⟩ := List.map_eq_cons_iff.mp hpaths
    have ih := ih entries hpaths
    rw [List.zip_cons_cons, checkFiles, List.map_cons, List.forall_mem_cons, List.cons.injEq]
    cases hscan : functions.scanPublicFile file.1 file.2 with
    | error message => simp [bind, Except.bind]
    | ok _ =>
      by_cases hhash : fileHash functions file = entry
      · simp [bind, Except.bind, hhash, ih]
      · have hne : entry ≠ fileHash functions file := fun h ↦ hhash h.symm
        simp [bind, Except.bind, hhash, hne]

theorem scan_iff {raw : Bytes} (hraw : root.files.lookup manifestPath = some raw) :
    (∀ file ∈ root.files, functions.scanPublicFile file.1 file.2 = .ok ()) ↔
      (∀ file ∈ root.walk, functions.scanPublicFile file.1 file.2 = .ok ()) ∧
        functions.scanPublicFile manifestPath raw = .ok () := by
  have hmem : (manifestPath, raw) ∈ root.files := mem_of_lookup hraw
  constructor
  · exact fun h ↦ ⟨fun file hfile ↦ h file (mem_files_of_mem_listed (walk_perm.mem_iff.mp hfile)),
      h _ hmem⟩
  · rintro ⟨hwalk, hmanifest⟩ file hfile
    by_cases hpath : file.1 = manifestPath
    · have he : file = (manifestPath, raw) :=
        List.inj_on_of_nodup_map root.distinct hfile hmem hpath
      rw [he]
      exact hmanifest
    · exact hwalk file (walk_perm.mem_iff.mpr (List.mem_filter.mpr ⟨hfile, by simpa using hpath⟩))

theorem validatePublicationBundle_ok_iff (manifest : PublicationManifest) :
    validatePublicationBundle functions root.files = .ok manifest ↔
      ∃ raw, root.files.lookup manifestPath = some raw ∧
        functions.parseManifest raw = .ok manifest ∧
        (manifest.files.Pairwise fun a b ↦ a.path ≤ b.path) ∧
        manifest.files = root.walk.map (fileHash functions) ∧
        ∀ file ∈ root.files, functions.scanPublicFile file.1 file.2 = .ok () := by
  unfold validatePublicationBundle
  cases hraw : root.files.lookup manifestPath with
  | none => simp
  | some raw =>
    simp only [Option.some.injEq, exists_eq_left']
    simp only [scan_iff hraw]
    cases hparse : functions.parseManifest raw with
    | error message => simp [bind, Except.bind]
    | ok parsed =>
      simp only [bind, Except.bind, Except.ok.injEq]
      by_cases hsorted : parsed.files.Pairwise fun a b ↦ a.path ≤ b.path
      · rw [(sorted_iff parsed.files).mpr hsorted, if_neg (not_not.mpr rfl)]
        rw [← BundleTree.walk]
        by_cases hpaths : parsed.files.map PublicationHash.path =
          root.walk.map fun file ↦ asPosix file.1
        · rw [if_neg (not_not.mpr hpaths)]
          have hcheck := checkFiles_iff functions root.walk parsed.files hpaths
          cases hfiles : checkFiles functions (root.walk.zip parsed.files) with
          | error message =>
            simp only [reduceCtorEq, false_iff]
            rintro ⟨rfl, -, hentries, hscan, -⟩
            cases hfiles.symm.trans (hcheck.mpr ⟨hentries, hscan⟩)
          | ok _ =>
            obtain ⟨hentries, hscan⟩ := hcheck.mp hfiles
            cases hmanifest : functions.scanPublicFile manifestPath raw with
            | error message => simp
            | ok _ =>
              simp only [Except.ok.injEq]
              constructor
              · rintro rfl
                exact ⟨rfl, hsorted, hentries, hscan, trivial⟩
              · exact fun h ↦ h.1
        · rw [if_pos hpaths]
          simp only [reduceCtorEq, false_iff]
          rintro ⟨rfl, -, h, -⟩
          exact hpaths (by rw [h, List.map_map]; rfl)
      · rw [if_pos fun he ↦ hsorted ((sorted_iff parsed.files).mp he.symm)]
        simp only [reduceCtorEq, false_iff]
        rintro ⟨rfl, h, -⟩
        exact hsorted h

theorem entries_eq_walk_iff {entries : List PublicationHash}
    (hperm : entries.Perm (root.listed.map (fileHash functions)))
    (hsorted : entries.Pairwise fun a b ↦ a.path ≤ b.path) :
    entries = root.walk.map (fileHash functions) ↔ ¬ HasOvertaking root := by
  rw [← walk_sorted_iff]
  constructor
  · rintro rfl
    have hwalk := List.pairwise_map.mp hsorted
    exact hwalk
  · intro hwalk
    have hperm' : entries.Perm (root.walk.map (fileHash functions)) :=
      hperm.trans (walk_perm.map _).symm
    refine List.Perm.eq_of_pairwise (fun a b ha hb hab hba ↦ ?_) hsorted
      (List.pairwise_map.mpr hwalk) hperm'
    -- two entries with one path are of one file
    obtain ⟨p, hp, rfl⟩ := List.mem_map.mp (hperm'.mem_iff.mp ha)
    obtain ⟨q, hq, rfl⟩ := List.mem_map.mp hb
    have hpath : p.1 = q.1 :=
      asPosix_injective (walk_named hp) (walk_named hq) (le_antisymm hab hba)
    have hfiles : ∀ file ∈ root.walk, file ∈ root.files :=
      fun file hfile ↦ mem_files_of_mem_listed (walk_perm.mem_iff.mp hfile)
    rw [List.inj_on_of_nodup_map root.distinct (hfiles p hp) (hfiles q hq) hpath]

theorem wellFormed_of_ok {manifest : PublicationManifest}
    (h : validatePublicationBundle functions root.files = .ok manifest) :
    WellFormed functions root manifest := by
  obtain ⟨raw, hraw, hparse, hsorted, hentries, hscan⟩ :=
    (validatePublicationBundle_ok_iff manifest).mp h
  exact ⟨raw, hraw, hparse, hentries ▸ walk_perm.map _, hsorted, hscan⟩

variable (functions root)

/-- The well-formed bundles are accepted, those with an overtaking path apart. -/
theorem accepts_wellFormed_iff :
    ((∃ manifest, validatePublicationBundle functions root.files = .ok manifest) ↔
      ∃ manifest, WellFormed functions root manifest) ↔
    ((∃ manifest, WellFormed functions root manifest) → ¬ HasOvertaking root) := by
  constructor
  · intro h hformed
    obtain ⟨manifest, hok⟩ := h.mpr hformed
    obtain ⟨-, -, -, hperm, hsorted, -⟩ := wellFormed_of_ok hok
    obtain ⟨-, -, -, -, hentries, -⟩ := (validatePublicationBundle_ok_iff manifest).mp hok
    exact (entries_eq_walk_iff hperm hsorted).mp hentries
  · intro horders
    refine ⟨fun ⟨manifest, hok⟩ ↦ ⟨manifest, wellFormed_of_ok hok⟩,
      fun ⟨manifest, hformed⟩ ↦ ⟨manifest, ?_⟩⟩
    have horder := horders ⟨manifest, hformed⟩
    obtain ⟨raw, hraw, hparse, hperm, hsorted, hscan⟩ := hformed
    have hentries := (entries_eq_walk_iff hperm hsorted).mpr horder
    exact (validatePublicationBundle_ok_iff manifest).mpr ⟨raw, hraw, hparse, hsorted,
      hentries, hscan⟩

def emptyObjectText : Bytes := encodeUtf8 "\x7b\x7d"

def emptyObjectHash : Sha256 :=
  { text := "44136fa355b3678a1146ad16f7e8649e94fb4fc21fe77e8310c060f61caaff8a" }

/-- The entries of `a-b.json` and `a/b.json`, in the order of the path strings. -/
def overtakingManifest : PublicationManifest where
  generatedAt := .midnight sampleDay
  methodologyVersion := "ASI-1.0"
  taxonomyVersion := "ASI-TAXONOMY-1.1"
  sourceLedgerVersion := "sqlite-schema-1"
  contentCount := 0
  confirmedChangeCount := 0
  pendingReviewCount := 0
  files :=
    [ { path := "a-b.json", sha256 := emptyObjectHash, sizeBytes := 2 },
      { path := "a/b.json", sha256 := emptyObjectHash, sizeBytes := 2 } ]

def overtakingManifestText : Bytes :=
  [ "\x7b\n  \"generated_at\": \"2026-01-01T00:00:00Z\",\n  \"methodology_version\": \"ASI-1.0\",\n",
    "  \"taxonomy_version\": \"ASI-TAXONOMY-1.1\",\n  \"source_ledger_version\": \"sqlite-schema-1\",\n",
    "  \"content_count\": 0,\n  \"confirmed_change_count\": 0,\n  \"pending_review_count\": 0,\n",
    "  \"files\": [\n    \x7b\n      \"path\": \"a-b.json\",\n      \"sha256\": ",
    "\"44136fa355b3678a1146ad16f7e8649e94fb4fc21fe77e8310c060f61caaff8a\",\n",
    "      \"size_bytes\": 2\n    \x7d,\n    \x7b\n      \"path\": \"a/b.json\",\n      \"sha256\": ",
    "\"44136fa355b3678a1146ad16f7e8649e94fb4fc21fe77e8310c060f61caaff8a\",\n",
    "      \"size_bytes\": 2\n    \x7d\n  ]\n\x7d\n" ].flatMap encodeUtf8

def overtakingFunctions : BundleFunctions where
  sha256 content := if content = emptyObjectText then emptyObjectHash else zeroHash
  parseManifest raw := if raw = overtakingManifestText then .ok overtakingManifest
    else .error "Invalid JSON"
  scanPublicFile _ _ := .ok ()

def overtakingTree : BundleTree where
  files :=
    [ (["a", "b.json"], emptyObjectText), (["a-b.json"], emptyObjectText),
      (["manifest.json"], overtakingManifestText) ]
  distinct := by decide
  named := by decide

theorem wellFormed_bundle_refused :
    WellFormed overtakingFunctions overtakingTree overtakingManifest ∧
      validatePublicationBundle overtakingFunctions overtakingTree.files =
        .error "publication manifest does not exactly enumerate bundle files" := by
  refine ⟨⟨overtakingManifestText, rfl, by simp [overtakingFunctions], ?_, ?_, fun _ _ ↦ rfl⟩, ?_⟩
  · exact List.Perm.swap _ _ _
  · decide
  · decide +kernel

end AgenticSecurity.Publishing
