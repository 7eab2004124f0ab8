import AgenticSecurity.Library.Loops
import AgenticSecurity.Storage.Tables
import Mathlib.Data.List.Chain

namespace AgenticSecurity.Storage

open Library Loops Models Python

structure TaxonomyTerm where
  key : String
  label : String
  description : String
  deprecated : Bool := false
  deriving DecidableEq

structure TaxonomyMapping where
  oldTerm : String
  newTerms : List String
  rationale : String
  deriving DecidableEq

structure TaxonomyVersion where
  id : String
  publishedAt : Moment
  vocabularies : List (String × List TaxonomyTerm)
  previousVersion : Option String := none
  mappings : List TaxonomyMapping := []
  reservedAgentIds : List String := []
  gateCategoryReuse : Option String := none
  deriving DecidableEq

inductive LoadError
  | fileNotFound (name : String)
  | unreadable (message : String)
  | keyError (key : String)
  | validationError (field : String)
  | valueError (message : String)
  deriving DecidableEq

/-- The mapping of a taxonomy file; a key that it lacks is `none`. -/
structure TaxonomyDocument where
  taxonomyVersion : Option String
  publishedAt : Option Moment
  vocabularies : Option (List (String × List TaxonomyTerm))
  previousVersion : Option String := none
  mappings : List TaxonomyMapping := []
  reservedAgentIds : List String := []
  gateCategoryReuse : Option String := none
  deriving DecidableEq

structure MethodologyDocument where
  methodologyVersion : Option String
  normalizerVersion : Option String
  publishedAt : Option Moment
  taxonomyVersion : Option String
  deriving DecidableEq

structure Settings where
  methodologyFile : Option String
  methodologyVersion : Option String
  normalizerVersion : Option String
  taxonomyFile : Option String
  deriving DecidableEq

/-- The files of one directory by name. A file that is no YAML, or whose values have other types
than the models ask for, is `unreadable`. -/
structure Directory where
  files : List (String × Except LoadError TaxonomyDocument)

def Directory.read (directory : Directory) (name : String) : Except LoadError TaxonomyDocument :=
  (directory.files.lookup name).getD (.error (.fileNotFound name))

/-- The configuration as it is read. A taxonomy file is found by the directory that its configured
path leads to and its name there. -/
structure ConfigurationFiles where
  settings : Except LoadError Settings
  methodology : String → Except LoadError MethodologyDocument
  taxonomy : String → Directory × String

/-- `raw[key]`. -/
def item {α : Type} (key : String) (value : Option α) : Except LoadError α :=
  value.elim (.error (.keyError key)) .ok

variable (unicode : UnicodeData)

/-- `^[a-z0-9][a-z0-9-]*$`. -/
def isTermKey (text : String) : Bool :=
  let isWord : Char → Bool := fun c ↦ c.isDigit || ('a' ≤ c && c ≤ 'z')
  match text.toList with
  | [] => false
  | first :: rest => isWord first && rest.all fun c ↦ isWord c || c = '-'

def loadTaxonomy (directory : Directory) (name : String) : Except LoadError TaxonomyVersion := do
  let raw ← directory.read name
  let vocabularies ← item "vocabularies" raw.vocabularies
  if ¬ (vocabularies.flatMap Prod.snd).all fun term ↦ isTermKey term.key then
    .error (.validationError "key")
  else
    let id ← item "taxonomy_version" raw.taxonomyVersion
    let publishedAt ← item "published_at" raw.publishedAt
    if ¬ isTaxonomyId unicode id then .error (.validationError "id")
    else if ¬ raw.previousVersion.all (isTaxonomyId unicode) then
      .error (.validationError "previous_version")
    else .ok { raw with id, publishedAt, vocabularies }

structure ChainState where
  current : TaxonomyVersion
  seen : List String := []
  chain : List TaxonomyVersion := []

def chainTurn (directory : Directory) (s : ChainState) :
    Turn ChainState (Except LoadError (List TaxonomyVersion)) :=
  if s.current.id ∈ s.seen then .leave (.error (.valueError "taxonomy dependency cycle detected"))
  else
    let seen := s.seen ++ [s.current.id]
    let chain := s.chain ++ [s.current]
    match s.current.previousVersion with
    | none => .leave (.ok chain.reverse)
    | some previousVersion =>
      match loadTaxonomy unicode directory (previousVersion ++ ".yaml") with
      | .error error => .leave (.error error)
      | .ok dependency =>
        if dependency.id ≠ previousVersion then
          .leave (.error (.valueError "taxonomy dependency file has the wrong version"))
        else .again { current := dependency, seen, chain }

/-- The taxonomies from the oldest to the configured one, each the successor of the one before. -/
structure LinkedChain (configured : TaxonomyVersion) (chain : List TaxonomyVersion) : Prop where
  ids : (chain.map (·.id)).Nodup
  first : chain.head?.map (·.previousVersion) = some none
  last : chain.getLast? = some configured
  linked : chain.IsChain fun earlier later ↦ later.previousVersion = some earlier.id

/-- Where the loop is: the chain so far goes from the configured taxonomy down to what `current`
is to be joined to, and every dependency came from a file of the directory. -/
structure ChainState.Inv (directory : Directory) (configured : TaxonomyVersion) (s : ChainState) :
    Prop where
  seen : s.seen = s.chain.map (·.id)
  nodup : s.seen.Nodup
  first : (s.chain ++ [s.current]).head? = some configured
  linked :
    (s.chain ++ [s.current]).IsChain fun later earlier ↦ later.previousVersion = some earlier.id
  files : ∀ t ∈ (s.chain ++ [s.current]).tail, t.id ++ ".yaml" ∈ directory.files.map Prod.fst

variable {unicode} {directory : Directory} {configured : TaxonomyVersion} {s s' : ChainState}

theorem mem_files_of_loadTaxonomy {name : String} {taxonomy : TaxonomyVersion}
    (h : loadTaxonomy unicode directory name = .ok taxonomy) :
    name ∈ directory.files.map Prod.fst := by
  obtain ⟨raw, hraw, -⟩ := Runs.except_bind_ok.mp h
  unfold Directory.read at hraw
  cases hfile : directory.files.lookup name with
  | none =>
    rw [hfile] at hraw
    cases hraw
  | some file =>
    by_contra hname
    have hnone : directory.files.lookup name = none := by
      refine List.lookup_eq_none_iff.mpr fun entry hentry ↦ ?_
      have hne : name ≠ entry.1 := fun he ↦ hname (he ▸ List.mem_map_of_mem hentry)
      simpa using hne
    rw [hnone] at hfile
    cases hfile

theorem chainTurn_again (h : chainTurn unicode directory s = .again s') :
    s.current.id ∉ s.seen ∧ s'.seen = s.seen ++ [s.current.id] ∧ s'.chain = s.chain ++ [s.current] ∧
      s.current.previousVersion = some s'.current.id ∧
      s'.current.id ++ ".yaml" ∈ directory.files.map Prod.fst := by
  unfold chainTurn at h
  split_ifs at h with hseen
  dsimp only at h
  split at h
  · cases h
  next previousVersion hprevious =>
  split at h
  · cases h
  next dependency hload =>
  split_ifs at h with hid
  obtain rfl := Turn.again.inj h
  have hsame : dependency.id = previousVersion := not_not.mp hid
  refine ⟨hseen, rfl, rfl, ?_, ?_⟩
  · rw [hprevious, ← hsame]
  · change dependency.id ++ ".yaml" ∈ _
    rw [hsame]
    exact mem_files_of_loadTaxonomy hload

theorem chainTurn_returns {chain : List TaxonomyVersion}
    (h : chainTurn unicode directory s = .leave (.ok chain)) :
    s.current.id ∉ s.seen ∧ s.current.previousVersion = none ∧
    chain = (s.chain ++ [s.current]).reverse := by
  unfold chainTurn at h
  split_ifs at h with hseen
  · cases h
  dsimp only at h
  split at h
  next hprevious =>
    obtain rfl := Except.ok.inj (Turn.leave.inj h)
    exact ⟨hseen, hprevious, rfl⟩
  next =>
    split at h
    · cases h
    · split_ifs at h
      cases h

theorem ChainState.Inv.again (h : s.Inv directory configured)
    (hs : chainTurn unicode directory s = .again s') :
    s'.Inv directory configured := by
  obtain ⟨hnew, hseen, hchain, hprevious, hfile⟩ := chainTurn_again hs
  constructor
  · rw [hseen, hchain, h.seen, List.map_append, List.map_singleton]
  · rw [hseen]
    exact List.nodup_append.mpr ⟨h.nodup, List.nodup_singleton _, fun id hid other hother he ↦
      hnew (List.mem_singleton.mp hother ▸ he ▸ hid)⟩
  · rw [hchain, List.head?_append, h.first, Option.some_or]
  · rw [hchain]
    refine List.isChain_append.mpr ⟨h.linked, List.isChain_singleton _, fun t ht other hother ↦ ?_⟩
    rw [List.getLast?_concat, Option.mem_some] at ht
    rw [List.head?_cons, Option.mem_some] at hother
    rw [← ht, ← hother, hprevious]
  · intro t ht
    rw [hchain, List.tail_append_of_ne_nil (by simp)] at ht
    rcases List.mem_append.mp ht with hold | hlast
    · exact h.files t hold
    · rwa [List.mem_singleton.mp hlast]

theorem yaml_injective : Function.Injective fun id : String ↦ id ++ ".yaml" := by
  intro a b h
  have htext : a.toList ++ ".yaml".toList = b.toList ++ ".yaml".toList := by
    rw [← String.toList_append, ← String.toList_append]
    exact congrArg String.toList h
  exact String.toList_inj.mp (List.append_cancel_right htext)

theorem ChainState.Inv.length_le (h : s.Inv directory configured) :
    s.chain.length ≤ directory.files.length + 1 := by
  have hids : (s.chain.map (·.id)).Nodup := h.seen ▸ h.nodup
  have hnames : ((s.chain.tail.map (·.id)).map fun id ↦ id ++ ".yaml").Nodup := by
    refine List.Nodup.map yaml_injective ?_
    rw [List.map_tail]
    exact hids.tail
  have hsubset : ((s.chain.tail.map (·.id)).map fun id ↦ id ++ ".yaml") ⊆
      directory.files.map Prod.fst := by
    intro name hname
    obtain ⟨id, hid, rfl⟩ := List.mem_map.mp hname
    obtain ⟨t, ht, rfl⟩ := List.mem_map.mp hid
    refine h.files t ?_
    cases hchain : s.chain with
    | nil => simp [hchain] at ht
    | cons first rest =>
      rw [hchain] at ht
      exact List.mem_append_left _ ht
  have hlength := (hnames.subperm hsubset).length_le
  simp only [List.length_map, List.length_tail] at hlength
  omega

theorem inv_start (directory : Directory) (configured : TaxonomyVersion) :
    ({ current := configured } : ChainState).Inv directory configured where
  seen := rfl
  nodup := List.nodup_nil
  first := rfl
  linked := List.isChain_singleton configured
  files _ ht := absurd ht List.not_mem_nil

theorem chain_isSome (unicode : UnicodeData) (directory : Directory)
    (configured : TaxonomyVersion) :
    (run (chainTurn unicode directory) (directory.files.length + 2)
      { current := configured }).isSome := by
  refine run_isSome (fun s ↦ s.Inv directory configured)
    (fun s ↦ directory.files.length + 1 - s.chain.length)
    (fun s s' h hs ↦ ⟨h.again hs, ?_⟩) (inv_start directory configured) (by simp)
  have hlength := (h.again hs).length_le
  obtain ⟨-, -, hchain, -⟩ := chainTurn_again hs
  rw [hchain, List.length_append, List.length_singleton] at hlength ⊢
  omega

theorem chain_linked {n : ℕ} {chain : List TaxonomyVersion}
    (h : run (chainTurn unicode directory) n { current := configured } = some (.ok chain)) :
    LinkedChain configured chain := by
  obtain ⟨s, hs, hturn⟩ :=
    run_invariant (fun s ↦ s.Inv directory configured) (fun _ _ hs ht ↦ hs.again ht)
    (inv_start directory configured) h
  obtain ⟨hnew, hprevious, rfl⟩ := chainTurn_returns hturn
  constructor
  · rw [List.map_reverse, List.nodup_reverse, List.map_append, List.map_singleton, ← hs.seen]
    exact List.nodup_append.mpr ⟨hs.nodup, List.nodup_singleton _, fun id hid other hother he ↦
      hnew (List.mem_singleton.mp hother ▸ he ▸ hid)⟩
  · rw [List.head?_reverse, List.getLast?_concat, Option.map_some, hprevious]
  · rw [List.getLast?_reverse, hs.first]
  · exact List.isChain_reverse.mpr hs.linked

/-- Whatever a directory holds, the loop leaves after at most two turns more than it has files, and
what it returns is a linked chain. -/
theorem taxonomy_chain_terminates (unicode : UnicodeData) (directory : Directory)
    (configured : TaxonomyVersion) :
    ∃ result, (∀ n, directory.files.length + 2 ≤ n →
        run (chainTurn unicode directory) n { current := configured } = some result) ∧
      ∀ chain, result = .ok chain → LinkedChain configured chain := by
  obtain ⟨result, hresult⟩ :=
    Option.isSome_iff_exists.mp (chain_isSome unicode directory configured)
  refine ⟨result, fun n hn ↦ run_mono hresult hn, ?_⟩
  rintro chain rfl
  exact chain_linked hresult

section Load

variable (unicode)

def taxonomyChain (directory : Directory) (configured : TaxonomyVersion) :
    Except LoadError (List TaxonomyVersion) :=
  (run (chainTurn unicode directory) (directory.files.length + 2) { current := configured }).get
    (chain_isSome unicode directory configured)

theorem taxonomyChain_linked {chain : List TaxonomyVersion}
    (h : taxonomyChain unicode directory configured = .ok chain) :
    LinkedChain configured chain :=
  chain_linked ((Option.some_get _).symm.trans (congrArg some h))

def methodologyVersion (settings : Settings) (raw : MethodologyDocument) :
    Except LoadError MethodologyVersion := do
  let methodologyId ← item "methodology_version" raw.methodologyVersion
  let configuredId ← item "methodology_version" settings.methodologyVersion
  if methodologyId ≠ configuredId then
    .error (.valueError "configured methodology version does not match its authoritative YAML")
  else
    let normalizerVersion ← item "normalizer_version" settings.normalizerVersion
    let rawNormalizerVersion ← item "normalizer_version" raw.normalizerVersion
    if rawNormalizerVersion ≠ normalizerVersion then
      .error (.valueError "configured normalizer version does not match methodology YAML")
    else
      let description := "Authoritative methodology metadata for " ++ methodologyId ++ "."
      if 160 < description.length ∨ description.toList.any (fun c ↦ c = '\r' || c = '\n') then
        .error (.valueError "methodology description is not publication-safe")
      else
        let publishedAt ← item "published_at" raw.publishedAt
        if ¬ isMethodologyId unicode methodologyId then .error (.validationError "id")
        else if ¬ isNormalizerVersion unicode normalizerVersion then
          .error (.validationError "normalizer_version")
        else .ok { id := methodologyId, publishedAt, description, normalizerVersion }

/-- `dump` is `_taxonomy_payload`. -/
def TaxonomyVersion.metadata (dump : TaxonomyVersion → String) (taxonomy : TaxonomyVersion) :
    TaxonomyMetadata where
  id := taxonomy.id
  publishedAt := taxonomy.publishedAt
  previousVersion := taxonomy.previousVersion
  payload := dump taxonomy

theorem LinkedChain.ne_nil {chain : List TaxonomyVersion} (h : LinkedChain configured chain) :
    chain ≠ [] := by
  rintro rfl
  cases h.last

def loadAuthoritativeMetadata (dump : TaxonomyVersion → String) (files : ConfigurationFiles) :
    Except LoadError AuthoritativeMetadata := do
  let settings ← files.settings
  let methodologyFile ← item "methodology_file" settings.methodologyFile
  let methodologyRaw ← files.methodology methodologyFile
  let methodology ← methodologyVersion unicode settings methodologyRaw
  let taxonomyFile ← item "taxonomy_file" settings.taxonomyFile
  let (directory, name) := files.taxonomy taxonomyFile
  let configured ← loadTaxonomy unicode directory name
  if methodologyRaw.taxonomyVersion ≠ some configured.id then
    .error (.valueError "methodology taxonomy version does not match configured taxonomy")
  else
    match h : taxonomyChain unicode directory configured with
    | .error error => .error error
    | .ok chain =>
      let taxonomies := chain.map (TaxonomyVersion.metadata dump)
      have nonempty : taxonomies ≠ [] := by
        simpa [taxonomies] using (taxonomyChain_linked unicode h).ne_nil
      .ok { methodology, taxonomies, nonempty }

theorem loadAuthoritativeMetadata_chain {dump : TaxonomyVersion → String}
    {files : ConfigurationFiles} {metadata : AuthoritativeMetadata}
    (h : loadAuthoritativeMetadata unicode dump files = .ok metadata) :
    ∃ configured chain, LinkedChain configured chain ∧
      metadata.taxonomies = chain.map (TaxonomyVersion.metadata dump) := by
  obtain ⟨settings, -, h⟩ := Runs.except_bind_ok.mp h
  obtain ⟨methodologyFile, -, h⟩ := Runs.except_bind_ok.mp h
  obtain ⟨methodologyRaw, -, h⟩ := Runs.except_bind_ok.mp h
  obtain ⟨methodology, -, h⟩ := Runs.except_bind_ok.mp h
  obtain ⟨taxonomyFile, -, h⟩ := Runs.except_bind_ok.mp h
  obtain ⟨configured, -, h⟩ := Runs.except_bind_ok.mp h
  obtain ⟨-, h⟩ := Runs.except_guard_ok.mp h
  split at h
  · cases h
  next chain hchain =>
    obtain rfl := Except.ok.inj h
    exact ⟨configured, chain, taxonomyChain_linked unicode hchain, rfl⟩

theorem loaded_ids_nodup {dump : TaxonomyVersion → String} {files : ConfigurationFiles}
    {metadata : AuthoritativeMetadata}
    (h : loadAuthoritativeMetadata unicode dump files = .ok metadata) :
    (metadata.taxonomies.map (·.id)).Nodup := by
  obtain ⟨configured, chain, hchain, htaxonomies⟩ := loadAuthoritativeMetadata_chain unicode h
  rw [htaxonomies, List.map_map]
  exact hchain.ids

end Load

end AgenticSecurity.Storage
