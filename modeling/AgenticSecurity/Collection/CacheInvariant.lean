import AgenticSecurity.Collection.Cache
import AgenticSecurity.Library.Runs
import Mathlib.Data.Set.Function

namespace AgenticSecurity.Collection.Cache

open Library Python Runs

variable {τ : Type} {data : CacheData τ} {actions : List (Action τ)} {world world' : World τ}
  {process : ℕ}

def metadataOf (data : CacheData τ) (put : PutCall × τ) : Metadata τ where
  contentType := put.1.contentType
  sha256 := data.sha256 put.1.value
  storedAt := put.2

def HasBody (data : CacheData τ) (world : World τ) (key : String) (content : List UInt8) : Prop :=
  ∃ put ∈ world.puts, data.key put.1.uri = key ∧ put.1.value = content

def HasMetadata (data : CacheData τ) (world : World τ) (key : String) (metadata : Metadata τ) :
    Prop :=
  ∃ put ∈ world.puts, data.key put.1.uri = key ∧ metadataOf data put = metadata

structure FilesFit (data : CacheData τ) (world : World τ) : Prop where
  body : ∀ key content, world.files (.body key) = some content → HasBody data world key content
  metadata : ∀ key text, world.files (.metadata key) = some text →
    ∃ metadata, HasMetadata data world key metadata ∧ data.dumps metadata = text

def Stamped (data : CacheData τ) (world : World τ) (call : PutCall) (metadata : Metadata τ) :
    Prop :=
  ∃ put ∈ world.puts, put.1 = call ∧ metadataOf data put = metadata

def BodyStaged (data : CacheData τ) (world : World τ) (call : PutCall) : Prop :=
  world.files (.bodyStage (data.key call.uri) call.nonce) = some call.value

def MetadataStaged (data : CacheData τ) (world : World τ) (call : PutCall) (metadata : Metadata τ) :
    Prop :=
  world.files (.metadataStage (data.key call.uri) call.nonce) = some (data.dumps metadata)

def PutFits (data : CacheData τ) (world : World τ) (call : PutCall) : PutStage τ → Prop
  | .bodyWritten => BodyStaged data world call
  | .writingMetadata metadata => BodyStaged data world call ∧ Stamped data world call metadata
  | .metadataWritten metadata =>
    BodyStaged data world call ∧ Stamped data world call metadata ∧
    MetadataStaged data world call metadata
  | .bodyReplaced metadata => Stamped data world call metadata ∧
      MetadataStaged data world call metadata
  | _ => True

def GetFits (data : CacheData τ) (world : World τ) (uri : String) : GetStage τ → Prop
  | .bodyRead content => HasBody data world (data.key uri) content
  | .metadataRead content metadata =>
    HasBody data world (data.key uri) content ∧ HasMetadata data world (data.key uri) metadata
  | _ => True

def Called (actions : List (Action τ)) (call : PutCall) : Prop :=
  ∃ process, Action.put process call ∈ actions

def Asked (actions : List (Action τ)) (uri : String) : Prop :=
  ∃ process, Action.get process uri ∈ actions

def Timed (actions : List (Action τ)) (now : τ) : Prop :=
  ∃ process, Action.proceed process now ∈ actions

/-- The metadata that the puts of the run can compose are read back from their text. -/
def ReadsBack (data : CacheData τ) (actions : List (Action τ)) : Prop :=
  ∀ call now, Called actions call → Timed actions now →
    data.loads (data.dumps (metadataOf data (call, now))) = some (metadataOf data (call, now))

/-- `actions` are those of the whole run. -/
def ActivityFits (data : CacheData τ) (actions : List (Action τ)) (world : World τ) :
    Activity τ → Prop
  | .idle => True
  | .putting call stage => call.nonce ∈ world.nonces ∧ Called actions call ∧
      PutFits data world call stage
  | .getting uri stage => Asked actions uri ∧ GetFits data world uri stage

structure Invariant (data : CacheData τ) (actions : List (Action τ)) (world : World τ) : Prop where
  files : FilesFit data world
  known : ∀ put ∈ world.puts, Called actions put.1 ∧ Timed actions put.2
  activities : ∀ process, ActivityFits data actions world (world.activity process)
  distinct :
    ∀ process process' call call' stage stage', world.activity process = .putting call stage →
    world.activity process' = .putting call' stage' → call.nonce = call'.nonce → process = process'

/-- The process may only write the stage files of its own nonce. -/
def Holds (world : World τ) (process : ℕ) (nonce : String) : Prop :=
  ∃ call stage, world.activity process = .putting call stage ∧ call.nonce = nonce

structure Frame (world world' : World τ) (process : ℕ) : Prop where
  puts : world.puts ⊆ world'.puts
  nonces : world.nonces ⊆ world'.nonces
  others : ∀ other ≠ process, world'.activity other = world.activity other
  own : ∀ nonce, Holds world' process nonce → Holds world process nonce ∨ nonce ∉ world.nonces
  stages :
    ∀ path nonce, path.nonce = some nonce → ¬ Holds world process nonce →
    world'.files path = world.files path

theorem HasBody.mono {key : String} {content : List UInt8} (hbody : HasBody data world key content)
    (h : world.puts ⊆ world'.puts) : HasBody data world' key content := by
  obtain ⟨put, hput, hkey, hvalue⟩ := hbody
  exact ⟨put, h hput, hkey, hvalue⟩

theorem HasMetadata.mono {key : String} {metadata : Metadata τ}
    (hmetadata : HasMetadata data world key metadata) (h : world.puts ⊆ world'.puts) :
    HasMetadata data world' key metadata := by
  obtain ⟨put, hput, hkey, hof⟩ := hmetadata
  exact ⟨put, h hput, hkey, hof⟩

theorem Stamped.mono {call : PutCall} {metadata : Metadata τ}
    (hstamped : Stamped data world call metadata) (h : world.puts ⊆ world'.puts) :
    Stamped data world' call metadata := by
  obtain ⟨put, hput, hcall, hof⟩ := hstamped
  exact ⟨put, h hput, hcall, hof⟩

theorem FilesFit.mono (hfiles : FilesFit data world) (h : world.puts ⊆ world'.puts)
    (hsame : ∀ path : CachePath, path.nonce = none → world'.files path = world.files path) :
    FilesFit data world' := by
  constructor
  · intro key content hcontent
    rw [hsame _ rfl] at hcontent
    exact (hfiles.body key content hcontent).mono h
  · intro key text htext
    rw [hsame _ rfl] at htext
    obtain ⟨metadata, hmetadata, hdumps⟩ := hfiles.metadata key text htext
    exact ⟨metadata, hmetadata.mono h, hdumps⟩

theorem ActivityFits.other (hinv : Invariant data actions world)
    (h : Frame world world' process) {other : ℕ} (hother : other ≠ process) :
    ActivityFits data actions world' (world'.activity other) := by
  have hfits := hinv.activities other
  rw [h.others other hother]
  cases hactivity : world.activity other with
  | idle => trivial
  | getting uri stage =>
    rw [hactivity] at hfits
    refine ⟨hfits.1, ?_⟩
    have hget := hfits.2
    cases stage with
    | bodyRead content => exact HasBody.mono hget h.puts
    | metadataRead content metadata => exact ⟨hget.1.mono h.puts, hget.2.mono h.puts⟩
    | _ => trivial
  | putting call stage =>
    rw [hactivity] at hfits
    obtain ⟨hnonce, hcalled, hput⟩ := hfits
    have hfree : ¬ Holds world process call.nonce := by
      intro ⟨call', stage', hprocess, hsame⟩
      exact hother (hinv.distinct other process call call' stage stage' hactivity
        hprocess hsame.symm)
    have hbody := h.stages (.bodyStage (data.key call.uri) call.nonce) call.nonce rfl hfree
    have hmetadata := h.stages (.metadataStage (data.key call.uri) call.nonce) call.nonce rfl hfree
    refine ⟨h.nonces hnonce, hcalled, ?_⟩
    cases stage with
    | bodyWritten => exact hbody.trans hput
    | writingMetadata metadata => exact ⟨hbody.trans hput.1, hput.2.mono h.puts⟩
    | metadataWritten metadata =>
      exact ⟨hbody.trans hput.1, hput.2.1.mono h.puts, hmetadata.trans hput.2.2⟩
    | bodyReplaced metadata => exact ⟨hput.1.mono h.puts, hmetadata.trans hput.2⟩
    | _ => trivial

theorem Invariant.holds_unique (hinv : Invariant data actions world) {first second : ℕ}
    {nonce : String} (hfirst : Holds world first nonce) (hsecond : Holds world second nonce) :
    first = second := by
  obtain ⟨call, stage, hcall, rfl⟩ := hfirst
  obtain ⟨call', stage', hcall', hsame⟩ := hsecond
  exact hinv.distinct first second call call' stage stage' hcall hcall' hsame.symm

theorem Invariant.holds_known (hinv : Invariant data actions world) {nonce : String}
    (h : Holds world process nonce) :
    nonce ∈ world.nonces := by
  obtain ⟨call, stage, hcall, rfl⟩ := h
  have hfits := hinv.activities process
  rw [hcall] at hfits
  exact hfits.1

theorem Frame.holds_other (h : Frame world world' process) {other : ℕ} {nonce : String}
    (hother : other ≠ process) :
    Holds world' other nonce ↔ Holds world other nonce := by
  rw [Holds, h.others other hother, Holds]

theorem Frame.distinct (hinv : Invariant data actions world) (h : Frame world world' process)
    {first second : ℕ} {nonce : String} (hfirst : Holds world' first nonce)
    (hsecond : Holds world' second nonce) : first = second := by
  have hown {other : ℕ} (hother : other ≠ process) (hheld : Holds world' other nonce)
      (hnew : Holds world' process nonce) :
      other = process := by
    rw [h.holds_other hother] at hheld
    rcases h.own nonce hnew with hold | hfresh
    · exact hinv.holds_unique hheld hold
    · exact absurd (hinv.holds_known hheld) hfresh
  by_cases hf : first = process
  · subst hf
    by_cases hs : second = first
    · exact hs.symm
    · exact (hown hs hsecond hfirst).symm
  · by_cases hs : second = process
    · subst hs
      exact hown hf hfirst hsecond
    · exact hinv.holds_unique ((h.holds_other hf).mp hfirst) ((h.holds_other hs).mp hsecond)

theorem Invariant.of_frame (hinv : Invariant data actions world) (h : Frame world world' process)
    (hfiles : FilesFit data world')
    (hknown : ∀ put ∈ world'.puts, Called actions put.1 ∧ Timed actions put.2)
    (hown : ActivityFits data actions world' (world'.activity process)) :
    Invariant data actions world' where
  files := hfiles
  known := hknown
  activities other := by
    by_cases hother : other = process
    · exact hother ▸ hown
    · exact ActivityFits.other hinv h hother
  distinct first second call call' stage stage' hfirst hsecond hsame :=
    h.distinct hinv ⟨call, stage, hfirst, rfl⟩ ⟨call', stage', hsecond, hsame.symm⟩

@[simp] theorem set_activity (activity : Activity τ) :
    (world.set process activity).activity process = activity :=
  Function.update_self ..

@[simp] theorem writeFile_self (path : CachePath) (content : Option (List UInt8)) :
    (world.writeFile path content).files path = content := Function.update_self ..

theorem writeFile_of_ne {path other : CachePath} (h : other ≠ path)
    (content : Option (List UInt8)) :
    (world.writeFile path content).files other = world.files other := Function.update_of_ne h _ _

theorem replace_eq {source : CachePath} {content : List UInt8}
    (h : world.files source = some content) (target : CachePath) (call : PutCall)
    (stage : PutStage τ) : world.replace process source target call stage =
      ((world.set process (.putting call stage)).writeFile target content).writeFile
        source none := by
  rw [World.replace, h]
  rfl

theorem holds_set {activity : Activity τ} {nonce : String} :
    Holds (world.set process activity) process nonce ↔
    ∃ call stage, activity = .putting call stage ∧ call.nonce = nonce := by
  simp [Holds]

theorem frame_set {activity : Activity τ}
    (hown : ∀ call stage, activity = .putting call stage → Holds world process call.nonce) :
    Frame world (world.set process activity) process where
  puts := List.Subset.refl _
  nonces := List.Subset.refl _
  others other hother := Function.update_of_ne hother _ _
  own nonce hnonce := by
    obtain ⟨call, stage, hactivity, rfl⟩ := holds_set.mp hnonce
    exact .inl (hown call stage hactivity)
  stages _ _ _ _ := rfl

theorem Frame.writeFile (h : Frame world world' process) {nonce : String}
    (hholds : Holds world process nonce) {path : CachePath}
    (hpath : path.nonce = none ∨ path.nonce = some nonce) (content : Option (List UInt8)) :
    Frame world (world'.writeFile path content) process where
  puts := h.puts
  nonces := h.nonces
  others := h.others
  own := h.own
  stages other nonce' hother hfree := by
    have hne : other ≠ path := by
      rintro rfl
      rcases hpath with hnone | hsome
      · rw [hnone] at hother
        cases hother
      · rw [hsome] at hother
        exact hfree (Option.some.inj hother ▸ hholds)
    exact (Function.update_of_ne hne _ _).trans (h.stages other nonce' hother hfree)

theorem Invariant.set (hinv : Invariant data actions world) {activity : Activity τ}
    (hown : ∀ call stage, activity = .putting call stage → Holds world process call.nonce)
    (hfits : ActivityFits data actions world activity) :
    Invariant data actions (world.set process activity) := by
  refine hinv.of_frame (frame_set hown) (hinv.files.mono (List.Subset.refl _) fun _ _ ↦ rfl)
    hinv.known ?_
  rw [set_activity]
  exact hfits

theorem Invariant.writeStage (hinv : Invariant data actions world) {call : PutCall}
    {stage : PutStage τ} (hactive : world.activity process = .putting call stage) {path : CachePath}
    (hpath : path.nonce = some call.nonce)
    (content : Option (List UInt8)) {activity : Activity τ}
    (hown : ∀ call' stage', activity = .putting call' stage' → call' = call)
    (hfits : ActivityFits data actions
      ((world.set process activity).writeFile path content) activity) :
    Invariant data actions ((world.set process activity).writeFile path content) := by
  have hholds : Holds world process call.nonce := ⟨call, stage, hactive, rfl⟩
  have hframe : Frame world (world.set process activity) process :=
    frame_set fun call' stage' h ↦ hown call' stage' h ▸ hholds
  refine hinv.of_frame (hframe.writeFile hholds (.inr hpath) content) ?_ hinv.known ?_
  · refine hinv.files.mono (List.Subset.refl _) fun other hother ↦ ?_
    have hne : other ≠ path := by
      rintro rfl
      rw [hother] at hpath
      cases hpath
    exact Function.update_of_ne hne _ _
  · have hsame : ((world.set process activity).writeFile path content).activity process =
        activity := set_activity activity
    rw [hsame]
    exact hfits

theorem Invariant.replace (hinv : Invariant data actions world) {call : PutCall}
    {stage next : PutStage τ} (hactive : world.activity process = .putting call stage)
    {source target : CachePath} {content : List UInt8}
    (hsource : source.nonce = some call.nonce) (htarget : target.nonce = none)
    (hcontent : world.files source = some content)
    (hfiles : FilesFit data (world.writeFile target content))
    (hfits : ActivityFits data actions
      (((world.set process (.putting call next)).writeFile target content).writeFile source none)
        (.putting call next)) :
    Invariant data actions (world.replace process source target call next) := by
  have hholds : Holds world process call.nonce := ⟨call, stage, hactive, rfl⟩
  rw [replace_eq hcontent]
  have hframe : Frame world (world.set process (.putting call next)) process :=
    frame_set fun call' stage' h ↦ (Activity.putting.inj h).1 ▸ hholds
  refine hinv.of_frame ((hframe.writeFile hholds (.inl htarget) content).writeFile hholds
    (.inr hsource) none) ?_
    hinv.known ?_
  · refine hfiles.mono (List.Subset.refl _) fun other hother ↦ ?_
    have hne : other ≠ source := by
      rintro rfl
      rw [hother] at hsource
      cases hsource
    exact writeFile_of_ne hne _
  · have hsame :
        (((world.set process (.putting call next)).writeFile target content).writeFile source
          none).activity process =
        .putting call next := set_activity _
    rw [hsame]
    exact hfits

theorem FilesFit.writeBody (hfiles : FilesFit data world) {call : PutCall} {metadata : Metadata τ}
    (hstamped : Stamped data world call metadata) :
    FilesFit data (world.writeFile (.body (data.key call.uri)) call.value) := by
  constructor
  · intro key content hcontent
    by_cases hkey : key = data.key call.uri
    · obtain ⟨put, hput, rfl, -⟩ := hstamped
      rw [hkey, writeFile_self] at hcontent
      exact ⟨put, hput, hkey.symm, Option.some.inj hcontent⟩
    · rw [writeFile_of_ne (fun h ↦ hkey (CachePath.body.inj h))] at hcontent
      exact hfiles.body key content hcontent
  · intro key text htext
    rw [writeFile_of_ne (by simp)] at htext
    exact hfiles.metadata key text htext

theorem FilesFit.writeMetadata (hfiles : FilesFit data world) {call : PutCall}
    {metadata : Metadata τ} (hstamped : Stamped data world call metadata) :
    FilesFit data (world.writeFile (.metadata (data.key call.uri)) (data.dumps metadata)) := by
  constructor
  · intro key content hcontent
    rw [writeFile_of_ne (by simp)] at hcontent
    exact hfiles.body key content hcontent
  · intro key text htext
    by_cases hkey : key = data.key call.uri
    · obtain ⟨put, hput, rfl, hof⟩ := hstamped
      rw [hkey, writeFile_self] at htext
      exact ⟨metadata, ⟨put, hput, hkey.symm, hof⟩, Option.some.inj htext⟩
    · rw [writeFile_of_ne (fun h ↦ hkey (CachePath.metadata.inj h))] at htext
      exact hfiles.metadata key text htext

theorem Invariant.stamp (hinv : Invariant data actions world) {call : PutCall}
    {stage next : PutStage τ} {now : τ} (hactive : world.activity process = .putting call stage)
    (hcalled : Called actions call)
    (htimed : Timed actions now)
    (hfits : ActivityFits data actions { world.set process (.putting call next) with puts :=
        world.puts ++ [(call, now)] }
      (.putting call next)) :
    Invariant data actions { world.set process (.putting call next) with puts :=
        world.puts ++ [(call, now)] } := by
  have hholds : Holds world process call.nonce := ⟨call, stage, hactive, rfl⟩
  have hframe : Frame world (world.set process (.putting call next)) process :=
    frame_set fun call' stage' h ↦ (Activity.putting.inj h).1 ▸ hholds
  have hframe' :
      Frame world { world.set process (.putting call next) with puts :=
        world.puts ++ [(call, now)] } process :=
    { hframe with puts := List.subset_append_left _ _ }
  refine hinv.of_frame hframe' (hinv.files.mono (List.subset_append_left _ _) fun _ _ ↦ rfl) ?_ ?_
  · intro put hput
    rcases List.mem_append.mp hput with hold | hnew
    · exact hinv.known put hold
    · obtain rfl := List.mem_singleton.mp hnew
      exact ⟨hcalled, htimed⟩
  · have hsame :
        (World.activity { world.set process (.putting call next) with puts :=
          world.puts ++ [(call, now)] }) process =
        .putting call next := set_activity _
    rw [hsame]
    exact hfits

theorem Invariant.proceedPut (hinv : Invariant data actions world) {call : PutCall}
    {stage : PutStage τ} {now : τ} (htimed : Timed actions now)
    (hactive : world.activity process = .putting call stage) :
    Invariant data actions (world.proceedPut data process call now stage) := by
  have hfits := hinv.activities process
  rw [hactive] at hfits
  obtain ⟨hnonce, hcalled, hput⟩ := hfits
  have hown (stage' : PutStage τ) :
      ∀ call' stage'', Activity.putting call stage' = .putting call' stage'' → call' = call :=
    fun _ _ h ↦ (Activity.putting.inj h).1.symm
  cases stage with
  | writingBody =>
    exact hinv.writeStage hactive rfl _ (hown _) ⟨hnonce, hcalled, writeFile_self ..⟩
  | bodyWritten =>
    refine hinv.stamp hactive hcalled htimed ⟨hnonce, hcalled, hput, (call, now), ?_, rfl, rfl⟩
    exact List.mem_append_right _ (List.mem_singleton_self _)
  | writingMetadata metadata =>
    refine hinv.writeStage hactive rfl _ (hown _) ⟨hnonce, hcalled, ?_, hput.2, writeFile_self ..⟩
    exact (writeFile_of_ne (by simp) _).trans hput.1
  | metadataWritten metadata =>
    obtain ⟨hbody, hstamped, hmetadata⟩ := hput
    refine hinv.replace hactive rfl rfl hbody (hinv.files.writeBody hstamped) ⟨hnonce, hcalled,
      hstamped, ?_⟩
    rw [MetadataStaged, writeFile_of_ne (by simp), writeFile_of_ne (by simp)]
    exact hmetadata
  | bodyReplaced metadata =>
    obtain ⟨hstamped, hmetadata⟩ := hput
    exact hinv.replace hactive rfl rfl hmetadata (hinv.files.writeMetadata hstamped) ⟨hnonce,
      hcalled, trivial⟩
  | cleaning =>
    exact hinv.writeStage hactive rfl _ (hown _) ⟨hnonce, hcalled, trivial⟩
  | bodyUnlinked =>
    exact hinv.writeStage hactive rfl _ (fun _ _ h ↦ nomatch h) trivial

theorem Invariant.answer (hinv : Invariant data actions world) (uri : String)
    (response : Option (Response τ)) :
    Invariant data actions (world.answer process uri response) := by
  have hframe : Frame world (world.set process .idle) process := frame_set fun _ _ h ↦ nomatch h
  have hframe' : Frame world (world.answer process uri response) process :=
    ⟨hframe.puts, hframe.nonces, hframe.others, hframe.own, hframe.stages⟩
  refine hinv.of_frame hframe' (hinv.files.mono (List.Subset.refl _) fun _ _ ↦ rfl) hinv.known ?_
  have hidle : (world.answer process uri response).activity process = .idle := set_activity _
  rw [hidle]
  trivial

theorem Invariant.getting (hinv : Invariant data actions world) {uri : String} {stage : GetStage τ}
    (hasked : Asked actions uri) (hfits : GetFits data world uri stage) :
    Invariant data actions (world.set process (.getting uri stage)) := by
  refine hinv.set (fun _ _ h ↦ nomatch h) ⟨hasked, ?_⟩
  exact hfits

theorem set_self {activity : Activity τ} (h : world.activity process = activity) :
    world.set process activity = world := by
  rw [World.set, ← h, Function.update_eq_self]

theorem Invariant.put (hinv : Invariant data actions world) {call : PutCall}
    (hcalled : Called actions call) (hnonce : call.nonce ∉ world.nonces) :
    Invariant data actions { world.set process (.putting call .writingBody) with nonces :=
        call.nonce :: world.nonces } := by
  have hactivity : World.activity { world.set process (.putting call .writingBody) with
      nonces := call.nonce :: world.nonces } process = .putting call .writingBody := set_activity _
  have hframe :
      Frame world { world.set process (.putting call .writingBody) with nonces :=
        call.nonce :: world.nonces }
      process := by
    refine ⟨List.Subset.refl _, List.subset_cons_self _ _,
      fun other hother ↦ Function.update_of_ne hother _ _, ?_, fun _ _ _ _ ↦ rfl⟩
    intro nonce ⟨call', stage, hcall, hsame⟩
    rw [hactivity] at hcall
    obtain ⟨rfl, -⟩ := Activity.putting.inj hcall
    exact .inr (hsame ▸ hnonce)
  refine hinv.of_frame hframe (hinv.files.mono (List.Subset.refl _) fun _ _ ↦ rfl) hinv.known ?_
  rw [hactivity]
  exact ⟨List.mem_cons_self, hcalled, trivial⟩

theorem Invariant.write (hinv : Invariant data actions world) {call : PutCall} {stage : PutStage τ}
    (hactive : world.activity process = .putting call stage) {path : CachePath}
    (hpath : path.nonce = some call.nonce)
    (bytes : List UInt8) (hput : PutFits data (world.writeFile path bytes) call stage) :
    Invariant data actions (world.writeFile path bytes) := by
  have hfits := hinv.activities process
  rw [hactive] at hfits
  have hsame : world.writeFile path bytes =
      (world.set process (.putting call stage)).writeFile path bytes := by
    rw [set_self hactive]
  rw [hsame] at hput ⊢
  exact hinv.writeStage hactive hpath _ (fun _ _ h ↦ (Activity.putting.inj h).1.symm)
    ⟨hfits.1, hfits.2.1, hput⟩

theorem Invariant.fail (hinv : Invariant data actions world) {call : PutCall} {stage : PutStage τ}
    (hactive : world.activity process = .putting call stage) :
    Invariant data actions (world.set process (.putting call .cleaning)) := by
  have hfits := hinv.activities process
  rw [hactive] at hfits
  refine hinv.set ?_ ⟨hfits.1, hfits.2.1, trivial⟩
  intro call' stage' h
  exact ⟨call, stage, hactive, by rw [(Activity.putting.inj h).1]⟩

theorem Invariant.idle (hinv : Invariant data actions world) :
    Invariant data actions (world.set process .idle) :=
  hinv.set (fun _ _ h ↦ nomatch h) trivial

section Step

variable [Sub τ] [LT τ] [DecidableLT τ]

theorem Invariant.proceedGet (hinv : Invariant data actions world)
    (hjson : ReadsBack data actions) {uri : String} {stage : GetStage τ} (now : τ)
    (hactive : world.activity process = .getting uri stage) :
    Invariant data actions (world.proceedGet data process uri now stage) := by
  have hfits := hinv.activities process
  rw [hactive] at hfits
  obtain ⟨hasked, hget⟩ := hfits
  unfold World.proceedGet
  cases stage with
  | started =>
    dsimp only
    split_ifs
    · exact hinv.getting hasked trivial
    · exact hinv.answer uri none
  | bodyFound =>
    dsimp only
    split_ifs
    · exact hinv.getting hasked trivial
    · exact hinv.answer uri none
  | bothFound =>
    dsimp only
    cases hbody : world.files (.body (data.key uri)) with
    | none => exact hinv.answer uri none
    | some content => exact hinv.getting hasked (hinv.files.body _ _ hbody)
  | bodyRead content =>
    dsimp only
    cases htext : world.files (.metadata (data.key uri)) with
    | none => exact hinv.answer uri none
    | some text =>
      obtain ⟨metadata, ⟨put, hput, hkey, rfl⟩, rfl⟩ := hinv.files.metadata _ _ htext
      obtain ⟨hcalled, htimed⟩ := hinv.known put hput
      rw [Option.bind_some, hjson put.1 put.2 hcalled htimed]
      exact hinv.getting hasked ⟨hget, put, hput, hkey, rfl⟩
  | metadataRead content metadata =>
    dsimp only
    split_ifs
    · exact hinv.answer uri none
    · exact hinv.answer uri none
    · exact hinv.answer uri _

inductive StepCase (data : CacheData τ) (world : World τ) : Action τ → World τ → Prop
  | put (process : ℕ) (call : PutCall) (hnonce : call.nonce ∉ world.nonces) :
    StepCase data world (.put process call)
      { world.set process (.putting call .writingBody) with nonces := call.nonce :: world.nonces }
  | get (process : ℕ) (uri : String) :
      StepCase data world (.get process uri) (world.set process (.getting uri .started))
  | proceedPut (process : ℕ) (now : τ) (call : PutCall) (stage : PutStage τ)
    (hactive : world.activity process = .putting call stage) :
    StepCase data world (.proceed process now) (world.proceedPut data process call now stage)
  | proceedGet (process : ℕ) (now : τ) (uri : String) (stage : GetStage τ)
    (hactive : world.activity process = .getting uri stage) :
    StepCase data world (.proceed process now) (world.proceedGet data process uri now stage)
  | writeBody (process : ℕ) (bytes : List UInt8) (call : PutCall)
    (hactive : world.activity process = .putting call .writingBody) :
    StepCase data world (.write process bytes)
      (world.writeFile (.bodyStage (data.key call.uri) call.nonce) bytes)
  | writeMetadata (process : ℕ) (bytes : List UInt8) (call : PutCall) (metadata : Metadata τ)
    (hactive : world.activity process = .putting call (.writingMetadata metadata)) :
    StepCase data world (.write process bytes)
      (world.writeFile (.metadataStage (data.key call.uri) call.nonce) bytes)
  | failPut (process : ℕ) (call : PutCall) (stage : PutStage τ)
    (hactive : world.activity process = .putting call stage) :
    StepCase data world (.fail process) (world.set process (.putting call .cleaning))
  | failGet (process : ℕ) (uri : String) :
    StepCase data world (.fail process) (world.answer process uri none)
  | raise (process : ℕ) : StepCase data world (.fail process) (world.set process .idle)
  | crash (process : ℕ) : StepCase data world (.crash process) (world.set process .idle)

theorem step_cases {action : Action τ} (hstep : world.step data action = some world') :
    StepCase data world action world' := by
  cases action with
  | put process call =>
    simp only [World.step] at hstep
    split at hstep
    · split_ifs at hstep with hnonce
      exact Option.some.inj hstep ▸ .put process call hnonce
    · cases hstep
  | get process uri =>
    simp only [World.step] at hstep
    split at hstep
    · exact Option.some.inj hstep ▸ .get process uri
    · cases hstep
  | proceed process now =>
    simp only [World.step] at hstep
    split at hstep
    next => cases hstep
    next call stage hactive =>
      exact Option.some.inj hstep ▸ .proceedPut process now call stage hactive
    next uri stage hactive =>
      exact Option.some.inj hstep ▸ .proceedGet process now uri stage hactive
  | write process bytes =>
    simp only [World.step] at hstep
    split at hstep
    next call hactive => exact Option.some.inj hstep ▸ .writeBody process bytes call hactive
    next call metadata hactive =>
      exact Option.some.inj hstep ▸ .writeMetadata process bytes call metadata hactive
    · cases hstep
  | fail process =>
    simp only [World.step] at hstep
    split at hstep
    next => cases hstep
    next => exact Option.some.inj hstep ▸ .raise process
    next => exact Option.some.inj hstep ▸ .raise process
    next call stage _ _ hactive => exact Option.some.inj hstep ▸ .failPut process call stage hactive
    next uri _ => exact Option.some.inj hstep ▸ .failGet process uri
    next uri _ _ => exact Option.some.inj hstep ▸ .failGet process uri
    next => cases hstep
    next => exact Option.some.inj hstep ▸ .raise process
  | crash process => exact Option.some.inj hstep ▸ .crash process

theorem Invariant.step (hinv : Invariant data actions world) (hjson : ReadsBack data actions)
    {action : Action τ} (haction : action ∈ actions)
    (hstep : world.step data action = some world') : Invariant data actions world' := by
  cases step_cases hstep with
  | put process call hnonce => exact hinv.put ⟨process, haction⟩ hnonce
  | get process uri => exact hinv.getting ⟨process, haction⟩ trivial
  | proceedPut process now call stage hactive => exact hinv.proceedPut ⟨process, haction⟩ hactive
  | proceedGet process now uri stage hactive => exact hinv.proceedGet hjson now hactive
  | writeBody process bytes call hactive => exact hinv.write hactive rfl bytes trivial
  | writeMetadata process bytes call metadata hactive =>
    have hfits := hinv.activities process
    rw [hactive] at hfits
    obtain ⟨-, -, hbody, hstamped⟩ := hfits
    exact hinv.write hactive rfl bytes ⟨(writeFile_of_ne (by simp) _).trans hbody, hstamped⟩
  | failPut process call stage hactive => exact hinv.fail hactive
  | failGet process uri => exact hinv.answer uri none
  | raise process => exact hinv.idle
  | crash process => exact hinv.idle

/-- The response is of one put on the URI, and was not too old at the time that was read. -/
def Genuine (data : CacheData τ) (actions : List (Action τ)) (world : World τ) (uri : String)
    (response : Response τ) :
    Prop :=
  ∃ put ∈ world.puts, Called actions put.1 ∧ put.1.uri = uri ∧ put.1.value = response.content ∧
    put.1.contentType = response.contentType ∧
    ∀ maxAge ∈ data.maxAgeSeconds, ¬ maxAge < response.readAt - put.2

/-- The texts of the run of which a hash is taken. -/
def hashedTexts (actions : List (Action τ)) : Set (List UInt8) :=
  {text | (∃ call, Called actions call ∧ (text = encodeUtf8 call.uri ∨ text = call.value)) ∨
    ∃ uri, Asked actions uri ∧ text = encodeUtf8 uri}

theorem encodeUtf8_injective : Function.Injective encodeUtf8 := by
  intro text text' h
  have hbytes : text.toByteArray.data = text'.toByteArray.data := Array.toList_inj.mp h
  exact String.toByteArray_inj.mp (ByteArray.ext hbytes)

theorem Invariant.genuine (hinv : Invariant data actions world)
    (hsha : Set.InjOn data.sha256 (hashedTexts actions)) {uri : String} {content : List UInt8}
    {metadata : Metadata τ} {now : τ}
    (hactive : world.activity process = .getting uri (.metadataRead content metadata))
    (hexpired : World.expired data now metadata = false)
    (hhash : data.sha256 content = metadata.sha256) :
    Genuine data actions world uri
      { content, contentType := metadata.contentType, readAt := now } := by
  have hfits := hinv.activities process
  rw [hactive] at hfits
  obtain ⟨hasked, ⟨written, hwritten, -, rfl⟩, ⟨put, hput, hkey, rfl⟩⟩ := hfits
  have hcalled := (hinv.known put hput).1
  have huri : put.1.uri = uri :=
    encodeUtf8_injective (hsha (.inl ⟨put.1, hcalled, .inl rfl⟩) (.inr ⟨uri, hasked, rfl⟩) hkey)
  have hvalue : put.1.value = written.1.value :=
    hsha (.inl ⟨put.1, hcalled, .inr rfl⟩)
      (.inl ⟨written.1, (hinv.known written hwritten).1, .inr rfl⟩) hhash.symm
  refine ⟨put, hput, hcalled, huri, hvalue, rfl, fun maxAge hmaxAge hlt ↦ ?_⟩
  rw [World.expired, Option.mem_def.mp hmaxAge, Option.any_some,
    decide_eq_false_iff_not] at hexpired
  exact hexpired hlt

omit [Sub τ] [LT τ] [DecidableLT τ] in
theorem World.replace_returns (world : World τ) (process : ℕ) (source target : CachePath)
    (call : PutCall) (stage : PutStage τ) :
    (world.replace process source target call stage).puts = world.puts ∧
      (world.replace process source target call stage).returns = world.returns := by
  unfold World.replace
  split <;> exact ⟨rfl, rfl⟩

omit [Sub τ] [LT τ] [DecidableLT τ] in
theorem World.proceedPut_returns (data : CacheData τ) (world : World τ) (process : ℕ)
    (call : PutCall) (now : τ) (stage : PutStage τ) :
    world.puts ⊆ (world.proceedPut data process call now stage).puts ∧
      (world.proceedPut data process call now stage).returns = world.returns := by
  cases stage with
  | bodyWritten => exact ⟨List.subset_append_left _ _, rfl⟩
  | metadataWritten metadata =>
    obtain ⟨hputs, hreturns⟩ :=
      world.replace_returns process (.bodyStage (data.key call.uri) call.nonce)
      (.body (data.key call.uri)) call (.bodyReplaced metadata)
    exact ⟨hputs ▸ List.Subset.refl _, hreturns⟩
  | bodyReplaced metadata =>
    obtain ⟨hputs, hreturns⟩ :=
      world.replace_returns process (.metadataStage (data.key call.uri) call.nonce)
      (.metadata (data.key call.uri)) call .cleaning
    exact ⟨hputs ▸ List.Subset.refl _, hreturns⟩
  | _ => exact ⟨List.Subset.refl _, rfl⟩

inductive Answers (data : CacheData τ) (world world' : World τ) : Prop
  | same (h : world'.returns = world.returns)
  | miss (uri : String) (h : world'.returns = world.returns ++ [(uri, none)])
  | hit (process : ℕ) (uri : String) (content : List UInt8) (metadata : Metadata τ) (now : τ)
      (hactive : world.activity process = .getting uri (.metadataRead content metadata))
      (hexpired : World.expired data now metadata = false)
      (hhash : data.sha256 content = metadata.sha256)
      (h : world'.returns = world.returns ++
        [(uri, some { content, contentType := metadata.contentType, readAt := now })])

theorem proceedGet_returns {uri : String} {stage : GetStage τ} (now : τ)
    (hactive : world.activity process = .getting uri stage) :
    (world.proceedGet data process uri now stage).puts = world.puts ∧
      Answers data world (world.proceedGet data process uri now stage) := by
  unfold World.proceedGet
  cases stage with
  | started | bodyFound =>
    dsimp only
    split_ifs
    · exact ⟨rfl, .same rfl⟩
    · exact ⟨rfl, .miss uri rfl⟩
  | bothFound | bodyRead content =>
    dsimp only
    split
    · exact ⟨rfl, .miss uri rfl⟩
    · exact ⟨rfl, .same rfl⟩
  | metadataRead content metadata =>
    dsimp only
    split_ifs with hexpired hhash
    · exact ⟨rfl, .miss uri rfl⟩
    · exact ⟨rfl, .miss uri rfl⟩
    · exact ⟨rfl, .hit process uri content metadata now hactive (Bool.not_eq_true _ ▸
        hexpired) (not_not.mp hhash) rfl⟩

theorem step_returns {action : Action τ} (hstep : world.step data action = some world') :
    world.puts ⊆ world'.puts ∧ Answers data world world' := by
  cases step_cases hstep with
  | proceedPut process now call stage hactive =>
    obtain ⟨hputs, hreturns⟩ := world.proceedPut_returns data process call now stage
    exact ⟨hputs, .same hreturns⟩
  | proceedGet process now uri stage hactive =>
    obtain ⟨hputs, hanswers⟩ := proceedGet_returns now hactive
    exact ⟨hputs ▸ List.Subset.refl _, hanswers⟩
  | failGet process uri => exact ⟨List.Subset.refl _, .miss uri rfl⟩
  | _ => exact ⟨List.Subset.refl _, .same rfl⟩

omit [DecidableLT τ] in
theorem Genuine.mono {uri : String} {response : Response τ}
    (hgenuine : Genuine data actions world uri response) (h : world.puts ⊆ world'.puts) :
    Genuine data actions world' uri response := by
  obtain ⟨put, hput, hrest⟩ := hgenuine
  exact ⟨put, h hput, hrest⟩

/-- Whatever the processes do and where they end, a get returns nothing or the content and the
content type of one put on its URI that was not too old. -/
theorem cache_returns_one_put (data : CacheData τ) (actions : List (Action τ)) (world : World τ)
    (hsha : Set.InjOn data.sha256 (hashedTexts actions))
    (hjson : ReadsBack data actions)
    (hrun : exec (World.step data) {} actions = some world) :
    ∀ uri response, (uri, some response) ∈ world.returns →
      Genuine data actions world uri response := by
  have hstart : Invariant data actions {} :=
    ⟨⟨fun _ _ h ↦ (nomatch h), fun _ _ h ↦ (nomatch h)⟩,
      fun _ h ↦ absurd h List.not_mem_nil, fun _ ↦ trivial, fun _ _ _ _ _ _ h ↦ (nomatch h)⟩
  have hinvariant :
      ∀ visited, Visits (World.step data) {} actions visited → Invariant data actions visited ∧
      ∀ uri response, (uri, some response) ∈ visited.returns →
        Genuine data actions visited uri response := by
    refine visits_invariant _ ⟨hstart, fun _ _ h ↦ absurd h List.not_mem_nil⟩ ?_
    intro world action world' htakes ⟨hinv, hreturns⟩ hstep
    obtain ⟨pre, hpre, -⟩ := htakes
    have haction : action ∈ actions :=
      hpre.subset (List.mem_append_right _ (List.mem_singleton_self _))
    refine ⟨hinv.step hjson haction hstep, ?_⟩
    obtain ⟨hputs, hanswers⟩ := step_returns hstep
    intro uri response hresponse
    have hold (hmem : (uri, some response) ∈ world.returns) :
        Genuine data actions world' uri response :=
      (hreturns uri response hmem).mono hputs
    cases hanswers with
    | same h => exact hold (h ▸ hresponse)
    | miss other h =>
      rw [h, List.mem_append] at hresponse
      exact hold (hresponse.resolve_right (by simp))
    | hit process other content metadata now hactive hexpired hhash h =>
      rw [h, List.mem_append] at hresponse
      rcases hresponse with hmem | hnew
      · exact hold hmem
      · obtain ⟨rfl, hsome⟩ := Prod.mk.inj (List.mem_singleton.mp hnew)
        obtain rfl := Option.some.inj hsome
        exact (hinv.genuine hsha hactive hexpired hhash).mono hputs
  exact (hinvariant world (visits_end hrun)).2

end Step

def vendorMetadata : Metadata ℤ where
  contentType := "text/plain"
  sha256 := "559aead08264d5795d3909718cdd05abd49572e84fe55590eef31a88a08fdffd"
  storedAt := 1767225600

def metadataText (metadata : Metadata ℤ) : List UInt8 :=
  encodeUtf8 ("\x7b\"content_type\": \"" ++ metadata.contentType ++ "\", \"sha256\": \"" ++
    metadata.sha256 ++
    "\", \"stored_at\": " ++ toString metadata.storedAt ++ "\x7d")

def vendorData : CacheData ℤ where
  sha256 text :=
    if text = encodeUtf8 "A" then "559aead08264d5795d3909718cdd05abd49572e84fe55590eef31a88a08fdffd"
    else "e3c650b1178b318acdab55371d037b6e66aa1e22b9cb4c51d4f599076de57bab"
  dumps := metadataText
  loads text := if text = metadataText vendorMetadata then some vendorMetadata else none
  maxAgeSeconds := some 3600

def vendorPut : PutCall where
  uri := "https://vendor.example/"
  value := encodeUtf8 "A"
  contentType := "text/plain"
  nonce := "5d4140f1c7a94d0e8b9a3c2f6e7d8a90"

def vendorActions : List (Action ℤ) :=
  .put 0 vendorPut :: List.replicate 5 (.proceed 0 1767225600) ++
    .get 1 "https://vendor.example/" :: List.replicate 5 (.proceed 1 1767225600)

def vendorResponse : Response ℤ where
  content := encodeUtf8 "A"
  contentType := "text/plain"
  readAt := 1767225600

theorem loads_vendorMetadata :
    vendorData.loads (vendorData.dumps vendorMetadata) = some vendorMetadata := by
  simp only [vendorData, if_true]

theorem called_vendorActions {call : PutCall} (h : Called vendorActions call) :
    call = vendorPut := by
  obtain ⟨process, h⟩ := h
  simp [vendorActions] at h
  exact h.2

theorem asked_vendorActions {uri : String} (h : Asked vendorActions uri) :
    uri = "https://vendor.example/" := by
  obtain ⟨process, h⟩ := h
  simp [vendorActions] at h
  exact h.2

theorem timed_vendorActions {now : ℤ} (h : Timed vendorActions now) : now = 1767225600 := by
  obtain ⟨process, h⟩ := h
  simp [vendorActions] at h
  omega

set_option maxRecDepth 4000 in
theorem cache_returns_one_put_vendorActions :
    ∃ world, exec (World.step vendorData) {} vendorActions = some world ∧
      ("https://vendor.example/", some vendorResponse) ∈ world.returns ∧
      Genuine vendorData vendorActions world "https://vendor.example/" vendorResponse := by
  have hsha : Set.InjOn vendorData.sha256 (hashedTexts vendorActions) := by
    have htexts : ∀ text ∈ hashedTexts vendorActions,
        text = encodeUtf8 "https://vendor.example/" ∨ text = encodeUtf8 "A" := by
      rintro text (⟨call, hcalled, htext⟩ | ⟨uri, hasked, rfl⟩)
      · obtain rfl := called_vendorActions hcalled
        exact htext
      · exact .inl (asked_vendorActions hasked ▸ rfl)
    intro text htext text' htext' hsame
    rcases htexts text htext with rfl | rfl <;> rcases htexts text' htext' with rfl | rfl
    · rfl
    · exact absurd hsame (by decide)
    · exact absurd hsame (by decide)
    · rfl
  have hjson : ReadsBack vendorData vendorActions := by
    intro call now hcalled htimed
    obtain rfl := called_vendorActions hcalled
    obtain rfl := timed_vendorActions htimed
    exact loads_vendorMetadata
  have hrun : ∃ world, exec (World.step vendorData) {} vendorActions = some world ∧
      world.returns = [("https://vendor.example/", some vendorResponse)] := ⟨_, rfl, by rfl⟩
  obtain ⟨world, hexec, hreturns⟩ := hrun
  have hmem : ("https://vendor.example/", some vendorResponse) ∈ world.returns :=
    hreturns ▸ List.mem_singleton_self _
  exact ⟨world, hexec, hmem,
    cache_returns_one_put vendorData vendorActions world hsha hjson hexec _ _ hmem⟩

end AgenticSecurity.Collection.Cache
