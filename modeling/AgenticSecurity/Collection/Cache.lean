import AgenticSecurity.Python.Text
import Mathlib.Logic.Function.Basic

namespace AgenticSecurity.Collection.Cache

open Python

variable {τ : Type}

structure Metadata (τ : Type) where
  contentType : String
  sha256 : String
  storedAt : τ

/-- The hash, the text of the metadata, and the age after which an entry is not used. -/
structure CacheData (τ : Type) where
  sha256 : List UInt8 → String
  dumps : Metadata τ → List UInt8
  loads : List UInt8 → Option (Metadata τ)
  maxAgeSeconds : Option τ

def CacheData.key (data : CacheData τ) (uri : String) : String := data.sha256 (encodeUtf8 uri)

/-- A call of `put` with the nonce that it draws. -/
structure PutCall where
  uri : String
  value : List UInt8
  contentType : String
  nonce : String

inductive CachePath
  | body (key : String)
  | metadata (key : String)
  | bodyStage (key nonce : String)
  | metadataStage (key nonce : String)
  deriving DecidableEq

def CachePath.nonce : CachePath → Option String
  | body _ => none
  | metadata _ => none
  | bodyStage _ nonce => some nonce
  | metadataStage _ nonce => some nonce

/-- Where a `put` stands: what it does next, or what it has just done. -/
inductive PutStage (τ : Type)
  | writingBody
  | bodyWritten
  | writingMetadata (metadata : Metadata τ)
  | metadataWritten (metadata : Metadata τ)
  | bodyReplaced (metadata : Metadata τ)
  | cleaning
  | bodyUnlinked

inductive GetStage (τ : Type)
  | started
  | bodyFound
  | bothFound
  | bodyRead (content : List UInt8)
  | metadataRead (content : List UInt8) (metadata : Metadata τ)

inductive Activity (τ : Type)
  | idle
  | putting (call : PutCall) (stage : PutStage τ)
  | getting (uri : String) (stage : GetStage τ)

structure Response (τ : Type) where
  content : List UInt8
  contentType : String
  readAt : τ

/-- The directory and the processes, with the puts that have read the clock and what the gets
have returned. -/
structure World (τ : Type) where
  files : CachePath → Option (List UInt8) := fun _ ↦ none
  activity : ℕ → Activity τ := fun _ ↦ .idle
  nonces : List String := []
  puts : List (PutCall × τ) := []
  returns : List (String × Option (Response τ)) := []

namespace World

variable (data : CacheData τ) (world : World τ) (process : ℕ)

def set (activity : Activity τ) : World τ :=
  { world with activity := Function.update world.activity process activity }

/-- `os.replace`, which raises when there is no file to move. -/
def replace (source target : CachePath) (call : PutCall) (stage : PutStage τ) : World τ :=
  match world.files source with
  | none => world.set process (.putting call .cleaning)
  | some content =>
    { world.set process (.putting call stage) with
      files := Function.update (Function.update world.files target (some content)) source none }

def writeFile (path : CachePath) (content : Option (List UInt8)) : World τ :=
  { world with files := Function.update world.files path content }

def proceedPut (call : PutCall) (now : τ) : PutStage τ → World τ
  | .writingBody =>
    (world.writeFile (.bodyStage (data.key call.uri) call.nonce) call.value).set process
      (.putting call .bodyWritten)
  | .bodyWritten =>
    { world.set process (.putting call (.writingMetadata
        { contentType := call.contentType, sha256 := data.sha256 call.value, storedAt := now }))
          with
      puts := world.puts ++ [(call, now)] }
  | .writingMetadata metadata =>
    (world.writeFile (.metadataStage (data.key call.uri) call.nonce) (data.dumps metadata)).set
      process
      (.putting call (.metadataWritten metadata))
  | .metadataWritten metadata =>
    world.replace process (.bodyStage (data.key call.uri) call.nonce)
      (.body (data.key call.uri)) call
      (.bodyReplaced metadata)
  | .bodyReplaced _ =>
    world.replace process (.metadataStage (data.key call.uri) call.nonce)
      (.metadata (data.key call.uri)) call .cleaning
  | .cleaning =>
    (world.writeFile (.bodyStage (data.key call.uri) call.nonce) none).set process
      (.putting call .bodyUnlinked)
  | .bodyUnlinked =>
    (world.writeFile (.metadataStage (data.key call.uri) call.nonce) none).set process .idle

def answer (uri : String) (response : Option (Response τ)) : World τ :=
  { world.set process .idle with returns := world.returns ++ [(uri, response)] }

variable [Sub τ] [LT τ] [DecidableLT τ]

def expired (now : τ) (metadata : Metadata τ) : Bool :=
  data.maxAgeSeconds.any fun maxAge ↦ maxAge < now - metadata.storedAt

def proceedGet (uri : String) (now : τ) : GetStage τ → World τ
  | .started =>
    if (world.files (.body (data.key uri))).isSome then world.set process (.getting uri .bodyFound)
    else world.answer process uri none
  | .bodyFound =>
    if (world.files (.metadata (data.key uri))).isSome then
      world.set process (.getting uri .bothFound)
    else world.answer process uri none
  | .bothFound =>
    match world.files (.body (data.key uri)) with
    | none => world.answer process uri none
    | some content => world.set process (.getting uri (.bodyRead content))
  | .bodyRead content =>
    match (world.files (.metadata (data.key uri))).bind data.loads with
    | none => world.answer process uri none
    | some metadata => world.set process (.getting uri (.metadataRead content metadata))
  | .metadataRead content metadata =>
    if expired data now metadata then world.answer process uri none
    else if data.sha256 content ≠ metadata.sha256 then world.answer process uri none
    else world.answer process uri
      (some { content, contentType := metadata.contentType, readAt := now })

end World

/-- A step of one process: a call, its next file step, some bytes of a file that is being written,
an `OSError` in its next file step, or its end at any point. -/
inductive Action (τ : Type)
  | put (process : ℕ) (call : PutCall)
  | get (process : ℕ) (uri : String)
  | proceed (process : ℕ) (now : τ)
  | write (process : ℕ) (bytes : List UInt8)
  | fail (process : ℕ)
  | crash (process : ℕ)

/-- No nonce is drawn twice. -/
def World.step [Sub τ] [LT τ] [DecidableLT τ] (data : CacheData τ) (world : World τ) :
    Action τ → Option (World τ)
  | .put process call =>
    match world.activity process with
    | .idle =>
      if call.nonce ∈ world.nonces then none
      else some { world.set process (.putting call .writingBody) with nonces :=
          call.nonce :: world.nonces }
    | _ => none
  | .get process uri =>
    match world.activity process with
    | .idle => some (world.set process (.getting uri .started))
    | _ => none
  | .proceed process now =>
    match world.activity process with
    | .idle => none
    | .putting call stage => some (world.proceedPut data process call now stage)
    | .getting uri stage => some (world.proceedGet data process uri now stage)
  | .write process bytes =>
    match world.activity process with
    | .putting call .writingBody =>
      some (world.writeFile (.bodyStage (data.key call.uri) call.nonce) bytes)
    | .putting call (.writingMetadata _) =>
      some (world.writeFile (.metadataStage (data.key call.uri) call.nonce) bytes)
    | _ => none
  | .fail process =>
    match world.activity process with
    | .idle => none
    | .putting _ .cleaning => some (world.set process .idle)
    | .putting _ .bodyUnlinked => some (world.set process .idle)
    | .putting call _ => some (world.set process (.putting call .cleaning))
    | .getting uri .bothFound => some (world.answer process uri none)
    | .getting uri (.bodyRead _) => some (world.answer process uri none)
    | .getting _ (.metadataRead _ _) => none
    -- `is_file` raises outside of the `try`
    | .getting _ _ => some (world.set process .idle)
  | .crash process => some (world.set process .idle)

end AgenticSecurity.Collection.Cache
