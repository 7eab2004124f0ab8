import AgenticSecurity.Python.Dict
import AgenticSecurity.Sources.Registry
import Mathlib.Data.Rat.Init

namespace AgenticSecurity.Collection

open Models Python Sources

structure RetrievalLimits where
  maxRetries : ℕ := 2
  maxResponseBytes : ℕ := 2000000
  maxRedirects : ℕ := 5
  minIntervalSeconds : ℚ := 1 / 4
  allowedContentTypes : List String :=
    ["text/html", "text/plain", "text/markdown", "application/xhtml+xml"]

/-- The exceptions that a request can meet. The client's errors are `httpError`. -/
inductive Raised
  | httpError (message : String)
  | valueError (message : String)
  | permissionError (message : String)
  | other (message : String)
  deriving DecidableEq

/-- `except (httpx.HTTPError, ValueError)`. -/
def Raised.caught : Raised → Bool
  | .httpError _ | .valueError _ => true
  | .permissionError _ | .other _ => false

/-- A response as `client.stream` hands it over. The body is read chunk by chunk, and the
reading may break off with an error of the client. -/
structure Response where
  statusCode : ℕ
  location : Option (List Char) := none
  contentType : Option (List Char) := none
  contentEncoding : Option (List Char) := none
  contentLength : Option (List Char) := none
  chunks : List (List UInt8) := []
  broken : Option String := none
  deriving DecidableEq

def Response.isRedirect (response : Response) : Bool :=
  300 ≤ response.statusCode && response.statusCode ≤ 399

/-- What `raise_for_status` lets through. -/
def Response.isSuccess (response : Response) : Bool :=
  200 ≤ response.statusCode && response.statusCode ≤ 299

/-- What comes of `client.stream`. A 301, 302, 303, 307 or 308 whose Location the client cannot
parse raises like a failed connection; the other statuses of a redirect are handed over. -/
inductive Exchange
  | response (response : Response)
  | raised (error : Raised)
  deriving DecidableEq

inductive RequestKind
  | page | robots
  deriving DecidableEq

/-- A request that was sent and what came back. -/
structure Event where
  kind : RequestKind
  url : Url
  exchange : Exchange
  deriving DecidableEq

/-- The world outside: the URL that the client sends when it is given one, `urljoin` on
that URL, the decision of a robots parser from the lines it was given, and the servers,
which may answer a request in view of everything sent before. -/
structure Web extends UrlData where
  sentUrl : Url → Url
  urljoin : Url → List Char → Except String Url
  canFetch : List (List Char) → String → Url → Bool
  server : List Event → RequestKind → Url → Exchange

def readChunks (maxResponseBytes : ℕ) (broken : Option String) :
    List UInt8 → List (List UInt8) → Except Raised (List UInt8)
  | content, [] =>
    match broken with
    | none => .ok content
    | some message => .error (.httpError message)
  | content, chunk :: chunks =>
    if maxResponseBytes < content.length + chunk.length then
      .error (.valueError "response exceeds configured size limit")
    else readChunks maxResponseBytes broken (content ++ chunk) chunks

def readBounded (unicode : UnicodeData) (response : Response) (maxResponseBytes : ℕ) :
    Except Raised (List UInt8) :=
  let read := readChunks maxResponseBytes response.broken [] response.chunks
  let encoded := response.contentEncoding.any fun encoding ↦
    unicode.lower (strip encoding) ∉ ["".toList, "identity".toList]
  if encoded then .error (.valueError "response uses an unsupported Content-Encoding")
  else
    match response.contentLength with
    | none => read
    | some declared =>
      match parseInt unicode declared with
      | none => .error (.valueError "response has an invalid Content-Length")
      | some size =>
        if size < 0 then .error (.valueError "response has an invalid Content-Length")
        else if maxResponseBytes < size then
          .error (.valueError "response exceeds configured size limit")
        else read

/-- `response.headers.get("content-type", "").split(";", 1)[0].lower()`. -/
def Response.mediaType (unicode : UnicodeData) (response : Response) : List Char :=
  unicode.lower (before ';' (response.contentType.getD []))

structure CachedResponse where
  content : List UInt8
  contentType : List Char

/-- A retriever and its policy, built for one source. -/
structure HttpRetriever where
  registry : SourceRegistry
  web : Web
  sourceId : String
  limits : RetrievalLimits
  robotsLimits : RetrievalLimits
  userAgent : String

/-- The lines a robots parser was given; `none` where the policy has no parser. -/
abbrev Parser := Option (List (List Char))

/-- What changes while the retriever works; `log` is every request so far. -/
structure Session where
  log : List Event := []
  parsers : List (Url × Parser) := []
  cache : List (Url × CachedResponse) := []

/-- How a loop over redirects ends; `exhausted` when it runs out of turns. -/
inductive HopsEnd (α : Type)
  | returned (value : α)
  | raised (error : Raised)
  | exhausted

namespace HttpRetriever

variable (r : HttpRetriever)

def validateUrl (url : Url) : Except String Url :=
  r.registry.validateUrl r.web.toUrlData r.sourceId url

def send (kind : RequestKind) (url : Url) (s : Session) : Session × Exchange :=
  let exchange := r.web.server s.log kind url
  ({ s with log := s.log ++ [{ kind, url, exchange }] }, exchange)

def follow (current : Url) (location : List Char) : Except String Url := do
  let target ← r.web.urljoin current location
  r.validateUrl target

inductive RobotsStep
  | hop (next : Url)
  | returned (parser : Parser)
  | raised (error : Raised)

/-- The body of the redirect loop of `_fetch` after the request. -/
def readRobots (redirectCount : ℕ) (current : Url) : Exchange → RobotsStep
  | .raised error => .raised error
  | .response response =>
    if response.isRedirect then
      match response.location with
      | none => .returned none
      | some location =>
        if location = [] ∨ r.robotsLimits.maxRedirects ≤ redirectCount then .returned none
        else
          match r.follow current location with
          | .ok next => .hop next
          | .error message => .raised (.valueError message)
    else if ¬ response.isSuccess then .raised (.httpError "HTTPStatusError")
    else if response.mediaType r.web.toUnicodeData ≠ "text/plain".toList then .returned none
    else
      match readBounded r.web.toUnicodeData response r.robotsLimits.maxResponseBytes with
      | .error error => .raised error
      | .ok content =>
        match decodeUtf8 content with
        | none => .raised (.valueError "UnicodeDecodeError")
        | some text => .returned (some (splitlines text))

/-- The redirect loop, which leaves `current` where it was when it ends. -/
def fetchHops : List ℕ → Url → Session → Session × Url × HopsEnd Parser
  | [], current, s => (s, current, .exhausted)
  | redirectCount :: counts, current, s =>
    let (s, exchange) := r.send .robots current s
    match r.readRobots redirectCount current exchange with
    | .hop next => fetchHops counts next s
    | .returned parser => (s, current, .returned parser)
    | .raised error => (s, current, .raised error)

/-- The retry loop; a retry goes on from `current`. -/
def fetchAttempts : ℕ → Url → Session → Session × Except Raised Parser
  | 0, _, s => (s, .ok none)
  | attempts + 1, current, s =>
    match r.fetchHops (List.range (r.robotsLimits.maxRedirects + 1)) current s with
    | (s, _, .returned parser) => (s, .ok parser)
    | (s, current, .raised error) =>
      if error.caught then fetchAttempts attempts current s else (s, .error error)
    | (s, current, .exhausted) => fetchAttempts attempts current s

def fetch (origin : Url) (s : Session) : Session × Except Raised Parser :=
  match r.validateUrl (origin ++ "/robots.txt".toList) with
  | .error message => (s, .error (.valueError message))
  | .ok current => r.fetchAttempts (r.robotsLimits.maxRetries + 1) current s

/-- `f"{parts.scheme}://{parts.netloc}"`. -/
def origin (parts : SplitResult) : Url := parts.scheme ++ [':', '/', '/'] ++ parts.netloc

/-- `parser is not None and parser.can_fetch(user_agent, canonical)`. -/
def permits (parser : Parser) (canonical : Url) : Bool :=
  parser.any fun lines ↦ r.web.canFetch lines r.userAgent canonical

def allowed (url : Url) (s : Session) : Session × Except Raised Bool :=
  let parsed := do
    let canonical ← r.validateUrl url
    let parts ← urlsplit r.web.toUrlData canonical
    .ok (canonical, origin parts)
  match parsed with
  | .error _ => (s, .ok false)
  | .ok (canonical, origin) =>
    match s.parsers.lookup origin with
    | some parser => (s, .ok (r.permits parser canonical))
    | none =>
      match r.fetch origin s with
      | (s, .ok parser) =>
        ({ s with parsers := dictSet s.parsers origin parser }, .ok (r.permits parser canonical))
      | (s, .error error) => (s, if error.caught then .ok false else .error error)

def validateHop (url : Url) (s : Session) : Session × Except Raised Url :=
  match r.validateUrl url with
  | .error message => (s, .error (.valueError message))
  | .ok canonical =>
    match r.allowed canonical s with
    | (s, .error error) => (s, .error error)
    | (s, .ok true) => (s, .ok canonical)
    | (s, .ok false) =>
      (s, .error (.permissionError ("robots policy denies retrieval: " ++ String.ofList canonical)))

inductive PageStep
  | redirect (target : Url)
  | content (content : List UInt8) (contentType : List Char)

/-- The body of the redirect loop of `_request` after the request, up to the
validation of a redirect's target. -/
def readPage (redirectCount : ℕ) (current : Url) : Exchange → Except Raised PageStep
  | .raised error => .error error
  | .response response =>
    if response.isRedirect then
      match response.location with
      | none => .error (.valueError "redirect response is missing Location")
      | some location =>
        if location = [] then .error (.valueError "redirect response is missing Location")
        else if r.limits.maxRedirects ≤ redirectCount then
          .error (.httpError ("redirect limit exceeded (" ++ toString r.limits.maxRedirects ++ ")"))
        else ((r.web.urljoin current location).mapError Raised.valueError).map .redirect
    else if ¬ response.isSuccess then .error (.httpError "HTTPStatusError")
    else
      let contentType := response.mediaType r.web.toUnicodeData
      if contentType ∉ r.limits.allowedContentTypes.map String.toList then
        .error (.valueError ("unsupported content type: " ++ String.ofList contentType))
      else
        (readBounded r.web.toUnicodeData response r.limits.maxResponseBytes).map
          fun content ↦ .content content contentType

def requestHops : List ℕ → Url → Session → Session × HopsEnd CachedResponse
  | [], _, s => (s, .exhausted)
  | redirectCount :: counts, current, s =>
    let (s, exchange) := r.send .page current s
    match r.readPage redirectCount current exchange with
    | .error error => (s, .raised error)
    | .ok (.content content contentType) => (s, .returned { content, contentType })
    | .ok (.redirect target) =>
      match r.validateHop target s with
      | (s, .error error) => (s, .raised error)
      | (s, .ok next) => requestHops counts next s

/-- The retry loop; a retry starts again from `canonical`. -/
def requestAttempts (canonical : Url) : ℕ → Option Raised → Session →
    Session × Except Raised CachedResponse
  | 0, lastError, s => (s, .error (lastError.getD (.other "AssertionError")))
  | attempts + 1, lastError, s =>
    match r.requestHops (List.range (r.limits.maxRedirects + 1)) canonical s with
    | (s, .returned value) => (s, .ok value)
    | (s, .raised error) =>
      if error.caught then requestAttempts canonical attempts (some error) s else (s, .error error)
    | (s, .exhausted) => requestAttempts canonical attempts lastError s

def request (canonical : Url) (s : Session) : Session × Except Raised CachedResponse :=
  r.requestAttempts canonical (r.limits.maxRetries + 1) none s

/-- What `build_snapshot` is given of the page. -/
structure Retrieved where
  canonicalUri : Url
  contentType : List Char
  rawText : List Char

def decoded (canonical : Url) (page : CachedResponse) : Except Raised Retrieved :=
  match decodeUtf8 page.content with
  | none => .error (.valueError "UnicodeDecodeError")
  | some rawText => .ok { canonicalUri := canonical, contentType := page.contentType, rawText }

def retrieve (url : Url) (s : Session) : Session × Except Raised Retrieved :=
  match r.validateUrl url with
  | .error message => (s, .error (.valueError message))
  | .ok canonical =>
    match r.validateHop canonical s with
    | (s, .error error) => (s, .error error)
    | (s, .ok _) =>
      match s.cache.lookup canonical with
      | some cached => (s, decoded canonical cached)
      | none =>
        match r.request canonical s with
        | (s, .error error) => (s, .error error)
        | (s, .ok page) =>
          ({ s with cache := dictSet s.cache canonical page }, decoded canonical page)

/-- The session after retrievals of the given URLs, one after the other. -/
def session (s : Session) (urls : List Url) : Session :=
  urls.foldl (fun s url ↦ (r.retrieve url s).1) s

end HttpRetriever

end AgenticSecurity.Collection
