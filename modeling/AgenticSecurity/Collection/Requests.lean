import AgenticSecurity.Collection.Http
import AgenticSecurity.Library.EventLog
import AgenticSecurity.Sources.Acceptance

namespace AgenticSecurity.Collection

open Library Models Python Sources HttpRetriever

variable {r : HttpRetriever}

theorem readChunks_ok {maxResponseBytes : ℕ} {broken : Option String} {read content : List UInt8}
    {chunks : List (List UInt8)} (hread : read.length ≤ maxResponseBytes)
    (h : readChunks maxResponseBytes broken read chunks = .ok content) :
    broken = none ∧ content = read ++ chunks.flatten ∧ content.length ≤ maxResponseBytes := by
  induction chunks generalizing read with
  | nil =>
    unfold readChunks at h
    cases broken with
    | some message => cases h
    | none =>
      obtain rfl := Except.ok.inj h
      exact ⟨rfl, by simp, hread⟩
  | cons chunk chunks ih =>
    unfold readChunks at h
    split_ifs at h with hlimit
    rw [List.flatten_cons, ← List.append_assoc]
    exact ih (by rw [List.length_append]; omega) h

theorem readBounded_ok {unicode : UnicodeData} {response : Response} {maxResponseBytes : ℕ}
    {content : List UInt8} (h : readBounded unicode response maxResponseBytes = .ok content) :
    response.broken = none ∧ content = response.chunks.flatten ∧
    content.length ≤ maxResponseBytes := by
  have hread : readChunks maxResponseBytes response.broken [] response.chunks = .ok content := by
    unfold readBounded at h
    dsimp only at h
    split_ifs at h
    split at h
    · exact h
    · split at h
      · cases h
      · split_ifs at h
        exact h
  simpa using readChunks_ok (Nat.zero_le _) hread

def Allowlisted (r : HttpRetriever) (url : Url) : Prop :=
  ∃ source parts, r.registry.get r.sourceId = .ok source ∧ source.enabled = true ∧
    source.role = .input ∧
    urlsplit r.web.toUrlData url = .ok parts ∧
    (parts.scheme = "http".toList ∨ parts.scheme = "https".toList) ∧
    source.domains.any (inDomain (parts.hostname r.web.toUrlData)) = true

structure RobotsDocument (r : HttpRetriever) (response : Response) (lines : List (List Char)) :
    Prop where
  success : 200 ≤ response.statusCode ∧ response.statusCode ≤ 299
  plain : response.mediaType r.web.toUnicodeData = "text/plain".toList
  bounded : response.chunks.flatten.length ≤ r.robotsLimits.maxResponseBytes
  whole : response.broken = none
  decoded : ∃ text, decodeUtf8 response.chunks.flatten = some text ∧ lines = splitlines text

/-- The robots requests from `first` on that led to `url`: each is sent where the one
before it was redirected, or where the one before it failed. -/
inductive RobotsTrail (r : HttpRetriever) (first : Url) : List Event → Url → Prop
  | start : RobotsTrail r first [] first
  | redirected {trail : List Event} {url next : Url} {response : Response} {location : List Char} :
    RobotsTrail r first trail url → response.isRedirect = true → response.location = some location →
    r.follow url location = .ok next →
    RobotsTrail r first (trail ++ [{ kind := .robots, url, exchange := .response response }]) next
  | failed {trail : List Event} {url : Url} {exchange : Exchange} {redirectCount : ℕ}
      {error : Raised} :
    RobotsTrail r first trail url → r.readRobots redirectCount url exchange = .raised error →
    RobotsTrail r first (trail ++ [{ kind := .robots, url, exchange }]) url

/-- The log goes on after `before` with a trail from `first` that ends in a document. -/
def ObtainedSince (r : HttpRetriever) (before : List Event) (first : Url) (log : List Event)
    (lines : List (List Char)) : Prop :=
  ∃ trail rest url response,
    log = before ++ trail ++ { kind := .robots, url, exchange := .response response } :: rest ∧
      RobotsTrail r first trail url ∧ RobotsDocument r response lines

def Obtained (r : HttpRetriever) (log : List Event) (origin : Url) (lines : List (List Char)) :
    Prop :=
  ∃ before first, r.validateUrl (origin ++ "/robots.txt".toList) = .ok first ∧
    ObtainedSince r before first log lines

/-- `validate_url` accepts the URL, and a robots.txt obtained for the origin of its
canonical form permits that form. -/
def Permitted (r : HttpRetriever) (log : List Event) (url : Url) : Prop :=
  ∃ canonical parts lines, r.validateUrl url = .ok canonical ∧
    urlsplit r.web.toUrlData canonical = .ok parts ∧ Obtained r log (origin parts) lines ∧
    r.web.canFetch lines r.userAgent canonical = true

theorem ObtainedSince.mono {before log log' : List Event} {first : Url} {lines : List (List Char)}
    (h : ObtainedSince r before first log lines) (hlog : log <+: log') :
    ObtainedSince r before first log' lines := by
  obtain ⟨trail, rest, url, response, rfl, htrail, hdocument⟩ := h
  obtain ⟨more, rfl⟩ := hlog
  exact ⟨trail, rest ++ more, url, response, by simp, htrail, hdocument⟩

theorem Obtained.mono {log log' : List Event} {origin : Url} {lines : List (List Char)}
    (h : Obtained r log origin lines) (hlog : log <+: log') : Obtained r log' origin lines := by
  obtain ⟨before, first, hfirst, hsince⟩ := h
  exact ⟨before, first, hfirst, hsince.mono hlog⟩

theorem Permitted.mono {log log' : List Event} {url : Url} (h : Permitted r log url)
    (hlog : log <+: log') : Permitted r log' url := by
  obtain ⟨canonical, parts, lines, hvalidate, hparts, hobtained, hfetch⟩ := h
  exact ⟨canonical, parts, lines, hvalidate, hparts, hobtained.mono hlog, hfetch⟩

theorem allowlisted_of_validateUrl (hlower : LawfulLower r.web.lower) {target url : Url}
    (h : r.validateUrl target = .ok url) : Allowlisted r url := by
  obtain ⟨source, parts, hsource, henabled, hrole, hcanonical, hparts, hdomain⟩ := validateUrl_ok h
  refine ⟨source, parts, hsource, henabled, hrole, hparts, ?_, hdomain⟩
  obtain ⟨form, hform, rfl⟩ := Runs.except_map_ok.mp hcanonical
  have hcanonicalForm := canonicalForm_of_ok hlower hform
  obtain rfl := urlsplit_url_ok hcanonicalForm hparts
  exact hcanonicalForm.scheme

def redirectTarget (r : HttpRetriever) (e : Event) : Option Url :=
  match e.exchange with
  | .raised _ => none
  | .response response =>
    if response.isRedirect then
      response.location.bind fun location ↦ (r.web.urljoin e.url location).toOption
    else none

def bracketed (r : HttpRetriever) (e : Event) : Bool :=
  e.kind = .robots && (redirectTarget r e).any fun target ↦
    (r.validateUrl target).isOk &&
      match urlsplit r.web.toUrlData target with
      | .ok parts => '[' ∈ parts.netloc
      | .error _ => false

def PlainRedirects (r : HttpRetriever) (log : List Event) : Prop := ∀ e ∈ log, bracketed r e = false

instance (r : HttpRetriever) (log : List Event) : Decidable (PlainRedirects r log) :=
  inferInstanceAs (Decidable (∀ e ∈ log, bracketed r e = false))

theorem PlainRedirects.mono {log log' : List Event} (h : PlainRedirects r log')
    (hlog : log <+: log') :
    PlainRedirects r log := fun e he ↦ h e (hlog.subset he)

theorem readRobots_hop {redirectCount : ℕ} {current next : Url} {exchange : Exchange}
    (h : r.readRobots redirectCount current exchange = .hop next) :
    ∃ response location, exchange = .response response ∧ response.isRedirect = true ∧
      response.location = some location ∧ r.follow current location = .ok next := by
  cases exchange with
  | raised error => cases h
  | response response =>
    unfold readRobots at h
    dsimp only at h
    split_ifs at h with hredirect
    · cases hlocation : response.location with
      | none => simp only [hlocation] at h; cases h
      | some location =>
        simp only [hlocation] at h
        split_ifs at h
        cases hfollow : r.follow current location with
        | error message => simp only [hfollow] at h; cases h
        | ok url =>
          simp only [hfollow, RobotsStep.hop.injEq] at h
          exact ⟨response, location, rfl, hredirect, hlocation, h ▸ hfollow⟩
    · split at h
      · cases h
      · split at h <;> cases h

theorem readRobots_returned {redirectCount : ℕ} {current : Url} {exchange : Exchange}
    {lines : List (List Char)}
    (h : r.readRobots redirectCount current exchange = .returned (some lines)) :
    ∃ response, exchange = .response response ∧ RobotsDocument r response lines := by
  cases exchange with
  | raised error => cases h
  | response response =>
    unfold readRobots at h
    dsimp only at h
    split_ifs at h with hredirect hsuccess hplain
    · split at h
      · cases h
      · split_ifs at h
        · cases h
        · split at h <;> cases h
    · cases h
    · cases hread : readBounded r.web.toUnicodeData response r.robotsLimits.maxResponseBytes with
      | error error => simp only [hread] at h; cases h
      | ok content =>
        simp only [hread] at h
        cases htext : decodeUtf8 content with
        | none => simp only [htext] at h; cases h
        | some text =>
          simp only [htext, RobotsStep.returned.injEq, Option.some.injEq] at h
          obtain ⟨hwhole, rfl, hbounded⟩ := readBounded_ok hread
          have hstatus : 200 ≤ response.statusCode ∧ response.statusCode ≤ 299 := by
            simpa [Response.isSuccess] using hsuccess
          exact ⟨response, rfl, hstatus, not_not.mp hplain, hbounded, hwhole, text, htext, h.symm⟩

end AgenticSecurity.Collection
