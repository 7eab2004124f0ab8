import AgenticSecurity.Collection.Permission

namespace AgenticSecurity.Collection

open Library Models Python Sources HttpRetriever

variable {r : HttpRetriever}

/-- Every page request is to an accepted and permitted URL: a URL that is not accepted,
and a canonical form that no robots.txt obtained permits, is not asked for. -/
structure PagesPermitted (r : HttpRetriever) (log : List Event) : Prop where
  allowlisted : ∀ e ∈ log, Allowlisted r e.url
  permitted : ∀ before e after, log = before ++ e :: after → e.kind = .page →
    AcceptsUrl r e.url ∧ Permitted r before e.url
  refused : ∀ target, ¬ AcceptsUrl r target → ∀ e ∈ log, e.kind = .page → e.url ≠ target
  denied : ∀ target canonical, r.validateUrl target = .ok canonical → ¬ Permitted r log canonical →
    ∀ e ∈ log, e.kind = .page → e.url ≠ canonical

/-- The robots requests are to accepted URLs. -/
def RobotsAccepted (r : HttpRetriever) (log : List Event) : Prop :=
  ∀ e ∈ log, e.kind = .robots → AcceptsUrl r e.url

/-- The requests with the URLs that go out. -/
def sentLog (r : HttpRetriever) (log : List Event) : List Event :=
  log.map fun e ↦ { e with url := r.web.sentUrl e.url }

/-- The client sends every URL as it is given: there are no dot segments in it that it drops,
and nothing that it quotes. -/
def SentAsGiven (r : HttpRetriever) (log : List Event) : Prop :=
  ∀ e ∈ log, r.web.sentUrl e.url = e.url

/-- Each retrieval sends so many page requests at most. -/
def PagesBounded (r : HttpRetriever) (s : Session) (urls : List Url) : Prop :=
  ∀ before url, before ++ [url] <+: urls →
    pageRequests (r.session s (before ++ [url])).log ≤
      pageRequests (r.session s before).log + (r.limits.maxRetries + 1) *
        (r.limits.maxRedirects + 1)

theorem session_snoc (s : Session) (urls : List Url) (url : Url) :
    r.session s (urls ++ [url]) = (r.retrieve url (r.session s urls)).1 := by
  unfold HttpRetriever.session
  rw [List.foldl_append, List.foldl_cons, List.foldl_nil]

theorem sound_session (hdata : LawfulUrl r.web.toUrlData) {s : Session} (h : Sound r s)
    (urls : List Url) :
    Sound r (r.session s urls) := by
  induction urls using List.reverseRecOn with
  | nil => exact h
  | append_singleton urls url ih =>
    rw [session_snoc]
    exact (retrieve_spec hdata ih).1

theorem sound_start (cache : List (Url × CachedResponse)) : Sound r { cache } where
  allowlisted _ he := absurd he List.not_mem_nil
  robots _ _ he := absurd he List.not_mem_nil
  pages := EventLog.admissible_nil _
  parsers _ _ hmem := absurd hmem List.not_mem_nil

theorem Sound.pagesPermitted {s : Session} (h : Sound r s) : PagesPermitted r s.log := by
  have hpage : ∀ e ∈ s.log, e.kind = .page → Permitted r s.log e.url := by
    intro e he hkind
    obtain ⟨before, hbefore, hpermitted⟩ := h.pages.of_mem he
    exact (hpermitted hkind).mono ((List.prefix_append before [e]).trans hbefore)
  refine ⟨h.allowlisted, fun before e after hlog hkind ↦ ?_, ?_, ?_⟩
  · have hpermitted :=
      h.pages before e ⟨after, by rw [hlog, List.append_assoc, List.singleton_append]⟩ hkind
    obtain ⟨canonical, -, -, hvalidate, -⟩ := hpermitted
    exact ⟨⟨canonical, hvalidate⟩, h.pages before e ⟨after, by simp [hlog]⟩ hkind⟩
  · rintro target hrefused e he hkind rfl
    obtain ⟨canonical, -, -, hvalidate, -⟩ := hpage e he hkind
    exact hrefused ⟨canonical, hvalidate⟩
  · rintro target canonical - hdenied e he hkind rfl
    exact hdenied (hpage e he hkind)

theorem SentAsGiven.sentLog_eq {log : List Event} (h : SentAsGiven r log) :
    sentLog r log = log := by
  have hsame : ∀ e ∈ log, ({ e with url := r.web.sentUrl e.url } : Event) = e := by
    intro e he
    rw [h e he]
  rw [sentLog, List.map_congr_left hsame, List.map_id']

/-- In every session, whatever the servers answer, the client is given pages only where
`validate_url` and an obtained robots.txt permit it, and each retrieval is bounded. Where the
client sends the URLs as they are given, that is so of the requests that go out; the robots
requests are to accepted URLs when no robots redirect leads to an accepted URL with its host
in brackets. -/
theorem session_requests (r : HttpRetriever) (hdata : LawfulUrl r.web.toUrlData)
    (cache : List (Url × CachedResponse)) (urls : List Url) :
    PagesPermitted r (r.session { cache } urls).log ∧ PagesBounded r { cache } urls ∧
      (SentAsGiven r (r.session { cache } urls).log →
        PagesPermitted r (sentLog r (r.session { cache } urls).log) ∧
        (PlainRedirects r (r.session { cache } urls).log →
          RobotsAccepted r (sentLog r (r.session { cache } urls).log))) := by
  have hsound := sound_session hdata (sound_start cache) urls
  refine ⟨hsound.pagesPermitted, fun before url _ ↦ ?_, fun hsent ↦ ?_⟩
  · rw [session_snoc]
    exact (retrieve_spec hdata (sound_session hdata (sound_start cache) before)).2.bounded
  · rw [hsent.sentLog_eq]
    exact ⟨hsound.pagesPermitted, hsound.robots⟩

def docsSource : Source where
  id := { text := "SRC-DOCS" }
  publisher := "Vendor"
  name := "Docs"
  kind := .http
  domains := ["docs.example.com"]
  baseUrl := some "https://docs.example.com/guide"
  trustClass := .primary
  status := .approved
  enabled := true
  policy := { allowedClaimTypes := {.capability}, allowedClaimPurposes := {.documentation},
              crawlFrequency := "daily" }
  pinnedAt := sampleDay
  fallbackNote := ""

/-- `User-agent: *` and an empty `Disallow:`. -/
def robotsResponse : Response where
  statusCode := 200
  contentType := some "text/plain".toList
  chunks := [encodeUtf8 "User-agent: *\nDisallow:\n"]

/-- Servers where the robots.txt of the docs is answered as given, and everything else
with a page or with `robotsResponse`. Every Location is an absolute URL. -/
def docsWeb (robots : Response) : Web where
  toUrlData := asciiUrlData
  sentUrl url := url
  urljoin _ location := .ok location
  canFetch lines _ _ := "Disallow: /".toList ∉ lines
  server _ kind url :=
    match kind with
    | .page => .response { statusCode := 200, contentType := some "text/html; charset=utf-8".toList,
                           chunks := [encodeUtf8 "<p>Guide</p>"] }
    | .robots =>
      .response (if url = "https://docs.example.com/robots.txt".toList then robots
        else robotsResponse)

def docsRetriever (robots : Response) : HttpRetriever where
  registry := { sources := [docsSource] }
  web := docsWeb robots
  sourceId := "SRC-DOCS"
  limits := {}
  robotsLimits := {}
  userAgent := "agentic-security-intelligence/0.1"

def docsLog (robots : Response) : List Event :=
  ((docsRetriever robots).session {} ["https://docs.example.com/guide/".toList]).log

def bracketedRedirect : Response where
  statusCode := 300
  location := some "https://[v1.docs.example.com:99999]/robots.txt".toList

theorem session_requests_docs :
    (docsLog robotsResponse).map (fun e ↦ (e.kind, String.ofList e.url)) =
        [(.robots, "https://docs.example.com/robots.txt"),
          (.page, "https://docs.example.com/guide")] ∧
      PagesPermitted (docsRetriever robotsResponse)
        (sentLog (docsRetriever robotsResponse) (docsLog robotsResponse)) ∧
      RobotsAccepted (docsRetriever robotsResponse)
        (sentLog (docsRetriever robotsResponse) (docsLog robotsResponse)) := by
  obtain ⟨-, -, hsent⟩ := session_requests (docsRetriever robotsResponse) lawfulUrl_ascii []
    ["https://docs.example.com/guide/".toList]
  obtain ⟨hpages, hrobots⟩ := hsent fun _ _ ↦ rfl
  exact ⟨by decide +kernel, hpages, hrobots (by decide +kernel)⟩

/-- The page is asked for, and the only robots.txt that was obtained comes from a URL
that `validate_url` refuses. -/
theorem bracketedRedirect_refused :
    (docsLog bracketedRedirect).map (fun e ↦ (e.kind, String.ofList e.url)) =
        [(.robots, "https://docs.example.com/robots.txt"),
          (.robots, "https://v1.docs.example.com:99999/robots.txt"),
          (.page, "https://docs.example.com/guide")] ∧
      (docsLog bracketedRedirect).map (·.exchange) =
        [.response bracketedRedirect, .response robotsResponse,
          (docsWeb bracketedRedirect).server [] .page "https://docs.example.com/guide".toList] ∧
      ¬ AcceptsUrl (docsRetriever bracketedRedirect)
        "https://v1.docs.example.com:99999/robots.txt".toList ∧
      ¬ RobotsAccepted (docsRetriever bracketedRedirect)
        (sentLog (docsRetriever bracketedRedirect) (docsLog bracketedRedirect)) := by
  have hrefused : ¬ AcceptsUrl (docsRetriever bracketedRedirect)
      "https://v1.docs.example.com:99999/robots.txt".toList := by
    have herror : ((docsRetriever bracketedRedirect).validateUrl
        "https://v1.docs.example.com:99999/robots.txt".toList).isOk = false := by decide +kernel
    rintro ⟨canonical, hcanonical⟩
    rw [HttpRetriever.validateUrl, hcanonical] at herror
    cases herror
  have hsent : ∃ e ∈ docsLog bracketedRedirect,
      e.kind = .robots ∧ e.url = "https://v1.docs.example.com:99999/robots.txt".toList := by
    decide +kernel
  refine ⟨by decide +kernel, by decide +kernel, hrefused, fun haccepted ↦ ?_⟩
  obtain ⟨e, he, hkind, hurl⟩ := hsent
  have hgiven : SentAsGiven (docsRetriever bracketedRedirect) (docsLog bracketedRedirect) :=
    fun _ _ ↦ rfl
  rw [hgiven.sentLog_eq] at haccepted
  exact hrefused (hurl ▸ haccepted e he hkind)

end AgenticSecurity.Collection
