import AgenticSecurity.Collection.RequestLog

namespace AgenticSecurity.Collection

open Library Models Python Sources HttpRetriever

variable {r : HttpRetriever}

theorem mem_of_mem_netloc {data : UrlData} {url : Url} {parts : SplitResult} {c : Char}
    (h : urlsplit data url = .ok parts) (hc : c ∈ parts.netloc) : c ∈ url := by
  unfold urlsplit at h
  dsimp only at h
  split_ifs at h
  obtain rfl := Except.ok.inj h
  have hclean : c ∈ cleanUrl url := mem_splitScheme (mem_splitNetloc_netloc hc).1
  exact (List.dropWhile_suffix _).subset (List.mem_filter.mp hclean).1

theorem accepts_robotsUrl (hdata : LawfulUrl r.web.toUrlData) {target url canonical first : Url}
    {parts : SplitResult} (hurl : canonicalizeUrl r.web.toUrlData target = .ok url)
    (hcanonical : r.validateUrl url = .ok canonical)
    (hparts : urlsplit r.web.toUrlData canonical = .ok parts)
    (hfirst : r.validateUrl (origin parts ++ "/robots.txt".toList) = .ok first) :
    AcceptsUrl r first := by
  obtain ⟨form, hform, rfl⟩ := Runs.except_map_ok.mp hurl
  obtain ⟨-, -, -, -, -, hsecond, -⟩ := validateUrl_ok hcanonical
  obtain ⟨form2, hform2, rfl⟩ := Runs.except_map_ok.mp hsecond
  obtain rfl := urlsplit_url_ok (canonicalForm_of_ok hdata.lower hform2) hparts
  have plain := plainHost_second hdata.lower (canonicalForm_of_ok hdata.lower hform) hform2
  have hbracket : '[' ∉ origin form2.split ++ "/robots.txt".toList := by
    have hnetloc : '[' ∉ form2.netloc := not_mem_netloc (by decide) (by decide) plain.opening
    have hscheme : '[' ∉ form2.scheme := by
      rcases (canonicalForm_of_ok hdata.lower hform2).scheme with h | h <;> rw [h] <;> decide
    intro hmem
    rcases List.mem_append.mp hmem with horigin | hpath
    · rcases List.mem_append.mp horigin with hleft | hright
      · rcases List.mem_append.mp hleft with hin | hslashes
        · exact hscheme hin
        · exact absurd hslashes (by decide)
      · exact hnetloc hright
    · exact absurd hpath (by decide)
  obtain ⟨-, -, -, -, -, hrobots, -⟩ := validateUrl_ok hfirst
  obtain ⟨form3, hform3, -⟩ := Runs.except_map_ok.mp hrobots
  obtain ⟨split, hsplit, -⟩ := canonicalParts_ok hform3
  exact accepts_canonical hdata hfirst hsplit fun hmem ↦ hbracket (mem_of_mem_netloc hsplit hmem)

theorem fetch_spec (hdata : LawfulUrl r.web.toUrlData) {target url canonical : Url}
    {parts : SplitResult} {s : Session} (h : Sound r s)
    (hurl : canonicalizeUrl r.web.toUrlData target = .ok url)
    (hcanonical : r.validateUrl url = .ok canonical)
    (hparts : urlsplit r.web.toUrlData canonical = .ok parts) :
    Sound r (r.fetch (origin parts) s).1 ∧
      (∀ lines, (r.fetch (origin parts) s).2 = .ok (some lines) →
        Obtained r (r.fetch (origin parts) s).1.log (origin parts) lines) ∧
      Continues s (r.fetch (origin parts) s).1 0 := by
  unfold fetch
  cases hfirst : r.validateUrl (origin parts ++ "/robots.txt".toList) with
  | error message => exact ⟨h, (fun lines hlines ↦ by cases hlines), Continues.refl s⟩
  | ok first =>
    have hstart : Fetching r s.log first first s :=
      ⟨h, ⟨[], (List.append_nil _).symm, .start⟩, allowlisted_of_validateUrl hdata.lower hfirst,
        fun _ ↦ accepts_robotsUrl hdata hurl hcanonical hparts hfirst⟩
    obtain ⟨hsound, hobtained, hcontinues, -⟩ :=
      fetchAttempts_spec hdata (r.robotsLimits.maxRetries + 1) first s hstart
    exact ⟨hsound, fun lines hlines ↦ ⟨s.log, first, hfirst, hobtained lines hlines⟩, hcontinues⟩

theorem Sound.withParser {s : Session} {origin : Url} {parser : Parser} (h : Sound r s)
    (hparser : ∀ lines, parser = some lines → Obtained r s.log origin lines) :
    Sound r { s with parsers := dictSet s.parsers origin parser } := by
  refine ⟨h.allowlisted, h.robots, h.pages, fun origin' lines hmem ↦ ?_⟩
  rcases mem_dictSet hmem with hold | hnew
  · exact h.parsers origin' lines hold
  · obtain ⟨rfl, hlines⟩ := Prod.mk.inj hnew
    exact hparser lines hlines.symm

theorem permits_iff {parser : Parser} {canonical : Url} :
    r.permits parser canonical = true ↔
      ∃ lines, parser = some lines ∧ r.web.canFetch lines r.userAgent canonical = true := by
  cases parser <;> simp [permits]

theorem allowed_spec (hdata : LawfulUrl r.web.toUrlData) {target url : Url} {s : Session}
    (h : Sound r s) (hurl : canonicalizeUrl r.web.toUrlData target = .ok url) :
    Sound r (r.allowed url s).1 ∧ Continues s (r.allowed url s).1 0 ∧
      ((r.allowed url s).2 = .ok true → Permitted r (r.allowed url s).1.log url) := by
  unfold allowed
  cases hcanonical : r.validateUrl url with
  | error message => exact ⟨h, Continues.refl s, fun htrue ↦ by cases htrue⟩
  | ok canonical =>
    obtain ⟨-, parts, -, -, -, -, hparts, -⟩ := validateUrl_ok hcanonical
    have hparsed : (do
        let canonical ← (.ok canonical : Except String Url)
        let parts ← urlsplit r.web.toUrlData canonical
        .ok (canonical, origin parts)) = Except.ok (canonical, origin parts) := by
      change (urlsplit r.web.toUrlData canonical).bind _ = _
      rw [hparts]
      rfl
    rw [hparsed]
    dsimp only
    cases hlookup : s.parsers.lookup (origin parts) with
    | some parser =>
      refine ⟨h, Continues.refl s, fun htrue ↦ ?_⟩
      obtain ⟨lines, rfl, hfetch⟩ := permits_iff.mp (Except.ok.inj htrue)
      exact ⟨canonical, parts, lines, hcanonical, hparts,
        h.parsers _ lines (mem_of_lookup hlookup), hfetch⟩
    | none =>
      obtain ⟨hsound, hobtained, hcontinues⟩ := fetch_spec hdata h hurl hcanonical hparts
      rcases hresult : r.fetch (origin parts) s with ⟨t, result⟩
      rw [hresult] at hsound hobtained hcontinues
      cases result with
      | error error =>
        refine ⟨hsound, hcontinues, fun htrue ↦ ?_⟩
        dsimp only at htrue
        split_ifs at htrue
        cases htrue
      | ok parser =>
        refine ⟨hsound.withParser fun lines hlines ↦ hobtained lines (hlines ▸ rfl),
          ⟨hcontinues.log, hcontinues.bounded⟩, fun htrue ↦ ?_⟩
        obtain ⟨lines, rfl, hfetch⟩ := permits_iff.mp (Except.ok.inj htrue)
        exact ⟨canonical, parts, lines, hcanonical, hparts, hobtained lines rfl, hfetch⟩

def Requestable (r : HttpRetriever) (log : List Event) (url : Url) : Prop :=
  Allowlisted r url ∧ Permitted r log url

theorem Requestable.mono {log log' : List Event} {url : Url} (h : Requestable r log url)
    (hlog : log <+: log') : Requestable r log' url := ⟨h.1, h.2.mono hlog⟩

theorem validateHop_spec (hdata : LawfulUrl r.web.toUrlData) (url : Url) {s : Session}
    (h : Sound r s) :
    Sound r (r.validateHop url s).1 ∧ Continues s (r.validateHop url s).1 0 ∧
      ∀ next, (r.validateHop url s).2 = .ok next →
        r.validateUrl url = .ok next ∧ Requestable r (r.validateHop url s).1.log next := by
  unfold validateHop
  cases hcanonical : r.validateUrl url with
  | error message => exact ⟨h, Continues.refl s, fun next hnext ↦ by cases hnext⟩
  | ok canonical =>
    obtain ⟨-, -, -, -, -, hurl, -⟩ := validateUrl_ok hcanonical
    obtain ⟨hsound, hcontinues, hpermitted⟩ := allowed_spec hdata h hurl
    dsimp only
    rcases hresult : r.allowed canonical s with ⟨t, result⟩
    rw [hresult] at hsound hcontinues hpermitted
    rcases result with error | permitted
    · exact ⟨hsound, hcontinues, fun next hnext ↦ by cases hnext⟩
    · cases permitted with
      | false => exact ⟨hsound, hcontinues, fun next hnext ↦ by cases hnext⟩
      | true =>
        refine ⟨hsound, hcontinues, fun next hnext ↦ ?_⟩
        obtain rfl := Except.ok.inj hnext
        exact ⟨rfl, allowlisted_of_validateUrl hdata.lower hcanonical, hpermitted rfl⟩

theorem sound_sendPage {url : Url} {s : Session} (h : Sound r s) (hurl : Requestable r s.log url) :
    Sound r (r.send .page url s).1 :=
  sound_send h hurl.1 (fun hrobots ↦ by cases hrobots) fun _ ↦ hurl.2

theorem requestHops_spec (hdata : LawfulUrl r.web.toUrlData) (counts : List ℕ) (current : Url)
    (s : Session) (h : Sound r s) (hcurrent : Requestable r s.log current) :
    Sound r (r.requestHops counts current s).1 ∧
      Continues s (r.requestHops counts current s).1 counts.length := by
  induction counts generalizing current s with
  | nil => exact ⟨h, Continues.refl s⟩
  | cons redirectCount counts ih =>
    have hsend : Continues s (r.send .page current s).1 1 := send_continues .page current s
    have hsound := sound_sendPage h hcurrent
    have hone : Continues s (r.send .page current s).1 (redirectCount :: counts).length :=
      hsend.le (by rw [List.length_cons]; omega)
    unfold requestHops
    dsimp only
    cases hstep : r.readPage redirectCount current (r.send .page current s).2 with
    | error error => exact ⟨hsound, hone⟩
    | ok step =>
      cases step with
      | content content contentType => exact ⟨hsound, hone⟩
      | redirect target =>
        obtain ⟨hhop, hmore, hnext⟩ := validateHop_spec hdata target hsound
        dsimp only
        rcases hresult : r.validateHop target (r.send .page current s).1 with ⟨t, result⟩
        rw [hresult] at hhop hmore hnext
        cases result with
        | error error => exact ⟨hhop, (hsend.trans hmore).le (by rw [List.length_cons]; omega)⟩
        | ok next =>
          obtain ⟨hlast, hrest⟩ := ih next t hhop (hnext next rfl).2
          exact ⟨hlast, ((hsend.trans hmore).trans hrest).le (by rw [List.length_cons]; omega)⟩

theorem requestAttempts_spec (hdata : LawfulUrl r.web.toUrlData) {canonical : Url} (attempts : ℕ)
    (lastError : Option Raised) (s : Session) (h : Sound r s)
    (hcanonical : Requestable r s.log canonical) :
    Sound r (r.requestAttempts canonical attempts lastError s).1 ∧
      Continues s (r.requestAttempts canonical attempts lastError s).1
        (attempts * (r.limits.maxRedirects + 1)) := by
  induction attempts generalizing lastError s with
  | zero => exact ⟨h, (Continues.refl s).le (Nat.zero_le _)⟩
  | succ attempts ih =>
    obtain ⟨hsound, hcontinues⟩ :=
      requestHops_spec hdata (List.range (r.limits.maxRedirects + 1)) canonical s h hcanonical
    rw [List.length_range] at hcontinues
    have hbound : (attempts + 1) * (r.limits.maxRedirects + 1) =
        r.limits.maxRedirects + 1 + attempts * (r.limits.maxRedirects + 1) := by
      rw [Nat.succ_mul, Nat.add_comm]
    unfold requestAttempts
    rcases hhops :
      r.requestHops (List.range (r.limits.maxRedirects + 1)) canonical s with ⟨t, result⟩
    rw [hhops] at hsound hcontinues
    have hlast : Continues s t ((attempts + 1) * (r.limits.maxRedirects + 1)) :=
      hcontinues.le (hbound ▸ Nat.le_add_right _ _)
    have hagain (error : Option Raised) :
        Sound r (r.requestAttempts canonical attempts error t).1 ∧
          Continues s (r.requestAttempts canonical attempts error t).1
            ((attempts + 1) * (r.limits.maxRedirects + 1)) := by
      obtain ⟨hmore, hrest⟩ := ih error t hsound (hcanonical.mono hcontinues.log)
      exact ⟨hmore, (hcontinues.trans hrest).le hbound.ge⟩
    cases result with
    | returned page => exact ⟨hsound, hlast⟩
    | raised error =>
      dsimp only
      split_ifs
      · exact hagain (some error)
      · exact ⟨hsound, hlast⟩
    | exhausted => exact hagain lastError

theorem requestable_first (hdata : LawfulUrl r.web.toUrlData) {url canonical second : Url}
    {log : List Event} (hcanonical : r.validateUrl url = .ok canonical)
    (hsecond : r.validateUrl canonical = .ok second)
    (h : Requestable r log second) : Requestable r log canonical := by
  obtain ⟨third, parts, lines, hthird, hparts, hobtained, hfetch⟩ := h.2
  obtain ⟨-, -, -, -, -, hfirst, -⟩ := validateUrl_ok hcanonical
  obtain ⟨-, -, -, -, -, hagain, -⟩ := validateUrl_ok hsecond
  obtain ⟨-, -, -, -, -, hlast, -⟩ := validateUrl_ok hthird
  obtain rfl := canonicalizeUrl_stable hdata.lower hfirst hagain hlast
  exact ⟨allowlisted_of_validateUrl hdata.lower hcanonical,
    third, parts, lines, hsecond, hparts, hobtained, hfetch⟩

theorem retrieve_spec (hdata : LawfulUrl r.web.toUrlData) {url : Url} {s : Session}
    (h : Sound r s) :
    Sound r (r.retrieve url s).1 ∧
      Continues s (r.retrieve url s).1
        ((r.limits.maxRetries + 1) * (r.limits.maxRedirects + 1)) := by
  unfold retrieve
  cases hcanonical : r.validateUrl url with
  | error message => exact ⟨h, (Continues.refl s).le (Nat.zero_le _)⟩
  | ok canonical =>
    obtain ⟨hsound, hhop, hnext⟩ := validateHop_spec hdata canonical h
    dsimp only
    rcases hresult : r.validateHop canonical s with ⟨t, result⟩
    rw [hresult] at hsound hhop hnext
    cases result with
    | error error => exact ⟨hsound, hhop.le (Nat.zero_le _)⟩
    | ok second =>
      obtain ⟨hsecond, hrequestable⟩ := hnext second rfl
      dsimp only
      cases t.cache.lookup canonical with
      | some cached => exact ⟨hsound, hhop.le (Nat.zero_le _)⟩
      | none =>
        obtain ⟨hlast, hpages⟩ := requestAttempts_spec hdata (r.limits.maxRetries + 1) none t hsound
          (requestable_first hdata hcanonical hsecond hrequestable)
        dsimp only [request]
        rcases hrequest :
          r.requestAttempts canonical (r.limits.maxRetries + 1) none t with ⟨u, answer⟩
        rw [hrequest] at hlast hpages
        have hall := (hhop.trans hpages).le (Nat.zero_add _).le
        cases answer with
        | error error => exact ⟨hlast, hall⟩
        | ok page =>
          exact ⟨⟨hlast.allowlisted, hlast.robots, hlast.pages, hlast.parsers⟩, hall.log,
              hall.bounded⟩

end AgenticSecurity.Collection
