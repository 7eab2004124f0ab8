import AgenticSecurity.Sources.Acceptance

namespace AgenticSecurity.Sources

open Library Models Python

/-- `str.lower` keeps the ASCII characters that are not letters. -/
def KeepsSigns (lower : List Char → List Char) : Prop :=
  ∀ text, ∀ c ∈ text, c.toNat < 128 → c.isAlpha = false → c ∈ lower text

/-- The URL is its own canonical form, and the host that is parsed from it is the one that was
checked. -/
structure Stable (data : UrlData) (host : List Char) (canonical : Url) : Prop where
  again : canonicalizeUrl data canonical = .ok canonical
  host : ∃ split, urlsplit data canonical = .ok split ∧ split.hostname data = host

/-- The host as written. -/
structure WrittenPlain (split : SplitResult) : Prop where
  opening : '[' ∉ split.hostinfo.1
  closing : ']' ∉ split.hostinfo.1
  colon : ':' ∉ split.hostinfo.1

/-- Two slashes or more, and nothing else. -/
def OnlySlashes (path : List Char) : Prop := 2 ≤ path.length ∧ ∀ c ∈ path, c = '/'

theorem rstripSlashes_eq_nil {path : List Char} : rstripSlashes path = [] ↔
    ∀ c ∈ path, c = '/' := by
  rw [rstripSlashes, List.reverse_eq_nil_iff, List.dropWhile_eq_nil_iff]
  simp only [List.mem_reverse, decide_eq_true_eq]

theorem canonicalPath_eq_nil {path : List Char} : canonicalPath path = [] ↔ OnlySlashes path := by
  rw [canonicalPath_eq, OnlySlashes]
  match path with
  | [] => simp
  | [c] =>
    by_cases hc : c = '/'
    · simp [hc]
    · simp [hc, rstripSlashes_eq_nil]
  | c :: d :: path => simp [rstripSlashes_eq_nil]

theorem canonicalPath_eq_self {path : List Char} (h : path = ['/'] ∨ rstripSlashes path = path) :
    canonicalPath path = path ↔ path ≠ [] := by
  constructor
  · rintro hself rfl
    cases hself
  · intro hne
    rw [canonicalPath_eq]
    split_ifs with hroot
    · exact (hroot.resolve_left hne).symm
    · exact h.resolve_left fun heq ↦ hroot (.inr heq)

section Host

variable {data : UrlData} {url : Url} {parts : CanonicalParts} {split : SplitResult}

theorem mem_hostname_of_written (hkeeps : KeepsSigns data.lower) {c : Char} (hascii : c.toNat < 128)
    (halpha : c.isAlpha = false) (h : c ∈ split.hostinfo.1) :
    c ∈ data.lower (split.hostname data) := by
  refine hkeeps _ c ?_ hascii halpha
  unfold SplitResult.hostname
  rw [if_neg (List.ne_nil_of_mem h)]
  have hparts : c ∈ before '%' split.hostinfo.1 ++ split.hostinfo.1.dropWhile (· ≠ '%') := by
    rwa [before, List.takeWhile_append_dropWhile]
  rcases List.mem_append.mp hparts with hbefore | hzone
  · exact List.mem_append_left _ (hkeeps _ c hbefore hascii halpha)
  · exact List.mem_append_right _ hzone

theorem plainHost_iff (hlower : LawfulLower data.lower) (hkeeps : KeepsSigns data.lower)
    (hhost : parts.host = data.lower (split.hostname data)) : PlainHost parts ↔
    WrittenPlain split := by
  have hmem {c : Char} (hc : isDelimiter c = true) : c ∈ parts.host ↔ c ∈ split.hostinfo.1 := by
    obtain ⟨hascii, halpha⟩ := isDelimiter_ascii c hc
    rw [hhost]
    exact ⟨mem_hostname hlower hc, mem_hostname_of_written hkeeps hascii halpha⟩
  constructor
  · rintro ⟨hopening, hclosing, hcolon⟩
    exact ⟨mt (hmem rfl).mpr hopening, mt (hmem rfl).mpr hclosing, mt (hmem rfl).mpr hcolon⟩
  · rintro ⟨hopening, hclosing, hcolon⟩
    exact ⟨mt (hmem rfl).mp hopening, mt (hmem rfl).mp hclosing, mt (hmem rfl).mp hcolon⟩

theorem url_inj_path {parts' : CanonicalParts} (form : CanonicalForm data parts)
    (form' : CanonicalForm data parts') (hscheme : parts'.scheme = parts.scheme)
    (hnetloc : parts'.netloc = parts.netloc)
    (hquery : parts'.query = parts.query) (h : parts'.url = parts.url) :
    parts'.path = parts.path := by
  rw [url_eq form, url_eq form', hscheme, hnetloc] at h
  have htail : parts'.tail = parts.tail := by simpa using h
  rw [CanonicalParts.tail, CanonicalParts.tail, hquery] at htail
  exact List.append_cancel_right htail

theorem stable_iff (hlower : LawfulLower data.lower) (h : canonicalParts data url = .ok parts)
    (hnetloc : PlainHost parts → checkNetloc data parts.netloc = true) :
    Stable data parts.host parts.url ↔ PlainHost parts ∧ parts.path ≠ [] := by
  have form := canonicalForm_of_ok hlower h
  constructor
  · rintro ⟨hagain, shown, hshown, hhost⟩
    obtain ⟨second, hsecond, hurl⟩ := Runs.except_map_ok.mp hagain
    obtain ⟨shown', hshown', -, -, -, hhost2, -⟩ := canonicalParts_ok hsecond
    obtain rfl : shown' = shown := Except.ok.inj (hshown'.symm.trans hshown)
    rw [hhost, hlower.fixed _ form.hostKept] at hhost2
    obtain ⟨hopening, hclosing, hcolon⟩ := plainHost_second hlower form hsecond
    have plain : PlainHost parts := ⟨hhost2 ▸ hopening, hhost2 ▸ hclosing, hhost2 ▸ hcolon⟩
    obtain rfl := canonicalParts_url hlower form plain hsecond
    refine ⟨plain, (canonicalPath_eq_self form.trimmed).mp ?_⟩
    exact url_inj_path form (canonicalForm_of_ok hlower hsecond) rfl rfl rfl hurl
  · rintro ⟨plain, hpath⟩
    have hsecond := canonicalParts_again hlower h plain (hnetloc plain)
    rw [(canonicalPath_eq_self form.trimmed).mpr hpath] at hsecond
    exact ⟨Runs.except_map_ok.mpr ⟨parts, hsecond, rfl⟩, parts.split,
      urlsplit_canonical form plain (hnetloc plain), split_hostname hlower form plain⟩

end Host

/-- A canonical form stays and keeps the host exactly when the host is not written with a colon or
a bracket in it and the path is not one of several slashes. -/
theorem canonicalize_url_stable_iff {data : UrlData} (hdata : LawfulUrl data)
    (hkeeps : KeepsSigns data.lower) {url canonical : Url} {split : SplitResult}
    (h : canonicalizeUrl data url = .ok canonical)
    (hsplit : urlsplit data url = .ok split) :
    Stable data (data.lower (split.hostname data)) canonical ↔ WrittenPlain split ∧
    ¬ OnlySlashes split.path := by
  obtain ⟨parts, hparts, rfl⟩ := Runs.except_map_ok.mp h
  obtain ⟨split', hsplit', -, -, -, hhost, -, -, -, hpath, -⟩ := canonicalParts_ok hparts
  obtain rfl : split' = split := Except.ok.inj (hsplit'.symm.trans hsplit)
  have hplain := plainHost_iff hdata.lower hkeeps hhost
  have hnetloc : PlainHost parts → checkNetloc data parts.netloc = true := fun plain ↦
    checkNetloc_canonical hdata hparts hsplit (hplain.mp plain).colon
  rw [← hhost, stable_iff hdata.lower hparts hnetloc, hplain, hpath, ne_eq, canonicalPath_eq_nil]

def literalUrl : Url := "https://[2606:4700:4700::1111]/".toList

def literalData : UrlData :=
  { asciiUrlData with
    bracketedNetloc netloc := netloc = "[2606:4700:4700::1111]".toList
    isGlobal host := if host = "2606:4700:4700::1111".toList then some true else none }

/-- The brackets of the literal are lost, and one form of the path of slashes follows another. -/
theorem literal_not_stable :
    canonicalizeUrl literalData literalUrl = .ok "https://2606:4700:4700::1111/".toList ∧
    canonicalizeUrl literalData "https://2606:4700:4700::1111/".toList =
      .error "Port could not be cast to integer value as '4700:4700::1111'" ∧
    ¬ Stable literalData "2606:4700:4700::1111".toList "https://2606:4700:4700::1111/".toList ∧
    canonicalizeUrl literalData "https://docs.example.com//".toList =
      .ok "https://docs.example.com".toList ∧
    canonicalizeUrl literalData "https://docs.example.com".toList =
      .ok "https://docs.example.com/".toList := by
  have hagain : canonicalizeUrl literalData "https://2606:4700:4700::1111/".toList =
      .error "Port could not be cast to integer value as '4700:4700::1111'" := by rfl
  refine ⟨by rfl, hagain, fun h ↦ ?_, by rfl, by rfl⟩
  rw [Stable.again h] at hagain
  cases hagain

theorem keepsSigns_ascii : KeepsSigns asciiUrlData.lower := by
  intro text c hc _ halpha
  have hupper : c.isUpper = false := (Bool.or_eq_false_iff.mp halpha).1
  exact List.mem_map.mpr ⟨c, hc, toLower_of_not_isUpper hupper⟩

theorem canonicalize_url_stable_docs :
    Stable asciiUrlData "docs.example.com".toList "https://docs.example.com/guide".toList := by
  have hcanonical : canonicalizeUrl asciiUrlData "https://docs.example.com/guide/".toList =
      .ok "https://docs.example.com/guide".toList := by rfl
  have hsplit : urlsplit asciiUrlData "https://docs.example.com/guide/".toList = .ok
      { scheme := "https".toList, netloc := "docs.example.com".toList, path := "/guide/".toList,
        query := [], fragment := [] } := by rfl
  refine (canonicalize_url_stable_iff lawfulUrl_ascii keepsSigns_ascii hcanonical hsplit).mpr ⟨?_,
    ?_⟩
  · exact ⟨by decide, by decide, by decide⟩
  · exact fun h ↦ absurd (h.2 'g' (by decide)) (by decide)

end AgenticSecurity.Sources
