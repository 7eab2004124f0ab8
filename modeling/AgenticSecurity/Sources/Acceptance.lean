import AgenticSecurity.Sources.Rendering

namespace AgenticSecurity.Sources

open Library Models Python

/-- `validate_url` returns for the URL. -/
def Accepts (registry : SourceRegistry) (data : UrlData) (sourceId : String) (url : Url) : Prop :=
  ∃ canonical, registry.validateUrl data sourceId url = .ok canonical

theorem validateUrl_ok {registry : SourceRegistry} {data : UrlData} {sourceId : String}
    {url canonical : Url} (h : registry.validateUrl data sourceId url = .ok canonical) :
    ∃ source split, registry.get sourceId = .ok source ∧ source.enabled = true ∧
      source.role = .input ∧
      canonicalizeUrl data url = .ok canonical ∧ urlsplit data canonical = .ok split ∧
      source.domains.any (inDomain (split.hostname data)) = true := by
  unfold SourceRegistry.validateUrl at h
  obtain ⟨source, hsource, h⟩ := Runs.except_bind_ok.mp h
  split_ifs at h with henabled hrole
  obtain ⟨canonical', hcanonical, h⟩ := Runs.except_bind_ok.mp h
  obtain ⟨split, hsplit, h⟩ := Runs.except_bind_ok.mp h
  dsimp only at h
  split_ifs at h with hdomain
  obtain rfl := Except.ok.inj h
  refine ⟨source, split,
    hsource, by simpa using henabled, ?_, hcanonical, hsplit, by simpa using hdomain⟩
  cases hcase : source.role with
  | input => rfl
  | output => exact absurd hcase hrole

theorem validateUrl_eq {registry : SourceRegistry} {data : UrlData} {sourceId : String}
    {source : Source} {url canonical : Url} {split : SplitResult}
    (hsource : registry.get sourceId = .ok source)
    (henabled : source.enabled = true) (hrole : source.role = .input)
    (hcanonical : canonicalizeUrl data url = .ok canonical)
    (hsplit : urlsplit data canonical = .ok split)
    (hdomain : source.domains.any (inDomain (split.hostname data)) = true) :
    registry.validateUrl data sourceId url = .ok canonical := by
  have hnot : ¬ ¬ source.enabled = true := not_not.mpr henabled
  have hinput : ¬ source.role = .output := by simp [hrole]
  unfold SourceRegistry.validateUrl
  rw [hsource]
  change (if _ then _ else if _ then _ else (canonicalizeUrl data url).bind _) = _
  rw [if_neg hnot, if_neg hinput, hcanonical]
  change (urlsplit data canonical).bind _ = _
  rw [hsplit]
  exact if_neg (not_not.mpr hdomain)

/-- A character that `_checknetloc` looks for in the NFKC form. -/
def isNetlocDelimiter (c : Char) : Bool := c = '/' || c = '?' || c = '#' || c = '@' || c = ':'

/-- The Unicode database: a delimiter in the NFKC form of a text comes from one of
its characters, and lower-casing makes no character that brings one. -/
structure LawfulUrl (data : UrlData) : Prop where
  lower : LawfulLower data.lower
  nfkcAscii : ∀ c : Char, c.toNat < 128 → data.nfkc [c] = [c]
  nfkcDelimiter : ∀ text c, isNetlocDelimiter c = true →
    (c ∈ data.nfkc text ↔ ∃ d ∈ text, c ∈ data.nfkc [d])
  lowerDelimiter :
    ∀ text, ∀ d ∈ data.lower text, ∀ c, isNetlocDelimiter c = true → c ∈ data.nfkc [d] →
    ∃ e ∈ text, c ∈ data.nfkc [e]

/-- The standard library on ASCII text without numeric addresses; a host in brackets
is one of the form that begins with a `v`. -/
def asciiUrlData : UrlData where
  toUnicodeData := asciiData
  nfkc := id
  bracketedNetloc netloc := ['[', 'v'].isPrefixOf netloc
  isGlobal _ := none

theorem lawfulUrl_ascii : LawfulUrl asciiUrlData := by
  have hascii : ∀ text, ∀ c ∈ asciiUrlData.lower text, c.toNat < 128 → c.isAlpha = false →
      c ∈ text := by
    intro text c hc _ halpha
    obtain ⟨d, hd, rfl⟩ := List.mem_map.mp hc
    rcases toLower_cases d with hkept | hlower
    · exact hkept.symm ▸ hd
    · rw [isAlpha_of_isLower hlower] at halpha
      cases halpha
  refine ⟨⟨fun text c hc ↦ ?_, fun text hfixed ↦ ?_, hascii, fun text hnonempty ↦ ?_⟩,
    fun _ _ ↦ rfl, fun text c _ ↦ ?_, fun text d hd c hc hmem ↦ ?_⟩
  · obtain ⟨d, -, rfl⟩ := List.mem_map.mp hc
    exact congrArg (fun c ↦ [c]) (toLower_toLower d)
  · exact (List.map_congr_left fun c hc ↦ List.singleton_inj.mp (hfixed c hc)).trans
      (List.map_id text)
  · exact mt List.map_eq_nil_iff.mp hnonempty
  · simp [asciiUrlData]
  · obtain rfl : c = d := List.mem_singleton.mp hmem
    have hlist : ∀ d ∈ ['/', '?', '#', '@', ':'], d.toNat < 128 ∧ d.isAlpha = false :=
      forall_mem_of_all (by decide)
    have hin : c ∈ ['/', '?', '#', '@', ':'] := by
      simp only [isNetlocDelimiter, Bool.or_eq_true, decide_eq_true_eq, or_assoc] at hc
      simp only [List.mem_cons, List.not_mem_nil, or_false]
      exact hc
    exact ⟨c, hascii text c hd (hlist c hin).1 (hlist c hin).2, List.mem_singleton_self c⟩

def NfkcSafe (data : UrlData) (c : Char) : Prop :=
  ∀ d, isNetlocDelimiter d = true → d ∈ data.nfkc [c] → c = '@' ∨ c = ':'

theorem nfkcSafe_of_check {data : UrlData} (hdata : LawfulUrl data) {netloc : List Char}
    (hends : ∀ c ∈ netloc, endsNetloc c = false) (h : checkNetloc data netloc = true) :
    ∀ c ∈ netloc, NfkcSafe data c := by
  intro c hc d hd hmem
  by_contra hnot
  obtain ⟨hat, hcolon⟩ := not_or.mp hnot
  have hslash := hends c hc
  simp only [endsNetloc, Bool.or_eq_false_iff, decide_eq_false_iff_not] at hslash
  have hkept : c ∈ netloc.filter fun c ↦ c ≠ '@' && c ≠ ':' && c ≠ '#' && c ≠ '?' :=
    List.mem_filter.mpr ⟨hc, by simp [hat, hcolon, hslash.2, hslash.1.2]⟩
  have hform := (hdata.nfkcDelimiter _ d hd).mpr ⟨c, hkept, hmem⟩
  unfold checkNetloc at h
  simp only [Bool.or_eq_true] at h
  simp only [isNetlocDelimiter, Bool.or_eq_true, decide_eq_true_eq] at hd
  rcases h with (hascii | hfixed) | hall
  · rw [hdata.nfkcAscii c (by simpa using List.all_eq_true.mp hascii c hc),
      List.mem_singleton] at hmem
    subst hmem
    tauto
  · rw [of_decide_eq_true hfixed] at hform
    obtain ⟨hin, hfilter⟩ := List.mem_filter.mp hform
    have hdslash := hends d hin
    simp only [endsNetloc, Bool.or_eq_false_iff, decide_eq_false_iff_not] at hdslash
    simp only [Bool.and_eq_true, decide_eq_true_eq] at hfilter
    tauto
  · have hd' := List.all_eq_true.mp hall d hform
    simp only [Bool.and_eq_true, decide_eq_true_eq] at hd'
    tauto

theorem check_of_nfkcSafe {data : UrlData} (hdata : LawfulUrl data) {netloc : List Char}
    (h : ∀ c ∈ netloc, NfkcSafe data c) : checkNetloc data netloc = true := by
  unfold checkNetloc
  simp only [Bool.or_eq_true]
  refine .inr (List.all_eq_true.mpr fun d hd ↦ ?_)
  by_contra hnot
  have hdelimiter : isNetlocDelimiter d = true := by
    simp only [Bool.and_eq_true, decide_eq_true_eq] at hnot
    simp only [isNetlocDelimiter, Bool.or_eq_true, decide_eq_true_eq]
    tauto
  obtain ⟨c, hc, hmem⟩ := (hdata.nfkcDelimiter _ d hdelimiter).mp hd
  obtain ⟨hin, hfilter⟩ := List.mem_filter.mp hc
  simp only [Bool.and_eq_true, decide_eq_true_eq] at hfilter
  have hsafe := h c hin d hdelimiter hmem
  tauto

theorem checkNetloc_canonical {data : UrlData} (hdata : LawfulUrl data) {url : Url}
    {parts : CanonicalParts} {split : SplitResult} (h : canonicalParts data url = .ok parts)
    (hsplit : urlsplit data url = .ok split)
    (hcolon : ':' ∉ split.hostinfo.1) : checkNetloc data parts.netloc = true := by
  obtain ⟨split', hsplit', -, -, -, hhost, -⟩ := canonicalParts_ok h
  obtain rfl : split' = split := Except.ok.inj (hsplit'.symm.trans hsplit)
  have hsafe := nfkcSafe_of_check hdata (fun c hc ↦ ((urlsplit_ok hsplit).netloc c hc).1)
    (urlsplit_checked hsplit)
  have hraw : ∀ c ∈ split'.hostinfo.1, ∀ d, isNetlocDelimiter d = true → d ∉ data.nfkc [c] := by
    intro c hc d hd hmem
    obtain ⟨hnetloc, hat⟩ := mem_hostinfo hc
    rcases hsafe c hnetloc d hd hmem with rfl | rfl
    · exact hat rfl
    · exact hcolon hc
  refine check_of_nfkcSafe hdata fun c hc d hd hmem ↦ ?_
  rcases mem_netloc hc with hin | rfl | hdigit
  · -- the delimiter would come from a character of the host as written
    obtain ⟨e, he, hmem⟩ := hdata.lowerDelimiter _ c (hhost ▸ hin) d hd hmem
    unfold SplitResult.hostname at he
    split_ifs at he
    · exact absurd he List.not_mem_nil
    · rcases List.mem_append.mp he with hbefore | hzone
      · obtain ⟨e', he', hmem⟩ := hdata.lowerDelimiter _ e hbefore d hd hmem
        exact absurd hmem (hraw e' (mem_of_mem_before he') d hd)
      · exact absurd hmem (hraw e ((List.dropWhile_suffix _).subset hzone) d hd)
  · exact .inr rfl
  · have hascii : c.toNat < 128 := by
      simp only [Char.isDigit, Bool.and_eq_true, decide_eq_true_eq,
        UInt32.le_iff_toNat_le] at hdigit
      exact lt_of_le_of_lt hdigit.2 (by decide)
    rw [hdata.nfkcAscii c hascii, List.mem_singleton] at hmem
    subst hmem
    have hlist := not_delimiter_of_isDigit hdigit
    simp only [isNetlocDelimiter, Bool.or_eq_true, decide_eq_true_eq] at hd
    rcases hd with (((rfl | rfl) | rfl) | rfl) | rfl <;> cases hlist

theorem urlsplit_canonical {data : UrlData} {parts : CanonicalParts}
    (form : CanonicalForm data parts) (plain : PlainHost parts)
    (hnetloc : checkNetloc data parts.netloc = true) :
    urlsplit data parts.url = .ok parts.split := by
  have hbrackets : checkBrackets data parts.netloc = true := by
    unfold checkBrackets
    rw [if_neg (not_mem_netloc (by decide) (by decide) plain.opening)]
    exact decide_eq_true (not_mem_netloc (by decide) (by decide) plain.closing)
  rw [urlsplit_url form, if_neg (not_not.mpr hbrackets), if_neg (not_not.mpr hnetloc)]

theorem canonicalParts_again {data : UrlData} (hlower : LawfulLower data.lower) {url : Url}
    {parts : CanonicalParts} (h : canonicalParts data url = .ok parts) (plain : PlainHost parts)
    (hnetloc : checkNetloc data parts.netloc = true) :
    canonicalParts data parts.url = .ok { parts with path := canonicalPath parts.path } := by
  have form := canonicalForm_of_ok hlower h
  obtain ⟨_, -, -, -, hnonempty, hhost, hprohibited, hglobal, -⟩ := canonicalParts_ok h
  have hkept : data.lower (parts.split.hostname data) = parts.host := by
    rw [split_hostname hlower form plain, hlower.fixed _ form.hostKept]
  have hscheme : data.lower parts.split.scheme = parts.scheme := form.schemeKept
  rw [canonicalParts_eq (urlsplit_canonical form plain hnetloc) (hscheme ▸ form.scheme) ?_ (hkept ▸
    hprohibited)
    (hkept ▸ hglobal) (split_port form plain), hkept, hscheme]
  · rfl
  · rw [split_hostname hlower form plain, hhost]
    exact hlower.nonempty _ hnonempty

theorem accepts_canonical {registry : SourceRegistry} {data : UrlData} (hdata : LawfulUrl data)
    {sourceId : String} {url canonical : Url} {split : SplitResult}
    (h : registry.validateUrl data sourceId url = .ok canonical)
    (hsplit : urlsplit data url = .ok split)
    (hopen : '[' ∉ split.netloc) : Accepts registry data sourceId canonical := by
  obtain ⟨source, shown, hsource, henabled, hrole, hcanonical, hshown, hdomain⟩ := validateUrl_ok h
  obtain ⟨parts, hparts, rfl⟩ := Runs.except_map_ok.mp hcanonical
  have form := canonicalForm_of_ok hdata.lower hparts
  have plain := plainHost_of_split hdata.lower hparts hsplit hopen
  obtain rfl := urlsplit_url_ok form hshown
  have hnetloc : checkNetloc data parts.netloc = true :=
    checkNetloc_canonical hdata hparts hsplit (colon_not_mem_hostinfo hopen)
  let second : CanonicalParts := { parts with path := canonicalPath parts.path }
  have hsecond : canonicalParts data parts.url = .ok second :=
    canonicalParts_again hdata.lower hparts plain hnetloc
  have form2 := canonicalForm_of_ok hdata.lower hsecond
  have plain2 : PlainHost second := ⟨plain.opening, plain.closing, plain.colon⟩
  have hsplit2 : urlsplit data second.url = .ok second.split :=
    urlsplit_canonical form2 plain2 hnetloc
  refine ⟨second.url, validateUrl_eq hsource henabled hrole
    (Runs.except_map_ok.mpr ⟨second, hsecond, rfl⟩)
    hsplit2 ?_⟩
  rw [split_hostname hdata.lower form2 plain2]
  rwa [split_hostname hdata.lower form plain] at hdomain

end AgenticSecurity.Sources
