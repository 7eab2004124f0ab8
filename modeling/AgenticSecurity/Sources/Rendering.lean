import AgenticSecurity.Library.Runs
import AgenticSecurity.Sources.Canonical

namespace AgenticSecurity.Sources

open Library Models Python

def CanonicalParts.split (parts : CanonicalParts) : SplitResult where
  scheme := parts.scheme
  netloc := parts.netloc
  path := parts.path
  query := parts.query
  fragment := []

def CanonicalParts.tail (parts : CanonicalParts) : List Char :=
  parts.path ++ (if parts.query = [] then [] else '?' :: parts.query)

theorem mem_netloc {parts : CanonicalParts} {c : Char} (h : c ∈ parts.netloc) :
    c ∈ parts.host ∨ c = ':' ∨ c.isDigit = true := by
  unfold CanonicalParts.netloc at h
  cases hport : parts.port with
  | none => exact .inl (by simpa [hport] using h)
  | some port =>
    rw [hport] at h
    rcases List.mem_append.mp h with hhost | hdigits
    · exact .inl hhost
    · rcases List.mem_cons.mp hdigits with rfl | hdigit
      · exact .inr (.inl rfl)
      · exact .inr (.inr (Nat.isDigit_of_mem_toDigits (by decide) (by decide) hdigit))

theorem not_delimiter_of_isDigit {c : Char} (h : c.isDigit = true) : isDelimiter c = false := by
  have hlist : ∀ d ∈ ['/', '?', '#', '@', ':', '[', ']', '\t', '\r', '\n'], d.isDigit = false :=
    forall_mem_of_all (by decide)
  refine Bool.eq_false_iff.mpr fun hdelimiter ↦ ?_
  rw [hlist c (of_decide_eq_true hdelimiter)] at h
  cases h

theorem netloc_safe {data : UrlData} {parts : CanonicalParts} (form : CanonicalForm data parts) :
    ∀ c ∈ parts.netloc, endsNetloc c = false ∧ isUnsafeByte c = false ∧ c ≠ '@' := by
  intro c hc
  rcases mem_netloc hc with hhost | rfl | hdigit
  · exact form.host c hhost
  · decide
  · have hdelimiter := not_delimiter_of_isDigit hdigit
    refine ⟨?_, ?_, ?_⟩
    · exact Bool.eq_false_iff.mpr fun h ↦ by simp [delimiter_of_endsNetloc h] at hdelimiter
    · exact Bool.eq_false_iff.mpr fun h ↦ by simp [delimiter_of_isUnsafeByte h] at hdelimiter
    · rintro rfl
      cases hdelimiter

theorem url_eq {data : UrlData} {parts : CanonicalParts} (form : CanonicalForm data parts) :
    parts.url = parts.scheme ++ ':' :: ('/' :: '/' :: (parts.netloc ++ parts.tail)) := by
  have hrooted : ¬ (parts.path ≠ [] ∧ parts.path.head? ≠ some '/') := by
    rintro ⟨hempty, hhead⟩
    exact form.rooted.elim hempty hhead
  unfold CanonicalParts.url urlunsplit CanonicalParts.tail
  simp only [if_neg hrooted, if_true, List.append_nil, List.append_assoc, List.cons_append,
    List.nil_append]

theorem tail_safe {data : UrlData} {parts : CanonicalParts} (form : CanonicalForm data parts) :
    ∀ c ∈ parts.tail, c ≠ '#' ∧ isUnsafeByte c = false := by
  intro c hc
  rcases List.mem_append.mp hc with hpath | hquery
  · exact (form.path c hpath).2
  · split_ifs at hquery
    · exact absurd hquery List.not_mem_nil
    · rcases List.mem_cons.mp hquery with rfl | hmem
      · decide
      · exact form.query c hmem

theorem scheme_safe {data : UrlData} {parts : CanonicalParts} (form : CanonicalForm data parts) :
    ∀ c ∈ parts.scheme, isSchemeCharacter c = true ∧ isUnsafeByte c = false ∧ c ≠ ':' := by
  rcases form.scheme with h | h <;> rw [h] <;> exact forall_mem_of_all (by decide)

theorem cleanUrl_url {data : UrlData} {parts : CanonicalParts} (form : CanonicalForm data parts) :
    cleanUrl parts.url = parts.url := by
  have hhead : parts.url.dropWhile (fun c ↦ c.toNat ≤ 32) = parts.url := by
    rw [url_eq form]
    rcases form.scheme with h | h <;> rw [h] <;> rfl
  unfold cleanUrl
  rw [hhead, List.filter_eq_self, url_eq form]
  intro c hc
  have hsafe : isUnsafeByte c = false := by
    rcases List.mem_append.mp hc with hscheme | hrest
    · exact (scheme_safe form c hscheme).2.1
    · simp only [List.mem_cons, List.mem_append] at hrest
      rcases hrest with rfl | rfl | rfl | hnetloc | htail
      · rfl
      · rfl
      · rfl
      · exact (netloc_safe form c hnetloc).2.1
      · exact (tail_safe form c htail).2
  simp [hsafe]

theorem splitScheme_url {data : UrlData} {parts : CanonicalParts}
    (form : CanonicalForm data parts) :
    splitScheme data parts.url = (parts.scheme, '/' :: '/' :: (parts.netloc ++ parts.tail)) := by
  have hcolon : ':' ∉ parts.scheme := fun h ↦ (scheme_safe form ':' h).2.2 rfl
  have hletter : parts.url.head?.any Char.isAlpha = true := by
    rw [url_eq form]
    rcases form.scheme with h | h <;> rw [h] <;> rfl
  have hbefore : before ':' parts.url = parts.scheme := by rw [url_eq form, before_append hcolon]
  have hafter : after ':' parts.url = '/' :: '/' :: (parts.netloc ++ parts.tail) := by
    rw [url_eq form, after_append hcolon]
  have hmem : ':' ∈ parts.url := by
    rw [url_eq form]
    exact List.mem_append_right _ List.mem_cons_self
  have hall : parts.scheme.all isSchemeCharacter = true :=
    List.all_eq_true.mpr fun c hc ↦ (scheme_safe form c hc).1
  unfold splitScheme
  rw [hbefore, hafter, if_pos ⟨hmem, hletter, hall⟩, form.schemeKept]

theorem splitNetloc_url {data : UrlData} {parts : CanonicalParts}
    (form : CanonicalForm data parts) :
    splitNetloc ('/' :: '/' :: (parts.netloc ++ parts.tail)) = (parts.netloc, parts.tail) := by
  have hnetloc : ∀ c ∈ parts.netloc, decide (¬ endsNetloc c = true) = true := fun c hc ↦ by
    simp [(netloc_safe form c hc).1]
  -- the tail is empty or begins with a slash or a question mark
  have htail : parts.tail = [] ∨ ∃ c rest, parts.tail = c :: rest ∧ endsNetloc c = true := by
    unfold CanonicalParts.tail
    cases hpath : parts.path with
    | nil =>
      by_cases hquery : parts.query = []
      · exact .inl (by simp [hquery])
      · exact .inr ⟨'?', parts.query, by simp [hquery], rfl⟩
    | cons c rest =>
      have hhead := form.rooted.resolve_left (by simp [hpath])
      rw [hpath] at hhead
      obtain rfl : c = '/' := Option.some.inj hhead
      exact .inr ⟨'/', _, rfl, rfl⟩
  have hslashes : ['/', '/'].isPrefixOf ('/' :: '/' :: (parts.netloc ++ parts.tail)) = true := rfl
  unfold splitNetloc
  rw [if_pos hslashes]
  simp only [List.drop_succ_cons, List.drop_zero]
  rw [List.takeWhile_append_of_pos hnetloc, List.dropWhile_append_of_pos hnetloc]
  rcases htail with hnil | ⟨c, rest, hcons, hends⟩
  · rw [hnil, List.takeWhile_nil, List.dropWhile_nil, List.append_nil]
  · rw [hcons, List.takeWhile_cons_of_neg (by simp [hends]),
      List.dropWhile_cons_of_neg (by simp [hends]), List.append_nil]

theorem urlsplit_url {data : UrlData} {parts : CanonicalParts} (form : CanonicalForm data parts) :
    urlsplit data parts.url =
      if ¬ checkBrackets data parts.netloc then .error "Invalid IPv6 URL"
      else if ¬ checkNetloc data parts.netloc then
        .error "netloc contains invalid characters under NFKC normalization"
      else .ok parts.split := by
  have hfragment : '#' ∉ parts.tail := fun h ↦ (tail_safe form '#' h).1 rfl
  have hpath : '?' ∉ parts.path := fun h ↦ (form.path '?' h).1 rfl
  have hparts : before '?' parts.tail = parts.path ∧ after '?' parts.tail = parts.query := by
    unfold CanonicalParts.tail
    split_ifs with hquery
    · rw [List.append_nil, hquery]
      exact ⟨before_of_not_mem hpath, after_of_not_mem hpath⟩
    · exact ⟨before_append hpath, after_append hpath⟩
  unfold urlsplit
  rw [cleanUrl_url form, splitScheme_url form]
  dsimp only
  rw [splitNetloc_url form]
  dsimp only
  rw [before_of_not_mem hfragment, after_of_not_mem hfragment, hparts.1, hparts.2]
  rfl

theorem urlsplit_url_ok {data : UrlData} {parts : CanonicalParts} {split : SplitResult}
    (form : CanonicalForm data parts) (h : urlsplit data parts.url = .ok split) :
    split = parts.split := by
  rw [urlsplit_url form] at h
  split_ifs at h
  exact (Except.ok.inj h).symm

structure PlainHost (parts : CanonicalParts) : Prop where
  opening : '[' ∉ parts.host
  closing : ']' ∉ parts.host
  colon : ':' ∉ parts.host

theorem not_mem_netloc {parts : CanonicalParts} {c : Char} (hcolon : c ≠ ':')
    (hdigit : c.isDigit = false) (h : c ∉ parts.host) : c ∉ parts.netloc := by
  intro hmem
  rcases mem_netloc hmem with hhost | rfl | hc
  · exact h hhost
  · exact hcolon rfl
  · rw [hdigit] at hc
    cases hc

theorem colon_not_mem_hostinfo {split : SplitResult} (hopen : '[' ∉ split.netloc) :
    ':' ∉ split.hostinfo.1 := by
  unfold SplitResult.hostinfo
  rw [if_neg fun hbracket ↦ hopen (mem_of_mem_afterLast hbracket)]
  exact not_mem_before _ _

theorem plainHost_of_split {data : UrlData} (hlower : LawfulLower data.lower) {url : Url}
    {parts : CanonicalParts} {split : SplitResult} (h : canonicalParts data url = .ok parts)
    (hsplit : urlsplit data url = .ok split) (hopen : '[' ∉ split.netloc) : PlainHost parts := by
  obtain ⟨split', hsplit', -, -, -, hhost, -⟩ := canonicalParts_ok h
  obtain rfl : split' = split := Except.ok.inj (hsplit'.symm.trans hsplit)
  have hclose : ']' ∉ split'.netloc := fun hmem ↦ hopen ((urlsplit_ok hsplit).brackets.mpr hmem)
  have hraw : ∀ c, isDelimiter c = true → c ∈ parts.host → c ∈ split'.hostinfo.1 :=
    fun c hc hmem ↦ mem_hostname hlower hc (hhost ▸ hmem)
  refine ⟨fun hmem ↦ hopen (mem_hostinfo (hraw _ rfl hmem)).1,
    fun hmem ↦ hclose (mem_hostinfo (hraw _ rfl hmem)).1,
    fun hmem ↦ colon_not_mem_hostinfo hopen (hraw _ rfl hmem)⟩

theorem plainHost_second {data : UrlData} (hlower : LawfulLower data.lower)
    {first second : CanonicalParts} (form : CanonicalForm data first)
    (h : canonicalParts data first.url = .ok second) :
    PlainHost second := by
  obtain ⟨split, hsplit, -⟩ := canonicalParts_ok h
  have hbrackets := (urlsplit_ok hsplit).brackets
  have hnetloc : split.netloc = first.netloc := by rw [urlsplit_url_ok form hsplit]; rfl
  refine plainHost_of_split hlower h hsplit fun hopen ↦ ?_
  have hclose := hbrackets.mp hopen
  rw [hnetloc] at hopen hclose
  rcases form.brackets with hhost | hhost
  · exact not_mem_netloc (by decide) (by decide) hhost hopen
  · exact not_mem_netloc (by decide) (by decide) hhost hclose

theorem split_hostinfo {data : UrlData} {parts : CanonicalParts} (form : CanonicalForm data parts)
    (plain : PlainHost parts) :
    parts.split.hostinfo = (parts.host, (parts.port.map (Nat.toDigits 10)).getD []) := by
  have hat : '@' ∉ parts.netloc := fun h ↦ (netloc_safe form '@' h).2.2 rfl
  have hopen : '[' ∉ parts.netloc := not_mem_netloc (by decide) (by decide) plain.opening
  unfold SplitResult.hostinfo
  dsimp only [CanonicalParts.split]
  rw [afterLast_of_not_mem hat, if_neg hopen]
  unfold CanonicalParts.netloc
  cases parts.port with
  | none => simp [before_of_not_mem plain.colon, after_of_not_mem plain.colon]
  | some port => simp [before_append plain.colon, after_append plain.colon]

theorem split_hostname {data : UrlData} (hlower : LawfulLower data.lower) {parts : CanonicalParts}
    (form : CanonicalForm data parts) (plain : PlainHost parts) :
    parts.split.hostname data = parts.host := by
  unfold SplitResult.hostname
  rw [split_hostinfo form plain]
  dsimp only
  split_ifs with hempty
  · exact hempty.symm
  · have hkept : data.lower (before '%' parts.host) = before '%' parts.host :=
      hlower.fixed _ fun c hc ↦ form.hostKept c (mem_of_mem_before hc)
    rw [hkept]
    exact List.takeWhile_append_dropWhile

theorem split_port {data : UrlData} {parts : CanonicalParts} (form : CanonicalForm data parts)
    (plain : PlainHost parts) : parts.split.port data = .ok parts.port := by
  unfold SplitResult.port
  rw [split_hostinfo form plain]
  cases hport : parts.port with
  | none => rfl
  | some port =>
    have hdigits : (Nat.toDigits 10 port).all Char.isDigit = true :=
      List.all_eq_true.mpr fun c hc ↦ Nat.isDigit_of_mem_toDigits (by decide) (by decide) hc
    dsimp only [Option.map_some, Option.getD_some]
    rw [if_neg Nat.toDigits_ne_nil, if_neg (not_not.mpr hdigits), Nat.ofDigitChars_ten_toDigits,
      if_neg (not_lt.mpr (form.port port hport))]

theorem canonicalParts_url {data : UrlData} (hlower : LawfulLower data.lower)
    {first second : CanonicalParts} (form : CanonicalForm data first) (plain : PlainHost first)
    (h : canonicalParts data first.url = .ok second) :
    second = { first with path := canonicalPath first.path } := by
  obtain ⟨split, hsplit, hscheme, -, -, hhost, -, -, hport, hpath, hquery⟩ := canonicalParts_ok h
  obtain rfl := urlsplit_url_ok form hsplit
  rw [split_hostname hlower form plain, hlower.fixed _ form.hostKept] at hhost
  rw [split_port form plain] at hport
  cases second
  simp only at hscheme hhost hport hpath hquery
  subst hscheme hhost hpath hquery
  rw [CanonicalParts.mk.injEq]
  exact ⟨form.schemeKept, rfl, (Except.ok.inj hport).symm, rfl, rfl⟩

theorem canonicalPath_stable {path : List Char} (h : path = ['/'] ∨ rstripSlashes path = path) :
    canonicalPath (canonicalPath path) = canonicalPath path := by
  by_cases hempty : path = []
  · rw [hempty]
    rfl
  rcases h with hroot | htrimmed
  · rw [hroot]
    rfl
  · have hkept : canonicalPath path = path := by
      rw [canonicalPath_eq]
      split_ifs with hroot
      · exact (hroot.resolve_left hempty).symm
      · exact htrimmed
    rw [hkept, hkept]

theorem canonicalizeUrl_stable {data : UrlData} (hlower : LawfulLower data.lower)
    {url first second third : Url} (h1 : canonicalizeUrl data url = .ok first)
    (h2 : canonicalizeUrl data first = .ok second)
    (h3 : canonicalizeUrl data second = .ok third) : third = second := by
  obtain ⟨parts, hparts, rfl⟩ := Runs.except_map_ok.mp h1
  obtain ⟨parts2, hparts2, rfl⟩ := Runs.except_map_ok.mp h2
  obtain ⟨parts3, hparts3, rfl⟩ := Runs.except_map_ok.mp h3
  have form := canonicalForm_of_ok hlower hparts
  have hpath : canonicalPath parts2.path = parts2.path := by
    obtain ⟨split, hsplit, -, -, -, -, -, -, -, hpath, -⟩ := canonicalParts_ok hparts2
    obtain rfl := urlsplit_url_ok form hsplit
    rw [hpath]
    exact canonicalPath_stable form.trimmed
  rw [canonicalParts_url hlower (canonicalForm_of_ok hlower hparts2)
    (plainHost_second hlower form hparts2)
    hparts3, hpath]

end AgenticSecurity.Sources
