import AgenticSecurity.Sources.Registry
import Mathlib.Data.List.DropRight

namespace AgenticSecurity.Sources

open Models Python

/-- What `str.lower` promises: its output is made of characters that it keeps, a
text of such characters is kept, it makes no ASCII character but letters, and it
empties no text. -/
structure LawfulLower (lower : List Char → List Char) : Prop where
  output : ∀ text, ∀ c ∈ lower text, lower [c] = [c]
  fixed : ∀ text, (∀ c ∈ text, lower [c] = [c]) → lower text = text
  ascii : ∀ text, ∀ c ∈ lower text, c.toNat < 128 → c.isAlpha = false → c ∈ text
  nonempty : ∀ text, text ≠ [] → lower text ≠ []

def isDelimiter (c : Char) : Bool :=
  c ∈ ['/', '?', '#', '@', ':', '[', ']', '\t', '\r', '\n']

theorem isDelimiter_ascii : ∀ c, isDelimiter c = true → c.toNat < 128 ∧ c.isAlpha = false := by
  intro c hc
  have hlist : ∀ d ∈ ['/', '?', '#', '@', ':', '[', ']', '\t', '\r', '\n'],
      d.toNat < 128 ∧ d.isAlpha = false := forall_mem_of_all (by decide)
  exact hlist c (of_decide_eq_true hc)

theorem delimiter_of_endsNetloc {c : Char} (h : endsNetloc c = true) : isDelimiter c = true := by
  simp only [endsNetloc, Bool.or_eq_true, decide_eq_true_eq] at h
  rcases h with (rfl | rfl) | rfl <;> rfl

theorem delimiter_of_isUnsafeByte {c : Char} (h : isUnsafeByte c = true) :
    isDelimiter c = true := by
  simp only [isUnsafeByte, Bool.or_eq_true, decide_eq_true_eq] at h
  rcases h with (rfl | rfl) | rfl <;> rfl

structure SplitWellFormed (parts : SplitResult) : Prop where
  netloc : ∀ c ∈ parts.netloc, endsNetloc c = false ∧ isUnsafeByte c = false
  brackets : '[' ∈ parts.netloc ↔ ']' ∈ parts.netloc
  rooted : parts.netloc ≠ [] → parts.path = [] ∨ parts.path.head? = some '/'
  path : ∀ c ∈ parts.path, c ≠ '?' ∧ c ≠ '#' ∧ isUnsafeByte c = false
  query : ∀ c ∈ parts.query, c ≠ '#' ∧ isUnsafeByte c = false

theorem mem_cleanUrl {url : Url} {c : Char} (h : c ∈ cleanUrl url) : isUnsafeByte c = false := by
  simpa using (List.mem_filter.mp h).2

theorem mem_splitScheme {data : UrlData} {url : Url} {c : Char} (h : c ∈ (splitScheme data url).2) :
    c ∈ url := by
  unfold splitScheme at h
  split_ifs at h
  · exact mem_of_mem_after h
  · exact h

theorem mem_splitNetloc_netloc {url : Url} {c : Char} (h : c ∈ (splitNetloc url).1) :
    c ∈ url ∧ endsNetloc c = false := by
  unfold splitNetloc at h
  split_ifs at h
  · have hends := List.mem_takeWhile_imp h
    exact ⟨List.mem_of_mem_drop ((List.takeWhile_prefix _).subset h), by simpa using hends⟩
  · exact absurd h List.not_mem_nil

theorem mem_splitNetloc_tail {url : Url} {c : Char} (h : c ∈ (splitNetloc url).2) : c ∈ url := by
  unfold splitNetloc at h
  split_ifs at h
  · exact List.mem_of_mem_drop ((List.dropWhile_suffix _).subset h)
  · exact h

theorem splitNetloc_rooted {url : Url} (h : (splitNetloc url).1 ≠ []) :
    before '?' (before '#' (splitNetloc url).2) = [] ∨
      (before '?' (before '#' (splitNetloc url).2)).head? = some '/' := by
  unfold splitNetloc at h ⊢
  split_ifs at h ⊢
  · dsimp only
    cases htail : (url.drop 2).dropWhile fun c ↦ ¬ endsNetloc c with
    | nil => exact .inl rfl
    | cons c tail =>
      have hc : endsNetloc c = true := by
        have hhead : (c :: tail).dropWhile (fun c ↦ ¬ endsNetloc c) = c :: tail := by
          rw [← htail, List.dropWhile_idempotent]
        simpa using List.dropWhile_eq_self_iff.mp hhead (Nat.succ_pos _)
      simp only [endsNetloc, Bool.or_eq_true, decide_eq_true_eq] at hc
      rcases hc with (rfl | rfl) | rfl
      · exact .inr rfl
      · exact .inl rfl
      · exact .inl rfl
  · exact absurd rfl h

theorem checkBrackets_iff {data : UrlData} {netloc : List Char}
    (h : checkBrackets data netloc = true) :
    '[' ∈ netloc ↔ ']' ∈ netloc := by
  unfold checkBrackets at h
  split_ifs at h with hopen
  · rw [Bool.and_eq_true, decide_eq_true_eq] at h
    exact iff_of_true hopen h.1
  · exact iff_of_false hopen (of_decide_eq_true h)

theorem urlsplit_ok {data : UrlData} {url : Url} {parts : SplitResult}
    (h : urlsplit data url = .ok parts) : SplitWellFormed parts := by
  unfold urlsplit at h
  dsimp only at h
  split_ifs at h with hbrackets hnetloc
  obtain rfl := Except.ok.inj h
  have hsafe : ∀ c ∈ (splitScheme data (cleanUrl url)).2, isUnsafeByte c = false :=
    fun c hc ↦ mem_cleanUrl (mem_splitScheme hc)
  have htail : ∀ c ∈ (splitNetloc (splitScheme data (cleanUrl url)).2).2, isUnsafeByte c = false :=
    fun c hc ↦ hsafe c (mem_splitNetloc_tail hc)
  refine ⟨fun c hc ↦ ?_, checkBrackets_iff hbrackets, splitNetloc_rooted, fun c hc ↦ ?_,
    fun c hc ↦ ?_⟩
  · obtain ⟨hmem, hends⟩ := mem_splitNetloc_netloc hc
    exact ⟨hends, hsafe c hmem⟩
  · have hmem := mem_of_mem_before hc
    refine ⟨?_, ?_, htail c (mem_of_mem_before hmem)⟩
    · rintro rfl
      exact not_mem_before _ _ hc
    · rintro rfl
      exact not_mem_before _ _ hmem
  · have hmem := mem_of_mem_after hc
    refine ⟨?_, htail c (mem_of_mem_before hmem)⟩
    rintro rfl
    exact not_mem_before _ _ hmem

theorem urlsplit_checked {data : UrlData} {url : Url} {parts : SplitResult}
    (h : urlsplit data url = .ok parts) : checkNetloc data parts.netloc = true := by
  unfold urlsplit at h
  dsimp only at h
  split_ifs at h with hbrackets hnetloc
  obtain rfl := Except.ok.inj h
  exact hnetloc

/-- What holds of the parts of every canonical form. The host may still have a
colon or one kind of bracket, when it was written in brackets. -/
structure CanonicalForm (data : UrlData) (parts : CanonicalParts) : Prop where
  scheme : parts.scheme = "http".toList ∨ parts.scheme = "https".toList
  schemeKept : data.lower parts.scheme = parts.scheme
  hostKept : ∀ c ∈ parts.host, data.lower [c] = [c]
  host : ∀ c ∈ parts.host, endsNetloc c = false ∧ isUnsafeByte c = false ∧ c ≠ '@'
  brackets : '[' ∉ parts.host ∨ ']' ∉ parts.host
  port : ∀ port, parts.port = some port → port ≤ 65535
  path : ∀ c ∈ parts.path, c ≠ '?' ∧ c ≠ '#' ∧ isUnsafeByte c = false
  rooted : parts.path = [] ∨ parts.path.head? = some '/'
  trimmed : parts.path = ['/'] ∨ rstripSlashes parts.path = parts.path
  query : ∀ c ∈ parts.query, c ≠ '#' ∧ isUnsafeByte c = false

theorem mem_hostinfo {parts : SplitResult} {c : Char} (h : c ∈ parts.hostinfo.1) :
    c ∈ parts.netloc ∧ c ≠ '@' := by
  have hmem : c ∈ afterLast '@' parts.netloc := by
    unfold SplitResult.hostinfo at h
    dsimp only at h
    split_ifs at h
    · exact mem_of_mem_after (mem_of_mem_before h)
    · exact mem_of_mem_before h
  refine ⟨mem_of_mem_afterLast hmem, ?_⟩
  rintro rfl
  exact not_mem_afterLast _ _ hmem

theorem hostinfo_brackets (parts : SplitResult) :
    '[' ∉ parts.hostinfo.1 ∨ ']' ∉ parts.hostinfo.1 := by
  unfold SplitResult.hostinfo
  dsimp only
  split_ifs with h
  · exact .inr (not_mem_before _ _)
  · exact .inl fun hmem ↦ h (mem_of_mem_before hmem)

theorem mem_hostname {data : UrlData} (hlower : LawfulLower data.lower)
    {parts : SplitResult} {c : Char} (hc : isDelimiter c = true)
    (h : c ∈ data.lower (parts.hostname data)) : c ∈ parts.hostinfo.1 := by
  obtain ⟨hascii, halpha⟩ := isDelimiter_ascii c hc
  have hmem := hlower.ascii _ c h hascii halpha
  unfold SplitResult.hostname at hmem
  split_ifs at hmem with hempty
  · exact absurd hmem List.not_mem_nil
  · rcases List.mem_append.mp hmem with hbefore | hzone
    · exact mem_of_mem_before (hlower.ascii _ c hbefore hascii halpha)
    · exact (List.dropWhile_suffix _).subset hzone

theorem rstripSlashes_idem (path : List Char) :
    rstripSlashes (rstripSlashes path) = rstripSlashes path := by
  unfold rstripSlashes
  rw [List.reverse_reverse, List.dropWhile_idempotent]

theorem canonicalPath_eq (path : List Char) :
    canonicalPath path = if path = [] ∨ path = ['/'] then ['/'] else rstripSlashes path := by
  unfold canonicalPath
  by_cases hempty : path = []
  · simp [hempty]
  · by_cases hroot : path = ['/'] <;> simp [hempty, hroot]

theorem canonicalPath_trimmed (path : List Char) :
    canonicalPath path = ['/'] ∨ rstripSlashes (canonicalPath path) = canonicalPath path := by
  rw [canonicalPath_eq]
  split_ifs
  · exact .inl rfl
  · exact .inr (rstripSlashes_idem path)

theorem mem_rstripSlashes {path : List Char} {c : Char} (h : c ∈ rstripSlashes path) : c ∈ path :=
  List.mem_reverse.mp ((List.dropWhile_suffix _).subset (List.mem_reverse.mp h))

theorem mem_canonicalPath {path : List Char} {c : Char} (h : c ∈ canonicalPath path) :
    c ∈ path ∨ c = '/' := by
  rw [canonicalPath_eq] at h
  split_ifs at h
  · exact .inr (List.mem_singleton.mp h)
  · exact .inl (mem_rstripSlashes h)

theorem rstripSlashes_prefix (path : List Char) : rstripSlashes path <+: path := by
  unfold rstripSlashes
  rw [← List.reverse_suffix, List.reverse_reverse]
  exact List.dropWhile_suffix _

theorem canonicalPath_rooted {path : List Char} (h : path = [] ∨ path.head? = some '/') :
    canonicalPath path = [] ∨ (canonicalPath path).head? = some '/' := by
  rw [canonicalPath_eq]
  split_ifs with hroot
  · exact .inr rfl
  · have hhead := h.resolve_left fun he ↦ hroot (.inl he)
    cases hstrip : rstripSlashes path with
    | nil => exact .inl rfl
    | cons c rest =>
      refine .inr ?_
      obtain ⟨tail, htail⟩ := hstrip ▸ rstripSlashes_prefix path
      rw [← htail] at hhead
      exact hhead

theorem canonicalParts_ok {data : UrlData} {url : Url} {parts : CanonicalParts}
    (h : canonicalParts data url = .ok parts) :
    ∃ split, urlsplit data url = .ok split ∧ parts.scheme = data.lower split.scheme ∧
      (parts.scheme = "http".toList ∨ parts.scheme = "https".toList) ∧ split.hostname data ≠ [] ∧
      parts.host = data.lower (split.hostname data) ∧ prohibitedHost parts.host = false ∧
      data.isGlobal parts.host ≠ some false ∧ split.port data = .ok parts.port ∧
      parts.path = canonicalPath split.path ∧ parts.query = split.query := by
  unfold canonicalParts at h
  cases hsplit : urlsplit data url with
  | error e => rw [hsplit] at h; cases h
  | ok split =>
    rw [hsplit] at h
    change (if _ then _ else _) = _ at h
    split_ifs at h with hscheme hprohibited hglobal
    cases hport : split.port data with
    | error e => rw [hport] at h; cases h
    | ok port =>
      rw [hport] at h
      obtain rfl := Except.ok.inj h
      rw [not_or, not_and_or, not_not, not_not] at hscheme
      exact ⟨split, rfl, rfl, hscheme.1, hscheme.2,
        rfl, by simpa using hprohibited, hglobal, hport, rfl, rfl⟩

theorem canonicalParts_eq {data : UrlData} {url : Url} {split : SplitResult} {port : Option ℕ}
    (hsplit : urlsplit data url = .ok split)
    (hscheme : data.lower split.scheme = "http".toList ∨ data.lower split.scheme = "https".toList)
    (hhost : split.hostname data ≠ [])
    (hprohibited : prohibitedHost (data.lower (split.hostname data)) = false)
    (hglobal : data.isGlobal (data.lower (split.hostname data)) ≠ some false)
    (hport : split.port data = .ok port) :
    canonicalParts data url = .ok
      { scheme := data.lower split.scheme, host := data.lower (split.hostname data), port,
        path := canonicalPath split.path, query := split.query } := by
  have haccepted :
      ¬ ((data.lower split.scheme ≠ "http".toList ∧ data.lower split.scheme ≠ "https".toList) ∨
      split.hostname data = []) := by tauto
  unfold canonicalParts
  rw [hsplit]
  change (if _ then _ else if _ then _ else if _ then _ else (split.port data).bind _) = _
  rw [if_neg haccepted, if_neg (Bool.eq_false_iff.mp hprohibited), if_neg hglobal, hport]
  rfl

theorem port_ok {data : UrlData} {split : SplitResult} {port : Option ℕ}
    (h : split.port data = .ok port) : ∀ n, port = some n → n ≤ 65535 := by
  unfold SplitResult.port at h
  dsimp only at h
  split_ifs at h with hempty hdigits hrange
  · obtain rfl := Except.ok.inj h
    exact fun n hn ↦ absurd hn (by simp)
  · obtain rfl := Except.ok.inj h
    exact fun n hn ↦ Option.some.inj hn ▸ not_lt.mp hrange

theorem canonicalForm_of_ok {data : UrlData} (hlower : LawfulLower data.lower) {url : Url}
    {parts : CanonicalParts} (h : canonicalParts data url = .ok parts) :
    CanonicalForm data parts := by
  obtain ⟨split, hsplit, hscheme, hhttp, hhost, hparts, -, -, hport, hpath, hquery⟩ :=
    canonicalParts_ok h
  have hwell := urlsplit_ok hsplit
  have hraw : ∀ c, isDelimiter c = true → c ∈ parts.host → c ∈ split.hostinfo.1 :=
    fun c hc hmem ↦ mem_hostname hlower hc (hparts ▸ hmem)
  have hnetloc : split.netloc ≠ [] := by
    intro hempty
    refine hhost ?_
    simp [SplitResult.hostname, SplitResult.hostinfo, hempty, afterLast, before]
  refine ⟨hhttp, ?_, fun c hc ↦ ?_, fun c hc ↦ ?_, ?_, port_ok hport, fun c hc ↦ ?_, ?_, ?_, ?_⟩
  · exact hscheme ▸ hlower.fixed _ (hlower.output _)
  · exact hlower.output _ c (hparts ▸ hc)
  · -- a delimiter in the host would have been one in the netloc
    refine ⟨?_, ?_, ?_⟩
    · refine Bool.eq_false_iff.mpr fun hends ↦ ?_
      have hmem := (mem_hostinfo (hraw c (delimiter_of_endsNetloc hends) hc)).1
      exact absurd hends (by simp [(hwell.netloc c hmem).1])
    · refine Bool.eq_false_iff.mpr fun hunsafe ↦ ?_
      have hmem := (mem_hostinfo (hraw c (delimiter_of_isUnsafeByte hunsafe) hc)).1
      exact absurd hunsafe (by simp [(hwell.netloc c hmem).2])
    · rintro rfl
      exact (mem_hostinfo (hraw '@' rfl hc)).2 rfl
  · rcases hostinfo_brackets split with hopen | hclose
    · exact .inl fun hmem ↦ hopen (hraw '[' rfl hmem)
    · exact .inr fun hmem ↦ hclose (hraw ']' rfl hmem)
  · rcases mem_canonicalPath (hpath ▸ hc) with hmem | rfl
    · exact hwell.path c hmem
    · decide
  · exact hpath ▸ canonicalPath_rooted (hwell.rooted hnetloc)
  · exact hpath ▸ canonicalPath_trimmed _
  · exact fun c hc ↦ hwell.query c (hquery ▸ hc)

end AgenticSecurity.Sources
