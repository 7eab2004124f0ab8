import AgenticSecurity.Python.Regex

namespace AgenticSecurity.Python.Regex

variable (blank : Char → Bool)

def Blind : Regex → Prop
  | epsilon | one _ => True
  | seq first second | alt first second => Blind first ∧ Blind second
  | many body | upTo _ body => Blind body
  | boundary => False
  | notAfter accepts | notBefore accepts => ∀ c, blank c = true → accepts c = false

def ZeroWidth : Regex → Prop
  | epsilon | boundary | notAfter _ | notBefore _ => True
  | seq first second | alt first second => ZeroWidth first ∧ ZeroWidth second
  | one _ | many _ | upTo _ _ => False

def Consumes : Regex → Char → Prop
  | one accepts, c => accepts c = true
  | seq first second, c | alt first second, c => Consumes first c ∨ Consumes second c
  | many body, c | upTo _ body, c => Consumes body c
  | _, _ => False

def StartsSolid : Regex → Prop
  | one accepts => ∀ c, accepts c = true → blank c = false
  | seq first second => StartsSolid first ∨ (ZeroWidth first ∧ StartsSolid second)
  | alt first second => StartsSolid first ∧ StartsSolid second
  | _ => False

def Solid (r : Regex) : Prop := ∀ c, Consumes r c → blank c = false

def EndsSolid : Regex → Prop
  | one accepts => ∀ c, accepts c = true → blank c = false
  | seq first second => EndsSolid second ∨ (Solid blank second ∧ EndsSolid first)
  | alt first second => EndsSolid first ∧ EndsSolid second
  | _ => False

structure Bordered (r : Regex) : Prop where
  blind : Blind blank r
  starts : StartsSolid blank r
  ends : Solid blank r ∨ EndsSolid blank r

variable {blank} {unicode : UnicodeData}

/-- `n` matches one after the other, each of them progress. -/
def Repeats (step : Cursor → List Cursor) : ℕ → Cursor → Cursor → Prop
  | 0, cursor, stop => stop = cursor
  | n + 1, cursor, stop =>
    ∃ next ∈ step cursor, next.2.length < cursor.2.length ∧ Repeats step n next stop

theorem mem_repeated {step : Cursor → List Cursor} {fuel : ℕ} {cursor stop : Cursor} :
    stop ∈ repeated step fuel cursor ↔ ∃ n, n ≤ fuel ∧ Repeats step n cursor stop := by
  induction fuel generalizing cursor with
  | zero =>
    simp only [repeated, List.mem_singleton, Nat.le_zero]
    constructor
    · exact fun h ↦ ⟨0, rfl, h⟩
    · rintro ⟨n, rfl, h⟩
      exact h
  | succ fuel ih =>
    simp only [repeated, List.mem_append, List.mem_flatMap, List.mem_filter, decide_eq_true_eq,
      List.mem_singleton, ih]
    constructor
    · rintro (⟨next, ⟨hnext, hlt⟩, n, hn, h⟩ | h)
      · exact ⟨n + 1, by omega, next, hnext, hlt, h⟩
      · exact ⟨0, by omega, h⟩
    · rintro ⟨n, hn, h⟩
      cases n with
      | zero => exact .inr h
      | succ n =>
        obtain ⟨next, hnext, hlt, h⟩ := h
        exact .inl ⟨next, ⟨hnext, hlt⟩, n, by omega, h⟩

theorem Repeats.length_le {step : Cursor → List Cursor} {n : ℕ} {cursor stop : Cursor}
    (h : Repeats step n cursor stop) : stop.2.length + n ≤ cursor.2.length := by
  induction n generalizing cursor with
  | zero => rw [show stop = cursor from h, Nat.add_zero]
  | succ n ih =>
    obtain ⟨next, -, hlt, h⟩ := h
    have hle := ih h
    omega

theorem mem_many {body : Regex} {cursor stop : Cursor} :
    stop ∈ ends unicode (many body) cursor ↔ ∃ n, Repeats (ends unicode body) n cursor stop := by
  rw [ends_many, mem_repeated]
  constructor
  · rintro ⟨n, -, h⟩
    exact ⟨n, h⟩
  · rintro ⟨n, h⟩
    have hle := h.length_le
    exact ⟨n, by omega, h⟩

theorem mem_upTo {n : ℕ} {body : Regex} {cursor stop : Cursor} :
    stop ∈ ends unicode (upTo n body) cursor ↔
    ∃ k, k ≤ n ∧ Repeats (ends unicode body) k cursor stop := by
  rw [ends_upTo, mem_repeated]

theorem mem_one {accepts : Char → Bool} {cursor stop : Cursor} :
    stop ∈ ends unicode (one accepts) cursor ↔
      ∃ c rest, cursor.2 = c :: rest ∧ accepts c = true ∧ stop = (some c, rest) := by
  obtain ⟨b, text⟩ := cursor
  cases text with
  | nil => simp [ends_one_nil]
  | cons c rest => simp [ends_one_cons, List.mem_ite_nil_right]

theorem mem_notAfter {accepts : Char → Bool} {cursor stop : Cursor} :
    stop ∈ ends unicode (notAfter accepts) cursor ↔ cursor.1.any accepts = false ∧
    stop = cursor := by
  simp [ends_notAfter, List.mem_ite_nil_left]

theorem mem_notBefore {accepts : Char → Bool} {cursor stop : Cursor} :
    stop ∈ ends unicode (notBefore accepts) cursor ↔ cursor.2.head?.any accepts = false ∧
    stop = cursor := by
  simp [ends_notBefore, List.mem_ite_nil_left]

theorem Repeats.relates {R : Cursor → Cursor → Prop} (hrefl : ∀ c, R c c)
    (htrans : ∀ {a b c}, R a b → R b c → R a c) {step : Cursor → List Cursor}
    (hstep : ∀ a b, b ∈ step a → R a b) {n : ℕ} {cursor stop : Cursor}
    (h : Repeats step n cursor stop) :
    R cursor stop := by
  induction n generalizing cursor with
  | zero => exact (show stop = cursor from h) ▸ hrefl cursor
  | succ n ih =>
    obtain ⟨next, hnext, -, h⟩ := h
    exact htrans (hstep cursor next hnext) (ih h)

theorem ends_relation {R : Cursor → Cursor → Prop} (hrefl : ∀ c, R c c)
    (htrans : ∀ {a b c}, R a b → R b c → R a c) {r : Regex}
    (hone : ∀ b c rest, Consumes r c → R (b, c :: rest) (some c, rest)) {cursor stop : Cursor}
    (h : stop ∈ ends unicode r cursor) : R cursor stop := by
  induction r generalizing cursor stop with
  | epsilon => exact List.mem_singleton.mp h ▸ hrefl cursor
  | one accepts =>
    obtain ⟨b, text⟩ := cursor
    obtain ⟨c, rest, rfl, hc, rfl⟩ := mem_one.mp h
    exact hone b c rest hc
  | seq first second ihfirst ihsecond =>
    obtain ⟨mid, hmid, h⟩ := List.mem_flatMap.mp h
    exact htrans (ihfirst (fun b c rest hc ↦ hone b c rest (.inl hc)) hmid)
      (ihsecond (fun b c rest hc ↦ hone b c rest (.inr hc)) h)
  | alt first second ihfirst ihsecond =>
    rcases List.mem_append.mp h with h | h
    · exact ihfirst (fun b c rest hc ↦ hone b c rest (.inl hc)) h
    · exact ihsecond (fun b c rest hc ↦ hone b c rest (.inr hc)) h
  | many body ih =>
    obtain ⟨n, h⟩ := mem_many.mp h
    exact h.relates hrefl htrans fun a b hab ↦ ih hone hab
  | upTo n body ih =>
    obtain ⟨k, -, h⟩ := mem_upTo.mp h
    exact h.relates hrefl htrans fun a b hab ↦ ih hone hab
  | boundary =>
    rw [ends_boundary] at h
    split_ifs at h
    · exact List.mem_singleton.mp h ▸ hrefl cursor
    · exact absurd h List.not_mem_nil
  | notAfter accepts =>
    rw [ends_notAfter] at h
    split_ifs at h
    · exact absurd h List.not_mem_nil
    · exact List.mem_singleton.mp h ▸ hrefl cursor
  | notBefore accepts =>
    rw [ends_notBefore] at h
    split_ifs at h
    · exact absurd h List.not_mem_nil
    · exact List.mem_singleton.mp h ▸ hrefl cursor

def Follows (cursor stop : Cursor) : Prop :=
  ∃ word, cursor.2 = word ++ stop.2 ∧ stop.1 = word.getLast?.or cursor.1

theorem follows_of_mem_ends {r : Regex} {cursor stop : Cursor} (h : stop ∈ ends unicode r cursor) :
    Follows cursor stop := by
  refine ends_relation (R := Follows) (fun c ↦ ⟨[], rfl, rfl⟩) ?_
    (fun b c rest _ ↦ ⟨[c], rfl, rfl⟩) h
  rintro a b c ⟨first, hfirst, hb⟩ ⟨second, hsecond, hc⟩
  refine ⟨first ++ second, by rw [hfirst, hsecond, List.append_assoc], ?_⟩
  rw [hc, hb, List.getLast?_append, Option.or_assoc]

theorem length_le_of_mem_ends {r : Regex} {cursor stop : Cursor}
    (h : stop ∈ ends unicode r cursor) :
    stop.2.length ≤ cursor.2.length := by
  obtain ⟨word, hword, -⟩ := follows_of_mem_ends h
  simp [hword]

theorem eq_of_zeroWidth {r : Regex} (hr : ZeroWidth r) {cursor stop : Cursor}
    (h : stop ∈ ends unicode r cursor) : stop = cursor := by
  have hnone : ∀ c, ¬ Consumes r c := by
    clear h
    intro c
    induction r with
    | seq first second ihfirst ihsecond => exact fun hc ↦ hc.elim (ihfirst hr.1) (ihsecond hr.2)
    | alt first second ihfirst ihsecond => exact fun hc ↦ hc.elim (ihfirst hr.1) (ihsecond hr.2)
    | one _ => exact absurd hr id
    | many _ => exact absurd hr id
    | upTo _ _ => exact absurd hr id
    | _ => exact id
  exact ends_relation (R := fun a b ↦ b = a) (fun _ ↦ rfl) (fun hab hbc ↦ hbc.trans hab)
    (fun _ c _ hc ↦ absurd hc (hnone c)) h

theorem starts_solid {r : Regex} (hr : StartsSolid blank r) {cursor stop : Cursor}
    (h : stop ∈ ends unicode r cursor) : ∃ c rest, cursor.2 = c :: rest ∧ blank c = false := by
  induction r generalizing cursor stop with
  | one accepts =>
    obtain ⟨c, rest, htext, hc, -⟩ := mem_one.mp h
    exact ⟨c, rest, htext, hr c hc⟩
  | seq first second ihfirst ihsecond =>
    obtain ⟨mid, hmid, h⟩ := List.mem_flatMap.mp h
    rcases hr with hr | ⟨hzero, hr⟩
    · exact ihfirst hr hmid
    · exact eq_of_zeroWidth hzero hmid ▸ ihsecond hr h
  | alt first second ihfirst ihsecond =>
    rcases List.mem_append.mp h with h | h
    · exact ihfirst hr.1 h
    · exact ihsecond hr.2 h
  | _ => exact absurd hr id

theorem solid_end {r : Regex} (hr : Solid blank r) {cursor stop : Cursor}
    (h : stop ∈ ends unicode r cursor) :
    stop = cursor ∨ ∃ c, stop.1 = some c ∧ blank c = false := by
  refine ends_relation (R := fun a b ↦ b = a ∨ ∃ c, b.1 = some c ∧ blank c = false)
    (fun _ ↦ .inl rfl) ?_
    (fun _ c _ hc ↦ .inr ⟨c, rfl, hr c hc⟩) h
  intro a b c hab hbc
  rcases hbc with rfl | hbc
  · exact hab
  · exact .inr hbc

theorem ends_solid {r : Regex} (hr : EndsSolid blank r) {cursor stop : Cursor}
    (h : stop ∈ ends unicode r cursor) : ∃ c, stop.1 = some c ∧ blank c = false := by
  induction r generalizing cursor stop with
  | one accepts =>
    obtain ⟨c, rest, -, hc, rfl⟩ := mem_one.mp h
    exact ⟨c, rfl, hr c hc⟩
  | seq first second ihfirst ihsecond =>
    obtain ⟨mid, hmid, h⟩ := List.mem_flatMap.mp h
    rcases hr with hr | ⟨hsolid, hr⟩
    · exact ihsecond hr h
    · rcases solid_end hsolid h with rfl | hend
      · exact ihfirst hr hmid
      · exact hend
  | alt first second ihfirst ihsecond =>
    rcases List.mem_append.mp h with h | h
    · exact ihfirst hr.1 h
    · exact ihsecond hr.2 h
  | _ => exact absurd hr id

def Alike (blank : Char → Bool) (a b : Option Char) : Prop :=
  a = b ∨ ((∀ c, a = some c → blank c = true) ∧ ∀ c, b = some c → blank c = true)

/-- The cursor in a text and the one at the same place in the text with `post` after it. -/
structure Within (blank : Char → Bool) (post : List Char) (inner outer : Cursor) : Prop where
  text : outer.2 = inner.2 ++ post
  before : Alike blank inner.1 outer.1

def Simulated (blank : Char → Bool) (post : List Char) (found : Cursor → Prop) (stop : Cursor) :
    Prop :=
  (∃ inner, found inner ∧ Within blank post inner stop) ∨ stop.2.length < post.length

variable {post : List Char}

theorem Repeats.simulated {step : Cursor → List Cursor}
    (hstep : ∀ inner outer, Within blank post inner outer → ∀ stop ∈ step outer,
      Simulated blank post (· ∈ step inner) stop) {n : ℕ} {inner outer stop : Cursor}
    (hwithin : Within blank post inner outer) (h : Repeats step n outer stop) :
    Simulated blank post (Repeats step n inner) stop := by
  induction n generalizing inner outer with
  | zero =>
    obtain rfl : stop = outer := h
    exact .inl ⟨inner, rfl, hwithin⟩
  | succ n ih =>
    obtain ⟨next, hnext, hlt, h⟩ := h
    rcases hstep inner outer hwithin next hnext with ⟨mid, hmid, hwithin'⟩ | hover
    · rcases ih hwithin' h with ⟨inner', hinner, hstop⟩ | hover
      · refine .inl ⟨inner', ⟨mid, hmid, ?_, hinner⟩, hstop⟩
        have houter := congrArg List.length hwithin.text
        have hnext' := congrArg List.length hwithin'.text
        rw [List.length_append] at houter hnext'
        omega
      · exact .inr hover
    · have hle := h.length_le
      exact .inr (by omega)

theorem simulated {r : Regex} (hr : Blind blank r) {inner outer stop : Cursor}
    (hwithin : Within blank post inner outer) (h : stop ∈ ends unicode r outer) :
    Simulated blank post (· ∈ ends unicode r inner) stop := by
  induction r generalizing inner outer stop with
  | epsilon =>
    obtain rfl := List.mem_singleton.mp h
    exact .inl ⟨inner, List.mem_singleton_self _, hwithin⟩
  | one accepts =>
    obtain ⟨c, rest, houter, hc, rfl⟩ := mem_one.mp h
    cases hinner : inner.2 with
    | nil =>
      right
      rw [hwithin.text, hinner, List.nil_append] at houter
      rw [houter, List.length_cons]
      exact Nat.lt_succ_self _
    | cons d rest' =>
      rw [hwithin.text, hinner, List.cons_append] at houter
      obtain ⟨rfl, rfl⟩ := List.cons.inj houter
      exact .inl ⟨(some d, rest'), mem_one.mpr ⟨d, rest', hinner, hc, rfl⟩, ⟨rfl, .inl rfl⟩⟩
  | seq first second ihfirst ihsecond =>
    obtain ⟨mid, hmid, h⟩ := List.mem_flatMap.mp h
    rcases ihfirst hr.1 hwithin hmid with ⟨inner', hinner, hwithin'⟩ | hover
    · rcases ihsecond hr.2 hwithin' h with ⟨inner'', hinner', hstop⟩ | hover
      · exact .inl ⟨inner'', List.mem_flatMap.mpr ⟨inner', hinner, hinner'⟩, hstop⟩
      · exact .inr hover
    · have hle := length_le_of_mem_ends h
      exact .inr (by omega)
  | alt first second ihfirst ihsecond =>
    rcases List.mem_append.mp h with h | h
    · exact (ihfirst hr.1 hwithin h).imp_left fun ⟨inner', hinner, hstop⟩ ↦
        ⟨inner', List.mem_append_left _ hinner, hstop⟩
    · exact (ihsecond hr.2 hwithin h).imp_left fun ⟨inner', hinner, hstop⟩ ↦
        ⟨inner', List.mem_append_right _ hinner, hstop⟩
  | many body ih =>
    obtain ⟨n, h⟩ := mem_many.mp h
    refine (h.simulated (fun _ _ hw _ hs ↦ ih hr hw hs) hwithin).imp_left ?_
    rintro ⟨inner', hinner, hstop⟩
    exact ⟨inner', mem_many.mpr ⟨n, hinner⟩, hstop⟩
  | upTo n body ih =>
    obtain ⟨k, hk, h⟩ := mem_upTo.mp h
    refine (h.simulated (fun _ _ hw _ hs ↦ ih hr hw hs) hwithin).imp_left ?_
    rintro ⟨inner', hinner, hstop⟩
    exact ⟨inner', mem_upTo.mpr ⟨k, hk, hinner⟩, hstop⟩
  | boundary => exact absurd hr id
  | notAfter accepts =>
    obtain ⟨hnot, rfl⟩ := mem_notAfter.mp h
    refine .inl ⟨inner, mem_notAfter.mpr ⟨?_, rfl⟩, hwithin⟩
    rcases hwithin.before with he | ⟨hblank, -⟩
    · rw [he, hnot]
    · cases hinner : inner.1 with
      | none => rfl
      | some c => exact hr c (hblank c hinner)
  | notBefore accepts =>
    obtain ⟨hnot, rfl⟩ := mem_notBefore.mp h
    refine .inl ⟨inner, mem_notBefore.mpr ⟨?_, rfl⟩, hwithin⟩
    rw [hwithin.text] at hnot
    cases htext : inner.2 with
    | nil => rfl
    | cons c rest => simpa [htext] using hnot

theorem getLast?_cons_or (c : Char) (pre : List Char) (before : Option Char) :
    (c :: pre).getLast?.or before = pre.getLast?.or (some c) := by
  rw [List.getLast?_cons]
  cases pre.getLast? <;> rfl

theorem searchFrom_iff {r : Regex} {before : Option Char} {text : List Char} :
    searchFrom unicode r before text = true ↔
      ∃ pre rest, text = pre ++ rest ∧ ends unicode r (pre.getLast?.or before, rest) ≠ [] := by
  induction text generalizing before with
  | nil =>
    simp only [searchFrom, decide_eq_true_eq]
    constructor
    · exact fun h ↦ ⟨[], [], rfl, h⟩
    · rintro ⟨pre, rest, he, h⟩
      obtain ⟨rfl, rfl⟩ := List.append_eq_nil_iff.mp he.symm
      exact h
  | cons c text ih =>
    simp only [searchFrom, Bool.or_eq_true, decide_eq_true_eq, ih]
    constructor
    · rintro (h | ⟨pre, rest, rfl, h⟩)
      · exact ⟨[], c :: text, rfl, h⟩
      · exact ⟨c :: pre, rest, rfl, by rwa [getLast?_cons_or]⟩
    · rintro ⟨pre, rest, he, h⟩
      cases pre with
      | nil =>
        obtain rfl : rest = c :: text := he.symm
        exact .inl h
      | cons d pre =>
        obtain ⟨rfl, rfl⟩ := List.cons.inj he
        exact .inr ⟨pre, rest, rfl, by rwa [getLast?_cons_or] at h⟩

theorem search_iff {r : Regex} {text : List Char} :
    search unicode r text = true ↔
      ∃ pre rest, text = pre ++ rest ∧ ∃ stop, stop ∈ ends unicode r (pre.getLast?, rest) := by
  simp only [search, searchFrom_iff, Option.or_none, ne_eq, List.eq_nil_iff_forall_not_mem,
    not_forall, not_not]

theorem search_of_surrounded {r : Regex} (hr : Bordered blank r) {lead text : List Char}
    (hlead : ∀ c ∈ lead, blank c = true) (hpost : ∀ c ∈ post, blank c = true)
    (h : search unicode r (lead ++ (text ++ post)) = true) : search unicode r text = true := by
  obtain ⟨pre, rest, hsplit, stop, hstop⟩ := search_iff.mp h
  obtain ⟨first, rest', hfirst, hsolid⟩ := starts_solid hr.starts hstop
  have hfirst' : rest = first :: rest' := hfirst
  -- the match does not start in `lead`
  obtain ⟨inside, rfl, hinside⟩ :
      ∃ inside, pre = lead ++ inside ∧ text ++ post = inside ++ rest := by
    rcases List.append_eq_append_iff.mp hsplit with ⟨inside, hpre, htext⟩ | ⟨skipped, hpre, hrest⟩
    · exact ⟨inside, hpre, htext⟩
    · cases skipped with
      | nil => exact ⟨[], by simpa using hpre.symm, by simpa using hrest.symm⟩
      | cons c skipped =>
        rw [hfirst', List.cons_append] at hrest
        obtain ⟨rfl, -⟩ := List.cons.inj hrest
        rw [hlead first (hpre ▸ by simp)] at hsolid
        cases hsolid
  -- nor in `post`
  obtain ⟨tail, rfl, hrest⟩ : ∃ tail, text = inside ++ tail ∧ rest = tail ++ post := by
    rcases List.append_eq_append_iff.mp hinside with ⟨skipped, hskip, hpost'⟩ | ⟨tail, htail, hrest⟩
    · cases skipped with
      | nil => exact ⟨[], by simpa using hskip.symm, by simpa using hpost'.symm⟩
      | cons c skipped =>
        rw [hpost (first) (hpost' ▸ by simp [hfirst'])] at hsolid
        cases hsolid
    · exact ⟨tail, htail, hrest⟩
  have hwithin : Within blank post (inside.getLast?, tail) ((lead ++ inside).getLast?, rest) := by
    refine ⟨hrest, ?_⟩
    rw [List.getLast?_append]
    cases hinner : inside.getLast? with
    | some c => exact .inl rfl
    | none =>
      refine .inr ⟨fun c hc ↦ (by cases hc), fun c hc ↦ hlead c ?_⟩
      exact List.mem_of_getLast? (by simpa using hc)
  rcases simulated hr.blind hwithin hstop with ⟨stop', hstop', -⟩ | hover
  · exact search_iff.mpr ⟨inside, tail, rfl, stop', hstop'⟩
  · -- a match that ends in `post` ends with a blank
    obtain ⟨last, hlast, hsolid'⟩ : ∃ c, stop.1 = some c ∧ blank c = false := by
      rcases hr.ends with hall | hend
      · refine (solid_end hall hstop).resolve_left fun he ↦ ?_
        rw [he, hrest, List.length_append] at hover
        omega
      · exact ends_solid hend hstop
    obtain ⟨word, hword, hlast'⟩ := follows_of_mem_ends hstop
    replace hword : tail ++ post = word ++ stop.2 := hrest ▸ hword
    rcases List.append_eq_append_iff.mp hword with ⟨beyond, rfl, hpost'⟩ | ⟨left, -, hstop'⟩
    · cases hover' : beyond.getLast? with
      | none =>
        rw [List.getLast?_eq_none_iff.mp hover', List.nil_append] at hpost'
        exact absurd hover (hpost' ▸ lt_irrefl _)
      | some c =>
        rw [List.getLast?_append, hover', hlast] at hlast'
        obtain rfl : last = c := by simpa using hlast'
        have hmem : last ∈ post := hpost' ▸ List.mem_append_left _ (List.mem_of_getLast? hover')
        rw [hpost last hmem] at hsolid'
        cases hsolid'
    · rw [hstop', List.length_append] at hover
      omega

theorem Repeats.within {step : Cursor → List Cursor}
    (hstep : ∀ inner outer, Within blank post inner outer → ∀ stop ∈ step inner,
      ∃ stop' ∈ step outer, Within blank post stop stop') {n : ℕ} {inner outer stop : Cursor}
    (hwithin : Within blank post inner outer) (h : Repeats step n inner stop) :
    ∃ stop', Repeats step n outer stop' ∧ Within blank post stop stop' := by
  induction n generalizing inner outer with
  | zero =>
    obtain rfl : stop = inner := h
    exact ⟨outer, rfl, hwithin⟩
  | succ n ih =>
    obtain ⟨next, hnext, hlt, h⟩ := h
    obtain ⟨next', hnext', hmid⟩ := hstep inner outer hwithin next hnext
    obtain ⟨stop', hstop', hend⟩ := ih hmid h
    refine ⟨stop', ⟨next', hnext', ?_, hstop'⟩, hend⟩
    rw [hwithin.text, hmid.text, List.length_append, List.length_append]
    omega

theorem ends_within {r : Regex} (hr : Blind blank r)
    (hpost : ∀ c, post.head? = some c → blank c = true) {inner outer stop : Cursor}
    (hwithin : Within blank post inner outer) (h : stop ∈ ends unicode r inner) :
    ∃ stop' ∈ ends unicode r outer, Within blank post stop stop' := by
  induction r generalizing inner outer stop with
  | epsilon =>
    obtain rfl := List.mem_singleton.mp h
    exact ⟨outer, List.mem_singleton_self _, hwithin⟩
  | one accepts =>
    obtain ⟨c, rest, hinner, hc, rfl⟩ := mem_one.mp h
    have houter : outer.2 = c :: (rest ++ post) := by rw [hwithin.text, hinner, List.cons_append]
    exact ⟨_, mem_one.mpr ⟨c, rest ++ post, houter, hc, rfl⟩, ⟨rfl, .inl rfl⟩⟩
  | seq first second ihfirst ihsecond =>
    obtain ⟨mid, hmid, h⟩ := List.mem_flatMap.mp h
    obtain ⟨mid', hmid', hwithin'⟩ := ihfirst hr.1 hwithin hmid
    obtain ⟨stop', hstop', hend⟩ := ihsecond hr.2 hwithin' h
    exact ⟨stop', List.mem_flatMap.mpr ⟨mid', hmid', hstop'⟩, hend⟩
  | alt first second ihfirst ihsecond =>
    rcases List.mem_append.mp h with h | h
    · obtain ⟨stop', hstop', hend⟩ := ihfirst hr.1 hwithin h
      exact ⟨stop', List.mem_append_left _ hstop', hend⟩
    · obtain ⟨stop', hstop', hend⟩ := ihsecond hr.2 hwithin h
      exact ⟨stop', List.mem_append_right _ hstop', hend⟩
  | many body ih =>
    obtain ⟨n, h⟩ := mem_many.mp h
    obtain ⟨stop', hstop', hend⟩ := h.within (fun _ _ hw _ hs ↦ ih hr hw hs) hwithin
    exact ⟨stop', mem_many.mpr ⟨n, hstop'⟩, hend⟩
  | upTo n body ih =>
    obtain ⟨k, hk, h⟩ := mem_upTo.mp h
    obtain ⟨stop', hstop', hend⟩ := h.within (fun _ _ hw _ hs ↦ ih hr hw hs) hwithin
    exact ⟨stop', mem_upTo.mpr ⟨k, hk, hstop'⟩, hend⟩
  | boundary => exact absurd hr id
  | notAfter accepts =>
    obtain ⟨hnot, rfl⟩ := mem_notAfter.mp h
    refine ⟨outer, mem_notAfter.mpr ⟨?_, rfl⟩, hwithin⟩
    rcases hwithin.before with he | ⟨-, hblank⟩
    · rw [← he, hnot]
    · cases houter : outer.1 with
      | none => rfl
      | some c => exact hr c (hblank c houter)
  | notBefore accepts =>
    obtain ⟨hnot, rfl⟩ := mem_notBefore.mp h
    refine ⟨outer, mem_notBefore.mpr ⟨?_, rfl⟩, hwithin⟩
    rw [hwithin.text]
    cases htext : stop.2 with
    | nil =>
      cases hhead : post.head? with
      | none => rw [List.nil_append, hhead]; rfl
      | some c => rw [List.nil_append, hhead]; exact hr c (hpost c hhead)
    | cons c rest => simpa [htext] using hnot

theorem search_within {r : Regex} (hr : Blind blank r) {lead text : List Char}
    (hlead : ∀ c, lead.getLast? = some c → blank c = true)
    (hpost : ∀ c, post.head? = some c → blank c = true)
    (h : search unicode r text = true) : search unicode r (lead ++ (text ++ post)) = true := by
  obtain ⟨pre, rest, rfl, stop, hstop⟩ := search_iff.mp h
  have hwithin : Within blank post (pre.getLast?, rest) ((lead ++ pre).getLast?, rest ++ post) := by
    refine ⟨rfl, ?_⟩
    rw [List.getLast?_append]
    cases hinner : pre.getLast? with
    | some c => exact .inl rfl
    | none => exact .inr ⟨fun c hc ↦ (by cases hc), fun c hc ↦ hlead c (by simpa using hc)⟩
  obtain ⟨stop', hstop', -⟩ := ends_within hr hpost hwithin hstop
  exact search_iff.mpr ⟨lead ++ pre, rest ++ post, by simp only [List.append_assoc], stop', hstop'⟩

theorem forall_sequence {p : Regex → Prop} (hnil : p epsilon)
    (hseq : ∀ r s, p r → p s → p (seq r s)) {rs : List Regex} (h : ∀ r ∈ rs, p r) :
    p (sequence rs) := by
  induction rs with
  | nil => exact hnil
  | cons r rs ih =>
    obtain ⟨hr, hrs⟩ := List.forall_mem_cons.mp h
    cases rs with
    | nil => exact hr
    | cons s rs => exact hseq r _ hr (ih hrs)

theorem blind_sequence {rs : List Regex} (h : ∀ r ∈ rs, Blind blank r) :
    Blind blank (sequence rs) :=
  forall_sequence trivial (fun _ _ ↦ And.intro) h

theorem solid_sequence {rs : List Regex} (h : ∀ r ∈ rs, Solid blank r) :
    Solid blank (sequence rs) :=
  forall_sequence (fun _ hc ↦ absurd hc id) (fun _ _ hr hs c hc ↦ hc.elim (hr c) (hs c)) h

theorem blind_text (literal : String) : Blind blank (text literal) := by
  apply blind_sequence
  intro r hr
  obtain ⟨p, -, rfl⟩ := List.mem_map.mp hr
  trivial

theorem solid_text {literal : String} (h : ∀ c ∈ literal.toList, blank c = false) :
    Solid blank (text literal) := by
  apply solid_sequence
  intro r hr
  obtain ⟨p, hp, rfl⟩ := List.mem_map.mp hr
  intro c hc
  rw [of_decide_eq_true hc]
  exact h p hp

theorem startsSolid_text {literal : String} (c : Char) (rest : List Char)
    (hliteral : literal.toList = c :: rest) (hc : blank c = false) :
    StartsSolid blank (text literal) := by
  unfold text
  rw [hliteral, List.map_cons]
  have hone : StartsSolid blank (one (· = c)) := fun d hd ↦ (of_decide_eq_true hd) ▸ hc
  cases rest with
  | nil => exact hone
  | cons d rest => exact .inl hone

theorem endsSolid_text {literal : String} (lead : List Char) (c : Char)
    (hliteral : literal.toList = lead ++ [c]) (hc : blank c = false) :
    EndsSolid blank (text literal) := by
  unfold text
  rw [hliteral]
  clear hliteral
  have hone : EndsSolid blank (one (· = c)) := fun d hd ↦ (of_decide_eq_true hd) ▸ hc
  induction lead with
  | nil => exact hone
  | cons d lead ih =>
    cases lead with
    | nil => exact .inl hone
    | cons e lead => exact .inl ih

theorem bordered_repetition {m : ℕ} {body tail : Regex} (hblind : Blind blank body)
    (hsolid : Solid blank body) (htail : Blind blank tail ∧ Solid blank tail) :
    Blind blank (sequence (List.replicate m body ++ [tail])) ∧
      Solid blank (sequence (List.replicate m body ++ [tail])) := by
  constructor
  · apply blind_sequence
    intro r hr
    rcases List.mem_append.mp hr with hr | hr
    · exact List.eq_of_mem_replicate hr ▸ hblind
    · exact List.mem_singleton.mp hr ▸ htail.1
  · apply solid_sequence
    intro r hr
    rcases List.mem_append.mp hr with hr | hr
    · exact List.eq_of_mem_replicate hr ▸ hsolid
    · exact List.mem_singleton.mp hr ▸ htail.2

end AgenticSecurity.Python.Regex
