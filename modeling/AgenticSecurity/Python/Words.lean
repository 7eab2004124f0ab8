import AgenticSecurity.Python.Matches

namespace AgenticSecurity.Python.Regex

/-- `\b(?:r)\b`. -/
def asWord (r : Regex) : Regex := sequence [boundary, r, boundary]

def notWord (unicode : UnicodeData) (c : Char) : Bool := ! isWord unicode c

def Standing (unicode : UnicodeData) (r : Regex) (before : Option Char) (word : List Char)
    (after : Option Char) : Prop :=
  Language r word ∧ before.any (isWord unicode) = false ∧ after.any (isWord unicode) = false

structure Wordlike (unicode : UnicodeData) (r : Regex) : Prop where
  free : Free r
  starts : StartsSolid (notWord unicode) r
  ends : EndsSolid (notWord unicode) r

section Search

variable {unicode : UnicodeData} {r : Regex}

theorem notWord_eq_true {c : Char} : notWord unicode c = true ↔ isWord unicode c = false := by
  simp [notWord]

theorem notWord_eq_false {c : Char} : notWord unicode c = false ↔ isWord unicode c = true := by
  simp [notWord]

theorem Wordlike.surroundable (h : Wordlike unicode r) :
    Surroundable (notWord unicode) (Standing unicode r) where
  before hc := by simp [Standing, notWord_eq_true.mp hc]
  after hc := by simp [Standing, notWord_eq_true.mp hc]
  first hword := language_first h.free h.starts hword.1
  last hword := language_last h.free h.ends hword.1

theorem mem_ends_asWord {cursor stop : Cursor} :
    stop ∈ ends unicode (asWord r) cursor ↔
      atBoundary unicode cursor = true ∧ stop ∈ ends unicode r cursor ∧
      atBoundary unicode stop = true := by
  have hseq : ends unicode (asWord r) cursor =
      (ends unicode boundary cursor).flatMap
        fun start ↦ (ends unicode r start).flatMap (ends unicode boundary) := rfl
  rw [hseq, List.mem_flatMap]
  constructor
  · intro h
    obtain ⟨start, hstart, h⟩ := h
    obtain ⟨hfirst, rfl⟩ := mem_boundary.mp hstart
    obtain ⟨mid, hmid, h⟩ := List.mem_flatMap.mp h
    obtain ⟨hlast, rfl⟩ := mem_boundary.mp h
    exact ⟨hfirst, hmid, hlast⟩
  · intro h
    obtain ⟨hfirst, hmid, hlast⟩ := h
    exact ⟨cursor, mem_boundary.mpr ⟨hfirst, rfl⟩,
      List.mem_flatMap.mpr ⟨stop, hmid, mem_boundary.mpr ⟨hlast, rfl⟩⟩⟩

theorem Wordlike.boundaries (h : Wordlike unicode r) {word : List Char} (hword : Language r word)
    {cursor stop : Cursor} (hpast : Past word cursor stop) :
    (atBoundary unicode cursor = true ↔ cursor.1.any (isWord unicode) = false) ∧
      (atBoundary unicode stop = true ↔ stop.2.head?.any (isWord unicode) = false) := by
  obtain ⟨c, rest, hfirst, hc⟩ := language_first h.free h.starts hword
  obtain ⟨rest', d, hlast, hd⟩ := language_last h.free h.ends hword
  have hhead : cursor.2.head?.any (isWord unicode) = true := by
    rw [hpast.text, hfirst]
    exact notWord_eq_false.mp hc
  have hbefore : stop.1.any (isWord unicode) = true := by
    rw [hpast.before, hlast, List.getLast?_append]
    exact notWord_eq_false.mp hd
  rw [atBoundary, atBoundary, hhead, hbefore]
  exact ⟨by simp, by simp⟩

theorem search_asWord (h : Wordlike unicode r) {text : List Char} :
    search unicode (asWord r) text = true ↔ Occurs (Standing unicode r) text := by
  rw [search_iff]
  constructor
  · intro hfound
    obtain ⟨pre, rest, rfl, stop, hstop⟩ := hfound
    obtain ⟨hfirst, hmatch, hlast⟩ := mem_ends_asWord.mp hstop
    obtain ⟨word, hword, hpast⟩ := (mem_ends_iff h.free).mp hmatch
    obtain ⟨hbefore, hafter⟩ := h.boundaries hword hpast
    exact ⟨pre, word, stop.2, congrArg (pre ++ ·) hpast.text, hword, hbefore.mp hfirst,
      hafter.mp hlast⟩
  · intro hoccurs
    obtain ⟨pre, word, tail, rfl, hword, hbefore, hafter⟩ := hoccurs
    have hpast : Past word (pre.getLast?, word ++ tail) (word.getLast?.or pre.getLast?, tail) :=
      ⟨rfl, rfl⟩
    obtain ⟨hfirst, hlast⟩ := h.boundaries hword hpast
    refine ⟨pre, word ++ tail, rfl, _,
      mem_ends_asWord.mpr ⟨hfirst.mpr hbefore, ?_, hlast.mpr hafter⟩⟩
    exact (mem_ends_iff h.free).mpr ⟨word, hword, hpast⟩

theorem language_of_fullmatch (hr : Free r) {word : List Char}
    (h : fullmatch unicode r word = true) :
    Language r word := by
  obtain ⟨stop, hstop, hend⟩ := List.any_eq_true.mp h
  obtain ⟨word', hword, hpast⟩ := (mem_ends_iff hr).mp hstop
  have htext : word = word' ++ stop.2 := hpast.text
  rw [of_decide_eq_true hend, List.append_nil] at htext
  exact htext ▸ hword

theorem search_of_language (hr : Free r) {text : List Char}
    (h : Occurs (fun _ word _ ↦ Language r word) text) :
    search unicode r text = true := by
  obtain ⟨pre, word, tail, rfl, hword⟩ := h
  exact search_iff.mpr
    ⟨pre, word ++ tail, rfl, (word.getLast?.or pre.getLast?, tail),
      (mem_ends_iff hr).mpr ⟨word, hword, rfl, rfl⟩⟩

end Search

section Separators

variable {blank : Char → Bool} {wanted : Option Char → List Char → Option Char → Prop}
  {a b : List Char}

theorem Surroundable.occurs_surrounded (h : Surroundable blank wanted) {lead post : List Char}
    (hlead : ∀ c ∈ lead, blank c = true) (hpost : ∀ c ∈ post, blank c = true) :
    Occurs wanted (lead ++ (a ++ post)) ↔ Occurs wanted a :=
  ⟨Occurs.of_surrounded h hlead hpost,
    Occurs.within h (fun c hc ↦ hlead c (List.mem_of_getLast? hc))
      fun c hc ↦ hpost c (List.mem_of_head? hc)⟩

theorem Surroundable.occurs_behind (h : Surroundable blank wanted) {lead : List Char}
    (hlead : ∀ c ∈ lead, blank c = true) : Occurs wanted (lead ++ a) ↔ Occurs wanted a := by
  have hsurrounded : Occurs wanted (lead ++ (a ++ [])) ↔ Occurs wanted a :=
    h.occurs_surrounded hlead (List.forall_mem_nil _)
  rwa [List.append_nil] at hsurrounded

theorem Surroundable.occurs_before (h : Surroundable blank wanted) {post : List Char}
    (hpost : ∀ c ∈ post, blank c = true) : Occurs wanted (a ++ post) ↔ Occurs wanted a :=
  h.occurs_surrounded (List.forall_mem_nil _) hpost

theorem Surroundable.occurs_append_cons (h : Surroundable blank wanted) {sep : Char}
    (hblank : blank sep = true) (hsep : ∀ b word d, wanted b word d → sep ∉ word) :
    Occurs wanted (a ++ sep :: b) ↔ Occurs wanted a ∨ Occurs wanted b := by
  constructor
  · intro hoccurs
    obtain ⟨pre, word, tail, hsplit, hword⟩ := hoccurs
    have hnot := hsep _ _ _ hword
    rcases List.append_eq_append_iff.mp hsplit with ⟨left, hpre, hright⟩ | ⟨left, ha, hright⟩
    · cases left with
      | nil =>
        -- the word would begin with the separator
        obtain ⟨c, rest, hfirst, -⟩ := h.first hword
        rw [List.nil_append, hfirst, List.cons_append] at hright
        refine absurd ?_ hnot
        rw [hfirst, (List.cons.inj hright).1]
        exact List.mem_cons_self
      | cons c left =>
        obtain ⟨rfl, rfl⟩ := List.cons.inj hright
        refine .inr ⟨left, word, tail, rfl, ?_⟩
        rw [hpre, List.getLast?_append, getLast?_cons_or] at hword
        cases hlast : left.getLast? with
        | some d => simpa [hlast] using hword
        | none => exact (h.before hblank).mp (by simpa [hlast] using hword)
    · rcases List.append_eq_append_iff.mp hright with ⟨rest, hleft, htail⟩ | ⟨rest, hwhole, htail⟩
      · cases rest with
        | nil =>
          refine .inl ⟨pre, word, [], by simpa [hleft] using ha, ?_⟩
          rw [htail] at hword
          exact (h.after hblank).mp hword
        | cons c rest =>
          refine .inl ⟨pre, word, c :: rest, by rw [ha, hleft], ?_⟩
          rw [htail] at hword
          exact hword
      · cases rest with
        | nil =>
          refine .inl ⟨pre, word, [], by simpa [hwhole] using ha, ?_⟩
          rw [show tail = sep :: b from htail.symm] at hword
          exact (h.after hblank).mp hword
        | cons c rest =>
          refine absurd ?_ hnot
          rw [hwhole, (List.cons.inj htail).1]
          simp
  · intro hoccurs
    rcases hoccurs with ha | hb
    · have hwithin : Occurs wanted ([] ++ (a ++ sep :: b)) := by
        refine ha.within h (fun c hc ↦ (by cases hc)) ?_
        intro c hc
        obtain rfl : sep = c := Option.some.inj hc
        exact hblank
      exact hwithin
    · have hwithin : Occurs wanted ((a ++ [sep]) ++ (b ++ [])) := by
        refine hb.within h ?_ (fun c hc ↦ (by cases hc))
        intro c hc
        rw [List.getLast?_concat] at hc
        obtain rfl := Option.some.inj hc
        exact hblank
      simpa using hwithin

structure Separates (blank : Char → Bool) (wanted : Option Char → List Char → Option Char → Prop)
    (separator : List Char) : Prop where
  exists_cons :
    ∃ c blanks, separator = c :: blanks ∧ blank c = true ∧ (∀ d ∈ blanks, blank d = true) ∧
    ∀ b word d, wanted b word d → c ∉ word

variable {separator : List Char}

theorem Surroundable.occurs_separated (h : Surroundable blank wanted)
    (hseparates : Separates blank wanted separator) :
    Occurs wanted (a ++ (separator ++ b)) ↔ Occurs wanted a ∨ Occurs wanted b := by
  obtain ⟨c, blanks, rfl, hc, hblanks, hnot⟩ := hseparates.exists_cons
  rw [List.cons_append, h.occurs_append_cons hc hnot, h.occurs_behind hblanks]

theorem Surroundable.occurs_intercalate (h : Surroundable blank wanted)
    (hseparates : Separates blank wanted separator) (parts : List (List Char)) :
    Occurs wanted (separator.intercalate parts) ↔ ∃ part ∈ parts, Occurs wanted part := by
  have hnil : ¬ Occurs wanted [] := by
    refine not_occurs_nil fun b word d hword ↦ ?_
    obtain ⟨c, rest, hfirst, -⟩ := h.first hword
    exact hfirst ▸ List.cons_ne_nil c rest
  induction parts with
  | nil => exact iff_of_false hnil (by simp)
  | cons part parts ih =>
    cases parts with
    | nil => simp
    | cons next parts =>
      rw [List.intercalate_cons_cons, List.append_assoc, h.occurs_separated hseparates]
      refine (or_congr_right ih).trans ?_
      simp only [List.mem_cons, exists_eq_or_imp]

end Separators

end AgenticSecurity.Python.Regex
