import AgenticSecurity.Python.Text
import Mathlib.Data.List.DropRight

namespace AgenticSecurity.Python

structure Line where
  body : List Char
  ending : List Char
  deriving DecidableEq, Repr

def Line.text (line : Line) : List Char := line.body ++ line.ending

def linesFrom (body : List Char) : List Char → List Line
  | [] => if body = [] then [] else [⟨body, []⟩]
  | '\r' :: '\n' :: rest => ⟨body, ['\r', '\n']⟩ :: linesFrom [] rest
  | c :: rest => if isLineBreak c then ⟨body, [c]⟩ :: linesFrom [] rest
      else linesFrom (body ++ [c]) rest

/-- `text.splitlines(keepends=True)`, each line apart from its end. -/
def linesOf (text : List Char) : List Line := linesFrom [] text

def lineBegin (lines : List Line) (i : ℕ) : ℕ := ((lines.take i).flatMap Line.text).length

def lineStop (lines : List Line) (i : ℕ) : ℕ :=
  lineBegin lines i + (lines[i]?.elim 0 fun line ↦ line.body.length)

def lineBreaks : List Char → ℕ
  | [] => 0
  | '\r' :: '\n' :: rest => lineBreaks rest + 1
  | c :: rest => if isLineBreak c then lineBreaks rest + 1 else lineBreaks rest

def InsideBreak (text : List Char) (offset : ℕ) : Prop :=
  ∃ k, offset = k + 1 ∧ text[k]? = some '\r' ∧ text[k + 1]? = some '\n'

theorem splitlinesFrom_eq (body text : List Char) :
    splitlinesFrom body text = (linesFrom body text).map Line.body := by
  fun_induction splitlinesFrom body text with
  | case1 => rfl
  | case2 body h => simp [linesFrom, h]
  | case3 body rest ih => rw [linesFrom, ih, List.map_cons]
  | case4 body c rest hcrlf hbreak ih =>
    rw [linesFrom.eq_3 _ _ _ hcrlf, if_pos hbreak, ih, List.map_cons]
  | case5 body c rest hcrlf hbreak ih => rw [linesFrom.eq_3 _ _ _ hcrlf, if_neg hbreak, ih]

inductive Ends : List Char → List Char → Prop
  | crlf {rest : List Char} : Ends ['\r', '\n'] rest
  | single {c : Char} {rest : List Char} (hbreak : isLineBreak c = true)
      (hcrlf : ∀ rest', c = '\r' → rest = '\n' :: rest' → False) : Ends [c] rest

inductive Lines : List Char → List Line → Prop
  | nil : Lines [] []
  | last {body : List Char} (hne : body ≠ []) (hbody : ∀ c ∈ body, isLineBreak c = false) :
      Lines body [⟨body, []⟩]
  | cons {body ending rest : List Char} {lines : List Line}
      (hbody : ∀ c ∈ body, isLineBreak c = false)
      (hending : Ends ending rest) (hrest : Lines rest lines) :
      Lines (body ++ (ending ++ rest)) (⟨body, ending⟩ :: lines)

theorem lines_linesFrom {body : List Char} (text : List Char)
    (hbody : ∀ c ∈ body, isLineBreak c = false) :
    Lines (body ++ text) (linesFrom body text) := by
  fun_induction linesFrom body text with
  | case1 => exact .nil
  | case2 body hne =>
    rw [List.append_nil]
    exact .last hne hbody
  | case3 body rest ih => exact .cons hbody .crlf (ih (by simp))
  | case4 body c rest hcrlf hbreak ih => exact .cons hbody (.single hbreak hcrlf) (ih (by simp))
  | case5 body c rest hcrlf hbreak ih =>
    have h := ih (List.forall_mem_append.mpr ⟨hbody, by simpa using hbreak⟩)
    rwa [List.append_assoc, List.singleton_append] at h

theorem lines_linesOf (text : List Char) : Lines text (linesOf text) :=
  lines_linesFrom text fun _ h ↦ absurd h List.not_mem_nil

theorem Ends.ne_nil {ending rest : List Char} (h : Ends ending rest) : ending ≠ [] := by
  cases h <;> exact List.cons_ne_nil _ _

theorem Ends.eq_newline {ending rest ending' : List Char} (h : Ends ending rest)
    (hnewline : ending = '\n' :: ending') :
    ending = ['\n'] := by
  cases h with
  | crlf => simp at hnewline
  | single => simp_all

theorem lineBreaks_of_body {body : List Char} (h : ∀ c ∈ body, isLineBreak c = false) :
    lineBreaks body = 0 := by
  fun_induction lineBreaks body with
  | case1 => rfl
  | case2 rest ih => exact absurd (h '\r' List.mem_cons_self) (by decide)
  | case3 c rest hcrlf hbreak ih => simp [h c] at hbreak
  | case4 c rest hcrlf hbreak ih => exact ih fun d hd ↦ h d (List.mem_cons_of_mem _ hd)

theorem lineBreaks_cons_body {c : Char} (text : List Char) (h : isLineBreak c = false) :
    lineBreaks (c :: text) = lineBreaks text := by
  rw [lineBreaks.eq_3 _ _ fun rest hc ↦ absurd h (by rw [hc]; decide), h, if_neg Bool.false_ne_true]

theorem lineBreaks_line {body ending : List Char} (rest : List Char)
    (hbody : ∀ c ∈ body, isLineBreak c = false) (hending : Ends ending rest) :
    lineBreaks (body ++ (ending ++ rest)) = lineBreaks rest + 1 := by
  induction body with
  | nil =>
    cases hending with
    | crlf => rfl
    | single hbreak hcrlf =>
      rw [List.nil_append, List.singleton_append, lineBreaks.eq_3 _ _ hcrlf, if_pos hbreak]
  | cons c body ih =>
    rw [List.cons_append, lineBreaks_cons_body _ (hbody c List.mem_cons_self),
      ih fun d hd ↦ hbody d (List.mem_cons_of_mem _ hd)]

theorem Ends.of_prefix {ending rest rest' : List Char} (h : Ends ending rest)
    (hrest : rest' <+: rest) :
    Ends ending rest' := by
  cases h with
  | crlf => exact .crlf
  | single hbreak hcrlf =>
    refine .single hbreak fun later hc hlater ↦ ?_
    obtain ⟨more, rfl⟩ := hrest
    exact hcrlf (later ++ more) hc (by rw [hlater, List.cons_append])

theorem Ends.head {ending rest : List Char} (h : Ends ending rest) :
    ∃ c, ending.head? = some c ∧ isLineBreak c = true := by
  cases h with
  | crlf => exact ⟨'\r', rfl, rfl⟩
  | single hbreak => exact ⟨_, rfl, hbreak⟩

@[simp] theorem lineBegin_zero (lines : List Line) : lineBegin lines 0 = 0 := by simp [lineBegin]

@[simp] theorem lineBegin_succ (line : Line) (lines : List Line) (i : ℕ) :
    lineBegin (line :: lines) (i + 1) = line.text.length + lineBegin lines i := by
  simp [lineBegin]

@[simp] theorem lineStop_zero (line : Line) (lines : List Line) :
    lineStop (line :: lines) 0 = line.body.length := by
  simp [lineStop]

@[simp] theorem lineStop_succ (line : Line) (lines : List Line) (i : ℕ) :
    lineStop (line :: lines) (i + 1) = line.text.length + lineStop lines i := by
  simp [lineStop, Nat.add_assoc]

theorem drop_text (body ending rest : List Char) (k : ℕ) :
    (body ++ (ending ++ rest)).drop ((Line.mk body ending).text.length + k) = rest.drop k := by
  rw [Line.text, ← List.append_assoc, List.drop_length_add_append]

theorem Lines.drop {text : List Char} {lines : List Line} (h : Lines text lines) (i : ℕ) :
    Lines (text.drop (lineBegin lines i)) (lines.drop i) := by
  induction h generalizing i with
  | nil => simpa using Lines.nil
  | last hne hbody =>
    cases i with
    | zero => simpa using Lines.last hne hbody
    | succ i => simpa [Line.text, lineBegin] using Lines.nil
  | @cons body ending rest lines hbody hending hrest ih =>
    cases i with
    | zero => simpa using Lines.cons hbody hending hrest
    | succ i =>
      rw [lineBegin_succ, drop_text, List.drop_succ_cons]
      exact ih i

theorem Lines.body_of_mem {text : List Char} {lines : List Line} (h : Lines text lines) :
    ∀ line ∈ lines, ∀ c ∈ line.body, isLineBreak c = false := by
  induction h with
  | nil => simp
  | last hne hbody => simpa using hbody
  | cons hbody hending hrest ih => exact List.forall_mem_cons.mpr ⟨hbody, ih⟩

theorem getElem?_length_add {α : Type} (before rest : List α) (k : ℕ) :
    (before ++ rest)[before.length + k]? = rest[k]? := by
  rw [List.getElem?_append_right (Nat.le_add_right _ _), Nat.add_sub_cancel_left]

theorem InsideBreak.append {rest : List Char} {offset : ℕ} (before : List Char)
    (h : InsideBreak rest offset) :
    InsideBreak (before ++ rest) (before.length + offset) := by
  obtain ⟨k, rfl, hcr, hlf⟩ := h
  refine ⟨before.length + k, rfl, ?_, ?_⟩
  · rwa [getElem?_length_add]
  · rwa [Nat.add_assoc, getElem?_length_add]

theorem InsideBreak.of_append {before rest : List Char} {offset : ℕ}
    (h : InsideBreak (before ++ rest) (before.length + (offset + 1))) :
    InsideBreak rest (offset + 1) := by
  obtain ⟨k, hk, hcr, hlf⟩ := h
  obtain rfl : k = before.length + offset := by omega
  rw [getElem?_length_add] at hcr
  rw [Nat.add_assoc, getElem?_length_add] at hlf
  exact ⟨offset, rfl, hcr, hlf⟩

theorem take_text (body ending rest : List Char) (k : ℕ) :
    (body ++ (ending ++ rest)).take ((Line.mk body ending).text.length + k) = body ++
      (ending ++ rest.take k) := by
  rw [Line.text, ← List.append_assoc, List.take_length_add_append, List.append_assoc]

theorem not_insideBreak_line {body ending rest : List Char} (hending : Ends ending rest) :
    ¬ InsideBreak (body ++ (ending ++ rest)) (Line.mk body ending).text.length := by
  intro ⟨k, hk, hcr, hlf⟩
  rw [Line.text, List.length_append] at hk
  cases hending with
  | crlf =>
    obtain rfl : k = body.length + 1 := by simpa using hk.symm
    simp at hcr
  | single hbreak hcrlf =>
    obtain rfl : k = body.length + 0 := by simpa using hk.symm
    rw [getElem?_length_add] at hcr
    rw [Nat.add_assoc, getElem?_length_add, List.singleton_append] at hlf
    obtain ⟨rest', hrest⟩ := List.head?_eq_some_iff.mp (List.head?_eq_getElem?.trans hlf)
    exact hcrlf rest' (by simpa using hcr) hrest

theorem text_le_of_not_inside {body ending rest : List Char} {offset : ℕ}
    (hending : Ends ending rest) (hoffset : body.length < offset)
    (hinside : ¬ InsideBreak (body ++ (ending ++ rest)) offset) :
    (Line.mk body ending).text.length ≤ offset := by
  rw [Line.text, List.length_append]
  cases hending with
  | crlf =>
    by_contra h
    obtain rfl : offset = body.length + 1 := by
      simp only [List.length_cons, List.length_nil] at h
      omega
    exact hinside ⟨body.length + 0, rfl, getElem?_length_add _ _ _, getElem?_length_add _ _ 1⟩
  | single => exact hoffset

theorem Lines.breaks_before {text : List Char} {lines : List Line} (h : Lines text lines) {i : ℕ}
    (hi : i < lines.length) :
    lineBreaks (text.take (lineBegin lines i)) = i ∧ ¬ InsideBreak text (lineBegin lines i) := by
  have hzero (text : List Char) : ¬ InsideBreak text 0 := fun ⟨k, hk, _⟩ ↦ by omega
  induction h generalizing i with
  | nil => exact absurd hi (Nat.not_lt_zero i)
  | last hne hbody =>
    obtain rfl : i = 0 := by simpa using hi
    exact ⟨by simp [lineBreaks], by simpa using hzero _⟩
  | @cons body ending rest lines hbody hending hrest ih =>
    cases i with
    | zero => exact ⟨by simp [lineBreaks], by simpa using hzero _⟩
    | succ i =>
      obtain ⟨hbreaks, hinside⟩ := ih (Nat.lt_of_succ_lt_succ hi)
      rw [lineBegin_succ, take_text,
        lineBreaks_line _ hbody (hending.of_prefix (List.take_prefix _ _)), hbreaks]
      refine ⟨rfl, ?_⟩
      cases hbegin : lineBegin lines i with
      | zero => exact not_insideBreak_line hending
      | succ offset =>
        intro h
        rw [← List.append_assoc] at h
        exact hinside (hbegin ▸ h.of_append)

theorem Lines.line_of_offset {text : List Char} {lines : List Line} (h : Lines text lines)
    {offset : ℕ} (hoffset : offset ≤ text.length) (hinside : ¬ InsideBreak text offset) :
    lineBegin lines (lineBreaks (text.take offset)) ≤ offset ∧
      (lineBreaks (text.take offset) < lines.length →
        offset ≤ lineStop lines (lineBreaks (text.take offset))) := by
  induction h generalizing offset with
  | nil => simp [lineBreaks]
  | @last body hne hbody =>
    have hbreaks : lineBreaks (body.take offset) = 0 :=
      lineBreaks_of_body fun c hc ↦ hbody c (List.mem_of_mem_take hc)
    rw [hbreaks]
    simpa using hoffset
  | @cons body ending rest lines hbody hending hrest ih =>
    by_cases hfirst : offset ≤ body.length
    · have hbreaks : lineBreaks ((body ++ (ending ++ rest)).take offset) = 0 := by
        rw [List.take_append_of_le_length hfirst]
        exact lineBreaks_of_body fun c hc ↦ hbody c (List.mem_of_mem_take hc)
      rw [hbreaks]
      simpa using hfirst
    · obtain ⟨k, rfl⟩ :=
        Nat.exists_eq_add_of_le (text_le_of_not_inside hending (not_le.mp hfirst) hinside)
      rw [take_text, lineBreaks_line _ hbody (hending.of_prefix (List.take_prefix _ _)),
        lineBegin_succ, lineStop_succ, List.length_cons]
      have hk : k ≤ rest.length := by
        simp only [Line.text, List.length_append] at hoffset
        omega
      have hinside' : ¬ InsideBreak rest k := by
        intro h
        have h' := h.append (Line.mk body ending).text
        rw [Line.text, List.append_assoc] at h'
        exact hinside h'
      obtain ⟨hbegin, hstop⟩ := ih hk hinside'
      exact ⟨Nat.add_le_add_left hbegin _,
        fun h ↦ Nat.add_le_add_left (hstop (Nat.lt_of_succ_lt_succ h)) _⟩

theorem Lines.eq_zero_of_begins {text : List Char} {line : Line} {lines : List Line}
    (h : Lines text (line :: lines)) {d : ℕ} (hd : d ≤ line.body.length)
    (hbegins : line.body <+: text.drop d) : d = 0 := by
  cases h with
  | last hne hbody =>
    have hlength := hbegins.length_le
    have hpos := List.length_pos_iff.mpr hne
    rw [List.length_drop] at hlength
    dsimp only at hlength
    omega
  | @cons body ending rest _ hbody hending hrest =>
    by_contra hpos
    -- the line would go on over the break that ends it
    obtain ⟨c, hc, hbreak⟩ := hending.head
    have hat : (body ++ (ending ++ rest))[body.length + 0]? = some c := by
      rw [getElem?_length_add, ← List.head?_eq_getElem?, List.head?_append, hc, Option.some_or]
    have hlt : body.length - d < body.length := by
      dsimp only at hd
      omega
    have hsame : body[body.length - d]? = some c := by
      obtain ⟨more, hmore⟩ := hbegins
      have hmore' : body[body.length - d]? = (body ++ more)[body.length - d]? :=
        (List.getElem?_append_left hlt).symm
      rw [hmore', hmore, List.getElem?_drop, Nat.add_sub_of_le hd]
      exact hat
    exact absurd hbreak (by rw [hbody c (List.mem_of_getElem? hsame)]; decide)

theorem Lines.quote_length {text : List Char} {lines : List Line} (h : Lines text lines) {m : ℕ}
    (hm : m < lines.length) (hbegins : join ['\n'] ((lines.take (m + 1)).map Line.body) <+: text) :
    (join ['\n'] ((lines.take (m + 1)).map Line.body)).length = lineStop lines m := by
  induction m generalizing text lines with
  | zero =>
    obtain ⟨line, lines, rfl⟩ := List.exists_cons_of_length_pos hm
    simp [join]
  | succ m ih =>
    cases h with
    | nil => exact absurd hm (Nat.not_lt_zero _)
    | last => simp at hm
    | @cons body ending rest lines hbody hending hrest =>
      have hm' : m < lines.length := Nat.lt_of_succ_lt_succ hm
      have hne : (lines.take (m + 1)).map Line.body ≠ [] := by
        apply List.ne_nil_of_length_pos
        rw [List.length_map, List.length_take]
        omega
      rw [List.take_succ_cons, List.map_cons, join, List.intercalate_cons_of_ne_nil hne]
        at hbegins ⊢
      rw [List.append_assoc, List.prefix_append_right_inj, List.singleton_append] at hbegins
      obtain ⟨ending', hnewline⟩ : ∃ ending', ending = '\n' :: ending' := by
        obtain ⟨c, ending', rfl⟩ := List.exists_cons_of_ne_nil hending.ne_nil
        rw [List.cons_append, List.cons_prefix_cons] at hbegins
        exact ⟨ending', by rw [hbegins.1]⟩
      obtain rfl := hending.eq_newline hnewline
      have hquote := ih hrest hm' (List.cons_prefix_cons.mp hbegins).2
      rw [join] at hquote
      simp only [List.length_append, hquote, lineStop_succ, Line.text]

theorem count_newline_join {parts : List (List Char)} (h : ∀ part ∈ parts, '\n' ∉ part)
    (hne : parts ≠ []) :
    (join ['\n'] parts).count '\n' + 1 = parts.length := by
  induction parts with
  | nil => exact absurd rfl hne
  | cons part parts ih =>
    obtain ⟨hpart, hparts⟩ := List.forall_mem_cons.mp h
    by_cases hlast : parts = []
    · simp [hlast, join, List.count_eq_zero.mpr hpart]
    · rw [join, List.intercalate_cons_of_ne_nil hlast, List.count_append, List.count_append,
        List.count_eq_zero.mpr hpart, List.length_cons, ← ih hparts hlast, join]
      simp [Nat.add_comm]

theorem prefix_join (part : List Char) (parts : List (List Char)) :
    part <+: join ['\n'] (part :: parts) := by
  cases parts with
  | nil => simp [join]
  | cons next parts =>
    rw [join, List.intercalate_cons_cons, List.append_assoc]
    exact List.prefix_append _ _

theorem lineStop_add (lines : List Line) (first m : ℕ) :
    lineStop lines (first + m) = lineBegin lines first + lineStop (lines.drop first) m := by
  induction first generalizing lines with
  | zero => simp
  | succ first ih =>
    cases lines with
    | nil => simp [lineStop, lineBegin]
    | cons line lines =>
      rw [Nat.add_right_comm, lineStop_succ, ih, lineBegin_succ, List.drop_succ_cons, Nat.add_assoc]

section Quote

variable {text quote : List Char} {lines : List Line} {first stop offset : ℕ}

theorem Lines.same_place_iff (h : Lines text lines) (hoffset : offset ≤ text.length)
    (hstop : first < stop) (hlines : join ['\n'] (((lines.take stop).drop first).map Line.body) =
      quote) (hne : quote ≠ [])
    (hbegins : quote <+: text.drop offset) :
    (stop ≤ lines.length ∧ offset = lineBegin lines first ∧
      offset + quote.length = lineStop lines (stop - 1)) ↔
      lineBreaks (text.take offset) = first ∧ stop = first + quote.count '\n' + 1 ∧
      ¬ InsideBreak text offset := by
  rw [List.drop_take] at hlines
  have hfirst : first < lines.length := by
    by_contra hpast
    rw [List.drop_of_length_le (not_lt.mp hpast), List.take_nil] at hlines
    exact hne hlines.symm
  have htail := h.drop first
  obtain ⟨line, more, hline⟩ :=
    List.exists_cons_of_length_pos (List.length_drop ▸ Nat.sub_pos_of_lt hfirst)
  have hcount : quote.count '\n' + 1 = min (stop - first) (lines.length - first) := by
    have hlength : (((lines.drop first).take (stop - first)).map Line.body).length =
        min (stop - first) (lines.length - first) := by
      rw [List.length_map, List.length_take, List.length_drop]
    rw [← hlines, count_newline_join ?_ (List.ne_nil_of_length_pos (by omega)), hlength]
    intro part hpart hnewline
    obtain ⟨line, hmem, rfl⟩ := List.mem_map.mp hpart
    exact absurd (h.body_of_mem line (List.mem_of_mem_drop (List.mem_of_mem_take hmem)) '\n'
      hnewline) (by decide)
  constructor
  · intro ⟨hle, hbegin, _⟩
    obtain ⟨hbreaks, hinside⟩ := h.breaks_before hfirst
    rw [hbegin]
    exact ⟨hbreaks, by omega, hinside⟩
  · intro ⟨hbreaks, hquote, hinside⟩
    have htail := h.drop first
    obtain ⟨m, rfl⟩ := Nat.exists_eq_add_of_lt hstop
    rw [Nat.add_assoc, Nat.add_sub_cancel_left] at hlines
    obtain ⟨hbegin, hwithin⟩ := h.line_of_offset hoffset hinside
    rw [hbreaks] at hbegin hwithin
    obtain ⟨d, rfl⟩ := Nat.exists_eq_add_of_le hbegin
    rw [← List.drop_drop] at hbegins
    have hd : d = 0 := by
      obtain ⟨line, more, hline⟩ :=
        List.exists_cons_of_length_pos (List.length_drop ▸ Nat.sub_pos_of_lt hfirst)
      have hbody := hwithin hfirst
      rw [← Nat.add_zero first, lineStop_add, hline, lineStop_zero, Nat.add_zero] at hbody
      refine (hline ▸ htail).eq_zero_of_begins (Nat.le_of_add_le_add_left hbody) ?_
      rw [hline, List.take_succ_cons, List.map_cons] at hlines
      exact (prefix_join _ _).trans (hlines ▸ hbegins)
    subst hd
    have hm : m < (lines.drop first).length := by
      rw [List.length_drop]
      omega
    have hlength := htail.quote_length hm (hlines ▸ hbegins)
    rw [hlines] at hlength
    refine ⟨by omega, rfl, ?_⟩
    rw [hlength, Nat.add_zero, Nat.add_sub_cancel, lineStop_add]

end Quote

theorem splitlinesFrom_newline {part : List Char} (line rest : List Char)
    (h : ∀ c ∈ part, isLineBreak c = false) :
    splitlinesFrom line (part ++ '\n' :: rest) = (line ++ part) :: splitlines rest := by
  induction part generalizing line with
  | nil =>
    rw [List.nil_append, splitlinesFrom_cons (by simp), if_pos (by decide),
      List.append_nil, splitlines]
  | cons c part ih =>
    obtain ⟨hc, hpart⟩ := List.forall_mem_cons.mp h
    have hsplit : ¬ (c = '\r' ∧ ∃ rest', part ++ '\n' :: rest = '\n' :: rest') := by
      rintro ⟨rfl, -⟩
      exact absurd hc (by decide)
    rw [List.cons_append, splitlinesFrom_cons hsplit, if_neg (by simp [hc]), ih _ hpart,
      List.append_assoc, List.singleton_append]

theorem splitlines_join {parts : List (List Char)}
    (h : ∀ part ∈ parts, part ≠ [] ∧ ∀ c ∈ part, isLineBreak c = false) :
    splitlines (join ['\n'] parts) = parts := by
  induction parts with
  | nil => rfl
  | cons part parts ih =>
    obtain ⟨⟨hne, hpart⟩, hparts⟩ := List.forall_mem_cons.mp h
    by_cases hlast : parts = []
    · have hall :
          part.all fun c ↦ ¬ isLineBreak c := List.all_eq_true.mpr fun c hc ↦ by simp [hpart c hc]
      simp [hlast, join, splitlines, splitlinesFrom_of_noBreak hall, hne]
    · rw [join, List.intercalate_cons_of_ne_nil hlast, List.append_assoc,
        List.singleton_append, splitlines, splitlinesFrom_newline [] _ hpart, List.nil_append,
        ← join, ih hparts]

theorem splitlines_noBreak (text : List Char) :
    ∀ line ∈ splitlines text, ∀ c ∈ line, isLineBreak c = false := by
  intro line hline
  rw [splitlines, splitlinesFrom_eq] at hline
  obtain ⟨found, hfound, rfl⟩ := List.mem_map.mp hline
  exact (lines_linesOf text).body_of_mem found hfound

theorem mem_join {parts : List (List Char)} {c : Char} (h : c ∈ join ['\n'] parts) :
    c = '\n' ∨ ∃ part ∈ parts, c ∈ part := by
  induction parts with
  | nil => simp [join] at h
  | cons part parts ih =>
    by_cases hlast : parts = []
    · subst hlast
      exact .inr ⟨part, List.mem_cons_self, by simpa [join] using h⟩
    · rw [join, List.intercalate_cons_of_ne_nil hlast, List.mem_append, List.mem_append,
        List.mem_singleton] at h
      rcases h with (hpart | hnewline) | hrest
      · exact .inr ⟨part, List.mem_cons_self, hpart⟩
      · exact .inl hnewline
      · obtain hnewline | ⟨part', hmem, hc⟩ := ih hrest
        · exact .inl hnewline
        · exact .inr ⟨part', List.mem_cons_of_mem _ hmem, hc⟩

theorem Lines.body_subset {text : List Char} {lines : List Line} (h : Lines text lines) :
    ∀ line ∈ lines, line.body ⊆ text := by
  induction h with
  | nil => simp
  | last => simp
  | cons hbody hending hrest ih =>
    refine List.forall_mem_cons.mpr ⟨fun c hc ↦ List.mem_append_left _ hc, fun line hline c hc ↦ ?_⟩
    exact List.mem_append_right _ (List.mem_append_right _ (ih line hline hc))

theorem splitlines_subset (text : List Char) : ∀ line ∈ splitlines text, line ⊆ text := by
  intro line hline
  rw [splitlines, splitlinesFrom_eq] at hline
  obtain ⟨found, hfound, rfl⟩ := List.mem_map.mp hline
  exact (lines_linesOf text).body_subset found hfound

def Stripped (text : List Char) : Prop :=
  (∀ c ∈ text.head?, isSpace c = false) ∧ ∀ c ∈ text.getLast?, isSpace c = false

theorem head_dropWhile {p : Char → Bool} (text : List Char) :
    ∀ c ∈ (text.dropWhile p).head?, p c = false := by
  intro c hc
  have h := List.head?_dropWhile_not p text
  rw [Option.mem_def.mp hc] at h
  simpa using h

theorem dropWhile_of_head {p : Char → Bool} {text : List Char} (h : ∀ c ∈ text.head?, p c = false) :
    text.dropWhile p = text := by
  cases text with
  | nil => rfl
  | cons c text => exact List.dropWhile_cons_of_neg (by simp [h c rfl])

theorem strip_prefix_dropWhile (text : List Char) : strip text <+: text.dropWhile isSpace :=
  List.rdropWhile_prefix _ _

theorem strip_stripped (text : List Char) : Stripped (strip text) := by
  constructor
  · intro c hc
    obtain ⟨rest, hstrip⟩ := List.head?_eq_some_iff.mp (Option.mem_def.mp hc)
    obtain ⟨more, hmore⟩ := strip_prefix_dropWhile text
    refine head_dropWhile text c ?_
    rw [← hmore, hstrip]
    rfl
  · intro c hc
    rw [strip, List.getLast?_reverse] at hc
    exact head_dropWhile _ c hc

theorem Stripped.strip_eq {text : List Char} (h : Stripped text) : strip text = text := by
  rw [strip, dropWhile_of_head h.1, dropWhile_of_head (by rw [List.head?_reverse]; exact h.2),
    List.reverse_reverse]

theorem Stripped.join {parts : List (List Char)} (h : ∀ part ∈ parts, part ≠ [] ∧ Stripped part) :
    Stripped (join ['\n'] parts) := by
  induction parts with
  | nil => simp [Python.join, Stripped]
  | cons part parts ih =>
    obtain ⟨⟨hne, hpart⟩, hparts⟩ := List.forall_mem_cons.mp h
    by_cases hlast : parts = []
    · simpa [hlast, Python.join] using hpart
    · have hrest := ih hparts
      have hjoin : Python.join ['\n'] parts ≠ [] := by
        obtain ⟨next, later, rfl⟩ := List.exists_cons_of_ne_nil hlast
        have hnext := (hparts next List.mem_cons_self).1
        exact fun hnil ↦ hnext (List.prefix_nil.mp (hnil ▸ prefix_join next later))
      rw [Python.join, List.intercalate_cons_of_ne_nil hlast, ← Python.join]
      constructor
      · rw [List.append_assoc, List.head?_append_of_ne_nil _ hne]
        exact hpart.1
      · rw [List.getLast?_append_of_ne_nil _ hjoin]
        exact hrest.2

end AgenticSecurity.Python
