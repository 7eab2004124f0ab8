import AgenticSecurity.Python.Html
import AgenticSecurity.Python.Lines
import AgenticSecurity.Python.Regex

namespace AgenticSecurity.Normalization

open Python

def foldLetter (c : Char) : Char :=
  if c.toNat = 0x130 ∨ c.toNat = 0x131 then 'i'
  else if c.toNat = 0x17F then 's'
  else if c.toNat = 0x212A then 'k'
  else c.toLower

def lowerLetter (c : Char) : Char :=
  if c.toNat = 0x130 then 'i' else if c.toNat = 0x212A then 'k' else c.toLower

def removedElements : List String := ["script", "style", "nav", "footer", "form"]

def elementName (text : List Char) : Option (List Char) :=
  (removedElements.find? fun name ↦ (text.take name.toList.length).map foldLetter = name.toList).map
    fun name ↦ text.take name.toList.length

/-- What is left after the first `</name>`. -/
def afterElement (name : List Char) : List Char → Option (List Char)
  | [] => none
  | c :: rest =>
    let closing := '<' :: '/' :: name ++ ['>']
    if ((c :: rest).take closing.length).map lowerLetter = closing.map lowerLetter then
      some ((c :: rest).drop closing.length)
    else afterElement name rest

/-- `<(script|style|nav|footer|form)\b.*?</\1>` at the start of the text. -/
def element (unicode : UnicodeData) : List Char → Option (List Char)
  | '<' :: rest =>
    (elementName rest).bind fun name ↦
      if Regex.atBoundary unicode (name.getLast?, rest.drop name.length) then
        afterElement name (rest.drop name.length)
      else none
  | _ => none

/-- `<[^>]+>` at the start of the text. -/
def tag : List Char → Option (List Char)
  | '<' :: c :: rest =>
    if c = '>' then none
    else
      match rest.dropWhile (· ≠ '>') with
      | _ :: left => some left
      | [] => none
  | _ => none

/-- A space for each match; its characters are skipped while `skip` is not zero. -/
def blankFrom (leaves : List Char → Option (List Char)) : ℕ → List Char → List Char
  | _, [] => []
  | skip + 1, _ :: rest => blankFrom leaves skip rest
  | 0, c :: rest =>
    match leaves (c :: rest) with
    | some left => ' ' :: blankFrom leaves (rest.length - left.length) rest
    | none => c :: blankFrom leaves 0 rest

def blank (leaves : List Char → Option (List Char)) (text : List Char) : List Char :=
  blankFrom leaves 0 text

def collapseFrom (inRun : Bool) : List Char → List Char
  | [] => []
  | c :: rest =>
    if c = ' ' ∨ c = '\t' then
      if inRun then collapseFrom true rest else ' ' :: collapseFrom true rest
    else c :: collapseFrom false rest

def compact (line : List Char) : List Char := strip (collapseFrom false line)

def chromePhrases : List String :=
  ["cookie preference", "cookie preferences", "accept all", "skip to content"]

def isChrome (line : List Char) : Bool := line.map foldLetter ∈ chromePhrases.map String.toList

/-- The compacted line is appended. -/
def keeps (line : List Char) : Bool := compact line ≠ [] && ¬ isChrome (compact line)

def newlines (text : List Char) : List Char :=
  replace ['\r'] ['\n'] (replace ['\r', '\n'] ['\n'] text)

/-- The text of which `normalize_v1` reads the lines. -/
def withoutMarkup (unicode : UnicodeData) (html : HtmlData) (text : List Char) :
    Option (List Char) :=
  (unescape html text).map fun text ↦ blank tag (blank (element unicode) (newlines text))

def keptLines (text : List Char) : List (List Char) := ((splitlines text).filter keeps).map compact

def normalizeV1 (unicode : UnicodeData) (html : HtmlData) (text : List Char) : Option (List Char) :=
  (withoutMarkup unicode html text).map fun text ↦ strip (join ['\n'] (keptLines text))

theorem mem_collapseFrom {inRun : Bool} {line : List Char} {c : Char}
    (h : c ∈ collapseFrom inRun line) :
    c = ' ' ∨ c ∈ line := by
  fun_induction collapseFrom inRun line with
  | case1 => exact absurd h List.not_mem_nil
  | case2 d rest hblank ih => exact (ih h).imp_right (List.mem_cons_of_mem _)
  | case3 inRun d rest hblank hrun ih =>
    rcases List.mem_cons.mp h with rfl | hrest
    · exact .inl rfl
    · exact (ih hrest).imp_right (List.mem_cons_of_mem _)
  | case4 inRun d rest hblank ih =>
    rcases List.mem_cons.mp h with rfl | hrest
    · exact .inr List.mem_cons_self
    · exact (ih hrest).imp_right (List.mem_cons_of_mem _)

theorem mem_compact {line : List Char} {c : Char} (h : c ∈ compact line) : c = ' ' ∨ c ∈ line :=
  mem_collapseFrom ((List.dropWhile_subset _) ((strip_prefix_dropWhile _).subset h))

theorem compact_noBreak {line : List Char} (h : ∀ c ∈ line, isLineBreak c = false) :
    ∀ c ∈ compact line, isLineBreak c = false := by
  intro c hc
  rcases mem_compact hc with rfl | hline
  · decide
  · exact h c hline

theorem keeps_compact {line : List Char} (h : keeps line = true) : compact line ≠ [] := by
  simp only [keeps, Bool.and_eq_true, decide_eq_true_eq] at h
  exact h.1

theorem mem_keptLines {text line : List Char} (h : line ∈ keptLines text) :
    line ≠ [] ∧ Stripped line ∧ ∀ c ∈ line, isLineBreak c = false := by
  obtain ⟨whole, hwhole, rfl⟩ := List.mem_map.mp h
  obtain ⟨hsplit, hkeeps⟩ := List.mem_filter.mp hwhole
  exact ⟨keeps_compact hkeeps, strip_stripped _,
    compact_noBreak (splitlines_noBreak text whole hsplit)⟩

theorem strip_keptLines (text : List Char) :
    strip (join ['\n'] (keptLines text)) = join ['\n'] (keptLines text) :=
  (Stripped.join fun _ hline ↦ ⟨(mem_keptLines hline).1, (mem_keptLines hline).2.1⟩).strip_eq

theorem splitlines_keptLines (text : List Char) :
    splitlines (join ['\n'] (keptLines text)) = keptLines text :=
  splitlines_join fun _ hline ↦ ⟨(mem_keptLines hline).1, (mem_keptLines hline).2.2⟩

theorem normalizeV1_eq_some {unicode : UnicodeData} {html : HtmlData}
    {text normalized : List Char} :
    normalizeV1 unicode html text = some normalized ↔
      ∃ remaining, withoutMarkup unicode html text = some remaining ∧
        join ['\n'] (keptLines remaining) = normalized := by
  simp only [normalizeV1, Option.map_eq_some_iff, strip_keptLines]

theorem splitlines_normalizeV1 {unicode : UnicodeData} {html : HtmlData}
    {text normalized : List Char} (h : normalizeV1 unicode html text = some normalized) :
    ∃ remaining, withoutMarkup unicode html text = some remaining ∧
      splitlines normalized = keptLines remaining := by
  obtain ⟨remaining, hremaining, rfl⟩ := normalizeV1_eq_some.mp h
  exact ⟨remaining, hremaining, splitlines_keptLines remaining⟩

theorem blank_of_plain {leaves : List Char → Option (List Char)} {text : List Char}
    (hplain : '<' ∉ text) (hleaves : ∀ c rest, c ≠ '<' → leaves (c :: rest) = none) :
    blank leaves text = text := by
  induction text with
  | nil => rfl
  | cons c rest ih =>
    obtain ⟨hc, hrest⟩ := not_or.mp (List.mem_cons.not.mp hplain)
    have hstep : blank leaves (c :: rest) = c :: blank leaves rest := by
      simp [blank, blankFrom, hleaves c rest (Ne.symm hc)]
    rw [hstep, ih hrest]

theorem element_of_ne (unicode : UnicodeData) {c : Char} (rest : List Char) (h : c ≠ '<') :
    element unicode (c :: rest) = none := by
  unfold element
  split
  next heq => exact absurd (List.cons.inj heq).1 h
  next => rfl

theorem tag_of_ne {c : Char} (rest : List Char) (h : c ≠ '<') : tag (c :: rest) = none := by
  unfold tag
  split
  next heq => exact absurd (List.cons.inj heq).1 h
  next => rfl

theorem newlines_crlf (rest : List Char) : newlines ('\r' :: '\n' :: rest) = '\n' ::
    newlines rest := by
  simp [newlines, replace, replaceFrom]

theorem newlines_cons {c : Char} {rest : List Char}
    (h : ∀ rest', c = '\r' → rest = '\n' :: rest' → False) :
    newlines (c :: rest) = (if c = '\r' then '\n' else c) :: newlines rest := by
  have hpair : ['\r', '\n'].isPrefixOf (c :: rest) = false := by
    rw [Bool.eq_false_iff, ne_eq, List.isPrefixOf_iff_prefix]
    intro ⟨rest', hrest⟩
    obtain ⟨hc, htail⟩ := List.cons.inj hrest
    exact h rest' hc.symm htail.symm
  have hfirst : replaceFrom ['\r', '\n'] ['\n'] 0 (c :: rest) = c ::
      replaceFrom ['\r', '\n'] ['\n'] 0 rest := by
    rw [replaceFrom, hpair, if_neg Bool.false_ne_true]
  rw [newlines, replace, replace, hfirst]
  by_cases hc : c = '\r'
  · simp [hc, replaceFrom, newlines, replace]
  · simp [hc, Ne.symm hc, replaceFrom, newlines, replace]

theorem mem_newlines {text : List Char} {c : Char} (h : c ∈ newlines text) :
    c = '\n' ∨ c ∈ text := by
  fun_induction lineBreaks text with
  | case1 => exact .inr h
  | case2 rest ih =>
    rw [newlines_crlf] at h
    rcases List.mem_cons.mp h with rfl | hrest
    · exact .inl rfl
    · exact (ih hrest).imp_right fun hmem ↦ List.mem_cons_of_mem _ (List.mem_cons_of_mem _ hmem)
  | case3 d rest hcrlf hbreak ih | case4 d rest hcrlf hbreak ih =>
    rw [newlines_cons hcrlf] at h
    rcases List.mem_cons.mp h with rfl | hrest
    · split_ifs
      · exact .inl rfl
      · exact .inr List.mem_cons_self
    · exact (ih hrest).imp_right (List.mem_cons_of_mem _)

theorem splitlines_newlines (text : List Char) : splitlines (newlines text) = splitlines text := by
  have hfrom (line : List Char) : splitlinesFrom line (newlines text) =
      splitlinesFrom line text := by
    fun_induction splitlinesFrom line text with
    | case1 => rfl
    | case2 line hne => simp [newlines, replace, replaceFrom, splitlinesFrom, hne]
    | case3 line rest ih =>
      rw [newlines_crlf, splitlinesFrom_cons (by simp), if_pos (by decide), ih]
    | case4 line c rest hcrlf hbreak ih =>
      rw [newlines_cons hcrlf]
      by_cases hc : c = '\r'
      · rw [if_pos hc, splitlinesFrom_cons (by simp), if_pos (by decide), ih]
      · rw [if_neg hc, splitlinesFrom_cons (fun h ↦ hc h.1), if_pos hbreak, ih]
    | case5 line c rest hcrlf hbreak ih =>
      have hc : c ≠ '\r' := by
        rintro rfl
        exact hbreak (by decide)
      rw [newlines_cons hcrlf, if_neg hc, splitlinesFrom_cons (fun h ↦ hc h.1), if_neg hbreak, ih]
  exact hfrom []

theorem withoutMarkup_of_plain (unicode : UnicodeData) (html : HtmlData) {text : List Char}
    (hentity : '&' ∉ text) (htag : '<' ∉ text) :
    withoutMarkup unicode html text = some (newlines text) := by
  have hplain : '<' ∉ newlines text := by
    intro h
    rcases mem_newlines h with h | h
    · exact absurd h (by decide)
    · exact htag h
  rw [withoutMarkup, unescape_of_plain html hentity, Option.map_some, Option.some_inj]
  have helement := blank_of_plain hplain fun c rest hc ↦ element_of_ne unicode rest hc
  rw [helement, blank_of_plain hplain fun c rest hc ↦ tag_of_ne rest hc]

theorem keptLines_newlines (text : List Char) : keptLines (newlines text) = keptLines text := by
  rw [keptLines, splitlines_newlines, keptLines]

theorem normalizeV1_of_plain (unicode : UnicodeData) (html : HtmlData) {text : List Char}
    (hentity : '&' ∉ text) (htag : '<' ∉ text) :
    normalizeV1 unicode html text = some (join ['\n'] (keptLines text)) := by
  rw [normalizeV1, withoutMarkup_of_plain unicode html hentity htag, Option.map_some,
    keptLines_newlines, strip_keptLines]

theorem normalizeV1_lines (unicode : UnicodeData) (html : HtmlData) {text : List Char}
    (hentity : '&' ∉ text) (htag : '<' ∉ text) {lines : List (List Char)}
    (hlines : lines ⊆ (splitlines text).filter keeps) :
    normalizeV1 unicode html (join ['\n'] lines) = some (join ['\n'] (lines.map compact)) := by
  have hsplit : splitlines (join ['\n'] lines) = lines := by
    refine splitlines_join fun line hline ↦ ?_
    obtain ⟨hmem, hkeeps⟩ := List.mem_filter.mp (hlines hline)
    refine ⟨?_, splitlines_noBreak text line hmem⟩
    rintro rfl
    exact keeps_compact hkeeps rfl
  have hkept : keptLines (join ['\n'] lines) = lines.map compact := by
    rw [keptLines, hsplit,
      List.filter_eq_self.mpr fun line hline ↦ (List.mem_filter.mp (hlines hline)).2]
  have hplain {c : Char} (hne : c ≠ '\n') (hc : c ∉ text) : c ∉ join ['\n'] lines := by
    intro h
    rcases mem_join h with hnewline | ⟨line, hline, hmem⟩
    · exact hne hnewline
    · exact hc (splitlines_subset text line (List.mem_of_mem_filter (hlines hline)) hmem)
  rw [normalizeV1_of_plain unicode html (hplain (by decide) hentity) (hplain (by decide) htag),
    hkept]

end AgenticSecurity.Normalization
