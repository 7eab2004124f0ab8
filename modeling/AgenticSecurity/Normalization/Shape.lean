import AgenticSecurity.Normalization
import Mathlib.Data.List.Chain

namespace AgenticSecurity.Normalization

open Python

/-- `<[^>]+>` matches some part of the text. -/
def HasTag (text : List Char) : Prop :=
  ∃ before inner after, text = before ++ '<' :: (inner ++ '>' :: after) ∧ inner ≠ [] ∧ '>' ∉ inner

theorem tag_eq_some {text left : List Char} :
    tag text = some left ↔ ∃ inner, text = '<' :: (inner ++ '>' :: left) ∧ inner ≠ [] ∧
      '>' ∉ inner := by
  constructor
  · intro h
    match text with
    | [] => cases h
    | [c] =>
      by_cases hc : c = '<'
      · subst hc
        cases h
      · rw [tag_of_ne _ hc] at h
        cases h
    | b :: c :: rest =>
      by_cases hb : b = '<'
      · subst hb
        rw [tag] at h
        split_ifs at h with hc
        have hsplit := List.takeWhile_append_dropWhile (p := (· ≠ '>')) (l := rest)
        cases hdrop : rest.dropWhile (· ≠ '>') with
        | nil =>
          rw [hdrop] at h
          cases h
        | cons d later =>
          rw [hdrop] at h hsplit
          obtain rfl := Option.some.inj h
          have hd : d = '>' := by
            have hhead := List.head?_dropWhile_not (· ≠ '>') rest
            rw [hdrop] at hhead
            simpa using hhead
          subst hd
          refine ⟨c :: rest.takeWhile
            (· ≠ '>'), by rw [List.cons_append, hsplit], List.cons_ne_nil _ _, ?_⟩
          rw [List.mem_cons, not_or]
          refine ⟨Ne.symm hc, fun hmem ↦ ?_⟩
          simpa using List.mem_takeWhile_imp hmem
      · rw [tag_of_ne _ hb] at h
        cases h
  · rintro ⟨inner, rfl, hne, hinner⟩
    obtain ⟨c, inner, rfl⟩ := List.exists_cons_of_ne_nil hne
    obtain ⟨hc, hinner⟩ := not_or.mp (List.mem_cons.not.mp hinner)
    have hdrop : (inner ++ '>' :: left).dropWhile (· ≠ '>') = '>' :: left := by
      rw [List.dropWhile_append_of_pos fun d hd ↦ ?_, List.dropWhile_cons_of_neg (by simp)]
      exact decide_eq_true fun heq ↦ hinner (heq ▸ hd)
    rw [List.cons_append, tag, if_neg (Ne.symm hc), hdrop]

theorem hasTag_iff {text : List Char} :
    HasTag text ↔ ∃ suffix left, suffix <:+ text ∧ tag suffix = some left := by
  constructor
  · rintro ⟨before, inner, after, rfl, hne, hinner⟩
    exact ⟨_, after, List.suffix_append _ _, tag_eq_some.mpr ⟨inner, rfl, hne, hinner⟩⟩
  · rintro ⟨suffix, left, ⟨before, rfl⟩, htag⟩
    obtain ⟨inner, rfl, hne, hinner⟩ := tag_eq_some.mp htag
    exact ⟨before, inner, left, rfl, hne, hinner⟩

theorem tag_eq_none {text : List Char} (h : ¬ HasTag text) {suffix : List Char}
    (hsuffix : suffix <:+ text) :
    tag suffix = none := by
  cases htag : tag suffix with
  | none => rfl
  | some left => exact absurd (hasTag_iff.mpr ⟨suffix, left, hsuffix, htag⟩) h

theorem tag_isSome {rest : List Char} :
    (∃ left, tag ('<' :: rest) = some left) ↔ rest.head? ≠ some '>' ∧ '>' ∈ rest := by
  constructor
  · rintro ⟨left, htag⟩
    obtain ⟨inner, htext, hne, hinner⟩ := tag_eq_some.mp htag
    obtain rfl := (List.cons.inj htext).2
    refine ⟨fun hhead ↦ hinner ?_, by simp⟩
    rw [List.head?_append_of_ne_nil _ hne] at hhead
    exact List.mem_of_head? hhead
  · rintro ⟨hhead, hmem⟩
    obtain ⟨inner, left, rfl, hinner⟩ := List.eq_append_cons_of_mem hmem
    refine ⟨left, tag_eq_some.mpr ⟨inner, rfl, ?_, hinner⟩⟩
    rintro rfl
    exact hhead rfl

theorem hasTag_cons {c : Char} {rest : List Char} :
    HasTag (c :: rest) ↔ (c = '<' ∧ rest.head? ≠ some '>' ∧ '>' ∈ rest) ∨ HasTag rest := by
  rw [hasTag_iff, hasTag_iff]
  constructor
  · rintro ⟨suffix, left, hsuffix, htag⟩
    rcases List.suffix_cons_iff.mp hsuffix with rfl | hrest
    · by_cases hc : c = '<'
      · subst hc
        exact .inl ⟨rfl, tag_isSome.mp ⟨left, htag⟩⟩
      · rw [tag_of_ne _ hc] at htag
        cases htag
    · exact .inr ⟨suffix, left, hrest, htag⟩
  · rintro (⟨rfl, hrest⟩ | ⟨suffix, left, hsuffix, htag⟩)
    · obtain ⟨left, htag⟩ := tag_isSome.mpr hrest
      exact ⟨_, left, List.suffix_rfl, htag⟩
    · exact ⟨suffix, left, hsuffix.trans (List.suffix_cons _ _), htag⟩

theorem not_hasTag_nil : ¬ HasTag [] := by
  rintro ⟨before, inner, after, htext, -⟩
  simp at htext

instance decidableHasTag : (text : List Char) → Decidable (HasTag text)
  | [] => isFalse not_hasTag_nil
  | _ :: rest =>
    have := decidableHasTag rest
    decidable_of_iff _ hasTag_cons.symm

/-- Each match has a `>`. -/
def Closes (leaves : List Char → Option (List Char)) : Prop :=
  ∀ text left, leaves text = some left → ∃ removed, text = removed ++ left ∧ '>' ∈ removed

theorem closes_tag : Closes tag := by
  intro text left h
  obtain ⟨inner, rfl, -, -⟩ := tag_eq_some.mp h
  exact ⟨'<' :: (inner ++ ['>']), by simp, by simp⟩

theorem lowerLetter_eq_close {c : Char} (h : lowerLetter c = '>') : c = '>' := by
  unfold lowerLetter at h
  split_ifs at h
  · exact absurd h (by decide)
  · exact absurd h (by decide)
  · rcases toLower_cases c with hsame | hlower
    · exact hsame.symm.trans h
    · rw [h] at hlower
      exact absurd hlower (by decide)

theorem afterElement_eq_some {name text left : List Char} (h : afterElement name text = some left) :
    ∃ removed, text = removed ++ left ∧ '>' ∈ removed := by
  induction text with
  | nil => cases h
  | cons c rest ih =>
    rw [afterElement] at h
    split_ifs at h with hclosing
    · refine ⟨(c :: rest).take ('<' :: '/' :: name ++ ['>']).length, ?_, ?_⟩
      · rw [← Option.some.inj h, List.take_append_drop]
      · have hlast : lowerLetter '>' ∈ ('<' :: '/' :: name ++ ['>']).map lowerLetter :=
          List.mem_map_of_mem (by simp)
        rw [← hclosing] at hlast
        obtain ⟨d, hd, hclose⟩ := List.mem_map.mp hlast
        rwa [lowerLetter_eq_close (hclose.trans (by decide))] at hd
    · obtain ⟨removed, rfl, hclose⟩ := ih h
      exact ⟨c :: removed, rfl, List.mem_cons_of_mem _ hclose⟩

theorem element_eq_some {unicode : UnicodeData} {text left : List Char}
    (h : element unicode text = some left) :
    ∃ rest name, text = '<' :: rest ∧ elementName rest = some name ∧
      ∃ removed, rest.drop name.length = removed ++ left ∧ '>' ∈ removed := by
  unfold element at h
  split at h
  next rest =>
    obtain ⟨name, hname, h⟩ := Option.bind_eq_some_iff.mp h
    split_ifs at h
    exact ⟨rest, name, rfl, hname, afterElement_eq_some h⟩
  next => cases h

theorem closes_element (unicode : UnicodeData) : Closes (element unicode) := by
  intro text left h
  obtain ⟨rest, name, rfl, -, removed, hremoved, hclose⟩ := element_eq_some h
  refine ⟨'<' :: (rest.take name.length ++ removed), ?_, by simp [hclose]⟩
  rw [List.cons_append, List.append_assoc, ← hremoved, List.take_append_drop]

theorem elementName_head {rest name : List Char} (h : elementName rest = some name) :
    rest.head? ≠ some '>' := by
  obtain ⟨known, hknown, -⟩ := Option.map_eq_some_iff.mp h
  have hmatch : (rest.take known.toList.length).map foldLetter = known.toList := by
    simpa using List.find?_some hknown
  intro hhead
  obtain ⟨later, rfl⟩ := List.head?_eq_some_iff.mp hhead
  have hfirst :
      ∀ known ∈ removedElements, known.toList.head? ≠ some '>' ∧
      known.toList.length ≠ 0 := by decide
  obtain ⟨hne, hlength⟩ := hfirst known (List.mem_of_find?_eq_some hknown)
  obtain ⟨n, hn⟩ := Nat.exists_eq_succ_of_ne_zero hlength
  rw [hn, List.take_succ_cons, List.map_cons] at hmatch
  have hclose : foldLetter '>' = '>' := by decide
  exact hne (by rw [← hmatch, List.head?_cons, hclose])

theorem tag_of_element {unicode : UnicodeData} {text left : List Char}
    (h : element unicode text = some left) :
    ∃ left', tag text = some left' := by
  obtain ⟨rest, name, rfl, hname, removed, hremoved, hclose⟩ := element_eq_some h
  refine tag_isSome.mpr ⟨elementName_head hname, List.mem_of_mem_drop (i := name.length) ?_⟩
  rw [hremoved]
  exact List.mem_append_left _ hclose

section Blank

variable {leaves : List Char → Option (List Char)}

theorem blankFrom_skip (skip : ℕ) (text : List Char) :
    blankFrom leaves skip text = blank leaves (text.drop skip) := by
  induction text generalizing skip with
  | nil =>
    rw [List.drop_nil]
    cases skip <;> rfl
  | cons c rest ih =>
    cases skip with
    | zero => rfl
    | succ skip => exact ih skip

theorem blank_none {c : Char} {rest : List Char} (h : leaves (c :: rest) = none) :
    blank leaves (c :: rest) = c :: blank leaves rest := by
  rw [blank, blankFrom, h]
  rfl

theorem blank_some (hcloses : Closes leaves) {c : Char} {rest left : List Char}
    (h : leaves (c :: rest) = some left) :
    blank leaves (c :: rest) = ' ' :: blank leaves left := by
  obtain ⟨removed, hremoved, hclose⟩ := hcloses _ _ h
  obtain ⟨d, removed, rfl⟩ := List.exists_cons_of_ne_nil (List.ne_nil_of_mem hclose)
  obtain rfl := (List.cons.inj hremoved).2
  rw [blank, blankFrom, h]
  simp [blankFrom_skip]

theorem blank_induct (hcloses : Closes leaves) {motive : List Char → Prop} (nil : motive [])
    (kept : ∀ c rest, leaves (c :: rest) = none → motive rest → motive (c :: rest))
    (removed : ∀ c rest left, leaves (c :: rest) = some left → motive left → motive (c :: rest))
    (text : List Char) :
    motive text := by
  induction hlength : text.length using Nat.strong_induction_on generalizing text with
  | _ n ih =>
    cases text with
    | nil => exact nil
    | cons c rest =>
      rw [List.length_cons] at hlength
      cases hleaves : leaves (c :: rest) with
      | none => exact kept c rest hleaves (ih _ (by omega) rest rfl)
      | some left =>
        obtain ⟨gone, hgone, hclose⟩ := hcloses _ _ hleaves
        have hpos := List.length_pos_of_mem hclose
        have hsum := congrArg List.length hgone
        rw [List.length_cons, List.length_append] at hsum
        exact removed c rest left hleaves (ih _ (by omega) left rfl)

theorem blank_of_none {text : List Char} (h : ∀ suffix, suffix <:+ text → leaves suffix = none) :
    blank leaves text = text := by
  induction text with
  | nil => rfl
  | cons c rest ih =>
    rw [blank_none (h _ List.suffix_rfl),
      ih fun suffix hsuffix ↦ h suffix (hsuffix.trans (List.suffix_cons _ _))]

theorem mem_blank (hcloses : Closes leaves) {text : List Char} {c : Char}
    (h : c ∈ blank leaves text) :
    c = ' ' ∨ c ∈ text := by
  induction text using blank_induct hcloses with
  | nil => exact .inr h
  | kept d rest hleaves ih =>
    rw [blank_none hleaves] at h
    rcases List.mem_cons.mp h with rfl | hrest
    · exact .inr List.mem_cons_self
    · exact (ih hrest).imp_right (List.mem_cons_of_mem _)
  | removed d rest left hleaves ih =>
    rw [blank_some hcloses hleaves] at h
    obtain ⟨gone, hgone, -⟩ := hcloses _ _ hleaves
    rcases List.mem_cons.mp h with rfl | hleft
    · exact .inl rfl
    · exact (ih hleft).imp_right fun hmem ↦ hgone ▸ List.mem_append_right _ hmem

theorem count_removed (hcloses : Closes leaves) {text left : List Char}
    (h : leaves text = some left) :
    left.count '>' < text.count '>' := by
  obtain ⟨gone, rfl, hclose⟩ := hcloses _ _ h
  rw [List.count_append]
  exact Nat.lt_add_of_pos_left (List.count_pos_iff.mpr hclose)

theorem count_blank_le (hcloses : Closes leaves) (text : List Char) :
    (blank leaves text).count '>' ≤ text.count '>' := by
  induction text using blank_induct hcloses with
  | nil => exact le_rfl
  | kept c rest hleaves ih =>
    rw [blank_none hleaves, List.count_cons, List.count_cons]
    exact Nat.add_le_add_right ih _
  | removed c rest left hleaves ih =>
    have hlt := count_removed hcloses hleaves
    rw [blank_some hcloses hleaves, List.count_cons_of_ne (by decide)]
    exact ih.trans hlt.le

theorem count_blank_lt (hcloses : Closes leaves) {text suffix left : List Char}
    (hsuffix : suffix <:+ text) (h : leaves suffix = some left) :
    (blank leaves text).count '>' < text.count '>' := by
  induction text with
  | nil =>
    obtain rfl := List.suffix_nil.mp hsuffix
    have hlt := count_removed hcloses h
    simp at hlt
  | cons c rest ih =>
    cases hleaves : leaves (c :: rest) with
    | some left =>
      have hlt := count_removed hcloses hleaves
      rw [blank_some hcloses hleaves, List.count_cons_of_ne (by decide)]
      exact (count_blank_le hcloses left).trans_lt hlt
    | none =>
      rcases List.suffix_cons_iff.mp hsuffix with rfl | hrest
      · rw [hleaves] at h
        cases h
      · rw [blank_none hleaves, List.count_cons, List.count_cons]
        exact Nat.add_lt_add_right (ih hrest) _

end Blank

theorem not_hasTag_blank (text : List Char) : ¬ HasTag (blank tag text) := by
  induction text using blank_induct closes_tag with
  | nil => exact not_hasTag_nil
  | kept c rest hnone ih =>
    rw [blank_none hnone, hasTag_cons, not_or]
    refine ⟨?_, ih⟩
    rintro ⟨rfl, hhead, hclose⟩
    have hclose' : '>' ∈ rest := (mem_blank closes_tag hclose).resolve_left (by decide)
    -- the next character is `>`, which is kept
    have hnext : rest.head? = some '>' := by
      by_contra hne
      obtain ⟨left, hsome⟩ := tag_isSome.mpr ⟨hne, hclose'⟩
      rw [hnone] at hsome
      cases hsome
    obtain ⟨later, rfl⟩ := List.head?_eq_some_iff.mp hnext
    rw [blank_none (tag_of_ne _ (by decide))] at hhead
    exact hhead rfl
  | removed c rest left hsome ih =>
    rw [blank_some closes_tag hsome, hasTag_cons, not_or]
    exact ⟨fun h ↦ absurd h.1 (by decide), ih⟩

def Plain (c : Char) : Prop := c ≠ '<' ∧ c ≠ '>'

inductive Respaced : List Char → List Char → Prop
  | nil : Respaced [] []
  | keep (c : Char) {text text' : List Char} (h : Respaced text text') :
      Respaced (c :: text) (c :: text')
  | drop {c : Char} {text text' : List Char} (hc : Plain c) (h : Respaced text text') :
      Respaced (c :: text) text'
  | change {c d : Char} {text text' : List Char} (hc : Plain c) (hd : Plain d)
      (h : Respaced text text') :
      Respaced (c :: text) (d :: text')

theorem Respaced.refl (text : List Char) : Respaced text text := by
  induction text with
  | nil => exact .nil
  | cons c text ih => exact .keep c ih

theorem Respaced.append {text text' rest rest' : List Char} (h : Respaced text text')
    (hrest : Respaced rest rest') :
    Respaced (text ++ rest) (text' ++ rest') := by
  induction h with
  | nil => exact hrest
  | keep c _ ih => exact .keep c ih
  | drop hc _ ih => exact .drop hc ih
  | change hc hd _ ih => exact .change hc hd ih

theorem respaced_nil {text : List Char} (h : ∀ c ∈ text, Plain c) : Respaced text [] := by
  induction text with
  | nil => exact .nil
  | cons c text ih =>
    exact .drop (h c List.mem_cons_self) (ih fun d hd ↦ h d (List.mem_cons_of_mem _ hd))

theorem Respaced.count {text text' : List Char} (h : Respaced text text') {bracket : Char}
    (hbracket : ¬ Plain bracket) :
    text'.count bracket = text.count bracket := by
  have hne {c : Char} (hc : Plain c) : c ≠ bracket := fun heq ↦ hbracket (heq ▸ hc)
  induction h with
  | nil => rfl
  | keep c _ ih => rw [List.count_cons, List.count_cons, ih]
  | drop hc _ ih => rw [ih, List.count_cons_of_ne (hne hc)]
  | change hc hd _ ih => rw [List.count_cons_of_ne (hne hd), List.count_cons_of_ne (hne hc), ih]

theorem Respaced.mem_iff {text text' : List Char} (h : Respaced text text') {bracket : Char}
    (hbracket : ¬ Plain bracket) :
    bracket ∈ text' ↔ bracket ∈ text := by
  rw [← List.count_pos_iff, ← List.count_pos_iff, h.count hbracket]

theorem Respaced.trans_nil {text text' : List Char} (h : Respaced text text')
    (hplain : ∀ c ∈ text', Plain c) :
    Respaced text [] := by
  refine respaced_nil fun c hc ↦ ?_
  by_contra hbracket
  exact hbracket (hplain c ((h.mem_iff hbracket).mpr hc))

theorem Respaced.not_hasTag {text text' : List Char} (h : Respaced text text')
    (htext : ¬ HasTag text) :
    ¬ HasTag text' := by
  have hclose : ¬ Plain '>' := fun hplain ↦ hplain.2 rfl
  induction h with
  | nil => exact htext
  | @keep c text text' h ih =>
    rw [hasTag_cons, not_or] at htext ⊢
    refine ⟨?_, ih htext.2⟩
    rintro ⟨hc, hhead, hmem⟩
    refine htext.1 ⟨hc, fun hnext ↦ hhead ?_, (h.mem_iff hclose).mp hmem⟩
    -- a `>` that comes next is kept
    obtain ⟨later, rfl⟩ := List.head?_eq_some_iff.mp hnext
    cases h with
    | keep => rfl
    | drop hplain => exact absurd hplain hclose
    | change hplain => exact absurd hplain hclose
  | drop hc h ih => exact ih fun hrest ↦ htext (hasTag_cons.mpr (.inr hrest))
  | change hc hd h ih =>
    rw [hasTag_cons, not_or] at htext ⊢
    exact ⟨fun hopen ↦ hd.1 hopen.1, ih htext.2⟩

theorem plain_of_isSpace {c : Char} (h : isSpace c = true) : Plain c := by
  constructor <;> rintro rfl <;> exact absurd h (by decide)

theorem plain_of_isLineBreak {c : Char} (h : isLineBreak c = true) : Plain c := by
  constructor <;> rintro rfl <;> exact absurd h (by decide)

theorem Respaced.trans {text text' text'' : List Char} (h : Respaced text text')
    (h' : Respaced text' text'') :
    Respaced text text'' := by
  induction h generalizing text'' with
  | nil => exact h'
  | keep c _ ih =>
    cases h' with
    | keep _ h' => exact .keep c (ih h')
    | drop hc h' => exact .drop hc (ih h')
    | change hc hd h' => exact .change hc hd (ih h')
  | drop hc _ ih => exact .drop hc (ih h')
  | change hc hd _ ih =>
    cases h' with
    | keep _ h' => exact .change hc hd (ih h')
    | drop _ h' => exact .drop hc (ih h')
    | change _ he h' => exact .change hc he (ih h')

theorem respaced_collapse (inRun : Bool) (line : List Char) :
    Respaced line (collapseFrom inRun line) := by
  have hblank {c : Char} (hc : c = ' ' ∨ c = '\t') : Plain c := by
    rcases hc with rfl | rfl <;> exact plain_of_isSpace (by decide)
  fun_induction collapseFrom inRun line with
  | case1 => exact .nil
  | case2 c rest hc ih => exact .drop (hblank hc) ih
  | case3 inRun c rest hc hrun ih => exact .change (hblank hc) (hblank (.inl rfl)) ih
  | case4 inRun c rest hc ih => exact .keep c ih

theorem respaced_strip (line : List Char) : Respaced line (strip line) := by
  obtain ⟨lead, post, hline, hlead, hpost⟩ := strip_surrounded line
  have hsides := (respaced_nil fun c hc ↦ plain_of_isSpace (hlead c hc)).append
    ((Respaced.refl (strip line)).append (respaced_nil fun c hc ↦ plain_of_isSpace (hpost c hc)))
  rwa [← hline, List.append_nil, List.nil_append] at hsides

theorem respaced_compact (line : List Char) : Respaced line (compact line) :=
  (respaced_collapse false line).trans (respaced_strip _)

theorem plain_of_chrome {line : List Char} (h : isChrome line = true) : ∀ c ∈ line, Plain c := by
  have hphrases :
      ∀ phrase ∈ chromePhrases.map String.toList, '<' ∉ phrase ∧ '>' ∉ phrase := by decide
  obtain ⟨hopen, hclose⟩ := hphrases _ (of_decide_eq_true h)
  intro c hc
  constructor <;> rintro rfl
  · exact hopen (List.mem_map.mpr ⟨'<', hc, by decide⟩)
  · exact hclose (List.mem_map.mpr ⟨'>', hc, by decide⟩)

theorem respaced_dropped {line : List Char} (h : ¬ keeps line = true) : Respaced line [] := by
  refine (respaced_compact line).trans_nil ?_
  by_cases hnil : compact line = []
  · simp [hnil]
  · exact plain_of_chrome (by simpa [keeps, hnil] using h)

theorem plain_of_ending {ending rest : List Char} (h : Ends ending rest) :
    ∀ c ∈ ending, Plain c := by
  have hbreaks : ∀ c ∈ ending, isLineBreak c = true := by
    cases h with
    | crlf => exact forall_mem_of_all (by decide)
    | single hbreak => exact List.forall_mem_singleton.mpr hbreak
  exact fun c hc ↦ plain_of_isLineBreak (hbreaks c hc)

theorem respaced_ending {ending rest : List Char} (h : Ends ending rest) :
    Respaced ending ['\n'] := by
  cases h with
  | crlf => exact .drop (plain_of_isLineBreak (by decide)) (.refl _)
  | single hbreak =>
    exact .change (plain_of_isLineBreak hbreak) (plain_of_isLineBreak (by decide)) .nil

theorem respaced_lines {text : List Char} {lines : List Line} (h : Lines text lines) :
    Respaced text (join ['\n'] (((lines.map Line.body).filter keeps).map compact)) := by
  induction h with
  | nil => exact .nil
  | @last body hne hbody =>
    by_cases hkeeps : keeps body = true
    · simpa [hkeeps, join] using respaced_compact body
    · simpa [hkeeps, join] using respaced_dropped hkeeps
  | @cons body ending rest lines hbody hending hrest ih =>
    have hplain := plain_of_ending hending
    rw [List.map_cons]
    by_cases hkeeps : keeps body = true
    · rw [List.filter_cons_of_pos hkeeps, List.map_cons]
      by_cases hlast : ((lines.map Line.body).filter keeps).map compact = []
      · rw [hlast] at ih ⊢
        have hline := (respaced_compact body).append ((respaced_nil hplain).append ih)
        simpa [join] using hline
      · rw [join, List.intercalate_cons_of_ne_nil hlast, List.append_assoc]
        exact (respaced_compact body).append ((respaced_ending hending).append ih)
    · rw [List.filter_cons_of_neg hkeeps]
      exact (respaced_dropped hkeeps).append ((respaced_nil hplain).append ih)

theorem respaced_keptLines (text : List Char) : Respaced text (join ['\n'] (keptLines text)) := by
  have h := respaced_lines (lines_linesOf text)
  rwa [linesOf, ← splitlinesFrom_eq] at h

structure ShapedLine (line : List Char) : Prop where
  nonempty : line ≠ []
  trimmed : strip line = line
  noTab : '\t' ∉ line
  singleSpaces : ¬ [' ', ' '] <:+: line
  content : isChrome line = false

theorem no_tab_collapse (inRun : Bool) (line : List Char) : '\t' ∉ collapseFrom inRun line := by
  fun_induction collapseFrom inRun line with
  | case1 => exact List.not_mem_nil
  | case2 c rest hc ih => exact ih
  | case3 inRun c rest hc hrun ih => exact List.not_mem_cons_of_ne_of_not_mem (by decide) ih
  | case4 inRun c rest hc ih =>
    exact List.not_mem_cons_of_ne_of_not_mem (fun htab ↦ hc (.inr htab.symm)) ih

theorem single_spaces_cons {c : Char} {rest : List Char} :
    ¬ [' ', ' '] <:+: c :: rest ↔ ¬ (c = ' ' ∧ rest.head? = some ' ') ∧ ¬ [' ', ' '] <:+: rest := by
  rw [List.infix_cons_iff, not_or]
  refine and_congr_left fun _ ↦ not_congr ?_
  cases rest with
  | nil => simp
  | cons d rest => simp [List.cons_prefix_cons, eq_comm]

theorem single_spaces_collapse (inRun : Bool) (line : List Char) :
    ¬ [' ', ' '] <:+: collapseFrom inRun line ∧
    (inRun = true → (collapseFrom inRun line).head? ≠ some ' ') := by
  fun_induction collapseFrom inRun line with
  | case1 => simp
  | case2 c rest hc ih => exact ⟨ih.1, fun _ ↦ ih.2 rfl⟩
  | case3 inRun c rest hc hrun ih =>
    exact ⟨single_spaces_cons.mpr ⟨fun h ↦ ih.2 rfl h.2, ih.1⟩, fun h ↦ absurd h hrun⟩
  | case4 inRun c rest hc ih =>
    have hne : c ≠ ' ' := fun heq ↦ hc (.inl heq)
    exact ⟨single_spaces_cons.mpr ⟨fun h ↦ hne h.1, ih.1⟩, fun _ h ↦ hne (by simpa using h)⟩

theorem collapse_of_shaped {inRun : Bool} {line : List Char} (htab : '\t' ∉ line)
    (hspaces : ¬ [' ', ' '] <:+: line) (hhead : inRun = true → line.head? ≠ some ' ') :
    collapseFrom inRun line = line := by
  fun_induction collapseFrom inRun line with
  | case1 => rfl
  | case2 c rest hc ih =>
    rcases hc with rfl | rfl
    · exact absurd rfl (hhead rfl)
    · exact absurd List.mem_cons_self htab
  | case3 inRun c rest hc hrun ih =>
    obtain rfl : c = ' ' := hc.resolve_right fun heq ↦ htab (heq ▸ List.mem_cons_self)
    obtain ⟨hpair, hrest⟩ := single_spaces_cons.mp hspaces
    rw [ih (List.not_mem_of_not_mem_cons htab) hrest fun _ hnext ↦ hpair ⟨rfl, hnext⟩]
  | case4 inRun c rest hc ih =>
    rw [ih (List.not_mem_of_not_mem_cons htab) (single_spaces_cons.mp hspaces).2 (by simp)]

theorem strip_within (line : List Char) : strip line <:+: line :=
  (strip_prefix_dropWhile line).isInfix.trans (List.dropWhile_suffix _).isInfix

theorem shaped_keptLines {text line : List Char} (h : line ∈ keptLines text) : ShapedLine line := by
  obtain ⟨hne, hstripped, -⟩ := mem_keptLines h
  obtain ⟨whole, hwhole, rfl⟩ := List.mem_map.mp h
  have hkeeps := (List.mem_filter.mp hwhole).2
  have hwithin := strip_within (collapseFrom false whole)
  refine ⟨hne, hstripped.strip_eq, fun htab ↦ no_tab_collapse false whole (hwithin.subset htab),
    fun hspaces ↦ (single_spaces_collapse false whole).1 (hspaces.trans hwithin), ?_⟩
  simpa [keeps, hne] using hkeeps

theorem ShapedLine.compact_eq {line : List Char} (h : ShapedLine line) : compact line = line := by
  rw [compact, collapse_of_shaped h.noTab h.singleSpaces (by simp), h.trimmed]

theorem ShapedLine.keeps {line : List Char} (h : ShapedLine line) : keeps line = true := by
  simp [Normalization.keeps, h.compact_eq, h.nonempty, h.content]

structure CanonicalText (text : List Char) : Prop where
  noTag : ¬ HasTag text
  lines : text = [] ∨ join ['\n'] (splitlines text) = text
  shaped : ∀ line ∈ splitlines text, ShapedLine line

variable {unicode : UnicodeData} {html : HtmlData}

theorem canonical_keptLines {text : List Char} (h : ¬ HasTag text) :
    CanonicalText (join ['\n'] (keptLines text)) := by
  refine ⟨(respaced_keptLines text).not_hasTag h, .inr ?_, fun line hline ↦ ?_⟩
  · rw [splitlines_keptLines]
  · rw [splitlines_keptLines] at hline
    exact shaped_keptLines hline

theorem newlines_of_noReturn {text : List Char} (h : '\r' ∉ text) : newlines text = text := by
  induction text with
  | nil => rfl
  | cons c rest ih =>
    obtain ⟨hc, hrest⟩ := not_or.mp (List.mem_cons.not.mp h)
    rw [newlines_cons fun _ hreturn ↦ absurd hreturn.symm hc, if_neg (Ne.symm hc), ih hrest]

theorem noReturn_of_joined {parts : List (List Char)}
    (h : ∀ part ∈ parts, ∀ c ∈ part, isLineBreak c = false) :
    '\r' ∉ join ['\n'] parts := by
  intro hreturn
  rcases mem_join hreturn with heq | ⟨part, hpart, hmem⟩
  · exact absurd heq (by decide)
  · exact absurd (h part hpart _ hmem) (by decide)

theorem blank_of_noTag (unicode : UnicodeData) {text : List Char} (h : ¬ HasTag text) :
    blank tag (blank (element unicode) text) = text := by
  have helement : blank (element unicode) text = text := by
    refine blank_of_none fun suffix hsuffix ↦ ?_
    cases hfound : element unicode suffix with
    | none => rfl
    | some left =>
      obtain ⟨left', htag⟩ := tag_of_element hfound
      exact absurd (hasTag_iff.mpr ⟨suffix, left', hsuffix, htag⟩) h
  rw [helement, blank_of_none fun suffix hsuffix ↦ tag_eq_none h hsuffix]

theorem CanonicalText.normalizeV1_eq {text : List Char} (h : CanonicalText text)
    (hplain : unescape html text = some text) :
    normalizeV1 unicode html text = some text := by
  have hlines : join ['\n'] (splitlines text) = text := by
    rcases h.lines with rfl | hlines
    · rfl
    · exact hlines
  have hreturn : '\r' ∉ text := by
    rw [← hlines]
    exact noReturn_of_joined (splitlines_noBreak text)
  have hkept : keptLines text = splitlines text := by
    rw [keptLines, List.filter_eq_self.mpr fun line hline ↦ (h.shaped line hline).keeps]
    exact (List.map_congr_left fun line hline ↦ (h.shaped line hline).compact_eq).trans
      (List.map_id _)
  rw [normalizeV1_eq_some]
  refine ⟨text, ?_, by rw [hkept, hlines]⟩
  rw [withoutMarkup, hplain, Option.map_some, newlines_of_noReturn hreturn,
    blank_of_noTag unicode h.noTag]

/-- What is normalized has the canonical shape, and is normalized already. -/
theorem normalized_canonical (unicode : UnicodeData) (html : HtmlData) (text normalized : List Char)
    (h : normalizeV1 unicode html text = some normalized) :
    CanonicalText normalized ∧
      (unescape html normalized = some normalized →
        normalizeV1 unicode html normalized = some normalized) := by
  obtain ⟨remaining, hremaining, rfl⟩ := normalizeV1_eq_some.mp h
  obtain ⟨unescaped, -, rfl⟩ := Option.map_eq_some_iff.mp hremaining
  have hcanonical :=
    canonical_keptLines (not_hasTag_blank (blank (element unicode) (newlines unescaped)))
  exact ⟨hcanonical, hcanonical.normalizeV1_eq⟩

theorem normalized_canonical_agents : ∃ normalized,
    normalizeV1 asciiData ⟨fun _ ↦ none⟩ "<b>Agents</b>\trun.\r\nAccept all".toList =
      some normalized ∧
      normalized = "Agents run.".toList ∧
      normalizeV1 asciiData ⟨fun _ ↦ none⟩ normalized = some normalized := by
  have hnormalized :
      normalizeV1 asciiData ⟨fun _ ↦ none⟩ "<b>Agents</b>\trun.\r\nAccept all".toList =
      some "Agents run.".toList := by decide
  exact ⟨_, hnormalized, rfl,
    (normalized_canonical _ _ _ _ hnormalized).2 (unescape_of_plain _ (by decide))⟩

def entity (c : Char) : List Char :=
  if c = '&' then "&amp;".toList else if c = '<' then "&lt;".toList
    else if c = '>' then "&gt;".toList else [c]

/-- The text with each `&`, `<` and `>` as an entity. -/
def encoded (text : List Char) : List Char := text.flatMap entity

theorem mem_collapse {inRun : Bool} {line : List Char} {c : Char} (hc : isSpace c = false)
    (h : c ∈ line) :
    c ∈ collapseFrom inRun line := by
  fun_induction collapseFrom inRun line with
  | case1 => exact h
  | case2 d rest hd ih =>
    refine ih ((List.mem_cons.mp h).resolve_left ?_)
    rintro rfl
    rcases hd with rfl | rfl <;> exact absurd hc (by decide)
  | case3 inRun d rest hd hrun ih =>
    refine List.mem_cons_of_mem _ (ih ((List.mem_cons.mp h).resolve_left ?_))
    rintro rfl
    rcases hd with rfl | rfl <;> exact absurd hc (by decide)
  | case4 inRun d rest hd ih =>
    rcases List.mem_cons.mp h with rfl | hrest
    · exact List.mem_cons_self
    · exact List.mem_cons_of_mem _ (ih hrest)

theorem mem_strip {line : List Char} {c : Char} (hc : isSpace c = false) (h : c ∈ line) :
    c ∈ strip line := by
  obtain ⟨lead, post, hline, hlead, hpost⟩ := strip_surrounded line
  rw [hline] at h
  rcases List.mem_append.mp h with hmem | hmem
  · rw [hlead c hmem] at hc
    cases hc
  · refine (List.mem_append.mp hmem).resolve_right fun hmem ↦ ?_
    rw [hpost c hmem] at hc
    cases hc

theorem compact_ne_nil {line : List Char} (h : strip line ≠ []) : compact line ≠ [] := by
  obtain ⟨c, rest, hstrip⟩ := List.exists_cons_of_ne_nil h
  have hc := (strip_stripped line).1 c (by rw [hstrip]; rfl)
  have hline : c ∈ line := (strip_within line).subset (hstrip ▸ List.mem_cons_self)
  exact List.ne_nil_of_mem (mem_strip hc (mem_collapse hc hline))

theorem respaced_newlines (text : List Char) : Respaced text (newlines text) := by
  fun_induction lineBreaks text with
  | case1 => exact .nil
  | case2 rest ih =>
    rw [newlines_crlf]
    exact .drop (plain_of_isLineBreak (by decide)) (.keep _ ih)
  | case3 c rest hcrlf hbreak ih | case4 c rest hcrlf hbreak ih =>
    rw [newlines_cons hcrlf]
    split_ifs with hc
    · exact .change (hc ▸ plain_of_isLineBreak (by decide)) (plain_of_isLineBreak (by decide)) ih
    · exact .keep c ih

theorem head_newlines {text : List Char} (h : (newlines text).head? = some '>') :
    text.head? = some '>' := by
  fun_cases lineBreaks text with
  | case1 => exact h
  | case2 rest =>
    rw [newlines_crlf] at h
    exact absurd h (by simp)
  | case3 c rest hcrlf hbreak | case4 c rest hcrlf hbreak =>
    rw [newlines_cons hcrlf] at h
    split_ifs at h
    · exact absurd h (by simp)
    · exact h

theorem hasTag_newlines {text : List Char} (h : HasTag text) : HasTag (newlines text) := by
  fun_induction lineBreaks text with
  | case1 => exact h
  | case2 rest ih =>
    rw [newlines_crlf]
    rw [hasTag_cons, hasTag_cons] at h
    refine hasTag_cons.mpr (.inr (ih ?_))
    simpa using h
  | case3 c rest hcrlf hbreak ih | case4 c rest hcrlf hbreak ih =>
    rw [newlines_cons hcrlf]
    rcases hasTag_cons.mp h with ⟨rfl, hhead, hclose⟩ | hrest
    · refine hasTag_cons.mpr (.inl ⟨if_neg (by decide), mt head_newlines hhead, ?_⟩)
      exact ((respaced_newlines rest).mem_iff fun hplain ↦ hplain.2 rfl).mpr hclose
    · exact hasTag_cons.mpr (.inr (ih hrest))

theorem count_of_hasTag (unicode : UnicodeData) {text : List Char} (h : HasTag text) :
    (blank tag (blank (element unicode) text)).count '>' < text.count '>' := by
  by_cases helement : ∃ suffix left, suffix <:+ text ∧ element unicode suffix = some left
  · obtain ⟨suffix, left, hsuffix, hfound⟩ := helement
    exact (count_blank_le closes_tag _).trans_lt
      (count_blank_lt (closes_element unicode) hsuffix hfound)
  · have hkept : blank (element unicode) text = text := by
      refine blank_of_none fun suffix hsuffix ↦ ?_
      by_contra hsome
      obtain ⟨left, hleft⟩ := Option.ne_none_iff_exists'.mp hsome
      exact helement ⟨suffix, left, hsuffix, hleft⟩
    obtain ⟨suffix, left, hsuffix, htag⟩ := hasTag_iff.mp h
    rw [hkept]
    exact count_blank_lt closes_tag hsuffix htag

/-- The text that a page shows is kept, with each line compacted, exactly when nothing in it reads
as a tag. -/
theorem visible_text_kept_iff (unicode : UnicodeData) (html : HtmlData) (text : List Char)
    (hunescape : unescape html (encoded text) = some text)
    (hlines : ∀ line ∈ splitlines text, strip line ≠ [] ∧ isChrome (compact line) = false) :
    normalizeV1 unicode html (encoded text) = some (join ['\n'] ((splitlines text).map compact)) ↔
    ¬ HasTag text := by
  have hkept : (splitlines text).map compact = keptLines text := by
    rw [keptLines, List.filter_eq_self.mpr]
    intro line hline
    simp [keeps, compact_ne_nil (hlines line hline).1, (hlines line hline).2]
  have hclose : ¬ Plain '>' := fun hplain ↦ hplain.2 rfl
  rw [hkept, normalizeV1, withoutMarkup, hunescape, Option.map_some, Option.map_some,
    strip_keptLines, Option.some_inj]
  constructor
  · intro hsame htag
    have hlost := count_of_hasTag unicode (hasTag_newlines htag)
    rw [← (respaced_keptLines _).count hclose, hsame, (respaced_keptLines text).count hclose,
      (respaced_newlines text).count hclose] at hlost
    exact absurd hlost (lt_irrefl _)
  · intro htag
    rw [blank_of_noTag unicode ((respaced_newlines text).not_hasTag htag), keptLines_newlines]

def referenceData : HtmlData where
  html5 name :=
    if name = "amp;".toList then some ['&'] else if name = "lt;".toList then some ['<']
    else if name = "gt;".toList then some ['>'] else none

/-- The parameter of a type is lost. -/
theorem generic_type_lost :
    unescape referenceData (encoded "a list<int> b".toList) = some "a list<int> b".toList ∧
      normalizeV1 asciiData referenceData (encoded "a list<int> b".toList) =
        some "a list b".toList ∧
      normalizeV1 asciiData referenceData (encoded "a list<int> b".toList) ≠
        some (join ['\n'] ((splitlines "a list<int> b".toList).map compact)) := by
  decide

theorem visible_text_kept_comparison :
    normalizeV1 asciiData referenceData (encoded "x > 1 & x < 5".toList) =
      some "x > 1 & x < 5".toList := by
  have h :=
    visible_text_kept_iff asciiData referenceData "x > 1 & x < 5".toList (by decide) (by decide)
  exact (h.mpr (by decide)).trans (by decide)

end AgenticSecurity.Normalization
