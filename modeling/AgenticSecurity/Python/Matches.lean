import AgenticSecurity.Python.Surroundings

namespace AgenticSecurity.Python.Regex

variable {unicode : UnicodeData}

/-- `word` is what stands between the two cursors. -/
structure Past (word : List Char) (cursor stop : Cursor) : Prop where
  text : cursor.2 = word ++ stop.2
  before : stop.1 = word.getLast?.or cursor.1

theorem past_nil {cursor stop : Cursor} : Past [] cursor stop ↔ stop = cursor := by
  constructor
  · intro h
    exact Prod.ext h.before h.text.symm
  · rintro rfl
    exact ⟨rfl, rfl⟩

theorem past_append {first second : List Char} {cursor stop : Cursor} :
    Past (first ++ second) cursor stop ↔ ∃ mid, Past first cursor mid ∧ Past second mid stop := by
  constructor
  · intro h
    refine ⟨(first.getLast?.or cursor.1, second ++ stop.2), ⟨?_, rfl⟩, rfl, ?_⟩
    · rw [h.text, List.append_assoc]
    · rw [h.before, List.getLast?_append, Option.or_assoc]
  · rintro ⟨mid, hfirst, hsecond⟩
    refine ⟨by rw [hfirst.text, hsecond.text, List.append_assoc], ?_⟩
    rw [hsecond.before, hfirst.before, List.getLast?_append, Option.or_assoc]

def Free : Regex → Prop
  | epsilon | one _ => True
  | seq first second | alt first second => Free first ∧ Free second
  | many body | upTo _ body => Free body
  | boundary | notAfter _ | notBefore _ => False

def Language : Regex → List Char → Prop
  | epsilon, word => word = []
  | one accepts, word => ∃ c, word = [c] ∧ accepts c = true
  | seq first second, word => ∃ x y, word = x ++ y ∧ Language first x ∧ Language second y
  | alt first second, word => Language first word ∨ Language second word
  | many body, word =>
    ∃ words : List (List Char), word = words.flatten ∧ ∀ x ∈ words, x ≠ [] ∧ Language body x
  | upTo n body, word =>
    ∃ words : List (List Char), words.length ≤ n ∧ word = words.flatten ∧ ∀ x ∈ words, x ≠ [] ∧
      Language body x
  | boundary, _ | notAfter _, _ | notBefore _, _ => False

theorem repeats_iff {step : Cursor → List Cursor} {words : List Char → Prop}
    (hstep : ∀ cursor stop, stop ∈ step cursor ↔ ∃ word, words word ∧ Past word cursor stop) {n : ℕ}
    {cursor stop : Cursor} :
    Repeats step n cursor stop ↔
      ∃ parts : List (List Char), parts.length = n ∧ (∀ x ∈ parts, x ≠ [] ∧ words x) ∧
        Past parts.flatten cursor stop := by
  induction n generalizing cursor with
  | zero =>
    constructor
    · intro h
      exact ⟨[], rfl, by simp, past_nil.mpr h⟩
    · rintro ⟨parts, hlength, -, h⟩
      rw [List.length_eq_zero_iff.mp hlength] at h
      exact past_nil.mp h
  | succ n ih =>
    constructor
    · rintro ⟨next, hnext, hlt, h⟩
      obtain ⟨word, hword, hpast⟩ := (hstep cursor next).mp hnext
      obtain ⟨parts, hlength, hparts, hrest⟩ := ih.mp h
      refine ⟨word ::
        parts, by rw [List.length_cons, hlength], ?_, past_append.mpr ⟨next, hpast, hrest⟩⟩
      refine List.forall_mem_cons.mpr ⟨⟨?_, hword⟩, hparts⟩
      rintro rfl
      rw [past_nil.mp hpast] at hlt
      exact lt_irrefl _ hlt
    · rintro ⟨parts, hlength, hparts, h⟩
      cases parts with
      | nil => cases hlength
      | cons word parts =>
        obtain ⟨hword, hparts⟩ := List.forall_mem_cons.mp hparts
        obtain ⟨next, hpast, hrest⟩ := past_append.mp h
        refine ⟨next, (hstep cursor next).mpr ⟨word, hword.2, hpast⟩, ?_,
          ih.mpr ⟨parts, ?_, hparts, hrest⟩⟩
        · have hpos := List.length_pos_of_ne_nil hword.1
          rw [hpast.text, List.length_append]
          omega
        · simpa using hlength

theorem mem_ends_iff {r : Regex} (hr : Free r) {cursor stop : Cursor} :
    stop ∈ ends unicode r cursor ↔ ∃ word, Language r word ∧ Past word cursor stop := by
  induction r generalizing cursor stop with
  | epsilon =>
    constructor
    · intro h
      exact ⟨[], rfl, past_nil.mpr (List.mem_singleton.mp h)⟩
    · rintro ⟨word, rfl, h⟩
      exact List.mem_singleton.mpr (past_nil.mp h)
  | one accepts =>
    rw [mem_one]
    constructor
    · rintro ⟨c, rest, htext, hc, rfl⟩
      exact ⟨[c], ⟨c, rfl, hc⟩, htext, rfl⟩
    · rintro ⟨word, ⟨c, rfl, hc⟩, h⟩
      exact ⟨c, stop.2, h.text, hc, Prod.ext h.before rfl⟩
  | seq first second ihfirst ihsecond =>
    constructor
    · intro h
      obtain ⟨mid, hmid, h⟩ := List.mem_flatMap.mp h
      obtain ⟨x, hx, hfirst⟩ := (ihfirst hr.1).mp hmid
      obtain ⟨y, hy, hsecond⟩ := (ihsecond hr.2).mp h
      exact ⟨x ++ y, ⟨x, y, rfl, hx, hy⟩, past_append.mpr ⟨mid, hfirst, hsecond⟩⟩
    · rintro ⟨word, ⟨x, y, rfl, hx, hy⟩, h⟩
      obtain ⟨mid, hfirst, hsecond⟩ := past_append.mp h
      exact List.mem_flatMap.mpr
        ⟨mid, (ihfirst hr.1).mpr ⟨x, hx, hfirst⟩, (ihsecond hr.2).mpr ⟨y, hy, hsecond⟩⟩
  | alt first second ihfirst ihsecond =>
    refine List.mem_append.trans ?_
    rw [ihfirst hr.1, ihsecond hr.2, ← exists_or]
    exact exists_congr fun _ ↦ or_and_right.symm
  | many body ih =>
    rw [mem_many]
    constructor
    · rintro ⟨n, h⟩
      obtain ⟨parts, -, hparts, hpast⟩ := (repeats_iff fun _ _ ↦ ih hr).mp h
      exact ⟨parts.flatten, ⟨parts, rfl, hparts⟩, hpast⟩
    · rintro ⟨word, ⟨parts, rfl, hparts⟩, h⟩
      exact ⟨parts.length, (repeats_iff fun _ _ ↦ ih hr).mpr ⟨parts, rfl, hparts, h⟩⟩
  | upTo n body ih =>
    rw [mem_upTo]
    constructor
    · rintro ⟨k, hk, h⟩
      obtain ⟨parts, rfl, hparts, hpast⟩ := (repeats_iff fun _ _ ↦ ih hr).mp h
      exact ⟨parts.flatten, ⟨parts, hk, rfl, hparts⟩, hpast⟩
    · rintro ⟨word, ⟨parts, hlength, rfl, hparts⟩, h⟩
      exact ⟨parts.length, hlength, (repeats_iff fun _ _ ↦ ih hr).mpr ⟨parts, rfl, hparts, h⟩⟩
  | boundary => exact absurd hr id
  | notAfter _ => exact absurd hr id
  | notBefore _ => exact absurd hr id

theorem language_many_one {accepts : Char → Bool} {word : List Char} :
    Language (many (one accepts)) word ↔ ∀ c ∈ word, accepts c = true := by
  constructor
  · rintro ⟨parts, rfl, hparts⟩ c hc
    obtain ⟨part, hpart, hc⟩ := List.mem_flatten.mp hc
    obtain ⟨-, d, rfl, hd⟩ := hparts part hpart
    rwa [List.mem_singleton.mp hc]
  · intro h
    refine ⟨word.map fun c ↦ [c], ?_, ?_⟩
    · rw [← List.flatMap_def, List.flatMap_singleton']
    · intro part hpart
      obtain ⟨c, hc, rfl⟩ := List.mem_map.mp hpart
      exact ⟨List.cons_ne_nil _ _, c, rfl, h c hc⟩

theorem language_upTo_one {accepts : Char → Bool} {word : List Char} :
    Language (upTo 1 (one accepts)) word ↔ word = [] ∨ ∃ c, word = [c] ∧ accepts c = true := by
  constructor
  · rintro ⟨parts, hlength, rfl, hparts⟩
    cases parts with
    | nil => exact .inl rfl
    | cons part parts =>
      have hnil : parts = [] := by simpa using hlength
      obtain ⟨-, c, rfl, hc⟩ := hparts part List.mem_cons_self
      exact .inr ⟨c, by rw [hnil]; rfl, hc⟩
  · rintro (rfl | ⟨c, rfl, hc⟩)
    · exact ⟨[], Nat.zero_le 1, rfl, by simp⟩
    · refine ⟨[[c]], le_refl 1, rfl, ?_⟩
      intro part hpart
      rw [List.mem_singleton.mp hpart]
      exact ⟨List.cons_ne_nil _ _, c, rfl, hc⟩

theorem mem_ends_of_language (unicode : UnicodeData) {r : Regex} (hr : Free r) {word : List Char}
    (h : Language r word) :
    (word.getLast?, []) ∈ ends unicode r (none, word) :=
  (mem_ends_iff hr).mpr ⟨word, h, (List.append_nil word).symm, Option.or_none.symm⟩

theorem language_solid {blank : Char → Bool} {r : Regex} (hsolid : Solid blank r) {word : List Char}
    (h : Language r word) : ∀ c ∈ word, blank c = false := by
  induction r generalizing word with
  | epsilon =>
    obtain rfl : word = [] := h
    simp
  | one accepts =>
    obtain ⟨c, rfl, hc⟩ := h
    exact List.forall_mem_singleton.mpr (hsolid c hc)
  | seq first second ihfirst ihsecond =>
    obtain ⟨x, y, rfl, hx, hy⟩ := h
    exact List.forall_mem_append.mpr
      ⟨ihfirst (fun c hc ↦ hsolid c (.inl hc)) hx, ihsecond (fun c hc ↦ hsolid c (.inr hc)) hy⟩
  | alt first second ihfirst ihsecond =>
    rcases h with h | h
    · exact ihfirst (fun c hc ↦ hsolid c (.inl hc)) h
    · exact ihsecond (fun c hc ↦ hsolid c (.inr hc)) h
  | many body ih =>
    obtain ⟨parts, rfl, hparts⟩ := h
    intro c hc
    obtain ⟨part, hpart, hc⟩ := List.mem_flatten.mp hc
    exact ih hsolid (hparts part hpart).2 c hc
  | upTo n body ih =>
    obtain ⟨parts, -, rfl, hparts⟩ := h
    intro c hc
    obtain ⟨part, hpart, hc⟩ := List.mem_flatten.mp hc
    exact ih hsolid (hparts part hpart).2 c hc
  | boundary => exact absurd h id
  | notAfter _ => exact absurd h id
  | notBefore _ => exact absurd h id

theorem language_first {blank : Char → Bool} {r : Regex} (hr : Free r)
    (hstart : StartsSolid blank r) {word : List Char} (h : Language r word) :
    ∃ c rest, word = c :: rest ∧ blank c = false :=
  starts_solid hstart (mem_ends_of_language asciiData hr h)

theorem language_last {blank : Char → Bool} {r : Regex} (hr : Free r) (hend : EndsSolid blank r)
    {word : List Char} (h : Language r word) : ∃ rest c, word = rest ++ [c] ∧ blank c = false := by
  obtain ⟨c, hlast, hc⟩ := ends_solid hend (mem_ends_of_language asciiData hr h)
  obtain ⟨rest, hrest⟩ := List.getLast?_eq_some_iff.mp hlast
  exact ⟨rest, c, hrest, hc⟩

theorem mem_boundary {cursor stop : Cursor} :
    stop ∈ ends unicode boundary cursor ↔ atBoundary unicode cursor = true ∧ stop = cursor := by
  simp [ends_boundary, List.mem_ite_nil_right]

theorem free_sequence {rs : List Regex} (h : ∀ r ∈ rs, Free r) : Free (sequence rs) :=
  forall_sequence trivial (fun _ _ ↦ And.intro) h

theorem free_textIgnoringCase (literal : String) : Free (textIgnoringCase literal) := by
  apply free_sequence
  intro r hr
  obtain ⟨p, -, rfl⟩ := List.mem_map.mp hr
  trivial

def afterRun (accepts : Char → Bool) (cursor : Cursor) : Cursor :=
  ((cursor.2.takeWhile accepts).getLast?.or cursor.1, cursor.2.dropWhile accepts)

theorem afterRun_cons {accepts : Char → Bool} {c : Char} (hc : accepts c = true) (b : Option Char)
    (rest : List Char) : afterRun accepts (b, c :: rest) = afterRun accepts (some c, rest) := by
  simp only [afterRun, List.takeWhile_cons_of_pos hc, List.dropWhile_cons_of_pos hc,
    getLast?_cons_or]

theorem head?_repeated_one {accepts : Char → Bool} {fuel : ℕ} {b : Option Char} {text : List Char}
    (h : text.length ≤ fuel) :
    (repeated (ends unicode (one accepts)) fuel (b, text)).head? =
      some (afterRun accepts (b, text)) := by
  induction fuel generalizing b text with
  | zero =>
    obtain rfl := List.length_eq_zero_iff.mp (Nat.le_zero.mp h)
    rfl
  | succ fuel ih =>
    cases text with
    | nil => rfl
    | cons c rest =>
      rw [repeated, ends_one_cons]
      by_cases hc : accepts c = true
      · have hrest : rest.length ≤ fuel := by simpa using h
        rw [if_pos hc, List.filter_cons_of_pos (by simp), List.filter_nil, List.flatMap_singleton,
          List.head?_append, ih hrest, afterRun_cons hc]
        rfl
      · rw [if_neg hc]
        simp [afterRun, hc]

theorem head?_ends_atLeast {accepts : Char → Bool} {m : ℕ} {cursor : Cursor} :
    (ends unicode (atLeast m (one accepts)) cursor).head? =
      if m ≤ (cursor.2.takeWhile accepts).length then some (afterRun accepts cursor) else none := by
  induction m generalizing cursor with
  | zero => rw [if_pos (Nat.zero_le _)]; exact head?_repeated_one le_rfl
  | succ m ih =>
    have hseq : ends unicode (atLeast (m + 1) (one accepts)) cursor =
        (ends unicode (one accepts) cursor).flatMap (ends unicode (atLeast m (one accepts))) := by
      cases m <;> rfl
    obtain ⟨b, text⟩ := cursor
    rw [hseq]
    cases text with
    | nil => rfl
    | cons c rest =>
      rw [ends_one_cons]
      by_cases hc : accepts c = true
      · rw [if_pos hc, List.flatMap_singleton, ih, afterRun_cons hc, List.takeWhile_cons_of_pos hc,
          List.length_cons]
        simp only [Nat.add_le_add_iff_right]
      · rw [if_neg hc, List.takeWhile_cons_of_neg hc]
        rfl

theorem takeWhile_run {accepts : Char → Bool} {run rest : List Char}
    (hrun : ∀ c ∈ run, accepts c = true) (hrest : rest.head?.any accepts = false) :
    (run ++ rest).takeWhile accepts = run := by
  rw [List.takeWhile_append_of_pos hrun]
  cases rest with
  | nil => exact List.append_nil run
  | cons c rest => rw [List.takeWhile_cons_of_neg (by simpa using hrest), List.append_nil]

theorem dropWhile_run {accepts : Char → Bool} {run rest : List Char}
    (hrun : ∀ c ∈ run, accepts c = true) (hrest : rest.head?.any accepts = false) :
    (run ++ rest).dropWhile accepts = rest := by
  rw [List.dropWhile_append_of_pos hrun]
  cases rest with
  | nil => rfl
  | cons c rest => exact List.dropWhile_cons_of_neg (by simpa using hrest)

theorem dropWhile_run_cons {accepts : Char → Bool} {run rest : List Char} {c : Char}
    (hrun : ∀ c ∈ run, accepts c = true) (hc : accepts c = false) :
    (run ++ c :: rest).dropWhile accepts = c :: rest := dropWhile_run hrun hc

theorem head?_dropWhile_any (accepts : Char → Bool) (text : List Char) :
    (text.dropWhile accepts).head?.any accepts = false := by
  have hnot := List.head?_dropWhile_not accepts text
  cases h : (text.dropWhile accepts).head? with
  | none => rfl
  | some c => simpa [h] using hnot

section Groups

variable {lead : Regex} {accepts : Char → Bool} {m : ℕ} {cursor : Cursor}

theorem lastGroup_run_eq : lastGroup unicode lead (atLeast m (one accepts)) cursor =
    (ends unicode lead cursor).findSome? fun start ↦
      if m ≤ (start.2.takeWhile accepts).length then
        some (start.2.takeWhile accepts, afterRun accepts start)
      else none := by
  refine congrArg (List.findSome? · _) (funext fun start ↦ ?_)
  have htake : start.2.take (start.2.length - (start.2.dropWhile accepts).length) =
      start.2.takeWhile accepts := by
    have hsplit :=
      congrArg List.length (List.takeWhile_append_dropWhile (p := accepts) (l := start.2))
    rw [List.length_append] at hsplit
    rw [← hsplit, Nat.add_sub_cancel]
    exact (List.prefix_iff_eq_take.mp (List.takeWhile_prefix accepts)).symm
  rw [head?_ends_atLeast]
  split_ifs
  · rw [Option.map_some, afterRun, htake]
  · rfl

theorem lastGroup_run {found : List Char} {stop : Cursor}
    (h : lastGroup unicode lead (atLeast m (one accepts)) cursor = some (found, stop)) :
    ∃ start ∈ ends unicode lead cursor, m ≤ found.length ∧ found = start.2.takeWhile accepts ∧
      stop = afterRun accepts start := by
  rw [lastGroup_run_eq] at h
  obtain ⟨start, hstart, hfound⟩ := List.exists_of_findSome?_eq_some h
  split_ifs at hfound with hlength
  obtain ⟨rfl, rfl⟩ := Prod.ext_iff.mp (Option.some.inj hfound)
  exact ⟨start, hstart, hlength, rfl, rfl⟩

theorem exists_lastGroup {start : Cursor} (hstart : start ∈ ends unicode lead cursor)
    (hlength : m ≤ (start.2.takeWhile accepts).length) :
    ∃ found stop, lastGroup unicode lead (atLeast m (one accepts)) cursor = some (found, stop) := by
  cases h : lastGroup unicode lead (atLeast m (one accepts)) cursor with
  | some found => exact ⟨found.1, found.2, rfl⟩
  | none =>
    rw [lastGroup_run_eq, List.findSome?_eq_none_iff] at h
    have hnone := h start hstart
    rw [if_pos hlength] at hnone
    cases hnone

end Groups

section Finditer

variable {α : Type} {attempt : Cursor → Option (α × Cursor)} {wanted : α → Prop}

theorem position_of_finditer {skip : ℕ} {b : Option Char} {text : List Char} {a : α}
    (h : a ∈ finditerFrom attempt skip b text) :
    ∃ pre rest stop, text = pre ++ rest ∧ attempt (pre.getLast?.or b, rest) = some (a, stop) := by
  induction text generalizing skip b with
  | nil => cases skip <;> cases h
  | cons c text ih =>
    have hlater : ∀ skip, a ∈ finditerFrom attempt skip (some c) text →
        ∃ pre rest stop, c :: text = pre ++ rest ∧ attempt (pre.getLast?.or b,
          rest) = some (a, stop) := by
      intro skip h
      obtain ⟨pre, rest, stop, rfl, hattempt⟩ := ih h
      exact ⟨c :: pre, rest, stop, rfl, by rwa [getLast?_cons_or]⟩
    cases skip with
    | succ skip => exact hlater skip h
    | zero =>
      rw [finditerFrom] at h
      split at h
      next found before' left hfound =>
        rcases List.mem_cons.mp h with rfl | h
        · exact ⟨[], c :: text, _, rfl, hfound⟩
        · exact hlater _ h
      next => exact hlater 0 h

theorem finditer_of_position
    (hhidden : ∀ b pre rest a stop found stop', attempt (b, pre ++ rest) = some (found,
      stop') → pre ≠ [] →
      attempt (pre.getLast?.or b, rest) = some (a, stop) → stop'.2.length < rest.length → wanted a →
      wanted found)
    {skip : ℕ} {b : Option Char} {pre rest : List Char} {a : α} {stop : Cursor}
    (hskip : skip ≤ pre.length)
    (hrest : rest ≠ []) (h : attempt (pre.getLast?.or b, rest) = some (a, stop)) (ha : wanted a) :
    ∃ found ∈ finditerFrom attempt skip b (pre ++ rest), wanted found := by
  induction pre generalizing skip b with
  | nil =>
    obtain rfl := Nat.le_zero.mp hskip
    obtain ⟨c, rest, rfl⟩ := List.exists_cons_of_ne_nil hrest
    replace h : attempt (b, c :: rest) = some (a, stop) := h
    rw [List.nil_append, finditerFrom, h]
    exact ⟨a, List.mem_cons_self, ha⟩
  | cons c pre ih =>
    rw [getLast?_cons_or] at h
    rw [List.cons_append]
    cases skip with
    | succ skip => exact ih (Nat.le_of_succ_le_succ hskip) h
    | zero =>
      rw [finditerFrom]
      split
      next found before' left hfound =>
        by_cases hleft : (pre ++ rest).length - left.length ≤ pre.length
        · obtain ⟨found', hfound', hwanted⟩ := ih hleft h
          exact ⟨found', List.mem_cons_of_mem _ hfound', hwanted⟩
        · -- the match ends behind the position
          have hlt : left.length < rest.length := by
            rw [List.length_append] at hleft
            omega
          refine ⟨found, List.mem_cons_self, ?_⟩
          refine hhidden b (c :: pre) rest a stop found (before',
            left) hfound (List.cons_ne_nil _ _) ?_ hlt ha
          rwa [getLast?_cons_or]
      next => exact ih (Nat.zero_le _) h

end Finditer

def Occurs (wanted : Option Char → List Char → Option Char → Prop) (text : List Char) : Prop :=
  ∃ pre word tail, text = pre ++ (word ++ tail) ∧ wanted pre.getLast? word tail.head?

structure Surroundable (blank : Char → Bool)
    (wanted : Option Char → List Char → Option Char → Prop) : Prop where
  before : ∀ {c word d}, blank c = true → (wanted (some c) word d ↔ wanted none word d)
  after : ∀ {b word c}, blank c = true → (wanted b word (some c) ↔ wanted b word none)
  first : ∀ {b word d}, wanted b word d → ∃ c rest, word = c :: rest ∧ blank c = false
  last : ∀ {b word d}, wanted b word d → ∃ rest c, word = rest ++ [c] ∧ blank c = false

section Occurs

variable {blank : Char → Bool} {wanted : Option Char → List Char → Option Char → Prop}
  {lead text post : List Char}

theorem not_occurs_nil (hwanted : ∀ b word d, wanted b word d → word ≠ []) :
    ¬ Occurs wanted [] := by
  rintro ⟨pre, word, tail, hsplit, hword⟩
  have hnil := List.append_eq_nil_iff.mp hsplit.symm
  exact hwanted _ word _ hword (List.append_eq_nil_iff.mp hnil.2).1

theorem Surroundable.before_or (hwanted : Surroundable blank wanted) {b c : Option Char}
    {word : List Char} {d : Option Char} (hc : ∀ x, c = some x → blank x = true) :
    wanted (b.or c) word d ↔ wanted b word d := by
  cases b with
  | some x => rfl
  | none =>
    cases c with
    | none => rfl
    | some x => exact hwanted.before (hc x rfl)

theorem Surroundable.after_or (hwanted : Surroundable blank wanted) {b c d : Option Char}
    {word : List Char} (hd : ∀ x, d = some x → blank x = true) : wanted b word (c.or d) ↔
      wanted b word c := by
  cases c with
  | some x => rfl
  | none =>
    cases d with
    | none => rfl
    | some x => exact hwanted.after (hd x rfl)

theorem Occurs.within (hwanted : Surroundable blank wanted)
    (hlead : ∀ c, lead.getLast? = some c → blank c = true)
    (hpost : ∀ c, post.head? = some c → blank c = true) (h : Occurs wanted text) :
    Occurs wanted (lead ++ (text ++ post)) := by
  obtain ⟨pre, word, tail, rfl, hword⟩ := h
  refine ⟨lead ++ pre, word, tail ++ post, by simp only [List.append_assoc], ?_⟩
  rw [List.getLast?_append, List.head?_append, hwanted.before_or hlead, hwanted.after_or hpost]
  exact hword

theorem split_surrounded {pre word tail : List Char} (hlead : ∀ c ∈ lead, blank c = true)
    (hpost : ∀ c ∈ post, blank c = true) (hfirst : ∃ c rest, word = c :: rest ∧ blank c = false)
    (hlast : ∃ rest c, word = rest ++ [c] ∧ blank c = false)
    (h : lead ++ (text ++ post) = pre ++ (word ++ tail)) :
    ∃ pre' tail', pre = lead ++ pre' ∧ tail = tail' ++ post ∧ text = pre' ++ (word ++ tail') := by
  obtain ⟨c, rest, hword, hc⟩ := hfirst
  obtain ⟨rest', d, hword', hd⟩ := hlast
  obtain ⟨pre', rfl, hinside⟩ :
      ∃ pre', pre = lead ++ pre' ∧ text ++ post = pre' ++ (word ++ tail) := by
    rcases List.append_eq_append_iff.mp h with ⟨pre', hpre, hinside⟩ | ⟨skipped, hskipped, hinside⟩
    · exact ⟨pre', hpre, hinside⟩
    · cases skipped with
      | nil => exact ⟨[], by simpa using hskipped.symm, hinside.symm⟩
      | cons x skipped =>
        rw [hword] at hinside
        obtain ⟨rfl, -⟩ := List.cons.inj hinside
        rw [hlead c (hskipped ▸ by simp)] at hc
        cases hc
  obtain ⟨tail', rfl, rfl⟩ : ∃ tail', tail = tail' ++ post ∧ text = pre' ++ word ++ tail' := by
    rw [← List.append_assoc] at hinside
    rcases List.append_eq_append_iff.mp hinside with ⟨beyond, hbeyond, hpost'⟩ | ⟨tail',
      htext, htail⟩
    · rcases List.eq_nil_or_concat beyond with rfl | ⟨beyond, x, rfl⟩
      · exact ⟨[], hpost'.symm, by simpa using hbeyond.symm⟩
      · rw [hword', ← List.append_assoc, List.concat_eq_append, ← List.append_assoc] at hbeyond
        obtain rfl : d = x := by simpa using (List.append_inj' hbeyond rfl).2
        rw [hpost d (hpost' ▸ by simp)] at hd
        cases hd
    · exact ⟨tail', htail, htext⟩
  exact ⟨pre', tail', rfl, rfl, List.append_assoc ..⟩

theorem Occurs.of_surrounded (hwanted : Surroundable blank wanted)
    (hlead : ∀ c ∈ lead, blank c = true) (hpost : ∀ c ∈ post, blank c = true)
    (h : Occurs wanted (lead ++ (text ++ post))) : Occurs wanted text := by
  obtain ⟨pre, word, tail, hsplit, hword⟩ := h
  obtain ⟨pre, tail, rfl, rfl, rfl⟩ :=
    split_surrounded hlead hpost (hwanted.first hword) (hwanted.last hword) hsplit
  refine ⟨pre, word, tail, rfl, ?_⟩
  rw [List.getLast?_append, List.head?_append,
    hwanted.before_or fun c hc ↦ hlead c (List.mem_of_getLast? hc),
    hwanted.after_or fun c hc ↦ hpost c (List.mem_of_head? hc)] at hword
  exact hword

end Occurs

end AgenticSecurity.Python.Regex
