import Mathlib.Data.List.Induction
import Mathlib.Data.List.Range

namespace AgenticSecurity.Python.SequenceMatcher

variable {α : Type*} [DecidableEq α]

/-- With `autojunk`, an element of a long second sequence that occurs in more than
one percent of it is not indexed. -/
def popular (b : List α) (x : α) : Bool := 200 ≤ b.length && b.length / 100 + 1 < b.count x

/-- `b2j[x]`: the positions of `x` in `b`, in order. -/
def positions (b : List α) (x : α) : List ℕ :=
  if popular b x then [] else (List.range b.length).filter fun j ↦ b[j]? = some x

/-- A match of `size` elements at `i` in the first sequence and `j` in the second. -/
structure Match where
  i : ℕ
  j : ℕ
  size : ℕ
  deriving DecidableEq, Repr

/-- `j2len.get(j-1, 0)`. -/
def lengthBefore (j2len : List (ℕ × ℕ)) (j : ℕ) : ℕ :=
  if j = 0 then 0 else ((j2len.find? fun entry ↦ entry.1 = j - 1).map Prod.snd).getD 0

/-- One column of the search for row `i`: the longest match that ends at `i` and `j`. -/
def scanColumn (j2len : List (ℕ × ℕ)) (i : ℕ) (acc : Match × List (ℕ × ℕ)) (j : ℕ) :
    Match × List (ℕ × ℕ) :=
  let k := lengthBefore j2len j + 1
  (if acc.1.size < k then ⟨i + 1 - k, j + 1 - k, k⟩ else acc.1, (j, k) :: acc.2)

def scanRow (a b : List α) (blo bhi : ℕ) (acc : Match × List (ℕ × ℕ)) (i : ℕ) :
    Match × List (ℕ × ℕ) :=
  let columns := ((a[i]?.map (positions b)).getD []).filter fun j ↦ blo ≤ j ∧ j < bhi
  columns.foldl (scanColumn acc.2 i) (acc.1, [])

def extendLeft (a b : List α) (alo blo : ℕ) : ℕ → ℕ → ℕ → Match
  | 0, j, size => ⟨0, j, size⟩
  | i + 1, j, size =>
    if alo ≤ i ∧ blo < j ∧ a[i]? = b[j - 1]? then extendLeft a b alo blo i (j - 1) (size + 1)
    else ⟨i + 1, j, size⟩

/-- The size of a match after extending it to the right, at most `fuel` times. -/
def extendRight (a b : List α) (bhi i j : ℕ) : ℕ → ℕ → ℕ
  | 0, size => size
  | fuel + 1, size =>
    if j + size < bhi ∧ a[i + size]? = b[j + size]? then extendRight a b bhi i j fuel (size + 1)
    else size

def bestMatch (a b : List α) (alo ahi blo bhi : ℕ) : Match :=
  ((List.range' alo (ahi - alo)).foldl (scanRow a b blo bhi) (⟨alo, blo, 0⟩, [])).1

def findLongestMatch (a b : List α) (alo ahi blo bhi : ℕ) : Match :=
  let best := bestMatch a b alo ahi blo bhi
  let left := extendLeft a b alo blo best.i best.j best.size
  { left with size := extendRight a b bhi left.i left.j (ahi - (left.i + left.size)) left.size }

/-- The state of the search after some rows: the best match is inside, and no run
that ends in the last row is longer than the rows. -/
structure SearchInv (alo ahi rows : ℕ) (acc : Match × List (ℕ × ℕ)) : Prop where
  start : alo ≤ acc.1.i
  stop : acc.1.i + acc.1.size ≤ ahi
  runs : ∀ entry ∈ acc.2, entry.2 ≤ rows

theorem lengthBefore_le {j2len : List (ℕ × ℕ)} {rows : ℕ}
    (h : ∀ entry ∈ j2len, entry.2 ≤ rows) (j : ℕ) :
    lengthBefore j2len j ≤ rows := by
  unfold lengthBefore
  split_ifs
  · exact Nat.zero_le rows
  · cases hfind : j2len.find? fun entry ↦ entry.1 = j - 1 with
    | none => exact Nat.zero_le rows
    | some entry => exact h entry (List.mem_of_find?_eq_some hfind)

theorem foldl_scanColumn {j2len : List (ℕ × ℕ)} {alo ahi rows : ℕ} (hrows : alo + rows < ahi)
    (hruns : ∀ entry ∈ j2len, entry.2 ≤ rows) (columns : List ℕ) {acc : Match × List (ℕ × ℕ)}
    (h : SearchInv alo ahi (rows + 1) acc) :
    SearchInv alo ahi (rows + 1) (columns.foldl (scanColumn j2len (alo + rows)) acc) := by
  induction columns generalizing acc with
  | nil => exact h
  | cons j columns ih =>
    have hk := lengthBefore_le hruns j
    refine ih ⟨?_, ?_, fun entry hentry ↦ ?_⟩
    · have hstart := h.start
      dsimp only [scanColumn]
      split_ifs
      · change alo ≤ alo + rows + 1 - (lengthBefore j2len j + 1)
        omega
      · exact hstart
    · have hstop := h.stop
      dsimp only [scanColumn]
      split_ifs
      · change alo + rows + 1 - (lengthBefore j2len j + 1) + (lengthBefore j2len j + 1) ≤ ahi
        omega
      · exact hstop
    · rcases List.mem_cons.mp hentry with rfl | hold
      · exact Nat.succ_le_succ hk
      · exact h.runs entry hold

theorem foldl_scanRow (a b : List α) (blo bhi : ℕ) {alo ahi rows : ℕ} (hrows : alo + rows ≤ ahi)
    {acc : Match × List (ℕ × ℕ)} (h : SearchInv alo ahi 0 acc) :
    SearchInv alo ahi rows ((List.range' alo rows).foldl (scanRow a b blo bhi) acc) := by
  induction rows with
  | zero => exact h
  | succ rows ih =>
    have hprev := ih (by omega)
    rw [List.range'_concat, List.foldl_append, Nat.one_mul]
    refine foldl_scanColumn (by omega) hprev.runs _ ⟨hprev.start, hprev.stop, fun entry hentry ↦ ?_⟩
    exact absurd hentry List.not_mem_nil

theorem extendLeft_bounds (a b : List α) {alo i : ℕ} (blo j size : ℕ) (h : alo ≤ i) :
    alo ≤ (extendLeft a b alo blo i j size).i ∧
    (extendLeft a b alo blo i j size).i + (extendLeft a b alo blo i j size).size = i + size := by
  induction i generalizing j size with
  | zero => exact ⟨h, rfl⟩
  | succ i ih =>
    unfold extendLeft
    split_ifs with hmore
    · obtain ⟨hlow, hend⟩ := ih (j - 1) (size + 1) hmore.1
      exact ⟨hlow, by omega⟩
    · exact ⟨h, rfl⟩

theorem extendRight_le (a b : List α) (bhi i j fuel size : ℕ) :
    extendRight a b bhi i j fuel size ≤ fuel + size := by
  induction fuel generalizing size with
  | zero => exact (Nat.zero_add size).ge
  | succ fuel ih =>
    unfold extendRight
    split_ifs
    · exact (ih (size + 1)).trans (by omega)
    · omega

theorem findLongestMatch_bounds (a b : List α) (alo ahi blo bhi : ℕ) :
    alo ≤ (findLongestMatch a b alo ahi blo bhi).i ∧
    (findLongestMatch a b alo ahi blo bhi).i + (findLongestMatch a b alo ahi blo bhi).size ≤
      alo + (ahi - alo) := by
  have hempty : SearchInv alo (alo + (ahi - alo)) 0 (⟨alo, blo, 0⟩, []) :=
    ⟨le_rfl, Nat.le_add_right _ _, fun entry hentry ↦ absurd hentry List.not_mem_nil⟩
  have hbest : SearchInv alo (alo + (ahi - alo)) (ahi - alo)
      ((List.range' alo (ahi - alo)).foldl (scanRow a b blo bhi) (⟨alo, blo, 0⟩, [])) :=
    foldl_scanRow a b blo bhi le_rfl hempty
  have hstart : alo ≤ (bestMatch a b alo ahi blo bhi).i := hbest.start
  have hstop : (bestMatch a b alo ahi blo bhi).i + (bestMatch a b alo ahi blo bhi).size ≤
      alo + (ahi - alo) :=
    hbest.stop
  obtain ⟨hlow, hend⟩ := extendLeft_bounds a b blo (bestMatch a b alo ahi blo bhi).j
    (bestMatch a b alo ahi blo bhi).size hstart
  refine ⟨hlow, ?_⟩
  have hright := extendRight_le a b bhi (findLongestMatch a b alo ahi blo bhi).i
    (findLongestMatch a b alo ahi blo bhi).j
  dsimp only [findLongestMatch] at hright ⊢
  refine (Nat.add_le_add_left (hright _ _) _).trans ?_
  omega

/-- The sizes of the matching blocks of `a[alo:ahi]` and `b[blo:bhi]`, added up. -/
def matchingSize (a b : List α) (alo ahi blo bhi : ℕ) : ℕ :=
  let found := findLongestMatch a b alo ahi blo bhi
  if _ : found.size = 0 then 0
  else
    found.size +
    (if alo < found.i ∧ blo < found.j then matchingSize a b alo found.i blo found.j else 0) +
    (if found.i + found.size < ahi ∧ found.j + found.size < bhi then
      matchingSize a b (found.i + found.size) ahi (found.j + found.size) bhi else 0)
-- a block lies in its range, so it leaves less of `a` on both sides
termination_by ahi - alo
decreasing_by all_goals
  have hbounds := findLongestMatch_bounds a b alo ahi blo bhi
  subst found
  omega

/-- `SequenceMatcher(None, a, b).ratio() >= 0.9`. The ratio is `2 * matches / length`
in floating point, which rounds to at least `0.9` when the exact quotient is. -/
def ratioAtLeastNineTenths (a b : List α) : Bool :=
  let matchCount := matchingSize a b 0 a.length 0 b.length
  9 * (a.length + b.length) ≤ 20 * matchCount

end AgenticSecurity.Python.SequenceMatcher
