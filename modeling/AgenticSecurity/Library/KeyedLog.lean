import Mathlib.Data.Finset.Card
import Mathlib.Data.List.Chain
import Mathlib.Data.List.Pairwise
import Mathlib.Order.Interval.Finset.Nat

namespace AgenticSecurity.Library.KeyedLog

variable {ε κ : Type*} [DecidableEq κ]

def entriesOf (key : ε → κ) (k : κ) (log : List ε) : List ε := log.filter fun e ↦ key e = k

/-- The entries of each key follow each other in the relation `R`. -/
def Chained (key : ε → κ) (R : ε → ε → Prop) (log : List ε) : Prop :=
  ∀ k, (entriesOf key k log).IsChain R

variable {key : ε → κ} {R : ε → ε → Prop} {log : List ε} {e : ε}

theorem chained_nil : Chained key R [] := fun _ ↦ .nil

@[simp] theorem entriesOf_snoc_self :
    entriesOf key (key e) (log ++ [e]) = entriesOf key (key e) log ++ [e] := by
  simp [entriesOf]

theorem entriesOf_snoc_of_ne {k : κ} (h : key e ≠ k) :
    entriesOf key k (log ++ [e]) = entriesOf key k log := by
  simp [entriesOf, h]

theorem Chained.snoc (h : Chained key R log)
    (hlast : ∀ last ∈ (entriesOf key (key e) log).getLast?, R last e) :
    Chained key R (log ++ [e]) := by
  intro k
  by_cases hk : key e = k
  · subst hk
    rw [entriesOf_snoc_self]
    refine (h (key e)).append (.singleton e) fun last hmem e' he' ↦ ?_
    obtain rfl : e = e' := by simpa using he'
    exact hlast last hmem
  · rw [entriesOf_snoc_of_ne hk]
    exact h k

variable {rank : ε → ℕ}

/-- From rank zero anything may follow, from any other only what ranks higher. -/
def Advances (rank : ε → ℕ) (a b : ε) : Prop := rank a = 0 ∨ rank a < rank b

theorem Advances.trans {a b c : ε} (hab : Advances rank a b) (hbc : Advances rank b c) :
    Advances rank a c := by
  unfold Advances at *
  omega

theorem pairwise_of_chain (h : log.IsChain (Advances rank)) : log.Pairwise (Advances rank) := by
  have htrans : IsTrans ε (Advances rank) := ⟨fun _ _ _ ↦ Advances.trans⟩
  exact List.isChain_iff_pairwise.mp h

theorem split_of_chain (h : log.IsChain (Advances rank)) :
    ∃ initial advanced, log = initial ++ advanced ∧ (∀ e ∈ initial, rank e = 0) ∧
      (∀ e ∈ advanced, rank e ≠ 0) ∧
      advanced.Pairwise fun a b ↦ rank a < rank b := by
  have hpairs := pairwise_of_chain h
  clear h
  induction log with
  | nil => exact ⟨[], [], rfl, by simp, by simp, .nil⟩
  | cons e log ih =>
    obtain ⟨hfirst, hrest⟩ := List.pairwise_cons.mp hpairs
    obtain ⟨initial, advanced, rfl, hinitial, hadvanced, hincreasing⟩ := ih hrest
    by_cases hzero : rank e = 0
    · exact ⟨e :: initial, advanced, rfl, List.forall_mem_cons.mpr ⟨hzero, hinitial⟩, hadvanced,
        hincreasing⟩
    have hhigher : ∀ later ∈ initial ++ advanced, rank e < rank later := fun later hlater ↦
      (hfirst later hlater).resolve_left hzero
    -- nothing of rank zero follows
    obtain rfl : initial = [] := by
      refine List.eq_nil_iff_forall_not_mem.mpr fun later hlater ↦ ?_
      have hlt := hhigher later (List.mem_append_left _ hlater)
      have hnone := hinitial later hlater
      omega
    exact ⟨[], e :: advanced, rfl, by simp, List.forall_mem_cons.mpr ⟨hzero, hadvanced⟩,
      List.pairwise_cons.mpr ⟨hhigher, hincreasing⟩⟩

theorem length_le_of_ranks {top : ℕ} (hbounds : ∀ e ∈ log, rank e ≠ 0 ∧ rank e ≤ top)
    (hincreasing : log.Pairwise fun a b ↦ rank a < rank b) : log.length ≤ top := by
  have hnodup : (log.map rank).Nodup := by
    refine List.pairwise_map.mpr (hincreasing.imp fun hlt ↦ ?_)
    exact Nat.ne_of_lt hlt
  have hsubset : (log.map rank).toFinset ⊆ Finset.Icc 1 top := by
    intro n hn
    obtain ⟨e, he, rfl⟩ := List.mem_map.mp (List.mem_toFinset.mp hn)
    obtain ⟨hpos, htop⟩ := hbounds e he
    rw [Finset.mem_Icc]
    omega
  have hcard := Finset.card_le_card hsubset
  rwa [List.toFinset_card_of_nodup hnodup, List.length_map, Nat.card_Icc,
    Nat.add_sub_cancel] at hcard

end AgenticSecurity.Library.KeyedLog
