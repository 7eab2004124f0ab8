import Mathlib.Algebra.Group.Nat.Defs
import Mathlib.Data.Char
import Mathlib.Data.List.Lex
import Mathlib.Data.Prod.Lex

namespace AgenticSecurity.Library.FixedWidth

variable {α β γ δ κ : Type*} [LinearOrder γ] [LinearOrder δ] [LinearOrder κ]

/-- The words that `word` gives to the values of `p` have one length, and their lexicographic
order is the order of the keys. -/
structure SortsBy (p : α → Prop) (key : α → γ) (word : α → List κ) (width : ℕ) : Prop where
  length : ∀ a, p a → (word a).length = width
  lt_iff : ∀ a b, p a → p b → (word a < word b ↔ key a < key b)

theorem append_lt_append_iff {l l' r r' : List κ} (h : l.length = l'.length) :
    l ++ r < l' ++ r' ↔ l < l' ∨ l = l' ∧ r < r' := by
  induction l generalizing l' with
  | nil =>
    obtain rfl := List.eq_nil_of_length_eq_zero h.symm
    simp
  | cons a l ih =>
    cases l' with
    | nil => cases h
    | cons b l' =>
      have hlength : l.length = l'.length := Nat.succ_injective h
      rw [List.cons_append, List.cons_append, List.cons_lt_cons_iff,
        List.cons_lt_cons_iff, ih hlength, List.cons_eq_cons]
      tauto

variable {p q : α → Prop} {key : α → γ} {key' : α → δ} {word word' : α → List κ} {width width' : ℕ}

theorem SortsBy.le_iff (h : SortsBy p key word width) {a b : α} (ha : p a) (hb : p b) :
    word a ≤ word b ↔ key a ≤ key b := by
  rw [← not_lt, ← not_lt, h.lt_iff b a hb ha]

theorem SortsBy.eq_iff (h : SortsBy p key word width) {a b : α} (ha : p a) (hb : p b) :
    word a = word b ↔ key a = key b := by
  rw [le_antisymm_iff, le_antisymm_iff, h.le_iff ha hb, h.le_iff hb ha]

theorem SortsBy.rekey (h : SortsBy p key word width)
    (hkey : ∀ a b, p a → p b → (key a < key b ↔ key' a < key' b)) : SortsBy p key' word width where
  length := h.length
  lt_iff a b ha hb := (h.lt_iff a b ha hb).trans (hkey a b ha hb)

theorem SortsBy.reword {other : α → List κ} (h : SortsBy p key word width)
    (hword : ∀ a, p a → other a = word a) :
    SortsBy p key other width where
  length a ha := by rw [hword a ha, h.length a ha]
  lt_iff a b ha hb := by rw [hword a ha, hword b hb, h.lt_iff a b ha hb]

theorem SortsBy.comap (h : SortsBy p key word width) (f : β → α) {q : β → Prop}
    (hf : ∀ b, q b → p (f b)) :
    SortsBy q (fun b ↦ key (f b)) (fun b ↦ word (f b)) width where
  length b hb := h.length (f b) (hf b hb)
  lt_iff a b ha hb := h.lt_iff (f a) (f b) (hf a ha) (hf b hb)

theorem SortsBy.append (h : SortsBy p key word width) (h' : SortsBy p key' word' width') :
    SortsBy p (fun a ↦ toLex (key a, key' a)) (fun a ↦ word a ++ word' a) (width + width') where
  length a ha := by rw [List.length_append, h.length a ha, h'.length a ha]
  lt_iff a b ha hb := by
    have hlength : (word a).length = (word b).length := (h.length a ha).trans (h.length b hb).symm
    rw [append_lt_append_iff hlength, h.lt_iff a b ha hb, h.eq_iff ha hb, h'.lt_iff a b ha hb,
      Prod.Lex.toLex_lt_toLex]

theorem SortsBy.cons (h : SortsBy p key word width) (c : κ) :
    SortsBy p key (fun a ↦ c :: word a) (width + 1) where
  length a ha := by rw [List.length_cons, h.length a ha]
  lt_iff a b ha hb := by
    rw [List.cons_lt_cons_iff, h.lt_iff a b ha hb]
    simp

theorem SortsBy.concat (h : SortsBy p key word width) (tail : List κ) :
    SortsBy p key (fun a ↦ word a ++ tail) (width + tail.length) where
  length a ha := by rw [List.length_append, h.length a ha]
  lt_iff a b ha hb := by
    have hlength : (word a).length = (word b).length := (h.length a ha).trans (h.length b hb).symm
    rw [append_lt_append_iff hlength, h.lt_iff a b ha hb]
    simp

theorem divMod_lt_iff {k m n : ℕ} (hk : 0 < k) :
    toLex (m / k, m % k) < toLex (n / k, n % k) ↔ m < n := by
  rw [Prod.Lex.toLex_lt_toLex]
  have hm := Nat.div_add_mod m k
  have hn := Nat.div_add_mod n k
  have hmk := Nat.mod_lt m hk
  have hnk := Nat.mod_lt n hk
  constructor
  · rintro (hlt | ⟨heq, hlt⟩)
    · have hmul : k * (m / k) + k ≤ k * (n / k) := by
        rw [← Nat.mul_succ]
        exact Nat.mul_le_mul_left k hlt
      omega
    · dsimp only at heq hlt
      rw [heq] at hm
      omega
  · intro hlt
    rcases Nat.lt_or_ge (m / k) (n / k) with h | h
    · exact .inl h
    · have heq : m / k = n / k := le_antisymm (Nat.div_le_div_right hlt.le) h
      rw [heq] at hm
      exact .inr ⟨heq, by omega⟩

theorem SortsBy.divMod {k : ℕ} (hk : 0 < k) {p : ℕ → Prop} {word word' : ℕ → List κ}
    (h : SortsBy p id word width) (h' : SortsBy (· < k) id word' width') :
    SortsBy (fun n ↦ p (n / k)) id (fun n ↦ word (n / k) ++ word' (n % k)) (width + width') :=
  ((h.comap (· / k) fun _ hn ↦ hn).append (h'.comap (· % k) fun n _ ↦ Nat.mod_lt n hk)).rekey
    fun _ _ _ _ ↦ divMod_lt_iff hk

/-- The decimal digits of a number, after zeros up to a width. -/
def zeroPadded (width n : ℕ) : List Char :=
  List.replicate (width - (Nat.toDigits 10 n).length) '0' ++ Nat.toDigits 10 n

theorem digit_sorts : SortsBy (· < 10) id (fun n ↦ [Nat.digitChar n]) 1 where
  length _ _ := rfl
  lt_iff m n hm hn := by
    have hchar : m.digitChar < n.digitChar ↔ m < n := by
      rw [Char.lt_def, UInt32.lt_iff_toNat_lt]
      change m.digitChar.toNat < n.digitChar.toNat ↔ m < n
      rw [Nat.toNat_digitChar_of_lt_ten hm, Nat.toNat_digitChar_of_lt_ten hn]
      omega
    rw [List.cons_lt_cons_iff, hchar]
    simp

theorem zeroPadded_one {n : ℕ} (hn : n < 10) : zeroPadded 1 n = [n.digitChar] := by
  rw [zeroPadded, Nat.toDigits_of_lt_base hn]
  rfl

theorem zeroPadded_zero (width : ℕ) :
    zeroPadded (width + 1) 0 = List.replicate (width + 1) '0' := by
  rw [zeroPadded, Nat.toDigits_zero, List.length_singleton, Nat.add_sub_cancel,
    ← List.replicate_succ']

theorem zeroPadded_succ (width n : ℕ) :
    zeroPadded (width + 2) n = zeroPadded (width + 1) (n / 10) ++ [(n % 10).digitChar] := by
  rcases Nat.lt_or_ge n 10 with hn | hn
  · rw [Nat.div_eq_of_lt hn, zeroPadded_zero, Nat.mod_eq_of_lt hn, zeroPadded,
      Nat.toDigits_of_lt_base hn]
    rfl
  · rw [zeroPadded, Nat.toDigits_of_base_le (by omega) hn, List.length_append,
      List.length_singleton, zeroPadded, ← List.append_assoc]
    congr 3
    omega

theorem zeroPadded_sorts (width : ℕ) :
    SortsBy (· < 10 ^ (width + 1)) id (zeroPadded (width + 1)) (width + 1) := by
  induction width with
  | zero =>
    refine ⟨fun n hn ↦ ?_, fun m n hm hn ↦ ?_⟩
    · rw [zeroPadded_one hn, List.length_singleton]
    · rw [zeroPadded_one hm, zeroPadded_one hn]
      exact digit_sorts.lt_iff m n hm hn
  | succ width ih =>
    have hsplit := ih.divMod (by omega : 0 < 10) digit_sorts
    have hrange : ∀ n, n < 10 ^ (width + 2) → n / 10 < 10 ^ (width + 1) := by
      intro n hn
      rw [Nat.pow_succ] at hn
      omega
    refine ⟨fun n hn ↦ ?_, fun m n hm hn ↦ ?_⟩
    · rw [zeroPadded_succ]
      exact hsplit.length n (hrange n hn)
    · rw [zeroPadded_succ, zeroPadded_succ]
      exact hsplit.lt_iff m n (hrange m hm) (hrange n hn)

end AgenticSecurity.Library.FixedWidth
