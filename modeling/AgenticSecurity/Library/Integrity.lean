import Mathlib.Data.List.Nodup

namespace AgenticSecurity.Library.Integrity

variable {ι κ : Type*}

/-- What the unique indexes of a database hold, and the entries that the rows behind
an index refer to. -/
structure Catalogue (ι κ : Type*) where
  held : ι → List κ
  references : ι → List (ι × κ)

/-- No index holds a key twice, and every reference resolves. -/
structure Catalogue.Sound (c : Catalogue ι κ) : Prop where
  unique : ∀ i, (c.held i).Nodup
  resolved : ∀ i, ∀ r ∈ c.references i, r.2 ∈ c.held r.1

/-- What a row enters in the index `i`. -/
def entered [DecidableEq ι] (entries : List (ι × κ)) (i : ι) : List κ :=
  entries.filterMap fun e ↦ if e.1 = i then some e.2 else none

theorem mem_entered [DecidableEq ι] {entries : List (ι × κ)} {i : ι} {k : κ} :
    k ∈ entered entries i ↔ (i, k) ∈ entries := by
  simp only [entered, List.mem_filterMap, Option.ite_none_right_eq_some, Option.some.injEq]
  constructor
  · rintro ⟨⟨j, k'⟩, he, rfl, rfl⟩
    exact he
  · intro he
    exact ⟨(i, k), he, rfl, rfl⟩

theorem nodup_entered [DecidableEq ι] {entries : List (ι × κ)} (h : entries.Nodup) (i : ι) :
    (entered entries i).Nodup := by
  refine h.filterMap ?_
  intro a b k ha hb
  have ha' : (if a.1 = i then some a.2 else none) = some k := ha
  have hb' : (if b.1 = i then some b.2 else none) = some k := hb
  split_ifs at ha' with hai
  split_ifs at hb' with hbi
  exact Prod.ext (hai.trans hbi.symm) (Option.some.inj (ha'.trans hb'.symm))

variable [DecidableEq ι] {c c' : Catalogue ι κ}

/-- A row was accepted: its entries are new, and what it refers to is held once it is in. -/
structure Catalogue.Accepts (c c' : Catalogue ι κ) (entries refs : List (ι × κ)) : Prop where
  held : ∀ i, c'.held i = c.held i ++ entered entries i
  references : ∀ i, ∀ r ∈ c'.references i, r ∈ c.references i ∨ r ∈ refs
  distinct : entries.Nodup
  fresh : ∀ e ∈ entries, e.2 ∉ c.held e.1
  resolved : ∀ r ∈ refs, r ∈ entries ∨ r.2 ∈ c.held r.1

namespace Catalogue.Accepts

variable {entries refs : List (ι × κ)}

theorem sound (h : c.Accepts c' entries refs) (hc : c.Sound) : c'.Sound where
  unique i := by
    rw [h.held i]
    refine (hc.unique i).append (nodup_entered h.distinct i) ?_
    intro k hk hk'
    exact h.fresh (i, k) (mem_entered.mp hk') hk
  resolved i r hr := by
    rw [h.held r.1, List.mem_append, mem_entered]
    cases h.references i r hr with
    | inl hold => exact .inl (hc.resolved i r hold)
    | inr hnew => exact (h.resolved r hnew).symm

end Catalogue.Accepts

end AgenticSecurity.Library.Integrity
