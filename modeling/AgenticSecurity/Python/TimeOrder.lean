import AgenticSecurity.Library.FixedWidth
import AgenticSecurity.Python.Time

namespace AgenticSecurity.Python

open Library FixedWidth

/-- `isoformat(timespec="microseconds")`. -/
def Datetime.isoMicroseconds (t : Datetime) : String :=
  let offset := t.utcOffsetSeconds.natAbs
  t.date.isoformat ++ "T" ++ clockText (t.microseconds / 1000000) true ++ "." ++
    padded 6 (t.microseconds % 1000000) ++ (if t.utcOffsetSeconds < 0 then "-" else "+") ++
    clockText offset (offset % 60 ≠ 0)

section Calendar

variable {year year' month month' day day' : ℕ}

def yearLength (year : ℕ) : ℕ := if isLeap year then 366 else 365

theorem daysBeforeMonth_succ (hmonth : 1 ≤ month) :
    daysBeforeMonth year (month + 1) = daysBeforeMonth year month + daysInMonth year month := by
  obtain ⟨month, rfl⟩ : ∃ k, month = k + 1 := ⟨month - 1, by omega⟩
  rfl

theorem daysBeforeMonth_lt (hmonth : 1 ≤ month) (hlt : month < month') :
    daysBeforeMonth year month + daysInMonth year month ≤ daysBeforeMonth year month' := by
  induction month' with
  | zero => omega
  | succ month' ih =>
    rw [daysBeforeMonth_succ (by omega)]
    rcases Nat.lt_or_ge month month' with h | h
    · have hle := ih h
      omega
    · obtain rfl : month = month' := by omega
      exact le_rfl

theorem daysBeforeMonth_thirteen (year : ℕ) : daysBeforeMonth year 13 = yearLength year := by
  cases h : isLeap year <;> simp [daysBeforeMonth, daysInMonth, yearLength, h]

theorem dayOfYear_le (hmonth : 1 ≤ month) (hmonth' : month ≤ 12)
    (hday : day ≤ daysInMonth year month) :
    daysBeforeMonth year month + day ≤ yearLength year := by
  have hle : daysBeforeMonth year month + daysInMonth year month ≤ daysBeforeMonth year 13 :=
    daysBeforeMonth_lt hmonth (by omega)
  rw [daysBeforeMonth_thirteen] at hle
  omega

theorem daysBeforeYear_succ (hyear : 1 ≤ year) :
    daysBeforeYear (year + 1) = daysBeforeYear year + yearLength year := by
  obtain ⟨before, rfl⟩ : ∃ k, year = k + 1 := ⟨year - 1, by omega⟩
  have h4 : (before + 1) / 4 = before / 4 + if (before + 1) % 4 = 0 then 1 else 0 := by
    split_ifs <;> omega
  have h100 : (before + 1) / 100 = before / 100 + if (before + 1) % 100 = 0 then 1 else 0 := by
    split_ifs <;> omega
  have h400 : (before + 1) / 400 = before / 400 + if (before + 1) % 400 = 0 then 1 else 0 := by
    split_ifs <;> omega
  have hcenturies : before / 100 ≤ before / 4 := by omega
  have hleap : (before + 1) % 100 = 0 → (before + 1) % 4 = 0 := by omega
  have hleap' : (before + 1) % 400 = 0 → (before + 1) % 100 = 0 := by omega
  simp only [daysBeforeYear, Nat.add_sub_cancel, yearLength, isLeap, h4, h100, h400]
  -- only sums are left for the arithmetic
  generalize before / 4 = fours, before / 100 = centuries, before / 400 = cycles at hcenturies ⊢
  by_cases hcycle : (before + 1) % 400 = 0
  · have hcentury := hleap' hcycle
    simp [hleap hcentury, hcentury, hcycle]
    omega
  · by_cases hcentury : (before + 1) % 100 = 0
    · simp [hleap hcentury, hcentury, hcycle]
      omega
    · by_cases hfour : (before + 1) % 4 = 0 <;> simp [hfour, hcentury, hcycle] <;> omega

theorem daysBeforeYear_lt (hyear : 1 ≤ year) (hlt : year < year') :
    daysBeforeYear year + yearLength year ≤ daysBeforeYear year' := by
  induction year' with
  | zero => omega
  | succ year' ih =>
    rw [daysBeforeYear_succ (by omega)]
    rcases Nat.lt_or_ge year year' with h | h
    · have hle := ih h
      omega
    · obtain rfl : year = year' := by omega
      exact le_rfl

end Calendar

def Date.fields (d : Date) : (ℕ ×ₗ ℕ) ×ₗ ℕ := toLex (toLex (d.year, d.month), d.day)

theorem Date.toOrdinal_lt_of_fields {d e : Date} (h : d.fields < e.fields) :
    d.toOrdinal < e.toOrdinal := by
  obtain ⟨hyear, -, hmonth, hmonth', -, hday⟩ := d.valid
  obtain ⟨-, -, hmonthE, -, hdayE, -⟩ := e.valid
  have hle := dayOfYear_le hmonth hmonth' hday
  unfold Date.fields at h
  rw [Prod.Lex.toLex_lt_toLex, Prod.Lex.toLex_lt_toLex] at h
  unfold Date.toOrdinal
  rcases h with (hlt | ⟨heq, hlt⟩) | ⟨heq, hlt⟩
  · have hyears := daysBeforeYear_lt hyear hlt
    dsimp only at hyears
    omega
  · have hmonths : daysBeforeMonth d.year d.month + daysInMonth d.year d.month ≤
        daysBeforeMonth d.year e.month :=
      daysBeforeMonth_lt hmonth hlt
    dsimp only at heq
    rw [← heq]
    omega
  · obtain ⟨heqYear, heqMonth⟩ := Prod.mk.inj (toLex.injective heq)
    dsimp only at hlt
    rw [heqYear, heqMonth]
    omega

theorem Date.toOrdinal_lt_iff {d e : Date} : d.toOrdinal < e.toOrdinal ↔ d.fields < e.fields := by
  constructor
  · intro hlt
    rcases lt_trichotomy d.fields e.fields with h | h | h
    · exact h
    · obtain ⟨heq, hday⟩ := Prod.mk.inj (toLex.injective h)
      obtain ⟨hyear, hmonth⟩ := Prod.mk.inj (toLex.injective heq)
      simp only [Date.toOrdinal, hyear, hmonth, hday, lt_self_iff_false] at hlt
    · exact absurd (Date.toOrdinal_lt_of_fields h) hlt.asymm
  · exact Date.toOrdinal_lt_of_fields

theorem toList_padded (width n : ℕ) : (padded width n).toList = zeroPadded width n := by
  rw [padded, String.toList_append, String.toList_ofList, Nat.toList_repr, zeroPadded,
    ← String.length_toList, Nat.toList_repr]

theorem Date.isoformat_characters (d : Date) :
    ∀ c ∈ d.isoformat.toList, c.isDigit = true ∨ c = '-' := by
  have hpadded : ∀ width n, ∀ c ∈ (padded width n).toList, c.isDigit = true := by
    intro width n c hc
    rw [padded, String.toList_append, String.toList_ofList, List.mem_append, Nat.toList_repr] at hc
    cases hc with
    | inl hzero =>
      rw [List.eq_of_mem_replicate hzero]
      decide
    | inr hdigit => exact Nat.isDigit_of_mem_toDigits (by decide) (by decide) hdigit
  intro c hc
  have hdash : "-".toList = ['-'] := rfl
  simp only [Date.isoformat, String.toList_append, List.mem_append, hdash, List.mem_singleton] at hc
  obtain (((hyear | hdash) | hmonth) | hdash) | hday := hc
  · exact .inl (hpadded _ _ c hyear)
  · exact .inr hdash
  · exact .inl (hpadded _ _ c hmonth)
  · exact .inr hdash
  · exact .inl (hpadded _ _ c hday)

theorem twoDigits_sorts {k : ℕ} (hk : k ≤ 100) : SortsBy (· < k) id (zeroPadded 2) 2 :=
  (zeroPadded_sorts 1).comap id fun n hn ↦ by
    change n < 100
    omega

theorem Date.isoformat_sorts :
    SortsBy (fun _ : Date ↦ True) Date.toOrdinal (fun d ↦ d.isoformat.toList) 10 := by
  have hyear : SortsBy (fun _ : Date ↦ True) Date.year (fun d ↦ zeroPadded 4 d.year) 4 :=
    (zeroPadded_sorts 3).comap Date.year fun d _ ↦ by
      have hyear := d.valid.2.1
      omega
  have hmonth : SortsBy (fun _ : Date ↦ True) Date.month (fun d ↦ '-' :: zeroPadded 2 d.month) 3 :=
    ((twoDigits_sorts le_rfl).cons '-').comap Date.month fun d _ ↦ by
      have hmonth := d.valid.2.2.2.1
      omega
  have hday : SortsBy (fun _ : Date ↦ True) Date.day (fun d ↦ '-' :: zeroPadded 2 d.day) 3 :=
    ((twoDigits_sorts le_rfl).cons '-').comap Date.day fun d _ ↦ by
      have hday := d.valid.2.2.2.2.2
      have hlength : daysInMonth d.year d.month ≤ 31 := by
        unfold daysInMonth
        split_ifs <;> omega
      omega
  have hsorts : SortsBy (fun _ : Date ↦ True) Date.toOrdinal _ 10 :=
    ((hyear.append hmonth).append hday).rekey fun d e _ _ ↦ Date.toOrdinal_lt_iff.symm
  refine hsorts.reword fun d _ ↦ ?_
  simp [Date.isoformat, toList_padded]

theorem clock_sorts : SortsBy (· < 86400000000) id
    (fun n ↦ (clockText (n / 1000000) true).toList ++ '.' :: zeroPadded 6 (n % 1000000)) 15 := by
  have hminutes :=
    (twoDigits_sorts le_rfl).divMod (by omega : 0 < 60) ((twoDigits_sorts (by omega)).cons ':')
  have hseconds := hminutes.divMod (by omega : 0 < 60) ((twoDigits_sorts (by omega)).cons ':')
  have hall := hseconds.divMod (by omega : 0 < 1000000) ((zeroPadded_sorts 5).cons '.')
  refine (hall.comap id fun n hn ↦ ?_).reword fun n _ ↦ ?_
  · change n / 1000000 / 60 / 60 < 100
    omega
  · simp [clockText, toList_padded, Nat.div_div_eq_div_mul]

theorem Datetime.isoMicroseconds_sorts :
    SortsBy (fun t : Datetime ↦ t.utcOffsetSeconds = 0) Datetime.instant
      (fun t ↦ t.isoMicroseconds.toList) 32 := by
  have hdate : SortsBy (fun t : Datetime ↦ t.utcOffsetSeconds = 0) (fun t ↦ t.date.toOrdinal)
      (fun t ↦ t.date.isoformat.toList) 10 :=
    Date.isoformat_sorts.comap Datetime.date fun _ _ ↦ trivial
  have hclock := (clock_sorts.cons 'T').comap Datetime.microseconds
    fun (t : Datetime) (_ : t.utcOffsetSeconds = 0) ↦ by
      have hlt := t.valid.1
      simp only [microsecondsPerDay] at hlt
      omega
  have hsorts : SortsBy (fun t : Datetime ↦ t.utcOffsetSeconds = 0) Datetime.instant _ 32 :=
    ((hdate.append hclock).concat "+00:00".toList).rekey fun t u ht hu ↦ by
      have htlt := t.valid.1
      have hult := u.valid.1
      rw [Prod.Lex.toLex_lt_toLex]
      simp only [Datetime.instant, microsecondsPerDay, ht, hu, id_eq] at htlt hult ⊢
      omega
  refine hsorts.reword fun t ht ↦ ?_
  have hzone : clockText 0 false = "00:00" := by decide
  simp [Datetime.isoMicroseconds, ht, hzone, toList_padded]

end AgenticSecurity.Python
