import AgenticSecurity.Derivations
import AgenticSecurity.Library.Fallible
import AgenticSecurity.Library.Related
import AgenticSecurity.Storage.LifecycleHistory
import Mathlib.Data.Finset.Max

namespace AgenticSecurity.Storage

open Library Models Derivations Python Runs KeyedLog

def dates (events : List LifecycleEvent) (system : String) (stage : AvailabilityState → Bool) :
    List Moment :=
  (events.filter fun event ↦ event.systemId = some system && stage event.state).filterMap
    (·.effectiveAt)

def previewDates (events : List LifecycleEvent) (system : String) : List Moment :=
  dates events system AvailabilityState.isPreview

def gaDates (events : List LifecycleEvent) (system : String) : List Moment :=
  dates events system (· = .ga)

def NotAfter (a b : Moment) : Prop := a.isAware = b.isAware ∧ a.instant ≤ b.instant

/-- Each system with a dated preview and a dated GA event is given the whole days from the earliest
of its previews to GA, which are not negative. -/
def RealVelocity (events : List LifecycleEvent) : Prop :=
  ∃ velocities, previewToGaVelocity events = .ok velocities ∧
    ∀ system, previewDates events system ≠ [] → ∀ stop ∈ gaDates events system,
      ∃ start ∈ previewDates events system,
      (∀ other ∈ previewDates events system, NotAfter start other) ∧
        ∃ elapsed, stop.since start = .ok elapsed ∧
          velocities.lookup system = some (elapsed / microsecondsPerDay) ∧
          0 ≤ elapsed / microsecondsPerDay

/-- All dates have an offset or none has, the preview that is recorded first does not take effect
after GA, and no preview takes effect so much before it that one more day passes until GA. -/
def DatesInOrder (events : List LifecycleEvent) : Prop :=
  ∀ system, ∀ first ∈ (previewDates events system).head?, ∀ stop ∈ gaDates events system,
    system ≠ "" ∧ (∀ date ∈ previewDates events system, date.isAware = stop.isAware) ∧
      first.instant ≤ stop.instant ∧
      ∀ start ∈ previewDates events system, ∀ days : ℤ, start.instant + days * microsecondsPerDay ≤
        stop.instant →
        first.instant + days * microsecondsPerDay ≤ stop.instant

variable {events : List LifecycleEvent} {system : String}

def dated (events : List LifecycleEvent) (system : String) (stage : AvailabilityState → Bool) :
    List LifecycleEvent :=
  (events.filter fun event ↦ event.systemId = some system).filter fun event ↦
    stage event.state && event.effectiveAt.isSome

theorem effectiveAt_of_dated {stage : AvailabilityState → Bool} {event : LifecycleEvent}
    (h : event ∈ dated events system stage) : ∃ date, event.effectiveAt = some date := by
  have hsome := (List.mem_filter.mp h).2
  rw [Bool.and_eq_true] at hsome
  exact Option.isSome_iff_exists.mp hsome.2

theorem dates_eq (stage : AvailabilityState → Bool) :
    dates events system stage = (dated events system stage).filterMap (·.effectiveAt) := by
  rw [dates, dated, List.filter_filter, List.filterMap_filter, List.filterMap_filter]
  congr 1
  funext event
  cases hdate : event.effectiveAt <;> simp [and_comm]

theorem head?_dates (stage : AvailabilityState → Bool) :
    (dates events system stage).head? = (dated events system stage).head?.bind (·.effectiveAt) := by
  rw [dates_eq]
  cases hdated : dated events system stage with
  | nil => rfl
  | cons event rest =>
    obtain ⟨date, hdate⟩ :=
      effectiveAt_of_dated (hdated ▸ List.mem_cons_self : event ∈ dated events system stage)
    simp [hdate]

theorem getLast?_dates (stage : AvailabilityState → Bool) :
    (dates events system stage).getLast? =
      (dated events system stage).getLast?.bind (·.effectiveAt) := by
  rw [dates_eq]
  rcases List.eq_nil_or_concat (dated events system stage) with hdated | ⟨rest, event, hdated⟩
  · rw [hdated]
    rfl
  · have hmem : event ∈ dated events system stage := by simp [hdated]
    obtain ⟨date, hdate⟩ := effectiveAt_of_dated hmem
    simp [hdated, hdate]

theorem since_ok {start stop : Moment} {elapsed : ℤ} : stop.since start = .ok elapsed ↔
    stop.isAware = start.isAware ∧ elapsed = stop.instant - start.instant := by
  rw [Moment.since]
  split_ifs with hsame
  · rw [Except.ok.injEq, eq_comm]
    exact (and_iff_right hsame).symm
  · exact iff_of_false nofun fun h ↦ hsame h.1

def velocityOf (events : List LifecycleEvent) (system : String) : Except String (Option ℤ) :=
  match (previewDates events system).head?, (gaDates events system).getLast? with
  | some start, some stop =>
    (stop.since start).map fun elapsed ↦ some (elapsed / microsecondsPerDay)
  | _, _ => .ok none

theorem velocity_eq :
    velocity (events.filter fun event ↦ event.systemId = some system) =
      velocityOf events system := by
  rw [velocityOf, previewDates, gaDates, head?_dates, getLast?_dates]
  rfl

theorem lookup_mapM {value : String → Except String (Option ℤ)} {keys : List String}
    {entries : List (Option (String × ℤ))}
    (h : keys.mapM (fun key ↦ (value key).map fun days ↦ days.map fun n ↦ (key, n)) = .ok entries)
    (key : String) :
    if key ∈ keys then value key = .ok ((entries.filterMap id).lookup key)
    else (entries.filterMap id).lookup key = none := by
  have hrel := Related.forall₂_of_mapM h
  clear h
  induction hrel with
  | nil => simp
  | @cons other entry keys entries hentry _ ih =>
    obtain ⟨days, hdays, rfl⟩ := Runs.except_map_ok.mp hentry
    by_cases heq : key = other
    · subst heq
      rw [if_pos List.mem_cons_self]
      cases days with
      | some n => simpa [List.lookup_cons] using hdays
      | none =>
        rw [hdays]
        split_ifs at ih with hmem
        · rw [hdays] at ih
          simpa using ih
        · simpa using ih.symm
    · have hne : (key == other) = false := by simpa using heq
      have hmem : key ∈ other :: keys ↔ key ∈ keys := by simp [heq]
      simp only [hmem]
      cases days with
      | some n => simpa [List.lookup_cons, hne] using ih
      | none => simpa using ih

theorem mem_systemIds : system ∈ systemIds events ↔ system ≠ "" ∧
    ∃ event ∈ events, event.systemId = some system := by
  simp only [systemIds, List.mem_eraseDups, List.mem_filterMap, Option.filter_eq_some_iff,
    decide_eq_true_eq]
  constructor
  · rintro ⟨event, hevent, hsystem, hne⟩
    exact ⟨hne, event, hevent, hsystem⟩
  · rintro ⟨hne, event, hevent, hsystem⟩
    exact ⟨event, hevent, hsystem, hne⟩

theorem mem_dates {stage : AvailabilityState → Bool} {date : Moment} :
    date ∈ dates events system stage ↔
    ∃ event ∈ events, event.systemId = some system ∧ stage event.state = true ∧
      event.effectiveAt = some date := by
  simp [dates, and_assoc]

theorem lookup_velocity {velocities : List (String × ℤ)}
    (h : previewToGaVelocity events = .ok velocities) (hdates : previewDates events system ≠ []) :
    if system ≠ "" then velocityOf events system = .ok (velocities.lookup system)
    else velocities.lookup system = none := by
  obtain ⟨start, hstart⟩ := List.exists_mem_of_ne_nil _ hdates
  obtain ⟨event, hevent, hsystem, -, -⟩ := mem_dates.mp hstart
  obtain ⟨entries, hentries, hpure⟩ := except_bind_ok.mp h
  obtain rfl := Except.ok.inj hpure
  have hlookup := lookup_mapM hentries system
  have hmem : system ∈ systemIds events ↔ system ≠ "" := by
    rw [mem_systemIds]
    exact and_iff_left ⟨event, hevent, hsystem⟩
  simp only [hmem, velocity_eq] at hlookup
  exact hlookup

def MixesDates (events : List LifecycleEvent) : Prop :=
  ∃ system, ∃ start ∈ previewDates events system, ∃ stop ∈ gaDates events system,
  stop.isAware ≠ start.isAware

theorem previewToGaVelocity_error {message : String}
    (h : previewToGaVelocity events = .error message) :
    MixesDates events := by
  rcases Fallible.bind_error.mp h with hloop | ⟨_, -, hpure⟩
  · obtain ⟨system, -, hturn⟩ := Fallible.mapM_error hloop
    rw [velocity_eq, velocityOf] at hturn
    split at hturn
    next start stop hstart hstop =>
      refine ⟨system, start, List.mem_of_head? hstart, stop, List.mem_of_getLast? hstop,
        fun hsame ↦ ?_⟩
      rw [since_ok.mpr ⟨hsame, rfl⟩] at hturn
      cases hturn
    · cases hturn
  · cases hpure

theorem entity_of_systemId {event : LifecycleEvent} (h : event.systemId = some system) :
    Lifecycle.entity event = ("system", system) := by
  rcases entity_cases event with ⟨other, hother, -, hentity⟩ | ⟨agent, hnone, -, -⟩
  · obtain rfl := Option.some.inj (h.symm.trans hother)
    exact hentity
  · rw [hnone] at h
    cases h

theorem gaDates_of_chained (h : Chained Lifecycle.entity Follows events) {stop : Moment}
    (hstop : stop ∈ gaDates events system) : gaDates events system = [stop] := by
  have hpairs := pairwise_of_chain ((h ("system", system)).imp fun _ _ hfollows ↦ hfollows.1)
  have hsublist :
      (events.filter fun event ↦ event.systemId = some system && event.state = .ga).Sublist
      (entriesOf Lifecycle.entity ("system", system) events) := by
    refine List.monotone_filter_right _ fun event hevent ↦ ?_
    rw [Bool.and_eq_true, decide_eq_true_eq] at hevent
    exact decide_eq_true (entity_of_systemId hevent.1)
  have honce :
      (events.filter fun event ↦ event.systemId = some system && event.state = .ga).length ≤ 1 := by
    have hpairwise := hpairs.sublist hsublist
    cases hga : events.filter fun event ↦ event.systemId = some system && event.state = .ga with
    | nil => exact Nat.zero_le 1
    | cons first rest =>
      cases rest with
      | nil => exact le_rfl
      | cons second rest =>
        have hstate : ∀ event ∈ first :: second :: rest, event.state = .ga := by
          intro event hevent
          rw [← hga] at hevent
          have hkept := (List.mem_filter.mp hevent).2
          rw [Bool.and_eq_true] at hkept
          exact of_decide_eq_true hkept.2
        rw [hga] at hpairwise
        have hadvances : stage first.state = 0 ∨ stage first.state < stage second.state :=
          List.rel_of_pairwise_cons hpairwise List.mem_cons_self
        rw [hstate first List.mem_cons_self,
          hstate second (List.mem_cons_of_mem _ List.mem_cons_self)] at hadvances
        exact absurd hadvances (by decide)
  have hlength : (gaDates events system).length ≤ 1 := (List.length_filterMap_le _ _).trans honce
  obtain ⟨date, hdates⟩ :=
    List.length_eq_one_iff.mp (le_antisymm hlength (List.length_pos_of_mem hstop))
  rw [hdates] at hstop ⊢
  rw [List.mem_singleton.mp hstop]

theorem le_days {start stop : Moment} {days : ℤ} :
    days ≤ (stop.instant - start.instant) / microsecondsPerDay ↔
    start.instant + days * microsecondsPerDay ≤ stop.instant := by
  rw [Int.le_ediv_iff_mul_le (by decide)]
  generalize days * microsecondsPerDay = elapsed
  omega

theorem exists_earliest {first : Moment} (h : first ∈ previewDates events system) :
    ∃ earliest ∈ previewDates events system, ∀ other ∈ previewDates events system,
      earliest.instant ≤ other.instant := by
  obtain ⟨earliest, hearliest, hleast⟩ :=
    (previewDates events system).toFinset.exists_min_image Moment.instant
    ⟨first, List.mem_toFinset.mpr h⟩
  exact ⟨earliest, List.mem_toFinset.mp hearliest,
    fun other hother ↦ hleast other (List.mem_toFinset.mpr hother)⟩

theorem velocityOf_first (h : Chained Lifecycle.entity Follows events) {first stop : Moment}
    (hfirst : (previewDates events system).head? = some first)
    (hstop : stop ∈ gaDates events system) :
    velocityOf events system =
      (stop.since first).map fun elapsed ↦ some (elapsed / microsecondsPerDay) := by
  rw [velocityOf, hfirst, gaDates_of_chained h hstop]
  rfl

theorem previewToGaVelocity_ok (h : Chained Lifecycle.entity Follows events)
    (horder : DatesInOrder events) :
    ∃ velocities, previewToGaVelocity events = .ok velocities := by
  have hvelocity : ∀ system, ∃ days, velocityOf events system = .ok days := by
    intro system
    cases hfirst : (previewDates events system).head? with
    | none => exact ⟨none, by rw [velocityOf, hfirst]⟩
    | some first =>
      cases hlast : (gaDates events system).getLast? with
      | none => exact ⟨none, by rw [velocityOf, hfirst, hlast]⟩
      | some stop =>
        have hstop := List.mem_of_getLast? hlast
        obtain ⟨-, hsame, -, -⟩ := horder system first hfirst stop hstop
        have hsince : stop.since first = .ok (stop.instant - first.instant) :=
          since_ok.mpr ⟨(hsame first (List.mem_of_head? hfirst)).symm, rfl⟩
        rw [velocityOf_first h hfirst hstop, hsince]
        exact ⟨_, rfl⟩
  choose days hdays using hvelocity
  have hentry : ∀ system ∈ systemIds events,
      ((velocity (events.filter fun e ↦ e.systemId = some system)).map
        fun days ↦ days.map fun n ↦ (system, n)) =
        .ok ((days system).map fun n ↦ (system, n)) := by
    intro system _
    rw [velocity_eq, hdays system]
    rfl
  exact ⟨_, except_bind_ok.mpr ⟨_, Fallible.mapM_ok hentry, rfl⟩⟩

theorem realVelocity_iff (h : Chained Lifecycle.entity Follows events) : RealVelocity events ↔
    DatesInOrder events := by
  constructor
  · intro hreal system first hfirst stop hstop
    obtain ⟨velocities, hok, hvelocity⟩ := hreal
    have hmem := List.mem_of_head? hfirst
    obtain ⟨earliest, hearliest, hleast, elapsed, hsince, hlookup, hnonneg⟩ :=
      hvelocity system (List.ne_nil_of_mem hmem) stop hstop
    have hcomputed := lookup_velocity hok (List.ne_nil_of_mem hmem)
    split_ifs at hcomputed with hnamed
    · rw [velocityOf_first h hfirst hstop, hlookup] at hcomputed
      obtain ⟨elapsed', hsince', hsame⟩ := except_map_ok.mp hcomputed
      obtain ⟨-, rfl⟩ := since_ok.mp hsince'
      obtain ⟨hkind, rfl⟩ := since_ok.mp hsince
      replace hsame := Option.some.inj hsame
      refine ⟨hnamed, fun date hdate ↦ ?_, ?_, fun start hstart days hdays ↦ ?_⟩
      · exact (hleast date hdate).1.symm.trans hkind.symm
      · rw [← hsame, le_days] at hnonneg
        simpa using hnonneg
      · rw [← le_days, hsame, le_days]
        exact (Int.add_le_add_right (hleast start hstart).2 _).trans hdays
    · rw [hlookup] at hcomputed
      cases hcomputed
  · intro horder
    obtain ⟨velocities, hok⟩ := previewToGaVelocity_ok h horder
    refine ⟨velocities, hok, fun system hdates stop hstop ↦ ?_⟩
    obtain ⟨first, hfirst⟩ := Option.ne_none_iff_exists'.mp (mt List.head?_eq_none_iff.mp hdates)
    have hmem := List.mem_of_head? hfirst
    obtain ⟨hnamed, hkind, hbefore, hlatest⟩ := horder system first hfirst stop hstop
    obtain ⟨start, hstart, hleast⟩ := exists_earliest hmem
    have hsame : (stop.instant - first.instant) / microsecondsPerDay =
        (stop.instant - start.instant) / microsecondsPerDay := by
      apply le_antisymm
      · exact Int.ediv_le_ediv (by decide) (Int.sub_le_sub_left (hleast first hmem) _)
      · rw [le_days]
        exact hlatest start hstart _ (le_days.mp le_rfl)
    have hcomputed := lookup_velocity hok hdates
    rw [if_pos hnamed, velocityOf_first h hfirst hstop, since_ok.mpr ⟨(hkind first hmem).symm, rfl⟩]
      at hcomputed
    refine ⟨start, hstart, fun other hother ↦ ⟨(hkind start hstart).trans (hkind other hother).symm,
      hleast other hother⟩, stop.instant - start.instant,
        since_ok.mpr ⟨(hkind start hstart).symm, rfl⟩, ?_, ?_⟩
    · rw [← hsame]
      exact (Except.ok.inj hcomputed).symm
    · rw [← hsame, le_days]
      simpa using hbefore

/-- In every table that appends reach, the velocity is a duration exactly when the dates are in
order. -/
theorem preview_to_ga_velocity_iff (start : Ledger) (events : List LifecycleEvent) :
    let table :=
      (attempts Ledger.appendLifecycle { start with lifecycleEvents := [] } events).lifecycleEvents
    RealVelocity table ↔ DatesInOrder table :=
  realVelocity_iff (attempts_chained start events)

def laterDay : Date := ⟨2026, 2, 20, by decide⟩

def lateEvents : List LifecycleEvent :=
  [{ guideEvent with
      id := { text := "LIFE-PREVIEW" }, state := .publicPreview,
      effectiveAt := some (.aware (.midnight laterDay)) },
    { guideEvent with effectiveAt := some (.aware (.midnight sampleDay)) }]

/-- Both events are appended, and it takes -50 days to GA. -/
theorem late_preview_negative :
    (attempts Ledger.appendLifecycle guideTables lateEvents).lifecycleEvents = lateEvents ∧
    previewToGaVelocity lateEvents = .ok [("guide-system", -50)] ∧ ¬ RealVelocity lateEvents := by
  have hnegative : previewToGaVelocity lateEvents = .ok [("guide-system", -50)] := by decide
  refine ⟨by decide, hnegative, fun h ↦ ?_⟩
  obtain ⟨velocities, hok, hvelocity⟩ := h
  obtain rfl := Except.ok.inj (hnegative.symm.trans hok)
  obtain ⟨start, -, -, elapsed, -, hlookup, hnonneg⟩ :=
    hvelocity "guide-system" (by decide) (.aware (.midnight sampleDay)) (by decide)
  rw [← Option.some.inj hlookup] at hnonneg
  exact absurd hnonneg (by decide)

end AgenticSecurity.Storage
