import AgenticSecurity.Collection.Retrieval
import Mathlib.Algebra.Order.Ring.Rat
import Mathlib.Data.List.Chain
import Mathlib.Tactic.Linarith

namespace AgenticSecurity.Collection

open Models Python Sources

/-- A retriever with any robots policy and any cache, among surroundings where each
step takes the time that `delay` gives for it. -/
structure PacedRetriever extends HttpRetriever where
  delay : ℕ → ℚ
  delay_nonneg : ∀ tick, 0 ≤ delay tick
  robots : ℕ → Url → Session → Session × Except Raised Bool
  cached : ℕ → Url → Session → Option CachedResponse

/-- A page request: when it starts, how many attempts are left after this one, the
error that came before any response with the time it took, and what has passed since
the request before was over, the sleeps apart. -/
structure PageRequest where
  time : ℚ
  attempts : ℕ
  failure : Option (Raised × ℚ)
  idle : ℚ

/-- A session with the clock, `_last_request_at` of the source, and the page requests
so far. -/
structure PacedSession where
  session : Session := {}
  now : ℚ
  ticks : ℕ := 0
  idle : ℚ := 0
  lastRequestAt : Option ℚ := none
  requests : List PageRequest := []

/-- `0.1 * (2**attempt)`. -/
def RetrievalLimits.backOff (limits : RetrievalLimits) (attempts : ℕ) : ℚ :=
  1 / 10 * 2 ^ (limits.maxRetries - attempts)

namespace PacedRetriever

variable (r : PacedRetriever)

def pass (p : PacedSession) : PacedSession :=
  { p with now := p.now + r.delay p.ticks, idle := p.idle + r.delay p.ticks, ticks := p.ticks + 1 }

def sleep (seconds : ℚ) (p : PacedSession) : PacedSession :=
  let woken := r.pass p
  { woken with now := woken.now + seconds }

def awaitInterval (p : PacedSession) : PacedSession :=
  let wait := r.limits.minIntervalSeconds - (p.now - p.lastRequestAt.getD 0)
  let p := r.pass p
  if 0 < wait then r.sleep wait p else p

/-- Only a response moves `_last_request_at`. -/
def send (attempts : ℕ) (url : Url) (p : PacedSession) : PacedSession × Exchange :=
  let (session, exchange) := r.toHttpRetriever.send .page url p.session
  let ended := { r.pass p with session, idle := 0 }
  let request failure : PageRequest := { time := p.now, attempts, failure, idle := p.idle }
  match exchange with
  | .response _ =>
    ({ ended with lastRequestAt := some ended.now, requests := p.requests ++ [request none] },
        exchange)
  | .raised error =>
    ({ ended with requests := p.requests ++ [request (some (error, ended.now - p.now))] }, exchange)

def validateHop (url : Url) (p : PacedSession) : PacedSession × Except Raised Url :=
  match r.validateUrl url with
  | .error message => (p, .error (.valueError message))
  | .ok canonical =>
    let (session, decision) := r.robots p.ticks canonical p.session
    let p := { r.pass p with session }
    match decision with
    | .error error => (p, .error error)
    | .ok true => (p, .ok canonical)
    | .ok false =>
      (p, .error (.permissionError ("robots policy denies retrieval: " ++ String.ofList canonical)))

def requestHops (attempts : ℕ) : List ℕ → Url → PacedSession → PacedSession × HopsEnd CachedResponse
  | [], _, p => (p, .exhausted)
  | redirectCount :: counts, current, p =>
    let (p, exchange) := r.send attempts current (r.awaitInterval p)
    let p := r.pass p
    match r.readPage redirectCount current exchange with
    | .error error => (p, .raised error)
    | .ok (.content content contentType) => (p, .returned { content, contentType })
    | .ok (.redirect target) =>
      match r.validateHop target p with
      | (p, .error error) => (p, .raised error)
      | (p, .ok next) => requestHops attempts counts next p

def requestAttempts (canonical : Url) :
    ℕ → Option Raised → PacedSession → PacedSession × Except Raised CachedResponse
  | 0, lastError, p => (p, .error (lastError.getD (.other "AssertionError")))
  | attempts + 1, lastError, p =>
    match r.requestHops attempts (List.range (r.limits.maxRedirects + 1)) canonical p with
    | (p, .returned value) => (p, .ok value)
    | (p, .raised error) =>
      if error.caught then
        requestAttempts canonical attempts (some error)
          (if attempts = 0 then p else r.sleep (r.limits.backOff attempts) p)
      else (p, .error error)
    | (p, .exhausted) => requestAttempts canonical attempts lastError p

def request (canonical : Url) (p : PacedSession) : PacedSession × Except Raised CachedResponse :=
  r.requestAttempts canonical (r.limits.maxRetries + 1) none p

def retrieve (url : Url) (p : PacedSession) :
    PacedSession × Except Raised HttpRetriever.Retrieved :=
  match r.validateUrl url with
  | .error message => (p, .error (.valueError message))
  | .ok canonical =>
    match r.validateHop canonical p with
    | (p, .error error) => (p, .error error)
    | (p, .ok _) =>
      match r.cached p.ticks canonical p.session with
      | some cached => (p, HttpRetriever.decoded canonical cached)
      | none =>
        match r.request canonical p with
        | (p, .error error) => (p, .error error)
        | (p, .ok page) =>
          ({ p with session := { p.session with cache := dictSet p.session.cache canonical page } },
            HttpRetriever.decoded canonical page)

/-- The session after retrievals of the given URLs, with time passing after each. -/
def run (p : PacedSession) (urls : List Url) : PacedSession :=
  urls.foldl (fun p url ↦ r.pass (r.retrieve url p).1) p

@[simp] theorem awaitInterval_session (p : PacedSession) :
    (r.awaitInterval p).session = p.session := by
  unfold awaitInterval
  simp only
  split <;> rfl

theorem send_untimed (attempts : ℕ) (url : Url) (p : PacedSession) :
    Prod.map (·.session) id (r.send attempts url p) =
      r.toHttpRetriever.send .page url p.session := by
  unfold send
  obtain ⟨session, exchange⟩ := r.toHttpRetriever.send .page url p.session
  cases exchange <;> rfl

section Untimed

variable {r} (hrobots : ∀ tick, r.robots tick = r.allowed)

include hrobots

theorem validateHop_untimed (url : Url) (p : PacedSession) :
    Prod.map (·.session) id (r.validateHop url p) =
      r.toHttpRetriever.validateHop url p.session := by
  unfold validateHop HttpRetriever.validateHop
  cases r.validateUrl url with
  | error message => rfl
  | ok canonical =>
    simp only [hrobots]
    obtain ⟨session, decision⟩ := r.allowed canonical p.session
    cases decision with
    | error error => rfl
    | ok permitted => cases permitted <;> rfl

theorem requestHops_untimed (attempts : ℕ) (counts : List ℕ) (current : Url) (p : PacedSession) :
    Prod.map (·.session) id (r.requestHops attempts counts current p) =
      r.toHttpRetriever.requestHops counts current p.session := by
  induction counts generalizing current p with
  | nil => rfl
  | cons redirectCount counts ih =>
    have hsend := r.send_untimed attempts current (r.awaitInterval p)
    rw [awaitInterval_session] at hsend
    unfold requestHops HttpRetriever.requestHops
    rw [← hsend]
    generalize r.send attempts current (r.awaitInterval p) = sent
    obtain ⟨p, exchange⟩ := sent
    simp only [Prod.map, id]
    cases r.readPage redirectCount current exchange with
    | error error => rfl
    | ok step =>
      cases step with
      | content content contentType => rfl
      | redirect target =>
        have hhop := validateHop_untimed hrobots target (r.pass p)
        simp only
        rw [show p.session = (r.pass p).session from rfl, ← hhop]
        obtain ⟨p, validated⟩ := r.validateHop target (r.pass p)
        cases validated with
        | error error => rfl
        | ok next => exact ih next p

theorem requestAttempts_untimed (canonical : Url) (attempts : ℕ) (lastError : Option Raised)
    (p : PacedSession) :
    Prod.map (·.session) id (r.requestAttempts canonical attempts lastError p) =
      r.toHttpRetriever.requestAttempts canonical attempts lastError p.session := by
  induction attempts generalizing lastError p with
  | zero => rfl
  | succ attempts ih =>
    unfold requestAttempts HttpRetriever.requestAttempts
    rw [← requestHops_untimed hrobots attempts]
    obtain ⟨p, ended⟩ := r.requestHops attempts (List.range (r.limits.maxRedirects + 1)) canonical p
    simp only [Prod.map, id]
    cases ended with
    | returned value => rfl
    | exhausted => exact ih lastError p
    | raised error =>
      by_cases hcaught : error.caught
      · simp only [hcaught, if_true]
        have h :=
          ih (some error) (if attempts = 0 then p else r.sleep (r.limits.backOff attempts) p)
        rw [show (if attempts = 0 then p else r.sleep (r.limits.backOff attempts) p).session =
          p.session by
          split <;> rfl] at h
        exact h
      · simp only [hcaught]
        rfl

theorem retrieve_untimed (hcached : ∀ tick url s, r.cached tick url s = s.cache.lookup url)
    (url : Url) (p : PacedSession) :
    Prod.map (·.session) id (r.retrieve url p) = r.toHttpRetriever.retrieve url p.session := by
  unfold retrieve HttpRetriever.retrieve
  cases r.validateUrl url with
  | error message => rfl
  | ok canonical =>
    simp only
    rw [← validateHop_untimed hrobots canonical p]
    obtain ⟨p, validated⟩ := r.validateHop canonical p
    cases validated with
    | error error => rfl
    | ok next =>
      simp only [Prod.map, id, hcached]
      cases p.session.cache.lookup canonical with
      | some cached => rfl
      | none =>
        have h := requestAttempts_untimed hrobots canonical (r.limits.maxRetries + 1) none p
        simp only
        unfold request HttpRetriever.request
        rw [← h]
        obtain ⟨p, page⟩ := r.requestAttempts canonical (r.limits.maxRetries + 1) none p
        cases page <;> rfl

end Untimed

end PacedRetriever

def PageRequest.pause (limits : RetrievalLimits) (request : PageRequest) : ℚ :=
  if (∃ failure ∈ request.failure, failure.1.caught) ∧
    request.attempts ≠ 0 then limits.backOff request.attempts else 0

/-- If `a` was not answered, it took the interval with its back-off and the idle time
before `b`. -/
def PageRequest.Covers (limits : RetrievalLimits) (a b : PageRequest) : Prop :=
  ∀ failure ∈ a.failure, limits.minIntervalSeconds ≤ failure.2 + a.pause limits + b.idle

def Spaced (limits : RetrievalLimits) (requests : List PageRequest) : Prop :=
  requests.IsChain fun a b ↦ a.time + limits.minIntervalSeconds ≤ b.time

theorem RetrievalLimits.backOff_pos (limits : RetrievalLimits) (attempts : ℕ) :
    0 < limits.backOff attempts := by
  unfold RetrievalLimits.backOff
  positivity

theorem PageRequest.pause_nonneg (limits : RetrievalLimits) (request : PageRequest) :
    0 ≤ request.pause limits := by
  unfold PageRequest.pause
  split
  · exact (limits.backOff_pos request.attempts).le
  · exact le_rfl

namespace PacedRetriever

/-- Between two requests. `slept` is how long the back-off after the last request has
been so far. -/
structure Rested (r : PacedRetriever) (slept : PageRequest → ℚ) (p : PacedSession) : Prop where
  gaps : p.requests.IsChain fun a b ↦ a.time + r.limits.minIntervalSeconds ≤ b.time ↔
    a.Covers r.limits b
  idle : 0 ≤ p.idle
  answered : ∀ a ∈ p.requests.getLast?, a.failure = none → ∃ last ∈ p.lastRequestAt, a.time ≤ last
  unanswered : ∀ a ∈ p.requests.getLast?, ∀ failure ∈ a.failure, 0 ≤ failure.2 ∧
    p.lastRequestAt.getD 0 + r.limits.minIntervalSeconds ≤ a.time ∧
    p.now = a.time + failure.2 + slept a + p.idle

def Raises (attempts : ℕ) (error : Raised) (p : PacedSession) : Prop :=
  ∀ a ∈ p.requests.getLast?, ∀ failure ∈ a.failure, failure.1 = error ∧ a.attempts = attempts

theorem Raises.pause {attempts : ℕ} {error : Raised} {p : PacedSession}
    (h : Raises attempts error p) (limits : RetrievalLimits) {a : PageRequest}
    (ha : a ∈ p.requests.getLast?) (hfailed : a.failure ≠ none) :
    a.pause limits = if error.caught ∧ attempts ≠ 0 then limits.backOff attempts else 0 := by
  obtain ⟨failure, hfailure⟩ := Option.ne_none_iff_exists'.mp hfailed
  obtain ⟨herror, hattempts⟩ := h a ha failure hfailure
  unfold PageRequest.pause
  simp only [hfailure, Option.mem_some_iff, exists_eq_left', herror, hattempts]

variable {r : PacedRetriever} {slept : PageRequest → ℚ} {p : PacedSession}

theorem Rested.pass (h : r.Rested slept p) : r.Rested slept (r.pass p) where
  gaps := h.gaps
  idle := add_nonneg h.idle (r.delay_nonneg p.ticks)
  answered := h.answered
  unanswered a ha failure hfailure := by
    obtain ⟨htook, hlast, hnow⟩ := h.unanswered a ha failure hfailure
    refine ⟨htook, hlast, ?_⟩
    simp only [PacedRetriever.pass]
    linarith

theorem Rested.congr {slept' : PageRequest → ℚ} (h : r.Rested slept p)
    (hslept : ∀ a ∈ p.requests.getLast?, a.failure ≠ none → slept' a = slept a) :
    r.Rested slept' p where
  gaps := h.gaps
  idle := h.idle
  answered := h.answered
  unanswered a ha failure hfailure := by
    have hsame := hslept a ha (Option.ne_none_iff_exists'.mpr ⟨failure, hfailure⟩)
    rw [hsame]
    exact h.unanswered a ha failure hfailure

theorem Rested.of_answered (h : r.Rested slept p)
    (hlast : ∀ a ∈ p.requests.getLast?, a.failure = none) (slept' : PageRequest → ℚ) :
    r.Rested slept' p :=
  h.congr fun a ha hfailure ↦ absurd (hlast a ha) hfailure

theorem Rested.sleep {seconds : ℚ} {slept' : PageRequest → ℚ} (h : r.Rested slept p)
    (hslept : ∀ a ∈ p.requests.getLast?, a.failure ≠ none → slept' a = slept a + seconds) :
    r.Rested slept' (r.sleep seconds p) where
  gaps := h.gaps
  idle := h.pass.idle
  answered := h.answered
  unanswered a ha failure hfailure := by
    obtain ⟨htook, hlast, hnow⟩ := h.unanswered a ha failure hfailure
    have hsame := hslept a ha (Option.ne_none_iff_exists'.mpr ⟨failure, hfailure⟩)
    refine ⟨htook, hlast, ?_⟩
    simp only [PacedRetriever.sleep, PacedRetriever.pass]
    linarith

@[simp] theorem awaitInterval_requests (p : PacedSession) :
    (r.awaitInterval p).requests = p.requests := by
  unfold awaitInterval
  simp only
  split <;> rfl

@[simp] theorem awaitInterval_lastRequestAt (p : PacedSession) :
    (r.awaitInterval p).lastRequestAt = p.lastRequestAt := by
  unfold awaitInterval
  simp only
  split <;> rfl

theorem awaitInterval_due (p : PacedSession) :
    p.lastRequestAt.getD 0 + r.limits.minIntervalSeconds ≤ (r.awaitInterval p).now := by
  have h₁ := r.delay_nonneg p.ticks
  have h₂ := r.delay_nonneg (p.ticks + 1)
  unfold awaitInterval
  simp only
  split
  · simp only [PacedRetriever.sleep, PacedRetriever.pass]
    linarith
  · simp only [PacedRetriever.pass]
    linarith

theorem awaitInterval_of_due (h : p.lastRequestAt.getD 0 + r.limits.minIntervalSeconds ≤ p.now) :
    r.awaitInterval p = r.pass p := by
  unfold awaitInterval
  exact if_neg (by linarith)

theorem Rested.next_spaced (h : r.Rested (PageRequest.pause r.limits) p) {a b : PageRequest}
    (ha : a ∈ p.requests.getLast?) (htime : b.time = (r.awaitInterval p).now)
    (hidle : b.idle = (r.awaitInterval p).idle) :
    a.time + r.limits.minIntervalSeconds ≤ b.time ↔ a.Covers r.limits b := by
  unfold PageRequest.Covers
  cases hfailure : a.failure with
  | none =>
    obtain ⟨last, hlast, hle⟩ := h.answered a ha hfailure
    have hdue := r.awaitInterval_due p
    rw [hlast, Option.getD_some] at hdue
    refine iff_of_true (by linarith) ?_
    intro failure hnone
    cases hnone
  | some failure =>
    obtain ⟨htook, hlast, hnow⟩ := h.unanswered a ha failure hfailure
    have hpause := a.pause_nonneg r.limits
    have hidle' := h.idle
    rw [awaitInterval_of_due (by linarith)] at htime hidle
    simp only [PacedRetriever.pass] at htime hidle
    constructor
    · intro hle other hother
      cases hother
      linarith
    · intro hcovers
      have htotal := hcovers failure rfl
      linarith

theorem Rested.send (h : r.Rested (PageRequest.pause r.limits) p) (attempts : ℕ) (url : Url) :
    r.Rested (fun _ ↦ 0) (r.send attempts url (r.awaitInterval p)).1 ∧
      ∀ a ∈ (r.send attempts url (r.awaitInterval p)).1.requests.getLast?, ∀ failure ∈ a.failure,
        (r.send attempts url (r.awaitInterval p)).2 = .raised failure.1 ∧
        a.attempts = attempts := by
  have hdelay := r.delay_nonneg (r.awaitInterval p).ticks
  have hchain :
      ∀ b : PageRequest, b.time = (r.awaitInterval p).now → b.idle = (r.awaitInterval p).idle →
      (p.requests ++ [b]).IsChain fun a b ↦ a.time + r.limits.minIntervalSeconds ≤ b.time ↔
        a.Covers r.limits b := by
    intro b htime hidle
    apply h.gaps.append (List.isChain_singleton b)
    intro a ha other hother
    cases hother
    exact h.next_spaced ha htime hidle
  unfold PacedRetriever.send
  obtain ⟨session, exchange⟩ := r.toHttpRetriever.send .page url (r.awaitInterval p).session
  cases exchange with
  | response response =>
    simp only [awaitInterval_requests]
    refine ⟨⟨hchain _ rfl rfl, le_rfl, ?_, ?_⟩, ?_⟩
    · simp only [List.getLast?_concat]
      intro a ha hnone
      cases ha
      refine ⟨_, rfl, ?_⟩
      simp only [PacedRetriever.pass]
      linarith
    · simp only [List.getLast?_concat]
      intro a ha failure hfailure
      cases ha
      cases hfailure
    · simp only [List.getLast?_concat]
      intro a ha failure hfailure
      cases ha
      cases hfailure
  | raised error =>
    simp only [awaitInterval_requests]
    refine ⟨⟨hchain _ rfl rfl, le_rfl, ?_, ?_⟩, ?_⟩
    · simp only [List.getLast?_concat]
      intro a ha hnone
      cases ha
      cases hnone
    · simp only [List.getLast?_concat]
      intro a ha failure hfailure
      cases ha
      cases hfailure
      have hdue := r.awaitInterval_due p
      refine ⟨?_, ?_, ?_⟩
      · simp only [PacedRetriever.pass]
        linarith
      · simpa only [PacedRetriever.pass, awaitInterval_lastRequestAt] using hdue
      · simp only [PacedRetriever.pass]
        linarith
    · simp only [List.getLast?_concat]
      intro a ha failure hfailure
      cases ha
      cases hfailure
      exact ⟨rfl, rfl⟩

theorem Rested.validateHop {slept : PageRequest → ℚ} (h : r.Rested slept p) (url : Url) :
    r.Rested slept (r.validateHop url p).1 ∧ (r.validateHop url p).1.requests = p.requests := by
  unfold PacedRetriever.validateHop
  cases r.validateUrl url with
  | error message => exact ⟨h, rfl⟩
  | ok canonical =>
    have hpass := h.pass
    obtain ⟨session, decision, hasked⟩ :
        ∃ session decision, r.robots p.ticks canonical p.session = (session, decision) :=
      ⟨_, _, rfl⟩
    have hrested : r.Rested slept { r.pass p with session } :=
      ⟨hpass.gaps, hpass.idle, hpass.answered, hpass.unanswered⟩
    simp only [hasked]
    cases decision with
    | error error => exact ⟨hrested, rfl⟩
    | ok permitted => cases permitted <;> exact ⟨hrested, rfl⟩

theorem Rested.requestHops (attempts : ℕ) (counts : List ℕ) (current : Url) (p : PacedSession)
    (h : r.Rested (PageRequest.pause r.limits) p) :
    match r.requestHops attempts counts current p with
    | (p, .raised error) => r.Rested (fun _ ↦ 0) p ∧ Raises attempts error p
    | (p, _) => r.Rested (PageRequest.pause r.limits) p := by
  induction counts generalizing current p with
  | nil => exact h
  | cons redirectCount counts ih =>
    obtain ⟨hsent, hraised⟩ := h.send attempts current
    unfold PacedRetriever.requestHops
    generalize r.send attempts current (r.awaitInterval p) = sent at hsent hraised ⊢
    obtain ⟨p, exchange⟩ := sent
    simp only at hsent hraised ⊢
    cases exchange with
    | raised error =>
      refine ⟨hsent.pass, fun a ha failure hfailure ↦ ?_⟩
      obtain ⟨herror, hattempts⟩ := hraised a ha failure hfailure
      cases herror
      exact ⟨rfl, hattempts⟩
    | response response =>
      have hanswered : ∀ a ∈ p.requests.getLast?, a.failure = none := by
        intro a ha
        cases hfailure : a.failure with
        | none => rfl
        | some failure => cases (hraised a ha failure hfailure).1
      have hrested := hsent.pass.of_answered hanswered (PageRequest.pause r.limits)
      have hraises :
          ∀ error, ∀ q : PacedSession, q.requests = p.requests → Raises attempts error q := by
        intro error q hq a ha failure hfailure
        rw [hq] at ha
        rw [hanswered a ha] at hfailure
        cases hfailure
      cases r.readPage redirectCount current (.response response) with
      | error error => exact ⟨hsent.pass, hraises error _ rfl⟩
      | ok step =>
        cases step with
        | content content contentType => exact hrested
        | redirect target =>
          obtain ⟨hhop, hrequests⟩ := hrested.validateHop target
          simp only
          generalize r.validateHop target (r.pass p) = validated at hhop hrequests ⊢
          obtain ⟨q, validated⟩ := validated
          cases validated with
          | ok next => exact ih next q hhop
          | error error =>
            have hlast : ∀ a ∈ q.requests.getLast?, a.failure = none := by
              rw [show q.requests = p.requests from hrequests]
              exact hanswered
            exact ⟨hhop.of_answered hlast _, hraises error q hrequests⟩

theorem Rested.requestAttempts (canonical : Url) (attempts : ℕ) (lastError : Option Raised)
    (p : PacedSession) (h : r.Rested (PageRequest.pause r.limits) p) :
    r.Rested (PageRequest.pause r.limits) (r.requestAttempts canonical attempts lastError p).1 := by
  induction attempts generalizing lastError p with
  | zero => exact h
  | succ attempts ih =>
    have hhops := h.requestHops attempts (List.range (r.limits.maxRedirects + 1)) canonical
    unfold PacedRetriever.requestAttempts
    generalize r.requestHops attempts (List.range (r.limits.maxRedirects + 1)) canonical p =
      hops at hhops ⊢
    obtain ⟨p, ended⟩ := hops
    cases ended with
    | returned value => exact hhops
    | exhausted => exact ih lastError p hhops
    | raised error =>
      obtain ⟨hrested, hraises⟩ := hhops
      have hpause a := hraises.pause r.limits (a := a)
      by_cases hcaught : error.caught
      · simp only [hcaught, if_true]
        apply ih
        by_cases hattempts : attempts = 0
        · rw [if_pos hattempts]
          refine hrested.congr fun a ha hfailed ↦ ?_
          rw [hpause a ha hfailed, if_neg (by simp [hattempts])]
        · rw [if_neg hattempts]
          refine hrested.sleep fun a ha hfailed ↦ ?_
          rw [hpause a ha hfailed, if_pos ⟨hcaught, hattempts⟩, zero_add]
      · simp only [hcaught]
        refine hrested.congr fun a ha hfailed ↦ ?_
        rw [hpause a ha hfailed, if_neg (by simp [hcaught])]

theorem Rested.retrieve (h : r.Rested (PageRequest.pause r.limits) p) (url : Url) :
    r.Rested (PageRequest.pause r.limits) (r.retrieve url p).1 := by
  unfold PacedRetriever.retrieve
  cases r.validateUrl url with
  | error message => exact h
  | ok canonical =>
    have hhop := (h.validateHop canonical).1
    simp only
    generalize r.validateHop canonical p = hop at hhop ⊢
    obtain ⟨p, validated⟩ := hop
    cases validated with
    | error error => exact hhop
    | ok next =>
      simp only
      cases r.cached p.ticks canonical p.session with
      | some cached => exact hhop
      | none =>
        have hrequest := hhop.requestAttempts canonical (r.limits.maxRetries + 1) none
        simp only
        unfold request
        generalize r.requestAttempts canonical (r.limits.maxRetries + 1) none p =
          requested at hrequest ⊢
        obtain ⟨p, page⟩ := requested
        cases page with
        | error error => exact hrequest
        | ok page => exact ⟨hrequest.gaps, hrequest.idle, hrequest.answered, hrequest.unanswered⟩

theorem Rested.run (h : r.Rested (PageRequest.pause r.limits) p) (urls : List Url) :
    r.Rested (PageRequest.pause r.limits) (r.run p urls) := by
  induction urls generalizing p with
  | nil => exact h
  | cons url urls ih => exact ih (h.retrieve url).pass

theorem rested_start (now : ℚ) (session : Session) : r.Rested slept { session, now } where
  gaps := .nil
  idle := le_rfl
  answered _ ha := by cases ha
  unanswered _ ha := by cases ha

/-- Whatever the servers answer and however long each step takes, the page requests of a
run are the interval apart exactly if each one that raised before its response covers it:
such a request leaves `_last_request_at` as it was. -/
theorem requests_spaced_iff (r : PacedRetriever) (now : ℚ) (session : Session) (urls : List Url) :
    Spaced r.limits (r.run { session, now } urls).requests ↔
      (r.run { session, now } urls).requests.IsChain (PageRequest.Covers r.limits) := by
  have hgaps := List.isChain_iff_getElem.mp ((rested_start now session).run (r := r) urls).gaps
  unfold Spaced
  rw [List.isChain_iff_getElem, List.isChain_iff_getElem]
  exact forall₂_congr hgaps

def refusingRetriever : PacedRetriever where
  toHttpRetriever :=
    { docsRetriever robotsResponse with
      web := { docsWeb robotsResponse with server := fun _ _ _ ↦ .raised (.httpError "ConnectError") } }
  delay _ := 1 / 1000
  delay_nonneg _ := by norm_num
  robots _ _ s := (s, .ok true)
  cached _ url s := s.cache.lookup url

/-- The three attempts start about a tenth and two tenths of a second apart. -/
theorem refused_requests_unspaced :
    (refusingRetriever.run { now := 100 } ["https://docs.example.com/guide".toList]).requests.map
      (·.time) =
        [50001 / 500, 50053 / 500, 10031 / 100] ∧
      ¬ Spaced refusingRetriever.limits
        (refusingRetriever.run { now := 100 } ["https://docs.example.com/guide".toList]).requests := by
  unfold Spaced
  decide +kernel

end PacedRetriever

end AgenticSecurity.Collection
