import AgenticSecurity.Collection.Requests

namespace AgenticSecurity.Collection

open Library Models Python Sources HttpRetriever

variable {r : HttpRetriever}

abbrev AcceptsUrl (r : HttpRetriever) (url : Url) : Prop :=
  Accepts r.registry r.web.toUrlData r.sourceId url

structure Sound (r : HttpRetriever) (s : Session) : Prop where
  allowlisted : ∀ e ∈ s.log, Allowlisted r e.url
  robots : PlainRedirects r s.log → ∀ e ∈ s.log, e.kind = .robots → AcceptsUrl r e.url
  pages : EventLog.Admissible (fun before e ↦ e.kind = .page → Permitted r before e.url) s.log
  parsers : ∀ origin lines, (origin, some lines) ∈ s.parsers → Obtained r s.log origin lines

def pageRequests (log : List Event) : ℕ := log.countP fun e ↦ e.kind = .page

/-- The log of `s'` goes on from that of `s` with `pages` page requests at most. -/
structure Continues (s s' : Session) (pages : ℕ) : Prop where
  log : s.log <+: s'.log
  bounded : pageRequests s'.log ≤ pageRequests s.log + pages

theorem Continues.refl (s : Session) : Continues s s 0 := ⟨List.prefix_rfl, le_rfl⟩

theorem Continues.trans {s t u : Session} {m n : ℕ} (h : Continues s t m) (h' : Continues t u n) :
    Continues s u (m + n) := by
  refine ⟨h.log.trans h'.log, ?_⟩
  have := h.bounded
  have := h'.bounded
  omega

theorem Continues.le {s t : Session} {m n : ℕ} (h : Continues s t m) (hmn : m ≤ n) :
    Continues s t n :=
  ⟨h.log, h.bounded.trans (by omega)⟩

theorem send_log (kind : RequestKind) (url : Url) (s : Session) :
    (r.send kind url s).1.log = s.log ++ [{ kind, url, exchange := (r.send kind url s).2 }] := rfl

theorem send_continues (kind : RequestKind) (url : Url) (s : Session) :
    Continues s (r.send kind url s).1 (if kind = .page then 1 else 0) := by
  refine ⟨⟨_, (send_log kind url s).symm⟩, ?_⟩
  rw [send_log, pageRequests, List.countP_append, List.countP_singleton]
  simp only [decide_eq_true_eq]
  exact le_rfl

theorem sound_send {kind : RequestKind} {url : Url} {s : Session} (h : Sound r s)
    (hallowlisted : Allowlisted r url)
    (hrobots : kind = .robots → PlainRedirects r s.log → AcceptsUrl r url)
    (hpage : kind = .page → Permitted r s.log url) : Sound r (r.send kind url s).1 := by
  have hlog := (send_continues (r := r) kind url s).log
  refine ⟨fun e he ↦ ?_, fun hplain e he hkind ↦ ?_, ?_, fun origin lines hmem ↦ ?_⟩
  · rcases List.mem_append.mp he with hold | hnew
    · exact h.allowlisted e hold
    · exact List.mem_singleton.mp hnew ▸ hallowlisted
  · rcases List.mem_append.mp he with hold | hnew
    · exact h.robots (hplain.mono hlog) e hold hkind
    · obtain rfl := List.mem_singleton.mp hnew
      exact hrobots hkind (hplain.mono hlog)
  · exact h.pages.snoc hpage
  · exact (h.parsers origin lines hmem).mono hlog

/-- The fetch from `first` has come to `current`. -/
structure Fetching (r : HttpRetriever) (before : List Event) (first current : Url) (s : Session) :
    Prop where
  sound : Sound r s
  trail : ∃ trail, s.log = before ++ trail ∧ RobotsTrail r first trail current
  allowlisted : Allowlisted r current
  accepted : PlainRedirects r s.log → AcceptsUrl r current

def FetchEnd (r : HttpRetriever) (before : List Event) (first current : Url) (s : Session) :
    HopsEnd Parser → Prop
  | .returned parser => Sound r s ∧
      ∀ lines, parser = some lines → ObtainedSince r before first s.log lines
  | .raised _ | .exhausted => Fetching r before first current s

theorem Fetching.send {before : List Event} {first current : Url} {s : Session}
    (h : Fetching r before first current s) : Sound r (r.send .robots current s).1 :=
  sound_send h.sound h.allowlisted (fun _ ↦ h.accepted) (fun hpage ↦ by cases hpage)

theorem Fetching.hop {before : List Event} {first current next : Url} {s : Session}
    {redirectCount : ℕ} (hdata : LawfulUrl r.web.toUrlData) (h : Fetching r before first current s)
    (hstep : r.readRobots redirectCount current (r.send .robots current s).2 = .hop next) :
    Fetching r before first next (r.send .robots current s).1 := by
  obtain ⟨response, location, hexchange, hredirect, hlocation, hfollow⟩ := readRobots_hop hstep
  obtain ⟨target, htarget, hnext⟩ := Runs.except_bind_ok.mp hfollow
  refine ⟨h.send, ?_, allowlisted_of_validateUrl hdata.lower hnext, fun hplain ↦ ?_⟩
  · obtain ⟨trail, hlog, htrail⟩ := h.trail
    refine ⟨trail ++ [{ kind := .robots, url := current, exchange := .response response }], ?_,
      htrail.redirected hredirect hlocation hfollow⟩
    rw [send_log, hlog, hexchange, List.append_assoc]
  · have hevent :=
      hplain { kind := .robots, url := current, exchange := (r.send .robots current s).2 }
      (List.mem_append_right _ (List.mem_singleton_self _))
    obtain ⟨source, shown, -, -, -, hcanonical, -⟩ := validateUrl_ok hnext
    obtain ⟨form, hform, -⟩ := Runs.except_map_ok.mp hcanonical
    obtain ⟨parts, hparts, -⟩ := canonicalParts_ok hform
    refine accepts_canonical hdata hnext hparts fun hbracket ↦ ?_
    have hto : redirectTarget r
        { kind := .robots, url := current, exchange := (r.send .robots current s).2 } =
          some target := by
      unfold redirectTarget
      simp only [hexchange, hredirect, if_true, hlocation, Option.bind_some, htarget]
      rfl
    simp [bracketed, hto, hnext, Except.isOk, Except.toBool, hparts, hbracket] at hevent

theorem Fetching.failed {before : List Event} {first current : Url} {s : Session}
    {redirectCount : ℕ} {error : Raised} (h : Fetching r before first current s)
    (hstep : r.readRobots redirectCount current (r.send .robots current s).2 = .raised error) :
    Fetching r before first current (r.send .robots current s).1 := by
  obtain ⟨trail, hlog, htrail⟩ := h.trail
  refine ⟨h.send, ⟨trail ++ [_], ?_, htrail.failed hstep⟩, h.allowlisted, fun hplain ↦
    h.accepted (hplain.mono (send_continues .robots current s).log)⟩
  rw [send_log, hlog, List.append_assoc]

theorem Fetching.returned {before : List Event} {first current : Url} {s : Session}
    {redirectCount : ℕ} {lines : List (List Char)} (h : Fetching r before first current s)
    (hstep : r.readRobots redirectCount current (r.send .robots current s).2 =
      .returned (some lines)) :
    ObtainedSince r before first (r.send .robots current s).1.log lines := by
  obtain ⟨response, hexchange, hdocument⟩ := readRobots_returned hstep
  obtain ⟨trail, hlog, htrail⟩ := h.trail
  refine ⟨trail, [], current, response, ?_, htrail, hdocument⟩
  rw [send_log, hlog, hexchange]

theorem fetchHops_spec (hdata : LawfulUrl r.web.toUrlData) {before : List Event} {first : Url}
    (counts : List ℕ) (current : Url) (s : Session) (h : Fetching r before first current s) :
    FetchEnd r before first (r.fetchHops counts current s).2.1 (r.fetchHops counts current s).1
        (r.fetchHops counts current s).2.2 ∧
      Continues s (r.fetchHops counts current s).1 0 ∧
      (r.fetchHops counts current s).1.parsers = s.parsers := by
  induction counts generalizing current s with
  | nil => exact ⟨h, Continues.refl s, rfl⟩
  | cons redirectCount counts ih =>
    have hsend : Continues s (r.send .robots current s).1 0 := send_continues .robots current s
    unfold fetchHops
    dsimp only
    cases hstep : r.readRobots redirectCount current (r.send .robots current s).2 with
    | hop next =>
      obtain ⟨hend, hcontinues, hparsers⟩ := ih next _ (h.hop hdata hstep)
      exact ⟨hend, hsend.trans hcontinues, hparsers⟩
    | returned parser =>
      exact ⟨⟨h.send, fun lines hlines ↦ h.returned (hlines ▸ hstep)⟩, hsend, rfl⟩
    | raised error => exact ⟨h.failed hstep, hsend, rfl⟩

theorem fetchAttempts_spec (hdata : LawfulUrl r.web.toUrlData) {before : List Event} {first : Url}
    (attempts : ℕ) (current : Url) (s : Session) (h : Fetching r before first current s) :
    Sound r (r.fetchAttempts attempts current s).1 ∧
      (∀ lines, (r.fetchAttempts attempts current s).2 = .ok (some lines) →
        ObtainedSince r before first (r.fetchAttempts attempts current s).1.log lines) ∧
      Continues s (r.fetchAttempts attempts current s).1 0 ∧
      (r.fetchAttempts attempts current s).1.parsers = s.parsers := by
  induction attempts generalizing current s with
  | zero => exact ⟨h.sound, (fun lines hlines ↦ by cases hlines), Continues.refl s, rfl⟩
  | succ attempts ih =>
    obtain ⟨hend, hcontinues, hparsers⟩ :=
      fetchHops_spec hdata (List.range (r.robotsLimits.maxRedirects + 1)) current s h
    unfold fetchAttempts
    rcases hhops : r.fetchHops (List.range (r.robotsLimits.maxRedirects + 1)) current s with
      ⟨t, url, result⟩
    rw [hhops] at hend hcontinues hparsers
    have hagain (hfetching : Fetching r before first url t) :=
      ih url t hfetching
    cases result with
    | returned parser =>
      exact ⟨hend.1, fun lines hlines ↦ hend.2 lines (Except.ok.inj hlines), hcontinues, hparsers⟩
    | raised error =>
      dsimp only
      split_ifs
      · obtain ⟨hsound, hobtained, hmore, hsame⟩ := hagain hend
        exact ⟨hsound, hobtained, hcontinues.trans hmore, hsame.trans hparsers⟩
      · exact ⟨hend.sound, (fun lines hlines ↦ by cases hlines), hcontinues, hparsers⟩
    | exhausted =>
      obtain ⟨hsound, hobtained, hmore, hsame⟩ := hagain hend
      exact ⟨hsound, hobtained, hcontinues.trans hmore, hsame.trans hparsers⟩

end AgenticSecurity.Collection
