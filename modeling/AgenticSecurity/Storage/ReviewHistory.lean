import AgenticSecurity.Storage.Repositories
import AgenticSecurity.Storage.ReadModels
import Mathlib.Data.Finset.Card

namespace AgenticSecurity.Storage

open Library Models Runs

abbrev Proposal :=
  ChangeClassification × String × Finset DecisionImpact ×
    Option EvidenceStatusChangeSubtype × String

def machineProposal (review : ChangeReviewItem) : Proposal :=
  (review.machineClassification, review.machineRationale, review.machineDecisionImpacts,
    review.evidenceStatusSubtype, review.methodologyVersion)

/-- What the queue keeps besides the order of its rows: the columns are those of
the payload, only a first row is pending, and the proposal is the predecessor's. -/
structure ReviewRow.WellFormed (queue : List ReviewRow) (row : ReviewRow) : Prop where
  columns : row = reviewRow row.payload
  pending : row.status = .pending ↔ row.priorReviewId = none
  proposal : ∀ older ∈ queue, row.priorReviewId = some older.id →
    machineProposal older.payload = machineProposal row.payload

structure QueueInv (queue : List ReviewRow) : Prop where
  chains : History.Chains ReviewRow.id ReviewRow.priorReviewId ReviewRow.candidateId queue
  rows : ∀ row ∈ queue, row.WellFormed queue

theorem decisionCheck_pending {row : ReviewRow} (h : row.decisionCheck) :
    row.status = .pending ↔ row.priorReviewId = none := by
  unfold ReviewRow.decisionCheck at h
  cases hstatus : row.status <;> cases hprior : row.priorReviewId <;> simp [hstatus, hprior] at h ⊢

theorem preservedBy_spec {row prior : ReviewRow} (h : row.preservedBy prior) :
    row.priorReviewId = some prior.id ∧ prior.candidateId = row.candidateId ∧
    prior.machineClassification = row.machineClassification ∧
    prior.machineRationale = row.machineRationale ∧
    prior.machineDecisionImpactsJson = row.machineDecisionImpactsJson ∧
    prior.evidenceStatusSubtype = row.evidenceStatusSubtype ∧
    prior.methodologyVersion = row.methodologyVersion := by
  simp only [ReviewRow.preservedBy, Bool.and_eq_true, decide_eq_true_eq, and_assoc] at h
  obtain ⟨hid, hcandidate, hclass, hrationale, himpacts, hsubtype, hmethodology⟩ := h
  exact ⟨hid.symm, hcandidate, hclass, hrationale, himpacts, coalesce_injective hsubtype,
    hmethodology⟩

theorem proposal_of_preservedBy {row prior : ReviewRow} (hrow : row = reviewRow row.payload)
    (hprior : prior = reviewRow prior.payload) (h : row.preservedBy prior) :
    machineProposal prior.payload = machineProposal row.payload := by
  obtain ⟨-, -, hclass, hrationale, himpacts, hsubtype, hmethodology⟩ := preservedBy_spec h
  rw [hrow, hprior] at hclass hrationale himpacts hsubtype hmethodology
  have himpacts' := sortedImpacts_injective himpacts
  simp only [reviewRow] at hclass hrationale hsubtype hmethodology
  simp only [machineProposal, hclass, hrationale, himpacts', hsubtype, hmethodology]

theorem insertReview_admits {ledger ledger' : Ledger} {row : ReviewRow}
    (h : insertReview ledger row = .ok ledger') :
    History.Admits ReviewRow.id ReviewRow.priorReviewId ReviewRow.candidateId
      ledger.changeReviewQueue row := by
  obtain ⟨htrigger, -, -, hid, hroot, hsuccessor, -⟩ := insertReview_ok h
  refine ⟨hid, fun hnone r hr hg hp ↦ hroot hnone r hr hp hg, fun k hk ↦ ?_, fun k hk r hr ↦ ?_⟩
  · obtain ⟨prior, hprior, hpreserved⟩ := htrigger (by simp [hk])
    obtain ⟨hp, hcandidate, -⟩ := preservedBy_spec hpreserved
    exact ⟨prior, hprior, Option.some.inj (hp.symm.trans hk), hcandidate⟩
  · exact hk ▸ hsuccessor (by simp [hk]) r hr

theorem insertReview_inv {ledger ledger' : Ledger} {review : ChangeReviewItem}
    (hinv : QueueInv ledger.changeReviewQueue) (h : ledger.addReview review = .ok ledger') :
    QueueInv ledger'.changeReviewQueue := by
  have hadmits := insertReview_admits h
  obtain ⟨htrigger, -, hdecision, hid, -, -, rfl⟩ := insertReview_ok h
  have hchains := hinv.chains.append hadmits
  refine ⟨hchains, fun row hrow ↦ ?_⟩
  rcases List.mem_append.mp hrow with hold | hnew
  · have hwell := hinv.rows row hold
    refine ⟨hwell.columns, hwell.pending, fun older holder hp ↦ ?_⟩
    -- a row of the queue has its predecessor in the queue, so it is not the new row
    obtain ⟨p, hpin, hpk, -⟩ := hinv.chains.linked row hold older.id hp
    obtain rfl : older = p :=
      List.inj_on_of_nodup_map hchains.keys holder (List.mem_append_left _ hpin) hpk.symm
    exact hwell.proposal older hpin hp
  · obtain rfl := List.mem_singleton.mp hnew
    refine ⟨rfl, decisionCheck_pending hdecision, fun older holder hp ↦ ?_⟩
    obtain ⟨prior, hprior, hpreserved⟩ := htrigger (by simp [hp])
    have hkey := Option.some.inj ((preservedBy_spec hpreserved).1.symm.trans hp)
    obtain rfl : prior = older :=
      List.inj_on_of_nodup_map hchains.keys (List.mem_append_left _ hprior) holder hkey
    exact proposal_of_preservedBy rfl (hinv.rows prior hprior).columns hpreserved

theorem pass2_queue {ledger ledger' : Ledger} {call : Pass2Call}
    (hinv : QueueInv ledger.changeReviewQueue) (h : ledger.pass2 call = .ok ledger') :
    QueueInv ledger'.changeReviewQueue := by
  cases call with
  | addReview review => exact insertReview_inv hinv h
  | addDiff diff =>
    obtain rfl := addDiff_ok h
    exact hinv
  | addConfirmedChange change reviewId =>
    obtain ⟨_, _, _, _, _, _, _, _, rfl⟩ := addConfirmedChange_ok h
    exact hinv
  | addConflict conflict =>
    obtain ⟨_, rfl⟩ := addConflict_ok h
    exact hinv
  | addResolution resolution =>
    obtain ⟨_, _, rfl⟩ := addResolution_ok.mp h
    exact hinv

theorem queueInv_nil : QueueInv [] := ⟨.nil, fun _ hrow ↦ absurd hrow List.not_mem_nil⟩

theorem reachable_queue (start : Ledger) (calls : List Pass2Call) :
    QueueInv (attempts Ledger.pass2 { start with changeReviewQueue :=
        [] } calls).changeReviewQueue :=
  attempts_invariant (fun ledger ↦ QueueInv ledger.changeReviewQueue) queueInv_nil
    fun _ _ _ _ hinv hcall ↦ pass2_queue hinv hcall

def Ledger.reviewsOf (ledger : Ledger) (candidate : DiffId) : List ReviewRow :=
  History.history ReviewRow.candidateId candidate ledger.changeReviewQueue

/-- The rows of one candidate, oldest first, form a single line from the
machine's proposal, and every row of it repeats that proposal. -/
structure SingleChain (rows : List ReviewRow) : Prop where
  linear : History.ChainFrom ReviewRow.id ReviewRow.priorReviewId none rows
  ids : (rows.map ReviewRow.id).Nodup
  root : ∃! r, r ∈ rows ∧ r.priorReviewId = none
  pending : ∀ r ∈ rows, r.status = .pending ↔ r.priorReviewId = none
  predecessor :
    ∀ r ∈ rows, r.status ≠ .pending → ∃! older, older ∈ rows ∧ r.priorReviewId = some older.id
  successor : ∀ r ∈ rows, ∀ newer ∈ rows, ∀ newer' ∈ rows,
    newer.priorReviewId = some r.id → newer'.priorReviewId = some r.id → newer = newer'
  proposal : ∀ r ∈ rows, ∀ r' ∈ rows, machineProposal r.payload = machineProposal r'.payload
  columns : ∀ r ∈ rows, r = reviewRow r.payload

theorem chain_proposal {queue rows : List ReviewRow} {p : Option ReviewId} {proposal : Proposal}
    (hrows : ∀ r ∈ rows, r ∈ queue ∧ r.WellFormed queue)
    (hchain : History.ChainFrom ReviewRow.id ReviewRow.priorReviewId p rows)
    (hhead : ∀ r ∈ rows.head?, machineProposal r.payload = proposal) :
    ∀ r ∈ rows, machineProposal r.payload = proposal := by
  induction rows generalizing p with
  | nil => exact fun r hr ↦ absurd hr List.not_mem_nil
  | cons first rest ih =>
    have hfirst : machineProposal first.payload = proposal := hhead first rfl
    refine List.forall_mem_cons.mpr ⟨hfirst, ?_⟩
    refine ih (fun r hr ↦ hrows r (List.mem_cons_of_mem first hr)) hchain.2 fun second hsecond ↦ ?_
    cases rest with
    | nil => exact absurd hsecond (by simp)
    | cons r rs =>
      obtain rfl := Option.some.inj hsecond
      have hlink : r.priorReviewId = some first.id := hchain.2.1
      have hwell := (hrows r (List.mem_cons_of_mem first List.mem_cons_self)).2
      exact (hwell.proposal first (hrows first List.mem_cons_self).1 hlink).symm.trans hfirst

theorem singleChain_reviewsOf {ledger : Ledger} (hinv : QueueInv ledger.changeReviewQueue)
    {candidate : DiffId} (hmem : candidate ∈ ledger.changeReviewQueue.map ReviewRow.candidateId) :
    SingleChain (ledger.reviewsOf candidate) := by
  have hrows : ∀ r ∈ ledger.reviewsOf candidate, r ∈ ledger.changeReviewQueue :=
    fun r hr ↦ (History.mem_history.mp hr).1
  have hlinear : History.ChainFrom ReviewRow.id ReviewRow.priorReviewId none
      (ledger.reviewsOf candidate) := hinv.chains.linear candidate
  have hids : ((ledger.reviewsOf candidate).map ReviewRow.id).Nodup :=
    hinv.chains.keys.sublist (List.filter_sublist.map ReviewRow.id)
  have hpending : ∀ r ∈ ledger.reviewsOf candidate, r.status = .pending ↔ r.priorReviewId = none :=
    fun r hr ↦ (hinv.rows r (hrows r hr)).pending
  refine ⟨hlinear, hids, ?_, hpending, fun r hr hdone ↦ ?_, fun r hr a ha b hb hpa hpb ↦ ?_, ?_,
    fun r hr ↦ (hinv.rows r (hrows r hr)).columns⟩
  · obtain ⟨row, hrow, hcandidate⟩ := List.mem_map.mp hmem
    have hin : row ∈ ledger.reviewsOf candidate := History.mem_history.mpr ⟨hrow, hcandidate⟩
    exact hlinear.unique_root (List.ne_nil_of_mem hin)
  · rcases hlinear.prior_mem hr with hnone | ⟨older, holder, hp⟩
    · exact absurd ((hpending r hr).mpr hnone) hdone
    · refine ⟨older, ⟨holder, hp⟩, fun other hother ↦ ?_⟩
      have hkey : other.id = older.id := Option.some.inj (hother.2.symm.trans hp)
      exact List.inj_on_of_nodup_map hids hother.1 holder hkey
  · exact hinv.chains.single a (hrows a ha) b (hrows b hb) r.id hpa hpb
  · cases hh : ledger.reviewsOf candidate with
    | nil => exact fun r hr ↦ absurd hr List.not_mem_nil
    | cons first rest =>
      have hwell : ∀ r ∈ first :: rest,
          r ∈ ledger.changeReviewQueue ∧ r.WellFormed ledger.changeReviewQueue :=
        fun r hr ↦ ⟨hrows r (hh ▸ hr), hinv.rows r (hrows r (hh ▸ hr))⟩
      have hall : ∀ r ∈ first :: rest, machineProposal r.payload = machineProposal first.payload :=
        chain_proposal hwell (hh ▸ hlinear) fun r hr ↦ by rw [Option.some.inj hr]
      exact fun r hr r' hr' ↦ (hall r hr).trans (hall r' hr').symm

/-- The candidates that have a proposal and no human decision. -/
def Ledger.undecided (ledger : Ledger) : Finset DiffId :=
  (ledger.changeReviewQueue.map ReviewRow.candidateId).toFinset.filter fun candidate ↦
    (∃ r ∈ ledger.reviewsOf candidate, r.status = .pending) ∧
      ¬ ∃ r ∈ ledger.reviewsOf candidate, r.status ≠ .pending

theorem pendingRows_eq (ledger : Ledger) :
    ledger.pendingRows = ledger.currentReviews.filter fun r ↦ r.status = .pending := by
  rw [Ledger.pendingRows, Ledger.currentReviews, History.latest, List.filter_filter]

theorem latest_reviewsOf {ledger : Ledger} (hinv : QueueInv ledger.changeReviewQueue)
    (candidate : DiffId) :
    ledger.currentReviews.filter (fun r ↦ r.candidateId = candidate) =
      (ledger.reviewsOf candidate).getLast?.toList :=
  hinv.chains.history_latest candidate

theorem getLast_reviewsOf {ledger : Ledger} (hinv : QueueInv ledger.changeReviewQueue)
    {candidate : DiffId} {r : ReviewRow} :
    (ledger.reviewsOf candidate).getLast? = some r ↔
      r ∈ ledger.currentReviews ∧ r.candidateId = candidate := by
  rw [← Option.mem_toList, ← latest_reviewsOf hinv]
  simp

theorem mem_undecided {ledger : Ledger} (hinv : QueueInv ledger.changeReviewQueue)
    {candidate : DiffId} :
    candidate ∈ ledger.undecided ↔ candidate ∈ ledger.pendingRows.map ReviewRow.candidateId := by
  simp only [Ledger.undecided, Finset.mem_filter, List.mem_toFinset, pendingRows_eq, List.mem_map,
    List.mem_filter, decide_eq_true_eq]
  constructor
  · rintro ⟨-, ⟨r, hr, -⟩, hdecided⟩
    obtain ⟨last, hlast⟩ := Option.ne_none_iff_exists'.mp
      (mt List.getLast?_eq_none_iff.mp (List.ne_nil_of_mem hr))
    have hpending : last.status = .pending :=
      not_not.mp fun hdone ↦ hdecided ⟨last, List.mem_of_getLast? hlast, hdone⟩
    obtain ⟨hcurrent, hcandidate⟩ := (getLast_reviewsOf hinv).mp hlast
    exact ⟨last, ⟨hcurrent, hpending⟩, hcandidate⟩
  · rintro ⟨r, ⟨hcurrent, hpending⟩, hcandidate⟩
    have hqueue : r ∈ ledger.changeReviewQueue := List.mem_of_mem_filter hcurrent
    have hone : ledger.reviewsOf candidate = [r] :=
      (hinv.chains.linear candidate).eq_singleton
        ((getLast_reviewsOf hinv).mpr ⟨hcurrent, hcandidate⟩)
          ((hinv.rows r hqueue).pending.mp hpending)
    rw [hone]
    exact ⟨⟨r, hqueue, hcandidate⟩,
      ⟨r, List.mem_singleton_self r, hpending⟩, by simpa using hpending⟩

theorem nodup_currentCandidates {ledger : Ledger} (hinv : QueueInv ledger.changeReviewQueue) :
    (ledger.currentReviews.map ReviewRow.candidateId).Nodup := by
  have hrows : ledger.changeReviewQueue.Nodup := hinv.chains.keys.of_map _
  refine List.Nodup.map_on (fun a ha b hb he ↦ ?_) (hrows.filter _)
  have hlast := (getLast_reviewsOf hinv).mpr ⟨ha, rfl⟩
  have hlast' := (getLast_reviewsOf hinv).mpr ⟨hb, he.symm⟩
  exact Option.some.inj (hlast.symm.trans hlast')

theorem card_undecided {ledger : Ledger} (hinv : QueueInv ledger.changeReviewQueue) :
    ledger.undecided.card = ledger.pendingReviewCount := by
  have hset : ledger.undecided = (ledger.pendingRows.map ReviewRow.candidateId).toFinset := by
    ext candidate
    rw [mem_undecided hinv, List.mem_toFinset]
  have hnodup : (ledger.pendingRows.map ReviewRow.candidateId).Nodup := by
    rw [pendingRows_eq]
    exact (nodup_currentCandidates hinv).sublist (List.filter_sublist.map _)
  rw [hset, List.toFinset_card_of_nodup hnodup, List.length_map, Ledger.pendingReviewCount]

theorem length_pendingReviews {ledger : Ledger} {limit : ℕ}
    (hlimit : ledger.changeReviewQueue.length ≤ limit) :
    (ledger.pendingReviews limit).length = ledger.pendingReviewCount := by
  have hle : ledger.pendingRows.length ≤ limit := (List.length_filter_le _ _).trans hlimit
  rw [Ledger.pendingReviews, List.length_map, List.take_of_length_le hle, Ledger.pendingReviewCount]

theorem length_pending_latestReviews {ledger : Ledger} (hinv : QueueInv ledger.changeReviewQueue) :
    (ledger.latestReviews.filter fun r ↦ r.status = .pending).length =
      ledger.pendingReviewCount := by
  rw [Ledger.latestReviews, List.filter_map, List.length_map, Ledger.pendingReviewCount,
    pendingRows_eq]
  refine congrArg List.length (List.filter_congr fun r hr ↦ ?_)
  have hcolumns := (hinv.rows r (List.mem_of_mem_filter hr)).columns
  rw [Function.comp_apply]
  conv_rhs => rw [hcolumns]
  rfl

theorem latestReviews_of_candidate {ledger : Ledger} (hinv : QueueInv ledger.changeReviewQueue)
    {candidate : DiffId} (hmem : candidate ∈ ledger.changeReviewQueue.map ReviewRow.candidateId) :
    ∃ review, ledger.latestReviews.filter (fun r ↦ r.candidateId = candidate) = [review] := by
  have hfilter : ledger.latestReviews.filter (fun r ↦ r.candidateId = candidate) =
      (ledger.currentReviews.filter fun r ↦ r.candidateId = candidate).map ReviewRow.payload := by
    rw [Ledger.latestReviews, List.filter_map]
    refine congrArg (List.map _) (List.filter_congr fun r hr ↦ ?_)
    have hcolumns := (hinv.rows r (List.mem_of_mem_filter hr)).columns
    rw [Function.comp_apply]
    conv_rhs => rw [hcolumns]
    rfl
  obtain ⟨row, hrow, hcandidate⟩ := List.mem_map.mp hmem
  have hne : ledger.reviewsOf candidate ≠ [] :=
    List.ne_nil_of_mem (History.mem_history.mpr ⟨hrow, hcandidate⟩)
  obtain ⟨last, hlast⟩ := Option.ne_none_iff_exists'.mp (mt List.getLast?_eq_none_iff.mp hne)
  exact ⟨last.payload, by rw [hfilter, latest_reviewsOf hinv, hlast]; rfl⟩

/-- After any sequence of calls the review rows of every candidate are one chain,
its end is the one review that the read model returns, and the two counts and the
listing of the job store give the number of undecided candidates. -/
theorem review_history_chains (start : Ledger) (calls : List Pass2Call) (ledger : Ledger)
    (hrun : ledger = attempts Ledger.pass2 { start with changeReviewQueue := [] } calls) :
    (∀ candidate ∈ ledger.changeReviewQueue.map ReviewRow.candidateId,
      SingleChain (ledger.reviewsOf candidate) ∧
      ∃ review, ledger.latestReviews.filter (fun r ↦ r.candidateId = candidate) = [review]) ∧
    ledger.pendingReviewCount = ledger.undecided.card ∧
    (∀ limit, ledger.changeReviewQueue.length ≤ limit →
      (ledger.pendingReviews limit).length = ledger.undecided.card) ∧
    (ledger.latestReviews.filter fun r ↦ r.status = .pending).length = ledger.undecided.card := by
  have hinv : QueueInv ledger.changeReviewQueue := hrun ▸ reachable_queue start calls
  have hcard := card_undecided hinv
  refine ⟨fun candidate hmem ↦ ?_, hcard.symm, fun limit hlimit ↦ ?_, ?_⟩
  · exact ⟨singleChain_reviewsOf hinv hmem, latestReviews_of_candidate hinv hmem⟩
  · rw [length_pendingReviews hlimit, hcard]
  · rw [length_pending_latestReviews hinv, hcard]

def seedTime : Python.Datetime := .midnight Python.sampleDay

def seedFingerprint : Sha256 := zeroHash

def seedDiff (id : DiffId) : StructuredDiff where
  id := id
  sourceId := { text := "SRC-A" }
  oldSnapshotId := { text := "SNAP-A" }
  newSnapshotId := { text := "SNAP-B" }
  added := ["The agent may deploy."]
  materialCandidate := true
  fingerprint := seedFingerprint

def diffA : StructuredDiff := seedDiff { text := "DIFF-A" }

def diffB : StructuredDiff := seedDiff { text := "DIFF-B" }

def seededLedger : Ledger where
  methodologyVersions := [{ id := "ASI-1.0", publishedAt := seedTime, description := "",
                            normalizerVersion := "normalize-v1" }]
  structuredDiffs := [diffRow diffA, diffRow diffB]

def proposalA : ChangeReviewItem where
  id := { text := "REVIEW-A" }
  candidateId := diffA.id
  machineClassification := .capabilityAddition
  machineRationale := "Added lines."
  methodologyVersion := "ASI-1.0"

def decisionA : ChangeReviewItem where
  id := { text := "REVIEW-A-H1" }
  candidateId := diffA.id
  machineClassification := .capabilityAddition
  machineRationale := "Added lines."
  status := .confirmed
  reviewer := some "Reviewer"
  reviewedAt := some seedTime
  humanClassification := some .capabilityAddition
  confirmedDecisionImpacts := {.deployment}
  humanRationale := some "Confirmed."
  methodologyVersion := "ASI-1.0"
  priorReviewId := some { text := "REVIEW-A" }

def secondDecisionA : ChangeReviewItem :=
  { decisionA with id := { text := "REVIEW-A-H2" }, status := .rejected }

def proposalB : ChangeReviewItem :=
  { proposalA with id := { text := "REVIEW-B" }, candidateId := diffB.id }

def reviewedLedger : Ledger :=
  attempts Ledger.pass2 { seededLedger with changeReviewQueue := [] }
    [.addReview proposalA, .addReview decisionA, .addReview secondDecisionA, .addReview proposalB]

theorem review_history_chains_reviewedLedger :
    SingleChain (reviewedLedger.reviewsOf diffA.id) ∧
    (reviewedLedger.reviewsOf diffA.id).map (·.id.text) = ["REVIEW-A", "REVIEW-A-H1"] ∧
    reviewedLedger.pendingReviewCount = 1 ∧
    (reviewedLedger.pendingReviews 100).length = reviewedLedger.undecided.card := by
  have h := review_history_chains seededLedger
    [.addReview proposalA, .addReview decisionA, .addReview secondDecisionA, .addReview proposalB]
    reviewedLedger rfl
  exact ⟨(h.1 diffA.id (by decide)).1, by decide, by decide, h.2.2.1 100 (by decide)⟩

end AgenticSecurity.Storage
