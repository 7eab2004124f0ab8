import AgenticSecurity.Derivations
import AgenticSecurity.Library.Origins
import AgenticSecurity.Storage.EvidencePolicy

namespace AgenticSecurity.Storage

open Library Models Runs Derivations

/-- The row that a row leads to, along `derivative_of_evidence_id`. -/
def Ledger.HasOrigin (ledger : Ledger) : EvidenceRow → EvidenceRow → Prop :=
  Origins.HasRoot EvidenceRow.id EvidenceRow.derivativeOfEvidenceId ledger.evidence

structure Ledger.ClosedUnderOrigins (ledger : Ledger) (items : List Evidence) : Prop where
  stored : ∀ item ∈ items, evidenceRow item ∈ ledger.evidence
  closed : ∀ item ∈ items, ∀ original, item.derivativeOfEvidenceId = some original →
    ∃ other ∈ items, other.id = original

/-- Every row has one origin that is not derivative, and a closed set that is not empty counts
some provenance. -/
structure Ledger.WellFoundedDerivation (ledger : Ledger) : Prop where
  origin : ∀ row ∈ ledger.evidence, ∃! root, ledger.HasOrigin row root
  counted : ∀ items rootByEvidence, items ≠ [] → ledger.ClosedUnderOrigins items →
    provenanceIndependentCount items rootByEvidence ≠ 0

theorem provenanceIndependentCount_ne_zero {items : List Evidence}
    (rootByEvidence : List (String × String)) {item : Evidence} (hitem : item ∈ items)
    (hdirect : item.derivativeOfEvidenceId = none) :
    provenanceIndependentCount items rootByEvidence ≠ 0 := by
  have hmem : item ∈ items.filter fun item ↦ item.derivativeOfEvidenceId.isNone :=
    List.mem_filter.mpr ⟨hitem, by rw [hdirect]; rfl⟩
  have hroot := List.mem_eraseDups.mpr
    (List.mem_map_of_mem (f :=
        fun item : Evidence ↦ (rootByEvidence.lookup item.id.text).getD item.id.text) hmem)
  exact (List.length_pos_of_mem hroot).ne'

theorem wellFoundedDerivation_of_ordered {ledger : Ledger}
    (hids : (ledger.evidence.map EvidenceRow.id).Nodup)
    (h : Origins.Ordered EvidenceRow.id EvidenceRow.derivativeOfEvidenceId ledger.evidence) :
    ledger.WellFoundedDerivation where
  origin row hrow := Origins.existsUnique_root hids h hrow
  counted items rootByEvidence hne hclosed := by
    obtain ⟨first, hfirst⟩ := List.exists_mem_of_ne_nil items hne
    let rows : Set EvidenceRow := {row | ∃ item ∈ items, evidenceRow item = row}
    have hstored : ∀ row ∈ rows, row ∈ ledger.evidence := by
      rintro row ⟨item, hitem, rfl⟩
      exact hclosed.stored item hitem
    have hnames :
        ∀ row ∈ rows, ∀ row', Origins.Names EvidenceRow.id EvidenceRow.derivativeOfEvidenceId
        ledger.evidence row row' → row' ∈ rows := by
      rintro row ⟨item, hitem, rfl⟩ row' ⟨hrow', horigin⟩
      obtain ⟨other, hother, hid⟩ := hclosed.closed item hitem row'.id horigin
      exact ⟨other, hother, Table.eq_of_key hids (hclosed.stored other hother) hrow' hid⟩
    obtain ⟨root, ⟨item, hitem, rfl⟩, hdirect⟩ :=
      Origins.root_of_closed h hstored hnames ⟨first, hfirst, rfl⟩
    exact provenanceIndependentCount_ne_zero rootByEvidence hitem hdirect

/-- What `EvidenceRepository.add` checks, with the primary key of the insert. -/
def Ledger.Passes (contentSha256 : String → Sha256) (ledger : Ledger) (evidence : Evidence) :
    Prop :=
  ∃ row snapshot, ledger.sources.find? (fun r ↦ r.id = evidence.sourceId) = some row ∧
    ledger.snapshots.find? (fun r ↦ r.id = evidence.anchor.snapshotId) = some snapshot ∧
    evidence.sourceId = snapshot.sourceId ∧
    Evidence.validateEvidenceAnchor contentSha256 evidence snapshot = .ok () ∧
    Evidence.validateEvidenceClassification evidence = .ok () ∧
    Evidence.validateEvidencePurpose evidence row.payload = .ok () ∧
    evidence.id ∉ ledger.evidence.map EvidenceRow.id

theorem addEvidence_self {contentSha256 : String → Sha256} {ledger : Ledger} {evidence : Evidence}
    (h : ledger.Passes contentSha256 evidence)
    (hself : evidence.derivativeOfEvidenceId = some evidence.id) :
    ledger.addEvidence contentSha256 evidence =
      .ok { ledger with evidence := ledger.evidence ++ [evidenceRow evidence] } := by
  obtain ⟨row, snapshot, hsource, hsnapshot, hown, hanchor, hclass, hpurpose, hfresh⟩ := h
  have hinsert : Table.insert EvidenceRow.id ledger.evidence (evidenceRow evidence) =
      some (ledger.evidence ++ [evidenceRow evidence]) := Table.insert_eq_some.mpr ⟨hfresh, rfl⟩
  have hforeign : ¬ ∃ original, evidence.derivativeOfEvidenceId = some original ∧
      original ∉ (ledger.evidence ++ [evidenceRow evidence]).map EvidenceRow.id := by
    rintro ⟨original, horiginal, hmissing⟩
    obtain rfl := Option.some.inj (hself.symm.trans horiginal)
    exact hmissing (List.mem_map_of_mem (List.mem_append_right _ (List.mem_singleton_self _)))
  simp only [Ledger.addEvidence, hsource, hsnapshot, if_neg (not_not.mpr hown), hanchor,
    hclass, hpurpose, Ledger.insertEvidence, hinsert, if_neg hforeign]
  rfl

structure Ledger.OrderedEvidence (ledger : Ledger) : Prop where
  ids : (ledger.evidence.map EvidenceRow.id).Nodup
  ordered : Origins.Ordered EvidenceRow.id EvidenceRow.derivativeOfEvidenceId ledger.evidence

theorem Ledger.OrderedEvidence.of_eq {ledger ledger' : Ledger} (h : ledger.OrderedEvidence)
    (hsame : ledger'.evidence = ledger.evidence) : ledger'.OrderedEvidence := by
  constructor
  · rw [hsame]
    exact h.ids
  · rw [hsame]
    exact h.ordered

theorem Ledger.OrderedEvidence.record {contentSha256 : String → Sha256} {ledger ledger' : Ledger}
    {call : EvidenceCall} (h : ledger.OrderedEvidence)
    (hcall : ledger.record contentSha256 call = .ok ledger')
    (hself : ∀ evidence, call = .addEvidence evidence →
      evidence.derivativeOfEvidenceId ≠ some evidence.id) :
    ledger'.OrderedEvidence := by
  cases call with
  | addSource source =>
    obtain ⟨-, rfl⟩ := addSource_ok hcall
    exact h.of_eq rfl
  | syncSource source => exact h.of_eq (syncSource_evidence hcall)
  | addSnapshot snapshot =>
    obtain rfl := addSnapshot_ok hcall
    exact h.of_eq rfl
  | addEvidence evidence =>
    obtain ⟨_, _, -, -, -, -, -, -, hfresh, horigin, rfl⟩ := addEvidence_ok hcall
    refine ⟨Table.nodup_append_singleton h.ids hfresh, h.ordered.snoc fun original horiginal ↦ ?_⟩
    rcases horigin original horiginal with rfl | hbefore
    · exact absurd horiginal (hself evidence rfl)
    · exact hbefore

theorem addEvidence_passes {contentSha256 : String → Sha256} {ledger ledger' : Ledger}
    {evidence : Evidence} (h : ledger.addEvidence contentSha256 evidence = .ok ledger') :
    ledger.Passes contentSha256 evidence := by
  obtain ⟨source, snapshot, hsource, hsnapshot, hown, hanchor, hclass, hpermits, hfresh, -, -⟩ :=
    addEvidence_ok h
  obtain ⟨row, hrow, rfl⟩ := Option.map_eq_some_iff.mp hsource
  exact ⟨row, snapshot, hrow, hsnapshot, hown.symm, hanchor, hclass,
    Evidence.validateEvidencePurpose_ok_iff.mpr hpermits, hfresh⟩

theorem evidence_ids_nodup (contentSha256 : String → Sha256) (calls : List EvidenceCall) :
    ((recorded contentSha256 calls).evidence.map EvidenceRow.id).Nodup := by
  refine attempts_invariant (fun ledger : Ledger ↦ (ledger.evidence.map EvidenceRow.id).Nodup)
    List.nodup_nil ?_
  intro ledger call ledger' _ hids hcall
  rcases record_evidence hcall with hsame | ⟨evidence, source, rfl, hrows, -⟩
  · rw [hsame]
    exact hids
  · obtain ⟨_, _, -, -, -, -, -, -, hfresh, -, -⟩ := addEvidence_ok hcall
    rw [hrows]
    exact Table.nodup_append_singleton hids hfresh

/-- Derivation is well founded all the way exactly where no evidence that passes the checks is
its own derivative. -/
theorem derivation_wellFounded_iff (contentSha256 : String → Sha256) (calls : List EvidenceCall) :
    (∀ history, history <+: calls → (recorded contentSha256 history).WellFoundedDerivation) ↔
    ∀ history evidence, history ++ [.addEvidence evidence] <+: calls →
      (recorded contentSha256 history).Passes contentSha256 evidence →
      evidence.derivativeOfEvidenceId ≠ some evidence.id := by
  constructor
  · intro h history evidence hpre hpasses hself
    have hinserted : recorded contentSha256 (history ++ [.addEvidence evidence]) = _ :=
      (recorded_snoc history _).trans (attempt_ok (addEvidence_self hpasses hself))
    have hids := evidence_ids_nodup contentSha256 (history ++ [.addEvidence evidence])
    have hwell := h _ hpre
    rw [hinserted] at hids hwell
    have hrow : evidenceRow evidence ∈ (recorded contentSha256 history).evidence ++
        [evidenceRow evidence] :=
      List.mem_append_right _ (List.mem_singleton_self _)
    obtain ⟨root, hroot, -⟩ := hwell.origin (evidenceRow evidence) hrow
    exact Origins.not_hasRoot_of_self hids hrow hself hroot
  · intro h history hpre
    have hempty : ({} : Ledger).OrderedEvidence := ⟨List.nodup_nil, EventLog.admissible_nil _⟩
    have hordered : (recorded contentSha256 history).OrderedEvidence := by
      refine attempts_prefix_invariant Ledger.OrderedEvidence hempty ?_ history hpre
      intro before call ledger' hbefore hinv hcall
      refine hinv.record hcall fun evidence hevidence ↦ ?_
      subst hevidence
      exact h before evidence hbefore (addEvidence_passes hcall)
    exact wellFoundedDerivation_of_ordered hordered.ids hordered.ordered

def selfDerivedEvidence : Evidence :=
  { guideEvidence with derivativeOfEvidenceId := some guideEvidence.id }

def selfDerivingCalls : List EvidenceCall :=
  [.addSource (guideSource {.documentation}), .addSnapshot guideSnapshot,
    .addEvidence selfDerivedEvidence]

theorem self_derivation_accepted :
    ¬ (recorded triageSha256 selfDerivingCalls).WellFoundedDerivation := by
  intro h
  have hclosed :
      (recorded triageSha256 selfDerivingCalls).ClosedUnderOrigins [selfDerivedEvidence] := by
    constructor
    · intro item hitem
      obtain rfl := List.mem_singleton.mp hitem
      decide
    · intro item hitem original horiginal
      obtain rfl := List.mem_singleton.mp hitem
      exact ⟨selfDerivedEvidence, hitem, Option.some.inj horiginal⟩
  exact h.counted [selfDerivedEvidence] [] (List.cons_ne_nil _ _) hclosed rfl

end AgenticSecurity.Storage
