import AgenticSecurity.Site.Build
import AgenticSecurity.Storage.PacketRoundTrip
import AgenticSecurity.Storage.ReviewPipeline

namespace AgenticSecurity.Site

open Models Python Storage Editorial Library.Runs

def HumanConfirmed (ledger : Ledger) : Prop :=
  ∀ row ∈ ledger.confirmedChanges, row.payload.humanConfirmed = true

section Stored

variable {contentSha256 : String → Sha256} {ledger ledger' : Ledger}

theorem record_confirmedChanges {call : EvidenceCall}
    (h : ledger.record contentSha256 call = .ok ledger') :
    ledger'.confirmedChanges = ledger.confirmedChanges := by
  cases call with
  | addSource source =>
    obtain ⟨-, rfl⟩ := addSource_ok h
    rfl
  | syncSource source =>
    obtain ⟨sources, rfl, -⟩ := syncSource_kept h
    rfl
  | addSnapshot snapshot =>
    obtain rfl := addSnapshot_ok h
    rfl
  | addEvidence evidence =>
    obtain ⟨_, _, -, -, -, -, -, -, -, -, rfl⟩ := addEvidence_ok h
    rfl

theorem HumanConfirmed.pass2 {call : Pass2Call} (hinv : HumanConfirmed ledger)
    (h : ledger.pass2 call = .ok ledger') : HumanConfirmed ledger' := by
  cases call with
  | addConfirmedChange change reviewId =>
    obtain ⟨_, _, -, hhuman, -, -, -, -, rfl⟩ := addConfirmedChange_ok h
    intro row hrow
    rcases List.mem_append.mp hrow with hold | hnew
    · exact hinv row hold
    · rw [List.mem_singleton.mp hnew]
      exact hhuman
  | addDiff diff =>
    obtain rfl := addDiff_ok h
    exact hinv
  | addReview review =>
    obtain ⟨-, -, -, -, -, -, rfl⟩ := insertReview_ok h
    exact hinv
  | addConflict conflict =>
    obtain ⟨-, rfl⟩ := addConflict_ok h
    exact hinv
  | addResolution resolution =>
    obtain ⟨-, -, rfl⟩ := addResolution_ok.mp h
    exact hinv

theorem HumanConfirmed.perform {call : RepositoryCall} (hinv : HumanConfirmed ledger)
    (h : ledger.perform contentSha256 call = .ok ledger') : HumanConfirmed ledger' := by
  by_cases hevidence : ∃ c, call = .evidence c
  · obtain ⟨c, rfl⟩ := hevidence
    unfold HumanConfirmed
    rwa [record_confirmedChanges h]
  by_cases hpass2 : ∃ c, call = .pass2 c
  · obtain ⟨c, rfl⟩ := hpass2
    exact hinv.pass2 h
  have houtside := perform_outsideCorpus h (fun c hc ↦ hevidence ⟨c, hc⟩) fun c hc ↦ hpass2 ⟨c, hc⟩
  have hinv' : HumanConfirmed ledger.outsideCorpus := hinv
  rw [← houtside] at hinv'
  exact hinv'

theorem seededRun_humanConfirmed (sha256 : String → Sha256) (methodologies : List MethodologyRow)
    (taxonomies : List TaxonomyRow) (calls : List RepositoryCall) :
    HumanConfirmed (seededRun sha256 methodologies taxonomies calls) := by
  refine attempts_invariant HumanConfirmed ?_ fun _ _ _ _ hinv hcall ↦ hinv.perform hcall
  intro row hrow
  exact absurd hrow List.not_mem_nil

end Stored

/-- The changes of the payload are the human-confirmed ones, which are those of the reports. -/
structure PublishesConfirmed (unicode : UnicodeData) (data : PublicationLedgerData) (t : Datetime)
    (payload : Payload) : Prop where
  confirmed : payload.changes.map (·.id) =
    (data.confirmedChanges.filter (·.humanConfirmed)).map (·.id)
  daily : payload.changes.map (·.id) = (runDailyPipeline data t).confirmedChangeIds
  weekly :
    ∀ pack, runWeeklyPipeline unicode data t = .ok pack →
    payload.changes.map (·.id) = pack.confirmedChangeIds

section Published

variable {unicode : UnicodeData} {cases : CaseData} {data : PublicationLedgerData}
  {now t : Datetime} {generatedAt semanticAsOf : Option Datetime} {canonicalBase : String}
    {payload : Payload}

theorem buildSiteData_changeRows
    (h : buildSiteData cases data unicode now generatedAt semanticAsOf canonicalBase =
      .ok payload) :
    payload.changes = changeRows data := by
  obtain ⟨systems, -, h⟩ := except_bind_ok.mp h
  obtain ⟨reports, -, hpayload⟩ := except_bind_ok.mp h
  rw [← Except.ok.inj hpayload]

theorem buildSiteData_changes
    (h : buildSiteData cases data unicode now generatedAt semanticAsOf canonicalBase =
      .ok payload) :
    payload.changes.map (·.id) = data.confirmedChanges.map (·.id) := by
  rw [buildSiteData_changeRows h, changeRows, List.map_map]
  rfl

theorem publishesConfirmed_iff
    (h : buildSiteData cases data unicode now generatedAt semanticAsOf canonicalBase =
      .ok payload) :
    PublishesConfirmed unicode data t payload ↔
    ∀ change ∈ data.confirmedChanges, change.humanConfirmed = true := by
  have hids := buildSiteData_changes h
  have hall : data.confirmedChanges.map (·.id) =
      (data.confirmedChanges.filter (·.humanConfirmed)).map (·.id) ↔
      ∀ change ∈ data.confirmedChanges, change.humanConfirmed = true := by
    constructor
    · intro hsame
      have hlength := congrArg List.length hsame
      rw [List.length_map, List.length_map, eq_comm, List.length_filter_eq_length_iff] at hlength
      exact hlength
    · intro hconfirmed
      rw [List.filter_eq_self.mpr hconfirmed]
  constructor
  · intro hpublishes
    exact hall.mp (hids.symm.trans hpublishes.confirmed)
  · intro hconfirmed
    have hsame := hids.trans (hall.mpr hconfirmed)
    refine ⟨hsame, hsame, fun pack hpack ↦ ?_⟩
    obtain ⟨trends, -, rfl⟩ := except_map_ok.mp hpack
    exact hsame

end Published

/-- The site publishes every change it is given. A ledger gives none that is unconfirmed; a
packet gives all it has. -/
theorem publishes_confirmed_iff (unicode : UnicodeData) (cases : CaseData)
    (data : PublicationLedgerData) (now t : Datetime) (generatedAt semanticAsOf : Option Datetime)
    (canonicalBase : String) (payload : Payload)
    (h : buildSiteData cases data unicode now generatedAt semanticAsOf canonicalBase =
      .ok payload) :
    (∀ metadata (packet : GateAPacket unicode) conflicts candidates reviews,
      data = (LedgerData.fromPacket metadata packet conflicts candidates
        reviews).toPublicationLedgerData →
      (PublishesConfirmed unicode data t payload ↔
        ∀ change ∈ packet.materialChanges, change.humanConfirmed = true)) ∧
    ∀ sha256 methodologies taxonomies calls publishedAt,
      (seededRun sha256 methodologies taxonomies calls).publicationData publishedAt = .ok data →
      PublishesConfirmed unicode data t payload := by
  constructor
  · rintro metadata packet conflicts candidates reviews rfl
    exact publishesConfirmed_iff h
  · intro sha256 methodologies taxonomies calls publishedAt hdata
    refine (publishesConfirmed_iff h).mpr ?_
    obtain ⟨_, -, hdata⟩ := except_bind_ok.mp hdata
    obtain ⟨_, -, hdata⟩ := except_bind_ok.mp hdata
    obtain rfl := Except.ok.inj hdata
    exact List.forall_mem_map.mpr (seededRun_humanConfirmed sha256 methodologies taxonomies calls)

def proposedChange : MaterialChange :=
  { januaryChange with humanConfirmed := false, confirmedBy := none, confirmedAt := none }

def changePacket (change : MaterialChange) : GateAPacket asciiData where
  taxonomyVersion := "ASI-TAXONOMY-1.1"
  methodologyVersion := "ASI-1.0"
  materialChanges := [change]

def changeData (change : MaterialChange) : PublicationLedgerData :=
  (LedgerData.fromPacket guideMetadata (changePacket change) [] [] []).toPublicationLedgerData

theorem proposed_change_published :
    ∃ payload, buildSiteData asciiCases (changeData proposedChange) asciiData sampleTime none none
      "" = .ok payload ∧
      payload.changes.map (·.id) = [proposedChange.id] ∧
      (runDailyPipeline (changeData proposedChange) sampleTime).confirmedChangeIds = [] ∧
      ¬ PublishesConfirmed asciiData (changeData proposedChange) sampleTime payload := by
  refine ⟨_, rfl, rfl, rfl, fun h ↦ ?_⟩
  exact absurd h.daily (List.cons_ne_nil _ _)

theorem publishes_confirmed_january :
    ∃ payload, buildSiteData asciiCases (changeData januaryChange) asciiData sampleTime none none
      "" = .ok payload ∧
      PublishesConfirmed asciiData (changeData januaryChange) sampleTime payload := by
  have h :=
    publishes_confirmed_iff asciiData asciiCases (changeData januaryChange) sampleTime sampleTime
    none none ""
    _ rfl
  exact ⟨_, rfl, (h.1 guideMetadata (changePacket januaryChange) [] [] [] rfl).mpr
    (List.forall_mem_singleton.mpr rfl)⟩

end AgenticSecurity.Site
