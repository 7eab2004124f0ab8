import AgenticSecurity.Lifecycle.StateMachine
import AgenticSecurity.Storage.EvidencePolicy
import AgenticSecurity.Storage.ReadModels
import Mathlib.Data.List.Sort

namespace AgenticSecurity.Storage

open Library Models Python Runs

def supportingRows (assertion : Assertion) : List AssertionEvidenceRow :=
  (assertion.evidenceIds.map fun id ↦ ⟨assertion.id, id, .supports⟩) ++
    assertion.contradictingEvidenceIds.map fun id ↦ ⟨assertion.id, id, .contradicts⟩

def Ledger.insertLink (ledger : Ledger) (link : AssertionEvidenceRow) : Except LedgerError Ledger :=
  if link ∈ ledger.assertionEvidence then
    .error (.uniqueFailed
      "assertion_evidence.assertion_id, assertion_evidence.evidence_id, assertion_evidence.relation")
  else if link.assertionId ∉ ledger.assertions.map (·.id) ∨
      link.evidenceId ∉ ledger.evidence.map EvidenceRow.id then
    .error .foreignKeyFailed
  else .ok { ledger with assertionEvidence := ledger.assertionEvidence ++ [link] }

def Ledger.insertAssertion (ledger : Ledger) (assertion : Assertion) : Except LedgerError Ledger :=
  if assertion.id ∈ ledger.assertions.map (·.id) then .error (.uniqueFailed "assertions.id")
  else if assertion.assertionKey ∈ ledger.assertions.map (·.assertionKey) then
    .error (.uniqueFailed "assertions.assertion_key")
  else if assertion.taxonomyVersion ∉ ledger.taxonomyVersions.map TaxonomyRow.id ∨
      assertion.systemId ∉ ledger.systems.map (·.id) ∨
      (∃ agent, assertion.agentId = some agent ∧ agent ∉ ledger.agents.map (·.id)) ∨
      ∃ successor, assertion.supersededBy = some successor ∧
        successor ∉ assertion.id :: ledger.assertions.map (·.id) then
    .error .foreignKeyFailed
  else .ok { ledger with assertions := ledger.assertions ++ [assertion] }

def Ledger.addAssertion (ledger : Ledger) (assertion : Assertion) : Except LedgerError Ledger := do
  let ledger ← ledger.insertAssertion assertion
  (supportingRows assertion).foldlM Ledger.insertLink ledger

def Ledger.addObservation (ledger : Ledger) (observation : Observation) :
    Except LedgerError Ledger :=
  if observation.id ∈ ledger.observations.map (·.id) then .error (.uniqueFailed "observations.id")
  else if observation.assertionId ∉ ledger.assertions.map (·.id) ∨
      observation.evidenceId ∉ ledger.evidence.map EvidenceRow.id then
    .error .foreignKeyFailed
  else .ok { ledger with observations := ledger.observations ++ [observation] }

def Ledger.history (ledger : Ledger) (entity : String × String) : List LifecycleEvent :=
  ledger.lifecycleEvents.filter fun event ↦
    (if entity.1 = "system" then event.systemId else event.agentId) = some entity.2

def Ledger.appendLifecycle (ledger : Ledger) (event : LifecycleEvent) :
    Except LedgerError Ledger := do
  (Lifecycle.validateTransition (ledger.history (Lifecycle.entity event)) event).mapError
    .valueError
  if event.id ∈ ledger.lifecycleEvents.map (·.id) then .error (.uniqueFailed "lifecycle_events.id")
  else if (∃ system, event.systemId = some system ∧ system ∉ ledger.systems.map (·.id)) ∨
      (∃ agent, event.agentId = some agent ∧ agent ∉ ledger.agents.map (·.id)) ∨
      event.evidenceId ∉ ledger.evidence.map EvidenceRow.id then
    .error .foreignKeyFailed
  else .ok { ledger with lifecycleEvents := ledger.lifecycleEvents ++ [event] }

def Ledger.addVendor (ledger : Ledger) (vendor : Vendor) : Except LedgerError Ledger :=
  match Table.insert Vendor.id ledger.vendors vendor with
  | none => .error (.uniqueFailed "vendors.id")
  | some vendors => .ok { ledger with vendors }

def Ledger.addSystem (ledger : Ledger) (system : System) : Except LedgerError Ledger :=
  match Table.insert System.id ledger.systems system with
  | none => .error (.uniqueFailed "systems.id")
  | some systems =>
    if system.vendorId ∉ ledger.vendors.map (·.id) then .error .foreignKeyFailed
    else .ok { ledger with systems }

def Ledger.addAgent (ledger : Ledger) (agent : Agent) : Except LedgerError Ledger :=
  match Table.insert Agent.id ledger.agents agent with
  | none => .error (.uniqueFailed "agents.id")
  | some agents =>
    if agent.systemId ∉ ledger.systems.map (·.id) then .error .foreignKeyFailed
    else .ok { ledger with agents }

def Ledger.addCapability (ledger : Ledger) (capability : Capability) : Except LedgerError Ledger :=
  match Table.insert Capability.id ledger.capabilities capability with
  | none => .error (.uniqueFailed "capabilities.id")
  | some capabilities =>
    if capability.taxonomyVersion ∉ ledger.taxonomyVersions.map TaxonomyRow.id then
      .error .foreignKeyFailed
    else .ok { ledger with capabilities }

def Ledger.addAutonomy (ledger : Ledger) (assessment : AutonomyAssessment) :
    Except LedgerError Ledger :=
  if assessment.id ∈ ledger.autonomyAssessments.map (·.id) then
    .error (.uniqueFailed "autonomy_assessments.id")
  else if assessment.systemId ∉ ledger.systems.map (·.id) ∨
      ∃ agent, assessment.agentId = some agent ∧ agent ∉ ledger.agents.map (·.id) then
    .error .foreignKeyFailed
  else .ok { ledger with autonomyAssessments := ledger.autonomyAssessments ++ [assessment] }

def insertRow {ρ κ : Type} [DecidableEq κ] (key : ρ → κ) (columns : String) (resolved : Bool)
    (rows : List ρ) (row : ρ) : Except LedgerError (List ρ) :=
  if key row ∈ rows.map key then .error (.uniqueFailed columns)
  else if resolved then .ok (rows ++ [row])
  else .error .foreignKeyFailed

inductive PacketEntity
  | control (item : Control)
  | architecturePattern (item : ArchitecturePattern)
  | model (item : ModelEntity)
  | harness (item : Harness)
  | benchmark (item : Benchmark)
  | provenance (item : ProvenanceEdge)
  | benchmarkResult (item : BenchmarkResult)
  | materialChange (item : MaterialChange)
  deriving DecidableEq

def Ledger.addPacketEntity (ledger : Ledger) : PacketEntity → Except LedgerError Ledger
  | .control item =>
    (insertRow (·.id) "controls.id" (item.taxonomyVersion ∈ ledger.taxonomyVersions.map (·.id))
      ledger.packet.controls item).map fun controls ↦ { ledger with packet :=
      { ledger.packet with controls } }
  | .architecturePattern item =>
    (insertRow (·.id) "architecture_patterns.id" (item.taxonomyVersion ∈
      ledger.taxonomyVersions.map (·.id))
      ledger.packet.architecturePatterns item).map fun architecturePatterns ↦
        { ledger with packet := { ledger.packet with architecturePatterns } }
  | .model item =>
    (insertRow (·.id) "models.id" true ledger.packet.models item).map fun models ↦
      { ledger with packet := { ledger.packet with models } }
  | .harness item =>
    (insertRow (·.id) "harnesses.id" true ledger.packet.harnesses item).map fun harnesses ↦
      { ledger with packet := { ledger.packet with harnesses } }
  | .benchmark item =>
    (insertRow (·.id) "benchmarks.id" true ledger.packet.benchmarks item).map fun benchmarks ↦
      { ledger with packet := { ledger.packet with benchmarks } }
  | .provenance item =>
    if item.sourceId = item.derivativeOfSourceId then .error (.checkFailed "source_provenance")
    else
      (insertRow (fun r ↦ (r.sourceId, r.derivativeOfSourceId))
        "source_provenance.source_id, source_provenance.derivative_of_source_id"
        (item.sourceId ∈ ledger.sources.map (·.id) &&
          item.derivativeOfSourceId ∈ ledger.sources.map (·.id))
        ledger.packet.sourceProvenance item).map fun sourceProvenance ↦
          { ledger with packet := { ledger.packet with sourceProvenance } }
  | .benchmarkResult item =>
    (insertRow (·.id) "benchmark_results.id"
      (item.benchmarkId ∈ ledger.packet.benchmarks.map (·.id) &&
        item.modelId ∈ ledger.packet.models.map (·.id) &&
        item.harnessId ∈ ledger.packet.harnesses.map (·.id) &&
          item.evidenceId ∈ ledger.evidence.map (·.id))
      ledger.packet.benchmarkResults item).map fun benchmarkResults ↦
        { ledger with packet := { ledger.packet with benchmarkResults } }
  | .materialChange item =>
    (insertRow (·.id) "material_change_examples.id" true
      ledger.packet.materialChangeExamples item).map
      fun materialChangeExamples ↦ { ledger with packet :=
          { ledger.packet with materialChangeExamples } }

/-- The calls on the repositories. The loading of a packet is the sequence of its inserts. -/
inductive RepositoryCall
  | evidence (call : EvidenceCall)
  | pass2 (call : Pass2Call)
  | addAssertion (assertion : Assertion)
  | addObservation (observation : Observation)
  | appendLifecycle (event : LifecycleEvent)
  | addVendor (vendor : Vendor)
  | addSystem (system : System)
  | addAgent (agent : Agent)
  | addCapability (capability : Capability)
  | addAutonomy (assessment : AutonomyAssessment)
  | addPacketEntity (entity : PacketEntity)
  deriving DecidableEq

def Ledger.perform (contentSha256 : String → Sha256) (ledger : Ledger) :
    RepositoryCall → Except LedgerError Ledger
  | .evidence call => ledger.record contentSha256 call
  | .pass2 call => ledger.pass2 call
  | .addAssertion assertion => ledger.addAssertion assertion
  | .addObservation observation => ledger.addObservation observation
  | .appendLifecycle event => ledger.appendLifecycle event
  | .addVendor vendor => ledger.addVendor vendor
  | .addSystem system => ledger.addSystem system
  | .addAgent agent => ledger.addAgent agent
  | .addCapability capability => ledger.addCapability capability
  | .addAutonomy assessment => ledger.addAutonomy assessment
  | .addPacketEntity entity => ledger.addPacketEntity entity

def Ledger.outsideCorpus (ledger : Ledger) : Ledger :=
  { ledger with
    vendors := []
    systems := []
    agents := []
    capabilities := []
    assertions := []
    assertionEvidence := []
    observations := []
    lifecycleEvents := []
    autonomyAssessments := []
    packet := {} }

theorem insertLink_ok {ledger ledger' : Ledger} {link : AssertionEvidenceRow}
    (h : ledger.insertLink link = .ok ledger') :
    ledger' = { ledger with assertionEvidence := ledger.assertionEvidence ++ [link] } := by
  unfold Ledger.insertLink at h
  split_ifs at h
  exact (Except.ok.inj h).symm

theorem insertAssertion_ok {ledger ledger' : Ledger} {assertion : Assertion}
    (h : ledger.insertAssertion assertion = .ok ledger') :
    ledger' = { ledger with assertions := ledger.assertions ++ [assertion] } := by
  unfold Ledger.insertAssertion at h
  split_ifs at h
  exact (Except.ok.inj h).symm

theorem addAssertion_outsideCorpus {ledger ledger' : Ledger} {assertion : Assertion}
    (h : ledger.addAssertion assertion = .ok ledger') :
    ledger'.outsideCorpus = ledger.outsideCorpus := by
  obtain ⟨inserted, hinsert, hlinks⟩ := except_bind_ok.mp h
  have hlink :
      ∀ l link l', Ledger.insertLink l link = .ok l' → l'.outsideCorpus = l.outsideCorpus := by
    intro l link l' hl
    rw [insertLink_ok hl, Ledger.outsideCorpus, Ledger.outsideCorpus]
  rw [foldlM_view (f := fun tables _ ↦ tables) Ledger.outsideCorpus hlink hlinks, List.foldl_fixed]
  rw [insertAssertion_ok hinsert, Ledger.outsideCorpus, Ledger.outsideCorpus]

theorem addObservation_ok {ledger ledger' : Ledger} {observation : Observation}
    (h : ledger.addObservation observation = .ok ledger') :
    ledger' = { ledger with observations := ledger.observations ++ [observation] } := by
  unfold Ledger.addObservation at h
  split_ifs at h
  exact (Except.ok.inj h).symm

theorem appendLifecycle_ok {ledger ledger' : Ledger} {event : LifecycleEvent}
    (h : ledger.appendLifecycle event = .ok ledger') :
    Lifecycle.validateTransition (ledger.history (Lifecycle.entity event)) event = .ok () ∧
    ledger' = { ledger with lifecycleEvents := ledger.lifecycleEvents ++ [event] } := by
  obtain ⟨_, hvalid, h⟩ := except_bind_ok.mp h
  split_ifs at h
  exact ⟨except_mapError_ok.mp hvalid, (Except.ok.inj h).symm⟩

theorem addVendor_ok {ledger ledger' : Ledger} {vendor : Vendor}
    (h : ledger.addVendor vendor = .ok ledger') :
    ledger' = { ledger with vendors := ledger.vendors ++ [vendor] } := by
  unfold Ledger.addVendor at h
  split at h
  · cases h
  next rows hinsert =>
    obtain ⟨-, rfl⟩ := Table.insert_eq_some.mp hinsert
    exact (Except.ok.inj h).symm

theorem addSystem_ok {ledger ledger' : Ledger} {system : System}
    (h : ledger.addSystem system = .ok ledger') :
    ledger' = { ledger with systems := ledger.systems ++ [system] } := by
  unfold Ledger.addSystem at h
  split at h
  · cases h
  next rows hinsert =>
    obtain ⟨-, rfl⟩ := Table.insert_eq_some.mp hinsert
    split_ifs at h
    exact (Except.ok.inj h).symm

theorem addAgent_ok {ledger ledger' : Ledger} {agent : Agent}
    (h : ledger.addAgent agent = .ok ledger') :
    ledger' = { ledger with agents := ledger.agents ++ [agent] } := by
  unfold Ledger.addAgent at h
  split at h
  · cases h
  next rows hinsert =>
    obtain ⟨-, rfl⟩ := Table.insert_eq_some.mp hinsert
    split_ifs at h
    exact (Except.ok.inj h).symm

theorem addCapability_ok {ledger ledger' : Ledger} {capability : Capability}
    (h : ledger.addCapability capability = .ok ledger') :
    ledger' = { ledger with capabilities := ledger.capabilities ++ [capability] } := by
  unfold Ledger.addCapability at h
  split at h
  · cases h
  next rows hinsert =>
    obtain ⟨-, rfl⟩ := Table.insert_eq_some.mp hinsert
    split_ifs at h
    exact (Except.ok.inj h).symm

theorem addAutonomy_ok {ledger ledger' : Ledger} {assessment : AutonomyAssessment}
    (h : ledger.addAutonomy assessment = .ok ledger') :
    ledger' = { ledger with autonomyAssessments :=
        ledger.autonomyAssessments ++ [assessment] } := by
  unfold Ledger.addAutonomy at h
  split_ifs at h
  exact (Except.ok.inj h).symm

theorem insertRow_ok {ρ κ : Type} [DecidableEq κ] {key : ρ → κ} {columns : String} {resolved : Bool}
    {rows rows' : List ρ} {row : ρ} (h : insertRow key columns resolved rows row = .ok rows') :
    key row ∉ rows.map key ∧ resolved = true ∧ rows' = rows ++ [row] := by
  unfold insertRow at h
  split_ifs at h with hkey hresolved
  exact ⟨hkey, hresolved, (Except.ok.inj h).symm⟩

theorem addPacketEntity_ok {ledger ledger' : Ledger} {entity : PacketEntity}
    (h : ledger.addPacketEntity entity = .ok ledger') :
    ∃ packet, ledger' = { ledger with packet } := by
  cases entity with
  | provenance item =>
    unfold Ledger.addPacketEntity at h
    dsimp only at h
    split_ifs at h
    obtain ⟨rows, -, rfl⟩ := except_map_ok.mp h
    exact ⟨_, rfl⟩
  | control | architecturePattern | model | harness | benchmark | benchmarkResult | materialChange =>
    obtain ⟨rows, -, rfl⟩ := except_map_ok.mp h
    exact ⟨_, rfl⟩

theorem perform_outsideCorpus {contentSha256 : String → Sha256} {ledger ledger' : Ledger}
    {call : RepositoryCall} (h : ledger.perform contentSha256 call = .ok ledger')
    (hevidence : ∀ c, call ≠ .evidence c)
    (hpass2 : ∀ c, call ≠ .pass2 c) : ledger'.outsideCorpus = ledger.outsideCorpus := by
  cases call with
  | evidence c => exact absurd rfl (hevidence c)
  | pass2 c => exact absurd rfl (hpass2 c)
  | addAssertion assertion => exact addAssertion_outsideCorpus h
  | addObservation observation =>
    rw [addObservation_ok h, Ledger.outsideCorpus, Ledger.outsideCorpus]
  | appendLifecycle event =>
    rw [(appendLifecycle_ok h).2, Ledger.outsideCorpus, Ledger.outsideCorpus]
  | addVendor vendor => rw [addVendor_ok h, Ledger.outsideCorpus, Ledger.outsideCorpus]
  | addSystem system => rw [addSystem_ok h, Ledger.outsideCorpus, Ledger.outsideCorpus]
  | addAgent agent => rw [addAgent_ok h, Ledger.outsideCorpus, Ledger.outsideCorpus]
  | addCapability capability => rw [addCapability_ok h, Ledger.outsideCorpus, Ledger.outsideCorpus]
  | addAutonomy assessment => rw [addAutonomy_ok h, Ledger.outsideCorpus, Ledger.outsideCorpus]
  | addPacketEntity entity =>
    obtain ⟨packet, rfl⟩ := addPacketEntity_ok h
    rfl

def Ledger.evidenceTables (ledger : Ledger) : List SourceRow × List EvidenceRow :=
  (ledger.sources, ledger.evidence)

theorem pass2_evidenceTables {ledger ledger' : Ledger} {call : Pass2Call}
    (h : ledger.pass2 call = .ok ledger') : ledger'.evidenceTables = ledger.evidenceTables := by
  cases call with
  | addDiff diff => rw [addDiff_ok h, Ledger.evidenceTables, Ledger.evidenceTables]
  | addReview review =>
    obtain ⟨-, -, -, -, -, -, rfl⟩ := insertReview_ok h
    rfl
  | addConfirmedChange change reviewId =>
    obtain ⟨_, _, -, -, -, -, -, -, rfl⟩ := addConfirmedChange_ok h
    rfl
  | addConflict conflict =>
    obtain ⟨-, rfl⟩ := addConflict_ok h
    rfl
  | addResolution resolution =>
    obtain ⟨-, -, rfl⟩ := addResolution_ok.mp h
    rfl

theorem perform_evidenceTables {contentSha256 : String → Sha256} {ledger ledger' : Ledger}
    {call : RepositoryCall} (h : ledger.perform contentSha256 call = .ok ledger')
    (hcall : ∀ c, call ≠ .evidence c) :
    ledger'.evidenceTables = ledger.evidenceTables := by
  by_cases hpass2 : ∃ c, call = .pass2 c
  · obtain ⟨c, rfl⟩ := hpass2
    exact pass2_evidenceTables h
  · have houtside := perform_outsideCorpus h hcall fun c hc ↦ hpass2 ⟨c, hc⟩
    change ledger'.outsideCorpus.evidenceTables = ledger.outsideCorpus.evidenceTables
    rw [houtside]

end AgenticSecurity.Storage
