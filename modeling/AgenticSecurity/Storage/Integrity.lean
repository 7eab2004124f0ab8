import AgenticSecurity.Library.Integrity
import AgenticSecurity.Library.Transactions
import AgenticSecurity.Storage.Corpus

namespace AgenticSecurity.Storage

open Library Models Python Runs Integrity

inductive Index
  | methodologyVersions | taxonomyVersions
  | vendors | systems | agents | capabilities
  | sources | snapshots | snapshotContents | evidence
  | assertions | assertionKeys | assertionEvidence
  | observations | lifecycleEvents | autonomyAssessments
  | controls | architecturePatterns | models | harnesses | benchmarks
  | sourceProvenance | benchmarkResults | materialChangeExamples
  | structuredDiffs | changeReviewQueue | machineProposals | successors
  | confirmedChanges | contradictionFlags | contradictionResolutions
  deriving DecidableEq, Repr

def EvidenceRelation.value : EvidenceRelation → String
  | .supports => "SUPPORTS"
  | .contradicts => "CONTRADICTS"

theorem EvidenceRelation.value_injective : Function.Injective value := by
  intro a b h
  cases a <;> cases b <;> first | rfl | exact absurd h (by decide)

def Ledger.held (ledger : Ledger) : Index → List (List String)
  | .methodologyVersions => ledger.methodologyVersions.map fun r ↦ [r.id]
  | .taxonomyVersions => ledger.taxonomyVersions.map fun r ↦ [r.id]
  | .vendors => ledger.vendors.map fun r ↦ [r.id]
  | .systems => ledger.systems.map fun r ↦ [r.id]
  | .agents => ledger.agents.map fun r ↦ [r.id]
  | .capabilities => ledger.capabilities.map fun r ↦ [r.id]
  | .sources => ledger.sources.map fun r ↦ [r.id.text]
  | .snapshots => ledger.snapshots.map fun r ↦ [r.id.text]
  | .snapshotContents =>
    ledger.snapshots.map fun r ↦ [r.sourceId.text, r.canonicalUri, r.sha256.text]
  | .evidence => ledger.evidence.map fun r ↦ [r.id.text]
  | .assertions => ledger.assertions.map fun r ↦ [r.id.text]
  | .assertionKeys => ledger.assertions.map fun r ↦ [r.assertionKey]
  | .assertionEvidence =>
    ledger.assertionEvidence.map fun r ↦ [r.assertionId.text, r.evidenceId.text, r.relation.value]
  | .observations => ledger.observations.map fun r ↦ [r.id.text]
  | .lifecycleEvents => ledger.lifecycleEvents.map fun r ↦ [r.id.text]
  | .autonomyAssessments => ledger.autonomyAssessments.map fun r ↦ [r.id]
  | .controls => ledger.packet.controls.map fun r ↦ [r.id]
  | .architecturePatterns => ledger.packet.architecturePatterns.map fun r ↦ [r.id]
  | .models => ledger.packet.models.map fun r ↦ [r.id]
  | .harnesses => ledger.packet.harnesses.map fun r ↦ [r.id]
  | .benchmarks => ledger.packet.benchmarks.map fun r ↦ [r.id]
  | .sourceProvenance =>
    ledger.packet.sourceProvenance.map fun r ↦ [r.sourceId.text, r.derivativeOfSourceId.text]
  | .benchmarkResults => ledger.packet.benchmarkResults.map fun r ↦ [r.id]
  | .materialChangeExamples => ledger.packet.materialChangeExamples.map fun r ↦ [r.id.text]
  | .structuredDiffs => ledger.structuredDiffs.map fun r ↦ [r.id.text]
  | .changeReviewQueue => ledger.changeReviewQueue.map fun r ↦ [r.id.text]
  | .machineProposals =>
    (ledger.changeReviewQueue.filter (·.priorReviewId.isNone)).map fun r ↦ [r.candidateId.text]
  | .successors =>
    ledger.changeReviewQueue.filterMap fun r ↦ r.priorReviewId.map fun prior ↦ [prior.text]
  | .confirmedChanges => ledger.confirmedChanges.map fun r ↦ [r.id.text]
  | .contradictionFlags => ledger.contradictionFlags.map fun r ↦ [r.id.text]
  | .contradictionResolutions => ledger.contradictionResolutions.map fun r ↦ [r.id.text]

def optionalKey (index : Index) (key : Option String) : List (Index × List String) :=
  key.toList.map fun k ↦ (index, [k])

def snapshotReferences (r : Snapshot) : List (Index × List String) :=
  (.sources, [r.sourceId.text]) :: optionalKey .snapshots (r.duplicateOf.map (·.text))

def evidenceReferences (r : EvidenceRow) : List (Index × List String) :=
  [(.sources, [r.sourceId.text]), (.snapshots, [r.snapshotId.text])] ++
    optionalKey .evidence (r.derivativeOfEvidenceId.map (·.text))

def assertionReferences (r : Assertion) : List (Index × List String) :=
  [(.taxonomyVersions, [r.taxonomyVersion]), (.systems, [r.systemId])] ++
    optionalKey .agents r.agentId ++
    optionalKey .assertions (r.supersededBy.map (·.text))

def linkReferences (r : AssertionEvidenceRow) : List (Index × List String) :=
  [(.assertions, [r.assertionId.text]), (.evidence, [r.evidenceId.text])]

def observationReferences (r : Observation) : List (Index × List String) :=
  [(.assertions, [r.assertionId.text]), (.evidence, [r.evidenceId.text])]

def lifecycleReferences (r : LifecycleEvent) : List (Index × List String) :=
  (.evidence, [r.evidenceId.text]) ::
    (optionalKey .systems r.systemId ++ optionalKey .agents r.agentId)

def autonomyReferences (r : AutonomyAssessment) : List (Index × List String) :=
  (.systems, [r.systemId]) :: optionalKey .agents r.agentId

def provenanceReferences (r : ProvenanceEdge) : List (Index × List String) :=
  [(.sources, [r.sourceId.text]), (.sources, [r.derivativeOfSourceId.text])]

def benchmarkReferences (r : BenchmarkResult) : List (Index × List String) :=
  [(.benchmarks, [r.benchmarkId]), (.models, [r.modelId]), (.harnesses, [r.harnessId]),
    (.evidence, [r.evidenceId.text])]

def diffReferences (r : DiffRow) : List (Index × List String) :=
  [(.sources, [r.sourceId.text]), (.snapshots, [r.oldSnapshotId.text]),
    (.snapshots, [r.newSnapshotId.text])]

def reviewReferences (r : ReviewRow) : List (Index × List String) :=
  [(.structuredDiffs, [r.candidateId.text]), (.methodologyVersions, [r.methodologyVersion])] ++
    optionalKey .changeReviewQueue (r.priorReviewId.map (·.text))

/-- The `REFERENCES` clauses of a table, one entry for each of its rows that is not null. -/
def Ledger.references (ledger : Ledger) : Index → List (Index × List String)
  | .taxonomyVersions =>
    ledger.taxonomyVersions.flatMap fun r ↦ optionalKey .taxonomyVersions r.previousVersion
  | .systems => ledger.systems.flatMap fun r ↦ [(.vendors, [r.vendorId])]
  | .agents => ledger.agents.flatMap fun r ↦ [(.systems, [r.systemId])]
  | .capabilities => ledger.capabilities.flatMap fun r ↦ [(.taxonomyVersions, [r.taxonomyVersion])]
  | .snapshots => ledger.snapshots.flatMap snapshotReferences
  | .evidence => ledger.evidence.flatMap evidenceReferences
  | .assertions => ledger.assertions.flatMap assertionReferences
  | .assertionEvidence => ledger.assertionEvidence.flatMap linkReferences
  | .observations => ledger.observations.flatMap observationReferences
  | .lifecycleEvents => ledger.lifecycleEvents.flatMap lifecycleReferences
  | .autonomyAssessments => ledger.autonomyAssessments.flatMap autonomyReferences
  | .controls => ledger.packet.controls.flatMap fun r ↦ [(.taxonomyVersions, [r.taxonomyVersion])]
  | .architecturePatterns =>
    ledger.packet.architecturePatterns.flatMap fun r ↦ [(.taxonomyVersions, [r.taxonomyVersion])]
  | .sourceProvenance => ledger.packet.sourceProvenance.flatMap provenanceReferences
  | .benchmarkResults => ledger.packet.benchmarkResults.flatMap benchmarkReferences
  | .structuredDiffs => ledger.structuredDiffs.flatMap diffReferences
  | .changeReviewQueue => ledger.changeReviewQueue.flatMap reviewReferences
  | .confirmedChanges =>
    ledger.confirmedChanges.flatMap fun r ↦ [(.changeReviewQueue, [r.reviewId.text])]
  | .contradictionResolutions =>
    ledger.contradictionResolutions.flatMap fun r ↦ [(.contradictionFlags, [r.conflictId])]
  | _ => []

def Ledger.catalogue (ledger : Ledger) : Catalogue Index (List String) where
  held := ledger.held
  references := ledger.references

/-- The schema's constraints hold, and the evidence listed with an assertion is the evidence
that the assertion itself lists. -/
structure Ledger.Intact (ledger : Ledger) : Prop where
  sound : ledger.catalogue.Sound
  linked : ledger.assertionEvidence = ledger.assertions.flatMap supportingRows

/-- The constraints hold, and the evidence listed with each assertion is the first of what the
assertion itself lists, where an insert may have been refused halfway. -/
structure Ledger.Consistent (ledger : Ledger) : Prop where
  sound : ledger.catalogue.Sound
  listed :
    ∃ parts, List.Forall₂ (fun assertion part ↦ part <+: supportingRows assertion)
    ledger.assertions parts ∧
    ledger.assertionEvidence = parts.flatten

theorem Ledger.Intact.consistent {ledger : Ledger} (h : ledger.Intact) : ledger.Consistent := by
  refine ⟨h.sound, ledger.assertions.map supportingRows, ?_, h.linked⟩
  exact List.forall₂_map_right_iff.mpr (List.forall₂_same.mpr fun _ _ ↦ List.prefix_rfl)

/-- Every row of `earlier` is in `later`, in its place. A source may have a newer record
under its id, and a flag another status. -/
structure Ledger.Keeps (earlier later : Ledger) : Prop where
  methodologyVersions : earlier.methodologyVersions = later.methodologyVersions
  taxonomyVersions : earlier.taxonomyVersions = later.taxonomyVersions
  vendors : earlier.vendors <+: later.vendors
  systems : earlier.systems <+: later.systems
  agents : earlier.agents <+: later.agents
  capabilities : earlier.capabilities <+: later.capabilities
  sources : earlier.sources.map SourceRow.id <+: later.sources.map SourceRow.id
  snapshots : earlier.snapshots <+: later.snapshots
  evidence : earlier.evidence <+: later.evidence
  assertions : earlier.assertions <+: later.assertions
  assertionEvidence : earlier.assertionEvidence <+: later.assertionEvidence
  observations : earlier.observations <+: later.observations
  lifecycleEvents : earlier.lifecycleEvents <+: later.lifecycleEvents
  autonomyAssessments : earlier.autonomyAssessments <+: later.autonomyAssessments
  controls : earlier.packet.controls <+: later.packet.controls
  architecturePatterns : earlier.packet.architecturePatterns <+: later.packet.architecturePatterns
  models : earlier.packet.models <+: later.packet.models
  harnesses : earlier.packet.harnesses <+: later.packet.harnesses
  benchmarks : earlier.packet.benchmarks <+: later.packet.benchmarks
  sourceProvenance : earlier.packet.sourceProvenance <+: later.packet.sourceProvenance
  benchmarkResults : earlier.packet.benchmarkResults <+: later.packet.benchmarkResults
  materialChangeExamples : earlier.packet.materialChangeExamples <+:
    later.packet.materialChangeExamples
  structuredDiffs : earlier.structuredDiffs <+: later.structuredDiffs
  changeReviewQueue : earlier.changeReviewQueue <+: later.changeReviewQueue
  confirmedChanges : earlier.confirmedChanges <+: later.confirmedChanges
  contradictionFlags : earlier.contradictionFlags.map FlagRow.payload <+:
    later.contradictionFlags.map FlagRow.payload
  contradictionResolutions : earlier.contradictionResolutions <+: later.contradictionResolutions

theorem Ledger.Keeps.refl (ledger : Ledger) : ledger.Keeps ledger := by
  constructor <;> rfl

theorem Ledger.Keeps.trans {a b c : Ledger} (h : a.Keeps b) (h' : b.Keeps c) : a.Keeps c where
  methodologyVersions := h.methodologyVersions.trans h'.methodologyVersions
  taxonomyVersions := h.taxonomyVersions.trans h'.taxonomyVersions
  vendors := h.vendors.trans h'.vendors
  systems := h.systems.trans h'.systems
  agents := h.agents.trans h'.agents
  capabilities := h.capabilities.trans h'.capabilities
  sources := h.sources.trans h'.sources
  snapshots := h.snapshots.trans h'.snapshots
  evidence := h.evidence.trans h'.evidence
  assertions := h.assertions.trans h'.assertions
  assertionEvidence := h.assertionEvidence.trans h'.assertionEvidence
  observations := h.observations.trans h'.observations
  lifecycleEvents := h.lifecycleEvents.trans h'.lifecycleEvents
  autonomyAssessments := h.autonomyAssessments.trans h'.autonomyAssessments
  controls := h.controls.trans h'.controls
  architecturePatterns := h.architecturePatterns.trans h'.architecturePatterns
  models := h.models.trans h'.models
  harnesses := h.harnesses.trans h'.harnesses
  benchmarks := h.benchmarks.trans h'.benchmarks
  sourceProvenance := h.sourceProvenance.trans h'.sourceProvenance
  benchmarkResults := h.benchmarkResults.trans h'.benchmarkResults
  materialChangeExamples := h.materialChangeExamples.trans h'.materialChangeExamples
  structuredDiffs := h.structuredDiffs.trans h'.structuredDiffs
  changeReviewQueue := h.changeReviewQueue.trans h'.changeReviewQueue
  confirmedChanges := h.confirmedChanges.trans h'.confirmedChanges
  contradictionFlags := h.contradictionFlags.trans h'.contradictionFlags
  contradictionResolutions := h.contradictionResolutions.trans h'.contradictionResolutions

theorem text_mem {kind : String} {id : Id kind} {ids : List (Id kind)} :
    [id.text] ∈ ids.map (fun i ↦ [i.text]) ↔ id ∈ ids := by
  simp only [List.mem_map, List.cons.injEq, and_true]
  constructor
  · rintro ⟨i, hi, htext⟩
    exact Id.ext_text htext ▸ hi
  · exact fun h ↦ ⟨id, h, rfl⟩

theorem held_text {ρ : Type} {kind : String} {key : ρ → Id kind} {rows : List ρ} {id : Id kind} :
    [id.text] ∈ rows.map (fun r ↦ [(key r).text]) ↔ id ∈ rows.map key := by
  rw [← text_mem, List.map_map]
  rfl

theorem held_column {ρ : Type} {key : ρ → String} {rows : List ρ} {k : String} :
    [k] ∈ rows.map (fun r ↦ [key r]) ↔ k ∈ rows.map key := by
  simp only [List.mem_map, List.cons.injEq, and_true]

theorem eq_of_text {a b : Sha256} (h : a.text = b.text) : a = b := by
  cases a
  cases b
  cases h
  rfl

theorem forall_optionalKey {index : Index} {key : Option String} {p : Index × List String → Prop} :
    (∀ r ∈ optionalKey index key, p r) ↔ ∀ k, key = some k → p (index, [k]) := by
  cases key <;> simp [optionalKey]

theorem mem_flatMap_snoc {α β : Type} {f : α → List β} {rows : List α} {row : α} {b : β}
    (h : b ∈ (rows ++ [row]).flatMap f) : b ∈ rows.flatMap f ∨ b ∈ f row := by
  rw [List.flatMap_append, List.mem_append] at h
  simpa using h

theorem addVendor_accepts {ledger ledger' : Ledger} {vendor : Vendor}
    (h : ledger.addVendor vendor = .ok ledger') :
    ledger.catalogue.Accepts ledger'.catalogue [(.vendors, [vendor.id])] [] := by
  unfold Ledger.addVendor at h
  split at h
  · cases h
  next rows hinsert =>
    obtain ⟨hfresh, rfl⟩ := Table.insert_eq_some.mp hinsert
    obtain rfl := Except.ok.inj h
    refine ⟨fun i ↦ ?_, fun i r hr ↦ ?_, by simp, ?_, by simp⟩
    · cases i <;> first | exact (List.append_nil _).symm | exact List.map_append
    · cases i <;> exact .inl hr
    · exact List.forall_mem_singleton.mpr fun hheld ↦ hfresh (held_column.mp hheld)

theorem addSystem_accepts {ledger ledger' : Ledger} {system : System}
    (h : ledger.addSystem system = .ok ledger') :
    ledger.catalogue.Accepts ledger'.catalogue [(.systems, [system.id])]
      [(.vendors, [system.vendorId])] := by
  unfold Ledger.addSystem at h
  split at h
  · cases h
  next rows hinsert =>
    obtain ⟨hfresh, rfl⟩ := Table.insert_eq_some.mp hinsert
    split_ifs at h with hvendor
    obtain rfl := Except.ok.inj h
    refine ⟨fun i ↦ ?_, fun i r hr ↦ ?_, by simp, ?_, ?_⟩
    · cases i <;> first | exact (List.append_nil _).symm | exact List.map_append
    · cases i <;> first | exact .inl hr | exact mem_flatMap_snoc hr
    · exact List.forall_mem_singleton.mpr fun hheld ↦ hfresh (held_column.mp hheld)
    · exact List.forall_mem_singleton.mpr (.inr (held_column.mpr hvendor))

theorem addAgent_accepts {ledger ledger' : Ledger} {agent : Agent}
    (h : ledger.addAgent agent = .ok ledger') :
    ledger.catalogue.Accepts ledger'.catalogue [(.agents, [agent.id])]
      [(.systems, [agent.systemId])] := by
  unfold Ledger.addAgent at h
  split at h
  · cases h
  next rows hinsert =>
    obtain ⟨hfresh, rfl⟩ := Table.insert_eq_some.mp hinsert
    split_ifs at h with hsystem
    obtain rfl := Except.ok.inj h
    refine ⟨fun i ↦ ?_, fun i r hr ↦ ?_, by simp, ?_, ?_⟩
    · cases i <;> first | exact (List.append_nil _).symm | exact List.map_append
    · cases i <;> first | exact .inl hr | exact mem_flatMap_snoc hr
    · exact List.forall_mem_singleton.mpr fun hheld ↦ hfresh (held_column.mp hheld)
    · exact List.forall_mem_singleton.mpr (.inr (held_column.mpr hsystem))

theorem addCapability_accepts {ledger ledger' : Ledger} {capability : Capability}
    (h : ledger.addCapability capability = .ok ledger') :
    ledger.catalogue.Accepts ledger'.catalogue [(.capabilities, [capability.id])]
      [(.taxonomyVersions, [capability.taxonomyVersion])] := by
  unfold Ledger.addCapability at h
  split at h
  · cases h
  next rows hinsert =>
    obtain ⟨hfresh, rfl⟩ := Table.insert_eq_some.mp hinsert
    split_ifs at h with htaxonomy
    obtain rfl := Except.ok.inj h
    refine ⟨fun i ↦ ?_, fun i r hr ↦ ?_, by simp, ?_, ?_⟩
    · cases i <;> first | exact (List.append_nil _).symm | exact List.map_append
    · cases i <;> first | exact .inl hr | exact mem_flatMap_snoc hr
    · exact List.forall_mem_singleton.mpr fun hheld ↦ hfresh (held_column.mp hheld)
    · exact List.forall_mem_singleton.mpr (.inr (held_column.mpr htaxonomy))

theorem addSource_accepts {ledger ledger' : Ledger} {source : Source}
    (h : ledger.addSource source = .ok ledger') :
    ledger.catalogue.Accepts ledger'.catalogue [(.sources, [source.id.text])] [] := by
  obtain ⟨hfresh, rfl⟩ := addSource_ok h
  refine ⟨fun i ↦ ?_, fun i r hr ↦ ?_, by simp, ?_, by simp⟩
  · cases i <;> first | exact (List.append_nil _).symm | exact List.map_append
  · cases i <;> exact .inl hr
  · exact List.forall_mem_singleton.mpr fun hheld ↦ hfresh (held_text.mp hheld)

theorem addSnapshot_accepts {ledger ledger' : Ledger} {snapshot : Snapshot}
    (h : ledger.addSnapshot snapshot = .ok ledger') :
    ledger.catalogue.Accepts ledger'.catalogue
      [(.snapshots, [snapshot.id.text]),
        (.snapshotContents, [snapshot.sourceId.text, snapshot.canonicalUri, snapshot.sha256.text])]
      (snapshotReferences snapshot) := by
  unfold Ledger.addSnapshot at h
  split_ifs at h with hid hcontent hforeign
  obtain rfl := Except.ok.inj h
  simp only [not_or, not_not, not_exists, not_and] at hforeign hcontent
  refine ⟨fun i ↦ ?_, fun i r hr ↦ ?_, by simp, ?_, ?_⟩
  · cases i <;> first | exact (List.append_nil _).symm | exact List.map_append
  · cases i <;> first | exact .inl hr | exact mem_flatMap_snoc hr
  · refine List.forall_mem_cons.mpr ⟨fun hheld ↦ hid (held_text.mp hheld), ?_⟩
    refine List.forall_mem_singleton.mpr fun hheld ↦ ?_
    obtain ⟨r, hr, hcolumns⟩ := List.mem_map.mp hheld
    injection hcolumns with hsource hrest
    injection hrest with huri hrest
    injection hrest with hhash
    exact hcontent r hr (Id.ext_text hsource) huri (eq_of_text hhash)
  · refine List.forall_mem_cons.mpr ⟨.inr (held_text.mpr hforeign.1),
      forall_optionalKey.mpr fun k hk ↦ ?_⟩
    obtain ⟨original, horiginal, rfl⟩ := Option.map_eq_some_iff.mp hk
    cases List.mem_cons.mp (hforeign.2 original horiginal) with
    | inl hself => exact .inl (by rw [hself]; exact List.mem_cons_self)
    | inr hother => exact .inr (held_text.mpr hother)

theorem addEvidence_accepts {contentSha256 : String → Sha256} {ledger ledger' : Ledger}
    {evidence : Evidence} (h : ledger.addEvidence contentSha256 evidence = .ok ledger') :
    ledger.catalogue.Accepts ledger'.catalogue [(.evidence, [evidence.id.text])]
      (evidenceReferences (evidenceRow evidence)) := by
  obtain ⟨source, snapshot, hsource, hsnapshot, -, -, -, -, hfresh, horiginal, rfl⟩ :=
    addEvidence_ok h
  obtain ⟨row, hrow, -⟩ := Option.map_eq_some_iff.mp hsource
  have hrowId : row.id = evidence.sourceId := by simpa using List.find?_some hrow
  have hsnapshotId : snapshot.id = evidence.anchor.snapshotId := by
    simpa using List.find?_some hsnapshot
  refine ⟨fun i ↦ ?_, fun i r hr ↦ ?_, by simp, ?_, ?_⟩
  · cases i <;> first | exact (List.append_nil _).symm | exact List.map_append
  · cases i <;> first | exact .inl hr | exact mem_flatMap_snoc hr
  · exact List.forall_mem_singleton.mpr fun hheld ↦ hfresh (held_text.mp hheld)
  · refine List.forall_mem_cons.mpr ⟨.inr (held_text.mpr ?_),
      List.forall_mem_cons.mpr ⟨.inr (held_text.mpr ?_), ?_⟩⟩
    · exact List.mem_map.mpr ⟨row, List.mem_of_find?_eq_some hrow, hrowId⟩
    · exact List.mem_map.mpr ⟨snapshot, List.mem_of_find?_eq_some hsnapshot, hsnapshotId⟩
    · refine forall_optionalKey.mpr fun k hk ↦ ?_
      obtain ⟨original, hderivative, rfl⟩ := Option.map_eq_some_iff.mp hk
      cases horiginal original hderivative with
      | inl hself => exact .inl (by rw [hself]; exact List.mem_cons_self)
      | inr hother => exact .inr (held_text.mpr hother)

theorem insertAssertion_accepts {ledger ledger' : Ledger} {assertion : Assertion}
    (h : ledger.insertAssertion assertion = .ok ledger') :
    ledger.catalogue.Accepts ledger'.catalogue
      [(.assertions, [assertion.id.text]), (.assertionKeys, [assertion.assertionKey])]
      (assertionReferences assertion) := by
  unfold Ledger.insertAssertion at h
  split_ifs at h with hid hkey hforeign
  obtain rfl := Except.ok.inj h
  simp only [not_or, not_not, not_exists, not_and] at hforeign
  obtain ⟨htaxonomy, hsystem, hagent, hsuccessor⟩ := hforeign
  refine ⟨fun i ↦ ?_, fun i r hr ↦ ?_, by simp, ?_, ?_⟩
  · cases i <;> first | exact (List.append_nil _).symm | exact List.map_append
  · cases i <;> first | exact .inl hr | exact mem_flatMap_snoc hr
  · refine List.forall_mem_cons.mpr ⟨fun hheld ↦ hid (held_text.mp hheld), ?_⟩
    exact List.forall_mem_singleton.mpr fun hheld ↦ hkey (held_column.mp hheld)
  · refine List.forall_mem_append.mpr ⟨List.forall_mem_append.mpr ⟨?_, ?_⟩, ?_⟩
    · refine List.forall_mem_cons.mpr ⟨.inr (held_column.mpr htaxonomy), ?_⟩
      exact List.forall_mem_singleton.mpr (.inr (held_column.mpr hsystem))
    · exact forall_optionalKey.mpr fun k hk ↦ .inr (held_column.mpr (hagent k hk))
    · refine forall_optionalKey.mpr fun k hk ↦ ?_
      obtain ⟨successor, hsuperseded, rfl⟩ := Option.map_eq_some_iff.mp hk
      cases List.mem_cons.mp (hsuccessor successor hsuperseded) with
      | inl hself => exact .inl (by rw [hself]; exact List.mem_cons_self)
      | inr hother => exact .inr (held_text.mpr hother)

theorem insertLink_accepts {ledger ledger' : Ledger} {link : AssertionEvidenceRow}
    (h : ledger.insertLink link = .ok ledger') :
    ledger.catalogue.Accepts ledger'.catalogue
      [(.assertionEvidence, [link.assertionId.text, link.evidenceId.text, link.relation.value])]
      (linkReferences link) := by
  unfold Ledger.insertLink at h
  split_ifs at h with hlink hforeign
  obtain rfl := Except.ok.inj h
  simp only [not_or, not_not] at hforeign
  refine ⟨fun i ↦ ?_, fun i r hr ↦ ?_, by simp, ?_, ?_⟩
  · cases i <;> first | exact (List.append_nil _).symm | exact List.map_append
  · cases i <;> first | exact .inl hr | exact mem_flatMap_snoc hr
  · refine List.forall_mem_singleton.mpr fun hheld ↦ hlink ?_
    obtain ⟨r, hr, hcolumns⟩ := List.mem_map.mp hheld
    injection hcolumns with hassertion hrest
    injection hrest with hevidence hrest
    injection hrest with hrelation
    have hsame : r = link := by
      cases r
      cases link
      rw [AssertionEvidenceRow.mk.injEq]
      exact ⟨Id.ext_text hassertion, Id.ext_text hevidence,
        EvidenceRelation.value_injective hrelation⟩
    exact hsame ▸ hr
  · refine List.forall_mem_cons.mpr ⟨.inr (held_text.mpr hforeign.1), ?_⟩
    exact List.forall_mem_singleton.mpr (.inr (held_text.mpr hforeign.2))

theorem addObservation_accepts {ledger ledger' : Ledger} {observation : Observation}
    (h : ledger.addObservation observation = .ok ledger') :
    ledger.catalogue.Accepts ledger'.catalogue [(.observations, [observation.id.text])]
      (observationReferences observation) := by
  unfold Ledger.addObservation at h
  split_ifs at h with hid hforeign
  obtain rfl := Except.ok.inj h
  simp only [not_or, not_not] at hforeign
  refine ⟨fun i ↦ ?_, fun i r hr ↦ ?_, by simp, ?_, ?_⟩
  · cases i <;> first | exact (List.append_nil _).symm | exact List.map_append
  · cases i <;> first | exact .inl hr | exact mem_flatMap_snoc hr
  · exact List.forall_mem_singleton.mpr fun hheld ↦ hid (held_text.mp hheld)
  · refine List.forall_mem_cons.mpr ⟨.inr (held_text.mpr hforeign.1), ?_⟩
    exact List.forall_mem_singleton.mpr (.inr (held_text.mpr hforeign.2))

theorem appendLifecycle_accepts {ledger ledger' : Ledger} {event : LifecycleEvent}
    (h : ledger.appendLifecycle event = .ok ledger') :
    ledger.catalogue.Accepts ledger'.catalogue [(.lifecycleEvents, [event.id.text])]
      (lifecycleReferences event) := by
  obtain ⟨_, -, h⟩ := except_bind_ok.mp h
  split_ifs at h with hid hforeign
  obtain rfl := Except.ok.inj h
  simp only [not_or, not_not, not_exists, not_and] at hforeign
  obtain ⟨hsystem, hagent, hevidence⟩ := hforeign
  refine ⟨fun i ↦ ?_, fun i r hr ↦ ?_, by simp, ?_, ?_⟩
  · cases i <;> first | exact (List.append_nil _).symm | exact List.map_append
  · cases i <;> first | exact .inl hr | exact mem_flatMap_snoc hr
  · exact List.forall_mem_singleton.mpr fun hheld ↦ hid (held_text.mp hheld)
  · refine List.forall_mem_cons.mpr ⟨.inr (held_text.mpr hevidence),
      List.forall_mem_append.mpr ⟨?_, ?_⟩⟩
    · exact forall_optionalKey.mpr fun k hk ↦ .inr (held_column.mpr (hsystem k hk))
    · exact forall_optionalKey.mpr fun k hk ↦ .inr (held_column.mpr (hagent k hk))

theorem addAutonomy_accepts {ledger ledger' : Ledger} {assessment : AutonomyAssessment}
    (h : ledger.addAutonomy assessment = .ok ledger') :
    ledger.catalogue.Accepts ledger'.catalogue [(.autonomyAssessments, [assessment.id])]
      (autonomyReferences assessment) := by
  unfold Ledger.addAutonomy at h
  split_ifs at h with hid hforeign
  obtain rfl := Except.ok.inj h
  simp only [not_or, not_not, not_exists, not_and] at hforeign
  refine ⟨fun i ↦ ?_, fun i r hr ↦ ?_, by simp, ?_, ?_⟩
  · cases i <;> first | exact (List.append_nil _).symm | exact List.map_append
  · cases i <;> first | exact .inl hr | exact mem_flatMap_snoc hr
  · exact List.forall_mem_singleton.mpr fun hheld ↦ hid (held_column.mp hheld)
  · refine List.forall_mem_cons.mpr ⟨.inr (held_column.mpr hforeign.1), ?_⟩
    exact forall_optionalKey.mpr fun k hk ↦ .inr (held_column.mpr (hforeign.2 k hk))

def packetEntry : PacketEntity → Index × List String
  | .control item => (.controls, [item.id])
  | .architecturePattern item => (.architecturePatterns, [item.id])
  | .model item => (.models, [item.id])
  | .harness item => (.harnesses, [item.id])
  | .benchmark item => (.benchmarks, [item.id])
  | .provenance item => (.sourceProvenance, [item.sourceId.text, item.derivativeOfSourceId.text])
  | .benchmarkResult item => (.benchmarkResults, [item.id])
  | .materialChange item => (.materialChangeExamples, [item.id.text])

def packetReferences : PacketEntity → List (Index × List String)
  | .control item => [(.taxonomyVersions, [item.taxonomyVersion])]
  | .architecturePattern item => [(.taxonomyVersions, [item.taxonomyVersion])]
  | .model _ | .harness _ | .benchmark _ | .materialChange _ => []
  | .provenance item => provenanceReferences item
  | .benchmarkResult item => benchmarkReferences item

theorem addPacketEntity_tables {ledger ledger' : Ledger} {entity : PacketEntity}
    (h : ledger.addPacketEntity entity = .ok ledger') :
    (∀ i, ledger'.held i = ledger.held i ++ entered [packetEntry entity] i) ∧
      ∀ i, ∀ r ∈ ledger'.references i, r ∈ ledger.references i ∨ r ∈ packetReferences entity := by
  cases entity with
  | provenance item =>
    unfold Ledger.addPacketEntity at h
    dsimp only at h
    split_ifs at h
    obtain ⟨rows, hrows, rfl⟩ := except_map_ok.mp h
    obtain ⟨-, -, rfl⟩ := insertRow_ok hrows
    refine ⟨fun i ↦ ?_, fun i r hr ↦ ?_⟩
    · cases i <;> first | exact (List.append_nil _).symm | exact List.map_append
    · cases i <;> first | exact .inl hr | exact mem_flatMap_snoc hr
  | control | architecturePattern | model | harness | benchmark | benchmarkResult | materialChange =>
    obtain ⟨rows, hrows, rfl⟩ := except_map_ok.mp h
    obtain ⟨-, -, rfl⟩ := insertRow_ok hrows
    refine ⟨fun i ↦ ?_, fun i r hr ↦ ?_⟩
    · cases i <;> first | exact (List.append_nil _).symm | exact List.map_append
    · cases i <;> first | exact .inl hr | exact mem_flatMap_snoc hr

theorem addPacketEntity_fresh {ledger ledger' : Ledger} {entity : PacketEntity}
    (h : ledger.addPacketEntity entity = .ok ledger') :
    (packetEntry entity).2 ∉ ledger.held (packetEntry entity).1 ∧
      ∀ r ∈ packetReferences entity, r.2 ∈ ledger.held r.1 := by
  cases entity with
  | control item | architecturePattern item =>
    obtain ⟨rows, hrows, -⟩ := except_map_ok.mp h
    obtain ⟨hfresh, hresolved, -⟩ := insertRow_ok hrows
    refine ⟨fun hheld ↦ hfresh (held_column.mp hheld), List.forall_mem_singleton.mpr ?_⟩
    exact held_column.mpr (of_decide_eq_true hresolved)
  | model item | harness item | benchmark item =>
    obtain ⟨rows, hrows, -⟩ := except_map_ok.mp h
    obtain ⟨hfresh, -, -⟩ := insertRow_ok hrows
    exact ⟨fun hheld ↦ hfresh (held_column.mp hheld), fun r hr ↦ by cases hr⟩
  | materialChange item =>
    obtain ⟨rows, hrows, -⟩ := except_map_ok.mp h
    obtain ⟨hfresh, -, -⟩ := insertRow_ok hrows
    exact ⟨fun hheld ↦ hfresh (held_text.mp hheld), fun r hr ↦ by cases hr⟩
  | provenance item =>
    unfold Ledger.addPacketEntity at h
    dsimp only at h
    split_ifs at h
    obtain ⟨rows, hrows, -⟩ := except_map_ok.mp h
    obtain ⟨hfresh, hresolved, -⟩ := insertRow_ok hrows
    simp only [Bool.and_eq_true, decide_eq_true_eq] at hresolved
    refine ⟨fun hheld ↦ hfresh ?_, List.forall_mem_cons.mpr ⟨held_text.mpr hresolved.1, ?_⟩⟩
    · obtain ⟨r, hr, hcolumns⟩ := List.mem_map.mp hheld
      injection hcolumns with hsource hrest
      injection hrest with horiginal
      exact List.mem_map.mpr ⟨r, hr, Prod.ext (Id.ext_text hsource) (Id.ext_text horiginal)⟩
    · exact List.forall_mem_singleton.mpr (held_text.mpr hresolved.2)
  | benchmarkResult item =>
    obtain ⟨rows, hrows, -⟩ := except_map_ok.mp h
    obtain ⟨hfresh, hresolved, -⟩ := insertRow_ok hrows
    simp only [Bool.and_eq_true, decide_eq_true_eq] at hresolved
    obtain ⟨⟨⟨hbenchmark, hmodel⟩, hharness⟩, hevidence⟩ := hresolved
    refine ⟨fun hheld ↦ hfresh (held_column.mp hheld),
      List.forall_mem_cons.mpr ⟨held_column.mpr hbenchmark, ?_⟩⟩
    refine List.forall_mem_cons.mpr ⟨held_column.mpr hmodel,
      List.forall_mem_cons.mpr ⟨held_column.mpr hharness, ?_⟩⟩
    exact List.forall_mem_singleton.mpr (held_text.mpr hevidence)

theorem addPacketEntity_accepts {ledger ledger' : Ledger} {entity : PacketEntity}
    (h : ledger.addPacketEntity entity = .ok ledger') :
    ledger.catalogue.Accepts ledger'.catalogue [packetEntry entity] (packetReferences entity) := by
  obtain ⟨hheld, hreferences⟩ := addPacketEntity_tables h
  obtain ⟨hfresh, hresolved⟩ := addPacketEntity_fresh h
  exact ⟨hheld, hreferences, List.nodup_singleton _, List.forall_mem_singleton.mpr hfresh,
    fun r hr ↦ .inr (hresolved r hr)⟩

theorem addDiff_accepts {ledger ledger' : Ledger} {diff : StructuredDiff}
    (h : ledger.addDiff diff = .ok ledger') :
    ledger.catalogue.Accepts ledger'.catalogue [(.structuredDiffs, [diff.id.text])]
      (diffReferences (diffRow diff)) := by
  unfold Ledger.addDiff at h
  split at h
  · cases h
  next rows hinsert =>
    obtain ⟨hfresh, rfl⟩ := Table.insert_eq_some.mp hinsert
    split_ifs at h with hforeign
    obtain rfl := Except.ok.inj h
    simp only [not_or, not_not] at hforeign
    obtain ⟨hsource, hold, hnew⟩ := hforeign
    refine ⟨fun i ↦ ?_, fun i r hr ↦ ?_, by simp, ?_, ?_⟩
    · cases i <;> first | exact (List.append_nil _).symm | exact List.map_append
    · cases i <;> first | exact .inl hr | exact mem_flatMap_snoc hr
    · exact List.forall_mem_singleton.mpr fun hheld ↦ hfresh (held_text.mp hheld)
    · refine List.forall_mem_cons.mpr ⟨.inr (held_text.mpr hsource), ?_⟩
      refine List.forall_mem_cons.mpr ⟨.inr (held_text.mpr hold), ?_⟩
      exact List.forall_mem_singleton.mpr (.inr (held_text.mpr hnew))

theorem insertReview_foreignKeys {ledger ledger' : Ledger} {row : ReviewRow}
    (h : insertReview ledger row = .ok ledger') :
    row.candidateId ∈ ledger.structuredDiffs.map DiffRow.id ∧
      row.methodologyVersion ∈ ledger.methodologyVersions.map MethodologyRow.id := by
  unfold insertReview at h
  dsimp only at h
  split_ifs at h with _ _ _ _ _ hforeign
  simpa only [not_or, not_not] using hforeign

def reviewIndex (row : ReviewRow) : Index × List String :=
  match row.priorReviewId with
  | none => (.machineProposals, [row.candidateId.text])
  | some prior => (.successors, [prior.text])

theorem addReview_accepts {ledger ledger' : Ledger} {review : ChangeReviewItem}
    (h : ledger.addReview review = .ok ledger') :
    ledger.catalogue.Accepts ledger'.catalogue
      [(.changeReviewQueue, [review.id.text]), reviewIndex (reviewRow review)]
      (reviewReferences (reviewRow review)) := by
  obtain ⟨hcandidate, hmethodology⟩ := insertReview_foreignKeys h
  obtain ⟨hprior, -, -, hfresh, hroot, hsuccessor, rfl⟩ := insertReview_ok h
  refine ⟨fun i ↦ ?_, fun i r hr ↦ ?_, ?_, ?_, ?_⟩
  · cases hp : (reviewRow review).priorReviewId with
    | none =>
      simp only [reviewIndex, hp]
      cases i
      case machineProposals => simp [Ledger.catalogue, Ledger.held, entered, hp]
      case successors => simp [Ledger.catalogue, Ledger.held, entered, hp]
      all_goals first | exact (List.append_nil _).symm | exact List.map_append
    | some prior =>
      simp only [reviewIndex, hp]
      cases i
      case machineProposals => simp [Ledger.catalogue, Ledger.held, entered, hp]
      case successors => simp [Ledger.catalogue, Ledger.held, entered, hp]
      all_goals first | exact (List.append_nil _).symm | exact List.map_append
  · cases i <;> first | exact .inl hr | exact mem_flatMap_snoc hr
  · unfold reviewIndex
    split <;> simp
  · refine List.forall_mem_cons.mpr
      ⟨fun hheld ↦ hfresh (held_text.mp hheld), List.forall_mem_singleton.mpr ?_⟩
    intro hheld
    cases hp : (reviewRow review).priorReviewId with
    | none =>
      simp only [reviewIndex, hp] at hheld
      obtain ⟨r, hr, hcandidateIs⟩ := List.mem_map.mp hheld
      obtain ⟨hr, hnone⟩ := List.mem_filter.mp hr
      injection hcandidateIs with htext
      exact hroot hp r hr (Option.isNone_iff_eq_none.mp hnone) (Id.ext_text htext)
    | some prior =>
      simp only [reviewIndex, hp] at hheld
      obtain ⟨r, hr, hpriorIs⟩ := List.mem_filterMap.mp hheld
      obtain ⟨prior', hprior', htext⟩ := Option.map_eq_some_iff.mp hpriorIs
      injection htext with htext
      have hsame : r.priorReviewId = (reviewRow review).priorReviewId := by
        rw [hprior', hp, Id.ext_text htext]
      exact hsuccessor (by rw [hp]; exact Option.some_ne_none prior) r hr hsame
  · refine List.forall_mem_append.mpr ⟨?_, forall_optionalKey.mpr fun k hk ↦ ?_⟩
    · refine List.forall_mem_cons.mpr ⟨.inr (held_text.mpr hcandidate), ?_⟩
      exact List.forall_mem_singleton.mpr (.inr (held_column.mpr hmethodology))
    · -- the trigger found the row that the prior id names
      obtain ⟨prior, hp, rfl⟩ := Option.map_eq_some_iff.mp hk
      obtain ⟨row, hrow, hpreserved⟩ := hprior (by rw [hp]; rfl)
      simp only [ReviewRow.preservedBy, Bool.and_eq_true, decide_eq_true_eq] at hpreserved
      have hid : row.id = prior := Option.some.inj (hpreserved.1.1.1.1.1.1.trans hp)
      exact .inr (held_text.mpr (hid ▸ List.mem_map_of_mem hrow))

theorem addConfirmedChange_accepts {ledger ledger' : Ledger} {change : MaterialChange}
    {reviewId : String} (h : ledger.addConfirmedChange change reviewId = .ok ledger') :
    ledger.catalogue.Accepts ledger'.catalogue [(.confirmedChanges, [change.id.text])]
      [(.changeReviewQueue, [reviewId])] := by
  obtain ⟨_, review, hreview, -, -, htext, -, hfresh, rfl⟩ := addConfirmedChange_ok h
  refine ⟨fun i ↦ ?_, fun i r hr ↦ ?_, by simp, ?_, ?_⟩
  · cases i <;> first | exact (List.append_nil _).symm | exact List.map_append
  · cases i <;> first | exact .inl hr | exact htext ▸ mem_flatMap_snoc hr
  · exact List.forall_mem_singleton.mpr fun hheld ↦ hfresh (held_text.mp hheld)
  · exact List.forall_mem_singleton.mpr (.inr (htext ▸ held_text.mpr (List.mem_map_of_mem hreview)))

theorem addConflict_accepts {ledger ledger' : Ledger} {conflict : ContradictionFlag}
    (h : ledger.addConflict conflict = .ok ledger') :
    ledger.catalogue.Accepts ledger'.catalogue [(.contradictionFlags, [conflict.id.text])] [] := by
  obtain ⟨hfresh, rfl⟩ := addConflict_ok h
  refine ⟨fun i ↦ ?_, fun i r hr ↦ ?_, by simp, ?_, by simp⟩
  · cases i <;> first | exact (List.append_nil _).symm | exact List.map_append
  · cases i <;> exact .inl hr
  · exact List.forall_mem_singleton.mpr fun hheld ↦ hfresh (held_text.mp hheld)

theorem confirmed_view {β : Type} (view : FlagRow → β)
    (hview : ∀ r : FlagRow, view { r with status := .confirmed } = view r) (p : FlagRow → Bool)
    (flags : List FlagRow) :
    (Table.updateWhere p (fun r ↦ { r with status := .confirmed }) flags).map view =
      flags.map view :=
  Table.updateWhere_keys hview flags

theorem addResolution_accepts {ledger ledger' : Ledger} {resolution : ContradictionResolution}
    (h : ledger.addResolution resolution = .ok ledger') :
    ledger.catalogue.Accepts ledger'.catalogue [(.contradictionResolutions, [resolution.id.text])]
      [(.contradictionFlags, [resolution.conflictId])] := by
  obtain ⟨hfresh, hflag, rfl⟩ := addResolution_ok.mp h
  have hflags : (Table.updateWhere (fun r : FlagRow ↦ r.id.text = resolution.conflictId)
      (fun r ↦ { r with status := .confirmed }) ledger.contradictionFlags).map
        (fun r ↦ [r.id.text]) =
      ledger.contradictionFlags.map fun r ↦ [r.id.text] :=
    confirmed_view (fun r ↦ [r.id.text]) (fun _ ↦ rfl) _ _
  refine ⟨fun i ↦ ?_, fun i r hr ↦ ?_, by simp, ?_, ?_⟩
  · cases i
    case contradictionFlags => exact hflags.trans (List.append_nil _).symm
    all_goals first | exact (List.append_nil _).symm | exact List.map_append
  · cases i <;> first | exact .inl hr | exact mem_flatMap_snoc hr
  · exact List.forall_mem_singleton.mpr fun hheld ↦ hfresh (held_text.mp hheld)
  · exact List.forall_mem_singleton.mpr (.inr (held_column.mpr hflag))

theorem syncSource_sourceIds {ledger ledger' : Ledger} {source : Source}
    (h : ledger.syncSource source = .ok ledger') :
    (∃ added, ledger.addSource source = .ok added ∧ ledger' = added) ∨
      ∃ sources, ledger' = { ledger with sources } ∧
        sources.map SourceRow.id = ledger.sources.map SourceRow.id := by
  unfold Ledger.syncSource at h
  split at h
  · exact .inl ⟨ledger', h, rfl⟩
  · split_ifs at h
    · exact .inr ⟨ledger.sources, (Except.ok.inj h).symm, rfl⟩
    · have hkeys :
          (Table.updateWhere (fun r ↦ r.id = source.id)
            (fun _ ↦ sourceRow source) ledger.sources).map
          SourceRow.id = ledger.sources.map SourceRow.id :=
        Table.replaceKey_keys (show (sourceRow source).id = source.id from rfl) ledger.sources
      exact .inr ⟨_, (Except.ok.inj h).symm, hkeys⟩

theorem syncSource_sound {ledger ledger' : Ledger} {source : Source}
    (h : ledger.syncSource source = .ok ledger') (hsound : ledger.catalogue.Sound) :
    ledger'.catalogue.Sound := by
  obtain ⟨added, hadded, rfl⟩ | ⟨sources, rfl, hids⟩ := syncSource_sourceIds h
  · exact (addSource_accepts hadded).sound hsound
  · have hheld : sources.map (fun r ↦ [r.id.text]) = ledger.sources.map fun r ↦ [r.id.text] := by
      have htexts := congrArg (List.map fun id : SourceId ↦ [id.text]) hids
      rwa [List.map_map, List.map_map] at htexts
    have hsame : Ledger.held { ledger with sources } = ledger.held := by
      funext i
      cases i
      case sources => exact hheld
      all_goals rfl
    refine ⟨fun i ↦ ?_, fun i r hr ↦ ?_⟩
    · change (Ledger.held { ledger with sources } i).Nodup
      rw [hsame]
      exact hsound.unique i
    · change r.2 ∈ Ledger.held { ledger with sources } r.1
      rw [hsame]
      exact hsound.resolved i r hr

theorem insertLinks_ok {ledger ledger' : Ledger} {links : List AssertionEvidenceRow}
    (h : links.foldlM Ledger.insertLink ledger = .ok ledger') :
    ledger' = { ledger with assertionEvidence := ledger.assertionEvidence ++ links } ∧
      (ledger.catalogue.Sound → ledger'.catalogue.Sound) := by
  induction links generalizing ledger with
  | nil =>
    obtain rfl := Except.ok.inj h
    exact ⟨by rw [List.append_nil], fun hsound ↦ hsound⟩
  | cons link links ih =>
    obtain ⟨linked, hlink, hrest⟩ := except_bind_ok.mp h
    obtain ⟨hledger, hsound⟩ := ih hrest
    have hone := insertLink_ok hlink
    refine ⟨?_, fun hstart ↦ hsound ((insertLink_accepts hlink).sound hstart)⟩
    rw [hledger, hone, List.append_assoc, List.singleton_append]

theorem addAssertion_ok {ledger ledger' : Ledger} {assertion : Assertion}
    (h : ledger.addAssertion assertion = .ok ledger') :
    ledger' = { ledger with
      assertions := ledger.assertions ++ [assertion]
      assertionEvidence := ledger.assertionEvidence ++ supportingRows assertion } ∧
      (ledger.catalogue.Sound → ledger'.catalogue.Sound) := by
  obtain ⟨inserted, hinsert, hlinks⟩ := except_bind_ok.mp h
  obtain ⟨hledger, hsound⟩ := insertLinks_ok hlinks
  refine ⟨?_, fun hstart ↦ hsound ((insertAssertion_accepts hinsert).sound hstart)⟩
  rw [hledger, insertAssertion_ok hinsert]

variable {contentSha256 : String → Sha256}

theorem perform_sound {ledger ledger' : Ledger} {call : RepositoryCall}
    (h : ledger.perform contentSha256 call = .ok ledger') (hsound : ledger.catalogue.Sound) :
    ledger'.catalogue.Sound := by
  cases call with
  | evidence call =>
    cases call with
    | addSource source => exact (addSource_accepts h).sound hsound
    | syncSource source => exact syncSource_sound h hsound
    | addSnapshot snapshot => exact (addSnapshot_accepts h).sound hsound
    | addEvidence evidence => exact (addEvidence_accepts h).sound hsound
  | pass2 call =>
    cases call with
    | addDiff diff => exact (addDiff_accepts h).sound hsound
    | addReview review => exact (addReview_accepts h).sound hsound
    | addConfirmedChange change reviewId => exact (addConfirmedChange_accepts h).sound hsound
    | addConflict conflict => exact (addConflict_accepts h).sound hsound
    | addResolution resolution => exact (addResolution_accepts h).sound hsound
  | addAssertion assertion => exact (addAssertion_ok h).2 hsound
  | addObservation observation => exact (addObservation_accepts h).sound hsound
  | appendLifecycle event => exact (appendLifecycle_accepts h).sound hsound
  | addVendor vendor => exact (addVendor_accepts h).sound hsound
  | addSystem system => exact (addSystem_accepts h).sound hsound
  | addAgent agent => exact (addAgent_accepts h).sound hsound
  | addCapability capability => exact (addCapability_accepts h).sound hsound
  | addAutonomy assessment => exact (addAutonomy_accepts h).sound hsound
  | addPacketEntity entity => exact (addPacketEntity_accepts h).sound hsound

theorem addPacketEntity_keeps {ledger ledger' : Ledger} {entity : PacketEntity}
    (h : ledger.addPacketEntity entity = .ok ledger') : ledger.Keeps ledger' := by
  cases entity with
  | provenance item =>
    unfold Ledger.addPacketEntity at h
    dsimp only at h
    split_ifs at h
    obtain ⟨rows, hrows, rfl⟩ := except_map_ok.mp h
    obtain ⟨-, -, rfl⟩ := insertRow_ok hrows
    constructor <;> first | rfl | exact List.prefix_append _ _
  | control | architecturePattern | model | harness | benchmark | benchmarkResult | materialChange =>
    obtain ⟨rows, hrows, rfl⟩ := except_map_ok.mp h
    obtain ⟨-, -, rfl⟩ := insertRow_ok hrows
    constructor <;> first | rfl | exact List.prefix_append _ _

theorem perform_keeps {ledger ledger' : Ledger} {call : RepositoryCall}
    (h : ledger.perform contentSha256 call = .ok ledger') : ledger.Keeps ledger' := by
  cases call with
  | evidence call =>
    cases call with
    | addSource source =>
      obtain ⟨-, rfl⟩ := addSource_ok h
      constructor <;> first | rfl | exact List.map_append ▸ List.prefix_append _ _
    | syncSource source =>
      obtain ⟨added, hadded, rfl⟩ | ⟨sources, rfl, hids⟩ := syncSource_sourceIds h
      · obtain ⟨-, rfl⟩ := addSource_ok hadded
        constructor <;> first | rfl | exact List.map_append ▸ List.prefix_append _ _
      · constructor <;> first | rfl | exact hids ▸ List.prefix_rfl
    | addSnapshot snapshot =>
      obtain rfl := addSnapshot_ok h
      constructor <;> first | rfl | exact List.prefix_append _ _
    | addEvidence evidence =>
      obtain ⟨_, _, -, -, -, -, -, -, -, -, rfl⟩ := addEvidence_ok h
      constructor <;> first | rfl | exact List.prefix_append _ _
  | pass2 call =>
    cases call with
    | addDiff diff =>
      obtain rfl := addDiff_ok h
      constructor <;> first | rfl | exact List.prefix_append _ _
    | addReview review =>
      obtain ⟨-, -, -, -, -, -, rfl⟩ := insertReview_ok h
      constructor <;> first | rfl | exact List.prefix_append _ _
    | addConfirmedChange change reviewId =>
      obtain ⟨_, _, -, -, -, -, -, -, rfl⟩ := addConfirmedChange_ok h
      constructor <;> first | rfl | exact List.prefix_append _ _
    | addConflict conflict =>
      obtain ⟨-, rfl⟩ := addConflict_ok h
      constructor <;> first | rfl | exact List.map_append ▸ List.prefix_append _ _
    | addResolution resolution =>
      obtain ⟨-, -, rfl⟩ := addResolution_ok.mp h
      constructor
      case contradictionFlags =>
        exact (confirmed_view FlagRow.payload (fun _ ↦ rfl) _ ledger.contradictionFlags).symm ▸
          List.prefix_rfl
      all_goals first | rfl | exact List.prefix_append _ _
  | addAssertion assertion =>
    obtain ⟨rfl, -⟩ := addAssertion_ok h
    constructor <;> first | rfl | exact List.prefix_append _ _
  | addObservation observation =>
    obtain rfl := addObservation_ok h
    constructor <;> first | rfl | exact List.prefix_append _ _
  | appendLifecycle event =>
    obtain ⟨-, rfl⟩ := appendLifecycle_ok h
    constructor <;> first | rfl | exact List.prefix_append _ _
  | addVendor vendor =>
    obtain rfl := addVendor_ok h
    constructor <;> first | rfl | exact List.prefix_append _ _
  | addSystem system =>
    obtain rfl := addSystem_ok h
    constructor <;> first | rfl | exact List.prefix_append _ _
  | addAgent agent =>
    obtain rfl := addAgent_ok h
    constructor <;> first | rfl | exact List.prefix_append _ _
  | addCapability capability =>
    obtain rfl := addCapability_ok h
    constructor <;> first | rfl | exact List.prefix_append _ _
  | addAutonomy assessment =>
    obtain rfl := addAutonomy_ok h
    constructor <;> first | rfl | exact List.prefix_append _ _
  | addPacketEntity entity => exact addPacketEntity_keeps h

def Ledger.assertionTables (ledger : Ledger) : List Assertion × List AssertionEvidenceRow :=
  (ledger.assertions, ledger.assertionEvidence)

theorem perform_assertionTables {ledger ledger' : Ledger} {call : RepositoryCall}
    (h : ledger.perform contentSha256 call = .ok ledger')
    (hcall : ∀ assertion, call ≠ .addAssertion assertion) :
    ledger'.assertionTables = ledger.assertionTables := by
  cases call with
  | evidence call =>
    cases call with
    | addSource source =>
      obtain ⟨-, rfl⟩ := addSource_ok h
      rfl
    | syncSource source =>
      obtain ⟨added, hadded, rfl⟩ | ⟨sources, rfl, -⟩ := syncSource_sourceIds h
      · obtain ⟨-, rfl⟩ := addSource_ok hadded
        rfl
      · rfl
    | addSnapshot snapshot =>
      obtain rfl := addSnapshot_ok h
      rfl
    | addEvidence evidence =>
      obtain ⟨_, _, -, -, -, -, -, -, -, -, rfl⟩ := addEvidence_ok h
      rfl
  | pass2 call =>
    cases call with
    | addDiff diff =>
      obtain rfl := addDiff_ok h
      rfl
    | addReview review =>
      obtain ⟨-, -, -, -, -, -, rfl⟩ := insertReview_ok h
      rfl
    | addConfirmedChange change reviewId =>
      obtain ⟨_, _, -, -, -, -, -, -, rfl⟩ := addConfirmedChange_ok h
      rfl
    | addConflict conflict =>
      obtain ⟨-, rfl⟩ := addConflict_ok h
      rfl
    | addResolution resolution =>
      obtain ⟨-, -, rfl⟩ := addResolution_ok.mp h
      rfl
  | addAssertion assertion => exact absurd rfl (hcall assertion)
  | addObservation observation =>
    obtain rfl := addObservation_ok h
    rfl
  | appendLifecycle event =>
    obtain ⟨-, rfl⟩ := appendLifecycle_ok h
    rfl
  | addVendor vendor =>
    obtain rfl := addVendor_ok h
    rfl
  | addSystem system =>
    obtain rfl := addSystem_ok h
    rfl
  | addAgent agent =>
    obtain rfl := addAgent_ok h
    rfl
  | addCapability capability =>
    obtain rfl := addCapability_ok h
    rfl
  | addAutonomy assessment =>
    obtain rfl := addAutonomy_ok h
    rfl
  | addPacketEntity entity =>
    obtain ⟨packet, rfl⟩ := addPacketEntity_ok h
    rfl

theorem perform_intact {ledger ledger' : Ledger} {call : RepositoryCall}
    (h : ledger.perform contentSha256 call = .ok ledger') (hintact : ledger.Intact) :
    ledger'.Intact := by
  refine ⟨perform_sound h hintact.sound, ?_⟩
  by_cases hcall : ∃ assertion, call = .addAssertion assertion
  · obtain ⟨assertion, rfl⟩ := hcall
    obtain ⟨rfl, -⟩ := addAssertion_ok h
    change ledger.assertionEvidence ++ _ = (ledger.assertions ++ [assertion]).flatMap supportingRows
    rw [hintact.linked, List.flatMap_append, List.flatMap_cons, List.flatMap_nil, List.append_nil]
  · have htables := perform_assertionTables h fun assertion heq ↦ hcall ⟨assertion, heq⟩
    rw [show ledger'.assertionEvidence = ledger.assertionEvidence from congrArg Prod.snd htables,
      show ledger'.assertions = ledger.assertions from congrArg Prod.fst htables]
    exact hintact.linked

/-- What a call leaves on an open connection: the insert of an assertion that raises at one of its
links keeps the rows before it, and every other call is one statement that writes. -/
def Ledger.written (contentSha256 : String → Sha256) (ledger : Ledger) : RepositoryCall → Ledger
  | .addAssertion assertion =>
    match ledger.insertAssertion assertion with
    | .error _ => ledger
    | .ok inserted =>
      (Transactions.upToError Ledger.insertLink inserted (supportingRows assertion)).1
  | call => attempt (Ledger.perform contentSha256) ledger call

/-- A call in a transaction of its own, or on a connection whose caller goes on after a refusal. -/
structure MadeCall where
  call : RepositoryCall
  transaction : Bool

def Ledger.make (contentSha256 : String → Sha256) (ledger : Ledger) (made : MadeCall) : Ledger :=
  if made.transaction then attempt (Ledger.perform contentSha256) ledger made.call
  else ledger.written contentSha256 made.call

def Ledger.makeAll (contentSha256 : String → Sha256) (ledger : Ledger) (calls : List MadeCall) :
    Ledger :=
  calls.foldl (Ledger.make contentSha256) ledger

theorem upToError_insertLink (ledger : Ledger) (links : List AssertionEvidenceRow) :
    (ledger.catalogue.Sound →
      (Transactions.upToError Ledger.insertLink ledger links).1.catalogue.Sound) ∧
    ∃ part, part <+: links ∧ (Transactions.upToError Ledger.insertLink ledger links).1 =
      { ledger with assertionEvidence := ledger.assertionEvidence ++ part } := by
  induction links generalizing ledger with
  | nil => exact ⟨id, [], List.prefix_rfl, by rw [List.append_nil]; rfl⟩
  | cons link links ih =>
    cases hlink : ledger.insertLink link with
    | error error =>
      simp only [Transactions.upToError, hlink]
      exact ⟨id, [], List.nil_prefix, by rw [List.append_nil]⟩
    | ok linked =>
      simp only [Transactions.upToError, hlink]
      obtain ⟨hsound, part, hpart, hrest⟩ := ih linked
      refine ⟨fun hstart ↦ hsound ((insertLink_accepts hlink).sound hstart), link :: part, ?_, ?_⟩
      · exact List.cons_prefix_cons.mpr ⟨rfl, hpart⟩
      · rw [hrest, insertLink_ok hlink, List.append_assoc, List.singleton_append]

theorem written_addAssertion (ledger : Ledger) (assertion : Assertion) :
    ledger.written contentSha256 (.addAssertion assertion) = ledger ∨
      ∃ part, part <+: supportingRows assertion ∧
        ledger.written contentSha256 (.addAssertion assertion) = { ledger with
          assertions := ledger.assertions ++ [assertion]
          assertionEvidence := ledger.assertionEvidence ++ part } ∧
        (ledger.catalogue.Sound →
          (ledger.written contentSha256 (.addAssertion assertion)).catalogue.Sound) := by
  cases hinsert : ledger.insertAssertion assertion with
  | error error => exact .inl (by simp only [Ledger.written, hinsert])
  | ok inserted =>
    have hleft : ledger.written contentSha256 (.addAssertion assertion) =
        (Transactions.upToError Ledger.insertLink inserted (supportingRows assertion)).1 := by
      simp only [Ledger.written, hinsert]
    obtain ⟨hsound, part, hpart, hwritten⟩ :=
      upToError_insertLink inserted (supportingRows assertion)
    rw [hleft]
    refine .inr ⟨part, hpart, ?_,
      fun hstart ↦ hsound ((insertAssertion_accepts hinsert).sound hstart)⟩
    rw [hwritten, insertAssertion_ok hinsert]

theorem attempt_perform_keeps (ledger : Ledger) (call : RepositoryCall) :
    ledger.Keeps (attempt (Ledger.perform contentSha256) ledger call) := by
  cases hcall : ledger.perform contentSha256 call with
  | ok ledger' => rw [attempt_ok hcall]; exact perform_keeps hcall
  | error error => rw [attempt_error hcall]; exact .refl ledger

theorem written_keeps (ledger : Ledger) (call : RepositoryCall) :
    ledger.Keeps (ledger.written contentSha256 call) := by
  cases call with
  | addAssertion assertion =>
    rcases written_addAssertion ledger assertion with hsame | ⟨part, -, hwritten, -⟩
    · rw [hsame]
      exact .refl ledger
    · rw [hwritten]
      constructor <;> first | rfl | exact List.prefix_append _ _
  | _ => exact attempt_perform_keeps ledger _

theorem attempt_perform_consistent {ledger : Ledger} (h : ledger.Consistent)
    (call : RepositoryCall) :
    (attempt (Ledger.perform contentSha256) ledger call).Consistent := by
  cases hcall : ledger.perform contentSha256 call with
  | error error => rw [attempt_error hcall]; exact h
  | ok ledger' =>
    rw [attempt_ok hcall]
    obtain ⟨parts, hparts, hlinks⟩ := h.listed
    refine ⟨perform_sound hcall h.sound, ?_⟩
    by_cases hadd : ∃ assertion, call = .addAssertion assertion
    · obtain ⟨assertion, rfl⟩ := hadd
      obtain ⟨rfl, -⟩ := addAssertion_ok hcall
      refine ⟨parts ++ [supportingRows assertion], ?_, ?_⟩
      · exact List.rel_append hparts (.cons List.prefix_rfl .nil)
      · change ledger.assertionEvidence ++ _ = _
        rw [hlinks, List.flatten_append, List.flatten_singleton]
    · have htables := perform_assertionTables hcall fun assertion heq ↦ hadd ⟨assertion, heq⟩
      rw [show ledger'.assertions = ledger.assertions from congrArg Prod.fst htables,
        show ledger'.assertionEvidence = ledger.assertionEvidence from congrArg Prod.snd htables]
      exact ⟨parts, hparts, hlinks⟩

theorem written_consistent {ledger : Ledger} (h : ledger.Consistent) (call : RepositoryCall) :
    (ledger.written contentSha256 call).Consistent := by
  cases call with
  | addAssertion assertion =>
    rcases @written_addAssertion contentSha256 ledger assertion with hsame | ⟨part, hpart,
      hwritten, hsound⟩
    · rw [hsame]
      exact h
    · obtain ⟨parts, hparts, hlinks⟩ := h.listed
      refine ⟨hsound h.sound, parts ++ [part], ?_, ?_⟩
      · rw [hwritten]
        exact List.rel_append hparts (.cons hpart .nil)
      · rw [hwritten, List.flatten_append, List.flatten_singleton, ← hlinks]
  | _ => exact attempt_perform_consistent h _

theorem attempt_perform_intact {ledger : Ledger} (h : ledger.Intact) (call : RepositoryCall) :
    (attempt (Ledger.perform contentSha256) ledger call).Intact := by
  cases hcall : ledger.perform contentSha256 call with
  | ok ledger' => rw [attempt_ok hcall]; exact perform_intact hcall h
  | error error => rw [attempt_error hcall]; exact h

theorem makeAll_consistent {ledger : Ledger} (h : ledger.Consistent) (calls : List MadeCall) :
    (ledger.makeAll contentSha256 calls).Consistent := by
  induction calls generalizing ledger with
  | nil => exact h
  | cons made calls ih =>
    refine ih ?_
    unfold Ledger.make
    split_ifs
    · exact attempt_perform_consistent h made.call
    · exact written_consistent h made.call

theorem makeAll_intact {ledger : Ledger} (h : ledger.Intact) {calls : List MadeCall}
    (htransactions : ∀ made ∈ calls, made.transaction = true) :
    (ledger.makeAll contentSha256 calls).Intact := by
  induction calls generalizing ledger with
  | nil => exact h
  | cons made calls ih =>
    obtain ⟨hmade, hrest⟩ := List.forall_mem_cons.mp htransactions
    refine ih ?_ hrest
    rw [Ledger.make, if_pos hmade]
    exact attempt_perform_intact h made.call

theorem makeAll_keeps (ledger : Ledger) (calls : List MadeCall) :
    ledger.Keeps (ledger.makeAll contentSha256 calls) := by
  induction calls generalizing ledger with
  | nil => exact .refl ledger
  | cons made calls ih =>
    refine Ledger.Keeps.trans ?_ (ih _)
    unfold Ledger.make
    split_ifs
    · exact attempt_perform_keeps ledger made.call
    · exact written_keeps ledger made.call

/-- Whatever calls are made on the repositories, whichever of them are refused, and whether a
refused one is rolled back or not, every key stays unique, every reference resolves, and no row
that was written is lost or changed. The links of the assertions are exactly those that they list
where each call has its transaction. -/
theorem ledger_stays_intact (contentSha256 : String → Sha256) {ledger : Ledger}
    (h : ledger.Consistent) (calls more : List MadeCall) :
    (ledger.makeAll contentSha256 calls).Consistent ∧
      (ledger.Intact → (∀ made ∈ calls, made.transaction = true) →
        (ledger.makeAll contentSha256 calls).Intact) ∧
      (ledger.makeAll contentSha256 calls).Keeps
        (ledger.makeAll contentSha256 (calls ++ more)) := by
  refine ⟨makeAll_consistent h calls,
    fun hintact htransactions ↦ makeAll_intact hintact htransactions, ?_⟩
  unfold Ledger.makeAll
  rw [List.foldl_append]
  exact makeAll_keeps _ more

def metadataLedger : Ledger where
  methodologyVersions :=
    [{ id := "ASI-1.0", publishedAt := .midnight sampleDay, description := "", normalizerVersion := "" }]
  taxonomyVersions := [{ id := "ASI-TAXONOMY-1.1", publishedAt := .midnight sampleDay }]

theorem metadataLedger_intact : metadataLedger.Intact := by
  refine ⟨⟨fun i ↦ ?_, fun i r hr ↦ ?_⟩, rfl⟩
  · cases i <;> first | exact List.nodup_nil | exact List.nodup_singleton _
  · cases i <;> cases hr

def sampleSystem (id vendorId : String) : System where
  id := id
  vendorId := vendorId
  name := id
  category := "platform"
  description := ""
  firstObservedAt := .midnight sampleDay
  lastVerifiedAt := .midnight sampleDay

def vendorCalls : List RepositoryCall :=
  [.addVendor { id := "acme", name := "Acme", website := "https://acme.example" },
    .addSystem (sampleSystem "guard" "acme"), .addSystem (sampleSystem "ghost" "nobody")]

def danglingAssertion : Assertion where
  id := { text := "ASRT-DANGLING" }
  assertionKey := "guard:_system:triage:supports:alerts"
  taxonomyVersion := "ASI-TAXONOMY-1.1"
  systemId := "guard"
  slots :=
    { system := "guard", subjectType := .capability, subject := "triage", action := "supports",
      object := "alerts" }
  statement := "Guard triages alerts."
  canonicalRendering := "Guard triages alerts."
  state := .affirmed
  supportConfidence := .medium
  supportConfidenceRationale := ""
  firstSeenAt := .midnight sampleDay
  retrievedAt := .midnight sampleDay
  lastSeenAt := .midnight sampleDay
  firstObservedAt := .midnight sampleDay
  lastVerifiedAt := .midnight sampleDay
  methodologyVersion := "ASI-1.0"
  evidenceIds := [{ text := "EV-NOWHERE" }]

def haltControl : Control where
  id := "halt"
  name := "Halt"
  description := ""
  taxonomyVersion := "ASI-TAXONOMY-1.1"

def danglingCalls : List MadeCall :=
  vendorCalls.map (fun call ↦ ⟨call, true⟩) ++
    [⟨.addPacketEntity (.control haltControl), true⟩, ⟨.addAssertion danglingAssertion, false⟩]

theorem ledger_stays_intact_danglingCalls :
    let after := metadataLedger.makeAll (fun _ ↦ zeroHash) danglingCalls
    after.systems.map (·.id) = ["guard"] ∧ after.assertions.length = 1 ∧
      after.assertionEvidence = [] ∧ after.Consistent ∧
      after.Keeps (metadataLedger.makeAll (fun _ ↦ zeroHash) (danglingCalls ++ [])) := by
  obtain ⟨hconsistent, -, hkeeps⟩ :=
    ledger_stays_intact (fun _ ↦ zeroHash) metadataLedger_intact.consistent danglingCalls []
  exact ⟨by decide +kernel, by decide +kernel, by decide +kernel, hconsistent, hkeeps⟩

theorem held_nodup {ρ : Type} {rows : List ρ} {key : ρ → String}
    (h : (rows.map fun r ↦ [key r]).Nodup) :
    (rows.map key).Nodup := by
  have hmap : (rows.map fun r ↦ [key r]) = (rows.map key).map fun k ↦ [k] := by
    rw [List.map_map]
    rfl
  exact List.Nodup.of_map _ (hmap ▸ h)

theorem resolves_column {ρ σ : Type} {ledger : Ledger} (h : ledger.Intact) {i j : Index}
    {rows : List ρ} {references : ρ → List (Index × List String)} {targets : List σ}
    {key : σ → String}
    (hrows : ledger.references i = rows.flatMap references)
    (htargets : ledger.held j = targets.map fun t ↦ [key t])
    {row : ρ} (hrow : row ∈ rows) {k : String} (hk : (j, [k]) ∈ references row) :
    ∃ t ∈ targets, key t = k := by
  have hmem : (j, [k]) ∈ ledger.references i := hrows ▸ List.mem_flatMap_of_mem hrow hk
  have hheld : [k] ∈ ledger.held j := h.sound.resolved i (j, [k]) hmem
  exact List.mem_map.mp (held_column.mp (htargets ▸ hheld))

namespace Ledger.Intact

variable {ledger : Ledger} (h : ledger.Intact)
include h

theorem vendor {system : System} (hsystem : system ∈ ledger.systems) :
    ∃ vendor ∈ ledger.vendors, vendor.id = system.vendorId :=
  resolves_column h (i := .systems) (j := .vendors) rfl rfl hsystem List.mem_cons_self

theorem agent_system {agent : Agent} (hagent : agent ∈ ledger.agents) :
    ∃ system ∈ ledger.systems, system.id = agent.systemId :=
  resolves_column h (i := .agents) (j := .systems) rfl rfl hagent List.mem_cons_self

theorem assertion_system {assertion : Assertion} (hassertion : assertion ∈ ledger.assertions) :
    ∃ system ∈ ledger.systems, system.id = assertion.systemId :=
  resolves_column h (i := .assertions) (j := .systems) rfl rfl hassertion
    (List.mem_cons_of_mem _ List.mem_cons_self)

theorem event_system {event : LifecycleEvent} (hevent : event ∈ ledger.lifecycleEvents)
    {id : String} (hid : event.systemId = some id) : ∃ system ∈ ledger.systems, system.id = id := by
  refine resolves_column h (i := .lifecycleEvents) (j := .systems) rfl rfl hevent ?_
  refine List.mem_cons_of_mem _ (List.mem_append_left _ ?_)
  rw [hid]
  exact List.mem_cons_self

end Ledger.Intact

end AgenticSecurity.Storage
