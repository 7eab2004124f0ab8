import AgenticSecurity.Site.Changes
import AgenticSecurity.Site.References

namespace AgenticSecurity.Site

open Models Python Storage Editorial Library.Runs

def Concerns (data : PublicationLedgerData) (change : MaterialChange) (systemId : String) : Prop :=
  ∃ assertion ∈ data.assertions, assertion.systemId = systemId ∧ assertion.id ∈ change.assertionIds

/-- The system shows the change as often as the payload lists it if the change concerns the
system, and otherwise not at all. -/
structure Attributed (data : PublicationLedgerData) (change : MaterialChange)
    (changes : List ChangeRow) (system : SystemRow) : Prop where
  shown : Concerns data change system.id →
    system.recentChanges.count (changeRow data change) = changes.count (changeRow data change)
  hidden : ¬ Concerns data change system.id → changeRow data change ∉ system.recentChanges

def named (data : PublicationLedgerData) (id : AssertionId) : Option Assertion :=
  data.assertions.reverse.find? fun assertion ↦ assertion.id = id

def firstNamed (data : PublicationLedgerData) (change : MaterialChange) : Option Assertion :=
  change.assertionIds.findSome? (named data)

/-- The change concerns no system but that of the first assertion it names. Where it names none,
no system has the id that stands for an unknown one. -/
def OneSystem (data : PublicationLedgerData) (change : MaterialChange) (systemId : String) : Prop :=
  match firstNamed data change with
  | some first => Concerns data change systemId → first.systemId = systemId
  | none => systemId ≠ "unknown"

section Rows

variable {data : PublicationLedgerData} {change : MaterialChange} {systemId : String}

theorem lookup_assertionsById (id : AssertionId) :
    (assertionsById data).lookup id = named data id := by
  rw [assertionsById, lookup_dictOf, ← List.map_reverse, named]
  induction data.assertions.reverse with
  | nil => rfl
  | cons assertion assertions ih =>
    by_cases hid : assertion.id = id
    · simp [hid]
    · have hne : (id == assertion.id) = false := beq_false_of_ne (Ne.symm hid)
      simp [List.lookup_cons, hne, hid, ih]

theorem changeRow_systemId : (changeRow data change).systemId =
    ((firstNamed data change).map (·.systemId)).getD "unknown" := by
  have hlookup : (fun id ↦ (assertionsById data).lookup id) = named data :=
    funext lookup_assertionsById
  simp only [changeRow, firstNamed, hlookup, List.head?_filterMap]

theorem concerns_of_firstNamed {first : Assertion} (h : firstNamed data change = some first) :
    Concerns data change first.systemId := by
  obtain ⟨id, hid, hnamed⟩ := List.exists_of_findSome?_eq_some h
  have hmem := List.mem_reverse.mp (List.mem_of_find?_eq_some hnamed)
  have hfirst : first.id = id := by simpa using List.find?_some hnamed
  exact ⟨first, hmem, rfl, hfirst ▸ hid⟩

theorem not_concerns_of_firstNamed (h : firstNamed data change = none) :
    ¬ Concerns data change systemId := by
  rintro ⟨assertion, hassertion, -, hid⟩
  have hnone : named data assertion.id = none := List.findSome?_eq_none_iff.mp h _ hid
  have hnot := List.find?_eq_none.mp hnone assertion (List.mem_reverse.mpr hassertion)
  simp at hnot

theorem oneSystem_iff : OneSystem data change systemId ↔
    (Concerns data change systemId ↔ (changeRow data change).systemId = systemId) := by
  rw [changeRow_systemId, OneSystem]
  cases hfirst : firstNamed data change with
  | some first =>
    constructor
    · intro hsystem
      exact ⟨hsystem, fun heq ↦ heq ▸ concerns_of_firstNamed hfirst⟩
    · intro hiff
      exact hiff.mp
  | none =>
    rw [iff_false_left (not_concerns_of_firstNamed hfirst)]
    exact ne_comm

theorem count_filter_iff {rows : List ChangeRow} {row : ChangeRow} (h : row ∈ rows) :
    (rows.filter fun item ↦ item.systemId = systemId).count row = rows.count row ↔
      row.systemId = systemId := by
  constructor
  · intro hcount
    by_contra hne
    have hnot : row ∉ rows.filter fun item ↦ item.systemId = systemId := fun hmem ↦
      hne (of_decide_eq_true (List.mem_filter.mp hmem).2)
    rw [List.count_eq_zero_of_not_mem hnot] at hcount
    exact absurd h (List.count_eq_zero.mp hcount.symm)
  · intro heq
    exact List.count_filter (decide_eq_true heq)

theorem attributed_iff {system : SystemRow} (hchange : change ∈ data.confirmedChanges)
    (hrecent : system.recentChanges =
      (changeRows data).filter fun item ↦ item.systemId = system.id) :
    Attributed data change (changeRows data) system ↔ OneSystem data change system.id := by
  have hrow : changeRow data change ∈ changeRows data := List.mem_map_of_mem hchange
  have hmem :
      changeRow data change ∈ (changeRows data).filter (fun item ↦ item.systemId = system.id) ↔
      (changeRow data change).systemId = system.id := by
    rw [List.mem_filter, decide_eq_true_eq, and_iff_right hrow]
  rw [oneSystem_iff]
  constructor
  · rintro ⟨hshown, hhidden⟩
    rw [hrecent, count_filter_iff hrow] at hshown
    rw [hrecent, hmem] at hhidden
    exact ⟨hshown, not_imp_not.mp hhidden⟩
  · intro hiff
    constructor
    · rw [hrecent, count_filter_iff hrow]
      exact hiff.mp
    · rw [hrecent, hmem]
      exact mt hiff.mpr

theorem once_of_distinct (hdistinct : (data.confirmedChanges.map (·.id)).Nodup)
    (hchange : change ∈ data.confirmedChanges) :
    (changeRows data).count (changeRow data change) = 1 := by
  have hids : ((changeRows data).map (·.id)).Nodup := by
    rw [changeRows, List.map_map]
    exact hdistinct
  exact List.count_eq_one_of_mem hids.of_map (List.mem_map_of_mem hchange)

end Rows

section Published

variable {unicode : UnicodeData} {cases : CaseData} {data : PublicationLedgerData}
  {now t : Datetime} {generatedAt semanticAsOf : Option Datetime} {canonicalBase : String}
    {payload : Payload}

theorem systemRow_changes {system : System} {row : SystemRow}
    (h : systemRow cases data t system = .ok row) :
    row.id = system.id ∧ row.recentChanges =
      (changeRows data).filter fun item ↦ item.systemId = system.id := by
  obtain ⟨vendor, -, h⟩ := except_bind_ok.mp h
  obtain ⟨autonomy, -, h⟩ := except_bind_ok.mp h
  obtain rfl := Except.ok.inj h
  exact ⟨rfl, rfl⟩

theorem systems_of_payload
    (h : buildSiteData cases data unicode now generatedAt semanticAsOf canonicalBase =
      .ok payload) :
    payload.systems.map (·.id) = data.systems.map (·.id) ∧ ∀ system ∈ payload.systems,
      system.recentChanges = (changeRows data).filter fun item ↦ item.systemId = system.id := by
  have hrows := (buildSiteData_ok h).1
  generalize data.systems = systems, payload.systems = rows at hrows ⊢
  induction hrows with
  | nil => exact ⟨rfl, fun system hsystem ↦ absurd hsystem List.not_mem_nil⟩
  | cons hrow _ ih =>
    obtain ⟨hid, hrecent⟩ := systemRow_changes hrow
    rw [List.map_cons, List.map_cons, hid, ih.1, List.forall_mem_cons, hid]
    exact ⟨rfl, hrecent, ih.2⟩

theorem changes_of_payload
    (h : buildSiteData cases data unicode now generatedAt semanticAsOf canonicalBase =
      .ok payload) :
    payload.changes = changeRows data := by
  obtain ⟨systems, -, h⟩ := except_bind_ok.mp h
  obtain ⟨reports, -, hpayload⟩ := except_bind_ok.mp h
  rw [← Except.ok.inj hpayload]

/-- Every system shows the changes that concern it, each once where their ids are distinct,
exactly when no change concerns two published systems. -/
theorem changes_attributed_iff (unicode : UnicodeData) (cases : CaseData)
    (data : PublicationLedgerData) (now : Datetime) (generatedAt semanticAsOf : Option Datetime)
    (canonicalBase : String) (payload : Payload)
    (h : buildSiteData cases data unicode now generatedAt semanticAsOf canonicalBase =
      .ok payload) :
    ((∀ change ∈ data.confirmedChanges, ∀ system ∈ payload.systems,
        Attributed data change payload.changes system) ↔
      ∀ change ∈ data.confirmedChanges, ∀ system ∈ data.systems, OneSystem data change system.id) ∧
    ((data.confirmedChanges.map (·.id)).Nodup → ∀ change ∈ data.confirmedChanges,
      payload.changes.count (changeRow data change) = 1) := by
  obtain ⟨hids, hrecent⟩ := systems_of_payload h
  rw [changes_of_payload h]
  refine ⟨?_, fun hdistinct change hchange ↦ once_of_distinct hdistinct hchange⟩
  refine forall₂_congr fun change hchange ↦ ?_
  have hrows : (∀ system ∈ payload.systems, Attributed data change (changeRows data) system) ↔
      ∀ system ∈ payload.systems, OneSystem data change system.id :=
    forall₂_congr fun system hsystem ↦ attributed_iff hchange (hrecent system hsystem)
  rw [hrows, ← List.forall_mem_map (f := fun system : SystemRow ↦ system.id)
    (P := OneSystem data change), hids, List.forall_mem_map]

end Published

def auditSystem : System := { approvalSystem with id := "audit-system" }

def auditAssertion : Assertion :=
  { approvalAssertion with
    id := { text := "ASRT-AUDIT" }
    assertionKey := "audit-system:_system:approval:requires:human"
    systemId := "audit-system"
    slots := { approvalAssertion.slots with system := "audit-system" }
    accepted := by decide }

def approvalChange : MaterialChange :=
  { januaryChange with assertionIds := [approvalAssertion.id, auditAssertion.id] }

def auditData (change : MaterialChange) : PublicationLedgerData :=
  { approvalData with
    systems := [approvalSystem, auditSystem]
    assertions := [approvalAssertion, auditAssertion]
    confirmedChanges := [change] }

/-- It is shown under the first system only. -/
theorem change_of_two_systems :
    ∃ payload, buildSiteData asciiCases (auditData approvalChange) asciiData sampleTime none none
      "" = .ok payload ∧
      payload.systems.map (fun system ↦ system.recentChanges.map (·.id)) =
        [[approvalChange.id], []] ∧
      ∃ system ∈ payload.systems, Concerns (auditData approvalChange) approvalChange system.id ∧
        ¬ Attributed (auditData approvalChange) approvalChange payload.changes system := by
  have hconcerns : Concerns (auditData approvalChange) approvalChange "audit-system" :=
    ⟨auditAssertion, by decide, rfl, by decide⟩
  refine ⟨_, rfl, rfl, _, List.mem_cons_of_mem _ List.mem_cons_self, hconcerns, fun h ↦ ?_⟩
  exact absurd (h.shown hconcerns) (by decide)

def auditChange : MaterialChange := { januaryChange with assertionIds := [auditAssertion.id] }

theorem changes_attributed_iff_audit :
    ∃ payload, buildSiteData asciiCases (auditData auditChange) asciiData sampleTime none none "" =
      .ok payload ∧
      ∀ system ∈ payload.systems,
      Attributed (auditData auditChange) auditChange payload.changes system := by
  have h :=
    changes_attributed_iff asciiData asciiCases (auditData auditChange) sampleTime none
    none "" _ rfl
  refine ⟨_, rfl, h.1.mpr ?_ auditChange (List.mem_singleton_self _)⟩
  refine List.forall_mem_singleton.mpr fun system _ ↦ ?_
  have hfirst : firstNamed (auditData auditChange) auditChange = some auditAssertion := by decide
  rw [OneSystem, hfirst]
  rintro ⟨assertion, hassertion, hsystem, hid⟩
  rcases List.mem_pair.mp hassertion with rfl | rfl
  · exact absurd hid (by decide)
  · exact hsystem

end AgenticSecurity.Site
