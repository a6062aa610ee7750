import AgentScheduler.AssignmentRefinement
import AgentScheduler.Fanout

/-! Construction and recovery: a loaded instance is consistent, and holds what recovery leaves of the saved
authority. -/
namespace AgentScheduler
open Std KeyedTable Relation

/-! ### Rebuilding the indexes -/

/-- An instance without anything `rebuild_indexes` derives. -/
def Impl.stored (impl : Impl) : Impl :=
  { impl with
    indexAgentsByCapability := ∅
    indexAgentsByLifecycle := ∅
    indexAgentsByTenant := ∅
    indexAgentsByDomain := ∅
    indexWorkByQueue := ∅
    indexWorkByLifecycle := ∅
    indexAssignmentsByAgent := ∅
    indexAssignmentsByWork := ∅ }

section Rebuild
variable {impl : Impl}

/-- A loop that leaves everything a projection sees alone. -/
theorem foldl_project {State View Item : Type} {f : State → View} {g : State → Item → State}
    (hturn : ∀ state item, f (g state item) = f state) (items : List Item) (state : State) :
    f (items.foldl g state) = f state :=
  List.foldlRecOn (motive := fun after => f after = f state) items _ rfl
    fun after hafter item _ => (hturn after item).trans hafter

/-- What the agent and work passes of the rebuild leave alone. -/
private def assignmentIndexes (impl : Impl) : Impl × Table AgentId (IdSet AssignmentId) × Table WorkId (IdSet AssignmentId) :=
  (impl.stored, impl.indexAssignmentsByAgent, impl.indexAssignmentsByWork)

private theorem stored_indexAssignment (impl : Impl) (record : AssignmentRecord) :
    (indexAssignment impl record).stored = impl.stored := by
  unfold indexAssignment
  split <;> rfl

theorem mem_indexAssignment_work {record : AssignmentRecord} {work : WorkId} {member : AssignmentId} :
    member ∈ indexIds (indexAssignment impl record).indexAssignmentsByWork work ↔
      (record.state.isActive ∧ record.binding.work = work ∧ record.binding.id = member) ∨
        member ∈ indexIds impl.indexAssignmentsByWork work := by
  unfold indexAssignment
  by_cases hactive : record.state.isActive
  · rw [if_neg (by simpa using hactive), mem_indexIds_insert]
    simp only [hactive, true_and]
  · rw [if_pos (by simpa using hactive)]
    simp [hactive]

theorem mem_indexAssignment_agent {record : AssignmentRecord} {agent : AgentId} {member : AssignmentId} :
    member ∈ indexIds (indexAssignment impl record).indexAssignmentsByAgent agent ↔
      (record.state.isActive ∧ record.binding.agent = agent ∧ record.binding.id = member) ∨
        member ∈ indexIds impl.indexAssignmentsByAgent agent := by
  unfold indexAssignment
  by_cases hactive : record.state.isActive
  · rw [if_neg (by simpa using hactive), mem_indexIds_insert]
    simp only [hactive, true_and]
  · rw [if_pos (by simpa using hactive)]
    simp [hactive]

/-- A loop that adds what each item selects adds what some item selects. -/
private theorem foldl_adds {State Item : Type} {g : State → Item → State} {p : State → Prop}
    {q : Item → Prop} (hturn : ∀ state item, p (g state item) ↔ q item ∨ p state)
    (items : List Item) (state : State) :
    p (items.foldl g state) ↔ (∃ item ∈ items, q item) ∨ p state := by
  induction items generalizing state with
  | nil => simp
  | cons item items ih =>
    rw [List.foldl_cons, ih, hturn]
    simp only [List.mem_cons, exists_eq_or_imp, or_assoc]
    exact or_left_comm

private theorem foldl_adds_table {State Key Value : Type} [Ord Key] [TransOrd Key] [LawfulEqOrd Key]
    {table : ExtTreeMap Key Value compare} {g : State → Key × Value → State} {p : State → Prop}
    {q : Value → Prop} (hturn : ∀ state entry, p (g state entry) ↔ q entry.2 ∨ p state)
    (state : State) (hempty : ¬p state) :
    p (table.toList.foldl g state) ↔ ∃ (key : Key) (value : Value), table[key]? = some value ∧ q value := by
  refine (foldl_adds (p := p) (q := fun entry => q entry.2) hturn _ _).trans ?_
  simp only [hempty, or_false, Prod.exists, ExtTreeMap.mem_toList_iff_getElem?_eq_some]

/-- The instance on which the last pass of the rebuild starts. -/
private def beforeAssignments (impl : Impl) : Impl :=
  impl.work.toList.foldl (fun acc entry => indexWork acc entry.2)
    (impl.agents.toList.foldl (fun acc entry => indexAgent acc entry.2) impl.stored)

private theorem rebuildIndexes_eq (impl : Impl) :
    rebuildIndexes impl =
      impl.assignments.toList.foldl (fun acc entry => indexAssignment acc entry.2) (beforeAssignments impl) := rfl

private theorem beforeAssignments_indexes (impl : Impl) :
    assignmentIndexes (beforeAssignments impl) = (impl.stored, ∅, ∅) :=
  (foldl_project (g := fun acc (entry : WorkId × WorkRecord) => indexWork acc entry.2) (fun _ _ => rfl) _ _).trans
    (foldl_project (g := fun acc (entry : AgentId × AgentRecord) => indexAgent acc entry.2) (fun _ _ => rfl) _ _)

theorem stored_rebuildIndexes (impl : Impl) : (rebuildIndexes impl).stored = impl.stored := by
  rw [rebuildIndexes_eq]
  refine (foldl_project
    (g := fun acc (entry : AssignmentId × AssignmentRecord) => indexAssignment acc entry.2)
    (fun acc entry => stored_indexAssignment acc entry.2) _ _).trans ?_
  exact congrArg Prod.fst (beforeAssignments_indexes impl)

theorem mem_rebuildIndexes_work {work : WorkId} {member : AssignmentId} :
    member ∈ indexIds (rebuildIndexes impl).indexAssignmentsByWork work ↔
      ∃ (id : AssignmentId) (record : AssignmentRecord), impl.assignments[id]? = some record ∧
        record.state.isActive ∧ record.binding.work = work ∧ record.binding.id = member := by
  rw [rebuildIndexes_eq]
  refine foldl_adds_table
    (p := fun acc : Impl => member ∈ indexIds acc.indexAssignmentsByWork work)
    (q := fun record : AssignmentRecord => record.state.isActive ∧ record.binding.work = work ∧ record.binding.id = member)
    (fun acc entry => mem_indexAssignment_work) _ ?_
  have hindex : (beforeAssignments impl).indexAssignmentsByWork = ∅ :=
    congrArg (fun view => view.2.2) (beforeAssignments_indexes impl)
  simp [hindex, indexIds]

theorem mem_rebuildIndexes_agent {agent : AgentId} {member : AssignmentId} :
    member ∈ indexIds (rebuildIndexes impl).indexAssignmentsByAgent agent ↔
      ∃ (id : AssignmentId) (record : AssignmentRecord), impl.assignments[id]? = some record ∧
        record.state.isActive ∧ record.binding.agent = agent ∧ record.binding.id = member := by
  rw [rebuildIndexes_eq]
  refine foldl_adds_table
    (p := fun acc : Impl => member ∈ indexIds acc.indexAssignmentsByAgent agent)
    (q := fun record : AssignmentRecord => record.state.isActive ∧ record.binding.agent = agent ∧ record.binding.id = member)
    (fun acc entry => mem_indexAssignment_agent) _ ?_
  have hindex : (beforeAssignments impl).indexAssignmentsByAgent = ∅ :=
    congrArg (fun view => view.2.1) (beforeAssignments_indexes impl)
  simp [hindex, indexIds]

/-- The rebuild changes nothing that does not depend on the derived indexes. -/
theorem read_rebuildIndexes (impl : Impl) {View : Type*} {f : Impl → View} (hread : ∀ impl, f impl.stored = f impl) :
    f (rebuildIndexes impl) = f impl :=
  calc f (rebuildIndexes impl) = f (rebuildIndexes impl).stored := (hread _).symm
    _ = f impl.stored := by rw [stored_rebuildIndexes]
    _ = f impl := hread impl

/-- Well-keyed tables are coherent once their indexes are rebuilt, but for the counters of the work items. -/
theorem coherent_rebuildIndexes
    (hagentKey : Keyed (fun record : AgentRecord => record.descriptor.id) impl.agents)
    (hagentBoot : ∀ (agent : AgentId) record, impl.agents[agent]? = some record → record.descriptor.boot ≠ 0)
    (hworkKey : Keyed (fun record : WorkRecord => record.request.id) impl.work)
    (hassignmentKey : Keyed (fun record : AssignmentRecord => record.binding.id) impl.assignments)
    (hassignmentState : ∀ (id : AssignmentId) record, impl.assignments[id]? = some record →
      record.state.isActive ∨ record.state.isTerminal)
    (hleaseKey : Keyed Lease.id impl.leases) (hqueueKey : Keyed QueueRecord.id impl.queues)
    (htenantKey : Keyed TenantRecord.id impl.tenants) (hfencedKey : Keyed FencedBoot.boot impl.fencedBoots)
    (hunknown : ∀ work : WorkId, impl.work[work]? = none → impl.ledger.activeFor work = ∅) :
    Coherent Set.univ (rebuildIndexes impl) := by
  have hagents := read_rebuildIndexes impl (f := Impl.agents) fun _ => rfl
  have hwork := read_rebuildIndexes impl (f := Impl.work) fun _ => rfl
  have hassignments := read_rebuildIndexes impl (f := Impl.assignments) fun _ => rfl
  have hleases := read_rebuildIndexes impl (f := Impl.leases) fun _ => rfl
  have hqueues := read_rebuildIndexes impl (f := Impl.queues) fun _ => rfl
  have htenants := read_rebuildIndexes impl (f := Impl.tenants) fun _ => rfl
  have hfenced := read_rebuildIndexes impl (f := Impl.fencedBoots) fun _ => rfl
  have hledger := read_rebuildIndexes impl (f := Impl.ledger) fun _ => rfl
  have hexact : ∀ (p : AssignmentRecord → Prop) (member : AssignmentId),
      (∃ (id : AssignmentId) (record : AssignmentRecord), impl.assignments[id]? = some record ∧
        record.state.isActive ∧ p record ∧ record.binding.id = member) ↔ member ∈ impl.ledger.active p := by
    intro p member
    constructor
    · rintro ⟨id, record, hrecord, hactive, hp, rfl⟩
      have hkey : record.binding.id = id := hassignmentKey id record hrecord
      exact ⟨record, by rw [hkey]; exact hrecord, hactive, hp⟩
    · rintro ⟨record, hrecord, hactive, hp⟩
      exact ⟨member, record, hrecord, hactive, hp, hassignmentKey member record hrecord⟩
  refine ⟨?_, ?_, ?_, ?_, ?_, ?_, ?_, ?_, ?_, fun work member => ?_, fun agent member => ?_,
    fun work _ hfresh => (hfresh trivial).elim, fun work _ hfresh => (hfresh trivial).elim, ?_⟩
  · rwa [hagents]
  · rwa [hagents]
  · rwa [hwork]
  · rwa [hassignments]
  · rwa [hassignments]
  · rwa [hleases]
  · rwa [hqueues]
  · rwa [htenants]
  · rwa [hfenced]
  · rw [mem_rebuildIndexes_work, hledger]
    exact hexact (fun record => record.binding.work = work) member
  · rw [mem_rebuildIndexes_agent, hledger]
    exact hexact (fun record => record.binding.agent = agent) member
  · rwa [hwork, hledger]

/-! ### Refreshing every counter -/

theorem Coherent.refreshAgents {stale : Set WorkId} (h : Coherent stale impl) (agents : List AgentId) :
    Coherent stale (agents.foldl AgentScheduler.refreshAgentAccounting impl) ∧
      (agents.foldl AgentScheduler.refreshAgentAccounting impl).ledger = impl.ledger :=
  List.foldlRecOn (motive := fun after : Impl => Coherent stale after ∧ after.ledger = impl.ledger) agents _ ⟨h, rfl⟩
    fun after hafter agent _ =>
      ⟨hafter.1.refreshAgentAccounting agent, (ledger_refreshAgentAccounting after agent).trans hafter.2⟩

theorem Coherent.refreshWorks {stale : Set WorkId} (h : Coherent stale impl) (works : List WorkId) :
    Coherent (stale \ {work | work ∈ works}) (works.foldl AgentScheduler.refreshWorkAccounting impl) ∧
      (works.foldl AgentScheduler.refreshWorkAccounting impl).ledger = impl.ledger := by
  induction works generalizing impl stale with
  | nil =>
    refine ⟨?_, rfl⟩
    simpa using h
  | cons work works ih =>
    obtain ⟨hcoherent, hledger⟩ := ih (h.refreshWorkAccounting work)
    refine ⟨?_, hledger.trans (ledger_refreshWorkAccounting impl work)⟩
    refine hcoherent.mono fun other hother => ?_
    simp only [Set.mem_sdiff, Set.mem_singleton_iff, Set.mem_ofPred_eq, List.mem_cons] at hother ⊢
    exact ⟨hother.1.1, fun hmem => hmem.elim hother.1.2 hother.2⟩

theorem ledger_works_none {work : WorkId} : impl.ledger.works work = none ↔ impl.work[work]? = none := by
  simp [Impl.ledger]

/-- Once only unknown work is stale, nothing is. -/
theorem Coherent.consistent {stale : Set WorkId} (h : Coherent stale impl)
    (hstale : ∀ work ∈ stale, impl.work[work]? = none) : Consistent impl := by
  refine ⟨h.agentKey, h.agentBoot, h.workKey, h.assignmentKey, h.assignmentState, h.leaseKey, h.queueKey, h.tenantKey,
    h.fencedKey, h.workIndex, h.agentIndex, fun work record _ hrecord => ?_, fun work record _ hrecord => ?_, h.unknown⟩
  · refine h.current work record (fun hmem => ?_) hrecord
    rw [hstale work hmem] at hrecord
    cases hrecord
  · refine h.admitted work record (fun hmem => ?_) hrecord
    rw [hstale work hmem] at hrecord
    cases hrecord

/-- Rebuilt tables are consistent once every agent and every work item is refreshed. -/
theorem Coherent.refreshAll (h : Coherent Set.univ impl) :
    let refreshed := impl.agents.keys.foldl AgentScheduler.refreshAgentAccounting impl
    Consistent (refreshed.work.keys.foldl AgentScheduler.refreshWorkAccounting refreshed) ∧
      (refreshed.work.keys.foldl AgentScheduler.refreshWorkAccounting refreshed).ledger = impl.ledger := by
  intro refreshed
  obtain ⟨hagents, hledger⟩ := h.refreshAgents impl.agents.keys
  obtain ⟨hworks, hledger'⟩ := hagents.refreshWorks refreshed.work.keys
  refine ⟨hworks.consistent fun work hstale => ?_, hledger'.trans hledger⟩
  have habsent : refreshed.work[work]? = none :=
    ExtTreeMap.getElem?_eq_none fun hmem => hstale.2 (ExtTreeMap.mem_keys.mpr hmem)
  rw [← ledger_works_none, hledger']
  exact ledger_works_none.mpr habsent

end Rebuild

/-! ### Recovered records -/

theorem AgentRecord.recover_entry (record : AgentRecord) :
    record.recover.entry = { record.entry with capabilityCurrent := false } := rfl

theorem WorkRecord.recover_entry (record : WorkRecord) : record.recover.entry = record.entry := by
  unfold WorkRecord.recover WorkRecord.entry
  simp only
  split
  · next hrunning => rcases hrunning with hstate | hstate <;> simp [hstate, WorkLifecycle.isTerminal]
  · rfl

theorem AssignmentRecord.recover_isActive (record : AssignmentRecord) :
    record.recover.state.isActive = record.state.isActive := by
  unfold AssignmentRecord.recover
  split
  · next hactive =>
    rw [hactive]
    rfl
  · rfl

theorem AssignmentRecord.recover_id (record : AssignmentRecord) : record.recover.binding.id = record.binding.id := by
  unfold AssignmentRecord.recover
  split <;> rfl

/-- The tables of a file hold what recovery keeps of every record. -/
theorem ledger_install (impl file : Impl) : (install impl (image file)).ledger = file.ledger.recover impl.ledger := by
  refine Ledger.ext rfl rfl rfl rfl (funext fun agent => ?_) (funext fun work => ?_) (funext fun id => ?_)
  · change (file.agents.map fun _ record => record.recover)[agent]?.map AgentRecord.entry = _
    rw [getElem?_map]
    simp only [Ledger.recover, Impl.ledger, Option.map_map]
    rfl
  · change (file.work.map fun _ record => record.recover)[work]?.map WorkRecord.entry = _
    rw [getElem?_map, Option.map_map]
    exact congrArg (fun entry => (file.work[work]?).map entry) (funext WorkRecord.recover_entry)
  · change (file.assignments.map fun _ record => record.recover)[id]? = _
    rw [getElem?_map]
    rfl

/-- The tables of the file of a consistent instance are coherent once their indexes are rebuilt. -/
theorem coherent_install (impl : Impl) {file : Impl} (h : Consistent file) :
    Coherent Set.univ (rebuildIndexes (install impl (image file))) := by
  have hassignments : ∀ (id : AssignmentId) record, (install impl (image file)).assignments[id]? = some record →
      ∃ before, file.assignments[id]? = some before ∧ record = before.recover := by
    intro id record hrecord
    change (file.assignments.map fun _ record => record.recover)[id]? = some record at hrecord
    rw [getElem?_map] at hrecord
    obtain ⟨before, hbefore, rfl⟩ := Option.map_eq_some_iff.mp hrecord
    exact ⟨before, hbefore, rfl⟩
  refine coherent_rebuildIndexes (h.agentKey.map fun _ => rfl) (fun agent record hrecord => ?_)
    (h.workKey.map fun _ => rfl) (h.assignmentKey.map AssignmentRecord.recover_id) (fun id record hrecord => ?_)
    (h.leaseKey.map fun _ => rfl) h.queueKey h.tenantKey h.fencedKey fun work hnone => ?_
  · change (file.agents.map fun _ record => record.recover)[agent]? = some record at hrecord
    rw [getElem?_map] at hrecord
    obtain ⟨before, hbefore, rfl⟩ := Option.map_eq_some_iff.mp hrecord
    exact h.agentBoot agent before hbefore
  · obtain ⟨before, hbefore, rfl⟩ := hassignments id record hrecord
    rcases h.assignmentState id before hbefore with hactive | hterminal
    · exact .inl (before.recover_isActive.trans hactive)
    · right
      rw [AssignmentRecord.recover, if_neg (by rw [AssignmentState.not_isActive_of_isTerminal hterminal]; nofun)]
      exact hterminal
  · change (file.work.map fun _ record => record.recover)[work]? = none at hnone
    rw [getElem?_map, Option.map_eq_none_iff] at hnone
    have hidle := h.unknown work hnone
    refine Set.subset_empty_iff.mp (hidle ▸ ?_)
    rw [ledger_install impl file]
    exact (file.ledger.backed_recover impl.ledger).active (leaseBlind_work work)

/-- Loading the file of a consistent instance gives a consistent instance, with what recovery leaves of its
authority. -/
theorem restore_image (impl : Impl) {file : Impl} (h : Consistent file) :
    Consistent (restore impl (image file)) ∧
      (restore impl (image file)).ledger = file.ledger.recover impl.ledger := by
  obtain ⟨hconsistent, hrefreshed⟩ := (coherent_install impl h).refreshAll
  refine ⟨hconsistent.of_core (core_revise _), ?_⟩
  exact hrefreshed.trans ((read_rebuildIndexes _ (f := Impl.ledger) fun _ => rfl).trans (ledger_install impl file))

/-! ### Construction -/

/-- Tables without entries are consistent. -/
private theorem consistent_of_empty {impl : Impl} (hagents : impl.agents = ∅) (hwork : impl.work = ∅)
    (hassignments : impl.assignments = ∅) (hleases : impl.leases = ∅) (hqueues : impl.queues = ∅)
    (htenants : impl.tenants = ∅) (hfenced : impl.fencedBoots = ∅) (hbyWork : impl.indexAssignmentsByWork = ∅)
    (hbyAgent : impl.indexAssignmentsByAgent = ∅) : Consistent impl := by
  have hnone : ∀ p, impl.ledger.active p = ∅ := by
    refine fun p => Set.eq_empty_of_forall_notMem ?_
    rintro id ⟨record, hrecord, -⟩
    have hrecord : impl.assignments[id]? = some record := hrecord
    rw [hassignments, ExtTreeMap.getElem?_empty] at hrecord
    cases hrecord
  refine ⟨hagents ▸ Keyed.empty, fun agent record hrecord => ?_, hwork ▸ Keyed.empty, hassignments ▸ Keyed.empty,
    fun id record hrecord => ?_, hleases ▸ Keyed.empty, hqueues ▸ Keyed.empty, htenants ▸ Keyed.empty,
    hfenced ▸ Keyed.empty, fun work id => ?_, fun agent id => ?_, fun work record _ hrecord => ?_,
    fun work record _ hrecord => ?_, fun work _ => hnone _⟩
  · rw [hagents, ExtTreeMap.getElem?_empty] at hrecord
    cases hrecord
  · rw [hassignments, ExtTreeMap.getElem?_empty] at hrecord
    cases hrecord
  · rw [Ledger.activeFor, hnone, hbyWork]
    simp [indexIds]
  · rw [hnone, hbyAgent]
    simp [indexIds]
  · rw [hwork, ExtTreeMap.getElem?_empty] at hrecord
    cases hrecord
  · rw [hwork, ExtTreeMap.getElem?_empty] at hrecord
    cases hrecord

theorem core_start (impl : Impl) : (start impl).2.core = impl.core := by
  unfold start
  split <;> rfl

/-- A constructed instance is consistent, and knows no work and no assignment. -/
theorem construct_spec {options : SchedulerOptions} {generatedId : SchedulerId} {impl : Impl}
    (h : construct options generatedId = some impl) :
    Consistent impl ∧ (∀ work, impl.ledger.works work = none) ∧ ∀ id, impl.ledger.assignments id = none := by
  let base : Impl :=
    { limits := options.limits
      schedulerId := if options.schedulerId.isZero then generatedId else options.schedulerId
      policy := options.effectivePolicy }
  have hbase : Consistent base := consistent_of_empty rfl rfl rfl rfl rfl rfl rfl rfl rfl
  have hcore : impl.core = base.core := by
    unfold construct at h
    simp only at h
    split at h
    · rw [← Option.some.inj h]
      split
      · exact core_start base
      · rfl
    · cases h
  refine ⟨hbase.of_core hcore, fun work => ?_, fun id => ?_⟩
  · rw [ledger_of_core hcore]
    simp [Impl.ledger, base]
  · rw [ledger_of_core hcore]
    simp [Impl.ledger, base]

end AgentScheduler
