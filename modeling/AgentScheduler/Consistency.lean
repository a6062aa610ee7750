import AgentScheduler.KeyedTable
import AgentScheduler.Ledger

/-! Coherence of the stored tables with the derived indexes and counters, and the ledger an instance holds. -/
namespace AgentScheduler
open Std KeyedTable

def AgentRecord.entry (record : AgentRecord) : AgentEntry where
  generation := record.descriptor.generation
  boot := record.descriptor.boot
  profile := record.profile.profileId
  capabilityGeneration := record.profile.generation
  capabilityCurrent := record.capabilityCurrent

def WorkRecord.entry (record : WorkRecord) : WorkEntry where
  request := record.request
  settled := if record.lifecycle.isTerminal then some record.lifecycle else none
  lastGeneration := record.lastAssignmentGeneration

/-- The authority a scheduler instance holds. -/
def Impl.ledger (impl : Impl) : Ledger where
  scheduler := impl.schedulerId
  epoch := impl.schedulerEpoch
  policy := impl.policy.id
  policyGeneration := impl.policy.generation
  agents := fun agent => impl.agents[agent]?.map AgentRecord.entry
  works := fun work => impl.work[work]?.map WorkRecord.entry
  assignments := fun id => impl.assignments[id]?

/-- The tables, indexes and counters of an instance agree; the counters of `stale` work may be behind. -/
structure Coherent (stale : Set WorkId) (impl : Impl) : Prop where
  agentKey : Keyed (fun record : AgentRecord => record.descriptor.id) impl.agents
  agentBoot : ∀ (agent : AgentId) record, impl.agents[agent]? = some record → record.descriptor.boot ≠ 0
  workKey : Keyed (fun record : WorkRecord => record.request.id) impl.work
  assignmentKey : Keyed (fun record : AssignmentRecord => record.binding.id) impl.assignments
  assignmentState : ∀ (id : AssignmentId) record, impl.assignments[id]? = some record →
    record.state.isActive ∨ record.state.isTerminal
  leaseKey : Keyed Lease.id impl.leases
  queueKey : Keyed QueueRecord.id impl.queues
  tenantKey : Keyed TenantRecord.id impl.tenants
  fencedKey : Keyed FencedBoot.boot impl.fencedBoots
  workIndex : ∀ work id, id ∈ indexIds impl.indexAssignmentsByWork work ↔ id ∈ impl.ledger.activeFor work
  agentIndex : ∀ agent id, id ∈ indexIds impl.indexAssignmentsByAgent agent ↔
    id ∈ impl.ledger.active fun record => record.binding.agent = agent
  current : ∀ (work : WorkId) record, work ∉ stale → impl.work[work]? = some record →
    (impl.ledger.activeFor work).encard = record.currentAssignments
  admitted : ∀ (work : WorkId) record, work ∉ stale → impl.work[work]? = some record → record.lifecycle = .admitted →
    record.currentAssignments = 0
  unknown : ∀ work : WorkId, impl.work[work]? = none → impl.ledger.activeFor work = ∅

/-- Everything agrees. -/
abbrev Consistent (impl : Impl) : Prop := Coherent ∅ impl

/-! ### Bookkeeping that neither coherence nor the ledger depends on -/

/-- An instance without its bookkeeping: flags, counters, epochs of the coordinator, and the candidate indexes. -/
def Impl.core (impl : Impl) : Impl :=
  { impl with
    coordinatorEpoch := 0
    queueGeneration := 0
    nextAdmissionSequence := 0
    stateRevision := 0
    schedulingRounds := 0
    assignmentsCreated := 0
    assignmentsInvalidated := 0
    running := false
    admissionOpen := false
    shuttingDown := false
    shutdownAtMs := 0
    recovered := false
    indexAgentsByCapability := ∅
    indexAgentsByLifecycle := ∅
    indexAgentsByTenant := ∅
    indexAgentsByDomain := ∅
    indexWorkByQueue := ∅
    indexWorkByLifecycle := ∅ }

section Core
variable {impl impl' : Impl} {stale : Set WorkId}

private theorem coherent_core : Coherent stale impl.core ↔ Coherent stale impl := by
  constructor
  · rintro ⟨h1, h2, h3, h4, h5, h6, h7, h8, h9, h10, h11, h12, h13, h14⟩
    exact ⟨h1, h2, h3, h4, h5, h6, h7, h8, h9, h10, h11, h12, h13, h14⟩
  · rintro ⟨h1, h2, h3, h4, h5, h6, h7, h8, h9, h10, h11, h12, h13, h14⟩
    exact ⟨h1, h2, h3, h4, h5, h6, h7, h8, h9, h10, h11, h12, h13, h14⟩

theorem Coherent.of_core (h : Coherent stale impl) (heq : impl'.core = impl.core) : Coherent stale impl' :=
  coherent_core.mp (heq ▸ coherent_core.mpr h)

theorem ledger_of_core (heq : impl'.core = impl.core) : impl'.ledger = impl.ledger :=
  show impl'.core.ledger = impl.core.ledger by rw [heq]

@[simp] theorem core_revise (impl : Impl) : impl.revise.core = impl.core := rfl
@[simp] theorem core_indexAgent (impl : Impl) (record : AgentRecord) : (indexAgent impl record).core = impl.core := rfl
@[simp] theorem core_deindexAgent (impl : Impl) (agent : AgentId) : (deindexAgent impl agent).core = impl.core := rfl
@[simp] theorem core_indexWork (impl : Impl) (record : WorkRecord) : (indexWork impl record).core = impl.core := rfl
@[simp] theorem core_deindexWork (impl : Impl) (work : WorkId) : (deindexWork impl work).core = impl.core := rfl
@[simp] theorem core_takeSequence (impl : Impl) : impl.takeSequence.core = impl.core := rfl
@[simp] theorem core_syncAgentLifecycleIndex (impl : Impl) (agent : AgentId) (lifecycle : AgentLifecycle) :
    (syncAgentLifecycleIndex impl agent lifecycle).core = impl.core := rfl
@[simp] theorem core_syncWorkLifecycleIndex (impl : Impl) (work : WorkId) (lifecycle : WorkLifecycle) :
    (syncWorkLifecycleIndex impl work lifecycle).core = impl.core := rfl

@[simp] theorem core_indexStoredAgent (impl : Impl) (agent : AgentId) : (indexStoredAgent impl agent).core = impl.core := by
  unfold indexStoredAgent
  split <;> rfl

end Core

/-! ### The two assignment indexes -/

section Indexes
variable {Key Id : Type} [Ord Key] [TransOrd Key] [Ord Id] [TransOrd Id] [LawfulEqOrd Id]

private theorem mem_indexIds {index : Table Key (IdSet Id)} {key : Key} {id : Id} :
    id ∈ indexIds index key ↔ ∃ ids, index[key]? = some ids ∧ id ∈ ids := by
  unfold indexIds
  cases index[key]? <;> simp

theorem nodup_indexIds (index : Table Key (IdSet Id)) (key : Key) : (indexIds index key).Nodup := by
  unfold indexIds
  cases index[key]? with
  | none => exact List.nodup_nil
  | some ids =>
    refine (ExtTreeSet.distinct_toList (t := ids)).imp fun hne heq => hne ?_
    rw [heq]
    exact Std.compare_eq_iff_eq.mpr rfl

variable [LawfulEqOrd Key] [DecidableEq Key]

theorem mem_indexIds_insert {index : Table Key (IdSet Id)} {key other : Key} {id member : Id} :
    member ∈ indexIds (indexInsert index key id) other ↔
      (key = other ∧ id = member) ∨ member ∈ indexIds index other := by
  unfold indexInsert
  rw [mem_indexIds, mem_indexIds, KeyedTable.getElem?_insert]
  by_cases hkey : key = other
  · subst hkey
    rw [if_pos rfl]
    cases hids : index[key]? with
    | none => simp [ExtTreeMap.getD_eq_getD_getElem?, hids]
    | some ids => simp [ExtTreeMap.getD_eq_getD_getElem?, hids]
  · simp [hkey]

theorem mem_indexIds_erase {index : Table Key (IdSet Id)} {key other : Key} {id member : Id} :
    member ∈ indexIds (indexErase index key id) other ↔
      member ∈ indexIds index other ∧ ¬(key = other ∧ id = member) := by
  unfold indexErase
  cases hids : index[key]? with
  | none =>
    simp only [mem_indexIds]
    constructor
    · rintro ⟨ids, hother, hmem⟩
      refine ⟨⟨ids, hother, hmem⟩, ?_⟩
      rintro ⟨rfl, -⟩
      rw [hids] at hother
      cases hother
    · exact And.left
  | some ids =>
    simp only
    split
    · next hempty =>
      rw [mem_indexIds, mem_indexIds, ExtTreeMap.getElem?_erase]
      by_cases hkey : key = other
      · subst hkey
        have hnone : ∀ x, x ∉ ids.erase id := by
          rw [ExtTreeSet.isEmpty_iff] at hempty
          simp [hempty]
        have hall : ∀ x, x ∈ ids → x = id := fun x hx => by
          by_contra hne
          exact hnone x (ExtTreeSet.mem_erase.mpr ⟨fun heq => hne (Std.compare_eq_iff_eq.mp heq).symm, hx⟩)
        simp only [Std.compare_eq_iff_eq, if_true, hids]
        constructor
        · rintro ⟨_, hfalse, -⟩
          cases hfalse
        · rintro ⟨⟨found, hfound, hmem⟩, hne⟩
          rw [← Option.some.inj hfound] at hmem
          exact (hne ⟨trivial, (hall member hmem).symm⟩).elim
      · simp [hkey]
    · rw [mem_indexIds, mem_indexIds, KeyedTable.getElem?_insert]
      by_cases hkey : key = other
      · subst hkey
        simp only [if_true, Option.some.injEq, exists_eq_left', hids, true_and]
        rw [ExtTreeSet.mem_erase]
        constructor
        · rintro ⟨hne, hmem⟩
          exact ⟨hmem, fun heq => hne (Std.compare_eq_iff_eq.mpr heq)⟩
        · rintro ⟨hmem, hne⟩
          exact ⟨fun heq => hne (Std.compare_eq_iff_eq.mp heq), hmem⟩
      · simp [hkey]

end Indexes

/-! ### Stored agents -/

section Stored
variable {impl : Impl} {stale : Set WorkId}

@[simp] theorem ledger_setAgent (impl : Impl) (agent : AgentId) (record : AgentRecord) :
    (impl.setAgent agent record).ledger = impl.ledger.setAgent agent record.entry := by
  refine Ledger.ext rfl rfl rfl rfl (funext fun other => ?_) rfl rfl
  simp only [Impl.ledger, Impl.setAgent, Ledger.setAgent, KeyedTable.getElem?_insert, Function.update_apply,
    eq_comm (a := agent)]
  split <;> rfl

theorem ledger_setAgent_same {agent : AgentId} {old record : AgentRecord} (hold : impl.agents[agent]? = some old)
    (hentry : record.entry = old.entry) : (impl.setAgent agent record).ledger = impl.ledger := by
  rw [ledger_setAgent, hentry]
  refine Ledger.ext rfl rfl rfl rfl (Function.update_eq_self_iff.mpr ?_) rfl rfl
  simp [Impl.ledger, hold]

theorem Coherent.setAgent {agent : AgentId} {record : AgentRecord} (h : Coherent stale impl)
    (hkey : record.descriptor.id = agent) (hboot : record.descriptor.boot ≠ 0) :
    Coherent stale (impl.setAgent agent record) := by
  refine ⟨h.agentKey.insert hkey, fun other found hfound => ?_, h.workKey, h.assignmentKey,
    h.assignmentState, h.leaseKey, h.queueKey, h.tenantKey, h.fencedKey, h.workIndex, h.agentIndex, h.current,
    h.admitted, h.unknown⟩
  rw [Impl.setAgent, KeyedTable.getElem?_insert] at hfound
  split at hfound
  · rw [← Option.some.inj hfound]
    exact hboot
  · exact h.agentBoot other found hfound

theorem modifyAgent_eq_setAgent {agent : AgentId} {record : AgentRecord} {update : AgentRecord → AgentRecord}
    (h : impl.agents[agent]? = some record) : impl.modifyAgent agent update = impl.setAgent agent (update record) := by
  unfold Impl.modifyAgent Impl.setAgent
  rw [modify_eq_insert h]

@[simp] theorem recomputeLifecycle_descriptor (record : AgentRecord) :
    (recomputeLifecycle record).descriptor = record.descriptor := by
  unfold recomputeLifecycle
  repeat' split
  all_goals rfl

@[simp] theorem recomputeLifecycle_entry (record : AgentRecord) : (recomputeLifecycle record).entry = record.entry := by
  unfold recomputeLifecycle
  repeat' split
  all_goals rfl

@[simp] theorem ledger_refreshAgentAccounting (impl : Impl) (agent : AgentId) :
    (refreshAgentAccounting impl agent).ledger = impl.ledger := by
  unfold refreshAgentAccounting
  cases hagent : impl.agents[agent]? with
  | none => rfl
  | some record =>
    refine (ledger_of_core (core_syncAgentLifecycleIndex _ _ _)).trans (ledger_setAgent_same hagent ?_)
    exact recomputeLifecycle_entry _

theorem Coherent.refreshAgentAccounting (h : Coherent stale impl) (agent : AgentId) :
    Coherent stale (refreshAgentAccounting impl agent) := by
  unfold AgentScheduler.refreshAgentAccounting
  cases hagent : impl.agents[agent]? with
  | none => exact h
  | some record =>
    refine (h.setAgent ?_ ?_).of_core (core_syncAgentLifecycleIndex _ _ _)
    · rw [recomputeLifecycle_descriptor]
      exact h.agentKey agent record hagent
    · rw [recomputeLifecycle_descriptor]
      exact h.agentBoot agent record hagent

/-! ### Stored work -/

@[simp] theorem ledger_setWork (impl : Impl) (work : WorkId) (record : WorkRecord) :
    (impl.setWork work record).ledger = impl.ledger.setWork work record.entry := by
  refine Ledger.ext rfl rfl rfl rfl rfl (funext fun other => ?_) rfl
  simp only [Impl.ledger, Impl.setWork, Ledger.setWork, KeyedTable.getElem?_insert, Function.update_apply,
    eq_comm (a := work)]
  split <;> rfl

theorem ledger_setWork_same {work : WorkId} {old record : WorkRecord} (hold : impl.work[work]? = some old)
    (hentry : record.entry = old.entry) : (impl.setWork work record).ledger = impl.ledger := by
  rw [ledger_setWork, hentry]
  refine Ledger.ext rfl rfl rfl rfl rfl (Function.update_eq_self_iff.mpr ?_) rfl
  simp [Impl.ledger, hold]

theorem modifyWork_eq_setWork {work : WorkId} {record : WorkRecord} {update : WorkRecord → WorkRecord}
    (h : impl.work[work]? = some record) : impl.modifyWork work update = impl.setWork work (update record) := by
  unfold Impl.modifyWork Impl.setWork
  rw [modify_eq_insert h]

/-- Storing a work record whose counters are right, or are allowed to be behind. -/
theorem Coherent.setWork {work : WorkId} {record : WorkRecord} (h : Coherent stale impl)
    (hkey : record.request.id = work)
    (hcurrent : work ∉ stale → (impl.ledger.activeFor work).encard = record.currentAssignments)
    (hadmitted : work ∉ stale → record.lifecycle = .admitted → record.currentAssignments = 0) :
    Coherent stale (impl.setWork work record) := by
  have hcases : ∀ (other : WorkId) found, (impl.setWork work record).work[other]? = some found →
      (work = other ∧ found = record) ∨ impl.work[other]? = some found := by
    intro other found hfound
    rw [Impl.setWork, KeyedTable.getElem?_insert] at hfound
    split at hfound
    · next heq => exact .inl ⟨heq, (Option.some.inj hfound).symm⟩
    · exact .inr hfound
  refine ⟨h.agentKey, h.agentBoot, h.workKey.insert hkey, h.assignmentKey, h.assignmentState, h.leaseKey,
    h.queueKey, h.tenantKey, h.fencedKey, h.workIndex, h.agentIndex, fun other found hstale hfound => ?_,
    fun other found hstale hfound => ?_, fun other hnone => ?_⟩
  · rcases hcases other found hfound with ⟨rfl, rfl⟩ | hstored
    · exact hcurrent hstale
    · exact h.current other found hstale hstored
  · rcases hcases other found hfound with ⟨rfl, rfl⟩ | hstored
    · exact hadmitted hstale
    · exact h.admitted other found hstale hstored
  · rw [Impl.setWork, KeyedTable.getElem?_insert] at hnone
    split at hnone
    · cases hnone
    · exact h.unknown other hnone

theorem encard_of_list {α : Type} [DecidableEq α] {list : List α} {s : Set α} (hnodup : list.Nodup)
    (hmem : ∀ x, x ∈ list ↔ x ∈ s) : s.encard = list.length := by
  have hset : s = (list.toFinset : Set α) := by
    ext x
    simp [hmem]
  rw [hset, Set.encard_coe_eq_coe_finsetCard, List.toFinset_card_of_nodup hnodup]

theorem isActiveId_iff {id : AssignmentId} :
    isActiveId impl id ↔ ∃ record, impl.ledger.assignments id = some record ∧ record.state.isActive := by
  unfold isActiveId Impl.ledger
  cases hstored : impl.assignments[id]? <;> simp [hstored]

/-- Ids that an index holds under a key are exactly the active ones, so filtering by activity keeps them all. -/
private theorem mem_filter_active {ids : List AssignmentId} {p : AssignmentRecord → Prop}
    (hmem : ∀ id, id ∈ ids ↔ id ∈ impl.ledger.active p) (id : AssignmentId) :
    id ∈ ids.filter (isActiveId impl) ↔ id ∈ impl.ledger.active p := by
  rw [List.mem_filter, hmem]
  constructor
  · exact And.left
  · rintro ⟨record, hrecord, hactive, hp⟩
    exact ⟨⟨record, hrecord, hactive, hp⟩, isActiveId_iff.mpr ⟨record, hrecord, hactive⟩⟩

/-- The number of active assignments of a work item, as the index gives it. -/
theorem Coherent.encard_activeFor (h : Coherent stale impl) (work : WorkId) :
    (impl.ledger.activeFor work).encard =
      ((indexIds impl.indexAssignmentsByWork work).filter (isActiveId impl)).length :=
  encard_of_list ((nodup_indexIds _ _).filter _) (mem_filter_active (h.workIndex work))

theorem refreshedWorkLifecycle_of_terminal {lifecycle : WorkLifecycle} {active : Nat} {executing : Bool}
    (h : lifecycle.isTerminal) : refreshedWorkLifecycle lifecycle active executing = lifecycle := if_pos h

theorem refreshedWorkLifecycle_running {lifecycle : WorkLifecycle} {active : Nat} {executing : Bool}
    (h : lifecycle.isTerminal = false) : (refreshedWorkLifecycle lifecycle active executing).isTerminal = false := by
  unfold refreshedWorkLifecycle
  rw [h]
  repeat' split
  all_goals first | rfl | contradiction

theorem refreshedWorkLifecycle_admitted {lifecycle : WorkLifecycle} {active : Nat} {executing : Bool}
    (h : refreshedWorkLifecycle lifecycle active executing = .admitted) : active = 0 := by
  unfold refreshedWorkLifecycle at h
  by_contra hactive
  by_cases hterminal : lifecycle.isTerminal
  · rw [if_pos hterminal] at h
    subst h
    cases hterminal
  · rw [if_neg hterminal, if_neg hactive] at h
    split at h <;> cases h

@[simp] theorem ledger_refreshWorkAccounting (impl : Impl) (work : WorkId) :
    (refreshWorkAccounting impl work).ledger = impl.ledger := by
  unfold refreshWorkAccounting
  cases hwork : impl.work[work]? with
  | none => rfl
  | some record =>
    refine (ledger_of_core (core_syncWorkLifecycleIndex _ _ _)).trans (ledger_setWork_same hwork ?_)
    unfold WorkRecord.entry
    cases hterminal : record.lifecycle.isTerminal with
    | true => simp only [refreshedWorkLifecycle_of_terminal hterminal, hterminal]
    | false => simp only [refreshedWorkLifecycle_running hterminal, Bool.false_eq_true, if_false]

/-- A work item whose counters are right is no longer stale. -/
theorem Coherent.freshen {work : WorkId} (h : Coherent stale impl)
    (hfresh : ∀ record, impl.work[work]? = some record →
      (impl.ledger.activeFor work).encard = record.currentAssignments ∧
        (record.lifecycle = .admitted → record.currentAssignments = 0)) :
    Coherent (stale \ {work}) impl := by
  refine ⟨h.agentKey, h.agentBoot, h.workKey, h.assignmentKey, h.assignmentState, h.leaseKey, h.queueKey,
    h.tenantKey, h.fencedKey, h.workIndex, h.agentIndex, fun other record hstale hrecord => ?_,
    fun other record hstale hrecord => ?_, h.unknown⟩
  · by_cases heq : other = work
    · subst heq
      exact (hfresh record hrecord).1
    · exact h.current other record (fun hmem => hstale ⟨hmem, heq⟩) hrecord
  · by_cases heq : other = work
    · subst heq
      exact (hfresh record hrecord).2
    · exact h.admitted other record (fun hmem => hstale ⟨hmem, heq⟩) hrecord

/-- Counters may always be called stale. -/
theorem Coherent.mono {stale' : Set WorkId} (h : Coherent stale impl) (hsub : stale ⊆ stale') :
    Coherent stale' impl :=
  ⟨h.agentKey, h.agentBoot, h.workKey, h.assignmentKey, h.assignmentState, h.leaseKey, h.queueKey, h.tenantKey,
    h.fencedKey, h.workIndex, h.agentIndex,
    fun work record hstale => h.current work record fun hmem => hstale (hsub hmem),
    fun work record hstale => h.admitted work record fun hmem => hstale (hsub hmem), h.unknown⟩

/-- Refreshing the accounting of a work item brings its counters up to date. -/
theorem Coherent.refreshWorkAccounting (h : Coherent stale impl) (work : WorkId) :
    Coherent (stale \ {work}) (refreshWorkAccounting impl work) := by
  cases hwork : impl.work[work]? with
  | none =>
    have hsame : AgentScheduler.refreshWorkAccounting impl work = impl := by
      unfold AgentScheduler.refreshWorkAccounting
      rw [hwork]
    rw [hsame]
    refine h.freshen fun record hrecord => ?_
    rw [hwork] at hrecord
    cases hrecord
  | some record =>
    have hkey : record.request.id = work := h.workKey work record hwork
    let ids := (indexIds impl.indexAssignmentsByWork record.request.id).filter (isActiveId impl)
    let refreshed : WorkRecord :=
      { record with
        currentAssignments := ids.length
        lifecycle := refreshedWorkLifecycle record.lifecycle ids.length (ids.any (isExecutingId impl)) }
    have hcount : (impl.ledger.activeFor work).encard = refreshed.currentAssignments := by
      rw [h.encard_activeFor work, ← hkey]
    have hrefreshed : AgentScheduler.refreshWorkAccounting impl work =
        syncWorkLifecycleIndex (impl.setWork work refreshed) refreshed.request.id refreshed.lifecycle := by
      unfold AgentScheduler.refreshWorkAccounting
      rw [hwork]
    rw [hrefreshed]
    refine Coherent.of_core ?_ (core_syncWorkLifecycleIndex _ _ _)
    have hset : Coherent stale (impl.setWork work refreshed) :=
      h.setWork hkey (fun _ => hcount) fun _ => refreshedWorkLifecycle_admitted
    refine hset.freshen fun found hfound => ?_
    rw [Impl.setWork, KeyedTable.getElem?_insert, if_pos rfl] at hfound
    rw [← Option.some.inj hfound]
    exact ⟨hcount, refreshedWorkLifecycle_admitted⟩

/-! ### Queues, tenants, leases and fences -/

theorem Coherent.withQueues {queues : Table QueueId QueueRecord} (h : Coherent stale impl)
    (hkey : Keyed QueueRecord.id queues) : Coherent stale { impl with queues := queues } :=
  ⟨h.agentKey, h.agentBoot, h.workKey, h.assignmentKey, h.assignmentState, h.leaseKey, hkey, h.tenantKey,
    h.fencedKey, h.workIndex, h.agentIndex, h.current, h.admitted, h.unknown⟩

theorem Coherent.withTenants {tenants : Table TenantId TenantRecord} (h : Coherent stale impl)
    (hkey : Keyed TenantRecord.id tenants) : Coherent stale { impl with tenants := tenants } :=
  ⟨h.agentKey, h.agentBoot, h.workKey, h.assignmentKey, h.assignmentState, h.leaseKey, h.queueKey, hkey,
    h.fencedKey, h.workIndex, h.agentIndex, h.current, h.admitted, h.unknown⟩

theorem Coherent.withLeases {leases : Table LeaseId Lease} (h : Coherent stale impl) (hkey : Keyed Lease.id leases) :
    Coherent stale { impl with leases := leases } :=
  ⟨h.agentKey, h.agentBoot, h.workKey, h.assignmentKey, h.assignmentState, hkey, h.queueKey, h.tenantKey,
    h.fencedKey, h.workIndex, h.agentIndex, h.current, h.admitted, h.unknown⟩

theorem Coherent.withFencedBoots {fencedBoots : Table AgentBootId FencedBoot} (h : Coherent stale impl)
    (hkey : Keyed FencedBoot.boot fencedBoots) : Coherent stale { impl with fencedBoots := fencedBoots } :=
  ⟨h.agentKey, h.agentBoot, h.workKey, h.assignmentKey, h.assignmentState, h.leaseKey, h.queueKey, h.tenantKey,
    hkey, h.workIndex, h.agentIndex, h.current, h.admitted, h.unknown⟩

theorem Coherent.dropLease (h : Coherent stale impl) (lease : LeaseId) : Coherent stale (dropLease impl lease) :=
  h.withLeases (h.leaseKey.modify fun _ => rfl)

theorem Coherent.renewLease (h : Coherent stale impl) (lease : LeaseId) (expiresAtMs : UInt64) :
    Coherent stale (renewLease impl lease expiresAtMs) :=
  h.withLeases (h.leaseKey.modify fun _ => rfl)

@[simp] theorem ledger_fenceBoot (now : UInt64) (impl : Impl) (agent : AgentId) (boot : AgentBootId)
    (generation : AgentGeneration) (reason : Text) :
    (fenceBoot now impl agent boot generation reason).ledger = impl.ledger := by
  unfold fenceBoot
  split <;> rfl

theorem Coherent.fenceBoot (h : Coherent stale impl) (now : UInt64) (agent : AgentId) (boot : AgentBootId)
    (generation : AgentGeneration) (reason : Text) :
    Coherent stale (fenceBoot now impl agent boot generation reason) := by
  unfold AgentScheduler.fenceBoot
  split
  · exact h
  · have hkey : Keyed FencedBoot.boot
        (impl.fencedBoots.insert boot { agent, boot, generation, fencedAtMs := now, reason }) :=
      h.fencedKey.insert rfl
    exact (h.withFencedBoots hkey).of_core (core_revise _)

/-! ### Stored assignments -/

@[simp] theorem ledger_setAssignment (impl : Impl) (id : AssignmentId) (record : AssignmentRecord) :
    (impl.setAssignment id record).ledger = impl.ledger.setAssignment id record := by
  refine Ledger.ext rfl rfl rfl rfl rfl rfl (funext fun other => ?_)
  simp only [Impl.ledger, Impl.setAssignment, Ledger.setAssignment, KeyedTable.getElem?_insert,
    Function.update_apply, eq_comm (a := id)]

/-- Replacing an active record by an active one under the same binding moves no slot. -/
theorem Ledger.active_setAssignment {ledger : Ledger} {id : AssignmentId} {before after : AssignmentRecord}
    {p : AssignmentRecord → Prop} (hbefore : ledger.assignments id = some before) (hwas : before.state.isActive)
    (hactive : after.state.isActive) (hp : p after ↔ p before) :
    (ledger.setAssignment id after).active p = ledger.active p := by
  ext other
  unfold Ledger.active Ledger.setAssignment
  by_cases hid : other = id
  · subst hid
    simp [hbefore, hwas, hactive, hp]
  · simp [Function.update_of_ne hid]

theorem Coherent.setAssignment {id : AssignmentId} {before after : AssignmentRecord} (h : Coherent stale impl)
    (hbefore : impl.assignments[id]? = some before) (hwas : before.state.isActive)
    (hactive : after.state.isActive) (hbinding : SameBinding before after) :
    Coherent stale (impl.setAssignment id after) := by
  have hledger := ledger_setAssignment impl id after
  have hfor : ∀ work, (impl.setAssignment id after).ledger.activeFor work = impl.ledger.activeFor work := by
    intro work
    rw [hledger]
    exact Ledger.active_setAssignment hbefore hwas hactive (by rw [hbinding])
  have hon : ∀ agent, (impl.setAssignment id after).ledger.active (fun record => record.binding.agent = agent) =
      impl.ledger.active fun record => record.binding.agent = agent := by
    intro agent
    rw [hledger]
    exact Ledger.active_setAssignment hbefore hwas hactive (by rw [hbinding])
  refine ⟨h.agentKey, h.agentBoot, h.workKey, h.assignmentKey.insert ?_, fun other record hrecord => ?_,
    h.leaseKey, h.queueKey, h.tenantKey, h.fencedKey, fun work member => ?_, fun agent member => ?_,
    fun work record hstale hrecord => ?_, h.admitted, fun work hnone => ?_⟩
  · rw [hbinding]
    exact h.assignmentKey id before hbefore
  · rw [Impl.setAssignment, KeyedTable.getElem?_insert] at hrecord
    split at hrecord
    · rw [← Option.some.inj hrecord]
      exact .inl hactive
    · exact h.assignmentState other record hrecord
  · rw [hfor]
    exact h.workIndex work member
  · rw [hon]
    exact h.agentIndex agent member
  · rw [hfor]
    exact h.current work record hstale hrecord
  · rw [hfor]
    exact h.unknown work hnone

end Stored

end AgentScheduler
