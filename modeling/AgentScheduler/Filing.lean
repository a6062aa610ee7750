import AgentScheduler.Causes

/-! Under which keys the acceleration indexes hold an agent or a work item, and how each deed changes that. -/
namespace AgentScheduler
open Std KeyedTable Relation

section Indexes
variable {Key Id : Type} [Ord Key] [TransOrd Key] [LawfulEqOrd Key] [DecidableEq Key] [Ord Id] [TransOrd Id]
  [LawfulEqOrd Id] {index : Table Key (IdSet Id)} {id other : Id} {keys : Key → Prop}

omit [DecidableEq Key] in
theorem mem_indexIds_eraseAll {key : Key} {member : Id} :
    member ∈ indexIds (indexEraseAll index id) key ↔ member ∈ indexIds index key ∧ id ≠ member := by
  unfold indexIds indexEraseAll
  rw [getElem?_map]
  cases index[key]? with
  | none => simp
  | some ids => simp [and_comm]

/-- An index holds an id under exactly these keys. -/
def Files (index : Table Key (IdSet Id)) (id : Id) (keys : Key → Prop) : Prop := ∀ key, id ∈ indexIds index key ↔ keys key

omit [DecidableEq Key] in
theorem Files.eraseAll (index : Table Key (IdSet Id)) (id : Id) : Files (indexEraseAll index id) id fun _ => False :=
  fun key => by simp [mem_indexIds_eraseAll]

omit [DecidableEq Key] in
theorem Files.eraseAll_other (h : Files index id keys) (hne : other ≠ id) : Files (indexEraseAll index other) id keys :=
  fun key => by rw [mem_indexIds_eraseAll, h key, and_iff_left hne]

theorem Files.insert (h : Files index id keys) (key : Key) :
    Files (indexInsert index key id) id fun found => key = found ∨ keys found :=
  fun found => by rw [mem_indexIds_insert, h found, and_iff_left rfl]

theorem Files.insert_other (h : Files index id keys) (hne : other ≠ id) (key : Key) :
    Files (indexInsert index key other) id keys :=
  fun found => by rw [mem_indexIds_insert, h found, or_iff_right fun hboth => hne hboth.2]

omit [TransOrd Key] [LawfulEqOrd Key] [DecidableEq Key] [TransOrd Id] [LawfulEqOrd Id] in
theorem Files.congr [TransOrd Key] [TransOrd Id] {keys' : Key → Prop} (h : Files index id keys)
    (hkeys : ∀ key, keys key ↔ keys' key) : Files index id keys' :=
  fun key => (h key).trans (hkeys key)

/-- Moving an id to a key. -/
theorem Files.move (index : Table Key (IdSet Id)) (id : Id) (key : Key) :
    Files (indexInsert (indexEraseAll index id) key id) id (key = ·) :=
  ((Files.eraseAll index id).insert key).congr fun _ => by simp

theorem Files.move_other (h : Files index id keys) (hne : other ≠ id) (key : Key) :
    Files (indexInsert (indexEraseAll index other) key other) id keys := (h.eraseAll_other hne).insert_other hne key

theorem Files.insertMany {Item : Type} (h : Files index id keys) (name : Item → Key) (items : List Item) :
    Files (items.foldl (fun index item => indexInsert index (name item) id) index) id
      fun key => (∃ item ∈ items, name item = key) ∨ keys key := by
  induction items generalizing index keys with
  | nil => exact h.congr fun key => by simp
  | cons item items ih =>
    refine (ih (h.insert (name item))).congr fun key => ?_
    simp only [List.mem_cons, exists_eq_or_imp]
    rw [or_left_comm, or_assoc]

theorem Files.insertMany_other {Item : Type} (h : Files index id keys) (hne : other ≠ id) (name : Item → Key)
    (items : List Item) : Files (items.foldl (fun index item => indexInsert index (name item) other) index) id keys :=
  List.foldlRecOn (motive := fun index => Files index id keys) items _ h fun _ hindex item _ =>
    hindex.insert_other hne (name item)

omit [LawfulEqOrd Key] [DecidableEq Key] in
/-- Two indexes that hold the same ids under a key list them alike. -/
theorem indexIds_ext {index index' : Table Key (IdSet Id)} {key : Key}
    (h : ∀ id, id ∈ indexIds index key ↔ id ∈ indexIds index' key) : indexIds index key = indexIds index' key := by
  have hread : ∀ index : Table Key (IdSet Id), indexIds index key = ((index[key]?).getD ∅).toList := by
    intro index
    unfold indexIds
    cases index[key]? <;> simp
  rw [hread, hread] at h ⊢
  refine congrArg _ (ExtTreeSet.ext_mem fun id => ?_)
  have hmem := h id
  rwa [ExtTreeSet.mem_toList, ExtTreeSet.mem_toList] at hmem

end Indexes

/-! ### Agents -/

/-- An agent record without its telemetry, its slots and its lifecycle. -/
def AgentRecord.essence (record : AgentRecord) : AgentRecord :=
  { record.gist with activeAssignments := 0, lifecycle := .unregistered }

/-- The lifecycles that recomputing leaves alone. -/
def AgentLifecycle.IsSticky (lifecycle : AgentLifecycle) : Prop :=
  lifecycle = .lost ∨ lifecycle = .retired ∨ lifecycle = .draining

theorem recomputeLifecycle_eq (record : AgentRecord) :
    recomputeLifecycle record = { record with lifecycle := (recomputeLifecycle record).lifecycle } := by
  unfold recomputeLifecycle
  repeat' split
  all_goals rfl

/-- Recomputing neither leaves nor reaches a sticky lifecycle. -/
theorem recomputeLifecycle_sticky {record : AgentRecord}
    (h : record.lifecycle.IsSticky ∨ (recomputeLifecycle record).lifecycle.IsSticky) : recomputeLifecycle record = record := by
  unfold recomputeLifecycle at h ⊢
  by_cases hsticky : record.lifecycle = .lost ∨ record.lifecycle = .retired ∨ record.lifecycle = .draining
  · rw [if_pos hsticky]
  · rw [if_neg hsticky] at h
    rcases h with hbefore | hafter
    · exact (hsticky hbefore).elim
    · exfalso
      revert hafter
      repeat' split
      all_goals simp [AgentLifecycle.IsSticky]

/-- Bookkeeping keeps what an agent has shown, and the lifecycles that stick. -/
structure AgentRecord.Keeps (before after : AgentRecord) : Prop where
  essence : after.essence = before.essence
  sticky : before.lifecycle.IsSticky ∨ after.lifecycle.IsSticky → after.lifecycle = before.lifecycle

theorem AgentRecord.Keeps.refl (record : AgentRecord) : record.Keeps record := ⟨rfl, fun _ => rfl⟩

theorem AgentRecord.Keeps.trans {first second third : AgentRecord} (h : first.Keeps second) (h' : second.Keeps third) :
    first.Keeps third := by
  refine ⟨h'.essence.trans h.essence, fun hsticky => ?_⟩
  rcases hsticky with hfirst | hthird
  · have hsecond := h.sticky (.inl hfirst)
    exact (h'.sticky (.inl (hsecond ▸ hfirst))).trans hsecond
  · have hsecond := h'.sticky (.inr hthird)
    exact hsecond.trans (h.sticky (.inr (hsecond ▸ hthird)))

theorem AgentRecord.Keeps.of_gist {record record' : AgentRecord} (h : record'.gist = record.gist) :
    record.Keeps record' := by
  refine ⟨congrArg (fun gist : AgentRecord => { gist with activeAssignments := 0, lifecycle := .unregistered }) h, fun _ => ?_⟩
  simp only [AgentRecord.gist, AgentRecord.mk.injEq] at h
  exact h.2.1

/-- Recomputing the lifecycle of a record whose slots were counted anew. -/
theorem AgentRecord.keeps_recompute (record : AgentRecord) (active : Nat) :
    record.Keeps (recomputeLifecycle { record with activeAssignments := active }) := by
  refine ⟨?_, fun hsticky => ?_⟩
  · rw [recomputeLifecycle_eq]
    rfl
  · rw [recomputeLifecycle_sticky hsticky]

/-- What keeping the essence of a record keeps. -/
theorem AgentRecord.read_of_essence {record record' : AgentRecord} (h : record'.essence = record.essence) :
    record'.descriptor = record.descriptor ∧ record'.profile = record.profile ∧
      record'.capabilityCurrent = record.capabilityCurrent := by
  simp only [AgentRecord.essence, AgentRecord.gist, AgentRecord.mk.injEq] at h
  tauto

/-- The candidate indexes hold an agent under the keys of what is stored of it. -/
structure AgentFiled (impl : Impl) (agent : AgentId) (stored : Option AgentRecord) : Prop where
  lifecycle : Files impl.indexAgentsByLifecycle agent fun key => ∃ record ∈ stored, record.lifecycle = key
  tenant : Files impl.indexAgentsByTenant agent fun key => ∃ record ∈ stored, record.descriptor.tenant = key
  domain : Files impl.indexAgentsByDomain agent fun key =>
    ∃ record ∈ stored, record.descriptor.placementDomain.isZero = false ∧ record.descriptor.placementDomain = key
  capability : Files impl.indexAgentsByCapability agent fun key =>
    ∃ record ∈ stored, record.capabilityCurrent ∧
      ∃ evidence ∈ record.profile.capabilities, evidence.state.isUsable ∧ evidence.name = key

section Agents
variable {impl : Impl} {agent other : AgentId} {stored : Option AgentRecord} {record : AgentRecord}

theorem AgentFiled.deindexAgent (impl : Impl) (agent : AgentId) : AgentFiled (deindexAgent impl agent) agent none := by
  constructor <;> exact (Files.eraseAll _ agent).congr fun _ => by simp

theorem AgentFiled.deindexAgent_other (h : AgentFiled impl agent stored) (hne : other ≠ agent) :
    AgentFiled (AgentScheduler.deindexAgent impl other) agent stored :=
  ⟨h.lifecycle.eraseAll_other hne, h.tenant.eraseAll_other hne, h.domain.eraseAll_other hne,
    h.capability.eraseAll_other hne⟩

/-- Indexing the record of an agent that is filed nowhere, or already under the lifecycle of the record. -/
theorem AgentFiled.indexAgent (impl : Impl) (hid : record.descriptor.id = agent)
    (hlifecycle : ∀ key, agent ∈ indexIds impl.indexAgentsByLifecycle key → record.lifecycle = key)
    (htenant : Files impl.indexAgentsByTenant agent fun _ => False)
    (hdomain : Files impl.indexAgentsByDomain agent fun _ => False)
    (hcapability : Files impl.indexAgentsByCapability agent fun _ => False) :
    AgentFiled (indexAgent impl record) agent (some record) := by
  subst hid
  refine ⟨fun key => ?_, (htenant.insert _).congr fun key => by simp, ?_, ?_⟩
  · change _ ∈ indexIds (indexInsert _ _ _) _ ↔ _
    rw [mem_indexIds_insert, and_iff_left rfl, or_iff_left_of_imp (hlifecycle key)]
    simp
  · unfold AgentScheduler.indexAgent
    cases hzero : record.descriptor.placementDomain.isZero with
    | true => exact hdomain.congr fun key => by simp [hzero]
    | false => exact (hdomain.insert _).congr fun key => by simp [hzero]
  · unfold AgentScheduler.indexAgent
    cases hcurrent : record.capabilityCurrent with
    | true => exact (hcapability.insertMany _ _).congr fun key => by simp [hcurrent, and_assoc]
    | false => exact hcapability.congr fun key => by simp [hcurrent]

theorem AgentFiled.indexAgent_other (impl : Impl) (h : AgentFiled impl agent stored) (hne : record.descriptor.id ≠ agent) :
    AgentFiled (AgentScheduler.indexAgent impl record) agent stored := by
  refine ⟨h.lifecycle.insert_other hne _, h.tenant.insert_other hne _, ?_, ?_⟩
  · unfold AgentScheduler.indexAgent
    simp only
    split
    · exact h.domain
    · exact h.domain.insert_other hne _
  · unfold AgentScheduler.indexAgent
    simp only
    split
    · exact h.capability.insertMany_other hne _ _
    · exact h.capability

/-- The stored agents and their indexes. -/
def Impl.agentFile (impl : Impl) : Impl :=
  { agents := impl.agents
    indexAgentsByCapability := impl.indexAgentsByCapability
    indexAgentsByLifecycle := impl.indexAgentsByLifecycle
    indexAgentsByTenant := impl.indexAgentsByTenant
    indexAgentsByDomain := impl.indexAgentsByDomain }

private theorem agentFiled_agentFile : AgentFiled impl.agentFile agent stored ↔ AgentFiled impl agent stored :=
  ⟨fun ⟨h1, h2, h3, h4⟩ => ⟨h1, h2, h3, h4⟩, fun ⟨h1, h2, h3, h4⟩ => ⟨h1, h2, h3, h4⟩⟩

/-- Where an agent is filed depends on the agents and their indexes only. -/
theorem AgentFiled.of_file {impl' : Impl} (h : AgentFiled impl agent impl.agents[agent]?)
    (hfile : impl'.agentFile = impl.agentFile) : AgentFiled impl' agent impl'.agents[agent]? := by
  rw [← agentFiled_agentFile] at h ⊢
  have hagents := congrArg Impl.agents hfile
  have hagents : impl'.agents = impl.agents := hagents
  rwa [hfile, hagents]

/-- Storing another version of an agent leaves the indexes as they are. -/
private theorem AgentFiled.setAgent (h : AgentFiled impl agent stored) : AgentFiled (impl.setAgent other record) agent stored :=
  ⟨h.lifecycle, h.tenant, h.domain, h.capability⟩

/-- A lifecycle moves in step with its index. -/
theorem AgentFiled.sync {record' : AgentRecord} (h : AgentFiled impl agent (some record))
    (hessence : record'.essence = record.essence) :
    AgentFiled (syncAgentLifecycleIndex impl agent record'.lifecycle) agent (some record') := by
  obtain ⟨hdescriptor, hprofile, hcurrent⟩ := AgentRecord.read_of_essence hessence
  refine ⟨(Files.move _ agent _).congr fun key => by simp, h.tenant.congr fun key => ?_,
    h.domain.congr fun key => ?_, h.capability.congr fun key => ?_⟩ <;> simp [hdescriptor, hcurrent, hprofile]

theorem AgentFiled.sync_other (h : AgentFiled impl agent stored) (hne : other ≠ agent) (lifecycle : AgentLifecycle) :
    AgentFiled (syncAgentLifecycleIndex impl other lifecycle) agent stored :=
  ⟨h.lifecycle.move_other hne lifecycle, h.tenant, h.domain, h.capability⟩

/-- The record that refreshing the accounting of an agent stores. -/
def AgentRecord.recounted (record : AgentRecord) (impl : Impl) : AgentRecord :=
  recomputeLifecycle { record with activeAssignments := activeAssignmentCount impl record.descriptor.id }

theorem refreshAgentAccounting_eq (hkey : record.descriptor.id = agent) (hrecord : impl.agents[agent]? = some record) :
    refreshAgentAccounting impl agent =
      syncAgentLifecycleIndex (impl.setAgent agent (record.recounted impl)) agent (record.recounted impl).lifecycle := by
  unfold refreshAgentAccounting AgentRecord.recounted
  simp [hrecord, hkey]

theorem refreshAgentAccounting_unknown (hnone : impl.agents[agent]? = none) : refreshAgentAccounting impl agent = impl := by
  unfold refreshAgentAccounting
  simp [hnone]

theorem getElem?_setAgent : (impl.setAgent agent record).agents[other]? = if agent = other then some record else impl.agents[other]? :=
  KeyedTable.getElem?_insert impl.agents agent other record

/-- What refreshing the accounting of an agent stores. -/
theorem agents_refreshAgentAccounting (impl : Impl) (agent other : AgentId) (hkey : Keyed (fun record : AgentRecord => record.descriptor.id) impl.agents) :
    (refreshAgentAccounting impl agent).agents[other]? =
      if agent = other then (impl.agents[other]?).map (AgentRecord.recounted · impl) else impl.agents[other]? := by
  cases hrecord : impl.agents[agent]? with
  | none =>
    rw [refreshAgentAccounting_unknown hrecord]
    split
    · next heq => rw [← heq, hrecord, Option.map_none]
    · rfl
  | some record =>
    rw [refreshAgentAccounting_eq (hkey agent record hrecord) hrecord]
    change (impl.setAgent agent _).agents[other]? = _
    rw [getElem?_setAgent]
    split
    · next heq => rw [← heq, hrecord, Option.map_some]
    · rfl

/-- A refreshed lifecycle is filed as it is stored. -/
theorem AgentFiled.refreshAgentAccounting
    (hkey : Keyed (fun record : AgentRecord => record.descriptor.id) impl.agents)
    (h : AgentFiled impl agent impl.agents[agent]?) (refreshed : AgentId) :
    AgentFiled (refreshAgentAccounting impl refreshed) agent (AgentScheduler.refreshAgentAccounting impl refreshed).agents[agent]? := by
  rw [agents_refreshAgentAccounting _ _ _ hkey]
  cases hrecord : impl.agents[refreshed]? with
  | none =>
    rw [refreshAgentAccounting_unknown hrecord]
    split
    · next heq =>
      rw [← heq, hrecord, Option.map_none]
      rwa [← heq, hrecord] at h
    · exact h
  | some record =>
    rw [refreshAgentAccounting_eq (hkey refreshed record hrecord) hrecord]
    split
    · next heq =>
      subst heq
      rw [hrecord] at h
      rw [hrecord, Option.map_some]
      exact h.setAgent.sync (record.keeps_recompute _).essence
    · next hne => exact h.setAgent.sync_other hne _

theorem agents_refreshAgent (hkey : Keyed (fun record : AgentRecord => record.descriptor.id) impl.agents) (agent : AgentId) :
    (refreshAgent impl agent).agents = (refreshAgentAccounting impl agent).agents := by
  have hindexed : ∀ impl : Impl, (indexStoredAgent impl agent).agents = impl.agents := fun impl => by
    unfold indexStoredAgent
    split <;> rfl
  refine ExtTreeMap.ext_getElem? fun other => ?_
  rw [refreshAgent, hindexed, agents_refreshAgentAccounting (deindexAgent impl agent) _ _ hkey,
    agents_refreshAgentAccounting _ _ _ hkey]
  rfl

/-- A refreshed agent is filed as it is stored. -/
theorem AgentFiled.refreshAgent (hkey : Keyed (fun record : AgentRecord => record.descriptor.id) impl.agents)
    (agent : AgentId) : AgentFiled (refreshAgent impl agent) agent (AgentScheduler.refreshAgent impl agent).agents[agent]? := by
  have hdeindexed := AgentFiled.deindexAgent impl agent
  rw [agents_refreshAgent hkey, agents_refreshAgentAccounting _ _ _ hkey, if_pos rfl]
  cases hrecord : impl.agents[agent]? with
  | none =>
    have hform : AgentScheduler.refreshAgent impl agent = AgentScheduler.deindexAgent impl agent := by
      have hnone : (AgentScheduler.deindexAgent impl agent).agents[agent]? = none := hrecord
      rw [AgentScheduler.refreshAgent, refreshAgentAccounting_unknown hnone]
      unfold indexStoredAgent
      rw [hnone]
    rw [hform]
    exact hdeindexed
  | some record =>
    let refreshed := record.recounted impl
    let moved := syncAgentLifecycleIndex ((AgentScheduler.deindexAgent impl agent).setAgent agent refreshed) agent refreshed.lifecycle
    have hid : refreshed.descriptor.id = agent := by
      rw [show refreshed.descriptor = record.descriptor from recomputeLifecycle_descriptor _]
      exact hkey agent record hrecord
    have hform : AgentScheduler.refreshAgent impl agent = AgentScheduler.indexAgent moved refreshed := by
      have hstored : (AgentScheduler.deindexAgent impl agent).agents[agent]? = some record := hrecord
      rw [AgentScheduler.refreshAgent, refreshAgentAccounting_eq (hkey agent record hrecord) hstored]
      unfold indexStoredAgent
      have hmoved : (syncAgentLifecycleIndex ((AgentScheduler.deindexAgent impl agent).setAgent agent
          (record.recounted (AgentScheduler.deindexAgent impl agent))) agent
          (record.recounted (AgentScheduler.deindexAgent impl agent)).lifecycle).agents[agent]? = some refreshed := by
        change ((AgentScheduler.deindexAgent impl agent).setAgent agent refreshed).agents[agent]? = some refreshed
        rw [getElem?_setAgent, if_pos rfl]
      rw [hmoved]
      rfl
    rw [hform]
    refine AgentFiled.indexAgent _ hid (fun key hmem => ?_) (hdeindexed.tenant.congr fun key => by simp)
      (hdeindexed.domain.congr fun key => by simp) (hdeindexed.capability.congr fun key => by simp)
    exact (Files.move _ agent refreshed.lifecycle key).mp hmem

theorem AgentFiled.refreshAgent_other (hkey : Keyed (fun record : AgentRecord => record.descriptor.id) impl.agents)
    (h : AgentFiled impl agent impl.agents[agent]?) (hne : other ≠ agent) :
    AgentFiled (AgentScheduler.refreshAgent impl other) agent (AgentScheduler.refreshAgent impl other).agents[agent]? := by
  rw [agents_refreshAgent hkey, agents_refreshAgentAccounting _ _ _ hkey, if_neg hne]
  have hdeindexed := h.deindexAgent_other hne
  have hrefreshed : AgentFiled (AgentScheduler.refreshAgentAccounting (AgentScheduler.deindexAgent impl other) other) agent
      impl.agents[agent]? := by
    have hfiled := @AgentFiled.refreshAgentAccounting (AgentScheduler.deindexAgent impl other) _ hkey hdeindexed other
    rwa [agents_refreshAgentAccounting (AgentScheduler.deindexAgent impl other) _ _ hkey, if_neg hne] at hfiled
  unfold AgentScheduler.refreshAgent indexStoredAgent
  split
  · exact hrefreshed
  · next record hrecord =>
    refine AgentFiled.indexAgent_other _ hrefreshed ?_
    rw [agents_refreshAgentAccounting (AgentScheduler.deindexAgent impl other) _ _ hkey, if_pos rfl] at hrecord
    obtain ⟨before, hbefore, rfl⟩ := Option.map_eq_some_iff.mp hrecord
    rw [show (before.recounted (AgentScheduler.deindexAgent impl other)).descriptor = before.descriptor from
      recomputeLifecycle_descriptor _]
    have hid : before.descriptor.id = other := hkey other before hbefore
    rwa [hid]

end Agents

/-! ### Work -/

/-- The work indexes hold a work item under the keys of what is stored of it. -/
structure WorkFiled (impl : Impl) (work : WorkId) (stored : Option WorkRecord) : Prop where
  queue : Files impl.indexWorkByQueue work fun key => ∃ record ∈ stored, record.request.queue = key
  lifecycle : Files impl.indexWorkByLifecycle work fun key => ∃ record ∈ stored, record.lifecycle = key

section Work
variable {impl : Impl} {work other : WorkId} {stored : Option WorkRecord} {record : WorkRecord}

/-- The stored work items and their indexes. -/
def Impl.workFile (impl : Impl) : Impl :=
  { work := impl.work
    indexWorkByQueue := impl.indexWorkByQueue
    indexWorkByLifecycle := impl.indexWorkByLifecycle }

private theorem workFiled_workFile : WorkFiled impl.workFile work stored ↔ WorkFiled impl work stored :=
  ⟨fun ⟨h1, h2⟩ => ⟨h1, h2⟩, fun ⟨h1, h2⟩ => ⟨h1, h2⟩⟩

/-- Where a work item is filed depends on the work items and their indexes only. -/
theorem WorkFiled.of_file {impl' : Impl} (h : WorkFiled impl work impl.work[work]?)
    (hfile : impl'.workFile = impl.workFile) : WorkFiled impl' work impl'.work[work]? := by
  rw [← workFiled_workFile] at h ⊢
  have hworks := congrArg Impl.work hfile
  have hworks : impl'.work = impl.work := hworks
  rwa [hfile, hworks]

theorem WorkFiled.deindexWork (impl : Impl) (work : WorkId) : WorkFiled (deindexWork impl work) work none := by
  constructor <;> exact (Files.eraseAll _ work).congr fun _ => by simp

theorem WorkFiled.deindexWork_other (h : WorkFiled impl work stored) (hne : other ≠ work) :
    WorkFiled (AgentScheduler.deindexWork impl other) work stored :=
  ⟨h.queue.eraseAll_other hne, h.lifecycle.eraseAll_other hne⟩

theorem WorkFiled.indexWork (impl : Impl) (h : WorkFiled impl work none) (hid : record.request.id = work) :
    WorkFiled (indexWork impl record) work (some record) := by
  subst hid
  exact ⟨(h.queue.insert _).congr fun key => by simp, (h.lifecycle.insert _).congr fun key => by simp⟩

theorem WorkFiled.indexWork_other (impl : Impl) (h : WorkFiled impl work stored) (hne : record.request.id ≠ work) :
    WorkFiled (AgentScheduler.indexWork impl record) work stored :=
  ⟨h.queue.insert_other hne _, h.lifecycle.insert_other hne _⟩

theorem WorkFiled.sync {record' : WorkRecord} (h : WorkFiled impl work (some record))
    (hrequest : record'.request = record.request) :
    WorkFiled (syncWorkLifecycleIndex impl work record'.lifecycle) work (some record') :=
  ⟨h.queue.congr fun key => by simp [hrequest], (Files.move _ work _).congr fun key => by simp⟩

theorem WorkFiled.sync_other (h : WorkFiled impl work stored) (hne : other ≠ work) (lifecycle : WorkLifecycle) :
    WorkFiled (syncWorkLifecycleIndex impl other lifecycle) work stored :=
  ⟨h.queue, h.lifecycle.move_other hne lifecycle⟩

/-- The record that refreshing the accounting of a work item stores. -/
def WorkRecord.recounted (record : WorkRecord) (impl : Impl) : WorkRecord :=
  let ids := (indexIds impl.indexAssignmentsByWork record.request.id).filter (isActiveId impl)
  { record with
    currentAssignments := ids.length
    lifecycle := refreshedWorkLifecycle record.lifecycle ids.length (ids.any (isExecutingId impl)) }

theorem refreshWorkAccounting_eq (hkey : record.request.id = work) (hrecord : impl.work[work]? = some record) :
    refreshWorkAccounting impl work =
      syncWorkLifecycleIndex (impl.setWork work (record.recounted impl)) work (record.recounted impl).lifecycle := by
  unfold refreshWorkAccounting WorkRecord.recounted
  simp [hrecord, hkey]

theorem refreshWorkAccounting_unknown (hnone : impl.work[work]? = none) : refreshWorkAccounting impl work = impl := by
  unfold refreshWorkAccounting
  simp [hnone]

theorem getElem?_setWork : (impl.setWork work record).work[other]? = if work = other then some record else impl.work[other]? :=
  KeyedTable.getElem?_insert impl.work work other record

/-- What refreshing the accounting of a work item stores. -/
theorem work_refreshWorkAccounting (hkey : Keyed (fun record : WorkRecord => record.request.id) impl.work) :
    (refreshWorkAccounting impl work).work[other]? =
      if work = other then (impl.work[other]?).map (WorkRecord.recounted · impl) else impl.work[other]? := by
  cases hrecord : impl.work[work]? with
  | none =>
    rw [refreshWorkAccounting_unknown hrecord]
    split
    · next heq => rw [← heq, hrecord, Option.map_none]
    · rfl
  | some record =>
    rw [refreshWorkAccounting_eq (hkey work record hrecord) hrecord]
    change (impl.setWork work _).work[other]? = _
    rw [getElem?_setWork]
    split
    · next heq => rw [← heq, hrecord, Option.map_some]
    · rfl

/-- Storing another version of a work item, its lifecycle indexed in step, keeps every work item filed. -/
theorem WorkFiled.settled {record' : WorkRecord} (h : WorkFiled impl work impl.work[work]?)
    (hrecord : impl.work[other]? = some record) (hrequest : record'.request = record.request) :
    WorkFiled (syncWorkLifecycleIndex (impl.setWork other record') other record'.lifecycle) work
      (syncWorkLifecycleIndex (impl.setWork other record') other record'.lifecycle).work[work]? := by
  change WorkFiled _ work (impl.setWork other record').work[work]?
  rw [getElem?_setWork]
  have hset : WorkFiled (impl.setWork other record') work impl.work[work]? := ⟨h.queue, h.lifecycle⟩
  split
  · next heq =>
    subst heq
    rw [hrecord] at hset
    exact hset.sync hrequest
  · next hne => exact hset.sync_other hne _

theorem WorkFiled.refreshWorkAccounting (hkey : Keyed (fun record : WorkRecord => record.request.id) impl.work)
    (h : WorkFiled impl work impl.work[work]?) (refreshed : WorkId) :
    WorkFiled (refreshWorkAccounting impl refreshed) work (AgentScheduler.refreshWorkAccounting impl refreshed).work[work]? := by
  cases hrecord : impl.work[refreshed]? with
  | none => rwa [refreshWorkAccounting_unknown hrecord]
  | some record =>
    rw [refreshWorkAccounting_eq (hkey refreshed record hrecord) hrecord]
    exact h.settled hrecord rfl

@[simp] theorem agentFile_refreshWorkAccounting (impl : Impl) (work : WorkId) :
    (refreshWorkAccounting impl work).agentFile = impl.agentFile := by
  unfold AgentScheduler.refreshWorkAccounting
  split <;> rfl

@[simp] theorem workFile_refreshAgentAccounting (impl : Impl) (agent : AgentId) :
    (refreshAgentAccounting impl agent).workFile = impl.workFile := by
  unfold refreshAgentAccounting
  split <;> rfl

/-- The stored assignments and their indexes. -/
def Impl.slots (impl : Impl) : Impl :=
  { assignments := impl.assignments
    indexAssignmentsByAgent := impl.indexAssignmentsByAgent
    indexAssignmentsByWork := impl.indexAssignmentsByWork }

@[simp] theorem slots_refreshWorkAccounting (impl : Impl) (work : WorkId) :
    (refreshWorkAccounting impl work).slots = impl.slots := by
  unfold AgentScheduler.refreshWorkAccounting
  split <;> rfl

@[simp] theorem slots_refreshAgentAccounting (impl : Impl) (agent : AgentId) :
    (refreshAgentAccounting impl agent).slots = impl.slots := by
  unfold refreshAgentAccounting
  split <;> rfl

/-- The tables determine the three files. -/
theorem files_of_tables {impl' : Impl} (h : impl'.tables = impl.tables) :
    impl'.agentFile = impl.agentFile ∧ impl'.workFile = impl.workFile ∧ impl'.slots = impl.slots := by
  have hagents := congrArg Impl.agentFile h
  have hwork := congrArg Impl.workFile h
  have hslots := congrArg Impl.slots h
  exact ⟨hagents, hwork, hslots⟩

theorem tables_of_essence {impl' : Impl} (h : impl'.essence = impl.essence) : impl'.tables = impl.tables := by
  unfold Impl.tables
  rw [h]

end Work

/-! ### Rebuilding -/

section Rebuild
variable {impl : Impl}

private theorem filed_empty {Key Id : Type} [Ord Key] [TransOrd Key] [Ord Id] [TransOrd Id] (id : Id) :
    Files (∅ : Table Key (IdSet Id)) id fun _ => False := fun key => by simp [indexIds]

private theorem files_indexAssignment (impl : Impl) (record : AssignmentRecord) :
    (indexAssignment impl record).agentFile = impl.agentFile ∧ (indexAssignment impl record).workFile = impl.workFile := by
  unfold indexAssignment
  split <;> exact ⟨rfl, rfl⟩

/-- A rebuild files every agent as it is stored. -/
theorem AgentFiled.rebuildIndexes (hkey : Keyed (fun record : AgentRecord => record.descriptor.id) impl.agents)
    (agent : AgentId) : AgentFiled (rebuildIndexes impl) agent impl.agents[agent]? := by
  let filed := impl.agents.toList.foldl (fun acc entry => AgentScheduler.indexAgent acc entry.2) impl.stored
  have hfile : (AgentScheduler.rebuildIndexes impl).agentFile = filed.agentFile := by
    refine (foldl_project (f := Impl.agentFile)
      (g := fun acc (entry : AssignmentId × AssignmentRecord) => indexAssignment acc entry.2)
      (fun acc entry => (files_indexAssignment acc entry.2).1) _ _).trans ?_
    exact foldl_project (f := Impl.agentFile)
      (g := fun acc (entry : WorkId × WorkRecord) => AgentScheduler.indexWork acc entry.2) (fun _ _ => rfl) _ _
  have hfiled : AgentFiled filed agent impl.agents[agent]? := by
    refine foldl_entries_filed (g := fun acc (entry : AgentId × AgentRecord) => AgentScheduler.indexAgent acc entry.2)
      (p := fun acc stored => AgentFiled acc agent stored) impl.agents (fun acc record hrecord hnone => ?_)
      (fun acc entry stored hentry hne hacc => ?_) ?_
    · obtain ⟨h1, h2, h3, h4⟩ := hnone
      exact AgentFiled.indexAgent _ (hkey agent record hrecord) (fun key hmem => by simpa using (h1 key).mp hmem)
        (h2.congr fun key => by simp) (h3.congr fun key => by simp) (h4.congr fun key => by simp)
    · have hid : entry.2.descriptor.id = entry.1 := hkey entry.1 entry.2 hentry
      exact AgentFiled.indexAgent_other _ hacc (hid ▸ hne)
    · constructor <;> exact (filed_empty agent).congr fun key => by simp
  rw [← agentFiled_agentFile] at hfiled ⊢
  rwa [hfile]

/-- A rebuild files every work item as it is stored. -/
theorem WorkFiled.rebuildIndexes (hkey : Keyed (fun record : WorkRecord => record.request.id) impl.work)
    (work : WorkId) : WorkFiled (rebuildIndexes impl) work impl.work[work]? := by
  let base := impl.agents.toList.foldl (fun acc entry => AgentScheduler.indexAgent acc entry.2) impl.stored
  let filed := impl.work.toList.foldl (fun acc entry => AgentScheduler.indexWork acc entry.2) base
  have hfile : (AgentScheduler.rebuildIndexes impl).workFile = filed.workFile :=
    foldl_project (f := Impl.workFile)
      (g := fun acc (entry : AssignmentId × AssignmentRecord) => indexAssignment acc entry.2)
      (fun acc entry => (files_indexAssignment acc entry.2).2) _ _
  have hbase : base.workFile = impl.stored.workFile :=
    foldl_project (f := Impl.workFile)
      (g := fun acc (entry : AgentId × AgentRecord) => AgentScheduler.indexAgent acc entry.2) (fun _ _ => rfl) _ _
  have hempty : WorkFiled base work none := by
    rw [← workFiled_workFile, hbase]
    constructor <;> exact (filed_empty work).congr fun key => by simp
  have hfiled : WorkFiled filed work impl.work[work]? := by
    refine foldl_entries_filed (g := fun acc (entry : WorkId × WorkRecord) => AgentScheduler.indexWork acc entry.2)
      (p := fun acc stored => WorkFiled acc work stored) impl.work (fun acc record hrecord hnone => ?_)
      (fun acc entry stored hentry hne hacc => ?_) hempty
    · exact WorkFiled.indexWork _ hnone (hkey work record hrecord)
    · have hid : entry.2.request.id = entry.1 := hkey entry.1 entry.2 hentry
      exact WorkFiled.indexWork_other _ hacc (hid ▸ hne)
  rw [← workFiled_workFile] at hfiled ⊢
  rwa [hfile]

end Rebuild

end AgentScheduler
