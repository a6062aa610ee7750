import AgentScheduler.Filing

/-! The incrementally maintained indexes and counters are those that a rebuild would compute. -/
namespace AgentScheduler
open Std KeyedTable Relation

section Settled
variable {impl impl' : Impl} {agent : AgentId} {record : AgentRecord}

/-- The slots and the lifecycle of a stored agent are up to date. -/
def AgentSettled (impl : Impl) (agent : AgentId) : Prop :=
  ∀ record, impl.agents[agent]? = some record →
    (impl.ledger.active fun assignment => assignment.binding.agent = agent).encard = record.activeAssignments ∧
      recomputeLifecycle record = record

/-- The number of active assignments of an agent, as the index gives it. -/
theorem Coherent.encard_active_agent {stale : Set WorkId} (h : Coherent stale impl) (agent : AgentId) :
    (impl.ledger.active fun assignment => assignment.binding.agent = agent).encard = activeAssignmentCount impl agent := by
  unfold activeAssignmentCount
  rw [List.countP_eq_length_filter]
  refine encard_of_list ((nodup_indexIds _ _).filter _) fun id => ?_
  rw [List.mem_filter, h.agentIndex]
  constructor
  · exact And.left
  · rintro ⟨found, hfound, hactive, hagent⟩
    exact ⟨⟨found, hfound, hactive, hagent⟩, isActiveId_iff.mpr ⟨found, hfound, hactive⟩⟩

theorem active_of_slots {p : AssignmentRecord → Prop} (h : impl'.slots = impl.slots) :
    impl'.ledger.active p = impl.ledger.active p := by
  have hactive := congrArg (fun impl : Impl => impl.ledger.active p) h
  exact hactive

theorem activeAssignmentCount_of_slots (h : impl'.slots = impl.slots) :
    activeAssignmentCount impl' agent = activeAssignmentCount impl agent := by
  have hcount := congrArg (activeAssignmentCount · agent) h
  exact hcount

theorem AgentSettled.of (h : AgentSettled impl agent) (hagents : impl'.agents[agent]? = impl.agents[agent]?)
    (hactive : (impl'.ledger.active fun assignment => assignment.binding.agent = agent) =
      impl.ledger.active fun assignment => assignment.binding.agent = agent) : AgentSettled impl' agent := by
  intro record hrecord
  rw [hactive]
  exact h record (hagents ▸ hrecord)

theorem recomputeLifecycle_idem (record : AgentRecord) :
    recomputeLifecycle (recomputeLifecycle record) = recomputeLifecycle record := by
  by_cases hsticky : record.lifecycle.IsSticky
  · rw [recomputeLifecycle_sticky (.inl hsticky), recomputeLifecycle_sticky (.inl hsticky)]
  · unfold AgentLifecycle.IsSticky at hsticky
    unfold recomputeLifecycle
    repeat' split
    all_goals simp_all

theorem AgentRecord.lifecycle_of_gist {record record' : AgentRecord} (h : record'.gist = record.gist) :
    record'.lifecycle = record.lifecycle ∧ record'.activeAssignments = record.activeAssignments := by
  simp only [AgentRecord.gist, AgentRecord.mk.injEq] at h
  tauto

/-- Telemetry does not decide the lifecycle. -/
theorem recomputeLifecycle_of_gist {record record' : AgentRecord} (h : record'.gist = record.gist)
    (hsettled : recomputeLifecycle record = record) : recomputeLifecycle record' = record' := by
  have hread : ∀ record : AgentRecord, (recomputeLifecycle record.gist).lifecycle = (recomputeLifecycle record).lifecycle := by
    intro record
    unfold recomputeLifecycle
    repeat' split
    all_goals first | rfl | contradiction
  have hlifecycle : (recomputeLifecycle record').lifecycle = record'.lifecycle := by
    rw [← hread, h, hread, hsettled]
    exact (AgentRecord.lifecycle_of_gist h).1.symm
  rw [recomputeLifecycle_eq, hlifecycle]

/-- An agent whose slots were just counted is settled. -/
theorem AgentSettled.recounted {stale : Set WorkId} (h : Coherent stale impl') (hslots : impl'.slots = impl.slots)
    (hkey : Keyed (fun record : AgentRecord => record.descriptor.id) impl.agents)
    (hagents : impl'.agents[agent]? = (impl.agents[agent]?).map (AgentRecord.recounted · impl)) :
    AgentSettled impl' agent := by
  intro record hrecord
  rw [hagents] at hrecord
  obtain ⟨before, hbefore, rfl⟩ := Option.map_eq_some_iff.mp hrecord
  have hid : before.descriptor.id = agent := hkey agent before hbefore
  refine ⟨?_, recomputeLifecycle_idem _⟩
  rw [h.encard_active_agent, activeAssignmentCount_of_slots hslots, AgentRecord.recounted, recomputeLifecycle_eq, hid]

end Settled

/-- Every index is up to date, but for the unfiled agents, and so are the slots and lifecycles but for the unsettled. -/
structure Tidy (unfiled unsettled : Set AgentId) (impl : Impl) : Prop where
  filed : ∀ agent ∉ unfiled, AgentFiled impl agent impl.agents[agent]?
  settled : ∀ agent ∉ unsettled, AgentSettled impl agent
  work : ∀ work, WorkFiled impl work impl.work[work]?

section Deeds
variable {impl impl' : Impl} {unfiled unsettled : Set AgentId}

theorem Tidy.of_files (h : Tidy unfiled unsettled impl) (hagents : impl'.agentFile = impl.agentFile)
    (hwork : impl'.workFile = impl.workFile) (hslots : impl'.slots = impl.slots) : Tidy unfiled unsettled impl' := by
  have hstored := congrArg Impl.agents hagents
  have hstored : impl'.agents = impl.agents := hstored
  exact ⟨fun agent hfresh => (h.filed agent hfresh).of_file hagents,
    fun agent hfresh => (h.settled agent hfresh).of (by rw [hstored]) (active_of_slots hslots),
    fun work => (h.work work).of_file hwork⟩

/-- An agent that is touched becomes stale. -/
private theorem Tidy.setAgent {agent : AgentId} {record : AgentRecord} (h : Tidy unfiled unsettled impl) :
    Tidy (insert agent unfiled) (insert agent unsettled) (impl.setAgent agent record) := by
  have hother : ∀ {stale : Set AgentId} (other), other ∉ insert agent stale → agent ≠ other ∧ other ∉ stale := fun other hfresh =>
    ⟨fun heq => hfresh (.inl heq.symm), fun hmem => hfresh (.inr hmem)⟩
  refine ⟨fun other hfresh => ?_, fun other hfresh => ?_, fun work => (h.work work).of_file rfl⟩
  · obtain ⟨hne, hold⟩ := hother other hfresh
    rw [getElem?_setAgent, if_neg hne]
    obtain ⟨h1, h2, h3, h4⟩ := h.filed other hold
    exact ⟨h1, h2, h3, h4⟩
  · obtain ⟨hne, hold⟩ := hother other hfresh
    exact (h.settled other hold).of (by rw [getElem?_setAgent, if_neg hne]) (active_of_slots rfl)

/-- Telemetry decides neither where an agent is filed nor whether it is settled. -/
private theorem Tidy.note {agent : AgentId} {record record' : AgentRecord} (h : Tidy unfiled unsettled impl)
    (hrecord : impl.agents[agent]? = some record) (hgist : record'.gist = record.gist) :
    Tidy unfiled unsettled (impl.setAgent agent record') := by
  obtain ⟨hdescriptor, hprofile, hcurrent⟩ := AgentRecord.read_of_essence (AgentRecord.Keeps.of_gist hgist).essence
  obtain ⟨hlifecycle, hactive⟩ := AgentRecord.lifecycle_of_gist hgist
  refine ⟨fun other hfresh => ?_, fun other hfresh => ?_, fun work => (h.work work).of_file rfl⟩
  · rw [getElem?_setAgent]
    obtain ⟨h1, h2, h3, h4⟩ := h.filed other hfresh
    split
    · next heq =>
      subst heq
      rw [hrecord] at h1 h2 h3 h4
      refine ⟨h1.congr fun key => ?_, h2.congr fun key => ?_, h3.congr fun key => ?_, h4.congr fun key => ?_⟩ <;>
        simp [hdescriptor, hprofile, hcurrent, hlifecycle]
    · exact ⟨h1, h2, h3, h4⟩
  · by_cases heq : agent = other
    · subst heq
      intro found hfound
      rw [getElem?_setAgent, if_pos rfl] at hfound
      obtain rfl := Option.some.inj hfound
      obtain ⟨hcount, hsettled⟩ := h.settled agent hfresh record hrecord
      exact ⟨by rw [hactive]; exact hcount, recomputeLifecycle_of_gist hgist hsettled⟩
    · exact (h.settled other hfresh).of (by rw [getElem?_setAgent, if_neg heq]) (active_of_slots rfl)

private theorem files_indexStoredAgent (impl : Impl) (agent : AgentId) :
    (indexStoredAgent impl agent).workFile = impl.workFile ∧ (indexStoredAgent impl agent).slots = impl.slots := by
  unfold indexStoredAgent
  split <;> exact ⟨rfl, rfl⟩

private theorem Tidy.refreshAgent (h : Tidy unfiled unsettled impl) (hconsistent : Consistent impl) (agent : AgentId) :
    Tidy (unfiled \ {agent}) (unsettled \ {agent}) (refreshAgent impl agent) := by
  have hagents := agents_refreshAgent hconsistent.agentKey agent
  have hwork : (AgentScheduler.refreshAgent impl agent).workFile = impl.workFile :=
    (files_indexStoredAgent _ agent).1.trans (workFile_refreshAgentAccounting _ agent)
  have hslots : (AgentScheduler.refreshAgent impl agent).slots = impl.slots :=
    (files_indexStoredAgent _ agent).2.trans (slots_refreshAgentAccounting _ agent)
  refine ⟨fun other hfresh => ?_, fun other hfresh => ?_, fun work => (h.work work).of_file hwork⟩
  · by_cases heq : agent = other
    · subst heq
      exact AgentFiled.refreshAgent hconsistent.agentKey agent
    · exact AgentFiled.refreshAgent_other hconsistent.agentKey
        (h.filed other fun hmem => hfresh ⟨hmem, fun hother => heq hother.symm⟩) heq
  · by_cases heq : agent = other
    · subst heq
      refine AgentSettled.recounted (Quiet.refreshAgent impl agent hconsistent).1 hslots hconsistent.agentKey ?_
      rw [hagents, agents_refreshAgentAccounting _ _ _ hconsistent.agentKey, if_pos rfl]
    · refine (h.settled other fun hmem => hfresh ⟨hmem, fun hother => heq hother.symm⟩).of ?_ (active_of_slots hslots)
      rw [hagents, agents_refreshAgentAccounting _ _ _ hconsistent.agentKey, if_neg heq]

theorem Tidy.recount {behind : Set WorkId} (h : Tidy unfiled unsettled impl) (hcoherent : Coherent behind impl)
    (agent : AgentId) : Tidy unfiled (unsettled \ {agent}) (refreshAgentAccounting impl agent) := by
  refine ⟨fun other hfresh => (h.filed other hfresh).refreshAgentAccounting hcoherent.agentKey agent,
    fun other hfresh => ?_, fun work => (h.work work).of_file (workFile_refreshAgentAccounting impl agent)⟩
  have hagents := agents_refreshAgentAccounting _ agent other hcoherent.agentKey
  by_cases heq : agent = other
  · subst heq
    exact AgentSettled.recounted (hcoherent.refreshAgentAccounting agent) (slots_refreshAgentAccounting impl agent)
      hcoherent.agentKey (hagents.trans (if_pos rfl))
  · exact (h.settled other fun hmem => hfresh ⟨hmem, fun hother => heq hother.symm⟩).of (hagents.trans (if_neg heq))
      (active_of_slots (slots_refreshAgentAccounting impl agent))

theorem Tidy.mono {unfiled' unsettled' : Set AgentId} (h : Tidy unfiled unsettled impl) (hfiled : unfiled ⊆ unfiled')
    (hsettled : unsettled ⊆ unsettled') : Tidy unfiled' unsettled' impl :=
  ⟨fun agent hfresh => h.filed agent fun hmem => hfresh (hfiled hmem),
    fun agent hfresh => h.settled agent fun hmem => hfresh (hsettled hmem), h.work⟩

/-- A new agent is filed and settled at once. -/
private theorem Tidy.enroll {ctx : Context} {descriptor : AgentDescriptor} {reason : Text} (h : Tidy unfiled unsettled impl)
    (hunknown : impl.agents[descriptor.id]? = none)
    (hidle : (impl.ledger.active fun assignment => assignment.binding.agent = descriptor.id) = ∅) :
    Tidy unfiled unsettled (indexAgent (impl.setAgent descriptor.id (freshAgent ctx.now impl descriptor reason))
      (freshAgent ctx.now impl descriptor reason)) := by
  let fresh := freshAgent ctx.now impl descriptor reason
  have hid : fresh.descriptor.id = descriptor.id := by rw [freshAgent_descriptor]; rfl
  refine ⟨fun other hfresh => ?_, fun other hfresh => ?_, fun work => (h.work work).of_file rfl⟩
  · obtain ⟨h1, h2, h3, h4⟩ := h.filed other hfresh
    change AgentFiled _ other (impl.setAgent descriptor.id fresh).agents[other]?
    rw [getElem?_setAgent]
    split
    · next heq =>
      subst heq
      rw [hunknown] at h1 h2 h3 h4
      exact AgentFiled.indexAgent (impl.setAgent descriptor.id fresh) hid
        (fun key hmem => by simpa using (h1 key).mp hmem) (h2.congr fun key => by simp) (h3.congr fun key => by simp)
        (h4.congr fun key => by simp)
    · next hne =>
      exact AgentFiled.indexAgent_other (impl.setAgent descriptor.id fresh) ⟨h1, h2, h3, h4⟩ (hid ▸ hne)
  · by_cases heq : descriptor.id = other
    · subst heq
      intro found hfound
      change (impl.setAgent descriptor.id fresh).agents[descriptor.id]? = some found at hfound
      rw [getElem?_setAgent, if_pos rfl] at hfound
      obtain rfl := Option.some.inj hfound
      refine ⟨?_, recomputeLifecycle_idem _⟩
      change (impl.ledger.active _).encard = _
      rw [hidle, Set.encard_empty]
      simp only [fresh, freshAgent]
      rw [recomputeLifecycle_eq]
      rfl
    · refine (h.settled other hfresh).of ?_ (active_of_slots rfl)
      change (impl.setAgent descriptor.id fresh).agents[other]? = _
      rw [getElem?_setAgent, if_neg heq]

/-- Storing another version of a work item, its lifecycle indexed in step. -/
private theorem Tidy.settle {work : WorkId} {record record' : WorkRecord} (h : Tidy unfiled unsettled impl)
    (hrecord : impl.work[work]? = some record) (hrequest : record'.request = record.request) :
    Tidy unfiled unsettled (syncWorkLifecycleIndex (impl.setWork work record') work record'.lifecycle) :=
  ⟨fun agent hfresh => (h.filed agent hfresh).of_file rfl,
    fun agent hfresh => (h.settled agent hfresh).of rfl (active_of_slots rfl),
    fun other => (h.work other).settled hrecord hrequest⟩

/-- What is stored of a work item under the same queue and lifecycle is filed alike. -/
private theorem Tidy.tally {work : WorkId} {record : WorkRecord} (record' : WorkRecord) (h : Tidy unfiled unsettled impl)
    (hrecord : impl.work[work]? = some record) (hqueue : record'.request.queue = record.request.queue)
    (hlifecycle : record'.lifecycle = record.lifecycle) : Tidy unfiled unsettled (impl.setWork work record') := by
  refine ⟨fun agent hfresh => (h.filed agent hfresh).of_file rfl,
    fun agent hfresh => (h.settled agent hfresh).of rfl (active_of_slots rfl), fun other => ?_⟩
  obtain ⟨h1, h2⟩ := h.work other
  rw [getElem?_setWork]
  split
  · next heq =>
    subst heq
    rw [hrecord] at h1 h2
    refine ⟨h1.congr fun key => ?_, h2.congr fun key => ?_⟩ <;> simp [hqueue, hlifecycle]
  · exact ⟨h1, h2⟩

private theorem Tidy.accept {work : WorkId} {record : WorkRecord} (h : Tidy unfiled unsettled impl) (hkey : record.request.id = work)
    (hnone : WorkFiled impl work none) : Tidy unfiled unsettled (indexWork (impl.setWork work record) record) := by
  refine ⟨fun agent hfresh => (h.filed agent hfresh).of_file rfl,
    fun agent hfresh => (h.settled agent hfresh).of rfl (active_of_slots rfl), fun other => ?_⟩
  change WorkFiled _ other (impl.setWork work record).work[other]?
  rw [getElem?_setWork]
  split
  · next heq =>
    subst heq
    exact WorkFiled.indexWork (impl.setWork work record) ⟨hnone.queue, hnone.lifecycle⟩ hkey
  · next hne =>
    obtain ⟨h1, h2⟩ := h.work other
    exact WorkFiled.indexWork_other (impl.setWork work record) ⟨h1, h2⟩ (hkey ▸ hne)

private theorem Tidy.reopen {work : WorkId} {record : WorkRecord} (h : Tidy unfiled unsettled impl) (hkey : record.request.id = work) :
    Tidy unfiled unsettled (indexWork ((deindexWork impl work).setWork work record) record) := by
  refine ⟨fun agent hfresh => (h.filed agent hfresh).of_file rfl,
    fun agent hfresh => (h.settled agent hfresh).of rfl (active_of_slots rfl), fun other => ?_⟩
  change WorkFiled _ other ((deindexWork impl work).setWork work record).work[other]?
  rw [getElem?_setWork]
  split
  · next heq =>
    subst heq
    obtain ⟨h1, h2⟩ := WorkFiled.deindexWork impl work
    exact WorkFiled.indexWork ((deindexWork impl work).setWork work record) ⟨h1, h2⟩ hkey
  · next hne =>
    obtain ⟨h1, h2⟩ := (h.work other).deindexWork_other hne
    exact WorkFiled.indexWork_other ((deindexWork impl work).setWork work record) ⟨h1, h2⟩ (hkey ▸ hne)

theorem Tidy.refreshWork (h : Tidy unfiled unsettled impl)
    (hkey : Keyed (fun record : WorkRecord => record.request.id) impl.work) (work : WorkId) :
    Tidy unfiled unsettled (refreshWorkAccounting impl work) := by
  have hagents := congrArg Impl.agents (agentFile_refreshWorkAccounting impl work)
  have hagents : (refreshWorkAccounting impl work).agents = impl.agents := hagents
  exact ⟨fun agent hfresh => (h.filed agent hfresh).of_file (agentFile_refreshWorkAccounting impl work),
    fun agent hfresh =>
      (h.settled agent hfresh).of (by rw [hagents]) (active_of_slots (slots_refreshWorkAccounting impl work)),
    fun other => (h.work other).refreshWorkAccounting hkey work⟩

/-- An active assignment moves on under its binding. -/
private theorem Tidy.advance {id : AssignmentId} {before after : AssignmentRecord} (h : Tidy unfiled unsettled impl)
    (hbefore : impl.assignments[id]? = some before) (hwas : before.state.isActive) (hactive : after.state.isActive)
    (hbinding : SameBinding before after) : Tidy unfiled unsettled (impl.setAssignment id after) := by
  refine ⟨fun agent hfresh => (h.filed agent hfresh).of_file rfl, fun agent hfresh => ?_,
    fun other => (h.work other).of_file rfl⟩
  refine (h.settled agent hfresh).of rfl ?_
  rw [ledger_setAssignment]
  exact Ledger.active_setAssignment hbefore hwas hactive (by rw [hbinding])

/-! ### Closing and committing -/

/-- The tables once a record is ended and off both indexes and its agent's recent slots decayed, before any
accounting. -/
def unslotted (impl : Impl) (id : AssignmentId) (record closed : AssignmentRecord) : Impl :=
  (deindexAssignment (dropLease (impl.setAssignment id closed) record.binding.lease) closed).modifyAgent
    record.binding.agent decayRecent

/-- Closing an open record frees the slot, then counts everything. -/
theorem closeAssignment_eq {now : UInt64} {id : AssignmentId} {record : AssignmentRecord} {state : AssignmentState}
    {reason : InvalidationReason} {detail : Text} (hrecord : impl.assignments[id]? = some record)
    (hopen : record.state.isTerminal = false) :
    closeAssignment now impl id state reason detail =
      let refreshed := refreshWorkAccounting (refreshAgentAccounting
        (unslotted impl id record (record.close now state reason detail)) record.binding.agent) record.binding.work
      Impl.revise { refreshed with assignmentsInvalidated := refreshed.assignmentsInvalidated + 1 } := by
  unfold closeAssignment unslotted
  simp only [hrecord, hopen, Bool.false_eq_true, if_false]
  let base := deindexAssignment (dropLease (impl.setAssignment id (record.close now state reason detail))
    record.binding.lease) (record.close now state reason detail)
  have hdecayed : base.decayAgent record.binding.agent =
      refreshAgentAccounting (base.modifyAgent record.binding.agent decayRecent) record.binding.agent := by
    unfold Impl.decayAgent
    cases hagent : base.agents[record.binding.agent]? with
    | none =>
      have hsame : base.modifyAgent record.binding.agent decayRecent = base := by
        unfold Impl.modifyAgent
        rw [modify_eq_self hagent]
      rw [hsame, refreshAgentAccounting_unknown hagent]
    | some agent => rw [modifyAgent_eq_setAgent hagent]
  exact congrArg (fun refreshed : Impl => Impl.revise
    { refreshWorkAccounting refreshed record.binding.work with
      assignmentsInvalidated := (refreshWorkAccounting refreshed record.binding.work).assignmentsInvalidated + 1 }) hdecayed

/-- Replacing a record outside of a class of records by another one outside of it changes nothing in the class. -/
theorem Ledger.active_setAssignment_of_not {ledger : Ledger} {id : AssignmentId} {before after : AssignmentRecord}
    {p : AssignmentRecord → Prop} (hbefore : ledger.assignments id = some before) (hp : ¬p before) (hp' : ¬p after) :
    (ledger.setAssignment id after).active p = ledger.active p := by
  ext other
  unfold Ledger.active Ledger.setAssignment
  by_cases hid : other = id
  · subst hid
    simp [hbefore, hp, hp']
  · simp [Function.update_of_ne hid]

private theorem insert_sdiff_subset (agent : AgentId) (agents : Set AgentId) : insert agent agents \ {agent} ⊆ agents := by
  rintro other ⟨hother | hother, hne⟩
  · exact (hne hother).elim
  · exact hother

private theorem Tidy.close {ctx : Context} {id : AssignmentId} {record : AssignmentRecord} {state : AssignmentState}
    {reason : InvalidationReason} {detail : Text} (h : Tidy unfiled unsettled impl) (hconsistent : Consistent impl)
    (hrecord : impl.assignments[id]? = some record) (hopen : record.state.isTerminal = false)
    (hterminal : state.isTerminal) :
    Tidy unfiled unsettled (closeAssignment ctx.now impl id state reason detail) := by
  let closed := record.close ctx.now state reason detail
  let agent := record.binding.agent
  let base := deindexAssignment (dropLease (impl.setAssignment id closed) record.binding.lease) closed
  have hbase : Coherent {record.binding.work} base := coherent_unslot hconsistent hrecord hterminal rfl
  have hfreed : Tidy unfiled (insert agent unsettled) base := by
    refine ⟨fun other hfresh => (h.filed other hfresh).of_file rfl, fun other hfresh => ?_,
      fun work => (h.work work).of_file rfl⟩
    have hne : record.binding.agent ≠ other := fun heq => hfresh (.inl heq.symm)
    refine (h.settled other fun hmem => hfresh (.inr hmem)).of rfl ?_
    rw [show base.ledger = impl.ledger.setAssignment id closed from ledger_setAssignment impl id closed]
    exact Ledger.active_setAssignment_of_not hrecord hne hne
  have hnoted : Coherent {record.binding.work} (unslotted impl id record closed) ∧
      Tidy unfiled (insert agent unsettled) (unslotted impl id record closed) := by
    have hgist : ∀ agent, (decayRecent agent).gist = agent.gist := fun agent => by
      unfold decayRecent
      split <;> rfl
    unfold unslotted
    cases hagent : base.agents[record.binding.agent]? with
    | none =>
      have hsame : base.modifyAgent record.binding.agent decayRecent = base := by
        unfold Impl.modifyAgent
        rw [modify_eq_self hagent]
      rw [hsame]
      exact ⟨hbase, hfreed⟩
    | some stored =>
      rw [modifyAgent_eq_setAgent hagent]
      have hdescriptor := AgentRecord.descriptor_of_gist (hgist stored)
      refine ⟨hbase.setAgent ?_ ?_, hfreed.note hagent (hgist stored)⟩
      · rw [hdescriptor]
        exact hbase.agentKey _ stored hagent
      · rw [hdescriptor]
        exact hbase.agentBoot _ stored hagent
  have hcounted := hnoted.2.recount hnoted.1 agent
  have hrefreshed := hcounted.refreshWork (hnoted.1.refreshAgentAccounting agent).workKey record.binding.work
  have htidy := hrefreshed.mono subset_rfl (insert_sdiff_subset agent unsettled)
  rw [closeAssignment_eq hrecord hopen]
  exact htidy.of_files rfl rfl rfl

/-- A commit outside of a class of records neither takes a slot in the class nor frees one. -/
theorem Ledger.active_commit_of_not {ledger : Ledger} {entry : WorkEntry} {binding : AssignmentBinding}
    {p : AssignmentRecord → Prop} (hnot : ¬p binding.record) : (ledger.commit entry binding).active p = ledger.active p := by
  refine ((ledger.active_commit entry binding _).2 hnot).antisymm ?_
  rintro id ⟨record, hrecord, hactive, hp⟩
  refine ⟨record, ?_, hactive, hp⟩
  change (if id = binding.id then some ((ledger.assignments id).getD binding.record) else ledger.assignments id) = some record
  rw [hrecord]
  split <;> rfl

private theorem files_indexStoredAssignment (impl : Impl) (id : AssignmentId) :
    (indexStoredAssignment impl id).agentFile = impl.agentFile ∧ (indexStoredAssignment impl id).workFile = impl.workFile := by
  unfold indexStoredAssignment
  split
  · exact ⟨rfl, rfl⟩
  · unfold indexAssignment
    split <;> exact ⟨rfl, rfl⟩

/-- A stored record takes a slot of its agent; its agent is to be counted. -/
private theorem Tidy.slotted {binding : AssignmentBinding} {work : WorkRecord} (h : Tidy unfiled unsettled impl)
    (hwork : impl.work[binding.work]? = some work) :
    Tidy unfiled (insert binding.agent unsettled) (slotted impl work binding) := by
  have hagents : (AgentScheduler.slotted impl work binding).agentFile = impl.agentFile :=
    (files_indexStoredAssignment _ _).1
  have hnumbered := h.tally { work with lastAssignmentGeneration := binding.generation } hwork rfl rfl
  have hfile : (AgentScheduler.slotted impl work binding).workFile =
      (impl.setWork binding.work { work with lastAssignmentGeneration := binding.generation }).workFile :=
    (files_indexStoredAssignment _ _).2
  have hstored := congrArg Impl.agents hagents
  have hstored : (AgentScheduler.slotted impl work binding).agents = impl.agents := hstored
  refine ⟨fun other hfresh => (h.filed other hfresh).of_file hagents, fun other hfresh => ?_,
    fun other => (hnumbered.work other).of_file hfile⟩
  have hne : binding.agent ≠ other := fun heq => hfresh (.inl heq.symm)
  refine (h.settled other fun hmem => hfresh (.inr hmem)).of (by rw [hstored]) ?_
  rw [ledger_slotted]
  exact Ledger.active_commit_of_not hne

private theorem Tidy.commit {ctx : Context} {generation : WorkGeneration} {binding : AssignmentBinding} {work : WorkRecord}
    (h : Tidy unfiled unsettled impl) (hconsistent : Consistent impl)
    (hcheck : commitCheck ctx impl binding.work generation binding = .ok work) :
    Tidy unfiled unsettled (commitApply impl binding.work work binding) := by
  have hwork := (commits_of_check hconsistent hcheck).1
  have hcoherent := coherent_slotted hconsistent hwork
  have hrefreshed := (h.slotted hwork).refreshWork hcoherent.workKey binding.work
  have hcounted := hrefreshed.recount (hcoherent.refreshWorkAccounting binding.work) binding.agent
  have htidy := hcounted.mono subset_rfl (insert_sdiff_subset binding.agent unsettled)
  rw [commitApply_eq hwork]
  exact htidy.of_files rfl rfl rfl

/-- Every deed keeps what is tidy tidy. -/
theorem Deed.tidy {ctx : Context} {event : Event} {scene scene' : Set AgentId × Impl} (hdeed : Deed ctx event scene scene')
    (hconsistent : Consistent scene.2) (h : Tidy scene.1 scene.1 scene.2) : Tidy scene'.1 scene'.1 scene'.2 := by
  cases hdeed with
  | quiet impl' hessence _ =>
    obtain ⟨hagents, hwork, hslots⟩ := files_of_tables (tables_of_essence hessence)
    exact h.of_files hagents hwork hslots
  | govern impl' htables _ =>
    obtain ⟨hagents, hwork, hslots⟩ := files_of_tables htables
    exact h.of_files hagents hwork hslots
  | close id record state reason detail hrecord hopen hterminal => exact h.close hconsistent hrecord hopen hterminal
  | fence agent boot generation reason =>
    refine h.of_files ?_ ?_ ?_ <;> unfold fenceBoot <;> split <;> rfl
  | touch agent record event => exact h.setAgent
  | refresh agent => exact h.refreshAgent hconsistent agent
  | recount agent => exact (h.recount hconsistent agent).mono subset_rfl Set.sdiff_subset
  | note agent record record' hrecord hgist _ => exact h.note hrecord hgist
  | enroll descriptor _ hunknown hidle => exact h.enroll hunknown hidle
  | reincarnate descriptor existing => exact h.setAgent
  | accept work record hkey _ _ hunknown => exact h.accept hkey (hunknown ▸ h.work work)
  | reopen work record hkey => exact h.reopen hkey
  | settle work record lifecycle reason hrecord _ => exact h.settle hrecord rfl
  | tally work record record' hrecord hgist =>
    obtain ⟨hrequest, hlifecycle, -⟩ := WorkRecord.read_of_gist hgist
    exact h.tally _ hrecord (by rw [hrequest]) hlifecycle
  | refreshWork work => exact h.refreshWork hconsistent.workKey work
  | commit generation binding work hcheck => exact h.commit hconsistent hcheck
  | advance id before after hbefore hwas hactive hbinding => exact h.advance hbefore hwas hactive hbinding

end Deeds

/-! ### Reachable instances are tidy -/

section Reachable
variable {impl : Impl} {unfiled unsettled : Set AgentId}

theorem Tidy.refreshAgents {stale : Set WorkId} (h : Tidy unfiled unsettled impl) (hcoherent : Coherent stale impl)
    (agents : List AgentId) :
    Tidy unfiled (unsettled \ {agent | agent ∈ agents}) (agents.foldl refreshAgentAccounting impl) := by
  induction agents generalizing impl unsettled with
  | nil => simpa using h
  | cons agent agents ih =>
    refine (ih (h.recount hcoherent agent) (hcoherent.refreshAgentAccounting agent)).mono subset_rfl fun other hother => ?_
    simp only [Set.mem_sdiff, Set.mem_singleton_iff, Set.mem_ofPred_eq, List.mem_cons] at hother ⊢
    exact ⟨hother.1.1, fun hmem => hmem.elim hother.1.2 hother.2⟩

theorem Tidy.refreshWorks {stale : Set WorkId} (h : Tidy unfiled unsettled impl) (hcoherent : Coherent stale impl)
    (works : List WorkId) : Tidy unfiled unsettled (works.foldl refreshWorkAccounting impl) := by
  induction works generalizing impl stale with
  | nil => exact h
  | cons work works ih => exact ih (h.refreshWork hcoherent.workKey work) (hcoherent.refreshWorkAccounting work)

/-- An agent that is not registered is settled. -/
private theorem Tidy.of_unknown (h : Tidy unfiled unsettled impl)
    (hunknown : ∀ agent ∈ unsettled, impl.agents[agent]? = none) : Tidy unfiled ∅ impl := by
  refine ⟨h.filed, fun agent _ => ?_, h.work⟩
  by_cases hmem : agent ∈ unsettled
  · intro record hrecord
    rw [hunknown agent hmem] at hrecord
    cases hrecord
  · exact h.settled agent hmem

private theorem mem_agents_refreshAgents (agents : List AgentId) (impl : Impl) (agent : AgentId) :
    agent ∈ (agents.foldl refreshAgentAccounting impl).agents ↔ agent ∈ impl.agents := by
  refine List.foldlRecOn (motive := fun after : Impl => agent ∈ after.agents ↔ agent ∈ impl.agents) agents _ Iff.rfl
    fun after hafter refreshed _ => ?_
  refine Iff.trans ?_ hafter
  unfold refreshAgentAccounting
  split
  · rfl
  · next record hrecord =>
    change agent ∈ after.agents.insert refreshed _ ↔ _
    rw [ExtTreeMap.mem_insert, Std.compare_eq_iff_eq]
    refine or_iff_right_of_imp fun heq => ?_
    rw [← heq]
    exact ExtTreeMap.mem_iff_isSome_getElem?.mpr (by rw [hrecord]; rfl)

/-- Recovery rebuilds every index and counts everything anew. -/
theorem tidy_restore {impl file : Impl} (h : Consistent file) : Tidy ∅ ∅ (restore impl (image file)) := by
  let installed := install impl (image file)
  let rebuilt := rebuildIndexes installed
  let counted := rebuilt.agents.keys.foldl refreshAgentAccounting rebuilt
  have hcoherent : Coherent Set.univ rebuilt := coherent_install _ h
  have hagents : rebuilt.agents = installed.agents := read_rebuildIndexes _ (f := Impl.agents) fun _ => rfl
  have hwork : rebuilt.work = installed.work := read_rebuildIndexes _ (f := Impl.work) fun _ => rfl
  have hrebuilt : Tidy ∅ Set.univ rebuilt := by
    refine ⟨fun agent _ => ?_, fun agent hfresh => (hfresh trivial).elim, fun work => ?_⟩
    · rw [hagents]
      exact AgentFiled.rebuildIndexes (hagents ▸ hcoherent.agentKey) agent
    · rw [hwork]
      exact WorkFiled.rebuildIndexes (hwork ▸ hcoherent.workKey) work
  have hcounted : Tidy ∅ ∅ counted := by
    refine (hrebuilt.refreshAgents hcoherent rebuilt.agents.keys).of_unknown fun agent hunknown => ?_
    refine ExtTreeMap.getElem?_eq_none fun hmem => hunknown.2 ?_
    exact ExtTreeMap.mem_keys.mpr ((mem_agents_refreshAgents rebuilt.agents.keys rebuilt agent).mp hmem)
  have hrefreshed := hcounted.refreshWorks (hcoherent.refreshAgents rebuilt.agents.keys).1 counted.work.keys
  exact hrefreshed.of_files rfl rfl rfl

/-- Empty tables are tidy. -/
private theorem tidy_of_empty (hagents : impl.agentFile = {}) (hwork : impl.workFile = {}) : Tidy ∅ ∅ impl := by
  have hempty : Tidy ∅ ∅ ({} : Impl) := by
    refine ⟨fun agent _ => ?_, fun agent _ record hrecord => ?_, fun work => ?_⟩
    · constructor <;> exact fun key => by simp [indexIds]
    · rw [ExtTreeMap.getElem?_empty] at hrecord
      cases hrecord
    · constructor <;> exact fun key => by simp [indexIds]
  have hstored := congrArg Impl.agents hagents
  have hstored : impl.agents = ∅ := hstored
  refine ⟨fun agent hfresh => (hempty.filed agent hfresh).of_file hagents, fun agent _ record hrecord => ?_,
    fun work => (hempty.work work).of_file hwork⟩
  rw [hstored, ExtTreeMap.getElem?_empty] at hrecord
  cases hrecord

theorem tidy_construct {options : SchedulerOptions} {generatedId : SchedulerId} {impl : Impl}
    (h : construct options generatedId = some impl) : Tidy ∅ ∅ impl := by
  unfold construct at h
  simp only at h
  split at h
  · rw [← Option.some.inj h]
    split
    · refine tidy_of_empty ?_ ?_ <;> unfold start <;> split <;> rfl
    · exact tidy_of_empty rfl rfl
  · cases h

/-- Every reachable instance is tidy. -/
theorem System.Reachable.tidy {system : System} (h : system.Reachable) : Tidy ∅ ∅ system.impl := by
  refine System.ReachableBy.keeps (motive := fun system => Tidy ∅ ∅ system.impl) h (fun start hstart => ?_)
    fun system after label reply hvalid _ hstep htidy => ?_
  · obtain ⟨options, generatedId, now, hstart⟩ := hstart
    obtain ⟨impl, hconstruct, rfl⟩ := Option.map_eq_some_iff.mp hstart
    exact tidy_construct hconstruct
  · rcases System.step_deeds hvalid hstep with ⟨position, file, -, hfile, -, himpl⟩ | ⟨options, id, -, hconstruct⟩ | hdeeds
    · rw [himpl]
      exact tidy_restore (hvalid.saved file (List.mem_of_getElem? hfile)).consistent
    · exact tidy_construct hconstruct
    · exact Deeds.keeps (motive := fun scene => Tidy scene.1 scene.1 scene.2) hdeeds
        (fun event scene scene' _ hdeed hconsistent htidy => hdeed.tidy hconsistent htidy) hvalid.healthy.consistent htidy

end Reachable

/-! ### Indexes and scans -/

/-- Every acceleration index lists under every key what a rebuild from the stored tables would list. -/
structure Impl.IndexesRebuilt (impl : Impl) : Prop where
  agentsByCapability : ∀ key,
    indexIds impl.indexAgentsByCapability key = indexIds (rebuildIndexes impl).indexAgentsByCapability key
  agentsByLifecycle : ∀ key,
    indexIds impl.indexAgentsByLifecycle key = indexIds (rebuildIndexes impl).indexAgentsByLifecycle key
  agentsByTenant : ∀ key, indexIds impl.indexAgentsByTenant key = indexIds (rebuildIndexes impl).indexAgentsByTenant key
  agentsByDomain : ∀ key, indexIds impl.indexAgentsByDomain key = indexIds (rebuildIndexes impl).indexAgentsByDomain key
  workByQueue : ∀ key, indexIds impl.indexWorkByQueue key = indexIds (rebuildIndexes impl).indexWorkByQueue key
  workByLifecycle : ∀ key, indexIds impl.indexWorkByLifecycle key = indexIds (rebuildIndexes impl).indexWorkByLifecycle key
  assignmentsByAgent : ∀ key,
    indexIds impl.indexAssignmentsByAgent key = indexIds (rebuildIndexes impl).indexAssignmentsByAgent key
  assignmentsByWork : ∀ key,
    indexIds impl.indexAssignmentsByWork key = indexIds (rebuildIndexes impl).indexAssignmentsByWork key

/-- The first stored active exclusive assignment of a work item, found without an index. -/
def Impl.scanExclusive (impl : Impl) (work : WorkId) : Option AssignmentId :=
  (impl.assignments.toList.find? fun (_, record) =>
    record.state.isActive && record.binding.work = work && record.binding.exclusive).map Prod.fst

/-- The counters and the indexed queries give what a scan of the stored assignments gives. -/
structure Impl.CountsScanned (impl : Impl) : Prop where
  agents : ∀ (agent : AgentId) record, impl.agents[agent]? = some record →
    record.activeAssignments = impl.activeCount fun assignment => assignment.binding.agent = agent
  work : ∀ (work : WorkId) record, impl.work[work]? = some record →
    record.currentAssignments = impl.activeCount fun assignment => assignment.binding.work = work
  exclusive : ∀ work, activeExclusiveAssignment impl work = impl.scanExclusive work
  onAgent : ∀ work agent, activeAssignmentsOnAgent impl work agent =
    impl.activeCount fun assignment => assignment.binding.work = work && assignment.binding.agent = agent

section Scans
variable {impl : Impl}

theorem Tidy.indexesRebuilt (h : Tidy ∅ ∅ impl) (hconsistent : Consistent impl) : impl.IndexesRebuilt := by
  have hagents := AgentFiled.rebuildIndexes hconsistent.agentKey
  have hwork := WorkFiled.rebuildIndexes hconsistent.workKey
  have hexact : ∀ (p : AssignmentRecord → Prop) (member : AssignmentId), member ∈ impl.ledger.active p ↔
      ∃ (id : AssignmentId) (record : AssignmentRecord), impl.assignments[id]? = some record ∧
        record.state.isActive ∧ p record ∧ record.binding.id = member := by
    intro p member
    constructor
    · rintro ⟨record, hrecord, hactive, hp⟩
      exact ⟨member, record, hrecord, hactive, hp, hconsistent.assignmentKey member record hrecord⟩
    · rintro ⟨id, record, hrecord, hactive, hp, rfl⟩
      have hid : record.binding.id = id := hconsistent.assignmentKey id record hrecord
      exact ⟨record, hid ▸ hrecord, hactive, hp⟩
  constructor <;> intro key <;> refine indexIds_ext fun member => ?_
  · exact ((h.filed member (Set.notMem_empty _)).capability key).trans ((hagents member).capability key).symm
  · exact ((h.filed member (Set.notMem_empty _)).lifecycle key).trans ((hagents member).lifecycle key).symm
  · exact ((h.filed member (Set.notMem_empty _)).tenant key).trans ((hagents member).tenant key).symm
  · exact ((h.filed member (Set.notMem_empty _)).domain key).trans ((hagents member).domain key).symm
  · exact ((h.work member).queue key).trans ((hwork member).queue key).symm
  · exact ((h.work member).lifecycle key).trans ((hwork member).lifecycle key).symm
  · rw [hconsistent.agentIndex, mem_rebuildIndexes_agent]
    exact hexact _ member
  · rw [hconsistent.workIndex, mem_rebuildIndexes_work]
    exact hexact _ member

/-- The index of a work item lists its active assignments in the order of the table. -/
theorem Consistent.indexIds_eq_scan (h : Consistent impl) (work : WorkId) :
    indexIds impl.indexAssignmentsByWork work =
      (impl.assignments.toList.filter fun (_, record) => record.state.isActive && record.binding.work = work).map Prod.fst := by
  have hscan : (impl.assignments.toList.filter fun (_, record) =>
      record.state.isActive && record.binding.work = work).map Prod.fst |>.Pairwise (compare · · = .lt) :=
    (ExtTreeMap.ordered_keys_toList.filter _).map Prod.fst fun _ _ => id
  have hindex : (indexIds impl.indexAssignmentsByWork work).Pairwise (compare · · = .lt) := by
    unfold indexIds
    split
    · exact .nil
    · exact ExtTreeSet.ordered_toList
  have hdistinct : ∀ {ids : List AssignmentId}, ids.Pairwise (compare · · = .lt) → ids.Nodup := fun hsorted =>
    hsorted.imp fun hlt heq => by simp [heq] at hlt
  refine @List.Perm.eq_of_pairwise _ (fun first second => compare first second = .lt) _ _
    (fun first second _ _ hlt hgt => ?_) hindex hscan ?_
  · rw [OrientedOrd.eq_swap, hgt] at hlt
    cases hlt
  · refine (List.perm_ext_iff_of_nodup (hdistinct hindex) (hdistinct hscan)).mpr fun id => ?_
    rw [h.workIndex]
    simp [Ledger.activeFor, Ledger.active, Impl.ledger, ExtTreeMap.mem_toList_iff_getElem?_eq_some]

theorem Consistent.exclusive_eq_scan (h : Consistent impl) (work : WorkId) :
    activeExclusiveAssignment impl work = impl.scanExclusive work := by
  unfold activeExclusiveAssignment Impl.scanExclusive
  rw [h.indexIds_eq_scan, List.find?_map, List.find?_filter]
  refine congrArg (Option.map Prod.fst) (List.find?_congr fun entry hentry => ?_)
  have hrecord : impl.assignments[entry.1]? = some entry.2 := ExtTreeMap.mem_toList_iff_getElem?_eq_some.mp hentry
  simp only [Function.comp, hrecord]
  cases entry.2.state.isActive <;> cases entry.2.binding.exclusive <;> simp

theorem Tidy.countsScanned (h : Tidy ∅ ∅ impl) (hconsistent : Consistent impl) : impl.CountsScanned := by
  refine ⟨fun agent record hrecord => ?_, fun work record hrecord => ?_, hconsistent.exclusive_eq_scan, fun work agent => ?_⟩
  · have hcount := (h.settled agent (Set.notMem_empty _) record hrecord).1
    rw [encard_active impl (p := fun assignment => assignment.binding.agent = agent) (by simp)] at hcount
    exact_mod_cast hcount.symm
  · have hcount := hconsistent.current work record (Set.notMem_empty _) hrecord
    rw [Ledger.activeFor, encard_active impl (p := fun assignment => assignment.binding.work = work) (by simp)] at hcount
    exact_mod_cast hcount.symm
  · have hcount := encard_activeOn hconsistent work agent
    rw [Ledger.activeOn, encard_active impl
      (p := fun assignment => assignment.binding.work = work && assignment.binding.agent = agent) (by simp)] at hcount
    exact_mod_cast hcount.symm

end Scans

/-- In every reachable state the acceleration indexes are those of a rebuild, and the counters and the indexed
queries agree with a scan of the assignments. -/
theorem indexes_rebuilt : ∀ system : System, system.Reachable → system.impl.IndexesRebuilt ∧ system.impl.CountsScanned :=
  fun _ h => ⟨System.Reachable.tidy h |>.indexesRebuilt h.valid.healthy.consistent,
    System.Reachable.tidy h |>.countsScanned h.valid.healthy.consistent⟩

set_option maxRecDepth 100000 in
/-- An instance in which one slot of a work item is taken. -/
theorem indexes_rebuilt_sample : ∃ system, Sample.run (fun _ _ => True)
    (Sample.enlist ++ Sample.submit Sample.exclusiveWork ++ Sample.schedule) = some system ∧
      system.impl.indexAssignmentsByWork.size = 1 ∧ system.impl.IndexesRebuilt ∧ system.impl.CountsScanned := by
  have hrun : (Sample.run (fun _ _ => True) (Sample.enlist ++ Sample.submit Sample.exclusiveWork ++ Sample.schedule)).map
      (fun system => system.impl.indexAssignmentsByWork.size) = some 1 := by decide +kernel
  obtain ⟨system, hsystem, hsize⟩ := Option.map_eq_some_iff.mp hrun
  exact ⟨system, hsystem, hsize, indexes_rebuilt system (Sample.run_reaches hsystem)⟩

end AgentScheduler
