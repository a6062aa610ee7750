import AgentScheduler.Register

/-! Generations never go backwards: what the register of an instance may become in a step and in a run. -/
namespace AgentScheduler
open Std KeyedTable Relation

/-- A later incarnation, or the same one with evidence that is no older. -/
def Credentials.Precedes (old new : Credentials) : Prop :=
  old.generation < new.generation ∨
    (old.generation = new.generation ∧ old.boot = new.boot ∧ old.capability ≤ new.capability ∧ old.health ≤ new.health ∧
      old.availability ≤ new.availability ∧ old.load ≤ new.load)

theorem Credentials.Precedes.refl (credentials : Credentials) : credentials.Precedes credentials :=
  .inr ⟨rfl, rfl, UInt64.le_refl _, UInt64.le_refl _, UInt64.le_refl _, UInt64.le_refl _⟩

theorem Credentials.Precedes.trans {first second third : Credentials} (h : first.Precedes second)
    (h' : second.Precedes third) : first.Precedes third := by
  rcases h with hnewer | ⟨hgeneration, hboot, hcapability, hhealth, havailability, hload⟩
  · rcases h' with hlater | ⟨hsame, -⟩
    · exact .inl (UInt64.lt_trans hnewer hlater)
    · exact .inl (hsame ▸ hnewer)
  · rcases h' with hlater | ⟨hsame, hboot', hcapability', hhealth', havailability', hload'⟩
    · exact .inl (hgeneration ▸ hlater)
    · exact .inr ⟨hgeneration.trans hsame, hboot.trans hboot', UInt64.le_trans hcapability hcapability',
        UInt64.le_trans hhealth hhealth', UInt64.le_trans havailability havailability', UInt64.le_trans hload hload'⟩

/-- What a step may make of a register: at most one item of work is admitted, under the next number. -/
structure Register.Follows (before after : Register) : Prop where
  policy : before.policy.generation ≤ after.policy.generation
  coordinatorEpoch : before.coordinatorEpoch ≤ after.coordinatorEpoch
  agents : ∀ agent old, before.agents agent = some old → ∃ new, after.agents agent = some new ∧ old.Precedes new
  queues : ∀ queue old, before.queues queue = some old → ∃ new, after.queues queue = some new ∧ old ≤ new
  work : (after.work = before.work ∧ before.nextAdmissionSequence ≤ after.nextAdmissionSequence) ∨
    ∃ id generation, (∀ old, before.work id = some old → old.1 < generation) ∧
      after.work = Function.update before.work id (some (generation, before.nextAdmissionSequence)) ∧
      after.nextAdmissionSequence = before.nextAdmissionSequence + 1

/-- What a run may make of a register. -/
structure Register.Advances (before after : Register) : Prop where
  policy : before.policy.generation ≤ after.policy.generation
  coordinatorEpoch : before.coordinatorEpoch ≤ after.coordinatorEpoch
  agents : ∀ agent old, before.agents agent = some old → ∃ new, after.agents agent = some new ∧ old.Precedes new
  queues : ∀ queue old, before.queues queue = some old → ∃ new, after.queues queue = some new ∧ old ≤ new
  sequence : before.nextAdmissionSequence ≤ after.nextAdmissionSequence
  /-- work stays under its admission, or is admitted again under a higher generation and a later number -/
  work : ∀ id old, before.work id = some old → ∃ new, after.work id = some new ∧
    (new = old ∨ (old.1 < new.1 ∧ before.nextAdmissionSequence ≤ new.2))
  /-- whatever is new was admitted under a later number -/
  admitted : ∀ id new, after.work id = some new → before.work id = some new ∨ before.nextAdmissionSequence ≤ new.2

section Rules
variable {before after first second third : Register}

theorem Register.Follows.refl (register : Register) : register.Follows register where
  policy := UInt64.le_refl _
  coordinatorEpoch := Nat.le_refl _
  agents := fun _ old hold => ⟨old, hold, .refl old⟩
  queues := fun _ old hold => ⟨old, hold, UInt64.le_refl _⟩
  work := .inl ⟨rfl, Nat.le_refl _⟩

theorem Register.Follows.of_eq (h : after = before) : before.Follows after := h ▸ .refl before

/-- A step of which only one component shows follows when that component does. -/
theorem Register.Follows.advances (h : before.Follows after) : before.Advances after := by
  refine ⟨h.policy, h.coordinatorEpoch, h.agents, h.queues, ?_, fun id old hold => ?_, fun id new hnew => ?_⟩
  · rcases h.work with ⟨-, hsequence⟩ | ⟨_, _, -, -, hsequence⟩
    · exact hsequence
    · omega
  · rcases h.work with ⟨hwork, -⟩ | ⟨admitted, generation, hnewer, hwork, -⟩
    · exact ⟨old, hwork ▸ hold, .inl rfl⟩
    · rw [hwork]
      by_cases heq : id = admitted
      · subst heq
        exact ⟨_, Function.update_self .., .inr ⟨hnewer old hold, Nat.le_refl _⟩⟩
      · exact ⟨old, (Function.update_of_ne heq ..).trans hold, .inl rfl⟩
  · rcases h.work with ⟨hwork, -⟩ | ⟨admitted, generation, -, hwork, -⟩
    · exact .inl (hwork ▸ hnew)
    · rw [hwork] at hnew
      by_cases heq : id = admitted
      · subst heq
        rw [Function.update_self] at hnew
        rw [← Option.some.inj hnew]
        exact .inr (Nat.le_refl _)
      · exact .inl ((Function.update_of_ne heq ..).symm.trans hnew)

theorem Register.Advances.refl (register : Register) : register.Advances register := (Follows.refl register).advances

theorem Register.Advances.trans (h : first.Advances second) (h' : second.Advances third) : first.Advances third where
  policy := UInt64.le_trans h.policy h'.policy
  coordinatorEpoch := Nat.le_trans h.coordinatorEpoch h'.coordinatorEpoch
  agents := fun agent old hold => by
    obtain ⟨middle, hmiddle, hprecedes⟩ := h.agents agent old hold
    obtain ⟨new, hnew, hprecedes'⟩ := h'.agents agent middle hmiddle
    exact ⟨new, hnew, hprecedes.trans hprecedes'⟩
  queues := fun queue old hold => by
    obtain ⟨middle, hmiddle, hle⟩ := h.queues queue old hold
    obtain ⟨new, hnew, hle'⟩ := h'.queues queue middle hmiddle
    exact ⟨new, hnew, UInt64.le_trans hle hle'⟩
  sequence := Nat.le_trans h.sequence h'.sequence
  work := fun id old hold => by
    obtain ⟨middle, hmiddle, hsame | ⟨hnewer, hsequence⟩⟩ := h.work id old hold
    · subst hsame
      obtain ⟨new, hnew, hsame | ⟨hnewer, hsequence⟩⟩ := h'.work id middle hmiddle
      · exact ⟨new, hnew, .inl hsame⟩
      · exact ⟨new, hnew, .inr ⟨hnewer, Nat.le_trans h.sequence hsequence⟩⟩
    · obtain ⟨new, hnew, hsame | ⟨hnewer', hsequence'⟩⟩ := h'.work id middle hmiddle
      · exact ⟨new, hnew, .inr (hsame ▸ ⟨hnewer, hsequence⟩)⟩
      · exact ⟨new, hnew, .inr ⟨UInt64.lt_trans hnewer hnewer', Nat.le_trans h.sequence hsequence'⟩⟩
  admitted := fun id new hnew => by
    rcases h'.admitted id new hnew with hold | hsequence
    · exact h.admitted id new hold
    · exact .inr (Nat.le_trans h.sequence hsequence)

end Rules

/-! ### Commits -/

section Commits
variable {impl impl' impl'' : Impl}

/-- Nothing of the register changes but the leases. -/
def Impl.Leases (impl impl' : Impl) : Prop := ∃ leases, impl'.register = { impl.register with leases := leases }

theorem Impl.Leases.of_eq (h : impl'.register = impl.register) : impl.Leases impl' := ⟨impl.register.leases, h⟩

theorem Impl.Leases.trans (h : impl.Leases impl') (h' : impl'.Leases impl'') : impl.Leases impl'' := by
  obtain ⟨leases, hregister⟩ := h
  obtain ⟨leases', hregister'⟩ := h'
  exact ⟨leases', by rw [hregister', hregister]⟩

theorem Impl.Leases.follows (h : impl.Leases impl') : impl.register.Follows impl'.register := by
  obtain ⟨leases, hregister⟩ := h
  rw [hregister]
  have hrefl := Register.Follows.refl impl.register
  exact ⟨hrefl.policy, hrefl.coordinatorEpoch, hrefl.agents, hrefl.queues, hrefl.work⟩

/-- A commit shows in the register as its lease. -/
theorem register_commitApply (impl : Impl) (id : WorkId) (work : WorkRecord) (binding : AssignmentBinding) :
    (commitApply impl id work binding).register =
      { impl.register with
        leases := fun lease => ((impl.leases.insertIfNew binding.lease binding.leaseRecord)[lease]?).isSome } := by
  let stored : Impl :=
    { impl with
      assignments := impl.assignments.insertIfNew binding.id binding.record
      leases := impl.leases.insertIfNew binding.lease binding.leaseRecord }
  let numbered := stored.modifyWork id fun record => { record with lastAssignmentGeneration := binding.generation }
  have hnumbered : numbered.register = stored.register := register_modifyWork stored id fun _ => rfl
  let indexed := indexStoredAssignment numbered binding.id
  have hindexed : indexed.register = numbered.register := by
    change (indexStoredAssignment numbered binding.id).register = numbered.register
    unfold indexStoredAssignment
    split
    · rfl
    · exact register_indexAssignment _ _
  let counted := refreshAgentAccounting (refreshWorkAccounting indexed id) binding.agent
  have hcounted : counted.register = indexed.register :=
    (register_refreshAgentAccounting _ _).trans (register_refreshWorkAccounting _ _)
  have hbooked : (commitApply impl id work binding).register = counted.register := by
    apply Register.ext <;> try rfl
    · exact view_modify _ fun _ => rfl
    · exact isSome_modify _ _
  exact hbooked.trans (hcounted.trans (hindexed.trans hnumbered))

theorem leases_commitApply (impl : Impl) (id : WorkId) (work : WorkRecord) (binding : AssignmentBinding) :
    impl.Leases (commitApply impl id work binding) := ⟨_, register_commitApply impl id work binding⟩

theorem leases_commitLocked {ctx : Context} {id : WorkId} {generation : WorkGeneration} {binding : AssignmentBinding}
    (hcommit : commitLocked ctx impl id generation binding = .ok impl') : impl.Leases impl' := by
  obtain ⟨work, -, rfl⟩ := commitLocked_ok hcommit
  exact leases_commitApply impl id work binding

theorem leases_scheduleCommit (ctx : Context) (impl : Impl) (id : WorkId) (generation : WorkGeneration)
    (decision : ScheduleDecision) (binding : AssignmentBinding) :
    impl.Leases (scheduleCommit ctx impl id generation decision binding).2 := by
  unfold scheduleCommit
  split
  · exact .of_eq rfl
  · next committed hcommit => split <;> exact leases_commitLocked hcommit

theorem leases_batchItem (ctx : Context) (request : ScheduleRequest) (first : Bool) (state : BatchState) (id : WorkId) :
    state.impl.Leases (batchItem ctx request first state id).impl := by
  rcases batchItem_cases ctx request first state id with hsame | hpassed | ⟨work, found, binding, -, -, -, -, hform⟩
  · rw [hsame]
    exact .of_eq rfl
  · rw [hpassed]
    exact .of_eq (register_modifyWork state.impl id fun _ => rfl)
  · rw [hform]
    exact (leases_commitApply state.impl work.request.id found binding).trans (.of_eq (register_modifyWork _ id fun _ => rfl))

theorem leases_scheduleBatch (ctx : Context) (impl : Impl) (request : ScheduleRequest) :
    impl.Leases (scheduleBatch ctx impl request).2 := by
  unfold scheduleBatch
  split
  · exact .of_eq rfl
  · simp only
    split
    · exact .of_eq rfl
    · exact batchPasses_keeps (motive := fun state => impl.Leases state.impl)
        (fun first state id hstate => hstate.trans (leases_batchItem ctx request first state id)) (fun _ _ hstate => hstate)
        _ true (.of_eq rfl)

end Commits

/-! ### The operations that move a register -/

section Operations
variable {impl : Impl}

theorem follows_guarded {Found : Type} {check : Except SchedulerError Found} {body : Found → Step}
    (h : ∀ found, check = .ok found → impl.register.Follows (body found).2.register) :
    impl.register.Follows (guarded impl check body).2.register := by
  cases hcheck : check with
  | error error => exact .refl _
  | ok found => exact h found hcheck

theorem follows_start (impl : Impl) : impl.register.Follows (start impl).2.register := by
  unfold start
  split
  · exact .refl _
  · have hrefl := Register.Follows.refl impl.register
    exact ⟨hrefl.policy, Nat.le_succ _, hrefl.agents, hrefl.queues, hrefl.work⟩

theorem follows_setPolicy (now : UInt64) (impl : Impl) (policy : PolicySnapshot) :
    impl.register.Follows (setPolicy now impl policy).2.register := by
  apply follows_guarded
  intro install hcheck
  split
  · rw [register_closeWhere]
    have hrefl := Register.Follows.refl impl.register
    refine ⟨?_, hrefl.coordinatorEpoch, hrefl.agents, hrefl.queues, hrefl.work⟩
    unfold checkPolicy at hcheck
    simp only [check_bind_eq_ok, rejectIf_eq_ok] at hcheck
    exact UInt64.not_lt.mp hcheck.2.1
  · exact .refl _

/-- A queue table whose records only move on. -/
private theorem follows_queues {queues : Table QueueId QueueRecord}
    (h : ∀ (queue : QueueId) (old : QueueRecord), impl.queues[queue]? = some old →
      ∃ new : QueueRecord, queues[queue]? = some new ∧ old.generation ≤ new.generation) :
    impl.register.Follows { impl with queues := queues }.register := by
  have hrefl := Register.Follows.refl impl.register
  refine ⟨hrefl.policy, hrefl.coordinatorEpoch, hrefl.agents, fun queue generation hold => ?_, hrefl.work⟩
  obtain ⟨old, hstored, rfl⟩ := Option.map_eq_some_iff.mp hold
  obtain ⟨new, hnew, hle⟩ := h queue old hstored
  exact ⟨new.generation, Option.map_eq_some_iff.mpr ⟨new, hnew, rfl⟩, hle⟩

private theorem queues_insertIfNew {queues : Table QueueId QueueRecord} (key : QueueId) (record : QueueRecord)
    (queue : QueueId) (old : QueueRecord) (hold : queues[queue]? = some old) :
    ∃ new, (queues.insertIfNew key record)[queue]? = some new ∧ old.generation ≤ new.generation := by
  refine ⟨old, ?_, UInt64.le_refl _⟩
  rw [getElem?_insertIfNew, hold]
  split <;> rfl

private theorem queues_insert {queues : Table QueueId QueueRecord} {key : QueueId} {found record : QueueRecord}
    (hfound : queues[key]? = some found) (hnewer : found.generation < record.generation) (queue : QueueId) (old : QueueRecord)
    (hold : queues[queue]? = some old) :
    ∃ new, (queues.insert key record)[queue]? = some new ∧ old.generation ≤ new.generation := by
  rw [getElem?_insert]
  split
  · next heq =>
    subst heq
    obtain rfl := Option.some.inj (hfound.symm.trans hold)
    exact ⟨record, rfl, UInt64.le_of_lt hnewer⟩
  · exact ⟨old, hold, UInt64.le_refl _⟩

theorem follows_registerQueue (impl : Impl) (queue : QueueId) (generation : QueueGeneration) (fairnessClass : Text)
    (weight : UInt32) : impl.register.Follows (registerQueue impl queue generation fairnessClass weight).2.register := by
  apply follows_guarded
  intro _ _
  cases hqueue : impl.queues[queue]? with
  | none =>
    simp only
    split
    · exact .refl _
    · exact follows_queues (queues_insertIfNew _ _)
  | some found =>
    simp only
    split
    · exact .refl _
    · next hordered =>
      split
      · split <;> exact .refl _
      · next hmoved =>
        have hnewer : found.generation < generation :=
          UInt64.lt_of_le_of_ne (UInt64.not_lt.mp hordered) fun heq => hmoved (congrArg StrongId.mk heq).symm
        exact follows_queues (queues_insert hqueue hnewer)

end Operations

/-! ### Evidence and registration -/

section Agents
variable {impl : Impl} {agent : AgentId} {record record' : AgentRecord}

theorem register_agents_setAgent (impl : Impl) (agent : AgentId) (record : AgentRecord) :
    (impl.setAgent agent record).register =
      { impl.register with agents := Function.update impl.register.agents agent (some record.credentials) } := by
  apply Register.ext <;> try rfl
  funext other
  change ((impl.agents.insert agent record)[other]?).map AgentRecord.credentials =
    Function.update impl.register.agents agent (some record.credentials) other
  rw [getElem?_insert]
  by_cases heq : agent = other
  · subst heq
    rw [if_pos rfl, Function.update_self]
    rfl
  · rw [if_neg heq, Function.update_of_ne (Ne.symm heq)]
    rfl

/-- Storing later credentials follows, and so does storing what was unknown. -/
theorem follows_setAgent (hprecedes : ∀ old, impl.agents[agent]? = some old → old.credentials.Precedes record.credentials) :
    impl.register.Follows (impl.setAgent agent record).register := by
  rw [register_agents_setAgent]
  have hrefl := Register.Follows.refl impl.register
  refine ⟨hrefl.policy, hrefl.coordinatorEpoch, fun other old hold => ?_, hrefl.queues, hrefl.work⟩
  by_cases heq : other = agent
  · subst heq
    obtain ⟨stored, hstored, rfl⟩ := Option.map_eq_some_iff.mp hold
    exact ⟨record.credentials, Function.update_self .., hprecedes stored hstored⟩
  · exact ⟨old, (Function.update_of_ne heq ..).trans hold, .refl old⟩

theorem follows_modifyAgent {update : AgentRecord → AgentRecord} (hrecord : impl.agents[agent]? = some record)
    (hprecedes : record.credentials.Precedes (update record).credentials) :
    impl.register.Follows (impl.modifyAgent agent update).register := by
  rw [modifyAgent_eq_setAgent hrecord]
  refine follows_setAgent fun old hold => ?_
  obtain rfl := Option.some.inj (hrecord.symm.trans hold)
  exact hprecedes

theorem checkObservation_ordered {now : UInt64} {operation kind : Text} {boot : AgentBootId}
    {staleGeneration : AgentRecord → Bool} {observedAtMs observed : UInt64}
    (h : checkObservation now impl operation kind agent boot staleGeneration observedAtMs = .ok observed) :
    ∃ record, impl.agents[agent]? = some record ∧ staleGeneration record = false := by
  unfold checkObservation at h
  simp only [except_bind_eq_ok, rejectIf_eq_ok] at h
  obtain ⟨record, hrecord, _, hordered, -⟩ := h
  exact ⟨record, (currentAgent_ok hrecord).1, by simpa using hordered⟩

theorem follows_publishHealth (now : UInt64) (impl : Impl) (agent : AgentId) (boot : AgentBootId)
    (observation : HealthObservation) :
    impl.register.Follows (publishHealth now impl agent boot observation).2.register := by
  apply follows_guarded
  intro observed hcheck
  simp only [check_bind_eq_ok] at hcheck
  obtain ⟨record, hrecord, hordered⟩ := checkObservation_ordered hcheck.2
  simp only [register_revise, register_refreshAgent]
  apply follows_modifyAgent hrecord
  have hordered : ¬observation.generation < record.healthGeneration := by simpa using hordered
  have hle : record.healthGeneration ≤ observation.generation := UInt64.not_lt.mp hordered
  exact .inr ⟨rfl, rfl, UInt64.le_refl _, hle, UInt64.le_refl _, UInt64.le_refl _⟩

theorem follows_publishAvailability (now : UInt64) (impl : Impl) (agent : AgentId) (boot : AgentBootId)
    (observation : AvailabilityObservation) :
    impl.register.Follows (publishAvailability now impl agent boot observation).2.register := by
  apply follows_guarded
  intro observed hcheck
  simp only [check_bind_eq_ok] at hcheck
  obtain ⟨record, hrecord, hordered⟩ := checkObservation_ordered hcheck.2
  simp only [register_revise, register_refreshAgent]
  apply follows_modifyAgent hrecord
  have hordered : ¬observation.generation < record.availabilityGeneration := by simpa using hordered
  have hle : record.availabilityGeneration ≤ observation.generation := UInt64.not_lt.mp hordered
  exact .inr ⟨rfl, rfl, UInt64.le_refl _, UInt64.le_refl _, hle, UInt64.le_refl _⟩

theorem follows_publishLoad (now : UInt64) (impl : Impl) (agent : AgentId) (boot : AgentBootId)
    (observation : LoadObservation) :
    impl.register.Follows (publishLoad now impl agent boot observation).2.register := by
  apply follows_guarded
  intro observed hcheck
  simp only [check_bind_eq_ok] at hcheck
  obtain ⟨record, hrecord, hordered⟩ := checkObservation_ordered hcheck.2
  simp only [register_revise]
  apply follows_modifyAgent hrecord
  have hordered : ¬observation.generation < record.loadGeneration := by simpa using hordered
  have hle : record.loadGeneration ≤ observation.generation := UInt64.not_lt.mp hordered
  exact .inr ⟨rfl, rfl, UInt64.le_refl _, UInt64.le_refl _, UInt64.le_refl _, hle⟩

theorem register_demoteOutdated (impl : Impl) (agent : AgentId) (profile : CapabilityProfile) :
    (demoteOutdated impl agent profile).register = impl.register := by
  refine foldl_project (f := Impl.register) (fun impl id => ?_) _ _
  split
  · rfl
  · split
    · exact register_dropLease _ _
    · rfl

theorem follows_publishCapabilities (now : UInt64) (impl : Impl) (agent : AgentId) (boot : AgentBootId)
    (profile : CapabilityProfile) :
    impl.register.Follows (publishCapabilities now impl agent boot profile).2.register := by
  apply follows_guarded
  intro published hcheck
  cases published with
  | none => exact .refl _
  | some canonical =>
    obtain ⟨record, hrecord, -, -, -, hordered, -⟩ := checkCapabilities_some hcheck
    simp only [register_revise, register_indexStoredAgent, register_refreshAgentAccounting, register_demoteOutdated]
    let publish (record : AgentRecord) : AgentRecord :=
      { record with profile := canonical, capabilityCurrent := true, recovered := false }
    have hprecedes : record.credentials.Precedes (publish record).credentials :=
      .inr ⟨rfl, rfl, UInt64.not_lt.mp hordered, UInt64.le_refl _, UInt64.le_refl _, UInt64.le_refl _⟩
    have hdeindexed : (deindexAgent impl agent).agents[agent]? = some record := hrecord
    have hfollows : (deindexAgent impl agent).register.Follows ((deindexAgent impl agent).modifyAgent agent publish).register :=
      follows_modifyAgent hdeindexed hprecedes
    exact hfollows

theorem register_retireIncarnation (now : UInt64) (impl : Impl) (existing : AgentRecord) (agent : AgentId) :
    (retireIncarnation now impl existing agent).register = impl.register := by
  unfold retireIncarnation
  simp only
  split
  · rfl
  · exact (register_closeWhere _ _ _ _ _ _).trans (register_fenceBoot _ _ _ _ _ _)

theorem register_replaceAgent (impl : Impl) (agent : AgentId) (record : AgentRecord) :
    (impl.replaceAgent agent record).register = (impl.setAgent agent record).register := by
  unfold Impl.replaceAgent
  rw [register_revise, register_refreshAgent]

theorem follows_registerAgentCommit (now : UInt64) (impl : Impl) (descriptor : AgentDescriptor) :
    impl.register.Follows (registerAgentCommit now impl descriptor).2.register := by
  rcases registerAgentCommit_cases now impl descriptor with
    ⟨-, error, hform⟩ | ⟨existing, hexisting, hnewer, -, hform⟩ | ⟨existing, hexisting, hgeneration, hboot, -, hform⟩ | ⟨hnone, hform⟩
  · rw [hform]
    exact .refl _
  · rw [hform, register_replaceAgent]
    let retired := retireIncarnation now impl existing descriptor.id
    have hretired : retired.register = impl.register := register_retireIncarnation now impl existing descriptor.id
    have hfollows : retired.register.Follows
        (retired.setAgent descriptor.id (freshAgent now retired descriptor "reincarnated")).register := by
      refine follows_setAgent fun old hold => .inl ?_
      have hcredentials := congrArg (fun register => register.agents descriptor.id) hretired
      have hcredentials : (retired.agents[descriptor.id]?).map AgentRecord.credentials =
          (impl.agents[descriptor.id]?).map AgentRecord.credentials := hcredentials
      rw [hold, hexisting] at hcredentials
      have hgeneration := congrArg Credentials.generation (Option.some.inj hcredentials)
      change old.descriptor.generation < (freshAgent now retired descriptor "reincarnated").descriptor.generation
      rw [freshAgent_descriptor, show old.descriptor.generation = existing.descriptor.generation from hgeneration]
      exact hnewer
    rw [hretired] at hfollows
    exact hfollows
  · rw [hform, register_replaceAgent]
    refine follows_setAgent fun old hold => ?_
    obtain rfl := Option.some.inj (hexisting.symm.trans hold)
    exact .inr ⟨hgeneration.symm, hboot.symm, UInt64.le_refl _, UInt64.le_refl _, UInt64.le_refl _, UInt64.le_refl _⟩
  · rw [hform]
    refine follows_setAgent fun old hold => ?_
    rw [hnone] at hold
    cases hold

end Agents

/-! ### Admission -/

section Admission
variable {impl impl' queued ready : Impl} {request : WorkRequest}

/-- Nothing of the register changes but queues, which move on, and tenants. -/
def Impl.Books (impl impl' : Impl) : Prop :=
  ∃ queues tenants, impl'.register = { impl.register with queues := queues, tenants := tenants } ∧
    ∀ queue old, impl.register.queues queue = some old → ∃ new, queues queue = some new ∧ old ≤ new

theorem Impl.Books.of_eq (h : impl'.register = impl.register) : impl.Books impl' :=
  ⟨impl.register.queues, impl.register.tenants, h, fun _ old hold => ⟨old, hold, UInt64.le_refl _⟩⟩

theorem Impl.Books.trans {impl'' : Impl} (h : impl.Books impl') (h' : impl'.Books impl'') : impl.Books impl'' := by
  obtain ⟨queues, tenants, hregister, hqueues⟩ := h
  obtain ⟨queues', tenants', hregister', hqueues'⟩ := h'
  refine ⟨queues', tenants', by rw [hregister', hregister], fun queue old hold => ?_⟩
  obtain ⟨middle, hmiddle, hle⟩ := hqueues queue old hold
  obtain ⟨new, hnew, hle'⟩ := hqueues' queue middle (by rw [hregister]; exact hmiddle)
  exact ⟨new, hnew, UInt64.le_trans hle hle'⟩

/-- What is booked after a step only moves its queues on. -/
theorem Register.Follows.books {before : Register} (h : before.Follows impl.register) (hbooks : impl.Books impl') :
    before.Follows impl'.register := by
  obtain ⟨queues, tenants, hregister, hqueues⟩ := hbooks
  rw [hregister]
  refine ⟨h.policy, h.coordinatorEpoch, h.agents, fun queue old hold => ?_, h.work⟩
  obtain ⟨middle, hmiddle, hle⟩ := h.queues queue old hold
  obtain ⟨new, hnew, hle'⟩ := hqueues queue middle hmiddle
  exact ⟨new, hnew, UInt64.le_trans hle hle'⟩

theorem ensureQueue_books (h : ensureQueue impl request = .ok queued) : impl.Books queued := by
  have hbooks : ∀ queues : Table QueueId QueueRecord, (∀ (queue : QueueId) (old : QueueRecord), impl.queues[queue]? = some old →
      ∃ new : QueueRecord, queues[queue]? = some new ∧ old.generation ≤ new.generation) →
      impl.Books { impl with queues := queues } := by
    intro queues hqueues
    exact ⟨_, _, rfl, (follows_queues hqueues).queues⟩
  unfold ensureQueue at h
  cases hqueue : impl.queues[request.queue]? with
  | none =>
    simp only [hqueue] at h
    split at h
    · cases h
    · obtain rfl := Except.ok.inj h
      exact hbooks _ (queues_insertIfNew _ _)
  | some found =>
    simp only [hqueue] at h
    split at h
    · cases h
    · split at h
      · next hnewer =>
        obtain rfl := Except.ok.inj h
        exact hbooks _ (queues_insert hqueue hnewer)
      · obtain rfl := Except.ok.inj h
        exact .of_eq rfl

theorem ensureTenant_books {tenant : TenantId} (h : ensureTenant queued tenant = .ok ready) : queued.Books ready := by
  unfold ensureTenant at h
  split at h
  · obtain rfl := Except.ok.inj h
    exact .of_eq rfl
  · split at h
    · obtain rfl := Except.ok.inj h
      exact .of_eq rfl
    · split at h
      · cases h
      · obtain rfl := Except.ok.inj h
        exact ⟨_, _, rfl, fun _ old hold => ⟨old, hold, UInt64.le_refl _⟩⟩

/-- A section with queue and tenant ends where it booked them, or with its body from there. -/
theorem withQueueAndTenant_books (impl : Impl) (request : WorkRequest) (body : Impl → Impl) :
    impl.Books (withQueueAndTenant impl request body).2 ∨
      ∃ ready, impl.Books ready ∧ (withQueueAndTenant impl request body).2 = body ready := by
  unfold withQueueAndTenant
  cases hqueue : ensureQueue impl request with
  | error error => exact .inl (.of_eq rfl)
  | ok queued =>
    have hqueued := ensureQueue_books hqueue
    cases htenant : ensureTenant queued request.requirements.tenant with
    | error error =>
      left
      simp only [htenant]
      exact hqueued
    | ok ready =>
      right
      refine ⟨ready, hqueued.trans (ensureTenant_books htenant), ?_⟩
      simp only [htenant]

theorem register_countAdmission (impl : Impl) (request : WorkRequest) :
    (countAdmission impl request).register = impl.register := by
  apply Register.ext <;> try rfl
  · exact view_modify _ fun _ => rfl
  · exact isSome_modify _ _

theorem register_work_setWork (impl : Impl) (work : WorkId) (record : WorkRecord) :
    (impl.setWork work record).register =
      { impl.register with work := Function.update impl.register.work work (some record.admission) } := by
  apply Register.ext <;> try rfl
  funext other
  change ((impl.work.insert work record)[other]?).map WorkRecord.admission =
    Function.update impl.register.work work (some record.admission) other
  rw [getElem?_insert]
  by_cases heq : work = other
  · subst heq
    rw [if_pos rfl, Function.update_self]
    rfl
  · rw [if_neg heq, Function.update_of_ne (Ne.symm heq)]
    rfl

/-- Replacing work by a higher generation takes the next number. -/
theorem follows_replaceWork (now : UInt64) {existing : WorkRecord} (reason : Text)
    (hexisting : impl.work[request.id]? = some existing) (hnewer : existing.request.generation < request.generation) :
    impl.register.Follows (replaceWork now impl request existing reason).register := by
  let closed := closeWork now impl request.id .superseded .workSuperseded "work generation was superseded"
  have hclosed : closed.register = impl.register := register_closeWhere _ _ _ _ _ _
  let taken := (deindexWork closed request.id).takeSequence
  have htaken : taken.register = { impl.register with nextAdmissionSequence := impl.register.nextAdmissionSequence + 1 } := by
    have hstep : taken.register = { closed.register with nextAdmissionSequence := closed.register.nextAdmissionSequence + 1 } := rfl
    rw [hstep, hclosed]
  let record := admittedRecord now (deindexWork closed request.id) request reason existing.lastAssignmentGeneration
  have hadmission : record.admission = (request.generation, impl.register.nextAdmissionSequence) := by
    have hsequence := congrArg Register.nextAdmissionSequence hclosed
    exact congrArg (Prod.mk request.generation) hsequence
  have hform : (replaceWork now impl request existing reason).register = (taken.setWork request.id record).register := rfl
  rw [hform, register_work_setWork, htaken, hadmission]
  have hrefl := Register.Follows.refl impl.register
  refine ⟨hrefl.policy, hrefl.coordinatorEpoch, hrefl.agents, hrefl.queues, .inr ⟨request.id, request.generation, ?_, rfl, rfl⟩⟩
  intro old hold
  have hstored : impl.register.work request.id = some existing.admission := by
    change (impl.work[request.id]?).map WorkRecord.admission = some existing.admission
    rw [hexisting]
    rfl
  rw [hstored] at hold
  rw [← Option.some.inj hold]
  exact hnewer

theorem follows_supersedeWork (now : UInt64) (impl : Impl) (work : WorkId) (expectedGeneration : WorkGeneration)
    (replacement : WorkRequest) :
    impl.register.Follows (supersedeWork now impl work expectedGeneration replacement).2.register := by
  apply follows_guarded
  intro record hcheck
  obtain ⟨hid, -, hrecord, hnewer⟩ := checkSupersession_ok hcheck
  have hstored : impl.work[replacement.canonicalize.id]? = some record := by
    change impl.work[replacement.id]? = some record
    rw [hid]
    exact hrecord
  have hreplaced := follows_replaceWork now "superseded" hstored hnewer
  rcases withQueueAndTenant_books (replaceWork now impl replacement.canonicalize record "superseded")
    replacement.canonicalize Impl.revise with hbooks | ⟨ready, hbooks, hform⟩
  · exact hreplaced.books hbooks
  · simp only [hform, register_revise]
    exact hreplaced.books hbooks

theorem follows_submitWorkCommit (now : UInt64) (impl : Impl) (request : WorkRequest) :
    impl.register.Follows (submitWorkCommit now impl request).2.register := by
  let canonical := request.canonicalize
  apply follows_guarded
  intro _ _
  cases hexisting : impl.work[request.canonicalize.id]? with
  | some existing =>
    apply follows_guarded
    intro decision hcheck
    cases decision with
    | unchanged => exact .refl _
    | reopen =>
      have hreplaced := follows_replaceWork now "re-admitted at a higher generation" hexisting
        (checkResubmission_reopen hcheck)
      rcases withQueueAndTenant_books (replaceWork now impl canonical existing "re-admitted at a higher generation") canonical
        (fun impl => (countAdmission impl canonical).revise) with hbooks | ⟨ready, hbooks, hform⟩
      · exact hreplaced.books hbooks
      · simp only
        rw [hform, register_revise, register_countAdmission]
        exact hreplaced.books hbooks
  | none =>
    apply follows_guarded
    intro _ _
    let record := admittedRecord now impl canonical "admitted" 0
    have hrefl := Register.Follows.refl impl.register
    have htaken : impl.register.Follows impl.takeSequence.register :=
      ⟨hrefl.policy, hrefl.coordinatorEpoch, hrefl.agents, hrefl.queues, .inl ⟨rfl, Nat.le_succ _⟩⟩
    rcases withQueueAndTenant_books impl.takeSequence canonical (fun impl =>
      (countAdmission (indexWork (impl.setWork canonical.id record) record) canonical).revise) with hbooks | ⟨ready, hbooks, hform⟩
    · exact htaken.books hbooks
    · simp only
      rw [hform, register_revise, register_countAdmission]
      change impl.register.Follows (ready.setWork canonical.id record).register
      have hbooked := htaken.books hbooks
      obtain ⟨queues, tenants, hregister, -⟩ := hbooks
      have hwork : ready.register.work = impl.register.work := by rw [hregister]; rfl
      have hsequence : ready.register.nextAdmissionSequence = impl.register.nextAdmissionSequence + 1 := by rw [hregister]; rfl
      rw [register_work_setWork, hwork]
      refine ⟨hbooked.policy, hbooked.coordinatorEpoch, hbooked.agents, hbooked.queues,
        .inr ⟨canonical.id, canonical.generation, fun old hold => ?_, rfl, hsequence⟩⟩
      have hunknown : impl.register.work canonical.id = none := by
        change (impl.work[request.canonicalize.id]?).map WorkRecord.admission = none
        rw [hexisting]
        rfl
      rw [hunknown] at hold
      cases hold

end Admission

/-! ### Steps and runs -/

/-- The step neither recovers a file nor starts the process over. -/
def Label.Continues : Label → Prop
  | .load _ | .restart _ _ => False
  | _ => True

instance (label : Label) : Decidable label.Continues := by
  rcases label with ⟨⟩ <;> first | exact instDecidableTrue | exact instDecidableFalse

/-- No two items of work were admitted under one number, and every later number is new. -/
structure Register.Sequenced (register : Register) : Prop where
  below : ∀ id admission, register.work id = some admission → admission.2 < register.nextAdmissionSequence
  distinct : ∀ id other admission admission', register.work id = some admission → register.work other = some admission' →
    admission.2 = admission'.2 → id = other

section Steps
variable {ctx : Context} {impl : Impl} {system after : System} {label : Label} {reply : Reply}

theorem follows_runOperation (ctx : Context) (impl : Impl) (operation : Operation) :
    impl.register.Follows (runOperation ctx impl operation).2.register := by
  cases operation with
  | start => exact follows_start impl
  | shutdown => exact .of_eq (register_shutdown _ _)
  | setPolicy => exact follows_setPolicy _ _ _
  | registerQueue => exact follows_registerQueue _ _ _ _ _
  | publishCapabilities => exact follows_publishCapabilities _ _ _ _ _
  | publishHealth => exact follows_publishHealth _ _ _ _ _
  | publishAvailability => exact follows_publishAvailability _ _ _ _ _
  | publishLoad => exact follows_publishLoad _ _ _ _ _
  | heartbeat => exact .of_eq (register_heartbeat _ _ _ _ _)
  | drainAgent => exact .of_eq (register_drainAgent _ _ _ _ _)
  | deregisterAgent => exact .of_eq (register_deregisterAgent _ _ _ _ _)
  | supersedeWork => exact follows_supersedeWork _ _ _ _ _
  | expireDeadlines => exact .of_eq (register_expireDeadlines _ _)
  | scheduleBatch request => exact (leases_scheduleBatch ctx impl request).follows
  | acknowledge => exact .of_eq (register_acknowledge _ _ _ _ _ _ _)
  | markExecuting => exact .of_eq (register_markExecuting _ _ _ _ _)
  | release => exact .of_eq (register_release _ _ _ _ _ _)
  | completeAssignment => exact .of_eq (register_completeAssignment _ _ _ _ _)
  | failAssignment => exact .of_eq (register_failAssignment _ _ _ _ _ _)
  | rejectAssignment => exact .of_eq (register_rejectAssignment _ _ _ _ _ _)
  | revalidateAssignments => exact .of_eq (register_revalidateAssignments _ _)
  | revalidateAgentAssignments => exact .of_eq (register_revalidateAgentAssignments _ _ _ _)
  | expireLeases => exact .of_eq (register_closeWhere _ _ _ _ _ _)

theorem follows_finishCall (ctx : Context) (impl : Impl) (call : Call) :
    impl.register.Follows (finishCall ctx impl call).2.register := by
  cases call with
  | schedule plan =>
    exact (leases_scheduleCommit ctx impl plan.work plan.generation plan.decision plan.binding).follows
  | dispatch => exact .of_eq (register_dispatchCommit _ _ _ _)
  | registerAgent descriptor => exact follows_registerAgentCommit ctx.now impl descriptor
  | submitWork request => exact follows_submitWorkCommit ctx.now impl request
  | cancelWork => exact .of_eq (register_cancelWorkCommit _ _ _ _ _)
  | declareAgentLost => exact .of_eq (register_declareAgentLostCommit _ _ _ _ _)

/-- Every step that recovers nothing follows. -/
theorem System.step_follows (hcontinues : label.Continues) (hstep : system.step label = some (reply, after)) :
    system.impl.register.Follows after.impl.register := by
  cases label with
  | tick now =>
    simp only [System.step] at hstep
    split at hstep
    · obtain ⟨-, rfl⟩ := Option.some.inj hstep
      exact .refl _
    · cases hstep
  | provide | save =>
    obtain ⟨-, rfl⟩ := Option.some.inj hstep
    exact .refl _
  | run operation =>
    obtain ⟨-, rfl⟩ := Option.some.inj hstep
    exact follows_runOperation system.context system.impl operation
  | «begin» request =>
    simp only [System.step] at hstep
    split at hstep <;> obtain ⟨-, rfl⟩ := Option.some.inj hstep <;> exact .refl _
  | finish position =>
    simp only [System.step] at hstep
    split at hstep
    · cases hstep
    · next call _ =>
      obtain ⟨-, rfl⟩ := Option.some.inj hstep
      exact follows_finishCall system.context system.impl call
  | load | restart => exact hcontinues.elim

/-- A step numbers what it admits apart from everything before. -/
theorem Register.Follows.sequenced {before next : Register} (h : before.Follows next) (hsequenced : before.Sequenced) :
    next.Sequenced := by
  rcases h.work with ⟨hwork, hsequence⟩ | ⟨admitted, generation, -, hwork, hsequence⟩
  · refine ⟨fun id admission hid => ?_, fun id other admission admission' hid hother hsame => ?_⟩
    · exact Nat.lt_of_lt_of_le (hsequenced.below id admission (hwork ▸ hid)) hsequence
    · exact hsequenced.distinct id other admission admission' (hwork ▸ hid) (hwork ▸ hother) hsame
  · have hread : ∀ id admission, next.work id = some admission →
        (id = admitted ∧ admission.2 = before.nextAdmissionSequence) ∨ (id ≠ admitted ∧ before.work id = some admission) := by
      intro id admission hid
      rw [hwork] at hid
      by_cases heq : id = admitted
      · subst heq
        rw [Function.update_self] at hid
        rw [← Option.some.inj hid]
        exact .inl ⟨rfl, rfl⟩
      · exact .inr ⟨heq, (Function.update_of_ne heq ..).symm.trans hid⟩
    refine ⟨fun id admission hid => ?_, fun id other admission admission' hid hother hsame => ?_⟩
    · rcases hread id admission hid with ⟨-, hnumber⟩ | ⟨-, hold⟩
      · omega
      · have hbelow := hsequenced.below id admission hold
        omega
    · rcases hread id admission hid with ⟨rfl, hnumber⟩ | ⟨-, hold⟩ <;>
        rcases hread other admission' hother with ⟨rfl, hnumber'⟩ | ⟨-, hold'⟩
      · rfl
      · have hbelow := hsequenced.below other admission' hold'
        omega
      · have hbelow := hsequenced.below id admission hold
        omega
      · exact hsequenced.distinct id other admission admission' hold hold' hsame

theorem admissions_construct {options : SchedulerOptions} {generatedId : SchedulerId}
    (h : construct options generatedId = some impl) (work : WorkId) : impl.register.work work = none := by
  obtain ⟨-, hworks, -⟩ := construct_spec h
  have hentry := hworks work
  change (impl.work[work]?).map WorkRecord.admission = none
  rw [Option.map_eq_none_iff]
  exact Option.map_eq_none_iff.mp hentry

theorem construct_sequenced {options : SchedulerOptions} {generatedId : SchedulerId}
    (h : construct options generatedId = some impl) : impl.register.Sequenced := by
  have hnone := admissions_construct h
  refine ⟨fun id admission hid => ?_, fun id other admission admission' hid hother hsame => ?_⟩
  · rw [hnone] at hid
    cases hid
  · rw [hnone] at hid
    cases hid

/-- Generations never go backwards: in a run without a recovery every agent keeps its incarnation or takes a newer one, and
within it no generation of its evidence falls, nor does that of a queue, of work, of the policy or of the coordinator;
the numbers of admissions are distinct, and whatever is admitted later has a greater one. -/
theorem generations_advance (h : system.ReachableBy fun _ label => label.Continues)
    (hrun : System.Runs (fun _ label => label.Continues) system after) :
    system.impl.register.Sequenced ∧ after.impl.register.Sequenced ∧
      system.impl.register.Advances after.impl.register := by
  have hsequenced : ∀ reached : System, reached.ReachableBy (fun _ label => label.Continues) →
      reached.impl.register.Sequenced := by
    intro reached hreached
    refine System.ReachableBy.keeps (motive := fun system => system.impl.register.Sequenced) hreached (fun start hstart => ?_)
      fun s s' label reply _ hcontinues hstep hinv => (System.step_follows hcontinues hstep).sequenced hinv
    obtain ⟨options, generatedId, now, hstart⟩ := hstart
    obtain ⟨impl, hconstruct, rfl⟩ := Option.map_eq_some_iff.mp hstart
    exact construct_sequenced hconstruct
  refine ⟨hsequenced system h, hsequenced after (h.trans hrun), ?_⟩
  refine Runs.keeps (motive := fun reached : System => system.impl.register.Advances reached.impl.register)
    (fun s s' hs hinv => ?_) hrun (.refl _)
  obtain ⟨label, reply, hcontinues, hstep⟩ := hs
  exact hinv.trans (System.step_follows hcontinues hstep).advances

end Steps

set_option maxRecDepth 100000 in
theorem generations_advance_sample : ∃ system after,
    Sample.run (fun _ label => label.Continues) (Sample.enlist ++ Sample.submit Sample.exclusiveWork) = some system ∧
      system.perform (fun _ label => label.Continues)
        ([.run (.publishHealth 1 Sample.boot { Sample.health with generation := 2 })] ++
          Sample.submit { Sample.exclusiveWork with generation := 2 }) = some after ∧
      system.impl.register.Sequenced ∧ after.impl.register.Sequenced ∧
      system.impl.register.Advances after.impl.register := by
  have hview : ((Sample.run (fun _ label => label.Continues) (Sample.enlist ++ Sample.submit Sample.exclusiveWork)).bind
      fun system => system.perform (fun _ label => label.Continues)
        ([.run (.publishHealth 1 Sample.boot { Sample.health with generation := 2 })] ++
          Sample.submit { Sample.exclusiveWork with generation := 2 })).isSome := by
    decide +kernel
  obtain ⟨after, hview⟩ := Option.isSome_iff_exists.mp hview
  obtain ⟨system, hrun, hperform⟩ := Option.bind_eq_some_iff.mp hview
  exact ⟨system, after, hrun, hperform, generations_advance (Sample.run_reaches hrun) (System.perform_runs hperform)⟩

end AgentScheduler
