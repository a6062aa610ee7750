import AgentScheduler.Settlement

/-! Handoffs: what a dispatch still makes sure of in its second section, and how often it happens. -/
namespace AgentScheduler
open Std KeyedTable Relation

/-- A step returns a handoff to a `dispatch` call. -/
def System.HandsOff (system : System) (label : Label) (after : System) (binding : AssignmentBinding) : Prop :=
  ∃ result, system.step label = some (.dispatch result, after) ∧ result.handoff = some binding

/-- Authority that is current when a handoff is issued: everything the first section of `dispatch` checks. -/
structure Impl.HandoffCurrent (ctx : Context) (impl : Impl) (id : AssignmentId) (generation : AssignmentGeneration) :
    Prop where
  running : impl.running ∧ ¬impl.shuttingDown
  assignment : ∃ record, impl.assignments[id]? = some record ∧ record.state = .assigned ∧ record.leaseCurrent ∧
    ¬record.binding.leaseExpiresAtMs < ctx.now ∧ bootIsFenced impl record.binding.boot = false ∧
    ∃ agent, impl.agents[record.binding.agent]? = some agent ∧ agent.descriptor.boot = record.binding.boot ∧
      agent.lifecycle ≠ .lost ∧ agent.lifecycle ≠ .retired ∧ agent.lifecycle ≠ .draining
  checks : dispatchCheck ctx impl id generation = .ok ()

/-- The scheduler is running and the stored lease covers the present, which only the first section checks. -/
structure Impl.HandoffOpen (now : UInt64) (impl : Impl) (id : AssignmentId) : Prop where
  running : impl.running ∧ ¬impl.shuttingDown
  lease : ∀ record, impl.assignments[id]? = some record → ¬record.binding.leaseExpiresAtMs < now

/-- Every identity, generation and epoch of a binding is the one the scheduler has now. -/
structure Impl.BindsCurrent (impl : Impl) (binding : AssignmentBinding) : Prop where
  scheduler : binding.scheduler = impl.schedulerId
  schedulerEpoch : binding.schedulerEpoch = impl.schedulerEpoch
  coordinatorEpoch : binding.coordinatorEpoch = impl.coordinatorEpoch
  policy : binding.policy = impl.policy.id ∧ binding.policyGeneration = impl.policy.generation
  work : ∃ work, impl.work[binding.work]? = some work ∧ work.request.generation = binding.workGeneration ∧
    work.request.requirements.resourceGeneration = binding.resourceGeneration ∧
    work.request.requirements.budgetGeneration = binding.budgetGeneration ∧
    work.request.requirements.sloGeneration = binding.sloGeneration ∧
    work.request.requirements.reservationGeneration = binding.reservationGeneration ∧
    work.request.queue = binding.queue
  queue : ∃ queue, impl.queues[binding.queue]? = some queue ∧ queue.generation = binding.queueGeneration
  agent : ∃ agent, impl.agents[binding.agent]? = some agent ∧ agent.descriptor.generation = binding.agentGeneration ∧
    agent.descriptor.boot = binding.boot ∧ agent.profile.profileId = binding.capabilityProfile ∧
    agent.profile.generation = binding.capabilityGeneration ∧
    agent.descriptor.placementDomain = binding.placementDomain ∧ agent.descriptor.topologyEpoch = binding.topologyEpoch

/-- What neither the commit nor the dispatch compares: the queue generation, the placement of the agent, and the part of the
request that a work item keeps while its generation stands still. -/
structure Impl.UncheckedCurrent (impl : Impl) (binding : AssignmentBinding) : Prop where
  work : ∀ work, impl.work[binding.work]? = some work →
    work.request.requirements.resourceGeneration = binding.resourceGeneration ∧
    work.request.requirements.budgetGeneration = binding.budgetGeneration ∧
    work.request.requirements.sloGeneration = binding.sloGeneration ∧
    work.request.requirements.reservationGeneration = binding.reservationGeneration ∧
    work.request.queue = binding.queue
  queue : ∃ queue, impl.queues[binding.queue]? = some queue ∧ queue.generation = binding.queueGeneration
  agent : ∀ agent, impl.agents[binding.agent]? = some agent →
    agent.descriptor.placementDomain = binding.placementDomain ∧ agent.descriptor.topologyEpoch = binding.topologyEpoch

section Checks
variable {ctx : Context} {impl : Impl} {record : AssignmentRecord}

/-- What `revalidate_authority` has compared when it accepts. -/
theorem revalidateAuthority_ok (h : revalidateAuthority ctx impl record = .ok ()) :
    (record.binding.scheduler = impl.schedulerId ∧ record.binding.schedulerEpoch = impl.schedulerEpoch ∧
      record.binding.coordinatorEpoch = impl.coordinatorEpoch ∧ record.binding.policy = impl.policy.id ∧
      record.binding.policyGeneration = impl.policy.generation) ∧
    (∃ work, impl.work[record.binding.work]? = some work ∧
      work.request.generation = record.binding.workGeneration ∧ work.lifecycle.isTerminal = false) ∧
    ∃ agent, impl.agents[record.binding.agent]? = some agent ∧
      agent.descriptor.generation = record.binding.agentGeneration ∧ agent.descriptor.boot = record.binding.boot ∧
      bootIsFenced impl record.binding.boot = false ∧
      (agent.lifecycle ≠ .lost ∧ agent.lifecycle ≠ .retired ∧ agent.lifecycle ≠ .draining) ∧
      agent.profile.profileId = record.binding.capabilityProfile ∧
      agent.profile.generation = record.binding.capabilityGeneration := by
  unfold revalidateAuthority at h
  simp only [except_bind_eq_ok, lookupOrRefuse_eq_ok] at h
  obtain ⟨_, hscheduler, work, hwork, _, hrevalidated, agent, hagent, _, hincarnation, -⟩ := h
  unfold revalidateScheduler at hscheduler
  unfold revalidateWork at hrevalidated
  unfold revalidateAgent at hincarnation
  simp only [check_bind_eq_ok, refuseIf_eq_ok, not_or, not_not, ne_eq] at hscheduler hrevalidated hincarnation
  obtain ⟨-, ⟨hid, hepoch⟩, hcoordinator, hpolicy, hpolicyGeneration⟩ := hscheduler
  obtain ⟨hgeneration, -, -, hterminal, -⟩ := hrevalidated
  obtain ⟨hagentGeneration, hboot, hfenced, ⟨hlost, hretired⟩, hdraining, hprofile, hprofileId, -⟩ := hincarnation
  exact ⟨⟨hid, hepoch, hcoordinator, hpolicy, hpolicyGeneration⟩, ⟨work, hwork, hgeneration, by simpa using hterminal⟩,
    agent, hagent, hagentGeneration, hboot, by simpa using hfenced, ⟨hlost, hretired, hdraining⟩, hprofileId, hprofile⟩

end Checks

section Steps
variable {system after early : System} {label : Label} {binding : AssignmentBinding}

/-- A handoff comes from the second section of a dispatch call, whose checks a stored record has passed. -/
theorem System.HandsOff.call (h : system.HandsOff label after binding) :
    ∃ position assignment generation record, label = .finish position ∧
      system.calls[position]? = some (.dispatch assignment generation) ∧
      handoffCheck system.context system.impl assignment generation = .ok record ∧
      binding = (record.handOff system.now system.impl.policy.assignmentLeaseTtlMs).binding ∧
      after.impl = (dispatchCommit system.context system.impl assignment generation).2 := by
  obtain ⟨result, hstep, hhandoff⟩ := h
  cases label with
  | finish position =>
    simp only [System.step] at hstep
    split at hstep
    · cases hstep
    · next call hcall =>
      obtain ⟨hreply, rfl⟩ := Prod.mk.inj (Option.some.inj hstep)
      cases call with
      | dispatch assignment generation =>
        cases hcheck : handoffCheck system.context system.impl assignment generation with
        | error rejection =>
          simp only [finishCall, dispatchCommit, hcheck, Prod.map] at hreply
          obtain rfl := Reply.dispatch.inj hreply
          cases hhandoff
        | ok record =>
          simp only [finishCall, dispatchCommit, hcheck, Prod.map] at hreply
          obtain rfl := Reply.dispatch.inj hreply
          obtain rfl := Option.some.inj hhandoff
          exact ⟨position, assignment, generation, record, rfl, hcall, hcheck, rfl, rfl⟩
      | schedule | registerAgent | submitWork | cancelWork | declareAgentLost => cases hreply
  | «begin» request =>
    simp only [System.step] at hstep
    split at hstep
    · next reply hbegin =>
      obtain ⟨rfl, -⟩ := Prod.mk.inj (Option.some.inj hstep)
      cases request with
      | dispatch assignment generation =>
        simp only [beginCall, dispatchBegin] at hbegin
        cases hcheck : dispatchCheck system.context system.impl assignment generation with
        | error rejection =>
          simp only [hcheck] at hbegin
          obtain rfl := Reply.dispatch.inj (Sum.inl.inj hbegin)
          cases hhandoff
        | ok _ =>
          simp only [hcheck] at hbegin
          cases hbegin
      | schedule | registerAgent | submitWork | cancelWork | declareAgentLost =>
        simp only [beginCall] at hbegin
        split at hbegin <;> cases hbegin
    · cases hstep
  | run operation => cases operation <;> cases hstep
  | tick | load =>
    simp only [System.step] at hstep
    repeat' split at hstep
    all_goals cases hstep
  | provide | save => cases hstep
  | restart options generatedId =>
    obtain ⟨_, -, heq⟩ := Option.map_eq_some_iff.mp hstep
    cases heq

/-- What is handed off is stored, assigned, and under current authority; afterwards it is dispatched. -/
theorem System.HandsOff.spec (hvalid : system.Valid) (h : system.HandsOff label after binding) :
    ∃ record, system.impl.assignments[binding.id]? = some record ∧ record.state = .assigned ∧
      binding = { record.binding with leaseExpiresAtMs := binding.leaseExpiresAtMs } ∧
      revalidateAuthority system.context system.impl record = .ok () ∧
      ∃ handed, after.impl.assignments[binding.id]? = some handed ∧ handed.state = .dispatched ∧
        handed.binding = binding := by
  obtain ⟨_, assignment, generation, record, -, -, hcheck, rfl, hform⟩ := h.call
  obtain ⟨hrecord, -, hstate, hauthority⟩ := handoffCheck_ok hcheck
  have hkey : record.binding.id = assignment := hvalid.healthy.consistent.assignmentKey assignment record hrecord
  subst hkey
  rw [hform]
  simp only [dispatchCommit, hcheck]
  refine ⟨record, hrecord, hstate, rfl, hauthority,
    record.handOff system.context.now system.impl.policy.assignmentLeaseTtlMs, ?_, rfl, rfl⟩
  exact (KeyedTable.getElem?_insert ..).trans (if_pos rfl)

private theorem extends_step (hvalid : system.Valid) (hlossless : Lossless system label) {reply : Reply}
    (hstep : system.step label = some (reply, after)) : system.impl.ledger.Extends after.impl.ledger := by
  have hchange : Change (fun _ _ => True) system after label :=
    System.step_change hvalid hstep (fun _ _ _ _ _ => trivial) fun _ _ _ _ => trivial
  cases hchange with
  | moves _ hmoves =>
    exact Runs.relates (motive := Sound) Ledger.Extends.refl (fun _ _ _ => Ledger.Extends.trans)
      (fun _ _ hmove => hmove.sound) (fun _ _ hmove => hmove.extends) hmoves hvalid.healthy.sound
  | recovers position file hlabel hfile hstopped himpl _ =>
    have hmem := List.mem_of_getElem? hfile
    rw [himpl, (restore_image _ (hvalid.saved file hmem).consistent).2, ← hlossless.loads position file hlabel hfile hstopped]
    exact Ledger.extends_recover _ _
  | constructs options generatedId hlabel _ _ => exact (hlossless.restarts options generatedId hlabel).elim

/-- Along a lossless run every assignment record is kept and evolves. -/
theorem System.Runs.extends (hrun : System.Runs Lossless early system) (hearly : early.Valid) :
    early.impl.ledger.Extends system.impl.ledger :=
  Runs.relates (r := fun s s' : System => s.impl.ledger.Extends s'.impl.ledger) (fun _ => Ledger.Extends.refl _)
    (fun _ _ _ => Ledger.Extends.trans) (fun _ _ hstep => hstep.valid)
    (fun _ _ ⟨_, _, hlossless, hstep⟩ hvalid => extends_step hvalid hlossless hstep) hrun hearly

end Steps

namespace Sample

/-- The binding a reply hands off. -/
def handoffOf : Reply → Option AssignmentBinding
  | .dispatch result => result.handoff
  | _ => none

theorem of_handoff {system after : System} {label : Label} {reply : Reply} {binding : AssignmentBinding}
    (hstep : system.step label = some (reply, after)) (h : handoffOf reply = some binding) :
    system.HandsOff label after binding := by
  cases reply with
  | dispatch result => exact ⟨result, hstep, h⟩
  | mutation | decision | batch | report | recovered | pending => cases h

/-- A work item is scheduled and its assignment dispatched, with some steps between the two sections of the dispatch. -/
def dispatched (between : List Label) : Option (System × AssignmentBinding × System) := do
  let committed ← run (fun _ label => Unbroken label) (enlist ++ submit exclusiveWork ++ schedule)
  match committed.impl.assignments.values with
  | [record] =>
    let ready ← committed.perform (fun _ label => Unbroken label)
      (.begin (.dispatch record.binding.id record.binding.generation) :: between)
    let (reply, after) ← ready.step (.finish 0)
    let binding ← handoffOf reply
    return (ready, binding, after)
  | _ => none

theorem dispatched_spec {between : List Label} {ready after : System} {binding : AssignmentBinding}
    (h : dispatched between = some (ready, binding, after)) :
    ready.Reachable ∧ ready.HandsOff (.finish 0) after binding := by
  simp only [dispatched, bind, Option.bind_eq_some_iff] at h
  obtain ⟨committed, hcommitted, h⟩ := h
  split at h
  · simp only [Option.bind_eq_some_iff] at h
    obtain ⟨ready', hready, ⟨reply, after'⟩, hstep, binding', hbinding, heq⟩ := h
    obtain ⟨rfl, rfl, rfl⟩ := by simpa only [pure, Option.some.injEq, Prod.mk.injEq] using heq
    have hreached : ready'.ReachableBy fun _ label => Unbroken label :=
      (run_reaches hcommitted).trans (System.perform_runs hready)
    exact ⟨hreached.mono fun _ _ _ => trivial, of_handoff hstep hbinding⟩
  · cases h

end Sample

/-- In a reachable state a handoff meets the checks of the first section exactly when the two that the second
section leaves out would pass. -/
theorem handoff_current_iff : ∀ (system after : System) label binding, system.Reachable →
    system.HandsOff label after binding →
    (system.impl.HandoffCurrent system.context binding.id binding.generation ↔
      system.impl.HandoffOpen system.now binding.id) := by
  intro system after label binding hreachable hhands
  have hhealthy := hreachable.valid.healthy
  obtain ⟨record, hrecord, hstate, hbinding, hauthority, -⟩ := hhands.spec hreachable.valid
  obtain ⟨-, -, agent, hagent, -, hboot, hfenced, hlifecycle, -⟩ := revalidateAuthority_ok hauthority
  refine ⟨fun hcurrent => ⟨hcurrent.running, fun found hfound => ?_⟩, fun hopen => ?_⟩
  · obtain ⟨found', hfound', -, -, hlease, -⟩ := hcurrent.assignment
    obtain rfl := Option.some.inj (hfound.symm.trans hfound')
    exact hlease
  · have hlease : record.leaseCurrent := by
      rw [(hhealthy.sound binding.id record hrecord).lease, hstate]
      rfl
    have hcovers := hopen.lease record hrecord
    have hgeneration : record.binding.generation = binding.generation := by rw [hbinding]
    refine ⟨hopen.running, ⟨record, hrecord, hstate, hlease, hcovers, hfenced, agent, hagent, hboot, hlifecycle⟩, ?_⟩
    have hgates : dispatchGates system.now system.impl binding.generation record = .ok () := by
      unfold dispatchGates
      simp [check_bind_eq_ok, hgeneration, hopen.running.1, hopen.running.2, hfenced, hstate, hlease, hcovers]
    simp only [dispatchCheck, hrecord]
    change (do dispatchGates system.now system.impl binding.generation record
               revalidateAuthority system.context system.impl record) = .ok ()
    rw [hgates]
    exact hauthority

set_option maxRecDepth 100000 in
/-- A dispatch that nothing comes between is issued on current authority. -/
theorem handoff_current_sample : ∃ (system after : System) (binding : AssignmentBinding),
    system.HandsOff (.finish 0) after binding ∧ system.impl.HandoffOpen system.now binding.id ∧
      system.impl.HandoffCurrent system.context binding.id binding.generation := by
  have hview : (Sample.dispatched []).map (fun (system, binding, _) =>
      (system.impl.running && !system.impl.shuttingDown,
        (system.impl.assignments[binding.id]?).all fun record => !decide (record.binding.leaseExpiresAtMs < system.now))) =
      some (true, true) := by decide +kernel
  obtain ⟨⟨system, binding, after⟩, hrun, hview⟩ := Option.map_eq_some_iff.mp hview
  obtain ⟨hreachable, hhands⟩ := Sample.dispatched_spec hrun
  simp only [Prod.mk.injEq, Bool.and_eq_true, Bool.not_eq_true'] at hview
  have hopen : system.impl.HandoffOpen system.now binding.id := by
    refine ⟨⟨hview.1.1, by simp [hview.1.2]⟩, fun record hrecord => ?_⟩
    simpa [hrecord] using hview.2
  exact ⟨system, after, binding, hhands, hopen, (handoff_current_iff system after _ binding hreachable hhands).mpr hopen⟩

/-- The clock passes the end of the assignment lease, and the agent renews its evidence. -/
def Sample.overdue : List Label :=
  [.tick 130000, .run (.publishHealth 1 boot health), .run (.publishAvailability 1 boot availability)]

set_option maxRecDepth 100000 in
/-- Not every handoff is issued on current authority: the second section does not look at the lease again. -/
theorem not_handoff_current : ¬∀ (system after : System) label binding, system.Reachable →
    system.HandsOff label after binding →
    system.impl.HandoffCurrent system.context binding.id binding.generation := by
  intro hcurrent
  have hview : (Sample.dispatched Sample.overdue).map (fun (system, binding, _) =>
      (system.impl.assignments[binding.id]?).all fun record => decide (record.binding.leaseExpiresAtMs < system.now)) =
      some true := by decide +kernel
  obtain ⟨⟨system, binding, after⟩, hrun, hview⟩ := Option.map_eq_some_iff.mp hview
  obtain ⟨hreachable, hhands⟩ := Sample.dispatched_spec hrun
  obtain ⟨record, hrecord, -, -, hlease, -⟩ := (hcurrent system after _ binding hreachable hhands).assignment
  simp only [hrecord, Option.all_some, decide_eq_true_eq] at hview
  exact hlease hview

/-- A handoff binds what the scheduler has now exactly when what no check compares has stayed the same. -/
theorem handoff_binds_iff : ∀ (system after : System) label binding, system.Reachable →
    system.HandsOff label after binding →
    (system.impl.BindsCurrent binding ↔ system.impl.UncheckedCurrent binding) := by
  intro system after label binding hreachable hhands
  obtain ⟨record, -, -, hbinding, hauthority, -⟩ := hhands.spec hreachable.valid
  obtain ⟨hscheduler, ⟨work, hwork, hgeneration, -⟩, agent, hagent, hagentGeneration, hboot, -, -, hprofile, hcapability⟩ :=
    revalidateAuthority_ok hauthority
  obtain ⟨hid, hepoch, hcoordinator, hpolicy⟩ := hscheduler
  refine ⟨fun hcurrent => ⟨fun found hfound => ?_, hcurrent.queue, fun found hfound => ?_⟩, fun hunchecked => ?_⟩
  · obtain ⟨found', hfound', -, hrest⟩ := hcurrent.work
    obtain rfl := Option.some.inj (hfound.symm.trans hfound')
    exact hrest
  · obtain ⟨found', hfound', -, -, -, -, hplacement⟩ := hcurrent.agent
    obtain rfl := Option.some.inj (hfound.symm.trans hfound')
    exact hplacement
  · obtain ⟨hrequest, hqueue, hplacement⟩ := hunchecked
    rw [hbinding] at hrequest hqueue hplacement ⊢
    exact ⟨hid, hepoch, hcoordinator, hpolicy, ⟨work, hwork, hgeneration, hrequest work hwork⟩, hqueue,
      agent, hagent, hagentGeneration, hboot, hprofile, hcapability, hplacement agent hagent⟩

set_option maxRecDepth 100000 in
/-- A dispatch that nothing comes between binds what the scheduler has. -/
theorem handoff_binds_sample : ∃ (system after : System) (binding : AssignmentBinding),
    system.HandsOff (.finish 0) after binding ∧ system.impl.UncheckedCurrent binding ∧
      system.impl.BindsCurrent binding := by
  have hview : (Sample.dispatched []).map (fun (system, binding, _) =>
      ((system.impl.work[binding.work]?).all fun work =>
          work.request.requirements.resourceGeneration = binding.resourceGeneration ∧
          work.request.requirements.budgetGeneration = binding.budgetGeneration ∧
          work.request.requirements.sloGeneration = binding.sloGeneration ∧
          work.request.requirements.reservationGeneration = binding.reservationGeneration ∧
          work.request.queue = binding.queue,
        (system.impl.queues[binding.queue]?).any fun queue => queue.generation = binding.queueGeneration,
        (system.impl.agents[binding.agent]?).all fun agent =>
          agent.descriptor.placementDomain = binding.placementDomain ∧
          agent.descriptor.topologyEpoch = binding.topologyEpoch)) = some (true, true, true) := by decide +kernel
  obtain ⟨⟨system, binding, after⟩, hrun, hview⟩ := Option.map_eq_some_iff.mp hview
  obtain ⟨hreachable, hhands⟩ := Sample.dispatched_spec hrun
  simp only [Prod.mk.injEq] at hview
  obtain ⟨hwork, hqueue, hagent⟩ := hview
  have hunchecked : system.impl.UncheckedCurrent binding := by
    refine ⟨fun work hstored => ?_, ?_, fun agent hstored => ?_⟩
    · simpa [hstored] using hwork
    · obtain ⟨queue, hstored, hgeneration⟩ := Option.any_eq_true_iff_get _ _ |>.mp hqueue |> fun ⟨h, hp⟩ =>
        (⟨_, Option.some_get h |>.symm, hp⟩ : ∃ queue, system.impl.queues[binding.queue]? = some queue ∧
          decide (queue.generation = binding.queueGeneration) = true)
      exact ⟨queue, hstored, by simpa using hgeneration⟩
    · simpa [hstored] using hagent
  exact ⟨system, after, binding, hhands, hunchecked,
    (handoff_binds_iff system after _ binding hreachable hhands).mpr hunchecked⟩

set_option maxRecDepth 100000 in
/-- Not every handoff binds what the scheduler has: no check compares the generation of the queue. -/
theorem not_handoff_binds : ¬∀ (system after : System) label binding, system.Reachable →
    system.HandsOff label after binding → system.impl.BindsCurrent binding := by
  intro hbinds
  have hview : (Sample.dispatched [.run (.registerQueue 1 2 "default" 1)]).map (fun (system, binding, _) =>
      (system.impl.queues[binding.queue]?).all fun queue => queue.generation ≠ binding.queueGeneration) =
      some true := by decide +kernel
  obtain ⟨⟨system, binding, after⟩, hrun, hview⟩ := Option.map_eq_some_iff.mp hview
  obtain ⟨hreachable, hhands⟩ := Sample.dispatched_spec hrun
  obtain ⟨queue, hstored, hgeneration⟩ := (hbinds system after _ binding hreachable hhands).queue
  simp [hstored, hgeneration] at hview

/-- In a run without a lossy load or a replaced process no assignment is handed off twice, and what is handed off is
the binding stored for it, with a renewed lease. -/
theorem handed_off_once :
    (∀ (first after second after' : System) label label' binding binding', first.Reachable →
      first.HandsOff label after binding → System.Runs Lossless after second →
      second.HandsOff label' after' binding' → binding.id ≠ binding'.id) ∧
    ∀ (early system after : System) label binding record, early.Reachable → System.Runs Lossless early system →
      system.HandsOff label after binding → early.impl.assignments[binding.id]? = some record →
      binding = { record.binding with leaseExpiresAtMs := binding.leaseExpiresAtMs } := by
  refine ⟨?_, ?_⟩
  · intro first after second after' label label' binding binding' hreachable hhands hrun hhands' heq
    obtain ⟨_, -, -, -, -, handed, hhanded, hdispatched, -⟩ := hhands.spec hreachable.valid
    have hafter : after.Valid := by
      obtain ⟨result, hstep, -⟩ := hhands
      exact hreachable.valid.step hstep
    obtain ⟨later, hlater, hevolves⟩ := hrun.extends hafter binding.id handed hhanded
    obtain ⟨record, hrecord, hassigned, -⟩ := hhands'.spec (hrun.valid hafter)
    rw [← heq] at hrecord
    obtain rfl := Option.some.inj (hrecord.symm.trans hlater)
    exact hevolves.unassigned (by rw [hdispatched]; nofun) hassigned
  · intro early system after label binding record hreachable hrun hhands hrecord
    obtain ⟨stored, hstored, -, hbinding, -⟩ := hhands.spec (hrun.valid hreachable.valid)
    obtain ⟨later, hlater, hevolves⟩ := hrun.extends hreachable.valid binding.id record hrecord
    obtain rfl := Option.some.inj (hstored.symm.trans hlater)
    have hsame : SameBinding record stored := hevolves.binding
    rw [hbinding, hsame]

/-- Two slots of one work item are assigned, and both assignments are dispatched. -/
def Sample.twoHandoffs : Option ((System × AssignmentBinding × System) × System × AssignmentBinding × System) := do
  let committed ← run (fun _ label => Unbroken label) (enlist ++ submit parallelWork ++ schedule ++ schedule)
  match committed.impl.assignments.values with
  | [record, record'] =>
    let first ← committed.perform (fun _ label => Unbroken label)
      [.begin (.dispatch record.binding.id record.binding.generation)]
    let (reply, after) ← first.step (.finish 0)
    let binding ← handoffOf reply
    let second ← after.perform (fun _ label => Unbroken label)
      [.begin (.dispatch record'.binding.id record'.binding.generation)]
    let (reply', after') ← second.step (.finish 0)
    let binding' ← handoffOf reply'
    return ((first, binding, after), second, binding', after')
  | _ => none

set_option maxRecDepth 100000 in
/-- Two assignments of one work item are handed off as two. -/
theorem handed_off_once_sample : ∃ (first after second after' : System) (binding binding' : AssignmentBinding) (record : AssignmentRecord),
    first.HandsOff (.finish 0) after binding ∧ second.HandsOff (.finish 0) after' binding' ∧ binding.id ≠ binding'.id ∧
      first.impl.assignments[binding'.id]? = some record ∧
      binding' = { record.binding with leaseExpiresAtMs := binding'.leaseExpiresAtMs } := by
  have hview : Sample.twoHandoffs.map (fun ((first, _), _, binding', _) =>
      first.impl.assignments.contains binding'.id) = some true := by decide +kernel
  obtain ⟨⟨⟨first, binding, after⟩, second, binding', after'⟩, hruns, hview⟩ := Option.map_eq_some_iff.mp hview
  simp only [Sample.twoHandoffs, bind, Option.bind_eq_some_iff] at hruns
  obtain ⟨committed, hcommitted, hruns⟩ := hruns
  split at hruns
  · simp only [Option.bind_eq_some_iff] at hruns
    obtain ⟨first', hfirst, ⟨reply, next⟩, hstep, found, hbinding, second', hsecond, ⟨reply', next'⟩, hstep', found', hbinding', heq⟩ :=
      hruns
    obtain ⟨⟨rfl, rfl, rfl⟩, rfl, rfl, rfl⟩ := by simpa only [pure, Option.some.injEq, Prod.mk.injEq] using heq
    have hreached : first'.Reachable :=
      ((Sample.run_reaches hcommitted).trans (System.perform_runs hfirst)).mono fun _ _ _ => trivial
    have hbetween : System.Runs Lossless next second' :=
      (System.perform_runs hsecond).mono fun s _ h => Sample.Unbroken.lossless h s
    have hhands := Sample.of_handoff hstep hbinding
    have hhands' := Sample.of_handoff hstep' hbinding'
    have hrun : System.Runs Lossless first' second' :=
      .head ⟨_, _, @Sample.Unbroken.lossless (.finish 0) trivial _, hstep⟩ hbetween
    obtain ⟨record, hrecord⟩ := Option.isSome_iff_exists.mp (ExtTreeMap.contains_eq_isSome_getElem?.symm.trans hview)
    exact ⟨first', next, second', next', _, _, record, hhands, hhands',
      handed_off_once.1 first' next second' next' _ _ _ _ hreached hhands hbetween hhands', hrecord,
      handed_off_once.2 first' second' next' _ _ record hreached hrun hhands' hrecord⟩
  · cases hruns

end AgentScheduler
