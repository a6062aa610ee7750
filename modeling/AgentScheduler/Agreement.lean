import AgentScheduler.Readiness

/-! Planning against committing: what a commit repeats of the plan, what it adds, and what it leaves out. -/
namespace AgentScheduler
open Std KeyedTable Relation

/-! ### The commits of a step -/

/-- The largest number of passes of a batch. -/
def batchPassLimit (impl : Impl) (request : ScheduleRequest) : Nat :=
  let maxFanout := (batchCandidates impl request).foldl
    (fun fanout entry => max fanout entry.2.request.requirements.maxParallel.toNat) 1
  max 1 (min maxFanout impl.limits.maxBatchAssignments.toNat)

/-- The items a batch comes to, each with the pass and the state it finds. -/
inductive BatchVisits (ctx : Context) (request : ScheduleRequest) (candidates : List WorkId) :
    Nat → Bool → BatchState → Bool → BatchState → WorkId → Prop
  | item {passes : Nat} {first : Bool} {state : BatchState} {before after : List WorkId} {id : WorkId}
      (hroom : state.assigned < request.maxAssignments.toNat)
      (horder : batchOrder state.impl first candidates = before ++ id :: after) :
      BatchVisits ctx request candidates (passes + 1) first state first
        (before.foldl (batchItem ctx request first) { state with progress := false }) id
  | later {passes : Nat} {first later : Bool} {state found : BatchState} {id : WorkId}
      (hroom : state.assigned < request.maxAssignments.toNat)
      (hprogress : ((batchOrder state.impl first candidates).foldl (batchItem ctx request first)
        { state with progress := false }).progress)
      (hvisits : BatchVisits ctx request candidates passes false
        ((batchOrder state.impl first candidates).foldl (batchItem ctx request first) { state with progress := false })
        later found id) :
      BatchVisits ctx request candidates (passes + 1) first state later found id

/-- An item of a batch that is run now. -/
structure System.Visits (system : System) (request : ScheduleRequest) (first : Bool) (state : BatchState) (id : WorkId) :
    Prop where
  running : system.impl.running
  admission : system.impl.admissionOpen
  visits : BatchVisits system.context request ((batchCandidates system.impl request).map Prod.fst)
    (batchPassLimit system.impl request) true { impl := system.impl } first state id

/-- The commits of a step: the instance each of them finds, its work item and its binding. -/
inductive System.Commits (system : System) : Label → Impl → WorkRecord → AssignmentBinding → Prop
  | schedule {position : Nat} {plan : Plan} {work : WorkRecord} (hcall : system.calls[position]? = some (.schedule plan))
      (hcheck : commitCheck system.context system.impl plan.work plan.generation plan.binding = .ok work) :
      system.Commits (.finish position) system.impl work plan.binding
  | batch {request : ScheduleRequest} {first : Bool} {state : BatchState} {id : WorkId} {work : WorkRecord}
      {binding : AssignmentBinding} (hvisits : system.Visits request first state id)
      (hwork : state.impl.work[id]? = some work)
      (hplan : (planLocked system.context state.impl work).binding = some binding) (hdry : request.dryRun = false)
      (hcheck : commitCheck system.context state.impl work.request.id work.request.generation binding = .ok work) :
      system.Commits (.run (.scheduleBatch request)) state.impl work binding

section Batches
variable {ctx : Context} {request : ScheduleRequest} {candidates : List WorkId} {first : Bool} {state : BatchState}

/-- What a batch starts from and every item it comes to keeps holds at its end. -/
theorem batchPasses_visits {motive : BatchState → Prop} (passes : Nat)
    (hitem : ∀ later found id, BatchVisits ctx request candidates passes first state later found id → motive found →
      motive (batchItem ctx request later found id))
    (hprogress : ∀ state progress, motive state → motive { state with progress := progress }) (h : motive state) :
    motive (batchPasses ctx request candidates passes first state) := by
  induction passes generalizing first state with
  | zero => exact h
  | succ passes ih =>
    unfold batchPasses
    split
    · exact h
    · next hroom =>
      have hroom : state.assigned < request.maxAssignments.toNat := Nat.lt_of_not_le hroom
      simp only
      split
      · exact h
      · let order := batchOrder state.impl first candidates
        let swept := order.foldl (batchItem ctx request first) { state with progress := false }
        have hsweep : ∀ before after, order = before ++ after →
            motive (before.foldl (batchItem ctx request first) { state with progress := false }) := by
          intro before
          induction before using List.reverseRecOn with
          | nil => exact fun _ _ => hprogress state false h
          | append_singleton before id hbefore =>
            intro after horder
            have horder : order = before ++ id :: after := by simpa using horder
            rw [List.foldl_append]
            exact hitem first _ id (.item hroom horder) (hbefore (id :: after) horder)
        have hswept : motive swept := hsweep order [] (List.append_nil order).symm
        change motive (if swept.progress then batchPasses ctx request candidates passes false swept else swept)
        split
        · next hagain =>
          exact ih (fun later found id hvisits => hitem later found id (.later hroom hagain hvisits)) hswept
        · exact hswept

/-- What a batch starts from and every item keeps holds at every item it comes to. -/
theorem BatchVisits.keeps {motive : BatchState → Prop} {passes : Nat} {later : Bool} {found : BatchState} {id : WorkId}
    (hvisits : BatchVisits ctx request candidates passes first state later found id)
    (hitem : ∀ first state id, motive state → motive (batchItem ctx request first state id))
    (hprogress : ∀ state progress, motive state → motive { state with progress := progress }) (h : motive state) :
    motive found := by
  induction hvisits with
  | item => exact List.foldlRecOn (motive := motive) _ _ (hprogress _ false h) fun acc hacc id _ => hitem _ acc id hacc
  | later _ _ _ ih =>
    exact ih (List.foldlRecOn (motive := motive) _ _ (hprogress _ false h) fun acc hacc id _ => hitem _ acc id hacc)

end Batches

/-! ### What the two check lists share -/

section Plans
variable {ctx : Context} {impl : Impl} {id : WorkId} {work : WorkRecord} {record : AgentRecord} {binding : AssignmentBinding}

/-- The parts of the commit check. -/
theorem commitCheck_ok {workId : WorkId} {generation : WorkGeneration} :
    commitCheck ctx impl workId generation binding = .ok work ↔
      commitScheduler impl binding = .ok () ∧ impl.work[workId]? = some work ∧
        commitWork ctx.now impl workId generation binding work = .ok () ∧
        (∃ agent, impl.agents[binding.agent]? = some agent ∧
          commitAgent ctx.now impl workId work.request.requirements binding agent = .ok ()) ∧
        commitFeasibility work.request.requirements (evaluateFeasibility ctx work) = .ok () := by
  unfold commitCheck
  simp only [except_bind_eq_ok, lookupOrRefuse_eq_ok]
  constructor
  · rintro ⟨_, hscheduler, found, hfound, _, hwork, agent, hstored, _, hagent, _, hfeasible, hreturn⟩
    obtain rfl : found = work := Except.ok.inj hreturn
    exact ⟨hscheduler, hfound, hwork, ⟨agent, hstored, hagent⟩, hfeasible⟩
  · rintro ⟨hscheduler, hfound, hwork, ⟨agent, hstored, hagent⟩, hfeasible⟩
    exact ⟨(), hscheduler, work, hfound, (), hwork, agent, hstored, (), hagent, (), hfeasible, rfl⟩

/-- A plan binds a stored agent that is eligible. -/
theorem planLocked_winner (h : Consistent impl) (hplan : (planLocked ctx impl work).binding = some binding) :
    ∃ record, impl.agents[binding.agent]? = some record ∧ binding = planBinding ctx.now impl work record ∧
      eligibility ctx.now impl work record (evaluateFeasibility ctx work) = .ok () := by
  obtain ⟨-, id, agent, hagent, hbinding⟩ := planLocked_binding hplan
  rcases planLocked_choice ctx work h with ⟨-, hnone⟩ | ⟨chosen, record, hrecord, heligible, -, hbound⟩
  · rw [hnone] at hplan
    cases hplan
  · have hchosen : binding.agent = chosen := (hbound binding hplan).1
    have hkey : agent.descriptor.id = id := h.agentKey id agent hagent
    have hid : binding.agent = id := by
      rw [hbinding, ← hkey]
      rfl
    obtain rfl : agent = record := by
      rw [← hid, hchosen, hrecord] at hagent
      exact (Option.some.inj hagent).symm
    exact ⟨agent, hid ▸ hagent, hbinding, heligible⟩

/-- Whoever is eligible for work that requires a capability has fresh evidence of its capabilities. -/
theorem eligibility_fresh {now : UInt64} {feasibility : ExternalFeasibilityResult} {requirement : CapabilityRequirement}
    (h : eligibility now impl work record feasibility = .ok ()) (hmem : requirement ∈ work.request.requirements.capabilities)
    (hmode : requirement.mode = .required) : capabilityFresh now impl record := by
  unfold eligibility at h
  simp only [check_bind_eq_ok] at h
  obtain ⟨-, -, -, -, hcapabilities, -⟩ := h
  have hrequired : requirement ∈ work.request.requirements.capabilities.filter fun requirement => requirement.mode = .required :=
    List.mem_filter.mpr ⟨hmem, by simpa using hmode⟩
  have hcheck := forM_eq_ok.mp hcapabilities requirement hrequired
  unfold checkCapability at hcheck
  simp only [check_bind_eq_ok, refuseIf_eq_ok, not_not] at hcheck
  exact hcheck.2.1

/-- The external verdict that made an agent eligible lets its commit through. -/
private theorem commitFeasibility_of {requirements : WorkRequirements} {feasibility : ExternalFeasibilityResult}
    (h : checkFeasibility requirements feasibility = .ok ()) : commitFeasibility requirements feasibility = .ok () := by
  unfold checkFeasibility at h
  unfold commitFeasibility
  simp only [check_bind_eq_ok, refuseIf_eq_ok] at h ⊢
  exact h

/-- Of the checks on the agent, a commit of an eligible agent that is bound now can only fail the one on its evidence. -/
private theorem commitAgent_of {now : UInt64} {feasibility : ExternalFeasibilityResult}
    (h : eligibility now impl work record feasibility = .ok ()) :
    commitAgent now impl work.request.id work.request.requirements (planBinding now impl work record) record = .ok () ↔
      capabilityFresh now impl record := by
  unfold eligibility checkPlacement at h
  simp only [check_bind_eq_ok, refuseIf_eq_ok] at h
  obtain ⟨hfenced, hlifecycle, -, ⟨hroom, -, hperAgent, -⟩, -⟩ := h
  have haccepts : record.lifecycle.acceptsNewWork := by
    unfold checkLifecycle at hlifecycle
    cases hstate : record.lifecycle <;> rw [hstate] at hlifecycle <;> first | rfl | cases hlifecycle
  unfold commitAgent
  simp only [check_bind_eq_ok, refuseIf_eq_ok]
  constructor
  · rintro ⟨-, -, -, -, hcapability, -, -⟩
    simp only [not_or, not_not] at hcapability
    exact hcapability.2.2
  · intro hfresh
    refine ⟨fun hne => hne rfl, fun hne => hne rfl, hfenced, fun hrefuses => hrefuses haccepts, ?_, hroom, hperAgent⟩
    simp only [not_or, not_not]
    exact ⟨rfl, rfl, hfresh⟩

/-- The gates of a plan let its binding through the checks on the work item. -/
private theorem commitWork_of {now : UInt64} (h : planGates now impl work = .ok ()) :
    commitWork now impl work.request.id work.request.generation (planBinding now impl work record) work = .ok () := by
  unfold planGates at h
  unfold commitWork
  simp only [check_bind_eq_ok, refuseIf_eq_ok] at h ⊢
  obtain ⟨-, hcancelled, hsuperseded, -, hslot, hdeadline, -, hexclusive, hparallel⟩ := h
  have hmode : (planBinding now impl work record).exclusive = decide (work.request.mode = .exclusive) := rfl
  refine ⟨?_, hcancelled, hsuperseded, hslot, hdeadline, ?_, ?_⟩
  · rintro (hne | hne) <;> exact hne rfl
  · rintro ⟨hbound, hsome⟩
    rw [hmode, decide_eq_true_eq] at hbound
    exact hexclusive ⟨hbound, hsome⟩
  · rintro ⟨hbound, hfull⟩
    rw [hmode, decide_eq_true_eq] at hbound
    have hparallelMode : work.request.mode = .parallel := by
      cases hstored : work.request.mode with
      | exclusive => exact absurd hstored hbound
      | parallel => rfl
    exact hparallel ⟨hparallelMode, hfull⟩

/-- A plan that is committed where it was made is refused only for the age of the evidence of its winner. -/
theorem commitCheck_plan (h : Consistent impl) (hwork : impl.work[id]? = some work)
    (hplan : (planLocked ctx impl work).binding = some binding) :
    commitCheck ctx impl id work.request.generation binding = .ok work ↔
      ∃ record, impl.agents[binding.agent]? = some record ∧ capabilityFresh ctx.now impl record := by
  obtain ⟨record, hrecord, hbinding, heligible⟩ := planLocked_winner h hplan
  have hgates := (planLocked_binding hplan).1
  have hkey : work.request.id = id := h.workKey id work hwork
  have hagent : commitAgent ctx.now impl id work.request.requirements binding record = .ok () ↔
      capabilityFresh ctx.now impl record := by
    rw [← hkey, hbinding]
    exact commitAgent_of heligible
  constructor
  · intro hcheck
    obtain ⟨-, -, -, ⟨agent, hfound, hchecked⟩, -⟩ := commitCheck_ok.mp hcheck
    obtain rfl : record = agent := Option.some.inj (hrecord.symm.trans hfound)
    exact ⟨record, hrecord, hagent.mp hchecked⟩
  · rintro ⟨fresh, hfresh, hcurrent⟩
    obtain rfl : record = fresh := Option.some.inj (hrecord.symm.trans hfresh)
    have hscheduler : commitScheduler impl binding = .ok () := by
      rw [hbinding]
      unfold planGates at hgates
      simp only [check_bind_eq_ok, refuseIf_eq_ok] at hgates
      unfold commitScheduler
      simp only [check_bind_eq_ok, refuseIf_eq_ok]
      refine ⟨hgates.1, ?_, fun hne => hne rfl, ?_⟩ <;> rintro (hne | hne) <;> exact hne rfl
    have hitem : commitWork ctx.now impl id work.request.generation binding work = .ok () := by
      rw [← hkey, hbinding]
      exact commitWork_of hgates
    have hfeasible : commitFeasibility work.request.requirements (evaluateFeasibility ctx work) = .ok () := by
      unfold eligibility at heligible
      simp only [check_bind_eq_ok] at heligible
      exact commitFeasibility_of heligible.2.2.2.2.2
    exact commitCheck_ok.mpr ⟨hscheduler, hwork, hitem, ⟨record, hrecord, hagent.mpr hcurrent⟩, hfeasible⟩

end Plans

/-! ### Plans committed where they were made -/

section Steps
variable {system : System} {request : ScheduleRequest} {first : Bool} {state : BatchState} {id : WorkId}

theorem batchItem_healthy {ctx : Context} (h : Healthy ctx.now state.impl) :
    Healthy ctx.now (batchItem ctx request first state id).impl := by
  have hgate : ∀ ledger entry binding, Planned ledger entry binding →
      (Gate.committing ctx.now fun _ _ => True).commits ledger binding := fun _ _ _ _ => trivial
  obtain ⟨hconsistent, hmoves⟩ := batchItem_refines hgate state id h.consistent
  exact h.moves hconsistent hmoves

/-- A batch comes to its items in healthy states. -/
theorem System.Visits.healthy (hvisits : system.Visits request first state id) (h : Healthy system.now system.impl) :
    Healthy system.now state.impl :=
  hvisits.visits.keeps (motive := fun state => Healthy system.context.now state.impl)
    (fun _ _ _ hstate => batchItem_healthy hstate) (fun _ _ hstate => hstate) h

/-- The agent is stored with fresh evidence of its capabilities. -/
def Impl.FreshAgent (now : UInt64) (impl : Impl) (agent : AgentId) : Prop :=
  ∃ record, impl.agents[agent]? = some record ∧ capabilityFresh now impl record

theorem commitLocked_plan {ctx : Context} {impl : Impl} {work : WorkRecord} {binding : AssignmentBinding}
    (h : Consistent impl) (hwork : impl.work[id]? = some work) (hplan : (planLocked ctx impl work).binding = some binding) :
    (∃ after, commitLocked ctx impl id work.request.generation binding = .ok after) ↔ impl.FreshAgent ctx.now binding.agent := by
  unfold Impl.FreshAgent
  rw [← commitCheck_plan h hwork hplan]
  constructor
  · rintro ⟨after, hcommit⟩
    obtain ⟨found, hcheck, -⟩ := commitLocked_ok hcommit
    obtain rfl : found = work := Option.some.inj ((commitCheck_ok.mp hcheck).2.1.symm.trans hwork)
    exact hcheck
  · intro hcheck
    unfold commitLocked
    rw [hcheck]
    exact ⟨_, rfl⟩

/-- The plan that the first section of a `schedule` call leaves in flight was made for the stored work. -/
theorem scheduleBegin_plan {ctx : Context} {impl : Impl} {generation : WorkGeneration} {binding : AssignmentBinding}
    (h : (scheduleBegin ctx impl id generation).binding = some binding) :
    ∃ work, impl.work[id]? = some work ∧ work.request.generation = generation ∧
      scheduleBegin ctx impl id generation = planLocked ctx impl work := by
  unfold scheduleBegin at h ⊢
  cases hwork : impl.work[id]? with
  | none =>
    rw [hwork] at h
    cases h
  | some work =>
    simp only [hwork] at h ⊢
    split at h
    · cases h
    · next hgeneration =>
      rw [not_not] at hgeneration
      exact ⟨work, rfl, hgeneration, if_neg (not_not.mpr hgeneration)⟩

/-- What a `schedule` call that nothing interrupts answers. -/
theorem scheduleCommit_plan {ctx : Context} {impl : Impl} {work : WorkRecord} {binding : AssignmentBinding}
    (h : Consistent impl) (hwork : impl.work[id]? = some work) (hplan : (planLocked ctx impl work).binding = some binding) :
    ((scheduleCommit ctx impl id work.request.generation (planLocked ctx impl work).decision binding).1.outcome = .assigned ↔
      impl.FreshAgent ctx.now binding.agent) ∧
    (¬impl.FreshAgent ctx.now binding.agent →
      (scheduleCommit ctx impl id work.request.generation (planLocked ctx impl work).decision binding).2 = impl) := by
  rw [← commitLocked_plan h hwork hplan]
  unfold scheduleCommit
  cases hcommit : commitLocked ctx impl id work.request.generation binding with
  | error rejection =>
    have hrefused : rejection.1 ≠ .assigned := by
      unfold commitLocked at hcommit
      split at hcommit
      · next refusal hcheck =>
        rw [← Except.error.inj hcommit]
        exact commitCheck_neverAssigns ctx impl id work.request.generation binding refusal hcheck
      · cases hcommit
    refine ⟨⟨fun houtcome => absurd houtcome hrefused, ?_⟩, fun _ => rfl⟩
    rintro ⟨after, hafter⟩
    cases hafter
  | ok after =>
    have hassigned := planLocked_assigned hplan
    refine ⟨⟨fun _ => ⟨after, rfl⟩, fun _ => ?_⟩, fun hnot => absurd ⟨after, rfl⟩ hnot⟩
    simp only
    split <;> exact hassigned

/-- A plan is committed where it was made, by itself, by `schedule` or by a batch, exactly when the winner has fresh
evidence of its capabilities, which only work that requires a capability makes sure of. A `schedule` that is refused
changes nothing, so that it is refused again. -/
theorem plan_commits_iff (h : system.Reachable) :
    (∀ (id : WorkId) work binding, system.impl.work[id]? = some work →
      (planLocked system.context system.impl work).binding = some binding →
      ((∃ after, commitLocked system.context system.impl id work.request.generation binding = .ok after) ↔
        system.impl.FreshAgent system.now binding.agent) ∧
      ((∃ requirement ∈ work.request.requirements.capabilities, requirement.mode = .required) →
        system.impl.FreshAgent system.now binding.agent)) ∧
    (∀ id generation planned plan decision after,
      system.step (.begin (.schedule id generation)) = some (.pending, planned) →
      planned.calls[system.calls.length]? = some (.schedule plan) →
      planned.step (.finish system.calls.length) = some (.decision decision, after) →
      (decision.outcome = .assigned ↔ system.impl.FreshAgent system.now plan.binding.agent) ∧
      (¬system.impl.FreshAgent system.now plan.binding.agent → after.impl = system.impl)) ∧
    ∀ request first state id work binding, system.Visits request first state id → state.impl.work[id]? = some work →
      (planLocked system.context state.impl work).binding = some binding →
      ((∃ after, commitLocked system.context state.impl work.request.id work.request.generation binding = .ok after) ↔
        state.impl.FreshAgent system.now binding.agent) := by
  have hconsistent : Consistent system.impl := h.valid.healthy.consistent
  refine ⟨fun id work binding hwork hplan => ⟨commitLocked_plan hconsistent hwork hplan, ?_⟩, ?_, ?_⟩
  · rintro ⟨requirement, hmem, hmode⟩
    obtain ⟨record, hrecord, -, heligible⟩ := planLocked_winner hconsistent hplan
    exact ⟨record, hrecord, eligibility_fresh heligible hmem hmode⟩
  · intro id generation planned plan decision after hbegin hcall hfinish
    simp only [System.step, beginCall] at hbegin
    cases hplan : (scheduleBegin system.context system.impl id generation).binding with
    | none =>
      rw [hplan] at hbegin
      obtain ⟨hreply, -⟩ := Prod.mk.inj (Option.some.inj hbegin)
      cases hreply
    | some binding =>
      simp only [hplan] at hbegin
      obtain ⟨work, hwork, hgeneration, hmade⟩ := scheduleBegin_plan hplan
      rw [hmade] at hplan hbegin
      obtain ⟨-, rfl⟩ := Prod.mk.inj (Option.some.inj hbegin)
      simp only [List.getElem?_concat_length, Option.some.injEq] at hcall
      obtain rfl := Call.schedule.inj hcall
      simp only [System.step, List.getElem?_concat_length, finishCall, Option.some.injEq, Prod.mk.injEq] at hfinish
      obtain ⟨hdecision, rfl⟩ := hfinish
      obtain rfl := Reply.decision.inj hdecision
      rw [← hgeneration]
      exact scheduleCommit_plan hconsistent hwork hplan
  · intro request first state id work binding hvisits hwork hplan
    have hstate : Consistent state.impl := (hvisits.healthy h.valid.healthy).consistent
    have hkey : work.request.id = id := hstate.workKey id work hwork
    rw [hkey]
    exact commitLocked_plan hstate hwork hplan

end Steps

set_option maxRecDepth 100000 in
theorem plan_commits_iff_sample : ∃ system work binding,
    Sample.run (fun _ _ => True) (Sample.enlist ++ Sample.submit Sample.exclusiveWork) = some system ∧
      system.impl.work[(5 : WorkId)]? = some work ∧ (planLocked system.context system.impl work).binding = some binding ∧
      ∃ after, commitLocked system.context system.impl 5 work.request.generation binding = .ok after := by
  have hview : (Sample.run (fun _ _ => True) (Sample.enlist ++ Sample.submit Sample.exclusiveWork)).map (fun system =>
      (system.impl.work[(5 : WorkId)]?).map fun work =>
        ((planLocked system.context system.impl work).binding.map AssignmentBinding.agent,
          (system.impl.agents[(1 : AgentId)]?).map (capabilityFresh system.now system.impl))) =
      some (some (some 1, some true)) := by
    decide +kernel
  obtain ⟨system, hrun, hview⟩ := Option.map_eq_some_iff.mp hview
  obtain ⟨work, hwork, hview⟩ := Option.map_eq_some_iff.mp hview
  obtain ⟨hbound, hcurrent⟩ := Prod.mk.inj hview
  obtain ⟨binding, hplan, hagent⟩ := Option.map_eq_some_iff.mp hbound
  obtain ⟨record, hrecord, hfresh⟩ := Option.map_eq_some_iff.mp hcurrent
  refine ⟨system, work, binding, hrun, hwork, hplan, ?_⟩
  apply (((plan_commits_iff (Sample.run_reaches hrun)).1 5 work binding hwork hplan).1).mpr
  rw [hagent]
  exact ⟨record, hrecord, hfresh⟩

/-! ### An agent whose evidence of its capabilities grew old, and one without any -/

def Sample.peerBoot : AgentBootId := ⟨⟨0, 2⟩⟩

def Sample.skilled : CapabilityProfile :=
  { profile with capabilities := [{ name := "compile", generation := 1, boot := boot }] }

/-- The agents report again after a while; their profiles are those of their registration. -/
def Sample.aged : Option System :=
  run (fun _ _ => True)
    ([.begin (.registerAgent descriptor), .finish 0, .run (.publishCapabilities 1 boot skilled),
      .begin (.registerAgent { descriptor with id := 2, boot := peerBoot }), .finish 0,
      .run (.publishCapabilities 2 peerBoot { profile with boot := peerBoot }), .tick 100000,
      .run (.publishHealth 1 boot health), .run (.publishAvailability 1 boot availability),
      .run (.publishHealth 2 peerBoot health), .run (.publishAvailability 2 peerBoot availability)] ++
      submit exclusiveWork)

set_option maxRecDepth 100000 in
/-- The plan prefers the agent the commit refuses, although the other one would be committed. -/
theorem not_plan_commits : ¬∀ (system : System) (id : WorkId) work binding, system.Reachable →
    system.impl.work[id]? = some work → (planLocked system.context system.impl work).binding = some binding →
    ∃ after, commitLocked system.context system.impl id work.request.generation binding = .ok after := by
  intro hcommits
  have hview : Sample.aged.map (fun system => (system.impl.work[(5 : WorkId)]?).map fun work =>
      ((planLocked system.context system.impl work).binding.map AssignmentBinding.agent,
        (system.impl.agents[(1 : AgentId)]?).map (capabilityFresh system.now system.impl))) =
      some (some (some 1, some false)) := by
    decide +kernel
  obtain ⟨system, hrun, hview⟩ := Option.map_eq_some_iff.mp hview
  obtain ⟨work, hwork, hview⟩ := Option.map_eq_some_iff.mp hview
  obtain ⟨hbound, hstale⟩ := Prod.mk.inj hview
  obtain ⟨binding, hplan, hagent⟩ := Option.map_eq_some_iff.mp hbound
  have hreach : system.Reachable := Sample.run_reaches hrun
  have hcommit := hcommits system 5 work binding hreach hwork hplan
  rw [commitLocked_plan hreach.valid.healthy.consistent hwork hplan] at hcommit
  obtain ⟨record, hrecord, hfresh⟩ := hcommit
  rw [hagent] at hrecord
  rw [hrecord] at hstale
  have hstale : capabilityFresh system.now system.impl record = false := Option.some.inj hstale
  have hfresh : capabilityFresh system.now system.impl record = true := hfresh
  rw [hstale] at hfresh
  cases hfresh

section Steps
variable {system : System} {request : ScheduleRequest} {first : Bool} {state : BatchState} {id : WorkId}

/-! ### Where assignments come from -/

theorem assignments_commitApply {ctx : Context} {impl : Impl} {generation : WorkGeneration} {binding : AssignmentBinding}
    {work : WorkRecord} {stored : AssignmentId} {record : AssignmentRecord} (h : Consistent impl)
    (hcheck : commitCheck ctx impl binding.work generation binding = .ok work)
    (hrecord : (commitApply impl binding.work work binding).assignments[stored]? = some record) :
    impl.assignments[stored]? = some record ∨
      (impl.assignments[stored]? = none ∧ binding.id = stored ∧ record = binding.record) := by
  have hledger := congrArg (fun ledger => ledger.assignments stored) (commitApply_spec h hcheck).2
  have hledger : (commitApply impl binding.work work binding).assignments[stored]? =
      if stored = binding.id then some ((impl.assignments[stored]?).getD binding.record) else impl.assignments[stored]? :=
    hledger
  rw [hledger] at hrecord
  split at hrecord
  · next heq =>
    cases hbefore : impl.assignments[stored]? with
    | none =>
      rw [hbefore] at hrecord
      exact .inr ⟨rfl, heq.symm, (Option.some.inj hrecord).symm⟩
    | some before =>
      rw [hbefore] at hrecord
      exact .inl hrecord
  · exact .inl hrecord

/-- The commit check of a plan finds the work the plan was made for. -/
theorem commitCheck_planned {ctx : Context} {impl : Impl} {work found : WorkRecord} {binding : AssignmentBinding}
    (h : Consistent impl) (hwork : impl.work[id]? = some work) (hplan : (planLocked ctx impl work).binding = some binding)
    (hcheck : commitCheck ctx impl work.request.id work.request.generation binding = .ok found) :
    found = work ∧ binding.work = work.request.id := by
  have hkey : work.request.id = id := h.workKey id work hwork
  have hfound := (commitCheck_ok.mp hcheck).2.1
  rw [hkey, hwork] at hfound
  exact ⟨(Option.some.inj hfound).symm, (planned_of_plan h hwork hplan).1.trans hkey.symm⟩

/-- An item of a batch is left alone, passed over, or committed as it was planned. -/
theorem batchItem_cases (ctx : Context) (request : ScheduleRequest) (first : Bool) (state : BatchState) (id : WorkId) :
    (batchItem ctx request first state id).impl = state.impl ∨
      (batchItem ctx request first state id).impl = state.impl.modifyWork id passOver ∨
      ∃ work found binding, state.impl.work[id]? = some work ∧ (planLocked ctx state.impl work).binding = some binding ∧
        request.dryRun = false ∧ commitCheck ctx state.impl work.request.id work.request.generation binding = .ok found ∧
        (batchItem ctx request first state id).impl = (commitApply state.impl work.request.id found binding).modifyWork id
          fun record => { record with bypassCount := 0, starvationRounds := 0 } := by
  unfold batchItem
  cases hwork : state.impl.work[id]? with
  | none => exact .inl rfl
  | some work =>
    simp only
    split
    · split
      · exact .inr (.inl rfl)
      · exact .inl rfl
    · cases hplan : (planLocked ctx state.impl work).binding with
      | none =>
        simp only
        split
        · split
          · exact .inl rfl
          · exact .inr (.inl rfl)
        · exact .inl rfl
      | some binding =>
        simp only
        split
        · split <;> exact .inl rfl
        · next hdry =>
          split
          · exact .inl rfl
          · next committed hcommit =>
            obtain ⟨found, hcheck, rfl⟩ := commitLocked_ok hcommit
            exact .inr (.inr ⟨work, found, binding, rfl, hplan, by simpa using hdry, hcheck, rfl⟩)

/-- An item of a batch leaves the stored assignments alone, or commits the plan made for it. -/
theorem assignments_batchItem {ctx : Context} {stored : AssignmentId} {record : AssignmentRecord} (h : Consistent state.impl)
    (hrecord : (batchItem ctx request first state id).impl.assignments[stored]? = some record) :
    state.impl.assignments[stored]? = some record ∨
      ∃ work binding, state.impl.work[id]? = some work ∧ (planLocked ctx state.impl work).binding = some binding ∧
        request.dryRun = false ∧ commitCheck ctx state.impl work.request.id work.request.generation binding = .ok work ∧
        state.impl.assignments[stored]? = none ∧ binding.id = stored ∧ record = binding.record := by
  rcases batchItem_cases ctx request first state id with
    hsame | hpassed | ⟨work, found, binding, hwork, hplan, hdry, hcheck, hform⟩
  · rw [hsame] at hrecord
    exact .inl hrecord
  · rw [hpassed] at hrecord
    exact .inl hrecord
  · obtain ⟨rfl, hbound⟩ := commitCheck_planned h hwork hplan hcheck
    rw [hform] at hrecord
    have hrecord : (commitApply state.impl found.request.id found binding).assignments[stored]? = some record := hrecord
    rw [← hbound] at hcheck hrecord
    rcases assignments_commitApply h hcheck hrecord with hold | ⟨hnone, hid, hnew⟩
    · exact .inl hold
    · rw [hbound] at hcheck
      exact .inr ⟨found, binding, hwork, hplan, hdry, hcheck, hnone, hid, hnew⟩

end Steps

section Steps
variable {system after : System} {label : Label} {reply : Reply} {request : ScheduleRequest} {id : AssignmentId}
  {record : AssignmentRecord}

/-- Without a commit, whatever is stored was stored under the same binding, and was active if it is. -/
theorem Deeds.keepsSlots {ctx : Context} {allows : Event → Prop} {stale stale' : Set AgentId} {impl impl' : Impl}
    (hdeeds : Deeds ctx allows (stale, impl) (stale', impl')) (hconsistent : Consistent impl)
    (hcommits : ∀ binding, ¬allows (.commits binding)) (hrecord : impl'.assignments[id]? = some record) :
    ∃ before, impl.assignments[id]? = some before ∧ SameBinding before record ∧
      (record.state.isActive → before.state.isActive) := by
  refine hdeeds.keeps (motive := fun scene => ∀ record, scene.2.assignments[id]? = some record →
    ∃ before, impl.assignments[id]? = some before ∧ SameBinding before record ∧
      (record.state.isActive → before.state.isActive)) (fun event scene scene' hallows hdeed hscene hkept record' hrecord' => ?_)
    hconsistent (fun record hrecord => ⟨record, hrecord, SameBinding.refl record, fun hactive => hactive⟩) record hrecord
  cases hdeed.slotEffect hscene hrecord' with
  | kept middle hmiddle hbinding hsame =>
    obtain ⟨before, hbefore, hbound, hactive⟩ := hkept middle hmiddle
    exact ⟨before, hbefore, hbound.trans hbinding, fun hstill => hactive (hsame ▸ hstill)⟩
  | closed middle _ hmiddle hbinding hinactive =>
    obtain ⟨before, hbefore, hbound, -⟩ := hkept middle hmiddle
    refine ⟨before, hbefore, hbound.trans hbinding, fun hstill => ?_⟩
    rw [hinactive] at hstill
    cases hstill
  | committed binding hevent _ _ _ _ => exact (hcommits binding (hevent ▸ hallows)).elim

/-- What a step leaves stored under an id. -/
inductive System.Stores (system : System) (label : Label) (id : AssignmentId) (record : AssignmentRecord) : Prop
  | loaded (position : Nat) (hload : label = .load position)
  | kept (before : AssignmentRecord) (hbefore : system.impl.assignments[id]? = some before)
      (hbinding : SameBinding before record) (hactive : record.state.isActive → before.state.isActive)
  | committed (impl : Impl) (work : WorkRecord) (binding : AssignmentBinding) (hcommits : system.Commits label impl work binding)
      (hid : binding.id = id) (hrecord : record = binding.record)

private theorem scheduleBatch_stores (hvalid : system.Valid)
    (hrecord : (scheduleBatch system.context system.impl request).2.assignments[id]? = some record) :
    system.Stores (.run (.scheduleBatch request)) id record := by
  have hkept : system.impl.assignments[id]? = some record → system.Stores (.run (.scheduleBatch request)) id record :=
    fun hold => .kept record hold (SameBinding.refl record) fun hactive => hactive
  unfold scheduleBatch at hrecord
  split at hrecord
  · exact hkept hrecord
  · next hopen =>
    rw [not_or, not_not, not_not] at hopen
    simp only at hrecord
    split at hrecord
    · exact hkept hrecord
    · refine batchPasses_visits (motive := fun state => ∀ record, state.impl.assignments[id]? = some record →
        system.Stores (.run (.scheduleBatch request)) id record) (batchPassLimit system.impl request)
        (fun first state item hitem hstored record hrecord => ?_) (fun _ _ hstored => hstored)
        (fun record hold => .kept record hold (SameBinding.refl record) fun hactive => hactive) record hrecord
      have hvisits : system.Visits request first state item := ⟨hopen.1, hopen.2, hitem⟩
      have hconsistent : Consistent state.impl := (hvisits.healthy hvalid.healthy).consistent
      rcases assignments_batchItem hconsistent hrecord with hold | ⟨work, binding, hwork, hplan, hdry, hcheck, -, hid, hnew⟩
      · exact hstored record hold
      · exact .committed state.impl work binding (.batch hvisits hwork hplan hdry hcheck) hid hnew

private theorem scheduleCommit_stores {position : Nat} {plan : Plan} (hvalid : system.Valid)
    (hcall : system.calls[position]? = some (.schedule plan))
    (hrecord : (scheduleCommit system.context system.impl plan.work plan.generation plan.decision plan.binding).2.assignments[id]? =
      some record) : system.Stores (.finish position) id record := by
  have hkept : system.impl.assignments[id]? = some record → system.Stores (.finish position) id record :=
    fun hold => .kept record hold (SameBinding.refl record) fun hactive => hactive
  have hwork : plan.binding.work = plan.work := hvalid.calls _ (List.mem_of_getElem? hcall)
  unfold scheduleCommit at hrecord
  cases hcommit : commitLocked system.context system.impl plan.work plan.generation plan.binding with
  | error rejection =>
    rw [hcommit] at hrecord
    exact hkept hrecord
  | ok committed =>
    obtain ⟨work, hcheck, rfl⟩ := commitLocked_ok hcommit
    have hrecord : (commitApply system.impl plan.work work plan.binding).assignments[id]? = some record := by
      rw [hcommit] at hrecord
      simp only at hrecord
      split at hrecord <;> exact hrecord
    rw [← hwork] at hrecord
    have hbound := hcheck
    rw [← hwork] at hbound
    rcases assignments_commitApply hvalid.healthy.consistent hbound hrecord with hold | ⟨-, hid, hnew⟩
    · exact hkept hold
    · exact .committed system.impl work plan.binding (.schedule hcall hcheck) hid hnew

/-- Apart from a load, a step keeps what is stored, closes it, or stores what it commits. -/
theorem System.step_stores (hvalid : system.Valid) (hstep : system.step label = some (reply, after))
    (hrecord : after.impl.assignments[id]? = some record) : system.Stores label id record := by
  rcases System.step_deeds hvalid hstep with ⟨position, -, hload, -⟩ | ⟨options, generatedId, -, hconstruct⟩ | hdeeds
  · exact .loaded position hload
  · obtain ⟨-, -, hassignments⟩ := construct_spec hconstruct
    have hnone : after.impl.assignments[id]? = none := hassignments id
    rw [hnone] at hrecord
    cases hrecord
  · by_cases hcommits : ∃ binding, system.Causes label (.commits binding)
    · obtain ⟨binding, hcauses⟩ := hcommits
      cases label with
      | run operation =>
        cases operation with
        | scheduleBatch request =>
          obtain ⟨-, rfl⟩ := Option.some.inj hstep
          exact scheduleBatch_stores hvalid hrecord
        | _ => exact hcauses.elim
      | finish position =>
        obtain ⟨call, hcall, hcause⟩ := hcauses
        cases call with
        | schedule plan =>
          have hcall : system.calls[position]? = some (.schedule plan) := hcall
          simp only [System.step, hcall, finishCall] at hstep
          obtain ⟨-, rfl⟩ := Prod.mk.inj (Option.some.inj hstep)
          exact scheduleCommit_stores hvalid hcall hrecord
        | _ => exact hcause.elim
      | _ => exact hcauses.elim
    · have hnot : ∀ binding, ¬((Event.commits binding).IsBookkeeping ∨ system.Causes label (.commits binding)) := by
        rintro binding (hbook | hcauses)
        · exact hbook
        · exact hcommits ⟨binding, hcauses⟩
      obtain ⟨before, hbefore, hbinding, hactive⟩ := hdeeds.keepsSlots hvalid.healthy.consistent hnot hrecord
      exact .kept before hbefore hbinding hactive

end Steps

/-! ### What a commit does not look at -/

/-- The placement predicates of `evaluate_eligibility`, capacity and fan-out aside. -/
structure Situated (now : UInt64) (impl : Impl) (requirements : WorkRequirements) (record : AgentRecord) : Prop where
  domain : requirements.restrictPlacementDomain →
    requirements.placementDomain.isZero = false ∧ record.descriptor.placementDomain = requirements.placementDomain
  topology : requirements.restrictPlacementDomain → requirements.topologyEpoch.isZero = false →
    record.descriptor.topologyEpoch = requirements.topologyEpoch
  antiAffinity : record.descriptor.id ∉ requirements.antiAffinity
  affinity : requirements.affinity ≠ [] → record.descriptor.id ∈ requirements.affinity
  warm : requirements.requireWarmState → loadFresh now impl record ∧
    requirements.warmStateKeys.any record.loadObservation.warmStateKeys.contains

/-- The predicates of `evaluate_eligibility` that `commit_locked` does not test: scope with the evidence of health,
reachability and lease, placement, and the required capabilities. -/
structure StillFits (now : UInt64) (impl : Impl) (work : WorkRecord) (record : AgentRecord) : Prop where
  scope : checkScope now impl work.request.requirements record = .ok ()
  situated : Situated now impl work.request.requirements record
  capable : ∀ requirement ∈ work.request.requirements.capabilities, requirement.mode = .required →
    checkCapability now impl record requirement = .ok ()

section Steps
variable {system after : System} {label : Label} {reply : Reply}

theorem checkPlacement_ok {now : UInt64} {impl : Impl} {work : WorkRecord} {record : AgentRecord} :
    checkPlacement now impl work record = .ok () ↔
      record.activeAssignments < record.descriptor.maxConcurrency.toNat ∧
        work.currentAssignments < work.request.requirements.maxParallel.toNat ∧
        activeAssignmentsOnAgent impl work.request.id record.descriptor.id <
          work.request.requirements.maxAssignmentsPerAgent.toNat ∧
        Situated now impl work.request.requirements record := by
  unfold checkPlacement
  simp only [check_bind_eq_ok, refuseIf_eq_ok, Nat.not_le]
  constructor
  · rintro ⟨hroom, hparallel, hperAgent, hdomain, htopology, hanti, haffinity, hfresh, hwarm⟩
    refine ⟨hroom, hparallel, hperAgent, ⟨fun hrestrict => ?_, fun hrestrict hepoch => ?_, hanti, fun hlisted => ?_,
      fun hrequire => ⟨?_, ?_⟩⟩⟩
    · by_contra hnot
      refine hdomain ⟨hrestrict, ?_⟩
      by_cases hzero : work.request.requirements.placementDomain.isZero
      · exact .inl hzero
      · exact .inr fun hsame => hnot ⟨by simpa using hzero, hsame⟩
    · by_contra hne
      exact htopology ⟨hrestrict, by simpa using hepoch, hne⟩
    · by_contra hnot
      exact haffinity ⟨hlisted, hnot⟩
    · by_contra hnot
      exact hfresh ⟨hrequire, hnot⟩
    · by_contra hnot
      exact hwarm ⟨hrequire, hnot⟩
  · rintro ⟨hroom, hparallel, hperAgent, hplaced⟩
    refine ⟨hroom, hparallel, hperAgent, ?_, ?_, hplaced.antiAffinity, ?_, ?_, ?_⟩
    · rintro ⟨hrestrict, hzero | hne⟩
      · rw [(hplaced.domain hrestrict).1] at hzero
        cases hzero
      · exact hne (hplaced.domain hrestrict).2
    · rintro ⟨hrestrict, hepoch, hne⟩
      exact hne (hplaced.topology hrestrict (by simpa using hepoch))
    · rintro ⟨hlisted, hnot⟩
      exact hnot (hplaced.affinity hlisted)
    · rintro ⟨hrequire, hnot⟩
      exact hnot (hplaced.warm hrequire).1
    · rintro ⟨hrequire, hnot⟩
      exact hnot (hplaced.warm hrequire).2

/-- The verdict that lets a commit through would have made its agent eligible. -/
private theorem checkFeasibility_of {requirements : WorkRequirements} {feasibility : ExternalFeasibilityResult}
    (h : commitFeasibility requirements feasibility = .ok ()) : checkFeasibility requirements feasibility = .ok () := by
  unfold commitFeasibility at h
  unfold checkFeasibility
  simp only [check_bind_eq_ok, refuseIf_eq_ok] at h ⊢
  exact h

/-- A work item that a commit takes has a free slot. -/
private theorem commitCheck_slot {ctx : Context} {impl : Impl} {work : WorkRecord} {binding : AssignmentBinding}
    {generation : WorkGeneration} (h : Healthy ctx.now impl)
    (hcheck : commitCheck ctx impl binding.work generation binding = .ok work) :
    work.currentAssignments < work.request.requirements.maxParallel.toNat := by
  obtain ⟨hwork, hcommits⟩ := commits_of_check h.consistent hcheck
  have hcount := h.consistent.current binding.work work (Set.notMem_empty _) hwork
  have hshape : work.request.WellShaped := h.bounded.shape binding.work work.entry hcommits.work
  have hpositive : 0 < work.request.requirements.maxParallel.toNat :=
    Nat.lt_of_lt_of_le (UInt32.lt_iff_toNat_lt.mp hshape.perAgent) (UInt32.le_iff_toNat_le.mp hshape.fanOut)
  rcases hcommits.room with hempty | ⟨-, hroom⟩
  · rw [hempty, Set.encard_empty] at hcount
    have hidle : work.currentAssignments = 0 := by exact_mod_cast hcount.symm
    omega
  · rw [hcount] at hroom
    exact_mod_cast hroom

/-- At a commit the agent is eligible exactly when it still meets what the commit does not look at. -/
theorem commitCheck_eligible {ctx : Context} {impl : Impl} {work : WorkRecord} {binding : AssignmentBinding}
    {generation : WorkGeneration} (h : Healthy ctx.now impl)
    (hcheck : commitCheck ctx impl binding.work generation binding = .ok work) :
    ∃ record, impl.agents[binding.agent]? = some record ∧
      (eligibility ctx.now impl work record (evaluateFeasibility ctx work) = .ok () ↔ StillFits ctx.now impl work record) := by
  have hslot := commitCheck_slot h hcheck
  obtain ⟨-, hwork, -, ⟨record, hrecord, hagent⟩, hfeasible⟩ := commitCheck_ok.mp hcheck
  have hkey : work.request.id = binding.work := h.consistent.workKey binding.work work hwork
  have hid : record.descriptor.id = binding.agent := h.consistent.agentKey binding.agent record hrecord
  unfold commitAgent at hagent
  simp only [check_bind_eq_ok, refuseIf_eq_ok, not_not, Nat.not_le] at hagent
  obtain ⟨-, hboot, hfenced, haccepts, -, hroom, hperAgent⟩ := hagent
  refine ⟨record, hrecord, ?_⟩
  unfold eligibility
  simp only [check_bind_eq_ok, refuseIf_eq_ok, forM_eq_ok, checkPlacement_ok]
  constructor
  · rintro ⟨-, -, hscope, ⟨-, -, -, hplaced⟩, hcapable, -⟩
    refine ⟨hscope, hplaced, fun requirement hmem hmode => hcapable requirement (List.mem_filter.mpr ⟨hmem, ?_⟩)⟩
    simpa using hmode
  · rintro ⟨hscope, hplaced, hcapable⟩
    have hlifecycle : checkLifecycle record.lifecycle = .ok () := by
      cases hstate : record.lifecycle <;> rw [hstate] at haccepts <;> first | rfl | cases haccepts
    have hheld : activeAssignmentsOnAgent impl work.request.id record.descriptor.id <
        work.request.requirements.maxAssignmentsPerAgent.toNat := by
      rw [hkey, hid]
      exact hperAgent
    refine ⟨?_, hlifecycle, hscope, ⟨hroom, hslot, hheld, hplaced⟩, fun requirement hmem => ?_, checkFeasibility_of hfeasible⟩
    · rw [hboot]
      exact hfenced
    · obtain ⟨hmem, hmode⟩ := List.mem_filter.mp hmem
      exact hcapable requirement hmem (by simpa using hmode)

/-- A commit finds a healthy instance, and its binding passes the check there. -/
theorem System.Commits.checked {impl : Impl} {work : WorkRecord} {binding : AssignmentBinding}
    (hcommits : system.Commits label impl work binding) (hvalid : system.Valid) :
    Healthy system.context.now impl ∧ ∃ generation, commitCheck system.context impl binding.work generation binding = .ok work := by
  cases hcommits with
  | @schedule position plan _ hcall hcheck =>
    have hwork : plan.binding.work = plan.work := hvalid.calls _ (List.mem_of_getElem? hcall)
    refine ⟨hvalid.healthy, plan.generation, ?_⟩
    rw [hwork]
    exact hcheck
  | @batch request first state id _ _ hvisits hwork hplan _ hcheck =>
    have hstate : Healthy system.context.now state.impl := hvisits.healthy hvalid.healthy
    have hbound : binding.work = id := (planned_of_plan hstate.consistent hwork hplan).1
    have hkey : work.request.id = id := hstate.consistent.workKey id work hwork
    rw [hkey, ← hbound] at hcheck
    exact ⟨hstate, work.request.generation, hcheck⟩

/-- A batch commits what it planned in the same state. -/
theorem System.Commits.planned {impl : Impl} {work : WorkRecord} {binding : AssignmentBinding} {request : ScheduleRequest}
    (hcommits : system.Commits label impl work binding) (hlabel : label = .run (.scheduleBatch request)) :
    (planLocked system.context impl work).binding = some binding := by
  cases hcommits with
  | schedule => cases hlabel
  | batch _ _ hplan _ _ => exact hplan

/-- Every assignment that a step newly stores, a load aside, comes from a commit. There the agent is eligible exactly when
it meets the predicates that the commit does not repeat, and it is when the plan was made in this very state, as it always
is in a batch. -/
theorem commits_eligible_iff (h : system.Reachable) :
    (∀ label reply after id record, system.step label = some (reply, after) →
      after.impl.assignments[id]? = some record → system.Stores label id record) ∧
    (∀ label impl work binding, system.Commits label impl work binding →
      ∃ record, impl.agents[binding.agent]? = some record ∧
        (eligibility system.now impl work record (evaluateFeasibility system.context work) = .ok () ↔
          StillFits system.now impl work record)) ∧
    ∀ label impl work binding, system.Commits label impl work binding →
      ((∃ request, label = .run (.scheduleBatch request)) ∨ (planLocked system.context impl work).binding = some binding) →
      ∃ record, impl.agents[binding.agent]? = some record ∧
        eligibility system.now impl work record (evaluateFeasibility system.context work) = .ok () := by
  have hvalid := h.valid
  refine ⟨fun label reply after id record hstep hrecord => System.step_stores hvalid hstep hrecord, ?_, ?_⟩
  · intro label impl work binding hcommits
    obtain ⟨hstate, generation, hcheck⟩ := hcommits.checked hvalid
    have heligible := commitCheck_eligible hstate hcheck
    exact heligible
  · intro label impl work binding hcommits hplanned
    have hconsistent : Consistent impl := (hcommits.checked hvalid).1.consistent
    have hplan : (planLocked system.context impl work).binding = some binding := by
      rcases hplanned with ⟨request, rfl⟩ | hplan
      · exact hcommits.planned rfl
      · exact hplan
    obtain ⟨record, hrecord, -, heligible⟩ := planLocked_winner hconsistent hplan
    exact ⟨record, hrecord, heligible⟩

end Steps

/-! ### A plan that outlives the evidence it was made on -/

/-- The plan at the head of the calls in flight, with the instance it was made in. -/
def Sample.planning (labels : List Label) : Option (System × Plan) :=
  (run (fun _ _ => True) (enlist ++ submit exclusiveWork ++ [.begin (.schedule 5 1)] ++ labels)).bind fun (system : System) =>
    match (system.calls[0]? : Option Call) with
    | some (.schedule plan) => some (system, plan)
    | _ => none

theorem Sample.planning_calls {labels : List Label} {system : System} {plan : Plan}
    (h : planning labels = some (system, plan)) :
    system.Reachable ∧ system.calls[0]? = some (.schedule plan) := by
  obtain ⟨found, hrun, hcall⟩ := Option.bind_eq_some_iff.mp h
  split at hcall
  · next stored hstored =>
    obtain ⟨rfl, rfl⟩ := Prod.mk.inj (Option.some.inj hcall)
    exact ⟨run_reaches hrun, hstored⟩
  · cases hcall

/-- Whether the agent of a plan that the commit would store is eligible. -/
def Sample.verdict (system : System) (plan : Plan) : Option Bool := do
  let work ← (commitCheck system.context system.impl plan.work plan.generation plan.binding).toOption
  let record ← system.impl.agents[plan.binding.agent]?
  return (evaluateEligibility system.now system.impl work record (evaluateFeasibility system.context work)).eligible

theorem Sample.verdict_commits {system : System} {plan : Plan} {eligible : Bool} (h : verdict system plan = some eligible)
    (hcall : system.calls[0]? = some (.schedule plan)) :
    ∃ work record, system.Commits (.finish 0) system.impl work plan.binding ∧
      system.impl.agents[plan.binding.agent]? = some record ∧
      (evaluateEligibility system.context.now system.impl work record (evaluateFeasibility system.context work)).eligible =
        eligible := by
  obtain ⟨work, hwork, h⟩ := Option.bind_eq_some_iff.mp h
  obtain ⟨record, hrecord, h⟩ := Option.bind_eq_some_iff.mp h
  have hcheck : commitCheck system.context system.impl plan.work plan.generation plan.binding = .ok work := by
    cases hresult : commitCheck system.context system.impl plan.work plan.generation plan.binding with
    | error rejection =>
      rw [hresult] at hwork
      cases hwork
    | ok found =>
      rw [hresult] at hwork
      rw [Option.some.inj hwork]
  exact ⟨work, record, .schedule hcall hcheck, hrecord, Option.some.inj h⟩

set_option maxRecDepth 100000 in
theorem commits_eligible_iff_sample : ∃ system plan work record, Sample.planning [] = some (system, plan) ∧
    system.Commits (.finish 0) system.impl work plan.binding ∧ system.impl.agents[plan.binding.agent]? = some record ∧
      StillFits system.now system.impl work record := by
  have hview : (Sample.planning []).map (fun result => Sample.verdict result.1 result.2) = some (some true) := by
    decide +kernel
  obtain ⟨⟨system, plan⟩, hplanning, hverdict⟩ := Option.map_eq_some_iff.mp hview
  obtain ⟨hreach, hcall⟩ := Sample.planning_calls hplanning
  obtain ⟨work, record, hcommits, hrecord, heligible⟩ := Sample.verdict_commits hverdict hcall
  obtain ⟨agent, hagent, hfits⟩ :=
    (commits_eligible_iff hreach).2.1 (.finish 0) system.impl work plan.binding hcommits
  have hsame : agent = record := Option.some.inj (hagent.symm.trans hrecord)
  subst hsame
  have hpasses := eligible_iff.mp heligible
  have hfitting := hfits.mp hpasses
  exact ⟨system, plan, work, agent, hplanning, hcommits, hrecord, hfitting⟩

set_option maxRecDepth 100000 in
/-- The agent reports that it is unhealthy after the plan, and the commit does not look at its health. -/
theorem not_commits_eligible : ¬∀ (system : System) label impl work binding, system.Reachable →
    system.Commits label impl work binding → ∃ record, impl.agents[binding.agent]? = some record ∧
      eligibility system.now impl work record (evaluateFeasibility system.context work) = .ok () := by
  intro heligible
  have hview : (Sample.planning [.run (.publishHealth 1 Sample.boot { Sample.health with generation := 2, health := .unhealthy })]).map
      (fun result => Sample.verdict result.1 result.2) = some (some false) := by
    decide +kernel
  obtain ⟨⟨system, plan⟩, hplanning, hverdict⟩ := Option.map_eq_some_iff.mp hview
  obtain ⟨hreach, hcall⟩ := Sample.planning_calls hplanning
  obtain ⟨work, record, hcommits, hrecord, hverdict⟩ := Sample.verdict_commits hverdict hcall
  obtain ⟨agent, hagent, hpasses⟩ := heligible system (.finish 0) system.impl work plan.binding hreach hcommits
  have hsame : agent = record := Option.some.inj (hagent.symm.trans hrecord)
  subst hsame
  have hpasses : eligibility system.context.now system.impl work agent (evaluateFeasibility system.context work) = .ok () :=
    hpasses
  have hpositive := eligible_iff.mpr hpasses
  have hnegative := hverdict.symm.trans hpositive
  cases hnegative

end AgentScheduler
