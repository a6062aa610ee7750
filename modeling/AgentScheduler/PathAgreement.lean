import AgentScheduler.BatchReport

/-! The two ways to schedule one work item: a `schedule` call, and a batch restricted to that item. -/
namespace AgentScheduler
open Std KeyedTable

/-- `AgentScheduler::schedule` when nothing comes between its two locked sections. -/
def schedule (ctx : Context) (impl : Impl) (work : WorkId) (generation : WorkGeneration) : ScheduleDecision × Impl :=
  let plan := scheduleBegin ctx impl work generation
  match plan.binding with
  | none => (plan.decision, impl)
  | some binding => scheduleCommit ctx impl work generation plan.decision binding

/-- A batch of one work item and at most one assignment. -/
def singleRequest (work : WorkId) : ScheduleRequest := { work := [work], maxAssignments := 1 }

/-- The agent that a decision assigns the work to. -/
def ScheduleDecision.chosen (decision : ScheduleDecision) : Option AgentId :=
  if decision.outcome = .assigned then some decision.selectedAgent else none

/-- The batch chose the agent that `schedule` chose, stored the same assignments, and left the work, the agents and the
queues alike. -/
structure PathsAgree (single : ScheduleDecision × Impl) (batch : BatchDecision × Impl) (id : WorkId) : Prop where
  chosen : batch.1.decisions.findSome? ScheduleDecision.chosen = single.1.chosen
  assignments : batch.2.assignments = single.2.assignments
  work : batch.2.work[id]? = single.2.work[id]?
  agents : batch.2.agents = single.2.agents
  queues : batch.2.queues = single.2.queues

/-- A batch takes the work up: it may look at one candidate, and the work is admitted or holds an assignment. -/
def Impl.TakesUp (impl : Impl) (work : WorkRecord) : Prop :=
  impl.limits.maxCandidatesExamined ≠ 0 ∧ (work.lifecycle.acceptsAssignment ∨ 0 < work.currentAssignments)

/-- The work was not passed over since its last assignment by a batch. -/
def WorkRecord.NeverPassedOver (work : WorkRecord) : Prop := work.bypassCount = 0 ∧ work.starvationRounds = 0

section Paths
variable {ctx : Context} {impl : Impl} {id : WorkId} {work : WorkRecord} {binding : AssignmentBinding}

/-! ### What a commit leaves of the work -/

theorem work_refreshAgentAccounting (impl : Impl) (agent : AgentId) : (refreshAgentAccounting impl agent).work = impl.work := by
  have hfile := congrArg Impl.work (workFile_refreshAgentAccounting impl agent)
  exact hfile

/-- Taking a slot numbers the work. -/
theorem work_slotted (impl : Impl) (work : WorkRecord) (binding : AssignmentBinding) :
    (slotted impl work binding).work[id]? =
      if binding.work = id then some { work with lastAssignmentGeneration := binding.generation } else impl.work[id]? := by
  have hindex : ∀ impl : Impl, (indexStoredAssignment impl binding.id).work = impl.work := by
    intro impl
    unfold indexStoredAssignment
    split
    · rfl
    · unfold indexAssignment
      split <;> rfl
  rw [slotted, hindex]
  exact getElem?_insert _ _ _ _

/-- A commit numbers the work and counts its slots, and leaves its fairness history. -/
theorem work_commitApply (hwork : impl.work[binding.work]? = some work) :
    ∃ current lifecycle, (commitApply impl binding.work work binding).work[binding.work]? =
      some { work with
             lastAssignmentGeneration := binding.generation, currentAssignments := current, lifecycle := lifecycle } := by
  rw [commitApply_eq hwork]
  change ∃ current lifecycle, (refreshAgentAccounting (refreshWorkAccounting (slotted impl work binding) binding.work)
    binding.agent).work[binding.work]? = _
  rw [work_refreshAgentAccounting, refreshWorkAccounting, work_slotted, if_pos rfl]
  exact ⟨_, _, (getElem?_insert _ _ _ _).trans (if_pos rfl)⟩

/-! ### `schedule` -/

theorem schedule_plan (hwork : impl.work[id]? = some work) (hplan : (planLocked ctx impl work).binding = some binding) :
    schedule ctx impl id work.request.generation =
      scheduleCommit ctx impl id work.request.generation (planLocked ctx impl work).decision binding := by
  have hbegin : scheduleBegin ctx impl id work.request.generation = planLocked ctx impl work := by
    rw [scheduleBegin, hwork]
    exact if_neg (not_not.mpr rfl)
  rw [schedule, hbegin, hplan]

/-- A `schedule` call of the system whose two sections come one after the other. -/
theorem schedule_steps {system : System} (hwork : system.impl.work[id]? = some work)
    (hplan : (planLocked system.context system.impl work).binding = some binding) :
    ∃ planned after, system.step (.begin (.schedule id work.request.generation)) = some (.pending, planned) ∧
      planned.step (.finish system.calls.length) =
        some (.decision (schedule system.context system.impl id work.request.generation).1, after) ∧
      after.impl = (schedule system.context system.impl id work.request.generation).2 := by
  have hbegin : scheduleBegin system.context system.impl id work.request.generation =
      planLocked system.context system.impl work := by
    rw [scheduleBegin, hwork]
    exact if_neg (not_not.mpr rfl)
  rw [schedule_plan hwork hplan]
  have hfirst : system.step (.begin (.schedule id work.request.generation)) = some (.pending,
      { system with
        calls := system.calls ++ [.schedule
          { work := id
            generation := work.request.generation
            decision := (planLocked system.context system.impl work).decision
            binding := binding
            era := system.loads }] }) := by
    simp only [System.step, beginCall, hbegin, hplan]
  refine ⟨_, { system with impl := (scheduleCommit system.context system.impl id work.request.generation
    (planLocked system.context system.impl work).decision binding).2 }, hfirst, ?_, rfl⟩
  simp only [System.step, List.getElem?_concat_length, finishCall]
  rw [List.eraseIdx_append_of_length_le le_rfl, Nat.sub_self]
  simp only [List.eraseIdx_cons_zero, List.append_nil]
  rfl

/-! ### A batch of one work item -/

theorem planLocked_open (hplan : (planLocked ctx impl work).binding = some binding) :
    (impl.running ∧ impl.admissionOpen) ∧
      (work.lifecycle.acceptsAssignment ∨ work.currentAssignments = 0 ∨ fanoutOpen work) := by
  have hgates := (planLocked_binding hplan).1
  unfold planGates at hgates
  simp only [check_bind_eq_ok, refuseIf_eq_ok] at hgates
  obtain ⟨hopen, -, -, -, hslots, -⟩ := hgates
  refine ⟨by simpa [not_or] using hopen, ?_⟩
  by_contra hnone
  simp only [not_or] at hnone
  exact hslots ⟨hnone.1, Nat.pos_of_ne_zero hnone.2.1, hnone.2.2⟩

theorem candidates_single (hwork : impl.work[id]? = some work)
    (hplan : (planLocked ctx impl work).binding = some binding) :
    (work.lifecycle.acceptsAssignment ∨ 0 < work.currentAssignments →
      (batchCandidates impl (singleRequest id)).map Prod.fst = [id]) ∧
    (¬(work.lifecycle.acceptsAssignment ∨ 0 < work.currentAssignments) →
      batchCandidates impl (singleRequest id) = []) := by
  have hmem : ∀ entry, entry ∈ batchCandidates impl (singleRequest id) ↔ entry = (id, work) ∧
      (work.lifecycle.acceptsAssignment ∨ fanoutOpen work ∧ 0 < work.currentAssignments) := by
    rintro ⟨found, record⟩
    rw [batchCandidates, List.mem_filter, ExtTreeMap.mem_toList_iff_getElem?_eq_some]
    simp only [singleRequest, List.isEmpty_nil, Bool.and_true, List.isEmpty_cons, Bool.false_or,
      List.contains_cons, List.contains_nil, Bool.or_false, Bool.and_eq_true, Bool.or_eq_true, decide_eq_true_iff,
      beq_iff_eq, Prod.mk.injEq]
    constructor
    · rintro ⟨hfound, hopen, rfl⟩
      obtain rfl : record = work := Option.some.inj (hfound.symm.trans hwork)
      exact ⟨⟨rfl, rfl⟩, hopen⟩
    · rintro ⟨⟨rfl, rfl⟩, hopen⟩
      exact ⟨hwork, hopen, rfl⟩
  obtain ⟨-, hslots⟩ := planLocked_open hplan
  constructor
  · intro htaken
    have hopen : work.lifecycle.acceptsAssignment ∨ fanoutOpen work ∧ 0 < work.currentAssignments := by
      rcases hslots with haccepts | hzero | hfanout
      · exact Or.inl haccepts
      · exact htaken.imp_right fun hpos => absurd hzero (Nat.ne_of_gt hpos)
      · exact htaken.imp_right fun hpos => ⟨hfanout, hpos⟩
    have hnodup := nodup_candidates impl (singleRequest id)
    have hall : ∀ found ∈ (batchCandidates impl (singleRequest id)).map Prod.fst, found = id := by
      intro found hfound
      obtain ⟨entry, hentry, rfl⟩ := List.mem_map.mp hfound
      rw [((hmem entry).mp hentry).1]
    have hin : id ∈ (batchCandidates impl (singleRequest id)).map Prod.fst :=
      List.mem_map.mpr ⟨(id, work), (hmem _).mpr ⟨rfl, hopen⟩, rfl⟩
    exact List.perm_singleton.mp ((List.perm_ext_iff_of_nodup hnodup (List.nodup_singleton id)).mpr fun found =>
      ⟨fun hfound => List.mem_singleton.mpr (hall found hfound), fun hfound => List.mem_singleton.mp hfound ▸ hin⟩)
  · intro hnot
    rw [List.eq_nil_iff_forall_not_mem]
    intro entry hentry
    exact hnot (((hmem entry).mp hentry).2.imp_right And.right)

/-- The batch plans and commits the item once. -/
theorem batchPasses_single (hwork : impl.work[id]? = some work) (passes : Nat)
    (hdone : (batchItem ctx (singleRequest id) true { impl } id).progress = true →
      1 ≤ (batchItem ctx (singleRequest id) true { impl } id).assigned) :
    batchPasses ctx (singleRequest id) [id] (passes + 1) true { impl } =
      batchItem ctx (singleRequest id) true { impl } id := by
  have horder : batchOrder impl true [id] = [id] := by
    apply List.perm_singleton.mp
    apply batchOrder_perm
    intro found hfound
    rw [List.mem_singleton.mp hfound, hwork]
    nofun
  rw [batchPasses, if_neg (by simp [singleRequest]), horder]
  change (if (batchItem ctx (singleRequest id) true { impl } id).progress then
    batchPasses ctx (singleRequest id) [id] passes false (batchItem ctx (singleRequest id) true { impl } id)
    else batchItem ctx (singleRequest id) true { impl } id) = _
  split
  · next hprogress =>
    cases passes with
    | zero => rfl
    | succ passes => exact if_pos (hdone hprogress)
  · rfl

/-- The item is committed, and its fairness history starts again, or the refusal is logged. -/
theorem batchItem_single (hwork : impl.work[id]? = some work) (hkey : work.request.id = id)
    (hplan : (planLocked ctx impl work).binding = some binding) :
    (∀ after, commitLocked ctx impl id work.request.generation binding = .ok after →
      batchItem ctx (singleRequest id) true { impl } id =
        { impl := after.modifyWork id fun record => { record with bypassCount := 0, starvationRounds := 0 }
          batch := { decisions := [(planLocked ctx impl work).decision], examined := 1, assigned := 1 }
          assigned := 1
          progress := true }) ∧
    ∀ outcome detail, commitLocked ctx impl id work.request.generation binding = .error (outcome, detail) →
      batchItem ctx (singleRequest id) true { impl } id =
        { impl
          batch := { decisions := [{ (planLocked ctx impl work).decision with outcome, detail, assignment := none }],
                     examined := 1, rejected := 1 } } := by
  constructor
  · intro after hcommit
    simp [batchItem, hwork, singleRequest, hplan, hkey, hcommit]
  · intro outcome detail hcommit
    simp [batchItem, hwork, singleRequest, hplan, hkey, hcommit]

/-- A batch that takes the work up is its one item. -/
theorem scheduleBatch_single (hwork : impl.work[id]? = some work) (htakes : impl.TakesUp work)
    (hplan : (planLocked ctx impl work).binding = some binding)
    (hdone : (batchItem ctx (singleRequest id) true { impl } id).progress = true →
      1 ≤ (batchItem ctx (singleRequest id) true { impl } id).assigned) :
    ∃ outcome, scheduleBatch ctx impl (singleRequest id) =
      ({ (batchItem ctx (singleRequest id) true { impl } id).batch with outcome := outcome },
        { (batchItem ctx (singleRequest id) true { impl } id).impl with
          schedulingRounds := (batchItem ctx (singleRequest id) true { impl } id).impl.schedulingRounds + 1 }) := by
  obtain ⟨hrunning, hopen⟩ := (planLocked_open hplan).1
  have hcandidates := (candidates_single hwork hplan).1 htakes.2
  have hlength : (batchCandidates impl (singleRequest id)).length = 1 := by
    rw [← List.length_map (f := Prod.fst), hcandidates]
    rfl
  have hlimit : ¬impl.limits.maxCandidatesExamined.toNat < (batchCandidates impl (singleRequest id)).length := by
    rw [hlength, Nat.not_lt, Nat.one_le_iff_ne_zero]
    intro hzero
    exact htakes.1 (UInt32.toNat_inj.mp hzero)
  unfold scheduleBatch
  rw [if_neg (by simp [hrunning, hopen])]
  simp only
  rw [if_neg hlimit, hcandidates]
  obtain ⟨passes, hpasses⟩ : ∃ passes, max 1 (min ((batchCandidates impl (singleRequest id)).foldl
      (fun fanout entry => max fanout entry.2.request.requirements.maxParallel.toNat) 1)
      impl.limits.maxBatchAssignments.toNat) = passes + 1 :=
    ⟨_, (Nat.sub_add_cancel (Nat.le_max_left _ _)).symm⟩
  rw [hpasses, batchPasses_single hwork passes hdone]
  exact ⟨_, rfl⟩

/-- A batch that does not take the work up only counts a round. -/
theorem scheduleBatch_untaken (hwork : impl.work[id]? = some work) (htakes : ¬impl.TakesUp work)
    (hplan : (planLocked ctx impl work).binding = some binding) :
    ∃ outcome rounds, scheduleBatch ctx impl (singleRequest id) = ({ outcome }, { impl with schedulingRounds := rounds }) := by
  obtain ⟨hrunning, hopen⟩ := (planLocked_open hplan).1
  unfold scheduleBatch
  rw [if_neg (by simp [hrunning, hopen])]
  simp only
  split
  · exact ⟨_, impl.schedulingRounds, rfl⟩
  · next hlimit =>
    have hnone : batchCandidates impl (singleRequest id) = [] := by
      apply (candidates_single hwork hplan).2
      intro hslots
      have hlength := congrArg List.length ((candidates_single hwork hplan).1 hslots)
      rw [List.length_map, List.length_singleton] at hlength
      refine htakes ⟨fun hzero => hlimit ?_, hslots⟩
      rw [hlength, hzero]
      decide
    have hpasses : ∀ passes state, batchPasses ctx (singleRequest id) [] passes true state = state := by
      intro passes state
      cases passes with
      | zero => rfl
      | succ passes =>
        rw [batchPasses]
        split <;> rfl
    rw [hnone, List.map_nil, hpasses]
    exact ⟨_, _, rfl⟩

/-! ### Agreement -/

/-- A commit of the plan tells the two paths apart by the fairness history only. -/
private theorem agree_committed (hwork : impl.work[id]? = some work) (hkey : work.request.id = id)
    (hplan : (planLocked ctx impl work).binding = some binding) (hid : binding.work = id) {after : Impl}
    (hcommit : commitLocked ctx impl id work.request.generation binding = .ok after) :
    PathsAgree (schedule ctx impl id work.request.generation) (scheduleBatch ctx impl (singleRequest id)) id ↔
      impl.TakesUp work ∧ work.NeverPassedOver := by
  have hschedule : (schedule ctx impl id work.request.generation).1.chosen = (planLocked ctx impl work).decision.chosen ∧
      (schedule ctx impl id work.request.generation).2 = after := by
    rw [schedule_plan hwork hplan, scheduleCommit, hcommit]
    simp only
    split <;> exact ⟨rfl, rfl⟩
  obtain ⟨current, lifecycle, hrecord⟩ : ∃ current lifecycle, after.work[id]? =
      some { work with
             lastAssignmentGeneration := binding.generation, currentAssignments := current, lifecycle := lifecycle } := by
    obtain ⟨found, hcheck, rfl⟩ := commitLocked_ok hcommit
    obtain rfl : found = work := Option.some.inj ((commitCheck_ok.mp hcheck).2.1.symm.trans hwork)
    subst hid
    exact work_commitApply hwork
  by_cases htakes : impl.TakesUp work
  · have hitem := (batchItem_single hwork hkey hplan).1 after hcommit
    obtain ⟨outcome, hbatch⟩ := scheduleBatch_single hwork htakes hplan (by rw [hitem]; exact fun _ => Nat.le_refl 1)
    have hzeroed : (scheduleBatch ctx impl (singleRequest id)).2.work[id]? = some
        { work with
          lastAssignmentGeneration := binding.generation, currentAssignments := current, lifecycle := lifecycle
          bypassCount := 0, starvationRounds := 0 } := by
      rw [hbatch, hitem]
      exact (getElem?_modify _ _ _ _).trans ((if_pos rfl).trans (by rw [hrecord]; rfl))
    constructor
    · intro hagree
      have hwork := hagree.work
      rw [hschedule.2, hzeroed, hrecord, Option.some.injEq] at hwork
      exact ⟨htakes, (congrArg WorkRecord.bypassCount hwork).symm, (congrArg WorkRecord.starvationRounds hwork).symm⟩
    · rintro ⟨-, hbypass, hstarvation⟩
      constructor
      · rw [hbatch, hitem, hschedule.1]
        change ([(planLocked ctx impl work).decision].findSome? ScheduleDecision.chosen) = _
        rw [List.findSome?_singleton]
      · rw [hbatch, hitem, hschedule.2]
        rfl
      · rw [hschedule.2, hzeroed, hrecord, hbypass, hstarvation]
      · rw [hbatch, hitem, hschedule.2]
        rfl
      · rw [hbatch, hitem, hschedule.2]
        rfl
  · obtain ⟨outcome, rounds, hbatch⟩ := scheduleBatch_untaken hwork htakes hplan
    refine iff_of_false (fun hagree => ?_) fun hboth => htakes hboth.1
    have hsame := hagree.work
    rw [hschedule.2, hbatch, hrecord] at hsame
    have hnumber := congrArg WorkRecord.lastAssignmentGeneration (Option.some.inj (hwork.symm.trans hsame))
    obtain ⟨-, agentId, agent, -, hbinding⟩ := planLocked_binding hplan
    have hnext : binding.generation = ⟨work.lastAssignmentGeneration.value + 1⟩ := by
      rw [hbinding]
      rfl
    rw [hnext] at hnumber
    have hvalue := congrArg StrongId.value hnumber
    simp only at hvalue
    omega

/-- A refused plan leaves both paths where they were. -/
private theorem agree_refused (hwork : impl.work[id]? = some work) (hkey : work.request.id = id)
    (hplan : (planLocked ctx impl work).binding = some binding) {outcome : ScheduleOutcome} {detail : Text}
    (hcommit : commitLocked ctx impl id work.request.generation binding = .error (outcome, detail)) :
    PathsAgree (schedule ctx impl id work.request.generation) (scheduleBatch ctx impl (singleRequest id)) id := by
  have hrefused : outcome ≠ .assigned := by
    unfold commitLocked at hcommit
    split at hcommit
    · next refusal hcheck =>
      obtain rfl := Except.error.inj hcommit
      exact commitCheck_neverAssigns ctx impl id work.request.generation binding _ hcheck
    · cases hcommit
  have hschedule : (schedule ctx impl id work.request.generation).1.chosen = none ∧
      (schedule ctx impl id work.request.generation).2 = impl := by
    rw [schedule_plan hwork hplan, scheduleCommit, hcommit]
    exact ⟨if_neg hrefused, rfl⟩
  by_cases htakes : impl.TakesUp work
  · have hitem := (batchItem_single hwork hkey hplan).2 outcome detail hcommit
    obtain ⟨total, hbatch⟩ := scheduleBatch_single hwork htakes hplan (by rw [hitem]; intro hnone; cases hnone)
    constructor
    · rw [hbatch, hitem, hschedule.1, List.findSome?_singleton]
      exact if_neg hrefused
    all_goals rw [hbatch, hitem, hschedule.2]
  · obtain ⟨total, rounds, hbatch⟩ := scheduleBatch_untaken hwork htakes hplan
    constructor
    · rw [hbatch, hschedule.1]
      rfl
    all_goals rw [hbatch, hschedule.2]

end Paths

/-- `schedule` and a batch of the same work item agree exactly when the commit of the plan is refused, or the batch takes
the work up and finds no fairness history to forget. -/
theorem paths_agree {system : System} {id : WorkId} {work : WorkRecord} {binding : AssignmentBinding}
    (h : system.Reachable) (hwork : system.impl.work[id]? = some work)
    (hplan : (planLocked system.context system.impl work).binding = some binding) :
    PathsAgree (schedule system.context system.impl id work.request.generation)
        (scheduleBatch system.context system.impl (singleRequest id)) id ↔
      ¬system.impl.FreshAgent system.now binding.agent ∨ system.impl.TakesUp work ∧ work.NeverPassedOver := by
  have hconsistent : Consistent system.impl := h.valid.healthy.consistent
  have hkey : work.request.id = id := hconsistent.workKey id work hwork
  have hid := (planned_of_plan hconsistent hwork hplan).1
  have hfresh := commitLocked_plan hconsistent hwork hplan
  cases hcommit : commitLocked system.context system.impl id work.request.generation binding with
  | ok after =>
    rw [agree_committed hwork hkey hplan hid hcommit]
    exact ⟨Or.inr, fun hor => hor.resolve_left fun hnone => hnone (hfresh.mp ⟨after, hcommit⟩)⟩
  | error rejection =>
    refine iff_of_true (agree_refused hwork hkey hplan hcommit) (Or.inl fun hagent => ?_)
    obtain ⟨after, hafter⟩ := hfresh.mpr hagent
    rw [hcommit] at hafter
    cases hafter

set_option maxRecDepth 100000 in
/-- Work that no batch has passed over is scheduled alike. -/
theorem paths_agree_sample : ∃ system,
    Sample.run (fun _ _ => True) (Sample.enlist ++ Sample.submit Sample.exclusiveWork) = some system ∧
      PathsAgree (schedule system.context system.impl 5 1)
        (scheduleBatch system.context system.impl (singleRequest 5)) 5 := by
  have hrun : (Sample.run (fun _ _ => True) (Sample.enlist ++ Sample.submit Sample.exclusiveWork)).map (fun system =>
      (system.impl.work[(5 : WorkId)]?).map fun work =>
        (decide (work.request.generation = 1 ∧ system.impl.limits.maxCandidatesExamined ≠ 0 ∧
            work.lifecycle.acceptsAssignment = true ∧ work.bypassCount = 0 ∧ work.starvationRounds = 0),
          (planLocked system.context system.impl work).binding.isSome)) = some (some (true, true)) := by
    decide +kernel
  obtain ⟨system, hfound, hview⟩ := Option.map_eq_some_iff.mp hrun
  obtain ⟨work, hwork, hview⟩ := Option.map_eq_some_iff.mp hview
  obtain ⟨hflags, hbound⟩ := Prod.mk.inj hview
  obtain ⟨hgeneration, hlimit, haccepts, hbypass, hstarvation⟩ := of_decide_eq_true hflags
  obtain ⟨binding, hplan⟩ := Option.isSome_iff_exists.mp hbound
  refine ⟨system, hfound, ?_⟩
  rw [← hgeneration]
  exact (paths_agree (Sample.run_reaches hfound) hwork hplan).mpr
    (.inr ⟨⟨hlimit, .inl haccepts⟩, hbypass, hstarvation⟩)

set_option maxRecDepth 100000 in
/-- Work that a batch found no agent for keeps its fairness history when `schedule` assigns it later. -/
theorem not_paths_agree : ¬∀ (system : System) (id : WorkId) (work : WorkRecord) (binding : AssignmentBinding),
    system.Reachable → system.impl.work[id]? = some work →
    (planLocked system.context system.impl work).binding = some binding →
      PathsAgree (schedule system.context system.impl id work.request.generation)
        (scheduleBatch system.context system.impl (singleRequest id)) id := by
  intro hall
  have hrun : (Sample.run (fun _ _ => True)
      (Sample.submit Sample.exclusiveWork ++ [.run (.scheduleBatch Sample.batch)] ++ Sample.enlist)).map (fun system =>
        (system.impl.work[(5 : WorkId)]?).map fun work =>
          (decide (work.request.generation = 1 ∧
              (((schedule system.context system.impl 5 1).2.work[(5 : WorkId)]?).map fun record => record.bypassCount) = some 1 ∧
              (((scheduleBatch system.context system.impl (singleRequest 5)).2.work[(5 : WorkId)]?).map fun record =>
                record.bypassCount) = some 0),
            (planLocked system.context system.impl work).binding.isSome)) = some (some (true, true)) := by
    decide +kernel
  obtain ⟨system, hfound, hview⟩ := Option.map_eq_some_iff.mp hrun
  obtain ⟨work, hwork, hview⟩ := Option.map_eq_some_iff.mp hview
  obtain ⟨hflags, hbound⟩ := Prod.mk.inj hview
  obtain ⟨hgeneration, hsingle, hbatch⟩ := of_decide_eq_true hflags
  obtain ⟨binding, hplan⟩ := Option.isSome_iff_exists.mp hbound
  have hagree := (hall system 5 work binding (Sample.run_reaches hfound) hwork hplan).work
  rw [hgeneration] at hagree
  rw [hagree, hsingle] at hbatch
  cases hbatch

end AgentScheduler
