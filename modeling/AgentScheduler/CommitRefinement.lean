import AgentScheduler.WorkRefinement

/-! Commits and batches move authority: what the commit check grants is what the ledger demands. -/
namespace AgentScheduler
open Std KeyedTable Relation

section
variable {gate : Gate} {impl : Impl}

/-! ### What the commit check looks at -/

theorem activeExclusiveAssignment_none {work : WorkId} (h : Consistent impl)
    (hnone : activeExclusiveAssignment impl work = none) : impl.ledger.exclusiveFor work = ∅ := by
  refine Set.eq_empty_of_forall_notMem ?_
  rintro id ⟨record, hrecord, hactive, hwork, hexclusive⟩
  have hmem := (h.workIndex work id).mpr ⟨record, hrecord, hactive, hwork⟩
  have hnot := List.find?_eq_none.mp hnone id hmem
  have hrecord : impl.assignments[id]? = some record := hrecord
  simp [hrecord, hactive, hexclusive] at hnot

theorem encard_activeOn (h : Consistent impl) (work : WorkId) (agent : AgentId) :
    (impl.ledger.activeOn work agent).encard = activeAssignmentsOnAgent impl work agent := by
  unfold activeAssignmentsOnAgent
  rw [List.countP_eq_length_filter]
  refine encard_of_list ((nodup_indexIds _ _).filter _) fun id => ?_
  rw [List.mem_filter, h.workIndex]
  constructor
  · rintro ⟨⟨record, hrecord, hactive, hwork⟩, hcounted⟩
    have hstored : impl.assignments[id]? = some record := hrecord
    simp only [hstored, Bool.and_eq_true, decide_eq_true_eq] at hcounted
    exact ⟨record, hrecord, hactive, hwork, hcounted.2⟩
  · rintro ⟨record, hrecord, hactive, hwork, hagent⟩
    have hstored : impl.assignments[id]? = some record := hrecord
    exact ⟨⟨record, hrecord, hactive, hwork⟩, by simp [hstored, hactive, hagent]⟩

theorem capabilityFresh_current {now : UInt64} {record : AgentRecord} (h : capabilityFresh now impl record) :
    record.capabilityCurrent := by
  unfold capabilityFresh at h
  by_contra hnot
  simp [hnot] at h

/-- A work item that passes the commit check has a free slot. -/
private theorem commitWork_room {now : UInt64} {workId : WorkId} {generation : WorkGeneration}
    {binding : AssignmentBinding} {work : WorkRecord} (h : Consistent impl) (hwork : impl.work[workId]? = some work)
    (hcheck : commitWork now impl workId generation binding work = .ok ()) :
    impl.ledger.activeFor workId = ∅ ∨
      (work.request.mode = .parallel ∧
        (impl.ledger.activeFor workId).encard < work.request.requirements.maxParallel.toNat) := by
  unfold commitWork at hcheck
  simp only [check_bind_eq_ok, refuseIf_eq_ok] at hcheck
  obtain ⟨-, -, -, hslot, -, -, -⟩ := hcheck
  have hcount := h.current workId work (fun hmem => hmem) hwork
  by_cases hcurrent : work.currentAssignments = 0
  · left
    rw [hcurrent] at hcount
    exact Set.encard_eq_zero.mp hcount
  · right
    have hbusy : ¬work.lifecycle.acceptsAssignment := by
      intro haccepts
      have hadmitted : work.lifecycle = .admitted := by
        cases hlifecycle : work.lifecycle <;> rw [hlifecycle] at haccepts <;> first | rfl | cases haccepts
      exact hcurrent (h.admitted workId work (fun hmem => hmem) hwork hadmitted)
    have hopen : fanoutOpen work := by
      by_contra hclosed
      exact hslot ⟨hbusy, Nat.pos_of_ne_zero hcurrent, hclosed⟩
    simp only [fanoutOpen, Bool.and_eq_true, decide_eq_true_eq] at hopen
    rw [hcount]
    exact ⟨hopen.1, by exact_mod_cast hopen.2⟩

/-- A commit finds its work item at the generation it was planned for. -/
theorem commitCheck_generation {ctx : Context} {workId : WorkId} {generation : WorkGeneration}
    {binding : AssignmentBinding} {work : WorkRecord} (hcheck : commitCheck ctx impl workId generation binding = .ok work) :
    work.request.generation = generation := by
  unfold commitCheck at hcheck
  simp only [except_bind_eq_ok, lookupOrRefuse_eq_ok] at hcheck
  obtain ⟨_, -, found, -, _, hwork, _, -, _, -, _, -, hreturn⟩ := hcheck
  obtain rfl : found = work := Except.ok.inj hreturn
  unfold commitWork at hwork
  simp only [check_bind_eq_ok, refuseIf_eq_ok, not_or, not_not, ne_eq] at hwork
  exact hwork.1.1

/-- A committed binding was planned under the epochs of the instance. -/
theorem commitCheck_epochs {ctx : Context} {workId : WorkId} {generation : WorkGeneration}
    {binding : AssignmentBinding} {work : WorkRecord} (hcheck : commitCheck ctx impl workId generation binding = .ok work) :
    binding.schedulerEpoch = impl.schedulerEpoch ∧ binding.coordinatorEpoch = impl.coordinatorEpoch := by
  unfold commitCheck at hcheck
  simp only [check_bind_eq_ok] at hcheck
  have hscheduler := hcheck.1
  unfold commitScheduler at hscheduler
  simp only [check_bind_eq_ok, refuseIf_eq_ok, not_or, not_not, ne_eq] at hscheduler
  exact ⟨hscheduler.2.1.2, hscheduler.2.2.1⟩

/-- The commit check grants what the ledger demands of a commit. -/
theorem commits_of_check {ctx : Context} {generation : WorkGeneration} {binding : AssignmentBinding}
    {work : WorkRecord} (h : Consistent impl)
    (hcheck : commitCheck ctx impl binding.work generation binding = .ok work) :
    impl.work[binding.work]? = some work ∧ Commits impl.ledger work.entry binding := by
  unfold commitCheck at hcheck
  simp only [except_bind_eq_ok, lookupOrRefuse_eq_ok] at hcheck
  obtain ⟨_, hscheduler, found, hfound, _, hwork, agent, hagent, _, hagentCheck, _, -, hreturn⟩ := hcheck
  obtain rfl : found = work := Except.ok.inj hreturn
  have hroom := commitWork_room h hfound hwork
  unfold commitScheduler at hscheduler
  unfold commitWork at hwork
  unfold commitAgent at hagentCheck
  simp only [check_bind_eq_ok, refuseIf_eq_ok] at hscheduler hwork hagentCheck
  obtain ⟨-, hepoch, -, hpolicy⟩ := hscheduler
  obtain ⟨hgeneration, hcancelled, hsuperseded, -, -, hexclusive, -⟩ := hwork
  obtain ⟨hagentGeneration, hboot, -, -, hcapability, -, hperAgent⟩ := hagentCheck
  simp only [not_or, not_not, ne_eq, Bool.not_eq_true] at hepoch hpolicy hgeneration hagentGeneration hboot hcapability
  refine ⟨hfound, ⟨hepoch.1, hepoch.2, hpolicy.1, hpolicy.2, by simp [Impl.ledger, hfound],
    hgeneration.1.trans hgeneration.2, ?_, ?_, hroom, ?_, ?_⟩⟩
  · constructor
    all_goals
      intro hsettled
      simp only [WorkRecord.entry] at hsettled
      split at hsettled
      · first
        | exact hcancelled (Option.some.inj hsettled)
        | exact hsuperseded (Option.some.inj hsettled)
      · cases hsettled
  · exact ⟨agent.entry, by simp [Impl.ledger, hagent], hagentGeneration, hboot, hcapability.2.1, hcapability.1,
      capabilityFresh_current (by simpa using hcapability.2.2)⟩
  · rw [encard_activeOn h]
    exact_mod_cast Nat.lt_of_not_le hperAgent
  · intro hbound
    refine activeExclusiveAssignment_none h ?_
    by_contra hsome
    exact hexclusive ⟨hbound, Option.isSome_iff_ne_none.mpr hsome⟩

/-! ### Storing a commit -/

/-- The tables right after the emplace, before any accounting. -/
def emplaced (impl : Impl) (binding : AssignmentBinding) : Impl :=
  { impl with
    assignments := impl.assignments.insertIfNew binding.id binding.record
    leases := impl.leases.insertIfNew binding.lease binding.leaseRecord }

/-- What the store holds under the id of a committed binding. -/
private def storedRecord (impl : Impl) (binding : AssignmentBinding) : AssignmentRecord :=
  (impl.assignments[binding.id]?).getD binding.record

private theorem emplaced_getElem? (impl : Impl) (binding : AssignmentBinding) (id : AssignmentId) :
    (emplaced impl binding).assignments[id]? =
      if binding.id = id then some (storedRecord impl binding) else impl.assignments[id]? := by
  simp only [emplaced, KeyedTable.getElem?_insertIfNew]
  split
  · next heq =>
    subst heq
    rfl
  · rfl

/-- After the emplace and the indexing the tables are coherent but for the counters of the work item. -/
private theorem coherent_emplaced {binding : AssignmentBinding} {work : WorkRecord} (h : Consistent impl)
    (hwork : impl.work[binding.work]? = some work) :
    Coherent {binding.work} (indexStoredAssignment (emplaced impl binding) binding.id) := by
  let stored := storedRecord impl binding
  have hkey : stored.binding.id = binding.id := by
    cases hold : impl.assignments[binding.id]? with
    | none => simp [stored, storedRecord, hold, AssignmentBinding.record]
    | some old => simpa [stored, storedRecord, hold] using h.assignmentKey binding.id old hold
  have hactive : ∀ (p : AssignmentRecord → Prop) id, id ∈ (emplaced impl binding).ledger.active p ↔
      (id = binding.id ∧ stored.state.isActive ∧ p stored) ∨ id ∈ impl.ledger.active p := by
    intro p id
    have hread : (emplaced impl binding).ledger.assignments id =
        if binding.id = id then some stored else impl.assignments[id]? := emplaced_getElem? impl binding id
    constructor
    · rintro ⟨record, hrecord, hstate, hp⟩
      rw [hread] at hrecord
      split at hrecord
      · next heq =>
        obtain rfl := Option.some.inj hrecord
        exact .inl ⟨heq.symm, hstate, hp⟩
      · exact .inr ⟨record, hrecord, hstate, hp⟩
    · rintro (⟨rfl, hstate, hp⟩ | ⟨record, hrecord, hstate, hp⟩)
      · exact ⟨stored, by rw [hread, if_pos rfl], hstate, hp⟩
      · refine ⟨record, ?_, hstate, hp⟩
        rw [hread]
        split
        · next heq =>
          subst heq
          have hold : impl.assignments[binding.id]? = some record := hrecord
          simp [stored, storedRecord, hold]
        · exact hrecord
  have hindexed : (emplaced impl binding).assignments[binding.id]? = some stored := by
    rw [emplaced_getElem?, if_pos rfl]
  have hindex : ∀ {Key : Type} [Ord Key] [TransOrd Key] [LawfulEqOrd Key] [DecidableEq Key]
      (index : Table Key (IdSet AssignmentId)) (key : AssignmentRecord → Key) (k : Key) (member : AssignmentId),
      (∀ k member, member ∈ indexIds index k ↔ member ∈ impl.ledger.active fun record => key record = k) →
      (member ∈ indexIds (if stored.state.isActive then indexInsert index (key stored) stored.binding.id else index) k ↔
        member ∈ (emplaced impl binding).ledger.active fun record => key record = k) := by
    intro Key _ _ _ _ index key k member hexact
    rw [hactive]
    split
    · next hstate =>
      rw [mem_indexIds_insert, hexact, hkey]
      constructor
      · rintro (⟨hk, rfl⟩ | hmem)
        · exact .inl ⟨rfl, hstate, hk⟩
        · exact .inr hmem
      · rintro (⟨rfl, -, hk⟩ | hmem)
        · exact .inl ⟨hk, rfl⟩
        · exact .inr hmem
    · next hstate =>
      rw [hexact]
      constructor
      · exact .inr
      · rintro (⟨-, hstate', -⟩ | hmem)
        · exact (hstate hstate').elim
        · exact hmem
  have hform : indexStoredAssignment (emplaced impl binding) binding.id =
      { emplaced impl binding with
        indexAssignmentsByAgent :=
          if stored.state.isActive then
            indexInsert impl.indexAssignmentsByAgent stored.binding.agent stored.binding.id
          else impl.indexAssignmentsByAgent
        indexAssignmentsByWork :=
          if stored.state.isActive then
            indexInsert impl.indexAssignmentsByWork stored.binding.work stored.binding.id
          else impl.indexAssignmentsByWork } := by
    unfold indexStoredAssignment
    rw [hindexed]
    simp only [indexAssignment]
    cases stored.state.isActive <;> rfl
  have hothers : ∀ work, work ≠ binding.work →
      (emplaced impl binding).ledger.activeFor work = impl.ledger.activeFor work := by
    intro work hne
    ext member
    refine (hactive _ member).trans ⟨?_, .inr⟩
    rintro (⟨rfl, hstate, hwork⟩ | hmem)
    · cases hold : impl.assignments[binding.id]? with
      | none =>
        have hstored : stored = binding.record := by simp [stored, storedRecord, hold]
        rw [hstored] at hwork
        exact (hne hwork.symm).elim
      | some old =>
        have hstored : stored = old := by simp [stored, storedRecord, hold]
        rw [hstored] at hstate hwork
        exact ⟨old, hold, hstate, hwork⟩
    · exact hmem
  rw [hform]
  refine ⟨h.agentKey, h.agentBoot, h.workKey, h.assignmentKey.insertIfNew rfl, fun id record hrecord => ?_,
    h.leaseKey.insertIfNew rfl, h.queueKey, h.tenantKey, h.fencedKey,
    fun k member => hindex _ (fun record => record.binding.work) k member h.workIndex,
    fun k member => hindex _ (fun record => record.binding.agent) k member h.agentIndex,
    fun other record hstale hrecord => ?_, fun other record _ => h.admitted other record fun hmem => hmem,
    fun other hnone => ?_⟩
  · change (emplaced impl binding).assignments[id]? = some record at hrecord
    rw [emplaced_getElem?] at hrecord
    split at hrecord
    · obtain rfl := Option.some.inj hrecord
      cases hold : impl.assignments[binding.id]? with
      | none => exact .inl (by simp [storedRecord, hold]; rfl)
      | some old => simpa [storedRecord, hold] using h.assignmentState binding.id old hold
    · exact h.assignmentState id record hrecord
  · change ((emplaced impl binding).ledger.activeFor other).encard = _
    rw [hothers other hstale]
    exact h.current other record (fun hmem => hmem) hrecord
  · have hne : other ≠ binding.work := by
      rintro rfl
      rw [show impl.work[binding.work]? = none from hnone] at hwork
      cases hwork
    change (emplaced impl binding).ledger.activeFor other = ∅
    rw [hothers other hne]
    exact h.unknown other hnone

/-- The tables once the record is indexed and the work item numbered, before any accounting. -/
def slotted (impl : Impl) (work : WorkRecord) (binding : AssignmentBinding) : Impl :=
  indexStoredAssignment
    ((emplaced impl binding).setWork binding.work { work with lastAssignmentGeneration := binding.generation }) binding.id

private theorem slotted_eq (impl : Impl) (work : WorkRecord) (binding : AssignmentBinding) :
    slotted impl work binding = (indexStoredAssignment (emplaced impl binding) binding.id).setWork binding.work
      { work with lastAssignmentGeneration := binding.generation } := by
  simp only [slotted, indexStoredAssignment, Impl.setWork]
  cases (emplaced impl binding).assignments[binding.id]? with
  | none => rfl
  | some record =>
    simp only [indexAssignment]
    cases record.state.isActive <;> rfl

theorem coherent_slotted {binding : AssignmentBinding} {work : WorkRecord} (h : Consistent impl)
    (hwork : impl.work[binding.work]? = some work) : Coherent {binding.work} (slotted impl work binding) := by
  rw [slotted_eq]
  exact (coherent_emplaced h hwork).setWork (h.workKey binding.work work hwork) (fun hstale => (hstale rfl).elim)
    fun hstale => (hstale rfl).elim

theorem ledger_slotted (impl : Impl) (work : WorkRecord) (binding : AssignmentBinding) :
    (slotted impl work binding).ledger = impl.ledger.commit work.entry binding := by
  rw [slotted_eq, ledger_setWork]
  refine Ledger.ext ?_ ?_ ?_ ?_ ?_ ?_ (funext fun id => ?_)
  case refine_7 =>
    change (indexStoredAssignment (emplaced impl binding) binding.id).assignments[id]? = _
    have htable : (indexStoredAssignment (emplaced impl binding) binding.id).assignments =
        (emplaced impl binding).assignments := by
      unfold indexStoredAssignment
      split
      · rfl
      · unfold indexAssignment
        split <;> rfl
    rw [htable, emplaced_getElem?]
    simp only [Ledger.commit, Ledger.setWork, eq_comm (a := id)]
    split
    · next heq =>
      subst heq
      rfl
    · rfl
  case refine_6 =>
    have htable : (indexStoredAssignment (emplaced impl binding) binding.id).ledger.works = impl.ledger.works := by
      unfold indexStoredAssignment
      split
      · rfl
      · unfold indexAssignment
        split <;> rfl
    simp only [Ledger.setWork, Ledger.commit, htable]
    rfl
  all_goals
    simp only [Ledger.setWork, Ledger.commit, indexStoredAssignment]
    split
    · rfl
    · simp only [indexAssignment]
      split <;> rfl

/-- The storing half of a commit: the slot is taken, then everything is counted. -/
theorem commitApply_eq {binding : AssignmentBinding} {work : WorkRecord} (hwork : impl.work[binding.work]? = some work) :
    commitApply impl binding.work work binding =
      let refreshed := refreshAgentAccounting (refreshWorkAccounting (slotted impl work binding) binding.work) binding.agent
      Impl.revise
        { refreshed with
          assignmentsCreated := refreshed.assignmentsCreated + 1
          queues := refreshed.queues.modify binding.queue fun queue =>
            { queue with assignedCount := queue.assignedCount + 1 }
          tenants := refreshed.tenants.modify work.request.requirements.tenant fun tenant =>
            { tenant with activeAssignments := tenant.activeAssignments + 1 } } := by
  have hmodify : (emplaced impl binding).modifyWork binding.work
      (fun record => { record with lastAssignmentGeneration := binding.generation }) =
      (emplaced impl binding).setWork binding.work { work with lastAssignmentGeneration := binding.generation } :=
    modifyWork_eq_setWork hwork
  simp only [slotted, ← hmodify]
  rfl

/-- Storing a binding that passes the check is a commit of the ledger. -/
theorem commitApply_spec {ctx : Context} {generation : WorkGeneration} {binding : AssignmentBinding}
    {work : WorkRecord} (h : Consistent impl)
    (hcheck : commitCheck ctx impl binding.work generation binding = .ok work) :
    Consistent (commitApply impl binding.work work binding) ∧
      (commitApply impl binding.work work binding).ledger = impl.ledger.commit work.entry binding := by
  have hwork := (commits_of_check h hcheck).1
  let refreshed := refreshAgentAccounting (refreshWorkAccounting (slotted impl work binding) binding.work) binding.agent
  have hrefreshed : Consistent refreshed := by
    have hfresh := (coherent_slotted h hwork).refreshWorkAccounting binding.work
    rw [Set.sdiff_self] at hfresh
    exact hfresh.refreshAgentAccounting binding.agent
  have hqueues := hrefreshed.withQueues (hrefreshed.queueKey.modify (k := binding.queue)
    (f := fun queue => { queue with assignedCount := queue.assignedCount + 1 }) fun _ => rfl)
  have htenants := hqueues.withTenants (hrefreshed.tenantKey.modify (k := work.request.requirements.tenant)
    (f := fun tenant => { tenant with activeAssignments := tenant.activeAssignments + 1 }) fun _ => rfl)
  rw [commitApply_eq hwork]
  refine ⟨htenants.of_core rfl, ?_⟩
  change refreshed.ledger = _
  rw [ledger_refreshAgentAccounting, ledger_refreshWorkAccounting, ledger_slotted]

theorem commitLocked_ok {ctx : Context} {workId : WorkId} {generation : WorkGeneration} {binding : AssignmentBinding}
    {committed : Impl} (h : commitLocked ctx impl workId generation binding = .ok committed) :
    ∃ work, commitCheck ctx impl workId generation binding = .ok work ∧
      committed = commitApply impl workId work binding := by
  unfold commitLocked at h
  cases hcheck : commitCheck ctx impl workId generation binding with
  | error rejection =>
    rw [hcheck] at h
    cases h
  | ok work =>
    rw [hcheck] at h
    exact ⟨work, rfl, (Except.ok.inj h).symm⟩

/-- Committing a binding that passes the check moves authority. -/
theorem commitLocked_refines {ctx : Context} {generation : WorkGeneration} {binding : AssignmentBinding}
    {committed : Impl} (hcommit : commitLocked ctx impl binding.work generation binding = .ok committed)
    (hgate : ∀ work, commitCheck ctx impl binding.work generation binding = .ok work → gate.commits impl.ledger binding) :
    Refines gate impl committed := by
  obtain ⟨work, hcheck, rfl⟩ := commitLocked_ok hcommit
  refine Refines.single fun h => ?_
  obtain ⟨hconsistent, hledger⟩ := commitApply_spec h hcheck
  refine ⟨hconsistent, ?_⟩
  rw [hledger]
  exact .commit work.entry binding (commits_of_check h hcheck).2 (hgate work hcheck)

theorem scheduleCommit_refines {ctx : Context} {generation : WorkGeneration} {binding : AssignmentBinding}
    (decision : ScheduleDecision)
    (hgate : ∀ work, commitCheck ctx impl binding.work generation binding = .ok work →
      gate.commits impl.ledger binding) :
    Refines gate impl (scheduleCommit ctx impl binding.work generation decision binding).2 := by
  unfold scheduleCommit
  cases hcommit : commitLocked ctx impl binding.work generation binding with
  | error rejection => exact Refines.refl impl
  | ok committed =>
    have hrefines := commitLocked_refines hcommit hgate
    simp only
    split <;> exact hrefines

/-! ### Plans -/

/-- A plan with a binding has passed every gate, and binds a known agent. -/
theorem planLocked_binding {ctx : Context} {work : WorkRecord} {binding : AssignmentBinding}
    (h : (planLocked ctx impl work).binding = some binding) :
    planGates ctx.now impl work = .ok () ∧
      ∃ (id : AgentId) (agent : AgentRecord), impl.agents[id]? = some agent ∧ binding = planBinding ctx.now impl work agent := by
  unfold planLocked at h
  cases hgates : planGates ctx.now impl work with
  | error rejection =>
    rw [hgates] at h
    cases h
  | ok _ =>
    refine ⟨rfl, ?_⟩
    simp only [hgates] at h
    split at h
    · cases h
    · split at h
      · cases h
      · next agent hagent => exact ⟨_, agent, hagent, (Option.some.inj h).symm⟩

/-- A binding is what a plan proposes for a work item in this very ledger. -/
structure Planned (ledger : Ledger) (entry : WorkEntry) (binding : AssignmentBinding) : Prop where
  work : ledger.works binding.work = some entry
  generation : entry.request.generation = binding.workGeneration
  unsettled : entry.settled = none
  next : binding.generation.value = entry.lastGeneration.value + 1
  mode : binding.exclusive ↔ entry.request.mode = .exclusive

theorem planGates_unsettled {now : UInt64} {work : WorkRecord} (h : planGates now impl work = .ok ()) :
    work.lifecycle.isTerminal = false := by
  unfold planGates at h
  simp only [check_bind_eq_ok, refuseIf_eq_ok] at h
  simpa using h.2.2.2.1

theorem planned_of_plan {ctx : Context} {id : WorkId} {work : WorkRecord} {binding : AssignmentBinding}
    (h : Consistent impl) (hwork : impl.work[id]? = some work)
    (hplan : (planLocked ctx impl work).binding = some binding) :
    binding.work = id ∧ Planned impl.ledger work.entry binding := by
  obtain ⟨hgates, agentId, agent, -, rfl⟩ := planLocked_binding hplan
  have hkey : work.request.id = id := h.workKey id work hwork
  refine ⟨hkey, ?_, rfl, ?_, rfl, ?_⟩
  · change impl.ledger.works work.request.id = some work.entry
    simp [Impl.ledger, hkey, hwork]
  · simp [WorkRecord.entry, planGates_unsettled hgates]
  · change (decide (work.request.mode = .exclusive) = true) ↔ _
    rw [decide_eq_true_iff]
    rfl

/-! ### Batches -/

theorem batchItem_refines {ctx : Context} {request : ScheduleRequest} {first : Bool}
    (hgate : ∀ ledger entry binding, Planned ledger entry binding → gate.commits ledger binding) (state : BatchState)
    (id : WorkId) : Refines gate state.impl (batchItem ctx request first state id).impl := by
  have hpassed : Refines gate state.impl (state.impl.modifyWork id passOver) :=
    (Quiet.modifyWork (f := passOver) (fun _ => rfl) (fun _ => rfl) (fun _ => rfl) fun _ => rfl).refines
  unfold batchItem
  cases hwork : state.impl.work[id]? with
  | none => exact Refines.refl _
  | some record =>
    simp only
    split
    · split
      · exact hpassed
      · exact Refines.refl _
    · cases hplan : (planLocked ctx state.impl record).binding with
      | none =>
        simp only
        split
        · split
          · exact Refines.refl _
          · exact hpassed
        · exact Refines.refl _
      | some binding =>
        simp only
        split
        · split <;> exact Refines.refl _
        · refine Refines.given fun h => ?_
          obtain ⟨hbound, hplanned⟩ := planned_of_plan h hwork hplan
          have hkey : record.request.id = binding.work := (h.workKey id record hwork).trans hbound.symm
          rw [hkey]
          cases hcommit : commitLocked ctx state.impl binding.work record.request.generation binding with
          | error rejection => exact Refines.refl _
          | ok committed =>
            have hcommitted : Refines gate state.impl committed :=
              commitLocked_refines hcommit fun _ _ => hgate _ _ _ hplanned
            let reset (record : WorkRecord) : WorkRecord := { record with bypassCount := 0, starvationRounds := 0 }
            exact hcommitted.quiet
              (Quiet.modifyWork (f := reset) (fun _ => rfl) (fun _ => rfl) (fun _ => rfl) fun _ => rfl)

/-- What holds at the start of a batch and is kept by every item holds at its end. -/
theorem batchPasses_keeps {ctx : Context} {request : ScheduleRequest} {candidates : List WorkId}
    {motive : BatchState → Prop}
    (hitem : ∀ first state id, motive state → motive (batchItem ctx request first state id))
    (hprogress : ∀ state progress, motive state → motive { state with progress := progress }) (passes : Nat)
    (first : Bool) {state : BatchState} (h : motive state) :
    motive (batchPasses ctx request candidates passes first state) := by
  induction passes generalizing first state with
  | zero => exact h
  | succ passes ih =>
    unfold batchPasses
    split
    · exact h
    · simp only
      split
      · exact h
      · let order := batchOrder state.impl first candidates
        let swept := order.foldl (batchItem ctx request first) { state with progress := false }
        have hswept : motive swept :=
          List.foldlRecOn (motive := motive) order _ (hprogress state false h) fun acc hacc id _ => hitem first acc id hacc
        change motive (if swept.progress then batchPasses ctx request candidates passes false swept else swept)
        split
        · exact ih false hswept
        · exact hswept

theorem batchPasses_refines {ctx : Context} {request : ScheduleRequest} {candidates : List WorkId}
    (hgate : ∀ ledger entry binding, Planned ledger entry binding → gate.commits ledger binding) (passes : Nat)
    (first : Bool) (state : BatchState) :
    Refines gate state.impl (batchPasses ctx request candidates passes first state).impl :=
  batchPasses_keeps (motive := fun after => Refines gate state.impl after.impl)
    (fun _ acc id hacc => hacc.trans (batchItem_refines hgate acc id)) (fun _ _ hacc => hacc) passes first (Refines.refl _)

theorem scheduleBatch_refines {ctx : Context} {request : ScheduleRequest}
    (hgate : ∀ ledger entry binding, Planned ledger entry binding → gate.commits ledger binding) :
    Refines gate impl (scheduleBatch ctx impl request).2 := by
  unfold scheduleBatch
  split
  · exact Refines.refl impl
  · simp only
    split
    · exact Refines.refl impl
    · exact (batchPasses_refines hgate _ true { impl := impl }).quiet (Quiet.of_core rfl)

end

end AgentScheduler
