import AgentScheduler.Chains
import AgentScheduler.Submissions

/-! Every operation is a chain of deeds: the operations on work and assignments, and the steps of the system. -/
namespace AgentScheduler
open Std KeyedTable Relation

section Work
variable {ctx : Context} {allows : Event → Prop} {stale : Set AgentId} {impl : Impl}

/-! ### Admission and the end of work items -/

theorem ensureQueue_essence {request : WorkRequest} {queued : Impl} (h : ensureQueue impl request = .ok queued) :
    queued.essence = impl.essence := by
  unfold ensureQueue at h
  cases hqueue : impl.queues[request.queue]? with
  | none =>
    simp only [hqueue] at h
    split at h
    · cases h
    · obtain rfl := Except.ok.inj h
      rfl
  | some queue =>
    simp only [hqueue] at h
    split at h
    · cases h
    · split at h <;> obtain rfl := Except.ok.inj h <;> rfl

theorem ensureTenant_essence {tenant : TenantId} {ready : Impl} (h : ensureTenant impl tenant = .ok ready) :
    ready.essence = impl.essence := by
  unfold ensureTenant at h
  split at h
  · obtain rfl := Except.ok.inj h
    rfl
  · split at h
    · obtain rfl := Except.ok.inj h
      rfl
    · split at h
      · cases h
      · obtain rfl := Except.ok.inj h
        rfl

private theorem withQueueAndTenant_deeds {request : WorkRequest} {body : Impl → Impl}
    (hbook : ∀ event : Event, event.IsBookkeeping → allows event)
    (hbody : ∀ ready, ready.essence = impl.essence → Deeds ctx allows (stale, ready) (stale, body ready)) :
    Deeds ctx allows (stale, impl) (stale, (withQueueAndTenant impl request body).2) := by
  unfold withQueueAndTenant
  cases hqueue : ensureQueue impl request with
  | error error => exact .refl
  | ok queued =>
    have hqueued : Deeds ctx allows (stale, impl) (stale, queued) :=
      Deeds.quiet hbook (ensureQueue_essence hqueue) (ensureQueue_quiet hqueue)
    cases htenant : ensureTenant queued request.requirements.tenant with
    | error error => simpa [htenant] using hqueued
    | ok ready =>
      have hready : Deeds ctx allows (stale, queued) (stale, ready) :=
        Deeds.quiet hbook (ensureTenant_essence htenant) (ensureTenant_quiet htenant)
      have hessence := (ensureTenant_essence htenant).trans (ensureQueue_essence hqueue)
      simpa [htenant] using (hqueued.trans hready).trans (hbody ready hessence)

private theorem countAdmission_deeds {request : WorkRequest} (hbook : ∀ event : Event, event.IsBookkeeping → allows event) :
    Deeds ctx allows (stale, impl) (stale, (countAdmission impl request).revise) :=
  Deeds.quiet hbook rfl (countAdmission_quiet impl request)

private theorem replaceWork_deeds {request : WorkRequest} {existing : WorkRecord} {reason : Text} (h : Consistent impl)
    (hcanonical : request.canonicalize = request)
    (hbook : ∀ event : Event, event.IsBookkeeping → allows event)
    (hcloses : ∀ record, record.binding.work = request.id → record.state.isActive → allows (.closes record)) :
    Deeds ctx allows (stale, impl) (stale, replaceWork ctx.now impl request existing reason) := by
  let closed := closeWork ctx.now impl request.id .superseded .workSuperseded "work generation was superseded"
  let record := admittedRecord ctx.now (deindexWork closed request.id) request reason existing.lastAssignmentGeneration
  have hclosed : Deeds ctx allows (stale, impl) (stale, closed) := Deeds.closeWork rfl hcloses
  have hidle : closed.takeSequence.ledger.activeFor request.id = ∅ :=
    (closeWork_idle request.id ctx.now .superseded .workSuperseded "work generation was superseded" h rfl).1
  have htaken : Deeds ctx allows (stale, closed) (stale, closed.takeSequence) :=
    Deeds.quiet hbook rfl (Quiet.of_core (core_takeSequence closed))
  exact (hclosed.trans htaken).trans
    (Deeds.single (.reopen request.id record rfl rfl rfl hidle hcanonical) (hbook _ trivial))

theorem submitWorkCommit_deeds {request : WorkRequest} (h : Consistent impl)
    (hbook : ∀ event : Event, event.IsBookkeeping → allows event)
    (hcloses : ∀ record, record.binding.work = request.canonicalize.id → record.state.isActive → allows (.closes record)) :
    Deeds ctx allows (stale, impl) (stale, (submitWorkCommit ctx.now impl request).2) := by
  refine Deeds.guarded fun _ _ => ?_
  cases hwork : impl.work[request.canonicalize.id]? with
  | some existing =>
    simp only
    refine Deeds.guarded fun decision _ => ?_
    cases decision with
    | unchanged => exact .refl
    | reopen =>
      exact (replaceWork_deeds h (WorkRequest.canonicalize_canonicalize _) hbook hcloses).trans
        (withQueueAndTenant_deeds hbook fun ready _ => countAdmission_deeds hbook)
  | none =>
    simp only
    refine Deeds.guarded fun _ _ => ?_
    have htaken : Deeds ctx allows (stale, impl) (stale, impl.takeSequence) :=
      Deeds.quiet hbook rfl (Quiet.of_core (core_takeSequence impl))
    refine htaken.trans (withQueueAndTenant_deeds hbook fun ready hessence => ?_)
    have hunknown : ready.work[request.canonicalize.id]? = none := by
      have hworks := congrArg Impl.work hessence
      have hworks : ready.work = impl.work := hworks
      rw [hworks, hwork]
    exact (Deeds.single (.accept request.canonicalize.id (admittedRecord ctx.now impl request.canonicalize "admitted" 0)
      rfl rfl rfl hunknown (WorkRequest.canonicalize_canonicalize request)) (hbook _ trivial)).trans (countAdmission_deeds hbook)

theorem supersedeWork_deeds {work : WorkId} {expectedGeneration : WorkGeneration} {replacement : WorkRequest}
    (h : Consistent impl) (hbook : ∀ event : Event, event.IsBookkeeping → allows event)
    (hcloses : ∀ record, record.binding.work = replacement.canonicalize.id → record.state.isActive → allows (.closes record)) :
    Deeds ctx allows (stale, impl) (stale, (supersedeWork ctx.now impl work expectedGeneration replacement).2) := by
  refine Deeds.guarded fun record hcheck => ?_
  exact (replaceWork_deeds h (WorkRequest.canonicalize_canonicalize _) hbook hcloses).trans
    (withQueueAndTenant_deeds hbook fun ready _ => Deeds.revise hbook)

/-- A stored work item is still stored, with the same request, after a change that leaves the ledger its works. -/
private theorem stored_work (impl' : Impl) {work : WorkId} {record : WorkRecord}
    (hworks : impl'.ledger.works = impl.ledger.works) (hwork : impl.work[work]? = some record) :
    ∃ record', impl'.work[work]? = some record' ∧ record'.request = record.request := by
  have hentry : impl'.ledger.works work = some record.entry := by
    rw [hworks]
    simp [Impl.ledger, hwork]
  obtain ⟨record', hrecord', heq⟩ := Option.map_eq_some_iff.mp hentry
  exact ⟨record', hrecord', congrArg WorkEntry.request heq⟩

private theorem settleWork_deeds (work : WorkId) (state : AssignmentState) (lifecycle : WorkLifecycle)
    {record : WorkRecord} (reason : InvalidationReason) (detail workReason : Text) (h : Consistent impl)
    (hrecord : impl.work[work]? = some record) (hstate : state.isTerminal) (hlifecycle : lifecycle.isTerminal)
    (hbook : ∀ event : Event, event.IsBookkeeping → allows event)
    (hcloses : ∀ record, record.binding.work = work → record.state.isActive → allows (.closes record)) :
    Deeds ctx allows (stale, impl)
        (stale, settleWork ctx.now impl work state reason detail lifecycle workReason) ∧
      ∀ other, ((settleWork ctx.now impl work state reason detail lifecycle workReason).ledger.works other).map
        WorkEntry.request = (impl.ledger.works other).map WorkEntry.request := by
  let closed := closeWork ctx.now impl work state reason detail
  have hclosed : Deeds ctx allows (stale, impl) (stale, closed) := Deeds.closeWork hstate hcloses
  have hworks := (closeWork_idle work ctx.now _ reason detail h hstate).2
  obtain ⟨stored, hstored, -⟩ := stored_work closed hworks hrecord
  have hform : settleWork ctx.now impl work state reason detail lifecycle workReason =
      syncWorkLifecycleIndex (closed.setWork work { stored with lifecycle := lifecycle, reason := workReason }) work
        lifecycle := by
    exact congrArg (syncWorkLifecycleIndex · work lifecycle) (modifyWork_eq_setWork hstored)
  rw [hform]
  refine ⟨hclosed.trans (Deeds.single (.settle work stored lifecycle workReason hstored hlifecycle) (hbook _ trivial)),
    fun other => ?_⟩
  rw [ledger_of_core (core_syncWorkLifecycleIndex _ _ _), ledger_setWork, ← hworks]
  by_cases hother : other = work
  · subst hother
    simp [Ledger.setWork, Impl.ledger, closed, hstored, WorkRecord.entry]
  · simp [Ledger.setWork, Function.update_of_ne hother, closed]

theorem cancelWorkCommit_deeds {work : WorkId} {generation : WorkGeneration} {reason : Text} (h : Consistent impl)
    (hbook : ∀ event : Event, event.IsBookkeeping → allows event)
    (hcloses : ∀ record, record.binding.work = work → record.state.isActive → allows (.closes record)) :
    Deeds ctx allows (stale, impl) (stale, (cancelWorkCommit ctx.now impl work generation reason).2) := by
  refine Deeds.guarded fun record hcheck => ?_
  unfold cancelTarget at hcheck
  simp only [except_bind_eq_ok, lookupOrFail_eq_ok] at hcheck
  obtain ⟨found, hfound, -⟩ := hcheck
  split
  · exact .refl
  · split
    · exact .refl
    · exact (settleWork_deeds _ _ _ _ _ _ h hfound rfl rfl hbook hcloses).1.trans (Deeds.revise hbook)

theorem expireDeadlines_deeds (h : Consistent impl) (hbook : ∀ event : Event, event.IsBookkeeping → allows event)
    (hcloses : ∀ record entry, impl.ledger.works record.binding.work = some entry → entry.request.LapsedAt ctx.now →
      record.state.isActive → allows (.closes record)) :
    Deeds ctx allows (stale, impl) (stale, (expireDeadlines ctx.now impl).2) := by
  let loops (acc : Impl × Bool) : Prop := Deeds ctx allows (stale, impl) (stale, acc.1) ∧
    ∀ other, (acc.1.ledger.works other).map WorkEntry.request = (impl.ledger.works other).map WorkEntry.request
  have hloop : loops (impl.work.keys.foldl (expireDeadline ctx.now) (impl, false)) := by
    refine List.foldlRecOn (motive := loops) _ _ ⟨.refl, fun _ => rfl⟩ fun acc hacc work _ => ?_
    unfold expireDeadline
    split
    · exact hacc
    · next record hrecord =>
      split
      · next hpassed =>
        have hconsistent : Consistent acc.1 := hacc.1.consistent h
        have hentry : acc.1.ledger.works work = some record.entry := by simp [Impl.ledger, hrecord]
        have hrequest := hacc.2 work
        rw [hentry] at hrequest
        obtain ⟨entry, hold, hsame⟩ := Option.map_eq_some_iff.mp hrequest.symm
        have hlapsed : entry.request.LapsedAt ctx.now := by
          rw [hsame]
          exact deadlinePassed_lapsed hpassed
        obtain ⟨hdeeds, hrequests⟩ := settleWork_deeds _ .expired .expired .rejected "work deadline passed" "deadline passed" hconsistent hrecord rfl rfl hbook
          fun closed hwork => hcloses closed entry (hwork ▸ hold) hlapsed
        exact ⟨hacc.1.trans hdeeds, fun other => (hrequests other).trans (hacc.2 other)⟩
      · exact hacc
  unfold expireDeadlines
  simp only
  split
  · exact hloop.1.trans (Deeds.revise hbook)
  · exact hloop.1

/-! ### Commits and batches -/

private theorem commitLocked_deeds {generation : WorkGeneration} {binding : AssignmentBinding} {committed : Impl}
    (hcommit : commitLocked ctx impl binding.work generation binding = .ok committed)
    (hcommits : allows (.commits binding)) : Deeds ctx allows (stale, impl) (stale, committed) := by
  obtain ⟨work, hcheck, rfl⟩ := commitLocked_ok hcommit
  exact Deeds.single (.commit generation binding work hcheck) hcommits

theorem scheduleCommit_deeds {generation : WorkGeneration} {decision : ScheduleDecision} {binding : AssignmentBinding}
    (hcommits : allows (.commits binding)) :
    Deeds ctx allows (stale, impl) (stale, (scheduleCommit ctx impl binding.work generation decision binding).2) := by
  unfold scheduleCommit
  cases hcommit : commitLocked ctx impl binding.work generation binding with
  | error rejection => exact .refl
  | ok committed =>
    simp only
    split <;> exact commitLocked_deeds hcommit hcommits

/-- The counters of rounds of a work item change. -/
private theorem tally_deeds {work : WorkId} {update : WorkRecord → WorkRecord}
    (hbook : ∀ event : Event, event.IsBookkeeping → allows event)
    (hgist : ∀ record, (update record).gist = record.gist) :
    Deeds ctx allows (stale, impl) (stale, impl.modifyWork work update) := by
  cases hwork : impl.work[work]? with
  | none =>
    unfold Impl.modifyWork
    rw [modify_eq_self hwork]
  | some record =>
    rw [modifyWork_eq_setWork hwork]
    exact Deeds.single (.tally work record _ hwork (hgist record)) (hbook _ trivial)

theorem batchItem_deeds {request : ScheduleRequest} {first : Bool} {state : BatchState} (id : WorkId)
    (h : Consistent state.impl) (hbook : ∀ event : Event, event.IsBookkeeping → allows event)
    (hcommits : ∀ binding, allows (.commits binding)) :
    Deeds ctx allows (stale, state.impl) (stale, (batchItem ctx request first state id).impl) := by
  have hpassed : Deeds ctx allows (stale, state.impl) (stale, state.impl.modifyWork id passOver) :=
    tally_deeds hbook fun _ => rfl
  unfold batchItem
  cases hwork : state.impl.work[id]? with
  | none => exact .refl
  | some record =>
    simp only
    split
    · split
      · exact hpassed
      · exact .refl
    · cases hplan : (planLocked ctx state.impl record).binding with
      | none =>
        simp only
        split
        · split
          · exact .refl
          · exact hpassed
        · exact .refl
      | some binding =>
        simp only
        split
        · split <;> exact .refl
        · obtain ⟨hbound, -⟩ := planned_of_plan h hwork hplan
          have hkey : record.request.id = binding.work := (h.workKey id record hwork).trans hbound.symm
          rw [hkey]
          cases hcommit : commitLocked ctx state.impl binding.work record.request.generation binding with
          | error rejection => exact .refl
          | ok committed =>
            exact (commitLocked_deeds hcommit (hcommits binding)).trans (tally_deeds hbook fun _ => rfl)

private theorem batchPasses_deeds {request : ScheduleRequest} {candidates : List WorkId} (passes : Nat) (first : Bool)
    (state : BatchState) (h : Consistent state.impl) (hbook : ∀ event : Event, event.IsBookkeeping → allows event)
    (hcommits : ∀ binding, allows (.commits binding)) :
    Deeds ctx allows (stale, state.impl) (stale, (batchPasses ctx request candidates passes first state).impl) :=
  batchPasses_keeps (motive := fun after => Deeds ctx allows (stale, state.impl) (stale, after.impl))
    (fun _ _ id hacc => hacc.trans (batchItem_deeds id (hacc.consistent h) hbook hcommits)) (fun _ _ hacc => hacc) passes
    first .refl

theorem scheduleBatch_deeds {request : ScheduleRequest} (h : Consistent impl)
    (hbook : ∀ event : Event, event.IsBookkeeping → allows event) (hcommits : ∀ binding, allows (.commits binding)) :
    Deeds ctx allows (stale, impl) (stale, (scheduleBatch ctx impl request).2) := by
  unfold scheduleBatch
  split
  · exact .refl
  · simp only
    split
    · exact .refl
    · exact (batchPasses_deeds _ true { impl := impl } h hbook hcommits).trans
        (Deeds.quiet hbook rfl (Quiet.of_core rfl))

/-! ### Dispatch and observations -/

theorem dispatchCommit_deeds {id : AssignmentId} {generation : AssignmentGeneration}
    (hbook : ∀ event : Event, event.IsBookkeeping → allows event) (hadvances : allows (.advances id)) :
    Deeds ctx allows (stale, impl) (stale, (dispatchCommit ctx impl id generation).2) := by
  unfold dispatchCommit
  cases hcheck : handoffCheck ctx impl id generation with
  | error rejection => exact .refl
  | ok record =>
    obtain ⟨hrecord, -, hstate, -⟩ := handoffCheck_ok hcheck
    have hactive : record.state.isActive := by
      rw [hstate]
      rfl
    let handed := impl.setAssignment id (record.handOff ctx.now impl.policy.assignmentLeaseTtlMs)
    let renewed := renewLease handed record.binding.lease (ctx.now + impl.policy.assignmentLeaseTtlMs)
    have hhanded : Deeds ctx allows (stale, impl) (stale, handed) :=
      Deeds.single (.advance id record _ hrecord hactive rfl rfl) hadvances
    have hrenewed : Deeds ctx allows (stale, handed) (stale, renewed) :=
      Deeds.quiet hbook rfl (Quiet.renewLease handed record.binding.lease _)
    exact (hhanded.trans hrenewed).trans (Deeds.revise hbook)

/-- An observation is a chain of deeds when its body is one for every stored record. -/
private theorem observing_deeds {operation : Text} {id : AssignmentId} {generation : AssignmentGeneration}
    {boot : AgentBootId} {body : AssignmentRecord → Step}
    (hbody : ∀ record, impl.assignments[id]? = some record →
      Deeds ctx allows (stale, impl) (stale, (body record).2)) :
    Deeds ctx allows (stale, impl) (stale, (observing impl operation id generation boot body).2) := by
  unfold observing
  cases hlookup : lookupAssignment impl id generation boot with
  | error problem => exact .refl
  | ok record => exact hbody record (lookupAssignment_stored hlookup)

theorem acknowledge_deeds {id : AssignmentId} {generation : AssignmentGeneration} {dispatchId : DispatchId}
    {dispatchGeneration : DispatchGeneration} {boot : AgentBootId}
    (hbook : ∀ event : Event, event.IsBookkeeping → allows event) (hadvances : allows (.advances id))
    (hcloses : ∀ record, impl.assignments[id]? = some record → allows (.closes record)) :
    Deeds ctx allows (stale, impl)
      (stale, (acknowledge ctx.now impl id generation dispatchId dispatchGeneration boot).2) := by
  refine observing_deeds fun record hrecord => ?_
  split
  · exact .refl
  · split
    · exact .refl
    · split
      · exact .refl
      · split
        · exact .refl
        · next hdispatched =>
          split
          · exact Deeds.closeAssignment rfl hcloses
          · have hstate : record.state = .dispatched := by simpa using hdispatched
            have hactive : record.state.isActive := by
              rw [hstate]
              rfl
            have hacknowledged : Deeds ctx allows (stale, impl)
                (stale, impl.setAssignment id { record with state := .acknowledged, acknowledgedAtMs := ctx.now }) :=
              Deeds.single (.advance id record _ hrecord hactive rfl rfl) hadvances
            exact hacknowledged.trans (Deeds.revise hbook)

theorem markExecuting_deeds {id : AssignmentId} {generation : AssignmentGeneration} {boot : AgentBootId}
    (hbook : ∀ event : Event, event.IsBookkeeping → allows event) (hadvances : allows (.advances id))
    (hcloses : ∀ record, impl.assignments[id]? = some record → allows (.closes record)) :
    Deeds ctx allows (stale, impl) (stale, (markExecuting ctx.now impl id generation boot).2) := by
  refine observing_deeds fun record hrecord => ?_
  split
  · exact .refl
  · split
    · exact .refl
    · next hawaits =>
      split
      · exact Deeds.closeAssignment rfl hcloses
      · have hactive : record.state.isActive := by
          cases hstate : record.state <;> simp_all [AssignmentState.isActive]
        have hexecuting : Deeds ctx allows (stale, impl)
            (stale, impl.setAssignment id { record with state := .executing }) :=
          Deeds.single (.advance id record _ hrecord hactive rfl rfl) hadvances
        exact (hexecuting.trans (Deeds.single (.refreshWork record.binding.work) (hbook _ trivial))).trans
          (Deeds.revise hbook)

private theorem recount_deeds (hbook : ∀ event : Event, event.IsBookkeeping → allows event) (agent : AgentId) :
    Deeds ctx allows (stale, impl) (stale, refreshAgentAccounting impl agent) :=
  Deeds.single (.recount agent) (hbook _ trivial)

theorem release_deeds {id : AssignmentId} {generation : AssignmentGeneration} {boot : AgentBootId} {reason : Text}
    (hbook : ∀ event : Event, event.IsBookkeeping → allows event)
    (hcloses : ∀ record, impl.assignments[id]? = some record → allows (.closes record)) :
    Deeds ctx allows (stale, impl) (stale, (release ctx.now impl id generation boot reason).2) := by
  refine observing_deeds fun record _ => ?_
  split
  · exact .refl
  · exact (Deeds.closeAssignment rfl hcloses).trans (recount_deeds hbook record.binding.agent)

private theorem countOutcome_deeds {agent : AgentId} {count : AgentRecord → AgentRecord}
    (hbook : ∀ event : Event, event.IsBookkeeping → allows event) (hgist : ∀ record, (count record).gist = record.gist)
    (hrecent : ∀ record, (count record).recentAssignments = record.recentAssignments) :
    Deeds ctx allows (stale, impl) (stale, countOutcome impl agent count) :=
  (note_deeds hbook hgist hrecent).trans (recount_deeds hbook agent)

private theorem settleIfIdle_deeds {work : WorkId} {lifecycle : WorkLifecycle} {reason : Text}
    (hbook : ∀ event : Event, event.IsBookkeeping → allows event) (hlifecycle : lifecycle.isTerminal) :
    Deeds ctx allows (stale, impl) (stale, settleIfIdle impl work lifecycle reason) := by
  unfold settleIfIdle
  cases hwork : impl.work[work]? with
  | none => exact .refl
  | some record =>
    simp only
    split
    · exact Deeds.single (.settle work record lifecycle reason hwork hlifecycle) (hbook _ trivial)
    · exact .refl

/-- The bookkeeping at the end of an outcome. -/
private theorem tallyOutcome_deeds {queue : QueueId} {work : WorkId} {update : QueueRecord → QueueRecord}
    (hbook : ∀ event : Event, event.IsBookkeeping → allows event) (hupdate : ∀ record, (update record).id = record.id) :
    Deeds ctx allows (stale, impl) (stale, (releaseTenant (modifyQueue impl queue update) work).revise) := by
  have hqueued : Deeds ctx allows (stale, impl) (stale, modifyQueue impl queue update) :=
    Deeds.quiet hbook rfl (Quiet.modifyQueue _ _ hupdate)
  have hreleased : Deeds ctx allows (stale, modifyQueue impl queue update)
      (stale, releaseTenant (modifyQueue impl queue update) work) := by
    refine Deeds.quiet hbook ?_ (Quiet.releaseTenant _ work)
    unfold releaseTenant
    split <;> rfl
  exact (hqueued.trans hreleased).trans (Deeds.revise hbook)

theorem completeAssignment_deeds {id : AssignmentId} {generation : AssignmentGeneration} {boot : AgentBootId}
    (hbook : ∀ event : Event, event.IsBookkeeping → allows event)
    (hcloses : ∀ record, impl.assignments[id]? = some record → allows (.closes record)) :
    Deeds ctx allows (stale, impl) (stale, (completeAssignment ctx.now impl id generation boot).2) := by
  refine observing_deeds fun record _ => ?_
  split
  · exact .refl
  · let closed := closeAssignment ctx.now impl id .completed .workCompleted "assignment completed"
    let counted := countOutcome closed record.binding.agent fun agent =>
      { agent with assignmentsCompleted := agent.assignmentsCompleted + 1 }
    let settled := settleIfIdle counted record.binding.work .completed "completed"
    have hclosed : Deeds ctx allows (stale, impl) (stale, closed) := Deeds.closeAssignment rfl hcloses
    have hcounted : Deeds ctx allows (stale, closed) (stale, counted) := countOutcome_deeds hbook (fun _ => rfl) fun _ => rfl
    have hsettled : Deeds ctx allows (stale, counted) (stale, settled) := settleIfIdle_deeds hbook rfl
    exact ((hclosed.trans hcounted).trans hsettled).trans (tallyOutcome_deeds hbook fun _ => rfl)

theorem failAssignment_deeds {id : AssignmentId} {generation : AssignmentGeneration} {boot : AgentBootId}
    {reason : Text} (hbook : ∀ event : Event, event.IsBookkeeping → allows event)
    (hcloses : ∀ record, impl.assignments[id]? = some record → allows (.closes record)) :
    Deeds ctx allows (stale, impl) (stale, (failAssignment ctx.now impl id generation boot reason).2) := by
  refine observing_deeds fun record _ => ?_
  split
  · exact .refl
  · let closed := closeAssignment ctx.now impl id .failed .workFailed (reasonOr reason "failed")
    let counted := countOutcome closed record.binding.agent fun agent =>
      { agent with assignmentsFailed := agent.assignmentsFailed + 1 }
    let settled := settleIfIdle counted record.binding.work .failed "failed"
    have hclosed : Deeds ctx allows (stale, impl) (stale, closed) := Deeds.closeAssignment rfl hcloses
    have hcounted : Deeds ctx allows (stale, closed) (stale, counted) := countOutcome_deeds hbook (fun _ => rfl) fun _ => rfl
    have hsettled : Deeds ctx allows (stale, counted) (stale, settled) := settleIfIdle_deeds hbook rfl
    exact ((hclosed.trans hcounted).trans hsettled).trans (tallyOutcome_deeds hbook fun _ => rfl)

theorem rejectAssignment_deeds {id : AssignmentId} {generation : AssignmentGeneration} {boot : AgentBootId}
    {reason : Text} (hbook : ∀ event : Event, event.IsBookkeeping → allows event)
    (hcloses : ∀ record, impl.assignments[id]? = some record → allows (.closes record)) :
    Deeds ctx allows (stale, impl) (stale, (rejectAssignment ctx.now impl id generation boot reason).2) := by
  refine observing_deeds fun record _ => ?_
  split
  · exact .refl
  · exact (Deeds.closeAssignment rfl hcloses).trans (tallyOutcome_deeds hbook fun _ => rfl)

end Work

end AgentScheduler
