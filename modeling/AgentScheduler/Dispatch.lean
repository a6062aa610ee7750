import AgentScheduler.Scheduler
import AgentScheduler.Scheduling

/-! Dispatch, and what agents report about the assignments they hold. -/
namespace AgentScheduler

structure DispatchResult where
  outcome : ScheduleOutcome := .noChange
  handoff : Option AssignmentBinding := none
  detail : Text := ""
deriving DecidableEq

/-- The checks of the first section of `dispatch` before authority is revalidated. -/
def dispatchGates (now : UInt64) (impl : Impl) (generation : AssignmentGeneration) (record : AssignmentRecord) :
    Except Rejection Unit := do
  refuseIf (record.binding.generation ≠ generation) .rejectStaleAssignment "assignment generation moved"
  refuseIf (¬impl.running ∨ impl.shuttingDown) .shuttingDown "scheduler is shutting down"
  refuseIf (bootIsFenced impl record.binding.boot)
    .rejectStaleAgentBoot "assignment incarnation is permanently fenced"
  refuseIf (record.state = .dispatched) .noChange "assignment is already dispatched"
  refuseIf (record.state = .revalidationRequired)
    .revalidationRequired "assignment requires revalidation before dispatch"
  refuseIf (record.state ≠ .assigned)
    .rejectStaleAssignment ("assignment state is " ++ record.state.toText)
  refuseIf (¬record.leaseCurrent ∨ record.binding.leaseExpiresAtMs < now)
    .rejectLeaseExpired "assignment lease is not current"

/-- Every check the first locked section of `dispatch` makes. -/
def dispatchCheck (ctx : Context) (impl : Impl) (assignment : AssignmentId) (generation : AssignmentGeneration) :
    Except Rejection Unit := do
  let record ← lookupOrRefuse impl.assignments[assignment]? .rejectStaleAssignment "assignment is not known"
  dispatchGates ctx.now impl generation record
  revalidateAuthority ctx impl record

/-- The first locked section of `dispatch`. -/
def dispatchBegin (ctx : Context) (impl : Impl) (assignment : AssignmentId) (generation : AssignmentGeneration) :
    Except DispatchResult Unit :=
  match dispatchCheck ctx impl assignment generation with
  | .error (outcome, detail) => .error { outcome, detail }
  | .ok () => .ok ()

/-- The checks of the second section of `dispatch`: the state and the bound authority, not the lease. -/
def handoffCheck (ctx : Context) (impl : Impl) (assignment : AssignmentId) (generation : AssignmentGeneration) :
    Except Rejection AssignmentRecord := do
  let record ← lookupOrRefuse impl.assignments[assignment]?
    .rejectStaleAssignment "assignment disappeared before handoff"
  refuseIf (record.binding.generation ≠ generation)
    .rejectStaleAssignment "assignment disappeared before handoff"
  refuseIf (record.state ≠ .assigned)
    (if record.state = .dispatched then .noChange else .rejectStaleAssignment)
    "assignment state changed before handoff"
  revalidateAuthority ctx impl record
  return record

/-- The record a handoff leaves: dispatched, with a renewed lease. -/
def AssignmentRecord.handOff (record : AssignmentRecord) (now ttl : UInt64) : AssignmentRecord :=
  { record with
    state := .dispatched
    dispatchedAtMs := now
    leaseCurrent := true
    binding := { record.binding with leaseExpiresAtMs := now + ttl } }

/-- Renews a stored lease. -/
def renewLease (impl : Impl) (lease : LeaseId) (expiresAtMs : UInt64) : Impl :=
  { impl with
    leases := impl.leases.modify lease fun stored => { stored with expiresAtMs := expiresAtMs, current := true } }

/-- The second locked section of `dispatch`. -/
def dispatchCommit (ctx : Context) (impl : Impl) (assignment : AssignmentId) (generation : AssignmentGeneration) :
    DispatchResult × Impl :=
  match handoffCheck ctx impl assignment generation with
  | .error (outcome, detail) => ({ outcome, detail }, impl)
  | .ok record =>
    let handed := record.handOff ctx.now impl.policy.assignmentLeaseTtlMs
    let impl := renewLease (impl.setAssignment assignment handed) record.binding.lease
      handed.binding.leaseExpiresAtMs
    ({ outcome := .assigned
       handoff := some handed.binding
       detail := "revalidated and handed off" }, impl.revise)

/-- `lookup_assignment`: the record an observation may act on. A zero boot skips the boot comparison. -/
def lookupAssignment (impl : Impl) (id : AssignmentId) (generation : AssignmentGeneration) (boot : AgentBootId) :
    Except Rejection AssignmentRecord := do
  let record ← lookupOrRefuse impl.assignments[id]? .rejectStaleAssignment "assignment is not known"
  refuseIf (record.binding.generation ≠ generation) .rejectStaleAssignment "assignment generation moved"
  refuseIf (¬boot.isZero ∧ record.binding.boot ≠ boot)
    .rejectStaleAgentBoot "observation names a different incarnation"
  refuseIf (bootIsFenced impl record.binding.boot) .rejectStaleAgentBoot "incarnation is fenced"
  let agent ← lookupOrRefuse impl.agents[record.binding.agent]?
    .rejectStaleAgentBoot "incarnation is no longer current"
  refuseIf (agent.descriptor.boot ≠ record.binding.boot)
    .rejectStaleAgentBoot "incarnation is no longer current"
  return record

/-- Runs the body on the looked-up record; `code_for` maps every lookup problem to a stale generation. -/
def observing (impl : Impl) (operation : Text) (id : AssignmentId) (generation : AssignmentGeneration)
    (boot : AgentBootId) (body : AssignmentRecord → Step) : Step :=
  match lookupAssignment impl id generation boot with
  | .error (outcome, problem) => (.error (makeError .staleGeneration operation id.toText problem outcome), impl)
  | .ok record => body record

/-- Whether the lease of a record still covers `now`. -/
def AssignmentRecord.leaseCovers (record : AssignmentRecord) (now : UInt64) : Bool :=
  record.leaseCurrent && now ≤ record.binding.leaseExpiresAtMs

/-- Closes an assignment whose lease ran out and reports it. -/
def expireObserved (now : UInt64) (impl : Impl) (operation : Text) (id : AssignmentId) (closed reported : Text) :
    Step :=
  (.error (makeError .leaseExpired operation id.toText reported .rejectLeaseExpired),
   closeAssignment now impl id .expired .leaseExpired closed)

/-- `AgentScheduler::acknowledge`. -/
def acknowledge (now : UInt64) (impl : Impl) (id : AssignmentId) (generation : AssignmentGeneration)
    (dispatchId : DispatchId) (dispatchGeneration : DispatchGeneration) (boot : AgentBootId) : Step :=
  let fail (code : ErrorCode) (detail : Text) (outcome : ScheduleOutcome) : Step :=
    (.error (makeError code "acknowledge" id.toText detail outcome), impl)
  observing impl "acknowledge" id generation boot fun record =>
    if record.binding.dispatch ≠ dispatchId ∨ record.binding.dispatchGeneration ≠ dispatchGeneration then
      fail .staleGeneration "dispatch identity or generation does not match the assignment"
        .rejectStaleAssignment
    else if record.state = .acknowledged ∨ record.state = .executing then (.ok (), impl)
    else if record.state.isTerminal then
      fail .staleGeneration ("assignment is terminal: " ++ record.state.toText) .rejectStaleAssignment
    else if record.state ≠ .dispatched then
      fail .conflict ("assignment is not awaiting acknowledgement: " ++ record.state.toText) .rejectConflict
    else if ¬record.leaseCovers now then
      expireObserved now impl "acknowledge" id "lease expired before acknowledgement"
        "assignment lease expired before acknowledgement"
    else
      (.ok (), (impl.setAssignment id { record with state := .acknowledged, acknowledgedAtMs := now }).revise)

/-- `AgentScheduler::mark_executing`. -/
def markExecuting (now : UInt64) (impl : Impl) (id : AssignmentId) (generation : AssignmentGeneration)
    (boot : AgentBootId) : Step :=
  let fail (code : ErrorCode) (detail : Text) (outcome : ScheduleOutcome) : Step :=
    (.error (makeError code "mark_executing" id.toText detail outcome), impl)
  observing impl "mark_executing" id generation boot fun record =>
    if record.state.isTerminal then fail .staleGeneration "assignment is terminal" .rejectStaleAssignment
    else if record.state ≠ .acknowledged ∧ record.state ≠ .dispatched ∧ record.state ≠ .executing then
      fail .conflict "assignment has not been acknowledged" .rejectConflict
    else if ¬record.leaseCovers now then
      expireObserved now impl "mark_executing" id "lease expired before execution"
        "assignment lease expired before execution"
    else
      let impl := impl.setAssignment id { record with state := .executing }
      (.ok (), (refreshWorkAccounting impl record.binding.work).revise)

/-- The text of an observation, or its default. -/
def reasonOr (reason fallback : Text) : Text := if reason.isEmpty then fallback else reason

/-- `AgentScheduler::release`. -/
def release (now : UInt64) (impl : Impl) (id : AssignmentId) (generation : AssignmentGeneration)
    (boot : AgentBootId) (reason : Text) : Step :=
  observing impl "release" id generation boot fun record =>
    if record.state.isTerminal then (.ok (), impl)
    else
      let impl := closeAssignment now impl id .released .leaseReleased (reasonOr reason "released")
      (.ok (), refreshAgentAccounting impl record.binding.agent)

/-- Counts an outcome on the agent of an assignment and refreshes its accounting. -/
def countOutcome (impl : Impl) (agent : AgentId) (count : AgentRecord → AgentRecord) : Impl :=
  refreshAgentAccounting (impl.modifyAgent agent count) agent

/-- Gives a work item without active assignments a terminal lifecycle. -/
def settleIfIdle (impl : Impl) (work : WorkId) (lifecycle : WorkLifecycle) (reason : Text) : Impl :=
  match impl.work[work]? with
  | none => impl
  | some record =>
    if record.currentAssignments = 0 then
      syncWorkLifecycleIndex (impl.setWork work { record with lifecycle := lifecycle, reason := reason })
        work lifecycle
    else impl

/-- Takes an active assignment off the tenant of a work item. -/
def releaseTenant (impl : Impl) (work : WorkId) : Impl :=
  match impl.work[work]? with
  | none => impl
  | some record =>
    { impl with
      tenants := impl.tenants.modify record.request.requirements.tenant fun tenant =>
        { tenant with activeAssignments := tenant.activeAssignments - 1 } }

/-- Updates the stored record of a queue. -/
def modifyQueue (impl : Impl) (queue : QueueId) (update : QueueRecord → QueueRecord) : Impl :=
  { impl with queues := impl.queues.modify queue update }

/-- `AgentScheduler::complete_assignment`. -/
def completeAssignment (now : UInt64) (impl : Impl) (id : AssignmentId) (generation : AssignmentGeneration)
    (boot : AgentBootId) : Step :=
  observing impl "complete_assignment" id generation boot fun record =>
    if record.state.isTerminal then (.ok (), impl)
    else
      let impl := closeAssignment now impl id .completed .workCompleted "assignment completed"
      let impl := countOutcome impl record.binding.agent fun agent =>
        { agent with assignmentsCompleted := agent.assignmentsCompleted + 1 }
      let impl := settleIfIdle impl record.binding.work .completed "completed"
      let impl := modifyQueue impl record.binding.queue fun queue =>
        { queue with completedCount := queue.completedCount + 1 }
      (.ok (), (releaseTenant impl record.binding.work).revise)

/-- `AgentScheduler::fail_assignment`. -/
def failAssignment (now : UInt64) (impl : Impl) (id : AssignmentId) (generation : AssignmentGeneration)
    (boot : AgentBootId) (reason : Text) : Step :=
  observing impl "fail_assignment" id generation boot fun record =>
    if record.state.isTerminal then (.ok (), impl)
    else
      let impl := closeAssignment now impl id .failed .workFailed (reasonOr reason "failed")
      let impl := countOutcome impl record.binding.agent fun agent =>
        { agent with assignmentsFailed := agent.assignmentsFailed + 1 }
      let impl := settleIfIdle impl record.binding.work .failed "failed"
      let impl := modifyQueue impl record.binding.queue fun queue =>
        { queue with cancelledCount := queue.cancelledCount + 1 }
      (.ok (), (releaseTenant impl record.binding.work).revise)

/-- `AgentScheduler::reject_assignment`. -/
def rejectAssignment (now : UInt64) (impl : Impl) (id : AssignmentId) (generation : AssignmentGeneration)
    (boot : AgentBootId) (reason : Text) : Step :=
  observing impl "reject_assignment" id generation boot fun record =>
    if record.state.isTerminal then (.ok (), impl)
    else
      let impl := closeAssignment now impl id .invalidated .rejected (reasonOr reason "rejected by agent")
      let impl := modifyQueue impl record.binding.queue fun queue =>
        { queue with cancelledCount := queue.cancelledCount + 1 }
      (.ok (), (releaseTenant impl record.binding.work).revise)

end AgentScheduler
