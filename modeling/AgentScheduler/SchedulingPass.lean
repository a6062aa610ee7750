import AgentScheduler.SessionLoss

/-! `run_scheduling_pass` and `push_assignment`, with whatever else goes on between their locked sections. -/
namespace AgentScheduler
open Std ByteCodec Relation

/-- `AssignWorkMessage`. -/
structure AssignWorkMessage where
  binding : AssignmentBinding := {}
  kind : Text := ""
  payloadRef : Text := ""
deriving DecidableEq

/-- The encoder of `AssignWorkMessage`. -/
def AssignWorkMessage.puts (message : AssignWorkMessage) (limits : ResourceLimits) : List Put :=
  writeBinding message.binding ++ writeText message.kind limits.maxIdentifierSize ++
    writeText message.payloadRef limits.maxStringSize

/-- One call of `push_assignment` that has returned. -/
structure Push where
  message : AssignWorkMessage
  /-- what `work_status` answered -/
  work : Option WorkRecord
  /-- the session that queued the message, if one did -/
  session : Option SessionId
  /-- the state the assignment was left in -/
  left : Option AssignmentState

/-- What a scheduling pass is in the middle of. -/
inductive PassStage
  | idle
  /-- between the two sections of `dispatch` -/
  | dispatching (binding : AssignmentBinding)
  /-- dispatched, and the work is not looked up yet -/
  | dispatched (binding handoff : AssignmentBinding)
  /-- the message is made, and no session is looked up yet -/
  | addressed (binding : AssignmentBinding) (message : AssignWorkMessage) (work : Option WorkRecord)
  /-- `push_assignment` holds the session -/
  | routed (binding : AssignmentBinding) (message : AssignWorkMessage) (work : Option WorkRecord) (session : SessionId)

/-- `run_scheduling_pass` after its batch: the assignments still to dispatch, and what it has done so far. -/
structure SchedulingPass where
  pending : List AssignmentBinding := []
  stage : PassStage := .idle
  /-- the calls of `dispatch` -/
  offers : List (AssignmentId × AssignmentGeneration) := []
  handoffs : List AssignmentBinding := []
  pushes : List Push := []

/-- What a step of a pass is. -/
inductive PassAction
  /-- the first section of the next `dispatch` -/
  | offer
  /-- its second section, of the call at a position -/
  | handOff (position : Nat)
  | readWork
  | findSession
  | push
  /-- anything else that goes on in the coordinator -/
  | other (action : Action)

/-- The state of a stored assignment. -/
def Impl.assignmentState (impl : Impl) (id : AssignmentId) : Option AssignmentState :=
  (impl.assignments[id]?).map AssignmentRecord.state

namespace SchedulingPass

/-- What the pass does with the result of a `dispatch`. -/
def answer (pass : SchedulingPass) (binding : AssignmentBinding) (result : DispatchResult) : SchedulingPass :=
  if result.outcome = .assigned then
    { pass with
      stage := .dispatched binding (result.handoff.getD binding)
      handoffs := pass.handoffs ++ result.handoff.toList }
  else { pass with stage := .idle }

/-- The end of a `push_assignment`, whose result the pass ignores. -/
def pushed (pass : SchedulingPass) (impl : Impl) (message : AssignWorkMessage) (work : Option WorkRecord)
    (session : Option SessionId) : SchedulingPass :=
  { pass with
    stage := .idle
    pushes := pass.pushes ++ [⟨message, work, session, impl.assignmentState message.binding.id⟩] }

end SchedulingPass

namespace Coordinator

/-- The request of a scheduling pass. -/
def passRequest (coordinator : Coordinator) : ScheduleRequest :=
  { maxAssignments := coordinator.options.limits.maxBatchAssignments }

/-- The batch of a scheduling pass; only its decisions that carry an assignment are looked at. -/
def beginPass (coordinator : Coordinator) : Coordinator × SchedulingPass :=
  if coordinator.options.autoDispatch then
    let (batch, impl) := scheduleBatch coordinator.system.context coordinator.system.impl coordinator.passRequest
    ({ coordinator with system := { coordinator.system with impl := impl } },
     { pending := batch.decisions.filterMap ScheduleDecision.assignment })
  else (coordinator, {})

/-- The session that `push_assignment` finds for an incarnation. -/
def route (coordinator : Coordinator) (agent : AgentId) (boot : AgentBootId) : Option SessionId :=
  match coordinator.agentSessions[agent]? with
  | some (current, id) => if current = boot ∧ (coordinator.sessions[id]?).isSome then some id else none
  | none => none

/-- One step of a pass; `none` when the step is not possible. -/
def passStep (coordinator : Coordinator) (pass : SchedulingPass) : PassAction → Option (Coordinator × SchedulingPass)
  | .offer =>
    match pass.stage, pass.pending with
    | .idle, binding :: pending =>
      let offered := { pass with pending, offers := pass.offers ++ [(binding.id, binding.generation)] }
      match coordinator.system.step (.begin (.dispatch binding.id binding.generation)) with
      | some (.pending, system) => some ({ coordinator with system }, { offered with stage := .dispatching binding })
      | some (.dispatch result, system) => some ({ coordinator with system }, offered.answer binding result)
      | _ => none
    | _, _ => none
  | .handOff position =>
    match pass.stage, coordinator.system.calls[position]? with
    | .dispatching binding, some (.dispatch assignment generation) =>
      if assignment ≠ binding.id ∨ generation ≠ binding.generation then none
      else
        match coordinator.system.step (.finish position) with
        | some (.dispatch result, system) => some ({ coordinator with system }, pass.answer binding result)
        | _ => none
    | _, _ => none
  | .readWork =>
    match pass.stage with
    | .dispatched binding handoff =>
      let work := coordinator.system.impl.work[binding.work]?
      let kind := match work with
        | some record => record.request.kind
        | none => ""
      some (coordinator, { pass with stage := .addressed binding { binding := handoff, kind, payloadRef := "" } work })
    | _ => none
  | .findSession =>
    match pass.stage with
    | .addressed binding message work =>
      match coordinator.route binding.agent binding.boot with
      | some id => some (coordinator, { pass with stage := .routed binding message work id })
      | none => some (coordinator, pass.pushed coordinator.system.impl message work none)
    | _ => none
  | .push =>
    match pass.stage with
    | .routed _ message work id =>
      match encodeMessage .assignWork 0 (message.puts coordinator.options.limits) coordinator.options.limits,
        coordinator.sessions[id]? with
      | some frame, some session =>
        let (queued, session) := session.enqueue frame coordinator.options.limits
        some (coordinator.setSession id session,
          pass.pushed coordinator.system.impl message work (if queued then some id else none))
      -- a session that is gone has closed, and queues nothing
      | _, _ => some (coordinator, pass.pushed coordinator.system.impl message work none)
    | _ => none
  | .other action => (coordinator.step action).map fun after => (after, pass)

/-- Performs the steps of a pass in order. -/
def performPass (coordinator : Coordinator) (pass : SchedulingPass) : List PassAction → Option (Coordinator × SchedulingPass)
  | [] => some (coordinator, pass)
  | action :: actions => (coordinator.passStep pass action).bind fun after => after.1.performPass after.2 actions

end Coordinator

end AgentScheduler
