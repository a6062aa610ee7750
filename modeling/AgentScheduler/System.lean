import AgentScheduler.Registration
import AgentScheduler.Admission
import AgentScheduler.Revalidation
import AgentScheduler.Persistence

/-! A scheduler process with its callers: every locked section is one step, and a two-phase call stays in
flight between its two sections. -/
namespace AgentScheduler

/-- The public operations with a single locked section. -/
inductive Operation
  | start
  | shutdown
  | setPolicy (policy : PolicySnapshot)
  | registerQueue (queue : QueueId) (generation : QueueGeneration) (fairnessClass : Text) (weight : UInt32)
  | publishCapabilities (agent : AgentId) (boot : AgentBootId) (profile : CapabilityProfile)
  | publishHealth (agent : AgentId) (boot : AgentBootId) (observation : HealthObservation)
  | publishAvailability (agent : AgentId) (boot : AgentBootId) (observation : AvailabilityObservation)
  | publishLoad (agent : AgentId) (boot : AgentBootId) (observation : LoadObservation)
  | heartbeat (agent : AgentId) (boot : AgentBootId) (registrationGeneration : AgentRegistrationGeneration)
  | drainAgent (agent : AgentId) (boot : AgentBootId) (force : Bool)
  | deregisterAgent (agent : AgentId) (boot : AgentBootId) (force : Bool)
  | supersedeWork (work : WorkId) (expectedGeneration : WorkGeneration) (replacement : WorkRequest)
  | expireDeadlines
  | scheduleBatch (request : ScheduleRequest)
  | acknowledge (assignment : AssignmentId) (generation : AssignmentGeneration) (dispatchId : DispatchId)
      (dispatchGeneration : DispatchGeneration) (boot : AgentBootId)
  | markExecuting (assignment : AssignmentId) (generation : AssignmentGeneration) (boot : AgentBootId)
  | release (assignment : AssignmentId) (generation : AssignmentGeneration) (boot : AgentBootId) (reason : Text)
  | completeAssignment (assignment : AssignmentId) (generation : AssignmentGeneration) (boot : AgentBootId)
  | failAssignment (assignment : AssignmentId) (generation : AssignmentGeneration) (boot : AgentBootId)
      (reason : Text)
  | rejectAssignment (assignment : AssignmentId) (generation : AssignmentGeneration) (boot : AgentBootId)
      (reason : Text)
  | revalidateAssignments
  | revalidateAgentAssignments (agent : AgentId) (boot : AgentBootId)
  | expireLeases

/-- The arguments of a public operation with two locked sections. -/
inductive Request
  | schedule (work : WorkId) (generation : WorkGeneration)
  | dispatch (assignment : AssignmentId) (generation : AssignmentGeneration)
  | registerAgent (descriptor : AgentDescriptor)
  | submitWork (request : WorkRequest)
  | cancelWork (work : WorkId) (generation : WorkGeneration) (reason : Text)
  | declareAgentLost (agent : AgentId) (boot : AgentBootId) (reason : Text)

/-- The plan a `schedule` call holds between its two sections; `era` counts the loads before it was made. -/
structure Plan where
  work : WorkId
  generation : WorkGeneration
  decision : ScheduleDecision
  binding : AssignmentBinding
  era : Nat

/-- A call between its two locked sections, with the locals it carries over. -/
inductive Call
  | schedule (plan : Plan)
  | dispatch (assignment : AssignmentId) (generation : AssignmentGeneration)
  | registerAgent (descriptor : AgentDescriptor)
  | submitWork (request : WorkRequest)
  | cancelWork (work : WorkId) (generation : WorkGeneration) (reason : Text)
  | declareAgentLost (agent : AgentId) (boot : AgentBootId) (reason : Text)

/-- What a step returns to a caller. -/
inductive Reply
  | mutation (result : MutationResult)
  | decision (decision : ScheduleDecision)
  | batch (batch : BatchDecision)
  | dispatch (result : DispatchResult)
  | report (report : RevalidationReport)
  /-- the scheduler epochs before and after a successful load -/
  | recovered (previous current : SchedulerEpoch)
  /-- the caller is still waiting, or there is none -/
  | pending

/-- One single-section operation. -/
def runOperation (ctx : Context) (impl : Impl) : Operation → Reply × Impl
  | .start => lift (start impl)
  | .shutdown => lift (shutdown ctx.now impl)
  | .setPolicy policy => lift (setPolicy ctx.now impl policy)
  | .registerQueue queue generation fairnessClass weight =>
    lift (registerQueue impl queue generation fairnessClass weight)
  | .publishCapabilities agent boot profile => lift (publishCapabilities ctx.now impl agent boot profile)
  | .publishHealth agent boot observation => lift (publishHealth ctx.now impl agent boot observation)
  | .publishAvailability agent boot observation => lift (publishAvailability ctx.now impl agent boot observation)
  | .publishLoad agent boot observation => lift (publishLoad ctx.now impl agent boot observation)
  | .heartbeat agent boot registrationGeneration =>
    lift (heartbeat ctx.now impl agent boot registrationGeneration)
  | .drainAgent agent boot force => lift (drainAgent ctx.now impl agent boot force)
  | .deregisterAgent agent boot force => lift (deregisterAgent ctx.now impl agent boot force)
  | .supersedeWork work expectedGeneration replacement =>
    lift (supersedeWork ctx.now impl work expectedGeneration replacement)
  | .expireDeadlines => lift (expireDeadlines ctx.now impl)
  | .scheduleBatch request => Prod.map .batch id (scheduleBatch ctx impl request)
  | .acknowledge assignment generation dispatchId dispatchGeneration boot =>
    lift (acknowledge ctx.now impl assignment generation dispatchId dispatchGeneration boot)
  | .markExecuting assignment generation boot => lift (markExecuting ctx.now impl assignment generation boot)
  | .release assignment generation boot reason =>
    lift (release ctx.now impl assignment generation boot reason)
  | .completeAssignment assignment generation boot =>
    lift (completeAssignment ctx.now impl assignment generation boot)
  | .failAssignment assignment generation boot reason =>
    lift (failAssignment ctx.now impl assignment generation boot reason)
  | .rejectAssignment assignment generation boot reason =>
    lift (rejectAssignment ctx.now impl assignment generation boot reason)
  | .revalidateAssignments => Prod.map .report id (revalidateAssignments ctx impl)
  | .revalidateAgentAssignments agent boot => Prod.map .report id (revalidateAgentAssignments ctx impl agent boot)
  | .expireLeases => lift (expireLeases ctx.now impl)
where
  lift (step : Step) : Reply × Impl := Prod.map .mutation id step

/-- The first locked section of a two-phase operation, which changes nothing: it answers at once or leaves a
call in flight. -/
def beginCall (ctx : Context) (impl : Impl) (era : Nat) : Request → Reply ⊕ Call
  | .schedule work generation =>
    let plan := scheduleBegin ctx impl work generation
    match plan.binding with
    | none => .inl (.decision plan.decision)
    | some binding => .inr (.schedule { work, generation, decision := plan.decision, binding, era })
  | .dispatch assignment generation =>
    match dispatchBegin ctx impl assignment generation with
    | .error result => .inl (.dispatch result)
    | .ok () => .inr (.dispatch assignment generation)
  | .registerAgent descriptor =>
    match registerAgentBegin impl descriptor with
    | .error error => .inl (.mutation (.error error))
    | .ok () => .inr (.registerAgent descriptor)
  | .submitWork request =>
    match submitWorkBegin impl request with
    | .error error => .inl (.mutation (.error error))
    | .ok true => .inl (.mutation (.ok ()))
    | .ok false => .inr (.submitWork request)
  | .cancelWork work generation reason =>
    match cancelWorkBegin impl work generation with
    | .error error => .inl (.mutation (.error error))
    | .ok true => .inl (.mutation (.ok ()))
    | .ok false => .inr (.cancelWork work generation reason)
  | .declareAgentLost agent boot reason =>
    if declareAgentLostBegin impl agent boot then .inl (.mutation (.ok ()))
    else .inr (.declareAgentLost agent boot reason)

/-- The second locked section of a two-phase operation. -/
def finishCall (ctx : Context) (impl : Impl) : Call → Reply × Impl
  | .schedule plan =>
    Prod.map .decision id (scheduleCommit ctx impl plan.work plan.generation plan.decision plan.binding)
  | .dispatch assignment generation => Prod.map .dispatch id (dispatchCommit ctx impl assignment generation)
  | .registerAgent descriptor => Prod.map .mutation id (registerAgentCommit ctx.now impl descriptor)
  | .submitWork request => Prod.map .mutation id (submitWorkCommit ctx.now impl request)
  | .cancelWork work generation reason =>
    Prod.map .mutation id (cancelWorkCommit ctx.now impl work generation reason)
  | .declareAgentLost agent boot reason =>
    Prod.map .mutation id (declareAgentLostCommit ctx.now impl agent boot reason)

/-- A scheduler instance, its surroundings, the calls in flight and the state files written so far. A state
file stands for the state it was saved from; loading it restores the image of that state. -/
structure System where
  impl : Impl
  now : UInt64
  feasibility : Option (ExternalFeasibilityRequest → ExternalFeasibilityResult)
  calls : List Call
  saved : List Impl
  loads : Nat

/-- What a step of the system is. -/
inductive Label
  /-- the clock moves forward -/
  | tick (now : UInt64)
  /-- the feasibility provider changes what it answers -/
  | provide (feasibility : Option (ExternalFeasibilityRequest → ExternalFeasibilityResult))
  | run (operation : Operation)
  | begin (request : Request)
  /-- the second section of the call at a position -/
  | finish (position : Nat)
  | save
  | load (position : Nat)
  /-- the process ends, in order or not, and a fresh instance is constructed -/
  | restart (options : SchedulerOptions) (generatedId : SchedulerId)

namespace System

def context (system : System) : Context := { now := system.now, feasibility := system.feasibility }

/-- A freshly constructed instance, before anything was saved. -/
def initial (options : SchedulerOptions) (generatedId : SchedulerId) (now : UInt64) : Option System :=
  (construct options generatedId).map fun impl =>
    { impl, now, feasibility := none, calls := [], saved := [], loads := 0 }

/-- One step; `none` when the step is not possible. -/
def step (system : System) : Label → Option (Reply × System)
  | .tick now => if system.now ≤ now then some (.pending, { system with now := now }) else none
  | .provide feasibility => some (.pending, { system with feasibility := feasibility })
  | .run operation =>
    let (reply, impl) := runOperation system.context system.impl operation
    some (reply, { system with impl := impl })
  | .begin request =>
    match beginCall system.context system.impl system.loads request with
    | .inl reply => some (reply, system)
    | .inr call => some (.pending, { system with calls := system.calls ++ [call] })
  | .finish position =>
    match system.calls[position]? with
    | none => none
    | some call =>
      let (reply, impl) := finishCall system.context system.impl call
      some (reply, { system with impl := impl, calls := system.calls.eraseIdx position })
  | .save => some (.mutation (.ok ()), { system with saved := system.saved ++ [system.impl] })
  | .load position =>
    match system.saved[position]? with
    | none => none
    | some file =>
      if system.impl.running then
        some (.mutation (.error
          (makeError .alreadyStarted "load" "" "recovery requires a stopped scheduler")), system)
      else
        let restored := restore system.impl (image file)
        some (.recovered system.impl.schedulerEpoch restored.schedulerEpoch,
          { system with impl := restored, loads := system.loads + 1 })
  | .restart options generatedId =>
    (construct options generatedId).map fun impl => (.pending, { system with impl := impl, calls := [] })

/-- Performs labels in order, as long as each of them meets a condition. -/
def perform (allowed : System → Label → Prop) [∀ system label, Decidable (allowed system label)] (system : System) :
    List Label → Option System
  | [] => some system
  | label :: labels =>
    if allowed system label then (system.step label).bind fun result => result.2.perform allowed labels else none

end System

end AgentScheduler
