import AgentScheduler.Ranking

/-! Planning, committing, and the single-item and batch scheduling operations. -/
namespace AgentScheduler

/-- Complete, inspectable result of one scheduling decision. -/
structure ScheduleDecision where
  outcome : ScheduleOutcome := .noChange
  work : WorkId := 0
  workGeneration : WorkGeneration := 0
  candidateCount : Nat := 0
  eligibleCount : Nat := 0
  candidates : List CandidateEvaluation := []
  rankingOrder : List Nat := []
  selectedAgent : AgentId := 0
  selectedAgentGeneration : AgentGeneration := 0
  selectedBoot : AgentBootId := 0
  assignment : Option AssignmentBinding := none
  tieBreakReason : Text := ""
  rejectionSummary : List Text := []
  schedulerEpoch : SchedulerEpoch := 0
  coordinatorEpoch : CoordinatorEpoch := 0
  policyGeneration : PolicyGeneration := 0
  detail : Text := ""
deriving DecidableEq

structure PlanResult where
  decision : ScheduleDecision := {}
  binding : Option AssignmentBinding := none
deriving DecidableEq

/-- Whether an explicitly parallel item still has a free slot. -/
def fanoutOpen (work : WorkRecord) : Bool :=
  work.request.mode = .parallel && work.currentAssignments < work.request.requirements.maxParallel.toNat

/-- The gates of `plan_locked` before any agent is looked at. -/
def planGates (now : UInt64) (impl : Impl) (work : WorkRecord) : Except Rejection Unit := do
  let requirements := work.request.requirements
  refuseIf (¬impl.running ∨ ¬impl.admissionOpen) .shuttingDown "admission is closed"
  refuseIf (work.lifecycle = .cancelled) .rejectCancelled "work is cancelled"
  refuseIf (work.lifecycle = .superseded) .rejectSuperseded "work is superseded"
  refuseIf work.lifecycle.isTerminal .noChange "work is terminal"
  refuseIf (¬work.lifecycle.acceptsAssignment ∧ 0 < work.currentAssignments ∧ ¬fanoutOpen work)
    .noChange "work already holds an authoritative assignment"
  refuseIf (requirements.deadlineMs ≠ 0 ∧ requirements.deadlineMs < now)
    .rejectDeadline "work deadline has passed"
  refuseIf (work.request.earliestStartMs ≠ 0 ∧ now < work.request.earliestStartMs)
    .deferred "work is not yet eligible to start"
  refuseIf (work.request.mode = .exclusive ∧ (activeExclusiveAssignment impl work.request.id).isSome)
    .noChange "work already has an authoritative exclusive assignment"
  refuseIf (work.request.mode = .parallel ∧ requirements.maxParallel.toNat ≤ work.currentAssignments)
    .noChange "explicit parallel fan-out is saturated"

/-- Every agent of the table, evaluated and, when eligible, scored. -/
def evaluateCandidates (ctx : Context) (impl : Impl) (work : WorkRecord) : List CandidateEvaluation :=
  let feasibility := evaluateFeasibility ctx work
  impl.agents.values.map fun agent =>
    let evaluation := evaluateEligibility ctx.now impl work agent feasibility
    if evaluation.eligible then scoreCandidate ctx.now impl work agent feasibility evaluation else evaluation

/-- Counts one rejection in the histogram. -/
def countRejection (histogram : List (ScheduleOutcome × Nat)) (outcome : ScheduleOutcome) :
    List (ScheduleOutcome × Nat) :=
  match histogram with
  | [] => [(outcome, 1)]
  | (key, count) :: rest =>
    if key = outcome then (key, count + 1) :: rest else (key, count) :: countRejection rest outcome

/-- The sorted rejection histogram, as text. -/
def rejectionSummary (candidates : List CandidateEvaluation) : List Text :=
  let rejected := (candidates.filter fun evaluation => !evaluation.eligible).map CandidateEvaluation.rejection
  let histogram := rejected.foldl countRejection []
  (sortBy (fun left right => left.1.ctorIdx < right.1.ctorIdx) histogram).map fun bucket =>
    bucket.1.toText ++ "=" ++ natText bucket.2

/-- The eligible candidates by index, best first. -/
def rankingOrder (candidates : List CandidateEvaluation) : List Nat :=
  let eligible := (List.range candidates.length).filter fun index =>
    (candidates.getD index {}).eligible
  sortBy (fun left right => candidateBetter (candidates.getD left {}) (candidates.getD right {})) eligible

/-- Writes the one-based rank of every ranked candidate. -/
def withRanks (candidates : List CandidateEvaluation) (order : List Nat) : List CandidateEvaluation :=
  candidates.mapIdx fun index evaluation =>
    if index ∈ order then { evaluation with rank := order.idxOf index + 1 } else evaluation

/-- Whether the tie between the two best candidates was broken by agent id. -/
def tieBroken (candidates : List CandidateEvaluation) (order : List Nat) : Bool :=
  match order with
  | winner :: runnerUp :: _ =>
    let winner := candidates.getD winner {}
    let runnerUp := candidates.getD runnerUp {}
    winner.score = runnerUp.score && winner.knownWeight = runnerUp.knownWeight
  | _ => false

/-- `tie_break_reason` of the decision. -/
def tieBreakReason (candidates : List CandidateEvaluation) (order : List Nat) : Text :=
  match order with
  | [] => ""
  | [_] => "sole eligible candidate"
  | _ =>
    if tieBroken candidates order then "equal score and evidence coverage; lowest agent id wins" else "score"

/-- Marks the selected candidate. -/
def markSelected (candidates : List CandidateEvaluation) (order : List Nat) (winner : Nat) :
    List CandidateEvaluation :=
  candidates.mapIdx fun index evaluation =>
    if index = winner then
      let tie := tieBroken candidates order
      { evaluation with
        selected := true
        tieBreakDecided := tie
        tieBreakReason := if tie then tieBreakReason candidates order else evaluation.tieBreakReason }
    else evaluation

/-- The decision fields that `plan_locked` fills in first. -/
def decisionHeader (impl : Impl) (work : WorkRecord) : ScheduleDecision where
  work := work.request.id
  workGeneration := work.request.generation
  schedulerEpoch := impl.schedulerEpoch
  coordinatorEpoch := impl.coordinatorEpoch
  policyGeneration := impl.policy.generation

/-- The binding a plan proposes for the winning agent. -/
def planBinding (now : UInt64) (impl : Impl) (work : WorkRecord) (agent : AgentRecord) : AssignmentBinding :=
  buildBinding now impl work agent ⟨work.lastAssignmentGeneration.value + 1⟩
    (if work.request.mode = .parallel then UInt32.ofNat work.currentAssignments else 0)

/-- `plan_locked`. -/
def planLocked (ctx : Context) (impl : Impl) (work : WorkRecord) : PlanResult :=
  let decision := decisionHeader impl work
  match planGates ctx.now impl work with
  | .error (outcome, detail) => { decision := { decision with outcome, detail } }
  | .ok () =>
    let evaluated := evaluateCandidates ctx impl work
    let order := rankingOrder evaluated
    let ranked := withRanks evaluated order
    let decision :=
      { decision with
        candidateCount := evaluated.length
        eligibleCount := order.length
        rejectionSummary := rejectionSummary evaluated
        rankingOrder := order
        candidates := ranked }
    match order with
    | [] =>
      { decision :=
          { decision with
            outcome := .noEligibleAgent
            detail := "no hard-eligible agent exists for this work item" } }
    | winnerIndex :: _ =>
      let winner := ranked.getD winnerIndex {}
      let decision :=
        { decision with
          candidates := markSelected ranked order winnerIndex
          selectedAgent := winner.agent
          selectedAgentGeneration := winner.agentGeneration
          selectedBoot := winner.boot
          tieBreakReason := tieBreakReason ranked order }
      match impl.agents[winner.agent]? with
      | none =>
        { decision :=
            { decision with
              outcome := .rejectStaleAgentGeneration
              detail := "selected agent disappeared during planning" } }
      | some agent =>
        let binding := planBinding ctx.now impl work agent
        { decision :=
            { decision with
              assignment := some binding
              outcome := .assigned
              detail := "hard-eligible winner under current authority" }
          binding := some binding }

/-- The authority checks of `commit_locked` on the scheduler itself. -/
def commitScheduler (impl : Impl) (binding : AssignmentBinding) : Except Rejection Unit := do
  refuseIf (¬impl.running ∨ ¬impl.admissionOpen) .shuttingDown "admission closed before commit"
  refuseIf (binding.scheduler ≠ impl.schedulerId ∨ binding.schedulerEpoch ≠ impl.schedulerEpoch)
    .rejectStaleSchedulerEpoch "scheduler epoch moved before commit"
  refuseIf (binding.coordinatorEpoch ≠ impl.coordinatorEpoch)
    .rejectStaleCoordinatorEpoch "coordinator epoch moved before commit"
  refuseIf (binding.policy ≠ impl.policy.id ∨ binding.policyGeneration ≠ impl.policy.generation)
    .rejectStalePolicy "policy generation moved before commit"

/-- The checks of `commit_locked` on the work item; of the terminal lifecycles only two are refused here. -/
def commitWork (now : UInt64) (impl : Impl) (workId : WorkId) (workGeneration : WorkGeneration)
    (binding : AssignmentBinding) (work : WorkRecord) : Except Rejection Unit := do
  let requirements := work.request.requirements
  refuseIf (work.request.generation ≠ workGeneration ∨ workGeneration ≠ binding.workGeneration)
    .rejectStaleWorkGeneration "work generation moved before commit"
  refuseIf (work.lifecycle = .cancelled) .rejectCancelled "work was cancelled before commit"
  refuseIf (work.lifecycle = .superseded) .rejectSuperseded "work was superseded before commit"
  refuseIf (¬work.lifecycle.acceptsAssignment ∧ 0 < work.currentAssignments ∧ ¬fanoutOpen work)
    .rejectConflict "work acquired an assignment before commit"
  refuseIf (requirements.deadlineMs ≠ 0 ∧ requirements.deadlineMs < now)
    .rejectDeadline "work deadline passed before commit"
  refuseIf (binding.exclusive ∧ (activeExclusiveAssignment impl workId).isSome)
    .rejectConflict "exclusive assignment already exists"
  refuseIf (¬binding.exclusive ∧ requirements.maxParallel.toNat ≤ work.currentAssignments)
    .rejectCapacity "parallel fan-out is saturated"

/-- The checks of `commit_locked` on the agent. -/
def commitAgent (now : UInt64) (impl : Impl) (workId : WorkId) (requirements : WorkRequirements)
    (binding : AssignmentBinding) (agent : AgentRecord) : Except Rejection Unit := do
  refuseIf (agent.descriptor.generation ≠ binding.agentGeneration)
    .rejectStaleAgentGeneration "agent generation moved before commit"
  refuseIf (agent.descriptor.boot ≠ binding.boot)
    .rejectStaleAgentBoot "agent incarnation replaced before commit"
  refuseIf (bootIsFenced impl binding.boot) .rejectFenced "agent incarnation fenced before commit"
  refuseIf (¬agent.lifecycle.acceptsNewWork)
    (if agent.lifecycle = .draining then .rejectDrain else .rejectLifecycle)
    ("agent lifecycle is " ++ agent.lifecycle.toText)
  refuseIf (agent.profile.generation ≠ binding.capabilityGeneration ∨
      agent.profile.profileId ≠ binding.capabilityProfile ∨ ¬capabilityFresh now impl agent)
    .rejectStaleCapability "capability generation moved before commit"
  refuseIf (agent.descriptor.maxConcurrency.toNat ≤ agent.activeAssignments)
    .rejectCapacity "agent reached capacity before commit"
  refuseIf (requirements.maxAssignmentsPerAgent.toNat ≤ activeAssignmentsOnAgent impl workId binding.agent)
    .rejectCapacity "agent already holds the maximum assignments for this work"

/-- The feasibility checks of `commit_locked`. -/
def commitFeasibility (requirements : WorkRequirements) (feasibility : ExternalFeasibilityResult) :
    Except Rejection Unit := do
  refuseIf (requirements.requireResourceFeasibility ∧ feasibility.resource ≠ .feasible)
    .rejectResourceFeasibility "external resource feasibility changed before commit"
  refuseIf (requirements.requireBudgetFeasibility ∧ feasibility.budget ≠ .feasible)
    .rejectBudget "external budget feasibility changed before commit"
  refuseIf (requirements.requireSloFeasibility ∧ feasibility.slo ≠ .feasible)
    .rejectSlo "external slo feasibility changed before commit"
  refuseIf (requirements.requireReservation ∧ feasibility.reservation ≠ .feasible)
    .rejectReservation "external reservation feasibility changed before commit"

/-- The revalidation half of `commit_locked`; it returns the work record the commit acts on. -/
def commitCheck (ctx : Context) (impl : Impl) (workId : WorkId) (workGeneration : WorkGeneration)
    (binding : AssignmentBinding) : Except Rejection WorkRecord := do
  commitScheduler impl binding
  let work ← lookupOrRefuse impl.work[workId]? .rejectInvalidRequest "work disappeared before commit"
  commitWork ctx.now impl workId workGeneration binding work
  let agent ← lookupOrRefuse impl.agents[binding.agent]? .rejectStaleAgentGeneration
    "agent disappeared before commit"
  commitAgent ctx.now impl workId work.request.requirements binding agent
  commitFeasibility work.request.requirements (evaluateFeasibility ctx work)
  return work

/-- The record a commit stores. -/
def AssignmentBinding.record (binding : AssignmentBinding) : AssignmentRecord where
  binding := binding
  state := .assigned
  leaseCurrent := true
  reason := "assigned"

/-- The lease a commit stores. -/
def AssignmentBinding.leaseRecord (binding : AssignmentBinding) : Lease where
  id := binding.lease
  generation := binding.leaseGeneration
  assignment := binding.id
  assignmentGeneration := binding.generation
  agent := binding.agent
  boot := binding.boot
  grantedAtMs := binding.createdAtMs
  expiresAtMs := binding.leaseExpiresAtMs
  current := true

/-- `index_assignment` on the stored record. -/
def indexStoredAssignment (impl : Impl) (id : AssignmentId) : Impl :=
  match impl.assignments[id]? with
  | none => impl
  | some record => indexAssignment impl record

/-- The storing half of `commit_locked`. -/
def commitApply (impl : Impl) (workId : WorkId) (work : WorkRecord) (binding : AssignmentBinding) : Impl :=
  let impl :=
    { impl with
      -- `emplace` keeps a record that is already stored under the id
      assignments := impl.assignments.insertIfNew binding.id binding.record
      leases := impl.leases.insertIfNew binding.lease binding.leaseRecord }
  let impl := impl.modifyWork workId fun record =>
    { record with lastAssignmentGeneration := binding.generation }
  let impl := indexStoredAssignment impl binding.id
  let impl := refreshAgentAccounting (refreshWorkAccounting impl workId) binding.agent
  Impl.revise
    { impl with
      assignmentsCreated := impl.assignmentsCreated + 1
      queues := impl.queues.modify binding.queue fun queue =>
        { queue with assignedCount := queue.assignedCount + 1 }
      tenants := impl.tenants.modify work.request.requirements.tenant fun tenant =>
        { tenant with activeAssignments := tenant.activeAssignments + 1 } }

/-- `commit_locked`. -/
def commitLocked (ctx : Context) (impl : Impl) (workId : WorkId) (workGeneration : WorkGeneration)
    (binding : AssignmentBinding) : Except Rejection Impl :=
  match commitCheck ctx impl workId workGeneration binding with
  | .error rejection => .error rejection
  | .ok work => .ok (commitApply impl workId work binding)

/-- The decision `schedule` returns without planning. -/
private def refusedDecision (work : WorkId) (generation : WorkGeneration) (outcome : ScheduleOutcome)
    (detail : Text) : PlanResult :=
  { decision := { outcome, work, workGeneration := generation, detail } }

/-- The first locked section of `schedule`. -/
def scheduleBegin (ctx : Context) (impl : Impl) (work : WorkId) (generation : WorkGeneration) : PlanResult :=
  match impl.work[work]? with
  | none => refusedDecision work generation .rejectInvalidRequest "work is not known"
  | some record =>
    if record.request.generation ≠ generation then
      refusedDecision work generation .rejectStaleWorkGeneration "work generation moved"
    else planLocked ctx impl record

/-- A decision whose commit was refused. -/
def ScheduleDecision.refuse (decision : ScheduleDecision) (outcome : ScheduleOutcome) (detail : Text) :
    ScheduleDecision :=
  { decision with
    outcome := outcome
    detail := detail
    assignment := none
    selectedAgent := 0
    selectedAgentGeneration := 0
    selectedBoot := 0
    tieBreakReason := ""
    candidates := decision.candidates.map fun evaluation => { evaluation with selected := false } }

/-- The second locked section of `schedule`, for a plan that carries a binding. -/
def scheduleCommit (ctx : Context) (impl : Impl) (work : WorkId) (generation : WorkGeneration)
    (decision : ScheduleDecision) (binding : AssignmentBinding) : ScheduleDecision × Impl :=
  match commitLocked ctx impl work generation binding with
  | .error (outcome, detail) => (decision.refuse outcome detail, impl)
  | .ok impl =>
    match impl.assignments[binding.id]? with
    | none => (decision, impl)
    | some stored => ({ decision with assignment := some stored.binding }, impl)

/-- One scheduling pass request. -/
structure ScheduleRequest where
  work : List WorkId := []
  queues : List QueueId := []
  maxAssignments : UInt32 := 1
  dryRun : Bool := false

structure BatchDecision where
  decisions : List ScheduleDecision := []
  examined : Nat := 0
  assigned : Nat := 0
  deferred : Nat := 0
  rejected : Nat := 0
  outcome : ScheduleOutcome := .noChange

/-- The candidates of a batch, in work order. -/
def batchCandidates (impl : Impl) (request : ScheduleRequest) : List (WorkId × WorkRecord) :=
  impl.work.toList.filter fun entry =>
    (entry.2.lifecycle.acceptsAssignment || (fanoutOpen entry.2 && 0 < entry.2.currentAssignments)) &&
    (request.queues.isEmpty || request.queues.contains entry.2.request.queue) &&
    (request.work.isEmpty || request.work.contains entry.1)

/-- One more round of being passed over; both counters saturate. -/
def passOver (record : WorkRecord) : WorkRecord :=
  { record with
    bypassCount := if record.bypassCount ≠ 0xFFFFFFFF then record.bypassCount + 1 else record.bypassCount
    starvationRounds :=
      if record.starvationRounds ≠ 0xFFFFFFFF then record.starvationRounds + 1 else record.starvationRounds }

/-- What a batch carries through its passes. -/
structure BatchState where
  impl : Impl
  batch : BatchDecision := {}
  assigned : Nat := 0
  progress : Bool := false

/-- One item of one pass of `schedule_batch`. -/
def batchItem (ctx : Context) (request : ScheduleRequest) (first : Bool) (state : BatchState) (id : WorkId) :
    BatchState :=
  match state.impl.work[id]? with
  | none => state
  | some record =>
    let batch := if first then { state.batch with examined := state.batch.examined + 1 } else state.batch
    let state := { state with batch := batch }
    if request.maxAssignments.toNat ≤ state.assigned then
      if first then
        { state with
          impl := state.impl.modifyWork id passOver
          batch := { batch with deferred := batch.deferred + 1 } }
      else state
    else
      let plan := planLocked ctx state.impl record
      let logged (batch : BatchDecision) (decision : ScheduleDecision) : BatchDecision :=
        if first then { batch with decisions := batch.decisions ++ [decision] } else batch
      match plan.binding with
      | none =>
        if first then
          if plan.decision.outcome = .deferred ∨ plan.decision.outcome = .noChange then
            { state with batch := logged { batch with deferred := batch.deferred + 1 } plan.decision }
          else
            { state with
              impl := state.impl.modifyWork id passOver
              batch := logged { batch with rejected := batch.rejected + 1 } plan.decision }
        else state
      | some binding =>
        if request.dryRun then
          if first then
            { state with batch := logged { batch with deferred := batch.deferred + 1 } plan.decision }
          else state
        else
          match commitLocked ctx state.impl record.request.id record.request.generation binding with
          | .error (outcome, detail) =>
            let decision := { plan.decision with outcome, detail, assignment := none }
            let batch := if first then { batch with rejected := batch.rejected + 1 } else batch
            { state with batch := logged batch decision }
          | .ok impl =>
            { impl := impl.modifyWork id fun record => { record with bypassCount := 0, starvationRounds := 0 }
              batch := logged { batch with assigned := batch.assigned + 1 } plan.decision
              assigned := state.assigned + 1
              progress := true }

/-- The items of one pass, in fairness order; later passes keep only open parallel fan-out. -/
def batchOrder (impl : Impl) (first : Bool) (candidates : List WorkId) : List WorkId :=
  let live := candidates.filterMap fun id =>
    match impl.work[id]? with
    | none => none
    | some record =>
      if first || (fanoutOpen record && 0 < record.currentAssignments) then
        some (fairnessKey impl record, id)
      else none
  -- `std::stable_sort`
  (sortBy (fun left right => fairnessBefore left.1 right.1) live).map Prod.snd

/-- The pass loop of `schedule_batch`; the first argument counts the passes left. -/
def batchPasses (ctx : Context) (request : ScheduleRequest) (candidates : List WorkId) :
    Nat → Bool → BatchState → BatchState
  | 0, _, state => state
  | passes + 1, first, state =>
    if request.maxAssignments.toNat ≤ state.assigned then state
    else
      let order := batchOrder state.impl first candidates
      if order.isEmpty then state
      else
        let state := order.foldl (batchItem ctx request first) { state with progress := false }
        if state.progress then batchPasses ctx request candidates passes false state else state

/-- `AgentScheduler::schedule_batch`. -/
def scheduleBatch (ctx : Context) (impl : Impl) (request : ScheduleRequest) : BatchDecision × Impl :=
  if ¬impl.running ∨ ¬impl.admissionOpen then ({ outcome := .shuttingDown }, impl)
  else
    let candidates := batchCandidates impl request
    let maxFanout := candidates.foldl
      (fun fanout entry => max fanout entry.2.request.requirements.maxParallel.toNat) 1
    if impl.limits.maxCandidatesExamined.toNat < candidates.length then
      ({ outcome := .rejectLimitExceeded }, impl)
    else
      let passLimit := max 1 (min maxFanout impl.limits.maxBatchAssignments.toNat)
      let state := batchPasses ctx request (candidates.map Prod.fst) passLimit true { impl := impl }
      ({ state.batch with outcome := if 0 < state.batch.assigned then .assigned else .deferred },
       { state.impl with schedulingRounds := state.impl.schedulingRounds + 1 })

end AgentScheduler
