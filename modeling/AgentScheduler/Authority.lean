import AgentScheduler.State

/-! Freshness of evidence, external feasibility, the authority binding and its revalidation. -/
namespace AgentScheduler

structure ExternalFeasibilityRequest where
  work : WorkId := 0
  workGeneration : WorkGeneration := 0
  tenant : TenantId := 0
  nameSpace : NamespaceId := 0
  resourceGeneration : ResourceGeneration := 0
  budgetGeneration : BudgetGeneration := 0
  sloGeneration : SloGeneration := 0
  reservationGeneration : ReservationGeneration := 0
  deadlineMs : UInt64 := 0

structure ExternalFeasibilityResult where
  resource : FeasibilityVerdict := .unknown
  budget : FeasibilityVerdict := .unknown
  slo : FeasibilityVerdict := .unknown
  reservation : FeasibilityVerdict := .unknown
  detail : Text := ""

/-- What a locked section reads from outside: the clock and the feasibility provider, if any. -/
structure Context where
  now : UInt64 := 0
  feasibility : Option (ExternalFeasibilityRequest → ExternalFeasibilityResult) := none

/-- Evidence observed at `observed` is at most `staleness` old at `now`. -/
def withinStaleness (now observed staleness : UInt64) : Bool :=
  if now < observed then false else now - observed ≤ staleness

/-- `capability_fresh`; the age is that of the first piece of evidence. -/
def capabilityFresh (now : UInt64) (impl : Impl) (record : AgentRecord) : Bool :=
  if !record.capabilityCurrent then false
  else if record.profile.boot ≠ record.descriptor.boot then false
  else match record.profile.capabilities with
    | [] => true
    | evidence :: _ => withinStaleness now evidence.observedAtMs impl.policy.capabilityStalenessMs

def healthFresh (now : UInt64) (impl : Impl) (record : AgentRecord) : Bool :=
  record.healthCurrent &&
    withinStaleness now record.healthObservation.observedAtMs impl.policy.healthStalenessMs

def availabilityFresh (now : UInt64) (impl : Impl) (record : AgentRecord) : Bool :=
  record.availabilityCurrent &&
    withinStaleness now record.availabilityObservation.observedAtMs impl.policy.availabilityStalenessMs

def loadFresh (now : UInt64) (impl : Impl) (record : AgentRecord) : Bool :=
  record.loadCurrent && withinStaleness now record.loadObservation.observedAtMs impl.policy.loadStalenessMs

/-- `lease_current` of a registration. -/
def registrationLeaseCurrent (now : UInt64) (record : AgentRecord) : Bool :=
  record.leaseExpiresAtMs ≠ 0 && now ≤ record.leaseExpiresAtMs

/-- `evaluate_feasibility`: the request's own verdicts when no provider is configured. -/
def evaluateFeasibility (ctx : Context) (record : WorkRecord) : ExternalFeasibilityResult :=
  let requirements := record.request.requirements
  match ctx.feasibility with
  | none =>
    { resource := requirements.resourceFeasibility
      budget := requirements.budgetFeasibility
      slo := requirements.sloFeasibility
      reservation := requirements.reservationFeasibility }
  | some evaluate =>
    evaluate
      { work := record.request.id
        workGeneration := record.request.generation
        tenant := requirements.tenant
        nameSpace := requirements.nameSpace
        resourceGeneration := requirements.resourceGeneration
        budgetGeneration := requirements.budgetGeneration
        sloGeneration := requirements.sloGeneration
        reservationGeneration := requirements.reservationGeneration
        deadlineMs := requirements.deadlineMs }

/-- The bound fields of `build_binding`, before the three identities are derived. -/
def bindingFields (now : UInt64) (impl : Impl) (work : WorkRecord) (agent : AgentRecord)
    (generation : AssignmentGeneration) (replicaIndex : UInt32) : AssignmentBinding where
  generation := generation
  work := work.request.id
  workGeneration := work.request.generation
  agent := agent.descriptor.id
  agentGeneration := agent.descriptor.generation
  boot := agent.descriptor.boot
  scheduler := impl.schedulerId
  schedulerEpoch := impl.schedulerEpoch
  coordinatorEpoch := impl.coordinatorEpoch
  policy := impl.policy.id
  policyGeneration := impl.policy.generation
  capabilityProfile := agent.profile.profileId
  capabilityGeneration := agent.profile.generation
  resourceGeneration := work.request.requirements.resourceGeneration
  budgetGeneration := work.request.requirements.budgetGeneration
  sloGeneration := work.request.requirements.sloGeneration
  reservationGeneration := work.request.requirements.reservationGeneration
  queue := work.request.queue
  queueGeneration := work.request.queueGeneration
  placementDomain := agent.descriptor.placementDomain
  topologyEpoch := agent.descriptor.topologyEpoch
  replicaIndex := replicaIndex
  exclusive := work.request.mode = .exclusive
  createdAtMs := now
  leaseExpiresAtMs := now + impl.policy.assignmentLeaseTtlMs
  leaseGeneration := ⟨generation.value⟩
  dispatchGeneration := ⟨generation.value⟩

/-- Derives the assignment identity, then the lease and dispatch identities from it. -/
def AssignmentBinding.withIds (binding : AssignmentBinding) : AssignmentBinding :=
  let identified := { binding with id := deriveAssignmentId binding }
  { identified with lease := deriveLeaseId identified, dispatch := deriveDispatchId identified }

/-- `build_binding`. -/
def buildBinding (now : UInt64) (impl : Impl) (work : WorkRecord) (agent : AgentRecord)
    (generation : AssignmentGeneration) (replicaIndex : UInt32) : AssignmentBinding :=
  (bindingFields now impl work agent generation replicaIndex).withIds

/-- The rejection of an authority check, with its detail. -/
abbrev Rejection := ScheduleOutcome × Text

/-- A check of `revalidate_authority`. -/
def refuseIf (condition : Prop) [Decidable condition] (outcome : ScheduleOutcome) (detail : Text) :
    Except Rejection Unit :=
  if condition then .error (outcome, detail) else .ok ()

@[simp] theorem refuseIf_eq_ok {condition : Prop} [Decidable condition] {outcome : ScheduleOutcome}
    {detail : Text} {u : Unit} : refuseIf condition outcome detail = .ok u ↔ ¬condition := by
  by_cases h : condition <;> simp [refuseIf, h]

/-- Looks up a key or refuses. -/
def lookupOrRefuse {Value : Type} (found : Option Value) (outcome : ScheduleOutcome) (detail : Text) :
    Except Rejection Value :=
  match found with
  | none => .error (outcome, detail)
  | some value => .ok value

@[simp] theorem lookupOrRefuse_eq_ok {Value : Type} {found : Option Value} {outcome : ScheduleOutcome}
    {detail : Text} {value : Value} :
    lookupOrRefuse found outcome detail = .ok value ↔ found = some value := by
  cases found <;> simp [lookupOrRefuse]

/-- The scheduler-wide part of `revalidate_authority`. -/
def revalidateScheduler (impl : Impl) (record : AssignmentRecord) : Except Rejection Unit := do
  let binding := record.binding
  refuseIf (impl.shuttingDown ∧ record.state ≠ .assigned) .shuttingDown "scheduler is shutting down"
  refuseIf (binding.scheduler ≠ impl.schedulerId ∨ binding.schedulerEpoch ≠ impl.schedulerEpoch)
    .rejectStaleSchedulerEpoch "scheduler epoch moved"
  refuseIf (binding.coordinatorEpoch ≠ impl.coordinatorEpoch)
    .rejectStaleCoordinatorEpoch "coordinator epoch moved"
  refuseIf (binding.policy ≠ impl.policy.id ∨ binding.policyGeneration ≠ impl.policy.generation)
    .rejectStalePolicy "policy generation moved"

/-- The work part of `revalidate_authority`. -/
def revalidateWork (now : UInt64) (binding : AssignmentBinding) (work : WorkRecord) : Except Rejection Unit := do
  refuseIf (work.request.generation ≠ binding.workGeneration)
    .rejectStaleWorkGeneration "work generation moved"
  refuseIf (work.lifecycle = .cancelled) .rejectCancelled "work is cancelled"
  refuseIf (work.lifecycle = .superseded) .rejectSuperseded "work is superseded"
  refuseIf work.lifecycle.isTerminal .rejectExpired "work is terminal"
  refuseIf (work.request.requirements.deadlineMs ≠ 0 ∧ work.request.requirements.deadlineMs < now)
    .rejectDeadline "work deadline passed"

/-- The agent part of `revalidate_authority`. -/
def revalidateAgent (now : UInt64) (impl : Impl) (binding : AssignmentBinding) (agent : AgentRecord) :
    Except Rejection Unit := do
  refuseIf (agent.descriptor.generation ≠ binding.agentGeneration)
    .rejectStaleAgentGeneration "agent generation moved"
  refuseIf (agent.descriptor.boot ≠ binding.boot) .rejectStaleAgentBoot "agent incarnation replaced"
  refuseIf (bootIsFenced impl binding.boot) .rejectFenced "agent incarnation is fenced"
  refuseIf (agent.lifecycle = .lost ∨ agent.lifecycle = .retired)
    .rejectLifecycle "agent is lost or retired"
  refuseIf (agent.lifecycle = .draining) .rejectDrain "agent is draining"
  refuseIf (agent.profile.generation ≠ binding.capabilityGeneration ∨
      agent.profile.profileId ≠ binding.capabilityProfile ∨ agent.profile.boot ≠ binding.boot ∨
      ¬capabilityFresh now impl agent)
    .rejectStaleCapability "capability evidence moved or is stale"

/-- The evidence part of `revalidate_authority`: what the work requires of the agent now. -/
def revalidateEvidence (now : UInt64) (impl : Impl) (requirements : WorkRequirements) (agent : AgentRecord)
    (feasibility : ExternalFeasibilityResult) : Except Rejection Unit := do
  refuseIf (requirements.requireCurrentLease ∧ ¬registrationLeaseCurrent now agent)
    .rejectLeaseExpired "registration lease is not current"
  refuseIf (requirements.requireHealthy ∧
      (¬healthFresh now impl agent ∨ agent.health = .unknown ∨ agent.health = .unhealthy))
    .rejectHealth "health evidence is not current"
  refuseIf (requirements.requireReachable ∧
      (¬availabilityFresh now impl agent ∨ agent.reachability ≠ .reachable))
    .rejectReachability "reachability evidence is not current"
  refuseIf (requirements.requireResourceFeasibility ∧ feasibility.resource ≠ .feasible)
    .rejectResourceFeasibility "resource feasibility is not current"
  refuseIf (requirements.requireBudgetFeasibility ∧ feasibility.budget ≠ .feasible)
    .rejectBudget "budget feasibility is not current"
  refuseIf (requirements.requireSloFeasibility ∧ feasibility.slo ≠ .feasible)
    .rejectSlo "slo feasibility is not current"
  refuseIf (requirements.requireReservation ∧ feasibility.reservation ≠ .feasible)
    .rejectReservation "reservation feasibility is not current"

/-- `revalidate_authority`: the specific rejection, or success when the assignment is still legal. -/
def revalidateAuthority (ctx : Context) (impl : Impl) (record : AssignmentRecord) : Except Rejection Unit := do
  revalidateScheduler impl record
  let work ← lookupOrRefuse impl.work[record.binding.work]? .rejectInvalidRequest "work item is not known"
  revalidateWork ctx.now record.binding work
  let agent ← lookupOrRefuse impl.agents[record.binding.agent]? .rejectStaleAgentGeneration
    "agent is not known"
  revalidateAgent ctx.now impl record.binding agent
  revalidateEvidence ctx.now impl work.request.requirements agent (evaluateFeasibility ctx work)

/-- Fairness ordering key for one admitted work item. -/
structure FairnessKey where
  effectivePriority : Nat
  bypassCount : UInt32
  bypassCeiling : UInt32
  mustRun : Bool
  admittedSequence : Nat

/-- `fairness_key`. -/
def fairnessKey (impl : Impl) (record : WorkRecord) : FairnessKey where
  effectivePriority :=
    record.request.priority.toNat +
      min (record.bypassCount.toNat / max 1 impl.policy.agingRoundsPerStep.toNat)
        (max 1 impl.policy.maxPriorityBypass.toNat)
  bypassCount := record.bypassCount
  bypassCeiling := bypassCeiling impl.policy record.request.fairnessClass
  mustRun := !impl.policy.allowUnboundedStarvation &&
    bypassCeiling impl.policy record.request.fairnessClass ≤ record.bypassCount
  admittedSequence := record.admittedSequence

/-- Bypass pressure, in 1024ths of the ceiling. -/
def FairnessKey.ratio (key : FairnessKey) : Nat :=
  if key.bypassCeiling = 0 then key.bypassCount.toNat
  else key.bypassCount.toNat * 1024 / key.bypassCeiling.toNat

/-- `fairness_before`. -/
def fairnessBefore (left right : FairnessKey) : Bool :=
  if left.mustRun ≠ right.mustRun then left.mustRun
  else if left.mustRun then
    -- higher bypass pressure first, then oldest admission
    if left.ratio ≠ right.ratio then right.ratio < left.ratio
    else left.admittedSequence < right.admittedSequence
  else if left.effectivePriority ≠ right.effectivePriority then right.effectivePriority < left.effectivePriority
  else left.admittedSequence < right.admittedSequence

/-- What `AgentScheduler` is constructed from. -/
structure SchedulerOptions where
  schedulerId : SchedulerId := 0
  limits : ResourceLimits := {}
  policy : PolicySnapshot := {}
  autoStart : Bool := true

/-- The policy the constructor installs: zero identities and empty weight lists get their defaults. -/
def SchedulerOptions.effectivePolicy (options : SchedulerOptions) : PolicySnapshot :=
  let policy := options.policy
  { policy with
    id := if policy.id.isZero then 1 else policy.id
    generation := if policy.generation.isZero then 1 else policy.generation
    rankingWeights := if policy.rankingWeights.isEmpty then defaultRankingWeights else policy.rankingWeights
    fairnessClassWeights :=
      if policy.fairnessClassWeights.isEmpty then defaultFairnessClassWeights
      else policy.fairnessClassWeights }

end AgentScheduler
