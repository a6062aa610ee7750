import AgentScheduler.Authority

/-! Hard eligibility and the named-factor ranking of candidate agents. -/
namespace AgentScheduler

def FeasibilityVerdict.toText : FeasibilityVerdict → Text
  | unknown => "UNKNOWN"
  | feasible => "FEASIBLE"
  | infeasible => "INFEASIBLE"

inductive FactorStatus
  | known | unknown
deriving DecidableEq

structure FactorScore where
  name : Text
  status : FactorStatus := .unknown
  rawValue : Int := 0
  normalizedValue : Int := 0
  weight : UInt32 := 0
  note : Text := ""
deriving DecidableEq

structure CandidateEvaluation where
  agent : AgentId := 0
  agentGeneration : AgentGeneration := 0
  boot : AgentBootId := 0
  eligible : Bool := false
  rejection : ScheduleOutcome := .noChange
  rejectionDetail : Text := ""
  factors : List FactorScore := []
  score : Int := 0
  knownWeight : UInt32 := 0
  totalWeight : UInt32 := 0
  activeAssignments : Nat := 0
  availableCapacity : Nat := 0
  rank : Nat := 0
  selected : Bool := false
  tieBreakDecided : Bool := false
  tieBreakReason : Text := ""
deriving DecidableEq

/-- `ratio`, in thousandths. -/
def ratio (numerator denominator : UInt64) : Int :=
  if denominator = 0 then 0
  else if denominator ≤ numerator then 1000
  else (numerator * 1000 / denominator).toNat

/-- `active_assignments_on_agent`. -/
def activeAssignmentsOnAgent (impl : Impl) (work : WorkId) (agent : AgentId) : Nat :=
  (indexIds impl.indexAssignmentsByWork work).countP fun id =>
    match impl.assignments[id]? with
    | none => false
    | some record => record.state.isActive && record.binding.agent = agent

/-- `active_exclusive_assignment`: the first active exclusive assignment of the work, if any. -/
def activeExclusiveAssignment (impl : Impl) (work : WorkId) : Option AssignmentId :=
  (indexIds impl.indexAssignmentsByWork work).find? fun id =>
    match impl.assignments[id]? with
    | none => false
    | some record => record.state.isActive && record.binding.exclusive

/-- The lifecycle switch of `evaluate_eligibility`. -/
def checkLifecycle (lifecycle : AgentLifecycle) : Except Rejection Unit :=
  match lifecycle with
  | .lost | .retired => .error (.rejectLifecycle, "agent lifecycle is " ++ lifecycle.toText)
  | .draining => .error (.rejectDrain, "agent is draining and accepts no new work")
  | .registering => .error (.rejectReadiness, "agent has not published current evidence")
  | .revalidationRequired => .error (.revalidationRequired, "agent incarnation requires revalidation")
  | .unavailable => .error (.rejectReadiness, "agent is unavailable")
  | .ready | .busy => .ok ()
  | .unregistered => .error (.rejectLifecycle, "agent is not registered")

/-- Scope and evidence part of `evaluate_eligibility`. -/
def checkScope (now : UInt64) (impl : Impl) (requirements : WorkRequirements) (agent : AgentRecord) :
    Except Rejection Unit := do
  refuseIf (¬requirements.tenant.isZero ∧ requirements.tenant ≠ agent.descriptor.tenant)
    .rejectTenant "agent belongs to a different tenant"
  refuseIf (¬requirements.nameSpace.isZero ∧ requirements.nameSpace ≠ agent.descriptor.nameSpace)
    .rejectTenant "agent belongs to a different namespace"
  requirements.requiredPolicyLabels.forM fun label =>
    refuseIf (label ∉ agent.descriptor.policyLabels) .rejectPolicy ("agent lacks policy label " ++ label)
  refuseIf (requirements.requireReady ∧ ¬agent.lifecycle.acceptsNewWork)
    .rejectReadiness "agent lifecycle does not accept new work"
  refuseIf (requirements.requireHealthy ∧ ¬healthFresh now impl agent)
    .rejectHealth "health evidence is not current"
  refuseIf (requirements.requireHealthy ∧ (agent.health = .unknown ∨ agent.health = .unhealthy))
    .rejectHealth ("agent health is " ++ agent.health.toText)
  refuseIf (requirements.requireReachable ∧ ¬availabilityFresh now impl agent)
    .rejectReachability "reachability evidence is not current"
  refuseIf (requirements.requireReachable ∧ agent.reachability ≠ .reachable)
    .rejectReachability "agent is not reachable"
  refuseIf (requirements.requireCurrentLease ∧ ¬registrationLeaseCurrent now agent)
    .rejectLeaseExpired "registration lease is not current"

/-- Capacity, fan-out and placement part of `evaluate_eligibility`. -/
def checkPlacement (now : UInt64) (impl : Impl) (work : WorkRecord) (agent : AgentRecord) :
    Except Rejection Unit := do
  let requirements := work.request.requirements
  refuseIf (agent.descriptor.maxConcurrency.toNat ≤ agent.activeAssignments)
    .rejectCapacity "agent is at declared concurrency capacity"
  refuseIf (requirements.maxParallel.toNat ≤ work.currentAssignments)
    .rejectCapacity "work fan-out is already saturated"
  refuseIf (requirements.maxAssignmentsPerAgent.toNat ≤
      activeAssignmentsOnAgent impl work.request.id agent.descriptor.id)
    .rejectCapacity "agent already holds the maximum assignments for this work"
  refuseIf (requirements.restrictPlacementDomain ∧ (requirements.placementDomain.isZero ∨
      agent.descriptor.placementDomain ≠ requirements.placementDomain))
    .rejectLocality "agent is outside the required placement domain"
  refuseIf (requirements.restrictPlacementDomain ∧ ¬requirements.topologyEpoch.isZero ∧
      agent.descriptor.topologyEpoch ≠ requirements.topologyEpoch)
    .rejectLocality "agent topology epoch is not the required epoch"
  refuseIf (agent.descriptor.id ∈ requirements.antiAffinity)
    .rejectAffinity "agent is listed in anti-affinity"
  refuseIf (requirements.affinity ≠ [] ∧ agent.descriptor.id ∉ requirements.affinity)
    .rejectAffinity "agent is not listed in affinity"
  refuseIf (requirements.requireWarmState ∧ ¬loadFresh now impl agent)
    .rejectAffinity "warm state evidence is not current"
  refuseIf (requirements.requireWarmState ∧
      ¬requirements.warmStateKeys.any agent.loadObservation.warmStateKeys.contains)
    .rejectAffinity "agent reports no required warm state"

/-- One required capability in `evaluate_eligibility`. -/
def checkCapability (now : UInt64) (impl : Impl) (agent : AgentRecord) (requirement : CapabilityRequirement) :
    Except Rejection Unit := do
  refuseIf (agent.profile.generation = 0 ∨ agent.profile.boot ≠ agent.descriptor.boot)
    .rejectStaleCapability "agent has no capability profile for the current incarnation"
  refuseIf (¬capabilityFresh now impl agent) .rejectStaleCapability "capability evidence is not current"
  let evidence ← lookupOrRefuse (findCapability agent.profile requirement.name)
    .rejectCapability ("required capability is unknown: " ++ requirement.name)
  refuseIf (evidence.generation ≠ agent.profile.generation ∨ evidence.boot ≠ agent.descriptor.boot)
    .rejectStaleCapability ("capability evidence generation is stale: " ++ requirement.name)
  refuseIf (¬evidence.state.isUsable ∨ evidence.state.rank < requirement.minimumState.rank)
    .rejectCapability ("capability evidence state is insufficient: " ++ requirement.name)
  refuseIf (evidence.quality < requirement.minimumQuality)
    .rejectCapability ("capability quality is insufficient: " ++ requirement.name)

/-- The feasibility part of `evaluate_eligibility`. -/
def checkFeasibility (requirements : WorkRequirements) (feasibility : ExternalFeasibilityResult) :
    Except Rejection Unit := do
  refuseIf (requirements.requireResourceFeasibility ∧ feasibility.resource ≠ .feasible)
    .rejectResourceFeasibility ("external resource feasibility is " ++ feasibility.resource.toText)
  refuseIf (requirements.requireBudgetFeasibility ∧ feasibility.budget ≠ .feasible)
    .rejectBudget ("external budget feasibility is " ++ feasibility.budget.toText)
  refuseIf (requirements.requireSloFeasibility ∧ feasibility.slo ≠ .feasible)
    .rejectSlo ("external slo feasibility is " ++ feasibility.slo.toText)
  refuseIf (requirements.requireReservation ∧ feasibility.reservation ≠ .feasible)
    .rejectReservation ("external reservation feasibility is " ++ feasibility.reservation.toText)

/-- The hard eligibility test. -/
def eligibility (now : UInt64) (impl : Impl) (work : WorkRecord) (agent : AgentRecord)
    (feasibility : ExternalFeasibilityResult) : Except Rejection Unit := do
  let requirements := work.request.requirements
  refuseIf (bootIsFenced impl agent.descriptor.boot) .rejectFenced "incarnation is permanently fenced"
  checkLifecycle agent.lifecycle
  checkScope now impl requirements agent
  checkPlacement now impl work agent
  (requirements.capabilities.filter fun requirement => requirement.mode = .required).forM
    (checkCapability now impl agent)
  checkFeasibility requirements feasibility

/-- `evaluate_eligibility`: the verdict with the candidate's identity and occupancy. -/
def evaluateEligibility (now : UInt64) (impl : Impl) (work : WorkRecord) (agent : AgentRecord)
    (feasibility : ExternalFeasibilityResult) : CandidateEvaluation :=
  let evaluation : CandidateEvaluation :=
    { agent := agent.descriptor.id
      agentGeneration := agent.descriptor.generation
      boot := agent.descriptor.boot
      activeAssignments := agent.activeAssignments
      availableCapacity := agent.descriptor.maxConcurrency.toNat - agent.activeAssignments }
  match eligibility now impl work agent feasibility with
  | .error (outcome, detail) => { evaluation with rejection := outcome, rejectionDetail := detail }
  | .ok () => { evaluation with eligible := true }

/-- `weight_of`. -/
def weightOf (policy : PolicySnapshot) (factor : Text) : UInt32 :=
  match policy.rankingWeights.find? fun weight => weight.factor = factor with
  | none => 0
  | some weight => weight.weight

/-- `add_factor`: a negative value means the factor is unknown. -/
def factorScore (policy : PolicySnapshot) (name : Text) (value : Int) (note : Text) : FactorScore :=
  if value < 0 then { name, weight := weightOf policy name, note }
  else
    { name
      status := .known
      rawValue := value
      normalizedValue := min value 1000
      weight := weightOf policy name
      note }

/-- The lowest quality over the required capabilities; unknown as soon as one is missing. -/
def requiredQuality (profile : CapabilityProfile) (required : List CapabilityRequirement) : Int :=
  if required.isEmpty then 1000
  else
    match required.mapM fun requirement => findCapability profile requirement.name with
    | none => -1
    | some evidence => evidence.foldl
        (fun quality found =>
          if quality < 0 then (found.quality.toNat : Int) else min quality found.quality.toNat) (-1)

/-- Whether a preferred capability is satisfied. -/
def preferredSatisfied (profile : CapabilityProfile) (requirement : CapabilityRequirement) : Bool :=
  match findCapability profile requirement.name with
  | none => false
  | some evidence => evidence.state.isUsable && requirement.minimumState.rank ≤ evidence.state.rank &&
      requirement.minimumQuality ≤ evidence.quality

/-- `kQueueAgeCeilingMs`. -/
def kQueueAgeCeilingMs : UInt64 := 300000
/-- `kLatencyCeilingMs`. -/
def kLatencyCeilingMs : UInt64 := 30000

def F64.toFloat (value : F64) : Float := Float.ofBits value.bits

/-- The cost score of a load observation. -/
def costScore (cost : F64) : Int :=
  if cost.toFloat ≥ 0.0 then ((1000.0 / (1.0 + cost.toFloat)).toUInt64.toNat : Int) else -1

/-- The SLO score of a load observation. -/
def sloScore (fraction : F64) : Int := ((fraction.toFloat * 1000.0).toUInt64.toNat : Int)

/-- The share of active assignments outside the agent's placement domain. -/
def domainDiversity (impl : Impl) (agent : AgentRecord) : Int :=
  if agent.descriptor.placementDomain.isZero then -1
  else
    let active := impl.assignments.values.filter fun record => record.state.isActive
    let here := active.countP fun record =>
      record.binding.placementDomain = agent.descriptor.placementDomain
    if active.isEmpty then -1
    else 1000 - ratio (UInt64.ofNat here) (UInt64.ofNat active.length)

/-- Capacity and capability factors of `score_candidate`. -/
def capacityFactors (impl : Impl) (work : WorkRecord) (agent : AgentRecord) (availableCapacity : Nat) :
    List FactorScore :=
  let add := factorScore impl.policy
  let maxConcurrency := agent.descriptor.maxConcurrency
  let requirements := work.request.requirements.capabilities
  let required := requirements.filter fun requirement => requirement.mode = .required
  let preferred := requirements.filter fun requirement => requirement.mode = .preferred
  let satisfied := preferred.countP (preferredSatisfied agent.profile)
  (if 0 < maxConcurrency then
    [add "load_headroom"
      (ratio (UInt64.ofNat (maxConcurrency.toNat - min maxConcurrency.toNat agent.activeAssignments))
        maxConcurrency.toUInt64) "canonical capacity minus active assignments",
     add "remaining_capacity" availableCapacity "absolute remaining assignment slots"]
  else
    [add "load_headroom" (-1) "no declared concurrency",
     add "remaining_capacity" (-1) "no declared concurrency"]) ++
  [add "capability_quality" (requiredQuality agent.profile required)
    "minimum reported quality across required capabilities",
   add "capability_completeness"
    (if preferred.isEmpty then 1000 else ratio (UInt64.ofNat satisfied) (UInt64.ofNat preferred.length))
    "fraction of preferred capabilities satisfied"]

/-- Affinity, locality and evidence factors of `score_candidate`. -/
def affinityFactors (now : UInt64) (impl : Impl) (work : WorkRecord) (agent : AgentRecord) : List FactorScore :=
  let add := factorScore impl.policy
  let requirements := work.request.requirements
  let keys := requirements.warmStateKeys
  let matched := keys.countP agent.loadObservation.warmStateKeys.contains
  (if keys.isEmpty then
    [add "warm_state_affinity" (-1) "no warm state requested", add "handoff_cost" (-1) "no warm state requested"]
  else
    [add "warm_state_affinity" (ratio (UInt64.ofNat matched) (UInt64.ofNat keys.length))
      "warm state keys matched",
     add "handoff_cost" (if 0 < matched then 1000 else 0) "handoff cost implied by warm state reuse"]) ++
  [if requirements.placementDomain.isZero then add "locality_match" (-1) "no placement domain requested"
   else add "locality_match"
    (if agent.descriptor.placementDomain = requirements.placementDomain then 1000 else 0)
    "placement domain comparison",
   add "health_quality"
    (if healthFresh now impl agent then agent.healthObservation.healthQuality.toNat else -1)
    "reported health quality",
   add "readiness"
    (if availabilityFresh now impl agent then (if agent.readiness = .ready then 1000 else 0) else -1)
    "reported readiness"]

/-- Fairness and load factors of `score_candidate`. -/
def loadFactors (now : UInt64) (impl : Impl) (work : WorkRecord) (agent : AgentRecord) : List FactorScore :=
  let add := factorScore impl.policy
  let ageMs := if work.admittedAtMs < now then now - work.admittedAtMs else 0
  let ceiling := bypassCeiling impl.policy work.request.fairnessClass
  [add "queue_age" (ratio (min ageMs kQueueAgeCeilingMs) kQueueAgeCeilingMs) "time since admission",
   add "fairness_deficit" (if ceiling = 0 then 0 else ratio work.bypassCount.toUInt64 ceiling.toUInt64)
    "bypass pressure for this work"] ++
  if loadFresh now impl agent then
    [add "dispatch_latency"
      (1000 - ratio (min agent.loadObservation.estimatedDispatchLatencyMs kLatencyCeilingMs) kLatencyCeilingMs)
      "reported dispatch latency",
     add "cost_evidence" (costScore agent.loadObservation.costIndex) "reported cost index",
     add "slo_headroom" (sloScore agent.loadObservation.sloHeadroomFraction) "reported SLO headroom"]
  else
    [add "dispatch_latency" (-1) "no current load evidence",
     add "cost_evidence" (-1) "no current load evidence",
     add "slo_headroom" (-1) "no current load evidence"]

/-- Feasibility and history factors of `score_candidate`. -/
def historyFactors (impl : Impl) (agent : AgentRecord) (feasibility : ExternalFeasibilityResult) :
    List FactorScore :=
  let add := factorScore impl.policy
  let completed := UInt64.ofNat agent.assignmentsCompleted
  let attempts := completed + UInt64.ofNat agent.assignmentsFailed
  let window := impl.policy.antiConcentrationWindow
  [add "resource_headroom" (if feasibility.resource = .feasible then 1000 else -1)
    "external resource feasibility evidence",
   add "reliability_history" (if attempts = 0 then -1 else ratio completed attempts)
    "completed versus failed assignments",
   add "anti_concentration"
    (if window = 0 then -1
     else 1000 - ratio (min agent.recentAssignments window).toUInt64 window.toUInt64)
    "recent assignment concentration",
   add "failure_domain_diversity" (domainDiversity impl agent)
    "share of active assignments in this placement domain"]

/-- `score_candidate`: unknown factors contribute zero. -/
def scoreCandidate (now : UInt64) (impl : Impl) (work : WorkRecord) (agent : AgentRecord)
    (feasibility : ExternalFeasibilityResult) (evaluation : CandidateEvaluation) : CandidateEvaluation :=
  let factors := capacityFactors impl work agent evaluation.availableCapacity ++
    affinityFactors now impl work agent ++ loadFactors now impl work agent ++
    historyFactors impl agent feasibility
  let known := factors.filter fun factor => factor.status = .known
  let totalWeight := (factors.map fun factor => factor.weight.toNat).sum
  let weighted := (known.map fun factor => (factor.weight.toNat : Int) * factor.normalizedValue).sum
  { evaluation with
    factors := factors
    knownWeight := (known.map FactorScore.weight).sum
    totalWeight := UInt32.ofNat (min totalWeight 0xFFFFFFFF)
    score := if totalWeight = 0 then 0 else weighted / totalWeight }

/-- `candidate_better`. -/
def candidateBetter (left right : CandidateEvaluation) : Bool :=
  if left.score ≠ right.score then right.score < left.score
  else if left.knownWeight ≠ right.knownWeight then right.knownWeight < left.knownWeight
  else left.agent < right.agent

end AgentScheduler
