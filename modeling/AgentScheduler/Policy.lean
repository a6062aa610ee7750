import AgentScheduler.Limits

/-! Scheduling policy, fairness contract, and ranking weights. -/
namespace AgentScheduler

structure RankingWeight where
  factor : Text
  weight : UInt32 := 0
deriving DecidableEq

structure QueueClassWeight where
  fairnessClass : Text
  weight : UInt32 := 1
deriving DecidableEq

/-- The versioned policy. -/
structure PolicySnapshot where
  id : PolicyId := 0
  generation : PolicyGeneration := 0
  agingRoundsPerStep : UInt32 := 1
  maxPriorityBypass : UInt32 := 32
  starvationAlertRounds : UInt32 := 256
  allowUnboundedStarvation : Bool := false
  fairnessClassWeights : List QueueClassWeight := []
  antiConcentrationWindow : UInt32 := 8
  antiConcentrationPenalty : UInt32 := 200
  capabilityStalenessMs : UInt64 := 60000
  healthStalenessMs : UInt64 := 60000
  loadStalenessMs : UInt64 := 60000
  availabilityStalenessMs : UInt64 := 60000
  assignmentLeaseTtlMs : UInt64 := 120000
  registrationLeaseTtlMs : UInt64 := 300000
  closeDispatchAuthorityOnShutdown : Bool := true
  rankingWeights : List RankingWeight := []
deriving DecidableEq

/-- `kKnownFactors`. -/
def kKnownFactors : List Text := [
  "load_headroom", "remaining_capacity", "capability_quality", "capability_completeness",
  "warm_state_affinity", "locality_match", "health_quality", "readiness", "queue_age",
  "fairness_deficit", "dispatch_latency", "cost_evidence", "slo_headroom", "resource_headroom",
  "reliability_history", "anti_concentration", "failure_domain_diversity", "handoff_cost"]

def isKnownFactor (name : Text) : Bool := kKnownFactors.contains name

def defaultRankingWeights : List RankingWeight := [
  ⟨"load_headroom", 30⟩, ⟨"remaining_capacity", 20⟩, ⟨"capability_quality", 25⟩,
  ⟨"capability_completeness", 15⟩, ⟨"warm_state_affinity", 10⟩, ⟨"locality_match", 10⟩,
  ⟨"health_quality", 15⟩, ⟨"readiness", 10⟩, ⟨"queue_age", 8⟩, ⟨"fairness_deficit", 8⟩,
  ⟨"dispatch_latency", 6⟩, ⟨"cost_evidence", 6⟩, ⟨"slo_headroom", 6⟩, ⟨"resource_headroom", 6⟩,
  ⟨"reliability_history", 6⟩, ⟨"anti_concentration", 8⟩, ⟨"failure_domain_diversity", 6⟩,
  ⟨"handoff_cost", 6⟩]

def defaultFairnessClassWeights : List QueueClassWeight := [⟨"interactive", 4⟩, ⟨"default", 2⟩, ⟨"batch", 1⟩]

private def policyError (code : ErrorCode) (subject detail : Text) (outcome : ScheduleOutcome) :
    SchedulerError :=
  makeError code "set_policy" subject detail outcome

private def checkRankingWeight (weight : RankingWeight) : MutationResult := do
  rejectIf (¬isKnownFactor weight.factor)
    (policyError .invalidArgument weight.factor "unknown ranking factor" .rejectInvalidRequest)
  rejectIf (1000000 < weight.weight)
    (policyError .invalidArgument weight.factor "ranking weight exceeds 1000000" .rejectInvalidRequest)

private def checkFairnessClass (limits : ResourceLimits) (weight : QueueClassWeight) : MutationResult := do
  rejectProblem (identifierProblem weight.fairnessClass limits.maxIdentifierSize "fairness class")
    fun problem => policyError .invalidArgument "" problem .rejectInvalidRequest
  rejectIf (weight.weight = 0 ∨ 1000 < weight.weight)
    (policyError .invalidArgument weight.fairnessClass "fairness class weight must be 1..1000"
      .rejectInvalidRequest)

/-- `validate(PolicySnapshot)`. -/
def PolicySnapshot.validate (policy : PolicySnapshot) (limits : ResourceLimits) : MutationResult := do
  rejectIf policy.id.isZero
    (policyError .invalidArgument "" "policy id must be non-zero" .rejectInvalidRequest)
  let subject := policy.id.toText
  rejectIf policy.generation.isZero
    (policyError .invalidArgument subject "policy generation must be non-zero" .rejectInvalidRequest)
  rejectIf (policy.agingRoundsPerStep = 0)
    (policyError .invalidArgument subject "aging_rounds_per_step must be at least 1" .rejectInvalidRequest)
  rejectIf (policy.maxPriorityBypass = 0 ∧ ¬policy.allowUnboundedStarvation)
    (policyError .invalidArgument subject
      "max_priority_bypass must be at least 1 when starvation is bounded" .rejectInvalidRequest)
  rejectIf (limits.maxExplanationFactors.toNat < policy.rankingWeights.length)
    (policyError .limitExceeded subject "ranking weight count exceeds max_explanation_factors"
      .rejectLimitExceeded)
  policy.rankingWeights.forM checkRankingWeight
  rejectIf (¬canonicalizeUnique (policy.rankingWeights.map RankingWeight.factor))
    (policyError .duplicate "" "duplicate ranking factor" .rejectDuplicate)
  rejectIf (limits.maxQueues.toNat < policy.fairnessClassWeights.length)
    (policyError .limitExceeded subject "fairness class count exceeds max_queues" .rejectLimitExceeded)
  policy.fairnessClassWeights.forM (checkFairnessClass limits)
  rejectIf (¬canonicalizeUnique (policy.fairnessClassWeights.map QueueClassWeight.fairnessClass))
    (policyError .duplicate "" "duplicate fairness class" .rejectDuplicate)
  rejectIf (limits.maxRetainedHistory < policy.antiConcentrationWindow)
    (policyError .limitExceeded subject "anti_concentration_window exceeds max_retained_history"
      .rejectLimitExceeded)
  rejectIf (policy.assignmentLeaseTtlMs = 0 ∨ policy.registrationLeaseTtlMs = 0)
    (policyError .invalidArgument subject "lease TTLs must be non-zero" .rejectInvalidRequest)

def fairnessClassWeight (policy : PolicySnapshot) (fairnessClass : Text) : UInt32 :=
  match policy.fairnessClassWeights.find? fun weight => weight.fairnessClass = fairnessClass with
  | some weight => weight.weight
  | none => 1

/-- How often an item of the class may be bypassed. -/
def bypassCeiling (policy : PolicySnapshot) (fairnessClass : Text) : UInt32 :=
  if policy.allowUnboundedStarvation then 0xFFFFFFFF
  else
    let weight := fairnessClassWeight policy fairnessClass
    if weight = 0 then policy.maxPriorityBypass
    else if policy.maxPriorityBypass / weight < 1 then 1
    else policy.maxPriorityBypass / weight

end AgentScheduler
