import AgentScheduler.Capability

/-! Schedulable work model. -/
namespace AgentScheduler
open Std

inductive WorkLifecycle
  | unknown | admitted | assigned | executing | completed | failed | cancelled | superseded | expired
deriving DecidableEq

namespace WorkLifecycle

/-- The enumerator value of the lifecycle. -/
def code : WorkLifecycle → UInt8
  | unknown => 0
  | admitted => 1
  | assigned => 2
  | executing => 3
  | completed => 4
  | failed => 5
  | cancelled => 6
  | superseded => 7
  | expired => 8

def toText : WorkLifecycle → Text
  | unknown => "UNKNOWN"
  | admitted => "ADMITTED"
  | assigned => "ASSIGNED"
  | executing => "EXECUTING"
  | completed => "COMPLETED"
  | failed => "FAILED"
  | cancelled => "CANCELLED"
  | superseded => "SUPERSEDED"
  | expired => "EXPIRED"

instance : Ord WorkLifecycle := ⟨compareOn code⟩
instance : TransOrd WorkLifecycle := inferInstanceAs (TransCmp (compareOn code))

instance : LawfulEqOrd WorkLifecycle where
  eq_of_compare {a b} h := by
    have h : a.code = b.code := compare_eq_iff_eq.mp h
    cases a <;> cases b <;> first | rfl | exact absurd h (by decide)

/-- `work_accepts_assignment`. -/
def acceptsAssignment (value : WorkLifecycle) : Bool := value = admitted

/-- `work_is_terminal`. -/
def isTerminal : WorkLifecycle → Bool
  | completed | failed | cancelled | superseded | expired => true
  | _ => false

end WorkLifecycle

inductive SchedulingMode
  | exclusive | parallel
deriving DecidableEq

inductive FeasibilityVerdict
  | unknown | feasible | infeasible
deriving DecidableEq

structure WorkRequirements where
  capabilities : List CapabilityRequirement := []
  tenant : TenantId := 0
  nameSpace : NamespaceId := 0
  requiredPolicyLabels : List Text := []
  affinity : List AgentId := []
  antiAffinity : List AgentId := []
  restrictPlacementDomain : Bool := false
  placementDomain : PlacementDomainId := 0
  topologyEpoch : TopologyEpoch := 0
  requireHealthy : Bool := true
  requireReachable : Bool := true
  requireReady : Bool := true
  requireCurrentLease : Bool := true
  requireResourceFeasibility : Bool := false
  resourceGeneration : ResourceGeneration := 0
  resourceFeasibility : FeasibilityVerdict := .unknown
  requireBudgetFeasibility : Bool := false
  budgetGeneration : BudgetGeneration := 0
  budgetFeasibility : FeasibilityVerdict := .unknown
  requireSloFeasibility : Bool := false
  sloGeneration : SloGeneration := 0
  sloFeasibility : FeasibilityVerdict := .unknown
  requireReservation : Bool := false
  reservationGeneration : ReservationGeneration := 0
  reservationFeasibility : FeasibilityVerdict := .unknown
  requireWarmState : Bool := false
  warmStateKeys : List Text := []
  deadlineMs : UInt64 := 0
  maxParallel : UInt32 := 1
  maxAssignmentsPerAgent : UInt32 := 1
deriving DecidableEq

structure WorkRequest where
  id : WorkId := 0
  generation : WorkGeneration := 0
  queue : QueueId := 0
  queueGeneration : QueueGeneration := 0
  kind : Text := ""
  priority : UInt32 := 0
  fairnessClass : Text := "default"
  mode : SchedulingMode := .exclusive
  requirements : WorkRequirements := {}
  payloadRef : Text := ""
  earliestStartMs : UInt64 := 0
  expectedDurationMs : UInt64 := 0
deriving DecidableEq

/-- The error of a work check; the subject is empty until the id is known to be non-zero. -/
private def invalidWork (subject detail : Text) : SchedulerError :=
  makeError .invalidArgument "submit_work" subject detail .rejectInvalidRequest

private def workLimit (subject detail : Text) : SchedulerError :=
  makeError .limitExceeded "submit_work" subject detail .rejectLimitExceeded

private def checkRequirement (limits : ResourceLimits) (subject : Text) (requirement : CapabilityRequirement) :
    MutationResult := do
  rejectProblem (identifierProblem requirement.name limits.maxIdentifierSize "capability requirement name")
    (invalidWork subject)
  rejectIf (1000 < requirement.minimumQuality) (invalidWork subject "minimum_quality must be 0..1000")
  rejectIf (¬requirement.minimumState.isUsable)
    (invalidWork subject "minimum_state must be a usable capability state")

/-- The fan-out shape of a request: parallel work has at least two slots, exclusive work has one. -/
private def checkMode (subject : Text) (request : WorkRequest) : MutationResult :=
  match request.mode with
  | .parallel =>
    rejectIf (request.requirements.maxParallel < 2)
      (invalidWork subject "parallel work requires max_parallel >= 2")
  | .exclusive =>
    rejectIf (request.requirements.maxParallel ≠ 1)
      (invalidWork subject "exclusive work requires max_parallel == 1")

/-- `validate(WorkRequest)`. -/
def WorkRequest.validate (request : WorkRequest) (limits : ResourceLimits) : MutationResult := do
  let requirements := request.requirements
  rejectIf request.id.isZero (invalidWork "" "work id must be non-zero")
  let subject := request.id.toText
  rejectIf request.generation.isZero (invalidWork subject "work generation must be non-zero")
  rejectIf request.queue.isZero (invalidWork subject "queue id must be non-zero")
  rejectIf request.queueGeneration.isZero (invalidWork subject "queue generation must be non-zero")
  rejectIf (1000 < request.priority) (invalidWork subject "priority must be 0..1000")
  checkMode subject request
  rejectIf (limits.maxBatchAssignments < requirements.maxParallel)
    (workLimit subject "max_parallel exceeds max_batch_assignments")
  rejectIf (requirements.maxAssignmentsPerAgent = 0 ∨
      requirements.maxParallel < requirements.maxAssignmentsPerAgent)
    (invalidWork subject "max_assignments_per_agent must be within 1..max_parallel")
  rejectProblem (identifierProblem request.fairnessClass limits.maxIdentifierSize "fairness_class")
    (invalidWork subject)
  rejectProblem (textProblem request.kind limits.maxIdentifierSize "kind") (invalidWork subject)
  rejectProblem (textProblem request.payloadRef limits.maxStringSize "payload_ref") (invalidWork subject)
  rejectIf (limits.maxCapabilityRequirements.toNat < requirements.capabilities.length)
    (workLimit subject "capability requirement count exceeds max_capability_requirements")
  requirements.capabilities.forM (checkRequirement limits subject)
  rejectIf (¬canonicalizeUnique (requirements.capabilities.map CapabilityRequirement.name))
    (makeError .duplicate "submit_work" subject "duplicate capability requirement name" .rejectDuplicate)
  rejectIf (limits.maxPolicyLabels.toNat < requirements.requiredPolicyLabels.length)
    (workLimit subject "policy label count exceeds max_policy_labels")
  requirements.requiredPolicyLabels.forM fun label =>
    rejectProblem (identifierProblem label limits.maxIdentifierSize "policy label") (invalidWork subject)
  rejectIf (limits.maxAffinityEntries.toNat < requirements.affinity.length ∨
      limits.maxAffinityEntries.toNat < requirements.antiAffinity.length)
    (workLimit subject "affinity set exceeds max_affinity_entries")
  rejectIf (requirements.antiAffinity.any requirements.affinity.contains)
    (makeError .conflict "submit_work" subject "agent appears in both affinity and anti-affinity"
      .rejectAffinity)
  rejectIf (limits.maxWarmStateKeys.toNat < requirements.warmStateKeys.length)
    (workLimit subject "warm_state_keys exceeds max_warm_state_keys")
  requirements.warmStateKeys.forM fun key =>
    rejectProblem (identifierProblem key limits.maxIdentifierSize "warm state key") (invalidWork subject)

/-- The order `canonicalize(WorkRequest)` sorts requirements by. -/
def requirementBefore (left right : CapabilityRequirement) : Bool :=
  if left.name ≠ right.name then left.name < right.name else left.mode.code < right.mode.code

def canonicalizeAgents (agents : List AgentId) : List AgentId :=
  uniqueAdjacent (sortBy (fun a b => a < b) agents)

/-- `canonicalize(WorkRequest)`. -/
def WorkRequest.canonicalize (request : WorkRequest) : WorkRequest :=
  { request with
    requirements :=
      { request.requirements with
        capabilities := sortBy requirementBefore request.requirements.capabilities
        requiredPolicyLabels := canonicalizeTexts request.requirements.requiredPolicyLabels
        warmStateKeys := canonicalizeTexts request.requirements.warmStateKeys
        affinity := canonicalizeAgents request.requirements.affinity
        antiAffinity := canonicalizeAgents request.requirements.antiAffinity } }

/-- The fan-out shape every stored request has. -/
structure WorkRequest.WellShaped (request : WorkRequest) : Prop where
  exclusive : request.mode = .exclusive → request.requirements.maxParallel = 1
  perAgent : 0 < request.requirements.maxAssignmentsPerAgent
  fanOut : request.requirements.maxAssignmentsPerAgent ≤ request.requirements.maxParallel

theorem WorkRequest.validate_wellShaped {request : WorkRequest} {limits : ResourceLimits}
    (h : request.validate limits = .ok ()) : request.WellShaped := by
  unfold validate at h
  simp only [check_bind_eq_ok, rejectIf_eq_ok] at h
  obtain ⟨-, -, -, -, -, hmode, -, hper, -⟩ := h
  refine ⟨fun hexclusive => ?_, ?_, ?_⟩
  · unfold checkMode at hmode
    rw [hexclusive] at hmode
    simpa using hmode
  · have hpos : request.requirements.maxAssignmentsPerAgent ≠ 0 := fun hzero => hper (.inl hzero)
    exact UInt32.pos_iff_ne_zero.mpr hpos
  · exact UInt32.not_lt.mp fun hlt => hper (.inr hlt)

/-- Sorting a request's lists keeps its shape. -/
theorem WorkRequest.WellShaped.canonicalize {request : WorkRequest} (h : request.WellShaped) :
    request.canonicalize.WellShaped := ⟨h.exclusive, h.perAgent, h.fanOut⟩

end AgentScheduler
