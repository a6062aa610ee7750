import AgentScheduler.Capability

/-! Persistent autonomous worker model. -/
namespace AgentScheduler
open Std

inductive AgentLifecycle
  | unregistered | registering | ready | busy | draining | unavailable | revalidationRequired | lost | retired
deriving DecidableEq

inductive AgentHealth
  | unknown | healthy | degraded | unhealthy
deriving DecidableEq

inductive AgentReadiness
  | unknown | ready | notReady
deriving DecidableEq

inductive AgentReachability
  | unknown | reachable | unreachable
deriving DecidableEq

inductive AgentAvailability
  | unknown | available | unavailable
deriving DecidableEq

namespace AgentLifecycle

/-- The enumerator value of the lifecycle. -/
def code : AgentLifecycle → UInt8
  | unregistered => 0
  | registering => 1
  | ready => 2
  | busy => 3
  | draining => 4
  | unavailable => 5
  | revalidationRequired => 6
  | lost => 7
  | retired => 8

def toText : AgentLifecycle → Text
  | unregistered => "UNREGISTERED"
  | registering => "REGISTERING"
  | ready => "READY"
  | busy => "BUSY"
  | draining => "DRAINING"
  | unavailable => "UNAVAILABLE"
  | revalidationRequired => "REVALIDATION_REQUIRED"
  | lost => "LOST"
  | retired => "RETIRED"

instance : Ord AgentLifecycle := ⟨compareOn code⟩
instance : TransOrd AgentLifecycle := inferInstanceAs (TransCmp (compareOn code))

instance : LawfulEqOrd AgentLifecycle where
  eq_of_compare {a b} h := by
    have h : a.code = b.code := compare_eq_iff_eq.mp h
    cases a <;> cases b <;> first | rfl | exact absurd h (by decide)

/-- `lifecycle_accepts_new_work`. -/
def acceptsNewWork (value : AgentLifecycle) : Bool := value = ready || value = busy

end AgentLifecycle

def AgentHealth.toText : AgentHealth → Text
  | unknown => "UNKNOWN"
  | healthy => "HEALTHY"
  | degraded => "DEGRADED"
  | unhealthy => "UNHEALTHY"

/-- A `double` by its bit pattern. -/
structure F64 where
  bits : UInt64 := 0
deriving DecidableEq

namespace F64

/-- `std::isfinite`: the exponent is not all ones. -/
def isFinite (value : F64) : Bool := value.bits &&& 0x7FF0000000000000 ≠ 0x7FF0000000000000

/-- `value >= 0.0`: the sign bit is clear, or the value is minus zero. -/
def isNonNegative (value : F64) : Bool := value.bits < 0x8000000000000000 || value.bits = 0x8000000000000000

/-- `is_finite_non_negative`. -/
def isFiniteNonNegative (value : F64) : Bool := value.isFinite && value.isNonNegative

/-- `is_finite_unit_fraction`: non-negative patterns order as the values do, and 1.0 is `0x3FF0…`. -/
def isFiniteUnitFraction (value : F64) : Bool :=
  value.isFiniteNonNegative && (value.bits ≤ 0x3FF0000000000000 || value.bits = 0x8000000000000000)

end F64

/-- What an agent declares when it registers. -/
structure AgentDescriptor where
  id : AgentId := 0
  generation : AgentGeneration := 0
  boot : AgentBootId := 0
  registrationGeneration : AgentRegistrationGeneration := 0
  tenant : TenantId := 0
  nameSpace : NamespaceId := 0
  displayName : Text := ""
  policyLabels : List Text := []
  placementDomain : PlacementDomainId := 0
  topologyEpoch : TopologyEpoch := 0
  maxConcurrency : UInt32 := 1
  leaseTtlMs : UInt64 := 0
  provenance : Text := ""
deriving DecidableEq

structure LoadObservation where
  generation : AgentLoadGeneration := 0
  reportedActiveAssignments : UInt32 := 0
  maxConcurrency : UInt32 := 0
  queueDepth : UInt32 := 0
  cpuPressurePercent : UInt32 := 0
  estimatedDispatchLatencyMs : UInt64 := 0
  costIndex : F64 := {}
  sloHeadroomFraction : F64 := {}
  warmStateKeys : List Text := []
  observedAtMs : UInt64 := 0
deriving DecidableEq

structure HealthObservation where
  generation : AgentHealthGeneration := 0
  health : AgentHealth := .unknown
  healthQuality : UInt32 := 0
  detail : Text := ""
  observedAtMs : UInt64 := 0
deriving DecidableEq

structure AvailabilityObservation where
  generation : AgentAvailabilityGeneration := 0
  availability : AgentAvailability := .unknown
  reachability : AgentReachability := .unknown
  readiness : AgentReadiness := .unknown
  observedAtMs : UInt64 := 0
deriving DecidableEq

private def invalidAgent (operation subject detail : Text) : SchedulerError :=
  makeError .invalidArgument operation subject detail .rejectInvalidRequest

/-- `validate(AgentDescriptor)`. -/
def AgentDescriptor.validate (descriptor : AgentDescriptor) (limits : ResourceLimits) : MutationResult := do
  let op : Text := "register_agent"
  rejectIf descriptor.id.isZero (invalidAgent op "" "agent id must be non-zero")
  let subject := descriptor.id.toText
  rejectIf descriptor.generation.isZero (invalidAgent op subject "agent generation must be non-zero")
  rejectIf descriptor.boot.isZero (invalidAgent op subject "agent boot id must be non-zero")
  rejectIf descriptor.registrationGeneration.isZero
    (invalidAgent op subject "registration generation must be non-zero")
  rejectIf (descriptor.maxConcurrency = 0) (invalidAgent op subject "max_concurrency must be at least 1")
  rejectIf (limits.maxActiveAssignments < descriptor.maxConcurrency)
    (makeError .limitExceeded op subject "max_concurrency exceeds max_active_assignments"
      .rejectLimitExceeded)
  rejectProblem (textProblem descriptor.displayName limits.maxStringSize "display_name") (invalidAgent op subject)
  rejectProblem (textProblem descriptor.provenance limits.maxStringSize "provenance") (invalidAgent op subject)
  rejectIf (limits.maxPolicyLabels.toNat < descriptor.policyLabels.length)
    (makeError .limitExceeded op subject "policy label count exceeds max_policy_labels" .rejectLimitExceeded)
  descriptor.policyLabels.forM fun label =>
    rejectProblem (identifierProblem label limits.maxIdentifierSize "policy label") (invalidAgent op subject)

/-- `validate(LoadObservation)`. -/
def LoadObservation.validate (observation : LoadObservation) (limits : ResourceLimits) : MutationResult := do
  let op : Text := "publish_load"
  rejectIf observation.generation.isZero (invalidAgent op "" "load generation must be non-zero")
  rejectIf (100 < observation.cpuPressurePercent) (invalidAgent op "" "cpu_pressure_percent must be 0..100")
  rejectIf (¬observation.costIndex.isFiniteNonNegative)
    (invalidAgent op "" "cost_index must be finite and non-negative")
  rejectIf (¬observation.sloHeadroomFraction.isFiniteUnitFraction)
    (invalidAgent op "" "slo_headroom_fraction must be finite and within [0,1]")
  rejectIf (limits.maxWarmStateKeys.toNat < observation.warmStateKeys.length)
    (makeError .limitExceeded op "" "warm_state_keys exceeds max_warm_state_keys" .rejectLimitExceeded)
  observation.warmStateKeys.forM fun key =>
    rejectProblem (identifierProblem key limits.maxIdentifierSize "warm state key") (invalidAgent op "")

/-- `validate(HealthObservation)`. -/
def HealthObservation.validate (observation : HealthObservation) (limits : ResourceLimits) :
    MutationResult := do
  let op : Text := "publish_health"
  rejectIf observation.generation.isZero (invalidAgent op "" "health generation must be non-zero")
  rejectIf (1000 < observation.healthQuality) (invalidAgent op "" "health_quality must be 0..1000")
  rejectProblem (textProblem observation.detail limits.maxStringSize "health detail") (invalidAgent op "")

/-- `validate(AvailabilityObservation)`. -/
def AvailabilityObservation.validate (observation : AvailabilityObservation) : MutationResult :=
  rejectIf observation.generation.isZero
    (invalidAgent "publish_availability" "" "availability generation must be non-zero")

/-- A validated descriptor names an incarnation: its boot is non-zero. -/
theorem AgentDescriptor.validate_boot {descriptor : AgentDescriptor} {limits : ResourceLimits}
    (h : descriptor.validate limits = .ok ()) : descriptor.boot ≠ 0 := by
  unfold validate at h
  simp only [check_bind_eq_ok, rejectIf_eq_ok] at h
  obtain ⟨-, -, hboot, -⟩ := h
  rintro hzero
  exact hboot (by rw [hzero]; rfl)

end AgentScheduler
