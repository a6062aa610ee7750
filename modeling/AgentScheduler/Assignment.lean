import AgentScheduler.Digest

/-! Authoritative assignment and lease records. -/
namespace AgentScheduler
open Std ByteCodec

/-- Assignment state. Active states occupy the work item's slot; terminal states never regain authority. -/
inductive AssignmentState
  | unknown | assigned | dispatched | acknowledged | executing | releasing | revalidationRequired
  | completed | failed | released | invalidated | superseded | expired | lost | cancelled
deriving DecidableEq

namespace AssignmentState

def toText : AssignmentState → Text
  | unknown => "UNKNOWN"
  | assigned => "ASSIGNED"
  | dispatched => "DISPATCHED"
  | acknowledged => "ACKNOWLEDGED"
  | executing => "EXECUTING"
  | releasing => "RELEASING"
  | revalidationRequired => "REVALIDATION_REQUIRED"
  | completed => "COMPLETED"
  | failed => "FAILED"
  | released => "RELEASED"
  | invalidated => "INVALIDATED"
  | superseded => "SUPERSEDED"
  | expired => "EXPIRED"
  | lost => "LOST"
  | cancelled => "CANCELLED"

/-- `assignment_state_is_active`. -/
def isActive : AssignmentState → Bool
  | assigned | dispatched | acknowledged | executing | releasing | revalidationRequired => true
  | _ => false

/-- `assignment_state_is_terminal`. -/
def isTerminal : AssignmentState → Bool
  | completed | failed | released | invalidated | superseded | expired | lost | cancelled => true
  | _ => false

/-- The states in which an agent may act on the assignment. -/
def isLive : AssignmentState → Bool
  | assigned | dispatched | acknowledged | executing => true
  | _ => false

@[simp] theorem isActive_of_isLive {state : AssignmentState} (h : state.isLive) : state.isActive := by
  cases state <;> first | rfl | cases h

theorem not_isActive_of_isTerminal {state : AssignmentState} (h : state.isTerminal) :
    state.isActive = false := by
  cases state <;> first | rfl | cases h

end AssignmentState

inductive InvalidationReason
  | none | agentLost | agentRetired | agentDrained | agentFenced | leaseExpired | workCancelled
  | workSuperseded | policyChanged | capabilityChanged | resourceChanged | budgetChanged | sloChanged
  | schedulerRestart | coordinatorEpochChanged | exclusiveConflict | replaced | shutdown | rejected
  | assignmentAcknowledgedElsewhere | workCompleted | workFailed | leaseReleased
deriving DecidableEq

/-- The complete authority a scheduler assignment binds. -/
structure AssignmentBinding where
  id : AssignmentId := 0
  generation : AssignmentGeneration := 0
  work : WorkId := 0
  workGeneration : WorkGeneration := 0
  agent : AgentId := 0
  agentGeneration : AgentGeneration := 0
  boot : AgentBootId := 0
  scheduler : SchedulerId := 0
  schedulerEpoch : SchedulerEpoch := 0
  coordinatorEpoch : CoordinatorEpoch := 0
  policy : PolicyId := 0
  policyGeneration : PolicyGeneration := 0
  capabilityProfile : CapabilityProfileId := 0
  capabilityGeneration : AgentCapabilityGeneration := 0
  resourceGeneration : ResourceGeneration := 0
  budgetGeneration : BudgetGeneration := 0
  sloGeneration : SloGeneration := 0
  reservationGeneration : ReservationGeneration := 0
  queue : QueueId := 0
  queueGeneration : QueueGeneration := 0
  lease : LeaseId := 0
  leaseGeneration : LeaseGeneration := 0
  dispatch : DispatchId := 0
  dispatchGeneration : DispatchGeneration := 0
  placementDomain : PlacementDomainId := 0
  topologyEpoch : TopologyEpoch := 0
  createdAtMs : UInt64 := 0
  leaseExpiresAtMs : UInt64 := 0
  replicaIndex : UInt32 := 0
  exclusive : Bool := true
deriving DecidableEq

/-- The bytes of a field tag, as `update_field_tag` feeds them. -/
def fieldTag (tag : UInt8) : List UInt8 := tag :: leBytes32 0xA5A5A5A5

def hash128Bytes (value : Hash128) : List UInt8 := leBytes64 value.high ++ leBytes64 value.low

/-- `hash_binding`: the canonical binding encoding, as the bytes fed to the hasher. -/
def hashBinding (binding : AssignmentBinding) : List UInt8 :=
  fieldTag 0x01 ++ leBytes64 (UInt64.ofNat binding.generation.value) ++
  fieldTag 0x02 ++ leBytes64 binding.work.value ++ leBytes64 binding.workGeneration.value ++
  fieldTag 0x03 ++ leBytes64 binding.agent.value ++ leBytes64 binding.agentGeneration.value ++
    hash128Bytes binding.boot.value ++
  fieldTag 0x04 ++ leBytes64 binding.scheduler.value ++
    leBytes64 (UInt64.ofNat binding.schedulerEpoch.value) ++
    leBytes64 (UInt64.ofNat binding.coordinatorEpoch.value) ++
  fieldTag 0x05 ++ leBytes64 binding.policy.value ++ leBytes64 binding.policyGeneration.value ++
  fieldTag 0x06 ++ leBytes64 binding.capabilityProfile.value ++
    leBytes64 binding.capabilityGeneration.value ++
  fieldTag 0x07 ++ leBytes64 binding.resourceGeneration.value ++
    leBytes64 binding.budgetGeneration.value ++ leBytes64 binding.sloGeneration.value ++
    leBytes64 binding.reservationGeneration.value ++
  fieldTag 0x08 ++ leBytes64 binding.queue.value ++ leBytes64 binding.queueGeneration.value ++
  fieldTag 0x09 ++ leBytes64 binding.placementDomain.value ++ leBytes64 binding.topologyEpoch.value ++
  fieldTag 0x0A ++ leBytes32 binding.replicaIndex ++ [if binding.exclusive then 1 else 0]

/-- The digest identity of a byte string fed to a fresh hasher. -/
def derivedId (data : List UInt8) : Hash128 := hash128Of (sha256 data)

def deriveAssignmentId (binding : AssignmentBinding) : AssignmentId := ⟨derivedId (hashBinding binding)⟩

def deriveLeaseId (binding : AssignmentBinding) : LeaseId :=
  ⟨derivedId (fieldTag 0x11 ++ hash128Bytes binding.id.value ++
    leBytes64 (UInt64.ofNat binding.leaseGeneration.value))⟩

def deriveDispatchId (binding : AssignmentBinding) : DispatchId :=
  ⟨derivedId (fieldTag 0x12 ++ hash128Bytes binding.id.value ++
    leBytes64 (UInt64.ofNat binding.dispatchGeneration.value))⟩

/-- A bounded lease over an assignment. -/
structure Lease where
  id : LeaseId := 0
  generation : LeaseGeneration := 0
  assignment : AssignmentId := 0
  assignmentGeneration : AssignmentGeneration := 0
  agent : AgentId := 0
  boot : AgentBootId := 0
  grantedAtMs : UInt64 := 0
  expiresAtMs : UInt64 := 0
  current : Bool := false
deriving DecidableEq

/-- A permanently fenced incarnation, per (agent, boot). -/
structure FencedBoot where
  agent : AgentId := 0
  boot : AgentBootId := 0
  generation : AgentGeneration := 0
  fencedAtMs : UInt64 := 0
  reason : Text := ""
deriving DecidableEq

end AgentScheduler
