import Mathlib

/-! Strongly typed identifiers and generations, and the 128-bit derived identities. -/
namespace AgentScheduler
open Std

/-- A 128-bit value derived from a digest. -/
structure Hash128 where
  high : UInt64 := 0
  low : UInt64 := 0
deriving DecidableEq, Repr, Inhabited

instance : Zero Hash128 := ⟨{}⟩

instance : Ord Hash128 := ⟨compareLex (compareOn Hash128.high) (compareOn Hash128.low)⟩

instance : TransOrd Hash128 :=
  inferInstanceAs (TransCmp (compareLex (compareOn Hash128.high) (compareOn Hash128.low)))

instance : LawfulEqOrd Hash128 where
  eq_of_compare {a b} h := by
    obtain ⟨hh, hl⟩ := Ordering.then_eq_eq.mp h
    cases a; cases b
    exact congrArg₂ Hash128.mk (compare_eq_iff_eq.mp hh) (compare_eq_iff_eq.mp hl)

/-- The identity kinds of the source, one tag each. -/
inductive IdTag
  | schedulerId | schedulerEpoch | coordinatorEpoch
  | agentId | agentGeneration | agentBootId | agentRegistrationGeneration
  | agentCapabilityGeneration | agentHealthGeneration | agentAvailabilityGeneration | agentLoadGeneration
  | workId | workGeneration | queueId | queueGeneration
  | assignmentId | assignmentGeneration | dispatchId | dispatchGeneration | leaseId | leaseGeneration
  | policyId | policyGeneration | capabilityProfileId
  | placementDomainId | topologyEpoch | budgetGeneration | sloGeneration | resourceGeneration
  | reservationGeneration | tenantId | namespaceId

/-- A strongly typed identifier or generation; the tag keeps kinds apart. -/
structure StrongId (tag : IdTag) (Rep : Type) where
  value : Rep
deriving DecidableEq, Repr, Inhabited

namespace StrongId
variable {tag : IdTag} {Rep : Type}

instance [Zero Rep] : Zero (StrongId tag Rep) := ⟨⟨0⟩⟩

instance (n : Nat) [OfNat Rep n] : OfNat (StrongId tag Rep) n := ⟨⟨OfNat.ofNat n⟩⟩

instance [LT Rep] : LT (StrongId tag Rep) := ⟨fun a b => a.value < b.value⟩
instance [LE Rep] : LE (StrongId tag Rep) := ⟨fun a b => a.value ≤ b.value⟩

instance [LT Rep] [h : DecidableLT Rep] : DecidableLT (StrongId tag Rep) := fun a b => h a.value b.value
instance [LE Rep] [h : DecidableLE Rep] : DecidableLE (StrongId tag Rep) := fun a b => h a.value b.value

instance [Ord Rep] : Ord (StrongId tag Rep) := ⟨compareOn value⟩

instance [Ord Rep] [TransOrd Rep] : TransOrd (StrongId tag Rep) :=
  inferInstanceAs (TransCmp (compareOn value))

instance [Ord Rep] [LawfulEqOrd Rep] : LawfulEqOrd (StrongId tag Rep) where
  eq_of_compare {a b} h := by
    cases a; cases b
    exact congrArg mk (compare_eq_iff_eq.mp h)
  compare_self {a} := (compare_eq_iff_eq (a := a.value)).mpr rfl

/-- `is_zero`. -/
def isZero [Zero Rep] [DecidableEq Rep] (id : StrongId tag Rep) : Bool := id.value = 0

theorem lt_iff [LT Rep] (a b : StrongId tag Rep) : a < b ↔ a.value < b.value := Iff.rfl
theorem le_iff [LE Rep] (a b : StrongId tag Rep) : a ≤ b ↔ a.value ≤ b.value := Iff.rfl

end StrongId

-- Scheduler and process authority. Epochs only ever move by one from a constant and are naturals.
abbrev SchedulerId := StrongId .schedulerId UInt64
abbrev SchedulerEpoch := StrongId .schedulerEpoch Nat
abbrev CoordinatorEpoch := StrongId .coordinatorEpoch Nat

-- Persistent agent identity, incarnation, and evidence generations.
abbrev AgentId := StrongId .agentId UInt64
abbrev AgentGeneration := StrongId .agentGeneration UInt64
abbrev AgentBootId := StrongId .agentBootId Hash128
abbrev AgentRegistrationGeneration := StrongId .agentRegistrationGeneration UInt64
abbrev AgentCapabilityGeneration := StrongId .agentCapabilityGeneration UInt64
abbrev AgentHealthGeneration := StrongId .agentHealthGeneration UInt64
abbrev AgentAvailabilityGeneration := StrongId .agentAvailabilityGeneration UInt64
abbrev AgentLoadGeneration := StrongId .agentLoadGeneration UInt64

-- Work, queues, and dispatch correlation.
abbrev WorkId := StrongId .workId UInt64
abbrev WorkGeneration := StrongId .workGeneration UInt64
abbrev QueueId := StrongId .queueId UInt64
abbrev QueueGeneration := StrongId .queueGeneration UInt64

-- Assignment authority. The generations count commits of one work item.
abbrev AssignmentId := StrongId .assignmentId Hash128
abbrev AssignmentGeneration := StrongId .assignmentGeneration Nat
abbrev DispatchId := StrongId .dispatchId Hash128
abbrev DispatchGeneration := StrongId .dispatchGeneration Nat
abbrev LeaseId := StrongId .leaseId Hash128
abbrev LeaseGeneration := StrongId .leaseGeneration Nat

-- Policy and capability authority.
abbrev PolicyId := StrongId .policyId UInt64
abbrev PolicyGeneration := StrongId .policyGeneration UInt64
abbrev CapabilityProfileId := StrongId .capabilityProfileId UInt64

-- Externally supplied authority generations and scope.
abbrev PlacementDomainId := StrongId .placementDomainId UInt64
abbrev TopologyEpoch := StrongId .topologyEpoch UInt64
abbrev BudgetGeneration := StrongId .budgetGeneration UInt64
abbrev SloGeneration := StrongId .sloGeneration UInt64
abbrev ResourceGeneration := StrongId .resourceGeneration UInt64
abbrev ReservationGeneration := StrongId .reservationGeneration UInt64
abbrev TenantId := StrongId .tenantId UInt64
abbrev NamespaceId := StrongId .namespaceId UInt64

end AgentScheduler
