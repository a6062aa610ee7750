import AgentScheduler.State

/-! The canonical record encoding of the state file: a writer and a reader for each record. -/
namespace AgentScheduler
open ByteCodec

/-- Record decoding fails with the text of a `DecodeError`. -/
abbrev Decoder := Reader Text

def truncatedMessage : Text := "truncated message: not enough bytes remain"

def readU8 : Decoder UInt8 := getU8 truncatedMessage
def readU32 : Decoder UInt32 := getU32 truncatedMessage
def readU64 : Decoder UInt64 := getU64 truncatedMessage
def readBool : Decoder Bool := getBool truncatedMessage "boolean field must be 0 or 1"

def readText (ceiling : UInt32) : Decoder Text := do
  return ⟨← getString truncatedMessage "string length exceeds the configured maximum size" ceiling⟩

/-- A 64-bit counter. -/
def readNat : Decoder Nat := do return (← readU64).toNat

def readId {tag : IdTag} : Decoder (StrongId tag UInt64) := do return ⟨← readU64⟩
def readCounter {tag : IdTag} : Decoder (StrongId tag Nat) := do return ⟨← readNat⟩

def readHash {tag : IdTag} : Decoder (StrongId tag Hash128) := do
  let high ← readU64
  let low ← readU64
  return ⟨⟨high, low⟩⟩

/-- Reads the enumerator value of one of `values`. -/
def readEnum {α : Type} (values : List α) (outOfRange : Text) : Decoder α := do
  let code ← readU8
  match values[code.toNat]? with
  | none => throw outOfRange
  | some value => return value

/-- A counted list; every record list of the format has a ceiling of its own. -/
def readCounted {α : Type} (read : Decoder α) (ceiling : UInt32) (tooMany : Text) : Decoder (List α) :=
  readList truncatedMessage read ceiling tooMany

def writeText (text : Text) (ceiling : UInt32) : List Put := putString text.bytes ceiling
def writeNat (n : Nat) : List Put := putU64 (UInt64.ofNat n)
def writeId {tag : IdTag} (id : StrongId tag UInt64) : List Put := putU64 id.value
def writeCounter {tag : IdTag} (id : StrongId tag Nat) : List Put := writeNat id.value
def writeHash {tag : IdTag} (id : StrongId tag Hash128) : List Put := putU64 id.value.high ++ putU64 id.value.low
/-- Writes an enumerator by its position. -/
def writeEnum (index : Nat) : List Put := putU8 (UInt8.ofNat index)

def CapabilityState.all : List CapabilityState := [.unknown, .declared, .observed, .verified, .revoked, .stale]
def CapabilityRequirementMode.all : List CapabilityRequirementMode := [.required, .preferred]
def SchedulingMode.all : List SchedulingMode := [.exclusive, .parallel]
def FeasibilityVerdict.all : List FeasibilityVerdict := [.unknown, .feasible, .infeasible]

def AssignmentState.all : List AssignmentState := [
  .unknown, .assigned, .dispatched, .acknowledged, .executing, .releasing, .revalidationRequired,
  .completed, .failed, .released, .invalidated, .superseded, .expired, .lost, .cancelled]

def InvalidationReason.all : List InvalidationReason := [
  .none, .agentLost, .agentRetired, .agentDrained, .agentFenced, .leaseExpired, .workCancelled,
  .workSuperseded, .policyChanged, .capabilityChanged, .resourceChanged, .budgetChanged, .sloChanged,
  .schedulerRestart, .coordinatorEpochChanged, .exclusiveConflict, .replaced, .shutdown, .rejected,
  .assignmentAcknowledgedElsewhere, .workCompleted, .workFailed, .leaseReleased]

/-- `write_descriptor`. -/
def writeDescriptor (limits : ResourceLimits) (descriptor : AgentDescriptor) : List Put :=
  [writeId descriptor.id, writeId descriptor.generation, writeHash descriptor.boot,
   writeId descriptor.registrationGeneration, writeId descriptor.tenant, writeId descriptor.nameSpace,
   writeText descriptor.displayName limits.maxStringSize,
   putList (writeText · limits.maxIdentifierSize) descriptor.policyLabels,
   writeId descriptor.placementDomain, writeId descriptor.topologyEpoch, putU32 descriptor.maxConcurrency,
   putU64 descriptor.leaseTtlMs, writeText descriptor.provenance limits.maxStringSize].flatten

/-- `read_descriptor`. -/
def readDescriptor (limits : ResourceLimits) : Decoder AgentDescriptor := do
  let id ← readId
  let generation ← readId
  let boot ← readHash
  let registrationGeneration ← readId
  let tenant ← readId
  let nameSpace ← readId
  let displayName ← readText limits.maxStringSize
  let policyLabels ← readCounted (readText limits.maxIdentifierSize) limits.maxPolicyLabels
    "policy label count exceeds the configured maximum"
  let placementDomain ← readId
  let topologyEpoch ← readId
  let maxConcurrency ← readU32
  let leaseTtlMs ← readU64
  let provenance ← readText limits.maxStringSize
  return { id, generation, boot, registrationGeneration, tenant, nameSpace, displayName, policyLabels,
           placementDomain, topologyEpoch, maxConcurrency, leaseTtlMs, provenance }

/-- One piece of evidence in `write_capabilities`. -/
def writeEvidence (limits : ResourceLimits) (evidence : CapabilityEvidence) : List Put :=
  [writeText evidence.name limits.maxIdentifierSize, writeEnum evidence.state.ctorIdx,
   putU32 evidence.quality, writeId evidence.generation, writeHash evidence.boot,
   putU64 evidence.observedAtMs, writeText evidence.provenance limits.maxStringSize].flatten

/-- One piece of evidence in `read_capabilities`. -/
def readEvidence (limits : ResourceLimits) : Decoder CapabilityEvidence := do
  let name ← readText limits.maxIdentifierSize
  let state ← readEnum CapabilityState.all "capability state is out of range"
  let quality ← readU32
  failIf (1000 < quality) "capability quality is out of range"
  let generation ← readId
  let boot ← readHash
  let observedAtMs ← readU64
  let provenance ← readText limits.maxStringSize
  return { name, state, quality, generation, boot, observedAtMs, provenance }

/-- `write_capabilities`. -/
def writeCapabilities (limits : ResourceLimits) (profile : CapabilityProfile) : List Put :=
  [writeId profile.profileId, writeId profile.generation, writeHash profile.boot,
   putList (writeEvidence limits) profile.capabilities].flatten

/-- `read_capabilities`. -/
def readCapabilities (limits : ResourceLimits) : Decoder CapabilityProfile := do
  let profileId ← readId
  let generation ← readId
  let boot ← readHash
  let capabilities ← readCounted (readEvidence limits) limits.maxCapabilitiesPerAgent
    "capability count exceeds the configured maximum"
  return { profileId, generation, boot, capabilities }

/-- One capability requirement in `write_work_request`. -/
def writeRequirement (limits : ResourceLimits) (requirement : CapabilityRequirement) : List Put :=
  [writeText requirement.name limits.maxIdentifierSize, writeEnum requirement.mode.ctorIdx,
   writeEnum requirement.minimumState.ctorIdx, putU32 requirement.minimumQuality].flatten

/-- One capability requirement in `read_work_request`. -/
def readRequirement (limits : ResourceLimits) : Decoder CapabilityRequirement := do
  let name ← readText limits.maxIdentifierSize
  let mode ← readEnum CapabilityRequirementMode.all "capability requirement mode is out of range"
  let minimumState ← readEnum CapabilityState.all "capability minimum state is out of range"
  let minimumQuality ← readU32
  return { name, mode, minimumState, minimumQuality }

/-- The requirements part of `write_work_request`. -/
def writeRequirements (limits : ResourceLimits) (requirements : WorkRequirements) : List Put :=
  [putList (writeRequirement limits) requirements.capabilities, writeId requirements.tenant,
   writeId requirements.nameSpace,
   putList (writeText · limits.maxIdentifierSize) requirements.requiredPolicyLabels,
   putList writeId requirements.affinity, putList writeId requirements.antiAffinity,
   putBool requirements.restrictPlacementDomain, writeId requirements.placementDomain,
   writeId requirements.topologyEpoch, putBool requirements.requireHealthy,
   putBool requirements.requireReachable, putBool requirements.requireReady,
   putBool requirements.requireCurrentLease,
   putBool requirements.requireResourceFeasibility, writeId requirements.resourceGeneration,
   writeEnum requirements.resourceFeasibility.ctorIdx,
   putBool requirements.requireBudgetFeasibility, writeId requirements.budgetGeneration,
   writeEnum requirements.budgetFeasibility.ctorIdx,
   putBool requirements.requireSloFeasibility, writeId requirements.sloGeneration,
   writeEnum requirements.sloFeasibility.ctorIdx,
   putBool requirements.requireReservation, writeId requirements.reservationGeneration,
   writeEnum requirements.reservationFeasibility.ctorIdx,
   putBool requirements.requireWarmState,
   putList (writeText · limits.maxIdentifierSize) requirements.warmStateKeys,
   putU64 requirements.deadlineMs, putU32 requirements.maxParallel,
   putU32 requirements.maxAssignmentsPerAgent].flatten

/-- `static_cast<FeasibilityVerdict>` of a code that is checked to be in range. -/
def verdictOf (code : UInt8) : FeasibilityVerdict := FeasibilityVerdict.all.getD code.toNat .unknown

/-- The requirements part of `read_work_request`; the verdicts are checked after everything is read. -/
def readRequirements (limits : ResourceLimits) : Decoder WorkRequirements := do
  let capabilities ← readCounted (readRequirement limits) limits.maxCapabilityRequirements
    "capability requirement count exceeds the configured maximum"
  let tenant ← readId
  let nameSpace ← readId
  let requiredPolicyLabels ← readCounted (readText limits.maxIdentifierSize) limits.maxPolicyLabels
    "policy label count exceeds the configured maximum"
  let affinity ← readCounted readId limits.maxAffinityEntries
    "affinity count exceeds the configured maximum"
  let antiAffinity ← readCounted readId limits.maxAffinityEntries
    "anti-affinity count exceeds the configured maximum"
  let restrictPlacementDomain ← readBool
  let placementDomain ← readId
  let topologyEpoch ← readId
  let requireHealthy ← readBool
  let requireReachable ← readBool
  let requireReady ← readBool
  let requireCurrentLease ← readBool
  let requireResourceFeasibility ← readBool
  let resourceGeneration ← readId
  let resource ← readU8
  let requireBudgetFeasibility ← readBool
  let budgetGeneration ← readId
  let budget ← readU8
  let requireSloFeasibility ← readBool
  let sloGeneration ← readId
  let slo ← readU8
  let requireReservation ← readBool
  let reservationGeneration ← readId
  let reservation ← readU8
  let requireWarmState ← readBool
  let warmStateKeys ← readCounted (readText limits.maxIdentifierSize) limits.maxWarmStateKeys
    "warm state key count exceeds the configured maximum"
  let deadlineMs ← readU64
  let maxParallel ← readU32
  let maxAssignmentsPerAgent ← readU32
  failIf (2 < resource ∨ 2 < budget ∨ 2 < slo ∨ 2 < reservation) "feasibility verdict is out of range"
  return { capabilities, tenant, nameSpace, requiredPolicyLabels, affinity, antiAffinity,
           restrictPlacementDomain, placementDomain, topologyEpoch, requireHealthy, requireReachable,
           requireReady, requireCurrentLease, requireResourceFeasibility, resourceGeneration,
           resourceFeasibility := verdictOf resource, requireBudgetFeasibility, budgetGeneration,
           budgetFeasibility := verdictOf budget, requireSloFeasibility, sloGeneration,
           sloFeasibility := verdictOf slo, requireReservation, reservationGeneration,
           reservationFeasibility := verdictOf reservation, requireWarmState, warmStateKeys, deadlineMs,
           maxParallel, maxAssignmentsPerAgent }

/-- `write_work_request`. -/
def writeWorkRequest (limits : ResourceLimits) (request : WorkRequest) : List Put :=
  [writeId request.id, writeId request.generation, writeId request.queue, writeId request.queueGeneration,
   writeText request.kind limits.maxIdentifierSize, putU32 request.priority,
   writeText request.fairnessClass limits.maxIdentifierSize, writeEnum request.mode.ctorIdx,
   writeText request.payloadRef limits.maxStringSize, putU64 request.earliestStartMs,
   putU64 request.expectedDurationMs, writeRequirements limits request.requirements].flatten

/-- `read_work_request`. -/
def readWorkRequest (limits : ResourceLimits) : Decoder WorkRequest := do
  let id ← readId
  let generation ← readId
  let queue ← readId
  let queueGeneration ← readId
  let kind ← readText limits.maxIdentifierSize
  let priority ← readU32
  let fairnessClass ← readText limits.maxIdentifierSize
  let mode ← readEnum SchedulingMode.all "scheduling mode is out of range"
  let payloadRef ← readText limits.maxStringSize
  let earliestStartMs ← readU64
  let expectedDurationMs ← readU64
  let requirements ← readRequirements limits
  return { id, generation, queue, queueGeneration, kind, priority, fairnessClass, mode, requirements,
           payloadRef, earliestStartMs, expectedDurationMs }

/-- `write_binding`. -/
def writeBinding (binding : AssignmentBinding) : List Put :=
  [writeHash binding.id, writeCounter binding.generation, writeId binding.work, writeId binding.workGeneration,
   writeId binding.agent, writeId binding.agentGeneration, writeHash binding.boot, writeId binding.scheduler,
   writeCounter binding.schedulerEpoch, writeCounter binding.coordinatorEpoch, writeId binding.policy,
   writeId binding.policyGeneration, writeId binding.capabilityProfile, writeId binding.capabilityGeneration,
   writeId binding.resourceGeneration, writeId binding.budgetGeneration, writeId binding.sloGeneration,
   writeId binding.reservationGeneration, writeId binding.queue, writeId binding.queueGeneration,
   writeHash binding.lease, writeCounter binding.leaseGeneration, writeHash binding.dispatch,
   writeCounter binding.dispatchGeneration, writeId binding.placementDomain, writeId binding.topologyEpoch,
   putU64 binding.createdAtMs, putU64 binding.leaseExpiresAtMs, putU32 binding.replicaIndex,
   putBool binding.exclusive].flatten

/-- `read_binding`. -/
def readBinding : Decoder AssignmentBinding := do
  let id ← readHash
  let generation ← readCounter
  let work ← readId
  let workGeneration ← readId
  let agent ← readId
  let agentGeneration ← readId
  let boot ← readHash
  let scheduler ← readId
  let schedulerEpoch ← readCounter
  let coordinatorEpoch ← readCounter
  let policy ← readId
  let policyGeneration ← readId
  let capabilityProfile ← readId
  let capabilityGeneration ← readId
  let resourceGeneration ← readId
  let budgetGeneration ← readId
  let sloGeneration ← readId
  let reservationGeneration ← readId
  let queue ← readId
  let queueGeneration ← readId
  let lease ← readHash
  let leaseGeneration ← readCounter
  let dispatch ← readHash
  let dispatchGeneration ← readCounter
  let placementDomain ← readId
  let topologyEpoch ← readId
  let createdAtMs ← readU64
  let leaseExpiresAtMs ← readU64
  let replicaIndex ← readU32
  let exclusive ← readBool
  return { id, generation, work, workGeneration, agent, agentGeneration, boot, scheduler, schedulerEpoch,
           coordinatorEpoch, policy, policyGeneration, capabilityProfile, capabilityGeneration,
           resourceGeneration, budgetGeneration, sloGeneration, reservationGeneration, queue,
           queueGeneration, lease, leaseGeneration, dispatch, dispatchGeneration, placementDomain,
           topologyEpoch, createdAtMs, leaseExpiresAtMs, replicaIndex, exclusive }

/-- One ranking weight in `write_policy`. -/
def writeRankingWeight (limits : ResourceLimits) (weight : RankingWeight) : List Put :=
  [writeText weight.factor limits.maxIdentifierSize, putU32 weight.weight].flatten

def readRankingWeight (limits : ResourceLimits) : Decoder RankingWeight := do
  let factor ← readText limits.maxIdentifierSize
  let weight ← readU32
  return { factor, weight }

/-- One fairness class weight in `write_policy`. -/
def writeClassWeight (limits : ResourceLimits) (weight : QueueClassWeight) : List Put :=
  [writeText weight.fairnessClass limits.maxIdentifierSize, putU32 weight.weight].flatten

def readClassWeight (limits : ResourceLimits) : Decoder QueueClassWeight := do
  let fairnessClass ← readText limits.maxIdentifierSize
  let weight ← readU32
  return { fairnessClass, weight }

/-- `write_policy`. -/
def writePolicy (limits : ResourceLimits) (policy : PolicySnapshot) : List Put :=
  [writeId policy.id, writeId policy.generation, putU32 policy.agingRoundsPerStep,
   putU32 policy.maxPriorityBypass, putU32 policy.starvationAlertRounds,
   putBool policy.allowUnboundedStarvation, putU32 policy.antiConcentrationWindow,
   putU32 policy.antiConcentrationPenalty, putU64 policy.capabilityStalenessMs,
   putU64 policy.healthStalenessMs, putU64 policy.loadStalenessMs, putU64 policy.availabilityStalenessMs,
   putU64 policy.assignmentLeaseTtlMs, putU64 policy.registrationLeaseTtlMs,
   putBool policy.closeDispatchAuthorityOnShutdown, putList (writeRankingWeight limits) policy.rankingWeights,
   putList (writeClassWeight limits) policy.fairnessClassWeights].flatten

/-- `read_policy`. -/
def readPolicy (limits : ResourceLimits) : Decoder PolicySnapshot := do
  let id ← readId
  let generation ← readId
  let agingRoundsPerStep ← readU32
  let maxPriorityBypass ← readU32
  let starvationAlertRounds ← readU32
  let allowUnboundedStarvation ← readBool
  let antiConcentrationWindow ← readU32
  let antiConcentrationPenalty ← readU32
  let capabilityStalenessMs ← readU64
  let healthStalenessMs ← readU64
  let loadStalenessMs ← readU64
  let availabilityStalenessMs ← readU64
  let assignmentLeaseTtlMs ← readU64
  let registrationLeaseTtlMs ← readU64
  let closeDispatchAuthorityOnShutdown ← readBool
  let rankingWeights ← readCounted (readRankingWeight limits) limits.maxExplanationFactors
    "ranking weight count exceeds the configured maximum"
  let fairnessClassWeights ← readCounted (readClassWeight limits) limits.maxQueues
    "fairness class count exceeds the configured maximum"
  return { id, generation, agingRoundsPerStep, maxPriorityBypass, starvationAlertRounds,
           allowUnboundedStarvation, fairnessClassWeights, antiConcentrationWindow,
           antiConcentrationPenalty, capabilityStalenessMs, healthStalenessMs, loadStalenessMs,
           availabilityStalenessMs, assignmentLeaseTtlMs, registrationLeaseTtlMs,
           closeDispatchAuthorityOnShutdown, rankingWeights }

end AgentScheduler
