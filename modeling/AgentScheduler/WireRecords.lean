import AgentScheduler.Inversion
import AgentScheduler.FrameStream

/-! `net/protocol.cpp`: the records of the wire messages, and what their decoders accept. -/
namespace AgentScheduler
open ByteCodec

/-! ### Fields -/

/-- A text that is no longer than the ceiling of its field. -/
def Text.Within (ceiling : UInt32) (text : Text) : Prop := text.size ≤ ceiling.toNat

/-- A counted list of texts within its two ceilings. -/
def TextsWithin (count ceiling : UInt32) (texts : List Text) : Prop :=
  texts.length ≤ count.toNat ∧ ∀ text ∈ texts, text.Within ceiling

/-- A counter that is a 64-bit word, as every counter of the source is. -/
def StrongId.IsWord {tag : IdTag} (id : StrongId tag Nat) : Prop := id.value < 2 ^ 64

/-- `get_u16`. -/
def readU16 : Decoder UInt16 := do return joinLe16 (← getBytes truncatedMessage 2)
/-- `put_u16`. -/
def putU16 (value : UInt16) : List Put := [.raw (leBytes16 value)]

/-- `get_f64`. -/
def readF64 : Decoder F64 := do
  let bits ← readU64
  failIf (¬(F64.mk bits).isFinite) "non-finite double is not accepted"
  return ⟨bits⟩

/-- `put_f64` of a finite double. -/
def putF64 (value : F64) : List Put := putU64 value.bits

def AgentHealth.all : List AgentHealth := [.unknown, .healthy, .degraded, .unhealthy]
def AgentAvailability.all : List AgentAvailability := [.unknown, .available, .unavailable]
def AgentReachability.all : List AgentReachability := [.unknown, .reachable, .unreachable]
def AgentReadiness.all : List AgentReadiness := [.unknown, .ready, .notReady]

/-! ### Encoders and decoders -/

/-- `encode(SchedulerError)` and `decode(SchedulerError)` move the two enumerators as bare words: a decoded error may hold
words that name no enumerator. -/
structure WireError where
  code : UInt32 := 0
  outcome : UInt32 := 1
  operation : Text := ""
  subject : Text := ""
  currentGeneration : UInt64 := 0
  expectedGeneration : UInt64 := 0
  factors : List Text := []
  detail : Text := ""
deriving DecidableEq

/-- The error as it is put on the wire. -/
def SchedulerError.onWire (error : SchedulerError) : WireError where
  code := UInt32.ofNat error.code.ctorIdx
  outcome := UInt32.ofNat error.outcome.ctorIdx
  operation := error.operation
  subject := error.subject
  currentGeneration := error.currentGeneration
  expectedGeneration := error.expectedGeneration
  factors := error.factors
  detail := error.detail

/-- `encode(SchedulerError)`. -/
def encodeError (limits : ResourceLimits) (error : WireError) : List Put :=
  [putU32 error.code, putU32 error.outcome, writeText error.operation limits.maxIdentifierSize,
   writeText error.subject limits.maxStringSize, putU64 error.currentGeneration, putU64 error.expectedGeneration,
   putList (writeText · limits.maxStringSize) error.factors, writeText error.detail limits.maxStringSize].flatten

/-- `decode(SchedulerError)`. -/
def decodeError (limits : ResourceLimits) : Decoder WireError := do
  let code ← readU32
  let outcome ← readU32
  let operation ← readText limits.maxIdentifierSize
  let subject ← readText limits.maxStringSize
  let currentGeneration ← readU64
  let expectedGeneration ← readU64
  let factors ← readCounted (readText limits.maxStringSize) limits.maxExplanationFactors
    "error factor count exceeds the configured maximum"
  let detail ← readText limits.maxStringSize
  return { code, outcome, operation, subject, currentGeneration, expectedGeneration, factors, detail }

/-- `encode(HealthObservation)`. -/
def encodeHealth (limits : ResourceLimits) (observation : HealthObservation) : List Put :=
  [writeId observation.generation, writeEnum observation.health.ctorIdx, putU32 observation.healthQuality,
   writeText observation.detail limits.maxStringSize, putU64 observation.observedAtMs].flatten

/-- `decode(HealthObservation)`. -/
def decodeHealth (limits : ResourceLimits) : Decoder HealthObservation := do
  let generation ← readId
  let health ← readEnum AgentHealth.all "agent health is out of range"
  let healthQuality ← readU32
  let detail ← readText limits.maxStringSize
  let observedAtMs ← readU64
  return { generation, health, healthQuality, detail, observedAtMs }

/-- `encode(AvailabilityObservation)`. -/
def encodeAvailability (observation : AvailabilityObservation) : List Put :=
  [writeId observation.generation, writeEnum observation.availability.ctorIdx,
   writeEnum observation.reachability.ctorIdx, writeEnum observation.readiness.ctorIdx,
   putU64 observation.observedAtMs].flatten

/-- `decode(AvailabilityObservation)`. -/
def decodeAvailability : Decoder AvailabilityObservation := do
  let generation ← readId
  let availability ← readEnum AgentAvailability.all "agent availability is out of range"
  let reachability ← readEnum AgentReachability.all "agent reachability is out of range"
  let readiness ← readEnum AgentReadiness.all "agent readiness is out of range"
  let observedAtMs ← readU64
  return { generation, availability, reachability, readiness, observedAtMs }

/-- `encode(LoadObservation)`, for finite doubles. -/
def encodeLoad (limits : ResourceLimits) (observation : LoadObservation) : List Put :=
  [writeId observation.generation, putU32 observation.reportedActiveAssignments, putU32 observation.maxConcurrency,
   putU32 observation.queueDepth, putU32 observation.cpuPressurePercent,
   putU64 observation.estimatedDispatchLatencyMs, putF64 observation.costIndex,
   putF64 observation.sloHeadroomFraction, putList (writeText · limits.maxIdentifierSize) observation.warmStateKeys,
   putU64 observation.observedAtMs].flatten

/-- `decode(LoadObservation)`. -/
def decodeLoad (limits : ResourceLimits) : Decoder LoadObservation := do
  let generation ← readId
  let reportedActiveAssignments ← readU32
  let maxConcurrency ← readU32
  let queueDepth ← readU32
  let cpuPressurePercent ← readU32
  let estimatedDispatchLatencyMs ← readU64
  let costIndex ← readF64
  let sloHeadroomFraction ← readF64
  let warmStateKeys ← readCounted (readText limits.maxIdentifierSize) limits.maxWarmStateKeys
    "warm state key count exceeds the configured maximum"
  let observedAtMs ← readU64
  return { generation, reportedActiveAssignments, maxConcurrency, queueDepth, cpuPressurePercent,
           estimatedDispatchLatencyMs, costIndex, sloHeadroomFraction, warmStateKeys, observedAtMs }

/-- `decode_requirements`; unlike the reader of the state file it checks each verdict where it stands. -/
def decodeRequirements (limits : ResourceLimits) : Decoder WorkRequirements := do
  let capabilities ← readCounted (readRequirement limits) limits.maxCapabilityRequirements
    "capability requirement count exceeds the configured maximum"
  let tenant ← readId
  let nameSpace ← readId
  let requiredPolicyLabels ← readCounted (readText limits.maxIdentifierSize) limits.maxPolicyLabels
    "policy label count exceeds the configured maximum"
  let affinity ← readCounted readId limits.maxAffinityEntries
    "affinity count exceeds the configured maximum"
  let antiAffinity ← readCounted readId limits.maxAffinityEntries
    "anti-affinity count exceeds the configured maximum"
  let restrictPlacementDomain ← readBool
  let placementDomain ← readId
  let topologyEpoch ← readId
  let requireHealthy ← readBool
  let requireReachable ← readBool
  let requireReady ← readBool
  let requireCurrentLease ← readBool
  let requireResourceFeasibility ← readBool
  let resourceGeneration ← readId
  let resourceFeasibility ← readEnum FeasibilityVerdict.all "resource feasibility is out of range"
  let requireBudgetFeasibility ← readBool
  let budgetGeneration ← readId
  let budgetFeasibility ← readEnum FeasibilityVerdict.all "budget feasibility is out of range"
  let requireSloFeasibility ← readBool
  let sloGeneration ← readId
  let sloFeasibility ← readEnum FeasibilityVerdict.all "slo feasibility is out of range"
  let requireReservation ← readBool
  let reservationGeneration ← readId
  let reservationFeasibility ← readEnum FeasibilityVerdict.all "reservation feasibility is out of range"
  let requireWarmState ← readBool
  let warmStateKeys ← readCounted (readText limits.maxIdentifierSize) limits.maxWarmStateKeys
    "warm state key count exceeds the configured maximum"
  let deadlineMs ← readU64
  let maxParallel ← readU32
  let maxAssignmentsPerAgent ← readU32
  return { capabilities, tenant, nameSpace, requiredPolicyLabels, affinity, antiAffinity,
           restrictPlacementDomain, placementDomain, topologyEpoch, requireHealthy, requireReachable,
           requireReady, requireCurrentLease, requireResourceFeasibility, resourceGeneration,
           resourceFeasibility, requireBudgetFeasibility, budgetGeneration, budgetFeasibility,
           requireSloFeasibility, sloGeneration, sloFeasibility, requireReservation, reservationGeneration,
           reservationFeasibility, requireWarmState, warmStateKeys, deadlineMs, maxParallel,
           maxAssignmentsPerAgent }

/-- `decode(WorkRequest)`. -/
def decodeWorkRequest (limits : ResourceLimits) : Decoder WorkRequest := do
  let id ← readId
  let generation ← readId
  let queue ← readId
  let queueGeneration ← readId
  let kind ← readText limits.maxIdentifierSize
  let priority ← readU32
  let fairnessClass ← readText limits.maxIdentifierSize
  let mode ← readEnum SchedulingMode.all "scheduling mode is out of range"
  let payloadRef ← readText limits.maxStringSize
  let earliestStartMs ← readU64
  let expectedDurationMs ← readU64
  let requirements ← decodeRequirements limits
  return { id, generation, queue, queueGeneration, kind, priority, fairnessClass, mode, requirements,
           payloadRef, earliestStartMs, expectedDurationMs }

/-! ### What the readers of single fields accept -/

section
variable {tag : IdTag}

theorem inverts_readU8 : Inverts readU8 putU8 (fun _ => True) := inverts_u8
theorem inverts_readU32 : Inverts readU32 putU32 (fun _ => True) := inverts_u32
theorem inverts_readU64 : Inverts readU64 putU64 (fun _ => True) := inverts_u64
theorem inverts_readBool : Inverts readBool putBool (fun _ => True) := inverts_bool

theorem inverts_text (ceiling : UInt32) :
    Inverts (readText ceiling) (writeText · ceiling) (Text.Within ceiling) :=
  inverts_string.wrap Text.mk Text.bytes (fun _ h => ⟨h, rfl⟩) fun _ h => ⟨h, rfl⟩

theorem inverts_texts {count ceiling : UInt32} {tooMany : Text} :
    Inverts (readCounted (readText ceiling) count tooMany) (putList (writeText · ceiling)) (TextsWithin count ceiling) :=
  inverts_list (inverts_text ceiling)

theorem inverts_id : Inverts (readId : Decoder (StrongId tag UInt64)) writeId (fun _ => True) :=
  inverts_u64.wrap StrongId.mk StrongId.value (fun _ _ => ⟨trivial, rfl⟩) fun _ _ => ⟨trivial, rfl⟩

theorem inverts_nat : Inverts readNat writeNat (· < 2 ^ 64) :=
  inverts_u64.wrap UInt64.toNat UInt64.ofNat (fun value _ => ⟨value.toNat_lt, UInt64.ofNat_toNat⟩)
    fun _ h => ⟨trivial, UInt64.toNat_ofNat_of_lt' h⟩

theorem inverts_counter : Inverts (readCounter : Decoder (StrongId tag Nat)) writeCounter StrongId.IsWord :=
  inverts_nat.wrap StrongId.mk StrongId.value (fun _ h => ⟨h, rfl⟩) fun _ h => ⟨h, rfl⟩

theorem inverts_hash : Inverts (readHash : Decoder (StrongId tag Hash128)) writeHash (fun _ => True) := by
  have hfields : Completes (readHash : Decoder (StrongId tag Hash128)) (fun _ => True)
      (fun id : StrongId tag Hash128 => [putU64 id.value.high, putU64 id.value.low]) (fun _ => True ∧ True ∧ True) := by
    refine .field (fun id : StrongId tag Hash128 => id.value.high) inverts_readU64 fun high => ?_
    refine .field (fun id : StrongId tag Hash128 => id.value.low) inverts_readU64 fun low => .done ?_
    rintro ⟨⟨_, _⟩⟩
    simp
  exact (hfields.record fun _ => by simp).rewrite fun id => by simp [writeHash]

theorem inverts_u16 : Inverts readU16 putU16 (fun _ => True) := by
  refine (inverts_bytes 2).wrap joinLe16 leBytes16 ?_ fun value _ => ⟨rfl, joinLe16_leBytes16 value⟩
  intro bytes h
  obtain ⟨low, high, rfl⟩ := List.length_eq_two.mp h
  exact ⟨trivial, leBytes16_joinLe16 low high⟩

theorem inverts_f64 : Inverts readF64 putF64 (fun value => value.isFinite = true) := by
  have hfields : Completes readF64 (fun _ => True) (fun value => [putU64 value.bits])
      (fun value => True ∧ value.isFinite = true ∧ True) := by
    refine .field F64.bits inverts_readU64 fun bits => ?_
    refine .check _ ?_ (.done ?_)
    · rintro ⟨_⟩ ⟨-, rfl⟩
      simp
    · rintro ⟨_⟩
      simp
  exact (hfields.record fun _ => by simp).rewrite fun value => by simp [putF64]

/-- The values of an enumeration in the order of their codes. -/
structure Enumerates {α : Type} (values : List α) (index : α → Nat) : Prop where
  at_index : ∀ value, values[index value]? = some value
  codes : values.map index = List.range values.length
  few : values.length ≤ 256

theorem Enumerates.index_eq {α : Type} {values : List α} {index : α → Nat} (h : Enumerates values index) {code : Nat}
    {value : α} (hcode : values[code]? = some value) : index value = code := by
  have hmap : (values.map index)[code]? = some (index value) := by rw [List.getElem?_map, hcode]; rfl
  rw [h.codes, List.getElem?_range (List.getElem?_eq_some_iff.mp hcode).1] at hmap
  exact (Option.some.inj hmap).symm

/-- An enumerator read by its position among all values. -/
theorem Enumerates.inverts {α : Type} {values : List α} {index : α → Nat} (h : Enumerates values index) {outOfRange : Text} :
    Inverts (readEnum values outOfRange) (fun value => writeEnum (index value)) (fun _ => True) where
  exact input value rest := by
    simp only [readEnum, bind_ok, inverts_readU8.exact, true_and]
    have hindex : index value < values.length := (List.getElem?_eq_some_iff.mp (h.at_index value)).1
    constructor
    · rintro ⟨code, mid, rfl, hread⟩
      cases hcode : values[code.toNat]? with
      | none => rw [hcode] at hread; cases hread
      | some found =>
        rw [hcode] at hread
        obtain ⟨rfl, rfl⟩ := Prod.mk.inj (pure_ok.mp hread)
        rw [writeEnum, h.index_eq hcode, UInt8.ofNat_toNat]
    · rintro rfl
      refine ⟨UInt8.ofNat (index value), rest, rfl, ?_⟩
      rw [UInt8.toNat_ofNat_of_lt' (Nat.lt_of_lt_of_le hindex h.few), h.at_index]
      rfl
  fits value _ := inverts_readU8.fits _ trivial

theorem enumerates_capabilityState : Enumerates CapabilityState.all CapabilityState.ctorIdx :=
  ⟨by rintro (_ | _) <;> rfl, rfl, by decide⟩

theorem enumerates_requirementMode : Enumerates CapabilityRequirementMode.all CapabilityRequirementMode.ctorIdx :=
  ⟨by rintro (_ | _) <;> rfl, rfl, by decide⟩

theorem enumerates_schedulingMode : Enumerates SchedulingMode.all SchedulingMode.ctorIdx :=
  ⟨by rintro (_ | _) <;> rfl, rfl, by decide⟩

theorem enumerates_feasibilityVerdict : Enumerates FeasibilityVerdict.all FeasibilityVerdict.ctorIdx :=
  ⟨by rintro (_ | _) <;> rfl, rfl, by decide⟩

theorem enumerates_agentHealth : Enumerates AgentHealth.all AgentHealth.ctorIdx :=
  ⟨by rintro (_ | _) <;> rfl, rfl, by decide⟩

theorem enumerates_agentAvailability : Enumerates AgentAvailability.all AgentAvailability.ctorIdx :=
  ⟨by rintro (_ | _) <;> rfl, rfl, by decide⟩

theorem enumerates_agentReachability : Enumerates AgentReachability.all AgentReachability.ctorIdx :=
  ⟨by rintro (_ | _) <;> rfl, rfl, by decide⟩

theorem enumerates_agentReadiness : Enumerates AgentReadiness.all AgentReadiness.ctorIdx :=
  ⟨by rintro (_ | _) <;> rfl, rfl, by decide⟩

end

/-! ### Records -/

section
variable {limits : ResourceLimits}

/-- The texts and lists of a descriptor are within the limits. -/
def AgentDescriptor.Within (limits : ResourceLimits) (descriptor : AgentDescriptor) : Prop :=
  descriptor.displayName.Within limits.maxStringSize ∧
    TextsWithin limits.maxPolicyLabels limits.maxIdentifierSize descriptor.policyLabels ∧
    descriptor.provenance.Within limits.maxStringSize

theorem inverts_descriptor :
    Inverts (readDescriptor limits) (writeDescriptor limits) (AgentDescriptor.Within limits) := by
  refine Completes.record
    (.field AgentDescriptor.id inverts_id fun _ =>
     .field AgentDescriptor.generation inverts_id fun _ =>
     .field AgentDescriptor.boot inverts_hash fun _ =>
     .field AgentDescriptor.registrationGeneration inverts_id fun _ =>
     .field AgentDescriptor.tenant inverts_id fun _ =>
     .field AgentDescriptor.nameSpace inverts_id fun _ =>
     .field AgentDescriptor.displayName (inverts_text _) fun _ =>
     .field AgentDescriptor.policyLabels inverts_texts fun _ =>
     .field AgentDescriptor.placementDomain inverts_id fun _ =>
     .field AgentDescriptor.topologyEpoch inverts_id fun _ =>
     .field AgentDescriptor.maxConcurrency inverts_readU32 fun _ =>
     .field AgentDescriptor.leaseTtlMs inverts_readU64 fun _ =>
     .field AgentDescriptor.provenance (inverts_text _) fun _ => .done ?_) ?_
  · rintro ⟨⟩
    simp [and_assoc]
  · simp [AgentDescriptor.Within]

/-- The counters of a binding are words. -/
def AssignmentBinding.Within (binding : AssignmentBinding) : Prop :=
  binding.generation.IsWord ∧ binding.schedulerEpoch.IsWord ∧ binding.coordinatorEpoch.IsWord ∧
    binding.leaseGeneration.IsWord ∧ binding.dispatchGeneration.IsWord

theorem inverts_binding : Inverts readBinding writeBinding AssignmentBinding.Within := by
  refine Completes.record
    (.field AssignmentBinding.id inverts_hash fun _ =>
     .field AssignmentBinding.generation inverts_counter fun _ =>
     .field AssignmentBinding.work inverts_id fun _ =>
     .field AssignmentBinding.workGeneration inverts_id fun _ =>
     .field AssignmentBinding.agent inverts_id fun _ =>
     .field AssignmentBinding.agentGeneration inverts_id fun _ =>
     .field AssignmentBinding.boot inverts_hash fun _ =>
     .field AssignmentBinding.scheduler inverts_id fun _ =>
     .field AssignmentBinding.schedulerEpoch inverts_counter fun _ =>
     .field AssignmentBinding.coordinatorEpoch inverts_counter fun _ =>
     .field AssignmentBinding.policy inverts_id fun _ =>
     .field AssignmentBinding.policyGeneration inverts_id fun _ =>
     .field AssignmentBinding.capabilityProfile inverts_id fun _ =>
     .field AssignmentBinding.capabilityGeneration inverts_id fun _ =>
     .field AssignmentBinding.resourceGeneration inverts_id fun _ =>
     .field AssignmentBinding.budgetGeneration inverts_id fun _ =>
     .field AssignmentBinding.sloGeneration inverts_id fun _ =>
     .field AssignmentBinding.reservationGeneration inverts_id fun _ =>
     .field AssignmentBinding.queue inverts_id fun _ =>
     .field AssignmentBinding.queueGeneration inverts_id fun _ =>
     .field AssignmentBinding.lease inverts_hash fun _ =>
     .field AssignmentBinding.leaseGeneration inverts_counter fun _ =>
     .field AssignmentBinding.dispatch inverts_hash fun _ =>
     .field AssignmentBinding.dispatchGeneration inverts_counter fun _ =>
     .field AssignmentBinding.placementDomain inverts_id fun _ =>
     .field AssignmentBinding.topologyEpoch inverts_id fun _ =>
     .field AssignmentBinding.createdAtMs inverts_readU64 fun _ =>
     .field AssignmentBinding.leaseExpiresAtMs inverts_readU64 fun _ =>
     .field AssignmentBinding.replicaIndex inverts_readU32 fun _ =>
     .field AssignmentBinding.exclusive inverts_readBool fun _ => .done ?_) ?_
  · rintro ⟨⟩
    simp [and_assoc]
  · simp [AssignmentBinding.Within]

/-- The texts of a piece of evidence are within the limits. -/
def CapabilityEvidence.Within (limits : ResourceLimits) (evidence : CapabilityEvidence) : Prop :=
  evidence.name.Within limits.maxIdentifierSize ∧ evidence.provenance.Within limits.maxStringSize

theorem inverts_evidence : Inverts (readEvidence limits) (writeEvidence limits)
    (fun evidence => evidence.Within limits ∧ evidence.quality ≤ 1000) := by
  refine Completes.record
    (.field CapabilityEvidence.name (inverts_text _) fun _ =>
     .field CapabilityEvidence.state enumerates_capabilityState.inverts fun _ =>
     .field CapabilityEvidence.quality inverts_readU32 fun quality =>
     .check (fun evidence : CapabilityEvidence => evidence.quality ≤ 1000) ?_ <|
     .field CapabilityEvidence.generation inverts_id fun _ =>
     .field CapabilityEvidence.boot inverts_hash fun _ =>
     .field CapabilityEvidence.observedAtMs inverts_readU64 fun _ =>
     .field CapabilityEvidence.provenance (inverts_text _) fun _ => .done ?_) ?_
  · rintro evidence ⟨-, rfl⟩
    exact UInt32.not_lt.symm
  · rintro ⟨⟩
    simp [and_assoc]
  · intro evidence
    simp only [CapabilityEvidence.Within, true_and, and_true]
    tauto

def CapabilityProfile.Within (limits : ResourceLimits) (profile : CapabilityProfile) : Prop :=
  profile.capabilities.length ≤ limits.maxCapabilitiesPerAgent.toNat ∧
    ∀ evidence ∈ profile.capabilities, evidence.Within limits

/-- The quality of every piece of evidence is at most 1000. -/
def CapabilityProfile.QualitiesInRange (profile : CapabilityProfile) : Prop :=
  ∀ evidence ∈ profile.capabilities, evidence.quality ≤ 1000

theorem inverts_profile : Inverts (readCapabilities limits) (writeCapabilities limits)
    (fun profile => profile.Within limits ∧ profile.QualitiesInRange) := by
  refine Completes.record
    (.field CapabilityProfile.profileId inverts_id fun _ =>
     .field CapabilityProfile.generation inverts_id fun _ =>
     .field CapabilityProfile.boot inverts_hash fun _ =>
     .field CapabilityProfile.capabilities (inverts_list inverts_evidence) fun _ => .done ?_) ?_
  · rintro ⟨⟩
    simp [and_assoc]
  · intro profile
    simp only [CapabilityProfile.Within, CapabilityProfile.QualitiesInRange, true_and, and_true, forall₂_and, and_assoc]

theorem inverts_requirement : Inverts (readRequirement limits) (writeRequirement limits)
    (fun requirement => requirement.name.Within limits.maxIdentifierSize) := by
  refine Completes.record
    (.field CapabilityRequirement.name (inverts_text _) fun _ =>
     .field CapabilityRequirement.mode enumerates_requirementMode.inverts fun _ =>
     .field CapabilityRequirement.minimumState enumerates_capabilityState.inverts fun _ =>
     .field CapabilityRequirement.minimumQuality inverts_readU32 fun _ => .done ?_) ?_
  · rintro ⟨⟩
    simp [and_assoc]
  · simp

/-- The texts and lists of the requirements are within the limits. -/
def WorkRequirements.Within (limits : ResourceLimits) (requirements : WorkRequirements) : Prop :=
  (requirements.capabilities.length ≤ limits.maxCapabilityRequirements.toNat ∧
      ∀ requirement ∈ requirements.capabilities, requirement.name.Within limits.maxIdentifierSize) ∧
    TextsWithin limits.maxPolicyLabels limits.maxIdentifierSize requirements.requiredPolicyLabels ∧
    requirements.affinity.length ≤ limits.maxAffinityEntries.toNat ∧
    requirements.antiAffinity.length ≤ limits.maxAffinityEntries.toNat ∧
    TextsWithin limits.maxWarmStateKeys limits.maxIdentifierSize requirements.warmStateKeys

theorem inverts_requirements :
    Inverts (decodeRequirements limits) (writeRequirements limits) (WorkRequirements.Within limits) := by
  refine Completes.record
    (.field WorkRequirements.capabilities (inverts_list inverts_requirement) fun _ =>
     .field WorkRequirements.tenant inverts_id fun _ =>
     .field WorkRequirements.nameSpace inverts_id fun _ =>
     .field WorkRequirements.requiredPolicyLabels inverts_texts fun _ =>
     .field WorkRequirements.affinity (inverts_list inverts_id) fun _ =>
     .field WorkRequirements.antiAffinity (inverts_list inverts_id) fun _ =>
     .field WorkRequirements.restrictPlacementDomain inverts_readBool fun _ =>
     .field WorkRequirements.placementDomain inverts_id fun _ =>
     .field WorkRequirements.topologyEpoch inverts_id fun _ =>
     .field WorkRequirements.requireHealthy inverts_readBool fun _ =>
     .field WorkRequirements.requireReachable inverts_readBool fun _ =>
     .field WorkRequirements.requireReady inverts_readBool fun _ =>
     .field WorkRequirements.requireCurrentLease inverts_readBool fun _ =>
     .field WorkRequirements.requireResourceFeasibility inverts_readBool fun _ =>
     .field WorkRequirements.resourceGeneration inverts_id fun _ =>
     .field WorkRequirements.resourceFeasibility enumerates_feasibilityVerdict.inverts fun _ =>
     .field WorkRequirements.requireBudgetFeasibility inverts_readBool fun _ =>
     .field WorkRequirements.budgetGeneration inverts_id fun _ =>
     .field WorkRequirements.budgetFeasibility enumerates_feasibilityVerdict.inverts fun _ =>
     .field WorkRequirements.requireSloFeasibility inverts_readBool fun _ =>
     .field WorkRequirements.sloGeneration inverts_id fun _ =>
     .field WorkRequirements.sloFeasibility enumerates_feasibilityVerdict.inverts fun _ =>
     .field WorkRequirements.requireReservation inverts_readBool fun _ =>
     .field WorkRequirements.reservationGeneration inverts_id fun _ =>
     .field WorkRequirements.reservationFeasibility enumerates_feasibilityVerdict.inverts fun _ =>
     .field WorkRequirements.requireWarmState inverts_readBool fun _ =>
     .field WorkRequirements.warmStateKeys inverts_texts fun _ =>
     .field WorkRequirements.deadlineMs inverts_readU64 fun _ =>
     .field WorkRequirements.maxParallel inverts_readU32 fun _ =>
     .field WorkRequirements.maxAssignmentsPerAgent inverts_readU32 fun _ => .done ?_) ?_
  · rintro ⟨⟩
    simp [and_assoc]
  · simp [WorkRequirements.Within]

/-- The texts and lists of a work request are within the limits. -/
def WorkRequest.Within (limits : ResourceLimits) (request : WorkRequest) : Prop :=
  request.kind.Within limits.maxIdentifierSize ∧ request.fairnessClass.Within limits.maxIdentifierSize ∧
    request.payloadRef.Within limits.maxStringSize ∧ request.requirements.Within limits

theorem inverts_workRequest : Inverts (decodeWorkRequest limits) (writeWorkRequest limits) (WorkRequest.Within limits) := by
  refine Completes.record
    (.field WorkRequest.id inverts_id fun _ =>
     .field WorkRequest.generation inverts_id fun _ =>
     .field WorkRequest.queue inverts_id fun _ =>
     .field WorkRequest.queueGeneration inverts_id fun _ =>
     .field WorkRequest.kind (inverts_text _) fun _ =>
     .field WorkRequest.priority inverts_readU32 fun _ =>
     .field WorkRequest.fairnessClass (inverts_text _) fun _ =>
     .field WorkRequest.mode enumerates_schedulingMode.inverts fun _ =>
     .field WorkRequest.payloadRef (inverts_text _) fun _ =>
     .field WorkRequest.earliestStartMs inverts_readU64 fun _ =>
     .field WorkRequest.expectedDurationMs inverts_readU64 fun _ =>
     .field WorkRequest.requirements inverts_requirements fun _ => .done ?_) ?_
  · rintro ⟨⟩
    simp [and_assoc]
    tauto
  · simp [WorkRequest.Within]

/-- The texts and the factors of an error are within the limits. -/
def WireError.Within (limits : ResourceLimits) (error : WireError) : Prop :=
  error.operation.Within limits.maxIdentifierSize ∧ error.subject.Within limits.maxStringSize ∧
    TextsWithin limits.maxExplanationFactors limits.maxStringSize error.factors ∧ error.detail.Within limits.maxStringSize

theorem inverts_error : Inverts (decodeError limits) (encodeError limits) (WireError.Within limits) := by
  refine Completes.record
    (.field WireError.code inverts_readU32 fun _ =>
     .field WireError.outcome inverts_readU32 fun _ =>
     .field WireError.operation (inverts_text _) fun _ =>
     .field WireError.subject (inverts_text _) fun _ =>
     .field WireError.currentGeneration inverts_readU64 fun _ =>
     .field WireError.expectedGeneration inverts_readU64 fun _ =>
     .field WireError.factors inverts_texts fun _ =>
     .field WireError.detail (inverts_text _) fun _ => .done ?_) ?_
  · rintro ⟨⟩
    simp [and_assoc]
  · simp [WireError.Within]

theorem inverts_health : Inverts (decodeHealth limits) (encodeHealth limits)
    (fun observation => observation.detail.Within limits.maxStringSize) := by
  refine Completes.record
    (.field HealthObservation.generation inverts_id fun _ =>
     .field HealthObservation.health enumerates_agentHealth.inverts fun _ =>
     .field HealthObservation.healthQuality inverts_readU32 fun _ =>
     .field HealthObservation.detail (inverts_text _) fun _ =>
     .field HealthObservation.observedAtMs inverts_readU64 fun _ => .done ?_) ?_
  · rintro ⟨⟩
    simp [and_assoc]
  · simp

theorem inverts_availability : Inverts decodeAvailability encodeAvailability (fun _ => True) := by
  refine Completes.record
    (.field AvailabilityObservation.generation inverts_id fun _ =>
     .field AvailabilityObservation.availability enumerates_agentAvailability.inverts fun _ =>
     .field AvailabilityObservation.reachability enumerates_agentReachability.inverts fun _ =>
     .field AvailabilityObservation.readiness enumerates_agentReadiness.inverts fun _ =>
     .field AvailabilityObservation.observedAtMs inverts_readU64 fun _ => .done ?_) ?_
  · rintro ⟨⟩
    simp [and_assoc]
  · simp

def LoadObservation.Within (limits : ResourceLimits) (observation : LoadObservation) : Prop :=
  TextsWithin limits.maxWarmStateKeys limits.maxIdentifierSize observation.warmStateKeys

/-- Neither double of the observation is an infinity or a NaN. -/
def LoadObservation.isFinite (observation : LoadObservation) : Bool :=
  observation.costIndex.isFinite && observation.sloHeadroomFraction.isFinite

theorem inverts_load : Inverts (decodeLoad limits) (encodeLoad limits)
    (fun observation => observation.Within limits ∧ observation.isFinite = true) := by
  refine Completes.record
    (.field LoadObservation.generation inverts_id fun _ =>
     .field LoadObservation.reportedActiveAssignments inverts_readU32 fun _ =>
     .field LoadObservation.maxConcurrency inverts_readU32 fun _ =>
     .field LoadObservation.queueDepth inverts_readU32 fun _ =>
     .field LoadObservation.cpuPressurePercent inverts_readU32 fun _ =>
     .field LoadObservation.estimatedDispatchLatencyMs inverts_readU64 fun _ =>
     .field LoadObservation.costIndex inverts_f64 fun _ =>
     .field LoadObservation.sloHeadroomFraction inverts_f64 fun _ =>
     .field LoadObservation.warmStateKeys inverts_texts fun _ =>
     .field LoadObservation.observedAtMs inverts_readU64 fun _ => .done ?_) ?_
  · rintro ⟨⟩
    simp [and_assoc]
  · intro observation
    simp only [LoadObservation.Within, LoadObservation.isFinite, Bool.and_eq_true, true_and, and_true]
    tauto

end

end AgentScheduler
