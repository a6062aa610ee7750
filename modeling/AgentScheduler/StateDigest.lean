import AgentScheduler.State
import AgentScheduler.Streaming
import AgentScheduler.Unambiguous

/-! The bytes that the state digest is computed over, and what two states that feed the same bytes share. -/
namespace AgentScheduler
open ByteCodec Unambiguous

/-! ### The hash helpers, as the bytes they feed -/

def hashText (value : Text) : List UInt8 := leBytes32 (UInt32.ofNat value.size) ++ value.bytes
def hashFlag (value : Bool) : List UInt8 := [if value then 1 else 0]
def hashEnum (index : Nat) : List UInt8 := [UInt8.ofNat index]
def hashId {tag : IdTag} (id : StrongId tag UInt64) : List UInt8 := leBytes64 id.value
def hashCounter {tag : IdTag} (id : StrongId tag Nat) : List UInt8 := leBytes64 (UInt64.ofNat id.value)
def hashDerived {tag : IdTag} (id : StrongId tag Hash128) : List UInt8 := leBytes64 id.value.high ++ leBytes64 id.value.low
def hashCount (n : Nat) : List UInt8 := leBytes64 (UInt64.ofNat n)
def hashDouble (value : F64) : List UInt8 := leBytes64 value.bits
def hashLabels (labels : List Text) : List UInt8 := counted hashText labels

def hashRankingWeight (weight : RankingWeight) : List UInt8 := hashText weight.factor ++ leBytes32 weight.weight
def hashClassWeight (weight : QueueClassWeight) : List UInt8 := hashText weight.fairnessClass ++ leBytes32 weight.weight

/-- `hash_policy`. -/
def hashPolicy (policy : PolicySnapshot) : List UInt8 :=
  [fieldTag 0x30, hashId policy.id, hashId policy.generation, leBytes32 policy.agingRoundsPerStep,
   leBytes32 policy.maxPriorityBypass, leBytes32 policy.starvationAlertRounds,
   hashFlag policy.allowUnboundedStarvation, leBytes32 policy.antiConcentrationWindow,
   leBytes32 policy.antiConcentrationPenalty, leBytes64 policy.capabilityStalenessMs,
   leBytes64 policy.healthStalenessMs, leBytes64 policy.loadStalenessMs, leBytes64 policy.availabilityStalenessMs,
   leBytes64 policy.assignmentLeaseTtlMs, leBytes64 policy.registrationLeaseTtlMs,
   hashFlag policy.closeDispatchAuthorityOnShutdown, counted hashRankingWeight policy.rankingWeights,
   counted hashClassWeight policy.fairnessClassWeights].flatten

def hashEvidence (evidence : CapabilityEvidence) : List UInt8 :=
  [hashText evidence.name, hashEnum evidence.state.ctorIdx, leBytes32 evidence.quality, hashId evidence.generation,
   hashDerived evidence.boot, leBytes64 evidence.observedAtMs, hashText evidence.provenance].flatten

/-- `hash_capability_profile`. -/
def hashCapabilityProfile (profile : CapabilityProfile) : List UInt8 :=
  [fieldTag 0x31, hashId profile.profileId, hashId profile.generation, hashDerived profile.boot,
   counted hashEvidence profile.capabilities].flatten

/-- `hash_agent_record`. -/
def hashAgentRecord (record : AgentRecord) : List UInt8 :=
  [fieldTag 0x40, hashId record.descriptor.id, hashId record.descriptor.generation, hashDerived record.descriptor.boot,
   hashId record.descriptor.registrationGeneration, hashId record.descriptor.tenant, hashId record.descriptor.nameSpace,
   hashText record.descriptor.displayName, hashLabels record.descriptor.policyLabels,
   hashId record.descriptor.placementDomain, hashId record.descriptor.topologyEpoch,
   leBytes32 record.descriptor.maxConcurrency, leBytes64 record.descriptor.leaseTtlMs,
   hashText record.descriptor.provenance, hashEnum record.lifecycle.ctorIdx, hashEnum record.health.ctorIdx,
   hashEnum record.readiness.ctorIdx, hashEnum record.reachability.ctorIdx, hashEnum record.availability.ctorIdx,
   hashId record.healthGeneration, hashId record.availabilityGeneration, hashId record.loadGeneration,
   leBytes32 record.healthObservation.healthQuality, leBytes64 record.healthObservation.observedAtMs,
   leBytes64 record.availabilityObservation.observedAtMs, leBytes32 record.loadObservation.reportedActiveAssignments,
   leBytes32 record.loadObservation.queueDepth, leBytes32 record.loadObservation.cpuPressurePercent,
   leBytes64 record.loadObservation.estimatedDispatchLatencyMs, hashDouble record.loadObservation.costIndex,
   hashDouble record.loadObservation.sloHeadroomFraction, hashLabels record.loadObservation.warmStateKeys,
   leBytes64 record.loadObservation.observedAtMs, leBytes64 record.leaseExpiresAtMs,
   leBytes32 (UInt32.ofNat record.activeAssignments), leBytes32 record.recentAssignments,
   leBytes64 record.lastHeartbeatMs, leBytes64 record.registeredAtMs, hashCount record.assignmentsCompleted,
   hashCount record.assignmentsFailed, hashFlag record.capabilityCurrent, hashFlag record.healthCurrent,
   hashFlag record.availabilityCurrent, hashFlag record.loadCurrent, hashFlag record.recovered, hashText record.reason,
   hashCapabilityProfile record.profile].flatten

def hashRequirement (requirement : CapabilityRequirement) : List UInt8 :=
  [hashText requirement.name, hashEnum requirement.mode.ctorIdx, hashEnum requirement.minimumState.ctorIdx,
   leBytes32 requirement.minimumQuality].flatten

/-- `hash_work_record`. -/
def hashWorkRecord (record : WorkRecord) : List UInt8 :=
  let request := record.request
  let requirements := request.requirements
  [fieldTag 0x41, hashId request.id, hashId request.generation, hashId request.queue, hashId request.queueGeneration,
   hashText request.kind, leBytes32 request.priority, hashText request.fairnessClass, hashEnum request.mode.ctorIdx,
   hashText request.payloadRef, leBytes64 request.earliestStartMs, leBytes64 request.expectedDurationMs,
   hashId requirements.tenant, hashId requirements.nameSpace, counted hashRequirement requirements.capabilities,
   hashLabels requirements.requiredPolicyLabels, counted hashId requirements.affinity,
   counted hashId requirements.antiAffinity, hashFlag requirements.restrictPlacementDomain,
   hashId requirements.placementDomain, hashId requirements.topologyEpoch, hashFlag requirements.requireHealthy,
   hashFlag requirements.requireReachable, hashFlag requirements.requireReady, hashFlag requirements.requireCurrentLease,
   hashFlag requirements.requireResourceFeasibility, hashId requirements.resourceGeneration,
   hashEnum requirements.resourceFeasibility.ctorIdx, hashFlag requirements.requireBudgetFeasibility,
   hashId requirements.budgetGeneration, hashEnum requirements.budgetFeasibility.ctorIdx,
   hashFlag requirements.requireSloFeasibility, hashId requirements.sloGeneration,
   hashEnum requirements.sloFeasibility.ctorIdx, hashFlag requirements.requireReservation,
   hashId requirements.reservationGeneration, hashEnum requirements.reservationFeasibility.ctorIdx,
   hashFlag requirements.requireWarmState, hashLabels requirements.warmStateKeys, leBytes64 requirements.deadlineMs,
   leBytes32 requirements.maxParallel, leBytes32 requirements.maxAssignmentsPerAgent, hashEnum record.lifecycle.ctorIdx,
   hashCount record.admittedSequence, leBytes64 record.admittedAtMs, leBytes32 record.bypassCount,
   leBytes32 record.starvationRounds, leBytes32 (UInt32.ofNat record.currentAssignments),
   hashCounter record.lastAssignmentGeneration, hashText record.reason].flatten

/-- `hash_assignment_record`. -/
def hashAssignmentRecord (record : AssignmentRecord) : List UInt8 :=
  let binding := record.binding
  [fieldTag 0x42, hashDerived binding.id, hashCounter binding.generation, hashId binding.work,
   hashId binding.workGeneration, hashId binding.agent, hashId binding.agentGeneration, hashDerived binding.boot,
   hashId binding.scheduler, hashCounter binding.schedulerEpoch, hashCounter binding.coordinatorEpoch,
   hashId binding.policy, hashId binding.policyGeneration, hashId binding.capabilityProfile,
   hashId binding.capabilityGeneration, hashId binding.resourceGeneration, hashId binding.budgetGeneration,
   hashId binding.sloGeneration, hashId binding.reservationGeneration, hashId binding.queue,
   hashId binding.queueGeneration, hashDerived binding.lease, hashCounter binding.leaseGeneration,
   hashDerived binding.dispatch, hashCounter binding.dispatchGeneration, hashId binding.placementDomain,
   hashId binding.topologyEpoch, leBytes64 binding.createdAtMs, leBytes64 binding.leaseExpiresAtMs,
   leBytes32 binding.replicaIndex, hashFlag binding.exclusive, hashEnum record.state.ctorIdx,
   hashEnum record.invalidation.ctorIdx, hashFlag record.leaseCurrent, leBytes64 record.dispatchedAtMs,
   leBytes64 record.acknowledgedAtMs, leBytes64 record.closedAtMs, hashText record.reason].flatten

/-! The loop bodies of `compute_state_digest` over the smaller tables. -/

def hashLease (lease : Lease) : List UInt8 :=
  [hashDerived lease.id, hashCounter lease.generation, hashDerived lease.assignment,
   hashCounter lease.assignmentGeneration, leBytes64 lease.grantedAtMs, leBytes64 lease.expiresAtMs,
   hashFlag lease.current].flatten

def hashFencedBoot (fenced : FencedBoot) : List UInt8 :=
  [hashId fenced.agent, hashDerived fenced.boot, hashId fenced.generation, leBytes64 fenced.fencedAtMs].flatten

def hashQueue (queue : QueueRecord) : List UInt8 :=
  [hashId queue.id, hashId queue.generation, hashText queue.fairnessClass, leBytes32 queue.weight,
   hashCount queue.admittedCount, hashCount queue.assignedCount, hashCount queue.completedCount,
   hashCount queue.cancelledCount].flatten

def hashTenant (tenant : TenantRecord) : List UInt8 :=
  [hashId tenant.id, hashCount tenant.admittedCount, hashCount tenant.activeAssignments].flatten

/-- Everything `compute_state_digest` feeds to the hasher, in order. -/
def stateDigestBytes (impl : Impl) : List UInt8 :=
  [fieldTag 0x50, hashId impl.schedulerId, hashCounter impl.schedulerEpoch, hashCounter impl.coordinatorEpoch,
   hashId impl.queueGeneration, hashFlag impl.admissionOpen, hashFlag impl.shuttingDown,
   hashCount impl.nextAdmissionSequence, hashCount impl.schedulingRounds, hashCount impl.assignmentsCreated,
   hashCount impl.assignmentsInvalidated, hashPolicy impl.policy, counted hashAgentRecord impl.agents.values,
   counted hashWorkRecord impl.work.values, counted hashAssignmentRecord impl.assignments.values,
   counted hashLease impl.leases.values, counted hashFencedBoot impl.fencedBoots.values,
   counted hashQueue impl.queues.values, counted hashTenant impl.tenants.values].flatten

/-- `compute_state_digest`. -/
def computeStateDigest (impl : Impl) : List UInt8 := sha256 (stateDigestBytes impl)

/-! ### What the digest covers -/

/-- A text whose length a 32-bit prefix can say. -/
def Text.Hashable (text : Text) : Prop := text.size < 2 ^ 32

/-- A counter as the 64-bit word it is stored in. -/
def StrongId.word {tag : IdTag} (id : StrongId tag Nat) : StrongId tag Nat := ⟨id.value % 2 ^ 64⟩

@[simp] theorem value_inj {tag : IdTag} {Rep : Type} {a b : StrongId tag Rep} : a.value = b.value ↔ a = b := by
  cases a
  cases b
  simp

variable {rest rest' : List UInt8}

@[simp] theorem hashFlag_append {a b : Bool} : hashFlag a ++ rest = hashFlag b ++ rest' ↔ a = b ∧ rest = rest' := by
  cases a <;> cases b <;> simp [hashFlag]

theorem hashEnum_append {α : Type} {index : α → Nat} {value : Nat → α} (hvalue : ∀ a, value (index a) = a)
    (hindex : ∀ a, index a < 256) {a b : α} :
    hashEnum (index a) ++ rest = hashEnum (index b) ++ rest' ↔ a = b ∧ rest = rest' := by
  simp [hashEnum, ofNat8_inj hvalue hindex]

@[simp] theorem hashId_append {tag : IdTag} {a b : StrongId tag UInt64} :
    hashId a ++ rest = hashId b ++ rest' ↔ a = b ∧ rest = rest' := by
  simp [hashId]

@[simp] theorem hashCounter_append {tag : IdTag} {a b : StrongId tag Nat} :
    hashCounter a ++ rest = hashCounter b ++ rest' ↔ a.word = b.word ∧ rest = rest' := by
  simp [hashCounter, ofNat64_inj, StrongId.word]

@[simp] theorem hashDerived_append {tag : IdTag} {a b : StrongId tag Hash128} :
    hashDerived a ++ rest = hashDerived b ++ rest' ↔ a = b ∧ rest = rest' := by
  obtain ⟨high, low⟩ := a
  obtain ⟨high', low'⟩ := b
  simp [hashDerived, and_assoc]

@[simp] theorem hashCount_append {m n : Nat} :
    hashCount m ++ rest = hashCount n ++ rest' ↔ m % 2 ^ 64 = n % 2 ^ 64 ∧ rest = rest' := by
  simp [hashCount, ofNat64_inj]

@[simp] theorem hashDouble_append {a b : F64} : hashDouble a ++ rest = hashDouble b ++ rest' ↔ a = b ∧ rest = rest' := by
  cases a
  cases b
  simp [hashDouble]

@[simp] theorem fieldTag_append {tag : UInt8} : fieldTag tag ++ rest = fieldTag tag ++ rest' ↔ rest = rest' := by
  simp [fieldTag]

theorem hashText_tells : Tells hashText Text.Hashable id := by
  intro x y hx hy rest rest'
  rw [hashText, hashText, List.append_assoc, List.append_assoc, leBytes32_append, ofNat32_inj_of_lt hx hy]
  constructor
  · rintro ⟨hsize, heq⟩
    obtain ⟨hbytes, hrest⟩ := (append_inj_of_length hsize).1 heq
    exact ⟨by cases x; cases y; exact congrArg Text.mk hbytes, hrest⟩
  · rintro ⟨rfl, rfl⟩
    exact ⟨rfl, rfl⟩

theorem hashLabels_tells : Tells hashLabels (Countable Text.Hashable) id := by
  intro x y hx hy rest rest'
  rw [hashLabels, hashLabels, hashText_tells.counted x y hx hy, List.map_id, List.map_id]
  rfl

theorem hashIds_tells {tag : IdTag} : Tells (counted (@hashId tag)) (Countable fun _ => True) id := by
  intro x y hx hy rest rest'
  have hid : Tells (@hashId tag) (fun _ => True) id := by
    intro a b _ _ rest rest'
    exact hashId_append
  rw [hid.counted x y hx hy, List.map_id, List.map_id]
  rfl

theorem hashRankingWeight_tells : Tells hashRankingWeight (fun weight => weight.factor.Hashable) id := by
  intro x y hx hy rest rest'
  rw [hashRankingWeight, hashRankingWeight, List.append_assoc, List.append_assoc, hashText_tells _ _ hx hy,
    leBytes32_append]
  cases x
  cases y
  simp [and_assoc]

theorem hashClassWeight_tells : Tells hashClassWeight (fun weight => weight.fairnessClass.Hashable) id := by
  intro x y hx hy rest rest'
  rw [hashClassWeight, hashClassWeight, List.append_assoc, List.append_assoc, hashText_tells _ _ hx hy,
    leBytes32_append]
  cases x
  cases y
  simp [and_assoc]

structure PolicySnapshot.Hashable (policy : PolicySnapshot) : Prop where
  ranking : Countable (fun weight => weight.factor.Hashable) policy.rankingWeights
  classes : Countable (fun weight => weight.fairnessClass.Hashable) policy.fairnessClassWeights

theorem hashPolicy_tells : Tells hashPolicy PolicySnapshot.Hashable id := by
  intro x y hx hy rest rest'
  have hranking := hashRankingWeight_tells.counted _ _ hx.ranking hy.ranking
  have hclasses := hashClassWeight_tells.counted _ _ hx.classes hy.classes
  simp only [hashPolicy, List.flatten_cons, List.flatten_nil, List.append_assoc, List.nil_append, fieldTag_append,
    hashId_append, leBytes32_append, leBytes64_append, hashFlag_append, hranking, hclasses, List.map_id]
  obtain ⟨⟩ := x
  obtain ⟨⟩ := y
  simp only [id, PolicySnapshot.mk.injEq]
  constructor
  · rintro ⟨rfl, rfl, rfl, rfl, rfl, rfl, rfl, rfl, rfl, rfl, rfl, rfl, rfl, rfl, rfl, rfl, rfl, rfl⟩
    simp
  · rintro ⟨⟨rfl, rfl, rfl, rfl, rfl, rfl, rfl, rfl, rfl, rfl, rfl, rfl, rfl, rfl, rfl, rfl, rfl⟩, rfl⟩
    simp

structure CapabilityEvidence.Hashable (evidence : CapabilityEvidence) : Prop where
  name : evidence.name.Hashable
  provenance : evidence.provenance.Hashable

theorem hashEvidence_tells : Tells hashEvidence CapabilityEvidence.Hashable id := by
  intro x y hx hy rest rest'
  have hstate : ∀ rest rest', hashEnum x.state.ctorIdx ++ rest = hashEnum y.state.ctorIdx ++ rest' ↔
      x.state = y.state ∧ rest = rest' := fun _ _ =>
    hashEnum_append CapabilityState.ofNat_ctorIdx (by intro a; cases a <;> decide)
  simp only [hashEvidence, List.flatten_cons, List.flatten_nil, List.append_assoc, List.nil_append, hashId_append,
    hashDerived_append, leBytes32_append, leBytes64_append, hstate, hashText_tells _ _ hx.name hy.name,
    hashText_tells _ _ hx.provenance hy.provenance]
  obtain ⟨⟩ := x
  obtain ⟨⟩ := y
  simp only [id, CapabilityEvidence.mk.injEq, and_assoc]

def CapabilityProfile.Hashable (profile : CapabilityProfile) : Prop :=
  Countable CapabilityEvidence.Hashable profile.capabilities

theorem hashCapabilityProfile_tells : Tells hashCapabilityProfile CapabilityProfile.Hashable id := by
  intro x y hx hy rest rest'
  simp only [hashCapabilityProfile, List.flatten_cons, List.flatten_nil, List.append_assoc, List.nil_append,
    fieldTag_append, hashId_append, hashDerived_append, hashEvidence_tells.counted _ _ hx hy, List.map_id]
  obtain ⟨⟩ := x
  obtain ⟨⟩ := y
  simp only [id, CapabilityProfile.mk.injEq, and_assoc]

structure AgentRecord.Hashable (record : AgentRecord) : Prop where
  displayName : record.descriptor.displayName.Hashable
  policyLabels : Countable Text.Hashable record.descriptor.policyLabels
  provenance : record.descriptor.provenance.Hashable
  warmStateKeys : Countable Text.Hashable record.loadObservation.warmStateKeys
  reason : record.reason.Hashable
  profile : record.profile.Hashable

/-- The fields of an agent record that are hashed, the others reset. -/
def AgentRecord.covered (record : AgentRecord) : AgentRecord :=
  { record with
    activeAssignments := record.activeAssignments % 2 ^ 32
    assignmentsCompleted := record.assignmentsCompleted % 2 ^ 64
    assignmentsFailed := record.assignmentsFailed % 2 ^ 64
    healthObservation :=
      { healthQuality := record.healthObservation.healthQuality, observedAtMs := record.healthObservation.observedAtMs }
    availabilityObservation := { observedAtMs := record.availabilityObservation.observedAtMs }
    loadObservation := { record.loadObservation with generation := 0, maxConcurrency := 0 } }

theorem hashAgentRecord_tells : Tells hashAgentRecord AgentRecord.Hashable AgentRecord.covered := by
  intro x y hx hy rest rest'
  have hlifecycle (rest rest') : hashEnum x.lifecycle.ctorIdx ++ rest = hashEnum y.lifecycle.ctorIdx ++ rest' ↔
      x.lifecycle = y.lifecycle ∧ rest = rest' :=
    hashEnum_append AgentLifecycle.ofNat_ctorIdx (by intro a; cases a <;> decide)
  have hhealth (rest rest') : hashEnum x.health.ctorIdx ++ rest = hashEnum y.health.ctorIdx ++ rest' ↔
      x.health = y.health ∧ rest = rest' :=
    hashEnum_append AgentHealth.ofNat_ctorIdx (by intro a; cases a <;> decide)
  have hreadiness (rest rest') : hashEnum x.readiness.ctorIdx ++ rest = hashEnum y.readiness.ctorIdx ++ rest' ↔
      x.readiness = y.readiness ∧ rest = rest' :=
    hashEnum_append AgentReadiness.ofNat_ctorIdx (by intro a; cases a <;> decide)
  have hreachability (rest rest') : hashEnum x.reachability.ctorIdx ++ rest = hashEnum y.reachability.ctorIdx ++ rest' ↔
      x.reachability = y.reachability ∧ rest = rest' :=
    hashEnum_append AgentReachability.ofNat_ctorIdx (by intro a; cases a <;> decide)
  have havailability (rest rest') : hashEnum x.availability.ctorIdx ++ rest = hashEnum y.availability.ctorIdx ++ rest' ↔
      x.availability = y.availability ∧ rest = rest' :=
    hashEnum_append AgentAvailability.ofNat_ctorIdx (by intro a; cases a <;> decide)
  simp only [hashAgentRecord, List.flatten_cons, List.flatten_nil, List.append_assoc, List.nil_append, fieldTag_append,
    hashId_append, hashDerived_append, leBytes32_append, leBytes64_append, hashFlag_append, hashDouble_append,
    hashCount_append, hashText_tells _ _ hx.displayName hy.displayName, hashText_tells _ _ hx.provenance hy.provenance,
    hashText_tells _ _ hx.reason hy.reason, hashLabels_tells _ _ hx.policyLabels hy.policyLabels,
    hashLabels_tells _ _ hx.warmStateKeys hy.warmStateKeys, hashCapabilityProfile_tells _ _ hx.profile hy.profile,
    hlifecycle, hhealth, hreadiness, hreachability, havailability, ofNat32_inj, id]
  clear hlifecycle hhealth hreadiness hreachability havailability hx hy
  obtain ⟨⟨⟩, _, _, _, _, _, _, _, _, _, ⟨⟩, ⟨⟩, ⟨⟩⟩ := x
  obtain ⟨⟨⟩, _, _, _, _, _, _, _, _, _, ⟨⟩, ⟨⟩, ⟨⟩⟩ := y
  simp only [AgentRecord.covered, AgentRecord.mk.injEq, AgentDescriptor.mk.injEq, HealthObservation.mk.injEq,
    AvailabilityObservation.mk.injEq, LoadObservation.mk.injEq]
  constructor
  · intro h
    simp only [h, and_self]
  · intro h
    simp only [h, and_self]

theorem hashRequirement_tells : Tells hashRequirement (fun requirement => requirement.name.Hashable) id := by
  intro x y hx hy rest rest'
  have hmode (rest rest') : hashEnum x.mode.ctorIdx ++ rest = hashEnum y.mode.ctorIdx ++ rest' ↔
      x.mode = y.mode ∧ rest = rest' :=
    hashEnum_append CapabilityRequirementMode.ofNat_ctorIdx (by intro a; cases a <;> decide)
  have hstate (rest rest') : hashEnum x.minimumState.ctorIdx ++ rest = hashEnum y.minimumState.ctorIdx ++ rest' ↔
      x.minimumState = y.minimumState ∧ rest = rest' :=
    hashEnum_append CapabilityState.ofNat_ctorIdx (by intro a; cases a <;> decide)
  simp only [hashRequirement, List.flatten_cons, List.flatten_nil, List.append_assoc, List.nil_append,
    leBytes32_append, hmode, hstate, hashText_tells _ _ hx hy]
  obtain ⟨⟩ := x
  obtain ⟨⟩ := y
  simp only [id, CapabilityRequirement.mk.injEq, and_assoc]

structure WorkRecord.Hashable (record : WorkRecord) : Prop where
  kind : record.request.kind.Hashable
  fairnessClass : record.request.fairnessClass.Hashable
  payloadRef : record.request.payloadRef.Hashable
  capabilities : Countable (fun requirement => requirement.name.Hashable) record.request.requirements.capabilities
  labels : Countable Text.Hashable record.request.requirements.requiredPolicyLabels
  affinity : Countable (fun _ => True) record.request.requirements.affinity
  antiAffinity : Countable (fun _ => True) record.request.requirements.antiAffinity
  warmStateKeys : Countable Text.Hashable record.request.requirements.warmStateKeys
  reason : record.reason.Hashable

/-- All fields of a work record are hashed, its counters as machine words. -/
def WorkRecord.covered (record : WorkRecord) : WorkRecord :=
  { record with
    admittedSequence := record.admittedSequence % 2 ^ 64
    currentAssignments := record.currentAssignments % 2 ^ 32
    lastAssignmentGeneration := record.lastAssignmentGeneration.word }

theorem hashWorkRecord_tells : Tells hashWorkRecord WorkRecord.Hashable WorkRecord.covered := by
  intro x y hx hy rest rest'
  have hverdict (a b : FeasibilityVerdict) (rest rest') : hashEnum a.ctorIdx ++ rest = hashEnum b.ctorIdx ++ rest' ↔
      a = b ∧ rest = rest' :=
    hashEnum_append FeasibilityVerdict.ofNat_ctorIdx (by intro a; cases a <;> decide)
  have hmode (rest rest') : hashEnum x.request.mode.ctorIdx ++ rest = hashEnum y.request.mode.ctorIdx ++ rest' ↔
      x.request.mode = y.request.mode ∧ rest = rest' :=
    hashEnum_append SchedulingMode.ofNat_ctorIdx (by intro a; cases a <;> decide)
  have hlifecycle (rest rest') : hashEnum x.lifecycle.ctorIdx ++ rest = hashEnum y.lifecycle.ctorIdx ++ rest' ↔
      x.lifecycle = y.lifecycle ∧ rest = rest' :=
    hashEnum_append WorkLifecycle.ofNat_ctorIdx (by intro a; cases a <;> decide)
  simp only [hashWorkRecord, List.flatten_cons, List.flatten_nil, List.append_assoc, List.nil_append, fieldTag_append,
    hashId_append, hashCounter_append, leBytes32_append, leBytes64_append, hashFlag_append, hashCount_append,
    hashText_tells _ _ hx.kind hy.kind, hashText_tells _ _ hx.fairnessClass hy.fairnessClass,
    hashText_tells _ _ hx.payloadRef hy.payloadRef, hashText_tells _ _ hx.reason hy.reason,
    hashRequirement_tells.counted _ _ hx.capabilities hy.capabilities, hashLabels_tells _ _ hx.labels hy.labels,
    hashIds_tells _ _ hx.affinity hy.affinity, hashIds_tells _ _ hx.antiAffinity hy.antiAffinity,
    hashLabels_tells _ _ hx.warmStateKeys hy.warmStateKeys, hverdict, hmode, hlifecycle, ofNat32_inj, List.map_id, id]
  clear hverdict hmode hlifecycle hx hy
  obtain ⟨⟨_, _, _, _, _, _, _, _, ⟨⟩⟩⟩ := x
  obtain ⟨⟨_, _, _, _, _, _, _, _, ⟨⟩⟩⟩ := y
  simp only [WorkRecord.covered, WorkRecord.mk.injEq, WorkRequest.mk.injEq, WorkRequirements.mk.injEq]
  constructor
  · intro h
    simp only [h, and_self]
  · intro h
    simp only [h, and_self]

/-- All fields of an assignment record are hashed, its generations and epochs as machine words. -/
def AssignmentRecord.covered (record : AssignmentRecord) : AssignmentRecord :=
  { record with
    binding :=
      { record.binding with
        generation := record.binding.generation.word
        schedulerEpoch := record.binding.schedulerEpoch.word
        coordinatorEpoch := record.binding.coordinatorEpoch.word
        leaseGeneration := record.binding.leaseGeneration.word
        dispatchGeneration := record.binding.dispatchGeneration.word } }

theorem hashAssignmentRecord_tells :
    Tells hashAssignmentRecord (fun record => record.reason.Hashable) AssignmentRecord.covered := by
  intro x y hx hy rest rest'
  have hstate (rest rest') : hashEnum x.state.ctorIdx ++ rest = hashEnum y.state.ctorIdx ++ rest' ↔
      x.state = y.state ∧ rest = rest' :=
    hashEnum_append AssignmentState.ofNat_ctorIdx (by intro a; cases a <;> decide)
  have hreason (rest rest') : hashEnum x.invalidation.ctorIdx ++ rest = hashEnum y.invalidation.ctorIdx ++ rest' ↔
      x.invalidation = y.invalidation ∧ rest = rest' :=
    hashEnum_append InvalidationReason.ofNat_ctorIdx (by intro a; cases a <;> decide)
  simp only [hashAssignmentRecord, List.flatten_cons, List.flatten_nil, List.append_assoc, List.nil_append,
    fieldTag_append, hashId_append, hashCounter_append, hashDerived_append, leBytes32_append, leBytes64_append,
    hashFlag_append, hashText_tells _ _ hx hy, hstate, hreason, id]
  clear hstate hreason hx hy
  obtain ⟨⟨⟩⟩ := x
  obtain ⟨⟨⟩⟩ := y
  simp only [AssignmentRecord.covered, AssignmentRecord.mk.injEq, AssignmentBinding.mk.injEq]
  constructor
  · intro h
    simp only [h, and_self]
  · intro h
    simp only [h, and_self]

/-- The agent and the boot of a lease are not hashed. -/
def Lease.covered (lease : Lease) : Lease :=
  { lease with
    generation := lease.generation.word
    assignmentGeneration := lease.assignmentGeneration.word
    agent := 0
    boot := 0 }

theorem hashLease_tells : Tells hashLease (fun _ => True) Lease.covered := by
  intro x y _ _ rest rest'
  simp only [hashLease, List.flatten_cons, List.flatten_nil, List.append_assoc, List.nil_append, hashCounter_append,
    hashDerived_append, leBytes64_append, hashFlag_append]
  obtain ⟨⟩ := x
  obtain ⟨⟩ := y
  simp only [Lease.covered, Lease.mk.injEq, and_assoc, true_and]

/-- The reason of a fenced boot is not hashed. -/
def FencedBoot.covered (fenced : FencedBoot) : FencedBoot := { fenced with reason := "" }

theorem hashFencedBoot_tells : Tells hashFencedBoot (fun _ => True) FencedBoot.covered := by
  intro x y _ _ rest rest'
  simp only [hashFencedBoot, List.flatten_cons, List.flatten_nil, List.append_assoc, List.nil_append, hashId_append,
    hashDerived_append, leBytes64_append]
  obtain ⟨⟩ := x
  obtain ⟨⟩ := y
  simp only [FencedBoot.covered, FencedBoot.mk.injEq, and_assoc, and_true]

def QueueRecord.covered (queue : QueueRecord) : QueueRecord :=
  { queue with
    admittedCount := queue.admittedCount % 2 ^ 64
    assignedCount := queue.assignedCount % 2 ^ 64
    completedCount := queue.completedCount % 2 ^ 64
    cancelledCount := queue.cancelledCount % 2 ^ 64 }

theorem hashQueue_tells : Tells hashQueue (fun queue => queue.fairnessClass.Hashable) QueueRecord.covered := by
  intro x y hx hy rest rest'
  simp only [hashQueue, List.flatten_cons, List.flatten_nil, List.append_assoc, List.nil_append, hashId_append,
    leBytes32_append, hashCount_append, hashText_tells _ _ hx hy, id]
  clear hx hy
  obtain ⟨⟩ := x
  obtain ⟨⟩ := y
  simp only [QueueRecord.covered, QueueRecord.mk.injEq, and_assoc]

def TenantRecord.covered (tenant : TenantRecord) : TenantRecord :=
  { tenant with
    admittedCount := tenant.admittedCount % 2 ^ 64
    activeAssignments := tenant.activeAssignments % 2 ^ 64 }

theorem hashTenant_tells : Tells hashTenant (fun _ => True) TenantRecord.covered := by
  intro x y _ _ rest rest'
  simp only [hashTenant, List.flatten_cons, List.flatten_nil, List.append_assoc, List.nil_append, hashId_append,
    hashCount_append]
  obtain ⟨⟩ := x
  obtain ⟨⟩ := y
  simp only [TenantRecord.covered, TenantRecord.mk.injEq, and_assoc]

/-- The part of a state that its digest covers, record by record in key order. -/
structure CoveredState where
  schedulerId : SchedulerId
  schedulerEpoch : SchedulerEpoch
  coordinatorEpoch : CoordinatorEpoch
  queueGeneration : QueueGeneration
  admissionOpen : Bool
  shuttingDown : Bool
  nextAdmissionSequence : Nat
  schedulingRounds : Nat
  assignmentsCreated : Nat
  assignmentsInvalidated : Nat
  policy : PolicySnapshot
  agents : List AgentRecord
  work : List WorkRecord
  assignments : List AssignmentRecord
  leases : List Lease
  fencedBoots : List FencedBoot
  queues : List QueueRecord
  tenants : List TenantRecord

def Impl.covered (impl : Impl) : CoveredState where
  schedulerId := impl.schedulerId
  schedulerEpoch := impl.schedulerEpoch.word
  coordinatorEpoch := impl.coordinatorEpoch.word
  queueGeneration := impl.queueGeneration
  admissionOpen := impl.admissionOpen
  shuttingDown := impl.shuttingDown
  nextAdmissionSequence := impl.nextAdmissionSequence % 2 ^ 64
  schedulingRounds := impl.schedulingRounds % 2 ^ 64
  assignmentsCreated := impl.assignmentsCreated % 2 ^ 64
  assignmentsInvalidated := impl.assignmentsInvalidated % 2 ^ 64
  policy := impl.policy
  agents := impl.agents.values.map AgentRecord.covered
  work := impl.work.values.map WorkRecord.covered
  assignments := impl.assignments.values.map AssignmentRecord.covered
  leases := impl.leases.values.map Lease.covered
  fencedBoots := impl.fencedBoots.values.map FencedBoot.covered
  queues := impl.queues.values.map QueueRecord.covered
  tenants := impl.tenants.values.map TenantRecord.covered

/-- Every string has a length below 2 ^ 32, and every list and table a size that `size_t` can say. -/
structure Impl.Hashable (impl : Impl) : Prop where
  policy : impl.policy.Hashable
  agents : Countable AgentRecord.Hashable impl.agents.values
  work : Countable WorkRecord.Hashable impl.work.values
  assignments : Countable (fun record => record.reason.Hashable) impl.assignments.values
  leases : Countable (fun _ => True) impl.leases.values
  fencedBoots : Countable (fun _ => True) impl.fencedBoots.values
  queues : Countable (fun queue => queue.fairnessClass.Hashable) impl.queues.values
  tenants : Countable (fun _ => True) impl.tenants.values

/-- What a state feeds to the hasher tells everything the digest covers, wherever it ends. -/
theorem stateDigestBytes_tells : Tells stateDigestBytes Impl.Hashable Impl.covered := by
  intro x y hx hy rest rest'
  simp only [stateDigestBytes, List.flatten_cons, List.flatten_nil, List.append_assoc, List.nil_append,
    fieldTag_append, hashId_append, hashCounter_append, hashFlag_append, hashCount_append,
    hashPolicy_tells _ _ hx.policy hy.policy, hashAgentRecord_tells.counted _ _ hx.agents hy.agents,
    hashWorkRecord_tells.counted _ _ hx.work hy.work,
    hashAssignmentRecord_tells.counted _ _ hx.assignments hy.assignments,
    hashLease_tells.counted _ _ hx.leases hy.leases, hashFencedBoot_tells.counted _ _ hx.fencedBoots hy.fencedBoots,
    hashQueue_tells.counted _ _ hx.queues hy.queues, hashTenant_tells.counted _ _ hx.tenants hy.tenants, id]
  simp only [Impl.covered, CoveredState.mk.injEq, and_assoc]

/-- A state whose tables are empty is hashable. -/
theorem hashable_bare (revision : Nat) (running : Bool) :
    Impl.Hashable { stateRevision := revision, running := running } where
  policy := ⟨⟨Nat.two_pow_pos 64, by simp⟩, ⟨Nat.two_pow_pos 64, by simp⟩⟩
  agents := ⟨Nat.two_pow_pos 64, fun _ h => (List.not_mem_nil h).elim⟩
  work := ⟨Nat.two_pow_pos 64, fun _ h => (List.not_mem_nil h).elim⟩
  assignments := ⟨Nat.two_pow_pos 64, fun _ h => (List.not_mem_nil h).elim⟩
  leases := ⟨Nat.two_pow_pos 64, fun _ h => (List.not_mem_nil h).elim⟩
  fencedBoots := ⟨Nat.two_pow_pos 64, fun _ h => (List.not_mem_nil h).elim⟩
  queues := ⟨Nat.two_pow_pos 64, fun _ h => (List.not_mem_nil h).elim⟩
  tenants := ⟨Nat.two_pow_pos 64, fun _ h => (List.not_mem_nil h).elim⟩

end AgentScheduler
