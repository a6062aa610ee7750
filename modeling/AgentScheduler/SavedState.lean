import AgentScheduler.RoundTrip
import AgentScheduler.Recovery

/-! The bytes that `save` writes against what `load` makes of them: all nine sections, and when they are accepted. -/
namespace AgentScheduler
open Std ByteCodec KeyedTable

/-! ### The other records -/

section Records
variable {limits : ResourceLimits}

theorem enumerates_assignmentState : Enumerates AssignmentState.all AssignmentState.ctorIdx :=
  ⟨by rintro (_ | _) <;> rfl, rfl, by decide⟩

theorem enumerates_invalidationReason : Enumerates InvalidationReason.all InvalidationReason.ctorIdx :=
  ⟨by rintro (_ | _) <;> rfl, rfl, by decide⟩

theorem replays_binding {binding : AssignmentBinding} (h : binding.Within) :
    Replays (writeBinding binding) readBinding True binding := by
  apply inverts_binding.replays fun _ => h
  simp [writeBinding, writeHash, writeId, writeCounter, writeNat, putU64, putU32, putBool, putU8, Put.Short]

theorem replays_rankingWeight (weight : RankingWeight) :
    Replays (writeRankingWeight limits weight) (readRankingWeight limits) True weight := by
  refine Replays.congr (.field (replays_text _ _) <| .field (replays_u32 _) .pure) ?_
  simp

theorem replays_classWeight (weight : QueueClassWeight) :
    Replays (writeClassWeight limits weight) (readClassWeight limits) True weight := by
  refine Replays.congr (.field (replays_text _ _) <| .field (replays_u32 _) .pure) ?_
  simp

/-- The lists of the policy are no longer than the limits allow. -/
def PolicySnapshot.Fits (limits : ResourceLimits) (policy : PolicySnapshot) : Prop :=
  policy.rankingWeights.length ≤ limits.maxExplanationFactors.toNat ∧
    policy.fairnessClassWeights.length ≤ limits.maxQueues.toNat
deriving Decidable

theorem replays_policy (policy : PolicySnapshot) :
    Replays (writePolicy limits policy) (readPolicy limits) (policy.Fits limits) policy := by
  have hweights : ∀ weight ∈ policy.rankingWeights, writeRankingWeight limits weight ≠ [] := by
    simp [writeRankingWeight, writeText, putString]
  have hclasses : ∀ weight ∈ policy.fairnessClassWeights, writeClassWeight limits weight ≠ [] := by
    simp [writeClassWeight, writeText, putString]
  refine Replays.congr
    (.field (replays_id _) <| .field (replays_id _) <| .field (replays_u32 _) <| .field (replays_u32 _) <|
     .field (replays_u32 _) <| .field (replays_bool _) <| .field (replays_u32 _) <| .field (replays_u32 _) <|
     .field (replays_u64 _) <| .field (replays_u64 _) <| .field (replays_u64 _) <| .field (replays_u64 _) <|
     .field (replays_u64 _) <| .field (replays_u64 _) <| .field (replays_bool _) <|
     .field (replays_counted _ hweights fun weight _ => replays_rankingWeight weight) <|
     .field (replays_counted _ hclasses fun weight _ => replays_classWeight weight) .pure) ?_
  simp [PolicySnapshot.Fits]

/-- The counters of the record are words. -/
def QueueRecord.Words (queue : QueueRecord) : Prop :=
  queue.admittedCount < 2 ^ 64 ∧ queue.assignedCount < 2 ^ 64 ∧ queue.completedCount < 2 ^ 64 ∧
    queue.cancelledCount < 2 ^ 64
deriving Decidable

theorem replays_queue {queue : QueueRecord} (h : queue.Words) :
    Replays (writeQueue limits queue) (readQueue limits) True queue := by
  obtain ⟨hadmitted, hassigned, hcompleted, hcancelled⟩ := h
  refine Replays.congr
    (.field (replays_id _) <| .field (replays_id _) <| .field (replays_text _ _) <| .field (replays_u32 _) <|
     .field (replays_nat hadmitted) <| .field (replays_nat hassigned) <| .field (replays_nat hcompleted) <|
     .field (replays_nat hcancelled) .pure) ?_
  simp

def TenantRecord.Words (tenant : TenantRecord) : Prop :=
  tenant.admittedCount < 2 ^ 64 ∧ tenant.activeAssignments < 2 ^ 64
deriving Decidable

theorem replays_tenant {tenant : TenantRecord} (h : tenant.Words) : Replays (writeTenant tenant) readTenant True tenant := by
  obtain ⟨hadmitted, hactive⟩ := h
  refine Replays.congr (.field (replays_id _) <| .field (replays_nat hadmitted) <| .field (replays_nat hactive) .pure) ?_
  simp

def AgentRecord.Words (record : AgentRecord) : Prop :=
  record.assignmentsCompleted < 2 ^ 64 ∧ record.assignmentsFailed < 2 ^ 64
deriving Decidable

instance (profile : CapabilityProfile) : Decidable profile.QualitiesInRange :=
  inferInstanceAs (Decidable (∀ evidence ∈ profile.capabilities, evidence.quality ≤ 1000))

/-- The lists and the qualities of the record are what the limits allow. -/
def AgentRecord.Fits (limits : ResourceLimits) (record : AgentRecord) : Prop :=
  record.descriptor.policyLabels.length ≤ limits.maxPolicyLabels.toNat ∧
    record.profile.capabilities.length ≤ limits.maxCapabilitiesPerAgent.toNat ∧ record.profile.QualitiesInRange
deriving Decidable

theorem lifecycleHint_in_range (lifecycle : AgentLifecycle) : ¬2 < lifecycleHint lifecycle := by
  cases lifecycle <;> decide

theorem replays_agent {record : AgentRecord} (h : record.Words) :
    Replays (writeAgent limits record) (readAgent limits) (record.Fits limits) record.recover := by
  obtain ⟨hcompleted, hfailed⟩ := h
  refine Replays.congr
    (.field (replays_descriptor _) <| .field (replays_u8 _) <| .check <| .field (replays_nat hcompleted) <|
     .field (replays_nat hfailed) <| .field (replays_u64 _) <| .field (replays_u32 _) <| .field (replays_text _ _) <|
     .field (replays_capabilities _) .pure) ?_
  simp only [lifecycleHint_in_range, not_false_eq_true, true_and, and_true, AgentRecord.Fits]

instance {tag : IdTag} (id : StrongId tag Nat) : Decidable id.IsWord := inferInstanceAs (Decidable (_ < _))

def WorkRecord.Words (record : WorkRecord) : Prop :=
  record.admittedSequence < 2 ^ 64 ∧ record.lastAssignmentGeneration.IsWord
deriving Decidable

instance (limits : ResourceLimits) (requirements : WorkRequirements) : Decidable (requirements.Fits limits) :=
  decidable_of_iff
    (requirements.capabilities.length ≤ limits.maxCapabilityRequirements.toNat ∧
      requirements.requiredPolicyLabels.length ≤ limits.maxPolicyLabels.toNat ∧
      requirements.affinity.length ≤ limits.maxAffinityEntries.toNat ∧
      requirements.antiAffinity.length ≤ limits.maxAffinityEntries.toNat ∧
      requirements.warmStateKeys.length ≤ limits.maxWarmStateKeys.toNat)
    ⟨fun ⟨h1, h2, h3, h4, h5⟩ => ⟨h1, h2, h3, h4, h5⟩, fun ⟨h1, h2, h3, h4, h5⟩ => ⟨h1, h2, h3, h4, h5⟩⟩

/-- The lifecycle of the record is known, and its lists are what the limits allow. -/
def WorkRecord.Fits (limits : ResourceLimits) (record : WorkRecord) : Prop :=
  record.request.requirements.Fits limits ∧ record.lifecycle ≠ .unknown
deriving Decidable

theorem workLifecycleFromHint_code (lifecycle : WorkLifecycle) : workLifecycleFromHint lifecycle.code = lifecycle := by
  cases lifecycle <;> rfl

theorem replays_work {record : WorkRecord} (h : record.Words) :
    Replays (writeWork limits record) (readWork limits) (record.Fits limits) record.recover := by
  obtain ⟨hsequence, hgeneration⟩ := h
  refine Replays.congr (Replays.returns
    (.field (replays_workRequest _) <| .field (replays_u8 _) <| .check <| .field (replays_nat hsequence) <|
     .field (replays_u64 _) <| .field (replays_u32 _) <| .field (replays_u32 _) <|
     .field (replays_counter hgeneration) <| .field (replays_text _ _) .pure) ?_) ?_
  · rw [workLifecycleFromHint_code]
    rfl
  · rw [workLifecycleFromHint_code]
    simp [WorkRecord.Fits]

theorem replays_assignment {record : AssignmentRecord} (h : record.binding.Within) :
    Replays (writeAssignment limits record) (readAssignment limits) True record.recover := by
  refine Replays.congr (Replays.returns
    (.field (replays_binding h) <| .field (replays_enum enumerates_assignmentState _) <|
     .field (replays_enum enumerates_invalidationReason _) <| .field (replays_u64 _) <| .field (replays_u64 _) <|
     .field (replays_u64 _) <| .field (replays_text _ _) .pure) ?_) ?_
  · rfl
  · simp

/-- The counters of a lease are words. -/
def Lease.Words (lease : Lease) : Prop := lease.generation.IsWord ∧ lease.assignmentGeneration.IsWord
deriving Decidable

theorem replays_lease {lease : Lease} (h : lease.Words) : Replays (writeLease lease) readLease True lease.recover := by
  obtain ⟨hgeneration, hassignment⟩ := h
  refine Replays.congr
    (.field (replays_hash _) <| .field (replays_counter hgeneration) <| .field (replays_hash _) <|
     .field (replays_counter hassignment) <| .field (replays_id _) <| .field (replays_hash _) <| .field (replays_u64 _) <|
     .field (replays_u64 _) .pure) ?_
  simp

theorem replays_fenced (fenced : FencedBoot) : Replays (writeFenced limits fenced) (readFenced limits) True fenced := by
  refine Replays.congr
    (.field (replays_id _) <| .field (replays_hash _) <| .field (replays_id _) <| .field (replays_u64 _) <|
     .field (replays_text _ _) .pure) ?_
  simp

end Records

/-! ### Tables -/

section Tables
variable {Key Value Stored : Type} [Ord Key] [TransOrd Key] [LawfulEqOrd Key] [DecidableEq Key]

/-- The values of a keyed table, each changed under its key, fill an empty table as the changed table. -/
theorem emplaceAll_values {table : Table Key Value} {key : Value → Key} (keyOf : Stored → Key) (h : Keyed key table)
    (change : Value → Stored) (hkey : ∀ value, keyOf (change value) = key value) :
    emplaceAll ∅ keyOf (table.values.map change) = table.map fun _ value => change value := by
  have hkeys : (table.values.map change).map keyOf = table.toList.map Prod.fst := by
    rw [values_eq, List.map_map, List.map_map]
    apply List.map_congr_left
    rintro ⟨k, value⟩ hmem
    exact (hkey value).trans (h k value (ExtTreeMap.mem_toList_iff_getElem?_eq_some.mp hmem))
  have hnodup : ((table.values.map change).map keyOf).Nodup := hkeys ▸ nodup_toList table
  have hfresh : ∀ value ∈ table.values.map change, (∅ : Table Key Stored)[keyOf value]? = none :=
    fun value _ => ExtTreeMap.getElem?_empty
  obtain ⟨hsize, hstored, -⟩ := emplaceAll_fresh hnodup hfresh
  have hfound : ∀ (k : Key) value, table[k]? = some value →
      (emplaceAll ∅ keyOf (table.values.map change))[k]? = some (change value) := by
    intro k value hvalue
    have hmem : change value ∈ table.values.map change := List.mem_map_of_mem (mem_values.mpr ⟨k, hvalue⟩)
    have hat := hstored (change value) hmem
    rwa [hkey, h k value hvalue] at hat
  apply ExtTreeMap.ext_getElem?
  intro k
  rw [getElem?_map]
  cases hvalue : table[k]? with
  | some value => exact hfound k value hvalue
  | none =>
    -- the filled table has no room for another key
    have hsub : keySet table ⊆ keySet (emplaceAll ∅ keyOf (table.values.map change)) := by
      intro other hother
      obtain ⟨value, hother⟩ := Option.isSome_iff_exists.mp hother
      exact Option.isSome_iff_exists.mpr ⟨_, hfound other value hother⟩
    have hcard : (keySet (emplaceAll ∅ keyOf (table.values.map change))).encard ≤ (keySet table).encard := by
      rw [encard_keySet, encard_keySet, hsize, List.length_map, values_eq, List.length_map, ExtTreeMap.length_toList]
      simp
    have hfinite : (keySet table).Finite := Set.finite_of_encard_le_coe (encard_keySet table).le
    have hsame := hfinite.eq_of_subset_of_encard_le hsub hcard
    rw [Option.map_none]
    by_contra hsome
    have hin : k ∈ keySet table := hsame ▸ Option.isSome_iff_ne_none.mpr hsome
    rw [keySet, Set.mem_ofPred_eq, hvalue] at hin
    cases hin

end Tables

/-! ### Sections -/

/-- The counters of the state are 64-bit words. -/
structure Impl.Words (impl : Impl) : Prop where
  schedulerEpoch : impl.schedulerEpoch.IsWord
  coordinatorEpoch : impl.coordinatorEpoch.IsWord
  nextAdmissionSequence : impl.nextAdmissionSequence < 2 ^ 64
  assignmentsCreated : impl.assignmentsCreated < 2 ^ 64
  assignmentsInvalidated : impl.assignmentsInvalidated < 2 ^ 64
  schedulingRounds : impl.schedulingRounds < 2 ^ 64
  queues : ∀ record ∈ impl.queues.values, record.Words
  tenants : ∀ record ∈ impl.tenants.values, record.Words
  agents : ∀ record ∈ impl.agents.values, record.Words
  work : ∀ record ∈ impl.work.values, record.Words
  assignments : ∀ record ∈ impl.assignments.values, record.binding.Within
  leases : ∀ lease ∈ impl.leases.values, lease.Words

/-- The tables and the lists of the state are no longer than `load` allows. -/
structure Impl.Loadable (impl : Impl) : Prop where
  policy : impl.policy.Fits impl.limits
  queues : impl.queues.values.length ≤ impl.limits.maxQueues.toNat
  tenants : impl.tenants.values.length ≤ impl.limits.maxTenants.toNat
  agents : impl.agents.values.length ≤ impl.limits.maxAgents.toNat ∧
    ∀ record ∈ impl.agents.values, record.Fits impl.limits
  work : impl.work.values.length ≤ impl.limits.maxWorkItems.toNat ∧ ∀ record ∈ impl.work.values, record.Fits impl.limits
  /-- the sum of the two bounds is a 32-bit sum -/
  assignments : impl.assignments.values.length ≤
    (impl.limits.maxActiveAssignments + impl.limits.maxHistoricalAssignments).toNat
  leases : impl.leases.values.length ≤ impl.limits.maxLeases.toNat
  fencedBoots : impl.fencedBoots.values.length ≤ impl.limits.maxFencedBoots.toNat

instance (impl : Impl) : Decidable impl.Loadable :=
  decidable_of_iff
    (impl.policy.Fits impl.limits ∧ impl.queues.values.length ≤ impl.limits.maxQueues.toNat ∧
      impl.tenants.values.length ≤ impl.limits.maxTenants.toNat ∧
      (impl.agents.values.length ≤ impl.limits.maxAgents.toNat ∧
        ∀ record ∈ impl.agents.values, record.Fits impl.limits) ∧
      (impl.work.values.length ≤ impl.limits.maxWorkItems.toNat ∧ ∀ record ∈ impl.work.values, record.Fits impl.limits) ∧
      impl.assignments.values.length ≤ (impl.limits.maxActiveAssignments + impl.limits.maxHistoricalAssignments).toNat ∧
      impl.leases.values.length ≤ impl.limits.maxLeases.toNat ∧
      impl.fencedBoots.values.length ≤ impl.limits.maxFencedBoots.toNat)
    ⟨fun ⟨h1, h2, h3, h4, h5, h6, h7, h8⟩ => ⟨h1, h2, h3, h4, h5, h6, h7, h8⟩,
      fun ⟨h1, h2, h3, h4, h5, h6, h7, h8⟩ => ⟨h1, h2, h3, h4, h5, h6, h7, h8⟩⟩

instance (binding : AssignmentBinding) : Decidable binding.Within := inferInstanceAs (Decidable (_ ∧ _ ∧ _ ∧ _ ∧ _))

instance (impl : Impl) : Decidable impl.Words :=
  decidable_of_iff
    (impl.schedulerEpoch.IsWord ∧ impl.coordinatorEpoch.IsWord ∧ impl.nextAdmissionSequence < 2 ^ 64 ∧
      impl.assignmentsCreated < 2 ^ 64 ∧ impl.assignmentsInvalidated < 2 ^ 64 ∧ impl.schedulingRounds < 2 ^ 64 ∧
      (∀ record ∈ impl.queues.values, record.Words) ∧ (∀ record ∈ impl.tenants.values, record.Words) ∧
      (∀ record ∈ impl.agents.values, record.Words) ∧ (∀ record ∈ impl.work.values, record.Words) ∧
      (∀ record ∈ impl.assignments.values, record.binding.Within) ∧ ∀ lease ∈ impl.leases.values, lease.Words)
    ⟨fun ⟨h1, h2, h3, h4, h5, h6, h7, h8, h9, h10, h11, h12⟩ => ⟨h1, h2, h3, h4, h5, h6, h7, h8, h9, h10, h11, h12⟩,
      fun ⟨h1, h2, h3, h4, h5, h6, h7, h8, h9, h10, h11, h12⟩ => ⟨h1, h2, h3, h4, h5, h6, h7, h8, h9, h10, h11, h12⟩⟩

section Sections
variable {limits : ResourceLimits} {puts : List Put} {fields : List (List Put)} {valid valid' : Prop} {count : Nat}
  {tag : UInt8} {decoded next result : DecodedState}

/-- A section and those behind it. -/
theorem replays_section (hsection : Replays puts (readSection limits tag decoded) valid next)
    (hrest : Replays fields.flatten (readSections limits count next) valid' result) :
    Replays (putU8 tag :: puts :: fields).flatten (readSections limits (count + 1) decoded) (valid ∧ valid') result :=
  (Replays.field (replays_u8 tag) (Replays.field hsection hrest)).congr (by simp)

theorem replays_noSections (decoded : DecodedState) :
    Replays ([] : List (List Put)).flatten (readSections limits 0 decoded) True decoded := Replays.pure

/-- A section that is one list of records, which fills an empty table. -/
theorem replays_table {Key Value : Type} [Ord Key] [TransOrd Key] [LawfulEqOrd Key] [DecidableEq Key] {ceiling : UInt32}
    {tooMany : Text} {put : Value → List Put} {read : Decoder Value} (recover : Value → Value) (fits : Value → Prop)
    (install : List Value → DecodedState) {table : Table Key Value} (hsome : ∀ value ∈ table.values, put value ≠ [])
    (h : ∀ value ∈ table.values, Replays (put value) read (fits value) (recover value)) :
    Replays (putList put table.values) (readCounted read ceiling tooMany >>= fun records => pure (install records))
      (table.values.length ≤ ceiling.toNat ∧ ∀ value ∈ table.values, fits value)
      (install (table.values.map recover)) :=
  Replays.map install (replays_list recover fits hsome h)

theorem recover_active (record : AssignmentRecord) :
    (record.recover.state = .revalidationRequired) ↔ record.state.isActive := by
  rw [AssignmentRecord.recover]
  split
  · next hactive => simpa using hactive
  · next hinactive =>
    constructor
    · intro hstate
      have hstate : record.state = .revalidationRequired := hstate
      rw [hstate] at hinactive
      exact absurd rfl hinactive
    · exact fun hactive => absurd hactive hinactive

theorem emplaceAll_kept {Key Value : Type} [Ord Key] [TransOrd Key] [LawfulEqOrd Key] [DecidableEq Key]
    {table : Table Key Value} {key : Value → Key} (h : Keyed key table) :
    emplaceAll ∅ key (table.values.map fun value => value) = table := by
  rw [emplaceAll_values key h (fun value => value) fun _ => rfl]
  apply ExtTreeMap.ext_getElem?
  intro k
  rw [getElem?_map, Option.map_id']

variable {impl : Impl}

theorem replays_scheduler (hwords : impl.Words) :
    Replays (writeScheduler impl) (readSection limits 1 decoded) True
      { decoded with
        schedulerId := impl.schedulerId
        schedulerEpoch := impl.schedulerEpoch
        coordinatorEpoch := impl.coordinatorEpoch
        queueGeneration := impl.queueGeneration
        nextAdmissionSequence := impl.nextAdmissionSequence
        assignmentsCreated := impl.assignmentsCreated
        assignmentsInvalidated := impl.assignmentsInvalidated
        schedulingRounds := impl.schedulingRounds
        admissionOpen := impl.admissionOpen
        shuttingDown := impl.shuttingDown } := by
  refine Replays.congr
    (.field (replays_id _) <| .field (replays_counter hwords.schedulerEpoch) <|
     .field (replays_counter hwords.coordinatorEpoch) <| .field (replays_id _) <|
     .field (replays_nat hwords.nextAdmissionSequence) <| .field (replays_nat hwords.assignmentsCreated) <|
     .field (replays_nat hwords.assignmentsInvalidated) <| .field (replays_nat hwords.schedulingRounds) <|
     .field (replays_bool _) <| .field (replays_bool _) .pure) ?_
  simp

theorem replays_policySection : Replays (writePolicy limits impl.policy) (readSection limits 2 decoded)
    (impl.policy.Fits limits) { decoded with policy := impl.policy } :=
  Replays.map (fun policy => { decoded with policy }) (replays_policy impl.policy)

theorem replays_queues (hwords : impl.Words) :
    Replays (putList (writeQueue limits) impl.queues.values) (readSection limits 3 decoded)
      (impl.queues.values.length ≤ limits.maxQueues.toNat)
      { decoded with queues := emplaceAll decoded.queues QueueRecord.id (impl.queues.values.map fun queue => queue) } :=
  (replays_table (fun queue => queue) (fun _ => True)
    (fun records => { decoded with queues := emplaceAll decoded.queues QueueRecord.id records })
    (by simp [writeQueue, writeId, putU64]) fun queue hmem => replays_queue (hwords.queues queue hmem)).congr (by simp)

theorem replays_tenants (hwords : impl.Words) :
    Replays (putList writeTenant impl.tenants.values) (readSection limits 4 decoded)
      (impl.tenants.values.length ≤ limits.maxTenants.toNat)
      { decoded with tenants := emplaceAll decoded.tenants TenantRecord.id (impl.tenants.values.map fun tenant => tenant) } :=
  (replays_table (fun tenant => tenant) (fun _ => True)
    (fun records => { decoded with tenants := emplaceAll decoded.tenants TenantRecord.id records })
    (by simp [writeTenant, writeId, putU64]) fun tenant hmem => replays_tenant (hwords.tenants tenant hmem)).congr (by simp)

theorem replays_agents (hwords : impl.Words) :
    Replays (putList (writeAgent limits) impl.agents.values) (readSection limits 5 decoded)
      (impl.agents.values.length ≤ limits.maxAgents.toNat ∧ ∀ record ∈ impl.agents.values, record.Fits limits)
      { decoded with
        agents := emplaceAll decoded.agents (fun record => record.descriptor.id)
          (impl.agents.values.map AgentRecord.recover) } :=
  replays_table AgentRecord.recover (fun record => record.Fits limits)
    (fun records =>
      { decoded with agents := emplaceAll decoded.agents (fun record => record.descriptor.id) records })
    (by simp [writeAgent, writeDescriptor, writeId, putU64]) fun record hmem => replays_agent (hwords.agents record hmem)

theorem replays_works (hwords : impl.Words) :
    Replays (putList (writeWork limits) impl.work.values) (readSection limits 6 decoded)
      (impl.work.values.length ≤ limits.maxWorkItems.toNat ∧ ∀ record ∈ impl.work.values, record.Fits limits)
      { decoded with
        work := emplaceAll decoded.work (fun record => record.request.id) (impl.work.values.map WorkRecord.recover) } :=
  replays_table WorkRecord.recover (fun record => record.Fits limits)
    (fun records => { decoded with work := emplaceAll decoded.work (fun record => record.request.id) records })
    (by simp [writeWork, writeWorkRequest, writeId, putU64]) fun record hmem => replays_work (hwords.work record hmem)

theorem replays_assignments (hwords : impl.Words) :
    Replays (putList (writeAssignment limits) impl.assignments.values) (readSection limits 7 decoded)
      (impl.assignments.values.length ≤ (limits.maxActiveAssignments + limits.maxHistoricalAssignments).toNat)
      { decoded with
        assignments := emplaceAll decoded.assignments (fun record => record.binding.id)
          (impl.assignments.values.map AssignmentRecord.recover)
        requiringRevalidation := decoded.requiringRevalidation +
          (impl.assignments.values.map AssignmentRecord.recover).countP fun record => record.state = .revalidationRequired } :=
  (replays_table AssignmentRecord.recover (fun _ => True)
    (fun records =>
      { decoded with
        assignments := emplaceAll decoded.assignments (fun record => record.binding.id) records
        requiringRevalidation := decoded.requiringRevalidation +
          records.countP fun record => record.state = .revalidationRequired })
    (by simp [writeAssignment, writeBinding, writeHash, putU64]) fun record hmem =>
      replays_assignment (hwords.assignments record hmem)).congr (by simp)

theorem replays_leases (hwords : impl.Words) :
    Replays (putList writeLease impl.leases.values) (readSection limits 8 decoded)
      (impl.leases.values.length ≤ limits.maxLeases.toNat)
      { decoded with leases := emplaceAll decoded.leases Lease.id (impl.leases.values.map Lease.recover) } :=
  (replays_table Lease.recover (fun _ => True)
    (fun records => { decoded with leases := emplaceAll decoded.leases Lease.id records })
    (by simp [writeLease, writeHash, putU64]) fun lease hmem => replays_lease (hwords.leases lease hmem)).congr (by simp)

theorem replays_fencedBoots :
    Replays (putList (writeFenced limits) impl.fencedBoots.values) (readSection limits 9 decoded)
      (impl.fencedBoots.values.length ≤ limits.maxFencedBoots.toNat)
      { decoded with
        fencedBoots := emplaceAll decoded.fencedBoots FencedBoot.boot (impl.fencedBoots.values.map fun fenced => fenced) } :=
  (replays_table (fun fenced => fenced) (fun _ => True)
    (fun records => { decoded with fencedBoots := emplaceAll decoded.fencedBoots FencedBoot.boot records })
    (by simp [writeFenced, writeId, putU64]) fun fenced _ => replays_fenced fenced).congr (by simp)

/-- The nine sections are read back as recovery keeps them, and accepted when the tables fit. -/
theorem replays_sections (h : Consistent impl) (hwords : impl.Words) :
    Replays
      [putU8 1, writeScheduler impl, putU8 2, writePolicy impl.limits impl.policy,
       putU8 3, putList (writeQueue impl.limits) impl.queues.values, putU8 4, putList writeTenant impl.tenants.values,
       putU8 5, putList (writeAgent impl.limits) impl.agents.values,
       putU8 6, putList (writeWork impl.limits) impl.work.values,
       putU8 7, putList (writeAssignment impl.limits) impl.assignments.values,
       putU8 8, putList writeLease impl.leases.values,
       putU8 9, putList (writeFenced impl.limits) impl.fencedBoots.values].flatten
      (readSections impl.limits 9 {}) impl.Loadable (image impl) := by
  have hagents := emplaceAll_values (fun record : AgentRecord => record.descriptor.id) h.agentKey
    AgentRecord.recover fun _ => rfl
  have hwork := emplaceAll_values (fun record : WorkRecord => record.request.id) h.workKey
    WorkRecord.recover fun _ => rfl
  have hassignments := emplaceAll_values (fun record : AssignmentRecord => record.binding.id) h.assignmentKey
    AssignmentRecord.recover fun record => by
      rw [AssignmentRecord.recover]
      split <;> rfl
  have hleases := emplaceAll_values Lease.id h.leaseKey Lease.recover fun _ => rfl
  have hcount : (impl.assignments.values.map AssignmentRecord.recover).countP
      (fun record => record.state = .revalidationRequired) =
      impl.assignments.values.countP fun record => record.state.isActive := by
    rw [List.countP_map]
    apply List.countP_congr
    intro record _
    simp only [Function.comp, decide_eq_true_eq, recover_active]
  refine Replays.congr (Replays.returns
    (replays_section (replays_scheduler hwords) <| replays_section replays_policySection <|
     replays_section (replays_queues hwords) <| replays_section (replays_tenants hwords) <|
     replays_section (replays_agents hwords) <| replays_section (replays_works hwords) <|
     replays_section (replays_assignments hwords) <| replays_section (replays_leases hwords) <|
     replays_section replays_fencedBoots <| replays_noSections _) ?_) ?_
  · simp only [emplaceAll_kept h.queueKey, emplaceAll_kept h.tenantKey, emplaceAll_kept h.fencedKey, hagents, hwork,
      hassignments, hleases, hcount, Nat.zero_add]
    rfl
  · simp only [true_and, and_true]
    constructor
    · rintro ⟨hpolicy, hqueues, htenants, hagents, hwork, hassignments, hleases, hfenced⟩
      exact ⟨hpolicy, hqueues, htenants, hagents, hwork, hassignments, hleases, hfenced⟩
    · rintro ⟨hpolicy, hqueues, htenants, hagents, hwork, hassignments, hleases, hfenced⟩
      exact ⟨hpolicy, hqueues, htenants, hagents, hwork, hassignments, hleases, hfenced⟩

end Sections

/-! ### The file -/

section Files
variable {impl : Impl} {path saved : Text} {maxBytes : UInt64} {payload file : List UInt8}

theorem saveFile_ok (h : saveFile impl path maxBytes = .ok file) :
    ∃ payload, savePayload impl = .ok payload ∧ file = fileOf payload (recordCount impl) := by
  rw [saveFile, except_bind_eq_ok] at h
  obtain ⟨payload, hpayload, hbounded⟩ := h
  refine ⟨payload, hpayload, ?_⟩
  simp only at hbounded
  by_cases hbound : (if maxBytes ≠ 0 then maxBytes else impl.limits.maxPersistenceBytes).toNat < payload.length
  · rw [if_pos hbound] at hbounded
    cases hbounded
  · rw [if_neg hbound] at hbounded
    exact (Except.ok.inj hbounded).symm

instance (put : Put) : Decidable put.Fits :=
  match put with
  | .raw _ => isTrue trivial
  | .str _ _ => inferInstanceAs (Decidable (_ ≤ _))

/-- A state is saved when its texts and its payload are within their bounds. -/
theorem saveFile_fits (hfits : ∀ put ∈ writePayload impl, put.Fits)
    (hsize : (putBytes (writePayload impl)).length ≤ maxEncodeBytes)
    (hbound : (putBytes (writePayload impl)).length ≤ impl.limits.maxPersistenceBytes.toNat) :
    saveFile impl path 0 = .ok (fileOf (putBytes (writePayload impl)) (recordCount impl)) := by
  rw [saveFile, except_bind_eq_ok]
  refine ⟨putBytes (writePayload impl), runPuts_fits hfits hsize, ?_⟩
  simp only
  rw [if_neg (show ¬(0 : UInt64) ≠ 0 by decide), if_neg (Nat.not_lt.mpr hbound)]

/-- The candidate state of a payload is read by one decoder. -/
theorem decodePayload_ok {limits : ResourceLimits} {decoded : DecodedState} :
    decodePayload limits path payload = .ok decoded ↔
      ∃ rest, readU32 payload = .ok (9, rest) ∧ readSections limits 9 {} rest = .ok (decoded, []) := by
  rw [decodePayload]
  cases hcount : readU32 payload with
  | error what => simp
  | ok read =>
    obtain ⟨sectionCount, rest⟩ := read
    simp only [Except.ok.injEq, Prod.mk.injEq]
    by_cases hnine : sectionCount = 9
    · subst hnine
      rw [if_neg (fun hne => hne rfl), show (9 : UInt32).toNat = 9 from rfl]
      cases hread : readSections limits 9 {} rest with
      | error what => simp [hread]
      | ok read =>
        obtain ⟨found, trailing⟩ := read
        simp only
        by_cases htrailing : trailing = []
        · simp [hread, htrailing]
        · simp [hread, htrailing]
    · rw [if_pos hnine]
      simp [hnine]

/-! ### The size of a payload -/

section Size

/-- Writes that do not outgrow the encoder by themselves. -/
private def AllShort (puts : List Put) : Prop := ∀ put ∈ puts, put.Short

@[simp] private theorem allShort_append (first second : List Put) :
    AllShort (first ++ second) ↔ AllShort first ∧ AllShort second := List.forall_mem_append

@[simp] private theorem allShort_flatten (lists : List (List Put)) :
    AllShort lists.flatten ↔ ∀ puts ∈ lists, AllShort puts := List.forall_mem_flatten

@[simp] private theorem allShort_putList {α : Type} (put : α → List Put) (values : List α) :
    AllShort (putList put values) ↔ ∀ value ∈ values, AllShort (put value) := by
  rw [putList, allShort_append, and_iff_right (by simp [AllShort, putU32, Put.Short])]
  simp only [AllShort, List.mem_flatMap, forall_exists_index, and_imp]
  exact ⟨fun h value hvalue put hput => h put value hvalue hput, fun h put value hvalue hput => h value hvalue put hput⟩

@[simp] private theorem allShort_putU8 (value : UInt8) : AllShort (putU8 value) := by
  simp [AllShort, putU8, Put.Short]

@[simp] private theorem allShort_putU32 (value : UInt32) : AllShort (putU32 value) := by
  simp [AllShort, putU32, Put.Short]

@[simp] private theorem allShort_putU64 (value : UInt64) : AllShort (putU64 value) := by
  simp [AllShort, putU64, Put.Short]

@[simp] private theorem allShort_putString (bytes : List UInt8) (ceiling : UInt32) : AllShort (putString bytes ceiling) := by
  simp [AllShort, putString, Put.Short]

/-- A writer whose writes are short ends at most one string above its limit. -/
theorem length_runPuts {ε : Type} {limit : Nat} {tooLarge tooLong : ε} {puts : List Put} {result : List UInt8}
    (hshort : ∀ put ∈ puts, put.Short) (hlimit : 8 ≤ limit) (h : runPuts limit tooLarge tooLong puts = .ok result) :
    result.length ≤ limit + 2 ^ 33 := by
  suffices key : ∀ buffer : List UInt8, buffer.length ≤ limit + 2 ^ 33 →
      puts.foldlM (Put.run limit tooLarge tooLong) buffer = .ok result → result.length ≤ limit + 2 ^ 33 by
    exact key [] (Nat.zero_le _) h
  clear h
  induction puts with
  | nil =>
    intro buffer hbuffer h
    cases h
    exact hbuffer
  | cons put rest ih =>
    intro buffer _ h
    rw [List.foldlM_cons, except_bind_eq_ok] at h
    obtain ⟨next, hput, hrest⟩ := h
    refine ih (fun other hother => hshort other (List.mem_cons_of_mem _ hother)) next ?_ hrest
    have hbelow := (Put.run_below (hshort put List.mem_cons_self) hlimit hput).1
    have hnext := (Put.run_ok limit tooLarge tooLong hput).1
    have hown := hshort put List.mem_cons_self
    cases put with
    | raw bytes =>
      have hbytes : bytes.length ≤ 8 := hown.2
      rw [hnext, List.length_append, Put.bytes]
      omega
    | str bytes ceiling =>
      have hbytes : bytes.length ≤ ceiling.toNat := (Put.run_ok limit tooLarge tooLong hput).2
      have hceiling := ceiling.toNat_lt
      rw [hnext, List.length_append, Put.bytes, List.length_append, length_leBytes32]
      omega

/-- Every write of a payload is short. -/
theorem short_writePayload (impl : Impl) : ∀ put ∈ writePayload impl, put.Short := by
  change AllShort (writePayload impl)
  simp [writePayload, writeScheduler, writePolicy, writeRankingWeight, writeClassWeight, writeQueue, writeTenant, writeAgent,
    writeDescriptor, writeCapabilities, writeEvidence, writeWork, writeWorkRequest, writeRequirements, writeRequirement,
    writeAssignment, writeBinding, writeLease, writeFenced, writeText, writeId, writeCounter, writeNat, writeHash, writeEnum,
    putBool]

theorem length_savePayload (hsave : savePayload impl = .ok payload) : payload.length ≤ maxEncodeBytes + 2 ^ 33 :=
  length_runPuts (short_writePayload impl) (by decide) hsave

end Size

/-- The payload of a saved state is accepted when its tables fit, and only as its image. -/
theorem decodePayload_saved (h : Consistent impl) (hwords : impl.Words) (hsave : savePayload impl = .ok payload)
    {decoded : DecodedState} :
    decodePayload impl.limits path payload = .ok decoded ↔ impl.Loadable ∧ image impl = decoded := by
  have hsections := replays_sections h hwords
  have hcount : Replays (putU32 9) readU32 True 9 := replays_u32 9
  have hsized : Sized (writePayload impl) := runPuts_sized (short_writePayload impl) (by decide) (by decide) hsave
  obtain ⟨hfirst, hothers⟩ := Sized.append hsized
  have hbytes : payload = putBytes (putU32 9) ++ putBytes
      [putU8 1, writeScheduler impl, putU8 2, writePolicy impl.limits impl.policy,
       putU8 3, putList (writeQueue impl.limits) impl.queues.values, putU8 4, putList writeTenant impl.tenants.values,
       putU8 5, putList (writeAgent impl.limits) impl.agents.values,
       putU8 6, putList (writeWork impl.limits) impl.work.values,
       putU8 7, putList (writeAssignment impl.limits) impl.assignments.values,
       putU8 8, putList writeLease impl.leases.values,
       putU8 9, putList (writeFenced impl.limits) impl.fencedBoots.values].flatten := by
    rw [(runPuts_ok _ _ _ hsave).1, writePayload, List.flatten_cons, putBytes_append]
  have hnine := fun rest result => hcount.exact hfirst rest result
  have hrest := hsections.exact hothers [] (decoded, [])
  rw [List.append_nil] at hrest
  rw [decodePayload_ok, hbytes]
  constructor
  · rintro ⟨rest, hread, hdecoded⟩
    obtain ⟨-, heq⟩ := (hnine _ _).mp hread
    rw [← (Prod.mk.inj heq).2, hrest] at hdecoded
    exact ⟨hdecoded.1, (Prod.mk.inj hdecoded.2).1⟩
  · rintro ⟨hloadable, rfl⟩
    exact ⟨_, (hnine _ _).mpr ⟨trivial, rfl⟩, hrest.mpr ⟨hloadable, rfl⟩⟩

/-- The file of a saved state is accepted when it and its tables fit, and only as its image. -/
theorem decodeFile_saved (h : Consistent impl) (hwords : impl.Words) (hsave : saveFile impl saved maxBytes = .ok file)
    (path : Text) (options : LoadOptions) (verified : VerifiedFile) (decoded : DecodedState) :
    decodeFile impl.limits path options file = .ok (verified, decoded) ↔
      (file.length ≤ impl.limits.maxPersistenceBytes.toNat ∧ impl.Loadable) ∧ verifiedOf file = verified ∧
        image impl = decoded := by
  obtain ⟨payload, hpayload, rfl⟩ := saveFile_ok hsave
  simp only [decodeFile, rejectIf_eq_ok, except_bind_eq_ok, Nat.not_lt, verifyFile_ok]
  constructor
  · rintro ⟨⟨⟩, hfits, found, ⟨-, rfl⟩, ⟨⟩, -, read, hread, heq⟩
    have hsize := Nat.lt_of_le_of_lt hfits impl.limits.maxPersistenceBytes.toNat_lt
    rw [(fileOf_wellFramed hsize).2] at hread
    obtain ⟨hloadable, rfl⟩ := (decodePayload_saved h hwords hpayload).mp hread
    cases heq
    exact ⟨⟨hfits, hloadable⟩, rfl, rfl⟩
  · rintro ⟨⟨hfits, hloadable⟩, rfl, rfl⟩
    have hsize := Nat.lt_of_le_of_lt hfits impl.limits.maxPersistenceBytes.toNat_lt
    obtain ⟨hframed, hverified⟩ := fileOf_wellFramed hsize
    refine ⟨(), hfits, _, ⟨hframed, rfl⟩, (), ?_, image impl, ?_, rfl⟩
    · rw [hverified]
      simp
    · rw [hverified]
      exact (decodePayload_saved h hwords hpayload).mpr ⟨hloadable, rfl⟩

end Files

end AgentScheduler
