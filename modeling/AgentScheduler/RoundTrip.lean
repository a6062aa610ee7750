import AgentScheduler.Replay
import AgentScheduler.WireRecords
import AgentScheduler.Strictness
import AgentScheduler.Reachability
import AgentScheduler.Container

/-! Saving a state and loading the file: every record is given back as recovery keeps it. -/
namespace AgentScheduler
open Std ByteCodec KeyedTable Relation

/-! ### Fields -/

section Fields
variable {tag : IdTag}

theorem replays_text (text : Text) (ceiling : UInt32) : Replays (writeText text ceiling) (readText ceiling) True text :=
  (replays_string text.bytes).map Text.mk

theorem replays_id (id : StrongId tag UInt64) : Replays (writeId id) readId True id :=
  (replays_u64 id.value).map StrongId.mk

theorem replays_nat {n : Nat} (h : n < 2 ^ 64) : Replays (writeNat n) readNat True n :=
  inverts_nat.replays (fun _ => h) (by simp [writeNat, putU64, Put.Short])

theorem replays_counter {id : StrongId tag Nat} (h : id.IsWord) : Replays (writeCounter id) readCounter True id :=
  (replays_nat h).map StrongId.mk

theorem replays_hash (id : StrongId tag Hash128) : Replays (writeHash id) readHash True id :=
  inverts_hash.replays (fun _ => trivial) (by simp [writeHash, putU64, Put.Short])

theorem replays_enum {α : Type} {values : List α} {index : α → Nat} (h : Enumerates values index) {outOfRange : Text}
    (value : α) : Replays (writeEnum (index value)) (readEnum values outOfRange) True value := by
  have henum : Inverts (readEnum values outOfRange) (fun value => writeEnum (index value)) (fun _ => True) := h.inverts
  exact henum.replays (fun _ => trivial) (by simp [writeEnum, putU8, Put.Short])

/-- A list of records that are all read back as they were written. -/
theorem replays_counted {α : Type} {put : α → List Put} {read : Decoder α} (valid : α → Prop) {values : List α}
    {ceiling : UInt32} {tooMany : Text} (hsome : ∀ v ∈ values, put v ≠ [])
    (h : ∀ v ∈ values, Replays (put v) read (valid v) v) :
    Replays (putList put values) (readCounted read ceiling tooMany)
      (values.length ≤ ceiling.toNat ∧ ∀ v ∈ values, valid v) values := by
  have hlist : Replays (putList put values) (readCounted read ceiling tooMany)
      (values.length ≤ ceiling.toNat ∧ ∀ v ∈ values, valid v) (values.map fun v => v) :=
    replays_list (fun v => v) valid hsome h
  rwa [List.map_id'] at hlist

theorem replays_texts {texts : List Text} {ceiling count : UInt32} {tooMany : Text} :
    Replays (putList (writeText · ceiling) texts) (readCounted (readText ceiling) count tooMany)
      (texts.length ≤ count.toNat) texts :=
  (replays_counted (fun _ => True) (by simp [writeText, putString]) fun text _ => replays_text text ceiling).congr
    (and_iff_left fun _ _ => trivial)

theorem replays_ids {ids : List (StrongId tag UInt64)} {count : UInt32} {tooMany : Text} :
    Replays (putList writeId ids) (readCounted readId count tooMany) (ids.length ≤ count.toNat) ids :=
  (replays_counted (fun _ => True) (by simp [writeId, putU64]) fun id _ => replays_id id).congr
    (and_iff_left fun _ _ => trivial)

end Fields

/-! ### Records -/

section Records
variable {limits : ResourceLimits}

theorem replays_descriptor (descriptor : AgentDescriptor) :
    Replays (writeDescriptor limits descriptor) (readDescriptor limits)
      (descriptor.policyLabels.length ≤ limits.maxPolicyLabels.toNat) descriptor := by
  refine Replays.congr
    (.field (replays_id _) <| .field (replays_id _) <| .field (replays_hash _) <| .field (replays_id _) <|
     .field (replays_id _) <| .field (replays_id _) <| .field (replays_text _ _) <| .field replays_texts <|
     .field (replays_id _) <| .field (replays_id _) <| .field (replays_u32 _) <| .field (replays_u64 _) <|
     .field (replays_text _ _) .pure) ?_
  simp

theorem replays_evidence (evidence : CapabilityEvidence) :
    Replays (writeEvidence limits evidence) (readEvidence limits) (evidence.quality ≤ 1000) evidence := by
  refine Replays.congr
    (.field (replays_text _ _) <| .field (replays_enum enumerates_capabilityState _) <| .field (replays_u32 _) <|
     .check <| .field (replays_id _) <| .field (replays_hash _) <| .field (replays_u64 _) <|
     .field (replays_text _ _) .pure) ?_
  simp [UInt32.not_lt]

theorem replays_capabilities (profile : CapabilityProfile) :
    Replays (writeCapabilities limits profile) (readCapabilities limits)
      (profile.capabilities.length ≤ limits.maxCapabilitiesPerAgent.toNat ∧ profile.QualitiesInRange) profile := by
  refine Replays.congr
    (.field (replays_id _) <| .field (replays_id _) <| .field (replays_hash _) <|
     .field (replays_counted _ ?_ fun evidence _ => replays_evidence evidence) .pure) ?_
  · simp [writeEvidence, writeText, putString]
  · simp [CapabilityProfile.QualitiesInRange]

theorem replays_requirement (requirement : CapabilityRequirement) :
    Replays (writeRequirement limits requirement) (readRequirement limits) True requirement := by
  refine Replays.congr
    (.field (replays_text _ _) <| .field (replays_enum enumerates_requirementMode _) <|
     .field (replays_enum enumerates_capabilityState _) <| .field (replays_u32 _) .pure) ?_
  simp

/-- The lists of the requirements are no longer than the limits allow. -/
structure WorkRequirements.Fits (limits : ResourceLimits) (requirements : WorkRequirements) : Prop where
  capabilities : requirements.capabilities.length ≤ limits.maxCapabilityRequirements.toNat
  requiredPolicyLabels : requirements.requiredPolicyLabels.length ≤ limits.maxPolicyLabels.toNat
  affinity : requirements.affinity.length ≤ limits.maxAffinityEntries.toNat
  antiAffinity : requirements.antiAffinity.length ≤ limits.maxAffinityEntries.toNat
  warmStateKeys : requirements.warmStateKeys.length ≤ limits.maxWarmStateKeys.toNat

@[simp] theorem verdictOf_code (verdict : FeasibilityVerdict) : verdictOf (UInt8.ofNat verdict.ctorIdx) = verdict := by
  cases verdict <;> rfl

theorem verdict_code_in_range (verdict : FeasibilityVerdict) : ¬2 < UInt8.ofNat verdict.ctorIdx := by
  cases verdict <;> decide

theorem replays_requirements (requirements : WorkRequirements) :
    Replays (writeRequirements limits requirements) (readRequirements limits) (requirements.Fits limits) requirements := by
  have hcapabilities : ∀ requirement ∈ requirements.capabilities, writeRequirement limits requirement ≠ [] := by
    simp [writeRequirement, writeText, putString]
  refine Replays.congr (Replays.returns
    (.field (replays_counted _ hcapabilities fun requirement _ => replays_requirement requirement) <|
     .field (replays_id _) <| .field (replays_id _) <| .field replays_texts <| .field replays_ids <| .field replays_ids <|
     .field (replays_bool _) <| .field (replays_id _) <| .field (replays_id _) <| .field (replays_bool _) <|
     .field (replays_bool _) <| .field (replays_bool _) <| .field (replays_bool _) <| .field (replays_bool _) <|
     .field (replays_id _) <| .field (replays_u8 _) <| .field (replays_bool _) <| .field (replays_id _) <|
     .field (replays_u8 _) <| .field (replays_bool _) <| .field (replays_id _) <| .field (replays_u8 _) <|
     .field (replays_bool _) <| .field (replays_id _) <| .field (replays_u8 _) <| .field (replays_bool _) <|
     .field replays_texts <| .field (replays_u64 _) <| .field (replays_u32 _) <| .field (replays_u32 _) <|
     .check .pure) ?_) ?_
  · simp only [verdictOf_code]
  · have hcodes : ¬(2 < UInt8.ofNat requirements.resourceFeasibility.ctorIdx ∨
        2 < UInt8.ofNat requirements.budgetFeasibility.ctorIdx ∨ 2 < UInt8.ofNat requirements.sloFeasibility.ctorIdx ∨
        2 < UInt8.ofNat requirements.reservationFeasibility.ctorIdx) := by
      simp only [verdict_code_in_range, or_self, not_false_eq_true]
    simp only [hcodes, not_false_eq_true, true_and, and_true, forall_true_iff]
    constructor
    · rintro ⟨h1, h2, h3, h4, h5⟩
      exact ⟨h1, h2, h3, h4, h5⟩
    · rintro ⟨h1, h2, h3, h4, h5⟩
      exact ⟨h1, h2, h3, h4, h5⟩

theorem replays_workRequest (request : WorkRequest) :
    Replays (writeWorkRequest limits request) (readWorkRequest limits) (request.requirements.Fits limits) request := by
  refine Replays.congr
    (.field (replays_id _) <| .field (replays_id _) <| .field (replays_id _) <| .field (replays_id _) <|
     .field (replays_text _ _) <| .field (replays_u32 _) <| .field (replays_text _ _) <|
     .field (replays_enum enumerates_schedulingMode _) <| .field (replays_text _ _) <| .field (replays_u64 _) <|
     .field (replays_u64 _) <| .field (replays_requirements _) .pure) ?_
  simp

end Records

end AgentScheduler
