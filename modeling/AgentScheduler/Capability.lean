import AgentScheduler.Limits

/-! Capability evidence, provenance, and generations. -/
namespace AgentScheduler

inductive CapabilityState
  | unknown | declared | observed | verified | revoked | stale
deriving DecidableEq

/-- `capability_state_rank`: the evidence lattice. -/
def CapabilityState.rank : CapabilityState → Int
  | unknown => 0
  | declared => 1
  | observed => 2
  | verified => 3
  | revoked => -2
  | stale => -1

def CapabilityState.isUsable (state : CapabilityState) : Bool :=
  CapabilityState.declared.rank ≤ state.rank

/-- One piece of evidence. -/
structure CapabilityEvidence where
  name : Text := ""
  state : CapabilityState := .unknown
  quality : UInt32 := 0
  generation : AgentCapabilityGeneration := 0
  boot : AgentBootId := 0
  observedAtMs : UInt64 := 0
  provenance : Text := ""
deriving DecidableEq

structure CapabilityProfile where
  profileId : CapabilityProfileId := 0
  generation : AgentCapabilityGeneration := 0
  boot : AgentBootId := 0
  capabilities : List CapabilityEvidence := []
deriving DecidableEq

inductive CapabilityRequirementMode
  | required | preferred
deriving DecidableEq

/-- The enumerator value of the mode. -/
def CapabilityRequirementMode.code : CapabilityRequirementMode → UInt8
  | required => 0
  | preferred => 1

structure CapabilityRequirement where
  name : Text := ""
  mode : CapabilityRequirementMode := .required
  minimumState : CapabilityState := .observed
  minimumQuality : UInt32 := 0
deriving DecidableEq

private def capabilityError (code : ErrorCode) (subject detail : Text) (outcome : ScheduleOutcome) :
    SchedulerError :=
  makeError code "publish_capabilities" subject detail outcome

private def checkEvidence (limits : ResourceLimits) (subject : Text) (evidence : CapabilityEvidence) :
    MutationResult := do
  rejectProblem (identifierProblem evidence.name limits.maxIdentifierSize "capability name")
    fun problem => capabilityError .invalidArgument subject problem .rejectInvalidRequest
  rejectIf (1000 < evidence.quality)
    (capabilityError .invalidArgument evidence.name "capability quality must be 0..1000"
      .rejectInvalidRequest)
  rejectProblem (textProblem evidence.provenance limits.maxStringSize "capability provenance")
    fun problem => capabilityError .invalidArgument evidence.name problem .rejectInvalidRequest

/-- The first name that `std::adjacent_find` sees twice. -/
def adjacentDuplicateName : List CapabilityEvidence → Option Text
  | a :: b :: rest => if a.name = b.name then some a.name else adjacentDuplicateName (b :: rest)
  | _ => none

/-- `canonicalize(CapabilityProfile)`: checks the profile and sorts its evidence by name. -/
def CapabilityProfile.canonicalize (profile : CapabilityProfile) (limits : ResourceLimits) :
    Except SchedulerError CapabilityProfile := do
  let subject := profile.profileId.toText
  rejectIf (limits.maxCapabilitiesPerAgent.toNat < profile.capabilities.length)
    (capabilityError .limitExceeded subject "capability count exceeds max_capabilities_per_agent"
      .rejectLimitExceeded)
  rejectIf profile.generation.isZero
    (capabilityError .invalidArgument subject "capability generation must be non-zero"
      .rejectInvalidRequest)
  rejectIf profile.boot.isZero
    (capabilityError .invalidArgument subject "capability profile must name its originating boot"
      .rejectInvalidRequest)
  profile.capabilities.forM (checkEvidence limits subject)
  let sorted := sortBy (fun left right => left.name < right.name) profile.capabilities
  match adjacentDuplicateName sorted with
  | some name => .error (capabilityError .duplicate name "duplicate capability name in profile" .rejectDuplicate)
  | none => .ok { profile with capabilities := sorted }

/-- `find_capability`: `std::lower_bound` on the sorted evidence, then the name test. -/
def findCapability (profile : CapabilityProfile) (name : Text) : Option CapabilityEvidence :=
  match profile.capabilities.find? fun evidence => !(evidence.name < name : Bool) with
  | some evidence => if evidence.name = name then some evidence else none
  | none => none

/-- `invalidate_evidence`: every observation becomes stale. -/
def CapabilityProfile.invalidateEvidence (profile : CapabilityProfile) : CapabilityProfile :=
  { profile with
    capabilities := profile.capabilities.map fun evidence =>
      { evidence with state := .stale, observedAtMs := 0 } }

/-- Canonicalisation reorders evidence only; the identity and generation of the profile stay. -/
theorem CapabilityProfile.canonicalize_identity {profile canonical : CapabilityProfile} {limits : ResourceLimits}
    (h : profile.canonicalize limits = .ok canonical) :
    canonical.profileId = profile.profileId ∧ canonical.generation = profile.generation ∧
      canonical.boot = profile.boot ∧ canonical.generation ≠ 0 := by
  unfold canonicalize at h
  simp only [check_bind_eq_ok, rejectIf_eq_ok] at h
  obtain ⟨-, hgen, -, -, h⟩ := h
  split at h
  · cases h
  · obtain rfl : _ = canonical := by simpa using h
    refine ⟨rfl, rfl, rfl, ?_⟩
    rintro hzero
    have hzero : profile.generation = 0 := hzero
    exact hgen (by rw [hzero]; rfl)

end AgentScheduler
