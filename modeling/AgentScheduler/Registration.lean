import AgentScheduler.Scheduler

/-! The public operations on agents: registration, evidence, draining, retirement and loss. -/
namespace AgentScheduler

private def registerError (code : ErrorCode) (agent : AgentId) (detail : Text) (outcome : ScheduleOutcome) :
    SchedulerError :=
  makeError code "register_agent" agent.toText detail outcome

/-- The identity checks both sections of `register_agent` make against a known agent. -/
def checkIncarnation (descriptor : AgentDescriptor) (existing : AgentRecord) : MutationResult := do
  rejectIf (descriptor.generation < existing.descriptor.generation)
    (registerError .staleGeneration descriptor.id "agent generation is stale" .rejectStaleAgentGeneration)
  rejectIf (descriptor.generation = existing.descriptor.generation ∧ descriptor.boot ≠ existing.descriptor.boot)
    (registerError .staleGeneration descriptor.id "a new incarnation requires a higher agent generation"
      .rejectStaleAgentGeneration)

/-- A known agent may not register a fenced incarnation. -/
def checkUnfenced (impl : Impl) (descriptor : AgentDescriptor) : MutationResult :=
  rejectIf (bootIsFenced impl descriptor.boot)
    (registerError .fenced descriptor.id "incarnation is permanently fenced" .rejectFenced)

/-- An unknown agent needs room. -/
def checkAgentRoom (impl : Impl) (descriptor : AgentDescriptor) : MutationResult :=
  rejectIf (impl.limits.maxAgents.toNat ≤ impl.agents.size)
    (registerError .limitExceeded descriptor.id "agent count exceeds max_agents" .rejectLimitExceeded)

/-- The first locked section of `register_agent`, with the validation before it. -/
def registerAgentBegin (impl : Impl) (descriptor : AgentDescriptor) : MutationResult := do
  descriptor.validate impl.limits
  match impl.agents[descriptor.id]? with
  | some existing =>
    checkIncarnation descriptor existing
    -- only this section refuses a retired agent at its own generation
    rejectIf (existing.lifecycle = .retired ∧ descriptor.generation = existing.descriptor.generation)
      (registerError .conflict descriptor.id "retired agent cannot re-register at the same generation"
        .rejectLifecycle)
    checkUnfenced impl descriptor
  | none => checkAgentRoom impl descriptor

/-- A descriptor as it is stored: its labels sorted and without duplicates. -/
def AgentDescriptor.stored (descriptor : AgentDescriptor) : AgentDescriptor :=
  { descriptor with policyLabels := canonicalizeTexts descriptor.policyLabels }

/-- The record of a freshly registered incarnation. -/
def freshAgent (now : UInt64) (impl : Impl) (descriptor : AgentDescriptor) (reason : Text) : AgentRecord :=
  recomputeLifecycle
    { descriptor := descriptor.stored
      registeredAtMs := now
      leaseExpiresAtMs := now + effectiveLeaseTtl impl descriptor
      lastHeartbeatMs := now
      reason := reason }

/-- Fences the replaced incarnation and closes what it held. -/
def retireIncarnation (now : UInt64) (impl : Impl) (existing : AgentRecord) (agent : AgentId) : Impl :=
  let previousBoot := existing.descriptor.boot
  if previousBoot.isZero then impl
  else
    closeAllActive now
      (fenceBoot now impl agent previousBoot existing.descriptor.generation "replaced by reincarnation")
      previousBoot .lost .agentFenced "agent incarnation replaced by a newer generation"

/-- Re-registration of the same incarnation: session lease and identity metadata are refreshed. -/
def reregistered (now : UInt64) (impl : Impl) (descriptor : AgentDescriptor) (existing : AgentRecord) :
    AgentRecord :=
  { existing with
    descriptor := descriptor.stored
    registeredAtMs := now
    lastHeartbeatMs := now
    leaseExpiresAtMs := now + effectiveLeaseTtl impl descriptor
    lifecycle := if existing.lifecycle = .lost then .revalidationRequired else existing.lifecycle
    reason := "re-registered" }

/-- The second locked section of `register_agent`. -/
def registerAgentCommit (now : UInt64) (impl : Impl) (descriptor : AgentDescriptor) : Step :=
  let agent := descriptor.id
  match impl.agents[agent]? with
  | some existing =>
    guarded impl (do checkIncarnation descriptor existing; checkUnfenced impl descriptor) fun _ =>
      if existing.descriptor.generation < descriptor.generation then
        let impl := retireIncarnation now impl existing agent
        let impl := (deindexAgent impl agent).setAgent agent (freshAgent now impl descriptor "reincarnated")
        (.ok (), (indexStoredAgent (refreshAgentAccounting impl agent) agent).revise)
      else
        let impl := impl.setAgent agent (reregistered now impl descriptor existing)
        (.ok (), (refreshAgent impl agent).revise)
  | none =>
    guarded impl (checkAgentRoom impl descriptor) fun _ =>
      let record := freshAgent now impl descriptor "registered"
      (.ok (), (indexAgent (impl.setAgent agent record) record).revise)

/-- The record an operation of a current incarnation acts on. -/
def currentAgent (impl : Impl) (operation : Text) (agent : AgentId) (boot : AgentBootId) (stale : Text) :
    Except SchedulerError AgentRecord := do
  let record ← lookupOrFail impl.agents[agent]?
    (makeError .notFound operation agent.toText "agent is not known" .rejectStaleAgentGeneration)
  rejectIf (staleBoot impl record boot)
    (makeError .staleGeneration operation agent.toText stale .rejectStaleAgentBoot)
  return record

/-- What the profile loop of `publish_capabilities` stores for one piece of evidence. -/
def bindEvidence (now : UInt64) (boot : AgentBootId) (generation : AgentCapabilityGeneration)
    (evidence : CapabilityEvidence) : Except SchedulerError CapabilityEvidence := do
  rejectIf (¬evidence.boot.isZero ∧ evidence.boot ≠ boot)
    (makeError .staleGeneration "publish_capabilities" evidence.name
      "capability evidence names a different incarnation" .rejectStaleAgentBoot)
  let observed := if evidence.observedAtMs = 0 then now else evidence.observedAtMs
  rejectIf (now < observed)
    (makeError .invalidArgument "publish_capabilities" evidence.name
      "capability observation time is in the future" .rejectInvalidRequest)
  return { evidence with boot := boot, generation := generation, observedAtMs := observed }

/-- The checks of `publish_capabilities`; `none` means the publication is already in force. -/
def checkCapabilities (now : UInt64) (impl : Impl) (agent : AgentId) (boot : AgentBootId)
    (profile : CapabilityProfile) : Except SchedulerError (Option CapabilityProfile) := do
  let fail (code : ErrorCode) (detail : Text) (outcome : ScheduleOutcome) :=
    makeError code "publish_capabilities" agent.toText detail outcome
  let canonical ← profile.canonicalize impl.limits
  let record ← currentAgent impl "publish_capabilities" agent boot
    "capability evidence names a fenced or replaced incarnation"
  rejectIf (canonical.boot ≠ boot)
    (fail .invalidArgument "profile boot does not match the publishing incarnation" .rejectStaleAgentBoot)
  rejectIf (canonical.generation < record.profile.generation)
    (fail .staleGeneration "capability generation is stale" .rejectStaleCapability)
  if canonical.generation = record.profile.generation ∧ record.capabilityCurrent then
    rejectIf (canonical.capabilities ≠ record.profile.capabilities ∨
        canonical.profileId ≠ record.profile.profileId)
      (fail .conflict "conflicting capability publication for the current generation" .rejectConflict)
    return none
  else
    let capabilities ← canonical.capabilities.mapM (bindEvidence now boot canonical.generation)
    return some { canonical with boot := boot, capabilities := capabilities }

/-- An active assignment of the agent that bound other evidence than `profile`. -/
def outdatedBy (agent : AgentId) (profile : CapabilityProfile) (record : AssignmentRecord) : Bool :=
  record.binding.agent = agent && record.state.isActive &&
    (record.binding.capabilityGeneration ≠ profile.generation ||
      record.binding.capabilityProfile ≠ profile.profileId)

/-- The assignment keeps its slot but loses dispatch authority. -/
def AssignmentRecord.demote (record : AssignmentRecord) : AssignmentRecord :=
  { record with
    state := .revalidationRequired
    leaseCurrent := false
    reason := "capability evidence generation moved under the assignment" }

/-- The assignment loop of `publish_capabilities`. -/
def demoteOutdated (impl : Impl) (agent : AgentId) (profile : CapabilityProfile) : Impl :=
  impl.assignments.keys.foldl
    (fun impl id =>
      match impl.assignments[id]? with
      | none => impl
      | some record =>
        if outdatedBy agent profile record then
          dropLease (impl.setAssignment id record.demote) record.binding.lease
        else impl)
    impl

/-- `AgentScheduler::publish_capabilities`. -/
def publishCapabilities (now : UInt64) (impl : Impl) (agent : AgentId) (boot : AgentBootId)
    (profile : CapabilityProfile) : Step :=
  guarded impl (checkCapabilities now impl agent boot profile) fun published =>
    match published with
    | none => (.ok (), impl)
    | some canonical =>
      let impl := (deindexAgent impl agent).modifyAgent agent fun record =>
        { record with profile := canonical, capabilityCurrent := true, recovered := false }
      let impl := refreshAgentAccounting (demoteOutdated impl agent canonical) agent
      (.ok (), (indexStoredAgent impl agent).revise)

/-- The checks `publish_health`, `publish_availability` and `publish_load` share: a current incarnation, a
generation that does not go back, and an observation time that is not in the future. -/
def checkObservation (now : UInt64) (impl : Impl) (operation kind : Text) (agent : AgentId) (boot : AgentBootId)
    (staleGeneration : AgentRecord → Bool) (observedAtMs : UInt64) : Except SchedulerError UInt64 := do
  let record ← currentAgent impl operation agent boot
    (kind ++ " evidence names a fenced or replaced incarnation")
  rejectIf (staleGeneration record)
    (makeError .staleGeneration operation agent.toText (kind ++ " generation is stale") .rejectStaleCapability)
  let observed := if observedAtMs = 0 then now else observedAtMs
  rejectIf (now < observed)
    (makeError .invalidArgument operation agent.toText (kind ++ " observation time is in the future")
      .rejectInvalidRequest)
  return observed

/-- `AgentScheduler::publish_health`. -/
def publishHealth (now : UInt64) (impl : Impl) (agent : AgentId) (boot : AgentBootId)
    (observation : HealthObservation) : Step :=
  guarded impl
    (do
      observation.validate impl.limits
      checkObservation now impl "publish_health" "health" agent boot
        (fun record => observation.generation < record.healthGeneration) observation.observedAtMs)
    fun observed =>
      let impl := impl.modifyAgent agent fun record =>
        { record with
          healthGeneration := observation.generation
          healthObservation := { observation with observedAtMs := observed }
          health := observation.health
          healthCurrent := true
          recovered := false }
      (.ok (), (refreshAgent impl agent).revise)

/-- `AgentScheduler::publish_availability`. -/
def publishAvailability (now : UInt64) (impl : Impl) (agent : AgentId) (boot : AgentBootId)
    (observation : AvailabilityObservation) : Step :=
  guarded impl
    (do
      observation.validate
      checkObservation now impl "publish_availability" "availability" agent boot
        (fun record => observation.generation < record.availabilityGeneration) observation.observedAtMs)
    fun observed =>
      let impl := impl.modifyAgent agent fun record =>
        { record with
          availabilityGeneration := observation.generation
          availabilityObservation := { observation with observedAtMs := observed }
          availability := observation.availability
          readiness := observation.readiness
          reachability := observation.reachability
          availabilityCurrent := true
          recovered := false }
      (.ok (), (refreshAgent impl agent).revise)

/-- `AgentScheduler::publish_load`; unlike its siblings it refreshes no index. -/
def publishLoad (now : UInt64) (impl : Impl) (agent : AgentId) (boot : AgentBootId)
    (observation : LoadObservation) : Step :=
  guarded impl
    (do
      observation.validate impl.limits
      checkObservation now impl "publish_load" "load" agent boot
        (fun record => observation.generation < record.loadGeneration) observation.observedAtMs)
    fun observed =>
      let impl := impl.modifyAgent agent fun record =>
        { record with
          loadGeneration := observation.generation
          loadObservation :=
            { observation with
              observedAtMs := observed
              warmStateKeys := canonicalizeTexts observation.warmStateKeys }
          loadCurrent := true }
      (.ok (), impl.revise)

/-- `AgentScheduler::heartbeat`. -/
def heartbeat (now : UInt64) (impl : Impl) (agent : AgentId) (boot : AgentBootId)
    (registrationGeneration : AgentRegistrationGeneration) : Step :=
  guarded impl
    (do
      let record ← currentAgent impl "heartbeat" agent boot "heartbeat names a fenced or replaced incarnation"
      rejectIf (registrationGeneration ≠ record.descriptor.registrationGeneration)
        (makeError .staleGeneration "heartbeat" agent.toText "registration generation moved"
          .rejectStaleAgentGeneration))
    fun _ =>
      let impl := impl.modifyAgent agent fun record =>
        { record with
          lastHeartbeatMs := now
          leaseExpiresAtMs := now + effectiveLeaseTtl impl record.descriptor }
      (.ok (), impl.revise)

/-- `AgentScheduler::drain_agent`. -/
def drainAgent (now : UInt64) (impl : Impl) (agent : AgentId) (boot : AgentBootId) (force : Bool) : Step :=
  guarded impl
    (do
      let record ← currentAgent impl "drain_agent" agent boot "drain names a fenced or replaced incarnation"
      rejectIf (record.lifecycle = .retired)
        (makeError .conflict "drain_agent" agent.toText "agent is retired" .rejectLifecycle))
    fun _ =>
      let impl := impl.modifyAgent agent fun record =>
        { record with lifecycle := .draining, reason := "draining" }
      let impl :=
        if force then
          closeAllActive now impl boot .invalidated .agentDrained "forced drain invalidated the assignment"
        else impl
      (.ok (), (refreshAgent impl agent).revise)

/-- `AgentScheduler::deregister_agent`. -/
def deregisterAgent (now : UInt64) (impl : Impl) (agent : AgentId) (boot : AgentBootId) (force : Bool) : Step :=
  let active := activeAssignmentCount impl agent
  guarded impl
    (do
      let record ← currentAgent impl "deregister_agent" agent boot
        "deregistration names a fenced or replaced incarnation"
      rejectIf (0 < active ∧ ¬force)
        (makeError .drainBarrier "deregister_agent" agent.toText
          "agent still owns active scheduler assignments" .rejectDrain)
      return record)
    fun record =>
      let impl :=
        if 0 < active then
          closeAllActive now impl boot .invalidated .agentRetired
            "forced deregistration invalidated the assignment"
        else impl
      let impl := fenceBoot now impl agent boot record.descriptor.generation "deregistered"
      let impl := impl.modifyAgent agent fun record =>
        { invalidateDynamicEvidence record with lifecycle := .retired, reason := "deregistered" }
      (.ok (), (refreshAgent impl agent).revise)

/-- The first locked section of `declare_agent_lost`: whether the incarnation is already lost. -/
def declareAgentLostBegin (impl : Impl) (agent : AgentId) (boot : AgentBootId) : Bool :=
  match impl.agents[agent]? with
  | none => false
  | some record => record.descriptor.boot = boot && record.lifecycle = .lost

/-- The second locked section of `declare_agent_lost`. -/
def declareAgentLostCommit (now : UInt64) (impl : Impl) (agent : AgentId) (boot : AgentBootId) (reason : Text) :
    Step :=
  match impl.agents[agent]? with
  | none => (.ok (), fenceBoot now impl agent boot 0 reason)
  | some record =>
    -- a stale loss report for an already-replaced incarnation only fences that boot
    if record.descriptor.boot ≠ boot then (.ok (), fenceBoot now impl agent boot 0 reason)
    else
      let impl := fenceBoot now impl agent boot record.descriptor.generation reason
      let impl := closeAllActive now impl boot .lost .agentLost "agent incarnation was declared lost"
      let impl := impl.modifyAgent agent fun record =>
        { invalidateDynamicEvidence record with lifecycle := .lost, reason := reason }
      (.ok (), (refreshAgent impl agent).revise)

end AgentScheduler
