import AgentScheduler.Atomicity

/-! Every operation as a chain of small labelled changes of the stored tables. -/
namespace AgentScheduler
open Std KeyedTable Relation

/-- What happens to one stored agent. -/
inductive AgentEvent
  | reported (boot : AgentBootId) (observation : HealthObservation)
  | available (boot : AgentBootId) (observation : AvailabilityObservation)
  | published (boot : AgentBootId) (profile : CapabilityProfile)
  | drained (boot : AgentBootId)
  | retired (boot : AgentBootId)
  | lost (boot : AgentBootId) (reason : Text)
  | reregistered (descriptor : AgentDescriptor)

/-- What a deed does. -/
inductive Event
  /-- nothing that the tables or the standing of the scheduler show -/
  | quiet
  /-- the standing of the scheduler changes -/
  | governs
  | closes (record : AssignmentRecord)
  | fences (boot : AgentBootId)
  | touches (agent : AgentId) (event : AgentEvent)
  /-- derived data or telemetry of an agent is brought up to date -/
  | refreshes (agent : AgentId)
  /-- a new incarnation is stored -/
  | enrolls (descriptor : AgentDescriptor)
  | works (work : WorkId)
  | commits (binding : AssignmentBinding)
  | advances (id : AssignmentId)

/-- The tables with their indexes, and the standing of the scheduler. -/
def Impl.essence (impl : Impl) : Impl :=
  { impl with
    queueGeneration := 0
    leases := ∅
    queues := ∅
    tenants := ∅
    nextAdmissionSequence := 0
    stateRevision := 0
    schedulingRounds := 0
    assignmentsCreated := 0
    assignmentsInvalidated := 0
    shutdownAtMs := 0
    recovered := false }

/-- The tables with their indexes. -/
def Impl.tables (impl : Impl) : Impl :=
  { impl.essence with
    schedulerId := 0
    schedulerEpoch := 0
    coordinatorEpoch := 0
    policy := {}
    running := false
    admissionOpen := false
    shuttingDown := false }

/-- The stored record after an event. -/
def AgentEvent.update (now : UInt64) (impl : Impl) : AgentEvent → AgentRecord → AgentRecord
  | .reported _ observation, record =>
    { record with
      healthGeneration := observation.generation
      healthObservation := observation
      health := observation.health
      healthCurrent := true
      recovered := false }
  | .available _ observation, record =>
    { record with
      availabilityGeneration := observation.generation
      availabilityObservation := observation
      availability := observation.availability
      readiness := observation.readiness
      reachability := observation.reachability
      availabilityCurrent := true
      recovered := false }
  | .published _ profile, record => { record with profile := profile, capabilityCurrent := true, recovered := false }
  | .drained _, record => { record with lifecycle := .draining, reason := "draining" }
  | .retired _, record => { invalidateDynamicEvidence record with lifecycle := .retired, reason := "deregistered" }
  | .lost _ reason, record => { invalidateDynamicEvidence record with lifecycle := .lost, reason := reason }
  | .reregistered descriptor, record => AgentScheduler.reregistered now impl descriptor record

/-- What the operation behind an event has made sure of. -/
def AgentEvent.Admits (impl : Impl) (record : AgentRecord) : AgentEvent → Prop
  | .reported boot _ | .available boot _ | .drained boot =>
    record.descriptor.boot = boot ∧ bootIsFenced impl boot = false
  | .published boot profile =>
    record.descriptor.boot = boot ∧ bootIsFenced impl boot = false ∧ profile.boot = boot ∧
      ¬profile.generation < record.profile.generation
  | .retired boot => record.descriptor.boot = boot
  | .lost boot _ => record.descriptor.boot = boot ∧ bootIsFenced impl boot
  | .reregistered descriptor =>
    descriptor.id = record.descriptor.id ∧ descriptor.generation = record.descriptor.generation ∧
      descriptor.boot = record.descriptor.boot ∧ bootIsFenced impl descriptor.boot = false

/-- An agent record without its telemetry: load, leases, counters of outcomes and of recent assignments. -/
def AgentRecord.gist (record : AgentRecord) : AgentRecord :=
  { record with
    loadGeneration := 0
    loadObservation := {}
    loadCurrent := false
    leaseExpiresAtMs := 0
    lastHeartbeatMs := 0
    recentAssignments := 0
    assignmentsCompleted := 0
    assignmentsFailed := 0 }

/-- A work record without its counters of rounds. -/
def WorkRecord.gist (record : WorkRecord) : WorkRecord := { record with bypassCount := 0, starvationRounds := 0 }

/-- One small change. The set holds the agents whose derived data may be behind. -/
inductive Deed (ctx : Context) : Event → Set AgentId × Impl → Set AgentId × Impl → Prop
  | quiet {stale : Set AgentId} {impl : Impl} (impl' : Impl) (hessence : impl'.essence = impl.essence)
      (hquiet : Quiet impl impl') : Deed ctx .quiet (stale, impl) (stale, impl')
  | govern {stale : Set AgentId} {impl : Impl} (impl' : Impl) (htables : impl'.tables = impl.tables)
      (hconsistent : Consistent impl → Consistent impl') : Deed ctx .governs (stale, impl) (stale, impl')
  | close {stale : Set AgentId} {impl : Impl} (id : AssignmentId) (record : AssignmentRecord) (state : AssignmentState)
      (reason : InvalidationReason) (detail : Text) (hrecord : impl.assignments[id]? = some record)
      (hopen : record.state.isTerminal = false) (hterminal : state.isTerminal) :
      Deed ctx (.closes record) (stale, impl) (stale, closeAssignment ctx.now impl id state reason detail)
  | fence {stale : Set AgentId} {impl : Impl} (agent : AgentId) (boot : AgentBootId) (generation : AgentGeneration)
      (reason : Text) : Deed ctx (.fences boot) (stale, impl) (stale, fenceBoot ctx.now impl agent boot generation reason)
  | touch {stale : Set AgentId} {impl : Impl} (agent : AgentId) (record : AgentRecord) (event : AgentEvent)
      (hrecord : impl.agents[agent]? = some record) (hadmits : event.Admits impl record) :
      Deed ctx (.touches agent event) (stale, impl)
        (insert agent stale, impl.setAgent agent (event.update ctx.now impl record))
  | refresh {stale : Set AgentId} {impl : Impl} (agent : AgentId) :
      Deed ctx (.refreshes agent) (stale, impl) (stale \ {agent}, refreshAgent impl agent)
  | recount {stale : Set AgentId} {impl : Impl} (agent : AgentId) :
      Deed ctx (.refreshes agent) (stale, impl) (stale, refreshAgentAccounting impl agent)
  | note {stale : Set AgentId} {impl : Impl} (agent : AgentId) (record record' : AgentRecord)
      (hrecord : impl.agents[agent]? = some record) (hgist : record'.gist = record.gist)
      (hrecent : record'.recentAssignments = record.recentAssignments) :
      Deed ctx (.refreshes agent) (stale, impl) (stale, impl.setAgent agent record')
  | enroll {stale : Set AgentId} {impl : Impl} (descriptor : AgentDescriptor) (hboot : descriptor.boot ≠ 0)
      (hunknown : impl.agents[descriptor.id]? = none)
      (hidle : (impl.ledger.active fun record => record.binding.agent = descriptor.id) = ∅) :
      Deed ctx (.enrolls descriptor) (stale, impl)
        (stale, indexAgent (impl.setAgent descriptor.id (freshAgent ctx.now impl descriptor "registered"))
          (freshAgent ctx.now impl descriptor "registered"))
  | reincarnate {stale : Set AgentId} {impl : Impl} (descriptor : AgentDescriptor) (existing : AgentRecord)
      (hboot : descriptor.boot ≠ 0) (hexisting : impl.agents[descriptor.id]? = some existing)
      (hnewer : existing.descriptor.generation < descriptor.generation) :
      Deed ctx (.enrolls descriptor) (stale, impl)
        (insert descriptor.id stale, impl.setAgent descriptor.id (freshAgent ctx.now impl descriptor "reincarnated"))
  | accept {stale : Set AgentId} {impl : Impl} (work : WorkId) (record : WorkRecord) (hkey : record.request.id = work)
      (hlifecycle : record.lifecycle = .admitted) (hcurrent : record.currentAssignments = 0)
      (hunknown : impl.work[work]? = none) (hcanonical : record.request.canonicalize = record.request) :
      Deed ctx (.works work) (stale, impl) (stale, indexWork (impl.setWork work record) record)
  | reopen {stale : Set AgentId} {impl : Impl} (work : WorkId) (record : WorkRecord) (hkey : record.request.id = work)
      (hlifecycle : record.lifecycle = .admitted) (hcurrent : record.currentAssignments = 0)
      (hidle : impl.ledger.activeFor work = ∅) (hcanonical : record.request.canonicalize = record.request) :
      Deed ctx (.works work) (stale, impl) (stale, indexWork ((deindexWork impl work).setWork work record) record)
  | settle {stale : Set AgentId} {impl : Impl} (work : WorkId) (record : WorkRecord) (lifecycle : WorkLifecycle)
      (reason : Text) (hrecord : impl.work[work]? = some record) (hterminal : lifecycle.isTerminal) :
      Deed ctx (.works work) (stale, impl)
        (stale, syncWorkLifecycleIndex (impl.setWork work { record with lifecycle := lifecycle, reason := reason }) work
          lifecycle)
  | tally {stale : Set AgentId} {impl : Impl} (work : WorkId) (record record' : WorkRecord)
      (hrecord : impl.work[work]? = some record) (hgist : record'.gist = record.gist) :
      Deed ctx (.works work) (stale, impl) (stale, impl.setWork work record')
  | refreshWork {stale : Set AgentId} {impl : Impl} (work : WorkId) :
      Deed ctx (.works work) (stale, impl) (stale, refreshWorkAccounting impl work)
  | commit {stale : Set AgentId} {impl : Impl} (generation : WorkGeneration) (binding : AssignmentBinding)
      (work : WorkRecord) (hcheck : commitCheck ctx impl binding.work generation binding = .ok work) :
      Deed ctx (.commits binding) (stale, impl) (stale, commitApply impl binding.work work binding)
  | advance {stale : Set AgentId} {impl : Impl} (id : AssignmentId) (before after : AssignmentRecord)
      (hbefore : impl.assignments[id]? = some before) (hwas : before.state.isActive) (hactive : after.state.isActive)
      (hbinding : SameBinding before after) :
      Deed ctx (.advances id) (stale, impl) (stale, impl.setAssignment id after)

/-- Chains of deeds whose events are all allowed. -/
abbrev Deeds (ctx : Context) (allows : Event → Prop) : Set AgentId × Impl → Set AgentId × Impl → Prop :=
  ReflTransGen fun scene scene' => ∃ event, allows event ∧ Deed ctx event scene scene'

section Rules
variable {ctx : Context} {event : Event} {allows : Event → Prop} {scene scene' : Set AgentId × Impl}

/-- Events that touch neither assignments, fences nor evidence. -/
def Event.IsBookkeeping : Event → Prop
  | .quiet | .refreshes _ | .works _ => True
  | _ => False

theorem AgentRecord.descriptor_of_gist {record record' : AgentRecord} (h : record'.gist = record.gist) :
    record'.descriptor = record.descriptor := by
  simp only [AgentRecord.gist, AgentRecord.mk.injEq] at h
  exact h.1

theorem WorkRecord.read_of_gist {record record' : WorkRecord} (h : record'.gist = record.gist) :
    record'.request = record.request ∧ record'.lifecycle = record.lifecycle ∧
      record'.currentAssignments = record.currentAssignments := by
  simp only [WorkRecord.gist, WorkRecord.mk.injEq] at h
  exact ⟨h.1, h.2.1, h.2.2.2.2.2.2.1⟩

/-- An event leaves an agent its id and its boot. -/
theorem AgentEvent.update_identity {impl : Impl} (now : UInt64) {record : AgentRecord} {event : AgentEvent}
    (h : event.Admits impl record) : (event.update now impl record).descriptor.id = record.descriptor.id ∧
      (event.update now impl record).descriptor.boot = record.descriptor.boot := by
  cases event with
  | reregistered descriptor => exact ⟨h.1, h.2.2.1⟩
  | reported | available | published | drained | retired | lost => exact ⟨rfl, rfl⟩

/-- Every deed keeps an instance consistent. -/
theorem Deed.consistent (hdeed : Deed ctx event scene scene') (h : Consistent scene.2) : Consistent scene'.2 := by
  cases hdeed with
  | quiet impl' _ hquiet => exact (hquiet h).1
  | govern impl' _ hconsistent => exact hconsistent h
  | close id record state reason detail _ _ hterminal => exact h.closeAssignment hterminal
  | fence agent boot generation reason => exact h.fenceBoot ctx.now agent boot generation reason
  | touch agent record event hrecord hadmits =>
    obtain ⟨hid, hboot⟩ := AgentEvent.update_identity ctx.now hadmits
    refine h.setAgent (hid.trans (h.agentKey agent record hrecord)) ?_
    rw [hboot]
    exact h.agentBoot agent record hrecord
  | refresh agent => exact (Quiet.refreshAgent _ agent h).1
  | recount agent => exact h.refreshAgentAccounting agent
  | note agent record record' hrecord hgist _ =>
    have hdescriptor := AgentRecord.descriptor_of_gist hgist
    refine h.setAgent ?_ ?_
    · rw [hdescriptor]
      exact h.agentKey agent record hrecord
    · rw [hdescriptor]
      exact h.agentBoot agent record hrecord
  | enroll descriptor hboot _ _ =>
    refine (h.setAgent ?_ ?_).of_core (core_indexAgent _ _) <;> rw [freshAgent_descriptor]
    · rfl
    · exact hboot
  | reincarnate descriptor existing hboot _ _ =>
    refine h.setAgent ?_ ?_ <;> rw [freshAgent_descriptor]
    · rfl
    · exact hboot
  | accept work record hkey hlifecycle hcurrent hunknown =>
    refine (h.setWork hkey (fun _ => ?_) fun _ _ => hcurrent).of_core (core_indexWork _ _)
    rw [h.unknown work hunknown, hcurrent, Set.encard_empty]
    rfl
  | reopen work record hkey hlifecycle hcurrent hidle =>
    refine ((h.of_core (core_deindexWork _ work)).setWork hkey (fun _ => ?_) fun _ _ => hcurrent).of_core
      (core_indexWork _ _)
    rw [ledger_of_core (core_deindexWork _ work), hidle, hcurrent, Set.encard_empty]
    rfl
  | settle work record lifecycle reason hrecord hterminal =>
    let settled : WorkRecord := { record with lifecycle := lifecycle, reason := reason }
    refine (@Coherent.setWork _ _ work settled h (h.workKey work record hrecord) (fun _ => ?_) fun _ hadmitted => ?_).of_core
      (core_syncWorkLifecycleIndex _ _ _)
    · exact h.current work record (fun hmem => hmem) hrecord
    · have hadmitted : lifecycle = .admitted := hadmitted
      rw [hadmitted] at hterminal
      cases hterminal
  | tally work record record' hrecord hgist =>
    obtain ⟨hrequest, hlifecycle, hcurrent⟩ := WorkRecord.read_of_gist hgist
    refine h.setWork ?_ (fun _ => ?_) fun _ hadmitted => ?_
    · rw [hrequest]
      exact h.workKey work record hrecord
    · rw [hcurrent]
      exact h.current work record (fun hmem => hmem) hrecord
    · rw [hcurrent]
      exact h.admitted work record (fun hmem => hmem) hrecord (hlifecycle ▸ hadmitted)
  | refreshWork work => exact (Quiet.refreshWorkAccounting _ work h).1
  | commit generation binding work hcheck => exact (commitApply_spec h hcheck).1
  | advance id before after hbefore hwas hactive hbinding => exact h.setAssignment hbefore hwas hactive hbinding

theorem Deeds.single (hdeed : Deed ctx event scene scene') (hallows : allows event) : Deeds ctx allows scene scene' :=
  ReflTransGen.single ⟨event, hallows, hdeed⟩

theorem Deeds.consistent (hdeeds : Deeds ctx allows scene scene') (h : Consistent scene.2) : Consistent scene'.2 :=
  Runs.keeps (motive := fun scene => Consistent scene.2) (fun _ _ ⟨_, _, hdeed⟩ hinv => hdeed.consistent hinv)
    hdeeds h

/-- What every allowed deed of a consistent instance keeps holds at the end of a chain. -/
theorem Deeds.keeps {motive : Set AgentId × Impl → Prop} (hdeeds : Deeds ctx allows scene scene')
    (hstep : ∀ event scene scene', allows event → Deed ctx event scene scene' → Consistent scene.2 →
      motive scene → motive scene')
    (hconsistent : Consistent scene.2) (h : motive scene) : motive scene' := by
  refine (Runs.keeps (motive := fun scene => Consistent scene.2 ∧ motive scene) (fun s s' hs hinv => ?_) hdeeds
    ⟨hconsistent, h⟩).2
  obtain ⟨event, hallows, hdeed⟩ := hs
  exact ⟨hdeed.consistent hinv.1, hstep event s s' hallows hdeed hinv.1 hinv.2⟩

theorem Deeds.mono {allows' : Event → Prop} (hdeeds : Deeds ctx allows scene scene')
    (himplies : ∀ event, allows event → allows' event) : Deeds ctx allows' scene scene' :=
  ReflTransGen.mono (fun _ _ ⟨event, hallows, hdeed⟩ => ⟨event, himplies event hallows, hdeed⟩) _ _ hdeeds

end Rules

end AgentScheduler
