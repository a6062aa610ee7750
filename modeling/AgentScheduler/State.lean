import AgentScheduler.Policy
import AgentScheduler.Agent
import AgentScheduler.Work
import AgentScheduler.Assignment

/-! Internal authoritative state, the derived indexes, and their maintenance. -/
namespace AgentScheduler
open Std

/-- A `std::map`. -/
abbrev Table (Key Value : Type) [Ord Key] := ExtTreeMap Key Value compare
/-- A `std::set`. -/
abbrev IdSet (Key : Type) [Ord Key] := ExtTreeSet Key compare

/-- Durable and dynamic record for one persistent agent identity. -/
structure AgentRecord where
  descriptor : AgentDescriptor := {}
  lifecycle : AgentLifecycle := .unregistered
  health : AgentHealth := .unknown
  readiness : AgentReadiness := .unknown
  reachability : AgentReachability := .unknown
  availability : AgentAvailability := .unknown
  profile : CapabilityProfile := {}
  healthGeneration : AgentHealthGeneration := 0
  availabilityGeneration : AgentAvailabilityGeneration := 0
  loadGeneration : AgentLoadGeneration := 0
  healthObservation : HealthObservation := {}
  availabilityObservation : AvailabilityObservation := {}
  loadObservation : LoadObservation := {}
  leaseExpiresAtMs : UInt64 := 0
  activeAssignments : Nat := 0
  recentAssignments : UInt32 := 0
  lastHeartbeatMs : UInt64 := 0
  registeredAtMs : UInt64 := 0
  assignmentsCompleted : Nat := 0
  assignmentsFailed : Nat := 0
  capabilityCurrent : Bool := false
  healthCurrent : Bool := false
  availabilityCurrent : Bool := false
  loadCurrent : Bool := false
  recovered : Bool := false
  reason : Text := ""
deriving DecidableEq

structure WorkRecord where
  request : WorkRequest := {}
  lifecycle : WorkLifecycle := .unknown
  admittedSequence : Nat := 0
  admittedAtMs : UInt64 := 0
  bypassCount : UInt32 := 0
  starvationRounds : UInt32 := 0
  currentAssignments : Nat := 0
  lastAssignmentGeneration : AssignmentGeneration := 0
  reason : Text := ""
deriving DecidableEq

structure AssignmentRecord where
  binding : AssignmentBinding := {}
  state : AssignmentState := .unknown
  invalidation : InvalidationReason := .none
  leaseCurrent : Bool := false
  dispatchedAtMs : UInt64 := 0
  acknowledgedAtMs : UInt64 := 0
  closedAtMs : UInt64 := 0
  reason : Text := ""
deriving DecidableEq

structure QueueRecord where
  id : QueueId := 0
  generation : QueueGeneration := 0
  fairnessClass : Text := "default"
  weight : UInt32 := 1
  admittedCount : Nat := 0
  assignedCount : Nat := 0
  completedCount : Nat := 0
  cancelledCount : Nat := 0
deriving DecidableEq

structure TenantRecord where
  id : TenantId := 0
  admittedCount : Nat := 0
  activeAssignments : Nat := 0
deriving DecidableEq

/-- `AgentScheduler::Impl`: one scheduler instance, its lock held. -/
structure Impl where
  limits : ResourceLimits := {}
  -- canonical authoritative state
  schedulerId : SchedulerId := 0
  schedulerEpoch : SchedulerEpoch := 1
  coordinatorEpoch : CoordinatorEpoch := 0
  queueGeneration : QueueGeneration := 0
  policy : PolicySnapshot := {}
  agents : Table AgentId AgentRecord := ∅
  work : Table WorkId WorkRecord := ∅
  assignments : Table AssignmentId AssignmentRecord := ∅
  leases : Table LeaseId Lease := ∅
  fencedBoots : Table AgentBootId FencedBoot := ∅
  queues : Table QueueId QueueRecord := ∅
  tenants : Table TenantId TenantRecord := ∅
  nextAdmissionSequence : Nat := 1
  stateRevision : Nat := 0
  schedulingRounds : Nat := 0
  assignmentsCreated : Nat := 0
  assignmentsInvalidated : Nat := 0
  running : Bool := false
  admissionOpen : Bool := false
  shuttingDown : Bool := false
  shutdownAtMs : UInt64 := 0
  recovered : Bool := false
  -- derived acceleration indexes
  indexAgentsByCapability : Table Text (IdSet AgentId) := ∅
  indexAgentsByLifecycle : Table AgentLifecycle (IdSet AgentId) := ∅
  indexAgentsByTenant : Table TenantId (IdSet AgentId) := ∅
  indexAgentsByDomain : Table PlacementDomainId (IdSet AgentId) := ∅
  indexWorkByQueue : Table QueueId (IdSet WorkId) := ∅
  indexWorkByLifecycle : Table WorkLifecycle (IdSet WorkId) := ∅
  indexAssignmentsByAgent : Table AgentId (IdSet AssignmentId) := ∅
  indexAssignmentsByWork : Table WorkId (IdSet AssignmentId) := ∅

namespace Impl

/-- `++impl.state_revision`. -/
def revise (impl : Impl) : Impl := { impl with stateRevision := impl.stateRevision + 1 }

def setAgent (impl : Impl) (agent : AgentId) (record : AgentRecord) : Impl :=
  { impl with agents := impl.agents.insert agent record }

def setWork (impl : Impl) (work : WorkId) (record : WorkRecord) : Impl :=
  { impl with work := impl.work.insert work record }

/-- Updates the stored record of an agent. -/
def modifyAgent (impl : Impl) (agent : AgentId) (update : AgentRecord → AgentRecord) : Impl :=
  { impl with agents := impl.agents.modify agent update }

/-- Updates the stored record of a work item. -/
def modifyWork (impl : Impl) (work : WorkId) (update : WorkRecord → WorkRecord) : Impl :=
  { impl with work := impl.work.modify work update }

def setAssignment (impl : Impl) (id : AssignmentId) (record : AssignmentRecord) : Impl :=
  { impl with assignments := impl.assignments.insert id record }

end Impl

def bootIsFenced (impl : Impl) (boot : AgentBootId) : Bool := impl.fencedBoots.contains boot

/-- `fence_boot`: permanently fences an incarnation. -/
def fenceBoot (now : UInt64) (impl : Impl) (agent : AgentId) (boot : AgentBootId) (generation : AgentGeneration)
    (reason : Text) : Impl :=
  if boot.isZero || bootIsFenced impl boot then impl
  else
    Impl.revise
      { impl with
        fencedBoots := impl.fencedBoots.insert boot { agent, boot, generation, fencedAtMs := now, reason } }

/-- `index[key].insert(id)`. -/
def indexInsert {Key Id : Type} [Ord Key] [TransOrd Key] [Ord Id] [TransOrd Id]
    (index : Table Key (IdSet Id)) (key : Key) (id : Id) : Table Key (IdSet Id) :=
  index.insert key ((index.getD key ∅).insert id)

/-- Erases an id from every set of an index. -/
def indexEraseAll {Key Id : Type} [Ord Key] [TransOrd Key] [Ord Id] [TransOrd Id]
    (index : Table Key (IdSet Id)) (id : Id) : Table Key (IdSet Id) :=
  index.map fun _ ids => ids.erase id

/-- Erases an id from the set of one key and drops the set when it becomes empty. -/
def indexErase {Key Id : Type} [Ord Key] [TransOrd Key] [Ord Id] [TransOrd Id]
    (index : Table Key (IdSet Id)) (key : Key) (id : Id) : Table Key (IdSet Id) :=
  match index[key]? with
  | none => index
  | some ids => if (ids.erase id).isEmpty then index.erase key else index.insert key (ids.erase id)

/-- The ids an index holds under a key, in order. -/
def indexIds {Key Id : Type} [Ord Key] [TransOrd Key] [Ord Id] [TransOrd Id]
    (index : Table Key (IdSet Id)) (key : Key) : List Id :=
  match index[key]? with
  | none => []
  | some ids => ids.toList

/-- `index_agent`. -/
def indexAgent (impl : Impl) (record : AgentRecord) : Impl :=
  let id := record.descriptor.id
  { impl with
    indexAgentsByLifecycle := indexInsert impl.indexAgentsByLifecycle record.lifecycle id
    indexAgentsByTenant := indexInsert impl.indexAgentsByTenant record.descriptor.tenant id
    indexAgentsByDomain :=
      if record.descriptor.placementDomain.isZero then impl.indexAgentsByDomain
      else indexInsert impl.indexAgentsByDomain record.descriptor.placementDomain id
    indexAgentsByCapability :=
      if record.capabilityCurrent then
        (record.profile.capabilities.filter fun evidence => evidence.state.isUsable).foldl
          (fun index evidence => indexInsert index evidence.name id) impl.indexAgentsByCapability
      else impl.indexAgentsByCapability }

/-- `deindex_agent`. -/
def deindexAgent (impl : Impl) (agent : AgentId) : Impl :=
  { impl with
    indexAgentsByLifecycle := indexEraseAll impl.indexAgentsByLifecycle agent
    indexAgentsByTenant := indexEraseAll impl.indexAgentsByTenant agent
    indexAgentsByDomain := indexEraseAll impl.indexAgentsByDomain agent
    indexAgentsByCapability := indexEraseAll impl.indexAgentsByCapability agent }

/-- `index_work`. -/
def indexWork (impl : Impl) (record : WorkRecord) : Impl :=
  { impl with
    indexWorkByQueue := indexInsert impl.indexWorkByQueue record.request.queue record.request.id
    indexWorkByLifecycle := indexInsert impl.indexWorkByLifecycle record.lifecycle record.request.id }

/-- `deindex_work`. -/
def deindexWork (impl : Impl) (work : WorkId) : Impl :=
  { impl with
    indexWorkByQueue := indexEraseAll impl.indexWorkByQueue work
    indexWorkByLifecycle := indexEraseAll impl.indexWorkByLifecycle work }

/-- `index_assignment`: only active assignments are indexed. -/
def indexAssignment (impl : Impl) (record : AssignmentRecord) : Impl :=
  if !record.state.isActive then impl
  else
    { impl with
      indexAssignmentsByAgent :=
        indexInsert impl.indexAssignmentsByAgent record.binding.agent record.binding.id
      indexAssignmentsByWork :=
        indexInsert impl.indexAssignmentsByWork record.binding.work record.binding.id }

/-- `deindex_assignment`. -/
def deindexAssignment (impl : Impl) (record : AssignmentRecord) : Impl :=
  { impl with
    indexAssignmentsByAgent :=
      indexErase impl.indexAssignmentsByAgent record.binding.agent record.binding.id
    indexAssignmentsByWork :=
      indexErase impl.indexAssignmentsByWork record.binding.work record.binding.id }

/-- `rebuild_indexes`. -/
def rebuildIndexes (impl : Impl) : Impl :=
  let cleared :=
    { impl with
      indexAgentsByCapability := ∅
      indexAgentsByLifecycle := ∅
      indexAgentsByTenant := ∅
      indexAgentsByDomain := ∅
      indexWorkByQueue := ∅
      indexWorkByLifecycle := ∅
      indexAssignmentsByAgent := ∅
      indexAssignmentsByWork := ∅ }
  let withAgents := impl.agents.toList.foldl (fun acc entry => indexAgent acc entry.2) cleared
  let withWork := impl.work.toList.foldl (fun acc entry => indexWork acc entry.2) withAgents
  impl.assignments.toList.foldl (fun acc entry => indexAssignment acc entry.2) withWork

/-- `recompute_lifecycle`: Lost, Retired, and Draining are sticky. -/
def recomputeLifecycle (record : AgentRecord) : AgentRecord :=
  if record.lifecycle = .lost ∨ record.lifecycle = .retired ∨ record.lifecycle = .draining then record
  else if !record.capabilityCurrent || !record.healthCurrent || !record.availabilityCurrent then
    { record with lifecycle := if record.recovered then .revalidationRequired else .registering }
  else if record.availability ≠ .available ∨ record.reachability ≠ .reachable ∨ record.readiness ≠ .ready then
    { record with lifecycle := .unavailable }
  else { record with lifecycle := if 0 < record.activeAssignments then .busy else .ready }

/-- `invalidate_dynamic_evidence`. -/
def invalidateDynamicEvidence (record : AgentRecord) : AgentRecord :=
  { record with
    capabilityCurrent := false
    healthCurrent := false
    availabilityCurrent := false
    loadCurrent := false
    health := .unknown
    readiness := .unknown
    reachability := .unknown
    availability := .unknown
    leaseExpiresAtMs := 0
    profile := record.profile.invalidateEvidence }

/-- Whether an id names a stored active assignment. -/
def isActiveId (impl : Impl) (id : AssignmentId) : Bool :=
  match impl.assignments[id]? with
  | none => false
  | some record => record.state.isActive

/-- `active_assignment_count`. -/
def activeAssignmentCount (impl : Impl) (agent : AgentId) : Nat :=
  (indexIds impl.indexAssignmentsByAgent agent).countP (isActiveId impl)

/-- `sync_agent_lifecycle_index`. -/
def syncAgentLifecycleIndex (impl : Impl) (agent : AgentId) (lifecycle : AgentLifecycle) : Impl :=
  { impl with
    indexAgentsByLifecycle :=
      indexInsert (indexEraseAll impl.indexAgentsByLifecycle agent) lifecycle agent }

/-- `sync_work_lifecycle_index`. -/
def syncWorkLifecycleIndex (impl : Impl) (work : WorkId) (lifecycle : WorkLifecycle) : Impl :=
  { impl with
    indexWorkByLifecycle := indexInsert (indexEraseAll impl.indexWorkByLifecycle work) lifecycle work }

/-- `refresh_agent_accounting` on the stored record of an agent. -/
def refreshAgentAccounting (impl : Impl) (agent : AgentId) : Impl :=
  match impl.agents[agent]? with
  | none => impl
  | some record =>
    let refreshed := recomputeLifecycle
      { record with activeAssignments := activeAssignmentCount impl record.descriptor.id }
    syncAgentLifecycleIndex (impl.setAgent agent refreshed) refreshed.descriptor.id refreshed.lifecycle

/-- Whether an id names a stored assignment that is executing or releasing. -/
def isExecutingId (impl : Impl) (id : AssignmentId) : Bool :=
  match impl.assignments[id]? with
  | none => false
  | some record => record.state = .executing || record.state = .releasing

/-- The lifecycle `refresh_work_accounting` leaves: terminal lifecycles stay. -/
def refreshedWorkLifecycle (lifecycle : WorkLifecycle) (active : Nat) (executing : Bool) : WorkLifecycle :=
  if lifecycle.isTerminal then lifecycle
  else if active = 0 then .admitted
  else if executing then .executing else .assigned

/-- `refresh_work_accounting` on the stored record of a work item. -/
def refreshWorkAccounting (impl : Impl) (work : WorkId) : Impl :=
  match impl.work[work]? with
  | none => impl
  | some record =>
    let ids := (indexIds impl.indexAssignmentsByWork record.request.id).filter (isActiveId impl)
    let refreshed :=
      { record with
        currentAssignments := ids.length
        lifecycle := refreshedWorkLifecycle record.lifecycle ids.length (ids.any (isExecutingId impl)) }
    syncWorkLifecycleIndex (impl.setWork work refreshed) refreshed.request.id refreshed.lifecycle

/-- The decay `close_assignment` applies to the recent-assignment counter. -/
def decayRecent (record : AgentRecord) : AgentRecord :=
  if 0 < record.recentAssignments then
    { record with recentAssignments := record.recentAssignments * 3 / 4 }
  else record

/-- Marks a stored lease as no longer current. -/
def dropLease (impl : Impl) (lease : LeaseId) : Impl :=
  { impl with leases := impl.leases.modify lease fun stored => { stored with current := false } }

/-- The terminal form of a record. -/
def AssignmentRecord.close (record : AssignmentRecord) (now : UInt64) (state : AssignmentState)
    (reason : InvalidationReason) (detail : Text) : AssignmentRecord :=
  { record with
    state := state
    invalidation := reason
    leaseCurrent := false
    closedAtMs := now
    reason := detail }

/-- `close_assignment` on a stored record: releases the work slot and the agent's capacity. -/
def closeAssignment (now : UInt64) (impl : Impl) (id : AssignmentId) (state : AssignmentState)
    (reason : InvalidationReason) (detail : Text) : Impl :=
  match impl.assignments[id]? with
  | none => impl
  | some record =>
    if record.state.isTerminal then impl
    else
      let closed := record.close now state reason detail
      let impl := dropLease (impl.setAssignment id closed) record.binding.lease
      let impl := deindexAssignment impl closed
      let impl :=
        match impl.agents[record.binding.agent]? with
        | none => impl
        | some agent =>
          refreshAgentAccounting (impl.setAgent record.binding.agent (decayRecent agent)) record.binding.agent
      let impl := refreshWorkAccounting impl record.binding.work
      Impl.revise { impl with assignmentsInvalidated := impl.assignmentsInvalidated + 1 }

/-- A loop over `impl.assignments` that closes every stored record the predicate selects. -/
def closeWhere (now : UInt64) (impl : Impl) (selected : AssignmentRecord → Bool) (state : AssignmentState)
    (reason : InvalidationReason) (detail : Text) : Impl :=
  impl.assignments.keys.foldl
    (fun impl id =>
      match impl.assignments[id]? with
      | none => impl
      | some record =>
        if selected record then closeAssignment now impl id state reason detail else impl)
    impl

end AgentScheduler
