import AgentScheduler.System

/-! The abstract authority ledger: who may act on which work, and how that moves. -/
namespace AgentScheduler

/-- What the ledger knows of an agent: its incarnation and its published capability evidence. -/
structure AgentEntry where
  generation : AgentGeneration
  boot : AgentBootId
  profile : CapabilityProfileId
  capabilityGeneration : AgentCapabilityGeneration
  capabilityCurrent : Bool

/-- What the ledger knows of a work item: its request, its terminal lifecycle, and its last commit. -/
structure WorkEntry where
  request : WorkRequest
  settled : Option WorkLifecycle
  lastGeneration : AssignmentGeneration

/-- Authority without its bookkeeping: no indexes, counters, leases or evidence. -/
@[ext] structure Ledger where
  scheduler : SchedulerId
  epoch : SchedulerEpoch
  policy : PolicyId
  policyGeneration : PolicyGeneration
  agents : AgentId → Option AgentEntry
  works : WorkId → Option WorkEntry
  assignments : AssignmentId → Option AssignmentRecord

namespace Ledger

def setAgent (ledger : Ledger) (agent : AgentId) (entry : AgentEntry) : Ledger :=
  { ledger with agents := Function.update ledger.agents agent (some entry) }

def setWork (ledger : Ledger) (work : WorkId) (entry : WorkEntry) : Ledger :=
  { ledger with works := Function.update ledger.works work (some entry) }

def setAssignment (ledger : Ledger) (id : AssignmentId) (record : AssignmentRecord) : Ledger :=
  { ledger with assignments := Function.update ledger.assignments id (some record) }

def mapAssignments (ledger : Ledger) (update : AssignmentRecord → AssignmentRecord) : Ledger :=
  { ledger with assignments := fun id => (ledger.assignments id).map update }

/-- The active assignments with a property. -/
def active (ledger : Ledger) (p : AssignmentRecord → Prop) : Set AssignmentId :=
  {id | ∃ record, ledger.assignments id = some record ∧ record.state.isActive ∧ p record}

/-- The active assignments of a work item. -/
def activeFor (ledger : Ledger) (work : WorkId) : Set AssignmentId :=
  ledger.active fun record => record.binding.work = work

/-- The active assignments of a work item on one agent. -/
def activeOn (ledger : Ledger) (work : WorkId) (agent : AgentId) : Set AssignmentId :=
  ledger.active fun record => record.binding.work = work ∧ record.binding.agent = agent

/-- The active exclusive assignments of a work item. -/
def exclusiveFor (ledger : Ledger) (work : WorkId) : Set AssignmentId :=
  ledger.active fun record => record.binding.work = work ∧ record.binding.exclusive

/-- No active assignment is bound to an incarnation of an agent. -/
def Idle (ledger : Ledger) (agent : AgentId) (boot : AgentBootId) : Prop :=
  ledger.active (fun record => record.binding.agent = agent ∧ record.binding.boot = boot) = ∅

/-- The effect of a commit: the record, unless its id is taken, and the work item's last generation. -/
def commit (ledger : Ledger) (entry : WorkEntry) (binding : AssignmentBinding) : Ledger :=
  ({ ledger with
     assignments := fun id =>
       if id = binding.id then some ((ledger.assignments id).getD binding.record) else ledger.assignments id
   } : Ledger).setWork binding.work { entry with lastGeneration := binding.generation }

/-- What a recovery leaves of the ledger a file was saved from. -/
def recover (file current : Ledger) : Ledger where
  scheduler := if file.scheduler.isZero then current.scheduler else file.scheduler
  epoch := ⟨file.epoch.value + 1⟩
  policy := file.policy
  policyGeneration := file.policyGeneration
  agents := fun agent => (file.agents agent).map fun entry => { entry with capabilityCurrent := false }
  works := file.works
  assignments := fun id => (file.assignments id).map AssignmentRecord.recover

end Ledger

/-- Closes the selected records. -/
def closing (selected : AssignmentRecord → Bool) (now : UInt64) (state : AssignmentState)
    (reason : InvalidationReason) (detail : Text) (record : AssignmentRecord) : AssignmentRecord :=
  if selected record then record.close now state reason detail else record

/-- Demotes the records that newer evidence of their agent outdates. -/
def demoting (agent : AgentId) (profile : CapabilityProfile) (record : AssignmentRecord) : AssignmentRecord :=
  if outdatedBy agent profile record then record.demote else record

/-- Only the lease expiry of a binding ever changes. -/
def SameBinding (before after : AssignmentRecord) : Prop :=
  after.binding = { before.binding with leaseExpiresAtMs := after.binding.leaseExpiresAtMs }

/-- Under which circumstances a binding may be committed. -/
structure Commits (ledger : Ledger) (entry : WorkEntry) (binding : AssignmentBinding) : Prop where
  scheduler : binding.scheduler = ledger.scheduler
  epoch : binding.schedulerEpoch = ledger.epoch
  policy : binding.policy = ledger.policy
  policyGeneration : binding.policyGeneration = ledger.policyGeneration
  work : ledger.works binding.work = some entry
  workGeneration : entry.request.generation = binding.workGeneration
  unsettled : entry.settled ≠ some .cancelled ∧ entry.settled ≠ some .superseded
  agent : ∃ agent, ledger.agents binding.agent = some agent ∧ agent.generation = binding.agentGeneration ∧
    agent.boot = binding.boot ∧ agent.profile = binding.capabilityProfile ∧
    agent.capabilityGeneration = binding.capabilityGeneration ∧ agent.capabilityCurrent
  room : ledger.activeFor binding.work = ∅ ∨
    (entry.request.mode = .parallel ∧
      (ledger.activeFor binding.work).encard < entry.request.requirements.maxParallel.toNat)
  perAgent : (ledger.activeOn binding.work binding.agent).encard <
    entry.request.requirements.maxAssignmentsPerAgent.toNat
  exclusive : binding.exclusive → ledger.exclusiveFor binding.work = ∅

/-- Extra conditions on commits and on settling work, chosen by the property at hand. -/
structure Gate where
  commits : Ledger → AssignmentBinding → Prop := fun _ _ => True
  settles : WorkEntry → WorkLifecycle → Prop := fun _ _ => True

/-- The deadline of a request has passed. -/
def WorkRequest.LapsedAt (now : UInt64) (request : WorkRequest) : Prop :=
  request.requirements.deadlineMs ≠ 0 ∧ request.requirements.deadlineMs < now

/-- The gate lets every work item settle, but expire only after its deadline. -/
def Gate.Permits (gate : Gate) (now : UInt64) : Prop :=
  ∀ entry lifecycle, (lifecycle = .expired → entry.request.LapsedAt now) → gate.settles entry lifecycle

/-- One movement of authority. -/
inductive Move (gate : Gate) (ledger : Ledger) : Ledger → Prop
  /-- active assignments end -/
  | close (selected : AssignmentRecord → Bool) (now : UInt64) (state : AssignmentState)
      (reason : InvalidationReason) (detail : Text)
      (hselected : ∀ record, selected record → record.state.isActive) (hterminal : state.isTerminal) :
      Move gate ledger (ledger.mapAssignments (closing selected now state reason detail))
  /-- another policy takes effect and ends every assignment bound to an earlier one -/
  | repolicy (policy : PolicyId) (generation : PolicyGeneration) (now : UInt64)
      (hmoved : generation ≠ ledger.policyGeneration) :
      Move gate ledger
        (({ ledger with policy := policy, policyGeneration := generation } : Ledger).mapAssignments
          (closing (fun record => record.state.isActive && record.binding.policyGeneration ≠ generation) now
            .invalidated .policyChanged "policy generation moved under an active assignment"))
  /-- an agent is registered or reincarnated -/
  | enroll (agent : AgentId) (entry : AgentEntry)
      (hidle : ∀ old, ledger.agents agent = some old → ledger.Idle agent old.boot) :
      Move gate ledger (ledger.setAgent agent entry)
  /-- an agent publishes newer capability evidence, or replaces evidence that is not current -/
  | republish (agent : AgentId) (old : AgentEntry) (profile : CapabilityProfile)
      (hold : ledger.agents agent = some old) (hforward : ¬profile.generation < old.capabilityGeneration)
      (hsame : profile.generation = old.capabilityGeneration → old.capabilityCurrent = false) :
      Move gate ledger
        ((ledger.setAgent agent
          { old with
            profile := profile.profileId
            capabilityGeneration := profile.generation
            capabilityCurrent := true }).mapAssignments (demoting agent profile))
  /-- the evidence of an agent without active assignments lapses -/
  | silence (agent : AgentId) (old : AgentEntry) (hold : ledger.agents agent = some old)
      (hidle : ledger.Idle agent old.boot) :
      Move gate ledger (ledger.setAgent agent { old with capabilityCurrent := false })
  /-- a work item is admitted, or admitted again at a higher generation -/
  | accept (work : WorkId) (entry : WorkEntry) (hshape : entry.request.WellShaped) (hfresh : entry.settled = none)
      (hold : ∀ old, ledger.works work = some old →
        old.request.generation < entry.request.generation ∧ entry.lastGeneration = old.lastGeneration ∧
          ledger.activeFor work = ∅) :
      Move gate ledger (ledger.setWork work entry)
  /-- a work item without active assignments reaches a terminal lifecycle -/
  | settle (work : WorkId) (old : WorkEntry) (lifecycle : WorkLifecycle) (hterminal : lifecycle.isTerminal)
      (hold : ledger.works work = some old) (hidle : ledger.activeFor work = ∅)
      (hsettles : gate.settles old lifecycle) :
      Move gate ledger (ledger.setWork work { old with settled := some lifecycle })
  /-- a live assignment advances -/
  | advance (id : AssignmentId) (before after : AssignmentRecord) (hbefore : ledger.assignments id = some before)
      (hlive : before.state.isLive) (hstays : after.state.isLive) (hleaves : after.state ≠ .assigned)
      (hlease : after.leaseCurrent = before.leaseCurrent ∨ after.leaseCurrent)
      (hbinding : SameBinding before after) :
      Move gate ledger (ledger.setAssignment id after)
  /-- an assignment that waits for revalidation is assigned again under the authority it is bound to -/
  | promote (id : AssignmentId) (record : AssignmentRecord) (now ttl : UInt64) (agent : AgentEntry)
      (hrecord : ledger.assignments id = some record) (hstate : record.state = .revalidationRequired)
      (hepoch : record.binding.schedulerEpoch = ledger.epoch)
      (hagent : ledger.agents record.binding.agent = some agent)
      (hcapability : agent.capabilityGeneration = record.binding.capabilityGeneration) :
      Move gate ledger (ledger.setAssignment id (record.promote now ttl))
  /-- a planned binding is committed -/
  | commit (entry : WorkEntry) (binding : AssignmentBinding) (hcommits : Commits ledger entry binding)
      (hadmits : gate.commits ledger binding) :
      Move gate ledger (ledger.commit entry binding)

/-! ### What every reachable ledger satisfies -/

/-- A record agrees with the ledger it is in. -/
structure Authorised (ledger : Ledger) (record : AssignmentRecord) : Prop where
  /-- an active assignment either may be acted on or waits for revalidation -/
  phase : record.state.isActive → record.state.isLive ∨ record.state = .revalidationRequired
  lease : record.leaseCurrent = record.state.isLive
  work : record.state.isActive →
    ∃ entry, ledger.works record.binding.work = some entry ∧ entry.request.generation = record.binding.workGeneration
  agent : record.state.isActive →
    ∃ entry, ledger.agents record.binding.agent = some entry ∧
      entry.generation = record.binding.agentGeneration ∧ entry.boot = record.binding.boot ∧
      (record.state.isLive → entry.profile = record.binding.capabilityProfile ∧
        entry.capabilityGeneration = record.binding.capabilityGeneration ∧ entry.capabilityCurrent) ∧
      (record.state = .revalidationRequired → record.binding.schedulerEpoch.value < ledger.epoch.value ∨
        record.binding.capabilityGeneration < entry.capabilityGeneration)
  policy : record.state.isActive → record.binding.policy = ledger.policy ∧
    record.binding.policyGeneration = ledger.policyGeneration
  scheduler : record.state.isLive → record.binding.scheduler = ledger.scheduler ∧
    record.binding.schedulerEpoch = ledger.epoch

/-- Every record agrees with the ledger. -/
def Sound (ledger : Ledger) : Prop :=
  ∀ id record, ledger.assignments id = some record → Authorised ledger record

end AgentScheduler
