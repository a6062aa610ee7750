import AgentScheduler.Replicas

/-! The records that outlast an operation (outcomes, evidence flags, assignments, leases and tenant counts) and the changes
they are made of. -/
namespace AgentScheduler
open Std KeyedTable Relation

/-- What the records say of an agent: its generation, its outcomes under it, and which of its evidence is current. -/
@[ext] structure AgentBrief where
  generation : AgentGeneration
  completed : Nat := 0
  failed : Nat := 0
  capabilityCurrent : Bool := false
  healthCurrent : Bool := false
  availabilityCurrent : Bool := false
  loadCurrent : Bool := false
  recovered : Bool := false

def AgentRecord.brief (record : AgentRecord) : AgentBrief where
  generation := record.descriptor.generation
  completed := record.assignmentsCompleted
  failed := record.assignmentsFailed
  capabilityCurrent := record.capabilityCurrent
  healthCurrent := record.healthCurrent
  availabilityCurrent := record.availabilityCurrent
  loadCurrent := record.loadCurrent
  recovered := record.recovered

/-- The records, without anything that is derived from them. -/
@[ext] structure Records where
  agents : AgentId → Option AgentBrief
  tenantOf : WorkId → Option TenantId
  assignments : AssignmentId → Option AssignmentRecord
  leases : LeaseId → Option Lease
  held : TenantId → Option Nat

def Impl.records (impl : Impl) : Records where
  agents agent := (impl.agents[agent]?).map AgentRecord.brief
  tenantOf work := (impl.work[work]?).map fun record => record.request.requirements.tenant
  assignments id := impl.assignments[id]?
  leases lease := impl.leases[lease]?
  held tenant := (impl.tenants[tenant]?).map TenantRecord.activeAssignments

/-! ### Changes -/

namespace AgentBrief

/-- Nothing an agent has published is current any more. -/
def silence (brief : AgentBrief) : AgentBrief :=
  { brief with capabilityCurrent := false, healthCurrent := false, availabilityCurrent := false, loadCurrent := false }

/-- An outcome is counted; a rejection is none. -/
def count (brief : AgentBrief) : AssignmentState → AgentBrief
  | .completed => { brief with completed := brief.completed + 1 }
  | .failed => { brief with failed := brief.failed + 1 }
  | _ => brief

def recover (brief : AgentBrief) : AgentBrief := { brief.silence with recovered := true }

end AgentBrief

namespace Records

def setAgent (records : Records) (agent : AgentId) (brief : AgentBrief) : Records :=
  { records with agents := Function.update records.agents agent (some brief) }

def setAssignment (records : Records) (id : AssignmentId) (record : AssignmentRecord) : Records :=
  { records with assignments := Function.update records.assignments id (some record) }

def modifyLease (records : Records) (lease : LeaseId) (update : Lease → Lease) : Records :=
  { records with leases := Function.update records.leases lease ((records.leases lease).map update) }

def modifyHeld (records : Records) (tenant : TenantId) (update : Nat → Nat) : Records :=
  { records with held := Function.update records.held tenant ((records.held tenant).map update) }

/-- A record ends, and its lease with it. -/
def close (records : Records) (id : AssignmentId) (closed : AssignmentRecord) : Records :=
  (records.setAssignment id closed).modifyLease closed.binding.lease fun stored => { stored with current := false }

/-- A lease is granted again, with the record that holds it. -/
def renew (records : Records) (id : AssignmentId) (renewed : AssignmentRecord) : Records :=
  (records.setAssignment id renewed).modifyLease renewed.binding.lease fun stored =>
    { stored with expiresAtMs := renewed.binding.leaseExpiresAtMs, current := true }

/-- The tenant of a work item gives back what an assignment of it held. -/
def release (records : Records) (work : WorkId) : Records :=
  match records.tenantOf work with
  | none => records
  | some tenant => records.modifyHeld tenant (· - 1)

/-- An outcome of an assignment is counted for its agent. -/
def countOutcome (records : Records) (agent : AgentId) (state : AssignmentState) : Records :=
  { records with agents := Function.update records.agents agent ((records.agents agent).map (·.count state)) }

/-- A binding is stored with its lease, unless their ids are taken, and held for the tenant of its work. -/
def commit (records : Records) (binding : AssignmentBinding) (tenant : TenantId) : Records :=
  ({ records with
     assignments := Function.update records.assignments binding.id
       (some ((records.assignments binding.id).getD binding.record))
     leases := Function.update records.leases binding.lease
       (some ((records.leases binding.lease).getD binding.leaseRecord)) } : Records).modifyHeld tenant (· + 1)

/-- What a recovery leaves of the records. -/
def recover (records : Records) : Records where
  agents agent := (records.agents agent).map AgentBrief.recover
  tenantOf := records.tenantOf
  assignments id := (records.assignments id).map AssignmentRecord.recover
  leases lease := (records.leases lease).map Lease.recover
  held := records.held

/-- The active assignments with a property. -/
def active (records : Records) (p : AssignmentRecord → Prop) : Set AssignmentId :=
  {id | ∃ record, records.assignments id = some record ∧ record.state.isActive ∧ p record}

end Records

/-- What a change is about. -/
inductive Occasion
  /-- an agent publishes evidence other than its load -/
  | vouches
  /-- an agent, as it was, publishes its load -/
  | reportsLoad (brief : AgentBrief)
  /-- the evidence of an agent lapses -/
  | silences
  | enrolls
  | advances
  | demotes
  /-- a lease is granted again, for a time -/
  | renews (ttl : UInt64)
  | closes (id : AssignmentId) (record : AssignmentRecord)
  /-- a record ends because its agent completes, fails or rejects it -/
  | concludes
  | commits (impl : Impl) (work : WorkRecord) (binding : AssignmentBinding)
  | admits
  | opens

/-- One change of the records. -/
inductive Posting (now : UInt64) : Occasion → Records → Records → Prop
  | vouch {records : Records} (agent : AgentId) (brief brief' : AgentBrief) (hbrief : records.agents agent = some brief)
      (hgeneration : brief'.generation = brief.generation) (hcompleted : brief'.completed = brief.completed)
      (hfailed : brief'.failed = brief.failed) (hfresh : brief'.recovered = false) :
      Posting now .vouches records (records.setAgent agent brief')
  | reportLoad {records : Records} (agent : AgentId) (brief : AgentBrief) (hbrief : records.agents agent = some brief) :
      Posting now (.reportsLoad brief) records (records.setAgent agent { brief with loadCurrent := true })
  | silence {records : Records} (agent : AgentId) (brief : AgentBrief) (hbrief : records.agents agent = some brief) :
      Posting now .silences records (records.setAgent agent brief.silence)
  | enroll {records : Records} (agent : AgentId) (generation : AgentGeneration)
      (hnewer : ∀ old, records.agents agent = some old → old.generation < generation) :
      Posting now .enrolls records (records.setAgent agent { generation })
  | advance {records : Records} (id : AssignmentId) (before after : AssignmentRecord)
      (hbefore : records.assignments id = some before) (hwas : before.state.isActive) (hactive : after.state.isActive)
      (hbinding : after.binding = before.binding) (hlease : after.leaseCurrent = before.leaseCurrent) :
      Posting now .advances records (records.setAssignment id after)
  | demote {records : Records} (id : AssignmentId) (before : AssignmentRecord)
      (hbefore : records.assignments id = some before) (hwas : before.state.isActive) :
      Posting now .demotes records (records.close id before.demote)
  | renew {records : Records} (id : AssignmentId) (before after : AssignmentRecord) (ttl : UInt64)
      (hbefore : records.assignments id = some before) (hwas : before.state.isActive) (hactive : after.state.isActive)
      (hlease : after.leaseCurrent) (hbinding : after.binding = { before.binding with leaseExpiresAtMs := now + ttl }) :
      Posting now (.renews ttl) records (records.renew id after)
  | close {records : Records} (id : AssignmentId) (record : AssignmentRecord) (state : AssignmentState)
      (reason : InvalidationReason) (detail : Text) (hrecord : records.assignments id = some record)
      (hopen : record.state.isTerminal = false) (hterminal : state.isTerminal) (hcompleted : state ≠ .completed)
      (hfailed : state ≠ .failed) :
      Posting now (.closes id record) records (records.close id (record.close now state reason detail))
  | conclude {records : Records} (id : AssignmentId) (record : AssignmentRecord) (brief : AgentBrief)
      (state : AssignmentState) (reason : InvalidationReason) (detail : Text) (hrecord : records.assignments id = some record)
      (hopen : record.state.isTerminal = false) (hterminal : state.isTerminal)
      (hbrief : records.agents record.binding.agent = some brief)
      (hgeneration : brief.generation = record.binding.agentGeneration) :
      Posting now .concludes records
        (((records.close id (record.close now state reason detail)).countOutcome record.binding.agent state).release
          record.binding.work)
  | commit {impl : Impl} (work : WorkRecord) (binding : AssignmentBinding) (brief : AgentBrief)
      (hbrief : impl.records.agents binding.agent = some brief) (hgeneration : brief.generation = binding.agentGeneration)
      (hwork : impl.work[binding.work]? = some work) :
      Posting now (.commits impl work binding) impl.records
        (impl.records.commit binding work.request.requirements.tenant)
  | receive {records : Records} (work : WorkId) (tenant : TenantId)
      (hidle : records.active (fun record => record.binding.work = work) = ∅) :
      Posting now .admits records { records with tenantOf := Function.update records.tenantOf work (some tenant) }
  | «open» {records : Records} (tenant : TenantId) (hzero : tenant ≠ 0) (hunknown : records.held tenant = none) :
      Posting now .opens records { records with held := Function.update records.held tenant (some 0) }

/-- Chains of changes whose occasions are all allowed. -/
abbrev Postings (now : UInt64) (allows : Occasion → Prop) : Records → Records → Prop :=
  ReflTransGen fun records records' => ∃ occasion, allows occasion ∧ Posting now occasion records records'

section Rules
variable {now : UInt64} {allows allows' : Occasion → Prop} {occasion : Occasion} {records records' : Records}

theorem Postings.single (hposting : Posting now occasion records records') (hallows : allows occasion) :
    Postings now allows records records' :=
  ReflTransGen.single ⟨occasion, hallows, hposting⟩

theorem Postings.mono (hpostings : Postings now allows records records') (h : ∀ occasion, allows occasion → allows' occasion) :
    Postings now allows' records records' :=
  ReflTransGen.mono (fun _ _ ⟨occasion, hallows, hposting⟩ => ⟨occasion, h occasion hallows, hposting⟩) _ _ hpostings

/-- What every allowed change keeps holds at the end of a chain. -/
theorem Postings.keeps {motive : Records → Prop} (hpostings : Postings now allows records records')
    (hkeeps : ∀ occasion records records', allows occasion → Posting now occasion records records' → motive records →
      motive records')
    (h : motive records) : motive records' :=
  Runs.keeps (motive := motive) (fun _ _ ⟨occasion, hallows, hposting⟩ hinv => hkeeps occasion _ _ hallows hposting hinv)
    hpostings h

end Rules

/-! ### What leaves the records alone, and what changes them -/

section Views
variable {Key Value View : Type} [Ord Key] [TransOrd Key] [LawfulEqOrd Key] [DecidableEq Key]
  {table : ExtTreeMap Key Value compare} {view : Value → View}

omit [Ord Key] [TransOrd Key] [LawfulEqOrd Key] in
theorem update_ite (read : Key → View) (key other : Key) (shown : View) :
    Function.update read key shown other = if key = other then shown else read other := by
  rw [Function.update_apply]
  simp only [eq_comm]

theorem view_insert_update (key : Key) (value : Value) :
    (fun other : Key => ((table.insert key value)[other]?).map view) =
      Function.update (fun other => (table[other]?).map view) key (some (view value)) := by
  funext other
  rw [getElem?_insert, update_ite]
  split <;> rfl

theorem view_modify_update {update : Value → Value} {change : View → View} (key : Key)
    (hview : ∀ value, view (update value) = change (view value)) :
    (fun other : Key => ((table.modify key update)[other]?).map view) =
      Function.update (fun other => (table[other]?).map view) key (((table[key]?).map view).map change) := by
  funext other
  rw [getElem?_modify, update_ite]
  split
  · next heq =>
    subst heq
    rw [Option.map_map, Option.map_map]
    congr 1
    funext value
    exact hview value
  · rfl

theorem read_insert_update (key : Key) (value : Value) :
    (fun other : Key => (table.insert key value)[other]?) = Function.update (fun other => table[other]?) key (some value) := by
  funext other
  rw [getElem?_insert, update_ite]

theorem read_modify_update (key : Key) (update : Value → Value) :
    (fun other : Key => (table.modify key update)[other]?) =
      Function.update (fun other => table[other]?) key ((table[key]?).map update) := by
  funext other
  rw [getElem?_modify, update_ite]
  split
  · next heq => rw [heq]
  · rfl

theorem read_insertIfNew_update (key : Key) (value : Value) :
    (fun other : Key => (table.insertIfNew key value)[other]?) =
      Function.update (fun other => table[other]?) key (some ((table[key]?).getD value)) := by
  funext other
  rw [getElem?_insertIfNew, update_ite]
  split
  · next heq => rw [heq]
  · rfl

end Views

section Primitives
variable {impl : Impl} {now : UInt64}

@[simp] theorem records_revise (impl : Impl) : impl.revise.records = impl.records := rfl

@[simp] theorem records_deindexAgent (impl : Impl) (agent : AgentId) : (deindexAgent impl agent).records = impl.records := rfl

@[simp] theorem records_indexStoredAgent (impl : Impl) (agent : AgentId) :
    (indexStoredAgent impl agent).records = impl.records := by
  unfold indexStoredAgent
  split <;> rfl

@[simp] theorem records_deindexAssignment (impl : Impl) (record : AssignmentRecord) :
    (deindexAssignment impl record).records = impl.records := rfl

@[simp] theorem records_indexAssignment (impl : Impl) (record : AssignmentRecord) :
    (indexAssignment impl record).records = impl.records := by
  unfold indexAssignment
  split <;> rfl

@[simp] theorem records_fenceBoot (impl : Impl) (agent : AgentId) (boot : AgentBootId) (generation : AgentGeneration)
    (reason : Text) : (fenceBoot now impl agent boot generation reason).records = impl.records := by
  unfold fenceBoot
  split <;> rfl

theorem records_setAgent (impl : Impl) (agent : AgentId) (record : AgentRecord) :
    (impl.setAgent agent record).records = impl.records.setAgent agent record.brief := by
  apply Records.ext <;> try rfl
  exact view_insert_update agent record

/-- Storing a record that says what the one it replaces said changes nothing. -/
theorem records_setAgent_same {agent : AgentId} {old record : AgentRecord} (hold : impl.agents[agent]? = some old)
    (hbrief : record.brief = old.brief) : (impl.setAgent agent record).records = impl.records := by
  apply Records.ext <;> try rfl
  exact view_insert hold hbrief

theorem records_modifyAgent (impl : Impl) (agent : AgentId) {update : AgentRecord → AgentRecord}
    (hbrief : ∀ record, (update record).brief = record.brief) : (impl.modifyAgent agent update).records = impl.records := by
  apply Records.ext <;> try rfl
  exact view_modify agent hbrief

theorem brief_recomputeLifecycle (record : AgentRecord) : (recomputeLifecycle record).brief = record.brief := by
  unfold recomputeLifecycle
  repeat' split
  all_goals rfl

@[simp] theorem records_refreshAgentAccounting (impl : Impl) (agent : AgentId) :
    (refreshAgentAccounting impl agent).records = impl.records := by
  unfold refreshAgentAccounting
  split
  · rfl
  · next record hrecord => exact records_setAgent_same hrecord (brief_recomputeLifecycle _)

@[simp] theorem records_refreshAgent (impl : Impl) (agent : AgentId) : (refreshAgent impl agent).records = impl.records := by
  simp [refreshAgent]

theorem records_setWork_same {work : WorkId} {old record : WorkRecord} (hold : impl.work[work]? = some old)
    (hrequest : record.request = old.request) : (impl.setWork work record).records = impl.records := by
  apply Records.ext <;> try rfl
  refine view_insert hold ?_
  rw [hrequest]

theorem records_setWork (impl : Impl) (work : WorkId) (record : WorkRecord) :
    (impl.setWork work record).records =
      { impl.records with
        tenantOf := Function.update impl.records.tenantOf work (some record.request.requirements.tenant) } := by
  apply Records.ext <;> try rfl
  exact view_insert_update work record

theorem records_modifyWork (impl : Impl) (work : WorkId) {update : WorkRecord → WorkRecord}
    (hrequest : ∀ record, (update record).request = record.request) :
    (impl.modifyWork work update).records = impl.records := by
  apply Records.ext <;> try rfl
  refine view_modify work fun record => ?_
  rw [hrequest]

@[simp] theorem records_refreshWorkAccounting (impl : Impl) (work : WorkId) :
    (refreshWorkAccounting impl work).records = impl.records := by
  unfold refreshWorkAccounting
  split
  · rfl
  · next record hrecord => exact records_setWork_same hrecord rfl

theorem records_setAssignment (impl : Impl) (id : AssignmentId) (record : AssignmentRecord) :
    (impl.setAssignment id record).records = impl.records.setAssignment id record := by
  apply Records.ext <;> try rfl
  exact read_insert_update id record

theorem records_dropLease (impl : Impl) (lease : LeaseId) :
    (dropLease impl lease).records = impl.records.modifyLease lease fun stored => { stored with current := false } := by
  apply Records.ext <;> try rfl
  exact read_modify_update lease _

theorem records_renewLease (impl : Impl) (lease : LeaseId) (expiresAtMs : UInt64) :
    (renewLease impl lease expiresAtMs).records =
      impl.records.modifyLease lease fun stored => { stored with expiresAtMs := expiresAtMs, current := true } := by
  apply Records.ext <;> try rfl
  exact read_modify_update lease _

@[simp] theorem records_modifyQueue (impl : Impl) (queue : QueueId) (update : QueueRecord → QueueRecord) :
    (modifyQueue impl queue update).records = impl.records := rfl

/-- Closing an open record ends it in the records. -/
theorem records_closeAssignment {id : AssignmentId} {record : AssignmentRecord} {state : AssignmentState}
    {reason : InvalidationReason} {detail : Text} (hrecord : impl.assignments[id]? = some record)
    (hopen : record.state.isTerminal = false) :
    (closeAssignment now impl id state reason detail).records =
      impl.records.close id (record.close now state reason detail) := by
  rw [closeAssignment_eq hrecord hopen]
  change (refreshWorkAccounting (refreshAgentAccounting (unslotted impl id record (record.close now state reason detail))
    record.binding.agent) record.binding.work).records = _
  rw [records_refreshWorkAccounting, records_refreshAgentAccounting, unslotted, records_modifyAgent,
    records_deindexAssignment, records_dropLease, records_setAssignment]
  · rfl
  · intro agent
    unfold decayRecent
    split <;> rfl

theorem records_releaseTenant (impl : Impl) (work : WorkId) :
    (releaseTenant impl work).records = impl.records.release work := by
  unfold releaseTenant Records.release
  cases hwork : impl.work[work]? with
  | none => simp [Impl.records, hwork]
  | some record =>
    have htenant : impl.records.tenantOf work = some record.request.requirements.tenant := by
      simp [Impl.records, hwork]
    simp only [htenant]
    apply Records.ext <;> try rfl
    exact view_modify_update _ fun _ => rfl

theorem records_countOutcome (impl : Impl) (agent : AgentId) (state : AssignmentState) {count : AgentRecord → AgentRecord}
    (hcount : ∀ record, (count record).brief = record.brief.count state) :
    (countOutcome impl agent count).records = impl.records.countOutcome agent state := by
  unfold countOutcome
  rw [records_refreshAgentAccounting]
  apply Records.ext <;> try rfl
  exact view_modify_update agent hcount

@[simp] theorem records_settleIfIdle (impl : Impl) (work : WorkId) (lifecycle : WorkLifecycle) (reason : Text) :
    (settleIfIdle impl work lifecycle reason).records = impl.records := by
  unfold settleIfIdle
  split
  · rfl
  · next record hrecord =>
    split
    · exact records_setWork_same hrecord rfl
    · rfl

/-- Storing a binding commits it to the records. -/
theorem records_commitApply {binding : AssignmentBinding} {work : WorkRecord}
    (hwork : impl.work[binding.work]? = some work) :
    (commitApply impl binding.work work binding).records =
      impl.records.commit binding work.request.requirements.tenant := by
  rw [commitApply_eq hwork]
  let refreshed := refreshAgentAccounting (refreshWorkAccounting (slotted impl work binding) binding.work) binding.agent
  have hrefreshed : refreshed.records =
      { impl.records with
        assignments := Function.update impl.records.assignments binding.id
          (some ((impl.records.assignments binding.id).getD binding.record))
        leases := Function.update impl.records.leases binding.lease
          (some ((impl.records.leases binding.lease).getD binding.leaseRecord)) } := by
    have hindexed : ∀ impl : Impl, ∀ id, (indexStoredAssignment impl id).records = impl.records := by
      intro impl id
      unfold indexStoredAssignment
      split
      · rfl
      · exact records_indexAssignment _ _
    simp only [refreshed, records_refreshAgentAccounting, records_refreshWorkAccounting, slotted, hindexed]
    have hemplaced : (emplaced impl binding).work[binding.work]? = some work := hwork
    rw [records_setWork_same hemplaced]
    · apply Records.ext <;> try rfl
      · exact read_insertIfNew_update binding.id binding.record
      · exact read_insertIfNew_update binding.lease binding.leaseRecord
    · rfl
  have hheld : refreshed.records.held = impl.records.held := by rw [hrefreshed]
  unfold Records.commit
  rw [← hrefreshed]
  apply Records.ext <;> try rfl
  exact view_modify_update _ fun _ => rfl

end Primitives

end AgentScheduler
