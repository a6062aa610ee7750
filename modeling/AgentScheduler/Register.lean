import AgentScheduler.Agreement

/-! The register of an instance: its limits, its policy, and the generations and keys of its tables. Most operations
leave it alone. -/
namespace AgentScheduler
open Std KeyedTable Relation

/-- What an agent has registered and published so far. -/
structure Credentials where
  generation : AgentGeneration
  boot : AgentBootId
  capability : AgentCapabilityGeneration
  health : AgentHealthGeneration
  availability : AgentAvailabilityGeneration
  load : AgentLoadGeneration

def AgentRecord.credentials (record : AgentRecord) : Credentials where
  generation := record.descriptor.generation
  boot := record.descriptor.boot
  capability := record.profile.generation
  health := record.healthGeneration
  availability := record.availabilityGeneration
  load := record.loadGeneration

/-- What work was admitted under: its generation and its place in the order of admission. -/
def WorkRecord.admission (record : WorkRecord) : WorkGeneration × Nat :=
  (record.request.generation, record.admittedSequence)

@[ext] structure Register where
  limits : ResourceLimits
  policy : PolicySnapshot
  coordinatorEpoch : CoordinatorEpoch
  nextAdmissionSequence : Nat
  agents : AgentId → Option Credentials
  work : WorkId → Option (WorkGeneration × Nat)
  queues : QueueId → Option QueueGeneration
  tenants : TenantId → Bool
  leases : LeaseId → Bool

def Impl.register (impl : Impl) : Register where
  limits := impl.limits
  policy := impl.policy
  coordinatorEpoch := impl.coordinatorEpoch
  nextAdmissionSequence := impl.nextAdmissionSequence
  agents agent := (impl.agents[agent]?).map AgentRecord.credentials
  work work := (impl.work[work]?).map WorkRecord.admission
  queues queue := (impl.queues[queue]?).map QueueRecord.generation
  tenants tenant := (impl.tenants[tenant]?).isSome
  leases lease := (impl.leases[lease]?).isSome

/-! ### What a table shows of its values -/

section Views
variable {Key Value View : Type} [Ord Key] [TransOrd Key] [LawfulEqOrd Key] [DecidableEq Key]
  {table : ExtTreeMap Key Value compare} {view : Value → View}

/-- Storing a value that looks like the one it replaces changes no view. -/
theorem view_insert {key : Key} {old value : Value} (hold : table[key]? = some old) (hview : view value = view old) :
    (fun other : Key => ((table.insert key value)[other]?).map view) = fun other => (table[other]?).map view := by
  funext other
  rw [getElem?_insert]
  split
  · next heq =>
    subst heq
    rw [hold, Option.map_some, Option.map_some, hview]
  · rfl

/-- So does an update that no view shows. -/
theorem view_modify {update : Value → Value} (key : Key) (hview : ∀ value, view (update value) = view value) :
    (fun other : Key => ((table.modify key update)[other]?).map view) = fun other => (table[other]?).map view := by
  funext other
  rw [getElem?_modify]
  split
  · rw [Option.map_map]
    congr 1
    funext value
    exact hview value
  · rfl

theorem isSome_modify (key : Key) (update : Value → Value) :
    (fun other : Key => ((table.modify key update)[other]?).isSome) = fun other => (table[other]?).isSome := by
  funext other
  rw [getElem?_modify]
  split
  · exact Option.isSome_map
  · rfl

end Views

section Primitives
variable {impl : Impl}

@[simp] theorem register_revise (impl : Impl) : impl.revise.register = impl.register := rfl

@[simp] theorem register_indexAgent (impl : Impl) (record : AgentRecord) :
    (indexAgent impl record).register = impl.register := rfl

@[simp] theorem register_deindexAgent (impl : Impl) (agent : AgentId) :
    (deindexAgent impl agent).register = impl.register := rfl

@[simp] theorem register_indexStoredAgent (impl : Impl) (agent : AgentId) :
    (indexStoredAgent impl agent).register = impl.register := by
  unfold indexStoredAgent
  split <;> rfl

@[simp] theorem register_syncWorkLifecycleIndex (impl : Impl) (work : WorkId) (lifecycle : WorkLifecycle) :
    (syncWorkLifecycleIndex impl work lifecycle).register = impl.register := rfl

@[simp] theorem register_setAssignment (impl : Impl) (id : AssignmentId) (record : AssignmentRecord) :
    (impl.setAssignment id record).register = impl.register := rfl

@[simp] theorem register_indexAssignment (impl : Impl) (record : AssignmentRecord) :
    (indexAssignment impl record).register = impl.register := by
  unfold indexAssignment
  split <;> rfl

@[simp] theorem register_fenceBoot (now : UInt64) (impl : Impl) (agent : AgentId) (boot : AgentBootId)
    (generation : AgentGeneration) (reason : Text) :
    (fenceBoot now impl agent boot generation reason).register = impl.register := by
  unfold fenceBoot
  split <;> rfl

theorem register_setAgent {agent : AgentId} {old record : AgentRecord} (hold : impl.agents[agent]? = some old)
    (hcredentials : record.credentials = old.credentials) : (impl.setAgent agent record).register = impl.register := by
  apply Register.ext <;> try rfl
  exact view_insert hold hcredentials

theorem register_modifyAgent (impl : Impl) (agent : AgentId) {update : AgentRecord → AgentRecord}
    (hcredentials : ∀ record, (update record).credentials = record.credentials) :
    (impl.modifyAgent agent update).register = impl.register := by
  apply Register.ext <;> try rfl
  exact view_modify agent hcredentials

theorem credentials_recomputeLifecycle (record : AgentRecord) :
    (recomputeLifecycle record).credentials = record.credentials := by
  unfold recomputeLifecycle
  repeat' split
  all_goals rfl

@[simp] theorem register_refreshAgentAccounting (impl : Impl) (agent : AgentId) :
    (refreshAgentAccounting impl agent).register = impl.register := by
  unfold refreshAgentAccounting
  split
  · rfl
  · next record hrecord => exact register_setAgent hrecord (credentials_recomputeLifecycle _)

@[simp] theorem register_refreshAgent (impl : Impl) (agent : AgentId) :
    (refreshAgent impl agent).register = impl.register := by
  simp [refreshAgent]

theorem register_setWork {work : WorkId} {old record : WorkRecord} (hold : impl.work[work]? = some old)
    (hadmission : record.admission = old.admission) : (impl.setWork work record).register = impl.register := by
  apply Register.ext <;> try rfl
  exact view_insert hold hadmission

theorem register_modifyWork (impl : Impl) (work : WorkId) {update : WorkRecord → WorkRecord}
    (hadmission : ∀ record, (update record).admission = record.admission) :
    (impl.modifyWork work update).register = impl.register := by
  apply Register.ext <;> try rfl
  exact view_modify work hadmission

@[simp] theorem register_refreshWorkAccounting (impl : Impl) (work : WorkId) :
    (refreshWorkAccounting impl work).register = impl.register := by
  unfold refreshWorkAccounting
  split
  · rfl
  · next record hrecord => exact register_setWork hrecord rfl

@[simp] theorem register_dropLease (impl : Impl) (lease : LeaseId) : (dropLease impl lease).register = impl.register := by
  apply Register.ext <;> try rfl
  exact isSome_modify lease _

@[simp] theorem register_renewLease (impl : Impl) (lease : LeaseId) (expiresAtMs : UInt64) :
    (renewLease impl lease expiresAtMs).register = impl.register := by
  apply Register.ext <;> try rfl
  exact isSome_modify lease _

theorem register_modifyQueue (impl : Impl) (queue : QueueId) {update : QueueRecord → QueueRecord}
    (hgeneration : ∀ record, (update record).generation = record.generation) :
    (modifyQueue impl queue update).register = impl.register := by
  apply Register.ext <;> try rfl
  exact view_modify queue hgeneration

@[simp] theorem register_releaseTenant (impl : Impl) (work : WorkId) :
    (releaseTenant impl work).register = impl.register := by
  unfold releaseTenant
  split
  · rfl
  · apply Register.ext <;> try rfl
    exact isSome_modify _ _

@[simp] theorem register_closeAssignment (now : UInt64) (impl : Impl) (id : AssignmentId) (state : AssignmentState)
    (reason : InvalidationReason) (detail : Text) :
    (closeAssignment now impl id state reason detail).register = impl.register := by
  unfold closeAssignment
  split
  · rfl
  · next record _ =>
    split
    · rfl
    · let closed := record.close now state reason detail
      let freed := deindexAssignment (dropLease (impl.setAssignment id closed) record.binding.lease) closed
      have hfreed : freed.register = impl.register :=
        Eq.trans (b := (dropLease (impl.setAssignment id closed) record.binding.lease).register) rfl (by simp)
      refine Eq.trans (b := (refreshWorkAccounting _ _).register) rfl ?_
      rw [register_refreshWorkAccounting]
      split
      · exact hfreed
      · next agent hagent =>
        rw [register_refreshAgentAccounting]
        have hstored : freed.agents[record.binding.agent]? = some agent := hagent
        refine (register_setAgent hstored ?_).trans hfreed
        unfold decayRecent
        split <;> rfl

@[simp] theorem register_closeWhere (now : UInt64) (impl : Impl) (selected : AssignmentRecord → Bool)
    (state : AssignmentState) (reason : InvalidationReason) (detail : Text) :
    (closeWhere now impl selected state reason detail).register = impl.register := by
  refine foldl_project (f := Impl.register) (fun impl id => ?_) _ _
  split
  · rfl
  · split
    · exact register_closeAssignment _ _ _ _ _ _
    · rfl

end Primitives

/-! ### Operations that leave the register alone -/

section Operations
variable {ctx : Context} {impl : Impl} {now : UInt64}

theorem register_guarded {Found : Type} {check : Except SchedulerError Found} {body : Found → Step}
    (h : ∀ found, (body found).2.register = impl.register) : (guarded impl check body).2.register = impl.register := by
  unfold guarded
  split
  · rfl
  · exact h _

theorem register_observing {operation : Text} {id : AssignmentId} {generation : AssignmentGeneration} {boot : AgentBootId}
    {body : AssignmentRecord → Step} (h : ∀ record, (body record).2.register = impl.register) :
    (observing impl operation id generation boot body).2.register = impl.register := by
  unfold observing
  split
  · rfl
  · exact h _

theorem register_shutdown (now : UInt64) (impl : Impl) : (shutdown now impl).2.register = impl.register := by
  unfold shutdown
  split
  · rfl
  · simp only [register_revise]
    split
    · exact register_closeWhere _ _ _ _ _ _
    · rfl

theorem register_heartbeat (now : UInt64) (impl : Impl) (agent : AgentId) (boot : AgentBootId)
    (registrationGeneration : AgentRegistrationGeneration) :
    (heartbeat now impl agent boot registrationGeneration).2.register = impl.register :=
  register_guarded fun _ => register_modifyAgent impl agent fun _ => rfl

theorem register_drainAgent (now : UInt64) (impl : Impl) (agent : AgentId) (boot : AgentBootId) (force : Bool) :
    (drainAgent now impl agent boot force).2.register = impl.register := by
  apply register_guarded
  intro _
  have hdrained : (impl.modifyAgent agent fun record => { record with lifecycle := .draining, reason := "draining" }).register =
      impl.register := register_modifyAgent impl agent fun _ => rfl
  simp only [register_revise, register_refreshAgent]
  split
  · exact (register_closeWhere _ _ _ _ _ _).trans hdrained
  · exact hdrained

private theorem credentials_retired (record : AgentRecord) (lifecycle : AgentLifecycle) (reason : Text) :
    ({ invalidateDynamicEvidence record with lifecycle := lifecycle, reason := reason } : AgentRecord).credentials =
      record.credentials := rfl

theorem register_deregisterAgent (now : UInt64) (impl : Impl) (agent : AgentId) (boot : AgentBootId) (force : Bool) :
    (deregisterAgent now impl agent boot force).2.register = impl.register := by
  apply register_guarded
  intro record
  simp only [register_revise, register_refreshAgent]
  rw [register_modifyAgent _ _ fun record => credentials_retired record .retired "deregistered", register_fenceBoot]
  split
  · exact register_closeWhere _ _ _ _ _ _
  · rfl

theorem register_declareAgentLostCommit (now : UInt64) (impl : Impl) (agent : AgentId) (boot : AgentBootId)
    (reason : Text) : (declareAgentLostCommit now impl agent boot reason).2.register = impl.register := by
  unfold declareAgentLostCommit
  split
  · exact register_fenceBoot _ _ _ _ _ _
  · split
    · exact register_fenceBoot _ _ _ _ _ _
    · simp only [register_revise, register_refreshAgent]
      rw [register_modifyAgent _ _ fun record => credentials_retired record .lost reason]
      exact (register_closeWhere _ _ _ _ _ _).trans (register_fenceBoot _ _ _ _ _ _)

theorem register_settleWork (now : UInt64) (impl : Impl) (work : WorkId) (state : AssignmentState)
    (reason : InvalidationReason) (detail : Text) (lifecycle : WorkLifecycle) (workReason : Text) :
    (settleWork now impl work state reason detail lifecycle workReason).register = impl.register := by
  unfold settleWork
  rw [register_syncWorkLifecycleIndex]
  apply (register_modifyWork _ _ ?_).trans
  · exact register_closeWhere _ _ _ _ _ _
  · intro _
    rfl

theorem register_cancelWorkCommit (now : UInt64) (impl : Impl) (work : WorkId) (generation : WorkGeneration) (reason : Text) :
    (cancelWorkCommit now impl work generation reason).2.register = impl.register := by
  apply register_guarded
  intro record
  split
  · rfl
  · split
    · rfl
    · exact register_settleWork _ _ _ _ _ _ _ _

theorem register_expireDeadlines (now : UInt64) (impl : Impl) : (expireDeadlines now impl).2.register = impl.register := by
  have hturns : (impl.work.keys.foldl (expireDeadline now) (impl, false)).1.register = impl.register := by
    refine foldl_project (f := fun acc : Impl × Bool => acc.1.register) (fun acc work => ?_) _ _
    unfold expireDeadline
    split
    · rfl
    · split
      · exact register_settleWork _ _ _ _ _ _ _ _
      · rfl
  unfold expireDeadlines
  simp only
  split <;> exact hturns

theorem register_dispatchCommit (ctx : Context) (impl : Impl) (id : AssignmentId) (generation : AssignmentGeneration) :
    (dispatchCommit ctx impl id generation).2.register = impl.register := by
  unfold dispatchCommit
  split
  · rfl
  · simp only [register_revise, register_renewLease, register_setAssignment]

theorem register_expireObserved (now : UInt64) (impl : Impl) (operation : Text) (id : AssignmentId) (closed reported : Text) :
    (expireObserved now impl operation id closed reported).2.register = impl.register :=
  register_closeAssignment _ _ _ _ _ _

theorem register_acknowledge (now : UInt64) (impl : Impl) (id : AssignmentId) (generation : AssignmentGeneration)
    (dispatchId : DispatchId) (dispatchGeneration : DispatchGeneration) (boot : AgentBootId) :
    (acknowledge now impl id generation dispatchId dispatchGeneration boot).2.register = impl.register := by
  apply register_observing
  intro record
  repeat' split
  all_goals first
    | rfl
    | exact register_expireObserved _ _ _ _ _ _

theorem register_markExecuting (now : UInt64) (impl : Impl) (id : AssignmentId) (generation : AssignmentGeneration)
    (boot : AgentBootId) : (markExecuting now impl id generation boot).2.register = impl.register := by
  apply register_observing
  intro record
  repeat' split
  all_goals first
    | rfl
    | exact register_expireObserved _ _ _ _ _ _
    | exact register_refreshWorkAccounting _ _

theorem register_release (now : UInt64) (impl : Impl) (id : AssignmentId) (generation : AssignmentGeneration)
    (boot : AgentBootId) (reason : Text) : (release now impl id generation boot reason).2.register = impl.register := by
  apply register_observing
  intro record
  split
  · rfl
  · exact (register_refreshAgentAccounting _ _).trans (register_closeAssignment _ _ _ _ _ _)

theorem register_countOutcome (impl : Impl) (agent : AgentId) {count : AgentRecord → AgentRecord}
    (hcredentials : ∀ record, (count record).credentials = record.credentials) :
    (countOutcome impl agent count).register = impl.register :=
  (register_refreshAgentAccounting _ _).trans (register_modifyAgent impl agent hcredentials)

theorem register_settleIfIdle (impl : Impl) (work : WorkId) (lifecycle : WorkLifecycle) (reason : Text) :
    (settleIfIdle impl work lifecycle reason).register = impl.register := by
  unfold settleIfIdle
  split
  · rfl
  · next record hrecord =>
    split
    · exact register_setWork hrecord rfl
    · rfl

theorem register_completeAssignment (now : UInt64) (impl : Impl) (id : AssignmentId) (generation : AssignmentGeneration)
    (boot : AgentBootId) : (completeAssignment now impl id generation boot).2.register = impl.register := by
  apply register_observing
  intro record
  split
  · rfl
  · simp only [register_revise, register_releaseTenant]
    apply (register_modifyQueue _ _ ?_).trans
    · rw [register_settleIfIdle]
      apply (register_countOutcome _ _ ?_).trans
      · exact register_closeAssignment _ _ _ _ _ _
      · intro _
        rfl
    · intro _
      rfl

theorem register_failAssignment (now : UInt64) (impl : Impl) (id : AssignmentId) (generation : AssignmentGeneration)
    (boot : AgentBootId) (reason : Text) : (failAssignment now impl id generation boot reason).2.register = impl.register := by
  apply register_observing
  intro record
  split
  · rfl
  · simp only [register_revise, register_releaseTenant]
    apply (register_modifyQueue _ _ ?_).trans
    · rw [register_settleIfIdle]
      apply (register_countOutcome _ _ ?_).trans
      · exact register_closeAssignment _ _ _ _ _ _
      · intro _
        rfl
    · intro _
      rfl

theorem register_rejectAssignment (now : UInt64) (impl : Impl) (id : AssignmentId) (generation : AssignmentGeneration)
    (boot : AgentBootId) (reason : Text) : (rejectAssignment now impl id generation boot reason).2.register = impl.register := by
  apply register_observing
  intro record
  split
  · rfl
  · simp only [register_revise, register_releaseTenant]
    apply (register_modifyQueue _ _ ?_).trans
    · exact register_closeAssignment _ _ _ _ _ _
    · intro _
      rfl

theorem register_promoteAssignment (now : UInt64) (impl : Impl) (id : AssignmentId) (record : AssignmentRecord) :
    (promoteAssignment now impl id record).register = impl.register := by
  simp [promoteAssignment]

private theorem register_revalidateOne (ctx : Context) (acc : RevalidationReport × Impl) (id : AssignmentId) :
    (revalidateOne ctx acc id).2.register = acc.2.register := by
  unfold revalidateOne
  simp only
  repeat' split
  all_goals first
    | rfl
    | exact register_closeAssignment _ _ _ _ _ _
    | exact register_promoteAssignment _ _ _ _

private theorem register_revalidateAgentOne (ctx : Context) (agent : AgentId) (boot : AgentBootId)
    (acc : RevalidationReport × Impl) (id : AssignmentId) :
    (revalidateAgentOne ctx agent boot acc id).2.register = acc.2.register := by
  unfold revalidateAgentOne
  simp only
  repeat' split
  all_goals first
    | rfl
    | exact register_closeAssignment _ _ _ _ _ _
    | exact register_promoteAssignment _ _ _ _

private theorem register_reviseIfExamined (result : RevalidationReport × Impl) :
    (reviseIfExamined result).2.register = result.2.register := by
  unfold reviseIfExamined
  simp only
  split <;> rfl

theorem register_revalidateAssignments (ctx : Context) (impl : Impl) :
    (revalidateAssignments ctx impl).2.register = impl.register :=
  (register_reviseIfExamined _).trans
    (foldl_project (f := fun acc : RevalidationReport × Impl => acc.2.register) (register_revalidateOne ctx) _ _)

theorem register_revalidateAgentAssignments (ctx : Context) (impl : Impl) (agent : AgentId) (boot : AgentBootId) :
    (revalidateAgentAssignments ctx impl agent boot).2.register = impl.register := by
  unfold revalidateAgentAssignments
  split
  · rfl
  · split
    · rfl
    · exact (register_reviseIfExamined _).trans (foldl_project (f := fun acc : RevalidationReport × Impl => acc.2.register)
        (register_revalidateAgentOne ctx agent boot) _ _)

end Operations

end AgentScheduler
