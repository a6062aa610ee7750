import AgentScheduler.BatchReport
import AgentScheduler.Records

/-! How often stored work is passed over: no operation but a batch counts it. -/
namespace AgentScheduler
open Std KeyedTable Relation

/-- The fairness class of a stored work item, and how often batches passed it over since it last ran. -/
def Impl.bypassed (impl : Impl) (work : WorkId) : Option (Text × UInt32) :=
  (impl.work[work]?).map fun record => (record.request.fairnessClass, record.bypassCount)

/-- No work item is passed over: what is stored keeps its count, or starts again. -/
def Impl.Calms (impl impl' : Impl) : Prop :=
  ∀ work, impl'.bypassed work = impl.bypassed work ∨ ∃ fairnessClass, impl'.bypassed work = some (fairnessClass, 0)

/-! ### What leaves the counts alone -/

section Primitives
variable {impl impl' : Impl} {now : UInt64}

theorem Impl.Calms.of_eq (h : impl'.bypassed = impl.bypassed) : impl.Calms impl' := fun work => .inl (congrFun h work)

theorem Impl.Calms.trans {impl'' : Impl} (h : impl.Calms impl') (h' : impl'.Calms impl'') : impl.Calms impl'' := by
  intro work
  rcases h' work with heq | hfresh
  · rcases h work with hold | hfresh
    · exact .inl (heq.trans hold)
    · exact .inr (heq ▸ hfresh)
  · exact .inr hfresh

theorem bypassed_of_work (h : impl'.work = impl.work) : impl'.bypassed = impl.bypassed := by
  unfold Impl.bypassed
  rw [h]

theorem bypassed_setWork (impl : Impl) (work : WorkId) (record : WorkRecord) :
    (impl.setWork work record).bypassed =
      Function.update impl.bypassed work (some (record.request.fairnessClass, record.bypassCount)) :=
  view_insert_update work record

theorem bypassed_setWork_same {work : WorkId} {old record : WorkRecord} (hold : impl.work[work]? = some old)
    (hrequest : record.request = old.request) (hcount : record.bypassCount = old.bypassCount) :
    (impl.setWork work record).bypassed = impl.bypassed := by
  rw [bypassed_setWork, hrequest, hcount]
  refine Function.update_eq_self_iff.mpr ?_
  rw [Impl.bypassed, hold]
  rfl

theorem bypassed_modifyWork (impl : Impl) (work : WorkId) {update : WorkRecord → WorkRecord} (count : UInt32 → UInt32)
    (hrequest : ∀ record, (update record).request = record.request)
    (hcount : ∀ record, (update record).bypassCount = count record.bypassCount) :
    (impl.modifyWork work update).bypassed =
      Function.update impl.bypassed work ((impl.bypassed work).map (Prod.map id count)) := by
  refine view_modify_update work fun record => ?_
  rw [hrequest, hcount]
  rfl

theorem bypassed_modifyWork_same (impl : Impl) (work : WorkId) {update : WorkRecord → WorkRecord}
    (hrequest : ∀ record, (update record).request = record.request)
    (hcount : ∀ record, (update record).bypassCount = record.bypassCount) :
    (impl.modifyWork work update).bypassed = impl.bypassed := by
  rw [bypassed_modifyWork impl work id hrequest hcount, Prod.map_id, Option.map_id]
  exact Function.update_eq_self _ _

@[simp] theorem bypassed_revise (impl : Impl) : impl.revise.bypassed = impl.bypassed := rfl

@[simp] theorem bypassed_setAgent (impl : Impl) (agent : AgentId) (record : AgentRecord) :
    (impl.setAgent agent record).bypassed = impl.bypassed := rfl

@[simp] theorem bypassed_modifyAgent (impl : Impl) (agent : AgentId) (update : AgentRecord → AgentRecord) :
    (impl.modifyAgent agent update).bypassed = impl.bypassed := rfl

@[simp] theorem bypassed_setAssignment (impl : Impl) (id : AssignmentId) (record : AssignmentRecord) :
    (impl.setAssignment id record).bypassed = impl.bypassed := rfl

@[simp] theorem bypassed_dropLease (impl : Impl) (lease : LeaseId) : (dropLease impl lease).bypassed = impl.bypassed := rfl

@[simp] theorem bypassed_renewLease (impl : Impl) (lease : LeaseId) (expiresAtMs : UInt64) :
    (renewLease impl lease expiresAtMs).bypassed = impl.bypassed := rfl

@[simp] theorem bypassed_deindexAgent (impl : Impl) (agent : AgentId) :
    (deindexAgent impl agent).bypassed = impl.bypassed := rfl

@[simp] theorem bypassed_indexAgent (impl : Impl) (record : AgentRecord) :
    (indexAgent impl record).bypassed = impl.bypassed := rfl

@[simp] theorem bypassed_indexStoredAgent (impl : Impl) (agent : AgentId) :
    (indexStoredAgent impl agent).bypassed = impl.bypassed := by
  unfold indexStoredAgent
  split <;> rfl

@[simp] theorem bypassed_indexWork (impl : Impl) (record : WorkRecord) :
    (indexWork impl record).bypassed = impl.bypassed := rfl

@[simp] theorem bypassed_deindexWork (impl : Impl) (work : WorkId) :
    (deindexWork impl work).bypassed = impl.bypassed := rfl

@[simp] theorem bypassed_syncWorkLifecycleIndex (impl : Impl) (work : WorkId) (lifecycle : WorkLifecycle) :
    (syncWorkLifecycleIndex impl work lifecycle).bypassed = impl.bypassed := rfl

@[simp] theorem bypassed_deindexAssignment (impl : Impl) (record : AssignmentRecord) :
    (deindexAssignment impl record).bypassed = impl.bypassed := rfl

@[simp] theorem bypassed_indexAssignment (impl : Impl) (record : AssignmentRecord) :
    (indexAssignment impl record).bypassed = impl.bypassed := by
  unfold indexAssignment
  split <;> rfl

@[simp] theorem bypassed_indexStoredAssignment (impl : Impl) (id : AssignmentId) :
    (indexStoredAssignment impl id).bypassed = impl.bypassed := by
  unfold indexStoredAssignment
  split
  · rfl
  · exact bypassed_indexAssignment _ _

@[simp] theorem bypassed_fenceBoot (impl : Impl) (agent : AgentId) (boot : AgentBootId) (generation : AgentGeneration)
    (reason : Text) : (fenceBoot now impl agent boot generation reason).bypassed = impl.bypassed := by
  unfold fenceBoot
  split <;> rfl

@[simp] theorem bypassed_refreshAgentAccounting (impl : Impl) (agent : AgentId) :
    (refreshAgentAccounting impl agent).bypassed = impl.bypassed := by
  unfold refreshAgentAccounting
  split <;> rfl

@[simp] theorem bypassed_refreshAgent (impl : Impl) (agent : AgentId) :
    (refreshAgent impl agent).bypassed = impl.bypassed := by
  simp [refreshAgent]

@[simp] theorem bypassed_refreshWorkAccounting (impl : Impl) (work : WorkId) :
    (refreshWorkAccounting impl work).bypassed = impl.bypassed := by
  unfold refreshWorkAccounting
  split
  · rfl
  · next record hrecord => exact bypassed_setWork_same hrecord rfl rfl

@[simp] theorem bypassed_modifyQueue (impl : Impl) (queue : QueueId) (update : QueueRecord → QueueRecord) :
    (modifyQueue impl queue update).bypassed = impl.bypassed := rfl

@[simp] theorem bypassed_releaseTenant (impl : Impl) (work : WorkId) :
    (releaseTenant impl work).bypassed = impl.bypassed := by
  unfold releaseTenant
  split <;> rfl

@[simp] theorem bypassed_countOutcome (impl : Impl) (agent : AgentId) (count : AgentRecord → AgentRecord) :
    (countOutcome impl agent count).bypassed = impl.bypassed := by
  simp [countOutcome]

@[simp] theorem bypassed_settleIfIdle (impl : Impl) (work : WorkId) (lifecycle : WorkLifecycle) (reason : Text) :
    (settleIfIdle impl work lifecycle reason).bypassed = impl.bypassed := by
  unfold settleIfIdle
  split
  · rfl
  · next record hrecord =>
    split
    · exact bypassed_setWork_same hrecord rfl rfl
    · rfl

@[simp] theorem bypassed_closeAssignment (impl : Impl) (id : AssignmentId) (state : AssignmentState)
    (reason : InvalidationReason) (detail : Text) :
    (closeAssignment now impl id state reason detail).bypassed = impl.bypassed := by
  unfold closeAssignment
  split
  · rfl
  · split
    · rfl
    · simp only [bypassed_revise]
      change (refreshWorkAccounting _ _).bypassed = _
      rw [bypassed_refreshWorkAccounting]
      split
      · rfl
      · exact bypassed_refreshAgentAccounting _ _

@[simp] theorem bypassed_closeWhere (impl : Impl) (selected : AssignmentRecord → Bool) (state : AssignmentState)
    (reason : InvalidationReason) (detail : Text) :
    (closeWhere now impl selected state reason detail).bypassed = impl.bypassed := by
  unfold closeWhere
  refine foldl_project (f := Impl.bypassed) (fun impl id => ?_) _ _
  split
  · rfl
  · split
    · exact bypassed_closeAssignment _ _ _ _ _
    · rfl

@[simp] theorem bypassed_closeAllActive (impl : Impl) (boot : AgentBootId) (state : AssignmentState)
    (reason : InvalidationReason) (detail : Text) :
    (closeAllActive now impl boot state reason detail).bypassed = impl.bypassed := bypassed_closeWhere _ _ _ _ _

@[simp] theorem bypassed_closeWork (impl : Impl) (work : WorkId) (state : AssignmentState) (reason : InvalidationReason)
    (detail : Text) : (closeWork now impl work state reason detail).bypassed = impl.bypassed :=
  bypassed_closeWhere _ _ _ _ _

@[simp] theorem bypassed_commitApply (impl : Impl) (work : WorkId) (record : WorkRecord) (binding : AssignmentBinding) :
    (commitApply impl work record binding).bypassed = impl.bypassed := by
  unfold commitApply
  simp only [bypassed_revise]
  change (refreshAgentAccounting _ _).bypassed = _
  rw [bypassed_refreshAgentAccounting, bypassed_refreshWorkAccounting, bypassed_indexStoredAssignment,
    bypassed_modifyWork_same]
  · rfl
  · exact fun _ => rfl
  · exact fun _ => rfl

theorem bypassed_commitLocked {ctx : Context} {work : WorkId} {generation : WorkGeneration} {binding : AssignmentBinding}
    (h : commitLocked ctx impl work generation binding = .ok impl') : impl'.bypassed = impl.bypassed := by
  unfold commitLocked at h
  split at h
  · cases h
  · obtain rfl := Except.ok.inj h
    exact bypassed_commitApply _ _ _ _

end Primitives

/-! ### What the operations leave alone -/

section Operations
variable {ctx : Context} {impl impl' : Impl} {now : UInt64}

theorem guarded_bypassed {Found : Type} {check : Except SchedulerError Found} {body : Found → Step}
    (h : ∀ found, check = .ok found → (body found).2.bypassed = impl.bypassed) :
    (guarded impl check body).2.bypassed = impl.bypassed := by
  unfold guarded
  cases hfound : check with
  | error error => rfl
  | ok found => exact h found hfound

theorem observing_bypassed {operation : Text} {id : AssignmentId} {generation : AssignmentGeneration} {boot : AgentBootId}
    {body : AssignmentRecord → Step} (h : ∀ record, (body record).2.bypassed = impl.bypassed) :
    (observing impl operation id generation boot body).2.bypassed = impl.bypassed := by
  unfold observing
  split
  · rfl
  · next record _ => exact h record

theorem start_bypassed (impl : Impl) : (start impl).2.bypassed = impl.bypassed := by
  unfold start
  split <;> rfl

theorem shutdown_bypassed (impl : Impl) : (shutdown now impl).2.bypassed = impl.bypassed := by
  unfold shutdown
  split
  · rfl
  · simp only [bypassed_revise]
    split
    · rw [bypassed_closeWhere]
      rfl
    · rfl

theorem setPolicy_bypassed (impl : Impl) (policy : PolicySnapshot) : (setPolicy now impl policy).2.bypassed = impl.bypassed := by
  refine guarded_bypassed fun install _ => ?_
  split
  · rw [bypassed_closeWhere]
    rfl
  · rfl

theorem registerQueue_bypassed (impl : Impl) (queue : QueueId) (generation : QueueGeneration) (fairnessClass : Text)
    (weight : UInt32) : (registerQueue impl queue generation fairnessClass weight).2.bypassed = impl.bypassed := by
  refine guarded_bypassed fun _ _ => ?_
  repeat' split
  all_goals rfl

theorem publishCapabilities_bypassed (impl : Impl) (agent : AgentId) (boot : AgentBootId) (profile : CapabilityProfile) :
    (publishCapabilities now impl agent boot profile).2.bypassed = impl.bypassed := by
  refine guarded_bypassed fun published _ => ?_
  cases published with
  | none => rfl
  | some canonical =>
    have hdemoted : ∀ impl : Impl, (demoteOutdated impl agent canonical).bypassed = impl.bypassed := by
      intro impl
      refine foldl_project (f := Impl.bypassed) (fun impl id => ?_) _ _
      split
      · rfl
      · split <;> rfl
    simp [hdemoted]

theorem publishHealth_bypassed (impl : Impl) (agent : AgentId) (boot : AgentBootId) (observation : HealthObservation) :
    (publishHealth now impl agent boot observation).2.bypassed = impl.bypassed :=
  guarded_bypassed fun _ _ => by simp

theorem publishAvailability_bypassed (impl : Impl) (agent : AgentId) (boot : AgentBootId)
    (observation : AvailabilityObservation) :
    (publishAvailability now impl agent boot observation).2.bypassed = impl.bypassed :=
  guarded_bypassed fun _ _ => by simp

theorem publishLoad_bypassed (impl : Impl) (agent : AgentId) (boot : AgentBootId) (observation : LoadObservation) :
    (publishLoad now impl agent boot observation).2.bypassed = impl.bypassed :=
  guarded_bypassed fun _ _ => rfl

theorem heartbeat_bypassed (impl : Impl) (agent : AgentId) (boot : AgentBootId)
    (registrationGeneration : AgentRegistrationGeneration) :
    (heartbeat now impl agent boot registrationGeneration).2.bypassed = impl.bypassed :=
  guarded_bypassed fun _ _ => rfl

theorem drainAgent_bypassed (impl : Impl) (agent : AgentId) (boot : AgentBootId) (force : Bool) :
    (drainAgent now impl agent boot force).2.bypassed = impl.bypassed := by
  refine guarded_bypassed fun _ _ => ?_
  simp only [bypassed_revise, bypassed_refreshAgent]
  split <;> simp

theorem deregisterAgent_bypassed (impl : Impl) (agent : AgentId) (boot : AgentBootId) (force : Bool) :
    (deregisterAgent now impl agent boot force).2.bypassed = impl.bypassed := by
  refine guarded_bypassed fun record _ => ?_
  simp only [bypassed_revise, bypassed_refreshAgent, bypassed_modifyAgent, bypassed_fenceBoot]
  split
  · exact bypassed_closeAllActive _ _ _ _ _
  · rfl

theorem registerAgentCommit_bypassed (impl : Impl) (descriptor : AgentDescriptor) :
    (registerAgentCommit now impl descriptor).2.bypassed = impl.bypassed := by
  have hretired : ∀ existing agent, (retireIncarnation now impl existing agent).bypassed = impl.bypassed := by
    intro existing agent
    unfold retireIncarnation
    simp only
    split
    · rfl
    · rw [bypassed_closeAllActive, bypassed_fenceBoot]
  unfold registerAgentCommit
  simp only
  split
  · refine guarded_bypassed fun _ _ => ?_
    split <;> simp [hretired]
  · exact guarded_bypassed fun _ _ => by simp

theorem declareAgentLostCommit_bypassed (impl : Impl) (agent : AgentId) (boot : AgentBootId) (reason : Text) :
    (declareAgentLostCommit now impl agent boot reason).2.bypassed = impl.bypassed := by
  unfold declareAgentLostCommit
  split
  · exact bypassed_fenceBoot _ _ _ _ _
  · split
    · exact bypassed_fenceBoot _ _ _ _ _
    · simp

/-! Work -/

theorem bypassed_settleWork (impl : Impl) (work : WorkId) (state : AssignmentState) (reason : InvalidationReason)
    (detail : Text) (lifecycle : WorkLifecycle) (workReason : Text) :
    (settleWork now impl work state reason detail lifecycle workReason).bypassed = impl.bypassed := by
  unfold settleWork
  simp only [bypassed_syncWorkLifecycleIndex]
  rw [bypassed_modifyWork_same, bypassed_closeWork]
  · exact fun _ => rfl
  · exact fun _ => rfl

theorem cancelWorkCommit_bypassed (impl : Impl) (work : WorkId) (generation : WorkGeneration) (reason : Text) :
    (cancelWorkCommit now impl work generation reason).2.bypassed = impl.bypassed := by
  refine guarded_bypassed fun record _ => ?_
  split
  · rfl
  · split
    · rfl
    · simp only [bypassed_revise]
      exact bypassed_settleWork _ _ _ _ _ _ _

theorem expireDeadlines_bypassed (impl : Impl) : (expireDeadlines now impl).2.bypassed = impl.bypassed := by
  have hturns : ∀ items (acc : Impl × Bool), (List.foldl (expireDeadline now) acc items).1.bypassed = acc.1.bypassed := by
    refine foldl_project (f := fun acc : Impl × Bool => acc.1.bypassed) fun acc work => ?_
    unfold expireDeadline
    split
    · rfl
    · split
      · exact bypassed_settleWork _ _ _ _ _ _ _
      · rfl
  unfold expireDeadlines
  simp only
  split
  · rw [bypassed_revise]
    exact hturns _ _
  · exact hturns _ _

theorem withQueueAndTenant_bypassed (impl : Impl) {request : WorkRequest} {body : Impl → Impl}
    (hbody : ∀ ready : Impl, impl.Calms ready → impl.Calms (body ready)) :
    impl.Calms (withQueueAndTenant impl request body).2 := by
  unfold withQueueAndTenant
  cases hqueue : ensureQueue impl request with
  | error error => exact .of_eq rfl
  | ok queued =>
    have hqueued := congrArg Impl.work (ensureQueue_essence hqueue)
    have hqueued : queued.work = impl.work := hqueued
    cases htenant : ensureTenant queued request.requirements.tenant with
    | error error =>
      simp only [htenant]
      exact .of_eq (bypassed_of_work hqueued)
    | ok ready =>
      have hready := congrArg Impl.work (ensureTenant_essence htenant)
      have hready : ready.work = queued.work := hready
      simp only [htenant]
      exact hbody ready (.of_eq (bypassed_of_work (hready.trans hqueued)))

/-- Freshly admitted work starts with a count of zero. -/
theorem Impl.Calms.accept {request : WorkRequest} {reason : Text} {last : AssignmentGeneration} (h : impl.Calms impl')
    (work : WorkId) (before : Impl) :
    impl.Calms (impl'.setWork work (admittedRecord now before request reason last)) := by
  intro other
  rw [bypassed_setWork, update_ite]
  split
  · exact .inr ⟨_, rfl⟩
  · exact h other

theorem replaceWork_calms (impl : Impl) (request : WorkRequest) (existing : WorkRecord) (reason : Text) :
    impl.Calms (replaceWork now impl request existing reason) := by
  let closed := closeWork now impl request.id .superseded .workSuperseded "work generation was superseded"
  have hclosed : impl.Calms (deindexWork closed request.id).takeSequence :=
    .of_eq (bypassed_closeWork impl request.id .superseded .workSuperseded "work generation was superseded")
  exact hclosed.accept request.id _

theorem submitWorkCommit_calms (impl : Impl) (request : WorkRequest) : impl.Calms (submitWorkCommit now impl request).2 := by
  unfold submitWorkCommit guarded
  simp only
  split
  · exact .of_eq rfl
  · split
    · next existing _ =>
      split
      · exact .of_eq rfl
      · split
        · exact .of_eq rfl
        · refine (replaceWork_calms impl request.canonicalize existing _).trans (withQueueAndTenant_bypassed _ fun ready h => ?_)
          exact h.trans (.of_eq rfl)
    · split
      · exact .of_eq rfl
      · refine (Impl.Calms.of_eq rfl).trans (withQueueAndTenant_bypassed impl.takeSequence fun ready h => ?_)
        exact (h.accept _ _).trans (.of_eq rfl)

theorem supersedeWork_calms (impl : Impl) (work : WorkId) (expectedGeneration : WorkGeneration) (replacement : WorkRequest) :
    impl.Calms (supersedeWork now impl work expectedGeneration replacement).2 := by
  unfold supersedeWork guarded
  split
  · exact .of_eq rfl
  · next record _ =>
    exact (replaceWork_calms impl replacement.canonicalize record _).trans
      (withQueueAndTenant_bypassed _ fun ready h => h.trans (.of_eq rfl))

/-! Assignments -/

theorem scheduleCommit_bypassed (impl : Impl) (work : WorkId) (generation : WorkGeneration) (decision : ScheduleDecision)
    (binding : AssignmentBinding) : (scheduleCommit ctx impl work generation decision binding).2.bypassed = impl.bypassed := by
  unfold scheduleCommit
  split
  · rfl
  · next committed hcommitted =>
    split <;> exact bypassed_commitLocked hcommitted

theorem dispatchCommit_bypassed (impl : Impl) (id : AssignmentId) (generation : AssignmentGeneration) :
    (dispatchCommit ctx impl id generation).2.bypassed = impl.bypassed := by
  unfold dispatchCommit
  split <;> rfl

theorem acknowledge_bypassed (impl : Impl) (id : AssignmentId) (generation : AssignmentGeneration) (dispatchId : DispatchId)
    (dispatchGeneration : DispatchGeneration) (boot : AgentBootId) :
    (acknowledge now impl id generation dispatchId dispatchGeneration boot).2.bypassed = impl.bypassed := by
  refine observing_bypassed fun record => ?_
  repeat' split
  all_goals first | rfl | exact bypassed_closeAssignment _ _ _ _ _

theorem markExecuting_bypassed (impl : Impl) (id : AssignmentId) (generation : AssignmentGeneration) (boot : AgentBootId) :
    (markExecuting now impl id generation boot).2.bypassed = impl.bypassed := by
  refine observing_bypassed fun record => ?_
  repeat' split
  all_goals first | rfl | exact bypassed_closeAssignment _ _ _ _ _ | exact bypassed_refreshWorkAccounting _ _

theorem release_bypassed (impl : Impl) (id : AssignmentId) (generation : AssignmentGeneration) (boot : AgentBootId)
    (reason : Text) : (release now impl id generation boot reason).2.bypassed = impl.bypassed := by
  refine observing_bypassed fun record => ?_
  split
  · rfl
  · simp

theorem completeAssignment_bypassed (impl : Impl) (id : AssignmentId) (generation : AssignmentGeneration)
    (boot : AgentBootId) : (completeAssignment now impl id generation boot).2.bypassed = impl.bypassed := by
  refine observing_bypassed fun record => ?_
  split
  · rfl
  · simp

theorem failAssignment_bypassed (impl : Impl) (id : AssignmentId) (generation : AssignmentGeneration)
    (boot : AgentBootId) (reason : Text) :
    (failAssignment now impl id generation boot reason).2.bypassed = impl.bypassed := by
  refine observing_bypassed fun record => ?_
  split
  · rfl
  · simp

theorem rejectAssignment_bypassed (impl : Impl) (id : AssignmentId) (generation : AssignmentGeneration)
    (boot : AgentBootId) (reason : Text) :
    (rejectAssignment now impl id generation boot reason).2.bypassed = impl.bypassed := by
  refine observing_bypassed fun record => ?_
  split
  · rfl
  · simp

theorem bypassed_promoteAssignment (impl : Impl) (id : AssignmentId) (record : AssignmentRecord) :
    (promoteAssignment now impl id record).bypassed = impl.bypassed := by
  simp [promoteAssignment]

theorem bypassed_invalidateAssignment (impl : Impl) (id : AssignmentId) (outcome : ScheduleOutcome) (detail : Text) :
    (invalidateAssignment now impl id outcome detail).bypassed = impl.bypassed := bypassed_closeAssignment _ _ _ _ _

private theorem bypassed_reviseIfExamined (result : RevalidationReport × Impl) :
    (reviseIfExamined result).2.bypassed = result.2.bypassed := by
  unfold reviseIfExamined
  simp only
  split <;> rfl

private theorem revalidateOne_bypassed (acc : RevalidationReport × Impl) (id : AssignmentId) :
    (revalidateOne ctx acc id).2.bypassed = acc.2.bypassed := by
  obtain ⟨report, current⟩ := acc
  unfold revalidateOne
  cases hrecord : current.assignments[id]? with
  | none => simp only [hrecord]
  | some record =>
    simp only [hrecord]
    split
    · rfl
    · cases hauthority : revalidateAuthority ctx current record with
      | error rejection => exact bypassed_invalidateAssignment _ _ _ _
      | ok _ =>
        cases hagent : current.agents[record.binding.agent]? with
        | none => exact bypassed_closeAssignment _ _ _ _ _
        | some agent =>
          simp only
          split
          · exact bypassed_closeAssignment _ _ _ _ _
          · split
            · exact bypassed_closeAssignment _ _ _ _ _
            · exact bypassed_promoteAssignment _ _ _

private theorem revalidateAgentOne_bypassed (agent : AgentId) (boot : AgentBootId) (acc : RevalidationReport × Impl)
    (id : AssignmentId) : (revalidateAgentOne ctx agent boot acc id).2.bypassed = acc.2.bypassed := by
  obtain ⟨report, current⟩ := acc
  unfold revalidateAgentOne
  cases hrecord : current.assignments[id]? with
  | none => simp only [hrecord]
  | some record =>
    simp only [hrecord]
    split
    · rfl
    · cases hauthority : revalidateAuthority ctx current record with
      | error rejection => exact bypassed_invalidateAssignment _ _ _ _
      | ok _ => exact bypassed_promoteAssignment _ _ _

theorem revalidateAssignments_bypassed (impl : Impl) : (revalidateAssignments ctx impl).2.bypassed = impl.bypassed := by
  unfold revalidateAssignments
  rw [bypassed_reviseIfExamined]
  exact foldl_project (f := fun acc : RevalidationReport × Impl => acc.2.bypassed) revalidateOne_bypassed _ _

theorem revalidateAgentAssignments_bypassed (impl : Impl) (agent : AgentId) (boot : AgentBootId) :
    (revalidateAgentAssignments ctx impl agent boot).2.bypassed = impl.bypassed := by
  unfold revalidateAgentAssignments
  split
  · rfl
  · split
    · rfl
    · rw [bypassed_reviseIfExamined]
      exact foldl_project (f := fun acc : RevalidationReport × Impl => acc.2.bypassed)
        (revalidateAgentOne_bypassed agent boot) _ _

theorem bypassed_restore (impl file : Impl) : (restore impl (image file)).bypassed = file.bypassed := by
  have hwork : ∀ items impl, (List.foldl refreshWorkAccounting impl items).bypassed = impl.bypassed :=
    foldl_project fun impl work => bypassed_refreshWorkAccounting impl work
  have hagents : ∀ items impl, (List.foldl refreshAgentAccounting impl items).bypassed = impl.bypassed :=
    foldl_project fun impl agent => bypassed_refreshAgentAccounting impl agent
  unfold restore
  simp only
  rw [bypassed_revise, hwork, hagents, read_rebuildIndexes (f := Impl.bypassed) _ fun _ => rfl]
  funext work
  change ((file.work.map fun _ record => record.recover)[work]?).map _ = _
  rw [getElem?_map, Option.map_map]
  rfl

theorem bypassed_construct {options : SchedulerOptions} {generatedId : SchedulerId}
    (h : construct options generatedId = some impl) (work : WorkId) : impl.bypassed work = none := by
  have hempty : ∀ impl : Impl, impl.work = ∅ → impl.bypassed work = none := by
    intro impl hwork
    simp [Impl.bypassed, hwork]
  unfold construct at h
  simp only at h
  split at h
  · obtain rfl := Option.some.inj h
    split
    · rw [start_bypassed]
      exact hempty _ rfl
    · exact hempty _ rfl
  · cases h

end Operations

end AgentScheduler
