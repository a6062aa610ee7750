import AgentScheduler.Observation
import AgentScheduler.Records

/-! Every operation is a chain of changes of the records. -/
namespace AgentScheduler
open Std KeyedTable Relation

section Rules
variable {now : UInt64} {allows : Occasion → Prop} {impl impl' base : Impl}

/-- What is open in an instance was stored so in another. -/
def Impl.Leaves (impl impl' : Impl) : Prop :=
  ∀ (id : AssignmentId) record, impl'.assignments[id]? = some record → record.state.isTerminal = false →
    impl.assignments[id]? = some record

theorem Impl.Leaves.refl (impl : Impl) : impl.Leaves impl := fun _ _ hrecord _ => hrecord

theorem Impl.Leaves.trans {impl'' : Impl} (h : impl.Leaves impl') (h' : impl'.Leaves impl'') : impl.Leaves impl'' :=
  fun id record hrecord hopen => h id record (h' id record hrecord hopen) hopen

theorem Impl.Leaves.of_records (h : impl'.records.assignments = impl.records.assignments) : impl.Leaves impl' := by
  intro id record hrecord _
  have hread := congrFun h id
  have hread : impl'.assignments[id]? = impl.assignments[id]? := hread
  rw [← hread]
  exact hrecord

/-- A chain of changes that ends open assignments, at most. -/
structure Impl.Ends (now : UInt64) (allows : Occasion → Prop) (impl impl' : Impl) : Prop where
  chain : Postings now allows impl.records impl'.records
  leaves : impl.Leaves impl'
  agents : impl'.records.agents = impl.records.agents

theorem Impl.Ends.refl (impl : Impl) : impl.Ends now allows impl := ⟨.refl, .refl impl, rfl⟩

theorem Impl.Ends.trans {impl'' : Impl} (h : impl.Ends now allows impl') (h' : impl'.Ends now allows impl'') :
    impl.Ends now allows impl'' :=
  ⟨h.chain.trans h'.chain, h.leaves.trans h'.leaves, h'.agents.trans h.agents⟩

theorem Impl.Ends.of_records (h : impl'.records = impl.records) : impl.Ends now allows impl' := by
  refine ⟨?_, .of_records (congrArg Records.assignments h), congrArg Records.agents h⟩
  rw [h]

theorem postings_of_eq (h : impl'.records = impl.records) : Postings now allows impl.records impl'.records := by
  rw [h]

/-- A locked section whose body is a chain of changes whenever its checks pass. -/
theorem guarded_postings {Found : Type} {check : Except SchedulerError Found} {body : Found → Step}
    (h : ∀ found, check = .ok found → Postings now allows impl.records (body found).2.records) :
    Postings now allows impl.records (guarded impl check body).2.records := by
  unfold guarded
  cases hcheck : check with
  | error error => exact .refl
  | ok found => exact h found hcheck

theorem observing_postings {operation : Text} {id : AssignmentId} {generation : AssignmentGeneration} {boot : AgentBootId}
    {body : AssignmentRecord → Step}
    (h : ∀ record, lookupAssignment impl id generation boot = .ok record →
      Postings now allows impl.records (body record).2.records) :
    Postings now allows impl.records (observing impl operation id generation boot body).2.records := by
  unfold observing
  cases hlookup : lookupAssignment impl id generation boot with
  | error problem => exact .refl
  | ok record => exact h record hlookup

/-! ### Closing -/

theorem closeAssignment_ends {id : AssignmentId} {state : AssignmentState} {reason : InvalidationReason} {detail : Text}
    (hterminal : state.isTerminal) (hcompleted : state ≠ .completed) (hfailed : state ≠ .failed)
    (hcloses : ∀ record, impl.assignments[id]? = some record → record.state.isTerminal = false → allows (.closes id record)) :
    impl.Ends now allows (closeAssignment now impl id state reason detail) := by
  cases hrecord : impl.assignments[id]? with
  | none =>
    have hsame : closeAssignment now impl id state reason detail = impl := by
      unfold closeAssignment
      rw [hrecord]
    rw [hsame]
    exact .refl impl
  | some record =>
    cases hopen : record.state.isTerminal with
    | true =>
      have hsame : closeAssignment now impl id state reason detail = impl := by
        unfold closeAssignment
        simp [hrecord, hopen]
      rw [hsame]
      exact .refl impl
    | false =>
      have hclosed := @records_closeAssignment impl now id record state reason detail hrecord hopen
      refine ⟨?_, fun other found hfound hstays => ?_, by rw [hclosed]; rfl⟩
      · rw [hclosed]
        exact Postings.single (.close id record state reason detail hrecord hopen hterminal hcompleted hfailed)
          (hcloses record hrecord hopen)
      · have hread := congrFun (congrArg Records.assignments hclosed) other
        have hread : (closeAssignment now impl id state reason detail).assignments[other]? =
          Function.update (fun id => impl.assignments[id]?) id (some (record.close now state reason detail)) other := hread
        rw [hfound, update_ite] at hread
        split at hread
        · obtain rfl := Option.some.inj hread
          have hstays : state.isTerminal = false := hstays
          rw [hterminal] at hstays
          cases hstays
        · exact hread.symm

theorem closeWhere_ends (impl : Impl) {selected : AssignmentRecord → Bool} {state : AssignmentState} {reason : InvalidationReason}
    {detail : Text} (hterminal : state.isTerminal) (hcompleted : state ≠ .completed) (hfailed : state ≠ .failed)
    (hcloses : ∀ id record, impl.assignments[id]? = some record → record.state.isTerminal = false → selected record →
      allows (.closes id record)) :
    impl.Ends now allows (closeWhere now impl selected state reason detail) := by
  refine List.foldlRecOn (motive := impl.Ends now allows) _ _ (.refl impl) fun after hafter id _ => ?_
  cases hrecord : after.assignments[id]? with
  | none => exact hafter
  | some record =>
    simp only
    split
    · next hselected =>
      refine hafter.trans (closeAssignment_ends hterminal hcompleted hfailed fun found hfound hopen => ?_)
      obtain rfl : record = found := Option.some.inj (hrecord.symm.trans hfound)
      exact hcloses id record (hafter.leaves id record hrecord hopen) hopen hselected
    · exact hafter

theorem closeAllActive_ends (impl : Impl) {boot : AgentBootId} {state : AssignmentState} {reason : InvalidationReason} {detail : Text}
    (hterminal : state.isTerminal) (hcompleted : state ≠ .completed) (hfailed : state ≠ .failed)
    (hcloses : ∀ id record, impl.assignments[id]? = some record → record.state.isActive → record.binding.boot = boot →
      allows (.closes id record)) :
    impl.Ends now allows (closeAllActive now impl boot state reason detail) := by
  refine closeWhere_ends impl hterminal hcompleted hfailed fun id record hrecord _ hselected => ?_
  simp only [Bool.and_eq_true, decide_eq_true_eq] at hselected
  exact hcloses id record hrecord hselected.2 hselected.1

theorem closeWork_ends (impl : Impl) {work : WorkId} {state : AssignmentState} {reason : InvalidationReason} {detail : Text}
    (hterminal : state.isTerminal) (hcompleted : state ≠ .completed) (hfailed : state ≠ .failed)
    (hcloses : ∀ id record, impl.assignments[id]? = some record → record.state.isActive → record.binding.work = work →
      allows (.closes id record)) :
    impl.Ends now allows (closeWork now impl work state reason detail) := by
  refine closeWhere_ends impl hterminal hcompleted hfailed fun id record hrecord _ hselected => ?_
  simp only [Bool.and_eq_true, decide_eq_true_eq] at hselected
  exact hcloses id record hrecord hselected.2 hselected.1

end Rules

/-! ### The assignments an operation ends without a word of their agents -/

/-- An agent is stored under a boot that is not fenced. -/
def Impl.Runs (impl : Impl) (agent : AgentId) (boot : AgentBootId) : Prop :=
  ∃ record, impl.agents[agent]? = some record ∧ record.descriptor.boot = boot ∧ bootIsFenced impl boot = false

/-- The assignments that an operation with one locked section ends, other than by an outcome its agent reports. -/
def Operation.Drops (ctx : Context) (impl : Impl) : Operation → AssignmentRecord → Prop
  | .shutdown, record =>
    impl.shuttingDown = false ∧ impl.policy.closeDispatchAuthorityOnShutdown ∧ record.state = .assigned
  | .setPolicy policy, record =>
    checkPolicy impl policy = .ok true ∧ record.state.isActive ∧ record.binding.policyGeneration ≠ policy.generation
  | .drainAgent agent boot force, record =>
    (∃ found, impl.agents[agent]? = some found ∧ found.descriptor.boot = boot ∧ bootIsFenced impl boot = false ∧
      found.lifecycle ≠ .retired) ∧ force ∧ record.state.isActive ∧ record.binding.boot = boot
  | .deregisterAgent agent boot force, record =>
    impl.Runs agent boot ∧ 0 < activeAssignmentCount impl agent ∧ force ∧ record.state.isActive ∧
      record.binding.boot = boot
  | .supersedeWork work expectedGeneration replacement, record =>
    (∃ found, checkSupersession impl work expectedGeneration replacement = .ok found) ∧ record.state.isActive ∧
      record.binding.work = replacement.canonicalize.id
  | .expireDeadlines, record =>
    (∃ work, impl.work[record.binding.work]? = some work ∧ deadlinePassed ctx.now work) ∧ record.state.isActive
  | .acknowledge id generation dispatchId dispatchGeneration boot, record =>
    lookupAssignment impl id generation boot = .ok record ∧ record.binding.dispatch = dispatchId ∧
      record.binding.dispatchGeneration = dispatchGeneration ∧ record.state = .dispatched ∧ record.leaseCovers ctx.now = false
  | .markExecuting id generation boot, record =>
    lookupAssignment impl id generation boot = .ok record ∧
      (record.state = .acknowledged ∨ record.state = .dispatched ∨ record.state = .executing) ∧
      record.leaseCovers ctx.now = false
  | .release id generation boot _, record =>
    lookupAssignment impl id generation boot = .ok record ∧ record.state.isTerminal = false
  | .revalidateAssignments, record => record.state = .revalidationRequired
  | .revalidateAgentAssignments agent boot, record =>
    (∃ found, impl.agents[agent]? = some found ∧ found.descriptor.boot = boot) ∧ record.binding.agent = agent ∧
      record.binding.boot = boot ∧ record.state = .revalidationRequired
  | .expireLeases, record => record.state.isActive ∧ record.binding.leaseExpiresAtMs < ctx.now
  | _, _ => False

/-- The assignments that the second section of a call ends. -/
def Call.Drops (impl : Impl) : Call → AssignmentRecord → Prop
  | .registerAgent descriptor, record =>
    ∃ existing, impl.agents[descriptor.id]? = some existing ∧
      existing.descriptor.generation < descriptor.generation ∧ bootIsFenced impl descriptor.boot = false ∧
      record.state.isActive ∧ record.binding.boot = existing.descriptor.boot
  | .submitWork request, record =>
    impl.admissionOpen ∧ (∃ existing, impl.work[request.canonicalize.id]? = some existing ∧
      existing.request.generation < request.canonicalize.generation) ∧ record.state.isActive ∧
      record.binding.work = request.canonicalize.id
  | .cancelWork work generation _, record =>
    (∃ found, impl.work[work]? = some found ∧ found.request.generation = generation ∧
      found.lifecycle.isTerminal = false) ∧ record.state.isActive ∧ record.binding.work = work
  | .declareAgentLost agent boot _, record =>
    (∃ existing, impl.agents[agent]? = some existing ∧ existing.descriptor.boot = boot) ∧ record.state.isActive ∧
      record.binding.boot = boot
  | _, _ => False

section Agents
variable {now : UInt64} {ctx : Context} {allows : Occasion → Prop} {impl : Impl}

/-! ### The scheduler, its policy and its queues -/

theorem start_records (impl : Impl) : (start impl).2.records = impl.records := by
  unfold start
  split <;> rfl

theorem shutdown_postings (ctx : Context)
    (hcloses : ∀ id record, impl.assignments[id]? = some record → Operation.Drops ctx impl .shutdown record →
      allows (.closes id record)) :
    Postings ctx.now allows impl.records (shutdown ctx.now impl).2.records := by
  unfold shutdown
  split
  · exact .refl
  · next hrunning =>
    rw [records_revise]
    let stopped : Impl :=
      { impl with shuttingDown := true, admissionOpen := false, running := false, shutdownAtMs := ctx.now }
    change Postings ctx.now allows stopped.records _
    split
    · next hpolicy =>
      refine (closeWhere_ends stopped rfl (by decide) (by decide) fun id record hrecord _ hselected => ?_).chain
      exact hcloses id record hrecord ⟨by simpa using hrunning, hpolicy, by simpa using hselected⟩
    · exact .refl

theorem setPolicy_postings (ctx : Context) {policy : PolicySnapshot}
    (hcloses : ∀ id record, impl.assignments[id]? = some record → Operation.Drops ctx impl (.setPolicy policy) record →
      allows (.closes id record)) :
    Postings ctx.now allows impl.records (setPolicy ctx.now impl policy).2.records := by
  refine guarded_postings fun install hcheck => ?_
  cases install with
  | false => exact .refl
  | true =>
    let installed : Impl := Impl.revise { impl with policy := policy }
    change Postings ctx.now allows installed.records _
    refine (closeWhere_ends installed rfl (by decide) (by decide) fun id record hrecord _ hselected => ?_).chain
    simp only [Bool.and_eq_true, decide_eq_true_eq] at hselected
    exact hcloses id record hrecord ⟨hcheck, hselected.1, hselected.2⟩

theorem registerQueue_records (impl : Impl) (queue : QueueId) (generation : QueueGeneration) (fairnessClass : Text)
    (weight : UInt32) : (registerQueue impl queue generation fairnessClass weight).2.records = impl.records := by
  unfold registerQueue guarded
  repeat' split
  all_goals rfl

/-! ### Agents -/

/-- An agent publishes evidence. -/
private theorem vouch_postings (impl : Impl) {agent : AgentId} {record : AgentRecord} {update : AgentRecord → AgentRecord}
    (hrecord : impl.agents[agent]? = some record) (hgeneration : (update record).brief.generation = record.brief.generation)
    (hcompleted : (update record).brief.completed = record.brief.completed)
    (hfailed : (update record).brief.failed = record.brief.failed) (hfresh : (update record).recovered = false)
    (hvouches : allows .vouches) :
    Postings now allows impl.records (impl.modifyAgent agent update).records := by
  rw [modifyAgent_eq_setAgent hrecord, records_setAgent]
  have hbrief : impl.records.agents agent = some record.brief := by simp [Impl.records, hrecord]
  exact Postings.single (.vouch agent record.brief _ hbrief hgeneration hcompleted hfailed hfresh) hvouches

theorem publishHealth_postings {agent : AgentId} {boot : AgentBootId} {observation : HealthObservation}
    (hvouches : allows .vouches) :
    Postings now allows impl.records (publishHealth now impl agent boot observation).2.records := by
  refine guarded_postings fun observed hcheck => ?_
  simp only [check_bind_eq_ok] at hcheck
  obtain ⟨record, hrecord, -⟩ := checkObservation_ok hcheck.2
  simp only [records_revise, records_refreshAgent]
  exact vouch_postings impl hrecord rfl rfl rfl rfl hvouches

theorem publishAvailability_postings {agent : AgentId} {boot : AgentBootId} {observation : AvailabilityObservation}
    (hvouches : allows .vouches) :
    Postings now allows impl.records (publishAvailability now impl agent boot observation).2.records := by
  refine guarded_postings fun observed hcheck => ?_
  simp only [check_bind_eq_ok] at hcheck
  obtain ⟨record, hrecord, -⟩ := checkObservation_ok hcheck.2
  simp only [records_revise, records_refreshAgent]
  exact vouch_postings impl hrecord rfl rfl rfl rfl hvouches

/-- The checks of `publish_load`, with what they find. -/
def checkLoad (now : UInt64) (impl : Impl) (agent : AgentId) (boot : AgentBootId) (observation : LoadObservation) :
    Except SchedulerError UInt64 := do
  observation.validate impl.limits
  checkObservation now impl "publish_load" "load" agent boot
    (fun record => observation.generation < record.loadGeneration) observation.observedAtMs

theorem publishLoad_postings {agent : AgentId} {boot : AgentBootId} {observation : LoadObservation}
    (hreports : ∀ record observed, impl.agents[agent]? = some record → checkLoad now impl agent boot observation = .ok observed →
      allows (.reportsLoad record.brief)) :
    Postings now allows impl.records (publishLoad now impl agent boot observation).2.records := by
  refine guarded_postings fun observed hcheck => ?_
  have hload : checkLoad now impl agent boot observation = .ok observed := hcheck
  simp only [check_bind_eq_ok] at hcheck
  obtain ⟨record, hrecord, -⟩ := checkObservation_ok hcheck.2
  rw [records_revise, modifyAgent_eq_setAgent hrecord, records_setAgent]
  have hbrief : impl.records.agents agent = some record.brief := by simp [Impl.records, hrecord]
  exact Postings.single (.reportLoad agent record.brief hbrief) (hreports record observed hrecord hload)

theorem heartbeat_records (now : UInt64) (impl : Impl) (agent : AgentId) (boot : AgentBootId)
    (registrationGeneration : AgentRegistrationGeneration) :
    (heartbeat now impl agent boot registrationGeneration).2.records = impl.records := by
  unfold heartbeat guarded
  split
  · rfl
  · exact records_modifyAgent impl agent fun _ => rfl

theorem drainAgent_postings (ctx : Context) {agent : AgentId} {boot : AgentBootId} {force : Bool}
    (hcloses : ∀ id record, impl.assignments[id]? = some record →
      Operation.Drops ctx impl (.drainAgent agent boot force) record → allows (.closes id record)) :
    Postings ctx.now allows impl.records (drainAgent ctx.now impl agent boot force).2.records := by
  refine guarded_postings fun _ hcheck => ?_
  simp only [except_bind_eq_ok, rejectIf_eq_ok] at hcheck
  obtain ⟨found, hcurrent, hretired⟩ := hcheck
  obtain ⟨hfound, hboot, hfenced⟩ := currentAgent_ok hcurrent
  simp only [records_revise, records_refreshAgent]
  let draining := impl.modifyAgent agent fun record => { record with lifecycle := .draining, reason := "draining" }
  have hdraining : draining.records = impl.records := records_modifyAgent impl agent fun _ => rfl
  rw [← hdraining]
  split
  · next hforce =>
    refine (closeAllActive_ends draining rfl (by decide) (by decide) fun id record hrecord hactive hbound => ?_).chain
    exact hcloses id record hrecord ⟨⟨found, hfound, hboot, hfenced, hretired⟩, hforce, hactive, hbound⟩
  · exact .refl

/-- An agent whose evidence is withdrawn. -/
private theorem silence_postings {agent : AgentId} (lifecycle : AgentLifecycle) (reason : Text) (hsilences : allows .silences) :
    Postings now allows impl.records (impl.modifyAgent agent fun record =>
      { invalidateDynamicEvidence record with lifecycle := lifecycle, reason := reason }).records := by
  cases hagent : impl.agents[agent]? with
  | none =>
    unfold Impl.modifyAgent
    rw [modify_eq_self hagent]
  | some record =>
    rw [modifyAgent_eq_setAgent hagent, records_setAgent]
    have hbrief : impl.records.agents agent = some record.brief := by simp [Impl.records, hagent]
    exact Postings.single (.silence agent record.brief hbrief) hsilences

theorem deregisterAgent_postings (ctx : Context) {agent : AgentId} {boot : AgentBootId} {force : Bool} (hsilences : allows .silences)
    (hcloses : ∀ id record, impl.assignments[id]? = some record →
      Operation.Drops ctx impl (.deregisterAgent agent boot force) record → allows (.closes id record)) :
    Postings ctx.now allows impl.records (deregisterAgent ctx.now impl agent boot force).2.records := by
  refine guarded_postings fun record hcheck => ?_
  simp only [except_bind_eq_ok, rejectIf_eq_ok] at hcheck
  obtain ⟨found, hcurrent, -, hbarrier, -⟩ := hcheck
  have hruns : impl.Runs agent boot := ⟨found, currentAgent_ok hcurrent⟩
  simp only [records_revise, records_refreshAgent]
  refine ReflTransGen.trans ?_ (silence_postings .retired "deregistered" hsilences)
  rw [records_fenceBoot]
  split
  · next hactive =>
    refine (closeAllActive_ends impl rfl (by decide) (by decide) fun id record hrecord hopen hbound => ?_).chain
    have hforce : force = true := by
      by_contra hnot
      exact hbarrier ⟨hactive, hnot⟩
    exact hcloses id record hrecord ⟨hruns, hactive, hforce, hopen, hbound⟩
  · exact .refl

theorem declareAgentLostCommit_postings {agent : AgentId} {boot : AgentBootId} {reason : Text} (hsilences : allows .silences)
    (hcloses : ∀ id record, impl.assignments[id]? = some record →
      Call.Drops impl (.declareAgentLost agent boot reason) record → allows (.closes id record)) :
    Postings now allows impl.records (declareAgentLostCommit now impl agent boot reason).2.records := by
  unfold declareAgentLostCommit
  cases hagent : impl.agents[agent]? with
  | none => exact postings_of_eq (records_fenceBoot _ _ _ _ _)
  | some existing =>
    simp only
    split
    · exact postings_of_eq (records_fenceBoot _ _ _ _ _)
    · next hcurrent =>
      have hboot : existing.descriptor.boot = boot := by simpa using hcurrent
      let fenced := fenceBoot now impl agent boot existing.descriptor.generation reason
      have hfenced : fenced.records = impl.records := records_fenceBoot _ _ _ _ _
      simp only [records_revise, records_refreshAgent]
      refine ReflTransGen.trans ?_ (silence_postings .lost reason hsilences)
      rw [← hfenced]
      refine (closeAllActive_ends fenced rfl (by decide) (by decide) fun id record hrecord hopen hbound => ?_).chain
      have hstored : impl.records.assignments id = some record := by
        rw [← hfenced]
        exact hrecord
      exact hcloses id record hstored ⟨⟨existing, hagent, hboot⟩, hopen, hbound⟩

theorem registerAgentCommit_postings {descriptor : AgentDescriptor} (henrolls : allows .enrolls)
    (hcloses : ∀ id record, impl.assignments[id]? = some record → Call.Drops impl (.registerAgent descriptor) record →
      allows (.closes id record)) :
    Postings now allows impl.records (registerAgentCommit now impl descriptor).2.records := by
  have hfresh : ∀ impl' reason, (freshAgent now impl' descriptor reason).brief = { generation := descriptor.generation } :=
    fun _ _ => brief_recomputeLifecycle _
  unfold registerAgentCommit
  cases hagent : impl.agents[descriptor.id]? with
  | some existing =>
    simp only [hagent]
    refine guarded_postings fun _ hcheck => ?_
    simp only [check_bind_eq_ok, checkIncarnation, checkUnfenced, rejectIf_eq_ok] at hcheck
    obtain ⟨⟨holder, -⟩, hunfenced⟩ := hcheck
    split
    · next hnewer =>
      simp only [records_revise, records_indexStoredAgent, records_refreshAgentAccounting, records_setAgent, hfresh]
      let retired := retireIncarnation now impl existing descriptor.id
      have hretired : impl.Ends now allows retired := by
        have hfenced : (fenceBoot now impl descriptor.id existing.descriptor.boot existing.descriptor.generation
          "replaced by reincarnation").records = impl.records := records_fenceBoot _ _ _ _ _
        change impl.Ends now allows (if existing.descriptor.boot.isZero then impl else _)
        split
        · exact .refl impl
        · refine (Impl.Ends.of_records hfenced).trans
            (closeAllActive_ends _ rfl (by decide) (by decide) fun id record hrecord hopen hbound => ?_)
          have hstored : impl.records.assignments id = some record := by
            rw [← hfenced]
            exact hrecord
          exact hcloses id record hstored ⟨existing, hagent, hnewer, by simpa using hunfenced, hopen, hbound⟩
      refine hretired.chain.trans (Postings.single (.enroll descriptor.id descriptor.generation fun old hold => ?_) henrolls)
      have hbefore : impl.records.agents descriptor.id = some existing.brief := by simp [Impl.records, hagent]
      rw [hretired.agents, hbefore] at hold
      rw [← Option.some.inj hold]
      exact hnewer
    · next hnotnewer =>
      have hgeneration := StrongId.eq_of_not_lt holder hnotnewer
      simp only [records_revise, records_refreshAgent]
      refine postings_of_eq (records_setAgent_same hagent ?_)
      change ({ existing.brief with generation := descriptor.generation } : AgentBrief) = existing.brief
      rw [hgeneration]
      rfl
  | none =>
    simp only [hagent]
    refine guarded_postings fun _ _ => ?_
    change Postings now allows impl.records (impl.setAgent descriptor.id (freshAgent now impl descriptor "registered")).records
    rw [records_setAgent, hfresh]
    refine Postings.single (.enroll descriptor.id descriptor.generation fun old hold => ?_) henrolls
    simp [Impl.records, hagent] at hold

/-- The demotion loop takes the leases of the assignments it finds outdated. -/
private theorem demoteOutdated_postings {agent : AgentId} {profile : CapabilityProfile} (hdemotes : allows .demotes) :
    Postings now allows impl.records (demoteOutdated impl agent profile).records := by
  refine List.foldlRecOn (motive := fun after : Impl => Postings now allows impl.records after.records) _ _ .refl
    fun demoted hdemoted id _ => ?_
  cases hrecord : demoted.assignments[id]? with
  | none => exact hdemoted
  | some record =>
    simp only
    split
    · next houtdated =>
      have hactive : record.state.isActive := by
        simp [outdatedBy] at houtdated
        exact houtdated.1.2
      refine hdemoted.trans ?_
      rw [records_dropLease, records_setAssignment]
      exact Postings.single (.demote id record hrecord hactive) hdemotes
    · exact hdemoted

theorem publishCapabilities_postings {agent : AgentId} {boot : AgentBootId} {profile : CapabilityProfile}
    (hvouches : allows .vouches) (hdemotes : allows .demotes) :
    Postings now allows impl.records (publishCapabilities now impl agent boot profile).2.records := by
  refine guarded_postings fun published hcheck => ?_
  cases published with
  | none => exact .refl
  | some canonical =>
    obtain ⟨record, hrecord, -⟩ := checkCapabilities_some hcheck
    simp only [records_revise, records_indexStoredAgent, records_refreshAgentAccounting]
    refine ReflTransGen.trans ?_ (demoteOutdated_postings hdemotes)
    exact vouch_postings (deindexAgent impl agent) hrecord rfl rfl rfl rfl hvouches

end Agents

section Work
variable {now : UInt64} {ctx : Context} {allows : Occasion → Prop} {impl : Impl}

/-! ### Work -/

theorem ensureQueue_records {request : WorkRequest} {queued : Impl} (h : ensureQueue impl request = .ok queued) :
    queued.records = impl.records := by
  unfold ensureQueue at h
  cases hqueue : impl.queues[request.queue]? with
  | none =>
    simp only [hqueue] at h
    split at h
    · cases h
    · obtain rfl := Except.ok.inj h
      rfl
  | some queue =>
    simp only [hqueue] at h
    split at h
    · cases h
    · split at h <;> obtain rfl := Except.ok.inj h <;> rfl

theorem ensureTenant_postings {tenant : TenantId} {ready : Impl} (h : ensureTenant impl tenant = .ok ready)
    (hopens : allows .opens) : Postings now allows impl.records ready.records := by
  unfold ensureTenant at h
  split at h
  · obtain rfl := Except.ok.inj h
    exact .refl
  · next hzero =>
    split at h
    · obtain rfl := Except.ok.inj h
      exact .refl
    · next hunknown =>
      split at h
      · cases h
      · obtain rfl := Except.ok.inj h
        have hnone : impl.tenants[tenant]? = none := ExtTreeMap.getElem?_eq_none (by simpa using hunknown)
        have hopened : ({ impl with tenants := impl.tenants.insertIfNew tenant { id := tenant } } : Impl).records =
            { impl.records with held := Function.update impl.records.held tenant (some 0) } := by
          apply Records.ext <;> try rfl
          funext other
          change ((impl.tenants.insertIfNew tenant { id := tenant })[other]?).map TenantRecord.activeAssignments =
            Function.update impl.records.held tenant (some 0) other
          rw [getElem?_insertIfNew, update_ite]
          split
          · next heq =>
            subst heq
            rw [hnone]
            rfl
          · rfl
        rw [hopened]
        refine Postings.single (.open tenant ?_ ?_) hopens
        · rintro rfl
          exact hzero rfl
        · simp [Impl.records, hnone]

theorem withQueueAndTenant_postings (impl : Impl) {request : WorkRequest} {body : Impl → Impl} (hopens : allows .opens)
    (hbody : ∀ ready : Impl, ready.work = impl.work → ready.assignments = impl.assignments →
      Postings now allows ready.records (body ready).records) :
    Postings now allows impl.records (withQueueAndTenant impl request body).2.records := by
  unfold withQueueAndTenant
  cases hqueue : ensureQueue impl request with
  | error error => exact .refl
  | ok queued =>
    have hqueued := ensureQueue_records hqueue
    cases htenant : ensureTenant queued request.requirements.tenant with
    | error error =>
      simp only [htenant]
      exact postings_of_eq hqueued
    | ok ready =>
      have hready : Postings now allows queued.records ready.records := ensureTenant_postings htenant hopens
      have hessence := (ensureTenant_essence htenant).trans (ensureQueue_essence hqueue)
      have hwork := congrArg Impl.work hessence
      have hassignments := congrArg Impl.assignments hessence
      simp only [htenant]
      rw [← hqueued]
      exact hready.trans (hbody ready hwork hassignments)

theorem records_countAdmission (impl : Impl) (request : WorkRequest) : (countAdmission impl request).records = impl.records := by
  apply Records.ext <;> try rfl
  exact view_modify _ fun _ => rfl

/-- Work that is stored while none of its assignments is active. -/
private theorem admit_postings (impl : Impl) {work : WorkId} {record : WorkRecord} (hidle : impl.ledger.activeFor work = ∅)
    (hadmits : allows .admits) : Postings now allows impl.records (impl.setWork work record).records := by
  rw [records_setWork]
  exact Postings.single (.receive work _ hidle) hadmits

theorem replaceWork_postings {request : WorkRequest} {existing : WorkRecord} {reason : Text} (h : Consistent impl)
    (hadmits : allows .admits)
    (hcloses : ∀ id record, impl.assignments[id]? = some record → record.state.isActive → record.binding.work = request.id →
      allows (.closes id record)) :
    Postings now allows impl.records (replaceWork now impl request existing reason).records := by
  have hclosed : impl.Ends now allows
      (closeWork now impl request.id .superseded .workSuperseded "work generation was superseded") :=
    closeWork_ends impl rfl (by decide) (by decide) hcloses
  have hidle := (closeWork_idle request.id now .superseded .workSuperseded "work generation was superseded" h rfl).1
  unfold replaceWork
  generalize closeWork now impl request.id .superseded .workSuperseded "work generation was superseded" = closed
    at hclosed hidle ⊢
  exact hclosed.chain.trans (admit_postings closed hidle hadmits)

theorem submitWorkCommit_postings {request : WorkRequest} (h : Consistent impl) (hadmits : allows .admits)
    (hopens : allows .opens)
    (hcloses : ∀ id record, impl.assignments[id]? = some record → Call.Drops impl (.submitWork request) record →
      allows (.closes id record)) :
    Postings now allows impl.records (submitWorkCommit now impl request).2.records := by
  refine guarded_postings fun _ hopen => ?_
  have hopen : impl.admissionOpen := by simpa [checkAdmissionOpen] using hopen
  cases hwork : impl.work[request.canonicalize.id]? with
  | some existing =>
    simp only
    refine guarded_postings fun decision hcheck => ?_
    cases decision with
    | unchanged => exact .refl
    | reopen =>
      have hnewer : existing.request.generation < request.canonicalize.generation := checkResubmission_reopen hcheck
      refine ReflTransGen.trans (replaceWork_postings h hadmits fun id record hrecord hactive hbound => ?_)
        (withQueueAndTenant_postings _ hopens fun ready _ _ => postings_of_eq (records_countAdmission ready _))
      exact hcloses id record hrecord ⟨hopen, ⟨existing, hwork, hnewer⟩, hactive, hbound⟩
  | none =>
    simp only
    refine guarded_postings fun _ _ => ?_
    refine withQueueAndTenant_postings impl.takeSequence hopens fun ready hworks hassignments => ?_
    have hidle : ready.ledger.activeFor request.canonicalize.id = ∅ := by
      rw [← h.unknown _ hwork]
      unfold Ledger.activeFor Ledger.active
      simp only [Impl.ledger, hassignments]
      rfl
    rw [records_revise, records_countAdmission]
    exact admit_postings ready hidle hadmits

theorem supersedeWork_postings (ctx : Context) {work : WorkId} {expectedGeneration : WorkGeneration} {replacement : WorkRequest}
    (h : Consistent impl) (hadmits : allows .admits) (hopens : allows .opens)
    (hcloses : ∀ id record, impl.assignments[id]? = some record →
      Operation.Drops ctx impl (.supersedeWork work expectedGeneration replacement) record → allows (.closes id record)) :
    Postings ctx.now allows impl.records (supersedeWork ctx.now impl work expectedGeneration replacement).2.records := by
  refine guarded_postings fun found hcheck => ?_
  refine ReflTransGen.trans (replaceWork_postings h hadmits fun id record hrecord hactive hbound => ?_)
    (withQueueAndTenant_postings _ hopens fun ready _ _ => postings_of_eq rfl)
  exact hcloses id record hrecord ⟨⟨found, hcheck⟩, hactive, hbound⟩

theorem settleWork_ends {work : WorkId} {state : AssignmentState} {lifecycle : WorkLifecycle} {reason : InvalidationReason}
    {detail workReason : Text} (hterminal : state.isTerminal) (hcompleted : state ≠ .completed) (hfailed : state ≠ .failed)
    (hcloses : ∀ id record, impl.assignments[id]? = some record → record.state.isActive → record.binding.work = work →
      allows (.closes id record)) :
    impl.Ends now allows (settleWork now impl work state reason detail lifecycle workReason) := by
  have hclosed : impl.Ends now allows (closeWork now impl work state reason detail) :=
    closeWork_ends impl hterminal hcompleted hfailed hcloses
  have hsettled : ((closeWork now impl work state reason detail).modifyWork work fun record =>
      { record with lifecycle := lifecycle, reason := workReason }).records =
      (closeWork now impl work state reason detail).records := records_modifyWork _ work fun _ => rfl
  exact hclosed.trans (.of_records hsettled)

theorem cancelWorkCommit_postings {work : WorkId} {generation : WorkGeneration} {reason : Text}
    (hcloses : ∀ id record, impl.assignments[id]? = some record → Call.Drops impl (.cancelWork work generation reason) record →
      allows (.closes id record)) :
    Postings now allows impl.records (cancelWorkCommit now impl work generation reason).2.records := by
  refine guarded_postings fun found hcheck => ?_
  unfold cancelTarget at hcheck
  simp only [except_bind_eq_ok, lookupOrFail_eq_ok, rejectIf_eq_ok] at hcheck
  obtain ⟨record, hrecord, -, hgeneration, hreturn⟩ := hcheck
  obtain rfl : record = found := Except.ok.inj hreturn
  split
  · exact .refl
  · split
    · exact .refl
    · next hopen =>
      refine (settleWork_ends rfl (by decide) (by decide) fun id assignment hassignment hactive hbound => ?_).chain
      exact hcloses id assignment hassignment
        ⟨⟨record, hrecord, by simpa using hgeneration, by simpa using hopen⟩, hactive, hbound⟩

/-- Work that is unsettled after another item was settled was so before. -/
private theorem works_settleWork {work other : WorkId} {state : AssignmentState} {lifecycle : WorkLifecycle}
    {reason : InvalidationReason} {detail workReason : Text} {entry : WorkEntry} (h : Consistent impl) (hstate : state.isTerminal)
    (hlifecycle : lifecycle.isTerminal)
    (hentry : (settleWork now impl work state reason detail lifecycle workReason).ledger.works other = some entry)
    (hunsettled : entry.settled = none) : impl.ledger.works other = some entry := by
  rw [← (closeWork_idle work now state reason detail h hstate).2]
  obtain ⟨record, hrecord, rfl⟩ := Option.map_eq_some_iff.mp hentry
  have hmodified : ((closeWork now impl work state reason detail).work.modify work fun record =>
      { record with lifecycle := lifecycle, reason := workReason })[other]? = some record := hrecord
  rw [getElem?_modify] at hmodified
  split at hmodified
  · obtain ⟨before, -, rfl⟩ := Option.map_eq_some_iff.mp hmodified
    simp [WorkRecord.entry, hlifecycle] at hunsettled
  · simp [Impl.ledger, hmodified]

theorem expireDeadlines_postings (ctx : Context) (h : Consistent impl)
    (hcloses : ∀ id record, impl.assignments[id]? = some record → Operation.Drops ctx impl .expireDeadlines record →
      allows (.closes id record)) :
    Postings ctx.now allows impl.records (expireDeadlines ctx.now impl).2.records := by
  let loops (acc : Impl × Bool) : Prop := impl.Ends ctx.now allows acc.1 ∧ Consistent acc.1 ∧
    ∀ other entry, acc.1.ledger.works other = some entry → entry.settled = none → impl.ledger.works other = some entry
  have hloop : loops (impl.work.keys.foldl (expireDeadline ctx.now) (impl, false)) := by
    refine List.foldlRecOn (motive := loops) _ _ ⟨.refl impl, h, fun _ _ hentry _ => hentry⟩ fun acc hacc work _ => ?_
    obtain ⟨hends, hconsistent, hworks⟩ := hacc
    unfold expireDeadline
    split
    · exact ⟨hends, hconsistent, hworks⟩
    · next record hrecord =>
      split
      · next hpassed =>
        have hpassed : (record.lifecycle.isTerminal = false ∧ record.request.requirements.deadlineMs ≠ 0) ∧
            record.request.requirements.deadlineMs < ctx.now := by
          simpa [deadlinePassed] using hpassed
        have hentry : acc.1.ledger.works work = some record.entry := by simp [Impl.ledger, hrecord]
        obtain ⟨before, hbefore, hsame⟩ := Option.map_eq_some_iff.mp
          (hworks work record.entry hentry (by simp [WorkRecord.entry, hpassed.1.1]))
        have hopen : before.lifecycle.isTerminal = false := by
          have hsettled := congrArg WorkEntry.settled hsame
          cases hterminal : before.lifecycle.isTerminal with
          | false => rfl
          | true => simp [WorkRecord.entry, hterminal, hpassed.1.1] at hsettled
        have hrequest : before.request = record.request := congrArg WorkEntry.request hsame
        have hlapsed : deadlinePassed ctx.now before := by
          simp only [deadlinePassed, hopen, hrequest]
          simpa using ⟨hpassed.1.2, hpassed.2⟩
        have hrefines : Refines {} acc.1 (settleWork ctx.now acc.1 work .expired .rejected "work deadline passed" .expired
            "deadline passed") :=
          settleWork_refines work .expired .expired ctx.now acc.1 .rejected _ _ rfl rfl fun _ _ => trivial
        refine ⟨hends.trans (settleWork_ends rfl (by decide) (by decide) fun id assignment hassignment hactive hbound => ?_),
          (hrefines hconsistent).1, fun other entry hafter hunsettled =>
            hworks other entry (works_settleWork hconsistent rfl rfl hafter hunsettled) hunsettled⟩
        have hstored := hends.leaves id assignment hassignment (by
          cases hterminal : assignment.state.isTerminal with
          | false => rfl
          | true =>
            rw [AssignmentState.not_isActive_of_isTerminal hterminal] at hactive
            cases hactive)
        exact hcloses id assignment hstored ⟨⟨before, hbound ▸ hbefore, hlapsed⟩, hactive⟩
      · exact ⟨hends, hconsistent, hworks⟩
  unfold expireDeadlines
  simp only
  split <;> exact hloop.1.chain

/-! ### Commits -/

private theorem commit_postings {generation : WorkGeneration} {binding : AssignmentBinding} {work : WorkRecord}
    (hcheck : commitCheck ctx impl binding.work generation binding = .ok work)
    (hcommits : allows (.commits impl work binding)) :
    Postings now allows impl.records (commitApply impl binding.work work binding).records := by
  obtain ⟨-, hwork, -, ⟨agent, hagent, hchecked⟩, -⟩ := commitCheck_ok.mp hcheck
  have hgeneration : agent.descriptor.generation = binding.agentGeneration := by
    unfold commitAgent at hchecked
    simp only [except_bind_eq_ok, refuseIf_eq_ok] at hchecked
    obtain ⟨-, hsame, -⟩ := hchecked
    simpa using hsame
  rw [records_commitApply hwork]
  have hbrief : impl.records.agents binding.agent = some agent.brief := by simp [Impl.records, hagent]
  exact Postings.single (.commit work binding agent.brief hbrief hgeneration hwork) hcommits

end Work

section Steps
variable {system : System} {ctx : Context} {allows : Occasion → Prop} {impl : Impl} {request : ScheduleRequest}

/-- A batch is a chain of the commits it places. -/
theorem scheduleBatch_postings (hvalid : system.Valid)
    (hcommits : ∀ impl work binding, system.Places (.run (.scheduleBatch request)) impl work binding →
      allows (.commits impl work binding)) :
    Postings system.context.now allows system.impl.records (scheduleBatch system.context system.impl request).2.records := by
  unfold scheduleBatch
  split
  · exact .refl
  · next hopen =>
    rw [not_or, not_not, not_not] at hopen
    simp only
    split
    · exact .refl
    · next hexamines =>
      refine batchPasses_visits (motive := fun state => Postings system.context.now allows system.impl.records state.impl.records)
        (batchPassLimit system.impl request) (fun first state item hitem hstate => ?_) (fun _ _ hstate => hstate) .refl
      have hvisits : system.Visits request first state item := ⟨hopen.1, hopen.2, hitem⟩
      have hconsistent : Consistent state.impl := (hvisits.healthy hvalid.healthy).consistent
      refine hstate.trans ?_
      by_cases hfull : request.maxAssignments.toNat ≤ state.assigned
      · rcases batchItem_full system.context first item hfull with hsame | hpassed
        · exact postings_of_eq (congrArg Impl.records hsame)
        · rw [hpassed]
          exact postings_of_eq (records_modifyWork state.impl item fun _ => rfl)
      rcases batchItem_cases system.context request first state item with
        hsame | hpassed | ⟨work, found, binding, hwork, hplan, hdry, hcheck, hform⟩
      · exact postings_of_eq (congrArg Impl.records hsame)
      · rw [hpassed]
        exact postings_of_eq (records_modifyWork state.impl item fun _ => rfl)
      · obtain ⟨rfl, hbound⟩ := commitCheck_planned hconsistent hwork hplan hcheck
        have hcommit : commitLocked system.context state.impl found.request.id found.request.generation binding =
            .ok (commitApply state.impl found.request.id found binding) := by
          unfold commitLocked
          rw [hcheck]
        have htakes : BatchTakes system.context request state item binding :=
          ⟨Nat.lt_of_not_le hfull, found, _, hwork, hplan, hcommit⟩
        have hplaces := System.Places.batch hdry ⟨Nat.le_of_not_lt hexamines, hvisits, htakes⟩ hwork
        rw [hform, ← hbound]
        rw [← hbound] at hcheck
        exact (commit_postings hcheck (hcommits _ _ _ hplaces)).trans
          (postings_of_eq (records_modifyWork _ item fun _ => rfl))

theorem scheduleCommit_postings {position : Nat} {plan : Plan} (hvalid : system.Valid)
    (hcall : system.calls[position]? = some (.schedule plan))
    (hcommits : ∀ impl work binding, system.Places (.finish position) impl work binding → allows (.commits impl work binding)) :
    Postings system.context.now allows system.impl.records
      (scheduleCommit system.context system.impl plan.work plan.generation plan.decision plan.binding).2.records := by
  have hwork : plan.binding.work = plan.work := hvalid.calls _ (List.mem_of_getElem? hcall)
  unfold scheduleCommit
  cases hcommit : commitLocked system.context system.impl plan.work plan.generation plan.binding with
  | error rejection => exact .refl
  | ok committed =>
    obtain ⟨work, hcheck, rfl⟩ := commitLocked_ok hcommit
    have hplaces := System.Places.schedule hcall hcheck
    rw [← hwork] at hcheck ⊢
    have hcommitted : Postings system.context.now allows system.impl.records
        (commitApply system.impl plan.binding.work work plan.binding).records := commit_postings hcheck (hcommits _ _ _ hplaces)
    simp only
    split <;> exact hcommitted

/-! ### Dispatch and observations -/

theorem dispatchCommit_postings (ctx : Context) {id : AssignmentId} {generation : AssignmentGeneration}
    (hrenews : allows (.renews impl.policy.assignmentLeaseTtlMs)) :
    Postings ctx.now allows impl.records (dispatchCommit ctx impl id generation).2.records := by
  unfold dispatchCommit
  cases hcheck : handoffCheck ctx impl id generation with
  | error rejection => exact .refl
  | ok record =>
    obtain ⟨hrecord, -, hstate, -⟩ := handoffCheck_ok hcheck
    have hactive : record.state.isActive := by
      rw [hstate]
      rfl
    simp only [records_revise, records_renewLease, records_setAssignment]
    exact Postings.single (.renew id record _ _ hrecord hactive rfl rfl rfl) hrenews

theorem acknowledge_postings (ctx : Context) {id : AssignmentId} {generation : AssignmentGeneration} {dispatchId : DispatchId}
    {dispatchGeneration : DispatchGeneration} {boot : AgentBootId} (hadvances : allows .advances)
    (hcloses : ∀ id' record, impl.assignments[id']? = some record →
      Operation.Drops ctx impl (.acknowledge id generation dispatchId dispatchGeneration boot) record →
        allows (.closes id' record)) :
    Postings ctx.now allows impl.records
      (acknowledge ctx.now impl id generation dispatchId dispatchGeneration boot).2.records := by
  refine observing_postings fun record hlookup => ?_
  have hrecord := lookupAssignment_stored hlookup
  split
  · exact .refl
  · next hidentified =>
    rw [not_or, not_not, not_not] at hidentified
    split
    · exact .refl
    · split
      · exact .refl
      · split
        · exact .refl
        · next hdispatched =>
          have hstate : record.state = .dispatched := by simpa using hdispatched
          split
          · next hlapsed =>
            refine (closeAssignment_ends rfl (by decide) (by decide) fun found hfound _ => ?_).chain
            obtain rfl : record = found := Option.some.inj (hrecord.symm.trans hfound)
            exact hcloses id record hrecord ⟨hlookup, hidentified.1, hidentified.2, hstate, by simpa using hlapsed⟩
          · rw [records_revise, records_setAssignment]
            refine Postings.single (.advance id record _ hrecord ?_ rfl rfl rfl) hadvances
            rw [hstate]
            rfl

theorem markExecuting_postings (ctx : Context) {id : AssignmentId} {generation : AssignmentGeneration} {boot : AgentBootId}
    (hadvances : allows .advances)
    (hcloses : ∀ id' record, impl.assignments[id']? = some record →
      Operation.Drops ctx impl (.markExecuting id generation boot) record → allows (.closes id' record)) :
    Postings ctx.now allows impl.records (markExecuting ctx.now impl id generation boot).2.records := by
  refine observing_postings fun record hlookup => ?_
  have hrecord := lookupAssignment_stored hlookup
  split
  · exact .refl
  · split
    · exact .refl
    · next hawaits =>
      have hstate : record.state = .acknowledged ∨ record.state = .dispatched ∨ record.state = .executing := by
        by_contra hnone
        simp only [not_or] at hnone
        exact hawaits hnone
      split
      · next hlapsed =>
        refine (closeAssignment_ends rfl (by decide) (by decide) fun found hfound _ => ?_).chain
        obtain rfl : record = found := Option.some.inj (hrecord.symm.trans hfound)
        exact hcloses id record hrecord ⟨hlookup, hstate, by simpa using hlapsed⟩
      · rw [records_revise, records_refreshWorkAccounting, records_setAssignment]
        refine Postings.single (.advance id record _ hrecord ?_ rfl rfl rfl) hadvances
        rcases hstate with hstate | hstate | hstate <;> rw [hstate] <;> rfl

theorem release_postings (ctx : Context) {id : AssignmentId} {generation : AssignmentGeneration} {boot : AgentBootId} {reason : Text}
    (hcloses : ∀ id' record, impl.assignments[id']? = some record →
      Operation.Drops ctx impl (.release id generation boot reason) record → allows (.closes id' record)) :
    Postings ctx.now allows impl.records (release ctx.now impl id generation boot reason).2.records := by
  refine observing_postings fun record hlookup => ?_
  have hrecord := lookupAssignment_stored hlookup
  split
  · exact .refl
  · next hopen =>
    rw [records_refreshAgentAccounting]
    refine (closeAssignment_ends rfl (by decide) (by decide) fun found hfound _ => ?_).chain
    obtain rfl : record = found := Option.some.inj (hrecord.symm.trans hfound)
    exact hcloses id record hrecord ⟨hlookup, by simpa using hopen⟩

/-- An outcome that is reported of an open assignment is counted for its agent, and its tenant gets its slot back. -/
private theorem conclude_postings {id : AssignmentId} {generation : AssignmentGeneration} {boot : AgentBootId}
    {record : AssignmentRecord} {state : AssignmentState} (reason : InvalidationReason) (detail : Text) (h : Consistent impl)
    (hsound : Sound impl.ledger) (hlookup : lookupAssignment impl id generation boot = .ok record)
    (hopen : record.state.isTerminal = false) (hterminal : state.isTerminal) (hconcludes : allows .concludes) :
    Postings ctx.now allows impl.records
      (((impl.records.close id (record.close ctx.now state reason detail)).countOutcome record.binding.agent state).release
        record.binding.work) := by
  obtain ⟨hrecord, -, -, -, agent, hagent, -⟩ := lookupAssignment_eq_ok.mp hlookup
  have hactive : record.state.isActive :=
    (h.assignmentState id record hrecord).resolve_right (by simp [hopen])
  obtain ⟨entry, hentry, hgeneration, -⟩ := (hsound id record hrecord).agent hactive
  have hsame : agent.entry = entry := by
    have hstored : impl.ledger.agents record.binding.agent = some agent.entry := by simp [Impl.ledger, hagent]
    exact Option.some.inj (hstored.symm.trans hentry)
  have hbrief : impl.records.agents record.binding.agent = some agent.brief := by simp [Impl.records, hagent]
  refine Postings.single (.conclude id record agent.brief state reason detail hrecord hopen hterminal hbrief ?_) hconcludes
  rw [← hgeneration, ← hsame]
  rfl

theorem completeAssignment_postings (ctx : Context) {id : AssignmentId} {generation : AssignmentGeneration} {boot : AgentBootId}
    (h : Consistent impl) (hsound : Sound impl.ledger) (hconcludes : allows .concludes) :
    Postings ctx.now allows impl.records (completeAssignment ctx.now impl id generation boot).2.records := by
  refine observing_postings fun record hlookup => ?_
  split
  · exact .refl
  · next hopen =>
    have hopen : record.state.isTerminal = false := by simpa using hopen
    rw [records_revise, records_releaseTenant, records_modifyQueue, records_settleIfIdle,
      records_countOutcome _ _ .completed fun _ => rfl, records_closeAssignment (lookupAssignment_stored hlookup) hopen]
    exact conclude_postings .workCompleted _ h hsound hlookup hopen rfl hconcludes

theorem failAssignment_postings (ctx : Context) {id : AssignmentId} {generation : AssignmentGeneration} {boot : AgentBootId} {reason : Text}
    (h : Consistent impl) (hsound : Sound impl.ledger) (hconcludes : allows .concludes) :
    Postings ctx.now allows impl.records (failAssignment ctx.now impl id generation boot reason).2.records := by
  refine observing_postings fun record hlookup => ?_
  split
  · exact .refl
  · next hopen =>
    have hopen : record.state.isTerminal = false := by simpa using hopen
    rw [records_revise, records_releaseTenant, records_modifyQueue, records_settleIfIdle,
      records_countOutcome _ _ .failed fun _ => rfl, records_closeAssignment (lookupAssignment_stored hlookup) hopen]
    exact conclude_postings .workFailed _ h hsound hlookup hopen rfl hconcludes

theorem rejectAssignment_postings (ctx : Context) {id : AssignmentId} {generation : AssignmentGeneration} {boot : AgentBootId} {reason : Text}
    (h : Consistent impl) (hsound : Sound impl.ledger) (hconcludes : allows .concludes) :
    Postings ctx.now allows impl.records (rejectAssignment ctx.now impl id generation boot reason).2.records := by
  refine observing_postings fun record hlookup => ?_
  split
  · exact .refl
  · next hopen =>
    have hopen : record.state.isTerminal = false := by simpa using hopen
    rw [records_revise, records_releaseTenant, records_modifyQueue,
      records_closeAssignment (lookupAssignment_stored hlookup) hopen]
    have hnone : ∀ records : Records, records.countOutcome record.binding.agent .invalidated = records := by
      intro records
      apply Records.ext <;> try rfl
      apply Function.update_eq_self_iff.mpr
      cases records.agents record.binding.agent <;> rfl
    rw [← hnone (impl.records.close _ _)]
    exact conclude_postings .rejected _ h hsound hlookup hopen rfl hconcludes

/-! ### Revalidation and lease expiry -/

/-- A revalidation pass of a sound instance only ends what waits for it. -/
private def EndsSoundly (ctx : Context) (allows : Occasion → Prop) (impl : Impl) (acc : RevalidationReport × Impl) : Prop :=
  impl.Ends ctx.now allows acc.2 ∧ Consistent acc.2 ∧ Sound acc.2.ledger

private theorem revalidateOne_ends {acc : RevalidationReport × Impl} (h : EndsSoundly ctx allows impl acc)
    (hcloses : ∀ id record, impl.assignments[id]? = some record → record.state = .revalidationRequired →
      allows (.closes id record))
    (id : AssignmentId) : EndsSoundly ctx allows impl (revalidateOne ctx acc id) := by
  refine ⟨h.1.trans ?_, Refines.sound (revalidateOne_refines ctx acc id) h.2⟩
  obtain ⟨report, current⟩ := acc
  obtain ⟨hends, -, hsound⟩ := h
  unfold revalidateOne
  cases hrecord : current.assignments[id]? with
  | none => simpa [hrecord] using Impl.Ends.refl current
  | some record =>
    simp only [hrecord]
    split
    · exact .refl current
    · next hwaits =>
      have hstate : record.state = .revalidationRequired := by simpa using hwaits
      cases hauthority : revalidateAuthority ctx current record with
      | error rejection =>
        refine closeAssignment_ends rfl (by decide) (by decide) fun found hfound hopen => ?_
        obtain rfl := Option.some.inj (hrecord.symm.trans hfound)
        exact hcloses id record (hends.leaves id record hrecord hopen) hstate
      | ok _ => exact (hsound.not_revalidated hrecord hstate hauthority).elim

private theorem revalidateAgentOne_ends {agent : AgentId} {boot : AgentBootId} {acc : RevalidationReport × Impl}
    (h : EndsSoundly ctx allows impl acc)
    (hcloses : ∀ id record, impl.assignments[id]? = some record → record.binding.agent = agent → record.binding.boot = boot →
      record.state = .revalidationRequired → allows (.closes id record))
    (id : AssignmentId) : EndsSoundly ctx allows impl (revalidateAgentOne ctx agent boot acc id) := by
  refine ⟨h.1.trans ?_, Refines.sound (revalidateAgentOne_refines ctx agent boot acc id) h.2⟩
  obtain ⟨report, current⟩ := acc
  obtain ⟨hends, -, hsound⟩ := h
  unfold revalidateAgentOne
  cases hrecord : current.assignments[id]? with
  | none => simpa [hrecord] using Impl.Ends.refl current
  | some record =>
    simp only [hrecord]
    split
    · exact .refl current
    · next hwaits =>
      simp only [not_or, not_not, ne_eq] at hwaits
      cases hauthority : revalidateAuthority ctx current record with
      | error rejection =>
        refine closeAssignment_ends rfl (by decide) (by decide) fun found hfound hopen => ?_
        obtain rfl := Option.some.inj (hrecord.symm.trans hfound)
        exact hcloses id record (hends.leaves id record hrecord hopen) hwaits.1 hwaits.2.1 hwaits.2.2
      | ok _ => exact (hsound.not_revalidated hrecord hwaits.2.2 hauthority).elim

private theorem revalidation_postings {turn : RevalidationReport × Impl → AssignmentId → RevalidationReport × Impl}
    (h : Consistent impl) (hsound : Sound impl.ledger)
    (hturn : ∀ acc id, EndsSoundly ctx allows impl acc → EndsSoundly ctx allows impl (turn acc id)) (ids : List AssignmentId) :
    Postings ctx.now allows impl.records (reviseIfExamined (ids.foldl turn ({}, impl))).2.records := by
  have hloop : EndsSoundly ctx allows impl (ids.foldl turn ({}, impl)) :=
    List.foldlRecOn (motive := EndsSoundly ctx allows impl) ids turn ⟨.refl impl, h, hsound⟩
      fun acc hacc id _ => hturn acc id hacc
  unfold reviseIfExamined
  simp only
  split <;> exact hloop.1.chain

theorem revalidateAssignments_postings (ctx : Context) (h : Consistent impl) (hsound : Sound impl.ledger)
    (hcloses : ∀ id record, impl.assignments[id]? = some record → Operation.Drops ctx impl .revalidateAssignments record →
      allows (.closes id record)) :
    Postings ctx.now allows impl.records (revalidateAssignments ctx impl).2.records :=
  revalidation_postings h hsound (fun _ id hacc => revalidateOne_ends hacc (fun id record hrecord hstate =>
    hcloses id record hrecord hstate) id) _

theorem revalidateAgentAssignments_postings (ctx : Context) {agent : AgentId} {boot : AgentBootId} (h : Consistent impl)
    (hsound : Sound impl.ledger)
    (hcloses : ∀ id record, impl.assignments[id]? = some record →
      Operation.Drops ctx impl (.revalidateAgentAssignments agent boot) record → allows (.closes id record)) :
    Postings ctx.now allows impl.records (revalidateAgentAssignments ctx impl agent boot).2.records := by
  unfold revalidateAgentAssignments
  cases hagent : impl.agents[agent]? with
  | none => exact .refl
  | some found =>
    simp only
    split
    · exact .refl
    · next hboot =>
      refine revalidation_postings h hsound (fun _ id hacc => revalidateAgentOne_ends hacc
        (fun id record hrecord hbound hbooted hstate => ?_) id) _
      exact hcloses id record hrecord ⟨⟨found, hagent, by simpa using hboot⟩, hbound, hbooted, hstate⟩

theorem expireLeases_postings (ctx : Context)
    (hcloses : ∀ id record, impl.assignments[id]? = some record → Operation.Drops ctx impl .expireLeases record →
      allows (.closes id record)) :
    Postings ctx.now allows impl.records (expireLeases ctx.now impl).2.records := by
  refine (closeWhere_ends impl rfl (by decide) (by decide) fun id record hrecord _ hselected => ?_).chain
  simp only [Bool.and_eq_true, decide_eq_true_eq] at hselected
  exact hcloses id record hrecord hselected

/-! ### Steps -/

/-- What a step may do to the records. -/
def System.Does (system : System) : Label → Occasion → Prop
  | .run operation, .closes id record =>
    system.impl.assignments[id]? = some record ∧ operation.Drops system.context system.impl record
  | .finish position, .closes id record =>
    system.impl.assignments[id]? = some record ∧ ∃ call ∈ system.calls[position]?, call.Drops system.impl record
  | .run (.publishLoad agent boot observation), .reportsLoad brief =>
    ∃ record observed, system.impl.agents[agent]? = some record ∧
      checkLoad system.now system.impl agent boot observation = .ok observed ∧ brief = record.brief
  | _, .reportsLoad _ => False
  | label, .commits impl work binding => system.Places label impl work binding
  | .finish position, .renews ttl =>
    ttl = system.impl.policy.assignmentLeaseTtlMs ∧ ∃ id generation, system.calls[position]? = some (.dispatch id generation)
  | _, .renews _ => False
  | .run (.completeAssignment _ _ _), .concludes | .run (.failAssignment _ _ _ _), .concludes
  | .run (.rejectAssignment _ _ _ _), .concludes => True
  | _, .concludes => False
  | _, .closes _ _ => False
  | _, _ => True

theorem System.Does.places {system : System} {label : Label} {impl : Impl} {work : WorkRecord} {binding : AssignmentBinding}
    (h : system.Does label (.commits impl work binding)) : system.Places label impl work binding := by
  cases label with
  | run operation => cases operation <;> exact h
  | _ => exact h

/-- What a step ends was stored before it. -/
theorem System.Does.stored {system : System} {label : Label} {id : AssignmentId} {record : AssignmentRecord}
    (h : system.Does label (.closes id record)) : system.impl.assignments[id]? = some record := by
  cases label with
  | run operation => cases operation <;> exact h.1
  | finish position => exact h.1
  | _ => exact h.elim

/-- The records of a fresh instance. -/
def Records.empty : Records where
  agents _ := none
  tenantOf _ := none
  assignments _ := none
  leases _ := none
  held _ := none

theorem records_rebuildIndexes (impl : Impl) : (rebuildIndexes impl).records = impl.records := by
  have hassignments : ∀ items impl, (List.foldl (fun impl entry => indexAssignment impl entry.2) impl
      (items : List (AssignmentId × AssignmentRecord))).records = impl.records :=
    foldl_project fun impl entry => records_indexAssignment impl entry.2
  have hwork : ∀ items impl, (List.foldl (fun impl entry => indexWork impl entry.2) impl
      (items : List (WorkId × WorkRecord))).records = impl.records := foldl_project fun _ _ => rfl
  have hagents : ∀ items impl, (List.foldl (fun impl entry => indexAgent impl entry.2) impl
      (items : List (AgentId × AgentRecord))).records = impl.records := foldl_project fun _ _ => rfl
  unfold rebuildIndexes
  simp only
  rw [hassignments, hwork, hagents]
  rfl

/-- A recovery leaves what it keeps of the records of the file. -/
theorem records_restore (impl file : Impl) : (restore impl (image file)).records = file.records.recover := by
  have hwork : ∀ items impl, (List.foldl refreshWorkAccounting impl items).records = impl.records :=
    foldl_project fun impl work => records_refreshWorkAccounting impl work
  have hagents : ∀ items impl, (List.foldl refreshAgentAccounting impl items).records = impl.records :=
    foldl_project fun impl agent => records_refreshAgentAccounting impl agent
  unfold restore
  simp only
  rw [records_revise, hwork, hagents, records_rebuildIndexes]
  apply Records.ext
  · funext agent
    change ((file.agents.map fun _ record => record.recover)[agent]?).map AgentRecord.brief =
      ((file.agents[agent]?).map AgentRecord.brief).map AgentBrief.recover
    rw [getElem?_map, Option.map_map, Option.map_map]
    rfl
  · funext work
    change ((file.work.map fun _ record => record.recover)[work]?).map (fun record => record.request.requirements.tenant) = _
    rw [getElem?_map, Option.map_map]
    rfl
  · funext id
    exact getElem?_map _ _ _
  · funext lease
    exact getElem?_map _ _ _
  · rfl

theorem records_construct {options : SchedulerOptions} {generatedId : SchedulerId} (h : construct options generatedId = some impl) :
    impl.records = .empty := by
  have hempty : ∀ impl : Impl, impl.agents = ∅ → impl.work = ∅ → impl.assignments = ∅ → impl.leases = ∅ → impl.tenants = ∅ →
      impl.records = .empty := by
    intro impl hagents hwork hassignments hleases htenants
    simp [Impl.records, Records.empty, hagents, hwork, hassignments, hleases, htenants]
  unfold construct at h
  simp only at h
  split at h
  · obtain rfl := Option.some.inj h
    split
    · rw [start_records]
      exact hempty _ rfl rfl rfl rfl rfl
    · exact hempty _ rfl rfl rfl rfl rfl
  · cases h

/-- An operation with one locked section is a chain of what it may do. -/
theorem runOperation_postings (hvalid : system.Valid) (operation : Operation) :
    Postings system.now (system.Does (.run operation)) system.impl.records
      (runOperation system.context system.impl operation).2.records := by
  have h := hvalid.healthy.consistent
  have hsound := hvalid.healthy.sound
  cases operation with
  | start => exact postings_of_eq (start_records _)
  | shutdown => exact shutdown_postings system.context fun id record hrecord hdrops => ⟨hrecord, hdrops⟩
  | setPolicy => exact setPolicy_postings system.context fun id record hrecord hdrops => ⟨hrecord, hdrops⟩
  | registerQueue => exact postings_of_eq (registerQueue_records _ _ _ _ _)
  | publishCapabilities => exact publishCapabilities_postings trivial trivial
  | publishHealth => exact publishHealth_postings trivial
  | publishAvailability => exact publishAvailability_postings trivial
  | publishLoad =>
    exact publishLoad_postings fun record observed hrecord hload => ⟨record, observed, hrecord, hload, rfl⟩
  | heartbeat => exact postings_of_eq (heartbeat_records _ _ _ _ _)
  | drainAgent => exact drainAgent_postings system.context fun id record hrecord hdrops => ⟨hrecord, hdrops⟩
  | deregisterAgent =>
    exact deregisterAgent_postings system.context trivial fun id record hrecord hdrops => ⟨hrecord, hdrops⟩
  | supersedeWork =>
    exact supersedeWork_postings system.context h trivial trivial fun id record hrecord hdrops => ⟨hrecord, hdrops⟩
  | expireDeadlines => exact expireDeadlines_postings system.context h fun id record hrecord hdrops => ⟨hrecord, hdrops⟩
  | scheduleBatch => exact scheduleBatch_postings hvalid fun _ _ _ hplaces => hplaces
  | acknowledge => exact acknowledge_postings system.context trivial fun id record hrecord hdrops => ⟨hrecord, hdrops⟩
  | markExecuting => exact markExecuting_postings system.context trivial fun id record hrecord hdrops => ⟨hrecord, hdrops⟩
  | release => exact release_postings system.context fun id record hrecord hdrops => ⟨hrecord, hdrops⟩
  | completeAssignment => exact completeAssignment_postings system.context h hsound trivial
  | failAssignment => exact failAssignment_postings system.context h hsound trivial
  | rejectAssignment => exact rejectAssignment_postings system.context h hsound trivial
  | revalidateAssignments =>
    exact revalidateAssignments_postings system.context h hsound fun id record hrecord hdrops => ⟨hrecord, hdrops⟩
  | revalidateAgentAssignments =>
    exact revalidateAgentAssignments_postings system.context h hsound fun id record hrecord hdrops => ⟨hrecord, hdrops⟩
  | expireLeases => exact expireLeases_postings system.context fun id record hrecord hdrops => ⟨hrecord, hdrops⟩

/-- So is the second section of a call. -/
theorem finishCall_postings {position : Nat} {call : Call} (hvalid : system.Valid)
    (hcall : system.calls[position]? = some call) :
    Postings system.now (system.Does (.finish position)) system.impl.records
      (finishCall system.context system.impl call).2.records := by
  have h := hvalid.healthy.consistent
  have hcloses : ∀ id record, system.impl.assignments[id]? = some record → call.Drops system.impl record →
      system.Does (.finish position) (.closes id record) :=
    fun id record hrecord hdrops => ⟨hrecord, call, hcall, hdrops⟩
  cases call with
  | schedule plan => exact scheduleCommit_postings hvalid hcall fun _ _ _ hplaces => hplaces
  | dispatch id generation => exact dispatchCommit_postings system.context ⟨rfl, id, generation, hcall⟩
  | registerAgent => exact registerAgentCommit_postings trivial hcloses
  | submitWork => exact submitWorkCommit_postings h trivial trivial hcloses
  | cancelWork => exact cancelWorkCommit_postings hcloses
  | declareAgentLost => exact declareAgentLostCommit_postings trivial hcloses

/-- Every step recovers the records of a file, starts them over, or changes them as it may. -/
theorem System.step_records {after : System} {label : Label} {reply : Reply} (hvalid : system.Valid)
    (hstep : system.step label = some (reply, after)) :
    (∃ position file, label = .load position ∧ system.saved[position]? = some file ∧
      after.impl.records = file.records.recover) ∨
    (∃ options generatedId, label = .restart options generatedId ∧ after.impl.records = .empty) ∨
    Postings system.now (system.Does label) system.impl.records after.impl.records := by
  cases label with
  | tick now =>
    simp only [System.step] at hstep
    split at hstep
    · obtain ⟨-, rfl⟩ := Option.some.inj hstep
      exact .inr (.inr .refl)
    · cases hstep
  | provide feasibility =>
    obtain ⟨-, rfl⟩ := Option.some.inj hstep
    exact .inr (.inr .refl)
  | run operation =>
    obtain ⟨-, rfl⟩ := Option.some.inj hstep
    exact .inr (.inr (runOperation_postings hvalid operation))
  | «begin» request =>
    simp only [System.step] at hstep
    split at hstep <;> obtain ⟨-, rfl⟩ := Option.some.inj hstep <;> exact .inr (.inr .refl)
  | finish position =>
    simp only [System.step] at hstep
    split at hstep
    · cases hstep
    · next call hcall =>
      obtain ⟨-, rfl⟩ := Option.some.inj hstep
      exact .inr (.inr (finishCall_postings hvalid hcall))
  | save =>
    obtain ⟨-, rfl⟩ := Option.some.inj hstep
    exact .inr (.inr .refl)
  | load position =>
    simp only [System.step] at hstep
    split at hstep
    · cases hstep
    · next file hfile =>
      split at hstep
      · obtain ⟨-, rfl⟩ := Option.some.inj hstep
        exact .inr (.inr .refl)
      · obtain ⟨-, rfl⟩ := Option.some.inj hstep
        exact .inl ⟨position, file, rfl, hfile, records_restore system.impl file⟩
  | restart options generatedId =>
    simp only [System.step, Option.map_eq_some_iff] at hstep
    obtain ⟨impl, hconstruct, heq⟩ := hstep
    obtain ⟨-, rfl⟩ := heq
    exact .inr (.inl ⟨options, generatedId, rfl, records_construct hconstruct⟩)

/-- What holds of no records, outlasts a recovery and every chain of changes a step may make, holds of a reachable instance
and its files. -/
theorem System.ReachableBy.chains {allowed : System → Label → Prop} {motive : Records → Prop} (h : system.ReachableBy allowed)
    (hempty : motive .empty) (hrecover : ∀ records, motive records → motive records.recover)
    (hchain : ∀ (s : System) label records', s.ReachableBy allowed → allowed s label →
      Postings s.now (s.Does label) s.impl.records records' → motive s.impl.records → motive records') :
    motive system.impl.records ∧ ∀ file ∈ system.saved, motive file.records := by
  refine (System.ReachableBy.keeps (motive := fun system => system.ReachableBy allowed ∧ motive system.impl.records ∧
    ∀ file ∈ system.saved, motive file.records) h (fun start hstart => ?_) fun s s' label reply hvalid hallowed hs hinv =>
      ⟨hinv.1.trans (.single ⟨label, reply, hallowed, hs⟩), ?_, fun file hfile => ?_⟩).2
  · refine ⟨⟨start, hstart, .refl⟩, ?_⟩
    obtain ⟨options, generatedId, now, hstart⟩ := hstart
    obtain ⟨impl, hconstructed, rfl⟩ := Option.map_eq_some_iff.mp hstart
    exact ⟨records_construct hconstructed ▸ hempty, fun _ hfile => (List.not_mem_nil hfile).elim⟩
  · obtain ⟨hreach, himpl, hsaved⟩ := hinv
    rcases System.step_records hvalid hs with ⟨position, file, -, hfile, hrecords⟩ | ⟨options, id, -, hrecords⟩ | hpostings
    · rw [hrecords]
      exact hrecover _ (hsaved file (List.mem_of_getElem? hfile))
    · rw [hrecords]
      exact hempty
    · exact hchain s label _ hreach hallowed hpostings himpl
  · rcases (System.step_frame hs).saved file hfile with hold | rfl
    · exact hinv.2.2 file hold
    · exact hinv.2.1

/-- What every single change keeps, a chain of them keeps. -/
theorem System.ReachableBy.records {allowed : System → Label → Prop} {motive : Records → Prop} (h : system.ReachableBy allowed)
    (hempty : motive .empty) (hrecover : ∀ records, motive records → motive records.recover)
    (hposting : ∀ (s : System) label occasion records records', s.ReachableBy allowed → allowed s label →
      s.Does label occasion → Posting s.now occasion records records' → motive records → motive records') :
    motive system.impl.records ∧ ∀ file ∈ system.saved, motive file.records := by
  refine h.chains hempty hrecover fun s label records' hreach hallowed hchain hmotive => ?_
  exact hchain.keeps (fun occasion records records' hdoes hstep => hposting s label occasion records records' hreach hallowed
    hdoes hstep) hmotive

end Steps

end AgentScheduler
