import AgentScheduler.Standing

/-! Failures: which operations fail without effect, and when a failed admission leaves something behind. -/
namespace AgentScheduler
open Std KeyedTable Relation

/-- A failed section leaves the instance as it found it. -/
def Inert (impl : Impl) (step : Step) : Prop := ∀ error, step.1 = .error error → step.2 = impl

section Sections
variable {impl : Impl} {now : UInt64}

theorem Inert.succeeds {impl' : Impl} : Inert impl (.ok (), impl') := fun _ h => nomatch h

theorem Inert.unchanged {result : MutationResult} : Inert impl (result, impl) := fun _ _ => rfl

theorem Inert.guarded {Found : Type} {check : Except SchedulerError Found} {body : Found → Step}
    (h : ∀ found, Inert impl (body found)) : Inert impl (guarded impl check body) := by
  cases check with
  | error error => exact Inert.unchanged
  | ok found => exact h found

theorem Inert.observing {operation : Text} {id : AssignmentId} {generation : AssignmentGeneration}
    {boot : AgentBootId} {body : AssignmentRecord → Step} (h : ∀ record, Inert impl (body record)) :
    Inert impl (observing impl operation id generation boot body) := by
  unfold AgentScheduler.observing
  split
  · exact Inert.unchanged
  · exact h _

theorem setPolicy_inert (policy : PolicySnapshot) : Inert impl (setPolicy now impl policy) := by
  refine Inert.guarded fun install => ?_
  split
  · exact Inert.succeeds
  · exact Inert.succeeds

theorem registerQueue_inert (queue : QueueId) (generation : QueueGeneration) (fairnessClass : Text)
    (weight : UInt32) : Inert impl (registerQueue impl queue generation fairnessClass weight) := by
  refine Inert.guarded fun _ => ?_
  split
  · split
    · exact Inert.unchanged
    · exact Inert.succeeds
  · split
    · exact Inert.unchanged
    · split
      · split <;> exact Inert.unchanged
      · exact Inert.succeeds

theorem registerAgentCommit_inert (descriptor : AgentDescriptor) : Inert impl (registerAgentCommit now impl descriptor) := by
  unfold registerAgentCommit
  simp only
  split
  · refine Inert.guarded fun _ => ?_
    split <;> exact Inert.succeeds
  · exact Inert.guarded fun _ => Inert.succeeds

theorem publishCapabilities_inert (agent : AgentId) (boot : AgentBootId) (profile : CapabilityProfile) :
    Inert impl (publishCapabilities now impl agent boot profile) := by
  refine Inert.guarded fun published => ?_
  split <;> exact Inert.succeeds

theorem declareAgentLostCommit_inert (agent : AgentId) (boot : AgentBootId) (reason : Text) :
    Inert impl (declareAgentLostCommit now impl agent boot reason) := by
  unfold declareAgentLostCommit
  split
  · exact Inert.succeeds
  · split <;> exact Inert.succeeds

theorem cancelWorkCommit_inert (work : WorkId) (generation : WorkGeneration) (reason : Text) :
    Inert impl (cancelWorkCommit now impl work generation reason) := by
  refine Inert.guarded fun _ => ?_
  split
  · exact Inert.succeeds
  · split
    · exact Inert.unchanged
    · exact Inert.succeeds

theorem shutdown_inert : Inert impl (shutdown now impl) := by
  unfold shutdown
  split <;> exact Inert.succeeds

theorem start_inert : Inert impl (start impl) := by
  unfold start
  split <;> exact Inert.succeeds

/-- `release`, `complete_assignment`, `fail_assignment` and `reject_assignment` succeed once the record is found. -/
private theorem ending_inert {operation : Text} {id : AssignmentId} {generation : AssignmentGeneration}
    {boot : AgentBootId} {ending : AssignmentRecord → Impl} :
    Inert impl (observing impl operation id generation boot fun record =>
      if record.state.isTerminal then (.ok (), impl) else (.ok (), ending record)) := by
  refine Inert.observing fun record => ?_
  split <;> exact Inert.succeeds

/-- A section that fails either leaves the instance alone or has found a lease that ran out. -/
def ExpiresOrInert (now : UInt64) (impl : Impl) (id : AssignmentId) (step : Step) : Prop :=
  ∀ error, step.1 = .error error → (error.code ≠ .leaseExpired ∧ step.2 = impl) ∨
    (error.code = .leaseExpired ∧ ∃ detail, step.2 = closeAssignment now impl id .expired .leaseExpired detail)

private theorem ExpiresOrInert.refuses {id : AssignmentId} {code : ErrorCode} {operation subject detail : Text}
    {outcome : ScheduleOutcome} (h : code ≠ .leaseExpired) :
    ExpiresOrInert now impl id (.error (makeError code operation subject detail outcome), impl) := by
  rintro error herror
  obtain rfl := Except.error.inj herror
  exact .inl ⟨h, rfl⟩

private theorem ExpiresOrInert.succeeds {id : AssignmentId} {impl' : Impl} :
    ExpiresOrInert now impl id (.ok (), impl') := fun _ h => nomatch h

private theorem ExpiresOrInert.expires {id : AssignmentId} {operation closed reported : Text} :
    ExpiresOrInert now impl id (expireObserved now impl operation id closed reported) := by
  rintro error herror
  obtain rfl := Except.error.inj herror
  exact .inr ⟨rfl, closed, rfl⟩

theorem acknowledge_expires (id : AssignmentId) (generation : AssignmentGeneration) (dispatchId : DispatchId)
    (dispatchGeneration : DispatchGeneration) (boot : AgentBootId) :
    ExpiresOrInert now impl id (acknowledge now impl id generation dispatchId dispatchGeneration boot) := by
  unfold acknowledge observing
  simp only
  split
  · exact ExpiresOrInert.refuses nofun
  · split
    · exact ExpiresOrInert.refuses nofun
    · split
      · exact ExpiresOrInert.succeeds
      · split
        · exact ExpiresOrInert.refuses nofun
        · split
          · exact ExpiresOrInert.refuses nofun
          · split
            · exact ExpiresOrInert.expires
            · exact ExpiresOrInert.succeeds

theorem markExecuting_expires (id : AssignmentId) (generation : AssignmentGeneration) (boot : AgentBootId) :
    ExpiresOrInert now impl id (markExecuting now impl id generation boot) := by
  unfold markExecuting observing
  simp only
  split
  · exact ExpiresOrInert.refuses nofun
  · split
    · exact ExpiresOrInert.refuses nofun
    · split
      · exact ExpiresOrInert.refuses nofun
      · split
        · exact ExpiresOrInert.expires
        · exact ExpiresOrInert.succeeds

end Sections

/-! ### Failing steps -/

/-- A reply that reports a failure: an error, no handoff, or no assignment. -/
def Reply.Fails : Reply → Prop
  | .mutation result => ∃ error, result = .error error
  | .dispatch result => result.handoff = none
  | .decision made => made.outcome ≠ .assigned
  | .batch _ | .report _ | .recovered .. | .pending => False

/-- The step is the admitting section of `submit_work` or `supersede_work`. -/
def System.Admits (system : System) : Label → Prop
  | .run (.supersedeWork ..) => True
  | .finish position => ∃ request, system.calls[position]? = some (.submitWork request)
  | _ => False

/-- The step is `acknowledge` or `mark_executing` of an assignment. -/
def Label.Progresses (id : AssignmentId) : Label → Prop
  | .run (.acknowledge assignment ..) => assignment = id
  | .run (.markExecuting assignment ..) => assignment = id
  | _ => False

section Steps
variable {system after : System} {label : Label} {reply : Reply}

/-- Every plan in flight has decided for an assignment. -/
def PlansAssigned (system : System) : Prop :=
  ∀ plan, .schedule plan ∈ system.calls → plan.decision.outcome = .assigned

theorem planLocked_assigned {ctx : Context} {impl : Impl} {work : WorkRecord} {binding : AssignmentBinding}
    (h : (planLocked ctx impl work).binding = some binding) : (planLocked ctx impl work).decision.outcome = .assigned := by
  unfold planLocked at h ⊢
  simp only at h ⊢
  split at h
  · cases h
  · split at h
    · cases h
    · split at h
      · cases h
      · rfl

private theorem beginCall_assigned {ctx : Context} {impl : Impl} {era : Nat} {request : Request} {plan : Plan}
    (h : beginCall ctx impl era request = .inr (.schedule plan)) : plan.decision.outcome = .assigned := by
  cases request with
  | schedule work generation =>
    simp only [beginCall] at h
    split at h
    · cases h
    · next binding hbinding =>
      obtain rfl := Call.schedule.inj (Sum.inr.inj h)
      unfold scheduleBegin at hbinding ⊢
      split at hbinding
      · cases hbinding
      · split at hbinding
        · cases hbinding
        · next hgeneration =>
          simp only [if_neg hgeneration]
          exact planLocked_assigned hbinding
  | dispatch | registerAgent | submitWork | cancelWork | declareAgentLost =>
    simp only [beginCall] at h
    split at h <;> cases h

theorem System.Reachable.plansAssigned (h : system.Reachable) : PlansAssigned system := by
  refine System.ReachableBy.keeps (motive := PlansAssigned) h (fun start hstart plan hplan => ?_)
    fun s s' label reply _ _ hstep hinv plan hplan => ?_
  · obtain ⟨options, generatedId, now, hstart⟩ := hstart
    obtain ⟨impl, -, rfl⟩ := Option.map_eq_some_iff.mp hstart
    exact (List.not_mem_nil hplan).elim
  · rcases (System.step_frame hstep).calls _ hplan with hold | ⟨-, -, request, hbegin⟩
    · exact hinv plan hold
    · exact beginCall_assigned hbegin

/-- The single-section operations other than supersession and the two that advance an assignment. -/
private theorem runOperation_inert {ctx : Context} {impl : Impl} {operation : Operation} {error : SchedulerError}
    (hadmits : ¬system.Admits (.run operation)) (hprogress : ∀ id, ¬(Label.run operation).Progresses id)
    (h : (runOperation ctx impl operation).1 = .mutation (.error error)) : (runOperation ctx impl operation).2 = impl := by
  have hlift : ∀ step : Step, Inert impl step → (Prod.map Reply.mutation id step).1 = .mutation (.error error) →
      (Prod.map Reply.mutation id step).2 = impl := fun step hstep herror => hstep error (Reply.mutation.inj herror)
  cases operation with
  | start => exact hlift _ start_inert h
  | shutdown => exact hlift _ shutdown_inert h
  | setPolicy policy => exact hlift _ (setPolicy_inert policy) h
  | registerQueue queue generation fairnessClass weight =>
    exact hlift _ (registerQueue_inert queue generation fairnessClass weight) h
  | publishCapabilities agent boot profile => exact hlift _ (publishCapabilities_inert agent boot profile) h
  | publishHealth | publishAvailability | publishLoad | heartbeat | drainAgent | deregisterAgent =>
    exact hlift _ (Inert.guarded fun _ => Inert.succeeds) h
  | supersedeWork => exact (hadmits trivial).elim
  | expireDeadlines | expireLeases => cases h
  | acknowledge id => exact (hprogress id rfl).elim
  | markExecuting id => exact (hprogress id rfl).elim
  | release | completeAssignment | failAssignment | rejectAssignment => exact hlift _ ending_inert h
  | scheduleBatch | revalidateAssignments | revalidateAgentAssignments => cases h

/-- The second section of a call other than an admission. -/
private theorem finishCall_inert {ctx : Context} {impl : Impl} {call : Call} (hadmits : ∀ request, call ≠ .submitWork request)
    (hplans : ∀ plan, call = .schedule plan → plan.decision.outcome = .assigned)
    (h : (finishCall ctx impl call).1.Fails) : (finishCall ctx impl call).2 = impl := by
  cases call with
  | schedule plan =>
    simp only [finishCall, scheduleCommit, Prod.map] at h ⊢
    split
    · rfl
    · next impl' hcommit =>
      have hassigned := hplans plan rfl
      simp only [hcommit] at h
      split at h <;> exact absurd hassigned h
  | dispatch assignment generation =>
    simp only [finishCall, dispatchCommit, Prod.map] at h ⊢
    split
    · rfl
    · next record hcheck =>
      simp only [hcheck] at h
      cases h
  | registerAgent descriptor =>
    obtain ⟨error, herror⟩ := h
    exact registerAgentCommit_inert descriptor error herror
  | submitWork request => exact (hadmits request rfl).elim
  | cancelWork work generation reason =>
    obtain ⟨error, herror⟩ := h
    exact cancelWorkCommit_inert work generation reason error herror
  | declareAgentLost agent boot reason =>
    obtain ⟨error, herror⟩ := h
    exact declareAgentLostCommit_inert agent boot reason error herror

end Steps

/-- A failing step changes nothing, admissions aside. Only `acknowledge` and `mark_executing` may close the assignment
they name, and only when they report that its lease has run out. -/
theorem failure_changes_nothing : ∀ (system after : System) label reply, system.Reachable →
    system.step label = some (reply, after) → reply.Fails → ¬system.Admits label →
    (after.impl = system.impl ∨ ∃ id, label.Progresses id) ∧
    ∀ id, label.Progresses id → ∃ error, reply = .mutation (.error error) ∧
      (error.code ≠ .leaseExpired → after.impl = system.impl) ∧
      (error.code = .leaseExpired → ∃ detail,
        after.impl = closeAssignment system.now system.impl id .expired .leaseExpired detail) := by
  intro system after label reply hreachable hstep hfails hadmits
  by_cases hprogress : ∃ id, label.Progresses id
  · refine ⟨.inr hprogress, fun id hid => ?_⟩
    have hrun : ∃ step : Step, ExpiresOrInert system.now system.impl id step ∧
        (reply, after.impl) = (Reply.mutation step.1, step.2) := by
      cases label with
      | run operation =>
        obtain ⟨rfl, rfl⟩ := Prod.mk.inj (Option.some.inj hstep)
        cases operation with
        | acknowledge assignment generation dispatchId dispatchGeneration boot =>
          obtain rfl : assignment = id := hid
          exact ⟨_, acknowledge_expires assignment generation dispatchId dispatchGeneration boot, rfl⟩
        | markExecuting assignment generation boot =>
          obtain rfl : assignment = id := hid
          exact ⟨_, markExecuting_expires assignment generation boot, rfl⟩
        | _ => exact hid.elim
      | _ => exact hid.elim
    obtain ⟨step, hexpires, heq⟩ := hrun
    obtain ⟨rfl, himpl⟩ := Prod.mk.inj heq
    obtain ⟨error, herror⟩ := hfails
    refine ⟨error, by rw [herror], fun hcode => ?_, fun hcode => ?_⟩
    · rcases hexpires error herror with ⟨-, hsame⟩ | ⟨hexpired, -⟩
      · exact himpl.trans hsame
      · exact (hcode hexpired).elim
    · rcases hexpires error herror with ⟨hother, -⟩ | ⟨-, detail, hclosed⟩
      · exact (hother hcode).elim
      · exact ⟨detail, himpl.trans hclosed⟩
  · refine ⟨.inl ?_, fun id hid => (hprogress ⟨id, hid⟩).elim⟩
    cases label with
    | tick now =>
      simp only [System.step] at hstep
      split at hstep
      · obtain ⟨-, rfl⟩ := Prod.mk.inj (Option.some.inj hstep)
        rfl
      · cases hstep
    | provide | save =>
      obtain ⟨-, rfl⟩ := Prod.mk.inj (Option.some.inj hstep)
      rfl
    | «begin» request =>
      simp only [System.step] at hstep
      split at hstep
      all_goals
        obtain ⟨-, rfl⟩ := Prod.mk.inj (Option.some.inj hstep)
        rfl
    | run operation =>
      obtain ⟨rfl, rfl⟩ := Prod.mk.inj (Option.some.inj hstep)
      have herror : ∃ error, (runOperation system.context system.impl operation).1 = .mutation (.error error) := by
        cases operation
        case scheduleBatch | revalidateAssignments | revalidateAgentAssignments => exact hfails.elim
        all_goals
          obtain ⟨error, herror⟩ := hfails
          exact ⟨error, congrArg Reply.mutation herror⟩
      obtain ⟨error, herror⟩ := herror
      exact runOperation_inert hadmits (fun id hid => hprogress ⟨id, hid⟩) herror
    | finish position =>
      simp only [System.step] at hstep
      split at hstep
      · cases hstep
      · next call hcall =>
        obtain ⟨rfl, rfl⟩ := Prod.mk.inj (Option.some.inj hstep)
        refine finishCall_inert (fun request heq => hadmits ⟨request, heq ▸ hcall⟩) (fun plan heq => ?_) hfails
        exact hreachable.plansAssigned plan (heq ▸ List.mem_of_getElem? hcall)
    | load position =>
      simp only [System.step] at hstep
      repeat' split at hstep
      · cases hstep
      · obtain ⟨-, rfl⟩ := Prod.mk.inj (Option.some.inj hstep)
        rfl
      · obtain ⟨rfl, -⟩ := Prod.mk.inj (Option.some.inj hstep)
        exact hfails.elim
    | restart options generatedId =>
      obtain ⟨_, -, heq⟩ := Option.map_eq_some_iff.mp hstep
      obtain ⟨rfl, -⟩ := Prod.mk.inj heq
      exact hfails.elim

/-- An assignment is dispatched, and its lease runs out. -/
def Sample.lapsed : Option (System × AssignmentBinding) := do
  let (_, binding, handed) ← dispatched []
  let system ← handed.perform (fun _ _ => True) [.tick 130000]
  return (system, binding)

/-- The error of a reply. -/
def Sample.errorOf : Reply → Option ErrorCode
  | .mutation (.error error) => some error.code
  | _ => none

theorem Sample.of_error {reply : Reply} {code : ErrorCode} (h : errorOf reply = some code) :
    ∃ error, reply = .mutation (.error error) ∧ error.code = code := by
  cases reply with
  | mutation result =>
    cases result with
    | error error => exact ⟨error, rfl, Option.some.inj h⟩
    | ok _ => cases h
  | decision | batch | dispatch | report | recovered | pending => cases h

set_option maxRecDepth 100000 in
/-- An acknowledgement that comes after the lease closes the assignment and reports it. -/
theorem failure_changes_nothing_sample : ∃ (system after : System) (label : Label) (reply : Reply) (id : AssignmentId) (detail : Text),
    system.step label = some (reply, after) ∧ reply.Fails ∧ label.Progresses id ∧
      after.impl = closeAssignment system.now system.impl id .expired .leaseExpired detail := by
  have hview : Sample.lapsed.map (fun found => (found.1.step (.run (.acknowledge found.2.id found.2.generation
      found.2.dispatch found.2.dispatchGeneration Sample.boot))).map fun answer => Sample.errorOf answer.1) =
      some (some (some .leaseExpired)) := by decide +kernel
  obtain ⟨⟨system, binding⟩, hrun, hview⟩ := Option.map_eq_some_iff.mp hview
  obtain ⟨⟨reply, after⟩, hstep, hview⟩ := Option.map_eq_some_iff.mp hview
  obtain ⟨error, rfl, hcode⟩ := Sample.of_error hview
  simp only [Sample.lapsed, bind, Option.bind_eq_some_iff] at hrun
  obtain ⟨⟨ready, binding', handed⟩, hdispatched, system', hticked, heq⟩ := hrun
  obtain ⟨rfl, rfl⟩ := by simpa only [pure, Option.some.injEq, Prod.mk.injEq] using heq
  obtain ⟨hready, result, hhanded, -⟩ := Sample.dispatched_spec hdispatched
  have hreached : system'.Reachable :=
    System.ReachableBy.trans (hready.trans (.single ⟨_, _, trivial, hhanded⟩)) (System.perform_runs hticked)
  obtain ⟨-, hprogress⟩ := failure_changes_nothing system' after _ _ hreached hstep ⟨error, rfl⟩ (by rintro ⟨⟩)
  obtain ⟨error', herror, -, hexpired⟩ := hprogress binding'.id rfl
  obtain rfl := Except.error.inj (Reply.mutation.inj herror)
  obtain ⟨detail, hclosed⟩ := hexpired hcode
  exact ⟨system', after, _, _, binding'.id, detail, hstep, ⟨error, rfl⟩, rfl, hclosed⟩

/-! ### Admissions -/

/-- What closing assignments and replacing a work item leave alone: limits, policy, queues, tenants, and the sequence. -/
def Impl.admission (impl : Impl) : ResourceLimits × PolicySnapshot × Table QueueId QueueRecord ×
    Table TenantId TenantRecord × Nat :=
  (impl.limits, impl.policy, impl.queues, impl.tenants, impl.nextAdmissionSequence)

section Admission
variable {impl : Impl} {now : UInt64}

theorem admission_closeWhere (now : UInt64) (impl : Impl) (selected : AssignmentRecord → Bool) (state : AssignmentState)
    (reason : InvalidationReason) (detail : Text) :
    (closeWhere now impl selected state reason detail).admission = impl.admission := by
  have hframe := congrArg Impl.admission (frame_closeWhere now impl selected state reason detail)
  exact hframe

/-- The queue of a request takes it: it is known at no higher generation, or there is room for another queue. -/
def Impl.QueueReady (impl : Impl) (request : WorkRequest) : Prop :=
  match impl.queues[request.queue]? with
  | none => impl.queues.size < impl.limits.maxQueues.toNat
  | some queue => ¬request.queueGeneration < queue.generation

/-- The tenant of a request takes it: it is none, or known, or there is room for another tenant. -/
def Impl.TenantReady (impl : Impl) (tenant : TenantId) : Prop :=
  tenant.isZero ∨ impl.tenants.contains tenant ∨ impl.tenants.size < impl.limits.maxTenants.toNat

/-- The queue and the tenant of a request take it. -/
def Impl.RoomFor (impl : Impl) (request : WorkRequest) : Prop :=
  impl.QueueReady request ∧ impl.TenantReady request.requirements.tenant

theorem ensureQueue_ready (impl : Impl) (request : WorkRequest) :
    (∃ queued, ensureQueue impl request = .ok queued) ↔ impl.QueueReady request := by
  unfold ensureQueue Impl.QueueReady
  cases impl.queues[request.queue]? with
  | none =>
    by_cases hfull : impl.limits.maxQueues.toNat ≤ impl.queues.size
    · simp [hfull]
    · simp [hfull, Nat.lt_of_not_le hfull]
  | some queue =>
    by_cases hstale : request.queueGeneration < queue.generation
    · simp [hstale]
    · by_cases hnewer : queue.generation < request.queueGeneration <;> simp [hstale, hnewer]

theorem ensureQueue_frame {impl queued : Impl} {request : WorkRequest} (h : ensureQueue impl request = .ok queued) :
    queued.limits = impl.limits ∧ queued.tenants = impl.tenants ∧
      queued.nextAdmissionSequence = impl.nextAdmissionSequence := by
  unfold ensureQueue at h
  split at h
  · split at h
    · cases h
    · obtain rfl := Except.ok.inj h
      exact ⟨rfl, rfl, rfl⟩
  · split at h
    · cases h
    · split at h
      all_goals
        obtain rfl := Except.ok.inj h
        exact ⟨rfl, rfl, rfl⟩

theorem ensureTenant_ready (impl : Impl) (tenant : TenantId) :
    (∃ ready, ensureTenant impl tenant = .ok ready) ↔ impl.TenantReady tenant := by
  unfold ensureTenant Impl.TenantReady
  by_cases hzero : tenant.isZero
  · simp [hzero]
  · by_cases hknown : impl.tenants.contains tenant
    · simp [hzero, hknown]
    · by_cases hfull : impl.limits.maxTenants.toNat ≤ impl.tenants.size
      · simp [hzero, hknown, hfull]
      · simp [hzero, hknown, hfull, Nat.lt_of_not_le hfull]

theorem checkResubmission_reopens (canonical : WorkRequest) (existing : WorkRecord) (detail : Text) :
    checkResubmission canonical existing detail = .ok .reopen ↔ existing.request.generation < canonical.generation := by
  refine ⟨checkResubmission_reopen, fun hnewer => ?_⟩
  have hnotstale : ¬canonical.generation < existing.request.generation := fun hlt => UInt64.lt_asymm hnewer hlt
  have hmoved : canonical.generation ≠ existing.request.generation := fun heq => by
    rw [heq] at hnewer
    exact UInt64.lt_irrefl _ hnewer
  simp [checkResubmission, rejectIf, hnotstale, hmoved]

/-- Admission fails at the queue or the tenant, with the admission sequence as it was, or succeeds. -/
theorem withQueueAndTenant_result (impl : Impl) (request : WorkRequest) (body : Impl → Impl) :
    (impl.RoomFor request → (withQueueAndTenant impl request body).1 = .ok ()) ∧
    (¬impl.RoomFor request → (∃ error, (withQueueAndTenant impl request body).1 = .error error) ∧
      (withQueueAndTenant impl request body).2.nextAdmissionSequence = impl.nextAdmissionSequence) := by
  unfold withQueueAndTenant Impl.RoomFor
  rw [← ensureQueue_ready]
  cases hqueued : ensureQueue impl request with
  | error error => simp
  | ok queued =>
    obtain ⟨hlimits, htenants, hsequence⟩ := ensureQueue_frame hqueued
    have hsame : impl.TenantReady request.requirements.tenant ↔ queued.TenantReady request.requirements.tenant := by
      unfold Impl.TenantReady
      rw [hlimits, htenants]
    rw [hsame, ← ensureTenant_ready]
    cases hensured : ensureTenant queued request.requirements.tenant with
    | error error => simp [hensured, hsequence]
    | ok ready => simp [hensured]

/-- Replacing work touches neither the queues nor the tenants, and takes a sequence number. -/
theorem replaceWork_keeps (impl : Impl) (request : WorkRequest) (existing : WorkRecord) (reason : Text) (now : UInt64) :
    (replaceWork now impl request existing reason).limits = impl.limits ∧
      (replaceWork now impl request existing reason).policy = impl.policy ∧
      (replaceWork now impl request existing reason).queues = impl.queues ∧
      (replaceWork now impl request existing reason).tenants = impl.tenants ∧
      (replaceWork now impl request existing reason).nextAdmissionSequence = impl.nextAdmissionSequence + 1 := by
  have hclosed := admission_closeWhere now impl
    (fun record => record.binding.work = request.id && record.state.isActive) .superseded .workSuperseded
    "work generation was superseded"
  unfold replaceWork closeWork
  generalize closeWhere now impl _ _ _ _ = closed at hclosed ⊢
  simp only [Impl.admission, Prod.mk.injEq] at hclosed
  obtain ⟨hlimits, hpolicy, hqueues, htenants, hsequence⟩ := hclosed
  exact ⟨hlimits, hpolicy, hqueues, htenants, congrArg (· + 1) hsequence⟩

theorem roomFor_of_admission {impl' : Impl} {request : WorkRequest} (hlimits : impl'.limits = impl.limits)
    (hqueues : impl'.queues = impl.queues) (htenants : impl'.tenants = impl.tenants) :
    impl'.RoomFor request ↔ impl.RoomFor request := by
  unfold Impl.RoomFor Impl.QueueReady Impl.TenantReady
  rw [hlimits, hqueues, htenants]

/-- An admission that took a sequence number fails without effect exactly when it does not fail. -/
private theorem inert_withQueueAndTenant {impl' : Impl} {request : WorkRequest} {body : Impl → Impl}
    (hsequence : impl'.nextAdmissionSequence = impl.nextAdmissionSequence + 1) :
    Inert impl (withQueueAndTenant impl' request body) ↔ impl'.RoomFor request := by
  obtain ⟨hroom, hfull⟩ := withQueueAndTenant_result impl' request body
  refine ⟨fun hinert => ?_, fun hready error herror => ?_⟩
  · by_contra hnot
    obtain ⟨⟨error, herror⟩, hkept⟩ := hfull hnot
    rw [hinert error herror] at hkept
    rw [hsequence] at hkept
    exact Nat.succ_ne_self _ hkept.symm
  · rw [hroom hready] at herror
    cases herror

end Admission

/-- Where the second section of `submit_work` gets past its checks, there is room for the queue and the tenant. -/
def Impl.SubmitReady (impl : Impl) (request : WorkRequest) : Prop :=
  impl.admissionOpen →
    match impl.work[request.id]? with
    | none => impl.work.size < impl.limits.maxWorkItems.toNat → impl.RoomFor request
    | some existing => existing.request.generation < request.generation → impl.RoomFor request

/-- Where `supersede_work` gets past its checks, there is room for the queue and the tenant. -/
def Impl.SupersedeReady (impl : Impl) (work : WorkId) (expectedGeneration : WorkGeneration)
    (replacement : WorkRequest) : Prop :=
  (∃ record, checkSupersession impl work expectedGeneration replacement = .ok record) →
    impl.RoomFor replacement.canonicalize

/-- A failed admission leaves no trace exactly when it does not fail at the queue or the tenant, after everything else
has been checked and changed. -/
theorem admission_atomic_iff (now : UInt64) (impl : Impl) :
    (∀ request, Inert impl (submitWorkCommit now impl request) ↔ impl.SubmitReady request.canonicalize) ∧
    ∀ work expectedGeneration replacement,
      Inert impl (supersedeWork now impl work expectedGeneration replacement) ↔
        impl.SupersedeReady work expectedGeneration replacement := by
  refine ⟨fun request => ?_, fun work expectedGeneration replacement => ?_⟩
  · unfold submitWorkCommit Impl.SubmitReady checkAdmissionOpen
    by_cases hopen : impl.admissionOpen
    · simp only [hopen, not_true_eq_false, rejectIf, if_false, guarded, true_imp_iff]
      cases hwork : impl.work[request.canonicalize.id]? with
      | none =>
        simp only [checkWorkRoom, rejectIf]
        by_cases hfull : impl.limits.maxWorkItems.toNat ≤ impl.work.size
        · simp only [hfull, if_true, Nat.not_lt.mpr hfull, false_imp_iff, iff_true]
          exact Inert.unchanged
        · simp only [hfull, if_false, Nat.lt_of_not_le hfull, true_imp_iff]
          refine (inert_withQueueAndTenant rfl).trans ?_
          exact roomFor_of_admission rfl rfl rfl
      | some existing =>
        have hreadmit := checkResubmission_reopens request.canonicalize existing "work is cancelled"
        simp only [← hreadmit]
        cases hchecked : checkResubmission request.canonicalize existing "work is cancelled" with
        | error error => simpa using Inert.unchanged
        | ok decision =>
          cases decision with
          | unchanged => simpa using Inert.succeeds
          | reopen =>
            obtain ⟨hlimits, -, hqueues, htenants, hsequence⟩ := replaceWork_keeps impl request.canonicalize existing
              "re-admitted at a higher generation" now
            simpa using (inert_withQueueAndTenant hsequence).trans (roomFor_of_admission hlimits hqueues htenants)
    · have hclosed : impl.admissionOpen = false := by simpa using hopen
      simpa [hclosed, rejectIf, guarded] using Inert.unchanged
  · unfold supersedeWork Impl.SupersedeReady
    cases hchecked : checkSupersession impl work expectedGeneration replacement with
    | error error => simpa [guarded] using Inert.unchanged
    | ok record =>
      obtain ⟨hlimits, -, hqueues, htenants, hsequence⟩ := replaceWork_keeps impl replacement.canonicalize record "superseded" now
      simpa [guarded] using (inert_withQueueAndTenant hsequence).trans (roomFor_of_admission hlimits hqueues htenants)

/-- Two work items of different tenants are submitted to a scheduler with room for one tenant. -/
def Sample.overbooked : Option (System × Reply × System) := do
  let start ← System.initial { options with limits := { maxTenants := 1 } } 0 1000
  let system ← start.perform (fun _ _ => True)
    (submit { exclusiveWork with requirements := { tenant := 1 } } ++
      [.begin (.submitWork { exclusiveWork with id := 6, requirements := { tenant := 2 } })])
  let (reply, after) ← system.step (.finish 0)
  return (system, reply, after)

set_option maxRecDepth 100000 in
/-- A failed submission may leave something behind: here it has consumed an admission sequence number. -/
theorem not_admission_atomic : ¬∀ (system after : System) position request error, system.Reachable →
    system.calls[position]? = some (.submitWork request) →
    system.step (.finish position) = some (.mutation (.error error), after) → after.impl = system.impl := by
  intro hatomic
  have hview : Sample.overbooked.map (fun (system, reply, after) => (Sample.errorOf reply,
      system.calls.map (fun call => match call with | .submitWork request => request.id | _ => 0),
      system.impl.nextAdmissionSequence, after.impl.nextAdmissionSequence)) = some (some .limitExceeded, [6], 2, 3) := by
    decide +kernel
  obtain ⟨⟨system, reply, after⟩, hrun, hview⟩ := Option.map_eq_some_iff.mp hview
  simp only [Prod.mk.injEq] at hview
  obtain ⟨hreply, hcalls, hbefore, hafter⟩ := hview
  obtain ⟨error, rfl, -⟩ := Sample.of_error hreply
  simp only [Sample.overbooked, bind, Option.bind_eq_some_iff] at hrun
  obtain ⟨start, hstart, system', hsystem, ⟨reply', after'⟩, hstep, heq⟩ := hrun
  obtain ⟨rfl, rfl, rfl⟩ := by simpa only [pure, Option.some.injEq, Prod.mk.injEq] using heq
  have hreached : system'.Reachable := ⟨start, ⟨_, _, _, hstart⟩, System.perform_runs hsystem⟩
  obtain ⟨call, hcall, hid⟩ := List.map_eq_singleton_iff.mp hcalls
  cases call with
  | submitWork request =>
    have hsame := hatomic system' after' 0 request error hreached (by rw [hcall]; rfl) hstep
    rw [hsame, hbefore] at hafter
    cases hafter
  | schedule | dispatch | registerAgent | cancelWork | declareAgentLost => cases hid

end AgentScheduler
