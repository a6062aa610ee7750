import AgentScheduler.Population

/-! What a scheduler that was shut down still does until it is started again. -/
namespace AgentScheduler
open Std KeyedTable Relation

/-- Nothing is scheduled and nothing is admitted. -/
structure Impl.Closed (impl : Impl) : Prop where
  running : impl.running = false
  admission : impl.admissionOpen = false

/-- No assignment waits for its dispatch. -/
def Impl.Unassigned (impl : Impl) : Prop :=
  ∀ (id : AssignmentId) record, impl.assignments[id]? = some record → record.state ≠ .assigned

/-- The step does not start the scheduler. -/
def Label.Dormant : Label → Prop
  | .run .start => False
  | .restart options _ => options.autoStart = false
  | _ => True

section Flags
variable {ctx : Context} {event : Event} {allows : Event → Prop} {stale stale' : Set AgentId} {impl impl' : Impl}

/-- What governs nothing leaves the flags of an instance alone. -/
theorem Deed.flags (hdeed : Deed ctx event (stale, impl) (stale', impl')) (hevent : event ≠ .governs) :
    impl'.running = impl.running ∧ impl'.admissionOpen = impl.admissionOpen := by
  have hframe : ∀ {before after : Impl}, after.frame = before.frame →
      after.running = before.running ∧ after.admissionOpen = before.admissionOpen := by
    intro before after h
    have hrunning := congrArg Impl.running h
    have hadmission := congrArg Impl.admissionOpen h
    exact ⟨hrunning, hadmission⟩
  cases hdeed with
  | quiet _ hessence _ =>
    have hrunning := congrArg Impl.running hessence
    have hadmission := congrArg Impl.admissionOpen hessence
    exact ⟨hrunning, hadmission⟩
  | govern => exact (hevent rfl).elim
  | close => exact hframe (frame_closeAssignment _ _ _ _ _ _)
  | fence agent boot generation reason =>
    unfold fenceBoot
    split <;> exact ⟨rfl, rfl⟩
  | touch | note | enroll | reincarnate | accept | reopen | settle | tally | advance => exact ⟨rfl, rfl⟩
  | refresh agent =>
    unfold refreshAgent indexStoredAgent refreshAgentAccounting
    split
    · split <;> exact ⟨rfl, rfl⟩
    · split <;> exact ⟨rfl, rfl⟩
  | recount agent => exact hframe (frame_refreshAgentAccounting impl agent)
  | refreshWork work => exact hframe (frame_refreshWorkAccounting impl work)
  | commit generation binding work hcheck =>
    let stored : Impl :=
      { impl with
        assignments := impl.assignments.insertIfNew binding.id binding.record
        leases := impl.leases.insertIfNew binding.lease binding.leaseRecord }
    let numbered := stored.modifyWork binding.work fun record => { record with lastAssignmentGeneration := binding.generation }
    have hindexed : (indexStoredAssignment numbered binding.id).running = impl.running ∧
        (indexStoredAssignment numbered binding.id).admissionOpen = impl.admissionOpen := by
      unfold indexStoredAssignment indexAssignment
      split
      · exact ⟨rfl, rfl⟩
      · split <;> exact ⟨rfl, rfl⟩
    let worked := refreshWorkAccounting (indexStoredAssignment numbered binding.id) binding.work
    obtain ⟨hrunning, hadmission⟩ := hframe (frame_refreshAgentAccounting worked binding.agent)
    obtain ⟨hrunning', hadmission'⟩ := hframe (frame_refreshWorkAccounting (indexStoredAssignment numbered binding.id) binding.work)
    exact ⟨hrunning.trans (hrunning'.trans hindexed.1), hadmission.trans (hadmission'.trans hindexed.2)⟩

theorem Deeds.flags (hdeeds : Deeds ctx allows (stale, impl) (stale', impl')) (hconsistent : Consistent impl)
    (hallows : ¬allows .governs) : impl'.running = impl.running ∧ impl'.admissionOpen = impl.admissionOpen := by
  refine hdeeds.keeps (motive := fun scene => scene.2.running = impl.running ∧ scene.2.admissionOpen = impl.admissionOpen)
    (fun event scene scene' hallowed hdeed _ hinv => ?_) hconsistent ⟨rfl, rfl⟩
  obtain ⟨hrunning, hadmission⟩ := hdeed.flags fun hgoverns => hallows (hgoverns ▸ hallowed)
  exact ⟨hrunning.trans hinv.1, hadmission.trans hinv.2⟩

theorem Impl.Closed.of_frame (h : impl.Closed) (hframe : impl'.frame = impl.frame) : impl'.Closed := by
  have hrunning := congrArg Impl.running hframe
  have hadmission := congrArg Impl.admissionOpen hframe
  exact ⟨Eq.trans hrunning h.running, Eq.trans hadmission h.admission⟩

theorem closed_restore (impl file : Impl) : (restore impl (image file)).Closed := by
  let flags (impl : Impl) : Bool × Bool := (impl.running, impl.admissionOpen)
  have hflags : ∀ {before after : Impl}, after.frame = before.frame → flags after = flags before := fun hframe => by
    have h := congrArg flags hframe
    exact h
  let rebuilt := rebuildIndexes (install impl (image file))
  have hrebuilt : flags rebuilt = (false, false) := read_rebuildIndexes (install impl (image file)) (f := flags) fun _ => rfl
  let counted := rebuilt.agents.keys.foldl refreshAgentAccounting rebuilt
  have hcounted : flags counted = flags rebuilt :=
    foldl_project (f := flags) (fun impl agent => hflags (frame_refreshAgentAccounting impl agent)) _ _
  have hworks : flags (restore impl (image file)) = flags counted :=
    foldl_project (f := flags) (fun impl work => hflags (frame_refreshWorkAccounting impl work)) counted.work.keys counted
  obtain ⟨hrunning, hadmission⟩ := Prod.mk.inj (hworks.trans (hcounted.trans hrebuilt))
  exact ⟨hrunning, hadmission⟩

theorem closed_construct {options : SchedulerOptions} {generatedId : SchedulerId} (hauto : options.autoStart = false)
    (h : construct options generatedId = some impl) : impl.Closed := by
  unfold construct at h
  simp only [hauto] at h
  split at h
  · rw [← Option.some.inj h]
    exact ⟨rfl, rfl⟩
  · cases h

/-- An instance whose shutdown has begun, before its dispatch authority is closed. -/
def Impl.stopped (impl : Impl) (now : UInt64) : Impl :=
  { impl with shuttingDown := true, admissionOpen := false, running := false, shutdownAtMs := now }

/-- What the first shutdown after a start makes of an instance. -/
theorem shutdown_open (now : UInt64) (hopen : impl.shuttingDown = false) :
    (shutdown now impl).2 = (if impl.policy.closeDispatchAuthorityOnShutdown then
      closeWhere now (impl.stopped now) (fun record => record.state = .assigned) .invalidated .shutdown
        "dispatch authority closed by shutdown" else impl.stopped now).revise := by
  unfold shutdown
  rw [hopen]
  rfl

theorem closed_shutdown (now : UInt64) (hopen : impl.shuttingDown = false) : (shutdown now impl).2.Closed := by
  have hstopped : (impl.stopped now).Closed := ⟨rfl, rfl⟩
  rw [shutdown_open now hopen]
  split
  · have hclosed := hstopped.of_frame (frame_closeWhere now (impl.stopped now) (fun record => record.state = .assigned)
      .invalidated .shutdown "dispatch authority closed by shutdown")
    exact ⟨hclosed.running, hclosed.admission⟩
  · exact ⟨rfl, rfl⟩

/-- A step that does not start the scheduler leaves a closed one closed. -/
theorem Impl.Closed.step {system after : System} {label : Label} {reply : Reply} (h : system.impl.Closed)
    (hdormant : label.Dormant) (hvalid : system.Valid) (hstep : system.step label = some (reply, after)) : after.impl.Closed := by
  rcases System.step_deeds hvalid hstep with ⟨_, file, rfl, -, -, hform⟩ | ⟨options, generatedId, rfl, hconstruct⟩ | hdeeds
  · exact hform ▸ closed_restore system.impl file
  · exact closed_construct hdormant hconstruct
  · by_cases hgoverns : system.Causes label .governs
    · cases label with
      | run operation =>
        obtain ⟨-, rfl⟩ := Prod.mk.inj (Option.some.inj hstep)
        cases operation with
        | start => exact hdormant.elim
        | shutdown =>
          cases hdown : system.impl.shuttingDown with
          | true =>
            have hsame : (shutdown system.now system.impl).2 = system.impl := by
              unfold shutdown
              rw [if_pos hdown]
            change (shutdown system.now system.impl).2.Closed
            rw [hsame]
            exact h
          | false => exact closed_shutdown system.now hdown
        | setPolicy policy =>
          change (setPolicy system.now system.impl policy).2.Closed
          rcases guarded_cases system.impl (checkPolicy system.impl policy) _ with ⟨error, -, hrefused⟩ | ⟨install, -, haccepted⟩
          · rw [setPolicy, hrefused]
            exact h
          · rw [setPolicy, haccepted]
            cases install with
            | true =>
              have hgoverned : (Impl.revise { system.impl with policy := policy }).Closed := ⟨h.running, h.admission⟩
              exact hgoverned.of_frame (frame_closeWhere system.now _ _ _ _ _)
            | false => exact h
        | _ => exact hgoverns.elim
      | finish position =>
        obtain ⟨call, -, hcause⟩ := hgoverns
        cases call <;> exact hcause.elim
      | _ => exact hgoverns.elim
    · obtain ⟨hrunning, hadmission⟩ := hdeeds.flags hvalid.healthy.consistent fun hallowed =>
        hgoverns (hallowed.resolve_left fun hbook => hbook)
      exact ⟨hrunning.trans h.running, hadmission.trans h.admission⟩

end Flags

/-! ### Who admits -/

section Admissions
variable {ctx : Context} {impl impl' : Impl} {system after : System} {label : Label} {reply : Reply}

theorem admissions_guarded {Found : Type} {check : Except SchedulerError Found} {body : Found → Step}
    (h : ∀ found, check = .ok found → (body found).2.register.work = impl.register.work) :
    (guarded impl check body).2.register.work = impl.register.work := by
  cases hcheck : check with
  | error error => rfl
  | ok found => exact h found hcheck

theorem admissions_registerAgentCommit (now : UInt64) (impl : Impl) (descriptor : AgentDescriptor) :
    (registerAgentCommit now impl descriptor).2.register.work = impl.register.work := by
  rcases registerAgentCommit_cases now impl descriptor with
    ⟨-, error, hform⟩ | ⟨existing, -, -, -, hform⟩ | ⟨existing, -, -, -, -, hform⟩ | ⟨-, hform⟩
  · rw [hform]
  · rw [hform]
    simp only [register_replaceAgent, register_agents_setAgent, register_retireIncarnation]
  · rw [hform]
    simp only [register_replaceAgent, register_agents_setAgent]
  · rw [hform]
    rfl

theorem admissions_setPolicy (now : UInt64) (impl : Impl) (policy : PolicySnapshot) :
    (setPolicy now impl policy).2.register.work = impl.register.work := by
  apply admissions_guarded
  intro install _
  split
  · rw [register_closeWhere]
    rfl
  · rfl

theorem admissions_registerQueue (impl : Impl) (queue : QueueId) (generation : QueueGeneration) (fairnessClass : Text)
    (weight : UInt32) : (registerQueue impl queue generation fairnessClass weight).2.register.work = impl.register.work := by
  apply admissions_guarded
  intro _ _
  split
  · split <;> rfl
  · split
    · rfl
    · split
      · split <;> rfl
      · rfl

theorem admissions_publishCapabilities (now : UInt64) (impl : Impl) (agent : AgentId) (boot : AgentBootId)
    (profile : CapabilityProfile) :
    (publishCapabilities now impl agent boot profile).2.register.work = impl.register.work := by
  apply admissions_guarded
  intro published _
  cases published with
  | none => rfl
  | some canonical =>
    simp only [register_revise, register_indexStoredAgent, register_refreshAgentAccounting, register_demoteOutdated]
    rfl

theorem admissions_publishHealth (now : UInt64) (impl : Impl) (agent : AgentId) (boot : AgentBootId)
    (observation : HealthObservation) :
    (publishHealth now impl agent boot observation).2.register.work = impl.register.work := by
  apply admissions_guarded
  intro _ _
  simp only [register_revise, register_refreshAgent]
  rfl

theorem admissions_publishAvailability (now : UInt64) (impl : Impl) (agent : AgentId) (boot : AgentBootId)
    (observation : AvailabilityObservation) :
    (publishAvailability now impl agent boot observation).2.register.work = impl.register.work := by
  apply admissions_guarded
  intro _ _
  simp only [register_revise, register_refreshAgent]
  rfl

theorem admissions_publishLoad (now : UInt64) (impl : Impl) (agent : AgentId) (boot : AgentBootId)
    (observation : LoadObservation) :
    (publishLoad now impl agent boot observation).2.register.work = impl.register.work := by
  apply admissions_guarded
  intro _ _
  simp only [register_revise]
  rfl

theorem Impl.Leases.admissions (h : impl.Leases impl') : impl'.register.work = impl.register.work := by
  obtain ⟨leases, hregister⟩ := h
  rw [hregister]

/-- Of the operations with one section, only a supersession admits work. -/
theorem admissions_runOperation (ctx : Context) (impl : Impl) (operation : Operation)
    (hkeeps : ∀ work generation replacement, operation ≠ .supersedeWork work generation replacement) :
    (runOperation ctx impl operation).2.register.work = impl.register.work := by
  cases operation with
  | start =>
    change (start impl).2.register.work = impl.register.work
    unfold start
    split <;> rfl
  | shutdown => exact congrArg Register.work (register_shutdown _ _)
  | setPolicy => exact admissions_setPolicy _ _ _
  | registerQueue => exact admissions_registerQueue _ _ _ _ _
  | publishCapabilities => exact admissions_publishCapabilities _ _ _ _ _
  | publishHealth => exact admissions_publishHealth _ _ _ _ _
  | publishAvailability => exact admissions_publishAvailability _ _ _ _ _
  | publishLoad => exact admissions_publishLoad _ _ _ _ _
  | heartbeat => exact congrArg Register.work (register_heartbeat _ _ _ _ _)
  | drainAgent => exact congrArg Register.work (register_drainAgent _ _ _ _ _)
  | deregisterAgent => exact congrArg Register.work (register_deregisterAgent _ _ _ _ _)
  | supersedeWork => exact (hkeeps _ _ _ rfl).elim
  | expireDeadlines => exact congrArg Register.work (register_expireDeadlines _ _)
  | scheduleBatch request => exact (leases_scheduleBatch ctx impl request).admissions
  | acknowledge => exact congrArg Register.work (register_acknowledge _ _ _ _ _ _ _)
  | markExecuting => exact congrArg Register.work (register_markExecuting _ _ _ _ _)
  | release => exact congrArg Register.work (register_release _ _ _ _ _ _)
  | completeAssignment => exact congrArg Register.work (register_completeAssignment _ _ _ _ _)
  | failAssignment => exact congrArg Register.work (register_failAssignment _ _ _ _ _ _)
  | rejectAssignment => exact congrArg Register.work (register_rejectAssignment _ _ _ _ _ _)
  | revalidateAssignments => exact congrArg Register.work (register_revalidateAssignments _ _)
  | revalidateAgentAssignments => exact congrArg Register.work (register_revalidateAgentAssignments _ _ _ _)
  | expireLeases => exact congrArg Register.work (register_closeWhere _ _ _ _ _ _)

/-- Of the calls with two sections, only a submission admits work. -/
theorem admissions_finishCall (ctx : Context) (impl : Impl) (call : Call) (hkeeps : ∀ request, call ≠ .submitWork request) :
    (finishCall ctx impl call).2.register.work = impl.register.work := by
  cases call with
  | schedule plan => exact (leases_scheduleCommit ctx impl plan.work plan.generation plan.decision plan.binding).admissions
  | dispatch => exact congrArg Register.work (register_dispatchCommit _ _ _ _)
  | registerAgent descriptor => exact admissions_registerAgentCommit ctx.now impl descriptor
  | submitWork => exact (hkeeps _ rfl).elim
  | cancelWork => exact congrArg Register.work (register_cancelWorkCommit _ _ _ _ _)
  | declareAgentLost => exact congrArg Register.work (register_declareAgentLostCommit _ _ _ _ _)

end Admissions

/-! ### Steps of a closed scheduler -/

/-- The step is a section of a submission. -/
inductive System.Submits (system : System) : Label → Prop
  | first (request : WorkRequest) : system.Submits (.begin (.submitWork request))
  | second (position : Nat) (request : WorkRequest) (hcall : system.calls[position]? = some (.submitWork request)) :
      system.Submits (.finish position)

/-- What a step of a scheduler that was shut down may do. -/
structure System.Quiet (system : System) (label : Label) (reply : Reply) (after : System) : Prop where
  submission : system.Submits label → ∃ error, reply = .mutation (.error error)
  supersession : ∀ work generation replacement, label = .run (.supersedeWork work generation replacement) →
    ∃ error, reply = .mutation (.error error)
  /-- no work is admitted or admitted again, unless a file is loaded -/
  admission : ∀ work admission, after.impl.register.work work = some admission →
    (∃ position, label = .load position) ∨ system.impl.register.work work = some admission
  /-- no assignment is created, unless a file is loaded -/
  creation : ∀ (id : AssignmentId) record', after.impl.assignments[id]? = some record' →
    (∃ position, label = .load position) ∨ ∃ record, system.impl.assignments[id]? = some record ∧ SameBinding record record'
  handoff : ∀ binding, ¬system.HandsOff label after binding

/-- A replacement of work is well formed and newer than the record it names. -/
structure Impl.Supersedable (impl : Impl) (work : WorkId) (generation : WorkGeneration) (replacement : WorkRequest) : Prop where
  target : replacement.id = work
  shape : replacement.canonicalize.validate impl.limits = .ok ()
  record : ∃ record, impl.work[work]? = some record ∧ record.request.generation = generation ∧ record.lifecycle ≠ .cancelled
  newer : generation < replacement.generation

/-- No well-formed newer generation of stored work is submitted as a supersession, and no dispatch in flight finds its
assignment still assigned under current authority. -/
structure System.StaysShut (system : System) (label : Label) : Prop where
  supersession : ∀ work generation replacement, label = .run (.supersedeWork work generation replacement) →
    ¬system.impl.Supersedable work generation replacement
  dispatch : ∀ position id generation record, label = .finish position →
    system.calls[position]? = some (.dispatch id generation) → system.impl.assignments[id]? = some record →
    record.binding.generation = generation → record.state = .assigned →
    revalidateAuthority system.context system.impl record ≠ .ok ()

theorem checkSupersession_iff {impl : Impl} {work : WorkId} {generation : WorkGeneration} {replacement : WorkRequest} :
    (∃ record, checkSupersession impl work generation replacement = .ok record) ↔
      impl.Supersedable work generation replacement := by
  unfold checkSupersession
  simp only [except_bind_eq_ok, rejectIf_eq_ok, lookupOrFail_eq_ok]
  constructor
  · rintro ⟨_, -, htarget, _, hshape, found, hfound, -, hgeneration, -, hnewer, -, hlifecycle, -⟩
    exact ⟨by simpa using htarget, hshape, ⟨found, hfound, by simpa using hgeneration, by simpa using hlifecycle⟩,
      Nat.lt_of_not_le hnewer⟩
  · rintro ⟨htarget, hshape, ⟨record, hrecord, hgeneration, hlifecycle⟩, hnewer⟩
    exact ⟨record, (), by simpa using htarget, (), hshape, record, hrecord, (), by simpa using hgeneration, (),
      Nat.not_le_of_lt hnewer, (), hlifecycle, rfl⟩

section Steps
variable {system after : System} {label : Label} {reply : Reply} {impl : Impl} {work : WorkRecord} {binding : AssignmentBinding}

/-- A closed scheduler commits nothing. -/
theorem Impl.Closed.commitless (h : system.impl.Closed) : ¬system.Commits label impl work binding := by
  intro hcommits
  cases hcommits with
  | schedule hcall hcheck =>
    obtain ⟨hscheduler, -⟩ := commitCheck_ok.mp hcheck
    unfold commitScheduler at hscheduler
    simp only [check_bind_eq_ok, refuseIf_eq_ok, not_or, not_not] at hscheduler
    have hrunning : system.impl.running = true := hscheduler.1.1
    rw [h.running] at hrunning
    cases hrunning
  | batch hvisits =>
    have hrunning : system.impl.running = true := hvisits.running
    rw [h.running] at hrunning
    cases hrunning

/-- A closed scheduler refuses submissions. -/
theorem Impl.Closed.submission (h : system.impl.Closed) (hstep : system.step label = some (reply, after))
    (hsubmits : system.Submits label) : (∃ error, reply = .mutation (.error error)) ∧ after.impl = system.impl := by
  have hclosed : ∀ work, ∃ error, checkAdmissionOpen system.impl work = .error error := by
    intro work
    unfold checkAdmissionOpen rejectIf
    rw [h.admission, if_pos (by simp)]
    exact ⟨_, rfl⟩
  cases hsubmits with
  | first request =>
    have hrefused : ∃ error, submitWorkBegin system.impl request = .error error := by
      cases hbegin : submitWorkBegin system.impl request with
      | error error => exact ⟨error, rfl⟩
      | ok answered =>
        obtain ⟨error, hopen⟩ := hclosed request.canonicalize.id
        unfold submitWorkBegin at hbegin
        simp only [check_bind_eq_ok] at hbegin
        cases hopen.symm.trans hbegin.2.1
    obtain ⟨error, hrefused⟩ := hrefused
    simp only [System.step, beginCall, hrefused] at hstep
    obtain ⟨rfl, rfl⟩ := Prod.mk.inj (Option.some.inj hstep)
    exact ⟨⟨error, rfl⟩, rfl⟩
  | second position request hcall =>
    obtain ⟨error, hopen⟩ := hclosed request.canonicalize.id
    have hrefused : submitWorkCommit system.now system.impl request = (.error error, system.impl) := by
      unfold submitWorkCommit guarded
      simp only [hopen]
    simp only [System.step, hcall, finishCall] at hstep
    obtain ⟨rfl, rfl⟩ := Prod.mk.inj (Option.some.inj hstep)
    have hreply : (submitWorkCommit system.now system.impl request).1 = .error error := by rw [hrefused]
    have hafter : (submitWorkCommit system.now system.impl request).2 = system.impl := by rw [hrefused]
    exact ⟨⟨error, congrArg Reply.mutation hreply⟩, hafter⟩

/-- What passes its checks hands off. -/
theorem System.handsOff_of_check {position : Nat} {id : AssignmentId} {generation : AssignmentGeneration} {record : AssignmentRecord}
    (hcall : system.calls[position]? = some (.dispatch id generation)) (hrecord : system.impl.assignments[id]? = some record)
    (hgeneration : record.binding.generation = generation) (hstate : record.state = .assigned)
    (hauthority : revalidateAuthority system.context system.impl record = .ok ())
    (hstep : system.step (.finish position) = some (reply, after)) : ∃ binding, system.HandsOff (.finish position) after binding := by
  have hcheck : handoffCheck system.context system.impl id generation = .ok record := by
    unfold handoffCheck
    simp only [except_bind_eq_ok, lookupOrRefuse_eq_ok, refuseIf_eq_ok]
    exact ⟨record, hrecord, (), by simpa using hgeneration, (), by simpa using hstate, (), hauthority, rfl⟩
  have hform := hstep
  simp only [System.step, hcall, finishCall, dispatchCommit, hcheck] at hform
  obtain ⟨rfl, -⟩ := Prod.mk.inj (Option.some.inj hform)
  exact ⟨_, _, hstep, rfl⟩

/-- Replacing work admits it at its new generation. -/
theorem admissions_replaceWork (now : UInt64) (impl : Impl) (request : WorkRequest) (existing : WorkRecord) (reason : Text) :
    ∃ sequence, (replaceWork now impl request existing reason).register.work request.id = some (request.generation, sequence) := by
  let closed := closeWork now impl request.id .superseded .workSuperseded "work generation was superseded"
  let taken := (deindexWork closed request.id).takeSequence
  let record := admittedRecord now (deindexWork closed request.id) request reason existing.lastAssignmentGeneration
  have hform : (replaceWork now impl request existing reason).register = (taken.setWork request.id record).register := rfl
  rw [hform, register_work_setWork]
  exact ⟨record.admittedSequence, Function.update_self ..⟩

theorem admissions_withQueueAndTenant (impl : Impl) (request : WorkRequest) :
    (withQueueAndTenant impl request Impl.revise).2.register.work = impl.register.work := by
  rcases withQueueAndTenant_books impl request Impl.revise with ⟨queues, tenants, hregister, -⟩ | ⟨ready, ⟨queues, tenants, hregister, -⟩, hform⟩
  · rw [hregister]
  · rw [hform, register_revise, hregister]

/-- A supersession that passes its checks admits its work again, whatever the state of the scheduler. -/
theorem supersedeWork_admits (now : UInt64) {id : WorkId} {generation : WorkGeneration} {replacement : WorkRequest} {record : WorkRecord}
    (hcheck : checkSupersession impl id generation replacement = .ok record) :
    ∃ admission, (supersedeWork now impl id generation replacement).2.register.work id = some admission ∧
      impl.register.work id ≠ some admission := by
  obtain ⟨rfl, -, hrecord, hnewer⟩ := checkSupersession_ok hcheck
  obtain ⟨sequence, hadmitted⟩ := admissions_replaceWork now impl replacement.canonicalize record "superseded"
  refine ⟨(replacement.generation, sequence), ?_, ?_⟩
  · unfold supersedeWork
    simp only [guarded, hcheck]
    rw [admissions_withQueueAndTenant]
    exact hadmitted
  · intro hsame
    have hsame : (impl.work[replacement.id]?).map WorkRecord.admission = some (replacement.generation, sequence) := hsame
    rw [hrecord] at hsame
    have hgeneration : record.request.generation = replacement.generation := congrArg Prod.fst (Option.some.inj hsame)
    rw [hgeneration] at hnewer
    exact Nat.lt_irrefl _ hnewer

/-- What a step of a closed scheduler does to the admitted work. -/
theorem Impl.Closed.admissions (h : system.impl.Closed)
    (hshut : ∀ work generation replacement, label = .run (.supersedeWork work generation replacement) →
      ¬system.impl.Supersedable work generation replacement)
    (hload : ∀ position, label ≠ .load position) (hstep : system.step label = some (reply, after)) (work : WorkId)
    {admission : WorkGeneration × Nat} (hadmission : after.impl.register.work work = some admission) :
    system.impl.register.work work = some admission := by
  cases label with
  | tick now =>
    simp only [System.step] at hstep
    split at hstep
    · obtain ⟨-, rfl⟩ := Prod.mk.inj (Option.some.inj hstep)
      exact hadmission
    · cases hstep
  | provide feasibility =>
    obtain ⟨-, rfl⟩ := Prod.mk.inj (Option.some.inj hstep)
    exact hadmission
  | run operation =>
    obtain ⟨-, rfl⟩ := Prod.mk.inj (Option.some.inj hstep)
    have hrun : (runOperation system.context system.impl operation).2.register.work work = some admission := hadmission
    by_cases hsupersedes : ∃ work generation replacement, operation = .supersedeWork work generation replacement
    · obtain ⟨id, generation, replacement, rfl⟩ := hsupersedes
      have hrefused : (supersedeWork system.now system.impl id generation replacement).2 = system.impl := by
        rcases guarded_cases system.impl (checkSupersession system.impl id generation replacement) _ with
          ⟨error, -, hrefused⟩ | ⟨record, hcheck, -⟩
        · rw [supersedeWork, hrefused]
        · exact (hshut id generation replacement rfl (checkSupersession_iff.mp ⟨record, hcheck⟩)).elim
      have hsame : (supersedeWork system.now system.impl id generation replacement).2.register.work work = some admission := hrun
      rwa [hrefused] at hsame
    · rw [admissions_runOperation] at hrun
      · exact hrun
      · intro id generation replacement hoperation
        exact hsupersedes ⟨id, generation, replacement, hoperation⟩
  | begin request =>
    simp only [System.step] at hstep
    split at hstep <;>
    · obtain ⟨-, rfl⟩ := Prod.mk.inj (Option.some.inj hstep)
      exact hadmission
  | finish position =>
    cases hcall : system.calls[position]? with
    | none =>
      simp only [System.step, hcall] at hstep
      cases hstep
    | some call =>
      by_cases hsubmits : ∃ request, call = .submitWork request
      · obtain ⟨request, rfl⟩ := hsubmits
        rw [(h.submission hstep (.second position request hcall)).2] at hadmission
        exact hadmission
      · simp only [System.step, hcall] at hstep
        obtain ⟨-, rfl⟩ := Prod.mk.inj (Option.some.inj hstep)
        have hfinish : (finishCall system.context system.impl call).2.register.work work = some admission := hadmission
        rw [admissions_finishCall] at hfinish
        · exact hfinish
        · intro request hform
          exact hsubmits ⟨request, hform⟩
  | save =>
    obtain ⟨-, rfl⟩ := Prod.mk.inj (Option.some.inj hstep)
    exact hadmission
  | load position => exact (hload position rfl).elim
  | restart options generatedId =>
    obtain ⟨impl, hconstruct, hform⟩ := Option.map_eq_some_iff.mp hstep
    obtain ⟨-, rfl⟩ := Prod.mk.inj hform
    rw [admissions_construct hconstruct] at hadmission
    cases hadmission

/-- A step of a closed scheduler is quiet exactly when it stays shut. -/
theorem Impl.Closed.quiet_iff (h : system.impl.Closed) (hdormant : label.Dormant) (hvalid : system.Valid)
    (hstep : system.step label = some (reply, after)) : system.Quiet label reply after ↔ system.StaysShut label := by
  constructor
  · intro hquiet
    constructor
    · intro work generation replacement hlabel hsupersedable
      obtain ⟨record, hcheck⟩ := checkSupersession_iff.mpr hsupersedable
      obtain ⟨admission, hadmitted, hfresh⟩ := supersedeWork_admits system.now hcheck
      subst hlabel
      obtain ⟨-, rfl⟩ := Prod.mk.inj (Option.some.inj hstep)
      rcases hquiet.admission work admission hadmitted with ⟨position, hload⟩ | hold
      · cases hload
      · exact hfresh hold
    · intro position id generation record hlabel hcall hrecord hgeneration hstate hauthority
      subst hlabel
      obtain ⟨binding, hhands⟩ := System.handsOff_of_check hcall hrecord hgeneration hstate hauthority hstep
      exact hquiet.handoff binding hhands
  · intro hshut
    constructor
    · intro hsubmits
      exact (h.submission hstep hsubmits).1
    · intro work generation replacement hlabel
      subst hlabel
      obtain ⟨hreply, -⟩ := Prod.mk.inj (Option.some.inj hstep)
      rcases guarded_cases system.impl (checkSupersession system.impl work generation replacement) _ with
        ⟨error, -, hrefused⟩ | ⟨record, hcheck, -⟩
      · have hanswer : (supersedeWork system.now system.impl work generation replacement).1 = .error error := by
          rw [supersedeWork, hrefused]
        exact ⟨error, hreply.symm.trans (congrArg Reply.mutation hanswer)⟩
      · exact (hshut.supersession work generation replacement rfl (checkSupersession_iff.mp ⟨record, hcheck⟩)).elim
    · intro work admission hadmission
      by_cases hload : ∃ position, label = .load position
      · exact .inl hload
      · have hother : ∀ position, label ≠ .load position := fun position hlabel => hload ⟨position, hlabel⟩
        exact .inr (h.admissions hshut.supersession hother hstep work hadmission)
    · intro id record' hrecord
      cases System.step_stores hvalid hstep hrecord with
      | loaded position hload => exact .inl ⟨position, hload⟩
      | kept record hbefore hbinding _ => exact .inr ⟨record, hbefore, hbinding⟩
      | committed impl work binding hcommits => exact (h.commitless hcommits).elim
    · intro binding hhands
      obtain ⟨position, id, generation, record, hlabel, hcall, hcheck, -, -⟩ := hhands.call
      obtain ⟨hrecord, hgeneration, hstate, hauthority⟩ := handoffCheck_ok hcheck
      exact hshut.dispatch position id generation record hlabel hcall hrecord hgeneration hstate hauthority

theorem AssignmentRecord.recover_unassigned (record : AssignmentRecord) : record.recover.state ≠ .assigned := by
  unfold AssignmentRecord.recover
  split
  · nofun
  · next hinactive =>
    intro hassigned
    have hassigned : record.state = .assigned := hassigned
    rw [hassigned] at hinactive
    exact hinactive rfl

theorem unassigned_restore (impl : Impl) {file : Impl} (hfile : Consistent file) : (restore impl (image file)).Unassigned := by
  intro id record hrecord
  have hrecovered := congrFun (congrArg Ledger.assignments (restore_image impl hfile).2) id
  obtain ⟨saved, -, rfl⟩ := Option.map_eq_some_iff.mp (hrecovered.symm.trans hrecord)
  exact saved.recover_unassigned

/-- In a closed scheduler no assignment comes to wait for its dispatch. -/
theorem Impl.Unassigned.step (hunassigned : system.impl.Unassigned) (h : system.impl.Closed) (hvalid : system.Valid)
    (hstep : system.step label = some (reply, after)) : after.impl.Unassigned := by
  have hchange : Change (fun _ _ => True) system after label :=
    System.step_change hvalid hstep (fun _ _ _ _ _ => trivial) fun _ _ _ _ => trivial
  intro id record hrecord
  cases System.step_stores hvalid hstep hrecord with
  | loaded position hload =>
    subst hload
    obtain ⟨file, hfile⟩ : ∃ file, system.saved[position]? = some file := by
      cases hfile : system.saved[position]? with
      | none =>
        simp only [System.step, hfile] at hstep
        cases hstep
      | some file => exact ⟨file, rfl⟩
    simp only [System.step, hfile, h.running] at hstep
    obtain ⟨-, rfl⟩ := Prod.mk.inj (Option.some.inj hstep)
    exact unassigned_restore system.impl (hvalid.saved file (List.mem_of_getElem? hfile)).consistent id record hrecord
  | kept before hbefore _ _ =>
    cases hchange with
    | moves _ hmoves =>
      have hextends : system.impl.ledger.Extends after.impl.ledger :=
        Runs.relates (motive := Sound) Ledger.Extends.refl (fun _ _ _ => Ledger.Extends.trans)
          (fun _ _ hmove => hmove.sound) (fun _ _ hmove => hmove.extends) hmoves hvalid.healthy.sound
      obtain ⟨record', hrecord', hevolves⟩ := hextends id before hbefore
      obtain rfl := Option.some.inj (hrecord'.symm.trans hrecord)
      exact hevolves.unassigned (hunassigned id before hbefore)
    | recovers position file hlabel hfile _ himpl _ =>
      rw [himpl] at hrecord
      exact unassigned_restore system.impl (hvalid.saved file (List.mem_of_getElem? hfile)).consistent id record hrecord
    | constructs options generatedId _ hconstruct _ =>
      obtain ⟨-, -, hassignments⟩ := construct_spec hconstruct
      have hnone : after.impl.assignments[id]? = none := hassignments id
      rw [hnone] at hrecord
      cases hrecord
  | committed impl work binding hcommits => exact (h.commitless hcommits).elim

/-- A shutdown that closes dispatch authority leaves no assignment waiting for its dispatch. -/
theorem unassigned_shutdown (now : UInt64) {impl : Impl} (hconsistent : Consistent impl) (hopen : impl.shuttingDown = false)
    (hpolicy : impl.policy.closeDispatchAuthorityOnShutdown) : (shutdown now impl).2.Unassigned := by
  have hstopped : Consistent (impl.stopped now) := hconsistent.of_core rfl
  obtain ⟨-, hledger⟩ := closeWhere_spec (fun record => record.state = .assigned) now .invalidated .shutdown
    "dispatch authority closed by shutdown" hstopped rfl fun record hselected => by
      have hassigned : record.state = .assigned := by simpa using hselected
      rw [hassigned]
      rfl
  intro id record hrecord
  rw [shutdown_open now hopen, if_pos hpolicy] at hrecord
  have hclosed := congrFun (congrArg Ledger.assignments hledger) id
  obtain ⟨before, -, rfl⟩ := Option.map_eq_some_iff.mp (hclosed.symm.trans hrecord)
  unfold closing
  split
  · nofun
  · next hother => simpa using hother

/-- From the shutdown of a scheduler on, until it is started again, the scheduler stays closed; where the policy closes
dispatch authority on shutdown no assignment waits for its dispatch; and a step admits no work, creates no assignment and
hands nothing off exactly when no newer generation of stored work is submitted as a supersession and no dispatch in flight
finds its assignment still assigned. -/
theorem shutdown_quiesces {system closed later : System} {reply : Reply} (hreach : system.Reachable)
    (hopen : system.impl.shuttingDown = false) (hshutdown : system.step (.run .shutdown) = some (reply, closed))
    (hrun : System.Runs (fun _ label => label.Dormant) closed later) :
    later.impl.Closed ∧ (system.impl.policy.closeDispatchAuthorityOnShutdown → later.impl.Unassigned) ∧
      ∀ (label : Label) answer after, label.Dormant → later.step label = some (answer, after) →
        (later.Quiet label answer after ↔ later.StaysShut label) := by
  have hclosed : closed.impl.Closed := by
    obtain ⟨-, rfl⟩ := Prod.mk.inj (Option.some.inj hshutdown)
    exact closed_shutdown system.now hopen
  have hunassigned : system.impl.policy.closeDispatchAuthorityOnShutdown → closed.impl.Unassigned := by
    intro hpolicy
    obtain ⟨-, rfl⟩ := Prod.mk.inj (Option.some.inj hshutdown)
    exact unassigned_shutdown system.now hreach.valid.healthy.consistent hopen hpolicy
  obtain ⟨hvalid, hstays, hwaits⟩ : later.Valid ∧ later.impl.Closed ∧
      (system.impl.policy.closeDispatchAuthorityOnShutdown → later.impl.Unassigned) := by
    refine Runs.keeps (motive := fun s : System => s.Valid ∧ s.impl.Closed ∧
      (system.impl.policy.closeDispatchAuthorityOnShutdown → s.impl.Unassigned)) (fun s s' hstep hinv => ?_) hrun
      ⟨hreach.valid.step hshutdown, hclosed, hunassigned⟩
    obtain ⟨label, answer, hdormant, hstep⟩ := hstep
    obtain ⟨hvalid, hshut, hwaits⟩ := hinv
    exact ⟨hvalid.step hstep, hshut.step hdormant hvalid hstep, fun hpolicy => (hwaits hpolicy).step hshut hvalid hstep⟩
  exact ⟨hstays, hwaits, fun label answer after hdormant hstep => hstays.quiet_iff hdormant hvalid hstep⟩

end Steps

/-- The reply reports success. -/
def Reply.accepted : Reply → Bool
  | .mutation (.ok ()) => true
  | _ => false

theorem Reply.of_accepted {reply : Reply} (h : reply.accepted) : reply = .mutation (.ok ()) := by
  unfold Reply.accepted at h
  split at h
  · rfl
  · cases h

namespace Sample

instance (label : Label) : Decidable label.Dormant := by
  rcases label with ⟨⟩
  case run operation => rcases operation with ⟨⟩ <;> first | exact instDecidableTrue | exact instDecidableFalse
  case restart options _ => exact instDecidableEqBool options.autoStart false
  all_goals exact instDecidableTrue

/-- A work item is scheduled, the scheduler is shut down, and then some steps are performed. -/
def shutDown (labels : List Label) : Option (System × Reply × System × System) := do
  let system ← run (fun _ _ => True) (enlist ++ submit exclusiveWork ++ schedule)
  let (reply, closed) ← system.step (.run .shutdown)
  let later ← closed.perform (fun _ label => label.Dormant) labels
  return (system, reply, closed, later)

theorem shutDown_reaches {labels : List Label} {system closed later : System} {reply : Reply}
    (h : shutDown labels = some (system, reply, closed, later)) :
    system.Reachable ∧ system.step (.run .shutdown) = some (reply, closed) ∧
      System.Runs (fun _ label => label.Dormant) closed later := by
  simp only [shutDown, Option.bind_eq_bind, Option.bind_eq_some_iff, Prod.exists] at h
  obtain ⟨_, hsystem, _, _, hshutdown, _, hlater, hform⟩ := h
  obtain ⟨rfl, rfl, rfl, rfl⟩ : _ = system ∧ _ = reply ∧ _ = closed ∧ _ = later := by simpa using hform
  exact ⟨run_reaches hsystem, hshutdown, System.perform_runs hlater⟩

end Sample

set_option maxRecDepth 100000 in
/-- A work item is scheduled, and the scheduler is shut down and its state saved. -/
theorem shutdown_quiesces_sample : ∃ system closed later,
    (Sample.shutDown [.save]).map (fun found => (found.1, found.2.2)) = some (system, closed, later) ∧
      closed.impl.assignments.size = 1 ∧ later.impl.Closed ∧
      (system.impl.policy.closeDispatchAuthorityOnShutdown → later.impl.Unassigned) := by
  have hrun : (Sample.shutDown [.save]).map (fun found => decide (found.1.impl.shuttingDown = false ∧
      found.2.2.1.impl.assignments.size = 1)) = some true := by decide +kernel
  obtain ⟨⟨system, reply, closed, later⟩, hfound, hflags⟩ := Option.map_eq_some_iff.mp hrun
  obtain ⟨hopen, hsize⟩ := of_decide_eq_true hflags
  obtain ⟨hreach, hshutdown, hlater⟩ := Sample.shutDown_reaches hfound
  obtain ⟨hclosed, hunassigned, -⟩ := shutdown_quiesces hreach hopen hshutdown hlater
  exact ⟨system, closed, later, by rw [hfound]; rfl, hsize, hclosed, hunassigned⟩

set_option maxRecDepth 100000 in
/-- A scheduler that was shut down admits a newer generation of its work that is submitted as a supersession. -/
theorem not_shutdown_quiesces : ¬∀ (system closed later after : System) (reply answer : Reply) (label : Label),
    system.Reachable → system.impl.shuttingDown = false → system.step (.run .shutdown) = some (reply, closed) →
    System.Runs (fun _ label => label.Dormant) closed later → label.Dormant →
    later.step label = some (answer, after) → later.Quiet label answer after := by
  intro hquiesces
  let label : Label := .run (.supersedeWork 5 1 { Sample.exclusiveWork with generation := 2 })
  have hrun : (Sample.shutDown []).map (fun found => decide (found.1.impl.shuttingDown = false ∧
      (found.2.2.2.step label).map (fun result => result.1.accepted) = some true)) = some true := by decide +kernel
  obtain ⟨⟨system, reply, closed, later⟩, hfound, hflags⟩ := Option.map_eq_some_iff.mp hrun
  obtain ⟨hopen, haccepts⟩ := of_decide_eq_true hflags
  obtain ⟨⟨answer, after⟩, hstep, haccepted⟩ := Option.map_eq_some_iff.mp haccepts
  obtain ⟨hreach, hshutdown, hlater⟩ := Sample.shutDown_reaches hfound
  have hquiet := hquiesces system closed later after reply answer label hreach hopen hshutdown hlater trivial hstep
  obtain ⟨error, rfl⟩ := hquiet.supersession _ _ _ rfl
  cases haccepted

end AgentScheduler
