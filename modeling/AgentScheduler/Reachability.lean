import AgentScheduler.Recovery
import AgentScheduler.Runs

/-! Every step of the system moves authority, recovers it, or starts over; what holds in every reachable state. -/
namespace AgentScheduler
open Std KeyedTable Relation

/-- The gate of a step at a time: its own condition on commits, and expiry only after a deadline. -/
def Gate.committing (now : UInt64) (commits : Ledger → AssignmentBinding → Prop) : Gate where
  commits := commits
  settles := fun entry lifecycle => lifecycle = .expired → entry.request.LapsedAt now

theorem Gate.committing_permits (now : UInt64) (commits : Ledger → AssignmentBinding → Prop) :
    (Gate.committing now commits).Permits now := fun _ _ => id

/-- What the first section of a call has made sure of. -/
def Call.Checked : Call → Prop
  | .schedule plan => plan.binding.work = plan.work
  | .registerAgent descriptor => descriptor.boot ≠ 0
  | .submitWork request => request.canonicalize.WellShaped
  | .dispatch .. | .cancelWork .. | .declareAgentLost .. => True

section Sections
variable {gate : Gate} {impl : Impl} {ctx : Context}

/-- A single-section operation moves authority. -/
theorem runOperation_refines (hpermits : gate.Permits ctx.now)
    (operation : Operation) (hplanned : (∃ request, operation = .scheduleBatch request) →
      ∀ ledger entry binding, Planned ledger entry binding → gate.commits ledger binding) :
    Refines gate impl (runOperation ctx impl operation).2 := by
  cases operation with
  | start => exact start_refines impl
  | shutdown => exact shutdown_refines ctx.now impl
  | setPolicy policy => exact setPolicy_refines ctx.now impl policy
  | registerQueue queue generation fairnessClass weight =>
    exact registerQueue_refines impl queue generation fairnessClass weight
  | publishCapabilities agent boot profile => exact publishCapabilities_refines ctx.now impl agent boot profile
  | publishHealth agent boot observation => exact publishHealth_refines ctx.now impl agent boot observation
  | publishAvailability agent boot observation =>
    exact publishAvailability_refines ctx.now impl agent boot observation
  | publishLoad agent boot observation => exact publishLoad_refines ctx.now impl agent boot observation
  | heartbeat agent boot registrationGeneration =>
    exact heartbeat_refines ctx.now impl agent boot registrationGeneration
  | drainAgent agent boot force => exact drainAgent_refines ctx.now impl agent boot force
  | deregisterAgent agent boot force => exact deregisterAgent_refines ctx.now impl agent boot force
  | supersedeWork work expectedGeneration replacement =>
    exact supersedeWork_refines ctx.now impl work expectedGeneration replacement
  | expireDeadlines => exact expireDeadlines_refines hpermits impl
  | scheduleBatch request => exact scheduleBatch_refines (hplanned ⟨request, rfl⟩)
  | acknowledge assignment generation dispatchId dispatchGeneration boot =>
    exact acknowledge_refines ctx.now impl assignment generation dispatchId dispatchGeneration boot
  | markExecuting assignment generation boot =>
    exact markExecuting_refines ctx.now impl assignment generation boot
  | release assignment generation boot reason => exact release_refines ctx.now impl assignment generation boot reason
  | completeAssignment assignment generation boot =>
    exact completeAssignment_refines hpermits impl assignment generation boot
  | failAssignment assignment generation boot reason =>
    exact failAssignment_refines hpermits impl assignment generation boot reason
  | rejectAssignment assignment generation boot reason =>
    exact rejectAssignment_refines ctx.now impl assignment generation boot reason
  | revalidateAssignments => exact revalidateAssignments_refines ctx impl
  | revalidateAgentAssignments agent boot => exact revalidateAgentAssignments_refines ctx impl agent boot
  | expireLeases => exact expireLeases_refines ctx.now impl

/-- The second section of a checked call moves authority; a plan needs the leave of the gate. -/
theorem finishCall_refines {call : Call} (hpermits : gate.Permits ctx.now) (hcall : call.Checked)
    (hgate : ∀ plan work, call = .schedule plan →
      commitCheck ctx impl plan.work plan.generation plan.binding = .ok work →
      gate.commits impl.ledger plan.binding) :
    Refines gate impl (finishCall ctx impl call).2 := by
  cases call with
  | schedule plan =>
    have hwork : plan.binding.work = plan.work := hcall
    change Refines gate impl (scheduleCommit ctx impl plan.work plan.generation plan.decision plan.binding).2
    rw [← hwork]
    exact scheduleCommit_refines plan.decision fun work hcheck => hgate plan work rfl (hwork ▸ hcheck)
  | dispatch assignment generation => exact dispatchCommit_refines ctx impl assignment generation
  | registerAgent descriptor => exact registerAgentCommit_refines ctx.now impl descriptor hcall
  | submitWork request => exact submitWorkCommit_refines ctx.now impl request hcall
  | cancelWork work generation reason => exact cancelWorkCommit_refines hpermits impl work generation reason
  | declareAgentLost agent boot reason => exact declareAgentLostCommit_refines ctx.now impl agent boot reason

theorem registerAgentBegin_boot {descriptor : AgentDescriptor} (h : registerAgentBegin impl descriptor = .ok ()) :
    descriptor.boot ≠ 0 := by
  unfold registerAgentBegin at h
  simp only [check_bind_eq_ok] at h
  have hvalid := h.1
  unfold AgentDescriptor.validate at hvalid
  simp only [check_bind_eq_ok, rejectIf_eq_ok] at hvalid
  intro hzero
  refine hvalid.2.2.1 ?_
  rw [hzero]
  rfl

theorem submitWorkBegin_wellShaped {request : WorkRequest} {unchanged : Bool}
    (h : submitWorkBegin impl request = .ok unchanged) : request.canonicalize.WellShaped := by
  unfold submitWorkBegin at h
  simp only [check_bind_eq_ok] at h
  exact WorkRequest.validate_wellShaped h.1

theorem scheduleBegin_binding {work : WorkId} {generation : WorkGeneration} {binding : AssignmentBinding}
    (h : (scheduleBegin ctx impl work generation).binding = some binding) :
    ∃ record, impl.work[work]? = some record ∧ record.request.generation = generation ∧
      (planLocked ctx impl record).binding = some binding := by
  unfold scheduleBegin at h
  split at h
  · cases h
  · next record hrecord =>
    split at h
    · cases h
    · next hgeneration => exact ⟨record, hrecord, by simpa using hgeneration, h⟩

/-- A plan in flight was made for a stored work item at the generation that was asked for. -/
theorem beginCall_schedule {era : Nat} {request : Request} {plan : Plan}
    (h : beginCall ctx impl era request = .inr (.schedule plan)) :
    plan.era = era ∧ ∃ record, impl.work[plan.work]? = some record ∧
      record.request.generation = plan.generation ∧ (planLocked ctx impl record).binding = some plan.binding := by
  cases request with
  | schedule work generation =>
    simp only [beginCall] at h
    split at h
    · cases h
    · next binding hbinding =>
      obtain rfl := Call.schedule.inj (Sum.inr.inj h)
      exact ⟨rfl, scheduleBegin_binding hbinding⟩
  | dispatch | registerAgent | submitWork | cancelWork | declareAgentLost =>
    simp only [beginCall] at h
    split at h <;> cases h

theorem beginCall_checked {era : Nat} {request : Request} {call : Call} (h : Consistent impl)
    (hbegin : beginCall ctx impl era request = .inr call) : call.Checked := by
  cases call with
  | schedule plan =>
    obtain ⟨-, record, hrecord, -, hplan⟩ := beginCall_schedule hbegin
    exact (planned_of_plan h hrecord hplan).1
  | registerAgent descriptor =>
    cases request with
    | registerAgent descriptor' =>
      simp only [beginCall] at hbegin
      split at hbegin
      · cases hbegin
      · next hchecked =>
        obtain rfl := Call.registerAgent.inj (Sum.inr.inj hbegin)
        exact registerAgentBegin_boot hchecked
    | schedule | dispatch | submitWork | cancelWork | declareAgentLost =>
      simp only [beginCall] at hbegin
      split at hbegin <;> cases hbegin
  | submitWork request' =>
    cases request with
    | submitWork request'' =>
      simp only [beginCall] at hbegin
      split at hbegin
      · cases hbegin
      · cases hbegin
      · next hchecked =>
        obtain rfl := Call.submitWork.inj (Sum.inr.inj hbegin)
        exact submitWorkBegin_wellShaped hchecked
    | schedule | dispatch | registerAgent | cancelWork | declareAgentLost =>
      simp only [beginCall] at hbegin
      split at hbegin <;> cases hbegin
  | dispatch | cancelWork | declareAgentLost => trivial

end Sections

/-! ### Steps of the system -/

/-- How a step changes the instance. -/
inductive Change (commits : Ledger → AssignmentBinding → Prop) (before after : System) (label : Label) : Prop
  | moves (hconsistent : Consistent after.impl)
      (hmoves : ReflTransGen (Move (Gate.committing before.now commits)) before.impl.ledger after.impl.ledger)
  | recovers (position : Nat) (file : Impl) (hlabel : label = .load position) (hfile : before.saved[position]? = some file)
      (hstopped : before.impl.running = false) (himpl : after.impl = restore before.impl (image file)) (hloads : after.loads = before.loads + 1)
  | constructs (options : SchedulerOptions) (generatedId : SchedulerId) (hlabel : label = .restart options generatedId)
      (himpl : construct options generatedId = some after.impl) (hcalls : after.calls = [])

/-- An instance as every reachable system has it. -/
structure Healthy (now : UInt64) (impl : Impl) : Prop where
  consistent : Consistent impl
  sound : Sound impl.ledger
  bounded : Bounded impl.ledger
  /-- only work whose deadline has passed is expired -/
  lapsed : ∀ work entry, impl.ledger.works work = some entry → entry.settled = some .expired →
    entry.request.LapsedAt now

/-- A system whose instance, files and calls in flight are as every reachable system has them. -/
structure System.Valid (system : System) : Prop where
  healthy : Healthy system.now system.impl
  calls : ∀ call ∈ system.calls, call.Checked
  saved : ∀ file ∈ system.saved, Healthy system.now file

section Steps
variable {commits : Ledger → AssignmentBinding → Prop} {system after : System} {label : Label} {reply : Reply}

/-- The plan a step commits, if it finishes a `schedule` call. -/
def System.Finishes (system : System) (label : Label) (plan : Plan) : Prop :=
  ∃ position, label = .finish position ∧ system.calls[position]? = some (.schedule plan)

theorem Change.quiet (hconsistent : Consistent system.impl) (himpl : after.impl = system.impl) :
    Change commits system after label :=
  .moves (himpl ▸ hconsistent) (by rw [himpl])

theorem Change.of_refines {impl : Impl} (hconsistent : Consistent system.impl) (himpl : after.impl = impl)
    (hrefines : Refines (Gate.committing system.now commits) system.impl impl) : Change commits system after label := by
  subst himpl
  exact .moves (hrefines hconsistent).1 (hrefines hconsistent).2

/-- Every step moves authority, recovers it from a file, or starts a fresh instance. -/
theorem System.step_change (hvalid : system.Valid) (hstep : system.step label = some (reply, after))
    (hplanned : (∃ request, label = .run (.scheduleBatch request)) →
      ∀ ledger entry binding, Planned ledger entry binding → commits ledger binding)
    (hfinish : ∀ plan work, system.Finishes label plan →
      commitCheck system.context system.impl plan.work plan.generation plan.binding = .ok work →
      commits system.impl.ledger plan.binding) :
    Change commits system after label := by
  have hpermits := Gate.committing_permits system.now commits
  have hconsistent := hvalid.healthy.consistent
  cases label with
  | tick now =>
    simp only [System.step] at hstep
    split at hstep
    · obtain ⟨-, rfl⟩ := Option.some.inj hstep
      exact Change.quiet hconsistent rfl
    · cases hstep
  | provide feasibility =>
    obtain ⟨-, rfl⟩ := Option.some.inj hstep
    exact Change.quiet hconsistent rfl
  | run operation =>
    obtain ⟨-, rfl⟩ := Option.some.inj hstep
    exact Change.of_refines hconsistent rfl (runOperation_refines hpermits operation fun hbatch =>
      hplanned (hbatch.imp fun _ heq => congrArg Label.run heq))
  | «begin» request =>
    simp only [System.step] at hstep
    split at hstep
    all_goals
      obtain ⟨-, rfl⟩ := Option.some.inj hstep
      exact Change.quiet hconsistent rfl
  | finish position =>
    simp only [System.step] at hstep
    split at hstep
    · cases hstep
    · next call hcall =>
      obtain ⟨-, rfl⟩ := Option.some.inj hstep
      refine Change.of_refines hconsistent rfl
        (finishCall_refines hpermits (hvalid.calls call (List.mem_of_getElem? hcall)) fun plan work heq hcheck => ?_)
      exact hfinish plan work ⟨position, rfl, heq ▸ hcall⟩ hcheck
  | save =>
    obtain ⟨-, rfl⟩ := Option.some.inj hstep
    exact Change.quiet hconsistent rfl
  | load position =>
    simp only [System.step] at hstep
    split at hstep
    · cases hstep
    · next file hfile =>
      split at hstep
      · obtain ⟨-, rfl⟩ := Option.some.inj hstep
        exact Change.quiet hconsistent rfl
      · next hstopped =>
        obtain ⟨-, rfl⟩ := Option.some.inj hstep
        exact .recovers position file rfl hfile (by simpa using hstopped) rfl rfl
  | restart options generatedId =>
    simp only [System.step, Option.map_eq_some_iff] at hstep
    obtain ⟨impl, hconstruct, heq⟩ := hstep
    obtain ⟨-, rfl⟩ := heq
    exact .constructs options generatedId rfl hconstruct rfl

/-- What a step does to everything but the instance. -/
structure System.Frame (system after : System) (label : Label) : Prop where
  now : system.now ≤ after.now
  saved : ∀ file ∈ after.saved, file ∈ system.saved ∨ file = system.impl
  /-- a call is either in flight already or starts in this step, which then changes nothing else -/
  calls : ∀ call ∈ after.calls, call ∈ system.calls ∨ after.impl = system.impl ∧ after.loads = system.loads ∧
    ∃ request, beginCall system.context system.impl system.loads request = .inr call
  loads : after.loads = system.loads ∨ after.loads = system.loads + 1 ∧ ∃ position, label = .load position

theorem System.step_frame (hstep : system.step label = some (reply, after)) : system.Frame after label := by
  have hsame : ∀ file ∈ system.saved, file ∈ system.saved ∨ file = system.impl := fun _ => .inl
  cases label with
  | tick now =>
    simp only [System.step] at hstep
    split at hstep
    · next hnow =>
      obtain ⟨-, rfl⟩ := Option.some.inj hstep
      exact ⟨hnow, hsame, fun _ => .inl, .inl rfl⟩
    · cases hstep
  | provide feasibility =>
    obtain ⟨-, rfl⟩ := Option.some.inj hstep
    exact ⟨UInt64.le_refl _, hsame, fun _ => .inl, .inl rfl⟩
  | run operation =>
    obtain ⟨-, rfl⟩ := Option.some.inj hstep
    exact ⟨UInt64.le_refl _, hsame, fun _ => .inl, .inl rfl⟩
  | «begin» request =>
    simp only [System.step] at hstep
    split at hstep
    · obtain ⟨-, rfl⟩ := Option.some.inj hstep
      exact ⟨UInt64.le_refl _, hsame, fun _ => .inl, .inl rfl⟩
    · next call hbegin =>
      obtain ⟨-, rfl⟩ := Option.some.inj hstep
      refine ⟨UInt64.le_refl _, hsame, fun other hother => ?_, .inl rfl⟩
      rcases List.mem_append.mp hother with hold | hnew
      · exact .inl hold
      · obtain rfl := List.mem_singleton.mp hnew
        exact .inr ⟨rfl, rfl, request, hbegin⟩
  | finish position =>
    simp only [System.step] at hstep
    split at hstep
    · cases hstep
    · obtain ⟨-, rfl⟩ := Option.some.inj hstep
      exact ⟨UInt64.le_refl _, hsame, fun _ hcall => .inl (List.mem_of_mem_eraseIdx hcall), .inl rfl⟩
  | save =>
    obtain ⟨-, rfl⟩ := Option.some.inj hstep
    refine ⟨UInt64.le_refl _, fun file hfile => ?_, fun _ => .inl, .inl rfl⟩
    rcases List.mem_append.mp hfile with hold | hnew
    · exact .inl hold
    · exact .inr (List.mem_singleton.mp hnew)
  | load position =>
    simp only [System.step] at hstep
    split at hstep
    · cases hstep
    · split at hstep
      · obtain ⟨-, rfl⟩ := Option.some.inj hstep
        exact ⟨UInt64.le_refl _, hsame, fun _ => .inl, .inl rfl⟩
      · obtain ⟨-, rfl⟩ := Option.some.inj hstep
        exact ⟨UInt64.le_refl _, hsame, fun _ => .inl, .inr ⟨rfl, position, rfl⟩⟩
  | restart options generatedId =>
    simp only [System.step, Option.map_eq_some_iff] at hstep
    obtain ⟨impl, -, heq⟩ := hstep
    obtain ⟨-, rfl⟩ := heq
    exact ⟨UInt64.le_refl _, hsame, fun _ hcall => (List.not_mem_nil hcall).elim, .inl rfl⟩

/-! ### Reachable systems are valid -/

theorem WorkRequest.LapsedAt.mono {request : WorkRequest} {now later : UInt64} (h : request.LapsedAt now)
    (hle : now ≤ later) : request.LapsedAt later := ⟨h.1, Nat.lt_of_lt_of_le h.2 hle⟩

theorem Healthy.later {impl : Impl} {now later : UInt64} (h : Healthy now impl) (hle : now ≤ later) :
    Healthy later impl :=
  ⟨h.consistent, h.sound, h.bounded, fun work entry hentry hsettled => (h.lapsed work entry hentry hsettled).mono hle⟩

private theorem lapsed_move {now : UInt64} {ledger ledger' : Ledger}
    (hmove : Move (Gate.committing now commits) ledger ledger')
    (h : ∀ work entry, ledger.works work = some entry → entry.settled = some .expired → entry.request.LapsedAt now) :
    ∀ work entry, ledger'.works work = some entry → entry.settled = some .expired → entry.request.LapsedAt now := by
  have hset : ∀ (work : WorkId) (entry : WorkEntry),
      (entry.settled = some .expired → entry.request.LapsedAt now) → ∀ other found,
        (ledger.setWork work entry).works other = some found → found.settled = some .expired →
          found.request.LapsedAt now := by
    intro work entry hentry other found hfound
    by_cases hwork : other = work
    · subst hwork
      obtain rfl : entry = found := by simpa [Ledger.setWork] using hfound
      exact hentry
    · exact h other found (by simpa [Ledger.setWork, Function.update_of_ne hwork] using hfound)
  cases hmove with
  | accept work entry _ hfresh _ =>
    refine hset work entry fun hexpired => ?_
    rw [hfresh] at hexpired
    cases hexpired
  | settle work old lifecycle _ hold _ hsettles =>
    exact hset work _ fun hexpired => hsettles (Option.some.inj hexpired)
  | commit entry binding hcommits _ => exact hset binding.work _ (h binding.work entry hcommits.work)
  | close | repolicy | enroll | republish | silence | advance | promote => exact h

theorem Healthy.moves {now : UInt64} {impl impl' : Impl} (h : Healthy now impl) (hconsistent : Consistent impl')
    (hmoves : ReflTransGen (Move (Gate.committing now commits)) impl.ledger impl'.ledger) : Healthy now impl' := by
  let invariant (ledger : Ledger) : Prop := (Sound ledger ∧ Bounded ledger) ∧
    ∀ work entry, ledger.works work = some entry → entry.settled = some .expired → entry.request.LapsedAt now
  have hkept : invariant impl'.ledger :=
    Runs.keeps (motive := invariant)
      (fun _ _ hmove hinv => ⟨⟨hmove.sound hinv.1.1, hmove.bounded hinv.1.1 hinv.1.2⟩, lapsed_move hmove hinv.2⟩)
      hmoves ⟨⟨h.sound, h.bounded⟩, h.lapsed⟩
  exact ⟨hconsistent, hkept.1.1, hkept.1.2, hkept.2⟩

theorem Healthy.restore {now : UInt64} {file : Impl} (h : Healthy now file) (impl : Impl) :
    Healthy now (restore impl (image file)) := by
  obtain ⟨hconsistent, hledger⟩ := restore_image impl h.consistent
  refine ⟨hconsistent, hledger ▸ h.sound.recover, ?_, ?_⟩
  · rw [hledger]
    exact h.bounded.backed (file.ledger.backed_recover impl.ledger) (file.ledger.succeeds_recover impl.ledger)
  · rw [hledger]
    exact h.lapsed

/-- A ledger without work and assignments is sound, bounded, and has nothing expired. -/
theorem Healthy.construct {now : UInt64} {options : SchedulerOptions} {generatedId : SchedulerId} {impl : Impl}
    (h : construct options generatedId = some impl) : Healthy now impl := by
  obtain ⟨hconsistent, hworks, hassignments⟩ := construct_spec h
  have hidle : ∀ p, impl.ledger.active p = ∅ := by
    refine fun p => Set.eq_empty_of_forall_notMem ?_
    rintro id ⟨record, hrecord, -⟩
    rw [hassignments] at hrecord
    cases hrecord
  have hnone : ∀ {P : Prop} (work : WorkId) (entry : WorkEntry), impl.ledger.works work = some entry → P := by
    intro P work entry hentry
    rw [hworks] at hentry
    cases hentry
  refine ⟨hconsistent, fun id record hrecord => ?_, ⟨fun _ _ => hnone _ _, fun _ _ => hnone _ _,
    fun _ _ _ => hnone _ _, fun work => ?_⟩, fun _ _ => hnone _ _⟩
  · rw [hassignments] at hrecord
    cases hrecord
  · rw [Ledger.exclusiveFor, hidle, Set.encard_empty]
    exact zero_le

theorem Healthy.change (hvalid : system.Valid) (hchange : Change commits system after label) :
    Healthy system.now after.impl := by
  cases hchange with
  | moves hconsistent hmoves => exact hvalid.healthy.moves hconsistent hmoves
  | recovers position file _ hfile _ himpl _ =>
    rw [himpl]
    exact (hvalid.saved file (List.mem_of_getElem? hfile)).restore system.impl
  | constructs options generatedId _ himpl _ => exact Healthy.construct himpl

/-- Every step keeps a system valid. -/
theorem System.Valid.step (hvalid : system.Valid) (hstep : system.step label = some (reply, after)) : after.Valid := by
  have hchange : Change (fun _ _ => True) system after label :=
    System.step_change hvalid hstep (fun _ _ _ _ _ => trivial) fun _ _ _ _ => trivial
  have hframe := System.step_frame hstep
  refine ⟨(Healthy.change hvalid hchange).later hframe.now, fun call hcall => ?_, fun file hfile => ?_⟩
  · rcases hframe.calls call hcall with hold | ⟨-, -, request, hbegin⟩
    · exact hvalid.calls call hold
    · exact beginCall_checked hvalid.healthy.consistent hbegin
  · rcases hframe.saved file hfile with hold | rfl
    · exact (hvalid.saved file hold).later hframe.now
    · exact hvalid.healthy.later hframe.now

end Steps

/-! ### Runs -/

/-- One step of the system whose label meets a condition. -/
def System.Steps (allowed : System → Label → Prop) (system after : System) : Prop :=
  ∃ label reply, allowed system label ∧ system.step label = some (reply, after)

/-- Runs of the system in which every step meets a condition. -/
abbrev System.Runs (allowed : System → Label → Prop) : System → System → Prop :=
  ReflTransGen (System.Steps allowed)

/-- A system that was just constructed. -/
def System.IsInitial (system : System) : Prop :=
  ∃ options generatedId now, System.initial options generatedId now = some system

/-- What some run from a freshly constructed system leads to, when every step meets a condition. -/
def System.ReachableBy (allowed : System → Label → Prop) (system : System) : Prop :=
  ∃ start : System, start.IsInitial ∧ System.Runs allowed start system

/-- What some run from a freshly constructed system leads to. -/
abbrev System.Reachable (system : System) : Prop := system.ReachableBy fun _ _ => True

section Reachable
variable {allowed : System → Label → Prop} {system after : System}

theorem System.IsInitial.valid (h : system.IsInitial) : system.Valid := by
  obtain ⟨options, generatedId, now, h⟩ := h
  obtain ⟨impl, hconstruct, rfl⟩ := Option.map_eq_some_iff.mp h
  exact ⟨Healthy.construct hconstruct, fun _ hcall => (List.not_mem_nil hcall).elim,
    fun _ hfile => (List.not_mem_nil hfile).elim⟩

theorem System.Steps.valid (hstep : system.Steps allowed after) (h : system.Valid) : after.Valid := by
  obtain ⟨label, reply, -, hstep⟩ := hstep
  exact h.step hstep

theorem System.Runs.valid (hrun : System.Runs allowed system after) (h : system.Valid) : after.Valid :=
  Runs.keeps (fun _ _ hstep => hstep.valid) hrun h

theorem System.ReachableBy.valid (h : system.ReachableBy allowed) : system.Valid := by
  obtain ⟨start, hstart, hrun⟩ := h
  exact hrun.valid hstart.valid

/-- What holds initially and is kept by every allowed step of a valid system holds wherever runs lead. -/
theorem System.ReachableBy.keeps {motive : System → Prop} (h : system.ReachableBy allowed)
    (hinitial : ∀ start : System, start.IsInitial → motive start)
    (hstep : ∀ (s s' : System) label reply, s.Valid → allowed s label → s.step label = some (reply, s') →
      motive s → motive s') : motive system := by
  obtain ⟨start, hstart, hrun⟩ := h
  refine (Runs.keeps (motive := fun s => s.Valid ∧ motive s) (fun s s' hs hinv => ?_) hrun
    ⟨hstart.valid, hinitial start hstart⟩).2
  obtain ⟨label, reply, hallowed, hs⟩ := hs
  exact ⟨hinv.1.step hs, hstep s s' label reply hinv.1 hallowed hs hinv.2⟩

theorem System.Runs.mono {allowed' : System → Label → Prop} (h : System.Runs allowed system after)
    (himplies : ∀ s label, allowed s label → allowed' s label) : System.Runs allowed' system after := by
  refine ReflTransGen.mono (fun s s' hs => ?_) _ _ h
  obtain ⟨label, reply, hallowed, hstep⟩ := hs
  exact ⟨label, reply, himplies s label hallowed, hstep⟩

theorem System.ReachableBy.mono {allowed' : System → Label → Prop} (h : system.ReachableBy allowed)
    (himplies : ∀ s label, allowed s label → allowed' s label) : system.ReachableBy allowed' := by
  obtain ⟨start, hstart, hrun⟩ := h
  exact ⟨start, hstart, hrun.mono himplies⟩

theorem System.ReachableBy.trans (h : system.ReachableBy allowed) (hrun : System.Runs allowed system after) :
    after.ReachableBy allowed := by
  obtain ⟨start, hstart, hbefore⟩ := h
  exact ⟨start, hstart, hbefore.trans hrun⟩

theorem System.perform_runs [∀ system label, Decidable (allowed system label)] {labels : List Label}
    (h : system.perform allowed labels = some after) : System.Runs allowed system after := by
  induction labels generalizing system with
  | nil =>
    obtain rfl := Option.some.inj h
    exact .refl
  | cons label labels ih =>
    unfold System.perform at h
    split at h
    · next hallowed =>
      obtain ⟨⟨reply, next⟩, hstep, hrest⟩ := Option.bind_eq_some_iff.mp h
      exact .head ⟨label, reply, hallowed, hstep⟩ (ih hrest)
    · cases h

end Reachable

/-! ### Concrete runs -/

namespace Sample

def options : SchedulerOptions := { schedulerId := 7 }

def boot : AgentBootId := ⟨⟨0, 1⟩⟩

def descriptor : AgentDescriptor :=
  { id := 1, generation := 1, boot := boot, registrationGeneration := 1, maxConcurrency := 4 }

def profile : CapabilityProfile := { profileId := 1, generation := 1, boot := boot }

def health : HealthObservation := { generation := 1, health := .healthy, healthQuality := 1000 }

def availability : AvailabilityObservation :=
  { generation := 1, availability := .available, reachability := .reachable, readiness := .ready }

/-- Work that only one agent may hold at a time. -/
def exclusiveWork : WorkRequest := { id := 5, generation := 1, queue := 1, queueGeneration := 1 }

/-- The same work with two slots. -/
def parallelWork : WorkRequest :=
  { exclusiveWork with mode := .parallel, requirements := { maxParallel := 2, maxAssignmentsPerAgent := 2 } }

/-- An agent registers and publishes everything it needs to be eligible. -/
def enlist : List Label :=
  [.begin (.registerAgent descriptor), .finish 0, .run (.publishCapabilities 1 boot profile),
   .run (.publishHealth 1 boot health), .run (.publishAvailability 1 boot availability)]

/-- A work item is submitted. -/
def submit (request : WorkRequest) : List Label := [.begin (.submitWork request), .finish 0]

/-- The work item is scheduled. -/
def schedule : List Label := [.begin (.schedule 5 1), .finish 0]

def run (allowed : System → Label → Prop) [∀ system label, Decidable (allowed system label)] (labels : List Label) :
    Option System :=
  (System.initial options 0 1000).bind fun start => start.perform allowed labels

theorem run_reaches {allowed : System → Label → Prop} [∀ system label, Decidable (allowed system label)]
    {labels : List Label} {system : System} (h : run allowed labels = some system) : system.ReachableBy allowed := by
  obtain ⟨start, hstart, hrun⟩ := Option.bind_eq_some_iff.mp h
  exact ⟨start, ⟨options, 0, 1000, hstart⟩, System.perform_runs hrun⟩

end Sample

end AgentScheduler
