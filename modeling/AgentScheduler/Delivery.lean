import AgentScheduler.Routing

/-! What a scheduling pass does about the assignments that its batch stored, whatever goes on between its steps. -/
namespace AgentScheduler
open Std KeyedTable Relation ByteCodec

/-- Only the lease expiry of two bindings may differ. -/
def AssignmentBinding.Agrees (binding other : AssignmentBinding) : Prop :=
  other = { binding with leaseExpiresAtMs := other.leaseExpiresAtMs }

namespace PassStage

/-- The assignment that the pass is busy with. -/
def current : PassStage → Option AssignmentBinding
  | .idle => none
  | .dispatching binding | .dispatched binding _ | .addressed binding _ _ | .routed binding _ _ _ => some binding

/-- What the pass has handed off and not pushed yet. -/
def handoff : PassStage → Option AssignmentBinding
  | .idle | .dispatching _ => none
  | .dispatched _ handoff => some handoff
  | .addressed _ message _ | .routed _ message _ _ => some message.binding

end PassStage

namespace Coordinator

/-- What a pass and everything around it can do in one step, as long as the step meets a condition. -/
def PassSteps (allowed : Coordinator → SchedulingPass → PassAction → Prop) (before after : Coordinator × SchedulingPass) : Prop :=
  ∃ action, allowed before.1 before.2 action ∧ before.1.passStep before.2 action = some after

/-- The session can queue the message. -/
def Takes (coordinator : Coordinator) (id : SessionId) (message : AssignWorkMessage) : Prop :=
  ∃ session frame bytes, coordinator.sessions[id]? = some session ∧ session.closing = false ∧
    session.outbound.length < coordinator.options.limits.maxSendQueue.toNat ∧
    encodeMessage .assignWork 0 (message.puts coordinator.options.limits) coordinator.options.limits = some frame ∧
    encodeFrame frame coordinator.options.limits.maxFrameSize = some bytes

/-- The step does not leave a dispatched assignment without its message, or send it without the payload of its work. -/
def Conveys (coordinator : Coordinator) (pass : SchedulingPass) : PassAction → Prop
  | .findSession =>
    match pass.stage with
    | .addressed binding message _ =>
      coordinator.route binding.agent binding.boot = none →
        coordinator.system.impl.assignmentState message.binding.id ≠ some .dispatched
    | _ => True
  | .push =>
    match pass.stage with
    | .routed _ message work id =>
      (coordinator.Takes id message → ∀ record, work = some record → record.request.payloadRef = "") ∧
        (¬coordinator.Takes id message → coordinator.system.impl.assignmentState message.binding.id ≠ some .dispatched)
    | _ => True
  | _ => True

/-- A push brought the handoff to a session that the bound boot registered through, with the kind and the payload of its work, or
it left the assignment in another state than dispatched. -/
def Settles (coordinator : Coordinator) (push : Push) : Prop :=
  match push.session with
  | some id =>
    ⟨id, push.message.binding.agent, push.message.binding.boot⟩ ∈ coordinator.registrations ∧
      ∃ work, push.work = some work ∧ work.request.id = push.message.binding.work ∧
        push.message.kind = work.request.kind ∧ push.message.payloadRef = work.request.payloadRef
  | none => push.left ≠ some .dispatched

/-- What a pass that is through has done about the assignments its batch stored. -/
structure Delivered (before started after : Coordinator) (pass : SchedulingPass) : Prop where
  offered : ∀ (id : AssignmentId) record, started.system.impl.assignments[id]? = some record →
    before.system.impl.assignments[id]? = none → pass.offers.count (id, record.binding.generation) = 1
  /-- there is one push for every handoff -/
  pushed : pass.pushes.map (fun push => push.message.binding) = pass.handoffs
  settled : ∀ push ∈ pass.pushes, after.Settles push

/-- What holds of a pass between its steps; `batch` are the assignments it set out with. -/
structure Passing (batch : List AssignmentBinding) (coordinator : Coordinator) (pass : SchedulingPass) : Prop where
  reachable : coordinator.Reachable
  offers : pass.offers ++ pass.pending.map (fun binding => (binding.id, binding.generation)) =
    batch.map fun binding => (binding.id, binding.generation)
  pushed : pass.pushes.map (fun push => push.message.binding) ++ pass.stage.handoff.toList = pass.handoffs
  stored : ∀ binding, binding ∈ pass.pending ∨ pass.stage.current = some binding →
    ∃ record, coordinator.system.impl.assignments[binding.id]? = some record ∧ binding.Agrees record.binding
  agrees : ∀ binding handoff, pass.stage.current = some binding → pass.stage.handoff = some handoff → binding.Agrees handoff
  works : ∀ binding handoff, pass.stage = .dispatched binding handoff → coordinator.system.impl.work[binding.work]? ≠ none
  routes : ∀ binding message work id, pass.stage = .routed binding message work id →
    ⟨id, binding.agent, binding.boot⟩ ∈ coordinator.registrations
  messages : ∀ binding message work, pass.stage = .addressed binding message work ∨ (∃ id, pass.stage = .routed binding message work id) →
    message.payloadRef = "" ∧ ∃ record, work = some record ∧ record.request.id = binding.work ∧ message.kind = record.request.kind
  /-- whatever was queued went where it belongs, its payload aside -/
  history : ∀ push ∈ pass.pushes, push.message.payloadRef = "" ∧ ∀ id, push.session = some id →
    ⟨id, push.message.binding.agent, push.message.binding.boot⟩ ∈ coordinator.registrations ∧
      ∃ work, push.work = some work ∧ work.request.id = push.message.binding.work ∧ push.message.kind = work.request.kind

end Coordinator

/-! ### Dispatching -/

section Dispatching
variable {system after : System} {reply : Reply}

theorem revalidateAuthority_neverAssigns (ctx : Context) (impl : Impl) (record : AssignmentRecord) :
    NeverAssigns (revalidateAuthority ctx impl record) := by
  unfold revalidateAuthority revalidateScheduler revalidateWork revalidateAgent revalidateEvidence
  repeat' first
  | refine NeverAssigns.refuseIf ?_
  | refine NeverAssigns.lookupOrRefuse ?_
  | refine NeverAssigns.bind ?_ fun _ => ?_
  all_goals nofun

/-- A dispatch that is refused does not report an assignment. -/
theorem dispatchBegin_unassigned {ctx : Context} {impl : Impl} {id : AssignmentId} {generation : AssignmentGeneration}
    {result : DispatchResult} (h : dispatchBegin ctx impl id generation = .error result) : result.outcome ≠ .assigned := by
  have hnever : NeverAssigns (dispatchCheck ctx impl id generation) := by
    unfold dispatchCheck dispatchGates
    refine .bind (.lookupOrRefuse nofun) fun record => .bind ?_ fun _ => revalidateAuthority_neverAssigns ctx impl record
    repeat' first
    | refine NeverAssigns.refuseIf ?_
    | refine NeverAssigns.bind ?_ fun _ => ?_
    all_goals nofun
  unfold dispatchBegin at h
  split at h
  · next outcome detail hcheck =>
    obtain rfl := Except.error.inj h
    exact hnever _ hcheck
  · cases h

/-- The second section of a dispatch hands off what it was called for, or does not report an assignment. -/
theorem dispatchCommit_answers {ctx : Context} {impl : Impl} {id : AssignmentId} {generation : AssignmentGeneration} :
    ((dispatchCommit ctx impl id generation).1.outcome ≠ .assigned) ∨
      ∃ record, handoffCheck ctx impl id generation = .ok record ∧
        (dispatchCommit ctx impl id generation).1.outcome = .assigned ∧
        (dispatchCommit ctx impl id generation).1.handoff = some (record.handOff ctx.now impl.policy.assignmentLeaseTtlMs).binding := by
  have hnever : NeverAssigns (handoffCheck ctx impl id generation) := by
    unfold handoffCheck
    refine .bind (.lookupOrRefuse nofun) fun record => .bind (.refuseIf nofun) fun _ => .bind (.refuseIf ?_) fun _ =>
      .bind (revalidateAuthority_neverAssigns ctx impl record) fun _ => .ok record
    split <;> nofun
  unfold dispatchCommit
  cases hcheck : handoffCheck ctx impl id generation with
  | error rejection => exact .inl (hnever _ hcheck)
  | ok record => exact .inr ⟨record, rfl, rfl, rfl⟩

end Dispatching

/-! ### The steps of a pass -/

theorem AssignmentBinding.Agrees.refl (binding : AssignmentBinding) : binding.Agrees binding := rfl

theorem AssignmentBinding.Agrees.trans {first second third : AssignmentBinding} (h : first.Agrees second) (h' : second.Agrees third) :
    first.Agrees third := by
  unfold AssignmentBinding.Agrees at *
  rw [h', h]

namespace Coordinator
section Steps
variable {batch : List AssignmentBinding} {coordinator after : Coordinator} {pass : SchedulingPass}
  {binding handoff : AssignmentBinding} {message : AssignWorkMessage} {work : Option WorkRecord}

theorem Passing.beside (h : Passing batch coordinator pass) {action : Action} (hstep : coordinator.step action = some after) :
    Passing batch after pass := by
  have hregistrations := step_registrations hstep
  have hkeeps : coordinator.system.impl.ledger.Extends after.system.impl.ledger ∧
      ∀ work : WorkId, coordinator.system.impl.work[work]? ≠ none → after.system.impl.work[work]? ≠ none := by
    rcases step_system hstep with hsame | ⟨label, reply, hcontinues, hsystem⟩
    · rw [hsame]
      exact ⟨.refl _, fun _ hknown => hknown⟩
    · exact System.step_keeps h.reachable.tracked.valid hcontinues hsystem
  obtain ⟨start, hstart, hrun⟩ := h.reachable
  refine ⟨⟨start, hstart, hrun.tail ⟨action, hstep⟩⟩, h.offers, h.pushed, fun binding hbinding => ?_, h.agrees, ?_, ?_, h.messages, ?_⟩
  · obtain ⟨record, hrecord, hagrees⟩ := h.stored binding hbinding
    obtain ⟨later, hlater, hevolves⟩ := hkeeps.1 binding.id record hrecord
    exact ⟨later, hlater, hagrees.trans hevolves.binding⟩
  · exact fun binding handoff hstage => hkeeps.2 _ (h.works binding handoff hstage)
  · exact fun binding message work id hstage => hregistrations _ (h.routes binding message work id hstage)
  · intro push hpush
    obtain ⟨hpayload, hqueued⟩ := h.history push hpush
    refine ⟨hpayload, fun id hsession => ?_⟩
    obtain ⟨hregistered, hwork⟩ := hqueued id hsession
    exact ⟨hregistrations _ hregistered, hwork⟩

theorem Passing.offered (h : Passing batch coordinator pass) {pending : List AssignmentBinding} (hstage : pass.stage = .idle)
    (hpending : pass.pending = binding :: pending) : Passing batch coordinator
      { pass with pending, offers := pass.offers ++ [(binding.id, binding.generation)], stage := .dispatching binding } := by
  refine ⟨h.reachable, ?_, ?_, ?_, ?_, ?_, ?_, ?_, h.history⟩
  · have hoffers := h.offers
    rw [hpending] at hoffers
    simpa using hoffers
  · have hpushed := h.pushed
    rw [hstage] at hpushed
    exact hpushed
  · rintro other (hmem | hcurrent)
    · exact h.stored other (.inl (hpending ▸ List.mem_cons_of_mem _ hmem))
    · obtain rfl := Option.some.inj hcurrent
      exact h.stored binding (.inl (hpending ▸ List.mem_cons_self))
  · rintro _ _ _ ⟨⟩
  · rintro _ _ ⟨⟩
  · rintro _ _ _ _ ⟨⟩
  · rintro _ _ _ (⟨⟨⟩⟩ | ⟨_, ⟨⟩⟩)

theorem Passing.refused (h : Passing batch coordinator pass) (hstage : pass.stage = .dispatching binding) :
    Passing batch coordinator { pass with stage := .idle } := by
  refine ⟨h.reachable, h.offers, ?_, ?_, ?_, ?_, ?_, ?_, h.history⟩
  · have hpushed := h.pushed
    rw [hstage] at hpushed
    exact hpushed
  · rintro other (hmem | ⟨⟨⟩⟩)
    exact h.stored other (.inl hmem)
  · rintro _ _ ⟨⟩
  · rintro _ _ ⟨⟩
  · rintro _ _ _ _ ⟨⟩
  · rintro _ _ _ (⟨⟨⟩⟩ | ⟨_, ⟨⟩⟩)

theorem Passing.handedOff (h : Passing batch coordinator pass) (hstage : pass.stage = .dispatching binding)
    (hagrees : binding.Agrees handoff) (hwork : coordinator.system.impl.work[binding.work]? ≠ none) :
    Passing batch coordinator { pass with stage := .dispatched binding handoff, handoffs := pass.handoffs ++ [handoff] } := by
  refine ⟨h.reachable, h.offers, ?_, ?_, ?_, ?_, ?_, ?_, h.history⟩
  · have hpushed := h.pushed
    rw [hstage] at hpushed
    rw [← hpushed]
    simp [PassStage.handoff]
  · rintro other (hmem | hcurrent)
    · exact h.stored other (.inl hmem)
    · exact h.stored other (.inr (hstage ▸ hcurrent))
  · rintro _ _ ⟨⟩ ⟨⟩
    exact hagrees
  · rintro _ _ ⟨⟩
    exact hwork
  · rintro _ _ _ _ ⟨⟩
  · rintro _ _ _ (⟨⟨⟩⟩ | ⟨_, ⟨⟩⟩)

theorem Passing.addressed (h : Passing batch coordinator pass) (hstage : pass.stage = .dispatched binding handoff) {record : WorkRecord}
    (hrecord : coordinator.system.impl.work[binding.work]? = some record) : Passing batch coordinator
      { pass with stage := .addressed binding { binding := handoff, kind := record.request.kind, payloadRef := "" } (some record) } := by
  refine ⟨h.reachable, h.offers, ?_, ?_, ?_, ?_, ?_, ?_, h.history⟩
  · have hpushed := h.pushed
    rw [hstage] at hpushed
    exact hpushed
  · rintro other (hmem | hcurrent)
    · exact h.stored other (.inl hmem)
    · exact h.stored other (.inr (hstage ▸ hcurrent))
  · rintro _ _ ⟨⟩ ⟨⟩
    exact h.agrees binding handoff (hstage ▸ rfl) (hstage ▸ rfl)
  · rintro _ _ ⟨⟩
  · rintro _ _ _ _ ⟨⟩
  · rintro _ _ _ (⟨⟨⟩⟩ | ⟨_, ⟨⟩⟩)
    have hkey := h.reachable.tracked.valid.healthy.consistent.workKey binding.work record hrecord
    exact ⟨rfl, record, rfl, hkey, rfl⟩

theorem Passing.routed (h : Passing batch coordinator pass) (hstage : pass.stage = .addressed binding message work) {id : SessionId}
    (hroute : coordinator.route binding.agent binding.boot = some id) :
    Passing batch coordinator { pass with stage := .routed binding message work id } := by
  refine ⟨h.reachable, h.offers, ?_, ?_, ?_, ?_, ?_, ?_, h.history⟩
  · have hpushed := h.pushed
    rw [hstage] at hpushed
    exact hpushed
  · rintro other (hmem | hcurrent)
    · exact h.stored other (.inl hmem)
    · exact h.stored other (.inr (hstage ▸ hcurrent))
  · rintro _ _ ⟨⟩ ⟨⟩
    exact h.agrees binding message.binding (hstage ▸ rfl) (hstage ▸ rfl)
  · rintro _ _ ⟨⟩
  · rintro _ _ _ _ ⟨⟩
    unfold route at hroute
    split at hroute
    · next current found hentry =>
      split at hroute
      · next hcurrent =>
        obtain rfl := Option.some.inj hroute
        rw [← hcurrent.1]
        exact h.reachable.noted.entries binding.agent current found hentry
      · cases hroute
    · cases hroute
  · rintro _ _ _ (⟨⟨⟩⟩ | ⟨_, ⟨⟩⟩)
    exact h.messages binding message work (.inl hstage)

/-- A push ends, with the session that queued its message if one did. -/
theorem Passing.pushes (h : Passing batch coordinator pass) {session : Option SessionId} (hcurrent : pass.stage.current = some binding)
    (hhandoff : pass.stage.handoff = some message.binding)
    (hmessage : message.payloadRef = "" ∧ ∃ record, work = some record ∧ record.request.id = binding.work ∧ message.kind = record.request.kind)
    (hsession : ∀ id, session = some id → ⟨id, binding.agent, binding.boot⟩ ∈ coordinator.registrations) :
    Passing batch coordinator (pass.pushed coordinator.system.impl message work session) := by
  have hagrees := h.agrees binding message.binding hcurrent hhandoff
  refine ⟨h.reachable, h.offers, ?_, ?_, ?_, ?_, ?_, ?_, fun push hpush => ?_⟩
  · have hpushed := h.pushed
    rw [hhandoff] at hpushed
    rw [← show pass.handoffs = (pass.pushed coordinator.system.impl message work session).handoffs from rfl, ← hpushed]
    simp [SchedulingPass.pushed, PassStage.handoff]
  · rintro other (hmem | ⟨⟨⟩⟩)
    exact h.stored other (.inl hmem)
  · rintro _ _ ⟨⟩
  · rintro _ _ ⟨⟩
  · rintro _ _ _ _ ⟨⟩
  · rintro _ _ _ (⟨⟨⟩⟩ | ⟨_, ⟨⟩⟩)
  · rcases List.mem_append.mp hpush with hold | hnew
    · exact h.history push hold
    · obtain rfl := List.mem_singleton.mp hnew
      obtain ⟨hpayload, record, hwork, hid, hkind⟩ := hmessage
      refine ⟨hpayload, fun id hqueued => ⟨?_, record, hwork, ?_, hkind⟩⟩
      · change (⟨id, message.binding.agent, message.binding.boot⟩ : Registration) ∈ _
        rw [hagrees]
        exact hsession id hqueued
      · change record.request.id = message.binding.work
        rw [hagrees]
        exact hid

end Steps
end Coordinator

/-- A push queued its message for work without a payload, or left the assignment in another state than dispatched. -/
def Push.Sound (push : Push) : Prop :=
  match push.session with
  | some _ => ∀ record, push.work = some record → record.request.payloadRef = ""
  | none => push.left ≠ some .dispatched

namespace Coordinator
section Runs
variable {batch : List AssignmentBinding} {coordinator after : Coordinator} {pass passed : SchedulingPass}

theorem Passing.settles_iff (h : Passing batch coordinator pass) {push : Push} (hpush : push ∈ pass.pushes) :
    coordinator.Settles push ↔ push.Sound := by
  obtain ⟨hpayload, hqueued⟩ := h.history push hpush
  unfold Settles Push.Sound
  cases hsession : push.session with
  | none => exact Iff.rfl
  | some id =>
    obtain ⟨hregistered, record, hwork, hid, hkind⟩ := hqueued id hsession
    constructor
    · rintro ⟨-, found, hfound, -, -, hsame⟩ other hother
      obtain rfl := Option.some.inj (hfound.symm.trans hother)
      exact hsame.symm.trans hpayload
    · intro hempty
      exact ⟨hregistered, record, hwork, hid, hkind, hpayload.trans (hempty record hwork).symm⟩

theorem pushes_sound {push : Push} : (∀ found ∈ pass.pushes ++ [push], found.Sound) ↔
    (∀ found ∈ pass.pushes, found.Sound) ∧ push.Sound := by
  simp [or_imp, forall_and]

/-- A message is queued if and only if the session can take it. -/
theorem enqueue_takes {id : SessionId} {message : AssignWorkMessage} {frame : Frame} {session : Session}
    (hframe : encodeMessage .assignWork 0 (message.puts coordinator.options.limits) coordinator.options.limits = some frame)
    (hsession : coordinator.sessions[id]? = some session) :
    (session.enqueue frame coordinator.options.limits).1 = true ↔ coordinator.Takes id message := by
  unfold Takes
  simp only [hframe, hsession, Option.some.injEq]
  unfold Session.enqueue
  cases hbytes : encodeFrame frame coordinator.options.limits.maxFrameSize with
  | none =>
    simp only [Bool.false_eq_true, false_iff]
    rintro ⟨_, _, bytes, rfl, -, -, rfl, hencoded⟩
    rw [hbytes] at hencoded
    cases hencoded
  | some bytes =>
    simp only
    split
    · next hclosing =>
      simp only [Bool.false_eq_true, false_iff]
      rintro ⟨_, _, _, rfl, hopen, -⟩
      rw [hopen] at hclosing
      cases hclosing
    · next hopen =>
      split
      · next hfull =>
        simp only [Bool.false_eq_true, false_iff]
        rintro ⟨_, _, _, rfl, -, hroom, -⟩
        exact absurd hroom (Nat.not_lt.mpr hfull)
      · next hroom =>
        simp only [true_iff]
        exact ⟨session, frame, bytes, rfl, by simpa using hopen, Nat.lt_of_not_le hroom, rfl, hbytes⟩

/-- Every step keeps the pass in order, and nothing but a push that conveys adds to what is settled. -/
theorem Passing.step (h : Passing batch coordinator pass) {action : PassAction}
    (hstep : coordinator.passStep pass action = some (after, passed)) :
    Passing batch after passed ∧ ((∀ push ∈ passed.pushes, push.Sound) ↔
      (∀ push ∈ pass.pushes, push.Sound) ∧ coordinator.Conveys pass action) := by
  have hquiet : coordinator.Conveys pass action → ((∀ push ∈ pass.pushes, push.Sound) ↔
      (∀ push ∈ pass.pushes, push.Sound) ∧ coordinator.Conveys pass action) := fun hconveys => (and_iff_left hconveys).symm
  cases action with
  | offer =>
    simp only [passStep] at hstep
    split at hstep
    · next binding pending hstage hpending =>
      have hbegin : ∀ {reply system}, coordinator.system.step (.begin (.dispatch binding.id binding.generation)) = some (reply, system) →
          coordinator.step (.scheduler (.begin (.dispatch binding.id binding.generation))) = some { coordinator with system } := by
        intro reply system hsystem
        simp only [Coordinator.step]
        rw [if_pos (show coordinator.system.Serves (.begin (.dispatch binding.id binding.generation)) from trivial), hsystem]
        rfl
      split at hstep
      · next system hsystem =>
        obtain ⟨rfl, rfl⟩ := Prod.mk.inj (Option.some.inj hstep)
        exact ⟨(h.beside (hbegin hsystem)).offered hstage hpending, hquiet trivial⟩
      · next result system hsystem =>
        obtain ⟨rfl, rfl⟩ := Prod.mk.inj (Option.some.inj hstep)
        have hrefused : result.outcome ≠ .assigned := by
          simp only [System.step, beginCall] at hsystem
          split at hsystem
          · next reply hbegun =>
            split at hbegun
            · next hdispatch =>
              obtain rfl := Sum.inl.inj hbegun
              obtain rfl := Reply.dispatch.inj (Prod.mk.inj (Option.some.inj hsystem)).1
              exact dispatchBegin_unassigned hdispatch
            · cases hbegun
          · cases hsystem
        unfold SchedulingPass.answer
        simp only [if_neg hrefused]
        refine ⟨?_, hquiet trivial⟩
        exact ((h.beside (hbegin hsystem)).offered hstage hpending).refused rfl
      · cases hstep
    · cases hstep
  | handOff position =>
    simp only [passStep] at hstep
    split at hstep
    · next binding assignment generation hstage hcall =>
      split at hstep
      · cases hstep
      · next hsame =>
        rw [not_or, not_not, not_not] at hsame
        obtain ⟨rfl, rfl⟩ := hsame
        split at hstep
        · next result system hsystem =>
          obtain ⟨rfl, rfl⟩ := Prod.mk.inj (Option.some.inj hstep)
          have hbeside : Passing batch { coordinator with system } pass := by
            refine @Passing.beside _ _ _ _ h (.scheduler (.finish position)) ?_
            simp only [Coordinator.step]
            rw [if_pos (by simp [System.Serves, hcall]), hsystem]
            rfl
          have hform := hsystem
          simp only [System.step, hcall, finishCall] at hform
          have hresult : result = (dispatchCommit coordinator.system.context coordinator.system.impl binding.id binding.generation).1 :=
            (Reply.dispatch.inj (Prod.mk.inj (Option.some.inj hform)).1).symm
          rcases @dispatchCommit_answers coordinator.system.context coordinator.system.impl binding.id binding.generation with
            hrefused | ⟨record, hcheck, hassigned, hhandoff⟩
          · unfold SchedulingPass.answer
            rw [if_neg (hresult ▸ hrefused)]
            exact ⟨hbeside.refused hstage, hquiet trivial⟩
          · obtain ⟨hrecord, -, -, hauthority⟩ := handoffCheck_ok hcheck
            obtain ⟨found, hfound, hagrees⟩ := h.stored binding (.inr (hstage ▸ rfl))
            obtain rfl := Option.some.inj (hrecord.symm.trans hfound)
            obtain ⟨-, ⟨work, hwork, -⟩, -⟩ := revalidateAuthority_ok hauthority
            have hknown : coordinator.system.impl.work[binding.work]? ≠ none := by
              have hsubject : record.binding.work = binding.work := by
                rw [hagrees]
              rw [← hsubject, hwork]
              exact Option.some_ne_none work
            have hcontinues : (Label.finish position).Continues := trivial
            have hlater := (System.step_keeps h.reachable.tracked.valid hcontinues hsystem).2 binding.work hknown
            unfold SchedulingPass.answer
            rw [if_pos (hresult ▸ hassigned), hresult, hhandoff]
            exact ⟨hbeside.handedOff hstage (hagrees.trans rfl) hlater, hquiet trivial⟩
        · cases hstep
    · cases hstep
  | readWork =>
    simp only [passStep] at hstep
    split at hstep
    · next binding handoff hstage =>
      obtain ⟨rfl, rfl⟩ := Prod.mk.inj (Option.some.inj hstep)
      obtain ⟨record, hrecord⟩ := Option.ne_none_iff_exists'.mp (h.works binding handoff hstage)
      simp only [hrecord]
      exact ⟨h.addressed hstage hrecord, hquiet trivial⟩
    · cases hstep
  | findSession =>
    simp only [passStep] at hstep
    split at hstep
    · next binding message work hstage =>
      have hmessage := h.messages binding message work (.inl hstage)
      split at hstep
      · next id hroute =>
        obtain ⟨rfl, rfl⟩ := Prod.mk.inj (Option.some.inj hstep)
        refine ⟨h.routed hstage hroute, hquiet ?_⟩
        unfold Conveys
        simp only [hstage, hroute]
        exact fun hnone => by cases hnone
      · next hroute =>
        obtain ⟨rfl, rfl⟩ := Prod.mk.inj (Option.some.inj hstep)
        refine ⟨h.pushes (by rw [hstage]; rfl) (by rw [hstage]; rfl) hmessage (fun _ hnone => by cases hnone), ?_⟩
        unfold Conveys SchedulingPass.pushed
        simp only [hstage, hroute, forall_true_left]
        exact pushes_sound
    · cases hstep
  | push =>
    simp only [passStep] at hstep
    split at hstep
    · next binding message work id hstage =>
      have hmessage := h.messages binding message work (.inr ⟨id, hstage⟩)
      have hregistered := h.routes binding message work id hstage
      have hconveys : coordinator.Conveys pass .push ↔
          (coordinator.Takes id message → ∀ record, work = some record → record.request.payloadRef = "") ∧
            (¬coordinator.Takes id message → coordinator.system.impl.assignmentState message.binding.id ≠ some .dispatched) := by
        unfold Conveys
        rw [hstage]
      rw [hconveys]
      split at hstep
      · next frame session hframe hsession =>
        obtain ⟨rfl, rfl⟩ := Prod.mk.inj (Option.some.inj hstep)
        have hbeside : Passing batch (coordinator.setSession id (session.enqueue frame coordinator.options.limits).2) pass := by
          refine @Passing.beside _ _ _ _ h (.enqueue id frame) ?_
          simp only [Coordinator.step, hsession]
        have htaken := enqueue_takes hframe hsession
        by_cases htakes : coordinator.Takes id message
        · rw [if_pos (htaken.mpr htakes)]
          refine ⟨hbeside.pushes (by rw [hstage]; rfl) (by rw [hstage]; rfl) hmessage ?_, ?_⟩
          · rintro _ ⟨⟩
            exact hregistered
          · simp only [htakes, not_true_eq_false, forall_true_left, false_implies, and_true]
            exact pushes_sound
        · rw [if_neg fun hqueued => htakes (htaken.mp hqueued)]
          refine ⟨hbeside.pushes (by rw [hstage]; rfl) (by rw [hstage]; rfl) hmessage (fun _ hnone => by cases hnone), ?_⟩
          simp only [htakes, not_false_eq_true, forall_true_left, false_implies, true_and]
          exact pushes_sound
      · next hnothing =>
        obtain ⟨rfl, rfl⟩ := Prod.mk.inj (Option.some.inj hstep)
        have htakes : ¬coordinator.Takes id message := by
          rintro ⟨session, frame, -, hsession, -, -, hframe, -⟩
          exact hnothing frame session hframe hsession
        refine ⟨h.pushes (by rw [hstage]; rfl) (by rw [hstage]; rfl) hmessage (fun _ hnone => by cases hnone), ?_⟩
        simp only [htakes, not_false_eq_true, forall_true_left, false_implies, true_and]
        exact pushes_sound
    · cases hstep
  | other action =>
    obtain ⟨_, hother, hform⟩ := Option.map_eq_some_iff.mp hstep
    obtain ⟨rfl, rfl⟩ := Prod.mk.inj hform
    exact ⟨h.beside hother, hquiet trivial⟩

end Runs
end Coordinator

/-! ### Whole passes -/

namespace Coordinator

/-- The identities that the batch of a pass derives for its commits are not taken. -/
def PassFree (coordinator : Coordinator) : Prop :=
  coordinator.options.autoDispatch = true → coordinator.system.BatchFree coordinator.passRequest

/-- The batch of a pass makes its commits in its first pass over the work. -/
def PassOnce (coordinator : Coordinator) : Prop :=
  coordinator.options.autoDispatch = true → coordinator.system.BatchOnce coordinator.passRequest

section Passes
variable {coordinator started after : Coordinator} {pass passed : SchedulingPass}

/-- A pass sets out with what its batch logged. -/
theorem beginPass_passing (hreach : coordinator.Reachable) (hstart : coordinator.beginPass = (started, pass)) (hfree : coordinator.PassFree) :
    Passing pass.pending started pass ∧ pass.pushes = [] ∧
      (coordinator.PassOnce ↔ ∀ (id : AssignmentId) record, started.system.impl.assignments[id]? = some record →
        coordinator.system.impl.assignments[id]? = none →
          (pass.pending.map fun binding => (binding.id, binding.generation)).count (id, record.binding.generation) = 1) := by
  unfold beginPass at hstart
  split at hstart
  · next hauto =>
    obtain ⟨rfl, rfl⟩ := Prod.mk.inj hstart
    obtain ⟨state, hlogs, hlogged, hassignments, honce⟩ := scheduleBatch_logs hreach.tracked.valid rfl (hfree hauto)
    have hpending : (scheduleBatch coordinator.system.context coordinator.system.impl coordinator.passRequest).1.decisions.filterMap
        ScheduleDecision.assignment = state.batch.logged := hlogged
    have hstep : coordinator.step (.scheduler (.run (.scheduleBatch coordinator.passRequest))) =
        some { coordinator with system := { coordinator.system with
          impl := (scheduleBatch coordinator.system.context coordinator.system.impl coordinator.passRequest).2 } } := by
      simp only [Coordinator.step]
      rw [if_pos (show coordinator.system.Serves (.run (.scheduleBatch coordinator.passRequest)) from trivial)]
      rfl
    obtain ⟨start, hinitial, hrun⟩ := hreach
    refine ⟨⟨⟨start, hinitial, hrun.tail ⟨_, hstep⟩⟩, rfl, rfl, fun binding hbinding => ?_, ?_, ?_, ?_, ?_, ?_⟩, rfl, ?_⟩
    · rcases hbinding with hmem | ⟨⟨⟩⟩
      refine ⟨binding.record, ?_, .refl binding⟩
      change (scheduleBatch coordinator.system.context coordinator.system.impl coordinator.passRequest).2.assignments[binding.id]? = _
      rw [hassignments]
      exact hlogs.stored binding (hpending ▸ hmem)
    · rintro _ _ ⟨⟩
    · rintro _ _ ⟨⟩
    · rintro _ _ _ _ ⟨⟩
    · rintro _ _ _ (⟨⟨⟩⟩ | ⟨_, ⟨⟩⟩)
    · exact fun _ hmem => (List.not_mem_nil hmem).elim
    · have hkeys : (state.batch.logged.map fun binding => (binding.id, binding.generation)).Nodup :=
        List.Nodup.of_map Prod.fst (by rw [List.map_map]; exact hlogs.distinct)
      unfold PassOnce
      simp only [hauto, forall_true_left, honce]
      refine forall₂_congr fun id record => ?_
      change _ ↔ ((scheduleBatch coordinator.system.context coordinator.system.impl coordinator.passRequest).2.assignments[id]? =
        some record → _)
      rw [hassignments]
      refine forall₂_congr fun hrecord _ => ?_
      change _ ↔ (((scheduleBatch coordinator.system.context coordinator.system.impl coordinator.passRequest).1.decisions.filterMap
        ScheduleDecision.assignment).map fun binding => (binding.id, binding.generation)).count (id, record.binding.generation) = 1
      rw [hpending]
      constructor
      · intro hmem
        obtain ⟨binding, hlogged, rfl⟩ := List.mem_map.mp hmem
        obtain rfl := Option.some.inj (hrecord.symm.trans (hlogs.stored binding hlogged))
        exact List.count_eq_one_of_mem hkeys (List.mem_map.mpr ⟨binding, hlogged, rfl⟩)
      · intro hcount
        have hmem : (id, record.binding.generation) ∈ state.batch.logged.map fun binding => (binding.id, binding.generation) := by
          refine List.count_pos_iff.mp ?_
          omega
        obtain ⟨binding, hlogged, hkey⟩ := List.mem_map.mp hmem
        exact List.mem_map.mpr ⟨binding, hlogged, (Prod.mk.inj hkey).1⟩
  · next hmanual =>
    obtain ⟨rfl, rfl⟩ := Prod.mk.inj hstart
    refine ⟨⟨hreach, rfl, rfl, ?_, ?_, ?_, ?_, ?_, ?_⟩, rfl, ?_⟩
    · rintro _ (hmem | ⟨⟨⟩⟩)
      exact (List.not_mem_nil hmem).elim
    · rintro _ _ ⟨⟩
    · rintro _ _ ⟨⟩
    · rintro _ _ _ _ ⟨⟩
    · rintro _ _ _ (⟨⟨⟩⟩ | ⟨_, ⟨⟩⟩)
    · exact fun _ hmem => (List.not_mem_nil hmem).elim
    · refine iff_of_true (fun hauto => (hmanual hauto).elim) fun id record hrecord hnone => ?_
      rw [hrecord] at hnone
      cases hnone

theorem Passing.run {batch : List AssignmentBinding} (h : Passing batch started pass) (hpushes : pass.pushes = [])
    (hrun : ReflTransGen (PassSteps fun _ _ _ => True) (started, pass) (after, passed)) :
    Passing batch after passed ∧
      ((∀ push ∈ passed.pushes, push.Sound) ↔ ReflTransGen (PassSteps Conveys) (started, pass) (after, passed)) := by
  suffices hmain : ∀ scene, ReflTransGen (PassSteps fun _ _ _ => True) (started, pass) scene → Passing batch scene.1 scene.2 ∧
      ((∀ push ∈ scene.2.pushes, push.Sound) → ReflTransGen (PassSteps Conveys) (started, pass) scene) by
    obtain ⟨hpassing, hforward⟩ := hmain _ hrun
    refine ⟨hpassing, hforward, fun hconveyed => ?_⟩
    suffices hsound : ∀ scene, ReflTransGen (PassSteps Conveys) (started, pass) scene → Passing batch scene.1 scene.2 ∧
        ∀ push ∈ scene.2.pushes, push.Sound from (hsound _ hconveyed).2
    intro scene hscene
    induction hscene with
    | refl => exact ⟨h, by rw [hpushes]; exact fun _ hmem => (List.not_mem_nil hmem).elim⟩
    | tail _ hstep ih =>
      obtain ⟨action, hconveys, hstep⟩ := hstep
      obtain ⟨hnext, hiff⟩ := ih.1.step hstep
      exact ⟨hnext, hiff.mpr ⟨ih.2, hconveys⟩⟩
  intro scene hscene
  induction hscene with
  | refl => exact ⟨h, fun _ => .refl⟩
  | tail _ hstep ih =>
    obtain ⟨action, -, hstep⟩ := hstep
    obtain ⟨hnext, hiff⟩ := ih.1.step hstep
    refine ⟨hnext, fun hsound => ?_⟩
    obtain ⟨hbefore, hconveys⟩ := hiff.mp hsound
    exact (ih.2 hbefore).tail ⟨action, hconveys, hstep⟩

/-- A pass whose commits take free identities delivers what it dispatches if and only if its batch commits in its first pass only,
and no step of it leaves a dispatched assignment without its message or drops the payload of its work. -/
theorem pass_delivers (hreach : coordinator.Reachable) (hstart : coordinator.beginPass = (started, pass)) (hfree : coordinator.PassFree)
    (hrun : ReflTransGen (PassSteps fun _ _ _ => True) (started, pass) (after, passed)) (hidle : passed.stage = .idle)
    (hdone : passed.pending = []) :
    coordinator.Delivered started after passed ↔
      coordinator.PassOnce ∧ ReflTransGen (PassSteps Conveys) (started, pass) (after, passed) := by
  obtain ⟨hpassing, hpushes, honce⟩ := beginPass_passing hreach hstart hfree
  obtain ⟨hend, hsound⟩ := hpassing.run hpushes hrun
  have hoffers : passed.offers = pass.pending.map fun binding => (binding.id, binding.generation) := by
    have hoffers := hend.offers
    rw [hdone] at hoffers
    simpa using hoffers
  have hpushed : passed.pushes.map (fun push => push.message.binding) = passed.handoffs := by
    have hpushed := hend.pushed
    rw [hidle] at hpushed
    simpa [PassStage.handoff] using hpushed
  have hsettled : (∀ push ∈ passed.pushes, after.Settles push) ↔ ∀ push ∈ passed.pushes, push.Sound :=
    forall₂_congr fun push hpush => hend.settles_iff hpush
  rw [honce, ← hsound, ← hsettled, ← hoffers]
  exact ⟨fun hdelivered => ⟨hdelivered.offered, hdelivered.settled⟩, fun ⟨hoffered, hsettles⟩ => ⟨hoffered, hpushed, hsettles⟩⟩

end Passes
end Coordinator

theorem getElem?_of_size {impl : Impl} (h : impl.assignments.size = 0) (id : AssignmentId) : impl.assignments[id]? = none := by
  rw [ExtTreeMap.eq_empty_iff_size_eq_zero.mpr h]
  exact ExtTreeMap.getElem?_empty

/-- With one item, one pass over it and nothing stored yet, a batch finds its identities free. -/
theorem System.batchFree_of_single {system : System} {request : ScheduleRequest} (hlimit : batchPassLimit system.impl request = 1)
    (horder : (batchOrder system.impl true ((batchCandidates system.impl request).map Prod.fst)).length = 1)
    (hempty : system.impl.assignments.size = 0) : system.BatchFree request := by
  intro first state id binding hcommits
  have hvisits := hcommits.visits.visits
  rw [hlimit] at hvisits
  cases hvisits with
  | @item _ _ _ before after _ _ hitems =>
    have hbefore : before = [] := by
      rw [hitems, List.length_append, List.length_cons] at horder
      exact List.eq_nil_of_length_eq_zero (by omega)
    subst hbefore
    exact getElem?_of_size hempty binding.id
  | later _ _ hlater => cases hlater

/-- A coordinator runs a scheduling pass after some actions. -/
def Sample.pass (actions : List Action) (steps : List PassAction) :
    Option (Coordinator × Coordinator × SchedulingPass × Coordinator × SchedulingPass) := do
  let system ← Sample.run (fun _ _ => True) []
  let coordinator ← Coordinator.perform { system } actions
  let (started, pass) := coordinator.beginPass
  let (after, passed) ← started.performPass pass steps
  return (coordinator, started, pass, after, passed)

/-- The samples' agent registers through a session, publishes everything it needs to be eligible, and work is submitted. -/
def Sample.employ (request : WorkRequest) : List Action :=
  .accept :: Sample.registerThrough 1 ++
    ((Sample.enlist.drop 2 ++ Sample.submit request).map Action.scheduler)

/-- One assignment is dispatched and pushed. -/
def Sample.convey : List PassAction := [.offer, .handOff 0, .readWork, .findSession, .push]

namespace Coordinator

theorem performPass_runs {coordinator after : Coordinator} {pass passed : SchedulingPass} {actions : List PassAction}
    (h : coordinator.performPass pass actions = some (after, passed)) :
    ReflTransGen (PassSteps fun _ _ _ => True) (coordinator, pass) (after, passed) := by
  induction actions generalizing coordinator pass with
  | nil =>
    obtain ⟨rfl, rfl⟩ := Prod.mk.inj (Option.some.inj h)
    exact .refl
  | cons action actions ih =>
    obtain ⟨⟨middle, between⟩, hstep, hrest⟩ := Option.bind_eq_some_iff.mp h
    exact .head ⟨action, trivial, hstep⟩ (ih hrest)

end Coordinator

theorem Sample.pass_reaches {actions : List Action} {steps : List PassAction} {coordinator started after : Coordinator}
    {pass passed : SchedulingPass} (h : Sample.pass actions steps = some (coordinator, started, pass, after, passed)) :
    coordinator.Reachable ∧ coordinator.beginPass = (started, pass) ∧
      ReflTransGen (Coordinator.PassSteps fun _ _ _ => True) (started, pass) (after, passed) := by
  simp only [Sample.pass, Option.bind_eq_bind, Option.bind_eq_some_iff] at h
  obtain ⟨system, hsystem, found, hfound, hrest⟩ := h
  obtain ⟨⟨_, _⟩, hlater, hform⟩ := hrest
  obtain ⟨rfl, rfl, rfl, rfl, rfl⟩ : found = coordinator ∧ _ = started ∧ _ = pass ∧ _ = after ∧ _ = passed := by simpa using hform
  exact ⟨⟨_, ⟨_, system, Sample.run_reaches hsystem, rfl⟩, Coordinator.perform_steps hfound⟩, rfl, Coordinator.performPass_runs hlater⟩

namespace Coordinator

set_option maxRecDepth 100000 in
/-- The only assignment of a batch is dispatched and pushed. -/
theorem pass_delivers_sample : ∃ coordinator started pass after passed,
    Sample.pass (Sample.employ Sample.exclusiveWork) Sample.convey = some (coordinator, started, pass, after, passed) ∧
      passed.pushes.map (fun push => push.session) = [some 1] ∧
      (coordinator.Delivered started after passed ↔
        coordinator.PassOnce ∧ ReflTransGen (PassSteps Conveys) (started, pass) (after, passed)) := by
  have hrun : (Sample.pass (Sample.employ Sample.exclusiveWork) Sample.convey).map (fun found =>
      decide (found.2.2.2.2.pushes.map (fun push => push.session) = [some 1] ∧ found.2.2.2.2.pending = [] ∧
        batchPassLimit found.1.system.impl found.1.passRequest = 1 ∧
        (batchOrder found.1.system.impl true ((batchCandidates found.1.system.impl found.1.passRequest).map Prod.fst)).length = 1 ∧
        found.1.system.impl.assignments.size = 0 ∧ found.2.2.2.2.stage.current = none)) = some true := by
    decide +kernel
  obtain ⟨⟨coordinator, started, pass, after, passed⟩, hfound, hflags⟩ := Option.map_eq_some_iff.mp hrun
  obtain ⟨hpushes, hdone, hlimit, horder, hempty, hidle⟩ := of_decide_eq_true hflags
  obtain ⟨hreach, hstart, hruns⟩ := Sample.pass_reaches hfound
  have hstage : passed.stage = .idle := by
    cases hstage : passed.stage with
    | idle => rfl
    | dispatching | dispatched | addressed | routed =>
      rw [hstage] at hidle
      cases hidle
  exact ⟨coordinator, started, pass, after, passed, hfound, hpushes,
    pass_delivers hreach hstart (fun _ => System.batchFree_of_single hlimit horder hempty) hruns hstage hdone⟩

set_option maxRecDepth 100000 in
/-- The second replica that a batch commits is never offered to dispatch. -/
theorem not_pass_delivers : ¬∀ (coordinator started after : Coordinator) (pass passed : SchedulingPass), coordinator.Reachable →
    coordinator.beginPass = (started, pass) → ReflTransGen (PassSteps fun _ _ _ => True) (started, pass) (after, passed) →
    passed.stage = .idle → passed.pending = [] → coordinator.Delivered started after passed := by
  intro hdelivers
  have hrun : (Sample.pass (Sample.employ Sample.parallelWork) Sample.convey).map (fun found =>
      decide (found.2.2.2.2.pending = [] ∧ found.1.system.impl.assignments.size = 0 ∧ found.2.2.2.2.stage.current = none ∧
        ∃ entry ∈ found.2.1.system.impl.assignments.toList, found.2.2.2.2.offers.count (entry.1, entry.2.binding.generation) = 0)) =
      some true := by
    decide +kernel
  obtain ⟨⟨coordinator, started, pass, after, passed⟩, hfound, hflags⟩ := Option.map_eq_some_iff.mp hrun
  obtain ⟨hdone, hempty, hidle, ⟨id, record⟩, hmem, hcount⟩ := of_decide_eq_true hflags
  obtain ⟨hreach, hstart, hruns⟩ := Sample.pass_reaches hfound
  have hstage : passed.stage = .idle := by
    cases hstage : passed.stage with
    | idle => rfl
    | dispatching | dispatched | addressed | routed =>
      rw [hstage] at hidle
      cases hidle
  have honce := (hdelivers coordinator started after pass passed hreach hstart hruns hstage hdone).offered id record
    (ExtTreeMap.mem_toList_iff_getElem?_eq_some.mp hmem) (getElem?_of_size hempty id)
  rw [hcount] at honce
  cases honce

end Coordinator

end AgentScheduler
