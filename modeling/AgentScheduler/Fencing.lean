import AgentScheduler.Effects

/-! Fencing is permanent: a fenced boot is never planned for, committed, handed off, or heard again. -/
namespace AgentScheduler
open Std KeyedTable Relation

/-! ### Plans -/

section Plans
variable {ctx : Context} {impl : Impl} {work : WorkRecord}

/-- The evaluation of a candidate names its incarnation, and calls it eligible when it is. -/
theorem mem_evaluateCandidates {evaluation : CandidateEvaluation} (h : evaluation ∈ evaluateCandidates ctx impl work) :
    ∃ (agent : AgentId) (record : AgentRecord), impl.agents[agent]? = some record ∧
      evaluation.agent = record.descriptor.id ∧ evaluation.boot = record.descriptor.boot ∧
      (evaluation.eligible → eligibility ctx.now impl work record (evaluateFeasibility ctx work) = .ok ()) := by
  obtain ⟨record, hmem, rfl⟩ := List.mem_map.mp h
  obtain ⟨agent, hrecord⟩ := mem_values.mp hmem
  refine ⟨agent, record, hrecord, ?_⟩
  cases hcheck : eligibility ctx.now impl work record (evaluateFeasibility ctx work) with
  | error rejection => simp [evaluateEligibility, hcheck]
  | ok _ => simp [evaluateEligibility, hcheck, scoreCandidate]

theorem mem_rankingOrder {candidates : List CandidateEvaluation} (index : Nat) (h : index ∈ rankingOrder candidates) :
    ∃ evaluation, candidates[index]? = some evaluation ∧ evaluation.eligible := by
  unfold rankingOrder sortBy at h
  rw [List.mem_insertionSort, List.mem_filter, List.mem_range] at h
  refine ⟨candidates[index], List.getElem?_eq_getElem h.1, ?_⟩
  rw [← List.getD_eq_getElem _ {} h.1]
  exact h.2

theorem getD_withRanks {candidates : List CandidateEvaluation} (order : List Nat) {index : Nat}
    {evaluation : CandidateEvaluation} (h : candidates[index]? = some evaluation) :
    ((withRanks candidates order).getD index {}).agent = evaluation.agent ∧
      ((withRanks candidates order).getD index {}).boot = evaluation.boot := by
  rw [List.getD_eq_getElem?_getD, withRanks, List.getElem?_mapIdx, h]
  simp only [Option.map_some, Option.getD_some]
  split <;> exact ⟨rfl, rfl⟩

/-- A plan selects nobody, or an eligible agent under its current incarnation, which is the one it binds. -/
theorem planLocked_choice (ctx : Context) (work : WorkRecord) (h : Consistent impl) :
    ((planLocked ctx impl work).decision.selectedBoot = 0 ∧ (planLocked ctx impl work).binding = none) ∨
    ∃ (agent : AgentId) (record : AgentRecord), impl.agents[agent]? = some record ∧
      eligibility ctx.now impl work record (evaluateFeasibility ctx work) = .ok () ∧
      (planLocked ctx impl work).decision.selectedBoot = record.descriptor.boot ∧
      ∀ binding, (planLocked ctx impl work).binding = some binding →
        binding.agent = agent ∧ binding.boot = record.descriptor.boot := by
  unfold planLocked
  cases planGates ctx.now impl work with
  | error rejection => exact .inl ⟨rfl, rfl⟩
  | ok _ =>
    simp only
    cases horder : rankingOrder (evaluateCandidates ctx impl work) with
    | nil => exact .inl ⟨rfl, rfl⟩
    | cons winner rest =>
      obtain ⟨evaluation, hevaluation, heligible⟩ :=
        mem_rankingOrder winner (horder ▸ List.mem_cons_self)
      obtain ⟨agent, record, hrecord, hagent, hboot, hchecks⟩ :=
        mem_evaluateCandidates (List.mem_of_getElem? hevaluation)
      obtain ⟨hselected, hselectedBoot⟩ := getD_withRanks (winner :: rest) hevaluation
      have hid : record.descriptor.id = agent := h.agentKey agent record hrecord
      have hstored : impl.agents[((withRanks (evaluateCandidates ctx impl work) (winner :: rest)).getD winner {}).agent]? =
          some record := by
        rw [hselected, hagent, hid]
        exact hrecord
      refine .inr ⟨agent, record, hrecord, hchecks heligible, ?_, ?_⟩
      · simp only [hstored]
        exact hselectedBoot.trans hboot
      · intro binding hbinding
        simp only [hstored] at hbinding
        obtain rfl := Option.some.inj hbinding
        exact ⟨hid, rfl⟩

theorem eligibility_unfenced {now : UInt64} {record : AgentRecord} {feasibility : ExternalFeasibilityResult}
    (h : eligibility now impl work record feasibility = .ok ()) : bootIsFenced impl record.descriptor.boot = false := by
  unfold eligibility at h
  simp only [check_bind_eq_ok, refuseIf_eq_ok, Bool.not_eq_true] at h
  exact h.1

/-- No plan selects or binds a fenced boot. -/
theorem planLocked_unfenced (ctx : Context) (work : WorkRecord) {boot : AgentBootId} (h : Consistent impl) (hfenced : bootIsFenced impl boot) (hboot : boot ≠ 0) :
    (planLocked ctx impl work).decision.selectedBoot ≠ boot ∧
      ∀ binding, (planLocked ctx impl work).binding = some binding → binding.boot ≠ boot := by
  rcases planLocked_choice ctx work h with ⟨hnone, hunbound⟩ | ⟨agent, record, -, hchecks, hselected, hbound⟩
  · refine ⟨fun heq => hboot (heq.symm.trans hnone), fun binding hbinding => ?_⟩
    rw [hunbound] at hbinding
    cases hbinding
  · have hopen := eligibility_unfenced hchecks
    refine ⟨?_, fun binding hbinding => ?_⟩
    · rintro rfl
      rw [hselected, hopen] at hfenced
      cases hfenced
    · rintro rfl
      rw [(hbound binding hbinding).2, hopen] at hfenced
      cases hfenced

end Plans

/-! ### Batches -/

section Batches
variable {ctx : Context} {request : ScheduleRequest} {first : Bool} {state : BatchState} {boot : AgentBootId}

/-- Every logged decision is that of a plan made for the item, its outcome aside. -/
theorem batchItem_decisions {id : WorkId} {decision : ScheduleDecision}
    (h : decision ∈ (batchItem ctx request first state id).batch.decisions) :
    decision ∈ state.batch.decisions ∨
      ∃ work, decision.selectedBoot = (planLocked ctx state.impl work).decision.selectedBoot := by
  unfold batchItem at h
  cases hwork : state.impl.work[id]? with
  | none =>
    rw [hwork] at h
    exact .inl h
  | some record =>
    have hlogged : ∀ {decisions : List ScheduleDecision} {logged : ScheduleDecision},
        decision ∈ decisions ++ [logged] →
        logged.selectedBoot = (planLocked ctx state.impl record).decision.selectedBoot → decision ∈ decisions ∨
          ∃ work, decision.selectedBoot = (planLocked ctx state.impl work).decision.selectedBoot := by
      intro decisions logged hmem hselected
      rcases List.mem_append.mp hmem with hold | hnew
      · exact .inl hold
      · obtain rfl := List.mem_singleton.mp hnew
        exact .inr ⟨record, hselected⟩
    simp only [hwork] at h
    repeat' split at h
    all_goals first
      | exact .inl h
      | exact hlogged h rfl

/-- A batch in which nothing was decided in favour of a fenced boot. -/
private def BatchSpares (boot : AgentBootId) (state : BatchState) : Prop :=
  Consistent state.impl ∧ bootIsFenced state.impl boot ∧ ∀ decision ∈ state.batch.decisions, decision.selectedBoot ≠ boot

private theorem BatchSpares.item {id : WorkId} (h : BatchSpares boot state) (hboot : boot ≠ 0) :
    BatchSpares boot (batchItem ctx request first state id) := by
  obtain ⟨hconsistent, hfenced, hdecisions⟩ := h
  have hdeeds : Deeds ctx (fun _ => True) (∅, state.impl) (∅, (batchItem ctx request first state id).impl) :=
    batchItem_deeds id hconsistent (fun _ _ => trivial) fun _ => trivial
  refine ⟨hdeeds.consistent hconsistent, ?_, fun decision hdecision => ?_⟩
  · exact Deeds.keeps (motive := fun scene => bootIsFenced scene.2 boot) hdeeds
      (fun _ _ _ _ hdeed hscene => (hdeed.fenceEffect hscene).1) hconsistent hfenced
  · rcases batchItem_decisions hdecision with hold | ⟨work, hselected⟩
    · exact hdecisions decision hold
    · rw [hselected]
      exact (planLocked_unfenced _ _ hconsistent hfenced hboot).1

/-- No decision of a batch is in favour of a fenced boot. -/
theorem scheduleBatch_unfenced {impl : Impl} (h : Consistent impl) (hfenced : bootIsFenced impl boot) (hboot : boot ≠ 0) :
    ∀ decision ∈ (scheduleBatch ctx impl request).1.decisions, decision.selectedBoot ≠ boot := by
  unfold scheduleBatch
  split
  · exact fun _ hmem => (List.not_mem_nil hmem).elim
  · simp only
    split
    · exact fun _ hmem => (List.not_mem_nil hmem).elim
    · have hstart : BatchSpares boot { impl := impl } := ⟨h, hfenced, fun _ hmem => (List.not_mem_nil hmem).elim⟩
      exact (batchPasses_keeps (fun _ _ _ hstate => hstate.item hboot) (fun _ _ hstate => hstate) _ true hstart).2.2

end Batches

/-! ### Runs that keep their fences -/

/-- The steps that neither replace the process nor load a file. -/
def System.Continues (system : System) : Label → Prop
  | .load _ => system.impl.running
  | .restart .. => False
  | _ => True

/-- A file holds a state, or the state before it was shut down. -/
def Impl.SavedFrom (file impl : Impl) : Prop := impl = file ∨ ∃ now, impl = (shutdown now file).2

/-- A step, or the recovery of the state that is replaced, in the same process or in a fresh one. -/
inductive System.Succeeds (system after : System) : Prop
  | step (label : Label) (reply : Reply) (hcontinues : system.Continues label)
      (hstep : system.step label = some (reply, after))
  | reload (position : Nat) (file : Impl) (reply : Reply) (hfile : system.saved[position]? = some file)
      (hsaved : file.SavedFrom system.impl) (hstep : system.step (.load position) = some (reply, after))
  | replace (options : SchedulerOptions) (generatedId : SchedulerId) (fresh stopped : System) (position : Nat) (file : Impl)
      (reply reply' : Reply) (hrestart : system.step (.restart options generatedId) = some (reply, fresh))
      (hruns : System.Runs System.Continues fresh stopped) (hstopped : stopped.impl.running = false)
      (hfile : stopped.saved[position]? = some file) (hsaved : file.SavedFrom system.impl)
      (hload : stopped.step (.load position) = some (reply', after))

/-- Reports, drains and deregistrations that name a boot. -/
def Label.Presents (boot : AgentBootId) : Label → Prop
  | .run (.publishCapabilities _ named _) | .run (.publishHealth _ named _) | .run (.publishAvailability _ named _)
  | .run (.publishLoad _ named _) | .run (.heartbeat _ named _) | .run (.drainAgent _ named _)
  | .run (.deregisterAgent _ named _) => named = boot
  | _ => False

/-- A step in which a plan chooses an agent at a boot. -/
def System.Chooses (system : System) (boot : AgentBootId) : Label → Prop
  | .begin (.schedule work generation) =>
    (scheduleBegin system.context system.impl work generation).decision.selectedBoot = boot ∨
      ∃ binding ∈ (scheduleBegin system.context system.impl work generation).binding, binding.boot = boot
  | .run (.scheduleBatch request) =>
    ∃ decision ∈ (scheduleBatch system.context system.impl request).1.decisions, decision.selectedBoot = boot
  | _ => False

section Fences
variable {system after : System} {label : Label} {reply : Reply} {boot : AgentBootId}

/-- What a recovery installs stays as it is installed, but for the records it refreshes. -/
theorem read_restore {View : Type*} {f : Impl → View} (hframe : ∀ impl impl' : Impl, impl.frame = impl'.frame → f impl = f impl')
    (hstored : ∀ impl : Impl, f impl.stored = f impl) (impl : Impl) (decoded : DecodedState) :
    f (restore impl decoded) = f (install impl decoded) := by
  let rebuilt := rebuildIndexes (install impl decoded)
  let counted := rebuilt.agents.keys.foldl refreshAgentAccounting rebuilt
  let refreshed := counted.work.keys.foldl refreshWorkAccounting counted
  have hcounted : counted.frame = rebuilt.frame :=
    foldl_project (f := Impl.frame) (fun state agent => frame_refreshAgentAccounting state agent) _ _
  have hrefreshed : refreshed.frame = counted.frame :=
    foldl_project (f := Impl.frame) (fun state work => frame_refreshWorkAccounting state work) _ _
  have hrestored : (restore impl decoded).frame = refreshed.frame := rfl
  calc f (restore impl decoded) = f rebuilt := hframe _ _ (hrestored.trans (hrefreshed.trans hcounted))
    _ = f (install impl decoded) := read_rebuildIndexes _ hstored

theorem bootIsFenced_restore (impl file : Impl) : bootIsFenced (restore impl (image file)) boot = bootIsFenced file boot :=
  read_restore (f := (bootIsFenced · boot)) (fun _ _ hframe => bootIsFenced_of_frame hframe) (fun _ => rfl) impl (image file)

theorem bootIsFenced_shutdown (now : UInt64) (impl : Impl) : bootIsFenced (shutdown now impl).2 boot = bootIsFenced impl boot := by
  unfold shutdown
  split
  · rfl
  · simp only
    split
    · exact congrArg (ExtTreeMap.contains · boot) fencedBoots_closeWhere
    · rfl

theorem Impl.SavedFrom.fenced {file impl : Impl} (h : file.SavedFrom impl) : bootIsFenced file boot = bootIsFenced impl boot := by
  rcases h with rfl | ⟨now, rfl⟩
  · rfl
  · rw [bootIsFenced_shutdown]

/-- A step that continues is a chain of deeds. -/
theorem System.Continues.deeds (hcontinues : system.Continues label) (hvalid : system.Valid)
    (hstep : system.step label = some (reply, after)) :
    Deeds system.context (fun event => event.IsBookkeeping ∨ system.Causes label event) (∅, system.impl) (∅, after.impl) := by
  rcases System.step_deeds hvalid hstep with ⟨position, file, rfl, -, hstopped, -⟩ | ⟨options, id, rfl, -⟩ | hdeeds
  · rw [System.Continues, hstopped] at hcontinues
    cases hcontinues
  · exact hcontinues.elim
  · exact hdeeds

theorem Deeds.fenced {ctx : Context} {allows : Event → Prop} {scene scene' : Set AgentId × Impl}
    (hdeeds : Deeds ctx allows scene scene') (h : Consistent scene.2) (hfenced : bootIsFenced scene.2 boot) :
    bootIsFenced scene'.2 boot :=
  hdeeds.keeps (motive := fun scene => bootIsFenced scene.2 boot)
    (fun _ _ _ _ hdeed hscene => (hdeed.fenceEffect hscene).1) h hfenced

/-- What construction gives, recovery gives back, and every step keeps, holds of a reachable instance and its files. -/
theorem System.ReachableBy.stores {allowed : System → Label → Prop} {motive : Impl → Prop} (h : system.ReachableBy allowed)
    (hconstruct : ∀ {options generatedId impl}, construct options generatedId = some impl → motive impl)
    (hrestore : ∀ {impl file : Impl}, Consistent file → motive file → motive (restore impl (image file)))
    (hstep : ∀ {s s' : System} {label : Label} {reply : Reply}, s.Valid → allowed s label →
      s.step label = some (reply, s') →
      Deeds s.context (fun event => event.IsBookkeeping ∨ s.Causes label event) (∅, s.impl) (∅, s'.impl) →
      motive s.impl → motive s'.impl) :
    motive system.impl ∧ ∀ file ∈ system.saved, motive file := by
  refine System.ReachableBy.keeps (motive := fun system => motive system.impl ∧ ∀ file ∈ system.saved, motive file) h
    (fun start hstart => ?_) fun s s' label reply hvalid hallowed hs hinv => ?_
  · obtain ⟨options, generatedId, now, hstart⟩ := hstart
    obtain ⟨impl, hconstructed, rfl⟩ := Option.map_eq_some_iff.mp hstart
    exact ⟨hconstruct hconstructed, fun _ hfile => (List.not_mem_nil hfile).elim⟩
  · refine ⟨?_, fun file hfile => ?_⟩
    · rcases System.step_deeds hvalid hs with ⟨position, file, -, hfile, -, himpl⟩ | ⟨options, id, -, hconstructed⟩ | hdeeds
      · have hmem := List.mem_of_getElem? hfile
        rw [himpl]
        exact hrestore (hvalid.saved file hmem).consistent (hinv.2 file hmem)
      · exact hconstruct hconstructed
      · exact hstep hvalid hallowed hs hdeeds hinv.1
    · rcases (System.step_frame hs).saved file hfile with hold | rfl
      · exact hinv.2 file hold
      · exact hinv.1

/-- A load of a stopped instance gives the image of the file. -/
theorem System.step_load {position : Nat} {file : Impl} (hfile : system.saved[position]? = some file)
    (hstopped : system.impl.running = false) (hstep : system.step (.load position) = some (reply, after)) :
    after.impl = restore system.impl (image file) := by
  simp only [System.step, hfile] at hstep
  split at hstep
  · next hrunning =>
    rw [hstopped] at hrunning
    cases hrunning
  · obtain ⟨-, rfl⟩ := Option.some.inj hstep
    rfl

/-- Such a run stays among valid systems. -/
theorem System.Succeeds.valid (hsucceeds : system.Succeeds after) (hvalid : system.Valid) : after.Valid := by
  cases hsucceeds with
  | step label reply _ hstep => exact hvalid.step hstep
  | reload position file reply _ _ hstep => exact hvalid.step hstep
  | replace options generatedId fresh stopped position file reply reply' hrestart hruns _ _ _ hload =>
    exact (hruns.valid (hvalid.step hrestart)).step hload

/-- Fences outlive every step of such a run. -/
theorem System.Succeeds.fenced (hsucceeds : system.Succeeds after) (hvalid : system.Valid)
    (hfenced : bootIsFenced system.impl boot) : bootIsFenced after.impl boot := by
  cases hsucceeds with
  | step label reply hcontinues hstep => exact (hcontinues.deeds hvalid hstep).fenced hvalid.healthy.consistent hfenced
  | reload position file reply hfile hsaved hstep =>
    cases hrunning : system.impl.running with
    | true =>
      have hcontinues : system.Continues (.load position) := hrunning
      exact (hcontinues.deeds hvalid hstep).fenced hvalid.healthy.consistent hfenced
    | false =>
      rw [System.step_load hfile hrunning hstep, bootIsFenced_restore, hsaved.fenced]
      exact hfenced
  | replace options generatedId fresh stopped position file reply reply' hrestart hruns hstopped hfile hsaved hload =>
    rw [System.step_load hfile hstopped hload, bootIsFenced_restore, hsaved.fenced]
    exact hfenced

/-- A constructed instance has fenced nothing. -/
theorem construct_unfenced {options : SchedulerOptions} {generatedId : SchedulerId} {impl : Impl}
    (h : construct options generatedId = some impl) : ¬bootIsFenced impl boot := by
  have hempty : ∀ impl : Impl, impl.fencedBoots = ∅ → ¬bootIsFenced impl boot := fun impl hfenced => by
    simp [bootIsFenced, hfenced]
  unfold construct at h
  simp only at h
  split at h
  · rw [← Option.some.inj h]
    refine hempty _ ?_
    unfold start
    repeat' split
    all_goals rfl
  · cases h

/-- The fenced boots of a reachable instance are proper ids. -/
theorem System.Reachable.fenced_ne_zero (h : system.Reachable) (hfenced : bootIsFenced system.impl boot) : boot ≠ 0 := by
  refine (System.ReachableBy.stores (motive := fun impl => ∀ boot, bootIsFenced impl boot → boot ≠ 0) h
    (fun hconstruct boot hfenced => (construct_unfenced hconstruct hfenced).elim) (fun _ hfile boot hfenced => ?_)
    fun {s s'} {label} {reply} hvalid _ _ hdeeds hbefore => ?_).1 boot hfenced
  · rw [bootIsFenced_restore] at hfenced
    exact hfile boot hfenced
  · refine Deeds.keeps (motive := fun scene => ∀ boot, bootIsFenced scene.2 boot → boot ≠ 0) hdeeds
      (fun _ _ _ _ hdeed hconsistent hscene boot hfenced => ?_) hvalid.healthy.consistent hbefore
    exact ((hdeed.fenceEffect hconsistent).2 hfenced).elim (hscene boot) And.right

/-- A step that continues binds nothing new to a fenced boot. -/
theorem System.Continues.unbound (hcontinues : system.Continues label) (hvalid : system.Valid)
    (hstep : system.step label = some (reply, after)) (hfenced : bootIsFenced system.impl boot) (id : AssignmentId)
    (record : AssignmentRecord) (hrecord : after.impl.assignments[id]? = some record) (hboot : record.binding.boot = boot) :
    ∃ before, system.impl.assignments[id]? = some before ∧ before.binding.boot = boot := by
  let invariant (scene : Set AgentId × Impl) : Prop := bootIsFenced scene.2 boot ∧
    ∀ (id : AssignmentId) (record : AssignmentRecord), scene.2.assignments[id]? = some record →
      record.binding.boot = boot → ∃ before : AssignmentRecord, system.impl.assignments[id]? = some before ∧ before.binding.boot = boot
  have hkept : invariant (∅, after.impl) := by
    refine Deeds.keeps (hcontinues.deeds hvalid hstep) (fun event scene scene' _ hdeed hconsistent hscene => ?_)
      hvalid.healthy.consistent ⟨hfenced, fun id record hrecord hboot => ⟨record, hrecord, hboot⟩⟩
    refine ⟨(hdeed.fenceEffect hconsistent).1 hscene.1, fun id record hrecord hboot => ?_⟩
    cases hdeed.slotEffect hconsistent hrecord with
    | kept before hbefore hbinding _ =>
      rw [hbinding] at hboot
      exact hscene.2 id before hbefore hboot
    | closed before _ hbefore hbinding _ =>
      rw [hbinding] at hboot
      exact hscene.2 id before hbefore hboot
    | committed binding _ _ _ hbinding hunfenced =>
      subst hbinding
      have hboot : binding.boot = boot := hboot
      rw [hboot, hscene.1] at hunfenced
      cases hunfenced
  exact hkept.2 id record hrecord hboot

/-- No handoff is bound to a fenced boot. -/
theorem System.HandsOff.unfenced {binding : AssignmentBinding} (h : system.HandsOff label after binding) (hvalid : system.Valid) :
    bootIsFenced system.impl binding.boot = false := by
  obtain ⟨record, -, -, hbinding, hauthority, -⟩ := h.spec hvalid
  obtain ⟨-, -, agent, -, -, -, hunfenced, -⟩ := revalidateAuthority_ok hauthority
  rw [hbinding]
  exact hunfenced

/-- A locked section whose checks cannot pass reports an error. -/
private theorem guarded_fails {Found : Type} {impl : Impl} {check : Except SchedulerError Found} {body : Found → Step}
    (h : ∀ found, check ≠ .ok found) : ∃ error, Reply.mutation (guarded impl check body).1 = .mutation (.error error) := by
  unfold guarded
  cases hcheck : check with
  | error error => exact ⟨error, rfl⟩
  | ok found => exact (h found hcheck).elim

/-- Nothing that a fenced incarnation presents is accepted. -/
theorem runOperation_presents_fails (ctx : Context) {impl : Impl} {operation : Operation}
    (hpresents : (Label.run operation).Presents boot) (hfenced : bootIsFenced impl boot) :
    ∃ error, (runOperation ctx impl operation).1 = .mutation (.error error) := by
  have hstale : ∀ {name text : Text} {agent : AgentId} {record : AgentRecord},
      currentAgent impl name agent boot text ≠ .ok record := by
    intro name text agent record hcurrent
    rw [(currentAgent_ok hcurrent).2.2] at hfenced
    cases hfenced
  have hstaleObservation : ∀ {name kind : Text} {agent : AgentId} {stale : AgentRecord → Bool} {observedAtMs observed : UInt64},
      checkObservation ctx.now impl name kind agent boot stale observedAtMs ≠ .ok observed := by
    intro name kind agent stale observedAtMs observed hcheck
    obtain ⟨record, -, -, hopen⟩ := checkObservation_ok hcheck
    rw [hopen] at hfenced
    cases hfenced
  cases operation with
  | publishCapabilities agent named profile =>
    obtain rfl : named = boot := hpresents
    refine guarded_fails fun found hcheck => ?_
    unfold checkCapabilities at hcheck
    simp only [except_bind_eq_ok] at hcheck
    obtain ⟨_, -, _, hcurrent, -⟩ := hcheck
    exact hstale hcurrent
  | publishHealth agent named observation | publishAvailability agent named observation
  | publishLoad agent named observation =>
    obtain rfl : named = boot := hpresents
    refine guarded_fails fun found hcheck => ?_
    simp only [except_bind_eq_ok] at hcheck
    obtain ⟨_, -, hobserved⟩ := hcheck
    exact hstaleObservation hobserved
  | heartbeat agent named | drainAgent agent named | deregisterAgent agent named =>
    obtain rfl : named = boot := hpresents
    refine guarded_fails fun found hcheck => ?_
    simp only [except_bind_eq_ok] at hcheck
    obtain ⟨_, hcurrent, -⟩ := hcheck
    exact hstale hcurrent
  | _ => exact hpresents.elim

/-- No plan chooses an agent at a fenced boot. -/
theorem System.not_chooses (hvalid : system.Valid) (hfenced : bootIsFenced system.impl boot) (hboot : boot ≠ 0) :
    ¬system.Chooses boot label := by
  have hconsistent := hvalid.healthy.consistent
  intro hchooses
  cases label with
  | «begin» request =>
    cases request with
    | schedule work generation =>
      simp only [System.Chooses, scheduleBegin] at hchooses
      split at hchooses
      · exact hchooses.elim (fun heq => hboot heq.symm) fun hnone => by obtain ⟨_, hmem, _⟩ := hnone; cases hmem
      · next record hrecord =>
        split at hchooses
        · exact hchooses.elim (fun heq => hboot heq.symm) fun hnone => by obtain ⟨_, hmem, _⟩ := hnone; cases hmem
        · obtain ⟨hselected, hbound⟩ :=
            planLocked_unfenced system.context record hconsistent hfenced hboot
          exact hchooses.elim hselected fun hsome => by obtain ⟨binding, hmem, heq⟩ := hsome; exact hbound binding hmem heq
    | _ => exact hchooses
  | run operation =>
    cases operation with
    | scheduleBatch request =>
      obtain ⟨decision, hdecision, heq⟩ := hchooses
      exact scheduleBatch_unfenced hconsistent hfenced hboot decision hdecision heq
    | _ => exact hchooses
  | _ => exact hchooses

end Fences

/-- A fence is permanent in every run whose loads recover the state they replace: a fenced boot is never chosen by a plan,
never bound by a commit, never handed work, and never heard again. -/
theorem fences_permanent : ∀ (early system : System) (boot : AgentBootId), early.Reachable → bootIsFenced early.impl boot →
    ReflTransGen System.Succeeds early system →
    bootIsFenced system.impl boot ∧
      ∀ label reply (after : System), system.step label = some (reply, after) →
        ¬system.Chooses boot label ∧
        (system.Continues label → ∀ (id : AssignmentId) record, after.impl.assignments[id]? = some record →
          record.binding.boot = boot → ∃ before, system.impl.assignments[id]? = some before ∧ before.binding.boot = boot) ∧
        (∀ binding, system.HandsOff label after binding → binding.boot ≠ boot) ∧
        (label.Presents boot → ∃ error, reply = .mutation (.error error)) := by
  intro early system boot hreachable hfenced hrun
  obtain ⟨hvalid, hstays⟩ : system.Valid ∧ bootIsFenced system.impl boot :=
    Runs.keeps (motive := fun system => system.Valid ∧ bootIsFenced system.impl boot)
      (fun _ _ hstep hinv => ⟨hstep.valid hinv.1, hstep.fenced hinv.1 hinv.2⟩) hrun ⟨hreachable.valid, hfenced⟩
  have hboot := System.Reachable.fenced_ne_zero hreachable hfenced
  refine ⟨hstays, fun label reply after hstep => ⟨System.not_chooses hvalid hstays hboot,
    fun hcontinues => hcontinues.unbound hvalid hstep hstays, fun binding hhands heq => ?_, fun hpresents => ?_⟩⟩
  · have hunfenced := hhands.unfenced hvalid
    rw [heq, hstays] at hunfenced
    cases hunfenced
  · cases label with
    | run operation =>
      obtain ⟨error, herror⟩ := runOperation_presents_fails system.context hpresents hstays
      obtain ⟨hreply, -⟩ := Prod.mk.inj (Option.some.inj hstep)
      exact ⟨error, hreply.symm.trans herror⟩
    | _ => exact hpresents.elim

/-- An agent is declared lost; the state is saved, shut down and recovered, and the agent sends a heartbeat. -/
def Sample.haunted : Option (System × System × Reply) := do
  let early ← run (fun _ _ => True) (enlist ++ [.begin (.declareAgentLost 1 boot "lost"), .finish 0])
  let (_, saved) ← early.step .save
  let (_, stopped) ← saved.step (.run .shutdown)
  let (_, system) ← stopped.step (.load 0)
  let (reply, _) ← system.step (.run (.heartbeat 1 boot 1))
  return (early, system, reply)

set_option maxRecDepth 100000 in
/-- The fence of a lost agent survives a recovery, after which its heartbeat is refused. -/
theorem fences_permanent_sample : ∃ (early system : System) (reply : Reply),
    Sample.haunted = some (early, system, reply) ∧ bootIsFenced system.impl Sample.boot ∧
      ∃ error, reply = .mutation (.error error) := by
  have hview : Sample.haunted.map (fun (early, system, _) =>
      (bootIsFenced early.impl Sample.boot, early.saved.length, system.loads)) = some (true, 0, 1) := by decide +kernel
  obtain ⟨⟨early, system, reply⟩, hruns, hview⟩ := Option.map_eq_some_iff.mp hview
  obtain ⟨hfenced, hnone, -⟩ := by simpa only [Prod.mk.injEq] using hview
  have hsteps := hruns
  simp only [Sample.haunted, bind, Option.bind_eq_some_iff] at hsteps
  obtain ⟨early', hearly, ⟨r1, saved⟩, hsave, ⟨r2, stopped⟩, hstop, ⟨r3, system'⟩, hload, ⟨reply', after⟩, hbeat, heq⟩ := hsteps
  obtain ⟨rfl, rfl, rfl⟩ := by simpa only [pure, Option.some.injEq, Prod.mk.injEq] using heq
  have hreached : early'.Reachable := Sample.run_reaches hearly
  have hfile : stopped.saved[0]? = some early'.impl := by
    obtain ⟨-, rfl⟩ := Prod.mk.inj (Option.some.inj hsave)
    obtain ⟨-, rfl⟩ := Prod.mk.inj (Option.some.inj hstop)
    simp [List.eq_nil_of_length_eq_zero hnone]
  have hsaved : early'.impl.SavedFrom stopped.impl := by
    obtain ⟨-, rfl⟩ := Prod.mk.inj (Option.some.inj hsave)
    obtain ⟨-, rfl⟩ := Prod.mk.inj (Option.some.inj hstop)
    exact .inr ⟨early'.now, rfl⟩
  have hrun : ReflTransGen System.Succeeds early' system' :=
    .tail (.tail (.single (.step .save r1 trivial hsave)) (.step (.run .shutdown) r2 trivial hstop))
      (.reload 0 early'.impl r3 hfile hsaved hload)
  obtain ⟨hstays, hspares⟩ := fences_permanent early' system' Sample.boot hreached hfenced hrun
  exact ⟨early', system', reply', hruns, hstays, (hspares _ _ _ hbeat).2.2.2 rfl⟩

end AgentScheduler
