import AgentScheduler.Numbering

/-! Terminal work: what ends keeps no slot, and nothing is assigned to it again at its generation. -/
namespace AgentScheduler
open Std KeyedTable Relation

/-- A work item in a terminal lifecycle has no active assignment. -/
def Settled (ledger : Ledger) : Prop :=
  ∀ work entry lifecycle, ledger.works work = some entry → entry.settled = some lifecycle → ledger.activeFor work = ∅

/-- The work item of a binding is not terminal. -/
def Unsettled (ledger : Ledger) (binding : AssignmentBinding) : Prop :=
  ∀ entry, ledger.works binding.work = some entry → entry.settled = none

/-- A work item that was terminal at a generation has moved on to a higher one, or is terminal still and has no
assignment at that generation that is not among the known ones. -/
def Ended (known : AssignmentId → Prop) (work : WorkId) (generation : WorkGeneration) (ledger : Ledger) : Prop :=
  ∃ entry, ledger.works work = some entry ∧ ¬entry.request.generation < generation ∧
    (entry.request.generation = generation → entry.settled ≠ none) ∧
    ∀ id record, ledger.assignments id = some record → record.binding.work = work →
      record.binding.workGeneration = generation → known id

section Moves
variable {gate : Gate} {ledger ledger' : Ledger}

private theorem settled_backed (hbacked : ledger.Backed ledger')
    (hworks : ∀ work entry lifecycle, ledger'.works work = some entry → entry.settled = some lifecycle →
      ledger.activeFor work = ∅) : Settled ledger' :=
  fun work entry lifecycle hentry hsettled =>
    Set.subset_empty_iff.mp (hworks work entry lifecycle hentry hsettled ▸ hbacked.active (leaseBlind_work work))

/-- When commits land on work that is not terminal, a movement of authority keeps terminal work idle. -/
theorem Move.settled (hmove : Move gate ledger ledger')
    (hcommits : ∀ ledger binding, gate.commits ledger binding → Unsettled ledger binding) (h : Settled ledger) :
    Settled ledger' := by
  have hset : ∀ (work : WorkId) (entry : WorkEntry),
      (∀ lifecycle, entry.settled = some lifecycle → ledger.activeFor work = ∅) →
      ∀ other found lifecycle, (ledger.setWork work entry).works other = some found →
        found.settled = some lifecycle → ledger.activeFor other = ∅ := by
    intro work entry hidle other found lifecycle hfound hsettled
    by_cases hwork : other = work
    · subst hwork
      obtain rfl : entry = found := by simpa [Ledger.setWork] using hfound
      exact hidle lifecycle hsettled
    · exact h other found lifecycle (by simpa [Ledger.setWork, Function.update_of_ne hwork] using hfound) hsettled
  rcases hmove.backed with hbacked | ⟨entry, binding, hcommit, hgate, rfl⟩
  · refine settled_backed hbacked ?_
    cases hmove with
    | accept work entry _ hfresh _ =>
      refine hset work entry fun lifecycle hsettled => ?_
      rw [hfresh] at hsettled
      cases hsettled
    | settle work old lifecycle _ _ hidle _ => exact hset work _ fun _ _ => hidle
    | commit entry binding hcommit hgate =>
      exact hset binding.work _ fun lifecycle hsettled => h _ entry lifecycle hcommit.work hsettled
    | close | repolicy | enroll | republish | silence | advance | promote => exact h
  · intro work found lifecycle hfound hsettled
    have hother : work ≠ binding.work := by
      rintro rfl
      obtain rfl : { entry with lastGeneration := binding.generation } = found := by
        simpa [Ledger.commit, Ledger.setWork] using hfound
      have hopen : entry.settled = none := hcommits ledger binding hgate entry hcommit.work
      have hsettled : entry.settled = some lifecycle := hsettled
      rw [hopen] at hsettled
      cases hsettled
    have hentry : ledger.works work = some found := by
      simpa [Ledger.commit, Ledger.setWork, Function.update_of_ne hother] using hfound
    exact Set.subset_empty_iff.mp (h work found lifecycle hentry hsettled ▸
      (ledger.active_commit entry binding _).2 (Ne.symm hother))

/-- When commits land on work that is not terminal, an ended generation stays ended. -/
theorem Move.ended {known : AssignmentId → Prop} {work : WorkId} {generation : WorkGeneration}
    (hmove : Move gate ledger ledger') (hsound : Sound ledger)
    (hcommits : ∀ ledger binding, gate.commits ledger binding → Unsettled ledger binding)
    (h : Ended known work generation ledger) : Ended known work generation ledger' := by
  obtain ⟨entry, hentry, hnotbehind, hterminal, hknown⟩ := h
  -- no assignment of the ended generation is new
  have hassignments : ∀ id record, ledger'.assignments id = some record → record.binding.work = work →
      record.binding.workGeneration = generation → known id := by
    intro id record hrecord hwork hgeneration
    cases hbefore : ledger.assignments id with
    | some before =>
      obtain ⟨after, hafter, hevolves⟩ := hmove.extends hsound id before hbefore
      obtain rfl := Option.some.inj (hrecord.symm.trans hafter)
      have hbinding : SameBinding before record := hevolves.binding
      rw [hbinding] at hwork hgeneration
      exact hknown id before hbefore hwork hgeneration
    | none =>
      obtain ⟨found, binding, hcommit, hgate, -, -, rfl⟩ := hmove.new_record hbefore hrecord
      have hwork : binding.work = work := hwork
      have hgeneration : binding.workGeneration = generation := hgeneration
      subst hwork
      obtain rfl := Option.some.inj (hentry.symm.trans hcommit.work)
      exact (hterminal (hcommit.workGeneration.trans hgeneration)
        (hcommits ledger binding hgate entry hcommit.work)).elim
  -- the work entry keeps its request or moves to a higher generation
  have hset : ∀ (other : WorkId) (found : WorkEntry),
      (other = work → entry.request.generation < found.request.generation ∨
        found.request = entry.request ∧ (entry.settled ≠ none → found.settled ≠ none)) →
      ∃ entry', (ledger.setWork other found).works work = some entry' ∧ ¬entry'.request.generation < generation ∧
        (entry'.request.generation = generation → entry'.settled ≠ none) := by
    intro other found hfound
    by_cases hwork : work = other
    · refine ⟨found, by simp [Ledger.setWork, hwork], ?_⟩
      rcases hfound hwork.symm with hnewer | ⟨hrequest, hsettled⟩
      · have hpast : generation < found.request.generation := Nat.lt_of_le_of_lt (Nat.le_of_not_lt hnotbehind) hnewer
        refine ⟨fun hlt => UInt64.lt_asymm hpast hlt, fun heq => ?_⟩
        rw [heq] at hpast
        exact (UInt64.lt_irrefl _ hpast).elim
      · rw [hrequest]
        exact ⟨hnotbehind, fun heq => hsettled (hterminal heq)⟩
    · exact ⟨entry, by simpa [Ledger.setWork, Function.update_of_ne hwork] using hentry, hnotbehind, hterminal⟩
  have hworks : ∃ entry', ledger'.works work = some entry' ∧ ¬entry'.request.generation < generation ∧
      (entry'.request.generation = generation → entry'.settled ≠ none) := by
    cases hmove with
    | accept other found _ _ hold =>
      refine hset other found fun hwork => .inl ?_
      subst hwork
      exact (hold entry hentry).1
    | settle other old lifecycle _ hold _ _ =>
      refine hset other _ fun hwork => .inr ?_
      subst hwork
      obtain rfl := Option.some.inj (hentry.symm.trans hold)
      exact ⟨rfl, fun _ hnone => by cases hnone⟩
    | commit found binding hcommit _ =>
      refine hset binding.work { found with lastGeneration := binding.generation } fun hwork => .inr ?_
      subst hwork
      obtain rfl := Option.some.inj (hentry.symm.trans hcommit.work)
      exact ⟨rfl, id⟩
    | close | repolicy | enroll | republish | silence | advance | promote =>
      exact ⟨entry, hentry, hnotbehind, hterminal⟩
  obtain ⟨entry', hentry', hnotbehind', hterminal'⟩ := hworks
  exact ⟨entry', hentry', hnotbehind', hterminal', hassignments⟩

theorem Settled.recover {file current : Ledger} (h : Settled file) : Settled (file.recover current) :=
  settled_backed (file.backed_recover current) h

theorem Ended.recover {known : AssignmentId → Prop} {work : WorkId} {generation : WorkGeneration}
    {file current : Ledger} (h : Ended known work generation file) :
    Ended known work generation (file.recover current) := by
  obtain ⟨entry, hentry, hnotbehind, hterminal, hknown⟩ := h
  refine ⟨entry, hentry, hnotbehind, hterminal, fun id record hrecord hwork hgeneration => ?_⟩
  obtain ⟨before, hbefore, hbinding⟩ := (file.recover_remembers current).assignments id record hrecord
  have hworkBefore : before.binding.work = record.binding.work := by rw [hbinding]
  have hgenerationBefore : before.binding.workGeneration = record.binding.workGeneration := by rw [hbinding]
  exact hknown id before hbefore (hworkBefore.trans hwork) (hgenerationBefore.trans hgeneration)

end Moves

/-! ### Runs whose commits land on open work -/

/-- The work item of a plan is neither completed nor failed, if the plan is not outdated otherwise. -/
def Impl.WorkOpen (impl : Impl) (plan : Plan) : Prop :=
  match impl.work[plan.work]? with
  | none => True
  | some work => impl.SameEpochs plan → work.request.generation = plan.generation →
      work.lifecycle ≠ .completed ∧ work.lifecycle ≠ .failed

instance (impl : Impl) (plan : Plan) : Decidable (impl.WorkOpen plan) := by
  dsimp only [Impl.WorkOpen]
  generalize impl.work[plan.work]? = found
  rcases found with ⟨⟩ <;> infer_instance

/-- A commit finds its work item neither completed nor failed. -/
def CommitsOpen (system : System) (label : Label) : Prop :=
  ∀ plan, system.Finishes label plan → system.impl.WorkOpen plan

/-- A load reads a file that holds the authority it replaces, and the process is not replaced. -/
structure Lossless (system : System) (label : Label) : Prop where
  loads : ∀ position file, label = .load position → system.saved[position]? = some file →
    system.impl.running = false → file.ledger = system.impl.ledger
  restarts : ∀ options generatedId, label ≠ .restart options generatedId

theorem commitCheck_deadline {ctx : Context} {impl : Impl} {workId : WorkId} {generation : WorkGeneration}
    {binding : AssignmentBinding} {work : WorkRecord} (hcheck : commitCheck ctx impl workId generation binding = .ok work) :
    ¬work.request.LapsedAt ctx.now := by
  unfold commitCheck at hcheck
  simp only [except_bind_eq_ok, lookupOrRefuse_eq_ok] at hcheck
  obtain ⟨_, -, found, -, _, hwork, _, -, _, -, _, -, hreturn⟩ := hcheck
  obtain rfl : found = work := Except.ok.inj hreturn
  unfold commitWork at hwork
  simp only [check_bind_eq_ok, refuseIf_eq_ok] at hwork
  exact hwork.2.2.2.2.1

section Run
variable {system after early : System} {label : Label} {reply : Reply}

/-- An open commit lands on work that is not terminal: expired work is past its deadline. -/
private theorem commit_unsettled {plan : Plan} {work : WorkRecord} (hvalid : system.Valid)
    (hopen : CommitsOpen system label) (hfinishes : system.Finishes label plan)
    (hcheck : commitCheck system.context system.impl plan.work plan.generation plan.binding = .ok work) :
    Unsettled system.impl.ledger plan.binding := by
  have hfits := hopen plan hfinishes
  obtain ⟨position, rfl, hcall⟩ := hfinishes
  have hbound : plan.binding.work = plan.work := hvalid.calls _ (List.mem_of_getElem? hcall)
  rw [← hbound] at hcheck
  obtain ⟨hstored, hcommits⟩ := commits_of_check hvalid.healthy.consistent hcheck
  intro entry hentry
  obtain rfl := Option.some.inj (hcommits.work.symm.trans hentry)
  simp only [Impl.WorkOpen, ← hbound, hstored] at hfits
  obtain ⟨hcompleted, hfailed⟩ := hfits (commitCheck_epochs hcheck) (commitCheck_generation hcheck)
  obtain ⟨hcancelled, hsuperseded⟩ := hcommits.unsettled
  have hexpired : work.entry.settled ≠ some .expired := fun hsettled =>
    commitCheck_deadline hcheck (hvalid.healthy.lapsed _ _ hcommits.work hsettled)
  simp only [WorkRecord.entry] at hcancelled hsuperseded hexpired ⊢
  cases hlifecycle : work.lifecycle <;> simp_all [WorkLifecycle.isTerminal]

private theorem open_change (hvalid : system.Valid) (hopen : CommitsOpen system label)
    (hstep : system.step label = some (reply, after)) : Change Unsettled system after label := by
  refine System.step_change hvalid hstep (fun _ ledger entry binding hplanned entry' hentry' => ?_)
    fun plan work hfinishes hcheck => commit_unsettled hvalid hopen hfinishes hcheck
  obtain rfl := Option.some.inj (hplanned.work.symm.trans hentry')
  exact hplanned.unsettled

/-- Terminal work is idle in the instance and in every file. -/
def SettledInvariant (system : System) : Prop :=
  Settled system.impl.ledger ∧ ∀ file ∈ system.saved, Settled file.ledger

private theorem SettledInvariant.step (hvalid : system.Valid) (hopen : CommitsOpen system label)
    (hstep : system.step label = some (reply, after)) (hinv : SettledInvariant system) : SettledInvariant after := by
  refine ⟨?_, fun file hfile => ?_⟩
  · cases open_change hvalid hopen hstep with
    | moves _ hmoves => exact Runs.keeps (fun _ _ hmove => hmove.settled fun _ _ => id) hmoves hinv.1
    | recovers position file _ hfile _ himpl _ =>
      have hmem := List.mem_of_getElem? hfile
      rw [himpl, (restore_image _ (hvalid.saved file hmem).consistent).2]
      exact (hinv.2 file hmem).recover
    | constructs options generatedId _ himpl _ =>
      intro work entry lifecycle hentry
      rw [(construct_spec himpl).2.1] at hentry
      cases hentry
  · rcases (System.step_frame hstep).saved file hfile with hold | rfl
    · exact hinv.2 file hold
    · exact hinv.1

private theorem SettledInvariant.initial (h : system.IsInitial) : SettledInvariant system := by
  obtain ⟨options, generatedId, now, h⟩ := h
  obtain ⟨impl, hconstruct, rfl⟩ := Option.map_eq_some_iff.mp h
  refine ⟨fun work entry lifecycle hentry => ?_, fun _ hfile => (List.not_mem_nil hfile).elim⟩
  rw [(construct_spec hconstruct).2.1] at hentry
  cases hentry

theorem System.ReachableBy.settled (h : system.ReachableBy CommitsOpen) : Settled system.impl.ledger :=
  (h.keeps (fun _ => SettledInvariant.initial) fun _ _ _ _ hvalid hopen hstep hinv => hinv.step hvalid hopen hstep).1

private theorem ended_run {known : AssignmentId → Prop} {work : WorkId} {generation : WorkGeneration}
    (hrun : System.Runs (fun s label => CommitsOpen s label ∧ Lossless s label) early system) (hearly : early.Valid)
    (h : Ended known work generation early.impl.ledger) : Ended known work generation system.impl.ledger := by
  refine (Runs.keeps (motive := fun s => s.Valid ∧ Ended known work generation s.impl.ledger) ?_ hrun ⟨hearly, h⟩).2
  rintro s s' ⟨label, reply, ⟨hopen, hlossless⟩, hstep⟩ ⟨hvalid, hended⟩
  refine ⟨hvalid.step hstep, ?_⟩
  cases open_change hvalid hopen hstep with
  | moves _ hmoves =>
    exact (Runs.keeps (motive := fun l => Sound l ∧ Ended known work generation l)
      (fun _ _ hmove hinv => ⟨hmove.sound hinv.1, hmove.ended hinv.1 (fun _ _ => id) hinv.2⟩) hmoves
      ⟨hvalid.healthy.sound, hended⟩).2
  | recovers position file hlabel hfile hstopped himpl _ =>
    have hmem := List.mem_of_getElem? hfile
    rw [himpl, (restore_image _ (hvalid.saved file hmem).consistent).2]
    rw [← hlossless.loads position file hlabel hfile hstopped] at hended
    exact hended.recover
  | constructs options generatedId hlabel _ _ => exact (hlossless.restarts options generatedId hlabel).elim

end Run

/-- Terminal work has no active assignment, and while it stays at its generation none is created for it. -/
theorem terminal_stays_idle {early : System} {id : WorkId} {work : WorkRecord} (hearly : early.ReachableBy CommitsOpen)
    (hwork : early.impl.work[id]? = some work) (hterminal : work.lifecycle.isTerminal) :
    early.impl.activeCount (fun record => record.binding.work = id) = 0 ∧
      ∀ (system : System) work', System.Runs (fun s label => CommitsOpen s label ∧ Lossless s label) early system →
        system.impl.work[id]? = some work' → work'.request.generation = work.request.generation →
        work'.lifecycle.isTerminal ∧
          ∀ (assignment : AssignmentId) record, system.impl.assignments[assignment]? = some record →
            record.binding.work = id → record.binding.workGeneration = work.request.generation →
            record.state.isActive = false ∧ ∃ before, early.impl.assignments[assignment]? = some before := by
  constructor
  · have hidle := hearly.settled id work.entry work.lifecycle (by simp [Impl.ledger, hwork])
      (by simp [WorkRecord.entry, hterminal])
    have hcount := congrArg Set.encard hidle
    rw [Ledger.activeFor, encard_active early.impl (p := fun record => record.binding.work = id) (by simp),
      Set.encard_empty] at hcount
    exact_mod_cast hcount
  · intro system work' hrun hwork' hgeneration
    have hended : Ended (fun assignment => ∃ before, early.impl.assignments[assignment]? = some before) id
        work.request.generation early.impl.ledger := by
      refine ⟨work.entry, by simp [Impl.ledger, hwork], UInt64.lt_irrefl _, fun _ => ?_, fun _ record hrecord _ _ => ?_⟩
      · simp [WorkRecord.entry, hterminal]
      · exact ⟨record, hrecord⟩
    obtain ⟨entry, hentry, -, hsettled, hknown⟩ := ended_run hrun hearly.valid hended
    have hentry' : work'.entry = entry := by simpa [Impl.ledger, hwork'] using hentry
    have hterminal' : work'.lifecycle.isTerminal := by
      by_contra hrunning
      refine hsettled (hentry' ▸ hgeneration) ?_
      simp [← hentry', WorkRecord.entry, hrunning]
    refine ⟨hterminal', fun assignment record hrecord hbound hat => ⟨?_, hknown assignment record hrecord hbound hat⟩⟩
    have hreach := hearly.trans (hrun.mono fun _ _ => And.left)
    have hidle := hreach.settled id work'.entry work'.lifecycle (by simp [Impl.ledger, hwork'])
      (by simp [WorkRecord.entry, hterminal'])
    by_contra hactive
    have hmem : assignment ∈ system.impl.ledger.activeFor id := ⟨record, hrecord, by simpa using hactive, hbound⟩
    rw [hidle] at hmem
    exact hmem

namespace Sample

/-- A step of one process that is not recovered from a file. -/
def Unbroken : Label → Prop
  | .load _ => False
  | .restart .. => False
  | _ => True

instance (label : Label) : Decidable (Unbroken label) := by
  rcases label with ⟨⟩ <;> first | exact instDecidableTrue | exact instDecidableFalse

theorem Unbroken.lossless {label : Label} (h : Unbroken label) (system : System) : Lossless system label := by
  refine ⟨?_, ?_⟩
  · rintro position file rfl
    exact h.elim
  · rintro options generatedId rfl
    exact h

/-- An unbroken step that commits on open work only. -/
def Orderly (system : System) (label : Label) : Prop :=
  Unbroken label ∧
    match label with
    | .finish position =>
      match system.calls[position]? with
      | some (.schedule plan) => system.impl.WorkOpen plan
      | _ => True
    | _ => True

instance (system : System) (label : Label) : Decidable (Orderly system label) := by
  refine @instDecidableAnd _ _ inferInstance ?_
  rcases label with ⟨⟩
  case finish position =>
    dsimp only
    generalize system.calls[position]? = call
    rcases call with _ | ⟨⟨⟩⟩
    case some.schedule plan => exact inferInstanceAs (Decidable (system.impl.WorkOpen plan))
    all_goals exact instDecidableTrue
  all_goals exact instDecidableTrue

theorem Orderly.opens {system : System} {label : Label} (h : Orderly system label) : CommitsOpen system label := by
  rintro plan ⟨position, rfl, hcall⟩
  simpa only [hcall] using h.2

/-- A work item is scheduled and completed, and another attempt at it is made. -/
def completed : Option (System × System) := do
  let planned ← run Orderly (enlist ++ submit exclusiveWork ++ [.begin (.schedule 5 1)])
  match planned.calls with
  | .schedule plan :: _ =>
    let early ← planned.perform Orderly
      [.finish 0, .run (.completeAssignment plan.binding.id plan.binding.generation boot)]
    let later ← early.perform Orderly schedule.dropLast
    return (early, later)
  | _ => none

end Sample

set_option maxRecDepth 100000 in
/-- A completed work item stays completed, and what was stored for it stays all there is. -/
theorem terminal_stays_idle_sample : ∃ (early system : System) (work work' : WorkRecord),
    early.impl.work[(5 : WorkId)]? = some work ∧ work.lifecycle = .completed ∧
      system.impl.work[(5 : WorkId)]? = some work' ∧ work'.lifecycle.isTerminal ∧
      system.impl.activeCount (fun record => record.binding.work = 5) = 0 ∧
      ∀ (assignment : AssignmentId) record, system.impl.assignments[assignment]? = some record →
        record.binding.work = 5 → record.binding.workGeneration = work.request.generation →
        record.state.isActive = false ∧ ∃ before, early.impl.assignments[assignment]? = some before := by
  have hview : Sample.completed.map (fun (early, later) =>
      (early.impl.work[(5 : WorkId)]?.map fun work => (work.lifecycle, work.request.generation),
        later.impl.work[(5 : WorkId)]?.map fun work => (work.lifecycle, work.request.generation))) =
      some (some (.completed, 1), some (.completed, 1)) := by decide +kernel
  obtain ⟨⟨early, later⟩, hruns, hview⟩ := Option.map_eq_some_iff.mp hview
  simp only [Prod.mk.injEq] at hview
  obtain ⟨work, hwork, hcompleted⟩ := Option.map_eq_some_iff.mp hview.1
  obtain ⟨work', hwork', hcompleted'⟩ := Option.map_eq_some_iff.mp hview.2
  simp only [Prod.mk.injEq] at hcompleted hcompleted'
  simp only [Sample.completed, bind, Option.bind_eq_some_iff] at hruns
  obtain ⟨planned, hplanned, hruns⟩ := hruns
  split at hruns
  · simp only [Option.bind_eq_some_iff] at hruns
    obtain ⟨early', hearly, later', hlater, heq⟩ := hruns
    obtain ⟨rfl, rfl⟩ := by simpa only [pure, Option.some.injEq, Prod.mk.injEq] using heq
    have hreached : early'.ReachableBy CommitsOpen :=
      ((Sample.run_reaches hplanned).trans (System.perform_runs hearly)).mono fun _ _ => Sample.Orderly.opens
    have hrun : System.Runs (fun s label => CommitsOpen s label ∧ Lossless s label) early' later' :=
      (System.perform_runs hlater).mono fun s _ h => ⟨h.opens, h.1.lossless s⟩
    have hterminal : work.lifecycle.isTerminal := by rw [hcompleted.1]; rfl
    obtain ⟨hterminal', hknown⟩ := (terminal_stays_idle hreached hwork hterminal).2 later' work' hrun hwork'
      (hcompleted'.2.trans hcompleted.2.symm)
    have hidle := (terminal_stays_idle (hreached.trans (hrun.mono fun _ _ => And.left)) hwork' hterminal').1
    exact ⟨early', later', work, work', hwork, hcompleted.1, hwork', hterminal', hidle, hknown⟩
  · cases hruns

/-- Two plans for one work item choose different agents, because the second agent, with the lower id, is enlisted
between them. The second plan is committed and completed before the first one is committed. -/
def Sample.outlived : Option System := do
  let descriptor' := { descriptor with id := 2, boot := ⟨⟨0, 2⟩⟩ }
  let planned ← run (fun _ _ => True)
    ([.begin (.registerAgent descriptor'), .finish 0,
      .run (.publishCapabilities 2 ⟨⟨0, 2⟩⟩ { profile with boot := ⟨⟨0, 2⟩⟩ }), .run (.publishHealth 2 ⟨⟨0, 2⟩⟩ health),
      .run (.publishAvailability 2 ⟨⟨0, 2⟩⟩ availability)] ++
    submit exclusiveWork ++ [.begin (.schedule 5 1), .begin (.registerAgent descriptor), .finish 1] ++ enlist.drop 2 ++
    [.begin (.schedule 5 1)])
  match planned.calls with
  | [_, .schedule plan] =>
    planned.perform (fun _ _ => True)
      [.finish 1, .run (.completeAssignment plan.binding.id plan.binding.generation boot), .finish 0]
  | _ => none

set_option maxRecDepth 100000 in
/-- Terminal work does not always stay idle: a plan made before its completion is committed all the same. -/
theorem not_terminal_stays_idle : ¬∀ (system : System) (id : WorkId) work, system.Reachable →
    system.impl.work[id]? = some work → work.lifecycle.isTerminal →
    system.impl.activeCount (fun record => record.binding.work = id) = 0 := by
  intro hidle
  have hview : Sample.outlived.map (fun system =>
      (system.impl.work[(5 : WorkId)]?.map WorkRecord.lifecycle,
        system.impl.activeCount fun record => record.binding.work = 5)) = some (some .completed, 1) := by decide +kernel
  obtain ⟨system, hruns, hview⟩ := Option.map_eq_some_iff.mp hview
  simp only [Prod.mk.injEq] at hview
  obtain ⟨work, hwork, hcompleted⟩ := Option.map_eq_some_iff.mp hview.1
  simp only [Sample.outlived, bind, Option.bind_eq_some_iff] at hruns
  obtain ⟨planned, hplanned, hruns⟩ := hruns
  split at hruns
  · have hreachable : system.Reachable := (Sample.run_reaches hplanned).trans (System.perform_runs hruns)
    have hnone := hidle system 5 work hreachable hwork (by rw [hcompleted]; rfl)
    rw [hview.2] at hnone
    cases hnone
  · cases hruns

end AgentScheduler
