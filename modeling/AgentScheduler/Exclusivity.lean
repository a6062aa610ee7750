import AgentScheduler.Reachability

/-! Exclusivity and fan-out of work items in every run, and the commits that break the mode of a work item. -/
namespace AgentScheduler
open Std KeyedTable Relation

/-! ### Counting active assignments -/

/-- The number of stored active assignments with a property. -/
def Impl.activeCount (impl : Impl) (p : AssignmentRecord → Bool) : Nat :=
  impl.assignments.values.countP fun record => record.state.isActive && p record

theorem encard_active (impl : Impl) {p : AssignmentRecord → Bool} {q : AssignmentRecord → Prop}
    (h : ∀ record, p record = true ↔ q record) : (impl.ledger.active q).encard = impl.activeCount p := by
  have hset : impl.ledger.active q = keysWhere impl.assignments fun record => record.state.isActive && p record := by
    ext id
    simp only [Ledger.active, keysWhere, Bool.and_eq_true, h]
    rfl
  rw [hset, encard_keysWhere]
  rfl

/-- The slots of a stored work item are used as its request allows. -/
structure Impl.SlotsKept (impl : Impl) (id : WorkId) (work : WorkRecord) : Prop where
  exclusive : impl.activeCount (fun record => record.binding.work = id && record.binding.exclusive) ≤ 1
  total : impl.activeCount (fun record => record.binding.work = id) ≤ work.request.requirements.maxParallel.toNat
  perAgent : ∀ agent, impl.activeCount (fun record => record.binding.work = id && record.binding.agent = agent) ≤
    work.request.requirements.maxAssignmentsPerAgent.toNat
  generation : ∀ (assignment : AssignmentId) record, impl.assignments[assignment]? = some record →
    record.state.isActive → record.binding.work = id → record.binding.workGeneration = work.request.generation

/-- Every active assignment of a stored work item is exclusive exactly when its mode is. -/
def Impl.ModeKept (impl : Impl) (id : WorkId) (work : WorkRecord) : Prop :=
  ∀ (assignment : AssignmentId) record, impl.assignments[assignment]? = some record → record.state.isActive →
    record.binding.work = id → (record.binding.exclusive ↔ work.request.mode = .exclusive)

/-- Exclusivity and fan-out of every work item; a work item that is not stored has no active assignment. -/
structure Impl.FanoutKept (impl : Impl) : Prop where
  slots : ∀ (id : WorkId) work, impl.work[id]? = some work → impl.SlotsKept id work
  mode : ∀ (id : WorkId) work, impl.work[id]? = some work → impl.ModeKept id work
  unknown : ∀ id : WorkId, impl.work[id]? = none → impl.activeCount (fun record => record.binding.work = id) = 0

section
variable {now : UInt64} {impl : Impl}

theorem Healthy.slotsKept (h : Healthy now impl) {id : WorkId} {work : WorkRecord} (hwork : impl.work[id]? = some work) :
    impl.SlotsKept id work := by
  have hentry : impl.ledger.works id = some work.entry := by simp [Impl.ledger, hwork]
  refine ⟨?_, ?_, fun agent => ?_, fun assignment record hrecord hactive hbound => ?_⟩
  · have hcount := h.bounded.exclusive id
    rw [Ledger.exclusiveFor, encard_active impl (p := fun record => record.binding.work = id && record.binding.exclusive)
      (by simp)] at hcount
    exact_mod_cast hcount
  · have hcount := h.bounded.total id work.entry hentry
    rw [Ledger.activeFor, encard_active impl (p := fun record => record.binding.work = id) (by simp)] at hcount
    exact_mod_cast hcount
  · have hcount := h.bounded.perAgent id work.entry agent hentry
    rw [Ledger.activeOn, encard_active impl
      (p := fun record => record.binding.work = id && record.binding.agent = agent) (by simp)] at hcount
    exact_mod_cast hcount
  · obtain ⟨entry, hstored, hgeneration⟩ := (h.sound assignment record hrecord).work hactive
    rw [hbound, hentry] at hstored
    obtain rfl := Option.some.inj hstored
    exact hgeneration.symm

theorem Healthy.unknown_idle (h : Healthy now impl) {id : WorkId} (hwork : impl.work[id]? = none) :
    impl.activeCount (fun record => record.binding.work = id) = 0 := by
  have hcount := congrArg Set.encard (h.consistent.unknown id hwork)
  rw [Ledger.activeFor, encard_active impl (p := fun record => record.binding.work = id) (by simp),
    Set.encard_empty] at hcount
  exact_mod_cast hcount

theorem ModesAgree.modeKept (h : ModesAgree impl.ledger) {id : WorkId} {work : WorkRecord}
    (hwork : impl.work[id]? = some work) : impl.ModeKept id work := by
  intro assignment record hrecord hactive hbound
  refine h assignment record work.entry hrecord hactive ?_
  simp [Impl.ledger, hbound, hwork]

end

/-- In every reachable state the slots of every work item are used as its request allows. -/
theorem reachable_slotsKept {system : System} (h : system.Reachable) (id : WorkId) (work : WorkRecord)
    (hwork : system.impl.work[id]? = some work) : system.impl.SlotsKept id work :=
  h.valid.healthy.slotsKept hwork

/-! ### Plans and the request they were made for -/

/-- The request of a stored work item stays or makes way for a higher generation. -/
def Ledger.Advances (ledger ledger' : Ledger) : Prop :=
  ∀ work entry, ledger.works work = some entry → ∃ entry', ledger'.works work = some entry' ∧
    (entry'.request = entry.request ∨ entry.request.generation < entry'.request.generation)

/-- A binding carries the mode its work item has at the generation it is bound to, if that is still current. -/
def PlanFits (ledger : Ledger) (binding : AssignmentBinding) : Prop :=
  ∃ entry, ledger.works binding.work = some entry ∧ ¬entry.request.generation < binding.workGeneration ∧
    (entry.request.generation = binding.workGeneration → (binding.exclusive ↔ entry.request.mode = .exclusive))

section Plans
variable {gate : Gate} {ledger ledger' ledger'' : Ledger}

theorem Ledger.Advances.refl (ledger : Ledger) : ledger.Advances ledger := fun _ entry h => ⟨entry, h, .inl rfl⟩

theorem Ledger.Advances.trans (h : ledger.Advances ledger') (h' : ledger'.Advances ledger'') :
    ledger.Advances ledger'' := by
  intro work entry hentry
  obtain ⟨entry', hentry', hstep⟩ := h work entry hentry
  obtain ⟨entry'', hentry'', hstep'⟩ := h' work entry' hentry'
  refine ⟨entry'', hentry'', ?_⟩
  rcases hstep with hsame | hnewer
  · rw [← hsame]
    exact hstep'
  · rcases hstep' with hsame' | hnewer'
    · rw [hsame']
      exact .inr hnewer
    · exact .inr (UInt64.lt_trans hnewer hnewer')

private theorem advances_setWork {work : WorkId} {entry : WorkEntry}
    (h : ∀ old, ledger.works work = some old →
      entry.request = old.request ∨ old.request.generation < entry.request.generation) :
    ledger.Advances (ledger.setWork work entry) := by
  intro other old hold
  by_cases hwork : other = work
  · subst hwork
    exact ⟨entry, by simp [Ledger.setWork], h old hold⟩
  · exact ⟨old, by simpa [Ledger.setWork, Function.update_of_ne hwork] using hold, .inl rfl⟩

theorem Move.advances (hmove : Move gate ledger ledger') : ledger.Advances ledger' := by
  cases hmove with
  | accept work entry _ _ hold => exact advances_setWork fun old hentry => .inr (hold old hentry).1
  | settle work old lifecycle _ hold _ _ =>
    refine advances_setWork fun found hfound => .inl ?_
    rw [hold] at hfound
    rw [← Option.some.inj hfound]
  | commit entry binding hcommits _ =>
    refine @advances_setWork { ledger with assignments := _ } _ _ fun found hfound => .inl ?_
    have hfound : ledger.works binding.work = some found := hfound
    rw [hcommits.work] at hfound
    rw [← Option.some.inj hfound]
  | close | repolicy | enroll | republish | silence | advance | promote => exact Ledger.Advances.refl ledger

theorem Ledger.advances_of_moves (hmoves : ReflTransGen (Move gate) ledger ledger') : ledger.Advances ledger' :=
  Runs.relates (motive := fun _ => True) Ledger.Advances.refl (fun _ _ _ => Ledger.Advances.trans)
    (fun _ _ _ => id) (fun _ _ hmove _ => hmove.advances) hmoves trivial

theorem PlanFits.advances {binding : AssignmentBinding} (h : PlanFits ledger binding)
    (hadvances : ledger.Advances ledger') : PlanFits ledger' binding := by
  obtain ⟨entry, hentry, hnotnewer, hmode⟩ := h
  obtain ⟨entry', hentry', hstep⟩ := hadvances binding.work entry hentry
  refine ⟨entry', hentry', ?_⟩
  rcases hstep with hsame | hnewer
  · rw [hsame]
    exact ⟨hnotnewer, hmode⟩
  · have hpast : binding.workGeneration < entry'.request.generation := Nat.lt_of_le_of_lt (Nat.le_of_not_lt hnotnewer) hnewer
    refine ⟨fun hlt => UInt64.lt_asymm hpast hlt, fun heq => ?_⟩
    rw [heq] at hpast
    exact (UInt64.lt_irrefl _ hpast).elim

theorem Planned.fits {entry : WorkEntry} {binding : AssignmentBinding} (h : Planned ledger entry binding) :
    PlanFits ledger binding := by
  refine ⟨entry, h.work, fun hlt => ?_, fun _ => h.mode⟩
  rw [h.generation] at hlt
  exact UInt64.lt_irrefl _ hlt

end Plans

/-! ### Runs whose commits fit -/

/-- The exclusive flag of a binding is what the stored work item calls for at the planned generation. -/
def Impl.ModeFits (impl : Impl) (plan : Plan) : Prop :=
  match impl.work[plan.work]? with
  | none => True
  | some work => work.request.generation = plan.generation →
      (plan.binding.exclusive ↔ work.request.mode = .exclusive)

instance (impl : Impl) (plan : Plan) : Decidable (impl.ModeFits plan) := by
  unfold Impl.ModeFits
  split <;> infer_instance

/-- The plan carries the epochs of the instance. -/
def Impl.SameEpochs (impl : Impl) (plan : Plan) : Prop :=
  plan.binding.schedulerEpoch = impl.schedulerEpoch ∧ plan.binding.coordinatorEpoch = impl.coordinatorEpoch

instance (impl : Impl) (plan : Plan) : Decidable (impl.SameEpochs plan) := by
  unfold Impl.SameEpochs
  infer_instance

/-- A commit is of a plan made since the last load. An older plan that carries the current epochs all the same
still fits the mode of its work item. -/
def CommitsFit (system : System) : Label → Prop
  | .finish position =>
    match system.calls[position]? with
    | some (.schedule plan) => plan.era = system.loads ∨ (system.impl.SameEpochs plan → system.impl.ModeFits plan)
    | _ => True
  | _ => True

instance (system : System) (label : Label) : Decidable (CommitsFit system label) := by
  unfold CommitsFit
  split
  · split <;> infer_instance
  · infer_instance

/-- What keeps the modes in agreement along a run. -/
structure ModeInvariant (system : System) : Prop where
  impl : ModesAgree system.impl.ledger
  saved : ∀ file ∈ system.saved, ModesAgree file.ledger
  plans : ∀ plan, .schedule plan ∈ system.calls → plan.era ≤ system.loads ∧
    (plan.era = system.loads → PlanFits system.impl.ledger plan.binding)

section Run
variable {system after : System} {label : Label} {reply : Reply}

/-- A fitting commit carries the mode its work item has now. -/
private theorem commit_modeMatches {plan : Plan} {work : WorkRecord} (hvalid : system.Valid)
    (hinv : ModeInvariant system) (hfits : CommitsFit system label) (hfinishes : system.Finishes label plan)
    (hcheck : commitCheck system.context system.impl plan.work plan.generation plan.binding = .ok work) :
    ModeMatches system.impl.ledger plan.binding := by
  obtain ⟨position, rfl, hcall⟩ := hfinishes
  have hmem : Call.schedule plan ∈ system.calls := List.mem_of_getElem? hcall
  have hbound : plan.binding.work = plan.work := hvalid.calls _ hmem
  rw [← hbound] at hcheck
  obtain ⟨hstored, hcommits⟩ := commits_of_check hvalid.healthy.consistent hcheck
  intro entry hentry
  have hentry : work.entry = entry := Option.some.inj (hcommits.work.symm.trans hentry)
  have hgeneration := commitCheck_generation hcheck
  simp only [CommitsFit, hcall] at hfits
  rcases hfits with hera | hfits
  · obtain ⟨found, hfound, -, hmode⟩ := (hinv.plans plan hmem).2 hera
    rw [hcommits.work] at hfound
    rw [← hentry, Option.some.inj hfound]
    refine hmode ?_
    rw [← Option.some.inj hfound]
    exact hcommits.workGeneration
  · rw [← hentry]
    have hfits := hfits (commitCheck_epochs hcheck)
    simp only [Impl.ModeFits, ← hbound, hstored] at hfits
    exact hfits hgeneration

private theorem ModeInvariant.step (hvalid : system.Valid) (hfits : CommitsFit system label)
    (hstep : system.step label = some (reply, after)) (hinv : ModeInvariant system) : ModeInvariant after := by
  have hchange : Change ModeMatches system after label := by
    refine System.step_change hvalid hstep (fun _ ledger entry binding hplanned entry' hentry' => ?_)
      fun plan work hfinishes hcheck => commit_modeMatches hvalid hinv hfits hfinishes hcheck
    obtain rfl := Option.some.inj (hplanned.work.symm.trans hentry')
    exact hplanned.mode
  have hframe := System.step_frame hstep
  refine ⟨?_, fun file hfile => ?_, fun plan hplan => ?_⟩
  · cases hchange with
    | moves _ hmoves =>
      refine (Runs.keeps (motive := fun ledger => Sound ledger ∧ ModesAgree ledger)
        (fun _ _ hmove h => ⟨hmove.sound h.1, ?_⟩) hmoves ⟨hvalid.healthy.sound, hinv.impl⟩).2
      exact hmove.modesAgree h.1 (fun _ _ hcommit => hcommit) h.2
    | recovers position file _ hfile _ himpl _ =>
      have hmem := List.mem_of_getElem? hfile
      rw [himpl, (restore_image _ (hvalid.saved file hmem).consistent).2]
      exact (hinv.saved file hmem).backed (file.ledger.backed_recover _) (file.ledger.succeeds_recover _)
    | constructs options generatedId _ himpl _ =>
      intro id record entry hrecord
      rw [(construct_spec himpl).2.2] at hrecord
      cases hrecord
  · rcases hframe.saved file hfile with hold | rfl
    · exact hinv.saved file hold
    · exact hinv.impl
  · rcases hframe.calls _ hplan with hold | ⟨himpl, hloads, request, hbegin⟩
    · obtain ⟨hera, hfitting⟩ := hinv.plans plan hold
      rcases hframe.loads with hloads | ⟨hloads, -⟩
      · refine ⟨hloads ▸ hera, fun heq => ?_⟩
        have hfits := hfitting (heq.trans hloads)
        cases hchange with
        | moves _ hmoves => exact hfits.advances (Ledger.advances_of_moves hmoves)
        | recovers position file _ _ _ _ hloads' =>
          rw [hloads] at hloads'
          exact absurd hloads' (Nat.succ_ne_self _).symm
        | constructs options generatedId _ _ hcalls =>
          rw [hcalls] at hplan
          exact (List.not_mem_nil hplan).elim
      · refine ⟨?_, fun heq => ?_⟩
        · rw [hloads]
          exact Nat.le_succ_of_le hera
        · rw [heq, hloads] at hera
          exact (Nat.not_succ_le_self _ hera).elim
    · obtain ⟨hera, record, hrecord, -, hplanned⟩ := beginCall_schedule hbegin
      rw [hera, hloads, himpl]
      exact ⟨le_rfl, fun _ => (planned_of_plan hvalid.healthy.consistent hrecord hplanned).2.fits⟩

private theorem ModeInvariant.initial (h : system.IsInitial) : ModeInvariant system := by
  obtain ⟨options, generatedId, now, h⟩ := h
  obtain ⟨impl, hconstruct, rfl⟩ := Option.map_eq_some_iff.mp h
  refine ⟨fun id record entry hrecord => ?_, fun _ hfile => (List.not_mem_nil hfile).elim,
    fun _ hplan => (List.not_mem_nil hplan).elim⟩
  rw [(construct_spec hconstruct).2.2] at hrecord
  cases hrecord

end Run

/-- Exclusivity and fan-out hold in every state of a run whose commits fit the work they land on. -/
theorem fanoutKept_of_commitsFit {system : System} (h : system.ReachableBy CommitsFit) : system.impl.FanoutKept := by
  have hhealthy := h.valid.healthy
  have hmodes : ModeInvariant system := h.keeps (fun _ => ModeInvariant.initial) fun _ _ _ _ hvalid hfits hstep hinv =>
    hinv.step hvalid hfits hstep
  exact ⟨fun _ _ hwork => hhealthy.slotsKept hwork, fun _ _ hwork => hmodes.impl.modeKept hwork,
    fun _ hwork => hhealthy.unknown_idle hwork⟩

set_option maxRecDepth 100000 in
/-- Work with two slots is scheduled once: one of its slots is taken. -/
theorem fanoutKept_of_commitsFit_sample : ∃ system, Sample.run CommitsFit
    (Sample.enlist ++ Sample.submit Sample.parallelWork ++ Sample.schedule) = some system ∧
      system.impl.activeCount (fun record => record.binding.work = 5) = 1 ∧ system.impl.FanoutKept := by
  have hrun : (Sample.run CommitsFit (Sample.enlist ++ Sample.submit Sample.parallelWork ++ Sample.schedule)).map
      (fun system => system.impl.activeCount fun record => record.binding.work = 5) = some 1 := by decide +kernel
  obtain ⟨system, hsystem, hcount⟩ := Option.map_eq_some_iff.mp hrun
  exact ⟨system, hsystem, hcount, fanoutKept_of_commitsFit (Sample.run_reaches hsystem)⟩

/-- An empty state file is loaded twice. The plan of the first recovery is committed in the second one, where
the work item has come back with two slots under the same epochs. -/
def Sample.replayedPlan : List Label :=
  [.save, .run .shutdown, .load 0, .run .start] ++ enlist ++ submit exclusiveWork ++ [.begin (.schedule 5 1)] ++
  [.run .shutdown, .load 0, .run .start] ++
  [.begin (.registerAgent descriptor), .finish 1, .run (.publishCapabilities 1 boot profile),
   .run (.publishHealth 1 boot health), .run (.publishAvailability 1 boot availability),
   .begin (.submitWork parallelWork), .finish 1, .finish 0]

set_option maxRecDepth 100000 in
/-- Not every reachable state keeps the modes: a commit may carry the mode of a plan from before a load. -/
theorem not_fanoutKept : ¬∀ system : System, system.Reachable → system.impl.FanoutKept := by
  intro hkept
  have hrun : (Sample.run (fun _ _ => True) Sample.replayedPlan).map (fun system =>
      (system.impl.assignments.values.map fun record => (record.state.isActive, record.binding.work, record.binding.exclusive),
        system.impl.work.values.map fun work => (work.request.id, work.request.mode))) =
      some ([(true, 5, true)], [(5, .parallel)]) := by decide +kernel
  obtain ⟨system, hsystem, hview⟩ := Option.map_eq_some_iff.mp hrun
  have hreachable := Sample.run_reaches hsystem
  obtain ⟨hassignments, hworks⟩ := Prod.mk.inj hview
  obtain ⟨record, hrecord, hbinding⟩ := List.mem_map.mp (hassignments ▸ List.mem_singleton_self _)
  obtain ⟨work, hwork, hmode⟩ := List.mem_map.mp (hworks ▸ List.mem_singleton_self _)
  obtain ⟨id, hstored⟩ := mem_values.mp hrecord
  obtain ⟨workId, hstoredWork⟩ := mem_values.mp hwork
  simp only [Prod.mk.injEq] at hbinding hmode
  have hkey : work.request.id = workId := hreachable.valid.healthy.consistent.workKey workId work hstoredWork
  have hbound : record.binding.work = workId := by rw [hbinding.2.1, ← hkey, hmode.1]
  have hexclusive := ((hkept system hreachable).mode workId work hstoredWork id record hstored hbinding.1 hbound).mp
    hbinding.2.2
  rw [hmode.2] at hexclusive
  cases hexclusive

end AgentScheduler
