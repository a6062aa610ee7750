import AgentScheduler.Agreement
import AgentScheduler.Departure

/-! The counter of recent assignments: it is decayed, saved and ranked by, but nothing ever raises it. -/
namespace AgentScheduler
open Std KeyedTable Relation

/-! ### The counter only ever falls -/

/-- Every stored counter of recent assignments is zero, or no higher than it was for this agent. -/
def Impl.Decays (impl impl' : Impl) : Prop :=
  ∀ (agent : AgentId) record', impl'.agents[agent]? = some record' → record'.recentAssignments = 0 ∨
    ∃ record, impl.agents[agent]? = some record ∧ record'.recentAssignments ≤ record.recentAssignments

section Decays
variable {ctx : Context} {event : Event} {stale stale' : Set AgentId} {impl impl' : Impl} {agent : AgentId}

theorem Impl.Decays.of_agents (h : impl'.agents = impl.agents) : impl.Decays impl' := by
  intro agent record hrecord
  exact .inr ⟨record, h ▸ hrecord, UInt32.le_refl _⟩

theorem Impl.Decays.trans {impl'' : Impl} (h : impl.Decays impl') (h' : impl'.Decays impl'') : impl.Decays impl'' := by
  intro agent third hthird
  rcases h' agent third hthird with hzero | ⟨second, hsecond, hlater⟩
  · exact .inl hzero
  · rcases h agent second hsecond with hzero | ⟨first, hfirst, hearlier⟩
    · rw [hzero] at hlater
      exact .inl (UInt32.le_antisymm hlater (UInt32.le_iff_toNat_le.mpr (Nat.zero_le _)))
    · exact .inr ⟨first, hfirst, UInt32.le_trans hlater hearlier⟩

theorem Impl.Decays.setAgent {record : AgentRecord} (h : record.recentAssignments = 0 ∨ ∃ before, impl.agents[agent]? = some before ∧
    record.recentAssignments ≤ before.recentAssignments) : impl.Decays (impl.setAgent agent record) := by
  intro other record' hrecord'
  rw [getElem?_setAgent] at hrecord'
  split at hrecord'
  · next heq =>
    subst heq
    rw [← Option.some.inj hrecord']
    exact h
  · exact .inr ⟨record', hrecord', UInt32.le_refl _⟩

theorem recentAssignments_recompute (record : AgentRecord) :
    (recomputeLifecycle record).recentAssignments = record.recentAssignments := by
  rw [recomputeLifecycle_eq]

theorem Impl.Decays.refreshAgentAccounting (hkey : Keyed (fun record : AgentRecord => record.descriptor.id) impl.agents)
    (agent : AgentId) : impl.Decays (refreshAgentAccounting impl agent) := by
  intro other record' hrecord'
  rw [agents_refreshAgentAccounting _ _ _ hkey] at hrecord'
  split at hrecord'
  · obtain ⟨record, hrecord, rfl⟩ := Option.map_eq_some_iff.mp hrecord'
    refine .inr ⟨record, hrecord, ?_⟩
    exact (congrArg (· ≤ record.recentAssignments) (recentAssignments_recompute _)).mpr (UInt32.le_refl _)
  · exact .inr ⟨record', hrecord', UInt32.le_refl _⟩

theorem decayRecent_le (record : AgentRecord) : (decayRecent record).recentAssignments ≤ record.recentAssignments := by
  unfold decayRecent
  split
  · rw [UInt32.le_iff_toNat_le]
    simp only [UInt32.toNat_div, UInt32.toNat_mul]
    have hwrapped : record.recentAssignments.toNat * (3 : UInt32).toNat % 2 ^ 32 ≤ record.recentAssignments.toNat * 3 := Nat.mod_le _ _
    exact Nat.div_le_of_le_mul (hwrapped.trans (by change _ ≤ 4 * _; omega))
  · exact UInt32.le_refl _

theorem Impl.Decays.closeAssignment {now : UInt64} {id : AssignmentId} {record : AssignmentRecord}
    {state : AssignmentState} {reason : InvalidationReason} {detail : Text} (h : Consistent impl)
    (hrecord : impl.assignments[id]? = some record) (hopen : record.state.isTerminal = false) :
    impl.Decays (closeAssignment now impl id state reason detail) := by
  let freed := unslotted impl id record (record.close now state reason detail)
  let base := deindexAssignment (dropLease (impl.setAssignment id (record.close now state reason detail))
    record.binding.lease) (record.close now state reason detail)
  have hfreed : impl.Decays freed := by
    change impl.Decays (base.modifyAgent record.binding.agent decayRecent)
    cases hagent : base.agents[record.binding.agent]? with
    | none => exact .of_agents (@modify_eq_self _ _ _ _ _ _ base.agents _ hagent decayRecent)
    | some stored =>
      rw [modifyAgent_eq_setAgent hagent]
      exact @Impl.Decays.setAgent base _ _ (.inr ⟨stored, hagent, decayRecent_le stored⟩)
  have hkey : Keyed (fun record : AgentRecord => record.descriptor.id) freed.agents := by
    refine h.agentKey.modify fun record => ?_
    unfold decayRecent
    split <;> rfl
  have hcounted := Impl.Decays.refreshAgentAccounting hkey record.binding.agent
  refine (hfreed.trans hcounted).trans (.of_agents ?_)
  rw [closeAssignment_eq hrecord hopen]
  exact agents_refreshWorkAccounting _ _

theorem recentAssignments_freshAgent (now : UInt64) (impl : Impl) (descriptor : AgentDescriptor) (reason : Text) :
    (freshAgent now impl descriptor reason).recentAssignments = 0 := recentAssignments_recompute _

/-- Not even a commit. -/
theorem Impl.Decays.commitApply {generation : WorkGeneration} {binding : AssignmentBinding} {work : WorkRecord}
    (h : Consistent impl) (hcheck : commitCheck ctx impl binding.work generation binding = .ok work) :
    impl.Decays (commitApply impl binding.work work binding) := by
  have hwork := (commits_of_check h hcheck).1
  let counted := refreshWorkAccounting (slotted impl work binding) binding.work
  have hcounted : counted.agents = impl.agents := (agents_refreshWorkAccounting _ _).trans (agents_slotted impl work binding)
  have hagain : counted.Decays (AgentScheduler.refreshAgentAccounting counted binding.agent) :=
    .refreshAgentAccounting (hcounted ▸ h.agentKey) _
  refine ((Impl.Decays.of_agents hcounted).trans hagain).trans (.of_agents ?_)
  rw [commitApply_eq hwork]
  rfl

/-- No deed raises the counter of an agent. -/
theorem Deed.decays (hdeed : Deed ctx event (stale, impl) (stale', impl')) (h : Consistent impl) : impl.Decays impl' := by
  cases hdeed with
  | quiet _ hessence _ =>
    have hagents := congrArg Impl.agents hessence
    exact .of_agents hagents
  | govern _ htables _ =>
    have hagents := congrArg Impl.agents htables
    exact .of_agents hagents
  | close id record state reason detail hrecord hopen _ => exact .closeAssignment h hrecord hopen
  | fence =>
    refine .of_agents ?_
    unfold fenceBoot
    split <;> rfl
  | touch agent record touch hrecord _ =>
    refine .setAgent (.inr ⟨record, hrecord, ?_⟩)
    cases touch <;> exact UInt32.le_refl _
  | refresh agent =>
    intro other record' hrecord'
    rw [agents_refreshAgent h.agentKey] at hrecord'
    exact Impl.Decays.refreshAgentAccounting h.agentKey agent other record' hrecord'
  | recount agent => exact .refreshAgentAccounting h.agentKey agent
  | note agent record record' hrecord _ hrecent =>
    refine .setAgent (.inr ⟨record, hrecord, ?_⟩)
    rw [hrecent]
    exact UInt32.le_refl _
  | enroll descriptor => exact Impl.Decays.setAgent (.inl (recentAssignments_freshAgent _ _ _ _))
  | reincarnate descriptor => exact .setAgent (.inl (recentAssignments_freshAgent _ _ _ _))
  | accept | reopen | settle | tally | advance => exact .of_agents rfl
  | refreshWork work => exact .of_agents (agents_refreshWorkAccounting impl work)
  | commit generation binding work hcheck => exact .commitApply h hcheck

theorem Deeds.decays {allows : Event → Prop} (hdeeds : Deeds ctx allows (stale, impl) (stale', impl')) (h : Consistent impl) :
    impl.Decays impl' :=
  hdeeds.keeps (motive := fun scene => impl.Decays scene.2) (fun _ _ _ _ hdeed hscene hinv => hinv.trans (hdeed.decays hscene)) h
    (.of_agents rfl)

theorem decays_restore {file : Impl} (h : Consistent file) : file.Decays (restore impl (image file)) := by
  let rebuilt := rebuildIndexes (install impl (image file))
  let counted := rebuilt.agents.keys.foldl refreshAgentAccounting rebuilt
  have hinstalled : file.Decays (install impl (image file)) := by
    intro agent record hrecord
    change (file.agents.map fun _ record => record.recover)[agent]? = some record at hrecord
    rw [getElem?_map] at hrecord
    obtain ⟨saved, hsaved, rfl⟩ := Option.map_eq_some_iff.mp hrecord
    exact .inr ⟨saved, hsaved, UInt32.le_refl _⟩
  have hrebuilt : rebuilt.agents = (install impl (image file)).agents := read_rebuildIndexes _ (f := Impl.agents) fun _ => rfl
  have hcounted : Coherent Set.univ counted ∧ rebuilt.Decays counted :=
    List.foldlRecOn (motive := fun after : Impl => Coherent Set.univ after ∧ rebuilt.Decays after) _ _
      ⟨coherent_install _ h, .of_agents rfl⟩ fun after hafter refreshed _ =>
        ⟨hafter.1.refreshAgentAccounting refreshed, hafter.2.trans (.refreshAgentAccounting hafter.1.agentKey refreshed)⟩
  have hworks : (restore impl (image file)).agents = counted.agents :=
    foldl_project (f := Impl.agents) agents_refreshWorkAccounting counted.work.keys counted
  exact ((hinstalled.trans (.of_agents hrebuilt)).trans hcounted.2).trans (.of_agents hworks)

/-- No stored counter of recent assignments is above zero. -/
def Impl.NeverRecent (impl : Impl) : Prop :=
  ∀ (agent : AgentId) record, impl.agents[agent]? = some record → record.recentAssignments = 0

theorem Impl.NeverRecent.decays (h : impl.NeverRecent) (hdecays : impl.Decays impl') : impl'.NeverRecent := by
  intro agent record' hrecord'
  rcases hdecays agent record' hrecord' with hzero | ⟨record, hrecord, hle⟩
  · exact hzero
  · rw [h agent record hrecord] at hle
    exact UInt32.le_antisymm hle (UInt32.le_iff_toNat_le.mpr (Nat.zero_le _))

/-- The counter of recent assignments is zero for every agent of every reachable state. -/
theorem System.Reachable.neverRecent {system : System} (h : system.Reachable) : system.impl.NeverRecent := by
  refine (System.ReachableBy.stores (motive := Impl.NeverRecent) h (fun hconstruct agent record hrecord => ?_)
    (fun hfile hinv => hinv.decays (decays_restore hfile)) fun hvalid _ _ hdeeds hinv =>
      hinv.decays (hdeeds.decays hvalid.healthy.consistent)).1
  rw [construct_agents hconstruct] at hrecord
  simp at hrecord

/-- So it is in the state that a commit of a batch finds. -/
theorem System.Commits.neverRecent {system : System} {label : Label} {work : WorkRecord} {binding : AssignmentBinding}
    (hcommits : system.Commits label impl work binding) (h : system.Reachable) : impl.NeverRecent := by
  cases hcommits with
  | schedule => exact h.neverRecent
  | @batch request _ _ _ _ _ hvisits =>
    refine (hvisits.visits.keeps (motive := fun state => Consistent state.impl ∧ state.impl.NeverRecent)
      (fun first state id hstate => ?_) (fun _ _ hstate => hstate) ⟨h.valid.healthy.consistent, h.neverRecent⟩).2
    have hdeeds : Deeds system.context (fun _ => True) (∅, state.impl)
        (∅, (batchItem system.context request first state id).impl) :=
      batchItem_deeds id hstate.1 (fun _ _ => trivial) fun _ => trivial
    exact ⟨hdeeds.consistent hstate.1, hstate.2.decays (hdeeds.decays hstate.1)⟩

end Decays

/-! ### What the counter should say -/

/-- The value of the ranking factor `anti_concentration`. -/
def antiConcentration (impl : Impl) (agent : AgentRecord) : Int :=
  let window := impl.policy.antiConcentrationWindow
  if window = 0 then -1 else 1000 - ratio (min agent.recentAssignments window).toUInt64 window.toUInt64

/-- A commit counts for its agent, and ranks it below any agent that holds no assignment. -/
def CountsCommit (committed : Impl) (binding : AssignmentBinding) : Prop :=
  ∀ record, committed.agents[binding.agent]? = some record → 1 ≤ record.recentAssignments ∧
    antiConcentration committed record < 1000 ∧
    ∀ (other : AgentId) rival, committed.agents[other]? = some rival →
      (∀ (id : AssignmentId) assignment, committed.assignments[id]? = some assignment → assignment.binding.agent ≠ other) →
      antiConcentration committed record < antiConcentration committed rival

/-- The step commits nothing. -/
def System.CommitsNothing (system : System) (label : Label) : Prop :=
  ∀ impl work binding, ¬system.Commits label impl work binding

/-- What is asked of the counters in a step: every commit counts, no counter exceeds the number of assignments of the
current generation, and what commits nothing to an agent does not raise its counter. -/
structure CountsRecent (system : System) (label : Label) (after : System) : Prop where
  counts : ∀ impl work binding, system.Commits label impl work binding →
    CountsCommit (commitApply impl binding.work work binding) binding
  bounded : ∀ (agent : AgentId) record, after.impl.agents[agent]? = some record → record.recentAssignments.toNat ≤
    after.impl.assignments.values.countP fun assignment =>
      assignment.binding.agent = agent && assignment.binding.agentGeneration = record.descriptor.generation
  decays : ∀ (agent : AgentId) record record', system.impl.agents[agent]? = some record →
    after.impl.agents[agent]? = some record' →
    (∀ impl work binding, system.Commits label impl work binding → binding.agent ≠ agent) →
    record'.recentAssignments ≤ record.recentAssignments

/-- A run, step by step: where each step was taken, and where it led. -/
inductive System.Takes : System → List (System × Label × System) → System → Prop
  | done (system : System) : System.Takes system [] system
  | step {system middle after : System} {label : Label} {reply : Reply} {steps : List (System × Label × System)}
      (hstep : system.step label = some (reply, middle)) (hrest : System.Takes middle steps after) :
      System.Takes system ((system, label, middle) :: steps) after

section Runs
variable {system after : System} {label : Label} {reply : Reply}

theorem System.Reachable.step (h : system.Reachable) (hstep : system.step label = some (reply, after)) : after.Reachable := by
  obtain ⟨start, hstart, hrun⟩ := h
  exact ⟨start, hstart, hrun.tail ⟨label, reply, trivial, hstep⟩⟩

/-- Every step of a run is taken in a reachable state. -/
theorem System.Takes.reachable {steps : List (System × Label × System)} (htakes : system.Takes steps after)
    (h : system.Reachable) {before later : System} (hmem : (before, label, later) ∈ steps) :
    before.Reachable ∧ ∃ reply, before.step label = some (reply, later) := by
  induction htakes with
  | done => cases hmem
  | @step first middle after label' reply steps hstep hrest ih =>
    rcases List.mem_cons.mp hmem with heq | hmem
    · obtain ⟨rfl, rfl, rfl⟩ : before = first ∧ label = label' ∧ later = middle := by simpa using heq
      exact ⟨h, reply, hstep⟩
    · exact ih (h.step hstep) hmem

/-- A commit does not count: it leaves the counter of its agent at zero. -/
theorem not_countsCommit {impl : Impl} {work : WorkRecord} {binding : AssignmentBinding} (h : system.Reachable)
    (hcommits : system.Commits label impl work binding) : ¬CountsCommit (commitApply impl binding.work work binding) binding := by
  intro hcounts
  obtain ⟨hhealthy, generation, hcheck⟩ := hcommits.checked h.valid
  obtain ⟨hconsistent, hledger⟩ := commitApply_spec hhealthy.consistent hcheck
  obtain ⟨-, -, -, ⟨agent, hagent, -⟩, -⟩ := commitCheck_ok.mp hcheck
  have hnone := (hcommits.neverRecent h).decays (.commitApply hhealthy.consistent hcheck)
  have hknown : (commitApply impl binding.work work binding).agents[binding.agent]? ≠ none := by
    intro habsent
    have hentry := congrFun (congrArg Ledger.agents hledger) binding.agent
    change ((commitApply impl binding.work work binding).agents[binding.agent]?).map AgentRecord.entry =
      (impl.agents[binding.agent]?).map AgentRecord.entry at hentry
    rw [habsent, hagent] at hentry
    cases hentry
  obtain ⟨record, hrecord⟩ := Option.ne_none_iff_exists'.mp hknown
  have hone := (hcounts record hrecord).1
  rw [hnone binding.agent record hrecord] at hone
  exact absurd hone (by decide)

/-- The counters of a step are right exactly if it commits nothing. -/
theorem countsRecent_iff (h : system.Reachable) (hstep : system.step label = some (reply, after)) :
    CountsRecent system label after ↔ system.CommitsNothing label := by
  have hnone := (h.step hstep).neverRecent
  constructor
  · intro hcounts impl work binding hcommits
    exact not_countsCommit h hcommits (hcounts.counts impl work binding hcommits)
  · intro hnothing
    refine ⟨fun impl work binding hcommits => absurd hcommits (hnothing impl work binding), fun agent record hrecord => ?_,
      fun agent record record' _ hrecord' _ => ?_⟩
    · rw [hnone agent record hrecord]
      exact Nat.zero_le _
    · rw [hnone agent record' hrecord']
      exact UInt32.le_iff_toNat_le.mpr (Nat.zero_le _)

/-- A run can be told step by step, and extended by one more. -/
theorem System.Takes.append {middle : System} {steps : List (System × Label × System)} (htakes : system.Takes steps middle)
    (hstep : middle.step label = some (reply, after)) : system.Takes (steps ++ [(middle, label, after)]) after := by
  induction htakes with
  | done => exact .step hstep (.done after)
  | step hfirst _ ih => exact .step hfirst (ih hstep)

theorem System.Runs.takes {allowed : System → Prop} (hrun : System.Runs (fun system _ => allowed system) system after) :
    ∃ steps, system.Takes steps after ∧ ∀ step ∈ steps, allowed step.1 := by
  induction hrun with
  | refl => exact ⟨[], .done system, fun _ h => nomatch h⟩
  | @tail middle later _ hs ih =>
    obtain ⟨steps, htakes, hsteps⟩ := ih
    obtain ⟨label, reply, hallowed, hstep⟩ := hs
    refine ⟨_, htakes.append hstep, List.forall_mem_append.mpr ⟨hsteps, ?_⟩⟩
    exact List.forall_mem_singleton.mpr hallowed

end Runs

/-- The counters of recent assignments are right throughout a run exactly if the run commits nothing. -/
theorem recent_assignments_counted_iff (start after : System) (steps : List (System × Label × System)) (hstart : start.IsInitial)
    (htakes : start.Takes steps after) :
    (∀ step ∈ steps, CountsRecent step.1 step.2.1 step.2.2) ↔ ∀ step ∈ steps, step.1.CommitsNothing step.2.1 := by
  refine forall₂_congr fun step hmem => ?_
  obtain ⟨hreach, reply, hstep⟩ := htakes.reachable ⟨start, hstart, .refl⟩ hmem
  exact countsRecent_iff hreach hstep

/-- The policy counts recent assignments. -/
def System.Windowed (system : System) : Prop := system.impl.policy.antiConcentrationWindow ≠ 0

instance (system : System) : Decidable system.Windowed := inferInstanceAs (Decidable (_ ≠ _))

/-- A plan in flight, as far as all policies count recent assignments. -/
def Sample.windowed : Option (System × Plan) :=
  (run (fun system _ => system.Windowed) (enlist ++ submit exclusiveWork ++ [.begin (.schedule 5 1)])).bind fun (system : System) =>
    match (system.calls[0]? : Option Call) with
    | some (.schedule plan) => some (system, plan)
    | _ => none

set_option maxRecDepth 100000 in
/-- Time passes after the start. -/
theorem recent_assignments_counted_iff_sample : ∃ start after steps, System.initial Sample.options 0 1000 = some start ∧
    start.Takes steps after ∧ after.now = 1005 ∧ ∀ step ∈ steps, CountsRecent step.1 step.2.1 step.2.2 := by
  have hview : ((System.initial Sample.options 0 1000).bind fun start => start.step (.tick 1005)).map
      (fun found => found.2.now) = some 1005 := by decide +kernel
  obtain ⟨⟨reply, after⟩, hfound, hnow⟩ := Option.map_eq_some_iff.mp hview
  obtain ⟨start, hstart, hstep⟩ := Option.bind_eq_some_iff.mp hfound
  have htakes : start.Takes [(start, .tick 1005, after)] after := .step hstep (.done after)
  refine ⟨start, after, _, hstart, htakes, hnow, ?_⟩
  refine (recent_assignments_counted_iff start after _ ⟨Sample.options, 0, 1000, hstart⟩ htakes).mpr ?_
  refine List.forall_mem_singleton.mpr fun impl work binding hcommits => ?_
  cases hcommits

set_option maxRecDepth 100000 in
/-- The first assignment of the first agent does not count. -/
theorem not_recent_assignments_counted : ¬∀ (start after : System) (steps : List (System × Label × System)), start.IsInitial →
    start.Takes steps after → (∀ step ∈ steps, step.1.Windowed) → ∀ step ∈ steps, CountsRecent step.1 step.2.1 step.2.2 := by
  intro hcounted
  have hview : Sample.windowed.map (fun found => (decide found.1.Windowed, Sample.verdict found.1 found.2,
      (found.1.step (.finish 0)).isSome)) = some (true, some true, true) := by decide +kernel
  obtain ⟨⟨system, plan⟩, hfound, hview⟩ := Option.map_eq_some_iff.mp hview
  simp only [Prod.mk.injEq] at hview
  obtain ⟨hwindowed, hverdict, hsome⟩ := hview
  obtain ⟨reached, hrun, hcall⟩ := Option.bind_eq_some_iff.mp hfound
  split at hcall
  · next stored hstored =>
    obtain ⟨rfl, rfl⟩ := Prod.mk.inj (Option.some.inj hcall)
    obtain ⟨work, record, hcommits, -, -⟩ := Sample.verdict_commits hverdict hstored
    obtain ⟨⟨reply, after⟩, hstep⟩ := Option.isSome_iff_exists.mp hsome
    obtain ⟨start, hstart, hruns⟩ := Sample.run_reaches hrun
    obtain ⟨steps, htakes, hsteps⟩ := hruns.takes
    have hlast := hcounted start after _ hstart (htakes.append hstep)
      (List.forall_mem_append.mpr ⟨hsteps, List.forall_mem_singleton.mpr (of_decide_eq_true hwindowed)⟩)
      (reached, .finish 0, after) (List.mem_append_right _ List.mem_cons_self)
    have hreach : reached.Reachable := ⟨start, hstart, hruns.mono fun _ _ _ => trivial⟩
    exact not_countsCommit hreach hcommits (hlast.counts _ work _ hcommits)
  · cases hcall

end AgentScheduler
