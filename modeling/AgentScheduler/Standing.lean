import AgentScheduler.Handoff

/-! Standing of assignments: active ones are bound to current authority, and lost authority stays lost. -/
namespace AgentScheduler
open Std KeyedTable Relation

section Revalidation
variable {ctx : Context} {impl : Impl}

/-- An instance in which nothing has been promoted so far. -/
private def Unpromoted (acc : RevalidationReport × Impl) : Prop :=
  (Consistent acc.2 ∧ Sound acc.2.ledger) ∧ acc.1.promoted = 0

theorem Refines.sound {first second : Impl} (hrefines : Refines {} first second)
    (h : Consistent first ∧ Sound first.ledger) : Consistent second ∧ Sound second.ledger :=
  ⟨(hrefines h.1).1, Runs.keeps (fun _ _ hmove => hmove.sound) (hrefines h.1).2 h.2⟩

/-- In a sound instance the authority of an assignment that waits for revalidation does not revalidate. -/
theorem Sound.not_revalidated {id : AssignmentId} {record : AssignmentRecord} (h : Sound impl.ledger)
    (hrecord : impl.assignments[id]? = some record) (hstate : record.state = .revalidationRequired) :
    revalidateAuthority ctx impl record ≠ .ok () := by
  intro hauthority
  obtain ⟨hepoch, agent, hagent, hcapability⟩ := revalidateAuthority_current hauthority
  exact h.not_promotable hrecord hstate hepoch hagent hcapability

private theorem Unpromoted.one {acc : RevalidationReport × Impl} (h : Unpromoted acc) (id : AssignmentId) :
    Unpromoted (revalidateOne ctx acc id) := by
  refine ⟨Refines.sound (revalidateOne_refines ctx acc id) h.1, ?_⟩
  obtain ⟨report, impl⟩ := acc
  obtain ⟨⟨-, hsound⟩, hnone⟩ := h
  unfold revalidateOne
  cases hrecord : impl.assignments[id]? with
  | none => simpa [hrecord] using hnone
  | some record =>
    simp only [hrecord]
    split
    · exact hnone
    · next hwaits =>
      cases hauthority : revalidateAuthority ctx impl record with
      | error rejection => exact hnone
      | ok _ => exact (hsound.not_revalidated hrecord (by simpa using hwaits) hauthority).elim

private theorem Unpromoted.agentOne {agent : AgentId} {boot : AgentBootId} {acc : RevalidationReport × Impl}
    (h : Unpromoted acc) (id : AssignmentId) : Unpromoted (revalidateAgentOne ctx agent boot acc id) := by
  refine ⟨Refines.sound (revalidateAgentOne_refines ctx agent boot acc id) h.1, ?_⟩
  obtain ⟨report, impl⟩ := acc
  obtain ⟨⟨-, hsound⟩, hnone⟩ := h
  unfold revalidateAgentOne
  cases hrecord : impl.assignments[id]? with
  | none => simpa [hrecord] using hnone
  | some record =>
    simp only [hrecord]
    split
    · exact hnone
    · next hwaits =>
      simp only [not_or, not_not, ne_eq] at hwaits
      cases hauthority : revalidateAuthority ctx impl record with
      | error rejection => exact hnone
      | ok _ => exact (hsound.not_revalidated hrecord hwaits.2.2 hauthority).elim

private theorem Unpromoted.pass {turn : RevalidationReport × Impl → AssignmentId → RevalidationReport × Impl}
    (hturn : ∀ acc id, Unpromoted acc → Unpromoted (turn acc id)) (hconsistent : Consistent impl)
    (hsound : Sound impl.ledger) (ids : List AssignmentId) :
    (reviseIfExamined (ids.foldl turn ({}, impl))).1.promoted = 0 :=
  (List.foldlRecOn (motive := Unpromoted) ids turn ⟨⟨hconsistent, hsound⟩, rfl⟩ fun acc hacc id _ => hturn acc id hacc).2

/-- Neither revalidation operation promotes anything in a sound instance. -/
theorem Healthy.promotes_nothing {now : UInt64} (h : Healthy now impl) :
    (revalidateAssignments ctx impl).1.promoted = 0 ∧
      ∀ agent boot, (revalidateAgentAssignments ctx impl agent boot).1.promoted = 0 := by
  refine ⟨Unpromoted.pass (fun acc id hacc => hacc.one id) h.consistent h.sound _, fun agent boot => ?_⟩
  unfold revalidateAgentAssignments
  split
  · rfl
  · split
    · rfl
    · exact Unpromoted.pass (fun acc id hacc => hacc.agentOne id) h.consistent h.sound _

end Revalidation

/-- What an assignment that lost its authority still is later on. -/
structure Forfeited (before : AssignmentRecord) (after : AssignmentRecord) : Prop where
  state : after.state ≠ .assigned ∧ after.state ≠ .dispatched ∧ after.state ≠ .acknowledged ∧ after.state ≠ .executing
  lease : after.leaseCurrent = false
  settled : before.state.isTerminal → after.state = before.state ∧ after.invalidation = before.invalidation

/-- Lost authority is never regained, and no revalidation promotes anything. -/
theorem lost_stays_lost :
    (∀ (early system : System) (id : AssignmentId) before, early.Reachable → System.Runs Lossless early system →
      early.impl.assignments[id]? = some before →
      before.state = .revalidationRequired ∨ before.state.isTerminal →
      (∃ after, system.impl.assignments[id]? = some after ∧ Forfeited before after) ∧
        ∀ label next binding, system.HandsOff label next binding → binding.id ≠ id) ∧
    ∀ system : System, system.Reachable →
      (revalidateAssignments system.context system.impl).1.promoted = 0 ∧
        ∀ agent boot, (revalidateAgentAssignments system.context system.impl agent boot).1.promoted = 0 := by
  refine ⟨fun early system id before hreachable hrun hbefore hlost => ?_, fun system hreachable =>
    hreachable.valid.healthy.promotes_nothing⟩
  obtain ⟨after, hafter, hevolves⟩ := hrun.extends hreachable.valid id before hbefore
  have hvalid : system.Valid := hrun.valid hreachable.valid
  have hdead : after.state.isLive = false := by
    refine hevolves.lost ?_
    rcases hlost with hstate | hterminal
    · rw [hstate]
      rfl
    · exact AssignmentState.not_isLive_of_not_isActive (AssignmentState.not_isActive_of_isTerminal hterminal)
  have hstate : ∀ state : AssignmentState, state.isLive → after.state ≠ state := by
    rintro state hlive rfl
    rw [hlive] at hdead
    cases hdead
  refine ⟨⟨after, hafter, ⟨hstate _ rfl, hstate _ rfl, hstate _ rfl, hstate _ rfl⟩, ?_, hevolves.settled⟩, ?_⟩
  · rw [(hvalid.healthy.sound id after hafter).lease, hdead]
  · rintro label next binding hhands rfl
    obtain ⟨record, hrecord, hassigned, -⟩ := hhands.spec hvalid
    obtain rfl := Option.some.inj (hrecord.symm.trans hafter)
    exact hstate .assigned rfl hassigned

/-- An assignment loses its authority to newer evidence of its agent, and a revalidation follows. -/
def Sample.demoted : Option (System × AssignmentId × System) := do
  let early ← run (fun _ label => Unbroken label)
    (enlist ++ submit exclusiveWork ++ schedule ++ [.run (.publishCapabilities 1 boot { profile with generation := 2 })])
  let system ← early.perform (fun _ label => Unbroken label) [.run .revalidateAssignments]
  match early.impl.assignments.values with
  | [record] => return (early, record.binding.id, system)
  | _ => none

set_option maxRecDepth 100000 in
/-- What waits for revalidation does not come back, and a revalidation promotes nothing. -/
theorem lost_stays_lost_sample : ∃ (early system : System) (id : AssignmentId) (before after : AssignmentRecord),
    early.impl.assignments[id]? = some before ∧ before.state = .revalidationRequired ∧
      system.impl.assignments[id]? = some after ∧ Forfeited before after ∧
      (revalidateAssignments early.context early.impl).1.promoted = 0 := by
  have hview : Sample.demoted.map (fun (early, id, _) => (early.impl.assignments[id]?).map AssignmentRecord.state) =
      some (some .revalidationRequired) := by decide +kernel
  obtain ⟨⟨early, id, system⟩, hruns, hview⟩ := Option.map_eq_some_iff.mp hview
  obtain ⟨before, hbefore, hstate⟩ := Option.map_eq_some_iff.mp hview
  simp only [Sample.demoted, bind, Option.bind_eq_some_iff] at hruns
  obtain ⟨early', hearly, system', hsystem, hruns⟩ := hruns
  split at hruns
  · obtain ⟨rfl, rfl, rfl⟩ := by simpa only [pure, Option.some.injEq, Prod.mk.injEq] using hruns
    have hreached : early'.Reachable := (Sample.run_reaches hearly).mono fun _ _ _ => trivial
    have hrun : System.Runs Lossless early' system' :=
      (System.perform_runs hsystem).mono fun s _ h => Sample.Unbroken.lossless h s
    obtain ⟨⟨after, hafter, hforfeited⟩, -⟩ :=
      lost_stays_lost.1 early' system' _ before hreached hrun hbefore (.inl hstate)
    exact ⟨early', system', _, before, after, hbefore, hstate, hafter, hforfeited,
      (lost_stays_lost.2 early' hreached).1⟩
  · cases hruns

/-- In every reachable state an active assignment is bound to the current work, policy and incarnation, and one that
may be acted on also to the current scheduler epoch and capability evidence. -/
theorem active_bound_to_current : ∀ (system : System) (id : AssignmentId) record, system.Reachable →
    system.impl.assignments[id]? = some record → record.state.isActive →
    (∃ work, system.impl.work[record.binding.work]? = some work ∧
      record.binding.workGeneration = work.request.generation) ∧
    (record.binding.policy = system.impl.policy.id ∧ record.binding.policyGeneration = system.impl.policy.generation) ∧
    ∃ agent, system.impl.agents[record.binding.agent]? = some agent ∧
      record.binding.agentGeneration = agent.descriptor.generation ∧ record.binding.boot = agent.descriptor.boot ∧
      (record.state ∈ [.assigned, .dispatched, .acknowledged, .executing] →
        record.binding.scheduler = system.impl.schedulerId ∧ record.binding.schedulerEpoch = system.impl.schedulerEpoch ∧
        record.binding.capabilityProfile = agent.profile.profileId ∧
        record.binding.capabilityGeneration = agent.profile.generation) := by
  intro system id record hreachable hrecord hactive
  have hauthorised := hreachable.valid.healthy.sound id record hrecord
  obtain ⟨_, hwork, hgeneration⟩ := hauthorised.work hactive
  obtain ⟨_, hagent, hagentGeneration, hboot, hevidence, -⟩ := hauthorised.agent hactive
  obtain ⟨work, hstored, rfl⟩ := Option.map_eq_some_iff.mp hwork
  obtain ⟨agent, hregistered, rfl⟩ := Option.map_eq_some_iff.mp hagent
  refine ⟨⟨work, hstored, hgeneration.symm⟩, hauthorised.policy hactive, agent, hregistered, hagentGeneration.symm,
    hboot.symm, fun hstate => ?_⟩
  have hlive : record.state.isLive := by
    simp only [List.mem_cons, List.not_mem_nil, or_false] at hstate
    rcases hstate with h | h | h | h <;> rw [h] <;> rfl
  obtain ⟨hprofile, hcapability, -⟩ := hevidence hlive
  exact ⟨(hauthorised.scheduler hlive).1, (hauthorised.scheduler hlive).2, hprofile.symm, hcapability.symm⟩

set_option maxRecDepth 100000 in
/-- A scheduled work item has an active assignment, bound to the current policy. -/
theorem active_bound_to_current_sample : ∃ (system : System) (id : AssignmentId) (record : AssignmentRecord),
    system.impl.assignments[id]? = some record ∧ record.state.isActive ∧
      record.binding.policyGeneration = system.impl.policy.generation := by
  have hview : (Sample.run (fun _ _ => True) (Sample.enlist ++ Sample.submit Sample.exclusiveWork ++ Sample.schedule)).map
      (fun system => system.impl.assignments.values.map fun record => record.state.isActive) = some [true] := by
    decide +kernel
  obtain ⟨system, hrun, hview⟩ := Option.map_eq_some_iff.mp hview
  obtain ⟨record, hmem, hactive⟩ := List.mem_map.mp (hview ▸ List.mem_singleton_self _)
  obtain ⟨id, hrecord⟩ := mem_values.mp hmem
  exact ⟨system, id, record, hrecord, hactive,
    (active_bound_to_current system id record (Sample.run_reaches hrun) hrecord hactive).2.1.2⟩

end AgentScheduler
