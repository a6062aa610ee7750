import AgentScheduler.Tidiness

/-! What agents report of their assignments, and which reports are acted on. -/
namespace AgentScheduler
open Std KeyedTable Relation

/-- What is observed of an assignment. -/
inductive ObservationKind
  | acknowledged (dispatchId : DispatchId) (dispatchGeneration : DispatchGeneration)
  | executing
  | released (reason : Text)
  | completed
  | failed (reason : Text)
  | rejected (reason : Text)

/-- A call of one of the six operations that report on an assignment. -/
structure Observation where
  assignment : AssignmentId
  generation : AssignmentGeneration
  boot : AgentBootId
  kind : ObservationKind

namespace Observation

def operation (observation : Observation) : Operation :=
  match observation.kind with
  | .acknowledged dispatchId dispatchGeneration =>
    .acknowledge observation.assignment observation.generation dispatchId dispatchGeneration observation.boot
  | .executing => .markExecuting observation.assignment observation.generation observation.boot
  | .released reason => .release observation.assignment observation.generation observation.boot reason
  | .completed => .completeAssignment observation.assignment observation.generation observation.boot
  | .failed reason => .failAssignment observation.assignment observation.generation observation.boot reason
  | .rejected reason => .rejectAssignment observation.assignment observation.generation observation.boot reason

/-- The dispatch that an acknowledgement names is the bound one. -/
def Identifies (observation : Observation) (binding : AssignmentBinding) : Prop :=
  match observation.kind with
  | .acknowledged dispatchId dispatchGeneration =>
    binding.dispatch = dispatchId ∧ binding.dispatchGeneration = dispatchGeneration
  | _ => True

/-- The states an observation takes an assignment from. -/
def Concerns (observation : Observation) (state : AssignmentState) : Prop :=
  match observation.kind with
  | .acknowledged .. => state = .dispatched
  | .executing => state = .acknowledged ∨ state = .dispatched ∨ state = .executing
  | _ => state.isTerminal = false

/-- The observation names the bound boot of the assignment, which is unfenced and still the current boot of the bound
agent, the generation of the assignment and, to acknowledge it, the bound dispatch. -/
def Authorized (observation : Observation) (impl : Impl) : Prop :=
  ∃ record agent, impl.assignments[observation.assignment]? = some record ∧
    impl.agents[record.binding.agent]? = some agent ∧ record.binding.boot = observation.boot ∧
    agent.descriptor.boot = observation.boot ∧ ¬bootIsFenced impl observation.boot ∧
    record.binding.generation = observation.generation ∧ observation.Identifies record.binding

/-- Whatever boot the observation names, the assignment is held by a current, unfenced incarnation, has the generation
and the dispatch that the observation names, and is in a state the observation takes it from. -/
def Applies (observation : Observation) (impl : Impl) : Prop :=
  ∃ record agent, impl.assignments[observation.assignment]? = some record ∧
    impl.agents[record.binding.agent]? = some agent ∧ agent.descriptor.boot = record.binding.boot ∧
    ¬bootIsFenced impl record.binding.boot ∧ record.binding.generation = observation.generation ∧
    observation.Identifies record.binding ∧ observation.Concerns record.state

end Observation

/-! ### What an operation that reports on an assignment changes -/

section Operations
variable {ctx : Context} {impl : Impl} {now : UInt64} {id : AssignmentId} {generation : AssignmentGeneration}
  {boot : AgentBootId} {record : AssignmentRecord}

theorem lookupAssignment_eq_ok : lookupAssignment impl id generation boot = .ok record ↔
    impl.assignments[id]? = some record ∧ record.binding.generation = generation ∧
      (boot.isZero ∨ record.binding.boot = boot) ∧ ¬bootIsFenced impl record.binding.boot ∧
      ∃ agent, impl.agents[record.binding.agent]? = some agent ∧ agent.descriptor.boot = record.binding.boot := by
  unfold lookupAssignment
  simp only [except_bind_eq_ok, lookupOrRefuse_eq_ok, refuseIf_eq_ok]
  constructor
  · rintro ⟨found, hfound, -, hgeneration, -, hboot, -, hunfenced, agent, hagent, -, hcurrent, hreturn⟩
    obtain rfl : found = record := Except.ok.inj hreturn
    refine ⟨hfound, not_not.mp hgeneration, ?_, hunfenced, agent, hagent, not_not.mp hcurrent⟩
    by_contra hother
    exact hboot (not_or.mp hother)
  · rintro ⟨hfound, hgeneration, hboot, hunfenced, agent, hagent, hcurrent⟩
    refine ⟨record, hfound, (), not_not.mpr hgeneration, (), ?_, (), hunfenced, agent, hagent, (), not_not.mpr hcurrent, rfl⟩
    rintro ⟨hnonzero, hother⟩
    exact hboot.elim hnonzero hother

theorem observing_refused {operation : Text} {problem : Rejection} {body : AssignmentRecord → Step}
    (h : lookupAssignment impl id generation boot = .error problem) :
    (observing impl operation id generation boot body).2 = impl := by
  unfold observing
  rw [h]

theorem observing_found {operation : Text} {body : AssignmentRecord → Step}
    (h : lookupAssignment impl id generation boot = .ok record) :
    observing impl operation id generation boot body = body record := by
  unfold observing
  rw [h]

@[simp] theorem slots_settleIfIdle (impl : Impl) (work : WorkId) (lifecycle : WorkLifecycle) (reason : Text) :
    (settleIfIdle impl work lifecycle reason).slots = impl.slots := by
  unfold settleIfIdle
  split
  · rfl
  · split <;> rfl

@[simp] theorem slots_releaseTenant (impl : Impl) (work : WorkId) : (releaseTenant impl work).slots = impl.slots := by
  unfold releaseTenant
  split <;> rfl

@[simp] theorem slots_revise (impl : Impl) : impl.revise.slots = impl.slots := rfl

@[simp] theorem slots_modifyQueue (impl : Impl) (queue : QueueId) (update : QueueRecord → QueueRecord) :
    (modifyQueue impl queue update).slots = impl.slots := rfl

@[simp] theorem slots_countOutcome (impl : Impl) (agent : AgentId) (count : AgentRecord → AgentRecord) :
    (countOutcome impl agent count).slots = impl.slots := by
  unfold countOutcome
  rw [slots_refreshAgentAccounting]
  rfl

/-- A closing stores the closed record. -/
theorem stored_closeAssignment {state : AssignmentState} {reason : InvalidationReason} {detail : Text}
    (hrecord : impl.assignments[id]? = some record) (hopen : record.state.isTerminal = false) :
    (closeAssignment now impl id state reason detail).slots.assignments[id]? =
      some (record.close now state reason detail) := by
  rw [closeAssignment_eq hrecord hopen, slots_revise]
  change (refreshWorkAccounting _ _).slots.assignments[id]? = _
  rw [slots_refreshWorkAccounting, slots_refreshAgentAccounting]
  change (impl.assignments.insert id _)[id]? = _
  rw [getElem?_insert, if_pos rfl]

/-- Whatever is counted after it, a closing has changed the instance. -/
theorem closing_changes {impl' : Impl} {state : AssignmentState} {reason : InvalidationReason} {detail : Text}
    (hrecord : impl.assignments[id]? = some record) (hopen : record.state.isTerminal = false) (hterminal : state.isTerminal)
    (hafter : impl'.slots = (closeAssignment now impl id state reason detail).slots) : impl' ≠ impl := by
  intro hsame
  have hclosed : (closeAssignment now impl id state reason detail).slots.assignments[id]? =
      some (record.close now state reason detail) := stored_closeAssignment hrecord hopen
  rw [← hafter, hsame] at hclosed
  have hstored : some record = some (record.close now state reason detail) := hrecord.symm.trans hclosed
  have hstate : record.state = state := congrArg AssignmentRecord.state (Option.some.inj hstored)
  rw [hstate, hterminal] at hopen
  cases hopen

/-- A report that ends its assignment, once the record is found. -/
theorem ending_changes {ending : Impl} (now : UInt64) (hrecord : impl.assignments[id]? = some record)
    (hends : ∃ state reason detail, state.isTerminal ∧
      ending.slots = (closeAssignment now impl id state reason detail).slots) :
    (if record.state.isTerminal then ((.ok (), impl) : Step) else (.ok (), ending)).2 ≠ impl ↔
      record.state.isTerminal = false := by
  obtain ⟨state, reason, detail, hterminal, hafter⟩ := hends
  cases hopen : record.state.isTerminal with
  | true => simp
  | false => simpa using closing_changes hrecord hopen hterminal hafter

theorem revise_ne {impl' : Impl} (h : impl'.stateRevision = impl.stateRevision) : impl'.revise ≠ impl := by
  intro hsame
  have hrevision : impl'.stateRevision + 1 = impl.stateRevision := congrArg Impl.stateRevision hsame
  rw [h] at hrevision
  simp at hrevision

theorem acknowledge_changes {dispatchId : DispatchId} {dispatchGeneration : DispatchGeneration}
    (h : lookupAssignment impl id generation boot = .ok record) :
    (acknowledge now impl id generation dispatchId dispatchGeneration boot).2 ≠ impl ↔
      (record.binding.dispatch = dispatchId ∧ record.binding.dispatchGeneration = dispatchGeneration) ∧
        record.state = .dispatched := by
  obtain ⟨hrecord, -⟩ := lookupAssignment_eq_ok.mp h
  unfold acknowledge
  simp only
  rw [observing_found h]
  split
  · next hother =>
    refine iff_of_false (by simp) ?_
    tauto
  · next hsame =>
    have hnames : record.binding.dispatch = dispatchId ∧ record.binding.dispatchGeneration = dispatchGeneration := by
      tauto
    rw [and_iff_right hnames]
    split
    · next hpast => rcases hpast with hstate | hstate <;> simp [hstate]
    · split
      · next hterminal =>
        refine iff_of_false (by simp) fun hstate => ?_
        rw [hstate] at hterminal
        cases hterminal
      · split
        · next hother => simpa using hother
        · next hdispatched =>
          have hstate : record.state = .dispatched := not_not.mp hdispatched
          refine iff_of_true ?_ hstate
          split
          · exact closing_changes hrecord (by rw [hstate]; rfl) rfl rfl
          · exact revise_ne rfl

theorem markExecuting_changes (h : lookupAssignment impl id generation boot = .ok record) :
    (markExecuting now impl id generation boot).2 ≠ impl ↔
      record.state = .acknowledged ∨ record.state = .dispatched ∨ record.state = .executing := by
  obtain ⟨hrecord, -⟩ := lookupAssignment_eq_ok.mp h
  unfold markExecuting
  simp only
  rw [observing_found h]
  split
  · next hterminal =>
    refine iff_of_false (by simp) ?_
    rintro (hstate | hstate | hstate) <;> rw [hstate] at hterminal <;> cases hterminal
  · next hopen =>
    split
    · next hother =>
      refine iff_of_false (by simp) ?_
      tauto
    · next hawaits =>
      refine iff_of_true ?_ (by tauto)
      split
      · exact closing_changes hrecord (by simpa using hopen) rfl rfl
      · refine revise_ne ?_
        unfold refreshWorkAccounting
        split <;> rfl

end Operations

namespace Observation
variable {observation : Observation} {ctx : Context} {impl : Impl} {record : AssignmentRecord}

/-- Once the record is found, the named dispatch and the state of the record decide whether anything changes. -/
theorem found_changes (h : lookupAssignment impl observation.assignment observation.generation observation.boot = .ok record) :
    (runOperation ctx impl observation.operation).2 ≠ impl ↔
      observation.Identifies record.binding ∧ observation.Concerns record.state := by
  obtain ⟨hrecord, -⟩ := lookupAssignment_eq_ok.mp h
  obtain ⟨assignment, generation, boot, kind⟩ := observation
  cases kind with
  | acknowledged dispatchId dispatchGeneration => exact acknowledge_changes h
  | executing => exact (markExecuting_changes h).trans (and_iff_right trivial).symm
  | released reason =>
    refine Iff.trans ?_ (and_iff_right trivial).symm
    change (release _ _ _ _ _ _).2 ≠ impl ↔ _
    unfold release
    rw [observing_found h]
    exact ending_changes ctx.now hrecord ⟨.released, .leaseReleased, _, rfl, slots_refreshAgentAccounting _ _⟩
  | completed =>
    refine Iff.trans ?_ (and_iff_right trivial).symm
    change (completeAssignment _ _ _ _ _).2 ≠ impl ↔ _
    unfold completeAssignment
    rw [observing_found h]
    refine ending_changes ctx.now hrecord ⟨.completed, .workCompleted, "assignment completed", rfl, ?_⟩
    rw [slots_revise, slots_releaseTenant, slots_modifyQueue, slots_settleIfIdle, slots_countOutcome]
  | failed reason =>
    refine Iff.trans ?_ (and_iff_right trivial).symm
    change (failAssignment _ _ _ _ _ _).2 ≠ impl ↔ _
    unfold failAssignment
    rw [observing_found h]
    refine ending_changes ctx.now hrecord ⟨.failed, .workFailed, reasonOr reason "failed", rfl, ?_⟩
    rw [slots_revise, slots_releaseTenant, slots_modifyQueue, slots_settleIfIdle, slots_countOutcome]
  | rejected reason =>
    refine Iff.trans ?_ (and_iff_right trivial).symm
    change (rejectAssignment _ _ _ _ _ _).2 ≠ impl ↔ _
    unfold rejectAssignment
    rw [observing_found h]
    refine ending_changes ctx.now hrecord ⟨.invalidated, .rejected, reasonOr reason "rejected by agent", rfl, ?_⟩
    rw [slots_revise, slots_releaseTenant, slots_modifyQueue]

theorem refused_changes_nothing {problem : Rejection}
    (h : lookupAssignment impl observation.assignment observation.generation observation.boot = .error problem) :
    (runOperation ctx impl observation.operation).2 = impl := by
  obtain ⟨assignment, generation, boot, kind⟩ := observation
  cases kind with
  | acknowledged dispatchId dispatchGeneration => exact observing_refused h
  | executing => exact observing_refused h
  | released reason => exact observing_refused h
  | completed => exact observing_refused h
  | failed reason => exact observing_refused h
  | rejected reason => exact observing_refused h

/-- An observation changes the instance exactly when it applies and names the bound boot or none. -/
theorem changes_iff : (runOperation ctx impl observation.operation).2 ≠ impl ↔
    ∃ record, lookupAssignment impl observation.assignment observation.generation observation.boot = .ok record ∧
      observation.Identifies record.binding ∧ observation.Concerns record.state := by
  cases hlookup : lookupAssignment impl observation.assignment observation.generation observation.boot with
  | error problem => simpa using refused_changes_nothing hlookup
  | ok record =>
    rw [found_changes hlookup]
    simp

/-- A boot that is not zero finds an assignment only under the authority it names. -/
theorem authorized_of_changes (hboot : observation.boot.isZero = false)
    (h : (runOperation ctx impl observation.operation).2 ≠ impl) : observation.Authorized impl := by
  obtain ⟨record, hlookup, hidentifies, -⟩ := changes_iff.mp h
  obtain ⟨hrecord, hgeneration, hnamed, hunfenced, agent, hagent, hcurrent⟩ := lookupAssignment_eq_ok.mp hlookup
  have hbound : record.binding.boot = observation.boot := hnamed.resolve_left (by simp [hboot])
  exact ⟨record, agent, hrecord, hagent, hbound, hcurrent.trans hbound, hbound ▸ hunfenced, hgeneration, hidentifies⟩

/-- An observation that names no boot is acted on whenever it applies. -/
theorem unnamed_changes_iff (hboot : observation.boot.isZero) :
    (runOperation ctx impl observation.operation).2 ≠ impl ↔ observation.Applies impl := by
  rw [changes_iff]
  constructor
  · rintro ⟨record, hlookup, hidentifies, hconcerns⟩
    obtain ⟨hrecord, hgeneration, -, hunfenced, agent, hagent, hcurrent⟩ := lookupAssignment_eq_ok.mp hlookup
    exact ⟨record, agent, hrecord, hagent, hcurrent, hunfenced, hgeneration, hidentifies, hconcerns⟩
  · rintro ⟨record, agent, hrecord, hagent, hcurrent, hunfenced, hgeneration, hidentifies, hconcerns⟩
    exact ⟨record, lookupAssignment_eq_ok.mpr ⟨hrecord, hgeneration, .inl hboot, hunfenced, agent, hagent, hcurrent⟩,
      hidentifies, hconcerns⟩

/-- No agent of a consistent instance has the zero boot, so nothing authorizes an observation that names none. -/
theorem not_authorized_unnamed (h : Consistent impl) (hboot : observation.boot.isZero) : ¬observation.Authorized impl := by
  rintro ⟨record, agent, -, hagent, -, hcurrent, -⟩
  apply h.agentBoot record.binding.agent agent hagent
  rw [hcurrent]
  by_contra hnonzero
  rw [not_isZero hnonzero] at hboot
  cases hboot

end Observation

/-- In a reachable state an observation changes something only under the authority it names, exactly when it names a
boot or does not apply. -/
theorem observation_authorized_iff {system : System} (hreach : system.Reachable) (observation : Observation) :
    (∀ reply after, system.step (.run observation.operation) = some (reply, after) → after.impl ≠ system.impl →
      observation.Authorized system.impl) ↔
      ¬(observation.boot.isZero ∧ observation.Applies system.impl) := by
  constructor
  · rintro hauthorized ⟨hboot, happlies⟩
    have hchanges : (runOperation system.context system.impl observation.operation).2 ≠ system.impl :=
      (Observation.unnamed_changes_iff hboot).mpr happlies
    exact Observation.not_authorized_unnamed hreach.valid.healthy.consistent hboot (hauthorized _ _ rfl hchanges)
  · intro hnamed reply after hstep hchanged
    obtain ⟨-, rfl⟩ := Prod.mk.inj (Option.some.inj hstep)
    cases hboot : observation.boot.isZero with
    | true => exact absurd ⟨hboot, (Observation.unnamed_changes_iff hboot).mp hchanged⟩ hnamed
    | false => exact Observation.authorized_of_changes hboot hchanged

/-- A scheduled work item and what its agent reports under some boot. -/
def Sample.observed (boot : AgentBootId) (kind : ObservationKind) : Option (System × Observation) := do
  let system ← run (fun _ _ => True) (enlist ++ submit exclusiveWork ++ schedule)
  match system.impl.assignments.values with
  | [record] => return (system, { assignment := record.binding.id, generation := record.binding.generation, boot, kind })
  | _ => none

theorem Sample.observed_reaches {boot : AgentBootId} {kind : ObservationKind} {system : System} {observation : Observation}
    (h : observed boot kind = some (system, observation)) : system.Reachable := by
  obtain ⟨found, hrun, h⟩ := Option.bind_eq_some_iff.mp h
  split at h
  · obtain ⟨rfl, -⟩ := Prod.mk.inj (Option.some.inj h)
    exact run_reaches hrun
  · cases h

/-- Whether an observation changes the state revision. -/
def Sample.revises (system : System) (observation : Observation) : Bool :=
  (runOperation system.context system.impl observation.operation).2.stateRevision ≠ system.impl.stateRevision

theorem Sample.revises_changes {system : System} {observation : Observation} (h : revises system observation) :
    (runOperation system.context system.impl observation.operation).2 ≠ system.impl := by
  intro hsame
  apply of_decide_eq_true h
  rw [hsame]

set_option maxRecDepth 100000 in
theorem observation_authorized_iff_sample : ∃ system observation reply after,
    Sample.observed Sample.boot .completed = some (system, observation) ∧
      system.step (.run observation.operation) = some (reply, after) ∧ after.impl ≠ system.impl ∧
        observation.Authorized system.impl := by
  have hview : (Sample.observed Sample.boot .completed).map (fun found => (Sample.revises found.1 found.2, found.2.boot.isZero)) =
      some (true, false) := by
    decide +kernel
  obtain ⟨⟨system, observation⟩, hobserved, hfacts⟩ := Option.map_eq_some_iff.mp hview
  obtain ⟨hrevises, hboot⟩ := Prod.mk.inj hfacts
  have hchanged := Sample.revises_changes hrevises
  have hnamed : ¬(observation.boot.isZero ∧ observation.Applies system.impl) := fun h => by
    rw [h.1] at hboot
    cases hboot
  have hauthorized := (observation_authorized_iff (Sample.observed_reaches hobserved) observation).mpr hnamed _ _ rfl hchanged
  exact ⟨system, observation, _, _, hobserved, rfl, hchanged, hauthorized⟩

set_option maxRecDepth 100000 in
/-- A completion that names no boot completes the assignment. -/
theorem not_observation_authorized : ¬∀ (system after : System) (observation : Observation) (reply : Reply), system.Reachable →
    system.step (.run observation.operation) = some (reply, after) → after.impl ≠ system.impl →
      observation.Authorized system.impl := by
  intro hauthorized
  have hview : (Sample.observed 0 .completed).map (fun found => (Sample.revises found.1 found.2, found.2.boot.isZero)) =
      some (true, true) := by
    decide +kernel
  obtain ⟨⟨system, observation⟩, hobserved, hfacts⟩ := Option.map_eq_some_iff.mp hview
  obtain ⟨hrevises, hboot⟩ := Prod.mk.inj hfacts
  have hreach := Sample.observed_reaches hobserved
  exact Observation.not_authorized_unnamed hreach.valid.healthy.consistent hboot
    (hauthorized system _ observation _ hreach rfl (Sample.revises_changes hrevises))

end AgentScheduler
