import AgentScheduler.Barring

/-! What losing, retiring and replacing one agent leaves of another. -/
namespace AgentScheduler
open Std KeyedTable Relation

/-- An agent is eligible for a work item. -/
def Impl.Eligible (impl : Impl) (ctx : Context) (agent : AgentId) (work : WorkId) : Prop :=
  ∃ record item, impl.agents[agent]? = some record ∧ impl.work[work]? = some item ∧
    (evaluateEligibility ctx.now impl item record (evaluateFeasibility ctx item)).eligible

/-- A change of one instance into another that concerns an agent only by giving it more room. -/
structure Impl.Spares (impl impl' : Impl) (agent : AgentId) : Prop where
  record : impl'.agents[agent]? = impl.agents[agent]?
  held : ∀ (id : AssignmentId) record, record.binding.agent = agent →
    (impl'.assignments[id]? = some record ↔ impl.assignments[id]? = some record)
  active : ∀ work, impl'.ledger.activeFor work ⊆ impl.ledger.activeFor work
  works : impl'.ledger.works = impl.ledger.works
  policy : impl'.policy = impl.policy

section Spares
variable {impl impl' : Impl} {agent other : AgentId} {boot : AgentBootId} {now : UInt64}

/-! ### Changes that spare an agent -/

theorem Impl.Spares.of_tables (hrecord : impl'.agents[other]? = impl.agents[other]?) (hwork : impl'.work = impl.work)
    (hassignments : impl'.assignments = impl.assignments) (hpolicy : impl'.policy = impl.policy) : impl.Spares impl' other := by
  have hledger : impl'.ledger.assignments = impl.ledger.assignments := by
    unfold Impl.ledger
    rw [hassignments]
  refine ⟨hrecord, fun id record _ => by rw [hassignments], fun work => ?_, ?_, hpolicy⟩
  · unfold Ledger.activeFor Ledger.active
    rw [hledger]
  · unfold Impl.ledger
    rw [hwork]

theorem Impl.Spares.trans {impl'' : Impl} (h : impl.Spares impl' other) (h' : impl'.Spares impl'' other) :
    impl.Spares impl'' other :=
  ⟨h'.record.trans h.record, fun id record hother => (h'.held id record hother).trans (h.held id record hother),
    fun work => (h'.active work).trans (h.active work), h'.works.trans h.works, h'.policy.trans h.policy⟩

theorem Impl.Spares.fenceBoot {generation : AgentGeneration} {reason : Text} :
    impl.Spares (fenceBoot now impl agent boot generation reason) other := by
  unfold AgentScheduler.fenceBoot
  split <;> exact .of_tables rfl rfl rfl rfl

theorem Impl.Spares.replaceAgent {record : AgentRecord}
    (hkey : Keyed (fun record : AgentRecord => record.descriptor.id) impl.agents) (hid : record.descriptor.id = agent)
    (hne : agent ≠ other) : impl.Spares (impl.replaceAgent agent record) other := by
  have hkeyed : Keyed (fun record : AgentRecord => record.descriptor.id) (impl.setAgent agent record).agents := hkey.insert hid
  have hrest : (refreshAgent (impl.setAgent agent record) agent).work = impl.work ∧
      (refreshAgent (impl.setAgent agent record) agent).policy = impl.policy := by
    unfold refreshAgent indexStoredAgent refreshAgentAccounting
    split
    · split <;> exact ⟨rfl, rfl⟩
    · split <;> exact ⟨rfl, rfl⟩
  refine .of_tables ?_ hrest.1 (assignments_replaceAgent impl agent record) hrest.2
  change (refreshAgent (impl.setAgent agent record) agent).agents[other]? = impl.agents[other]?
  rw [agents_refreshAgent hkeyed, agents_refreshAgentAccounting _ _ _ hkeyed, if_neg hne, getElem?_setAgent, if_neg hne]

/-- Closing an assignment concerns no agent but the one it is bound to. -/
theorem agents_closeAssignment_other {id : AssignmentId} {record : AssignmentRecord} {state : AssignmentState}
    {reason : InvalidationReason} {detail : Text}
    (hkey : Keyed (fun record : AgentRecord => record.descriptor.id) impl.agents)
    (hrecord : impl.assignments[id]? = some record) (hopen : record.state.isTerminal = false)
    (hne : record.binding.agent ≠ other) :
    (closeAssignment now impl id state reason detail).agents[other]? = impl.agents[other]? := by
  let freed := unslotted impl id record (record.close now state reason detail)
  have hform : (closeAssignment now impl id state reason detail).agents =
      (refreshWorkAccounting (refreshAgentAccounting freed record.binding.agent) record.binding.work).agents := by
    rw [closeAssignment_eq hrecord hopen]
    rfl
  have hfreed : freed.agents = impl.agents.modify record.binding.agent decayRecent := rfl
  have hkeyed : Keyed (fun record : AgentRecord => record.descriptor.id) freed.agents := by
    refine hkey.modify fun agent => ?_
    unfold decayRecent
    split <;> rfl
  rw [hform, agents_refreshWorkAccounting, agents_refreshAgentAccounting _ _ _ hkeyed, if_neg hne, hfreed, getElem?_modify,
    if_neg hne]

theorem AssignmentState.not_isTerminal_of_isActive {state : AssignmentState} (h : state.isActive) : state.isTerminal = false := by
  cases hterminal : state.isTerminal with
  | false => rfl
  | true =>
    rw [AssignmentState.not_isActive_of_isTerminal hterminal] at h
    cases h

/-- The active records after a closing are active records from before that were not selected. -/
theorem closing_active {selected : AssignmentRecord → Bool} {state : AssignmentState} {reason : InvalidationReason}
    {detail : Text} {before : AssignmentRecord} (hterminal : state.isTerminal)
    (hactive : (closing selected now state reason detail before).state.isActive) :
    selected before = false ∧ closing selected now state reason detail before = before := by
  unfold closing at hactive ⊢
  split at hactive
  · change state.isActive at hactive
    rw [AssignmentState.not_isActive_of_isTerminal hterminal] at hactive
    cases hactive
  · next hkept => exact ⟨by simpa using hkept, if_neg hkept⟩

/-- Closing assignments of other agents leaves an agent alone. -/
theorem agents_closeWhere_other {selected : AssignmentRecord → Bool} {state : AssignmentState} {reason : InvalidationReason}
    {detail : Text} (h : Consistent impl) (hterminal : state.isTerminal)
    (hactive : ∀ record, selected record → record.state.isActive)
    (hunheld : ∀ (id : AssignmentId) (record : AssignmentRecord), impl.assignments[id]? = some record → selected record →
      record.binding.agent ≠ other) :
    (closeWhere now impl selected state reason detail).agents[other]? = impl.agents[other]? := by
  let unheld (impl : Impl) : Prop := ∀ (id : AssignmentId) (record : AssignmentRecord), impl.assignments[id]? = some record →
    selected record → record.binding.agent ≠ other
  refine (List.foldlRecOn (motive := fun after : Impl => Consistent after ∧ unheld after ∧
    after.agents[other]? = impl.agents[other]?) _ _ ⟨h, hunheld, rfl⟩ fun after hafter id _ => ?_).2.2
  obtain ⟨hconsistent, hfree, hsame⟩ := hafter
  cases hrecord : after.assignments[id]? with
  | none => exact ⟨hconsistent, hfree, hsame⟩
  | some record =>
    simp only
    split
    · next hsel =>
      have hopen : record.state.isTerminal = false := AssignmentState.not_isTerminal_of_isActive (hactive record hsel)
      refine ⟨hconsistent.closeAssignment hterminal, fun found closed hclosed hselected => ?_, ?_⟩
      · have hledger : (closeAssignment now after id state reason detail).assignments[found]? =
            (after.assignments[found]?).map (closing (closesOnly id) now state reason detail) :=
          congrFun (congrArg Ledger.assignments (ledger_closeAssignment _ _ _ _ _ hconsistent hterminal)) found
        rw [hledger] at hclosed
        obtain ⟨before, hbefore, rfl⟩ := Option.map_eq_some_iff.mp hclosed
        obtain ⟨-, heq⟩ := closing_active hterminal (hactive _ hselected)
        rw [heq] at hselected ⊢
        exact hfree found before hbefore hselected
      · exact (agents_closeAssignment_other hconsistent.agentKey hrecord hopen (hfree id record hrecord hsel)).trans hsame
    · exact ⟨hconsistent, hfree, hsame⟩

/-- Closing everything active under a boot spares an agent that holds nothing active under it. -/
theorem Impl.Spares.closeAllActive {state : AssignmentState} {reason : InvalidationReason} {detail : Text} (h : Consistent impl)
    (hterminal : state.isTerminal) (hidle : impl.ledger.Idle other boot) :
    impl.Spares (closeAllActive now impl boot state reason detail) other := by
  let selected (record : AssignmentRecord) : Bool := record.binding.boot = boot && record.state.isActive
  have hactive : ∀ record, selected record → record.state.isActive := fun record hsel => by
    simp only [selected, Bool.and_eq_true] at hsel
    exact hsel.2
  have hunheld : ∀ (id : AssignmentId) (record : AssignmentRecord), impl.assignments[id]? = some record → selected record →
      record.binding.agent ≠ other := by
    rintro id record hrecord hsel rfl
    have hmem : id ∈ impl.ledger.active fun found => found.binding.agent = record.binding.agent ∧ found.binding.boot = boot := by
      simp only [selected, Bool.and_eq_true, decide_eq_true_eq] at hsel
      exact ⟨record, hrecord, hsel.2, rfl, hsel.1⟩
    rw [hidle] at hmem
    exact hmem
  have hledger : (AgentScheduler.closeAllActive now impl boot state reason detail).ledger =
      impl.ledger.mapAssignments (closing selected now state reason detail) := (closeWhere_spec _ _ _ _ _ h hterminal hactive).2
  have hassignments : ∀ id : AssignmentId, (AgentScheduler.closeAllActive now impl boot state reason detail).assignments[id]? =
      (impl.assignments[id]?).map (closing selected now state reason detail) := fun id =>
    congrFun (congrArg Ledger.assignments hledger) id
  refine ⟨agents_closeWhere_other h hterminal hactive hunheld, fun id record hother => ?_, fun work => ?_, ?_, ?_⟩
  · rw [hassignments]
    cases hbefore : impl.assignments[id]? with
    | none => rfl
    | some before =>
      rw [Option.map_some, Option.some.injEq, Option.some.injEq]
      by_cases hsel : selected before
      · have hne : before.binding.agent ≠ other := hunheld id before hbefore hsel
        rw [closing, if_pos hsel]
        constructor <;> rintro rfl <;> exact (hne hother).elim
      · rw [closing, if_neg hsel]
  · rintro id ⟨record, hrecord, hopen, hwork⟩
    obtain ⟨before, hbefore, rfl⟩ := Option.map_eq_some_iff.mp ((hassignments id).symm.trans hrecord)
    obtain ⟨-, heq⟩ := closing_active hterminal hopen
    rw [heq] at hopen hwork
    exact ⟨before, hbefore, hopen, hwork⟩
  · rw [hledger]
    rfl
  · have hframe := congrArg Impl.policy (frame_closeWhere now impl selected state reason detail)
    exact hframe

/-! ### The operations -/

theorem declareAgentLostCommit_spares (now : UInt64) {reason : Text} (h : Consistent impl) (hne : agent ≠ other)
    (hidle : (∃ record, impl.agents[agent]? = some record ∧ record.descriptor.boot = boot) → impl.ledger.Idle other boot) :
    impl.Spares (declareAgentLostCommit now impl agent boot reason).2 other := by
  by_cases hcurrent : ∃ record, impl.agents[agent]? = some record ∧ record.descriptor.boot = boot
  · have hidle := hidle hcurrent
    obtain ⟨record, hrecord, rfl⟩ := hcurrent
    obtain ⟨stored, hstored, -, hform⟩ := declareAgentLostCommit_current now reason h hrecord
    have hfenced := Quiet.fenceBoot now impl agent record.descriptor.boot record.descriptor.generation reason h
    have hclosed : impl.Spares (lostIncarnation now impl agent record reason) other :=
      Impl.Spares.fenceBoot.trans (.closeAllActive hfenced.1 rfl (hidle.of_assignments (congrArg Ledger.assignments hfenced.2)))
    have hconsistent := (lostIncarnation_idle now agent record reason h other).1
    rw [hform]
    exact hclosed.trans (.replaceAgent hconsistent.agentKey (hconsistent.agentKey agent stored hstored) hne)
  · rw [declareAgentLostCommit_stale hcurrent]
    exact .fenceBoot

theorem deregisterAgent_spares (now : UInt64) (force : Bool) (h : Consistent impl) (hne : agent ≠ other)
    (hidle : ∀ record, impl.agents[agent]? = some record → record.descriptor.boot = boot → bootIsFenced impl boot = false →
      0 < activeAssignmentCount impl agent → force → impl.ledger.Idle other boot) :
    impl.Spares (deregisterAgent now impl agent boot force).2 other := by
  rcases deregisterAgent_cases now agent boot force h with
    ⟨-, error, hsame⟩ | ⟨record, stored, hrecord, rfl, hopen, hforce, hstored, -, hform⟩
  · rw [hsame]
    exact .of_tables rfl rfl rfl rfl
  · obtain ⟨hmoves, -, -⟩ := deregister_idle {} agent record.descriptor.boot now h
    have hretired : Consistent (retiredIncarnation now impl agent record) :=
      (Quiet.fenceBoot now _ agent record.descriptor.boot record.descriptor.generation "deregistered" (hmoves h).1).1
    have hclosed : impl.Spares (retiredIncarnation now impl agent record) other := by
      refine Impl.Spares.trans ?_ .fenceBoot
      split
      · next hactive =>
        have hforced : force := hforce.resolve_right (Nat.pos_iff_ne_zero.mp hactive)
        exact .closeAllActive h rfl (hidle record hrecord rfl hopen hactive hforced)
      · exact .of_tables rfl rfl rfl rfl
    rw [hform]
    exact hclosed.trans (.replaceAgent hretired.agentKey (hretired.agentKey agent stored hstored) hne)

theorem registerAgentCommit_spares (now : UInt64) {descriptor : AgentDescriptor} (h : Consistent impl) (hne : descriptor.id ≠ other)
    (hidle : ∀ existing, impl.agents[descriptor.id]? = some existing →
      existing.descriptor.generation < descriptor.generation → bootIsFenced impl descriptor.boot = false →
      impl.ledger.Idle other existing.descriptor.boot) :
    impl.Spares (registerAgentCommit now impl descriptor).2 other := by
  rcases registerAgentCommit_cases now impl descriptor with
    ⟨-, error, hsame⟩ | ⟨existing, hexisting, hnewer, hopen, hform⟩ | ⟨existing, hexisting, -, -, -, hform⟩ | ⟨hnone, hform⟩
  · rw [hsame]
    exact .of_tables rfl rfl rfl rfl
  · obtain ⟨hmoves, -, -⟩ := retireIncarnation_idle {} now h hexisting
    have hretired : impl.Spares (retireIncarnation now impl existing descriptor.id) other := by
      have hfenced := Quiet.fenceBoot now impl descriptor.id existing.descriptor.boot existing.descriptor.generation
        "replaced by reincarnation" h
      rw [retireIncarnation_eq now h hexisting]
      exact Impl.Spares.fenceBoot.trans (.closeAllActive hfenced.1 rfl
        ((hidle existing hexisting hnewer hopen).of_assignments (congrArg Ledger.assignments hfenced.2)))
    rw [hform]
    refine hretired.trans (.replaceAgent (hmoves h).1.agentKey ?_ hne)
    rw [freshAgent_descriptor]
    rfl
  · rw [hform]
    exact .replaceAgent h.agentKey rfl hne
  · rw [hform]
    refine .of_tables ?_ rfl rfl rfl
    change (impl.setAgent descriptor.id (freshAgent now impl descriptor "registered")).agents[other]? = impl.agents[other]?
    rw [getElem?_setAgent, if_neg hne]

/-! ### Eligibility -/

theorem eligible_iff {record : AgentRecord} {item : WorkRecord} {feasibility : ExternalFeasibilityResult} :
    (evaluateEligibility now impl item record feasibility).eligible ↔ eligibility now impl item record feasibility = .ok () := by
  unfold evaluateEligibility
  cases hcheck : eligibility now impl item record feasibility <;> simp

/-- An agent that is spared stays eligible for what it was eligible for, unless its boot becomes fenced. -/
theorem Impl.Spares.eligible {ctx : Context} {work : WorkId} (h : impl.Spares impl' agent) (hconsistent : Consistent impl)
    (hconsistent' : Consistent impl')
    (hopen : ∀ record, impl.agents[agent]? = some record → bootIsFenced impl record.descriptor.boot = false →
      bootIsFenced impl' record.descriptor.boot = false)
    (heligible : impl.Eligible ctx agent work) : impl'.Eligible ctx agent work := by
  obtain ⟨record, item, hrecord, hitem, heligible⟩ := heligible
  have hentry := congrFun h.works work
  obtain ⟨item', hitem', hsame⟩ : ∃ item', impl'.work[work]? = some item' ∧ item'.entry = item.entry := by
    have hentry : (impl'.work[work]?).map WorkRecord.entry = some item.entry := by
      change _ = (impl.work[work]?).map WorkRecord.entry at hentry
      rw [hitem] at hentry
      exact hentry
    exact Option.map_eq_some_iff.mp hentry
  have hrequest : item'.request = item.request := congrArg WorkEntry.request hsame
  have hkey : item.request.id = work := hconsistent.workKey work item hitem
  have hid : record.descriptor.id = agent := hconsistent.agentKey agent record hrecord
  have hcurrent : item'.currentAssignments ≤ item.currentAssignments := by
    have hcount := Set.encard_le_encard (h.active work)
    rw [hconsistent.current work item (Set.notMem_empty _) hitem,
      hconsistent'.current work item' (Set.notMem_empty _) hitem'] at hcount
    exact_mod_cast hcount
  have hheld : activeAssignmentsOnAgent impl' work agent ≤ activeAssignmentsOnAgent impl work agent := by
    have hsubset : impl'.ledger.activeOn work agent ⊆ impl.ledger.activeOn work agent := by
      rintro id ⟨found, hfound, hactive, hwork, hagent⟩
      exact ⟨found, (h.held id found hagent).mp hfound, hactive, hwork, hagent⟩
    have hcount := Set.encard_le_encard hsubset
    rw [encard_activeOn hconsistent, encard_activeOn hconsistent'] at hcount
    exact_mod_cast hcount
  rw [eligible_iff] at heligible
  refine ⟨record, item', h.record.trans hrecord, hitem', eligible_iff.mpr ?_⟩
  have hfeasibility : evaluateFeasibility ctx item' = evaluateFeasibility ctx item := by
    unfold evaluateFeasibility
    rw [hrequest]
  -- of the instance, both look at the policy only
  have hscope : checkScope ctx.now impl' = checkScope ctx.now impl := by
    change checkScope ctx.now { policy := impl'.policy } = checkScope ctx.now { policy := impl.policy }
    rw [h.policy]
  have hcapability : checkCapability ctx.now impl' = checkCapability ctx.now impl := by
    change checkCapability ctx.now { policy := impl'.policy } = checkCapability ctx.now { policy := impl.policy }
    rw [h.policy]
  have hload : loadFresh ctx.now impl' record = loadFresh ctx.now impl record := by
    unfold loadFresh
    rw [h.policy]
  unfold eligibility checkPlacement at heligible ⊢
  rw [hfeasibility, hrequest, hscope, hcapability]
  simp only [check_bind_eq_ok, refuseIf_eq_ok, hkey, hid] at heligible ⊢
  rw [hload]
  obtain ⟨hfenced, hlifecycle, hscoped, ⟨hroom, hparallel, hperAgent, hplaced⟩, hrest⟩ := heligible
  refine ⟨?_, hlifecycle, hscoped, ⟨hroom, fun hfull => hparallel (hfull.trans hcurrent),
    fun hfull => hperAgent (hfull.trans hheld), hplaced⟩, hrest⟩
  rw [hopen record hrecord (by simpa using hfenced)]
  simp

end Spares

/-! ### One step of the system -/

/-- The locked sections of the operations that take an agent away, or put another incarnation in its place. -/
inductive System.Removes (system : System) (agent : AgentId) : Label → Prop
  | reports (boot : AgentBootId) (reason : Text) : System.Removes system agent (.begin (.declareAgentLost agent boot reason))
  | loses (position : Nat) (boot : AgentBootId) (reason : Text)
      (hcall : system.calls[position]? = some (.declareAgentLost agent boot reason)) :
      System.Removes system agent (.finish position)
  | retires (boot : AgentBootId) (force : Bool) : System.Removes system agent (.run (.deregisterAgent agent boot force))
  | applies (descriptor : AgentDescriptor) (hid : descriptor.id = agent) :
      System.Removes system agent (.begin (.registerAgent descriptor))
  | registers (position : Nat) (descriptor : AgentDescriptor) (hid : descriptor.id = agent)
      (hcall : system.calls[position]? = some (.registerAgent descriptor)) : System.Removes system agent (.finish position)

/-- The steps that close whatever is active under a boot. -/
inductive System.Ends (system : System) : Label → AgentBootId → Prop
  | loss (position : Nat) (agent : AgentId) (record : AgentRecord) (reason : Text)
      (hcall : system.calls[position]? = some (.declareAgentLost agent record.descriptor.boot reason))
      (hrecord : system.impl.agents[agent]? = some record) : System.Ends system (.finish position) record.descriptor.boot
  | retirement (agent : AgentId) (record : AgentRecord) (hrecord : system.impl.agents[agent]? = some record)
      (hopen : bootIsFenced system.impl record.descriptor.boot = false)
      (hactive : 0 < activeAssignmentCount system.impl agent) :
      System.Ends system (.run (.deregisterAgent agent record.descriptor.boot true)) record.descriptor.boot
  | reincarnation (position : Nat) (descriptor : AgentDescriptor) (existing : AgentRecord)
      (hcall : system.calls[position]? = some (.registerAgent descriptor))
      (hexisting : system.impl.agents[descriptor.id]? = some existing)
      (hnewer : existing.descriptor.generation < descriptor.generation)
      (hopen : bootIsFenced system.impl descriptor.boot = false) :
      System.Ends system (.finish position) existing.descriptor.boot

/-- A step leaves an agent its record, its boot, its assignments, and everything it is eligible for. -/
structure System.Isolates (system after : System) (agent : AgentId) : Prop where
  record : after.impl.agents[agent]? = system.impl.agents[agent]?
  unfenced : ∀ record, system.impl.agents[agent]? = some record → bootIsFenced system.impl record.descriptor.boot = false →
    bootIsFenced after.impl record.descriptor.boot = false
  held : ∀ (id : AssignmentId) record, record.binding.agent = agent →
    (after.impl.assignments[id]? = some record ↔ system.impl.assignments[id]? = some record)
  eligible : ∀ work, system.impl.Eligible system.context agent work → after.impl.Eligible after.context agent work

/-- The agent does not run under a boot that the step fences; or that boot is fenced already, and the agent has nothing
left under it where the step closes what is. -/
def System.Apart (system : System) (label : Label) (agent : AgentId) : Prop :=
  ∀ fenced boot record, system.Fences label fenced boot → system.impl.agents[agent]? = some record →
    record.descriptor.boot = boot →
    bootIsFenced system.impl boot ∧ (system.Ends label boot → system.impl.ledger.Idle agent boot)

section Steps
variable {system after : System} {label : Label} {reply : Reply} {agent other : AgentId} {boot : AgentBootId}

theorem System.Ends.fences (h : system.Ends label boot) : ∃ agent, system.Fences label agent boot := by
  cases h with
  | loss position agent record reason hcall _ => exact ⟨agent, .loss position agent _ reason hcall⟩
  | retirement agent record hrecord hopen _ => exact ⟨agent, .retirement agent _ true record hrecord rfl hopen (.inl rfl)⟩
  | reincarnation position descriptor existing hcall hexisting hnewer hopen =>
    exact ⟨descriptor.id, .reincarnation position descriptor existing hcall hexisting hnewer hopen⟩

/-- An agent that runs under another boot holds nothing active under this one. -/
theorem Sound.idle_elsewhere {impl : Impl} (h : Sound impl.ledger)
    (helsewhere : ∀ record, impl.agents[agent]? = some record → record.descriptor.boot ≠ boot) :
    impl.ledger.Idle agent boot := by
  refine Set.eq_empty_of_forall_notMem ?_
  rintro id ⟨record, hrecord, hactive, rfl, hboot⟩
  obtain ⟨holder, hholder, hbound⟩ := Sound.boot_of_active h hrecord hactive
  exact helsewhere holder hholder (hbound.trans hboot)

theorem System.Apart.idle (h : system.Apart label agent) (hsound : Sound system.impl.ledger) (hends : system.Ends label boot) :
    system.impl.ledger.Idle agent boot := by
  obtain ⟨fenced, hfences⟩ := hends.fences
  by_cases hunder : ∃ record, system.impl.agents[agent]? = some record ∧ record.descriptor.boot = boot
  · obtain ⟨record, hrecord, hboot⟩ := hunder
    exact (h fenced boot record hfences hrecord hboot).2 hends
  · exact hsound.idle_elsewhere fun record hrecord hboot => hunder ⟨record, hrecord, hboot⟩

/-- What stands apart from a removal is spared by it. -/
theorem System.Removes.spares (hremoves : system.Removes agent label) (hvalid : system.Valid) (hne : agent ≠ other)
    (hapart : system.Apart label other) (hstep : system.step label = some (reply, after)) :
    system.impl.Spares after.impl other ∧ after.context = system.context := by
  have hconsistent := hvalid.healthy.consistent
  have hsound := hvalid.healthy.sound
  have hbegun : ∀ request, system.step (.begin request) = some (reply, after) →
      system.impl.Spares after.impl other ∧ after.context = system.context := fun request hstep => by
    simp only [System.step] at hstep
    split at hstep <;> obtain ⟨-, rfl⟩ := Option.some.inj hstep <;> exact ⟨.of_tables rfl rfl rfl rfl, rfl⟩
  cases hremoves with
  | reports boot reason => exact hbegun _ hstep
  | applies descriptor hid => exact hbegun _ hstep
  | retires boot force =>
    obtain ⟨-, rfl⟩ := Prod.mk.inj (Option.some.inj hstep)
    refine ⟨deregisterAgent_spares system.now _ hconsistent hne ?_, rfl⟩
    rintro record hrecord rfl hopen hactive rfl
    exact hapart.idle hsound (.retirement agent record hrecord hopen hactive)
  | loses position boot reason hcall =>
    simp only [System.step, hcall] at hstep
    obtain ⟨-, rfl⟩ := Prod.mk.inj (Option.some.inj hstep)
    refine ⟨declareAgentLostCommit_spares system.now hconsistent hne ?_, rfl⟩
    rintro ⟨record, hrecord, rfl⟩
    exact hapart.idle hsound (.loss position agent record reason hcall hrecord)
  | registers position descriptor hid hcall =>
    subst hid
    simp only [System.step, hcall] at hstep
    obtain ⟨-, rfl⟩ := Prod.mk.inj (Option.some.inj hstep)
    refine ⟨registerAgentCommit_spares system.now hconsistent hne fun existing hexisting hnewer hopen => ?_, rfl⟩
    exact hapart.idle hsound (.reincarnation position descriptor existing hcall hexisting hnewer hopen)

theorem bootIsFenced_replaceAgent {impl : Impl} {record : AgentRecord} :
    bootIsFenced (impl.replaceAgent agent record) boot = bootIsFenced impl boot := by
  have hfenced := (rest_refreshAgent (impl.setAgent agent record) agent).2
  exact congrArg (fun table : Table AgentBootId FencedBoot => table.contains boot) hfenced

theorem bootIsFenced_closeAllActive {impl : Impl} {now : UInt64} {closed : AgentBootId} {state : AssignmentState}
    {reason : InvalidationReason} {detail : Text} :
    bootIsFenced (closeAllActive now impl closed state reason detail) boot = bootIsFenced impl boot :=
  bootIsFenced_of_frame (frame_closeWhere _ _ _ _ _ _)

/-- The boot that a step fences is fenced after it. -/
theorem System.Fences.fenced (h : system.Fences label agent boot) (hvalid : system.Valid) (hboot : boot ≠ 0)
    (hstep : system.step label = some (reply, after)) : bootIsFenced after.impl boot := by
  have hconsistent := hvalid.healthy.consistent
  cases h with
  | loss position agent boot reason hcall =>
    simp only [System.step, hcall] at hstep
    obtain ⟨-, rfl⟩ := Prod.mk.inj (Option.some.inj hstep)
    change bootIsFenced (declareAgentLostCommit system.now system.impl agent boot reason).2 boot
    by_cases hcurrent : ∃ record, system.impl.agents[agent]? = some record ∧ record.descriptor.boot = boot
    · obtain ⟨record, hrecord, rfl⟩ := hcurrent
      obtain ⟨stored, -, -, hform⟩ := declareAgentLostCommit_current system.now reason hconsistent hrecord
      rw [hform, bootIsFenced_replaceAgent, lostIncarnation, bootIsFenced_closeAllActive]
      exact bootIsFenced_fenceBoot hboot
    · rw [declareAgentLostCommit_stale hcurrent]
      exact bootIsFenced_fenceBoot hboot
  | retirement agent boot force record hrecord hcurrent hopen hidle =>
    obtain ⟨-, rfl⟩ := Prod.mk.inj (Option.some.inj hstep)
    change bootIsFenced (deregisterAgent system.now system.impl agent boot force).2 boot
    rcases deregisterAgent_cases system.now agent boot force hconsistent with
      ⟨hrefused, -⟩ | ⟨found, stored, hfound, rfl, -, -, -, -, hform⟩
    · obtain ⟨rfl, hactive⟩ := hrefused record hrecord hcurrent hopen
      exact (hactive.ne' (hidle.resolve_left (by simp))).elim
    · rw [hform, bootIsFenced_replaceAgent]
      exact bootIsFenced_fenceBoot hboot
  | reincarnation position descriptor existing hcall hexisting hnewer hopen =>
    simp only [System.step, hcall] at hstep
    obtain ⟨-, rfl⟩ := Prod.mk.inj (Option.some.inj hstep)
    change bootIsFenced (registerAgentCommit system.now system.impl descriptor).2 existing.descriptor.boot
    rcases registerAgentCommit_cases system.now system.impl descriptor with
      ⟨hrefused, -⟩ | ⟨found, hfound, -, -, hform⟩ | ⟨found, hfound, hsame, -⟩ | ⟨hnone, -⟩
    · have hfenced := hrefused existing hexisting hnewer
      rw [hopen] at hfenced
      cases hfenced
    · obtain rfl := Option.some.inj (hexisting.symm.trans hfound)
      rw [hform, bootIsFenced_replaceAgent, retireIncarnation_eq system.now hconsistent hexisting, bootIsFenced_closeAllActive]
      exact bootIsFenced_fenceBoot hboot
    · obtain rfl := Option.some.inj (hexisting.symm.trans hfound)
      exact (Nat.lt_irrefl _ (hsame ▸ hnewer)).elim
    · rw [hexisting] at hnone
      cases hnone

/-- Nothing active is left under a boot whose assignments a step closes. -/
theorem System.Ends.idle (h : system.Ends label boot) (hvalid : system.Valid) (hstep : system.step label = some (reply, after))
    (other : AgentId) : after.impl.ledger.Idle other boot := by
  have hconsistent := hvalid.healthy.consistent
  have hreplaced : ∀ (impl : Impl) (agent : AgentId) (record : AgentRecord), impl.ledger.Idle other boot →
      (impl.replaceAgent agent record).ledger.Idle other boot := fun impl agent record hidle =>
    hidle.of_assignments (congrArg (fun (table : Table AssignmentId AssignmentRecord) (id : AssignmentId) => table[id]?)
      (assignments_replaceAgent impl agent record))
  cases h with
  | loss position agent record reason hcall hrecord =>
    simp only [System.step, hcall] at hstep
    obtain ⟨-, rfl⟩ := Prod.mk.inj (Option.some.inj hstep)
    change (declareAgentLostCommit system.now system.impl agent record.descriptor.boot reason).2.ledger.Idle other _
    obtain ⟨stored, -, -, hform⟩ := declareAgentLostCommit_current system.now reason hconsistent hrecord
    rw [hform]
    exact hreplaced _ _ _ (lostIncarnation_idle _ _ _ _ hconsistent other).2
  | retirement agent record hrecord hopen hactive =>
    obtain ⟨-, rfl⟩ := Prod.mk.inj (Option.some.inj hstep)
    change (deregisterAgent system.now system.impl agent record.descriptor.boot true).2.ledger.Idle other _
    rcases deregisterAgent_cases system.now agent record.descriptor.boot true
      hconsistent with ⟨hrefused, -⟩ | ⟨found, stored, hfound, -, -, -, -, -, hform⟩
    · cases (hrefused record hrecord rfl hopen).1
    · obtain rfl := Option.some.inj (hrecord.symm.trans hfound)
      rw [hform]
      refine hreplaced _ _ _ ?_
      have hclosed := closeAllActive_idle record.descriptor.boot system.now .invalidated .agentRetired "forced deregistration invalidated the assignment" other hconsistent rfl
      unfold retiredIncarnation
      rw [if_pos hactive]
      exact hclosed.1.of_assignments (congrArg Ledger.assignments (ledger_fenceBoot _ _ _ _ _ _))
  | reincarnation position descriptor existing hcall hexisting hnewer hopen =>
    simp only [System.step, hcall] at hstep
    obtain ⟨-, rfl⟩ := Prod.mk.inj (Option.some.inj hstep)
    change (registerAgentCommit system.now system.impl descriptor).2.ledger.Idle other _
    rcases registerAgentCommit_cases system.now system.impl descriptor with
      ⟨hrefused, -⟩ | ⟨found, hfound, -, -, hform⟩ | ⟨found, hfound, hsame, -⟩ | ⟨hnone, -⟩
    · have hfenced := hrefused existing hexisting hnewer
      rw [hopen] at hfenced
      cases hfenced
    · obtain rfl := Option.some.inj (hexisting.symm.trans hfound)
      rw [hform]
      exact hreplaced _ _ _ ((retireIncarnation_idle {} system.now hconsistent hexisting).2.1 other)
    · obtain rfl := Option.some.inj (hexisting.symm.trans hfound)
      exact (Nat.lt_irrefl _ (hsame ▸ hnewer)).elim
    · rw [hexisting] at hnone
      cases hnone

/-- Every boot a removal fences is one that it fences by its own rules. -/
theorem System.Removes.fences (hremoves : system.Removes agent label) (hvalid : system.Valid)
    (hstep : system.step label = some (reply, after)) (hfenced : bootIsFenced after.impl boot) :
    bootIsFenced system.impl boot ∨ ∃ fenced, system.Fences label fenced boot := by
  rcases System.step_deeds hvalid hstep with ⟨_, _, rfl, _⟩ | ⟨_, _, rfl, _⟩ | hdeeds
  · cases hremoves
  · cases hremoves
  · cases hopen : bootIsFenced system.impl boot with
    | true => exact .inl rfl
    | false =>
      obtain ⟨fenced, hfences, -⟩ := System.fence_cases hvalid hstep hdeeds hfenced hopen
      exact .inr ⟨fenced, hfences⟩

end Steps

/-- Taking one agent away leaves another one alone exactly when the other does not share the boot that falls. -/
theorem isolates_iff_apart : ∀ (system after : System) label reply (agent other : AgentId), system.Reachable → agent ≠ other →
    system.Removes agent label → system.step label = some (reply, after) →
    (system.Isolates after other ↔ system.Apart label other) := by
  intro system after label reply agent other hreachable hne hremoves hstep
  have hvalid : system.Valid := hreachable.valid
  constructor
  · rintro ⟨-, hopen, hheld, -⟩ fenced boot record hfences hrecord rfl
    have hboot := hvalid.healthy.consistent.agentBoot other record hrecord
    refine ⟨?_, fun hends => ?_⟩
    · by_contra hunfenced
      have hstays := hopen record hrecord (by simpa using hunfenced)
      rw [hfences.fenced hvalid hboot hstep] at hstays
      cases hstays
    · refine Set.eq_empty_of_forall_notMem ?_
      rintro id ⟨found, hfound, hactive, hagent, hbound⟩
      have hmem : id ∈ after.impl.ledger.active fun found =>
          found.binding.agent = other ∧ found.binding.boot = record.descriptor.boot :=
        ⟨found, (hheld id found hagent).mpr hfound, hactive, hagent, hbound⟩
      rw [hends.idle hvalid hstep other] at hmem
      exact hmem
  · intro hapart
    obtain ⟨hspares, hcontext⟩ := hremoves.spares hvalid hne hapart hstep
    have hopen : ∀ record, system.impl.agents[other]? = some record → bootIsFenced system.impl record.descriptor.boot = false →
        bootIsFenced after.impl record.descriptor.boot = false := by
      intro record hrecord hunfenced
      by_contra hfenced
      rcases hremoves.fences hvalid hstep (by simpa using hfenced) with hbefore | ⟨fenced, hfences⟩
      · rw [hunfenced] at hbefore
        cases hbefore
      · have hbefore := (hapart fenced _ record hfences hrecord rfl).1
        rw [hunfenced] at hbefore
        cases hbefore
    refine ⟨hspares.record, hopen, hspares.held, fun work heligible => ?_⟩
    rw [hcontext]
    exact hspares.eligible hvalid.healthy.consistent (hvalid.step hstep).healthy.consistent hopen heligible

/-- Two agents, and the one that is about to be retired. -/
def Sample.twoAgents : Option (System × Reply × System) := do
  let system ← run (fun _ _ => True)
    (enlist ++ [.begin (.registerAgent { descriptor with id := 2, boot := ⟨⟨0, 2⟩⟩ }), .finish 0])
  let (reply, after) ← system.step (.run (.deregisterAgent 2 ⟨⟨0, 2⟩⟩ false))
  return (system, reply, after)

set_option maxRecDepth 100000 in
/-- Agent 2 is retired, and agent 1 stays ready. -/
theorem isolates_iff_apart_sample : ∃ system reply after, Sample.twoAgents = some (system, reply, after) ∧
    (after.impl.agents[(2 : AgentId)]?).map AgentRecord.lifecycle = some .retired ∧
    (after.impl.agents[(1 : AgentId)]?).map AgentRecord.lifecycle = some .ready ∧ system.Isolates after 1 := by
  have hview : Sample.twoAgents.map (fun (system, _, after) =>
      ((system.impl.agents[(1 : AgentId)]?).map fun record => record.descriptor.boot,
        (after.impl.agents[(2 : AgentId)]?).map AgentRecord.lifecycle,
        (after.impl.agents[(1 : AgentId)]?).map AgentRecord.lifecycle)) =
      some (some Sample.boot, some .retired, some .ready) := by decide +kernel
  obtain ⟨⟨system, reply, after⟩, hsample, hview⟩ := Option.map_eq_some_iff.mp hview
  simp only [Prod.mk.injEq] at hview
  obtain ⟨hboot, hretired, hready⟩ := hview
  refine ⟨system, reply, after, hsample, hretired, hready, ?_⟩
  unfold Sample.twoAgents at hsample
  simp only [Option.bind_eq_bind, Option.bind_eq_some_iff] at hsample
  obtain ⟨reached, hrun, ⟨reply', after'⟩, hstep, hreturn⟩ := hsample
  obtain ⟨rfl, rfl, rfl⟩ : reached = system ∧ reply' = reply ∧ after' = after := by simpa using hreturn
  refine (isolates_iff_apart reached after' _ reply' 2 1 (Sample.run_reaches hrun) (by decide) (.retires _ _) hstep).mpr ?_
  intro fenced boot record hfences hrecord hsame
  cases hfences with
  | retirement =>
    rw [hrecord] at hboot
    have hcurrent : record.descriptor.boot = Sample.boot := Option.some.inj hboot
    rw [hcurrent] at hsame
    exact absurd hsame (by decide)

/-- A loss of agent 2, which is not even known, under the boot of agent 1. -/
def Sample.misdirected : Option (System × Reply × System) := do
  let system ← run (fun _ _ => True) (enlist ++ [.begin (.declareAgentLost 2 boot "lost")])
  let (reply, after) ← system.step (.finish 0)
  return (system, reply, after)

/-- The incarnation a call reports lost. -/
def Sample.lostBy : Call → Option (AgentId × AgentBootId)
  | .declareAgentLost agent boot _ => some (agent, boot)
  | _ => none

set_option maxRecDepth 100000 in
/-- Not every loss is isolated: one may name the boot of another agent. -/
theorem not_isolates : ¬∀ (system after : System) label reply (agent other : AgentId), system.Reachable → agent ≠ other →
    system.Removes agent label → system.step label = some (reply, after) → system.Isolates after other := by
  intro hisolates
  have hview : Sample.misdirected.map (fun (system, _, after) =>
      ((system.impl.agents[(1 : AgentId)]?).map fun record =>
          (record.descriptor.boot, bootIsFenced system.impl record.descriptor.boot),
        bootIsFenced after.impl Sample.boot, (system.calls[0]?).bind Sample.lostBy)) =
      some (some (Sample.boot, false), true, some (2, Sample.boot)) := by decide +kernel
  obtain ⟨⟨system, reply, after⟩, hsample, hview⟩ := Option.map_eq_some_iff.mp hview
  simp only [Prod.mk.injEq] at hview
  obtain ⟨hrecord, hfenced, hcall⟩ := hview
  unfold Sample.misdirected at hsample
  simp only [Option.bind_eq_bind, Option.bind_eq_some_iff] at hsample
  obtain ⟨reached, hrun, ⟨reply', after'⟩, hstep, hreturn⟩ := hsample
  obtain ⟨rfl, rfl, rfl⟩ : reached = system ∧ reply' = reply ∧ after' = after := by simpa using hreturn
  obtain ⟨record, hrecord, hview⟩ := Option.map_eq_some_iff.mp hrecord
  obtain ⟨hcurrent, hopen⟩ := Prod.mk.inj hview
  have hremoves : reached.Removes 2 (.finish 0) := by
    obtain ⟨call, hfound, hlost⟩ := Option.bind_eq_some_iff.mp hcall
    cases call with
    | declareAgentLost agent boot reason =>
      obtain ⟨rfl, rfl⟩ := Prod.mk.inj (Option.some.inj hlost)
      exact .loses 0 _ reason hfound
    | _ => cases hlost
  have hstays := (hisolates reached after' _ reply' 2 1 (Sample.run_reaches hrun) (by decide) hremoves hstep).unfenced record
    hrecord hopen
  rw [hcurrent, hfenced] at hstays
  cases hstays

end AgentScheduler
