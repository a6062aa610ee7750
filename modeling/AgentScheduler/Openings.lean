import AgentScheduler.PathAgreement

/-! Work that is open to planning, and what a commit leaves of it. -/
namespace AgentScheduler
open Std KeyedTable Relation

/-- Some requirement on capabilities is a hard one. -/
def WorkRecord.NeedsSkill (work : WorkRecord) : Prop :=
  ∃ requirement ∈ work.request.requirements.capabilities, requirement.mode = .required

/-- A plan of the stored work, if it needs a skill, binds no agent. -/
def Impl.Shut (impl : Impl) (ctx : Context) (id : WorkId) : Prop :=
  ∀ work, impl.work[id]? = some work → work.NeedsSkill → (planLocked ctx impl work).binding = none

/-! ### When a plan finds an agent -/

section Plans
variable {ctx : Context} {impl impl' : Impl} {work work' : WorkRecord} {id : WorkId} {binding : AssignmentBinding}

/-- Work that passes the gates and has an eligible agent is bound. -/
theorem planLocked_finds {agent : AgentId} {record : AgentRecord} (h : Consistent impl)
    (hgates : planGates ctx.now impl work = .ok ()) (hrecord : impl.agents[agent]? = some record)
    (heligible : eligibility ctx.now impl work record (evaluateFeasibility ctx work) = .ok ()) :
    (planLocked ctx impl work).binding ≠ none := by
  obtain ⟨index, evaluation, hfound, hevaluation⟩ : ∃ (index : Nat) (evaluation : CandidateEvaluation),
      (evaluateCandidates ctx impl work)[index]? = some evaluation ∧ evaluation.eligible := by
    let evaluation := evaluateEligibility ctx.now impl work record (evaluateFeasibility ctx work)
    have hpassed : evaluation.eligible := eligible_iff.mpr heligible
    have hmem := List.mem_map_of_mem (f := fun agent =>
      let evaluation := evaluateEligibility ctx.now impl work agent (evaluateFeasibility ctx work)
      if evaluation.eligible then
        scoreCandidate ctx.now impl work agent (evaluateFeasibility ctx work) evaluation
      else evaluation) (mem_values.mpr ⟨agent, hrecord⟩)
    obtain ⟨index, hindex⟩ := List.mem_iff_getElem?.mp hmem
    refine ⟨index, _, hindex, ?_⟩
    change (if evaluation.eligible then scoreCandidate ctx.now impl work record (evaluateFeasibility ctx work) evaluation
      else evaluation).eligible
    rw [if_pos hpassed]
    exact hpassed
  have hmem : index ∈ rankingOrder (evaluateCandidates ctx impl work) := by
    unfold rankingOrder sortBy
    rw [List.mem_insertionSort, List.mem_filter, List.mem_range]
    obtain ⟨hlt, hget⟩ := List.getElem?_eq_some_iff.mp hfound
    refine ⟨hlt, ?_⟩
    rw [List.getD_eq_getElem _ {} hlt, hget]
    exact hevaluation
  unfold planLocked
  rw [hgates]
  simp only
  cases horder : rankingOrder (evaluateCandidates ctx impl work) with
  | nil =>
    rw [horder] at hmem
    cases hmem
  | cons winner rest =>
    obtain ⟨best, hbest, -⟩ := mem_rankingOrder winner (horder ▸ List.mem_cons_self)
    obtain ⟨found, chosen, hchosen, hagent, -⟩ := mem_evaluateCandidates (List.mem_of_getElem? hbest)
    have hstored : impl.agents[((withRanks (evaluateCandidates ctx impl work) (winner :: rest)).getD winner {}).agent]? =
        some chosen := by
      have hkey : chosen.descriptor.id = found := h.agentKey found chosen hchosen
      rw [(getD_withRanks (winner :: rest) hbest).1, hagent, hkey]
      exact hchosen
    simp only [hstored]
    nofun

/-- Work is left open by a change only if its gates and some eligible agent were open before. -/
theorem planLocked_none_of (h : Consistent impl) (h' : Consistent impl')
    (hnone : (planLocked ctx impl work).binding = none)
    (hgates : planGates ctx.now impl' work' = .ok () → planGates ctx.now impl work = .ok ())
    (heligible : ∀ (agent : AgentId) record', impl'.agents[agent]? = some record' →
      eligibility ctx.now impl' work' record' (evaluateFeasibility ctx work') = .ok () →
      ∃ record, impl.agents[agent]? = some record ∧
        eligibility ctx.now impl work record (evaluateFeasibility ctx work) = .ok ()) :
    (planLocked ctx impl' work').binding = none := by
  by_contra hsome
  obtain ⟨binding, hplan⟩ := Option.ne_none_iff_exists'.mp hsome
  obtain ⟨record', hrecord', -, hpassed⟩ := planLocked_winner h' hplan
  obtain ⟨record, hrecord, hbefore⟩ := heligible binding.agent record' hrecord' hpassed
  exact planLocked_finds h (hgates (planLocked_binding hplan).1) hrecord hbefore hnone

end Plans

/-! ### What keeps work shut -/

/-- Planning reads nothing else of the standing of a scheduler. -/
def Impl.outlook (impl : Impl) : Impl :=
  { policy := impl.policy
    fencedBoots := impl.fencedBoots
    running := impl.running
    admissionOpen := impl.admissionOpen }

theorem Impl.read_of_outlook {impl impl' : Impl} (h : impl'.outlook = impl.outlook) :
    impl'.policy = impl.policy ∧ impl'.fencedBoots = impl.fencedBoots ∧ impl'.running = impl.running ∧
      impl'.admissionOpen = impl.admissionOpen := by
  have hpolicy := congrArg Impl.policy h
  have hfences := congrArg Impl.fencedBoots h
  have hrunning := congrArg Impl.running h
  have hadmission := congrArg Impl.admissionOpen h
  exact ⟨hpolicy, hfences, hrunning, hadmission⟩

section Shut
variable {ctx : Context} {impl impl' : Impl} {work work' : WorkRecord} {id : WorkId}

/-- What eligibility reads of an instance. -/
theorem eligibility_congr {now : UInt64} {record : AgentRecord} {feasibility : ExternalFeasibilityResult}
    (houtlook : impl'.outlook = impl.outlook)
    (hheld : ∀ agent, activeAssignmentsOnAgent impl' work.request.id agent = activeAssignmentsOnAgent impl work.request.id agent) :
    eligibility now impl' work record feasibility = eligibility now impl work record feasibility := by
  obtain ⟨hpolicy, hfences, -, -⟩ := Impl.read_of_outlook houtlook
  have hscope : checkScope now impl' = checkScope now impl := by
    change checkScope now { policy := impl'.policy } = checkScope now { policy := impl.policy }
    rw [hpolicy]
  have hcapability : checkCapability now impl' = checkCapability now impl := by
    change checkCapability now { policy := impl'.policy } = checkCapability now { policy := impl.policy }
    rw [hpolicy]
  have hload : loadFresh now impl' record = loadFresh now impl record := by
    unfold loadFresh
    rw [hpolicy]
  have hfenced : ∀ boot, bootIsFenced impl' boot = bootIsFenced impl boot := by
    intro boot
    unfold bootIsFenced
    rw [hfences]
  unfold eligibility checkPlacement
  rw [hscope, hcapability, hload, hfenced, hheld]

/-- Rounds of being passed over do not reopen work, and neither does anything that planning does not read. -/
theorem Impl.Shut.of_gist (hshut : impl.Shut ctx id) (h : Consistent impl) (h' : Consistent impl')
    (houtlook : impl'.outlook = impl.outlook) (hagents : impl'.agents = impl.agents) (hslots : impl'.slots = impl.slots)
    (hwork : ∀ work', impl'.work[id]? = some work' → ∃ work, impl.work[id]? = some work ∧ work'.gist = work.gist) :
    impl'.Shut ctx id := by
  intro work' hstored hskill
  obtain ⟨work, hbefore, hgist⟩ := hwork work' hstored
  obtain ⟨hrequest, hlifecycle, hcurrent⟩ := WorkRecord.read_of_gist hgist
  obtain ⟨-, -, hrunning, hadmission⟩ := Impl.read_of_outlook houtlook
  have hassignments := congrArg Impl.assignments hslots
  have hassignments : impl'.assignments = impl.assignments := hassignments
  have hindex := congrArg Impl.indexAssignmentsByWork hslots
  have hindex : impl'.indexAssignmentsByWork = impl.indexAssignmentsByWork := hindex
  have hneeds : work.NeedsSkill := by
    unfold WorkRecord.NeedsSkill at hskill ⊢
    rwa [hrequest] at hskill
  refine planLocked_none_of h h' (hshut work hbefore hneeds) (fun hgates => ?_) fun agent record hrecord heligible => ?_
  · unfold planGates fanoutOpen activeExclusiveAssignment at hgates ⊢
    rwa [hrequest, hlifecycle, hcurrent, hrunning, hadmission, hassignments, hindex] at hgates
  · have hfeasibility : evaluateFeasibility ctx work' = evaluateFeasibility ctx work := by
      unfold evaluateFeasibility
      rw [hrequest]
    have hread : eligibility ctx.now impl' work' record = eligibility ctx.now impl' work record := by
      unfold eligibility checkPlacement
      rw [hrequest, hcurrent]
    refine ⟨record, hagents ▸ hrecord, ?_⟩
    rw [hread, hfeasibility, eligibility_congr houtlook fun agent => ?_] at heligible
    · exact heligible
    · unfold activeAssignmentsOnAgent
      rw [hassignments, hindex]

/-- No plan binds work that has all its slots. -/
theorem planLocked_saturated (h : Consistent impl)
    (hfull : work.request.requirements.maxParallel.toNat ≤ work.currentAssignments) : (planLocked ctx impl work).binding = none := by
  by_contra hsome
  obtain ⟨binding, hplan⟩ := Option.ne_none_iff_exists'.mp hsome
  obtain ⟨record, -, -, heligible⟩ := planLocked_winner h hplan
  unfold eligibility checkPlacement at heligible
  simp only [check_bind_eq_ok, refuseIf_eq_ok] at heligible
  obtain ⟨-, -, -, ⟨-, hroom, -⟩, -⟩ := heligible
  exact hroom hfull

/-- No plan binds work that holds slots and is not fanning out. -/
theorem planLocked_taken (h : Consistent impl) (hwork : impl.work[id]? = some work) (hpos : 0 < work.currentAssignments)
    (hclosed : ¬fanoutOpen work) : (planLocked ctx impl work).binding = none := by
  by_contra hsome
  obtain ⟨binding, hplan⟩ := Option.ne_none_iff_exists'.mp hsome
  rcases (planLocked_open hplan).2 with haccepts | hzero | hopen
  · have hadmitted : work.lifecycle = .admitted := by simpa [WorkLifecycle.acceptsAssignment] using haccepts
    have hnone := h.admitted id work (Set.notMem_empty _) hwork hadmitted
    exact absurd hnone (Nat.ne_of_gt hpos)
  · exact absurd hzero (Nat.ne_of_gt hpos)
  · exact hclosed hopen

end Shut

/-! ### What a commit leaves open -/

section Commits
variable {ctx : Context} {impl : Impl} {work committed : WorkRecord} {id : WorkId} {binding : AssignmentBinding}
  {generation : WorkGeneration}

theorem outlook_commitApply (impl : Impl) (work : WorkRecord) (binding : AssignmentBinding) :
    (commitApply impl binding.work work binding).outlook = impl.outlook := by
  have hagent : ∀ (impl : Impl) (agent : AgentId), (refreshAgentAccounting impl agent).outlook = impl.outlook := by
    intro impl agent
    unfold refreshAgentAccounting
    split <;> rfl
  have hwork : ∀ (impl : Impl) (work : WorkId), (refreshWorkAccounting impl work).outlook = impl.outlook := by
    intro impl work
    unfold refreshWorkAccounting
    split <;> rfl
  have hindex : ∀ (impl : Impl) (id : AssignmentId), (indexStoredAssignment impl id).outlook = impl.outlook := by
    intro impl id
    unfold indexStoredAssignment
    split
    · rfl
    · unfold indexAssignment
      split <;> rfl
  unfold commitApply
  exact (hagent _ _).trans ((hwork _ _).trans ((hindex _ _).trans rfl))

/-- What a commit stores of the agents: the bound one is counted anew. -/
theorem agents_commitApply (h : Consistent impl) (hwork : impl.work[binding.work]? = some committed) {agent : AgentId}
    {record' : AgentRecord} (hrecord' : (commitApply impl binding.work committed binding).agents[agent]? = some record') :
    ∃ record, impl.agents[agent]? = some record ∧ (record' = record ∨ agent = binding.agent ∧
      ∃ count, record' = recomputeLifecycle { record with activeAssignments := count }) := by
  rw [commitApply_eq hwork] at hrecord'
  change (refreshAgentAccounting (refreshWorkAccounting (slotted impl committed binding) binding.work)
    binding.agent).agents[agent]? = some record' at hrecord'
  have hagents : (refreshWorkAccounting (slotted impl committed binding) binding.work).agents = impl.agents :=
    (agents_refreshWorkAccounting _ _).trans (agents_slotted impl committed binding)
  rw [agents_refreshAgentAccounting _ _ _ (hagents ▸ h.agentKey), hagents] at hrecord'
  split at hrecord'
  · next heq =>
    obtain ⟨record, hrecord, rfl⟩ := Option.map_eq_some_iff.mp hrecord'
    exact ⟨record, hrecord, .inr ⟨heq.symm, _, rfl⟩⟩
  · exact ⟨record', hrecord', .inl rfl⟩

/-- A commit leaves the other work as it is stored. -/
theorem work_commitApply_other (h : Consistent impl) (hwork : impl.work[binding.work]? = some committed)
    (hne : id ≠ binding.work) : (commitApply impl binding.work committed binding).work[id]? = impl.work[id]? := by
  rw [commitApply_eq hwork]
  change (refreshAgentAccounting (refreshWorkAccounting (slotted impl committed binding) binding.work)
    binding.agent).work[id]? = _
  rw [work_refreshAgentAccounting, work_refreshWorkAccounting (coherent_slotted h hwork).workKey, if_neg hne.symm,
    work_slotted, if_neg hne.symm]

/-- An agent that accepts work and has a slot free is held back neither by its lifecycle nor by its load. -/
theorem eligibility_slot {now : UInt64} {record : AgentRecord} {feasibility : ExternalFeasibilityResult} {count : Nat}
    {lifecycle : AgentLifecycle} (haccepts : record.lifecycle.acceptsNewWork)
    (hroom : record.activeAssignments < record.descriptor.maxConcurrency.toNat)
    (h : eligibility now impl work { record with activeAssignments := count, lifecycle := lifecycle } feasibility = .ok ()) :
    eligibility now impl work record feasibility = .ok () := by
  have hlifecycle : checkLifecycle record.lifecycle = .ok () := by
    unfold AgentLifecycle.acceptsNewWork at haccepts
    cases hstate : record.lifecycle <;> rw [hstate] at haccepts <;> first | rfl | cases haccepts
  have hcapability : ∀ requirement, checkCapability now impl
      { record with activeAssignments := count, lifecycle := lifecycle } requirement =
        checkCapability now impl record requirement := fun _ => rfl
  unfold eligibility checkScope checkPlacement at h ⊢
  simp only [check_bind_eq_ok, refuseIf_eq_ok] at h ⊢
  obtain ⟨hfenced, -, ⟨htenant, hnamespace, hlabels, -, hscoped⟩, ⟨-, hplaced⟩, hrequired, hfeasible⟩ := h
  exact ⟨hfenced, hlifecycle, ⟨htenant, hnamespace, hlabels, fun hrefused => hrefused.2 haccepts, hscoped⟩,
    ⟨Nat.not_le.mpr hroom, hplaced⟩, hrequired, hfeasible⟩

/-- Whoever is eligible for other work after a commit was so before. -/
theorem eligible_before_commit {agent : AgentId} {record' : AgentRecord} {feasibility : ExternalFeasibilityResult}
    (h : Consistent impl) (hcheck : commitCheck ctx impl binding.work generation binding = .ok committed)
    (hne : work.request.id ≠ binding.work)
    (hrecord' : (commitApply impl binding.work committed binding).agents[agent]? = some record')
    (heligible : eligibility ctx.now (commitApply impl binding.work committed binding) work record' feasibility = .ok ()) :
    ∃ record, impl.agents[agent]? = some record ∧ eligibility ctx.now impl work record feasibility = .ok () := by
  obtain ⟨hafter, hledger⟩ := commitApply_spec h hcheck
  obtain ⟨-, hwork, -, ⟨bound, hbound, hchecked⟩, -⟩ := commitCheck_ok.mp hcheck
  obtain ⟨record, hrecord, hsame⟩ := agents_commitApply h hwork hrecord'
  have hheld : ∀ agent, activeAssignmentsOnAgent (commitApply impl binding.work committed binding) work.request.id agent =
      activeAssignmentsOnAgent impl work.request.id agent := by
    intro agent
    have hcount := encard_activeOn hafter work.request.id agent
    rw [hledger, Ledger.activeOn, Ledger.active_commit_of_not fun hboth => hne hboth.1.symm,
      ← Ledger.activeOn, encard_activeOn h] at hcount
    exact_mod_cast hcount.symm
  rw [eligibility_congr (outlook_commitApply impl committed binding) hheld] at heligible
  refine ⟨record, hrecord, ?_⟩
  rcases hsame with rfl | ⟨rfl, count, rfl⟩
  · exact heligible
  · obtain rfl : bound = record := Option.some.inj (hbound.symm.trans hrecord)
    unfold commitAgent at hchecked
    simp only [check_bind_eq_ok, refuseIf_eq_ok, Nat.not_le, not_not] at hchecked
    obtain ⟨-, -, -, haccepts, -, hroom, -⟩ := hchecked
    rw [recomputeLifecycle_eq] at heligible
    exact eligibility_slot haccepts hroom heligible

theorem isSome_activeExclusive (h : Consistent impl) :
    (activeExclusiveAssignment impl id).isSome ↔ (impl.ledger.exclusiveFor id).Nonempty := by
  constructor
  · intro hsome
    obtain ⟨found, hfound⟩ := Option.isSome_iff_exists.mp hsome
    have hselected := List.find?_some hfound
    obtain ⟨record, hrecord, hactive, hwork⟩ := (h.workIndex id found).mp (List.mem_of_find?_eq_some hfound)
    have hstored : impl.assignments[found]? = some record := hrecord
    simp only [hstored, Bool.and_eq_true] at hselected
    exact ⟨found, record, hrecord, hactive, hwork, hselected.2⟩
  · intro hnonempty
    by_contra hnone
    rw [Option.not_isSome_iff_eq_none] at hnone
    rw [activeExclusiveAssignment_none h hnone] at hnonempty
    exact Set.not_nonempty_empty hnonempty

/-- A commit opens no gate for other work, and closes none. -/
theorem planGates_commit (h : Consistent impl) (hcheck : commitCheck ctx impl binding.work generation binding = .ok committed)
    (hne : work.request.id ≠ binding.work) :
    planGates ctx.now (commitApply impl binding.work committed binding) work = planGates ctx.now impl work := by
  obtain ⟨hafter, hledger⟩ := commitApply_spec h hcheck
  obtain ⟨-, -, hrunning, hadmission⟩ := Impl.read_of_outlook (outlook_commitApply impl committed binding)
  have hexclusive : (activeExclusiveAssignment (commitApply impl binding.work committed binding) work.request.id).isSome =
      (activeExclusiveAssignment impl work.request.id).isSome := by
    rw [Bool.eq_iff_iff, isSome_activeExclusive hafter, isSome_activeExclusive h, hledger, Ledger.exclusiveFor,
      Ledger.active_commit_of_not fun hboth => hne hboth.1.symm, ← Ledger.exclusiveFor]
  unfold planGates
  rw [hrunning, hadmission, hexclusive]

/-- Work that is shut stays shut when other work is committed. -/
theorem Impl.Shut.commit (hshut : impl.Shut ctx id) (h : Consistent impl)
    (hcheck : commitCheck ctx impl binding.work generation binding = .ok committed) (hne : id ≠ binding.work) :
    (commitApply impl binding.work committed binding).Shut ctx id := by
  intro work hstored hskill
  rw [work_commitApply_other h (commitCheck_ok.mp hcheck).2.1 hne] at hstored
  have hkey : work.request.id = id := h.workKey id work hstored
  have hother : work.request.id ≠ binding.work := hkey ▸ hne
  exact planLocked_none_of h (commitApply_spec h hcheck).1 (hshut work hstored hskill)
    (fun hgates => (planGates_commit h hcheck hother).symm.trans hgates)
    fun agent record' hrecord' => eligible_before_commit h hcheck hother hrecord'

/-- A commit under a fresh identity takes one slot of its work. -/
theorem commit_counts (h : Consistent impl) (hcheck : commitCheck ctx impl binding.work generation binding = .ok committed)
    (hfresh : impl.assignments[binding.id]? = none) :
    ∃ after, (commitApply impl binding.work committed binding).work[binding.work]? = some after ∧
      after.request = committed.request ∧ after.currentAssignments = committed.currentAssignments + 1 := by
  obtain ⟨hafter, hledger⟩ := commitApply_spec h hcheck
  have hwork := (commitCheck_ok.mp hcheck).2.1
  obtain ⟨current, lifecycle, hstored⟩ := work_commitApply hwork
  refine ⟨_, hstored, rfl, ?_⟩
  have hgrown : (impl.ledger.commit committed.entry binding).activeFor binding.work =
      insert binding.id (impl.ledger.activeFor binding.work) := by
    refine Set.Subset.antisymm (impl.ledger.active_commit committed.entry binding _).1 ?_
    rintro id hid
    change ∃ record, (if id = binding.id then some ((impl.ledger.assignments id).getD binding.record)
      else impl.ledger.assignments id) = some record ∧ record.state.isActive ∧ record.binding.work = binding.work
    rcases hid with rfl | ⟨record, hrecord, hactive, hsame⟩
    · have hnone : impl.ledger.assignments binding.id = none := hfresh
      rw [if_pos rfl, hnone]
      exact ⟨binding.record, rfl, rfl, rfl⟩
    · refine ⟨record, ?_, hactive, hsame⟩
      rw [hrecord]
      split <;> rfl
  have hbefore := h.current binding.work committed (Set.notMem_empty _) hwork
  have hcount := hafter.current binding.work _ (Set.notMem_empty _) hstored
  rw [hledger, hgrown, Set.encard_insert_of_notMem, hbefore] at hcount
  · exact_mod_cast hcount.symm
  · rintro ⟨record, hrecord, -⟩
    rw [show impl.ledger.assignments binding.id = none from hfresh] at hrecord
    cases hrecord

end Commits

/-! ### Work that lost its last slot -/

/-- Work without a slot is done with or waits to be assigned. -/
def WorkRecord.Requeued (record : WorkRecord) : Prop :=
  record.currentAssignments = 0 → record.lifecycle.isTerminal ∨ record.lifecycle.acceptsAssignment

def Impl.Requeues (impl : Impl) : Prop := ∀ (id : WorkId) record, impl.work[id]? = some record → record.Requeued

section Requeues
variable {impl impl' : Impl} {id : WorkId} {record : WorkRecord}

theorem WorkRecord.requeued_recounted (record : WorkRecord) (impl : Impl) : (record.recounted impl).Requeued := by
  intro hidle
  have hidle : ((indexIds impl.indexAssignmentsByWork record.request.id).filter (isActiveId impl)).length = 0 := hidle
  unfold WorkRecord.recounted refreshedWorkLifecycle
  simp only [hidle, if_true]
  cases hterminal : record.lifecycle.isTerminal with
  | true =>
    left
    simpa using hterminal
  | false =>
    right
    simp [WorkLifecycle.acceptsAssignment]

theorem Impl.Requeues.of_work (h : impl.Requeues) (hwork : impl'.work = impl.work) : impl'.Requeues := by
  intro id record hrecord
  exact h id record (hwork ▸ hrecord)

theorem Impl.Requeues.setWork (h : impl.Requeues) (hrecord : record.Requeued) : (impl.setWork id record).Requeues := by
  intro other found hfound
  rw [getElem?_setWork] at hfound
  split at hfound
  · exact Option.some.inj hfound ▸ hrecord
  · exact h other found hfound

theorem Impl.Requeues.refreshWork (h : impl.Requeues)
    (hkey : Keyed (fun record : WorkRecord => record.request.id) impl.work) (work : WorkId) :
    (refreshWorkAccounting impl work).Requeues := by
  intro other found hfound
  rw [work_refreshWorkAccounting hkey] at hfound
  split at hfound
  · obtain ⟨record, -, rfl⟩ := Option.map_eq_some_iff.mp hfound
    exact record.requeued_recounted impl
  · exact h other found hfound

/-- Counting every work item anew leaves nothing behind. -/
theorem requeues_refreshWorks {stale : Set WorkId} (hcoherent : Coherent stale impl) (works : List WorkId)
    (h : ∀ (id : WorkId) record, impl.work[id]? = some record → id ∈ works ∨ record.Requeued) :
    (works.foldl refreshWorkAccounting impl).Requeues := by
  induction works generalizing impl stale with
  | nil => exact fun id record hrecord => (h id record hrecord).resolve_left (List.not_mem_nil)
  | cons work works ih =>
    refine ih (hcoherent.refreshWorkAccounting work) fun id record hrecord => ?_
    rw [work_refreshWorkAccounting hcoherent.workKey] at hrecord
    split at hrecord
    · obtain ⟨before, -, rfl⟩ := Option.map_eq_some_iff.mp hrecord
      exact .inr (before.requeued_recounted impl)
    · next hne =>
      refine (h id record hrecord).imp_left fun hmem => ?_
      exact (List.mem_cons.mp hmem).resolve_left (Ne.symm hne)

theorem Deed.requeues {ctx : Context} {event : Event} {stale stale' : Set AgentId}
    (hdeed : Deed ctx event (stale, impl) (stale', impl')) (hconsistent : Consistent impl) (h : impl.Requeues) :
    impl'.Requeues := by
  cases hdeed with
  | quiet _ hessence _ =>
    have hwork := congrArg Impl.work hessence
    exact h.of_work hwork
  | govern _ htables _ =>
    have hwork := congrArg Impl.work htables
    exact h.of_work hwork
  | close id record state reason detail hrecord hopen hterminal =>
    rw [closeAssignment_eq hrecord hopen]
    have hwork : (refreshAgentAccounting (unslotted impl id record (record.close ctx.now state reason detail))
        record.binding.agent).work = impl.work := work_refreshAgentAccounting _ _
    exact (h.of_work hwork).refreshWork (hwork ▸ hconsistent.workKey) record.binding.work
  | fence =>
    refine h.of_work ?_
    unfold fenceBoot
    split <;> rfl
  | touch => exact h.of_work rfl
  | refresh agent =>
    refine h.of_work ?_
    have hindex : ∀ impl : Impl, (indexStoredAgent impl agent).work = impl.work := by
      intro impl
      unfold indexStoredAgent
      split <;> rfl
    exact (hindex _).trans (work_refreshAgentAccounting _ _)
  | recount agent => exact h.of_work (work_refreshAgentAccounting impl agent)
  | note => exact h.of_work rfl
  | enroll => exact h.of_work rfl
  | reincarnate => exact h.of_work rfl
  | accept work record _ hlifecycle _ _ =>
    exact h.setWork fun _ => .inr (by rw [hlifecycle]; rfl)
  | reopen work record _ hlifecycle _ _ =>
    have hdeindexed : (deindexWork impl work).Requeues := h.of_work rfl
    exact hdeindexed.setWork fun _ => .inr (by rw [hlifecycle]; rfl)
  | settle work record lifecycle reason _ hterminal => exact h.setWork fun _ => .inl hterminal
  | tally work record record' hrecord hgist =>
    obtain ⟨-, hlifecycle, hcurrent⟩ := WorkRecord.read_of_gist hgist
    refine h.setWork ?_
    unfold WorkRecord.Requeued
    rw [hlifecycle, hcurrent]
    exact h work record hrecord
  | refreshWork work => exact h.refreshWork hconsistent.workKey work
  | commit generation binding work hcheck =>
    have hwork := (commitCheck_ok.mp hcheck).2.1
    rw [commitApply_eq hwork]
    have hslotted : (slotted impl work binding).Requeues := by
      intro id record hrecord
      rw [work_slotted] at hrecord
      split at hrecord
      · rw [← Option.some.inj hrecord]
        exact h binding.work work hwork
      · exact h id record hrecord
    exact (hslotted.refreshWork (coherent_slotted hconsistent hwork).workKey binding.work).of_work
      (work_refreshAgentAccounting _ _)
  | advance => exact h.of_work rfl

theorem requeues_restore {file : Impl} (h : Consistent file) : (restore impl (image file)).Requeues := by
  let rebuilt := rebuildIndexes (install impl (image file))
  let counted := rebuilt.agents.keys.foldl refreshAgentAccounting rebuilt
  have hcoherent : Coherent Set.univ rebuilt := coherent_install _ h
  have hrefreshed : (counted.work.keys.foldl refreshWorkAccounting counted).Requeues := by
    refine requeues_refreshWorks (hcoherent.refreshAgents rebuilt.agents.keys).1 _ fun id record hrecord => .inl ?_
    exact ExtTreeMap.mem_keys.mpr (ExtTreeMap.mem_iff_isSome_getElem?.mpr (by rw [hrecord]; rfl))
  exact hrefreshed.of_work rfl

/-- In every reachable state work without a slot is terminal or waits to be assigned. -/
theorem System.Reachable.requeues {system : System} (h : system.Reachable) : system.impl.Requeues := by
  have hconstruct : ∀ {options : SchedulerOptions} {generatedId : SchedulerId} {impl : Impl},
      construct options generatedId = some impl → impl.Requeues := by
    intro options generatedId impl hconstruct id record hrecord
    have hnone := (construct_spec hconstruct).2.1 id
    change (impl.work[id]?).map WorkRecord.entry = none at hnone
    rw [hrecord] at hnone
    cases hnone
  refine System.ReachableBy.keeps (motive := fun system => system.impl.Requeues) h (fun start hstart => ?_)
    fun system after label reply hvalid _ hstep hrequeues => ?_
  · obtain ⟨options, generatedId, now, hstart⟩ := hstart
    obtain ⟨impl, himpl, rfl⟩ := Option.map_eq_some_iff.mp hstart
    exact hconstruct himpl
  · rcases System.step_deeds hvalid hstep with ⟨position, file, -, hfile, -, himpl⟩ | ⟨options, id, -, himpl⟩ | hdeeds
    · rw [himpl]
      exact requeues_restore (hvalid.saved file (List.mem_of_getElem? hfile)).consistent
    · exact hconstruct himpl
    · exact Deeds.keeps (motive := fun scene => scene.2.Requeues) hdeeds
        (fun event scene scene' _ hdeed hconsistent hrequeues => hdeed.requeues hconsistent hrequeues)
        hvalid.healthy.consistent hrequeues

end Requeues

end AgentScheduler
