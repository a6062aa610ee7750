import AgentScheduler.Tidiness

/-! What a deed does to one agent, to one assignment, and to the fences. -/
namespace AgentScheduler
open Std KeyedTable Relation

section Agents
variable {ctx : Context} {event : Event} {stale stale' : Set AgentId} {impl impl' : Impl} {agent other : AgentId}

/-- Every stored record of an agent keeps what a stored record has shown before. -/
def Impl.KeepsAgent (impl impl' : Impl) (agent : AgentId) : Prop :=
  ∀ record', impl'.agents[agent]? = some record' → ∃ record, impl.agents[agent]? = some record ∧ record.Keeps record'

theorem Impl.KeepsAgent.of_agents (h : impl'.agents = impl.agents) : impl.KeepsAgent impl' agent := by
  intro record hrecord
  exact ⟨record, h ▸ hrecord, .refl record⟩

theorem Impl.KeepsAgent.trans {impl'' : Impl} (h : impl.KeepsAgent impl' agent) (h' : impl'.KeepsAgent impl'' agent) :
    impl.KeepsAgent impl'' agent := by
  intro third hthird
  obtain ⟨second, hsecond, hlater⟩ := h' third hthird
  obtain ⟨first, hfirst, hearlier⟩ := h second hsecond
  exact ⟨first, hfirst, hearlier.trans hlater⟩

theorem Impl.KeepsAgent.refreshAgentAccounting
    (hkey : Keyed (fun record : AgentRecord => record.descriptor.id) impl.agents) :
    impl.KeepsAgent (refreshAgentAccounting impl other) agent := by
  intro record' hrecord'
  rw [agents_refreshAgentAccounting _ _ _ hkey] at hrecord'
  split at hrecord'
  · obtain ⟨record, hrecord, rfl⟩ := Option.map_eq_some_iff.mp hrecord'
    exact ⟨record, hrecord, record.keeps_recompute _⟩
  · exact ⟨record', hrecord', .refl record'⟩

theorem Impl.KeepsAgent.note {record record' : AgentRecord} (hrecord : impl.agents[other]? = some record)
    (hgist : record'.gist = record.gist) : impl.KeepsAgent (impl.setAgent other record') agent := by
  intro found hfound
  rw [getElem?_setAgent] at hfound
  split at hfound
  · next heq =>
    obtain rfl := Option.some.inj hfound
    exact ⟨record, heq ▸ hrecord, .of_gist hgist⟩
  · exact ⟨found, hfound, .refl found⟩

@[simp] theorem agents_refreshWorkAccounting (impl : Impl) (work : WorkId) :
    (refreshWorkAccounting impl work).agents = impl.agents := by
  have hfile := congrArg Impl.agents (agentFile_refreshWorkAccounting impl work)
  exact hfile

theorem agents_slotted (impl : Impl) (work : WorkRecord) (binding : AssignmentBinding) :
    (slotted impl work binding).agents = impl.agents := by
  unfold slotted indexStoredAssignment
  split
  · rfl
  · unfold indexAssignment
    split <;> rfl

theorem Impl.KeepsAgent.closeAssignment {now : UInt64} {id : AssignmentId} {record : AssignmentRecord}
    {state : AssignmentState} {reason : InvalidationReason} {detail : Text} (h : Consistent impl)
    (hrecord : impl.assignments[id]? = some record) (hopen : record.state.isTerminal = false) :
    impl.KeepsAgent (closeAssignment now impl id state reason detail) agent := by
  let freed := unslotted impl id record (record.close now state reason detail)
  let counted := AgentScheduler.refreshAgentAccounting freed record.binding.agent
  have hform : (AgentScheduler.closeAssignment now impl id state reason detail).agents =
      (refreshWorkAccounting counted record.binding.work).agents := by
    rw [closeAssignment_eq hrecord hopen]
    rfl
  let base := deindexAssignment (dropLease (impl.setAssignment id (record.close now state reason detail))
    record.binding.lease) (record.close now state reason detail)
  have hfreed : impl.KeepsAgent freed agent ∧
      Keyed (fun record : AgentRecord => record.descriptor.id) freed.agents := by
    change impl.KeepsAgent (base.modifyAgent record.binding.agent decayRecent) agent ∧
      Keyed _ (base.modifyAgent record.binding.agent decayRecent).agents
    have hgist : ∀ agent, (decayRecent agent).gist = agent.gist := fun agent => by
      unfold decayRecent
      split <;> rfl
    refine ⟨?_, h.agentKey.modify fun record => ?_⟩
    · cases hagent : base.agents[record.binding.agent]? with
      | none =>
        exact .of_agents (@modify_eq_self _ _ _ _ _ _ base.agents _ hagent decayRecent)
      | some stored =>
        rw [modifyAgent_eq_setAgent hagent]
        exact @Impl.KeepsAgent.note base _ _ _ _ hagent (hgist stored)
    · rw [AgentRecord.descriptor_of_gist (hgist record)]
  have hcounted : freed.KeepsAgent counted agent := Impl.KeepsAgent.refreshAgentAccounting hfreed.2
  refine (hfreed.1.trans hcounted).trans (.of_agents ?_)
  exact hform.trans (agents_refreshWorkAccounting counted record.binding.work)

/-- What a deed may have made of the stored record of an agent. -/
inductive AgentEffect (ctx : Context) (event : Event) (impl : Impl) (agent : AgentId) (record' : AgentRecord) : Prop
  | kept (record : AgentRecord) (hrecord : impl.agents[agent]? = some record) (hkeeps : record.Keeps record')
  | touched (record : AgentRecord) (touch : AgentEvent) (hevent : event = .touches agent touch)
      (hrecord : impl.agents[agent]? = some record) (hadmits : touch.Admits impl record)
      (hupdate : record' = touch.update ctx.now impl record)
  | enrolled (descriptor : AgentDescriptor) (reason : Text) (hevent : event = .enrolls descriptor)
      (hid : descriptor.id = agent) (hfresh : record' = freshAgent ctx.now impl descriptor reason)

/-- Every deed keeps an agent, touches it, or enrolls it. -/
theorem Deed.agentEffect (hdeed : Deed ctx event (stale, impl) (stale', impl')) (h : Consistent impl) {record' : AgentRecord}
    (hrecord' : impl'.agents[agent]? = some record') : AgentEffect ctx event impl agent record' := by
  have hkeeps : impl.KeepsAgent impl' agent → AgentEffect ctx event impl agent record' := fun hkept => by
    obtain ⟨record, hrecord, hkeeps⟩ := hkept record' hrecord'
    exact .kept record hrecord hkeeps
  cases hdeed with
  | quiet _ hessence _ =>
    have hagents := congrArg Impl.agents hessence
    exact hkeeps (.of_agents hagents)
  | govern _ htables _ =>
    have hagents := congrArg Impl.agents htables
    exact hkeeps (.of_agents hagents)
  | close id record state reason detail hrecord hopen _ => exact hkeeps (.closeAssignment h hrecord hopen)
  | fence =>
    refine hkeeps (.of_agents ?_)
    unfold fenceBoot
    split <;> rfl
  | touch touched record touch hrecord hadmits =>
    rw [getElem?_setAgent] at hrecord'
    split at hrecord'
    · next heq =>
      subst heq
      exact .touched record touch rfl hrecord hadmits (Option.some.inj hrecord').symm
    · exact .kept record' hrecord' (.refl record')
  | refresh refreshed =>
    refine hkeeps fun record hrecord => ?_
    rw [agents_refreshAgent h.agentKey] at hrecord
    exact Impl.KeepsAgent.refreshAgentAccounting h.agentKey record hrecord
  | recount => exact hkeeps (.refreshAgentAccounting h.agentKey)
  | note noted record noted' hrecord hgist _ => exact hkeeps (.note hrecord hgist)
  | enroll descriptor hboot hunknown hidle =>
    change (impl.setAgent descriptor.id (freshAgent ctx.now impl descriptor "registered")).agents[agent]? = some record'
      at hrecord'
    rw [getElem?_setAgent] at hrecord'
    split at hrecord'
    · next heq => exact .enrolled descriptor _ rfl heq (Option.some.inj hrecord').symm
    · exact .kept record' hrecord' (.refl record')
  | reincarnate descriptor existing hboot hexisting hnewer =>
    rw [getElem?_setAgent] at hrecord'
    split at hrecord'
    · next heq => exact .enrolled descriptor _ rfl heq (Option.some.inj hrecord').symm
    · exact .kept record' hrecord' (.refl record')
  | accept | reopen | settle | tally | advance => exact hkeeps (.of_agents rfl)
  | refreshWork work => exact hkeeps (.of_agents (agents_refreshWorkAccounting impl work))
  | commit generation binding work hcheck =>
    have hwork := (commits_of_check h hcheck).1
    have hslotted := agents_slotted impl work binding
    let counted := refreshWorkAccounting (slotted impl work binding) binding.work
    have hcounted : counted.agents = impl.agents := (agents_refreshWorkAccounting _ _).trans hslotted
    have hform : (commitApply impl binding.work work binding).agents = (refreshAgentAccounting counted binding.agent).agents := by
      rw [commitApply_eq hwork]
      rfl
    have hagain : counted.KeepsAgent (refreshAgentAccounting counted binding.agent) agent :=
      Impl.KeepsAgent.refreshAgentAccounting (hcounted ▸ h.agentKey)
    exact hkeeps (((Impl.KeepsAgent.of_agents hcounted).trans hagain).trans (.of_agents hform))

end Agents

section Assignments
variable {ctx : Context} {event : Event} {stale stale' : Set AgentId} {impl impl' : Impl} {id : AssignmentId}

/-- Refreshing an agent leaves assignments and fences alone. -/
theorem rest_refreshAgent (impl : Impl) (agent : AgentId) :
    (refreshAgent impl agent).assignments = impl.assignments ∧ (refreshAgent impl agent).fencedBoots = impl.fencedBoots := by
  unfold refreshAgent indexStoredAgent refreshAgentAccounting
  split
  · split <;> exact ⟨rfl, rfl⟩
  · split <;> exact ⟨rfl, rfl⟩

/-- What a deed may have made of a stored assignment, or from what it made it. -/
inductive SlotEffect (event : Event) (impl : Impl) (id : AssignmentId) (record' : AssignmentRecord) : Prop
  | kept (record : AssignmentRecord) (hrecord : impl.assignments[id]? = some record) (hbinding : SameBinding record record')
      (hactive : record'.state.isActive = record.state.isActive)
  | closed (record : AssignmentRecord) (hevent : event = .closes record) (hrecord : impl.assignments[id]? = some record)
      (hbinding : SameBinding record record') (hactive : record'.state.isActive = false)
  | committed (binding : AssignmentBinding) (hevent : event = .commits binding) (hid : binding.id = id)
      (hnone : impl.assignments[id]? = none) (hrecord : record' = binding.record)
      (hfenced : bootIsFenced impl binding.boot = false)

/-- A commit finds its agent under the bound incarnation, which is not fenced. -/
theorem commitCheck_unfenced {workId : WorkId} {generation : WorkGeneration} {binding : AssignmentBinding} {work : WorkRecord}
    (h : commitCheck ctx impl workId generation binding = .ok work) : bootIsFenced impl binding.boot = false := by
  unfold commitCheck at h
  simp only [except_bind_eq_ok, lookupOrRefuse_eq_ok] at h
  obtain ⟨_, -, _, -, _, -, agent, -, _, hagent, -⟩ := h
  unfold commitAgent at hagent
  simp only [check_bind_eq_ok, refuseIf_eq_ok, Bool.not_eq_true] at hagent
  exact hagent.2.2.1

/-- Every deed keeps a stored assignment, closes it, or commits it. -/
theorem Deed.slotEffect (hdeed : Deed ctx event (stale, impl) (stale', impl')) (h : Consistent impl) {record' : AssignmentRecord}
    (hrecord' : impl'.assignments[id]? = some record') : SlotEffect event impl id record' := by
  have hkept : impl'.assignments = impl.assignments → SlotEffect event impl id record' := fun heq =>
    .kept record' (heq ▸ hrecord') rfl rfl
  cases hdeed with
  | quiet _ hessence _ =>
    have hassignments := congrArg Impl.assignments hessence
    exact hkept hassignments
  | govern _ htables _ =>
    have hassignments := congrArg Impl.assignments htables
    exact hkept hassignments
  | close closed record state reason detail hrecord hopen hterminal =>
    have hactive : record.state.isActive := (h.assignmentState closed record hrecord).resolve_right (by simp [hopen])
    have hledger := congrArg (fun ledger => ledger.assignments id)
      (ledger_closeAssignment closed ctx.now _ reason detail h hterminal)
    have hledger : (closeAssignment ctx.now impl closed state reason detail).assignments[id]? =
        (impl.assignments[id]?).map (closing (closesOnly closed) ctx.now state reason detail) := hledger
    rw [hledger] at hrecord'
    obtain ⟨before, hbefore, rfl⟩ := Option.map_eq_some_iff.mp hrecord'
    by_cases heq : id = closed
    · subst heq
      obtain rfl := Option.some.inj (hrecord.symm.trans hbefore)
      have hselected : closesOnly id record := by
        simpa [closesOnly, hactive] using h.assignmentKey id record hrecord
      rw [closing, if_pos hselected]
      exact .closed record rfl hrecord rfl (AssignmentState.not_isActive_of_isTerminal hterminal)
    · have hselected : ¬closesOnly closed before := by
        have hid : before.binding.id = id := h.assignmentKey id before hbefore
        simp [closesOnly, hid, heq]
      rw [closing, if_neg hselected]
      exact .kept before hbefore rfl rfl
  | fence =>
    refine hkept ?_
    unfold fenceBoot
    split <;> rfl
  | touch | note | enroll | reincarnate | accept | reopen | settle | tally => exact hkept rfl
  | refresh agent => exact hkept (rest_refreshAgent impl agent).1
  | recount agent =>
    have hassignments := congrArg Impl.assignments (slots_refreshAgentAccounting impl agent)
    exact hkept hassignments
  | refreshWork work =>
    have hassignments := congrArg Impl.assignments (slots_refreshWorkAccounting impl work)
    exact hkept hassignments
  | commit generation binding work hcheck =>
    have hledger := congrArg (fun ledger => ledger.assignments id) (commitApply_spec h hcheck).2
    have hledger : (commitApply impl binding.work work binding).assignments[id]? =
        if id = binding.id then some ((impl.assignments[id]?).getD binding.record) else impl.assignments[id]? := hledger
    rw [hledger] at hrecord'
    split at hrecord'
    · next heq =>
      cases hstored : impl.assignments[id]? with
      | none =>
        rw [hstored] at hrecord'
        exact .committed binding rfl heq.symm hstored (Option.some.inj hrecord').symm (commitCheck_unfenced hcheck)
      | some stored =>
        rw [hstored] at hrecord'
        obtain rfl := Option.some.inj hrecord'
        exact .kept stored hstored rfl rfl
    · exact .kept record' hrecord' rfl rfl
  | advance advanced before after hbefore hwas hactive hbinding =>
    have hstored : (impl.setAssignment advanced after).assignments[id]? = some record' := hrecord'
    change (impl.assignments.insert advanced after)[id]? = some record' at hstored
    rw [KeyedTable.getElem?_insert] at hstored
    split at hstored
    · next heq =>
      obtain rfl := Option.some.inj hstored
      exact .kept before (heq ▸ hbefore) hbinding (hactive.trans hwas.symm)
    · exact .kept record' hstored rfl rfl

end Assignments

section Fences
variable {ctx : Context} {event : Event} {stale stale' : Set AgentId} {impl impl' : Impl} {boot : AgentBootId}

theorem bootIsFenced_of_frame (h : impl'.frame = impl.frame) : bootIsFenced impl' boot = bootIsFenced impl boot := by
  have hfenced := congrArg (bootIsFenced · boot) h
  exact hfenced

/-- Fences only come by fencing, and stay. -/
theorem Deed.fenceEffect (hdeed : Deed ctx event (stale, impl) (stale', impl')) (h : Consistent impl) :
    (bootIsFenced impl boot → bootIsFenced impl' boot) ∧
      (bootIsFenced impl' boot → bootIsFenced impl boot ∨ (event = .fences boot ∧ boot ≠ 0)) := by
  have hkept : bootIsFenced impl' boot = bootIsFenced impl boot →
      (bootIsFenced impl boot → bootIsFenced impl' boot) ∧
        (bootIsFenced impl' boot → bootIsFenced impl boot ∨ (event = .fences boot ∧ boot ≠ 0)) := fun heq =>
    ⟨fun h => heq.trans h, fun h => .inl (heq.symm.trans h)⟩
  cases hdeed with
  | quiet _ hessence _ =>
    have hfenced := congrArg (bootIsFenced · boot) hessence
    exact hkept hfenced
  | govern _ htables _ =>
    have hfenced := congrArg (bootIsFenced · boot) htables
    exact hkept hfenced
  | close id record state reason detail => exact hkept (bootIsFenced_of_frame (frame_closeAssignment _ _ _ _ _ _))
  | fence agent fenced generation reason =>
    unfold fenceBoot
    split
    · exact ⟨id, .inl⟩
    · next hnew =>
      simp only [Bool.or_eq_true, not_or, Bool.not_eq_true] at hnew
      simp only [bootIsFenced, Impl.revise, ExtTreeMap.contains_insert, Bool.or_eq_true, beq_iff_eq]
      refine ⟨.inr, fun h => h.symm.imp_right fun heq => ?_⟩
      have heq : fenced = boot := Std.compare_eq_iff_eq.mp heq
      refine ⟨by rw [heq], ?_⟩
      rintro rfl
      rw [heq] at hnew
      cases hnew.1
  | touch | note | enroll | reincarnate | accept | reopen | settle | tally | advance => exact hkept rfl
  | refresh agent => exact hkept (congrArg (ExtTreeMap.contains · boot) (rest_refreshAgent impl agent).2)
  | recount agent => exact hkept (bootIsFenced_of_frame (frame_refreshAgentAccounting impl agent))
  | refreshWork work => exact hkept (bootIsFenced_of_frame (frame_refreshWorkAccounting impl work))
  | commit generation binding work hcheck =>
    have hframe : (slotted impl work binding).fencedBoots = impl.fencedBoots := by
      unfold slotted indexStoredAssignment
      split
      · rfl
      · unfold indexAssignment
        split <;> rfl
    let counted := refreshAgentAccounting (refreshWorkAccounting (slotted impl work binding) binding.work) binding.agent
    have hcounted : counted.frame = (slotted impl work binding).frame :=
      (frame_refreshAgentAccounting _ _).trans (frame_refreshWorkAccounting _ _)
    have hfenced : bootIsFenced counted boot = bootIsFenced impl boot :=
      (bootIsFenced_of_frame hcounted).trans (congrArg (ExtTreeMap.contains · boot) hframe)
    have hform : (commitApply impl binding.work work binding).fencedBoots = counted.fencedBoots := by
      rw [commitApply_eq (commits_of_check h hcheck).1]
      rfl
    exact hkept ((congrArg (ExtTreeMap.contains · boot) hform).trans hfenced)

end Fences

end AgentScheduler
