import AgentScheduler.CommitRefinement

/-! What happens to an assignment after its commit moves authority. -/
namespace AgentScheduler
open Std KeyedTable Relation

section
variable {gate : Gate} {impl : Impl}

/-! ### Changes of one stored assignment -/

theorem Quiet.renewLease (impl : Impl) (lease : LeaseId) (expiresAtMs : UInt64) :
    Quiet impl (renewLease impl lease expiresAtMs) := fun h => ⟨h.renewLease lease expiresAtMs, rfl⟩

theorem advance_refines {id : AssignmentId} {before after : AssignmentRecord}
    (hbefore : impl.assignments[id]? = some before) (hlive : before.state.isLive) (hstays : after.state.isLive)
    (hleaves : after.state ≠ .assigned) (hlease : after.leaseCurrent = before.leaseCurrent ∨ after.leaseCurrent)
    (hbinding : SameBinding before after) : Refines gate impl (impl.setAssignment id after) := by
  refine Refines.single fun h => ⟨?_, ?_⟩
  · exact h.setAssignment hbefore (AssignmentState.isActive_of_isLive hlive) (AssignmentState.isActive_of_isLive hstays)
      hbinding
  · rw [ledger_setAssignment]
    exact .advance id before after hbefore hlive hstays hleaves hlease hbinding

/-- Indexing an active record that is stored adds nothing to the exact indexes. -/
theorem Quiet.indexAssignment {id : AssignmentId} {record : AssignmentRecord}
    (hstored : impl.assignments[id]? = some record) : Quiet impl (indexAssignment impl record) := by
  intro h
  have hkey : record.binding.id = id := h.assignmentKey id record hstored
  unfold AgentScheduler.indexAssignment
  by_cases hactive : record.state.isActive
  · simp only [hactive, Bool.not_true, Bool.false_eq_true, if_false]
    refine ⟨⟨h.agentKey, h.agentBoot, h.workKey, h.assignmentKey, h.assignmentState, h.leaseKey, h.queueKey,
      h.tenantKey, h.fencedKey, fun work member => ?_, fun agent member => ?_, h.current, h.admitted, h.unknown⟩, rfl⟩
    · rw [mem_indexIds_insert, h.workIndex]
      constructor
      · rintro (⟨hwork, rfl⟩ | hmem)
        · exact ⟨record, by rw [hkey]; exact hstored, hactive, hwork⟩
        · exact hmem
      · exact .inr
    · rw [mem_indexIds_insert, h.agentIndex]
      constructor
      · rintro (⟨hagent, rfl⟩ | hmem)
        · exact ⟨record, by rw [hkey]; exact hstored, hactive, hagent⟩
        · exact hmem
      · exact .inr
  · rw [if_pos (by simpa using hactive)]
    exact ⟨h, rfl⟩

/-! ### Dispatch and observations -/

theorem handoffCheck_ok {ctx : Context} {id : AssignmentId} {generation : AssignmentGeneration}
    {record : AssignmentRecord} (h : handoffCheck ctx impl id generation = .ok record) :
    impl.assignments[id]? = some record ∧ record.binding.generation = generation ∧ record.state = .assigned ∧
      revalidateAuthority ctx impl record = .ok () := by
  unfold handoffCheck at h
  simp only [except_bind_eq_ok, lookupOrRefuse_eq_ok, refuseIf_eq_ok] at h
  obtain ⟨found, hfound, _, hgeneration, _, hstate, _, hauthority, hreturn⟩ := h
  obtain rfl : found = record := Except.ok.inj hreturn
  exact ⟨hfound, by simpa using hgeneration, by simpa using hstate, hauthority⟩

theorem dispatchCommit_refines (ctx : Context) (impl : Impl) (id : AssignmentId) (generation : AssignmentGeneration) :
    Refines gate impl (dispatchCommit ctx impl id generation).2 := by
  unfold dispatchCommit
  cases hcheck : handoffCheck ctx impl id generation with
  | error rejection => exact Refines.refl impl
  | ok record =>
    obtain ⟨hrecord, -, hstate, -⟩ := handoffCheck_ok hcheck
    have hhanded : Refines gate impl
        (impl.setAssignment id (record.handOff ctx.now impl.policy.assignmentLeaseTtlMs)) := by
      refine advance_refines hrecord ?_ rfl nofun (.inr rfl) rfl
      rw [hstate]
      rfl
    exact (hhanded.quiet (Quiet.renewLease _ _ _)).quiet (Quiet.of_core (core_revise _))

theorem lookupAssignment_stored {id : AssignmentId} {generation : AssignmentGeneration} {boot : AgentBootId}
    {record : AssignmentRecord} (h : lookupAssignment impl id generation boot = .ok record) :
    impl.assignments[id]? = some record := by
  unfold lookupAssignment at h
  simp only [except_bind_eq_ok, lookupOrRefuse_eq_ok] at h
  obtain ⟨found, hfound, -, -, -, -, -, -, agent, -, -, -, hreturn⟩ := h
  obtain rfl : found = record := Except.ok.inj hreturn
  exact hfound

/-- An observation moves authority when its body does for every stored record. -/
theorem observing_refines {operation : Text} {id : AssignmentId} {generation : AssignmentGeneration}
    {boot : AgentBootId} {body : AssignmentRecord → Step}
    (hbody : ∀ record, impl.assignments[id]? = some record → Refines gate impl (body record).2) :
    Refines gate impl (observing impl operation id generation boot body).2 := by
  unfold observing
  cases hlookup : lookupAssignment impl id generation boot with
  | error problem => exact Refines.refl impl
  | ok record => exact hbody record (lookupAssignment_stored hlookup)

theorem acknowledge_refines (now : UInt64) (impl : Impl) (id : AssignmentId) (generation : AssignmentGeneration)
    (dispatchId : DispatchId) (dispatchGeneration : DispatchGeneration) (boot : AgentBootId) :
    Refines gate impl (acknowledge now impl id generation dispatchId dispatchGeneration boot).2 := by
  refine observing_refines fun record hrecord => ?_
  split
  · exact Refines.refl impl
  · split
    · exact Refines.refl impl
    · split
      · exact Refines.refl impl
      · split
        · exact Refines.refl impl
        · next hdispatched =>
          split
          · exact Refines.closeAssignment impl rfl
          · have hstate : record.state = .dispatched := by simpa using hdispatched
            have hlive : record.state.isLive := by
              rw [hstate]
              rfl
            have hacknowledged : Refines gate impl
                (impl.setAssignment id { record with state := .acknowledged, acknowledgedAtMs := now }) :=
              advance_refines hrecord hlive rfl nofun (.inl rfl) rfl
            exact hacknowledged.quiet (Quiet.of_core (core_revise _))

theorem markExecuting_refines (now : UInt64) (impl : Impl) (id : AssignmentId) (generation : AssignmentGeneration)
    (boot : AgentBootId) : Refines gate impl (markExecuting now impl id generation boot).2 := by
  refine observing_refines fun record hrecord => ?_
  split
  · exact Refines.refl impl
  · split
    · exact Refines.refl impl
    · next hawaits =>
      split
      · exact Refines.closeAssignment impl rfl
      · have hlive : record.state.isLive := by
          cases hstate : record.state <;> simp_all [AssignmentState.isLive]
        have hexecuting : Refines gate impl (impl.setAssignment id { record with state := .executing }) :=
          advance_refines hrecord hlive rfl nofun (.inl rfl) rfl
        exact (hexecuting.quiet (Quiet.refreshWorkAccounting _ _)).quiet (Quiet.of_core (core_revise _))

theorem release_refines (now : UInt64) (impl : Impl) (id : AssignmentId) (generation : AssignmentGeneration)
    (boot : AgentBootId) (reason : Text) : Refines gate impl (release now impl id generation boot reason).2 := by
  refine observing_refines fun record _ => ?_
  split
  · exact Refines.refl impl
  · exact (Refines.closeAssignment impl rfl).quiet (Quiet.refreshAgentAccounting _ _)

/-! ### Outcomes -/

theorem Quiet.countOutcome (agent : AgentId) (count : AgentRecord → AgentRecord)
    (hdescriptor : ∀ record, (count record).descriptor.id = record.descriptor.id)
    (hentry : ∀ record, (count record).entry = record.entry) : Quiet impl (countOutcome impl agent count) :=
  (Quiet.modifyAgent hdescriptor hentry).trans (Quiet.refreshAgentAccounting _ agent)

theorem Quiet.modifyQueue (queue : QueueId) (update : QueueRecord → QueueRecord)
    (hupdate : ∀ record, (update record).id = record.id) : Quiet impl (modifyQueue impl queue update) :=
  fun h => ⟨h.withQueues (h.queueKey.modify hupdate), rfl⟩

theorem Quiet.releaseTenant (impl : Impl) (work : WorkId) : Quiet impl (releaseTenant impl work) := by
  unfold AgentScheduler.releaseTenant
  split
  · exact Quiet.refl impl
  · exact fun h => ⟨h.withTenants (h.tenantKey.modify fun _ => rfl), rfl⟩

theorem settleIfIdle_refines (lifecycle : WorkLifecycle) (impl : Impl) (work : WorkId) (reason : Text)
    (hlifecycle : lifecycle.isTerminal) (hsettles : ∀ entry, gate.settles entry lifecycle) :
    Refines gate impl (settleIfIdle impl work lifecycle reason) := by
  unfold settleIfIdle
  cases hwork : impl.work[work]? with
  | none => exact Refines.refl impl
  | some record =>
    simp only
    split
    · next hidle =>
      let settled : WorkRecord := { record with lifecycle := lifecycle, reason := reason }
      have hsettled : Refines gate impl (impl.setWork work settled) := by
        refine Refines.single fun h => ?_
        have hcurrent := h.current work record (fun hmem => hmem) hwork
        refine ⟨h.setWork (h.workKey work record hwork) (fun _ => hcurrent) fun _ _ => hidle, ?_⟩
        rw [ledger_setWork]
        have hentry : settled.entry = { record.entry with settled := some lifecycle } := by
          simp [settled, WorkRecord.entry, hlifecycle]
        rw [hentry]
        refine .settle work record.entry lifecycle hlifecycle (by simp [Impl.ledger, hwork]) ?_ (hsettles _)
        rw [hidle] at hcurrent
        exact Set.encard_eq_zero.mp hcurrent
      exact hsettled.quiet (Quiet.of_core (core_syncWorkLifecycleIndex _ _ _))
    · exact Refines.refl impl

theorem completeAssignment_refines {now : UInt64} (hpermits : gate.Permits now) (impl : Impl) (id : AssignmentId)
    (generation : AssignmentGeneration) (boot : AgentBootId) :
    Refines gate impl (completeAssignment now impl id generation boot).2 := by
  refine observing_refines fun record _ => ?_
  split
  · exact Refines.refl impl
  · let count (agent : AgentRecord) : AgentRecord :=
      { agent with assignmentsCompleted := agent.assignmentsCompleted + 1 }
    let tally (queue : QueueRecord) : QueueRecord := { queue with completedCount := queue.completedCount + 1 }
    have hclosed : Refines gate impl
        (closeAssignment now impl id .completed .workCompleted "assignment completed") :=
      Refines.closeAssignment impl rfl
    have hcounted := hclosed.quiet (Quiet.countOutcome record.binding.agent count
      (fun _ => rfl) fun _ => rfl)
    have hsettled := hcounted.trans (settleIfIdle_refines .completed _ record.binding.work
      "completed" rfl fun entry => hpermits entry .completed nofun)
    have hqueued := hsettled.quiet (Quiet.modifyQueue record.binding.queue tally fun _ => rfl)
    exact (hqueued.quiet (Quiet.releaseTenant _ _)).quiet (Quiet.of_core (core_revise _))

theorem failAssignment_refines {now : UInt64} (hpermits : gate.Permits now) (impl : Impl) (id : AssignmentId)
    (generation : AssignmentGeneration) (boot : AgentBootId) (reason : Text) :
    Refines gate impl (failAssignment now impl id generation boot reason).2 := by
  refine observing_refines fun record _ => ?_
  split
  · exact Refines.refl impl
  · let count (agent : AgentRecord) : AgentRecord := { agent with assignmentsFailed := agent.assignmentsFailed + 1 }
    let tally (queue : QueueRecord) : QueueRecord := { queue with cancelledCount := queue.cancelledCount + 1 }
    have hclosed : Refines gate impl
        (closeAssignment now impl id .failed .workFailed (reasonOr reason "failed")) :=
      Refines.closeAssignment impl rfl
    have hcounted := hclosed.quiet (Quiet.countOutcome record.binding.agent count
      (fun _ => rfl) fun _ => rfl)
    have hsettled := hcounted.trans (settleIfIdle_refines .failed _ record.binding.work
      "failed" rfl fun entry => hpermits entry .failed nofun)
    have hqueued := hsettled.quiet (Quiet.modifyQueue record.binding.queue tally fun _ => rfl)
    exact (hqueued.quiet (Quiet.releaseTenant _ _)).quiet (Quiet.of_core (core_revise _))

theorem rejectAssignment_refines (now : UInt64) (impl : Impl) (id : AssignmentId) (generation : AssignmentGeneration)
    (boot : AgentBootId) (reason : Text) :
    Refines gate impl (rejectAssignment now impl id generation boot reason).2 := by
  refine observing_refines fun record _ => ?_
  split
  · exact Refines.refl impl
  · let tally (queue : QueueRecord) : QueueRecord := { queue with cancelledCount := queue.cancelledCount + 1 }
    have hclosed : Refines gate impl
        (closeAssignment now impl id .invalidated .rejected (reasonOr reason "rejected by agent")) :=
      Refines.closeAssignment impl rfl
    have hqueued := hclosed.quiet (Quiet.modifyQueue record.binding.queue tally fun _ => rfl)
    exact (hqueued.quiet (Quiet.releaseTenant _ _)).quiet (Quiet.of_core (core_revise _))

/-! ### Revalidation -/

/-- What revalidated authority says about the ledger. -/
theorem revalidateAuthority_current {ctx : Context} {record : AssignmentRecord}
    (h : revalidateAuthority ctx impl record = .ok ()) :
    record.binding.schedulerEpoch = impl.ledger.epoch ∧
      ∃ agent, impl.ledger.agents record.binding.agent = some agent ∧
        agent.capabilityGeneration = record.binding.capabilityGeneration := by
  unfold revalidateAuthority at h
  simp only [except_bind_eq_ok, lookupOrRefuse_eq_ok] at h
  obtain ⟨_, hscheduler, work, -, _, -, agent, hagent, _, hrevalidated, -⟩ := h
  unfold revalidateScheduler at hscheduler
  unfold revalidateAgent at hrevalidated
  simp only [check_bind_eq_ok, refuseIf_eq_ok] at hscheduler hrevalidated
  obtain ⟨-, hepoch, -⟩ := hscheduler
  obtain ⟨-, -, -, -, -, hcapability⟩ := hrevalidated
  simp only [not_or, not_not, ne_eq] at hepoch hcapability
  exact ⟨hepoch.2, agent.entry, by simp [Impl.ledger, hagent], hcapability.1⟩

theorem promoteAssignment_refines {ctx : Context} {id : AssignmentId} {record : AssignmentRecord}
    (hrecord : impl.assignments[id]? = some record) (hstate : record.state = .revalidationRequired)
    (hauthority : revalidateAuthority ctx impl record = .ok ()) :
    Refines gate impl (promoteAssignment ctx.now impl id record) := by
  obtain ⟨hepoch, agent, hagent, hcapability⟩ := revalidateAuthority_current hauthority
  let promoted := record.promote ctx.now impl.policy.assignmentLeaseTtlMs
  have hpromoted : Refines gate impl (impl.setAssignment id promoted) := by
    refine Refines.single fun h => ⟨?_, ?_⟩
    · refine h.setAssignment hrecord ?_ rfl rfl
      rw [hstate]
      rfl
    · rw [ledger_setAssignment]
      exact .promote id record _ _ agent hrecord hstate hepoch hagent hcapability
  have hstored : (renewLease (impl.setAssignment id promoted) record.binding.lease
      promoted.binding.leaseExpiresAtMs).assignments[id]? = some promoted := by
    change (impl.assignments.insert id promoted)[id]? = some promoted
    rw [KeyedTable.getElem?_insert, if_pos rfl]
  have hindexed := (hpromoted.quiet (Quiet.renewLease _ record.binding.lease promoted.binding.leaseExpiresAtMs)).quiet
    (Quiet.indexAssignment hstored)
  exact (hindexed.quiet (Quiet.refreshWorkAccounting _ _)).quiet (Quiet.refreshAgentAccounting _ _)

theorem revalidateOne_refines (ctx : Context) (acc : RevalidationReport × Impl) (id : AssignmentId) :
    Refines gate acc.2 (revalidateOne ctx acc id).2 := by
  unfold revalidateOne
  obtain ⟨report, impl⟩ := acc
  cases hrecord : impl.assignments[id]? with
  | none => simpa [hrecord] using Refines.refl impl
  | some record =>
    simp only [hrecord]
    split
    · exact Refines.refl impl
    · next hwaits =>
      have hstate : record.state = .revalidationRequired := by simpa using hwaits
      cases hauthority : revalidateAuthority ctx impl record with
      | error rejection => exact Refines.closeAssignment impl rfl
      | ok _ =>
        cases hagent : impl.agents[record.binding.agent]? with
        | none => exact Refines.closeAssignment impl rfl
        | some agent =>
          simp only
          split
          · exact Refines.closeAssignment impl rfl
          · split
            · exact Refines.closeAssignment impl rfl
            · exact promoteAssignment_refines hrecord hstate hauthority

theorem revalidateAgentOne_refines (ctx : Context) (agent : AgentId) (boot : AgentBootId)
    (acc : RevalidationReport × Impl) (id : AssignmentId) :
    Refines gate acc.2 (revalidateAgentOne ctx agent boot acc id).2 := by
  unfold revalidateAgentOne
  obtain ⟨report, impl⟩ := acc
  cases hrecord : impl.assignments[id]? with
  | none => simpa [hrecord] using Refines.refl impl
  | some record =>
    simp only [hrecord]
    split
    · exact Refines.refl impl
    · next hwaits =>
      have hstate : record.state = .revalidationRequired := by
        simp only [not_or, not_not, ne_eq] at hwaits
        exact hwaits.2.2
      cases hauthority : revalidateAuthority ctx impl record with
      | error rejection => exact Refines.closeAssignment impl rfl
      | ok _ => exact promoteAssignment_refines hrecord hstate hauthority

/-- A revalidation pass moves authority when each of its turns does. -/
private theorem revalidation_refines {turn : RevalidationReport × Impl → AssignmentId → RevalidationReport × Impl}
    (hturn : ∀ acc id, Refines gate acc.2 (turn acc id).2) (impl : Impl) (ids : List AssignmentId) :
    Refines gate impl (reviseIfExamined (ids.foldl turn ({}, impl))).2 := by
  have hloop : Refines gate impl (ids.foldl turn ({}, impl)).2 :=
    List.foldlRecOn (motive := fun acc : RevalidationReport × Impl => Refines gate impl acc.2) ids _
      (Refines.refl impl) fun acc hacc id _ => hacc.trans (hturn acc id)
  unfold reviseIfExamined
  simp only
  split
  · exact hloop.quiet (Quiet.of_core (core_revise _))
  · exact hloop

theorem revalidateAssignments_refines (ctx : Context) (impl : Impl) :
    Refines gate impl (revalidateAssignments ctx impl).2 :=
  revalidation_refines (revalidateOne_refines ctx) impl _

theorem revalidateAgentAssignments_refines (ctx : Context) (impl : Impl) (agent : AgentId) (boot : AgentBootId) :
    Refines gate impl (revalidateAgentAssignments ctx impl agent boot).2 := by
  unfold revalidateAgentAssignments
  split
  · exact Refines.refl impl
  · split
    · exact Refines.refl impl
    · exact revalidation_refines (revalidateAgentOne_refines ctx agent boot) impl _

theorem expireLeases_refines (now : UInt64) (impl : Impl) : Refines gate impl (expireLeases now impl).2 := by
  refine Refines.closeWhere impl rfl fun record hselected => ?_
  simp only [Bool.and_eq_true] at hselected
  exact hselected.1

end

end AgentScheduler
