import AgentScheduler.AgentRefinement

/-! The operations on work move authority. -/
namespace AgentScheduler
open Std KeyedTable Relation

section
variable {gate : Gate} {impl : Impl}

/-- After closing a work item nothing active is bound to it, and the work entries are as before. -/
theorem closeWork_idle (work : WorkId) (now : UInt64) (state : AssignmentState) (reason : InvalidationReason)
    (detail : Text) (h : Consistent impl) (hterminal : state.isTerminal) :
    (closeWork now impl work state reason detail).ledger.activeFor work = ∅ ∧
      (closeWork now impl work state reason detail).ledger.works = impl.ledger.works := by
  have hledger := (closeWhere_spec (fun record => record.binding.work = work && record.state.isActive) now _ reason detail h hterminal
    fun record hselected => by
      simp only [Bool.and_eq_true] at hselected
      exact hselected.2).2
  unfold closeWork
  rw [hledger]
  refine ⟨closing_idle hterminal fun record hactive hbound => ?_, rfl⟩
  simp [hbound, hactive]

/-- A freshly admitted record is stored once nothing active is left of the work item. -/
private theorem admit_refines {work : WorkId} {record : WorkRecord} (hkey : record.request.id = work)
    (hshape : record.request.WellShaped) (hlifecycle : record.lifecycle = .admitted)
    (hcurrent : record.currentAssignments = 0)
    (hold : ∀ old, impl.ledger.works work = some old →
      old.request.generation < record.request.generation ∧ record.lastAssignmentGeneration = old.lastGeneration ∧
        impl.ledger.activeFor work = ∅) :
    Refines gate impl (impl.setWork work record) := by
  refine Refines.single fun h => ⟨?_, ?_⟩
  · have hidle : impl.ledger.activeFor work = ∅ := by
      cases hwork : impl.work[work]? with
      | none => exact h.unknown work hwork
      | some old => exact (hold old.entry (by simp [Impl.ledger, hwork])).2.2
    exact h.setWork hkey (fun _ => by rw [hidle, hcurrent, Set.encard_empty]; rfl) fun _ _ => hcurrent
  · rw [ledger_setWork]
    exact .accept work record.entry hshape (by simp [WorkRecord.entry, hlifecycle, WorkLifecycle.isTerminal]) hold

theorem replaceWork_refines (request : WorkRequest) {existing : WorkRecord} (now : UInt64) (reason : Text)
    (hexisting : impl.work[request.id]? = some existing) (hshape : request.WellShaped)
    (hnewer : existing.request.generation < request.generation) :
    Refines gate impl (replaceWork now impl request existing reason) := by
  refine Refines.given fun h => ?_
  let closed := closeWork now impl request.id .superseded .workSuperseded "work generation was superseded"
  let ready := (deindexWork closed request.id).takeSequence
  let record := admittedRecord now (deindexWork closed request.id) request reason existing.lastAssignmentGeneration
  obtain ⟨hidle, hworks⟩ := closeWork_idle request.id now .superseded .workSuperseded "work generation was superseded" h rfl
  have hready : Refines gate impl ready :=
    (Refines.closeWork impl rfl).quiet (Quiet.of_core rfl)
  have hadmitted : Refines gate ready (ready.setWork request.id record) := by
    refine admit_refines rfl hshape rfl rfl fun old hold => ?_
    have hentry : impl.ledger.works request.id = some existing.entry := by simp [Impl.ledger, hexisting]
    have hold : closed.ledger.works request.id = some old := hold
    rw [hworks, hentry] at hold
    rw [← Option.some.inj hold]
    exact ⟨hnewer, rfl, hidle⟩
  exact (hready.trans hadmitted).quiet (Quiet.of_core (core_indexWork _ _))

theorem ensureQueue_quiet {request : WorkRequest} {queued : Impl} (h : ensureQueue impl request = .ok queued) :
    Quiet impl queued := by
  unfold ensureQueue at h
  cases hqueue : impl.queues[request.queue]? with
  | none =>
    simp only [hqueue] at h
    split at h
    · cases h
    · obtain rfl := Except.ok.inj h
      exact fun hconsistent => ⟨hconsistent.withQueues (hconsistent.queueKey.insertIfNew rfl), rfl⟩
  | some queue =>
    simp only [hqueue] at h
    split at h
    · cases h
    · split at h
      · obtain rfl := Except.ok.inj h
        intro hconsistent
        have hkey : queue.id = request.queue := hconsistent.queueKey request.queue queue hqueue
        exact ⟨hconsistent.withQueues (hconsistent.queueKey.insert hkey), rfl⟩
      · obtain rfl := Except.ok.inj h
        exact Quiet.refl impl

theorem ensureTenant_quiet {tenant : TenantId} {ready : Impl} (h : ensureTenant impl tenant = .ok ready) :
    Quiet impl ready := by
  unfold ensureTenant at h
  split at h
  · obtain rfl := Except.ok.inj h
    exact Quiet.refl impl
  · split at h
    · obtain rfl := Except.ok.inj h
      exact Quiet.refl impl
    · split at h
      · cases h
      · obtain rfl := Except.ok.inj h
        exact fun hconsistent => ⟨hconsistent.withTenants (hconsistent.tenantKey.insertIfNew rfl), rfl⟩

private theorem withQueueAndTenant_refines {request : WorkRequest} {body : Impl → Impl}
    (hbody : ∀ ready, ready.ledger = impl.ledger → Refines gate ready (body ready)) :
    Refines gate impl (withQueueAndTenant impl request body).2 := by
  refine Refines.given fun h => ?_
  unfold withQueueAndTenant
  cases hqueue : ensureQueue impl request with
  | error error => exact Refines.refl impl
  | ok queued =>
    have hqueued := ensureQueue_quiet hqueue
    cases htenant : ensureTenant queued request.requirements.tenant with
    | error error => simpa [htenant] using hqueued.refines
    | ok ready =>
      have hready := hqueued.trans (ensureTenant_quiet htenant)
      simpa [htenant] using hready.refines.trans (hbody ready (hready h).2)

theorem countAdmission_quiet (impl : Impl) (request : WorkRequest) : Quiet impl (countAdmission impl request).revise := by
  intro h
  have hqueues := h.withQueues (h.queueKey.modify (k := request.queue)
    (f := fun queue => { queue with admittedCount := queue.admittedCount + 1 }) fun _ => rfl)
  have htenants := hqueues.withTenants (h.tenantKey.modify (k := request.requirements.tenant)
    (f := fun tenant => { tenant with admittedCount := tenant.admittedCount + 1 }) fun _ => rfl)
  exact ⟨htenants.of_core rfl, rfl⟩

/-- What a re-admission has passed. -/
theorem checkResubmission_reopen {canonical : WorkRequest} {existing : WorkRecord} {detail : Text}
    (h : checkResubmission canonical existing detail = .ok .reopen) :
    existing.request.generation < canonical.generation := by
  unfold checkResubmission at h
  simp only [check_bind_eq_ok, rejectIf_eq_ok] at h
  obtain ⟨hstale, h⟩ := h
  split at h
  · simp only [check_bind_eq_ok] at h
    cases h.2.2.2
  · next hne =>
    by_contra hnot
    exact hne (StrongId.eq_of_not_lt hstale hnot)

theorem submitWorkCommit_refines (now : UInt64) (impl : Impl) (request : WorkRequest)
    (hshape : request.canonicalize.WellShaped) : Refines gate impl (submitWorkCommit now impl request).2 := by
  refine Refines.guarded fun _ _ => ?_
  cases hwork : impl.work[request.canonicalize.id]? with
  | some existing =>
    simp only
    refine Refines.guarded fun decision hdecision => ?_
    cases decision with
    | unchanged => exact Refines.refl impl
    | reopen =>
      have hnewer := checkResubmission_reopen hdecision
      exact (replaceWork_refines _ now "re-admitted at a higher generation" hwork hshape hnewer).trans
        (withQueueAndTenant_refines fun ready _ => (countAdmission_quiet ready _).refines)
  | none =>
    simp only
    refine Refines.guarded fun _ _ => ?_
    let record := admittedRecord now impl request.canonicalize "admitted" 0
    refine (Quiet.of_core (core_takeSequence impl)).refines.trans
      (withQueueAndTenant_refines fun ready hready => ?_)
    have hadmitted : Refines gate ready (ready.setWork request.canonicalize.id record) := by
      refine admit_refines rfl hshape rfl rfl fun old hold => ?_
      rw [hready] at hold
      have hnone : impl.takeSequence.ledger.works request.canonicalize.id = none := by
        change impl.work[request.canonicalize.id]?.map _ = none
        rw [hwork, Option.map_none]
      rw [hnone] at hold
      cases hold
    exact (hadmitted.quiet (Quiet.of_core (core_indexWork _ _))).quiet (countAdmission_quiet _ _)

/-- Closing a work item and giving it a terminal lifecycle. -/
theorem settleWork_refines (work : WorkId) (state : AssignmentState) (lifecycle : WorkLifecycle) (now : UInt64)
    (impl : Impl) (reason : InvalidationReason) (detail workReason : Text) (hstate : state.isTerminal)
    (hlifecycle : lifecycle.isTerminal)
    (hsettles : ∀ entry, impl.ledger.works work = some entry → gate.settles entry lifecycle) :
    Refines gate impl (settleWork now impl work state reason detail lifecycle workReason) := by
  refine Refines.given fun h => ?_
  let closed := closeWork now impl work state reason detail
  obtain ⟨hidle, hworks⟩ := closeWork_idle work now _ reason detail h hstate
  have hclosed : Refines gate impl closed := Refines.closeWork impl hstate
  let settle (record : WorkRecord) : WorkRecord := { record with lifecycle := lifecycle, reason := workReason }
  have hsettled : Refines gate closed (closed.modifyWork work settle) := by
    cases hwork : closed.work[work]? with
    | none =>
      unfold Impl.modifyWork
      rw [modify_eq_self hwork]
      exact Refines.refl closed
    | some record =>
      rw [modifyWork_eq_setWork hwork]
      refine Refines.single fun hconsistent => ⟨?_, ?_⟩
      · have hcurrent := hconsistent.current work record (fun hmem => hmem) hwork
        refine hconsistent.setWork (hconsistent.workKey work record hwork) (fun _ => hcurrent) fun _ hadmitted => ?_
        have hadmitted : lifecycle = .admitted := hadmitted
        rw [hadmitted] at hlifecycle
        cases hlifecycle
      · rw [ledger_setWork]
        have hentry : (settle record).entry = { record.entry with settled := some lifecycle } := by
          simp [settle, WorkRecord.entry, hlifecycle]
        rw [hentry]
        have hstored : closed.ledger.works work = some record.entry := by simp [Impl.ledger, hwork]
        exact .settle work record.entry lifecycle hlifecycle hstored hidle (hsettles _ (hworks ▸ hstored))
  exact (hclosed.trans hsettled).quiet (Quiet.of_core (core_syncWorkLifecycleIndex _ _ _))

theorem cancelWorkCommit_refines {now : UInt64} (hpermits : gate.Permits now) (impl : Impl) (work : WorkId)
    (generation : WorkGeneration) (reason : Text) :
    Refines gate impl (cancelWorkCommit now impl work generation reason).2 := by
  refine Refines.guarded fun record _ => ?_
  split
  · exact Refines.refl impl
  · split
    · exact Refines.refl impl
    · have hsettled := settleWork_refines work .cancelled _ now impl .workCancelled reason
        (if reason.isEmpty then "cancelled" else reason) rfl rfl fun entry _ => hpermits entry .cancelled nofun
      exact hsettled.quiet (Quiet.of_core (core_revise _))

/-- What a supersession has passed. -/
theorem checkSupersession_ok {work : WorkId} {expectedGeneration : WorkGeneration} {replacement : WorkRequest}
    {record : WorkRecord} (h : checkSupersession impl work expectedGeneration replacement = .ok record) :
    replacement.id = work ∧ replacement.canonicalize.WellShaped ∧ impl.work[work]? = some record ∧
      record.request.generation < replacement.generation := by
  unfold checkSupersession at h
  simp only [except_bind_eq_ok, rejectIf_eq_ok, lookupOrFail_eq_ok] at h
  obtain ⟨-, hid, _, hvalid, found, hfound, -, hgeneration, -, hnewer, -, -, hrecord⟩ := h
  obtain rfl : found = record := Except.ok.inj hrecord
  refine ⟨by simpa using hid, WorkRequest.validate_wellShaped hvalid, hfound, ?_⟩
  have hgeneration : found.request.generation = expectedGeneration := by simpa using hgeneration
  rw [hgeneration]
  by_contra hnot
  exact hnewer (Nat.le_of_not_lt hnot)

theorem supersedeWork_refines (now : UInt64) (impl : Impl) (work : WorkId) (expectedGeneration : WorkGeneration)
    (replacement : WorkRequest) :
    Refines gate impl (supersedeWork now impl work expectedGeneration replacement).2 := by
  refine Refines.guarded fun record hcheck => ?_
  obtain ⟨rfl, hshape, hrecord, hnewer⟩ := checkSupersession_ok hcheck
  exact (replaceWork_refines replacement.canonicalize now "superseded" hrecord hshape hnewer).trans
    (withQueueAndTenant_refines fun ready _ => (Quiet.of_core (core_revise ready)).refines)

theorem deadlinePassed_lapsed {now : UInt64} {record : WorkRecord} (h : deadlinePassed now record) :
    record.request.LapsedAt now := by
  simp only [deadlinePassed, Bool.and_eq_true, decide_eq_true_eq] at h
  exact ⟨h.1.2, h.2⟩

theorem expireDeadlines_refines {now : UInt64} (hpermits : gate.Permits now) (impl : Impl) :
    Refines gate impl (expireDeadlines now impl).2 := by
  have hloop : Refines gate impl (impl.work.keys.foldl (expireDeadline now) (impl, false)).1 := by
    refine List.foldlRecOn (motive := fun acc : Impl × Bool => Refines gate impl acc.1) _ _ (Refines.refl impl)
      fun acc hacc work _ => ?_
    unfold expireDeadline
    split
    · exact hacc
    · next record hrecord =>
      split
      · next hpassed =>
        refine hacc.trans (settleWork_refines _ _ _ now acc.1 .rejected _ _ rfl rfl fun entry hentry => ?_)
        obtain rfl : record.entry = entry := by simpa [Impl.ledger, hrecord] using hentry
        exact hpermits record.entry .expired fun _ => deadlinePassed_lapsed hpassed
      · exact hacc
  unfold expireDeadlines
  simp only
  split
  · exact hloop.quiet (Quiet.of_core (core_revise _))
  · exact hloop

end

end AgentScheduler
