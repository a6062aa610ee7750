import AgentScheduler.Refinement

/-! The operations on agents move authority. -/
namespace AgentScheduler
open Std KeyedTable Relation

theorem StrongId.eq_of_not_lt {tag : IdTag} {a b : StrongId tag UInt64} (hab : ¬a < b) (hba : ¬b < a) : a = b := by
  obtain ⟨a⟩ := a
  obtain ⟨b⟩ := b
  have hle : a.toNat ≤ b.toNat := Nat.le_of_not_lt hba
  have hge : b.toNat ≤ a.toNat := Nat.le_of_not_lt hab
  exact congrArg _ (UInt64.toNat_inj.mp (Nat.le_antisymm hle hge))

theorem not_isZero {tag : IdTag} {id : StrongId tag Hash128} (h : id ≠ 0) : id.isZero = false := by
  obtain ⟨value⟩ := id
  simp only [StrongId.isZero, decide_eq_false_iff_not]
  rintro rfl
  exact h rfl

section
variable {gate : Gate} {impl : Impl}

/-- A new incarnation is stored once nothing active is left of the old one. -/
private theorem enroll_refines {agent : AgentId} (record : AgentRecord) (hkey : record.descriptor.id = agent)
    (hboot : record.descriptor.boot ≠ 0)
    (hidle : ∀ old, impl.ledger.agents agent = some old → impl.ledger.Idle agent old.boot) :
    Refines gate impl (impl.setAgent agent record) :=
  Refines.single fun h => ⟨h.setAgent hkey hboot, ledger_setAgent impl agent record ▸ .enroll agent record.entry hidle⟩

theorem closing_idle {ledger : Ledger} {selected : AssignmentRecord → Bool} {now : UInt64}
    {state : AssignmentState} {reason : InvalidationReason} {detail : Text} {p : AssignmentRecord → Prop}
    (hterminal : state.isTerminal) (hp : ∀ record, record.state.isActive → p record → selected record) :
    (ledger.mapAssignments (closing selected now state reason detail)).active p = ∅ := by
  refine Set.eq_empty_of_forall_notMem ?_
  rintro id ⟨record, hrecord, hactive, hprecord⟩
  obtain ⟨before, hbefore, rfl⟩ := Option.map_eq_some_iff.mp hrecord
  unfold closing at hactive hprecord
  split at hactive
  · have hdead := AssignmentState.not_isActive_of_isTerminal hterminal
    have hstate : (before.close now state reason detail).state = state := rfl
    rw [hstate, hdead] at hactive
    cases hactive
  · next hkept =>
    rw [if_neg hkept] at hprecord
    exact hkept (hp before hactive hprecord)

/-- After closing an incarnation nothing active is bound to it, and the agents are as before. -/
theorem closeAllActive_idle (boot : AgentBootId) (now : UInt64) (state : AssignmentState)
    (reason : InvalidationReason) (detail : Text) (agent : AgentId) (h : Consistent impl) (hterminal : state.isTerminal) :
    (closeAllActive now impl boot state reason detail).ledger.Idle agent boot ∧
      (closeAllActive now impl boot state reason detail).ledger.agents = impl.ledger.agents := by
  have hledger := (closeWhere_spec (fun record => record.binding.boot = boot && record.state.isActive) now _ reason detail h hterminal
    fun record hselected => by
      simp only [Bool.and_eq_true] at hselected
      exact hselected.2).2
  unfold closeAllActive
  rw [hledger]
  refine ⟨closing_idle hterminal fun record hactive hbound => ?_, rfl⟩
  simp [hbound.2, hactive]

theorem retireIncarnation_eq {existing : AgentRecord} {agent : AgentId} (now : UInt64) (h : Consistent impl)
    (hexisting : impl.agents[agent]? = some existing) : retireIncarnation now impl existing agent =
      closeAllActive now (fenceBoot now impl agent existing.descriptor.boot existing.descriptor.generation
        "replaced by reincarnation") existing.descriptor.boot .lost .agentFenced
        "agent incarnation replaced by a newer generation" := by
  unfold retireIncarnation
  simp [not_isZero (h.agentBoot agent existing hexisting)]

/-- Nobody holds anything under a replaced incarnation any more. -/
theorem retireIncarnation_idle (gate : Gate) {existing : AgentRecord} {agent : AgentId} (now : UInt64) (h : Consistent impl)
    (hexisting : impl.agents[agent]? = some existing) :
    Refines gate impl (retireIncarnation now impl existing agent) ∧
      (∀ other, (retireIncarnation now impl existing agent).ledger.Idle other existing.descriptor.boot) ∧
      (retireIncarnation now impl existing agent).ledger.agents = impl.ledger.agents := by
  rw [retireIncarnation_eq now h hexisting]
  have hfenced := Quiet.fenceBoot now impl agent existing.descriptor.boot existing.descriptor.generation
    "replaced by reincarnation"
  have hclosed := fun other : AgentId => closeAllActive_idle existing.descriptor.boot now .lost .agentFenced "agent incarnation replaced by a newer generation" other (hfenced h).1 rfl
  exact ⟨hfenced.refines.trans (Refines.closeAllActive _ rfl), fun other => (hclosed other).1,
    (hclosed agent).2.trans (by rw [(hfenced h).2])⟩

private theorem retireIncarnation_spec (gate : Gate) {existing : AgentRecord} {agent : AgentId} (now : UInt64) (h : Consistent impl)
    (hexisting : impl.agents[agent]? = some existing) :
    Refines gate impl (retireIncarnation now impl existing agent) ∧
      ∀ old, (retireIncarnation now impl existing agent).ledger.agents agent = some old →
        (retireIncarnation now impl existing agent).ledger.Idle agent old.boot := by
  obtain ⟨hrefines, hidle, hagents⟩ := retireIncarnation_idle gate now h hexisting
  refine ⟨hrefines, fun old hold => ?_⟩
  have hentry : impl.ledger.agents agent = some existing.entry := by simp [Impl.ledger, hexisting]
  rw [hagents, hentry] at hold
  rw [← Option.some.inj hold]
  exact hidle agent

@[simp] theorem freshAgent_descriptor (now : UInt64) (impl : Impl) (descriptor : AgentDescriptor) (reason : Text) :
    (freshAgent now impl descriptor reason).descriptor = descriptor.stored := by
  simp [freshAgent]

theorem registerAgentCommit_refines (now : UInt64) (impl : Impl) (descriptor : AgentDescriptor)
    (hboot : descriptor.boot ≠ 0) : Refines gate impl (registerAgentCommit now impl descriptor).2 := by
  unfold registerAgentCommit
  cases hagent : impl.agents[descriptor.id]? with
  | some existing =>
    simp only [hagent]
    refine Refines.guarded fun _ hcheck => ?_
    split
    · next hnewer =>
      refine Refines.given fun h => ?_
      obtain ⟨hretired, hidle⟩ := retireIncarnation_spec gate now h hagent
      have hquiet := Quiet.of_core (core_deindexAgent (retireIncarnation now impl existing descriptor.id) descriptor.id)
      have henrolled : Refines gate (deindexAgent (retireIncarnation now impl existing descriptor.id) descriptor.id)
          ((deindexAgent (retireIncarnation now impl existing descriptor.id) descriptor.id).setAgent descriptor.id
            (freshAgent now (retireIncarnation now impl existing descriptor.id) descriptor "reincarnated")) := by
        refine enroll_refines _ ?_ ?_ hidle
        · rw [freshAgent_descriptor]
          rfl
        · rw [freshAgent_descriptor]
          exact hboot
      exact (((hretired.quiet hquiet).trans henrolled).quiet (Quiet.refreshAgentAccounting _ descriptor.id)).quiet
        (Quiet.of_core (core_indexStoredAgent _ descriptor.id))
    · next hnotnewer =>
      simp only [check_bind_eq_ok, checkIncarnation, rejectIf_eq_ok] at hcheck
      obtain ⟨⟨holder, hsame⟩, -⟩ := hcheck
      have hgeneration := StrongId.eq_of_not_lt holder hnotnewer
      have hbootsame : descriptor.boot = existing.descriptor.boot := by
        by_contra hne
        exact hsame ⟨hgeneration, hne⟩
      refine Refines.given fun h => Quiet.refines ?_
      have hset : Quiet impl (impl.setAgent descriptor.id (reregistered now impl descriptor existing)) := by
        refine Quiet.setAgent hagent (h.agentKey descriptor.id existing hagent).symm ?_
        have hstored : descriptor.stored.generation = existing.descriptor.generation ∧
            descriptor.stored.boot = existing.descriptor.boot := ⟨hgeneration, hbootsame⟩
        simp [reregistered, AgentRecord.entry, hstored]
      exact (hset.trans (Quiet.refreshAgent _ descriptor.id)).trans (Quiet.of_core (core_revise _))
  | none =>
    simp only [hagent]
    refine Refines.guarded fun _ _ => ?_
    have hidle : ∀ old, impl.ledger.agents descriptor.id = some old → impl.ledger.Idle descriptor.id old.boot := by
      intro old hold
      simp [Impl.ledger, hagent] at hold
    refine (enroll_refines (freshAgent now impl descriptor "registered") ?_ ?_ hidle).quiet
      (Quiet.of_core rfl)
    · rw [freshAgent_descriptor]
      rfl
    · rw [freshAgent_descriptor]
      exact hboot

/-- What a passed incarnation check says. -/
theorem currentAgent_ok {operation stale : Text} {agent : AgentId} {boot : AgentBootId} {record : AgentRecord}
    (h : currentAgent impl operation agent boot stale = .ok record) :
    impl.agents[agent]? = some record ∧ record.descriptor.boot = boot ∧ bootIsFenced impl boot = false := by
  unfold currentAgent at h
  simp only [except_bind_eq_ok, lookupOrFail_eq_ok, rejectIf_eq_ok] at h
  obtain ⟨found, hfound, -, hstale, hrecord⟩ := h
  obtain rfl : found = record := Except.ok.inj hrecord
  simp only [staleBoot, Bool.or_eq_true, decide_eq_true_eq, not_or, not_not] at hstale
  exact ⟨hfound, hstale.1, by simpa using hstale.2⟩

/-- What a publication that changes something has passed. -/
theorem checkCapabilities_some {now : UInt64} {agent : AgentId} {boot : AgentBootId}
    {profile canonical : CapabilityProfile} (h : checkCapabilities now impl agent boot profile = .ok (some canonical)) :
    ∃ record, impl.agents[agent]? = some record ∧ record.descriptor.boot = boot ∧ bootIsFenced impl boot = false ∧
      canonical.boot = boot ∧ ¬canonical.generation < record.profile.generation ∧
      (canonical.generation = record.profile.generation → record.capabilityCurrent = false) := by
  unfold checkCapabilities at h
  simp only [except_bind_eq_ok, rejectIf_eq_ok] at h
  obtain ⟨sorted, hsorted, record, hrecord, -, -, -, hgeneration, h⟩ := h
  obtain ⟨hagent, hboot, hfenced⟩ := currentAgent_ok hrecord
  split at h
  · simp only [except_bind_eq_ok] at h
    obtain ⟨-, -, h⟩ := h
    cases h
  · next hmoved =>
    simp only [except_bind_eq_ok] at h
    obtain ⟨capabilities, -, h⟩ := h
    obtain rfl := Option.some.inj (Except.ok.inj h)
    refine ⟨record, hagent, hboot, hfenced, rfl, hgeneration, fun hsame => ?_⟩
    by_contra hcurrent
    exact hmoved ⟨hsame, by simpa using hcurrent⟩

theorem publishCapabilities_refines (now : UInt64) (impl : Impl) (agent : AgentId) (boot : AgentBootId)
    (profile : CapabilityProfile) : Refines gate impl (publishCapabilities now impl agent boot profile).2 := by
  refine Refines.guarded fun published hcheck => ?_
  cases published with
  | none => exact Refines.refl impl
  | some canonical =>
    obtain ⟨record, hagent, -, -, -, hforward, hsame⟩ := checkCapabilities_some hcheck
    let publish (record : AgentRecord) : AgentRecord :=
      { record with profile := canonical, capabilityCurrent := true, recovered := false }
    let stored := (deindexAgent impl agent).modifyAgent agent publish
    have hstored : stored = (deindexAgent impl agent).setAgent agent (publish record) := modifyAgent_eq_setAgent hagent
    have hmove : Refines gate impl (demoteOutdated stored agent canonical) := Refines.single fun h => by
      have hconsistent : Consistent stored := by
        rw [hstored]
        exact (h.of_core (core_deindexAgent impl agent)).setAgent (h.agentKey agent record hagent)
          (h.agentBoot agent record hagent)
      have hledger : stored.ledger = impl.ledger.setAgent agent (publish record).entry := by
        rw [hstored, ledger_setAgent, ledger_of_core (core_deindexAgent impl agent)]
      obtain ⟨hdemoted, hdemotedLedger⟩ := demoteOutdated_spec agent canonical hconsistent
      refine ⟨hdemoted, ?_⟩
      rw [hdemotedLedger, hledger]
      exact .republish agent record.entry canonical (by simp [Impl.ledger, hagent]) hforward hsame
    exact ((hmove.quiet (Quiet.refreshAgentAccounting _ agent)).quiet
      (Quiet.of_core (core_indexStoredAgent _ agent))).quiet (Quiet.of_core (core_revise _))

/-- An update of a current agent that neither the ledger nor the keys see. -/
private theorem quietUpdate_refines {agent : AgentId} {update : AgentRecord → AgentRecord}
    (hdescriptor : ∀ record, (update record).descriptor.id = record.descriptor.id)
    (hentry : ∀ record, (update record).entry = record.entry) :
    Refines gate impl (refreshAgent (impl.modifyAgent agent update) agent).revise :=
  (((Quiet.modifyAgent hdescriptor hentry).trans (Quiet.refreshAgent _ agent)).trans
    (Quiet.of_core (core_revise _))).refines

/-- The same without refreshing anything derived. -/
private theorem quietModify_refines {agent : AgentId} {update : AgentRecord → AgentRecord}
    (hdescriptor : ∀ record, (update record).descriptor.id = record.descriptor.id)
    (hentry : ∀ record, (update record).entry = record.entry) :
    Refines gate impl (impl.modifyAgent agent update).revise :=
  ((Quiet.modifyAgent hdescriptor hentry).trans (Quiet.of_core (core_revise _))).refines

theorem publishHealth_refines (now : UInt64) (impl : Impl) (agent : AgentId) (boot : AgentBootId)
    (observation : HealthObservation) : Refines gate impl (publishHealth now impl agent boot observation).2 :=
  Refines.guarded fun _ _ => quietUpdate_refines (fun _ => rfl) fun _ => rfl

theorem publishAvailability_refines (now : UInt64) (impl : Impl) (agent : AgentId) (boot : AgentBootId)
    (observation : AvailabilityObservation) :
    Refines gate impl (publishAvailability now impl agent boot observation).2 :=
  Refines.guarded fun _ _ => quietUpdate_refines (fun _ => rfl) fun _ => rfl

theorem publishLoad_refines (now : UInt64) (impl : Impl) (agent : AgentId) (boot : AgentBootId)
    (observation : LoadObservation) : Refines gate impl (publishLoad now impl agent boot observation).2 :=
  Refines.guarded fun _ _ => quietModify_refines (fun _ => rfl) fun _ => rfl

theorem heartbeat_refines (now : UInt64) (impl : Impl) (agent : AgentId) (boot : AgentBootId)
    (registrationGeneration : AgentRegistrationGeneration) :
    Refines gate impl (heartbeat now impl agent boot registrationGeneration).2 :=
  Refines.guarded fun _ _ => quietModify_refines (fun _ => rfl) fun _ => rfl

theorem drainAgent_refines (now : UInt64) (impl : Impl) (agent : AgentId) (boot : AgentBootId) (force : Bool) :
    Refines gate impl (drainAgent now impl agent boot force).2 := by
  refine Refines.guarded fun _ _ => ?_
  let draining := impl.modifyAgent agent fun record => { record with lifecycle := .draining, reason := "draining" }
  have hdraining : Quiet impl draining :=
    Quiet.modifyAgent (f := fun record => { record with lifecycle := .draining, reason := "draining" })
      (fun _ => rfl) fun _ => rfl
  refine Refines.quiet (@Refines.quiet gate impl (if force then _ else draining) _ ?_ (Quiet.refreshAgent _ agent))
    (Quiet.of_core (core_revise _))
  split
  · exact hdraining.refines.trans (Refines.closeAllActive draining rfl)
  · exact hdraining.refines

/-- The evidence of an idle incarnation lapses, whatever lifecycle and reason the record gets. -/
private theorem silence_refines (gate : Gate) {agent : AgentId} {record : AgentRecord} (lifecycle : AgentLifecycle) (reason : Text)
    (hagent : impl.agents[agent]? = some record) (hidle : impl.ledger.Idle agent record.descriptor.boot) :
    Refines gate impl (impl.modifyAgent agent fun record =>
      { invalidateDynamicEvidence record with lifecycle := lifecycle, reason := reason }) := by
  rw [modifyAgent_eq_setAgent hagent]
  refine Refines.single fun h => ⟨h.setAgent (h.agentKey agent record hagent) (h.agentBoot agent record hagent), ?_⟩
  rw [ledger_setAgent]
  exact .silence agent record.entry (by simp [Impl.ledger, hagent]) hidle

/-- An agent without active assignments is idle in every incarnation. -/
private theorem idle_of_count {agent : AgentId} {boot : AgentBootId} (h : Consistent impl)
    (hcount : activeAssignmentCount impl agent = 0) : impl.ledger.Idle agent boot := by
  refine Set.eq_empty_of_forall_notMem ?_
  rintro id ⟨record, hrecord, hactive, hbound⟩
  have hmem := (h.agentIndex agent id).mpr ⟨record, hrecord, hactive, hbound.1⟩
  exact List.countP_eq_zero.mp hcount id hmem (isActiveId_iff.mpr ⟨record, hrecord, hactive⟩)

/-- An agent that was current before a closing is stored under the same incarnation afterwards. -/
theorem stored_agent (impl' : Impl) {agent : AgentId} {record : AgentRecord}
    (hagents : impl'.ledger.agents = impl.ledger.agents) (hagent : impl.agents[agent]? = some record) :
    ∃ record', impl'.agents[agent]? = some record' ∧ record'.descriptor.boot = record.descriptor.boot := by
  have hentry : impl'.ledger.agents agent = some record.entry := by
    rw [hagents]
    simp [Impl.ledger, hagent]
  obtain ⟨record', hrecord', heq⟩ := Option.map_eq_some_iff.mp hentry
  exact ⟨record', hrecord', congrArg AgentEntry.boot heq⟩

/-- Before it is retired an agent holds nothing, if need be by force. -/
theorem deregister_idle (gate : Gate) (agent : AgentId) (boot : AgentBootId) (now : UInt64) (h : Consistent impl) :
    let closed : Impl :=
      if 0 < activeAssignmentCount impl agent then
        closeAllActive now impl boot .invalidated .agentRetired "forced deregistration invalidated the assignment"
      else impl
    Refines gate impl closed ∧ closed.ledger.Idle agent boot ∧ closed.ledger.agents = impl.ledger.agents := by
  intro closed
  by_cases hactive : 0 < activeAssignmentCount impl agent
  · have heq : closed = closeAllActive now impl boot .invalidated .agentRetired
        "forced deregistration invalidated the assignment" := if_pos hactive
    rw [heq]
    exact ⟨Refines.closeAllActive impl rfl, closeAllActive_idle _ _ _ _ _ agent h rfl⟩
  · have heq : closed = impl := if_neg hactive
    rw [heq]
    exact ⟨Refines.refl impl, idle_of_count h (Nat.eq_zero_of_not_pos hactive), rfl⟩

theorem deregisterAgent_refines (now : UInt64) (impl : Impl) (agent : AgentId) (boot : AgentBootId) (force : Bool) :
    Refines gate impl (deregisterAgent now impl agent boot force).2 := by
  refine Refines.guarded fun record hcheck => ?_
  simp only [except_bind_eq_ok] at hcheck
  obtain ⟨found, hfound, -, -, hrecord⟩ := hcheck
  obtain rfl : found = record := Except.ok.inj hrecord
  obtain ⟨hagent, hboot, -⟩ := currentAgent_ok hfound
  refine Refines.given fun h => ?_
  let closed : Impl :=
    if 0 < activeAssignmentCount impl agent then
      closeAllActive now impl boot .invalidated .agentRetired "forced deregistration invalidated the assignment"
    else impl
  obtain ⟨hmoves, hidle, hagents⟩ :
      Refines gate impl closed ∧ closed.ledger.Idle agent boot ∧ closed.ledger.agents = impl.ledger.agents :=
    deregister_idle _ _ _ now h
  have hfenced := Quiet.fenceBoot now closed agent boot found.descriptor.generation "deregistered"
  have hledger := (hfenced (hmoves h).1).2
  obtain ⟨stored, hstored, hsameBoot⟩ :=
    stored_agent (fenceBoot now closed agent boot found.descriptor.generation "deregistered")
      (by rw [hledger, hagents]) hagent
  have hsilenced := silence_refines gate .retired "deregistered" hstored (by
    rw [hledger, hsameBoot, hboot]
    exact hidle)
  exact (((hmoves.quiet hfenced).trans hsilenced).quiet (Quiet.refreshAgent _ agent)).quiet
    (Quiet.of_core (core_revise _))

theorem declareAgentLostCommit_refines (now : UInt64) (impl : Impl) (agent : AgentId) (boot : AgentBootId)
    (reason : Text) : Refines gate impl (declareAgentLostCommit now impl agent boot reason).2 := by
  unfold declareAgentLostCommit
  cases hagent : impl.agents[agent]? with
  | none => exact (Quiet.fenceBoot now impl agent boot 0 reason).refines
  | some record =>
    simp only
    split
    · exact (Quiet.fenceBoot now impl agent boot 0 reason).refines
    · next hboot =>
      have hboot : record.descriptor.boot = boot := by simpa using hboot
      refine Refines.given fun h => ?_
      have hfenced := Quiet.fenceBoot now impl agent boot record.descriptor.generation reason
      obtain ⟨hidle, hagents⟩ := closeAllActive_idle boot now .lost .agentLost "agent incarnation was declared lost" agent (hfenced h).1 rfl
      obtain ⟨stored, hstored, hsameBoot⟩ := stored_agent _ (hagents.trans (by rw [(hfenced h).2])) hagent
      have hsilenced := silence_refines gate .lost reason hstored (by
        rw [hsameBoot, hboot]
        exact hidle)
      exact (((hfenced.refines.trans (Refines.closeAllActive _ rfl)).trans hsilenced).quiet
        (Quiet.refreshAgent _ agent)).quiet (Quiet.of_core (core_revise _))

end

end AgentScheduler
