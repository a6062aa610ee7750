import AgentScheduler.Deeds

/-! Every operation is a chain of deeds: the operations on the scheduler and on agents. -/
namespace AgentScheduler
open Std KeyedTable Relation

section Rules
variable {ctx : Context} {allows : Event → Prop} {stale : Set AgentId} {impl : Impl}

theorem Deeds.quiet {impl' : Impl} (hbook : ∀ event : Event, event.IsBookkeeping → allows event)
    (hessence : impl'.essence = impl.essence) (hquiet : Quiet impl impl') :
    Deeds ctx allows (stale, impl) (stale, impl') :=
  Deeds.single (.quiet impl' hessence hquiet) (hbook _ trivial)

theorem Deeds.revise (hbook : ∀ event : Event, event.IsBookkeeping → allows event) :
    Deeds ctx allows (stale, impl) (stale, impl.revise) :=
  Deeds.quiet hbook rfl (Quiet.of_core (core_revise impl))

theorem Deeds.refresh (hbook : ∀ event : Event, event.IsBookkeeping → allows event) (agent : AgentId) :
    Deeds ctx allows (stale, impl) (stale \ {agent}, refreshAgent impl agent) :=
  Deeds.single (.refresh agent) (hbook _ trivial)

/-- A touched agent is up to date again once it is refreshed. -/
theorem Deeds.refreshed (hbook : ∀ event : Event, event.IsBookkeeping → allows event) (agent : AgentId) :
    Deeds ctx allows (insert agent ∅, impl) (∅, (refreshAgent impl agent).revise) := by
  have hrefreshed : Deeds ctx allows (insert agent ∅, impl) (∅, refreshAgent impl agent) := by
    have hrefresh := @Deeds.refresh ctx _ (insert agent ∅) impl hbook agent
    simpa using hrefresh
  exact hrefreshed.trans (Deeds.revise hbook)

/-- A locked section whose body is a chain of deeds whenever its checks pass. -/
theorem Deeds.guarded {Found : Type} {check : Except SchedulerError Found} {body : Found → Step}
    (h : ∀ found, check = .ok found → Deeds ctx allows (stale, impl) (stale, (body found).2)) :
    Deeds ctx allows (stale, impl) (stale, (guarded impl check body).2) := by
  unfold AgentScheduler.guarded
  cases hcheck : check with
  | error error => exact .refl
  | ok found => exact h found hcheck

/-- A loop whose turns are chains of deeds is one. -/
theorem Deeds.foldl {α : Type} {turn : Impl → α → Impl} {items : List α}
    (h : ∀ impl item, Deeds ctx allows (stale, impl) (stale, turn impl item)) :
    Deeds ctx allows (stale, impl) (stale, items.foldl turn impl) :=
  List.foldlRecOn (motive := fun after => Deeds ctx allows (stale, impl) (stale, after)) items _ .refl
    fun after hafter item _ => hafter.trans (h after item)

/-! ### Closing -/

theorem Deeds.closeAssignment {id : AssignmentId} {state : AssignmentState} {reason : InvalidationReason}
    {detail : Text} (hterminal : state.isTerminal)
    (hcloses : ∀ record, impl.assignments[id]? = some record → allows (.closes record)) :
    Deeds ctx allows (stale, impl) (stale, closeAssignment ctx.now impl id state reason detail) := by
  cases hrecord : impl.assignments[id]? with
  | none =>
    have hsame : AgentScheduler.closeAssignment ctx.now impl id state reason detail = impl := by
      unfold AgentScheduler.closeAssignment
      rw [hrecord]
    rw [hsame]
  | some record =>
    cases hopen : record.state.isTerminal with
    | true =>
      have hsame : AgentScheduler.closeAssignment ctx.now impl id state reason detail = impl := by
        unfold AgentScheduler.closeAssignment
        simp [hrecord, hopen]
      rw [hsame]
    | false => exact Deeds.single (.close id record state reason detail hrecord hopen hterminal) (hcloses record hrecord)

theorem Deeds.closeWhere {selected : AssignmentRecord → Bool} {state : AssignmentState} {reason : InvalidationReason}
    {detail : Text} (hterminal : state.isTerminal) (hcloses : ∀ record, selected record → allows (.closes record)) :
    Deeds ctx allows (stale, impl) (stale, closeWhere ctx.now impl selected state reason detail) := by
  refine Deeds.foldl fun impl id => ?_
  cases hrecord : impl.assignments[id]? with
  | none => exact .refl
  | some record =>
    simp only
    split
    · next hselected =>
      refine Deeds.closeAssignment hterminal fun found hfound => ?_
      obtain rfl : record = found := Option.some.inj (hrecord.symm.trans hfound)
      exact hcloses record hselected
    · exact .refl

theorem Deeds.closeAllActive {boot : AgentBootId} {state : AssignmentState} {reason : InvalidationReason}
    {detail : Text} (hterminal : state.isTerminal)
    (hcloses : ∀ record, record.binding.boot = boot → record.state.isActive → allows (.closes record)) :
    Deeds ctx allows (stale, impl) (stale, closeAllActive ctx.now impl boot state reason detail) := by
  refine Deeds.closeWhere hterminal fun record hselected => ?_
  simp only [Bool.and_eq_true, decide_eq_true_eq] at hselected
  exact hcloses record hselected.1 hselected.2

theorem Deeds.closeWork {work : WorkId} {state : AssignmentState} {reason : InvalidationReason} {detail : Text}
    (hterminal : state.isTerminal)
    (hcloses : ∀ record, record.binding.work = work → record.state.isActive → allows (.closes record)) :
    Deeds ctx allows (stale, impl) (stale, closeWork ctx.now impl work state reason detail) := by
  refine Deeds.closeWhere hterminal fun record hselected => ?_
  simp only [Bool.and_eq_true, decide_eq_true_eq] at hselected
  exact hcloses record hselected.1 hselected.2

/-! ### The scheduler, its policy and its queues -/

theorem start_deeds (hgoverns : allows .governs) : Deeds ctx allows (stale, impl) (stale, (start impl).2) := by
  unfold start
  split
  · exact .refl
  · exact Deeds.single (.govern _ rfl fun h => h.of_core rfl) hgoverns

theorem shutdown_deeds (hbook : ∀ event : Event, event.IsBookkeeping → allows event) (hgoverns : allows .governs)
    (hcloses : ∀ record, record.state = .assigned → allows (.closes record)) :
    Deeds ctx allows (stale, impl) (stale, (shutdown ctx.now impl).2) := by
  unfold shutdown
  split
  · exact .refl
  · let stopped : Impl :=
      { impl with shuttingDown := true, admissionOpen := false, running := false, shutdownAtMs := ctx.now }
    have hstopped : Deeds ctx allows (stale, impl) (stale, stopped) :=
      Deeds.single (.govern _ rfl fun h => h.of_core rfl) hgoverns
    refine hstopped.trans (ReflTransGen.trans
      (b := (stale, if stopped.policy.closeDispatchAuthorityOnShutdown then _ else stopped)) ?_ (Deeds.revise hbook))
    split
    · exact Deeds.closeWhere rfl fun record hselected => hcloses record (by simpa using hselected)
    · exact .refl

theorem setPolicy_deeds {policy : PolicySnapshot} (hgoverns : allows .governs)
    (hcloses : ∀ record, record.state.isActive → record.binding.policyGeneration ≠ policy.generation →
      allows (.closes record)) :
    Deeds ctx allows (stale, impl) (stale, (setPolicy ctx.now impl policy).2) := by
  refine Deeds.guarded fun install _ => ?_
  split
  · let installed : Impl := Impl.revise { impl with policy := policy }
    have hinstalled : Deeds ctx allows (stale, impl) (stale, installed) :=
      Deeds.single (.govern installed rfl fun h =>
        ⟨h.agentKey, h.agentBoot, h.workKey, h.assignmentKey, h.assignmentState, h.leaseKey, h.queueKey, h.tenantKey,
          h.fencedKey, h.workIndex, h.agentIndex, h.current, h.admitted, h.unknown⟩) hgoverns
    refine hinstalled.trans (Deeds.closeWhere rfl fun record hselected => ?_)
    simp only [Bool.and_eq_true, decide_eq_true_eq] at hselected
    exact hcloses record hselected.1 hselected.2
  · exact .refl

theorem Deeds.queues (queues : Table QueueId QueueRecord) (hbook : ∀ event : Event, event.IsBookkeeping → allows event)
    (hkey : Keyed QueueRecord.id impl.queues → Keyed QueueRecord.id queues) :
    Deeds ctx allows (stale, impl) (stale, { impl with queues := queues }) :=
  Deeds.quiet hbook rfl fun h => ⟨h.withQueues (hkey h.queueKey), rfl⟩

theorem Deeds.tenants (tenants : Table TenantId TenantRecord)
    (hbook : ∀ event : Event, event.IsBookkeeping → allows event)
    (hkey : Keyed TenantRecord.id impl.tenants → Keyed TenantRecord.id tenants) :
    Deeds ctx allows (stale, impl) (stale, { impl with tenants := tenants }) :=
  Deeds.quiet hbook rfl fun h => ⟨h.withTenants (hkey h.tenantKey), rfl⟩

theorem registerQueue_deeds {queue : QueueId} {generation : QueueGeneration} {fairnessClass : Text} {weight : UInt32}
    (hbook : ∀ event : Event, event.IsBookkeeping → allows event) :
    Deeds ctx allows (stale, impl) (stale, (registerQueue impl queue generation fairnessClass weight).2) := by
  refine Deeds.guarded fun _ _ => ?_
  cases hqueue : impl.queues[queue]? with
  | none =>
    simp only
    split
    · exact .refl
    · exact (Deeds.queues (impl.queues.insertIfNew queue { id := queue, generation, fairnessClass, weight }) hbook
        fun hkey => hkey.insertIfNew rfl).trans (Deeds.revise hbook)
  | some found =>
    simp only
    split
    · exact .refl
    · split
      · split <;> exact .refl
      · exact (Deeds.queues (impl.queues.insert queue { found with generation, fairnessClass, weight }) hbook
          fun hkey => hkey.insert (hkey queue found hqueue)).trans (Deeds.revise hbook)

end Rules

section Agents
variable {ctx : Context} {allows : Event → Prop} {impl : Impl}

/-- An agent is touched, then refreshed. -/
private theorem touch_deeds {agent : AgentId} {record : AgentRecord} (event : AgentEvent) (update : AgentRecord → AgentRecord)
    (hbook : ∀ event : Event, event.IsBookkeeping → allows event) (hrecord : impl.agents[agent]? = some record)
    (hadmits : event.Admits impl record) (hupdate : update record = event.update ctx.now impl record)
    (htouches : allows (.touches agent event)) :
    Deeds ctx allows (∅, impl) (∅, (refreshAgent (impl.modifyAgent agent update) agent).revise) := by
  have htouched : Deeds ctx allows (∅, impl) (insert agent ∅, impl.modifyAgent agent update) := by
    rw [modifyAgent_eq_setAgent hrecord, hupdate]
    exact Deeds.single (.touch agent record event hrecord hadmits) htouches
  exact htouched.trans (Deeds.refreshed hbook agent)

/-- Telemetry of an agent changes. -/
theorem note_deeds {agent : AgentId} {update : AgentRecord → AgentRecord} {stale : Set AgentId}
    (hbook : ∀ event : Event, event.IsBookkeeping → allows event)
    (hgist : ∀ record, (update record).gist = record.gist)
    (hrecent : ∀ record, (update record).recentAssignments = record.recentAssignments) :
    Deeds ctx allows (stale, impl) (stale, impl.modifyAgent agent update) := by
  cases hagent : impl.agents[agent]? with
  | none =>
    unfold Impl.modifyAgent
    rw [modify_eq_self hagent]
  | some record =>
    rw [modifyAgent_eq_setAgent hagent]
    exact Deeds.single (.note agent record _ hagent (hgist record) (hrecent record)) (hbook _ trivial)

private theorem noted_deeds {agent : AgentId} {update : AgentRecord → AgentRecord}
    (hbook : ∀ event : Event, event.IsBookkeeping → allows event)
    (hgist : ∀ record, (update record).gist = record.gist)
    (hrecent : ∀ record, (update record).recentAssignments = record.recentAssignments) :
    Deeds ctx allows (∅, impl) (∅, (impl.modifyAgent agent update).revise) :=
  (note_deeds hbook hgist hrecent).trans (Deeds.revise hbook)

/-- What an accepted observation has passed. -/
theorem checkObservation_ok {now : UInt64} {operation kind : Text} {agent : AgentId} {boot : AgentBootId}
    {staleGeneration : AgentRecord → Bool} {observedAtMs observed : UInt64}
    (h : checkObservation now impl operation kind agent boot staleGeneration observedAtMs = .ok observed) :
    ∃ record, impl.agents[agent]? = some record ∧ record.descriptor.boot = boot ∧ bootIsFenced impl boot = false := by
  unfold checkObservation at h
  simp only [except_bind_eq_ok] at h
  obtain ⟨record, hrecord, -⟩ := h
  exact ⟨record, currentAgent_ok hrecord⟩

theorem publishHealth_deeds {agent : AgentId} {boot : AgentBootId} {observation : HealthObservation}
    (hbook : ∀ event : Event, event.IsBookkeeping → allows event)
    (htouches : ∀ observation, allows (.touches agent (.reported boot observation))) :
    Deeds ctx allows (∅, impl) (∅, (publishHealth ctx.now impl agent boot observation).2) := by
  refine Deeds.guarded fun observed hcheck => ?_
  simp only [check_bind_eq_ok] at hcheck
  obtain ⟨record, hrecord, hboot, hfenced⟩ := checkObservation_ok hcheck.2
  exact touch_deeds (.reported boot { observation with observedAtMs := observed }) _ hbook hrecord
    ⟨hboot, hfenced⟩ rfl (htouches _)

theorem publishAvailability_deeds {agent : AgentId} {boot : AgentBootId} {observation : AvailabilityObservation}
    (hbook : ∀ event : Event, event.IsBookkeeping → allows event)
    (htouches : ∀ observed, allows (.touches agent (.available boot { observation with observedAtMs := observed }))) :
    Deeds ctx allows (∅, impl) (∅, (publishAvailability ctx.now impl agent boot observation).2) := by
  refine Deeds.guarded fun observed hcheck => ?_
  simp only [check_bind_eq_ok] at hcheck
  obtain ⟨record, hrecord, hboot, hfenced⟩ := checkObservation_ok hcheck.2
  exact touch_deeds (.available boot { observation with observedAtMs := observed }) _ hbook hrecord
    ⟨hboot, hfenced⟩ rfl (htouches _)

theorem publishLoad_deeds {agent : AgentId} {boot : AgentBootId} {observation : LoadObservation}
    (hbook : ∀ event : Event, event.IsBookkeeping → allows event) :
    Deeds ctx allows (∅, impl) (∅, (publishLoad ctx.now impl agent boot observation).2) :=
  Deeds.guarded fun _ _ => noted_deeds hbook (fun _ => rfl) fun _ => rfl

theorem heartbeat_deeds {agent : AgentId} {boot : AgentBootId} {registrationGeneration : AgentRegistrationGeneration}
    (hbook : ∀ event : Event, event.IsBookkeeping → allows event) :
    Deeds ctx allows (∅, impl) (∅, (heartbeat ctx.now impl agent boot registrationGeneration).2) :=
  Deeds.guarded fun _ _ => noted_deeds hbook (fun _ => rfl) fun _ => rfl

theorem drainAgent_deeds {agent : AgentId} {boot : AgentBootId} {force : Bool}
    (hbook : ∀ event : Event, event.IsBookkeeping → allows event)
    (htouches : allows (.touches agent (.drained boot)))
    (hcloses : ∀ record, force → record.binding.boot = boot → record.state.isActive → allows (.closes record)) :
    Deeds ctx allows (∅, impl) (∅, (drainAgent ctx.now impl agent boot force).2) := by
  refine Deeds.guarded fun _ hcheck => ?_
  simp only [except_bind_eq_ok] at hcheck
  obtain ⟨record, hcurrent, -⟩ := hcheck
  obtain ⟨hrecord, hboot, hfenced⟩ := currentAgent_ok hcurrent
  let draining := impl.modifyAgent agent fun record => { record with lifecycle := .draining, reason := "draining" }
  have hdraining : Deeds ctx allows (∅, impl) (insert agent ∅, draining) := by
    rw [show draining = impl.setAgent agent _ from modifyAgent_eq_setAgent hrecord]
    exact Deeds.single (.touch agent record (.drained boot) hrecord ⟨hboot, hfenced⟩) htouches
  refine (hdraining.trans (ReflTransGen.trans (b := (insert agent ∅, if force then _ else draining)) ?_
    (Deeds.refreshed hbook agent)))
  split
  · next hforce => exact Deeds.closeAllActive rfl fun record => hcloses record hforce
  · exact .refl

/-- Closing leaves the fences alone. -/
theorem fencedBoots_closeWhere {now : UInt64} {selected : AssignmentRecord → Bool} {state : AssignmentState}
    {reason : InvalidationReason} {detail : Text} :
    (closeWhere now impl selected state reason detail).fencedBoots = impl.fencedBoots := by
  have hframe := congrArg Impl.fencedBoots (frame_closeWhere now impl selected state reason detail)
  exact hframe

theorem deregisterAgent_deeds {agent : AgentId} {boot : AgentBootId} {force : Bool} (h : Consistent impl)
    (hbook : ∀ event : Event, event.IsBookkeeping → allows event)
    (hcloses : ∀ record, record.binding.boot = boot → record.state.isActive → allows (.closes record))
    (hfences : allows (.fences boot)) (htouches : allows (.touches agent (.retired boot))) :
    Deeds ctx allows (∅, impl) (∅, (deregisterAgent ctx.now impl agent boot force).2) := by
  refine Deeds.guarded fun record hcheck => ?_
  simp only [except_bind_eq_ok] at hcheck
  obtain ⟨found, hfound, -, -, hreturn⟩ := hcheck
  obtain rfl : found = record := Except.ok.inj hreturn
  obtain ⟨hrecord, hboot, -⟩ := currentAgent_ok hfound
  let closed : Impl :=
    if 0 < activeAssignmentCount impl agent then
      closeAllActive ctx.now impl boot .invalidated .agentRetired "forced deregistration invalidated the assignment"
    else impl
  have hclosed : Deeds ctx allows (∅, impl) (∅, closed) ∧ closed.ledger.agents = impl.ledger.agents := by
    by_cases hactive : 0 < activeAssignmentCount impl agent
    · have heq : closed = closeAllActive ctx.now impl boot .invalidated .agentRetired
          "forced deregistration invalidated the assignment" := if_pos hactive
      rw [heq]
      exact ⟨Deeds.closeAllActive rfl hcloses, (closeAllActive_idle _ _ _ _ _ agent h rfl).2⟩
    · have heq : closed = impl := if_neg hactive
      rw [heq]
      exact ⟨.refl, rfl⟩
  let fenced := fenceBoot ctx.now closed agent boot found.descriptor.generation "deregistered"
  have hfenced : Deeds ctx allows (∅, closed) (∅, fenced) := Deeds.single (.fence agent boot _ _) hfences
  obtain ⟨stored, hstored, hsame⟩ := stored_agent fenced
    ((congrArg Ledger.agents (ledger_fenceBoot _ _ _ _ _ _)).trans hclosed.2) hrecord
  exact (hclosed.1.trans hfenced).trans
    (touch_deeds (.retired boot) _ hbook hstored (hsame.trans hboot) rfl htouches)

theorem bootIsFenced_fenceBoot {now : UInt64} {agent : AgentId} {boot : AgentBootId} {generation : AgentGeneration}
    {reason : Text} (hboot : boot ≠ 0) : bootIsFenced (fenceBoot now impl agent boot generation reason) boot := by
  unfold fenceBoot
  split
  · next h => simpa [not_isZero hboot] using h
  · simp [bootIsFenced, Impl.revise]

theorem declareAgentLostCommit_deeds {agent : AgentId} {boot : AgentBootId} {reason : Text} (h : Consistent impl)
    (hbook : ∀ event : Event, event.IsBookkeeping → allows event)
    (hcloses : ∀ existing record, impl.agents[agent]? = some existing → existing.descriptor.boot = boot →
      record.binding.boot = boot → record.state.isActive → allows (.closes record))
    (hfences : allows (.fences boot)) (htouches : allows (.touches agent (.lost boot reason))) :
    Deeds ctx allows (∅, impl) (∅, (declareAgentLostCommit ctx.now impl agent boot reason).2) := by
  unfold declareAgentLostCommit
  cases hagent : impl.agents[agent]? with
  | none => exact Deeds.single (.fence agent boot 0 reason) hfences
  | some existing =>
    simp only
    split
    · exact Deeds.single (.fence agent boot 0 reason) hfences
    · next hcurrent =>
      have hboot : existing.descriptor.boot = boot := by simpa using hcurrent
      let fenced := fenceBoot ctx.now impl agent boot existing.descriptor.generation reason
      have hfenced : Deeds ctx allows (∅, impl) (∅, fenced) := Deeds.single (.fence agent boot _ _) hfences
      let closed := closeAllActive ctx.now fenced boot .lost .agentLost "agent incarnation was declared lost"
      have hclosed : Deeds ctx allows (∅, fenced) (∅, closed) :=
        Deeds.closeAllActive rfl fun record => hcloses existing record hagent hboot
      have hagents : closed.ledger.agents = impl.ledger.agents :=
        (closeAllActive_idle _ _ _ _ _ agent (h.fenceBoot _ _ _ _ _) rfl).2.trans
          (congrArg Ledger.agents (ledger_fenceBoot _ _ _ _ _ _))
      obtain ⟨stored, hstored, hsame⟩ := stored_agent closed hagents hagent
      have hnonzero : boot ≠ 0 := hboot ▸ h.agentBoot agent existing hagent
      have hlost : bootIsFenced closed boot := by
        unfold bootIsFenced
        rw [show closed.fencedBoots = fenced.fencedBoots from fencedBoots_closeWhere]
        exact bootIsFenced_fenceBoot hnonzero
      exact (hfenced.trans hclosed).trans
        (touch_deeds (.lost boot reason) _ hbook hstored ⟨hsame.trans hboot, hlost⟩ rfl htouches)

theorem registerAgentCommit_deeds {descriptor : AgentDescriptor} (h : Consistent impl) (hsound : Sound impl.ledger)
    (hboot : descriptor.boot ≠ 0)
    (hbook : ∀ event : Event, event.IsBookkeeping → allows event)
    (hreplaces : ∀ existing, impl.agents[descriptor.id]? = some existing →
      existing.descriptor.generation < descriptor.generation →
        allows (.fences existing.descriptor.boot) ∧
        ∀ record, record.binding.boot = existing.descriptor.boot → record.state.isActive → allows (.closes record))
    (henrolls : allows (.enrolls descriptor)) (htouches : allows (.touches descriptor.id (.reregistered descriptor))) :
    Deeds ctx allows (∅, impl) (∅, (registerAgentCommit ctx.now impl descriptor).2) := by
  unfold registerAgentCommit
  cases hagent : impl.agents[descriptor.id]? with
  | some existing =>
    simp only [hagent]
    refine Deeds.guarded fun _ hcheck => ?_
    split
    · next hnewer =>
      obtain ⟨hfences, hcloses⟩ := hreplaces existing hagent hnewer
      have hzero := not_isZero (h.agentBoot descriptor.id existing hagent)
      let fenced := fenceBoot ctx.now impl descriptor.id existing.descriptor.boot existing.descriptor.generation
        "replaced by reincarnation"
      let retired := closeAllActive ctx.now fenced existing.descriptor.boot .lost .agentFenced
        "agent incarnation replaced by a newer generation"
      have hretire : retireIncarnation ctx.now impl existing descriptor.id = retired := by
        unfold retireIncarnation
        simp [hzero, retired, fenced]
      have hfenced : Deeds ctx allows (∅, impl) (∅, fenced) := Deeds.single (.fence descriptor.id _ _ _) hfences
      have hretired : Deeds ctx allows (∅, fenced) (∅, retired) := Deeds.closeAllActive rfl hcloses
      have hagents : retired.ledger.agents = impl.ledger.agents :=
        (closeAllActive_idle _ _ _ _ _ descriptor.id (h.fenceBoot _ _ _ _ _) rfl).2.trans
          (congrArg Ledger.agents (ledger_fenceBoot _ _ _ _ _ _))
      have hentry : retired.ledger.agents descriptor.id = some existing.entry := by
        rw [hagents]
        simp [Impl.ledger, hagent]
      obtain ⟨stored, hstored, hsame⟩ := Option.map_eq_some_iff.mp hentry
      have hgeneration : stored.descriptor.generation = existing.descriptor.generation :=
        congrArg AgentEntry.generation hsame
      have henrolled : Deeds ctx allows (∅, retired) (insert descriptor.id ∅,
          retired.setAgent descriptor.id (freshAgent ctx.now retired descriptor "reincarnated")) :=
        Deeds.single (.reincarnate descriptor stored hboot hstored (hgeneration ▸ hnewer)) henrolls
      rw [hretire]
      exact ((hfenced.trans hretired).trans henrolled).trans (Deeds.refreshed hbook descriptor.id)
    · next hnotnewer =>
      simp only [check_bind_eq_ok, checkIncarnation, checkUnfenced, rejectIf_eq_ok] at hcheck
      obtain ⟨⟨holder, hsame⟩, hunfenced⟩ := hcheck
      have hgeneration := StrongId.eq_of_not_lt holder hnotnewer
      have hbootsame : descriptor.boot = existing.descriptor.boot := by
        by_contra hne
        exact hsame ⟨hgeneration, hne⟩
      have htouched : Deeds ctx allows (∅, impl) (insert descriptor.id ∅,
          impl.setAgent descriptor.id (reregistered ctx.now impl descriptor existing)) :=
        Deeds.single (.touch descriptor.id existing (.reregistered descriptor) hagent
          ⟨(h.agentKey descriptor.id existing hagent).symm, hgeneration, hbootsame, by simpa using hunfenced⟩) htouches
      exact htouched.trans (Deeds.refreshed hbook descriptor.id)
  | none =>
    simp only [hagent]
    refine Deeds.guarded fun _ _ => ?_
    have hidle : (impl.ledger.active fun record => record.binding.agent = descriptor.id) = ∅ := by
      refine Set.eq_empty_of_forall_notMem ?_
      rintro id ⟨record, hrecord, hactive, hbound⟩
      obtain ⟨entry, hentry, -⟩ := (hsound id record hrecord).agent hactive
      rw [hbound] at hentry
      simp [Impl.ledger, hagent] at hentry
    exact (Deeds.single (.enroll descriptor hboot hagent hidle) henrolls).trans (Deeds.revise hbook)

/-! ### Publishing capabilities -/

/-- Taking an agent off the indexes does not interfere with the demotion loop. -/
private theorem demoteOutdated_deindexAgent (impl : Impl) (agent : AgentId) (profile : CapabilityProfile) :
    demoteOutdated (deindexAgent impl agent) agent profile = deindexAgent (demoteOutdated impl agent profile) agent := by
  refine List.foldl_hom (deindexAgent · agent) fun demoted id => ?_
  cases hrecord : demoted.assignments[id]? with
  | none => simp [deindexAgent, hrecord]
  | some record =>
    simp only [deindexAgent, hrecord]
    split <;> rfl

theorem publishCapabilities_deeds {agent : AgentId} {boot : AgentBootId} {profile : CapabilityProfile}
    (hbook : ∀ event : Event, event.IsBookkeeping → allows event)
    (htouches : ∀ canonical, checkCapabilities ctx.now impl agent boot profile = .ok (some canonical) →
      allows (.touches agent (.published boot canonical)))
    (hadvances : ∀ id, allows (.advances id)) :
    Deeds ctx allows (∅, impl) (∅, (publishCapabilities ctx.now impl agent boot profile).2) := by
  refine Deeds.guarded fun published hcheck => ?_
  cases published with
  | none => exact .refl
  | some canonical =>
    obtain ⟨record, hrecord, hboot, hfenced, hsame, hforward, -⟩ := checkCapabilities_some hcheck
    let publish (record : AgentRecord) : AgentRecord :=
      { record with profile := canonical, capabilityCurrent := true, recovered := false }
    let published := impl.setAgent agent (publish record)
    have hpublished : Deeds ctx allows (∅, impl) (insert agent ∅, published) :=
      Deeds.single (.touch agent record (.published boot canonical) hrecord ⟨hboot, hfenced, hsame, hforward⟩)
        (htouches canonical hcheck)
    have hdemoted : Deeds ctx allows (insert agent ∅, published) (insert agent ∅, demoteOutdated published agent canonical) := by
      refine Deeds.foldl fun demoted id => ?_
      cases hassignment : demoted.assignments[id]? with
      | none => exact .refl
      | some assignment =>
        simp only
        split
        · next houtdated =>
          have hactive : assignment.state.isActive := by
            simp [outdatedBy] at houtdated
            exact houtdated.1.2
          exact (Deeds.single (.advance id assignment assignment.demote hassignment hactive rfl rfl) (hadvances id)).trans
            (Deeds.quiet hbook rfl fun h => ⟨h.dropLease _, rfl⟩)
        · exact .refl
    have hstored : (deindexAgent impl agent).modifyAgent agent publish = deindexAgent published agent :=
      modifyAgent_eq_setAgent hrecord
    have hform : (refreshAgentAccounting (demoteOutdated ((deindexAgent impl agent).modifyAgent agent publish) agent
        canonical) agent) = refreshAgentAccounting (deindexAgent (demoteOutdated published agent canonical) agent) agent := by
      rw [hstored, demoteOutdated_deindexAgent]
    change Deeds ctx allows (∅, impl) (∅, (indexStoredAgent (refreshAgentAccounting (demoteOutdated
      ((deindexAgent impl agent).modifyAgent agent publish) agent canonical) agent) agent).revise)
    rw [hform]
    exact (hpublished.trans hdemoted).trans (Deeds.refreshed hbook agent)

end Agents

end AgentScheduler
