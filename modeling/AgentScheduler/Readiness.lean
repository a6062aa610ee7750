import AgentScheduler.Isolation

/-! Readiness is earned: what an agent has shown goes back to publications of its present incarnation. -/
namespace AgentScheduler
open Std KeyedTable Relation

/-! ### What the operations on an agent do to it -/

section Deeds
variable {ctx : Context} {allows : Event → Prop} {stale stale' : Set AgentId} {impl impl' : Impl} {agent : AgentId}

/-- A chain that neither touches nor enrolls an agent keeps it. -/
theorem Deeds.keepsAgent (hdeeds : Deeds ctx allows (stale, impl) (stale', impl')) (hconsistent : Consistent impl)
    (htouches : ∀ event, ¬allows (.touches agent event))
    (henrolls : ∀ descriptor : AgentDescriptor, allows (.enrolls descriptor) → descriptor.id ≠ agent) : impl.KeepsAgent impl' agent := by
  refine hdeeds.keeps (motive := fun scene => impl.KeepsAgent scene.2 agent) (fun event scene scene' hallows hdeed hscene hkept => ?_)
    hconsistent (.of_agents rfl)
  refine hkept.trans fun record' hrecord' => ?_
  cases hdeed.agentEffect hscene hrecord' with
  | kept record hrecord hkeeps => exact ⟨record, hrecord, hkeeps⟩
  | touched record touch hevent => exact (htouches touch (hevent ▸ hallows)).elim
  | enrolled descriptor reason hevent hid => exact (henrolls descriptor (hevent ▸ hallows) hid).elim

end Deeds

section Operations
variable {impl : Impl} {agent : AgentId} {boot : AgentBootId} {now : UInt64}

/-- A change of one record, then a refresh, is a replacement of that record. -/
theorem replaceAgent_of_modify {record : AgentRecord} {update : AgentRecord → AgentRecord} (hrecord : impl.agents[agent]? = some record) :
    (refreshAgent (impl.modifyAgent agent update) agent).revise = impl.replaceAgent agent (update record) := by
  rw [modifyAgent_eq_setAgent hrecord]
  rfl

theorem publishHealth_cases (now : UInt64) (impl : Impl) (agent : AgentId) (boot : AgentBootId) (observation : HealthObservation) :
    (∃ error, publishHealth now impl agent boot observation = (.error error, impl)) ∨
      ∃ record observed, impl.agents[agent]? = some record ∧ record.descriptor.boot = boot ∧
        publishHealth now impl agent boot observation =
          (.ok (), impl.replaceAgent agent
            ((AgentEvent.reported boot { observation with observedAtMs := observed }).update now impl record)) := by
  rcases guarded_cases impl _ _ with ⟨error, -, hsame⟩ | ⟨observed, hcheck, hform⟩
  · exact .inl ⟨error, hsame⟩
  · simp only [check_bind_eq_ok] at hcheck
    obtain ⟨record, hrecord, hboot, -⟩ := checkObservation_ok hcheck.2
    exact .inr ⟨record, observed, hrecord, hboot, hform.trans (congrArg (Except.ok (), ·) (replaceAgent_of_modify hrecord))⟩

theorem publishAvailability_cases (now : UInt64) (impl : Impl) (agent : AgentId) (boot : AgentBootId)
    (observation : AvailabilityObservation) :
    (∃ error, publishAvailability now impl agent boot observation = (.error error, impl)) ∨
      ∃ record observed, impl.agents[agent]? = some record ∧ record.descriptor.boot = boot ∧
        publishAvailability now impl agent boot observation =
          (.ok (), impl.replaceAgent agent
            ((AgentEvent.available boot { observation with observedAtMs := observed }).update now impl record)) := by
  rcases guarded_cases impl _ _ with ⟨error, -, hsame⟩ | ⟨observed, hcheck, hform⟩
  · exact .inl ⟨error, hsame⟩
  · simp only [check_bind_eq_ok] at hcheck
    obtain ⟨record, hrecord, hboot, -⟩ := checkObservation_ok hcheck.2
    exact .inr ⟨record, observed, hrecord, hboot, hform.trans (congrArg (Except.ok (), ·) (replaceAgent_of_modify hrecord))⟩

theorem agents_demoteOutdated (impl : Impl) (agent : AgentId) (profile : CapabilityProfile) :
    (demoteOutdated impl agent profile).agents = impl.agents := by
  refine foldl_project (f := Impl.agents) (fun impl id => ?_) _ _
  split
  · rfl
  · split <;> rfl

theorem publishCapabilities_cases (now : UInt64) (agent : AgentId) (boot : AgentBootId) (profile : CapabilityProfile) (h : Consistent impl) :
    (∃ error, publishCapabilities now impl agent boot profile = (.error error, impl)) ∨
      publishCapabilities now impl agent boot profile = (.ok (), impl) ∨
      ∃ record canonical after, impl.agents[agent]? = some record ∧ record.descriptor.boot = boot ∧
        publishCapabilities now impl agent boot profile = (.ok (), after) ∧
        (impl.setAgent agent ((AgentEvent.published boot canonical).update now impl record)).KeepsAgent after agent := by
  rcases guarded_cases impl _ _ with ⟨error, -, hsame⟩ | ⟨published, hcheck, hform⟩
  · exact .inl ⟨error, hsame⟩
  · cases published with
    | none => exact .inr (.inl hform)
    | some canonical =>
      obtain ⟨record, hrecord, hboot, -⟩ := checkCapabilities_some hcheck
      refine .inr (.inr ⟨record, canonical, _, hrecord, hboot, hform, ?_⟩)
      let published := (AgentEvent.published boot canonical).update now impl record
      let stored := (deindexAgent impl agent).modifyAgent agent fun record =>
        { record with profile := canonical, capabilityCurrent := true, recovered := false }
      have hstored : stored = (deindexAgent impl agent).setAgent agent published := modifyAgent_eq_setAgent hrecord
      have hdemoted : (demoteOutdated stored agent canonical).agents = (impl.setAgent agent published).agents := by
        rw [agents_demoteOutdated, hstored]
        rfl
      have hkeyed : Keyed (fun record : AgentRecord => record.descriptor.id) (impl.setAgent agent published).agents :=
        h.agentKey.insert (h.agentKey agent record hrecord)
      have hindexed : ∀ impl : Impl, (indexStoredAgent impl agent).agents = impl.agents := fun impl => by
        unfold indexStoredAgent
        split <;> rfl
      exact ((Impl.KeepsAgent.of_agents hdemoted).trans (.refreshAgentAccounting (hdemoted ▸ hkeyed))).trans
        (.of_agents (hindexed _))

theorem drainAgent_cases (now : UInt64) (agent : AgentId) (boot : AgentBootId) (force : Bool) (h : Consistent impl) :
    (∃ error, drainAgent now impl agent boot force = (.error error, impl)) ∨
      ∃ record after, impl.agents[agent]? = some record ∧ record.descriptor.boot = boot ∧
        drainAgent now impl agent boot force = (.ok (), after) ∧
        (impl.setAgent agent ((AgentEvent.drained boot).update now impl record)).KeepsAgent after agent := by
  rcases guarded_cases impl _ _ with ⟨error, -, hsame⟩ | ⟨_, hcheck, hform⟩
  · exact .inl ⟨error, hsame⟩
  · simp only [except_bind_eq_ok] at hcheck
    obtain ⟨record, hcurrent, -⟩ := hcheck
    obtain ⟨hrecord, hboot, -⟩ := currentAgent_ok hcurrent
    refine .inr ⟨record, _, hrecord, hboot, hform, ?_⟩
    let drained := impl.setAgent agent ((AgentEvent.drained boot).update now impl record)
    have hdrained : (impl.modifyAgent agent fun record => { record with lifecycle := .draining, reason := "draining" }) = drained :=
      modifyAgent_eq_setAgent hrecord
    have hconsistent : Consistent drained := h.setAgent (h.agentKey agent record hrecord) (h.agentBoot agent record hrecord)
    let closes (event : Event) : Prop := ∃ id, event = .closes id
    let closed : Impl :=
      if force then closeAllActive now drained boot .invalidated .agentDrained "forced drain invalidated the assignment" else drained
    have hdeeds : Deeds { now } closes (∅, drained) (∅, closed) := by
      by_cases hforce : force
      · simp only [closed, if_pos hforce]
        exact Deeds.closeAllActive rfl fun _ _ _ => ⟨_, rfl⟩
      · simp only [closed, if_neg hforce]
        exact .refl
    have hclosed : drained.KeepsAgent closed agent :=
      hdeeds.keepsAgent hconsistent (fun _ h => by obtain ⟨_, ⟨⟩⟩ := h) fun _ h => by obtain ⟨_, ⟨⟩⟩ := h
    have hkeyed := (hdeeds.consistent hconsistent).agentKey
    rw [hdrained]
    exact (hclosed.trans (.refreshAgentAccounting hkeyed)).trans (.of_agents (agents_refreshAgent hkeyed agent))

end Operations

/-! ### Histories -/

/-- A step that was taken, and the state it was taken from. -/
structure Entry where
  before : System
  label : Label
  reply : Reply

/-- The steps of a run from an initial state, the latest first, with a condition on each. -/
inductive System.Follows (allowed : System → Label → Prop) : List Entry → System → Prop
  | initial {system : System} (hinitial : system.IsInitial) : System.Follows allowed [] system
  | step {history : List Entry} {system after : System} {label : Label} {reply : Reply}
      (hbefore : System.Follows allowed history system) (hallowed : allowed system label)
      (hstep : system.step label = some (reply, after)) :
      System.Follows allowed ({ before := system, label, reply } :: history) after

/-- What an operation on an incarnation may have accomplished. -/
inductive Act
  | capabilities
  | health
  | availability (observation : AvailabilityObservation)
  /-- it was drained, deregistered or declared lost -/
  | withdrawal

/-- An entry accomplished something for an agent under a boot. -/
inductive Entry.Does (entry : Entry) (agent : AgentId) (boot : AgentBootId) : Act → Prop
  | capabilities (profile : CapabilityProfile) (hlabel : entry.label = .run (.publishCapabilities agent boot profile))
      (hreply : entry.reply = .mutation (.ok ())) : Entry.Does entry agent boot .capabilities
  | health (observation : HealthObservation) (hlabel : entry.label = .run (.publishHealth agent boot observation))
      (hreply : entry.reply = .mutation (.ok ())) : Entry.Does entry agent boot .health
  | availability (observation : AvailabilityObservation)
      (hlabel : entry.label = .run (.publishAvailability agent boot observation))
      (hreply : entry.reply = .mutation (.ok ())) : Entry.Does entry agent boot (.availability observation)
  | drain (force : Bool) (hlabel : entry.label = .run (.drainAgent agent boot force))
      (hreply : entry.reply = .mutation (.ok ())) : Entry.Does entry agent boot .withdrawal
  | deregistration (force : Bool) (hlabel : entry.label = .run (.deregisterAgent agent boot force))
      (hreply : entry.reply = .mutation (.ok ())) : Entry.Does entry agent boot .withdrawal
  | loss (position : Nat) (reason : Text) (hlabel : entry.label = .finish position)
      (hcall : entry.before.calls[position]? = some (.declareAgentLost agent boot reason))
      (hreply : entry.reply = .mutation (.ok ())) : Entry.Does entry agent boot .withdrawal
  /-- the incarnation was lost already -/
  | lostAgain (reason : Text) (hlabel : entry.label = .begin (.declareAgentLost agent boot reason))
      (hreply : entry.reply = .mutation (.ok ())) : Entry.Does entry agent boot .withdrawal

/-- An entry registered a boot as the new incarnation of an agent, or loaded a file. -/
inductive Entry.Anchors (entry : Entry) (agent : AgentId) (boot : AgentBootId) : Prop
  | registration (position : Nat) (descriptor : AgentDescriptor) (hlabel : entry.label = .finish position)
      (hcall : entry.before.calls[position]? = some (.registerAgent descriptor)) (hid : descriptor.id = agent)
      (hboot : descriptor.boot = boot)
      (hnew : ∀ existing, entry.before.impl.agents[agent]? = some existing →
        existing.descriptor.generation < descriptor.generation)
      (hreply : entry.reply = .mutation (.ok ()))
  | load (position : Nat) (previous current : SchedulerEpoch) (hlabel : entry.label = .load position)
      (hreply : entry.reply = .recovered previous current)

/-- The agent whose incarnation an operation concerns. -/
def Operation.subject : Operation → Option AgentId
  | .publishCapabilities agent _ _ | .publishHealth agent _ _ | .publishAvailability agent _ _ | .drainAgent agent _ _
  | .deregisterAgent agent _ _ => some agent
  | _ => none

def Call.subject : Call → Option AgentId
  | .registerAgent descriptor => some descriptor.id
  | .declareAgentLost agent _ _ => some agent
  | _ => none

def System.subject (system : System) : Label → Option AgentId
  | .run operation => operation.subject
  | .finish position => system.calls[position]?.bind Call.subject
  | _ => none

section Entries
variable {system after : System} {label : Label} {reply : Reply} {agent : AgentId} {boot : AgentBootId} {entry : Entry}
  {act : Act} {record middle record' : AgentRecord}

/-- Only the agent a step concerns is touched by it or enrolled. -/
theorem System.Causes.subject (hother : system.subject label ≠ some agent) :
    (∀ event, ¬system.Causes label (.touches agent event)) ∧
      ∀ descriptor : AgentDescriptor, system.Causes label (.enrolls descriptor) → descriptor.id ≠ agent := by
  cases label with
  | run operation =>
    constructor
    · rintro event hcauses
      refine hother ?_
      cases operation <;> try exact hcauses.elim
      all_goals cases event <;> first | exact hcauses.elim | exact congrArg some hcauses.1.symm
    · rintro descriptor hcauses
      cases operation <;> exact hcauses.elim
  | finish position =>
    constructor
    · rintro event ⟨call, hcall, hcauses⟩
      refine hother ?_
      have hcall : system.calls[position]? = some call := hcall
      rw [System.subject, hcall]
      cases call <;> try exact hcauses.elim
      all_goals cases event <;> first | exact hcauses.elim | exact congrArg some hcauses.1.symm
    · rintro descriptor ⟨call, hcall, hcauses⟩ rfl
      refine hother ?_
      have hcall : system.calls[position]? = some call := hcall
      rw [System.subject, hcall]
      cases call <;> try exact hcauses.elim
      obtain rfl := hcauses
      rfl
  | tick | provide | «begin» | save | load | restart => exact ⟨fun _ h => h.elim, fun _ h => h.elim⟩

/-- An entry accomplishes something only for the agent it concerns, repeated losses aside. -/
theorem Entry.Does.subject (h : entry.Does agent boot act) :
    entry.before.subject entry.label = some agent ∨
      act = .withdrawal ∧ ∃ reason, entry.label = .begin (.declareAgentLost agent boot reason) := by
  cases h with
  | capabilities _ hlabel | health _ hlabel | availability _ hlabel | drain _ hlabel | deregistration _ hlabel =>
    rw [hlabel]
    exact .inl rfl
  | loss position reason hlabel hcall =>
    left
    rw [hlabel, System.subject, hcall]
    rfl
  | lostAgain reason hlabel => exact .inr ⟨rfl, reason, hlabel⟩

theorem Entry.Anchors.subject (h : entry.Anchors agent boot) :
    entry.before.subject entry.label = some agent ∨ ∃ position, entry.label = .load position := by
  cases h with
  | registration position descriptor hlabel hcall hid =>
    left
    rw [hlabel, System.subject, hcall]
    exact congrArg some hid
  | load position _ _ hlabel => exact .inr ⟨position, hlabel⟩

/-- How an entry may change what an agent has shown. -/
structure Entry.Moves (entry : Entry) (agent : AgentId) (record record' : AgentRecord) : Prop where
  boot : record'.descriptor.boot = record.descriptor.boot
  capability : record'.capabilityCurrent → record.capabilityCurrent ∨ entry.Does agent record.descriptor.boot .capabilities
  health : record'.healthCurrent → record.healthCurrent ∨ entry.Does agent record.descriptor.boot .health
  availability : record'.availabilityCurrent →
    (record.availabilityCurrent ∧ (∀ observation, ¬entry.Does agent record.descriptor.boot (.availability observation)) ∧
      record'.availability = record.availability ∧ record'.reachability = record.reachability ∧
      record'.readiness = record.readiness) ∨
    ∃ observation, entry.Does agent record.descriptor.boot (.availability observation) ∧
      record'.availability = observation.availability ∧ record'.reachability = observation.reachability ∧
      record'.readiness = observation.readiness
  sticky : record.lifecycle.IsSticky ∨ entry.Does agent record.descriptor.boot .withdrawal → record'.lifecycle.IsSticky

/-- The flags and values that `Keeps` keeps. -/
theorem AgentRecord.Keeps.shown (h : record.Keeps record') :
    record'.descriptor.boot = record.descriptor.boot ∧ record'.capabilityCurrent = record.capabilityCurrent ∧
      record'.healthCurrent = record.healthCurrent ∧ record'.availabilityCurrent = record.availabilityCurrent ∧
      record'.availability = record.availability ∧ record'.reachability = record.reachability ∧
      record'.readiness = record.readiness := by
  have hessence := h.essence
  simp only [AgentRecord.essence, AgentRecord.gist, AgentRecord.mk.injEq] at hessence
  simp only [hessence, and_self]

theorem AgentRecord.Keeps.stays (h : record.Keeps record') (hsticky : record.lifecycle.IsSticky) : record'.lifecycle.IsSticky :=
  h.sticky (.inl hsticky) ▸ hsticky

theorem Entry.Moves.keeps (middle : AgentRecord) (h : entry.Moves agent record middle) (hkeeps : middle.Keeps record') :
    entry.Moves agent record record' := by
  obtain ⟨hboot, hcapability, hhealth, hcurrent, havailability, hreachability, hreadiness⟩ := hkeeps.shown
  refine ⟨hboot.trans h.boot, ?_, ?_, ?_, fun hcase => hkeeps.stays (h.sticky hcase)⟩
  · rw [hcapability]
    exact h.capability
  · rw [hhealth]
    exact h.health
  · rw [hcurrent, havailability, hreachability, hreadiness]
    exact h.availability

/-- An entry that publishes no availability and withdraws only what is withdrawn already changes nothing. -/
theorem Entry.Moves.refl (havailability : ∀ observation, ¬entry.Does agent record.descriptor.boot (.availability observation))
    (hsticky : entry.Does agent record.descriptor.boot .withdrawal → record.lifecycle.IsSticky) :
    entry.Moves agent record record :=
  ⟨rfl, .inl, .inl, fun hcurrent => .inl ⟨hcurrent, havailability, rfl, rfl, rfl⟩, fun hcase => hcase.elim id hsticky⟩

/-- A step keeps an agent that it does not concern, unless it loads a file or starts over. -/
theorem System.step_other (hvalid : system.Valid) (hother : system.subject label ≠ some agent)
    (hdeeds : Deeds system.context (fun event => event.IsBookkeeping ∨ system.Causes label event) (∅, system.impl)
      (∅, after.impl)) (hrecord' : after.impl.agents[agent]? = some record') :
    ∃ record, system.impl.agents[agent]? = some record ∧ record.Keeps record' := by
  obtain ⟨htouches, henrolls⟩ := System.Causes.subject hother
  refine hdeeds.keepsAgent hvalid.healthy.consistent (fun event hallowed => ?_) (fun descriptor hallowed => ?_) record' hrecord'
  · rcases hallowed with hbook | hcauses
    · exact hbook
    · exact htouches event hcauses
  · rcases hallowed with hbook | hcauses
    · exact hbook.elim
    · exact henrolls descriptor hcauses

/-- An entry that failed accomplished nothing. -/
theorem Entry.not_does_of_error {error : SchedulerError} (hreply : entry.reply = .mutation (.error error)) :
    ¬entry.Does agent boot act := by
  intro hdoes
  cases hdoes with
  | capabilities _ _ hok | health _ _ hok | availability _ _ hok | drain _ _ hok | deregistration _ _ hok | loss _ _ _ _ hok
  | lostAgain _ _ hok =>
    rw [hreply] at hok
    cases hok

theorem Entry.Moves.of_error {error : SchedulerError} (hreply : entry.reply = .mutation (.error error)) :
    entry.Moves agent record record :=
  .refl (fun _ => not_does_of_error hreply) fun hdoes => (not_does_of_error hreply hdoes).elim

/-- A record that has nothing to show any more, under the same boot and stuck. -/
theorem Entry.Moves.of_sticky (record' : AgentRecord) (hboot : record'.descriptor.boot = record.descriptor.boot)
    (hblank : record'.capabilityCurrent = false ∧ record'.healthCurrent = false ∧ record'.availabilityCurrent = false)
    (hsticky : record'.lifecycle.IsSticky) : entry.Moves agent record record' := by
  refine ⟨hboot, fun hshown => ?_, fun hshown => ?_, fun hshown => ?_, fun _ => hsticky⟩
  · rw [hblank.1] at hshown
    cases hshown
  · rw [hblank.2.1] at hshown
    cases hshown
  · rw [hblank.2.2] at hshown
    cases hshown

/-- An operation with one locked section moves the agent it concerns by what it accomplishes. -/
theorem System.run_moves {operation : Operation} (hvalid : system.Valid)
    (hstep : system.step (.run operation) = some (reply, after)) (hsubject : operation.subject = some agent)
    (hrecord' : after.impl.agents[agent]? = some record') :
    ∃ record, system.impl.agents[agent]? = some record ∧ Entry.Moves ⟨system, .run operation, reply⟩ agent record record' := by
  have hconsistent := hvalid.healthy.consistent
  have hkey := hconsistent.agentKey
  obtain ⟨rfl, rfl⟩ := Prod.mk.inj (Option.some.inj hstep)
  -- nothing happened, and the reply says so
  have hfailed : ∀ error : SchedulerError, (runOperation system.context system.impl operation) = (.mutation (.error error), system.impl) →
      ∃ record, system.impl.agents[agent]? = some record ∧
        Entry.Moves ⟨system, .run operation, (runOperation system.context system.impl operation).1⟩ agent record record' := by
    intro error hform
    change (runOperation system.context system.impl operation).2.agents[agent]? = some record' at hrecord'
    rw [hform] at hrecord' ⊢
    exact ⟨record', hrecord', .of_error rfl⟩
  cases operation <;> try cases hsubject
  case publishCapabilities boot profile =>
    change (publishCapabilities system.now system.impl agent boot profile).2.agents[agent]? = some record' at hrecord'
    rcases publishCapabilities_cases system.now agent boot profile hconsistent with
      ⟨error, hform⟩ | hform | ⟨record, canonical, after, hrecord, rfl, hform, hkeeps⟩
    · exact hfailed error (congrArg (Prod.map Reply.mutation id) hform)
    · rw [hform] at hrecord'
      refine ⟨record', hrecord', .refl (fun _ hdoes => ?_) fun hdoes => ?_⟩
      · cases hdoes with | availability _ hlabel => cases hlabel
      · cases hdoes with
        | drain _ hlabel | deregistration _ hlabel | loss _ _ hlabel | lostAgain _ hlabel => cases hlabel
    · rw [hform] at hrecord'
      obtain ⟨stored, hstored, hkept⟩ := hkeeps record' hrecord'
      rw [getElem?_setAgent, if_pos rfl] at hstored
      obtain rfl := Option.some.inj hstored
      have hreply : (runOperation system.context system.impl (.publishCapabilities agent record.descriptor.boot profile)).1 =
          .mutation (.ok ()) := congrArg (fun step : Step => Reply.mutation step.1) hform
      refine ⟨record, hrecord, Entry.Moves.keeps ((AgentEvent.published record.descriptor.boot canonical).update
        system.now system.impl record) ⟨rfl, fun _ => .inr (.capabilities profile rfl hreply), .inl,
        fun hcurrent => .inl ⟨hcurrent, fun _ hdoes => ?_, rfl, rfl, rfl⟩, fun hcase => hcase.elim id fun hdoes => ?_⟩ hkept⟩
      · cases hdoes with | availability _ hlabel => cases hlabel
      · cases hdoes with
        | drain _ hlabel | deregistration _ hlabel | loss _ _ hlabel | lostAgain _ hlabel => cases hlabel
  case publishHealth boot observation =>
    change (publishHealth system.now system.impl agent boot observation).2.agents[agent]? = some record' at hrecord'
    rcases publishHealth_cases system.now system.impl agent boot observation with
      ⟨error, hform⟩ | ⟨record, observed, hrecord, rfl, hform⟩
    · exact hfailed error (congrArg (Prod.map Reply.mutation id) hform)
    · rw [hform] at hrecord'
      let touched := (AgentEvent.reported record.descriptor.boot { observation with observedAtMs := observed }).update system.now
        system.impl record
      have hkept : touched.Keeps record' := keeps_replaceAgent hconsistent (hkey agent record hrecord) hrecord'
      have hreply : (runOperation system.context system.impl (.publishHealth agent record.descriptor.boot observation)).1 =
          .mutation (.ok ()) := congrArg (fun step : Step => Reply.mutation step.1) hform
      refine ⟨record, hrecord, Entry.Moves.keeps touched ⟨rfl, .inl, fun _ => .inr (.health observation rfl hreply),
        fun hcurrent => .inl ⟨hcurrent, fun _ hdoes => ?_, rfl, rfl, rfl⟩, fun hcase => hcase.elim id fun hdoes => ?_⟩ hkept⟩
      · cases hdoes with | availability _ hlabel => cases hlabel
      · cases hdoes with
        | drain _ hlabel | deregistration _ hlabel | loss _ _ hlabel | lostAgain _ hlabel => cases hlabel
  case publishAvailability boot observation =>
    change (publishAvailability system.now system.impl agent boot observation).2.agents[agent]? = some record' at hrecord'
    rcases publishAvailability_cases system.now system.impl agent boot observation with
      ⟨error, hform⟩ | ⟨record, observed, hrecord, rfl, hform⟩
    · exact hfailed error (congrArg (Prod.map Reply.mutation id) hform)
    · rw [hform] at hrecord'
      let touched := (AgentEvent.available record.descriptor.boot { observation with observedAtMs := observed }).update system.now
        system.impl record
      have hkept : touched.Keeps record' := keeps_replaceAgent hconsistent (hkey agent record hrecord) hrecord'
      have hreply : (runOperation system.context system.impl (.publishAvailability agent record.descriptor.boot observation)).1 =
          .mutation (.ok ()) := congrArg (fun step : Step => Reply.mutation step.1) hform
      refine ⟨record, hrecord, Entry.Moves.keeps touched ⟨rfl, .inl, .inl,
        fun _ => .inr ⟨observation, .availability observation rfl hreply, rfl, rfl, rfl⟩,
        fun hcase => hcase.elim id fun hdoes => ?_⟩ hkept⟩
      cases hdoes with
      | drain _ hlabel | deregistration _ hlabel | loss _ _ hlabel | lostAgain _ hlabel => cases hlabel
  case drainAgent boot force =>
    change (drainAgent system.now system.impl agent boot force).2.agents[agent]? = some record' at hrecord'
    rcases drainAgent_cases system.now agent boot force hconsistent with
      ⟨error, hform⟩ | ⟨record, after, hrecord, rfl, hform, hkeeps⟩
    · exact hfailed error (congrArg (Prod.map Reply.mutation id) hform)
    · rw [hform] at hrecord'
      obtain ⟨stored, hstored, hkept⟩ := hkeeps record' hrecord'
      rw [getElem?_setAgent, if_pos rfl] at hstored
      obtain rfl := Option.some.inj hstored
      let drained := (AgentEvent.drained record.descriptor.boot).update system.now system.impl record
      refine ⟨record, hrecord, Entry.Moves.keeps drained ⟨rfl, .inl, .inl,
        fun hcurrent => .inl ⟨hcurrent, fun _ hdoes => ?_, rfl, rfl, rfl⟩, fun _ => .inr (.inr rfl)⟩ hkept⟩
      cases hdoes with | availability _ hlabel => cases hlabel
  case deregisterAgent boot force =>
    change (deregisterAgent system.now system.impl agent boot force).2.agents[agent]? = some record' at hrecord'
    rcases deregisterAgent_cases system.now agent boot force hconsistent with
      ⟨-, error, hform⟩ | ⟨record, stored, hrecord, rfl, -, -, hstored, hboot, hform⟩
    · exact hfailed error (congrArg (Prod.map Reply.mutation id) hform)
    · rw [hform] at hrecord'
      obtain ⟨hmoves, -, -⟩ := deregister_idle {} agent record.descriptor.boot system.now hconsistent
      have hretired : Consistent (retiredIncarnation system.now system.impl agent record) :=
        (Quiet.fenceBoot system.now _ agent record.descriptor.boot record.descriptor.generation "deregistered" (hmoves hconsistent).1).1
      let retired : AgentRecord := { invalidateDynamicEvidence stored with lifecycle := .retired, reason := "deregistered" }
      have hkept : retired.Keeps record' := keeps_replaceAgent hretired (hretired.agentKey agent stored hstored) hrecord'
      exact ⟨record, hrecord, Entry.Moves.keeps _ (.of_sticky retired hboot ⟨rfl, rfl, rfl⟩ (.inr (.inl rfl))) hkept⟩

/-- The evidence of a fresh record. -/
theorem freshAgent_blank (now : UInt64) (impl : Impl) (descriptor : AgentDescriptor) (reason : Text) :
    (freshAgent now impl descriptor reason).descriptor.boot = descriptor.boot ∧
      (freshAgent now impl descriptor reason).capabilityCurrent = false ∧
      (freshAgent now impl descriptor reason).healthCurrent = false ∧
      (freshAgent now impl descriptor reason).availabilityCurrent = false := by
  unfold freshAgent
  rw [recomputeLifecycle_eq]
  exact ⟨rfl, rfl, rfl, rfl⟩

/-- The second section of a call starts the incarnation it registers, or moves the agent by what it accomplishes. -/
theorem System.finish_moves {position : Nat} {call : Call} (hvalid : system.Valid)
    (hlost : ∀ record, system.impl.agents[agent]? = some record → record.lifecycle = .lost →
      bootIsFenced system.impl record.descriptor.boot)
    (hcall : system.calls[position]? = some call) (hstep : system.step (.finish position) = some (reply, after))
    (hsubject : call.subject = some agent) (hrecord' : after.impl.agents[agent]? = some record') :
    (Entry.Anchors ⟨system, .finish position, reply⟩ agent record'.descriptor.boot ∧
      record'.capabilityCurrent = false ∧ record'.healthCurrent = false ∧ record'.availabilityCurrent = false) ∨
    ∃ record, system.impl.agents[agent]? = some record ∧
      ¬Entry.Anchors ⟨system, .finish position, reply⟩ agent record.descriptor.boot ∧
      Entry.Moves ⟨system, .finish position, reply⟩ agent record record' := by
  have hconsistent := hvalid.healthy.consistent
  have hkey := hconsistent.agentKey
  simp only [System.step, hcall] at hstep
  obtain ⟨rfl, rfl⟩ := Prod.mk.inj (Option.some.inj hstep)
  -- what another entry under this label would be
  have hsame : ∀ other, system.calls[position]? = some other → other = call := fun other hother =>
    Option.some.inj (hother.symm.trans hcall)
  cases call <;> try cases hsubject
  case declareAgentLost boot reason =>
    right
    change (declareAgentLostCommit system.now system.impl agent boot reason).2.agents[agent]? = some record' at hrecord'
    have hanchors : ∀ {reply boot}, ¬Entry.Anchors ⟨system, .finish position, reply⟩ agent boot := by
      intro reply boot hanchors
      cases hanchors with
      | registration other descriptor hlabel hother =>
        obtain rfl := Label.finish.inj hlabel
        cases hsame _ hother
      | load _ _ _ hlabel => cases hlabel
    by_cases hcurrent : ∃ record, system.impl.agents[agent]? = some record ∧ record.descriptor.boot = boot
    · obtain ⟨record, hrecord, rfl⟩ := hcurrent
      obtain ⟨stored, hstored, hboot, hform⟩ :=
        declareAgentLostCommit_current system.now reason hconsistent hrecord
      rw [hform] at hrecord'
      have hclosed := (lostIncarnation_idle system.now agent record reason
        hconsistent agent).1
      let lost : AgentRecord := { invalidateDynamicEvidence stored with lifecycle := .lost, reason := reason }
      have hkept : lost.Keeps record' := keeps_replaceAgent hclosed (hclosed.agentKey agent stored hstored) hrecord'
      exact ⟨record, hrecord, hanchors, Entry.Moves.keeps _ (.of_sticky lost hboot ⟨rfl, rfl, rfl⟩ (.inl rfl)) hkept⟩
    · rw [declareAgentLostCommit_agents hcurrent] at hrecord'
      refine ⟨record', hrecord', hanchors, .refl (fun _ hdoes => ?_) fun hdoes => ?_⟩
      · cases hdoes with | availability _ hlabel => cases hlabel
      · cases hdoes with
        | drain _ hlabel | deregistration _ hlabel | lostAgain _ hlabel => cases hlabel
        | loss other _ hlabel hother =>
          obtain rfl := Label.finish.inj hlabel
          obtain ⟨-, hboot, -⟩ := Call.declareAgentLost.inj (hsame _ hother)
          exact (hcurrent ⟨record', hrecord', hboot⟩).elim
  case registerAgent descriptor =>
    have hwithdraws : ∀ {reply boot act}, ¬Entry.Does ⟨system, .finish position, reply⟩ descriptor.id boot act := by
      intro reply boot act hdoes
      cases hdoes with
      | capabilities _ hlabel | health _ hlabel | availability _ hlabel | drain _ hlabel | deregistration _ hlabel
      | lostAgain _ hlabel => cases hlabel
      | loss other _ hlabel hother =>
        obtain rfl := Label.finish.inj hlabel
        cases hsame _ hother
    change (registerAgentCommit system.now system.impl descriptor).2.agents[descriptor.id]? = some record' at hrecord'
    -- a fresh record was stored under an incarnation that the agent did not have
    have henrolls : ∀ {reason : Text} {impl : Impl},
        (∀ existing, system.impl.agents[descriptor.id]? = some existing →
          existing.descriptor.generation < descriptor.generation) →
        (registerAgentCommit system.now system.impl descriptor).1 = .ok () →
        (freshAgent system.now impl descriptor reason).Keeps record' →
        Entry.Anchors ⟨system, .finish position, .mutation (registerAgentCommit system.now system.impl descriptor).1⟩
            descriptor.id record'.descriptor.boot ∧
          record'.capabilityCurrent = false ∧ record'.healthCurrent = false ∧ record'.availabilityCurrent = false := by
      intro reason impl hnew hreply hkept
      obtain ⟨hboot, hcapability, hhealth, havailability⟩ := freshAgent_blank system.now impl descriptor reason
      obtain ⟨hboot', hcapability', hhealth', havailability', -⟩ := hkept.shown
      exact ⟨.registration position descriptor rfl hcall rfl (hboot'.trans hboot).symm hnew (congrArg Reply.mutation hreply),
        hcapability'.trans hcapability, hhealth'.trans hhealth, havailability'.trans havailability⟩
    rcases registerAgentCommit_cases system.now system.impl descriptor with
      ⟨-, error, hform⟩ | ⟨existing, hexisting, hnewer, -, hform⟩ | ⟨existing, hexisting, hgeneration, hboot, hopen, hform⟩ |
      ⟨hnone, hform⟩
    · right
      rw [hform] at hrecord'
      refine ⟨record', hrecord', fun hanchors => ?_, .refl (fun _ => hwithdraws) fun hdoes => (hwithdraws hdoes).elim⟩
      cases hanchors with
      | registration _ _ _ _ _ _ _ hreply =>
        have hreply : Reply.mutation (registerAgentCommit system.now system.impl descriptor).1 = .mutation (.ok ()) := hreply
        rw [hform] at hreply
        cases hreply
      | load _ _ _ hlabel => cases hlabel
    · left
      rw [hform] at hrecord'
      obtain ⟨hmoves, -, -⟩ := retireIncarnation_idle {} system.now hconsistent hexisting
      have hkept := keeps_replaceAgent (hmoves hconsistent).1 (by rw [freshAgent_descriptor]; rfl) hrecord'
      refine henrolls (fun found hfound => ?_) (congrArg Prod.fst hform) hkept
      obtain rfl := Option.some.inj (hexisting.symm.trans hfound)
      exact hnewer
    · right
      rw [hform] at hrecord'
      let registered := reregistered system.now system.impl descriptor existing
      have hkept : registered.Keeps record' := keeps_replaceAgent hconsistent rfl hrecord'
      refine ⟨existing, hexisting, fun hanchors => ?_, Entry.Moves.keeps registered ⟨hboot, .inl, .inl,
        fun hcurrent => .inl ⟨hcurrent, fun _ => hwithdraws, rfl, rfl, rfl⟩, fun hcase => ?_⟩ hkept⟩
      · cases hanchors with
        | registration other found hlabel hother _ _ hnew =>
          obtain rfl := Label.finish.inj hlabel
          obtain rfl := Call.registerAgent.inj (hsame _ hother)
          exact Nat.lt_irrefl _ (hgeneration ▸ hnew existing hexisting)
        | load _ _ _ hlabel => cases hlabel
      · have hsticky : existing.lifecycle.IsSticky := hcase.resolve_right hwithdraws
        have hunlost : existing.lifecycle ≠ .lost := fun hlifecycle => by
          rw [hboot, hlost existing hexisting hlifecycle] at hopen
          cases hopen
        change (if existing.lifecycle = .lost then _ else existing.lifecycle).IsSticky
        rw [if_neg hunlost]
        exact hsticky
    · left
      rw [hform] at hrecord'
      have hstored : (system.impl.setAgent descriptor.id (freshAgent system.now system.impl descriptor "registered")).agents[descriptor.id]? =
        some record' := hrecord'
      rw [getElem?_setAgent, if_pos rfl] at hstored
      obtain rfl := Option.some.inj hstored
      refine henrolls (fun found hfound => ?_) (congrArg Prod.fst hform) (.refl _)
      rw [hnone] at hfound
      cases hfound

/-- A constructed instance knows no agent. -/
theorem construct_agents {options : SchedulerOptions} {generatedId : SchedulerId} {impl : Impl}
    (h : construct options generatedId = some impl) : impl.agents = ∅ := by
  unfold construct at h
  simp only at h
  split at h
  · rw [← Option.some.inj h]
    unfold start
    repeat' split
    all_goals rfl
  · cases h

/-- A recovered agent has nothing to show. -/
theorem restore_blank {impl file : Impl} (h : Consistent file)
    (hrecord : (restore impl (image file)).agents[agent]? = some record) :
    record.capabilityCurrent = false ∧ record.healthCurrent = false ∧ record.availabilityCurrent = false := by
  obtain ⟨installed, hinstalled, hkeeps⟩ := keepsAgent_restore h record hrecord
  change (file.agents.map fun _ record => record.recover)[agent]? = some installed at hinstalled
  rw [getElem?_map] at hinstalled
  obtain ⟨saved, -, rfl⟩ := Option.map_eq_some_iff.mp hinstalled
  obtain ⟨-, hcapability, hhealth, havailability, -⟩ := hkeeps.shown
  exact ⟨hcapability, hhealth, havailability⟩

/-- A loss that is answered at once found the incarnation lost. -/
theorem declareAgentLostBegin_sticky {impl : Impl} {reason : Text} {ctx : Context} {era : Nat}
    (h : beginCall ctx impl era (.declareAgentLost agent boot reason) = .inl reply)
    (hrecord : impl.agents[agent]? = some record) : record.lifecycle.IsSticky := by
  simp only [beginCall] at h
  split at h
  · next hlost =>
    simp only [declareAgentLostBegin, hrecord, Bool.and_eq_true, decide_eq_true_eq] at hlost
    exact .inl hlost.2
  · cases h

/-- Every step loads a file, starts the incarnation it registers, or moves an agent by what it accomplishes for it. -/
theorem System.step_moves (hvalid : system.Valid)
    (hlost : ∀ record, system.impl.agents[agent]? = some record → record.lifecycle = .lost →
      bootIsFenced system.impl record.descriptor.boot)
    (hstep : system.step label = some (reply, after)) (hrecord' : after.impl.agents[agent]? = some record') :
    (Entry.Anchors ⟨system, label, reply⟩ agent record'.descriptor.boot ∧
      record'.capabilityCurrent = false ∧ record'.healthCurrent = false ∧ record'.availabilityCurrent = false) ∨
    ∃ record, system.impl.agents[agent]? = some record ∧ ¬Entry.Anchors ⟨system, label, reply⟩ agent record.descriptor.boot ∧
      Entry.Moves ⟨system, label, reply⟩ agent record record' := by
  by_cases hload : ∃ position, label = .load position
  · obtain ⟨position, rfl⟩ := hload
    simp only [System.step] at hstep
    split at hstep
    · cases hstep
    · next file hfile =>
      split at hstep
      · obtain ⟨rfl, rfl⟩ := Prod.mk.inj (Option.some.inj hstep)
        refine .inr ⟨record', hrecord', fun hanchors => ?_, .of_error rfl⟩
        cases hanchors with
        | registration _ _ hlabel => cases hlabel
        | load _ _ _ _ hreply => cases hreply
      · obtain ⟨rfl, rfl⟩ := Prod.mk.inj (Option.some.inj hstep)
        exact .inl ⟨.load position _ _ rfl rfl,
          restore_blank (hvalid.saved file (List.mem_of_getElem? hfile)).consistent hrecord'⟩
  · rcases System.step_deeds hvalid hstep with ⟨position, _, rfl, -⟩ | ⟨options, id, -, hconstruct⟩ | hdeeds
    · exact (hload ⟨position, rfl⟩).elim
    · rw [construct_agents hconstruct] at hrecord'
      simp at hrecord'
    · by_cases hsubject : system.subject label = some agent
      · cases label with
        | run operation =>
          obtain ⟨record, hrecord, hmoves⟩ := System.run_moves hvalid hstep hsubject hrecord'
          refine .inr ⟨record, hrecord, fun hanchors => ?_, hmoves⟩
          cases hanchors with
          | registration _ _ hlabel | load _ _ _ hlabel => cases hlabel
        | finish position =>
          obtain ⟨call, hcall, hsubject⟩ := Option.bind_eq_some_iff.mp hsubject
          exact System.finish_moves hvalid hlost hcall hstep hsubject hrecord'
        | _ => cases hsubject
      · obtain ⟨record, hrecord, hkeeps⟩ := System.step_other hvalid hsubject hdeeds hrecord'
        refine .inr ⟨record, hrecord, fun hanchors => ?_, Entry.Moves.keeps _ (.refl (fun observation hdoes => ?_) fun hdoes => ?_) hkeeps⟩
        · exact hanchors.subject.elim hsubject hload
        · rcases hdoes.subject with hconcerns | ⟨hact, -⟩
          · exact hsubject hconcerns
          · cases hact
        · rcases hdoes.subject with hconcerns | ⟨-, reason, hlabel⟩
          · exact (hsubject hconcerns).elim
          · obtain rfl : label = .begin (.declareAgentLost agent record.descriptor.boot reason) := hlabel
            simp only [System.step] at hstep
            split at hstep
            · next hbegin => exact declareAgentLostBegin_sticky hbegin hrecord
            · obtain ⟨rfl, -⟩ := Prod.mk.inj (Option.some.inj hstep)
              cases hdoes with
              | drain _ hlabel | deregistration _ hlabel | loss _ _ hlabel => cases hlabel
              | lostAgain _ _ hreply => cases hreply

end Entries

/-! ### What a record goes back to -/

/-- What an agent shows, it has published since its incarnation was registered or recovered; and a withdrawal sticks. -/
structure Shown (recent : List Entry) (agent : AgentId) (record : AgentRecord) : Prop where
  present : ∀ entry ∈ recent, ¬entry.Anchors agent record.descriptor.boot ∧
    ∃ before, entry.before.impl.agents[agent]? = some before ∧ before.descriptor.boot = record.descriptor.boot
  capability : record.capabilityCurrent → ∃ entry ∈ recent, entry.Does agent record.descriptor.boot .capabilities
  health : record.healthCurrent → ∃ entry ∈ recent, entry.Does agent record.descriptor.boot .health
  availability : record.availabilityCurrent → ∃ newer entry older observation, recent = newer ++ entry :: older ∧
    entry.Does agent record.descriptor.boot (.availability observation) ∧
    (∀ entry ∈ newer, ∀ observation, ¬entry.Does agent record.descriptor.boot (.availability observation)) ∧
    record.availability = observation.availability ∧ record.reachability = observation.reachability ∧
    record.readiness = observation.readiness
  sticky : (∃ entry ∈ recent, entry.Does agent record.descriptor.boot .withdrawal) → record.lifecycle.IsSticky

/-- Where the present incarnation of an agent begins in a history. -/
def Grounded (history : List Entry) (agent : AgentId) (record : AgentRecord) : Prop :=
  ∃ recent anchor older, history = recent ++ anchor :: older ∧ anchor.Anchors agent record.descriptor.boot ∧
    Shown recent agent record

section Histories
variable {system after : System} {label : Label} {reply : Reply} {agent : AgentId} {record record' : AgentRecord} {entry : Entry}
  {recent history : List Entry}

/-- A record without evidence goes back to nothing. -/
theorem Shown.blank (hblank : record.capabilityCurrent = false ∧ record.healthCurrent = false ∧ record.availabilityCurrent = false) :
    Shown [] agent record := by
  obtain ⟨hcapability, hhealth, havailability⟩ := hblank
  refine ⟨fun _ h => (List.not_mem_nil h).elim, fun h => ?_, fun h => ?_, fun h => ?_, fun ⟨_, h, _⟩ => (List.not_mem_nil h).elim⟩
  · rw [hcapability] at h
    cases h
  · rw [hhealth] at h
    cases h
  · rw [havailability] at h
    cases h

theorem Shown.moves (h : Shown recent agent record) (hrecord : entry.before.impl.agents[agent]? = some record)
    (hanchors : ¬entry.Anchors agent record.descriptor.boot) (hmoves : entry.Moves agent record record') :
    Shown (entry :: recent) agent record' := by
  refine ⟨fun found hfound => ?_, fun hshown => ?_, fun hshown => ?_, fun hshown => ?_, fun hwithdrawn => ?_⟩
  · rw [hmoves.boot]
    rcases List.mem_cons.mp hfound with rfl | hold
    · exact ⟨hanchors, record, hrecord, rfl⟩
    · exact h.present found hold
  · rw [hmoves.boot]
    rcases hmoves.capability hshown with hbefore | hdoes
    · obtain ⟨found, hfound, hdoes⟩ := h.capability hbefore
      exact ⟨found, List.mem_cons_of_mem _ hfound, hdoes⟩
    · exact ⟨entry, List.mem_cons_self, hdoes⟩
  · rw [hmoves.boot]
    rcases hmoves.health hshown with hbefore | hdoes
    · obtain ⟨found, hfound, hdoes⟩ := h.health hbefore
      exact ⟨found, List.mem_cons_of_mem _ hfound, hdoes⟩
    · exact ⟨entry, List.mem_cons_self, hdoes⟩
  · rw [hmoves.boot]
    rcases hmoves.availability hshown with ⟨hbefore, hnone, havailability, hreachability, hreadiness⟩ | ⟨observation, hdoes, hvalues⟩
    · obtain ⟨newer, found, older, observation, rfl, hdoes, hnewer, hvalues⟩ := h.availability hbefore
      rw [havailability, hreachability, hreadiness]
      refine ⟨entry :: newer, found, older, observation, rfl, hdoes, fun other hother => ?_, hvalues⟩
      rcases List.mem_cons.mp hother with rfl | hold
      · exact hnone
      · exact hnewer other hold
    · exact ⟨[], entry, recent, observation, rfl, hdoes, fun _ hnil => (List.not_mem_nil hnil).elim, hvalues⟩
  · refine hmoves.sticky ?_
    rw [hmoves.boot] at hwithdrawn
    obtain ⟨found, hfound, hdoes⟩ := hwithdrawn
    rcases List.mem_cons.mp hfound with rfl | hold
    · exact .inr hdoes
    · exact .inl (h.sticky ⟨found, hold, hdoes⟩)

theorem System.Follows.reached {allowed : System → Label → Prop} (h : System.Follows allowed history system) :
    system.ReachableBy allowed := by
  induction h with
  | initial hinitial => exact ⟨_, hinitial, .refl⟩
  | step _ hallowed hstep ih => exact ih.trans (.single ⟨_, _, hallowed, hstep⟩)

theorem System.ReachableBy.follows {allowed : System → Label → Prop} (h : system.ReachableBy allowed) :
    ∃ history, System.Follows allowed history system := by
  refine System.ReachableBy.keeps (motive := fun system => ∃ history, System.Follows allowed history system) h
    (fun start hstart => ⟨[], .initial hstart⟩) fun s s' label reply _ hallowed hstep hinv => ?_
  obtain ⟨history, hfollows⟩ := hinv
  exact ⟨_, .step hfollows hallowed hstep⟩

/-- Every entry of a history was a step that was allowed. -/
theorem System.Follows.mem {allowed : System → Label → Prop} (h : System.Follows allowed history system)
    (hentry : entry ∈ history) :
    allowed entry.before entry.label ∧ entry.before.Valid ∧ ∃ after, entry.before.step entry.label = some (entry.reply, after) := by
  induction h with
  | initial => cases hentry
  | step hbefore hallowed hstep ih =>
    rcases List.mem_cons.mp hentry with rfl | hold
    · exact ⟨hallowed, hbefore.reached.valid, _, hstep⟩
    · exact ih hold

/-- Deeds keep the fences of lost agents. -/
theorem Deed.lostFenced {ctx : Context} {event : Event} {scene scene' : Set AgentId × Impl} (hdeed : Deed ctx event scene scene')
    (hconsistent : Consistent scene.2)
    (h : ∀ (agent : AgentId) record, scene.2.agents[agent]? = some record → record.lifecycle = .lost →
      bootIsFenced scene.2 record.descriptor.boot) :
    ∀ (agent : AgentId) record, scene'.2.agents[agent]? = some record → record.lifecycle = .lost →
      bootIsFenced scene'.2 record.descriptor.boot := by
  intro agent record' hrecord' hlost
  refine (hdeed.fenceEffect hconsistent).1 ?_
  cases hdeed.agentEffect hconsistent hrecord' with
  | kept record hrecord hkeeps =>
    rw [hkeeps.shown.1]
    exact h agent record hrecord ((hkeeps.sticky (.inr (.inl hlost))).symm.trans hlost)
  | touched record touch _ hrecord hadmits hupdate =>
    subst hupdate
    cases touch with
    | reported | available | published => exact h agent record hrecord hlost
    | drained | retired => cases hlost
    | lost boot reason =>
      obtain ⟨rfl, hfenced⟩ := hadmits
      exact hfenced
    | reregistered descriptor =>
      change (if record.lifecycle = .lost then _ else record.lifecycle) = _ at hlost
      split at hlost
      · cases hlost
      · next hnot => exact (hnot hlost).elim
  | enrolled descriptor reason _ _ hfresh =>
    subst hfresh
    have hsettled := recomputeLifecycle_sticky (.inr (.inl hlost))
    unfold freshAgent at hlost
    rw [hsettled] at hlost
    cases hlost

/-- A lost agent runs under a fenced boot. -/
theorem System.Reachable.lost_fenced (h : system.Reachable) (hrecord : system.impl.agents[agent]? = some record)
    (hlost : record.lifecycle = .lost) : bootIsFenced system.impl record.descriptor.boot := by
  let fenced (impl : Impl) : Prop := ∀ (agent : AgentId) record, impl.agents[agent]? = some record → record.lifecycle = .lost →
    bootIsFenced impl record.descriptor.boot
  refine (System.ReachableBy.stores (motive := fenced) h (fun hconstruct agent record hrecord => ?_)
    (fun {impl file} hfile hfenced agent record hrecord hlost => ?_)
    fun {s s'} {label} {reply} hvalid _ _ hdeeds hfenced => ?_).1 agent record hrecord hlost
  · rw [construct_agents hconstruct] at hrecord
    simp at hrecord
  · obtain ⟨installed, hinstalled, hkeeps⟩ := keepsAgent_restore hfile record hrecord
    change (file.agents.map fun _ record => record.recover)[agent]? = some installed at hinstalled
    rw [getElem?_map] at hinstalled
    obtain ⟨saved, hsaved, rfl⟩ := Option.map_eq_some_iff.mp hinstalled
    have hrecovered : saved.recover.lifecycle = .lost := (hkeeps.sticky (.inr (.inl hlost))).symm.trans hlost
    have hbefore : saved.lifecycle = .lost := by
      change lifecycleFromHint (lifecycleHint saved.lifecycle) = .lost at hrecovered
      cases hlifecycle : saved.lifecycle <;> rw [hlifecycle] at hrecovered <;> first | rfl | exact absurd hrecovered (by decide)
    rw [bootIsFenced_restore, hkeeps.shown.1]
    exact hfenced agent saved hsaved hbefore
  · exact hdeeds.keeps (motive := fun scene => fenced scene.2) (fun event scene scene' _ hdeed hscene hinv => hdeed.lostFenced hscene hinv)
      hvalid.healthy.consistent hfenced

/-- What an agent shows in a reachable state goes back to its history. -/
theorem System.Follows.grounded {allowed : System → Label → Prop} (h : System.Follows allowed history system)
    (hrecord : system.impl.agents[agent]? = some record) : Grounded history agent record := by
  induction h generalizing record with
  | @initial system hinitial =>
    obtain ⟨options, generatedId, now, hstart⟩ := hinitial
    obtain ⟨impl, hconstruct, rfl⟩ := Option.map_eq_some_iff.mp hstart
    rw [construct_agents hconstruct] at hrecord
    simp at hrecord
  | @step history system after label reply hbefore _ hstep ih =>
    have hreached : system.Reachable := hbefore.reached.mono fun _ _ _ => trivial
    rcases System.step_moves hreached.valid (fun record hrecord hlost => System.Reachable.lost_fenced hreached hrecord hlost)
      hstep hrecord with ⟨hanchors, hblank⟩ | ⟨before, hstored, hanchors, hmoves⟩
    · exact ⟨[], _, history, rfl, hanchors, .blank hblank⟩
    · obtain ⟨recent, anchor, older, rfl, hanchor, hshown⟩ := ih hstored
      refine ⟨_ :: recent, anchor, older, rfl, ?_, hshown.moves hstored hanchors hmoves⟩
      rw [hmoves.boot]
      exact hanchor

end Histories

/-! ### Readiness -/

/-- Since its incarnation was registered or recovered, an agent has published everything, being available at last, and
none of the withdrawers has withdrawn the boot. -/
def Earned (history : List Entry) (agent : AgentId) (boot : AgentBootId) (withdrawers : Set AgentId) : Prop :=
  ∃ recent anchor older, history = recent ++ anchor :: older ∧ anchor.Anchors agent boot ∧
    (∀ entry ∈ recent, ¬entry.Anchors agent boot) ∧
    (∃ entry ∈ recent, entry.Does agent boot .capabilities) ∧
    (∃ entry ∈ recent, entry.Does agent boot .health) ∧
    (∃ newer entry oldest observation, recent = newer ++ entry :: oldest ∧ entry.Does agent boot (.availability observation) ∧
      (∀ entry ∈ newer, ∀ observation, ¬entry.Does agent boot (.availability observation)) ∧
      observation.availability = .available ∧ observation.reachability = .reachable ∧ observation.readiness = .ready) ∧
    ∀ entry ∈ recent, ∀ other ∈ withdrawers, ¬entry.Does other boot .withdrawal

/-- Whatever agent is ready, busy, or eligible for a work item has earned it; and it is busy when it holds something. -/
structure System.EarnsReadiness (system : System) (history : List Entry) (withdrawers : AgentId → Set AgentId) : Prop where
  earned : ∀ (agent : AgentId) record, system.impl.agents[agent]? = some record →
    record.lifecycle = .ready ∨ record.lifecycle = .busy ∨ (∃ ctx work, system.impl.Eligible ctx agent work) →
    Earned history agent record.descriptor.boot (withdrawers agent)
  busy : ∀ (agent : AgentId) record, system.impl.agents[agent]? = some record →
    record.lifecycle = .ready ∨ record.lifecycle = .busy →
    (record.lifecycle = .busy ↔ ∃ (id : AssignmentId) (assignment : AssignmentRecord),
      system.impl.assignments[id]? = some assignment ∧ assignment.state.isActive ∧ assignment.binding.agent = agent)

/-- The steps that withdraw a boot, with the agent they do it for. -/
inductive System.Withdraws (system : System) : Label → AgentId → AgentBootId → Prop
  | drain (agent : AgentId) (boot : AgentBootId) (force : Bool) (record : AgentRecord)
      (hrecord : system.impl.agents[agent]? = some record) (hboot : record.descriptor.boot = boot) :
      System.Withdraws system (.run (.drainAgent agent boot force)) agent boot
  | deregistration (agent : AgentId) (boot : AgentBootId) (force : Bool) (record : AgentRecord)
      (hrecord : system.impl.agents[agent]? = some record) (hboot : record.descriptor.boot = boot) :
      System.Withdraws system (.run (.deregisterAgent agent boot force)) agent boot
  | loss (position : Nat) (agent : AgentId) (boot : AgentBootId) (reason : Text)
      (hcall : system.calls[position]? = some (.declareAgentLost agent boot reason)) :
      System.Withdraws system (.finish position) agent boot
  | lostAgain (agent : AgentId) (boot : AgentBootId) (reason : Text) (record : AgentRecord)
      (hrecord : system.impl.agents[agent]? = some record) (hboot : record.descriptor.boot = boot)
      (hlost : record.lifecycle = .lost) : System.Withdraws system (.begin (.declareAgentLost agent boot reason)) agent boot

/-- No boot is withdrawn for one agent while another one runs under it. -/
def System.Pairs (system : System) (label : Label) : Prop :=
  ∀ agent boot, system.Withdraws label agent boot → ∀ (other : AgentId) record, other ≠ agent →
    system.impl.agents[other]? = some record → record.descriptor.boot ≠ boot

section Earned
variable {system after : System} {label : Label} {reply : Reply} {agent other : AgentId} {boot : AgentBootId} {record : AgentRecord}
  {entry : Entry} {history recent : List Entry} {withdrawers : Set AgentId}

/-- What was withdrawn was withdrawn by a step that withdraws it. -/
theorem Entry.Does.withdraws (h : entry.Does agent boot .withdrawal) (hvalid : entry.before.Valid)
    (hstep : entry.before.step entry.label = some (entry.reply, after)) : entry.before.Withdraws entry.label agent boot := by
  obtain ⟨system, label, reply⟩ := entry
  have hconsistent := hvalid.healthy.consistent
  cases h with
  | drain force hlabel hreply =>
    obtain rfl := hlabel
    obtain ⟨hresult, -⟩ := Prod.mk.inj (Option.some.inj hstep)
    have hok : (drainAgent system.now system.impl agent boot force).1 = .ok () := Reply.mutation.inj (hresult.trans hreply)
    rcases drainAgent_cases system.now agent boot force hconsistent with
      ⟨error, hform⟩ | ⟨record, _, hrecord, hboot, -⟩
    · rw [hform] at hok
      cases hok
    · exact .drain agent boot force record hrecord hboot
  | deregistration force hlabel hreply =>
    obtain rfl := hlabel
    obtain ⟨hresult, -⟩ := Prod.mk.inj (Option.some.inj hstep)
    have hok : (deregisterAgent system.now system.impl agent boot force).1 = .ok () := Reply.mutation.inj (hresult.trans hreply)
    rcases deregisterAgent_cases system.now agent boot force hconsistent with
      ⟨-, error, hform⟩ | ⟨record, _, hrecord, hboot, -⟩
    · rw [hform] at hok
      cases hok
    · exact .deregistration agent boot force record hrecord hboot
  | loss position reason hlabel hcall hreply =>
    obtain rfl := hlabel
    exact .loss position agent boot reason hcall
  | lostAgain reason hlabel hreply =>
    obtain rfl := hlabel
    simp only [System.step, beginCall] at hstep
    split at hstep
    · next hbegin =>
      split at hbegin
      · next hlost =>
        unfold declareAgentLostBegin at hlost
        split at hlost
        · cases hlost
        · next record hrecord =>
          simp only [Bool.and_eq_true, decide_eq_true_eq] at hlost
          exact .lostAgain agent boot reason record hrecord hlost.1 hlost.2
      · cases hbegin
    · obtain ⟨hresult, -⟩ := Prod.mk.inj (Option.some.inj hstep)
      cases hresult.trans hreply

/-- An eligible agent is ready or busy. -/
theorem Impl.Eligible.lifecycle {impl : Impl} {ctx : Context} {work : WorkId} (h : impl.Eligible ctx agent work)
    (hrecord : impl.agents[agent]? = some record) : record.lifecycle = .ready ∨ record.lifecycle = .busy := by
  obtain ⟨found, item, hfound, -, heligible⟩ := h
  obtain rfl := Option.some.inj (hrecord.symm.trans hfound)
  rw [eligible_iff] at heligible
  unfold eligibility at heligible
  simp only [check_bind_eq_ok] at heligible
  obtain ⟨-, hlifecycle, -⟩ := heligible
  unfold checkLifecycle at hlifecycle
  cases hstate : record.lifecycle <;> rw [hstate] at hlifecycle <;> first | exact .inl rfl | exact .inr rfl | cases hlifecycle

/-- What is settled as ready or busy shows everything, and sticks to nothing. -/
theorem AgentRecord.shows_of_ready (hsettled : recomputeLifecycle record = record)
    (hready : record.lifecycle = .ready ∨ record.lifecycle = .busy) : record.Shows ∧ ¬record.lifecycle.IsSticky := by
  have hunstuck : ¬record.lifecycle.IsSticky := by
    rintro (hsticky | hsticky | hsticky) <;> rcases hready with h | h <;> rw [h] at hsticky <;> cases hsticky
  rcases recomputeLifecycle_cases hsettled with hsticky | ⟨-, hnot⟩ | ⟨hshows, -⟩
  · exact (hunstuck hsticky).elim
  · exact (hready.elim hnot.1 hnot.2).elim
  · exact ⟨hshows, hunstuck⟩

/-- Readiness is earned in every history in which the withdrawers withdraw nothing from an agent that shows something. -/
theorem System.Follows.earnsReadiness {allowed : System → Label → Prop} {withdrawers : AgentId → Set AgentId}
    (h : System.Follows allowed history system)
    (hwithdrawers : ∀ {agent record recent}, Shown recent agent record → ¬record.lifecycle.IsSticky →
      (∀ entry ∈ recent, entry ∈ history) → ∀ entry ∈ recent, ∀ other ∈ withdrawers agent,
        ¬entry.Does other record.descriptor.boot .withdrawal) :
    system.EarnsReadiness history withdrawers := by
  have hreached : system.Reachable := h.reached.mono fun _ _ _ => trivial
  have htidy := hreached.tidy
  refine ⟨fun agent record hrecord hcase => ?_, fun agent record hrecord hready => ?_⟩
  · have hready : record.lifecycle = .ready ∨ record.lifecycle = .busy := by
      rcases hcase with hready | hbusy | ⟨ctx, work, heligible⟩
      · exact .inl hready
      · exact .inr hbusy
      · exact heligible.lifecycle hrecord
    obtain ⟨⟨⟨hcapability, hhealth, havailability⟩, havailable, hreachable, hreadiness⟩, hunstuck⟩ :=
      AgentRecord.shows_of_ready (htidy.settledRecord hrecord) hready
    obtain ⟨recent, anchor, older, hhistory, hanchor, hshown⟩ := h.grounded hrecord
    obtain ⟨newer, entry, oldest, observation, hrecent, hdoes, hnewer, hvalues⟩ := hshown.availability havailability
    refine ⟨recent, anchor, older, hhistory, hanchor, fun entry hentry => (hshown.present entry hentry).1,
      hshown.capability hcapability, hshown.health hhealth, ⟨newer, entry, oldest, observation, hrecent, hdoes, hnewer,
        hvalues.1.symm.trans havailable, hvalues.2.1.symm.trans hreachable, hvalues.2.2.symm.trans hreadiness⟩, ?_⟩
    exact hwithdrawers hshown hunstuck fun entry hentry => hhistory ▸ List.mem_append_left _ hentry
  · obtain ⟨hcount, hsettled⟩ := htidy.settled agent (Set.notMem_empty _) record hrecord
    have hactive : (∃ (id : AssignmentId) (assignment : AssignmentRecord), system.impl.assignments[id]? = some assignment ∧
        assignment.state.isActive ∧ assignment.binding.agent = agent) ↔ 0 < record.activeAssignments := by
      rw [← Nat.cast_pos (α := ℕ∞), ← hcount, Set.encard_pos]
      rfl
    rw [hactive]
    obtain ⟨hshows, -⟩ := AgentRecord.shows_of_ready hsettled hready
    rcases recomputeLifecycle_cases hsettled with hsticky | ⟨hhides, -⟩ | ⟨-, hlifecycle⟩
    · exact ((AgentRecord.shows_of_ready hsettled hready).2 hsticky).elim
    · exact (hhides hshows).elim
    · rw [hlifecycle]
      split <;> simp_all

end Earned

/-- Readiness is earned. No agent is ready that was withdrawn under its own name; and none whose boot was withdrawn under
any name, in runs in which no boot is withdrawn for one agent while another one runs under it. -/
theorem readiness_earned (history : List Entry) (system : System) :
    (System.Follows (fun _ _ => True) history system → system.EarnsReadiness history fun agent => {agent}) ∧
      (System.Follows System.Pairs history system → system.EarnsReadiness history fun _ => Set.univ) := by
  constructor
  · intro hfollows
    refine hfollows.earnsReadiness fun hshown hunstuck _ entry hentry other hother hdoes => ?_
    obtain rfl := Set.mem_singleton_iff.mp hother
    exact hunstuck (hshown.sticky ⟨entry, hentry, hdoes⟩)
  · intro hfollows
    refine hfollows.earnsReadiness fun {agent record recent} hshown hunstuck hrecent entry hentry other _ hdoes => ?_
    by_cases heq : other = agent
    · subst heq
      exact hunstuck (hshown.sticky ⟨entry, hentry, hdoes⟩)
    · obtain ⟨hpairs, hvalid, after, hstep⟩ := hfollows.mem (hrecent entry hentry)
      obtain ⟨before, hbefore, hboot⟩ := (hshown.present entry hentry).2
      exact hpairs other _ (hdoes.withdraws hvalid hstep) agent before (Ne.symm heq) hbefore hboot

theorem Sample.Alone.pairs {system : System} {label : Label} (h : Sample.Alone system) : system.Pairs label := by
  simp only [Sample.Alone, Bool.and_eq_true, List.all_eq_true, decide_eq_true_eq] at h
  have hstored : ∀ (agent : AgentId) record, system.impl.agents[agent]? = some record → agent = 1 := fun agent record hrecord =>
    h.1 agent (ExtTreeMap.mem_keys.mpr (ExtTreeMap.mem_iff_isSome_getElem?.mpr (by rw [hrecord]; rfl)))
  intro agent boot hwithdraws other record hother hrecord
  refine (hother ((hstored other record hrecord).trans ?_)).elim
  cases hwithdraws with
  | loss position agent boot reason hcall => exact (of_decide_eq_true (h.2 _ (List.mem_of_getElem? hcall))).symm
  | drain agent boot force record hrecord | deregistration agent boot force record hrecord
  | lostAgain agent boot reason record hrecord => exact (hstored agent record hrecord).symm

set_option maxRecDepth 100000 in
/-- An agent that holds an assignment is busy, and has earned it. -/
theorem readiness_earned_sample : ∃ history system, System.Follows System.Pairs history system ∧
    (system.impl.agents[(1 : AgentId)]?).map AgentRecord.lifecycle = some .busy ∧
    Earned history 1 Sample.boot Set.univ := by
  have hrun : (Sample.run (fun system _ => Sample.Alone system)
      (Sample.enlist ++ Sample.submit Sample.exclusiveWork ++ Sample.schedule)).map
      (fun system => (system.impl.agents[(1 : AgentId)]?).map fun record => (record.lifecycle, record.descriptor.boot)) =
      some (some (.busy, Sample.boot)) := by decide +kernel
  obtain ⟨system, hsystem, hview⟩ := Option.map_eq_some_iff.mp hrun
  obtain ⟨record, hrecord, hview⟩ := Option.map_eq_some_iff.mp hview
  obtain ⟨hbusy, hboot⟩ := Prod.mk.inj hview
  have hreached : system.ReachableBy System.Pairs := (Sample.run_reaches hsystem).mono fun _ _ halone => Sample.Alone.pairs halone
  obtain ⟨history, hfollows⟩ := hreached.follows
  refine ⟨history, system, hfollows, ?_, ?_⟩
  · rw [hrecord]
    exact congrArg some hbusy
  · exact hboot ▸ ((readiness_earned history system).2 hfollows).earned 1 record hrecord (.inr (.inl hbusy))

/-- Whether a reply reports success. -/
def Sample.succeeded : Reply → Bool
  | .mutation (.ok ()) => true
  | _ => false

set_option maxRecDepth 100000 in
/-- Not in every history is no boot of a ready agent withdrawn: a loss under the name of another agent is no obstacle. -/
theorem not_readiness_earned : ¬∀ history (system : System), System.Follows (fun _ _ => True) history system →
    system.EarnsReadiness history fun _ => Set.univ := by
  intro hearns
  have hview : Sample.misdirected.map (fun (system, reply, after) =>
      (Sample.succeeded reply && (system.calls[0]?).bind Sample.lostBy = some (2, Sample.boot),
        (after.impl.agents[(1 : AgentId)]?).map fun record => (record.lifecycle, record.descriptor.boot))) =
      some (true, some (.ready, Sample.boot)) := by decide +kernel
  obtain ⟨⟨system, reply, after⟩, hsample, hview⟩ := Option.map_eq_some_iff.mp hview
  simp only [Prod.mk.injEq, Bool.and_eq_true, decide_eq_true_eq] at hview
  obtain ⟨⟨hsucceeded, hcall⟩, hrecord⟩ := hview
  unfold Sample.misdirected at hsample
  simp only [Option.bind_eq_bind, Option.bind_eq_some_iff] at hsample
  obtain ⟨reached, hrun, ⟨reply', after'⟩, hstep, hreturn⟩ := hsample
  obtain ⟨rfl, rfl, rfl⟩ : reached = system ∧ reply' = reply ∧ after' = after := by simpa using hreturn
  obtain ⟨record, hrecord, hview⟩ := Option.map_eq_some_iff.mp hrecord
  obtain ⟨hready, hboot⟩ := Prod.mk.inj hview
  obtain rfl : reply' = .mutation (.ok ()) := by
    unfold Sample.succeeded at hsucceeded
    split at hsucceeded
    · rfl
    · cases hsucceeded
  obtain ⟨call, hfound, hlost⟩ := Option.bind_eq_some_iff.mp hcall
  cases call with
  | declareAgentLost agent boot reason =>
    obtain ⟨rfl, rfl⟩ := Prod.mk.inj (Option.some.inj hlost)
    obtain ⟨history, hfollows⟩ := (Sample.run_reaches hrun).follows
    obtain ⟨recent, anchor, older, hhistory, hanchor, -, -, -, -, hwithdrawn⟩ :=
      (hearns _ after' (.step hfollows trivial hstep)).earned 1 record hrecord (.inl hready)
    cases recent with
    | nil =>
      obtain ⟨rfl, -⟩ := List.cons.inj hhistory
      cases hanchor with
      | registration position descriptor hlabel hother =>
        obtain rfl := Label.finish.inj hlabel
        cases hother.symm.trans hfound
      | load _ _ _ hlabel => cases hlabel
    | cons entry recent =>
      obtain ⟨rfl, -⟩ := List.cons.inj hhistory
      rw [hboot] at hwithdrawn
      exact hwithdrawn _ List.mem_cons_self 2 (Set.mem_univ _) (.loss 0 reason rfl hfound rfl)
  | _ => cases hlost

end AgentScheduler
