import AgentScheduler.RecordChains
import AgentScheduler.Readiness

/-! Restored agents: none of their evidence is current, and what they publish first clears their mark. -/
namespace AgentScheduler
open Std KeyedTable Relation

/-- None of the evidence is current. -/
def AgentBrief.Mute (brief : AgentBrief) : Prop :=
  brief.capabilityCurrent = false ∧ brief.healthCurrent = false ∧ brief.availabilityCurrent = false ∧ brief.loadCurrent = false

/-- An agent that is still marked as restored has no current evidence. -/
def Records.Unvouched (records : Records) : Prop :=
  ∀ agent brief, records.agents agent = some brief → brief.recovered → brief.Mute

/-- The agents that are still marked as restored have no current evidence. -/
def Impl.Unvouched (impl : Impl) : Prop :=
  ∀ (agent : AgentId) record, impl.agents[agent]? = some record → record.recovered →
    record.capabilityCurrent = false ∧ record.healthCurrent = false ∧ record.availabilityCurrent = false ∧
      record.loadCurrent = false

/-- What an agent publishes about itself. -/
inductive Publication
  | capabilities (profile : CapabilityProfile)
  | health (observation : HealthObservation)
  | availability (observation : AvailabilityObservation)
  | load (observation : LoadObservation)

def Publication.operation (publication : Publication) (agent : AgentId) (boot : AgentBootId) : Operation :=
  match publication with
  | .capabilities profile => .publishCapabilities agent boot profile
  | .health observation => .publishHealth agent boot observation
  | .availability observation => .publishAvailability agent boot observation
  | .load observation => .publishLoad agent boot observation

/-- A successful publication leaves the agent without the mark. -/
def Label.ClearsMark (label : Label) (reply : Reply) (after : System) : Prop :=
  ∀ agent boot (publication : Publication), label = .run (publication.operation agent boot) → reply = .mutation (.ok ()) →
    ∃ record, after.impl.agents[agent]? = some record ∧ record.recovered = false

/-- No load is accepted of an agent that is still marked as restored. -/
def System.LoadsVouched (system : System) (label : Label) : Prop :=
  ∀ agent boot observation record observed, label = .run (.publishLoad agent boot observation) →
    system.impl.agents[agent]? = some record → checkLoad system.now system.impl agent boot observation = .ok observed →
    record.recovered = false

/-! ### Every change but one keeps restored agents mute -/

section Records
variable {records records' : Records} {agent : AgentId} {brief : AgentBrief}

theorem Records.Unvouched.setAgent (h : records.Unvouched) (hbrief : brief.recovered → brief.Mute) :
    (records.setAgent agent brief).Unvouched := by
  intro other found hfound hrecovered
  simp only [Records.setAgent, update_ite] at hfound
  split at hfound
  · obtain rfl := Option.some.inj hfound
    exact hbrief hrecovered
  · exact h other found hfound hrecovered

theorem Records.Unvouched.of_agents (h : records.Unvouched) (hagents : records'.agents = records.agents) :
    records'.Unvouched := by
  intro agent brief hbrief
  rw [hagents] at hbrief
  exact h agent brief hbrief

theorem Records.Unvouched.countOutcome (h : records.Unvouched) (agent : AgentId) (state : AssignmentState) :
    (records.countOutcome agent state).Unvouched := by
  intro other found hfound hrecovered
  simp only [Records.countOutcome, update_ite] at hfound
  split at hfound
  · obtain ⟨brief, hbrief, rfl⟩ := Option.map_eq_some_iff.mp hfound
    have hmute : brief.recovered → brief.Mute := h agent brief hbrief
    cases state <;> exact hmute hrecovered
  · exact h other found hfound hrecovered

/-- The only change that may break it is a load that is published before anything else. -/
theorem Records.Unvouched.posting {now : UInt64} {occasion : Occasion} (hposting : Posting now occasion records records')
    (hloads : ∀ brief, occasion = .reportsLoad brief → brief.recovered = false) (h : records.Unvouched) :
    records'.Unvouched := by
  cases hposting with
  | vouch agent brief brief' hbrief _ _ _ hfresh =>
    refine h.setAgent fun hrecovered => ?_
    rw [hfresh] at hrecovered
    cases hrecovered
  | reportLoad agent brief hbrief =>
    refine h.setAgent fun hrecovered => ?_
    have hrecovered : brief.recovered = true := hrecovered
    rw [hloads brief rfl] at hrecovered
    cases hrecovered
  | silence agent brief hbrief => exact h.setAgent fun _ => ⟨rfl, rfl, rfl, rfl⟩
  | enroll agent generation hnewer => exact h.setAgent fun hrecovered => by cases hrecovered
  | advance | demote | renew | close => exact h.of_agents rfl
  | conclude id record brief state reason detail =>
    have hcounted : ((records.close id (record.close now state reason detail)).countOutcome record.binding.agent
        state).Unvouched := (h.of_agents rfl).countOutcome _ _
    refine hcounted.of_agents ?_
    unfold Records.release
    split <;> rfl
  | commit | receive | «open» => exact h.of_agents rfl

theorem Records.Unvouched.recover : records.recover.Unvouched := by
  intro agent brief hbrief _
  obtain ⟨before, -, rfl⟩ := Option.map_eq_some_iff.mp hbrief
  exact ⟨rfl, rfl, rfl, rfl⟩

theorem unvouched_iff {impl : Impl} : impl.Unvouched ↔ impl.records.Unvouched := by
  constructor
  · intro h agent brief hbrief hrecovered
    obtain ⟨record, hrecord, rfl⟩ := Option.map_eq_some_iff.mp hbrief
    exact h agent record hrecord hrecovered
  · intro h agent record hrecord hrecovered
    have hbrief : impl.records.agents agent = some record.brief := by simp [Impl.records, hrecord]
    exact h agent record.brief hbrief hrecovered

end Records

theorem System.ReachableBy.unvouched {system : System} (hreach : system.ReachableBy System.LoadsVouched) :
    system.impl.Unvouched := by
  refine unvouched_iff.mpr (hreach.records ?_ (fun _ _ => Records.Unvouched.recover) ?_).1
  · intro agent brief hbrief
    cases hbrief
  · intro s label occasion records records' _ hvouched hdoes hposting h
    refine h.posting hposting fun brief hload => ?_
    subst hload
    cases label with
    | run operation =>
      cases operation with
      | publishLoad agent boot observation =>
        obtain ⟨record, observed, hrecord, hcheck, rfl⟩ := hdoes
        exact hvouched agent boot observation record observed rfl hrecord hcheck
      | _ => exact hdoes.elim
    | _ => exact hdoes.elim

/-! ### What a publication does to the mark -/

section Publications
variable {ctx : Context} {impl : Impl} {now : UInt64} {agent : AgentId} {boot : AgentBootId} {record : AgentRecord}

/-- A current publication of the same profile is the only one that changes nothing. -/
theorem checkCapabilities_none {profile : CapabilityProfile} (h : checkCapabilities now impl agent boot profile = .ok none) :
    ∃ record, impl.agents[agent]? = some record ∧ record.capabilityCurrent := by
  unfold checkCapabilities at h
  simp only [except_bind_eq_ok] at h
  obtain ⟨canonical, -, record, hcurrent, -, -, -, -, h⟩ := h
  split at h
  · next hsame => exact ⟨record, (currentAgent_ok hcurrent).1, hsame.2⟩
  · simp only [except_bind_eq_ok] at h
    obtain ⟨capabilities, -, h⟩ := h
    cases Except.ok.inj h

/-- A guarded operation that succeeds has passed its check. -/
theorem guarded_accepted {Found : Type} {check : Except SchedulerError Found} {body : Found → Step}
    (h : (guarded impl check body).1 = .ok ()) : ∃ found, check = .ok found ∧ guarded impl check body = body found := by
  rcases guarded_cases impl check body with ⟨error, -, hrefused⟩ | haccepted
  · rw [hrefused] at h
    cases h
  · exact haccepted

/-- The mark an agent keeps through what is refreshed after an update of its record. -/
theorem marked_of_agents {after : Impl} {update : AgentRecord → AgentRecord} (hrecord : impl.agents[agent]? = some record)
    (hafter : after.records.agents = (impl.modifyAgent agent update).records.agents) :
    ∃ found, after.agents[agent]? = some found ∧ found.recovered = (update record).recovered ∧
      found.loadCurrent = (update record).loadCurrent := by
  have hupdated : (impl.modifyAgent agent update).records.agents agent = some (update record).brief := by
    rw [modifyAgent_eq_setAgent hrecord, records_setAgent]
    exact Function.update_self agent _ _
  rw [← hafter] at hupdated
  obtain ⟨found, hfound, hbrief⟩ := Option.map_eq_some_iff.mp hupdated
  exact ⟨found, hfound, congrArg AgentBrief.recovered hbrief, congrArg AgentBrief.loadCurrent hbrief⟩

theorem publishCapabilities_clears {profile : CapabilityProfile} (hmute : impl.Unvouched)
    (hok : (publishCapabilities now impl agent boot profile).1 = .ok ()) :
    ∃ found, (publishCapabilities now impl agent boot profile).2.agents[agent]? = some found ∧ found.recovered = false := by
  obtain ⟨published, hcheck, hform⟩ := guarded_accepted hok
  change ∃ found, (guarded impl _ _).2.agents[agent]? = some found ∧ _
  rw [hform]
  cases published with
  | none =>
    obtain ⟨record, hrecord, hcurrent⟩ := checkCapabilities_none hcheck
    refine ⟨record, hrecord, ?_⟩
    cases hrecovered : record.recovered with
    | false => rfl
    | true =>
      rw [(hmute agent record hrecord hrecovered).1] at hcurrent
      cases hcurrent
  | some canonical =>
    obtain ⟨record, hrecord, -⟩ := checkCapabilities_some hcheck
    let published := (deindexAgent impl agent).modifyAgent agent fun record =>
      { record with profile := canonical, capabilityCurrent := true, recovered := false }
    have hagents : (indexStoredAgent (refreshAgentAccounting (demoteOutdated published agent canonical) agent)
        agent).revise.records.agents = published.records.agents := by
      rw [records_revise, records_indexStoredAgent, records_refreshAgentAccounting]
      unfold Impl.records
      rw [agents_demoteOutdated]
    obtain ⟨found, hfound, hclear, -⟩ := marked_of_agents
      (show (deindexAgent impl agent).agents[agent]? = some record from hrecord) hagents
    exact ⟨found, hfound, hclear⟩

/-- Health and availability are published in one way. -/
theorem observing_clears {check : Except SchedulerError UInt64} {update : UInt64 → AgentRecord → AgentRecord}
    (hfound : ∀ observed, check = .ok observed → ∃ record, impl.agents[agent]? = some record)
    (hfresh : ∀ observed record, (update observed record).recovered = false)
    (hok : (guarded impl check fun observed =>
      ((.ok (), (refreshAgent (impl.modifyAgent agent (update observed)) agent).revise) : Step)).1 = .ok ()) :
    ∃ found, (guarded impl check fun observed =>
      ((.ok (), (refreshAgent (impl.modifyAgent agent (update observed)) agent).revise) : Step)).2.agents[agent]? = some found ∧
        found.recovered = false := by
  obtain ⟨observed, hcheck, hform⟩ := guarded_accepted hok
  rw [hform]
  obtain ⟨record, hrecord⟩ := hfound observed hcheck
  have hagents : (refreshAgent (impl.modifyAgent agent (update observed)) agent).revise.records.agents =
      (impl.modifyAgent agent (update observed)).records.agents := by
    rw [records_revise, records_refreshAgent]
  obtain ⟨found, hstored, hclear, -⟩ := marked_of_agents hrecord hagents
  exact ⟨found, hstored, hclear.trans (hfresh observed record)⟩

/-- An accepted load leaves the mark as it was, next to a load that is current. -/
theorem publishLoad_accepted {observation : LoadObservation}
    (hok : (publishLoad now impl agent boot observation).1 = .ok ()) :
    ∃ record observed found, impl.agents[agent]? = some record ∧ checkLoad now impl agent boot observation = .ok observed ∧
      (publishLoad now impl agent boot observation).2.agents[agent]? = some found ∧ found.recovered = record.recovered ∧
        found.loadCurrent := by
  obtain ⟨observed, hcheck, hform⟩ := guarded_accepted hok
  have hchecked : checkLoad now impl agent boot observation = .ok observed := hcheck
  simp only [check_bind_eq_ok] at hcheck
  obtain ⟨record, hrecord, -⟩ := checkObservation_ok hcheck.2
  have hagents : (publishLoad now impl agent boot observation).2.records.agents = (impl.modifyAgent agent fun record =>
      { record with
        loadGeneration := observation.generation
        loadObservation :=
          { observation with observedAtMs := observed, warmStateKeys := canonicalizeTexts observation.warmStateKeys }
        loadCurrent := true }).records.agents :=
    congrArg (fun step : Step => step.2.records.agents) hform
  obtain ⟨found, hfound, hmark, hcurrent⟩ := marked_of_agents hrecord hagents
  exact ⟨record, observed, found, hrecord, hchecked, hfound, hmark, hcurrent⟩

theorem publishLoad_accepts {observation : LoadObservation} {observed : UInt64}
    (hcheck : checkLoad now impl agent boot observation = .ok observed) :
    (publishLoad now impl agent boot observation).1 = .ok () := by
  change (guarded impl (checkLoad now impl agent boot observation) _).1 = _
  unfold guarded
  rw [hcheck]

end Publications

/-- Every successful publication clears the mark, unless it is the load of an agent that still carries it. -/
theorem System.clearsMark_iff {system after : System} {label : Label} {reply : Reply} (hmute : system.impl.Unvouched)
    (hstep : system.step label = some (reply, after)) : label.ClearsMark reply after ↔ system.LoadsVouched label := by
  constructor
  · rintro hclears agent boot observation record observed rfl hrecord hcheck
    have hok := publishLoad_accepts hcheck
    obtain ⟨rfl, rfl⟩ := Prod.mk.inj (Option.some.inj hstep)
    obtain ⟨stored, -, found, hstored, -, hfound, hmark, -⟩ := publishLoad_accepted hok
    obtain ⟨after, hafter, hcleared⟩ := hclears agent boot (.load observation) rfl (congrArg Reply.mutation hok)
    obtain rfl : record = stored := Option.some.inj (hrecord.symm.trans hstored)
    obtain rfl : found = after := Option.some.inj (hfound.symm.trans hafter)
    exact hmark.symm.trans hcleared
  · rintro hvouched agent boot publication rfl hreply
    obtain ⟨rfl, rfl⟩ := Prod.mk.inj (Option.some.inj hstep)
    cases publication with
    | capabilities profile => exact publishCapabilities_clears hmute (Reply.mutation.inj hreply)
    | health observation =>
      refine observing_clears (fun observed hcheck => ?_) (fun _ _ => rfl) (Reply.mutation.inj hreply)
      simp only [check_bind_eq_ok] at hcheck
      obtain ⟨record, hrecord, -⟩ := checkObservation_ok hcheck.2
      exact ⟨record, hrecord⟩
    | availability observation =>
      refine observing_clears (fun observed hcheck => ?_) (fun _ _ => rfl) (Reply.mutation.inj hreply)
      simp only [check_bind_eq_ok] at hcheck
      obtain ⟨record, hrecord, -⟩ := checkObservation_ok hcheck.2
      exact ⟨record, hrecord⟩
    | load observation =>
      obtain ⟨record, observed, found, hrecord, hcheck, hfound, hmark, -⟩ := publishLoad_accepted (Reply.mutation.inj hreply)
      exact ⟨found, hfound, hmark.trans (hvouched agent boot observation record observed rfl hrecord hcheck)⟩

/-- In runs in which every agent publishes something else before its load after a recovery, restored agents have no
current evidence and lose their mark with the first publication; the next step keeps it so exactly when it is such a step. -/
theorem restored_evidence_iff {system : System} (hreach : system.ReachableBy System.LoadsVouched) :
    system.impl.Unvouched ∧ ∀ label reply after, system.step label = some (reply, after) →
      ((after.impl.Unvouched ∧ label.ClearsMark reply after) ↔ system.LoadsVouched label) := by
  refine ⟨hreach.unvouched, fun label reply after hstep => ?_⟩
  rw [System.clearsMark_iff hreach.unvouched hstep, and_iff_right_iff_imp]
  intro hvouched
  have hafter : after.ReachableBy System.LoadsVouched := hreach.trans (.single ⟨label, reply, hvouched, hstep⟩)
  exact hafter.unvouched

/-! ### A load after a recovery -/

/-- No load is published. -/
def Sample.Loadless : Label → Bool
  | .run (.publishLoad ..) => false
  | _ => true

theorem Sample.Loadless.loadsVouched {system : System} {label : Label} (h : Loadless label) : system.LoadsVouched label := by
  rintro agent boot observation record observed rfl
  cases h

/-- The state is saved and loaded again, and the agent publishes. -/
def Sample.republished (publication : Publication) : Option (System × Reply × System) := do
  let restored ← run (fun _ label => Loadless label) (enlist ++ [.run .shutdown, .save, .load 0])
  let (reply, after) ← restored.step (.run (publication.operation 1 boot))
  return (restored, reply, after)

theorem Sample.republished_spec {publication : Publication} {restored after : System} {reply : Reply}
    (h : republished publication = some (restored, reply, after)) : restored.ReachableBy System.LoadsVouched ∧
      restored.step (.run (publication.operation 1 boot)) = some (reply, after) := by
  simp only [republished, Option.bind_eq_bind, Option.bind_eq_some_iff, Prod.exists] at h
  obtain ⟨_, hrestored, _, _, hstep, hform⟩ := h
  obtain ⟨rfl, rfl, rfl⟩ : _ = restored ∧ _ = reply ∧ _ = after := by simpa using hform
  exact ⟨(run_reaches hrestored).mono fun _ _ hloadless => Loadless.loadsVouched hloadless, hstep⟩

/-- Whether agent 1 is marked, and whether its load is current. -/
def Sample.mark (system : System) : Option (Bool × Bool) :=
  (system.impl.agents[(1 : AgentId)]?).map fun record => (record.recovered, record.loadCurrent)

theorem Sample.mark_spec {system : System} {recovered loadCurrent : Bool} (h : mark system = some (recovered, loadCurrent)) :
    ∃ record, system.impl.agents[(1 : AgentId)]? = some record ∧ record.recovered = recovered ∧
      record.loadCurrent = loadCurrent := by
  obtain ⟨record, hrecord, hflags⟩ := Option.map_eq_some_iff.mp h
  exact ⟨record, hrecord, (Prod.mk.inj hflags).1, (Prod.mk.inj hflags).2⟩

/-- The marks of agent 1 before and after a publication that may be accepted. -/
def Sample.marks (found : System × Reply × System) : Option (Bool × Bool) × Bool × Option (Bool × Bool) :=
  (mark found.1, found.2.1.accepted, mark found.2.2)

set_option maxRecDepth 100000 in
/-- A restored agent reports its health first. -/
theorem restored_evidence_iff_sample : ∃ restored reply after record,
    Sample.republished (.health { Sample.health with generation := 2 }) = some (restored, reply, after) ∧
      restored.impl.agents[(1 : AgentId)]? = some record ∧ record.recovered ∧ restored.impl.Unvouched ∧
        after.impl.Unvouched := by
  have hview : (Sample.republished (.health { Sample.health with generation := 2 })).map Sample.marks =
      some (some (true, false), true, some (false, false)) := by decide +kernel
  obtain ⟨⟨restored, reply, after⟩, hfound, hmarks⟩ := Option.map_eq_some_iff.mp hview
  simp only [Sample.marks, Prod.mk.injEq] at hmarks
  obtain ⟨record, hrecord, hrecovered, -⟩ := Sample.mark_spec hmarks.1
  obtain ⟨hreach, hstep⟩ := Sample.republished_spec hfound
  have hkeeps := restored_evidence_iff hreach
  have hvouched : restored.LoadsVouched (.run (Operation.publishHealth 1 Sample.boot { Sample.health with generation := 2 })) := by
    intro _ _ _ _ _ hlabel
    cases hlabel
  exact ⟨restored, reply, after, record, hfound, hrecord, hrecovered, hkeeps.1,
    ((hkeeps.2 _ reply after hstep).mpr hvouched).1⟩

set_option maxRecDepth 100000 in
/-- A restored agent publishes its load first: the load is current, and the mark stays. -/
theorem not_restored_evidence : ¬((∀ system : System, system.Reachable → system.impl.Unvouched) ∧
    ∀ (system : System) label reply after, system.Reachable → system.step label = some (reply, after) →
      label.ClearsMark reply after) := by
  rintro ⟨hunvouched, -⟩
  have hview : (Sample.republished (.load { generation := 1 })).map Sample.marks =
      some (some (true, false), true, some (true, true)) := by decide +kernel
  obtain ⟨⟨restored, reply, after⟩, hfound, hmarks⟩ := Option.map_eq_some_iff.mp hview
  simp only [Sample.marks, Prod.mk.injEq] at hmarks
  obtain ⟨record, hrecord, hrecovered, hcurrent⟩ := Sample.mark_spec hmarks.2.2
  obtain ⟨hreach, hstep⟩ := Sample.republished_spec hfound
  have hafter : after.Reachable := (hreach.mono fun _ _ _ => trivial).trans (.single ⟨_, _, trivial, hstep⟩)
  have hmute := (hunvouched after hafter 1 record hrecord hrecovered).2.2.2
  rw [hcurrent] at hmute
  cases hmute

end AgentScheduler
