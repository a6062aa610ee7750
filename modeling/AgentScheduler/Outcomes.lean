import AgentScheduler.RecordChains

/-! The outcomes an agent is credited with are those of its assignments. -/
namespace AgentScheduler
open Std KeyedTable Relation

/-- The assignments with a property. -/
def Records.having (records : Records) (p : AssignmentRecord → Prop) : Set AssignmentId :=
  {id | ∃ record, records.assignments id = some record ∧ p record}

/-- A record ended in a state under an incarnation of an agent. -/
def AssignmentRecord.EndedBy (record : AssignmentRecord) (state : AssignmentState) (agent : AgentId)
    (generation : AgentGeneration) : Prop :=
  record.state = state ∧ record.binding.agent = agent ∧ record.binding.agentGeneration = generation

/-- The states that are counted for an agent. -/
def AssignmentState.IsOutcome (state : AssignmentState) : Prop := state = .completed ∨ state = .failed

/-- The counter of an outcome. -/
def AgentBrief.outcomes (brief : AgentBrief) : AssignmentState → Nat
  | .completed => brief.completed
  | .failed => brief.failed
  | _ => 0

/-- Every agent is credited with the outcomes of its assignments under its generation. -/
structure Records.Credits (records : Records) : Prop where
  known : ∀ id record, records.assignments id = some record →
    ∃ brief, records.agents record.binding.agent = some brief ∧ ¬brief.generation < record.binding.agentGeneration
  counted : ∀ agent brief state, records.agents agent = some brief → state.IsOutcome →
    (records.having fun record => record.EndedBy state agent brief.generation).encard = brief.outcomes state

section Sets
variable {records : Records} {p : AssignmentRecord → Prop} {id : AssignmentId} {after : AssignmentRecord}

theorem Records.having_setAssignment_of_not (hbefore : ∀ before, records.assignments id = some before → ¬p before)
    (hafter : ¬p after) : (records.setAssignment id after).having p = records.having p := by
  ext other
  simp only [having, setAssignment, Set.mem_ofPred_eq, update_ite]
  split
  · next heq =>
    subst heq
    constructor
    · rintro ⟨record, hrecord, hp⟩
      rw [← Option.some.inj hrecord] at hp
      exact (hafter hp).elim
    · rintro ⟨record, hrecord, hp⟩
      exact (hbefore record hrecord hp).elim
  · rfl

theorem Records.having_setAssignment (hafter : p after) :
    (records.setAssignment id after).having p = insert id (records.having p) := by
  ext other
  simp only [having, setAssignment, Set.mem_ofPred_eq, Set.mem_insert_iff, update_ite]
  split
  · next heq => exact iff_of_true ⟨after, rfl, hafter⟩ (.inl heq.symm)
  · next hne => exact ⟨.inr, fun h => h.resolve_left (Ne.symm hne)⟩

theorem Records.not_mem_having (hbefore : ∀ before, records.assignments id = some before → ¬p before) :
    id ∉ records.having p := by
  rintro ⟨record, hrecord, hp⟩
  exact hbefore record hrecord hp

end Sets

namespace Records.Credits
variable {records records' : Records} {id : AssignmentId} {before after : AssignmentRecord} {agent : AgentId}

theorem of_eq (h : records.Credits) (hagents : records'.agents = records.agents)
    (hassignments : records'.assignments = records.assignments) : records'.Credits := by
  obtain ⟨agents, tenantOf, assignments, leases, held⟩ := records
  obtain ⟨agents', tenantOf', assignments', leases', held'⟩ := records'
  obtain rfl : agents' = agents := hagents
  obtain rfl : assignments' = assignments := hassignments
  exact ⟨h.known, h.counted⟩

/-- An agent whose generation and outcomes stay is credited as before. -/
theorem setAgent {brief brief' : AgentBrief} (h : records.Credits) (hbrief : records.agents agent = some brief)
    (hgeneration : brief'.generation = brief.generation) (houtcomes : ∀ state, brief'.outcomes state = brief.outcomes state) :
    (records.setAgent agent brief').Credits := by
  refine ⟨fun id record hrecord => ?_, fun other found state hfound hstate => ?_⟩
  · obtain ⟨old, hold, hle⟩ := h.known id record hrecord
    simp only [Records.setAgent, update_ite]
    split
    · next heq =>
      obtain rfl := Option.some.inj (hbrief.symm.trans (heq ▸ hold))
      exact ⟨brief', rfl, by rwa [hgeneration]⟩
    · exact ⟨old, hold, hle⟩
  · simp only [Records.setAgent, update_ite] at hfound
    split at hfound
    · next heq =>
      subst heq
      obtain rfl := Option.some.inj hfound
      rw [hgeneration, houtcomes]
      exact h.counted agent brief state hbrief hstate
    · exact h.counted other found state hfound hstate

/-- A new incarnation has ended nothing yet. -/
theorem enroll {generation : AgentGeneration} (h : records.Credits)
    (hnewer : ∀ old, records.agents agent = some old → old.generation < generation) :
    (records.setAgent agent { generation }).Credits := by
  refine ⟨fun id record hrecord => ?_, fun other found state hfound hstate => ?_⟩
  · obtain ⟨old, hold, hle⟩ := h.known id record hrecord
    simp only [Records.setAgent, update_ite]
    split
    · next heq =>
      have hless : old.generation < generation := hnewer old (heq ▸ hold)
      refine ⟨{ generation }, rfl, fun habove => hle ?_⟩
      have hless : old.generation.value < generation.value := hless
      have habove : generation.value < record.binding.agentGeneration.value := habove
      exact UInt64.lt_trans hless habove
    · exact ⟨old, hold, hle⟩
  · simp only [Records.setAgent, update_ite] at hfound
    split at hfound
    · next heq =>
      subst heq
      obtain rfl := Option.some.inj hfound
      have hnone : (records.having fun record => record.EndedBy state agent generation) = ∅ := by
        refine Set.eq_empty_of_forall_notMem ?_
        rintro id ⟨record, hrecord, -, hagent, hgeneration⟩
        obtain ⟨old, hold, hle⟩ := h.known id record hrecord
        rw [hgeneration] at hle
        exact hle (hnewer old (hagent ▸ hold))
      change (records.having fun record => record.EndedBy state agent generation).encard = _
      rw [hnone, Set.encard_empty]
      cases state <;> rfl
    · exact h.counted other found state hfound hstate

/-- A record that is not, and was not, an outcome is credited to nobody. -/
theorem setAssignment (h : records.Credits)
    (hknown : ∃ brief, records.agents after.binding.agent = some brief ∧ ¬brief.generation < after.binding.agentGeneration)
    (hbefore : ∀ before, records.assignments id = some before → ¬before.state.IsOutcome) (hafter : ¬after.state.IsOutcome) :
    (records.setAssignment id after).Credits := by
  refine ⟨fun other record hrecord => ?_, fun agent brief state hbrief hstate => ?_⟩
  · simp only [Records.setAssignment, update_ite] at hrecord
    split at hrecord
    · obtain rfl := Option.some.inj hrecord
      exact hknown
    · exact h.known other record hrecord
  · rw [Records.having_setAssignment_of_not]
    · exact h.counted agent brief state hbrief hstate
    · rintro before hstored ⟨rfl, -⟩
      exact hbefore before hstored hstate
    · rintro ⟨rfl, -⟩
      exact hafter hstate

/-- A record that is rewritten under the same binding, without ending in an outcome. -/
theorem rewrite (h : records.Credits) (hbefore : records.assignments id = some before)
    (hopen : before.state.isTerminal = false) (hagent : after.binding.agent = before.binding.agent)
    (hgeneration : after.binding.agentGeneration = before.binding.agentGeneration) (hafter : ¬after.state.IsOutcome) :
    (records.setAssignment id after).Credits := by
  refine h.setAssignment ?_ (fun found hfound => ?_) hafter
  · rw [hagent, hgeneration]
    exact h.known id before hbefore
  · obtain rfl := Option.some.inj (hbefore.symm.trans hfound)
    rintro (hstate | hstate) <;> rw [hstate] at hopen <;> cases hopen

/-- An outcome is credited to the agent whose assignment ends in it. -/
theorem conclude {record closed : AssignmentRecord} {brief : AgentBrief} (h : records.Credits)
    (hrecord : records.assignments id = some record) (hopen : record.state.isTerminal = false)
    (hbinding : closed.binding = record.binding) (hbrief : records.agents record.binding.agent = some brief)
    (hgeneration : brief.generation = record.binding.agentGeneration) :
    ((records.setAssignment id closed).countOutcome record.binding.agent closed.state).Credits := by
  have hnot : ∀ state agent generation, state.IsOutcome → ∀ before, records.assignments id = some before →
      ¬before.EndedBy state agent generation := by
    rintro state agent generation hstate before hbefore ⟨hended, -⟩
    obtain rfl := Option.some.inj (hrecord.symm.trans hbefore)
    rw [← hended] at hstate
    rcases hstate with hstate | hstate <;> rw [hstate] at hopen <;> cases hopen
  have hsame : ∀ state, (brief.count state).generation = brief.generation := by
    intro state
    cases state <;> rfl
  refine ⟨fun other found hfound => ?_, fun agent found state hfound hstate => ?_⟩
  · have hbefore : ∃ old, records.agents found.binding.agent = some old ∧ ¬old.generation < found.binding.agentGeneration := by
      simp only [Records.countOutcome, Records.setAssignment, update_ite] at hfound
      split at hfound
      · obtain rfl := Option.some.inj hfound
        rw [hbinding]
        exact h.known id record hrecord
      · exact h.known other found hfound
    obtain ⟨old, hold, hle⟩ := hbefore
    simp only [Records.countOutcome, Records.setAssignment, update_ite, hbrief, Option.map_some]
    split
    · next heq =>
      obtain rfl := Option.some.inj (hbrief.symm.trans (heq ▸ hold))
      exact ⟨_, rfl, by rwa [hsame]⟩
    · exact ⟨old, hold, hle⟩
  · change ((records.setAssignment id closed).having fun record => record.EndedBy state agent found.generation).encard = _
    simp only [Records.countOutcome, Records.setAssignment, update_ite, hbrief, Option.map_some] at hfound
    split at hfound
    · next heq =>
      subst heq
      obtain rfl := Option.some.inj hfound
      rw [hsame]
      by_cases hended : closed.state = state
      · subst hended
        rw [Records.having_setAssignment ⟨rfl, congrArg AssignmentBinding.agent hbinding,
            (congrArg AssignmentBinding.agentGeneration hbinding).trans hgeneration.symm⟩,
          Set.encard_insert_of_notMem (Records.not_mem_having (hnot _ _ _ hstate)), h.counted _ brief _ hbrief hstate]
        rcases hstate with hstate | hstate <;> rw [hstate] <;> rfl
      · rw [Records.having_setAssignment_of_not (hnot _ _ _ hstate) fun hclosed => hended hclosed.1,
          h.counted _ brief _ hbrief hstate]
        rcases hstate with rfl | rfl <;> cases hclosed : closed.state <;> first | rfl | exact (hended hclosed).elim
    · next hother =>
      rw [Records.having_setAssignment_of_not (hnot _ _ _ hstate) fun hclosed => hother ?_]
      · exact h.counted agent found state hfound hstate
      · rw [← hbinding]
        exact hclosed.2.1

/-- What a recovery keeps is credited as before. -/
theorem recover (h : records.Credits) : records.recover.Credits := by
  have hbinding : ∀ record : AssignmentRecord, record.recover.binding.agent = record.binding.agent ∧
      record.recover.binding.agentGeneration = record.binding.agentGeneration := by
    intro record
    unfold AssignmentRecord.recover
    split <;> exact ⟨rfl, rfl⟩
  have hended : ∀ (record : AssignmentRecord) state agent generation, state.IsOutcome →
      (record.recover.EndedBy state agent generation ↔ record.EndedBy state agent generation) := by
    intro record state agent generation hstate
    unfold AssignmentRecord.EndedBy
    rw [(hbinding record).1, (hbinding record).2]
    refine and_congr_left' ?_
    unfold AssignmentRecord.recover
    split
    · next hactive =>
      rcases hstate with rfl | rfl <;> refine iff_of_false (by simp) fun hstate => ?_ <;> rw [hstate] at hactive <;>
        cases hactive
    · rfl
  refine ⟨fun id found hfound => ?_, fun agent found state hfound hstate => ?_⟩
  · obtain ⟨record, hrecord, rfl⟩ := Option.map_eq_some_iff.mp hfound
    obtain ⟨brief, hbrief, hle⟩ := h.known id record hrecord
    rw [(hbinding record).1, (hbinding record).2]
    refine ⟨brief.recover, ?_, hle⟩
    change (records.agents record.binding.agent).map AgentBrief.recover = _
    rw [hbrief]
    rfl
  · obtain ⟨brief, hbrief, rfl⟩ := Option.map_eq_some_iff.mp hfound
    have hset : (records.recover.having fun record => record.EndedBy state agent brief.recover.generation) =
        records.having fun record => record.EndedBy state agent brief.generation := by
      ext id
      constructor
      · rintro ⟨found, hrecovered, hp⟩
        obtain ⟨record, hrecord, rfl⟩ := Option.map_eq_some_iff.mp hrecovered
        exact ⟨record, hrecord, (hended record _ _ _ hstate).mp hp⟩
      · rintro ⟨record, hrecord, hp⟩
        refine ⟨record.recover, ?_, (hended record _ _ _ hstate).mpr hp⟩
        change (records.assignments id).map AssignmentRecord.recover = _
        rw [hrecord]
        rfl
    rw [hset, h.counted agent brief state hbrief hstate]
    rcases hstate with rfl | rfl <;> rfl

/-- Every change credits outcomes to the agents of their assignments. -/
theorem posting {now : UInt64} {occasion : Occasion} (hposting : Posting now occasion records records') (h : records.Credits) :
    records'.Credits := by
  have hopen : ∀ {record : AssignmentRecord}, record.state.isActive → record.state.isTerminal = false := by
    intro record hactive
    cases hterminal : record.state.isTerminal with
    | false => rfl
    | true =>
      rw [AssignmentState.not_isActive_of_isTerminal hterminal] at hactive
      cases hactive
  have hactive : ∀ {state : AssignmentState}, state.isActive → ¬state.IsOutcome := by
    rintro state hactive (rfl | rfl) <;> cases hactive
  cases hposting with
  | vouch agent brief brief' hbrief hgeneration hcompleted hfailed _ =>
    refine h.setAgent hbrief hgeneration fun state => ?_
    cases state <;> first | exact hcompleted | exact hfailed | rfl
  | reportLoad agent brief hbrief => exact h.setAgent hbrief rfl fun _ => rfl
  | silence agent brief hbrief => exact h.setAgent hbrief rfl fun _ => rfl
  | enroll agent generation hnewer => exact h.enroll hnewer
  | advance id before after hbefore hwas hstays hbinding _ =>
    exact h.rewrite hbefore (hopen hwas) (by rw [hbinding]) (by rw [hbinding]) (hactive hstays)
  | demote id before hbefore hwas =>
    have hdemoted : (records.setAssignment id before.demote).Credits :=
      h.rewrite hbefore (hopen hwas) rfl rfl (hactive rfl)
    exact hdemoted.of_eq rfl rfl
  | renew id before after ttl hbefore hwas hstays _ hbinding =>
    exact (h.rewrite hbefore (hopen hwas) (by rw [hbinding]) (by rw [hbinding]) (hactive hstays)).of_eq rfl rfl
  | close id record state reason detail hrecord hstill _ hcompleted hfailed =>
    have hclosed : (records.setAssignment id (record.close now state reason detail)).Credits :=
      h.rewrite hrecord hstill rfl rfl (not_or.mpr ⟨hcompleted, hfailed⟩)
    exact hclosed.of_eq rfl rfl
  | conclude id record brief state reason detail hrecord hstill _ hbrief hgeneration =>
    have hconcluded : ((records.setAssignment id (record.close now state reason detail)).countOutcome record.binding.agent
        state).Credits := h.conclude hrecord hstill rfl hbrief hgeneration
    refine hconcluded.of_eq ?_ ?_ <;> unfold Records.release <;> split <;> rfl
  | @commit impl work binding brief hbrief hgeneration _ =>
    cases hslot : impl.records.assignments binding.id with
    | none =>
      have hknown : ∃ brief, impl.records.agents binding.record.binding.agent = some brief ∧
          ¬brief.generation < binding.record.binding.agentGeneration := by
        refine ⟨brief, hbrief, ?_⟩
        rw [hgeneration]
        exact fun hless => UInt64.lt_irrefl _ hless
      have hfree : ∀ before, impl.records.assignments binding.id = some before → ¬before.state.IsOutcome := by
        intro before hbefore
        rw [hslot] at hbefore
        cases hbefore
      have hstored : (impl.records.setAssignment binding.id binding.record).Credits :=
        h.setAssignment hknown hfree (hactive rfl)
      refine hstored.of_eq rfl ?_
      simp only [Records.commit, Records.modifyHeld, Records.setAssignment, hslot, Option.getD_none]
    | some taken =>
      refine h.of_eq rfl ?_
      simp only [Records.commit, Records.modifyHeld, hslot, Option.getD_some]
      exact Function.update_eq_self_iff.mpr hslot.symm
  | receive => exact h.of_eq rfl rfl
  | «open» => exact h.of_eq rfl rfl

theorem empty : Records.empty.Credits := by
  refine ⟨fun id record hrecord => ?_, fun agent brief state hbrief _ => ?_⟩
  · cases hrecord
  · cases hbrief

end Records.Credits

/-- The stored assignments that ended in a state under an incarnation of an agent. -/
def Impl.endedCount (impl : Impl) (state : AssignmentState) (agent : AgentId) (generation : AgentGeneration) : Nat :=
  impl.assignments.values.countP fun record =>
    record.state = state && record.binding.agent = agent && record.binding.agentGeneration = generation

section Counts
variable {impl : Impl} {agent : AgentId} {record : AgentRecord} {state : AssignmentState}

theorem encard_having_endedBy (state : AssignmentState) (agent : AgentId) (generation : AgentGeneration) :
    (impl.records.having fun record => record.EndedBy state agent generation).encard =
      impl.endedCount state agent generation := by
  have hset : (impl.records.having fun record => record.EndedBy state agent generation) = keysWhere impl.assignments
      fun record => record.state = state && record.binding.agent = agent && record.binding.agentGeneration = generation := by
    ext id
    simp only [Records.having, keysWhere, Set.mem_ofPred_eq, AssignmentRecord.EndedBy, Bool.and_eq_true, decide_eq_true_eq,
      and_assoc]
    rfl
  rw [hset, encard_keysWhere]
  rfl

/-- The counters of an agent are the numbers of its ended assignments. -/
theorem Records.Credits.counts (h : impl.records.Credits) (hrecord : impl.agents[agent]? = some record)
    (hstate : state.IsOutcome) :
    record.brief.outcomes state = impl.endedCount state agent record.descriptor.generation := by
  have hbrief : impl.records.agents agent = some record.brief := by
    change (impl.agents[agent]?).map AgentRecord.brief = _
    rw [hrecord]
    rfl
  have hcounted := h.counted agent record.brief state hbrief hstate
  rw [encard_having_endedBy] at hcounted
  exact_mod_cast hcounted.symm

/-- No report moves an assignment that has ended. -/
theorem Observation.settled {ctx : Context} {observation : Observation} {stored : AssignmentRecord}
    (hstored : impl.assignments[observation.assignment]? = some stored) (hterminal : stored.state.isTerminal) :
    (runOperation ctx impl observation.operation).2 = impl := by
  by_contra hchanges
  obtain ⟨found, hlookup, -, hconcerns⟩ := Observation.changes_iff.mp hchanges
  obtain rfl : stored = found := Option.some.inj (hstored.symm.trans (lookupAssignment_eq_ok.mp hlookup).1)
  obtain ⟨assignment, generation, boot, kind⟩ := observation
  cases kind with
  | acknowledged => rw [show stored.state = .dispatched from hconcerns] at hterminal; cases hterminal
  | executing => rcases hconcerns with hstate | hstate | hstate <;> rw [hstate] at hterminal <;> cases hterminal
  | released => exact absurd hterminal (by rw [show stored.state.isTerminal = false from hconcerns]; simp)
  | completed => exact absurd hterminal (by rw [show stored.state.isTerminal = false from hconcerns]; simp)
  | failed => exact absurd hterminal (by rw [show stored.state.isTerminal = false from hconcerns]; simp)
  | rejected => exact absurd hterminal (by rw [show stored.state.isTerminal = false from hconcerns]; simp)

end Counts

theorem System.Reachable.credits {system : System} (hreach : system.Reachable) : system.impl.records.Credits :=
  (hreach.records .empty (fun _ h => h.recover) fun _ _ _ _ _ _ _ _ hposting h => h.posting hposting).1

/-- In every reachable state an agent is credited with exactly the assignments that completed, or failed, under its
generation, and a report of an assignment that has ended changes nothing. -/
theorem outcomes_exact {system : System} (hreach : system.Reachable) :
    (∀ (agent : AgentId) record, system.impl.agents[agent]? = some record →
      record.assignmentsCompleted = system.impl.endedCount .completed agent record.descriptor.generation ∧
        record.assignmentsFailed = system.impl.endedCount .failed agent record.descriptor.generation) ∧
      ∀ (observation : Observation) stored, system.impl.assignments[observation.assignment]? = some stored →
        stored.state.isTerminal → (runOperation system.context system.impl observation.operation).2 = system.impl := by
  refine ⟨fun agent record hrecord => ⟨?_, ?_⟩, fun observation stored hstored hterminal => ?_⟩
  · exact hreach.credits.counts hrecord (.inl rfl)
  · exact hreach.credits.counts hrecord (.inr rfl)
  · exact Observation.settled hstored hterminal

/-- A scheduled work item whose agent reports twice on it. -/
def Sample.reportedTwice (kind : ObservationKind) : Option System := do
  let (system, observation) ← observed boot kind
  system.perform (fun _ _ => True) [.run observation.operation, .run observation.operation]

theorem Sample.reportedTwice_reaches {kind : ObservationKind} {system : System} (h : reportedTwice kind = some system) :
    system.Reachable := by
  obtain ⟨⟨scheduled, observation⟩, hobserved, hperform⟩ := Option.bind_eq_some_iff.mp h
  exact (observed_reaches hobserved).trans (System.perform_runs hperform)

/-- What agent 1 is credited with. -/
def Sample.credit (system : System) : Option (Nat × Nat) :=
  (system.impl.agents[(1 : AgentId)]?).map fun record => (record.assignmentsCompleted, record.assignmentsFailed)

set_option maxRecDepth 100000 in
/-- A completion that is reported twice counts once. -/
theorem outcomes_exact_sample : ∃ system record, Sample.reportedTwice .completed = some system ∧
    system.impl.agents[(1 : AgentId)]? = some record ∧ record.assignmentsCompleted = 1 ∧
      system.impl.endedCount .completed 1 record.descriptor.generation = 1 := by
  have hview : (Sample.reportedTwice .completed).map Sample.credit = some (some (1, 0)) := by decide +kernel
  obtain ⟨system, hsystem, hcredit⟩ := Option.map_eq_some_iff.mp hview
  obtain ⟨record, hrecord, hcounts⟩ := Option.map_eq_some_iff.mp hcredit
  have hcompleted : record.assignmentsCompleted = 1 := (Prod.mk.inj hcounts).1
  have hexact := ((outcomes_exact (Sample.reportedTwice_reaches hsystem)).1 1 record hrecord).1
  exact ⟨system, record, hsystem, hrecord, hcompleted, hexact.symm.trans hcompleted⟩

end AgentScheduler
