import AgentScheduler.Ledger

/-! Every movement of authority keeps the ledger sound. -/
namespace AgentScheduler

@[simp] theorem AssignmentState.not_isLive_of_not_isActive {state : AssignmentState} (h : state.isActive = false) :
    state.isLive = false := by
  cases state <;> first | rfl | cases h

section Records
variable {ledger ledger' : Ledger} {record : AssignmentRecord}

/-- What is not active needs no authority, only a lease that is not current. -/
theorem Authorised.of_inactive (hstate : record.state.isActive = false) (hlease : record.leaseCurrent = false) :
    Authorised ledger record := by
  constructor <;> simp [hstate, hlease]

/-- Closing a record leaves it authorised. -/
theorem Authorised.close {now : UInt64} {state : AssignmentState} {reason : InvalidationReason} {detail : Text}
    (hterminal : state.isTerminal) : Authorised ledger (record.close now state reason detail) :=
  Authorised.of_inactive (AssignmentState.not_isActive_of_isTerminal hterminal) rfl

/-- A record that closing keeps is authorised afterwards when it was before. -/
theorem Authorised.closing {selected : AssignmentRecord → Bool} {now : UInt64} {state : AssignmentState}
    {reason : InvalidationReason} {detail : Text} (hterminal : state.isTerminal)
    (h : selected record = false → Authorised ledger record) :
    Authorised ledger (closing selected now state reason detail record) := by
  unfold AgentScheduler.closing
  split
  · exact Authorised.close hterminal
  · next hselected => exact h (by simpa using hselected)

/-- Authority depends on the ledger only through the entries the record names. -/
theorem Authorised.frame (h : Authorised ledger record) (hscheduler : ledger'.scheduler = ledger.scheduler)
    (hepoch : ledger'.epoch = ledger.epoch) (hpolicy : ledger'.policy = ledger.policy)
    (hgeneration : ledger'.policyGeneration = ledger.policyGeneration)
    (hagent : record.state.isActive → ledger'.agents record.binding.agent = ledger.agents record.binding.agent)
    (hwork : record.state.isActive → ∀ entry, ledger.works record.binding.work = some entry →
      ∃ entry', ledger'.works record.binding.work = some entry' ∧
        entry'.request.generation = entry.request.generation) :
    Authorised ledger' record := by
  refine ⟨h.phase, h.lease, fun hactive => ?_, fun hactive => ?_, ?_, ?_⟩
  · obtain ⟨entry, hentry, hgen⟩ := h.work hactive
    obtain ⟨entry', hentry', hgen'⟩ := hwork hactive entry hentry
    exact ⟨entry', hentry', hgen'.trans hgen⟩
  · rw [hagent hactive, hepoch]
    exact h.agent hactive
  · rw [hpolicy, hgeneration]
    exact h.policy
  · rw [hscheduler, hepoch]
    exact h.scheduler

/-- An active record is not bound to an agent that is idle in its current incarnation. -/
theorem Authorised.agent_ne {agent : AgentId} {id : AssignmentId} (h : Authorised ledger record)
    (hrecord : ledger.assignments id = some record) (hactive : record.state.isActive)
    (hidle : ∀ old, ledger.agents agent = some old → ledger.Idle agent old.boot) :
    record.binding.agent ≠ agent := by
  rintro rfl
  obtain ⟨entry, hentry, -, hboot, -⟩ := h.agent hactive
  have hmem : id ∈ ledger.active fun r => r.binding.agent = record.binding.agent ∧ r.binding.boot = entry.boot :=
    ⟨record, hrecord, hactive, rfl, hboot.symm⟩
  rw [hidle entry hentry] at hmem
  exact hmem

theorem UInt64.lt_of_not_lt_of_lt {a b c : UInt64} (hab : a < b) (hcb : ¬c < b) : a < c :=
  Nat.lt_of_lt_of_le hab (Nat.le_of_not_lt hcb)

end Records

section Moves
variable {gate : Gate} {ledger ledger' : Ledger}

private theorem sound_close {selected : AssignmentRecord → Bool} {now : UInt64} {state : AssignmentState}
    {reason : InvalidationReason} {detail : Text} (hterminal : state.isTerminal) (h : Sound ledger) :
    Sound (ledger.mapAssignments (closing selected now state reason detail)) := by
  intro id record hrecord
  obtain ⟨before, hbefore, rfl⟩ := Option.map_eq_some_iff.mp hrecord
  exact Authorised.closing hterminal fun _ =>
    (h id before hbefore).frame rfl rfl rfl rfl (fun _ => rfl) fun _ entry hentry => ⟨entry, hentry, rfl⟩

/-- After a policy change nothing is active: every active assignment was bound to the policy before it. -/
private theorem sound_repolicy {policy : PolicyId} {generation : PolicyGeneration} {now : UInt64} {detail : Text}
    (hmoved : generation ≠ ledger.policyGeneration) (h : Sound ledger) :
    Sound (({ ledger with policy := policy, policyGeneration := generation } : Ledger).mapAssignments
      (closing (fun record => record.state.isActive && record.binding.policyGeneration ≠ generation) now
        .invalidated .policyChanged detail)) := by
  intro id record hrecord
  obtain ⟨before, hbefore, rfl⟩ := Option.map_eq_some_iff.mp hrecord
  refine Authorised.closing rfl fun hkept => ?_
  have hauthorised := h id before hbefore
  have hinactive : before.state.isActive = false := by
    by_contra hactive
    have hactive : before.state.isActive = true := by simpa using hactive
    have hbound := (hauthorised.policy hactive).2
    simp [hactive] at hkept
    exact hmoved (hkept.symm.trans hbound)
  refine Authorised.of_inactive hinactive ?_
  rw [hauthorised.lease, AssignmentState.not_isLive_of_not_isActive hinactive]

private theorem sound_setAgent {agent : AgentId} {entry : AgentEntry}
    (hidle : ∀ old, ledger.agents agent = some old → ledger.Idle agent old.boot) (h : Sound ledger) :
    Sound (ledger.setAgent agent entry) := by
  intro id record hrecord
  have hauthorised := h id record hrecord
  refine hauthorised.frame rfl rfl rfl rfl (fun hactive => ?_) fun _ entry hentry => ⟨entry, hentry, rfl⟩
  exact Function.update_of_ne (hauthorised.agent_ne hrecord hactive hidle) _ _

/-- A publication demotes every live assignment it outdates, and what waits for revalidation stays behind. -/
private theorem sound_republish {agent : AgentId} {old : AgentEntry} {profile : CapabilityProfile}
    (hold : ledger.agents agent = some old) (hforward : ¬profile.generation < old.capabilityGeneration)
    (hsame : profile.generation = old.capabilityGeneration → old.capabilityCurrent = false) (h : Sound ledger) :
    Sound ((ledger.setAgent agent
      { old with
        profile := profile.profileId
        capabilityGeneration := profile.generation
        capabilityCurrent := true }).mapAssignments (demoting agent profile)) := by
  intro id record hrecord
  obtain ⟨before, hbefore, rfl⟩ := Option.map_eq_some_iff.mp hrecord
  have hauthorised := h id before hbefore
  by_cases hbound : before.binding.agent = agent ∧ before.state.isActive
  · obtain ⟨rfl, hactive⟩ := hbound
    obtain ⟨entry, hentry, hgen, hboot, hlive, hwaits⟩ := hauthorised.agent hactive
    obtain rfl : old = entry := Option.some.inj (hold.symm.trans hentry)
    -- whether it was live or waiting, its bound generation is behind the new one or its epoch is
    have hbehind : before.state.isLive → before.binding.capabilityGeneration < profile.generation := by
      intro hislive
      obtain ⟨-, hcapability, hcurrent⟩ := hlive hislive
      rw [← hcapability]
      refine Nat.lt_of_le_of_ne (Nat.le_of_not_lt hforward) fun heq => ?_
      have hgeneration : profile.generation = old.capabilityGeneration := by
        cases hp : profile.generation; cases ho : old.capabilityGeneration
        rw [hp, ho] at heq
        exact congrArg _ (UInt64.toNat_inj.mp heq).symm
      rw [hsame hgeneration] at hcurrent
      cases hcurrent
    have hwaiting : before.binding.schedulerEpoch.value < ledger.epoch.value ∨
        before.binding.capabilityGeneration < profile.generation := by
      rcases hauthorised.phase hactive with hislive | hstate
      · exact .inr (hbehind hislive)
      · rcases hwaits hstate with hepoch | hcapability
        · exact .inl hepoch
        · exact .inr (UInt64.lt_of_not_lt_of_lt hcapability hforward)
    by_cases houtdated : outdatedBy before.binding.agent profile before
    · have hdemoted : demoting before.binding.agent profile before = before.demote := if_pos houtdated
      rw [hdemoted]
      refine ⟨fun _ => .inr rfl, rfl, fun _ => hauthorised.work hactive, fun _ => ?_,
        fun _ => hauthorised.policy hactive, nofun⟩
      exact ⟨_, Function.update_self _ _ _, hgen, hboot, nofun, fun _ => hwaiting⟩
    · have hkept : demoting before.binding.agent profile before = before := if_neg houtdated
      rw [hkept]
      have hcapability : before.binding.capabilityGeneration = profile.generation := by
        simp [outdatedBy, hactive] at houtdated
        exact houtdated.1
      have hnotlive : before.state.isLive = false := by
        by_contra hislive
        have hlt := hbehind (by simpa using hislive)
        rw [hcapability] at hlt
        exact Nat.lt_irrefl _ hlt
      refine ⟨hauthorised.phase, hauthorised.lease, hauthorised.work, fun _ => ?_, hauthorised.policy, ?_⟩
      · exact ⟨_, Function.update_self _ _ _, hgen, hboot, by simp [hnotlive], fun _ => hwaiting⟩
      · simp [hnotlive]
  · have hkept : demoting agent profile before = before := by
      refine if_neg fun houtdated => hbound ?_
      simp [outdatedBy] at houtdated
      exact houtdated.1
    rw [hkept]
    refine hauthorised.frame rfl rfl rfl rfl (fun hactive => ?_) fun _ entry hentry => ⟨entry, hentry, rfl⟩
    exact Function.update_of_ne (fun hagent => hbound ⟨hagent, hactive⟩) _ _

/-- A work entry may change freely when nothing active is bound to it, and otherwise keeps its generation. -/
private theorem sound_setWork {work : WorkId} {entry : WorkEntry} (h : Sound ledger)
    (hentry : ∀ old, ledger.works work = some old →
      entry.request.generation = old.request.generation ∨ ledger.activeFor work = ∅) :
    Sound (ledger.setWork work entry) := by
  intro id record hrecord
  have hauthorised := h id record hrecord
  refine hauthorised.frame rfl rfl rfl rfl (fun _ => rfl) fun hactive old hold => ?_
  by_cases hwork : record.binding.work = work
  · subst hwork
    rcases hentry old hold with hgen | hidle
    · exact ⟨entry, Function.update_self _ _ _, hgen⟩
    · have hmem : id ∈ ledger.activeFor record.binding.work := ⟨record, hrecord, hactive, rfl⟩
      rw [hidle] at hmem
      exact hmem.elim
  · exact ⟨old, (Function.update_of_ne hwork _ _).trans hold, rfl⟩

/-- Replacing one record by an authorised one. -/
private theorem sound_setAssignment {id : AssignmentId} {after : AssignmentRecord} (h : Sound ledger)
    (hafter : Authorised ledger after) : Sound (ledger.setAssignment id after) := by
  intro other record hrecord
  by_cases hid : other = id
  · subst hid
    obtain rfl : after = record := by simpa [Ledger.setAssignment] using hrecord
    exact hafter.frame rfl rfl rfl rfl (fun _ => rfl) fun _ entry hentry => ⟨entry, hentry, rfl⟩
  · have hrecord : ledger.assignments other = some record := by
      simpa [Ledger.setAssignment, Function.update_of_ne hid] using hrecord
    exact (h other record hrecord).frame rfl rfl rfl rfl (fun _ => rfl) fun _ entry hentry => ⟨entry, hentry, rfl⟩

private theorem authorised_advance {id : AssignmentId} {before after : AssignmentRecord} (h : Sound ledger)
    (hbefore : ledger.assignments id = some before) (hlive : before.state.isLive) (hstays : after.state.isLive)
    (hlease : after.leaseCurrent = before.leaseCurrent ∨ after.leaseCurrent) (hbinding : SameBinding before after) :
    Authorised ledger after := by
  have hauthorised := h id before hbefore
  have hactive := AssignmentState.isActive_of_isLive hlive
  have hnot : after.state ≠ .revalidationRequired := by
    rintro heq
    rw [heq] at hstays
    cases hstays
  obtain ⟨entry, hentry, hgen, hboot, hevidence, -⟩ := hauthorised.agent hactive
  refine ⟨fun _ => .inl hstays, ?_, fun _ => ?_, fun _ => ?_, fun _ => ?_, fun _ => ?_⟩
  · rcases hlease with hsame | hcurrent
    · rw [hsame, hauthorised.lease, hlive, hstays]
    · rw [hcurrent, hstays]
  · rw [hbinding]
    exact hauthorised.work hactive
  · rw [hbinding]
    exact ⟨entry, hentry, hgen, hboot, fun _ => hevidence hlive, fun heq => (hnot heq).elim⟩
  · rw [hbinding]
    exact hauthorised.policy hactive
  · rw [hbinding]
    exact hauthorised.scheduler hlive

/-- In a sound ledger nothing that waits for revalidation can be promoted. -/
theorem Sound.not_promotable {id : AssignmentId} {record : AssignmentRecord} {agent : AgentEntry}
    (h : Sound ledger) (hrecord : ledger.assignments id = some record)
    (hstate : record.state = .revalidationRequired)
    (hepoch : record.binding.schedulerEpoch = ledger.epoch)
    (hagent : ledger.agents record.binding.agent = some agent)
    (hcapability : agent.capabilityGeneration = record.binding.capabilityGeneration) : False := by
  have hactive : record.state.isActive := by rw [hstate]; rfl
  obtain ⟨entry, hentry, -, -, -, hwaits⟩ := (h id record hrecord).agent hactive
  obtain rfl : agent = entry := Option.some.inj (hagent.symm.trans hentry)
  rcases hwaits hstate with hlt | hlt
  · rw [hepoch] at hlt
    exact Nat.lt_irrefl _ hlt
  · rw [hcapability] at hlt
    exact Nat.lt_irrefl _ hlt

private theorem authorised_commit {entry : WorkEntry} {binding : AssignmentBinding}
    (hcommits : Commits ledger entry binding) : Authorised ledger binding.record := by
  obtain ⟨agent, hagent, hgen, hboot, hprofile, hcapability, hcurrent⟩ := hcommits.agent
  refine ⟨fun _ => .inl rfl, rfl, fun _ => ⟨entry, hcommits.work, hcommits.workGeneration⟩, fun _ => ?_,
    fun _ => ⟨hcommits.policy, hcommits.policyGeneration⟩, fun _ => ⟨hcommits.scheduler, hcommits.epoch⟩⟩
  exact ⟨agent, hagent, hgen, hboot, fun _ => ⟨hprofile, hcapability, hcurrent⟩, nofun⟩

private theorem sound_commit {entry : WorkEntry} {binding : AssignmentBinding}
    (hcommits : Commits ledger entry binding) (h : Sound ledger) : Sound (ledger.commit entry binding) := by
  refine sound_setWork ?_ fun old hold => .inl ?_
  · intro id record hrecord
    have hrecord : (if id = binding.id then some ((ledger.assignments id).getD binding.record)
        else ledger.assignments id) = some record := hrecord
    have hauthorised : Authorised ledger record := by
      split at hrecord
      · cases hstored : ledger.assignments id with
        | none =>
          rw [hstored] at hrecord
          obtain rfl : binding.record = record := Option.some.inj hrecord
          exact authorised_commit hcommits
        | some stored =>
          rw [hstored] at hrecord
          obtain rfl : stored = record := Option.some.inj hrecord
          exact h id stored hstored
      · exact h id record hrecord
    exact hauthorised.frame rfl rfl rfl rfl (fun _ => rfl) fun _ entry hentry => ⟨entry, hentry, rfl⟩
  · have hold : ledger.works binding.work = some old := hold
    rw [hcommits.work] at hold
    rw [Option.some.inj hold]

/-- A movement of authority keeps the ledger sound. -/
theorem Move.sound (hmove : Move gate ledger ledger') (h : Sound ledger) : Sound ledger' := by
  cases hmove with
  | close selected now state reason detail _ hterminal => exact sound_close hterminal h
  | repolicy policy generation now hmoved => exact sound_repolicy hmoved h
  | enroll agent entry hidle => exact sound_setAgent hidle h
  | republish agent old profile hold hforward hsame => exact sound_republish hold hforward hsame h
  | silence agent old hold hidle =>
    refine sound_setAgent (fun entry hentry => ?_) h
    rw [hold] at hentry
    rw [← Option.some.inj hentry]
    exact hidle
  | accept work entry _ _ hold =>
    exact sound_setWork h fun old hentry => .inr (hold old hentry).2.2
  | settle work old lifecycle _ hold hidle _ => exact sound_setWork h fun _ _ => .inr hidle
  | advance id before after hbefore hlive hstays _ hlease hbinding =>
    exact sound_setAssignment h (authorised_advance h hbefore hlive hstays hlease hbinding)
  | promote id record now ttl agent hrecord hstate hepoch hagent hcapability =>
    exact (h.not_promotable hrecord hstate hepoch hagent hcapability).elim
  | commit entry binding hcommits _ => exact sound_commit hcommits h

/-- Recovery from the file of a sound ledger is sound: nothing is live, and what was active waits with an
epoch or a capability generation behind the current one. -/
theorem Sound.recover {file current : Ledger} (h : Sound file) : Sound (file.recover current) := by
  intro id record hrecord
  obtain ⟨before, hbefore, rfl⟩ := Option.map_eq_some_iff.mp hrecord
  have hauthorised := h id before hbefore
  unfold AssignmentRecord.recover
  split
  · next hactive =>
    obtain ⟨entry, hentry, hgen, hboot, -, hwaits⟩ := hauthorised.agent hactive
    refine ⟨fun _ => .inr rfl, rfl, fun _ => hauthorised.work hactive, fun _ => ?_,
      fun _ => hauthorised.policy hactive, nofun⟩
    have hagent : (file.recover current).agents before.binding.agent =
        some { entry with capabilityCurrent := false } := by
      simp [Ledger.recover, hentry]
    refine ⟨_, hagent, hgen, hboot, nofun, fun _ => ?_⟩
    rcases hauthorised.phase hactive with hlive | hstate
    · left
      rw [(hauthorised.scheduler hlive).2]
      exact Nat.lt_succ_self _
    · rcases hwaits hstate with hepoch | hcapability
      · exact .inl (Nat.lt_succ_of_lt hepoch)
      · exact .inr hcapability
  · next hinactive =>
    exact Authorised.of_inactive (by simpa using hinactive) rfl

end Moves

end AgentScheduler
