import AgentScheduler.Soundness

/-! How single assignment records evolve, and where the active assignments of a ledger come from. -/
namespace AgentScheduler

/-- What one record may become: its binding keeps all but the lease expiry, and lost authority stays lost. -/
structure Evolves (before after : AssignmentRecord) : Prop where
  binding : SameBinding before after
  unassigned : before.state ≠ .assigned → after.state ≠ .assigned
  lost : before.state.isLive = false → after.state.isLive = false
  settled : before.state.isTerminal → after.state = before.state ∧ after.invalidation = before.invalidation

theorem SameBinding.refl (record : AssignmentRecord) : SameBinding record record := rfl

theorem SameBinding.trans {first second third : AssignmentRecord} (h : SameBinding first second)
    (h' : SameBinding second third) : SameBinding first third := by
  unfold SameBinding at *
  rw [h', h]

theorem Evolves.refl (record : AssignmentRecord) : Evolves record record := ⟨rfl, id, id, fun _ => ⟨rfl, rfl⟩⟩

theorem Evolves.trans {first second third : AssignmentRecord} (h : Evolves first second) (h' : Evolves second third) :
    Evolves first third where
  binding := h.binding.trans h'.binding
  unassigned := fun hstate => h'.unassigned (h.unassigned hstate)
  lost := fun hstate => h'.lost (h.lost hstate)
  settled := fun hstate => by
    obtain ⟨hstate', hreason'⟩ := h.settled hstate
    obtain ⟨hstate'', hreason''⟩ := h'.settled (by rwa [hstate'])
    exact ⟨hstate''.trans hstate', hreason''.trans hreason'⟩

/-- An active record may become anything that is not live, with the same binding up to the lease. -/
theorem Evolves.demotion {before after : AssignmentRecord} (hactive : before.state.isActive)
    (hlost : after.state.isLive = false) (hbinding : SameBinding before after) : Evolves before after where
  binding := hbinding
  unassigned := fun _ heq => by rw [heq] at hlost; cases hlost
  lost := fun _ => hlost
  settled := fun hterminal => by
    rw [AssignmentState.not_isActive_of_isTerminal hterminal] at hactive
    cases hactive

/-- Closing a selected active record, or keeping it. -/
theorem Evolves.closing {selected : AssignmentRecord → Bool} {now : UInt64} {state : AssignmentState}
    {reason : InvalidationReason} {detail : Text} (record : AssignmentRecord)
    (hselected : selected record → record.state.isActive) (hterminal : state.isTerminal) :
    Evolves record (closing selected now state reason detail record) := by
  unfold AgentScheduler.closing
  split
  · next hclosed =>
    have hlost := AssignmentState.not_isLive_of_not_isActive (AssignmentState.not_isActive_of_isTerminal hterminal)
    exact Evolves.demotion (hselected hclosed) hlost rfl
  · exact Evolves.refl record

theorem Evolves.demoting {agent : AgentId} {profile : CapabilityProfile} (record : AssignmentRecord) :
    Evolves record (demoting agent profile record) := by
  unfold AgentScheduler.demoting
  split
  · next houtdated =>
    have hactive : record.state.isActive := by
      simp [outdatedBy] at houtdated
      exact houtdated.1.2
    exact Evolves.demotion hactive rfl rfl
  · exact Evolves.refl record

theorem Evolves.recover (record : AssignmentRecord) : Evolves record record.recover := by
  unfold AssignmentRecord.recover
  split
  · next hactive => exact Evolves.demotion hactive rfl rfl
  · exact ⟨rfl, id, id, fun _ => ⟨rfl, rfl⟩⟩

/-- Every record is still there, and has evolved. -/
def Ledger.Extends (ledger ledger' : Ledger) : Prop :=
  ∀ id before, ledger.assignments id = some before →
    ∃ after, ledger'.assignments id = some after ∧ Evolves before after

theorem Ledger.Extends.refl (ledger : Ledger) : ledger.Extends ledger :=
  fun _ before h => ⟨before, h, Evolves.refl before⟩

theorem Ledger.Extends.trans {first second third : Ledger} (h : first.Extends second) (h' : second.Extends third) :
    first.Extends third := by
  intro id before hbefore
  obtain ⟨middle, hmiddle, hevolves⟩ := h id before hbefore
  obtain ⟨after, hafter, hevolves'⟩ := h' id middle hmiddle
  exact ⟨after, hafter, hevolves.trans hevolves'⟩

/-- Every active record was active before under the same binding. -/
def Ledger.Backed (ledger ledger' : Ledger) : Prop :=
  ∀ id after, ledger'.assignments id = some after → after.state.isActive →
    ∃ before, ledger.assignments id = some before ∧ before.state.isActive ∧ SameBinding before after

/-- A property of records that the lease expiry does not matter for. -/
def LeaseBlind (p : AssignmentRecord → Prop) : Prop :=
  ∀ before after, SameBinding before after → p after → p before

theorem Ledger.Backed.active {ledger ledger' : Ledger} {p : AssignmentRecord → Prop} (h : ledger.Backed ledger')
    (hp : LeaseBlind p) : ledger'.active p ⊆ ledger.active p := by
  rintro id ⟨after, hafter, hactive, hpafter⟩
  obtain ⟨before, hbefore, hwas, hbinding⟩ := h id after hafter hactive
  exact ⟨before, hbefore, hwas, hp before after hbinding hpafter⟩

theorem leaseBlind_work (work : WorkId) : LeaseBlind fun record => record.binding.work = work := by
  rintro before after hbinding h
  rwa [hbinding] at h

theorem leaseBlind_workAgent (work : WorkId) (agent : AgentId) :
    LeaseBlind fun record => record.binding.work = work ∧ record.binding.agent = agent := by
  rintro before after hbinding h
  rwa [hbinding] at h

theorem leaseBlind_exclusive (work : WorkId) :
    LeaseBlind fun record => record.binding.work = work ∧ record.binding.exclusive := by
  rintro before after hbinding h
  rwa [hbinding] at h

section Moves
variable {gate : Gate} {ledger ledger' : Ledger}

private theorem extends_map (ledger : Ledger) {update : AssignmentRecord → AssignmentRecord}
    (h : ∀ id record, ledger.assignments id = some record → Evolves record (update record)) :
    ledger.Extends (ledger.mapAssignments update) := by
  intro id before hbefore
  exact ⟨update before, by simp [Ledger.mapAssignments, hbefore], h id before hbefore⟩

private theorem extends_setAssignment {id : AssignmentId} {before after : AssignmentRecord}
    (hbefore : ledger.assignments id = some before) (h : Evolves before after) :
    ledger.Extends (ledger.setAssignment id after) := by
  intro other record hrecord
  by_cases hid : other = id
  · subst hid
    obtain rfl : before = record := Option.some.inj (hbefore.symm.trans hrecord)
    exact ⟨after, by simp [Ledger.setAssignment], h⟩
  · refine ⟨record, ?_, Evolves.refl record⟩
    simpa [Ledger.setAssignment, Function.update_of_ne hid] using hrecord

/-- In a sound ledger a movement of authority only lets records evolve. -/
theorem Move.extends (hmove : Move gate ledger ledger') (h : Sound ledger) : ledger.Extends ledger' := by
  cases hmove with
  | close selected now state reason detail hselected hterminal =>
    exact extends_map _ fun _ record _ => Evolves.closing record (hselected record) hterminal
  | repolicy policy generation now hmoved =>
    refine extends_map { ledger with policy := policy, policyGeneration := generation }
      fun _ record _ => Evolves.closing record (fun hselected => ?_) rfl
    simp only [Bool.and_eq_true] at hselected
    exact hselected.1
  | enroll agent entry hidle => exact Ledger.Extends.refl ledger
  | republish agent old profile hold hforward hsame =>
    exact extends_map (ledger.setAgent agent _) fun _ record _ => Evolves.demoting record
  | silence agent old hold hidle => exact Ledger.Extends.refl ledger
  | accept work entry _ _ hold => exact Ledger.Extends.refl ledger
  | settle work old lifecycle _ hold hidle _ => exact Ledger.Extends.refl ledger
  | advance id before after hbefore hlive hstays hleaves hlease hbinding =>
    refine extends_setAssignment hbefore ⟨hbinding, fun _ => hleaves, fun hdead => ?_, fun hterminal => ?_⟩
    · rw [hlive] at hdead
      cases hdead
    · have hdead := AssignmentState.not_isActive_of_isTerminal hterminal
      rw [AssignmentState.isActive_of_isLive hlive] at hdead
      cases hdead
  | promote id record now ttl agent hrecord hstate hepoch hagent hcapability =>
    exact (h.not_promotable hrecord hstate hepoch hagent hcapability).elim
  | commit entry binding hcommits _ =>
    intro id record hrecord
    refine ⟨record, ?_, Evolves.refl record⟩
    change (if id = binding.id then some ((ledger.assignments id).getD binding.record) else ledger.assignments id) =
      some record
    rw [hrecord]
    split <;> rfl

/-- Recovery from the very ledger that is replaced only lets records evolve. -/
theorem Ledger.extends_recover (file current : Ledger) : file.Extends (file.recover current) :=
  extends_map _ fun _ record _ => Evolves.recover record

private theorem backed_map (ledger : Ledger) {update : AssignmentRecord → AssignmentRecord}
    (h : ∀ record, Evolves record (update record))
    (hactive : ∀ record, (update record).state.isActive → record.state.isActive) :
    ledger.Backed (ledger.mapAssignments update) := by
  intro id after hafter hstate
  obtain ⟨before, hbefore, rfl⟩ := Option.map_eq_some_iff.mp hafter
  exact ⟨before, hbefore, hactive before hstate, (h before).binding⟩

private theorem backed_closing (ledger : Ledger) {selected : AssignmentRecord → Bool} {now : UInt64} {state : AssignmentState}
    {reason : InvalidationReason} {detail : Text} (hselected : ∀ record, selected record → record.state.isActive)
    (hterminal : state.isTerminal) :
    ledger.Backed (ledger.mapAssignments (closing selected now state reason detail)) := by
  refine backed_map _ (fun record => Evolves.closing record (hselected record) hterminal) fun record hactive => ?_
  unfold closing at hactive
  split at hactive
  · next hclosed => exact hselected record hclosed
  · exact hactive

private theorem backed_setAssignment {id : AssignmentId} {before after : AssignmentRecord}
    (hbefore : ledger.assignments id = some before) (hactive : before.state.isActive)
    (hbinding : SameBinding before after) : ledger.Backed (ledger.setAssignment id after) := by
  intro other record hrecord hstate
  by_cases hid : other = id
  · subst hid
    obtain rfl : after = record := by simpa [Ledger.setAssignment] using hrecord
    exact ⟨before, hbefore, hactive, hbinding⟩
  · have hrecord : ledger.assignments other = some record := by
      simpa [Ledger.setAssignment, Function.update_of_ne hid] using hrecord
    exact ⟨record, hrecord, hstate, rfl⟩

theorem Ledger.Backed.refl (ledger : Ledger) : ledger.Backed ledger := fun _ after h hactive => ⟨after, h, hactive, rfl⟩

/-- Only a commit makes an assignment active. -/
theorem Move.backed (hmove : Move gate ledger ledger') :
    ledger.Backed ledger' ∨
      ∃ entry binding, Commits ledger entry binding ∧ gate.commits ledger binding ∧ ledger' = ledger.commit entry binding := by
  cases hmove with
  | close selected now state reason detail hselected hterminal => exact .inl (backed_closing _ hselected hterminal)
  | repolicy policy generation now hmoved =>
    refine .inl (backed_closing { ledger with policy := policy, policyGeneration := generation }
      (fun record hselected => ?_) rfl)
    simp only [Bool.and_eq_true] at hselected
    exact hselected.1
  | enroll agent entry hidle => exact .inl (Ledger.Backed.refl ledger)
  | republish agent old profile hold hforward hsame =>
    refine .inl (backed_map (ledger.setAgent agent _) (fun record => Evolves.demoting record)
      fun record hactive => ?_)
    unfold demoting at hactive
    split at hactive
    · next houtdated =>
      simp [outdatedBy] at houtdated
      exact houtdated.1.2
    · exact hactive
  | silence agent old hold hidle => exact .inl (Ledger.Backed.refl ledger)
  | accept work entry _ _ hold => exact .inl (Ledger.Backed.refl ledger)
  | settle work old lifecycle _ hold hidle _ => exact .inl (Ledger.Backed.refl ledger)
  | advance id before after hbefore hlive hstays hleaves hlease hbinding =>
    exact .inl (backed_setAssignment hbefore (AssignmentState.isActive_of_isLive hlive) hbinding)
  | promote id record now ttl agent hrecord hstate hepoch hagent hcapability =>
    exact .inl (backed_setAssignment hrecord (by rw [hstate]; rfl) rfl)
  | commit entry binding hcommits hadmits => exact .inr ⟨entry, binding, hcommits, hadmits, rfl⟩

theorem Ledger.backed_recover (file current : Ledger) : file.Backed (file.recover current) := by
  refine backed_map _ Evolves.recover fun record hactive => ?_
  unfold AssignmentRecord.recover at hactive
  split at hactive
  · next hwas => exact hwas
  · exact hactive

/-- After a commit the active assignments are those from before and possibly the new one. -/
theorem Ledger.active_commit (ledger : Ledger) (entry : WorkEntry) (binding : AssignmentBinding)
    (p : AssignmentRecord → Prop) :
    (ledger.commit entry binding).active p ⊆ insert binding.id (ledger.active p) ∧
      (¬p binding.record → (ledger.commit entry binding).active p ⊆ ledger.active p) := by
  have hcases : ∀ id, id ∈ (ledger.commit entry binding).active p →
      (id = binding.id ∧ p binding.record) ∨ id ∈ ledger.active p := by
    rintro id ⟨record, hrecord, hactive, hp⟩
    change (if id = binding.id then some ((ledger.assignments id).getD binding.record) else ledger.assignments id) =
      some record at hrecord
    split at hrecord
    · next hid =>
      cases hstored : ledger.assignments id with
      | none =>
        rw [hstored] at hrecord
        obtain rfl : binding.record = record := Option.some.inj hrecord
        exact .inl ⟨hid, hp⟩
      | some stored =>
        rw [hstored] at hrecord
        obtain rfl : stored = record := Option.some.inj hrecord
        exact .inr ⟨stored, hstored, hactive, hp⟩
    · exact .inr ⟨record, hrecord, hactive, hp⟩
  refine ⟨fun id hid => ?_, fun hnot id hid => ?_⟩
  · rcases hcases id hid with ⟨rfl, -⟩ | hold
    · exact Set.mem_insert _ _
    · exact Set.mem_insert_of_mem _ hold
  · rcases hcases id hid with ⟨-, hp⟩ | hold
    · exact (hnot hp).elim
    · exact hold

end Moves

end AgentScheduler
