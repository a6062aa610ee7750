import AgentScheduler.Evolution

/-! Exclusivity and fan-out bounds of the ledger, and what happens to work entries. -/
namespace AgentScheduler

/-- The fan-out bounds: stored requests are well shaped, and no work item is over its slots. -/
structure Bounded (ledger : Ledger) : Prop where
  shape : ∀ work entry, ledger.works work = some entry → entry.request.WellShaped
  total : ∀ work entry, ledger.works work = some entry →
    (ledger.activeFor work).encard ≤ entry.request.requirements.maxParallel.toNat
  perAgent : ∀ work entry agent, ledger.works work = some entry →
    (ledger.activeOn work agent).encard ≤ entry.request.requirements.maxAssignmentsPerAgent.toNat
  exclusive : ∀ work, (ledger.exclusiveFor work).encard ≤ 1

/-- Every active assignment is exclusive exactly when the mode of its work says so. -/
def ModesAgree (ledger : Ledger) : Prop :=
  ∀ id record entry, ledger.assignments id = some record → record.state.isActive →
    ledger.works record.binding.work = some entry → (record.binding.exclusive ↔ entry.request.mode = .exclusive)

/-- A binding carries the mode its work item has now. -/
def ModeMatches (ledger : Ledger) (binding : AssignmentBinding) : Prop :=
  ∀ entry, ledger.works binding.work = some entry → (binding.exclusive ↔ entry.request.mode = .exclusive)

section
variable {gate : Gate} {ledger ledger' : Ledger}

/-- The request of a work item either stays or makes way for a higher generation when nothing is active. -/
def Ledger.Succeeds (ledger ledger' : Ledger) : Prop :=
  ∀ work entry', ledger'.works work = some entry' →
    (∃ entry, ledger.works work = some entry ∧ entry'.request = entry.request) ∨
      (entry'.request.WellShaped ∧ ledger.activeFor work = ∅)

theorem Ledger.Succeeds.of_eq (h : ledger'.works = ledger.works) : ledger.Succeeds ledger' := by
  intro work entry hentry
  rw [h] at hentry
  exact .inl ⟨entry, hentry, rfl⟩

/-- Nothing active is bound to a work item the ledger does not know. -/
theorem Sound.activeFor_unknown {work : WorkId} (h : Sound ledger) (hwork : ledger.works work = none) :
    ledger.activeFor work = ∅ := by
  refine Set.eq_empty_of_forall_notMem ?_
  rintro id ⟨record, hrecord, hactive, rfl⟩
  obtain ⟨entry, hentry, -⟩ := (h id record hrecord).work hactive
  rw [hwork] at hentry
  cases hentry

private theorem succeeds_setWork {work : WorkId} {entry : WorkEntry}
    (h : (∃ old, ledger.works work = some old ∧ entry.request = old.request) ∨
      (entry.request.WellShaped ∧ ledger.activeFor work = ∅)) : ledger.Succeeds (ledger.setWork work entry) := by
  intro other entry' hentry'
  by_cases hwork : other = work
  · subst hwork
    obtain rfl : entry = entry' := by simpa [Ledger.setWork] using hentry'
    exact h
  · have hentry' : ledger.works other = some entry' := by
      simpa [Ledger.setWork, Function.update_of_ne hwork] using hentry'
    exact .inl ⟨entry', hentry', rfl⟩

/-- A commit keeps every request. -/
theorem Ledger.commit_request {entry entry' : WorkEntry} {binding : AssignmentBinding} {work : WorkId}
    (hwork : ledger.works binding.work = some entry)
    (h : (ledger.commit entry binding).works work = some entry') :
    ∃ old, ledger.works work = some old ∧ entry'.request = old.request := by
  by_cases hsame : work = binding.work
  · subst hsame
    refine ⟨entry, hwork, ?_⟩
    have heq : some { entry with lastGeneration := binding.generation } = some entry' := by
      simpa [Ledger.commit, Ledger.setWork] using h
    rw [← Option.some.inj heq]
  · exact ⟨entry', by simpa [Ledger.commit, Ledger.setWork, Function.update_of_ne hsame] using h, rfl⟩

theorem Move.succeeds (hmove : Move gate ledger ledger') (h : Sound ledger) : ledger.Succeeds ledger' := by
  cases hmove with
  | accept work entry hshape _ hold =>
    refine succeeds_setWork (.inr ⟨hshape, ?_⟩)
    cases hwork : ledger.works work with
    | none => exact h.activeFor_unknown hwork
    | some old => exact (hold old hwork).2.2
  | settle work old lifecycle _ hold hidle _ => exact succeeds_setWork (.inl ⟨old, hold, rfl⟩)
  | commit entry binding hcommits _ => exact fun _ _ hentry' => .inl (ledger.commit_request hcommits.work hentry')
  | close | repolicy | enroll | republish | silence | advance | promote => exact Ledger.Succeeds.of_eq rfl

theorem Ledger.activeOn_subset (ledger : Ledger) (work : WorkId) (agent : AgentId) :
    ledger.activeOn work agent ⊆ ledger.activeFor work :=
  fun _ ⟨record, hrecord, hactive, hp⟩ => ⟨record, hrecord, hactive, hp.1⟩

theorem Ledger.exclusiveFor_subset (ledger : Ledger) (work : WorkId) :
    ledger.exclusiveFor work ⊆ ledger.activeFor work :=
  fun _ ⟨record, hrecord, hactive, hp⟩ => ⟨record, hrecord, hactive, hp.1⟩

/-- Bounds survive when nothing becomes active and requests only make way for idle work. -/
theorem Bounded.backed (hbounded : Bounded ledger) (hbacked : ledger.Backed ledger')
    (hworks : ledger.Succeeds ledger') : Bounded ledger' := by
  have hidle : ∀ work, ledger.activeFor work = ∅ → ledger'.activeFor work = ∅ := fun work hempty =>
    Set.subset_empty_iff.mp (hempty ▸ hbacked.active (leaseBlind_work work))
  refine ⟨fun work entry' hentry' => ?_, fun work entry' hentry' => ?_, fun work entry' agent hentry' => ?_,
    fun work => ?_⟩
  · rcases hworks work entry' hentry' with ⟨entry, hentry, hrequest⟩ | ⟨hshape, -⟩
    · rw [hrequest]
      exact hbounded.shape work entry hentry
    · exact hshape
  · rcases hworks work entry' hentry' with ⟨entry, hentry, hrequest⟩ | ⟨-, hempty⟩
    · rw [hrequest]
      exact (Set.encard_le_encard (hbacked.active (leaseBlind_work work))).trans (hbounded.total work entry hentry)
    · rw [hidle work hempty, Set.encard_empty]
      exact zero_le
  · rcases hworks work entry' hentry' with ⟨entry, hentry, hrequest⟩ | ⟨-, hempty⟩
    · rw [hrequest]
      exact (Set.encard_le_encard (hbacked.active (leaseBlind_workAgent work agent))).trans
        (hbounded.perAgent work entry agent hentry)
    · have hnone := Set.subset_empty_iff.mp ((ledger'.activeOn_subset work agent).trans (hidle work hempty).subset)
      rw [hnone, Set.encard_empty]
      exact zero_le
  · exact (Set.encard_le_encard (hbacked.active (leaseBlind_exclusive work))).trans (hbounded.exclusive work)

private theorem encard_insert_lt {α : Type} {s t : Set α} {a : α} {n : ℕ} (hsub : t ⊆ insert a s)
    (hlt : s.encard < n) : t.encard ≤ n :=
  (Set.encard_le_encard hsub).trans ((Set.encard_insert_le s a).trans (Order.add_one_le_of_lt hlt))

/-- A commit takes one of the slots its guard found free. -/
theorem Bounded.commit {entry : WorkEntry} {binding : AssignmentBinding} (hbounded : Bounded ledger)
    (hcommits : Commits ledger entry binding) : Bounded (ledger.commit entry binding) := by
  have hworks : ∀ work entry', (ledger.commit entry binding).works work = some entry' →
      ∃ old, ledger.works work = some old ∧ entry'.request = old.request :=
    fun _ _ hentry' => ledger.commit_request hcommits.work hentry'
  have hgrows := ledger.active_commit entry binding
  refine ⟨fun work entry' hentry' => ?_, fun work entry' hentry' => ?_, fun work entry' agent hentry' => ?_,
    fun work => ?_⟩
  · obtain ⟨old, hold, hrequest⟩ := hworks work entry' hentry'
    rw [hrequest]
    exact hbounded.shape work old hold
  · obtain ⟨old, hold, hrequest⟩ := hworks work entry' hentry'
    rw [hrequest]
    by_cases hwork : binding.work = work
    · subst hwork
      obtain rfl : entry = old := Option.some.inj (hcommits.work.symm.trans hold)
      refine encard_insert_lt (hgrows _).1 ?_
      rcases hcommits.room with hempty | ⟨-, hlt⟩
      · have hempty : ledger.active (fun record => record.binding.work = binding.work) = ∅ := hempty
        have hshape := hbounded.shape _ entry hold
        have hslots : 0 < entry.request.requirements.maxParallel.toNat :=
          Nat.lt_of_lt_of_le (UInt32.lt_iff_toNat_lt.mp hshape.perAgent) (UInt32.le_iff_toNat_le.mp hshape.fanOut)
        rw [hempty, Set.encard_empty]
        exact_mod_cast hslots
      · exact hlt
    · exact (Set.encard_le_encard ((hgrows _).2 hwork)).trans (hbounded.total work old hold)
  · obtain ⟨old, hold, hrequest⟩ := hworks work entry' hentry'
    rw [hrequest]
    by_cases hbound : binding.work = work ∧ binding.agent = agent
    · obtain ⟨rfl, rfl⟩ := hbound
      obtain rfl : entry = old := Option.some.inj (hcommits.work.symm.trans hold)
      exact encard_insert_lt (hgrows _).1 hcommits.perAgent
    · exact (Set.encard_le_encard ((hgrows _).2 hbound)).trans (hbounded.perAgent work old agent hold)
  · by_cases hbound : binding.work = work ∧ binding.exclusive
    · obtain ⟨rfl, hexclusive⟩ := hbound
      have hempty : ledger.active (fun record => record.binding.work = binding.work ∧ record.binding.exclusive) = ∅ :=
        hcommits.exclusive hexclusive
      refine encard_insert_lt (n := 1) (hgrows _).1 ?_
      rw [hempty, Set.encard_empty]
      exact_mod_cast Nat.one_pos
    · exact (Set.encard_le_encard ((hgrows _).2 hbound)).trans (hbounded.exclusive work)

/-- A movement of authority keeps the fan-out bounds. -/
theorem Move.bounded (hmove : Move gate ledger ledger') (hsound : Sound ledger) (h : Bounded ledger) :
    Bounded ledger' := by
  rcases hmove.backed with hbacked | ⟨entry, binding, hcommits, -, rfl⟩
  · exact h.backed hbacked (hmove.succeeds hsound)
  · exact h.commit hcommits

/-- Agreement of the modes survives when nothing becomes active. -/
theorem ModesAgree.backed (h : ModesAgree ledger) (hbacked : ledger.Backed ledger')
    (hworks : ledger.Succeeds ledger') : ModesAgree ledger' := by
  intro id after entry' hafter hactive hentry'
  obtain ⟨before, hbefore, hwas, hbinding⟩ := hbacked id after hafter hactive
  have hwork : after.binding.work = before.binding.work := by rw [hbinding]
  have hexclusive : after.binding.exclusive = before.binding.exclusive := by rw [hbinding]
  rw [hwork] at hentry'
  rw [hexclusive]
  rcases hworks _ entry' hentry' with ⟨entry, hentry, hrequest⟩ | ⟨-, hempty⟩
  · rw [hrequest]
    exact h id before entry hbefore hwas hentry
  · have hmem : id ∈ ledger.activeFor before.binding.work := ⟨before, hbefore, hwas, rfl⟩
    rw [hempty] at hmem
    exact hmem.elim

/-- When commits carry the mode their work has now, a movement of authority keeps the modes in agreement. -/
theorem Move.modesAgree (hmove : Move gate ledger ledger') (hsound : Sound ledger)
    (hcommit : ∀ ledger binding, gate.commits ledger binding → ModeMatches ledger binding) (h : ModesAgree ledger) :
    ModesAgree ledger' := by
  rcases hmove.backed with hbacked | ⟨entry, binding, hcommits, hadmitted, rfl⟩
  · exact h.backed hbacked (hmove.succeeds hsound)
  · intro id record entry' hrecord hactive hentry'
    obtain ⟨old, hold, hrequest⟩ := ledger.commit_request hcommits.work hentry'
    rw [hrequest]
    change (if id = binding.id then some ((ledger.assignments id).getD binding.record) else ledger.assignments id) =
      some record at hrecord
    split at hrecord
    · cases hstored : ledger.assignments id with
      | none =>
        rw [hstored] at hrecord
        obtain rfl : binding.record = record := Option.some.inj hrecord
        exact hcommit ledger binding hadmitted old hold
      | some stored =>
        rw [hstored] at hrecord
        obtain rfl : stored = record := Option.some.inj hrecord
        exact h id stored old hstored hactive hold
    · exact h id record old hrecord hactive hold

theorem Ledger.succeeds_recover (file current : Ledger) : file.Succeeds (file.recover current) :=
  Ledger.Succeeds.of_eq rfl

end

end AgentScheduler
