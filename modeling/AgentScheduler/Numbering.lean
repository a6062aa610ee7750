import AgentScheduler.Exclusivity

/-! Assignment generations: every commit that advances them stores a fresh assignment. -/
namespace AgentScheduler
open Std KeyedTable Relation

/-! ### What the ledger remembers -/

/-- No assignment is forgotten or bound anew, and no assignment generation falls behind. -/
structure Ledger.Remembers (ledger ledger' : Ledger) : Prop where
  assignments : ∀ id record, ledger.assignments id = some record →
    ∃ record', ledger'.assignments id = some record' ∧ SameBinding record record'
  works : ∀ work entry, ledger.works work = some entry →
    ∃ entry', ledger'.works work = some entry' ∧ entry.lastGeneration.value ≤ entry'.lastGeneration.value

/-- The ledger remembers, and what is new in it is numbered past everything before. -/
structure Ledger.Grows (ledger ledger' : Ledger) : Prop extends ledger.Remembers ledger' where
  numbered : ∀ id record, ledger.assignments id = none → ledger'.assignments id = some record →
    ∀ entry, ledger.works record.binding.work = some entry →
      entry.lastGeneration.value < record.binding.generation.value

/-- Every assignment has a number of its own among those of its work item, none past the last one. -/
structure Numbered (ledger : Ledger) : Prop where
  bounded : ∀ id record, ledger.assignments id = some record → ∃ entry,
    ledger.works record.binding.work = some entry ∧ record.binding.generation.value ≤ entry.lastGeneration.value
  distinct : ∀ id id' record record', ledger.assignments id = some record → ledger.assignments id' = some record' →
    record.binding.work = record'.binding.work → record.binding.generation = record'.binding.generation → id = id'

/-- A binding carries a number past the last one of its work item. -/
def Advancing (ledger : Ledger) (binding : AssignmentBinding) : Prop :=
  ∀ entry, ledger.works binding.work = some entry → entry.lastGeneration.value < binding.generation.value

section Ledgers
variable {ledger ledger' ledger'' : Ledger}

theorem Ledger.Remembers.refl (ledger : Ledger) : ledger.Remembers ledger :=
  ⟨fun _ record h => ⟨record, h, rfl⟩, fun _ entry h => ⟨entry, h, le_rfl⟩⟩

theorem Ledger.Remembers.trans (h : ledger.Remembers ledger') (h' : ledger'.Remembers ledger'') :
    ledger.Remembers ledger'' := by
  refine ⟨fun id record hrecord => ?_, fun work entry hentry => ?_⟩
  · obtain ⟨record', hrecord', hbinding⟩ := h.assignments id record hrecord
    obtain ⟨record'', hrecord'', hbinding'⟩ := h'.assignments id record' hrecord'
    exact ⟨record'', hrecord'', hbinding.trans hbinding'⟩
  · obtain ⟨entry', hentry', hle⟩ := h.works work entry hentry
    obtain ⟨entry'', hentry'', hle'⟩ := h'.works work entry' hentry'
    exact ⟨entry'', hentry'', hle.trans hle'⟩

theorem Ledger.Grows.refl (ledger : Ledger) : ledger.Grows ledger := by
  refine ⟨Ledger.Remembers.refl ledger, fun id record hnone hsome => ?_⟩
  rw [hnone] at hsome
  cases hsome

theorem Ledger.Grows.trans (h : ledger.Grows ledger') (h' : ledger'.Grows ledger'') : ledger.Grows ledger'' := by
  refine ⟨h.toRemembers.trans h'.toRemembers, fun id record hnone hsome entry hentry => ?_⟩
  cases hmiddle : ledger'.assignments id with
  | some middle =>
    obtain ⟨record', hrecord', hbinding⟩ := h'.assignments id middle hmiddle
    obtain rfl := Option.some.inj (hsome.symm.trans hrecord')
    rw [hbinding] at hentry ⊢
    exact h.numbered id middle hnone hmiddle entry hentry
  | none =>
    obtain ⟨entry', hentry', hle⟩ := h.works _ entry hentry
    exact Nat.lt_of_le_of_lt hle (h'.numbered id record hmiddle hsome entry' hentry')

/-- Two ledgers that remember each other hold the same assignments, so nothing is new. -/
theorem Ledger.Remembers.grows (h : ledger.Remembers ledger') (hback : ledger'.Remembers ledger) :
    ledger.Grows ledger' := by
  refine ⟨h, fun id record hnone hsome => ?_⟩
  obtain ⟨record', hrecord', -⟩ := hback.assignments id record hsome
  rw [hnone] at hrecord'
  cases hrecord'

theorem Ledger.remembers_recover (file current : Ledger) : file.Remembers (file.recover current) := by
  refine ⟨fun id record hrecord => ?_, fun _ entry hentry => ⟨entry, hentry, le_rfl⟩⟩
  obtain ⟨after, hafter, hevolves⟩ := file.extends_recover current id record hrecord
  exact ⟨after, hafter, hevolves.binding⟩

theorem Ledger.recover_remembers (file current : Ledger) : (file.recover current).Remembers file := by
  refine ⟨fun id record hrecord => ?_, fun _ entry hentry => ⟨entry, hentry, le_rfl⟩⟩
  obtain ⟨before, hbefore, rfl⟩ := Option.map_eq_some_iff.mp hrecord
  refine ⟨before, hbefore, ?_⟩
  have hbinding := (Evolves.recover before).binding
  unfold SameBinding at hbinding ⊢
  rw [hbinding]

/-- Numbering survives when no assignment is new and no number falls behind. -/
theorem Numbered.remembered (h : Numbered ledger) (hremembers : ledger.Remembers ledger')
    (hold : ∀ id record, ledger'.assignments id = some record → ∃ before, ledger.assignments id = some before) :
    Numbered ledger' := by
  have hbefore : ∀ id record, ledger'.assignments id = some record →
      ∃ before, ledger.assignments id = some before ∧ SameBinding before record := by
    intro id record hrecord
    obtain ⟨before, hbefore⟩ := hold id record hrecord
    obtain ⟨record', hrecord', hbinding⟩ := hremembers.assignments id before hbefore
    obtain rfl := Option.some.inj (hrecord.symm.trans hrecord')
    exact ⟨before, hbefore, hbinding⟩
  refine ⟨fun id record hrecord => ?_, fun id id' record record' hrecord hrecord' hwork hgeneration => ?_⟩
  · obtain ⟨before, hstored, hbinding⟩ := hbefore id record hrecord
    obtain ⟨entry, hentry, hle⟩ := h.bounded id before hstored
    obtain ⟨entry', hentry', hle'⟩ := hremembers.works _ entry hentry
    rw [hbinding]
    exact ⟨entry', hentry', hle.trans hle'⟩
  · obtain ⟨before, hstored, hbinding⟩ := hbefore id record hrecord
    obtain ⟨before', hstored', hbinding'⟩ := hbefore id' record' hrecord'
    rw [hbinding, hbinding'] at hwork hgeneration
    exact h.distinct id id' before before' hstored hstored' hwork hgeneration

end Ledgers

/-! ### Movements that advance the numbering -/

section Moves
variable {gate : Gate} {ledger ledger' : Ledger}

/-- Only a commit stores a record under an id that was not known. -/
theorem Move.new_record {id : AssignmentId} {record : AssignmentRecord} (hmove : Move gate ledger ledger')
    (hnone : ledger.assignments id = none) (hsome : ledger'.assignments id = some record) :
    ∃ entry binding, Commits ledger entry binding ∧ gate.commits ledger binding ∧
      ledger' = ledger.commit entry binding ∧ binding.id = id ∧ record = binding.record := by
  have hmapped : ∀ update, (ledger.mapAssignments update).assignments id = some record → False := by
    intro update hrecord
    simp only [Ledger.mapAssignments, hnone, Option.map_none] at hrecord
    cases hrecord
  have hset : ∀ other before after, ledger.assignments other = some before →
      (ledger.setAssignment other after).assignments id = some record → False := by
    intro other before after hbefore hrecord
    by_cases hid : id = other
    · rw [hid, hbefore] at hnone
      cases hnone
    · simp only [Ledger.setAssignment, Function.update_of_ne hid, hnone] at hrecord
      cases hrecord
  cases hmove with
  | close => exact (hmapped _ hsome).elim
  | repolicy => exact (hmapped _ hsome).elim
  | republish => exact (hmapped _ hsome).elim
  | enroll | silence | accept | settle =>
    have hsome : ledger.assignments id = some record := hsome
    rw [hnone] at hsome
    cases hsome
  | advance other before after hbefore => exact (hset other before after hbefore hsome).elim
  | promote other before now ttl agent hbefore => exact (hset other before _ hbefore hsome).elim
  | commit entry binding hcommits hgate =>
    change (if id = binding.id then some ((ledger.assignments id).getD binding.record) else ledger.assignments id) =
      some record at hsome
    rw [hnone] at hsome
    split at hsome
    · next hid => exact ⟨entry, binding, hcommits, hgate, rfl, hid.symm, (Option.some.inj hsome).symm⟩
    · cases hsome

private theorem works_commit {entry : WorkEntry} {binding : AssignmentBinding} :
    (ledger.commit entry binding).works binding.work = some { entry with lastGeneration := binding.generation } := by
  simp [Ledger.commit, Ledger.setWork]

/-- A movement whose commits advance the numbering remembers everything. -/
theorem Move.remembers (hmove : Move gate ledger ledger') (hsound : Sound ledger)
    (hcommits : ∀ ledger binding, gate.commits ledger binding → Advancing ledger binding) :
    ledger.Remembers ledger' := by
  refine ⟨fun id record hrecord => ?_, ?_⟩
  · obtain ⟨after, hafter, hevolves⟩ := hmove.extends hsound id record hrecord
    exact ⟨after, hafter, hevolves.binding⟩
  have hset : ∀ work entry, (∀ old, ledger.works work = some old →
      old.lastGeneration.value ≤ entry.lastGeneration.value) → ∀ other old, ledger.works other = some old →
      ∃ entry', (ledger.setWork work entry).works other = some entry' ∧
        old.lastGeneration.value ≤ entry'.lastGeneration.value := by
    intro work entry hle other old hold
    by_cases hwork : other = work
    · subst hwork
      exact ⟨entry, by simp [Ledger.setWork], hle old hold⟩
    · exact ⟨old, by simpa [Ledger.setWork, Function.update_of_ne hwork] using hold, le_rfl⟩
  cases hmove with
  | accept work entry _ _ hold => exact hset work entry fun old hentry => by rw [(hold old hentry).2.1]
  | settle work old lifecycle _ hold _ _ =>
    refine hset work _ fun found hfound => ?_
    rw [hold] at hfound
    rw [← Option.some.inj hfound]
  | commit entry binding _ hgate =>
    exact hset binding.work { entry with lastGeneration := binding.generation }
      fun old hold => (hcommits ledger binding hgate old hold).le
  | close | repolicy | enroll | republish | silence | advance | promote => exact fun _ entry h => ⟨entry, h, le_rfl⟩

theorem Move.grows (hmove : Move gate ledger ledger') (hsound : Sound ledger)
    (hcommits : ∀ ledger binding, gate.commits ledger binding → Advancing ledger binding) : ledger.Grows ledger' := by
  refine ⟨hmove.remembers hsound hcommits, fun id record hnone hsome entry hentry => ?_⟩
  obtain ⟨_, binding, -, hgate, -, -, rfl⟩ := hmove.new_record hnone hsome
  exact hcommits ledger binding hgate entry hentry

theorem Move.numbered (hmove : Move gate ledger ledger') (hsound : Sound ledger)
    (hcommits : ∀ ledger binding, gate.commits ledger binding → Advancing ledger binding) (h : Numbered ledger) :
    Numbered ledger' := by
  have hremembers := hmove.remembers hsound hcommits
  by_cases hnew : ∃ id record, ledger.assignments id = none ∧ ledger'.assignments id = some record
  · obtain ⟨id, record, hnone, hsome⟩ := hnew
    obtain ⟨entry, binding, hcommit, hgate, rfl, rfl, rfl⟩ := hmove.new_record hnone hsome
    have hlast := hcommits ledger binding hgate entry hcommit.work
    have hcases : ∀ id record, (ledger.commit entry binding).assignments id = some record →
        (id = binding.id ∧ record = binding.record) ∨ ledger.assignments id = some record := by
      intro id record hrecord
      change (if id = binding.id then some ((ledger.assignments id).getD binding.record) else ledger.assignments id) =
        some record at hrecord
      split at hrecord
      · next hid =>
        subst hid
        rw [hnone] at hrecord
        exact .inl ⟨rfl, (Option.some.inj hrecord).symm⟩
      · exact .inr hrecord
    -- a record from before is numbered below the new one of the same work item
    have hbelow : ∀ id record, ledger.assignments id = some record → record.binding.work = binding.work →
        record.binding.generation ≠ binding.generation := by
      intro id record hrecord hwork heq
      obtain ⟨found, hfound, hle⟩ := h.bounded id record hrecord
      rw [hwork, hcommit.work] at hfound
      rw [← Option.some.inj hfound, heq] at hle
      exact absurd hlast (Nat.not_lt.mpr hle)
    refine ⟨fun id record hrecord => ?_, fun id id' record record' hrecord hrecord' hwork hgeneration => ?_⟩
    · rcases hcases id record hrecord with ⟨rfl, rfl⟩ | hold
      · exact ⟨_, works_commit, le_rfl⟩
      · obtain ⟨found, hfound, hle⟩ := h.bounded id record hold
        obtain ⟨found', hfound', hle'⟩ := hremembers.works _ found hfound
        exact ⟨found', hfound', hle.trans hle'⟩
    · rcases hcases id record hrecord with ⟨rfl, rfl⟩ | hold
      · rcases hcases id' record' hrecord' with ⟨rfl, rfl⟩ | hold'
        · rfl
        · exact (hbelow id' record' hold' hwork.symm hgeneration.symm).elim
      · rcases hcases id' record' hrecord' with ⟨rfl, rfl⟩ | hold'
        · exact (hbelow id record hold hwork hgeneration).elim
        · exact h.distinct id id' record record' hold hold' hwork hgeneration
  · push Not at hnew
    refine h.remembered hremembers fun id record hrecord => ?_
    cases hbefore : ledger.assignments id with
    | none => exact (hnew id record hbefore hrecord).elim
    | some before => exact ⟨before, rfl⟩

/-- Movements whose commits advance the numbering. -/
theorem Ledger.grows_of_moves (hmoves : ReflTransGen (Move gate) ledger ledger') (hsound : Sound ledger)
    (hnumbered : Numbered ledger) (hcommits : ∀ ledger binding, gate.commits ledger binding → Advancing ledger binding) :
    ledger.Grows ledger' ∧ Numbered ledger' := by
  have hkeeps : ∀ l l', Move gate l l' → Sound l ∧ Numbered l → Sound l' ∧ Numbered l' :=
    fun _ _ hmove h => ⟨hmove.sound h.1, hmove.numbered h.1 hcommits h.2⟩
  exact ⟨Runs.relates (motive := fun l => Sound l ∧ Numbered l) Ledger.Grows.refl
    (fun _ _ _ => Ledger.Grows.trans) hkeeps (fun _ _ hmove h => hmove.grows h.1 hcommits) hmoves ⟨hsound, hnumbered⟩,
    (Runs.keeps hkeeps hmoves ⟨hsound, hnumbered⟩).2⟩

end Moves

/-! ### Replies of `schedule` -/

/-- A check whose refusals are never reported as an assignment. -/
def NeverAssigns {Value : Type} (check : Except Rejection Value) : Prop :=
  ∀ rejection, check = .error rejection → rejection.1 ≠ .assigned

section Replies
variable {Value Next : Type}

theorem NeverAssigns.ok (value : Value) : NeverAssigns (.ok value) := nofun

theorem NeverAssigns.bind {check : Except Rejection Value} {rest : Value → Except Rejection Next}
    (h : NeverAssigns check) (hrest : ∀ value, NeverAssigns (rest value)) : NeverAssigns (check >>= rest) := by
  cases check with
  | error rejection => exact fun other hother => h other (congrArg Except.error (Except.error.inj hother))
  | ok value => exact hrest value

theorem NeverAssigns.refuseIf {condition : Prop} [Decidable condition] {outcome : ScheduleOutcome} {detail : Text}
    (h : outcome ≠ .assigned) : NeverAssigns (refuseIf condition outcome detail) := by
  unfold AgentScheduler.refuseIf
  split
  · rintro rejection hrejection
    rw [← Except.error.inj hrejection]
    exact h
  · exact NeverAssigns.ok ()

theorem NeverAssigns.lookupOrRefuse {found : Option Value} {outcome : ScheduleOutcome} {detail : Text}
    (h : outcome ≠ .assigned) : NeverAssigns (lookupOrRefuse found outcome detail) := by
  cases found with
  | none =>
    rintro rejection hrejection
    rw [← Except.error.inj hrejection]
    exact h
  | some value => exact NeverAssigns.ok value

theorem planGates_neverAssigns (now : UInt64) (impl : Impl) (work : WorkRecord) :
    NeverAssigns (planGates now impl work) := by
  unfold planGates
  repeat' first
  | exact .refuseIf nofun
  | refine .bind ?_ fun _ => ?_

theorem commitScheduler_neverAssigns (impl : Impl) (binding : AssignmentBinding) :
    NeverAssigns (commitScheduler impl binding) := by
  unfold commitScheduler
  repeat' first
  | exact .refuseIf nofun
  | refine .bind ?_ fun _ => ?_

theorem commitWork_neverAssigns (now : UInt64) (impl : Impl) (id : WorkId) (generation : WorkGeneration)
    (binding : AssignmentBinding) (work : WorkRecord) :
    NeverAssigns (commitWork now impl id generation binding work) := by
  unfold commitWork
  repeat' first
  | exact .refuseIf nofun
  | refine .bind ?_ fun _ => ?_

theorem commitAgent_neverAssigns (now : UInt64) (impl : Impl) (id : WorkId) (requirements : WorkRequirements)
    (binding : AssignmentBinding) (agent : AgentRecord) :
    NeverAssigns (commitAgent now impl id requirements binding agent) := by
  unfold commitAgent
  repeat' first
  | refine NeverAssigns.refuseIf ?_
  | refine NeverAssigns.bind ?_ fun _ => ?_
  -- draining agents are refused under an outcome of their own
  all_goals first
  | decide
  | split <;> decide

theorem commitFeasibility_neverAssigns (requirements : WorkRequirements) (feasibility : ExternalFeasibilityResult) :
    NeverAssigns (commitFeasibility requirements feasibility) := by
  unfold commitFeasibility
  repeat' first
  | exact .refuseIf nofun
  | refine .bind ?_ fun _ => ?_

theorem commitCheck_neverAssigns (ctx : Context) (impl : Impl) (id : WorkId) (generation : WorkGeneration)
    (binding : AssignmentBinding) : NeverAssigns (commitCheck ctx impl id generation binding) :=
  .bind (commitScheduler_neverAssigns impl binding) fun _ => .bind (.lookupOrRefuse nofun) fun work =>
    .bind (commitWork_neverAssigns ctx.now impl id generation binding work) fun _ =>
      .bind (.lookupOrRefuse nofun) fun agent =>
        .bind (commitAgent_neverAssigns ctx.now impl id work.request.requirements binding agent) fun _ =>
          .bind (commitFeasibility_neverAssigns _ _) fun _ => .ok work

/-- A plan without a binding does not report an assignment. -/
theorem planLocked_unassigned {ctx : Context} {impl : Impl} {work : WorkRecord}
    (h : (planLocked ctx impl work).binding = none) : (planLocked ctx impl work).decision.outcome ≠ .assigned := by
  unfold planLocked at h ⊢
  cases hgates : planGates ctx.now impl work with
  | error rejection => exact planGates_neverAssigns ctx.now impl work rejection hgates
  | ok _ =>
    simp only [hgates] at h ⊢
    cases horder : rankingOrder (evaluateCandidates ctx impl work) with
    | nil => exact nofun
    | cons winner rest =>
      simp only [horder] at h ⊢
      split at h
      · exact nofun
      · cases h

/-- The first section of a call reports no assignment. -/
theorem beginCall_unassigned {ctx : Context} {impl : Impl} {era : Nat} {request : Request}
    {decision : ScheduleDecision} (h : beginCall ctx impl era request = .inl (.decision decision)) :
    decision.outcome ≠ .assigned := by
  cases request with
  | schedule work generation =>
    simp only [beginCall] at h
    split at h
    · next hnone =>
      obtain rfl := Reply.decision.inj (Sum.inl.inj h)
      unfold scheduleBegin at hnone ⊢
      split
      · exact fun heq => by cases heq
      · split
        · exact fun heq => by cases heq
        · next hrecord hgeneration =>
          simp only [hrecord, hgeneration, if_false] at hnone
          exact planLocked_unassigned hnone
    · cases h
  | dispatch | registerAgent | submitWork | cancelWork | declareAgentLost =>
    simp only [beginCall] at h
    split at h <;> cases h

/-- A `schedule` call that reports an assignment reports what the store holds under the id of its plan. -/
theorem scheduleCommit_assigned {ctx : Context} {impl : Impl} {generation : WorkGeneration}
    {decision : ScheduleDecision} {binding : AssignmentBinding} (hconsistent : Consistent impl)
    (hassigned : (scheduleCommit ctx impl binding.work generation decision binding).1.outcome = .assigned) :
    ∃ work, commitCheck ctx impl binding.work generation binding = .ok work ∧
      Commits impl.ledger work.entry binding ∧
      (scheduleCommit ctx impl binding.work generation decision binding).2.ledger =
        impl.ledger.commit work.entry binding ∧
      (scheduleCommit ctx impl binding.work generation decision binding).1.assignment =
        some ((impl.assignments[binding.id]?).getD binding.record).binding := by
  unfold scheduleCommit at hassigned ⊢
  cases hcommit : commitLocked ctx impl binding.work generation binding with
  | error rejection =>
    simp only [hcommit] at hassigned
    unfold commitLocked at hcommit
    cases hcheck : commitCheck ctx impl binding.work generation binding with
    | error refused =>
      rw [hcheck] at hcommit
      obtain rfl := Except.error.inj hcommit
      exact (commitCheck_neverAssigns ctx impl _ generation binding _ hcheck hassigned).elim
    | ok work =>
      rw [hcheck] at hcommit
      cases hcommit
  | ok committed =>
    obtain ⟨work, hcheck, rfl⟩ := commitLocked_ok hcommit
    have hledger := (commitApply_spec hconsistent hcheck).2
    have hstored : (commitApply impl binding.work work binding).assignments[binding.id]? =
        some ((impl.assignments[binding.id]?).getD binding.record) := by
      have hread := congrArg (fun ledger => ledger.assignments binding.id) hledger
      simpa [Ledger.commit, Ledger.setWork, Impl.ledger] using hread
    simp only [hstored]
    exact ⟨work, hcheck, (commits_of_check hconsistent hcheck).2, hledger, trivial⟩

end Replies

/-- A step that reports an assignment is the second section of a `schedule` call. -/
theorem System.step_assigned {system after : System} {label : Label} {decision : ScheduleDecision}
    (hstep : system.step label = some (.decision decision, after)) (hassigned : decision.outcome = .assigned) :
    ∃ plan, system.Finishes label plan ∧
      scheduleCommit system.context system.impl plan.work plan.generation plan.decision plan.binding =
        (decision, after.impl) := by
  cases label with
  | finish position =>
    simp only [System.step] at hstep
    split at hstep
    · cases hstep
    · next call hcall =>
      obtain ⟨hreply, rfl⟩ := Prod.mk.inj (Option.some.inj hstep)
      cases call with
      | schedule plan =>
        refine ⟨plan, ⟨position, rfl, hcall⟩, ?_⟩
        exact Prod.ext (Reply.decision.inj hreply) rfl
      | dispatch | registerAgent | submitWork | cancelWork | declareAgentLost => cases hreply
  | «begin» request =>
    simp only [System.step] at hstep
    split at hstep
    · next hbegin =>
      obtain ⟨rfl, -⟩ := Prod.mk.inj (Option.some.inj hstep)
      exact (beginCall_unassigned hbegin hassigned).elim
    · cases (Prod.mk.inj (Option.some.inj hstep)).1
  | run operation =>
    obtain ⟨hreply, -⟩ := Prod.mk.inj (Option.some.inj hstep)
    cases operation <;> cases hreply
  | tick now =>
    simp only [System.step] at hstep
    split at hstep <;> cases hstep
  | provide feasibility => cases hstep
  | save => cases hstep
  | load position =>
    simp only [System.step] at hstep
    split at hstep
    · cases hstep
    · split at hstep <;> cases hstep
  | restart options generatedId =>
    simp only [System.step, Option.map_eq_some_iff] at hstep
    obtain ⟨_, -, heq⟩ := hstep
    cases heq

/-! ### Runs whose commits advance -/

/-- The fields of a binding that its identity is derived from. -/
def AssignmentBinding.hashed (binding : AssignmentBinding) : AssignmentBinding :=
  { binding with
    id := 0
    lease := 0
    leaseGeneration := 0
    dispatch := 0
    dispatchGeneration := 0
    createdAtMs := 0
    leaseExpiresAtMs := 0 }

/-- The plan is numbered past the last assignment of its work item, if it is not outdated otherwise. -/
def Impl.NumberFits (impl : Impl) (plan : Plan) : Prop :=
  match impl.work[plan.work]? with
  | none => True
  | some work => impl.SameEpochs plan → work.request.generation = plan.generation →
      work.lastAssignmentGeneration.value < plan.binding.generation.value

instance (impl : Impl) (plan : Plan) : Decidable (impl.NumberFits plan) := by
  dsimp only [Impl.NumberFits]
  generalize impl.work[plan.work]? = found
  rcases found with ⟨⟩ <;> infer_instance

/-- Commits are numbered past what their work item has seen, and a load reads a file that still knows every
stored assignment. -/
structure CommitsAdvance (system : System) (label : Label) : Prop where
  commits : ∀ plan, system.Finishes label plan → system.impl.NumberFits plan
  loads : ∀ position file, label = .load position → system.saved[position]? = some file →
    system.impl.running = false → system.impl.ledger.Remembers file.ledger
  restarts : ∀ options generatedId, label ≠ .restart options generatedId

/-- Two bindings that meet under one id agree in every field the id is derived from. -/
def IdsInjective (system : System) (label : Label) : Prop :=
  ∀ plan record, system.Finishes label plan → system.impl.assignments[plan.binding.id]? = some record →
    record.binding.hashed = plan.binding.hashed

/-- The condition on commits and loads, under the assumption on derived ids. -/
def Fresh (system : System) (label : Label) : Prop := CommitsAdvance system label ∧ IdsInjective system label

/-- What a step does to the assignments that were stored earlier in its run. -/
structure FreshStep (early system : System) (reply : Reply) (after : System) : Prop where
  /-- a `schedule` call that reports an assignment has stored it under an id the earlier state does not know -/
  inserted : ∀ decision, reply = .decision decision → decision.outcome = .assigned → ∃ binding,
    decision.assignment = some binding ∧ early.impl.assignments[binding.id]? = none ∧
      after.impl.assignments[binding.id]? = some binding.record
  /-- a newly stored assignment is numbered past every earlier one of its work item -/
  greater : ∀ (id id' : AssignmentId) record record', system.impl.assignments[id]? = none →
    after.impl.assignments[id]? = some record → early.impl.assignments[id']? = some record' →
    record'.binding.work = record.binding.work → record'.binding.generation.value < record.binding.generation.value
  /-- two assignments of one work item never share a number -/
  distinct : ∀ (id id' : AssignmentId) record record', after.impl.assignments[id]? = some record →
    after.impl.assignments[id']? = some record' → record.binding.work = record'.binding.work →
    record.binding.generation = record'.binding.generation → id = id'
  /-- the last number of a work item never decreases -/
  last : ∀ (work : WorkId) record, early.impl.work[work]? = some record → ∃ record',
    after.impl.work[work]? = some record' ∧
      record.lastAssignmentGeneration.value ≤ record'.lastAssignmentGeneration.value

/-- What keeps the assignments numbered along a run. -/
structure NumberInvariant (system : System) : Prop where
  impl : Numbered system.impl.ledger
  saved : ∀ file ∈ system.saved, Numbered file.ledger ∧ file.ledger.Remembers system.impl.ledger

section Run
variable {system after early : System} {label : Label} {reply : Reply}

private theorem commit_advancing {plan : Plan} {work : WorkRecord} (hvalid : system.Valid)
    (hadvance : CommitsAdvance system label) (hfinishes : system.Finishes label plan)
    (hcheck : commitCheck system.context system.impl plan.work plan.generation plan.binding = .ok work) :
    Advancing system.impl.ledger plan.binding := by
  have hfits := hadvance.commits plan hfinishes
  obtain ⟨position, rfl, hcall⟩ := hfinishes
  have hbound : plan.binding.work = plan.work := hvalid.calls _ (List.mem_of_getElem? hcall)
  rw [← hbound] at hcheck
  obtain ⟨hstored, hcommits⟩ := commits_of_check hvalid.healthy.consistent hcheck
  intro entry hentry
  obtain rfl := Option.some.inj (hcommits.work.symm.trans hentry)
  simp only [Impl.NumberFits, ← hbound, hstored] at hfits
  exact hfits (commitCheck_epochs hcheck) (commitCheck_generation hcheck)

/-- An advancing step lets the ledger grow. -/
private theorem grows_step (hvalid : system.Valid) (hadvance : CommitsAdvance system label)
    (hstep : system.step label = some (reply, after)) (hinv : NumberInvariant system) :
    system.impl.ledger.Grows after.impl.ledger ∧ Numbered after.impl.ledger := by
  have hchange : Change Advancing system after label := by
    refine System.step_change hvalid hstep (fun _ ledger entry binding hplanned entry' hentry' => ?_)
      fun plan work hfinishes hcheck => commit_advancing hvalid hadvance hfinishes hcheck
    obtain rfl := Option.some.inj (hplanned.work.symm.trans hentry')
    rw [hplanned.next]
    exact Nat.lt_succ_self _
  cases hchange with
  | moves _ hmoves => exact Ledger.grows_of_moves hmoves hvalid.healthy.sound hinv.impl fun _ _ => id
  | recovers position file hlabel hfile hstopped himpl _ =>
    have hmem := List.mem_of_getElem? hfile
    obtain ⟨hnumbered, hknown⟩ := hinv.saved file hmem
    have hremembers := hadvance.loads position file hlabel hfile hstopped
    have hrecover := file.ledger.remembers_recover system.impl.ledger
    rw [himpl, (restore_image _ (hvalid.saved file hmem).consistent).2]
    refine ⟨(hremembers.trans hrecover).grows ((file.ledger.recover_remembers _).trans hknown), ?_⟩
    refine hnumbered.remembered hrecover fun id record hrecord => ?_
    obtain ⟨before, hbefore, -⟩ := (file.ledger.recover_remembers _).assignments id record hrecord
    exact ⟨before, hbefore⟩
  | constructs options generatedId hlabel _ _ => exact (hadvance.restarts options generatedId hlabel).elim

private theorem NumberInvariant.step (hvalid : system.Valid) (hadvance : CommitsAdvance system label)
    (hstep : system.step label = some (reply, after)) (hinv : NumberInvariant system) : NumberInvariant after := by
  obtain ⟨hgrows, hnumbered⟩ := grows_step hvalid hadvance hstep hinv
  refine ⟨hnumbered, fun file hfile => ?_⟩
  rcases (System.step_frame hstep).saved file hfile with hold | rfl
  · obtain ⟨hfileNumbered, hknown⟩ := hinv.saved file hold
    exact ⟨hfileNumbered, hknown.trans hgrows.toRemembers⟩
  · exact ⟨hinv.impl, hgrows.toRemembers⟩

private theorem NumberInvariant.initial (h : system.IsInitial) : NumberInvariant system := by
  obtain ⟨options, generatedId, now, h⟩ := h
  obtain ⟨impl, hconstruct, rfl⟩ := Option.map_eq_some_iff.mp h
  have hnone := (construct_spec hconstruct).2.2
  refine ⟨⟨fun id record hrecord => ?_, fun id _ record _ hrecord => ?_⟩, fun _ hfile => (List.not_mem_nil hfile).elim⟩
  · rw [hnone] at hrecord
    cases hrecord
  · rw [hnone] at hrecord
    cases hrecord

theorem System.ReachableBy.numberInvariant (h : system.ReachableBy Fresh) : NumberInvariant system :=
  h.keeps (fun _ => NumberInvariant.initial) fun _ _ _ _ hvalid hfresh hstep hinv => hinv.step hvalid hfresh.1 hstep

/-- Along a run whose commits advance, the ledger remembers. -/
theorem System.Runs.remembers (hrun : System.Runs Fresh early system) (hearly : early.ReachableBy Fresh) :
    early.impl.ledger.Remembers system.impl.ledger := by
  refine Runs.relates (r := fun s s' : System => s.impl.ledger.Remembers s'.impl.ledger)
    (motive := fun s => s.Valid ∧ NumberInvariant s) (fun s => Ledger.Remembers.refl _)
    (fun _ _ _ => Ledger.Remembers.trans) ?_ ?_ hrun ⟨hearly.valid, hearly.numberInvariant⟩
  · rintro s s' ⟨label, reply, hfresh, hstep⟩ hinv
    exact ⟨hinv.1.step hstep, hinv.2.step hinv.1 hfresh.1 hstep⟩
  · rintro s s' ⟨label, reply, hfresh, hstep⟩ hinv
    exact (grows_step hinv.1 hfresh.1 hstep hinv.2).1.toRemembers

/-- An advancing commit finds nothing stored under its id. -/
private theorem commit_unstored {plan : Plan} {work : WorkRecord} (hvalid : system.Valid) (hinv : NumberInvariant system)
    (hfresh : Fresh system label) (hfinishes : system.Finishes label plan)
    (hcheck : commitCheck system.context system.impl plan.work plan.generation plan.binding = .ok work) :
    system.impl.assignments[plan.binding.id]? = none := by
  cases hstored : system.impl.assignments[plan.binding.id]? with
  | none => rfl
  | some record =>
    have hhashed := hfresh.2 plan record hfinishes hstored
    have hwork : record.binding.work = plan.binding.work := (congrArg AssignmentBinding.work hhashed :)
    have hgeneration : record.binding.generation = plan.binding.generation :=
      (congrArg AssignmentBinding.generation hhashed :)
    obtain ⟨entry, hentry, hle⟩ := hinv.impl.bounded _ record hstored
    rw [hwork] at hentry
    have hlt := commit_advancing hvalid hfresh.1 hfinishes hcheck entry hentry
    rw [hgeneration] at hle
    exact absurd hlt (Nat.not_lt.mpr hle)

/-- A step of a run whose commits advance is fresh with respect to every earlier state. -/
theorem freshStep_of_fresh (hearly : early.ReachableBy Fresh) (hrun : System.Runs Fresh early system)
    (hfresh : Fresh system label) (hstep : system.step label = some (reply, after)) :
    FreshStep early system reply after := by
  have hreachable := hearly.trans hrun
  have hvalid := hreachable.valid
  have hinv := hreachable.numberInvariant
  have hremembers := hrun.remembers hearly
  obtain ⟨hgrows, hnumbered⟩ := grows_step hvalid hfresh.1 hstep hinv
  refine ⟨fun decision hreply hassigned => ?_, fun id id' record record' hnone hsome hearlier hwork => ?_,
    fun id id' record record' hrecord hrecord' => hnumbered.distinct id id' record record' hrecord hrecord',
    fun work record hrecord => ?_⟩
  · subst hreply
    obtain ⟨plan, hfinishes, hcommit⟩ := System.step_assigned hstep hassigned
    have hbound : plan.binding.work = plan.work := by
      obtain ⟨position, -, hcall⟩ := hfinishes
      exact hvalid.calls _ (List.mem_of_getElem? hcall)
    rw [← hbound] at hcommit
    have houtcome : (scheduleCommit system.context system.impl plan.binding.work plan.generation plan.decision
        plan.binding).1.outcome = .assigned := by
      rw [hcommit]
      exact hassigned
    obtain ⟨work, hcheck, -, hledger, hreported⟩ := scheduleCommit_assigned hvalid.healthy.consistent houtcome
    rw [hbound] at hcheck
    have hunstored := commit_unstored hvalid hinv hfresh hfinishes hcheck
    rw [hcommit] at hledger hreported
    rw [hunstored] at hreported
    refine ⟨plan.binding, hreported, ?_, ?_⟩
    · cases hknown : early.impl.assignments[plan.binding.id]? with
      | none => rfl
      | some record =>
        obtain ⟨record', hrecord', -⟩ := hremembers.assignments _ record hknown
        have hrecord' : system.impl.assignments[plan.binding.id]? = some record' := hrecord'
        rw [hunstored] at hrecord'
        cases hrecord'
    · have hread := congrArg (fun ledger => ledger.assignments plan.binding.id) hledger
      simpa [Ledger.commit, Ledger.setWork, Impl.ledger, hunstored] using hread
  · obtain ⟨before, hbefore, hbinding⟩ := hremembers.assignments id' record' hearlier
    obtain ⟨entry, hentry, hle⟩ := hinv.impl.bounded id' before hbefore
    have hnumber : before.binding.generation = record'.binding.generation := by rw [hbinding]
    have hbound : before.binding.work = record.binding.work := by rw [hbinding, ← hwork]
    rw [hbound] at hentry
    rw [hnumber] at hle
    exact Nat.lt_of_le_of_lt hle (hgrows.numbered id record hnone hsome entry hentry)
  · have hentry : early.impl.ledger.works work = some record.entry := by simp [Impl.ledger, hrecord]
    obtain ⟨entry', hentry', hle⟩ := (hremembers.trans hgrows.toRemembers).works work _ hentry
    obtain ⟨record', hrecord', rfl⟩ := Option.map_eq_some_iff.mp hentry'
    exact ⟨record', hrecord', hle⟩

end Run

/-- In a run whose commits advance every successful `schedule` call stores a fresh assignment, and no two of
them report the same one. -/
theorem commits_fresh {early system after : System} {label : Label} {reply : Reply} (hearly : early.ReachableBy Fresh)
    (hbefore : System.Runs Fresh early system) (hfresh : Fresh system label)
    (hstep : system.step label = some (reply, after)) :
    FreshStep early system reply after ∧
      ∀ (second after' : System) label' decision decision' binding binding', System.Runs Fresh after second →
        Fresh second label' → second.step label' = some (.decision decision', after') → reply = .decision decision →
        decision.outcome = .assigned → decision'.outcome = .assigned → decision.assignment = some binding →
        decision'.assignment = some binding' → binding.id ≠ binding'.id := by
  refine ⟨freshStep_of_fresh hearly hbefore hfresh hstep, ?_⟩
  rintro second after' label' decision decision' binding binding' hrun hfresh' hstep' rfl hassigned hassigned' hbinding
    hbinding' heq
  have hfirst : system.ReachableBy Fresh := hearly.trans hbefore
  have hafter : after.ReachableBy Fresh := hfirst.trans (.single ⟨label, _, hfresh, hstep⟩)
  obtain ⟨stored, hstored, -, hinserted⟩ :=
    (freshStep_of_fresh hfirst .refl hfresh hstep).inserted decision rfl hassigned
  obtain ⟨stored', hstored', hunknown, -⟩ :=
    (freshStep_of_fresh hafter hrun hfresh' hstep').inserted decision' rfl hassigned'
  obtain rfl := Option.some.inj (hbinding.symm.trans hstored)
  obtain rfl := Option.some.inj (hbinding'.symm.trans hstored')
  rw [← heq, hinserted] at hunknown
  cases hunknown

namespace Sample

/-- No load, no restart, and every commit advances under an id that is not taken. -/
def Calm (system : System) : Label → Prop
  | .finish position =>
    match system.calls[position]? with
    | some (.schedule plan) => system.impl.NumberFits plan ∧ system.impl.assignments[plan.binding.id]?.isNone
    | _ => True
  | .load _ => False
  | .restart .. => False
  | _ => True

instance (system : System) (label : Label) : Decidable (Calm system label) := by
  rcases label with ⟨⟩
  case finish position =>
    dsimp only [Calm]
    generalize system.calls[position]? = call
    rcases call with _ | ⟨⟨⟩⟩
    case some.schedule => exact instDecidableAnd
    all_goals exact instDecidableTrue
  all_goals first | exact instDecidableTrue | exact instDecidableFalse

theorem Calm.finishes {system : System} {label : Label} {plan : Plan} (h : Calm system label)
    (hfinishes : system.Finishes label plan) :
    system.impl.NumberFits plan ∧ system.impl.assignments[plan.binding.id]?.isNone := by
  obtain ⟨position, rfl, hcall⟩ := hfinishes
  simpa only [Calm, hcall] using h

theorem Calm.fresh (system : System) (label : Label) (h : Calm system label) : Fresh system label := by
  refine ⟨⟨fun plan hfinishes => (h.finishes hfinishes).1, ?_, ?_⟩, fun plan record hfinishes hstored => ?_⟩
  · rintro position file rfl
    exact h.elim
  · rintro options generatedId rfl
    exact h
  · have hnone := (h.finishes hfinishes).2
    rw [hstored] at hnone
    cases hnone

/-- Two slots of one work item are filled one after the other. -/
def twoCommits : Option (System × (Reply × System) × System × (Reply × System)) := do
  let first ← run Calm (enlist ++ submit parallelWork ++ [.begin (.schedule 5 1)])
  let committed ← first.step (.finish 0)
  let second ← committed.2.perform Calm [.begin (.schedule 5 1)]
  let committed' ← second.step (.finish 0)
  return (first, committed, second, committed')

/-- Whether a reply reports an assignment. -/
def reports : Reply → Bool
  | .decision decision => decision.outcome = .assigned && decision.assignment.isSome
  | _ => false

theorem of_reports {reply : Reply} (h : reports reply) : ∃ decision binding,
    reply = .decision decision ∧ decision.outcome = .assigned ∧ decision.assignment = some binding := by
  cases reply with
  | decision decision =>
    simp only [reports, Bool.and_eq_true, decide_eq_true_eq] at h
    obtain ⟨binding, hbinding⟩ := Option.isSome_iff_exists.mp h.2
    exact ⟨decision, binding, rfl, h.1, hbinding⟩
  | mutation | batch | dispatch | report | recovered | pending => cases h

end Sample

set_option maxRecDepth 100000 in
/-- Both commits of a work item with two slots are fresh. -/
theorem commits_fresh_sample : ∃ (first after second after' : System) (decision decision' : ScheduleDecision)
    (binding binding' : AssignmentBinding), first.step (.finish 0) = some (.decision decision, after) ∧
      second.step (.finish 0) = some (.decision decision', after') ∧ decision.assignment = some binding ∧
      decision'.assignment = some binding' ∧ FreshStep first second (.decision decision') after' ∧
      binding.id ≠ binding'.id := by
  have hview : Sample.twoCommits.map (fun (first, committed, second, committed') =>
      (decide (Sample.Calm first (.finish 0)), Sample.reports committed.1, decide (Sample.Calm second (.finish 0)),
        Sample.reports committed'.1)) = some (true, true, true, true) := by decide +kernel
  obtain ⟨⟨first, ⟨reply, after⟩, second, ⟨reply', after'⟩⟩, hruns, hview⟩ := Option.map_eq_some_iff.mp hview
  simp only [Prod.mk.injEq, decide_eq_true_eq] at hview
  obtain ⟨hcalm, hreports, hcalm', hreports'⟩ := hview
  obtain ⟨decision, binding, rfl, hassigned, hbinding⟩ := Sample.of_reports hreports
  obtain ⟨decision', binding', rfl, hassigned', hbinding'⟩ := Sample.of_reports hreports'
  simp only [Sample.twoCommits, bind, Option.bind_eq_some_iff] at hruns
  obtain ⟨first', hfirst, committed, hstep, second', hsecond, committed', hstep', heq⟩ := hruns
  obtain ⟨rfl, rfl, rfl, rfl⟩ := by simpa only [pure, Option.some.injEq, Prod.mk.injEq] using heq
  have hreached : first'.ReachableBy Fresh := (Sample.run_reaches hfirst).mono Sample.Calm.fresh
  have hbetween : System.Runs Fresh after second' := (System.perform_runs hsecond).mono Sample.Calm.fresh
  have hrun : System.Runs Fresh first' second' := .head ⟨_, _, hcalm.fresh, hstep⟩ hbetween
  refine ⟨first', after, second', after', decision, decision', binding, binding', hstep, hstep', hbinding, hbinding',
    ?_, ?_⟩
  · exact (commits_fresh hreached hrun hcalm'.fresh hstep').1
  · exact (commits_fresh hreached .refl hcalm.fresh hstep).2 second' after' _ decision decision' binding binding' hbetween
      hcalm'.fresh hstep' rfl hassigned hassigned' hbinding hbinding'

/-- Two plans are made for one slot. The first is committed and released before the second is committed. -/
def Sample.overtaken : Option (System × Reply × System) := do
  let planned ← run (fun _ _ => True)
    (enlist ++ submit exclusiveWork ++ [.begin (.schedule 5 1), .begin (.schedule 5 1)])
  match planned.calls with
  | .schedule plan :: _ =>
    let system ← planned.perform (fun _ _ => True)
      [.finish 0, .run (.release plan.binding.id plan.binding.generation boot "")]
    let (reply, after) ← system.step (.finish 0)
    return (system, reply, after)
  | _ => none

/-- The id of the binding a reply reports as assigned. -/
def Sample.reportedId : Reply → Option AssignmentId
  | .decision decision => if decision.outcome = .assigned then decision.assignment.map AssignmentBinding.id else none
  | _ => none

set_option maxRecDepth 100000 in
/-- Not every successful `schedule` call stores an assignment: a plan that a commit and a release have overtaken
reports the assignment that is stored already. -/
theorem not_commits_fresh : ¬∀ (system after : System) label reply, system.Reachable →
    system.step label = some (reply, after) → FreshStep system system reply after := by
  intro hfresh
  have hview : Sample.overtaken.map (fun (system, reply, _) =>
      (Sample.reports reply, (Sample.reportedId reply).all fun id => system.impl.assignments.contains id)) =
      some (true, true) := by decide +kernel
  obtain ⟨⟨system, reply, after⟩, hrun, hview⟩ := Option.map_eq_some_iff.mp hview
  simp only [Prod.mk.injEq] at hview
  obtain ⟨hreports, hcontains⟩ := hview
  obtain ⟨decision, binding, rfl, hassigned, hbinding⟩ := Sample.of_reports hreports
  simp only [Sample.overtaken, bind, Option.bind_eq_some_iff] at hrun
  obtain ⟨planned, hplanned, hrun⟩ := hrun
  split at hrun
  · simp only [Option.bind_eq_some_iff] at hrun
    obtain ⟨system', hsystem, ⟨reply', after'⟩, hstep, heq⟩ := hrun
    obtain ⟨rfl, rfl, rfl⟩ := by simpa only [pure, Option.some.injEq, Prod.mk.injEq] using heq
    have hreachable : system'.Reachable := (Sample.run_reaches hplanned).trans (System.perform_runs hsystem)
    obtain ⟨found, hfound, hunknown, -⟩ :=
      (hfresh system' after' _ _ hreachable hstep).inserted decision rfl hassigned
    obtain rfl := Option.some.inj (hbinding.symm.trans hfound)
    simp only [Sample.reportedId, hassigned, if_true, hbinding, Option.map_some, Option.all_some,
      ExtTreeMap.contains_eq_isSome_getElem?] at hcontains
    rw [hunknown] at hcontains
    cases hcontains
  · cases hrun

end AgentScheduler
