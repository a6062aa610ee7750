import AgentScheduler.BatchLog

/-! Replica slots: properties of the ledger over runs, and the count of active assignments that numbers the replicas. -/
namespace AgentScheduler
open Std KeyedTable Relation

/-! ### Properties of the ledger over steps -/

section Ledgers
variable {system after : System} {label : Label} {reply : Reply} {motive : Ledger → Prop} {request : ScheduleRequest}

/-- The commits that a step really makes: the instance each of them finds, its work item and its binding. -/
inductive System.Places (system : System) : Label → Impl → WorkRecord → AssignmentBinding → Prop
  | schedule {position : Nat} {plan : Plan} {work : WorkRecord} (hcall : system.calls[position]? = some (.schedule plan))
      (hcheck : commitCheck system.context system.impl plan.work plan.generation plan.binding = .ok work) :
      system.Places (.finish position) system.impl work plan.binding
  | batch {request : ScheduleRequest} {first : Bool} {state : BatchState} {id : WorkId} {work : WorkRecord}
      {binding : AssignmentBinding} (hdry : request.dryRun = false)
      (hcommits : system.BatchCommits request first state id binding) (hwork : state.impl.work[id]? = some work) :
      system.Places (.run (.scheduleBatch request)) state.impl work binding

/-- A commit of a batch passes the commit check. -/
theorem BatchTakes.check {ctx : Context} {state : BatchState} {id : WorkId} {work : WorkRecord} {binding : AssignmentBinding}
    (htakes : BatchTakes ctx request state id binding) (h : Consistent state.impl) (hwork : state.impl.work[id]? = some work) :
    (planLocked ctx state.impl work).binding = some binding ∧
      commitCheck ctx state.impl work.request.id work.request.generation binding = .ok work := by
  obtain ⟨found, committed, hfound, hplan, hcommit⟩ := htakes.commits
  obtain rfl := Option.some.inj (hwork.symm.trans hfound)
  obtain ⟨checked, hcheck, -⟩ := commitLocked_ok hcommit
  obtain ⟨rfl, -⟩ := commitCheck_planned h hwork hplan hcheck
  exact ⟨hplan, hcheck⟩

theorem System.Places.commits {impl : Impl} {work : WorkRecord} {binding : AssignmentBinding}
    (hplaces : system.Places label impl work binding) (hvalid : system.Valid) : system.Commits label impl work binding := by
  cases hplaces with
  | schedule hcall hcheck => exact .schedule hcall hcheck
  | @batch _ _ state _ _ _ hdry hcommits hwork =>
    have hconsistent : Consistent state.impl := (hcommits.visits.healthy hvalid.healthy).consistent
    obtain ⟨hplan, hcheck⟩ := hcommits.takes.check hconsistent hwork
    exact .batch hcommits.visits hwork hplan hdry hcheck

/-- The movements of authority without commits. -/
abbrev Gate.sealed (now : UInt64) : Gate := Gate.committing now fun _ _ => False

theorem Quiet.pass {impl : Impl} (id : WorkId) : Quiet impl (impl.modifyWork id passOver) :=
  Quiet.modifyWork (f := passOver) (fun _ => rfl) (fun _ => rfl) (fun _ => rfl) fun _ => rfl

theorem Quiet.settleRounds {impl : Impl} (id : WorkId) :
    Quiet impl (impl.modifyWork id fun record => { record with bypassCount := 0, starvationRounds := 0 }) :=
  Quiet.modifyWork (f := fun record => { record with bypassCount := 0, starvationRounds := 0 }) (fun _ => rfl)
    (fun _ => rfl) (fun _ => rfl) fun _ => rfl

/-- Without room left, an item of a batch is at most passed over. -/
theorem batchItem_full (ctx : Context) (first : Bool) {state : BatchState} (id : WorkId)
    (hfull : request.maxAssignments.toNat ≤ state.assigned) :
    (batchItem ctx request first state id).impl = state.impl ∨
      (batchItem ctx request first state id).impl = state.impl.modifyWork id passOver := by
  unfold batchItem
  cases state.impl.work[id]? with
  | none => exact .inl rfl
  | some work =>
    simp only [if_pos hfull]
    split
    · exact .inr rfl
    · exact .inl rfl

/-- The ledger after an item of a batch that is committed. -/
theorem BatchTakes.ledger {ctx : Context} (first : Bool) {state : BatchState} {id : WorkId} {work : WorkRecord}
    {binding : AssignmentBinding} (htakes : BatchTakes ctx request state id binding) (hdry : request.dryRun = false)
    (h : Consistent state.impl) (hwork : state.impl.work[id]? = some work) :
    (batchItem ctx request first state id).impl.ledger = state.impl.ledger.commit work.entry binding := by
  obtain ⟨hplan, hcheck⟩ := htakes.check h hwork
  have hbound := (commitCheck_planned h hwork hplan hcheck).2
  have hcommit : commitLocked ctx state.impl work.request.id work.request.generation binding =
      .ok (commitApply state.impl work.request.id work binding) := by
    unfold commitLocked
    rw [hcheck]
  have hform : (batchItem ctx request first state id).impl =
      (commitApply state.impl work.request.id work binding).modifyWork id
        fun record => { record with bypassCount := 0, starvationRounds := 0 } := by
    unfold batchItem
    simp only [hwork, if_neg (Nat.not_le.mpr htakes.room), hplan, hdry, Bool.false_eq_true, if_false, hcommit]
  rw [← hbound] at hcheck hform
  obtain ⟨hconsistent, hledger⟩ := commitApply_spec h hcheck
  rw [hform, ← hledger]
  exact (Quiet.settleRounds id hconsistent).2

/-- An item of a batch leaves the ledger alone, or commits the plan made for it. -/
theorem ledger_batchItem {ctx : Context} (first : Bool) {state : BatchState} (id : WorkId) (h : Consistent state.impl) :
    (batchItem ctx request first state id).impl.ledger = state.impl.ledger ∨
      ∃ work binding, request.dryRun = false ∧ state.impl.work[id]? = some work ∧ BatchTakes ctx request state id binding := by
  by_cases hfull : request.maxAssignments.toNat ≤ state.assigned
  · left
    rcases batchItem_full ctx first id hfull with hsame | hpassed
    · rw [hsame]
    · rw [hpassed]
      exact (Quiet.pass id h).2
  rcases batchItem_cases ctx request first state id with
    hsame | hpassed | ⟨work, found, binding, hwork, hplan, hdry, hcheck, -⟩
  · left
    rw [hsame]
  · left
    rw [hpassed]
    exact (Quiet.pass id h).2
  · right
    have hcommit : commitLocked ctx state.impl work.request.id work.request.generation binding =
        .ok (commitApply state.impl work.request.id found binding) := by
      unfold commitLocked
      rw [hcheck]
    exact ⟨work, binding, hdry, hwork, Nat.lt_of_not_le hfull, work, _, hwork, hplan, hcommit⟩

/-- What a batch commits, and what every property of the ledger that its commits keep does meanwhile. -/
theorem scheduleBatch_ledger (hvalid : system.Valid)
    (hcommit : ∀ impl work binding, system.Places (.run (.scheduleBatch request)) impl work binding → motive impl.ledger →
      motive (impl.ledger.commit work.entry binding))
    (h : motive system.impl.ledger) : motive (scheduleBatch system.context system.impl request).2.ledger := by
  unfold scheduleBatch
  split
  · exact h
  · next hopen =>
    rw [not_or, not_not, not_not] at hopen
    simp only
    split
    · exact h
    · next hexamines =>
      refine batchPasses_visits (motive := fun state => motive state.impl.ledger) (batchPassLimit system.impl request)
        (fun first state item hitem hstate => ?_) (fun _ _ hstate => hstate) h
      have hvisits : system.Visits request first state item := ⟨hopen.1, hopen.2, hitem⟩
      have hconsistent : Consistent state.impl := (hvisits.healthy hvalid.healthy).consistent
      rcases ledger_batchItem first item hconsistent with hsame | ⟨work, binding, hdry, hwork, htakes⟩
      · rw [hsame]
        exact hstate
      · rw [htakes.ledger first hdry hconsistent hwork]
        exact hcommit state.impl work binding (.batch hdry ⟨Nat.le_of_not_lt hexamines, hvisits, htakes⟩ hwork) hstate

/-- The ledger after the second section of a `schedule` call whose plan passes the check. -/
theorem ledger_scheduleCommit {position : Nat} {plan : Plan} {work : WorkRecord} (hvalid : system.Valid)
    (hcall : system.calls[position]? = some (.schedule plan))
    (hcheck : commitCheck system.context system.impl plan.work plan.generation plan.binding = .ok work) :
    (finishCall system.context system.impl (.schedule plan)).2.ledger = system.impl.ledger.commit work.entry plan.binding := by
  have hbound : plan.binding.work = plan.work := hvalid.calls _ (List.mem_of_getElem? hcall)
  have hcommit : commitLocked system.context system.impl plan.work plan.generation plan.binding =
      .ok (commitApply system.impl plan.work work plan.binding) := by
    unfold commitLocked
    rw [hcheck]
  have hform : (finishCall system.context system.impl (.schedule plan)).2 =
      commitApply system.impl plan.work work plan.binding := by
    simp only [finishCall, scheduleCommit, hcommit]
    split <;> rfl
  rw [hform]
  rw [← hbound] at hcheck ⊢
  exact (commitApply_spec hvalid.healthy.consistent hcheck).2

/-- The second section of a `schedule` call leaves the ledger alone, or commits the plan in flight. -/
theorem scheduleCommit_ledger {position : Nat} {plan : Plan} (hvalid : system.Valid)
    (hcall : system.calls[position]? = some (.schedule plan)) :
    (finishCall system.context system.impl (.schedule plan)).2.ledger = system.impl.ledger ∨
      ∃ work, system.Places (.finish position) system.impl work plan.binding ∧
        (finishCall system.context system.impl (.schedule plan)).2.ledger =
          system.impl.ledger.commit work.entry plan.binding := by
  cases hcheck : commitCheck system.context system.impl plan.work plan.generation plan.binding with
  | error rejection =>
    left
    simp only [finishCall, scheduleCommit, commitLocked, hcheck]
    rfl
  | ok work =>
    right
    exact ⟨work, .schedule hcall hcheck, ledger_scheduleCommit hvalid hcall hcheck⟩

/-- What the movements of authority without commits keep, the commits of the step, a recovery of a saved file, and what a
fresh ledger has, a step keeps. -/
theorem System.step_ledger (hvalid : system.Valid) (hstep : system.step label = some (reply, after))
    (hempty : ∀ ledger : Ledger, (∀ id, ledger.assignments id = none) → motive ledger)
    (hmove : ∀ ledger ledger', Sound ledger → Move (Gate.sealed system.now) ledger ledger' → motive ledger → motive ledger')
    (hcommit : ∀ impl work binding, system.Places label impl work binding → motive impl.ledger →
      motive (impl.ledger.commit work.entry binding))
    (hrecover : ∀ file ∈ system.saved, motive (file.ledger.recover system.impl.ledger))
    (h : motive system.impl.ledger) : motive after.impl.ledger := by
  by_cases hbatch : ∃ request, label = .run (.scheduleBatch request)
  · obtain ⟨request, rfl⟩ := hbatch
    obtain ⟨-, rfl⟩ := Option.some.inj hstep
    exact scheduleBatch_ledger hvalid hcommit h
  by_cases hfinish : ∃ plan, system.Finishes label plan
  · obtain ⟨plan, position, rfl, hcall⟩ := hfinish
    have hform := hstep
    simp only [System.step, hcall] at hform
    obtain ⟨-, rfl⟩ := Prod.mk.inj (Option.some.inj hform)
    rcases scheduleCommit_ledger hvalid hcall with hsame | ⟨work, hplaces, hledger⟩
    · exact hsame ▸ h
    · exact hledger ▸ hcommit system.impl work plan.binding hplaces h
  have hchange : Change (fun _ _ => False) system after label :=
    System.step_change hvalid hstep (fun hlabel => absurd hlabel hbatch) fun plan _ hplan _ => hfinish ⟨plan, hplan⟩
  cases hchange with
  | moves _ hmoves =>
    exact (Runs.keeps (motive := fun ledger => Sound ledger ∧ motive ledger)
      (fun ledger ledger' hmoved hinv => ⟨hmoved.sound hinv.1, hmove ledger ledger' hinv.1 hmoved hinv.2⟩) hmoves
      ⟨hvalid.healthy.sound, h⟩).2
  | recovers position file _ hfile _ himpl _ =>
    have hmem := List.mem_of_getElem? hfile
    rw [himpl, (restore_image system.impl (hvalid.saved file hmem).consistent).2]
    exact hrecover file hmem
  | constructs options generatedId _ himpl _ => exact hempty after.impl.ledger (construct_spec himpl).2.2

end Ledgers

/-! ### Replicas -/

section Replicas
variable {ledger ledger' : Ledger} {gate : Gate}

/-- The active assignments that hold one replica index of a work item. -/
def Ledger.replicas (ledger : Ledger) (work : WorkId) (index : UInt32) : Set AssignmentId :=
  ledger.active fun record => record.binding.work = work ∧ record.binding.replicaIndex = index

/-- The active assignments of a parallel work hold replica indexes below its fan-out, and no two of them the same one. -/
def Ledger.ReplicasKept (ledger : Ledger) : Prop :=
  ∀ work entry, ledger.works work = some entry → entry.request.mode = .parallel → ∀ index,
    (ledger.replicas work index).Subsingleton ∧
      ((ledger.replicas work index).Nonempty → index < entry.request.requirements.maxParallel)

/-- A binding for a parallel work, stored anew, takes a replica index below the fan-out that is not held already. -/
def Ledger.TakesFree (ledger : Ledger) (entry : WorkEntry) (binding : AssignmentBinding) : Prop :=
  entry.request.mode = .parallel → ledger.assignments binding.id = none →
    binding.replicaIndex < entry.request.requirements.maxParallel ∧ ledger.replicas binding.work binding.replicaIndex = ∅

theorem leaseBlind_replica (work : WorkId) (index : UInt32) :
    LeaseBlind fun record => record.binding.work = work ∧ record.binding.replicaIndex = index := by
  rintro before after hbinding h
  rwa [hbinding] at h

theorem Ledger.replicas_subset (ledger : Ledger) (work : WorkId) (index : UInt32) :
    ledger.replicas work index ⊆ ledger.activeFor work :=
  fun _ ⟨record, hrecord, hactive, hwork, _⟩ => ⟨record, hrecord, hactive, hwork⟩

theorem Ledger.ReplicasKept.of_empty (h : ∀ id, ledger.assignments id = none) : ledger.ReplicasKept := by
  intro work entry _ _ index
  have hnone : ∀ id, id ∉ ledger.replicas work index := by
    rintro id ⟨record, hrecord, -⟩
    rw [h id] at hrecord
    cases hrecord
  exact ⟨fun id hid => (hnone id hid).elim, fun ⟨id, hid⟩ => (hnone id hid).elim⟩

/-- Replicas stay apart when nothing becomes active. -/
theorem Ledger.ReplicasKept.backed (h : ledger.ReplicasKept) (hbacked : ledger.Backed ledger')
    (hworks : ledger.Succeeds ledger') : ledger'.ReplicasKept := by
  intro work entry' hentry' hmode index
  have hsub : ledger'.replicas work index ⊆ ledger.replicas work index := hbacked.active (leaseBlind_replica work index)
  rcases hworks work entry' hentry' with ⟨entry, hentry, hrequest⟩ | ⟨-, hidle⟩
  · rw [hrequest] at hmode ⊢
    obtain ⟨honce, hbelow⟩ := h work entry hentry hmode index
    exact ⟨honce.anti hsub, fun hheld => hbelow (hheld.mono hsub)⟩
  · have hnone : ledger'.replicas work index = ∅ :=
      Set.subset_empty_iff.mp (hidle ▸ hsub.trans (ledger.replicas_subset work index))
    rw [hnone]
    exact ⟨Set.subsingleton_empty, fun hheld => absurd hheld Set.not_nonempty_empty⟩

/-- A commit under an id that is taken activates nothing. -/
theorem Ledger.active_commit_taken {entry : WorkEntry} {binding : AssignmentBinding} {p : AssignmentRecord → Prop}
    (htaken : ledger.assignments binding.id ≠ none) : (ledger.commit entry binding).active p = ledger.active p := by
  obtain ⟨stored, hstored⟩ := Option.ne_none_iff_exists'.mp htaken
  have hassignments : (ledger.commit entry binding).assignments = ledger.assignments := by
    funext id
    change (if id = binding.id then some ((ledger.assignments id).getD binding.record) else ledger.assignments id) = _
    split
    · next hid =>
      rw [hid, hstored]
      rfl
    · rfl
  unfold Ledger.active
  rw [hassignments]

/-- Replicas stay apart when a commit takes a free index. -/
theorem Ledger.ReplicasKept.commit {entry : WorkEntry} {binding : AssignmentBinding} (h : ledger.ReplicasKept)
    (hwork : ledger.works binding.work = some entry) (hfree : ledger.TakesFree entry binding) :
    (ledger.commit entry binding).ReplicasKept := by
  intro work entry' hentry' hmode index
  obtain ⟨old, hold, hrequest⟩ := ledger.commit_request hwork hentry'
  rw [hrequest] at hmode ⊢
  obtain ⟨honce, hbelow⟩ := h work old hold hmode index
  by_cases htaken : ledger.assignments binding.id = none
  · obtain ⟨hgrows, hsame⟩ := ledger.active_commit entry binding fun record =>
      record.binding.work = work ∧ record.binding.replicaIndex = index
    by_cases hbound : binding.work = work ∧ binding.replicaIndex = index
    · -- the new replica is the only one that holds the index
      obtain ⟨rfl, rfl⟩ := hbound
      obtain rfl : entry = old := Option.some.inj (hwork.symm.trans hold)
      obtain ⟨hlt, hnone⟩ := hfree hmode htaken
      have hsub : (ledger.commit entry binding).replicas binding.work binding.replicaIndex ⊆ {binding.id} := by
        intro id hid
        rcases hgrows hid with rfl | hheld
        · exact Set.mem_singleton _
        · exact (Set.eq_empty_iff_forall_notMem.mp hnone id hheld).elim
      exact ⟨Set.subsingleton_singleton.anti hsub, fun _ => hlt⟩
    · have hsub := hsame hbound
      exact ⟨honce.anti hsub, fun hheld => hbelow (hheld.mono hsub)⟩
  · have heq : (ledger.commit entry binding).replicas work index = ledger.replicas work index :=
      Ledger.active_commit_taken htaken
    rw [heq]
    exact ⟨honce, hbelow⟩

/-- Nothing stored is lost, and every work item keeps its request. -/
structure Ledger.Within (ledger ledger' : Ledger) : Prop where
  assignments : ∀ id record, ledger.assignments id = some record → ledger'.assignments id = some record
  works : ∀ work entry, ledger.works work = some entry →
    ∃ entry', ledger'.works work = some entry' ∧ entry'.request = entry.request

theorem Ledger.Within.refl (ledger : Ledger) : ledger.Within ledger :=
  ⟨fun _ _ hrecord => hrecord, fun _ entry hentry => ⟨entry, hentry, rfl⟩⟩

theorem Ledger.Within.trans {third : Ledger} (h : ledger.Within ledger') (h' : ledger'.Within third) : ledger.Within third := by
  refine ⟨fun id record hrecord => h'.assignments id record (h.assignments id record hrecord), fun work entry hentry => ?_⟩
  obtain ⟨entry', hentry', hrequest⟩ := h.works work entry hentry
  obtain ⟨last, hlast, hrequest'⟩ := h'.works work entry' hentry'
  exact ⟨last, hlast, hrequest'.trans hrequest⟩

theorem Ledger.within_commit {entry : WorkEntry} {binding : AssignmentBinding} (hwork : ledger.works binding.work = some entry) :
    ledger.Within (ledger.commit entry binding) := by
  constructor
  · intro id record hrecord
    change (if id = binding.id then some ((ledger.assignments id).getD binding.record) else ledger.assignments id) = _
    rw [hrecord]
    split <;> rfl
  · intro work old hold
    by_cases hsame : work = binding.work
    · subst hsame
      obtain rfl : entry = old := Option.some.inj (hwork.symm.trans hold)
      exact ⟨{ entry with lastGeneration := binding.generation }, by simp [Ledger.commit, Ledger.setWork], rfl⟩
    · exact ⟨old, by simpa [Ledger.commit, Ledger.setWork, Function.update_of_ne hsame] using hold, rfl⟩

theorem Ledger.Within.replicas (h : ledger.Within ledger') (work : WorkId) (index : UInt32) :
    ledger.replicas work index ⊆ ledger'.replicas work index :=
  fun id ⟨record, hrecord, hheld⟩ => ⟨record, h.assignments id record hrecord, hheld⟩

/-- Replicas that are apart later were apart before. -/
theorem Ledger.ReplicasKept.of_within (h : ledger'.ReplicasKept) (hwithin : ledger.Within ledger') : ledger.ReplicasKept := by
  intro work entry hentry hmode index
  obtain ⟨entry', hentry', hrequest⟩ := hwithin.works work entry hentry
  rw [← hrequest] at hmode ⊢
  obtain ⟨honce, hbelow⟩ := h work entry' hentry' hmode index
  have hsub := hwithin.replicas work index
  exact ⟨honce.anti hsub, fun hheld => hbelow (hheld.mono hsub)⟩

/-- If replicas are apart after a commit, it took a free index. -/
theorem Ledger.ReplicasKept.takesFree {entry : WorkEntry} {binding : AssignmentBinding}
    (h : (ledger.commit entry binding).ReplicasKept) (hwork : ledger.works binding.work = some entry) :
    ledger.TakesFree entry binding := by
  intro hmode hnone
  have hwithin := Ledger.within_commit hwork
  obtain ⟨entry', hentry', hrequest⟩ := hwithin.works binding.work entry hwork
  rw [← hrequest] at hmode ⊢
  obtain ⟨honce, hbelow⟩ := h binding.work entry' hentry' hmode binding.replicaIndex
  have hnew : binding.id ∈ (ledger.commit entry binding).replicas binding.work binding.replicaIndex := by
    refine ⟨binding.record, ?_, rfl, rfl, rfl⟩
    simp [Ledger.commit, Ledger.setWork, hnone]
  refine ⟨hbelow ⟨_, hnew⟩, Set.eq_empty_of_forall_notMem fun id hid => ?_⟩
  obtain rfl : id = binding.id := honce (hwithin.replicas _ _ hid) hnew
  obtain ⟨record, hrecord, -⟩ := hid
  rw [hnone] at hrecord
  cases hrecord

end Replicas

/-! ### Replicas over runs -/

section Steps
variable {system after : System} {label : Label} {reply : Reply}

/-- Every new replica that the step commits takes an index below the fan-out of its work which no active assignment of that
work holds. -/
def System.ReplicaFits (system : System) (label : Label) : Prop :=
  ∀ impl work binding, system.Places label impl work binding → impl.ledger.TakesFree work.entry binding

/-- A commit finds its work item in the ledger. -/
theorem System.Commits.entry {impl : Impl} {work : WorkRecord} {binding : AssignmentBinding}
    (hcommits : system.Commits label impl work binding) (hvalid : system.Valid) :
    impl.ledger.works binding.work = some work.entry := by
  obtain ⟨hhealthy, generation, hcheck⟩ := hcommits.checked hvalid
  exact (commits_of_check hhealthy.consistent hcheck).2.work

/-- A step whose new replicas find their indexes free keeps the replicas apart. -/
theorem System.step_replicasKept (hvalid : system.Valid) (hstep : system.step label = some (reply, after))
    (hfits : system.ReplicaFits label) (hsaved : ∀ file ∈ system.saved, file.ledger.ReplicasKept)
    (h : system.impl.ledger.ReplicasKept) : after.impl.ledger.ReplicasKept := by
  refine System.step_ledger (motive := Ledger.ReplicasKept) hvalid hstep (fun _ => Ledger.ReplicasKept.of_empty)
    (fun ledger ledger' hsound hmove hkept => ?_) (fun impl work binding hplaces hkept => ?_) (fun file hfile => ?_) h
  · rcases hmove.backed with hbacked | ⟨_, _, _, hnever, _⟩
    · exact hkept.backed hbacked (hmove.succeeds hsound)
    · exact hnever.elim
  · exact hkept.commit ((hplaces.commits hvalid).entry hvalid) (hfits impl work binding hplaces)
  · exact (hsaved file hfile).backed (file.ledger.backed_recover system.impl.ledger)
      (file.ledger.succeeds_recover system.impl.ledger)

/-- An item of a batch loses nothing. -/
theorem ledger_batchItem_within {ctx : Context} {request : ScheduleRequest} (first : Bool) {state : BatchState} (id : WorkId)
    (h : Consistent state.impl) : state.impl.ledger.Within (batchItem ctx request first state id).impl.ledger := by
  rcases ledger_batchItem first id h with hsame | ⟨work, binding, hdry, hwork, htakes⟩
  · rw [hsame]
    exact .refl _
  · rw [htakes.ledger first hdry h hwork]
    obtain ⟨hplan, hcheck⟩ := htakes.check h hwork
    rw [← (commitCheck_planned h hwork hplan hcheck).2] at hcheck
    exact Ledger.within_commit (commits_of_check h hcheck).2.work

/-- Everything a commit of a step leaves in the ledger is there at the end of the step. -/
theorem System.Places.within {impl : Impl} {work : WorkRecord} {binding : AssignmentBinding}
    (hplaces : system.Places label impl work binding) (hvalid : system.Valid)
    (hstep : system.step label = some (reply, after)) :
    (impl.ledger.commit work.entry binding).Within after.impl.ledger := by
  cases hplaces with
  | @schedule position plan _ hcall hcheck =>
    simp only [System.step, hcall] at hstep
    obtain ⟨-, rfl⟩ := Prod.mk.inj (Option.some.inj hstep)
    have hledger := ledger_scheduleCommit hvalid hcall hcheck
    change Ledger.Within _ (finishCall system.context system.impl (.schedule plan)).2.ledger
    rw [hledger]
    exact .refl _
  | @batch request first state id _ _ hdry hcommits hwork =>
    obtain ⟨-, rfl⟩ := Option.some.inj hstep
    have hstate : Healthy system.context.now state.impl := hcommits.visits.healthy hvalid.healthy
    have hitem := hcommits.takes.ledger first hdry hstate.consistent hwork
    change Ledger.Within _ (scheduleBatch system.context system.impl request).2.ledger
    unfold scheduleBatch
    have hopen : ¬(¬system.impl.running ∨ ¬system.impl.admissionOpen) := by
      simp [hcommits.visits.running, hcommits.visits.admission]
    rw [if_neg hopen]
    simp only [if_neg (Nat.not_lt.mpr hcommits.examines)]
    -- the items after the commit lose nothing
    refine (hcommits.visits.visits.reaches (motive := fun found => Healthy system.context.now found.impl ∧
      (state.impl.ledger.commit work.entry binding).Within found.impl.ledger) (fun again found item _ hfound => ?_)
      (fun _ _ hfound => hfound) ?_).2
    · exact ⟨batchItem_healthy hfound.1, hfound.2.trans (ledger_batchItem_within again item hfound.1.consistent)⟩
    · rw [hitem]
      exact ⟨batchItem_healthy hstate, .refl _⟩

/-- A plan numbers a replica by the count of the active assignments of its work. -/
theorem planLocked_replicaIndex {ctx : Context} {impl : Impl} {id : WorkId} {work : WorkRecord} {binding : AssignmentBinding}
    (h : Consistent impl) (hwork : impl.work[id]? = some work) (hplan : (planLocked ctx impl work).binding = some binding)
    (hmode : work.request.mode = .parallel) :
    binding.replicaIndex = UInt32.ofNat work.currentAssignments ∧
      (impl.ledger.activeFor id).encard = work.currentAssignments := by
  obtain ⟨-, agentId, agent, -, rfl⟩ := planLocked_binding hplan
  refine ⟨?_, h.current id work (Set.notMem_empty _) hwork⟩
  change (if work.request.mode = .parallel then UInt32.ofNat work.currentAssignments else 0) = _
  rw [if_pos hmode]

/-- In a run whose commits all find the index that their plan counted free, the active replicas of every parallel work hold
distinct indexes below its fan-out. A commit that does not find it free breaks this. The index is the number of active
assignments of the work in the state the plan was made in. -/
theorem replicas_kept_while_free (system : System) :
    (system.ReachableBy System.ReplicaFits → system.impl.ledger.ReplicasKept) ∧
    (∀ label reply after, system.Reachable → system.step label = some (reply, after) →
      ¬system.ReplicaFits label → ¬after.impl.ledger.ReplicasKept) ∧
    ∀ (id : WorkId) work binding, system.Reachable → system.impl.work[id]? = some work →
      (planLocked system.context system.impl work).binding = some binding → work.request.mode = .parallel →
        binding.replicaIndex = UInt32.ofNat work.currentAssignments ∧
          (system.impl.ledger.activeFor id).encard = work.currentAssignments := by
  refine ⟨fun hreach => ?_, fun label reply after hreach hstep hnot hkept => ?_, ?_⟩
  · let invariant (system : System) : Prop :=
      system.impl.ledger.ReplicasKept ∧ ∀ file ∈ system.saved, file.ledger.ReplicasKept
    have hkept : invariant system := by
      refine hreach.keeps (motive := invariant) (fun start hstart => ?_) fun s s' label reply hvalid hfits hstep hinv => ?_
      · obtain ⟨options, generatedId, now, hstart⟩ := hstart
        obtain ⟨impl, hconstruct, rfl⟩ := Option.map_eq_some_iff.mp hstart
        exact ⟨.of_empty (construct_spec hconstruct).2.2, fun _ hfile => (List.not_mem_nil hfile).elim⟩
      · refine ⟨System.step_replicasKept hvalid hstep hfits hinv.2 hinv.1, fun file hfile => ?_⟩
        rcases (System.step_frame hstep).saved file hfile with hold | rfl
        · exact hinv.2 file hold
        · exact hinv.1
    exact hkept.1
  · apply hnot
    intro impl work binding hplaces
    have hvalid := hreach.valid
    have hcommitted := hkept.of_within (hplaces.within hvalid hstep)
    exact hcommitted.takesFree ((hplaces.commits hvalid).entry hvalid)
  · intro id work binding hreach hwork hplan hmode
    exact planLocked_replicaIndex hreach.valid.healthy.consistent hwork hplan hmode

end Steps

/-! ### A replica that closes out of order -/

/-- No batch runs, and the plan in flight that is finished counted an index that is free. -/
def Sample.PlacesFreely (system : System) : Label → Bool
  | .run (.scheduleBatch _) => false
  | .finish position =>
    match (system.calls[position]? : Option Call) with
    | some (.schedule plan) =>
      (system.impl.work[plan.work]?).all (fun work =>
        plan.binding.replicaIndex < work.request.requirements.maxParallel) &&
        system.impl.assignments.values.all fun record =>
          !(record.state.isActive && record.binding.work = plan.binding.work &&
            record.binding.replicaIndex = plan.binding.replicaIndex)
    | _ => true
  | _ => true

theorem Sample.PlacesFreely.replicaFits {system : System} {label : Label} (h : PlacesFreely system label) :
    system.ReplicaFits label := by
  intro impl work binding hplaces _ _
  cases hplaces with
  | batch => cases h
  | @schedule position plan _ hcall hcheck =>
    have hwork := (commitCheck_ok.mp hcheck).2.1
    simp only [PlacesFreely, hcall, hwork, Option.all_some, Bool.and_eq_true, decide_eq_true_eq, List.all_eq_true] at h
    obtain ⟨hlt, hnone⟩ := h
    refine ⟨hlt, Set.eq_empty_of_forall_notMem ?_⟩
    rintro id ⟨record, hrecord, hactive, hbound, hindex⟩
    have hheld := hnone record (mem_values.mpr ⟨id, hrecord⟩)
    simp [hactive, hbound, hindex] at hheld

/-- Both slots of the work are assigned, the replica with an index is released, and its slot is assigned again. -/
def Sample.replaced (allowed : System → Label → Prop) [∀ system label, Decidable (allowed system label)] (index : UInt32) :
    Option System := do
  let filled ← run allowed (enlist ++ submit parallelWork ++ schedule ++ schedule)
  let record ← filled.impl.assignments.values.find? fun record => record.binding.replicaIndex = index
  filled.perform allowed (.run (.release record.binding.id record.binding.generation boot "") :: schedule)

theorem Sample.replaced_reaches {allowed : System → Label → Prop} [∀ system label, Decidable (allowed system label)]
    {index : UInt32} {system : System} (h : replaced allowed index = some system) : system.ReachableBy allowed := by
  simp only [replaced, bind, Option.bind_eq_some_iff] at h
  obtain ⟨filled, hfilled, record, -, hperform⟩ := h
  exact (run_reaches hfilled).trans (System.perform_runs hperform)

/-- The replica indexes that the active assignments of work 5 hold. -/
def Sample.indexes (system : System) : List UInt32 :=
  (system.impl.assignments.values.filter fun record => record.state.isActive && record.binding.work = 5).map fun record =>
    record.binding.replicaIndex

set_option maxRecDepth 100000 in
/-- The last replica is released and assigned again. -/
theorem replicas_kept_while_free_sample : ∃ system, Sample.replaced (fun system label => Sample.PlacesFreely system label) 1 = some system ∧
    (Sample.indexes system).length = 2 ∧ system.impl.ledger.ReplicasKept := by
  have hview : (Sample.replaced (fun system label => Sample.PlacesFreely system label) 1).map (fun system =>
      (Sample.indexes system).length) = some 2 := by decide +kernel
  obtain ⟨system, hsystem, hlength⟩ := Option.map_eq_some_iff.mp hview
  have hreach : system.ReachableBy System.ReplicaFits :=
    (Sample.replaced_reaches hsystem).mono fun _ _ hfreely => Sample.PlacesFreely.replicaFits hfreely
  exact ⟨system, hsystem, hlength, (replicas_kept_while_free system).1 hreach⟩

/-- Two active assignments of a parallel work hold one index. -/
def Sample.Doubled (system : System) : Bool :=
  (system.impl.work[(5 : WorkId)]?).any (fun work => work.request.mode = .parallel) &&
    system.impl.assignments.values.any fun record => system.impl.assignments.values.any fun other =>
      record.binding.id ≠ other.binding.id && record.state.isActive && other.state.isActive && record.binding.work = 5 &&
        other.binding.work = 5 && record.binding.replicaIndex = other.binding.replicaIndex

set_option maxRecDepth 100000 in
/-- The first replica is released, and the next one takes the index that the second still holds. -/
theorem not_replicas_kept : ¬∀ system : System, system.Reachable → system.impl.ledger.ReplicasKept := by
  intro hkept
  have hview : (Sample.replaced (fun _ _ => True) 0).map Sample.Doubled = some true := by decide +kernel
  obtain ⟨system, hsystem, hdoubled⟩ := Option.map_eq_some_iff.mp hview
  have hreach : system.Reachable := Sample.replaced_reaches hsystem
  simp only [Sample.Doubled, Bool.and_eq_true, List.any_eq_true, mem_values, decide_eq_true_eq] at hdoubled
  obtain ⟨hmode, record, ⟨id, hrecord⟩, other, ⟨id', hother⟩, ⟨⟨⟨⟨hne, hactive⟩, hactive'⟩, hwork⟩, hwork'⟩, hindex⟩ := hdoubled
  obtain ⟨work, hstored, hmode⟩ := (Option.any_eq_true _ _).mp hmode
  have hconsistent := hreach.valid.healthy.consistent
  have hentry : system.impl.ledger.works 5 = some work.entry := by
    simp [Impl.ledger, hstored]
  have honce := (hkept system hreach 5 work.entry hentry (of_decide_eq_true hmode) record.binding.replicaIndex).1
  have hsame : id = id' :=
    honce ⟨record, hrecord, hactive, hwork, rfl⟩ ⟨other, hother, hactive', hwork', hindex.symm⟩
  have hkey : record.binding.id = id := hconsistent.assignmentKey id record hrecord
  have hkey' : other.binding.id = id' := hconsistent.assignmentKey id' other hother
  apply hne
  rw [hkey, hkey', hsame]

end AgentScheduler
