import AgentScheduler.Openings

/-! The lifecycle of work against its assignments: what every change keeps, and the one that leaves it behind. -/
namespace AgentScheduler
open Std KeyedTable Relation

/-! ### The lifecycle that assignments justify -/

/-- The active assignments of a work item that run or wind down. -/
def Ledger.running (ledger : Ledger) (work : WorkId) : Set AssignmentId :=
  ledger.active fun record => record.binding.work = work ∧ (record.state = .executing ∨ record.state = .releasing)

/-- The lifecycle is the one that the active assignments of a work item call for. -/
structure Ledger.Justifies (ledger : Ledger) (work : WorkId) (lifecycle : WorkLifecycle) : Prop where
  admitted : lifecycle = .admitted ↔ ledger.activeFor work = ∅
  executing : lifecycle = .executing ↔ (ledger.running work).Nonempty
  assigned : lifecycle = .assigned ↔ ledger.activeFor work ≠ ∅ ∧ ledger.running work = ∅

/-- Work that is not terminal, some items aside, has the lifecycle that its assignments justify. -/
def Impl.JustifiedBut (impl : Impl) (stale : Set WorkId) : Prop :=
  ∀ (id : WorkId) record, impl.work[id]? = some record → id ∉ stale → record.lifecycle.isTerminal = false →
    impl.ledger.Justifies id record.lifecycle

/-- Work that is not terminal has the lifecycle that its assignments justify. -/
abbrev Impl.Justified (impl : Impl) : Prop := impl.JustifiedBut ∅

section Ledgers
variable {ledger ledger' : Ledger} {work : WorkId} {lifecycle : WorkLifecycle}

theorem Ledger.running_subset (ledger : Ledger) (work : WorkId) : ledger.running work ⊆ ledger.activeFor work :=
  fun _ ⟨record, hrecord, hactive, hwork, _⟩ => ⟨record, hrecord, hactive, hwork⟩

theorem Ledger.Justifies.congr (h : ledger.Justifies work lifecycle)
    (hactive : ledger'.activeFor work = ledger.activeFor work) (hrunning : ledger'.running work = ledger.running work) :
    ledger'.Justifies work lifecycle := by
  constructor
  · rw [hactive]
    exact h.admitted
  · rw [hrunning]
    exact h.executing
  · rw [hactive, hrunning]
    exact h.assigned

/-- Work without active assignments is admitted. -/
theorem Ledger.Justifies.of_idle (h : ledger.activeFor work = ∅) : ledger.Justifies work .admitted := by
  have hnone : ledger.running work = ∅ := Set.subset_empty_iff.mp (h ▸ ledger.running_subset work)
  refine ⟨⟨fun _ => h, fun _ => rfl⟩, ⟨nofun, fun hsome => ?_⟩, ⟨nofun, fun hbusy => (hbusy.1 h).elim⟩⟩
  rw [hnone] at hsome
  exact (Set.not_nonempty_empty hsome).elim

/-- The lifecycle that counting the assignments gives is the one they justify. -/
theorem Ledger.Justifies.of_count {ids : List AssignmentId} {executing : Bool}
    (hids : ∀ id, id ∈ ids ↔ id ∈ ledger.activeFor work) (hexecuting : executing ↔ (ledger.running work).Nonempty)
    (hopen : lifecycle.isTerminal = false) :
    ledger.Justifies work (refreshedWorkLifecycle lifecycle ids.length executing) := by
  have hempty : ids.length = 0 ↔ ledger.activeFor work = ∅ := by
    rw [List.length_eq_zero_iff, List.eq_nil_iff_forall_not_mem, Set.eq_empty_iff_forall_notMem]
    exact forall_congr' fun id => not_congr (hids id)
  unfold refreshedWorkLifecycle
  rw [hopen]
  simp only [Bool.false_eq_true, if_false]
  split
  · next hnone => exact .of_idle (hempty.mp hnone)
  · next hbusy =>
    have hbusy : ledger.activeFor work ≠ ∅ := fun hnone => hbusy (hempty.mpr hnone)
    cases executing with
    | true =>
      have hruns : (ledger.running work).Nonempty := hexecuting.mp rfl
      exact ⟨⟨nofun, fun hnone => (hbusy hnone).elim⟩, ⟨fun _ => hruns, fun _ => rfl⟩,
        ⟨nofun, fun hquiet => (hruns.ne_empty hquiet.2).elim⟩⟩
    | false =>
      have hquiet : ledger.running work = ∅ := by
        rw [← Set.not_nonempty_iff_eq_empty, ← hexecuting]
        exact Bool.false_ne_true
      exact ⟨⟨nofun, fun hnone => (hbusy hnone).elim⟩, ⟨nofun, fun hruns => (hruns.ne_empty hquiet).elim⟩,
        ⟨fun _ => ⟨hbusy, hquiet⟩, fun _ => rfl⟩⟩

end Ledgers

section Refresh
variable {impl impl' : Impl} {stale : Set WorkId} {id work : WorkId} {record : WorkRecord}

theorem isExecutingId_iff {assignment : AssignmentId} : isExecutingId impl assignment ↔
    ∃ record, impl.assignments[assignment]? = some record ∧ (record.state = .executing ∨ record.state = .releasing) := by
  unfold isExecutingId
  cases hrecord : impl.assignments[assignment]? with
  | none => simp
  | some record => simp

/-- A recount finds the lifecycle that the assignments justify, if the index is right about them. -/
theorem WorkRecord.recounted_justified (hkey : record.request.id = id)
    (hindex : ∀ assignment, assignment ∈ indexIds impl.indexAssignmentsByWork id ↔ assignment ∈ impl.ledger.activeFor id)
    (hopen : (record.recounted impl).lifecycle.isTerminal = false) :
    impl.ledger.Justifies id (record.recounted impl).lifecycle := by
  have hbefore : record.lifecycle.isTerminal = false := by
    by_contra hterminal
    rw [Bool.not_eq_false] at hterminal
    have hsame : (record.recounted impl).lifecycle = record.lifecycle := refreshedWorkLifecycle_of_terminal hterminal
    rw [hsame, hterminal] at hopen
    cases hopen
  have hids : ∀ assignment, assignment ∈ (indexIds impl.indexAssignmentsByWork id).filter (isActiveId impl) ↔
      assignment ∈ impl.ledger.activeFor id := by
    intro assignment
    rw [List.mem_filter, hindex]
    constructor
    · exact And.left
    · rintro ⟨stored, hstored, hactive, hwork⟩
      exact ⟨⟨stored, hstored, hactive, hwork⟩, isActiveId_iff.mpr ⟨stored, hstored, hactive⟩⟩
  refine hkey ▸ Ledger.Justifies.of_count (hkey ▸ hids) ?_ hbefore
  rw [List.any_eq_true]
  constructor
  · rintro ⟨assignment, hmem, hruns⟩
    obtain ⟨stored, hstored, hactive, hwork⟩ := (hkey ▸ hids assignment).mp hmem
    obtain ⟨found, hfound, hstate⟩ := isExecutingId_iff.mp hruns
    obtain rfl := Option.some.inj (hfound.symm.trans hstored)
    exact ⟨assignment, found, hstored, hactive, hwork, hstate⟩
  · rintro ⟨assignment, stored, hstored, hactive, hwork, hstate⟩
    exact ⟨assignment, (hkey ▸ hids assignment).mpr ⟨stored, hstored, hactive, hwork⟩,
      isExecutingId_iff.mpr ⟨stored, hstored, hstate⟩⟩

/-- Only assignments and the stored work matter. -/
theorem Impl.JustifiedBut.of_tables (h : impl.JustifiedBut stale) (hwork : impl'.work = impl.work)
    (hassignments : impl'.assignments = impl.assignments) : impl'.JustifiedBut stale := by
  intro id record hrecord hfresh hopen
  have hsame : impl'.ledger.assignments = impl.ledger.assignments := by
    funext assignment
    change impl'.assignments[assignment]? = impl.assignments[assignment]?
    rw [hassignments]
  refine (h id record (hwork ▸ hrecord) hfresh hopen).congr ?_ ?_
  · unfold Ledger.activeFor Ledger.active
    rw [hsame]
  · unfold Ledger.running Ledger.active
    rw [hsame]

theorem Impl.JustifiedBut.setWork (h : impl.JustifiedBut stale)
    (hrecord : record.lifecycle.isTerminal = false → impl.ledger.Justifies id record.lifecycle) :
    (impl.setWork id record).JustifiedBut stale := by
  intro other found hfound hfresh hopen
  have hsame : ∀ {lifecycle}, impl.ledger.Justifies other lifecycle → (impl.setWork id record).ledger.Justifies other lifecycle :=
    fun hjust => hjust.congr rfl rfl
  rw [getElem?_setWork] at hfound
  split at hfound
  · next heq =>
    subst heq
    obtain rfl := Option.some.inj hfound
    exact hsame (hrecord hopen)
  · exact hsame (h other found hfound hfresh hopen)

/-- Counting a work item anew brings its lifecycle up to date. -/
theorem Impl.JustifiedBut.refreshWork (h : impl.JustifiedBut stale)
    (hkey : Keyed (fun record : WorkRecord => record.request.id) impl.work)
    (hindex : ∀ assignment, assignment ∈ indexIds impl.indexAssignmentsByWork work ↔
      assignment ∈ impl.ledger.activeFor work) :
    (refreshWorkAccounting impl work).JustifiedBut (stale \ {work}) := by
  intro other found hfound hfresh hopen
  rw [ledger_refreshWorkAccounting]
  rw [work_refreshWorkAccounting hkey] at hfound
  split at hfound
  · next heq =>
    subst heq
    obtain ⟨before, hbefore, rfl⟩ := Option.map_eq_some_iff.mp hfound
    exact before.recounted_justified (hkey work before hbefore) hindex hopen
  · next hne => exact h other found hfound (fun hmem => hfresh ⟨hmem, Ne.symm hne⟩) hopen

/-- One assignment of a work item changes under its binding: the other work keeps its lifecycle. -/
theorem Impl.JustifiedBut.setAssignment {assignment : AssignmentId} {before after : AssignmentRecord}
    (h : impl.JustifiedBut stale) (hbefore : impl.assignments[assignment]? = some before)
    (hbinding : SameBinding before after) :
    (impl.setAssignment assignment after).JustifiedBut (insert before.binding.work stale) := by
  intro id record hrecord hfresh hopen
  have hne : before.binding.work ≠ id := fun heq => hfresh (heq ▸ Set.mem_insert _ _)
  have hafter : after.binding.work = before.binding.work := by rw [hbinding]
  have hactive : ∀ p : AssignmentRecord → Prop, (∀ record, p record → record.binding.work = id) →
      (impl.setAssignment assignment after).ledger.active p = impl.ledger.active p := by
    intro p hp
    have hsame : ∀ found : AssignmentRecord, found.binding.work = before.binding.work → ¬p found :=
      fun found hwork hpfound => hne (hwork.symm.trans (hp found hpfound))
    rw [ledger_setAssignment]
    ext other
    unfold Ledger.active Ledger.setAssignment
    by_cases hid : other = assignment
    · subst hid
      have hstored : impl.ledger.assignments other = some before := hbefore
      simp [hstored, hsame before rfl, hsame after hafter]
    · simp [Function.update_of_ne hid]
  refine (h id record hrecord (fun hmem => hfresh (Set.mem_insert_of_mem _ hmem)) hopen).congr ?_ ?_
  · exact hactive _ fun _ hp => hp
  · exact hactive _ fun _ hp => hp.1

/-- An assignment changes without starting or ceasing to run. -/
theorem Impl.JustifiedBut.advance {assignment : AssignmentId} {before after : AssignmentRecord}
    (h : impl.JustifiedBut stale) (hbefore : impl.assignments[assignment]? = some before) (hwas : before.state.isActive)
    (hactive : after.state.isActive) (hbinding : SameBinding before after)
    (hruns : after.state = .executing ∨ after.state = .releasing ↔ before.state = .executing ∨ before.state = .releasing) :
    (impl.setAssignment assignment after).JustifiedBut stale := by
  intro id record hrecord hfresh hopen
  have hwork : after.binding.work = before.binding.work := by rw [hbinding]
  refine (h id record hrecord hfresh hopen).congr ?_ ?_
  · rw [ledger_setAssignment]
    exact Ledger.active_setAssignment hbefore hwas hactive (by rw [hwork])
  · rw [ledger_setAssignment]
    exact Ledger.active_setAssignment hbefore hwas hactive (by rw [hwork, hruns])

theorem Impl.JustifiedBut.mono {stale' : Set WorkId} (h : impl.JustifiedBut stale) (hsub : stale ⊆ stale') :
    impl.JustifiedBut stale' :=
  fun id record hrecord hfresh => h id record hrecord fun hmem => hfresh (hsub hmem)

end Refresh

/-! ### What changes keep the lifecycles justified -/

section Deeds
variable {ctx : Context} {impl impl' : Impl} {event : Event} {stale stale' : Set AgentId}

/-- Closing an assignment brings its work up to date. -/
private theorem closeAssignment_justified {id : AssignmentId} {record : AssignmentRecord} {state : AssignmentState}
    {reason : InvalidationReason} {detail : Text} (hconsistent : Consistent impl) (h : impl.Justified)
    (hrecord : impl.assignments[id]? = some record) (hopen : record.state.isTerminal = false) (hterminal : state.isTerminal) :
    (closeAssignment ctx.now impl id state reason detail).Justified := by
  let closed := record.close ctx.now state reason detail
  let base := deindexAssignment (dropLease (impl.setAssignment id closed) record.binding.lease) closed
  let freed := unslotted impl id record closed
  let counted := refreshAgentAccounting freed record.binding.agent
  have hcoherent : Coherent {record.binding.work} base := coherent_unslot hconsistent hrecord hterminal rfl
  have hslots : counted.slots = base.slots := slots_refreshAgentAccounting freed record.binding.agent
  have hassignments := congrArg Impl.assignments hslots
  have hassignments : counted.assignments = base.assignments := hassignments
  have hindexed := congrArg Impl.indexAssignmentsByWork hslots
  have hindexed : counted.indexAssignmentsByWork = base.indexAssignmentsByWork := hindexed
  have hwork : counted.work = impl.work := work_refreshAgentAccounting _ _
  have hset : (impl.setAssignment id closed).JustifiedBut (insert record.binding.work ∅) :=
    Impl.JustifiedBut.setAssignment h hrecord rfl
  have hcounted : counted.JustifiedBut (insert record.binding.work ∅) := hset.of_tables hwork hassignments
  have hindex : ∀ assignment, assignment ∈ indexIds counted.indexAssignmentsByWork record.binding.work ↔
      assignment ∈ counted.ledger.activeFor record.binding.work := by
    intro assignment
    have hsame : counted.ledger.assignments = base.ledger.assignments := by
      funext other
      change counted.assignments[other]? = base.assignments[other]?
      rw [hassignments]
    unfold Ledger.activeFor Ledger.active
    rw [hindexed, hsame]
    exact hcoherent.workIndex record.binding.work assignment
  have hrefreshed := hcounted.refreshWork (hwork ▸ hconsistent.workKey) hindex
  rw [closeAssignment_eq hrecord hopen]
  refine (hrefreshed.mono ?_).of_tables rfl rfl
  rintro work ⟨hmem, hne⟩
  exact (hmem.resolve_right (Set.notMem_empty work) |> hne).elim

/-- Storing a commit brings its work up to date. -/
private theorem commitApply_justified {generation : WorkGeneration} {binding : AssignmentBinding} {work : WorkRecord}
    (hconsistent : Consistent impl) (h : impl.Justified)
    (hcheck : commitCheck ctx impl binding.work generation binding = .ok work) :
    (commitApply impl binding.work work binding).Justified := by
  have hwork := (commitCheck_ok.mp hcheck).2.1
  have hcoherent := coherent_slotted hconsistent hwork
  have hslotted : (slotted impl work binding).JustifiedBut {binding.work} := by
    intro id record hrecord hfresh hopen
    have hne : binding.work ≠ id := fun heq => hfresh heq.symm
    rw [work_slotted, if_neg hne] at hrecord
    refine (h id record hrecord (Set.notMem_empty id) hopen).congr ?_ ?_
    · rw [ledger_slotted]
      exact Ledger.active_commit_of_not hne
    · rw [ledger_slotted]
      exact Ledger.active_commit_of_not fun hboth => hne hboth.1
  have hrefreshed := hslotted.refreshWork hcoherent.workKey (hcoherent.workIndex binding.work)
  rw [Set.sdiff_self] at hrefreshed
  rw [commitApply_eq hwork]
  let refreshed := refreshWorkAccounting (slotted impl work binding) binding.work
  have hassignments := congrArg Impl.assignments (slots_refreshAgentAccounting refreshed binding.agent)
  exact hrefreshed.of_tables (work_refreshAgentAccounting refreshed binding.agent) hassignments

/-- Every deed but the advance of an assignment keeps the lifecycles justified. -/
theorem Deed.justified (hdeed : Deed ctx event (stale, impl) (stale', impl')) (hconsistent : Consistent impl)
    (hadvances : ∀ id, event ≠ .advances id) (h : impl.Justified) : impl'.Justified := by
  cases hdeed with
  | quiet _ hessence _ =>
    have hwork := congrArg Impl.work hessence
    have hassignments := congrArg Impl.assignments hessence
    exact Impl.JustifiedBut.of_tables h hwork hassignments
  | govern _ htables _ =>
    have hwork := congrArg Impl.work htables
    have hassignments := congrArg Impl.assignments htables
    exact Impl.JustifiedBut.of_tables h hwork hassignments
  | close id record state reason detail hrecord hopen hterminal =>
    exact closeAssignment_justified hconsistent h hrecord hopen hterminal
  | fence => refine Impl.JustifiedBut.of_tables h ?_ ?_ <;> (unfold fenceBoot; split <;> rfl)
  | touch | note | enroll | reincarnate => exact Impl.JustifiedBut.of_tables h rfl rfl
  | refresh agent =>
    have hindex : ∀ impl : Impl, (indexStoredAgent impl agent).work = impl.work := by
      intro impl
      unfold indexStoredAgent
      split <;> rfl
    exact Impl.JustifiedBut.of_tables h ((hindex _).trans (work_refreshAgentAccounting _ _)) (rest_refreshAgent impl agent).1
  | recount agent =>
    have hassignments := congrArg Impl.assignments (slots_refreshAgentAccounting impl agent)
    exact Impl.JustifiedBut.of_tables h (work_refreshAgentAccounting impl agent) hassignments
  | accept work record _ hlifecycle _ hunknown =>
    have hset : (impl.setWork work record).Justified :=
      Impl.JustifiedBut.setWork h fun _ => hlifecycle ▸ .of_idle (hconsistent.unknown work hunknown)
    exact Impl.JustifiedBut.of_tables hset rfl rfl
  | reopen work record _ hlifecycle _ hidle =>
    have hdeindexed : (deindexWork impl work).Justified := Impl.JustifiedBut.of_tables h rfl rfl
    have hset : ((deindexWork impl work).setWork work record).Justified :=
      Impl.JustifiedBut.setWork hdeindexed fun _ => hlifecycle ▸ .of_idle hidle
    exact Impl.JustifiedBut.of_tables hset rfl rfl
  | settle work record lifecycle reason _ hterminal =>
    have hset : (impl.setWork work { record with lifecycle := lifecycle, reason := reason }).Justified := by
      refine Impl.JustifiedBut.setWork h fun hopen => ?_
      rw [show lifecycle.isTerminal = false from hopen] at hterminal
      cases hterminal
    exact Impl.JustifiedBut.of_tables hset rfl rfl
  | tally work record record' hrecord hgist =>
    obtain ⟨-, hlifecycle, -⟩ := WorkRecord.read_of_gist hgist
    refine Impl.JustifiedBut.setWork h fun hopen => ?_
    rw [hlifecycle] at hopen ⊢
    exact h work record hrecord (Set.notMem_empty work) hopen
  | refreshWork work =>
    have hrefreshed := Impl.JustifiedBut.refreshWork h hconsistent.workKey (hconsistent.workIndex work)
    rwa [Set.empty_sdiff] at hrefreshed
  | commit generation binding work hcheck => exact commitApply_justified hconsistent h hcheck
  | advance id => exact absurd rfl (hadvances id)

theorem Deeds.justified {allows : Event → Prop} (hdeeds : Deeds ctx allows (stale, impl) (stale', impl'))
    (hconsistent : Consistent impl) (hadvances : ∀ id, ¬allows (.advances id)) (h : impl.Justified) : impl'.Justified :=
  Deeds.keeps (motive := fun scene => scene.2.Justified) hdeeds
    (fun _ _ _ hallows hdeed hconsistent hjust =>
      hdeed.justified hconsistent (fun id hevent => hadvances id (hevent ▸ hallows)) hjust)
    hconsistent h

/-- Counting every work item anew justifies every lifecycle. -/
theorem justified_refreshWorks {uncounted : Set WorkId} (hcoherent : Coherent uncounted impl) (works : List WorkId)
    (h : impl.JustifiedBut {id | id ∈ works}) : (works.foldl refreshWorkAccounting impl).Justified := by
  induction works generalizing impl uncounted with
  | nil => exact h.mono fun id hmem => (List.not_mem_nil hmem).elim
  | cons work works ih =>
    refine ih (hcoherent.refreshWorkAccounting work) ((h.refreshWork hcoherent.workKey (hcoherent.workIndex work)).mono ?_)
    rintro id ⟨hmem, hne⟩
    exact (List.mem_cons.mp hmem).resolve_left hne

theorem justified_restore {file : Impl} (h : Consistent file) : (restore impl (image file)).Justified := by
  let rebuilt := rebuildIndexes (install impl (image file))
  let counted := rebuilt.agents.keys.foldl refreshAgentAccounting rebuilt
  have hcoherent : Coherent Set.univ rebuilt := coherent_install _ h
  have hrefreshed : (counted.work.keys.foldl refreshWorkAccounting counted).Justified := by
    refine justified_refreshWorks (hcoherent.refreshAgents rebuilt.agents.keys).1 _ fun id record hrecord hfresh => ?_
    refine absurd (ExtTreeMap.mem_keys.mpr (ExtTreeMap.mem_iff_isSome_getElem?.mpr ?_)) hfresh
    rw [hrecord]
    rfl
  exact hrefreshed.of_tables rfl rfl

end Deeds

/-! ### Assignments that advance -/

section Advances
variable {ctx : Context} {impl : Impl} {id : AssignmentId} {generation : AssignmentGeneration}

private theorem expire_justified {state : AssignmentState} {reason : InvalidationReason} {detail : Text}
    (hconsistent : Consistent impl) (h : impl.Justified) (hterminal : state.isTerminal) :
    (closeAssignment ctx.now impl id state reason detail).Justified := by
  have hdeeds : Deeds ctx (fun event => ∀ id, event ≠ .advances id) (∅, impl)
      (∅, closeAssignment ctx.now impl id state reason detail) := Deeds.closeAssignment hterminal fun _ _ _ => nofun
  exact hdeeds.justified hconsistent (fun id hallows => hallows id rfl) h

theorem dispatchCommit_justified (h : impl.Justified) : (dispatchCommit ctx impl id generation).2.Justified := by
  unfold dispatchCommit
  cases hcheck : handoffCheck ctx impl id generation with
  | error rejection => exact h
  | ok record =>
    obtain ⟨hrecord, -, hstate, -⟩ := handoffCheck_ok hcheck
    let handed := record.handOff ctx.now impl.policy.assignmentLeaseTtlMs
    have hwas : record.state.isActive := by
      rw [hstate]
      rfl
    have hadvanced : (impl.setAssignment id handed).Justified := by
      refine Impl.JustifiedBut.advance h hrecord hwas rfl rfl ?_
      rw [hstate]
      exact ⟨nofun, nofun⟩
    exact hadvanced.of_tables rfl rfl

private theorem observing_justified {operation : Text} {boot : AgentBootId} {body : AssignmentRecord → Step}
    (h : impl.Justified) (hbody : ∀ record, impl.assignments[id]? = some record → (body record).2.Justified) :
    (observing impl operation id generation boot body).2.Justified := by
  unfold observing
  cases hlookup : lookupAssignment impl id generation boot with
  | error problem => exact h
  | ok record => exact hbody record (lookupAssignment_stored hlookup)

theorem acknowledge_justified {dispatchId : DispatchId} {dispatchGeneration : DispatchGeneration} {boot : AgentBootId}
    (hconsistent : Consistent impl) (h : impl.Justified) :
    (acknowledge ctx.now impl id generation dispatchId dispatchGeneration boot).2.Justified := by
  refine observing_justified h fun record hrecord => ?_
  split
  · exact h
  split
  · exact h
  split
  · exact h
  split
  · exact h
  next hdispatched =>
  split
  · exact expire_justified hconsistent h rfl
  · have hstate : record.state = .dispatched := by simpa using hdispatched
    have hwas : record.state.isActive := by
      rw [hstate]
      rfl
    have hadvanced : (impl.setAssignment id { record with state := .acknowledged, acknowledgedAtMs := ctx.now }).Justified := by
      refine Impl.JustifiedBut.advance h hrecord hwas rfl rfl ?_
      rw [hstate]
      exact ⟨nofun, nofun⟩
    exact hadvanced.of_tables rfl rfl

/-- An assignment that starts to run has its work counted anew. -/
theorem markExecuting_justified {boot : AgentBootId} (hconsistent : Consistent impl) (h : impl.Justified) :
    (markExecuting ctx.now impl id generation boot).2.Justified := by
  refine observing_justified h fun record hrecord => ?_
  split
  · exact h
  split
  · exact h
  next hawaits =>
  split
  · exact expire_justified hconsistent h rfl
  · have hwas : record.state.isActive := by
      cases hstate : record.state <;> simp_all [AssignmentState.isActive]
    let started := impl.setAssignment id { record with state := .executing }
    have hstarted : Consistent started := hconsistent.setAssignment hrecord hwas rfl rfl
    have hset : started.JustifiedBut (insert record.binding.work ∅) := Impl.JustifiedBut.setAssignment h hrecord rfl
    have hrefreshed := hset.refreshWork hstarted.workKey (hstarted.workIndex record.binding.work)
    refine (hrefreshed.mono ?_).of_tables rfl rfl
    rintro work ⟨hmem, hne⟩
    exact (hmem.resolve_right (Set.notMem_empty work) |> hne).elim

end Advances

/-! ### Publications -/

section Publications
variable {now : UInt64} {impl : Impl} {agent : AgentId} {boot : AgentBootId} {profile canonical : CapabilityProfile}

/-- The running assignments of a work item that a publication does not demote. -/
def Ledger.spared (ledger : Ledger) (agent : AgentId) (profile : CapabilityProfile) (work : WorkId) : Set AssignmentId :=
  ledger.active fun record => record.binding.work = work ∧ (record.state = .executing ∨ record.state = .releasing) ∧
    outdatedBy agent profile record = false

theorem work_demoteOutdated (impl : Impl) (agent : AgentId) (profile : CapabilityProfile) :
    (demoteOutdated impl agent profile).work = impl.work := by
  refine List.foldlRecOn (motive := fun acc : Impl => acc.work = impl.work) _ _ rfl fun acc hacc id _ => ?_
  cases acc.assignments[id]? with
  | none => exact hacc
  | some record =>
    simp only
    split
    · exact hacc
    · exact hacc

/-- A publication keeps the stored work, and demotes the outdated assignments of its agent. -/
theorem publishCapabilities_tables (hconsistent : Consistent impl)
    (hcheck : checkCapabilities now impl agent boot profile = .ok (some canonical)) :
    (publishCapabilities now impl agent boot profile).2.work = impl.work ∧
      (publishCapabilities now impl agent boot profile).2.ledger.assignments =
        (impl.ledger.mapAssignments (demoting agent canonical)).assignments := by
  obtain ⟨record, hagent, -⟩ := checkCapabilities_some hcheck
  let publish (record : AgentRecord) : AgentRecord :=
    { record with profile := canonical, capabilityCurrent := true, recovered := false }
  let stored := (deindexAgent impl agent).modifyAgent agent publish
  let demoted := demoteOutdated stored agent canonical
  have hstored : stored = (deindexAgent impl agent).setAgent agent (publish record) := modifyAgent_eq_setAgent hagent
  have hform : (publishCapabilities now impl agent boot profile).2 =
      (indexStoredAgent (refreshAgentAccounting demoted agent) agent).revise := by
    unfold publishCapabilities guarded
    rw [hcheck]
  have hpublished : Consistent stored := by
    rw [hstored]
    exact (hconsistent.of_core (core_deindexAgent impl agent)).setAgent (hconsistent.agentKey agent record hagent)
      (hconsistent.agentBoot agent record hagent)
  have hindexed : ∀ impl : Impl, (indexStoredAgent impl agent).work = impl.work ∧
      (indexStoredAgent impl agent).ledger.assignments = impl.ledger.assignments := by
    intro impl
    unfold indexStoredAgent
    split <;> exact ⟨rfl, rfl⟩
  have hwork : (indexStoredAgent (refreshAgentAccounting demoted agent) agent).work = impl.work :=
    ((hindexed _).1.trans (work_refreshAgentAccounting _ _)).trans (work_demoteOutdated _ _ _)
  have hassignments : (indexStoredAgent (refreshAgentAccounting demoted agent) agent).ledger.assignments =
      (stored.ledger.mapAssignments (demoting agent canonical)).assignments := by
    rw [(hindexed _).2, ledger_refreshAgentAccounting, (demoteOutdated_spec agent canonical hpublished).2]
  rw [hform]
  exact ⟨hwork, hassignments⟩

theorem Ledger.active_demoting {ledger : Ledger} {p q : AssignmentRecord → Prop}
    (hkept : ∀ record, record.state.isActive → outdatedBy agent profile record = false → (p record ↔ q record))
    (hdemoted : ∀ record, outdatedBy agent profile record → (p record.demote ↔ q record)) :
    (ledger.mapAssignments (demoting agent profile)).active p = ledger.active q := by
  have hactive : ∀ record, outdatedBy agent profile record → record.state.isActive := by
    intro record houtdated
    simp only [outdatedBy, Bool.and_eq_true] at houtdated
    exact houtdated.1.2
  ext id
  constructor
  · rintro ⟨after, hafter, hstate, hp⟩
    obtain ⟨record, hrecord, rfl⟩ := Option.map_eq_some_iff.mp hafter
    unfold demoting at hstate hp
    split at hp
    · next houtdated => exact ⟨record, hrecord, hactive record houtdated, (hdemoted record houtdated).mp hp⟩
    · next hfresh =>
      rw [if_neg hfresh] at hstate
      exact ⟨record, hrecord, hstate, (hkept record hstate (by simpa using hfresh)).mp hp⟩
  · rintro ⟨record, hrecord, hstate, hq⟩
    refine ⟨demoting agent profile record, ?_, ?_⟩
    · change (ledger.assignments id).map (demoting agent profile) = _
      rw [hrecord]
      rfl
    · unfold demoting
      split
      · next houtdated => exact ⟨rfl, (hdemoted record houtdated).mpr hq⟩
      · next hfresh => exact ⟨hstate, (hkept record hstate (by simpa using hfresh)).mpr hq⟩

/-- A publication keeps the lifecycles justified exactly when open work that runs keeps a running assignment. -/
theorem publishCapabilities_justified_iff (hconsistent : Consistent impl) (h : impl.Justified)
    (hcheck : checkCapabilities now impl agent boot profile = .ok (some canonical)) :
    (publishCapabilities now impl agent boot profile).2.Justified ↔
      ∀ (id : WorkId) work, impl.work[id]? = some work → work.lifecycle.isTerminal = false →
        (impl.ledger.running id).Nonempty → (impl.ledger.spared agent canonical id).Nonempty := by
  obtain ⟨hwork, hassignments⟩ := publishCapabilities_tables hconsistent hcheck
  let published := (publishCapabilities now impl agent boot profile).2
  have hactive : ∀ id, published.ledger.activeFor id = impl.ledger.activeFor id := by
    intro id
    have hmapped : (impl.ledger.mapAssignments (demoting agent canonical)).activeFor id = impl.ledger.activeFor id :=
      Ledger.active_demoting (fun _ _ _ => Iff.rfl) fun _ _ => Iff.rfl
    rw [← hmapped]
    unfold Ledger.activeFor Ledger.active
    rw [hassignments]
  have hrunning : ∀ id, published.ledger.running id = impl.ledger.spared agent canonical id := by
    intro id
    have hmapped : (impl.ledger.mapAssignments (demoting agent canonical)).running id = impl.ledger.spared agent canonical id := by
      refine Ledger.active_demoting (fun record _ hfresh => ?_) fun record houtdated => ?_
      · exact ⟨fun hruns => ⟨hruns.1, hruns.2, hfresh⟩, fun hruns => ⟨hruns.1, hruns.2.1⟩⟩
      · exact ⟨fun hruns => hruns.2.elim nofun nofun, fun hruns => absurd houtdated (by rw [hruns.2.2]; exact Bool.false_ne_true)⟩
    rw [← hmapped]
    unfold Ledger.running Ledger.active
    rw [hassignments]
  have hspared : ∀ id, impl.ledger.spared agent canonical id ⊆ impl.ledger.running id :=
    fun id _ ⟨record, hrecord, hstate, hruns⟩ => ⟨record, hrecord, hstate, hruns.1, hruns.2.1⟩
  constructor
  · intro hafter id record hrecord hopen hruns
    have hexecuting : record.lifecycle = .executing :=
      (h id record hrecord (Set.notMem_empty id) hopen).executing.mpr hruns
    have hstill := (hafter id record (hwork ▸ hrecord) (Set.notMem_empty id) hopen).executing.mp hexecuting
    rwa [hrunning] at hstill
  · intro hkept id record hrecord _ hopen
    rw [hwork] at hrecord
    have hjust := h id record hrecord (Set.notMem_empty id) hopen
    have hiff : (published.ledger.running id).Nonempty ↔ (impl.ledger.running id).Nonempty := by
      rw [hrunning]
      exact ⟨fun hruns => hruns.mono (hspared id), hkept id record hrecord hopen⟩
    constructor
    · rw [hactive]
      exact hjust.admitted
    · rw [hiff]
      exact hjust.executing
    · rw [hactive, ← Set.not_nonempty_iff_eq_empty, hiff, Set.not_nonempty_iff_eq_empty]
      exact hjust.assigned

end Publications

/-! ### Lifecycles over runs -/

section Steps
variable {system after : System} {label : Label} {reply : Reply}

/-- An accepted publication leaves every work item that is not terminal and runs one of its running assignments. -/
def System.KeepsRunning (system : System) (label : Label) : Prop :=
  ∀ agent boot profile canonical, label = .run (.publishCapabilities agent boot profile) →
    checkCapabilities system.now system.impl agent boot profile = .ok (some canonical) →
    ∀ (id : WorkId) work, system.impl.work[id]? = some work → work.lifecycle.isTerminal = false →
      (system.impl.ledger.running id).Nonempty → (system.impl.ledger.spared agent canonical id).Nonempty

/-- A step keeps the lifecycles justified exactly when no publication stops the last running assignment of open work. -/
theorem System.step_justified_iff (hvalid : system.Valid) (h : system.impl.Justified)
    (hstep : system.step label = some (reply, after)) : after.impl.Justified ↔ system.KeepsRunning label := by
  have hconsistent := hvalid.healthy.consistent
  by_cases hpublish : ∃ agent boot profile, label = .run (.publishCapabilities agent boot profile)
  · obtain ⟨agent, boot, profile, rfl⟩ := hpublish
    obtain ⟨-, rfl⟩ := Prod.mk.inj (Option.some.inj hstep)
    change (publishCapabilities system.now system.impl agent boot profile).2.Justified ↔ _
    cases hcheck : checkCapabilities system.now system.impl agent boot profile with
    | error error =>
      have hsame : (publishCapabilities system.now system.impl agent boot profile).2 = system.impl := by
        unfold publishCapabilities guarded
        rw [hcheck]
      rw [hsame]
      refine iff_of_true h fun _ _ _ canonical hlabel haccepted => ?_
      cases hlabel
      rw [hcheck] at haccepted
      cases haccepted
    | ok published =>
      cases published with
      | none =>
        have hsame : (publishCapabilities system.now system.impl agent boot profile).2 = system.impl := by
          unfold publishCapabilities guarded
          rw [hcheck]
        rw [hsame]
        refine iff_of_true h fun _ _ _ canonical hlabel haccepted => ?_
        cases hlabel
        rw [hcheck] at haccepted
        cases haccepted
      | some canonical =>
        rw [publishCapabilities_justified_iff hconsistent h hcheck]
        constructor
        · intro hkept _ _ _ found hlabel haccepted
          cases hlabel
          rw [hcheck] at haccepted
          obtain rfl := Option.some.inj (Except.ok.inj haccepted)
          exact hkept
        · intro hkept
          exact hkept agent boot profile canonical rfl hcheck
  · refine iff_of_true ?_ fun agent boot profile _ hlabel => absurd ⟨agent, boot, profile, hlabel⟩ hpublish
    rcases System.step_deeds hvalid hstep with ⟨position, file, -, hfile, -, himpl⟩ | ⟨options, generatedId, -, himpl⟩ | hdeeds
    · rw [himpl]
      exact justified_restore (hvalid.saved file (List.mem_of_getElem? hfile)).consistent
    · intro id record hrecord
      have hnone := (construct_spec himpl).2.1 id
      change (after.impl.work[id]?).map WorkRecord.entry = none at hnone
      rw [hrecord] at hnone
      cases hnone
    · by_cases hadvances : ∃ id, system.Causes label (.advances id)
      · obtain ⟨id, hcauses⟩ := hadvances
        cases label with
        | run operation =>
          obtain ⟨-, rfl⟩ := Prod.mk.inj (Option.some.inj hstep)
          cases operation with
          | publishCapabilities agent boot profile => exact absurd ⟨agent, boot, profile, rfl⟩ hpublish
          | acknowledge => exact @acknowledge_justified system.context _ _ _ _ _ _ hconsistent h
          | markExecuting => exact @markExecuting_justified system.context _ _ _ _ hconsistent h
          | _ => exact hcauses.elim
        | finish position =>
          obtain ⟨call, hcall, hcause⟩ := hcauses
          have hcall : system.calls[position]? = some call := hcall
          simp only [System.step, hcall] at hstep
          obtain ⟨-, rfl⟩ := Prod.mk.inj (Option.some.inj hstep)
          cases call with
          | dispatch => exact dispatchCommit_justified h
          | _ => exact hcause.elim
        | _ => exact hcauses.elim
      · refine hdeeds.justified hconsistent (fun id hallows => ?_) h
        rcases hallows with hbook | hcauses
        · exact hbook
        · exact hadvances ⟨id, hcauses⟩

/-- In a run whose publications leave the work that runs one of its running assignments, every work item that is not
terminal has the lifecycle its active assignments justify. In such a state a step breaks this exactly when it is a
publication that does not. -/
theorem lifecycles_justified_while_running (system : System) :
    (system.ReachableBy System.KeepsRunning → system.impl.Justified) ∧
    ∀ label reply after, system.Reachable → system.impl.Justified → system.step label = some (reply, after) →
      (after.impl.Justified ↔ system.KeepsRunning label) := by
  refine ⟨fun hreach => ?_, fun label reply after hreach h hstep => System.step_justified_iff hreach.valid h hstep⟩
  refine hreach.keeps (motive := fun system => system.impl.Justified) (fun start hstart => ?_)
    fun s s' label reply hvalid hkeeps hstep h => (System.step_justified_iff hvalid h hstep).mpr hkeeps
  obtain ⟨options, generatedId, now, hstart⟩ := hstart
  obtain ⟨impl, himpl, rfl⟩ := Option.map_eq_some_iff.mp hstart
  intro id record hrecord
  have hnone := (construct_spec himpl).2.1 id
  change (impl.work[id]?).map WorkRecord.entry = none at hnone
  rw [show impl.work[id]? = some record from hrecord] at hnone
  cases hnone

end Steps

/-! ### A publication under a running assignment -/

/-- No agent publishes while it holds active assignments. -/
def Sample.Undemoting (system : System) : Label → Bool
  | .run (.publishCapabilities agent _ _) =>
    system.impl.assignments.values.all fun record => record.binding.agent ≠ agent || !record.state.isActive
  | _ => true

theorem Sample.Undemoting.keepsRunning {system : System} {label : Label} (h : Undemoting system label) :
    system.KeepsRunning label := by
  rintro agent boot profile canonical rfl _ id work _ _ ⟨assignment, record, hrecord, hactive, hwork, hstate⟩
  simp only [Undemoting, List.all_eq_true, mem_values] at h
  have hother := h record ⟨assignment, hrecord⟩
  refine ⟨assignment, record, hrecord, hactive, hwork, hstate, ?_⟩
  have hagent : record.binding.agent ≠ agent := by simpa [hactive] using hother
  simp [outdatedBy, hagent]

/-- The assignment of a work item is dispatched and runs; then something else happens. -/
def Sample.underway (allowed : System → Label → Prop) [∀ system label, Decidable (allowed system label)] (labels : List Label) :
    Option System := do
  let scheduled ← run allowed (enlist ++ submit exclusiveWork ++ schedule)
  let record ← scheduled.impl.assignments.values.head?
  scheduled.perform allowed ([.begin (.dispatch record.binding.id record.binding.generation), .finish 0,
    .run (.markExecuting record.binding.id record.binding.generation boot)] ++ labels)

theorem Sample.underway_reaches {allowed : System → Label → Prop} [∀ system label, Decidable (allowed system label)]
    {labels : List Label} {system : System} (h : underway allowed labels = some system) : system.ReachableBy allowed := by
  simp only [underway, bind, Option.bind_eq_some_iff] at h
  obtain ⟨scheduled, hscheduled, record, -, hperform⟩ := h
  exact (run_reaches hscheduled).trans (System.perform_runs hperform)

/-- The lifecycle of work 5, and whether some assignment runs. -/
def Sample.progress (system : System) : Option WorkLifecycle × Bool :=
  ((system.impl.work[(5 : WorkId)]?).map WorkRecord.lifecycle, system.impl.assignments.values.any fun record =>
    record.state = .executing || record.state = .releasing)

set_option maxRecDepth 100000 in
/-- Another agent registers and publishes while the work runs. -/
theorem lifecycles_justified_while_running_sample : ∃ system,
    Sample.underway (fun system label => Sample.Undemoting system label)
      [.begin (.registerAgent { Sample.descriptor with id := 2, boot := Sample.peerBoot }), .finish 0,
        .run (.publishCapabilities 2 Sample.peerBoot { Sample.profile with boot := Sample.peerBoot })] = some system ∧
      Sample.progress system = (some .executing, true) ∧ system.impl.Justified := by
  have hview : (Sample.underway (fun system label => Sample.Undemoting system label)
      [.begin (.registerAgent { Sample.descriptor with id := 2, boot := Sample.peerBoot }), .finish 0,
        .run (.publishCapabilities 2 Sample.peerBoot { Sample.profile with boot := Sample.peerBoot })]).map
        Sample.progress = some (some .executing, true) := by decide +kernel
  obtain ⟨system, hsystem, hprogress⟩ := Option.map_eq_some_iff.mp hview
  have hreach : system.ReachableBy System.KeepsRunning :=
    (Sample.underway_reaches hsystem).mono fun _ _ hundemoting => Sample.Undemoting.keepsRunning hundemoting
  exact ⟨system, hsystem, hprogress, (lifecycles_justified_while_running system).1 hreach⟩

set_option maxRecDepth 100000 in
/-- The agent publishes newer evidence while it runs the work: nothing runs any more, and the work still does. -/
theorem not_lifecycles_justified : ¬∀ system : System, system.Reachable → system.impl.Justified := by
  intro hjustified
  have hview : (Sample.underway (fun _ _ => True)
      [.run (.publishCapabilities 1 Sample.boot { Sample.profile with generation := 2 })]).map Sample.progress =
      some (some .executing, false) := by decide +kernel
  obtain ⟨system, hsystem, hprogress⟩ := Option.map_eq_some_iff.mp hview
  have hreach : system.Reachable := Sample.underway_reaches hsystem
  obtain ⟨hlifecycle, hquiet⟩ := Prod.mk.inj hprogress
  obtain ⟨work, hwork, hexecuting⟩ := Option.map_eq_some_iff.mp hlifecycle
  have hjust := hjustified system hreach 5 work hwork (Set.notMem_empty _) (by rw [hexecuting]; rfl)
  obtain ⟨assignment, record, hrecord, -, -, hstate⟩ := hjust.executing.mp hexecuting
  rw [List.any_eq_false] at hquiet
  have hstopped := hquiet record (mem_values.mpr ⟨assignment, hrecord⟩)
  simp only [Bool.or_eq_true, decide_eq_true_eq] at hstopped
  exact hstopped hstate

end AgentScheduler
