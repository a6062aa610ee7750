import AgentScheduler.SchedulingPass

/-! What a batch logs, against what it stores. -/
namespace AgentScheduler
open Std KeyedTable Relation

/-- The assignments that the logged decisions carry. -/
def BatchDecision.logged (batch : BatchDecision) : List AssignmentBinding := batch.decisions.filterMap ScheduleDecision.assignment

theorem logged_append (batch : BatchDecision) (decision : ScheduleDecision) :
    BatchDecision.logged { batch with decisions := batch.decisions ++ [decision] } = batch.logged ++ decision.assignment.toList := by
  simp only [BatchDecision.logged, List.filterMap_append, List.filterMap_cons, List.filterMap_nil]
  cases decision.assignment <;> rfl

theorem planLocked_assignment (ctx : Context) (impl : Impl) (work : WorkRecord) :
    (planLocked ctx impl work).decision.assignment = (planLocked ctx impl work).binding := by
  unfold planLocked
  simp only
  split
  · rfl
  · split
    · rfl
    · split <;> rfl

/-- An item of a batch is committed under a binding. -/
structure BatchTakes (ctx : Context) (request : ScheduleRequest) (state : BatchState) (id : WorkId) (binding : AssignmentBinding) :
    Prop where
  room : state.assigned < request.maxAssignments.toNat
  commits : ∃ work after, state.impl.work[id]? = some work ∧ (planLocked ctx state.impl work).binding = some binding ∧
    commitLocked ctx state.impl work.request.id work.request.generation binding = .ok after

section Items
variable {request : ScheduleRequest} {state : BatchState}

/-- An item of a batch is committed, and logged in the first pass only, or leaves what is stored and logged as it is. -/
theorem batchItem_logs (ctx : Context) (first : Bool) (id : WorkId) (h : Consistent state.impl) (hdry : request.dryRun = false) :
    ((∀ binding, ¬BatchTakes ctx request state id binding) ∧
      (batchItem ctx request first state id).impl.assignments = state.impl.assignments ∧
      (batchItem ctx request first state id).batch.logged = state.batch.logged) ∨
    ∃ binding, BatchTakes ctx request state id binding ∧
      (∀ stored : AssignmentId, (batchItem ctx request first state id).impl.assignments[stored]? =
        if stored = binding.id then some ((state.impl.assignments[stored]?).getD binding.record)
        else state.impl.assignments[stored]?) ∧
      (batchItem ctx request first state id).batch.logged = state.batch.logged ++ if first then [binding] else [] := by
  unfold batchItem
  cases hwork : state.impl.work[id]? with
  | none =>
    refine .inl ⟨fun binding htakes => ?_, rfl, rfl⟩
    obtain ⟨work, -, hstored, -⟩ := htakes.commits
    rw [hwork] at hstored
    cases hstored
  | some work =>
    have htaken : ∀ {binding}, BatchTakes ctx request state id binding → (planLocked ctx state.impl work).binding = some binding ∧
        ∃ after, commitLocked ctx state.impl work.request.id work.request.generation binding = .ok after := by
      intro binding htakes
      obtain ⟨found, after, hfound, hplan, hcommit⟩ := htakes.commits
      obtain rfl := Option.some.inj (hwork.symm.trans hfound)
      exact ⟨hplan, after, hcommit⟩
    have hassignment := planLocked_assignment ctx state.impl work
    simp only
    split
    · next hfull =>
      refine .inl ⟨fun binding htakes => absurd htakes.room (Nat.not_lt.mpr hfull), ?_⟩
      cases first <;> exact ⟨rfl, rfl⟩
    · next hroom =>
      have hroom : state.assigned < request.maxAssignments.toNat := Nat.lt_of_not_le hroom
      cases hplan : (planLocked ctx state.impl work).binding with
      | none =>
        refine .inl ⟨fun binding htakes => ?_, ?_⟩
        · rw [hplan] at htaken
          cases (htaken htakes).1
        · rw [hplan] at hassignment
          have hnothing : ∀ batch : BatchDecision, BatchDecision.logged
              { batch with decisions := batch.decisions ++ [(planLocked ctx state.impl work).decision] } = batch.logged := by
            intro batch
            rw [logged_append, hassignment]
            exact List.append_nil _
          cases first
          · exact ⟨rfl, rfl⟩
          · simp only [if_true]
            split
            · exact ⟨rfl, hnothing _⟩
            · exact ⟨rfl, hnothing _⟩
      | some binding =>
        simp only [hdry, Bool.false_eq_true, if_false]
        cases hcommit : commitLocked ctx state.impl work.request.id work.request.generation binding with
        | error rejection =>
          refine .inl ⟨fun other htakes => ?_, ?_⟩
          · obtain ⟨hother, after, hafter⟩ := htaken htakes
            obtain rfl := Option.some.inj (hplan.symm.trans hother)
            rw [hcommit] at hafter
            cases hafter
          · cases first
            · exact ⟨rfl, rfl⟩
            · refine ⟨rfl, (logged_append _ _).trans ?_⟩
              exact List.append_nil _
        | ok after =>
          refine .inr ⟨binding, ⟨hroom, work, after, hwork, hplan, hcommit⟩, fun stored => ?_, ?_⟩
          · obtain ⟨found, hcheck, rfl⟩ := commitLocked_ok hcommit
            obtain ⟨rfl, hbound⟩ := commitCheck_planned h hwork hplan hcheck
            rw [← hbound] at hcheck ⊢
            exact congrArg (fun ledger => ledger.assignments stored) (commitApply_spec h hcheck).2
          · rw [hplan] at hassignment
            cases first
            · exact (List.append_nil _).symm
            · refine (logged_append _ _).trans ?_
              rw [hassignment]
              rfl

end Items
section Passes
variable {ctx : Context} {request : ScheduleRequest} {candidates : List WorkId} {passes : Nat} {first later : Bool}
  {state found : BatchState} {id : WorkId}

/-- Only the first pass of a batch comes to items as the first one does. -/
theorem BatchVisits.first_of_later (h : BatchVisits ctx request candidates passes first state later found id) : later → first := by
  induction h with
  | item => exact fun hfirst => hfirst
  | later _ _ _ ih =>
    intro hlater
    cases ih hlater

/-- What an item of a batch brings about, and the items after it keep, holds at the end of the batch. -/
theorem BatchVisits.reaches {motive : BatchState → Prop}
    (hvisits : BatchVisits ctx request candidates passes first state later found id)
    (hitem : ∀ (again : Bool) state id, (again → later) → motive state → motive (batchItem ctx request again state id))
    (hprogress : ∀ state progress, motive state → motive { state with progress := progress })
    (h : motive (batchItem ctx request later found id)) : motive (batchPasses ctx request candidates passes first state) := by
  induction hvisits with
  | @item passes first state before after id hroom horder =>
    unfold batchPasses
    rw [if_neg (Nat.not_le.mpr hroom)]
    have hswept : motive ((batchOrder state.impl first candidates).foldl (batchItem ctx request first) { state with progress := false }) := by
      rw [horder, List.foldl_append, List.foldl_cons]
      exact List.foldlRecOn (motive := motive) after _ h fun acc hacc item _ => hitem first acc item (fun hagain => hagain) hacc
    simp only
    split
    · next hempty =>
      rw [horder] at hempty
      simp at hempty
    · split
      · exact batchPasses_visits passes (fun again acc item hagain hacc => hitem again acc item
          (fun hfirst => by cases hagain.first_of_later hfirst) hacc) hprogress hswept
      · exact hswept
  | @later passes first later state found id hroom hprogressed hvisits ih =>
    unfold batchPasses
    rw [if_neg (Nat.not_le.mpr hroom)]
    have hnonempty : (batchOrder state.impl first candidates).isEmpty = false := by
      cases horder : batchOrder state.impl first candidates with
      | nil =>
        rw [horder] at hprogressed
        cases hprogressed
      | cons => rfl
    simp only [hnonempty, Bool.false_eq_true, if_false, hprogressed, if_true]
    exact ih hitem h

end Passes

/-- A commit of a batch that is run now, in its first pass or in a later one. -/
structure System.BatchCommits (system : System) (request : ScheduleRequest) (first : Bool) (state : BatchState) (id : WorkId)
    (binding : AssignmentBinding) : Prop where
  examines : (batchCandidates system.impl request).length ≤ system.impl.limits.maxCandidatesExamined.toNat
  visits : system.Visits request first state id
  takes : BatchTakes system.context request state id binding

/-- The identities a batch derives for its commits are not taken. -/
def System.BatchFree (system : System) (request : ScheduleRequest) : Prop :=
  ∀ first state id binding, system.BatchCommits request first state id binding → state.impl.assignments[binding.id]? = none

/-- All commits of a batch are made in its first pass. -/
def System.BatchOnce (system : System) (request : ScheduleRequest) : Prop :=
  ∀ first state id binding, system.BatchCommits request first state id binding → first

/-- What a batch has logged is what it has stored since it started. -/
structure Logs (start : Impl) (state : BatchState) : Prop where
  consistent : Consistent state.impl
  kept : ∀ (id : AssignmentId) record, start.assignments[id]? = some record → state.impl.assignments[id]? = some record
  distinct : (state.batch.logged.map AssignmentBinding.id).Nodup
  fresh : ∀ binding ∈ state.batch.logged, start.assignments[binding.id]? = none
  stored : ∀ binding ∈ state.batch.logged, state.impl.assignments[binding.id]? = some binding.record

section Batches
variable {system : System} {request : ScheduleRequest} {start : Impl} {first : Bool} {state : BatchState} {id : WorkId}
  {binding : AssignmentBinding}

theorem Logs.item (h : Logs start state) (hdry : request.dryRun = false)
    (hafter : Consistent (batchItem system.context request first state id).impl)
    (hfree : ∀ binding, BatchTakes system.context request state id binding → state.impl.assignments[binding.id]? = none) :
    Logs start (batchItem system.context request first state id) := by
  rcases batchItem_logs system.context first id h.consistent hdry with ⟨-, hassignments, hlogged⟩ | ⟨binding, htakes, hassignments, hlogged⟩
  · refine ⟨hafter, ?_, ?_, ?_, ?_⟩
    · rw [hassignments]
      exact h.kept
    · rw [hlogged]
      exact h.distinct
    · rw [hlogged]
      exact h.fresh
    · rw [hlogged, hassignments]
      exact h.stored
  · have hnone := hfree binding htakes
    have hold : ∀ (stored : AssignmentId) record, state.impl.assignments[stored]? = some record →
        (batchItem system.context request first state id).impl.assignments[stored]? = some record := by
      intro stored record hrecord
      rw [hassignments, if_neg, hrecord]
      rintro rfl
      rw [hnone] at hrecord
      cases hrecord
    have hnew : (batchItem system.context request first state id).impl.assignments[binding.id]? = some binding.record := by
      rw [hassignments, if_pos rfl, hnone]
      rfl
    have hstart : start.assignments[binding.id]? = none := by
      cases hbefore : start.assignments[binding.id]? with
      | none => rfl
      | some record =>
        rw [h.kept binding.id record hbefore] at hnone
        cases hnone
    have hother : ∀ other ∈ state.batch.logged, other.id ≠ binding.id := by
      intro other hmem hsame
      rw [← hsame, h.stored other hmem] at hnone
      cases hnone
    have hmember : ∀ other ∈ (batchItem system.context request first state id).batch.logged,
        other ∈ state.batch.logged ∨ other = binding := by
      intro other hmem
      rw [hlogged] at hmem
      rcases List.mem_append.mp hmem with hmem | hmem
      · exact .inl hmem
      · cases first
        · cases hmem
        · exact .inr (List.mem_singleton.mp hmem)
    refine ⟨hafter, fun id record hrecord => hold id record (h.kept id record hrecord), ?_, fun other hmem => ?_, fun other hmem => ?_⟩
    · rw [hlogged, List.map_append]
      cases first
      · simpa using h.distinct
      · refine List.nodup_append.mpr ⟨h.distinct, List.nodup_singleton _, fun id hid other hsingle hsame => ?_⟩
        obtain ⟨logged, hmem, rfl⟩ := List.mem_map.mp hid
        obtain rfl := List.mem_singleton.mp hsingle
        exact hother logged hmem hsame
    · rcases hmember other hmem with hmem | rfl
      · exact h.fresh other hmem
      · exact hstart
    · rcases hmember other hmem with hmem | rfl
      · exact hold other.id other.record (h.stored other hmem)
      · exact hnew

theorem Logs.withProgress (h : Logs start state) (progress : Bool) : Logs start { state with progress := progress } :=
  ⟨h.consistent, h.kept, h.distinct, h.fresh, h.stored⟩

theorem BatchTakes.unique {ctx : Context} {other : AssignmentBinding} (h : BatchTakes ctx request state id binding)
    (h' : BatchTakes ctx request state id other) : other = binding := by
  obtain ⟨work, -, hwork, hplan, -⟩ := h.commits
  obtain ⟨found, -, hfound, hplan', -⟩ := h'.commits
  obtain rfl := Option.some.inj (hwork.symm.trans hfound)
  exact Option.some.inj (hplan'.symm.trans hplan)

theorem batchItem_stores {ctx : Context} {stored : AssignmentId} (h : Consistent state.impl) (hdry : request.dryRun = false)
    (hstored : state.impl.assignments[stored]? ≠ none) : (batchItem ctx request first state id).impl.assignments[stored]? ≠ none := by
  rcases batchItem_logs ctx first id h hdry with ⟨-, hassignments, -⟩ | ⟨binding, -, hassignments, -⟩
  · rwa [hassignments]
  · rw [hassignments]
    split
    · nofun
    · exact hstored

/-- Whatever is logged is stored, whether or not its identity was taken. -/
theorem batchItem_storesLogged {ctx : Context} (h : Healthy ctx.now state.impl) (hdry : request.dryRun = false)
    (hlogged : ∀ binding ∈ state.batch.logged, state.impl.assignments[binding.id]? ≠ none) :
    ∀ binding ∈ (batchItem ctx request first state id).batch.logged,
      (batchItem ctx request first state id).impl.assignments[binding.id]? ≠ none := by
  intro other hmem
  rcases batchItem_logs ctx first id h.consistent hdry with ⟨-, hassignments, hsame⟩ | ⟨binding, -, hassignments, hgrown⟩
  · rw [hassignments]
    exact hlogged other (hsame ▸ hmem)
  · rw [hassignments]
    split
    · nofun
    · next hother =>
      rw [hgrown] at hmem
      rcases List.mem_append.mp hmem with hmem | hmem
      · exact hlogged other hmem
      · cases first
        · cases hmem
        · obtain rfl := List.mem_singleton.mp hmem
          exact (hother rfl).elim

/-- A commit in a later pass is not logged. -/
theorem System.BatchCommits.missed (h : system.BatchCommits request false state id binding) (hvalid : system.Valid)
    (hdry : request.dryRun = false) (hnone : state.impl.assignments[binding.id]? = none) :
    system.impl.assignments[binding.id]? = none ∧
    let passed := batchPasses system.context request ((batchCandidates system.impl request).map Prod.fst)
      (batchPassLimit system.impl request) true { impl := system.impl }
    passed.impl.assignments[binding.id]? ≠ none ∧ binding.id ∉ passed.batch.logged.map AssignmentBinding.id := by
  have hfound : Healthy system.now state.impl ∧ (∀ other ∈ state.batch.logged, state.impl.assignments[other.id]? ≠ none) ∧
      (system.impl.assignments[binding.id]? ≠ none → state.impl.assignments[binding.id]? ≠ none) :=
    h.visits.visits.keeps (motive := fun state => Healthy system.now state.impl ∧
        (∀ other ∈ state.batch.logged, state.impl.assignments[other.id]? ≠ none) ∧
        (system.impl.assignments[binding.id]? ≠ none → state.impl.assignments[binding.id]? ≠ none))
      (fun _ _ _ ⟨hhealthy, hlogged, hkept⟩ => ⟨@batchItem_healthy _ _ _ _ system.context hhealthy,
        @batchItem_storesLogged _ _ _ _ system.context hhealthy hdry hlogged,
        fun hstart => batchItem_stores hhealthy.consistent hdry (hkept hstart)⟩)
      (fun _ _ hstate => hstate) ⟨hvalid.healthy, fun _ hmem => (List.not_mem_nil hmem).elim, fun hstart => hstart⟩
  have hmissed := BatchVisits.reaches (motive := fun state => Healthy system.now state.impl ∧
    state.impl.assignments[binding.id]? ≠ none ∧ binding.id ∉ state.batch.logged.map AssignmentBinding.id) h.visits.visits
    (fun again found item hagain ⟨hhealthy, hstored, hmissed⟩ => ?_) (fun _ _ hstate => hstate) ?_
  · refine ⟨?_, hmissed.2⟩
    by_contra hstart
    exact hfound.2.2 hstart hnone
  · obtain rfl : again = false := by simpa using hagain
    refine ⟨@batchItem_healthy _ _ _ _ system.context hhealthy, batchItem_stores hhealthy.consistent hdry hstored, ?_⟩
    rcases batchItem_logs system.context false item hhealthy.consistent hdry with
      ⟨-, -, hlogged⟩ | ⟨other, -, -, hlogged⟩
    · rw [hlogged]
      exact hmissed
    · rw [hlogged]
      simpa using hmissed
  · refine ⟨@batchItem_healthy _ _ _ _ system.context hfound.1, ?_⟩
    rcases batchItem_logs system.context false id hfound.1.consistent hdry with
      ⟨hnothing, -⟩ | ⟨other, htakes, hassignments, hlogged⟩
    · exact (hnothing binding h.takes).elim
    · obtain rfl := htakes.unique h.takes
      rw [hassignments, hlogged, if_pos rfl]
      refine ⟨nofun, fun hmem => ?_⟩
      obtain ⟨logged, hlogged, hid⟩ := List.mem_map.mp (by simpa using hmem)
      exact hfound.2.1 logged hlogged (hid ▸ hnone)

/-- What is stored after a batch and was not stored before it is logged, as long as only its first pass commits. -/
theorem scheduleBatch_logs (hvalid : system.Valid) (hdry : request.dryRun = false) (hfree : system.BatchFree request) :
    ∃ state : BatchState, Logs system.impl state ∧ (scheduleBatch system.context system.impl request).1.logged = state.batch.logged ∧
      (scheduleBatch system.context system.impl request).2.assignments = state.impl.assignments ∧
      (system.BatchOnce request ↔ ∀ (id : AssignmentId) record, state.impl.assignments[id]? = some record →
        system.impl.assignments[id]? = none → id ∈ state.batch.logged.map AssignmentBinding.id) := by
  have hstart : Logs system.impl { impl := system.impl } :=
    ⟨hvalid.healthy.consistent, fun _ _ hrecord => hrecord, List.nodup_nil, fun _ hmem => (List.not_mem_nil hmem).elim,
      fun _ hmem => (List.not_mem_nil hmem).elim⟩
  have hnew : ∀ {id : AssignmentId} {record} {logged : Prop}, system.impl.assignments[id]? = some record →
      system.impl.assignments[id]? = none → logged := by
    intro id record logged hrecord hnone
    rw [hnone] at hrecord
    cases hrecord
  have hidle : (∀ first state id binding, ¬system.BatchCommits request first state id binding) →
      (system.BatchOnce request ↔ ∀ (id : AssignmentId) record, system.impl.assignments[id]? = some record →
        system.impl.assignments[id]? = none → id ∈ (({} : BatchDecision).logged).map AssignmentBinding.id) := fun hnothing =>
    ⟨fun _ _ _ hrecord hnone => hnew hrecord hnone, fun _ _ _ _ _ hcommits => (hnothing _ _ _ _ hcommits).elim⟩
  unfold scheduleBatch
  split
  · next hclosed =>
    refine ⟨{ impl := system.impl }, hstart, rfl, rfl, hidle fun first state id binding hcommits => ?_⟩
    rcases hclosed with hrunning | hadmission
    · exact hrunning hcommits.visits.running
    · exact hadmission hcommits.visits.admission
  · next hopen =>
    rw [not_or, not_not, not_not] at hopen
    simp only
    split
    · next hmany =>
      exact ⟨{ impl := system.impl }, hstart, rfl, rfl, hidle fun first state id binding hcommits =>
        Nat.not_le.mpr hmany hcommits.examines⟩
    · next hfew =>
      have hfew := Nat.le_of_not_lt hfew
      let passed := batchPasses system.context request ((batchCandidates system.impl request).map Prod.fst)
        (batchPassLimit system.impl request) true { impl := system.impl }
      have hitems : ∀ first state id, BatchVisits system.context request ((batchCandidates system.impl request).map Prod.fst)
          (batchPassLimit system.impl request) true { impl := system.impl } first state id → Logs system.impl state →
          Logs system.impl (batchItem system.context request first state id) := by
        intro first state id hitem hlogs
        have hvisits : system.Visits request first state id := ⟨hopen.1, hopen.2, hitem⟩
        exact hlogs.item hdry (batchItem_healthy (hvisits.healthy hvalid.healthy)).consistent fun binding htakes =>
          hfree first state id binding ⟨hfew, hvisits, htakes⟩
      have hpassed : Logs system.impl passed :=
        batchPasses_visits (motive := Logs system.impl) _ hitems (fun _ _ hlogs => hlogs.withProgress _) hstart
      refine ⟨passed, hpassed, rfl, rfl, fun honce => ?_, fun hcovers first state item binding hcommits => ?_⟩
      · have hcovered : Logs system.impl passed ∧ ∀ (id : AssignmentId) record, passed.impl.assignments[id]? = some record →
            system.impl.assignments[id]? = none → id ∈ passed.batch.logged.map AssignmentBinding.id := by
          refine batchPasses_visits (motive := fun state => Logs system.impl state ∧ ∀ (id : AssignmentId) record,
              state.impl.assignments[id]? = some record → system.impl.assignments[id]? = none →
                id ∈ state.batch.logged.map AssignmentBinding.id) _ (fun first state item hitem ⟨hlogs, hcovers⟩ => ?_)
            (fun _ _ ⟨hlogs, hcovers⟩ => ⟨hlogs.withProgress _, hcovers⟩) ⟨hstart, fun id record hrecord hnone => hnew hrecord hnone⟩
          refine ⟨hitems first state item hitem hlogs, fun id record hrecord hnone => ?_⟩
          rcases batchItem_logs system.context first item hlogs.consistent hdry with
            ⟨-, hassignments, hlogged⟩ | ⟨binding, htakes, hassignments, hlogged⟩
          · rw [hassignments] at hrecord
            rw [hlogged]
            exact hcovers id record hrecord hnone
          · obtain rfl : first = true := honce first state item binding ⟨hfew, ⟨hopen.1, hopen.2, hitem⟩, htakes⟩
            rw [hlogged, List.map_append]
            rw [hassignments] at hrecord
            by_cases hid : id = binding.id
            · exact List.mem_append_right _ (List.mem_singleton.mpr hid)
            · rw [if_neg hid] at hrecord
              exact List.mem_append_left _ (hcovers id record hrecord hnone)
        exact hcovered.2
      · cases first
        · obtain ⟨hnew, hstored, hmissed⟩ := hcommits.missed hvalid hdry (hfree false state item binding hcommits)
          obtain ⟨record, hrecord⟩ := Option.ne_none_iff_exists'.mp hstored
          exact (hmissed (hcovers binding.id record hrecord hnew)).elim
        · rfl


end Batches

end AgentScheduler
