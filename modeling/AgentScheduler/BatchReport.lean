import AgentScheduler.Delivery

/-! What a batch reports, against what it does; and what a dry run leaves. -/
namespace AgentScheduler
open Std KeyedTable Relation

/-! ### One pass over the work -/

section Items
variable {ctx : Context} {request : ScheduleRequest} {state : BatchState} {id : WorkId}

/-- A known work item stays known through a batch. -/
theorem batchItem_knows {first : Bool} {item : WorkId} (h : Consistent state.impl) (hknown : state.impl.work[item]? ≠ none) :
    (batchItem ctx request first state id).impl.work[item]? ≠ none := by
  have hentry : ∀ impl : Impl, impl.work[item]? ≠ none ↔ impl.ledger.works item ≠ none := by
    intro impl
    change _ ↔ (impl.work[item]?).map WorkRecord.entry ≠ none
    rw [ne_eq, ne_eq, Option.map_eq_none_iff]
  have hrefines : Refines {} state.impl (batchItem ctx request first state id).impl :=
    batchItem_refines (fun _ _ _ _ => trivial) state id
  rw [hentry] at hknown ⊢
  exact Runs.keeps (motive := fun ledger : Ledger => ledger.works item ≠ none) (fun _ _ hmove => hmove.knowsWork) (hrefines h).2 hknown

/-- How a batch accounts for items of its first pass, the last of them committed under the bindings of a list. -/
structure Accounts (state after : BatchState) (items : List WorkId) (new : List AssignmentBinding) : Prop where
  examined : after.batch.examined = state.batch.examined + items.length
  settled : after.batch.deferred + after.batch.rejected + new.length = state.batch.deferred + state.batch.rejected + items.length
  assigned : after.batch.assigned = state.batch.assigned + new.length
  logged : after.batch.logged = state.batch.logged ++ new
  works : (new.map AssignmentBinding.work).Sublist items

theorem Accounts.trans {first second third : BatchState} {items items' : List WorkId} {new new' : List AssignmentBinding}
    (h : Accounts first second items new) (h' : Accounts second third items' new') :
    Accounts first third (items ++ items') (new ++ new') where
  examined := by rw [h'.examined, h.examined, List.length_append, Nat.add_assoc]
  settled := by
    have hfirst := h.settled
    have hsecond := h'.settled
    rw [List.length_append, List.length_append]
    omega
  assigned := by rw [h'.assigned, h.assigned, List.length_append, Nat.add_assoc]
  logged := by rw [h'.logged, h.logged, List.append_assoc]
  works := by
    rw [List.map_append]
    exact h.works.append h'.works

/-- Every item of the first pass is assigned, deferred or rejected. -/
theorem batchItem_accounts (h : Consistent state.impl) (hdry : request.dryRun = false) (hknown : state.impl.work[id]? ≠ none) :
    ∃ new, Accounts state (batchItem ctx request true state id) [id] new := by
  obtain ⟨work, hwork⟩ := Option.ne_none_iff_exists'.mp hknown
  have hassignment := planLocked_assignment ctx state.impl work
  unfold batchItem
  simp only [hwork, if_true]
  split
  · exact ⟨[], rfl, by simp only [List.length_nil, List.length_singleton]; omega, rfl, (List.append_nil _).symm, List.nil_sublist _⟩
  · cases hplan : (planLocked ctx state.impl work).binding with
    | none =>
      rw [hplan] at hassignment
      simp only
      split
      all_goals
        refine ⟨[], rfl, by simp only [List.length_nil, List.length_singleton]; omega, rfl, ?_, List.nil_sublist _⟩
        refine (logged_append _ _).trans ?_
        rw [hassignment]
        rfl
    | some binding =>
      simp only [hdry, Bool.false_eq_true, if_false]
      cases hcommit : commitLocked ctx state.impl work.request.id work.request.generation binding with
      | error rejection =>
        exact ⟨[], rfl, by simp only [List.length_nil, List.length_singleton]; omega, rfl, logged_append _ _, List.nil_sublist _⟩
      | ok after =>
        refine ⟨[binding], rfl, rfl, rfl, ?_, ?_⟩
        · refine (logged_append _ _).trans ?_
          rw [hassignment, hplan]
          rfl
        · rw [List.map_singleton, (planned_of_plan h hwork hplan).1]

theorem batchItem_quiet (hdry : request.dryRun = false) (hnothing : ∀ binding, ¬BatchTakes ctx request state id binding) :
    (batchItem ctx request false state id).batch = state.batch := by
  unfold batchItem
  cases hwork : state.impl.work[id]? with
  | none => rfl
  | some work =>
    simp only [Bool.false_eq_true, if_false]
    split
    · rfl
    · next hroom =>
      cases hplan : (planLocked ctx state.impl work).binding with
      | none => rfl
      | some binding =>
        simp only [hdry, Bool.false_eq_true, if_false]
        cases hcommit : commitLocked ctx state.impl work.request.id work.request.generation binding with
        | error rejection => rfl
        | ok after => exact (hnothing binding ⟨Nat.lt_of_not_le hroom, work, after, hwork, hplan, hcommit⟩).elim

/-- A decision reports an assignment if and only if it carries one. -/
theorem batchItem_outcomes {first : Bool} (h : ∀ decision ∈ state.batch.decisions, decision.outcome = .assigned ↔ decision.assignment.isSome) :
    ∀ decision ∈ (batchItem ctx request first state id).batch.decisions, decision.outcome = .assigned ↔ decision.assignment.isSome := by
  have hplanned : ∀ work, (planLocked ctx state.impl work).decision.outcome = .assigned ↔
      (planLocked ctx state.impl work).decision.assignment.isSome := by
    intro work
    rw [planLocked_assignment]
    cases hplan : (planLocked ctx state.impl work).binding with
    | none => simpa using planLocked_unassigned hplan
    | some binding => simpa using planLocked_assigned hplan
  have hgrown : ∀ (batch : BatchDecision) (logged : ScheduleDecision), batch.decisions = state.batch.decisions →
      (logged.outcome = .assigned ↔ logged.assignment.isSome) → ∀ decision ∈ batch.decisions ++ [logged],
        decision.outcome = .assigned ↔ decision.assignment.isSome := by
    intro batch logged hbatch hnew decision hmem
    rw [hbatch] at hmem
    rcases List.mem_append.mp hmem with hold | hlast
    · exact h decision hold
    · obtain rfl := List.mem_singleton.mp hlast
      exact hnew
  unfold batchItem
  cases hwork : state.impl.work[id]? with
  | none => exact h
  | some work =>
    simp only
    split
    · cases first <;> exact h
    · cases hplan : (planLocked ctx state.impl work).binding with
      | none =>
        cases first
        · exact h
        · simp only [if_true]
          split <;> exact hgrown _ _ rfl (hplanned work)
      | some binding =>
        simp only
        split
        · cases first
          · exact h
          · exact hgrown _ _ rfl (hplanned work)
        · cases hcommit : commitLocked ctx state.impl work.request.id work.request.generation binding with
          | error rejection =>
            have hrefused : rejection.1 ≠ .assigned := by
              unfold commitLocked at hcommit
              cases hcheck : commitCheck ctx state.impl work.request.id work.request.generation binding with
              | error found =>
                rw [hcheck] at hcommit
                obtain rfl := Except.error.inj hcommit
                exact commitCheck_neverAssigns ctx state.impl _ _ binding _ hcheck
              | ok found =>
                rw [hcheck] at hcommit
                cases hcommit
            cases first
            · exact h
            · refine hgrown _ _ rfl ?_
              exact iff_of_false hrefused nofun
          | ok after =>
            cases first
            · exact h
            · exact hgrown _ _ rfl (hplanned work)

end Items

section Passes
variable {ctx : Context} {request : ScheduleRequest} {candidates : List WorkId} {state : BatchState}

/-- The first pass takes every candidate. -/
theorem batchOrder_perm {impl : Impl} (hknown : ∀ id ∈ candidates, impl.work[id]? ≠ none) :
    (batchOrder impl true candidates).Perm candidates := by
  unfold batchOrder sortBy
  refine ((List.perm_insertionSort _ _).map Prod.snd).trans (List.Perm.of_eq ?_)
  induction candidates with
  | nil => rfl
  | cons id rest ih =>
    obtain ⟨record, hrecord⟩ := Option.ne_none_iff_exists'.mp (hknown id List.mem_cons_self)
    rw [List.filterMap_cons]
    simp only [hrecord, Bool.true_or, if_true, List.map_cons]
    have hrest := ih fun other hother => hknown other (List.mem_cons_of_mem _ hother)
    simp only [Bool.true_or, if_true] at hrest
    rw [hrest]

theorem foldl_accounts (hdry : request.dryRun = false) (items : List WorkId) (hconsistent : Consistent state.impl)
    (hknown : ∀ id ∈ items, state.impl.work[id]? ≠ none) :
    ∃ new, Accounts state (items.foldl (batchItem ctx request true) state) items new := by
  induction items generalizing state with
  | nil => exact ⟨[], rfl, rfl, rfl, (List.append_nil _).symm, List.Sublist.slnil⟩
  | cons id rest ih =>
    obtain ⟨new, hitem⟩ := @batchItem_accounts ctx request state id hconsistent hdry (hknown id List.mem_cons_self)
    have hrefines : Refines {} state.impl (batchItem ctx request true state id).impl :=
      batchItem_refines (fun _ _ _ _ => trivial) state id
    obtain ⟨others, hrest⟩ := ih (hrefines hconsistent).1 fun other hother =>
      batchItem_knows hconsistent (hknown other (List.mem_cons_of_mem _ hother))
    exact ⟨new ++ others, hitem.trans hrest⟩

/-- Later passes that commit nothing leave the report as it is. -/
theorem batchPasses_quiet (hdry : request.dryRun = false) (passes : Nat)
    (hnothing : ∀ later found id binding, BatchVisits ctx request candidates passes false state later found id →
      ¬BatchTakes ctx request found id binding) : (batchPasses ctx request candidates passes false state).batch = state.batch := by
  refine batchPasses_visits (motive := fun found => found.batch = state.batch) passes (fun later found id hvisits hfound => ?_)
    (fun _ _ hfound => hfound) rfl
  obtain rfl : later = false := by
    cases later
    · rfl
    · cases hvisits.first_of_later rfl
  rw [batchItem_quiet hdry fun binding => hnothing false found id binding hvisits, hfound]

end Passes

/-! ### What a batch reports -/

/-- The batch goes over the work: it is not refused as a whole, and may assign something. -/
structure System.BatchRuns (system : System) (request : ScheduleRequest) : Prop where
  running : system.impl.running
  admission : system.impl.admissionOpen
  examines : (batchCandidates system.impl request).length ≤ system.impl.limits.maxCandidatesExamined.toNat
  room : 0 < request.maxAssignments.toNat

/-- The assignment is stored by a batch that is run now. -/
def System.BatchStores (system : System) (request : ScheduleRequest) (id : AssignmentId) (record : AssignmentRecord) : Prop :=
  (scheduleBatch system.context system.impl request).2.assignments[id]? = some record ∧ system.impl.assignments[id]? = none

/-- The report of a batch that is run now is about what it does. -/
structure System.BatchReports (system : System) (request : ScheduleRequest) (batch : BatchDecision) : Prop where
  /-- a decision that reports an assignment carries the binding of one that is stored -/
  decided : ∀ decision ∈ batch.decisions, decision.outcome = .assigned → ∃ binding record,
    decision.assignment = some binding ∧ record.binding = binding ∧ system.BatchStores request binding.id record
  /-- what is stored is in one decision -/
  stored : ∀ id record, system.BatchStores request id record → (batch.decisions.filter fun decision =>
    decision.outcome = .assigned ∧ decision.assignment = some record.binding).length = 1
  assigned : {id | ∃ record, system.BatchStores request id record}.encard = batch.assigned
  examined : batch.examined = (batchCandidates system.impl request).length
  settled : {work | work ∈ (batchCandidates system.impl request).map Prod.fst ∧
    ∀ id record, system.BatchStores request id record → record.binding.work ≠ work}.encard = batch.deferred + batch.rejected

section Lists

theorem length_filter_assigned {decisions : List ScheduleDecision} (binding : AssignmentBinding)
    (h : ∀ decision ∈ decisions, decision.outcome = .assigned ↔ decision.assignment.isSome) :
    (decisions.filter fun decision => decision.outcome = .assigned ∧ decision.assignment = some binding).length =
      (decisions.filterMap ScheduleDecision.assignment).count binding := by
  induction decisions with
  | nil => rfl
  | cons decision rest ih =>
    have hrest := ih fun other hother => h other (List.mem_cons_of_mem _ hother)
    have hhead := h decision List.mem_cons_self
    cases hassignment : decision.assignment with
    | none =>
      rw [List.filter_cons_of_neg (by simp [hassignment]), List.filterMap_cons_none hassignment, hrest]
    | some carried =>
      rw [hassignment] at hhead
      rw [List.filterMap_cons_some hassignment, List.count_cons, ← hrest]
      by_cases hsame : carried = binding
      · subst hsame
        rw [List.filter_cons_of_pos (by simp [hassignment, hhead.mpr rfl])]
        simp
      · rw [List.filter_cons_of_neg (by simp [hassignment, hsame])]
        simp [hsame]

/-- What a list has beside some of its members. -/
theorem length_filter_notMem {α : Type} [DecidableEq α] {all some : List α} (hall : all.Nodup) (hsome : some.Nodup)
    (hsubset : ∀ x ∈ some, x ∈ all) : (all.filter fun x => x ∉ some).length + some.length = all.length := by
  have hmembers : (all.filter fun x => x ∈ some).length = some.length := by
    refine List.Perm.length_eq ((List.perm_ext_iff_of_nodup (hall.filter _) hsome).mpr fun x => ?_)
    simp only [List.mem_filter, decide_eq_true_eq]
    exact ⟨fun h => h.2, fun h => ⟨hsubset x h, h⟩⟩
  have hsplit := List.length_eq_length_filter_add (l := all) fun x => decide (x ∈ some)
  rw [hmembers] at hsplit
  rw [hsplit, Nat.add_comm]
  simp

end Lists

section Batches
variable {system : System} {request : ScheduleRequest}

theorem scheduleBatch_outcomes : ∀ decision ∈ (scheduleBatch system.context system.impl request).1.decisions,
    decision.outcome = .assigned ↔ decision.assignment.isSome := by
  unfold scheduleBatch
  split
  · exact fun _ hmem => (List.not_mem_nil hmem).elim
  · simp only
    split
    · exact fun _ hmem => (List.not_mem_nil hmem).elim
    · exact batchPasses_keeps (motive := fun state => ∀ decision ∈ state.batch.decisions,
        decision.outcome = .assigned ↔ decision.assignment.isSome) (fun _ _ _ hstate => batchItem_outcomes hstate)
        (fun _ _ hstate => hstate) _ true fun _ hmem => (List.not_mem_nil hmem).elim

theorem nodup_candidates (impl : Impl) (request : ScheduleRequest) : ((batchCandidates impl request).map Prod.fst).Nodup :=
  (List.filter_sublist.map Prod.fst).nodup (nodup_toList impl.work)

theorem knows_candidates {impl : Impl} : ∀ id ∈ (batchCandidates impl request).map Prod.fst, impl.work[id]? ≠ none := by
  intro id hmem
  obtain ⟨⟨found, record⟩, hentry, rfl⟩ := List.mem_map.mp hmem
  rw [ExtTreeMap.mem_toList_iff_getElem?_eq_some.mp (List.mem_of_mem_filter hentry)]
  nofun

/-- A batch that does not go over the work reports nothing. -/
theorem scheduleBatch_idle (h : ¬system.BatchRuns request) :
    ∃ outcome, (scheduleBatch system.context system.impl request).1 = { outcome } := by
  unfold scheduleBatch
  split
  · exact ⟨_, rfl⟩
  · next hopen =>
    rw [not_or, not_not, not_not] at hopen
    simp only
    split
    · exact ⟨_, rfl⟩
    · next hfew =>
      have hfull : request.maxAssignments.toNat ≤ 0 := by
        by_contra hroom
        exact h ⟨hopen.1, hopen.2, Nat.le_of_not_lt hfew, Nat.lt_of_not_le hroom⟩
      have hstays : ∀ passes, batchPasses system.context request ((batchCandidates system.impl request).map Prod.fst) passes true
          { impl := system.impl } = { impl := system.impl } := by
        intro passes
        cases passes with
        | zero => rfl
        | succ passes =>
          unfold batchPasses
          rw [if_pos hfull]
      rw [hstays]
      exact ⟨_, rfl⟩

/-- A batch that commits in its first pass only accounts for all its candidates. -/
theorem scheduleBatch_accounts (hvalid : system.Valid) (hdry : request.dryRun = false)
    (hruns : batchCandidates system.impl request = [] ∨ system.BatchRuns request) (honce : system.BatchOnce request) :
    ∃ items new, items.Perm ((batchCandidates system.impl request).map Prod.fst) ∧
      (scheduleBatch system.context system.impl request).1.examined = items.length ∧
      (scheduleBatch system.context system.impl request).1.deferred +
        (scheduleBatch system.context system.impl request).1.rejected + new.length = items.length ∧
      (scheduleBatch system.context system.impl request).1.assigned = new.length ∧
      (scheduleBatch system.context system.impl request).1.logged = new ∧ (new.map AssignmentBinding.work).Sublist items := by
  by_cases hgoes : system.BatchRuns request
  · have hlimit : ∃ passes, batchPassLimit system.impl request = passes + 1 :=
      Nat.exists_eq_succ_of_ne_zero (Nat.one_le_iff_ne_zero.mp (Nat.le_max_left 1 _))
    obtain ⟨passes, hlimit⟩ := hlimit
    let candidates := (batchCandidates system.impl request).map Prod.fst
    let order := batchOrder system.impl true candidates
    let swept := order.foldl (batchItem system.context request true) { impl := system.impl }
    have hperm : order.Perm candidates := batchOrder_perm knows_candidates
    obtain ⟨new, haccounts⟩ := @foldl_accounts system.context request { impl := system.impl } hdry order hvalid.healthy.consistent
      fun id hid => knows_candidates id (hperm.mem_iff.mp hid)
    have hpasses : (batchPasses system.context request candidates (passes + 1) true { impl := system.impl }).batch = swept.batch := by
      unfold batchPasses
      rw [if_neg (Nat.not_le.mpr hgoes.room)]
      simp only
      split
      · next hempty =>
        have hempty : order = [] := List.isEmpty_iff.mp hempty
        change _ = (order.foldl (batchItem system.context request true) { impl := system.impl }).batch
        rw [hempty]
        rfl
      · split
        · next hagain =>
          refine batchPasses_quiet hdry passes fun later found id binding hvisits htakes => ?_
          have hlater : later = true := honce later found id binding ⟨hgoes.examines, ⟨hgoes.running, hgoes.admission, by
            rw [hlimit]
            exact .later hgoes.room hagain hvisits⟩, htakes⟩
          cases hvisits.first_of_later hlater
        · rfl
    have hform : ∃ outcome, (scheduleBatch system.context system.impl request).1 = { swept.batch with outcome } := by
      unfold scheduleBatch
      rw [if_neg (by simp [hgoes.running, hgoes.admission])]
      simp only
      rw [if_neg (Nat.not_lt.mpr hgoes.examines)]
      let passed := batchPasses system.context request candidates (batchPassLimit system.impl request) true { impl := system.impl }
      have hbatch : passed.batch = swept.batch := by
        change (batchPasses _ _ _ (batchPassLimit system.impl request) _ _).batch = _
        rw [hlimit, hpasses]
      exact ⟨_, congrArg (fun batch : BatchDecision =>
        { batch with outcome := if 0 < passed.batch.assigned then .assigned else .deferred }) hbatch⟩
    obtain ⟨outcome, hform⟩ := hform
    rw [hform]
    exact ⟨order, new, hperm, haccounts.examined.trans (Nat.zero_add _), haccounts.settled.trans (Nat.zero_add _),
      haccounts.assigned.trans (Nat.zero_add _), haccounts.logged, haccounts.works⟩
  · obtain ⟨outcome, hform⟩ := scheduleBatch_idle hgoes
    rw [hform, hruns.resolve_right hgoes]
    exact ⟨[], [], .refl _, rfl, rfl, rfl, rfl, List.nil_sublist _⟩

/-- A batch whose commits take free identities reports exactly what it did if and only if it commits in its first pass only, and
goes over the work unless there is none. -/
theorem batch_reports (hreach : system.Reachable) (hdry : request.dryRun = false) (hfree : system.BatchFree request) :
    system.BatchReports request (scheduleBatch system.context system.impl request).1 ↔
      system.BatchOnce request ∧ (batchCandidates system.impl request = [] ∨ system.BatchRuns request) := by
  have hvalid := hreach.valid
  obtain ⟨state, hlogs, hlogged, hassignments, honce⟩ := scheduleBatch_logs hvalid hdry hfree
  have hstores : ∀ id record, system.BatchStores request id record ↔
      state.impl.assignments[id]? = some record ∧ system.impl.assignments[id]? = none := by
    intro id record
    unfold System.BatchStores
    rw [hassignments]
  have hlength : ∀ binding, ((scheduleBatch system.context system.impl request).1.decisions.filter fun decision =>
      decision.outcome = .assigned ∧ decision.assignment = some binding).length = state.batch.logged.count binding := by
    intro binding
    rw [length_filter_assigned binding scheduleBatch_outcomes, ← hlogged]
    rfl
  constructor
  · intro hreports
    refine ⟨honce.mpr fun id record hrecord hnone => ?_, ?_⟩
    · have hone := hreports.stored id record ((hstores id record).mpr ⟨hrecord, hnone⟩)
      rw [hlength] at hone
      have hkey : record.binding.id = id := hlogs.consistent.assignmentKey id record hrecord
      exact List.mem_map.mpr ⟨record.binding, List.count_pos_iff.mp (by omega), hkey⟩
    · by_cases hruns : system.BatchRuns request
      · exact .inr hruns
      · obtain ⟨outcome, hform⟩ := scheduleBatch_idle hruns
        have hexamined := hreports.examined
        rw [hform] at hexamined
        exact .inl (List.eq_nil_of_length_eq_zero hexamined.symm)
  · rintro ⟨hfirst, hruns⟩
    have hcovers := honce.mp hfirst
    obtain ⟨items, new, hperm, hexamined, hsettled, hassigned, hnew, hworks⟩ := scheduleBatch_accounts hvalid hdry hruns hfirst
    have hnew : state.batch.logged = new := hlogged.symm.trans hnew
    subst hnew
    have hdistinct : state.batch.logged.Nodup := List.Nodup.of_map _ hlogs.distinct
    have hstored : ∀ id record, system.BatchStores request id record ↔ record.binding ∈ state.batch.logged ∧ id = record.binding.id ∧
        record = record.binding.record := by
      intro id record
      rw [hstores]
      constructor
      · rintro ⟨hrecord, hnone⟩
        obtain ⟨binding, hmem, rfl⟩ := List.mem_map.mp (hcovers id record hrecord hnone)
        obtain rfl := Option.some.inj (hrecord.symm.trans (hlogs.stored binding hmem))
        exact ⟨hmem, rfl, rfl⟩
      · rintro ⟨hmem, rfl, hform⟩
        rw [hform]
        exact ⟨hlogs.stored _ hmem, hlogs.fresh _ hmem⟩
    refine ⟨fun decision hdecision hreported => ?_, fun id record hnewly => ?_, ?_, ?_, ?_⟩
    · obtain ⟨binding, hbinding⟩ := Option.isSome_iff_exists.mp ((scheduleBatch_outcomes decision hdecision).mp hreported)
      have hmem : binding ∈ state.batch.logged := by
        rw [← hlogged]
        exact List.mem_filterMap.mpr ⟨decision, hdecision, hbinding⟩
      exact ⟨binding, binding.record, hbinding, rfl, (hstored _ _).mpr ⟨hmem, rfl, rfl⟩⟩
    · rw [hlength]
      exact List.count_eq_one_of_mem hdistinct ((hstored id record).mp hnewly).1
    · rw [hassigned, ← List.length_map AssignmentBinding.id]
      refine encard_of_list hlogs.distinct fun id => ⟨fun hmem => ?_, ?_⟩
      · obtain ⟨binding, hlogged, rfl⟩ := List.mem_map.mp hmem
        exact ⟨binding.record, (hstored _ _).mpr ⟨hlogged, rfl, rfl⟩⟩
      · rintro ⟨record, hnewly⟩
        obtain ⟨hlogged, rfl, -⟩ := (hstored id record).mp hnewly
        exact List.mem_map.mpr ⟨record.binding, hlogged, rfl⟩
    · rw [hexamined, hperm.length_eq, List.length_map]
    · have hcandidates := nodup_candidates system.impl request
      have hworksNodup : (state.batch.logged.map AssignmentBinding.work).Nodup := hworks.nodup (hperm.nodup_iff.mpr hcandidates)
      have hleft := length_filter_notMem hcandidates hworksNodup fun work hwork => hperm.mem_iff.mp (hworks.subset hwork)
      rw [List.length_map] at hleft
      have htotal : (((batchCandidates system.impl request).map Prod.fst).filter
          fun work => work ∉ state.batch.logged.map AssignmentBinding.work).length =
          (scheduleBatch system.context system.impl request).1.deferred + (scheduleBatch system.context system.impl request).1.rejected := by
        have hlengths := hperm.length_eq
        omega
      rw [← Nat.cast_add, ← htotal]
      refine encard_of_list (hcandidates.filter _) fun work => ?_
      rw [List.mem_filter]
      refine and_congr_right fun _ => ?_
      rw [decide_eq_true_eq]
      constructor
      · intro hmissing id record hnewly hsame
        exact hmissing (List.mem_map.mpr ⟨record.binding, ((hstored id record).mp hnewly).1, hsame⟩)
      · intro hnone hmem
        obtain ⟨binding, hlogged, hsame⟩ := List.mem_map.mp hmem
        exact hnone _ binding.record ((hstored _ _).mpr ⟨hlogged, rfl, rfl⟩) hsame

end Batches

/-- Four assignments at most, from all the work there is. -/
def Sample.batch : ScheduleRequest := { maxAssignments := 4 }

set_option maxRecDepth 100000 in
/-- One work item, assigned and reported. -/
theorem batch_reports_sample : ∃ system, Sample.run (fun _ _ => True) (Sample.enlist ++ Sample.submit Sample.exclusiveWork) = some system ∧
    (scheduleBatch system.context system.impl Sample.batch).1.assigned = 1 ∧
    (system.BatchReports Sample.batch (scheduleBatch system.context system.impl Sample.batch).1 ↔
      system.BatchOnce Sample.batch ∧ (batchCandidates system.impl Sample.batch = [] ∨ system.BatchRuns Sample.batch)) := by
  have hrun : (Sample.run (fun _ _ => True) (Sample.enlist ++ Sample.submit Sample.exclusiveWork)).map (fun system =>
      decide ((scheduleBatch system.context system.impl Sample.batch).1.assigned = 1 ∧ batchPassLimit system.impl Sample.batch = 1 ∧
        (batchOrder system.impl true ((batchCandidates system.impl Sample.batch).map Prod.fst)).length = 1 ∧
        system.impl.assignments.size = 0)) = some true := by
    decide +kernel
  obtain ⟨system, hfound, hflags⟩ := Option.map_eq_some_iff.mp hrun
  obtain ⟨hassigned, hlimit, horder, hempty⟩ := of_decide_eq_true hflags
  exact ⟨system, hfound, hassigned, batch_reports (Sample.run_reaches hfound) rfl (System.batchFree_of_single hlimit horder hempty)⟩

set_option maxRecDepth 100000 in
/-- The second replica of one work item is stored and in no decision. -/
theorem not_batch_reports : ¬∀ (system : System) (request : ScheduleRequest), system.Reachable → request.dryRun = false →
    system.BatchReports request (scheduleBatch system.context system.impl request).1 := by
  intro hreports
  have hrun : (Sample.run (fun _ _ => True) (Sample.enlist ++ Sample.submit Sample.parallelWork)).map (fun system =>
      decide (system.impl.assignments.size = 0 ∧
        ∃ entry ∈ (scheduleBatch system.context system.impl Sample.batch).2.assignments.toList,
          ((scheduleBatch system.context system.impl Sample.batch).1.decisions.filter fun decision =>
            decision.outcome = .assigned ∧ decision.assignment = some entry.2.binding).length = 0)) = some true := by
    decide +kernel
  obtain ⟨system, hfound, hflags⟩ := Option.map_eq_some_iff.mp hrun
  obtain ⟨hempty, ⟨id, record⟩, hmem, hmissing⟩ := of_decide_eq_true hflags
  have hone := (hreports system Sample.batch (Sample.run_reaches hfound) rfl).stored id record
    ⟨ExtTreeMap.mem_toList_iff_getElem?_eq_some.mp hmem, getElem?_of_size hempty id⟩
  exact absurd (hmissing.symm.trans hone) nofun

/-! ### Dry runs -/

section DryRuns
variable {ctx : Context} {impl : Impl} {request : ScheduleRequest}

/-- The batch is refused as a whole. -/
def BatchRefused (impl : Impl) (request : ScheduleRequest) : Prop :=
  impl.running = false ∨ impl.admissionOpen = false ∨
    impl.limits.maxCandidatesExamined.toNat < (batchCandidates impl request).length

/-- A dry item at most passes its work over. -/
theorem batchItem_dry {state : BatchState} {first : Bool} {id : WorkId} (hdry : request.dryRun = true) :
    (batchItem ctx request first state id).impl = state.impl ∨ (batchItem ctx request first state id).impl = state.impl.modifyWork id passOver := by
  rcases batchItem_cases ctx request first state id with hsame | hpassed | ⟨_, _, _, _, _, hwet, _⟩
  · exact .inl hsame
  · exact .inr hpassed
  · rw [hdry] at hwet
    cases hwet

/-- A dry run leaves the state as it is if and only if it is refused as a whole: it counts as a scheduling round otherwise. -/
theorem dry_batch_changes_nothing (hdry : request.dryRun = true) : (scheduleBatch ctx impl request).2 = impl ↔ BatchRefused impl request := by
  unfold scheduleBatch BatchRefused
  split
  · next hclosed => exact iff_of_true rfl (by simpa [or_assoc] using Or.inl hclosed)
  · next hopen =>
    rw [not_or, not_not, not_not] at hopen
    simp only
    split
    · next hmany => exact iff_of_true rfl (.inr (.inr hmany))
    · next hfew =>
      let passed := batchPasses ctx request ((batchCandidates impl request).map Prod.fst) (batchPassLimit impl request) true { impl := impl }
      have hrounds : passed.impl.schedulingRounds = impl.schedulingRounds := by
        refine batchPasses_keeps (motive := fun state => state.impl.schedulingRounds = impl.schedulingRounds)
          (fun first state id hstate => ?_) (fun _ _ hstate => hstate) _ true rfl
        rcases @batchItem_dry ctx request state first id hdry with hsame | hpassed
        · rw [hsame]
          exact hstate
        · rw [hpassed]
          exact hstate
      refine iff_of_false (fun hsame => ?_) ?_
      · have hcounted : passed.impl.schedulingRounds + 1 = impl.schedulingRounds := congrArg Impl.schedulingRounds hsame
        omega
      · rintro (hstopped | hclosed | hmany)
        · rw [hopen.1] at hstopped
          cases hstopped
        · rw [hopen.2] at hclosed
          cases hclosed
        · exact hfew hmany

end DryRuns

/-- A dry run over everything. -/
def Sample.dryBatch : ScheduleRequest := { maxAssignments := 4, dryRun := true }

set_option maxRecDepth 100000 in
/-- A scheduler that is shut down refuses a dry run, which changes nothing. -/
theorem dry_batch_changes_nothing_sample : ∃ system,
    Sample.run (fun _ _ => True) (Sample.enlist ++ Sample.submit Sample.exclusiveWork ++ [.run .shutdown]) = some system ∧
      (scheduleBatch system.context system.impl Sample.dryBatch).2 = system.impl := by
  have hrun : (Sample.run (fun _ _ => True) (Sample.enlist ++ Sample.submit Sample.exclusiveWork ++ [.run .shutdown])).map
      (fun system => decide (system.impl.running = false)) = some true := by
    decide +kernel
  obtain ⟨system, hfound, hflags⟩ := Option.map_eq_some_iff.mp hrun
  exact ⟨system, hfound, (dry_batch_changes_nothing rfl).mpr (.inl (of_decide_eq_true hflags))⟩

set_option maxRecDepth 100000 in
/-- A dry run passes over the work it finds no agent for. -/
theorem not_dry_batch_changes_nothing : ¬∀ (system : System) (request : ScheduleRequest), system.Reachable → request.dryRun = true →
    (scheduleBatch system.context system.impl request).2 = system.impl := by
  intro hsame
  have hrun : (Sample.run (fun _ _ => True) (Sample.submit Sample.exclusiveWork)).map (fun system =>
      decide ((system.impl.work[(5 : WorkId)]?).map (fun record => record.bypassCount) = some 0 ∧
        (((scheduleBatch system.context system.impl Sample.dryBatch).2.work[(5 : WorkId)]?).map fun record => record.bypassCount) =
          some 1)) = some true := by
    decide +kernel
  obtain ⟨system, hfound, hflags⟩ := Option.map_eq_some_iff.mp hrun
  obtain ⟨hbefore, hafter⟩ := of_decide_eq_true hflags
  rw [hsame system Sample.dryBatch (Sample.run_reaches hfound) rfl, hbefore] at hafter
  cases hafter

end AgentScheduler
