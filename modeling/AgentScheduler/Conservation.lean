import AgentScheduler.Openings

/-! A batch is work-conserving: no plan binds what it leaves open. -/
namespace AgentScheduler
open Std KeyedTable Relation

/-! ### What one item does -/

/-- What an item of a batch that is run for real has done. -/
inductive ItemEffect (ctx : Context) (request : ScheduleRequest) (state after : BatchState) (id : WorkId) : Prop
  /-- nothing but the rounds of waiting has changed, and there was nothing to plan unless the batch is full -/
  | left (hassigned : after.assigned = state.assigned) (hcounted : after.batch.assigned = state.batch.assigned)
      (hprogress : after.progress = state.progress)
      (himpl : after.impl = state.impl ∨ after.impl = state.impl.modifyWork id passOver)
      (hshut : state.assigned < request.maxAssignments.toNat → state.impl.Shut ctx id)
  | taken (work : WorkRecord) (binding : AssignmentBinding) (hwork : state.impl.work[id]? = some work)
      (hbound : binding.work = id) (htakes : BatchTakes ctx request state id binding)
      (hcheck : commitCheck ctx state.impl binding.work work.request.generation binding = .ok work)
      (hassigned : after.assigned = state.assigned + 1) (hcounted : after.batch.assigned = state.batch.assigned + 1)
      (hprogress : after.progress = true)
      (himpl : after.impl = (commitApply state.impl binding.work work binding).modifyWork id
        fun record => { record with bypassCount := 0, starvationRounds := 0 })

/-- Work keeps its request and at least its slots, and has gained some. -/
def Impl.Gains (impl impl' : Impl) (id : WorkId) (slots : Nat) : Prop :=
  ∀ work, impl.work[id]? = some work → ∃ work', impl'.work[id]? = some work' ∧ work'.request = work.request ∧
    work.currentAssignments + slots ≤ work'.currentAssignments

section Items
variable {ctx : Context} {request : ScheduleRequest} {state after : BatchState} {id other : WorkId} {impl impl' impl'' : Impl}

theorem Impl.Gains.refl (impl : Impl) (id : WorkId) : impl.Gains impl id 0 :=
  fun work hwork => ⟨work, hwork, rfl, le_rfl⟩

theorem Impl.Gains.trans {slots slots' : Nat} (h : impl.Gains impl' id slots) (h' : impl'.Gains impl'' id slots') :
    impl.Gains impl'' id (slots + slots') := by
  intro work hwork
  obtain ⟨work', hwork', hrequest, hle⟩ := h work hwork
  obtain ⟨work'', hwork'', hrequest', hle'⟩ := h' work' hwork'
  exact ⟨work'', hwork'', hrequest'.trans hrequest, by omega⟩

/-- A change of the rounds of waiting keeps the slots. -/
theorem Impl.Gains.modifyWork {slots : Nat} {update : WorkRecord → WorkRecord} (hgist : ∀ record, (update record).gist = record.gist)
    (h : impl.Gains impl' id slots) : impl.Gains (impl'.modifyWork other update) id slots := by
  intro work hwork
  obtain ⟨work', hwork', hrequest, hle⟩ := h work hwork
  obtain ⟨hsame, -, hcurrent⟩ := WorkRecord.read_of_gist (hgist work')
  have hstored : (impl'.modifyWork other update).work[id]? = if other = id then some (update work') else some work' := by
    have hmodified := getElem?_modify impl'.work other id update
    rw [hwork'] at hmodified
    exact hmodified
  split at hstored
  · exact ⟨update work', hstored, hsame.trans hrequest, hcurrent.symm ▸ hle⟩
  · exact ⟨work', hstored, hrequest, hle⟩

/-- Of a batch that is run for real, an item that can be planned is taken. -/
theorem batchItem_effect (h : Consistent state.impl) (hdry : request.dryRun = false) (first : Bool) (id : WorkId) :
    ItemEffect ctx request state (batchItem ctx request first state id) id := by
  unfold batchItem
  cases hwork : state.impl.work[id]? with
  | none =>
    refine .left rfl rfl rfl (.inl rfl) fun _ work hstored => ?_
    rw [hwork] at hstored
    cases hstored
  | some work =>
    simp only
    split
    · next hfull =>
      have hfull : ¬state.assigned < request.maxAssignments.toNat := Nat.not_lt.mpr hfull
      cases first
      · exact .left rfl rfl rfl (.inl rfl) fun hroom => absurd hroom hfull
      · exact .left rfl rfl rfl (.inr rfl) fun hroom => absurd hroom hfull
    · next hroom =>
      have hroom : state.assigned < request.maxAssignments.toNat := Nat.lt_of_not_le hroom
      cases hplan : (planLocked ctx state.impl work).binding with
      | none =>
        have hshut : state.impl.Shut ctx id := by
          intro found hfound _
          obtain rfl : work = found := Option.some.inj (hwork.symm.trans hfound)
          exact hplan
        cases first
        · exact .left rfl rfl rfl (.inl rfl) fun _ => hshut
        · simp only [if_true]
          split
          · exact .left rfl rfl rfl (.inl rfl) fun _ => hshut
          · exact .left rfl rfl rfl (.inr rfl) fun _ => hshut
      | some binding =>
        have hkey : work.request.id = id := h.workKey id work hwork
        simp only [hdry, Bool.false_eq_true, if_false]
        cases hcommit : commitLocked ctx state.impl work.request.id work.request.generation binding with
        | error rejection =>
          -- only a lack of fresh evidence is left to refuse the plan, and a required capability rules that out
          have hshut : state.impl.Shut ctx id := by
            rintro found hfound ⟨requirement, hmem, hmode⟩
            obtain rfl : work = found := Option.some.inj (hwork.symm.trans hfound)
            obtain ⟨record, hrecord, -, heligible⟩ := planLocked_winner h hplan
            obtain ⟨after, hafter⟩ := (commitLocked_plan h hwork hplan).mpr
              ⟨record, hrecord, eligibility_fresh heligible hmem hmode⟩
            rw [← hkey, hcommit] at hafter
            cases hafter
          cases first
          · exact .left rfl rfl rfl (.inl rfl) fun _ => hshut
          · exact .left rfl rfl rfl (.inl rfl) fun _ => hshut
        | ok committed =>
          obtain ⟨found, hcheck, rfl⟩ := commitLocked_ok hcommit
          obtain ⟨rfl, hbound⟩ := commitCheck_planned h hwork hplan hcheck
          refine .taken found binding hwork (hbound.trans hkey) ⟨hroom, found, _, hwork, hplan, hcommit⟩ (hbound ▸ hcheck) rfl ?_ rfl ?_
          · cases first <;> rfl
          · rw [hbound]

/-- What is shut stays shut through every item. -/
theorem ItemEffect.shut (heffect : ItemEffect ctx request state after id) (h : Consistent state.impl)
    (h' : Consistent after.impl) (hshut : state.impl.Shut ctx other) : after.impl.Shut ctx other := by
  have hreset : ∀ (impl : Impl) (update : WorkRecord → WorkRecord), (∀ record, (update record).gist = record.gist) →
      Consistent impl → Consistent (impl.modifyWork id update) → impl.Shut ctx other →
      (impl.modifyWork id update).Shut ctx other := by
    intro impl update hgist hbefore hafter hshut
    refine hshut.of_gist hbefore hafter rfl rfl rfl fun work' hstored => ?_
    have hmodified := getElem?_modify impl.work id other update
    rw [show (impl.modifyWork id update).work[other]? = _ from hmodified] at hstored
    split at hstored
    · obtain ⟨work, hwork, rfl⟩ := Option.map_eq_some_iff.mp hstored
      exact ⟨work, hwork, hgist work⟩
    · exact ⟨work', hstored, rfl⟩
  cases heffect with
  | left _ _ _ himpl _ =>
    rcases himpl with hsame | hpassed
    · rw [hsame]
      exact hshut
    · rw [hpassed] at h' ⊢
      exact hreset _ _ (fun _ => rfl) h h' hshut
  | taken work binding hwork hbound htakes hcheck _ _ _ himpl =>
    subst hbound
    rw [himpl] at h' ⊢
    by_cases hother : other = binding.work
    · subst hother
      intro work' hstored hskill
      obtain ⟨found, -, hfound, hplan, -⟩ := htakes.commits
      obtain rfl : work = found := Option.some.inj (hwork.symm.trans hfound)
      obtain ⟨current, lifecycle, hcommitted⟩ := work_commitApply hwork
      have hmodified := getElem?_modify (commitApply state.impl binding.work work binding).work binding.work binding.work
        fun record => { record with bypassCount := 0, starvationRounds := 0 }
      rw [if_pos rfl, hcommitted] at hmodified
      obtain rfl := Option.some.inj (hmodified.symm.trans hstored)
      rw [hshut work hwork hskill] at hplan
      cases hplan
    · refine hreset _ _ (fun _ => rfl) (commitApply_spec h hcheck).1 h' ?_
      exact hshut.commit h hcheck hother

theorem ItemEffect.assigned (heffect : ItemEffect ctx request state after id) : state.assigned ≤ after.assigned := by
  cases heffect with
  | left hassigned => exact hassigned.ge
  | taken _ _ _ _ _ _ hassigned => exact (Nat.le_succ _).trans hassigned.ge

/-- Nothing loses a slot through an item, and a commit under a fresh identity gains one. -/
theorem ItemEffect.gains (heffect : ItemEffect ctx request state after id) (h : Consistent state.impl)
    (hfree : ∀ binding, BatchTakes ctx request state id binding → state.impl.assignments[binding.id]? = none) :
    (∀ other, state.impl.Gains after.impl other 0) ∧
      (after.assigned ≠ state.assigned → state.impl.Gains after.impl id 1) := by
  cases heffect with
  | left hassigned _ _ himpl _ =>
    refine ⟨fun other => ?_, fun hmore => absurd hassigned hmore⟩
    rcases himpl with hsame | hpassed
    · rw [hsame]
      exact .refl state.impl other
    · rw [hpassed]
      exact (Impl.Gains.refl state.impl other).modifyWork fun _ => rfl
  | taken work binding hwork hbound htakes hcheck _ _ _ himpl =>
    obtain ⟨stored, hstored, hrequest, hcurrent⟩ := commit_counts h hcheck (hfree binding htakes)
    have htaken : state.impl.Gains (commitApply state.impl binding.work work binding) id 1 := by
      intro found hfound
      obtain rfl : work = found := Option.some.inj (hwork.symm.trans hfound)
      exact ⟨stored, hbound ▸ hstored, hrequest, hcurrent.ge⟩
    rw [himpl]
    refine ⟨fun other => ?_, fun _ => htaken.modifyWork fun _ => rfl⟩
    refine Impl.Gains.modifyWork (fun _ => rfl) ?_
    by_cases hother : other = id
    · subst hother
      intro found hfound
      obtain ⟨after, hafter, hsame, hle⟩ := htaken found hfound
      exact ⟨after, hafter, hsame, (Nat.le_add_right _ 1).trans hle⟩
    · intro found hfound
      refine ⟨found, ?_, rfl, le_rfl⟩
      rw [work_commitApply_other h (commitCheck_ok.mp hcheck).2.1 (hbound.symm ▸ hother)]
      exact hfound

end Items

/-! ### One pass -/

/-- What a pass that started in one state has done in another one, after it went through some items. -/
structure Sweep (ctx : Context) (request : ScheduleRequest) (start : BatchState) (items : List WorkId) (state : BatchState) :
    Prop where
  healthy : Healthy ctx.now state.impl
  assigned : start.assigned ≤ state.assigned
  progress : state.progress → start.assigned < state.assigned
  shut : ∀ id, start.impl.Shut ctx id → state.impl.Shut ctx id
  gains : ∀ id, start.impl.Gains state.impl id 0
  served : state.assigned < request.maxAssignments.toNat →
    ∀ id ∈ items, state.impl.Shut ctx id ∨ start.impl.Gains state.impl id 1
  quiet : state.assigned < request.maxAssignments.toNat → state.progress = false → ∀ id ∈ items, state.impl.Shut ctx id

section Sweeps
variable {ctx : Context} {request : ScheduleRequest} {start state : BatchState} {items : List WorkId}

theorem Sweep.nil (h : Healthy ctx.now start.impl) : Sweep ctx request start [] { start with progress := false } where
  healthy := h
  assigned := le_rfl
  progress := nofun
  shut := fun _ hshut => hshut
  gains := fun id => .refl start.impl id
  served := fun _ _ hmem => absurd hmem List.not_mem_nil
  quiet := fun _ _ _ hmem => absurd hmem List.not_mem_nil

theorem Sweep.snoc (h : Sweep ctx request start items state) (hdry : request.dryRun = false) (first : Bool) (id : WorkId)
    (hfree : ∀ binding, BatchTakes ctx request state id binding → state.impl.assignments[binding.id]? = none) :
    Sweep ctx request start (items ++ [id]) (batchItem ctx request first state id) := by
  have heffect : ItemEffect ctx request state (batchItem ctx request first state id) id :=
    batchItem_effect h.healthy.consistent hdry first id
  have hhealthy : Healthy ctx.now (batchItem ctx request first state id).impl := batchItem_healthy h.healthy
  have hshut : ∀ other, state.impl.Shut ctx other → (batchItem ctx request first state id).impl.Shut ctx other :=
    fun _ hstate => heffect.shut h.healthy.consistent hhealthy.consistent hstate
  obtain ⟨hkept, htaken⟩ := heffect.gains h.healthy.consistent hfree
  have hmore := heffect.assigned
  have hnow : state.assigned < request.maxAssignments.toNat → (batchItem ctx request first state id).impl.Shut ctx id ∨
      (batchItem ctx request first state id).assigned ≠ state.assigned ∧ (batchItem ctx request first state id).progress := by
    intro hroom
    cases heffect with
    | left _ _ _ _ hnothing => exact .inl (hshut id (hnothing hroom))
    | taken _ _ _ _ _ _ hassigned _ hprogress => exact .inr ⟨by rw [hassigned]; exact Nat.succ_ne_self _, hprogress⟩
  refine ⟨hhealthy, h.assigned.trans hmore, fun hprogress => ?_, fun other hstart => hshut other (h.shut other hstart),
    fun other => (h.gains other).trans (hkept other), fun hroom other hmem => ?_, fun hroom hquiet other hmem => ?_⟩
  · cases heffect with
    | left hassigned _ hsame => exact hassigned ▸ h.progress (hsame ▸ hprogress)
    | taken _ _ _ _ _ _ hassigned => exact hassigned ▸ Nat.lt_succ_of_le h.assigned
  · have hfound := Nat.lt_of_le_of_lt hmore hroom
    rcases List.mem_append.mp hmem with hmem | hmem
    · exact (h.served hfound other hmem).imp (hshut other) fun hgains => hgains.trans (hkept other)
    · obtain rfl := List.mem_singleton.mp hmem
      exact (hnow hfound).imp_right fun hcommitted => (h.gains other).trans (htaken hcommitted.1)
  · have hfound := Nat.lt_of_le_of_lt hmore hroom
    have hbefore : state.progress = false := by
      cases heffect with
      | left _ _ hsame => exact hsame ▸ hquiet
      | taken _ _ _ _ _ _ _ _ hprogress =>
        rw [hprogress] at hquiet
        cases hquiet
    rcases List.mem_append.mp hmem with hmem | hmem
    · exact hshut other (h.quiet hfound hbefore other hmem)
    · obtain rfl := List.mem_singleton.mp hmem
      rcases hnow hfound with hdone | ⟨-, hprogress⟩
      · exact hdone
      · rw [hquiet] at hprogress
        cases hprogress

/-- A pass over a list of items, each of them committed, if at all, under a fresh identity. -/
theorem sweep_foldl (h : Healthy ctx.now start.impl) (hdry : request.dryRun = false) (first : Bool) (items : List WorkId)
    (hfree : ∀ before id after, items = before ++ id :: after → ∀ binding,
      BatchTakes ctx request (before.foldl (batchItem ctx request first) { start with progress := false }) id binding →
      (before.foldl (batchItem ctx request first) { start with progress := false }).impl.assignments[binding.id]? = none) :
    Sweep ctx request start items (items.foldl (batchItem ctx request first) { start with progress := false }) := by
  induction items using List.reverseRecOn with
  | nil => exact .nil h
  | append_singleton items id ih =>
    rw [List.foldl_append]
    refine (ih fun before other after hitems => ?_).snoc hdry first id (hfree items id [] rfl)
    exact hfree before other (after ++ [id]) (by rw [hitems, List.append_assoc]; rfl)

end Sweeps

/-! ### All passes -/

/-- Between two passes every candidate is shut, or has been given a slot in every pass so far. -/
structure Rounds (ctx : Context) (candidates : List WorkId) (fanout done : Nat) (state : BatchState) : Prop where
  healthy : Healthy ctx.now state.impl
  assigned : done ≤ state.assigned
  served : ∀ id ∈ candidates, ∃ work, state.impl.work[id]? = some work ∧
    work.request.requirements.maxParallel.toNat ≤ fanout ∧ (state.impl.Shut ctx id ∨ done ≤ work.currentAssignments)

section Passes
variable {ctx : Context} {request : ScheduleRequest} {candidates : List WorkId} {fanout done limit : Nat} {first : Bool}
  {state : BatchState} {id : WorkId}

theorem mem_batchOrder {impl : Impl} : id ∈ batchOrder impl first candidates ↔
    id ∈ candidates ∧ ∃ work, impl.work[id]? = some work ∧ (first ∨ fanoutOpen work ∧ 0 < work.currentAssignments) := by
  unfold batchOrder sortBy
  rw [((List.perm_insertionSort _ _).map Prod.snd).mem_iff, List.mem_map]
  constructor
  · rintro ⟨⟨key, found⟩, hmem, rfl⟩
    obtain ⟨candidate, hcandidate, hlive⟩ := List.mem_filterMap.mp hmem
    split at hlive
    · cases hlive
    · next work hwork =>
      split at hlive
      · next hopen =>
        obtain ⟨-, rfl⟩ := Prod.mk.inj (Option.some.inj hlive)
        exact ⟨hcandidate, work, hwork, by simpa using hopen⟩
      · cases hlive
  · rintro ⟨hcandidate, work, hwork, hopen⟩
    refine ⟨(fairnessKey impl work, id), List.mem_filterMap.mpr ⟨id, hcandidate, ?_⟩, rfl⟩
    simp only [hwork]
    exact if_pos (by simpa using hopen)

/-- What a pass leaves out is shut. -/
theorem Rounds.missed (h : Rounds ctx candidates fanout done state) (hfirst : first = false → 0 < done)
    (hmem : id ∈ candidates) (hout : id ∉ batchOrder state.impl first candidates) : state.impl.Shut ctx id := by
  obtain ⟨work, hwork, -, hshut | hslots⟩ := h.served id hmem
  · exact hshut
  · intro found hfound _
    obtain rfl : work = found := Option.some.inj (hwork.symm.trans hfound)
    have hclosed : ¬(first ∨ fanoutOpen work ∧ 0 < work.currentAssignments) :=
      fun hopen => hout (mem_batchOrder.mpr ⟨hmem, work, hwork, hopen⟩)
    have hlater : first = false := by simpa using fun hfirst => hclosed (.inl hfirst)
    have hpos : 0 < work.currentAssignments := (hfirst hlater).trans_le hslots
    exact planLocked_taken h.healthy.consistent hwork hpos fun hopen => hclosed (.inr ⟨hopen, hpos⟩)

/-- One pass with progress is one more round. -/
theorem Rounds.sweep {after : BatchState} (h : Rounds ctx candidates fanout done state) (hfirst : first = false → 0 < done)
    (hsweep : Sweep ctx request state (batchOrder state.impl first candidates) after) (hprogress : after.progress)
    (hroom : after.assigned < request.maxAssignments.toNat) : Rounds ctx candidates fanout (done + 1) after := by
  refine ⟨hsweep.healthy, h.assigned.trans_lt (hsweep.progress hprogress), fun id hmem => ?_⟩
  obtain ⟨work, hwork, hfanout, hserved⟩ := h.served id hmem
  obtain ⟨work', hwork', hrequest, -⟩ := hsweep.gains id work hwork
  refine ⟨work', hwork', by rw [hrequest]; exact hfanout, ?_⟩
  by_cases hin : id ∈ batchOrder state.impl first candidates
  · rcases hserved with hshut | hslots
    · exact .inl (hsweep.shut id hshut)
    · refine (hsweep.served hroom id hin).imp_right fun hgains => ?_
      obtain ⟨found, hfound, -, hle⟩ := hgains work hwork
      obtain rfl : work' = found := Option.some.inj (hwork'.symm.trans hfound)
      omega
  · exact .inl (hsweep.shut id (h.missed hfirst hmem hin))

theorem batchPasses_assigned (hdry : request.dryRun = false) (passes : Nat) (h : Healthy ctx.now state.impl) :
    state.assigned ≤ (batchPasses ctx request candidates passes first state).assigned := by
  refine (batchPasses_keeps (motive := fun later => Healthy ctx.now later.impl ∧ state.assigned ≤ later.assigned)
    (fun again later id hlater => ⟨batchItem_healthy hlater.1, hlater.2.trans ?_⟩) (fun _ _ hlater => hlater) passes first
    ⟨h, le_rfl⟩).2
  exact (batchItem_effect hlater.1.consistent hdry again id).assigned

/-- What is shut stays shut through a batch. -/
theorem batchPasses_shut (hdry : request.dryRun = false) (passes : Nat) (h : Healthy ctx.now state.impl)
    (hshut : state.impl.Shut ctx id) : (batchPasses ctx request candidates passes first state).impl.Shut ctx id := by
  refine (batchPasses_keeps (motive := fun later => Healthy ctx.now later.impl ∧ later.impl.Shut ctx id)
    (fun again later item hlater => ?_) (fun _ _ hlater => hlater) passes first ⟨h, hshut⟩).2
  have hafter : Healthy ctx.now (batchItem ctx request again later item).impl := batchItem_healthy hlater.1
  exact ⟨hafter, (batchItem_effect hlater.1.consistent hdry again item).shut hlater.1.consistent hafter.consistent hlater.2⟩

/-- A batch that ends with room left has shut every candidate: neither a full pass without progress nor the limit on
passes leaves anything to plan. -/
theorem batchPasses_conserves (hdry : request.dryRun = false) (passes : Nat) (hpasses : passes + done = limit)
    (hlimit : fanout ≤ limit ∨ request.maxAssignments.toNat ≤ limit) (hfirst : first = false → 0 < done)
    (h : Rounds ctx candidates fanout done state)
    (hfree : ∀ later found id, BatchVisits ctx request candidates passes first state later found id →
      ∀ binding, BatchTakes ctx request found id binding → found.impl.assignments[binding.id]? = none)
    (hroom : (batchPasses ctx request candidates passes first state).assigned < request.maxAssignments.toNat) :
    ∀ id ∈ candidates, (batchPasses ctx request candidates passes first state).impl.Shut ctx id := by
  induction passes generalizing done first state with
  | zero =>
    intro id hmem
    obtain ⟨work, hwork, hfanout, hshut | hslots⟩ := h.served id hmem
    · exact hshut
    · have hassigned := h.assigned
      have hroom : state.assigned < request.maxAssignments.toNat := hroom
      intro found hfound _
      obtain rfl : work = found := Option.some.inj (hwork.symm.trans hfound)
      exact planLocked_saturated h.healthy.consistent (by omega)
  | succ passes ih =>
    unfold batchPasses at hroom ⊢
    split
    · next hfull =>
      rw [if_pos hfull] at hroom
      exact absurd hroom (Nat.not_lt.mpr hfull)
    · next hopen =>
      have hopen : state.assigned < request.maxAssignments.toNat := Nat.lt_of_not_le hopen
      rw [if_neg (Nat.not_le.mpr hopen)] at hroom
      simp only at hroom ⊢
      split
      · next hempty =>
        intro id hmem
        refine h.missed hfirst hmem ?_
        rw [List.isEmpty_iff.mp hempty]
        exact List.not_mem_nil
      · next hsome =>
        rw [if_neg hsome] at hroom
        have hsweep : Sweep ctx request state (batchOrder state.impl first candidates)
            ((batchOrder state.impl first candidates).foldl (batchItem ctx request first) { state with progress := false }) :=
          sweep_foldl h.healthy hdry first _ fun before id after horder => hfree first _ id (.item hopen horder)
        split
        · next hprogress =>
          rw [if_pos hprogress] at hroom
          have hswept := Nat.lt_of_le_of_lt (batchPasses_assigned hdry passes hsweep.healthy) hroom
          exact ih (by omega) (fun _ => Nat.succ_pos done) (h.sweep hfirst hsweep hprogress hswept)
            (fun later found id hvisits => hfree later found id (.later hopen hprogress hvisits)) hroom
        · next hstuck =>
          rw [if_neg hstuck] at hroom
          intro id hmem
          by_cases hin : id ∈ batchOrder state.impl first candidates
          · exact hsweep.quiet hroom (by simpa using hstuck) id hin
          · exact hsweep.shut id (h.missed hfirst hmem hin)

end Passes

/-! ### Fresh identities -/

/-- No stored assignment carries a generation above the last one of its work. -/
def Impl.Counted (impl : Impl) : Prop :=
  ∀ (id : AssignmentId) record work, impl.assignments[id]? = some record → impl.work[record.binding.work]? = some work →
    record.binding.generation.value ≤ work.lastAssignmentGeneration.value

/-- The identities derived for the commits of a batch tell their bindings from what is stored. -/
def System.BatchInjective (system : System) (request : ScheduleRequest) : Prop :=
  ∀ first state id binding, system.BatchCommits request first state id binding →
    ∀ record, state.impl.assignments[binding.id]? = some record → record.binding.hashed = binding.hashed

section Fresh
variable {ctx : Context} {request : ScheduleRequest} {state after : BatchState} {id : WorkId} {impl impl' : Impl} {system : System}

theorem Impl.counted_iff : impl.Counted ↔ ∀ id record entry, impl.ledger.assignments id = some record →
    impl.ledger.works record.binding.work = some entry → record.binding.generation.value ≤ entry.lastGeneration.value := by
  constructor
  · intro h id record entry hrecord hentry
    obtain ⟨work, hwork, rfl⟩ := Option.map_eq_some_iff.mp hentry
    exact h id record work hrecord hwork
  · intro h id record work hrecord hwork
    refine h id record work.entry hrecord ?_
    change (impl.work[record.binding.work]?).map WorkRecord.entry = _
    rw [hwork]
    rfl

theorem Impl.Counted.of_ledger (h : impl.Counted) (hledger : impl'.ledger = impl.ledger) : impl'.Counted := by
  rw [counted_iff] at h ⊢
  rwa [hledger]

/-- An item numbers what it commits past everything before. -/
theorem ItemEffect.counted (heffect : ItemEffect ctx request state after id) (h : Consistent state.impl)
    (hcounted : state.impl.Counted) : after.impl.Counted := by
  have hrounds : ∀ (impl : Impl) (update : WorkRecord → WorkRecord), Quiet impl (impl.modifyWork id update) →
      Consistent impl → impl.Counted → (impl.modifyWork id update).Counted :=
    fun impl update hquiet hconsistent himpl => himpl.of_ledger (hquiet hconsistent).2
  cases heffect with
  | left _ _ _ himpl _ =>
    rcases himpl with hsame | hpassed
    · rw [hsame]
      exact hcounted
    · rw [hpassed]
      exact hrounds _ _ (Quiet.modifyWork (fun _ => rfl) (fun _ => rfl) (fun _ => rfl) fun _ => rfl) h hcounted
  | taken work binding hwork hbound htakes hcheck _ _ _ himpl =>
    rw [himpl]
    obtain ⟨hafter, hledger⟩ := commitApply_spec h hcheck
    refine hrounds _ _ (Quiet.modifyWork (fun _ => rfl) (fun _ => rfl) (fun _ => rfl) fun _ => rfl) hafter ?_
    obtain ⟨found, -, hfound, hplan, -⟩ := htakes.commits
    obtain rfl : work = found := Option.some.inj (hwork.symm.trans hfound)
    have hnext := (planned_of_plan h hwork hplan).2.next
    have hnext : binding.generation.value = work.lastAssignmentGeneration.value + 1 := hnext
    subst hbound
    rw [Impl.counted_iff, hledger]
    intro stored record entry hrecord hentry
    have hold : record = binding.record ∨ state.impl.assignments[stored]? = some record := by
      change (if stored = binding.id then some ((state.impl.assignments[stored]?).getD binding.record)
        else state.impl.assignments[stored]?) = some record at hrecord
      split at hrecord
      · cases hbefore : state.impl.assignments[stored]? with
        | none =>
          rw [hbefore] at hrecord
          exact .inl (Option.some.inj hrecord).symm
        | some before =>
          rw [hbefore] at hrecord
          exact .inr hrecord
      · exact .inr hrecord
    by_cases hsame : record.binding.work = binding.work
    · have hlast : entry.lastGeneration = binding.generation := by
        simp only [Ledger.commit, Ledger.setWork, hsame, Function.update_self] at hentry
        rw [← Option.some.inj hentry]
      rw [hlast]
      rcases hold with rfl | hbefore
      · exact le_rfl
      · have hle := hcounted stored record work hbefore (hsame ▸ hwork)
        omega
    · rcases hold with rfl | hbefore
      · exact (hsame rfl).elim
      · refine Impl.counted_iff.mp hcounted stored record entry hbefore ?_
        simpa only [Ledger.commit, Ledger.setWork, Function.update_of_ne hsame] using hentry

/-- A batch finds no identity taken that it derives, as long as the derivation tells bindings apart. -/
theorem System.BatchInjective.free (h : system.BatchInjective request) (hvalid : system.Valid) (hdry : request.dryRun = false)
    (hcounted : system.impl.Counted) : system.BatchFree request := by
  intro first state id binding hcommits
  have hstate : Healthy system.context.now state.impl ∧ state.impl.Counted :=
    hcommits.visits.visits.keeps (motive := fun state => Healthy system.context.now state.impl ∧ state.impl.Counted)
      (fun again found item hfound => ⟨batchItem_healthy hfound.1,
        (batchItem_effect hfound.1.consistent hdry again item).counted hfound.1.consistent hfound.2⟩)
      (fun _ _ hfound => hfound) ⟨hvalid.healthy, hcounted⟩
  by_contra hsome
  obtain ⟨record, hrecord⟩ := Option.ne_none_iff_exists'.mp hsome
  have hsame := h first state id binding hcommits record hrecord
  obtain ⟨work, -, hwork, hplan, -⟩ := hcommits.takes.commits
  obtain ⟨hbound, hplanned⟩ := planned_of_plan hstate.1.consistent hwork hplan
  have hnext : binding.generation.value = work.lastAssignmentGeneration.value + 1 := hplanned.next
  have hitem := congrArg AssignmentBinding.work hsame
  have hitem : record.binding.work = binding.work := hitem
  have hnumber := congrArg AssignmentBinding.generation hsame
  have hnumber : record.binding.generation = binding.generation := hnumber
  have hle := hstate.2 binding.id record work hrecord (by rw [hitem, hbound, hwork])
  rw [hnumber, hnext] at hle
  omega

end Fresh

/-! ### Work conservation -/

/-- The work that the filters of a request let through. -/
def ScheduleRequest.Matches (request : ScheduleRequest) (id : WorkId) (work : WorkRecord) : Prop :=
  (request.queues = [] ∨ work.request.queue ∈ request.queues) ∧ (request.work = [] ∨ id ∈ request.work)

section Batches
variable {ctx : Context} {request : ScheduleRequest} {impl : Impl} {id : WorkId} {work : WorkRecord} {system : System}

theorem mem_candidates : id ∈ (batchCandidates impl request).map Prod.fst ↔ ∃ work, impl.work[id]? = some work ∧
    (work.lifecycle.acceptsAssignment ∨ fanoutOpen work ∧ 0 < work.currentAssignments) ∧ request.Matches id work := by
  unfold batchCandidates ScheduleRequest.Matches
  rw [List.mem_map]
  constructor
  · rintro ⟨⟨found, work⟩, hmem, rfl⟩
    obtain ⟨hwork, hselected⟩ := List.mem_filter.mp hmem
    refine ⟨work, ExtTreeMap.mem_toList_iff_getElem?_eq_some.mp hwork, ?_⟩
    simpa [and_assoc] using hselected
  · rintro ⟨work, hwork, hselected⟩
    refine ⟨(id, work), List.mem_filter.mpr ⟨ExtTreeMap.mem_toList_iff_getElem?_eq_some.mpr hwork, ?_⟩, rfl⟩
    simpa [and_assoc] using hselected

/-- Work that matches a request and is no candidate for it has nothing to plan. -/
theorem shut_of_not_candidate (h : Consistent impl) (hrequeues : impl.Requeues) (hwork : impl.work[id]? = some work)
    (hmatches : request.Matches id work) (hout : id ∉ (batchCandidates impl request).map Prod.fst) : impl.Shut ctx id := by
  intro found hfound _
  obtain rfl : work = found := Option.some.inj (hwork.symm.trans hfound)
  have hclosed : ¬(work.lifecycle.acceptsAssignment ∨ fanoutOpen work ∧ 0 < work.currentAssignments) :=
    fun hopen => hout (mem_candidates.mpr ⟨work, hwork, hopen, hmatches⟩)
  by_contra hsome
  obtain ⟨binding, hplan⟩ := Option.ne_none_iff_exists'.mp hsome
  have hterminal := planGates_unsettled (planLocked_binding hplan).1
  rcases Nat.eq_zero_or_pos work.currentAssignments with hidle | hpos
  · rcases hrequeues id work hwork hidle with hdone | haccepts
    · rw [hterminal] at hdone
      cases hdone
    · exact hclosed (.inl haccepts)
  · rw [planLocked_taken h hwork hpos fun hopen => hclosed (.inr ⟨hopen, hpos⟩)] at hplan
    cases hplan

theorem le_foldl_max {α : Type} (size : α → ℕ) (entries : List α) (start : ℕ) :
    start ≤ entries.foldl (fun largest entry => max largest (size entry)) start ∧
      ∀ entry ∈ entries, size entry ≤ entries.foldl (fun largest entry => max largest (size entry)) start := by
  induction entries generalizing start with
  | nil => exact ⟨le_rfl, fun _ hmem => absurd hmem List.not_mem_nil⟩
  | cons head rest ih =>
    obtain ⟨hstart, hrest⟩ := ih (max start (size head))
    refine ⟨(le_max_left _ _).trans hstart, fun entry hmem => ?_⟩
    rcases List.mem_cons.mp hmem with rfl | hmem
    · exact (le_max_right _ _).trans hstart
    · exact hrest entry hmem

/-- A batch that is not refused is its passes and one more round. -/
theorem scheduleBatch_passes (ctx : Context) (haccepted : ¬BatchRefused impl request) : ∃ outcome,
    let passed := batchPasses ctx request ((batchCandidates impl request).map Prod.fst) (batchPassLimit impl request) true { impl := impl }
    scheduleBatch ctx impl request = ({ passed.batch with outcome := outcome },
      { passed.impl with schedulingRounds := passed.impl.schedulingRounds + 1 }) := by
  simp only [BatchRefused, not_or, Bool.not_eq_false] at haccepted
  obtain ⟨hrunning, hopen, hfew⟩ := haccepted
  unfold scheduleBatch
  rw [if_neg (by simp [hrunning, hopen])]
  simp only
  rw [if_neg hfew]
  exact ⟨_, rfl⟩

/-- The passes of a batch count what they assign. -/
theorem batchPasses_counted (hdry : request.dryRun = false) {candidates : List WorkId} {passes : Nat}
    (h : Healthy ctx.now impl) : (batchPasses ctx request candidates passes true { impl := impl }).batch.assigned =
      (batchPasses ctx request candidates passes true { impl := impl }).assigned := by
  refine (batchPasses_keeps (motive := fun later => Healthy ctx.now later.impl ∧ later.batch.assigned = later.assigned)
    (fun again later id hlater => ⟨batchItem_healthy hlater.1, ?_⟩) (fun _ _ hlater => hlater) passes true ⟨h, rfl⟩).2
  have heffect : ItemEffect ctx request later (batchItem ctx request again later id) id :=
    batchItem_effect hlater.1.consistent hdry again id
  cases heffect with
  | left hassigned hcounted => rw [hassigned, hcounted, hlater.2]
  | taken _ _ _ _ _ _ hassigned hcounted => rw [hassigned, hcounted, hlater.2]

/-- Work keeps its request through a batch. -/
theorem batchPasses_gains (hdry : request.dryRun = false) {candidates : List WorkId} {passes : Nat}
    (h : Healthy ctx.now impl)
    (hfree : ∀ later found id, BatchVisits ctx request candidates passes true { impl := impl } later found id →
      ∀ binding, BatchTakes ctx request found id binding → found.impl.assignments[binding.id]? = none) :
    impl.Gains (batchPasses ctx request candidates passes true { impl := impl }).impl id 0 := by
  refine (batchPasses_visits (motive := fun later => Healthy ctx.now later.impl ∧ impl.Gains later.impl id 0) passes
    (fun again found item hvisits hfound => ⟨batchItem_healthy hfound.1, ?_⟩) (fun _ _ hlater => hlater)
    ⟨h, .refl impl id⟩).2
  have heffect : ItemEffect ctx request found (batchItem ctx request again found item) item :=
    batchItem_effect hfound.1.consistent hdry again item
  exact hfound.2.trans ((heffect.gains hfound.1.consistent (hfree again found item hvisits)).1 id)

end Batches

end AgentScheduler
