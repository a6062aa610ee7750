import AgentScheduler.Bypass
import AgentScheduler.Urgency

/-! The fairness order in its rounds: what a batch makes of the counts, and how far they can grow. -/
namespace AgentScheduler
open Std KeyedTable Relation Urgency

/-! ### The fairness order -/

/-- `fairness_before` orders keys as `std::stable_sort` requires. -/
theorem fairnessBefore_strictWeakOrder : StrictWeakOrder fairnessBefore := by
  constructor
  · intro left right h
    unfold fairnessBefore at h ⊢
    grind
  · intro left middle right h h'
    unfold fairnessBefore at h h' ⊢
    grind

/-- Among keys that must run, what does not come before another has no higher pressure. -/
theorem ratio_of_fairnessBefore {left right : FairnessKey} (h : fairnessBefore left right = false) (hleft : left.mustRun) :
    right.mustRun ∧ left.ratio ≤ right.ratio := by
  unfold fairnessBefore at h
  grind

private theorem stored_of_live {impl : Impl} {first : Bool} {candidates : List WorkId} {entry : FairnessKey × WorkId}
    (h : entry ∈ candidates.filterMap fun id =>
      match impl.work[id]? with
      | none => none
      | some record =>
        if first || (fanoutOpen record && 0 < record.currentAssignments) then some (fairnessKey impl record, id) else none) :
    ∃ record, impl.work[entry.2]? = some record ∧ entry.1 = fairnessKey impl record := by
  obtain ⟨id, -, hid⟩ := List.mem_filterMap.mp h
  split at hid
  · cases hid
  · next record hrecord =>
    split at hid
    · obtain rfl := Option.some.inj hid
      exact ⟨record, hrecord, rfl⟩
    · cases hid

/-- The items of a pass come in fairness order. -/
theorem pairwise_batchOrder {impl : Impl} {first : Bool} {candidates : List WorkId} :
    (batchOrder impl first candidates).Pairwise fun left right =>
      ∃ record record', impl.work[left]? = some record ∧ impl.work[right]? = some record' ∧
        fairnessBefore (fairnessKey impl record') (fairnessKey impl record) = false := by
  refine List.pairwise_map.mpr (List.Pairwise.imp_of_mem (fun {left right} hleft hright h => ?_)
    ((fairnessBefore_strictWeakOrder.on Prod.fst).pairwise_sortBy _))
  obtain ⟨record, hrecord, hkey⟩ := stored_of_live (mem_sortBy.mp hleft)
  obtain ⟨record', hrecord', hkey'⟩ := stored_of_live (mem_sortBy.mp hright)
  exact ⟨record, record', hrecord, hrecord', hkey ▸ hkey' ▸ h⟩

theorem one_le_bypassCeiling {policy : PolicySnapshot} (h : 1 ≤ policy.maxPriorityBypass) (fairnessClass : Text) :
    1 ≤ bypassCeiling policy fairnessClass := by
  unfold bypassCeiling
  split
  · decide
  · simp only
    split
    · exact h
    · split
      · decide
      · next hnot => exact UInt32.not_lt.mp hnot

/-! ### Urgency -/

/-- A measure of how overdue a count is under given ceilings: not at all below its ceiling, by one level a round at most, and
among what is due no less for what the fairness order prefers. -/
structure Gauges (ceiling : Text → UInt32) (gauge : Text → ℕ → ℕ) : Prop where
  positive : ∀ fairnessClass, 0 < (ceiling fairnessClass).toNat
  idle : ∀ fairnessClass count, count < (ceiling fairnessClass).toNat → gauge fairnessClass count = 0
  grows : ∀ fairnessClass, Monotone (gauge fairnessClass)
  rises : ∀ fairnessClass count, gauge fairnessClass (count + 1) ≤ gauge fairnessClass count + 1
  follows : ∀ fairnessClass count other count', (ceiling fairnessClass).toNat ≤ count → (ceiling other).toNat ≤ count' →
    count' * 1024 / (ceiling other).toNat ≤ count * 1024 / (ceiling fairnessClass).toNat →
    gauge other count' ≤ gauge fairnessClass count

/-- How overdue a stored work item is. -/
def Impl.urgency (gauge : Text → ℕ → ℕ) (impl : Impl) (work : WorkId) : ℕ :=
  ((impl.bypassed work).map fun shown => gauge shown.1 shown.2.toNat).getD 0

section Urgency
variable {ceiling : Text → UInt32} {gauge : Text → ℕ → ℕ} {ctx : Context} {request : ScheduleRequest} {impl impl' : Impl}

theorem Gauges.restart (h : Gauges ceiling gauge) (fairnessClass : Text) : gauge fairnessClass 0 = 0 :=
  h.idle fairnessClass 0 (h.positive fairnessClass)

theorem Impl.Calms.urgency (h : impl.Calms impl') (hgauges : Gauges ceiling gauge) (work : WorkId) :
    impl'.urgency gauge work ≤ impl.urgency gauge work := by
  unfold Impl.urgency
  rcases h work with heq | ⟨fairnessClass, hfresh⟩
  · rw [heq]
  · rw [hfresh]
    exact (hgauges.restart fairnessClass).trans_le (Nat.zero_le _)

/-- What a turn of a pass may do to a count: leave it, set it back, or count one more round in the first pass. -/
inductive Tally (first : Bool) (count : UInt32) : UInt32 → Prop
  | kept : Tally first count count
  | reset : Tally first count 0
  | counted (hfirst : first) (hroom : count ≠ 0xFFFFFFFF) : Tally first count (count + 1)

theorem Tally.passOver (count : UInt32) : Tally true count (if count ≠ 0xFFFFFFFF then count + 1 else count) := by
  split
  · next hroom => exact .counted rfl hroom
  · exact .kept

theorem Tally.level {first : Bool} {count count' : UInt32} (h : Tally first count count') (hgauges : Gauges ceiling gauge)
    (fairnessClass : Text) :
    gauge fairnessClass count'.toNat ≤ gauge fairnessClass count.toNat + if first then 1 else 0 := by
  cases h with
  | kept => exact Nat.le_add_right _ _
  | reset => exact (hgauges.restart fairnessClass).trans_le (Nat.zero_le _)
  | counted hfirst hroom =>
    have hcount : (count + 1).toNat ≤ count.toNat + 1 := by
      rw [UInt32.toNat_add]
      exact Nat.mod_le _ _
    rw [if_pos hfirst]
    exact (hgauges.grows fairnessClass hcount).trans (hgauges.rises fairnessClass count.toNat)

/-- A turn touches the count of its own item only. -/
theorem batchItem_bypassed (first : Bool) (state : BatchState) (work : WorkId) :
    ∃ change : UInt32 → UInt32, (∀ count, Tally first count (change count)) ∧
      (batchItem ctx request first state work).impl.bypassed =
        Function.update state.impl.bypassed work ((state.impl.bypassed work).map (Prod.map id change)) := by
  have hkept : state.impl.bypassed =
      Function.update state.impl.bypassed work ((state.impl.bypassed work).map (Prod.map id id)) := by
    rw [Prod.map_id, Option.map_id]
    exact (Function.update_eq_self _ _).symm
  have hpassed : ∀ count, Tally true count (if count ≠ 0xFFFFFFFF then count + 1 else count) := Tally.passOver
  unfold batchItem
  cases hwork : state.impl.work[work]? with
  | none => exact ⟨id, fun _ => .kept, hkept⟩
  | some record =>
    simp only
    split
    · split
      · next hfirst =>
        subst hfirst
        exact ⟨_, hpassed, bypassed_modifyWork _ work _ (fun _ => rfl) fun _ => rfl⟩
      · exact ⟨id, fun _ => .kept, hkept⟩
    · cases hplan : (planLocked ctx state.impl record).binding with
      | none =>
        simp only
        split
        · next hfirst =>
          subst hfirst
          split
          · exact ⟨id, fun _ => .kept, hkept⟩
          · exact ⟨_, hpassed, bypassed_modifyWork _ work _ (fun _ => rfl) fun _ => rfl⟩
        · exact ⟨id, fun _ => .kept, hkept⟩
      | some binding =>
        simp only
        split
        · split <;> exact ⟨id, fun _ => .kept, hkept⟩
        · cases hcommit : commitLocked ctx state.impl record.request.id record.request.generation binding with
          | error rejection => exact ⟨id, fun _ => .kept, hkept⟩
          | ok committed =>
            refine ⟨fun _ => 0, fun _ => .reset, ?_⟩
            rw [← bypassed_commitLocked hcommit]
            exact bypassed_modifyWork committed work _ (fun _ => rfl) fun _ => rfl

/-- So a turn leaves the urgency of the others, and raises that of its item by one level at most, and not after the first pass. -/
theorem batchItem_urgency (hgauges : Gauges ceiling gauge) (first : Bool) (state : BatchState) (work other : WorkId) :
    (batchItem ctx request first state work).impl.urgency gauge other ≤
      state.impl.urgency gauge other + if first && other = work then 1 else 0 := by
  obtain ⟨change, htally, hbypassed⟩ := @batchItem_bypassed ctx request first state work
  unfold Impl.urgency
  rw [hbypassed]
  by_cases heq : other = work
  · subst heq
    rw [Function.update_self, decide_eq_true rfl, Bool.and_true]
    cases state.impl.bypassed other with
    | none => exact Nat.zero_le _
    | some shown => exact (htally shown.2).level hgauges shown.1
  · rw [Function.update_of_ne heq]
    exact Nat.le_add_right _ _

/-- Each item rises once in a pass that takes it once. -/
theorem foldl_urgency (hgauges : Gauges ceiling gauge) (first : Bool) {order : List WorkId} (hnodup : order.Nodup)
    (state : BatchState) (work : WorkId) :
    (order.foldl (batchItem ctx request first) state).impl.urgency gauge work ≤
      state.impl.urgency gauge work + if first && decide (work ∈ order) then 1 else 0 := by
  induction order generalizing state with
  | nil => exact Nat.le_add_right _ _
  | cons item rest ih =>
    obtain ⟨hnew, hrest⟩ := List.nodup_cons.mp hnodup
    have hturn := @batchItem_urgency ceiling gauge ctx request hgauges first state item work
    have hothers := ih hrest (batchItem ctx request first state item)
    rw [List.foldl_cons]
    by_cases heq : work = item
    · subst heq
      have hlast : (first && decide (work ∈ rest)) = false := by simp [hnew]
      rw [hlast] at hothers
      simp only [decide_true, Bool.and_true] at hturn
      simpa using hothers.trans hturn
    · have hfirst : (first && decide (work = item)) = false := by simp [heq]
      rw [hfirst] at hturn
      simp only [List.mem_cons, heq, false_or]
      exact hothers.trans (Nat.add_le_add_right hturn _)

/-- Later passes make nothing more urgent. -/
theorem batchPasses_urgency (hgauges : Gauges ceiling gauge) {candidates : List WorkId} (passes : Nat) (state : BatchState)
    (work : WorkId) :
    (batchPasses ctx request candidates passes false state).impl.urgency gauge work ≤ state.impl.urgency gauge work := by
  induction passes generalizing state with
  | zero => exact Nat.le_refl _
  | succ passes ih =>
    unfold batchPasses
    split
    · exact Nat.le_refl _
    · simp only
      split
      · exact Nat.le_refl _
      · let order := batchOrder state.impl false candidates
        let swept := order.foldl (batchItem ctx request false) { state with progress := false }
        have hswept : swept.impl.urgency gauge work ≤ state.impl.urgency gauge work :=
          List.foldlRecOn (motive := fun after : BatchState => after.impl.urgency gauge work ≤ state.impl.urgency gauge work)
            order _ (Nat.le_refl _) fun after hafter item _ => (batchItem_urgency hgauges false after item work).trans hafter
        change (if swept.progress then batchPasses ctx request candidates passes false swept else swept).impl.urgency gauge work ≤ _
        split
        · exact (ih swept).trans hswept
        · exact hswept

end Urgency

/-! ### Fair rounds -/

/-- The works that compete for a batch: its candidates, and what is due without being one. -/
def Impl.rivals (impl : Impl) (ceiling : Text → UInt32) (request : ScheduleRequest) : Set WorkId :=
  {work | work ∈ (batchCandidates impl request).map Prod.fst ∨
    ∃ record, impl.work[work]? = some record ∧ ceiling record.request.fairnessClass ≤ record.bypassCount}

/-- The candidate that a batch takes up first. -/
def System.front (system : System) (request : ScheduleRequest) : Option WorkId :=
  (batchOrder system.impl true ((batchCandidates system.impl request).map Prod.fst)).head?

/-- The work item can be placed now: planning binds it to an agent and the commit of that binding is accepted. -/
def System.CanPlace (system : System) (record : WorkRecord) : Prop :=
  ∃ binding impl, (planLocked system.context system.impl record).binding = some binding ∧
    commitLocked system.context system.impl record.request.id record.request.generation binding = .ok impl

/-- A batch under the given ceilings, with so many rivals, whose first candidate can be placed if it is due. -/
structure System.FairRound (system : System) (ceiling : Text → UInt32) (crowd : ℕ) (request : ScheduleRequest) : Prop where
  bounded : system.impl.policy.allowUnboundedStarvation = false
  ceilings : ∀ fairnessClass, bypassCeiling system.impl.policy fairnessClass = ceiling fairnessClass
  crowd : (system.impl.rivals ceiling request).encard ≤ crowd
  served : ∀ work record, system.front request = some work → system.impl.work[work]? = some record →
    ceiling record.request.fairnessClass ≤ record.bypassCount → request.dryRun = false ∧ system.CanPlace record

/-- Every batch of a run is a fair round. -/
def System.RunsFairly (ceiling : Text → UInt32) (crowd : ℕ) (system : System) (label : Label) : Prop :=
  ∀ request, label = .run (.scheduleBatch request) → system.BatchRuns request → system.FairRound ceiling crowd request

section Rounds
variable {ceiling : Text → UInt32} {gauge : Text → ℕ → ℕ} {crowd : ℕ} {system after : System} {request : ScheduleRequest}
  {impl : Impl}

/-- What is overdue at all has reached its ceiling. -/
theorem due_of_urgency (hgauges : Gauges ceiling gauge) {work : WorkId} (h : impl.urgency gauge work ≠ 0) :
    ∃ record, impl.work[work]? = some record ∧ ceiling record.request.fairnessClass ≤ record.bypassCount := by
  unfold Impl.urgency Impl.bypassed at h
  cases hrecord : impl.work[work]? with
  | none => simp [hrecord] at h
  | some record =>
    refine ⟨record, rfl, ?_⟩
    by_contra hbelow
    have hcount : record.bypassCount.toNat < (ceiling record.request.fairnessClass).toNat :=
      UInt32.lt_iff_toNat_lt.mp (UInt32.not_le.mp hbelow)
    simp [hrecord, hgauges.idle _ _ hcount] at h

theorem urgency_of_record {work : WorkId} {record : WorkRecord} (hrecord : impl.work[work]? = some record) :
    impl.urgency gauge work = gauge record.request.fairnessClass record.bypassCount.toNat := by
  simp [Impl.urgency, Impl.bypassed, hrecord]

namespace System.FairRound

theorem mustRun_iff (hround : system.FairRound ceiling crowd request) (record : WorkRecord) :
    (fairnessKey system.impl record).mustRun ↔ ceiling record.request.fairnessClass ≤ record.bypassCount := by
  simp [fairnessKey, hround.bounded, hround.ceilings]

theorem ratio (hround : system.FairRound ceiling crowd request) (hgauges : Gauges ceiling gauge) (record : WorkRecord) :
    (fairnessKey system.impl record).ratio =
      record.bypassCount.toNat * 1024 / (ceiling record.request.fairnessClass).toNat := by
  have hceiling : ceiling record.request.fairnessClass ≠ 0 := by
    intro hzero
    have hpositive := hgauges.positive record.request.fairnessClass
    rw [hzero] at hpositive
    exact Nat.lt_irrefl 0 hpositive
  simp [FairnessKey.ratio, fairnessKey, hround.ceilings, hceiling]

/-- No item of the first pass is more overdue than the first. -/
theorem urgent (hround : system.FairRound ceiling crowd request) (hgauges : Gauges ceiling gauge) {front : WorkId}
    {rest : List WorkId}
    (horder : batchOrder system.impl true ((batchCandidates system.impl request).map Prod.fst) = front :: rest)
    {work : WorkId} (hwork : work ∈ front :: rest) : system.impl.urgency gauge work ≤ system.impl.urgency gauge front := by
  rcases List.mem_cons.mp hwork with rfl | hrest
  · exact Nat.le_refl _
  · have hsorted := @pairwise_batchOrder system.impl true ((batchCandidates system.impl request).map Prod.fst)
    rw [horder] at hsorted
    obtain ⟨first, record, hfirst, hrecord, hbefore⟩ := (List.pairwise_cons.mp hsorted).1 work hrest
    by_cases hidle : system.impl.urgency gauge work = 0
    · exact hidle.trans_le (Nat.zero_le _)
    · obtain ⟨found, hfound, hdue⟩ := due_of_urgency hgauges hidle
      obtain rfl : record = found := Option.some.inj (hrecord.symm.trans hfound)
      obtain ⟨hmust, hratio⟩ := ratio_of_fairnessBefore hbefore ((hround.mustRun_iff record).mpr hdue)
      rw [hround.ratio hgauges, hround.ratio hgauges] at hratio
      rw [urgency_of_record hfirst, urgency_of_record hrecord]
      exact hgauges.follows _ _ _ _ (UInt32.le_iff_toNat_le.mp ((hround.mustRun_iff first).mp hmust))
        (UInt32.le_iff_toNat_le.mp hdue) hratio

/-- The first item is run if it is due. -/
theorem serves (hround : system.FairRound ceiling crowd request) (hruns : system.BatchRuns request)
    (hgauges : Gauges ceiling gauge) {front : WorkId} (hfront : system.front request = some front)
    (hdue : system.impl.urgency gauge front ≠ 0) :
    (batchItem system.context request true { impl := system.impl } front).impl.urgency gauge front = 0 := by
  obtain ⟨record, hrecord, hreached⟩ := due_of_urgency hgauges hdue
  obtain ⟨hdry, binding, committed, hplan, hcommit⟩ := hround.served front record hfront hrecord hreached
  have hturn : (batchItem system.context request true { impl := system.impl } front).impl =
      committed.modifyWork front fun record => { record with bypassCount := 0, starvationRounds := 0 } := by
    unfold batchItem
    simp only [hrecord]
    rw [if_neg (Nat.not_le.mpr hruns.room)]
    simp [hplan, hdry, hcommit]
  unfold Impl.urgency
  rw [hturn, bypassed_modifyWork committed front (fun _ => 0), Function.update_self]
  · cases committed.bypassed front with
    | none => rfl
    | some shown => exact hgauges.restart shown.1
  · exact fun _ => rfl
  · exact fun _ => rfl

end System.FairRound

/-- The passes of a batch that goes over the work are the rest of a round whose first pass is done. -/
theorem scheduleBatch_urgencies (hruns : system.BatchRuns request) : ∃ passes,
    (scheduleBatch system.context system.impl request).2.bypassed =
      (batchPasses system.context request ((batchCandidates system.impl request).map Prod.fst) (passes + 1) true
        { impl := system.impl }).impl.bypassed := by
  obtain ⟨passes, hlimit⟩ : ∃ passes, batchPassLimit system.impl request = passes + 1 :=
    Nat.exists_eq_succ_of_ne_zero (Nat.one_le_iff_ne_zero.mp (Nat.le_max_left 1 _))
  refine ⟨passes, ?_⟩
  rw [← hlimit]
  unfold scheduleBatch
  rw [if_neg (by simp [hruns.running, hruns.admission])]
  simp only
  rw [if_neg (Nat.not_lt.mpr hruns.examines)]
  rfl

/-- A batch that does not go over the work counts nothing. -/
theorem scheduleBatch_bypassed (h : ¬system.BatchRuns request) :
    (scheduleBatch system.context system.impl request).2.bypassed = system.impl.bypassed := by
  unfold scheduleBatch
  split
  · rfl
  · next hopen =>
    rw [not_or, not_not, not_not] at hopen
    simp only
    split
    · rfl
    · next hfew =>
      have hfull : request.maxAssignments.toNat ≤ 0 := by
        by_contra hroom
        exact h ⟨hopen.1, hopen.2, Nat.le_of_not_lt hfew, Nat.lt_of_not_le hroom⟩
      have hstays : ∀ passes, batchPasses system.context request ((batchCandidates system.impl request).map Prod.fst) passes true
          { impl := system.impl } = { impl := system.impl } := by
        intro passes
        cases passes with
        | zero => rfl
        | succ passes =>
          unfold batchPasses
          rw [if_pos hfull]
      rw [hstays]
      rfl

/-- A fair batch is a round that serves the most overdue of its candidates, or makes nothing more urgent. -/
theorem System.FairRound.round (hround : system.FairRound ceiling crowd request) (hruns : system.BatchRuns request)
    (hgauges : Gauges ceiling gauge) :
    (∀ work, (scheduleBatch system.context system.impl request).2.urgency gauge work ≤ system.impl.urgency gauge work) ∨
      ∃ front, Round (system.impl.urgency gauge) ((scheduleBatch system.context system.impl request).2.urgency gauge)
        {work | work ∈ (batchCandidates system.impl request).map Prod.fst} front := by
  obtain ⟨passes, hbypassed⟩ := scheduleBatch_urgencies hruns
  let candidates := (batchCandidates system.impl request).map Prod.fst
  have hafter : ∀ work, (scheduleBatch system.context system.impl request).2.urgency gauge work =
      (batchPasses system.context request candidates (passes + 1) true { impl := system.impl }).impl.urgency gauge work :=
    fun work => by rw [Impl.urgency, hbypassed, Impl.urgency]
  have hperm : (batchOrder system.impl true candidates).Perm candidates := batchOrder_perm knows_candidates
  have hnodup : (batchOrder system.impl true candidates).Nodup :=
    hperm.nodup_iff.mpr (nodup_candidates system.impl request)
  cases horder : batchOrder system.impl true candidates with
  | nil =>
    refine .inl fun work => ?_
    rw [hafter, batchPasses, if_neg (Nat.not_le.mpr hruns.room)]
    simp [horder]
  | cons front rest =>
    rw [horder] at hperm hnodup
    let swept := (front :: rest).foldl (batchItem system.context request true) { impl := system.impl }
    have hfinal : ∀ work, (batchPasses system.context request candidates (passes + 1) true
        { impl := system.impl }).impl.urgency gauge work ≤ swept.impl.urgency gauge work := by
      intro work
      unfold batchPasses
      rw [if_neg (Nat.not_le.mpr hruns.room)]
      simp only [horder, List.isEmpty_cons, Bool.false_eq_true, if_false]
      split
      · exact batchPasses_urgency hgauges passes _ work
      · exact Nat.le_refl _
    have hswept : ∀ work, swept.impl.urgency gauge work ≤
        system.impl.urgency gauge work + if decide (work ∈ front :: rest) then 1 else 0 :=
      fun work => foldl_urgency hgauges true hnodup { impl := system.impl } work
    refine .inr ⟨front, ⟨fun work => ?_, fun work hwork => ?_, fun work hwork => ?_, fun hdue => ?_⟩⟩
    · rw [hafter]
      refine ((hfinal work).trans (hswept work)).trans (Nat.add_le_add_left ?_ _)
      split <;> omega
    · have hwork : work ∉ front :: rest := fun hmem => hwork (hperm.mem_iff.mp hmem)
      rw [hafter]
      simpa [hwork] using (hfinal work).trans (hswept work)
    · exact hround.urgent hgauges horder (hperm.mem_iff.mpr hwork)
    · have hfront : system.front request = some front := by
        rw [System.front, horder]
        rfl
      have hserved := hround.serves hruns hgauges hfront hdue
      have hrest : swept.impl.urgency gauge front ≤ _ :=
        foldl_urgency hgauges true (List.nodup_cons.mp hnodup).2
          (batchItem system.context request true { impl := system.impl } front) front
      rw [hserved] at hrest
      rw [hafter]
      refine Nat.le_zero.mp ((hfinal front).trans (hrest.trans ?_))
      simp [(List.nodup_cons.mp hnodup).1]

/-- Only the rivals of a batch can be overdue after it. -/
theorem System.FairRound.overdue (hround : system.FairRound ceiling crowd request) (hruns : system.BatchRuns request)
    (hgauges : Gauges ceiling gauge) :
    {work | 0 < (scheduleBatch system.context system.impl request).2.urgency gauge work}.encard ≤ crowd := by
  refine (Set.encard_le_encard fun work hwork => ?_).trans hround.crowd
  have hwork : 0 < (scheduleBatch system.context system.impl request).2.urgency gauge work := hwork
  by_cases hcandidate : work ∈ (batchCandidates system.impl request).map Prod.fst
  · exact .inl hcandidate
  · refine .inr (due_of_urgency hgauges ?_)
    rcases hround.round hruns hgauges with hfalls | ⟨front, hserves⟩
    · exact Nat.ne_of_gt (Nat.lt_of_lt_of_le hwork (hfalls work))
    · exact Nat.ne_of_gt (Nat.lt_of_lt_of_le hwork (hserves.spared work hcandidate))

end Rounds

/-! ### Runs -/

section Runs
variable {ceiling : Text → UInt32} {gauge : Text → ℕ → ℕ} {crowd : ℕ} {system after : System} {label : Label} {reply : Reply}

/-- No operation but a batch passes work over. -/
theorem runOperation_calms (ctx : Context) (impl : Impl) {operation : Operation}
    (hbatch : ∀ request, operation ≠ .scheduleBatch request) : impl.Calms (runOperation ctx impl operation).2 := by
  cases operation with
  | start => exact .of_eq (start_bypassed _)
  | shutdown => exact .of_eq (shutdown_bypassed _)
  | setPolicy policy => exact .of_eq (setPolicy_bypassed _ _)
  | registerQueue queue generation fairnessClass weight => exact .of_eq (registerQueue_bypassed _ _ _ _ _)
  | publishCapabilities agent boot profile => exact .of_eq (publishCapabilities_bypassed _ _ _ _)
  | publishHealth agent boot observation => exact .of_eq (publishHealth_bypassed _ _ _ _)
  | publishAvailability agent boot observation => exact .of_eq (publishAvailability_bypassed _ _ _ _)
  | publishLoad agent boot observation => exact .of_eq (publishLoad_bypassed _ _ _ _)
  | heartbeat agent boot registrationGeneration => exact .of_eq (heartbeat_bypassed _ _ _ _)
  | drainAgent agent boot force => exact .of_eq (drainAgent_bypassed _ _ _ _)
  | deregisterAgent agent boot force => exact .of_eq (deregisterAgent_bypassed _ _ _ _)
  | supersedeWork work expectedGeneration replacement => exact supersedeWork_calms _ _ _ _
  | expireDeadlines => exact .of_eq (expireDeadlines_bypassed _)
  | scheduleBatch request => exact (hbatch request rfl).elim
  | acknowledge id generation dispatchId dispatchGeneration boot => exact .of_eq (acknowledge_bypassed _ _ _ _ _ _)
  | markExecuting id generation boot => exact .of_eq (markExecuting_bypassed _ _ _ _)
  | release id generation boot reason => exact .of_eq (release_bypassed _ _ _ _ _)
  | completeAssignment id generation boot => exact .of_eq (completeAssignment_bypassed _ _ _ _)
  | failAssignment id generation boot reason => exact .of_eq (failAssignment_bypassed _ _ _ _ _)
  | rejectAssignment id generation boot reason => exact .of_eq (rejectAssignment_bypassed _ _ _ _ _)
  | revalidateAssignments => exact .of_eq (revalidateAssignments_bypassed _)
  | revalidateAgentAssignments agent boot => exact .of_eq (revalidateAgentAssignments_bypassed _ _ _)
  | expireLeases => exact .of_eq (bypassed_closeWhere _ _ _ _ _)

theorem finishCall_calms (ctx : Context) (impl : Impl) (call : Call) : impl.Calms (finishCall ctx impl call).2 := by
  cases call with
  | schedule plan => exact .of_eq (scheduleCommit_bypassed _ _ _ _ _)
  | dispatch id generation => exact .of_eq (dispatchCommit_bypassed _ _ _)
  | registerAgent descriptor => exact .of_eq (registerAgentCommit_bypassed _ _)
  | submitWork request => exact submitWorkCommit_calms _ _
  | cancelWork work generation reason => exact .of_eq (cancelWorkCommit_bypassed _ _ _ _)
  | declareAgentLost agent boot reason => exact .of_eq (declareAgentLostCommit_bypassed _ _ _ _)

/-- A fair run keeps the urgencies of an instance staggered. -/
theorem System.RunsFairly.staggered (hgauges : Gauges ceiling gauge) (hfair : system.RunsFairly ceiling crowd label)
    (hstep : system.step label = some (reply, after)) (h : Staggered crowd (system.impl.urgency gauge))
    (hsaved : ∀ file ∈ system.saved, Staggered crowd (file.urgency gauge)) :
    Staggered crowd (after.impl.urgency gauge) := by
  have hcalm : ∀ impl, system.impl.Calms impl → Staggered crowd (impl.urgency gauge) :=
    fun impl hcalms => h.falls (hcalms.urgency hgauges)
  cases label with
  | tick now =>
    simp only [System.step] at hstep
    split at hstep
    · obtain ⟨-, rfl⟩ := Option.some.inj hstep
      exact h
    · cases hstep
  | provide feasibility =>
    obtain ⟨-, rfl⟩ := Option.some.inj hstep
    exact h
  | run operation =>
    obtain ⟨-, rfl⟩ := Option.some.inj hstep
    by_cases hbatch : ∃ request, operation = .scheduleBatch request
    · obtain ⟨request, rfl⟩ := hbatch
      by_cases hruns : system.BatchRuns request
      · have hround := hfair request rfl hruns
        rcases hround.round hruns hgauges with hfalls | ⟨front, hserves⟩
        · exact h.falls hfalls
        · exact h.round hserves (hround.overdue hruns hgauges)
      · exact hcalm _ (.of_eq (scheduleBatch_bypassed hruns))
    · exact hcalm _ (runOperation_calms _ _ fun request heq => hbatch ⟨request, heq⟩)
  | «begin» request =>
    simp only [System.step] at hstep
    split at hstep <;> obtain ⟨-, rfl⟩ := Option.some.inj hstep <;> exact h
  | finish position =>
    simp only [System.step] at hstep
    split at hstep
    · cases hstep
    · next call hcall =>
      obtain ⟨-, rfl⟩ := Option.some.inj hstep
      exact hcalm _ (finishCall_calms _ _ _)
  | save =>
    obtain ⟨-, rfl⟩ := Option.some.inj hstep
    exact h
  | load position =>
    simp only [System.step] at hstep
    split at hstep
    · cases hstep
    · next file hfile =>
      split at hstep
      · obtain ⟨-, rfl⟩ := Option.some.inj hstep
        exact h
      · obtain ⟨-, rfl⟩ := Option.some.inj hstep
        refine (hsaved file (List.mem_of_getElem? hfile)).falls fun work => ?_
        exact Impl.Calms.urgency (.of_eq (bypassed_restore _ _)) hgauges work
  | restart options generatedId =>
    simp only [System.step, Option.map_eq_some_iff] at hstep
    obtain ⟨impl, hconstruct, heq⟩ := hstep
    obtain ⟨-, rfl⟩ := Prod.mk.inj heq
    refine Staggered.of_idle fun work => ?_
    rw [Impl.urgency, bypassed_construct hconstruct]
    rfl

theorem System.ReachableBy.staggered (hgauges : Gauges ceiling gauge)
    (h : system.ReachableBy (System.RunsFairly ceiling crowd)) : Staggered crowd (system.impl.urgency gauge) := by
  refine (System.ReachableBy.keeps (motive := fun system => Staggered crowd (system.impl.urgency gauge) ∧
    ∀ file ∈ system.saved, Staggered crowd (file.urgency gauge)) h (fun start hstart => ?_)
    fun s s' label reply hvalid hfair hstep hinv => ?_).1
  · obtain ⟨options, generatedId, now, hstart⟩ := hstart
    obtain ⟨impl, hconstruct, rfl⟩ := Option.map_eq_some_iff.mp hstart
    refine ⟨Staggered.of_idle fun work => ?_, fun _ hfile => (List.not_mem_nil hfile).elim⟩
    rw [Impl.urgency, bypassed_construct hconstruct]
    rfl
  · refine ⟨hfair.staggered hgauges hstep hinv.1 hinv.2, fun file hfile => ?_⟩
    rcases (System.step_frame hstep).saved file hfile with hold | rfl
    · exact hinv.2 file hold
    · exact hinv.1

/-! ### The bounds -/

/-- Rounds beyond a ceiling that all classes share. -/
theorem gauges_excess {common : UInt32} (hpositive : 0 < common) (hfine : common.toNat ≤ 1024) :
    Gauges (fun _ => common) fun _ count => count + 1 - common.toNat where
  positive _ := UInt32.lt_iff_toNat_lt.mp hpositive
  idle _ count hbelow := by omega
  grows _ _ _ hle := by
    simp only
    omega
  rises _ count := by omega
  follows _ count _ count' _ _ hratio := by
    have hcommon : 0 < common.toNat := UInt32.lt_iff_toNat_lt.mp hpositive
    have hle : count' ≤ count := by
      by_contra hmore
      have hgap : count * 1024 + common.toNat ≤ count' * 1024 := by omega
      have hdiv := Nat.div_le_div_right (c := common.toNat) hgap
      rw [Nat.add_div_right _ hcommon] at hdiv
      omega
    omega

private theorem steps_of_le {later sooner step : ℕ} (h : later ≤ sooner + (step + 1)) :
    (later + (step + 1) - 1024) / (step + 1) ≤ (sooner + (step + 1) - 1024) / (step + 1) + 1 := by
  rw [← Nat.add_div_right _ (Nat.succ_pos step)]
  apply Nat.div_le_div_right
  omega

/-- Pressure beyond the ceiling, in steps that no round outgrows. -/
theorem gauges_pressure {low : ℕ} (hlow : 0 < low) (hceilings : ∀ fairnessClass, low ≤ (ceiling fairnessClass).toNat) :
    Gauges ceiling fun fairnessClass count =>
      (count * 1024 / (ceiling fairnessClass).toNat + (1024 / low + 1) - 1024) / (1024 / low + 1) where
  positive fairnessClass := Nat.lt_of_lt_of_le hlow (hceilings fairnessClass)
  idle fairnessClass count hbelow := by
    have hpressure : count * 1024 / (ceiling fairnessClass).toNat < 1024 := by
      apply Nat.div_lt_of_lt_mul
      omega
    apply Nat.div_eq_of_lt
    generalize 1024 / low = step
    omega
  grows fairnessClass count count' hle := by
    have hpressure : count * 1024 / (ceiling fairnessClass).toNat ≤ count' * 1024 / (ceiling fairnessClass).toNat :=
      Nat.div_le_div_right (Nat.mul_le_mul_right 1024 hle)
    apply Nat.div_le_div_right
    omega
  rises fairnessClass count := by
    have hstep : 1024 / (ceiling fairnessClass).toNat ≤ 1024 / low := Nat.div_le_div_left (hceilings fairnessClass) hlow
    have hpressure : (count + 1) * 1024 / (ceiling fairnessClass).toNat ≤
        count * 1024 / (ceiling fairnessClass).toNat + (1024 / low + 1) := by
      rw [Nat.add_mul, Nat.one_mul, Nat.add_div (Nat.lt_of_lt_of_le hlow (hceilings fairnessClass))]
      split <;> omega
    exact steps_of_le hpressure
  follows fairnessClass count other count' _ _ hratio := by
    apply Nat.div_le_div_right
    omega

/-- Where all classes share a ceiling, no work is passed over as often as the ceiling and the number of rivals together. -/
theorem bypass_bounded {common : UInt32} {work : WorkId} {record : WorkRecord} (hpositive : 0 < common)
    (hfine : common.toNat ≤ 1024) (hreach : system.ReachableBy (System.RunsFairly (fun _ => common) crowd))
    (hrecord : system.impl.work[work]? = some record) : record.bypassCount.toNat < common.toNat + crowd := by
  have hbound := (hreach.staggered (gauges_excess hpositive hfine)).bound work
  rw [urgency_of_record hrecord] at hbound
  omega

/-- Where the ceilings of the classes differ, the pressure of every work item stays within one step for each rival. -/
theorem bypass_pressure_bounded {low : ℕ} {work : WorkId} {record : WorkRecord} (hlow : 0 < low)
    (hceilings : ∀ fairnessClass, low ≤ (ceiling fairnessClass).toNat)
    (hreach : system.ReachableBy (System.RunsFairly ceiling crowd)) (hrecord : system.impl.work[work]? = some record) :
    record.bypassCount.toNat * 1024 / (ceiling record.request.fairnessClass).toNat < 1024 + crowd * (1024 / low + 1) := by
  have hbound := (hreach.staggered (gauges_pressure hlow hceilings)).bound work
  rw [urgency_of_record hrecord] at hbound
  have hstep : 0 < 1024 / low + 1 := Nat.succ_pos _
  have hpressure := Nat.lt_succ_of_le hbound
  rw [Nat.succ_eq_add_one, Nat.div_lt_iff_lt_mul hstep, Nat.add_mul] at hpressure
  omega


end Runs

/-! ### Concrete runs -/

namespace Sample

/-- Work of a class is due once it was passed over so often. -/
def impatient : PolicySnapshot := { id := 1, generation := 2, maxPriorityBypass := 1 }

/-- Bulk work is due sooner. -/
def weighted : PolicySnapshot :=
  { id := 1, generation := 2, maxPriorityBypass := 2, fairnessClassWeights := [⟨"default", 1⟩, ⟨"bulk", 2⟩] }

/-- A second work item. -/
def bulkWork : WorkRequest := { exclusiveWork with id := 6, fairnessClass := "bulk" }

/-- The batch is a fair round under a policy, among so many stored works. -/
def Fair (policy : PolicySnapshot) (crowd : ℕ) (system : System) : Label → Bool
  | .run (.scheduleBatch request) =>
    decide (system.impl.policy = policy) && !policy.allowUnboundedStarvation && decide (system.impl.work.size ≤ crowd) &&
      match system.front request with
      | none => true
      | some work =>
        match system.impl.work[work]? with
        | none => true
        | some record =>
          decide (record.bypassCount < bypassCeiling policy record.request.fairnessClass) ||
            !request.dryRun &&
              match (planLocked system.context system.impl record).binding with
              | none => false
              | some binding =>
                (commitLocked system.context system.impl record.request.id record.request.generation binding).isOk
  | _ => true

theorem Fair.runsFairly {policy : PolicySnapshot} {crowd : ℕ} {system : System} {label : Label}
    (h : Fair policy crowd system label) : system.RunsFairly (bypassCeiling policy) crowd label := by
  rintro request rfl hruns
  simp only [Fair, Bool.and_eq_true, decide_eq_true_eq, Bool.not_eq_true'] at h
  obtain ⟨⟨⟨rfl, hbounded⟩, hsize⟩, hserved⟩ := h
  refine ⟨hbounded, fun _ => rfl, ?_, fun work record hfront hrecord hdue => ?_⟩
  · have hstored : system.impl.rivals (bypassCeiling system.impl.policy) request ⊆ keySet system.impl.work := by
      rintro work (hcandidate | ⟨record, hrecord, -⟩)
      · exact Option.isSome_iff_ne_none.mpr (knows_candidates work hcandidate)
      · exact Option.isSome_iff_exists.mpr ⟨record, hrecord⟩
    refine (Set.encard_le_encard hstored).trans ?_
    rw [encard_keySet]
    exact_mod_cast hsize
  · simp only [hfront, hrecord, Bool.or_eq_true, decide_eq_true_eq, Bool.and_eq_true, Bool.not_eq_true'] at hserved
    obtain ⟨hdry, hplaced⟩ := hserved.resolve_left (UInt32.not_lt.mpr hdue)
    refine ⟨hdry, ?_⟩
    split at hplaced
    · cases hplaced
    · next binding hplan =>
      cases hcommit : commitLocked system.context system.impl record.request.id record.request.generation binding with
      | error rejection =>
        rw [hcommit] at hplaced
        cases hplaced
      | ok impl => exact ⟨binding, impl, hplan, hcommit⟩

/-- Two works are passed over while no agent is there, and compete when one is. -/
def contention (policy : PolicySnapshot) : List Label :=
  [.run (.setPolicy policy)] ++ submit exclusiveWork ++ submit bulkWork ++ [.run (.scheduleBatch {})] ++ enlist ++
    [.run (.scheduleBatch {})]

/-- How often the two works were passed over. -/
def counts (system : System) : Option UInt32 × Option UInt32 :=
  ((system.impl.work[(5 : WorkId)]?).map WorkRecord.bypassCount, (system.impl.work[(6 : WorkId)]?).map WorkRecord.bypassCount)

end Sample

set_option maxRecDepth 100000 in
/-- The older of two works that are both due is run, and the other reaches the bound. -/
theorem bypass_bounded_sample : ∃ system record,
    Sample.run (fun system label => Sample.Fair Sample.impatient 2 system label) (Sample.contention Sample.impatient) = some system ∧
      system.impl.work[(6 : WorkId)]? = some record ∧ record.bypassCount = 2 ∧
      record.bypassCount.toNat < (1 : UInt32).toNat + 2 := by
  have hview : (Sample.run (fun system label => Sample.Fair Sample.impatient 2 system label)
      (Sample.contention Sample.impatient)).map Sample.counts = some (some 0, some 2) := by
    decide +kernel
  obtain ⟨system, hsystem, hread⟩ := Option.map_eq_some_iff.mp hview
  obtain ⟨record, hrecord, hcount⟩ := Option.map_eq_some_iff.mp (Prod.mk.inj hread).2
  have hceiling : bypassCeiling Sample.impatient = fun _ => 1 := by
    funext fairnessClass
    simp [bypassCeiling, fairnessClassWeight, Sample.impatient]
  have hreach : system.ReachableBy (System.RunsFairly (fun _ => 1) 2) :=
    (Sample.run_reaches hsystem).mono fun _ _ hfair => hceiling ▸ Sample.Fair.runsFairly hfair
  exact ⟨system, record, hsystem, hrecord, hcount, bypass_bounded (by decide) (by decide) hreach hrecord⟩

set_option maxRecDepth 100000 in
/-- Bulk work is due first and run, and the other is passed over once more. -/
theorem bypass_pressure_bounded_sample : ∃ system record,
    Sample.run (fun system label => Sample.Fair Sample.weighted 2 system label) (Sample.contention Sample.weighted) = some system ∧
      system.impl.work[(5 : WorkId)]? = some record ∧ record.bypassCount = 2 ∧
      record.bypassCount.toNat * 1024 / (bypassCeiling Sample.weighted record.request.fairnessClass).toNat <
        1024 + 2 * (1024 / 1 + 1) := by
  have hview : (Sample.run (fun system label => Sample.Fair Sample.weighted 2 system label)
      (Sample.contention Sample.weighted)).map Sample.counts = some (some 2, some 0) := by
    decide +kernel
  obtain ⟨system, hsystem, hread⟩ := Option.map_eq_some_iff.mp hview
  obtain ⟨record, hrecord, hcount⟩ := Option.map_eq_some_iff.mp (Prod.mk.inj hread).1
  have hceilings : ∀ fairnessClass, 1 ≤ (bypassCeiling Sample.weighted fairnessClass).toNat := by
    intro fairnessClass
    have hone : 1 ≤ bypassCeiling Sample.weighted fairnessClass := one_le_bypassCeiling (by decide) fairnessClass
    exact UInt32.le_iff_toNat_le.mp hone
  have hreach : system.ReachableBy (System.RunsFairly (bypassCeiling Sample.weighted) 2) :=
    (Sample.run_reaches hsystem).mono fun _ _ hfair => Sample.Fair.runsFairly hfair
  exact ⟨system, record, hsystem, hrecord, hcount, bypass_pressure_bounded (by decide) hceilings hreach hrecord⟩

end AgentScheduler
