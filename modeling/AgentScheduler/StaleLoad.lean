import AgentScheduler.Scoring

/-! Load evidence that is not fresh steers a plan only through the warm state keys that the work asks for. -/
namespace AgentScheduler
open Std KeyedTable

/-! ### Changing the load observations -/

def AgentRecord.withLoad (record : AgentRecord) (observation : LoadObservation) : AgentRecord :=
  { record with loadObservation := observation }

/-- The state with other load observations and nothing else changed. -/
def Impl.withLoads (impl : Impl) (observe : AgentId → LoadObservation) : Impl :=
  { impl with agents := impl.agents.map fun agent record => record.withLoad (observe agent) }

/-- The observation of this agent is the same, or fresh neither before nor after. -/
def Stale (now : UInt64) (impl : Impl) (record : AgentRecord) (observation : LoadObservation) : Prop :=
  observation = record.loadObservation ∨
    loadFresh now impl record = false ∧ loadFresh now impl (record.withLoad observation) = false

/-- The observations that change are those of agents whose load evidence is not fresh. -/
def OnlyStale (now : UInt64) (impl : Impl) (observe : AgentId → LoadObservation) : Prop :=
  ∀ (agent : AgentId) (record : AgentRecord), impl.agents[agent]? = some record → Stale now impl record (observe agent)

/-- The number of the requested warm state keys that the agent reports. -/
def warmMatches (work : WorkRecord) (record : AgentRecord) : Nat :=
  work.request.requirements.warmStateKeys.countP record.loadObservation.warmStateKeys.contains

/-- How warm the agent reports to be for the work: the share of the requested keys, in thousandths, and whether there is
any of them; nothing if no keys are requested. -/
def warmth (work : WorkRecord) (record : AgentRecord) : Option (Int × Bool) :=
  let keys := work.request.requirements.warmStateKeys
  if keys.isEmpty then none
  else some (ratio (UInt64.ofNat (warmMatches work record)) (UInt64.ofNat keys.length), decide (0 < warmMatches work record))

section Loads
variable {ctx : Context} {impl : Impl} {work : WorkRecord} {record : AgentRecord} {observation : LoadObservation}
  {observe : AgentId → LoadObservation}

/-- Hard eligibility does not look at load evidence that is not fresh. -/
theorem eligibility_withLoad (h : Stale ctx.now impl record observation) (feasibility : ExternalFeasibilityResult) :
    eligibility ctx.now impl work (record.withLoad observation) feasibility = eligibility ctx.now impl work record feasibility := by
  have hplacement : checkPlacement ctx.now impl work (record.withLoad observation) = checkPlacement ctx.now impl work record := by
    rcases h with rfl | ⟨hbefore, hafter⟩
    · rfl
    · unfold checkPlacement
      by_cases hwarm : work.request.requirements.requireWarmState
      · simp only [hwarm, hbefore, hafter]
        rfl
      · simp only [hwarm]
        rfl
  unfold eligibility
  simp only [hplacement]
  rfl

theorem loadFactors_withLoad (h : Stale ctx.now impl record observation) :
    loadFactors ctx.now impl work (record.withLoad observation) = loadFactors ctx.now impl work record := by
  rcases h with rfl | ⟨hbefore, hafter⟩
  · rfl
  · unfold loadFactors
    simp only [hbefore, hafter, Bool.false_eq_true, if_false]

theorem ratio_bounds (numerator denominator : UInt64) : 0 ≤ ratio numerator denominator ∧ ratio numerator denominator ≤ 1000 := by
  unfold ratio
  split
  · exact ⟨le_rfl, by decide⟩
  · next hzero =>
    split
    · exact ⟨by decide, le_rfl⟩
    · next hlt =>
      rw [UInt64.le_iff_toNat_le, Nat.not_le] at hlt
      refine ⟨Int.natCast_nonneg _, ?_⟩
      rw [UInt64.toNat_div, UInt64.toNat_mul]
      have hwrapped : numerator.toNat * (1000 : UInt64).toNat % 2 ^ 64 ≤ numerator.toNat * 1000 := Nat.mod_le _ _
      have hle : numerator.toNat * (1000 : UInt64).toNat % 2 ^ 64 / denominator.toNat ≤ 1000 :=
        Nat.div_le_of_le_mul (hwrapped.trans (Nat.mul_le_mul_right 1000 hlt.le))
      exact_mod_cast hle

/-- The handoff cost in thousandths. -/
theorem handoff_bounds (matched : Nat) : (0 : Int) ≤ (if 0 < matched then 1000 else 0) ∧ (if 0 < matched then (1000 : Int) else 0) ≤ 1000 := by
  split <;> decide

theorem handoff_inj {matched matched' : Nat} (h : (if 0 < matched then (1000 : Int) else 0) = if 0 < matched' then 1000 else 0) :
    0 < matched ↔ 0 < matched' := by
  split at h <;> split at h <;> simp_all

theorem factorScore_inj {policy : PolicySnapshot} {name note note' : Text} {value value' : Int} (hvalue : 0 ≤ value)
    (hvalue' : 0 ≤ value') (h : factorScore policy name value note = factorScore policy name value' note') : value = value' := by
  unfold factorScore at h
  rw [if_neg hvalue.not_gt, if_neg hvalue'.not_gt] at h
  exact congrArg FactorScore.rawValue h

/-- The affinity factors read the load observation for the warmth alone. -/
theorem affinityFactors_withLoad_iff :
    affinityFactors ctx.now impl work (record.withLoad observation) = affinityFactors ctx.now impl work record ↔
      warmth work (record.withLoad observation) = warmth work record := by
  unfold affinityFactors warmth
  by_cases hkeys : work.request.requirements.warmStateKeys.isEmpty
  · simp only [hkeys, if_true]
    exact ⟨fun _ => trivial, fun _ => rfl⟩
  · simp only [hkeys, Bool.false_eq_true, if_false]
    constructor
    · intro hfactors
      have hwarm := List.append_inj_left hfactors rfl
      obtain ⟨haffinity, hrest⟩ := List.cons.inj hwarm
      obtain ⟨hhandoff, -⟩ := List.cons.inj hrest
      have hratio := factorScore_inj (ratio_bounds _ _).1 (ratio_bounds _ _).1 haffinity
      have hany := factorScore_inj (handoff_bounds _).1 (handoff_bounds _).1 hhandoff
      exact congrArg some (Prod.ext hratio (decide_eq_decide.mpr (handoff_inj hany)))
    · intro hwarmth
      obtain ⟨hratio, hany⟩ := Prod.mk.inj (Option.some.inj hwarmth)
      rw [decide_eq_decide] at hany
      change [factorScore _ _ (ratio (UInt64.ofNat (warmMatches _ _)) _) _, factorScore _ _ (if 0 < warmMatches _ _ then _ else _) _] ++ _ = _
      rw [hratio]
      simp only [hany]
      rfl

theorem evaluateEligibility_withLoad (h : Stale ctx.now impl record observation) (feasibility : ExternalFeasibilityResult) :
    evaluateEligibility ctx.now impl work (record.withLoad observation) feasibility =
      evaluateEligibility ctx.now impl work record feasibility := by
  unfold evaluateEligibility
  rw [eligibility_withLoad h]
  rfl

theorem factorsOf_withLoad_iff (h : Stale ctx.now impl record observation) :
    factorsOf ctx impl work (record.withLoad observation) = factorsOf ctx impl work record ↔
      warmth work (record.withLoad observation) = warmth work record := by
  have hcapacity : capacityFactors impl work (record.withLoad observation)
      ((record.withLoad observation).descriptor.maxConcurrency.toNat - (record.withLoad observation).activeAssignments) =
      capacityFactors impl work record (record.descriptor.maxConcurrency.toNat - record.activeAssignments) := rfl
  have hhistory : historyFactors impl (record.withLoad observation) (evaluateFeasibility ctx work) =
      historyFactors impl record (evaluateFeasibility ctx work) := rfl
  rw [← @affinityFactors_withLoad_iff ctx impl]
  unfold factorsOf
  rw [hcapacity, hhistory, loadFactors_withLoad h, List.append_left_inj, List.append_left_inj, List.append_right_inj]

/-- The score is computed from the factors alone. -/
def scored (evaluation : CandidateEvaluation) (factors : List FactorScore) : CandidateEvaluation :=
  { evaluation with
    factors := factors
    knownWeight := ((factors.filter fun factor => factor.status = .known).map FactorScore.weight).sum
    totalWeight := UInt32.ofNat (min (totalOf factors) 0xFFFFFFFF)
    score := if totalOf factors = 0 then 0 else weightedOf factors / totalOf factors }

theorem candidateOf_eq_scored (h : impl.Qualifies ctx work record) : candidateOf ctx impl work record =
    scored (evaluateEligibility ctx.now impl work record (evaluateFeasibility ctx work)) (factorsOf ctx impl work record) := by
  unfold Impl.Qualifies at h
  unfold candidateOf evaluateEligibility
  rw [h]
  rfl

/-- Other stale load evidence leaves the evaluation of an agent as it is, unless the agent qualifies and reports another warmth. -/
theorem candidateOf_withLoad_iff (h : Stale ctx.now impl record observation) :
    candidateOf ctx impl work (record.withLoad observation) = candidateOf ctx impl work record ↔
      (impl.Qualifies ctx work record → warmth work (record.withLoad observation) = warmth work record) := by
  by_cases hqualifies : impl.Qualifies ctx work record
  · have hqualifies' : impl.Qualifies ctx work (record.withLoad observation) := by
      unfold Impl.Qualifies
      rw [eligibility_withLoad h]
      exact hqualifies
    rw [← factorsOf_withLoad_iff h, candidateOf_eq_scored hqualifies, candidateOf_eq_scored hqualifies',
      evaluateEligibility_withLoad h]
    constructor
    · intro hsame _
      exact congrArg CandidateEvaluation.factors hsame
    · intro hfactors
      rw [hfactors hqualifies]
  · refine ⟨fun _ hqualified => absurd hqualified hqualifies, fun _ => ?_⟩
    unfold candidateOf
    rw [evaluateEligibility_withLoad h]
    have hineligible : ¬(evaluateEligibility ctx.now impl work record (evaluateFeasibility ctx work)).eligible := by
      rw [eligible_iff]
      exact hqualifies
    simp only [hineligible, Bool.false_eq_true, if_false]

/-! ### Plans -/

/-- Every eligible agent reports the same warmth with the other load observations, if anyone is looked at at all. -/
def SameWarmth (ctx : Context) (impl : Impl) (observe : AgentId → LoadObservation) (work : WorkRecord) : Prop :=
  planGates ctx.now impl work = .ok () → ∀ (agent : AgentId) (record : AgentRecord), impl.agents[agent]? = some record →
    impl.Qualifies ctx work record → warmth work (record.withLoad (observe agent)) = warmth work record

theorem evaluateCandidates_withLoads : evaluateCandidates ctx (impl.withLoads observe) work =
    impl.agents.toList.map fun entry => candidateOf ctx impl work (entry.2.withLoad (observe entry.1)) := by
  rw [evaluateCandidates_eq, values_eq]
  change List.map _ (List.map Prod.snd (ExtTreeMap.toList (impl.agents.map _))) = _
  rw [ExtTreeMap.toList_map, List.map_map, List.map_map]
  rfl

theorem evaluateCandidates_withLoads_iff (h : OnlyStale ctx.now impl observe) :
    evaluateCandidates ctx (impl.withLoads observe) work = evaluateCandidates ctx impl work ↔
      ∀ (agent : AgentId) (record : AgentRecord), impl.agents[agent]? = some record → impl.Qualifies ctx work record →
        warmth work (record.withLoad (observe agent)) = warmth work record := by
  rw [evaluateCandidates_withLoads, evaluateCandidates_eq, values_eq, List.map_map, List.map_inj_left]
  constructor
  · intro hsame agent record hrecord
    refine (candidateOf_withLoad_iff (h agent record hrecord)).mp ?_
    exact hsame (agent, record) (ExtTreeMap.mem_toList_iff_getElem?_eq_some.mpr hrecord)
  · rintro hwarmth ⟨agent, record⟩ hmem
    have hrecord := ExtTreeMap.mem_toList_iff_getElem?_eq_some.mp hmem
    exact (candidateOf_withLoad_iff (h agent record hrecord)).mpr (hwarmth agent record hrecord)

/-- A plan depends on the load observations through the evaluations only. -/
theorem planLocked_withLoads (h : planGates ctx.now impl work = .ok () →
      evaluateCandidates ctx (impl.withLoads observe) work = evaluateCandidates ctx impl work) :
    planLocked ctx (impl.withLoads observe) work = planLocked ctx impl work := by
  have hgates : planGates ctx.now (impl.withLoads observe) work = planGates ctx.now impl work := rfl
  unfold planLocked
  rw [hgates]
  cases hgates : planGates ctx.now impl work with
  | error rejection => rfl
  | ok _ =>
    simp only
    rw [h hgates]
    cases rankingOrder (evaluateCandidates ctx impl work) with
    | nil => rfl
    | cons winner rest =>
      simp only
      have hagents : ∀ agent : AgentId, (impl.withLoads observe).agents[agent]? =
          (impl.agents[agent]?).map fun record => record.withLoad (observe agent) := fun agent => getElem?_map _ _ agent
      rw [hagents]
      cases impl.agents[((withRanks (evaluateCandidates ctx impl work) (winner :: rest)).getD winner {}).agent]? <;> rfl

/-- The plan is the same exactly if the eligible agents report the same warmth. -/
theorem planLocked_withLoads_iff (h : OnlyStale ctx.now impl observe) :
    planLocked ctx (impl.withLoads observe) work = planLocked ctx impl work ↔ SameWarmth ctx impl observe work := by
  constructor
  · intro hplan hgates
    have hgates' : planGates ctx.now (impl.withLoads observe) work = .ok () := hgates
    have hcandidates := congrArg (fun plan => plan.decision.candidates.map CandidateEvaluation.unranked) hplan
    simp only [unranked_candidates hgates, unranked_candidates hgates'] at hcandidates
    exact (evaluateCandidates_withLoads_iff h).mp hcandidates
  · exact fun hwarmth => planLocked_withLoads fun hgates => (evaluateCandidates_withLoads_iff h).mpr (hwarmth hgates)

/-! ### Weights that make one factor the score -/

/-- The state under other ranking weights. -/
def Impl.reweigh (impl : Impl) (weights : List RankingWeight) : Impl :=
  { impl with policy := { impl.policy with rankingWeights := weights } }

theorem weightOf_single (policy : PolicySnapshot) (name factor : Text) (h : policy.rankingWeights = [⟨name, 1⟩]) :
    weightOf policy factor = if factor = name then 1 else 0 := by
  unfold weightOf
  rw [h]
  by_cases hname : name = factor
  · simp [hname]
  · simp [hname, Ne.symm hname]

/-- Where one name alone has weight, and each name occurs once, the factor of that name is the average. -/
theorem sums_of_single {factors : List FactorScore} {name : Text} (hnodup : (factors.map FactorScore.name).Nodup)
    (hweights : ∀ factor ∈ factors, factor.weight = if factor.name = name then 1 else 0) :
    (name ∉ factors.map FactorScore.name → totalOf factors = 0 ∧ weightedOf factors = 0) ∧
    ∀ factor ∈ factors, factor.name = name → factor.status = .known →
      totalOf factors = 1 ∧ weightedOf factors = factor.normalizedValue := by
  induction factors with
  | nil => exact ⟨fun _ => ⟨rfl, rfl⟩, fun _ h => nomatch h⟩
  | cons first rest ih =>
    obtain ⟨hfirst, hrest⟩ := List.nodup_cons.mp hnodup
    obtain ⟨hweight, hweights⟩ := List.forall_mem_cons.mp hweights
    obtain ⟨hnone, hsome⟩ := ih hrest hweights
    rw [totalOf_cons, weightedOf_cons]
    constructor
    · intro habsent
      rw [List.map_cons, List.mem_cons, not_or] at habsent
      rw [if_neg (Ne.symm habsent.1)] at hweight
      obtain ⟨htotal, hweighted⟩ := hnone habsent.2
      simp [hweight, htotal, hweighted]
    · intro factor hmem hname hknown
      rcases List.mem_cons.mp hmem with rfl | hmem
      · rw [if_pos hname] at hweight
        obtain ⟨htotal, hweighted⟩ := hnone (hname ▸ hfirst)
        simp [hweight, htotal, hweighted, hknown]
      · have hne : first.name ≠ name := fun heq => hfirst (heq ▸ hname ▸ List.mem_map_of_mem hmem)
        rw [if_neg hne] at hweight
        obtain ⟨htotal, hweighted⟩ := hsome factor hmem hname hknown
        simp [hweight, htotal, hweighted]

set_option maxRecDepth 100000 in
theorem nodup_factorNames : factorNames.Nodup := by decide +kernel

theorem score_of_single {name note : Text} {value : Int} (h : impl.policy.rankingWeights = [⟨name, 1⟩])
    (hqualifies : impl.Qualifies ctx work record) (hvalue : 0 ≤ value) (hbound : value ≤ 1000)
    (hmem : factorScore impl.policy name value note ∈ factorsOf ctx impl work record) :
    (candidateOf ctx impl work record).score = value := by
  have hnodup : ((factorsOf ctx impl work record).map FactorScore.name).Nodup := by
    rw [adds_factorsOf.names]
    exact nodup_factorNames
  have hweights : ∀ factor ∈ factorsOf ctx impl work record, factor.weight = if factor.name = name then 1 else 0 := by
    intro factor hfactor
    obtain ⟨other, value, note, rfl⟩ := adds_factorsOf.added factor hfactor
    rw [factorScore_name, ← weightOf_single impl.policy name other h]
    unfold factorScore
    split <;> rfl
  have hfactor : factorScore impl.policy name value note =
      { name, status := .known, rawValue := value, normalizedValue := min value 1000, weight := weightOf impl.policy name, note } := by
    unfold factorScore
    rw [if_neg hvalue.not_gt]
  obtain ⟨htotal, hweighted⟩ := (sums_of_single hnodup hweights).2 _ hmem (factorScore_name _ _ _ _) (by rw [hfactor])
  rw [(candidateOf_scored hqualifies).2.2.2, htotal, hweighted, hfactor]
  simp only [min_eq_left hbound]
  omega

theorem warm_factors_mem (hkeys : work.request.requirements.warmStateKeys.isEmpty = false) :
    factorScore impl.policy "warm_state_affinity" (ratio (UInt64.ofNat (warmMatches work record))
      (UInt64.ofNat work.request.requirements.warmStateKeys.length)) "warm state keys matched" ∈ factorsOf ctx impl work record ∧
    factorScore impl.policy "handoff_cost" (if 0 < warmMatches work record then 1000 else 0)
      "handoff cost implied by warm state reuse" ∈ factorsOf ctx impl work record := by
  have hmem : ∀ {factor : FactorScore}, factor ∈ affinityFactors ctx.now impl work record → factor ∈ factorsOf ctx impl work record :=
    fun h => List.mem_append_left _ (List.mem_append_left _ (List.mem_append_right _ h))
  constructor
  · refine hmem (List.mem_append_left _ ?_)
    simp only [hkeys, Bool.false_eq_true, if_false]
    exact List.mem_cons_self
  · refine hmem (List.mem_append_left _ ?_)
    simp only [hkeys, Bool.false_eq_true, if_false]
    exact List.mem_cons_of_mem _ List.mem_cons_self

/-! ### What a plan decides -/

/-- Two plans give the same verdicts, scores and ranks, and select the same agent. -/
structure SameChoice (left right : PlanResult) : Prop where
  verdicts : left.decision.candidates.map (fun candidate => (candidate.agent, candidate.eligible, candidate.rejection)) =
    right.decision.candidates.map fun candidate => (candidate.agent, candidate.eligible, candidate.rejection)
  scores : left.decision.candidates.map CandidateEvaluation.score = right.decision.candidates.map CandidateEvaluation.score
  ranking : left.decision.rankingOrder = right.decision.rankingOrder
  selected : left.decision.selectedAgent = right.decision.selectedAgent

theorem scores_evaluated (hgates : planGates ctx.now impl work = .ok ()) :
    (planLocked ctx impl work).decision.candidates.map CandidateEvaluation.score =
      (evaluateCandidates ctx impl work).map CandidateEvaluation.score := by
  rw [← unranked_candidates hgates, List.map_map]
  rfl

/-- The same choice means the same score for every agent. -/
theorem SameChoice.score {agent : AgentId} (h : SameChoice (planLocked ctx (impl.withLoads observe) work) (planLocked ctx impl work))
    (hgates : planGates ctx.now impl work = .ok ()) (hrecord : impl.agents[agent]? = some record) :
    (candidateOf ctx impl work (record.withLoad (observe agent))).score = (candidateOf ctx impl work record).score := by
  have hgates' : planGates ctx.now (impl.withLoads observe) work = .ok () := hgates
  have hscores := h.scores
  rw [scores_evaluated hgates, scores_evaluated hgates', evaluateCandidates_withLoads, evaluateCandidates_eq, values_eq,
    List.map_map, List.map_map, List.map_map, List.map_inj_left] at hscores
  exact hscores (agent, record) (ExtTreeMap.mem_toList_iff_getElem?_eq_some.mpr hrecord)

/-- If the choice is the same whatever the ranking weights, the eligible agents report the same warmth. -/
theorem sameWarmth_of_sameChoice (h : OnlyStale ctx.now impl observe)
    (hchoice : ∀ weights, SameChoice (planLocked ctx ((impl.reweigh weights).withLoads observe) work)
      (planLocked ctx (impl.reweigh weights) work)) : SameWarmth ctx impl observe work := by
  intro hgates agent record hrecord hqualifies
  cases hkeys : work.request.requirements.warmStateKeys.isEmpty with
  | true =>
    unfold warmth
    simp only [hkeys, if_true]
  | false =>
    have hscore : ∀ weights, (candidateOf ctx (impl.reweigh weights) work (record.withLoad (observe agent))).score =
        (candidateOf ctx (impl.reweigh weights) work record).score :=
      fun weights => (hchoice weights).score hgates hrecord
    have hqualifies' : impl.Qualifies ctx work (record.withLoad (observe agent)) := by
      unfold Impl.Qualifies
      rw [eligibility_withLoad (h agent record hrecord)]
      exact hqualifies
    have hratio := hscore [⟨"warm_state_affinity", 1⟩]
    have hhandoff := hscore [⟨"handoff_cost", 1⟩]
    have hvalue : ∀ (name note : Text) (record : AgentRecord) (value : Int), impl.Qualifies ctx work record → 0 ≤ value → value ≤ 1000 →
        factorScore (impl.reweigh [⟨name, 1⟩]).policy name value note ∈ factorsOf ctx (impl.reweigh [⟨name, 1⟩]) work record →
        (candidateOf ctx (impl.reweigh [⟨name, 1⟩]) work record).score = value :=
      fun name note record value hqualifies => score_of_single rfl hqualifies
    rw [hvalue _ _ _ _ hqualifies (ratio_bounds _ _).1 (ratio_bounds _ _).2 (warm_factors_mem hkeys).1,
      hvalue _ _ _ _ hqualifies' (ratio_bounds _ _).1 (ratio_bounds _ _).2 (warm_factors_mem hkeys).1] at hratio
    rw [hvalue _ _ _ _ hqualifies (handoff_bounds _).1 (handoff_bounds _).2 (warm_factors_mem hkeys).2,
      hvalue _ _ _ _ hqualifies' (handoff_bounds _).1 (handoff_bounds _).2 (warm_factors_mem hkeys).2] at hhandoff
    unfold warmth
    simp only [hkeys, Bool.false_eq_true, if_false]
    exact congrArg some (Prod.ext hratio (decide_eq_decide.mpr (handoff_inj hhandoff)))

end Loads

/-- Other load observations of agents whose load evidence is not fresh leave a plan as it is, down to the factors of its
candidates, exactly if every eligible agent reports the same warmth; and they leave its verdicts, scores, ranking and
selection as they are whatever the ranking weights under that very condition. -/
theorem stale_load_ignored_iff (ctx : Context) (impl : Impl) (work : WorkRecord) (observe : AgentId → LoadObservation)
    (h : OnlyStale ctx.now impl observe) :
    (planLocked ctx (impl.withLoads observe) work = planLocked ctx impl work ↔ SameWarmth ctx impl observe work) ∧
    ((∀ weights, SameChoice (planLocked ctx ((impl.reweigh weights).withLoads observe) work)
      (planLocked ctx (impl.reweigh weights) work)) ↔ SameWarmth ctx impl observe work) := by
  refine ⟨planLocked_withLoads_iff h, sameWarmth_of_sameChoice h, fun hwarmth weights => ?_⟩
  have hstale : OnlyStale ctx.now (impl.reweigh weights) observe := h
  rw [(planLocked_withLoads_iff hstale).mpr hwarmth]
  exact ⟨rfl, rfl, rfl, rfl⟩

instance (now : UInt64) (impl : Impl) (record : AgentRecord) (observation : LoadObservation) :
    Decidable (Stale now impl record observation) := inferInstanceAs (Decidable (_ ∨ _ ∧ _))

namespace Sample

def requestedKey : Text := ⟨[97]⟩

/-- Two agents, the second of which reported the requested key as warm long ago. -/
def lukewarm : Option (System × WorkRecord) := do
  let system ← run (fun _ _ => True) ([.tick 1000000] ++ enlist ++
    [.begin (.registerAgent { descriptor with id := 2, boot := peerBoot }), .finish 0,
      .run (.publishCapabilities 2 peerBoot { profile with boot := peerBoot }),
      .run (.publishHealth 2 peerBoot health), .run (.publishAvailability 2 peerBoot availability),
      .run (.publishLoad 2 peerBoot { generation := 1, warmStateKeys := [requestedKey], observedAtMs := 1 })] ++
    submit { exclusiveWork with requirements := { warmStateKeys := [requestedKey] } })
  let work ← system.impl.work[(5 : WorkId)]?
  return (system, work)

theorem lukewarm_reaches {system : System} {work : WorkRecord} (h : lukewarm = some (system, work)) : system.Reachable := by
  simp only [lukewarm, Option.bind_eq_bind, Option.bind_eq_some_iff] at h
  obtain ⟨_, hrun, _, -, hform⟩ := h
  obtain ⟨rfl, rfl⟩ : _ = system ∧ _ = work := by simpa using hform
  exact run_reaches hrun

/-- The second agent as if it had reported other keys, at another latency. -/
def reporting (keys : List Text) (agent : AgentId) : LoadObservation :=
  { warmStateKeys := if agent = 2 then keys else [], estimatedDispatchLatencyMs := 7 }

/-- Whether the agents that report otherwise are stale, and as warm as before. -/
def compared (keys : List Text) (found : System × WorkRecord) : Bool × Bool :=
  (found.1.impl.agents.toList.all fun entry => Stale found.1.context.now found.1.impl entry.2 (reporting keys entry.1),
    found.1.impl.agents.toList.all fun entry => warmth found.2 (entry.2.withLoad (reporting keys entry.1)) = warmth found.2 entry.2)

theorem onlyStale_of_compared {keys : List Text} {system : System} {work : WorkRecord} (h : (compared keys (system, work)).1) :
    OnlyStale system.context.now system.impl (reporting keys) := fun agent record hrecord =>
  of_decide_eq_true (List.all_eq_true.mp h (agent, record) (ExtTreeMap.mem_toList_iff_getElem?_eq_some.mpr hrecord))

end Sample

set_option maxRecDepth 100000 in
/-- Another latency long ago makes no difference. -/
theorem stale_load_ignored_iff_sample : ∃ system work, Sample.lukewarm = some (system, work) ∧
    planLocked system.context (system.impl.withLoads (Sample.reporting [Sample.requestedKey])) work =
      planLocked system.context system.impl work := by
  have hview : Sample.lukewarm.map (Sample.compared [Sample.requestedKey]) = some (true, true) := by decide +kernel
  obtain ⟨⟨system, work⟩, hfound, hview⟩ := Option.map_eq_some_iff.mp hview
  obtain ⟨hstale, hwarm⟩ := Prod.mk.inj hview
  refine ⟨system, work, hfound, (stale_load_ignored_iff system.context system.impl work _ (Sample.onlyStale_of_compared hstale)).1.mpr ?_⟩
  intro _ agent record hrecord _
  exact of_decide_eq_true (List.all_eq_true.mp hwarm (agent, record) (ExtTreeMap.mem_toList_iff_getElem?_eq_some.mpr hrecord))

set_option maxRecDepth 100000 in
/-- Without the key reported long ago, the first agent is selected and not the second. -/
theorem not_stale_load_ignored : ¬∀ (system : System) (work : WorkRecord) (observe : AgentId → LoadObservation), system.Reachable →
    OnlyStale system.context.now system.impl observe →
    SameChoice (planLocked system.context (system.impl.withLoads observe) work) (planLocked system.context system.impl work) := by
  intro hignored
  have hview : Sample.lukewarm.map (fun found => ((Sample.compared [] found).1,
      (planLocked found.1.context (found.1.impl.withLoads (Sample.reporting [])) found.2).decision.selectedAgent,
      (planLocked found.1.context found.1.impl found.2).decision.selectedAgent)) = some (true, 1, 2) := by decide +kernel
  obtain ⟨⟨system, work⟩, hfound, hview⟩ := Option.map_eq_some_iff.mp hview
  simp only [Prod.mk.injEq] at hview
  obtain ⟨hstale, hfirst, hsecond⟩ := hview
  have hsame := (hignored system work _ (Sample.lukewarm_reaches hfound) (Sample.onlyStale_of_compared hstale)).selected
  rw [hfirst, hsecond] at hsame
  exact absurd hsame (by decide)

end AgentScheduler
