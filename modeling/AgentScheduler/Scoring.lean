import AgentScheduler.Agreement
import AgentScheduler.Planning

/-! The score of a candidate is a weighted average of what is known about it, so that knowing less never helps. -/
namespace AgentScheduler
open Std KeyedTable

/-! ### Sums over factors -/

/-- The weight of all factors. -/
def totalOf (factors : List FactorScore) : Nat := (factors.map fun factor => factor.weight.toNat).sum

/-- The weight of the known factors. -/
def knownOf (factors : List FactorScore) : Nat :=
  ((factors.filter fun factor => factor.status = .known).map fun factor => factor.weight.toNat).sum

/-- The weighted sum of the known factors. -/
def weightedOf (factors : List FactorScore) : Int :=
  ((factors.filter fun factor => factor.status = .known).map fun factor => (factor.weight.toNat : Int) * factor.normalizedValue).sum

/-- A factor within the bounds of a validated policy, its value in thousandths. -/
structure FactorScore.Bounded (factor : FactorScore) : Prop where
  weight : factor.weight.toNat ≤ 1000000
  nonneg : 0 ≤ factor.normalizedValue
  thousandths : factor.normalizedValue ≤ 1000

/-- What the first factor knows, the second knows too; names and weights are the same. -/
structure FactorScore.Weakens (weak strong : FactorScore) : Prop where
  name : weak.name = strong.name
  weight : weak.weight = strong.weight
  known : weak.status = .known → strong.status = .known ∧ weak.normalizedValue = strong.normalizedValue

section Sums
variable {factor : FactorScore} {factors weak strong : List FactorScore}

theorem totalOf_cons : totalOf (factor :: factors) = factor.weight.toNat + totalOf factors := rfl

theorem knownOf_cons :
    knownOf (factor :: factors) = (if factor.status = .known then factor.weight.toNat else 0) + knownOf factors := by
  unfold knownOf
  by_cases hknown : factor.status = .known <;> simp [hknown]

theorem weightedOf_cons : weightedOf (factor :: factors) =
    (if factor.status = .known then (factor.weight.toNat : Int) * factor.normalizedValue else 0) + weightedOf factors := by
  unfold weightedOf
  by_cases hknown : factor.status = .known <;> simp [hknown]

theorem FactorScore.Bounded.product (h : factor.Bounded) :
    0 ≤ (factor.weight.toNat : Int) * factor.normalizedValue ∧
      (factor.weight.toNat : Int) * factor.normalizedValue ≤ 1000 * factor.weight.toNat := by
  have hweight : (0 : Int) ≤ factor.weight.toNat := Int.natCast_nonneg _
  constructor
  · exact mul_nonneg hweight h.nonneg
  · rw [mul_comm 1000]
    exact mul_le_mul_of_nonneg_left h.thousandths hweight

theorem knownOf_le_totalOf (factors : List FactorScore) : knownOf factors ≤ totalOf factors := by
  induction factors with
  | nil => exact le_rfl
  | cons factor factors ih =>
    rw [knownOf_cons, totalOf_cons]
    split <;> omega

theorem totalOf_le (h : ∀ factor ∈ factors, factor.Bounded) : totalOf factors ≤ 1000000 * factors.length := by
  induction factors with
  | nil => exact le_rfl
  | cons factor factors ih =>
    obtain ⟨hfactor, hrest⟩ := List.forall_mem_cons.mp h
    rw [totalOf_cons, List.length_cons]
    have hbound := ih hrest
    have hweight := hfactor.weight
    omega

/-- The weighted sum is at most a thousand times the known weight. -/
theorem weightedOf_bounds (h : ∀ factor ∈ factors, factor.Bounded) :
    0 ≤ weightedOf factors ∧ weightedOf factors ≤ 1000 * knownOf factors := by
  induction factors with
  | nil => exact ⟨le_rfl, le_rfl⟩
  | cons factor factors ih =>
    obtain ⟨hfactor, hrest⟩ := List.forall_mem_cons.mp h
    obtain ⟨hnonneg, hle⟩ := ih hrest
    obtain ⟨hproduct, hbound⟩ := hfactor.product
    rw [weightedOf_cons, knownOf_cons]
    split
    · constructor
      · omega
      · push_cast
        omega
    · constructor
      · omega
      · push_cast
        omega

/-- Factors that know less weigh the same and are known with less weight, and their weighted sum is no higher. -/
theorem sums_of_weakens (h : List.Forall₂ FactorScore.Weakens weak strong) (hbounded : ∀ factor ∈ strong, factor.Bounded) :
    totalOf weak = totalOf strong ∧ knownOf weak ≤ knownOf strong ∧ weightedOf weak ≤ weightedOf strong := by
  induction h with
  | nil => exact ⟨rfl, le_rfl, le_rfl⟩
  | @cons weaker stronger weak strong hfactor hrest ih =>
    obtain ⟨hstronger, hbounded⟩ := List.forall_mem_cons.mp hbounded
    obtain ⟨htotal, hknown, hweighted⟩ := ih hbounded
    obtain ⟨hproduct, -⟩ := hstronger.product
    have hweight : weaker.weight.toNat = stronger.weight.toNat := congrArg UInt32.toNat hfactor.weight
    rw [totalOf_cons, totalOf_cons, knownOf_cons, knownOf_cons, weightedOf_cons, weightedOf_cons, hweight]
    refine ⟨by omega, ?_, ?_⟩
    · by_cases hstatus : weaker.status = .known
      · rw [if_pos hstatus, if_pos (hfactor.known hstatus).1]
        omega
      · rw [if_neg hstatus]
        split <;> omega
    · by_cases hstatus : weaker.status = .known
      · rw [if_pos hstatus, if_pos (hfactor.known hstatus).1, (hfactor.known hstatus).2]
        omega
      · rw [if_neg hstatus]
        split <;> omega

end Sums

theorem toNat_sum (values : List UInt32) : values.sum.toNat = (values.map UInt32.toNat).sum % 2 ^ 32 := by
  induction values with
  | nil => rfl
  | cons value values ih =>
    rw [List.sum_cons, UInt32.toNat_add, ih, List.map_cons, List.sum_cons, Nat.add_mod_mod]

/-! ### The factors of a candidate -/

theorem weightOf_le {policy : PolicySnapshot} {limits : ResourceLimits} (h : policy.validate limits = .ok ()) (factor : Text) :
    (weightOf policy factor).toNat ≤ 1000000 := by
  unfold PolicySnapshot.validate at h
  simp only [check_bind_eq_ok] at h
  obtain ⟨-, -, -, -, -, hweights, -⟩ := h
  unfold weightOf
  split
  · exact Nat.zero_le _
  · next weight hfound =>
    have hcheck := forM_eq_ok.mp hweights weight (List.mem_of_find?_eq_some hfound)
    change (rejectIf (¬isKnownFactor weight.factor) _ >>= fun _ => rejectIf (1000000 < weight.weight) _) = _ at hcheck
    simp only [check_bind_eq_ok, rejectIf_eq_ok] at hcheck
    have hbound := hcheck.2
    rw [UInt32.not_lt, UInt32.le_iff_toNat_le] at hbound
    exact hbound

theorem factorScore_bounded {policy : PolicySnapshot} {limits : ResourceLimits} (h : policy.validate limits = .ok ())
    (name : Text) (value : Int) (note : Text) : (factorScore policy name value note).Bounded := by
  have hweight := weightOf_le h name
  unfold factorScore
  split
  · exact ⟨hweight, le_rfl, by simp only; omega⟩
  · exact ⟨hweight, by simp only; omega, by simp only; omega⟩

/-- The factors that `score_candidate` adds up, in its order. -/
def factorsOf (ctx : Context) (impl : Impl) (work : WorkRecord) (record : AgentRecord) : List FactorScore :=
  capacityFactors impl work record (record.descriptor.maxConcurrency.toNat - record.activeAssignments) ++
    affinityFactors ctx.now impl work record ++ loadFactors ctx.now impl work record ++
    historyFactors impl record (evaluateFeasibility ctx work)

section Candidates
variable {ctx : Context} {impl : Impl} {work : WorkRecord} {record : AgentRecord}

/-- The factors are added under the policy, with these names. -/
structure Adds (policy : PolicySnapshot) (names : List Text) (factors : List FactorScore) : Prop where
  names : factors.map FactorScore.name = names
  added : ∀ factor ∈ factors, ∃ name value note, factor = factorScore policy name value note

theorem factorScore_name (policy : PolicySnapshot) (name : Text) (value : Int) (note : Text) :
    (factorScore policy name value note).name = name := by
  unfold factorScore
  split <;> rfl

section Adding
variable {policy : PolicySnapshot} {names names' : List Text} {available : Nat} {factors factors' : List FactorScore}
  {now : UInt64} {feasibility : ExternalFeasibilityResult}

theorem Adds.nil : Adds policy [] [] := ⟨rfl, fun _ h => nomatch h⟩

theorem Adds.cons (name : Text) (value : Int) (note : Text) (h : Adds policy names factors) :
    Adds policy (name :: names) (factorScore policy name value note :: factors) where
  names := by rw [List.map_cons, factorScore_name, h.names]
  added := List.forall_mem_cons.mpr ⟨⟨name, value, note, rfl⟩, h.added⟩

theorem Adds.append (h : Adds policy names factors) (h' : Adds policy names' factors') :
    Adds policy (names ++ names') (factors ++ factors') where
  names := by rw [List.map_append, h.names, h'.names]
  added := List.forall_mem_append.mpr ⟨h.added, h'.added⟩

theorem Adds.ite {p : Prop} [Decidable p] (h : Adds policy names factors) (h' : Adds policy names factors') :
    Adds policy names (if p then factors else factors') := by
  split
  · exact h
  · exact h'

theorem Adds.length (h : Adds policy names factors) : factors.length = names.length := by
  rw [← h.names, List.length_map]

def capacityNames : List Text :=
  (["load_headroom", "remaining_capacity"] : List Text) ++ (["capability_quality", "capability_completeness"] : List Text)

def affinityNames : List Text :=
  (["warm_state_affinity", "handoff_cost"] : List Text) ++ (["locality_match", "health_quality", "readiness"] : List Text)

def loadNames : List Text :=
  (["queue_age", "fairness_deficit"] : List Text) ++ (["dispatch_latency", "cost_evidence", "slo_headroom"] : List Text)

def historyNames : List Text :=
  ["resource_headroom", "reliability_history", "anti_concentration", "failure_domain_diversity"]

theorem adds_capacityFactors : Adds impl.policy capacityNames (capacityFactors impl work record available) := by
  refine Adds.append ?_ ?_
  · refine Adds.ite ?_ ?_ <;> exact .cons _ _ _ (.cons _ _ _ .nil)
  · exact .cons _ _ _ (.cons _ _ _ .nil)

theorem adds_affinityFactors : Adds impl.policy affinityNames (affinityFactors now impl work record) := by
  refine Adds.append ?_ ?_
  · refine Adds.ite ?_ ?_ <;> exact .cons _ _ _ (.cons _ _ _ .nil)
  · split
    · exact .cons _ _ _ (.cons _ _ _ (.cons _ _ _ .nil))
    · exact .cons _ _ _ (.cons _ _ _ (.cons _ _ _ .nil))

theorem adds_loadFactors : Adds impl.policy loadNames (loadFactors now impl work record) := by
  refine Adds.append ?_ ?_
  · exact .cons _ _ _ (.cons _ _ _ .nil)
  · refine Adds.ite ?_ ?_ <;> exact .cons _ _ _ (.cons _ _ _ (.cons _ _ _ .nil))

theorem adds_historyFactors : Adds impl.policy historyNames (historyFactors impl record feasibility) :=
  .cons _ _ _ (.cons _ _ _ (.cons _ _ _ (.cons _ _ _ .nil)))

end Adding

/-- The names of the factors, in the order in which they are added. -/
def factorNames : List Text := capacityNames ++ affinityNames ++ loadNames ++ historyNames

theorem adds_factorsOf : Adds impl.policy factorNames (factorsOf ctx impl work record) :=
  ((adds_capacityFactors.append adds_affinityFactors).append adds_loadFactors).append adds_historyFactors

theorem length_factorsOf : (factorsOf ctx impl work record).length = 18 := adds_factorsOf.length

theorem factorsOf_bounded {limits : ResourceLimits} (h : impl.policy.validate limits = .ok ()) :
    ∀ factor ∈ factorsOf ctx impl work record, factor.Bounded := by
  intro factor hmem
  obtain ⟨name, value, note, rfl⟩ := adds_factorsOf.added factor hmem
  exact factorScore_bounded h name value note

theorem candidateOf_scored (h : impl.Qualifies ctx work record) :
    (candidateOf ctx impl work record).factors = factorsOf ctx impl work record ∧
    (candidateOf ctx impl work record).knownWeight =
      (((factorsOf ctx impl work record).filter fun factor => factor.status = .known).map FactorScore.weight).sum ∧
    (candidateOf ctx impl work record).totalWeight = UInt32.ofNat (min (totalOf (factorsOf ctx impl work record)) 0xFFFFFFFF) ∧
    (candidateOf ctx impl work record).score =
      if totalOf (factorsOf ctx impl work record) = 0 then 0
      else weightedOf (factorsOf ctx impl work record) / totalOf (factorsOf ctx impl work record) := by
  unfold Impl.Qualifies at h
  unfold candidateOf evaluateEligibility
  rw [h]
  exact ⟨rfl, rfl, rfl, rfl⟩

/-! ### Bounds of the score -/

/-- The score is in thousandths and covered by known weight, and no step of the accumulation leaves its integer type. -/
structure SoundScore (evaluation : CandidateEvaluation) : Prop where
  nonneg : 0 ≤ evaluation.score
  thousandths : evaluation.score ≤ 1000
  covered : evaluation.knownWeight ≤ evaluation.totalWeight
  known : evaluation.knownWeight.toNat = knownOf evaluation.factors
  total : evaluation.totalWeight.toNat = totalOf evaluation.factors
  fits : ∀ count, 0 ≤ weightedOf (evaluation.factors.take count) ∧ weightedOf (evaluation.factors.take count) < 2 ^ 63 ∧
    knownOf (evaluation.factors.take count) < 2 ^ 32 ∧ totalOf (evaluation.factors.take count) < 2 ^ 63

theorem weights_le {limits : ResourceLimits} (h : impl.policy.validate limits = .ok ()) (count : Nat) :
    totalOf ((factorsOf ctx impl work record).take count) ≤ 18000000 := by
  have hbound := totalOf_le fun factor hmem => factorsOf_bounded h factor
    (List.mem_of_mem_take (l := factorsOf ctx impl work record) (i := count) hmem)
  have hlength : ((factorsOf ctx impl work record).take count).length ≤ 18 := by
    rw [← @length_factorsOf ctx impl work record]
    exact List.length_take_le' _ _
  omega

theorem candidateOf_known {limits : ResourceLimits} (h : impl.policy.validate limits = .ok ())
    (hqualifies : impl.Qualifies ctx work record) :
    (candidateOf ctx impl work record).knownWeight.toNat = knownOf (factorsOf ctx impl work record) := by
  have hfits := @weights_le ctx impl work record _ h 18
  rw [List.take_of_length_le length_factorsOf.le] at hfits
  have hknown := knownOf_le_totalOf (factorsOf ctx impl work record)
  rw [(candidateOf_scored hqualifies).2.1, toNat_sum, List.map_map]
  exact Nat.mod_eq_of_lt (Nat.lt_of_le_of_lt (hknown.trans hfits) (by decide))

theorem candidateOf_total {limits : ResourceLimits} (h : impl.policy.validate limits = .ok ())
    (hqualifies : impl.Qualifies ctx work record) :
    (candidateOf ctx impl work record).totalWeight.toNat = totalOf (factorsOf ctx impl work record) := by
  have hfits := @weights_le ctx impl work record _ h 18
  rw [List.take_of_length_le length_factorsOf.le] at hfits
  rw [(candidateOf_scored hqualifies).2.2.1, UInt32.toNat_ofNat']
  omega

theorem candidateOf_soundScore {limits : ResourceLimits} (h : impl.policy.validate limits = .ok ())
    (hqualifies : impl.Qualifies ctx work record) : SoundScore (candidateOf ctx impl work record) := by
  obtain ⟨hfactors, -, -, hscore⟩ := candidateOf_scored hqualifies
  have hbounded := @factorsOf_bounded ctx impl work record _ h
  obtain ⟨hnonneg, hle⟩ := weightedOf_bounds hbounded
  have hcovered := knownOf_le_totalOf (factorsOf ctx impl work record)
  have hknown := candidateOf_known h hqualifies
  have htotal := candidateOf_total h hqualifies
  constructor
  case nonneg =>
    rw [hscore]
    split
    · exact le_rfl
    · exact Int.ediv_nonneg hnonneg (Int.natCast_nonneg _)
  case thousandths =>
    rw [hscore]
    split
    · exact by decide
    · exact Int.ediv_le_of_le_mul (by omega) (by omega)
  case covered =>
    rw [UInt32.le_iff_toNat_le, hknown, htotal]
    exact hcovered
  case known => rw [hknown, hfactors]
  case total => rw [htotal, hfactors]
  case fits =>
    intro count
    rw [hfactors]
    have hfits := @weights_le ctx impl work record _ h count
    have htaken := knownOf_le_totalOf ((factorsOf ctx impl work record).take count)
    obtain ⟨hnonneg, hle⟩ := weightedOf_bounds fun factor hmem => hbounded factor (List.mem_of_mem_take (i := count) hmem)
    exact ⟨hnonneg, by omega, by omega, by omega⟩

/-! ### Weakened evidence -/

/-- Only a plan past its gates lists candidates. -/
theorem gates_of_listed {candidate : CandidateEvaluation} (h : candidate ∈ (planLocked ctx impl work).decision.candidates) :
    planGates ctx.now impl work = .ok () := by
  cases hgates : planGates ctx.now impl work with
  | ok _ => rfl
  | error rejection =>
    unfold planLocked at h
    rw [hgates] at h
    cases h

/-- The rank of an eligible agent is one more than the number of the eligible agents that outrank it. -/
theorem rank_eq {agent : AgentId} {candidate : CandidateEvaluation}
    (hkeyed : Keyed (fun record : AgentRecord => record.descriptor.id) impl.agents) (hrecord : impl.agents[agent]? = some record)
    (hqualifies : impl.Qualifies ctx work record) (hmem : candidate ∈ (planLocked ctx impl work).decision.candidates)
    (hagent : candidate.agent = agent) :
    (candidate.rank : ℕ∞) = (keysWhere impl.agents fun rival => candidateBetter (candidateOf ctx impl work rival)
      (candidateOf ctx impl work record) && (candidateOf ctx impl work rival).eligible).encard + 1 := by
  obtain ⟨-, -, -, -, hcandidates⟩ := planLocked_reports (gates_of_listed hmem)
  rw [hcandidates] at hmem
  obtain ⟨index, hindex⟩ := List.mem_iff_getElem?.mp hmem
  obtain ⟨evaluation, hevaluation, hunranked, hrank, -⟩ := getElem?_listed_iff hindex
  obtain ⟨found, other, hother, rfl⟩ := candidate_of_index hevaluation
  have hfound : found = agent := by
    have hsame : candidate.agent = (candidateOf ctx impl work other).agent := congrArg (fun evaluation => evaluation.agent) hunranked
    have hid : other.descriptor.id = found := hkeyed found other hother
    rw [candidateOf_agent, hagent, hid] at hsame
    exact hsame.symm
  obtain rfl : other = record := by
    rw [hfound, hrecord] at hother
    exact (Option.some.inj hother).symm
  have hplace : index ∈ rankingOrder (evaluateCandidates ctx impl work) :=
    mem_rankingOrder_iff.mpr ⟨_, hevaluation, candidateOf_eligible.mpr hqualifies⟩
  have hvalue : (evaluateCandidates ctx impl work).getD index {} = candidateOf ctx impl work other := by
    rw [List.getD_eq_getElem?_getD, hevaluation]
    rfl
  rw [hrank, if_pos hplace, idxOf_rankingOrder (nodup_evaluated hkeyed) hplace, hvalue, evaluateCandidates_eq,
    List.countP_map, encard_keysWhere]
  exact Nat.cast_succ _

/-- Nothing about a candidate is read from the table of agents. -/
theorem candidateOf_agents (agents : ExtTreeMap AgentId AgentRecord compare) :
    candidateOf ctx { impl with agents } work record = candidateOf ctx impl work record := rfl

theorem Outranks.of_weaker {rival strong weak : CandidateEvaluation} (h : Outranks rival strong)
    (hagent : weak.agent = strong.agent) (hscore : weak.score ≤ strong.score) (hknown : weak.knownWeight ≤ strong.knownWeight) :
    Outranks rival weak := by
  unfold Outranks at *
  rw [hagent]
  simp only [StrongId.lt_iff, UInt64.lt_iff_toNat_lt, UInt32.lt_iff_toNat_lt, UInt32.le_iff_toNat_le, ← UInt32.toNat_inj] at *
  omega

/-- The candidate that knows less has no higher score and no more known weight. -/
theorem scores_of_weakens {limits : ResourceLimits} {impl' : Impl} {weakened : AgentRecord}
    (h : impl.policy.validate limits = .ok ()) (h' : impl'.policy.validate limits = .ok ())
    (hqualifies : impl.Qualifies ctx work record) (hqualifies' : impl'.Qualifies ctx work weakened)
    (hweakens : List.Forall₂ FactorScore.Weakens (candidateOf ctx impl' work weakened).factors
      (candidateOf ctx impl work record).factors) :
    (candidateOf ctx impl' work weakened).score ≤ (candidateOf ctx impl work record).score ∧
      (candidateOf ctx impl' work weakened).knownWeight ≤ (candidateOf ctx impl work record).knownWeight := by
  obtain ⟨hfactors, -, -, hscore⟩ := candidateOf_scored hqualifies
  obtain ⟨hfactors', -, -, hscore'⟩ := candidateOf_scored hqualifies'
  rw [hfactors, hfactors'] at hweakens
  obtain ⟨htotal, hknown, hweighted⟩ := sums_of_weakens hweakens (factorsOf_bounded h)
  constructor
  · rw [hscore, hscore', htotal]
    split
    · exact le_rfl
    · exact Int.ediv_le_ediv (by omega) hweighted
  · rw [UInt32.le_iff_toNat_le, candidateOf_known h hqualifies, candidateOf_known h' hqualifies']
    exact hknown

end Candidates

/-- Under a validated policy scores are sound, and an agent of which less is known, all else being equal, has no higher
score, no more known weight, and no better rank. -/
theorem missing_evidence_never_helps (ctx : Context) (impl : Impl) (work : WorkRecord) (limits : ResourceLimits)
    (hpolicy : impl.policy.validate limits = .ok ())
    (hkeyed : Keyed (fun record : AgentRecord => record.descriptor.id) impl.agents) :
    (∀ (agent : AgentId) (record : AgentRecord), impl.agents[agent]? = some record → impl.Qualifies ctx work record →
      SoundScore (candidateOf ctx impl work record)) ∧
    ∀ (agent : AgentId) (record weakened : AgentRecord) (after : Impl), impl.agents[agent]? = some record →
      weakened.descriptor.id = agent → after = { impl with agents := impl.agents.insert agent weakened } →
      impl.Qualifies ctx work record → after.Qualifies ctx work weakened →
      List.Forall₂ FactorScore.Weakens (candidateOf ctx after work weakened).factors (candidateOf ctx impl work record).factors →
      (candidateOf ctx after work weakened).score ≤ (candidateOf ctx impl work record).score ∧
      (candidateOf ctx after work weakened).knownWeight ≤ (candidateOf ctx impl work record).knownWeight ∧
      ∀ candidate ∈ (planLocked ctx impl work).decision.candidates,
        ∀ candidate' ∈ (planLocked ctx after work).decision.candidates,
          candidate.agent = agent → candidate'.agent = agent → candidate.rank ≤ candidate'.rank := by
  refine ⟨fun agent record _ hqualifies => candidateOf_soundScore hpolicy hqualifies, ?_⟩
  intro agent record weakened after hrecord hid hafter hqualifies hqualifies' hweakens
  have hpolicy' : after.policy.validate limits = .ok () := by
    rw [hafter]
    exact hpolicy
  obtain ⟨hscore, hknown⟩ := scores_of_weakens hpolicy hpolicy' hqualifies hqualifies' hweakens
  refine ⟨hscore, hknown, fun candidate hmem candidate' hmem' hagent hagent' => ?_⟩
  have hstored : after.agents[agent]? = some weakened := by
    rw [hafter]
    change (impl.agents.insert agent weakened)[agent]? = some weakened
    rw [getElem?_insert, if_pos rfl]
  have hkeyed' : Keyed (fun record : AgentRecord => record.descriptor.id) after.agents := by
    rw [hafter]
    exact hkeyed.insert hid
  have hrank := rank_eq hkeyed hrecord hqualifies hmem hagent
  have hrank' := rank_eq hkeyed' hstored hqualifies' hmem' hagent'
  have hsame : (candidateOf ctx after work weakened).agent = (candidateOf ctx impl work record).agent := by
    rw [candidateOf_agent, candidateOf_agent, hid]
    exact (hkeyed agent record hrecord).symm
  -- whoever outranked the agent before outranks it still
  have hsubset : (keysWhere impl.agents fun rival => candidateBetter (candidateOf ctx impl work rival)
        (candidateOf ctx impl work record) && (candidateOf ctx impl work rival).eligible) ⊆
      keysWhere after.agents fun rival => candidateBetter (candidateOf ctx after work rival)
        (candidateOf ctx after work weakened) && (candidateOf ctx after work rival).eligible := by
    rintro key ⟨rival, hrival, hbetter⟩
    rw [Bool.and_eq_true, candidateBetter_iff] at hbetter
    have hne : agent ≠ key := by
      rintro rfl
      rw [hrecord] at hrival
      obtain rfl := Option.some.inj hrival
      exact hbetter.1.asymm hbetter.1
    refine ⟨rival, ?_, ?_⟩
    · rw [hafter]
      change (impl.agents.insert agent weakened)[key]? = some rival
      rw [getElem?_insert, if_neg hne]
      exact hrival
    · have hrivals : candidateOf ctx after work rival = candidateOf ctx impl work rival := by
        rw [hafter]
        exact candidateOf_agents _
      simp only [Bool.and_eq_true, candidateBetter_iff, hrivals]
      exact ⟨hbetter.1.of_weaker hsame hscore hknown, hbetter.2⟩
  have hle := add_le_add_left (Set.encard_le_encard hsubset) 1
  rw [← hrank, ← hrank'] at hle
  exact_mod_cast hle

instance (weak strong : FactorScore) : Decidable (weak.Weakens strong) :=
  decidable_of_iff (weak.name = strong.name ∧ weak.weight = strong.weight ∧
      (weak.status = .known → strong.status = .known ∧ weak.normalizedValue = strong.normalizedValue))
    ⟨fun ⟨hname, hweight, hknown⟩ => ⟨hname, hweight, hknown⟩, fun h => ⟨h.name, h.weight, h.known⟩⟩

namespace Sample

/-- Work for agents whose health nobody asks about, and one such agent. -/
def undemanding : Option (System × WorkRecord × AgentRecord) := do
  let system ← run (fun _ _ => True) (enlist ++ submit { exclusiveWork with requirements := { requireHealthy := false } })
  let work ← system.impl.work[(5 : WorkId)]?
  let record ← system.impl.agents[(1 : AgentId)]?
  return (system, work, record)

theorem undemanding_spec {system : System} {work : WorkRecord} {record : AgentRecord} (h : undemanding = some (system, work, record)) :
    system.Reachable ∧ system.impl.agents[(1 : AgentId)]? = some record := by
  simp only [undemanding, Option.bind_eq_bind, Option.bind_eq_some_iff] at h
  obtain ⟨_, hrun, _, -, _, hrecord, hform⟩ := h
  obtain ⟨rfl, rfl, rfl⟩ : _ = system ∧ _ = work ∧ _ = record := by simpa using hform
  exact ⟨run_reaches hrun, hrecord⟩

/-- The agent as if its health were no longer current. -/
def ailing (record : AgentRecord) : AgentRecord := { record with healthCurrent := false }

def withAiling (system : System) (record : AgentRecord) : Impl :=
  { system.impl with agents := system.impl.agents.insert 1 (ailing record) }

/-- Whether the policy is valid, both records qualify, and the second one is the weaker. -/
def weakened (found : System × WorkRecord × AgentRecord) : Bool :=
  let after := withAiling found.1 found.2.2
  let weak := ailing found.2.2
  decide (found.1.impl.policy.validate found.1.impl.limits = .ok ()) &&
  decide (eligibility found.1.context.now found.1.impl found.2.1 found.2.2 (evaluateFeasibility found.1.context found.2.1) = .ok ()) &&
  decide (eligibility found.1.context.now after found.2.1 weak (evaluateFeasibility found.1.context found.2.1) = .ok ()) &&
  decide (List.Forall₂ FactorScore.Weakens (candidateOf found.1.context after found.2.1 weak).factors
    (candidateOf found.1.context found.1.impl found.2.1 found.2.2).factors)

end Sample

set_option maxRecDepth 100000 in
/-- The quality of the agent's health becomes unknown, and its known weight drops. -/
theorem missing_evidence_never_helps_sample : ∃ system work record, Sample.undemanding = some (system, work, record) ∧
    (candidateOf system.context (Sample.withAiling system record) work (Sample.ailing record)).knownWeight ≠
      (candidateOf system.context system.impl work record).knownWeight ∧
    (candidateOf system.context (Sample.withAiling system record) work (Sample.ailing record)).score ≤
      (candidateOf system.context system.impl work record).score ∧
    SoundScore (candidateOf system.context system.impl work record) := by
  have hview : Sample.undemanding.map (fun found => (Sample.weakened found, found.2.2.descriptor.id,
      decide ((candidateOf found.1.context (Sample.withAiling found.1 found.2.2) found.2.1 (Sample.ailing found.2.2)).knownWeight ≠
        (candidateOf found.1.context found.1.impl found.2.1 found.2.2).knownWeight))) = some (true, 1, true) := by decide +kernel
  obtain ⟨⟨system, work, record⟩, hfound, hview⟩ := Option.map_eq_some_iff.mp hview
  simp only [Prod.mk.injEq, Sample.weakened, Bool.and_eq_true, decide_eq_true_eq] at hview
  obtain ⟨⟨⟨⟨hpolicy, hqualifies⟩, hqualifies'⟩, hweakens⟩, hid, hless⟩ := hview
  obtain ⟨hreach, hrecord⟩ := Sample.undemanding_spec hfound
  obtain ⟨hsound, hmonotone⟩ := missing_evidence_never_helps system.context system.impl work system.impl.limits hpolicy
    hreach.valid.healthy.consistent.agentKey
  obtain ⟨hscore, -, -⟩ := hmonotone 1 record (Sample.ailing record) (Sample.withAiling system record) hrecord hid rfl hqualifies
    hqualifies' hweakens
  exact ⟨system, work, record, hfound, hless, hscore, hsound 1 record hrecord hqualifies⟩

end AgentScheduler
