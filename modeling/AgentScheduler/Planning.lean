import AgentScheduler.Sorting
import AgentScheduler.Isolation

/-! Planning finds an eligible agent whenever there is one, takes the best of them, and reports how it ranked the rest. -/
namespace AgentScheduler
open Std KeyedTable

/-! ### The order of candidates -/

/-- A higher score wins, then more known weight, then the lower agent id. -/
def Outranks (left right : CandidateEvaluation) : Prop :=
  right.score < left.score ∨ left.score = right.score ∧
    (right.knownWeight < left.knownWeight ∨ left.knownWeight = right.knownWeight ∧ left.agent < right.agent)

theorem candidateBetter_iff (left right : CandidateEvaluation) : candidateBetter left right ↔ Outranks left right := by
  unfold candidateBetter Outranks
  by_cases hscore : left.score = right.score
  · by_cases hknown : left.knownWeight = right.knownWeight
    · simp [hscore, hknown]
    · simp [hscore, hknown]
  · simp [hscore]

theorem candidateBetter_eq_false (left right : CandidateEvaluation) :
    candidateBetter left right = false ↔ ¬Outranks left right := by
  rw [← candidateBetter_iff, Bool.not_eq_true]

theorem Outranks.asymm {left right : CandidateEvaluation} (h : Outranks left right) : ¬Outranks right left := by
  unfold Outranks at *
  simp only [StrongId.lt_iff, UInt64.lt_iff_toNat_lt, UInt32.lt_iff_toNat_lt, ← UInt32.toNat_inj] at *
  omega

/-- What does not outrank the middle one does not outrank what the middle one fails to outrank. -/
theorem Outranks.not_trans {left middle right : CandidateEvaluation} (h : ¬Outranks middle left)
    (h' : ¬Outranks right middle) : ¬Outranks right left := by
  unfold Outranks at *
  simp only [StrongId.lt_iff, UInt64.lt_iff_toNat_lt, UInt32.lt_iff_toNat_lt, ← UInt32.toNat_inj] at *
  omega

/-- Two agents are never tied. -/
theorem Outranks.of_not {left right : CandidateEvaluation} (h : ¬Outranks right left) (hagent : left.agent ≠ right.agent) :
    Outranks left right := by
  have hvalue : left.agent.value.toNat ≠ right.agent.value.toNat := fun heq =>
    hagent (congrArg StrongId.mk (UInt64.toNat_inj.mp heq))
  unfold Outranks at *
  simp only [StrongId.lt_iff, UInt64.lt_iff_toNat_lt, UInt32.lt_iff_toNat_lt, ← UInt32.toNat_inj] at *
  omega

theorem strictWeakOrder_candidateBetter : StrictWeakOrder candidateBetter := by
  constructor
  · intro left right h
    rw [candidateBetter_eq_false]
    exact ((candidateBetter_iff left right).mp h).asymm
  · intro left middle right h h'
    rw [candidateBetter_eq_false] at h h' ⊢
    exact Outranks.not_trans h h'

/-! ### The rejection histogram -/

/-- The histogram has one bucket for each outcome met so far, with the number of times it was met. -/
structure Tallies (histogram : List (ScheduleOutcome × Nat)) (outcomes : List ScheduleOutcome) : Prop where
  distinct : (histogram.map Prod.fst).Nodup
  covers : ∀ outcome, outcome ∈ histogram.map Prod.fst ↔ outcome ∈ outcomes
  counts : ∀ bucket ∈ histogram, bucket.2 = outcomes.count bucket.1
  total : (histogram.map Prod.snd).sum = outcomes.length

theorem keys_countRejection (histogram : List (ScheduleOutcome × Nat)) (outcome : ScheduleOutcome) :
    (countRejection histogram outcome).map Prod.fst =
      if outcome ∈ histogram.map Prod.fst then histogram.map Prod.fst else histogram.map Prod.fst ++ [outcome] := by
  induction histogram with
  | nil => rfl
  | cons bucket rest ih =>
    unfold countRejection
    by_cases hkey : bucket.1 = outcome
    · simp [hkey]
    · simp only [if_neg hkey, List.map_cons, ih, List.mem_cons, Ne.symm hkey, false_or]
      split <;> rfl

theorem total_countRejection (histogram : List (ScheduleOutcome × Nat)) (outcome : ScheduleOutcome) :
    ((countRejection histogram outcome).map Prod.snd).sum = (histogram.map Prod.snd).sum + 1 := by
  induction histogram with
  | nil => rfl
  | cons bucket rest ih =>
    unfold countRejection
    split
    · simp only [List.map_cons, List.sum_cons]
      omega
    · simp only [List.map_cons, List.sum_cons, ih]
      omega

/-- A bucket of another outcome is as it was; the bucket of the counted one is one higher, or new. -/
theorem mem_countRejection {histogram : List (ScheduleOutcome × Nat)} {outcome : ScheduleOutcome}
    (hdistinct : (histogram.map Prod.fst).Nodup) {bucket : ScheduleOutcome × Nat}
    (h : bucket ∈ countRejection histogram outcome) :
    bucket ∈ histogram ∧ bucket.1 ≠ outcome ∨
      bucket.1 = outcome ∧ ((∃ count, (outcome, count) ∈ histogram ∧ bucket.2 = count + 1) ∨
        outcome ∉ histogram.map Prod.fst ∧ bucket.2 = 1) := by
  induction histogram with
  | nil =>
    obtain rfl := List.mem_singleton.mp h
    exact .inr ⟨rfl, .inr ⟨List.not_mem_nil, rfl⟩⟩
  | cons first rest ih =>
    obtain ⟨hfirst, hrest⟩ := List.nodup_cons.mp hdistinct
    unfold countRejection at h
    by_cases hkey : first.1 = outcome
    · simp only [if_pos hkey, List.mem_cons] at h
      rcases h with rfl | h
      · exact .inr ⟨hkey, .inl ⟨first.2, by rw [← hkey]; exact List.mem_cons_self, rfl⟩⟩
      · refine .inl ⟨List.mem_cons_of_mem _ h, fun heq => hfirst ?_⟩
        exact List.mem_map.mpr ⟨bucket, h, heq.trans hkey.symm⟩
    · simp only [if_neg hkey, List.mem_cons] at h
      rcases h with rfl | h
      · exact .inl ⟨List.mem_cons_self, hkey⟩
      · rcases ih hrest h with ⟨hmem, hne⟩ | ⟨heq, ⟨count, hmem, hcount⟩ | ⟨habsent, hcount⟩⟩
        · exact .inl ⟨List.mem_cons_of_mem _ hmem, hne⟩
        · exact .inr ⟨heq, .inl ⟨count, List.mem_cons_of_mem _ hmem, hcount⟩⟩
        · refine .inr ⟨heq, .inr ⟨?_, hcount⟩⟩
          rw [List.map_cons, List.mem_cons, not_or]
          exact ⟨Ne.symm hkey, habsent⟩

theorem Tallies.counted {histogram : List (ScheduleOutcome × Nat)} {outcomes : List ScheduleOutcome}
    (h : Tallies histogram outcomes) (outcome : ScheduleOutcome) :
    Tallies (countRejection histogram outcome) (outcomes ++ [outcome]) where
  distinct := by
    rw [keys_countRejection]
    split
    · exact h.distinct
    · next habsent => exact List.nodup_append.mpr ⟨h.distinct, List.nodup_singleton _, fun left hleft right hright heq =>
        habsent (List.mem_singleton.mp hright ▸ heq ▸ hleft)⟩
  covers other := by
    rw [keys_countRejection, List.mem_append, List.mem_singleton]
    split
    · next hmem =>
      rw [h.covers]
      constructor
      · exact Or.inl
      · rintro (hother | rfl)
        · exact hother
        · exact (h.covers other).mp hmem
    · rw [List.mem_append, List.mem_singleton, h.covers]
  counts bucket hbucket := by
    rw [List.count_append, List.count_singleton]
    rcases mem_countRejection h.distinct hbucket with ⟨hmem, hne⟩ | ⟨rfl, ⟨count, hmem, hcount⟩ | ⟨habsent, hcount⟩⟩
    · simp [h.counts bucket hmem, Ne.symm hne]
    · have hbefore : count = outcomes.count bucket.1 := h.counts (bucket.1, count) hmem
      simp [hcount, hbefore]
    · have hnone : outcomes.count bucket.1 = 0 := List.count_eq_zero.mpr fun hmem => habsent ((h.covers _).mpr hmem)
      simp [hnone, hcount]
  total := by rw [total_countRejection, h.total, List.length_append, List.length_singleton]

theorem Tallies.counted_all {histogram : List (ScheduleOutcome × Nat)} {outcomes : List ScheduleOutcome}
    (h : Tallies histogram outcomes) (more : List ScheduleOutcome) :
    Tallies (more.foldl countRejection histogram) (outcomes ++ more) := by
  induction more generalizing histogram outcomes with
  | nil =>
    rw [List.append_nil]
    exact h
  | cons outcome more ih =>
    have hnext := ih (h.counted outcome)
    rwa [List.append_assoc] at hnext

theorem Tallies.perm {histogram histogram' : List (ScheduleOutcome × Nat)} {outcomes : List ScheduleOutcome}
    (h : Tallies histogram outcomes) (hperm : histogram'.Perm histogram) : Tallies histogram' outcomes where
  distinct := (hperm.map Prod.fst).nodup_iff.mpr h.distinct
  covers outcome := ((hperm.map Prod.fst).mem_iff).trans (h.covers outcome)
  counts bucket hbucket := h.counts bucket (hperm.mem_iff.mp hbucket)
  total := ((hperm.map Prod.snd).sum_eq).trans h.total

/-- The summary is the text of a histogram of the rejections. -/
theorem rejectionSummary_tallies (candidates : List CandidateEvaluation) :
    ∃ histogram, Tallies histogram ((candidates.filter fun evaluation => !evaluation.eligible).map CandidateEvaluation.rejection) ∧
      rejectionSummary candidates = histogram.map fun bucket => bucket.1.toText ++ "=" ++ natText bucket.2 := by
  refine ⟨_, Tallies.perm ?_ (perm_sortBy _ _), rfl⟩
  have hempty : Tallies [] [] := ⟨List.nodup_nil, fun _ => Iff.rfl, fun _ h => (nomatch h), rfl⟩
  exact hempty.counted_all _

theorem count_rejections (candidates : List CandidateEvaluation) (outcome : ScheduleOutcome) :
    ((candidates.filter fun evaluation => !evaluation.eligible).map CandidateEvaluation.rejection).count outcome =
      candidates.countP fun candidate => !candidate.eligible && candidate.rejection = outcome := by
  rw [List.count_eq_countP, List.countP_map, List.countP_filter]
  refine List.countP_congr fun candidate _ => ?_
  simp [and_comm]

theorem length_rejections (candidates : List CandidateEvaluation) :
    ((candidates.filter fun evaluation => !evaluation.eligible).map CandidateEvaluation.rejection).length =
      candidates.length - candidates.countP CandidateEvaluation.eligible := by
  rw [List.length_map, ← List.countP_eq_length_filter, List.length_eq_countP_add_countP CandidateEvaluation.eligible]
  simp

/-! ### The ranking -/

section Ranking
variable {candidates : List CandidateEvaluation}

/-- The ranking order holds the eligible indices, each once. -/
theorem perm_rankingOrder (candidates : List CandidateEvaluation) :
    (rankingOrder candidates).Perm ((List.range candidates.length).filter fun index => (candidates.getD index {}).eligible) :=
  perm_sortBy _ _

theorem nodup_rankingOrder (candidates : List CandidateEvaluation) : (rankingOrder candidates).Nodup :=
  (perm_rankingOrder candidates).nodup_iff.mpr (List.nodup_range.filter _)

theorem mem_rankingOrder_iff {index : Nat} :
    index ∈ rankingOrder candidates ↔ ∃ evaluation, candidates[index]? = some evaluation ∧ evaluation.eligible := by
  refine ⟨mem_rankingOrder index, fun ⟨evaluation, hevaluation, heligible⟩ => ?_⟩
  obtain ⟨hlt, -⟩ := List.getElem?_eq_some_iff.mp hevaluation
  rw [(perm_rankingOrder candidates).mem_iff, List.mem_filter, List.mem_range]
  refine ⟨hlt, ?_⟩
  rw [List.getD_eq_getElem?_getD, hevaluation]
  exact heligible

/-- Counting over the ranking is counting over the eligible candidates. -/
theorem countP_rankingOrder (candidates : List CandidateEvaluation) (p : CandidateEvaluation → Bool) :
    (rankingOrder candidates).countP (fun index => p (candidates.getD index {})) =
      candidates.countP fun evaluation => p evaluation && evaluation.eligible := by
  rw [(perm_rankingOrder candidates).countP_eq, List.countP_filter]
  have hmap : (List.range candidates.length).map (fun index => candidates.getD index {}) = candidates := by
    refine List.ext_getElem (by simp) fun index hindex hindex' => ?_
    rw [List.getElem_map, List.getElem_range, List.getD_eq_getElem _ _ hindex']
  conv_rhs => rw [← hmap, List.countP_map]
  rfl

theorem length_rankingOrder (candidates : List CandidateEvaluation) :
    (rankingOrder candidates).length = candidates.countP CandidateEvaluation.eligible := by
  have hcount := countP_rankingOrder candidates fun _ => true
  rwa [List.countP_true] at hcount

/-- Where the candidates are different agents, each of the ranking outranks all that come after it. -/
theorem pairwise_rankingOrder (hdistinct : (candidates.map CandidateEvaluation.agent).Nodup) :
    (rankingOrder candidates).Pairwise fun left right => Outranks (candidates.getD left {}) (candidates.getD right {}) := by
  have hsorted : (rankingOrder candidates).Pairwise fun left right =>
      candidateBetter (candidates.getD right {}) (candidates.getD left {}) = false :=
    (strictWeakOrder_candidateBetter.on fun index => candidates.getD index {}).pairwise_sortBy _
  have hboth := hsorted.and (nodup_rankingOrder candidates)
  refine List.Pairwise.imp_of_mem (fun {left right} hleft hright h => ?_) hboth
  obtain ⟨hbetter, hne⟩ := h
  rw [candidateBetter_eq_false] at hbetter
  refine Outranks.of_not hbetter fun hagent => hne ?_
  obtain ⟨one, hone, -⟩ := mem_rankingOrder left hleft
  obtain ⟨other, hother, -⟩ := mem_rankingOrder right hright
  rw [List.getD_eq_getElem?_getD, List.getD_eq_getElem?_getD, hone, hother] at hagent
  refine (List.getElem?_inj ?_ hdistinct).mp ?_
  · rw [List.length_map]
    exact (List.getElem?_eq_some_iff.mp hone).1
  · rw [List.getElem?_map, List.getElem?_map, hone, hother]
    exact congrArg some hagent

/-- The place of a candidate in the ranking is the number of the eligible ones that outrank it. -/
theorem idxOf_rankingOrder (hdistinct : (candidates.map CandidateEvaluation.agent).Nodup) {index : Nat}
    (h : index ∈ rankingOrder candidates) : (rankingOrder candidates).idxOf index =
      candidates.countP fun rival => candidateBetter rival (candidates.getD index {}) && rival.eligible := by
  rw [← countP_rankingOrder candidates fun rival => candidateBetter rival (candidates.getD index {})]
  refine idxOf_eq_countP (strictWeakOrder_candidateBetter.on fun index => candidates.getD index {}).asymm ?_ h
  exact List.Pairwise.imp (fun houtranks => (candidateBetter_iff _ _).mpr houtranks) (pairwise_rankingOrder hdistinct)

/-- The rank of a candidate is its place in the ranking, from one on, and zero outside of it. -/
theorem getElem?_withRanks {order : List Nat} {index : Nat} {evaluation : CandidateEvaluation}
    (h : candidates[index]? = some evaluation) :
    (withRanks candidates order)[index]? =
      some { evaluation with rank := if index ∈ order then order.idxOf index + 1 else evaluation.rank } := by
  rw [withRanks, List.getElem?_mapIdx, h, Option.map_some]
  split <;> rfl

end Ranking

/-! ### Plans -/

/-- The agent passes hard eligibility for the work. -/
def Impl.Qualifies (impl : Impl) (ctx : Context) (work : WorkRecord) (record : AgentRecord) : Prop :=
  eligibility ctx.now impl work record (evaluateFeasibility ctx work) = .ok ()

/-- The evaluation of one agent, scored when the agent is eligible. -/
def candidateOf (ctx : Context) (impl : Impl) (work : WorkRecord) (record : AgentRecord) : CandidateEvaluation :=
  let evaluation := evaluateEligibility ctx.now impl work record (evaluateFeasibility ctx work)
  if evaluation.eligible then scoreCandidate ctx.now impl work record (evaluateFeasibility ctx work) evaluation
  else evaluation

/-- The evaluation without the fields that only the ranking fills in. -/
def CandidateEvaluation.unranked (evaluation : CandidateEvaluation) : CandidateEvaluation :=
  { evaluation with rank := 0, selected := false, tieBreakDecided := false, tieBreakReason := "" }

/-- The ranking looks at nothing that it fills in. -/
theorem Outranks.of_unranked {left left' right right' : CandidateEvaluation} (h : Outranks left right)
    (hleft : left'.unranked = left.unranked) (hright : right'.unranked = right.unranked) : Outranks left' right' := by
  change Outranks left'.unranked right'.unranked
  rw [hleft, hright]
  exact h

section Plans
variable {ctx : Context} {impl : Impl} {work : WorkRecord} {record : AgentRecord}

theorem evaluateCandidates_eq : evaluateCandidates ctx impl work = impl.agents.values.map (candidateOf ctx impl work) := rfl

theorem candidateOf_agent : (candidateOf ctx impl work record).agent = record.descriptor.id := by
  unfold candidateOf evaluateEligibility
  cases eligibility ctx.now impl work record (evaluateFeasibility ctx work) <;> rfl

theorem candidateOf_eligible : (candidateOf ctx impl work record).eligible ↔ impl.Qualifies ctx work record := by
  unfold Impl.Qualifies
  rw [← eligible_iff, candidateOf]
  split <;> rfl

theorem candidateOf_unranked : (candidateOf ctx impl work record).unranked = candidateOf ctx impl work record := by
  unfold candidateOf evaluateEligibility
  cases eligibility ctx.now impl work record (evaluateFeasibility ctx work) <;> rfl

/-- Where every agent is filed under its own id, the candidates are different agents. -/
theorem nodup_evaluated (h : Keyed (fun record : AgentRecord => record.descriptor.id) impl.agents) :
    ((evaluateCandidates ctx impl work).map CandidateEvaluation.agent).Nodup := by
  have hids : (evaluateCandidates ctx impl work).map CandidateEvaluation.agent = impl.agents.toList.map Prod.fst := by
    rw [evaluateCandidates_eq, List.map_map, values_eq, List.map_map]
    refine List.map_congr_left fun entry hentry => ?_
    exact candidateOf_agent.trans (h entry.1 entry.2 (ExtTreeMap.mem_toList_iff_getElem?_eq_some.mp hentry))
  rw [hids]
  exact nodup_toList impl.agents

/-- The candidates as the decision lists them, the selected one marked. -/
def listed (evaluated : List CandidateEvaluation) (order : List Nat) : List CandidateEvaluation :=
  match order with
  | [] => withRanks evaluated order
  | winner :: _ => markSelected (withRanks evaluated order) order winner

theorem getElem?_listed {evaluated : List CandidateEvaluation} {order : List Nat} {index : Nat}
    {evaluation : CandidateEvaluation} (h : evaluated[index]? = some evaluation) :
    ∃ candidate, (listed evaluated order)[index]? = some candidate ∧ candidate.unranked = evaluation.unranked ∧
      candidate.rank = (if index ∈ order then order.idxOf index + 1 else evaluation.rank) ∧
      candidate.selected = (decide (order.head? = some index) || evaluation.selected) := by
  have hranked := @getElem?_withRanks _ order _ _ h
  cases order with
  | nil => exact ⟨_, hranked, rfl, rfl, by simp⟩
  | cons winner rest =>
    change ∃ candidate, (markSelected _ _ _)[index]? = _ ∧ _
    rw [markSelected, List.getElem?_mapIdx, hranked, Option.map_some]
    by_cases hwinner : index = winner
    · rw [if_pos hwinner]
      exact ⟨_, rfl, rfl, rfl, by simp [hwinner]⟩
    · rw [if_neg hwinner]
      exact ⟨_, rfl, rfl, rfl, by simp [Ne.symm hwinner]⟩

theorem length_listed (evaluated : List CandidateEvaluation) (order : List Nat) :
    (listed evaluated order).length = evaluated.length := by
  cases order <;> simp [listed, markSelected, withRanks]

theorem map_unranked_listed (evaluated : List CandidateEvaluation) (order : List Nat) :
    (listed evaluated order).map CandidateEvaluation.unranked = evaluated.map CandidateEvaluation.unranked := by
  refine List.ext_getElem? fun index => ?_
  rw [List.getElem?_map, List.getElem?_map]
  cases hevaluation : evaluated[index]? with
  | none =>
    rw [List.getElem?_eq_none_iff, ← length_listed evaluated order, ← List.getElem?_eq_none_iff] at hevaluation
    rw [hevaluation]
  | some evaluation =>
    obtain ⟨candidate, hcandidate, hunranked, -, -⟩ := @getElem?_listed _ order _ _ hevaluation
    rw [hcandidate]
    exact congrArg some hunranked

/-- What is counted among the listed candidates may be counted among the evaluated ones, unless it is about the ranks. -/
theorem countP_listed (evaluated : List CandidateEvaluation) (order : List Nat) (p : CandidateEvaluation → Bool)
    (h : ∀ evaluation, p evaluation.unranked = p evaluation) : (listed evaluated order).countP p = evaluated.countP p := by
  have hp : p ∘ CandidateEvaluation.unranked = p := funext h
  have hcount := congrArg (List.countP p) (map_unranked_listed evaluated order)
  rwa [List.countP_map, List.countP_map, hp] at hcount

/-- What the decision of a plan past its gates reports. -/
theorem planLocked_reports (hgates : planGates ctx.now impl work = .ok ()) :
    (planLocked ctx impl work).decision.candidateCount = (evaluateCandidates ctx impl work).length ∧
    (planLocked ctx impl work).decision.eligibleCount = (rankingOrder (evaluateCandidates ctx impl work)).length ∧
    (planLocked ctx impl work).decision.rejectionSummary = rejectionSummary (evaluateCandidates ctx impl work) ∧
    (planLocked ctx impl work).decision.rankingOrder = rankingOrder (evaluateCandidates ctx impl work) ∧
    (planLocked ctx impl work).decision.candidates =
      listed (evaluateCandidates ctx impl work) (rankingOrder (evaluateCandidates ctx impl work)) := by
  unfold planLocked
  rw [hgates]
  simp only
  cases horder : rankingOrder (evaluateCandidates ctx impl work) with
  | nil => exact ⟨rfl, rfl, rfl, rfl, rfl⟩
  | cons winner rest =>
    simp only
    split <;> exact ⟨rfl, rfl, rfl, rfl, rfl⟩

theorem candidate_of_index {index : Nat} {evaluation : CandidateEvaluation}
    (h : (evaluateCandidates ctx impl work)[index]? = some evaluation) :
    ∃ (agent : AgentId) (record : AgentRecord), impl.agents[agent]? = some record ∧ evaluation = candidateOf ctx impl work record := by
  obtain ⟨record, hmem, rfl⟩ := List.mem_map.mp (evaluateCandidates_eq ▸ List.mem_of_getElem? h)
  obtain ⟨agent, hrecord⟩ := mem_values.mp hmem
  exact ⟨agent, record, hrecord, rfl⟩

theorem index_of_agent {agent : AgentId} (h : impl.agents[agent]? = some record) :
    ∃ index : Nat, (evaluateCandidates ctx impl work)[index]? = some (candidateOf ctx impl work record) :=
  List.mem_iff_getElem?.mp (List.mem_map_of_mem (mem_values.mpr ⟨agent, h⟩))

/-- The head of the ranking is the agent that the plan binds. -/
theorem planLocked_selects {winner : Nat} {rest : List Nat} (hkeyed : Keyed (fun record : AgentRecord => record.descriptor.id) impl.agents)
    (hgates : planGates ctx.now impl work = .ok ()) (horder : rankingOrder (evaluateCandidates ctx impl work) = winner :: rest) :
    ∃ record, impl.agents[record.descriptor.id]? = some record ∧
      (evaluateCandidates ctx impl work)[winner]? = some (candidateOf ctx impl work record) ∧ impl.Qualifies ctx work record ∧
      (planLocked ctx impl work).decision.selectedAgent = record.descriptor.id ∧
      (planLocked ctx impl work).binding = some (planBinding ctx.now impl work record) := by
  obtain ⟨evaluation, hevaluation, heligible⟩ := mem_rankingOrder winner (horder ▸ List.mem_cons_self)
  obtain ⟨agent, record, hrecord, rfl⟩ := candidate_of_index hevaluation
  have hid : record.descriptor.id = agent := hkeyed agent record hrecord
  have hwinner := (getD_withRanks (winner :: rest) hevaluation).1.trans candidateOf_agent
  have hstored : impl.agents[record.descriptor.id]? = some record := by
    rw [hid]
    exact hrecord
  refine ⟨record, hstored, hevaluation, candidateOf_eligible.mp heligible, ?_⟩
  unfold planLocked
  rw [hgates]
  simp only [horder, hwinner, hstored]
  exact ⟨trivial, trivial⟩

theorem planLocked_unselected (hgates : planGates ctx.now impl work = .ok ())
    (horder : rankingOrder (evaluateCandidates ctx impl work) = []) : (planLocked ctx impl work).binding = none := by
  unfold planLocked
  rw [hgates]
  simp only [horder]

/-- What is asked of a plan: it binds the best eligible agent if there is one, and ranks and counts all of them. -/
structure SoundPlan (ctx : Context) (impl : Impl) (work : WorkRecord) (plan : PlanResult) : Prop where
  binds : plan.binding.isSome ↔ ∃ (agent : AgentId) (record : AgentRecord), impl.agents[agent]? = some record ∧ impl.Qualifies ctx work record
  best : ∀ binding, plan.binding = some binding → plan.decision.selectedAgent = binding.agent ∧
    ∃ record, impl.agents[binding.agent]? = some record ∧ impl.Qualifies ctx work record ∧
      ∀ (other : AgentId) (rival : AgentRecord), impl.agents[other]? = some rival → other ≠ binding.agent →
        impl.Qualifies ctx work rival → Outranks (candidateOf ctx impl work record) (candidateOf ctx impl work rival)
  candidates : plan.decision.candidates.map CandidateEvaluation.unranked = impl.agents.values.map (candidateOf ctx impl work)
  ranked : plan.decision.rankingOrder.Nodup ∧ ∀ index, index ∈ plan.decision.rankingOrder ↔
    ∃ candidate, plan.decision.candidates[index]? = some candidate ∧ candidate.eligible
  sorted : plan.decision.rankingOrder.Pairwise fun left right =>
    Outranks (plan.decision.candidates.getD left {}) (plan.decision.candidates.getD right {})
  ranks : ∀ (index : Nat) candidate, plan.decision.candidates[index]? = some candidate →
    candidate.rank = (if index ∈ plan.decision.rankingOrder then plan.decision.rankingOrder.idxOf index + 1 else 0) ∧
    (candidate.selected ↔ plan.decision.rankingOrder.head? = some index)
  candidateCount : plan.decision.candidateCount = impl.agents.size
  eligibleCount : plan.decision.eligibleCount = plan.decision.candidates.countP CandidateEvaluation.eligible
  rejections : ∃ histogram : List (ScheduleOutcome × Nat),
    plan.decision.rejectionSummary = histogram.map (fun bucket => bucket.1.toText ++ "=" ++ natText bucket.2) ∧
    (histogram.map Prod.fst).Nodup ∧
    (∀ bucket ∈ histogram, bucket.2 = plan.decision.candidates.countP fun candidate =>
      !candidate.eligible && candidate.rejection = bucket.1) ∧
    (histogram.map Prod.snd).sum = plan.decision.candidateCount - plan.decision.eligibleCount

/-- Whoever qualifies has a place in the ranking. -/
theorem place_of_qualified {agent : AgentId} (h : impl.agents[agent]? = some record) (hqualifies : impl.Qualifies ctx work record) :
    ∃ index ∈ rankingOrder (evaluateCandidates ctx impl work),
      (evaluateCandidates ctx impl work)[index]? = some (candidateOf ctx impl work record) := by
  obtain ⟨index, hindex⟩ := @index_of_agent ctx impl work record _ h
  exact ⟨index, mem_rankingOrder_iff.mpr ⟨_, hindex, candidateOf_eligible.mpr hqualifies⟩, hindex⟩

theorem planLocked_binds_iff (hkeyed : Keyed (fun record : AgentRecord => record.descriptor.id) impl.agents)
    (hgates : planGates ctx.now impl work = .ok ()) :
    (planLocked ctx impl work).binding.isSome ↔
      ∃ (agent : AgentId) (record : AgentRecord), impl.agents[agent]? = some record ∧ impl.Qualifies ctx work record := by
  cases hhead : rankingOrder (evaluateCandidates ctx impl work) with
  | nil =>
    rw [planLocked_unselected hgates hhead]
    constructor
    · intro hsome
      cases hsome
    · rintro ⟨agent, record, hrecord, hqualifies⟩
      obtain ⟨index, hmem, -⟩ := place_of_qualified hrecord hqualifies
      rw [hhead] at hmem
      cases hmem
  | cons winner rest =>
    obtain ⟨record, hrecord, -, hqualifies, -, hbinding⟩ := planLocked_selects hkeyed hgates hhead
    rw [hbinding]
    exact ⟨fun _ => ⟨_, record, hrecord, hqualifies⟩, fun _ => rfl⟩

/-- The bound agent qualifies and outranks every other that does. -/
theorem planLocked_best {binding : AssignmentBinding} (hkeyed : Keyed (fun record : AgentRecord => record.descriptor.id) impl.agents)
    (hgates : planGates ctx.now impl work = .ok ()) (hbinding : (planLocked ctx impl work).binding = some binding) :
    (planLocked ctx impl work).decision.selectedAgent = binding.agent ∧
      ∃ record, impl.agents[binding.agent]? = some record ∧ impl.Qualifies ctx work record ∧
        ∀ (other : AgentId) (rival : AgentRecord), impl.agents[other]? = some rival → other ≠ binding.agent →
          impl.Qualifies ctx work rival → Outranks (candidateOf ctx impl work record) (candidateOf ctx impl work rival) := by
  have hranking := pairwise_rankingOrder (@nodup_evaluated ctx impl work hkeyed)
  cases hhead : rankingOrder (evaluateCandidates ctx impl work) with
  | nil =>
    rw [planLocked_unselected hgates hhead] at hbinding
    cases hbinding
  | cons winner rest =>
    obtain ⟨record, hrecord, hwinner, hqualifies, hselected, hbound⟩ := planLocked_selects hkeyed hgates hhead
    obtain rfl := Option.some.inj (hbound.symm.trans hbinding)
    refine ⟨hselected, record, hrecord, hqualifies, fun other rival hrival hother hqualified => ?_⟩
    obtain ⟨index, hmem, hindex⟩ := place_of_qualified hrival hqualified
    rw [hhead] at hmem hranking
    rcases List.mem_cons.mp hmem with rfl | hmem
    · have heq := congrArg CandidateEvaluation.agent (Option.some.inj (hwinner.symm.trans hindex))
      rw [candidateOf_agent, candidateOf_agent] at heq
      exact absurd ((hkeyed other rival hrival).symm.trans heq.symm) hother
    · have houtranks := (List.pairwise_cons.mp hranking).1 index hmem
      rwa [List.getD_eq_getElem?_getD, List.getD_eq_getElem?_getD, hwinner, hindex] at houtranks

/-- The listed candidates are the evaluated ones, at the same places. -/
theorem getElem?_listed_iff {evaluated : List CandidateEvaluation} {order : List Nat} {index : Nat} {candidate : CandidateEvaluation}
    (h : (listed evaluated order)[index]? = some candidate) :
    ∃ evaluation, evaluated[index]? = some evaluation ∧ candidate.unranked = evaluation.unranked ∧
      candidate.rank = (if index ∈ order then order.idxOf index + 1 else evaluation.rank) ∧
      candidate.selected = (decide (order.head? = some index) || evaluation.selected) := by
  obtain ⟨hlt, -⟩ := List.getElem?_eq_some_iff.mp h
  rw [length_listed] at hlt
  refine ⟨evaluated[index], List.getElem?_eq_getElem hlt, ?_⟩
  obtain ⟨found, hfound, hproperties⟩ := @getElem?_listed _ order _ _ (List.getElem?_eq_getElem hlt)
  obtain rfl := Option.some.inj (hfound.symm.trans h)
  exact hproperties

theorem mem_ranking_listed {evaluated : List CandidateEvaluation} {index : Nat} :
    index ∈ rankingOrder evaluated ↔
      ∃ candidate, (listed evaluated (rankingOrder evaluated))[index]? = some candidate ∧ candidate.eligible := by
  rw [mem_rankingOrder_iff]
  constructor
  · rintro ⟨evaluation, hevaluation, heligible⟩
    obtain ⟨candidate, hcandidate, hunranked, -, -⟩ := @getElem?_listed _ (rankingOrder evaluated) _ _ hevaluation
    have hsame := congrArg CandidateEvaluation.eligible hunranked
    exact ⟨candidate, hcandidate, hsame.trans heligible⟩
  · rintro ⟨candidate, hcandidate, heligible⟩
    obtain ⟨evaluation, hevaluation, hunranked, -, -⟩ := getElem?_listed_iff hcandidate
    have hsame := congrArg CandidateEvaluation.eligible hunranked
    exact ⟨evaluation, hevaluation, hsame.symm.trans heligible⟩

theorem unranked_getD_listed (evaluated : List CandidateEvaluation) (order : List Nat) (index : Nat) :
    ((listed evaluated order).getD index {}).unranked = (evaluated.getD index {}).unranked := by
  rw [List.getD_eq_getElem?_getD, List.getD_eq_getElem?_getD]
  cases hleft : (listed evaluated order)[index]? with
  | none =>
    cases hright : evaluated[index]? with
    | none => rfl
    | some evaluation =>
      obtain ⟨candidate, hcandidate, -⟩ := @getElem?_listed _ order _ _ hright
      rw [hleft] at hcandidate
      cases hcandidate
  | some candidate =>
    obtain ⟨evaluation, hevaluation, hunranked, -⟩ := getElem?_listed_iff hleft
    rw [hevaluation]
    exact hunranked

/-- The candidates of a plan past its gates are the evaluations of the agents, ranked. -/
theorem unranked_candidates (hgates : planGates ctx.now impl work = .ok ()) :
    (planLocked ctx impl work).decision.candidates.map CandidateEvaluation.unranked = evaluateCandidates ctx impl work := by
  obtain ⟨-, -, -, -, hcandidates⟩ := planLocked_reports hgates
  rw [hcandidates, map_unranked_listed, evaluateCandidates_eq, List.map_map]
  exact List.map_congr_left fun record _ => candidateOf_unranked

/-- The plan for work that passes the gates binds the best of the eligible agents, and ranks and counts all of them.
Every reachable state files its agents under their own ids (`Consistent.agentKey`). -/
theorem planning_sound (ctx : Context) (impl : Impl) (work : WorkRecord)
    (hkeyed : Keyed (fun record : AgentRecord => record.descriptor.id) impl.agents)
    (hgates : planGates ctx.now impl work = .ok ()) : SoundPlan ctx impl work (planLocked ctx impl work) := by
  obtain ⟨hcount, heligible, hsummary, horder, hcandidates⟩ := planLocked_reports hgates
  constructor
  case binds => exact planLocked_binds_iff hkeyed hgates
  case best => exact fun binding => planLocked_best hkeyed hgates
  case candidates => exact unranked_candidates hgates
  case ranked =>
    rw [horder, hcandidates]
    exact ⟨nodup_rankingOrder _, fun index => mem_ranking_listed⟩
  case sorted =>
    rw [horder, hcandidates]
    refine List.Pairwise.imp (fun {left right} h => ?_) (pairwise_rankingOrder (nodup_evaluated hkeyed))
    exact h.of_unranked (unranked_getD_listed _ _ left) (unranked_getD_listed _ _ right)
  case ranks =>
    intro index candidate hcandidate
    rw [hcandidates] at hcandidate
    obtain ⟨evaluation, hevaluation, -, hrank, hselected⟩ := getElem?_listed_iff hcandidate
    obtain ⟨agent, record, -, rfl⟩ := candidate_of_index hevaluation
    rw [horder, hrank, hselected]
    have hunranked : candidateOf ctx impl work record = _ := candidateOf_unranked.symm
    rw [hunranked]
    exact ⟨rfl, by simp [CandidateEvaluation.unranked]⟩
  case candidateCount =>
    rw [hcount, evaluateCandidates_eq, List.length_map, values_eq, List.length_map, ExtTreeMap.length_toList]
  case eligibleCount =>
    rw [heligible, hcandidates, length_rankingOrder, countP_listed _ _ _ fun _ => rfl]
  case rejections =>
    obtain ⟨histogram, htallies, htext⟩ := rejectionSummary_tallies (evaluateCandidates ctx impl work)
    refine ⟨histogram, hsummary.trans htext, htallies.distinct, fun bucket hbucket => ?_, ?_⟩
    · rw [hcandidates, countP_listed _ _ _ fun _ => rfl, htallies.counts bucket hbucket, count_rejections]
    · rw [hcount, heligible, htallies.total, length_rankingOrder, length_rejections]

end Plans

/-- Work for two agents, of which only the first has published what it can do. -/
def Sample.considered : Option (System × WorkRecord) := do
  let system ← run (fun _ _ => True)
    (enlist ++ [.begin (.registerAgent { descriptor with id := 2, boot := ⟨⟨0, 2⟩⟩ }), .finish 0] ++ submit exclusiveWork)
  let work ← system.impl.work[(5 : WorkId)]?
  return (system, work)

set_option maxRecDepth 100000 in
/-- The plan binds agent 1, and agent 2 is turned down. -/
theorem planning_sound_sample : ∃ system work, Sample.considered = some (system, work) ∧
    (planLocked system.context system.impl work).decision.selectedAgent = 1 ∧
    (planLocked system.context system.impl work).decision.candidateCount = 2 ∧
    SoundPlan system.context system.impl work (planLocked system.context system.impl work) := by
  have hview : Sample.considered.map (fun (system, work) =>
      (decide (planGates system.context.now system.impl work = .ok ()),
        (planLocked system.context system.impl work).decision.selectedAgent,
        (planLocked system.context system.impl work).decision.candidateCount)) = some (true, 1, 2) := by decide +kernel
  obtain ⟨⟨system, work⟩, hsample, hview⟩ := Option.map_eq_some_iff.mp hview
  simp only [Prod.mk.injEq] at hview
  obtain ⟨hgates, hselected, hcount⟩ := hview
  refine ⟨system, work, hsample, hselected, hcount, ?_⟩
  unfold Sample.considered at hsample
  simp only [Option.bind_eq_bind, Option.bind_eq_some_iff] at hsample
  obtain ⟨reached, hrun, _, -, hreturn⟩ := hsample
  obtain ⟨rfl, rfl⟩ : reached = system ∧ _ = work := by simpa using hreturn
  have hkeyed := (Sample.run_reaches hrun).valid.healthy.consistent.agentKey
  exact planning_sound reached.context reached.impl _ hkeyed (of_decide_eq_true hgates)

end AgentScheduler
