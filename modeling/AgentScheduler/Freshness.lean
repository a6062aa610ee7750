import AgentScheduler.Sorting
import AgentScheduler.Departure

/-! Required capabilities: which evidence an eligible agent has for them, and how old it is. -/
namespace AgentScheduler
open Std KeyedTable Relation

/-- The observation of the evidence is not in the future and at most so old. -/
def CapabilityEvidence.Fresh (evidence : CapabilityEvidence) (now staleness : UInt64) : Prop :=
  evidence.observedAtMs ≤ now ∧ now - evidence.observedAtMs ≤ staleness

/-- The evidence comes from the current boot and capability generation of the agent, and meets a requirement. -/
structure CapabilityEvidence.Meets (evidence : CapabilityEvidence) (requirement : CapabilityRequirement) (agent : AgentRecord) :
    Prop where
  boot : evidence.boot = agent.descriptor.boot
  generation : evidence.generation = agent.profile.generation
  usable : evidence.state.isUsable
  state : requirement.minimumState.rank ≤ evidence.state.rank
  quality : requirement.minimumQuality ≤ evidence.quality

theorem withinStaleness_iff {evidence : CapabilityEvidence} {now staleness : UInt64} :
    withinStaleness now evidence.observedAtMs staleness ↔ evidence.Fresh now staleness := by
  unfold withinStaleness CapabilityEvidence.Fresh
  split
  · next hfuture =>
    refine iff_of_false nofun fun hfresh => ?_
    exact UInt64.not_lt.mpr hfresh.1 hfuture
  · next hpast => simp [UInt64.not_lt.mp hpast]

/-! ### Stored profiles are sorted -/

/-- Every stored profile is sorted by name. -/
def Impl.Catalogued (impl : Impl) : Prop :=
  ∀ (agent : AgentId) record, impl.agents[agent]? = some record → record.profile.Sorted

section Catalogued
variable {ctx : Context} {impl impl' : Impl} {system : System}

theorem map_of_mapM {α β γ ε : Type} {f : α → Except ε β} {g : α → γ} {g' : β → γ} {list : List α} {values : List β}
    (hkeeps : ∀ item value, f item = .ok value → g' value = g item) (h : list.mapM f = .ok values) :
    values.map g' = list.map g := by
  induction list generalizing values with
  | nil =>
    obtain rfl := Except.ok.inj h
    rfl
  | cons item rest ih =>
    rw [List.mapM_cons] at h
    obtain ⟨value, hvalue, h⟩ := except_bind_eq_ok.mp h
    obtain ⟨others, hothers, h⟩ := except_bind_eq_ok.mp h
    obtain rfl := Except.ok.inj h
    rw [List.map_cons, List.map_cons, hkeeps item value hvalue, ih hothers]

theorem bindEvidence_name {now : UInt64} {boot : AgentBootId} {generation : AgentCapabilityGeneration}
    {evidence bound : CapabilityEvidence} (h : bindEvidence now boot generation evidence = .ok bound) :
    bound.name = evidence.name := by
  simp only [bindEvidence, except_bind_eq_ok] at h
  obtain ⟨-, -, -, -, h⟩ := h
  obtain rfl := Except.ok.inj h
  rfl

/-- What a publication stores is sorted. -/
theorem checkCapabilities_sorted {now : UInt64} {agent : AgentId} {boot : AgentBootId} {profile canonical : CapabilityProfile}
    (h : checkCapabilities now impl agent boot profile = .ok (some canonical)) : canonical.Sorted := by
  unfold checkCapabilities at h
  simp only [except_bind_eq_ok] at h
  obtain ⟨sorted, hsorted, record, -, -, -, -, -, h⟩ := h
  split at h
  · simp only [except_bind_eq_ok] at h
    obtain ⟨-, -, h⟩ := h
    cases h
  · simp only [except_bind_eq_ok] at h
    obtain ⟨capabilities, hbound, h⟩ := h
    obtain rfl := Option.some.inj (Except.ok.inj h)
    exact (CapabilityProfile.canonicalize_sorted hsorted).of_names
      (map_of_mapM (g := CapabilityEvidence.name) (fun _ _ => bindEvidence_name) hbound)

theorem invalidateEvidence_sorted {profile : CapabilityProfile} (h : profile.Sorted) : profile.invalidateEvidence.Sorted := by
  refine h.of_names ?_
  change (profile.capabilities.map _).map CapabilityEvidence.name = _
  rw [List.map_map]
  rfl

theorem freshAgent_profile (now : UInt64) (impl : Impl) (descriptor : AgentDescriptor) (reason : Text) :
    (freshAgent now impl descriptor reason).profile = {} := by
  unfold freshAgent
  rw [recomputeLifecycle_eq]

/-- A chain that publishes only sorted profiles keeps every stored profile sorted. -/
theorem Deeds.catalogued {allows : Event → Prop} {stale stale' : Set AgentId}
    (hdeeds : Deeds ctx allows (stale, impl) (stale', impl')) (hconsistent : Consistent impl) (h : impl.Catalogued)
    (hpublished : ∀ agent boot profile, allows (.touches agent (.published boot profile)) → profile.Sorted) :
    impl'.Catalogued := by
  refine hdeeds.keeps (motive := fun scene => scene.2.Catalogued)
    (fun event scene scene' hallows hdeed hscene hinv agent record' hrecord' => ?_) hconsistent h
  cases hdeed.agentEffect hscene hrecord' with
  | kept record hrecord hkeeps =>
    rw [(AgentRecord.read_of_essence hkeeps.essence).2.1]
    exact hinv agent record hrecord
  | touched record touch hevent hrecord hadmits hupdate =>
    subst hupdate hevent
    have hsorted := hinv agent record hrecord
    cases touch with
    | published boot profile => exact hpublished agent boot profile hallows
    | retired | lost => exact invalidateEvidence_sorted hsorted
    | reported | available | drained | reregistered => exact hsorted
  | enrolled descriptor reason hevent hid hfresh =>
    rw [hfresh, freshAgent_profile]
    exact List.Pairwise.nil

/-- Stored profiles are sorted in every reachable state. -/
theorem System.Reachable.catalogued (h : system.Reachable) : system.impl.Catalogued := by
  refine (System.ReachableBy.stores (motive := Impl.Catalogued) h (fun hconstruct agent record hrecord => ?_)
    (fun {impl file} hfile hinv agent record hrecord => ?_) fun {s s'} {label} {reply} hvalid _ hstep hdeeds hinv => ?_).1
  · rw [construct_agents hconstruct] at hrecord
    simp at hrecord
  · obtain ⟨saved, hsaved, hkeeps⟩ := agents_restore impl hfile hrecord
    rw [(AgentRecord.read_of_essence hkeeps.essence).2.1]
    exact invalidateEvidence_sorted (hinv agent saved hsaved)
  · have hconsistent := hvalid.healthy.consistent
    by_cases hpublishes : ∃ agent boot profile, label = .run (.publishCapabilities agent boot profile)
    · obtain ⟨agent, boot, profile, rfl⟩ := hpublishes
      obtain ⟨-, rfl⟩ := Prod.mk.inj (Option.some.inj hstep)
      let publishes (event : Event) : Prop := ∀ other boot canonical, event = .touches other (.published boot canonical) →
        canonical.Sorted
      have hchain : Deeds s.context publishes (∅, s.impl) (∅, (publishCapabilities s.now s.impl agent boot profile).2) := by
        refine publishCapabilities_deeds (fun event hbook => ?_) (fun canonical hcheck => ?_) fun id => ?_
        · rintro other boot canonical rfl
          exact hbook.elim
        · rintro other boot' canonical' heq
          obtain ⟨-, rfl⟩ := AgentEvent.published.inj (Event.touches.inj heq).2
          exact checkCapabilities_sorted hcheck
        · rintro other boot canonical heq
          cases heq
      exact hchain.catalogued hconsistent hinv fun agent boot profile hallows => hallows agent boot profile rfl
    · refine hdeeds.catalogued hconsistent hinv fun agent boot profile hallows => ?_
      rcases hallows with hbook | hcauses
      · exact hbook.elim
      · cases label with
        | run operation =>
          cases operation with
          | publishCapabilities named boot profile => exact (hpublishes ⟨named, boot, profile, rfl⟩).elim
          | _ => exact hcauses.elim
        | finish position =>
          obtain ⟨call, -, hcause⟩ := hcauses
          cases call <;> exact hcause.elim
        | _ => exact hcauses.elim

end Catalogued

/-! ### What eligibility says of required capabilities -/

section Eligibility
variable {now : UInt64} {impl : Impl} {work : WorkRecord} {record : AgentRecord} {feasibility : ExternalFeasibilityResult}
  {requirement : CapabilityRequirement}

/-- Every capability the work requires rests on evidence of the agent that is fresh, current and sufficient. -/
def Supported (now staleness : UInt64) (work : WorkRecord) (record : AgentRecord) : Prop :=
  ∀ requirement ∈ work.request.requirements.capabilities, requirement.mode = .required →
    ∃ evidence ∈ record.profile.capabilities, evidence.name = requirement.name ∧ evidence.Fresh now staleness ∧
      evidence.Meets requirement record

/-- The evidence for every required capability, that of the first name in the profile aside, is fresh. -/
def FreshBeyondFirst (now staleness : UInt64) (work : WorkRecord) (record : AgentRecord) : Prop :=
  ∀ requirement ∈ work.request.requirements.capabilities, requirement.mode = .required →
    ∀ evidence ∈ record.profile.capabilities.tail, evidence.name = requirement.name → evidence.Fresh now staleness

/-- What the check of one required capability finds. -/
theorem checkCapability_ok (h : checkCapability now impl record requirement = .ok ()) :
    capabilityFresh now impl record ∧ ∃ evidence ∈ record.profile.capabilities, evidence.name = requirement.name ∧
      evidence.Meets requirement record := by
  unfold checkCapability at h
  simp only [except_bind_eq_ok, refuseIf_eq_ok, lookupOrRefuse_eq_ok] at h
  obtain ⟨-, -, -, hfresh, evidence, hfound, -, hcurrent, -, hstate, hquality⟩ := h
  obtain ⟨hmem, hname⟩ := findCapability_eq_some hfound
  refine ⟨not_not.mp hfresh, evidence, hmem, hname, ?_⟩
  simp only [not_or, not_not] at hcurrent hstate
  exact ⟨hcurrent.2, hcurrent.1, hstate.1, Int.not_lt.mp hstate.2, UInt32.not_lt.mp hquality⟩

/-- The staleness of a profile is that of its first evidence. -/
theorem capabilityFresh_first {first : CapabilityEvidence} {rest : List CapabilityEvidence} (h : capabilityFresh now impl record)
    (hprofile : record.profile.capabilities = first :: rest) : first.Fresh now impl.policy.capabilityStalenessMs := by
  unfold capabilityFresh at h
  split at h
  · cases h
  · split at h
    · cases h
    · rw [hprofile] at h
      exact withinStaleness_iff.mp h

/-- An eligible agent supports the requirements exactly when its evidence beyond the first is fresh as well. -/
theorem supported_iff (hsorted : record.profile.Sorted) (heligible : eligibility now impl work record feasibility = .ok ()) :
    Supported now impl.policy.capabilityStalenessMs work record ↔
      FreshBeyondFirst now impl.policy.capabilityStalenessMs work record := by
  have hcapable : ∀ requirement ∈ work.request.requirements.capabilities, requirement.mode = .required →
      checkCapability now impl record requirement = .ok () := by
    unfold eligibility at heligible
    simp only [check_bind_eq_ok, forM_eq_ok] at heligible
    obtain ⟨-, -, -, -, hcapable, -⟩ := heligible
    intro requirement hmem hmode
    exact hcapable requirement (List.mem_filter.mpr ⟨hmem, by simpa using hmode⟩)
  constructor
  · intro hsupported requirement hmem hmode evidence htail hname
    obtain ⟨supporting, hstored, hnamed, hfresh, -⟩ := hsupported requirement hmem hmode
    have hsame : evidence = supporting :=
      hsorted.unique (List.mem_of_mem_tail htail) hstored (hname.trans hnamed.symm)
    rw [hsame]
    exact hfresh
  · intro hbeyond requirement hmem hmode
    obtain ⟨hfresh, evidence, hstored, hname, hmeets⟩ := checkCapability_ok (hcapable requirement hmem hmode)
    refine ⟨evidence, hstored, hname, ?_, hmeets⟩
    cases hprofile : record.profile.capabilities with
    | nil =>
      rw [hprofile] at hstored
      cases hstored
    | cons first rest =>
      rw [hprofile] at hstored
      rcases List.mem_cons.mp hstored with rfl | hrest
      · exact capabilityFresh_first hfresh hprofile
      · refine hbeyond requirement hmem hmode evidence ?_ hname
        rw [hprofile]
        exact hrest

end Eligibility

/-- In a reachable state an agent that passes hard eligibility for a work item, whatever the item and the verdict of the
feasibility provider, supports its required capabilities exactly when its evidence beyond the first name is fresh. -/
theorem required_capabilities_fresh_iff {system : System} {agent : AgentId} {record : AgentRecord} (hreach : system.Reachable)
    (hrecord : system.impl.agents[agent]? = some record) (work : WorkRecord) (feasibility : ExternalFeasibilityResult)
    (heligible : (evaluateEligibility system.now system.impl work record feasibility).eligible) :
    Supported system.now system.impl.policy.capabilityStalenessMs work record ↔
      FreshBeyondFirst system.now system.impl.policy.capabilityStalenessMs work record :=
  supported_iff (hreach.catalogued agent record hrecord) (eligible_iff.mp heligible)

namespace Sample

/-- Evidence of a name that was observed at some time, zero standing for the time of the publication. -/
def evidenceAt (name : UInt8) (observedAtMs : UInt64) : CapabilityEvidence :=
  { name := ⟨[name]⟩, state := .verified, quality := 1000, observedAtMs }

/-- Work that requires the capability of the second name. -/
def demandingWork : WorkRequest :=
  { exclusiveWork with requirements := { capabilities := [{ name := ⟨[98]⟩ }] } }

/-- An agent publishes two capabilities, the second observed at some time, and the work is submitted. -/
def mixedAges (observedAtMs : UInt64) : Option (System × AgentRecord × WorkRecord) := do
  let system ← run (fun _ _ => True)
    ([.tick 1000000, .begin (.registerAgent descriptor), .finish 0,
      .run (.publishCapabilities 1 boot { profile with capabilities := [evidenceAt 97 0, evidenceAt 98 observedAtMs] }),
      .run (.publishHealth 1 boot health), .run (.publishAvailability 1 boot availability)] ++ submit demandingWork)
  let record ← system.impl.agents[(1 : AgentId)]?
  let work ← system.impl.work[(5 : WorkId)]?
  return (system, record, work)

theorem mixedAges_spec {observedAtMs : UInt64} {system : System} {record : AgentRecord} {work : WorkRecord}
    (h : mixedAges observedAtMs = some (system, record, work)) :
    system.Reachable ∧ system.impl.agents[(1 : AgentId)]? = some record ∧ system.impl.work[(5 : WorkId)]? = some work := by
  simp only [mixedAges, Option.bind_eq_bind, Option.bind_eq_some_iff] at h
  obtain ⟨_, hrun, _, hrecord, _, hwork, hform⟩ := h
  obtain ⟨rfl, rfl, rfl⟩ : _ = system ∧ _ = record ∧ _ = work := by simpa using hform
  exact ⟨run_reaches hrun, hrecord, hwork⟩

end Sample
instance (evidence : CapabilityEvidence) (now staleness : UInt64) : Decidable (evidence.Fresh now staleness) :=
  inferInstanceAs (Decidable (_ ∧ _))

instance (now staleness : UInt64) (work : WorkRecord) (record : AgentRecord) :
    Decidable (FreshBeyondFirst now staleness work record) :=
  inferInstanceAs (Decidable (∀ requirement ∈ work.request.requirements.capabilities, requirement.mode = .required →
    ∀ evidence ∈ record.profile.capabilities.tail, evidence.name = requirement.name → evidence.Fresh now staleness))

/-- Whether the agent is eligible for the work, and whether its evidence beyond the first is fresh. -/
def Sample.judged (found : System × AgentRecord × WorkRecord) : Bool × Bool :=
  ((evaluateEligibility found.1.now found.1.impl found.2.2 found.2.1 (evaluateFeasibility found.1.context found.2.2)).eligible,
    FreshBeyondFirst found.1.now found.1.impl.policy.capabilityStalenessMs found.2.2 found.2.1)

set_option maxRecDepth 100000 in
/-- The capability of the second name was observed a moment ago. -/
theorem required_capabilities_fresh_iff_sample : ∃ system record work, Sample.mixedAges 999999 = some (system, record, work) ∧
    Supported system.now system.impl.policy.capabilityStalenessMs work record := by
  have hview : (Sample.mixedAges 999999).map Sample.judged = some (true, true) := by decide +kernel
  obtain ⟨⟨system, record, work⟩, hfound, hview⟩ := Option.map_eq_some_iff.mp hview
  obtain ⟨heligible, hfresh⟩ := Prod.mk.inj hview
  obtain ⟨hreach, hrecord, -⟩ := Sample.mixedAges_spec hfound
  exact ⟨system, record, work, hfound,
    (required_capabilities_fresh_iff hreach hrecord work _ heligible).mpr (of_decide_eq_true hfresh)⟩

set_option maxRecDepth 100000 in
/-- The capability of the second name was observed long ago, but the first one just now. -/
theorem not_required_capabilities_fresh : ¬∀ (system : System) (agent : AgentId) (id : WorkId) (record : AgentRecord)
    (work : WorkRecord), system.Reachable → system.impl.agents[agent]? = some record → system.impl.work[id]? = some work →
    (evaluateEligibility system.now system.impl work record (evaluateFeasibility system.context work)).eligible →
    Supported system.now system.impl.policy.capabilityStalenessMs work record := by
  intro hsupported
  have hview : (Sample.mixedAges 1).map Sample.judged = some (true, false) := by decide +kernel
  obtain ⟨⟨system, record, work⟩, hfound, hview⟩ := Option.map_eq_some_iff.mp hview
  obtain ⟨heligible, hstale⟩ := Prod.mk.inj hview
  obtain ⟨hreach, hrecord, hwork⟩ := Sample.mixedAges_spec hfound
  have hcapable := hsupported system 1 5 record work hreach hrecord hwork heligible
  have hfresh := (supported_iff (hreach.catalogued 1 record hrecord) (eligible_iff.mp heligible)).mp hcapable
  exact of_decide_eq_false hstale hfresh

end AgentScheduler
