import AgentScheduler.Departure

/-! Registration: whether the incarnation that a registration installs can be used. -/
namespace AgentScheduler
open Std KeyedTable Relation

/-! ### Publications of a current incarnation -/

/-- The profile loop of `publish_capabilities` accepts the evidence. -/
def CapabilityEvidence.Fits (evidence : CapabilityEvidence) (now : UInt64) (boot : AgentBootId) : Prop :=
  (evidence.boot.isZero ∨ evidence.boot = boot) ∧ evidence.observedAtMs ≤ now

/-- The profile is of a later generation than the stored one, or of the same one when that is no longer current. -/
def CapabilityProfile.Supersedes (profile : CapabilityProfile) (record : AgentRecord) : Prop :=
  ¬profile.generation < record.profile.generation ∧
    (profile.generation = record.profile.generation → record.capabilityCurrent = false)

/-- The boot is the current boot of the agent and not fenced, and every valid publication that names it is accepted. -/
structure Impl.Usable (impl : Impl) (now : UInt64) (agent : AgentId) (boot : AgentBootId) : Prop where
  current : ∃ record, impl.agents[agent]? = some record ∧ record.descriptor.boot = boot
  unfenced : bootIsFenced impl boot = false
  health : ∀ record observation, impl.agents[agent]? = some record → observation.validate impl.limits = .ok () →
    ¬observation.generation < record.healthGeneration → observation.observedAtMs ≤ now →
    (publishHealth now impl agent boot observation).1 = .ok ()
  availability : ∀ record observation, impl.agents[agent]? = some record → observation.validate = .ok () →
    ¬observation.generation < record.availabilityGeneration → observation.observedAtMs ≤ now →
    (publishAvailability now impl agent boot observation).1 = .ok ()
  load : ∀ record observation, impl.agents[agent]? = some record → observation.validate impl.limits = .ok () →
    ¬observation.generation < record.loadGeneration → observation.observedAtMs ≤ now →
    (publishLoad now impl agent boot observation).1 = .ok ()
  capabilities : ∀ record profile canonical, impl.agents[agent]? = some record →
    profile.canonicalize impl.limits = .ok canonical → canonical.boot = boot → canonical.Supersedes record →
    (∀ evidence ∈ canonical.capabilities, evidence.Fits now boot) →
    (publishCapabilities now impl agent boot profile).1 = .ok ()

section Publications
variable {impl : Impl} {now : UInt64} {agent : AgentId} {boot : AgentBootId} {record : AgentRecord}

theorem currentAgent_eq_ok (operation stale : Text) (hrecord : impl.agents[agent]? = some record)
    (hboot : record.descriptor.boot = boot) (hopen : bootIsFenced impl boot = false) :
    currentAgent impl operation agent boot stale = .ok record := by
  simp only [currentAgent, except_bind_eq_ok, lookupOrFail_eq_ok, rejectIf_eq_ok]
  refine ⟨record, hrecord, (), ?_, rfl⟩
  simp [staleBoot, hboot, hopen]

theorem guarded_ok {Found : Type} {check : Except SchedulerError Found} {body : Found → Step}
    (hcheck : ∃ found, check = .ok found) (hbody : ∀ found, (body found).1 = .ok ()) : (guarded impl check body).1 = .ok () := by
  obtain ⟨found, hcheck⟩ := hcheck
  rw [hcheck]
  exact hbody found

/-- An observation time that is not in the future is accepted, zero standing for now. -/
theorem observed_not_future {observedAtMs : UInt64} (h : observedAtMs ≤ now) :
    ¬now < (if observedAtMs = 0 then now else observedAtMs) := by
  split
  · exact UInt64.lt_irrefl now
  · exact UInt64.not_lt.mpr h

theorem checkObservation_eq_ok (operation kind : Text) {staleGeneration : AgentRecord → Bool} {observedAtMs : UInt64}
    (hrecord : impl.agents[agent]? = some record) (hboot : record.descriptor.boot = boot)
    (hopen : bootIsFenced impl boot = false) (hgeneration : ¬staleGeneration record) (hobserved : observedAtMs ≤ now) :
    checkObservation now impl operation kind agent boot staleGeneration observedAtMs =
      .ok (if observedAtMs = 0 then now else observedAtMs) := by
  simp only [checkObservation, except_bind_eq_ok, rejectIf_eq_ok]
  refine ⟨record, currentAgent_eq_ok _ _ hrecord hboot hopen, (), hgeneration, ?_⟩
  exact ⟨(), observed_not_future hobserved, rfl⟩

theorem bindEvidence_eq_ok {generation : AgentCapabilityGeneration} {evidence : CapabilityEvidence}
    (h : evidence.Fits now boot) : ∃ bound, bindEvidence now boot generation evidence = .ok bound := by
  simp only [bindEvidence, except_bind_eq_ok, rejectIf_eq_ok]
  refine ⟨_, (), ?_, (), observed_not_future h.2, rfl⟩
  rintro ⟨hnonzero, hother⟩
  exact h.1.elim hnonzero hother

theorem mapM_eq_ok {α β ε : Type} {f : α → Except ε β} {list : List α} (h : ∀ item ∈ list, ∃ value, f item = .ok value) :
    ∃ values, list.mapM f = .ok values := by
  induction list with
  | nil => exact ⟨[], rfl⟩
  | cons item rest ih =>
    obtain ⟨value, hvalue⟩ := h item List.mem_cons_self
    obtain ⟨values, hvalues⟩ := ih fun other hmem => h other (List.mem_cons_of_mem item hmem)
    refine ⟨value :: values, ?_⟩
    rw [List.mapM_cons, hvalue]
    change (List.mapM f rest >>= fun values => pure (value :: values)) = _
    rw [hvalues]
    rfl

theorem checkCapabilities_eq_ok {profile canonical : CapabilityProfile} (hrecord : impl.agents[agent]? = some record)
    (hboot : record.descriptor.boot = boot) (hopen : bootIsFenced impl boot = false)
    (hcanonical : profile.canonicalize impl.limits = .ok canonical) (hnamed : canonical.boot = boot)
    (hsupersedes : canonical.Supersedes record) (hfits : ∀ evidence ∈ canonical.capabilities, evidence.Fits now boot) :
    ∃ published, checkCapabilities now impl agent boot profile = .ok published := by
  obtain ⟨capabilities, hbound⟩ := mapM_eq_ok (f := bindEvidence now boot canonical.generation) fun evidence hmem =>
    bindEvidence_eq_ok (hfits evidence hmem)
  have hmoved : ¬(canonical.generation = record.profile.generation ∧ record.capabilityCurrent) := by
    rintro ⟨hsame, hcurrent⟩
    rw [hsupersedes.2 hsame] at hcurrent
    cases hcurrent
  refine ⟨some { canonical with boot := boot, capabilities := capabilities }, ?_⟩
  simp only [checkCapabilities, except_bind_eq_ok, rejectIf_eq_ok]
  refine ⟨canonical, hcanonical, record, currentAgent_eq_ok _ _ hrecord hboot hopen, (), ?_, (), hsupersedes.1, ?_⟩
  · simpa using hnamed
  · rw [if_neg hmoved]
    simp only [except_bind_eq_ok]
    exact ⟨capabilities, hbound, rfl⟩

/-- Every valid publication of a current, unfenced incarnation is accepted. -/
theorem usable_iff : impl.Usable now agent boot ↔
    (∃ record, impl.agents[agent]? = some record ∧ record.descriptor.boot = boot) ∧ bootIsFenced impl boot = false := by
  constructor
  · intro h
    exact ⟨h.current, h.unfenced⟩
  · rintro ⟨⟨record, hrecord, hboot⟩, hopen⟩
    have hfound : ∀ found, impl.agents[agent]? = some found → found = record := fun found hfound =>
      Option.some.inj (hfound.symm.trans hrecord)
    refine ⟨⟨record, hrecord, hboot⟩, hopen, ?_, ?_, ?_, ?_⟩
    · intro found observation hstored hvalid hgeneration hobserved
      obtain rfl := hfound found hstored
      refine guarded_ok ?_ fun _ => rfl
      simp only [check_bind_eq_ok]
      exact ⟨_, hvalid, checkObservation_eq_ok _ _ hstored hboot hopen (by simpa using hgeneration) hobserved⟩
    · intro found observation hstored hvalid hgeneration hobserved
      obtain rfl := hfound found hstored
      refine guarded_ok ?_ fun _ => rfl
      simp only [check_bind_eq_ok]
      exact ⟨_, hvalid, checkObservation_eq_ok _ _ hstored hboot hopen (by simpa using hgeneration) hobserved⟩
    · intro found observation hstored hvalid hgeneration hobserved
      obtain rfl := hfound found hstored
      refine guarded_ok ?_ fun _ => rfl
      simp only [check_bind_eq_ok]
      exact ⟨_, hvalid, checkObservation_eq_ok _ _ hstored hboot hopen (by simpa using hgeneration) hobserved⟩
    · intro found profile canonical hstored hcanonical hnamed hsupersedes hfits
      obtain rfl := hfound found hstored
      refine guarded_ok (checkCapabilities_eq_ok hstored hboot hopen hcanonical hnamed hsupersedes hfits) fun published => ?_
      cases published <;> rfl

end Publications

/-! ### What a registration installs -/

/-- An unknown agent registers a boot that nobody fenced, and a reincarnation does not reuse the boot it replaces. -/
def Impl.Installs (impl : Impl) (descriptor : AgentDescriptor) : Prop :=
  match impl.agents[descriptor.id]? with
  | none => bootIsFenced impl descriptor.boot = false
  | some existing => existing.descriptor.generation < descriptor.generation → existing.descriptor.boot ≠ descriptor.boot

section Registration
variable {impl : Impl} {now : UInt64} {descriptor : AgentDescriptor}

theorem bootIsFenced_fenceBoot_other {agent : AgentId} {fenced boot : AgentBootId} {generation : AgentGeneration} {reason : Text}
    (hne : fenced ≠ boot) : bootIsFenced (fenceBoot now impl agent fenced generation reason) boot = bootIsFenced impl boot := by
  unfold fenceBoot
  split
  · rfl
  · simp [bootIsFenced, Impl.revise, hne]

theorem known_replaceAgent {agent : AgentId} {record : AgentRecord} (h : Consistent impl) (hkey : record.descriptor.id = agent) :
    (impl.replaceAgent agent record).agents[agent]? ≠ none := by
  have hkeyed : Keyed (fun record : AgentRecord => record.descriptor.id) (impl.setAgent agent record).agents := h.agentKey.insert hkey
  change (refreshAgent (impl.setAgent agent record) agent).agents[agent]? ≠ none
  rw [agents_refreshAgent hkeyed, agents_refreshAgentAccounting _ _ _ hkeyed, if_pos rfl, getElem?_setAgent, if_pos rfl]
  nofun

/-- A registration that succeeds leaves its agent known. -/
theorem registerAgentCommit_known (h : Consistent impl) (hok : (registerAgentCommit now impl descriptor).1 = .ok ()) :
    (registerAgentCommit now impl descriptor).2.agents[descriptor.id]? ≠ none := by
  rcases registerAgentCommit_cases now impl descriptor with
    ⟨-, error, hform⟩ | ⟨existing, hexisting, -, -, hform⟩ | ⟨existing, hexisting, -, -, -, hform⟩ | ⟨-, hform⟩
  · rw [hform] at hok
    cases hok
  · rw [hform]
    apply known_replaceAgent ((retireIncarnation_idle {} now h hexisting).1 h).1
    rw [freshAgent_descriptor]
    rfl
  · rw [hform]
    exact known_replaceAgent h rfl
  · rw [hform]
    change (impl.setAgent descriptor.id (freshAgent now impl descriptor "registered")).agents[descriptor.id]? ≠ none
    rw [getElem?_setAgent, if_pos rfl]
    nofun

/-- The descriptor in effect after a registration that succeeds. -/
theorem registerAgentCommit_current (h : Consistent impl) (hok : (registerAgentCommit now impl descriptor).1 = .ok ()) :
    ∃ record, (registerAgentCommit now impl descriptor).2.agents[descriptor.id]? = some record ∧
      record.descriptor = descriptor.stored := by
  obtain ⟨record, hrecord⟩ := Option.ne_none_iff_exists'.mp (registerAgentCommit_known h hok)
  refine ⟨record, hrecord, ?_⟩
  rcases registerAgentCommit_record now h hrecord with ⟨error, hform⟩ | ⟨hdescriptor, -⟩
  · rw [hform] at hok
    cases hok
  · exact hdescriptor

/-- A registration that succeeds leaves its boot unfenced unless it was fenced and the agent unknown, or it is the boot
that the registration replaces. -/
theorem registerAgentCommit_unfenced_iff (h : Consistent impl) (hok : (registerAgentCommit now impl descriptor).1 = .ok ()) :
    bootIsFenced (registerAgentCommit now impl descriptor).2 descriptor.boot = false ↔ impl.Installs descriptor := by
  unfold Impl.Installs
  rcases registerAgentCommit_cases now impl descriptor with
    ⟨-, error, hform⟩ | ⟨existing, hexisting, hnewer, hopen, hform⟩ | ⟨existing, hexisting, hsame, -, hopen, hform⟩ | ⟨hnone, hform⟩
  · rw [hform] at hok
    cases hok
  · rw [hform, hexisting, bootIsFenced_replaceAgent, retireIncarnation_eq now h hexisting, bootIsFenced_closeAllActive]
    by_cases hreused : existing.descriptor.boot = descriptor.boot
    · refine iff_of_false ?_ fun hinstalls => hinstalls hnewer hreused
      rw [← hreused, bootIsFenced_fenceBoot (h.agentBoot _ existing hexisting)]
      nofun
    · rw [bootIsFenced_fenceBoot_other hreused]
      exact iff_of_true hopen fun _ => hreused
  · rw [hform, hexisting, bootIsFenced_replaceAgent]
    exact iff_of_true hopen fun hnewer => (Nat.lt_irrefl _ (hsame ▸ hnewer)).elim
  · rw [hform, hnone]
    rfl

/-- A registration that succeeds leaves a usable incarnation exactly when it installs one. -/
theorem registerAgentCommit_usable_iff (h : Consistent impl) (hok : (registerAgentCommit now impl descriptor).1 = .ok ())
    (later : UInt64) :
    (registerAgentCommit now impl descriptor).2.Usable later descriptor.id descriptor.boot ↔ impl.Installs descriptor := by
  rw [usable_iff, registerAgentCommit_unfenced_iff h hok]
  obtain ⟨record, hrecord, hdescriptor⟩ := registerAgentCommit_current h hok
  have hboot : record.descriptor.boot = descriptor.boot := by
    rw [hdescriptor]
    rfl
  exact and_iff_right ⟨record, hrecord, hboot⟩

end Registration

section System
variable {system after : System} {position : Nat} {descriptor : AgentDescriptor}

/-- The second section of `register_agent`, as a step. -/
theorem registration_step {reply : Reply} (hcall : system.calls[position]? = some (.registerAgent descriptor))
    (hstep : system.step (.finish position) = some (reply, after)) :
    reply = .mutation (registerAgentCommit system.now system.impl descriptor).1 ∧
      after.impl = (registerAgentCommit system.now system.impl descriptor).2 := by
  simp only [System.step, hcall] at hstep
  obtain ⟨rfl, rfl⟩ := Prod.mk.inj (Option.some.inj hstep)
  exact ⟨rfl, rfl⟩

/-- A registration that succeeds in a reachable state leaves its boot current and usable, exactly when the boot of an
agent unknown so far is not fenced and a reincarnation brings another boot than the one it replaces. -/
theorem registration_usable_iff (hreach : system.Reachable)
    (hcall : system.calls[position]? = some (.registerAgent descriptor))
    (hstep : system.step (.finish position) = some (.mutation (.ok ()), after)) :
    after.impl.Usable after.now descriptor.id descriptor.boot ↔ system.impl.Installs descriptor := by
  obtain ⟨hreply, himpl⟩ := registration_step hcall hstep
  rw [himpl]
  exact registerAgentCommit_usable_iff hreach.valid.healthy.consistent (Reply.mutation.inj hreply).symm after.now

end System

namespace Sample

/-- After some steps a registration has passed its first section, and then its second. -/
def registering (labels : List Label) (descriptor : AgentDescriptor) : Option (System × Reply × System) := do
  let system ← run (fun _ _ => True) (labels ++ [.begin (.registerAgent descriptor)])
  let (reply, after) ← system.step (.finish 0)
  return (system, reply, after)

def registeredBy : Call → Option AgentDescriptor
  | .registerAgent descriptor => some descriptor
  | _ => none

theorem of_registeredBy {call : Call} {descriptor : AgentDescriptor} (h : registeredBy call = some descriptor) :
    call = .registerAgent descriptor := by
  cases call with
  | registerAgent registered => rw [Option.some.inj h]
  | schedule | dispatch | submitWork | cancelWork | declareAgentLost => cases h

/-- The descriptor of the first call in flight, whether its registration succeeds, and whether its boot is fenced then. -/
def registration (found : System × Reply × System) : Option AgentDescriptor × Bool × Option Bool :=
  let descriptor := (found.1.calls[0]? : Option Call).bind registeredBy
  (descriptor, found.2.1.accepted, descriptor.map fun descriptor => bootIsFenced found.2.2.impl descriptor.boot)

theorem registering_spec {labels : List Label} {named descriptor : AgentDescriptor} {system after : System} {reply : Reply}
    {fenced : Bool} (h : registering labels named = some (system, reply, after))
    (hview : registration (system, reply, after) = (some descriptor, true, some fenced)) :
    system.Reachable ∧ system.calls[0]? = some (.registerAgent descriptor) ∧
      system.step (.finish 0) = some (.mutation (.ok ()), after) ∧ bootIsFenced after.impl descriptor.boot = fenced := by
  simp only [registering, Option.bind_eq_bind, Option.bind_eq_some_iff, Prod.exists] at h
  obtain ⟨_, hrun, _, _, hstep, hform⟩ := h
  obtain ⟨rfl, rfl, rfl⟩ : _ = system ∧ _ = reply ∧ _ = after := by simpa using hform
  obtain ⟨hdescriptor, hrest⟩ := Prod.mk.inj hview
  obtain ⟨hreply, hfenced⟩ := Prod.mk.inj hrest
  obtain ⟨call, hcall, hregistered⟩ := Option.bind_eq_some_iff.mp hdescriptor
  rw [hdescriptor] at hfenced
  refine ⟨run_reaches hrun, ?_, ?_, Option.some.inj hfenced⟩
  · rw [hcall, of_registeredBy hregistered]
  · rw [← Reply.of_accepted hreply]
    exact hstep

end Sample

set_option maxRecDepth 100000 in
/-- An agent registers for the first time. -/
theorem registration_usable_iff_sample : ∃ system after,
    Sample.registering [] Sample.descriptor = some (system, .mutation (.ok ()), after) ∧
      after.impl.Usable after.now 1 Sample.boot := by
  have hview : (Sample.registering [] Sample.descriptor).map Sample.registration =
      some (some Sample.descriptor, true, some false) := by
    decide +kernel
  obtain ⟨⟨system, reply, after⟩, hfound, hview⟩ := Option.map_eq_some_iff.mp hview
  obtain ⟨hreach, hcall, hstep, hopen⟩ := Sample.registering_spec hfound hview
  refine ⟨system, after, ?_, (registration_usable_iff hreach hcall hstep).mpr ?_⟩
  · obtain ⟨-, hrest⟩ := Prod.mk.inj hview
    have haccepted : reply.accepted := (Prod.mk.inj hrest).1
    rw [hfound, Reply.of_accepted haccepted]
  · obtain ⟨hreply, himpl⟩ := registration_step hcall hstep
    rw [himpl] at hopen
    exact (registerAgentCommit_unfenced_iff hreach.valid.healthy.consistent (Reply.mutation.inj hreply).symm).mp hopen

set_option maxRecDepth 100000 in
/-- A reincarnation under the boot it replaces fences the boot it installs. -/
theorem not_registration_usable : ¬∀ (system after : System) (position : Nat) (descriptor : AgentDescriptor), system.Reachable →
    system.calls[position]? = some (.registerAgent descriptor) →
    system.step (.finish position) = some (.mutation (.ok ()), after) →
    after.impl.Usable after.now descriptor.id descriptor.boot := by
  intro husable
  have hview : (Sample.registering Sample.enlist { Sample.descriptor with generation := 2 }).map Sample.registration =
      some (some { Sample.descriptor with generation := 2 }, true, some true) := by
    decide +kernel
  obtain ⟨⟨system, reply, after⟩, hfound, hview⟩ := Option.map_eq_some_iff.mp hview
  obtain ⟨hreach, hcall, hstep, hfenced⟩ := Sample.registering_spec hfound hview
  have hopen := (husable system after 0 _ hreach hcall hstep).unfenced
  rw [hfenced] at hopen
  cases hopen

end AgentScheduler
