import AgentScheduler.Shutdown

/-! What draining and retirement leave of an incarnation for the rest of a run. -/
namespace AgentScheduler
open Std KeyedTable Relation

/-- The lifecycle that a touch gives an agent by itself. -/
def AgentEvent.ends : AgentEvent → Option AgentLifecycle
  | .drained _ => some .draining
  | .retired _ => some .retired
  | .lost _ _ => some .lost
  | .reported _ _ | .available _ _ | .published _ _ | .reregistered _ => none

section Chains
variable {ctx : Context} {event : Event} {allows : Event → Prop} {stale stale' : Set AgentId} {impl impl' : Impl}
  {agent : AgentId} {lifecycle : AgentLifecycle}

/-- The same incarnation; a drained or retired one has stayed so, unless the chain may end it in another way. -/
def Departs (allows : Event → Prop) (agent : AgentId) (lifecycle : AgentLifecycle) (record record' : AgentRecord) : Prop :=
  record'.descriptor.boot = record.descriptor.boot ∧ record'.descriptor.generation = record.descriptor.generation ∧
    (record.lifecycle = lifecycle → record'.lifecycle = lifecycle ∨
      ∃ touch other, allows (.touches agent touch) ∧ touch.ends = some other ∧ other ≠ lifecycle)

/-- A chain that enrolls nobody under an agent's id leaves the agent its incarnation, and what is sticky. -/
theorem Deeds.departs (hdeeds : Deeds ctx allows (stale, impl) (stale', impl')) (hconsistent : Consistent impl)
    (hsticky : lifecycle = .draining ∨ lifecycle = .retired)
    (henrolls : ∀ descriptor : AgentDescriptor, descriptor.id = agent → ¬allows (.enrolls descriptor))
    {record' : AgentRecord} (hrecord' : impl'.agents[agent]? = some record') :
    ∃ record, impl.agents[agent]? = some record ∧ Departs allows agent lifecycle record record' := by
  refine hdeeds.keeps (motive := fun scene => ∀ record', scene.2.agents[agent]? = some record' →
    ∃ record, impl.agents[agent]? = some record ∧ Departs allows agent lifecycle record record')
    (fun event scene scene' hallows hdeed hscene hinv record' hrecord' => ?_) hconsistent
    (fun record hrecord => ⟨record, hrecord, rfl, rfl, .inl⟩) record' hrecord'
  cases hdeed.agentEffect hscene hrecord' with
  | kept middle hmiddle hkeeps =>
    obtain ⟨record, hrecord, hboot, hgeneration, hstays⟩ := hinv middle hmiddle
    have hdescriptor := (AgentRecord.read_of_essence hkeeps.essence).1
    refine ⟨record, hrecord, by rw [hdescriptor, hboot], by rw [hdescriptor, hgeneration], fun hwas => ?_⟩
    refine (hstays hwas).imp_left fun hmiddle => ?_
    have hmiddle_sticky : middle.lifecycle.IsSticky := by
      rw [hmiddle]
      rcases hsticky with rfl | rfl
      · exact .inr (.inr rfl)
      · exact .inr (.inl rfl)
    rw [hkeeps.sticky (.inl hmiddle_sticky), hmiddle]
  | touched middle touch hevent hmiddle hadmits hupdate =>
    obtain ⟨record, hrecord, hboot, hgeneration, hstays⟩ := hinv middle hmiddle
    subst hupdate hevent
    cases touch with
    | reported | available | published => exact ⟨record, hrecord, hboot, hgeneration, hstays⟩
    | drained | retired | lost =>
      refine ⟨record, hrecord, hboot, hgeneration, fun _ => ?_⟩
      refine (Decidable.em _).imp_right fun hother => ⟨_, _, hallows, rfl, hother⟩
    | reregistered descriptor =>
      obtain ⟨-, hsame, hincarnation, -⟩ := hadmits
      refine ⟨record, hrecord, hincarnation.trans hboot, hsame.trans hgeneration, fun hwas => ?_⟩
      refine (hstays hwas).imp_left fun hmiddle => ?_
      change (if middle.lifecycle = .lost then _ else middle.lifecycle) = lifecycle
      rw [hmiddle, if_neg]
      rcases hsticky with rfl | rfl <;> nofun
  | enrolled descriptor reason hevent hid _ => exact (henrolls descriptor hid (hevent ▸ hallows)).elim

end Chains

section Steps
variable {system after : System} {label : Label} {reply : Reply} {agent : AgentId} {boot : AgentBootId} {generation : AgentGeneration}

/-- The operations that end an incarnation. -/
theorem System.Causes.ends {touch : AgentEvent} {lifecycle : AgentLifecycle}
    (h : (Event.touches agent touch).IsBookkeeping ∨ system.Causes label (.touches agent touch)) (hends : touch.ends = some lifecycle) :
    (∃ boot force, label = .run (.drainAgent agent boot force) ∧ lifecycle = .draining) ∨
      (∃ boot force, label = .run (.deregisterAgent agent boot force) ∧ lifecycle = .retired) ∨
      ∃ position boot reason, label = .finish position ∧
        system.calls[position]? = some (.declareAgentLost agent boot reason) ∧ lifecycle = .lost := by
  have hcauses : system.Causes label (.touches agent touch) := h.resolve_left fun hbook => hbook
  cases label with
  | run operation =>
    cases touch with
    | reported | available | published | reregistered => cases hends
    | drained drained =>
      cases operation with
      | drainAgent named boot force =>
        obtain ⟨rfl, -⟩ : agent = named ∧ drained = boot := hcauses
        exact .inl ⟨boot, force, rfl, (Option.some.inj hends).symm⟩
      | _ => exact hcauses.elim
    | retired retired =>
      cases operation with
      | deregisterAgent named boot force =>
        obtain ⟨rfl, -⟩ : agent = named ∧ retired = boot := hcauses
        exact .inr (.inl ⟨boot, force, rfl, (Option.some.inj hends).symm⟩)
      | _ => exact hcauses.elim
    | lost => cases operation <;> exact hcauses.elim
  | finish position =>
    obtain ⟨call, hcall, hcause⟩ := hcauses
    cases touch with
    | reported | available | published | reregistered => cases hends
    | drained | retired => cases call <;> exact hcause.elim
    | lost lost =>
      cases call with
      | declareAgentLost named boot reason =>
        obtain ⟨rfl, -⟩ : agent = named ∧ lost = boot := hcause
        exact .inr (.inr ⟨position, boot, reason, rfl, hcall, (Option.some.inj hends).symm⟩)
      | _ => exact hcause.elim
  | _ => exact hcauses.elim

/-- What a registration makes of the record of its agent. -/
theorem registerAgentCommit_record (now : UInt64) {impl : Impl} {descriptor : AgentDescriptor} (h : Consistent impl)
    {record' : AgentRecord} (hrecord' : (registerAgentCommit now impl descriptor).2.agents[descriptor.id]? = some record') :
    (∃ error, registerAgentCommit now impl descriptor = (.error error, impl)) ∨
      record'.descriptor = descriptor.stored ∧
        ((∃ existing, impl.agents[descriptor.id]? = some existing ∧ existing.descriptor.generation < descriptor.generation ∧
            bootIsFenced impl descriptor.boot = false) ∨
          (∃ existing, impl.agents[descriptor.id]? = some existing ∧
            descriptor.generation = existing.descriptor.generation ∧ descriptor.boot = existing.descriptor.boot ∧
            (existing.lifecycle = .draining ∨ existing.lifecycle = .retired → record'.lifecycle = existing.lifecycle)) ∨
          impl.agents[descriptor.id]? = none) := by
  rcases registerAgentCommit_cases now impl descriptor with
    ⟨-, error, hform⟩ | ⟨existing, hexisting, hnewer, hopen, hform⟩ | ⟨existing, hexisting, hgeneration, hboot, -, hform⟩ | ⟨hnone, hform⟩
  · exact .inl ⟨error, hform⟩
  · rw [hform] at hrecord'
    obtain ⟨hmoves, -, -⟩ := retireIncarnation_idle {} now h hexisting
    have hkeeps := keeps_replaceAgent (hmoves h).1 (by rw [freshAgent_descriptor]; rfl) hrecord'
    have hdescriptor := (AgentRecord.read_of_essence hkeeps.essence).1
    exact .inr ⟨hdescriptor.trans (freshAgent_descriptor _ _ _ _), .inl ⟨existing, hexisting, hnewer, hopen⟩⟩
  · rw [hform] at hrecord'
    have hkey : (reregistered now impl descriptor existing).descriptor.id = descriptor.id := rfl
    have hkeeps := keeps_replaceAgent h hkey hrecord'
    have hdescriptor : record'.descriptor = descriptor.stored := (AgentRecord.read_of_essence hkeeps.essence).1
    refine .inr ⟨hdescriptor, .inr (.inl ⟨existing, hexisting, hgeneration, hboot, fun hends => ?_⟩)⟩
    have hkept : (reregistered now impl descriptor existing).lifecycle = existing.lifecycle := by
      change (if existing.lifecycle = .lost then _ else existing.lifecycle) = _
      rw [if_neg]
      rcases hends with hdraining | hretired
      · rw [hdraining]
        nofun
      · rw [hretired]
        nofun
    have hsticky : (reregistered now impl descriptor existing).lifecycle.IsSticky := by
      rw [hkept]
      exact .inr hends.symm
    exact (hkeeps.sticky (.inl hsticky)).trans hkept
  · rw [hform] at hrecord'
    change ((impl.setAgent descriptor.id (freshAgent now impl descriptor "registered")).agents)[descriptor.id]? = some record' at hrecord'
    rw [getElem?_setAgent, if_pos rfl] at hrecord'
    obtain rfl := Option.some.inj hrecord'
    exact .inr ⟨freshAgent_descriptor _ _ _ _, .inr (.inr hnone)⟩

/-- A known agent stays known. -/
theorem Move.knows {gate : Gate} {ledger ledger' : Ledger} (hmove : Move gate ledger ledger')
    (hknown : ledger.agents agent ≠ none) : ledger'.agents agent ≠ none := by
  cases hmove with
  | close | repolicy | accept | settle | advance | promote | commit => exact hknown
  | enroll enrolled entry =>
    change Function.update ledger.agents enrolled (some entry) agent ≠ none
    by_cases heq : agent = enrolled
    · rw [heq, Function.update_self]
      nofun
    · rwa [Function.update_of_ne heq]
  | republish published old profile | silence published old =>
    change Function.update ledger.agents published (some _) agent ≠ none
    by_cases heq : agent = published
    · rw [heq, Function.update_self]
      nofun
    · rwa [Function.update_of_ne heq]

/-- The step registers an incarnation of the agent. -/
def System.Registers (system : System) (label : Label) (agent : AgentId) : Prop :=
  ∃ position descriptor, label = .finish position ∧ system.calls[position]? = some (.registerAgent descriptor) ∧
    descriptor.id = agent

theorem System.not_enrolls (hregisters : ¬system.Registers label agent) (descriptor : AgentDescriptor) (hid : descriptor.id = agent) :
    ¬((Event.enrolls descriptor).IsBookkeeping ∨ system.Causes label (.enrolls descriptor)) := by
  intro henrolls
  obtain ⟨position, hlabel, hcall⟩ := @System.Causes.registers _ _ agent _ _ henrolls (.inl rfl)
  exact hregisters ⟨position, descriptor, hlabel, hcall, hid⟩

/-- What recovery makes of the record of an agent. -/
theorem agents_restore (impl : Impl) {file : Impl} (hfile : Consistent file) {record' : AgentRecord}
    (hrecord' : (restore impl (image file)).agents[agent]? = some record') :
    ∃ saved, file.agents[agent]? = some saved ∧ saved.recover.Keeps record' := by
  obtain ⟨installed, hinstalled, hkeeps⟩ := keepsAgent_restore hfile record' hrecord'
  change (file.agents.map fun _ record => record.recover)[agent]? = some installed at hinstalled
  rw [getElem?_map] at hinstalled
  obtain ⟨saved, hsaved, rfl⟩ := Option.map_eq_some_iff.mp hinstalled
  exact ⟨saved, hsaved, hkeeps⟩

end Steps

/-! ### Retirement -/

/-- The agent, if it is known, is retired under this incarnation, or of a later generation. -/
def Impl.Retired (impl : Impl) (agent : AgentId) (boot : AgentBootId) (generation : AgentGeneration) : Prop :=
  ∀ record, impl.agents[agent]? = some record → generation < record.descriptor.generation ∨
    record.descriptor.boot = boot ∧ record.descriptor.generation = generation ∧ record.lifecycle = .retired

/-- The step reports no loss of the retired incarnation, enrolls the agent anew only at a later generation, and loads no file
from before the retirement. -/
structure System.LeavesRetired (system : System) (agent : AgentId) (boot : AgentBootId) (generation : AgentGeneration)
    (label : Label) : Prop where
  loss : ∀ position lost reason, label = .finish position →
    system.calls[position]? = some (.declareAgentLost agent lost reason) →
    ∀ record, system.impl.agents[agent]? = some record → record.descriptor.boot = lost → generation < record.descriptor.generation
  registration : ∀ position descriptor, label = .finish position →
    system.calls[position]? = some (.registerAgent descriptor) → descriptor.id = agent → system.impl.agents[agent]? = none →
    generation < descriptor.generation
  load : ∀ position file, label = .load position → system.saved[position]? = some file → file.Retired agent boot generation

section Steps
variable {system after : System} {label : Label} {reply : Reply} {agent : AgentId} {boot : AgentBootId} {generation : AgentGeneration}

theorem retired_restore (impl : Impl) {file : Impl} (hfile : Consistent file) (h : file.Retired agent boot generation) :
    (restore impl (image file)).Retired agent boot generation := by
  intro record' hrecord'
  obtain ⟨saved, hsaved, hkeeps⟩ := agents_restore impl hfile hrecord'
  have hdescriptor : record'.descriptor = saved.descriptor := (AgentRecord.read_of_essence hkeeps.essence).1
  rw [hdescriptor]
  refine (h saved hsaved).imp_right fun hretired => ⟨hretired.1, hretired.2.1, ?_⟩
  have hrecovered : saved.recover.lifecycle = .retired := by
    change lifecycleFromHint (lifecycleHint saved.lifecycle) = .retired
    rw [hretired.2.2]
    rfl
  exact (hkeeps.sticky (.inl (.inr (.inl hrecovered)))).trans hrecovered

/-- A registration leaves a retired agent retired, or takes it to a later generation. -/
theorem retired_registerAgentCommit {descriptor : AgentDescriptor} {now : UInt64} {impl : Impl} (hconsistent : Consistent impl)
    (h : impl.Retired descriptor.id boot generation)
    (hfresh : impl.agents[descriptor.id]? = none → generation < descriptor.generation) :
    (registerAgentCommit now impl descriptor).2.Retired descriptor.id boot generation := by
  intro record' hrecord'
  rcases registerAgentCommit_record now hconsistent hrecord' with ⟨error, hform⟩ | ⟨hdescriptor, hcases⟩
  · rw [hform] at hrecord'
    exact h record' hrecord'
  · rw [hdescriptor]
    rcases hcases with ⟨existing, hexisting, hnewer, -⟩ | ⟨existing, hexisting, hgeneration, hboot, hends⟩ | hnone
    · left
      rcases h existing hexisting with hlater | ⟨-, hsame, -⟩
      · exact Nat.lt_trans hlater hnewer
      · exact hsame ▸ hnewer
    · rcases h existing hexisting with hlater | ⟨hbound, hsame, hretired⟩
      · exact .inl (hgeneration ▸ hlater)
      · exact .inr ⟨hboot.trans hbound, hgeneration.trans hsame, (hends (.inr hretired)).trans hretired⟩
    · exact .inl (hfresh hnone)

/-- A retired agent cannot be drained. -/
theorem drainAgent_retired {now : UInt64} {impl : Impl} {force : Bool} {record : AgentRecord}
    (hrecord : impl.agents[agent]? = some record) (hretired : record.lifecycle = .retired) :
    (drainAgent now impl agent boot force).2 = impl := by
  rcases guarded_cases impl _ _ with ⟨error, -, hsame⟩ | ⟨_, hcheck, -⟩
  · exact congrArg Prod.snd hsame
  · simp only [except_bind_eq_ok, rejectIf_eq_ok] at hcheck
    obtain ⟨found, hcurrent, hlifecycle⟩ := hcheck
    obtain ⟨hfound, -, -⟩ := currentAgent_ok hcurrent
    obtain rfl := Option.some.inj (hrecord.symm.trans hfound)
    exact (hlifecycle hretired).elim

/-- A step keeps an agent retired. -/
theorem System.LeavesRetired.step (hleaves : system.LeavesRetired agent boot generation label) (hvalid : system.Valid)
    (h : system.impl.Retired agent boot generation) (hstep : system.step label = some (reply, after)) :
    after.impl.Retired agent boot generation := by
  have hconsistent := hvalid.healthy.consistent
  rcases System.step_deeds hvalid hstep with ⟨position, file, rfl, hfile, -, hform⟩ | ⟨options, generatedId, -, hconstruct⟩ | hdeeds
  · rw [hform]
    exact retired_restore _ (hvalid.saved file (List.mem_of_getElem? hfile)).consistent (hleaves.load position file rfl hfile)
  · intro record hrecord
    rw [construct_agents hconstruct] at hrecord
    simp at hrecord
  · by_cases hregisters : system.Registers label agent
    · obtain ⟨position, descriptor, rfl, hcall, rfl⟩ := hregisters
      simp only [System.step, hcall] at hstep
      obtain ⟨-, rfl⟩ := Prod.mk.inj (Option.some.inj hstep)
      exact retired_registerAgentCommit hconsistent h (hleaves.registration position descriptor rfl hcall rfl)
    · intro record' hrecord'
      obtain ⟨record, hrecord, hboot, hgeneration, hstays⟩ :=
        hdeeds.departs hconsistent (.inr rfl) (System.not_enrolls hregisters) hrecord'
      have hunchanged : after.impl.agents = system.impl.agents → generation < record'.descriptor.generation ∨
          record'.descriptor.boot = boot ∧ record'.descriptor.generation = generation ∧ record'.lifecycle = .retired :=
        fun hsame => h record' (hsame ▸ hrecord')
      rw [hboot, hgeneration]
      rw [hboot, hgeneration] at hunchanged
      rcases h record hrecord with hlater | ⟨hbound, hsame, hretired⟩
      · exact .inl hlater
      · rcases hstays hretired with hretired' | ⟨touch, other, hcauses, hends, hother⟩
        · exact .inr ⟨hbound, hsame, hretired'⟩
        · rcases System.Causes.ends hcauses hends with
            ⟨drained, force, rfl, -⟩ | ⟨_, _, -, rfl⟩ | ⟨position, lost, reason, rfl, hcall, -⟩
          · obtain ⟨-, rfl⟩ := Prod.mk.inj (Option.some.inj hstep)
            exact hunchanged (congrArg Impl.agents (drainAgent_retired hrecord hretired))
          · exact (hother rfl).elim
          · by_cases hcurrent : record.descriptor.boot = lost
            · exact .inl (hleaves.loss position lost reason rfl hcall record hrecord hcurrent)
            · simp only [System.step, hcall] at hstep
              obtain ⟨-, rfl⟩ := Prod.mk.inj (Option.some.inj hstep)
              refine hunchanged (declareAgentLostCommit_agents ?_)
              rintro ⟨found, hfound, hnamed⟩
              obtain rfl := Option.some.inj (hrecord.symm.trans hfound)
              exact hcurrent hnamed

/-- A deregistration that succeeds retires the agent. -/
theorem retired_deregisterAgent {now : UInt64} {impl impl' : Impl} {force : Bool} (hconsistent : Consistent impl)
    (hform : deregisterAgent now impl agent boot force = (.ok (), impl')) {record : AgentRecord}
    (hrecord : impl'.agents[agent]? = some record) : record.descriptor.boot = boot ∧ record.lifecycle = .retired := by
  rcases deregisterAgent_cases now agent boot force hconsistent with
    ⟨-, error, hrefused⟩ | ⟨existing, stored, -, hboot, -, -, hstored, hbound, haccepted⟩
  · cases (congrArg Prod.fst (hrefused.symm.trans hform))
  · obtain ⟨-, rfl⟩ := Prod.mk.inj (haccepted.symm.trans hform)
    subst hboot
    obtain ⟨hmoves, -, -⟩ := deregister_idle {} agent existing.descriptor.boot now hconsistent
    have hfenced := Quiet.fenceBoot now _ agent existing.descriptor.boot existing.descriptor.generation "deregistered" (hmoves hconsistent).1
    have hretired : Consistent (retiredIncarnation now impl agent existing) := hfenced.1
    have hkey : ({ invalidateDynamicEvidence stored with lifecycle := .retired, reason := "deregistered" } : AgentRecord).descriptor.id =
        agent := hretired.agentKey agent stored hstored
    have hkeeps := keeps_replaceAgent hretired hkey hrecord
    have hdescriptor : record.descriptor = stored.descriptor := (AgentRecord.read_of_essence hkeeps.essence).1
    exact ⟨hdescriptor ▸ hbound, hkeeps.sticky (.inl (.inr (.inl rfl)))⟩

/-- A known agent stays known while the process runs and loads only files that know it. -/
theorem System.step_knows (hvalid : system.Valid) (hknown : system.impl.agents[agent]? ≠ none)
    (hrestarts : ∀ options generatedId, label ≠ .restart options generatedId)
    (hloads : ∀ position file, label = .load position → system.saved[position]? = some file → file.agents[agent]? ≠ none)
    (hstep : system.step label = some (reply, after)) : after.impl.agents[agent]? ≠ none := by
  have hentry : ∀ impl : Impl, impl.agents[agent]? ≠ none ↔ impl.ledger.agents agent ≠ none := by
    intro impl
    change _ ↔ (impl.agents[agent]?).map AgentRecord.entry ≠ none
    rw [ne_eq, ne_eq, Option.map_eq_none_iff]
  have hchange : Change (fun _ _ => True) system after label :=
    System.step_change hvalid hstep (fun _ _ _ _ _ => trivial) fun _ _ _ _ => trivial
  rw [hentry] at hknown ⊢
  cases hchange with
  | moves _ hmoves =>
    exact Runs.keeps (motive := fun ledger : Ledger => ledger.agents agent ≠ none) (fun _ _ hmove => hmove.knows) hmoves hknown
  | recovers position file hlabel hfile _ himpl _ =>
    have hfiled := (hentry file).mp (hloads position file hlabel hfile)
    rw [himpl, (restore_image system.impl (hvalid.saved file (List.mem_of_getElem? hfile)).consistent).2]
    change (file.ledger.agents agent).map _ ≠ none
    rwa [ne_eq, Option.map_eq_none_iff]
  | constructs options generatedId hlabel => exact (hrestarts options generatedId hlabel).elim

end Steps

/-- After a deregistration the agent is retired until it is registered at a later generation, as long as no loss of the
retired incarnation is reported and no file from before the retirement is loaded; and it stays known while the process
runs and loads only files that know it. -/
theorem retirement_lasts {system retired later : System} {agent : AgentId} {boot : AgentBootId} {force : Bool}
    {record : AgentRecord} (hreach : system.Reachable)
    (hretire : system.step (.run (.deregisterAgent agent boot force)) = some (.mutation (.ok ()), retired))
    (hrecord : retired.impl.agents[agent]? = some record)
    (hrun : System.Runs (fun s label => s.LeavesRetired agent boot record.descriptor.generation label) retired later) :
    later.impl.Retired agent boot record.descriptor.generation ∧
      (System.Runs (fun s label => (∀ options generatedId, label ≠ .restart options generatedId) ∧
        ∀ position file, label = .load position → s.saved[position]? = some file → file.agents[agent]? ≠ none) retired later →
        later.impl.agents[agent]? ≠ none) := by
  have hvalid : retired.Valid := hreach.valid.step hretire
  have hinitial : retired.impl.Retired agent boot record.descriptor.generation := by
    intro found hfound
    obtain rfl := Option.some.inj (hrecord.symm.trans hfound)
    obtain ⟨hreply, rfl⟩ := Prod.mk.inj (Option.some.inj hretire)
    obtain ⟨hboot, hretired⟩ := retired_deregisterAgent hreach.valid.healthy.consistent
      (Prod.ext (Reply.mutation.inj hreply) rfl) hrecord
    exact .inr ⟨hboot, rfl, hretired⟩
  constructor
  · refine (Runs.keeps (motive := fun s : System => s.Valid ∧ s.impl.Retired agent boot record.descriptor.generation)
      (fun s s' hstep hinv => ?_) hrun ⟨hvalid, hinitial⟩).2
    obtain ⟨label, reply, hleaves, hstep⟩ := hstep
    exact ⟨hinv.1.step hstep, hleaves.step hinv.1 hinv.2 hstep⟩
  · intro hknows
    refine (Runs.keeps (motive := fun s : System => s.Valid ∧ s.impl.agents[agent]? ≠ none) (fun s s' hstep hinv => ?_) hknows
      ⟨hvalid, by rw [hrecord]; nofun⟩).2
    obtain ⟨label, reply, ⟨hrestarts, hloads⟩, hstep⟩ := hstep
    exact ⟨hinv.1.step hstep, System.step_knows hinv.1 hinv.2 hrestarts hloads hstep⟩

/-- The step reports no loss and loads nothing, and registers only under boots that run already. -/
def Sample.Peaceful (system : System) : Label → Prop
  | .finish position =>
    match system.calls[position]? with
    | some (.declareAgentLost _ _ _) => False
    | some (.registerAgent descriptor) =>
      (system.impl.agents[descriptor.id]?).map (fun record => record.descriptor.boot) = some descriptor.boot
    | _ => True
  | .load _ | .restart _ _ => False
  | _ => True

instance (system : System) (label : Label) : Decidable (Sample.Peaceful system label) := by
  rcases label with ⟨⟩
  case finish position =>
    dsimp only [Sample.Peaceful]
    generalize system.calls[position]? = call
    rcases call with _ | ⟨⟨⟩⟩
    case some.registerAgent descriptor => exact Option.instDecidableEq _ _
    all_goals first | exact instDecidableTrue | exact instDecidableFalse
  all_goals first | exact instDecidableTrue | exact instDecidableFalse

theorem Sample.Peaceful.leavesRetired {system : System} {label : Label} {agent : AgentId} {boot : AgentBootId}
    {generation : AgentGeneration} (h : Sample.Peaceful system label) : system.LeavesRetired agent boot generation label where
  loss := by
    rintro position lost reason rfl hcall
    simp only [Sample.Peaceful, hcall] at h
  registration := by
    rintro position descriptor rfl hcall rfl hnone
    simp only [Sample.Peaceful, hcall, hnone] at h
    cases h
  load := by
    rintro position file rfl
    exact h.elim

/-- An agent is registered, departs after some steps, and then more steps are performed. -/
def Sample.depart (labels : List Label) (operation : Operation) (allowed : System → Label → Prop)
    [∀ system label, Decidable (allowed system label)] (more : List Label) : Option (System × Reply × System × System) := do
  let system ← Sample.run (fun _ _ => True) (Sample.enlist ++ labels)
  let (reply, departed) ← system.step (.run operation)
  let later ← departed.perform allowed more
  return (system, reply, departed, later)

theorem Sample.depart_reaches {operation : Operation} {allowed : System → Label → Prop}
    [∀ system label, Decidable (allowed system label)] {labels more : List Label} {system departed later : System} {reply : Reply}
    (h : Sample.depart labels operation allowed more = some (system, reply, departed, later)) :
    system.Reachable ∧ system.step (.run operation) = some (reply, departed) ∧ System.Runs allowed departed later := by
  simp only [Sample.depart, Option.bind_eq_bind, Option.bind_eq_some_iff, Prod.exists] at h
  obtain ⟨_, hsystem, _, _, hdepart, _, hlater, hform⟩ := h
  obtain ⟨rfl, rfl, rfl, rfl⟩ : _ = system ∧ _ = reply ∧ _ = departed ∧ _ = later := by simpa using hform
  exact ⟨Sample.run_reaches hsystem, hdepart, System.perform_runs hlater⟩

/-- The agent of the samples is deregistered. -/
def Sample.deregister : Operation := .deregisterAgent 1 Sample.boot false

set_option maxRecDepth 100000 in
/-- A retired agent registers again under the same incarnation, which is refused. -/
theorem retirement_lasts_sample : ∃ system reply retired later record,
    Sample.depart [] Sample.deregister Sample.Peaceful [.begin (.registerAgent Sample.descriptor), .save] = some (system, reply, retired, later) ∧
      retired.impl.agents[(1 : AgentId)]? = some record ∧
      later.impl.Retired 1 Sample.boot record.descriptor.generation := by
  have hrun : (Sample.depart [] Sample.deregister Sample.Peaceful [.begin (.registerAgent Sample.descriptor), .save]).map (fun found =>
      decide (found.2.1.accepted ∧ (found.2.2.1.impl.agents[(1 : AgentId)]?).isSome)) = some true := by
    decide +kernel
  obtain ⟨⟨system, reply, retired, later⟩, hfound, hflags⟩ := Option.map_eq_some_iff.mp hrun
  obtain ⟨hreply, hsome⟩ := of_decide_eq_true hflags
  obtain ⟨record, hrecord⟩ := Option.isSome_iff_exists.mp hsome
  obtain ⟨hreach, hretire, hlater⟩ := Sample.depart_reaches hfound
  obtain rfl := Reply.of_accepted hreply
  have hlasts := retirement_lasts hreach hretire hrecord (hlater.mono fun _ _ hpeaceful => hpeaceful.leavesRetired)
  exact ⟨system, _, retired, later, record, hfound, hrecord, hlasts.1⟩

set_option maxRecDepth 100000 in
/-- A loss that is reported of a retired incarnation makes the agent lost. -/
theorem not_retirement_lasts : ¬∀ (system retired later : System) (agent : AgentId) (boot : AgentBootId) (force : Bool)
    (record : AgentRecord), system.Reachable →
    system.step (.run (.deregisterAgent agent boot force)) = some (.mutation (.ok ()), retired) →
    retired.impl.agents[agent]? = some record → System.Runs (fun _ label => label.Continues) retired later →
    later.impl.Retired agent boot record.descriptor.generation := by
  intro hlasts
  have hrun : (Sample.depart [] Sample.deregister (fun _ label => label.Continues)
      [.begin (.declareAgentLost 1 Sample.boot "session closed"), .finish 0]).map
      (fun found => decide (found.2.1.accepted ∧
        (found.2.2.1.impl.agents[(1 : AgentId)]?).map (fun record => record.descriptor.generation) =
          (found.2.2.2.impl.agents[(1 : AgentId)]?).map (fun record => record.descriptor.generation) ∧
        (found.2.2.2.impl.agents[(1 : AgentId)]?).map (fun record => record.lifecycle) = some .lost)) = some true := by
    decide +kernel
  obtain ⟨⟨system, reply, retired, later⟩, hfound, hflags⟩ := Option.map_eq_some_iff.mp hrun
  obtain ⟨hreply, hsame, hlost⟩ := of_decide_eq_true hflags
  obtain ⟨hreach, hretire, hlater⟩ := Sample.depart_reaches hfound
  obtain rfl := Reply.of_accepted hreply
  obtain ⟨record', hrecord', hlifecycle⟩ := Option.map_eq_some_iff.mp hlost
  rw [hrecord'] at hsame
  obtain ⟨record, hrecord, hgeneration⟩ := Option.map_eq_some_iff.mp hsame
  rcases hlasts system retired later 1 Sample.boot false record hreach hretire hrecord hlater record' hrecord' with
    hlater | ⟨-, -, hretired⟩
  · rw [hgeneration] at hlater
    exact Nat.lt_irrefl _ hlater
  · rw [hlifecycle] at hretired
    cases hretired

/-! ### Draining -/

/-- Nothing new is committed to the incarnation: it is fenced, or drained wherever it still stands. -/
def Impl.Barred (impl : Impl) (agent : AgentId) (boot : AgentBootId) : Prop :=
  bootIsFenced impl boot ∨ ∀ record, impl.agents[agent]? = some record → record.descriptor.boot = boot → record.lifecycle = .draining

/-- The agent, if it is known, stands under this incarnation or at a later generation, and the incarnation is barred. -/
structure Impl.Withdrawn (impl : Impl) (agent : AgentId) (boot : AgentBootId) (generation : AgentGeneration) : Prop where
  standing : ∀ record, impl.agents[agent]? = some record → generation < record.descriptor.generation ∨
    record.descriptor.boot = boot ∧ record.descriptor.generation = generation
  barred : impl.Barred agent boot

/-- The step enrolls the agent anew only at a later generation and never again under the drained boot, unless that is fenced;
and it loads no file from before the drain or in which the agent is drained but not fenced. -/
structure System.LeavesDrained (system : System) (agent : AgentId) (boot : AgentBootId) (generation : AgentGeneration)
    (label : Label) : Prop where
  registration : ∀ position descriptor, label = .finish position →
    system.calls[position]? = some (.registerAgent descriptor) → descriptor.id = agent →
    (system.impl.agents[agent]? = none → generation < descriptor.generation) ∧
      (descriptor.boot = boot → bootIsFenced system.impl boot ∨
        ∃ record, system.impl.agents[agent]? = some record ∧ record.descriptor.boot = boot)
  load : ∀ position file, label = .load position → system.saved[position]? = some file →
    file.Withdrawn agent boot generation ∧
      ∀ record, file.agents[agent]? = some record → record.descriptor.boot = boot → bootIsFenced file boot

section Chains
variable {ctx : Context} {allows : Event → Prop} {stale stale' : Set AgentId} {impl impl' : Impl} {agent : AgentId}
  {boot : AgentBootId} {binding : AssignmentBinding}

/-- A commit to the agent finds it under its boot, unfenced and not drained. -/
theorem Impl.Barred.not_committed {generation : WorkGeneration} {work : WorkRecord} (h : impl.Barred binding.agent binding.boot) :
    commitCheck ctx impl binding.work generation binding ≠ .ok work := by
  intro hcheck
  obtain ⟨-, -, -, ⟨record, hrecord, hagent⟩, -⟩ := commitCheck_ok.mp hcheck
  unfold commitAgent at hagent
  simp only [check_bind_eq_ok, refuseIf_eq_ok, Bool.not_eq_true, not_not] at hagent
  obtain ⟨-, hboot, hopen, haccepts, -⟩ := hagent
  rcases h with hfenced | hdraining
  · rw [hopen] at hfenced
    cases hfenced
  · rw [hdraining record hrecord hboot] at haccepts
    exact haccepts rfl

/-- A chain of commits and bookkeeping binds nothing new to a barred incarnation. -/
theorem Deeds.spares (hdeeds : Deeds ctx allows (stale, impl) (stale', impl')) (hconsistent : Consistent impl)
    (hallows : ∀ event, allows event → event.IsBookkeeping ∨ ∃ binding, event = .commits binding) (hbarred : impl.Barred agent boot)
    {id : AssignmentId} {record' : AssignmentRecord} (hrecord' : impl'.assignments[id]? = some record')
    (hagent : record'.binding.agent = agent) (hboot : record'.binding.boot = boot) :
    ∃ record, impl.assignments[id]? = some record ∧ SameBinding record record' := by
  refine (hdeeds.keeps (motive := fun scene => scene.2.Barred agent boot ∧ ∀ (id : AssignmentId) record',
    scene.2.assignments[id]? = some record' → record'.binding.agent = agent → record'.binding.boot = boot →
    ∃ record, impl.assignments[id]? = some record ∧ SameBinding record record')
    (fun event scene scene' hallowed hdeed hscene hinv => ?_) hconsistent
    ⟨hbarred, fun id record hrecord _ _ => ⟨record, hrecord, SameBinding.refl record⟩⟩).2 id record' hrecord' hagent hboot
  obtain ⟨hbars, hkept⟩ := hinv
  constructor
  · refine hbars.imp (hdeed.fenceEffect hscene).1 fun hdraining record' hrecord' hboot' => ?_
    cases hdeed.agentEffect hscene hrecord' with
    | kept record hrecord hkeeps =>
      have hdescriptor := (AgentRecord.read_of_essence hkeeps.essence).1
      have hdrained := hdraining record hrecord (hdescriptor ▸ hboot')
      have hsticky : record.lifecycle.IsSticky := .inr (.inr hdrained)
      exact (hkeeps.sticky (.inl hsticky)).trans hdrained
    | touched _ _ hevent =>
      subst hevent
      rcases hallows _ hallowed with hbook | ⟨_, hform⟩
      · exact hbook.elim
      · cases hform
    | enrolled _ _ hevent =>
      subst hevent
      rcases hallows _ hallowed with hbook | ⟨_, hform⟩
      · exact hbook.elim
      · cases hform
  · intro id record' hrecord' hagent' hboot'
    cases hdeed.slotEffect hscene hrecord' with
    | kept middle hmiddle hbinding =>
      have hsame : middle.binding.agent = agent ∧ middle.binding.boot = boot := by
        rw [hbinding] at hagent' hboot'
        exact ⟨hagent', hboot'⟩
      obtain ⟨record, hrecord, hbound⟩ := hkept id middle hmiddle hsame.1 hsame.2
      exact ⟨record, hrecord, hbound.trans hbinding⟩
    | closed middle hevent =>
      subst hevent
      rcases hallows _ hallowed with hbook | ⟨_, hform⟩
      · exact hbook.elim
      · cases hform
    | committed binding hevent _ _ hform =>
      subst hevent hform
      cases hdeed with
      | commit generation _ work hcheck =>
        refine (Impl.Barred.not_committed ?_ hcheck).elim
        have hagent' : binding.agent = agent := hagent'
        have hboot' : binding.boot = boot := hboot'
        rw [hagent', hboot']
        exact hbars

end Chains

section Steps
variable {system after : System} {label : Label} {reply : Reply} {agent : AgentId} {boot : AgentBootId} {generation : AgentGeneration}

/-- What is bound to a barred incarnation after a step was bound to it before, in the instance or in the file it loads. -/
theorem System.step_spares (hvalid : system.Valid) (h : system.impl.Barred agent boot)
    (hstep : system.step label = some (reply, after)) {id : AssignmentId} {record' : AssignmentRecord}
    (hrecord' : after.impl.assignments[id]? = some record') (hagent : record'.binding.agent = agent)
    (hboot : record'.binding.boot = boot) :
    ∃ impl record, (impl = system.impl ∨ impl ∈ system.saved) ∧ impl.assignments[id]? = some record ∧ SameBinding record record' := by
  have hconsistent := hvalid.healthy.consistent
  rcases System.step_deeds hvalid hstep with ⟨position, file, -, hfile, -, hform⟩ | ⟨options, generatedId, -, hconstruct⟩ | hdeeds
  · have hmem := List.mem_of_getElem? hfile
    rw [hform] at hrecord'
    have hrecovered := congrFun (congrArg Ledger.assignments (restore_image system.impl (hvalid.saved file hmem).consistent).2) id
    obtain ⟨saved, hsaved, rfl⟩ := Option.map_eq_some_iff.mp (hrecovered.symm.trans hrecord')
    exact ⟨file, saved, .inr hmem, hsaved, (Evolves.recover saved).binding⟩
  · obtain ⟨-, -, hassignments⟩ := construct_spec hconstruct
    have hnone : after.impl.assignments[id]? = none := hassignments id
    rw [hnone] at hrecord'
    cases hrecord'
  · by_cases hcommits : ∃ binding, system.Causes label (.commits binding)
    · obtain ⟨binding, hcommits⟩ := hcommits
      obtain ⟨record, hrecord, hbinding⟩ := hdeeds.spares hconsistent
        (fun event hallowed => hallowed.imp_right fun hcauses => System.Causes.commits_only hcommits hcauses) h hrecord' hagent hboot
      exact ⟨system.impl, record, .inl rfl, hrecord, hbinding⟩
    · obtain ⟨record, hrecord, hbinding, -⟩ := hdeeds.keepsSlots hconsistent
        (fun binding hallowed => hcommits ⟨binding, hallowed.resolve_left fun hbook => hbook⟩) hrecord'
      exact ⟨system.impl, record, .inl rfl, hrecord, hbinding⟩

/-- Nothing bound to a barred incarnation is handed off. -/
theorem System.HandsOff.not_barred {binding : AssignmentBinding} (hhands : system.HandsOff label after binding)
    (hvalid : system.Valid) (h : system.impl.Barred agent boot) : ¬(binding.agent = agent ∧ binding.boot = boot) := by
  rintro ⟨rfl, rfl⟩
  obtain ⟨record, -, -, hbinding, hauthority, -⟩ := hhands.spec hvalid
  obtain ⟨-, -, holder, hholder, -, hboot, hopen, hlifecycle, -⟩ := revalidateAuthority_ok hauthority
  rw [hbinding] at h
  rcases h with hfenced | hdraining
  · rw [hopen] at hfenced
    cases hfenced
  · exact hlifecycle.2.2 (hdraining holder hholder hboot)

theorem withdrawn_restore (impl : Impl) {file : Impl} (hfile : Consistent file) (h : file.Withdrawn agent boot generation)
    (hfenced : ∀ record, file.agents[agent]? = some record → record.descriptor.boot = boot → bootIsFenced file boot) :
    (restore impl (image file)).Withdrawn agent boot generation := by
  constructor
  · intro record' hrecord'
    obtain ⟨saved, hsaved, hkeeps⟩ := agents_restore impl hfile hrecord'
    have hdescriptor : record'.descriptor = saved.descriptor := (AgentRecord.read_of_essence hkeeps.essence).1
    rw [hdescriptor]
    exact h.standing saved hsaved
  · rw [Impl.Barred, bootIsFenced_restore]
    by_cases hheld : ∃ record, file.agents[agent]? = some record ∧ record.descriptor.boot = boot
    · obtain ⟨record, hrecord, hboot⟩ := hheld
      exact .inl (hfenced record hrecord hboot)
    · refine .inr fun record' hrecord' hboot => ?_
      obtain ⟨saved, hsaved, hkeeps⟩ := agents_restore impl hfile hrecord'
      have hdescriptor : record'.descriptor = saved.descriptor := (AgentRecord.read_of_essence hkeeps.essence).1
      exact (hheld ⟨saved, hsaved, hdescriptor ▸ hboot⟩).elim

/-- A registration of the agent leaves it withdrawn. -/
theorem System.LeavesDrained.registration_step {position : Nat} {descriptor : AgentDescriptor}
    (hleaves : system.LeavesDrained descriptor.id boot generation (.finish position)) (hvalid : system.Valid)
    (h : system.impl.Withdrawn descriptor.id boot generation)
    (hcall : system.calls[position]? = some (.registerAgent descriptor))
    (hfences : bootIsFenced system.impl boot → bootIsFenced after.impl boot)
    (hstep : system.step (.finish position) = some (reply, after)) : after.impl.Withdrawn descriptor.id boot generation := by
  have hconsistent := hvalid.healthy.consistent
  obtain ⟨hfresh, hagain⟩ := hleaves.registration position descriptor rfl hcall rfl
  have hform := hstep
  simp only [System.step, hcall] at hform
  obtain ⟨-, rfl⟩ := Prod.mk.inj (Option.some.inj hform)
  constructor
  · intro record' hrecord'
    rcases registerAgentCommit_record system.now hconsistent hrecord' with ⟨error, hform⟩ | ⟨hdescriptor, hcases⟩
    · have hsame : (registerAgentCommit system.now system.impl descriptor).2.agents = system.impl.agents := by rw [hform]
      exact h.standing record' (hsame ▸ hrecord')
    · rw [hdescriptor]
      rcases hcases with ⟨existing, hexisting, hnewer, -⟩ | ⟨existing, hexisting, hgeneration, hboot, -⟩ | hnone
      · left
        rcases h.standing existing hexisting with hlater | ⟨-, hsame⟩
        · exact Nat.lt_trans hlater hnewer
        · exact hsame ▸ hnewer
      · rcases h.standing existing hexisting with hlater | ⟨hbound, hsame⟩
        · exact .inl (hgeneration ▸ hlater)
        · exact .inr ⟨hboot.trans hbound, hgeneration.trans hsame⟩
      · exact .inl (hfresh hnone)
  · by_cases hdone : bootIsFenced (registerAgentCommit system.now system.impl descriptor).2 boot
    · exact .inl hdone
    · have hopen : ¬bootIsFenced system.impl boot := fun hfenced => hdone (hfences hfenced)
      have hdraining := h.barred.resolve_left hopen
      refine .inr fun record' hrecord' hboot' => ?_
      rcases registerAgentCommit_record system.now hconsistent hrecord' with ⟨error, hform⟩ | ⟨hdescriptor, hcases⟩
      · have hsame : (registerAgentCommit system.now system.impl descriptor).2.agents = system.impl.agents := by rw [hform]
        exact hdraining record' (hsame ▸ hrecord') hboot'
      · have hnamed : descriptor.boot = boot := by
          rw [hdescriptor] at hboot'
          exact hboot'
        obtain ⟨found, hfound, hbound⟩ := (hagain hnamed).resolve_left hopen
        rcases hcases with ⟨existing, hexisting, hnewer, hunfenced⟩ | ⟨existing, hexisting, -, -, hends⟩ | hnone
        · obtain rfl := Option.some.inj (hexisting.symm.trans hfound)
          have hreplaced := (System.Fences.reincarnation position descriptor existing hcall hexisting hnewer hunfenced).fenced hvalid
            (hconsistent.agentBoot _ existing hexisting) hstep
          rw [hbound] at hreplaced
          exact (hdone hreplaced).elim
        · obtain rfl := Option.some.inj (hexisting.symm.trans hfound)
          have hdrained := hdraining existing hexisting hbound
          exact (hends (.inl hdrained)).trans hdrained
        · rw [hnone] at hfound
          cases hfound

/-- A step leaves a drained agent withdrawn. -/
theorem System.LeavesDrained.step (hleaves : system.LeavesDrained agent boot generation label) (hvalid : system.Valid)
    (h : system.impl.Withdrawn agent boot generation) (hstep : system.step label = some (reply, after)) :
    after.impl.Withdrawn agent boot generation := by
  have hconsistent := hvalid.healthy.consistent
  rcases System.step_deeds hvalid hstep with ⟨position, file, rfl, hfile, -, hform⟩ | ⟨options, generatedId, -, hconstruct⟩ | hdeeds
  · obtain ⟨hwithdrawn, hfenced⟩ := hleaves.load position file rfl hfile
    rw [hform]
    exact withdrawn_restore _ (hvalid.saved file (List.mem_of_getElem? hfile)).consistent hwithdrawn hfenced
  · have hnone : ∀ record, after.impl.agents[agent]? ≠ some record := by
      intro record
      rw [construct_agents hconstruct]
      simp
    exact ⟨fun record hrecord => (hnone record hrecord).elim, .inr fun record hrecord => (hnone record hrecord).elim⟩
  · have hfences : bootIsFenced system.impl boot → bootIsFenced after.impl boot := fun hfenced => hdeeds.fenced hconsistent hfenced
    by_cases hregisters : system.Registers label agent
    · obtain ⟨position, descriptor, rfl, hcall, rfl⟩ := hregisters
      exact hleaves.registration_step hvalid h hcall hfences hstep
    · have hdeparts := fun record' hrecord' =>
        @Deeds.departs _ _ _ _ _ _ _ .draining hdeeds hconsistent (.inl rfl) (System.not_enrolls hregisters) record' hrecord'
      constructor
      · intro record' hrecord'
        obtain ⟨record, hrecord, hboot, hgeneration, -⟩ := hdeparts record' hrecord'
        rw [hboot, hgeneration]
        exact h.standing record hrecord
      · by_cases hdone : bootIsFenced after.impl boot
        · exact .inl hdone
        · have hdraining := h.barred.resolve_left fun hfenced => hdone (hfences hfenced)
          refine .inr fun record' hrecord' hboot' => ?_
          obtain ⟨record, hrecord, hboot, -, hstays⟩ := hdeparts record' hrecord'
          have hbound : record.descriptor.boot = boot := hboot.symm.trans hboot'
          have hdrained := hdraining record hrecord hbound
          have hunfenced : ∀ fenced, system.Fences label fenced boot → False := fun fenced hfences =>
            hdone (hfences.fenced hvalid (hbound ▸ hconsistent.agentBoot agent record hrecord) hstep)
          have hunchanged : after.impl.agents = system.impl.agents → record'.lifecycle = .draining := fun hsame =>
            hdraining record' (hsame ▸ hrecord') hboot'
          rcases hstays hdrained with hdrained' | ⟨touch, other, hcauses, hends, hother⟩
          · exact hdrained'
          · rcases System.Causes.ends hcauses hends with
              ⟨_, _, -, rfl⟩ | ⟨retired, force, rfl, -⟩ | ⟨position, lost, reason, rfl, hcall, -⟩
            · exact (hother rfl).elim
            · rcases deregisterAgent_cases system.now agent retired force hconsistent with
                ⟨-, error, hrefused⟩ | ⟨found, stored, hfound, hnamed, hopen, hidle, -⟩
              · obtain ⟨-, rfl⟩ := Prod.mk.inj (Option.some.inj hstep)
                have hsame := congrArg (fun result => result.2.agents) hrefused
                exact hunchanged hsame
              · obtain rfl := Option.some.inj (hrecord.symm.trans hfound)
                obtain rfl : boot = retired := hbound.symm.trans hnamed
                exact (hunfenced agent (.retirement agent boot force record hrecord hbound hopen hidle)).elim
            · by_cases hcurrent : boot = lost
              · subst hcurrent
                exact (hunfenced agent (.loss position agent boot reason hcall)).elim
              · simp only [System.step, hcall] at hstep
                obtain ⟨-, rfl⟩ := Prod.mk.inj (Option.some.inj hstep)
                refine hunchanged (declareAgentLostCommit_agents ?_)
                rintro ⟨found, hfound, hnamed⟩
                obtain rfl := Option.some.inj (hrecord.symm.trans hfound)
                exact hcurrent (hbound.symm.trans hnamed)

end Steps

/-- The assignment is bound, in the instance or in a saved file. -/
def System.Binds (system : System) (id : AssignmentId) (record : AssignmentRecord) : Prop :=
  ∃ impl before, (impl = system.impl ∨ impl ∈ system.saved) ∧ impl.assignments[id]? = some before ∧ SameBinding before record

/-- A drain that succeeds withdraws the agent. -/
theorem withdrawn_drainAgent {now : UInt64} {impl impl' : Impl} {agent : AgentId} {boot : AgentBootId} {force : Bool}
    (hconsistent : Consistent impl) (hform : drainAgent now impl agent boot force = (.ok (), impl')) {record : AgentRecord}
    (hrecord : impl'.agents[agent]? = some record) : impl'.Withdrawn agent boot record.descriptor.generation := by
  rcases drainAgent_cases now agent boot force hconsistent with ⟨error, hrefused⟩ | ⟨existing, after, -, hboot, haccepted, hkept⟩
  · cases congrArg Prod.fst (hrefused.symm.trans hform)
  · obtain ⟨-, rfl⟩ := Prod.mk.inj (haccepted.symm.trans hform)
    obtain ⟨drained, hdrained, hkeeps⟩ := hkept record hrecord
    rw [getElem?_setAgent, if_pos rfl] at hdrained
    obtain rfl := Option.some.inj hdrained
    have hdescriptor : record.descriptor = existing.descriptor := (AgentRecord.read_of_essence hkeeps.essence).1
    have hdraining : record.lifecycle = .draining := hkeeps.sticky (.inl (.inr (.inr rfl)))
    refine ⟨fun found hfound => .inr ?_, .inr fun found hfound _ => ?_⟩
    · obtain rfl := Option.some.inj (hrecord.symm.trans hfound)
      exact ⟨hdescriptor ▸ hboot, rfl⟩
    · obtain rfl := Option.some.inj (hrecord.symm.trans hfound)
      exact hdraining

/-- After a drain the agent takes new work only at a later generation, nothing more is bound to the drained incarnation than
was bound when it was drained, and nothing bound to it is handed off; as long as no file is loaded that forgets the drain. -/
theorem drain_sticks {system drained later : System} {agent : AgentId} {boot : AgentBootId} {force : Bool} {record : AgentRecord}
    (hreach : system.Reachable)
    (hdrain : system.step (.run (.drainAgent agent boot force)) = some (.mutation (.ok ()), drained))
    (hrecord : drained.impl.agents[agent]? = some record)
    (hrun : System.Runs (fun s label => s.LeavesDrained agent boot record.descriptor.generation label) drained later) :
    (∀ found, later.impl.agents[agent]? = some found → found.lifecycle.acceptsNewWork →
        bootIsFenced later.impl found.descriptor.boot = false → record.descriptor.generation < found.descriptor.generation) ∧
      (∀ (id : AssignmentId) found, later.impl.assignments[id]? = some found → found.binding.agent = agent →
        found.binding.boot = boot → drained.Binds id found) ∧
      ∀ (label : Label) after binding, later.HandsOff label after binding → ¬(binding.agent = agent ∧ binding.boot = boot) := by
  have hvalid : drained.Valid := hreach.valid.step hdrain
  have hinitial : drained.impl.Withdrawn agent boot record.descriptor.generation := by
    obtain ⟨hreply, rfl⟩ := Prod.mk.inj (Option.some.inj hdrain)
    exact withdrawn_drainAgent hreach.valid.healthy.consistent (Prod.ext (Reply.mutation.inj hreply) rfl) hrecord
  let bound (s : System) : Prop := ∀ impl : Impl, impl = s.impl ∨ impl ∈ s.saved → ∀ (id : AssignmentId) found,
    impl.assignments[id]? = some found → found.binding.agent = agent → found.binding.boot = boot → drained.Binds id found
  obtain ⟨hlater, hwithdrawn, hbound⟩ : later.Valid ∧ later.impl.Withdrawn agent boot record.descriptor.generation ∧ bound later := by
    refine Runs.keeps (motive := fun s : System => s.Valid ∧ s.impl.Withdrawn agent boot record.descriptor.generation ∧ bound s)
      (fun s s' hstep hinv => ?_) hrun
      ⟨hvalid, hinitial, fun impl himpl id found hfound _ _ => ⟨impl, found, himpl, hfound, SameBinding.refl found⟩⟩
    obtain ⟨label, reply, hleaves, hstep⟩ := hstep
    obtain ⟨hs, hwithdrawn, hbound⟩ := hinv
    refine ⟨hs.step hstep, hleaves.step hs hwithdrawn hstep, fun impl himpl id found hfound hagent hboot => ?_⟩
    have hcarry : ∀ impl' before, impl' = s.impl ∨ impl' ∈ s.saved → impl'.assignments[id]? = some before →
        SameBinding before found → drained.Binds id found := by
      intro impl' before himpl' hbefore hbinding
      have hsame : before.binding.agent = agent ∧ before.binding.boot = boot := by
        rw [hbinding] at hagent hboot
        exact ⟨hagent, hboot⟩
      obtain ⟨origin, first, horigin, hfirst, hfirstly⟩ := hbound impl' himpl' id before hbefore hsame.1 hsame.2
      exact ⟨origin, first, horigin, hfirst, hfirstly.trans hbinding⟩
    rcases himpl with rfl | hsaved
    · obtain ⟨impl', before, himpl', hbefore, hbinding⟩ := System.step_spares hs hwithdrawn.barred hstep hfound hagent hboot
      exact hcarry impl' before himpl' hbefore hbinding
    · rcases (System.step_frame hstep).saved impl hsaved with hold | rfl
      · exact hcarry impl found (.inr hold) hfound (SameBinding.refl found)
      · exact hcarry s.impl found (.inl rfl) hfound (SameBinding.refl found)
  refine ⟨fun found hfound haccepts hopen => ?_, fun id found => hbound later.impl (.inl rfl) id found,
    fun label after binding hhands => hhands.not_barred hlater hwithdrawn.barred⟩
  refine (hwithdrawn.standing found hfound).resolve_right fun hstands => ?_
  rcases hwithdrawn.barred with hfenced | hdraining
  · rw [hstands.1, hfenced] at hopen
    cases hopen
  · rw [hdraining found hfound hstands.1] at haccepts
    cases haccepts

theorem Sample.Peaceful.leavesDrained {system : System} {label : Label} {agent : AgentId} {boot : AgentBootId}
    {generation : AgentGeneration} (h : Sample.Peaceful system label) : system.LeavesDrained agent boot generation label where
  registration := by
    rintro position descriptor rfl hcall rfl
    simp only [Sample.Peaceful, hcall] at h
    obtain ⟨existing, hexisting, hboot⟩ := Option.map_eq_some_iff.mp h
    refine ⟨fun hnone => ?_, fun hnamed => .inr ⟨existing, hexisting, hboot.trans hnamed⟩⟩
    rw [hnone] at hexisting
    cases hexisting
  load := by
    rintro position file rfl
    exact h.elim

/-- The agent of the samples is drained. -/
def Sample.drain : Operation := .drainAgent 1 Sample.boot false

set_option maxRecDepth 100000 in
/-- An agent with an assignment is drained and registers again under the same incarnation. -/
theorem drain_sticks_sample : ∃ system reply drained later record,
    Sample.depart (Sample.submit Sample.exclusiveWork ++ Sample.schedule) Sample.drain Sample.Peaceful
        [.begin (.registerAgent Sample.descriptor), .finish 0] = some (system, reply, drained, later) ∧
      drained.impl.agents[(1 : AgentId)]? = some record ∧ later.impl.assignments.size = 1 ∧
      ∀ (id : AssignmentId) found, later.impl.assignments[id]? = some found → found.binding.agent = 1 →
        found.binding.boot = Sample.boot → drained.Binds id found := by
  have hrun : (Sample.depart (Sample.submit Sample.exclusiveWork ++ Sample.schedule) Sample.drain Sample.Peaceful
        [.begin (.registerAgent Sample.descriptor), .finish 0]).map (fun found =>
      decide (found.2.1.accepted ∧ (found.2.2.1.impl.agents[(1 : AgentId)]?).isSome ∧
        found.2.2.2.impl.assignments.size = 1)) = some true := by
    decide +kernel
  obtain ⟨⟨system, reply, drained, later⟩, hfound, hflags⟩ := Option.map_eq_some_iff.mp hrun
  obtain ⟨hreply, hsome, hsize⟩ := of_decide_eq_true hflags
  obtain ⟨record, hrecord⟩ := Option.isSome_iff_exists.mp hsome
  obtain ⟨hreach, hdrain, hlater⟩ := Sample.depart_reaches hfound
  obtain rfl := Reply.of_accepted hreply
  have hsticks := drain_sticks hreach hdrain hrecord (hlater.mono fun _ _ hpeaceful => hpeaceful.leavesDrained)
  exact ⟨system, _, drained, later, record, hfound, hrecord, hsize, hsticks.2.1⟩

/-- The process goes on. -/
def Label.Persists : Label → Prop
  | .restart _ _ => False
  | _ => True

instance (label : Label) : Decidable label.Persists := by
  rcases label with ⟨⟩ <;> first | exact instDecidableTrue | exact instDecidableFalse

/-- The state is saved and loaded again, the agent registers and publishes its evidence anew, and a work item is scheduled. -/
def Sample.reloaded : List Label :=
  [.run .shutdown, .save, .load 0, .run .start] ++ Sample.enlist ++ Sample.submit Sample.exclusiveWork ++ Sample.schedule

set_option maxRecDepth 100000 in
/-- An agent that is drained takes new work again once its state was saved and loaded. -/
theorem not_drain_sticks : ¬∀ (system drained later : System) (agent : AgentId) (boot : AgentBootId) (force : Bool),
    system.Reachable → system.step (.run (.drainAgent agent boot force)) = some (.mutation (.ok ()), drained) →
    drained.saved = [] → System.Runs (fun _ label => label.Persists) drained later →
    ∀ (id : AssignmentId) found, later.impl.assignments[id]? = some found → found.binding.agent = agent →
      found.binding.boot = boot → drained.Binds id found := by
  intro hsticks
  have hrun : (Sample.depart [] Sample.drain (fun _ label => label.Persists) Sample.reloaded).map (fun found =>
      decide (found.2.1.accepted ∧ found.2.2.1.saved.isEmpty ∧ found.2.2.1.impl.assignments.isEmpty ∧
        (found.2.2.2.impl.assignments.toList.map fun entry => (entry.2.binding.agent, entry.2.binding.boot)) =
          [(1, Sample.boot)])) = some true := by
    decide +kernel
  obtain ⟨⟨system, reply, drained, later⟩, hfound, hflags⟩ := Option.map_eq_some_iff.mp hrun
  obtain ⟨hreply, hunsaved, hempty, hbound⟩ := of_decide_eq_true hflags
  obtain ⟨hreach, hdrain, hlater⟩ := Sample.depart_reaches hfound
  obtain rfl := Reply.of_accepted hreply
  have hunsaved : drained.saved = [] := List.isEmpty_iff.mp hunsaved
  obtain ⟨⟨id, record⟩, hmem, hpair⟩ : ∃ entry ∈ later.impl.assignments.toList,
      (entry.2.binding.agent, entry.2.binding.boot) = (1, Sample.boot) :=
    List.mem_map.mp (by rw [hbound]; exact List.mem_singleton_self _)
  obtain ⟨hagent, hboot⟩ := Prod.mk.inj hpair
  have hrecord : later.impl.assignments[id]? = some record := ExtTreeMap.mem_toList_iff_getElem?_eq_some.mp hmem
  obtain ⟨impl, before, himpl, hbefore, -⟩ :=
    hsticks system drained later 1 Sample.boot false hreach hdrain hunsaved hlater id record hrecord hagent hboot
  have hnone : impl = drained.impl := by
    refine himpl.resolve_right fun hsaved => ?_
    rw [hunsaved] at hsaved
    exact List.not_mem_nil hsaved
  have hempty : drained.impl.assignments = ∅ := ExtTreeMap.isEmpty_iff.mp hempty
  rw [hnone, hempty] at hbefore
  simp at hbefore

end AgentScheduler
