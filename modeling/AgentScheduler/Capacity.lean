import AgentScheduler.Progress

/-! Capacity and population: how many assignments an agent holds, and how large the tables of an instance grow. -/
namespace AgentScheduler
open Std KeyedTable Relation

/-! ### The capacity of agents -/

/-- No agent holds more active assignments than its descriptor declares. -/
def Impl.WithinCapacity (impl : Impl) : Prop :=
  ∀ (agent : AgentId) record, impl.agents[agent]? = some record →
    impl.activeCount (fun assignment => assignment.binding.agent = agent) ≤ record.descriptor.maxConcurrency.toNat

/-- A step that registers a running incarnation again declares at least the concurrency it uses. -/
def System.KeepsRoom (system : System) (label : Label) : Prop :=
  ∀ position descriptor existing, label = .finish position → system.calls[position]? = some (.registerAgent descriptor) →
    system.impl.agents[descriptor.id]? = some existing → descriptor.generation = existing.descriptor.generation →
    descriptor.boot = existing.descriptor.boot → bootIsFenced system.impl descriptor.boot = false →
    existing.activeAssignments ≤ descriptor.maxConcurrency.toNat

/-- The slots an agent holds, as a set. -/
def Impl.heldBy (impl : Impl) (agent : AgentId) : Set AssignmentId :=
  impl.ledger.active fun assignment => assignment.binding.agent = agent

section Slots
variable {ctx : Context} {event : Event} {allows : Event → Prop} {stale stale' : Set AgentId} {impl impl' : Impl}
  {agent : AgentId}

theorem withinCapacity_iff : impl.WithinCapacity ↔
    ∀ (agent : AgentId) record, impl.agents[agent]? = some record →
      (impl.heldBy agent).encard ≤ record.descriptor.maxConcurrency.toNat := by
  unfold Impl.WithinCapacity Impl.heldBy
  constructor
  · intro h agent record hrecord
    rw [encard_active impl (p := fun assignment => assignment.binding.agent = agent) (by simp)]
    exact_mod_cast h agent record hrecord
  · intro h agent record hrecord
    have hcount := h agent record hrecord
    rw [encard_active impl (p := fun assignment => assignment.binding.agent = agent) (by simp)] at hcount
    exact_mod_cast hcount

/-- The counter of an agent whose derived data is up to date. -/
theorem Tidy.encard_heldBy (h : Tidy ∅ ∅ impl) {record : AgentRecord} (hrecord : impl.agents[agent]? = some record) :
    (impl.heldBy agent).encard = record.activeAssignments :=
  (h.settled agent (Set.notMem_empty _) record hrecord).1

theorem heldBy_of_keeps (hkeeps : ∀ (id : AssignmentId) record', impl'.assignments[id]? = some record' →
    ∃ record, impl.assignments[id]? = some record ∧ SameBinding record record' ∧
      (record'.state.isActive → record.state.isActive)) (agent : AgentId) : impl'.heldBy agent ⊆ impl.heldBy agent := by
  rintro id ⟨record', hrecord', hactive, hagent⟩
  obtain ⟨record, hrecord, hbinding, hwas⟩ := hkeeps id record' hrecord'
  refine ⟨record, hrecord, hwas hactive, ?_⟩
  rw [hbinding] at hagent
  exact hagent

/-- Where the descriptor of an agent comes from. -/
theorem Deeds.descriptor (hdeeds : Deeds ctx allows (stale, impl) (stale', impl')) (hconsistent : Consistent impl)
    {record' : AgentRecord} (hrecord' : impl'.agents[agent]? = some record') :
    (∃ record, impl.agents[agent]? = some record ∧ record'.descriptor = record.descriptor) ∨
      ∃ descriptor : AgentDescriptor, descriptor.id = agent ∧ record'.descriptor = descriptor.stored ∧
        (allows (.enrolls descriptor) ∨ allows (.touches agent (.reregistered descriptor))) := by
  refine hdeeds.keeps (motive := fun scene => ∀ record', scene.2.agents[agent]? = some record' →
    (∃ record, impl.agents[agent]? = some record ∧ record'.descriptor = record.descriptor) ∨
      ∃ descriptor : AgentDescriptor, descriptor.id = agent ∧ record'.descriptor = descriptor.stored ∧
        (allows (.enrolls descriptor) ∨ allows (.touches agent (.reregistered descriptor))))
    (fun event scene scene' hallows hdeed hscene hinv record' hrecord' => ?_) hconsistent
    (fun record hrecord => .inl ⟨record, hrecord, rfl⟩) record' hrecord'
  have hcarry : ∀ middle, scene.2.agents[agent]? = some middle → record'.descriptor = middle.descriptor →
      (∃ record, impl.agents[agent]? = some record ∧ record'.descriptor = record.descriptor) ∨
        ∃ descriptor : AgentDescriptor, descriptor.id = agent ∧ record'.descriptor = descriptor.stored ∧
          (allows (.enrolls descriptor) ∨ allows (.touches agent (.reregistered descriptor))) := by
    intro middle hmiddle hsame
    rw [hsame]
    exact hinv middle hmiddle
  cases hdeed.agentEffect hscene hrecord' with
  | kept middle hmiddle hkeeps => exact hcarry middle hmiddle (AgentRecord.read_of_essence hkeeps.essence).1
  | touched middle touch hevent hmiddle hadmits hupdate =>
    subst hupdate hevent
    cases touch with
    | reregistered descriptor =>
      have hid : descriptor.id = agent := hadmits.1.trans (hscene.agentKey agent middle hmiddle)
      exact .inr ⟨descriptor, hid, rfl, .inr hallows⟩
    | reported | available | published | drained | retired | lost => exact hcarry middle hmiddle rfl
  | enrolled descriptor reason hevent hid hfresh =>
    subst hfresh hevent
    exact .inr ⟨descriptor, hid, freshAgent_descriptor _ _ _ _, .inl hallows⟩

/-- A commit takes one slot of the agent it binds, which had one free. -/
theorem withinCapacity_commit {generation : WorkGeneration} {binding : AssignmentBinding} {work : WorkRecord}
    (hconsistent : Consistent impl) (htidy : Tidy ∅ ∅ impl) (h : impl.WithinCapacity)
    (hcheck : commitCheck ctx impl binding.work generation binding = .ok work) :
    (commitApply impl binding.work work binding).WithinCapacity := by
  rw [withinCapacity_iff] at h ⊢
  have hdeed : Deed ctx (.commits binding) (∅, impl) (∅, commitApply impl binding.work work binding) :=
    .commit generation binding work hcheck
  have hheld : ∀ agent, (commitApply impl binding.work work binding).heldBy agent ⊆
      impl.heldBy agent ∪ {id | id = binding.id ∧ binding.agent = agent} := by
    rintro agent id ⟨record, hrecord, hactive, hagent⟩
    rcases assignments_commitApply hconsistent hcheck hrecord with hold | ⟨-, hid, rfl⟩
    · exact .inl ⟨record, hold, hactive, hagent⟩
    · exact .inr ⟨hid.symm, hagent⟩
  intro agent record' hrecord'
  obtain ⟨record, hrecord, hkeeps⟩ : ∃ record, impl.agents[agent]? = some record ∧ record'.descriptor = record.descriptor := by
    cases hdeed.agentEffect hconsistent hrecord' with
    | kept record hrecord hkeeps => exact ⟨record, hrecord, (AgentRecord.read_of_essence hkeeps.essence).1⟩
    | touched _ _ hevent => cases hevent
    | enrolled _ _ hevent => cases hevent
  rw [hkeeps]
  by_cases hagent : binding.agent = agent
  · obtain ⟨-, -, -, ⟨bound, hbound, hchecked⟩, -⟩ := commitCheck_ok.mp hcheck
    rw [hagent, hrecord] at hbound
    obtain rfl := Option.some.inj hbound
    unfold commitAgent at hchecked
    simp only [check_bind_eq_ok, refuseIf_eq_ok, Nat.not_le] at hchecked
    have hroom : record.activeAssignments < record.descriptor.maxConcurrency.toNat := hchecked.2.2.2.2.2.1
    have hsingle : {id | id = binding.id ∧ binding.agent = agent} = {binding.id} := by simp [hagent]
    have hcount := (Set.encard_le_encard (hheld agent)).trans (Set.encard_union_le _ _)
    rw [hsingle, Set.encard_singleton, htidy.encard_heldBy hrecord] at hcount
    refine hcount.trans ?_
    exact_mod_cast hroom
  · have hnone : {id | id = binding.id ∧ binding.agent = agent} = ∅ := by simp [hagent]
    have hcount := Set.encard_le_encard (hheld agent)
    rw [hnone, Set.union_empty] at hcount
    exact hcount.trans (h agent record hrecord)

/-- A chain of commits with their bookkeeping keeps every agent within its capacity. -/
theorem Deeds.withinCapacity (hdeeds : Deeds ctx allows (∅, impl) (stale', impl')) (hconsistent : Consistent impl)
    (htidy : Tidy ∅ ∅ impl) (h : impl.WithinCapacity)
    (hallows : ∀ event, allows event → event.IsBookkeeping ∨ ∃ binding, event = .commits binding) : impl'.WithinCapacity := by
  refine (hdeeds.keeps (motive := fun scene => scene.1 = ∅ ∧ Tidy ∅ ∅ scene.2 ∧ scene.2.WithinCapacity)
    (fun event scene scene' hallowed hdeed hscene hinv => ?_) hconsistent ⟨rfl, htidy, h⟩).2.2
  obtain ⟨stale, middle⟩ := scene
  obtain ⟨stale', middle'⟩ := scene'
  obtain ⟨hstale, hmiddle, hwithin⟩ := hinv
  obtain rfl : stale = ∅ := hstale
  have hfresh : stale' = ∅ := by
    rcases hallows event hallowed with hbook | ⟨binding, rfl⟩
    · cases hdeed with
      | refresh => exact Set.empty_sdiff _
      | quiet | recount | note | accept | reopen | settle | tally | refreshWork => rfl
      | govern | close | fence | touch | enroll | reincarnate | commit | advance => cases hbook
    · cases hdeed
      rfl
  subst hfresh
  refine ⟨rfl, hdeed.tidy hscene hmiddle, ?_⟩
  rcases hallows event hallowed with hbook | ⟨binding, rfl⟩
  · have hkept : ∀ (id : AssignmentId) (record' : AssignmentRecord), middle'.assignments[id]? = some record' →
        ∃ record : AssignmentRecord, middle.assignments[id]? = some record ∧ SameBinding record record' ∧
          (record'.state.isActive → record.state.isActive) := by
      intro id record' hrecord'
      cases hdeed.slotEffect hscene hrecord' with
      | kept record hrecord hbinding hsame => exact ⟨record, hrecord, hbinding, fun hactive => hsame ▸ hactive⟩
      | closed _ hevent => subst hevent; cases hbook
      | committed _ hevent => subst hevent; cases hbook
    rw [withinCapacity_iff] at hwithin ⊢
    intro agent record' hrecord'
    obtain ⟨record, hrecord, hsame⟩ : ∃ record, middle.agents[agent]? = some record ∧ record'.descriptor = record.descriptor := by
      cases hdeed.agentEffect hscene hrecord' with
      | kept record hrecord hkeeps => exact ⟨record, hrecord, (AgentRecord.read_of_essence hkeeps.essence).1⟩
      | touched _ _ hevent => subst hevent; cases hbook
      | enrolled _ _ hevent => subst hevent; cases hbook
    rw [hsame]
    exact (Set.encard_le_encard (heldBy_of_keeps hkept agent)).trans (hwithin agent record hrecord)
  · cases hdeed with
    | commit generation binding work hcheck => exact withinCapacity_commit hscene hmiddle hwithin hcheck

end Slots

section Steps
variable {system after : System} {label : Label} {reply : Reply} {agent : AgentId}

/-- A step that commits something does nothing but commit, bookkeeping aside. -/
theorem System.Causes.commits_only {binding : AssignmentBinding} {event : Event} (h : system.Causes label (.commits binding))
    (hevent : system.Causes label event) : ∃ committed, event = .commits committed := by
  cases label with
  | run operation =>
    cases operation with
    | scheduleBatch =>
      cases event with
      | commits committed => exact ⟨committed, rfl⟩
      | _ => exact hevent.elim
    | _ => exact h.elim
  | finish position =>
    obtain ⟨call, hcall, hcause⟩ := h
    obtain ⟨found, hfound, hcauses⟩ := hevent
    obtain rfl := Option.some.inj (Option.mem_def.mp hcall ▸ Option.mem_def.mp hfound)
    cases call with
    | schedule plan =>
      cases event with
      | commits committed => exact ⟨committed, rfl⟩
      | _ => exact hcauses.elim
    | _ => exact hcause.elim
  | _ => exact h.elim

/-- The registration of an incarnation that runs already, unless it is fenced. -/
theorem registerAgentCommit_same {now : UInt64} {impl : Impl} {descriptor : AgentDescriptor} {existing : AgentRecord}
    (hexisting : impl.agents[descriptor.id]? = some existing)
    (hgeneration : descriptor.generation = existing.descriptor.generation) (hboot : descriptor.boot = existing.descriptor.boot)
    (hopen : bootIsFenced impl descriptor.boot = false) :
    (registerAgentCommit now impl descriptor).2 = impl.replaceAgent descriptor.id (reregistered now impl descriptor existing) := by
  have hordered : ¬descriptor.generation < existing.descriptor.generation := fun h => Nat.lt_irrefl _ (hgeneration ▸ h)
  have hsame : ¬existing.descriptor.generation < descriptor.generation := fun h => Nat.lt_irrefl _ (hgeneration ▸ h)
  have hcheck : (do checkIncarnation descriptor existing; checkUnfenced impl descriptor) = Except.ok () := by
    simp only [check_bind_eq_ok, checkIncarnation, checkUnfenced, rejectIf_eq_ok, Bool.not_eq_true]
    exact ⟨⟨hordered, fun hboth => hboth.2 hboot⟩, hopen⟩
  unfold registerAgentCommit
  simp only [hexisting, guarded, hcheck, if_neg hsame]
  rfl

/-- Slots whose agent has another descriptor than before were taken by the incarnation that has it. -/
theorem System.Valid.same_incarnation (hvalid : system.Valid) (hvalid' : after.Valid) {id : AssignmentId}
    {before record : AssignmentRecord} {holder' : AgentRecord} (hbefore : system.impl.assignments[id]? = some before)
    (hrecord : after.impl.assignments[id]? = some record) (hbinding : SameBinding before record)
    (hwas : before.state.isActive) (hactive : record.state.isActive)
    (hholder' : after.impl.agents[record.binding.agent]? = some holder') :
    ∃ holder, system.impl.agents[record.binding.agent]? = some holder ∧
      holder'.descriptor.generation = holder.descriptor.generation ∧ holder'.descriptor.boot = holder.descriptor.boot := by
  obtain ⟨_, hentry, hgeneration, hboot, -⟩ := (hvalid.healthy.sound id before hbefore).agent hwas
  obtain ⟨_, hentry', hgeneration', hboot', -⟩ := (hvalid'.healthy.sound id record hrecord).agent hactive
  obtain ⟨holder, hholder, rfl⟩ := Option.map_eq_some_iff.mp hentry
  obtain ⟨found, hfound, rfl⟩ := Option.map_eq_some_iff.mp hentry'
  obtain rfl := Option.some.inj (hholder'.symm.trans hfound)
  rw [hbinding] at hgeneration' hboot' ⊢
  exact ⟨holder, hholder, hgeneration'.trans hgeneration.symm, hboot'.trans hboot.symm⟩

end Steps

section Steps
variable {system after : System} {label : Label} {reply : Reply} {agent : AgentId} {descriptor : AgentDescriptor}

/-- Descriptors are stored by registrations alone. -/
theorem System.Causes.registers {event : Event} (h : event.IsBookkeeping ∨ system.Causes label event)
    (hevent : event = .enrolls descriptor ∨ event = .touches agent (.reregistered descriptor)) :
    ∃ position, label = .finish position ∧ system.calls[position]? = some (.registerAgent descriptor) := by
  rcases hevent with rfl | rfl
  all_goals
    rcases h with hbook | hcauses
    · cases hbook
    · cases label with
      | run operation => cases operation <;> exact hcauses.elim
      | finish position =>
        obtain ⟨call, hcall, hcause⟩ := hcauses
        cases call with
        | registerAgent registered =>
          first
          | obtain rfl : descriptor = registered := hcause
            exact ⟨position, rfl, hcall⟩
          | obtain ⟨-, rfl⟩ : agent = registered.id ∧ descriptor = registered := hcause
            exact ⟨position, rfl, hcall⟩
        | _ => exact hcause.elim
      | _ => exact hcauses.elim

/-- A known agent cannot register under a fenced boot. -/
theorem registerAgentCommit_fenced {now : UInt64} {impl : Impl} {existing : AgentRecord}
    (hexisting : impl.agents[descriptor.id]? = some existing) (hfenced : bootIsFenced impl descriptor.boot = true) :
    (registerAgentCommit now impl descriptor).2 = impl := by
  rcases registerAgentCommit_cases now impl descriptor with
    ⟨-, error, hform⟩ | ⟨_, -, -, hopen, -⟩ | ⟨_, -, -, -, hopen, -⟩ | ⟨hnone, -⟩
  · rw [hform]
  · cases hopen.symm.trans hfenced
  · cases hopen.symm.trans hfenced
  · cases hnone.symm.trans hexisting

/-- A step that keeps room for what a running incarnation uses keeps every agent within its capacity. -/
theorem System.KeepsRoom.withinCapacity (hroom : system.KeepsRoom label) (hvalid : system.Valid)
    (hstep : system.step label = some (reply, after))
    (hdeeds : Deeds system.context (fun event => event.IsBookkeeping ∨ system.Causes label event) (∅, system.impl)
      (∅, after.impl)) (htidy : Tidy ∅ ∅ system.impl) (h : system.impl.WithinCapacity) : after.impl.WithinCapacity := by
  have hconsistent := hvalid.healthy.consistent
  by_cases hcommits : ∃ binding, system.Causes label (.commits binding)
  · obtain ⟨binding, hcommits⟩ := hcommits
    exact hdeeds.withinCapacity hconsistent htidy h fun event hevent => hevent.imp id hcommits.commits_only
  · have hnot : ∀ binding, ¬((Event.commits binding).IsBookkeeping ∨ system.Causes label (.commits binding)) := by
      rintro binding (hbook | hcauses)
      · exact hbook
      · exact hcommits ⟨binding, hcauses⟩
    have hkept : ∀ (id : AssignmentId) (record' : AssignmentRecord), after.impl.assignments[id]? = some record' →
        ∃ record : AssignmentRecord, system.impl.assignments[id]? = some record ∧ SameBinding record record' ∧
          (record'.state.isActive → record.state.isActive) := fun id record' hrecord' => hdeeds.keepsSlots hconsistent hnot hrecord'
    rw [withinCapacity_iff] at h ⊢
    intro agent record' hrecord'
    have hheld : after.impl.heldBy agent ⊆ system.impl.heldBy agent := heldBy_of_keeps hkept agent
    rcases hdeeds.descriptor hconsistent hrecord' with
      ⟨record, hrecord, hsame⟩ | ⟨descriptor, hid, hdescriptor, hregisters⟩
    · rw [hsame]
      exact (Set.encard_le_encard hheld).trans (h agent record hrecord)
    · obtain ⟨position, rfl, hcall⟩ : ∃ position, label = .finish position ∧
          system.calls[position]? = some (.registerAgent descriptor) :=
        hregisters.elim (fun h => @System.Causes.registers system _ agent descriptor _ h (.inl rfl)) fun h =>
          System.Causes.registers h (.inr rfl)
      subst hid
      by_cases hslots : after.impl.heldBy descriptor.id = ∅
      · rw [hslots, Set.encard_empty]
        exact bot_le
      · obtain ⟨id, record, hrecord, hactive, hholds⟩ := Set.nonempty_iff_ne_empty.mpr hslots
        obtain ⟨before, hbefore, hbinding, hwas⟩ := hkept id record hrecord
        have hholder' : after.impl.agents[record.binding.agent]? = some record' := by rw [hholds]; exact hrecord'
        obtain ⟨holder, hholder, hgeneration, hboot⟩ :=
          hvalid.same_incarnation (hvalid.step hstep) hbefore hrecord hbinding (hwas hactive) hactive hholder'
        rw [hholds] at hholder
        rw [hdescriptor] at hgeneration hboot
        cases hopen : bootIsFenced system.impl descriptor.boot with
        | false =>
          rw [hdescriptor]
          refine (Set.encard_le_encard hheld).trans ?_
          rw [htidy.encard_heldBy hholder]
          exact_mod_cast hroom position descriptor holder rfl hcall hholder hgeneration hboot hopen
        | true =>
          simp only [System.step, hcall, finishCall] at hstep
          obtain ⟨-, rfl⟩ := Prod.mk.inj (Option.some.inj hstep)
          have hsame : (registerAgentCommit system.now system.impl descriptor).2 = system.impl :=
            registerAgentCommit_fenced hholder hopen
          have hrecord' : (registerAgentCommit system.now system.impl descriptor).2.agents[descriptor.id]? = some record' := hrecord'
          rw [hsame] at hrecord'
          exact (Set.encard_le_encard hheld).trans (h descriptor.id record' hrecord')

/-- A step that takes room from a running incarnation leaves it above its capacity. -/
theorem System.overfills (hroom : ¬system.KeepsRoom label) (hvalid : system.Valid)
    (hstep : system.step label = some (reply, after)) (htidy : Tidy ∅ ∅ system.impl) : ¬after.impl.WithinCapacity := by
  unfold System.KeepsRoom at hroom
  push Not at hroom
  obtain ⟨position, descriptor, existing, rfl, hcall, hexisting, hgeneration, hboot, hopen, hless⟩ := hroom
  simp only [System.step, hcall, finishCall] at hstep
  obtain ⟨-, rfl⟩ := Prod.mk.inj (Option.some.inj hstep)
  intro hwithin
  let record := reregistered system.now system.impl descriptor existing
  have hform : (registerAgentCommit system.now system.impl descriptor).2 = system.impl.replaceAgent descriptor.id record :=
    registerAgentCommit_same hexisting hgeneration hboot hopen
  have hwithin : (system.impl.replaceAgent descriptor.id record).WithinCapacity := hform ▸ hwithin
  obtain ⟨found, hfound⟩ : ∃ found, (system.impl.replaceAgent descriptor.id record).agents[descriptor.id]? = some found := by
    have hview := congrArg (fun register => register.agents descriptor.id)
      ((register_replaceAgent system.impl descriptor.id record).trans (register_agents_setAgent system.impl descriptor.id record))
    have hview : ((system.impl.replaceAgent descriptor.id record).agents[descriptor.id]?).map AgentRecord.credentials =
        some record.credentials := hview.trans (Function.update_self ..)
    obtain ⟨found, hfound, -⟩ := Option.map_eq_some_iff.mp hview
    exact ⟨found, hfound⟩
  have hkeeps : record.Keeps found := keeps_replaceAgent hvalid.healthy.consistent rfl hfound
  have hdescriptor : found.descriptor = descriptor.stored := (AgentRecord.read_of_essence hkeeps.essence).1
  have hheld : (system.impl.replaceAgent descriptor.id record).heldBy descriptor.id = system.impl.heldBy descriptor.id := by
    have hslots : (system.impl.replaceAgent descriptor.id record).ledger.assignments = system.impl.ledger.assignments :=
      funext fun (id : AssignmentId) => congrArg (fun table : Table AssignmentId AssignmentRecord => table[id]?)
        (assignments_replaceAgent system.impl descriptor.id record)
    unfold Impl.heldBy Ledger.active
    rw [hslots]
  rw [withinCapacity_iff] at hwithin
  have hcount := hwithin descriptor.id found hfound
  rw [hheld, htidy.encard_heldBy hexisting, hdescriptor] at hcount
  exact absurd hless (Nat.not_lt.mpr (by exact_mod_cast hcount))

/-- Recovery keeps every agent within its capacity. -/
theorem withinCapacity_restore {impl file : Impl} (h : Consistent file) (hfile : file.WithinCapacity) :
    (restore impl (image file)).WithinCapacity := by
  rw [withinCapacity_iff] at hfile ⊢
  intro agent record hrecord
  obtain ⟨installed, hinstalled, hkeeps⟩ := keepsAgent_restore h record hrecord
  change (file.agents.map fun _ record => record.recover)[agent]? = some installed at hinstalled
  rw [getElem?_map] at hinstalled
  obtain ⟨saved, hsaved, rfl⟩ := Option.map_eq_some_iff.mp hinstalled
  have hdescriptor : record.descriptor = saved.descriptor := (AgentRecord.read_of_essence hkeeps.essence).1
  have hheld : (restore impl (image file)).heldBy agent ⊆ file.heldBy agent := by
    refine heldBy_of_keeps (fun id restored hrestored => ?_) agent
    have hledger := congrArg (fun ledger => ledger.assignments id) (restore_image impl h).2
    have hledger : (restore impl (image file)).assignments[id]? = (file.assignments[id]?).map AssignmentRecord.recover := hledger
    rw [hledger] at hrestored
    obtain ⟨before, hbefore, rfl⟩ := Option.map_eq_some_iff.mp hrestored
    refine ⟨before, hbefore, (Evolves.recover before).binding, fun hactive => ?_⟩
    rwa [AssignmentRecord.recover_isActive] at hactive
  rw [hdescriptor]
  exact (Set.encard_le_encard hheld).trans (hfile agent saved hsaved)

end Steps

/-- In a run that never takes room from a running incarnation, no agent holds more than its descriptor declares, and the
next step keeps it so exactly when it takes no such room either. -/
theorem withinCapacity_of_keepsRoom {system : System} (h : system.ReachableBy System.KeepsRoom) :
    system.impl.WithinCapacity ∧ ∀ label reply after, system.step label = some (reply, after) →
      (after.impl.WithinCapacity ↔ system.KeepsRoom label) := by
  have hstays : ∀ {s : System}, s.ReachableBy System.KeepsRoom → s.impl.WithinCapacity := by
    intro s hs
    refine (System.ReachableBy.stores (motive := fun impl => impl.WithinCapacity ∧ Tidy ∅ ∅ impl) hs (fun hconstruct => ?_)
      (fun hconsistent hfile => ⟨withinCapacity_restore hconsistent hfile.1, tidy_restore hconsistent⟩)
      fun {s s'} {label} {reply} hvalid hroom hstep hdeeds hbefore => ?_).1.1
    · refine ⟨fun agent record hrecord => ?_, tidy_construct hconstruct⟩
      rw [construct_agents hconstruct] at hrecord
      simp at hrecord
    · have htidy : Tidy ∅ ∅ s'.impl :=
        Deeds.keeps (motive := fun scene => Tidy scene.1 scene.1 scene.2) hdeeds
          (fun _ _ _ _ hdeed hconsistent htidy => hdeed.tidy hconsistent htidy) hvalid.healthy.consistent hbefore.2
      exact ⟨hroom.withinCapacity hvalid hstep hdeeds hbefore.2 hbefore.1, htidy⟩
  have htidy : Tidy ∅ ∅ system.impl := System.Reachable.tidy (h.mono fun _ _ _ => trivial)
  refine ⟨hstays h, fun label reply after hstep => ⟨fun hwithin => ?_, fun hroom => ?_⟩⟩
  · by_contra hroom
    exact System.overfills hroom h.valid hstep htidy hwithin
  · exact hstays (h.trans (.single ⟨label, reply, hroom, hstep⟩))

/-- Every registration that is under way declares at least what its agent holds. -/
def Sample.Roomy (system : System) : Bool :=
  system.calls.all fun call =>
    match call with
    | .registerAgent descriptor => (system.impl.agents[descriptor.id]?).all fun existing =>
        existing.activeAssignments ≤ descriptor.maxConcurrency.toNat
    | _ => true

theorem Sample.Roomy.keepsRoom {system : System} {label : Label} (h : Sample.Roomy system) : system.KeepsRoom label := by
  intro position descriptor existing _ hcall hexisting _ _ _
  simp only [Sample.Roomy, List.all_eq_true] at h
  have hroom := h _ (List.mem_of_getElem? hcall)
  simp only [hexisting, Option.all_some, decide_eq_true_eq] at hroom
  exact hroom

/-- Two replicas of one work item run on agent 1, which then registers again. -/
def Sample.reregistering (descriptor : AgentDescriptor) : List Label :=
  Sample.enlist ++ Sample.submit Sample.parallelWork ++ Sample.schedule ++ Sample.schedule ++
    [.begin (.registerAgent descriptor), .finish 0]

set_option maxRecDepth 100000 in
/-- An agent that holds two assignments registers again for two. -/
theorem withinCapacity_of_keepsRoom_sample : ∃ system, Sample.run (fun system _ => Sample.Roomy system)
    (Sample.reregistering { Sample.descriptor with maxConcurrency := 2 }) = some system ∧
      (system.impl.agents[(1 : AgentId)]?).map (fun record => (record.activeAssignments, record.descriptor.maxConcurrency)) =
        some (2, 2) ∧ system.impl.WithinCapacity := by
  have hrun : (Sample.run (fun system _ => Sample.Roomy system)
      (Sample.reregistering { Sample.descriptor with maxConcurrency := 2 })).map (fun system =>
        (system.impl.agents[(1 : AgentId)]?).map fun record => (record.activeAssignments, record.descriptor.maxConcurrency)) =
      some (some (2, 2)) := by decide +kernel
  obtain ⟨system, hsystem, hview⟩ := Option.map_eq_some_iff.mp hrun
  have hreached : system.ReachableBy System.KeepsRoom := (Sample.run_reaches hsystem).mono fun _ _ hroomy => Sample.Roomy.keepsRoom hroomy
  exact ⟨system, hsystem, hview, (withinCapacity_of_keepsRoom hreached).1⟩

set_option maxRecDepth 100000 in
/-- An agent that holds two assignments may register again for one. -/
theorem not_withinCapacity : ¬∀ system : System, system.Reachable → system.impl.WithinCapacity := by
  intro hwithin
  have hrun : (Sample.run (fun _ _ => True) (Sample.reregistering { Sample.descriptor with maxConcurrency := 1 })).map
      (fun system => (system.impl.agents[(1 : AgentId)]?).map fun record =>
        (decide (record.descriptor.maxConcurrency.toNat < system.impl.activeCount (fun assignment => assignment.binding.agent = 1)))) =
      some (some true) := by decide +kernel
  obtain ⟨system, hsystem, hview⟩ := Option.map_eq_some_iff.mp hrun
  obtain ⟨record, hrecord, hview⟩ := Option.map_eq_some_iff.mp hview
  exact absurd (of_decide_eq_true hview) (Nat.not_lt.mpr (hwithin system (Sample.run_reaches hsystem) 1 record hrecord))

end AgentScheduler
