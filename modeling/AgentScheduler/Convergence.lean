import AgentScheduler.Incarnation

/-! Re-registrations of one incarnation: which of them is in effect in the end. -/
namespace AgentScheduler
open Std KeyedTable Relation

/-- A registration that reached its second section. -/
structure Arrival where
  before : System
  descriptor : AgentDescriptor
  reply : Reply

/-- A run of one process in which registrations of an agent arrive, the latest first, among any other steps. -/
inductive System.Receives (start : System) (agent : AgentId) : List Arrival → System → Prop
  | start : System.Receives start agent [] start
  | other {arrivals : List Arrival} {system after : System} {label : Label} {reply : Reply}
      (hbefore : System.Receives start agent arrivals system) (hcontinues : system.Continues label)
      (hother : ¬system.Registers label agent) (hstep : system.step label = some (reply, after)) :
      System.Receives start agent arrivals after
  | arrival {arrivals : List Arrival} {system after : System} {reply : Reply} (position : Nat) (descriptor : AgentDescriptor)
      (hbefore : System.Receives start agent arrivals system)
      (hcall : system.calls[position]? = some (.registerAgent descriptor)) (hid : descriptor.id = agent)
      (hstep : system.step (.finish position) = some (reply, after)) :
      System.Receives start agent ({ before := system, descriptor, reply } :: arrivals) after

/-- The descriptors that were offered for an incarnation, the latest first, down to the one in effect at the start. -/
def offers (registered : AgentDescriptor) (arrivals : List Arrival) : List AgentDescriptor :=
  arrivals.map (fun arrival => arrival.descriptor.stored) ++ [registered]

/-- Registrations below the registration generation in effect are refused, and the offer with the highest one is in effect. -/
structure Converges (agent : AgentId) (registered : AgentDescriptor) (arrivals : List Arrival) (system : System) : Prop where
  refused : ∀ arrival ∈ arrivals, ∀ record, arrival.before.impl.agents[agent]? = some record →
    arrival.descriptor.registrationGeneration < record.descriptor.registrationGeneration →
    ∃ error, arrival.reply = .mutation (.error error)
  newest : ∀ offer ∈ offers registered arrivals,
    (∀ other ∈ offers registered arrivals, other.registrationGeneration ≤ offer.registrationGeneration) →
    ∃ record, system.impl.agents[agent]? = some record ∧ record.descriptor = offer

/-- The registrations arrived in the order of their registration generations. -/
def Ordered (registered : AgentDescriptor) (arrivals : List Arrival) : Prop :=
  (offers registered arrivals).Pairwise fun later earlier => earlier.registrationGeneration ≤ later.registrationGeneration

/-! ### One step -/

section Steps
variable {system after : System} {label : Label} {reply : Reply} {agent : AgentId} {record : AgentRecord}

/-- A chain that registers nobody under an agent's id leaves the agent its descriptor. -/
theorem Deeds.keepsDescriptor {ctx : Context} {allows : Event → Prop} {stale stale' : Set AgentId} {impl impl' : Impl}
    (hdeeds : Deeds ctx allows (stale, impl) (stale', impl')) (hconsistent : Consistent impl)
    (henrolls : ∀ descriptor : AgentDescriptor, descriptor.id = agent → ¬allows (.enrolls descriptor))
    (hregisters : ∀ descriptor : AgentDescriptor, descriptor.id = agent → ¬allows (.touches agent (.reregistered descriptor)))
    {record' : AgentRecord}
    (hrecord' : impl'.agents[agent]? = some record') :
    ∃ record, impl.agents[agent]? = some record ∧ record'.descriptor = record.descriptor := by
  refine hdeeds.keeps (motive := fun scene => ∀ record', scene.2.agents[agent]? = some record' →
    ∃ record, impl.agents[agent]? = some record ∧ record'.descriptor = record.descriptor)
    (fun event scene scene' hallows hdeed hscene hinv record' hrecord' => ?_) hconsistent
    (fun record hrecord => ⟨record, hrecord, rfl⟩) record' hrecord'
  cases hdeed.agentEffect hscene hrecord' with
  | kept middle hmiddle hkeeps =>
    obtain ⟨record, hrecord, hsame⟩ := hinv middle hmiddle
    exact ⟨record, hrecord, ((AgentRecord.read_of_essence hkeeps.essence).1).trans hsame⟩
  | touched middle touch hevent hmiddle hadmits hupdate =>
    obtain ⟨record, hrecord, hsame⟩ := hinv middle hmiddle
    subst hupdate hevent
    cases touch with
    | reported | available | published | drained | retired | lost => exact ⟨record, hrecord, hsame⟩
    | reregistered descriptor =>
      exact (hregisters descriptor (hadmits.1.trans (hscene.agentKey agent middle hmiddle)) hallows).elim
  | enrolled descriptor reason hevent hid => exact (henrolls descriptor hid (hevent ▸ hallows)).elim

/-- A step that registers no incarnation of an agent leaves it its descriptor. -/
theorem System.Continues.keepsDescriptor (hcontinues : system.Continues label) (hvalid : system.Valid)
    (hother : ¬system.Registers label agent) (hstep : system.step label = some (reply, after))
    (hrecord : system.impl.agents[agent]? = some record) :
    ∃ record', after.impl.agents[agent]? = some record' ∧ record'.descriptor = record.descriptor := by
  by_cases hload : ∃ position, label = .load position
  · obtain ⟨position, rfl⟩ := hload
    have hrunning : system.impl.running := hcontinues
    have hsame : after = system := by
      simp only [System.step] at hstep
      split at hstep
      · cases hstep
      · rw [if_pos hrunning] at hstep
        exact (Prod.mk.inj (Option.some.inj hstep)).2.symm
    exact ⟨record, hsame ▸ hrecord, rfl⟩
  · have hknown : after.impl.agents[agent]? ≠ none := by
      refine System.step_knows hvalid (by rw [hrecord]; exact Option.some_ne_none record) ?_ (fun position _ hlabel => (hload ⟨position, hlabel⟩).elim) hstep
      rintro options generatedId rfl
      exact hcontinues
    obtain ⟨record', hrecord'⟩ := Option.ne_none_iff_exists'.mp hknown
    obtain ⟨before, hbefore, hsame⟩ := (hcontinues.deeds hvalid hstep).keepsDescriptor hvalid.healthy.consistent
      (System.not_enrolls hother) (fun descriptor hid hcauses => by
        obtain ⟨position, hlabel, hcall⟩ := @System.Causes.registers _ _ agent _ _ hcauses (.inr rfl)
        exact hother ⟨position, descriptor, hlabel, hcall, hid⟩) hrecord'
    obtain rfl := Option.some.inj (hrecord.symm.trans hbefore)
    exact ⟨record', hrecord', hsame⟩

/-- A registration of the incarnation in effect is accepted as long as its boot is not fenced, whatever its registration
generation. -/
theorem registerAgentCommit_accepts {impl : Impl} {descriptor : AgentDescriptor} (now : UInt64)
    (hrecord : impl.agents[descriptor.id]? = some record) (hgeneration : descriptor.generation = record.descriptor.generation)
    (hboot : descriptor.boot = record.descriptor.boot) (hopen : bootIsFenced impl descriptor.boot = false) :
    (registerAgentCommit now impl descriptor).1 = .ok () := by
  unfold registerAgentCommit
  simp only [hrecord]
  refine guarded_ok ⟨(), ?_⟩ fun _ => by split <;> rfl
  simp only [check_bind_eq_ok, checkIncarnation, checkUnfenced, rejectIf_eq_ok]
  refine ⟨⟨?_, fun hboth => hboth.2 hboot⟩, by rw [hopen]; exact Bool.false_ne_true⟩
  rw [hgeneration]
  exact UInt64.lt_irrefl _

end Steps

/-! ### A run of registrations -/

/-- The descriptor in effect after every arrival was accepted. -/
def inEffect (registered : AgentDescriptor) : List Arrival → AgentDescriptor
  | [] => registered
  | arrival :: _ => arrival.descriptor.stored

/-- Every arrival was accepted on top of the one before it. -/
inductive Accepted (agent : AgentId) (registered : AgentDescriptor) : List Arrival → Prop
  | nil : Accepted agent registered []
  | cons {arrival : Arrival} {rest : List Arrival} (record : AgentRecord) (hrest : Accepted agent registered rest)
      (hrecord : arrival.before.impl.agents[agent]? = some record) (heffect : record.descriptor = inEffect registered rest)
      (hreply : arrival.reply = .mutation (.ok ())) : Accepted agent registered (arrival :: rest)

/-- The arrivals name the incarnation in effect at the start. -/
def SameIncarnation (registered : AgentDescriptor) (arrivals : List Arrival) : Prop :=
  ∀ arrival ∈ arrivals, arrival.descriptor.generation = registered.generation ∧ arrival.descriptor.boot = registered.boot

section Runs
variable {start system : System} {agent : AgentId} {registered : AgentDescriptor} {arrivals : List Arrival}

theorem inEffect_incarnation (h : SameIncarnation registered arrivals) :
    (inEffect registered arrivals).generation = registered.generation ∧ (inEffect registered arrivals).boot = registered.boot := by
  cases arrivals with
  | nil => exact ⟨rfl, rfl⟩
  | cons arrival rest => exact h arrival List.mem_cons_self

/-- As long as its boot is not fenced, every registration of the incarnation is accepted. -/
theorem System.Receives.accepted {record : AgentRecord} (hrun : start.Receives agent arrivals system) (hstart : start.Valid)
    (hrecord : start.impl.agents[agent]? = some record) (hsame : SameIncarnation record.descriptor arrivals)
    (hopen : bootIsFenced system.impl record.descriptor.boot = false) :
    system.Valid ∧ Accepted agent record.descriptor arrivals ∧
      ∃ current, system.impl.agents[agent]? = some current ∧ current.descriptor = inEffect record.descriptor arrivals := by
  -- a fence once set would still be there
  have hearlier : ∀ {system after : System} {label : Label} {reply : Reply}, system.Continues label → system.Valid →
      system.step label = some (reply, after) → bootIsFenced after.impl record.descriptor.boot = false →
      bootIsFenced system.impl record.descriptor.boot = false := by
    intro system after label reply hcontinues hvalid hstep hopen
    rw [Bool.eq_false_iff] at hopen ⊢
    exact fun hfenced => hopen ((hcontinues.deeds hvalid hstep).fenced hvalid.healthy.consistent hfenced)
  have hvalid : ∀ {arrivals : List Arrival} {system : System}, start.Receives agent arrivals system → system.Valid := by
    intro arrivals system hrun
    induction hrun with
    | start => exact hstart
    | other _ _ _ hstep ih => exact ih.step hstep
    | arrival _ _ _ _ _ hstep ih => exact ih.step hstep
  refine ⟨hvalid hrun, ?_⟩
  induction hrun with
  | start => exact ⟨.nil, record, hrecord, rfl⟩
  | other hbefore hcontinues hother hstep ih =>
    obtain ⟨haccepted, current, hcurrent, heffect⟩ := ih hsame (hearlier hcontinues (hvalid hbefore) hstep hopen)
    obtain ⟨after, hafter, hkept⟩ := hcontinues.keepsDescriptor (hvalid hbefore) hother hstep hcurrent
    exact ⟨haccepted, after, hafter, hkept.trans heffect⟩
  | @arrival arrivals system after reply position descriptor hbefore hcall hid hstep ih =>
    have hunfenced := @hearlier system after (.finish position) reply trivial (hvalid hbefore) hstep hopen
    have hrest : SameIncarnation record.descriptor arrivals := fun other hmem => hsame other (List.mem_cons_of_mem _ hmem)
    obtain ⟨haccepted, current, hcurrent, heffect⟩ := ih hrest hunfenced
    obtain ⟨hgeneration, hboot⟩ := hsame _ List.mem_cons_self
    obtain ⟨hgeneration', hboot'⟩ := inEffect_incarnation hrest
    obtain ⟨hreply, himpl⟩ := registration_step hcall hstep
    subst hid
    have hok : (registerAgentCommit system.now system.impl descriptor).1 = .ok () := by
      refine registerAgentCommit_accepts system.now hcurrent ?_ ?_ ?_
      · rw [heffect, hgeneration']
        exact hgeneration
      · rw [heffect, hboot']
        exact hboot
      · rw [show descriptor.boot = record.descriptor.boot from hboot]
        exact hunfenced
    obtain ⟨stored, hstored, hdescriptor⟩ := registerAgentCommit_current (hvalid hbefore).healthy.consistent hok
    refine ⟨.cons current haccepted hcurrent heffect ?_, stored, himpl ▸ hstored, hdescriptor⟩
    rw [hreply, hok]

theorem offers_cons (arrival : Arrival) (rest : List Arrival) :
    offers registered (arrival :: rest) = arrival.descriptor.stored :: offers registered rest := rfl

theorem inEffect_mem : inEffect registered arrivals ∈ offers registered arrivals := by
  cases arrivals with
  | nil => exact List.mem_singleton_self _
  | cons arrival rest => exact List.mem_cons_self

theorem Ordered.rest {arrival : Arrival} (h : Ordered registered (arrival :: arrivals)) : Ordered registered arrivals :=
  (List.pairwise_cons.mp h).2

/-- In an ordered run the descriptor in effect has the highest registration generation of all. -/
theorem Ordered.highest (h : Ordered registered arrivals) {offer : AgentDescriptor} (hoffer : offer ∈ offers registered arrivals) :
    offer.registrationGeneration ≤ (inEffect registered arrivals).registrationGeneration := by
  cases arrivals with
  | nil =>
    rw [List.mem_singleton.mp hoffer]
    exact UInt64.le_refl _
  | cons arrival rest =>
    rcases List.mem_cons.mp hoffer with rfl | hrest
    · exact UInt64.le_refl _
    · exact (List.pairwise_cons.mp h).1 offer hrest

/-- No accepted arrival was below the registration generation in effect exactly when the run was ordered. -/
theorem Accepted.ordered_iff (h : Accepted agent registered arrivals) : Ordered registered arrivals ↔
    ∀ arrival ∈ arrivals, ∀ record, arrival.before.impl.agents[agent]? = some record →
      ¬arrival.descriptor.registrationGeneration < record.descriptor.registrationGeneration := by
  induction h with
  | nil =>
    refine iff_of_true (List.pairwise_singleton _ _) fun arrival hmem => ?_
    cases hmem
  | @cons arrival rest record hrest hrecord heffect hreply ih =>
    constructor
    · intro hordered other hmem found hfound
      rcases List.mem_cons.mp hmem with rfl | hmem
      · obtain rfl := Option.some.inj (hrecord.symm.trans hfound)
        rw [heffect]
        exact UInt64.not_lt.mpr ((List.pairwise_cons.mp hordered).1 _ inEffect_mem)
      · exact ih.mp hordered.rest other hmem found hfound
    · intro hnever
      have hordered : Ordered registered rest := ih.mpr fun other hmem => hnever other (List.mem_cons_of_mem _ hmem)
      refine List.pairwise_cons.mpr ⟨fun offer hoffer => ?_, hordered⟩
      have hlatest := hnever arrival List.mem_cons_self record hrecord
      rw [heffect] at hlatest
      exact UInt64.le_trans (hordered.highest hoffer) (UInt64.not_lt.mp hlatest)

theorem Accepted.replies (h : Accepted agent registered arrivals) {arrival : Arrival} (hmem : arrival ∈ arrivals) :
    arrival.reply = .mutation (.ok ()) := by
  induction h with
  | nil => cases hmem
  | cons record hrest hrecord heffect hreply ih =>
    rcases List.mem_cons.mp hmem with rfl | hmem
    · exact hreply
    · exact ih hmem

/-- Registrations of one incarnation with distinct registration generations, arriving in any order, repeatedly, and among
any other steps, leave the newest in effect and have older ones refused, exactly when they arrive in order. -/
theorem reregistration_converges_iff {record : AgentRecord} (hreach : start.Reachable)
    (hrecord : start.impl.agents[agent]? = some record) (hrun : start.Receives agent arrivals system)
    (hsame : SameIncarnation record.descriptor arrivals)
    (hdistinct : ∀ offer ∈ offers record.descriptor arrivals, ∀ other ∈ offers record.descriptor arrivals,
      offer.registrationGeneration = other.registrationGeneration → offer = other)
    (hopen : bootIsFenced system.impl record.descriptor.boot = false) :
    Converges agent record.descriptor arrivals system ↔ Ordered record.descriptor arrivals := by
  obtain ⟨-, haccepted, current, hcurrent, heffect⟩ := hrun.accepted hreach.valid hrecord hsame hopen
  constructor
  · intro hconverges
    refine haccepted.ordered_iff.mpr fun arrival hmem found hfound hlower => ?_
    obtain ⟨error, herror⟩ := hconverges.refused arrival hmem found hfound hlower
    rw [haccepted.replies hmem] at herror
    cases herror
  · intro hordered
    refine ⟨fun arrival hmem found hfound hlower => ?_, fun offer hoffer hhighest => ?_⟩
    · exact (haccepted.ordered_iff.mp hordered arrival hmem found hfound hlower).elim
    · refine ⟨current, hcurrent, heffect.trans (hdistinct _ inEffect_mem offer hoffer ?_)⟩
      have hle := hhighest _ inEffect_mem
      have hge := hordered.highest hoffer
      exact congrArg StrongId.mk (UInt64.le_antisymm hle hge)

end Runs

namespace Sample

/-- The descriptor of the sample agent in a registration of some registration generation. -/
def registrationOf (generation : AgentRegistrationGeneration) : AgentDescriptor :=
  { descriptor with registrationGeneration := generation }

/-- An agent of registration generation 2 registers again with another one. -/
def registeringAgain (generation : AgentRegistrationGeneration) : Option (System × System × Reply × System) := do
  let start ← run (fun _ _ => True) [.begin (.registerAgent (registrationOf 2)), .finish 0]
  let (_, system) ← start.step (.begin (.registerAgent (registrationOf generation)))
  let (reply, after) ← system.step (.finish 0)
  return (start, system, reply, after)

/-- The descriptors in effect and in flight, and whether the boot is fenced in the end. -/
def reregistration (found : System × System × Reply × System) :
    Option AgentDescriptor × Option AgentDescriptor × Option AgentDescriptor × Bool :=
  ((found.1.impl.agents[(1 : AgentId)]?).map AgentRecord.descriptor,
    (found.2.1.impl.agents[(1 : AgentId)]?).map AgentRecord.descriptor,
    (found.2.1.calls[0]? : Option Call).bind registeredBy, bootIsFenced found.2.2.2.impl boot)

theorem registeringAgain_spec {generation : AgentRegistrationGeneration} {start system after : System} {reply : Reply}
    (h : registeringAgain generation = some (start, system, reply, after))
    (hview : reregistration (start, system, reply, after) =
      (some (registrationOf 2), some (registrationOf 2), some (registrationOf generation), false)) :
    (start.Reachable ∧ start.Receives 1 [{ before := system, descriptor := registrationOf generation, reply }] after ∧
      bootIsFenced after.impl boot = false) ∧
    (∃ record, start.impl.agents[(1 : AgentId)]? = some record ∧ record.descriptor = registrationOf 2) ∧
      ∃ record, system.impl.agents[(1 : AgentId)]? = some record ∧ record.descriptor = registrationOf 2 := by
  simp only [registeringAgain, Option.bind_eq_bind, Option.bind_eq_some_iff, Prod.exists] at h
  obtain ⟨_, hrun, _, _, hbegin, _, _, hstep, hform⟩ := h
  obtain ⟨rfl, rfl, rfl, rfl⟩ : _ = start ∧ _ = system ∧ _ = reply ∧ _ = after := by simpa using hform
  obtain ⟨hstart, hrest⟩ := Prod.mk.inj hview
  obtain ⟨hbefore, hrest⟩ := Prod.mk.inj hrest
  obtain ⟨hcall, hopen⟩ := Prod.mk.inj hrest
  obtain ⟨call, hcall, hregistered⟩ := Option.bind_eq_some_iff.mp hcall
  rw [of_registeredBy hregistered] at hcall
  refine ⟨⟨run_reaches hrun, ?_, hopen⟩, Option.map_eq_some_iff.mp hstart, Option.map_eq_some_iff.mp hbefore⟩
  refine .arrival 0 _ (.other .start ?continues ?other hbegin) hcall rfl hstep
  case continues => trivial
  case other =>
    rintro ⟨position, descriptor, hlabel, -⟩
    cases hlabel

end Sample

set_option maxRecDepth 100000 in
/-- A newer registration takes effect. -/
theorem reregistration_converges_iff_sample : ∃ start system reply after,
    Sample.registeringAgain 3 = some (start, system, reply, after) ∧
      Converges 1 (Sample.registrationOf 2) [{ before := system, descriptor := Sample.registrationOf 3, reply }] after := by
  have hview : (Sample.registeringAgain 3).map Sample.reregistration =
      some (some (Sample.registrationOf 2), some (Sample.registrationOf 2), some (Sample.registrationOf 3), false) := by
    decide +kernel
  obtain ⟨⟨start, system, reply, after⟩, hfound, hview⟩ := Option.map_eq_some_iff.mp hview
  obtain ⟨⟨hreach, hreceives, hopen⟩, ⟨record, hrecord, hdescriptor⟩, -⟩ := Sample.registeringAgain_spec hfound hview
  have hconverges := (reregistration_converges_iff hreach hrecord hreceives ?_ ?_ ?_).mpr ?_
  · rw [hdescriptor] at hconverges
    exact ⟨start, system, reply, after, hfound, hconverges⟩
  all_goals rw [hdescriptor]
  · intro arrival hmem
    rw [List.mem_singleton.mp hmem]
    exact ⟨rfl, rfl⟩
  · change ∀ offer ∈ [(Sample.registrationOf 3).stored, Sample.registrationOf 2],
      ∀ other ∈ [(Sample.registrationOf 3).stored, Sample.registrationOf 2],
        offer.registrationGeneration = other.registrationGeneration → offer = other
    decide +kernel
  · exact hopen
  · refine List.pairwise_pair.mpr ?_
    change (Sample.registrationOf 2).registrationGeneration ≤ (Sample.registrationOf 3).registrationGeneration
    decide

set_option maxRecDepth 100000 in
/-- An older registration takes effect as well. -/
theorem not_reregistration_converges : ¬∀ (start system : System) (agent : AgentId) (arrivals : List Arrival) (record : AgentRecord),
    start.Reachable → start.impl.agents[agent]? = some record → start.Receives agent arrivals system →
    SameIncarnation record.descriptor arrivals →
    (∀ offer ∈ offers record.descriptor arrivals, ∀ other ∈ offers record.descriptor arrivals,
      offer.registrationGeneration = other.registrationGeneration → offer = other) →
    bootIsFenced system.impl record.descriptor.boot = false →
    Converges agent record.descriptor arrivals system := by
  intro hconverges
  have hview : (Sample.registeringAgain 1).map (fun found => (Sample.reregistration found, found.2.2.1.accepted)) =
      some ((some (Sample.registrationOf 2), some (Sample.registrationOf 2), some (Sample.registrationOf 1), false), true) := by
    decide +kernel
  obtain ⟨⟨start, system, reply, after⟩, hfound, hview⟩ := Option.map_eq_some_iff.mp hview
  obtain ⟨hview, haccepted⟩ := Prod.mk.inj hview
  obtain ⟨⟨hreach, hreceives, hopen⟩, ⟨record, hrecord, hdescriptor⟩, current, hcurrent, heffect⟩ :=
    Sample.registeringAgain_spec hfound hview
  have hconverges := hconverges start after 1 _ record hreach hrecord hreceives ?_ ?_ ?_
  · have hlower : (Sample.registrationOf 1).registrationGeneration < current.descriptor.registrationGeneration := by
      rw [heffect]
      decide
    obtain ⟨error, herror⟩ := hconverges.refused _ (List.mem_singleton_self _) current hcurrent hlower
    have haccepted : reply.accepted := haccepted
    rw [show reply = _ from herror] at haccepted
    cases haccepted
  all_goals rw [hdescriptor]
  · intro arrival hmem
    rw [List.mem_singleton.mp hmem]
    exact ⟨rfl, rfl⟩
  · change ∀ offer ∈ [(Sample.registrationOf 1).stored, Sample.registrationOf 2],
      ∀ other ∈ [(Sample.registrationOf 1).stored, Sample.registrationOf 2],
        offer.registrationGeneration = other.registrationGeneration → offer = other
    decide +kernel
  · exact hopen

end AgentScheduler
