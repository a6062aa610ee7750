import AgentScheduler.Coordinator

/-! What a session that closes reports lost, against what was registered through it. -/
namespace AgentScheduler
open Std KeyedTable Relation

section Scheduler
variable {system after : System} {label : Label} {reply : Reply} {agent : AgentId}

/-- A step that neither registers an agent nor replaces the state leaves the agent known under its boot. -/
theorem System.step_boots (hvalid : system.Valid) (hcontinues : label.Continues) (hregisters : ¬system.Registers label agent)
    (hstep : system.step label = some (reply, after)) {record : AgentRecord} (hrecord : system.impl.agents[agent]? = some record) :
    ∃ record', after.impl.agents[agent]? = some record' ∧ record'.descriptor.boot = record.descriptor.boot := by
  have hknown : after.impl.agents[agent]? ≠ none := by
    refine System.step_knows hvalid (by rw [hrecord]; nofun) ?_ ?_ hstep
    · rintro options generatedId rfl
      exact hcontinues
    · rintro position file rfl
      exact hcontinues.elim
  obtain ⟨record', hrecord'⟩ := Option.ne_none_iff_exists'.mp hknown
  obtain ⟨found, hfound, hboot, -⟩ := @Deeds.departs _ _ _ _ _ _ _ .retired (hcontinues.deeds hvalid hstep)
    hvalid.healthy.consistent (.inr rfl) (System.not_enrolls hregisters) record' hrecord'
  obtain rfl := Option.some.inj (hrecord.symm.trans hfound)
  exact ⟨record', hrecord', hboot⟩

theorem System.Serves.continues (h : system.Serves label) : label.Continues := by
  cases label with
  | load | restart => exact h.elim
  | _ => trivial

theorem System.Serves.not_registers (h : system.Serves label) : ¬system.Registers label agent := by
  rintro ⟨position, descriptor, rfl, hcall, -⟩
  simp only [System.Serves, hcall] at h

/-- A registration that is accepted leaves its agent known under the boot it names; one that is refused changes nothing. -/
theorem System.step_registers {position : Nat} {descriptor : AgentDescriptor} (hvalid : system.Valid)
    (hcall : system.calls[position]? = some (.registerAgent descriptor))
    (hstep : system.step (.finish position) = some (reply, after)) :
    if reply.accepted then
      ∃ record, after.impl.agents[descriptor.id]? = some record ∧ record.descriptor.boot = descriptor.boot
    else after.impl = system.impl := by
  have hconsistent := hvalid.healthy.consistent
  have hform := hstep
  simp only [System.step, hcall] at hform
  obtain ⟨hreply, himpl⟩ := Prod.mk.inj (Option.some.inj hform)
  have hanswer : reply = .mutation (registerAgentCommit system.now system.impl descriptor).1 := hreply.symm
  have himpl : after.impl = (registerAgentCommit system.now system.impl descriptor).2 := congrArg System.impl himpl.symm
  have hrefused : ∀ error, registerAgentCommit system.now system.impl descriptor = (.error error, system.impl) →
      reply.accepted = false := fun error hrefused => by
    rw [hanswer, hrefused]
    rfl
  split
  · next haccepted =>
    have hknown : after.impl.agents[descriptor.id]? ≠ none := by
      cases hexisting : system.impl.agents[descriptor.id]? with
      | some existing => exact System.step_knows hvalid (by rw [hexisting]; exact Option.some_ne_none existing) (by rintro _ _ ⟨⟩) (by rintro _ _ ⟨⟩) hstep
      | none =>
        rw [himpl]
        rcases registerAgentCommit_cases system.now system.impl descriptor with
          ⟨-, error, hsame⟩ | ⟨_, hfound, -⟩ | ⟨_, hfound, -⟩ | ⟨-, hfresh⟩
        · rw [hrefused error hsame] at haccepted
          cases haccepted
        · rw [hexisting] at hfound
          cases hfound
        · rw [hexisting] at hfound
          cases hfound
        · rw [hfresh]
          change ((system.impl.setAgent descriptor.id _).agents)[descriptor.id]? ≠ none
          rw [getElem?_setAgent, if_pos rfl]
          exact Option.some_ne_none _
    obtain ⟨record, hrecord⟩ := Option.ne_none_iff_exists'.mp hknown
    refine ⟨record, hrecord, ?_⟩
    rw [himpl] at hrecord
    rcases registerAgentCommit_record system.now hconsistent hrecord with ⟨error, hsame⟩ | ⟨hdescriptor, -⟩
    · rw [hrefused error hsame] at haccepted
      cases haccepted
    · rw [hdescriptor]
      rfl
  · next hnot =>
    rw [himpl]
    rcases registerAgentCommit_cases system.now system.impl descriptor with
      ⟨-, error, hsame⟩ | ⟨_, -, -, -, hform⟩ | ⟨_, -, -, -, -, hform⟩ | ⟨-, hform⟩
    · rw [hsame]
    all_goals
      rw [hanswer, hform] at hnot
      exact (hnot rfl).elim

end Scheduler

/-! ### Runs of the coordinator -/

namespace Coordinator

/-- A coordinator that has just started on a scheduler. -/
def IsInitial (coordinator : Coordinator) : Prop :=
  ∃ options system, system.Reachable ∧ coordinator = { options, system }

def Steps (coordinator after : Coordinator) : Prop := ∃ action, coordinator.step action = some after

/-- What some run from a coordinator that has just started leads to. -/
def Reachable (coordinator : Coordinator) : Prop := ∃ start : Coordinator, start.IsInitial ∧ ReflTransGen Steps start coordinator

/-- The latest registration that was accepted through a session. -/
def lastThrough (coordinator : Coordinator) (id : SessionId) : Option Registration :=
  coordinator.registrations.find? fun registration => registration.session = id

/-- The latest registration of an agent that was accepted. -/
def lastOf (coordinator : Coordinator) (agent : AgentId) : Option Registration :=
  coordinator.registrations.find? fun registration => registration.agent = agent

/-- The session is bound to what was registered through it last, once its reader has got that far. -/
def Follows (last : Option Registration) (session : Session) : Prop :=
  match session.reader with
  | .registered descriptor => last.map (fun registration => (registration.agent, registration.boot)) = some (descriptor.id, descriptor.boot)
  | _ => last.map (fun registration => (registration.agent, registration.boot)) = session.boundAgent

/-- How a coordinator that runs keeps track of its sessions and its agents. -/
structure Tracked (coordinator : Coordinator) : Prop where
  valid : coordinator.system.Valid
  used : ∀ registration ∈ coordinator.registrations, registration.session < coordinator.nextSessionId
  numbered : ∀ (id : SessionId) session, coordinator.sessions[id]? = some session → id < coordinator.nextSessionId
  bound : ∀ (id : SessionId) session, coordinator.sessions[id]? = some session → Follows (coordinator.lastThrough id) session
  current : ∀ agent registration, coordinator.lastOf agent = some registration →
    ∃ record, coordinator.system.impl.agents[agent]? = some record ∧ record.descriptor.boot = registration.boot

section Steps
variable {coordinator after : Coordinator}

/-- What changes one session at most, and no registration. -/
theorem Tracked.withSession (h : coordinator.Tracked) (hsystem : after.system.Valid)
    (hregistrations : after.registrations = coordinator.registrations) (hnext : after.nextSessionId = coordinator.nextSessionId)
    (hsessions : ∀ (id : SessionId) session, after.sessions[id]? = some session →
      ∃ before, coordinator.sessions[id]? = some before ∧
        (Follows (coordinator.lastThrough id) before → Follows (coordinator.lastThrough id) session))
    (hboots : ∀ (agent : AgentId) record, coordinator.system.impl.agents[agent]? = some record →
      ∃ record', after.system.impl.agents[agent]? = some record' ∧ record'.descriptor.boot = record.descriptor.boot) : after.Tracked where
  valid := hsystem
  used := by
    rw [hregistrations, hnext]
    exact h.used
  numbered := fun id session hsession => by
    obtain ⟨before, hbefore, -⟩ := hsessions id session hsession
    rw [hnext]
    exact h.numbered id before hbefore
  bound := fun id session hsession => by
    obtain ⟨before, hbefore, hfollows⟩ := hsessions id session hsession
    unfold lastThrough
    rw [hregistrations]
    exact hfollows (h.bound id before hbefore)
  current := fun agent registration hlast => by
    unfold lastOf at hlast
    rw [hregistrations] at hlast
    obtain ⟨record, hrecord, hboot⟩ := h.current agent registration hlast
    obtain ⟨record', hrecord', hboot'⟩ := hboots agent record hrecord
    exact ⟨record', hrecord', hboot'.trans hboot⟩

/-- One session is replaced by another that is bound to the same registration. -/
theorem follows_insert {id : SessionId} {before session : Session} (hbefore : coordinator.sessions[id]? = some before)
    (hfollows : Follows (coordinator.lastThrough id) before → Follows (coordinator.lastThrough id) session) (other : SessionId)
    (found : Session) (hfound : (coordinator.sessions.insert id session)[other]? = some found) :
    ∃ before, coordinator.sessions[other]? = some before ∧
      (Follows (coordinator.lastThrough other) before → Follows (coordinator.lastThrough other) found) := by
  rw [getElem?_insert] at hfound
  split at hfound
  · next heq =>
    subst heq
    obtain rfl := Option.some.inj hfound
    exact ⟨before, hbefore, hfollows⟩
  · exact ⟨found, hfound, fun h => h⟩

/-- A step of the scheduler alone, or beside one session, that registers nobody. -/
theorem Tracked.withStep (h : coordinator.Tracked) {system : System} {label : Label} {reply : Reply}
    (hstep : coordinator.system.step label = some (reply, system)) (hcontinues : label.Continues)
    (hregisters : ∀ agent, ¬coordinator.system.Registers label agent) (hsystem : after.system = system)
    (hregistrations : after.registrations = coordinator.registrations) (hnext : after.nextSessionId = coordinator.nextSessionId)
    (hsessions : ∀ (id : SessionId) session, after.sessions[id]? = some session →
      ∃ before, coordinator.sessions[id]? = some before ∧
        (Follows (coordinator.lastThrough id) before → Follows (coordinator.lastThrough id) session)) : after.Tracked := by
  refine h.withSession (hsystem ▸ h.valid.step hstep) hregistrations hnext hsessions fun agent record hrecord => ?_
  rw [hsystem]
  exact System.step_boots h.valid hcontinues (hregisters agent) hstep hrecord

/-- Nothing happens in the scheduler. -/
theorem Tracked.withoutStep (h : coordinator.Tracked) (hsystem : after.system = coordinator.system)
    (hregistrations : after.registrations = coordinator.registrations) (hnext : after.nextSessionId = coordinator.nextSessionId)
    (hsessions : ∀ (id : SessionId) session, after.sessions[id]? = some session →
      ∃ before, coordinator.sessions[id]? = some before ∧
        (Follows (coordinator.lastThrough id) before → Follows (coordinator.lastThrough id) session)) : after.Tracked :=
  h.withSession (hsystem ▸ h.valid) hregistrations hnext hsessions fun _ record hrecord => ⟨record, hsystem ▸ hrecord, rfl⟩

theorem Tracked.accept (h : coordinator.Tracked) (hstep : coordinator.step .accept = some after) : after.Tracked := by
  simp only [step] at hstep
  split at hstep
  · obtain rfl := Option.some.inj hstep
    exact h
  · obtain rfl := Option.some.inj hstep
    have hold : ∀ (id : SessionId) session, (coordinator.sessions.insertIfNew coordinator.nextSessionId {})[id]? = some session →
        coordinator.sessions[id]? = some session ∨ id = coordinator.nextSessionId ∧ session = {} := by
      intro id session hsession
      rw [getElem?_insertIfNew] at hsession
      split at hsession
      · next heq =>
        subst heq
        cases hstored : coordinator.sessions[coordinator.nextSessionId]? with
        | none =>
          rw [hstored] at hsession
          exact .inr ⟨rfl, (Option.some.inj hsession).symm⟩
        | some stored => exact absurd (h.numbered _ stored hstored) (Nat.lt_irrefl _)
      · exact .inl hsession
    refine ⟨h.valid, fun registration hmem => Nat.lt_succ_of_lt (h.used registration hmem), fun id session hsession => ?_,
      fun id session hsession => ?_, h.current⟩
    · rcases hold id session hsession with hstored | ⟨rfl, -⟩
      · exact Nat.lt_succ_of_lt (h.numbered id session hstored)
      · exact Nat.lt_succ_self _
    · rcases hold id session hsession with hstored | ⟨rfl, rfl⟩
      · exact h.bound id session hstored
      · have hnone : coordinator.lastThrough coordinator.nextSessionId = none := by
          refine List.find?_eq_none.mpr fun registration hmem => ?_
          have hused := h.used registration hmem
          simpa using Nat.ne_of_lt hused
        change Follows (coordinator.lastThrough coordinator.nextSessionId) {}
        rw [hnone]
        rfl

/-- A registration that is accepted becomes the latest of its session and of its agent. -/
theorem Tracked.commitAgent (h : coordinator.Tracked) {id : SessionId} {position : Nat}
    (hstep : coordinator.step (.commitAgent id position) = some after) : after.Tracked := by
  simp only [step] at hstep
  split at hstep
  · next session called hsession hcall =>
    split at hstep
    · next descriptor hreader =>
      split at hstep
      · cases hstep
      · next hcalled =>
        rw [not_not] at hcalled
        subst hcalled
        split at hstep
        · cases hstep
        · next reply system hsystem =>
          have hregisters := System.step_registers h.valid hcall hsystem
          have hbound := h.bound id session hsession
          split at hstep
          · next haccepted =>
            obtain rfl := Option.some.inj hstep
            rw [if_pos haccepted] at hregisters
            have hlast : ∀ other, other ≠ id → List.find? (fun registration : Registration => decide (registration.session = other))
                (⟨id, called.id, called.boot⟩ :: coordinator.registrations) = coordinator.lastThrough other := fun other hother =>
              List.find?_cons_of_neg (by simpa using hother.symm)
            refine ⟨h.valid.step hsystem, fun registration hmem => ?_, fun other found hfound => ?_, fun other found hfound => ?_,
              fun agent registration hfound => ?_⟩
            · rcases List.mem_cons.mp hmem with rfl | hold
              · exact h.numbered id session hsession
              · exact h.used registration hold
            · have hstored : (coordinator.sessions.insert id { session with reader := .registered called })[other]? = some found :=
                hfound
              rw [getElem?_insert] at hstored
              split at hstored
              · next heq => exact heq ▸ h.numbered id session hsession
              · exact h.numbered other found hstored
            · have hstored : (coordinator.sessions.insert id { session with reader := .registered called })[other]? = some found :=
                hfound
              rw [getElem?_insert] at hstored
              split at hstored
              · next heq =>
                subst heq
                obtain rfl := Option.some.inj hstored
                change Follows (List.find? _ (⟨id, called.id, called.boot⟩ :: coordinator.registrations)) _
                rw [List.find?_cons_of_pos (by simp)]
                rfl
              · next hne =>
                change Follows (List.find? _ (⟨id, called.id, called.boot⟩ :: coordinator.registrations)) _
                rw [hlast other (Ne.symm hne)]
                exact h.bound other found hstored
            · change List.find? _ (⟨id, called.id, called.boot⟩ :: coordinator.registrations) = some registration at hfound
              by_cases hagent : called.id = agent
              · subst hagent
                rw [List.find?_cons_of_pos (by simp)] at hfound
                obtain rfl := Option.some.inj hfound
                exact hregisters
              · rw [List.find?_cons_of_neg (by simpa using hagent)] at hfound
                obtain ⟨record, hrecord, hboot⟩ := h.current agent registration hfound
                have helsewhere : ¬coordinator.system.Registers (.finish position) agent := by
                  rintro ⟨found, descriptor, hlabel, hother, rfl⟩
                  obtain rfl := Label.finish.inj hlabel
                  obtain rfl := Call.registerAgent.inj (Option.some.inj (hcall.symm.trans hother))
                  exact hagent rfl
                have hcontinues : (Label.finish position).Continues := trivial
                obtain ⟨record', hrecord', hboot'⟩ := System.step_boots h.valid hcontinues helsewhere hsystem hrecord
                exact ⟨record', hrecord', hboot'.trans hboot⟩
          · next hrefused =>
            obtain rfl := Option.some.inj hstep
            rw [if_neg hrefused] at hregisters
            refine h.withSession (h.valid.step hsystem) rfl rfl (follows_insert hsession fun hfollows => ?_)
              fun agent record hrecord => ⟨record, by rw [← hrecord, ← hregisters]; rfl, rfl⟩
            unfold Follows at hfollows ⊢
            rw [hreader] at hfollows
            exact hfollows
    · cases hstep
  · cases hstep

theorem forgetAgentSession_form (coordinator : Coordinator) (agent : AgentId) (boot : AgentBootId) :
    ∃ agentSessions, coordinator.forgetAgentSession agent boot = { coordinator with agentSessions } := by
  unfold forgetAgentSession
  split
  · split
    · exact ⟨_, rfl⟩
    · exact ⟨_, rfl⟩
  · exact ⟨_, rfl⟩

theorem onClosed_form (coordinator : Coordinator) (id : SessionId) (session : Session) (reason : Text) :
    ∃ agentSessions losses, coordinator.onClosed id session reason =
      { coordinator with sessions := coordinator.sessions.erase id, agentSessions, losses } := by
  unfold onClosed
  split
  · exact ⟨_, _, rfl⟩
  · exact ⟨_, _, rfl⟩

theorem follows_enqueue {last : Option Registration} {session : Session} (frame : Frame) (limits : ResourceLimits)
    (h : Follows last session) : Follows last (session.enqueue frame limits).2 := by
  unfold Session.enqueue
  split
  · exact h
  · split
    · exact h
    · split
      · exact h
      · exact h

/-- Every step keeps track. -/
theorem Tracked.step (h : coordinator.Tracked) {action : Action} (hstep : coordinator.step action = some after) : after.Tracked := by
  have hsame : ∀ (id : SessionId) session, coordinator.sessions[id]? = some session → ∃ before, coordinator.sessions[id]? = some before ∧
      (Follows (coordinator.lastThrough id) before → Follows (coordinator.lastThrough id) session) :=
    fun id session hsession => ⟨session, hsession, fun hfollows => hfollows⟩
  have hquiet : ∀ request agent, ¬coordinator.system.Registers (.begin request) agent := by
    rintro request agent ⟨_, _, hlabel, -⟩
    cases hlabel
  cases action with
  | accept => exact h.accept hstep
  | commitAgent id position => exact h.commitAgent hstep
  | registerAgent id descriptor =>
    simp only [Coordinator.step] at hstep
    split at hstep
    · next boundAgent outbound hsession =>
      split at hstep
      · next system hsystem =>
        obtain rfl := Option.some.inj hstep
        exact h.withStep hsystem trivial (hquiet _) rfl rfl rfl (follows_insert hsession fun hfollows => hfollows)
      · obtain rfl := Option.some.inj hstep
        exact h
    · cases hstep
  | bindAgent id =>
    simp only [Coordinator.step] at hstep
    split at hstep
    · next session hsession =>
      split at hstep
      · next descriptor hreader =>
        obtain rfl := Option.some.inj hstep
        refine h.withoutStep rfl rfl rfl (follows_insert hsession fun hfollows => ?_)
        unfold Follows at hfollows ⊢
        rw [hreader] at hfollows
        exact hfollows
      · cases hstep
    · cases hstep
  | noteSession id =>
    simp only [Coordinator.step] at hstep
    split at hstep
    · next session hsession =>
      split at hstep
      · next descriptor hreader =>
        obtain rfl := Option.some.inj hstep
        refine h.withoutStep rfl rfl rfl (follows_insert hsession fun hfollows => ?_)
        unfold Follows at hfollows ⊢
        rw [hreader] at hfollows
        exact hfollows
      · cases hstep
    · cases hstep
  | deregisterAgent id agent boot force =>
    simp only [Coordinator.step] at hstep
    split at hstep
    · next boundAgent outbound hsession =>
      split at hstep
      · cases hstep
      · next reply system hsystem =>
        obtain rfl := Option.some.inj hstep
        refine h.withStep hsystem trivial (fun other hregisters => ?_) rfl rfl rfl (follows_insert hsession fun hfollows => ?_)
        · obtain ⟨_, _, hlabel, -⟩ := hregisters
          cases hlabel
        · unfold Follows
          split
          · next hreader => split at hreader <;> cases hreader
          · exact hfollows
    · cases hstep
  | forgetAgent id =>
    simp only [Coordinator.step] at hstep
    split at hstep
    · next session hsession =>
      split at hstep
      · next agent boot hreader =>
        obtain rfl := Option.some.inj hstep
        obtain ⟨agentSessions, hform⟩ := coordinator.forgetAgentSession_form agent boot
        rw [hform]
        refine h.withoutStep rfl rfl rfl (follows_insert hsession fun hfollows => ?_)
        unfold Follows at hfollows ⊢
        rw [hreader] at hfollows
        exact hfollows
      · cases hstep
    · cases hstep
  | close id reason =>
    simp only [Coordinator.step] at hstep
    split at hstep
    · next session hsession =>
      split at hstep
      · next hreader =>
        obtain rfl := Option.some.inj hstep
        obtain ⟨agentSessions, losses, hform⟩ := coordinator.onClosed_form id session.requestClose reason
        rw [hform]
        refine h.withoutStep rfl rfl rfl fun other found hfound => ?_
        have hkept : coordinator.sessions[other]? = some found := by
          have hfound : (coordinator.sessions.erase id)[other]? = some found := hfound
          rw [ExtTreeMap.getElem?_erase] at hfound
          split at hfound
          · cases hfound
          · exact hfound
        exact hsame other found hkept
      · cases hstep
    · cases hstep
  | reportLoss position =>
    simp only [Coordinator.step] at hstep
    split at hstep
    · cases hstep
    · next loss hloss =>
      obtain ⟨⟨reply, system⟩, hsystem, rfl⟩ := Option.map_eq_some_iff.mp hstep
      exact h.withStep hsystem trivial (hquiet _) rfl rfl rfl hsame
  | enqueue id frame =>
    simp only [Coordinator.step] at hstep
    split at hstep
    · next session hsession =>
      obtain rfl := Option.some.inj hstep
      exact h.withoutStep rfl rfl rfl (follows_insert hsession (follows_enqueue frame _))
    · cases hstep
  | send id =>
    simp only [Coordinator.step] at hstep
    split at hstep
    · next session hsession =>
      obtain rfl := Option.some.inj hstep
      exact h.withoutStep rfl rfl rfl (follows_insert hsession fun hfollows => hfollows)
    · cases hstep
  | requestClose id =>
    simp only [Coordinator.step] at hstep
    split at hstep
    · next session hsession =>
      obtain rfl := Option.some.inj hstep
      exact h.withoutStep rfl rfl rfl (follows_insert hsession fun hfollows => hfollows)
    · cases hstep
  | scheduler label =>
    simp only [Coordinator.step] at hstep
    split at hstep
    · next hserves =>
      obtain ⟨⟨reply, system⟩, hsystem, rfl⟩ := Option.map_eq_some_iff.mp hstep
      exact h.withStep hsystem hserves.continues (fun _ => hserves.not_registers) rfl rfl rfl hsame
    · cases hstep

theorem Reachable.tracked (h : coordinator.Reachable) : coordinator.Tracked := by
  obtain ⟨start, ⟨options, system, hsystem, rfl⟩, hrun⟩ := h
  have hnone : ∀ (id : SessionId) session, (∅ : Table SessionId Session)[id]? ≠ some session := by simp
  refine Runs.keeps (motive := Tracked) (fun _ _ ⟨_, hstep⟩ htracked => htracked.step hstep) hrun
    ⟨hsystem.valid, fun _ hmem => (List.not_mem_nil hmem).elim, fun id session hsession => (hnone id session hsession).elim,
      fun id session hsession => (hnone id session hsession).elim, fun _ _ hlast => ?_⟩
  cases hlast

end Steps

/-! ### Closing a session -/

/-- The step is about to report an agent lost under a boot. -/
def Reports (coordinator after : Coordinator) (agent : AgentId) (boot : AgentBootId) : Prop :=
  ∃ reason, after.losses = coordinator.losses ++ [⟨agent, boot, reason⟩]

/-- The agent runs under the boot, which registered last through the session. -/
def RegisteredThrough (coordinator : Coordinator) (id : SessionId) (agent : AgentId) (boot : AgentBootId) : Prop :=
  (∃ record, coordinator.system.impl.agents[agent]? = some record ∧ record.descriptor.boot = boot) ∧
    ∃ registration, coordinator.registrations.find? (fun registration => registration.agent = agent ∧ registration.boot = boot) =
      some registration ∧ registration.session = id

/-- The latest registration through the session is the latest of its agent, and no other agent registered through it last. -/
def Exclusive (coordinator : Coordinator) (id : SessionId) : Prop :=
  ∀ agent, (∃ registration, coordinator.lastOf agent = some registration ∧ registration.session = id) ↔
    ∃ registration, coordinator.lastThrough id = some registration ∧ registration.agent = agent

/-- The first of a list with one property and the first with another are the same when each has both. -/
theorem find?_agree {α : Type} {p q : α → Bool} {xs : List α} {x y : α} (hp : xs.find? p = some x) (hq : xs.find? q = some y)
    (hqx : q x) (hpy : p y) : x = y := by
  induction xs with
  | nil => cases hp
  | cons head rest ih =>
    by_cases hphead : p head
    · rw [List.find?_cons_of_pos hphead] at hp
      obtain rfl := Option.some.inj hp
      rw [List.find?_cons_of_pos hqx] at hq
      exact Option.some.inj hq
    · rw [List.find?_cons_of_neg hphead] at hp
      by_cases hqhead : q head
      · rw [List.find?_cons_of_pos hqhead] at hq
        obtain rfl := Option.some.inj hq
        exact (hphead hpy).elim
      · rw [List.find?_cons_of_neg hqhead] at hq
        exact ih hp hq

section Closing
variable {coordinator after : Coordinator} {id : SessionId} {agent : AgentId} {boot : AgentBootId} {reason : Text}

theorem lastOf_agent {registration : Registration} (h : coordinator.lastOf agent = some registration) : registration.agent = agent := by
  simpa using List.find?_some h

theorem lastThrough_session {registration : Registration} (h : coordinator.lastThrough id = some registration) :
    registration.session = id := by
  simpa using List.find?_some h

/-- A session that closes reports what registered through it last. -/
theorem Tracked.reports_iff (h : coordinator.Tracked) (hclose : coordinator.step (.close id reason) = some after) :
    coordinator.Reports after agent boot ↔
      ∃ registration, coordinator.lastThrough id = some registration ∧ registration.agent = agent ∧ registration.boot = boot := by
  simp only [Coordinator.step] at hclose
  split at hclose
  · next session hsession =>
    split at hclose
    · next hreader =>
      obtain rfl := Option.some.inj hclose
      have hfollows := h.bound id session hsession
      unfold Follows at hfollows
      rw [hreader] at hfollows
      have hbound : (coordinator.lastThrough id).map (fun registration => (registration.agent, registration.boot)) =
          session.boundAgent := hfollows
      have hreports : coordinator.Reports (coordinator.onClosed id session.requestClose reason) agent boot ↔
          session.boundAgent = some (agent, boot) := by
        cases hagent : session.boundAgent with
        | none => simp [Reports, onClosed, Session.requestClose, hagent]
        | some bound => simp [Reports, onClosed, Session.requestClose, hagent, Prod.ext_iff]
      rw [hreports, ← hbound, Option.map_eq_some_iff]
      simp only [Prod.mk.injEq]
    · cases hclose
  · cases hclose

/-- Where the agent registered last is where its current boot registered last. -/
theorem Tracked.registeredThrough_iff (h : coordinator.Tracked) : coordinator.RegisteredThrough id agent boot ↔
    ∃ registration, coordinator.lastOf agent = some registration ∧ registration.boot = boot ∧ registration.session = id := by
  constructor
  · rintro ⟨⟨record, hrecord, rfl⟩, found, hfound, hsession⟩
    have hpair : found.agent = agent ∧ found.boot = record.descriptor.boot := by simpa using List.find?_some hfound
    obtain ⟨registration, hlast⟩ : ∃ registration, coordinator.lastOf agent = some registration := by
      refine Option.isSome_iff_exists.mp (List.find?_isSome.mpr ⟨found, List.mem_of_find?_eq_some hfound, ?_⟩)
      simpa using hpair.1
    obtain ⟨current, hcurrent, hboot⟩ := h.current agent registration hlast
    obtain rfl := Option.some.inj (hrecord.symm.trans hcurrent)
    have hagent := lastOf_agent hlast
    obtain rfl : found = registration := find?_agree hfound hlast (by simpa using hpair.1) (by simpa using ⟨hagent, hboot.symm⟩)
    exact ⟨found, hlast, hpair.2, hsession⟩
  · rintro ⟨registration, hlast, rfl, hsession⟩
    have hagent := lastOf_agent hlast
    refine ⟨h.current agent registration hlast, registration, ?_, hsession⟩
    obtain ⟨found, hfound⟩ : ∃ found, coordinator.registrations.find?
        (fun found => found.agent = agent ∧ found.boot = registration.boot) = some found := by
      refine Option.isSome_iff_exists.mp (List.find?_isSome.mpr ⟨registration, List.mem_of_find?_eq_some hlast, ?_⟩)
      simpa using hagent
    have hpair : found.agent = agent ∧ found.boot = registration.boot := by simpa using List.find?_some hfound
    obtain rfl : found = registration := find?_agree hfound hlast (by simpa using hpair.1) (by simpa using hagent)
    exact hfound

/-- A session that closes reports exactly the incarnation that is registered through it if and only if the latest registration
through it is the latest of its agent, and no other agent registered through it last. -/
theorem close_reports_registered (hreach : coordinator.Reachable) (hclose : coordinator.step (.close id reason) = some after) :
    (∀ agent boot, coordinator.Reports after agent boot ↔ coordinator.RegisteredThrough id agent boot) ↔ coordinator.Exclusive id := by
  have htracked := hreach.tracked
  constructor
  · intro hexact agent
    have hexact : ∀ boot, (∃ registration, coordinator.lastThrough id = some registration ∧ registration.agent = agent ∧
        registration.boot = boot) ↔ ∃ registration, coordinator.lastOf agent = some registration ∧ registration.boot = boot ∧
        registration.session = id := fun boot => by
      rw [← htracked.reports_iff hclose, ← htracked.registeredThrough_iff]
      exact hexact agent boot
    constructor
    · rintro ⟨registration, hlast, hsession⟩
      obtain ⟨found, hfound, hagent, -⟩ := (hexact registration.boot).mpr ⟨registration, hlast, rfl, hsession⟩
      exact ⟨found, hfound, hagent⟩
    · rintro ⟨registration, hlast, hagent⟩
      obtain ⟨found, hfound, -, hsession⟩ := (hexact registration.boot).mp ⟨registration, hlast, hagent, rfl⟩
      exact ⟨found, hfound, hsession⟩
  · intro hexclusive agent boot
    rw [htracked.reports_iff hclose, htracked.registeredThrough_iff]
    constructor
    · rintro ⟨registration, hthrough, hagent, hboot⟩
      obtain ⟨found, hlast, hsession⟩ := (hexclusive agent).mpr ⟨registration, hthrough, hagent⟩
      obtain rfl : found = registration := find?_agree hlast hthrough (by simpa using hsession) (by simpa using hagent)
      exact ⟨found, hlast, hboot, hsession⟩
    · rintro ⟨registration, hlast, hboot, hsession⟩
      obtain ⟨found, hthrough, hagent⟩ := (hexclusive agent).mp ⟨registration, hlast, hsession⟩
      obtain rfl : registration = found := find?_agree hlast hthrough (by simpa using hsession) (by simpa using hagent)
      exact ⟨registration, hthrough, hagent, hboot⟩

end Closing

end Coordinator

/-- The samples' agent registers through a session. -/
def Sample.registerThrough (id : SessionId) : List Action :=
  [.registerAgent id Sample.descriptor, .commitAgent id 0, .bindAgent id, .noteSession id]

/-- A coordinator starts on an empty scheduler, and performs actions before a session closes. -/
def Sample.serve (actions : List Action) (id : SessionId) (reason : Text) : Option (Coordinator × Coordinator) := do
  let system ← Sample.run (fun _ _ => True) []
  let coordinator ← Coordinator.perform { system } actions
  let after ← coordinator.step (.close id reason)
  return (coordinator, after)

theorem Coordinator.perform_steps {coordinator after : Coordinator} {actions : List Action}
    (h : coordinator.perform actions = some after) : ReflTransGen Coordinator.Steps coordinator after := by
  induction actions generalizing coordinator with
  | nil =>
    obtain rfl := Option.some.inj h
    exact .refl
  | cons action actions ih =>
    obtain ⟨next, hnext, hrest⟩ := Option.bind_eq_some_iff.mp h
    exact .head ⟨action, hnext⟩ (ih hrest)

theorem Sample.serve_reaches {actions : List Action} {id : SessionId} {reason : Text} {coordinator after : Coordinator}
    (h : Sample.serve actions id reason = some (coordinator, after)) :
    coordinator.Reachable ∧ coordinator.step (.close id reason) = some after := by
  simp only [Sample.serve, Option.bind_eq_bind, Option.bind_eq_some_iff] at h
  obtain ⟨system, hsystem, found, hfound, _, hclose, hform⟩ := h
  obtain ⟨rfl, rfl⟩ : found = coordinator ∧ _ = after := by simpa using hform
  exact ⟨⟨_, ⟨_, system, Sample.run_reaches hsystem, rfl⟩, Coordinator.perform_steps hfound⟩, hclose⟩

namespace Coordinator

set_option maxRecDepth 100000 in
/-- The agent of the only session that closes is reported. -/
theorem close_reports_registered_sample : ∃ coordinator after,
    Sample.serve (.accept :: Sample.registerThrough 1) 1 "reader loop finished" = some (coordinator, after) ∧
      after.losses.map (fun loss => (loss.agent, loss.boot)) = [(1, Sample.boot)] ∧
      ((∀ agent boot, coordinator.Reports after agent boot ↔ coordinator.RegisteredThrough 1 agent boot) ↔
        coordinator.Exclusive 1) := by
  have hrun : (Sample.serve (.accept :: Sample.registerThrough 1) 1 "reader loop finished").map (fun found =>
      decide (found.2.losses.map (fun loss => (loss.agent, loss.boot)) = [(1, Sample.boot)])) = some true := by
    decide +kernel
  obtain ⟨⟨coordinator, after⟩, hfound, hflags⟩ := Option.map_eq_some_iff.mp hrun
  obtain ⟨hreach, hclose⟩ := Sample.serve_reaches hfound
  exact ⟨coordinator, after, hfound, of_decide_eq_true hflags, close_reports_registered hreach hclose⟩

set_option maxRecDepth 100000 in
/-- An incarnation that reconnects before its first session closes is reported lost with it. -/
theorem not_close_reports_registered : ¬∀ (coordinator after : Coordinator) (id : SessionId) (reason : Text), coordinator.Reachable →
    coordinator.step (.close id reason) = some after →
    ∀ agent boot, coordinator.Reports after agent boot ↔ coordinator.RegisteredThrough id agent boot := by
  intro hexact
  have hrun : (Sample.serve (.accept :: .accept :: Sample.registerThrough 1 ++ Sample.registerThrough 2) 1 "reader loop finished").map
      (fun found => decide (found.1.losses = [] ∧ found.2.losses.map (fun loss => (loss.agent, loss.boot)) = [(1, Sample.boot)] ∧
        (found.1.lastOf 1).map (fun registration => registration.session) = some 2)) = some true := by
    decide +kernel
  obtain ⟨⟨coordinator, after⟩, hfound, hflags⟩ := Option.map_eq_some_iff.mp hrun
  obtain ⟨hbefore, hlosses, hlast⟩ := of_decide_eq_true hflags
  obtain ⟨hreach, hclose⟩ := Sample.serve_reaches hfound
  obtain ⟨loss, hlost, hpair⟩ := List.map_eq_singleton_iff.mp hlosses
  obtain ⟨hagent, hboot⟩ := Prod.mk.inj hpair
  have hthrough := (hexact coordinator after 1 "reader loop finished" hreach hclose 1 Sample.boot).mp ⟨loss.reason, by
    rw [hlost, hbefore, ← hagent, ← hboot]
    rfl⟩
  obtain ⟨registration, hregistration, -, hsession⟩ := hreach.tracked.registeredThrough_iff.mp hthrough
  rw [hregistration] at hlast
  have hother : registration.session = 2 := Option.some.inj hlast
  rw [hsession] at hother
  cases hother

end Coordinator

end AgentScheduler
