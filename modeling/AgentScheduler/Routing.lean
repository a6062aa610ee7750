import AgentScheduler.BatchLog

/-! Which sessions the coordinator notes for its agents, and what each of its steps keeps. -/
namespace AgentScheduler
open Std KeyedTable Relation

/-! ### Which sessions the coordinator notes -/

/-- What a session has registered and the coordinator has not noted yet. -/
def Session.unnoted (session : Session) : Option (AgentId × AgentBootId) :=
  match session.reader with
  | .registered descriptor | .bound descriptor => some (descriptor.id, descriptor.boot)
  | _ => none

namespace Coordinator

/-- An agent is noted with a session that its boot was registered through. -/
structure Noted (coordinator : Coordinator) : Prop where
  entries : ∀ (agent : AgentId) boot id, coordinator.agentSessions[agent]? = some (boot, id) →
    ⟨id, agent, boot⟩ ∈ coordinator.registrations
  readers : ∀ (id : SessionId) session agent boot, coordinator.sessions[id]? = some session →
    session.unnoted = some (agent, boot) → ⟨id, agent, boot⟩ ∈ coordinator.registrations

section Steps
variable {coordinator after : Coordinator} {id : SessionId} {session before : Session}

/-- What forgets registrations of no session, and at most replaces one session. -/
theorem Noted.replace (h : coordinator.Noted) (id : SessionId) (session : Session)
    (hregistrations : ∀ registration ∈ coordinator.registrations, registration ∈ after.registrations)
    (hentries : ∀ (agent : AgentId) boot id, after.agentSessions[agent]? = some (boot, id) →
      coordinator.agentSessions[agent]? = some (boot, id) ∨ ⟨id, agent, boot⟩ ∈ after.registrations)
    (hsessions : ∀ (other : SessionId) found, after.sessions[other]? = some found →
      coordinator.sessions[other]? = some found ∨ other = id ∧ found = session)
    (hreader : ∀ agent boot, session.unnoted = some (agent, boot) → ⟨id, agent, boot⟩ ∈ after.registrations) : after.Noted where
  entries := fun agent boot id hentry => by
    rcases hentries agent boot id hentry with hold | hnew
    · exact hregistrations _ (h.entries agent boot id hold)
    · exact hnew
  readers := fun other found agent boot hfound hunnoted => by
    rcases hsessions other found hfound with hold | ⟨rfl, rfl⟩
    · exact hregistrations _ (h.readers other found agent boot hold hunnoted)
    · exact hreader agent boot hunnoted

theorem sessions_insert {sessions : Table SessionId Session} (other : SessionId) (found : Session)
    (hfound : (sessions.insert id session)[other]? = some found) : sessions[other]? = some found ∨ other = id ∧ found = session := by
  rw [getElem?_insert] at hfound
  split at hfound
  · next heq => exact .inr ⟨heq.symm, (Option.some.inj hfound).symm⟩
  · exact .inl hfound

/-- One session is replaced by another that has nothing new to note. -/
theorem Noted.setSession (h : coordinator.Noted) (hbefore : coordinator.sessions[id]? = some before)
    (hregistrations : after.registrations = coordinator.registrations) (hentries : after.agentSessions = coordinator.agentSessions)
    (hsessions : after.sessions = coordinator.sessions.insert id session)
    (hreader : ∀ bound, session.unnoted = some bound → before.unnoted = some bound) : after.Noted := by
  refine h.replace id session (by rw [hregistrations]; exact fun _ hmem => hmem)
    (by rw [hentries]; exact fun _ _ _ hentry => .inl hentry) (by rw [hsessions]; exact sessions_insert) fun agent boot hunnoted => ?_
  rw [hregistrations]
  exact h.readers id before agent boot hbefore (hreader _ hunnoted)

theorem unnoted_enqueue (session : Session) (frame : Frame) (limits : ResourceLimits) :
    (session.enqueue frame limits).2.unnoted = session.unnoted := by
  unfold Session.enqueue
  split
  · rfl
  · split
    · rfl
    · split <;> rfl

theorem entries_erase {entries : Table AgentId (AgentBootId × SessionId)} {agent other : AgentId} {entry : AgentBootId × SessionId}
    (hentry : (entries.erase agent)[other]? = some entry) : entries[other]? = some entry := by
  rw [ExtTreeMap.getElem?_erase] at hentry
  split at hentry
  · cases hentry
  · exact hentry

theorem forgetAgentSession_entries {agent other : AgentId} {boot : AgentBootId} {entry : AgentBootId × SessionId}
    (hentry : (coordinator.forgetAgentSession agent boot).agentSessions[other]? = some entry) :
    coordinator.agentSessions[other]? = some entry := by
  unfold forgetAgentSession at hentry
  split at hentry
  · split at hentry
    · exact entries_erase hentry
    · exact hentry
  · exact hentry

theorem onClosed_entries {reason : Text} {other : AgentId} {entry : AgentBootId × SessionId}
    (hentry : (coordinator.onClosed id session reason).agentSessions[other]? = some entry) :
    coordinator.agentSessions[other]? = some entry := by
  unfold onClosed at hentry
  simp only at hentry
  split at hentry
  · exact hentry
  · simp only at hentry
    split at hentry
    · exact entries_erase hentry
    · exact hentry

theorem Noted.step {action : Action} (h : coordinator.Noted) (hstep : coordinator.step action = some after) : after.Noted := by
  have hsilent : ∀ {session : Session} {bound}, session.reader = .idle → session.unnoted = some bound → False := by
    intro session bound hreader hunnoted
    simp [Session.unnoted, hreader] at hunnoted
  cases action with
  | accept =>
    simp only [Coordinator.step] at hstep
    split at hstep
    · obtain rfl := Option.some.inj hstep
      exact h
    · obtain rfl := Option.some.inj hstep
      refine h.replace coordinator.nextSessionId {} (fun _ hmem => hmem) (fun _ _ _ hentry => .inl hentry)
        (fun other found hfound => ?_) (fun _ _ hunnoted => (hsilent rfl hunnoted).elim)
      have hfound : (coordinator.sessions.insertIfNew coordinator.nextSessionId {})[other]? = some found := hfound
      rw [getElem?_insertIfNew] at hfound
      split at hfound
      · next heq =>
        subst heq
        cases hstored : coordinator.sessions[coordinator.nextSessionId]? with
        | none =>
          rw [hstored] at hfound
          exact .inr ⟨rfl, (Option.some.inj hfound).symm⟩
        | some stored =>
          rw [hstored] at hfound
          exact .inl hfound
      · exact .inl hfound
  | registerAgent id descriptor =>
    simp only [Coordinator.step] at hstep
    split at hstep
    · next boundAgent outbound hsession =>
      split at hstep
      · obtain rfl := Option.some.inj hstep
        exact h.setSession hsession rfl rfl rfl fun bound hunnoted => by cases hunnoted
      · obtain rfl := Option.some.inj hstep
        exact h
    · cases hstep
  | commitAgent id position =>
    simp only [Coordinator.step] at hstep
    split at hstep
    · next session called hsession hcall =>
      split at hstep
      · next descriptor hreader =>
        split at hstep
        · cases hstep
        · split at hstep
          · cases hstep
          · split at hstep
            · obtain rfl := Option.some.inj hstep
              refine h.replace id { session with reader := .registered descriptor }
                (fun _ hmem => List.mem_cons_of_mem _ hmem) (fun _ _ _ hentry => .inl hentry) sessions_insert
                fun agent boot hunnoted => ?_
              obtain ⟨rfl, rfl⟩ : descriptor.id = agent ∧ descriptor.boot = boot := Prod.mk.inj (Option.some.inj hunnoted)
              exact List.mem_cons_self
            · obtain rfl := Option.some.inj hstep
              exact h.setSession hsession rfl rfl rfl fun bound hunnoted => by cases hunnoted
      · cases hstep
    · cases hstep
  | bindAgent id =>
    simp only [Coordinator.step] at hstep
    split at hstep
    · next session hsession =>
      split at hstep
      · next descriptor hreader =>
        obtain rfl := Option.some.inj hstep
        refine h.setSession hsession rfl rfl rfl fun bound hunnoted => ?_
        unfold Session.unnoted
        rw [hreader]
        exact hunnoted
      · cases hstep
    · cases hstep
  | noteSession id =>
    simp only [Coordinator.step] at hstep
    split at hstep
    · next session hsession =>
      split at hstep
      · next descriptor hreader =>
        obtain rfl := Option.some.inj hstep
        refine h.replace id { session with reader := .idle } (fun _ hmem => hmem)
          (fun agent boot other hentry => ?_) sessions_insert fun _ _ hunnoted => by cases hunnoted
        have hfound : (coordinator.agentSessions.insert descriptor.id (descriptor.boot, id))[agent]? = some (boot, other) := hentry
        rw [getElem?_insert] at hfound
        split at hfound
        · next heq =>
          subst heq
          obtain ⟨rfl, rfl⟩ := Prod.mk.inj (Option.some.inj hfound)
          refine .inr (h.readers id session descriptor.id descriptor.boot hsession ?_)
          unfold Session.unnoted
          rw [hreader]
        · exact .inl hfound
      · cases hstep
    · cases hstep
  | deregisterAgent id agent boot force =>
    simp only [Coordinator.step] at hstep
    split at hstep
    · next boundAgent outbound hsession =>
      split at hstep
      · cases hstep
      · next reply system hsystem =>
        obtain rfl := Option.some.inj hstep
        refine h.setSession hsession rfl rfl rfl fun bound hunnoted => ?_
        unfold Session.unnoted at hunnoted
        split at hunnoted
        · next hreader => split at hreader <;> cases hreader
        · next hreader => split at hreader <;> cases hreader
        · cases hunnoted
    · cases hstep
  | forgetAgent id =>
    simp only [Coordinator.step] at hstep
    split at hstep
    · next session hsession =>
      split at hstep
      · next agent boot hreader =>
        obtain rfl := Option.some.inj hstep
        refine h.replace id { session with reader := .idle } ?_ ?_ ?_ fun _ _ hunnoted => by cases hunnoted
        · obtain ⟨agentSessions, hform⟩ := coordinator.forgetAgentSession_form agent boot
          rw [hform]
          exact fun _ hmem => hmem
        · exact fun other found id hentry => .inl (forgetAgentSession_entries hentry)
        · obtain ⟨agentSessions, hform⟩ := coordinator.forgetAgentSession_form agent boot
          rw [hform]
          exact sessions_insert
      · cases hstep
    · cases hstep
  | close id reason =>
    simp only [Coordinator.step] at hstep
    split at hstep
    · next session hsession =>
      split at hstep
      · next hreader =>
        obtain rfl := Option.some.inj hstep
        have hsessions : ∀ (other : SessionId) found, (coordinator.onClosed id session.requestClose reason).sessions[other]? = some found →
            coordinator.sessions[other]? = some found := by
          intro other found hfound
          obtain ⟨agentSessions, losses, hform⟩ := coordinator.onClosed_form id session.requestClose reason
          rw [hform] at hfound
          have hfound : (coordinator.sessions.erase id)[other]? = some found := hfound
          rw [ExtTreeMap.getElem?_erase] at hfound
          split at hfound
          · cases hfound
          · exact hfound
        have hregistrations : (coordinator.onClosed id session.requestClose reason).registrations = coordinator.registrations := by
          obtain ⟨agentSessions, losses, hform⟩ := coordinator.onClosed_form id session.requestClose reason
          rw [hform]
        refine h.replace id session (fun _ hmem => hregistrations ▸ hmem)
          (fun agent boot other hentry => .inl (onClosed_entries hentry)) (fun other found hfound => .inl (hsessions other found hfound))
          fun _ _ hunnoted => (hsilent hreader hunnoted).elim
      · cases hstep
    · cases hstep
  | reportLoss position =>
    simp only [Coordinator.step] at hstep
    split at hstep
    · cases hstep
    · obtain ⟨_, -, rfl⟩ := Option.map_eq_some_iff.mp hstep
      exact ⟨h.entries, h.readers⟩
  | enqueue id frame =>
    simp only [Coordinator.step] at hstep
    split at hstep
    · next session hsession =>
      obtain rfl := Option.some.inj hstep
      exact h.setSession hsession rfl rfl rfl fun bound hunnoted => (unnoted_enqueue _ _ _) ▸ hunnoted
    · cases hstep
  | send id =>
    simp only [Coordinator.step] at hstep
    split at hstep
    · next session hsession =>
      obtain rfl := Option.some.inj hstep
      exact h.setSession hsession rfl rfl rfl fun bound hunnoted => hunnoted
    · cases hstep
  | requestClose id =>
    simp only [Coordinator.step] at hstep
    split at hstep
    · next session hsession =>
      obtain rfl := Option.some.inj hstep
      exact h.setSession hsession rfl rfl rfl fun bound hunnoted => hunnoted
    · cases hstep
  | scheduler label =>
    simp only [Coordinator.step] at hstep
    split at hstep
    · obtain ⟨_, -, rfl⟩ := Option.map_eq_some_iff.mp hstep
      exact ⟨h.entries, h.readers⟩
    · cases hstep

theorem Reachable.noted (h : coordinator.Reachable) : coordinator.Noted := by
  obtain ⟨start, ⟨options, system, hsystem, rfl⟩, hrun⟩ := h
  have hnone : ∀ (id : SessionId) session, (∅ : Table SessionId Session)[id]? ≠ some session := by simp
  have hnoone : ∀ (agent : AgentId) entry, (∅ : Table AgentId (AgentBootId × SessionId))[agent]? ≠ some entry := by simp
  exact Runs.keeps (motive := Noted) (fun _ _ ⟨_, hstep⟩ hnoted => hnoted.step hstep) hrun
    ⟨fun agent boot id hentry => (hnoone agent _ hentry).elim, fun id session _ _ hsession => (hnone id session hsession).elim⟩

end Steps

end Coordinator

/-! ### What goes on between the steps of a pass -/

section Scheduler
variable {system after : System} {label : Label} {reply : Reply}

/-- Known work stays known. -/
theorem Move.knowsWork {gate : Gate} {ledger ledger' : Ledger} {work : WorkId} (hmove : Move gate ledger ledger')
    (hknown : ledger.works work ≠ none) : ledger'.works work ≠ none := by
  have hset : ∀ (changed : WorkId) (entry : WorkEntry), Function.update ledger.works changed (some entry) work ≠ none := by
    intro changed entry
    by_cases heq : work = changed
    · rw [heq, Function.update_self]
      nofun
    · rwa [Function.update_of_ne heq]
  cases hmove with
  | accept accepted entry => exact hset accepted entry
  | settle settled before lifecycle => exact hset settled _
  | commit entry binding => exact hset binding.work _
  | _ => exact hknown

/-- A step that goes on with the same state keeps what is stored under its binding, and the work that is known. -/
theorem System.step_keeps (hvalid : system.Valid) (hcontinues : label.Continues) (hstep : system.step label = some (reply, after)) :
    system.impl.ledger.Extends after.impl.ledger ∧
      ∀ work : WorkId, system.impl.work[work]? ≠ none → after.impl.work[work]? ≠ none := by
  have hchange : Change (fun _ _ => True) system after label :=
    System.step_change hvalid hstep (fun _ _ _ _ _ => trivial) fun _ _ _ _ => trivial
  cases hchange with
  | moves _ hmoves =>
    refine ⟨Runs.relates (motive := Sound) Ledger.Extends.refl (fun _ _ _ => Ledger.Extends.trans)
      (fun _ _ hmove => hmove.sound) (fun _ _ hmove => hmove.extends) hmoves hvalid.healthy.sound, fun work hknown => ?_⟩
    have hentry : ∀ impl : Impl, impl.work[work]? ≠ none ↔ impl.ledger.works work ≠ none := by
      intro impl
      change _ ↔ (impl.work[work]?).map WorkRecord.entry ≠ none
      rw [ne_eq, ne_eq, Option.map_eq_none_iff]
    rw [hentry] at hknown ⊢
    exact Runs.keeps (motive := fun ledger : Ledger => ledger.works work ≠ none) (fun _ _ hmove => hmove.knowsWork) hmoves hknown
  | recovers position file hlabel =>
    subst hlabel
    exact hcontinues.elim
  | constructs options generatedId hlabel =>
    subst hlabel
    exact hcontinues.elim

end Scheduler

namespace Coordinator
section Steps
variable {coordinator after : Coordinator} {action : Action}

/-- A step of the coordinator leaves its scheduler alone, or is a step of it that goes on with the same state. -/
theorem step_system (hstep : coordinator.step action = some after) :
    after.system = coordinator.system ∨
      ∃ label reply, label.Continues ∧ coordinator.system.step label = some (reply, after.system) := by
  cases action with
  | accept | enqueue | send | requestClose | bindAgent | noteSession =>
    simp only [Coordinator.step] at hstep
    repeat' split at hstep
    all_goals first
      | (obtain rfl := Option.some.inj hstep; exact .inl rfl)
      | cases hstep
  | registerAgent id descriptor =>
    simp only [Coordinator.step] at hstep
    split at hstep
    · split at hstep
      · next system hsystem =>
        obtain rfl := Option.some.inj hstep
        exact .inr ⟨_, _, by trivial, hsystem⟩
      · obtain rfl := Option.some.inj hstep
        exact .inl rfl
    · cases hstep
  | commitAgent id position =>
    simp only [Coordinator.step] at hstep
    split at hstep
    · split at hstep
      · split at hstep
        · cases hstep
        · split at hstep
          · cases hstep
          · next reply system hsystem =>
            split at hstep
            all_goals
              obtain rfl := Option.some.inj hstep
              exact .inr ⟨_, _, by trivial, hsystem⟩
      · cases hstep
    · cases hstep
  | deregisterAgent id agent boot force =>
    simp only [Coordinator.step] at hstep
    split at hstep
    · split at hstep
      · cases hstep
      · next reply system hsystem =>
        obtain rfl := Option.some.inj hstep
        exact .inr ⟨_, _, by trivial, hsystem⟩
    · cases hstep
  | forgetAgent id =>
    simp only [Coordinator.step] at hstep
    split at hstep
    · split at hstep
      · next agent boot hreader =>
        obtain rfl := Option.some.inj hstep
        obtain ⟨agentSessions, hform⟩ := coordinator.forgetAgentSession_form agent boot
        rw [hform]
        exact .inl rfl
      · cases hstep
    · cases hstep
  | close id reason =>
    simp only [Coordinator.step] at hstep
    split at hstep
    · next session hsession =>
      split at hstep
      · obtain rfl := Option.some.inj hstep
        obtain ⟨agentSessions, losses, hform⟩ := coordinator.onClosed_form id session.requestClose reason
        rw [hform]
        exact .inl rfl
      · cases hstep
    · cases hstep
  | reportLoss position =>
    simp only [Coordinator.step] at hstep
    split at hstep
    · cases hstep
    · obtain ⟨⟨reply, system⟩, hsystem, rfl⟩ := Option.map_eq_some_iff.mp hstep
      exact .inr ⟨_, _, by trivial, hsystem⟩
  | scheduler label =>
    simp only [Coordinator.step] at hstep
    split at hstep
    · next hserves =>
      obtain ⟨⟨reply, system⟩, hsystem, rfl⟩ := Option.map_eq_some_iff.mp hstep
      exact .inr ⟨label, reply, hserves.continues, hsystem⟩
    · cases hstep

/-- Registrations are remembered. -/
theorem step_registrations (hstep : coordinator.step action = some after) :
    ∀ registration ∈ coordinator.registrations, registration ∈ after.registrations := by
  cases action with
  | forgetAgent id =>
    simp only [Coordinator.step] at hstep
    split at hstep
    · split at hstep
      · next agent boot hreader =>
        obtain rfl := Option.some.inj hstep
        obtain ⟨agentSessions, hform⟩ := coordinator.forgetAgentSession_form agent boot
        rw [hform]
        exact fun _ hmem => hmem
      · cases hstep
    · cases hstep
  | close id reason =>
    simp only [Coordinator.step] at hstep
    split at hstep
    · next session hsession =>
      split at hstep
      · obtain rfl := Option.some.inj hstep
        obtain ⟨agentSessions, losses, hform⟩ := coordinator.onClosed_form id session.requestClose reason
        rw [hform]
        exact fun _ hmem => hmem
      · cases hstep
    · cases hstep
  | reportLoss | scheduler =>
    simp only [Coordinator.step] at hstep
    split at hstep
    all_goals first
      | (obtain ⟨_, -, rfl⟩ := Option.map_eq_some_iff.mp hstep; exact fun _ hmem => hmem)
      | cases hstep
  | _ =>
    simp only [Coordinator.step] at hstep
    repeat' split at hstep
    all_goals first
      | (obtain rfl := Option.some.inj hstep; exact fun _ hmem => hmem)
      | (obtain rfl := Option.some.inj hstep; exact fun _ hmem => List.mem_cons_of_mem _ hmem)
      | cases hstep

end Steps
end Coordinator

end AgentScheduler
