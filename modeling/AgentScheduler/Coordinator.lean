import AgentScheduler.Session

/-! `net/coordinator.cpp`: the sessions of a coordinator, the agents that register through them, and what it reports to its
scheduler when a session closes. -/
namespace AgentScheduler
open Std KeyedTable Relation

abbrev SessionId := Nat

/-- A loss that `on_closed` is about to report. -/
structure Loss where
  agent : AgentId
  boot : AgentBootId
  reason : Text

/-- A registration that was accepted. -/
structure Registration where
  session : SessionId
  agent : AgentId
  boot : AgentBootId

/-- `CoordinatorOptions`. -/
structure CoordinatorOptions where
  limits : ResourceLimits := {}
  autoDispatch : Bool := true

/-- `CoordinatorServer` with its scheduler, the losses it has yet to report, and the registrations it has seen, latest first. -/
structure Coordinator where
  options : CoordinatorOptions := {}
  system : System
  sessions : Table SessionId Session := ∅
  /-- `agent_sessions_` -/
  agentSessions : Table AgentId (AgentBootId × SessionId) := ∅
  nextSessionId : SessionId := 1
  losses : List Loss := []
  registrations : List Registration := []

/-- What a step of the coordinator is. -/
inductive Action
  /-- `accept_loop` accepts a connection -/
  | accept
  /-- a `RegisterAgent` frame arrives: the first section of `register_agent` -/
  | registerAgent (session : SessionId) (descriptor : AgentDescriptor)
  /-- the second section, of the call at a position -/
  | commitAgent (session : SessionId) (position : Nat)
  | bindAgent (session : SessionId)
  | noteSession (session : SessionId)
  /-- a `DeregisterAgent` frame arrives -/
  | deregisterAgent (session : SessionId) (agent : AgentId) (boot : AgentBootId) (force : Bool)
  | forgetAgent (session : SessionId)
  /-- the reader of a session has ended: `on_closed` -/
  | close (session : SessionId) (reason : Text)
  /-- a loss is reported: the first section of `declare_agent_lost` -/
  | reportLoss (position : Nat)
  /-- a frame is queued for a session, taken by its writer, or the session is asked to close -/
  | enqueue (session : SessionId) (frame : Frame)
  | send (session : SessionId)
  | requestClose (session : SessionId)
  /-- anything else that goes on in the scheduler -/
  | scheduler (label : Label)

/-- The step of the scheduler neither registers an agent nor replaces the state. -/
def System.Serves (system : System) : Label → Prop
  | .begin (.registerAgent _) => False
  | .finish position =>
    match system.calls[position]? with
    | some (.registerAgent _) => False
    | _ => True
  | .load _ | .restart _ _ => False
  | _ => True

instance (system : System) (label : Label) : Decidable (system.Serves label) := by
  rcases label with ⟨⟩
  case «begin» request => rcases request with ⟨⟩ <;> first | exact instDecidableTrue | exact instDecidableFalse
  case finish position =>
    dsimp only [System.Serves]
    generalize system.calls[position]? = call
    rcases call with _ | ⟨⟨⟩⟩
    all_goals first | exact instDecidableTrue | exact instDecidableFalse
  all_goals first | exact instDecidableTrue | exact instDecidableFalse

namespace Coordinator

def setSession (coordinator : Coordinator) (id : SessionId) (session : Session) : Coordinator :=
  { coordinator with sessions := coordinator.sessions.insert id session }

/-- `CoordinatorServer::forget_agent_session`. -/
def forgetAgentSession (coordinator : Coordinator) (agent : AgentId) (boot : AgentBootId) : Coordinator :=
  match coordinator.agentSessions[agent]? with
  | some (current, _) =>
    if current = boot then { coordinator with agentSessions := coordinator.agentSessions.erase agent } else coordinator
  | none => coordinator

/-- The locked part of `CoordinatorServer::on_closed`; the loss of whatever the session is bound to is reported after it. -/
def onClosed (coordinator : Coordinator) (id : SessionId) (session : Session) (reason : Text) : Coordinator :=
  let closed := { coordinator with sessions := coordinator.sessions.erase id }
  match session.boundAgent with
  | none => closed
  | some (agent, boot) =>
    let agentSessions :=
      if closed.agentSessions[agent]? = some (boot, id) then closed.agentSessions.erase agent else closed.agentSessions
    { closed with
      agentSessions
      losses := closed.losses ++ [⟨agent, boot, if reason.bytes.isEmpty then "session closed" else reason⟩] }

/-- One step; `none` when the step is not possible. -/
def step (coordinator : Coordinator) : Action → Option Coordinator
  | .accept =>
    if coordinator.options.limits.maxConnections.toNat ≤ coordinator.sessions.size then some coordinator
    else
      some { coordinator with
        sessions := coordinator.sessions.insertIfNew coordinator.nextSessionId {}
        nextSessionId := coordinator.nextSessionId + 1 }
  | .registerAgent id descriptor =>
    match coordinator.sessions[id]? with
    | some { boundAgent, outbound, closing := false, reader := .idle } =>
      match coordinator.system.step (.begin (.registerAgent descriptor)) with
      | some (.pending, system) =>
        some (setSession { coordinator with system } id
          { boundAgent, outbound, closing := false, reader := .registering descriptor })
      | _ => some coordinator
    | _ => none
  | .commitAgent id position =>
    match coordinator.sessions[id]?, coordinator.system.calls[position]? with
    | some session, some (.registerAgent called) =>
      match session.reader with
      | .registering descriptor =>
        if called ≠ descriptor then none
        else
          match coordinator.system.step (.finish position) with
          | none => none
          | some (reply, system) =>
            if reply.accepted then
              some (setSession
                { coordinator with
                  system
                  registrations := ⟨id, descriptor.id, descriptor.boot⟩ :: coordinator.registrations }
                id { session with reader := .registered descriptor })
            else some (setSession { coordinator with system } id { session with reader := .idle })
      | _ => none
    | _, _ => none
  | .bindAgent id =>
    match coordinator.sessions[id]? with
    | some session =>
      match session.reader with
      | .registered descriptor =>
        some (coordinator.setSession id
          { session.bindAgent descriptor.id descriptor.boot with reader := .bound descriptor })
      | _ => none
    | none => none
  | .noteSession id =>
    match coordinator.sessions[id]? with
    | some session =>
      match session.reader with
      | .bound descriptor =>
        some (setSession
          { coordinator with
            agentSessions := coordinator.agentSessions.insert descriptor.id (descriptor.boot, id) }
          id { session with reader := .idle })
      | _ => none
    | none => none
  | .deregisterAgent id agent boot force =>
    match coordinator.sessions[id]? with
    | some { boundAgent, outbound, closing := false, reader := .idle } =>
      match coordinator.system.step (.run (.deregisterAgent agent boot force)) with
      | none => none
      | some (reply, system) =>
        some (setSession { coordinator with system } id
          { boundAgent, outbound, closing := false,
            reader := if reply.accepted then .deregistered agent boot else .idle })
    | _ => none
  | .forgetAgent id =>
    match coordinator.sessions[id]? with
    | some session =>
      match session.reader with
      | .deregistered agent boot => some ((coordinator.forgetAgentSession agent boot).setSession id { session with reader := .idle })
      | _ => none
    | none => none
  | .close id reason =>
    match coordinator.sessions[id]? with
    | some session =>
      match session.reader with
      | .idle => some (coordinator.onClosed id session.requestClose reason)
      | _ => none
    | none => none
  | .reportLoss position =>
    match coordinator.losses[position]? with
    | none => none
    | some loss =>
      (coordinator.system.step (.begin (.declareAgentLost loss.agent loss.boot loss.reason))).map fun result =>
        { coordinator with system := result.2, losses := coordinator.losses.eraseIdx position }
  | .enqueue id frame =>
    match coordinator.sessions[id]? with
    | some session => some (coordinator.setSession id (session.enqueue frame coordinator.options.limits).2)
    | none => none
  | .send id =>
    match coordinator.sessions[id]? with
    | some session => some (coordinator.setSession id { session with outbound := session.outbound.tail })
    | none => none
  | .requestClose id =>
    match coordinator.sessions[id]? with
    | some session => some (coordinator.setSession id session.requestClose)
    | none => none
  | .scheduler label =>
    if coordinator.system.Serves label then
      (coordinator.system.step label).map fun result => { coordinator with system := result.2 }
    else none

/-- Performs actions in order. -/
def perform (coordinator : Coordinator) : List Action → Option Coordinator
  | [] => some coordinator
  | action :: actions => (coordinator.step action).bind fun after => after.perform actions

end Coordinator

end AgentScheduler
