import AgentScheduler.WireRecords
import AgentScheduler.SchedulingPass

/-! `net/protocol.cpp`: the messages of the wire protocol, each with its encoder and its decoder. -/
namespace AgentScheduler
open ByteCodec

/-! ### Messages -/

/-- `QueryKind`; the codes start at one. -/
inductive QueryKind
  | version | summary | agents | work | assignments | leases | fenced | invariants | fairness | capabilities | queues
  | policy
deriving DecidableEq

def QueryKind.code (kind : QueryKind) : UInt16 := UInt16.ofNat (kind.ctorIdx + 1)

def QueryKind.all : List QueryKind := [
  .version, .summary, .agents, .work, .assignments, .leases, .fenced, .invariants, .fairness, .capabilities, .queues,
  .policy]

def MessageType.all : List MessageType := [
  .hello, .helloResult, .registerAgent, .registerResult, .publishCapabilities, .publishCapabilitiesResult, .publishHealth,
  .publishHealthResult, .publishAvailability, .publishAvailabilityResult, .publishLoad, .publishLoadResult, .heartbeat,
  .heartbeatResult, .submitWork, .submitWorkResult, .cancelWork, .cancelWorkResult, .supersedeWork, .supersedeWorkResult,
  .assignWork, .assignmentAck, .assignmentReject, .workStarted, .workReleased, .workCompleted, .workFailed, .drainAgent,
  .drainAgentResult, .deregisterAgent, .deregisterAgentResult, .query, .queryResult, .dispatchAssignment,
  .dispatchAssignmentResult, .error, .shutdownNotice]

structure HelloMessage where
  protocolVersion : UInt32 := 0
  role : Text := ""
  build : Text := ""
  nonce : UInt64 := 0
deriving DecidableEq

structure RegisterAgentMessage where
  descriptor : AgentDescriptor := {}
deriving DecidableEq

/-- The common shape of the messages in which an agent publishes something about itself. -/
structure PublishMessage (Published : Type) where
  agent : AgentId := 0
  boot : AgentBootId := 0
  published : Published
deriving DecidableEq

abbrev PublishCapabilitiesMessage := PublishMessage CapabilityProfile
abbrev PublishHealthMessage := PublishMessage HealthObservation
abbrev PublishAvailabilityMessage := PublishMessage AvailabilityObservation
abbrev PublishLoadMessage := PublishMessage LoadObservation

structure HeartbeatMessage where
  agent : AgentId := 0
  boot : AgentBootId := 0
  registrationGeneration : AgentRegistrationGeneration := 0
deriving DecidableEq

structure SubmitWorkMessage where
  request : WorkRequest := {}
deriving DecidableEq

structure CancelWorkMessage where
  work : WorkId := 0
  generation : WorkGeneration := 0
  reason : Text := ""
deriving DecidableEq

structure SupersedeWorkMessage where
  work : WorkId := 0
  expectedGeneration : WorkGeneration := 0
  replacement : WorkRequest := {}
deriving DecidableEq

structure AssignmentAckMessage where
  binding : AssignmentBinding := {}
  accepted : Bool := true
  reason : Text := ""
deriving DecidableEq

structure AssignmentObservationMessage where
  binding : AssignmentBinding := {}
  reason : Text := ""
deriving DecidableEq

/-- The common shape of the messages that take an agent out of service. -/
structure WithdrawMessage where
  agent : AgentId := 0
  boot : AgentBootId := 0
  force : Bool := false
deriving DecidableEq

abbrev DrainAgentMessage := WithdrawMessage
abbrev DeregisterAgentMessage := WithdrawMessage

structure DispatchAssignmentMessage where
  assignment : AssignmentId := 0
  generation : AssignmentGeneration := 0
deriving DecidableEq

structure QueryMessage where
  kind : QueryKind := .summary
  agent : AgentId := 0
  boot : AgentBootId := 0
  work : WorkId := 0
  assignment : AssignmentId := 0
deriving DecidableEq

structure QueryResultMessage where
  kind : QueryKind := .summary
  json : Text := ""
deriving DecidableEq

/-- `ErrorMessage`; a decoded code may be a word that names no error. -/
structure ErrorMessage where
  code : UInt32 := 0
  operation : Text := ""
  subject : Text := ""
  detail : Text := ""
deriving DecidableEq

/-- `ResultMessage`; a decoded outcome may be a word that names no outcome. -/
structure ResultMessage where
  requestType : MessageType := .hello
  ok : Bool := true
  outcome : UInt32 := 1
  error : WireError := {}
deriving DecidableEq

/-! ### Encoders and decoders -/

/-- Reads one of `values`, whose codes start at one. -/
def readKind {α : Type} (values : List α) (unknown : Text) : Decoder α := do
  let code ← readU16
  match code.toNat with
  | 0 => throw unknown
  | position + 1 =>
    match values[position]? with
    | none => throw unknown
    | some value => return value

section
variable (limits : ResourceLimits)

def HelloMessage.puts (message : HelloMessage) : List Put :=
  [putU32 message.protocolVersion, writeText message.role limits.maxIdentifierSize,
   writeText message.build limits.maxStringSize, putU64 message.nonce].flatten

def HelloMessage.read : Decoder HelloMessage := do
  let protocolVersion ← readU32
  let role ← readText limits.maxIdentifierSize
  let build ← readText limits.maxStringSize
  let nonce ← readU64
  return { protocolVersion, role, build, nonce }

def RegisterAgentMessage.puts (message : RegisterAgentMessage) : List Put := writeDescriptor limits message.descriptor

def RegisterAgentMessage.read : Decoder RegisterAgentMessage := do return { descriptor := ← readDescriptor limits }

def PublishMessage.puts {Published : Type} (put : Published → List Put) (message : PublishMessage Published) : List Put :=
  [writeId message.agent, writeHash message.boot, put message.published].flatten

def PublishMessage.read {Published : Type} (read : Decoder Published) : Decoder (PublishMessage Published) := do
  let agent ← readId
  let boot ← readHash
  let published ← read
  return { agent, boot, published }

def PublishCapabilitiesMessage.puts (message : PublishCapabilitiesMessage) : List Put :=
  PublishMessage.puts (writeCapabilities limits) message
def PublishCapabilitiesMessage.read : Decoder PublishCapabilitiesMessage := PublishMessage.read (readCapabilities limits)

def PublishHealthMessage.puts (message : PublishHealthMessage) : List Put := PublishMessage.puts (encodeHealth limits) message
def PublishHealthMessage.read : Decoder PublishHealthMessage := PublishMessage.read (decodeHealth limits)

def PublishAvailabilityMessage.puts (message : PublishAvailabilityMessage) : List Put :=
  PublishMessage.puts encodeAvailability message
def PublishAvailabilityMessage.read : Decoder PublishAvailabilityMessage := PublishMessage.read decodeAvailability

def PublishLoadMessage.puts (message : PublishLoadMessage) : List Put := PublishMessage.puts (encodeLoad limits) message
def PublishLoadMessage.read : Decoder PublishLoadMessage := PublishMessage.read (decodeLoad limits)

def HeartbeatMessage.puts (message : HeartbeatMessage) : List Put :=
  [writeId message.agent, writeHash message.boot, writeId message.registrationGeneration].flatten

def HeartbeatMessage.read : Decoder HeartbeatMessage := do
  let agent ← readId
  let boot ← readHash
  let registrationGeneration ← readId
  return { agent, boot, registrationGeneration }

def SubmitWorkMessage.puts (message : SubmitWorkMessage) : List Put := writeWorkRequest limits message.request

def SubmitWorkMessage.read : Decoder SubmitWorkMessage := do return { request := ← decodeWorkRequest limits }

def CancelWorkMessage.puts (message : CancelWorkMessage) : List Put :=
  [writeId message.work, writeId message.generation, writeText message.reason limits.maxStringSize].flatten

def CancelWorkMessage.read : Decoder CancelWorkMessage := do
  let work ← readId
  let generation ← readId
  let reason ← readText limits.maxStringSize
  return { work, generation, reason }

def SupersedeWorkMessage.puts (message : SupersedeWorkMessage) : List Put :=
  [writeId message.work, writeId message.expectedGeneration, writeWorkRequest limits message.replacement].flatten

def SupersedeWorkMessage.read : Decoder SupersedeWorkMessage := do
  let work ← readId
  let expectedGeneration ← readId
  let replacement ← decodeWorkRequest limits
  return { work, expectedGeneration, replacement }

def AssignWorkMessage.read : Decoder AssignWorkMessage := do
  let binding ← readBinding
  let kind ← readText limits.maxIdentifierSize
  let payloadRef ← readText limits.maxStringSize
  return { binding, kind, payloadRef }

def AssignmentAckMessage.puts (message : AssignmentAckMessage) : List Put :=
  [writeBinding message.binding, putBool message.accepted, writeText message.reason limits.maxStringSize].flatten

def AssignmentAckMessage.read : Decoder AssignmentAckMessage := do
  let binding ← readBinding
  let accepted ← readBool
  let reason ← readText limits.maxStringSize
  return { binding, accepted, reason }

def AssignmentObservationMessage.puts (message : AssignmentObservationMessage) : List Put :=
  [writeBinding message.binding, writeText message.reason limits.maxStringSize].flatten

def AssignmentObservationMessage.read : Decoder AssignmentObservationMessage := do
  let binding ← readBinding
  let reason ← readText limits.maxStringSize
  return { binding, reason }

def WithdrawMessage.puts (message : WithdrawMessage) : List Put :=
  [writeId message.agent, writeHash message.boot, putBool message.force].flatten

def WithdrawMessage.read : Decoder WithdrawMessage := do
  let agent ← readId
  let boot ← readHash
  let force ← readBool
  return { agent, boot, force }

def DrainAgentMessage.puts (message : DrainAgentMessage) : List Put := WithdrawMessage.puts message
def DrainAgentMessage.read : Decoder DrainAgentMessage := WithdrawMessage.read

def DeregisterAgentMessage.puts (message : DeregisterAgentMessage) : List Put := WithdrawMessage.puts message
def DeregisterAgentMessage.read : Decoder DeregisterAgentMessage := WithdrawMessage.read

def DispatchAssignmentMessage.puts (message : DispatchAssignmentMessage) : List Put :=
  [writeHash message.assignment, writeCounter message.generation].flatten

def DispatchAssignmentMessage.read : Decoder DispatchAssignmentMessage := do
  let assignment ← readHash
  let generation ← readCounter
  return { assignment, generation }

def QueryMessage.puts (message : QueryMessage) : List Put :=
  [putU16 message.kind.code, writeId message.agent, writeHash message.boot, writeId message.work,
   writeHash message.assignment].flatten

def QueryMessage.read : Decoder QueryMessage := do
  let kind ← readKind QueryKind.all "query kind is unknown"
  let agent ← readId
  let boot ← readHash
  let work ← readId
  let assignment ← readHash
  return { kind, agent, boot, work, assignment }

def QueryResultMessage.puts (message : QueryResultMessage) : List Put :=
  [putU16 message.kind.code, writeText message.json limits.maxQueryResultBytes].flatten

def QueryResultMessage.read : Decoder QueryResultMessage := do
  let kind ← readKind QueryKind.all "query result kind is unknown"
  let json ← readText limits.maxQueryResultBytes
  return { kind, json }

def ErrorMessage.puts (message : ErrorMessage) : List Put :=
  [putU32 message.code, writeText message.operation limits.maxIdentifierSize,
   writeText message.subject limits.maxStringSize, writeText message.detail limits.maxStringSize].flatten

def ErrorMessage.read : Decoder ErrorMessage := do
  let code ← readU32
  let operation ← readText limits.maxIdentifierSize
  let subject ← readText limits.maxStringSize
  let detail ← readText limits.maxStringSize
  return { code, operation, subject, detail }

def ResultMessage.puts (message : ResultMessage) : List Put :=
  [putU16 message.requestType.code, putBool message.ok, putU32 message.outcome, encodeError limits message.error].flatten

def ResultMessage.read : Decoder ResultMessage := do
  let requestType ← readKind MessageType.all "result request type is unknown"
  let ok ← readBool
  let outcome ← readU32
  let error ← decodeError limits
  return { requestType, ok, outcome, error }

end

/-! ### One protocol of twenty messages -/

/-- The message types that have an encoder and a decoder. -/
inductive Payload
  | hello | registerAgent | publishCapabilities | publishHealth | publishAvailability | publishLoad | heartbeat | submitWork
  | cancelWork | supersedeWork | assignWork | assignmentAck | assignmentObservation | drainAgent | deregisterAgent
  | dispatchAssignment | query | queryResult | error | result
deriving DecidableEq

namespace Payload

/-- The messages of a type. -/
def Message : Payload → Type
  | hello => HelloMessage
  | registerAgent => RegisterAgentMessage
  | publishCapabilities => PublishCapabilitiesMessage
  | publishHealth => PublishHealthMessage
  | publishAvailability => PublishAvailabilityMessage
  | publishLoad => PublishLoadMessage
  | heartbeat => HeartbeatMessage
  | submitWork => SubmitWorkMessage
  | cancelWork => CancelWorkMessage
  | supersedeWork => SupersedeWorkMessage
  | assignWork => AssignWorkMessage
  | assignmentAck => AssignmentAckMessage
  | assignmentObservation => AssignmentObservationMessage
  | drainAgent => DrainAgentMessage
  | deregisterAgent => DeregisterAgentMessage
  | dispatchAssignment => DispatchAssignmentMessage
  | query => QueryMessage
  | queryResult => QueryResultMessage
  | error => ErrorMessage
  | result => ResultMessage

/-- What `encode` writes of a message. -/
def puts (limits : ResourceLimits) : (type : Payload) → type.Message → List Put
  | hello => HelloMessage.puts limits
  | registerAgent => RegisterAgentMessage.puts limits
  | publishCapabilities => PublishCapabilitiesMessage.puts limits
  | publishHealth => PublishHealthMessage.puts limits
  | publishAvailability => PublishAvailabilityMessage.puts
  | publishLoad => PublishLoadMessage.puts limits
  | heartbeat => HeartbeatMessage.puts
  | submitWork => SubmitWorkMessage.puts limits
  | cancelWork => CancelWorkMessage.puts limits
  | supersedeWork => SupersedeWorkMessage.puts limits
  | assignWork => (AssignWorkMessage.puts · limits)
  | assignmentAck => AssignmentAckMessage.puts limits
  | assignmentObservation => AssignmentObservationMessage.puts limits
  | drainAgent => DrainAgentMessage.puts
  | deregisterAgent => DeregisterAgentMessage.puts
  | dispatchAssignment => DispatchAssignmentMessage.puts
  | query => QueryMessage.puts
  | queryResult => QueryResultMessage.puts limits
  | error => ErrorMessage.puts limits
  | result => ResultMessage.puts limits

/-- `decode` into a freshly constructed message. -/
def decode (limits : ResourceLimits) : (type : Payload) → Decoder type.Message
  | hello => HelloMessage.read limits
  | registerAgent => RegisterAgentMessage.read limits
  | publishCapabilities => PublishCapabilitiesMessage.read limits
  | publishHealth => PublishHealthMessage.read limits
  | publishAvailability => PublishAvailabilityMessage.read
  | publishLoad => PublishLoadMessage.read limits
  | heartbeat => HeartbeatMessage.read
  | submitWork => SubmitWorkMessage.read limits
  | cancelWork => CancelWorkMessage.read limits
  | supersedeWork => SupersedeWorkMessage.read limits
  | assignWork => AssignWorkMessage.read limits
  | assignmentAck => AssignmentAckMessage.read limits
  | assignmentObservation => AssignmentObservationMessage.read limits
  | drainAgent => DrainAgentMessage.read
  | deregisterAgent => DeregisterAgentMessage.read
  | dispatchAssignment => DispatchAssignmentMessage.read
  | query => QueryMessage.read
  | queryResult => QueryResultMessage.read limits
  | error => ErrorMessage.read limits
  | result => ResultMessage.read limits

/-- The texts and lists of the message are within the limits, and its counters are words. -/
def Within (limits : ResourceLimits) : (type : Payload) → type.Message → Prop
  | hello => fun message : HelloMessage =>
    message.role.Within limits.maxIdentifierSize ∧ message.build.Within limits.maxStringSize
  | registerAgent => fun message : RegisterAgentMessage => message.descriptor.Within limits
  | publishCapabilities => fun message : PublishCapabilitiesMessage => message.published.Within limits
  | publishHealth => fun message : PublishHealthMessage => message.published.detail.Within limits.maxStringSize
  | publishAvailability => fun _ => True
  | publishLoad => fun message : PublishLoadMessage => message.published.Within limits
  | heartbeat => fun _ => True
  | submitWork => fun message : SubmitWorkMessage => message.request.Within limits
  | cancelWork => fun message : CancelWorkMessage => message.reason.Within limits.maxStringSize
  | supersedeWork => fun message : SupersedeWorkMessage => message.replacement.Within limits
  | assignWork => fun message : AssignWorkMessage =>
    message.binding.Within ∧ message.kind.Within limits.maxIdentifierSize ∧
      message.payloadRef.Within limits.maxStringSize
  | assignmentAck => fun message : AssignmentAckMessage =>
    message.binding.Within ∧ message.reason.Within limits.maxStringSize
  | assignmentObservation => fun message : AssignmentObservationMessage =>
    message.binding.Within ∧ message.reason.Within limits.maxStringSize
  | drainAgent => fun _ => True
  | deregisterAgent => fun _ => True
  | dispatchAssignment => fun message : DispatchAssignmentMessage => message.generation.IsWord
  | query => fun _ => True
  | queryResult => fun message : QueryResultMessage => message.json.Within limits.maxQueryResultBytes
  | error => fun message : ErrorMessage =>
    message.operation.Within limits.maxIdentifierSize ∧ message.subject.Within limits.maxStringSize ∧
      message.detail.Within limits.maxStringSize
  | result => fun message : ResultMessage => message.error.Within limits

/-- The quality of every piece of evidence in the message is at most 1000. -/
def QualitiesInRange : (type : Payload) → type.Message → Prop
  | publishCapabilities => fun message : PublishCapabilitiesMessage => message.published.QualitiesInRange
  | _ => fun _ => True

/-- The doubles of the message are finite. -/
def isFinite : (type : Payload) → type.Message → Bool
  | publishLoad => fun message : PublishLoadMessage => message.published.isFinite
  | _ => fun _ => true

def messageTooLarge : Text := "encoded message exceeds the maximum encodable size"
def textTooLong : Text := "string exceeds the configured maximum size"

/-- `encode` on an empty writer; nothing that is written before the doubles can fail. -/
def encode (limits : ResourceLimits) (type : Payload) (message : type.Message) : Except Text (List UInt8) :=
  if ¬type.isFinite message then .error "non-finite double is not encodable"
  else
    runPuts maxEncodeBytes messageTooLarge textTooLong (type.puts limits message)

end Payload

/-! ### What the decoders accept -/

section
variable {limits : ResourceLimits}

theorem inverts_kind {α : Type} {values : List α} {index : α → Nat} (h : Enumerates values index) {unknown : Text} :
    Inverts (readKind values unknown) (fun value => putU16 (UInt16.ofNat (index value + 1))) (fun _ => True) where
  exact input value rest := by
    have hindex : index value < values.length := (List.getElem?_eq_some_iff.mp (h.at_index value)).1
    simp only [readKind, bind_ok, inverts_u16.exact, true_and]
    constructor
    · rintro ⟨code, mid, rfl, hread⟩
      cases hcode : code.toNat with
      | zero => rw [hcode] at hread; cases hread
      | succ position =>
        rw [hcode] at hread
        cases hfound : values[position]? with
        | none => simp only [hfound] at hread; cases hread
        | some found =>
          simp only [hfound] at hread
          obtain ⟨rfl, rfl⟩ := Prod.mk.inj (pure_ok.mp hread)
          rw [h.index_eq hfound, ← hcode, UInt16.ofNat_toNat]
    · rintro rfl
      refine ⟨UInt16.ofNat (index value + 1), rest, rfl, ?_⟩
      rw [UInt16.toNat_ofNat_of_lt' (lt_of_le_of_lt (Nat.le_trans hindex h.few) (by decide))]
      simp only [h.at_index]
      rfl
  fits value _ := inverts_u16.fits _ trivial

theorem enumerates_queryKind : Enumerates QueryKind.all QueryKind.ctorIdx :=
  ⟨by rintro (_ | _) <;> rfl, rfl, by decide⟩

theorem enumerates_messageType : Enumerates MessageType.all MessageType.ctorIdx :=
  ⟨by rintro (_ | _) <;> rfl, rfl, by decide⟩

theorem inverts_publish {Published : Type} {read : Decoder Published} {put : Published → List Put}
    {valid : Published → Prop} (h : Inverts read put valid) :
    Inverts (PublishMessage.read read) (PublishMessage.puts put) (fun message => valid message.published) := by
  refine Completes.record
    (.field PublishMessage.agent inverts_id fun _ =>
     .field PublishMessage.boot inverts_hash fun _ =>
     .field PublishMessage.published h fun _ => .done ?_) ?_
  · rintro ⟨⟩
    simp [and_assoc]
  · simp

theorem inverts_withdraw : Inverts WithdrawMessage.read WithdrawMessage.puts (fun _ => True) := by
  refine Completes.record
    (.field WithdrawMessage.agent inverts_id fun _ =>
     .field WithdrawMessage.boot inverts_hash fun _ =>
     .field WithdrawMessage.force inverts_readBool fun _ => .done ?_) ?_
  · rintro ⟨⟩
    simp [and_assoc]
  · simp

theorem inverts_hello : Inverts (HelloMessage.read limits) (HelloMessage.puts limits)
    (fun message => message.role.Within limits.maxIdentifierSize ∧ message.build.Within limits.maxStringSize) := by
  refine Completes.record
    (.field HelloMessage.protocolVersion inverts_readU32 fun _ =>
     .field HelloMessage.role (inverts_text _) fun _ =>
     .field HelloMessage.build (inverts_text _) fun _ =>
     .field HelloMessage.nonce inverts_readU64 fun _ => .done ?_) ?_
  · rintro ⟨⟩
    simp [and_assoc]
  · simp

theorem inverts_heartbeat : Inverts HeartbeatMessage.read HeartbeatMessage.puts
    (fun _ => True) := by
  refine Completes.record
    (.field HeartbeatMessage.agent inverts_id fun _ =>
     .field HeartbeatMessage.boot inverts_hash fun _ =>
     .field HeartbeatMessage.registrationGeneration inverts_id fun _ => .done ?_) ?_
  · rintro ⟨⟩
    simp [and_assoc]
  · simp

theorem inverts_cancelWork : Inverts (CancelWorkMessage.read limits) (CancelWorkMessage.puts limits)
    (fun message => message.reason.Within limits.maxStringSize) := by
  refine Completes.record
    (.field CancelWorkMessage.work inverts_id fun _ =>
     .field CancelWorkMessage.generation inverts_id fun _ =>
     .field CancelWorkMessage.reason (inverts_text _) fun _ => .done ?_) ?_
  · rintro ⟨⟩
    simp [and_assoc]
  · simp

theorem inverts_supersedeWork : Inverts (SupersedeWorkMessage.read limits) (SupersedeWorkMessage.puts limits)
    (fun message => message.replacement.Within limits) := by
  refine Completes.record
    (.field SupersedeWorkMessage.work inverts_id fun _ =>
     .field SupersedeWorkMessage.expectedGeneration inverts_id fun _ =>
     .field SupersedeWorkMessage.replacement inverts_workRequest fun _ => .done ?_) ?_
  · rintro ⟨⟩
    simp [and_assoc]
  · simp

theorem inverts_assignmentAck : Inverts (AssignmentAckMessage.read limits) (AssignmentAckMessage.puts limits)
    (fun message => message.binding.Within ∧ message.reason.Within limits.maxStringSize) := by
  refine Completes.record
    (.field AssignmentAckMessage.binding inverts_binding fun _ =>
     .field AssignmentAckMessage.accepted inverts_readBool fun _ =>
     .field AssignmentAckMessage.reason (inverts_text _) fun _ => .done ?_) ?_
  · rintro ⟨⟩
    simp [and_assoc]
  · simp

theorem inverts_assignmentObservation :
    Inverts (AssignmentObservationMessage.read limits) (AssignmentObservationMessage.puts limits)
    (fun message => message.binding.Within ∧ message.reason.Within limits.maxStringSize) := by
  refine Completes.record
    (.field AssignmentObservationMessage.binding inverts_binding fun _ =>
     .field AssignmentObservationMessage.reason (inverts_text _) fun _ => .done ?_) ?_
  · rintro ⟨⟩
    simp
  · simp

theorem inverts_dispatchAssignment : Inverts DispatchAssignmentMessage.read DispatchAssignmentMessage.puts
    (fun message => message.generation.IsWord) := by
  refine Completes.record
    (.field DispatchAssignmentMessage.assignment inverts_hash fun _ =>
     .field DispatchAssignmentMessage.generation inverts_counter fun _ => .done ?_) ?_
  · rintro ⟨⟩
    simp
  · simp

theorem inverts_query : Inverts QueryMessage.read QueryMessage.puts
    (fun _ => True) := by
  refine Completes.record
    (.field QueryMessage.kind (inverts_kind enumerates_queryKind) fun _ =>
     .field QueryMessage.agent inverts_id fun _ =>
     .field QueryMessage.boot inverts_hash fun _ =>
     .field QueryMessage.work inverts_id fun _ =>
     .field QueryMessage.assignment inverts_hash fun _ => .done ?_) ?_
  · rintro ⟨⟩
    simp [and_assoc]
  · simp

theorem inverts_queryResult : Inverts (QueryResultMessage.read limits) (QueryResultMessage.puts limits)
    (fun message => message.json.Within limits.maxQueryResultBytes) := by
  refine Completes.record
    (.field QueryResultMessage.kind (inverts_kind enumerates_queryKind) fun _ =>
     .field QueryResultMessage.json (inverts_text _) fun _ => .done ?_) ?_
  · rintro ⟨⟩
    simp
  · simp

theorem inverts_errorMessage : Inverts (ErrorMessage.read limits) (ErrorMessage.puts limits)
    (fun message => message.operation.Within limits.maxIdentifierSize ∧ message.subject.Within limits.maxStringSize ∧
      message.detail.Within limits.maxStringSize) := by
  refine Completes.record
    (.field ErrorMessage.code inverts_readU32 fun _ =>
     .field ErrorMessage.operation (inverts_text _) fun _ =>
     .field ErrorMessage.subject (inverts_text _) fun _ =>
     .field ErrorMessage.detail (inverts_text _) fun _ => .done ?_) ?_
  · rintro ⟨⟩
    simp [and_assoc]
  · simp

theorem inverts_result : Inverts (ResultMessage.read limits) (ResultMessage.puts limits)
    (fun message => message.error.Within limits) := by
  refine Completes.record
    (.field ResultMessage.requestType (inverts_kind enumerates_messageType) fun _ =>
     .field ResultMessage.ok inverts_readBool fun _ =>
     .field ResultMessage.outcome inverts_readU32 fun _ =>
     .field ResultMessage.error inverts_error fun _ => .done ?_) ?_
  · rintro ⟨⟩
    simp [and_assoc]
  · simp

theorem inverts_assignWork : Inverts (AssignWorkMessage.read limits) (AssignWorkMessage.puts · limits)
    (fun message => message.binding.Within ∧ message.kind.Within limits.maxIdentifierSize ∧
      message.payloadRef.Within limits.maxStringSize) := by
  have hfields : Inverts (AssignWorkMessage.read limits)
      (fun message => [writeBinding message.binding, writeText message.kind limits.maxIdentifierSize,
        writeText message.payloadRef limits.maxStringSize].flatten)
      (fun message => message.binding.Within ∧ message.kind.Within limits.maxIdentifierSize ∧
        message.payloadRef.Within limits.maxStringSize) := by
    refine Completes.record
      (.field AssignWorkMessage.binding inverts_binding fun _ =>
       .field AssignWorkMessage.kind (inverts_text _) fun _ =>
       .field AssignWorkMessage.payloadRef (inverts_text _) fun _ => .done ?_) ?_
    · rintro ⟨⟩
      simp [and_assoc]
    · simp
  exact hfields.rewrite fun message => by simp [AssignWorkMessage.puts]

/-- Every decoder accepts exactly what its encoder writes of the messages that are within the limits. -/
theorem inverts_message (type : Payload) : Inverts (type.decode limits) (type.puts limits)
    (fun message => type.Within limits message ∧ type.QualitiesInRange message ∧ type.isFinite message = true) := by
  cases type with
  | hello => exact inverts_hello.congr fun _ => (and_iff_left ⟨trivial, rfl⟩).symm
  | registerAgent =>
    refine inverts_descriptor.wrap RegisterAgentMessage.mk RegisterAgentMessage.descriptor ?_ ?_
    · exact fun descriptor h => ⟨⟨h, trivial, rfl⟩, rfl⟩
    · exact fun message h => ⟨h.1, rfl⟩
  | publishCapabilities =>
    exact (inverts_publish inverts_profile).congr fun _ => and_congr_right fun _ => (and_iff_left rfl).symm
  | publishHealth =>
    exact (inverts_publish inverts_health).congr fun _ => (and_iff_left ⟨trivial, rfl⟩).symm
  | publishAvailability =>
    exact (inverts_publish inverts_availability).congr fun _ => (and_iff_left ⟨trivial, rfl⟩).symm
  | publishLoad =>
    exact (inverts_publish inverts_load).congr fun _ => and_congr_right fun _ => (and_iff_right trivial).symm
  | heartbeat => exact inverts_heartbeat.congr fun _ => (and_iff_left ⟨trivial, rfl⟩).symm
  | submitWork =>
    refine inverts_workRequest.wrap SubmitWorkMessage.mk SubmitWorkMessage.request ?_ ?_
    · exact fun request h => ⟨⟨h, trivial, rfl⟩, rfl⟩
    · exact fun message h => ⟨h.1, rfl⟩
  | cancelWork => exact inverts_cancelWork.congr fun _ => (and_iff_left ⟨trivial, rfl⟩).symm
  | supersedeWork =>
    exact inverts_supersedeWork.congr fun _ => (and_iff_left ⟨trivial, rfl⟩).symm
  | assignWork => exact inverts_assignWork.congr fun _ => (and_iff_left ⟨trivial, rfl⟩).symm
  | assignmentAck =>
    exact inverts_assignmentAck.congr fun _ => (and_iff_left ⟨trivial, rfl⟩).symm
  | assignmentObservation =>
    exact inverts_assignmentObservation.congr fun _ => (and_iff_left ⟨trivial, rfl⟩).symm
  | drainAgent => exact inverts_withdraw.congr fun _ => (and_iff_left ⟨trivial, rfl⟩).symm
  | deregisterAgent =>
    exact inverts_withdraw.congr fun _ => (and_iff_left ⟨trivial, rfl⟩).symm
  | dispatchAssignment =>
    exact inverts_dispatchAssignment.congr fun _ => (and_iff_left ⟨trivial, rfl⟩).symm
  | query => exact inverts_query.congr fun _ => (and_iff_left ⟨trivial, rfl⟩).symm
  | queryResult => exact inverts_queryResult.congr fun _ => (and_iff_left ⟨trivial, rfl⟩).symm
  | error => exact inverts_errorMessage.congr fun _ => (and_iff_left ⟨trivial, rfl⟩).symm
  | result => exact inverts_result.congr fun _ => (and_iff_left ⟨trivial, rfl⟩).symm

/-! ### Round trips -/

/-- The two directions of a message type: an encoder that succeeds within the limits, a decoder that gives back what was
encoded and stops right after it, and an encoding that is the only one of its message. -/
structure RoundTrips (limits : ResourceLimits) (type : Payload) : Prop where
  encodes : ∀ message, type.Within limits message → type.QualitiesInRange message → type.isFinite message = true →
    (putBytes (type.puts limits message)).length < 2 ^ 30 →
    type.encode limits message = .ok (putBytes (type.puts limits message))
  decodes : ∀ message bytes, type.Within limits message → type.QualitiesInRange message →
    type.encode limits message = .ok bytes → ∀ rest, type.decode limits (bytes ++ rest) = .ok (message, rest)
  canonical : ∀ bytes message, type.decode limits bytes = .ok (message, []) → bytes.length ≤ 2 ^ 30 →
    type.encode limits message = .ok bytes
  injective : ∀ bytes other message, type.decode limits bytes = .ok (message, []) →
    type.decode limits other = .ok (message, []) → bytes = other
  bounded : ∀ bytes message rest, type.decode limits bytes = .ok (message, rest) →
    ∃ consumed, bytes = consumed ++ rest ∧ ∀ other, type.decode limits (consumed ++ other) = .ok (message, other)

open Payload in
theorem encode_finite {type : Payload} {message : type.Message} (h : type.isFinite message = true) :
    type.encode limits message = runPuts maxEncodeBytes messageTooLarge textTooLong (type.puts limits message) :=
  if_neg (not_not.mpr h)

theorem encode_ok {type : Payload} {message : type.Message} {bytes : List UInt8}
    (h : type.encode limits message = .ok bytes) : type.isFinite message = true ∧ bytes = putBytes (type.puts limits message) := by
  unfold Payload.encode at h
  split at h
  · cases h
  · next hfinite => exact ⟨not_not.mp hfinite, (runPuts_ok _ _ _ h).1⟩

/-- Wire messages round-trip both ways, within the limits, for evidence of a quality that the decoder accepts, and for
encodings that a writer can hold. -/
theorem wire_round_trip (limits : ResourceLimits) (type : Payload) : RoundTrips limits type where
  encodes message hwithin hquality hfinite hsize := by
    rw [encode_finite hfinite]
    exact runPuts_fits ((inverts_message type).fits message ⟨hwithin, hquality, hfinite⟩) (Nat.le_of_lt hsize)
  decodes message bytes hwithin hquality hencode rest := by
    obtain ⟨hfinite, rfl⟩ := encode_ok hencode
    exact ((inverts_message type).exact _ _ _).mpr ⟨⟨hwithin, hquality, hfinite⟩, rfl⟩
  canonical bytes message hdecode hsize := by
    obtain ⟨hvalid, rfl⟩ := ((inverts_message type).exact _ _ _).mp hdecode
    rw [List.append_nil] at hsize ⊢
    rw [encode_finite hvalid.2.2]
    exact runPuts_fits ((inverts_message type).fits message hvalid) hsize
  injective bytes other message hbytes hother := by
    rw [(((inverts_message type).exact _ _ _).mp hbytes).2, (((inverts_message type).exact _ _ _).mp hother).2]
  bounded bytes message rest hdecode := by
    obtain ⟨hvalid, rfl⟩ := ((inverts_message type).exact _ _ _).mp hdecode
    exact ⟨_, rfl, fun other => ((inverts_message type).exact _ _ _).mpr ⟨hvalid, rfl⟩⟩

/-- A hello whose build text takes all that a writer can hold. -/
theorem encode_hello_full {build : List UInt8} (hsize : build.length = 2 ^ 30) {bytes : List UInt8}
    (h : Payload.hello.encode limits ({ role := ⟨[]⟩, build := ⟨build⟩ } : HelloMessage) = .ok bytes) : False := by
  have hfinite : Payload.hello.isFinite ({ role := ⟨[]⟩, build := ⟨build⟩ } : HelloMessage) = true := rfl
  rw [encode_finite hfinite] at h
  have hputs : Payload.hello.puts limits ({ role := ⟨[]⟩, build := ⟨build⟩ } : HelloMessage) =
      [.raw (leBytes32 0), .str [] limits.maxIdentifierSize, .str build limits.maxStringSize, .raw (leBytes64 0)] := rfl
  rw [hputs, runPuts] at h
  simp [Put.run, appendBytes, maxEncodeBytes, hsize, bind, Except.bind] at h
  split at h
  · cases h
  · next hwritten => split at hwritten <;> cases hwritten

/-- Evidence of a quality that its own decoder refuses. -/
def overQualified : PublishCapabilitiesMessage :=
  { published := { capabilities := [{ name := ⟨[]⟩, quality := 1001, provenance := ⟨[]⟩ }] } }

/-- Evidence of a quality above 1000 is encoded and not decoded, and a byte string that no writer can hold is decoded. -/
theorem not_wire_round_trip :
    (¬∀ (limits : ResourceLimits) (type : Payload) (message : type.Message) (bytes : List UInt8),
      type.Within limits message → type.encode limits message = .ok bytes → bytes.length < 2 ^ 30 →
        type.decode limits bytes = .ok (message, [])) ∧
    ¬∀ (limits : ResourceLimits) (type : Payload) (bytes : List UInt8) (message : type.Message),
      type.decode limits bytes = .ok (message, []) → type.encode limits message = .ok bytes := by
  constructor
  · intro hall
    have hwithin : Payload.publishCapabilities.Within {} overQualified := by
      refine ⟨by decide, fun evidence hevidence => ?_⟩
      rw [List.mem_singleton.mp hevidence]
      exact ⟨Nat.zero_le _, Nat.zero_le _⟩
    have hrun : (Payload.publishCapabilities.encode {} overQualified).toOption.map (·.length) = some 105 := by decide +kernel
    cases hencode : Payload.publishCapabilities.encode {} overQualified with
    | error problem => rw [hencode] at hrun; cases hrun
    | ok bytes =>
    rw [hencode] at hrun
    have hlength : bytes.length = 105 := Option.some.inj hrun
    obtain ⟨hvalid, -⟩ := ((inverts_message .publishCapabilities).exact _ _ _).mp
      (hall {} .publishCapabilities overQualified bytes hwithin hencode (by omega))
    exact absurd (hvalid.2.1 _ (List.mem_singleton_self _)) (by decide)
  · intro hall
    have hsize : (List.replicate (2 ^ 30) (0 : UInt8)).length = 2 ^ 30 := List.length_replicate
    generalize List.replicate (2 ^ 30) (0 : UInt8) = build at hsize
    have hwithin : Payload.hello.Within { maxStringSize := 0xFFFFFFFF } ({ role := ⟨[]⟩, build := ⟨build⟩ } : HelloMessage) :=
      ⟨Nat.zero_le _, by rw [Text.Within, Text.size, hsize]; decide⟩
    exact encode_hello_full hsize (hall _ .hello _ _
      (((inverts_message .hello).exact _ _ _).mpr ⟨⟨hwithin, trivial, rfl⟩, (List.append_nil _).symm⟩))

end

end AgentScheduler
