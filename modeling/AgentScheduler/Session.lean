import AgentScheduler.Departure

/-! `net/frame.cpp`, `net/session.cpp`: encoded frames, and sessions with a bounded outbound queue. -/
namespace AgentScheduler
open ByteCodec

/-- `MessageType`; the codes start at one. -/
inductive MessageType
  | hello | helloResult | registerAgent | registerResult | publishCapabilities | publishCapabilitiesResult
  | publishHealth | publishHealthResult | publishAvailability | publishAvailabilityResult | publishLoad
  | publishLoadResult | heartbeat | heartbeatResult | submitWork | submitWorkResult | cancelWork | cancelWorkResult
  | supersedeWork | supersedeWorkResult | assignWork | assignmentAck | assignmentReject | workStarted | workReleased
  | workCompleted | workFailed | drainAgent | drainAgentResult | deregisterAgent | deregisterAgentResult | query
  | queryResult | dispatchAssignment | dispatchAssignmentResult | error | shutdownNotice
deriving DecidableEq

def MessageType.code (type : MessageType) : UInt16 := UInt16.ofNat (type.ctorIdx + 1)

/-- `Frame`, without the lengths and checksums that `encode_frame` fills in. -/
structure Frame where
  version : UInt16 := 0
  type : UInt16 := 0
  flags : UInt16 := 0
  reserved : UInt16 := 0
  correlation : UInt64 := 0
  payload : List UInt8 := []
deriving DecidableEq

def frameMagic : UInt32 := 0x44534741
def protocolVersion : UInt16 := 1
/-- `kHeaderCrcOffset`. -/
def headerCrcOffset : Nat := 28

def leBytes16 (value : UInt16) : List UInt8 := [value.toUInt8, (value >>> 8).toUInt8]

/-- `encode_frame`; the checksum of the header is the last word of the header. -/
def encodeFrame (frame : Frame) (maxFrameSize : UInt32) : Option (List UInt8) :=
  if maxFrameSize.toNat < frame.payload.length then none
  else
    let header := leBytes32 frameMagic ++ leBytes16 frame.version ++ leBytes16 frame.type ++ leBytes16 frame.flags ++
      leBytes16 frame.reserved ++ leBytes64 frame.correlation ++ leBytes32 (UInt32.ofNat frame.payload.length) ++
      leBytes32 (crc32 frame.payload)
    some (header ++ leBytes32 (crc32 (header.take headerCrcOffset)) ++ frame.payload)

/-- `make_frame`. -/
def makeFrame (type : MessageType) (correlation : UInt64) : Frame := { version := protocolVersion, type := type.code, correlation }

/-- `encode_message`, given what the encoder of the message writes. -/
def encodeMessage (type : MessageType) (correlation : UInt64) (message : List Put) (limits : ResourceLimits) : Option Frame :=
  match runPuts maxEncodeBytes () () message with
  | .error _ => none
  | .ok payload =>
    if limits.maxPayloadSize.toNat < payload.length then none else some { makeFrame type correlation with payload }

/-- What the reader thread of a session is in the middle of. -/
inductive Reader
  | idle
  /-- between the two sections of `register_agent` -/
  | registering (descriptor : AgentDescriptor)
  /-- the agent is registered and not bound to the session yet -/
  | registered (descriptor : AgentDescriptor)
  /-- the agent is bound to the session, and the coordinator has not noted it yet -/
  | bound (descriptor : AgentDescriptor)
  /-- the agent is deregistered, and the coordinator has not forgotten it yet -/
  | deregistered (agent : AgentId) (boot : AgentBootId)

/-- `Session`, without its socket. -/
structure Session where
  boundAgent : Option (AgentId × AgentBootId) := none
  outbound : List (List UInt8) := []
  /-- `closing_` or `closed_`, after which nothing is queued -/
  closing : Bool := false
  reader : Reader := .idle

namespace Session

/-- `Session::enqueue`, with the limits its options are made from. -/
def enqueue (session : Session) (frame : Frame) (limits : ResourceLimits) : Bool × Session :=
  match encodeFrame frame limits.maxFrameSize with
  | none => (false, session)
  | some bytes =>
    if session.closing then (false, session)
    else if limits.maxSendQueue.toNat ≤ session.outbound.length then (false, session)
    else (true, { session with outbound := session.outbound ++ [bytes] })

/-- `Session::bind_agent`. -/
def bindAgent (session : Session) (agent : AgentId) (boot : AgentBootId) : Session :=
  { session with boundAgent := some (agent, boot) }

/-- `Session::request_close` and `close_locked`. -/
def requestClose (session : Session) : Session := { session with closing := true, outbound := [] }

end Session

end AgentScheduler
