import AgentScheduler.FrameStream

/-! `net/session.cpp`: the reader and the writer threads of the two sessions at the ends of a connection, step by step. -/
namespace AgentScheduler
open Incremental Relation

/-- `IoResult`. -/
inductive IoResult
  | data | wouldBlock | closed | error
deriving DecidableEq

/-- `to_string(FrameCodecStatus)`. -/
def FrameCodecStatus.text : FrameCodecStatus → Text
  | .ok => "OK"
  | .needMoreData => "NEED_MORE_DATA"
  | .badMagic => "BAD_MAGIC"
  | .badVersion => "BAD_VERSION"
  | .badHeaderCrc => "BAD_HEADER_CRC"
  | .unknownMessageType => "UNKNOWN_MESSAGE_TYPE"
  | .payloadTooLarge => "PAYLOAD_TOO_LARGE"
  | .badPayloadCrc => "BAD_PAYLOAD_CRC"
  | .truncatedPayload => "TRUNCATED_PAYLOAD"

/-- Where `Session::writer_loop` stands. -/
inductive WriterLoop
  /-- at the top, with nothing left of the last frame -/
  | choosing
  | writing (frame : List UInt8) (offset : Nat)
  /-- `try_write` has returned `Data` -/
  | wrote (frame : List UInt8) (offset : Nat)
  /-- in `wait_for_io` -/
  | blocked (frame : List UInt8) (offset : Nat)
  | returned
deriving DecidableEq

/-- Where `Session::reader_loop` stands. -/
inductive ReaderLoop
  /-- at the top of the outer loop -/
  | waiting
  | reading
  | decoding
  /-- `on_frame` has returned -/
  | served
  | returned
deriving DecidableEq

/-- `Session` with both of its threads. The last two fields are not the program's: the frames that `enqueue` took, and
those that `on_frame` was called with. -/
structure Endpoint (limits : ResourceLimits) where
  session : Session := {}
  /-- `closed_`, which is stored after `closing_` -/
  closed : Bool := false
  writer : WriterLoop := .choosing
  reader : ReaderLoop := .waiting
  finished : Bool := false
  decoder : FrameStreamDecoder limits.maxFrameSize protocolVersion := .fresh
  framesSent : Nat := 0
  framesReceived : Nat := 0
  droppedFrames : Nat := 0
  protocolViolation : Text := ""
  accepted : List Frame := []
  handled : List Frame := []

/-- What a thread of a session does next, with what the socket answers. -/
inductive EndpointAction
  | enqueue (frame : Frame)
  /-- the locked part of `request_close` -/
  | requestClose
  | storeClosed
  /-- the writer takes a frame or returns -/
  | take
  | write (result : IoResult) (count : Nat)
  | countFrame
  | awaitWritable (closed : Bool)
  /-- the reader waits for input or leaves its loop -/
  | awaitReadable (closed : Bool)
  | read (result : IoResult) (count : Nat)
  | decode
  | checkClosed

/-- The steps of the reader. -/
def EndpointAction.Reads : EndpointAction → Prop
  | .awaitReadable _ | .read _ _ | .decode | .checkClosed => True
  | _ => False

/-- The size of the buffer of `reader_loop`. -/
def readBufferBytes : Nat := 16384

namespace Endpoint

variable {limits : ResourceLimits}

/-- `Session::note_protocol_violation`. -/
def noteProtocolViolation (endpoint : Endpoint limits) (reason : Text) : Endpoint limits :=
  if endpoint.protocolViolation.bytes.isEmpty then { endpoint with protocolViolation := reason } else endpoint

/-- `Session::close_locked`. -/
def closeLocked (endpoint : Endpoint limits) : Endpoint limits :=
  if endpoint.session.closing then endpoint
  else { endpoint with session := endpoint.session.requestClose, closed := true }

/-- `Session::enqueue`, with its counter. -/
def enqueue (endpoint : Endpoint limits) (frame : Frame) : Endpoint limits :=
  match endpoint.session.enqueue frame limits with
  | (true, session) => { endpoint with session, accepted := endpoint.accepted ++ [frame] }
  | (false, session) => { endpoint with session, droppedFrames := endpoint.droppedFrames + 1 }

/-- One step, given what can be read: what is written, and what is left to be read. -/
def step (endpoint : Endpoint limits) (available : List UInt8) :
    EndpointAction → Option (Endpoint limits × List UInt8 × List UInt8)
  | .enqueue frame => some (endpoint.enqueue frame, [], available)
  | .requestClose => some ({ endpoint with session := endpoint.session.requestClose }, [], available)
  | .storeClosed => if endpoint.session.closing then some ({ endpoint with closed := true }, [], available) else none
  | .take =>
    if endpoint.writer ≠ .choosing then none
    else if endpoint.session.closing then some ({ endpoint with writer := .returned }, [], available)
    else
      match endpoint.session.outbound with
      | [] => none
      | frame :: outbound =>
        some ({ endpoint with session := { endpoint.session with outbound }, writer := .writing frame 0 }, [], available)
  | .write result count =>
    match endpoint.writer, result with
    | .writing frame offset, .data =>
      if 0 < count ∧ offset + count ≤ frame.length then
        some ({ endpoint with writer := .wrote frame (offset + count) }, (frame.drop offset).take count, available)
      else none
    | .writing frame offset, .wouldBlock => some ({ endpoint with writer := .blocked frame offset }, [], available)
    | .writing _ _, _ =>
      some ({ (endpoint.noteProtocolViolation "write failed").closeLocked with writer := .returned }, [], available)
    | _, _ => none
  | .countFrame =>
    match endpoint.writer with
    | .wrote frame offset =>
      if offset = frame.length then
        some ({ endpoint with writer := .choosing, framesSent := endpoint.framesSent + 1 }, [], available)
      else some ({ endpoint with writer := .writing frame offset }, [], available)
    | _ => none
  | .awaitWritable closed =>
    match endpoint.writer with
    | .blocked frame offset =>
      if closed ∨ endpoint.closed then some ({ endpoint with writer := .returned }, [], available)
      else some ({ endpoint with writer := .writing frame offset }, [], available)
    | _ => none
  | .awaitReadable closed =>
    if endpoint.reader ≠ .waiting then none
    else if endpoint.finished ∨ endpoint.closed ∨ closed then
      some ({ endpoint.closeLocked with reader := .returned }, [], available)
    else some ({ endpoint with reader := .reading }, [], available)
  | .read result count =>
    if endpoint.reader ≠ .reading then none
    else
      match result with
      | .wouldBlock => some ({ endpoint with reader := .waiting }, [], available)
      | .closed => some ({ endpoint with reader := .waiting, finished := true }, [], available)
      | .error =>
        some ({ endpoint.noteProtocolViolation "read failed" with reader := .waiting, finished := true }, [], available)
      | .data =>
        if 0 < count ∧ count ≤ available.length ∧ count ≤ readBufferBytes then
          some ({ endpoint with decoder := endpoint.decoder.append (available.take count), reader := .decoding }, [],
            available.drop count)
        else none
  | .decode =>
    if endpoint.reader ≠ .decoding then none
    else
      match endpoint.decoder.next with
      | ((some frame, _), decoder) =>
        some ({ endpoint with
          decoder
          reader := .served
          framesReceived := endpoint.framesReceived + 1
          handled := endpoint.handled ++ [frame] }, [], available)
      | ((none, .needMoreData), decoder) => some ({ endpoint with decoder, reader := .reading }, [], available)
      -- the reader does not stop here: it reads on until the socket has nothing more
      | ((none, status), decoder) =>
        let rejected := ({ endpoint with decoder }.noteProtocolViolation ("frame rejected: " ++ status.text)).closeLocked
        some ({ rejected with reader := .reading, finished := true }, [], available)
  | .checkClosed =>
    if endpoint.reader ≠ .served then none
    else if endpoint.closed then some ({ endpoint with reader := .reading, finished := true }, [], available)
    else some ({ endpoint with reader := .decoding }, [], available)

end Endpoint

/-- Two sessions and the bytes on their way between them, oldest first. -/
structure Connection (near far : ResourceLimits) where
  near : Endpoint near := {}
  far : Endpoint far := {}
  outgoing : List UInt8 := []
  incoming : List UInt8 := []

namespace Connection

variable {near far : ResourceLimits}

/-- One step of either end. -/
def step (connection : Connection near far) : EndpointAction ⊕ EndpointAction → Option (Connection near far)
  | .inl action =>
    (connection.near.step connection.incoming action).map fun (endpoint, written, unread) =>
      { connection with near := endpoint, outgoing := connection.outgoing ++ written, incoming := unread }
  | .inr action =>
    (connection.far.step connection.outgoing action).map fun (endpoint, written, unread) =>
      { connection with far := endpoint, incoming := connection.incoming ++ written, outgoing := unread }

def Steps (connection after : Connection near far) : Prop := ∃ action, connection.step action = some after

/-- Reached from a fresh connection by any steps of its four threads and their callers. -/
def Reachable (connection : Connection near far) : Prop := ReflTransGen Steps {} connection

/-- Performs steps in order. -/
def perform (connection : Connection near far) : List (EndpointAction ⊕ EndpointAction) → Option (Connection near far)
  | [] => some connection
  | action :: actions => (connection.step action).bind fun after => after.perform actions

end Connection

/-! ### What a writer has sent -/

namespace Endpoint

variable {limits : ResourceLimits} {endpoint after : Endpoint limits} {action : EndpointAction}
variable {available written unread sent part : List UInt8} {complete current queue : List Frame}

/-- The images of frames, as the writer sends them. -/
def images (limits : ResourceLimits) (frames : List Frame) : List UInt8 :=
  frames.flatMap (frameImage limits.maxFrameSize)

/-- The writer is at a part of the frames it is in the middle of. -/
def Holds (limits : ResourceLimits) (current : List Frame) (part : List UInt8) : WriterLoop → Prop
  | .choosing => current = []
  | .writing frame offset | .wrote frame offset | .blocked frame offset =>
    current.length = 1 ∧ frame = images limits current ∧ offset ≤ frame.length ∧ part = frame.take offset
  | .returned => True

/-- The writer has sent the images of the frames it was given first and a part of the next one, and the rest is queued. -/
structure Sending (endpoint : Endpoint limits) (sent : List UInt8) (complete current queue : List Frame)
    (part : List UInt8) : Prop where
  accepted : endpoint.accepted = complete ++ current ++ queue
  counted : complete.length = endpoint.framesSent
  fits : ∀ frame ∈ endpoint.accepted, frame.payload.length ≤ limits.maxFrameSize.toNat
  single : current.length ≤ 1
  bytes : sent = images limits complete ++ part
  begun : part <+: images limits current
  holds : Holds limits current part endpoint.writer
  queued : endpoint.writer ≠ .returned → endpoint.session.closing = false →
    endpoint.session.outbound = queue.map (frameImage limits.maxFrameSize)

/-- Nothing that leaves the writer and the queue alone matters to what is sent, nor does closing. -/
theorem Sending.keeps (h : endpoint.Sending sent complete current queue part)
    (haccepted : after.accepted = endpoint.accepted) (hcount : after.framesSent = endpoint.framesSent)
    (hwriter : after.writer = endpoint.writer) (hsession : after.session.closing = false →
      endpoint.session.closing = false ∧ after.session.outbound = endpoint.session.outbound) :
    after.Sending sent complete current queue part where
  accepted := haccepted.trans h.accepted
  counted := h.counted.trans hcount.symm
  fits := by
    rw [haccepted]
    exact h.fits
  single := h.single
  bytes := h.bytes
  begun := h.begun
  holds := by
    rw [hwriter]
    exact h.holds
  queued := by
    intro hrunning hopen
    obtain ⟨hbefore, houtbound⟩ := hsession hopen
    rw [houtbound]
    exact h.queued (hwriter ▸ hrunning) hbefore

/-- The writer returns. -/
theorem Sending.returns (h : endpoint.Sending sent complete current queue part)
    (haccepted : after.accepted = endpoint.accepted) (hcount : after.framesSent = endpoint.framesSent)
    (hwriter : after.writer = .returned) : after.Sending sent complete current queue part where
  accepted := haccepted.trans h.accepted
  counted := h.counted.trans hcount.symm
  fits := by
    rw [haccepted]
    exact h.fits
  single := h.single
  bytes := h.bytes
  begun := h.begun
  holds := by
    rw [hwriter]
    trivial
  queued := fun hrunning => absurd hwriter hrunning

@[simp] theorem accepted_noteProtocolViolation (endpoint : Endpoint limits) (reason : Text) :
    (endpoint.noteProtocolViolation reason).accepted = endpoint.accepted ∧
      (endpoint.noteProtocolViolation reason).framesSent = endpoint.framesSent ∧
      (endpoint.noteProtocolViolation reason).writer = endpoint.writer ∧
      (endpoint.noteProtocolViolation reason).session = endpoint.session := by
  rw [noteProtocolViolation]
  split <;> exact ⟨rfl, rfl, rfl, rfl⟩

theorem accepted_closeLocked (endpoint : Endpoint limits) :
    endpoint.closeLocked.accepted = endpoint.accepted ∧ endpoint.closeLocked.framesSent = endpoint.framesSent ∧
      endpoint.closeLocked.writer = endpoint.writer ∧ endpoint.closeLocked.session.closing = true := by
  rw [closeLocked]
  split
  · next hclosing => exact ⟨rfl, rfl, rfl, hclosing⟩
  · exact ⟨rfl, rfl, rfl, rfl⟩

/-- `enqueue` queues the image of the frame, or only counts it. -/
theorem enqueue_cases (endpoint : Endpoint limits) (frame : Frame) :
    (∃ session, endpoint.enqueue frame = { endpoint with session, accepted := endpoint.accepted ++ [frame] } ∧
      frame.payload.length ≤ limits.maxFrameSize.toNat ∧ endpoint.session.closing = false ∧
      endpoint.session.outbound.length < limits.maxSendQueue.toNat ∧
      session.closing = false ∧ session.outbound = endpoint.session.outbound ++ [frameImage limits.maxFrameSize frame]) ∨
    endpoint.enqueue frame = { endpoint with droppedFrames := endpoint.droppedFrames + 1 } := by
  rw [enqueue, Session.enqueue]
  by_cases hsize : frame.payload.length ≤ limits.maxFrameSize.toNat
  · rw [(frameImage_eq hsize).1]
    simp only
    by_cases hclosing : endpoint.session.closing = true
    · rw [if_pos hclosing]
      exact Or.inr rfl
    · rw [if_neg hclosing]
      by_cases hfull : limits.maxSendQueue.toNat ≤ endpoint.session.outbound.length
      · rw [if_pos hfull]
        exact Or.inr rfl
      · rw [if_neg hfull]
        rw [Bool.not_eq_true] at hclosing
        exact Or.inl ⟨_, rfl, hsize, hclosing, Nat.not_le.mp hfull, hclosing, rfl⟩
  · have hnone : encodeFrame frame limits.maxFrameSize = none := by
      rw [encodeFrame, if_pos (Nat.not_le.mp hsize)]
    rw [hnone]
    exact Or.inr rfl

theorem Sending.enqueue (h : endpoint.Sending sent complete current queue part) (frame : Frame) :
    ∃ queue', (endpoint.enqueue frame).Sending sent complete current queue' part := by
  obtain ⟨session, henqueue, hsize, hopen, -, hopen', houtbound⟩ | hdropped := endpoint.enqueue_cases frame
  · refine ⟨queue ++ [frame], ?_⟩
    rw [henqueue]
    refine ⟨?_, h.counted, ?_, h.single, h.bytes, h.begun, h.holds, ?_⟩
    · show endpoint.accepted ++ [frame] = _
      rw [h.accepted, List.append_assoc]
    · intro other hmem
      rcases List.mem_append.mp hmem with hold | hnew
      · exact h.fits other hold
      · rw [List.mem_singleton.mp hnew]
        exact hsize
    · intro hrunning _
      show session.outbound = _
      rw [houtbound, h.queued hrunning hopen, List.map_append]
      rfl
  · refine ⟨queue, ?_⟩
    rw [hdropped]
    exact h.keeps rfl rfl rfl fun hopen => ⟨hopen, rfl⟩

/-- The writer takes the oldest frame of the queue. -/
theorem Sending.take (h : endpoint.Sending sent complete current queue part) {frame : List UInt8}
    {outbound : List (List UInt8)} (hwriter : endpoint.writer = .choosing) (hopen : endpoint.session.closing = false)
    (houtbound : endpoint.session.outbound = frame :: outbound) : ∃ next queue',
    Sending { endpoint with session := { endpoint.session with outbound }, writer := .writing frame 0 }
      sent complete [next] queue' [] := by
  have hcurrent : current = [] := by
    have := h.holds
    rwa [hwriter] at this
  have hpart : part = [] := by
    have := h.begun
    rw [hcurrent] at this
    exact List.prefix_nil.mp this
  have hqueue := h.queued (by rw [hwriter]; decide) hopen
  rw [houtbound] at hqueue
  cases queue with
  | nil => cases hqueue
  | cons next queue =>
    rw [List.map_cons, List.cons.injEq] at hqueue
    refine ⟨next, queue, ?_, h.counted, h.fits, Nat.le_refl 1, ?_, List.nil_prefix, ⟨rfl, ?_, Nat.zero_le _, rfl⟩, ?_⟩
    · show endpoint.accepted = _
      rw [h.accepted, hcurrent, List.append_nil, List.append_assoc]
      rfl
    · rw [h.bytes, hpart]
    · rw [images, List.flatMap_singleton, hqueue.1]
    · intro _ _
      exact hqueue.2

/-- `try_write` takes a part of what is left of the frame. -/
theorem Sending.write (h : endpoint.Sending sent complete current queue part) {frame : List UInt8} {offset count : Nat}
    (hwriter : endpoint.writer = .writing frame offset) (hcount : offset + count ≤ frame.length) :
    Sending { endpoint with writer := .wrote frame (offset + count) } (sent ++ (frame.drop offset).take count)
      complete current queue (frame.take (offset + count)) := by
  have hholds := h.holds
  rw [hwriter] at hholds
  obtain ⟨hone, hframe, -, hpart⟩ := hholds
  refine ⟨h.accepted, h.counted, h.fits, h.single, ?_, ?_, ⟨hone, hframe, hcount, rfl⟩, ?_⟩
  · rw [h.bytes, hpart, List.append_assoc, ← List.take_add]
  · rw [← hframe]
    exact List.take_prefix _ _
  · intro _
    apply h.queued
    rw [hwriter]
    exact WriterLoop.noConfusion

/-- A frame that is sent entirely is complete. -/
theorem Sending.finish (h : endpoint.Sending sent complete current queue part) {frame : List UInt8}
    (hwriter : endpoint.writer = .wrote frame frame.length) :
    Sending { endpoint with writer := .choosing, framesSent := endpoint.framesSent + 1 } sent (complete ++ current)
      [] queue [] := by
  have hholds := h.holds
  rw [hwriter] at hholds
  obtain ⟨hone, hframe, -, hpart⟩ := hholds
  refine ⟨?_, ?_, h.fits, Nat.zero_le 1, ?_, List.nil_prefix, rfl, ?_⟩
  · show endpoint.accepted = _
    rw [h.accepted, List.append_nil]
  · rw [List.length_append, hone, h.counted]
  · rw [h.bytes, hpart, List.take_length, hframe, images, images, images, List.flatMap_append, List.append_nil]
  · intro _
    apply h.queued
    rw [hwriter]
    exact WriterLoop.noConfusion

/-- A write that fails closes the session and ends the writer. -/
theorem Sending.fail (h : endpoint.Sending sent complete current queue part) (reason : Text) :
    Sending { (endpoint.noteProtocolViolation reason).closeLocked with writer := .returned } sent complete current queue
      part := by
  obtain ⟨haccepted, hcount, -, -⟩ := accepted_noteProtocolViolation endpoint reason
  obtain ⟨haccepted', hcount', -, -⟩ := accepted_closeLocked (endpoint.noteProtocolViolation reason)
  exact h.returns (haccepted'.trans haccepted) (hcount'.trans hcount) rfl

/-- Whatever the reader does changes nothing but whether the session is closing. -/
structure KeepsWriter (endpoint after : Endpoint limits) : Prop where
  accepted : after.accepted = endpoint.accepted
  count : after.framesSent = endpoint.framesSent
  writer : after.writer = endpoint.writer
  session : after.session.closing = false → after.session = endpoint.session

theorem KeepsWriter.closeLocked (endpoint : Endpoint limits) : endpoint.KeepsWriter endpoint.closeLocked := by
  obtain ⟨haccepted, hcount, hwriter, hclosing⟩ := accepted_closeLocked endpoint
  refine ⟨haccepted, hcount, hwriter, ?_⟩
  intro hopen
  rw [hclosing] at hopen
  cases hopen

theorem KeepsWriter.noteProtocolViolation (endpoint : Endpoint limits) (reason : Text) :
    endpoint.KeepsWriter (endpoint.noteProtocolViolation reason) := by
  obtain ⟨haccepted, hcount, hwriter, hsession⟩ := accepted_noteProtocolViolation endpoint reason
  exact ⟨haccepted, hcount, hwriter, fun _ => hsession⟩

theorem KeepsWriter.trans {middle : Endpoint limits} (h : endpoint.KeepsWriter middle) (h' : middle.KeepsWriter after) :
    endpoint.KeepsWriter after where
  accepted := h'.accepted.trans h.accepted
  count := h'.count.trans h.count
  writer := h'.writer.trans h.writer
  session := by
    intro hopen
    have hmiddle := h'.session hopen
    exact hmiddle.trans (h.session (hmiddle ▸ hopen))

/-- A step of the reader takes bytes from the front of what is available, and writes none. -/
theorem step_reads (haction : action.Reads) (hstep : endpoint.step available action = some (after, written, unread)) :
    endpoint.KeepsWriter after ∧ written = [] := by
  cases action with
  | awaitReadable closed =>
    rw [step] at hstep
    split_ifs at hstep
    all_goals cases hstep
    · exact ⟨⟨(KeepsWriter.closeLocked endpoint).accepted, (KeepsWriter.closeLocked endpoint).count,
        (KeepsWriter.closeLocked endpoint).writer, (KeepsWriter.closeLocked endpoint).session⟩, rfl⟩
    · exact ⟨⟨rfl, rfl, rfl, fun _ => rfl⟩, rfl⟩
  | read result count =>
    cases result with
    | wouldBlock | closed =>
      simp only [step] at hstep
      split at hstep
      all_goals cases hstep
      exact ⟨⟨rfl, rfl, rfl, fun _ => rfl⟩, rfl⟩
    | error =>
      simp only [step] at hstep
      split at hstep
      all_goals cases hstep
      have hnoted := KeepsWriter.noteProtocolViolation endpoint "read failed"
      exact ⟨⟨hnoted.accepted, hnoted.count, hnoted.writer, hnoted.session⟩, rfl⟩
    | data =>
      simp only [step] at hstep
      split_ifs at hstep
      all_goals cases hstep
      exact ⟨⟨rfl, rfl, rfl, fun _ => rfl⟩, rfl⟩
  | decode =>
    simp only [step] at hstep
    split at hstep
    · cases hstep
    · split at hstep
      · cases hstep
        exact ⟨⟨rfl, rfl, rfl, fun _ => rfl⟩, rfl⟩
      · cases hstep
        exact ⟨⟨rfl, rfl, rfl, fun _ => rfl⟩, rfl⟩
      · rename_i status decoder _ _
        cases hstep
        have hnoted := KeepsWriter.noteProtocolViolation { endpoint with decoder } ("frame rejected: " ++ status.text)
        have hclosed := hnoted.trans (KeepsWriter.closeLocked _)
        exact ⟨⟨hclosed.accepted, hclosed.count, hclosed.writer, hclosed.session⟩, rfl⟩
  | checkClosed =>
    rw [step] at hstep
    split_ifs at hstep
    all_goals
      cases hstep
      exact ⟨⟨rfl, rfl, rfl, fun _ => rfl⟩, rfl⟩
  | _ => exact absurd haction id

/-- Every step sends on where the last one stopped. -/
theorem Sending.step (h : endpoint.Sending sent complete current queue part)
    (hstep : endpoint.step available action = some (after, written, unread)) :
    ∃ complete' current' queue' part', after.Sending (sent ++ written) complete' current' queue' part' := by
  by_cases hreads : action.Reads
  · obtain ⟨hkeeps, rfl⟩ := step_reads hreads hstep
    rw [List.append_nil]
    refine ⟨complete, current, queue, part, h.keeps hkeeps.accepted hkeeps.count hkeeps.writer ?_⟩
    intro hopen
    have hsession := hkeeps.session hopen
    exact ⟨hsession ▸ hopen, by rw [hsession]⟩
  · cases action with
    | enqueue frame =>
      cases hstep
      rw [List.append_nil]
      obtain ⟨queue', henqueue⟩ := h.enqueue frame
      exact ⟨complete, current, queue', part, henqueue⟩
    | requestClose =>
      cases hstep
      rw [List.append_nil]
      exact ⟨complete, current, queue, part, h.keeps rfl rfl rfl fun hopen => by cases hopen⟩
    | storeClosed =>
      rw [step] at hstep
      split at hstep
      · cases hstep
        rw [List.append_nil]
        exact ⟨complete, current, queue, part, h.keeps rfl rfl rfl fun hopen => ⟨hopen, rfl⟩⟩
      · cases hstep
    | take =>
      rw [step] at hstep
      split at hstep
      · cases hstep
      next hwriter =>
        split at hstep
        · cases hstep
          rw [List.append_nil]
          exact ⟨complete, current, queue, part, h.returns rfl rfl rfl⟩
        next hopen =>
          split at hstep
          · cases hstep
          next frame outbound houtbound =>
            cases hstep
            rw [List.append_nil]
            rw [Bool.not_eq_true] at hopen
            obtain ⟨next, queue', htake⟩ := h.take (not_not.mp hwriter) hopen houtbound
            exact ⟨complete, [next], queue', [], htake⟩
    | write result count =>
      cases hwriter : endpoint.writer with
      | writing frame offset =>
        cases result with
        | data =>
          simp only [step, hwriter] at hstep
          split at hstep
          next hcount =>
            cases hstep
            exact ⟨complete, current, queue, _, h.write hwriter hcount.2⟩
          · cases hstep
        | wouldBlock =>
          simp only [step, hwriter] at hstep
          cases hstep
          rw [List.append_nil]
          have hholds := h.holds
          rw [hwriter] at hholds
          refine ⟨complete, current, queue, part, h.accepted, h.counted, h.fits, h.single, h.bytes, h.begun, hholds, ?_⟩
          intro _
          apply h.queued
          rw [hwriter]
          exact WriterLoop.noConfusion
        | closed | error =>
          simp only [step, hwriter] at hstep
          cases hstep
          rw [List.append_nil]
          exact ⟨complete, current, queue, part, h.fail "write failed"⟩
      | choosing | wrote frame offset | blocked frame offset | returned =>
        simp only [step, hwriter] at hstep
        cases hstep
    | countFrame =>
      rw [step] at hstep
      split at hstep
      next frame offset hwriter =>
        split at hstep
        next hall =>
          cases hstep
          rw [List.append_nil]
          exact ⟨complete ++ current, [], queue, [], h.finish (hall ▸ hwriter)⟩
        next =>
          cases hstep
          rw [List.append_nil]
          have hholds := h.holds
          rw [hwriter] at hholds
          refine ⟨complete, current, queue, part, h.accepted, h.counted, h.fits, h.single, h.bytes, h.begun, hholds, ?_⟩
          intro _
          apply h.queued
          rw [hwriter]
          exact WriterLoop.noConfusion
      · cases hstep
    | awaitWritable closed =>
      rw [step] at hstep
      split at hstep
      next frame offset hwriter =>
        split at hstep
        · cases hstep
          rw [List.append_nil]
          exact ⟨complete, current, queue, part, h.returns rfl rfl rfl⟩
        · cases hstep
          rw [List.append_nil]
          have hholds := h.holds
          rw [hwriter] at hholds
          refine ⟨complete, current, queue, part, h.accepted, h.counted, h.fits, h.single, h.bytes, h.begun, hholds, ?_⟩
          intro _
          apply h.queued
          rw [hwriter]
          exact WriterLoop.noConfusion
      · cases hstep
    | _ => exact absurd trivial hreads

/-- What is sent is the images of the accepted frames, in order, and of at most one frame more than are counted. -/
theorem Sending.start (h : endpoint.Sending sent complete current queue part) :
    sent <+: images limits (endpoint.accepted.take (endpoint.framesSent + 1)) := by
  have htake : complete ++ current <+: endpoint.accepted.take (endpoint.framesSent + 1) := by
    rw [List.prefix_take_iff, h.accepted, List.length_append, h.counted]
    exact ⟨List.prefix_append _ _, Nat.add_le_add_left h.single _⟩
  obtain ⟨others, hothers⟩ := htake
  rw [h.bytes, ← hothers, images, images, List.flatMap_append, List.flatMap_append, List.append_assoc]
  exact (List.prefix_append_right_inj _).mpr (h.begun.trans (List.prefix_append _ _))

/-! ### What a reader has handled -/

/-- Why a session may end without a frame being rejected. -/
def Unrejected (endpoint : Endpoint limits) : Prop :=
  endpoint.protocolViolation ∈ (["", "read failed", "write failed"] : List Text)

/-- The reader has tried to decode whatever it has read. -/
def Idle (endpoint : Endpoint limits) : Prop :=
  (endpoint.reader = .waiting ∨ endpoint.reader = .reading) ∧ endpoint.finished = false

/-- The reader has decoded along these actions, and has handled what they delivered. -/
structure Receiving (endpoint : Endpoint limits) (received : List UInt8) (actions : List (Incremental.Action UInt8)) :
    Prop where
  bytes : appended actions = received
  decoder : ((streamDecoder limits.maxFrameSize protocolVersion).run {} actions).2 = endpoint.decoder
  counted : endpoint.framesReceived = endpoint.handled.length
  valid : ∀ frame ∈ endpoint.handled, frame.Valid limits.maxFrameSize protocolVersion
  started : (framesOf limits.maxFrameSize protocolVersion actions).1 <+: endpoint.handled
  clear : (framesOf limits.maxFrameSize protocolVersion actions).2 = none →
    endpoint.handled = (framesOf limits.maxFrameSize protocolVersion actions).1 ∧ endpoint.Unrejected ∧
      (endpoint.Idle → readFrame limits.maxFrameSize protocolVersion endpoint.decoder.pending = .needMore)
  rejected : (framesOf limits.maxFrameSize protocolVersion actions).2 ≠ none →
    endpoint.session.closing = true ∧ endpoint.finished = true

/-- Whatever else happens changes nothing for the reader but whether the session is closing. -/
structure KeepsReader (endpoint after : Endpoint limits) : Prop where
  decoder : after.decoder = endpoint.decoder
  count : after.framesReceived = endpoint.framesReceived
  handled : after.handled = endpoint.handled
  reader : after.reader = endpoint.reader
  finished : after.finished = endpoint.finished
  violation : endpoint.Unrejected → after.Unrejected
  closing : endpoint.session.closing = true → after.session.closing = true

theorem Unrejected.noteProtocolViolation {reason : Text} (h : endpoint.Unrejected)
    (hreason : reason ∈ (["", "read failed", "write failed"] : List Text)) :
    (endpoint.noteProtocolViolation reason).Unrejected := by
  rw [Endpoint.noteProtocolViolation]
  split
  · exact hreason
  · exact h

theorem closing_closeLocked (endpoint : Endpoint limits) : endpoint.closeLocked.session.closing = true :=
  (accepted_closeLocked endpoint).2.2.2

theorem reader_closeLocked (endpoint : Endpoint limits) : endpoint.KeepsReader endpoint.closeLocked := by
  rw [closeLocked]
  split
  · exact ⟨rfl, rfl, rfl, rfl, rfl, id, id⟩
  · exact ⟨rfl, rfl, rfl, rfl, rfl, id, fun _ => rfl⟩

theorem reader_noteProtocolViolation (endpoint : Endpoint limits) (reason : Text) :
    (endpoint.noteProtocolViolation reason).decoder = endpoint.decoder ∧
      (endpoint.noteProtocolViolation reason).framesReceived = endpoint.framesReceived ∧
      (endpoint.noteProtocolViolation reason).handled = endpoint.handled ∧
      (endpoint.noteProtocolViolation reason).reader = endpoint.reader ∧
      (endpoint.noteProtocolViolation reason).finished = endpoint.finished ∧
      (endpoint.noteProtocolViolation reason).session = endpoint.session := by
  rw [noteProtocolViolation]
  split <;> exact ⟨rfl, rfl, rfl, rfl, rfl, rfl⟩

/-- A step that is not the reader's leaves it alone, and reads nothing. -/
theorem step_writes (haction : ¬action.Reads) (hstep : endpoint.step available action = some (after, written, unread)) :
    endpoint.KeepsReader after ∧ unread = available := by
  cases action with
  | enqueue frame =>
    cases hstep
    obtain ⟨session, henqueue, -, hopen, -, -, -⟩ | hdropped := endpoint.enqueue_cases frame
    · rw [henqueue]
      exact ⟨⟨rfl, rfl, rfl, rfl, rfl, id, fun hclosing => by rw [hopen] at hclosing; cases hclosing⟩, rfl⟩
    · rw [hdropped]
      exact ⟨⟨rfl, rfl, rfl, rfl, rfl, id, id⟩, rfl⟩
  | requestClose =>
    cases hstep
    exact ⟨⟨rfl, rfl, rfl, rfl, rfl, id, fun _ => rfl⟩, rfl⟩
  | storeClosed =>
    rw [step] at hstep
    split at hstep
    all_goals cases hstep
    exact ⟨⟨rfl, rfl, rfl, rfl, rfl, id, id⟩, rfl⟩
  | take =>
    rw [step] at hstep
    split at hstep
    · cases hstep
    · split at hstep
      · cases hstep
        exact ⟨⟨rfl, rfl, rfl, rfl, rfl, id, id⟩, rfl⟩
      · split at hstep
        all_goals cases hstep
        exact ⟨⟨rfl, rfl, rfl, rfl, rfl, id, id⟩, rfl⟩
  | write result count =>
    cases hwriter : endpoint.writer with
    | writing frame offset =>
      cases result with
      | data =>
        simp only [step, hwriter] at hstep
        split at hstep
        all_goals cases hstep
        exact ⟨⟨rfl, rfl, rfl, rfl, rfl, id, id⟩, rfl⟩
      | wouldBlock =>
        simp only [step, hwriter] at hstep
        cases hstep
        exact ⟨⟨rfl, rfl, rfl, rfl, rfl, id, id⟩, rfl⟩
      | closed | error =>
        simp only [step, hwriter] at hstep
        cases hstep
        obtain ⟨hdecoder, hcount, hhandled, hreader, hfinished, -⟩ :=
          reader_noteProtocolViolation endpoint "write failed"
        have hclosed := reader_closeLocked (endpoint.noteProtocolViolation "write failed")
        refine ⟨⟨hclosed.decoder.trans hdecoder, hclosed.count.trans hcount, hclosed.handled.trans hhandled,
          hclosed.reader.trans hreader, hclosed.finished.trans hfinished, ?_, fun _ => closing_closeLocked _⟩, rfl⟩
        intro hquiet
        exact hclosed.violation (hquiet.noteProtocolViolation (by simp))
    | choosing | wrote frame offset | blocked frame offset | returned =>
      simp only [step, hwriter] at hstep
      cases hstep
  | countFrame =>
    rw [step] at hstep
    split at hstep
    · split at hstep
      all_goals
        cases hstep
        exact ⟨⟨rfl, rfl, rfl, rfl, rfl, id, id⟩, rfl⟩
    · cases hstep
  | awaitWritable closed =>
    rw [step] at hstep
    split at hstep
    · split at hstep
      all_goals
        cases hstep
        exact ⟨⟨rfl, rfl, rfl, rfl, rfl, id, id⟩, rfl⟩
    · cases hstep
  | _ => exact absurd trivial haction

section Decoding
variable {received chunk : List UInt8} {actions : List (Incremental.Action UInt8)}

theorem Receiving.keeps (h : endpoint.Receiving received actions) (hkeeps : endpoint.KeepsReader after) :
    after.Receiving received actions where
  bytes := h.bytes
  decoder := h.decoder.trans hkeeps.decoder.symm
  counted := by rw [hkeeps.count, hkeeps.handled, h.counted]
  valid := hkeeps.handled ▸ h.valid
  started := hkeeps.handled ▸ h.started
  clear := by
    intro hclear
    obtain ⟨hhandled, hquiet, hidle⟩ := h.clear hclear
    refine ⟨hkeeps.handled.trans hhandled, hkeeps.violation hquiet, ?_⟩
    rw [Idle, hkeeps.reader, hkeeps.finished, hkeeps.decoder]
    exact hidle
  rejected := by
    intro hfault
    exact ⟨hkeeps.closing (h.rejected hfault).1, hkeeps.finished.trans (h.rejected hfault).2⟩

/-- Bytes that are appended are not decoded yet. -/
theorem framesOf_chunk (maxFrameSize : UInt32) (version : UInt16) (actions : List (Incremental.Action UInt8))
    (chunk : List UInt8) : framesOf maxFrameSize version (actions ++ [.append chunk]) = framesOf maxFrameSize version actions := by
  rw [framesOf, Decoder.run_append]
  exact congrArg delivered (List.append_nil _)

theorem Receiving.append (h : endpoint.Receiving received actions) (chunk : List UInt8) :
    Receiving { endpoint with decoder := endpoint.decoder.append chunk, reader := .decoding } (received ++ chunk)
      (actions ++ [.append chunk]) where
  bytes := by
    rw [appended_append, h.bytes, appended, appended, List.append_nil]
  decoder := by
    rw [Decoder.run_append, h.decoder]
    rfl
  counted := h.counted
  valid := h.valid
  started := by
    rw [framesOf_chunk]
    exact h.started
  clear := by
    rw [framesOf_chunk]
    intro hclear
    obtain ⟨hhandled, hquiet, -⟩ := h.clear hclear
    refine ⟨hhandled, hquiet, ?_⟩
    rintro ⟨hplace | hplace, -⟩
    all_goals cases hplace
  rejected := by
    rw [framesOf_chunk]
    exact h.rejected

/-- What one more call of `next` delivers. -/
theorem Receiving.framesOf_next (h : endpoint.Receiving received actions)
    (hclear : (framesOf limits.maxFrameSize protocolVersion actions).2 = none) :
    framesOf limits.maxFrameSize protocolVersion (actions ++ [.next]) =
      ((framesOf limits.maxFrameSize protocolVersion actions).1 ++ (delivered [answerOf endpoint.decoder.next.1]).1,
        (delivered [answerOf endpoint.decoder.next.1]).2) := by
  rw [framesOf, Decoder.run_append, delivered_append _ _ hclear, h.decoder]
  rfl

theorem framesOf_rejected (hfault : (framesOf limits.maxFrameSize protocolVersion actions).2 ≠ none)
    (others : List (Incremental.Action UInt8)) : framesOf limits.maxFrameSize protocolVersion (actions ++ others) =
      framesOf limits.maxFrameSize protocolVersion actions := by
  obtain ⟨status, hstatus⟩ := Option.ne_none_iff_exists'.mp hfault
  rw [framesOf, Decoder.run_append]
  exact delivered_append_fault _ hstatus

theorem Receiving.run_next (h : endpoint.Receiving received actions) :
    ((streamDecoder limits.maxFrameSize protocolVersion).run {} (actions ++ [.next])).2 = endpoint.decoder.next.2 := by
  rw [Decoder.run_append, h.decoder]
  rfl

theorem appended_next (actions : List (Incremental.Action UInt8)) : appended (actions ++ [.next]) = appended actions := by
  rw [appended_append, appended, appended, List.append_nil]

/-- `next` finds a valid frame, the need for more bytes, or a violation. -/
theorem next_cases (decoder : FrameStreamDecoder limits.maxFrameSize protocolVersion) :
    (∃ frame, decoder.next.1 = (some frame, .ok) ∧ frame.Valid limits.maxFrameSize protocolVersion) ∨
    (decoder.next.1 = (none, .needMoreData) ∧ decoder.next.2 = decoder ∧
      readFrame limits.maxFrameSize protocolVersion decoder.pending = .needMore) ∨
    ∃ status, decoder.next.1 = (none, status) ∧ status ≠ .needMoreData := by
  cases hread : readFrame limits.maxFrameSize protocolVersion decoder.pending with
  | needMore =>
    have hnext := FrameStreamDecoder.next_needMore hread
    exact Or.inr (Or.inl ⟨by rw [hnext], by rw [hnext], rfl⟩)
  | fault status =>
    have hnext := FrameStreamDecoder.next_fault hread
    exact Or.inr (Or.inr ⟨status, by rw [hnext], (readFrame_fault_status hread).2⟩)
  | item frame rest => exact Or.inl ⟨frame, (FrameStreamDecoder.next_item hread).1, (readFrame_exact hread).1⟩

/-- A frame is handled. -/
theorem Receiving.handle (h : endpoint.Receiving received actions) {frame : Frame}
    (hnext : endpoint.decoder.next.1 = (some frame, .ok)) (hvalid : frame.Valid limits.maxFrameSize protocolVersion) :
    Receiving
      { endpoint with
        decoder := endpoint.decoder.next.2
        reader := .served
        framesReceived := endpoint.framesReceived + 1
        handled := endpoint.handled ++ [frame] } received (actions ++ [.next]) := by
  refine ⟨(appended_next actions).trans h.bytes, h.run_next, ?_, ?_, ?_, ?_, ?_⟩
  · rw [List.length_append, h.counted]
    rfl
  · intro other hmem
    rcases List.mem_append.mp hmem with hold | hnew
    · exact h.valid other hold
    · rw [List.mem_singleton.mp hnew]
      exact hvalid
  · cases hfault : (framesOf limits.maxFrameSize protocolVersion actions).2 with
    | none =>
      rw [h.framesOf_next hfault, hnext, ← (h.clear hfault).1]
      exact List.prefix_refl _
    | some status =>
      rw [framesOf_rejected (by rw [hfault]; exact Option.some_ne_none status)]
      exact h.started.trans (List.prefix_append _ _)
  · intro hclear
    cases hfault : (framesOf limits.maxFrameSize protocolVersion actions).2 with
    | none =>
      obtain ⟨hhandled, hquiet, -⟩ := h.clear hfault
      rw [h.framesOf_next hfault, hnext]
      refine ⟨?_, hquiet, ?_⟩
      · show endpoint.handled ++ [frame] = _
        rw [hhandled]
        rfl
      · rintro ⟨hplace | hplace, -⟩
        all_goals cases hplace
    | some status =>
      rw [framesOf_rejected (by rw [hfault]; exact Option.some_ne_none status), hfault] at hclear
      cases hclear
  · intro hfault
    apply h.rejected
    intro hclear
    rw [h.framesOf_next hclear, hnext] at hfault
    exact hfault rfl

/-- Nothing more can be decoded. -/
theorem Receiving.drain (h : endpoint.Receiving received actions) (hnext : endpoint.decoder.next.1 = (none, .needMoreData))
    (hread : readFrame limits.maxFrameSize protocolVersion endpoint.decoder.pending = .needMore)
    (hsame : endpoint.decoder.next.2 = endpoint.decoder) :
    Receiving { endpoint with decoder := endpoint.decoder.next.2, reader := .reading } received (actions ++ [.next]) := by
  have hframes : framesOf limits.maxFrameSize protocolVersion (actions ++ [.next]) =
      framesOf limits.maxFrameSize protocolVersion actions := by
    cases hfault : (framesOf limits.maxFrameSize protocolVersion actions).2 with
    | none =>
      rw [h.framesOf_next hfault, hnext]
      simp only [answerOf, delivered, List.append_nil]
      rw [← hfault]
    | some status => exact framesOf_rejected (by rw [hfault]; exact Option.some_ne_none status) _
  refine ⟨(appended_next actions).trans h.bytes, h.run_next, h.counted, h.valid, hframes ▸ h.started, ?_,
    hframes ▸ h.rejected⟩
  rw [hframes]
  intro hclear
  obtain ⟨hhandled, hquiet, -⟩ := h.clear hclear
  refine ⟨hhandled, hquiet, fun _ => ?_⟩
  show readFrame _ _ endpoint.decoder.next.2.pending = _
  rw [hsame]
  exact hread

/-- A frame is rejected, which closes the session. -/
theorem Receiving.reject (h : endpoint.Receiving received actions) {status : FrameCodecStatus}
    (hnext : endpoint.decoder.next.1 = (none, status)) (hstatus : status ≠ .needMoreData) (reason : Text) :
    Receiving
      { ({ endpoint with decoder := endpoint.decoder.next.2 }.noteProtocolViolation reason).closeLocked with
        reader := .reading
        finished := true } received (actions ++ [.next]) := by
  obtain ⟨hdecoder, hcount, hhandled, -, -, -⟩ :=
    reader_noteProtocolViolation { endpoint with decoder := endpoint.decoder.next.2 } reason
  have hclosed := reader_closeLocked ({ endpoint with decoder := endpoint.decoder.next.2 }.noteProtocolViolation reason)
  have hanswer : answerOf endpoint.decoder.next.1 = .fault status := by
    rw [hnext]
    cases status <;> first | rfl | exact absurd rfl hstatus
  have hsame := hclosed.handled.trans hhandled
  have hframes : framesOf limits.maxFrameSize protocolVersion (actions ++ [.next]) =
      ((framesOf limits.maxFrameSize protocolVersion actions).1,
        (framesOf limits.maxFrameSize protocolVersion (actions ++ [.next])).2) ∧
      (framesOf limits.maxFrameSize protocolVersion (actions ++ [.next])).2 ≠ none := by
    cases hfault : (framesOf limits.maxFrameSize protocolVersion actions).2 with
    | none =>
      rw [h.framesOf_next hfault, hanswer]
      simp [delivered]
    | some other =>
      have hrest : framesOf limits.maxFrameSize protocolVersion (actions ++ [.next]) =
        framesOf limits.maxFrameSize protocolVersion actions := framesOf_rejected (by rw [hfault]; simp) _
      rw [hrest, hfault]
      exact ⟨by rw [← hfault], by simp⟩
  refine ⟨(appended_next actions).trans h.bytes, h.run_next.trans (hclosed.decoder.trans hdecoder).symm, ?_, ?_, ?_, ?_,
    fun _ => ⟨closing_closeLocked _, rfl⟩⟩
  · exact (hclosed.count.trans hcount).trans (h.counted.trans (congrArg List.length hsame.symm))
  · intro other hmem
    exact h.valid other (hsame ▸ hmem)
  · rw [hframes.1]
    have hstarted := h.started
    rw [← hsame] at hstarted
    exact hstarted
  · exact fun hclear => absurd hclear hframes.2

/-- Every step reads on where the last one stopped. -/
theorem Receiving.step (h : endpoint.Receiving received actions)
    (hstep : endpoint.step available action = some (after, written, unread)) :
    ∃ chunk actions', available = chunk ++ unread ∧ after.Receiving (received ++ chunk) actions' := by
  by_cases hreads : action.Reads
  · cases action with
    | awaitReadable closed =>
      refine ⟨[], actions, ?_⟩
      rw [List.append_nil]
      rw [step] at hstep
      split at hstep
      · cases hstep
      next hplace =>
        rw [not_not] at hplace
        split at hstep
        · cases hstep
          have hclosed := h.keeps (reader_closeLocked endpoint)
          refine ⟨rfl, hclosed.bytes, hclosed.decoder, hclosed.counted, hclosed.valid, hclosed.started, ?_,
            hclosed.rejected⟩
          intro hclear
          obtain ⟨hhandled, hquiet, -⟩ := hclosed.clear hclear
          refine ⟨hhandled, hquiet, ?_⟩
          rintro ⟨hreturned | hreturned, -⟩
          all_goals cases hreturned
        next hgoes =>
          cases hstep
          refine ⟨rfl, h.bytes, h.decoder, h.counted, h.valid, h.started, ?_, h.rejected⟩
          intro hclear
          obtain ⟨hhandled, hquiet, hidle⟩ := h.clear hclear
          exact ⟨hhandled, hquiet, fun hidle' => hidle ⟨Or.inl hplace, hidle'.2⟩⟩
    | read result count =>
      cases result with
      | data =>
        simp only [step] at hstep
        split_ifs at hstep
        all_goals cases hstep
        exact ⟨available.take count, _, (List.take_append_drop count available).symm, h.append _⟩
      | wouldBlock =>
        simp only [step] at hstep
        split at hstep
        · cases hstep
        next hplace =>
          rw [not_not] at hplace
          cases hstep
          refine ⟨[], actions, rfl, ?_⟩
          rw [List.append_nil]
          refine ⟨h.bytes, h.decoder, h.counted, h.valid, h.started, ?_, h.rejected⟩
          intro hclear
          obtain ⟨hhandled, hquiet, hidle⟩ := h.clear hclear
          exact ⟨hhandled, hquiet, fun hidle' => hidle ⟨Or.inr hplace, hidle'.2⟩⟩
      | closed =>
        simp only [step] at hstep
        split at hstep
        all_goals cases hstep
        refine ⟨[], actions, rfl, ?_⟩
        rw [List.append_nil]
        refine ⟨h.bytes, h.decoder, h.counted, h.valid, h.started, ?_, fun hfault => ⟨(h.rejected hfault).1, rfl⟩⟩
        intro hclear
        obtain ⟨hhandled, hquiet, -⟩ := h.clear hclear
        exact ⟨hhandled, hquiet, fun hidle' => by cases hidle'.2⟩
      | error =>
        simp only [step] at hstep
        split at hstep
        all_goals cases hstep
        refine ⟨[], actions, rfl, ?_⟩
        rw [List.append_nil]
        obtain ⟨hdecoder, hcount, hhandled, -, -, hsession⟩ := reader_noteProtocolViolation endpoint "read failed"
        refine ⟨h.bytes, h.decoder.trans hdecoder.symm,
          hcount.trans (h.counted.trans (congrArg List.length hhandled.symm)), hhandled.symm ▸ h.valid,
          hhandled.symm ▸ h.started, ?_, fun hfault => ?_⟩
        · intro hclear
          obtain ⟨hhandled', hquiet, -⟩ := h.clear hclear
          exact ⟨hhandled.trans hhandled', hquiet.noteProtocolViolation (by simp), fun hidle' => by cases hidle'.2⟩
        · refine ⟨?_, rfl⟩
          show (endpoint.noteProtocolViolation "read failed").session.closing = true
          rw [hsession]
          exact (h.rejected hfault).1
    | decode =>
      simp only [step] at hstep
      split at hstep
      · cases hstep
      · obtain ⟨frame, hnext, hvalid⟩ | ⟨hnext, hsame, hread⟩ | ⟨status, hnext, hstatus⟩ := next_cases endpoint.decoder
        · have hpair : endpoint.decoder.next = ((some frame, .ok), endpoint.decoder.next.2) := Prod.ext hnext rfl
          rw [hpair] at hstep
          cases hstep
          refine ⟨[], actions ++ [.next], rfl, ?_⟩
          rw [List.append_nil]
          exact h.handle hnext hvalid
        · have hpair : endpoint.decoder.next = ((none, .needMoreData), endpoint.decoder.next.2) := Prod.ext hnext rfl
          rw [hpair] at hstep
          cases hstep
          refine ⟨[], actions ++ [.next], rfl, ?_⟩
          rw [List.append_nil]
          exact h.drain hnext hread hsame
        · have hpair : endpoint.decoder.next = ((none, status), endpoint.decoder.next.2) := Prod.ext hnext rfl
          rw [hpair] at hstep
          cases status with
          | needMoreData => exact absurd rfl hstatus
          | _ =>
            cases hstep
            refine ⟨[], actions ++ [.next], rfl, ?_⟩
            rw [List.append_nil]
            exact h.reject hnext hstatus _
    | checkClosed =>
      refine ⟨[], actions, ?_⟩
      rw [List.append_nil]
      rw [step] at hstep
      split at hstep
      · cases hstep
      · split at hstep
        · cases hstep
          refine ⟨rfl, h.bytes, h.decoder, h.counted, h.valid, h.started, ?_, fun hfault => ⟨(h.rejected hfault).1, rfl⟩⟩
          intro hclear
          obtain ⟨hhandled, hquiet, -⟩ := h.clear hclear
          exact ⟨hhandled, hquiet, fun hidle => by cases hidle.2⟩
        · cases hstep
          refine ⟨rfl, h.bytes, h.decoder, h.counted, h.valid, h.started, ?_, h.rejected⟩
          intro hclear
          obtain ⟨hhandled, hquiet, -⟩ := h.clear hclear
          refine ⟨hhandled, hquiet, ?_⟩
          rintro ⟨hplace | hplace, -⟩
          all_goals cases hplace
    | _ => exact absurd hreads id
  · obtain ⟨hkeeps, rfl⟩ := step_writes hreads hstep
    refine ⟨[], actions, rfl, ?_⟩
    rw [List.append_nil]
    exact h.keeps hkeeps

/-- Bytes that valid frames begin with are not rejected. -/
theorem Receiving.honest (h : endpoint.Receiving received actions) {frames : List Frame}
    (hvalid : ∀ frame ∈ frames, frame.Valid limits.maxFrameSize protocolVersion)
    (hstart : received <+: images limits frames) :
    (framesOf limits.maxFrameSize protocolVersion actions).2 = none ∧ endpoint.handled <+: frames := by
  obtain ⟨more, hmore⟩ := hstart
  have hall : streamFrames limits.maxFrameSize protocolVersion (appended (actions ++ [.append more])) = (frames, none) := by
    rw [appended_append, h.bytes, appended, appended, List.append_nil, hmore]
    exact streamFrames_images hvalid
  have hclear : (framesOf limits.maxFrameSize protocolVersion actions).2 = none := by
    cases hfault : (framesOf limits.maxFrameSize protocolVersion actions).2 with
    | none => rfl
    | some status =>
      rw [← framesOf_chunk _ _ actions more] at hfault
      have hframes := framesOf_fault hfault
      rw [hall] at hframes
      rw [← hframes] at hfault
      cases hfault
  refine ⟨hclear, ?_⟩
  rw [(h.clear hclear).1, ← framesOf_chunk _ _ actions more]
  exact (framesOf_start (actions ++ [.append more])).trans (by rw [hall])

/-- When nothing is left to decode, everything that was read is handled. -/
theorem Receiving.idle (h : endpoint.Receiving received actions) (hidle : endpoint.Idle) :
    streamFrames limits.maxFrameSize protocolVersion received = (endpoint.handled, none) := by
  have hclear : (framesOf limits.maxFrameSize protocolVersion actions).2 = none := by
    by_contra hfault
    have hfinished := (h.rejected hfault).2
    rw [hidle.2] at hfinished
    cases hfinished
  obtain ⟨hhandled, -, hread⟩ := h.clear hclear
  have hdecoded := (streamDecoder limits.maxFrameSize protocolVersion).run_clear hclear
  rw [h.decoder] at hdecoded
  have hrest : (frameReader limits.maxFrameSize protocolVersion).readAll
      ((streamDecoder limits.maxFrameSize protocolVersion).pending endpoint.decoder) = ([], none) :=
    FrontReader.readAll_needMore (hread hidle)
  rw [hrest, List.append_nil] at hdecoded
  rw [← h.bytes, hhandled]
  exact hdecoded

end Decoding

/-! ### A session and an arbitrary peer -/

/-- A session that has read these bytes, in whatever chunks and with whatever else going on. -/
inductive Reads : Endpoint limits → List UInt8 → Prop
  | fresh : Reads {} []
  | step {endpoint after : Endpoint limits} {received available written unread chunk : List UInt8}
      {action : EndpointAction} : Reads endpoint received →
      endpoint.step available action = some (after, written, unread) → available = chunk ++ unread →
      Reads after (received ++ chunk)

/-- What a session has handled of the bytes it has read. -/
structure Handles (endpoint : Endpoint limits) (received : List UInt8) : Prop where
  counted : endpoint.framesReceived = endpoint.handled.length
  valid : ∀ frame ∈ endpoint.handled, frame.Valid limits.maxFrameSize protocolVersion
  /-- nothing but the first frames of the stream, until a frame is rejected -/
  inOrder : endpoint.session.closing = false → endpoint.Unrejected ∧
    endpoint.handled <+: (streamFrames limits.maxFrameSize protocolVersion received).1
  /-- a rejection is what the stream holds behind frames that were all handled -/
  rejected : ¬endpoint.Unrejected → endpoint.session.closing = true ∧ endpoint.finished = true ∧
    (streamFrames limits.maxFrameSize protocolVersion received).2 ≠ none ∧
    (streamFrames limits.maxFrameSize protocolVersion received).1 <+: endpoint.handled
  /-- a reader that waits for more has missed nothing -/
  complete : endpoint.Idle → streamFrames limits.maxFrameSize protocolVersion received = (endpoint.handled, none)

theorem receiving_fresh : Receiving ({} : Endpoint limits) [] [] := by
  refine ⟨rfl, rfl, rfl, by simp, List.prefix_refl _, fun _ => ⟨rfl, by simp [Unrejected], fun _ => rfl⟩, ?_⟩
  exact fun hfault => absurd rfl hfault

theorem Reads.receiving {received : List UInt8} (h : Reads endpoint received) :
    ∃ actions, endpoint.Receiving received actions := by
  induction h with
  | fresh => exact ⟨[], receiving_fresh⟩
  | step _ hstep havailable ih =>
    obtain ⟨actions, hreceiving⟩ := ih
    obtain ⟨chunk, actions', hchunk, hafter⟩ := hreceiving.step hstep
    rw [havailable, List.append_cancel_right_eq] at hchunk
    exact ⟨actions', hchunk ▸ hafter⟩

/-- Performs steps in order on the bytes that are available, and returns those it has not read. -/
def feed (endpoint : Endpoint limits) (available : List UInt8) : List EndpointAction → Option (Endpoint limits × List UInt8)
  | [] => some (endpoint, available)
  | action :: actions =>
    (endpoint.step available action).bind fun (after, _, unread) => after.feed unread actions

theorem Reads.feed {actions : List EndpointAction} {received : List UInt8} (h : Reads endpoint received)
    (hfeed : endpoint.feed available actions = some (after, unread)) :
    ∃ chunk, available = chunk ++ unread ∧ Reads after (received ++ chunk) := by
  induction actions generalizing endpoint available received with
  | nil =>
    cases hfeed
    exact ⟨[], rfl, by rwa [List.append_nil]⟩
  | cons action actions ih =>
    rw [Endpoint.feed, Option.bind_eq_some_iff] at hfeed
    obtain ⟨⟨middle, written, left⟩, hstep, hfeed⟩ := hfeed
    obtain ⟨decoded, hreceiving⟩ := h.receiving
    obtain ⟨chunk, -, hchunk, -⟩ := hreceiving.step hstep
    obtain ⟨more, hmore, hreads⟩ := ih (h.step hstep hchunk) hfeed
    refine ⟨chunk ++ more, ?_, ?_⟩
    · rw [hchunk, hmore, List.append_assoc]
    · rwa [List.append_assoc] at hreads

/-- A frame and forty bytes that are none. -/
def garbled : List UInt8 :=
  frameImage 1024 (makeFrame .hello 7) ++ List.replicate 40 7

end Endpoint

/-! ### Two sessions -/

namespace Connection

variable {near far : ResourceLimits} {connection after : Connection near far}

/-- What the near end has sent is what the far end has read and what is on its way. -/
def Carries (connection : Connection near far) : Prop :=
  ∃ sent received complete current queue part actions,
    connection.near.Sending sent complete current queue part ∧ connection.far.Receiving received actions ∧
      sent = received ++ connection.outgoing

theorem Carries.step (h : connection.Carries) (hstep : connection.Steps after) : after.Carries := by
  obtain ⟨sent, received, complete, current, queue, part, actions, hsending, hreceiving, hsent⟩ := h
  obtain ⟨action | action, hstep⟩ := hstep
  · simp only [Connection.step, Option.map_eq_some_iff] at hstep
    obtain ⟨⟨endpoint, written, unread⟩, hendpoint, rfl⟩ := hstep
    obtain ⟨complete', current', queue', part', hsending'⟩ := hsending.step hendpoint
    refine ⟨sent ++ written, received, complete', current', queue', part', actions, hsending', hreceiving, ?_⟩
    rw [hsent, List.append_assoc]
  · simp only [Connection.step, Option.map_eq_some_iff] at hstep
    obtain ⟨⟨endpoint, written, unread⟩, hendpoint, rfl⟩ := hstep
    obtain ⟨chunk, actions', hchunk, hreceiving'⟩ := hreceiving.step hendpoint
    refine ⟨sent, received ++ chunk, complete, current, queue, part, actions', hsending, hreceiving', ?_⟩
    rw [hsent, hchunk, List.append_assoc]

theorem Reachable.carries (h : connection.Reachable) : connection.Carries := by
  induction h with
  | refl =>
    refine ⟨[], [], [], [], [], [], [], ?_, Endpoint.receiving_fresh, rfl⟩
    exact ⟨rfl, rfl, by simp, Nat.zero_le 1, rfl, List.prefix_refl _, rfl, fun _ _ => rfl⟩
  | tail _ hstep ih => exact ih.step hstep

/-- Everything the near end was given has arrived, as far as the sockets go. -/
structure Settled (connection : Connection near far) : Prop where
  isOpen : connection.near.session.closing = false
  queue : connection.near.session.outbound = []
  writer : connection.near.writer = .choosing
  outgoing : connection.outgoing = []
  reader : connection.far.Idle

/-- The frames of the near end reach the handler of the far end in the order they were accepted, each once. -/
structure Delivers (connection : Connection near far) : Prop where
  inOrder : connection.far.handled <+: connection.near.accepted
  counted : connection.far.handled.length ≤ connection.near.framesSent + 1
  unrejected : connection.far.Unrejected
  complete : connection.Settled → connection.far.handled = connection.near.accepted

theorem images_of_le {limits other : ResourceLimits} {frames : List Frame}
    (hfits : ∀ frame ∈ frames, frame.payload.length ≤ limits.maxFrameSize.toNat)
    (hle : limits.maxFrameSize ≤ other.maxFrameSize) : Endpoint.images other frames = Endpoint.images limits frames := by
  apply List.flatMap_congr
  intro frame hmem
  have hfit := hfits frame hmem
  rw [(frameImage_eq hfit).2, (frameImage_eq (Nat.le_trans hfit (UInt32.le_iff_toNat_le.mp hle))).2]

/-- A session delivers what another one accepts, whatever the chunks, the interleaving of the threads and the failures
of the sockets. -/
theorem connection_delivers (hreach : connection.Reachable) (hsize : near.maxFrameSize ≤ far.maxFrameSize)
    (hframes : ∀ frame ∈ connection.near.accepted, frame.version = protocolVersion ∧ isKnownMessageType frame.type) :
    connection.Delivers := by
  obtain ⟨sent, received, complete, current, queue, part, actions, hsending, hreceiving, hsent⟩ := hreach.carries
  have hvalid : ∀ frame ∈ connection.near.accepted, frame.Valid far.maxFrameSize protocolVersion := by
    intro frame hmem
    refine ⟨(hframes frame hmem).2, (hframes frame hmem).1, ?_⟩
    exact Nat.le_trans (hsending.fits frame hmem) (UInt32.le_iff_toNat_le.mp hsize)
  have htaken : ∀ frame ∈ connection.near.accepted.take (connection.near.framesSent + 1),
      frame ∈ connection.near.accepted := fun frame hmem => List.mem_of_mem_take hmem
  have hreceived : received <+: Endpoint.images far (connection.near.accepted.take (connection.near.framesSent + 1)) := by
    rw [images_of_le (fun frame hmem => hsending.fits frame (htaken frame hmem)) hsize]
    apply List.IsPrefix.trans _ hsending.start
    rw [hsent]
    exact List.prefix_append _ _
  obtain ⟨hclear, hhandled⟩ := hreceiving.honest (fun frame hmem => hvalid frame (htaken frame hmem)) hreceived
  refine ⟨hhandled.trans (List.take_prefix _ _), ?_, (hreceiving.clear hclear).2.1, ?_⟩
  · exact Nat.le_trans hhandled.length_le (by rw [List.length_take]; exact Nat.min_le_left _ _)
  · intro hsettled
    have hholds := hsending.holds
    rw [hsettled.writer] at hholds
    have hcurrent : current = [] := hholds
    have hpart : part = [] := by
      have hbegun := hsending.begun
      rw [hcurrent] at hbegun
      exact List.prefix_nil.mp hbegun
    have hqueue : queue = [] := by
      have hqueued := hsending.queued (by rw [hsettled.writer]; exact WriterLoop.noConfusion) hsettled.isOpen
      rw [hsettled.queue] at hqueued
      exact List.map_eq_nil_iff.mp hqueued.symm
    have haccepted : connection.near.accepted = complete := by
      rw [hsending.accepted, hcurrent, hqueue, List.append_nil, List.append_nil]
    have hall : received = Endpoint.images far connection.near.accepted := by
      rw [images_of_le hsending.fits hsize, haccepted]
      have hbytes := hsending.bytes
      rw [hsent, hsettled.outgoing, hpart, List.append_nil, List.append_nil] at hbytes
      exact hbytes
    have hstream := hreceiving.idle hsettled.reader
    rw [hall] at hstream
    have hframesOf := streamFrames_images hvalid
    exact (congrArg Prod.fst hstream).symm.trans (congrArg Prod.fst hframesOf)

theorem perform_reaches {actions : List (EndpointAction ⊕ EndpointAction)} (h : connection.Reachable)
    (hperform : connection.perform actions = some after) : after.Reachable := by
  induction actions generalizing connection with
  | nil =>
    cases hperform
    exact h
  | cons action actions ih =>
    rw [perform, Option.bind_eq_some_iff] at hperform
    obtain ⟨middle, hstep, hperform⟩ := hperform
    exact ih (h.tail ⟨action, hstep⟩) hperform

/-- Two frames, the first of them sent in two pieces and read in three. -/
def talk : List (EndpointAction ⊕ EndpointAction) :=
  [.inl (.enqueue (makeFrame .hello 7)), .inl .take, .inl (.write .data 10), .inr (.awaitReadable false),
    .inr (.read .data 4), .inr .decode, .inl .countFrame, .inl (.enqueue (makeFrame .heartbeat 8)),
    .inl (.write .data 22), .inl .countFrame, .inl .take, .inr (.read .data 20), .inr .decode, .inl (.write .data 32),
    .inl .countFrame, .inr (.read .data 40), .inr .decode, .inr .checkClosed, .inr .decode, .inr .checkClosed,
    .inr .decode]

set_option maxRecDepth 100000 in
theorem connection_delivers_sample : ∃ connection : Connection {} {}, connection.Reachable ∧ connection.Delivers ∧
    connection.far.handled = [makeFrame .hello 7, makeFrame .heartbeat 8] ∧ connection.near.framesSent = 2 := by
  have hrun : (({} : Connection {} {}).perform talk).map
      (fun connection => (connection.near.accepted, connection.far.handled, connection.near.framesSent)) =
      some ([makeFrame .hello 7, makeFrame .heartbeat 8], [makeFrame .hello 7, makeFrame .heartbeat 8], 2) := by
    decide +kernel
  obtain ⟨connection, hperform, hview⟩ := Option.map_eq_some_iff.mp hrun
  simp only [Prod.mk.injEq] at hview
  obtain ⟨haccepted, hhandled, hsent⟩ := hview
  have hreach : connection.Reachable := perform_reaches ReflTransGen.refl hperform
  refine ⟨connection, hreach, connection_delivers hreach (by decide) ?_, hhandled, hsent⟩
  rw [haccepted]
  decide

end Connection

end AgentScheduler
