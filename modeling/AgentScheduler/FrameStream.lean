import AgentScheduler.Session
import AgentScheduler.Container
import AgentScheduler.Incremental

/-! `net/frame.cpp`: the incremental frame decoder over a byte stream. -/
namespace AgentScheduler
open ByteCodec Incremental

/-- `FrameCodecStatus`. -/
inductive FrameCodecStatus
  | ok | needMoreData | badMagic | badVersion | badHeaderCrc | unknownMessageType | payloadTooLarge | badPayloadCrc
  | truncatedPayload
deriving DecidableEq

def frameHeaderBytes : Nat := 32

/-- `is_known_message_type`. -/
def isKnownMessageType (value : UInt16) : Prop :=
  MessageType.hello.code ≤ value ∧ value ≤ MessageType.shutdownNotice.code
deriving Decidable

/-- Joins little-endian bytes, highest first, into a 16-bit word. -/
def joinLe16 (bytes : List UInt8) : UInt16 := bytes.foldr (fun byte acc => (acc <<< 8) ||| byte.toUInt16) 0

/-- `read_u16` at an offset. -/
def fieldAt16 (bytes : List UInt8) (offset : Nat) : UInt16 := joinLe16 (window bytes offset 2)

/-- `FrameStreamDecoder`, for the maximum and the version it is constructed with; the consumed bytes are bytes of the
buffer. -/
structure FrameStreamDecoder (maxFrameSize : UInt32) (expectedVersion : UInt16) where
  buffer : List UInt8 := []
  consumed : Nat := 0
  within : consumed ≤ buffer.length := by simp

namespace FrameStreamDecoder

variable {maxFrameSize : UInt32} {expectedVersion : UInt16}

/-- `append`; what is consumed is dropped when it is everything, or more than 4096 bytes. -/
def append (decoder : FrameStreamDecoder maxFrameSize expectedVersion) (data : List UInt8) :
    FrameStreamDecoder maxFrameSize expectedVersion :=
  if 0 < decoder.consumed ∧ decoder.consumed = decoder.buffer.length then
    { buffer := data, consumed := 0, within := Nat.zero_le _ }
  else if 4096 < decoder.consumed then
    { buffer := decoder.buffer.drop decoder.consumed ++ data, consumed := 0, within := Nat.zero_le _ }
  else
    { buffer := decoder.buffer ++ data
      consumed := decoder.consumed
      within := by
        rw [List.length_append]
        exact Nat.le_add_right_of_le decoder.within }

/-- A decoder that nothing was appended to. -/
def fresh : FrameStreamDecoder maxFrameSize expectedVersion := {}

/-- `reset`. -/
def reset (_decoder : FrameStreamDecoder maxFrameSize expectedVersion) :
    FrameStreamDecoder maxFrameSize expectedVersion := {}

/-- `buffered`. -/
def buffered (decoder : FrameStreamDecoder maxFrameSize expectedVersion) : Nat :=
  decoder.buffer.length - decoder.consumed

/-- `next`: the frame, if any, and the status. -/
def next (decoder : FrameStreamDecoder maxFrameSize expectedVersion) :
    (Option Frame × FrameCodecStatus) × FrameStreamDecoder maxFrameSize expectedVersion :=
  let violation (status : FrameCodecStatus) := ((none, status), decoder.reset)
  if decoder.buffered < frameHeaderBytes then ((none, .needMoreData), decoder)
  else
    let header := decoder.buffer.drop decoder.consumed
    if fieldAt32 header 0 ≠ frameMagic then violation .badMagic
    else
      let version := fieldAt16 header 4
      if version ≠ expectedVersion then violation .badVersion
      else
        let type := fieldAt16 header 6
        if ¬isKnownMessageType type then violation .unknownMessageType
        else if fieldAt32 header headerCrcOffset ≠ crc32 (header.take headerCrcOffset) then violation .badHeaderCrc
        else
          let payloadLength := fieldAt32 header 20
          if maxFrameSize < payloadLength then violation .payloadTooLarge
          else
            let total := frameHeaderBytes + payloadLength.toNat
            if h : decoder.buffered < total then ((none, .needMoreData), decoder)
            else
              let payload := window header frameHeaderBytes payloadLength.toNat
              if crc32 payload ≠ fieldAt32 header 24 then violation .badPayloadCrc
              else
                ((some { version, type, flags := fieldAt16 header 8, reserved := fieldAt16 header 10,
                         correlation := fieldAt64 header 12, payload }, .ok),
                 { decoder with
                   consumed := decoder.consumed + total
                   within := by
                     have := decoder.within
                     rw [buffered] at h
                     omega })

/-- The bytes that are buffered and not consumed. -/
def pending (decoder : FrameStreamDecoder maxFrameSize expectedVersion) : List UInt8 :=
  decoder.buffer.drop decoder.consumed

theorem length_pending (decoder : FrameStreamDecoder maxFrameSize expectedVersion) :
    decoder.pending.length = decoder.buffered := List.length_drop

/-- Dropping consumed bytes is not seen from outside. -/
theorem pending_append (decoder : FrameStreamDecoder maxFrameSize expectedVersion) (data : List UInt8) :
    (decoder.append data).pending = decoder.pending ++ data := by
  rw [append]
  split
  · next h =>
    rw [pending, pending, List.drop_eq_nil_of_le (Nat.le_of_eq h.2.symm)]
    rfl
  · split
    · rfl
    · exact List.drop_append_of_le_length decoder.within

end FrameStreamDecoder

/-! ### Frames at the front of a byte string -/

/-- What is wrong with the header at the front, in the order of the checks. -/
def headerFault (maxFrameSize : UInt32) (expectedVersion : UInt16) (header : List UInt8) : Option FrameCodecStatus :=
  if fieldAt32 header 0 ≠ frameMagic then some .badMagic
  else if fieldAt16 header 4 ≠ expectedVersion then some .badVersion
  else if ¬isKnownMessageType (fieldAt16 header 6) then some .unknownMessageType
  else if fieldAt32 header headerCrcOffset ≠ crc32 (header.take headerCrcOffset) then some .badHeaderCrc
  else if maxFrameSize < fieldAt32 header 20 then some .payloadTooLarge
  else none

/-- The length of the frame at the front, as its header declares it. -/
def frameLength (header : List UInt8) : Nat := frameHeaderBytes + (fieldAt32 header 20).toNat

/-- The frame that the bytes at the front spell. -/
def frameAt (bytes : List UInt8) : Frame where
  version := fieldAt16 bytes 4
  type := fieldAt16 bytes 6
  flags := fieldAt16 bytes 8
  reserved := fieldAt16 bytes 10
  correlation := fieldAt64 bytes 12
  payload := window bytes frameHeaderBytes (fieldAt32 bytes 20).toNat

/-- What stands at the front of the bytes at hand. -/
def readFrame (maxFrameSize : UInt32) (expectedVersion : UInt16) (bytes : List UInt8) :
    Front UInt8 Frame FrameCodecStatus :=
  if bytes.length < frameHeaderBytes then .needMore
  else
    match headerFault maxFrameSize expectedVersion bytes with
    | some status => .fault status
    | none =>
      if bytes.length < frameLength bytes then .needMore
      else if crc32 (frameAt bytes).payload ≠ fieldAt32 bytes 24 then .fault .badPayloadCrc
      else .item (frameAt bytes) (bytes.drop (frameLength bytes))

section Windows
variable {bytes : List UInt8} {offset count : Nat}

/-- More bytes do not change a window that is already there. -/
private theorem window_append (more : List UInt8) (h : offset + count ≤ bytes.length) :
    window (bytes ++ more) offset count = window bytes offset count := by
  rw [window, window, List.drop_append_of_le_length (by omega), List.take_append_of_le_length (by simp; omega)]

private theorem fieldAt16_append (more : List UInt8) (h : offset + 2 ≤ bytes.length) :
    fieldAt16 (bytes ++ more) offset = fieldAt16 bytes offset := by
  rw [fieldAt16, window_append more h, fieldAt16]

private theorem fieldAt32_append (more : List UInt8) (h : offset + 4 ≤ bytes.length) :
    fieldAt32 (bytes ++ more) offset = fieldAt32 bytes offset := by
  rw [fieldAt32_eq, window_append more h, fieldAt32_eq]

private theorem fieldAt64_append (more : List UInt8) (h : offset + 8 ≤ bytes.length) :
    fieldAt64 (bytes ++ more) offset = fieldAt64 bytes offset := by
  rw [fieldAt64_eq, window_append more h, fieldAt64_eq]

end Windows

section Monotone
variable {maxFrameSize : UInt32} {expectedVersion : UInt16} {bytes : List UInt8}

private theorem headerFault_append (more : List UInt8) (h : frameHeaderBytes ≤ bytes.length) :
    headerFault maxFrameSize expectedVersion (bytes ++ more) = headerFault maxFrameSize expectedVersion bytes := by
  rw [frameHeaderBytes] at h
  have hcrc : fieldAt32 (bytes ++ more) headerCrcOffset = fieldAt32 bytes headerCrcOffset :=
    fieldAt32_append more (by rw [headerCrcOffset]; omega)
  have htake : (bytes ++ more).take headerCrcOffset = bytes.take headerCrcOffset :=
    List.take_append_of_le_length (by rw [headerCrcOffset]; omega)
  rw [headerFault, fieldAt32_append more (by omega), fieldAt16_append more (by omega),
    fieldAt16_append more (by omega), hcrc, htake, fieldAt32_append more (by omega), headerFault]

private theorem frameLength_append (more : List UInt8) (h : frameHeaderBytes ≤ bytes.length) :
    frameLength (bytes ++ more) = frameLength bytes := by
  rw [frameHeaderBytes] at h
  rw [frameLength, fieldAt32_append more (by omega), frameLength]

private theorem frameAt_append (more : List UInt8) (h : frameLength bytes ≤ bytes.length) :
    frameAt (bytes ++ more) = frameAt bytes := by
  rw [frameLength, frameHeaderBytes] at h
  simp only [frameAt, frameHeaderBytes]
  rw [fieldAt32_append more (by omega), fieldAt16_append more (by omega), fieldAt16_append more (by omega),
    fieldAt16_append more (by omega), fieldAt16_append more (by omega), fieldAt64_append more (by omega),
    window_append more h]

/-- The checks before the payload. -/
private theorem readFrame_of_header (hlength : frameHeaderBytes ≤ bytes.length)
    (hfault : headerFault maxFrameSize expectedVersion bytes = none) (htotal : frameLength bytes ≤ bytes.length) :
    readFrame maxFrameSize expectedVersion bytes =
      if crc32 (frameAt bytes).payload ≠ fieldAt32 bytes 24 then .fault .badPayloadCrc
      else .item (frameAt bytes) (bytes.drop (frameLength bytes)) := by
  rw [readFrame, if_neg (by omega), hfault]
  simp only
  rw [if_neg (by omega)]

theorem readFrame_item {frame : Frame} {rest : List UInt8}
    (h : readFrame maxFrameSize expectedVersion bytes = .item frame rest) :
    frameHeaderBytes ≤ bytes.length ∧ headerFault maxFrameSize expectedVersion bytes = none ∧
      frameLength bytes ≤ bytes.length ∧ crc32 (frameAt bytes).payload = fieldAt32 bytes 24 ∧
      frame = frameAt bytes ∧ rest = bytes.drop (frameLength bytes) := by
  rw [readFrame] at h
  split at h
  · cases h
  next hlength =>
    split at h
    · cases h
    next hfault =>
      split at h
      · cases h
      next htotal =>
        split at h
        · cases h
        next hcrc =>
          cases h
          exact ⟨by omega, hfault, by omega, not_not.mp hcrc, rfl, rfl⟩

theorem readFrame_fault {status : FrameCodecStatus}
    (h : readFrame maxFrameSize expectedVersion bytes = .fault status) :
    frameHeaderBytes ≤ bytes.length ∧ (headerFault maxFrameSize expectedVersion bytes = some status ∨
      headerFault maxFrameSize expectedVersion bytes = none ∧ frameLength bytes ≤ bytes.length ∧
        crc32 (frameAt bytes).payload ≠ fieldAt32 bytes 24 ∧ status = .badPayloadCrc) := by
  rw [readFrame] at h
  split at h
  · cases h
  next hlength =>
    split at h
    next other hfault =>
      cases h
      exact ⟨by omega, Or.inl hfault⟩
    next hfault =>
      split at h
      · cases h
      next htotal =>
        split at h
        next hcrc =>
          cases h
          exact ⟨by omega, Or.inr ⟨hfault, by omega, hcrc, rfl⟩⟩
        · cases h

end Monotone

/-- `readFrame` never changes its mind when more bytes come. -/
def frameReader (maxFrameSize : UInt32) (expectedVersion : UInt16) : FrontReader UInt8 Frame FrameCodecStatus where
  read := readFrame maxFrameSize expectedVersion
  item_append := by
    intro bytes rest frame more h
    obtain ⟨hlength, hfault, htotal, hcrc, rfl, rfl⟩ := readFrame_item h
    have hmore : bytes.length ≤ (bytes ++ more).length := by simp
    have hcrcField : fieldAt32 (bytes ++ more) 24 = fieldAt32 bytes 24 := by
      rw [frameHeaderBytes] at hlength
      exact fieldAt32_append more (by omega)
    rw [readFrame_of_header (Nat.le_trans hlength hmore) ((headerFault_append more hlength).trans hfault)
      (by rw [frameLength_append more hlength]; omega), frameAt_append more htotal, hcrcField, if_neg (not_not.mpr hcrc),
      frameLength_append more hlength, List.drop_append_of_le_length htotal]
  fault_append := by
    intro bytes status more h
    obtain ⟨hlength, hheader | ⟨hfault, htotal, hcrc, rfl⟩⟩ := readFrame_fault h
    · rw [readFrame, if_neg (by rw [List.length_append]; omega), headerFault_append more hlength, hheader]
    · have hmore : bytes.length ≤ (bytes ++ more).length := by simp
      have hcrcField : fieldAt32 (bytes ++ more) 24 = fieldAt32 bytes 24 := by
        rw [frameHeaderBytes] at hlength
        exact fieldAt32_append more (by omega)
      rw [readFrame_of_header (Nat.le_trans hlength hmore) ((headerFault_append more hlength).trans hfault)
        (by rw [frameLength_append more hlength]; omega), frameAt_append more htotal, hcrcField, if_pos hcrc]
  item_shorter := by
    intro bytes rest frame h
    obtain ⟨hlength, -, htotal, -, -, rfl⟩ := readFrame_item h
    rw [List.length_drop, frameLength]
    rw [frameHeaderBytes] at hlength ⊢
    omega

/-! ### Reading inverts `encode_frame` -/

/-- A frame that the decoder of a session accepts. -/
structure Frame.Valid (maxFrameSize : UInt32) (expectedVersion : UInt16) (frame : Frame) : Prop where
  known : isKnownMessageType frame.type
  version : frame.version = expectedVersion
  fits : frame.payload.length ≤ maxFrameSize.toNat

/-- The bytes of `encode_frame`. -/
def frameImage (maxFrameSize : UInt32) (frame : Frame) : List UInt8 := (encodeFrame frame maxFrameSize).getD []

/-- The header before its checksum. -/
def Frame.headerBytes (frame : Frame) : List UInt8 :=
  leBytes32 frameMagic ++ leBytes16 frame.version ++ leBytes16 frame.type ++ leBytes16 frame.flags ++
    leBytes16 frame.reserved ++ leBytes64 frame.correlation ++ leBytes32 (UInt32.ofNat frame.payload.length) ++
    leBytes32 (crc32 frame.payload)

@[simp] theorem length_leBytes16 (value : UInt16) : (leBytes16 value).length = 2 := rfl

@[simp] theorem Frame.length_headerBytes (frame : Frame) : frame.headerBytes.length = headerCrcOffset := rfl

theorem frameImage_eq {maxFrameSize : UInt32} {frame : Frame} (h : frame.payload.length ≤ maxFrameSize.toNat) :
    encodeFrame frame maxFrameSize = some (frameImage maxFrameSize frame) ∧
      frameImage maxFrameSize frame = frame.headerBytes ++ (leBytes32 (crc32 frame.headerBytes) ++ frame.payload) := by
  have hencode : encodeFrame frame maxFrameSize =
      some (frame.headerBytes ++ (leBytes32 (crc32 frame.headerBytes) ++ frame.payload)) := by
    rw [encodeFrame, if_neg (by omega)]
    change some (frame.headerBytes ++ leBytes32 (crc32 (frame.headerBytes.take headerCrcOffset)) ++ frame.payload) = _
    rw [List.take_of_length_le (Nat.le_of_eq frame.length_headerBytes), List.append_assoc]
  rw [frameImage, hencode]
  exact ⟨rfl, rfl⟩

theorem leBytes16_joinLe16 (a b : UInt8) : leBytes16 (joinLe16 [a, b]) = [a, b] := by
  simp only [joinLe16, leBytes16, List.foldr_cons, List.foldr_nil, List.cons.injEq, and_true]
  refine ⟨?_, ?_⟩
  all_goals
    apply UInt8.toBitVec_inj.mp
    ext i hi
    simp <;> grind

@[simp] theorem joinLe16_leBytes16 (value : UInt16) : joinLe16 (leBytes16 value) = value := by
  have h := leBytes16_joinLe16 value.toUInt8 (value >>> 8).toUInt8
  change leBytes16 (joinLe16 (leBytes16 value)) = leBytes16 value at h
  generalize joinLe16 (leBytes16 value) = joined at h ⊢
  simp only [leBytes16, List.cons.injEq, and_true] at h
  have hlow := congrArg UInt8.toNat h.1
  have hhigh := congrArg UInt8.toNat h.2
  have hjoined := joined.toNat_lt
  have hvalue := value.toNat_lt
  simp only [UInt16.toNat_toUInt8, UInt16.toNat_shiftRight, Nat.shiftRight_eq_div_pow] at hlow hhigh
  apply UInt16.toNat_inj.mp
  change joined.toNat / 256 % 256 = value.toNat / 256 % 256 at hhigh
  omega

section Fields
variable {bytes : List UInt8} {offset : Nat}

private theorem leBytes16_fieldAt16 (h : offset + 2 ≤ bytes.length) :
    leBytes16 (fieldAt16 bytes offset) = window bytes offset 2 := by
  rw [fieldAt16]
  match window bytes offset 2, length_window h with
  | [a, b], _ => exact leBytes16_joinLe16 a b

private theorem leBytes32_fieldAt32 (h : offset + 4 ≤ bytes.length) :
    leBytes32 (fieldAt32 bytes offset) = window bytes offset 4 := by
  rw [fieldAt32_eq]
  match window bytes offset 4, length_window h with
  | [a, b, c, d], _ => exact leBytes32_joinLe32 a b c d

private theorem leBytes64_fieldAt64 (h : offset + 8 ≤ bytes.length) :
    leBytes64 (fieldAt64 bytes offset) = window bytes offset 8 := by
  rw [fieldAt64_eq]
  match window bytes offset 8, length_window h with
  | [a, b, c, d, e, f, g, h], _ => exact leBytes64_joinLe64 a b c d e f g h

private theorem window_join (m n : Nat) : window bytes offset m ++ window bytes (offset + m) n = window bytes offset (m + n) := by
  rw [window, window, window, List.take_add, List.drop_drop]

end Fields

section Exact
variable {maxFrameSize : UInt32} {expectedVersion : UInt16} {bytes rest : List UInt8} {frame : Frame}

private theorem headerFault_none (h : headerFault maxFrameSize expectedVersion bytes = none) :
    fieldAt32 bytes 0 = frameMagic ∧ fieldAt16 bytes 4 = expectedVersion ∧ isKnownMessageType (fieldAt16 bytes 6) ∧
      fieldAt32 bytes headerCrcOffset = crc32 (bytes.take headerCrcOffset) ∧
      (fieldAt32 bytes 20).toNat ≤ maxFrameSize.toNat := by
  rw [headerFault] at h
  split at h
  · cases h
  next hmagic =>
    split at h
    · cases h
    next hversion =>
      split at h
      · cases h
      next hknown =>
        split at h
        · cases h
        next hcrc =>
          split at h
          · cases h
          next hsize =>
            exact ⟨not_not.mp hmagic, not_not.mp hversion, not_not.mp hknown, not_not.mp hcrc,
              UInt32.le_iff_toNat_le.mp (UInt32.not_lt.mp hsize)⟩

/-- An accepted frame is valid, and its image is what was read. -/
theorem readFrame_exact (h : readFrame maxFrameSize expectedVersion bytes = .item frame rest) :
    frame.Valid maxFrameSize expectedVersion ∧ bytes = frameImage maxFrameSize frame ++ rest := by
  obtain ⟨hlength, hfault, htotal, hcrc, rfl, rfl⟩ := readFrame_item h
  obtain ⟨hmagic, hversion, hknown, hheaderCrc, hsize⟩ := headerFault_none hfault
  rw [frameLength, frameHeaderBytes] at htotal
  have hpayload : (frameAt bytes).payload.length = (fieldAt32 bytes 20).toNat := length_window htotal
  have hfits : (frameAt bytes).payload.length ≤ maxFrameSize.toNat := by rw [hpayload]; exact hsize
  refine ⟨⟨hknown, hversion, hfits⟩, ?_⟩
  have hheader : (frameAt bytes).headerBytes = window bytes 0 28 := by
    rw [Frame.headerBytes, hcrc, hpayload, UInt32.ofNat_toNat, ← hmagic]
    simp only [frameAt]
    rw [leBytes32_fieldAt32 (by omega), leBytes16_fieldAt16 (by omega), leBytes16_fieldAt16 (by omega),
      leBytes16_fieldAt16 (by omega), leBytes16_fieldAt16 (by omega), leBytes64_fieldAt64 (by omega),
      leBytes32_fieldAt32 (by omega), leBytes32_fieldAt32 (by omega), window_join 4 2, window_join 6 2, window_join 8 2,
      window_join 10 2, window_join 12 8, window_join 20 4, window_join 24 4]
  have hstored : leBytes32 (crc32 (window bytes 0 28)) = window bytes 28 4 := by
    rw [← take_eq_window]
    have hcrcField := congrArg leBytes32 hheaderCrc
    rw [headerCrcOffset] at hcrcField
    rw [← hcrcField, leBytes32_fieldAt32 (by omega)]
  rw [(frameImage_eq hfits).2, hheader, hstored, ← List.append_assoc, window_join 28 4]
  simp only [frameAt, frameHeaderBytes, frameLength]
  rw [window_join 32, ← take_eq_window, List.take_append_drop]

/-- The image of a valid frame is read back, whatever follows it. -/
theorem readFrame_image (hvalid : frame.Valid maxFrameSize expectedVersion) (rest : List UInt8) :
    readFrame maxFrameSize expectedVersion (frameImage maxFrameSize frame ++ rest) = .item frame rest := by
  have himage := (frameImage_eq hvalid.fits).2
  have hsize : (UInt32.ofNat frame.payload.length).toNat = frame.payload.length :=
    UInt32.toNat_ofNat_of_lt' (Nat.lt_of_le_of_lt hvalid.fits maxFrameSize.toNat_lt)
  obtain ⟨bytes, hbytes⟩ : ∃ bytes, bytes = frameImage maxFrameSize frame ++ rest := ⟨_, rfl⟩
  rw [← hbytes]
  have hrest : bytes = leBytes32 frameMagic ++ (leBytes16 frame.version ++ (leBytes16 frame.type ++
      (leBytes16 frame.flags ++ (leBytes16 frame.reserved ++ (leBytes64 frame.correlation ++
      (leBytes32 (UInt32.ofNat frame.payload.length) ++ (leBytes32 (crc32 frame.payload) ++
      (leBytes32 (crc32 frame.headerBytes) ++ (frame.payload ++ rest))))))))) := by
    rw [hbytes, himage, Frame.headerBytes]
    simp only [List.append_assoc]
  have hheader : bytes.take headerCrcOffset = frame.headerBytes := by
    rw [hbytes, himage, List.append_assoc]
    exact List.take_left' frame.length_headerBytes
  have hmagic : window bytes 0 4 = leBytes32 frameMagic := window_at (hrest.trans (List.nil_append _).symm) rfl rfl
  have hversion : window bytes 4 2 = leBytes16 frame.version := window_at hrest rfl rfl
  rw [← List.append_assoc] at hrest
  have htype : window bytes 6 2 = leBytes16 frame.type := window_at hrest rfl rfl
  rw [← List.append_assoc] at hrest
  have hflags : window bytes 8 2 = leBytes16 frame.flags := window_at hrest rfl rfl
  rw [← List.append_assoc] at hrest
  have hreserved : window bytes 10 2 = leBytes16 frame.reserved := window_at hrest rfl rfl
  rw [← List.append_assoc] at hrest
  have hcorrelation : window bytes 12 8 = leBytes64 frame.correlation := window_at hrest rfl rfl
  rw [← List.append_assoc] at hrest
  have hlength : window bytes 20 4 = leBytes32 (UInt32.ofNat frame.payload.length) := window_at hrest rfl rfl
  rw [← List.append_assoc] at hrest
  have hcrc : window bytes 24 4 = leBytes32 (crc32 frame.payload) := window_at hrest rfl rfl
  rw [← List.append_assoc] at hrest
  have hheaderCrc : window bytes 28 4 = leBytes32 (crc32 frame.headerBytes) := window_at hrest rfl rfl
  rw [← List.append_assoc] at hrest
  have hpayload : window bytes 32 frame.payload.length = frame.payload := window_at hrest rfl rfl
  have hlengthField : (fieldAt32 bytes 20).toNat = frame.payload.length := by
    rw [fieldAt32_eq, hlength, joinLe32_leBytes32, hsize]
  have hfault : headerFault maxFrameSize expectedVersion bytes = none := by
    have hmagicField : fieldAt32 bytes 0 = frameMagic := by rw [fieldAt32_eq, hmagic, joinLe32_leBytes32]
    have hversionField : fieldAt16 bytes 4 = expectedVersion := by
      rw [fieldAt16, hversion, joinLe16_leBytes16, hvalid.version]
    have htypeField : isKnownMessageType (fieldAt16 bytes 6) := by
      rw [fieldAt16, htype, joinLe16_leBytes16]
      exact hvalid.known
    have hcrcField : fieldAt32 bytes headerCrcOffset = crc32 (bytes.take headerCrcOffset) := by
      rw [hheader, fieldAt32_eq, headerCrcOffset, hheaderCrc, joinLe32_leBytes32]
    have hsizeField : ¬maxFrameSize < fieldAt32 bytes 20 := by
      rw [UInt32.lt_iff_toNat_lt, hlengthField]
      exact Nat.not_lt.mpr hvalid.fits
    rw [headerFault, if_neg (not_not.mpr hmagicField), if_neg (not_not.mpr hversionField),
      if_neg (not_not.mpr htypeField), if_neg (not_not.mpr hcrcField), if_neg hsizeField]
  have hframe : frameAt bytes = frame := by
    simp only [frameAt, frameHeaderBytes, fieldAt16, fieldAt64_eq, hversion, htype, hflags, hreserved, hcorrelation,
      hlengthField, hpayload, joinLe16_leBytes16, joinLe64_leBytes64]
  have htotal : frameLength bytes = (frameImage maxFrameSize frame).length := by
    rw [frameLength, hlengthField, himage, List.length_append, List.length_append, Frame.length_headerBytes,
      length_leBytes32, frameHeaderBytes, headerCrcOffset]
    omega
  have hbytesLength : frameLength bytes ≤ bytes.length := by
    rw [htotal, hbytes, List.length_append]
    omega
  have hcrcField : crc32 frame.payload = fieldAt32 bytes 24 := by rw [fieldAt32_eq, hcrc, joinLe32_leBytes32]
  rw [readFrame_of_header (Nat.le_trans (Nat.le_add_right _ _) hbytesLength) hfault hbytesLength, hframe,
    if_neg (not_not.mpr hcrcField), htotal, hbytes, List.drop_left]

end Exact

/-! ### The decoder reads what stands at the front -/

namespace FrameStreamDecoder

variable {maxFrameSize : UInt32} {expectedVersion : UInt16} {decoder : FrameStreamDecoder maxFrameSize expectedVersion}

/-- `next` stops at a fault of the header. -/
private theorem next_header_fault {status : FrameCodecStatus} (hlength : frameHeaderBytes ≤ decoder.buffered)
    (h : headerFault maxFrameSize expectedVersion decoder.pending = some status) :
    decoder.next = ((none, status), decoder.reset) := by
  rw [headerFault] at h
  simp only [next]
  rw [if_neg (Nat.not_lt.mpr hlength)]
  split_ifs at h
  all_goals cases h
  all_goals simp_all [pending]

/-- `next` goes on to the payload when the header has no fault. -/
private theorem next_header_ok (hlength : frameHeaderBytes ≤ decoder.buffered)
    (h : headerFault maxFrameSize expectedVersion decoder.pending = none) :
    (decoder.buffered < frameLength decoder.pending → decoder.next = ((none, .needMoreData), decoder)) ∧
      (frameLength decoder.pending ≤ decoder.buffered →
        (crc32 (frameAt decoder.pending).payload ≠ fieldAt32 decoder.pending 24 →
          decoder.next = ((none, .badPayloadCrc), decoder.reset)) ∧
        (crc32 (frameAt decoder.pending).payload = fieldAt32 decoder.pending 24 →
          decoder.next.1 = (some (frameAt decoder.pending), .ok) ∧
            decoder.next.2.pending = decoder.pending.drop (frameLength decoder.pending))) := by
  rw [headerFault] at h
  split_ifs at h with hmagic hversion hknown hcrc hsize
  simp only [next]
  rw [if_neg (Nat.not_lt.mpr hlength)]
  simp only [pending] at hmagic hversion hknown hcrc hsize
  rw [if_neg hmagic, if_neg hversion, if_neg (not_not.mpr hknown), if_neg hcrc, if_neg hsize]
  refine ⟨fun htotal => dif_pos htotal, fun htotal => ?_⟩
  have hnot : ¬decoder.buffered < frameHeaderBytes + (fieldAt32 (decoder.buffer.drop decoder.consumed) 20).toNat :=
    Nat.not_lt.mpr htotal
  rw [dif_neg hnot]
  refine ⟨fun hpayload => if_pos hpayload, fun hpayload => ?_⟩
  have hstored : ¬crc32 (window (decoder.buffer.drop decoder.consumed) frameHeaderBytes
      (fieldAt32 (decoder.buffer.drop decoder.consumed) 20).toNat) ≠
        fieldAt32 (decoder.buffer.drop decoder.consumed) 24 := not_not.mpr hpayload
  rw [if_neg hstored]
  refine ⟨rfl, ?_⟩
  change decoder.buffer.drop (decoder.consumed + frameLength decoder.pending) = _
  rw [pending, List.drop_drop]

/-- `next` follows what stands at the front of the pending bytes. -/
theorem next_needMore (h : readFrame maxFrameSize expectedVersion decoder.pending = .needMore) :
    decoder.next = ((none, .needMoreData), decoder) := by
  rw [readFrame, length_pending] at h
  split at h
  next hlength =>
    simp only [next]
    rw [if_pos hlength]
  next hlength =>
    split at h
    · cases h
    next hfault =>
      split at h
      next htotal => exact (next_header_ok (Nat.not_lt.mp hlength) hfault).1 htotal
      next htotal => split at h <;> cases h

theorem next_fault {status : FrameCodecStatus}
    (h : readFrame maxFrameSize expectedVersion decoder.pending = .fault status) :
    decoder.next = ((none, status), decoder.reset) := by
  obtain ⟨hlength, hheader | ⟨hfault, htotal, hcrc, rfl⟩⟩ := readFrame_fault h
  · rw [length_pending] at hlength
    exact next_header_fault hlength hheader
  · rw [length_pending] at hlength htotal
    exact ((next_header_ok hlength hfault).2 htotal).1 hcrc

theorem next_item {frame : Frame} {rest : List UInt8}
    (h : readFrame maxFrameSize expectedVersion decoder.pending = .item frame rest) :
    decoder.next.1 = (some frame, .ok) ∧ decoder.next.2.pending = rest := by
  obtain ⟨hlength, hfault, htotal, hcrc, rfl, rfl⟩ := readFrame_item h
  rw [length_pending] at hlength htotal
  exact ((next_header_ok hlength hfault).2 htotal).2 hcrc

end FrameStreamDecoder

/-- What `next` answers, as a status that is neither success nor a request for more is a protocol violation. -/
def answerOf : Option Frame × FrameCodecStatus → Answer Frame FrameCodecStatus
  | (some frame, _) => .item frame
  | (none, .needMoreData) => .needMore
  | (none, status) => .fault status

theorem next_of_answer {answer : Option Frame × FrameCodecStatus} (h : answerOf answer = .needMore) :
    answer = (none, .needMoreData) := by
  obtain ⟨frame, status⟩ := answer
  cases frame with
  | some frame => cases h
  | none => cases status <;> first | rfl | cases h

/-- A violation is neither success nor a request for more. -/
theorem readFrame_fault_status {maxFrameSize : UInt32} {expectedVersion : UInt16} {bytes : List UInt8}
    {status : FrameCodecStatus} (h : readFrame maxFrameSize expectedVersion bytes = .fault status) :
    status ≠ .ok ∧ status ≠ .needMoreData := by
  obtain ⟨-, hheader | ⟨-, -, -, rfl⟩⟩ := readFrame_fault h
  · rw [headerFault] at hheader
    split_ifs at hheader
    all_goals cases hheader
    all_goals exact ⟨by decide, by decide⟩
  · exact ⟨by decide, by decide⟩

/-- The decoder of the source, as an incremental decoder of frames. -/
def streamDecoder (maxFrameSize : UInt32) (expectedVersion : UInt16) :
    Incremental.Decoder (frameReader maxFrameSize expectedVersion) (FrameStreamDecoder maxFrameSize expectedVersion) where
  append := FrameStreamDecoder.append
  next decoder := (answerOf decoder.next.1, decoder.next.2)
  pending := FrameStreamDecoder.pending
  pending_append := FrameStreamDecoder.pending_append
  next_needMore := by
    intro decoder h
    rw [FrameStreamDecoder.next_needMore h]
    rfl
  next_fault := by
    intro decoder status h
    rw [FrameStreamDecoder.next_fault h]
    obtain ⟨-, hneed⟩ := readFrame_fault_status h
    cases status <;> first | rfl | exact absurd rfl hneed
  next_item := by
    intro decoder frame rest h
    obtain ⟨hanswer, hpending⟩ := FrameStreamDecoder.next_item h
    rw [hanswer]
    exact ⟨rfl, hpending⟩

/-- The status agrees with the frame, and a request for more leaves the decoder as it is, with fewer bytes than a frame
can have. -/
theorem FrameStreamDecoder.next_status {maxFrameSize : UInt32} {expectedVersion : UInt16}
    (decoder : FrameStreamDecoder maxFrameSize expectedVersion) :
    (decoder.next.1.2 = .ok ↔ decoder.next.1.1.isSome) ∧
      (decoder.next.1.2 = .needMoreData →
        decoder.next.2 = decoder ∧ decoder.buffered < frameHeaderBytes + maxFrameSize.toNat) := by
  cases h : readFrame maxFrameSize expectedVersion decoder.pending with
  | needMore =>
    rw [next_needMore h]
    refine ⟨by simp, fun _ => ⟨rfl, ?_⟩⟩
    rw [readFrame, length_pending] at h
    split at h
    next hlength => exact Nat.lt_of_lt_of_le hlength (Nat.le_add_right _ _)
    next hlength =>
      split at h
      · cases h
      next hfault =>
        split at h
        next htotal =>
          have hsize := (headerFault_none hfault).2.2.2.2
          rw [frameLength] at htotal
          omega
        next htotal => split at h <;> cases h
  | fault status =>
    obtain ⟨hok, hneed⟩ := readFrame_fault_status h
    rw [next_fault h]
    exact ⟨by simpa using hok, fun hstatus => absurd hstatus hneed⟩
  | item frame rest =>
    rw [(next_item h).1]
    exact ⟨by simp, fun hstatus => by cases hstatus⟩

/-! ### Chunks and calls -/

/-- The answers of a fresh decoder along a list of `append` and `next` calls, as delivered frames and violation. -/
def framesOf (maxFrameSize : UInt32) (expectedVersion : UInt16) (actions : List (Incremental.Action UInt8)) :
    List Frame × Option FrameCodecStatus :=
  delivered ((streamDecoder maxFrameSize expectedVersion).run {} actions).1

/-- The frames a byte stream holds, up to its first protocol violation. -/
def streamFrames (maxFrameSize : UInt32) (expectedVersion : UInt16) (bytes : List UInt8) :
    List Frame × Option FrameCodecStatus :=
  (frameReader maxFrameSize expectedVersion).readAll bytes

/-- `next`, called this many times. -/
def nexts (count : Nat) : List (Incremental.Action UInt8) := List.replicate count .next

section Chunks
variable {maxFrameSize : UInt32} {expectedVersion : UInt16}

/-- A stream of valid images holds exactly their frames. -/
theorem streamFrames_images {frames : List Frame} (hvalid : ∀ frame ∈ frames, frame.Valid maxFrameSize expectedVersion) :
    streamFrames maxFrameSize expectedVersion (frames.flatMap (frameImage maxFrameSize)) = (frames, none) := by
  apply FrontReader.readAll_images
  · rfl
  · intro frame hmem rest
    exact readFrame_image (hvalid frame hmem) rest

theorem framesOf_complete (actions : List (Incremental.Action UInt8)) {count : Nat}
    (hcount : (streamFrames maxFrameSize expectedVersion (appended actions)).1.length < count) :
    framesOf maxFrameSize expectedVersion (actions ++ nexts count) =
      streamFrames maxFrameSize expectedVersion (appended actions) :=
  (streamDecoder maxFrameSize expectedVersion).run_complete {} actions hcount

theorem framesOf_fault {actions : List (Incremental.Action UInt8)} {status : FrameCodecStatus}
    (h : (framesOf maxFrameSize expectedVersion actions).2 = some status) :
    streamFrames maxFrameSize expectedVersion (appended actions) = framesOf maxFrameSize expectedVersion actions :=
  (streamDecoder maxFrameSize expectedVersion).run_fault h

theorem framesOf_start (actions : List (Incremental.Action UInt8)) :
    (framesOf maxFrameSize expectedVersion actions).1 <+:
      (streamFrames maxFrameSize expectedVersion (appended actions)).1 :=
  (streamDecoder maxFrameSize expectedVersion).run_start {} actions

/-- Every delivered frame is valid. -/
theorem streamFrames_valid (bytes : List UInt8) :
    ∀ frame ∈ (streamFrames maxFrameSize expectedVersion bytes).1, frame.Valid maxFrameSize expectedVersion :=
  FrontReader.readAll_forall (fun h => (readFrame_exact h).1) bytes

/-- Valid frames arrive exactly as they were encoded, and nothing else does. -/
structure DeliversFrames (maxFrameSize : UInt32) (expectedVersion : UInt16) (frames : List Frame)
    (actions : List (Incremental.Action UInt8)) : Prop where
  /-- every answer so far is the next frame or a request for more -/
  inOrder : (framesOf maxFrameSize expectedVersion actions).1 <+: frames ∧
    (framesOf maxFrameSize expectedVersion actions).2 = none
  /-- enough further calls deliver all of them, and then there is no more -/
  complete : ∀ count > frames.length, framesOf maxFrameSize expectedVersion (actions ++ nexts count) = (frames, none) ∧
    ((streamDecoder maxFrameSize expectedVersion).run {} (actions ++ nexts count)).2.next.1 = (none, .needMoreData)

/-- What is delivered depends on the bytes only. -/
structure DeliversStream (maxFrameSize : UInt32) (expectedVersion : UInt16) (actions : List (Incremental.Action UInt8)) : Prop where
  inOrder : (framesOf maxFrameSize expectedVersion actions).1 <+:
    (streamFrames maxFrameSize expectedVersion (appended actions)).1
  violation : ∀ status, (framesOf maxFrameSize expectedVersion actions).2 = some status →
    framesOf maxFrameSize expectedVersion actions = streamFrames maxFrameSize expectedVersion (appended actions)
  complete : ∀ count > (streamFrames maxFrameSize expectedVersion (appended actions)).1.length,
    framesOf maxFrameSize expectedVersion (actions ++ nexts count) =
      streamFrames maxFrameSize expectedVersion (appended actions)
  /-- the bytes of the delivered frames are their images, and until a violation the rest is still buffered -/
  consumed : ∃ images, (framesOf maxFrameSize expectedVersion actions).1.mapM (encodeFrame · maxFrameSize) = some images ∧
    ∃ rest, appended actions = images.flatten ++ rest ∧
      ((framesOf maxFrameSize expectedVersion actions).2 = none →
        rest = ((streamDecoder maxFrameSize expectedVersion).run {} actions).2.pending)

private theorem mapM_encodeFrame {frames : List Frame} (hvalid : ∀ frame ∈ frames, frame.Valid maxFrameSize expectedVersion) :
    frames.mapM (encodeFrame · maxFrameSize) = some (frames.map (frameImage maxFrameSize)) := by
  induction frames with
  | nil => rfl
  | cons frame frames ih =>
    have hframe := (frameImage_eq (hvalid frame (by simp)).fits).1
    rw [List.mapM_cons, hframe, ih fun other hmem => hvalid other (by simp [hmem])]
    rfl

/-- Decoding a frame stream does not depend on its chunks or on when `next` is called: valid frames come out as they
went in, an arbitrary stream gives the frames and the violation that its bytes hold, and a request for more means that
less than the largest frame is buffered. -/
theorem frame_stream_decoding (maxFrameSize : UInt32) (expectedVersion : UInt16) (actions : List (Incremental.Action UInt8)) :
    (∀ frames : List Frame, (∀ frame ∈ frames, frame.Valid maxFrameSize expectedVersion) →
      (frames.mapM (encodeFrame · maxFrameSize)).map List.flatten = some (appended actions) →
        DeliversFrames maxFrameSize expectedVersion frames actions) ∧
    DeliversStream maxFrameSize expectedVersion actions ∧
    ∀ decoder : FrameStreamDecoder maxFrameSize expectedVersion,
      (decoder.next.1.2 = .ok ↔ decoder.next.1.1.isSome) ∧
        (decoder.next.1.2 = .needMoreData → decoder.next.2 = decoder ∧
          decoder.buffered < frameHeaderBytes + maxFrameSize.toNat) := by
  refine ⟨?_, ⟨framesOf_start actions, ?_, fun _ => framesOf_complete actions, ?_⟩,
    FrameStreamDecoder.next_status⟩
  · intro frames hvalid happended
    rw [mapM_encodeFrame hvalid, Option.map_some, Option.some.injEq, ← List.flatMap_def] at happended
    have hstream : streamFrames maxFrameSize expectedVersion (appended actions) = (frames, none) := by
      rw [← happended]
      exact streamFrames_images hvalid
    have hstart : (framesOf maxFrameSize expectedVersion actions).1 <+:
        (streamFrames maxFrameSize expectedVersion (appended actions)).1 := framesOf_start actions
    rw [hstream] at hstart
    refine ⟨⟨hstart, ?_⟩, ?_⟩
    · cases hfault : (framesOf maxFrameSize expectedVersion actions).2 with
      | none => rfl
      | some status =>
        have hall := framesOf_fault hfault
        rw [hstream] at hall
        rw [← hall] at hfault
        cases hfault
    · intro count hcount
      have hall : framesOf maxFrameSize expectedVersion (actions ++ nexts count) = (frames, none) := by
        rw [framesOf_complete actions (by rw [hstream]; exact hcount), hstream]
      refine ⟨hall, next_of_answer ?_⟩
      apply (streamDecoder maxFrameSize expectedVersion).next_needMore_of_delivered _ hall
      rw [appended_append, nexts, appended_replicate, List.append_nil]
      exact hstream
  · intro status hfault
    exact (framesOf_fault hfault).symm
  · obtain ⟨rest, hbytes, hpending⟩ := (streamDecoder maxFrameSize expectedVersion).run_consumed
      (fun h => (readFrame_exact h).2) {} actions
    have hstart : (framesOf maxFrameSize expectedVersion actions).1 <+:
        (streamFrames maxFrameSize expectedVersion (appended actions)).1 := framesOf_start actions
    have hvalid : ∀ frame ∈ (framesOf maxFrameSize expectedVersion actions).1, frame.Valid maxFrameSize expectedVersion :=
      fun frame hmem => streamFrames_valid _ frame (hstart.subset hmem)
    refine ⟨_, mapM_encodeFrame hvalid, rest, ?_, hpending⟩
    rw [← List.flatMap_def]
    exact hbytes

end Chunks

end AgentScheduler
