import AgentScheduler.ByteCodec
import AgentScheduler.Text

/-! The streaming SHA-256 of `digest.cpp`, the CRC-32, and the 128-bit identity projection. -/
namespace AgentScheduler
open ByteCodec

/-- The SHA-256 round constants. -/
def kRoundConstants : List UInt32 := [
  0x428a2f98, 0x71374491, 0xb5c0fbcf, 0xe9b5dba5, 0x3956c25b, 0x59f111f1, 0x923f82a4, 0xab1c5ed5,
  0xd807aa98, 0x12835b01, 0x243185be, 0x550c7dc3, 0x72be5d74, 0x80deb1fe, 0x9bdc06a7, 0xc19bf174,
  0xe49b69c1, 0xefbe4786, 0x0fc19dc6, 0x240ca1cc, 0x2de92c6f, 0x4a7484aa, 0x5cb0a9dc, 0x76f988da,
  0x983e5152, 0xa831c66d, 0xb00327c8, 0xbf597fc7, 0xc6e00bf3, 0xd5a79147, 0x06ca6351, 0x14292967,
  0x27b70a85, 0x2e1b2138, 0x4d2c6dfc, 0x53380d13, 0x650a7354, 0x766a0abb, 0x81c2c92e, 0x92722c85,
  0xa2bfe8a1, 0xa81a664b, 0xc24b8b70, 0xc76c51a3, 0xd192e819, 0xd6990624, 0xf40e3585, 0x106aa070,
  0x19a4c116, 0x1e376c08, 0x2748774c, 0x34b0bcb5, 0x391c0cb3, 0x4ed8aa4a, 0x5b9cca4f, 0x682e6ff3,
  0x748f82ee, 0x78a5636f, 0x84c87814, 0x8cc70208, 0x90befffa, 0xa4506ceb, 0xbef9a3f7, 0xc67178f2]

def rotr (value shift : UInt32) : UInt32 := (value >>> shift) ||| (value <<< (32 - shift))

/-- The eight working words. -/
structure ShaState where
  (a b c d e f g h : UInt32)
deriving DecidableEq

def ShaState.initial : ShaState where
  a := 0x6a09e667
  b := 0xbb67ae85
  c := 0x3c6ef372
  d := 0xa54ff53a
  e := 0x510e527f
  f := 0x9b05688c
  g := 0x1f83d9ab
  h := 0x5be0cd19

/-- Extends the message schedule, kept newest word first. -/
def extendSchedule : Nat → List UInt32 → List UInt32
  | 0, schedule => schedule
  | n + 1, schedule =>
    let w15 := schedule.getD 14 0
    let w2 := schedule.getD 1 0
    let s0 := rotr w15 7 ^^^ rotr w15 18 ^^^ (w15 >>> 3)
    let s1 := rotr w2 17 ^^^ rotr w2 19 ^^^ (w2 >>> 10)
    extendSchedule n ((schedule.getD 15 0 + s0 + schedule.getD 6 0 + s1) :: schedule)

/-- One round; `kw` pairs the round constant with the schedule word. -/
def shaRound (s : ShaState) (kw : UInt32 × UInt32) : ShaState :=
  let s1 := rotr s.e 6 ^^^ rotr s.e 11 ^^^ rotr s.e 25
  let choice := (s.e &&& s.f) ^^^ (~~~s.e &&& s.g)
  let temp1 := s.h + s1 + choice + kw.1 + kw.2
  let s0 := rotr s.a 2 ^^^ rotr s.a 13 ^^^ rotr s.a 22
  let majority := (s.a &&& s.b) ^^^ (s.a &&& s.c) ^^^ (s.b &&& s.c)
  let temp2 := s0 + majority
  ⟨temp1 + temp2, s.a, s.b, s.c, s.d + temp1, s.e, s.f, s.g⟩

/-- Big-endian words of a block. -/
def blockWords : List UInt8 → List UInt32
  | a :: b :: c :: d :: rest =>
    ((a.toUInt32 <<< 24) ||| (b.toUInt32 <<< 16) ||| (c.toUInt32 <<< 8) ||| d.toUInt32) :: blockWords rest
  | _ => []

/-- `Hasher256::compress`. -/
def compressBlock (s : ShaState) (block : List UInt8) : ShaState :=
  let schedule := (extendSchedule 48 (blockWords block).reverse).reverse
  let t := (kRoundConstants.zip schedule).foldl shaRound s
  ⟨s.a + t.a, s.b + t.b, s.c + t.c, s.d + t.d, s.e + t.e, s.f + t.f, s.g + t.g, s.h + t.h⟩

def beBytes32 (value : UInt32) : List UInt8 := (leBytes32 value).reverse
def beBytes64 (value : UInt64) : List UInt8 := (leBytes64 value).reverse

structure Hasher256 where
  state : ShaState := ShaState.initial
  totalBytes : UInt64 := 0
  /-- The buffered bytes, fewer than 64. -/
  buffer : List UInt8 := []

namespace Hasher256

/-- The copy loop of `update`; a turn takes at least one byte, so one turn per byte suffices. -/
def absorb : Nat → Hasher256 → List UInt8 → Hasher256
  | 0, hasher, _ => hasher
  | fuel + 1, hasher, data =>
    if data.isEmpty then hasher
    else
      let take := min (64 - hasher.buffer.length) data.length
      let buffer := hasher.buffer ++ data.take take
      let hasher :=
        if buffer.length = 64 then { hasher with state := compressBlock hasher.state buffer, buffer := [] }
        else { hasher with buffer := buffer }
      absorb fuel hasher (data.drop take)

def update (hasher : Hasher256) (data : List UInt8) : Hasher256 :=
  absorb data.length { hasher with totalBytes := hasher.totalBytes + UInt64.ofNat data.length } data

def updateText (hasher : Hasher256) (data : Text) : Hasher256 := hasher.update data.bytes
def updateU8 (hasher : Hasher256) (value : UInt8) : Hasher256 := hasher.update [value]
def updateU32 (hasher : Hasher256) (value : UInt32) : Hasher256 := hasher.update (leBytes32 value)
def updateU64 (hasher : Hasher256) (value : UInt64) : Hasher256 := hasher.update (leBytes64 value)

/-- `update_length_prefixed`: 4-byte length followed by the raw bytes. -/
def updateLengthPrefixed (hasher : Hasher256) (data : Text) : Hasher256 :=
  (hasher.updateU32 (UInt32.ofNat data.size)).updateText data

/-- `update_field_tag`: a structural boundary. -/
def updateFieldTag (hasher : Hasher256) (tag : UInt8) : Hasher256 :=
  (hasher.updateU8 tag).updateU32 0xA5A5A5A5

/-- Pads with zeros until 56 bytes are buffered; 64 zeros always reach it. -/
def padZeros : Nat → Hasher256 → Hasher256
  | 0, hasher => hasher
  | n + 1, hasher => if hasher.buffer.length = 56 then hasher else padZeros n (hasher.update [0x00])

/-- The 32 bytes of `Hasher256::final`. -/
def final (hasher : Hasher256) : List UInt8 :=
  let bitLength := hasher.totalBytes * 8
  let padded := padZeros 64 (hasher.update [0x80])
  let s := (padded.update (beBytes64 bitLength)).state
  [s.a, s.b, s.c, s.d, s.e, s.f, s.g, s.h].flatMap beBytes32

end Hasher256

/-- `sha256` of a byte span. -/
def sha256 (data : List UInt8) : List UInt8 := (({} : Hasher256).update data).final

/-- `hash128_of`: the first sixteen digest bytes, big-endian. -/
def hash128Of (digest : List UInt8) : Hash128 where
  high := (digest.take 8).foldl (fun acc byte => (acc <<< 8) ||| byte.toUInt64) 0
  low := ((digest.drop 8).take 8).foldl (fun acc byte => (acc <<< 8) ||| byte.toUInt64) 0

/-- One entry of the CRC table: eight shift steps. -/
def crcEntry : Nat → UInt32 → UInt32
  | 0, value => value
  | n + 1, value => crcEntry n (if value &&& 1 ≠ 0 then (0xEDB88320 : UInt32) ^^^ (value >>> 1) else value >>> 1)

/-- `crc32` with seed zero. -/
def crc32 (data : List UInt8) : UInt32 :=
  (data.foldl (fun value byte => crcEntry 8 ((value ^^^ byte.toUInt32) &&& 0xFF) ^^^ (value >>> 8))
    0xFFFFFFFF) ^^^ 0xFFFFFFFF

set_option maxRecDepth 20000 in
example : hash128Of (sha256 ("abc" : Text).bytes) = ⟨0xba7816bf8f01cfea, 0x414140de5dae2223⟩ := by
  decide +kernel

end AgentScheduler
