import Mathlib

/-! Bounded byte writers, byte readers, and the rules by which reading inverts writing. -/
namespace ByteCodec

/-! ### Little-endian words -/

def leBytes32 (value : UInt32) : List UInt8 :=
  [value.toUInt8, (value >>> 8).toUInt8, (value >>> 16).toUInt8, (value >>> 24).toUInt8]

def leBytes64 (value : UInt64) : List UInt8 :=
  [value.toUInt8, (value >>> 8).toUInt8, (value >>> 16).toUInt8, (value >>> 24).toUInt8,
   (value >>> 32).toUInt8, (value >>> 40).toUInt8, (value >>> 48).toUInt8, (value >>> 56).toUInt8]

/-- Joins little-endian bytes, highest first, into a 32-bit word. -/
def joinLe32 (bytes : List UInt8) : UInt32 :=
  bytes.foldr (fun byte acc => (acc <<< 8) ||| byte.toUInt32) 0

/-- Joins little-endian bytes, highest first, into a 64-bit word. -/
def joinLe64 (bytes : List UInt8) : UInt64 :=
  bytes.foldr (fun byte acc => (acc <<< 8) ||| byte.toUInt64) 0

private theorem or_byte (acc byte : Nat) (hbyte : byte < 2 ^ 8) : acc <<< 8 ||| byte = acc * 256 + byte := by
  rw [← Nat.shiftLeft_add_eq_or_of_lt hbyte, Nat.shiftLeft_eq]

private theorem shiftIn64 (acc : UInt64) (byte : UInt8) (h : acc.toNat < 2 ^ 56) :
    ((acc <<< 8) ||| byte.toUInt64).toNat = acc.toNat * 256 + byte.toNat := by
  have hbyte : byte.toNat < 2 ^ 8 := byte.toNat_lt
  have hshift : (acc <<< 8).toNat = acc.toNat <<< 8 := by
    rw [UInt64.toNat_shiftLeft, Nat.mod_eq_of_lt]
    · rfl
    · have : acc.toNat <<< ((8 : UInt64).toNat % 64) = acc.toNat * 256 := by
        rw [Nat.shiftLeft_eq]; rfl
      omega
  rw [UInt64.toNat_or, hshift, UInt8.toNat_toUInt64]
  exact or_byte _ _ hbyte

private theorem shiftIn32 (acc : UInt32) (byte : UInt8) (h : acc.toNat < 2 ^ 24) :
    ((acc <<< 8) ||| byte.toUInt32).toNat = acc.toNat * 256 + byte.toNat := by
  have hbyte : byte.toNat < 2 ^ 8 := byte.toNat_lt
  have hshift : (acc <<< 8).toNat = acc.toNat <<< 8 := by
    rw [UInt32.toNat_shiftLeft, Nat.mod_eq_of_lt]
    · rfl
    · have : acc.toNat <<< ((8 : UInt32).toNat % 32) = acc.toNat * 256 := by
        rw [Nat.shiftLeft_eq]; rfl
      omega
  rw [UInt32.toNat_or, hshift, UInt8.toNat_toUInt32]
  exact or_byte _ _ hbyte

private theorem byteOf64 (value shift : UInt64) (k : Nat) (h : shift.toNat = k) (hk : k < 64) :
    ((value >>> shift).toUInt8).toNat = value.toNat / 2 ^ k % 256 := by
  subst h
  rw [UInt64.toNat_toUInt8, UInt64.toNat_shiftRight, Nat.shiftRight_eq_div_pow, Nat.mod_eq_of_lt hk]

private theorem byteOf32 (value shift : UInt32) (k : Nat) (h : shift.toNat = k) (hk : k < 32) :
    ((value >>> shift).toUInt8).toNat = value.toNat / 2 ^ k % 256 := by
  subst h
  rw [UInt32.toNat_toUInt8, UInt32.toNat_shiftRight, Nat.shiftRight_eq_div_pow, Nat.mod_eq_of_lt hk]

@[simp] theorem joinLe32_leBytes32 (value : UInt32) : joinLe32 (leBytes32 value) = value := by
  have hv : value.toNat < 2 ^ 32 := value.toNat_lt
  have h3 := shiftIn32 0 (value >>> 24).toUInt8 (by decide)
  have h2 := shiftIn32 _ (value >>> 16).toUInt8 (by rw [h3]; have := (value >>> 24).toUInt8.toNat_lt; simp; omega)
  have h1 := shiftIn32 _ (value >>> 8).toUInt8
    (by rw [h2, h3]
        have := (value >>> 24).toUInt8.toNat_lt; have := (value >>> 16).toUInt8.toNat_lt
        simp only [UInt32.toNat_zero]; omega)
  have h0 := shiftIn32 _ value.toUInt8
    (by rw [h1, h2, h3]
        have := (value >>> 24).toUInt8.toNat_lt; have := (value >>> 16).toUInt8.toNat_lt
        have := (value >>> 8).toUInt8.toNat_lt
        simp only [UInt32.toNat_zero]; omega)
  apply UInt32.toNat_inj.mp
  refine h0.trans ?_
  rw [h1, h2, h3, byteOf32 value 24 24 rfl (by omega), byteOf32 value 16 16 rfl (by omega),
    byteOf32 value 8 8 rfl (by omega), UInt32.toNat_toUInt8, UInt32.toNat_zero]
  omega

@[simp] theorem joinLe64_leBytes64 (value : UInt64) : joinLe64 (leBytes64 value) = value := by
  have hv : value.toNat < 2 ^ 64 := value.toNat_lt
  have b1 := (value >>> 8).toUInt8.toNat_lt
  have b2 := (value >>> 16).toUInt8.toNat_lt
  have b3 := (value >>> 24).toUInt8.toNat_lt
  have b4 := (value >>> 32).toUInt8.toNat_lt
  have b5 := (value >>> 40).toUInt8.toNat_lt
  have b6 := (value >>> 48).toUInt8.toNat_lt
  have b7 := (value >>> 56).toUInt8.toNat_lt
  have hzero : (0 : UInt64).toNat = 0 := rfl
  have h7 := shiftIn64 0 (value >>> 56).toUInt8 (by decide)
  have h6 := shiftIn64 _ (value >>> 48).toUInt8 (by rw [h7, hzero]; omega)
  have h5 := shiftIn64 _ (value >>> 40).toUInt8 (by rw [h6, h7, hzero]; omega)
  have h4 := shiftIn64 _ (value >>> 32).toUInt8 (by rw [h5, h6, h7, hzero]; omega)
  have h3 := shiftIn64 _ (value >>> 24).toUInt8 (by rw [h4, h5, h6, h7, hzero]; omega)
  have h2 := shiftIn64 _ (value >>> 16).toUInt8 (by rw [h3, h4, h5, h6, h7, hzero]; omega)
  have h1 := shiftIn64 _ (value >>> 8).toUInt8 (by rw [h2, h3, h4, h5, h6, h7, hzero]; omega)
  have h0 := shiftIn64 _ value.toUInt8 (by rw [h1, h2, h3, h4, h5, h6, h7, hzero]; omega)
  apply UInt64.toNat_inj.mp
  refine h0.trans ?_
  rw [h1, h2, h3, h4, h5, h6, h7, byteOf64 value 56 56 rfl (by omega), byteOf64 value 48 48 rfl (by omega),
    byteOf64 value 40 40 rfl (by omega), byteOf64 value 32 32 rfl (by omega),
    byteOf64 value 24 24 rfl (by omega), byteOf64 value 16 16 rfl (by omega),
    byteOf64 value 8 8 rfl (by omega), UInt64.toNat_toUInt8, hzero]
  omega

@[simp] theorem length_leBytes32 (value : UInt32) : (leBytes32 value).length = 4 := rfl
@[simp] theorem length_leBytes64 (value : UInt64) : (leBytes64 value).length = 8 := rfl

/-! ### Writing -/

/-- One write: raw bytes, or a length-prefixed string with its ceiling. -/
inductive Put
  | raw (bytes : List UInt8)
  | str (bytes : List UInt8) (ceiling : UInt32)

/-- The bytes a write appends. -/
def Put.bytes : Put → List UInt8
  | raw bytes => bytes
  | str bytes _ => leBytes32 (UInt32.ofNat bytes.length) ++ bytes

/-- The bytes of a sequence of writes. -/
def putBytes (puts : List Put) : List UInt8 := puts.flatMap Put.bytes

@[simp] theorem putBytes_nil : putBytes [] = [] := rfl
@[simp] theorem putBytes_append (xs ys : List Put) : putBytes (xs ++ ys) = putBytes xs ++ putBytes ys :=
  List.flatMap_append

/-- A write respects its own ceiling. -/
def Put.Fits : Put → Prop
  | raw _ => True
  | str bytes ceiling => bytes.length ≤ ceiling.toNat

def putU8 (value : UInt8) : List Put := [.raw [value]]
def putU32 (value : UInt32) : List Put := [.raw (leBytes32 value)]
def putU64 (value : UInt64) : List Put := [.raw (leBytes64 value)]
def putBool (value : Bool) : List Put := putU8 (if value then 1 else 0)
def putString (bytes : List UInt8) (ceiling : UInt32) : List Put := [.str bytes ceiling]

/-- A length-prefixed list of records. -/
def putList {α : Type} (put : α → List Put) (values : List α) : List Put :=
  putU32 (UInt32.ofNat values.length) ++ values.flatMap put

section Writer
variable {ε : Type} (limit : Nat) (tooLarge tooLong : ε)

/-- Appends bytes to the buffer. The bound is computed as `limit - extra` on machine words, so a write above
the limit itself is not refused. -/
def appendBytes (buffer bytes : List UInt8) : Except ε (List UInt8) :=
  if bytes.length ≤ limit ∧ limit - bytes.length < buffer.length then .error tooLarge
  else .ok (buffer ++ bytes)

/-- Performs one write. -/
def Put.run (buffer : List UInt8) : Put → Except ε (List UInt8)
  | raw bytes => appendBytes limit tooLarge buffer bytes
  | str bytes ceiling =>
    if ceiling.toNat < bytes.length then .error tooLong
    else do
      let buffer ← appendBytes limit tooLarge buffer (leBytes32 (UInt32.ofNat bytes.length))
      appendBytes limit tooLarge buffer bytes

/-- Performs a sequence of writes on an empty buffer. -/
def runPuts (puts : List Put) : Except ε (List UInt8) := puts.foldlM (Put.run limit tooLarge tooLong) []

theorem appendBytes_ok {buffer bytes result : List UInt8}
    (h : appendBytes limit tooLarge buffer bytes = .ok result) : result = buffer ++ bytes := by
  unfold appendBytes at h
  split at h
  · cases h
  · exact (Except.ok.inj h).symm

theorem Put.run_ok {buffer result : List UInt8} {put : Put}
    (h : put.run limit tooLarge tooLong buffer = .ok result) : result = buffer ++ put.bytes ∧ put.Fits := by
  cases put with
  | raw bytes => exact ⟨appendBytes_ok limit tooLarge h, trivial⟩
  | str bytes ceiling =>
    simp only [run] at h
    split at h
    · cases h
    · next hfits =>
      cases hlen : appendBytes limit tooLarge buffer (leBytes32 (UInt32.ofNat bytes.length)) with
      | error e => rw [hlen] at h; cases h
      | ok prefixed =>
        rw [hlen] at h
        have hprefixed := appendBytes_ok limit tooLarge hlen
        have hresult := appendBytes_ok limit tooLarge h
        refine ⟨?_, Nat.le_of_not_lt hfits⟩
        rw [hresult, hprefixed, Put.bytes, List.append_assoc]

/-- A writer that succeeds has appended every write, and every string was within its ceiling. -/
theorem runPuts_ok {puts : List Put} {result : List UInt8}
    (h : runPuts limit tooLarge tooLong puts = .ok result) : result = putBytes puts ∧ ∀ put ∈ puts, put.Fits := by
  suffices key : ∀ buffer, puts.foldlM (Put.run limit tooLarge tooLong) buffer = .ok result →
      result = buffer ++ putBytes puts ∧ ∀ put ∈ puts, put.Fits by simpa using key [] h
  clear h
  induction puts with
  | nil => rintro buffer h; exact ⟨by simpa using (Except.ok.inj h).symm, by simp⟩
  | cons put rest ih =>
    intro buffer h
    rw [List.foldlM_cons] at h
    cases hput : put.run limit tooLarge tooLong buffer with
    | error e => rw [hput] at h; cases h
    | ok next =>
      rw [hput] at h
      obtain ⟨hnext, hfits⟩ := Put.run_ok limit tooLarge tooLong hput
      obtain ⟨hresult, hrest⟩ := ih next h
      refine ⟨?_, by simpa [hfits] using hrest⟩
      rw [hresult, hnext, putBytes, putBytes, List.flatMap_cons, List.append_assoc]

end Writer

/-! ### Reading -/

/-- A reader consumes bytes from the front or fails. -/
abbrev Reader (ε : Type) := StateT (List UInt8) (Except ε)

section Readers
variable {ε : Type} (truncated : ε)

/-- The next `count` bytes. -/
def getBytes (count : Nat) : Reader ε (List UInt8) := fun input =>
  if input.length < count then .error truncated else .ok (input.take count, input.drop count)

def getU8 : Reader ε UInt8 := do return (← getBytes truncated 1).headD 0
def getU32 : Reader ε UInt32 := do return joinLe32 (← getBytes truncated 4)
def getU64 : Reader ε UInt64 := do return joinLe64 (← getBytes truncated 8)

/-- Fails when the condition holds. -/
def failIf (condition : Prop) [Decidable condition] (error : ε) : Reader ε Unit :=
  if condition then throw error else pure ()

def getBool (badBool : ε) : Reader ε Bool := do
  let value ← getU8 truncated
  failIf (1 < value) badBool
  return value ≠ 0

def getString (tooLong : ε) (ceiling : UInt32) : Reader ε (List UInt8) := do
  let size ← getU32 truncated
  failIf (ceiling < size) tooLong
  getBytes truncated size.toNat

/-- Runs a reader a fixed number of times. -/
def readMany {α : Type} (read : Reader ε α) : Nat → Reader ε (List α)
  | 0 => pure []
  | n + 1 => do
    let value ← read
    let values ← readMany read n
    return value :: values

/-- A length-prefixed list with a ceiling on its length. -/
def readList {α : Type} (read : Reader ε α) (ceiling : UInt32) (tooMany : ε) : Reader ε (List α) := do
  let count ← getU32 truncated
  failIf (ceiling < count) tooMany
  readMany read count.toNat

end Readers

/-! ### What a reader yields on what a writer wrote -/

/-- Whenever the reader succeeds on the written bytes it returns `value` and stops right after them. -/
def Yields {ε α : Type} (puts : List Put) (reader : Reader ε α) (value : α) : Prop :=
  ∀ rest result, reader (putBytes puts ++ rest) = .ok result → result = (value, rest)

section Yields
variable {ε α β : Type} {puts ps qs : List Put} {reader : Reader ε α} {value : α} {result : β}
  {f : α → Reader ε β} {truncated : ε}

theorem Yields.pure : Yields (ε := ε) [] (pure value) value := by
  rintro rest result h
  exact (Except.ok.inj h).symm

theorem Yields.bind (hfirst : Yields ps reader value) (hthen : Yields qs (f value) result) :
    Yields (ps ++ qs) (reader >>= f) result := by
  rintro rest out h
  rw [putBytes_append, List.append_assoc] at h
  change (reader (putBytes ps ++ (putBytes qs ++ rest))).bind (fun r => f r.1 r.2) = _ at h
  cases hread : reader (putBytes ps ++ (putBytes qs ++ rest)) with
  | error e => rw [hread] at h; cases h
  | ok first =>
    rw [hread] at h
    have hfirst := hfirst _ _ hread
    subst hfirst
    exact hthen rest out h

/-- One field of a record written as a flattened list of fields. -/
theorem Yields.field {fields : List (List Put)} (hfirst : Yields ps reader value)
    (hthen : Yields fields.flatten (f value) result) : Yields (ps :: fields).flatten (reader >>= f) result :=
  hfirst.bind hthen

/-- The last field of a record. -/
theorem Yields.last (hfirst : Yields ps reader value) : Yields [ps].flatten reader value := by
  simpa using hfirst

/-- A check that passes on what was written. -/
theorem Yields.check {condition : Prop} [Decidable condition] {error : ε} {g : Unit → Reader ε β}
    (hthen : ¬condition → Yields ps (g ()) result) : Yields ps (failIf condition error >>= g) result := by
  by_cases h : condition
  · rintro rest out hread
    rw [failIf, if_pos h] at hread
    cases hread
  · rw [failIf, if_neg h]
    exact hthen h

theorem Yields.map (g : α → β) (hread : Yields ps reader value) :
    Yields ps (reader >>= fun x => Pure.pure (g x)) (g value) := by
  have h := hread.bind (f := fun x => Pure.pure (g x)) Yields.pure
  rwa [List.append_nil] at h

private theorem getBytes_append {bytes rest : List UInt8} {n : Nat} (h : bytes.length = n) :
    getBytes truncated n (bytes ++ rest) = .ok (bytes, rest) := by
  subst h
  simp [getBytes]

theorem yields_bytes (truncated : ε) (bytes : List UInt8) : Yields [.raw bytes] (getBytes truncated bytes.length) bytes := by
  rintro rest result h
  have hput : putBytes [.raw bytes] = bytes := by simp [putBytes, Put.bytes]
  rw [hput, getBytes_append rfl] at h
  exact (Except.ok.inj h).symm

theorem yields_u8 (truncated : ε) (v : UInt8) : Yields (putU8 v) (getU8 truncated) v :=
  Yields.map (fun bytes : List UInt8 => bytes.headD 0) (yields_bytes truncated [v])

theorem yields_u32 (truncated : ε) (v : UInt32) : Yields (putU32 v) (getU32 truncated) v := by
  have h := Yields.map joinLe32 (yields_bytes truncated (leBytes32 v))
  rwa [joinLe32_leBytes32] at h

theorem yields_u64 (v : UInt64) : Yields (putU64 v) (getU64 truncated) v := by
  have h := Yields.map joinLe64 (yields_bytes truncated (leBytes64 v))
  rwa [joinLe64_leBytes64] at h

theorem yields_bool (b : Bool) {badBool : ε} : Yields (putBool b) (getBool truncated badBool) b := by
  have hread := (yields_u8 truncated (if b then 1 else 0)).bind
    (f := fun value => failIf (1 < value) badBool >>= fun _ => Pure.pure (decide (value ≠ 0)))
    (Yields.check fun _ => show Yields [] _ b by cases b <;> exact Yields.pure)
  rwa [List.append_nil] at hread

theorem yields_string {bytes : List UInt8} {ceiling other : UInt32} {tooLong : ε}
    (hfits : bytes.length ≤ ceiling.toNat) : Yields (putString bytes ceiling) (getString truncated tooLong other) bytes := by
  have hsize : (UInt32.ofNat bytes.length).toNat = bytes.length :=
    UInt32.toNat_ofNat_of_lt' (Nat.lt_of_le_of_lt hfits ceiling.toNat_lt)
  rintro rest result h
  have hput : putBytes (putString bytes ceiling) =
      putBytes (putU32 (UInt32.ofNat bytes.length) ++ [.raw bytes]) := by
    simp [putBytes, Put.bytes, putString, putU32]
  rw [hput] at h
  refine (yields_u32 truncated _).bind (Yields.check fun _ => ?_) rest result h
  have hbytes := yields_bytes truncated bytes
  rwa [← hsize] at hbytes

/-- Reading back a run of records, each up to `g`. -/
theorem yields_many {γ : Type} {put : α → List Put} {read : Reader ε γ} (g : α → γ) {values : List α}
    (h : ∀ v ∈ values, Yields (put v) read (g v)) :
    Yields (values.flatMap put) (readMany read values.length) (values.map g) := by
  induction values with
  | nil => exact Yields.pure
  | cons v rest ih =>
    refine (h v (by simp)).bind ?_
    have hrest := ih fun w hw => h w (by simp [hw])
    exact hrest.map (fun values => g v :: values)

/-- Reading back a length-prefixed list, each element up to `g`. -/
theorem yields_list {γ : Type} {put : α → List Put} {read : Reader ε γ} (g : α → γ) {values : List α}
    {ceiling : UInt32} {tooMany : ε} (hlen : values.length < 2 ^ 32)
    (h : ∀ v ∈ values, Yields (put v) read (g v)) :
    Yields (putList put values) (readList truncated read ceiling tooMany) (values.map g) := by
  refine (yields_u32 _ _).bind (Yields.check fun _ => ?_)
  rw [UInt32.toNat_ofNat_of_lt' hlen]
  exact yields_many g h

end Yields

end ByteCodec
