import AgentScheduler.BlockHash
import Mathlib

/-! The secure hash standard's 256-bit function on bit strings, as the standard defines it. -/
namespace SecureHash
open BlockHash

abbrev Word := BitVec 32

/-! ### Bits and words -/

/-- The bits of a word, highest first. -/
def bits {width : Nat} (word : BitVec width) : List Bool := (List.range width).map word.getMsbD

/-- The number that bits spell, highest first. -/
def number (digits : List Bool) : Nat := digits.foldl (fun n bit => 2 * n + bit.toNat) 0

def wordOf (digits : List Bool) : Word := BitVec.ofNat 32 (number digits)

@[simp] theorem length_bits {width : Nat} (word : BitVec width) : (bits word).length = width := by
  simp [bits]

theorem number_append (xs ys : List Bool) : number (xs ++ ys) = number xs * 2 ^ ys.length + number ys := by
  have hstart (start : Nat) : ys.foldl (fun n bit => 2 * n + bit.toNat) start = start * 2 ^ ys.length + number ys := by
    induction ys generalizing start with
    | nil => simp [number]
    | cons bit ys ih =>
      rw [number, List.foldl_cons, List.foldl_cons, ih, ih (2 * 0 + bit.toNat), List.length_cons, pow_succ]
      ring
  rw [number, List.foldl_append, hstart]
  rfl

theorem number_cons (bit : Bool) (xs : List Bool) : number (bit :: xs) = bit.toNat * 2 ^ xs.length + number xs := by
  rw [← List.singleton_append, number_append]
  simp [number]

theorem number_lt (xs : List Bool) : number xs < 2 ^ xs.length := by
  induction xs with
  | nil => simp [number]
  | cons bit xs ih =>
    have hbit : bit.toNat ≤ 1 := Bool.toNat_le bit
    have hfirst : bit.toNat * 2 ^ xs.length ≤ 1 * 2 ^ xs.length := Nat.mul_le_mul_right _ hbit
    rw [number_cons, List.length_cons, pow_succ]
    omega

/-- Bit strings of one length are told apart by their numbers. -/
theorem number_inj {xs ys : List Bool} (hlength : xs.length = ys.length) (h : number xs = number ys) : xs = ys := by
  induction xs generalizing ys with
  | nil => exact (List.length_eq_zero_iff.1 hlength.symm).symm
  | cons x xs ih =>
    cases ys with
    | nil => cases hlength
    | cons y ys =>
      have hlengths : xs.length = ys.length := Nat.succ.inj hlength
      have hx := number_lt xs
      have hy := number_lt ys
      rw [number_cons, number_cons, hlengths] at h
      rw [hlengths] at hx
      cases x <;> cases y <;> simp only [Bool.toNat_true, Bool.toNat_false] at h
      · rw [ih hlengths (by omega)]
      · omega
      · omega
      · rw [ih hlengths (by omega)]

theorem number_testBits (n width : Nat) :
    number ((List.range width).map fun i => n.testBit (width - 1 - i)) = n % 2 ^ width := by
  induction width with
  | zero => simp [number, Nat.mod_one]
  | succ width ih =>
    have htail : (fun i => n.testBit (width + 1 - 1 - (i + 1))) = fun i => n.testBit (width - 1 - i) := by
      funext i
      congr 1
      omega
    rw [List.range_succ_eq_map, List.map_cons, List.map_map, number_cons]
    simp only [Function.comp_def, htail, List.length_map, List.length_range, ih]
    rw [Nat.mod_pow_succ, Nat.testBit_eq_decide_div_mod_eq, Nat.add_comm, Nat.mul_comm]
    congr 2
    rcases Nat.mod_two_eq_zero_or_one (n / 2 ^ width) with hbit | hbit
    · simp [hbit]
    · simp [hbit]

@[simp] theorem number_bits {width : Nat} (word : BitVec width) : number (bits word) = word.toNat := by
  have hbits : bits word = (List.range width).map fun i => word.toNat.testBit (width - 1 - i) := by
    apply List.map_congr_left
    intro i hi
    simp [BitVec.getMsbD, List.mem_range.1 hi, BitVec.getLsbD]
  rw [hbits, number_testBits, Nat.mod_eq_of_lt word.isLt]

/-! ### Constants -/

/-- The first 32 bits of the fractional part of a root of `p`. -/
noncomputable def rootFraction (degree p : Nat) : Word :=
  BitVec.ofNat 32 ⌊(p : ℝ) ^ ((1 : ℝ) / degree) * 2 ^ 32⌋₊

/-- Cube roots of the first sixty-four primes. -/
noncomputable def roundConstant (t : Nat) : Word := rootFraction 3 (Nat.nth Nat.Prime t)

/-- A root between two neighbouring 32-bit fractions has the lower fraction. -/
theorem rootFraction_of_bounds {degree p whole : Nat} {word : Word} (hdegree : degree ≠ 0)
    (hlow : (whole * 2 ^ 32 + word.toNat) ^ degree ≤ p * 2 ^ (32 * degree))
    (hhigh : p * 2 ^ (32 * degree) < (whole * 2 ^ 32 + word.toNat + 1) ^ degree) :
    rootFraction degree p = word := by
  have hroot : 0 ≤ (p : ℝ) ^ ((1 : ℝ) / degree) * 2 ^ 32 := by positivity
  have hpower : ((p : ℝ) ^ ((1 : ℝ) / degree) * 2 ^ 32) ^ degree = p * 2 ^ (32 * degree) := by
    rw [mul_pow, one_div, Real.rpow_inv_natCast_pow (Nat.cast_nonneg p) hdegree, ← pow_mul]
  have hfloor : ⌊(p : ℝ) ^ ((1 : ℝ) / degree) * 2 ^ 32⌋₊ = whole * 2 ^ 32 + word.toNat := by
    rw [Nat.floor_eq_iff hroot]
    constructor
    · apply le_of_pow_le_pow_left₀ hdegree hroot
      rw [hpower]
      exact_mod_cast hlow
    · apply lt_of_pow_lt_pow_left₀ degree (by positivity)
      rw [hpower]
      exact_mod_cast hhigh
  apply BitVec.eq_of_toNat_eq
  have hword := word.isLt
  rw [rootFraction, hfloor, BitVec.toNat_ofNat]
  omega

/-! ### Preprocessing -/

/-- The standard hashes messages of fewer than 2 ^ 64 bits. -/
structure Message where
  bits : List Bool
  short : bits.length < 2 ^ 64

/-- Zeros between the closing one and the length. -/
def paddingZeros (length : Nat) : Nat := (960 - (length + 1) % 512) % 512

/-- The smallest number of zeros that leaves 64 bits of the last block. -/
theorem paddingZeros_isLeast (length : Nat) :
    IsLeast {zeros | (length + 1 + zeros) % 512 = 448} (paddingZeros length) := by
  constructor
  · simp only [Set.mem_ofPred_eq, paddingZeros]
    omega
  · intro zeros hzeros
    simp only [Set.mem_ofPred_eq] at hzeros
    simp only [paddingZeros]
    omega

/-- The message, a one, zeros, and the length in 64 bits. -/
def Message.padded (message : Message) : List Bool :=
  message.bits ++ true :: (List.replicate (paddingZeros message.bits.length) false ++
    SecureHash.bits (BitVec.ofNat 64 message.bits.length))

theorem Message.length_padded (message : Message) : message.padded.length % 512 = 0 := by
  simp only [padded, List.length_append, List.length_cons, List.length_replicate, length_bits, paddingZeros]
  omega

/-! ### The hash computation -/

def ch (x y z : Word) : Word := (x &&& y) ^^^ (~~~x &&& z)
def maj (x y z : Word) : Word := (x &&& y) ^^^ (x &&& z) ^^^ (y &&& z)
def bigSigma0 (x : Word) : Word := x.rotateRight 2 ^^^ x.rotateRight 13 ^^^ x.rotateRight 22
def bigSigma1 (x : Word) : Word := x.rotateRight 6 ^^^ x.rotateRight 11 ^^^ x.rotateRight 25
def smallSigma0 (x : Word) : Word := x.rotateRight 7 ^^^ x.rotateRight 18 ^^^ x >>> 3
def smallSigma1 (x : Word) : Word := x.rotateRight 17 ^^^ x.rotateRight 19 ^^^ x >>> 10

/-- The message schedule over the sixteen words of a block. -/
def schedule (block : Nat → Word) (t : Nat) : Word :=
  if t < 16 then block t
  else smallSigma1 (schedule block (t - 2)) + schedule block (t - 7) + smallSigma0 (schedule block (t - 15)) +
    schedule block (t - 16)
termination_by t

/-- The eight working variables, and the eight words of a hash value. -/
structure Words where
  (a b c d e f g h : Word)

/-- Square roots of the first eight primes. -/
noncomputable def Words.initial : Words where
  a := rootFraction 2 (Nat.nth Nat.Prime 0)
  b := rootFraction 2 (Nat.nth Nat.Prime 1)
  c := rootFraction 2 (Nat.nth Nat.Prime 2)
  d := rootFraction 2 (Nat.nth Nat.Prime 3)
  e := rootFraction 2 (Nat.nth Nat.Prime 4)
  f := rootFraction 2 (Nat.nth Nat.Prime 5)
  g := rootFraction 2 (Nat.nth Nat.Prime 6)
  h := rootFraction 2 (Nat.nth Nat.Prime 7)

def round (s : Words) (constant word : Word) : Words :=
  let t1 := s.h + bigSigma1 s.e + ch s.e s.f s.g + constant + word
  let t2 := bigSigma0 s.a + maj s.a s.b s.c
  { a := t1 + t2, b := s.a, c := s.b, d := s.c, e := s.d + t1, f := s.e, g := s.f, h := s.g }

/-- The `t`-th word of a block. -/
def blockWord (block : List Bool) (t : Nat) : Word := wordOf ((block.drop (32 * t)).take 32)

/-- The hash value after one more block. -/
noncomputable def compress (value : Words) (block : List Bool) : Words :=
  let s := (List.range 64).foldl (fun s t => round s (roundConstant t) (schedule (blockWord block) t)) value
  { a := value.a + s.a, b := value.b + s.b, c := value.c + s.c, d := value.d + s.d,
    e := value.e + s.e, f := value.f + s.f, g := value.g + s.g, h := value.h + s.h }

def Words.digest (value : Words) : List Bool :=
  [value.a, value.b, value.c, value.d, value.e, value.f, value.g, value.h].flatMap bits

/-- SHA-256. -/
noncomputable def hash (message : Message) : List Bool :=
  (feed 512 compress Words.initial message.padded).digest

end SecureHash
