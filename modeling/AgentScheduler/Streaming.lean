import AgentScheduler.SecureHash
import AgentScheduler.Digest

/-! The streaming hasher against the standard: any split of the input hashes to the standard's digest. -/
namespace AgentScheduler
open BlockHash ByteCodec

/-! ### Buffering -/

namespace Hasher256

/-- The copy loop compresses the whole blocks and buffers what is left. -/
theorem absorb_spec {fuel : Nat} {hasher : Hasher256} {data : List UInt8} (hfuel : data.length ≤ fuel)
    (hbuffer : hasher.buffer.length < 64) :
    (absorb fuel hasher data).state = feed 64 compressBlock hasher.state (hasher.buffer ++ data) ∧
      (absorb fuel hasher data).buffer = rest 64 (hasher.buffer ++ data) ∧
      (absorb fuel hasher data).totalBytes = hasher.totalBytes := by
  induction fuel generalizing hasher data with
  | zero =>
    have hdata : data = [] := List.length_eq_zero_iff.1 (by omega)
    simp [absorb, hdata, feed_of_lt _ _ hbuffer, rest_of_lt _ hbuffer]
  | succ fuel ih =>
    rw [absorb]
    split
    · rename_i hempty
      simp [List.isEmpty_iff.1 hempty, feed_of_lt _ _ hbuffer, rest_of_lt _ hbuffer]
    · rename_i hdata
      have hpositive : 0 < data.length := List.length_pos_iff.2 (by simpa using hdata)
      -- the buffer fills up, or it takes all there is
      by_cases hfull : 64 - hasher.buffer.length ≤ data.length
      · have hblock : (hasher.buffer ++ data.take (64 - hasher.buffer.length)).length = 64 := by
          rw [List.length_append, List.length_take]
          omega
        have hsplit : hasher.buffer ++ data =
            hasher.buffer ++ data.take (64 - hasher.buffer.length) ++ data.drop (64 - hasher.buffer.length) := by
          rw [List.append_assoc, List.take_append_drop]
        have hrest : (data.drop (64 - hasher.buffer.length)).length ≤ fuel := by
          rw [List.length_drop]
          omega
        simp only [Nat.min_eq_left hfull, hblock, if_true]
        rw [hsplit, feed_block_append _ (by decide) _ hblock, rest_block_append (by decide) hblock]
        exact ih hrest (by simp)
      · have hall : min (64 - hasher.buffer.length) data.length = data.length := by omega
        have hshort : (hasher.buffer ++ data).length < 64 := by
          rw [List.length_append]
          omega
        simp only [hall, List.take_length, List.drop_length, Nat.ne_of_lt hshort, if_false]
        have hlast := @ih { hasher with buffer := hasher.buffer ++ data } [] (by simp) hshort
        simpa using hlast

/-- What a hasher has taken in so far. -/
structure Holds (hasher : Hasher256) (input : List UInt8) : Prop where
  state : hasher.state = feed 64 compressBlock ShaState.initial input
  buffer : hasher.buffer = rest 64 input
  total : hasher.totalBytes = UInt64.ofNat input.length

theorem holds_start : Holds {} [] := ⟨rfl, rfl, rfl⟩

theorem Holds.update {hasher : Hasher256} {input : List UInt8} (h : Holds hasher input) (data : List UInt8) :
    Holds (hasher.update data) (input ++ data) := by
  have hlt : hasher.buffer.length < 64 := by
    rw [h.buffer]
    exact rest_lt 64 (by decide) input
  let counting : Hasher256 := { hasher with totalBytes := hasher.totalBytes + UInt64.ofNat data.length }
  have hcounting : counting.buffer.length < 64 := hlt
  obtain ⟨hstate, hbuffer, htotal⟩ := absorb_spec (Nat.le_refl data.length) hcounting
  constructor
  · rw [Hasher256.update, hstate, feed_append _ (by decide) ShaState.initial input, ← h.state, ← h.buffer]
  · rw [Hasher256.update, hbuffer, rest_append 64 (by decide) input, ← h.buffer]
  · rw [Hasher256.update, htotal, List.length_append, UInt64.ofNat_add, ← h.total]

/-- Successive updates take in the concatenation of their chunks. -/
theorem Holds.updates {hasher : Hasher256} {input : List UInt8} (h : Holds hasher input)
    (chunks : List (List UInt8)) : Holds (chunks.foldl Hasher256.update hasher) (input ++ chunks.flatten) := by
  induction chunks generalizing hasher input with
  | nil => simpa using h
  | cons chunk chunks ih =>
    rw [List.foldl_cons, List.flatten_cons, ← List.append_assoc]
    exact ih (h.update chunk)

theorem Holds.buffered {hasher : Hasher256} {input : List UInt8} (h : Holds hasher input) :
    hasher.buffer.length = input.length % 64 := by
  rw [h.buffer, length_rest]

/-- Zeros are fed until 56 bytes are buffered. -/
theorem Holds.padZeros {turns zeros : Nat} {hasher : Hasher256} {input : List UInt8} (h : Holds hasher input)
    (hzeros : zeros ≤ turns) (hleast : IsLeast {k | (input.length + k) % 64 = 56} zeros) :
    Holds (Hasher256.padZeros turns hasher) (input ++ List.replicate zeros 0) := by
  induction turns generalizing zeros hasher input with
  | zero =>
    rw [Nat.le_zero.1 hzeros]
    simpa [Hasher256.padZeros] using h
  | succ turns ih =>
    rw [Hasher256.padZeros]
    split
    · rename_i hdone
      have hzero : zeros ≤ 0 := hleast.2 (by simpa [← h.buffered] using hdone)
      rw [Nat.le_zero.1 hzero]
      simpa using h
    · rename_i hmore
      rw [h.buffered] at hmore
      cases zeros with
      | zero => exact absurd hleast.1 (by simpa using hmore)
      | succ zeros =>
        have hnext : IsLeast {k | ((input ++ [(0 : UInt8)]).length + k) % 64 = 56} zeros := by
          constructor
          · have := hleast.1
            simp only [Set.mem_ofPred_eq, List.length_append, List.length_singleton] at this ⊢
            rwa [Nat.add_assoc, Nat.add_comm 1]
          · intro k hk
            simp only [Set.mem_ofPred_eq, List.length_append, List.length_singleton] at hk
            have := hleast.2 (show (input.length + (k + 1)) % 64 = 56 by rwa [Nat.add_comm k, ← Nat.add_assoc])
            omega
        have hfed := ih (h.update [0]) (by omega) hnext
        rwa [List.append_assoc, List.singleton_append, ← List.replicate_succ] at hfed

/-- The zero bytes of the padding. -/
def zeroBytes (length : Nat) : Nat := (119 - length % 64) % 64

/-- What `final` feeds behind the input. -/
def paddedBytes (input : List UInt8) : List UInt8 :=
  input ++ 0x80 :: (List.replicate (zeroBytes input.length) 0 ++ beBytes64 (UInt64.ofNat input.length * 8))

theorem Holds.final {hasher : Hasher256} {input : List UInt8} (h : Holds hasher input) :
    ∃ s, s = feed 64 compressBlock ShaState.initial (paddedBytes input) ∧
      hasher.final = [s.a, s.b, s.c, s.d, s.e, s.f, s.g, s.h].flatMap beBytes32 := by
  have hzeros : zeroBytes input.length ≤ 64 := by
    rw [zeroBytes]
    omega
  have hleast : IsLeast {k | ((input ++ [(0x80 : UInt8)]).length + k) % 64 = 56} (zeroBytes input.length) := by
    simp only [List.length_append, List.length_singleton]
    constructor
    · simp only [Set.mem_ofPred_eq, zeroBytes]
      omega
    · intro k hk
      simp only [Set.mem_ofPred_eq] at hk
      rw [zeroBytes]
      omega
  have hall := ((h.update [0x80]).padZeros hzeros hleast).update (beBytes64 (hasher.totalBytes * 8))
  have hbytes : input ++ [0x80] ++ List.replicate (zeroBytes input.length) 0 ++ beBytes64 (hasher.totalBytes * 8) =
      paddedBytes input := by
    simp [paddedBytes, h.total]
  rw [hbytes] at hall
  exact ⟨_, hall.state.symm ▸ rfl, rfl⟩

/-- The digest depends on the bytes only, not on how they were fed. -/
theorem final_updates (chunks : List (List UInt8)) :
    (chunks.foldl Hasher256.update {}).final = sha256 chunks.flatten := by
  have hchunks := holds_start.updates chunks
  rw [List.nil_append] at hchunks
  obtain ⟨s, hs, hfinal⟩ := hchunks.final
  obtain ⟨s', hs', hfinal'⟩ := (holds_start.update chunks.flatten).final
  rw [hfinal, sha256, hfinal', hs, hs', List.nil_append]

end Hasher256

/-! ### One block -/

def ShaState.words (s : ShaState) : SecureHash.Words where
  a := s.a.toBitVec
  b := s.b.toBitVec
  c := s.c.toBitVec
  d := s.d.toBitVec
  e := s.e.toBitVec
  f := s.f.toBitVec
  g := s.g.toBitVec
  h := s.h.toBitVec

/-- The bits of a byte. -/
def byteBits (byte : UInt8) : List Bool := SecureHash.bits byte.toBitVec

@[simp] theorem length_byteBits (byte : UInt8) : (byteBits byte).length = 8 := SecureHash.length_bits _

@[simp] theorem number_byteBits (byte : UInt8) : SecureHash.number (byteBits byte) = byte.toNat :=
  SecureHash.number_bits _

theorem rotr_eq (value shift : UInt32) (hlow : 0 < shift.toNat) (hhigh : shift.toNat < 32) :
    (rotr value shift).toBitVec = value.toBitVec.rotateRight shift.toNat := by
  have hleft : (32 - shift).toNat = 32 - shift.toNat := by
    rw [UInt32.toNat_sub_of_le _ _ (UInt32.le_iff_toNat_le.2 (Nat.le_of_lt hhigh))]
    rfl
  apply BitVec.eq_of_toNat_eq
  rw [BitVec.rotateRight_def, Nat.mod_eq_of_lt hhigh, BitVec.toNat_or, BitVec.toNat_ushiftRight,
    BitVec.toNat_shiftLeft]
  simp only [rotr, UInt32.toNat_toBitVec, UInt32.toNat_or, UInt32.toNat_shiftRight, UInt32.toNat_shiftLeft, hleft,
    Nat.mod_eq_of_lt hhigh, Nat.mod_eq_of_lt (show 32 - shift.toNat < 32 by omega)]

/-- The first sixty-four primes, in order. -/
private def firstPrimes : List Nat := [
  2, 3, 5, 7, 11, 13, 17, 19, 23, 29, 31, 37, 41, 43, 47, 53, 59, 61, 67, 71, 73, 79, 83, 89, 97, 101, 103, 107, 109,
  113, 127, 131, 137, 139, 149, 151, 157, 163, 167, 173, 179, 181, 191, 193, 197, 199, 211, 223, 227, 229, 233, 239,
  241, 251, 257, 263, 269, 271, 277, 281, 283, 293, 307, 311]

private def initialWords : List UInt32 := [
  0x6a09e667, 0xbb67ae85, 0x3c6ef372, 0xa54ff53a, 0x510e527f, 0x9b05688c, 0x1f83d9ab, 0x5be0cd19]

/-- The primes before nineteen. -/
private def sieve : List Nat := [2, 3, 5, 7, 11, 13, 17]

/-- Below the square of nineteen a number is prime if no prime before nineteen divides it but itself. -/
private theorem prime_iff_sieve {n : Nat} (htwo : 2 ≤ n) (hn : n < 19 ^ 2) :
    n.Prime ↔ ∀ p ∈ sieve, n % p = 0 → p = n := by
  constructor
  · intro hprime p hp hdvd
    have hone : p ≠ 1 := by
      rintro rfl
      simp [sieve] at hp
    exact (hprime.eq_one_or_self_of_dvd p (Nat.dvd_of_mod_eq_zero hdvd)).resolve_left hone
  · intro h
    by_contra hprime
    -- the least factor of a composite number is at most its root
    have hsquare := Nat.minFac_sq_le_self (by omega) hprime
    have hfactor := Nat.minFac_prime (show n ≠ 1 by omega)
    have hsmall : n.minFac < 19 := lt_of_pow_lt_pow_left₀ 2 (by omega) (hsquare.trans_lt hn)
    have hsieve : ∀ p < 19, p.Prime → p ∈ sieve := by decide
    have hself := h _ (hsieve _ hsmall hfactor) (Nat.mod_eq_zero_of_dvd n.minFac_dvd)
    exact hprime (hself ▸ hfactor)

private theorem prime_iff_mem {n : Nat} (hn : n < 312) : n.Prime ↔ n ∈ firstPrimes := by
  have hsieve : ∀ n < 312, 2 ≤ n → ((∀ p ∈ sieve, n % p = 0 → p = n) ↔ n ∈ firstPrimes) := by
    decide +kernel
  rcases Nat.lt_or_ge n 2 with hlow | htwo
  · interval_cases n <;> decide
  · rw [prime_iff_sieve htwo (by omega), hsieve n hn htwo]

/-- Up to the last of the list, counting primes is counting its members. -/
private theorem count_prime {low width : Nat} (h : low + width ≤ 312) :
    Nat.count (fun k => (low + k).Prime) width = Nat.count (fun k => low + k ∈ firstPrimes) width := by
  rw [Nat.count_eq_card_filter_range, Nat.count_eq_card_filter_range]
  congr 1
  apply Finset.filter_congr
  intro k hk
  have hbelow := Finset.mem_range.mp hk
  exact prime_iff_mem (by omega)

private theorem count_firstPrimes {t : Nat} (ht : t < 64) : Nat.count Nat.Prime (firstPrimes.getD t 0) = t := by
  have hgaps : ∀ t < 63,
      firstPrimes.getD t 0 ≤ firstPrimes.getD (t + 1) 0 ∧ firstPrimes.getD (t + 1) 0 ≤ 312 ∧
        Nat.count (fun k => firstPrimes.getD t 0 + k ∈ firstPrimes)
          (firstPrimes.getD (t + 1) 0 - firstPrimes.getD t 0) = 1 := by
    decide +kernel
  induction t with
  | zero => decide
  | succ t ih =>
    obtain ⟨hle, hlast, hgap⟩ := hgaps t (by omega)
    rw [← Nat.add_sub_cancel' hle, Nat.count_add, ih (by omega), count_prime (by omega), hgap]

private theorem nth_firstPrimes {t : Nat} (ht : t < 64) : Nat.nth Nat.Prime t = firstPrimes.getD t 0 := by
  have hprime : (firstPrimes.getD t 0).Prime := by
    have hlisted : ∀ t < 64, firstPrimes.getD t 0 < 312 ∧ firstPrimes.getD t 0 ∈ firstPrimes := by decide
    obtain ⟨hlt, hmem⟩ := hlisted t ht
    exact (prime_iff_mem hlt).mpr hmem
  have hnth := Nat.nth_count hprime
  rwa [count_firstPrimes ht] at hnth

/-- The table holds the standard's constants. -/
theorem kRoundConstants_eq : kRoundConstants = (List.range 64).map fun t => ⟨SecureHash.roundConstant t⟩ := by
  have hroots : ∀ t < 64, ∃ whole < 8,
      (whole * 2 ^ 32 + (kRoundConstants.getD t 0).toBitVec.toNat) ^ 3 ≤ firstPrimes.getD t 0 * 2 ^ (32 * 3) ∧
        firstPrimes.getD t 0 * 2 ^ (32 * 3) < (whole * 2 ^ 32 + (kRoundConstants.getD t 0).toBitVec.toNat + 1) ^ 3 := by
    decide +kernel
  apply List.ext_getElem
  · rfl
  · intro t ht _
    obtain ⟨whole, -, hlow, hhigh⟩ := hroots t ht
    rw [List.getElem_map, List.getElem_range]
    apply UInt32.toBitVec_inj.1
    rw [SecureHash.roundConstant, nth_firstPrimes ht, SecureHash.rootFraction_of_bounds (by decide) hlow hhigh,
      List.getD_eq_getElem _ _ ht]

theorem initial_words : ShaState.initial.words = SecureHash.Words.initial := by
  have hroots : ∀ i < 8, ∃ whole < 8,
      (whole * 2 ^ 32 + (initialWords.getD i 0).toBitVec.toNat) ^ 2 ≤ firstPrimes.getD i 0 * 2 ^ (32 * 2) ∧
        firstPrimes.getD i 0 * 2 ^ (32 * 2) < (whole * 2 ^ 32 + (initialWords.getD i 0).toBitVec.toNat + 1) ^ 2 := by
    decide +kernel
  have hword (i : Nat) (hi : i < 8) :
      SecureHash.rootFraction 2 (Nat.nth Nat.Prime i) = (initialWords.getD i 0).toBitVec := by
    obtain ⟨whole, -, hlow, hhigh⟩ := hroots i hi
    rw [nth_firstPrimes (by omega), SecureHash.rootFraction_of_bounds (by decide) hlow hhigh]
  rw [SecureHash.Words.initial, hword 0 (by decide), hword 1 (by decide), hword 2 (by decide), hword 3 (by decide),
    hword 4 (by decide), hword 5 (by decide), hword 6 (by decide), hword 7 (by decide)]
  rfl

/-! ### The message schedule -/

theorem wordOf_bytes (a b c d : UInt8) :
    ((a.toUInt32 <<< 24) ||| (b.toUInt32 <<< 16) ||| (c.toUInt32 <<< 8) ||| d.toUInt32).toBitVec =
      SecureHash.wordOf ([a, b, c, d].flatMap byteBits) := by
  have ha := a.toNat_lt
  have hb := b.toNat_lt
  have hc := c.toNat_lt
  have hd := d.toNat_lt
  have hab : a.toNat <<< 24 ||| b.toNat <<< 16 = (a.toNat * 2 ^ 8 + b.toNat) <<< 16 := by
    rw [← Nat.shiftLeft_add_eq_or_of_lt (by rw [Nat.shiftLeft_eq]; omega), Nat.shiftLeft_eq, Nat.shiftLeft_eq,
      Nat.shiftLeft_eq]
    omega
  have habc : (a.toNat * 2 ^ 8 + b.toNat) <<< 16 ||| c.toNat <<< 8 =
      ((a.toNat * 2 ^ 8 + b.toNat) * 2 ^ 8 + c.toNat) <<< 8 := by
    rw [← Nat.shiftLeft_add_eq_or_of_lt (by rw [Nat.shiftLeft_eq]; omega), Nat.shiftLeft_eq, Nat.shiftLeft_eq,
      Nat.shiftLeft_eq]
    omega
  have hshift (byte : UInt8) (k : UInt32) (hk : k.toNat ≤ 24) :
      (byte.toUInt32 <<< k).toNat = byte.toNat <<< k.toNat := by
    have hbyte := byte.toNat_lt
    rw [UInt32.toNat_shiftLeft, UInt8.toNat_toUInt32, Nat.mod_eq_of_lt (show k.toNat < 32 by omega)]
    apply Nat.mod_eq_of_lt
    rw [Nat.shiftLeft_eq]
    calc byte.toNat * 2 ^ k.toNat < 2 ^ 8 * 2 ^ k.toNat := by
          apply Nat.mul_lt_mul_of_pos_right hbyte (Nat.two_pow_pos _)
      _ ≤ 2 ^ 8 * 2 ^ 24 := Nat.mul_le_mul_left _ (Nat.pow_le_pow_right (by decide) hk)
  have hword : ((a.toUInt32 <<< 24) ||| (b.toUInt32 <<< 16) ||| (c.toUInt32 <<< 8) ||| d.toUInt32).toNat =
      ((a.toNat * 2 ^ 8 + b.toNat) * 2 ^ 8 + c.toNat) * 2 ^ 8 + d.toNat := by
    rw [UInt32.toNat_or, UInt32.toNat_or, UInt32.toNat_or, hshift a 24 (by decide), hshift b 16 (by decide),
      hshift c 8 (by decide), UInt8.toNat_toUInt32]
    show a.toNat <<< 24 ||| b.toNat <<< 16 ||| c.toNat <<< 8 ||| d.toNat = _
    rw [hab, habc, ← Nat.shiftLeft_add_eq_or_of_lt hd, Nat.shiftLeft_eq]
  apply BitVec.eq_of_toNat_eq
  simp only [SecureHash.wordOf, List.flatMap_cons, List.flatMap_nil, SecureHash.number_append, number_byteBits,
    List.length_append, length_byteBits, List.length_nil, BitVec.toNat_ofNat, UInt32.toNat_toBitVec, hword]
  show _ = (a.toNat * 2 ^ 24 + (b.toNat * 2 ^ 16 + (c.toNat * 2 ^ 8 + (d.toNat * 1 + 0)))) % 2 ^ 32
  omega

/-- The words of a block are the big-endian words of its bits. -/
theorem blockWords_eq (count : Nat) {block : List UInt8} (h : block.length = 4 * count) :
    blockWords block = (List.range count).map fun t =>
      ⟨SecureHash.blockWord (block.flatMap byteBits) t⟩ := by
  induction count generalizing block with
  | zero =>
    rw [List.length_eq_zero_iff.1 h]
    rfl
  | succ count ih =>
    rcases block with _ | ⟨a, _ | ⟨b, _ | ⟨c, _ | ⟨d, block⟩⟩⟩⟩ <;> simp only [List.length_cons, List.length_nil] at h
    all_goals first | omega | skip
    have hfirst : ((a :: b :: c :: d :: block).flatMap byteBits) = [a, b, c, d].flatMap byteBits ++ block.flatMap byteBits :=
      @List.flatMap_append _ _ [a, b, c, d] block byteBits
    have hlength : ([a, b, c, d].flatMap byteBits).length = 32 := by
      simp
    rw [blockWords, ih (show block.length = 4 * count by omega), List.range_succ_eq_map, List.map_cons, List.map_map,
      hfirst]
    apply congrArg₂ List.cons
    · rw [SecureHash.blockWord, Nat.mul_zero, List.drop_zero, ← hlength, List.take_left]
      exact UInt32.toBitVec_inj.1 (wordOf_bytes a b c d)
    · apply List.map_congr_left
      intro t _
      have hskip : 32 * Nat.succ t = ([a, b, c, d].flatMap byteBits).length + 32 * t := by
        rw [hlength]
        omega
      rw [Function.comp, SecureHash.blockWord, SecureHash.blockWord, hskip, List.drop_length_add_append]

/-- The words computed so far, newest first, grow by the standard's recurrence. -/
theorem extendSchedule_eq (block : Nat → SecureHash.Word) (turns : Nat) {t : Nat} (ht : 16 ≤ t) :
    extendSchedule turns ((List.range t).reverse.map fun i => ⟨SecureHash.schedule block i⟩) =
      (List.range (t + turns)).reverse.map fun i => ⟨SecureHash.schedule block i⟩ := by
  induction turns generalizing t with
  | zero => rfl
  | succ turns ih =>
    have hword (i : Nat) (hi : i < t) :
        ((List.range t).reverse.map fun i => (⟨SecureHash.schedule block i⟩ : UInt32)).getD i 0 =
          ⟨SecureHash.schedule block (t - 1 - i)⟩ := by
      rw [List.getD_eq_getElem _ _ (by simpa using hi), List.getElem_map, List.getElem_reverse, List.getElem_range,
        List.length_range]
    have hnext : (List.range (t + 1)).reverse.map (fun i => (⟨SecureHash.schedule block i⟩ : UInt32)) =
        ⟨SecureHash.schedule block t⟩ :: (List.range t).reverse.map fun i => ⟨SecureHash.schedule block i⟩ := by
      rw [List.range_succ, List.reverse_append, List.reverse_singleton, List.singleton_append, List.map_cons]
    rw [extendSchedule, hword 14 (by omega), hword 1 (by omega), hword 15 (by omega), hword 6 (by omega),
      ← Nat.add_assoc, Nat.add_right_comm, ← ih (show 16 ≤ t + 1 by omega), hnext]
    congr 2
    apply UInt32.toBitVec_inj.1
    conv_rhs => rw [SecureHash.schedule, if_neg (show ¬t < 16 by omega)]
    simp only [UInt32.toBitVec_add, UInt32.toBitVec_xor, rotr_eq _ 7 (by decide) (by decide),
      rotr_eq _ 18 (by decide) (by decide), rotr_eq _ 17 (by decide) (by decide), rotr_eq _ 19 (by decide) (by decide)]
    have h15 : t - 1 - 14 = t - 15 := by omega
    have h2 : t - 1 - 1 = t - 2 := by omega
    have h16 : t - 1 - 15 = t - 16 := by omega
    have h7 : t - 1 - 6 = t - 7 := by omega
    rw [h15, h2, h16, h7]
    show SecureHash.schedule block (t - 16) + SecureHash.smallSigma0 (SecureHash.schedule block (t - 15)) +
      SecureHash.schedule block (t - 7) + SecureHash.smallSigma1 (SecureHash.schedule block (t - 2)) = _
    ac_rfl

/-! ### The rounds -/

theorem shaRound_words (s : ShaState) (constant word : UInt32) :
    (shaRound s (constant, word)).words = SecureHash.round s.words constant.toBitVec word.toBitVec := by
  simp only [shaRound, ShaState.words, SecureHash.round, SecureHash.bigSigma0, SecureHash.bigSigma1, SecureHash.ch,
    SecureHash.maj, UInt32.toBitVec_add, UInt32.toBitVec_xor, UInt32.toBitVec_and, UInt32.toBitVec_not,
    rotr_eq _ 2 (by decide) (by decide), rotr_eq _ 13 (by decide) (by decide), rotr_eq _ 22 (by decide) (by decide),
    rotr_eq _ 6 (by decide) (by decide), rotr_eq _ 11 (by decide) (by decide), rotr_eq _ 25 (by decide) (by decide)]
  rfl

theorem rounds_words (times : List Nat) (constant word : Nat → UInt32) (s : ShaState) :
    ((times.map fun t => (constant t, word t)).foldl shaRound s).words =
      times.foldl (fun s t => SecureHash.round s (constant t).toBitVec (word t).toBitVec) s.words := by
  induction times generalizing s with
  | nil => rfl
  | cons t times ih => rw [List.map_cons, List.foldl_cons, List.foldl_cons, ih, shaRound_words]

/-- One block is compressed as the standard compresses its bits. -/
theorem compressBlock_words (s : ShaState) (block : List UInt8) (h : block.length = 64) :
    (compressBlock s block).words = SecureHash.compress s.words (block.flatMap byteBits) := by
  have hschedule : (extendSchedule 48 (blockWords block).reverse).reverse = (List.range 64).map fun t =>
      (⟨SecureHash.schedule (SecureHash.blockWord (block.flatMap byteBits)) t⟩ : UInt32) := by
    have hwords : (blockWords block).reverse = (List.range 16).reverse.map fun t =>
        (⟨SecureHash.schedule (SecureHash.blockWord (block.flatMap byteBits)) t⟩ : UInt32) := by
      rw [blockWords_eq 16 h, ← List.map_reverse]
      apply List.map_congr_left
      intro t ht
      rw [SecureHash.schedule, if_pos (List.mem_range.1 (List.mem_reverse.1 ht))]
    rw [hwords, extendSchedule_eq _ 48 (Nat.le_refl 16), ← List.map_reverse, List.reverse_reverse]
  have hrounds := rounds_words (List.range 64) (fun t => ⟨SecureHash.roundConstant t⟩)
    (fun t => ⟨SecureHash.schedule (SecureHash.blockWord (block.flatMap byteBits)) t⟩) s
  rw [← List.zip_map', ← kRoundConstants_eq, ← hschedule] at hrounds
  rw [SecureHash.compress, ← hrounds]
  rfl

/-! ### The whole input -/

theorem beBytes32_bits (value : UInt32) : (beBytes32 value).flatMap byteBits = SecureHash.bits value.toBitVec := by
  apply SecureHash.number_inj
  · rfl
  · simp only [beBytes32, leBytes32, List.reverse_cons, List.reverse_nil, List.nil_append, List.cons_append,
      List.flatMap_cons, List.flatMap_nil, SecureHash.number_append, SecureHash.number_bits, number_byteBits,
      List.length_append, length_byteBits, List.length_nil, UInt32.toNat_toBitVec, UInt32.toNat_toUInt8,
      UInt32.toNat_shiftRight, Nat.shiftRight_eq_div_pow]
    have hvalue := value.toNat_lt
    show value.toNat / 2 ^ 24 % 2 ^ 8 * 2 ^ 24 + (value.toNat / 2 ^ 16 % 2 ^ 8 * 2 ^ 16 +
      (value.toNat / 2 ^ 8 % 2 ^ 8 * 2 ^ 8 + (value.toNat % 2 ^ 8 * 1 + 0))) = value.toNat
    omega

theorem beBytes64_bits (value : UInt64) : (beBytes64 value).flatMap byteBits = SecureHash.bits value.toBitVec := by
  apply SecureHash.number_inj
  · rfl
  · simp only [beBytes64, leBytes64, List.reverse_cons, List.reverse_nil, List.nil_append, List.cons_append,
      List.flatMap_cons, List.flatMap_nil, SecureHash.number_append, SecureHash.number_bits, number_byteBits,
      List.length_append, length_byteBits, List.length_nil, UInt64.toNat_toBitVec, UInt64.toNat_toUInt8,
      UInt64.toNat_shiftRight, Nat.shiftRight_eq_div_pow]
    have hvalue := value.toNat_lt
    show value.toNat / 2 ^ 56 % 2 ^ 8 * 2 ^ 56 + (value.toNat / 2 ^ 48 % 2 ^ 8 * 2 ^ 48 +
      (value.toNat / 2 ^ 40 % 2 ^ 8 * 2 ^ 40 + (value.toNat / 2 ^ 32 % 2 ^ 8 * 2 ^ 32 +
      (value.toNat / 2 ^ 24 % 2 ^ 8 * 2 ^ 24 + (value.toNat / 2 ^ 16 % 2 ^ 8 * 2 ^ 16 +
      (value.toNat / 2 ^ 8 % 2 ^ 8 * 2 ^ 8 + (value.toNat % 2 ^ 8 * 1 + 0))))))) = value.toNat
    omega

theorem zeros_bits (count : Nat) :
    (List.replicate count (0 : UInt8)).flatMap byteBits = List.replicate (count * 8) false := by
  induction count with
  | zero => rfl
  | succ count ih =>
    rw [List.replicate_succ, List.flatMap_cons, ih, Nat.succ_mul, Nat.add_comm, List.replicate_add]
    rfl

/-- A byte string of fewer than 2 ^ 61 bytes as a message of the standard. -/
def messageOf (input : List UInt8) (h : input.length < 2 ^ 61) : SecureHash.Message where
  bits := input.flatMap byteBits
  short := by
    rw [length_spell byteBits length_byteBits]
    omega

theorem paddedBytes_bits (input : List UInt8) (h : input.length < 2 ^ 61) :
    (Hasher256.paddedBytes input).flatMap byteBits = (messageOf input h).padded := by
  have hbits : (input.flatMap byteBits).length = input.length * 8 := length_spell byteBits length_byteBits input
  have hlength : (UInt64.ofNat input.length * 8).toBitVec = BitVec.ofNat 64 (input.flatMap byteBits).length := by
    rw [hbits, BitVec.ofNat_mul]
    rfl
  have hzeros : SecureHash.paddingZeros (input.flatMap byteBits).length =
      7 + Hasher256.zeroBytes input.length * 8 := by
    rw [hbits, SecureHash.paddingZeros, Hasher256.zeroBytes]
    omega
  rw [Hasher256.paddedBytes, SecureHash.Message.padded, List.flatMap_append, List.flatMap_cons, List.flatMap_append,
    zeros_bits, beBytes64_bits, hlength]
  show _ = input.flatMap byteBits ++ true :: (List.replicate (SecureHash.paddingZeros (input.flatMap byteBits).length)
    false ++ SecureHash.bits (BitVec.ofNat 64 (input.flatMap byteBits).length))
  rw [hzeros, List.replicate_add, List.append_assoc]
  rfl

theorem Hasher256.Holds.standard {hasher : Hasher256} {input : List UInt8} (hholds : hasher.Holds input)
    (h : input.length < 2 ^ 61) : hasher.final.flatMap byteBits = SecureHash.hash (messageOf input h) := by
  obtain ⟨s, hs, hfinal⟩ := hholds.final
  have hwords : s.words = feed 512 SecureHash.compress SecureHash.Words.initial (messageOf input h).padded := by
    rw [hs, feed_refines ShaState.words byteBits (by decide) length_byteBits compressBlock_words, initial_words,
      paddedBytes_bits input h]
  rw [hfinal, SecureHash.hash, ← hwords, SecureHash.Words.digest]
  simp only [List.flatMap_assoc, beBytes32_bits]
  rfl

/-- Any way of feeding fewer than 2 ^ 61 bytes to the hasher ends in the standard's digest of them all. -/
theorem streaming_standard (chunks : List (List UInt8)) (h : chunks.flatten.length < 2 ^ 61) :
    (chunks.foldl Hasher256.update {}).final.flatMap byteBits = SecureHash.hash (messageOf chunks.flatten h) := by
  have hholds := Hasher256.holds_start.updates chunks
  rw [List.nil_append] at hholds
  exact hholds.standard h

theorem streaming_standard_abc :
    ([[], [0x61], [], [0x62, 0x63]].foldl Hasher256.update {}).final.flatMap byteBits =
      SecureHash.hash (messageOf [0x61, 0x62, 0x63] (by decide)) :=
  streaming_standard [[], [0x61], [], [0x62, 0x63]] (by decide)

theorem sha256_standard (data : List UInt8) (h : data.length < 2 ^ 61) :
    (sha256 data).flatMap byteBits = SecureHash.hash (messageOf data h) :=
  (Hasher256.holds_start.update data).standard h

end AgentScheduler
