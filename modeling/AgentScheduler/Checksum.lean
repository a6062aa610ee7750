import AgentScheduler.Digest

/-! The CRC-32 of `digest.cpp` tells apart byte strings that differ in one byte. -/
namespace AgentScheduler

/-- One byte of the `crc32` loop. -/
def crcStep (value : UInt32) (byte : UInt8) : UInt32 :=
  crcEntry 8 ((value ^^^ byte.toUInt32) &&& 0xFF) ^^^ (value >>> 8)

theorem crc32_eq (data : List UInt8) : crc32 data = data.foldl crcStep 0xFFFFFFFF ^^^ 0xFFFFFFFF := rfl

private theorem table_index (value : UInt32) (byte : UInt8) :
    (value ^^^ byte.toUInt32) &&& 0xFF = (value.toUInt8 ^^^ byte).toUInt32 := by
  have hbyte := byte.toNat_lt
  apply UInt32.toNat_inj.mp
  rw [UInt32.toNat_and, UInt32.toNat_xor, UInt8.toNat_toUInt32, UInt8.toNat_toUInt32, UInt8.toNat_xor,
    UInt32.toNat_toUInt8]
  calc (value.toNat ^^^ byte.toNat) &&& (2 ^ 8 - 1)
      = (value.toNat ^^^ byte.toNat) % 2 ^ 8 := Nat.and_two_pow_sub_one_eq_mod _ _
    _ = value.toNat % 2 ^ 8 ^^^ byte.toNat % 2 ^ 8 := Nat.xor_mod_two_pow
    _ = value.toNat % 2 ^ 8 ^^^ byte.toNat := by rw [Nat.mod_eq_of_lt hbyte]

/-- The shift steps of a table entry, taken back: the top bit of a word says whether the polynomial went in. -/
private def crcUndo : Nat → UInt32 → UInt32
  | 0, value => value
  | n + 1, value =>
    crcUndo n (if value < 0x80000000 then value <<< 1 else ((value ^^^ 0xEDB88320) <<< 1) ||| 1)

set_option maxRecDepth 20000 in
/-- The leading byte of a table entry gives back its index. -/
private theorem table_undo :
    ∀ i < 256, (crcUndo 8 ((crcEntry 8 (UInt32.ofNat i) >>> 24) <<< 24)).toNat % 256 = i := by decide +kernel

private theorem table_injective {i j : UInt8}
    (h : crcEntry 8 i.toUInt32 >>> 24 = crcEntry 8 j.toUInt32 >>> 24) : i = j := by
  have hword : ∀ k : UInt8, k.toUInt32 = UInt32.ofNat k.toNat := fun k => by
    apply UInt32.toNat_inj.mp
    have := k.toNat_lt
    simp
  rw [hword, hword] at h
  apply UInt8.toNat_inj.mp
  calc i.toNat = (crcUndo 8 ((crcEntry 8 (UInt32.ofNat i.toNat) >>> 24) <<< 24)).toNat % 256 :=
        (table_undo i.toNat i.toNat_lt).symm
    _ = (crcUndo 8 ((crcEntry 8 (UInt32.ofNat j.toNat) >>> 24) <<< 24)).toNat % 256 := by rw [h]
    _ = j.toNat := table_undo j.toNat j.toNat_lt

private theorem step_top (value : UInt32) (byte : UInt8) :
    crcStep value byte >>> 24 = crcEntry 8 (value.toUInt8 ^^^ byte).toUInt32 >>> 24 := by
  rw [crcStep, table_index]
  generalize crcEntry 8 (value.toUInt8 ^^^ byte).toUInt32 = entry
  apply UInt32.toBitVec_inj.mp
  ext i hi
  simp
  grind

/-- A step determines its table index and the bits it shifts in. -/
theorem crcStep_inj {v w : UInt32} {b c : UInt8} (h : crcStep v b = crcStep w c) :
    v.toUInt8 ^^^ b = w.toUInt8 ^^^ c ∧ v >>> 8 = w >>> 8 := by
  have hindex : v.toUInt8 ^^^ b = w.toUInt8 ^^^ c := by
    apply table_injective
    rw [← step_top, ← step_top, h]
  refine ⟨hindex, ?_⟩
  rw [crcStep, crcStep, table_index, table_index, hindex] at h
  exact (UInt32.xor_right_inj _).mp h

/-- Different states stay different over the same bytes. -/
theorem crcStep_state {v w : UInt32} {b : UInt8} (h : crcStep v b = crcStep w b) : v = w := by
  obtain ⟨hindex, hshift⟩ := crcStep_inj h
  have hlow : v.toUInt8 = w.toUInt8 := (UInt8.xor_left_inj _).mp hindex
  have hlowNat := congrArg UInt8.toNat hlow
  have hshiftNat := congrArg UInt32.toNat hshift
  simp [UInt32.toNat_shiftRight, Nat.shiftRight_eq_div_pow] at hlowNat hshiftNat
  apply UInt32.toNat_inj.mp
  omega

theorem crc_fold_inj {v w : UInt32} (bytes : List UInt8)
    (h : bytes.foldl crcStep v = bytes.foldl crcStep w) : v = w := by
  induction bytes generalizing v w with
  | nil => exact h
  | cons b rest ih => exact crcStep_state (ih h)

/-- `crc32` tells apart any two byte strings that differ in one byte. -/
theorem crc32_single {before after : List UInt8} {b c : UInt8}
    (h : crc32 (before ++ b :: after) = crc32 (before ++ c :: after)) : b = c := by
  rw [crc32_eq, crc32_eq, UInt32.xor_left_inj, List.foldl_append, List.foldl_append, List.foldl_cons,
    List.foldl_cons] at h
  have hstep := crc_fold_inj after h
  exact (UInt8.xor_right_inj _).mp (crcStep_inj hstep).1

theorem crc32_set {data : List UInt8} {k : Nat} {byte : UInt8} (hk : k < data.length)
    (h : crc32 (data.set k byte) = crc32 data) : byte = data[k] := by
  have hdata : data = data.take k ++ data[k] :: data.drop (k + 1) := by simp
  rw [List.set_eq_take_append_cons_drop, if_pos hk] at h
  apply crc32_single
  rw [h]
  exact congrArg crc32 hdata

end AgentScheduler
