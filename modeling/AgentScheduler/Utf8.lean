import Mathlib

/-! UTF-8: the encodings of sequences of Unicode scalar values, and what their bytes look like. -/
namespace Utf8

/-! ### Encodings -/

/-- The bytes of a sequence of Unicode scalar values. -/
def encode (codePoints : List Char) : List UInt8 := codePoints.flatMap String.utf8EncodeChar

/-- The concatenations of encodings of scalar values. -/
def WellFormed (bytes : List UInt8) : Prop := ∃ codePoints, encode codePoints = bytes

@[simp] theorem encode_nil : encode [] = [] := rfl

theorem encode_cons (c : Char) (codePoints : List Char) :
    encode (c :: codePoints) = String.utf8EncodeChar c ++ encode codePoints := rfl

@[simp] theorem encode_append (left right : List Char) : encode (left ++ right) = encode left ++ encode right :=
  List.flatMap_append

/-- A byte string encodes at most one sequence. -/
theorem encode_injective : Function.Injective encode := by
  intro left right h
  apply String.ofList_injective
  apply String.toByteArray_inj.mp
  exact congrArg List.toByteArray h

/-- The list of a byte array, by its loop. -/
theorem toList_loop (bytes : ByteArray) (index : Nat) (taken : List UInt8) :
    ByteArray.toList.loop bytes index taken = taken.reverse ++ bytes.data.toList.drop index := by
  fun_induction ByteArray.toList.loop bytes index taken with
  | case1 index taken hindex ih =>
    have hin : index < bytes.data.toList.length := hindex
    have hget : bytes.get! index = bytes.data.toList[index] := by
      rw [Array.getElem_toList]
      exact getElem!_pos bytes.data index hindex
    rw [ih, List.drop_eq_getElem_cons hin, hget, List.reverse_cons, List.append_assoc]
    rfl
  | case2 index taken hindex =>
    have hout : bytes.data.toList.length ≤ index := Nat.le_of_not_lt hindex
    rw [List.drop_eq_nil_of_le hout, List.append_nil]

/-- The bytes of a string encode its characters. -/
theorem toList_toUTF8 (s : String) : s.toUTF8.toList = encode s.toList := by
  have hdata : s.toUTF8.toList = s.toByteArray.data.toList := toList_loop s.toByteArray 0 []
  rw [hdata, ← String.utf8Encode_toList]
  exact List.toList_data_toByteArray

/-! ### The shape of one encoding -/

/-- The encodings of a scalar value, by its range. -/
inductive Encodes (c : Char) : List UInt8 → Prop
  | one {b : UInt8} (hrange : c.toNat < 0x80) (hb : b.toNat = c.toNat) : Encodes c [b]
  | two {b x : UInt8} (hlow : 0x80 ≤ c.toNat) (hhigh : c.toNat < 0x800) (hb : b.toNat = 0xC0 + c.toNat / 64)
      (hx : x.toNat = 0x80 + c.toNat % 64) : Encodes c [b, x]
  | three {b x y : UInt8} (hlow : 0x800 ≤ c.toNat) (hhigh : c.toNat < 0x10000)
      (hb : b.toNat = 0xE0 + c.toNat / 4096) (hx : x.toNat = 0x80 + c.toNat / 64 % 64)
      (hy : y.toNat = 0x80 + c.toNat % 64) : Encodes c [b, x, y]
  | four {b x y z : UInt8} (hlow : 0x10000 ≤ c.toNat) (hb : b.toNat = 0xF0 + c.toNat / 262144)
      (hx : x.toNat = 0x80 + c.toNat / 4096 % 64) (hy : y.toNat = 0x80 + c.toNat / 64 % 64)
      (hz : z.toNat = 0x80 + c.toNat % 64) : Encodes c [b, x, y, z]

theorem toNat_lt (c : Char) : c.toNat < 0x110000 := by
  have hvalid := c.valid
  simp only [UInt32.isValidChar, Nat.isValidChar] at hvalid
  change c.val.toNat < 0x110000
  omega

theorem encodes_utf8EncodeChar (c : Char) : Encodes c (String.utf8EncodeChar c) := by
  have hbound := toNat_lt c
  have hval : c.val.toNat = c.toNat := rfl
  simp only [String.utf8EncodeChar, hval]
  split
  next h =>
    refine .one (by omega) ?_
    rw [UInt8.toNat_ofNat']
    omega
  next hone =>
    split
    next h =>
      refine .two (by omega) (by omega) ?_ ?_
      · rw [UInt8.toNat_ofNat']
        omega
      · rw [UInt8.toNat_ofNat']
        omega
    next htwo =>
      split
      next h =>
        refine .three (by omega) (by omega) ?_ ?_ ?_
        · rw [UInt8.toNat_ofNat']
          omega
        · rw [UInt8.toNat_ofNat']
          omega
        · rw [UInt8.toNat_ofNat']
          omega
      next hthree =>
        refine .four (by omega) ?_ ?_ ?_ ?_
        · rw [UInt8.toNat_ofNat']
          omega
        · rw [UInt8.toNat_ofNat']
          omega
        · rw [UInt8.toNat_ofNat']
          omega
        · rw [UInt8.toNat_ofNat']
          omega

/-- The shape determines the bytes. -/
theorem Encodes.unique {c : Char} {left right : List UInt8} (hleft : Encodes c left) (hright : Encodes c right) :
    left = right := by
  cases hleft <;> cases hright <;> first
    | omega
    | simp only [List.cons.injEq, and_true, ← UInt8.toNat_inj]
      omega

theorem encodes_iff {c : Char} {bytes : List UInt8} : Encodes c bytes ↔ String.utf8EncodeChar c = bytes := by
  constructor
  · intro h
    exact (encodes_utf8EncodeChar c).unique h
  · rintro rfl
    exact encodes_utf8EncodeChar c

theorem encode_ascii {c : Char} (h : c.toNat < 0x80) : encode [c] = [c.toUInt8] := by
  have hencodes : Encodes c [c.toUInt8] := by
    refine .one h ?_
    change c.val.toUInt8.toNat = c.val.toNat
    rw [UInt32.toNat_toUInt8]
    apply Nat.mod_eq_of_lt
    change c.toNat < 256
    omega
  rw [encode_cons, encodes_iff.mp hencodes]
  rfl

/-! ### Extending well-formed text -/

theorem wellFormed_nil : WellFormed [] := ⟨[], rfl⟩

theorem wellFormed_encodes_append {c : Char} {bytes rest : List UInt8} (h : Encodes c bytes) (hrest : WellFormed rest) :
    WellFormed (bytes ++ rest) := by
  obtain ⟨codePoints, rfl⟩ := hrest
  refine ⟨c :: codePoints, ?_⟩
  rw [encode_cons, encodes_iff.mp h]

/-- Well-formed text starts with the encoding of a scalar value. -/
theorem WellFormed.uncons {b : UInt8} {bytes : List UInt8} (h : WellFormed (b :: bytes)) :
    ∃ c first rest, Encodes c first ∧ WellFormed rest ∧ b :: bytes = first ++ rest := by
  obtain ⟨codePoints, hcode⟩ := h
  cases codePoints with
  | nil => cases hcode
  | cons c codePoints =>
    refine ⟨c, String.utf8EncodeChar c, encode codePoints, encodes_utf8EncodeChar c, ⟨codePoints, rfl⟩, ?_⟩
    rw [← hcode, encode_cons]

/-! ### Control code points and the bytes that share their values -/

/-- The C0 and C1 control code points and DEL. -/
def IsControl (c : Char) : Prop := c.toNat < 0x20 ∨ c.toNat = 0x7F ∨ 0x80 ≤ c.toNat ∧ c.toNat ≤ 0x9F

instance : DecidablePred IsControl :=
  fun c => inferInstanceAs (Decidable (c.toNat < 0x20 ∨ c.toNat = 0x7F ∨ 0x80 ≤ c.toNat ∧ c.toNat ≤ 0x9F))

/-- A byte with the value of a C1 control code point. -/
def IsC1Byte (b : UInt8) : Prop := 0x80 ≤ b ∧ b ≤ 0x9F

instance : DecidablePred IsC1Byte := fun b => inferInstanceAs (Decidable (0x80 ≤ b ∧ b ≤ 0x9F))

theorem isC1Byte_iff {b : UInt8} : IsC1Byte b ↔ 0x80 ≤ b.toNat ∧ b.toNat ≤ 0x9F := Iff.rfl

/-- Well-formed text without control code points. -/
def Clean (bytes : List UInt8) : Prop := ∃ codePoints, encode codePoints = bytes ∧ ∀ c ∈ codePoints, ¬ IsControl c

/-- Control code points show as bytes of their own value, and continuation bytes may share the C1 values. -/
theorem Encodes.control_iff {c : Char} {bytes : List UInt8} (h : Encodes c bytes) :
    (∃ b ∈ bytes, b < 0x20 ∨ b = 0x7F ∨ IsC1Byte b) ↔ IsControl c ∨ ∃ b ∈ bytes, IsC1Byte b := by
  simp only [isC1Byte_iff, UInt8.lt_iff_toNat_lt, ← UInt8.toNat_inj, UInt8.reduceToNat, IsControl]
  cases h with
  | one hrange hb =>
    simp only [List.mem_singleton, exists_eq_left]
    omega
  | two hlow hhigh hb hx =>
    simp only [List.mem_cons, List.not_mem_nil, or_false, exists_eq_or_imp, exists_eq_left]
    omega
  | three hlow hhigh hb hx hy =>
    simp only [List.mem_cons, List.not_mem_nil, or_false, exists_eq_or_imp, exists_eq_left]
    omega
  | four hlow hb hx hy hz =>
    have hbound := toNat_lt c
    simp only [List.mem_cons, List.not_mem_nil, or_false, exists_eq_or_imp, exists_eq_left]
    omega

/-! ### Owed continuation bytes -/

/-- The continuation bytes a byte announces, less the one it is. -/
def owed (b : UInt8) : Int :=
  if b < 0x80 then 0 else if b < 0xC0 then -1 else if b < 0xE0 then 1 else if b < 0xF0 then 2 else 3

def totalOwed (bytes : List UInt8) : Int := (bytes.map owed).sum

@[simp] theorem totalOwed_nil : totalOwed [] = 0 := rfl

@[simp] theorem totalOwed_cons (b : UInt8) (bytes : List UInt8) : totalOwed (b :: bytes) = owed b + totalOwed bytes := by
  simp [totalOwed]

@[simp] theorem totalOwed_append (left right : List UInt8) :
    totalOwed (left ++ right) = totalOwed left + totalOwed right := by
  simp [totalOwed]

theorem owed_of_lt {b : UInt8} (h : b.toNat < 0x80) : owed b = 0 := if_pos h

theorem Encodes.totalOwed {c : Char} {bytes : List UInt8} (h : Encodes c bytes) : totalOwed bytes = 0 := by
  have hbound := toNat_lt c
  cases h <;>
    simp only [totalOwed_cons, totalOwed_nil, owed, UInt8.lt_iff_toNat_lt, UInt8.reduceToNat] <;>
    grind

/-- Well-formed text leaves no continuation byte owed. -/
theorem WellFormed.totalOwed {bytes : List UInt8} (h : WellFormed bytes) : totalOwed bytes = 0 := by
  obtain ⟨codePoints, rfl⟩ := h
  induction codePoints with
  | nil => rfl
  | cons c codePoints ih =>
    rw [encode_cons, totalOwed_append, (encodes_utf8EncodeChar c).totalOwed, ih]
    rfl

end Utf8
