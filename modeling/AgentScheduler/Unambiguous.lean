import AgentScheduler.ByteCodec

/-! Concatenated encodings that can be taken apart in one way only. -/
namespace Unambiguous
open ByteCodec

theorem append_inj_of_length {α : Type} {xs ys rest rest' : List α} (h : xs.length = ys.length) :
    xs ++ rest = ys ++ rest' ↔ xs = ys ∧ rest = rest' := by
  constructor
  · intro heq
    exact List.append_inj heq h
  · rintro ⟨rfl, rfl⟩
    rfl

@[simp] theorem leBytes32_inj {a b : UInt32} : leBytes32 a = leBytes32 b ↔ a = b := by
  constructor
  · intro h
    rw [← joinLe32_leBytes32 a, h, joinLe32_leBytes32]
  · rintro rfl
    rfl

@[simp] theorem leBytes64_inj {a b : UInt64} : leBytes64 a = leBytes64 b ↔ a = b := by
  constructor
  · intro h
    rw [← joinLe64_leBytes64 a, h, joinLe64_leBytes64]
  · rintro rfl
    rfl

@[simp] theorem leBytes32_append {a b : UInt32} {rest rest' : List UInt8} :
    leBytes32 a ++ rest = leBytes32 b ++ rest' ↔ a = b ∧ rest = rest' := by
  rw [append_inj_of_length (show (leBytes32 a).length = (leBytes32 b).length from rfl), leBytes32_inj]

@[simp] theorem leBytes64_append {a b : UInt64} {rest rest' : List UInt8} :
    leBytes64 a ++ rest = leBytes64 b ++ rest' ↔ a = b ∧ rest = rest' := by
  rw [append_inj_of_length (show (leBytes64 a).length = (leBytes64 b).length from rfl), leBytes64_inj]

/-- Two machine words tell a natural number up to their width. -/
theorem ofNat32_inj {m n : Nat} : UInt32.ofNat m = UInt32.ofNat n ↔ m % 2 ^ 32 = n % 2 ^ 32 := by
  rw [← UInt32.toNat_inj, UInt32.toNat_ofNat', UInt32.toNat_ofNat']

theorem ofNat64_inj {m n : Nat} : UInt64.ofNat m = UInt64.ofNat n ↔ m % 2 ^ 64 = n % 2 ^ 64 := by
  rw [← UInt64.toNat_inj, UInt64.toNat_ofNat', UInt64.toNat_ofNat']

theorem ofNat32_inj_of_lt {m n : Nat} (hm : m < 2 ^ 32) (hn : n < 2 ^ 32) :
    UInt32.ofNat m = UInt32.ofNat n ↔ m = n := by
  rw [ofNat32_inj, Nat.mod_eq_of_lt hm, Nat.mod_eq_of_lt hn]

theorem ofNat64_inj_of_lt {m n : Nat} (hm : m < 2 ^ 64) (hn : n < 2 ^ 64) :
    UInt64.ofNat m = UInt64.ofNat n ↔ m = n := by
  rw [ofNat64_inj, Nat.mod_eq_of_lt hm, Nat.mod_eq_of_lt hn]

/-- A byte that numbers the values of an enumeration. -/
theorem ofNat8_inj {α : Type} {index : α → Nat} {value : Nat → α} (hvalue : ∀ a, value (index a) = a)
    (hindex : ∀ a, index a < 256) {a b : α} : UInt8.ofNat (index a) = UInt8.ofNat (index b) ↔ a = b := by
  constructor
  · intro h
    have hnat := congrArg UInt8.toNat h
    rw [UInt8.toNat_ofNat', UInt8.toNat_ofNat', Nat.mod_eq_of_lt (hindex a), Nat.mod_eq_of_lt (hindex b)] at hnat
    rw [← hvalue a, hnat, hvalue]
  · rintro rfl
    rfl

/-- An encoding that ends by itself and tells `view` of what it encodes. -/
def Tells {α β : Type} (encode : α → List UInt8) (good : α → Prop) (view : α → β) : Prop :=
  ∀ x y, good x → good y → ∀ rest rest', encode x ++ rest = encode y ++ rest' ↔ view x = view y ∧ rest = rest'

section Lists
variable {α β : Type} {encode : α → List UInt8} {good : α → Prop} {view : α → β}

/-- Lists of one length are told item by item. -/
theorem Tells.items (h : Tells encode good view) {xs ys : List α} (hlength : xs.length = ys.length)
    (hxs : ∀ x ∈ xs, good x) (hys : ∀ y ∈ ys, good y) (rest rest' : List UInt8) :
    xs.flatMap encode ++ rest = ys.flatMap encode ++ rest' ↔ xs.map view = ys.map view ∧ rest = rest' := by
  induction xs generalizing ys with
  | nil =>
    rw [List.length_eq_zero_iff.1 hlength.symm]
    simp
  | cons x xs ih =>
    cases ys with
    | nil => cases hlength
    | cons y ys =>
      rw [List.flatMap_cons, List.flatMap_cons, List.append_assoc, List.append_assoc,
        h x y (hxs x List.mem_cons_self) (hys y List.mem_cons_self),
        ih (Nat.succ.inj hlength) (fun x hx => hxs x (List.mem_cons_of_mem _ hx))
          (fun y hy => hys y (List.mem_cons_of_mem _ hy)),
        List.map_cons, List.map_cons, List.cons.injEq, and_assoc]

/-- The count in front of a list and then its items. -/
def counted (encode : α → List UInt8) (items : List α) : List UInt8 :=
  leBytes64 (UInt64.ofNat items.length) ++ items.flatMap encode

/-- No more items than a 64-bit count can say, all of them good. -/
def Countable (good : α → Prop) (items : List α) : Prop := items.length < 2 ^ 64 ∧ ∀ item ∈ items, good item

theorem Tells.counted (h : Tells encode good view) :
    Tells (Unambiguous.counted encode) (Countable good) (List.map view) := by
  intro xs ys hxs hys rest rest'
  rw [Unambiguous.counted, Unambiguous.counted, List.append_assoc, List.append_assoc, leBytes64_append,
    ofNat64_inj_of_lt hxs.1 hys.1]
  constructor
  · rintro ⟨hlength, heq⟩
    exact (h.items hlength hxs.2 hys.2 rest rest').1 heq
  · rintro ⟨hview, hrest⟩
    have hlength : xs.length = ys.length := by simpa using congrArg List.length hview
    exact ⟨hlength, (h.items hlength hxs.2 hys.2 rest rest').2 ⟨hview, hrest⟩⟩

end Lists
end Unambiguous
