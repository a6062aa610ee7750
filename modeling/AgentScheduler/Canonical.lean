import AgentScheduler.ByteCodec

/-! Readers that accept only what a writer writes, and writers whose output is always read back. -/
namespace ByteCodec

/-! ### Words -/

theorem leBytes32_joinLe32 (a b c d : UInt8) : leBytes32 (joinLe32 [a, b, c, d]) = [a, b, c, d] := by
  simp only [joinLe32, leBytes32, List.foldr_cons, List.foldr_nil, List.cons.injEq, and_true]
  refine ⟨?_, ?_, ?_, ?_⟩
  all_goals
    apply UInt8.toBitVec_inj.mp
    ext i hi
    simp <;> grind

theorem leBytes64_joinLe64 (a b c d e f g h : UInt8) :
    leBytes64 (joinLe64 [a, b, c, d, e, f, g, h]) = [a, b, c, d, e, f, g, h] := by
  simp only [joinLe64, leBytes64, List.foldr_cons, List.foldr_nil, List.cons.injEq, and_true]
  refine ⟨?_, ?_, ?_, ?_, ?_, ?_, ?_, ?_⟩
  all_goals
    apply UInt8.toBitVec_inj.mp
    ext i hi
    simp <;> grind

/-! ### Byte windows -/

/-- The `count` bytes of an input at an offset. -/
def window (file : List UInt8) (offset count : Nat) : List UInt8 := (file.drop offset).take count

theorem length_window {file : List UInt8} {offset count : Nat} (h : offset + count ≤ file.length) :
    (window file offset count).length = count := by
  simp [window]
  omega

/-- A window that does not hold the changed byte is not changed. -/
theorem window_set {file : List UInt8} {offset count k : Nat} {byte : UInt8}
    (h : k < offset ∨ offset + count ≤ k) : window (file.set k byte) offset count = window file offset count := by
  apply List.ext_getElem?
  intro i
  simp only [window, List.getElem?_take, List.getElem?_drop]
  split
  · rw [List.getElem?_set_ne (by omega)]
  · rfl

/-- A window that holds the changed byte is changed. -/
theorem window_set_ne {file : List UInt8} {offset count k : Nat} {byte : UInt8} (hk : k < file.length)
    (hlow : offset ≤ k) (hhigh : k < offset + count) (hbyte : byte ≠ file[k]) :
    window (file.set k byte) offset count ≠ window file offset count := by
  intro h
  have hget := congrArg (·[k - offset]?) h
  simp only [window, List.getElem?_take, List.getElem?_drop] at hget
  rw [if_pos (by omega), if_pos (by omega), Nat.add_sub_cancel' hlow, List.getElem?_set_self hk,
    List.getElem?_eq_getElem hk] at hget
  exact hbyte (Option.some.inj hget)

theorem take_eq_window (file : List UInt8) (count : Nat) : file.take count = window file 0 count := by
  rw [window, List.drop_zero]

theorem window_at {file pre mid post : List UInt8} {offset count : Nat} (hfile : file = pre ++ (mid ++ post))
    (hpre : pre.length = offset) (hmid : mid.length = count) : window file offset count = mid := by
  subst hfile hpre hmid
  simp [window]

end ByteCodec
