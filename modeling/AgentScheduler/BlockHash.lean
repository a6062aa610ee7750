import Mathlib.Data.List.Basic
import Mathlib.Algebra.Order.Group.Nat

/-! Iterated compression: a state folded over the whole blocks of an input, and what is left over. -/
namespace BlockHash

section Blocks
variable {Item : Type} (size : Nat)

/-- The first `count` blocks of an input. -/
def blocks : Nat → List Item → List (List Item)
  | 0, _ => []
  | count + 1, input => input.take size :: blocks count (input.drop size)

/-- What is left behind the whole blocks. -/
def rest (input : List Item) : List Item := input.drop (size * (input.length / size))

@[simp] theorem length_rest (input : List Item) : (rest size input).length = input.length % size := by
  have := Nat.div_add_mod input.length size
  simp only [rest, List.length_drop]
  omega

theorem rest_lt (hsize : 0 < size) (input : List Item) : (rest size input).length < size := by
  rw [length_rest]
  exact Nat.mod_lt _ hsize

theorem rest_of_lt {input : List Item} (h : input.length < size) : rest size input = input := by
  simp [rest, Nat.div_eq_of_lt h]

theorem blocks_add (m n : Nat) (input : List Item) :
    blocks size (m + n) input = blocks size m input ++ blocks size n (input.drop (size * m)) := by
  induction m generalizing input with
  | zero => simp [blocks]
  | succ m ih =>
    rw [Nat.add_right_comm, blocks, blocks, ih, List.drop_drop, List.cons_append, Nat.mul_succ, Nat.add_comm size]

/-- Whole blocks of a prefix are blocks of the input. -/
theorem blocks_append (count : Nat) {xs : List Item} (ys : List Item) (h : size * count ≤ xs.length) :
    blocks size count (xs ++ ys) = blocks size count xs := by
  induction count generalizing xs with
  | zero => rfl
  | succ count ih =>
    rw [Nat.mul_succ] at h
    have hfirst : size ≤ xs.length := by omega
    have hrest : size * count ≤ (xs.drop size).length := by
      rw [List.length_drop]
      omega
    rw [blocks, blocks, List.take_append_of_le_length hfirst, List.drop_append_of_le_length hfirst, ih hrest]

/-- Appending adds the whole blocks of the remainder with what is appended. -/
theorem length_append_div (hsize : 0 < size) (xs ys : List Item) :
    (xs ++ ys).length / size = xs.length / size + (rest size xs ++ ys).length / size := by
  have hsplit : xs.length + ys.length = xs.length % size + ys.length + size * (xs.length / size) := by
    have := Nat.div_add_mod xs.length size
    omega
  rw [List.length_append, List.length_append, length_rest, hsplit, Nat.add_mul_div_left _ _ hsize, Nat.add_comm]

theorem drop_append_blocks (xs ys : List Item) :
    (xs ++ ys).drop (size * (xs.length / size)) = rest size xs ++ ys := by
  rw [List.drop_append_of_le_length (Nat.mul_div_le _ _), rest]

theorem rest_append (hsize : 0 < size) (xs ys : List Item) :
    rest size (xs ++ ys) = rest size (rest size xs ++ ys) := by
  rw [rest, length_append_div size hsize, Nat.mul_add, ← List.drop_drop, drop_append_blocks]
  rfl

theorem mem_blocks_length {count : Nat} {input block : List Item} (h : size * count ≤ input.length)
    (hblock : block ∈ blocks size count input) : block.length = size := by
  induction count generalizing input with
  | zero => cases hblock
  | succ count ih =>
    rw [Nat.mul_succ] at h
    rcases List.mem_cons.1 hblock with rfl | hblock
    · rw [List.length_take]
      omega
    · apply ih _ hblock
      rw [List.length_drop]
      omega

end Blocks

section Feed
variable {State Item : Type} (size : Nat) (compress : State → List Item → State)

/-- The state after every whole block of the input. -/
def feed (state : State) (input : List Item) : State :=
  (blocks size (input.length / size) input).foldl compress state

variable {size}

theorem feed_of_lt (state : State) {input : List Item} (h : input.length < size) :
    feed size compress state input = state := by
  simp [feed, Nat.div_eq_of_lt h, blocks]

theorem feed_append (hsize : 0 < size) (state : State) (xs ys : List Item) :
    feed size compress state (xs ++ ys) =
      feed size compress (feed size compress state xs) (rest size xs ++ ys) := by
  rw [feed, length_append_div size hsize, blocks_add, List.foldl_append, drop_append_blocks,
    blocks_append size _ _ (Nat.mul_div_le _ _)]
  rfl

/-- A whole block in front is compressed first. -/
theorem feed_block_append (hsize : 0 < size) (state : State) {block : List Item} (hblock : block.length = size)
    (ys : List Item) :
    feed size compress state (block ++ ys) = feed size compress (compress state block) ys := by
  have hrest : rest size block = [] := by
    rw [← List.length_eq_zero_iff, length_rest, hblock, Nat.mod_self]
  have hfeed : feed size compress state block = compress state block := by
    rw [feed, hblock, Nat.div_self hsize, blocks, blocks, List.take_of_length_le (Nat.le_of_eq hblock)]
    rfl
  rw [feed_append compress hsize, hrest, hfeed, List.nil_append]

theorem rest_block_append (hsize : 0 < size) {block : List Item} (hblock : block.length = size) (ys : List Item) :
    rest size (block ++ ys) = rest size ys := by
  have hrest : rest size block = [] := by
    rw [← List.length_eq_zero_iff, length_rest, hblock, Nat.mod_self]
  rw [rest_append size hsize, hrest, List.nil_append]

end Feed

section Refines
variable {State State' Item Item' : Type} {size width : Nat} {compress : State → List Item → State}
  {compress' : State' → List Item' → State'} (view : State → State') (spell : Item → List Item')

theorem length_spell (hspell : ∀ item, (spell item).length = width) (input : List Item) :
    (input.flatMap spell).length = input.length * width := by
  induction input with
  | nil => simp
  | cons item input ih => rw [List.flatMap_cons, List.length_append, hspell, ih, List.length_cons, Nat.succ_mul, Nat.add_comm]

theorem take_spell (hspell : ∀ item, (spell item).length = width) (count : Nat) (input : List Item) :
    (input.flatMap spell).take (count * width) = (input.take count).flatMap spell := by
  induction input generalizing count with
  | nil => simp
  | cons item input ih =>
    cases count with
    | zero => simp
    | succ count =>
      rw [Nat.succ_mul, Nat.add_comm, ← hspell item, List.flatMap_cons, List.take_length_add_append, hspell item, ih,
        List.take_succ_cons, List.flatMap_cons]

theorem drop_spell (hspell : ∀ item, (spell item).length = width) (count : Nat) (input : List Item) :
    (input.flatMap spell).drop (count * width) = (input.drop count).flatMap spell := by
  induction input generalizing count with
  | nil => simp
  | cons item input ih =>
    cases count with
    | zero => simp
    | succ count =>
      rw [Nat.succ_mul, Nat.add_comm, ← hspell item, List.flatMap_cons, List.drop_length_add_append, hspell item, ih,
        List.drop_succ_cons]

theorem blocks_spell (hspell : ∀ item, (spell item).length = width) (count : Nat) (input : List Item) :
    blocks (size * width) count (input.flatMap spell) = (blocks size count input).map (·.flatMap spell) := by
  induction count generalizing input with
  | zero => rfl
  | succ count ih =>
    rw [blocks, blocks, List.map_cons, take_spell spell hspell, drop_spell spell hspell, ih]

/-- A compression that another one simulates block by block, on inputs written in finer items. -/
theorem feed_refines (hwidth : 0 < width) (hspell : ∀ item, (spell item).length = width)
    (hcompress : ∀ state block, block.length = size →
      view (compress state block) = compress' (view state) (block.flatMap spell)) (state : State)
    (input : List Item) :
    view (feed size compress state input) = feed (size * width) compress' (view state) (input.flatMap spell) := by
  have hfold (chunks : List (List Item)) (h : ∀ block ∈ chunks, block.length = size) (start : State) :
      view (chunks.foldl compress start) = (chunks.map (·.flatMap spell)).foldl compress' (view start) := by
    induction chunks generalizing start with
    | nil => rfl
    | cons block chunks ih =>
      rw [List.foldl_cons, List.map_cons, List.foldl_cons, ih (fun b hb => h b (List.mem_cons_of_mem _ hb)),
        hcompress _ _ (h block List.mem_cons_self)]
  rw [feed, feed, length_spell spell hspell, Nat.mul_div_mul_right _ _ hwidth, blocks_spell spell hspell]
  exact hfold _ (fun _ => mem_blocks_length size (Nat.mul_div_le _ _)) state

end Refines
end BlockHash
