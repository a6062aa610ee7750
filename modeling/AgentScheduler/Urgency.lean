import Mathlib.Data.Set.Card

/-! Serving the most urgent first: how far the items that wait meanwhile can fall behind. -/
namespace Urgency

variable {Item : Type*} {level level' : Item → ℕ} {crowd : ℕ}

/-- One round: some items are considered, the most urgent of them is served if it is urgent at all, and the others of
them become more urgent by one level at most. -/
structure Round (level level' : Item → ℕ) (considered : Set Item) (served : Item) : Prop where
  rises : ∀ item, level' item ≤ level item + 1
  spared : ∀ item ∉ considered, level' item ≤ level item
  urgent : ∀ item ∈ considered, level item ≤ level served
  serves : level served ≠ 0 → level' served = 0

/-- As many items are missing above a level as there are levels below it. -/
def Staggered (crowd : ℕ) (level : Item → ℕ) : Prop :=
  ∀ height, {item | height < level item}.Nonempty → {item | height < level item}.encard + height ≤ crowd

/-- Nobody is above the number of items that compete. -/
theorem Staggered.bound (h : Staggered crowd level) (item : Item) : level item ≤ crowd := by
  by_contra hover
  have hnonempty : {other | crowd < level other}.Nonempty := ⟨item, Nat.lt_of_not_le hover⟩
  have hone : 1 ≤ {other | crowd < level other}.encard := Set.one_le_encard_iff_nonempty.mpr hnonempty
  have htwo : (1 : ℕ∞) + crowd ≤ crowd := (add_le_add_left hone _).trans (h crowd hnonempty)
  rw [← Nat.cast_one, ← Nat.cast_add, Nat.cast_le] at htwo
  omega

theorem Staggered.of_idle (h : ∀ item, level item = 0) : Staggered crowd level := by
  rintro height ⟨item, hitem⟩
  have hitem : height < level item := hitem
  rw [h item] at hitem
  exact absurd hitem (Nat.not_lt_zero height)

/-- Where no item rises, the items stay staggered. -/
theorem Staggered.falls (h : Staggered crowd level) (hfalls : ∀ item, level' item ≤ level item) :
    Staggered crowd level' := by
  intro height hnonempty
  have hsubset : {item | height < level' item} ⊆ {item | height < level item} :=
    fun item hitem => Nat.lt_of_lt_of_le hitem (hfalls item)
  calc {item | height < level' item}.encard + height
      ≤ {item | height < level item}.encard + height := by gcongr
    _ ≤ crowd := h height (hnonempty.mono hsubset)

/-- A round leaves above the next level what was above this one, less the item it served; or nobody climbs. -/
theorem Round.above {considered : Set Item} {served : Item} (h : Round level level' considered served) (height : ℕ) :
    {item | height + 1 < level' item} ⊆ {item | height + 1 < level item} ∨
      height < level served ∧ {item | height + 1 < level' item} ⊆ {item | height < level item} \ {served} := by
  by_cases hserved : height < level served
  · refine .inr ⟨hserved, fun item hitem => ⟨?_, fun heq => ?_⟩⟩
    · have hrises := h.rises item
      have hitem : height + 1 < level' item := hitem
      exact Nat.lt_of_succ_lt_succ (Nat.lt_of_lt_of_le hitem hrises)
    · have hitem : height + 1 < level' item := hitem
      rw [heq, h.serves (Nat.ne_of_gt (Nat.zero_lt_of_lt hserved))] at hitem
      exact absurd hitem (Nat.not_lt_zero _)
  · refine .inl fun item hitem => ?_
    have hitem : height + 1 < level' item := hitem
    by_cases hconsidered : item ∈ considered
    · have hrises := h.rises item
      have hurgent := h.urgent item hconsidered
      omega
    · exact Nat.lt_of_lt_of_le hitem (h.spared item hconsidered)

/-- A round among few enough items keeps them staggered. -/
theorem Staggered.round {considered : Set Item} {served : Item} (h : Staggered crowd level)
    (hround : Round level level' considered served) (hcrowd : {item | 0 < level' item}.encard ≤ crowd) :
    Staggered crowd level' := by
  intro height hnonempty
  cases height with
  | zero => simpa using hcrowd
  | succ height =>
    rcases hround.above height with hsubset | ⟨hserved, hsubset⟩
    · calc {item | height + 1 < level' item}.encard + (height + 1 : ℕ)
          ≤ {item | height + 1 < level item}.encard + (height + 1 : ℕ) := by gcongr
        _ ≤ crowd := h (height + 1) (hnonempty.mono hsubset)
    · have hmem : served ∈ {item | height < level item} := hserved
      calc {item | height + 1 < level' item}.encard + (height + 1 : ℕ)
          ≤ ({item | height < level item} \ {served}).encard + (height + 1 : ℕ) := by gcongr
        _ = ({item | height < level item} \ {served}).encard + 1 + height := by
          rw [Nat.cast_add, Nat.cast_one, add_assoc, add_comm (height : ℕ∞) 1]
        _ = {item | height < level item}.encard + height := by rw [Set.encard_sdiff_singleton_add_one hmem]
        _ ≤ crowd := h height ⟨served, hmem⟩

end Urgency
