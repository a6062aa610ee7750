import Mathlib

/-! Ordered tables: reading after an update, counting values by key, and loops over the keys of a table. -/
namespace KeyedTable
open Std

variable {Key Value Other State : Type} [Ord Key] [TransOrd Key] [LawfulEqOrd Key] [DecidableEq Key]

/-! ### Reading after an update -/

theorem getElem?_insert (table : ExtTreeMap Key Value compare) (key other : Key) (value : Value) :
    (table.insert key value)[other]? = if key = other then some value else table[other]? := by
  simp [ExtTreeMap.getElem?_insert]

theorem getElem?_modify (table : ExtTreeMap Key Value compare) (key other : Key) (update : Value → Value) :
    (table.modify key update)[other]? = if key = other then table[other]?.map update else table[other]? := by
  rw [ExtTreeMap.getElem?_modify]
  simp only [Std.compare_eq_iff_eq]
  split
  · next h => rw [h]
  · rfl

/-- Modifying what is not there changes nothing. -/
theorem modify_eq_self {table : ExtTreeMap Key Value compare} {key : Key} (h : table[key]? = none)
    (update : Value → Value) : table.modify key update = table := by
  refine ExtTreeMap.ext_getElem? fun other => ?_
  rw [getElem?_modify]
  split
  · next heq => rw [← heq, h, Option.map_none]
  · rfl

/-- Modifying a stored value stores what the update makes of it. -/
theorem modify_eq_insert {table : ExtTreeMap Key Value compare} {key : Key} {value : Value}
    (h : table[key]? = some value) (update : Value → Value) :
    table.modify key update = table.insert key (update value) := by
  refine ExtTreeMap.ext_getElem? fun other => ?_
  rw [getElem?_modify, getElem?_insert]
  split
  · next heq => rw [← heq, h, Option.map_some]
  · rfl

theorem getElem?_insertIfNew (table : ExtTreeMap Key Value compare) (key other : Key) (value : Value) :
    (table.insertIfNew key value)[other]? =
      if key = other then some (table[other]?.getD value) else table[other]? := by
  rw [ExtTreeMap.getElem?_insertIfNew]
  simp only [Std.compare_eq_iff_eq]
  by_cases heq : key = other
  · subst heq
    by_cases hmem : key ∈ table
    · obtain ⟨stored, hstored⟩ := ExtTreeMap.mem_iff_isSome_getElem?.mp hmem |> Option.isSome_iff_exists.mp
      simp [hmem]
    · have hnone := ExtTreeMap.getElem?_eq_none hmem
      simp [hmem]
  · simp [heq]

omit [DecidableEq Key] in
theorem getElem?_map (table : ExtTreeMap Key Value compare) (update : Key → Value → Other) (key : Key) :
    (table.map update)[key]? = table[key]?.map (update key) := ExtTreeMap.getElem?_map

/-! ### Tables that store every value under its own key -/

/-- Every value is stored under the key it names. -/
def Keyed (key : Value → Key) (table : ExtTreeMap Key Value compare) : Prop :=
  ∀ (k : Key) value, table[k]? = some value → key value = k

section Keyed
variable {key : Value → Key} {table : ExtTreeMap Key Value compare}

omit [LawfulEqOrd Key] [DecidableEq Key] in
theorem Keyed.empty : Keyed key (∅ : ExtTreeMap Key Value compare) := by
  intro k value h
  rw [ExtTreeMap.getElem?_empty] at h
  cases h

theorem Keyed.insert {k : Key} {value : Value} (h : Keyed key table) (hvalue : key value = k) :
    Keyed key (table.insert k value) := by
  intro other stored hstored
  rw [getElem?_insert] at hstored
  split at hstored
  · next heq => rw [← Option.some.inj hstored, hvalue, heq]
  · exact h other stored hstored

theorem Keyed.insertIfNew {k : Key} {value : Value} (h : Keyed key table) (hvalue : key value = k) :
    Keyed key (table.insertIfNew k value) := by
  intro other stored hstored
  rw [getElem?_insertIfNew] at hstored
  split at hstored
  · next heq =>
    subst heq
    cases hold : table[k]? with
    | none =>
      rw [hold] at hstored
      rw [← Option.some.inj hstored]
      exact hvalue
    | some old =>
      rw [hold] at hstored
      rw [← Option.some.inj hstored]
      exact h k old hold
  · exact h other stored hstored

theorem Keyed.modify {k : Key} {f : Value → Value} (h : Keyed key table)
    (hupdate : ∀ value, key (f value) = key value) : Keyed key (table.modify k f) := by
  intro other stored hstored
  rw [getElem?_modify] at hstored
  split at hstored
  · obtain ⟨old, hold, rfl⟩ := Option.map_eq_some_iff.mp hstored
    exact (hupdate old).trans (h other old hold)
  · exact h other stored hstored

omit [DecidableEq Key] in
theorem Keyed.map {update : Value → Value} (h : Keyed key table) (hupdate : ∀ value, key (update value) = key value) :
    Keyed key (table.map fun _ value => update value) := by
  intro other stored hstored
  rw [getElem?_map] at hstored
  obtain ⟨old, hold, rfl⟩ := Option.map_eq_some_iff.mp hstored
  exact (hupdate old).trans (h other old hold)

end Keyed

/-! ### Values and counting -/

omit [LawfulEqOrd Key] [DecidableEq Key] in
theorem values_eq (table : ExtTreeMap Key Value compare) : table.values = table.toList.map Prod.snd := by
  obtain ⟨inner⟩ := table
  induction inner using ExtDTreeMap.inductionOn with
  | mk table =>
    change table.inner.values = (DTreeMap.Internal.Impl.Const.toList table.inner).map Prod.snd
    rw [DTreeMap.Internal.Impl.values_eq_map_snd, DTreeMap.Internal.Impl.Const.toList_eq_toListModel_map]
    simp

omit [DecidableEq Key] in
theorem mem_values {table : ExtTreeMap Key Value compare} {value : Value} :
    value ∈ table.values ↔ ∃ key : Key, table[key]? = some value := by
  rw [values_eq]
  simp only [List.mem_map, Prod.exists, ExtTreeMap.mem_toList_iff_getElem?_eq_some, exists_eq_right]

/-- The keys under which a value with a property is stored. -/
def keysWhere (table : ExtTreeMap Key Value compare) (p : Value → Prop) : Set Key :=
  {key | ∃ value, table[key]? = some value ∧ p value}

omit [LawfulEqOrd Key] [DecidableEq Key] in
theorem nodup_toList (table : ExtTreeMap Key Value compare) : (table.toList.map Prod.fst).Nodup := by
  rw [ExtTreeMap.map_fst_toList_eq_keys]
  exact ExtTreeMap.nodup_keys

omit [DecidableEq Key] in
/-- The number of values with a property is the number of keys that hold one. -/
theorem encard_keysWhere (table : ExtTreeMap Key Value compare) (p : Value → Bool) :
    (keysWhere table fun value => p value).encard = (table.values.countP p : ℕ) := by
  classical
  have hset : keysWhere table (fun value => p value) =
      (((table.toList.filter fun entry => p entry.2).map Prod.fst).toFinset : Set Key) := by
    ext key
    simp [keysWhere, ExtTreeMap.mem_toList_iff_getElem?_eq_some]
  have hnodup : ((table.toList.filter fun entry => p entry.2).map Prod.fst).Nodup :=
    (nodup_toList table).sublist (List.filter_sublist.map _)
  rw [hset, Set.encard_coe_eq_coe_finsetCard, List.toFinset_card_of_nodup hnodup, values_eq, List.countP_map,
    List.length_map, List.countP_eq_length_filter]
  rfl

/-! ### How large a table is -/

/-- The keys under which something is stored. -/
def keySet (table : ExtTreeMap Key Value compare) : Set Key := {key | (table[key]?).isSome}

omit [DecidableEq Key] in
theorem encard_keySet (table : ExtTreeMap Key Value compare) : (keySet table).encard = table.size := by
  have hset : keySet table = keysWhere table fun _ => (true : Bool) := by
    ext key
    simp only [keySet, keysWhere, Set.mem_ofPred_eq, and_true, Option.isSome_iff_exists]
  rw [hset, encard_keysWhere, List.countP_true, values_eq, List.length_map, ExtTreeMap.length_toList]

theorem keySet_insert (table : ExtTreeMap Key Value compare) (key : Key) (value : Value) :
    keySet (table.insert key value) = insert key (keySet table) := by
  ext other
  simp only [keySet, Set.mem_ofPred_eq, Set.mem_insert_iff, getElem?_insert]
  split
  · next heq => simp [heq]
  · next hne => simp [Ne.symm hne]

theorem keySet_insertIfNew (table : ExtTreeMap Key Value compare) (key : Key) (value : Value) :
    keySet (table.insertIfNew key value) = insert key (keySet table) := by
  ext other
  simp only [keySet, Set.mem_ofPred_eq, Set.mem_insert_iff, getElem?_insertIfNew]
  split
  · next heq => simp [heq]
  · next hne => simp [Ne.symm hne]

theorem keySet_modify (table : ExtTreeMap Key Value compare) (key : Key) (update : Value → Value) :
    keySet (table.modify key update) = keySet table := by
  ext other
  simp only [keySet, Set.mem_ofPred_eq, getElem?_modify]
  split
  · rw [Option.isSome_map]
  · rfl

omit [DecidableEq Key] in
theorem keySet_map (table : ExtTreeMap Key Value compare) (update : Key → Value → Other) :
    keySet (table.map update) = keySet table := by
  ext key
  simp only [keySet, Set.mem_ofPred_eq, getElem?_map, Option.isSome_map]

omit [Ord Key] [TransOrd Key] [LawfulEqOrd Key] [DecidableEq Key] in
/-- A set that had room for one more member is within its bound after it took one. -/
theorem encard_le_of_subset_insert {before after : Set Key} {key : Key} {bound : ℕ} (hsubset : after ⊆ insert key before)
    (hroom : before.encard < bound) : after.encard ≤ bound :=
  (Set.encard_le_encard hsubset).trans ((Set.encard_insert_le before key).trans (Order.add_one_le_of_lt hroom))

omit [DecidableEq Key] in
/-- A table within its bound, with room for what it does not hold yet, may take any key. -/
theorem encard_insert_keySet_le {table : ExtTreeMap Key Value compare} {key : Key} {bound : ℕ} (h : table.size ≤ bound)
    (hroom : table[key]? = none → table.size < bound) : (insert key (keySet table)).encard ≤ bound := by
  cases hkey : table[key]? with
  | none =>
    refine encard_le_of_subset_insert subset_rfl ?_
    rw [encard_keySet]
    exact_mod_cast hroom hkey
  | some value =>
    have hmem : key ∈ keySet table := by
      change (table[key]?).isSome
      rw [hkey]
      rfl
    rw [Set.insert_eq_of_mem hmem, encard_keySet]
    exact_mod_cast h

/-! ### Loops over the keys -/

omit [Ord Key] [TransOrd Key] [LawfulEqOrd Key] in
/-- A loop whose turn at a key rewrites what is stored there, and nothing else, rewrites the whole table. -/
theorem foldl_keys_read {turn : State → Key → State} {read : State → Key → Option Value}
    {update : Value → Value} (invariant : State → Prop)
    (hinv : ∀ state key, invariant state → invariant (turn state key))
    (hturn : ∀ state key other, invariant state →
      read (turn state key) other = if key = other then (read state other).map update else read state other)
    {keys : List Key} (hnodup : keys.Nodup) {state : State} (hstate : invariant state) (key : Key) :
    read (keys.foldl turn state) key =
      if key ∈ keys then (read state key).map update else read state key := by
  induction keys generalizing state with
  | nil => simp
  | cons first rest ih =>
    obtain ⟨hfirst, hrest⟩ := List.nodup_cons.mp hnodup
    rw [List.foldl_cons, ih hrest (hinv state first hstate), hturn state first key hstate]
    by_cases hkey : first = key
    · subst hkey
      simp [hfirst]
    · simp [hkey, Ne.symm hkey]

/-- The same over the keys of the table that the loop reads. -/
theorem foldl_table_read {turn : State → Key → State} {f : State → Key → Option Value}
    {update : Value → Value} (invariant : State → Prop)
    (hinv : ∀ state key, invariant state → invariant (turn state key))
    (hturn : ∀ state key other, invariant state →
      f (turn state key) other = if key = other then (f state other).map update else f state other)
    (table : ExtTreeMap Key Value compare) {state : State} (hread : ∀ key, f state key = table[key]?)
    (hstate : invariant state) (key : Key) :
    f (table.keys.foldl turn state) key = (table[key]?).map update := by
  rw [foldl_keys_read invariant hinv hturn ExtTreeMap.nodup_keys hstate, hread]
  split
  · rfl
  · next habsent =>
    have hnone : table[key]? = none := ExtTreeMap.getElem?_eq_none (by simpa using habsent)
    simp [hnone]

omit [Ord Key] [TransOrd Key] [LawfulEqOrd Key] [DecidableEq Key] in
private theorem foldl_others {turn : State → Key × Value → State} {filed : State → Option Value → Prop} {key : Key}
    {items : List (Key × Value)} {stored : Option Value}
    (hother : ∀ state, ∀ entry ∈ items, ∀ stored, entry.1 ≠ key → filed state stored → filed (turn state entry) stored)
    (habsent : key ∉ items.map Prod.fst) {state : State} (h : filed state stored) :
    filed (items.foldl turn state) stored :=
  List.foldlRecOn (motive := fun state => filed state stored) items _ h fun state hstate entry hentry =>
    hother state entry hentry stored (fun heq => habsent (heq ▸ List.mem_map_of_mem hentry)) hstate

omit [DecidableEq Key] in
/-- A loop over the entries that files each key with its own value, and disturbs no other, files every key. -/
theorem foldl_entries_filed {g : State → Key × Value → State} {p : State → Option Value → Prop} {key : Key}
    (table : ExtTreeMap Key Value compare)
    (hmine : ∀ state value, table[key]? = some value → p state none → p (g state (key, value)) (some value))
    (hother : ∀ state (entry : Key × Value) stored, table[entry.1]? = some entry.2 → entry.1 ≠ key →
      p state stored → p (g state entry) stored)
    {state : State} (hstate : p state none) : p (table.toList.foldl g state) table[key]? := by
  have hread : ∀ entry : Key × Value, entry ∈ table.toList ↔ table[entry.1]? = some entry.2 := fun entry =>
    ExtTreeMap.mem_toList_iff_getElem?_eq_some
  have hothers : ∀ state, ∀ entry ∈ table.toList, ∀ stored, entry.1 ≠ key → p state stored →
      p (g state entry) stored := fun state entry hentry stored => hother state entry stored ((hread entry).mp hentry)
  cases hvalue : table[key]? with
  | none =>
    refine foldl_others hothers (fun hmem => ?_) hstate
    obtain ⟨⟨found, value⟩, hentry, rfl⟩ := List.mem_map.mp hmem
    rw [(hread _).mp hentry] at hvalue
    cases hvalue
  | some value =>
    obtain ⟨before, after, hsplit⟩ := List.append_of_mem ((hread (key, value)).mpr hvalue)
    have hnodup := nodup_toList table
    rw [hsplit, List.map_append, List.map_cons, List.nodup_append, List.nodup_cons] at hnodup
    rw [hsplit] at hothers ⊢
    rw [List.foldl_append, List.foldl_cons]
    refine foldl_others (fun state entry hentry => hothers state entry (by simp [hentry])) hnodup.2.1.1 ?_
    refine hmine _ value hvalue (foldl_others (fun state entry hentry => hothers state entry (by simp [hentry])) ?_ hstate)
    exact fun hmem => hnodup.2.2 key hmem key List.mem_cons_self rfl

end KeyedTable
