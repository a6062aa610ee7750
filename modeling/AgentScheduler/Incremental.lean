import Mathlib

/-! Incremental decoders: items read from the front of a growing buffer do not depend on how the input arrives. -/
namespace Incremental

variable {Byte Item Fault State : Type}

/-! ### Reading at the front -/

/-- What stands at the front of the bytes at hand. -/
inductive Front (Byte Item Fault : Type)
  | needMore
  | fault (fault : Fault)
  | item (item : Item) (rest : List Byte)

/-- A reader of items that never changes its mind when more bytes come. -/
structure FrontReader (Byte Item Fault : Type) where
  read : List Byte → Front Byte Item Fault
  item_append : ∀ {bytes rest item} more, read bytes = .item item rest → read (bytes ++ more) = .item item (rest ++ more)
  fault_append : ∀ {bytes fault} more, read bytes = .fault fault → read (bytes ++ more) = .fault fault
  item_shorter : ∀ {bytes rest item}, read bytes = .item item rest → rest.length < bytes.length

namespace FrontReader

/-- The items of an input, and the fault that ends them. -/
def readAll (reader : FrontReader Byte Item Fault) (bytes : List Byte) : List Item × Option Fault :=
  match h : reader.read bytes with
  | .needMore => ([], none)
  | .fault fault => ([], some fault)
  | .item item rest =>
    have := reader.item_shorter h
    let others := readAll reader rest
    (item :: others.1, others.2)
termination_by bytes.length

variable {reader : FrontReader Byte Item Fault} {bytes rest : List Byte} {item : Item} {fault : Fault}

theorem readAll_needMore (h : reader.read bytes = .needMore) : reader.readAll bytes = ([], none) := by
  rw [readAll]
  split <;> simp_all

theorem readAll_fault (h : reader.read bytes = .fault fault) : reader.readAll bytes = ([], some fault) := by
  rw [readAll]
  split <;> simp_all

theorem readAll_item (h : reader.read bytes = .item item rest) :
    reader.readAll bytes = (item :: (reader.readAll rest).1, (reader.readAll rest).2) := by
  rw [readAll]
  split <;> simp_all

/-- What holds of every item that is read holds of all of them. -/
theorem readAll_forall {p : Item → Prop} (h : ∀ {bytes item rest}, reader.read bytes = .item item rest → p item)
    (bytes : List Byte) : ∀ item ∈ (reader.readAll bytes).1, p item := by
  induction hsize : bytes.length using Nat.strong_induction_on generalizing bytes with
  | _ size ih =>
    intro item hmem
    cases hread : reader.read bytes with
    | needMore => simp [readAll_needMore hread] at hmem
    | fault fault => simp [readAll_fault hread] at hmem
    | item first rest =>
      rw [readAll_item hread, List.mem_cons] at hmem
      rcases hmem with rfl | hmem
      · exact h hread
      · exact ih rest.length (hsize ▸ reader.item_shorter hread) rest rfl item hmem

/-- A concatenation of images holds exactly their items. -/
theorem readAll_images {image : Item → List Byte} {items : List Item} (hempty : reader.read [] = .needMore)
    (himage : ∀ item ∈ items, ∀ rest, reader.read (image item ++ rest) = .item item rest) :
    reader.readAll (items.flatMap image) = (items, none) := by
  induction items with
  | nil => exact readAll_needMore hempty
  | cons item items ih =>
    have hfirst := himage item (by simp) (items.flatMap image)
    rw [List.flatMap_cons, readAll_item hfirst, ih fun other hmem => himage other (by simp [hmem])]

end FrontReader

/-! ### Runs -/

/-- What the owner of a decoder does. -/
inductive Action (Byte : Type)
  | append (chunk : List Byte)
  | next

/-- What `next` answers. -/
inductive Answer (Item Fault : Type)
  | needMore
  | fault (fault : Fault)
  | item (item : Item)

/-- The bytes that a list of actions appends. -/
def appended : List (Action Byte) → List Byte
  | [] => []
  | .append chunk :: actions => chunk ++ appended actions
  | .next :: actions => appended actions

/-- The items answered before the first fault, and that fault. -/
def delivered : List (Answer Item Fault) → List Item × Option Fault
  | [] => ([], none)
  | .needMore :: answers => delivered answers
  | .fault fault :: _ => ([], some fault)
  | .item item :: answers => (item :: (delivered answers).1, (delivered answers).2)

theorem appended_append (actions others : List (Action Byte)) :
    appended (actions ++ others) = appended actions ++ appended others := by
  induction actions with
  | nil => rfl
  | cons action actions ih =>
    cases action with
    | append chunk => rw [List.cons_append, appended, ih, appended, List.append_assoc]
    | next => rw [List.cons_append, appended, ih, appended]

theorem appended_replicate (count : Nat) : appended (List.replicate count (.next : Action Byte)) = [] := by
  induction count with
  | zero => rfl
  | succ count ih => rw [List.replicate_succ, appended, ih]

theorem delivered_append (answers others : List (Answer Item Fault)) (h : (delivered answers).2 = none) :
    delivered (answers ++ others) = ((delivered answers).1 ++ (delivered others).1, (delivered others).2) := by
  induction answers with
  | nil => rfl
  | cons answer answers ih =>
    cases answer with
    | needMore => exact ih h
    | fault fault => cases h
    | item item =>
      rw [List.cons_append, delivered, delivered, ih h]
      rfl

/-- What comes after a fault is not delivered. -/
theorem delivered_append_fault {answers : List (Answer Item Fault)} {fault : Fault} (others : List (Answer Item Fault))
    (h : (delivered answers).2 = some fault) : delivered (answers ++ others) = delivered answers := by
  induction answers with
  | nil => cases h
  | cons answer answers ih =>
    cases answer with
    | needMore => exact ih h
    | fault fault => rfl
    | item item =>
      rw [List.cons_append, delivered, delivered, ih h]

/-- A stateful decoder over a front reader: what it has not consumed yet is all that its answers depend on. -/
structure Decoder (reader : FrontReader Byte Item Fault) (State : Type) where
  append : State → List Byte → State
  next : State → Answer Item Fault × State
  pending : State → List Byte
  pending_append : ∀ state chunk, pending (append state chunk) = pending state ++ chunk
  next_needMore : ∀ {state}, reader.read (pending state) = .needMore → next state = (.needMore, state)
  next_fault : ∀ {state fault}, reader.read (pending state) = .fault fault → (next state).1 = .fault fault
  next_item : ∀ {state item rest}, reader.read (pending state) = .item item rest →
    (next state).1 = .item item ∧ pending (next state).2 = rest

namespace Decoder

variable {reader : FrontReader Byte Item Fault} (decoder : Decoder reader State)

/-- The answers of `next` along a list of actions, and the state it ends in. -/
def run : State → List (Action Byte) → List (Answer Item Fault) × State
  | state, [] => ([], state)
  | state, .append chunk :: actions => run (decoder.append state chunk) actions
  | state, .next :: actions =>
    let others := run (decoder.next state).2 actions
    ((decoder.next state).1 :: others.1, others.2)

theorem run_append (state : State) (actions others : List (Action Byte)) :
    decoder.run state (actions ++ others) =
      ((decoder.run state actions).1 ++ (decoder.run (decoder.run state actions).2 others).1,
        (decoder.run (decoder.run state actions).2 others).2) := by
  induction actions generalizing state with
  | nil => rfl
  | cons action actions ih =>
    cases action with
    | append chunk => exact ih _
    | next =>
      rw [List.cons_append, run, ih, run]
      rfl

/-- A fault that a run answers is the one that ends the items of all its bytes, and every item before it was
delivered. -/
theorem run_fault {state : State} {actions : List (Action Byte)} {fault : Fault}
    (h : (delivered (decoder.run state actions).1).2 = some fault) :
    reader.readAll (decoder.pending state ++ appended actions) = delivered (decoder.run state actions).1 := by
  induction actions generalizing state with
  | nil => cases h
  | cons action actions ih =>
    cases action with
    | append chunk =>
      have hchunk := ih h
      rwa [decoder.pending_append, List.append_assoc] at hchunk
    | next =>
      cases hread : reader.read (decoder.pending state) with
      | needMore =>
        rw [run, decoder.next_needMore hread] at h ⊢
        exact ih h
      | fault other =>
        rw [run, decoder.next_fault hread]
        exact FrontReader.readAll_fault (reader.fault_append (appended actions) hread)
      | item item rest =>
        obtain ⟨hitem, hrest⟩ := decoder.next_item hread
        rw [run, hitem] at h ⊢
        have hothers := ih h
        rw [hrest] at hothers
        rw [delivered, ← hothers]
        exact FrontReader.readAll_item (reader.item_append (appended actions) hread)

/-- Until a fault is answered, the items not delivered yet are those of the bytes still pending. -/
theorem run_clear {state : State} {actions : List (Action Byte)}
    (h : (delivered (decoder.run state actions).1).2 = none) :
    reader.readAll (decoder.pending state ++ appended actions) =
      ((delivered (decoder.run state actions).1).1 ++
          (reader.readAll (decoder.pending (decoder.run state actions).2)).1,
        (reader.readAll (decoder.pending (decoder.run state actions).2)).2) := by
  induction actions generalizing state with
  | nil => simp [appended, run, delivered]
  | cons action actions ih =>
    cases action with
    | append chunk =>
      have hchunk := ih h
      rwa [decoder.pending_append, List.append_assoc] at hchunk
    | next =>
      cases hread : reader.read (decoder.pending state) with
      | needMore =>
        rw [run, decoder.next_needMore hread] at h ⊢
        exact ih h
      | fault other =>
        rw [run, decoder.next_fault hread] at h
        cases h
      | item item rest =>
        obtain ⟨hitem, hrest⟩ := decoder.next_item hread
        rw [run, hitem] at h ⊢
        have hothers := ih h
        rw [hrest] at hothers
        rw [appended, FrontReader.readAll_item (reader.item_append (appended actions) hread), hothers]
        rfl

/-- What a run delivers is the beginning of what all its bytes hold. -/
theorem run_start (state : State) (actions : List (Action Byte)) :
    (delivered (decoder.run state actions).1).1 <+:
      (reader.readAll (decoder.pending state ++ appended actions)).1 := by
  cases h : (delivered (decoder.run state actions).1).2 with
  | some fault => rw [decoder.run_fault h]
  | none =>
    rw [decoder.run_clear h]
    exact List.prefix_append _ _

/-- Calls of `next` that outnumber the items drain what is pending. -/
theorem run_drain {state : State} {count : Nat} (hcount : (reader.readAll (decoder.pending state)).1.length < count) :
    delivered (decoder.run state (List.replicate count .next)).1 = reader.readAll (decoder.pending state) := by
  induction count generalizing state with
  | zero => omega
  | succ count ih =>
    rw [List.replicate_succ, run]
    cases hread : reader.read (decoder.pending state) with
    | needMore =>
      rw [decoder.next_needMore hread, FrontReader.readAll_needMore hread, delivered]
      by_cases hzero : count = 0
      · rw [hzero]
        rfl
      · have hstate := FrontReader.readAll_needMore hread
        rw [ih (by rw [hstate]; exact Nat.pos_of_ne_zero hzero), hstate]
    | fault fault =>
      rw [decoder.next_fault hread, FrontReader.readAll_fault hread]
      rfl
    | item item rest =>
      obtain ⟨hitem, hrest⟩ := decoder.next_item hread
      rw [FrontReader.readAll_item hread] at hcount ⊢
      rw [List.length_cons] at hcount
      rw [hitem, delivered, ih (by rw [hrest]; omega), hrest]

/-- However the bytes arrive and whenever `next` is called in between, enough calls at the end deliver what the bytes
hold. -/
theorem run_complete (state : State) (actions : List (Action Byte)) {count : Nat}
    (hcount : (reader.readAll (decoder.pending state ++ appended actions)).1.length < count) :
    delivered (decoder.run state (actions ++ List.replicate count .next)).1 =
      reader.readAll (decoder.pending state ++ appended actions) := by
  rw [run_append]
  cases h : (delivered (decoder.run state actions).1).2 with
  | some fault =>
    rw [delivered_append_fault _ h, decoder.run_fault h]
  | none =>
    have hclear := decoder.run_clear h
    rw [hclear, List.length_append] at hcount
    rw [delivered_append _ _ h, decoder.run_drain (by omega), hclear]

/-- When everything is delivered, `next` asks for more. -/
theorem next_needMore_of_delivered {state : State} {actions : List (Action Byte)} {items : List Item}
    (hall : reader.readAll (decoder.pending state ++ appended actions) = (items, none))
    (h : delivered (decoder.run state actions).1 = (items, none)) :
    (decoder.next (decoder.run state actions).2).1 = .needMore := by
  have hclear := decoder.run_clear (congrArg Prod.snd h)
  rw [hall, h, Prod.mk.injEq] at hclear
  have hnil : (reader.readAll (decoder.pending (decoder.run state actions).2)).1 = [] :=
    List.self_eq_append_right.mp hclear.1
  cases hread : reader.read (decoder.pending (decoder.run state actions).2) with
  | needMore => rw [decoder.next_needMore hread]
  | fault fault =>
    rw [FrontReader.readAll_fault hread] at hclear
    cases hclear.2
  | item item rest =>
    rw [FrontReader.readAll_item hread] at hnil
    cases hnil

/-- When items are read off their images, what a run delivers before a fault is the images it has consumed. -/
theorem run_consumed {image : Item → List Byte}
    (hexact : ∀ {bytes item rest}, reader.read bytes = .item item rest → bytes = image item ++ rest)
    (state : State) (actions : List (Action Byte)) :
    ∃ rest, decoder.pending state ++ appended actions =
        (delivered (decoder.run state actions).1).1.flatMap image ++ rest ∧
      ((delivered (decoder.run state actions).1).2 = none → rest = decoder.pending (decoder.run state actions).2) := by
  induction actions generalizing state with
  | nil => exact ⟨decoder.pending state, by simp [appended, run, delivered], fun _ => rfl⟩
  | cons action actions ih =>
    cases action with
    | append chunk =>
      have h := ih (decoder.append state chunk)
      rwa [decoder.pending_append, List.append_assoc] at h
    | next =>
      cases hread : reader.read (decoder.pending state) with
      | needMore =>
        rw [run, decoder.next_needMore hread]
        exact ih state
      | fault fault =>
        rw [run, decoder.next_fault hread]
        exact ⟨_, rfl, fun hnone => nomatch hnone⟩
      | item item rest =>
        obtain ⟨hitem, hrest⟩ := decoder.next_item hread
        obtain ⟨others, hothers, hpending⟩ := ih (decoder.next state).2
        rw [hrest] at hothers
        refine ⟨others, ?_, ?_⟩
        · rw [run, hitem, delivered, appended, hexact hread, List.flatMap_cons, List.append_assoc, List.append_assoc,
            hothers]
        · rw [run, hitem]
          exact hpending

end Decoder

end Incremental
