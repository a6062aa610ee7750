import AgentScheduler.Ids

/-! Byte strings, the validation helpers of `internal/util.cpp`, and identifier text. -/
namespace AgentScheduler
open Std

/-- A `std::string`: an arbitrary byte string. -/
structure Text where
  bytes : List UInt8 := []
deriving DecidableEq, Repr, Inhabited

namespace Text

instance : Coe String Text := ⟨fun s => ⟨s.toUTF8.toList⟩⟩
instance : Append Text := ⟨fun a b => ⟨a.bytes ++ b.bytes⟩⟩
instance : Ord Text := ⟨compareOn bytes⟩
instance : TransOrd Text := inferInstanceAs (TransCmp (compareOn bytes))

instance : LawfulEqOrd Text where
  eq_of_compare {a b} h := by
    cases a; cases b
    exact congrArg mk (compare_eq_iff_eq.mp h)

instance : LT Text := ⟨fun a b => a.bytes < b.bytes⟩
instance : DecidableLT Text := fun a b => inferInstanceAs (Decidable (a.bytes < b.bytes))

def size (t : Text) : Nat := t.bytes.length
def isEmpty (t : Text) : Bool := t.bytes.isEmpty

end Text

/-- Hexadecimal digits of the low `n` nibbles of `v`, most significant first. -/
def hexDigits (v : UInt64) : Nat → List UInt8
  | 0 => []
  | n + 1 =>
    let nibble := (v >>> UInt64.ofNat (4 * n)) &&& 0xF
    (if nibble < 10 then nibble.toUInt8 + 0x30 else nibble.toUInt8 + 0x57) :: hexDigits v n

/-- `StrongId::to_string`: 16 hex digits, or 32 for derived values. -/
class HexText (Rep : Type) where
  toHex : Rep → Text

instance : HexText UInt64 := ⟨fun v => ⟨hexDigits v 16⟩⟩
instance : HexText Nat := ⟨fun v => ⟨hexDigits (UInt64.ofNat v) 16⟩⟩
instance : HexText Hash128 := ⟨fun h => ⟨hexDigits h.high 16 ++ hexDigits h.low 16⟩⟩

def StrongId.toText {tag : IdTag} {Rep : Type} [HexText Rep] (id : StrongId tag Rep) : Text :=
  HexText.toHex id.value

/-- The lead byte of a multi-byte sequence: continuation count and payload bits. -/
def utf8Lead (byte : UInt8) : Option (Nat × UInt32) :=
  if byte &&& 0xE0 = 0xC0 then
    -- a two-byte form whose payload bits are all zero is overlong whatever follows
    if byte &&& 0x1F = 0 then none else some (1, (byte &&& 0x1F).toUInt32)
  else if byte &&& 0xF0 = 0xE0 then some (2, (byte &&& 0x0F).toUInt32)
  else if byte &&& 0xF8 = 0xF0 then some (3, (byte &&& 0x07).toUInt32)
  else none

/-- Folds the continuation bytes into the code point; fails on any other byte. -/
def utf8Continue : List UInt8 → UInt32 → Option UInt32
  | [], codePoint => some codePoint
  | c :: rest, codePoint =>
    if c &&& 0xC0 = 0x80 then utf8Continue rest ((codePoint <<< 6) ||| (c &&& 0x3F).toUInt32) else none

/-- The range checks made on an assembled code point. -/
def utf8InRange (extra : Nat) (codePoint : UInt32) : Bool :=
  !(extra = 1 ∧ codePoint < 0x80) && !(extra = 2 ∧ codePoint < 0x800) &&
  !(extra = 3 ∧ codePoint < 0x10000) && !(0x10FFFF < codePoint) &&
  !(0xD800 ≤ codePoint ∧ codePoint ≤ 0xDFFF)

/-- The scan of `valid_utf8`; the fuel bounds the number of sequences, one per byte suffices. -/
def validUtf8Loop : Nat → List UInt8 → Bool
  | _, [] => true
  | 0, _ :: _ => false
  | fuel + 1, byte :: rest =>
    if byte < 0x80 then validUtf8Loop fuel rest
    else match utf8Lead byte with
      | none => false
      | some (extra, lead) =>
        if rest.length < extra then false
        else match utf8Continue (rest.take extra) lead with
          | none => false
          | some codePoint => utf8InRange extra codePoint && validUtf8Loop fuel (rest.drop extra)

def validUtf8 (text : Text) : Bool := validUtf8Loop text.bytes.length text.bytes

def containsControlChars (text : Text) : Bool :=
  text.bytes.any fun byte => byte < 0x20 || byte = 0x7F || (0x80 ≤ byte && byte ≤ 0x9F)

def isIdentifierByte (c : UInt8) : Bool :=
  (0x61 ≤ c && c ≤ 0x7A) || (0x41 ≤ c && c ≤ 0x5A) || (0x30 ≤ c && c ≤ 0x39) ||
  c = 0x5F || c = 0x2D || c = 0x2E || c = 0x3A || c = 0x2F || c = 0x2B

def isIdentifier (text : Text) (maxLength : UInt32) : Bool :=
  !text.isEmpty && text.size ≤ maxLength.toNat && text.bytes.all isIdentifierByte

def textProblem (text : Text) (maxLength : UInt32) (field : Text) : Option Text :=
  if maxLength.toNat < text.size then some (field ++ " exceeds maximum length")
  else if containsControlChars text then some (field ++ " contains control characters")
  else if !validUtf8 text then some (field ++ " is not valid UTF-8")
  else none

def identifierProblem (text : Text) (maxLength : UInt32) (field : Text) : Option Text :=
  if text.isEmpty then some (field ++ " must not be empty")
  else if !isIdentifier text maxLength then
    some (field ++ " contains characters outside the identifier charset")
  else none

/-- `std::sort` under a strict order. -/
def sortBy {α : Type} (before : α → α → Bool) (values : List α) : List α :=
  values.insertionSort (fun a b => !before b a)

/-- `std::unique` after an element that is kept: adjacent duplicates collapse to the first. -/
def uniqueAfter {α : Type} [DecidableEq α] (kept : α) : List α → List α
  | [] => [kept]
  | next :: rest => if kept = next then uniqueAfter kept rest else kept :: uniqueAfter next rest

/-- `std::unique` on a sorted range. -/
def uniqueAdjacent {α : Type} [DecidableEq α] : List α → List α
  | [] => []
  | first :: rest => uniqueAfter first rest

/-- `std::adjacent_find` against the end of a sorted range. -/
def hasAdjacentDuplicate {α : Type} [DecidableEq α] : List α → Bool
  | a :: b :: rest => a = b || hasAdjacentDuplicate (b :: rest)
  | _ => false

/-- `canonicalize` on text lists: sort and drop duplicates. -/
def canonicalizeTexts (values : List Text) : List Text :=
  uniqueAdjacent (sortBy (fun a b => a < b) values)

/-- `canonicalize_unique`: whether sorting shows no duplicate. -/
def canonicalizeUnique (values : List Text) : Bool :=
  !hasAdjacentDuplicate (sortBy (fun a b => a < b) values)

/-- A decimal count, as `std::to_string` writes it. -/
def natText (n : Nat) : Text := (toString n : String)

end AgentScheduler
