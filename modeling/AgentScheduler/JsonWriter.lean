import AgentScheduler.Text
import AgentScheduler.Json

/-! `json.cpp`: the escaper, the writer, and the calls that write a tree. -/
namespace AgentScheduler

/-! ### Escaping -/

def hexDigit (nibble : UInt8) : UInt8 := if nibble < 10 then nibble + 0x30 else nibble + 0x57

def appendHexEscape (out : Text) (byte : UInt8) : Text :=
  out ++ "\\u00" ++ ⟨[hexDigit ((byte >>> 4) &&& 0xF), hexDigit (byte &&& 0xF)]⟩

/-- One round of the loop of `escape_json`. -/
def escapeByte (out : Text) (byte : UInt8) : Text :=
  if byte = 0x22 then out ++ "\\\""
  else if byte = 0x5C then out ++ "\\\\"
  else if byte = 0x08 then out ++ "\\b"
  else if byte = 0x0C then out ++ "\\f"
  else if byte = 0x0A then out ++ "\\n"
  else if byte = 0x0D then out ++ "\\r"
  else if byte = 0x09 then out ++ "\\t"
  else if byte < 0x20 || byte = 0x7F || (0x80 ≤ byte && byte ≤ 0x9F) then appendHexEscape out byte
  else out ++ ⟨[byte]⟩

def escapeJson (text : Text) : Text := text.bytes.foldl escapeByte {}

/-! ### The writer -/

/-- `first` holds, innermost container first, whether nothing was written into it yet. -/
structure JsonWriter where
  out : Text := {}
  first : List Bool := []
  expectingValue : Bool := false
deriving DecidableEq

namespace JsonWriter

def append (w : JsonWriter) (text : Text) : JsonWriter := { w with out := w.out ++ text }

/-- Two blanks for every open container but the outermost. -/
def indent (w : JsonWriter) : JsonWriter :=
  w.append ⟨(List.replicate (w.first.length - 1) [0x20, 0x20]).flatten⟩

def separate (w : JsonWriter) : JsonWriter :=
  match w.first with
  | [] => w
  | isFirst :: outer =>
    if w.expectingValue then { w with expectingValue := false }.append ": "
    else
      let w := if isFirst then w else ((w.append ",").append "\n").indent
      { w with first := false :: outer }

def beginContainer (w : JsonWriter) (bracket : Text) : JsonWriter :=
  let w := w.separate.append bracket
  { w with first := true :: w.first }

def endContainer (w : JsonWriter) (bracket : Text) : JsonWriter :=
  let w := { w with first := w.first.tail }
  let w := if w.first.isEmpty then w else (w.append "\n").indent
  w.append bracket

def beginObject (w : JsonWriter) : JsonWriter := w.beginContainer "\x7b"
def endObject (w : JsonWriter) : JsonWriter := w.endContainer "\x7d"
def beginArray (w : JsonWriter) : JsonWriter := w.beginContainer "["
def endArray (w : JsonWriter) : JsonWriter := w.endContainer "]"

def key (w : JsonWriter) (name : Text) : JsonWriter :=
  { (((w.separate.append "\"").append (escapeJson name)).append "\"") with expectingValue := true }

def valueText (w : JsonWriter) (text : Text) : JsonWriter :=
  ((w.separate.append "\"").append (escapeJson text)).append "\""

def valueSigned (w : JsonWriter) (number : Int64) : JsonWriter := w.separate.append (toString number.toInt)
def valueUnsigned (w : JsonWriter) (number : UInt64) : JsonWriter := w.separate.append (natText number.toNat)
def valueBool (w : JsonWriter) (boolean : Bool) : JsonWriter := w.separate.append (if boolean then "true" else "false")
def nullValue (w : JsonWriter) : JsonWriter := w.separate.append "null"

end JsonWriter

/-! ### Trees -/

/-- What callers build with the writer. Strings are sequences of code points, so any well-formed UTF-8. -/
inductive JsonTree
  | object (members : List (List Char × JsonTree))
  | array (items : List JsonTree)
  | signed (number : Int64)
  | unsigned (number : UInt64)
  | boolean (b : Bool)
  | null
  | text (codePoints : List Char)

namespace JsonTree

/-- The bytes handed to the writer for a string. -/
def utf8 (codePoints : List Char) : Text := ⟨Utf8.encode codePoints⟩

mutual
/-- The calls on the writer for a tree, in order. -/
def write : JsonTree → JsonWriter → JsonWriter
  | .object members, w => (writeMembers members w.beginObject).endObject
  | .array items, w => (writeItems items w.beginArray).endArray
  | .signed number, w => w.valueSigned number
  | .unsigned number, w => w.valueUnsigned number
  | .boolean b, w => w.valueBool b
  | .null, w => w.nullValue
  | .text codePoints, w => w.valueText (utf8 codePoints)
def writeMembers : List (List Char × JsonTree) → JsonWriter → JsonWriter
  | [], w => w
  | (name, value) :: rest, w => writeMembers rest (value.write (w.key (utf8 name)))
def writeItems : List JsonTree → JsonWriter → JsonWriter
  | [], w => w
  | value :: rest, w => writeItems rest (value.write w)
end

/-- The text a fresh writer holds after a tree. -/
def print (tree : JsonTree) : Text := (tree.write {}).out

mutual
/-- The JSON value a tree stands for. -/
def value : JsonTree → Json.Value
  | .object members => .object (memberValues members)
  | .array items => .array (itemValues items)
  | .signed number => .number number.toInt
  | .unsigned number => .number number.toNat
  | .boolean b => .boolean b
  | .null => .null
  | .text codePoints => .string codePoints
def memberValues : List (List Char × JsonTree) → List (List Char × Json.Value)
  | [] => []
  | (name, member) :: rest => (name, member.value) :: memberValues rest
def itemValues : List JsonTree → List Json.Value
  | [] => []
  | item :: rest => item.value :: itemValues rest
end

mutual
/-- The keys and the strings of a tree. -/
def texts : JsonTree → List (List Char)
  | .object members => memberTexts members
  | .array items => itemTexts items
  | .signed _ => []
  | .unsigned _ => []
  | .boolean _ => []
  | .null => []
  | .text codePoints => [codePoints]
def memberTexts : List (List Char × JsonTree) → List (List Char)
  | [] => []
  | (name, member) :: rest => name :: member.texts ++ memberTexts rest
def itemTexts : List JsonTree → List (List Char)
  | [] => []
  | item :: rest => item.texts ++ itemTexts rest
end

end JsonTree

end AgentScheduler
