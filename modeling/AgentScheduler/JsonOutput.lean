import AgentScheduler.JsonWriter

/-! What the writer prints for a tree is a JSON text of the tree, wherever the escaper leaves UTF-8 whole. -/
namespace AgentScheduler
open Utf8

/-! ### The escaper, byte by byte -/

@[simp] theorem Text.bytes_append (left right : Text) : (left ++ right).bytes = left.bytes ++ right.bytes := rfl

theorem Text.bytes_coe (s : String) : (s : Text).bytes = encode s.toList := toList_toUTF8 s

/-- What the escaper writes for one byte. -/
def escaped (byte : UInt8) : List UInt8 := (escapeByte {} byte).bytes

theorem escapeByte_bytes (out : Text) (byte : UInt8) : (escapeByte out byte).bytes = out.bytes ++ escaped byte := by
  simp only [escaped, escapeByte, appendHexEscape]
  split_ifs <;> simp [List.append_assoc]

theorem escapeJson_bytes (text : Text) : (escapeJson text).bytes = text.bytes.flatMap escaped := by
  have hloop (bytes : List UInt8) (out : Text) :
      (bytes.foldl escapeByte out).bytes = out.bytes ++ bytes.flatMap escaped := by
    induction bytes generalizing out with
    | nil => simp
    | cons byte bytes ih =>
      rw [List.foldl_cons, ih, escapeByte_bytes, List.flatMap_cons, List.append_assoc]
  exact hloop text.bytes {}

/-- Escaping a byte with a C1 value takes a continuation byte away. -/
theorem totalOwed_escaped : ∀ byte : UInt8, totalOwed (escaped byte) = owed byte + if IsC1Byte byte then 1 else 0 := by
  decide +kernel

/-- The bytes of a string that have the value of a C1 control code point. -/
def c1Count (codePoints : List Char) : Nat := (encode codePoints).countP fun byte => IsC1Byte byte

theorem totalOwed_escapeJson (codePoints : List Char) :
    totalOwed (escapeJson (JsonTree.utf8 codePoints)).bytes = c1Count codePoints := by
  have hsum (bytes : List UInt8) :
      totalOwed (bytes.flatMap escaped) = totalOwed bytes + bytes.countP fun byte => IsC1Byte byte := by
    induction bytes with
    | nil => rfl
    | cons byte bytes ih =>
      rw [List.flatMap_cons, totalOwed_append, totalOwed_escaped, ih, totalOwed_cons, List.countP_cons]
      by_cases h : IsC1Byte byte
      · simp only [h, if_true, decide_true]
        push_cast
        ring
      · simp only [h, if_false, decide_false]
        push_cast
        ring
  have hwell : WellFormed (encode codePoints) := ⟨codePoints, rfl⟩
  rw [escapeJson_bytes, JsonTree.utf8, hsum, hwell.totalOwed, zero_add]
  rfl

/-! ### Escapes read back -/

/-- The escape of an ASCII character. -/
def escapedAscii (c : Char) : List Char :=
  if c = '"' then ['\\', '"']
  else if c = '\\' then ['\\', '\\']
  else if c = '\x08' then ['\\', 'b']
  else if c = '\x0c' then ['\\', 'f']
  else if c = '\n' then ['\\', 'n']
  else if c = '\r' then ['\\', 'r']
  else if c = '\t' then ['\\', 't']
  else if c.toNat < 0x20 ∨ c.toNat = 0x7F then
    ['\\', 'u', '0', '0', Nat.digitChar (c.toNat / 16), Nat.digitChar (c.toNat % 16)]
  else [c]

theorem encode_escapedAscii : ∀ n : Fin 128, encode (escapedAscii (Char.ofNat n)) = escaped (UInt8.ofNat n) := by
  decide +kernel

theorem hexDigit?_digitChar {d : Nat} (h : d < 16) : Json.hexDigit? (Nat.digitChar d) = some d := by
  revert d
  decide

theorem codeUnit?_ascii {n : Nat} (h : n < 256) (tail : List Char) :
    Json.codeUnit? ('0' :: '0' :: Nat.digitChar (n / 16) :: Nat.digitChar (n % 16) :: tail) = some (n, tail) := by
  have hzero : Json.hexDigit? '0' = some 0 := by decide
  simp only [Json.codeUnit?, hzero, hexDigit?_digitChar (Nat.div_lt_of_lt_mul h : n / 16 < 16),
    hexDigit?_digitChar (Nat.mod_lt n (by omega) : n % 16 < 16), Option.bind_eq_bind, Option.bind_some, Option.some_inj,
    Prod.mk.injEq, and_true]
  omega

theorem characters_escapedAscii {c : Char} {tail s rest : List Char} (h : Json.Characters tail s rest) :
    Json.Characters (escapedAscii c ++ tail) (c :: s) rest := by
  simp only [escapedAscii]
  split_ifs with hquote hbackslash hbackspace hfeed hline hreturn htab hcontrol
  · rw [hquote]
    exact .escaped (by decide) h
  · rw [hbackslash]
    exact .escaped (by decide) h
  · rw [hbackspace]
    exact .escaped (by decide) h
  · rw [hfeed]
    exact .escaped (by decide) h
  · rw [hline]
    exact .escaped (by decide) h
  · rw [hreturn]
    exact .escaped (by decide) h
  · rw [htab]
    exact .escaped (by decide) h
  · have hunit := Json.Characters.unit (codeUnit?_ascii (n := c.toNat) (by omega) tail) (.inl (by omega)) h
    rw [Char.ofNat_toNat] at hunit
    exact hunit
  · refine .plain ?_ h
    have hspace : ' ' ≤ c := by
      rw [Char.le_def, UInt32.le_iff_toNat_le]
      change 0x20 ≤ c.toNat
      omega
    simp only [Json.isPlain, hspace, decide_true, Bool.true_and, Bool.and_eq_true, decide_eq_true_eq]
    exact ⟨hquote, hbackslash⟩

/-- The escapes of one character read back as that character, unless a continuation byte was escaped. -/
theorem characters_escaped {c : Char} {bytes : List UInt8} (hencodes : Encodes c bytes)
    (hbytes : ∀ b ∈ bytes, ¬ IsC1Byte b) :
    ∃ text, encode text = bytes.flatMap escaped ∧
      ∀ {tail s rest}, Json.Characters tail s rest → Json.Characters (text ++ tail) (c :: s) rest := by
  by_cases hascii : c.toNat < 0x80
  · refine ⟨escapedAscii c, ?_, characters_escapedAscii⟩
    have hescaped := encode_escapedAscii ⟨c.toNat, hascii⟩
    rw [Char.ofNat_toNat] at hescaped
    change _ = escaped (UInt8.ofNat c.toNat) at hescaped
    cases hencodes with
    | one hrange hb =>
      rw [List.flatMap_singleton, hescaped, ← hb, UInt8.ofNat_toNat]
    | two hlow hhigh hb hx => omega
    | three hlow hhigh hb hx hy => omega
    | four hlow hb hx hy hz => omega
  · have hhigh : ∀ b ∈ bytes, escaped b = [b] := by
      have hsame : ∀ b : UInt8, 0x80 ≤ b.toNat → ¬ IsC1Byte b → escaped b = [b] := by decide +kernel
      intro b hb
      refine hsame b ?_ (hbytes b hb)
      cases hencodes with
      | one hrange hb => omega
      | two hlow hhigh hb hx => simp only [List.mem_cons, List.not_mem_nil] at hb; grind
      | three hlow hhigh hb hx hy => simp only [List.mem_cons, List.not_mem_nil] at hb; grind
      | four hlow hb hx hy hz => simp only [List.mem_cons, List.not_mem_nil] at hb; grind
    refine ⟨[c], ?_, fun htail => .plain ?_ htail⟩
    · rw [encode_cons, encodes_iff.mp hencodes, encode_nil, List.append_nil, List.flatMap_congr hhigh]
      simp
    · have hspace : ' ' ≤ c := by
        rw [Char.le_def, UInt32.le_iff_toNat_le]
        change 0x20 ≤ c.toNat
        omega
      simp only [Json.isPlain, hspace, decide_true, Bool.true_and, Bool.and_eq_true, decide_eq_true_eq]
      constructor
      · rintro rfl
        exact hascii (by decide)
      · rintro rfl
        exact hascii (by decide)

/-- A string without bytes of a C1 value is read back between its quotes. -/
theorem characters_escapeJson {codePoints : List Char} (hbytes : ∀ b ∈ encode codePoints, ¬ IsC1Byte b) :
    ∃ text, encode text = (escapeJson (JsonTree.utf8 codePoints)).bytes ∧
      ∀ rest, Json.Characters (text ++ '"' :: rest) codePoints rest := by
  rw [escapeJson_bytes, JsonTree.utf8]
  induction codePoints with
  | nil => exact ⟨[], rfl, fun rest => .close⟩
  | cons c codePoints ih =>
    rw [encode_cons, List.forall_mem_append] at hbytes
    obtain ⟨hfirst, hrest⟩ := hbytes
    obtain ⟨text, htext, hread⟩ := ih hrest
    obtain ⟨first, hescaped, hcharacter⟩ := characters_escaped (encodes_utf8EncodeChar c) hfirst
    refine ⟨first ++ text, ?_, fun rest => ?_⟩
    · rw [encode_append, hescaped, htext, encode_cons, List.flatMap_append]
    · rw [List.append_assoc]
      exact hcharacter (hread rest)

/-! ### The bytes printed for a tree -/

namespace JsonTree

def blanks (count : Nat) : List UInt8 := (List.replicate count [0x20, 0x20]).flatten

/-- What stands before an entry of a container opened inside `depth` others. -/
def between (depth : Nat) (isFirst : Bool) : List UInt8 := if isFirst then [] else 0x2C :: 0x0A :: blanks depth

/-- What stands before the closing bracket of a container opened inside `depth` others. -/
def closing (depth : Nat) : List UInt8 := if depth = 0 then [] else 0x0A :: blanks (depth - 1)

def quoted (codePoints : List Char) : List UInt8 := 0x22 :: (escapeJson (utf8 codePoints)).bytes ++ [0x22]

mutual
def printed (depth : Nat) : JsonTree → List UInt8
  | .object members => 0x7B :: printedMembers depth true members ++ closing depth ++ [0x7D]
  | .array items => 0x5B :: printedItems depth true items ++ closing depth ++ [0x5D]
  | .signed number => ((toString number.toInt : String) : Text).bytes
  | .unsigned number => (natText number.toNat).bytes
  | .boolean b => (if b then ("true" : Text) else "false").bytes
  | .null => ("null" : Text).bytes
  | .text codePoints => quoted codePoints
def printedMembers (depth : Nat) : Bool → List (List Char × JsonTree) → List UInt8
  | _, [] => []
  | isFirst, (name, member) :: rest =>
    between depth isFirst ++ quoted name ++ [0x3A, 0x20] ++ printed (depth + 1) member ++ printedMembers depth false rest
def printedItems (depth : Nat) : Bool → List JsonTree → List UInt8
  | _, [] => []
  | isFirst, item :: rest => between depth isFirst ++ printed (depth + 1) item ++ printedItems depth false rest
end

end JsonTree

/-! ### The writer prints them -/

section Punctuation

@[simp] theorem toList_quote : "\"".toByteArray.toList = [0x22] := by decide +kernel
@[simp] theorem toList_colon : ": ".toByteArray.toList = [0x3A, 0x20] := by decide +kernel
@[simp] theorem toList_comma : ",".toByteArray.toList = [0x2C] := by decide +kernel
@[simp] theorem toList_newline : "\n".toByteArray.toList = [0x0A] := by decide +kernel
@[simp] theorem toList_openBrace : "\x7b".toByteArray.toList = [0x7B] := by decide +kernel
@[simp] theorem toList_closeBrace : "\x7d".toByteArray.toList = [0x7D] := by decide +kernel
@[simp] theorem toList_openBracket : "[".toByteArray.toList = [0x5B] := by decide +kernel
@[simp] theorem toList_closeBracket : "]".toByteArray.toList = [0x5D] := by decide +kernel

end Punctuation

namespace JsonWriter

theorem ext_out {out out' : Text} {first : List Bool} {expecting : Bool} (h : out.bytes = out'.bytes) :
    (⟨out, first, expecting⟩ : JsonWriter) = ⟨out', first, expecting⟩ := by
  cases out
  cases out'
  cases h
  rfl

/-- Before an entry the writer breaks the line, unless the container is still empty. -/
theorem separate_open (out : Text) (isFirst : Bool) (outer : List Bool) :
    separate ⟨out, isFirst :: outer, false⟩ =
      ⟨out ++ ⟨JsonTree.between outer.length isFirst⟩, false :: outer, false⟩ := by
  cases isFirst with
  | true => exact ext_out (by simp [JsonTree.between])
  | false => exact ext_out (by simp [append, indent, JsonTree.between, JsonTree.blanks])

theorem separate_key (out : Text) (isFirst : Bool) (outer : List Bool) :
    separate ⟨out, isFirst :: outer, true⟩ = ⟨out ++ ": ", isFirst :: outer, false⟩ := rfl

theorem separate_expecting {w : JsonWriter} (hroot : w.first = [] → w.expectingValue = false) :
    w.separate.expectingValue = false := by
  obtain ⟨out, first, expecting⟩ := w
  cases first with
  | nil => exact hroot rfl
  | cons isFirst outer =>
    cases expecting with
    | false => rw [separate_open]
    | true => rfl

theorem length_separate (w : JsonWriter) : w.separate.first.length = w.first.length := by
  obtain ⟨out, first, expecting⟩ := w
  cases first with
  | nil => rfl
  | cons isFirst outer =>
    cases expecting with
    | false => rw [separate_open]; rfl
    | true => rfl

theorem endContainer_eq (out : Text) (isFirst : Bool) (outer : List Bool) (bracket : Text) :
    endContainer ⟨out, isFirst :: outer, false⟩ bracket =
      ⟨out ++ ⟨JsonTree.closing outer.length⟩ ++ bracket, outer, false⟩ := by
  cases outer with
  | nil => exact ext_out (by simp [JsonTree.closing])
  | cons next outer =>
    apply ext_out
    simp [append, indent, JsonTree.closing, JsonTree.blanks]

theorem append_eq {w : JsonWriter} (hroot : w.first = [] → w.expectingValue = false) (text : Text) :
    w.separate.append text = ⟨w.separate.out ++ text, w.separate.first, false⟩ := by
  rw [append, separate_expecting hroot]

theorem beginContainer_eq {w : JsonWriter} (hroot : w.first = [] → w.expectingValue = false) (bracket : Text) :
    w.beginContainer bracket = ⟨w.separate.out ++ bracket, true :: w.separate.first, false⟩ := by
  rw [beginContainer, append_eq hroot]

theorem key_eq (out : Text) (isFirst : Bool) (outer : List Bool) (name : List Char) :
    key ⟨out, isFirst :: outer, false⟩ (JsonTree.utf8 name) =
      ⟨out ++ ⟨JsonTree.between outer.length isFirst ++ JsonTree.quoted name⟩, false :: outer, true⟩ := by
  rw [key, separate_open]
  exact ext_out (by simp [append, JsonTree.quoted])

end JsonWriter

namespace JsonTree
open JsonWriter

mutual
/-- Writing a tree separates it from what stands before and prints it. -/
theorem write_eq (tree : JsonTree) {w : JsonWriter} (hroot : w.first = [] → w.expectingValue = false) :
    tree.write w = w.separate.append ⟨tree.printed w.first.length⟩ := by
  match tree with
  | .object members =>
    rw [write, beginObject, beginContainer_eq hroot, writeMembers_eq members, endObject, endContainer_eq,
      length_separate, printed, append_eq hroot]
    exact ext_out (by simp)
  | .array items =>
    rw [write, beginArray, beginContainer_eq hroot, writeItems_eq items, endArray, endContainer_eq,
      length_separate, printed, append_eq hroot]
    exact ext_out (by simp)
  | .signed number => rfl
  | .unsigned number => rfl
  | .boolean b => rfl
  | .null => rfl
  | .text codePoints =>
    rw [write, valueText, printed]
    exact ext_out (by simp [append, quoted])
theorem writeMembers_eq (members : List (List Char × JsonTree)) {out : Text} {isFirst : Bool} {outer : List Bool} :
    writeMembers members ⟨out, isFirst :: outer, false⟩ =
      ⟨out ++ ⟨printedMembers outer.length isFirst members⟩, (isFirst && members.isEmpty) :: outer, false⟩ := by
  match members with
  | [] =>
    rw [writeMembers, printedMembers, List.isEmpty_nil, Bool.and_true]
    exact ext_out (by simp)
  | (name, member) :: rest =>
    rw [writeMembers, key_eq, write_eq member (by simp), separate_key, append, writeMembers_eq rest, printedMembers,
      List.isEmpty_cons, Bool.and_false, Bool.false_and]
    exact ext_out (by simp)
theorem writeItems_eq (items : List JsonTree) {out : Text} {isFirst : Bool} {outer : List Bool} :
    writeItems items ⟨out, isFirst :: outer, false⟩ =
      ⟨out ++ ⟨printedItems outer.length isFirst items⟩, (isFirst && items.isEmpty) :: outer, false⟩ := by
  match items with
  | [] =>
    rw [writeItems, printedItems, List.isEmpty_nil, Bool.and_true]
    exact ext_out (by simp)
  | item :: rest =>
    rw [writeItems, write_eq item (by simp), separate_open, append, writeItems_eq rest, printedItems,
      List.isEmpty_cons, Bool.and_false, Bool.false_and]
    exact ext_out (by simp)
end

theorem print_bytes (tree : JsonTree) : tree.print.bytes = tree.printed 0 := by
  rw [print, write_eq tree (fun _ => rfl)]
  rfl

end JsonTree

/-! ### Continuation bytes the output owes -/

namespace JsonTree

@[simp] theorem totalOwed_string (s : String) : totalOwed s.toByteArray.toList = 0 := by
  have hwell : WellFormed s.toByteArray.toList := ⟨s.toList, (Text.bytes_coe s).symm⟩
  exact hwell.totalOwed

@[simp] theorem totalOwed_blanks (count : Nat) : totalOwed (blanks count) = 0 := by
  induction count with
  | zero => rfl
  | succ count ih =>
    have hstep : blanks (count + 1) = [0x20, 0x20] ++ blanks count := rfl
    rw [hstep, totalOwed_append, ih]
    decide

@[simp] theorem totalOwed_between (depth : Nat) (isFirst : Bool) : totalOwed (between depth isFirst) = 0 := by
  cases isFirst with
  | true => rfl
  | false =>
    rw [between, if_neg (by decide), totalOwed_cons, totalOwed_cons, totalOwed_blanks]
    decide

@[simp] theorem totalOwed_closing (depth : Nat) : totalOwed (closing depth) = 0 := by
  rw [closing]
  split
  · rfl
  · rw [totalOwed_cons, totalOwed_blanks]
    decide

@[simp] theorem totalOwed_quoted (codePoints : List Char) : totalOwed (quoted codePoints) = c1Count codePoints := by
  have hquote : owed 0x22 = 0 := by decide
  rw [quoted, List.cons_append, totalOwed_cons, totalOwed_append, totalOwed_escapeJson, totalOwed_cons, hquote]
  simp

/-- The bytes of a C1 value in the keys and strings of a tree. -/
def c1Total (texts : List (List Char)) : Nat := (texts.map c1Count).sum

theorem c1Total_append (left right : List (List Char)) : c1Total (left ++ right) = c1Total left + c1Total right := by
  simp [c1Total]

mutual
/-- Every escaped continuation byte is missing from the output. -/
theorem totalOwed_printed (tree : JsonTree) (depth : Nat) : totalOwed (tree.printed depth) = c1Total tree.texts := by
  have hbrackets : owed 0x7B = 0 ∧ owed 0x7D = 0 ∧ owed 0x5B = 0 ∧ owed 0x5D = 0 := by decide
  obtain ⟨hopen, hclose, hopenArray, hcloseArray⟩ := hbrackets
  match tree with
  | .object members =>
    rw [printed, texts, ← totalOwed_printedMembers members depth true]
    simp [hopen, hclose]
  | .array items =>
    rw [printed, texts, ← totalOwed_printedItems items depth true]
    simp [hopenArray, hcloseArray]
  | .signed number => exact totalOwed_string _
  | .unsigned number => exact totalOwed_string _
  | .boolean true => exact totalOwed_string _
  | .boolean false => exact totalOwed_string _
  | .null => exact totalOwed_string _
  | .text codePoints =>
    rw [printed, texts, totalOwed_quoted]
    simp [c1Total]
theorem totalOwed_printedMembers (members : List (List Char × JsonTree)) (depth : Nat) (isFirst : Bool) :
    totalOwed (printedMembers depth isFirst members) = c1Total (memberTexts members) := by
  match members with
  | [] => rw [printedMembers, memberTexts]; rfl
  | (name, member) :: rest =>
    have hcolon : owed 0x3A = 0 ∧ owed 0x20 = 0 := by decide
    rw [printedMembers, memberTexts, List.cons_append]
    simp only [totalOwed_append, totalOwed_between, totalOwed_quoted, totalOwed_cons, totalOwed_nil, hcolon,
      totalOwed_printed member, totalOwed_printedMembers rest, c1Total, List.map_cons, List.sum_cons, List.map_append,
      List.sum_append]
    push_cast
    ring
theorem totalOwed_printedItems (items : List JsonTree) (depth : Nat) (isFirst : Bool) :
    totalOwed (printedItems depth isFirst items) = c1Total (itemTexts items) := by
  match items with
  | [] => rw [printedItems, itemTexts]; rfl
  | item :: rest =>
    rw [printedItems, itemTexts, c1Total_append]
    simp only [totalOwed_append, totalOwed_between, totalOwed_printed item, totalOwed_printedItems rest]
    simp
end

theorem c1Count_eq_zero {codePoints : List Char} : c1Count codePoints = 0 ↔ ∀ b ∈ encode codePoints, ¬ IsC1Byte b := by
  simp [c1Count, List.countP_eq_zero]

theorem c1Total_eq_zero {texts : List (List Char)} :
    c1Total texts = 0 ↔ ∀ codePoints ∈ texts, ∀ b ∈ encode codePoints, ¬ IsC1Byte b := by
  simp [c1Total, List.sum_eq_zero_iff, c1Count_eq_zero]

end JsonTree

/-! ### The output read back -/

/-- A byte string prints a phrase of the grammar. -/
def Prints (bytes : List UInt8) (p : Json.Phrase) : Prop :=
  ∃ text, encode text = bytes ∧ ∀ rest, Json.Derives (text ++ rest) p rest

/-- A byte string prints white space. -/
def PrintsSpaces (bytes : List UInt8) : Prop :=
  ∃ text, encode text = bytes ∧ ∀ rest, Json.Spaces (text ++ rest) rest

namespace JsonTree

theorem printsSpaces_blanks (count : Nat) : PrintsSpaces (blanks count) := by
  induction count with
  | zero => exact ⟨[], rfl, fun rest => .done⟩
  | succ count ih =>
    obtain ⟨text, htext, hread⟩ := ih
    refine ⟨' ' :: ' ' :: text, ?_, fun rest => .more (by decide) (.more (by decide) (hread rest))⟩
    rw [encode_cons, encode_cons, htext]
    rfl

theorem printsSpaces_break (count : Nat) : PrintsSpaces (0x0A :: blanks count) := by
  obtain ⟨text, htext, hread⟩ := printsSpaces_blanks count
  refine ⟨'\n' :: text, ?_, fun rest => .more (by decide) (hread rest)⟩
  rw [encode_cons, htext]
  rfl

theorem printsSpaces_closing (depth : Nat) : PrintsSpaces (closing depth) := by
  rw [closing]
  split
  · exact ⟨[], rfl, fun rest => .done⟩
  · exact printsSpaces_break _

/-- The text of an integer is its numeral. -/
theorem toString_toList (i : ℤ) : (toString i).toList = Json.numeral i := by
  cases i with
  | ofNat n =>
    have hnonneg : ¬ (Int.ofNat n < 0) := by
      rw [Int.ofNat_eq_natCast]
      omega
    rw [Json.numeral, if_neg hnonneg]
    exact Nat.toList_repr
  | negSucc n =>
    rw [Json.numeral, if_pos (Int.negSucc_lt_zero n), Int.natAbs_negSucc]
    change ("-" ++ Nat.repr (n + 1)).toList = _
    rw [String.toList_append, Nat.toList_repr]
    rfl

theorem prints_number (i : ℤ) : Prints ((toString i : String) : Text).bytes (.value (.number i)) := by
  refine ⟨Json.numeral i, ?_, fun rest => .number (Json.number_numeral i rest)⟩
  rw [Text.bytes_coe, toString_toList]

theorem prints_quoted {codePoints : List Char} (hclean : ∀ b ∈ encode codePoints, ¬ IsC1Byte b) :
    ∃ text, encode ('"' :: text) = quoted codePoints ∧ ∀ rest, Json.Characters (text ++ rest) codePoints rest := by
  obtain ⟨text, htext, hread⟩ := characters_escapeJson hclean
  refine ⟨text ++ ['"'], ?_, fun rest => ?_⟩
  · rw [encode_cons, encode_append, htext]
    rfl
  · rw [List.append_assoc]
    exact hread rest

section Marks

@[simp] theorem utf8EncodeChar_quote : String.utf8EncodeChar '"' = [0x22] := by decide
@[simp] theorem utf8EncodeChar_colon : String.utf8EncodeChar ':' = [0x3A] := by decide
@[simp] theorem utf8EncodeChar_blank : String.utf8EncodeChar ' ' = [0x20] := by decide
@[simp] theorem utf8EncodeChar_comma : String.utf8EncodeChar ',' = [0x2C] := by decide
@[simp] theorem utf8EncodeChar_openBrace : String.utf8EncodeChar '{' = [0x7B] := by decide
@[simp] theorem utf8EncodeChar_closeBrace : String.utf8EncodeChar '}' = [0x7D] := by decide
@[simp] theorem utf8EncodeChar_openBracket : String.utf8EncodeChar '[' = [0x5B] := by decide
@[simp] theorem utf8EncodeChar_closeBracket : String.utf8EncodeChar ']' = [0x5D] := by decide

end Marks

theorem printedMembers_next {members : List (List Char × JsonTree)} (hne : members ≠ []) (depth : Nat) :
    printedMembers depth false members = 0x2C :: 0x0A :: blanks depth ++ printedMembers depth true members := by
  cases members with
  | nil => exact absurd rfl hne
  | cons member members => simp [printedMembers, between]

theorem printedItems_next {items : List JsonTree} (hne : items ≠ []) (depth : Nat) :
    printedItems depth false items = 0x2C :: 0x0A :: blanks depth ++ printedItems depth true items := by
  cases items with
  | nil => exact absurd rfl hne
  | cons item items => simp [printedItems, between]

mutual
/-- A tree without bytes of a C1 value in its texts is printed as a text of its value. -/
theorem prints_printed (tree : JsonTree) (depth : Nat)
    (hclean : ∀ codePoints ∈ tree.texts, ∀ b ∈ encode codePoints, ¬ IsC1Byte b) :
    Prints (tree.printed depth) (.value tree.value) := by
  obtain ⟨spaces, hspaces, hblank⟩ := printsSpaces_closing depth
  match tree with
  | .object members =>
    by_cases hne : members = []
    · subst hne
      refine ⟨'{' :: (spaces ++ ['}']), ?_, fun rest => ?_⟩
      · simp [encode_cons, hspaces, printed, printedMembers]
      · rw [List.cons_append, List.append_assoc]
        exact .emptyObject (hblank _)
    · obtain ⟨text, htext, hread⟩ := prints_members members hne depth hclean
      refine ⟨'{' :: text, ?_, fun rest => .object .done (hread rest)⟩
      simp [encode_cons, htext, printed]
  | .array items =>
    by_cases hne : items = []
    · subst hne
      refine ⟨'[' :: (spaces ++ [']']), ?_, fun rest => ?_⟩
      · simp [encode_cons, hspaces, printed, printedItems]
      · rw [List.cons_append, List.append_assoc]
        exact .emptyArray (hblank _)
    · obtain ⟨text, htext, hread⟩ := prints_items items hne depth hclean
      refine ⟨'[' :: text, ?_, fun rest => .array .done (hread rest)⟩
      simp [encode_cons, htext, printed]
  | .signed number => exact prints_number number.toInt
  | .unsigned number => exact prints_number number.toNat
  | .boolean true => exact ⟨['t', 'r', 'u', 'e'], (Text.bytes_coe "true").symm, fun rest => .trueLiteral⟩
  | .boolean false => exact ⟨['f', 'a', 'l', 's', 'e'], (Text.bytes_coe "false").symm, fun rest => .falseLiteral⟩
  | .null => exact ⟨['n', 'u', 'l', 'l'], (Text.bytes_coe "null").symm, fun rest => .nullLiteral⟩
  | .text codePoints =>
    obtain ⟨text, htext, hread⟩ := prints_quoted (hclean codePoints (List.mem_singleton.mpr rfl))
    exact ⟨'"' :: text, htext, fun rest => .string (hread rest)⟩
theorem prints_members (members : List (List Char × JsonTree)) (hne : members ≠ []) (depth : Nat)
    (hclean : ∀ codePoints ∈ memberTexts members, ∀ b ∈ encode codePoints, ¬ IsC1Byte b) :
    Prints (printedMembers depth true members ++ closing depth ++ [0x7D]) (.members (memberValues members)) := by
  match members, hne with
  | (name, member) :: members, _ =>
    rw [memberTexts, List.cons_append, List.forall_mem_cons, List.forall_mem_append] at hclean
    obtain ⟨hname, hmember, hmembers⟩ := hclean
    obtain ⟨quote, hquote, hcharacters⟩ := prints_quoted hname
    obtain ⟨text, htext, hread⟩ := prints_printed member (depth + 1) hmember
    rw [encode_cons] at hquote
    by_cases hlast : members = []
    · obtain ⟨spaces, hspaces, hblank⟩ := printsSpaces_closing depth
      subst hlast
      refine ⟨'"' :: quote ++ ':' :: ' ' :: text ++ spaces ++ ['}'], ?_, fun rest => ?_⟩
      · simp [encode_cons, ← hquote, htext, hspaces, printedMembers, between]
      · simp only [List.cons_append, List.append_assoc]
        exact .lastMember (hcharacters _) .done (.more (by decide) .done) (hread _) (hblank _)
    · obtain ⟨spaces, hspaces, hblank⟩ := printsSpaces_break depth
      obtain ⟨others, hothers, hmore⟩ := prints_members members hlast depth hmembers
      refine ⟨'"' :: quote ++ ':' :: ' ' :: text ++ ',' :: (spaces ++ others), ?_, fun rest => ?_⟩
      · simp [encode_cons, ← hquote, htext, hspaces, hothers, printedMembers, printedMembers_next hlast, between]
      · simp only [List.cons_append, List.append_assoc]
        exact .member (hcharacters _) .done (.more (by decide) .done) (hread _) .done (hblank _) (hmore _)
theorem prints_items (items : List JsonTree) (hne : items ≠ []) (depth : Nat)
    (hclean : ∀ codePoints ∈ itemTexts items, ∀ b ∈ encode codePoints, ¬ IsC1Byte b) :
    Prints (printedItems depth true items ++ closing depth ++ [0x5D]) (.items (itemValues items)) := by
  match items, hne with
  | item :: items, _ =>
    rw [itemTexts, List.forall_mem_append] at hclean
    obtain ⟨hitem, hitems⟩ := hclean
    obtain ⟨text, htext, hread⟩ := prints_printed item (depth + 1) hitem
    by_cases hlast : items = []
    · obtain ⟨spaces, hspaces, hblank⟩ := printsSpaces_closing depth
      subst hlast
      refine ⟨text ++ spaces ++ [']'], ?_, fun rest => ?_⟩
      · simp [encode_cons, htext, hspaces, printedItems, between]
      · simp only [List.append_assoc]
        exact .lastItem (hread _) (hblank _)
    · obtain ⟨spaces, hspaces, hblank⟩ := printsSpaces_break depth
      obtain ⟨others, hothers, hmore⟩ := prints_items items hlast depth hitems
      refine ⟨text ++ ',' :: (spaces ++ others), ?_, fun rest => ?_⟩
      · simp [encode_cons, htext, hspaces, hothers, printedItems, printedItems_next hlast, between]
      · simp only [List.cons_append, List.append_assoc]
        exact .item (hread _) .done (hblank _) (hmore _)
end

/-- A byte string is a JSON text of a value, in UTF-8. -/
def Reads (bytes : List UInt8) (v : Json.Value) : Prop := ∃ text, encode text = bytes ∧ Json.Denotes text v

/-- What the writer prints for a tree is JSON, and the tree is the only value it can be read as. -/
def Faithful (tree : JsonTree) : Prop :=
  Reads tree.print.bytes tree.value ∧ ∀ other, Reads tree.print.bytes other → other = tree.value

/-- The output is faithful exactly when no key or string has a continuation byte with the value of a C1
control code point: the escaper replaces such a byte, and what is left is not UTF-8. -/
theorem json_faithful_iff (tree : JsonTree) :
    tree.Faithful ↔ ∀ codePoints ∈ tree.texts, ∀ b ∈ encode codePoints, ¬ IsC1Byte b := by
  constructor
  · rintro ⟨⟨text, htext, -⟩, -⟩
    have hwell : WellFormed tree.print.bytes := ⟨text, htext⟩
    have howed := hwell.totalOwed
    rw [print_bytes, totalOwed_printed] at howed
    exact c1Total_eq_zero.mp (by exact_mod_cast howed)
  · intro hclean
    obtain ⟨text, htext, hread⟩ := prints_printed tree 0 hclean
    rw [← print_bytes] at htext
    have hdenotes : Json.Denotes text tree.value := by
      have hvalue := hread []
      rw [List.append_nil] at hvalue
      exact ⟨text, [], .done, hvalue, .done⟩
    refine ⟨⟨text, htext, hdenotes⟩, ?_⟩
    rintro other ⟨same, hsame, hother⟩
    rw [← htext] at hsame
    rw [encode_injective hsame] at hother
    exact hother.unique hdenotes

/-- "À" is printed as a lead byte before an ASCII escape. -/
theorem not_json_faithful : ¬ ∀ tree : JsonTree, tree.Faithful := by
  intro h
  obtain ⟨⟨text, htext, -⟩, -⟩ := h (.text ['À'])
  have hwell : WellFormed (JsonTree.text ['À']).print.bytes := ⟨text, htext⟩
  have howed := hwell.totalOwed
  rw [print_bytes, totalOwed_printed] at howed
  revert howed
  decide +kernel

end JsonTree

end AgentScheduler
