import AgentScheduler.Text
import AgentScheduler.Utf8

/-! What `valid_utf8` and `text_problem` accept: the scan decides well-formed UTF-8, byte for byte. -/
namespace AgentScheduler
open Utf8

/-! ### One sequence of the scan -/

/-- The first byte of a multi-byte sequence announces its length and carries the highest bits. -/
theorem utf8Lead_eq_some {byte : UInt8} {extra : Nat} {lead : UInt32} :
    utf8Lead byte = some (extra, lead) ↔
      extra = 1 ∧ 0xC0 < byte.toNat ∧ byte.toNat < 0xE0 ∧ lead.toNat = byte.toNat - 0xC0 ∨
      extra = 2 ∧ 0xE0 ≤ byte.toNat ∧ byte.toNat < 0xF0 ∧ lead.toNat = byte.toNat - 0xE0 ∨
      extra = 3 ∧ 0xF0 ≤ byte.toNat ∧ byte.toNat < 0xF8 ∧ lead.toNat = byte.toNat - 0xF0 := by
  have hshape : ∀ byte : UInt8, utf8Lead byte =
      if 0xC0 < byte.toNat ∧ byte.toNat < 0xE0 then some (1, UInt32.ofNat (byte.toNat - 0xC0))
      else if 0xE0 ≤ byte.toNat ∧ byte.toNat < 0xF0 then some (2, UInt32.ofNat (byte.toNat - 0xE0))
      else if 0xF0 ≤ byte.toNat ∧ byte.toNat < 0xF8 then some (3, UInt32.ofNat (byte.toNat - 0xF0))
      else none := by decide +kernel
  have hsize := byte.toNat_lt
  have hof : ∀ n, n < 256 → ((UInt32.ofNat n = lead) ↔ lead.toNat = n) := by
    intro n hn
    rw [← UInt32.toNat_inj, UInt32.toNat_ofNat', Nat.mod_eq_of_lt (by omega)]
    exact eq_comm
  rw [hshape]
  split
  next h =>
    rw [Option.some_inj, Prod.mk.injEq, hof _ (by omega)]
    omega
  next hone =>
    split
    next h =>
      rw [Option.some_inj, Prod.mk.injEq, hof _ (by omega)]
      omega
    next htwo =>
      split
      next h =>
        rw [Option.some_inj, Prod.mk.injEq, hof _ (by omega)]
        omega
      next hthree =>
        simp only [reduceCtorEq, false_iff]
        omega

/-- One continuation byte shifts six bits in. -/
theorem utf8Continue_cons (next : UInt8) (rest : List UInt8) (codePoint : UInt32) (hsmall : codePoint.toNat < 2 ^ 26) :
    ∃ shifted : UInt32, shifted.toNat = codePoint.toNat * 64 + next.toNat % 64 ∧
      utf8Continue (next :: rest) codePoint =
        if 0x80 ≤ next.toNat ∧ next.toNat < 0xC0 then utf8Continue rest shifted else none := by
  have hmark : ∀ b : UInt8, (b &&& 0xC0 = 0x80 ↔ 0x80 ≤ b.toNat ∧ b.toNat < 0xC0) := by decide +kernel
  have hlow : ∀ b : UInt8, (b &&& 0x3F).toNat = b.toNat % 64 := by decide +kernel
  refine ⟨(codePoint <<< 6) ||| (next &&& 0x3F).toUInt32, ?_, ?_⟩
  · have hshift : (codePoint <<< 6).toNat = codePoint.toNat * 64 := by
      rw [UInt32.toNat_shiftLeft, Nat.shiftLeft_eq, Nat.mod_eq_of_lt]
      · rfl
      · change codePoint.toNat * 2 ^ 6 < 2 ^ 32
        omega
    rw [UInt32.toNat_or, hshift, UInt8.toNat_toUInt32, hlow]
    have hadd := Nat.two_pow_add_eq_or_of_lt (i := 6) (b := next.toNat % 64) (Nat.mod_lt _ (by omega)) codePoint.toNat
    rw [Nat.mul_comm codePoint.toNat 64]
    exact hadd.symm
  · simp only [utf8Continue, hmark]

/-- What the scan accepts after a multi-byte lead is the encoding of a scalar value. -/
theorem encodes_of_accepted {byte : UInt8} {tail : List UInt8} {lead codePoint : UInt32}
    (hlead : utf8Lead byte = some (tail.length, lead)) (htail : utf8Continue tail lead = some codePoint)
    (hrange : utf8InRange tail.length codePoint = true) : ∃ c, Encodes c (byte :: tail) := by
  simp only [utf8InRange, Bool.and_eq_true, Bool.not_eq_true', decide_eq_false_iff_not, UInt32.lt_iff_toNat_lt,
    UInt32.le_iff_toNat_le, UInt32.reduceToNat] at hrange
  have hvalid : codePoint.isValidChar := by
    simp only [UInt32.isValidChar, Nat.isValidChar]
    omega
  refine ⟨⟨codePoint, hvalid⟩, ?_⟩
  have hvalue : (⟨codePoint, hvalid⟩ : Char).toNat = codePoint.toNat := rfl
  rcases utf8Lead_eq_some.mp hlead with ⟨hextra, hlow, hhigh, hbits⟩ | ⟨hextra, hlow, hhigh, hbits⟩ |
    ⟨hextra, hlow, hhigh, hbits⟩
  · obtain ⟨x, rfl⟩ := List.length_eq_one_iff.mp hextra
    obtain ⟨first, hfirst, hstep⟩ := utf8Continue_cons x [] lead (by omega)
    rw [hstep, utf8Continue, Option.ite_none_right_eq_some, Option.some_inj] at htail
    obtain ⟨hx, rfl⟩ := htail
    apply Encodes.two <;> omega
  · obtain ⟨x, y, rfl⟩ := List.length_eq_two.mp hextra
    obtain ⟨first, hfirst, hstep⟩ := utf8Continue_cons x [y] lead (by omega)
    rw [hstep, Option.ite_none_right_eq_some] at htail
    obtain ⟨hx, htail⟩ := htail
    obtain ⟨second, hsecond, hstep⟩ := utf8Continue_cons y [] first (by omega)
    rw [hstep, utf8Continue, Option.ite_none_right_eq_some, Option.some_inj] at htail
    obtain ⟨hy, rfl⟩ := htail
    apply Encodes.three <;> omega
  · obtain ⟨x, y, z, rfl⟩ := List.length_eq_three.mp hextra
    obtain ⟨first, hfirst, hstep⟩ := utf8Continue_cons x [y, z] lead (by omega)
    rw [hstep, Option.ite_none_right_eq_some] at htail
    obtain ⟨hx, htail⟩ := htail
    obtain ⟨second, hsecond, hstep⟩ := utf8Continue_cons y [z] first (by omega)
    rw [hstep, Option.ite_none_right_eq_some] at htail
    obtain ⟨hy, htail⟩ := htail
    obtain ⟨third, hthird, hstep⟩ := utf8Continue_cons z [] second (by omega)
    rw [hstep, utf8Continue, Option.ite_none_right_eq_some, Option.some_inj] at htail
    obtain ⟨hz, rfl⟩ := htail
    apply Encodes.four <;> omega

/-- The scan accepts every encoding of more than one byte. -/
theorem accepted_of_encodes {c : Char} {byte : UInt8} {tail : List UInt8} (h : Encodes c (byte :: tail))
    (hlead : ¬ byte < 0x80) :
    ∃ lead codePoint, utf8Lead byte = some (tail.length, lead) ∧ utf8Continue tail lead = some codePoint ∧
      utf8InRange tail.length codePoint = true := by
  have hbound := toNat_lt c
  have hscalar : c.toNat < 0xD800 ∨ 0xDFFF < c.toNat := by
    rcases c.valid with hlow | ⟨hhigh, -⟩
    · exact .inl hlow
    · exact .inr hhigh
  rw [UInt8.lt_iff_toNat_lt] at hlead
  simp only [UInt8.reduceToNat] at hlead
  have hof : ∀ n, n < 256 → (UInt32.ofNat n).toNat = n := by
    intro n hn
    rw [UInt32.toNat_ofNat', Nat.mod_eq_of_lt (by omega)]
  simp only [utf8InRange, Bool.and_eq_true, Bool.not_eq_true', decide_eq_false_iff_not, UInt32.lt_iff_toNat_lt,
    UInt32.le_iff_toNat_le, UInt32.reduceToNat]
  cases h with
  | one hrange hb => omega
  | @two _ x hlow hhigh hb hx =>
    have hlead := hof (byte.toNat - 0xC0) (by omega)
    obtain ⟨first, hfirst, hstep⟩ := utf8Continue_cons x [] (UInt32.ofNat _) (lt_of_eq_of_lt hlead (by omega))
    refine ⟨_, first, utf8Lead_eq_some.mpr (.inl ⟨rfl, by omega, by omega, hlead⟩), ?_, ?_⟩
    · rw [hstep, if_pos (by omega)]
      rfl
    · simp only [List.length_singleton]
      omega
  | @three _ x y hlow hhigh hb hx hy =>
    have hlead := hof (byte.toNat - 0xE0) (by omega)
    obtain ⟨first, hfirst, hstep⟩ := utf8Continue_cons x [y] (UInt32.ofNat _) (lt_of_eq_of_lt hlead (by omega))
    obtain ⟨second, hsecond, hnext⟩ := utf8Continue_cons y [] first (by omega)
    refine ⟨_, second, utf8Lead_eq_some.mpr (.inr (.inl ⟨rfl, by omega, by omega, hlead⟩)), ?_, ?_⟩
    · rw [hstep, if_pos (by omega), hnext, if_pos (by omega)]
      rfl
    · simp only [List.length_cons, List.length_nil]
      omega
  | @four _ x y z hlow hb hx hy hz =>
    have hlead := hof (byte.toNat - 0xF0) (by omega)
    obtain ⟨first, hfirst, hstep⟩ := utf8Continue_cons x [y, z] (UInt32.ofNat _) (lt_of_eq_of_lt hlead (by omega))
    obtain ⟨second, hsecond, hnext⟩ := utf8Continue_cons y [z] first (by omega)
    obtain ⟨third, hthird, hlast⟩ := utf8Continue_cons z [] second (by omega)
    refine ⟨_, third, utf8Lead_eq_some.mpr (.inr (.inr ⟨rfl, by omega, by omega, hlead⟩)), ?_, ?_⟩
    · rw [hstep, if_pos (by omega), hnext, if_pos (by omega), hlast, if_pos (by omega)]
      rfl
    · simp only [List.length_cons, List.length_nil]
      omega

/-! ### The whole scan -/

/-- With fuel for every byte left, the scan decides whether they are well-formed. -/
theorem validUtf8Loop_iff {fuel : Nat} {bytes : List UInt8} (hfuel : bytes.length ≤ fuel) :
    validUtf8Loop fuel bytes = true ↔ WellFormed bytes := by
  induction fuel generalizing bytes with
  | zero =>
    rw [List.length_eq_zero_iff.mp (by omega : bytes.length = 0)]
    simp [validUtf8Loop, wellFormed_nil]
  | succ fuel ih =>
    cases bytes with
    | nil => simp [validUtf8Loop, wellFormed_nil]
    | cons byte rest =>
      rw [List.length_cons] at hfuel
      constructor
      · intro h
        rw [validUtf8Loop] at h
        split at h
        next hascii =>
          have hencodes : Encodes (Char.ofUInt8 byte) [byte] := by
            have hvalue : (Char.ofUInt8 byte).toNat = byte.toNat := UInt8.toNat_toUInt32 byte
            rw [UInt8.lt_iff_toNat_lt] at hascii
            simp only [UInt8.reduceToNat] at hascii
            exact .one (by omega) hvalue.symm
          exact wellFormed_encodes_append hencodes ((ih (by omega)).mp h)
        next hlead =>
          split at h
          next => cases h
          next extra lead hbits =>
            split at h
            next => cases h
            next henough =>
              split at h
              next => cases h
              next codePoint hcontinue =>
                rw [Bool.and_eq_true] at h
                obtain ⟨hrange, hrest⟩ := h
                have hlength : (rest.take extra).length = extra := List.length_take_of_le (by omega)
                rw [← hlength] at hbits hrange
                obtain ⟨c, hencodes⟩ := encodes_of_accepted hbits hcontinue hrange
                have hwell := (ih (by rw [List.length_drop]; omega)).mp hrest
                have hjoin := wellFormed_encodes_append hencodes hwell
                rw [List.cons_append, List.take_append_drop] at hjoin
                exact hjoin
      · intro h
        obtain ⟨c, first, remaining, hencodes, hwell, hsplit⟩ := h.uncons
        cases first with
        | nil => cases hencodes
        | cons lead tail =>
          rw [List.cons_append, List.cons.injEq] at hsplit
          obtain ⟨rfl, rfl⟩ := hsplit
          rw [List.length_append] at hfuel
          have hrest := (ih (by omega)).mpr hwell
          rw [validUtf8Loop]
          split
          next hascii =>
            have htail : tail = [] := by
              rw [UInt8.lt_iff_toNat_lt] at hascii
              simp only [UInt8.reduceToNat] at hascii
              cases hencodes with
              | one hrange hb => rfl
              | two hlow hhigh hb hx => omega
              | three hlow hhigh hb hx hy => omega
              | four hlow hb hx hy hz => omega
            rw [htail]
            exact hrest
          next hlead =>
            obtain ⟨bits, codePoint, hbits, hcontinue, hrange⟩ := accepted_of_encodes hencodes hlead
            rw [hbits]
            simp only [List.length_append, List.take_left, List.drop_left, hcontinue, hrange, hrest, Bool.and_self]
            rw [if_neg (by omega)]

/-- `valid_utf8` accepts exactly the concatenations of encodings of scalar values. -/
theorem validUtf8_iff {text : Text} : validUtf8 text = true ↔ WellFormed text.bytes := validUtf8Loop_iff le_rfl

/-! ### The scan by index -/

/-- Reads `extra` continuation bytes from `index` on; the outer `none` is a read past the end. -/
def continueAt (text : Text) (index : Nat) : Nat → UInt32 → Option (Option UInt32)
  | 0, codePoint => some (some codePoint)
  | extra + 1, codePoint => do
    let continuation ← text.bytes[index]?
    if continuation &&& 0xC0 = 0x80 then
      continueAt text (index + 1) extra ((codePoint <<< 6) ||| (continuation &&& 0x3F).toUInt32)
    else some none

/-- The loop of `valid_utf8` from `index` on, every byte read by its index; `none` is a read past the end. -/
def validUtf8At (text : Text) (index : Nat) : Option Bool :=
  if index < text.size then do
    let byte ← text.bytes[index]?
    if byte < 0x80 then validUtf8At text (index + 1)
    else match utf8Lead byte with
      | none => some false
      | some (extra, lead) =>
        if index + extra ≥ text.size then some false
        else match ← continueAt text (index + 1) extra lead with
          | none => some false
          | some codePoint =>
            if utf8InRange extra codePoint then validUtf8At text (index + extra + 1) else some false
  else some true
termination_by text.size - index

/-- Within the text, reading by index reads the list of continuation bytes. -/
theorem continueAt_eq {text : Text} {index extra : Nat} {codePoint : UInt32} (hin : index + extra ≤ text.size) :
    continueAt text index extra codePoint = some (utf8Continue ((text.bytes.drop index).take extra) codePoint) := by
  induction extra generalizing index codePoint with
  | zero => simp [continueAt, utf8Continue]
  | succ extra ih =>
    have hindex : index < text.bytes.length := by
      change index < text.size
      omega
    rw [continueAt, List.getElem?_eq_getElem hindex, List.drop_eq_getElem_cons hindex, List.take_succ_cons,
      Option.bind_eq_bind, Option.bind_some, utf8Continue]
    split
    · exact ih (by omega)
    · rfl

/-- The loop reads only bytes of the text, and answers what the scan of the remaining bytes answers. -/
theorem validUtf8At_eq {text : Text} {index : Nat} (fuel : Nat) (hfuel : text.size - index ≤ fuel) :
    validUtf8At text index = some (validUtf8Loop fuel (text.bytes.drop index)) := by
  have hlength : (text.bytes.drop index).length = text.size - index := List.length_drop
  induction fuel generalizing index with
  | zero =>
    rw [List.length_eq_zero_iff.mp (by omega : (text.bytes.drop index).length = 0), validUtf8At, if_neg (by omega)]
    rfl
  | succ fuel ih =>
    rw [validUtf8At]
    split
    next hindex =>
      have hnext (extra : Nat) (hextra : index + extra < text.size) :
          validUtf8At text (index + extra + 1) =
            some (validUtf8Loop fuel (text.bytes.drop (index + extra + 1))) := ih (by omega) List.length_drop
      rw [List.getElem?_eq_getElem hindex, List.drop_eq_getElem_cons hindex, Option.bind_eq_bind, Option.bind_some,
        validUtf8Loop]
      split
      next => exact hnext 0 hindex
      next hlead =>
        cases hbits : utf8Lead text.bytes[index] with
        | none => rfl
        | some bits =>
          obtain ⟨extra, lead⟩ := bits
          rw [List.length_drop]
          change (if index + extra ≥ text.size then _ else _) =
            some (if text.size - (index + 1) < extra then _ else _)
          by_cases henough : text.size - (index + 1) < extra
          · rw [if_pos henough, if_pos (by omega)]
          · rw [if_neg henough, if_neg (by omega), continueAt_eq (by omega), Option.bind_eq_bind, Option.bind_some]
            cases hcontinue : utf8Continue ((text.bytes.drop (index + 1)).take extra) lead with
            | none => rfl
            | some codePoint =>
              change (if utf8InRange extra codePoint = true then _ else _) =
                some (utf8InRange extra codePoint && _)
              rw [hnext extra (by omega), List.drop_drop, Nat.add_right_comm index 1 extra]
              by_cases hrange : utf8InRange extra codePoint = true
              · rw [if_pos hrange]
                simp only [hrange, Bool.true_and]
              · rw [if_neg hrange]
                simp only [hrange, Bool.false_and]
    next hindex =>
      rw [List.length_eq_zero_iff.mp (by omega : (text.bytes.drop index).length = 0), validUtf8Loop]

/-- The scan by index ends, reads no byte past the end, and its answer decides well-formed UTF-8. -/
theorem valid_utf8_decides (text : Text) :
    ∃ answer, validUtf8At text 0 = some answer ∧ answer = validUtf8 text ∧
      (answer = true ↔ WellFormed text.bytes) := by
  refine ⟨validUtf8 text, ?_, rfl, validUtf8_iff⟩
  exact validUtf8At_eq text.bytes.length (Nat.sub_le _ _)

/-! ### The text check -/

theorem containsControlChars_iff {codePoints : List Char} {text : Text} (htext : encode codePoints = text.bytes) :
    containsControlChars text = true ↔ (∃ c ∈ codePoints, IsControl c) ∨ ∃ b ∈ text.bytes, IsC1Byte b := by
  have hbytes : containsControlChars text = true ↔ ∃ b ∈ text.bytes, b < 0x20 ∨ b = 0x7F ∨ IsC1Byte b := by
    simp [containsControlChars, IsC1Byte, or_assoc]
  rw [hbytes, ← htext, encode]
  constructor
  · rintro ⟨b, hmem, hcontrol⟩
    obtain ⟨c, hc, hb⟩ := List.mem_flatMap.mp hmem
    rcases (encodes_utf8EncodeChar c).control_iff.mp ⟨b, hb, hcontrol⟩ with h | ⟨other, hother, h⟩
    · exact .inl ⟨c, hc, h⟩
    · exact .inr ⟨other, List.mem_flatMap.mpr ⟨c, hc, hother⟩, h⟩
  · rintro (⟨c, hc, h⟩ | ⟨b, hmem, h⟩)
    · obtain ⟨b, hb, hcontrol⟩ := (encodes_utf8EncodeChar c).control_iff.mpr (.inl h)
      exact ⟨b, List.mem_flatMap.mpr ⟨c, hc, hb⟩, hcontrol⟩
    · exact ⟨b, hmem, .inr (.inr h)⟩

/-- `text_problem` accepts the clean texts within the limit, less those with a byte of a C1 value. -/
theorem textProblem_eq_none {text field : Text} {maxLength : UInt32} :
    textProblem text maxLength field = none ↔
      (text.size ≤ maxLength.toNat ∧ Clean text.bytes) ∧ ∀ b ∈ text.bytes, ¬ IsC1Byte b := by
  simp only [textProblem]
  split
  next hlong =>
    simp only [reduceCtorEq, false_iff]
    omega
  next hlong =>
    split
    next hcontrol =>
      simp only [reduceCtorEq, false_iff]
      rintro ⟨⟨-, codePoints, htext, hclean⟩, hbytes⟩
      rcases (containsControlChars_iff htext).mp hcontrol with ⟨c, hc, h⟩ | ⟨b, hb, h⟩
      · exact hclean c hc h
      · exact hbytes b hb h
    next hcontrol =>
      split
      next hinvalid =>
        simp only [reduceCtorEq, false_iff]
        rintro ⟨⟨-, codePoints, htext, -⟩, -⟩
        rw [Bool.not_eq_true', ← Bool.not_eq_true] at hinvalid
        exact hinvalid (validUtf8_iff.mpr ⟨codePoints, htext⟩)
      next hvalid =>
        simp only [true_iff]
        rw [Bool.not_eq_true', Bool.not_eq_false] at hvalid
        obtain ⟨codePoints, htext⟩ := validUtf8_iff.mp hvalid
        rw [containsControlChars_iff htext, not_or] at hcontrol
        obtain ⟨hclean, hbytes⟩ := hcontrol
        refine ⟨⟨by omega, codePoints, htext, ?_⟩, ?_⟩
        · intro c hc h
          exact hclean ⟨c, hc, h⟩
        · intro b hb h
          exact hbytes ⟨b, hb, h⟩

/-- The check accepts exactly the clean texts within the limit wherever no clean text within the limit
has a continuation byte with the value of a C1 control code point. -/
theorem text_check_exact_iff (text field : Text) (maxLength : UInt32) :
    (textProblem text maxLength field = none ↔ text.size ≤ maxLength.toNat ∧ Clean text.bytes) ↔
      (text.size ≤ maxLength.toNat → Clean text.bytes → ∀ b ∈ text.bytes, ¬ IsC1Byte b) := by
  rw [textProblem_eq_none]
  tauto

/-- "À" is clean and one of its two bytes has a C1 value. -/
theorem not_text_check_exact :
    ¬ ∀ (text field : Text) (maxLength : UInt32),
      textProblem text maxLength field = none ↔ text.size ≤ maxLength.toNat ∧ Clean text.bytes := by
  intro h
  have hclean : Clean [0xC3, 0x80] := ⟨['À'], by decide +kernel, by simp [IsControl]⟩
  have haccepted := (h ⟨[0xC3, 0x80]⟩ "detail" 256).mpr ⟨by decide, hclean⟩
  exact absurd haccepted (by decide)

end AgentScheduler
