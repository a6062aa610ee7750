import AgentScheduler.Utf8

/-! JSON texts: what a text denotes by the grammar, and that it denotes one value only. -/
namespace Json

/-- A JSON value; members keep their order and repetitions. -/
inductive Value
  | null
  | boolean (b : Bool)
  | number (n : ℚ)
  | string (codePoints : List Char)
  | array (items : List Value)
  | object (members : List (List Char × Value))

/-! ### Grammar

Each relation goes from the text before a phrase to the text that remains after it. -/

def isSpace (c : Char) : Bool := c = ' ' || c = '\t' || c = '\n' || c = '\r'

inductive Spaces : List Char → List Char → Prop
  | done {rest} : Spaces rest rest
  | more {c text rest} (hspace : isSpace c = true) (htail : Spaces text rest) : Spaces (c :: text) rest

def digit? (c : Char) : Option Nat := if '0' ≤ c ∧ c ≤ '9' then some (c.toNat - '0'.toNat) else none

/-- One or more digits, with their value and their number. -/
inductive Digits : List Char → Nat → Nat → List Char → Prop
  | last {c d rest} (hdigit : digit? c = some d) : Digits (c :: rest) d 1 rest
  | more {c d text n count rest} (hdigit : digit? c = some d) (htail : Digits text n count rest) :
    Digits (c :: text) (d * 10 ^ count + n) (count + 1) rest

/-- The integer part: no leading zero but the number zero itself. -/
inductive Whole : List Char → Nat → List Char → Prop
  | zero {rest} : Whole ('0' :: rest) 0 rest
  | digits {c text n count rest} (hfirst : c ≠ '0') (hdigits : Digits (c :: text) n count rest) :
    Whole (c :: text) n rest

inductive Fraction : List Char → ℚ → List Char → Prop
  | absent {rest} : Fraction rest 0 rest
  | present {text n count rest} (hdigits : Digits text n count rest) :
    Fraction ('.' :: text) ((n : ℚ) / 10 ^ count) rest

inductive Exponent : List Char → ℤ → List Char → Prop
  | absent {rest} : Exponent rest 0 rest
  | unsigned {c text n count rest} (hmark : c = 'e' ∨ c = 'E') (hdigits : Digits text n count rest) :
    Exponent (c :: text) n rest
  | positive {c text n count rest} (hmark : c = 'e' ∨ c = 'E') (hdigits : Digits text n count rest) :
    Exponent (c :: '+' :: text) n rest
  | negative {c text n count rest} (hmark : c = 'e' ∨ c = 'E') (hdigits : Digits text n count rest) :
    Exponent (c :: '-' :: text) (-n) rest

inductive Magnitude : List Char → ℚ → List Char → Prop
  | mk {text n afterWhole f afterFraction e rest} (hwhole : Whole text n afterWhole)
    (hfraction : Fraction afterWhole f afterFraction) (hexponent : Exponent afterFraction e rest) :
    Magnitude text ((n + f) * 10 ^ e) rest

inductive Number : List Char → ℚ → List Char → Prop
  | positive {text q rest} (hmagnitude : Magnitude text q rest) : Number text q rest
  | negative {text q rest} (hmagnitude : Magnitude text q rest) : Number ('-' :: text) (-q) rest

def hexDigit? (c : Char) : Option Nat :=
  if '0' ≤ c ∧ c ≤ '9' then some (c.toNat - '0'.toNat)
  else if 'a' ≤ c ∧ c ≤ 'f' then some (c.toNat - 'a'.toNat + 10)
  else if 'A' ≤ c ∧ c ≤ 'F' then some (c.toNat - 'A'.toNat + 10)
  else none

/-- The four hexadecimal digits of a UTF-16 code unit. -/
def codeUnit? : List Char → Option (Nat × List Char)
  | a :: b :: c :: d :: rest => do
    let a ← hexDigit? a
    let b ← hexDigit? b
    let c ← hexDigit? c
    let d ← hexDigit? d
    some (a * 4096 + b * 256 + c * 16 + d, rest)
  | _ => none

/-- The characters that stand for themselves inside a string. -/
def isPlain (c : Char) : Bool := ' ' ≤ c && c ≠ '"' && c ≠ '\\'

def escape? (c : Char) : Option Char :=
  if c = '"' then some '"'
  else if c = '\\' then some '\\'
  else if c = '/' then some '/'
  else if c = 'b' then some '\x08'
  else if c = 'f' then some '\x0c'
  else if c = 'n' then some '\n'
  else if c = 'r' then some '\r'
  else if c = 't' then some '\t'
  else none

/-- The rest of a string after its opening quote, with the code points it denotes. -/
inductive Characters : List Char → List Char → List Char → Prop
  | close {rest} : Characters ('"' :: rest) [] rest
  | plain {c text s rest} (hplain : isPlain c = true) (htail : Characters text s rest) :
    Characters (c :: text) (c :: s) rest
  | escaped {c e text s rest} (hescape : escape? c = some e) (htail : Characters text s rest) :
    Characters ('\\' :: c :: text) (e :: s) rest
  | unit {text n after s rest} (hunit : codeUnit? text = some (n, after)) (hscalar : n.isValidChar)
    (htail : Characters after s rest) : Characters ('\\' :: 'u' :: text) (Char.ofNat n :: s) rest
  | pair {text high middle low after s rest} (hhigh : codeUnit? text = some (high, '\\' :: 'u' :: middle))
    (hlow : codeUnit? middle = some (low, after)) (hhighRange : 0xD800 ≤ high ∧ high < 0xDC00)
    (hlowRange : 0xDC00 ≤ low ∧ low < 0xE000) (htail : Characters after s rest) :
    Characters ('\\' :: 'u' :: text) (Char.ofNat (0x10000 + (high - 0xD800) * 0x400 + (low - 0xDC00)) :: s) rest

/-- What a phrase denotes: a value, or what stands between the brackets of an array or an object. -/
inductive Phrase
  | value (v : Value)
  | items (vs : List Value)
  | members (ms : List (List Char × Value))

inductive Derives : List Char → Phrase → List Char → Prop
  | nullLiteral {rest} : Derives ('n' :: 'u' :: 'l' :: 'l' :: rest) (.value .null) rest
  | falseLiteral {rest} : Derives ('f' :: 'a' :: 'l' :: 's' :: 'e' :: rest) (.value (.boolean false)) rest
  | trueLiteral {rest} : Derives ('t' :: 'r' :: 'u' :: 'e' :: rest) (.value (.boolean true)) rest
  | number {text n rest} (hnumber : Number text n rest) : Derives text (.value (.number n)) rest
  | string {text s rest} (hstring : Characters text s rest) : Derives ('"' :: text) (.value (.string s)) rest
  | emptyArray {text rest} (hspaces : Spaces text (']' :: rest)) : Derives ('[' :: text) (.value (.array [])) rest
  | array {text inner vs rest} (hspaces : Spaces text inner) (hitems : Derives inner (.items vs) rest) :
    Derives ('[' :: text) (.value (.array vs)) rest
  | emptyObject {text rest} (hspaces : Spaces text ('}' :: rest)) : Derives ('{' :: text) (.value (.object [])) rest
  | object {text inner ms rest} (hspaces : Spaces text inner) (hmembers : Derives inner (.members ms) rest) :
    Derives ('{' :: text) (.value (.object ms)) rest
  | lastItem {text v after rest} (hvalue : Derives text (.value v) after) (hclose : Spaces after (']' :: rest)) :
    Derives text (.items [v]) rest
  | item {text v after next inner vs rest} (hvalue : Derives text (.value v) after)
    (hcomma : Spaces after (',' :: next)) (hspaces : Spaces next inner) (hitems : Derives inner (.items vs) rest) :
    Derives text (.items (v :: vs)) rest
  | lastMember {text name colon next inner v after rest} (hname : Characters text name colon)
    (hcolon : Spaces colon (':' :: next)) (hspaces : Spaces next inner) (hvalue : Derives inner (.value v) after)
    (hclose : Spaces after ('}' :: rest)) : Derives ('"' :: text) (.members [(name, v)]) rest
  | member {text name colon next inner v after following start ms rest} (hname : Characters text name colon)
    (hcolon : Spaces colon (':' :: next)) (hspaces : Spaces next inner) (hvalue : Derives inner (.value v) after)
    (hcomma : Spaces after (',' :: following)) (hstart : Spaces following start)
    (hmembers : Derives start (.members ms) rest) : Derives ('"' :: text) (.members ((name, v) :: ms)) rest

/-- The texts of a value: the value with spaces around it. -/
def Denotes (text : List Char) (v : Value) : Prop :=
  ∃ start after, Spaces text start ∧ Derives start (.value v) after ∧ Spaces after []

/-! ### What may follow -/

/-- No text that goes on so extends a number. -/
def Follows (rest : List Char) : Prop :=
  ∀ c tail, rest = c :: tail → digit? c = none ∧ c ≠ '.' ∧ c ≠ 'e' ∧ c ≠ 'E'

def NoDigit (rest : List Char) : Prop := ∀ c tail, rest = c :: tail → digit? c = none

theorem follows_nil : Follows [] := by
  intro c tail h
  cases h

theorem digit?_of_isSpace {c : Char} (h : isSpace c = true) : digit? c = none ∧ c ≠ '.' ∧ c ≠ 'e' ∧ c ≠ 'E' := by
  simp only [isSpace, Bool.or_eq_true, decide_eq_true_eq] at h
  rcases h with ((rfl | rfl) | rfl) | rfl <;> decide

theorem Spaces.follows {text rest : List Char} (h : Spaces text rest) (hrest : Follows rest) : Follows text := by
  cases h with
  | done => exact hrest
  | more hspace htail =>
    intro c tail heq
    cases heq
    exact digit?_of_isSpace hspace

theorem follows_cons {c : Char} {rest : List Char} (h : c = ',' ∨ c = ']' ∨ c = '}') : Follows (c :: rest) := by
  intro c tail heq
  cases heq
  rcases h with rfl | rfl | rfl <;> decide

/-- Spaces end where the first other character stands. -/
theorem Spaces.unique {text left right : List Char} (hleft : Spaces text left) (hright : Spaces text right)
    (hstopLeft : ∀ c tail, left = c :: tail → isSpace c = false)
    (hstopRight : ∀ c tail, right = c :: tail → isSpace c = false) : left = right := by
  induction hleft with
  | done =>
    cases hright with
    | done => rfl
    | more hspace htail => exact absurd hspace (by simp [hstopLeft _ _ rfl])
  | more hspace htail ih =>
    cases hright with
    | done => exact absurd hspace (by simp [hstopRight _ _ rfl])
    | more _ hright => exact ih hright hstopLeft

/-! ### Numbers read one way -/

theorem Digits.head {text rest : List Char} {n count : Nat} (h : Digits text n count rest) :
    ∃ c tail d, text = c :: tail ∧ digit? c = some d := by
  cases h with
  | last hdigit => exact ⟨_, _, _, rfl, hdigit⟩
  | more hdigit htail => exact ⟨_, _, _, rfl, hdigit⟩

theorem Digits.not_of_noDigit {text rest : List Char} {n count : Nat} (h : Digits text n count rest) :
    ¬ NoDigit text := by
  intro hstop
  obtain ⟨c, tail, d, rfl, hdigit⟩ := h.head
  rw [hstop c tail rfl] at hdigit
  cases hdigit

theorem Digits.unique {text left right : List Char} {n m count total : Nat} (hleft : Digits text n count left)
    (hright : Digits text m total right) (hstopLeft : NoDigit left) (hstopRight : NoDigit right) :
    n = m ∧ count = total ∧ left = right := by
  induction hleft generalizing m total with
  | last hdigit =>
    cases hright with
    | last hother =>
      rw [hdigit, Option.some_inj] at hother
      exact ⟨hother, rfl, rfl⟩
    | more hother htail => exact absurd hstopLeft htail.not_of_noDigit
  | more hdigit htail ih =>
    cases hright with
    | last hother => exact absurd hstopRight htail.not_of_noDigit
    | more hother hright =>
      rw [hdigit, Option.some_inj] at hother
      obtain ⟨rfl, rfl, rfl⟩ := ih hright hstopLeft
      rw [hother]
      exact ⟨rfl, rfl, rfl⟩

theorem Whole.unique {text left right : List Char} {n m : Nat} (hleft : Whole text n left)
    (hright : Whole text m right) (hstopLeft : NoDigit left) (hstopRight : NoDigit right) : n = m ∧ left = right := by
  cases hleft with
  | zero =>
    cases hright with
    | zero => exact ⟨rfl, rfl⟩
    | digits hfirst hdigits => exact absurd rfl hfirst
  | digits hfirst hdigits =>
    cases hright with
    | zero => exact absurd rfl hfirst
    | digits _ hother =>
      obtain ⟨hvalue, -, hrest⟩ := hdigits.unique hother hstopLeft hstopRight
      exact ⟨hvalue, hrest⟩

/-- No text that goes on so extends a number without exponent. -/
def NoFraction (rest : List Char) : Prop := ∀ c tail, rest = c :: tail → digit? c = none ∧ c ≠ '.'

theorem NoFraction.noDigit {rest : List Char} (h : NoFraction rest) : NoDigit rest :=
  fun c tail heq => (h c tail heq).1

theorem Follows.noFraction {rest : List Char} (h : Follows rest) : NoFraction rest :=
  fun c tail heq => ⟨(h c tail heq).1, (h c tail heq).2.1⟩

theorem noFraction_mark {c : Char} {rest : List Char} (h : c = 'e' ∨ c = 'E') : NoFraction (c :: rest) := by
  intro c tail heq
  cases heq
  rcases h with rfl | rfl <;> decide

theorem Exponent.noFraction {text rest : List Char} {e : ℤ} (h : Exponent text e rest) (hrest : Follows rest) :
    NoFraction text := by
  cases h with
  | absent => exact hrest.noFraction
  | unsigned hmark hdigits => exact noFraction_mark hmark
  | positive hmark hdigits => exact noFraction_mark hmark
  | negative hmark hdigits => exact noFraction_mark hmark

theorem Fraction.noDigit {text rest : List Char} {f : ℚ} (h : Fraction text f rest) (hrest : NoFraction rest) :
    NoDigit text := by
  cases h with
  | absent => exact hrest.noDigit
  | present hdigits =>
    intro c tail heq
    cases heq
    decide

theorem Fraction.unique {text left right : List Char} {f g : ℚ} (hleft : Fraction text f left)
    (hright : Fraction text g right) (hstopLeft : NoFraction left) (hstopRight : NoFraction right) :
    f = g ∧ left = right := by
  cases hleft with
  | absent =>
    cases hright with
    | absent => exact ⟨rfl, rfl⟩
    | present hdigits => exact absurd rfl (hstopLeft _ _ rfl).2
  | present hdigits =>
    cases hright with
    | absent => exact absurd rfl (hstopRight _ _ rfl).2
    | present hother =>
      obtain ⟨rfl, rfl, rfl⟩ := hdigits.unique hother hstopLeft.noDigit hstopRight.noDigit
      exact ⟨rfl, rfl⟩

theorem Follows.not_mark {c : Char} {rest : List Char} (h : Follows (c :: rest)) : ¬ (c = 'e' ∨ c = 'E') := by
  obtain ⟨-, -, hlower, hupper⟩ := h c rest rfl
  rintro (rfl | rfl)
  · exact hlower rfl
  · exact hupper rfl

theorem not_digits_sign {c : Char} {text rest : List Char} {n count : Nat} (h : c = '+' ∨ c = '-') :
    ¬ Digits (c :: text) n count rest := by
  intro hdigits
  apply hdigits.not_of_noDigit
  intro c tail heq
  cases heq
  rcases h with rfl | rfl <;> decide

theorem Exponent.unique {text left right : List Char} {e f : ℤ} (hleft : Exponent text e left)
    (hright : Exponent text f right) (hstopLeft : Follows left) (hstopRight : Follows right) :
    e = f ∧ left = right := by
  have hdigitLeft := hstopLeft.noFraction.noDigit
  have hdigitRight := hstopRight.noFraction.noDigit
  cases hleft with
  | absent =>
    cases hright with
    | absent => exact ⟨rfl, rfl⟩
    | unsigned hmark hdigits => exact absurd hmark hstopLeft.not_mark
    | positive hmark hdigits => exact absurd hmark hstopLeft.not_mark
    | negative hmark hdigits => exact absurd hmark hstopLeft.not_mark
  | unsigned hmark hdigits =>
    cases hright with
    | absent => exact absurd hmark hstopRight.not_mark
    | unsigned _ hother =>
      obtain ⟨rfl, -, rfl⟩ := hdigits.unique hother hdigitLeft hdigitRight
      exact ⟨rfl, rfl⟩
    | positive _ hother => exact absurd hdigits (not_digits_sign (.inl rfl))
    | negative _ hother => exact absurd hdigits (not_digits_sign (.inr rfl))
  | positive hmark hdigits =>
    cases hright with
    | absent => exact absurd hmark hstopRight.not_mark
    | unsigned _ hother => exact absurd hother (not_digits_sign (.inl rfl))
    | positive _ hother =>
      obtain ⟨rfl, -, rfl⟩ := hdigits.unique hother hdigitLeft hdigitRight
      exact ⟨rfl, rfl⟩
  | negative hmark hdigits =>
    cases hright with
    | absent => exact absurd hmark hstopRight.not_mark
    | unsigned _ hother => exact absurd hother (not_digits_sign (.inr rfl))
    | negative _ hother =>
      obtain ⟨rfl, -, rfl⟩ := hdigits.unique hother hdigitLeft hdigitRight
      exact ⟨rfl, rfl⟩

theorem Magnitude.unique {text left right : List Char} {q r : ℚ} (hleft : Magnitude text q left)
    (hright : Magnitude text r right) (hstopLeft : Follows left) (hstopRight : Follows right) :
    q = r ∧ left = right := by
  obtain ⟨hwholeLeft, hfractionLeft, hexponentLeft⟩ := hleft
  obtain ⟨hwholeRight, hfractionRight, hexponentRight⟩ := hright
  have hmiddleLeft := hexponentLeft.noFraction hstopLeft
  have hmiddleRight := hexponentRight.noFraction hstopRight
  obtain ⟨rfl, rfl⟩ := hwholeLeft.unique hwholeRight (hfractionLeft.noDigit hmiddleLeft)
    (hfractionRight.noDigit hmiddleRight)
  obtain ⟨rfl, rfl⟩ := hfractionLeft.unique hfractionRight hmiddleLeft hmiddleRight
  obtain ⟨rfl, rfl⟩ := hexponentLeft.unique hexponentRight hstopLeft hstopRight
  exact ⟨rfl, rfl⟩

theorem Magnitude.head {text rest : List Char} {q : ℚ} (h : Magnitude text q rest) :
    ∃ c tail d, text = c :: tail ∧ digit? c = some d := by
  obtain ⟨hwhole, -, -⟩ := h
  cases hwhole with
  | zero => exact ⟨_, _, 0, rfl, by decide⟩
  | digits hfirst hdigits => exact hdigits.head

theorem not_magnitude_minus {text rest : List Char} {q : ℚ} : ¬ Magnitude ('-' :: text) q rest := by
  intro h
  obtain ⟨c, tail, d, heq, hdigit⟩ := h.head
  cases heq
  have hminus : digit? '-' = none := by decide
  rw [hminus] at hdigit
  cases hdigit

theorem Number.unique {text left right : List Char} {q r : ℚ} (hleft : Number text q left)
    (hright : Number text r right) (hstopLeft : Follows left) (hstopRight : Follows right) :
    q = r ∧ left = right := by
  cases hleft with
  | positive hmagnitude =>
    cases hright with
    | positive hother => exact hmagnitude.unique hother hstopLeft hstopRight
    | negative hother => exact absurd hmagnitude not_magnitude_minus
  | negative hmagnitude =>
    cases hright with
    | positive hother => exact absurd hother not_magnitude_minus
    | negative hother =>
      obtain ⟨rfl, rfl⟩ := hmagnitude.unique hother hstopLeft hstopRight
      exact ⟨rfl, rfl⟩

/-- A number starts with a digit or a minus sign. -/
theorem Number.head {text rest : List Char} {q : ℚ} (h : Number text q rest) :
    ∃ c tail, text = c :: tail ∧ (c = '-' ∨ (digit? c).isSome) := by
  cases h with
  | positive hmagnitude =>
    obtain ⟨c, tail, d, rfl, hdigit⟩ := hmagnitude.head
    exact ⟨c, tail, rfl, .inr (by rw [hdigit]; rfl)⟩
  | negative hmagnitude => exact ⟨_, _, rfl, .inl rfl⟩

theorem not_number {c : Char} {text rest : List Char} {q : ℚ} (hminus : c ≠ '-') (hdigit : digit? c = none) :
    ¬ Number (c :: text) q rest := by
  intro h
  obtain ⟨c, tail, heq, hhead⟩ := h.head
  cases heq
  rcases hhead with hhead | hhead
  · exact hminus hhead
  · rw [hdigit] at hhead
    cases hhead

/-! ### Strings read one way -/

theorem isPlain_quote : isPlain '"' = false := by decide

theorem isPlain_backslash : isPlain '\\' = false := by decide

theorem escape?_unit : escape? 'u' = none := by decide

theorem Characters.unique {text s t left right : List Char} (hleft : Characters text s left)
    (hright : Characters text t right) : s = t ∧ left = right := by
  induction hleft generalizing t with
  | close =>
    cases hright with
    | close => exact ⟨rfl, rfl⟩
    | plain hplain _ => exact absurd hplain (by simp [isPlain_quote])
  | plain hplain _ ih =>
    cases hright with
    | close => exact absurd hplain (by simp [isPlain_quote])
    | plain _ hother =>
      obtain ⟨rfl, rfl⟩ := ih hother
      exact ⟨rfl, rfl⟩
    | escaped _ _ => exact absurd hplain (by simp [isPlain_backslash])
    | unit _ _ _ => exact absurd hplain (by simp [isPlain_backslash])
    | pair _ _ _ _ _ => exact absurd hplain (by simp [isPlain_backslash])
  | escaped hescape _ ih =>
    cases hright with
    | plain hplain _ => exact absurd hplain (by simp [isPlain_backslash])
    | escaped hsame hother =>
      rw [hescape, Option.some_inj] at hsame
      obtain ⟨rfl, rfl⟩ := ih hother
      exact ⟨by rw [hsame], rfl⟩
    | unit _ _ _ => exact absurd hescape (by simp [escape?_unit])
    | pair _ _ _ _ _ => exact absurd hescape (by simp [escape?_unit])
  | unit hunit hscalar _ ih =>
    cases hright with
    | plain hplain _ => exact absurd hplain (by simp [isPlain_backslash])
    | escaped hescape _ => exact absurd hescape (by simp [escape?_unit])
    | unit hsame _ hother =>
      rw [hunit, Option.some_inj, Prod.mk.injEq] at hsame
      obtain ⟨rfl, rfl⟩ := hsame
      obtain ⟨rfl, rfl⟩ := ih hother
      exact ⟨rfl, rfl⟩
    | pair hhigh hlow hrange _ _ =>
      -- a code unit that starts a pair is no scalar value
      rw [hunit, Option.some_inj, Prod.mk.injEq] at hhigh
      obtain ⟨rfl, rfl⟩ := hhigh
      simp only [Nat.isValidChar] at hscalar
      omega
  | pair hhigh hlow hrange _ _ ih =>
    cases hright with
    | plain hplain _ => exact absurd hplain (by simp [isPlain_backslash])
    | escaped hescape _ => exact absurd hescape (by simp [escape?_unit])
    | unit hunit hscalar _ =>
      rw [hhigh, Option.some_inj, Prod.mk.injEq] at hunit
      obtain ⟨rfl, rfl⟩ := hunit
      simp only [Nat.isValidChar] at hscalar
      omega
    | pair hsame hlowSame _ _ hother =>
      rw [hhigh, Option.some_inj, Prod.mk.injEq] at hsame
      obtain ⟨rfl, hmiddle⟩ := hsame
      cases hmiddle
      rw [hlow, Option.some_inj, Prod.mk.injEq] at hlowSame
      obtain ⟨rfl, rfl⟩ := hlowSame
      obtain ⟨rfl, rfl⟩ := ih hother
      exact ⟨rfl, rfl⟩

/-! ### Values read one way -/

/-- The three kinds of phrases. -/
def Phrase.SameKind : Phrase → Phrase → Prop
  | .value _, .value _ => True
  | .items _, .items _ => True
  | .members _, .members _ => True
  | _, _ => False

/-- No space and no closing bracket, so a phrase starts where the spaces before it end. -/
def isStart (c : Char) : Bool := !isSpace c && c ≠ ']' && c ≠ '}'

theorem isStart_of_digit {c : Char} (h : (digit? c).isSome) : isStart c = true := by
  simp only [digit?, Option.isSome_ite, Char.le_def, UInt32.le_iff_toNat_le] at h
  simp only [isStart, isSpace, Bool.and_eq_true, Bool.not_eq_true', Bool.or_eq_false_iff, decide_eq_false_iff_not,
    decide_eq_true_eq]
  obtain ⟨hlow, hhigh⟩ := h
  refine ⟨⟨⟨⟨⟨?_, ?_⟩, ?_⟩, ?_⟩, ?_⟩, ?_⟩ <;>
    (rintro rfl; revert hlow hhigh; decide)

theorem Derives.head {text rest : List Char} {p : Phrase} (h : Derives text p rest) :
    ∃ c tail, text = c :: tail ∧ isStart c = true := by
  induction h with
  | nullLiteral => exact ⟨_, _, rfl, by decide⟩
  | falseLiteral => exact ⟨_, _, rfl, by decide⟩
  | trueLiteral => exact ⟨_, _, rfl, by decide⟩
  | number hnumber =>
    obtain ⟨c, tail, rfl, hhead⟩ := hnumber.head
    refine ⟨c, tail, rfl, ?_⟩
    rcases hhead with rfl | hdigit
    · decide
    · exact isStart_of_digit hdigit
  | string hstring => exact ⟨_, _, rfl, by decide⟩
  | emptyArray hspaces => exact ⟨_, _, rfl, by decide⟩
  | array hspaces hitems => exact ⟨_, _, rfl, by decide⟩
  | emptyObject hspaces => exact ⟨_, _, rfl, by decide⟩
  | object hspaces hmembers => exact ⟨_, _, rfl, by decide⟩
  | lastItem hvalue hclose ih => exact ih
  | item hvalue hcomma hspaces hitems ih => exact ih
  | lastMember hname hcolon hspaces hvalue hclose => exact ⟨_, _, rfl, by decide⟩
  | member hname hcolon hspaces hvalue hcomma hstart hmembers => exact ⟨_, _, rfl, by decide⟩

/-- Spaces before a phrase end where it starts, and no closing bracket stands there. -/
theorem Derives.spaces_unique {text left right rest : List Char} {p : Phrase} {q : Phrase} {other : List Char}
    (hleft : Derives left p rest) (hright : Derives right q other) (hspacesLeft : Spaces text left)
    (hspacesRight : Spaces text right) : left = right := by
  obtain ⟨c, tail, rfl, hstart⟩ := hleft.head
  obtain ⟨d, end', rfl, hother⟩ := hright.head
  simp only [isStart, Bool.and_eq_true, Bool.not_eq_true'] at hstart hother
  apply hspacesLeft.unique hspacesRight
  · intro c' tail' heq
    cases heq
    exact hstart.1.1
  · intro c' tail' heq
    cases heq
    exact hother.1.1

/-- Spaces lead to one of the marks that follow a phrase only. -/
theorem Spaces.mark_unique {text left right : List Char} {c d : Char} (hleft : Spaces text (c :: left))
    (hright : Spaces text (d :: right)) (hc : isSpace c = false) (hd : isSpace d = false) : c = d ∧ left = right := by
  have h := hleft.unique hright (fun _ _ heq => by cases heq; exact hc) (fun _ _ heq => by cases heq; exact hd)
  exact List.cons.inj h

theorem Derives.not_close {text inner left rest : List Char} {p : Phrase} {c : Char} (h : Derives inner p rest)
    (hspaces : Spaces text inner) (hclose : Spaces text (c :: left)) : ¬ (c = ']' ∨ c = '}') := by
  intro hmark
  obtain ⟨d, tail, rfl, hstart⟩ := h.head
  simp only [isStart, Bool.and_eq_true, Bool.not_eq_true', decide_eq_true_eq] at hstart
  obtain ⟨⟨hspace, hbracket⟩, hbrace⟩ := hstart
  have hc : isSpace c = false := by rcases hmark with rfl | rfl <;> decide
  obtain ⟨rfl, -⟩ := hspaces.mark_unique hclose hspace hc
  rcases hmark with h | h
  · exact hbracket h
  · exact hbrace h

/-- A phrase of one kind at the start of a text is read in one way, given that no number goes on after it. -/
theorem Derives.unique {text left right : List Char} {p q : Phrase} (hleft : Derives text p left)
    (hright : Derives text q right) (hkind : p.SameKind q) (hstopLeft : Follows left) (hstopRight : Follows right) :
    p = q ∧ left = right := by
  induction hleft generalizing q right with
  | nullLiteral =>
    cases hright with
    | nullLiteral => exact ⟨rfl, rfl⟩
    | number hnumber => exact absurd hnumber (not_number (by decide) (by decide))
    | _ => cases hkind
  | falseLiteral =>
    cases hright with
    | falseLiteral => exact ⟨rfl, rfl⟩
    | number hnumber => exact absurd hnumber (not_number (by decide) (by decide))
    | _ => cases hkind
  | trueLiteral =>
    cases hright with
    | trueLiteral => exact ⟨rfl, rfl⟩
    | number hnumber => exact absurd hnumber (not_number (by decide) (by decide))
    | _ => cases hkind
  | number hnumber =>
    cases hright with
    | number hother =>
      obtain ⟨rfl, rfl⟩ := hnumber.unique hother hstopLeft hstopRight
      exact ⟨rfl, rfl⟩
    | lastItem _ _ => cases hkind
    | item _ _ _ _ => cases hkind
    | _ => exact absurd hnumber (not_number (by decide) (by decide))
  | string hstring =>
    cases hright with
    | string hother =>
      obtain ⟨rfl, rfl⟩ := hstring.unique hother
      exact ⟨rfl, rfl⟩
    | number hnumber => exact absurd hnumber (not_number (by decide) (by decide))
    | _ => cases hkind
  | emptyArray hspaces =>
    cases hright with
    | emptyArray hother =>
      obtain ⟨-, rfl⟩ := hspaces.mark_unique hother (by decide) (by decide)
      exact ⟨rfl, rfl⟩
    | array hother hitems => exact absurd (.inl rfl) (hitems.not_close hother hspaces)
    | number hnumber => exact absurd hnumber (not_number (by decide) (by decide))
    | _ => cases hkind
  | array hspaces hitems ih =>
    cases hright with
    | emptyArray hother => exact absurd (.inl rfl) (hitems.not_close hspaces hother)
    | array hother hotherItems =>
      have hstart := hitems.spaces_unique hotherItems hspaces hother
      subst hstart
      obtain ⟨hsame, rfl⟩ := ih hotherItems trivial hstopLeft hstopRight
      cases hsame
      exact ⟨rfl, rfl⟩
    | number hnumber => exact absurd hnumber (not_number (by decide) (by decide))
    | _ => cases hkind
  | emptyObject hspaces =>
    cases hright with
    | emptyObject hother =>
      obtain ⟨-, rfl⟩ := hspaces.mark_unique hother (by decide) (by decide)
      exact ⟨rfl, rfl⟩
    | object hother hmembers => exact absurd (.inr rfl) (hmembers.not_close hother hspaces)
    | number hnumber => exact absurd hnumber (not_number (by decide) (by decide))
    | _ => cases hkind
  | object hspaces hmembers ih =>
    cases hright with
    | emptyObject hother => exact absurd (.inr rfl) (hmembers.not_close hspaces hother)
    | object hother hotherMembers =>
      have hstart := hmembers.spaces_unique hotherMembers hspaces hother
      subst hstart
      obtain ⟨hsame, rfl⟩ := ih hotherMembers trivial hstopLeft hstopRight
      cases hsame
      exact ⟨rfl, rfl⟩
    | number hnumber => exact absurd hnumber (not_number (by decide) (by decide))
    | _ => cases hkind
  | lastItem hvalue hclose ih =>
    cases hright with
    | lastItem hother hotherClose =>
      obtain ⟨hsame, rfl⟩ := ih hother trivial (hclose.follows (follows_cons (by decide)))
        (hotherClose.follows (follows_cons (by decide)))
      cases hsame
      obtain ⟨-, rfl⟩ := hclose.mark_unique hotherClose (by decide) (by decide)
      exact ⟨rfl, rfl⟩
    | item hother hcomma hspaces hitems =>
      obtain ⟨hsame, rfl⟩ := ih hother trivial (hclose.follows (follows_cons (by decide)))
        (hcomma.follows (follows_cons (by decide)))
      exact absurd (hclose.mark_unique hcomma (by decide) (by decide)).1 (by decide)
    | _ => cases hkind
  | item hvalue hcomma hspaces hitems ihValue ihItems =>
    cases hright with
    | lastItem hother hclose =>
      obtain ⟨hsame, rfl⟩ := ihValue hother trivial (hcomma.follows (follows_cons (by decide)))
        (hclose.follows (follows_cons (by decide)))
      exact absurd (hcomma.mark_unique hclose (by decide) (by decide)).1 (by decide)
    | item hother hotherComma hotherSpaces hotherItems =>
      obtain ⟨hsame, rfl⟩ := ihValue hother trivial (hcomma.follows (follows_cons (by decide)))
        (hotherComma.follows (follows_cons (by decide)))
      cases hsame
      obtain ⟨-, rfl⟩ := hcomma.mark_unique hotherComma (by decide) (by decide)
      have hstart := hitems.spaces_unique hotherItems hspaces hotherSpaces
      subst hstart
      obtain ⟨hsame, rfl⟩ := ihItems hotherItems trivial hstopLeft hstopRight
      cases hsame
      exact ⟨rfl, rfl⟩
    | _ => cases hkind
  | lastMember hname hcolon hspaces hvalue hclose ih =>
    cases hright with
    | lastMember hotherName hotherColon hotherSpaces hother hotherClose =>
      obtain ⟨rfl, rfl⟩ := hname.unique hotherName
      obtain ⟨-, rfl⟩ := hcolon.mark_unique hotherColon (by decide) (by decide)
      have hstart := hvalue.spaces_unique hother hspaces hotherSpaces
      subst hstart
      obtain ⟨hsame, rfl⟩ := ih hother trivial (hclose.follows (follows_cons (by decide)))
        (hotherClose.follows (follows_cons (by decide)))
      cases hsame
      obtain ⟨-, rfl⟩ := hclose.mark_unique hotherClose (by decide) (by decide)
      exact ⟨rfl, rfl⟩
    | member hotherName hotherColon hotherSpaces hother hcomma hotherStart hmembers =>
      obtain ⟨rfl, rfl⟩ := hname.unique hotherName
      obtain ⟨-, rfl⟩ := hcolon.mark_unique hotherColon (by decide) (by decide)
      have hstart := hvalue.spaces_unique hother hspaces hotherSpaces
      subst hstart
      obtain ⟨hsame, rfl⟩ := ih hother trivial (hclose.follows (follows_cons (by decide)))
        (hcomma.follows (follows_cons (by decide)))
      exact absurd (hclose.mark_unique hcomma (by decide) (by decide)).1 (by decide)
    | _ => cases hkind
  | member hname hcolon hspaces hvalue hcomma hstart hmembers ihValue ihMembers =>
    cases hright with
    | lastMember hotherName hotherColon hotherSpaces hother hclose =>
      obtain ⟨rfl, rfl⟩ := hname.unique hotherName
      obtain ⟨-, rfl⟩ := hcolon.mark_unique hotherColon (by decide) (by decide)
      have hsame := hvalue.spaces_unique hother hspaces hotherSpaces
      subst hsame
      obtain ⟨hsame, rfl⟩ := ihValue hother trivial (hcomma.follows (follows_cons (by decide)))
        (hclose.follows (follows_cons (by decide)))
      exact absurd (hcomma.mark_unique hclose (by decide) (by decide)).1 (by decide)
    | member hotherName hotherColon hotherSpaces hother hotherComma hotherStart hotherMembers =>
      obtain ⟨rfl, rfl⟩ := hname.unique hotherName
      obtain ⟨-, rfl⟩ := hcolon.mark_unique hotherColon (by decide) (by decide)
      have hsame := hvalue.spaces_unique hother hspaces hotherSpaces
      subst hsame
      obtain ⟨hsame, rfl⟩ := ihValue hother trivial (hcomma.follows (follows_cons (by decide)))
        (hotherComma.follows (follows_cons (by decide)))
      cases hsame
      obtain ⟨-, rfl⟩ := hcomma.mark_unique hotherComma (by decide) (by decide)
      have hsame := hmembers.spaces_unique hotherMembers hstart hotherStart
      subst hsame
      obtain ⟨hsame, rfl⟩ := ihMembers hotherMembers trivial hstopLeft hstopRight
      cases hsame
      exact ⟨rfl, rfl⟩
    | _ => cases hkind

/-- A text denotes at most one value. -/
theorem Denotes.unique {text : List Char} {v w : Value} (hleft : Denotes text v) (hright : Denotes text w) : v = w := by
  obtain ⟨start, after, hspaces, hvalue, hend⟩ := hleft
  obtain ⟨start', after', hspaces', hvalue', hend'⟩ := hright
  have hstart := hvalue.spaces_unique hvalue' hspaces hspaces'
  subst hstart
  obtain ⟨hsame, -⟩ := hvalue.unique hvalue' trivial (hend.follows follows_nil) (hend'.follows follows_nil)
  cases hsame
  rfl

/-! ### Decimal numerals -/

theorem Digits.append {text middle rest : List Char} {n m count total : Nat} (hfirst : Digits text n count middle)
    (hsecond : Digits middle m total rest) : Digits text (n * 10 ^ total + m) (count + total) rest := by
  induction hfirst with
  | last hdigit =>
    rw [Nat.add_comm 1 total]
    exact .more hdigit hsecond
  | @more c d text n count middle hdigit _ ih =>
    have hvalue : (d * 10 ^ count + n) * 10 ^ total + m = d * 10 ^ (count + total) + (n * 10 ^ total + m) := by
      rw [pow_add]
      ring
    rw [hvalue, Nat.add_right_comm count 1 total]
    exact .more hdigit (ih hsecond)

theorem digit?_digitChar {d : Nat} (h : d < 10) : digit? (Nat.digitChar d) = some d := by
  revert d
  decide

theorem digits_toDigits (n : Nat) : ∃ count, ∀ rest, Digits (Nat.toDigits 10 n ++ rest) n count rest := by
  induction n using Nat.strong_induction_on with
  | _ n ih =>
    by_cases hsmall : n < 10
    · refine ⟨1, fun rest => ?_⟩
      rw [Nat.toDigits_of_lt_base hsmall]
      exact .last (digit?_digitChar hsmall)
    · obtain ⟨count, hprevious⟩ := ih (n / 10) (by omega)
      refine ⟨count + 1, fun rest => ?_⟩
      rw [Nat.toDigits_of_base_le (by omega) (by omega), List.append_assoc]
      have hlast : Digits ([Nat.digitChar (n % 10)] ++ rest) (n % 10) 1 rest :=
        .last (digit?_digitChar (Nat.mod_lt n (by omega)))
      have hjoin := (hprevious _).append hlast
      rw [pow_one, Nat.div_add_mod'] at hjoin
      exact hjoin

theorem toDigits_head {n : Nat} (hpos : 0 < n) : ∃ c tail, Nat.toDigits 10 n = c :: tail ∧ c ≠ '0' := by
  induction n using Nat.strong_induction_on with
  | _ n ih =>
    by_cases hsmall : n < 10
    · have hchar : ∀ d < 10, 0 < d → Nat.digitChar d ≠ '0' := by decide
      exact ⟨Nat.digitChar n, [], Nat.toDigits_of_lt_base hsmall, hchar n hsmall hpos⟩
    · obtain ⟨c, tail, hdigits, hc⟩ := ih (n / 10) (by omega) (by omega)
      refine ⟨c, tail ++ [Nat.digitChar (n % 10)], ?_, hc⟩
      rw [Nat.toDigits_of_base_le (by omega) (by omega), hdigits, List.cons_append]

/-- A decimal numeral is a number of that value. -/
theorem magnitude_toDigits (n : Nat) (rest : List Char) : Magnitude (Nat.toDigits 10 n ++ rest) n rest := by
  have hwhole : Whole (Nat.toDigits 10 n ++ rest) n rest := by
    cases n with
    | zero => exact .zero
    | succ n =>
      obtain ⟨c, tail, hhead, hc⟩ := toDigits_head (Nat.succ_pos n)
      obtain ⟨count, hdigits⟩ := digits_toDigits (n + 1)
      have hall := hdigits rest
      rw [hhead] at hall ⊢
      exact .digits hc hall
  have hmagnitude : Magnitude (Nat.toDigits 10 n ++ rest) ((n + 0) * 10 ^ (0 : ℤ)) rest :=
    .mk hwhole .absent .absent
  rw [zpow_zero, mul_one, add_zero] at hmagnitude
  exact hmagnitude

/-- The numeral of an integer, with a minus sign before a negative one. -/
def numeral (i : ℤ) : List Char := if i < 0 then '-' :: Nat.toDigits 10 i.natAbs else Nat.toDigits 10 i.natAbs

theorem number_numeral (i : ℤ) (rest : List Char) : Number (numeral i ++ rest) i rest := by
  simp only [numeral]
  split
  next hneg =>
    have hvalue : (i : ℚ) = -(i.natAbs : ℚ) := by
      rw [← Int.cast_natCast, Int.ofNat_natAbs_of_nonpos (by omega), Int.cast_neg, neg_neg]
    rw [hvalue]
    exact .negative (magnitude_toDigits _ _)
  next hpos =>
    have hvalue : (i : ℚ) = (i.natAbs : ℚ) := by
      rw [← Int.cast_natCast, Int.natAbs_of_nonneg (by omega)]
    rw [hvalue]
    exact .positive (magnitude_toDigits _ _)

end Json
