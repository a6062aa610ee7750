import AgentScheduler.Canonical

/-! Readers that accept exactly what a writer writes of the values that are valid for it. -/
namespace ByteCodec

/-- The reader returns a value and stops exactly when the input starts with what is written of that value, and the value is
valid; what is written of a valid value respects every ceiling. -/
structure Inverts {ε α : Type} (reader : Reader ε α) (put : α → List Put) (valid : α → Prop) : Prop where
  exact : ∀ input value rest, reader input = .ok (value, rest) ↔ valid value ∧ input = putBytes (put value) ++ rest
  fits : ∀ value, valid value → ∀ p ∈ put value, p.Fits

/-- The same for a reader in the middle of a record: some fields are known already, and the rest is still to be read. -/
structure Completes {ε ρ : Type} (reader : Reader ε ρ) (known : ρ → Prop) (put : ρ → List (List Put)) (valid : ρ → Prop) :
    Prop where
  exact : ∀ input value rest, reader input = .ok (value, rest) ↔
    (known value ∧ valid value) ∧ input = putBytes (put value).flatten ++ rest
  fits : ∀ value, valid value → ∀ p ∈ (put value).flatten, p.Fits

section
variable {ε α β ρ : Type} {truncated : ε}

/-! ### Composing readers -/

theorem bind_ok {reader : Reader ε α} {f : α → Reader ε β} {input : List UInt8} {result : β × List UInt8} :
    (reader >>= f) input = .ok result ↔ ∃ value rest, reader input = .ok (value, rest) ∧ f value rest = .ok result := by
  change (reader input).bind (fun r => f r.1 r.2) = _ ↔ _
  cases reader input with
  | error e => exact ⟨nofun, nofun⟩
  | ok first => exact ⟨fun h => ⟨first.1, first.2, rfl, h⟩, by rintro ⟨_, _, ⟨⟩, h⟩; exact h⟩

theorem pure_ok {value : α} {input : List UInt8} {result : α × List UInt8} :
    (pure value : Reader ε α) input = .ok result ↔ (value, input) = result :=
  ⟨Except.ok.inj, congrArg Except.ok⟩

theorem failIf_ok {condition : Prop} [Decidable condition] {error : ε} {input : List UInt8} {result : Unit × List UInt8} :
    failIf condition error input = .ok result ↔ ¬condition ∧ ((), input) = result := by
  by_cases h : condition
  · rw [failIf, if_pos h]
    exact ⟨fun hfail => (by cases hfail), fun hresult => absurd h hresult.1⟩
  · rw [failIf, if_neg h, pure_ok]
    exact ⟨fun hresult => ⟨h, hresult⟩, And.right⟩

theorem Inverts.congr {reader : Reader ε α} {put : α → List Put} {valid valid' : α → Prop}
    (h : Inverts reader put valid) (hvalid : ∀ value, valid value ↔ valid' value) : Inverts reader put valid' := by
  rwa [show valid' = valid from funext fun value => propext (hvalid value).symm]

/-- Another way to put down the same writes. -/
theorem Inverts.rewrite {reader : Reader ε α} {put put' : α → List Put} {valid : α → Prop} (h : Inverts reader put valid)
    (hput : ∀ value, put value = put' value) : Inverts reader put' valid := by
  rwa [show put' = put from funext fun value => (hput value).symm]

/-- Reading under another type: `wrap` after the reader, `unwrap` before the writer. -/
theorem Inverts.wrap {reader : Reader ε α} {put : α → List Put} {valid : α → Prop} {valid' : β → Prop} (wrap : α → β)
    (unwrap : β → α) (h : Inverts reader put valid) (hread : ∀ a, valid a → valid' (wrap a) ∧ unwrap (wrap a) = a)
    (hwrite : ∀ b, valid' b → valid (unwrap b) ∧ wrap (unwrap b) = b) :
    Inverts (reader >>= fun a => Pure.pure (wrap a)) (fun b => put (unwrap b)) valid' where
  exact input b rest := by
    simp only [bind_ok, pure_ok, h.exact, Prod.mk.injEq]
    constructor
    · rintro ⟨a, _, ⟨ha, hinput⟩, rfl, rfl⟩
      rw [(hread a ha).2]
      exact ⟨(hread a ha).1, hinput⟩
    · rintro ⟨hb, hinput⟩
      exact ⟨unwrap b, rest, ⟨(hwrite b hb).1, hinput⟩, (hwrite b hb).2, rfl⟩
  fits b hb := h.fits _ (hwrite b hb).1

/-! ### Records -/

/-- The next field of a record. -/
theorem Completes.field {reader : Reader ε α} {putField : α → List Put} {validField : α → Prop} {f : α → Reader ε ρ}
    {known : ρ → Prop} {put : ρ → List (List Put)} {valid : ρ → Prop} (get : ρ → α)
    (hfield : Inverts reader putField validField)
    (hrest : ∀ a, Completes (f a) (fun value => known value ∧ get value = a) put valid) :
    Completes (reader >>= f) known (fun value => putField (get value) :: put value)
      (fun value => validField (get value) ∧ valid value) where
  exact input value rest := by
    simp only [bind_ok, hfield.exact, (hrest _).exact, List.flatten_cons, putBytes_append, List.append_assoc]
    constructor
    · rintro ⟨a, mid, ⟨ha, rfl⟩, ⟨⟨hknown, rfl⟩, hvalid⟩, rfl⟩
      exact ⟨⟨hknown, ha, hvalid⟩, rfl⟩
    · rintro ⟨⟨hknown, ha, hvalid⟩, rfl⟩
      exact ⟨get value, _, ⟨ha, rfl⟩, ⟨⟨hknown, rfl⟩, hvalid⟩, rfl⟩
  fits value hvalid p hp := by
    rcases List.mem_append.mp hp with hp | hp
    · exact hfield.fits _ hvalid.1 p hp
    · exact (hrest (get value)).fits value hvalid.2 p hp

/-- A check between two fields, of the fields known so far. -/
theorem Completes.check {condition : Prop} [Decidable condition] {error : ε} {g : Unit → Reader ε ρ} {known : ρ → Prop}
    {put : ρ → List (List Put)} {valid : ρ → Prop} (passes : ρ → Prop)
    (hpasses : ∀ value, known value → (passes value ↔ ¬condition)) (hrest : Completes (g ()) known put valid) :
    Completes (failIf condition error >>= g) known put (fun value => passes value ∧ valid value) where
  exact input value rest := by
    simp only [bind_ok, failIf_ok, Prod.mk.injEq, true_and]
    constructor
    · rintro ⟨_, _, ⟨hcondition, rfl⟩, hread⟩
      obtain ⟨⟨hknown, hvalid⟩, hinput⟩ := (hrest.exact _ _ _).mp hread
      exact ⟨⟨hknown, (hpasses value hknown).mpr hcondition, hvalid⟩, hinput⟩
    · rintro ⟨⟨hknown, hpass, hvalid⟩, hinput⟩
      exact ⟨(), input, ⟨(hpasses value hknown).mp hpass, rfl⟩, (hrest.exact _ _ _).mpr ⟨⟨hknown, hvalid⟩, hinput⟩⟩
  fits value hvalid := hrest.fits value hvalid.2

/-- Every field is known. -/
theorem Completes.done {value : ρ} {known : ρ → Prop} (h : ∀ other, known other ↔ other = value) :
    Completes (ε := ε) (Pure.pure value) known (fun _ => []) (fun _ => True) where
  exact input other rest := by
    rw [pure_ok, h]
    constructor
    · rintro ⟨⟩
      exact ⟨⟨rfl, trivial⟩, rfl⟩
    · rintro ⟨⟨rfl, -⟩, rfl⟩
      rfl
  fits _ _ _ hp := nomatch hp

/-- A whole record. -/
theorem Completes.record {reader : Reader ε ρ} {put : ρ → List (List Put)} {valid valid' : ρ → Prop}
    (h : Completes reader (fun _ => True) put valid) (hvalid : ∀ value, valid value ↔ valid' value) :
    Inverts reader (fun value => (put value).flatten) valid' where
  exact input value rest := by rw [h.exact, true_and, hvalid]
  fits value hv := h.fits value ((hvalid value).mpr hv)

/-! ### Words, strings and lists -/

theorem inverts_bytes (count : Nat) :
    Inverts (getBytes truncated count) (fun bytes => [.raw bytes]) (fun bytes => bytes.length = count) where
  exact input bytes rest := by
    have hput : putBytes [.raw bytes] = bytes := by simp [putBytes, Put.bytes]
    rw [hput, getBytes]
    constructor
    · intro h
      split at h
      · cases h
      · cases h
        exact ⟨List.length_take_of_le (by omega), (List.take_append_drop count input).symm⟩
    · rintro ⟨rfl, rfl⟩
      simp
  fits _ _ _ hp := by
    rw [List.mem_singleton.mp hp]
    trivial

theorem inverts_u8 : Inverts (getU8 truncated) putU8 (fun _ => True) := by
  refine (inverts_bytes 1).wrap (fun bytes : List UInt8 => bytes.headD 0) (fun value => [value]) ?_ fun _ _ => ⟨rfl, rfl⟩
  intro bytes h
  obtain ⟨byte, rfl⟩ := List.length_eq_one_iff.mp h
  exact ⟨trivial, rfl⟩

theorem leBytes32_join {bytes : List UInt8} (h : bytes.length = 4) : leBytes32 (joinLe32 bytes) = bytes := by
  obtain ⟨a, b, c, d, rfl⟩ := List.length_eq_four.mp h
  exact leBytes32_joinLe32 a b c d

theorem leBytes64_join {bytes : List UInt8} (h : bytes.length = 8) : leBytes64 (joinLe64 bytes) = bytes := by
  match bytes, h with
  | [a, b, c, d, e, f, g, h], _ => exact leBytes64_joinLe64 a b c d e f g h

theorem inverts_u32 : Inverts (getU32 truncated) putU32 (fun _ => True) :=
  (inverts_bytes 4).wrap joinLe32 leBytes32 (fun _ h => ⟨trivial, leBytes32_join h⟩)
    fun value _ => ⟨rfl, joinLe32_leBytes32 value⟩

theorem inverts_u64 : Inverts (getU64 truncated) putU64 (fun _ => True) :=
  (inverts_bytes 8).wrap joinLe64 leBytes64 (fun _ h => ⟨trivial, leBytes64_join h⟩)
    fun value _ => ⟨rfl, joinLe64_leBytes64 value⟩

theorem inverts_bool {badBool : ε} : Inverts (getBool truncated badBool) putBool (fun _ => True) where
  exact input b rest := by
    simp only [getBool, bind_ok, inverts_u8.exact, failIf_ok, pure_ok, Prod.mk.injEq, true_and]
    constructor
    · rintro ⟨value, _, rfl, _, _, ⟨hvalue, rfl⟩, rfl, rfl⟩
      have hsmall : value = 0 ∨ value = 1 := by
        have : value.toNat ≤ 1 := by simpa [UInt8.lt_iff_toNat_lt] using hvalue
        rcases Nat.le_one_iff_eq_zero_or_eq_one.mp this with h | h
        · exact Or.inl (UInt8.toNat_inj.mp h)
        · exact Or.inr (UInt8.toNat_inj.mp h)
      rcases hsmall with rfl | rfl <;> rfl
    · rintro rfl
      exact ⟨if b then 1 else 0, rest, rfl, (), rest, ⟨by cases b <;> decide, rfl⟩, by cases b <;> rfl, rfl⟩
  fits b _ := by
    have hbyte : Inverts (getU8 truncated) putU8 (fun _ => True) := inverts_u8
    exact hbyte.fits (if b then 1 else 0) trivial

theorem inverts_string {tooLong : ε} {ceiling : UInt32} :
    Inverts (getString truncated tooLong ceiling) (putString · ceiling) (fun bytes => bytes.length ≤ ceiling.toNat) where
  exact input bytes rest := by
    have hput : putBytes (putString bytes ceiling) ++ rest =
        putBytes (putU32 (UInt32.ofNat bytes.length)) ++ (putBytes [.raw bytes] ++ rest) := by
      simp [putBytes, Put.bytes, putString, putU32]
    rw [hput]
    simp only [getString, bind_ok, inverts_u32.exact, failIf_ok, (inverts_bytes _).exact, Prod.mk.injEq, true_and]
    constructor
    · rintro ⟨size, _, rfl, _, _, ⟨hsize, rfl⟩, hlength, rfl⟩
      rw [hlength, UInt32.ofNat_toNat]
      exact ⟨UInt32.le_iff_toNat_le.mp (UInt32.not_lt.mp hsize), rfl⟩
    · rintro ⟨hfits, rfl⟩
      have hsize : (UInt32.ofNat bytes.length).toNat = bytes.length :=
        UInt32.toNat_ofNat_of_lt' (Nat.lt_of_le_of_lt hfits ceiling.toNat_lt)
      exact ⟨_, _, rfl, (), _, ⟨UInt32.not_lt.mpr (UInt32.le_iff_toNat_le.mpr (hsize.symm ▸ hfits)), rfl⟩, hsize.symm, rfl⟩
  fits bytes hfits p hp := by
    rw [List.mem_singleton.mp hp]
    exact hfits

theorem readMany_ok {reader : Reader ε α} {put : α → List Put} {valid : α → Prop} (h : Inverts reader put valid)
    {count : Nat} {input : List UInt8} {values : List α} {rest : List UInt8} :
    readMany reader count input = .ok (values, rest) ↔
      values.length = count ∧ (∀ value ∈ values, valid value) ∧ input = putBytes (values.flatMap put) ++ rest := by
  induction count generalizing input values rest with
  | zero =>
    rw [readMany, pure_ok, Prod.mk.injEq]
    constructor
    · rintro ⟨rfl, rfl⟩
      exact ⟨rfl, nofun, rfl⟩
    · rintro ⟨hlength, -, rfl⟩
      rw [List.length_eq_zero_iff.mp hlength]
      exact ⟨rfl, rfl⟩
  | succ count ih =>
    simp only [readMany, bind_ok, h.exact, ih, pure_ok, Prod.mk.injEq]
    constructor
    · rintro ⟨value, _, ⟨hvalue, rfl⟩, others, _, ⟨rfl, hothers, rfl⟩, rfl, rfl⟩
      refine ⟨rfl, List.forall_mem_cons.mpr ⟨hvalue, hothers⟩, ?_⟩
      rw [List.flatMap_cons, putBytes_append, List.append_assoc]
    · rintro ⟨hlength, hvalid, rfl⟩
      obtain ⟨value, others, rfl⟩ := List.exists_cons_of_length_eq_add_one hlength
      obtain ⟨hvalue, hothers⟩ := List.forall_mem_cons.mp hvalid
      rw [List.flatMap_cons, putBytes_append, List.append_assoc]
      exact ⟨value, _, ⟨hvalue, rfl⟩, others, rest, ⟨Nat.succ.inj hlength, hothers, rfl⟩, rfl, rfl⟩

theorem inverts_list {reader : Reader ε α} {put : α → List Put} {valid : α → Prop} {ceiling : UInt32} {tooMany : ε}
    (h : Inverts reader put valid) :
    Inverts (readList truncated reader ceiling tooMany) (putList put)
      (fun values => values.length ≤ ceiling.toNat ∧ ∀ value ∈ values, valid value) where
  exact input values rest := by
    simp only [readList, bind_ok, inverts_u32.exact, failIf_ok, readMany_ok h, Prod.mk.injEq, true_and, putList,
      putBytes_append, List.append_assoc]
    constructor
    · rintro ⟨count, _, rfl, _, _, ⟨hcount, rfl⟩, hlength, hvalid, rfl⟩
      rw [hlength, UInt32.ofNat_toNat]
      exact ⟨⟨UInt32.le_iff_toNat_le.mp (UInt32.not_lt.mp hcount), hvalid⟩, rfl⟩
    · rintro ⟨⟨hfits, hvalid⟩, rfl⟩
      have hcount : (UInt32.ofNat values.length).toNat = values.length :=
        UInt32.toNat_ofNat_of_lt' (Nat.lt_of_le_of_lt hfits ceiling.toNat_lt)
      exact ⟨_, _, rfl, (), _, ⟨UInt32.not_lt.mpr (UInt32.le_iff_toNat_le.mpr (hcount.symm ▸ hfits)), rfl⟩, hcount.symm, hvalid,
        rfl⟩
  fits values hvalid p hp := by
    have hcount : Inverts (getU32 truncated) putU32 (fun _ => True) := inverts_u32
    rcases List.mem_append.mp hp with hp | hp
    · exact hcount.fits (UInt32.ofNat values.length) trivial p hp
    · obtain ⟨value, hvalue, hp⟩ := List.mem_flatMap.mp hp
      exact h.fits value (hvalid.2 value hvalue) p hp

/-! ### Writing what fits -/

/-- Writes that respect their ceilings succeed while the buffer stays below its limit. -/
theorem runPuts_fits {limit : Nat} {tooLarge tooLong : ε} {puts : List Put} (hfits : ∀ p ∈ puts, p.Fits)
    (hsize : (putBytes puts).length ≤ limit) : runPuts limit tooLarge tooLong puts = .ok (putBytes puts) := by
  suffices key : ∀ buffer, buffer.length + (putBytes puts).length ≤ limit →
      puts.foldlM (Put.run limit tooLarge tooLong) buffer = .ok (buffer ++ putBytes puts) by
    exact key [] (by rwa [List.length_nil, Nat.zero_add])
  clear hsize
  induction puts with
  | nil => intro buffer _; rw [putBytes_nil, List.append_nil]; rfl
  | cons put rest ih =>
    intro buffer hsize
    have hcons : putBytes (put :: rest) = put.bytes ++ putBytes rest := List.flatMap_cons
    have happend : ∀ (buffer bytes : List UInt8), buffer.length + bytes.length ≤ limit →
        appendBytes limit tooLarge buffer bytes = .ok (buffer ++ bytes) := by
      intro buffer bytes hroom
      exact if_neg (by omega)
    rw [hcons, List.length_append] at hsize
    have hput : put.run limit tooLarge tooLong buffer = .ok (buffer ++ put.bytes) := by
      cases put with
      | raw bytes => exact happend buffer bytes (by simp only [Put.bytes] at hsize; omega)
      | str bytes ceiling =>
        have hceiling : bytes.length ≤ ceiling.toNat := hfits _ List.mem_cons_self
        simp only [Put.bytes, List.length_append, length_leBytes32] at hsize
        rw [Put.run, if_neg (by omega), happend _ _ (by rw [length_leBytes32]; omega)]
        change appendBytes limit tooLarge (buffer ++ leBytes32 (UInt32.ofNat bytes.length)) bytes = _
        rw [happend _ _ (by rw [List.length_append, length_leBytes32]; omega), List.append_assoc]
        rfl
    rw [List.foldlM_cons, hput]
    change rest.foldlM (Put.run limit tooLarge tooLong) (buffer ++ put.bytes) = _
    rw [ih (fun p hp => hfits p (List.mem_cons_of_mem _ hp)) _ (by rw [List.length_append]; omega), hcons,
      List.append_assoc]

end

end ByteCodec
