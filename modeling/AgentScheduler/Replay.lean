import AgentScheduler.Inversion

/-! What a reader makes of bytes that a writer has put down, also where it does not give back what was written. -/
namespace ByteCodec

/-- A write of one to eight bytes, or a string. -/
def Put.Short : Put → Prop
  | raw bytes => 0 < bytes.length ∧ bytes.length ≤ 8
  | str _ _ => True

/-- The writes respect their ceilings, and a 32-bit word counts them. -/
structure Sized (puts : List Put) : Prop where
  fits : ∀ p ∈ puts, p.Fits
  few : puts.length < 2 ^ 32

/-- On the written bytes the reader returns `value` and stops right after them if `valid` holds; otherwise it fails. -/
structure Replays {ε α : Type} (puts : List Put) (reader : Reader ε α) (valid : Prop) (value : α) : Prop where
  short : ∀ p ∈ puts, p.Short
  exact : Sized puts → ∀ rest result, reader (putBytes puts ++ rest) = .ok result ↔ valid ∧ (value, rest) = result

theorem Sized.append {ps qs : List Put} (h : Sized (ps ++ qs)) : Sized ps ∧ Sized qs := by
  have hfew := h.few
  rw [List.length_append] at hfew
  exact ⟨⟨fun p hp => h.fits p (List.mem_append_left _ hp), by omega⟩,
    ⟨fun p hp => h.fits p (List.mem_append_right _ hp), by omega⟩⟩

section
variable {ε α β : Type} {puts ps : List Put} {fields : List (List Put)} {reader : Reader ε α} {f : α → Reader ε β}
  {value : α} {result : β} {valid valid' : Prop} {truncated : ε}

/-! ### Composing -/

theorem Replays.pure : Replays (ε := ε) [] (pure value) True value where
  short := nofun
  exact _ rest out := by
    rw [putBytes_nil, List.nil_append, pure_ok, true_and]

theorem Replays.congr (h : Replays puts reader valid value) (hvalid : valid ↔ valid') :
    Replays puts reader valid' value := by
  rwa [← propext hvalid]

/-- The next field of a record. -/
theorem Replays.field (hfirst : Replays ps reader valid value) (hthen : Replays fields.flatten (f value) valid' result) :
    Replays (ps :: fields).flatten (reader >>= f) (valid ∧ valid') result where
  short p hp := (List.mem_append.mp hp).elim (hfirst.short p) (hthen.short p)
  exact hsized rest out := by
    obtain ⟨hps, hfields⟩ := Sized.append hsized
    rw [List.flatten_cons, putBytes_append, List.append_assoc, bind_ok]
    simp only [hfirst.exact hps, Prod.mk.injEq]
    constructor
    · rintro ⟨_, _, ⟨hvalid, rfl, rfl⟩, hrest⟩
      obtain ⟨hvalid', hout⟩ := (hthen.exact hfields rest out).mp hrest
      exact ⟨⟨hvalid, hvalid'⟩, hout⟩
    · rintro ⟨⟨hvalid, hvalid'⟩, hout⟩
      exact ⟨value, _, ⟨hvalid, rfl, rfl⟩, (hthen.exact hfields rest out).mpr ⟨hvalid', hout⟩⟩

/-- The last field of a record, and what is made of it. -/
theorem Replays.map (g : α → β) (h : Replays puts reader valid value) :
    Replays puts (reader >>= fun found => Pure.pure (g found)) valid (g value) := by
  have hlast : Replays (ε := ε) ([] : List (List Put)).flatten (Pure.pure (g value)) True (g value) := Replays.pure
  have hfield := h.field (f := fun found => Pure.pure (g found)) hlast
  rw [List.flatten_cons, List.flatten_nil, List.append_nil] at hfield
  exact hfield.congr (and_iff_left trivial)

/-- A check of what was read. -/
theorem Replays.check {condition : Prop} [Decidable condition] {error : ε} {g : Unit → Reader ε β}
    (h : Replays puts (g ()) valid result) : Replays puts (failIf condition error >>= g) (¬condition ∧ valid) result where
  short := h.short
  exact hsized rest out := by
    simp only [bind_ok, failIf_ok, Prod.mk.injEq, true_and]
    constructor
    · rintro ⟨_, _, ⟨hpass, rfl⟩, hread⟩
      obtain ⟨hvalid, hout⟩ := (h.exact hsized rest out).mp hread
      exact ⟨⟨hpass, hvalid⟩, hout⟩
    · rintro ⟨⟨hpass, hvalid⟩, hout⟩
      exact ⟨(), _, ⟨hpass, rfl⟩, (h.exact hsized rest out).mpr ⟨hvalid, hout⟩⟩

theorem Replays.returns {value' : α} (h : Replays puts reader valid value) (hvalue : value = value') :
    Replays puts reader valid value' := hvalue ▸ h

/-- Writes put down in another grouping. -/
theorem Replays.rewrite {puts' : List Put} (h : Replays puts reader valid value) (hputs : puts = puts') :
    Replays puts' reader valid value := hputs ▸ h

/-! ### Words, strings and lists -/

/-- A reader that inverts its writer gives back every value that is valid for it. -/
theorem Inverts.replays {put : α → List Put} {accepts : α → Prop} (h : Inverts reader put accepts)
    (haccepts : Sized (put value) → accepts value) (hshort : ∀ p ∈ put value, p.Short) :
    Replays (put value) reader True value where
  short := hshort
  exact hsized rest out := by
    have hread := (h.exact (putBytes (put value) ++ rest) value rest).mpr ⟨haccepts hsized, rfl⟩
    rw [hread, true_and]
    exact ⟨Except.ok.inj, congrArg Except.ok⟩

theorem replays_u8 (v : UInt8) : Replays (putU8 v) (getU8 truncated) True v :=
  inverts_u8.replays (fun _ => trivial) (by simp [putU8, Put.Short])

theorem replays_u32 (v : UInt32) : Replays (putU32 v) (getU32 truncated) True v :=
  inverts_u32.replays (fun _ => trivial) (by simp [putU32, Put.Short])

theorem replays_u64 (v : UInt64) : Replays (putU64 v) (getU64 truncated) True v :=
  inverts_u64.replays (fun _ => trivial) (by simp [putU64, Put.Short])

theorem replays_bool {badBool : ε} (b : Bool) : Replays (putBool b) (getBool truncated badBool) True b :=
  inverts_bool.replays (fun _ => trivial) (by simp [putBool, putU8, Put.Short])

theorem replays_string {tooLong : ε} {ceiling : UInt32} (bytes : List UInt8) :
    Replays (putString bytes ceiling) (getString truncated tooLong ceiling) True bytes := by
  have hstring : Inverts (getString truncated tooLong ceiling) (putString · ceiling) (fun bytes => bytes.length ≤ ceiling.toNat) :=
    inverts_string
  exact hstring.replays (fun hsized => hsized.fits _ List.mem_cons_self) (by simp [putString, Put.Short])

/-- A run of records, each up to `g`. -/
theorem replays_many {put : α → List Put} {read : Reader ε β} (g : α → β) (valid : α → Prop) {values : List α}
    (h : ∀ v ∈ values, Replays (put v) read (valid v) (g v)) :
    Replays (values.flatMap put) (readMany read values.length) (∀ v ∈ values, valid v) (values.map g) := by
  induction values with
  | nil => exact Replays.pure.congr (by simp)
  | cons v rest ih =>
    have hrest := ih fun w hw => h w (List.mem_cons_of_mem _ hw)
    have hothers : Replays [rest.flatMap put].flatten (readMany read rest.length >>= fun others => Pure.pure (g v :: others))
        (∀ w ∈ rest, valid w) (g v :: rest.map g) := (hrest.map (fun others => g v :: others)).rewrite (by simp)
    have hcons := (h v List.mem_cons_self).field
      (f := fun first => readMany read rest.length >>= fun others => Pure.pure (first :: others)) hothers
    exact (hcons.rewrite (by simp)).congr List.forall_mem_cons.symm

/-- A length-prefixed list, each element up to `g`. -/
theorem replays_list {put : α → List Put} {read : Reader ε β} (g : α → β) (valid : α → Prop) {values : List α}
    {ceiling : UInt32} {tooMany : ε} (hsome : ∀ v ∈ values, put v ≠ [])
    (h : ∀ v ∈ values, Replays (put v) read (valid v) (g v)) :
    Replays (putList put values) (readList truncated read ceiling tooMany)
      (values.length ≤ ceiling.toNat ∧ ∀ v ∈ values, valid v) (values.map g) where
  short p hp := (List.mem_append.mp hp).elim
    (fun hp => by rw [List.mem_singleton.mp hp]; simp [Put.Short]) ((replays_many g valid h).short p)
  exact hsized := by
    -- every element is written with one write at least
    have hlength : values.length ≤ (values.flatMap put).length := by
      clear h hsized
      induction values with
      | nil => exact Nat.zero_le _
      | cons v rest ih =>
        have hpos := List.length_pos_iff.mpr (hsome v List.mem_cons_self)
        have hrest := ih fun w hw => hsome w (List.mem_cons_of_mem _ hw)
        rw [List.flatMap_cons, List.length_append, List.length_cons]
        omega
    have hfew : values.length < 2 ^ 32 := Nat.lt_of_le_of_lt hlength (Sized.append hsized).2.few
    have hcount : (UInt32.ofNat values.length).toNat = values.length := UInt32.toNat_ofNat_of_lt' hfew
    have hmany : Replays (values.flatMap put) (readMany read (UInt32.ofNat values.length).toNat) (∀ v ∈ values, valid v)
        (values.map g) := hcount.symm ▸ replays_many g valid h
    have hcheck : Replays [values.flatMap put].flatten
        (failIf (ceiling < UInt32.ofNat values.length) tooMany >>= fun _ => readMany read (UInt32.ofNat values.length).toNat)
        (¬ceiling < UInt32.ofNat values.length ∧ ∀ v ∈ values, valid v) (values.map g) :=
      (Replays.check hmany).rewrite (by simp)
    have hword : Replays (putU32 (UInt32.ofNat values.length)) (getU32 truncated) True (UInt32.ofNat values.length) :=
      replays_u32 _
    have hread := hword.field (f := fun count => failIf (ceiling < count) tooMany >>= fun _ => readMany read count.toNat) hcheck
    refine ((hread.rewrite (by simp [putList])).congr ?_).exact hsized
    rw [true_and, UInt32.not_lt, UInt32.le_iff_toNat_le, hcount]

/-! ### What a writer has put down -/

/-- A write that succeeds starts below the limit. -/
theorem Put.run_below {limit : Nat} {tooLarge tooLong : ε} {buffer result : List UInt8} {put : Put} (hshort : put.Short)
    (hlimit : 8 ≤ limit) (h : put.run limit tooLarge tooLong buffer = .ok result) :
    buffer.length < limit ∧ buffer.length < result.length := by
  have happend : ∀ {bytes out : List UInt8}, 0 < bytes.length → bytes.length ≤ 8 →
      appendBytes limit tooLarge buffer bytes = .ok out → buffer.length < limit := by
    intro bytes out hpos hle hout
    unfold appendBytes at hout
    split at hout
    · cases hout
    · omega
  have hresult := (Put.run_ok limit tooLarge tooLong h).1
  rw [hresult, List.length_append]
  cases put with
  | raw bytes =>
    refine ⟨happend hshort.1 hshort.2 h, ?_⟩
    have hpos : 0 < bytes.length := hshort.1
    change buffer.length < buffer.length + bytes.length
    omega
  | str bytes ceiling =>
    refine ⟨?_, by simp [Put.bytes]⟩
    simp only [Put.run] at h
    split at h
    · cases h
    · cases hwritten : appendBytes limit tooLarge buffer (leBytes32 (UInt32.ofNat bytes.length)) with
      | error e => rw [hwritten] at h; cases h
      | ok prefixed => exact happend (by simp) (by simp) hwritten

/-- A writer that succeeds has made fewer writes than its limit has bytes. -/
theorem runPuts_few {limit : Nat} {tooLarge tooLong : ε} {puts : List Put} {result : List UInt8}
    (hshort : ∀ p ∈ puts, p.Short) (hlimit : 8 ≤ limit) (h : runPuts limit tooLarge tooLong puts = .ok result) :
    puts.length ≤ limit := by
  suffices key : ∀ buffer, puts.foldlM (Put.run limit tooLarge tooLong) buffer = .ok result →
      puts = [] ∨ buffer.length + puts.length ≤ limit by
    rcases key [] h with rfl | hle
    · exact Nat.zero_le _
    · rwa [List.length_nil, Nat.zero_add] at hle
  clear h
  induction puts with
  | nil => exact fun _ _ => Or.inl rfl
  | cons put rest ih =>
    intro buffer h
    right
    rw [List.foldlM_cons] at h
    cases hput : put.run limit tooLarge tooLong buffer with
    | error e => rw [hput] at h; cases h
    | ok next =>
      rw [hput] at h
      obtain ⟨hbelow, hgrows⟩ := Put.run_below (hshort put List.mem_cons_self) hlimit hput
      rw [List.length_cons]
      rcases ih (fun p hp => hshort p (List.mem_cons_of_mem _ hp)) next h with rfl | hle
      · rw [List.length_nil]
        omega
      · omega

theorem runPuts_sized {limit : Nat} {tooLarge tooLong : ε} {puts : List Put} {result : List UInt8}
    (hshort : ∀ p ∈ puts, p.Short) (hlow : 8 ≤ limit) (hhigh : limit < 2 ^ 32)
    (h : runPuts limit tooLarge tooLong puts = .ok result) : Sized puts :=
  ⟨(runPuts_ok limit tooLarge tooLong h).2, Nat.lt_of_le_of_lt (runPuts_few hshort hlow h) hhigh⟩

end

end ByteCodec
