import AgentScheduler.Persistence
import AgentScheduler.Checksum
import AgentScheduler.Canonical

/-! The state file container: what `verify_file` accepts, and what it tells apart. -/
namespace AgentScheduler
open ByteCodec

/-! ### Header fields -/

private theorem joinLe32_injective {xs ys : List UInt8} (hxs : xs.length = 4) (hys : ys.length = 4)
    (h : joinLe32 xs = joinLe32 ys) : xs = ys := by
  match xs, ys with
  | [a, b, c, d], [a', b', c', d'] => rw [← leBytes32_joinLe32 a b c d, h, leBytes32_joinLe32]

theorem fieldAt32_eq {file : List UInt8} {offset : Nat} :
    fieldAt32 file offset = joinLe32 (window file offset 4) := rfl

theorem fieldAt64_eq {file : List UInt8} {offset : Nat} :
    fieldAt64 file offset = joinLe64 (window file offset 8) := rfl

private theorem fieldAt32_set {file : List UInt8} {offset k : Nat} {byte : UInt8}
    (h : k < offset ∨ offset + 4 ≤ k) : fieldAt32 (file.set k byte) offset = fieldAt32 file offset := by
  rw [fieldAt32_eq, window_set h, fieldAt32_eq]

private theorem fieldAt64_set {file : List UInt8} {offset k : Nat} {byte : UInt8}
    (h : k < offset ∨ offset + 8 ≤ k) : fieldAt64 (file.set k byte) offset = fieldAt64 file offset := by
  rw [fieldAt64_eq, window_set h, fieldAt64_eq]

private theorem fieldAt32_set_ne {file : List UInt8} {offset k : Nat} {byte : UInt8} (hk : k < file.length)
    (hfile : offset + 4 ≤ file.length) (hlow : offset ≤ k) (hhigh : k < offset + 4) (hbyte : byte ≠ file[k]) :
    fieldAt32 (file.set k byte) offset ≠ fieldAt32 file offset := by
  intro h
  apply window_set_ne hk hlow hhigh hbyte
  apply joinLe32_injective
  · exact length_window (by simpa using hfile)
  · exact length_window hfile
  · exact h

/-! ### What `verify_file` accepts -/

/-- The header with a zero in place of its checksum. -/
def zeroedHeader (file : List UInt8) : List UInt8 :=
  (file.take headerBytes).take 36 ++ leBytes32 0 ++ (file.take headerBytes).drop 40

/-- The length of header and payload, as the header declares it. -/
def bodyLength (file : List UInt8) : Nat := headerBytes + (fieldAt64 file 16).toNat

/-- Every check of `verify_file` passes. -/
structure WellFramed (file : List UInt8) : Prop where
  long : headerBytes + trailerBytes ≤ file.length
  magic : file.take 8 = formatMagic
  version : fieldAt32 file 8 = formatVersion
  headerCrc : crc32 (zeroedHeader file) = fieldAt32 file 36
  total : (UInt64.ofNat headerBytes + fieldAt64 file 16 + UInt64.ofNat trailerBytes).toNat = file.length
  trailerMagic : window file (bodyLength file) 8 = formatMagic
  trailerCrc : (crc32 (file.take (bodyLength file)) ^^^ 0x5A5A5A5A) = fieldAt32 file (bodyLength file + 8)
  payloadCrc : crc32 (window file headerBytes (fieldAt64 file 16).toNat) = fieldAt32 file 32

/-- What `verify_file` returns of a file it accepts. -/
def verifiedOf (file : List UInt8) : VerifiedFile where
  formatVersion := fieldAt32 file 8
  flags := fieldAt32 file 12
  payloadBytes := fieldAt64 file 16
  recordCount := fieldAt64 file 24
  payloadCrc := fieldAt32 file 32
  semanticDigest := window file 40 32
  totalBytes := file.length
  payload := window file headerBytes (fieldAt64 file 16).toNat

theorem verifyFile_ok {file : List UInt8} {verified : VerifiedFile} :
    verifyFile file = .ok verified ↔ WellFramed file ∧ verified = verifiedOf file := by
  simp only [verifyFile, check_bind_eq_ok, rejectIf_eq_ok, not_not, Nat.not_lt, pure, Except.pure]
  constructor
  · rintro ⟨hlong, hmagic, hversion, hheader, htotal, htrailer, htrailerCrc, hpayload, h⟩
    exact ⟨⟨hlong, hmagic, hversion, hheader, htotal, htrailer, htrailerCrc, hpayload⟩, (Except.ok.inj h).symm⟩
  · rintro ⟨h, rfl⟩
    exact ⟨h.long, h.magic, h.version, h.headerCrc, h.total, h.trailerMagic, h.trailerCrc, h.payloadCrc, rfl⟩

/-- `verify_file` rejects the file. -/
def Rejected (file : List UInt8) : Prop := ∃ error, verifyFile file = .error error

theorem rejected_iff {file : List UInt8} : Rejected file ↔ ¬WellFramed file := by
  cases h : verifyFile file with
  | error error =>
    refine iff_of_true ⟨error, h⟩ fun hframed => ?_
    rw [verifyFile_ok.mpr ⟨hframed, rfl⟩] at h
    cases h
  | ok verified =>
    refine iff_of_false ?_ fun hnot => hnot (verifyFile_ok.mp h).1
    rintro ⟨error, herror⟩
    rw [h] at herror
    cases herror

theorem WellFramed.length {file : List UInt8} (h : WellFramed file) : bodyLength file + trailerBytes = file.length := by
  have htotal := h.total
  have hlong := h.long
  have hpayload := (fieldAt64 file 16).toNat_lt
  simp only [UInt64.toNat_add, UInt64.toNat_ofNat', headerBytes, trailerBytes, bodyLength] at htotal hlong ⊢
  omega

/-! ### One changed byte -/

private theorem bodyLength_set {file : List UInt8} {k : Nat} {byte : UInt8} (h : k < 16 ∨ 24 ≤ k) :
    bodyLength (file.set k byte) = bodyLength file := by
  rw [bodyLength, fieldAt64_set h, bodyLength]

/-- The checksum field itself is left out of the header checksum. -/
private theorem zeroedHeader_set_crc {file : List UInt8} {k : Nat} {byte : UInt8} (hlow : 36 ≤ k) (hhigh : k < 40) :
    zeroedHeader (file.set k byte) = zeroedHeader file := by
  simp only [zeroedHeader, List.take_set, headerBytes]
  rw [List.set_eq_of_length_le (by simp; omega), List.drop_set, if_pos hhigh]

private theorem zeroedHeader_set {file : List UInt8} {k : Nat} {byte : UInt8} (hfile : headerBytes ≤ file.length)
    (hk : k < 36 ∨ 40 ≤ k ∧ k < headerBytes) :
    zeroedHeader (file.set k byte) = (zeroedHeader file).set k byte := by
  apply List.ext_getElem?
  intro i
  simp only [zeroedHeader, headerBytes, leBytes32] at hfile hk ⊢
  simp only [List.getElem?_append, List.getElem?_set, List.getElem?_take, List.getElem?_drop, List.length_take,
    List.length_set, List.length_append, List.length_drop]
  grind

private theorem zeroedHeader_get {file : List UInt8} {k : Nat} (hfile : headerBytes ≤ file.length)
    (hk : k < 36 ∨ 40 ≤ k ∧ k < headerBytes) : (zeroedHeader file)[k]? = file[k]? := by
  simp only [zeroedHeader, headerBytes, leBytes32] at hfile hk ⊢
  simp only [List.getElem?_append, List.getElem?_take, List.getElem?_drop, List.length_take, List.length_append]
  grind

/-- A changed byte under a checksum changes the checksum. -/
private theorem crc32_set_ne {data : List UInt8} {k : Nat} {byte old : UInt8} (hold : data[k]? = some old)
    (hbyte : byte ≠ old) : crc32 (data.set k byte) ≠ crc32 data := by
  obtain ⟨hk, hget⟩ := List.getElem?_eq_some_iff.mp hold
  intro h
  exact hbyte ((crc32_set hk h).trans hget)

/-- No accepted file is turned into an accepted file by changing one byte before its last four. -/
theorem WellFramed.set_not {file : List UInt8} {k : Nat} {byte : UInt8} (h : WellFramed file)
    (hk : k + 4 < file.length) (hbyte : byte ≠ file[k]) : ¬WellFramed (file.set k byte) := by
  intro hset
  have hklength : k < file.length := by omega
  have hlength := h.length
  have hlong := h.long
  have hbody : headerBytes ≤ bodyLength file := Nat.le_add_right _ _
  have hold : file[k]? = some file[k] := List.getElem?_eq_getElem hklength
  simp only [headerBytes, trailerBytes] at hlength hlong hbody
  have hheader : k < 36 ∨ 40 ≤ k ∧ k < 72 → fieldAt32 (file.set k byte) 36 = fieldAt32 file 36 → False := by
    intro hrange hfield
    have hcrc := hset.headerCrc
    rw [hfield, ← h.headerCrc, zeroedHeader_set (by simp only [headerBytes]; omega) hrange] at hcrc
    refine crc32_set_ne ?_ hbyte hcrc
    rw [zeroedHeader_get (by simp only [headerBytes]; omega) hrange, hold]
  by_cases h8 : k < 8
  · have hmagic := hset.magic
    rw [take_eq_window, ← h.magic, take_eq_window] at hmagic
    exact window_set_ne hklength (Nat.zero_le k) (by omega) hbyte hmagic
  by_cases h12 : k < 12
  · exact fieldAt32_set_ne hklength (by omega) (by omega) h12 hbyte (hset.version.trans h.version.symm)
  by_cases h36 : k < 36
  · exact hheader (Or.inl h36) (fieldAt32_set (Or.inl h36))
  by_cases h40 : k < 40
  · have hcrc := hset.headerCrc
    rw [zeroedHeader_set_crc (by omega) h40, h.headerCrc] at hcrc
    exact fieldAt32_set_ne hklength (by omega) (by omega) h40 hbyte hcrc.symm
  by_cases h72 : k < 72
  · exact hheader (Or.inr ⟨by omega, h72⟩) (fieldAt32_set (Or.inr (by omega)))
  have hsame : bodyLength (file.set k byte) = bodyLength file := bodyLength_set (Or.inr (by omega))
  have htrailerCrc := hset.trailerCrc
  have htrailerMagic := hset.trailerMagic
  rw [hsame] at htrailerCrc htrailerMagic
  by_cases hpayload : k < bodyLength file
  · rw [fieldAt32_set (Or.inl (by omega)), ← h.trailerCrc, UInt32.xor_left_inj, List.take_set] at htrailerCrc
    refine crc32_set_ne ?_ hbyte htrailerCrc
    rw [List.getElem?_take, if_pos hpayload, hold]
  by_cases hmagic : k < bodyLength file + 8
  · exact window_set_ne hklength (by omega) hmagic hbyte (htrailerMagic.trans h.trailerMagic.symm)
  · rw [List.take_set, List.set_eq_of_length_le (by simp; omega), h.trailerCrc] at htrailerCrc
    exact fieldAt32_set_ne hklength (by omega) (by omega) (by omega) hbyte htrailerCrc.symm

/-- The last four bytes of a file are not checked. -/
theorem WellFramed.set_padding {file : List UInt8} {k : Nat} {byte : UInt8} (h : WellFramed file)
    (hk : file.length ≤ k + 4) : WellFramed (file.set k byte) := by
  have hlength := h.length
  have hlong := h.long
  have hbody : headerBytes ≤ bodyLength file := Nat.le_add_right _ _
  simp only [headerBytes, trailerBytes] at hlength hlong hbody
  have hpayload : fieldAt64 (file.set k byte) 16 = fieldAt64 file 16 := fieldAt64_set (Or.inr (by omega))
  have hsame : bodyLength (file.set k byte) = bodyLength file := bodyLength_set (Or.inr (by omega))
  have htake : ∀ count, count ≤ bodyLength file → (file.set k byte).take count = file.take count := by
    intro count hcount
    rw [List.take_set, List.set_eq_of_length_le]
    simp
    omega
  constructor
  · simpa using h.long
  · rw [htake 8 (by omega)]
    exact h.magic
  · rw [fieldAt32_set (Or.inr (by omega))]
    exact h.version
  · rw [zeroedHeader, htake headerBytes hbody, fieldAt32_set (Or.inr (by omega))]
    exact h.headerCrc
  · rw [hpayload, List.length_set]
    exact h.total
  · rw [hsame, window_set (Or.inr (by omega))]
    exact h.trailerMagic
  · rw [hsame, htake _ (Nat.le_refl _), fieldAt32_set (Or.inr (by omega))]
    exact h.trailerCrc
  · rw [hpayload, window_set (Or.inr (by simp only [bodyLength, headerBytes] at hlength ⊢; omega)),
      fieldAt32_set (Or.inr (by omega))]
    exact h.payloadCrc

/-! ### The file that `save` builds -/

@[simp] theorem length_sha256 (data : List UInt8) : (sha256 data).length = 32 := rfl

@[simp] theorem length_formatMagic : formatMagic.length = 8 := by decide +kernel

@[simp] theorem length_headerWith (payload : List UInt8) (records : Nat) (headerCrc : UInt32) :
    (headerWith payload records headerCrc).length = headerBytes := by
  simp [headerWith, headerBytes]

@[simp] theorem length_headerOf (payload : List UInt8) (records : Nat) :
    (headerOf payload records).length = headerBytes := length_headerWith _ _ _

@[simp] theorem length_trailerOf (body : List UInt8) : (trailerOf body).length = trailerBytes := by
  simp [trailerOf, trailerBytes]

theorem length_fileOf (payload : List UInt8) (records : Nat) :
    (fileOf payload records).length = headerBytes + payload.length + trailerBytes := by
  simp only [fileOf, List.length_append, length_headerOf, length_trailerOf]

/-- The header fields of a file that starts with a header. -/
private theorem header_fields (payload rest : List UInt8) (records : Nat) (headerCrc : UInt32) :
    let file := headerWith payload records headerCrc ++ rest
    file.take 8 = formatMagic ∧ fieldAt32 file 8 = formatVersion ∧ fieldAt32 file 12 = 0 ∧
      fieldAt64 file 16 = UInt64.ofNat payload.length ∧ fieldAt64 file 24 = UInt64.ofNat records ∧
      fieldAt32 file 32 = crc32 payload ∧ fieldAt32 file 36 = headerCrc ∧ window file 40 32 = sha256 payload ∧
      zeroedHeader file = headerWith payload records 0 := by
  intro file
  have hfile : file = formatMagic ++ (leBytes32 formatVersion ++ (leBytes32 0 ++
      (leBytes64 (UInt64.ofNat payload.length) ++ (leBytes64 (UInt64.ofNat records) ++ (leBytes32 (crc32 payload) ++
      (leBytes32 headerCrc ++ (sha256 payload ++ rest))))))) := by
    simp only [file, headerWith, List.flatten_cons, List.flatten_nil, List.append_assoc, List.nil_append]
  have hmagic : window file 0 8 = formatMagic := window_at (hfile.trans (List.nil_append _).symm) rfl (by simp)
  have hrest := hfile
  rw [← List.append_assoc] at hrest
  have hversion : window file 8 4 = leBytes32 formatVersion := window_at hfile (by simp) (by simp)
  have hflags : window file 12 4 = leBytes32 0 := window_at hrest (by simp) (by simp)
  rw [← List.append_assoc] at hrest
  have hlength : window file 16 8 = leBytes64 (UInt64.ofNat payload.length) := window_at hrest (by simp) (by simp)
  rw [← List.append_assoc] at hrest
  have hrecords : window file 24 8 = leBytes64 (UInt64.ofNat records) := window_at hrest (by simp) (by simp)
  rw [← List.append_assoc] at hrest
  have hcrc : window file 32 4 = leBytes32 (crc32 payload) := window_at hrest (by simp) (by simp)
  rw [← List.append_assoc] at hrest
  have hheaderCrc : window file 36 4 = leBytes32 headerCrc := window_at hrest (by simp) (by simp)
  rw [← List.append_assoc] at hrest
  have hdigest : window file 40 32 = sha256 payload := window_at hrest (by simp) (by simp)
  refine ⟨by rw [take_eq_window, hmagic], ?_, ?_, ?_, ?_, ?_, ?_, hdigest, ?_⟩
  · rw [fieldAt32_eq, hversion, joinLe32_leBytes32]
  · rw [fieldAt32_eq, hflags, joinLe32_leBytes32]
  · rw [fieldAt64_eq, hlength, joinLe64_leBytes64]
  · rw [fieldAt64_eq, hrecords, joinLe64_leBytes64]
  · rw [fieldAt32_eq, hcrc, joinLe32_leBytes32]
  · rw [fieldAt32_eq, hheaderCrc, joinLe32_leBytes32]
  · have htake : file.take headerBytes = headerWith payload records headerCrc := List.take_left' (by simp)
    have hsplit : ∀ crc, headerWith payload records crc = (formatMagic ++ leBytes32 formatVersion ++ leBytes32 0 ++
        leBytes64 (UInt64.ofNat payload.length) ++ leBytes64 (UInt64.ofNat records) ++ leBytes32 (crc32 payload)) ++
        (leBytes32 crc ++ sha256 payload) := by
      intro crc
      simp only [headerWith, List.flatten_cons, List.flatten_nil, List.append_assoc, List.append_nil]
    rw [zeroedHeader, htake, hsplit, List.take_left' (by simp), ← List.append_assoc, List.drop_left' (by simp),
      hsplit 0, List.append_assoc]

theorem fileOf_wellFramed {payload : List UInt8} {records : Nat} (hsize : (fileOf payload records).length < 2 ^ 64) :
    WellFramed (fileOf payload records) ∧
      verifiedOf (fileOf payload records) =
        { formatVersion := formatVersion, flags := 0, payloadBytes := UInt64.ofNat payload.length,
          recordCount := UInt64.ofNat records, payloadCrc := crc32 payload, semanticDigest := sha256 payload,
          totalBytes := (fileOf payload records).length, payload } := by
  have hlength := length_fileOf payload records
  rw [hlength] at hsize
  have hfile : fileOf payload records = headerWith payload records (crc32 (headerWith payload records 0)) ++
      (payload ++ trailerOf (headerOf payload records ++ payload)) := by
    simp only [fileOf, headerOf, List.append_assoc]
  obtain ⟨hmagic, hversion, hflags, hpayload, hrecords, hcrc, hheaderCrc, hdigest, hzeroed⟩ :=
    header_fields payload (payload ++ trailerOf (headerOf payload records ++ payload)) records
      (crc32 (headerWith payload records 0))
  rw [← hfile] at hmagic hversion hflags hpayload hrecords hcrc hheaderCrc hdigest hzeroed
  have hsizeNat : (UInt64.ofNat payload.length).toNat = payload.length := by
    apply UInt64.toNat_ofNat_of_lt'
    simp only [UInt64.size]
    omega
  have hbody : bodyLength (fileOf payload records) = (headerOf payload records ++ payload).length := by
    rw [bodyLength, hpayload, hsizeNat, List.length_append, length_headerOf]
  have hwindow : window (fileOf payload records) headerBytes (fieldAt64 (fileOf payload records) 16).toNat = payload := by
    rw [hpayload, hsizeNat]
    exact window_at hfile (by simp) (by simp)
  constructor
  · constructor
    · omega
    · exact hmagic
    · exact hversion
    · rw [hzeroed, hheaderCrc]
    · rw [hpayload, UInt64.toNat_add, UInt64.toNat_add, hsizeNat, hlength]
      simp only [UInt64.toNat_ofNat', headerBytes, trailerBytes] at hsize ⊢
      omega
    · rw [hbody]
      have hsplit : fileOf payload records = headerOf payload records ++ payload ++ (formatMagic ++
          (leBytes32 (crc32 (headerOf payload records ++ payload) ^^^ 0x5A5A5A5A) ++ leBytes32 0)) := by
        simp [fileOf, trailerOf]
      exact window_at hsplit rfl (by simp)
    · rw [hbody, fileOf, List.take_left, fieldAt32_eq]
      have htrailer : window (headerOf payload records ++ payload ++ trailerOf (headerOf payload records ++ payload))
          ((headerOf payload records ++ payload).length + 8) 4 =
          leBytes32 (crc32 (headerOf payload records ++ payload) ^^^ 0x5A5A5A5A) := by
        have hsplit : headerOf payload records ++ payload ++ trailerOf (headerOf payload records ++ payload) =
            headerOf payload records ++ payload ++ formatMagic ++
              (leBytes32 (crc32 (headerOf payload records ++ payload) ^^^ 0x5A5A5A5A) ++ leBytes32 0) := by
          simp [trailerOf]
        exact window_at hsplit (by simp; omega) (by simp)
      rw [htrailer, joinLe32_leBytes32]
    · rw [hwindow, hcrc]
  · rw [verifiedOf, hwindow, hversion, hflags, hrecords, hcrc, hdigest, hpayload]

/-! ### Reads inside the input -/

/-- A computation that fails with an error, or stops when it would read outside its input. -/
abbrev Guarded (α : Type) := ExceptT SchedulerError Option α

/-- `count` bytes at an address; the address is a machine word. -/
def readWithin (file : List UInt8) (offset : UInt64) (count : Nat) : Guarded (List UInt8) :=
  ExceptT.mk <|
    if offset.toNat + count ≤ file.length then some (.ok (window file offset.toNat count)) else none

/-- A check between reads. -/
def guardedReject (condition : Prop) [Decidable condition] (error : SchedulerError) : Guarded Unit :=
  ExceptT.mk (some (rejectIf condition error))

/-- `verify_file`, every read of the input checked against its end and every offset computed in 64 bits. -/
def verifyFileGuarded (file : List UInt8) : Guarded VerifiedFile := do
  guardedReject (file.length < headerBytes + trailerBytes)
    (loadError .persistenceIntegrity "" "state file is shorter than the header and trailer")
  let magic ← readWithin file 0 8
  guardedReject (magic ≠ formatMagic) (loadError .persistenceFormat "" "state file magic does not match")
  let version := joinLe32 (← readWithin file 8 4)
  guardedReject (version ≠ formatVersion)
    (loadError .persistenceUnsupportedVersion ""
      ("state file format version " ++ natText version.toNat ++ " is not supported by this build (expected "
        ++ natText formatVersion.toNat ++ ")"))
  let header ← readWithin file 0 headerBytes
  let storedHeaderCrc := joinLe32 (← readWithin header 36 4)
  guardedReject (crc32 (header.take 36 ++ leBytes32 0 ++ header.drop 40) ≠ storedHeaderCrc)
    (loadError .persistenceIntegrity "" "state file header checksum mismatch")
  let flags := joinLe32 (← readWithin file 12 4)
  let payloadBytes := joinLe64 (← readWithin file 16 8)
  let recordCount := joinLe64 (← readWithin file 24 8)
  let payloadCrc := joinLe32 (← readWithin file 32 4)
  let header := UInt64.ofNat headerBytes
  guardedReject ((header + payloadBytes + UInt64.ofNat trailerBytes).toNat ≠ file.length)
    (loadError .persistenceIntegrity ""
      "state file length does not match the declared payload length (truncation or trailing garbage)")
  let trailerMagic ← readWithin file (header + payloadBytes) 8
  guardedReject (trailerMagic ≠ formatMagic)
    (loadError .persistenceIntegrity "" "state file trailer magic does not match")
  let storedTrailerCrc := joinLe32 (← readWithin file (header + payloadBytes + 8) 4)
  let body ← readWithin file 0 (header + payloadBytes).toNat
  guardedReject ((crc32 body ^^^ 0x5A5A5A5A) ≠ storedTrailerCrc)
    (loadError .persistenceIntegrity "" "state file trailer checksum mismatch")
  let payload ← readWithin file header payloadBytes.toNat
  guardedReject (crc32 payload ≠ payloadCrc)
    (loadError .persistenceIntegrity "" "state file payload checksum mismatch")
  let semanticDigest ← readWithin file 40 32
  return { formatVersion := version, flags, payloadBytes, recordCount, payloadCrc, semanticDigest,
           totalBytes := file.length, payload }

private theorem readWithin_bind {α : Type} {file : List UInt8} {offset : UInt64} {count : Nat}
    {next : List UInt8 → Guarded α} (h : offset.toNat + count ≤ file.length) :
    readWithin file offset count >>= next = next (window file offset.toNat count) := by
  rw [readWithin, if_pos h]
  rfl

/-- A check that both versions make. -/
private theorem guarded_check {α : Type} {condition : Prop} [Decidable condition] {error : SchedulerError}
    {guarded : Unit → Guarded α} {plain : Unit → Except SchedulerError α}
    (h : ¬condition → (guarded ()).run = some (plain ())) :
    (guardedReject condition error >>= guarded).run = some (rejectIf condition error >>= plain) := by
  by_cases hcondition : condition
  · rw [guardedReject, rejectIf, if_pos hcondition]
    rfl
  · rw [guardedReject, rejectIf, if_neg hcondition]
    exact h hcondition

/-- The guarded version never stops: for no byte string does `verify_file` read outside its input. -/
theorem verifyFileGuarded_run {file : List UInt8} (hsize : file.length < 2 ^ 64) :
    (verifyFileGuarded file).run = some (verifyFile file) := by
  rw [verifyFileGuarded, verifyFile]
  refine guarded_check fun hlong => ?_
  simp only [headerBytes, trailerBytes] at hlong
  have hread : ∀ {α : Type} (offset : UInt64) (count : Nat) (next : List UInt8 → Guarded α),
      offset.toNat + count ≤ 88 → readWithin file offset count >>= next = next (window file offset.toNat count) :=
    fun _ _ _ h => readWithin_bind (by omega)
  rw [hread 0 8 _ (by decide)]
  refine guarded_check fun _ => ?_
  rw [hread 8 4 _ (by decide)]
  refine guarded_check fun _ => ?_
  rw [hread 0 headerBytes _ (by decide)]
  rw [readWithin_bind (by simp [window, headerBytes]; omega)]
  have hheaderCrc : window (window file (0 : UInt64).toNat headerBytes) (36 : UInt64).toNat 4 = window file 36 4 := by
    simp only [window, headerBytes, UInt64.toNat_ofNat, List.drop_take, List.take_take, List.drop_drop]
    rfl
  rw [hheaderCrc]
  refine guarded_check fun _ => ?_
  rw [hread 12 4 _ (by decide), hread 16 8 _ (by decide), hread 24 8 _ (by decide), hread 32 4 _ (by decide)]
  have hfield : joinLe64 (window file (16 : UInt64).toNat 8) = fieldAt64 file 16 := rfl
  rw [hfield]
  refine guarded_check fun htotal => ?_
  -- the sum is right as a 64-bit sum; with the bounds known so far it is right as it stands
  have hpayload : headerBytes + (fieldAt64 file 16).toNat + trailerBytes = file.length := by
    have hpayload := (fieldAt64 file 16).toNat_lt
    have htotal : (UInt64.ofNat headerBytes + fieldAt64 file 16 + UInt64.ofNat trailerBytes).toNat = file.length :=
      not_not.mp htotal
    simp only [UInt64.toNat_add, UInt64.toNat_ofNat', headerBytes, trailerBytes] at htotal ⊢
    omega
  simp only [headerBytes, trailerBytes] at hpayload
  have hbody : (UInt64.ofNat headerBytes + fieldAt64 file 16).toNat = 72 + (fieldAt64 file 16).toNat := by
    simp only [UInt64.toNat_add, UInt64.toNat_ofNat', headerBytes]
    omega
  have htrailer : (UInt64.ofNat headerBytes + fieldAt64 file 16 + 8).toNat = 72 + (fieldAt64 file 16).toNat + 8 := by
    rw [UInt64.toNat_add, hbody]
    simp only [UInt64.toNat_ofNat]
    omega
  rw [readWithin_bind (by omega), hbody]
  refine guarded_check fun _ => ?_
  rw [readWithin_bind (by omega), htrailer, readWithin_bind (by simp; omega)]
  refine guarded_check fun _ => ?_
  rw [readWithin_bind (by simp [headerBytes]; omega)]
  refine guarded_check fun _ => ?_
  rw [hread 40 32 _ (by decide)]
  rfl

/-! ### Framing -/

/-- A file is as long as its own header says: neither a cut nor a longer file with the same length field is
accepted. -/
private theorem WellFramed.length_unique {file other : List UInt8} (h : WellFramed file) (hother : WellFramed other)
    (hfield : window other 16 8 = window file 16 8) : other.length = file.length := by
  rw [← h.length, ← hother.length, bodyLength, bodyLength, fieldAt64, fieldAt64]
  unfold window at hfield
  rw [hfield]

theorem WellFramed.take_rejected {file : List UInt8} {k : Nat} (h : WellFramed file) (hk : k < file.length) :
    Rejected (file.take k) := by
  rw [rejected_iff]
  intro hcut
  have hlong := hcut.long
  rw [List.length_take, headerBytes, trailerBytes] at hlong
  have hfield : window (file.take k) 16 8 = window file 16 8 := by
    rw [window, window, List.drop_take, List.take_take, Nat.min_eq_left (by omega)]
  have hlength := h.length_unique hcut hfield
  rw [List.length_take] at hlength
  omega

theorem WellFramed.append_rejected {file extra : List UInt8} (h : WellFramed file) (hextra : extra ≠ []) :
    Rejected (file ++ extra) := by
  rw [rejected_iff]
  intro hlonger
  have hlong := h.long
  rw [headerBytes, trailerBytes] at hlong
  have hfield : window (file ++ extra) 16 8 = window file 16 8 := by
    rw [window, window, List.drop_append_of_le_length (by omega), List.take_append_of_le_length (by simp; omega)]
  have hlength := h.length_unique hlonger hfield
  rw [List.length_append] at hlength
  exact hextra (List.length_eq_zero_iff.mp (by omega))

/-- The container of a payload is read back exactly, and no other length of it is accepted. -/
structure FramesExactly (payload : List UInt8) (records : UInt64) : Prop where
  accepted : ∃ verified, verifyFile (fileOf payload records.toNat) = .ok verified ∧
    verified.payload = payload ∧ verified.payloadBytes.toNat = payload.length ∧ verified.recordCount = records ∧
    verified.payloadCrc = crc32 payload ∧ verified.semanticDigest = sha256 payload ∧
    verified.totalBytes = (fileOf payload records.toNat).length
  cut : ∀ k < (fileOf payload records.toNat).length, Rejected ((fileOf payload records.toNat).take k)
  extended : ∀ extra ≠ [], Rejected (fileOf payload records.toNat ++ extra)

/-- The container is framed exactly, and on every byte string the reads of `verify_file` stay inside it. -/
theorem container_framing {payload file : List UInt8} {records : UInt64}
    (hsize : (fileOf payload records.toNat).length < 2 ^ 64) (hfile : file.length < 2 ^ 64) :
    FramesExactly payload records ∧ (verifyFileGuarded file).run = some (verifyFile file) := by
  obtain ⟨hframed, hverified⟩ := fileOf_wellFramed hsize
  refine ⟨⟨⟨_, verifyFile_ok.mpr ⟨hframed, rfl⟩, ?_⟩, ?_, ?_⟩, verifyFileGuarded_run hfile⟩
  · rw [hverified]
    have hpayload : (UInt64.ofNat payload.length).toNat = payload.length := by
      rw [length_fileOf] at hsize
      apply UInt64.toNat_ofNat_of_lt'
      simp only [UInt64.size]
      omega
    exact ⟨rfl, hpayload, UInt64.ofNat_toNat, rfl, rfl, rfl⟩
  · intro k hk
    exact hframed.take_rejected hk
  · intro extra hextra
    exact hframed.append_rejected hextra

theorem container_framing_sample :
    FramesExactly [7, 9] 3 ∧ (verifyFileGuarded (List.replicate 90 255)).run = some (verifyFile (List.replicate 90 255)) := by
  apply container_framing
  · rw [length_fileOf]
    decide
  · rw [List.length_replicate]
    decide

/-! ### Corruption -/

/-- The file is rejected, and loading it fails and leaves the scheduler as it is. -/
def Detected (file : List UInt8) : Prop :=
  Rejected file ∧ ∀ (impl : Impl) (path : Text) (options : LoadOptions),
    (∃ error, (load impl path options file).1 = .error error) ∧ (load impl path options file).2 = impl

private theorem detected_iff {file : List UInt8} : Detected file ↔ Rejected file := by
  refine ⟨And.left, fun hrejected => ⟨hrejected, ?_⟩⟩
  intro impl path options
  obtain ⟨error, herror⟩ := hrejected
  have hdecode : ∃ error, decodeFile impl.limits path options file = .error error := by
    rw [decodeFile, herror]
    by_cases hbytes : impl.limits.maxPersistenceBytes.toNat < file.length
    · exact ⟨_, by rw [rejectIf, if_pos hbytes]; rfl⟩
    · exact ⟨_, by rw [rejectIf, if_neg hbytes]; rfl⟩
  obtain ⟨failure, hfailure⟩ := hdecode
  rw [load, hfailure]
  split
  · exact ⟨⟨_, rfl⟩, rfl⟩
  · exact ⟨⟨_, rfl⟩, rfl⟩

/-- A changed byte of a saved file is detected exactly when it lies before the four bytes of padding at the end. -/
theorem corruption_detected {payload : List UInt8} {records offset : Nat} {byte : UInt8}
    (hsize : (fileOf payload records).length < 2 ^ 64) (hoffset : offset < (fileOf payload records).length)
    (hbyte : byte ≠ (fileOf payload records)[offset]) :
    Detected ((fileOf payload records).set offset byte) ↔ offset + 4 < (fileOf payload records).length := by
  have hframed := (fileOf_wellFramed hsize).1
  rw [detected_iff, rejected_iff]
  constructor
  · intro hnot
    by_contra hpadding
    exact hnot (hframed.set_padding (Nat.le_of_not_lt hpadding))
  · intro hk
    exact hframed.set_not hk hbyte

theorem corruption_detected_sample : Detected ((fileOf [7, 9] 3).set 73 8) := by
  refine (corruption_detected ?_ ?_ ?_).mpr ?_
  · rw [length_fileOf]
    decide
  · rw [length_fileOf]
    decide
  · decide +kernel
  · rw [length_fileOf]
    decide

/-- The padding after the trailer checksum is written and never read. -/
theorem not_corruption_detected :
    ¬∀ (payload : List UInt8) (records offset : Nat) (byte : UInt8) (hoffset : offset < (fileOf payload records).length),
      (fileOf payload records).length < 2 ^ 64 → byte ≠ (fileOf payload records)[offset] →
        Detected ((fileOf payload records).set offset byte) := by
  intro h
  have hlength : (fileOf [] 0).length = 88 := length_fileOf [] 0
  have hsize : (fileOf [] 0).length < 2 ^ 64 := by omega
  have hold : (fileOf [] 0)[84]? = some 0 := by decide +kernel
  have hbyte : (1 : UInt8) ≠ (fileOf [] 0).get ⟨84, by omega⟩ := by
    rw [List.get_eq_getElem, (List.getElem?_eq_some_iff.mp hold).2]
    decide
  have hdetected := h [] 0 84 1 (by omega) hsize hbyte
  have hframed := (fileOf_wellFramed hsize).1
  exact rejected_iff.mp hdetected.1 (hframed.set_padding (by omega))

end AgentScheduler
