import AgentScheduler.SavedState
import AgentScheduler.JsonOutput

/-! Saving and loading through a file system, as `persistence_io.cpp` does: temporary files, replacement by renaming, and
what concurrent calls, failures, the death of the process and the loss of power leave behind. -/
namespace AgentScheduler
open Relation Utf8

/-! ### The model -/

structure PersistOptions where
  fsync : Bool := true
  verifyAfterWrite : Bool := true
  maxBytes : UInt64 := 0

/-- `temporaryName path nonce serial`: the path with what `temp_suffix` returns. -/
def temporaryName (path : Text) (nonce serial : UInt64) : Text :=
  path ++ (".tmp-" : Text) ++ natText nonce.toNat ++ ("-" : Text) ++ natText serial.toNat

/-- The name of some temporary file. -/
def TemporaryName (name : Text) : Prop := ∃ path nonce serial, name = temporaryName path nonce serial

def saveError (code : ErrorCode) (subject detail : Text) : SchedulerError :=
  makeError code "save" subject detail .rejectInvalidRequest

/-- The bytes of a file, and whether they are on stable storage. -/
structure FileData where
  bytes : List UInt8
  synced : Bool

/-- How far `read_all` has got. -/
inductive ReadStage
  | sizing
  | opening (size : Nat)
  | reading (size file : Nat)
  | returned (result : Except SchedulerError (List UInt8))

/-- A call of `save`, by the order of the calls, and what it writes. -/
structure SaveCall where
  number : Nat
  impl : Impl
  path : Text
  options : PersistOptions
  bytes : List UInt8

inductive SaveResult
  | success
  | failure (error : SchedulerError)
  | thrown

/-- How far `write_atomically` has got. -/
inductive SaveStage
  | checking
  | naming
  | opening
  | writing (file written : Nat)
  | verifying (stage : ReadStage)
  | replacing
  | removing (error : SchedulerError)
  | returned (result : SaveResult)

structure SaveRun where
  call : SaveCall
  temporary : Option Text := none
  stage : SaveStage

/-- A call of `load` that is reading its file, and how many files had been replaced when it was made. -/
structure LoadRun where
  path : Text
  maxBytes : UInt64
  since : Nat
  stage : ReadStage := .sizing

/-- A directory, and the saves that have led to it by replacing a file, in order. -/
structure Moment where
  names : Text → Option Nat
  puts : List SaveCall := []

/-- A file system and the calls of one process on it. A directory of `past` may come back when the power fails. -/
structure Disk where
  /-- what is written is what is stored -/
  faultless : Bool := true
  files : List FileData
  current : Moment
  past : List Moment := []
  saves : List SaveRun := []
  loads : List LoadRun := []
  counter : UInt64 := 0
  calls : Nat := 0
  /-- how many temporary names have been given out, by any process -/
  named : Nat := 0
  powerLost : Bool := false

/-- One step of a call, with what the operating system answers, or of the environment. -/
inductive DiskAction
  | save (impl : Impl) (path : Text) (options : PersistOptions)
  | checkDirectory (save : Nat) (present : Bool)
  | nameTemporary (save : Nat) (nonce : UInt64)
  | openTemporary (save : Nat) (opened : Bool)
  | write (save : Nat) (stored : List UInt8)
  | close (save : Nat) (flushed closed : Bool)
  | reread (save : Nat) (failure : Option Text)
  | replace (save : Nat) (failure : Option Text)
  | remove (save : Nat) (removed : Bool)
  | load (path : Text) (maxBytes : UInt64)
  | read (load : Nat) (failure : Option Text)
  | die
  | losePower (kept : Nat) (contents : Nat → List UInt8)

namespace Disk

/-- What a file holds. -/
def fileBytes (disk : Disk) (file : Nat) : Option (List UInt8) := disk.files[file]?.map FileData.bytes

/-- What the file of a name holds. -/
def bytesAt (disk : Disk) (path : Text) : Option (List UInt8) := (disk.current.names path).bind disk.fileBytes

/-- Another directory. -/
def enter (disk : Disk) (moment : Moment) : Disk := { disk with current := moment, past := disk.current :: disk.past }

/-- The steps of `read_all`; `failure` is the message of a system call that fails. -/
def readAll (disk : Disk) (path : Text) (maxBytes : Nat) (failure : Option Text) : ReadStage → Option ReadStage
  | .sizing =>
    match failure with
    | some message => some (.returned (.error (loadError .persistenceIo path ("cannot stat state file: " ++ message))))
    | none =>
      (disk.bytesAt path).map fun bytes =>
        if maxBytes < bytes.length then
          .returned (.error (loadError .limitExceeded path "state file exceeds the configured persistence byte limit"))
        else .opening bytes.length
  | .opening size =>
    match failure with
    | some _ => some (.returned (.error (loadError .persistenceIo path "cannot open state file for reading")))
    | none => (disk.current.names path).map fun file => .reading size file
  | .reading size file =>
    (disk.fileBytes file).map fun bytes =>
      if failure.isSome ∨ bytes.length < size then
        .returned (.error (loadError .persistenceIo path "short read while loading state file"))
      else .returned (.ok (bytes.take size))
  | .returned _ => none

/-- What `write_atomically` does with the bytes it has read again. -/
def afterReread (call : SaveCall) : Except SchedulerError (List UInt8) → SaveStage
  | .error error => .removing error
  | .ok reread =>
    if reread ≠ call.bytes then
      .removing (saveError .persistenceIntegrity call.path "re-read state file does not match the bytes written")
    else
      match verifyFile reread with
      | .error error => .removing error
      | .ok _ => .replacing

/-- `AgentScheduler::save` up to `write_atomically`. -/
def begin (disk : Disk) (impl : Impl) (path : Text) (options : PersistOptions) : Disk :=
  let call (bytes : List UInt8) : SaveCall := { number := disk.calls, impl, path, options, bytes }
  let run : SaveRun :=
    match saveFile impl path options.maxBytes with
    | .error (.thrown _) => { call := call [], stage := .returned .thrown }
    | .error (.failed error) => { call := call [], stage := .returned (.failure error) }
    | .ok bytes => { call := call bytes, stage := .checking }
  { disk with saves := disk.saves ++ [run], calls := disk.calls + 1 }

/-- The next step of a save. -/
def advance (disk : Disk) (index : Nat) (save : SaveRun) : DiskAction → Option Disk
  | .checkDirectory _ present =>
    match save.stage with
    | .checking =>
      if present then some { disk with saves := disk.saves.set index { save with stage := .naming } }
      else some { disk with saves := disk.saves.set index { save with
        stage := .returned (.failure (saveError .persistenceIo save.call.path "destination directory does not exist")) } }
    | _ => none
  | .nameTemporary _ nonce =>
    match save.stage with
    | .naming =>
      some { disk with
        counter := disk.counter + 1
        named := disk.named + 1
        saves := disk.saves.set index { save with
          temporary := some (temporaryName save.call.path nonce disk.counter), stage := .opening } }
    | _ => none
  | .openTemporary _ opened =>
    match save.stage, save.temporary with
    | .opening, some temporary =>
      if opened then
        match disk.current.names temporary with
        -- a file of that name is truncated
        | some file =>
          some { disk with
            files := disk.files.set file ⟨[], false⟩
            saves := disk.saves.set index { save with stage := .writing file 0 } }
        | none =>
          some { disk.enter { disk.current with
              names := Function.update disk.current.names temporary (some disk.files.length) } with
            files := disk.files ++ [⟨[], false⟩]
            saves := disk.saves.set index { save with stage := .writing disk.files.length 0 } }
      else some { disk with saves := disk.saves.set index { save with
        temporary := none
        stage := .returned (.failure (saveError .persistenceIo save.call.path "cannot open temporary state file for writing")) } }
    | _, _ => none
  | .write _ stored =>
    match save.stage with
    | .writing file written =>
      let chunk := (save.call.bytes.drop written).take stored.length
      if stored.length = chunk.length ∧ (disk.faultless → stored = chunk) then
        some { disk with
          files := disk.files.modify file fun data => ⟨data.bytes ++ stored, false⟩
          saves := disk.saves.set index { save with stage := .writing file (written + stored.length) } }
      else none
    | _ => none
  | .close _ flushed closed =>
    match save.stage with
    | .writing file written =>
      if written = save.call.bytes.length ∧ (save.call.options.fsync → flushed) ∧ closed then
        some { disk with
          files := disk.files.modify file fun data => { data with synced := save.call.options.fsync }
          saves := disk.saves.set index { save with
            stage := if save.call.options.verifyAfterWrite then .verifying .sizing else .replacing } }
      else some { disk with saves := disk.saves.set index { save with
        stage := .removing (saveError .persistenceIo save.call.path
          "failed while writing or flushing the temporary state file") } }
    | _ => none
  | .reread _ failure =>
    match save.stage, save.temporary with
    | .verifying stage, some temporary =>
      (disk.readAll temporary (save.call.bytes.length + 1) failure stage).map fun after =>
        { disk with saves := disk.saves.set index { save with
          stage := match after with
            | .returned result => afterReread save.call result
            | stage => .verifying stage } }
    | _, _ => none
  | .replace _ failure =>
    match save.stage, save.temporary with
    | .replacing, some temporary =>
      match failure with
      | some message =>
        some { disk with saves := disk.saves.set index { save with
          stage := .removing (saveError .persistenceIo save.call.path ("atomic replacement failed: " ++ message)) } }
      | none =>
        (disk.current.names temporary).map fun file =>
          { disk.enter {
              names := Function.update (Function.update disk.current.names temporary none) save.call.path (some file)
              puts := disk.current.puts ++ [save.call] } with
            saves := disk.saves.set index { save with stage := .returned .success } }
    | _, _ => none
  | .remove _ removed =>
    match save.stage, save.temporary with
    | .removing error, some temporary =>
      if removed then
        some { disk.enter { disk.current with names := Function.update disk.current.names temporary none } with
          saves := disk.saves.set index { save with stage := .returned (.failure error) } }
      -- the overload of `remove` that throws
      else some { disk with saves := disk.saves.set index { save with stage := .returned .thrown } }
    | _, _ => none
  | _ => none

/-- The save a step is of. -/
def target : DiskAction → Option Nat
  | .checkDirectory save _ | .nameTemporary save _ | .openTemporary save _ | .write save _ | .close save _ _
  | .reread save _ | .replace save _ | .remove save _ => some save
  | .save .. | .load .. | .read .. | .die | .losePower .. => none

def step (disk : Disk) : DiskAction → Option Disk
  | .save impl path options => some (disk.begin impl path options)
  | .load path maxBytes =>
    some { disk with loads := disk.loads ++ [{ path, maxBytes, since := disk.current.puts.length }] }
  | .read load failure =>
    disk.loads[load]?.bind fun run =>
      (disk.readAll run.path run.maxBytes.toNat failure run.stage).map fun stage =>
        { disk with loads := disk.loads.set load { run with stage } }
  | .die => some { disk with saves := [], loads := [], counter := 0 }
  -- an earlier directory comes back, and what was not on stable storage is lost
  | .losePower kept contents =>
    ((disk.current :: disk.past).drop kept).head?.map fun moment =>
      { disk with
        files := disk.files.mapIdx fun file data => if data.synced then data else ⟨contents file, true⟩
        current := moment
        past := []
        saves := []
        loads := []
        counter := 0
        powerLost := true }
  | action => (target action).bind fun index => disk.saves[index]?.bind fun save => disk.advance index save action

/-- A step that is not a save to a name of a temporary file. -/
def Plain : DiskAction → Prop
  | .save _ path _ => ¬TemporaryName path
  | _ => True

def Steps (disk after : Disk) : Prop := ∃ action, Plain action ∧ disk.step action = some after

def Reaches : Disk → Disk → Prop := ReflTransGen Steps

/-- A file system before any save: its names are of different files, all on stable storage. -/
structure Fresh (disk : Disk) : Prop where
  past : disk.past = []
  puts : disk.current.puts = []
  saves : disk.saves = []
  loads : disk.loads = []
  counter : disk.counter = 0
  injective : ∀ name other file, disk.current.names name = some file → disk.current.names other = some file → name = other
  bounded : ∀ name file, disk.current.names name = some file → file < disk.files.length
  synced : ∀ data ∈ disk.files, data.synced

end Disk

/-! ### Temporary names -/

theorem bytes_natText (n : Nat) : (natText n).bytes = encode (Nat.toDigits 10 n) := by
  rw [natText, Text.bytes_coe, show toString n = Nat.repr n from rfl, Nat.toList_repr]

/-- A decimal count has no hyphen. -/
theorem mem_natText {n : Nat} {byte : UInt8} (h : byte ∈ (natText n).bytes) : byte ≠ 0x2D := by
  rw [bytes_natText, encode, List.mem_flatMap] at h
  obtain ⟨digit, hdigit, hbyte⟩ := h
  have hrange := Nat.isDigit_of_mem_toDigits (by omega) (by omega) hdigit
  rw [Char.isDigit, Bool.and_eq_true, decide_eq_true_eq, decide_eq_true_eq] at hrange
  have hlow : 48 ≤ digit.toNat := UInt32.le_iff_toNat_le.mp hrange.1
  have hhigh : digit.toNat ≤ 57 := UInt32.le_iff_toNat_le.mp hrange.2
  have hencodes := encodes_utf8EncodeChar digit
  generalize String.utf8EncodeChar digit = bytes at hencodes hbyte
  cases hencodes with
  | one hrange hvalue =>
    rw [List.mem_singleton] at hbyte
    rintro rfl
    rw [← hbyte] at hvalue
    change 45 = _ at hvalue
    omega
  | two => omega
  | three => omega
  | four => omega

theorem natText_injective {n m : Nat} (h : natText n = natText m) : n = m := by
  apply Nat.repr_injective
  apply String.toList_injective
  rw [Nat.toList_repr, Nat.toList_repr]
  apply encode_injective
  rw [← bytes_natText, ← bytes_natText, h]

theorem bytes_temporaryName (path : Text) (nonce serial : UInt64) :
    ∃ front, (temporaryName path nonce serial).bytes = front ++ 0x2D :: (natText serial.toNat).bytes := by
  refine ⟨(path ++ (".tmp-" : Text) ++ natText nonce.toNat).bytes, ?_⟩
  rw [temporaryName, Text.bytes_append, Text.bytes_append, Text.bytes_coe, List.append_assoc]
  rfl

/-- What follows the last of a byte is determined. -/
theorem suffix_unique {α : Type*} {mark : α} {front front' suffix suffix' : List α}
    (h : front ++ mark :: suffix = front' ++ mark :: suffix') (hsuffix : mark ∉ suffix) (hsuffix' : mark ∉ suffix') :
    suffix = suffix' := by
  have hend {left right middle : List α} (h : mark :: left = middle ++ mark :: right) (hleft : mark ∉ left) :
      left = right := by
    cases middle with
    | nil => exact (List.cons.inj h).2
    | cons first middle =>
      rw [(List.cons.inj h).2] at hleft
      exact absurd (List.mem_append_right middle List.mem_cons_self) hleft
  obtain ⟨middle, -, hright⟩ | ⟨middle, -, hright⟩ := List.append_eq_append_iff.mp h
  · exact hend hright hsuffix
  · exact (hend hright hsuffix').symm

/-- Names with different serials are different. -/
theorem temporaryName_serial {path other : Text} {nonce nonce' serial serial' : UInt64}
    (h : temporaryName path nonce serial = temporaryName other nonce' serial') : serial = serial' := by
  obtain ⟨front, hfront⟩ := bytes_temporaryName path nonce serial
  obtain ⟨front', hfront'⟩ := bytes_temporaryName other nonce' serial'
  rw [← h, hfront] at hfront'
  have hsame := suffix_unique hfront' (fun hmem => mem_natText hmem rfl) (fun hmem => mem_natText hmem rfl)
  apply UInt64.toNat_inj.mp
  apply natText_injective
  generalize natText serial.toNat = left at hsame
  generalize natText serial'.toNat = right at hsame
  cases left
  cases right
  exact congrArg Text.mk hsame

theorem mem_temporaryName {name : Text} (h : TemporaryName name) : 0x2D ∈ name.bytes := by
  obtain ⟨path, nonce, serial, rfl⟩ := h
  obtain ⟨front, hfront⟩ := bytes_temporaryName path nonce serial
  rw [hfront]
  exact List.mem_append_right _ List.mem_cons_self

/-! ### What a directory shows -/

/-- The last of the saves to a path. -/
def latest (puts : List SaveCall) (path : Text) : Option SaveCall :=
  (puts.filter fun call => call.path = path).getLast?

theorem latest_append (puts : List SaveCall) (call : SaveCall) (path : Text) :
    latest (puts ++ [call]) path = if call.path = path then some call else latest puts path := by
  rw [latest, List.filter_append]
  by_cases h : call.path = path
  · rw [if_pos h, List.filter_singleton, decide_eq_true h, cond_true, List.getLast?_concat]
  · rw [if_neg h, List.filter_singleton, decide_eq_false h, cond_false, List.append_nil, latest]

theorem latest_mem {puts : List SaveCall} {path : Text} {call : SaveCall} (h : latest puts path = some call) :
    call ∈ puts ∧ call.path = path := by
  have hmem := List.mem_of_getLast? h
  rw [List.mem_filter, decide_eq_true_eq] at hmem
  exact hmem

namespace Disk

variable {start disk after : Disk} {moment : Moment} {call : SaveCall} {save next : SaveRun}

/-- The directories that may be found. -/
def moments (disk : Disk) : List Moment := disk.current :: disk.past

/-- The file system keeps what the save has written: the writes were good or were read again, and no power was lost that
the file had not been flushed for. -/
def Kept (disk : Disk) (call : SaveCall) : Prop :=
  (disk.faultless ∨ call.options.verifyAfterWrite) ∧ (call.options.fsync ∨ disk.powerLost = false)

/-- A directory has for a name what the latest save to it has put there, or what was there at first. -/
def Shows (start disk : Disk) (moment : Moment) (path : Text) : Prop :=
  match latest moment.puts path with
  | none =>
    moment.names path = start.current.names path ∧
      ∀ file, moment.names path = some file → disk.files[file]? = start.files[file]?
  | some call =>
    ∃ file data, moment.names path = some file ∧ disk.files[file]? = some data ∧
      (disk.Kept call → data.bytes = call.bytes) ∧ (call.options.fsync → data.synced)

/-- What holds of every directory that may be found. -/
structure Intact (start disk : Disk) (moment : Moment) : Prop where
  injective : ∀ name other file, moment.names name = some file → moment.names other = some file → name = other
  bounded : ∀ name file, moment.names name = some file → file < disk.files.length
  shows : ∀ path, ¬TemporaryName path → Shows start disk moment path
  calls : ∀ call ∈ moment.puts, call.number < disk.calls ∧
    saveFile call.impl call.path call.options.maxBytes = .ok call.bytes
  once : (moment.puts.map SaveCall.number).Nodup

/-- A directory stays as it is when only files without a lasting name change. -/
theorem Intact.frame (h : Intact start disk moment) (hlength : disk.files.length ≤ after.files.length)
    (hfiles : ∀ path file, ¬TemporaryName path → moment.names path = some file → after.files[file]? = disk.files[file]?)
    (hcalls : disk.calls ≤ after.calls) (hfaultless : after.faultless = disk.faultless)
    (hpower : after.powerLost = disk.powerLost) : Intact start after moment where
  injective := h.injective
  bounded name file hname := Nat.lt_of_lt_of_le (h.bounded name file hname) hlength
  shows := by
    intro path hpath
    have hshows := h.shows path hpath
    rw [Shows] at hshows ⊢
    cases hlatest : latest moment.puts path with
    | none =>
      rw [hlatest] at hshows
      exact ⟨hshows.1, fun file hname => (hfiles path file hpath hname).trans (hshows.2 file hname)⟩
    | some call =>
      rw [hlatest] at hshows
      obtain ⟨file, data, hname, hdata, hbytes, hsynced⟩ := hshows
      refine ⟨file, data, hname, (hfiles path file hpath hname).trans hdata, fun hkept => hbytes ?_, hsynced⟩
      rwa [Kept, hfaultless, hpower] at hkept
  calls call hcall := ⟨Nat.lt_of_lt_of_le (h.calls call hcall).1 hcalls, (h.calls call hcall).2⟩
  once := h.once

/-- A lasting name of a directory is not of a file that a later one has a temporary name for. -/
def Precedes (newer older : Moment) : Prop :=
  ∀ path temporary file, ¬TemporaryName path → TemporaryName temporary → older.names path = some file →
    newer.names temporary ≠ some file

/-! ### What the calls hold -/

/-- How far reading a file again has got. -/
def ReadsBack (file : Nat) (data : FileData) : ReadStage → Prop
  | .sizing => True
  | .opening size => size = data.bytes.length
  | .reading size opened => size = data.bytes.length ∧ opened = file
  | .returned _ => False

/-- What holds of the temporary file of a save. -/
def StageHolds (disk : Disk) (call : SaveCall) (temporary : Text) : SaveStage → Prop
  | .checking | .naming => False
  | .opening => True
  | .writing file written =>
    disk.current.names temporary = some file ∧ ∃ data, disk.files[file]? = some data ∧ written ≤ call.bytes.length ∧
      (disk.faultless → data.bytes = call.bytes.take written)
  | .verifying stage =>
    ∃ file data, disk.current.names temporary = some file ∧ disk.files[file]? = some data ∧
      (disk.faultless → data.bytes = call.bytes) ∧ (call.options.fsync → data.synced) ∧ ReadsBack file data stage
  | .replacing =>
    ∃ file data, disk.current.names temporary = some file ∧ disk.files[file]? = some data ∧
      (disk.faultless ∨ call.options.verifyAfterWrite → data.bytes = call.bytes) ∧ (call.options.fsync → data.synced)
  | .removing _ => ∃ file, disk.current.names temporary = some file
  | .returned .success | .returned (.failure _) => disk.current.names temporary = none
  | .returned .thrown => True

/-- A save without a temporary file has not opened one. -/
def Early : SaveStage → Prop
  | .checking | .naming | .returned (.failure _) | .returned .thrown => True
  | .opening | .writing _ _ | .verifying _ | .replacing | .removing _ | .returned .success => False

def SaveHolds (disk : Disk) (save : SaveRun) : Prop :=
  match save.temporary with
  | none => Early save.stage
  | some temporary => StageHolds disk save.call temporary save.stage

/-- What holds of every save that is in progress or has returned. -/
structure Saves (disk : Disk) (save : SaveRun) : Prop where
  number : save.call.number < disk.calls
  plain : ¬TemporaryName save.call.path
  encoded : (∃ result, save.stage = .returned result) ∨
    saveFile save.call.impl save.call.path save.call.options.maxBytes = .ok save.call.bytes
  suffix : ∀ temporary, save.temporary = some temporary → ∃ nonce serial,
    temporary = temporaryName save.call.path nonce serial ∧ serial.toNat < disk.counter.toNat
  holds : SaveHolds disk save
  put : save.stage = .returned .success → save.call ∈ disk.current.puts
  unput : save.stage ≠ .returned .success → ∀ put ∈ disk.current.puts, put.number ≠ save.call.number

theorem Saves.temporaryName (h : Saves disk save) {temporary : Text} (htemporary : save.temporary = some temporary) :
    TemporaryName temporary := by
  obtain ⟨nonce, serial, hname, -⟩ := h.suffix temporary htemporary
  exact ⟨_, nonce, serial, hname⟩

theorem StageHolds.frame {temporary : Text} {stage : SaveStage} (h : StageHolds disk call temporary stage)
    (hnames : after.current.names temporary = disk.current.names temporary)
    (hfiles : ∀ file, disk.current.names temporary = some file → after.files[file]? = disk.files[file]?)
    (hfaultless : after.faultless = disk.faultless) : StageHolds after call temporary stage := by
  cases stage with
  | checking => exact h
  | naming => exact h
  | opening => exact h
  | writing file written =>
    obtain ⟨hname, data, hdata, hwritten, hbytes⟩ := h
    exact ⟨hnames.trans hname, data, (hfiles file hname).trans hdata, hwritten, by rwa [hfaultless]⟩
  | verifying stage =>
    obtain ⟨file, data, hname, hdata, hbytes, hrest⟩ := h
    exact ⟨file, data, hnames.trans hname, (hfiles file hname).trans hdata, by rwa [hfaultless], hrest⟩
  | replacing =>
    obtain ⟨file, data, hname, hdata, hbytes, hrest⟩ := h
    exact ⟨file, data, hnames.trans hname, (hfiles file hname).trans hdata, by rwa [hfaultless], hrest⟩
  | removing error =>
    obtain ⟨file, hname⟩ := h
    exact ⟨file, hnames.trans hname⟩
  | returned result =>
    cases result with
    | success => exact hnames.trans h
    | failure error => exact hnames.trans h
    | thrown => exact h

/-- A save is not concerned by what leaves its file and its names alone. -/
theorem Saves.frame (h : Saves disk save) (hcalls : disk.calls ≤ after.calls)
    (hcounter : disk.counter.toNat ≤ after.counter.toNat)
    (hnames : ∀ temporary, save.temporary = some temporary →
      after.current.names temporary = disk.current.names temporary)
    (hfiles : ∀ temporary file, save.temporary = some temporary → disk.current.names temporary = some file →
      after.files[file]? = disk.files[file]?)
    (hfaultless : after.faultless = disk.faultless) (hkept : disk.current.puts <+: after.current.puts)
    (hputs : ∀ put ∈ after.current.puts, put ∈ disk.current.puts ∨ put.number ≠ save.call.number) :
    Saves after save where
  number := Nat.lt_of_lt_of_le h.number hcalls
  plain := h.plain
  encoded := h.encoded
  suffix := by
    intro temporary htemporary
    obtain ⟨nonce, serial, hname, hserial⟩ := h.suffix temporary htemporary
    exact ⟨nonce, serial, hname, Nat.lt_of_lt_of_le hserial hcounter⟩
  holds := by
    have hholds := h.holds
    rw [SaveHolds] at hholds ⊢
    cases htemporary : save.temporary with
    | none =>
      rw [htemporary] at hholds
      exact hholds
    | some temporary =>
      rw [htemporary] at hholds
      exact hholds.frame (hnames temporary htemporary) (fun file => hfiles temporary file htemporary) hfaultless
  put hstage := hkept.subset (h.put hstage)
  unput hstage put hput := (hputs put hput).elim (h.unput hstage put) id

/-- What a load that has read its file returns was its content at some moment since the load began. -/
def LoadHolds (start disk : Disk) (load : LoadRun) : ReadStage → Prop
  | .sizing | .opening _ | .returned (.error _) => True
  | .reading _ file =>
    ∃ moment ∈ disk.moments, load.since ≤ moment.puts.length ∧ moment.puts <+: disk.current.puts ∧
      moment.names load.path = some file
  | .returned (.ok bytes) =>
    ∃ puts, puts <+: disk.current.puts ∧ load.since ≤ puts.length ∧
      match latest puts load.path with
      | none => ∃ whole, start.bytesAt load.path = some whole ∧ bytes <+: whole
      | some call => disk.Kept call → bytes <+: call.bytes

structure Loads (start disk : Disk) (load : LoadRun) : Prop where
  since : load.since ≤ disk.current.puts.length
  holds : ¬TemporaryName load.path → LoadHolds start disk load load.stage

theorem Loads.frame {load : LoadRun} (h : Loads start disk load) (hmoments : ∀ moment ∈ disk.moments, moment ∈ after.moments)
    (hkept : disk.current.puts <+: after.current.puts) (hfaultless : after.faultless = disk.faultless)
    (hpower : after.powerLost = disk.powerLost) : Loads start after load where
  since := Nat.le_trans h.since hkept.length_le
  holds := by
    intro hpath
    have hholds := h.holds hpath
    cases hstage : load.stage with
    | sizing => trivial
    | opening size => trivial
    | reading size file =>
      rw [hstage] at hholds
      obtain ⟨moment, hmem, hsince, hputs, hname⟩ := hholds
      exact ⟨moment, hmoments moment hmem, hsince, hputs.trans hkept, hname⟩
    | returned result =>
      rw [hstage] at hholds
      cases result with
      | error error => trivial
      | ok bytes =>
        obtain ⟨puts, hputs, hsince, hbytes⟩ := hholds
        refine ⟨puts, hputs.trans hkept, hsince, ?_⟩
        cases hlatest : latest puts load.path with
        | none =>
          rw [hlatest] at hbytes
          exact hbytes
        | some call =>
          rw [hlatest] at hbytes
          simp only [Kept, hfaultless, hpower]
          exact hbytes

/-! ### What every reachable file system satisfies -/

structure Valid (start disk : Disk) : Prop where
  moments : ∀ moment ∈ disk.moments, Intact start disk moment
  ordered : disk.moments.Pairwise Precedes
  saves : ∀ (index : Nat) save, disk.saves[index]? = some save → Saves disk save
  apart : ∀ (index other : Nat) save run, disk.saves[index]? = some save → disk.saves[other]? = some run →
    (save.call.number = run.call.number ∨ ∃ temporary, save.temporary = some temporary ∧ run.temporary = some temporary) →
    index = other
  counter : disk.counter.toNat ≤ disk.named
  loads : ∀ load ∈ disk.loads, Loads start disk load

/-- The file of a temporary name has a lasting name in no directory. -/
theorem Valid.lasting (h : Valid start disk) {temporary : Text} {file : Nat} (htemporary : TemporaryName temporary)
    (hname : disk.current.names temporary = some file) {moment : Moment} (hmem : moment ∈ disk.moments) {path : Text}
    (hpath : ¬TemporaryName path) : moment.names path ≠ some file := by
  intro hlasting
  obtain rfl | hpast := List.mem_cons.mp hmem
  · rw [(h.moments _ hmem).injective path temporary file hlasting hname] at hpath
    exact hpath htemporary
  · exact (List.pairwise_cons.mp h.ordered).1 moment hpast path temporary file hpath htemporary hlasting hname

/-- What a step of a save may do. -/
structure Turn (start disk after : Disk) (index : Nat) (save next : SaveRun) : Prop where
  saves : after.saves = disk.saves.set index next
  loads : after.loads = disk.loads
  calls : after.calls = disk.calls
  faultless : after.faultless = disk.faultless
  powerLost : after.powerLost = disk.powerLost
  counted : disk.counter.toNat ≤ after.counter.toNat
  counter : after.counter.toNat ≤ after.named
  length : disk.files.length ≤ after.files.length
  /-- only its own file changes -/
  files : ∀ file < disk.files.length, after.files[file]? = disk.files[file]? ∨
    ∃ temporary, save.temporary = some temporary ∧ disk.current.names temporary = some file
  /-- only its own temporary name changes -/
  names : ∀ name, TemporaryName name → save.temporary ≠ some name → after.current.names name = disk.current.names name
  directory : (after.current = disk.current ∧ after.past = disk.past) ∨
    (after.past = disk.current :: disk.past ∧ Intact start after after.current ∧
      ∀ temporary file, TemporaryName temporary → after.current.names temporary = some file →
        disk.current.names temporary = some file ∨ disk.files.length ≤ file)
  kept : disk.current.puts <+: after.current.puts
  puts : ∀ put ∈ after.current.puts, put ∈ disk.current.puts ∨ put = save.call
  call : next.call = save.call
  temporary : ∀ temporary, next.temporary = some temporary → save.temporary = some temporary ∨
    ∀ other ∈ disk.saves, other.temporary ≠ some temporary
  next : Saves after next

theorem Turn.intact {index : Nat} (h : Turn start disk after index save next) (hvalid : Valid start disk)
    (hsave : disk.saves[index]? = some save) {moment : Moment} (hmem : moment ∈ disk.moments) :
    Intact start after moment := by
  have hintact := hvalid.moments moment hmem
  apply hintact.frame h.length _ (Nat.le_of_eq h.calls.symm) h.faultless h.powerLost
  intro path file hpath hname
  obtain hsame | ⟨temporary, htemporary, hfile⟩ := h.files file (hintact.bounded path file hname)
  · exact hsame
  · have hname' := (hvalid.saves index save hsave).temporaryName htemporary
    exact absurd hname (hvalid.lasting hname' hfile hmem hpath)

theorem Turn.moments {index : Nat} (h : Turn start disk after index save next) {moment : Moment} (hmem : moment ∈ disk.moments) :
    moment ∈ after.moments := by
  obtain ⟨hcurrent, hpast⟩ | ⟨hpast, -, -⟩ := h.directory
  · rwa [Disk.moments, hcurrent, hpast]
  · rw [Disk.moments, hpast]
    exact List.mem_cons_of_mem _ hmem

/-- Another save is not concerned by the step. -/
theorem Turn.other {index other : Nat} {run : SaveRun} (h : Turn start disk after index save next)
    (hvalid : Valid start disk) (hsave : disk.saves[index]? = some save) (hrun : disk.saves[other]? = some run)
    (hne : index ≠ other) : Saves after run := by
  have hsaves := hvalid.saves other run hrun
  have hdistinct (temporary : Text) (hrun' : run.temporary = some temporary) : save.temporary ≠ some temporary :=
    fun hsave' => hne (hvalid.apart index other save run hsave hrun (Or.inr ⟨temporary, hsave', hrun'⟩))
  apply hsaves.frame (Nat.le_of_eq h.calls.symm) h.counted _ _ h.faultless h.kept
  · intro put hput
    obtain hold | rfl := h.puts put hput
    · exact Or.inl hold
    · exact Or.inr fun hnumber => hne (hvalid.apart index other save run hsave hrun (Or.inl hnumber))
  · intro temporary htemporary
    exact h.names temporary (hsaves.temporaryName htemporary) (hdistinct temporary htemporary)
  · intro temporary file htemporary hname
    have hcurrent := hvalid.moments disk.current List.mem_cons_self
    obtain hsame | ⟨own, hown, hfile⟩ := h.files file (hcurrent.bounded temporary file hname)
    · exact hsame
    · rw [hcurrent.injective own temporary file hfile hname] at hown
      exact absurd hown (hdistinct temporary htemporary)

/-- A step of a save keeps everything. -/
theorem Turn.valid {index : Nat} (h : Turn start disk after index save next) (hvalid : Valid start disk)
    (hsave : disk.saves[index]? = some save) : Valid start after where
  moments := by
    intro moment hmem
    obtain ⟨hcurrent, hpast⟩ | ⟨hpast, hintact, -⟩ := h.directory
    · rw [Disk.moments, hcurrent, hpast] at hmem
      exact h.intact hvalid hsave hmem
    · rw [Disk.moments, hpast, List.mem_cons] at hmem
      obtain rfl | hmem := hmem
      · exact hintact
      · exact h.intact hvalid hsave hmem
  ordered := by
    obtain ⟨hcurrent, hpast⟩ | ⟨hpast, -, hfresh⟩ := h.directory
    · rw [Disk.moments, hcurrent, hpast]
      exact hvalid.ordered
    · rw [Disk.moments, hpast, List.pairwise_cons]
      refine ⟨?_, hvalid.ordered⟩
      intro moment hmem path temporary file hpath htemporary hlasting hname
      obtain hold | hnew := hfresh temporary file htemporary hname
      · exact hvalid.lasting htemporary hold hmem hpath hlasting
      · exact Nat.not_lt.mpr hnew ((hvalid.moments moment hmem).bounded path file hlasting)
  saves := by
    intro other run hrun
    rw [h.saves, List.getElem?_set] at hrun
    by_cases hne : index = other
    · rw [if_pos hne] at hrun
      split at hrun
      · cases hrun
        exact h.next
      · cases hrun
    · rw [if_neg hne] at hrun
      exact h.other hvalid hsave hrun hne
  apart := by
    have hlength : index < disk.saves.length := (List.getElem?_eq_some_iff.mp hsave).1
    have hnew (other : Nat) (run : SaveRun) (hne : index ≠ other) (hrun : disk.saves[other]? = some run) :
        next.call.number ≠ run.call.number ∧ ∀ temporary, next.temporary = some temporary → run.temporary ≠ some temporary := by
      constructor
      · rw [h.call]
        exact fun hnumber => hne (hvalid.apart index other save run hsave hrun (Or.inl hnumber))
      · intro temporary hnext hrun'
        obtain hold | hfresh := h.temporary temporary hnext
        · exact hne (hvalid.apart index other save run hsave hrun (Or.inr ⟨temporary, hold, hrun'⟩))
        · exact hfresh run (List.mem_of_getElem? hrun) hrun'
    intro first second run run' hrun hrun' hsame
    rw [h.saves, List.getElem?_set] at hrun hrun'
    by_cases hfirst : index = first
    · rw [if_pos hfirst, if_pos hlength] at hrun
      cases hrun
      by_cases hsecond : index = second
      · exact hfirst.symm.trans hsecond
      · rw [if_neg hsecond] at hrun'
        obtain ⟨hnumber, htemporary⟩ := hnew second run' hsecond hrun'
        obtain hsame | ⟨temporary, hleft, hright⟩ := hsame
        · exact absurd hsame hnumber
        · exact absurd hright (htemporary temporary hleft)
    · rw [if_neg hfirst] at hrun
      by_cases hsecond : index = second
      · rw [if_pos hsecond, if_pos hlength] at hrun'
        cases hrun'
        obtain ⟨hnumber, htemporary⟩ := hnew first run hfirst hrun
        obtain hsame | ⟨temporary, hleft, hright⟩ := hsame
        · exact absurd hsame.symm hnumber
        · exact absurd hleft (htemporary temporary hright)
      · rw [if_neg hsecond] at hrun'
        exact hvalid.apart first second run run' hrun hrun' hsame
  counter := h.counter
  loads := by
    intro load hload
    rw [h.loads] at hload
    exact (hvalid.loads load hload).frame (fun _ => h.moments) h.kept h.faultless h.powerLost

/-! ### The steps of a save -/

section Advance
variable {index : Nat}

/-- A save that has not returned and does not return successfully now. -/
theorem Saves.change (h : Saves disk save) (hlive : ∀ result, save.stage ≠ .returned result)
    (hcall : next.call = save.call) (htemporary : ∀ temporary, next.temporary = some temporary → save.temporary = some temporary)
    (hcalls : after.calls = disk.calls) (hcounter : disk.counter.toNat ≤ after.counter.toNat)
    (hputs : after.current.puts = disk.current.puts) (hstage : next.stage ≠ .returned .success)
    (hholds : SaveHolds after next) : Saves after next where
  number := by
    rw [hcall, hcalls]
    exact h.number
  plain := by
    rw [hcall]
    exact h.plain
  encoded := by
    rw [hcall]
    exact Or.inr (h.encoded.resolve_left fun ⟨result, hresult⟩ => hlive result hresult)
  suffix := by
    intro temporary hnext
    obtain ⟨nonce, serial, hname, hserial⟩ := h.suffix temporary (htemporary temporary hnext)
    rw [hcall]
    exact ⟨nonce, serial, hname, Nat.lt_of_lt_of_le hserial hcounter⟩
  holds := hholds
  put hsuccess := absurd hsuccess hstage
  unput _ := by
    rw [hputs, hcall]
    exact h.unput (hlive .success)

/-- A step of a save that leaves the directory alone. -/
theorem Valid.touch (h : Valid start disk) (hsave : disk.saves[index]? = some save)
    (hlive : ∀ result, save.stage ≠ .returned result) {files : List FileData} (hlength : files.length = disk.files.length)
    (hfiles : ∀ file < disk.files.length, files[file]? = disk.files[file]? ∨
      ∃ temporary, save.temporary = some temporary ∧ disk.current.names temporary = some file)
    (hcall : next.call = save.call) (htemporary : ∀ temporary, next.temporary = some temporary → save.temporary = some temporary)
    (hstage : next.stage ≠ .returned .success) (hholds : SaveHolds { disk with files } next) :
    Turn start disk { disk with files, saves := disk.saves.set index next } index save next where
  saves := rfl
  loads := rfl
  calls := rfl
  faultless := rfl
  powerLost := rfl
  counted := Nat.le_refl _
  counter := h.counter
  length := Nat.le_of_eq hlength.symm
  files := hfiles
  names _ _ _ := rfl
  directory := Or.inl ⟨rfl, rfl⟩
  kept := List.prefix_refl _
  puts _ hput := Or.inl hput
  call := hcall
  temporary temporary hnext := Or.inl (htemporary temporary hnext)
  next := (h.saves index save hsave).change hlive hcall htemporary rfl (Nat.le_refl _) rfl hstage hholds

/-- A step of a save that only changes its own stage. -/
theorem Valid.quiet (h : Valid start disk) (hsave : disk.saves[index]? = some save)
    (hlive : ∀ result, save.stage ≠ .returned result) (hcall : next.call = save.call)
    (htemporary : ∀ temporary, next.temporary = some temporary → save.temporary = some temporary)
    (hstage : next.stage ≠ .returned .success) (hholds : SaveHolds disk next) :
    Turn start disk { disk with saves := disk.saves.set index next } index save next :=
  h.touch hsave hlive rfl (fun _ _ => Or.inl rfl) hcall htemporary hstage hholds

theorem Valid.checkDirectory (h : Valid start disk) (hsave : disk.saves[index]? = some save) {present : Bool} {target : Nat}
    (hstep : disk.advance index save (.checkDirectory target present) = some after) :
    ∃ next, Turn start disk after index save next := by
  simp only [advance] at hstep
  split at hstep
  · next hstage =>
    have hholds := (h.saves index save hsave).holds
    rw [SaveHolds, hstage] at hholds
    cases htemporary : save.temporary with
    | some temporary =>
      rw [htemporary] at hholds
      exact hholds.elim
    | none =>
      split at hstep
      · cases hstep
        refine ⟨_, h.quiet hsave (by rw [hstage]; exact fun _ => nofun) rfl (fun _ => id) nofun ?_⟩
        rw [SaveHolds, htemporary]
        trivial
      · cases hstep
        refine ⟨_, h.quiet hsave (by rw [hstage]; exact fun _ => nofun) rfl (fun _ => id) nofun ?_⟩
        rw [SaveHolds, htemporary]
        trivial
  · cases hstep

theorem Valid.nameTemporary (h : Valid start disk) (hsave : disk.saves[index]? = some save) {nonce : UInt64} {target : Nat}
    (hstep : disk.advance index save (.nameTemporary target nonce) = some after) (hnamed : after.named < 2 ^ 64) :
    ∃ next, Turn start disk after index save next := by
  simp only [advance] at hstep
  split at hstep
  · next hstage =>
    cases hstep
    have hsaves := h.saves index save hsave
    have hcounter : (disk.counter + 1).toNat = disk.counter.toNat + 1 := by
      have hbound := h.counter
      simp only at hnamed
      rw [UInt64.toNat_add, show (1 : UInt64).toNat = 1 from rfl]
      omega
    refine ⟨{ save with temporary := some (temporaryName save.call.path nonce disk.counter), stage := .opening }, ?_⟩
    exact {
      saves := rfl
      loads := rfl
      calls := rfl
      faultless := rfl
      powerLost := rfl
      counted := by
        rw [hcounter]
        exact Nat.le_succ _
      counter := by
        rw [hcounter]
        exact Nat.succ_le_succ h.counter
      length := Nat.le_refl _
      files := fun _ _ => Or.inl rfl
      names := fun _ _ _ => rfl
      directory := Or.inl ⟨rfl, rfl⟩
      kept := List.prefix_refl _
      puts := fun _ hput => Or.inl hput
      call := rfl
      temporary := by
        intro temporary hnext
        cases hnext
        right
        intro other hother hsame
        obtain ⟨index', hindex⟩ := List.getElem?_of_mem hother
        obtain ⟨nonce', serial, hname, hserial⟩ := (h.saves index' other hindex).suffix _ hsame
        rw [← temporaryName_serial hname] at hserial
        exact Nat.lt_irrefl _ hserial
      next := {
        number := hsaves.number
        plain := hsaves.plain
        encoded := by
          refine Or.inr (hsaves.encoded.resolve_left ?_)
          rw [hstage]
          rintro ⟨result, hresult⟩
          cases hresult
        suffix := by
          intro temporary hnext
          cases hnext
          refine ⟨nonce, disk.counter, rfl, ?_⟩
          rw [hcounter]
          exact Nat.lt_succ_self _
        holds := trivial
        put := nofun
        unput := by
          intro _
          exact hsaves.unput (by rw [hstage]; exact nofun) } }
  · cases hstep

/-- A directory with other temporary names. -/
theorem Intact.rename (h : Intact start disk moment) {names : Text → Option Nat}
    (hplain : ∀ path, ¬TemporaryName path → names path = moment.names path)
    (hinjective : ∀ name other file, names name = some file → names other = some file → name = other)
    (hbounded : ∀ name file, names name = some file → file < disk.files.length) :
    Intact start disk { moment with names } where
  injective := hinjective
  bounded := hbounded
  shows := by
    intro path hpath
    have hshows := h.shows path hpath
    rw [Shows] at hshows ⊢
    simp only [hplain path hpath]
    exact hshows
  calls := h.calls
  once := h.once

/-- A new file gets a temporary name. -/
theorem Intact.create (h : Intact start disk moment) {temporary : Text} {data : FileData}
    (htemporary : TemporaryName temporary) (hfiles : after.files = disk.files ++ [data]) (hcalls : disk.calls ≤ after.calls)
    (hfaultless : after.faultless = disk.faultless) (hpower : after.powerLost = disk.powerLost) :
    Intact start after { moment with names := Function.update moment.names temporary (some disk.files.length) } := by
  have hlength : after.files.length = disk.files.length + 1 := by rw [hfiles, List.length_append, List.length_singleton]
  have hold {name : Text} {file : Nat} (hname : moment.names name = some file) : file < disk.files.length :=
    h.bounded name file hname
  apply Intact.rename (h.frame (by omega) _ hcalls hfaultless hpower)
  · intro path hpath
    refine Function.update_of_ne ?_ _ _
    rintro rfl
    exact hpath htemporary
  · intro name other file hname hother
    rw [Function.update_apply] at hname hother
    split at hname
    · next hnew =>
      cases hname
      split at hother
      · next hnew' => exact hnew.trans hnew'.symm
      · exact absurd (hold hother) (Nat.lt_irrefl _)
    · split at hother
      · cases hother
        exact absurd (hold hname) (Nat.lt_irrefl _)
      · exact h.injective name other file hname hother
  · intro name file hname
    rw [Function.update_apply] at hname
    split at hname
    · cases hname
      omega
    · have hbound := hold hname
      omega
  · intro path file _ hname
    rw [hfiles, List.getElem?_append_left (hold hname)]

/-- A temporary name is removed. -/
theorem Intact.unlink (h : Intact start disk moment) {temporary : Text} (htemporary : TemporaryName temporary) :
    Intact start disk { moment with names := Function.update moment.names temporary none } := by
  have hold {name : Text} {file : Nat} (hname : Function.update moment.names temporary none name = some file) :
      moment.names name = some file := by
    rw [Function.update_apply] at hname
    split at hname
    · cases hname
    · exact hname
  apply h.rename
  · intro path hpath
    refine Function.update_of_ne ?_ _ _
    rintro rfl
    exact hpath htemporary
  · exact fun name other file hname hother => h.injective name other file (hold hname) (hold hother)
  · exact fun name file hname => h.bounded name file (hold hname)

/-- The names after a file is renamed. -/
theorem renamed {names : Text → Option Nat} {temporary path name : Text} {file entry : Nat} (hfile : names temporary = some file)
    (hname : Function.update (Function.update names temporary none) path (some file) name = some entry) :
    (name = path ∧ names temporary = some entry) ∨ (name ≠ path ∧ name ≠ temporary ∧ names name = some entry) := by
  rw [Function.update_apply] at hname
  split at hname
  · next heq =>
    cases hname
    exact Or.inl ⟨heq, hfile⟩
  · next hne =>
    rw [Function.update_apply] at hname
    split at hname
    · cases hname
    · next hne' => exact Or.inr ⟨hne, hne', hname⟩

/-- A temporary file that holds what a save writes is given its path. -/
theorem Intact.replace (h : Intact start disk moment) {temporary : Text} {file : Nat} {data : FileData}
    (htemporary : TemporaryName temporary) (hfile : moment.names temporary = some file) (hdata : disk.files[file]? = some data)
    (hbytes : disk.Kept call → data.bytes = call.bytes) (hsynced : call.options.fsync → data.synced)
    (hcall : call.number < disk.calls ∧ saveFile call.impl call.path call.options.maxBytes = .ok call.bytes)
    (hnew : ∀ put ∈ moment.puts, put.number ≠ call.number) :
    Intact start disk {
      names := Function.update (Function.update moment.names temporary none) call.path (some file)
      puts := moment.puts ++ [call] } where
  injective := by
    intro name other entry hname hother
    obtain ⟨hpath, hentry⟩ | ⟨-, hne, hentry⟩ := renamed hfile hname
    · obtain ⟨hpath', -⟩ | ⟨-, hne', hentry'⟩ := renamed hfile hother
      · exact hpath.trans hpath'.symm
      · exact absurd (h.injective other temporary entry hentry' hentry) hne'
    · obtain ⟨-, hentry'⟩ | ⟨-, -, hentry'⟩ := renamed hfile hother
      · exact absurd (h.injective name temporary entry hentry hentry') hne
      · exact h.injective name other entry hentry hentry'
  bounded := by
    intro name entry hname
    obtain ⟨-, hname⟩ | ⟨-, -, hname⟩ := renamed hfile hname
    · exact h.bounded temporary entry hname
    · exact h.bounded name entry hname
  shows := by
    intro path hpath
    rw [Shows, latest_append]
    by_cases hown : call.path = path
    · rw [if_pos hown]
      exact ⟨file, data, hown ▸ Function.update_self _ _ _, hdata, hbytes, hsynced⟩
    · rw [if_neg hown]
      have hnames : Function.update (Function.update moment.names temporary none) call.path (some file) path =
          moment.names path := by
        rw [Function.update_of_ne (Ne.symm hown), Function.update_of_ne]
        rintro rfl
        exact hpath htemporary
      simp only [hnames]
      exact h.shows path hpath
  calls := by
    intro put hput
    obtain hold | hlast := List.mem_append.mp hput
    · exact h.calls put hold
    · rw [List.mem_singleton.mp hlast]
      exact hcall
  once := by
    rw [List.map_append, List.map_singleton, List.nodup_append]
    refine ⟨h.once, List.nodup_singleton _, ?_⟩
    intro number hnumber other hother
    obtain ⟨put, hput, rfl⟩ := List.mem_map.mp hnumber
    rw [List.mem_singleton.mp hother]
    exact hnew put hput

theorem Saves.opened (h : Saves disk save) (hstage : ¬Early save.stage) :
    ∃ temporary, save.temporary = some temporary ∧ StageHolds disk save.call temporary save.stage := by
  have hholds := h.holds
  rw [SaveHolds] at hholds
  cases htemporary : save.temporary with
  | none =>
    rw [htemporary] at hholds
    exact absurd hholds hstage
  | some temporary =>
    rw [htemporary] at hholds
    exact ⟨temporary, rfl, hholds⟩

theorem Valid.openTemporary (h : Valid start disk) (hsave : disk.saves[index]? = some save) {opened : Bool} {target : Nat}
    (hstep : disk.advance index save (.openTemporary target opened) = some after) :
    ∃ next, Turn start disk after index save next := by
  simp only [advance] at hstep
  split at hstep
  · next temporary hstage htemporary =>
    have hsaves := h.saves index save hsave
    have hcurrent := h.moments disk.current List.mem_cons_self
    have hname := hsaves.temporaryName htemporary
    have hlive : ∀ result, save.stage ≠ .returned result := by
      rw [hstage]
      exact fun _ => nofun
    split at hstep
    · split at hstep
      · next file hfile =>
        cases hstep
        have hbound := hcurrent.bounded temporary file hfile
        refine ⟨_, h.touch hsave hlive List.length_set ?_ rfl (fun _ => id) nofun ?_⟩
        · intro other hother
          by_cases heq : file = other
          · exact Or.inr ⟨temporary, htemporary, heq ▸ hfile⟩
          · exact Or.inl (List.getElem?_set_ne heq)
        · rw [SaveHolds, htemporary]
          exact ⟨hfile, ⟨[], false⟩, List.getElem?_set_self hbound, Nat.zero_le _, fun _ => rfl⟩
      · next hfree =>
        cases hstep
        refine ⟨{ save with stage := .writing disk.files.length 0 }, ?_⟩
        exact {
          saves := rfl
          loads := rfl
          calls := rfl
          faultless := rfl
          powerLost := rfl
          counted := Nat.le_refl _
          counter := h.counter
          length := by
            rw [List.length_append]
            exact Nat.le_add_right _ _
          files := fun file hfile => Or.inl (List.getElem?_append_left hfile)
          names := by
            intro name _ hne
            refine Function.update_of_ne ?_ _ _
            rintro rfl
            exact hne htemporary
          directory := by
            refine Or.inr ⟨rfl, ?_, ?_⟩
            · exact hcurrent.create hname rfl (Nat.le_refl _) rfl rfl
            · intro name file _ hentry
              change Function.update disk.current.names temporary (some disk.files.length) name = some file at hentry
              rw [Function.update_apply] at hentry
              split at hentry
              · cases hentry
                exact Or.inr (Nat.le_refl _)
              · exact Or.inl hentry
          kept := List.prefix_refl _
          puts := fun _ hput => Or.inl hput
          call := rfl
          temporary := fun _ => Or.inl
          next := by
            refine hsaves.change hlive rfl (fun _ => id) rfl (Nat.le_refl _) rfl nofun ?_
            rw [SaveHolds, htemporary]
            refine ⟨Function.update_self _ _ _, ⟨[], false⟩, ?_, Nat.zero_le _, fun _ => rfl⟩
            exact List.getElem?_concat_length }
    · cases hstep
      refine ⟨_, h.quiet hsave hlive rfl nofun nofun ?_⟩
      rw [SaveHolds]
      trivial
  · cases hstep

theorem Valid.write (h : Valid start disk) (hsave : disk.saves[index]? = some save) {stored : List UInt8} {target : Nat}
    (hstep : disk.advance index save (.write target stored) = some after) :
    ∃ next, Turn start disk after index save next := by
  simp only [advance] at hstep
  split at hstep
  · next file written hstage =>
    obtain ⟨temporary, htemporary, hholds⟩ := (h.saves index save hsave).opened (by rw [hstage]; exact id)
    rw [hstage] at hholds
    obtain ⟨hfile, data, hdata, hwritten, hbytes⟩ := hholds
    split at hstep
    · next hstored =>
      cases hstep
      obtain ⟨hlength, hgood⟩ := hstored
      rw [List.length_take, List.length_drop] at hlength
      refine ⟨_, h.touch hsave (by rw [hstage]; exact fun _ => nofun) (List.length_modify _ _ _) ?_ rfl (fun _ => id) nofun ?_⟩
      · intro other hother
        by_cases heq : file = other
        · exact Or.inr ⟨temporary, htemporary, heq ▸ hfile⟩
        · exact Or.inl (List.getElem?_modify_ne _ _ heq)
      · rw [SaveHolds, htemporary]
        have hfits : written + stored.length ≤ save.call.bytes.length := by omega
        refine ⟨hfile, ⟨data.bytes ++ stored, false⟩, ?_, hfits, ?_⟩
        · rw [List.getElem?_modify_eq, hdata]
          rfl
        · intro hfaultless
          rw [List.take_add, hbytes hfaultless]
          exact congrArg _ (hgood hfaultless)
    · cases hstep
  · cases hstep

theorem Valid.close (h : Valid start disk) (hsave : disk.saves[index]? = some save) {flushed closed : Bool} {target : Nat}
    (hstep : disk.advance index save (.close target flushed closed) = some after) :
    ∃ next, Turn start disk after index save next := by
  simp only [advance] at hstep
  split at hstep
  · next file written hstage =>
    obtain ⟨temporary, htemporary, hholds⟩ := (h.saves index save hsave).opened (by rw [hstage]; exact id)
    rw [hstage] at hholds
    obtain ⟨hfile, data, hdata, hwritten, hbytes⟩ := hholds
    have hlive : ∀ result, save.stage ≠ .returned result := by
      rw [hstage]
      exact fun _ => nofun
    split at hstep
    · next hdone =>
      cases hstep
      obtain ⟨rfl, -, -⟩ := hdone
      rw [List.take_length] at hbytes
      refine ⟨_, h.touch hsave hlive (List.length_modify _ _ _) ?_ rfl (fun _ => id) ?_ ?_⟩
      · intro other hother
        by_cases heq : file = other
        · exact Or.inr ⟨temporary, htemporary, heq ▸ hfile⟩
        · exact Or.inl (List.getElem?_modify_ne _ _ heq)
      · simp only
        split <;> exact nofun
      · have hdata' : (disk.files.modify file fun data => { data with synced := save.call.options.fsync })[file]? =
            some { data with synced := save.call.options.fsync } := by
          rw [List.getElem?_modify_eq, hdata]
          rfl
        rw [SaveHolds, htemporary]
        simp only
        by_cases hverify : save.call.options.verifyAfterWrite = true
        · rw [if_pos hverify]
          exact ⟨file, _, hfile, hdata', hbytes, id, trivial⟩
        · rw [if_neg hverify]
          exact ⟨file, _, hfile, hdata', fun hsound => hbytes (hsound.resolve_right hverify), id⟩
    · cases hstep
      refine ⟨_, h.quiet hsave hlive rfl (fun _ => id) nofun ?_⟩
      rw [SaveHolds, htemporary]
      exact ⟨file, hfile⟩
  · cases hstep

theorem bytesAt_eq {path : Text} {file : Nat} {data : FileData} (hname : disk.current.names path = some file)
    (hdata : disk.files[file]? = some data) : disk.bytesAt path = some data.bytes := by
  rw [bytesAt, hname, Option.bind_some, fileBytes, hdata]
  rfl

/-- A file that nothing else changes is read as it is. -/
theorem readAll_back {path : Text} {maxBytes file : Nat} {data : FileData} {failure : Option Text} {stage stage' : ReadStage}
    (hname : disk.current.names path = some file) (hdata : disk.files[file]? = some data) (hback : ReadsBack file data stage)
    (hread : disk.readAll path maxBytes failure stage = some stage') :
    ReadsBack file data stage' ∨ ∃ result, stage' = .returned result ∧ ∀ bytes, result = .ok bytes → bytes = data.bytes := by
  cases stage with
  | sizing =>
    cases failure with
    | some message =>
      cases hread
      exact Or.inr ⟨_, rfl, nofun⟩
    | none =>
      rw [readAll, bytesAt_eq hname hdata, Option.map_some] at hread
      cases hread
      split
      · exact Or.inr ⟨_, rfl, nofun⟩
      · exact Or.inl rfl
  | opening size =>
    cases failure with
    | some message =>
      cases hread
      exact Or.inr ⟨_, rfl, nofun⟩
    | none =>
      rw [readAll, hname, Option.map_some] at hread
      cases hread
      exact Or.inl ⟨hback, rfl⟩
  | reading size opened =>
    obtain ⟨rfl, rfl⟩ := hback
    rw [readAll, fileBytes, hdata, Option.map_some, Option.map_some] at hread
    cases hread
    split
    · exact Or.inr ⟨_, rfl, nofun⟩
    · refine Or.inr ⟨_, rfl, ?_⟩
      rintro bytes ⟨⟩
      exact List.take_length
  | returned result => cases hread

theorem Valid.reread (h : Valid start disk) (hsave : disk.saves[index]? = some save) {failure : Option Text} {target : Nat}
    (hstep : disk.advance index save (.reread target failure) = some after) :
    ∃ next, Turn start disk after index save next := by
  simp only [advance] at hstep
  split at hstep
  · next _ _ stage temporary hstage htemporary =>
    obtain ⟨stage', hread, rfl⟩ := Option.map_eq_some_iff.mp hstep
    have hlive : ∀ result, save.stage ≠ .returned result := by
      rw [hstage]
      exact fun _ => nofun
    obtain ⟨temporary', htemporary', hholds⟩ := (h.saves index save hsave).opened (by rw [hstage]; exact id)
    cases htemporary.symm.trans htemporary'
    rw [hstage] at hholds
    obtain ⟨file, data, hfile, hdata, hbytes, hsynced, hback⟩ := hholds
    have hgone (error : SchedulerError) : StageHolds disk save.call temporary (.removing error) := ⟨file, hfile⟩
    have hfound (result : Except SchedulerError (List UInt8)) (hresult : ∀ bytes, result = .ok bytes → bytes = data.bytes) :
        StageHolds disk save.call temporary (afterReread save.call result) ∧
          afterReread save.call result ≠ .returned .success := by
      cases result with
      | error error => exact ⟨hgone error, nofun⟩
      | ok bytes =>
        obtain rfl := hresult bytes rfl
        rw [afterReread]
        split
        · exact ⟨hgone _, nofun⟩
        · next hsame =>
          split
          · exact ⟨hgone _, nofun⟩
          · exact ⟨⟨file, data, hfile, hdata, fun _ => not_not.mp hsame, hsynced⟩, nofun⟩
    refine ⟨_, h.quiet hsave hlive rfl (fun _ => id) ?_ ?_⟩
    · obtain hback' | ⟨result, rfl, hresult⟩ := readAll_back hfile hdata hback hread
      · cases stage' with
        | returned result => exact hback'.elim
        | sizing => exact nofun
        | opening size => exact nofun
        | reading size opened => exact nofun
      · exact (hfound result hresult).2
    · rw [SaveHolds, htemporary]
      obtain hback' | ⟨result, rfl, hresult⟩ := readAll_back hfile hdata hback hread
      · cases stage' with
        | returned result => exact hback'.elim
        | sizing => exact ⟨file, data, hfile, hdata, hbytes, hsynced, hback'⟩
        | opening size => exact ⟨file, data, hfile, hdata, hbytes, hsynced, hback'⟩
        | reading size opened => exact ⟨file, data, hfile, hdata, hbytes, hsynced, hback'⟩
      · exact (hfound result hresult).1
  · cases hstep

theorem Valid.replace (h : Valid start disk) (hsave : disk.saves[index]? = some save) {failure : Option Text} {target : Nat}
    (hstep : disk.advance index save (.replace target failure) = some after) :
    ∃ next, Turn start disk after index save next := by
  simp only [advance] at hstep
  split at hstep
  · next _ _ temporary hstage htemporary =>
    have hsaves := h.saves index save hsave
    have hcurrent := h.moments disk.current List.mem_cons_self
    have hname := hsaves.temporaryName htemporary
    have hlive : ∀ result, save.stage ≠ .returned result := by
      rw [hstage]
      exact fun _ => nofun
    obtain ⟨temporary', htemporary', hholds⟩ := hsaves.opened (by rw [hstage]; exact id)
    cases htemporary.symm.trans htemporary'
    rw [hstage] at hholds
    split at hstep
    · cases hstep
      obtain ⟨file, data, hfile, -⟩ := hholds
      refine ⟨_, h.quiet hsave hlive rfl (fun _ => id) nofun ?_⟩
      rw [SaveHolds, htemporary]
      exact ⟨file, hfile⟩
    · obtain ⟨file, data, hfile, hdata, hbytes, hsynced⟩ := hholds
      rw [hfile] at hstep
      cases hstep
      refine ⟨{ save with stage := .returned .success }, ?_⟩
      exact {
        saves := rfl
        loads := rfl
        calls := rfl
        faultless := rfl
        powerLost := rfl
        counted := Nat.le_refl _
        counter := h.counter
        length := Nat.le_refl _
        files := fun _ _ => Or.inl rfl
        names := by
          intro name hname' hne
          refine (Function.update_of_ne ?_ _ _).trans (Function.update_of_ne ?_ _ _)
          · rintro rfl
            exact hsaves.plain hname'
          · rintro rfl
            exact hne htemporary
        directory := by
          refine Or.inr ⟨rfl, ?_, ?_⟩
          · have hput := hcurrent.replace hname hfile hdata (fun hkept => hbytes hkept.1) hsynced
              ⟨hsaves.number, hsaves.encoded.resolve_left fun ⟨result, hresult⟩ => hlive result hresult⟩
              (hsaves.unput (hlive .success))
            exact hput.frame (Nat.le_refl _) (fun _ _ _ _ => rfl) (Nat.le_refl _) rfl rfl
          · intro name entry hname' hentry
            obtain ⟨rfl, -⟩ | ⟨-, -, hold⟩ := renamed hfile hentry
            · exact absurd hname' hsaves.plain
            · exact Or.inl hold
        kept := List.prefix_append _ _
        puts := fun put hput => (List.mem_append.mp hput).imp id List.mem_singleton.mp
        call := rfl
        temporary := fun _ => Or.inl
        next := {
          number := hsaves.number
          plain := hsaves.plain
          encoded := Or.inl ⟨_, rfl⟩
          suffix := hsaves.suffix
          holds := by
            rw [SaveHolds, htemporary]
            refine (Function.update_of_ne ?_ _ _).trans (Function.update_self _ _ _)
            rintro rfl
            exact hsaves.plain hname
          put := fun _ => List.mem_append_right _ List.mem_cons_self
          unput := fun hne => absurd rfl hne } }
  · cases hstep

theorem Valid.remove (h : Valid start disk) (hsave : disk.saves[index]? = some save) {removed : Bool} {target : Nat}
    (hstep : disk.advance index save (.remove target removed) = some after) :
    ∃ next, Turn start disk after index save next := by
  simp only [advance] at hstep
  split at hstep
  · next _ _ error temporary hstage htemporary =>
    have hsaves := h.saves index save hsave
    have hcurrent := h.moments disk.current List.mem_cons_self
    have hname := hsaves.temporaryName htemporary
    have hlive : ∀ result, save.stage ≠ .returned result := by
      rw [hstage]
      exact fun _ => nofun
    split at hstep
    · cases hstep
      refine ⟨{ save with stage := .returned (.failure error) }, ?_⟩
      exact {
        saves := rfl
        loads := rfl
        calls := rfl
        faultless := rfl
        powerLost := rfl
        counted := Nat.le_refl _
        counter := h.counter
        length := Nat.le_refl _
        files := fun _ _ => Or.inl rfl
        names := by
          intro name _ hne
          refine Function.update_of_ne ?_ _ _
          rintro rfl
          exact hne htemporary
        directory := by
          refine Or.inr ⟨rfl, ?_, ?_⟩
          · exact (hcurrent.unlink hname).frame (Nat.le_refl _) (fun _ _ _ _ => rfl) (Nat.le_refl _) rfl rfl
          · intro name file _ hentry
            change Function.update disk.current.names temporary none name = some file at hentry
            rw [Function.update_apply] at hentry
            split at hentry
            · cases hentry
            · exact Or.inl hentry
        kept := List.prefix_refl _
        puts := fun _ => Or.inl
        call := rfl
        temporary := fun _ => Or.inl
        next := by
          refine hsaves.change hlive rfl (fun _ => id) rfl (Nat.le_refl _) rfl nofun ?_
          rw [SaveHolds, htemporary]
          exact Function.update_self _ _ _ }
    · cases hstep
      refine ⟨_, h.quiet hsave hlive rfl (fun _ => id) nofun ?_⟩
      rw [SaveHolds, htemporary]
      trivial
  · cases hstep

end Advance

/-! ### Runs -/

theorem Valid.begin (h : Valid start disk) (impl : Impl) {path : Text} (options : PersistOptions)
    (hpath : ¬TemporaryName path) : Valid start (disk.begin impl path options) := by
  obtain ⟨run, hrun, hsaves⟩ : ∃ run, disk.begin impl path options =
      { disk with saves := disk.saves ++ [run], calls := disk.calls + 1 } ∧
      run.call.number = disk.calls ∧ run.temporary = none ∧ run.stage ≠ .returned .success ∧ run.call.path = path ∧
      Early run.stage ∧ ((∃ result, run.stage = .returned result) ∨
        saveFile run.call.impl run.call.path run.call.options.maxBytes = .ok run.call.bytes) := by
    refine ⟨_, rfl, ?_⟩
    split
    · exact ⟨rfl, rfl, nofun, rfl, trivial, Or.inl ⟨_, rfl⟩⟩
    · exact ⟨rfl, rfl, nofun, rfl, trivial, Or.inl ⟨_, rfl⟩⟩
    · next hsave => exact ⟨rfl, rfl, nofun, rfl, trivial, Or.inr hsave⟩
  obtain ⟨hnumber, htemporary, hstage, hown, hearly, hencoded⟩ := hsaves
  rw [hrun]
  have hcurrent := h.moments disk.current List.mem_cons_self
  have hfresh (index : Nat) (save : SaveRun) (hsave : disk.saves[index]? = some save) : save.call.number ≠ run.call.number := by
    rw [hnumber]
    exact Nat.ne_of_lt (h.saves index save hsave).number
  have hcases {index : Nat} {save : SaveRun} (hsave : (disk.saves ++ [run])[index]? = some save) :
      disk.saves[index]? = some save ∨ (index = disk.saves.length ∧ save = run) := by
    rw [List.getElem?_append] at hsave
    split at hsave
    · exact Or.inl hsave
    · rw [List.getElem?_singleton] at hsave
      split at hsave
      · cases hsave
        exact Or.inr ⟨by omega, rfl⟩
      · cases hsave
  constructor
  · intro moment hmem
    exact (h.moments moment hmem).frame (Nat.le_refl _) (fun _ _ _ _ => rfl) (Nat.le_succ _) rfl rfl
  · exact h.ordered
  · intro index save hsave
    obtain hold | ⟨-, rfl⟩ := hcases hsave
    · exact (h.saves index save hold).frame (Nat.le_succ _) (Nat.le_refl _) (fun _ _ => rfl) (fun _ _ _ _ => rfl) rfl
        (List.prefix_refl _) (fun _ => Or.inl)
    · exact {
        number := hnumber ▸ Nat.lt_succ_self _
        plain := hown ▸ hpath
        encoded := hencoded
        suffix := by
          rw [htemporary]
          exact nofun
        holds := by
          rw [SaveHolds, htemporary]
          exact hearly
        put := fun hsuccess => absurd hsuccess hstage
        unput := by
          intro _ put hput
          rw [hnumber]
          exact Nat.ne_of_lt (hcurrent.calls put hput).1 }
  · intro index other save save' hsave hsave' hsame
    obtain hold | ⟨rfl, rfl⟩ := hcases hsave
    · obtain hold' | ⟨rfl, rfl⟩ := hcases hsave'
      · exact h.apart index other save save' hold hold' hsame
      · obtain hsame | ⟨temporary, -, hnone⟩ := hsame
        · exact absurd hsame (hfresh index save hold)
        · rw [htemporary] at hnone
          cases hnone
    · obtain hold' | ⟨rfl, -⟩ := hcases hsave'
      · obtain hsame | ⟨temporary, hnone, -⟩ := hsame
        · exact absurd hsame.symm (hfresh other save' hold')
        · rw [htemporary] at hnone
          cases hnone
      · rfl
  · exact h.counter
  · intro load hload
    exact (h.loads load hload).frame (fun _ => id) (List.prefix_refl _) rfl rfl

/-- Only the loads change. -/
theorem Valid.others (h : Valid start disk) {loads : List LoadRun} (hloads : ∀ load ∈ loads, Loads start disk load) :
    Valid start { disk with loads } where
  moments moment hmem := (h.moments moment hmem).frame (Nat.le_refl _) (fun _ _ _ _ => rfl) (Nat.le_refl _) rfl rfl
  ordered := h.ordered
  saves index save hsave := (h.saves index save hsave).frame (Nat.le_refl _) (Nat.le_refl _) (fun _ _ => rfl)
    (fun _ _ _ _ => rfl) rfl (List.prefix_refl _) (fun _ => Or.inl)
  apart := h.apart
  counter := h.counter
  loads load hload := (hloads load hload).frame (fun _ => id) (List.prefix_refl _) rfl rfl

/-- A load takes a step. -/
theorem Valid.read (h : Valid start disk) {run : LoadRun} {maxBytes : Nat} {failure : Option Text} {stage : ReadStage}
    (hload : run ∈ disk.loads) (hread : disk.readAll run.path maxBytes failure run.stage = some stage) :
    Loads start disk { run with stage } where
  since := (h.loads run hload).since
  holds := by
    intro hpath
    have hholds := (h.loads run hload).holds hpath
    have hsince := (h.loads run hload).since
    cases hstage : run.stage with
    | sizing =>
      rw [hstage] at hread
      cases failure with
      | some message =>
        cases hread
        trivial
      | none =>
        obtain ⟨bytes, -, rfl⟩ := Option.map_eq_some_iff.mp hread
        simp only
        split <;> trivial
    | opening size =>
      rw [hstage] at hread
      cases failure with
      | some message =>
        cases hread
        trivial
      | none =>
        obtain ⟨file, hfile, rfl⟩ := Option.map_eq_some_iff.mp hread
        exact ⟨disk.current, List.mem_cons_self, hsince, List.prefix_refl _, hfile⟩
    | reading size file =>
      rw [hstage] at hread hholds
      obtain ⟨moment, hmem, hsince, hputs, hname⟩ := hholds
      obtain ⟨bytes, hbytes, rfl⟩ := Option.map_eq_some_iff.mp hread
      simp only
      split
      · trivial
      · refine ⟨moment.puts, hputs, hsince, ?_⟩
        obtain ⟨data, hdata, rfl⟩ := Option.map_eq_some_iff.mp hbytes
        have hshows := (h.moments moment hmem).shows run.path hpath
        rw [Shows] at hshows
        cases hlatest : latest moment.puts run.path with
        | none =>
          rw [hlatest] at hshows
          obtain ⟨hnames, hfiles⟩ := hshows
          refine ⟨data.bytes, ?_, List.take_prefix _ _⟩
          rw [bytesAt, ← hnames, hname, Option.bind_some, fileBytes, ← hfiles file hname, hdata]
          rfl
        | some call =>
          rw [hlatest] at hshows
          obtain ⟨file', data', hname', hdata', hkept, -⟩ := hshows
          cases hname.symm.trans hname'
          cases hdata.symm.trans hdata'
          intro hcall
          rw [hkept hcall]
          exact List.take_prefix _ _
    | returned result =>
      rw [hstage] at hread
      cases hread

/-- The power fails, and an earlier directory comes back. -/
theorem Intact.lose (h : Intact start disk moment) (hstart : ∀ data ∈ start.files, data.synced)
    {contents : Nat → List UInt8}
    (hfiles : after.files = disk.files.mapIdx fun file data => if data.synced then data else ⟨contents file, true⟩)
    (hcalls : after.calls = disk.calls) (hfaultless : after.faultless = disk.faultless) (hpower : after.powerLost = true) :
    Intact start after moment where
  injective := h.injective
  bounded := by
    rw [hfiles, List.length_mapIdx]
    exact h.bounded
  shows := by
    intro path hpath
    have hshows := h.shows path hpath
    rw [Shows] at hshows ⊢
    cases hlatest : latest moment.puts path with
    | none =>
      rw [hlatest] at hshows
      obtain ⟨hnames, hsame⟩ := hshows
      refine ⟨hnames, ?_⟩
      intro file hname
      rw [← hsame file hname, hfiles, List.getElem?_mapIdx]
      cases hdata : disk.files[file]? with
      | none => rfl
      | some data =>
        rw [hsame file hname] at hdata
        rw [Option.map_some, if_pos (hstart data (List.mem_of_getElem? hdata))]
    | some call =>
      rw [hlatest] at hshows
      obtain ⟨file, data, hname, hdata, hbytes, hsynced⟩ := hshows
      refine ⟨file, if data.synced then data else ⟨contents file, true⟩, hname, ?_, ?_, ?_⟩
      · rw [hfiles, List.getElem?_mapIdx, hdata]
        rfl
      · rintro ⟨hsound, hflushed⟩
        have hfsync : call.options.fsync = true := by
          refine hflushed.resolve_right ?_
          rw [hpower]
          exact nofun
        rw [if_pos (hsynced hfsync)]
        exact hbytes ⟨hfaultless ▸ hsound, Or.inl hfsync⟩
      · intro _
        split
        · assumption
        · rfl
  calls := by
    rw [hcalls]
    exact h.calls
  once := h.once

theorem named_advance {index : Nat} {action : DiskAction} (hstep : disk.advance index save action = some after) :
    disk.named ≤ after.named := by
  cases action with
  | checkDirectory | openTemporary | write | close | remove =>
    simp only [advance] at hstep
    repeat' split at hstep
    all_goals
      cases hstep
      try exact Nat.le_refl _
  | nameTemporary =>
    simp only [advance] at hstep
    split at hstep
    · cases hstep
      exact Nat.le_succ _
    · cases hstep
  | reread =>
    simp only [advance] at hstep
    split at hstep
    · obtain ⟨_, -, rfl⟩ := Option.map_eq_some_iff.mp hstep
      exact Nat.le_refl _
    · cases hstep
  | replace =>
    simp only [advance] at hstep
    repeat' split at hstep
    · cases hstep
      exact Nat.le_refl _
    · obtain ⟨_, -, rfl⟩ := Option.map_eq_some_iff.mp hstep
      exact Nat.le_refl _
    · cases hstep
  | save | load | read | die | losePower => cases hstep

theorem advance_of_target {action : DiskAction} {index : Nat} (htarget : target action = some index)
    (hstep : disk.step action = some after) :
    ∃ save, disk.saves[index]? = some save ∧ disk.advance index save action = some after := by
  cases action with
  | save | load | read | die | losePower => cases htarget
  | checkDirectory | nameTemporary | openTemporary | write | close | reread | replace | remove =>
    cases htarget
    exact Option.bind_eq_some_iff.mp hstep

theorem named_step {action : DiskAction} (hstep : disk.step action = some after) : disk.named ≤ after.named := by
  cases htarget : target action with
  | some index =>
    obtain ⟨save, -, hadvance⟩ := advance_of_target htarget hstep
    exact named_advance hadvance
  | none =>
    cases action with
    | save | load | die =>
      cases hstep
      exact Nat.le_refl _
    | read =>
      obtain ⟨run, -, hread⟩ := Option.bind_eq_some_iff.mp hstep
      obtain ⟨stage, -, rfl⟩ := Option.map_eq_some_iff.mp hread
      exact Nat.le_refl _
    | losePower =>
      obtain ⟨moment, -, rfl⟩ := Option.map_eq_some_iff.mp hstep
      exact Nat.le_refl _
    | checkDirectory | nameTemporary | openTemporary | write | close | reread | replace | remove => cases htarget

theorem Valid.advance (h : Valid start disk) {index : Nat} (hsave : disk.saves[index]? = some save) {action : DiskAction}
    (hstep : disk.advance index save action = some after) (hnamed : after.named < 2 ^ 64) :
    ∃ next, Turn start disk after index save next := by
  cases action with
  | checkDirectory => exact h.checkDirectory hsave hstep
  | nameTemporary => exact h.nameTemporary hsave hstep hnamed
  | openTemporary => exact h.openTemporary hsave hstep
  | write => exact h.write hsave hstep
  | close => exact h.close hsave hstep
  | reread => exact h.reread hsave hstep
  | replace => exact h.replace hsave hstep
  | remove => exact h.remove hsave hstep
  | save | load | read | die | losePower => cases hstep

theorem Valid.step (h : Valid start disk) (hstart : ∀ data ∈ start.files, data.synced) {action : DiskAction}
    (hplain : Plain action) (hstep : disk.step action = some after) (hnamed : after.named < 2 ^ 64) : Valid start after := by
  cases htarget : target action with
  | some index =>
    obtain ⟨save, hsave, hadvance⟩ := advance_of_target htarget hstep
    obtain ⟨next, hturn⟩ := h.advance hsave hadvance hnamed
    exact hturn.valid h hsave
  | none =>
    cases action with
    | save impl path options =>
      cases hstep
      exact h.begin impl options hplain
    | load path maxBytes =>
      cases hstep
      apply h.others
      intro load hload
      obtain hold | hnew := List.mem_append.mp hload
      · exact h.loads load hold
      · rw [List.mem_singleton.mp hnew]
        exact ⟨Nat.le_refl _, fun _ => trivial⟩
    | read index failure =>
      obtain ⟨run, hrun, hread⟩ := Option.bind_eq_some_iff.mp hstep
      obtain ⟨stage, hstage, rfl⟩ := Option.map_eq_some_iff.mp hread
      apply h.others
      intro load hload
      obtain hold | rfl := List.mem_or_eq_of_mem_set hload
      · exact h.loads load hold
      · exact h.read (List.mem_of_getElem? hrun) hstage
    | die =>
      cases hstep
      constructor
      · intro moment hmem
        exact (h.moments moment hmem).frame (Nat.le_refl _) (fun _ _ _ _ => rfl) (Nat.le_refl _) rfl rfl
      · exact h.ordered
      · intro index save hsave
        cases hsave
      · intro index other save run hsave
        cases hsave
      · exact Nat.zero_le _
      · intro load hload
        cases hload
    | losePower kept contents =>
      obtain ⟨moment, hmoment, rfl⟩ := Option.map_eq_some_iff.mp hstep
      have hmem : moment ∈ disk.moments := List.mem_of_mem_drop (List.mem_of_mem_head? hmoment)
      constructor
      · intro other hother
        rw [List.mem_singleton.mp hother]
        exact (h.moments moment hmem).lose hstart rfl rfl rfl rfl
      · exact List.pairwise_singleton _ _
      · intro index save hsave
        cases hsave
      · intro index other save run hsave
        cases hsave
      · exact Nat.zero_le _
      · intro load hload
        cases hload
    | checkDirectory | nameTemporary | openTemporary | write | close | reread | replace | remove => cases htarget

theorem Fresh.valid (h : Fresh start) : Valid start start where
  moments := by
    intro moment hmem
    rw [moments, h.past, List.mem_singleton] at hmem
    rw [hmem]
    refine ⟨h.injective, h.bounded, ?_, ?_, ?_⟩
    · intro path _
      rw [Shows, h.puts]
      exact ⟨rfl, fun _ _ => rfl⟩
    · intro call hcall
      rw [h.puts] at hcall
      cases hcall
    · rw [h.puts]
      exact List.nodup_nil
  ordered := by
    rw [moments, h.past]
    exact List.pairwise_singleton _ _
  saves := by
    intro index save hsave
    rw [h.saves] at hsave
    cases hsave
  apart := by
    intro index other save run hsave
    rw [h.saves] at hsave
    cases hsave
  counter := by
    rw [h.counter]
    exact Nat.zero_le _
  loads := by
    intro load hload
    rw [h.loads] at hload
    cases hload

/-- Every reachable file system is valid, while the names of its temporary files are different. -/
theorem Reaches.valid (h : Reaches start disk) (hstart : Fresh start) (hnamed : disk.named < 2 ^ 64) : Valid start disk := by
  induction h with
  | refl => exact hstart.valid
  | tail _ hstep ih =>
    obtain ⟨action, hplain, hstep⟩ := hstep
    have hbefore := Nat.lt_of_le_of_lt (named_step hstep) hnamed
    exact (ih hbefore).step hstart.synced hplain hstep hnamed

/-! ### A save and a load -/

theorem saveFile_wellFramed {impl : Impl} {path : Text} {maxBytes : UInt64} {file : List UInt8}
    (h : saveFile impl path maxBytes = .ok file) : WellFramed file := by
  obtain ⟨payload, hpayload, rfl⟩ := saveFile_ok h
  have hsize := length_savePayload hpayload
  refine (fileOf_wellFramed ?_).1
  rw [length_fileOf, headerBytes, trailerBytes]
  rw [maxEncodeBytes] at hsize
  omega

theorem Reaches.take (h : Reaches start disk) (action : DiskAction) (hplain : Plain action)
    (hstep : disk.step action = some after) : Reaches start after := h.tail ⟨action, hplain, hstep⟩

def Sample.emptyDisk : Disk := { files := [], current := { names := fun _ => none } }

theorem Sample.emptyDisk_fresh : Fresh Sample.emptyDisk where
  past := rfl
  puts := rfl
  saves := rfl
  loads := rfl
  counter := rfl
  injective := nofun
  bounded := nofun
  synced := nofun

/-- A file is saved without failures, verified and replaced, and then read. -/
theorem Sample.saves_and_loads {impl : Impl} {path : Text} {file : List UInt8} (hsave : saveFile impl path 0 = .ok file)
    (hsize : file.length ≤ 100000) (hpath : ¬TemporaryName path) :
    ∃ disk, Reaches Sample.emptyDisk disk ∧ disk.named = 1 ∧ disk.current.puts = [⟨0, impl, path, {}, file⟩] ∧
      disk.Kept ⟨0, impl, path, {}, file⟩ ∧
      disk.loads = [{ path, maxBytes := 100000, since := 1, stage := .returned (.ok file) }] := by
  have hverified : verifyFile file = .ok (verifiedOf file) := verifyFile_ok.mpr ⟨saveFile_wellFramed hsave, rfl⟩
  have hne : path ≠ temporaryName path 7 0 := fun h => hpath ⟨_, _, _, h⟩
  have h : Reaches Sample.emptyDisk Sample.emptyDisk := .refl
  replace h := h.take (.save impl path {}) hpath rfl
  simp only [begin, hsave] at h
  replace h := h.take (.checkDirectory 0 true) trivial rfl
  replace h := h.take (.nameTemporary 0 7) trivial rfl
  replace h := h.take (.openTemporary 0 true) trivial rfl
  replace h := h.take (.write 0 file) trivial (if_pos ⟨by simp, by simp⟩)
  replace h := h.take (.close 0 true true) trivial (if_pos ⟨by simp, by simp⟩)
  replace h := h.take (.reread 0 none) trivial
    (by simp [step, target, advance, readAll, bytesAt, fileBytes, enter, Sample.emptyDisk]; rfl)
  replace h := h.take (.reread 0 none) trivial (by simp [step, target, advance, readAll]; rfl)
  replace h := h.take (.reread 0 none) trivial
    (by simp [step, target, advance, readAll, fileBytes, afterReread, hverified]; rfl)
  replace h := h.take (.replace 0 none) trivial (by simp [step, target, advance, enter]; rfl)
  replace h := h.take (.load path 100000) trivial rfl
  replace h := h.take (.read 0 none) trivial
    (by simp [step, readAll, bytesAt, fileBytes, Nat.not_lt.mpr hsize]; rfl)
  replace h := h.take (.read 0 none) trivial (by simp [step, readAll]; rfl)
  replace h := h.take (.read 0 none) trivial (by simp [step, readAll, fileBytes]; rfl)
  exact ⟨_, h, rfl, rfl, ⟨Or.inl rfl, Or.inl rfl⟩, rfl⟩

theorem Sample.state_not_temporary : ¬TemporaryName "state" := by
  intro h
  have hmem := mem_temporaryName h
  revert hmem
  decide +kernel

set_option maxRecDepth 100000 in
theorem Sample.saves_empty : ∃ file, saveFile {} "state" 0 = .ok file ∧ file.length ≤ 100000 := by
  have hpayload : (∀ put ∈ writePayload {}, put.Fits) ∧ (ByteCodec.putBytes (writePayload {})).length ≤ 4096 := by
    decide +kernel
  refine ⟨_, saveFile_fits hpayload.1 (Nat.le_trans hpayload.2 (by decide)) (Nat.le_trans hpayload.2 (by decide)), ?_⟩
  rw [length_fileOf, headerBytes, trailerBytes]
  have hshort := hpayload.2
  omega

/-! ### Saves replace files whole, and loads read them whole -/

/-- A name has what the latest save to it has put there, or what was there at first. -/
def HoldsLatest (start disk : Disk) (path : Text) : Prop :=
  match latest disk.current.puts path with
  | none => disk.bytesAt path = start.bytesAt path
  | some call => disk.Kept call → disk.bytesAt path = some call.bytes

/-- What a save that has returned has done to the directory. -/
def HasReturned (disk : Disk) (save : SaveRun) : SaveResult → Prop
  | .success => save.call ∈ disk.current.puts ∧ ∀ temporary, save.temporary = some temporary → disk.current.names temporary = none
  | .failure _ =>
    (∀ put ∈ disk.current.puts, put.number ≠ save.call.number) ∧
      ∀ temporary, save.temporary = some temporary → disk.current.names temporary = none
  | .thrown => ∀ put ∈ disk.current.puts, put.number ≠ save.call.number

/-- Saves replace files whole. -/
structure ReplacesWhole (start disk : Disk) : Prop where
  holds : ∀ path, ¬TemporaryName path → HoldsLatest start disk path
  /-- what is put is the file of a state, once for each call -/
  saved : ∀ call ∈ disk.current.puts, saveFile call.impl call.path call.options.maxBytes = .ok call.bytes
  once : (disk.current.puts.map SaveCall.number).Nodup
  returned : ∀ save ∈ disk.saves, ∀ result, save.stage = .returned result → HasReturned disk save result
  /-- a call that has not returned has changed nothing but its own temporary file -/
  pending : ∀ save ∈ disk.saves, (∀ result, save.stage ≠ .returned result) →
    ∀ put ∈ disk.current.puts, put.number ≠ save.call.number

/-- Whatever calls, failures, deaths of the process and losses of power there have been, a name has one file whole, and
what a save returns says whether it is of that save. -/
theorem saves_replace (hreach : Reaches start disk) (hstart : Fresh start) (hnamed : disk.named < 2 ^ 64) :
    ReplacesWhole start disk := by
  have hvalid := hreach.valid hstart hnamed
  have hcurrent := hvalid.moments disk.current List.mem_cons_self
  constructor
  · intro path hpath
    have hshows := hcurrent.shows path hpath
    rw [Shows] at hshows
    rw [HoldsLatest]
    cases hlatest : latest disk.current.puts path with
    | none =>
      rw [hlatest] at hshows
      obtain ⟨hnames, hfiles⟩ := hshows
      simp only [bytesAt, ← hnames]
      cases hname : disk.current.names path with
      | none => rfl
      | some file =>
        simp only [Option.bind_some, fileBytes, hfiles file hname]
    | some call =>
      rw [hlatest] at hshows
      obtain ⟨file, data, hname, hdata, hbytes, -⟩ := hshows
      intro hkept
      rw [bytesAt_eq hname hdata, hbytes hkept]
  · exact fun call hcall => (hcurrent.calls call hcall).2
  · exact hcurrent.once
  · intro save hsave result hresult
    obtain ⟨index, hindex⟩ := List.getElem?_of_mem hsave
    have hsaves := hvalid.saves index save hindex
    have hholds := hsaves.holds
    rw [SaveHolds, hresult] at hholds
    cases result with
    | success =>
      refine ⟨hsaves.put hresult, ?_⟩
      intro temporary htemporary
      rw [htemporary] at hholds
      exact hholds
    | failure error =>
      refine ⟨hsaves.unput (by rw [hresult]; exact nofun), ?_⟩
      intro temporary htemporary
      rw [htemporary] at hholds
      exact hholds
    | thrown => exact hsaves.unput (by rw [hresult]; exact nofun)
  · intro save hsave hlive
    obtain ⟨index, hindex⟩ := List.getElem?_of_mem hsave
    exact (hvalid.saves index save hindex).unput (hlive .success)

theorem eq_of_prefix {bytes whole : List UInt8} (h : bytes <+: whole) (hbytes : WellFramed bytes) (hwhole : WellFramed whole) :
    bytes = whole := by
  have htake := List.prefix_iff_eq_take.mp h
  obtain hshort | hlong := Nat.lt_or_ge bytes.length whole.length
  · have hrejected := hwhole.take_rejected hshort
    rw [← htake] at hrejected
    exact absurd hbytes (rejected_iff.mp hrejected)
  · rw [htake, List.take_of_length_le hlong]

/-- After a save has returned, the name has its file. -/
theorem saves_replace_sample : ∃ (disk : Disk) (file : List UInt8), Reaches Sample.emptyDisk disk ∧
    ReplacesWhole Sample.emptyDisk disk ∧ saveFile {} "state" 0 = .ok file ∧ disk.bytesAt "state" = some file := by
  obtain ⟨file, hsave, hsize⟩ := Sample.saves_empty
  obtain ⟨disk, hreach, hnamed, hputs, hkept, -⟩ := Sample.saves_and_loads hsave hsize Sample.state_not_temporary
  have hwhole := saves_replace hreach Sample.emptyDisk_fresh (by rw [hnamed]; decide)
  have hholds := hwhole.holds "state" Sample.state_not_temporary
  rw [HoldsLatest, hputs, ← List.nil_append [_], latest_append, if_pos rfl] at hholds
  exact ⟨disk, file, hreach, hwhole, hsave, hholds hkept⟩

/-- What a load has read is all that one save wrote, or the file that was there at first. -/
def ReadsWhole (start disk : Disk) (load : LoadRun) (bytes : List UInt8) : Prop :=
  ∃ puts, puts <+: disk.current.puts ∧ load.since ≤ puts.length ∧
    match latest puts load.path with
    | none => ∃ whole, start.bytesAt load.path = some whole ∧ (WellFramed whole → bytes = whole)
    | some call => disk.Kept call → bytes = call.bytes

end Disk

end AgentScheduler
