import AgentScheduler.Encoding

/-! Versioned, integrity-checked durable state: `save`, the file container, and conservative `load`. -/
namespace AgentScheduler
open Std ByteCodec

/-- The durable part of a scheduler, as it is decoded from a state file. -/
structure DecodedState where
  schedulerId : SchedulerId := 0
  schedulerEpoch : SchedulerEpoch := 0
  coordinatorEpoch : CoordinatorEpoch := 0
  queueGeneration : QueueGeneration := 0
  nextAdmissionSequence : Nat := 1
  assignmentsCreated : Nat := 0
  assignmentsInvalidated : Nat := 0
  schedulingRounds : Nat := 0
  admissionOpen : Bool := false
  shuttingDown : Bool := false
  policy : PolicySnapshot := {}
  queues : Table QueueId QueueRecord := ∅
  tenants : Table TenantId TenantRecord := ∅
  agents : Table AgentId AgentRecord := ∅
  work : Table WorkId WorkRecord := ∅
  assignments : Table AssignmentId AssignmentRecord := ∅
  leases : Table LeaseId Lease := ∅
  fencedBoots : Table AgentBootId FencedBoot := ∅
  /-- `assignments_requiring_revalidation` of the recovery result. -/
  requiringRevalidation : Nat := 0

/-! ### Conservative recovery of single records -/

/-- `lifecycle_hint`. -/
def lifecycleHint : AgentLifecycle → UInt8
  | .retired => 1
  | .lost => 2
  | _ => 0

/-- `lifecycle_from_hint`. -/
def lifecycleFromHint (hint : UInt8) : AgentLifecycle :=
  if hint = 1 then .retired else if hint = 2 then .lost else .revalidationRequired

/-- `work_lifecycle_from_hint`. -/
def workLifecycleFromHint (hint : UInt8) : WorkLifecycle :=
  [WorkLifecycle.unknown, .admitted, .assigned, .executing, .completed, .failed, .cancelled, .superseded,
    .expired].getD hint.toNat .unknown

/-- What recovery keeps of an agent: identity and history; evidence is never restored as current. -/
def AgentRecord.recover (record : AgentRecord) : AgentRecord where
  descriptor := record.descriptor
  lifecycle := lifecycleFromHint (lifecycleHint record.lifecycle)
  assignmentsCompleted := record.assignmentsCompleted
  assignmentsFailed := record.assignmentsFailed
  registeredAtMs := record.registeredAtMs
  recentAssignments := record.recentAssignments
  reason := record.reason
  profile := record.profile.invalidateEvidence
  recovered := true

/-- What recovery keeps of a work item; running items are admitted again until their slots are counted. -/
def WorkRecord.recover (record : WorkRecord) : WorkRecord :=
  { record with
    lifecycle :=
      if record.lifecycle = .assigned ∨ record.lifecycle = .executing then .admitted else record.lifecycle
    currentAssignments := 0 }

/-- A recovered assignment never silently regains dispatch authority. -/
def AssignmentRecord.recover (record : AssignmentRecord) : AssignmentRecord :=
  if record.state.isActive then
    { record with
      state := .revalidationRequired
      leaseCurrent := false
      binding := { record.binding with leaseExpiresAtMs := 0 } }
  else { record with leaseCurrent := false }

def Lease.recover (lease : Lease) : Lease := { lease with current := false }

/-! ### Record sections -/

def writeQueue (limits : ResourceLimits) (queue : QueueRecord) : List Put :=
  [writeId queue.id, writeId queue.generation, writeText queue.fairnessClass limits.maxIdentifierSize,
   putU32 queue.weight, writeNat queue.admittedCount, writeNat queue.assignedCount,
   writeNat queue.completedCount, writeNat queue.cancelledCount].flatten

def readQueue (limits : ResourceLimits) : Decoder QueueRecord := do
  let id ← readId
  let generation ← readId
  let fairnessClass ← readText limits.maxIdentifierSize
  let weight ← readU32
  let admittedCount ← readNat
  let assignedCount ← readNat
  let completedCount ← readNat
  let cancelledCount ← readNat
  return { id, generation, fairnessClass, weight, admittedCount, assignedCount, completedCount, cancelledCount }

def writeTenant (tenant : TenantRecord) : List Put :=
  [writeId tenant.id, writeNat tenant.admittedCount, writeNat tenant.activeAssignments].flatten

def readTenant : Decoder TenantRecord := do
  let id ← readId
  let admittedCount ← readNat
  let activeAssignments ← readNat
  return { id, admittedCount, activeAssignments }

def writeAgent (limits : ResourceLimits) (record : AgentRecord) : List Put :=
  [writeDescriptor limits record.descriptor, putU8 (lifecycleHint record.lifecycle),
   writeNat record.assignmentsCompleted, writeNat record.assignmentsFailed, putU64 record.registeredAtMs,
   putU32 record.recentAssignments, writeText record.reason limits.maxStringSize,
   writeCapabilities limits record.profile].flatten

def readAgent (limits : ResourceLimits) : Decoder AgentRecord := do
  let descriptor ← readDescriptor limits
  let hint ← readU8
  failIf (2 < hint) "agent lifecycle hint is out of range"
  let assignmentsCompleted ← readNat
  let assignmentsFailed ← readNat
  let registeredAtMs ← readU64
  let recentAssignments ← readU32
  let reason ← readText limits.maxStringSize
  let profile ← readCapabilities limits
  return { descriptor, lifecycle := lifecycleFromHint hint, assignmentsCompleted, assignmentsFailed,
           registeredAtMs, recentAssignments, reason, profile := profile.invalidateEvidence,
           recovered := true }

def writeWork (limits : ResourceLimits) (record : WorkRecord) : List Put :=
  [writeWorkRequest limits record.request, putU8 record.lifecycle.code, writeNat record.admittedSequence,
   putU64 record.admittedAtMs, putU32 record.bypassCount, putU32 record.starvationRounds,
   writeCounter record.lastAssignmentGeneration, writeText record.reason limits.maxStringSize].flatten

def readWork (limits : ResourceLimits) : Decoder WorkRecord := do
  let request ← readWorkRequest limits
  let hint ← readU8
  failIf (workLifecycleFromHint hint = .unknown) "work lifecycle hint is out of range"
  let admittedSequence ← readNat
  let admittedAtMs ← readU64
  let bypassCount ← readU32
  let starvationRounds ← readU32
  let lastAssignmentGeneration ← readCounter
  let reason ← readText limits.maxStringSize
  return WorkRecord.recover
    { request, lifecycle := workLifecycleFromHint hint, admittedSequence, admittedAtMs, bypassCount,
      starvationRounds, lastAssignmentGeneration, reason }

def writeAssignment (limits : ResourceLimits) (record : AssignmentRecord) : List Put :=
  [writeBinding record.binding, writeEnum record.state.ctorIdx, writeEnum record.invalidation.ctorIdx,
   putU64 record.dispatchedAtMs, putU64 record.acknowledgedAtMs, putU64 record.closedAtMs,
   writeText record.reason limits.maxStringSize].flatten

def readAssignment (limits : ResourceLimits) : Decoder AssignmentRecord := do
  let binding ← readBinding
  let state ← readEnum AssignmentState.all "assignment state is out of range"
  let invalidation ← readEnum InvalidationReason.all "assignment invalidation reason is out of range"
  let dispatchedAtMs ← readU64
  let acknowledgedAtMs ← readU64
  let closedAtMs ← readU64
  let reason ← readText limits.maxStringSize
  return AssignmentRecord.recover
    { binding, state, invalidation, dispatchedAtMs, acknowledgedAtMs, closedAtMs, reason }

def writeLease (lease : Lease) : List Put :=
  [writeHash lease.id, writeCounter lease.generation, writeHash lease.assignment,
   writeCounter lease.assignmentGeneration, writeId lease.agent, writeHash lease.boot,
   putU64 lease.grantedAtMs, putU64 lease.expiresAtMs].flatten

def readLease : Decoder Lease := do
  let id ← readHash
  let generation ← readCounter
  let assignment ← readHash
  let assignmentGeneration ← readCounter
  let agent ← readId
  let boot ← readHash
  let grantedAtMs ← readU64
  let expiresAtMs ← readU64
  return { id, generation, assignment, assignmentGeneration, agent, boot, grantedAtMs, expiresAtMs }

def writeFenced (limits : ResourceLimits) (fenced : FencedBoot) : List Put :=
  [writeId fenced.agent, writeHash fenced.boot, writeId fenced.generation, putU64 fenced.fencedAtMs,
   writeText fenced.reason limits.maxStringSize].flatten

def readFenced (limits : ResourceLimits) : Decoder FencedBoot := do
  let agent ← readId
  let boot ← readHash
  let generation ← readId
  let fencedAtMs ← readU64
  let reason ← readText limits.maxStringSize
  return { agent, boot, generation, fencedAtMs, reason }

/-- `emplace` of the records in reading order; a key that is taken keeps its record. -/
def emplaceAll {Key Value : Type} [Ord Key] [TransOrd Key] (table : Table Key Value) (key : Value → Key)
    (records : List Value) : Table Key Value :=
  records.foldl (fun table record => table.insertIfNew (key record) record) table

/-- The scheduler section. -/
def writeScheduler (impl : Impl) : List Put :=
  [writeId impl.schedulerId, writeCounter impl.schedulerEpoch, writeCounter impl.coordinatorEpoch,
   writeId impl.queueGeneration, writeNat impl.nextAdmissionSequence, writeNat impl.assignmentsCreated,
   writeNat impl.assignmentsInvalidated, writeNat impl.schedulingRounds, putBool impl.admissionOpen,
   putBool impl.shuttingDown].flatten

/-- The nine sections `save` writes, in order, after their number. -/
def writePayload (impl : Impl) : List Put :=
  let limits := impl.limits
  [putU32 9,
   putU8 1, writeScheduler impl,
   putU8 2, writePolicy limits impl.policy,
   putU8 3, putList (writeQueue limits) impl.queues.values,
   putU8 4, putList writeTenant impl.tenants.values,
   putU8 5, putList (writeAgent limits) impl.agents.values,
   putU8 6, putList (writeWork limits) impl.work.values,
   putU8 7, putList (writeAssignment limits) impl.assignments.values,
   putU8 8, putList writeLease impl.leases.values,
   putU8 9, putList (writeFenced limits) impl.fencedBoots.values].flatten

/-- The scheduler section of `load`. -/
def readScheduler (decoded : DecodedState) : Decoder DecodedState := do
  let schedulerId ← readId
  let schedulerEpoch ← readCounter
  let coordinatorEpoch ← readCounter
  let queueGeneration ← readId
  let nextAdmissionSequence ← readNat
  let assignmentsCreated ← readNat
  let assignmentsInvalidated ← readNat
  let schedulingRounds ← readNat
  let admissionOpen ← readBool
  let shuttingDown ← readBool
  return { decoded with
           schedulerId, schedulerEpoch, coordinatorEpoch, queueGeneration, nextAdmissionSequence,
           assignmentsCreated, assignmentsInvalidated, schedulingRounds, admissionOpen, shuttingDown }

/-- One section of `load`, by its tag. -/
def readSection (limits : ResourceLimits) (tag : UInt8) (decoded : DecodedState) : Decoder DecodedState :=
  match tag with
  | 1 => readScheduler decoded
  | 2 => do return { decoded with policy := ← readPolicy limits }
  | 3 => do
    let records ← readCounted (readQueue limits) limits.maxQueues "queue count exceeds the configured maximum"
    return { decoded with queues := emplaceAll decoded.queues QueueRecord.id records }
  | 4 => do
    let records ← readCounted readTenant limits.maxTenants "tenant count exceeds the configured maximum"
    return { decoded with tenants := emplaceAll decoded.tenants TenantRecord.id records }
  | 5 => do
    let records ← readCounted (readAgent limits) limits.maxAgents "agent count exceeds the configured maximum"
    return { decoded with agents := emplaceAll decoded.agents (fun record => record.descriptor.id) records }
  | 6 => do
    let records ← readCounted (readWork limits) limits.maxWorkItems "work count exceeds the configured maximum"
    return { decoded with work := emplaceAll decoded.work (fun record => record.request.id) records }
  | 7 => do
    -- the sum of the two bounds is taken in 32 bits
    let records ← readCounted (readAssignment limits)
      (limits.maxActiveAssignments + limits.maxHistoricalAssignments)
      "assignment count exceeds the configured maximum"
    return { decoded with
             assignments := emplaceAll decoded.assignments (fun record => record.binding.id) records
             requiringRevalidation := decoded.requiringRevalidation +
               records.countP fun record => record.state = .revalidationRequired }
  | 8 => do
    let records ← readCounted readLease limits.maxLeases "lease count exceeds the configured maximum"
    return { decoded with leases := emplaceAll decoded.leases Lease.id records }
  | 9 => do
    let records ← readCounted (readFenced limits) limits.maxFencedBoots
      "fenced boot count exceeds the configured maximum"
    return { decoded with fencedBoots := emplaceAll decoded.fencedBoots FencedBoot.boot records }
  | _ => throw ("unknown persistence section tag" : Text)

/-- The section loop of `load`; the first argument counts the sections left. -/
def readSections (limits : ResourceLimits) : Nat → DecodedState → Decoder DecodedState
  | 0, decoded => pure decoded
  | sections + 1, decoded => do
    let tag ← readU8
    let decoded ← readSection limits tag decoded
    readSections limits sections decoded

/-! ### The file container -/

def formatMagic : List UInt8 := ("AGSDCHST" : Text).bytes
def formatVersion : UInt32 := 1
def headerBytes : Nat := 72
def trailerBytes : Nat := 16

/-- The header, with a given header checksum. -/
def headerWith (payload : List UInt8) (recordCount : Nat) (headerCrc : UInt32) : List UInt8 :=
  [formatMagic, leBytes32 formatVersion, leBytes32 0, leBytes64 (UInt64.ofNat payload.length),
   leBytes64 (UInt64.ofNat recordCount), leBytes32 (crc32 payload), leBytes32 headerCrc,
   sha256 payload].flatten

/-- The header; its checksum is taken over the header with a zero in its place. -/
def headerOf (payload : List UInt8) (recordCount : Nat) : List UInt8 :=
  headerWith payload recordCount (crc32 (headerWith payload recordCount 0))

def trailerOf (body : List UInt8) : List UInt8 :=
  [formatMagic, leBytes32 (crc32 body ^^^ 0x5A5A5A5A), leBytes32 0].flatten

/-- Header, payload and trailer. -/
def fileOf (payload : List UInt8) (recordCount : Nat) : List UInt8 :=
  let body := headerOf payload recordCount ++ payload
  body ++ trailerOf body

/-- The number of records in the nine sections. -/
def recordCount (impl : Impl) : Nat :=
  impl.queues.size + impl.tenants.size + impl.agents.size + impl.work.size + impl.assignments.size +
    impl.leases.size + impl.fencedBoots.size

/-- How `save` can fail before the file is written: an exception of the encoder, or an error. -/
inductive SaveFailure
  | thrown (what : Text)
  | failed (error : SchedulerError)
deriving DecidableEq

/-- The encoder bound, `kMaxEncodeBytes`. -/
def maxEncodeBytes : Nat := 2 ^ 30

/-- The payload `save` encodes under the lock. -/
def savePayload (impl : Impl) : Except SaveFailure (List UInt8) :=
  runPuts maxEncodeBytes (.thrown "encoded message exceeds the maximum encodable size")
    (.thrown "string exceeds the configured maximum size") (writePayload impl)

/-- The bytes `AgentScheduler::save` hands to `write_atomically`; a zero bound means the configured one. -/
def saveFile (impl : Impl) (path : Text) (maxBytes : UInt64) : Except SaveFailure (List UInt8) := do
  let payload ← savePayload impl
  let bound := if maxBytes ≠ 0 then maxBytes else impl.limits.maxPersistenceBytes
  if bound.toNat < payload.length then
    .error (.failed (makeError .limitExceeded "save" path
      "encoded state exceeds the configured persistence byte limit" .rejectInvalidRequest))
  else .ok (fileOf payload (recordCount impl))

def loadError (code : ErrorCode) (subject detail : Text) : SchedulerError :=
  makeError code "load" subject detail .rejectInvalidRequest

/-- `memcpy` of a 32-bit field. -/
def fieldAt32 (file : List UInt8) (offset : Nat) : UInt32 := joinLe32 ((file.drop offset).take 4)
/-- `memcpy` of a 64-bit field. -/
def fieldAt64 (file : List UInt8) (offset : Nat) : UInt64 := joinLe64 ((file.drop offset).take 8)

/-- What `verify_file` extracts. -/
structure VerifiedFile where
  formatVersion : UInt32
  flags : UInt32
  payloadBytes : UInt64
  recordCount : UInt64
  payloadCrc : UInt32
  semanticDigest : List UInt8
  totalBytes : Nat
  payload : List UInt8

/-- `verify_file`: magic, version, header checksum, length, trailer and payload checksum. -/
def verifyFile (file : List UInt8) : Except SchedulerError VerifiedFile := do
  rejectIf (file.length < headerBytes + trailerBytes)
    (loadError .persistenceIntegrity "" "state file is shorter than the header and trailer")
  rejectIf (file.take 8 ≠ formatMagic) (loadError .persistenceFormat "" "state file magic does not match")
  let version := fieldAt32 file 8
  rejectIf (version ≠ formatVersion)
    (loadError .persistenceUnsupportedVersion ""
      ("state file format version " ++ natText version.toNat ++ " is not supported by this build (expected "
        ++ natText formatVersion.toNat ++ ")"))
  let header := file.take headerBytes
  let zeroed := header.take 36 ++ leBytes32 0 ++ header.drop 40
  rejectIf (crc32 zeroed ≠ fieldAt32 file 36)
    (loadError .persistenceIntegrity "" "state file header checksum mismatch")
  let payloadBytes := fieldAt64 file 16
  -- the expected length is a 64-bit sum
  rejectIf (((UInt64.ofNat headerBytes + payloadBytes + UInt64.ofNat trailerBytes).toNat) ≠ file.length)
    (loadError .persistenceIntegrity ""
      "state file length does not match the declared payload length (truncation or trailing garbage)")
  let bodyLength := headerBytes + payloadBytes.toNat
  rejectIf ((file.drop bodyLength).take 8 ≠ formatMagic)
    (loadError .persistenceIntegrity "" "state file trailer magic does not match")
  rejectIf ((crc32 (file.take bodyLength) ^^^ 0x5A5A5A5A) ≠ fieldAt32 file (bodyLength + 8))
    (loadError .persistenceIntegrity "" "state file trailer checksum mismatch")
  let payload := (file.drop headerBytes).take payloadBytes.toNat
  rejectIf (crc32 payload ≠ fieldAt32 file 32)
    (loadError .persistenceIntegrity "" "state file payload checksum mismatch")
  return { formatVersion := version, flags := fieldAt32 file 12, payloadBytes,
           recordCount := fieldAt64 file 24, payloadCrc := fieldAt32 file 32,
           semanticDigest := (file.drop 40).take 32, totalBytes := file.length, payload }

/-! ### Loading -/

structure LoadOptions where
  requireSemanticDigest : Bool := true
  inspectOnly : Bool := false

structure RecoveryResult where
  formatVersion : UInt32 := 0
  previousSchedulerEpoch : SchedulerEpoch := 0
  newSchedulerEpoch : SchedulerEpoch := 0
  previousCoordinatorEpoch : CoordinatorEpoch := 0
  newCoordinatorEpoch : CoordinatorEpoch := 0
  agentsLoaded : Nat := 0
  workLoaded : Nat := 0
  assignmentsLoaded : Nat := 0
  assignmentsRequiringRevalidation : Nat := 0
  leasesInvalidated : Nat := 0
  fencedBootsLoaded : Nat := 0
  dynamicEvidenceInvalidated : Nat := 0
  queuesLoaded : Nat := 0
  storedDigest : List UInt8 := []
  computedDigest : List UInt8 := []
  bytesRead : Nat := 0
  detail : Text := ""

/-- Decodes a payload into a candidate state; nothing is applied yet. -/
def decodePayload (limits : ResourceLimits) (path : Text) (payload : List UInt8) :
    Except SchedulerError DecodedState :=
  let failed (what : Text) := loadError .persistenceFormat path ("candidate state decode failed: " ++ what)
  match readU32 payload with
  | .error what => .error (failed what)
  | .ok (sectionCount, rest) =>
    if sectionCount ≠ 9 then
      .error (loadError .persistenceFormat path "section count does not match the current schema")
    else
      match readSections limits sectionCount.toNat {} rest with
      | .error what => .error (failed what)
      | .ok (decoded, trailing) =>
        if trailing ≠ [] then .error (failed "message payload carries trailing bytes") else .ok decoded

/-- What `load` does with the bytes of a file before it takes the lock again. -/
def decodeFile (limits : ResourceLimits) (path : Text) (options : LoadOptions) (file : List UInt8) :
    Except SchedulerError (VerifiedFile × DecodedState) := do
  rejectIf (limits.maxPersistenceBytes.toNat < file.length)
    (loadError .limitExceeded path "state file exceeds the configured persistence byte limit")
  let verified ← verifyFile file
  rejectIf (options.requireSemanticDigest ∧ verified.semanticDigest ≠ sha256 verified.payload)
    (loadError .persistenceIntegrity path "semantic state digest does not match the stored digest")
  let decoded ← decodePayload limits path verified.payload
  return (verified, decoded)

/-- The fields `load` assigns before it derives the rest. -/
def install (impl : Impl) (decoded : DecodedState) : Impl :=
  { impl with
    schedulerId := if decoded.schedulerId.isZero then impl.schedulerId else decoded.schedulerId
    schedulerEpoch := ⟨decoded.schedulerEpoch.value + 1⟩
    coordinatorEpoch := decoded.coordinatorEpoch
    queueGeneration := decoded.queueGeneration
    nextAdmissionSequence := if decoded.nextAdmissionSequence = 0 then 1 else decoded.nextAdmissionSequence
    assignmentsCreated := decoded.assignmentsCreated
    assignmentsInvalidated := decoded.assignmentsInvalidated
    schedulingRounds := decoded.schedulingRounds
    policy := decoded.policy
    queues := decoded.queues
    tenants := decoded.tenants
    agents := decoded.agents
    work := decoded.work
    assignments := decoded.assignments
    leases := decoded.leases
    fencedBoots := decoded.fencedBoots
    running := false
    admissionOpen := false
    shuttingDown := false
    shutdownAtMs := 0
    recovered := true }

/-- The last locked section of `load`: a candidate state becomes the state of a stopped scheduler. -/
def restore (impl : Impl) (decoded : DecodedState) : Impl :=
  let impl := rebuildIndexes (install impl decoded)
  let impl := impl.agents.keys.foldl refreshAgentAccounting impl
  let impl := impl.work.keys.foldl refreshWorkAccounting impl
  impl.revise

/-- The candidate state that decoding the file of a scheduler gives back: its durable part, with the records
as recovery keeps them. -/
def image (impl : Impl) : DecodedState where
  schedulerId := impl.schedulerId
  schedulerEpoch := impl.schedulerEpoch
  coordinatorEpoch := impl.coordinatorEpoch
  queueGeneration := impl.queueGeneration
  nextAdmissionSequence := impl.nextAdmissionSequence
  assignmentsCreated := impl.assignmentsCreated
  assignmentsInvalidated := impl.assignmentsInvalidated
  schedulingRounds := impl.schedulingRounds
  admissionOpen := impl.admissionOpen
  shuttingDown := impl.shuttingDown
  policy := impl.policy
  queues := impl.queues
  tenants := impl.tenants
  agents := impl.agents.map fun _ record => record.recover
  work := impl.work.map fun _ record => record.recover
  assignments := impl.assignments.map fun _ record => record.recover
  leases := impl.leases.map fun _ lease => lease.recover
  fencedBoots := impl.fencedBoots
  requiringRevalidation := impl.assignments.values.countP fun record => record.state.isActive

/-- `AgentScheduler::load`, the file's bytes read; the state is checked again when it is applied. -/
def load (impl : Impl) (path : Text) (options : LoadOptions) (file : List UInt8) :
    Except SchedulerError RecoveryResult × Impl :=
  if impl.running then
    (.error (makeError .alreadyStarted "load" path "recovery requires a stopped scheduler"), impl)
  else
    match decodeFile impl.limits path options file with
    | .error error => (.error error, impl)
    | .ok (verified, decoded) =>
      let restored := restore impl decoded
      (.ok
        { formatVersion := verified.formatVersion
          previousSchedulerEpoch := impl.schedulerEpoch
          newSchedulerEpoch := restored.schedulerEpoch
          previousCoordinatorEpoch := impl.coordinatorEpoch
          newCoordinatorEpoch := restored.coordinatorEpoch
          agentsLoaded := decoded.agents.size
          workLoaded := decoded.work.size
          assignmentsLoaded := decoded.assignments.size
          assignmentsRequiringRevalidation := decoded.requiringRevalidation
          leasesInvalidated := decoded.leases.size
          fencedBootsLoaded := decoded.fencedBoots.size
          dynamicEvidenceInvalidated := decoded.agents.size
          queuesLoaded := decoded.queues.size
          storedDigest := verified.semanticDigest
          computedDigest := sha256 verified.payload
          bytesRead := verified.totalBytes
          detail := if options.inspectOnly then "inspected" else "recovered conservatively" },
       restored)

end AgentScheduler
