import AgentScheduler.Scheduler

/-! The public operations on work: admission, cancellation, supersession and deadline expiry. -/
namespace AgentScheduler

private def submitError (code : ErrorCode) (work : WorkId) (detail : Text) (outcome : ScheduleOutcome) :
    SchedulerError :=
  makeError code "submit_work" work.toText detail outcome

/-- What `submit_work` decides about an already known work item. -/
inductive Resubmission
  /-- the identical request is already admitted -/
  | unchanged
  /-- a higher generation replaces the stored one -/
  | reopen
deriving DecidableEq

/-- The checks both sections of `submit_work` make against a known work item. The texts of the two sections
differ only for a cancelled item. -/
def checkResubmission (canonical : WorkRequest) (existing : WorkRecord) (cancelledDetail : Text) :
    Except SchedulerError Resubmission := do
  rejectIf (canonical.generation < existing.request.generation)
    (submitError .staleGeneration canonical.id "work generation is stale" .rejectStaleWorkGeneration)
  if canonical.generation = existing.request.generation then
    rejectIf (existing.lifecycle = .cancelled)
      (submitError .cancelled canonical.id cancelledDetail .rejectCancelled)
    rejectIf (existing.lifecycle = .superseded)
      (submitError .superseded canonical.id "work is superseded" .rejectSuperseded)
    rejectIf (existing.request ≠ canonical)
      (submitError .conflict canonical.id "conflicting work publication for the current generation"
        .rejectConflict)
    return .unchanged
  else return .reopen

def checkAdmissionOpen (impl : Impl) (work : WorkId) : MutationResult :=
  rejectIf (¬impl.admissionOpen)
    (submitError .admissionClosed work "admission is closed" .shuttingDown)

def checkWorkRoom (impl : Impl) (work : WorkId) : MutationResult :=
  rejectIf (impl.limits.maxWorkItems.toNat ≤ impl.work.size)
    (submitError .limitExceeded work "work item count exceeds max_work_items" .rejectLimitExceeded)

/-- The queue check of the first section of `submit_work`. -/
def checkQueueGeneration (impl : Impl) (canonical : WorkRequest) : MutationResult :=
  match impl.queues[canonical.queue]? with
  | none => .ok ()
  | some queue =>
    rejectIf (canonical.queueGeneration < queue.generation)
      (submitError .staleGeneration canonical.id "queue generation is stale" .rejectStaleQueueGeneration)

/-- The validation of `submit_work` and its first locked section; `true` means nothing is left to do. -/
def submitWorkBegin (impl : Impl) (request : WorkRequest) : Except SchedulerError Bool := do
  let canonical := request.canonicalize
  canonical.validate impl.limits
  checkAdmissionOpen impl canonical.id
  match impl.work[canonical.id]? with
  | some existing =>
    match ← checkResubmission canonical existing
      "work is cancelled and cannot be re-admitted at the same generation" with
    | .unchanged => return true
    | .reopen =>
      checkQueueGeneration impl canonical
      return false
  | none =>
    checkWorkRoom impl canonical.id
    checkQueueGeneration impl canonical
    return false

/-- The record of admitted work; re-admission keeps only the assignment generation counter. -/
def admittedRecord (now : UInt64) (impl : Impl) (request : WorkRequest) (reason : Text)
    (lastGeneration : AssignmentGeneration) : WorkRecord :=
  { request := request
    lifecycle := .admitted
    admittedSequence := impl.nextAdmissionSequence
    admittedAtMs := now
    lastAssignmentGeneration := lastGeneration
    reason := reason }

/-- `impl.next_admission_sequence++`. -/
def Impl.takeSequence (impl : Impl) : Impl :=
  { impl with nextAdmissionSequence := impl.nextAdmissionSequence + 1 }

/-- Counts an admission on the queue and the tenant of a request. -/
def countAdmission (impl : Impl) (request : WorkRequest) : Impl :=
  { impl with
    queues := impl.queues.modify request.queue fun queue =>
      { queue with admittedCount := queue.admittedCount + 1 }
    tenants := impl.tenants.modify request.requirements.tenant fun tenant =>
      { tenant with admittedCount := tenant.admittedCount + 1 } }

/-- `ensure_queue` and `ensure_tenant`, then the rest; a failure leaves what was changed before it. -/
def withQueueAndTenant (impl : Impl) (request : WorkRequest) (body : Impl → Impl) : Step :=
  match ensureQueue impl request with
  | .error error => (.error error, impl)
  | .ok queued =>
    match ensureTenant queued request.requirements.tenant with
    | .error error => (.error error, queued)
    | .ok ready => (.ok (), body ready)

/-- Replaces the request of a stored work item by one of a higher generation. -/
def replaceWork (now : UInt64) (impl : Impl) (request : WorkRequest) (existing : WorkRecord) (reason : Text) :
    Impl :=
  let impl := closeWork now impl request.id .superseded .workSuperseded "work generation was superseded"
  let impl := deindexWork impl request.id
  let record := admittedRecord now impl request reason existing.lastAssignmentGeneration
  indexWork (impl.takeSequence.setWork request.id record) record

/-- The second locked section of `submit_work`. -/
def submitWorkCommit (now : UInt64) (impl : Impl) (request : WorkRequest) : Step :=
  let canonical := request.canonicalize
  guarded impl (checkAdmissionOpen impl canonical.id) fun _ =>
    match impl.work[canonical.id]? with
    | some existing =>
      guarded impl (checkResubmission canonical existing "work is cancelled") fun decision =>
        match decision with
        | .unchanged => (.ok (), impl)
        | .reopen =>
          let impl := replaceWork now impl canonical existing "re-admitted at a higher generation"
          withQueueAndTenant impl canonical fun impl => (countAdmission impl canonical).revise
    | none =>
      guarded impl (checkWorkRoom impl canonical.id) fun _ =>
        let record := admittedRecord now impl canonical "admitted" 0
        withQueueAndTenant impl.takeSequence canonical fun impl =>
          let impl := indexWork (impl.setWork canonical.id record) record
          (countAdmission impl canonical).revise

private def cancelError (code : ErrorCode) (work : WorkId) (detail : Text) (outcome : ScheduleOutcome) :
    SchedulerError :=
  makeError code "cancel_work" work.toText detail outcome

/-- The lookup both sections of `cancel_work` make. -/
def cancelTarget (impl : Impl) (work : WorkId) (generation : WorkGeneration) : Except SchedulerError WorkRecord := do
  let record ← lookupOrFail impl.work[work]?
    (cancelError .notFound work "work is not known" .rejectInvalidRequest)
  rejectIf (record.request.generation ≠ generation)
    (cancelError .staleGeneration work "work generation moved" .rejectStaleWorkGeneration)
  return record

/-- The first locked section of `cancel_work`; `true` means the work is already cancelled. -/
def cancelWorkBegin (impl : Impl) (work : WorkId) (generation : WorkGeneration) : Except SchedulerError Bool := do
  let record ← cancelTarget impl work generation
  return record.lifecycle = .cancelled

/-- Closes the active assignments of a work item and gives it a terminal lifecycle. -/
def settleWork (now : UInt64) (impl : Impl) (work : WorkId) (state : AssignmentState) (reason : InvalidationReason)
    (detail : Text) (lifecycle : WorkLifecycle) (workReason : Text) : Impl :=
  let impl := closeWork now impl work state reason detail
  let impl := impl.modifyWork work fun record => { record with lifecycle := lifecycle, reason := workReason }
  syncWorkLifecycleIndex impl work lifecycle

/-- The second locked section of `cancel_work`. -/
def cancelWorkCommit (now : UInt64) (impl : Impl) (work : WorkId) (generation : WorkGeneration) (reason : Text) :
    Step :=
  guarded impl (cancelTarget impl work generation) fun record =>
    if record.lifecycle = .cancelled then (.ok (), impl)
    else if record.lifecycle.isTerminal then
      (.error (cancelError .conflict work "work is already terminal" .rejectConflict), impl)
    else
      let impl := settleWork now impl work .cancelled .workCancelled reason .cancelled
        (if reason.isEmpty then "cancelled" else reason)
      (.ok (), impl.revise)

private def supersedeError (code : ErrorCode) (work : WorkId) (detail : Text) (outcome : ScheduleOutcome) :
    SchedulerError :=
  makeError code "supersede_work" work.toText detail outcome

/-- The checks of `supersede_work`. -/
def checkSupersession (impl : Impl) (work : WorkId) (expectedGeneration : WorkGeneration)
    (replacement : WorkRequest) : Except SchedulerError WorkRecord := do
  rejectIf (replacement.id ≠ work)
    (supersedeError .invalidArgument work "replacement work id does not match the target"
      .rejectInvalidRequest)
  let canonical := replacement.canonicalize
  canonical.validate impl.limits
  let record ← lookupOrFail impl.work[work]?
    (supersedeError .notFound work "work is not known" .rejectInvalidRequest)
  rejectIf (record.request.generation ≠ expectedGeneration)
    (supersedeError .staleGeneration work "work generation moved" .rejectStaleWorkGeneration)
  rejectIf (canonical.generation ≤ expectedGeneration)
    (supersedeError .staleGeneration work
      "replacement generation must be higher than the superseded generation" .rejectStaleWorkGeneration)
  rejectIf (record.lifecycle = .cancelled)
    (supersedeError .cancelled work "work is cancelled" .rejectCancelled)
  return record

/-- `AgentScheduler::supersede_work`; it counts no admission on the queue or the tenant. -/
def supersedeWork (now : UInt64) (impl : Impl) (work : WorkId) (expectedGeneration : WorkGeneration)
    (replacement : WorkRequest) : Step :=
  guarded impl (checkSupersession impl work expectedGeneration replacement) fun record =>
    let canonical := replacement.canonicalize
    let impl := replaceWork now impl canonical record "superseded"
    withQueueAndTenant impl canonical Impl.revise

/-- Whether `expire_deadlines` expires a work item. -/
def deadlinePassed (now : UInt64) (record : WorkRecord) : Bool :=
  !record.lifecycle.isTerminal && record.request.requirements.deadlineMs ≠ 0 &&
    record.request.requirements.deadlineMs < now

/-- One turn of the loop of `expire_deadlines`; the flag records whether anything changed. -/
def expireDeadline (now : UInt64) (acc : Impl × Bool) (work : WorkId) : Impl × Bool :=
  match acc.1.work[work]? with
  | none => acc
  | some record =>
    if deadlinePassed now record then
      (settleWork now acc.1 work .expired .rejected "work deadline passed" .expired "deadline passed", true)
    else acc

/-- `AgentScheduler::expire_deadlines`. -/
def expireDeadlines (now : UInt64) (impl : Impl) : Step :=
  let (impl, changed) := impl.work.keys.foldl (expireDeadline now) (impl, false)
  (.ok (), if changed then impl.revise else impl)

end AgentScheduler
