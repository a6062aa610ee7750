import AgentScheduler.Text

/-! Structured outcomes and errors. -/
namespace AgentScheduler

/-- Stable machine-readable error codes. -/
inductive ErrorCode
  | ok | invalidArgument | limitExceeded | notFound | staleGeneration | conflict | duplicate | notEligible
  | noCapacity | policyRejected | capabilityRejected | notReady | unhealthy | unreachable | leaseExpired
  | fenced | cancelled | superseded | shuttingDown | admissionClosed | persistenceFormat
  | persistenceIntegrity | persistenceIo | persistenceUnsupportedVersion | protocolError | decodeError
  | recoveryRejected | invariantViolation | notStarted | alreadyStarted | internal | deadlineExpired
  | feasibilityRejected | drainBarrier | exclusiveConflict
deriving DecidableEq

/-- Outcome of a scheduling operation. -/
inductive ScheduleOutcome
  | assigned | noChange | deferred | noEligibleAgent
  | rejectStaleSchedulerEpoch | rejectStaleCoordinatorEpoch | rejectStaleAgentBoot
  | rejectStaleAgentGeneration | rejectStaleWorkGeneration | rejectStaleAssignment | rejectStalePolicy
  | rejectStaleCapability | rejectResourceFeasibility | rejectBudget | rejectSlo | rejectPolicy
  | rejectCancelled | rejectSuperseded | rejectConflict | revalidationRequired | shuttingDown
  | rejectInvalidRequest | rejectLimitExceeded | rejectHealth | rejectReachability | rejectReadiness
  | rejectCapacity | rejectAffinity | rejectLocality | rejectTenant | rejectLeaseExpired | rejectDrain
  | rejectDuplicate | rejectExpired | rejectFenced | rejectReservation | rejectLifecycle
  | rejectDeadline | rejectCapability | rejectStaleQueueGeneration
deriving DecidableEq

/-- The text of `to_string(ScheduleOutcome)`. -/
def ScheduleOutcome.toText : ScheduleOutcome → Text
  | assigned => "ASSIGNED"
  | noChange => "NO_CHANGE"
  | deferred => "DEFERRED"
  | noEligibleAgent => "NO_ELIGIBLE_AGENT"
  | rejectStaleSchedulerEpoch => "REJECT_STALE_SCHEDULER_EPOCH"
  | rejectStaleCoordinatorEpoch => "REJECT_STALE_COORDINATOR_EPOCH"
  | rejectStaleAgentBoot => "REJECT_STALE_AGENT_BOOT"
  | rejectStaleAgentGeneration => "REJECT_STALE_AGENT_GENERATION"
  | rejectStaleWorkGeneration => "REJECT_STALE_WORK_GENERATION"
  | rejectStaleAssignment => "REJECT_STALE_ASSIGNMENT"
  | rejectStalePolicy => "REJECT_STALE_POLICY"
  | rejectStaleCapability => "REJECT_STALE_CAPABILITY"
  | rejectResourceFeasibility => "REJECT_RESOURCE_FEASIBILITY"
  | rejectBudget => "REJECT_BUDGET"
  | rejectSlo => "REJECT_SLO"
  | rejectPolicy => "REJECT_POLICY"
  | rejectCancelled => "REJECT_CANCELLED"
  | rejectSuperseded => "REJECT_SUPERSEDED"
  | rejectConflict => "REJECT_CONFLICT"
  | revalidationRequired => "REVALIDATION_REQUIRED"
  | shuttingDown => "SHUTTING_DOWN"
  | rejectInvalidRequest => "REJECT_INVALID_REQUEST"
  | rejectLimitExceeded => "REJECT_LIMIT_EXCEEDED"
  | rejectHealth => "REJECT_HEALTH"
  | rejectReachability => "REJECT_REACHABILITY"
  | rejectReadiness => "REJECT_READINESS"
  | rejectCapacity => "REJECT_CAPACITY"
  | rejectAffinity => "REJECT_AFFINITY"
  | rejectLocality => "REJECT_LOCALITY"
  | rejectTenant => "REJECT_TENANT"
  | rejectLeaseExpired => "REJECT_LEASE_EXPIRED"
  | rejectDrain => "REJECT_DRAIN"
  | rejectDuplicate => "REJECT_DUPLICATE"
  | rejectExpired => "REJECT_EXPIRED"
  | rejectFenced => "REJECT_FENCED"
  | rejectReservation => "REJECT_RESERVATION"
  | rejectLifecycle => "REJECT_LIFECYCLE"
  | rejectDeadline => "REJECT_DEADLINE"
  | rejectCapability => "REJECT_CAPABILITY"
  | rejectStaleQueueGeneration => "REJECT_STALE_QUEUE_GENERATION"

/-- Structured, safe-to-publish error. -/
structure SchedulerError where
  code : ErrorCode
  operation : Text
  subject : Text
  currentGeneration : UInt64 := 0
  expectedGeneration : UInt64 := 0
  factors : List Text := []
  detail : Text
  outcome : ScheduleOutcome := .noChange
deriving DecidableEq

/-- `make_error`. -/
def makeError (code : ErrorCode) (operation subject detail : Text) (outcome : ScheduleOutcome := .noChange) :
    SchedulerError where
  code := code
  operation := operation
  subject := subject
  detail := detail
  outcome := outcome

/-- Result of a state-changing operation: success, or a structured error. -/
abbrev MutationResult := Except SchedulerError Unit

/-- A check of the source: fails with `error` when `condition` holds. -/
def rejectIf (condition : Prop) [Decidable condition] (error : SchedulerError) : MutationResult :=
  if condition then .error error else .ok ()

/-- A text check of `internal/util.cpp`, its problem turned into an error. -/
def rejectProblem (problem : Option Text) (error : Text → SchedulerError) : MutationResult :=
  match problem with
  | none => .ok ()
  | some detail => .error (error detail)

@[simp] theorem rejectIf_eq_ok {condition : Prop} [Decidable condition] {error : SchedulerError} {u : Unit} :
    rejectIf condition error = .ok u ↔ ¬condition := by
  by_cases h : condition <;> simp [rejectIf, h]

@[simp] theorem rejectProblem_eq_ok {problem : Option Text} {error : Text → SchedulerError} {u : Unit} :
    rejectProblem problem error = .ok u ↔ problem = none := by
  cases problem <;> simp [rejectProblem]

/-- A check in a chain of checks: it passes and the rest of the chain succeeds. -/
theorem check_bind_eq_ok {ε β : Type} {x : Except ε Unit} {f : Unit → Except ε β} {b : β} :
    (x >>= f) = .ok b ↔ x = .ok () ∧ f () = .ok b := by
  cases x <;> simp [bind, Except.bind]

theorem except_bind_eq_ok {ε α β : Type} {x : Except ε α} {f : α → Except ε β} {b : β} :
    (x >>= f) = .ok b ↔ ∃ a, x = .ok a ∧ f a = .ok b := by
  cases x <;> simp [bind, Except.bind]

/-- A check over a list passes when it passes on every element. -/
theorem forM_eq_ok {α ε : Type} {check : α → Except ε Unit} {xs : List α} :
    xs.forM check = .ok () ↔ ∀ x ∈ xs, check x = .ok () := by
  induction xs with
  | nil => simp [List.forM, pure, Except.pure]
  | cons x xs ih =>
    have hcons : (x :: xs).forM check = (check x >>= fun _ => xs.forM check) := rfl
    rw [hcons, check_bind_eq_ok, ih, List.forall_mem_cons]

end AgentScheduler
