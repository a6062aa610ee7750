import AgentScheduler.Authority

/-! The public operations on lifecycle, policy, queues, agents and work. -/
namespace AgentScheduler

/-- What a locked section returns and leaves behind. -/
abbrev Step := MutationResult × Impl

/-- A locked section: its checks first, then the body on what the checks looked up. -/
def guarded {Found : Type} (impl : Impl) (check : Except SchedulerError Found) (body : Found → Step) : Step :=
  match check with
  | .error error => (.error error, impl)
  | .ok found => body found

/-- Looks up a record or fails. -/
def lookupOrFail {Value : Type} (found : Option Value) (error : SchedulerError) : Except SchedulerError Value :=
  match found with
  | none => .error error
  | some value => .ok value

@[simp] theorem lookupOrFail_eq_ok {Value : Type} {found : Option Value} {error : SchedulerError}
    {value : Value} : lookupOrFail found error = .ok value ↔ found = some value := by
  cases found <;> simp [lookupOrFail]

/-- `stale_boot`. -/
def staleBoot (impl : Impl) (record : AgentRecord) (boot : AgentBootId) : Bool :=
  record.descriptor.boot ≠ boot || bootIsFenced impl boot

/-- `effective_lease_ttl`: the declared or default duration, at most a day and never zero. -/
def effectiveLeaseTtl (impl : Impl) (descriptor : AgentDescriptor) : UInt64 :=
  let ttl := if descriptor.leaseTtlMs ≠ 0 then descriptor.leaseTtlMs else impl.policy.registrationLeaseTtlMs
  let capped := min ttl 86400000
  if capped = 0 then 1 else capped

/-- `index_agent` on the stored record. -/
def indexStoredAgent (impl : Impl) (agent : AgentId) : Impl :=
  match impl.agents[agent]? with
  | none => impl
  | some record => indexAgent impl record

/-- `refresh_agent`: derived accounting and indexes of one stored agent. -/
def refreshAgent (impl : Impl) (agent : AgentId) : Impl :=
  indexStoredAgent (refreshAgentAccounting (deindexAgent impl agent) agent) agent

/-- `ensure_queue`. -/
def ensureQueue (impl : Impl) (request : WorkRequest) : Except SchedulerError Impl :=
  match impl.queues[request.queue]? with
  | none =>
    if impl.limits.maxQueues.toNat ≤ impl.queues.size then
      .error (makeError .limitExceeded "submit_work" request.id.toText "queue count exceeds max_queues"
        .rejectLimitExceeded)
    else
      let record : QueueRecord :=
        { id := request.queue
          generation := request.queueGeneration
          fairnessClass := request.fairnessClass
          weight := fairnessClassWeight impl.policy request.fairnessClass }
      .ok { impl with queues := impl.queues.insertIfNew request.queue record }
  | some queue =>
    if request.queueGeneration < queue.generation then
      .error (makeError .staleGeneration "submit_work" request.id.toText "queue generation is stale"
        .rejectStaleQueueGeneration)
    else if queue.generation < request.queueGeneration then
      let record :=
        { queue with
          generation := request.queueGeneration
          fairnessClass := request.fairnessClass
          weight := fairnessClassWeight impl.policy request.fairnessClass }
      .ok { impl with queues := impl.queues.insert request.queue record }
    else .ok impl

/-- `ensure_tenant`. -/
def ensureTenant (impl : Impl) (tenant : TenantId) : Except SchedulerError Impl :=
  if tenant.isZero then .ok impl
  else if impl.tenants.contains tenant then .ok impl
  else if impl.limits.maxTenants.toNat ≤ impl.tenants.size then
    .error (makeError .limitExceeded "submit_work" tenant.toText "tenant count exceeds max_tenants"
      .rejectLimitExceeded)
  else .ok { impl with tenants := impl.tenants.insertIfNew tenant { id := tenant } }

/-- `close_all_active`: closes every active assignment of an incarnation. -/
def closeAllActive (now : UInt64) (impl : Impl) (boot : AgentBootId) (state : AssignmentState)
    (reason : InvalidationReason) (detail : Text) : Impl :=
  closeWhere now impl (fun record => record.binding.boot = boot && record.state.isActive) state reason detail

/-- The loop that closes every active assignment of a work item. -/
def closeWork (now : UInt64) (impl : Impl) (work : WorkId) (state : AssignmentState)
    (reason : InvalidationReason) (detail : Text) : Impl :=
  closeWhere now impl (fun record => record.binding.work = work && record.state.isActive) state reason detail

/-- `AgentScheduler::start`: process authority advances on every start of a process instance. -/
def start (impl : Impl) : Step :=
  if impl.running then (.ok (), impl)
  else
    (.ok (), Impl.revise
      { impl with
        coordinatorEpoch := ⟨impl.coordinatorEpoch.value + 1⟩
        running := true
        admissionOpen := true
        shuttingDown := false
        shutdownAtMs := 0 })

/-- The constructor: fails on invalid limits or policy; `generatedId` stands for a drawn identity. -/
def construct (options : SchedulerOptions) (generatedId : SchedulerId) : Option Impl :=
  let impl : Impl :=
    { limits := options.limits
      schedulerId := if options.schedulerId.isZero then generatedId else options.schedulerId
      policy := options.effectivePolicy }
  match impl.limits.validate, impl.policy.validate impl.limits with
  | none, .ok () => some (if options.autoStart then (start impl).2 else impl)
  | _, _ => none

/-- `AgentScheduler::shutdown`. -/
def shutdown (now : UInt64) (impl : Impl) : Step :=
  if impl.shuttingDown then (.ok (), impl)
  else
    let impl := { impl with shuttingDown := true, admissionOpen := false, running := false, shutdownAtMs := now }
    let impl :=
      if impl.policy.closeDispatchAuthorityOnShutdown then
        closeWhere now impl (fun record => record.state = .assigned) .invalidated .shutdown
          "dispatch authority closed by shutdown"
      else impl
    (.ok (), impl.revise)

/-- The checks of `set_policy`; `true` asks for the new policy to be installed. -/
def checkPolicy (impl : Impl) (policy : PolicySnapshot) : Except SchedulerError Bool := do
  policy.validate impl.limits
  rejectIf (policy.generation < impl.policy.generation)
    (makeError .staleGeneration "set_policy" policy.id.toText "policy generation is stale" .rejectStalePolicy)
  rejectIf (policy.generation = impl.policy.generation ∧ policy ≠ impl.policy)
    (makeError .conflict "set_policy" policy.id.toText
      "conflicting policy publication for the current generation" .rejectConflict)
  return policy.generation ≠ impl.policy.generation

/-- `AgentScheduler::set_policy`. -/
def setPolicy (now : UInt64) (impl : Impl) (policy : PolicySnapshot) : Step :=
  guarded impl (checkPolicy impl policy) fun install =>
    if install then
      (.ok (), closeWhere now (Impl.revise { impl with policy := policy })
        (fun record => record.state.isActive && record.binding.policyGeneration ≠ policy.generation)
        .invalidated .policyChanged "policy generation moved under an active assignment")
    else (.ok (), impl)

/-- The checks `register_queue` makes before it takes the lock. -/
def checkQueue (impl : Impl) (queue : QueueId) (generation : QueueGeneration) (fairnessClass : Text)
    (weight : UInt32) : MutationResult := do
  let fail (detail : Text) := makeError .invalidArgument "register_queue" queue.toText detail .rejectInvalidRequest
  rejectIf (queue.isZero ∨ generation.isZero) (fail "queue id and generation must be non-zero")
  rejectIf (¬isIdentifier fairnessClass impl.limits.maxIdentifierSize)
    (fail "fairness_class is not a valid identifier")
  rejectIf (weight = 0 ∨ 1000 < weight) (fail "queue weight must be 1..1000")

/-- `AgentScheduler::register_queue`. -/
def registerQueue (impl : Impl) (queue : QueueId) (generation : QueueGeneration) (fairnessClass : Text)
    (weight : UInt32) : Step :=
  guarded impl (checkQueue impl queue generation fairnessClass weight) fun _ =>
    match impl.queues[queue]? with
    | none =>
      if impl.limits.maxQueues.toNat ≤ impl.queues.size then
        (.error (makeError .limitExceeded "register_queue" queue.toText "queue count exceeds max_queues"
          .rejectLimitExceeded), impl)
      else
        let record : QueueRecord := { id := queue, generation, fairnessClass, weight }
        (.ok (), Impl.revise { impl with queues := impl.queues.insertIfNew queue record })
    | some found =>
      if generation < found.generation then
        (.error (makeError .staleGeneration "register_queue" queue.toText "queue generation is stale"
          .rejectStaleQueueGeneration), impl)
      else if generation = found.generation then
        if found.fairnessClass = fairnessClass ∧ found.weight = weight then (.ok (), impl)
        else
          (.error (makeError .conflict "register_queue" queue.toText
            "conflicting queue publication for the current generation" .rejectConflict), impl)
      else
        let record := { found with generation, fairnessClass, weight }
        (.ok (), Impl.revise { impl with queues := impl.queues.insert queue record })

end AgentScheduler
