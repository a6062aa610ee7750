import AgentScheduler.Dispatch

/-! Revalidation of recovered assignments and lease expiry. -/
namespace AgentScheduler

/-- `reason_for`. -/
def reasonFor : ScheduleOutcome → InvalidationReason
  | .rejectCancelled => .workCancelled
  | .rejectSuperseded => .workSuperseded
  | .rejectStalePolicy => .policyChanged
  | .rejectStaleCapability => .capabilityChanged
  | .rejectResourceFeasibility => .resourceChanged
  | .rejectBudget => .budgetChanged
  | .rejectSlo => .sloChanged
  | .rejectStaleCoordinatorEpoch | .rejectStaleSchedulerEpoch => .coordinatorEpochChanged
  | .rejectStaleAgentBoot | .rejectFenced => .agentFenced
  | .rejectLeaseExpired => .leaseExpired
  | .rejectLifecycle => .agentLost
  | .rejectDrain => .agentDrained
  | _ => .rejected

structure RevalidationReport where
  examined : Nat := 0
  promoted : Nat := 0
  invalidated : Nat := 0
  details : List Text := []
deriving DecidableEq

/-- The record a promotion leaves: assigned again, with a renewed lease. -/
def AssignmentRecord.promote (record : AssignmentRecord) (now ttl : UInt64) : AssignmentRecord :=
  { record with
    state := .assigned
    leaseCurrent := true
    binding := { record.binding with leaseExpiresAtMs := now + ttl } }

/-- The promotion branch of the two revalidation operations. -/
def promoteAssignment (now : UInt64) (impl : Impl) (id : AssignmentId) (record : AssignmentRecord) : Impl :=
  let promoted := record.promote now impl.policy.assignmentLeaseTtlMs
  let impl := renewLease (impl.setAssignment id promoted) record.binding.lease promoted.binding.leaseExpiresAtMs
  let impl := indexAssignment impl promoted
  refreshAgentAccounting (refreshWorkAccounting impl record.binding.work) record.binding.agent

/-- Closes an assignment that did not revalidate. -/
def invalidateAssignment (now : UInt64) (impl : Impl) (id : AssignmentId) (outcome : ScheduleOutcome)
    (detail : Text) : Impl :=
  closeAssignment now impl id .invalidated (reasonFor outcome) (outcome.toText ++ ": " ++ detail)

/-- One turn of the loop of `revalidate_assignments`. -/
def revalidateOne (ctx : Context) (acc : RevalidationReport × Impl) (id : AssignmentId) :
    RevalidationReport × Impl :=
  let (report, impl) := acc
  match impl.assignments[id]? with
  | none => acc
  | some record =>
    if record.state ≠ .revalidationRequired then acc
    else
      let report := { report with examined := report.examined + 1 }
      let refused := { report with invalidated := report.invalidated + 1 }
      let subject := record.binding.id.toText
      match revalidateAuthority ctx impl record with
      | .error (outcome, detail) =>
        ({ refused with details := refused.details ++ [subject ++ " " ++ outcome.toText ++ " " ++ detail] },
         invalidateAssignment ctx.now impl id outcome detail)
      | .ok () =>
        match impl.agents[record.binding.agent]? with
        | none =>
          ({ refused with details := refused.details ++ [subject ++ " REVALIDATION_REQUIRED lifecycle"] },
           closeAssignment ctx.now impl id .invalidated .agentLost
             "incarnation did not revalidate to an accepting lifecycle")
        | some agent =>
          if ¬agent.lifecycle.acceptsNewWork then
            ({ refused with details := refused.details ++ [subject ++ " REVALIDATION_REQUIRED lifecycle"] },
             closeAssignment ctx.now impl id .invalidated .agentLost
               "incarnation did not revalidate to an accepting lifecycle")
          else if agent.descriptor.maxConcurrency.toNat ≤ agent.activeAssignments then
            (refused, closeAssignment ctx.now impl id .invalidated .rejected
              "incarnation is at capacity during revalidation")
          else
            ({ report with
               promoted := report.promoted + 1
               details := report.details ++ [subject ++ " PROMOTED"] },
             promoteAssignment ctx.now impl id record)

/-- `if (report.examined > 0) ++impl.state_revision`. -/
def reviseIfExamined (result : RevalidationReport × Impl) : RevalidationReport × Impl :=
  (result.1, if 0 < result.1.examined then result.2.revise else result.2)

/-- `AgentScheduler::revalidate_assignments`. -/
def revalidateAssignments (ctx : Context) (impl : Impl) : RevalidationReport × Impl :=
  reviseIfExamined (impl.assignments.keys.foldl (revalidateOne ctx) ({}, impl))

/-- One turn of the loop of `revalidate_agent_assignments`; it checks neither lifecycle nor capacity. -/
def revalidateAgentOne (ctx : Context) (agent : AgentId) (boot : AgentBootId) (acc : RevalidationReport × Impl)
    (id : AssignmentId) : RevalidationReport × Impl :=
  let (report, impl) := acc
  match impl.assignments[id]? with
  | none => acc
  | some record =>
    if record.binding.agent ≠ agent ∨ record.binding.boot ≠ boot ∨ record.state ≠ .revalidationRequired then acc
    else
      let report := { report with examined := report.examined + 1 }
      let subject := record.binding.id.toText
      match revalidateAuthority ctx impl record with
      | .error (outcome, detail) =>
        ({ report with
           invalidated := report.invalidated + 1
           details := report.details ++ [subject ++ " " ++ outcome.toText] },
         invalidateAssignment ctx.now impl id outcome detail)
      | .ok () =>
        ({ report with
           promoted := report.promoted + 1
           details := report.details ++ [subject ++ " PROMOTED"] },
         promoteAssignment ctx.now impl id record)

/-- `AgentScheduler::revalidate_agent_assignments`. -/
def revalidateAgentAssignments (ctx : Context) (impl : Impl) (agent : AgentId) (boot : AgentBootId) :
    RevalidationReport × Impl :=
  match impl.agents[agent]? with
  | none => ({}, impl)
  | some record =>
    if record.descriptor.boot ≠ boot then ({}, impl)
    else reviseIfExamined (impl.assignments.keys.foldl (revalidateAgentOne ctx agent boot) ({}, impl))

/-- `AgentScheduler::expire_leases`. -/
def expireLeases (now : UInt64) (impl : Impl) : Step :=
  (.ok (), closeWhere now impl
    (fun record => record.state.isActive && record.binding.leaseExpiresAtMs < now)
    .expired .leaseExpired "assignment lease expired")

end AgentScheduler
