import AgentScheduler.WorkChains

/-! What each step of the system may cause: its chain of deeds, and the events on it. -/
namespace AgentScheduler
open Std KeyedTable Relation

section Revalidation
variable {ctx : Context} {allows : Event → Prop} {impl : Impl}

/-- A revalidation pass of a sound instance only closes. -/
private def Revalidates (ctx : Context) (allows : Event → Prop) (impl : Impl) (acc : RevalidationReport × Impl) : Prop :=
  Deeds ctx allows (∅, impl) (∅, acc.2) ∧ Consistent acc.2 ∧ Sound acc.2.ledger

private theorem revalidateOne_deeds {acc : RevalidationReport × Impl} (h : Revalidates ctx allows impl acc)
    (hcloses : ∀ record : AssignmentRecord, record.state = .revalidationRequired → allows (.closes record))
    (id : AssignmentId) : Revalidates ctx allows impl (revalidateOne ctx acc id) := by
  refine ⟨?_, Refines.sound (revalidateOne_refines ctx acc id) h.2⟩
  refine h.1.trans ?_
  obtain ⟨report, current⟩ := acc
  obtain ⟨-, -, hsound⟩ := h
  unfold revalidateOne
  cases hrecord : current.assignments[id]? with
  | none => simpa [hrecord] using .refl
  | some record =>
    simp only [hrecord]
    split
    · exact .refl
    · next hwaits =>
      have hstate : record.state = .revalidationRequired := by simpa using hwaits
      cases hauthority : revalidateAuthority ctx current record with
      | error rejection =>
        refine Deeds.closeAssignment rfl fun found hfound => ?_
        obtain rfl := Option.some.inj (hrecord.symm.trans hfound)
        exact hcloses record hstate
      | ok _ => exact (hsound.not_revalidated hrecord hstate hauthority).elim

private theorem revalidateAgentOne_deeds {agent : AgentId} {boot : AgentBootId} {acc : RevalidationReport × Impl}
    (h : Revalidates ctx allows impl acc)
    (hcloses : ∀ record : AssignmentRecord, record.binding.agent = agent → record.binding.boot = boot →
      record.state = .revalidationRequired → allows (.closes record))
    (id : AssignmentId) : Revalidates ctx allows impl (revalidateAgentOne ctx agent boot acc id) := by
  refine ⟨?_, Refines.sound (revalidateAgentOne_refines ctx agent boot acc id) h.2⟩
  refine h.1.trans ?_
  obtain ⟨report, current⟩ := acc
  obtain ⟨-, -, hsound⟩ := h
  unfold revalidateAgentOne
  cases hrecord : current.assignments[id]? with
  | none => simpa [hrecord] using .refl
  | some record =>
    simp only [hrecord]
    split
    · exact .refl
    · next hwaits =>
      simp only [not_or, not_not, ne_eq] at hwaits
      cases hauthority : revalidateAuthority ctx current record with
      | error rejection =>
        refine Deeds.closeAssignment rfl fun found hfound => ?_
        obtain rfl := Option.some.inj (hrecord.symm.trans hfound)
        exact hcloses record hwaits.1 hwaits.2.1 hwaits.2.2
      | ok _ => exact (hsound.not_revalidated hrecord hwaits.2.2 hauthority).elim

private theorem revalidation_deeds {turn : RevalidationReport × Impl → AssignmentId → RevalidationReport × Impl}
    (h : Consistent impl) (hsound : Sound impl.ledger) (hbook : ∀ event : Event, event.IsBookkeeping → allows event)
    (hturn : ∀ acc id, Revalidates ctx allows impl acc → Revalidates ctx allows impl (turn acc id))
    (ids : List AssignmentId) : Deeds ctx allows (∅, impl) (∅, (reviseIfExamined (ids.foldl turn ({}, impl))).2) := by
  have hloop : Revalidates ctx allows impl (ids.foldl turn ({}, impl)) :=
    List.foldlRecOn (motive := Revalidates ctx allows impl) ids turn ⟨.refl, h, hsound⟩
      fun acc hacc id _ => hturn acc id hacc
  unfold reviseIfExamined
  simp only
  split
  · exact hloop.1.trans (Deeds.revise hbook)
  · exact hloop.1

theorem revalidateAssignments_deeds (h : Consistent impl) (hsound : Sound impl.ledger)
    (hbook : ∀ event : Event, event.IsBookkeeping → allows event)
    (hcloses : ∀ record : AssignmentRecord, record.state = .revalidationRequired → allows (.closes record)) :
    Deeds ctx allows (∅, impl) (∅, (revalidateAssignments ctx impl).2) :=
  revalidation_deeds h hsound hbook (fun _ id hacc => revalidateOne_deeds hacc hcloses id) _

theorem revalidateAgentAssignments_deeds {agent : AgentId} {boot : AgentBootId} (h : Consistent impl)
    (hsound : Sound impl.ledger) (hbook : ∀ event : Event, event.IsBookkeeping → allows event)
    (hcloses : ∀ record : AssignmentRecord, record.binding.agent = agent → record.binding.boot = boot →
      record.state = .revalidationRequired → allows (.closes record)) :
    Deeds ctx allows (∅, impl) (∅, (revalidateAgentAssignments ctx impl agent boot).2) := by
  unfold revalidateAgentAssignments
  split
  · exact .refl
  · split
    · exact .refl
    · exact revalidation_deeds h hsound hbook (fun _ id hacc => revalidateAgentOne_deeds hacc hcloses id) _

theorem expireLeases_deeds
    (hcloses : ∀ record : AssignmentRecord, record.state.isActive → record.binding.leaseExpiresAtMs < ctx.now →
      allows (.closes record)) :
    Deeds ctx allows (∅, impl) (∅, (expireLeases ctx.now impl).2) := by
  refine Deeds.closeWhere rfl fun record hselected => ?_
  simp only [Bool.and_eq_true, decide_eq_true_eq] at hselected
  exact hcloses record hselected.1 hselected.2

end Revalidation

/-! ### Causes -/

/-- The events, bookkeeping aside, that an operation with one locked section may cause. -/
def Operation.Causes (ctx : Context) (impl : Impl) : Operation → Event → Prop
  | .start, .governs => True
  | .shutdown, .governs => True
  | .shutdown, .closes record => record.state = .assigned
  | .setPolicy _, .governs => True
  | .setPolicy policy, .closes record =>
    record.state.isActive ∧ record.binding.policyGeneration ≠ policy.generation
  | .publishCapabilities agent boot _, .touches agent' (.published boot' _) => agent' = agent ∧ boot' = boot
  | .publishCapabilities _ _ _, .advances _ => True
  | .publishHealth agent boot _, .touches agent' (.reported boot' _) => agent' = agent ∧ boot' = boot
  | .publishAvailability agent boot observation, .touches agent' (.available boot' stored) =>
    agent' = agent ∧ boot' = boot ∧ ∃ observed, stored = { observation with observedAtMs := observed }
  | .drainAgent agent boot _, .touches agent' (.drained boot') => agent' = agent ∧ boot' = boot
  | .drainAgent _ boot force, .closes record => force ∧ record.binding.boot = boot
  | .deregisterAgent agent boot _, .touches agent' (.retired boot') => agent' = agent ∧ boot' = boot
  | .deregisterAgent _ boot _, .fences boot' => boot' = boot
  | .deregisterAgent _ boot _, .closes record => record.binding.boot = boot
  | .supersedeWork _ _ replacement, .closes record => record.binding.work = replacement.id
  | .expireDeadlines, .closes record =>
    ∃ entry, impl.ledger.works record.binding.work = some entry ∧ entry.request.LapsedAt ctx.now
  | .scheduleBatch _, .commits _ => True
  | .acknowledge id _ _ _ _, .advances id' | .markExecuting id _ _, .advances id' => id' = id
  | .acknowledge id _ _ _ _, .closes record | .markExecuting id _ _, .closes record
  | .release id _ _ _, .closes record | .completeAssignment id _ _, .closes record
  | .failAssignment id _ _ _, .closes record | .rejectAssignment id _ _ _, .closes record => record.binding.id = id
  | .revalidateAssignments, .closes record => record.state = .revalidationRequired
  | .revalidateAgentAssignments agent boot, .closes record =>
    record.binding.agent = agent ∧ record.binding.boot = boot ∧ record.state = .revalidationRequired
  | .expireLeases, .closes record => record.state.isActive ∧ record.binding.leaseExpiresAtMs < ctx.now
  | _, _ => False

/-- The events, bookkeeping aside, that the second section of a call may cause. -/
def Call.Causes (impl : Impl) : Call → Event → Prop
  | .schedule plan, .commits binding => binding = plan.binding
  | .dispatch id _, .advances id' => id' = id
  | .registerAgent descriptor, .enrolls descriptor' => descriptor' = descriptor
  | .registerAgent descriptor, .touches agent (.reregistered descriptor') =>
    agent = descriptor.id ∧ descriptor' = descriptor
  | .registerAgent descriptor, .fences boot =>
    ∃ existing, impl.agents[descriptor.id]? = some existing ∧
      existing.descriptor.generation < descriptor.generation ∧ boot = existing.descriptor.boot
  | .registerAgent descriptor, .closes record =>
    ∃ existing, impl.agents[descriptor.id]? = some existing ∧
      existing.descriptor.generation < descriptor.generation ∧ record.binding.boot = existing.descriptor.boot
  | .submitWork request, .closes record => record.binding.work = request.id
  | .cancelWork work _ _, .closes record => record.binding.work = work
  | .declareAgentLost agent boot _, .touches agent' (.lost boot' _) => agent' = agent ∧ boot' = boot
  | .declareAgentLost _ boot _, .fences boot' => boot' = boot
  | .declareAgentLost agent boot _, .closes record =>
    record.binding.boot = boot ∧ ∃ existing, impl.agents[agent]? = some existing ∧ existing.descriptor.boot = boot
  | _, _ => False

section Steps
variable {ctx : Context} {impl : Impl}

/-- An operation with one locked section is a chain of what it may cause. -/
theorem runOperation_deeds (h : Consistent impl) (hsound : Sound impl.ledger) (operation : Operation) :
    Deeds ctx (fun event => event.IsBookkeeping ∨ operation.Causes ctx impl event) (∅, impl)
      (∅, (runOperation ctx impl operation).2) := by
  have hbook : ∀ event : Event, event.IsBookkeeping → event.IsBookkeeping ∨ operation.Causes ctx impl event :=
    fun _ => .inl
  have hkey : ∀ (id : AssignmentId) record, impl.assignments[id]? = some record → record.binding.id = id :=
    fun id record hrecord => h.assignmentKey id record hrecord
  cases operation with
  | start => exact start_deeds (.inr trivial)
  | shutdown => exact shutdown_deeds hbook (.inr trivial) fun _ hstate => .inr hstate
  | setPolicy policy => exact setPolicy_deeds (.inr trivial) fun _ hactive hgeneration => .inr ⟨hactive, hgeneration⟩
  | registerQueue => exact registerQueue_deeds hbook
  | publishCapabilities =>
    exact publishCapabilities_deeds hbook (fun _ _ => .inr ⟨rfl, rfl⟩) fun _ => .inr trivial
  | publishHealth => exact publishHealth_deeds hbook fun _ => .inr ⟨rfl, rfl⟩
  | publishAvailability => exact publishAvailability_deeds hbook fun observed => .inr ⟨rfl, rfl, observed, rfl⟩
  | publishLoad => exact publishLoad_deeds hbook
  | heartbeat => exact heartbeat_deeds hbook
  | drainAgent =>
    exact drainAgent_deeds hbook (.inr ⟨rfl, rfl⟩) fun _ hforce hboot _ => .inr ⟨hforce, hboot⟩
  | deregisterAgent =>
    exact deregisterAgent_deeds h hbook (fun _ hboot _ => .inr hboot) (.inr rfl) (.inr ⟨rfl, rfl⟩)
  | supersedeWork => exact supersedeWork_deeds h hbook fun _ hwork _ => .inr hwork
  | expireDeadlines => exact expireDeadlines_deeds h hbook fun _ entry hentry hlapsed _ => .inr ⟨entry, hentry, hlapsed⟩
  | scheduleBatch => exact scheduleBatch_deeds h hbook fun _ => .inr trivial
  | acknowledge id => exact acknowledge_deeds hbook (.inr rfl) fun record hrecord => .inr (hkey id record hrecord)
  | markExecuting id => exact markExecuting_deeds hbook (.inr rfl) fun record hrecord => .inr (hkey id record hrecord)
  | release id => exact release_deeds hbook fun record hrecord => .inr (hkey id record hrecord)
  | completeAssignment id => exact completeAssignment_deeds hbook fun record hrecord => .inr (hkey id record hrecord)
  | failAssignment id => exact failAssignment_deeds hbook fun record hrecord => .inr (hkey id record hrecord)
  | rejectAssignment id => exact rejectAssignment_deeds hbook fun record hrecord => .inr (hkey id record hrecord)
  | revalidateAssignments => exact revalidateAssignments_deeds h hsound hbook fun _ hstate => .inr hstate
  | revalidateAgentAssignments =>
    exact revalidateAgentAssignments_deeds h hsound hbook fun _ hagent hboot hstate => .inr ⟨hagent, hboot, hstate⟩
  | expireLeases => exact expireLeases_deeds fun _ hactive hlease => .inr ⟨hactive, hlease⟩

/-- The second section of a checked call is a chain of what it may cause. -/
theorem finishCall_deeds {call : Call} (h : Consistent impl) (hsound : Sound impl.ledger) (hcall : call.Checked) :
    Deeds ctx (fun event => event.IsBookkeeping ∨ call.Causes impl event) (∅, impl) (∅, (finishCall ctx impl call).2) := by
  have hbook : ∀ event : Event, event.IsBookkeeping → event.IsBookkeeping ∨ call.Causes impl event := fun _ => .inl
  cases call with
  | schedule plan =>
    have hwork : plan.binding.work = plan.work := hcall
    change Deeds ctx _ (∅, impl) (∅, (scheduleCommit ctx impl plan.work plan.generation plan.decision plan.binding).2)
    rw [← hwork]
    exact scheduleCommit_deeds (.inr rfl)
  | dispatch => exact dispatchCommit_deeds hbook (.inr rfl)
  | registerAgent descriptor =>
    exact registerAgentCommit_deeds h hsound hcall hbook
      (fun existing hexisting hnewer => ⟨.inr ⟨existing, hexisting, hnewer, rfl⟩,
        fun _ hboot _ => .inr ⟨existing, hexisting, hnewer, hboot⟩⟩) (.inr rfl) (.inr ⟨rfl, rfl⟩)
  | submitWork => exact submitWorkCommit_deeds h hbook fun _ hwork _ => .inr hwork
  | cancelWork => exact cancelWorkCommit_deeds h hbook fun _ hwork _ => .inr hwork
  | declareAgentLost agent boot reason =>
    exact declareAgentLostCommit_deeds h hbook
      (fun existing _ hexisting hcurrent hboot _ => .inr ⟨hboot, existing, hexisting, hcurrent⟩) (.inr rfl)
      (.inr ⟨rfl, rfl⟩)

/-- The events, bookkeeping aside, that a step of the system may cause. -/
def System.Causes (system : System) : Label → Event → Prop
  | .run operation, event => operation.Causes system.context system.impl event
  | .finish position, event => ∃ call ∈ system.calls[position]?, call.Causes system.impl event
  | _, _ => False

/-- Every step of a valid system recovers a file, starts over, or is a chain of what it may cause. -/
theorem System.step_deeds {system after : System} {label : Label} {reply : Reply} (hvalid : system.Valid)
    (hstep : system.step label = some (reply, after)) :
    (∃ position file, label = .load position ∧ system.saved[position]? = some file ∧ system.impl.running = false ∧
      after.impl = restore system.impl (image file)) ∨
    (∃ options generatedId, label = .restart options generatedId ∧ construct options generatedId = some after.impl) ∨
    Deeds system.context (fun event => event.IsBookkeeping ∨ system.Causes label event) (∅, system.impl)
      (∅, after.impl) := by
  have hconsistent := hvalid.healthy.consistent
  cases label with
  | tick now =>
    simp only [System.step] at hstep
    split at hstep
    · obtain ⟨-, rfl⟩ := Option.some.inj hstep
      exact .inr (.inr .refl)
    · cases hstep
  | provide feasibility =>
    obtain ⟨-, rfl⟩ := Option.some.inj hstep
    exact .inr (.inr .refl)
  | run operation =>
    obtain ⟨-, rfl⟩ := Option.some.inj hstep
    exact .inr (.inr (runOperation_deeds hconsistent hvalid.healthy.sound operation))
  | «begin» request =>
    simp only [System.step] at hstep
    split at hstep <;> obtain ⟨-, rfl⟩ := Option.some.inj hstep <;> exact .inr (.inr .refl)
  | finish position =>
    simp only [System.step] at hstep
    split at hstep
    · cases hstep
    · next call hcall =>
      obtain ⟨-, rfl⟩ := Option.some.inj hstep
      refine .inr (.inr ((finishCall_deeds hconsistent hvalid.healthy.sound (hvalid.calls call (List.mem_of_getElem? hcall))).mono ?_))
      exact fun event hevent => hevent.imp id fun hcauses => ⟨call, hcall, hcauses⟩
  | save =>
    obtain ⟨-, rfl⟩ := Option.some.inj hstep
    exact .inr (.inr .refl)
  | load position =>
    simp only [System.step] at hstep
    split at hstep
    · cases hstep
    · next file hfile =>
      split at hstep
      · obtain ⟨-, rfl⟩ := Option.some.inj hstep
        exact .inr (.inr .refl)
      · next hstopped =>
        obtain ⟨-, rfl⟩ := Option.some.inj hstep
        exact .inl ⟨position, file, rfl, hfile, by simpa using hstopped, rfl⟩
  | restart options generatedId =>
    simp only [System.step, Option.map_eq_some_iff] at hstep
    obtain ⟨impl, hconstruct, heq⟩ := hstep
    obtain ⟨-, rfl⟩ := heq
    exact .inr (.inl ⟨options, generatedId, rfl, hconstruct⟩)

end Steps

end AgentScheduler
