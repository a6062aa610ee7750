import AgentScheduler.Closure

/-! Operations as movements of authority: the relation, its rules, and the operations on policy and agents. -/
namespace AgentScheduler
open Std KeyedTable Relation

/-- A change of an instance that keeps it consistent and leaves its ledger alone. -/
def Quiet (before after : Impl) : Prop := Consistent before → Consistent after ∧ after.ledger = before.ledger

/-- A change of an instance that keeps it consistent and moves authority step by step. -/
def Refines (gate : Gate) (before after : Impl) : Prop :=
  Consistent before → Consistent after ∧ ReflTransGen (Move gate) before.ledger after.ledger

section Rules
variable {gate : Gate} {first second third : Impl}

theorem Quiet.of_core (h : second.core = first.core) : Quiet first second :=
  fun hconsistent => ⟨hconsistent.of_core h, ledger_of_core h⟩

theorem Quiet.refl (impl : Impl) : Quiet impl impl := Quiet.of_core rfl

theorem Quiet.trans (h : Quiet first second) (h' : Quiet second third) : Quiet first third := by
  intro hconsistent
  obtain ⟨hsecond, hledger⟩ := h hconsistent
  obtain ⟨hthird, hledger'⟩ := h' hsecond
  exact ⟨hthird, hledger'.trans hledger⟩

theorem Quiet.refines (h : Quiet first second) : Refines gate first second := by
  intro hconsistent
  obtain ⟨hsecond, hledger⟩ := h hconsistent
  exact ⟨hsecond, hledger ▸ .refl⟩

theorem Refines.refl (impl : Impl) : Refines gate impl impl := (Quiet.refl impl).refines

theorem Refines.trans (h : Refines gate first second) (h' : Refines gate second third) :
    Refines gate first third := by
  intro hconsistent
  obtain ⟨hsecond, hmoves⟩ := h hconsistent
  obtain ⟨hthird, hmoves'⟩ := h' hsecond
  exact ⟨hthird, hmoves.trans hmoves'⟩

theorem Refines.quiet (h : Refines gate first second) (h' : Quiet second third) : Refines gate first third :=
  h.trans h'.refines

theorem Refines.single (h : Consistent first → Consistent second ∧ Move gate first.ledger second.ledger) :
    Refines gate first second :=
  fun hconsistent => ⟨(h hconsistent).1, .single (h hconsistent).2⟩

/-- Consistency may be used to show that authority moves. -/
theorem Refines.given (h : Consistent first → Refines gate first second) : Refines gate first second :=
  fun hconsistent => h hconsistent hconsistent

/-- A loop whose turns move authority moves authority. -/
theorem Refines.foldl {α : Type} {turn : Impl → α → Impl} {items : List α} (impl : Impl)
    (h : ∀ impl item, Refines gate impl (turn impl item)) : Refines gate impl (items.foldl turn impl) :=
  List.foldlRecOn _ _ (Refines.refl impl) fun _ hsofar item _ => hsofar.trans (h _ item)

/-- A locked section whose body moves authority whenever its checks pass. -/
theorem Refines.guarded {Found : Type} {impl : Impl} {check : Except SchedulerError Found} {body : Found → Step}
    (h : ∀ found, check = .ok found → Refines gate impl (body found).2) :
    Refines gate impl (guarded impl check body).2 := by
  unfold AgentScheduler.guarded
  cases hcheck : check with
  | error error => exact Refines.refl impl
  | ok found => exact h found hcheck

theorem Refines.closeWhere {selected : AssignmentRecord → Bool} {now : UInt64} {state : AssignmentState}
    {reason : InvalidationReason} {detail : Text} (impl : Impl) (hterminal : state.isTerminal)
    (hselected : ∀ record, selected record → record.state.isActive) :
    Refines gate impl (closeWhere now impl selected state reason detail) :=
  Refines.single fun h => by
    obtain ⟨hconsistent, hledger⟩ :=
      closeWhere_spec _ now _ reason detail h hterminal hselected
    exact ⟨hconsistent, hledger ▸ .close selected now state reason detail hselected hterminal⟩

theorem Refines.closeAssignment {id : AssignmentId} {now : UInt64} {state : AssignmentState}
    {reason : InvalidationReason} {detail : Text} (impl : Impl) (hterminal : state.isTerminal) :
    Refines gate impl (closeAssignment now impl id state reason detail) :=
  Refines.single fun h => by
    refine ⟨h.closeAssignment hterminal, ?_⟩
    rw [ledger_closeAssignment _ _ _ _ _ h hterminal]
    refine .close (closesOnly id) now state reason detail (fun record hselected => ?_) hterminal
    simp only [closesOnly, Bool.and_eq_true] at hselected
    exact hselected.2

theorem Refines.closeAllActive {boot : AgentBootId} {now : UInt64} {state : AssignmentState}
    {reason : InvalidationReason} {detail : Text} (impl : Impl) (hterminal : state.isTerminal) :
    Refines gate impl (closeAllActive now impl boot state reason detail) := by
  refine Refines.closeWhere impl hterminal fun record hselected => ?_
  simp only [Bool.and_eq_true] at hselected
  exact hselected.2

theorem Refines.closeWork {work : WorkId} {now : UInt64} {state : AssignmentState}
    {reason : InvalidationReason} {detail : Text} (impl : Impl) (hterminal : state.isTerminal) :
    Refines gate impl (closeWork now impl work state reason detail) := by
  refine Refines.closeWhere impl hterminal fun record hselected => ?_
  simp only [Bool.and_eq_true] at hselected
  exact hselected.2

end Rules

/-! ### Quiet changes of stored agents -/

section Agents
variable {gate : Gate} {impl : Impl}

theorem Quiet.setAgent {agent : AgentId} {old record : AgentRecord} (hold : impl.agents[agent]? = some old)
    (hdescriptor : record.descriptor.id = old.descriptor.id) (hentry : record.entry = old.entry) :
    Quiet impl (impl.setAgent agent record) := by
  intro h
  refine ⟨h.setAgent (hdescriptor.trans (h.agentKey agent old hold)) ?_, ledger_setAgent_same hold hentry⟩
  have hboot : record.descriptor.boot = old.descriptor.boot := congrArg AgentEntry.boot hentry
  rw [hboot]
  exact h.agentBoot agent old hold

theorem Quiet.refreshAgentAccounting (impl : Impl) (agent : AgentId) : Quiet impl (refreshAgentAccounting impl agent) :=
  fun h => ⟨h.refreshAgentAccounting agent, ledger_refreshAgentAccounting impl agent⟩

theorem Quiet.refreshWorkAccounting (impl : Impl) (work : WorkId) : Quiet impl (refreshWorkAccounting impl work) := by
  intro h
  have hrefreshed := h.refreshWorkAccounting work
  rw [Set.empty_sdiff] at hrefreshed
  exact ⟨hrefreshed, ledger_refreshWorkAccounting impl work⟩

theorem Quiet.refreshAgent (impl : Impl) (agent : AgentId) : Quiet impl (refreshAgent impl agent) :=
  ((Quiet.of_core (core_deindexAgent impl agent)).trans (Quiet.refreshAgentAccounting _ agent)).trans
    (Quiet.of_core (core_indexStoredAgent _ agent))

/-- An update that changes neither the identity of an agent nor what the ledger knows of it. -/
theorem Quiet.modifyAgent {agent : AgentId} {f : AgentRecord → AgentRecord}
    (hdescriptor : ∀ record, (f record).descriptor.id = record.descriptor.id)
    (hentry : ∀ record, (f record).entry = record.entry) : Quiet impl (impl.modifyAgent agent f) := by
  cases hagent : impl.agents[agent]? with
  | none =>
    unfold Impl.modifyAgent
    rw [modify_eq_self hagent]
    exact Quiet.refl impl
  | some record =>
    rw [modifyAgent_eq_setAgent hagent]
    exact Quiet.setAgent hagent (hdescriptor record) (hentry record)

/-- An update of a work item that leaves its request, its lifecycle and its counters alone. -/
theorem Quiet.modifyWork {work : WorkId} {f : WorkRecord → WorkRecord}
    (hrequest : ∀ record, (f record).request = record.request)
    (hlifecycle : ∀ record, (f record).lifecycle = record.lifecycle)
    (hcurrent : ∀ record, (f record).currentAssignments = record.currentAssignments)
    (hlast : ∀ record, (f record).lastAssignmentGeneration = record.lastAssignmentGeneration) :
    Quiet impl (impl.modifyWork work f) := by
  cases hwork : impl.work[work]? with
  | none =>
    unfold Impl.modifyWork
    rw [modify_eq_self hwork]
    exact Quiet.refl impl
  | some record =>
    rw [modifyWork_eq_setWork hwork]
    refine fun h => ⟨h.setWork ?_ (fun hfresh => ?_) (fun hfresh => ?_), ledger_setWork_same hwork ?_⟩
    · rw [hrequest]
      exact h.workKey work record hwork
    · rw [hcurrent]
      exact h.current work record hfresh hwork
    · rw [hlifecycle, hcurrent]
      exact h.admitted work record hfresh hwork
    · simp only [WorkRecord.entry, hrequest, hlifecycle, hlast]

theorem Quiet.fenceBoot (now : UInt64) (impl : Impl) (agent : AgentId) (boot : AgentBootId)
    (generation : AgentGeneration) (reason : Text) : Quiet impl (fenceBoot now impl agent boot generation reason) :=
  fun h => ⟨h.fenceBoot now agent boot generation reason, ledger_fenceBoot now impl agent boot generation reason⟩

/-! ### Scheduler lifecycle, policy and queues -/

theorem start_refines (impl : Impl) : Refines gate impl (start impl).2 := by
  refine Quiet.refines (Quiet.of_core ?_)
  unfold start
  split <;> rfl

theorem shutdown_refines (now : UInt64) (impl : Impl) : Refines gate impl (shutdown now impl).2 := by
  unfold shutdown
  split
  · exact Refines.refl impl
  · let stopped : Impl :=
      { impl with shuttingDown := true, admissionOpen := false, running := false, shutdownAtMs := now }
    have hstopped : Refines gate impl stopped := Quiet.refines (Quiet.of_core rfl)
    refine @Refines.quiet _ _ (if stopped.policy.closeDispatchAuthorityOnShutdown then _ else stopped) _ ?_
      (Quiet.of_core (core_revise _))
    split
    · refine hstopped.trans (Refines.closeWhere stopped rfl fun record hselected => ?_)
      have hstate : record.state = .assigned := by simpa using hselected
      rw [hstate]
      rfl
    · exact hstopped

theorem checkPolicy_install {impl : Impl} {policy : PolicySnapshot} {install : Bool}
    (h : checkPolicy impl policy = .ok install) : install ↔ policy.generation ≠ impl.policy.generation := by
  unfold checkPolicy at h
  simp only [check_bind_eq_ok, rejectIf_eq_ok] at h
  obtain ⟨-, -, -, h⟩ := h
  rw [← Except.ok.inj h, decide_eq_true_iff]

theorem setPolicy_refines (now : UInt64) (impl : Impl) (policy : PolicySnapshot) :
    Refines gate impl (setPolicy now impl policy).2 := by
  refine Refines.guarded fun install hcheck => ?_
  by_cases hinstall : install
  · rw [if_pos hinstall]
    have hmoved := (checkPolicy_install hcheck).mp hinstall
    refine Refines.single fun h => ?_
    let installed : Impl := Impl.revise { impl with policy := policy }
    have hinstalled : Consistent installed :=
      ⟨h.agentKey, h.agentBoot, h.workKey, h.assignmentKey, h.assignmentState, h.leaseKey, h.queueKey, h.tenantKey,
        h.fencedKey, h.workIndex, h.agentIndex, h.current, h.admitted, h.unknown⟩
    obtain ⟨hconsistent, hledger⟩ :=
      closeWhere_spec (fun record => record.state.isActive && record.binding.policyGeneration ≠ policy.generation) now .invalidated .policyChanged "policy generation moved under an active assignment" hinstalled rfl fun record hselected => by
          simp only [Bool.and_eq_true] at hselected
          exact hselected.1
    exact ⟨hconsistent, hledger ▸ .repolicy policy.id policy.generation now hmoved⟩
  · rw [if_neg hinstall]
    exact Refines.refl impl

theorem registerQueue_refines (impl : Impl) (queue : QueueId) (generation : QueueGeneration) (fairnessClass : Text)
    (weight : UInt32) : Refines gate impl (registerQueue impl queue generation fairnessClass weight).2 := by
  refine Refines.guarded fun _ _ => ?_
  cases hqueue : impl.queues[queue]? with
  | none =>
    simp only
    split
    · exact Refines.refl impl
    · refine Quiet.refines (fun h => ⟨?_, rfl⟩)
      have hkey : Keyed QueueRecord.id
          (impl.queues.insertIfNew queue { id := queue, generation, fairnessClass, weight }) :=
        h.queueKey.insertIfNew rfl
      exact (h.withQueues hkey).of_core (core_revise _)
  | some found =>
    simp only
    split
    · exact Refines.refl impl
    · split
      · split <;> exact Refines.refl impl
      · refine Quiet.refines (fun h => ⟨?_, rfl⟩)
        have hkey : Keyed QueueRecord.id
            (impl.queues.insert queue { found with generation, fairnessClass, weight }) :=
          h.queueKey.insert (h.queueKey queue found hqueue)
        exact (h.withQueues hkey).of_core (core_revise _)

end Agents

end AgentScheduler
