import AgentScheduler.Capacity

/-! How large the tables of an instance grow. -/
namespace AgentScheduler
open Std KeyedTable Relation

/-! ### The tables with a guard -/

/-- The limits are these, the tables that a registration or an admission fills are within them, and all leases are
known. -/
structure Register.Fits (register : Register) (limits : ResourceLimits) (known : Set LeaseId) : Prop where
  configured : register.limits = limits
  agents : {agent | (register.agents agent).isSome}.encard ≤ limits.maxAgents.toNat
  work : {work | (register.work work).isSome}.encard ≤ limits.maxWorkItems.toNat
  queues : {queue | (register.queues queue).isSome}.encard ≤ limits.maxQueues.toNat
  tenants : {tenant | register.tenants tenant}.encard ≤ limits.maxTenants.toNat
  leases : {lease | register.leases lease} ⊆ known

/-- The tables of agents, work, queues and tenants are within the configured bounds. -/
structure Impl.TablesFit (impl : Impl) : Prop where
  agents : impl.agents.size ≤ impl.limits.maxAgents.toNat
  work : impl.work.size ≤ impl.limits.maxWorkItems.toNat
  queues : impl.queues.size ≤ impl.limits.maxQueues.toNat
  tenants : impl.tenants.size ≤ impl.limits.maxTenants.toNat

section Sizes
variable {impl impl' : Impl} {limits : ResourceLimits} {known : Set LeaseId}

theorem encard_register_agents (impl : Impl) : {agent | (impl.register.agents agent).isSome}.encard = impl.agents.size := by
  rw [← encard_keySet]
  congr 1
  ext agent
  exact Bool.eq_iff_iff.mp Option.isSome_map

theorem encard_register_work (impl : Impl) : {work | (impl.register.work work).isSome}.encard = impl.work.size := by
  rw [← encard_keySet]
  congr 1
  ext work
  exact Bool.eq_iff_iff.mp Option.isSome_map

theorem encard_register_queues (impl : Impl) : {queue | (impl.register.queues queue).isSome}.encard = impl.queues.size := by
  rw [← encard_keySet]
  congr 1
  ext queue
  exact Bool.eq_iff_iff.mp Option.isSome_map

theorem encard_register_tenants (impl : Impl) : {tenant | impl.register.tenants tenant}.encard = impl.tenants.size :=
  encard_keySet impl.tenants

/-- A register that fits belongs to tables within the bounds. -/
theorem Register.Fits.sizes (h : impl.register.Fits limits known) : impl.TablesFit := by
  obtain ⟨hlimits, hagents, hwork, hqueues, htenants, -⟩ := h
  rw [encard_register_agents] at hagents
  rw [encard_register_work] at hwork
  rw [encard_register_queues] at hqueues
  rw [encard_register_tenants] at htenants
  have hlimits : impl.limits = limits := hlimits
  subst hlimits
  exact ⟨by exact_mod_cast hagents, by exact_mod_cast hwork, by exact_mod_cast hqueues, by exact_mod_cast htenants⟩

theorem Impl.Leases.fits (hleases : impl.Leases impl') (hall : known = Set.univ) (h : impl.register.Fits limits known) :
    impl'.register.Fits limits known := by
  obtain ⟨leases, hregister⟩ := hleases
  rw [hregister]
  exact ⟨h.configured, h.agents, h.work, h.queues, h.tenants, hall ▸ Set.subset_univ _⟩

theorem fits_setAgent {agent : AgentId} {record : AgentRecord} (h : impl.register.Fits limits known)
    (hroom : impl.agents[agent]? = none → impl.agents.size < limits.maxAgents.toNat) :
    (impl.setAgent agent record).register.Fits limits known := by
  have hbefore := h.agents
  rw [encard_register_agents] at hbefore
  refine ⟨h.configured, ?_, h.work, h.queues, h.tenants, h.leases⟩
  rw [encard_register_agents, ← encard_keySet]
  change (keySet (impl.agents.insert agent record)).encard ≤ _
  rw [keySet_insert]
  exact encard_insert_keySet_le (by exact_mod_cast hbefore) hroom

theorem fits_setWork {work : WorkId} {record : WorkRecord} (h : impl.register.Fits limits known)
    (hroom : impl.work[work]? = none → impl.work.size < limits.maxWorkItems.toNat) :
    (impl.setWork work record).register.Fits limits known := by
  have hbefore := h.work
  rw [encard_register_work] at hbefore
  refine ⟨h.configured, h.agents, ?_, h.queues, h.tenants, h.leases⟩
  rw [encard_register_work, ← encard_keySet]
  change (keySet (impl.work.insert work record)).encard ≤ _
  rw [keySet_insert]
  exact encard_insert_keySet_le (by exact_mod_cast hbefore) hroom

end Sizes

/-! ### What fills the tables -/

section Operations
variable {impl impl' queued ready : Impl} {limits : ResourceLimits} {known : Set LeaseId} {agent : AgentId} {request : WorkRequest}

theorem fits_guarded {Found : Type} {check : Except SchedulerError Found} {body : Found → Step}
    (hbefore : impl.register.Fits limits known) (h : ∀ found, check = .ok found → (body found).2.register.Fits limits known) :
    (guarded impl check body).2.register.Fits limits known := by
  cases hcheck : check with
  | error error => exact hbefore
  | ok found => exact h found hcheck

theorem fits_modifyAgent {update : AgentRecord → AgentRecord} (h : impl.register.Fits limits known) :
    (impl.modifyAgent agent update).register.Fits limits known := by
  refine ⟨h.configured, ?_, h.work, h.queues, h.tenants, h.leases⟩
  rw [encard_register_agents, ← encard_keySet]
  change (keySet (impl.agents.modify agent update)).encard ≤ _
  rw [keySet_modify, encard_keySet, ← encard_register_agents]
  exact h.agents

theorem fits_publishCapabilities (now : UInt64) (boot : AgentBootId) (profile : CapabilityProfile)
    (h : impl.register.Fits limits known) : (publishCapabilities now impl agent boot profile).2.register.Fits limits known := by
  apply fits_guarded h
  intro published _
  cases published with
  | none => exact h
  | some canonical =>
    simp only [register_revise, register_indexStoredAgent, register_refreshAgentAccounting, register_demoteOutdated]
    exact fits_modifyAgent h

theorem fits_publishHealth (now : UInt64) (boot : AgentBootId) (observation : HealthObservation)
    (h : impl.register.Fits limits known) : (publishHealth now impl agent boot observation).2.register.Fits limits known := by
  apply fits_guarded h
  intro observed _
  simp only [register_revise, register_refreshAgent]
  exact fits_modifyAgent h

theorem fits_publishAvailability (now : UInt64) (boot : AgentBootId) (observation : AvailabilityObservation)
    (h : impl.register.Fits limits known) : (publishAvailability now impl agent boot observation).2.register.Fits limits known := by
  apply fits_guarded h
  intro observed _
  simp only [register_revise, register_refreshAgent]
  exact fits_modifyAgent h

theorem fits_publishLoad (now : UInt64) (boot : AgentBootId) (observation : LoadObservation)
    (h : impl.register.Fits limits known) : (publishLoad now impl agent boot observation).2.register.Fits limits known := by
  apply fits_guarded h
  intro observed _
  simp only [register_revise]
  exact fits_modifyAgent h

theorem fits_start (h : impl.register.Fits limits known) : (start impl).2.register.Fits limits known := by
  unfold start
  split
  · exact h
  · exact ⟨h.configured, h.agents, h.work, h.queues, h.tenants, h.leases⟩

theorem fits_setPolicy (now : UInt64) (policy : PolicySnapshot) (h : impl.register.Fits limits known) :
    (setPolicy now impl policy).2.register.Fits limits known := by
  apply fits_guarded h
  intro install _
  split
  · rw [register_closeWhere]
    exact ⟨h.configured, h.agents, h.work, h.queues, h.tenants, h.leases⟩
  · exact h

/-- A known agent keeps its place, and a new one is only taken in while there is room. -/
theorem fits_registerAgentCommit (now : UInt64) (descriptor : AgentDescriptor) (h : impl.register.Fits limits known) :
    (registerAgentCommit now impl descriptor).2.register.Fits limits known := by
  have hknown : ∀ {existing record}, impl.agents[descriptor.id]? = some existing → ∀ {middle : Impl},
      middle.register = impl.register → (middle.setAgent descriptor.id record).register.Fits limits known := by
    intro existing record hexisting middle hmiddle
    refine fits_setAgent (hmiddle ▸ h) fun hnone => ?_
    have hview := congrArg (fun register => (register.agents descriptor.id).isSome) hmiddle
    have hview : ((middle.agents[descriptor.id]?).map AgentRecord.credentials).isSome =
        ((impl.agents[descriptor.id]?).map AgentRecord.credentials).isSome := hview
    rw [hnone, hexisting] at hview
    cases hview
  unfold registerAgentCommit
  cases hagent : impl.agents[descriptor.id]? with
  | some existing =>
    simp only [hagent]
    apply fits_guarded h
    intro _ _
    split
    · simp only [register_revise, register_indexStoredAgent, register_refreshAgentAccounting]
      exact hknown hagent (register_retireIncarnation now impl existing descriptor.id)
    · simp only [register_revise, register_refreshAgent]
      exact hknown hagent rfl
  | none =>
    simp only [hagent]
    apply fits_guarded h
    intro _ hcheck
    unfold checkAgentRoom at hcheck
    rw [rejectIf_eq_ok, Nat.not_le] at hcheck
    simp only [register_revise, register_indexAgent]
    exact fits_setAgent h fun _ => h.configured ▸ hcheck

/-- A queue table with one more key, for which there was room. -/
theorem fits_queues {queues : Table QueueId QueueRecord} {queue : QueueId} (h : impl.register.Fits limits known)
    (hkeys : keySet queues = insert queue (keySet impl.queues))
    (hroom : impl.queues[queue]? = none → impl.queues.size < limits.maxQueues.toNat) :
    { impl with queues := queues }.register.Fits limits known := by
  have hbefore := h.queues
  rw [encard_register_queues] at hbefore
  refine ⟨h.configured, h.agents, h.work, ?_, h.tenants, h.leases⟩
  rw [encard_register_queues, ← encard_keySet, hkeys]
  exact encard_insert_keySet_le (by exact_mod_cast hbefore) hroom

theorem fits_registerQueue (queue : QueueId) (generation : QueueGeneration) (fairnessClass : Text) (weight : UInt32)
    (h : impl.register.Fits limits known) :
    (registerQueue impl queue generation fairnessClass weight).2.register.Fits limits known := by
  apply fits_guarded h
  intro _ _
  cases hqueue : impl.queues[queue]? with
  | none =>
    simp only
    split
    · exact h
    · next hroom =>
      exact @fits_queues impl limits known _ _ h (keySet_insertIfNew _ _ _) fun _ => h.configured ▸ Nat.not_le.mp hroom
  | some found =>
    simp only
    split
    · exact h
    · split
      · split <;> exact h
      · refine @fits_queues impl limits known _ _ h (keySet_insert _ _ _) fun hnone => ?_
        cases hqueue.symm.trans hnone

theorem fits_ensureQueue (h : impl.register.Fits limits known) (hqueued : ensureQueue impl request = .ok queued) :
    queued.register.Fits limits known := by
  unfold ensureQueue at hqueued
  cases hqueue : impl.queues[request.queue]? with
  | none =>
    simp only [hqueue] at hqueued
    split at hqueued
    · cases hqueued
    · next hroom =>
      obtain rfl := Except.ok.inj hqueued
      refine fits_queues h (keySet_insertIfNew _ _ _) fun _ => ?_
      exact h.configured ▸ Nat.not_le.mp hroom
  | some found =>
    simp only [hqueue] at hqueued
    split at hqueued
    · cases hqueued
    · split at hqueued
      · obtain rfl := Except.ok.inj hqueued
        refine fits_queues h (keySet_insert _ _ _) fun hnone => ?_
        cases hqueue.symm.trans hnone
      · obtain rfl := Except.ok.inj hqueued
        exact h

theorem fits_ensureTenant {tenant : TenantId} (h : queued.register.Fits limits known) (hready : ensureTenant queued tenant = .ok ready) :
    ready.register.Fits limits known := by
  unfold ensureTenant at hready
  split at hready
  · obtain rfl := Except.ok.inj hready
    exact h
  · split at hready
    · obtain rfl := Except.ok.inj hready
      exact h
    · split at hready
      · cases hready
      · next hroom =>
        obtain rfl := Except.ok.inj hready
        have hbefore := h.tenants
        rw [encard_register_tenants] at hbefore
        refine ⟨h.configured, h.agents, h.work, h.queues, ?_, h.leases⟩
        rw [encard_register_tenants, ← encard_keySet]
        change (keySet (queued.tenants.insertIfNew tenant _)).encard ≤ _
        rw [keySet_insertIfNew]
        refine encard_insert_keySet_le (by exact_mod_cast hbefore) fun _ => ?_
        exact h.configured ▸ Nat.not_le.mp hroom

end Operations

section Admission
variable {impl : Impl} {limits : ResourceLimits} {known : Set LeaseId} {request : WorkRequest}

theorem fits_withQueueAndTenant {body : Impl → Impl} (h : impl.register.Fits limits known)
    (hbody : ∀ queued ready, ensureQueue impl request = .ok queued → ensureTenant queued request.requirements.tenant = .ok ready →
      ready.register.Fits limits known → (body ready).register.Fits limits known) :
    (withQueueAndTenant impl request body).2.register.Fits limits known := by
  unfold withQueueAndTenant
  cases hqueue : ensureQueue impl request with
  | error error => exact h
  | ok queued =>
    have hqueued := fits_ensureQueue h hqueue
    cases htenant : ensureTenant queued request.requirements.tenant with
    | error error =>
      simp only [htenant]
      exact hqueued
    | ok ready =>
      simp only [htenant]
      exact hbody queued ready hqueue htenant (fits_ensureTenant hqueued htenant)

theorem fits_replaceWork (now : UInt64) {existing : WorkRecord} (reason : Text) (h : impl.register.Fits limits known)
    (hexisting : impl.work[request.id]? = some existing) :
    (replaceWork now impl request existing reason).register.Fits limits known := by
  let closed := closeWork now impl request.id .superseded .workSuperseded "work generation was superseded"
  have hclosed : closed.register = impl.register := register_closeWhere _ _ _ _ _ _
  let taken := (deindexWork closed request.id).takeSequence
  have htaken : taken.register.Fits limits known := by
    have hfits : closed.register.Fits limits known := hclosed ▸ h
    exact ⟨hfits.configured, hfits.agents, hfits.work, hfits.queues, hfits.tenants, hfits.leases⟩
  let record := admittedRecord now (deindexWork closed request.id) request reason existing.lastAssignmentGeneration
  have hset : (taken.setWork request.id record).register.Fits limits known := by
    refine fits_setWork htaken fun hnone => ?_
    have hview := congrArg (fun register => (register.work request.id).isSome) hclosed
    have hview : ((closed.work[request.id]?).map WorkRecord.admission).isSome =
        ((impl.work[request.id]?).map WorkRecord.admission).isSome := hview
    have hnone : closed.work[request.id]? = none := hnone
    rw [hnone, hexisting] at hview
    cases hview
  exact hset

theorem fits_supersedeWork (now : UInt64) (work : WorkId) (expectedGeneration : WorkGeneration) (replacement : WorkRequest)
    (h : impl.register.Fits limits known) :
    (supersedeWork now impl work expectedGeneration replacement).2.register.Fits limits known := by
  apply fits_guarded h
  intro record hcheck
  obtain ⟨hid, -, hrecord, -⟩ := checkSupersession_ok hcheck
  have hstored : impl.work[replacement.canonicalize.id]? = some record := by
    change impl.work[replacement.id]? = some record
    rw [hid]
    exact hrecord
  exact fits_withQueueAndTenant (fits_replaceWork now "superseded" h hstored) fun _ _ _ _ hready => hready

theorem fits_submitWorkCommit (now : UInt64) (h : impl.register.Fits limits known) :
    (submitWorkCommit now impl request).2.register.Fits limits known := by
  apply fits_guarded h
  intro _ _
  cases hexisting : impl.work[request.canonicalize.id]? with
  | some existing =>
    apply fits_guarded h
    intro decision _
    cases decision with
    | unchanged => exact h
    | reopen =>
      refine fits_withQueueAndTenant (fits_replaceWork now "re-admitted at a higher generation" h hexisting)
        fun queued ready _ _ hready => ?_
      rw [register_revise, register_countAdmission]
      exact hready
  | none =>
    apply fits_guarded h
    intro _ hcheck
    have htaken : impl.takeSequence.register.Fits limits known := ⟨h.configured, h.agents, h.work, h.queues, h.tenants, h.leases⟩
    refine fits_withQueueAndTenant htaken fun queued ready hqueue htenant hready => ?_
    rw [register_revise, register_countAdmission]
    let record := admittedRecord now impl request.canonicalize "admitted" 0
    change (ready.setWork request.canonicalize.id record).register.Fits limits known
    refine fits_setWork hready fun _ => ?_
    obtain ⟨queues, tenants, hregister, -⟩ := (ensureQueue_books hqueue).trans (ensureTenant_books htenant)
    have hsize : ready.work.size = impl.work.size := by
      have hwork : ready.register.work = impl.register.work := by rw [hregister]; rfl
      have hcount := encard_register_work ready
      rw [hwork, encard_register_work] at hcount
      exact_mod_cast hcount.symm
    unfold checkWorkRoom at hcheck
    rw [rejectIf_eq_ok, Nat.not_le] at hcheck
    rw [hsize]
    exact h.configured ▸ hcheck

end Admission

section Steps
variable {ctx : Context} {impl : Impl} {limits : ResourceLimits} {known : Set LeaseId} {system after : System} {label : Label} {reply : Reply}

theorem fits_runOperation (ctx : Context) (operation : Operation)
    (hknown : ∀ request, operation = .scheduleBatch request → known = Set.univ) (h : impl.register.Fits limits known) :
    (runOperation ctx impl operation).2.register.Fits limits known := by
  have hsame : ∀ {impl' : Impl}, impl'.register = impl.register → impl'.register.Fits limits known := fun heq => heq ▸ h
  cases operation with
  | start => exact fits_start h
  | shutdown => exact hsame (register_shutdown _ _)
  | setPolicy policy => exact fits_setPolicy _ policy h
  | registerQueue queue generation fairnessClass weight => exact fits_registerQueue queue generation fairnessClass weight h
  | publishCapabilities agent boot profile => exact fits_publishCapabilities _ boot profile h
  | publishHealth agent boot observation => exact fits_publishHealth _ boot observation h
  | publishAvailability agent boot observation => exact fits_publishAvailability _ boot observation h
  | publishLoad agent boot observation => exact fits_publishLoad _ boot observation h
  | heartbeat => exact hsame (register_heartbeat _ _ _ _ _)
  | drainAgent => exact hsame (register_drainAgent _ _ _ _ _)
  | deregisterAgent => exact hsame (register_deregisterAgent _ _ _ _ _)
  | supersedeWork work expectedGeneration replacement => exact fits_supersedeWork _ work expectedGeneration replacement h
  | expireDeadlines => exact hsame (register_expireDeadlines _ _)
  | scheduleBatch request => exact (leases_scheduleBatch ctx impl request).fits (hknown request rfl) h
  | acknowledge => exact hsame (register_acknowledge _ _ _ _ _ _ _)
  | markExecuting => exact hsame (register_markExecuting _ _ _ _ _)
  | release => exact hsame (register_release _ _ _ _ _ _)
  | completeAssignment => exact hsame (register_completeAssignment _ _ _ _ _)
  | failAssignment => exact hsame (register_failAssignment _ _ _ _ _ _)
  | rejectAssignment => exact hsame (register_rejectAssignment _ _ _ _ _ _)
  | revalidateAssignments => exact hsame (register_revalidateAssignments _ _)
  | revalidateAgentAssignments => exact hsame (register_revalidateAgentAssignments _ _ _ _)
  | expireLeases => exact hsame (register_closeWhere _ _ _ _ _ _)

theorem fits_finishCall (ctx : Context) (call : Call) (hknown : ∀ plan, call = .schedule plan → known = Set.univ)
    (h : impl.register.Fits limits known) :
    (finishCall ctx impl call).2.register.Fits limits known := by
  cases call with
  | schedule plan =>
    exact (leases_scheduleCommit ctx impl plan.work plan.generation plan.decision plan.binding).fits (hknown plan rfl) h
  | dispatch id generation => exact (register_dispatchCommit ctx impl id generation).symm ▸ h
  | registerAgent descriptor => exact fits_registerAgentCommit ctx.now descriptor h
  | submitWork request => exact fits_submitWorkCommit ctx.now h
  | cancelWork work generation reason => exact (register_cancelWorkCommit ctx.now impl work generation reason).symm ▸ h
  | declareAgentLost agent boot reason =>
    exact (register_declareAgentLostCommit ctx.now impl agent boot reason).symm ▸ h

end Steps

/-- A process that starts over keeps its limits. -/
def System.KeepsLimits (system : System) : Label → Prop
  | .restart options _ => options.limits = system.impl.limits
  | _ => True

section Runs
variable {impl file : Impl} {limits : ResourceLimits} {known : Set LeaseId} {system after : System} {label : Label} {reply : Reply}

theorem register_restore (impl file : Impl) :
    (restore impl (image file)).register = (install impl (image file)).register := by
  let rebuilt := rebuildIndexes (install impl (image file))
  have hrebuilt : rebuilt.register = (install impl (image file)).register :=
    read_rebuildIndexes (install impl (image file)) (f := Impl.register) fun _ => rfl
  let counted := rebuilt.agents.keys.foldl refreshAgentAccounting rebuilt
  have hcounted : counted.register = rebuilt.register :=
    foldl_project (f := Impl.register) (fun impl agent => register_refreshAgentAccounting impl agent) _ _
  have hworks : (restore impl (image file)).register = counted.register :=
    foldl_project (f := Impl.register) (fun impl work => register_refreshWorkAccounting impl work) counted.work.keys counted
  exact hworks.trans (hcounted.trans hrebuilt)

theorem fits_restore (hconfigured : impl.limits = limits) (h : file.register.Fits limits known) :
    (restore impl (image file)).register.Fits limits known := by
  rw [register_restore]
  refine ⟨hconfigured, ?_, ?_, h.queues, h.tenants, ?_⟩
  · rw [encard_register_agents, ← encard_keySet]
    change (keySet (file.agents.map fun _ record => record.recover)).encard ≤ _
    rw [keySet_map, encard_keySet, ← encard_register_agents]
    exact h.agents
  · rw [encard_register_work, ← encard_keySet]
    change (keySet (file.work.map fun _ record => record.recover)).encard ≤ _
    rw [keySet_map, encard_keySet, ← encard_register_work]
    exact h.work
  · change keySet (file.leases.map fun _ lease => lease.recover) ⊆ known
    rw [keySet_map]
    exact h.leases

theorem fits_construct {options : SchedulerOptions} {generatedId : SchedulerId}
    (h : construct options generatedId = some impl) : impl.register.Fits options.limits ∅ := by
  let base : Impl :=
    { limits := options.limits
      schedulerId := if options.schedulerId.isZero then generatedId else options.schedulerId
      policy := options.effectivePolicy }
  have hbase : base.register.Fits options.limits ∅ := by
    refine ⟨rfl, ?_, ?_, ?_, ?_, ?_⟩
    · rw [encard_register_agents]
      exact bot_le
    · rw [encard_register_work]
      exact bot_le
    · rw [encard_register_queues]
      exact bot_le
    · rw [encard_register_tenants]
      exact bot_le
    · rintro lease hlease
      change ((∅ : Table LeaseId Lease)[lease]?).isSome at hlease
      rw [ExtTreeMap.getElem?_empty] at hlease
      cases hlease
  unfold construct at h
  simp only at h
  split at h
  · rw [← Option.some.inj h]
    split
    · exact fits_start hbase
    · exact hbase
  · cases h

/-- A step that recovers nothing keeps a register within its bounds; only commits add leases. -/
theorem System.step_fits (hcontinues : label.Continues) (hstep : system.step label = some (reply, after))
    (hknown : known = Set.univ ∨ ∀ binding, ¬system.Causes label (.commits binding))
    (h : system.impl.register.Fits limits known) : after.impl.register.Fits limits known := by
  cases label with
  | tick now =>
    simp only [System.step] at hstep
    split at hstep
    · obtain ⟨-, rfl⟩ := Option.some.inj hstep
      exact h
    · cases hstep
  | provide | save =>
    obtain ⟨-, rfl⟩ := Option.some.inj hstep
    exact h
  | run operation =>
    obtain ⟨-, rfl⟩ := Option.some.inj hstep
    refine fits_runOperation system.context operation (fun request hbatch => ?_) h
    subst hbatch
    exact hknown.resolve_right fun hnone => hnone {} trivial
  | «begin» request =>
    simp only [System.step] at hstep
    split at hstep <;> obtain ⟨-, rfl⟩ := Option.some.inj hstep <;> exact h
  | finish position =>
    simp only [System.step] at hstep
    split at hstep
    · cases hstep
    · next call hcall =>
      obtain ⟨-, rfl⟩ := Option.some.inj hstep
      refine fits_finishCall system.context call (fun plan hplan => ?_) h
      subst hplan
      exact hknown.resolve_right fun hnone => hnone plan.binding ⟨.schedule plan, hcall, rfl⟩
  | load | restart => exact hcontinues.elim

theorem Register.Fits.mono {register : Register} {known' : Set LeaseId} (h : register.Fits limits known) (hknown : known ⊆ known') :
    register.Fits limits known' :=
  ⟨h.configured, h.agents, h.work, h.queues, h.tenants, h.leases.trans hknown⟩

/-- Under unchanged limits, the tables with a guard are within their bounds wherever runs lead. -/
theorem System.ReachableBy.fits (h : system.ReachableBy System.KeepsLimits) :
    system.impl.register.Fits system.impl.limits Set.univ ∧
      ∀ file ∈ system.saved, file.register.Fits system.impl.limits Set.univ := by
  refine System.ReachableBy.keeps (motive := fun system => system.impl.register.Fits system.impl.limits Set.univ ∧
    ∀ file ∈ system.saved, file.register.Fits system.impl.limits Set.univ) h (fun start hstart => ?_)
    fun s s' label reply hvalid hkeeps hstep hinv => ?_
  · obtain ⟨options, generatedId, now, hstart⟩ := hstart
    obtain ⟨impl, hconstruct, rfl⟩ := Option.map_eq_some_iff.mp hstart
    have hfits := (fits_construct hconstruct).mono (Set.empty_subset Set.univ)
    have hlimits : impl.limits = options.limits := hfits.configured
    exact ⟨hlimits ▸ hfits, fun _ hfile => (List.not_mem_nil hfile).elim⟩
  · have hcontinued : label.Continues → s'.impl.register.Fits s.impl.limits Set.univ := fun hcontinues =>
      System.step_fits hcontinues hstep (.inl rfl) hinv.1
    have hfits : s'.impl.register.Fits s.impl.limits Set.univ := by
      cases label with
      | load position =>
        simp only [System.step] at hstep
        split at hstep
        · cases hstep
        · next file hfile =>
          split at hstep
          · obtain ⟨-, rfl⟩ := Option.some.inj hstep
            exact hinv.1
          · obtain ⟨-, rfl⟩ := Option.some.inj hstep
            exact fits_restore rfl (hinv.2 file (List.mem_of_getElem? hfile))
      | restart options generatedId =>
        obtain ⟨impl, hconstruct, hafter⟩ := Option.map_eq_some_iff.mp hstep
        obtain ⟨-, rfl⟩ := Prod.mk.inj hafter
        have hlimits : options.limits = s.impl.limits := hkeeps
        exact hlimits ▸ (fits_construct hconstruct).mono (Set.empty_subset Set.univ)
      | tick | provide | run | «begin» | finish | save => exact hcontinued trivial
    have hlimits : s'.impl.limits = s.impl.limits := hfits.configured
    rw [hlimits]
    refine ⟨hfits, fun file hfile => ?_⟩
    rcases (System.step_frame hstep).saved file hfile with hold | rfl
    · exact hinv.2 file hold
    · exact hinv.1

end Runs

/-! ### What commits and fences store -/

/-- The tables that commits and fences fill are within the configured bounds. -/
structure Impl.StoresFit (impl : Impl) : Prop where
  active : impl.activeCount (fun _ => true) ≤ impl.limits.maxActiveAssignments.toNat
  stored : impl.assignments.size ≤ impl.limits.maxActiveAssignments.toNat + impl.limits.maxHistoricalAssignments.toNat
  leases : impl.leases.size ≤ impl.limits.maxLeases.toNat
  fenced : impl.fencedBoots.size ≤ impl.limits.maxFencedBoots.toNat

/-- There is room for what a commit of the binding adds. -/
structure Impl.TakesIn (impl : Impl) (binding : AssignmentBinding) : Prop where
  slot : impl.assignments[binding.id]? = none →
    impl.activeCount (fun _ => true) < impl.limits.maxActiveAssignments.toNat ∧
      impl.assignments.size < impl.limits.maxActiveAssignments.toNat + impl.limits.maxHistoricalAssignments.toNat
  lease : impl.leases[binding.lease]? = none → impl.leases.size < impl.limits.maxLeases.toNat

/-- Every commit and every new fence of a step finds room. -/
structure System.FindsRoom (system : System) (label : Label) : Prop where
  commits : ∀ impl work binding, system.Commits label impl work binding → impl.TakesIn binding
  fences : ∀ agent boot, system.Fences label agent boot → boot ≠ 0 → bootIsFenced system.impl boot = false →
    system.impl.fencedBoots.size < system.impl.limits.maxFencedBoots.toNat

/-- The assignments and the leases are within the bounds. -/
structure Impl.Holds (impl : Impl) (limits : ResourceLimits) : Prop where
  configured : impl.limits = limits
  active : (impl.ledger.active fun _ => True).encard ≤ limits.maxActiveAssignments.toNat
  stored : (keySet impl.assignments).encard ≤
    (limits.maxActiveAssignments.toNat + limits.maxHistoricalAssignments.toNat : ℕ)
  leases : {lease | impl.register.leases lease}.encard ≤ limits.maxLeases.toNat

section Stores
variable {ctx : Context} {impl impl' : Impl} {limits : ResourceLimits} {binding : AssignmentBinding} {work : WorkRecord}
  {generation : WorkGeneration}

theorem encard_register_leases (impl : Impl) : {lease | impl.register.leases lease}.encard = impl.leases.size :=
  encard_keySet impl.leases

theorem encard_fenced (impl : Impl) : {boot | bootIsFenced impl boot}.encard = impl.fencedBoots.size := by
  rw [← encard_keySet]
  congr 1
  ext boot
  exact Bool.eq_iff_iff.mp ExtTreeMap.contains_eq_isSome_getElem?

theorem encard_active_all (impl : Impl) :
    (impl.ledger.active fun _ => True).encard = impl.activeCount fun _ => true :=
  encard_active impl (p := fun _ => true) (by simp)

/-- Slots that are kept, and leases that are known, still fit. -/
theorem Impl.Holds.shrink (h : impl.Holds limits) (hlimits : impl'.limits = limits)
    (hkept : ∀ (id : AssignmentId) (record' : AssignmentRecord), impl'.assignments[id]? = some record' →
      ∃ record : AssignmentRecord, impl.assignments[id]? = some record ∧ (record'.state.isActive → record.state.isActive))
    (hleases : ∀ lease, impl'.register.leases lease → impl.register.leases lease) : impl'.Holds limits := by
  refine ⟨hlimits, (Set.encard_le_encard ?_).trans h.active, (Set.encard_le_encard ?_).trans h.stored,
    (Set.encard_le_encard hleases).trans h.leases⟩
  · rintro id ⟨record', hrecord', hactive, -⟩
    obtain ⟨record, hrecord, hwas⟩ := hkept id record' hrecord'
    exact ⟨record, hrecord, hwas hactive, trivial⟩
  · intro id hid
    obtain ⟨record', hrecord'⟩ := Option.isSome_iff_exists.mp hid
    obtain ⟨record, hrecord, -⟩ := hkept id record' hrecord'
    change (impl.assignments[id]?).isSome
    rw [hrecord]
    rfl

/-- A commit that finds room still fits. -/
theorem Impl.Holds.commit (h : impl.Holds limits) (hconsistent : Consistent impl)
    (hcheck : commitCheck ctx impl binding.work generation binding = .ok work) (hroom : impl.TakesIn binding) :
    (commitApply impl binding.work work binding).Holds limits := by
  have hregister := register_commitApply impl binding.work work binding
  have hrecords : ∀ (id : AssignmentId) (record : AssignmentRecord),
      (commitApply impl binding.work work binding).assignments[id]? = some record →
      impl.assignments[id]? = some record ∨ (impl.assignments[id]? = none ∧ binding.id = id) := by
    intro id record hrecord
    exact (assignments_commitApply hconsistent hcheck hrecord).imp_right fun hnew => ⟨hnew.1, hnew.2.1⟩
  have hlimits : (commitApply impl binding.work work binding).limits = limits :=
    (congrArg Register.limits hregister).trans h.configured
  have hconfigured := h.configured
  subst hconfigured
  have hactive : ((commitApply impl binding.work work binding).ledger.active fun _ => True) ⊆
      insert binding.id (impl.ledger.active fun _ => True) := by
    rintro id ⟨record, hrecord, hactive, -⟩
    rcases hrecords id record hrecord with hold | ⟨-, hid⟩
    · exact .inr ⟨record, hold, hactive, trivial⟩
    · exact .inl hid.symm
  have hstored : keySet (commitApply impl binding.work work binding).assignments ⊆ insert binding.id (keySet impl.assignments) := by
    intro id hid
    obtain ⟨record, hrecord⟩ := Option.isSome_iff_exists.mp hid
    rcases hrecords id record hrecord with hold | ⟨-, hid⟩
    · exact .inr (Option.isSome_iff_exists.mpr ⟨record, hold⟩)
    · exact .inl hid.symm
  have hleases : {lease | (commitApply impl binding.work work binding).register.leases lease}.encard ≤ impl.limits.maxLeases.toNat := by
    rw [hregister]
    change (keySet (impl.leases.insertIfNew binding.lease binding.leaseRecord)).encard ≤ _
    rw [keySet_insertIfNew]
    refine encard_insert_keySet_le ?_ hroom.lease
    have hleases := h.leases
    rw [encard_register_leases] at hleases
    exact_mod_cast hleases
  cases hslot : impl.assignments[binding.id]? with
  | none =>
    obtain ⟨hfree, hspace⟩ := hroom.slot hslot
    refine ⟨hlimits, encard_le_of_subset_insert hactive ?_, encard_le_of_subset_insert hstored ?_, hleases⟩
    · rw [encard_active_all]
      exact_mod_cast hfree
    · rw [encard_keySet]
      exact_mod_cast hspace
  | some taken =>
    -- `emplace` keeps what is stored under the id, so nothing is added
    have hkept : ∀ (id : AssignmentId) (record : AssignmentRecord),
        (commitApply impl binding.work work binding).assignments[id]? = some record → impl.assignments[id]? = some record := by
      intro id record hrecord
      rcases hrecords id record hrecord with hold | ⟨hnone, rfl⟩
      · exact hold
      · cases hslot.symm.trans hnone
    refine ⟨hlimits, (Set.encard_le_encard ?_).trans h.active, (Set.encard_le_encard ?_).trans h.stored, hleases⟩
    · rintro id ⟨record, hrecord, hactive, -⟩
      exact ⟨record, hkept id record hrecord, hactive, trivial⟩
    · intro id hid
      obtain ⟨record, hrecord⟩ := Option.isSome_iff_exists.mp hid
      exact Option.isSome_iff_exists.mpr ⟨record, hkept id record hrecord⟩

end Stores

section Steps
variable {system after : System} {label : Label} {reply : Reply} {limits : ResourceLimits} {request : ScheduleRequest}

/-- A batch whose commits all find room still fits. -/
theorem System.Valid.holds_scheduleBatch (hvalid : system.Valid)
    (hroom : ∀ impl work binding, system.Commits (.run (.scheduleBatch request)) impl work binding → impl.TakesIn binding)
    (h : system.impl.Holds limits) : (scheduleBatch system.context system.impl request).2.Holds limits := by
  unfold scheduleBatch
  split
  · exact h
  · next hopen =>
    rw [not_or, not_not, not_not] at hopen
    simp only
    split
    · exact h
    · have hsame : ∀ {impl impl' : Impl}, impl'.register = impl.register → impl'.assignments = impl.assignments →
          impl.Holds limits → impl'.Holds limits := by
        intro impl impl' hregister hassignments hholds
        refine hholds.shrink ((congrArg Register.limits hregister).trans hholds.configured)
          (fun id record hrecord => ⟨record, hassignments ▸ hrecord, fun hactive => hactive⟩) fun lease hlease => ?_
        rw [← hregister]
        exact hlease
      let passed := batchPasses system.context request ((batchCandidates system.impl request).map Prod.fst)
        (batchPassLimit system.impl request) true { impl := system.impl }
      have hpassed : passed.impl.Holds limits := by
        refine batchPasses_visits (motive := fun state => state.impl.Holds limits) (batchPassLimit system.impl request)
          (fun first state item hitem hfits => ?_) (fun _ _ hfits => hfits) h
        have hvisits : system.Visits request first state item := ⟨hopen.1, hopen.2, hitem⟩
        have hconsistent : Consistent state.impl := (hvisits.healthy hvalid.healthy).consistent
        rcases batchItem_cases system.context request first state item with
          hleft | hpassed | ⟨work, found, binding, hwork, hplan, hdry, hcheck, hform⟩
        · rw [hleft]
          exact hfits
        · rw [hpassed]
          exact hsame (register_modifyWork state.impl item fun _ => rfl) rfl hfits
        · obtain ⟨rfl, hbound⟩ := commitCheck_planned hconsistent hwork hplan hcheck
          have htakes := hroom state.impl found binding (.batch hvisits hwork hplan hdry hcheck)
          rw [← hbound] at hcheck
          have hcommitted := hfits.commit hconsistent hcheck htakes
          rw [hform, ← hbound]
          exact hsame (register_modifyWork _ item fun _ => rfl) rfl hcommitted
      exact @hsame passed.impl _ rfl rfl hpassed

theorem System.Valid.holds_scheduleCommit {position : Nat} {plan : Plan} (hvalid : system.Valid)
    (hcall : system.calls[position]? = some (.schedule plan))
    (hroom : ∀ impl work binding, system.Commits (.finish position) impl work binding → impl.TakesIn binding)
    (h : system.impl.Holds limits) :
    (scheduleCommit system.context system.impl plan.work plan.generation plan.decision plan.binding).2.Holds limits := by
  have hwork : plan.binding.work = plan.work := hvalid.calls _ (List.mem_of_getElem? hcall)
  unfold scheduleCommit
  cases hcommit : commitLocked system.context system.impl plan.work plan.generation plan.binding with
  | error rejection => exact h
  | ok committed =>
    obtain ⟨work, hcheck, rfl⟩ := commitLocked_ok hcommit
    have htakes := hroom system.impl work plan.binding (.schedule hcall hcheck)
    rw [← hwork] at hcheck ⊢
    have hcommitted := h.commit hvalid.healthy.consistent hcheck htakes
    simp only
    split <;> exact hcommitted

/-- The boot a step fences is determined by the step. -/
theorem System.Fences.unique {agent agent' : AgentId} {boot boot' : AgentBootId} (h : system.Fences label agent boot)
    (h' : system.Fences label agent' boot') : boot = boot' := by
  cases h with
  | loss position agent boot reason hcall =>
    cases h' with
    | loss _ _ _ _ hcall' => exact (Call.declareAgentLost.inj (Option.some.inj (hcall.symm.trans hcall'))).2.1
    | reincarnation _ _ _ hcall' => cases hcall.symm.trans hcall'
  | retirement => cases h' with | retirement => rfl
  | reincarnation position descriptor existing hcall hexisting =>
    cases h' with
    | loss _ _ _ _ hcall' => cases hcall.symm.trans hcall'
    | reincarnation _ _ _ hcall' hexisting' =>
      obtain rfl := Call.registerAgent.inj (Option.some.inj (hcall.symm.trans hcall'))
      rw [Option.some.inj (hexisting.symm.trans hexisting')]

/-- A step whose commits and fences find room keeps the stores within their bounds. -/
theorem System.FindsRoom.storesFit (hroom : system.FindsRoom label) (hvalid : system.Valid)
    (hstep : system.step label = some (reply, after))
    (hdeeds : Deeds system.context (fun event => event.IsBookkeeping ∨ system.Causes label event) (∅, system.impl)
      (∅, after.impl)) (hcontinues : label.Continues) (hfits : system.impl.register.Fits limits Set.univ) (h : system.impl.Holds limits) :
    after.impl.Holds limits := by
  by_cases hcommits : ∃ binding, system.Causes label (.commits binding)
  · obtain ⟨binding, hcauses⟩ := hcommits
    cases label with
    | run operation =>
      cases operation with
      | scheduleBatch request =>
        obtain ⟨-, rfl⟩ := Prod.mk.inj (Option.some.inj hstep)
        exact hvalid.holds_scheduleBatch hroom.commits h
      | _ => exact hcauses.elim
    | finish position =>
      obtain ⟨call, hcall, hcause⟩ := hcauses
      cases call with
      | schedule plan =>
        have hcall : system.calls[position]? = some (.schedule plan) := hcall
        have hcommitted := hvalid.holds_scheduleCommit hcall hroom.commits h
        simp only [System.step, hcall, finishCall] at hstep
        obtain ⟨-, rfl⟩ := Prod.mk.inj (Option.some.inj hstep)
        exact hcommitted
      | _ => exact hcause.elim
    | _ => exact hcauses.elim
  · have hnot : ∀ binding, ¬system.Causes label (.commits binding) := fun binding hcauses => hcommits ⟨binding, hcauses⟩
    have hnone : ∀ binding, ¬((Event.commits binding).IsBookkeeping ∨ system.Causes label (.commits binding)) := by
      rintro binding (hbook | hcauses)
      · exact hbook
      · exact hnot binding hcauses
    have hregister : after.impl.register.Fits limits {lease | system.impl.register.leases lease} :=
      System.step_fits hcontinues hstep (.inr hnot)
        ⟨hfits.configured, hfits.agents, hfits.work, hfits.queues, hfits.tenants, subset_rfl⟩
    refine h.shrink hregister.configured (fun id record hrecord => ?_) hregister.leases
    obtain ⟨before, hbefore, -, hactive⟩ := hdeeds.keepsSlots hvalid.healthy.consistent hnone hrecord
    exact ⟨before, hbefore, hactive⟩

/-- A step whose fence finds room leaves the fences within their bound. -/
theorem System.FindsRoom.fencesFit (hroom : system.FindsRoom label) (hvalid : system.Valid)
    (hstep : system.step label = some (reply, after))
    (hdeeds : Deeds system.context (fun event => event.IsBookkeeping ∨ system.Causes label event) (∅, system.impl)
      (∅, after.impl)) (h : system.impl.fencedBoots.size ≤ system.impl.limits.maxFencedBoots.toNat) :
    after.impl.fencedBoots.size ≤ system.impl.limits.maxFencedBoots.toNat := by
  have hcause : ∀ boot, bootIsFenced after.impl boot → bootIsFenced system.impl boot = false →
      boot ≠ 0 ∧ ∃ agent, system.Fences label agent boot := by
    intro boot hfenced hopen
    obtain ⟨agent, hfences, -⟩ := System.fence_cases hvalid hstep hdeeds hfenced hopen
    refine ⟨?_, agent, hfences⟩
    have hnonzero : bootIsFenced system.impl boot ∨ boot ≠ 0 :=
      hdeeds.keeps (motive := fun scene => bootIsFenced scene.2 boot → bootIsFenced system.impl boot ∨ boot ≠ 0)
        (fun _ _ _ _ hdeed hscene hinv hafter => ((hdeed.fenceEffect hscene).2 hafter).elim hinv fun hfence => .inr hfence.2)
        hvalid.healthy.consistent .inl hfenced
    exact hnonzero.resolve_left (by simp [hopen])
  have hset : ({boot | bootIsFenced after.impl boot} : Set AgentBootId).encard ≤ system.impl.limits.maxFencedBoots.toNat := by
    by_cases hnew : ∃ boot, bootIsFenced after.impl boot = true ∧ bootIsFenced system.impl boot = false
    · obtain ⟨boot, hfenced, hopen⟩ := hnew
      obtain ⟨hnonzero, agent, hfences⟩ := hcause boot hfenced hopen
      have hsubset : {boot | bootIsFenced after.impl boot} ⊆ insert boot {boot | bootIsFenced system.impl boot} := by
        intro other hother
        cases hold : bootIsFenced system.impl other with
        | true => exact .inr hold
        | false =>
          obtain ⟨-, agent', hfences'⟩ := hcause other hother hold
          exact .inl (hfences'.unique hfences)
      refine encard_le_of_subset_insert hsubset ?_
      rw [encard_fenced]
      exact_mod_cast hroom.fences agent boot hfences hnonzero hopen
    · have hsubset : {boot | bootIsFenced after.impl boot} ⊆ {boot | bootIsFenced system.impl boot} := by
        intro boot hfenced
        by_contra hopen
        exact hnew ⟨boot, hfenced, by simpa using hopen⟩
      refine (Set.encard_le_encard hsubset).trans ?_
      rw [encard_fenced]
      exact_mod_cast h
  rw [encard_fenced] at hset
  exact_mod_cast hset

end Steps

/-! ### Refusals -/

/-- A step that asks for an agent, for work, or for a queue or a tenant of work, that there is no room for. -/
inductive System.Overfills (system : System) : Label → Prop
  | agent (position : Nat) (descriptor : AgentDescriptor)
      (hcall : system.calls[position]? = some (.registerAgent descriptor))
      (hunknown : system.impl.agents[descriptor.id]? = none)
      (hfull : system.impl.limits.maxAgents.toNat ≤ system.impl.agents.size) : system.Overfills (.finish position)
  | work (position : Nat) (request : WorkRequest) (hcall : system.calls[position]? = some (.submitWork request))
      (hunknown : system.impl.work[request.canonicalize.id]? = none)
      (hfull : system.impl.limits.maxWorkItems.toNat ≤ system.impl.work.size) : system.Overfills (.finish position)
  | admission (position : Nat) (request : WorkRequest) (hcall : system.calls[position]? = some (.submitWork request))
      (hnewer : ∀ existing, system.impl.work[request.canonicalize.id]? = some existing →
        existing.request.generation < request.canonicalize.generation)
      (hfull : ¬system.impl.RoomFor request.canonicalize) : system.Overfills (.finish position)
  | supersession (work : WorkId) (generation : WorkGeneration) (replacement : WorkRequest)
      (hfull : ¬system.impl.RoomFor replacement.canonicalize) :
      system.Overfills (.run (.supersedeWork work generation replacement))
  | queue (queue : QueueId) (generation : QueueGeneration) (fairnessClass : Text) (weight : UInt32)
      (hunknown : system.impl.queues[queue]? = none)
      (hfull : system.impl.limits.maxQueues.toNat ≤ system.impl.queues.size) :
      system.Overfills (.run (.registerQueue queue generation fairnessClass weight))

section Refusals
variable {impl : Impl} {request : WorkRequest} {system after : System} {label : Label} {reply : Reply}

/-- A locked section whose body fails, fails. -/
theorem guarded_refuses {Found : Type} {check : Except SchedulerError Found} {body : Found → Step}
    (h : ∀ found, check = .ok found → ∃ error, (body found).1 = .error error) :
    ∃ error, (guarded impl check body).1 = .error error := by
  cases hcheck : check with
  | error error => exact ⟨error, rfl⟩
  | ok found => exact h found hcheck

theorem registerAgentCommit_refuses (now : UInt64) {descriptor : AgentDescriptor} (hunknown : impl.agents[descriptor.id]? = none)
    (hfull : impl.limits.maxAgents.toNat ≤ impl.agents.size) :
    ∃ error, (registerAgentCommit now impl descriptor).1 = .error error := by
  unfold registerAgentCommit
  simp only [hunknown]
  apply guarded_refuses
  intro _ hcheck
  unfold checkAgentRoom at hcheck
  exact absurd hfull (rejectIf_eq_ok.mp hcheck)

theorem registerQueue_refuses {queue : QueueId} (generation : QueueGeneration) (fairnessClass : Text) (weight : UInt32)
    (hunknown : impl.queues[queue]? = none) (hfull : impl.limits.maxQueues.toNat ≤ impl.queues.size) :
    ∃ error, (registerQueue impl queue generation fairnessClass weight).1 = .error error := by
  apply guarded_refuses
  intro _ _
  simp only [hunknown, if_pos hfull]
  exact ⟨_, rfl⟩

theorem supersedeWork_refuses (now : UInt64) (work : WorkId) (generation : WorkGeneration) {replacement : WorkRequest}
    (hfull : ¬impl.RoomFor replacement.canonicalize) :
    ∃ error, (supersedeWork now impl work generation replacement).1 = .error error := by
  apply guarded_refuses
  intro record _
  obtain ⟨hlimits, -, hqueues, htenants, -⟩ := replaceWork_keeps impl replacement.canonicalize record "superseded" now
  refine ((withQueueAndTenant_result _ _ _).2 fun hroom => hfull ?_).1
  exact (roomFor_of_admission hlimits hqueues htenants).mp hroom

theorem submitWorkCommit_refuses (now : UInt64)
    (hfull : (impl.work[request.canonicalize.id]? = none ∧ impl.limits.maxWorkItems.toNat ≤ impl.work.size) ∨
      ((∀ existing, impl.work[request.canonicalize.id]? = some existing →
        existing.request.generation < request.canonicalize.generation) ∧ ¬impl.RoomFor request.canonicalize)) :
    ∃ error, (submitWorkCommit now impl request).1 = .error error := by
  apply guarded_refuses
  intro _ _
  cases hwork : impl.work[request.canonicalize.id]? with
  | none =>
    apply guarded_refuses
    intro _ hcheck
    unfold checkWorkRoom at hcheck
    rcases hfull with ⟨-, hfull⟩ | ⟨-, hfull⟩
    · exact absurd hfull (rejectIf_eq_ok.mp hcheck)
    · refine ((withQueueAndTenant_result _ _ _).2 fun hroom => hfull ?_).1
      exact (roomFor_of_admission rfl rfl rfl).mp hroom
  | some existing =>
    rcases hfull with ⟨hnone, -⟩ | ⟨hnewer, hfull⟩
    · cases hwork.symm.trans hnone
    · have hreopens := (checkResubmission_reopens request.canonicalize existing "work is cancelled").mpr (hnewer existing hwork)
      obtain ⟨hlimits, -, hqueues, htenants, -⟩ := replaceWork_keeps impl request.canonicalize existing
        "re-admitted at a higher generation" now
      simp only [hreopens, guarded]
      refine ((withQueueAndTenant_result _ _ _).2 fun hroom => hfull ?_).1
      exact (roomFor_of_admission hlimits hqueues htenants).mp hroom

/-- A step that asks for more than there is room for is refused. -/
theorem System.Overfills.refused (h : system.Overfills label) (hstep : system.step label = some (reply, after)) :
    ∃ error, reply = .mutation (.error error) := by
  cases h with
  | agent position descriptor hcall hunknown hfull =>
    obtain ⟨error, hrefused⟩ := registerAgentCommit_refuses system.now hunknown hfull
    simp only [System.step, hcall, finishCall] at hstep
    obtain ⟨rfl, -⟩ := Prod.mk.inj (Option.some.inj hstep)
    exact ⟨error, congrArg Reply.mutation hrefused⟩
  | work position request hcall hunknown hfull =>
    obtain ⟨error, hrefused⟩ := submitWorkCommit_refuses system.now (.inl ⟨hunknown, hfull⟩)
    simp only [System.step, hcall, finishCall] at hstep
    obtain ⟨rfl, -⟩ := Prod.mk.inj (Option.some.inj hstep)
    exact ⟨error, congrArg Reply.mutation hrefused⟩
  | admission position request hcall hnewer hfull =>
    obtain ⟨error, hrefused⟩ := submitWorkCommit_refuses system.now (.inr ⟨hnewer, hfull⟩)
    simp only [System.step, hcall, finishCall] at hstep
    obtain ⟨rfl, -⟩ := Prod.mk.inj (Option.some.inj hstep)
    exact ⟨error, congrArg Reply.mutation hrefused⟩
  | supersession work generation replacement hfull =>
    obtain ⟨error, hrefused⟩ := supersedeWork_refuses system.now work generation hfull
    obtain ⟨rfl, -⟩ := Prod.mk.inj (Option.some.inj hstep)
    exact ⟨error, congrArg Reply.mutation hrefused⟩
  | queue queue generation fairnessClass weight hunknown hfull =>
    obtain ⟨error, hrefused⟩ := registerQueue_refuses generation fairnessClass weight hunknown hfull
    obtain ⟨rfl, -⟩ := Prod.mk.inj (Option.some.inj hstep)
    exact ⟨error, congrArg Reply.mutation hrefused⟩

end Refusals

/-! ### Runs -/

section Runs
variable {impl file : Impl} {limits : ResourceLimits} {system : System}

theorem Impl.Holds.restore (hconsistent : Consistent file) (hconfigured : impl.limits = limits) (h : file.Holds limits) :
    (AgentScheduler.restore impl (image file)).Holds limits := by
  have hregister := register_restore impl file
  refine h.shrink ((congrArg Register.limits hregister).trans hconfigured) (fun id record hrecord => ?_) fun lease hlease => ?_
  · have hledger := congrArg (fun ledger => ledger.assignments id) (restore_image impl hconsistent).2
    have hledger : (AgentScheduler.restore impl (image file)).assignments[id]? =
        (file.assignments[id]?).map AssignmentRecord.recover := hledger
    rw [hledger] at hrecord
    obtain ⟨before, hbefore, rfl⟩ := Option.map_eq_some_iff.mp hrecord
    exact ⟨before, hbefore, fun hactive => before.recover_isActive ▸ hactive⟩
  · rw [hregister] at hlease
    change ((file.leases.map fun _ lease => lease.recover)[lease]?).isSome at hlease
    rw [getElem?_map, Option.isSome_map] at hlease
    exact hlease

theorem holds_construct {options : SchedulerOptions} {generatedId : SchedulerId}
    (h : construct options generatedId = some impl) : impl.Holds impl.limits ∧ impl.fencedBoots.size ≤ 0 := by
  obtain ⟨-, -, hnone⟩ := construct_spec h
  have hfits := fits_construct h
  have hnone : ∀ id : AssignmentId, impl.assignments[id]? = none := hnone
  refine ⟨⟨rfl, ?_, ?_, ?_⟩, ?_⟩
  · have hempty : (impl.ledger.active fun _ => True) = ∅ := by
      refine Set.eq_empty_of_forall_notMem ?_
      rintro id ⟨record, hrecord, -⟩
      cases (hnone id).symm.trans hrecord
    rw [hempty, Set.encard_empty]
    exact bot_le
  · have hempty : keySet impl.assignments = ∅ := by
      refine Set.eq_empty_of_forall_notMem fun id hid => ?_
      change (impl.assignments[id]?).isSome at hid
      rw [hnone] at hid
      cases hid
    rw [hempty, Set.encard_empty]
    exact bot_le
  · rw [Set.subset_empty_iff.mp hfits.leases, Set.encard_empty]
    exact bot_le
  · have hempty : {boot | bootIsFenced impl boot} = ∅ :=
      Set.eq_empty_of_forall_notMem fun boot hfenced => construct_unfenced h hfenced
    have hcount := encard_fenced impl
    rw [hempty, Set.encard_empty] at hcount
    exact_mod_cast hcount.symm.le

theorem fencedBoots_size_restore (impl file : Impl) : (restore impl (image file)).fencedBoots.size = file.fencedBoots.size := by
  have hset : {boot | bootIsFenced (restore impl (image file)) boot} = {boot | bootIsFenced file boot} := by
    ext boot
    rw [Set.mem_ofPred_eq, bootIsFenced_restore, Set.mem_ofPred_eq]
  have hcount := congrArg Set.encard hset
  rw [encard_fenced, encard_fenced] at hcount
  exact_mod_cast hcount

/-- Without a recovery, a step is a chain of what it may cause. -/
theorem Label.Continues.deeds {after : System} {label : Label} {reply : Reply} (hcontinues : label.Continues) (hvalid : system.Valid)
    (hstep : system.step label = some (reply, after)) :
    Deeds system.context (fun event => event.IsBookkeeping ∨ system.Causes label event) (∅, system.impl) (∅, after.impl) := by
  rcases System.step_deeds hvalid hstep with ⟨_, _, rfl, -⟩ | ⟨_, _, rfl, -⟩ | hdeeds
  · exact hcontinues.elim
  · exact hcontinues.elim
  · exact hdeeds

/-- In a run whose commits and fences find room, the stores are within their bounds. -/
theorem System.ReachableBy.storesFit
    (h : system.ReachableBy fun system label => system.KeepsLimits label ∧ system.FindsRoom label) :
    system.impl.StoresFit := by
  let Fine (limits : ResourceLimits) (impl : Impl) : Prop :=
    impl.Holds limits ∧ impl.fencedBoots.size ≤ limits.maxFencedBoots.toNat
  have hfine : Fine system.impl.limits system.impl := by
    refine (System.ReachableBy.keeps (motive := fun system => system.ReachableBy System.KeepsLimits ∧
      Fine system.impl.limits system.impl ∧ ∀ file ∈ system.saved, Fine system.impl.limits file) h (fun start hstart => ?_)
      fun s s' label reply hvalid hallowed hstep hinv => ?_).2.1
    · obtain ⟨options, generatedId, now, hinitial⟩ := hstart
      obtain ⟨impl, hconstruct, rfl⟩ := Option.map_eq_some_iff.mp hinitial
      obtain ⟨hholds, hfenced⟩ := holds_construct hconstruct
      exact ⟨⟨_, ⟨options, generatedId, now, hinitial⟩, .refl⟩, ⟨hholds, hfenced.trans (Nat.zero_le _)⟩,
        fun _ hfile => (List.not_mem_nil hfile).elim⟩
    · obtain ⟨hkeeps, hroom⟩ := hallowed
      obtain ⟨hreach, hbefore, hsaved⟩ := hinv
      have hreach' : s'.ReachableBy System.KeepsLimits := hreach.trans (.single ⟨label, reply, hkeeps, hstep⟩)
      have hfits := hreach.fits.1
      have hcontinued : label.Continues → s'.impl.limits = s.impl.limits ∧ Fine s.impl.limits s'.impl := by
        intro hcontinues
        have hdeeds := hcontinues.deeds hvalid hstep
        exact ⟨(System.step_fits hcontinues hstep (.inl rfl) hfits).configured,
          hroom.storesFit hvalid hstep hdeeds hcontinues hfits hbefore.1, hroom.fencesFit hvalid hstep hdeeds hbefore.2⟩
      have hafter : s'.impl.limits = s.impl.limits ∧ Fine s.impl.limits s'.impl := by
        cases label with
        | load position =>
          simp only [System.step] at hstep
          split at hstep
          · cases hstep
          · next file hfile =>
            split at hstep
            · obtain ⟨-, rfl⟩ := Option.some.inj hstep
              exact ⟨rfl, hbefore⟩
            · obtain ⟨-, rfl⟩ := Option.some.inj hstep
              have hmem := List.mem_of_getElem? hfile
              obtain ⟨hholds, hfenced⟩ := hsaved file hmem
              exact ⟨congrArg Register.limits (register_restore s.impl file),
                hholds.restore (hvalid.saved file hmem).consistent rfl, (fencedBoots_size_restore s.impl file).trans_le hfenced⟩
        | restart options generatedId =>
          obtain ⟨impl, hconstruct, hmade⟩ := Option.map_eq_some_iff.mp hstep
          obtain ⟨-, rfl⟩ := Prod.mk.inj hmade
          have hlimits : impl.limits = s.impl.limits := (fits_construct hconstruct).configured.trans hkeeps
          obtain ⟨hholds, hfenced⟩ := holds_construct hconstruct
          exact ⟨hlimits, hlimits ▸ hholds, hfenced.trans (Nat.zero_le _)⟩
        | tick | provide | run | «begin» | finish | save => exact hcontinued trivial
      refine ⟨hreach', ?_, fun file hfile => ?_⟩
      · rw [hafter.1]
        exact hafter.2
      · rw [hafter.1]
        rcases (System.step_frame hstep).saved file hfile with hold | rfl
        · exact hsaved file hold
        · exact hbefore
  obtain ⟨hholds, hfenced⟩ := hfine
  have hactive := hholds.active
  have hstored := hholds.stored
  have hleases := hholds.leases
  rw [encard_active_all] at hactive
  rw [encard_keySet] at hstored
  rw [encard_register_leases] at hleases
  exact ⟨by exact_mod_cast hactive, by exact_mod_cast hstored, by exact_mod_cast hleases, hfenced⟩

end Runs

/-- Under unchanged limits, agents, work, queues and tenants stay within their bounds, and what asks for more of them is
refused; when every commit and every new fence finds room, so do the assignments, the leases and the fences. -/
theorem populations_bounded {system : System} (h : system.ReachableBy System.KeepsLimits) :
    system.impl.TablesFit ∧
      (∀ label reply after, system.step label = some (reply, after) → system.Overfills label →
        ∃ error, reply = .mutation (.error error)) ∧
      ((system.ReachableBy fun system label => system.KeepsLimits label ∧ system.FindsRoom label) →
        system.impl.StoresFit) :=
  ⟨h.fits.1.sizes, fun _ _ _ hstep hoverfills => hoverfills.refused hstep, System.ReachableBy.storesFit⟩

/-- The step starts neither a batch nor the process over, and the stores have room for one more of everything. -/
def Sample.Spacious (system : System) (label : Label) : Bool :=
  (match label with
    | .run (.scheduleBatch _) | .restart _ _ => false
    | _ => true) &&
  system.impl.activeCount (fun _ => true) < system.impl.limits.maxActiveAssignments.toNat &&
  system.impl.assignments.size < system.impl.limits.maxActiveAssignments.toNat +
    system.impl.limits.maxHistoricalAssignments.toNat &&
  system.impl.leases.size < system.impl.limits.maxLeases.toNat &&
  system.impl.fencedBoots.size < system.impl.limits.maxFencedBoots.toNat

theorem Sample.Spacious.findsRoom {system : System} {label : Label} (h : Sample.Spacious system label) :
    system.KeepsLimits label ∧ system.FindsRoom label := by
  simp only [Sample.Spacious, Bool.and_eq_true, decide_eq_true_eq] at h
  obtain ⟨⟨⟨⟨hlabel, hactive⟩, hstored⟩, hleases⟩, hfenced⟩ := h
  refine ⟨?_, ?_, fun _ _ _ _ _ => hfenced⟩
  · cases label with
    | restart => cases hlabel
    | _ => trivial
  · intro impl work binding hcommits
    cases hcommits with
    | schedule => exact ⟨fun _ => ⟨hactive, hstored⟩, fun _ => hleases⟩
    | batch => cases hlabel

set_option maxRecDepth 100000 in
/-- A work item is scheduled, and its agent is declared lost. -/
theorem populations_bounded_sample : ∃ system, Sample.run (fun system label => Sample.Spacious system label)
    (Sample.enlist ++ Sample.submit Sample.exclusiveWork ++ Sample.schedule ++
      [.begin (.declareAgentLost 1 Sample.boot "lost"), .finish 0]) = some system ∧
      (system.impl.leases.size = 1 ∧ system.impl.fencedBoots.size = 1) ∧ system.impl.TablesFit ∧ system.impl.StoresFit := by
  have hrun : (Sample.run (fun system label => Sample.Spacious system label)
      (Sample.enlist ++ Sample.submit Sample.exclusiveWork ++ Sample.schedule ++
        [.begin (.declareAgentLost 1 Sample.boot "lost"), .finish 0])).map
      (fun system => decide (system.impl.leases.size = 1 ∧ system.impl.fencedBoots.size = 1)) = some true := by decide +kernel
  obtain ⟨system, hsystem, hsizes⟩ := Option.map_eq_some_iff.mp hrun
  have hroom := (Sample.run_reaches hsystem).mono fun _ _ hspacious => Sample.Spacious.findsRoom hspacious
  have hbounded := populations_bounded (hroom.mono fun _ _ hallowed => hallowed.1)
  exact ⟨system, hsystem, of_decide_eq_true hsizes, hbounded.1, hbounded.2.2 hroom⟩

/-- Two replicas of a work item run, and two agents that nobody knows are declared lost, with room for one lease and one
fence. -/
def Sample.overrun : Option System :=
  (System.initial { Sample.options with limits := { maxLeases := 1, maxFencedBoots := 1 } } 0 1000).bind fun start =>
    start.perform (fun _ label => label.Continues)
      (Sample.enlist ++ Sample.submit Sample.parallelWork ++ Sample.schedule ++ Sample.schedule ++
        [.begin (.declareAgentLost 8 ⟨⟨0, 8⟩⟩ "lost"), .finish 0, .begin (.declareAgentLost 9 ⟨⟨0, 9⟩⟩ "lost"), .finish 0])

set_option maxRecDepth 100000 in
/-- The stores do not stay within their bounds: neither a commit nor a fence looks at them. -/
theorem not_populations_bounded : ¬∀ system : System, system.ReachableBy System.KeepsLimits →
    system.impl.TablesFit ∧ system.impl.StoresFit := by
  intro hbounded
  have hrun : Sample.overrun.map (fun system => decide (system.impl.limits.maxLeases.toNat < system.impl.leases.size ∧
      system.impl.limits.maxFencedBoots.toNat < system.impl.fencedBoots.size)) = some true := by decide +kernel
  obtain ⟨system, hsystem, hover⟩ := Option.map_eq_some_iff.mp hrun
  obtain ⟨start, hstart, hperformed⟩ := Option.bind_eq_some_iff.mp hsystem
  have hreach : system.ReachableBy System.KeepsLimits := by
    refine ⟨start, ⟨_, 0, 1000, hstart⟩, (System.perform_runs hperformed).mono fun s label hcontinues => ?_⟩
    cases label with
    | restart => exact hcontinues.elim
    | _ => trivial
  obtain ⟨-, hfit⟩ := hbounded system hreach
  exact absurd (of_decide_eq_true hover).1 (Nat.not_lt.mpr hfit.leases)

end AgentScheduler
