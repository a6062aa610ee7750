import AgentScheduler.RecordChains
import AgentScheduler.Progress

/-! Lease arithmetic: what expiry a grant computes, and which assignments `expire_leases` ends, over every run. -/
namespace AgentScheduler
open Std KeyedTable Relation

/-! ### Expiries -/

section Expiries
variable {impl : Impl} {now ttl : UInt64}

/-- The time of an expiry has not come at the moment it is computed exactly when the sum does not wrap. -/
theorem le_add_iff : now ≤ now + ttl ↔ now.toNat + ttl.toNat < 2 ^ 64 := by
  have hnow := now.toNat_lt
  have httl := ttl.toNat_lt
  rw [UInt64.le_iff_toNat_le, UInt64.toNat_add]
  omega

/-- The lease of a registration is capped, so its expiry never wraps. -/
theorem le_add_effectiveLeaseTtl (impl : Impl) (descriptor : AgentDescriptor) (h : now.toNat < 2 ^ 63) :
    now ≤ now + effectiveLeaseTtl impl descriptor := by
  have hcapped : ∀ ttl : UInt64, (if min ttl 86400000 = 0 then 1 else min ttl 86400000).toNat ≤ 86400000 := by
    intro ttl
    split
    · decide
    · rw [UInt64.toNat_min]
      exact Nat.min_le_right _ _
  have hle : (effectiveLeaseTtl impl descriptor).toNat ≤ 86400000 := hcapped _
  rw [le_add_iff]
  omega

/-- Every lease expiry that is computed now lies ahead. -/
structure Impl.GrantsForward (impl : Impl) (now : UInt64) : Prop where
  registers : ∀ descriptor reason, now ≤ (freshAgent now impl descriptor reason).leaseExpiresAtMs
  reregisters : ∀ descriptor existing, now ≤ (reregistered now impl descriptor existing).leaseExpiresAtMs
  heartbeats : ∀ agent boot registrationGeneration record,
    (heartbeat now impl agent boot registrationGeneration).1 = .ok () →
    (heartbeat now impl agent boot registrationGeneration).2.agents[agent]? = some record → now ≤ record.leaseExpiresAtMs
  plans : ∀ work agent, now ≤ (planBinding now impl work agent).leaseExpiresAtMs
  handsOff : ∀ record : AssignmentRecord,
    now ≤ (record.handOff now impl.policy.assignmentLeaseTtlMs).binding.leaseExpiresAtMs
  promotes : ∀ record : AssignmentRecord,
    now ≤ (record.promote now impl.policy.assignmentLeaseTtlMs).binding.leaseExpiresAtMs

/-- The leases of agents always expire in the future; those of assignments do exactly when the sum does not wrap. -/
theorem Impl.grantsForward_iff (h : now.toNat < 2 ^ 63) :
    impl.GrantsForward now ↔ now.toNat + impl.policy.assignmentLeaseTtlMs.toNat < 2 ^ 64 := by
  have hlifecycle : ∀ record : AgentRecord, (recomputeLifecycle record).leaseExpiresAtMs = record.leaseExpiresAtMs := by
    intro record
    rw [recomputeLifecycle_eq]
  constructor
  · intro hforward
    exact le_add_iff.mp (hforward.promotes { binding := {} })
  · intro hfits
    have hgrant : now ≤ now + impl.policy.assignmentLeaseTtlMs := le_add_iff.mpr hfits
    refine ⟨fun descriptor reason => ?_, fun descriptor existing => ?_, fun agent boot generation record hok hrecord => ?_,
      fun _ _ => hgrant, fun _ => hgrant, fun _ => hgrant⟩
    · rw [freshAgent, hlifecycle]
      exact le_add_effectiveLeaseTtl impl descriptor h
    · exact le_add_effectiveLeaseTtl impl descriptor h
    · unfold heartbeat guarded at hok hrecord
      split at hok
      · cases hok
      · next hchecked =>
        simp only [hchecked] at hrecord
        change (impl.agents.modify agent _)[agent]? = some record at hrecord
        rw [getElem?_modify, if_pos rfl] at hrecord
        obtain ⟨stored, -, rfl⟩ := Option.map_eq_some_iff.mp hrecord
        exact le_add_effectiveLeaseTtl impl stored.descriptor h

end Expiries
/-! ### What a step does to bindings -/

/-- Every active assignment has a binding that is allowed for it. -/
def Records.Bound (records : Records) (allowed : AssignmentId → AssignmentBinding → Prop) : Prop :=
  ∀ id record, records.assignments id = some record → record.state.isActive → allowed id record.binding

section Bindings
variable {records : Records} {allowed : AssignmentId → AssignmentBinding → Prop}

theorem Records.Bound.setAssignment (h : records.Bound allowed) (id : AssignmentId) (record : AssignmentRecord)
    (hset : record.state.isActive → allowed id record.binding) : (records.setAssignment id record).Bound allowed := by
  intro other found hfound hactive
  simp only [Records.setAssignment, update_ite] at hfound
  split at hfound
  · next heq =>
    subst heq
    obtain rfl := Option.some.inj hfound
    exact hset hactive
  · exact h other found hfound hactive

theorem Records.assignments_release (records : Records) (work : WorkId) :
    (records.release work).assignments = records.assignments := by
  unfold Records.release
  split <;> rfl

/-- Only commits and renewals bind anew. -/
theorem Records.Bound.posting {now : UInt64} {occasion : Occasion} {records' : Records}
    (hposting : Posting now occasion records records') (h : records.Bound allowed)
    (hcommits : ∀ impl work binding, occasion = .commits impl work binding → allowed binding.id binding)
    (hrenews : ∀ ttl, occasion ≠ .renews ttl) : records'.Bound allowed := by
  have hended : ∀ {state : AssignmentState} {p : Prop}, state.isTerminal → state.isActive → p := by
    intro state p hterminal hactive
    rw [AssignmentState.not_isTerminal_of_isActive hactive] at hterminal
    cases hterminal
  cases hposting with
  | vouch | reportLoad | silence | enroll | receive | «open» => exact h
  | advance id before after hbefore hwas _ hbinding =>
    refine h.setAssignment id after fun _ => ?_
    rw [hbinding]
    exact h id before hbefore hwas
  | demote id before hbefore hwas =>
    exact h.setAssignment id before.demote fun _ => h id before hbefore hwas
  | renew id before after ttl => exact absurd rfl (hrenews ttl)
  | close id record state reason detail _ _ hterminal =>
    exact h.setAssignment id (record.close now state reason detail) fun hactive => hended hterminal hactive
  | conclude id record brief state reason detail _ _ hterminal =>
    have hset := h.setAssignment id (record.close now state reason detail) fun hactive => hended hterminal hactive
    intro other found hfound
    rw [Records.assignments_release] at hfound
    exact hset other found hfound
  | @commit impl work binding brief _ _ _ =>
    refine h.setAssignment binding.id ((impl.records.assignments binding.id).getD binding.record) fun hactive => ?_
    cases hstored : impl.records.assignments binding.id with
    | none => exact hcommits impl work binding rfl
    | some record =>
      rw [hstored] at hactive
      exact h binding.id record hstored hactive

end Bindings

/-! ### Grants over runs -/

/-- The bindings that a step grants a lease with. -/
inductive System.Grants (system : System) : Label → AssignmentBinding → Prop
  | plans {request : Request} {plan : Plan}
      (hbegin : beginCall system.context system.impl system.loads request = .inr (.schedule plan)) :
      system.Grants (.begin request) plan.binding
  | places {request : ScheduleRequest} {impl : Impl} {work : WorkRecord} {binding : AssignmentBinding}
      (hplaces : system.Places (.run (.scheduleBatch request)) impl work binding) :
      system.Grants (.run (.scheduleBatch request)) binding
  | handsOff {position : Nat} {id : AssignmentId} {generation : AssignmentGeneration} {binding : AssignmentBinding}
      (hcall : system.calls[position]? = some (.dispatch id generation))
      (hhandoff : (dispatchCommit system.context system.impl id generation).1.handoff = some binding) :
      system.Grants (.finish position) binding

section Runs
variable {system after : System} {label : Label} {reply : Reply}

/-- A plan expires one term after it is made. -/
theorem expiry_of_plan {ctx : Context} {impl : Impl} {work : WorkRecord} {binding : AssignmentBinding}
    (h : (planLocked ctx impl work).binding = some binding) :
    binding.leaseExpiresAtMs = ctx.now + impl.policy.assignmentLeaseTtlMs := by
  obtain ⟨-, id, agent, -, rfl⟩ := planLocked_binding h
  rfl

/-- No item of a batch touches the policy. -/
theorem System.Visits.policy {request : ScheduleRequest} {first : Bool} {state : BatchState} {id : WorkId}
    (hvisits : system.Visits request first state id) : state.impl.policy = system.impl.policy := by
  have hleases : system.impl.Leases state.impl :=
    hvisits.visits.keeps (motive := fun state => system.impl.Leases state.impl)
      (fun first state id h => h.trans (leases_batchItem system.context request first state id)) (fun _ _ h => h) (.of_eq rfl)
  obtain ⟨leases, hregister⟩ := hleases
  exact congrArg Register.policy hregister

/-- Every grant computes its expiry from the clock and the policy of its step. -/
theorem System.Grants.expiry {binding : AssignmentBinding} (h : system.Grants label binding) (hvalid : system.Valid) :
    binding.leaseExpiresAtMs = system.now + system.impl.policy.assignmentLeaseTtlMs := by
  cases h with
  | plans hbegin =>
    obtain ⟨-, record, -, -, hplan⟩ := beginCall_schedule hbegin
    exact expiry_of_plan hplan
  | @places request impl work binding hplaces =>
    cases hplaces with
    | @batch _ _ state _ _ _ hdry hcommits hwork =>
      have hconsistent : Consistent state.impl := (hcommits.visits.healthy hvalid.healthy).consistent
      rw [← hcommits.visits.policy]
      exact expiry_of_plan (hcommits.takes.check hconsistent hwork).1
  | handsOff hcall hhandoff =>
    unfold dispatchCommit at hhandoff
    split at hhandoff
    · cases hhandoff
    · obtain rfl := Option.some.inj hhandoff
      rfl

/-- Where the binding of an active assignment comes from. -/
inductive System.Supplies (system : System) (label : Label) (id : AssignmentId) (binding : AssignmentBinding) : Prop
  /-- the assignment had it before the step -/
  | keeps (before : AssignmentRecord) (hbefore : system.impl.assignments[id]? = some before) (hactive : before.state.isActive)
      (hbinding : before.binding = binding)
  | grants (hgrants : system.Grants label binding)
  /-- a plan that was made earlier is committed -/
  | commits {position : Nat} {plan : Plan} {impl : Impl} {work : WorkRecord} (hlabel : label = .finish position)
      (hcall : system.calls[position]? = some (.schedule plan)) (hplaces : system.Places label impl work binding)
      (hbinding : plan.binding = binding)

/-- What a commit of a step binds. -/
theorem System.Places.supplies {impl : Impl} {work : WorkRecord} {binding : AssignmentBinding} (id : AssignmentId)
    (hplaces : system.Places label impl work binding) : system.Supplies label id binding := by
  cases hplaces with
  | schedule hcall hcheck => exact .commits rfl hcall (.schedule hcall hcheck) rfl
  | batch hdry hcommits hwork => exact .grants (.places (.batch hdry hcommits hwork))

theorem dispatchCommit_supplies {position : Nat} {called id : AssignmentId} {generation : AssignmentGeneration}
    {record : AssignmentRecord} (hcall : system.calls[position]? = some (.dispatch called generation))
    (hrecord : (dispatchCommit system.context system.impl called generation).2.assignments[id]? = some record)
    (hactive : record.state.isActive) : system.Supplies (.finish position) id record.binding := by
  have hhandoff : ∀ binding, (dispatchCommit system.context system.impl called generation).1.handoff = some binding →
      system.Grants (.finish position) binding := fun binding => .handsOff hcall
  unfold dispatchCommit at hrecord hhandoff
  cases hcheck : handoffCheck system.context system.impl called generation with
  | error rejection =>
    simp only [hcheck] at hrecord
    exact .keeps record hrecord hactive rfl
  | ok stored =>
    simp only [hcheck] at hrecord hhandoff
    change (system.impl.assignments.insert called _)[id]? = some record at hrecord
    rw [getElem?_insert] at hrecord
    split at hrecord
    · obtain rfl := Option.some.inj hrecord
      exact .grants (hhandoff _ rfl)
    · exact .keeps record hrecord hactive rfl

/-- After a step every active assignment is bound as before, or by a grant or a commit of the step; a recovery leaves
it without a lease. -/
theorem System.step_supplies (hvalid : system.Valid) (hstep : system.step label = some (reply, after)) {id : AssignmentId}
    {record : AssignmentRecord} (hrecord : after.impl.assignments[id]? = some record) (hactive : record.state.isActive) :
    (∃ position, label = .load position) ∧ record.binding.leaseExpiresAtMs = 0 ∨ system.Supplies label id record.binding := by
  have hstored : after.impl.records.assignments id = some record := hrecord
  rcases System.step_records hvalid hstep with ⟨position, file, hlabel, -, hrecords⟩ | ⟨options, generatedId, -, hrecords⟩ |
    hpostings
  · refine .inl ⟨⟨position, hlabel⟩, ?_⟩
    rw [hrecords] at hstored
    obtain ⟨saved, -, rfl⟩ := Option.map_eq_some_iff.mp hstored
    unfold AssignmentRecord.recover at hactive ⊢
    split at hactive
    · next hsaved => rw [if_pos hsaved]
    · next hsaved => exact absurd hactive hsaved
  · rw [hrecords] at hstored
    cases hstored
  · refine .inr ?_
    by_cases hdispatch : ∃ position called generation, label = .finish position ∧
        system.calls[position]? = some (.dispatch called generation)
    · obtain ⟨position, called, generation, rfl, hcall⟩ := hdispatch
      simp only [System.step, hcall] at hstep
      obtain ⟨-, rfl⟩ := Prod.mk.inj (Option.some.inj hstep)
      exact dispatchCommit_supplies hcall hrecord hactive
    · have hnever : ∀ ttl, ¬system.Does label (.renews ttl) := by
        intro ttl hdoes
        cases label with
        | finish position =>
          obtain ⟨-, called, generation, hcall⟩ := hdoes
          exact hdispatch ⟨position, called, generation, rfl, hcall⟩
        | run operation => cases operation <;> exact hdoes
        | _ => exact hdoes
      refine hpostings.keeps (motive := fun records => records.Bound (system.Supplies label)) (fun occasion records records' hdoes
        hposting h => h.posting hposting ?_ ?_) ?_ id record hstored hactive
      · rintro impl work binding rfl
        exact hdoes.places.supplies binding.id
      · rintro ttl rfl
        exact hnever ttl hdoes
      · exact fun other found hfound hlive => .keeps found hfound hlive rfl

/-- A call in flight was in flight before, or the step began it. -/
theorem System.step_calls {call : Call} (hstep : system.step label = some (reply, after)) (hcall : call ∈ after.calls) :
    call ∈ system.calls ∨
      ∃ request, label = .begin request ∧ beginCall system.context system.impl system.loads request = .inr call := by
  cases label with
  | «begin» request =>
    rcases (System.step_frame hstep).calls call hcall with hold | ⟨-, -, -, -⟩
    · exact .inl hold
    · simp only [System.step] at hstep
      split at hstep
      · obtain ⟨-, rfl⟩ := Prod.mk.inj (Option.some.inj hstep)
        exact .inl hcall
      · next begun hbegin =>
        obtain ⟨-, rfl⟩ := Prod.mk.inj (Option.some.inj hstep)
        rcases List.mem_append.mp hcall with hold | hnew
        · exact .inl hold
        · obtain rfl := List.mem_singleton.mp hnew
          exact .inr ⟨request, rfl, hbegin⟩
  | tick now =>
    simp only [System.step] at hstep
    split at hstep
    · obtain ⟨-, rfl⟩ := Prod.mk.inj (Option.some.inj hstep)
      exact .inl hcall
    · cases hstep
  | provide | run | save =>
    obtain ⟨-, rfl⟩ := Prod.mk.inj (Option.some.inj hstep)
    exact .inl hcall
  | finish position =>
    simp only [System.step] at hstep
    split at hstep
    · cases hstep
    · obtain ⟨-, rfl⟩ := Prod.mk.inj (Option.some.inj hstep)
      exact .inl (List.mem_of_mem_eraseIdx hcall)
  | load position =>
    simp only [System.step] at hstep
    split at hstep
    · cases hstep
    · split at hstep <;> obtain ⟨-, rfl⟩ := Prod.mk.inj (Option.some.inj hstep) <;> exact .inl hcall
  | restart options generatedId =>
    simp only [System.step, Option.map_eq_some_iff] at hstep
    obtain ⟨impl, -, heq⟩ := hstep
    obtain ⟨-, rfl⟩ := Prod.mk.inj heq
    cases hcall

/-- A step earlier in the run granted the binding, for a term that does not wrap. -/
def System.GrantedBefore (system : System) (binding : AssignmentBinding) : Prop :=
  ∃ (origin granted : System) (label : Label) (reply : Reply), origin.Reachable ∧ origin.Grants label binding ∧
    origin.now.toNat + origin.impl.policy.assignmentLeaseTtlMs.toNat < 2 ^ 64 ∧
    origin.step label = some (reply, granted) ∧ System.Runs (fun _ _ => True) granted system

theorem System.GrantedBefore.step {binding : AssignmentBinding} (h : system.GrantedBefore binding)
    (hstep : system.step label = some (reply, after)) : after.GrantedBefore binding := by
  obtain ⟨origin, granted, granting, answer, hreach, hgrants, hfits, hgranted, hruns⟩ := h
  exact ⟨origin, granted, granting, answer, hreach, hgrants, hfits, hgranted, hruns.tail ⟨label, reply, trivial, hstep⟩⟩

/-- A step grants leases whose terms do not wrap, commits no plan whose lease has run out, and expires leases only while no
active assignment is left without one by a recovery. -/
structure System.GrantsInTime (system : System) (label : Label) : Prop where
  grants : ∀ binding, system.Grants label binding →
    system.now.toNat + system.impl.policy.assignmentLeaseTtlMs.toNat < 2 ^ 64
  commits : ∀ position plan impl work, label = .finish position → system.calls[position]? = some (.schedule plan) →
    system.Places label impl work plan.binding → system.now ≤ plan.binding.leaseExpiresAtMs
  expires : label = .run .expireLeases → ∀ (id : AssignmentId) record, system.impl.assignments[id]? = some record →
    record.state.isActive → record.binding.leaseExpiresAtMs ≠ 0

/-- Active assignments that a recovery has not left without a lease, and plans in flight, were granted their leases. -/
structure System.Timed (system : System) : Prop where
  stored : ∀ (id : AssignmentId) record, system.impl.assignments[id]? = some record → record.state.isActive →
    record.binding.leaseExpiresAtMs = 0 ∨ system.GrantedBefore record.binding
  plans : ∀ plan, .schedule plan ∈ system.calls → system.GrantedBefore plan.binding

theorem System.Timed.step (h : system.Timed) (hreach : system.Reachable) (htime : system.GrantsInTime label)
    (hstep : system.step label = some (reply, after)) : after.Timed := by
  have hgranted : ∀ {binding}, system.Grants label binding → after.GrantedBefore binding := fun hgrants =>
    ⟨system, after, label, reply, hreach, hgrants, htime.grants _ hgrants, hstep, .refl⟩
  refine ⟨fun id record hrecord hactive => ?_, fun plan hplan => ?_⟩
  · rcases System.step_supplies hreach.valid hstep hrecord hactive with ⟨-, hrevoked⟩ | hsupplies
    · exact .inl hrevoked
    · cases hsupplies with
      | keeps before hbefore hlive hbinding =>
        rw [← hbinding]
        exact (h.stored id before hbefore hlive).imp_right fun hold => hold.step hstep
      | grants hgrants => exact .inr (hgranted hgrants)
      | commits hlabel hcall hplaces hbinding =>
        rw [← hbinding]
        exact .inr ((h.plans _ (List.mem_of_getElem? hcall)).step hstep)
  · rcases System.step_calls hstep hplan with hold | ⟨request, rfl, hbegin⟩
    · exact (h.plans plan hold).step hstep
    · exact hgranted (.plans hbegin)

theorem System.ReachableBy.timed (h : system.ReachableBy System.GrantsInTime) : system.Timed := by
  refine (h.keeps (motive := fun system => system.Reachable ∧ system.Timed) (fun start hstart => ?_)
    fun s s' label reply _ htime hstep hinv => ?_).2
  · refine ⟨⟨start, hstart, .refl⟩, ?_⟩
    obtain ⟨options, generatedId, now, hinitial⟩ := hstart
    obtain ⟨impl, hconstruct, rfl⟩ := Option.map_eq_some_iff.mp hinitial
    refine ⟨fun id record hrecord => ?_, fun plan hplan => (List.not_mem_nil hplan).elim⟩
    have hrecord : impl.records.assignments id = some record := hrecord
    rw [records_construct hconstruct] at hrecord
    cases hrecord
  · exact ⟨hinv.1.trans (.single ⟨label, reply, trivial, hstep⟩), hinv.2.step hinv.1 htime hstep⟩

/-- What the leases of a step keep: none is granted that has run out already, and none is expired before its term is over. -/
structure System.KeepsTerms (system after : System) (label : Label) : Prop where
  fresh : (∀ position, label ≠ .load position) → ∀ (id : AssignmentId) record, after.impl.assignments[id]? = some record →
    record.state.isActive → (∀ before, system.impl.assignments[id]? = some before → before.binding ≠ record.binding) →
      system.now ≤ record.binding.leaseExpiresAtMs
  expires : label = .run .expireLeases → ∀ (id : AssignmentId) before closed, system.impl.assignments[id]? = some before →
    before.state.isActive → after.impl.assignments[id]? = some closed → closed.state.isTerminal →
      ∃ (origin granted : System) (granting : Label) (reply : Reply), origin.Reachable ∧
        origin.Grants granting before.binding ∧ origin.step granting = some (reply, granted) ∧
        System.Runs (fun _ _ => True) granted system ∧
        origin.now.toNat + origin.impl.policy.assignmentLeaseTtlMs.toNat < system.now.toNat

/-- `expire_leases` ends an active assignment only when its lease has run out. -/
theorem expireLeases_ends {impl : Impl} {now : UInt64} {id : AssignmentId} {before closed : AssignmentRecord} (h : Consistent impl)
    (hbefore : impl.assignments[id]? = some before) (hactive : before.state.isActive)
    (hclosed : (expireLeases now impl).2.assignments[id]? = some closed) (hterminal : closed.state.isTerminal) :
    before.binding.leaseExpiresAtMs < now := by
  let lapsed (record : AssignmentRecord) : Bool := record.state.isActive && record.binding.leaseExpiresAtMs < now
  have hselected : ∀ record, lapsed record → record.state.isActive := by
    intro record hlapsed
    simp only [lapsed, Bool.and_eq_true] at hlapsed
    exact hlapsed.1
  have hledger := congrArg (fun ledger => ledger.assignments id)
    (closeWhere_spec lapsed now .expired .leaseExpired "assignment lease expired" h rfl hselected).2
  have hledger : (expireLeases now impl).2.assignments[id]? =
      (impl.assignments[id]?).map (closing lapsed now .expired .leaseExpired "assignment lease expired") := hledger
  rw [hclosed, hbefore, Option.map_some, closing] at hledger
  split at hledger
  · next hlapsed =>
    simp only [lapsed, Bool.and_eq_true, decide_eq_true_eq] at hlapsed
    exact hlapsed.2
  · obtain rfl := Option.some.inj hledger
    rw [AssignmentState.not_isTerminal_of_isActive hactive] at hterminal
    cases hterminal

/-- Leases of assignments are granted for the future exactly while the sum of the clock and the term does not wrap, those of
agents always. In a run that grants in time no lease is granted that has run out already, and none is expired before the term
it was granted for is over. -/
theorem leases_granted_in_time (impl : Impl) (now : UInt64) :
    (now.toNat < 2 ^ 63 →
      (impl.GrantsForward now ↔ now.toNat + impl.policy.assignmentLeaseTtlMs.toNat < 2 ^ 64)) ∧
    ∀ (system after : System) (label : Label) (reply : Reply), system.ReachableBy System.GrantsInTime →
      system.GrantsInTime label → system.step label = some (reply, after) → system.KeepsTerms after label := by
  refine ⟨Impl.grantsForward_iff, fun system after label reply hreach htime hstep => ?_⟩
  have hvalid := hreach.valid
  constructor
  · intro hload id record hrecord hactive hnew
    rcases System.step_supplies hvalid hstep hrecord hactive with ⟨⟨position, hlabel⟩, -⟩ | hsupplies
    · exact absurd hlabel (hload position)
    · cases hsupplies with
      | keeps before hbefore _ hbinding => exact absurd hbinding (hnew before hbefore)
      | grants hgrants =>
        rw [hgrants.expiry hvalid]
        exact le_add_iff.mpr (htime.grants _ hgrants)
      | commits hlabel hcall hplaces hbinding =>
        rw [← hbinding] at hplaces ⊢
        exact htime.commits _ _ _ _ hlabel hcall hplaces
  · rintro rfl id before closed hbefore hactive hclosed hterminal
    obtain ⟨-, rfl⟩ := Prod.mk.inj (Option.some.inj hstep)
    have hlapsed : before.binding.leaseExpiresAtMs < system.now :=
      expireLeases_ends hvalid.healthy.consistent hbefore hactive hclosed hterminal
    rcases hreach.timed.stored id before hbefore hactive with hrevoked | hgranted
    · exact absurd hrevoked (htime.expires rfl id before hbefore hactive)
    · obtain ⟨origin, granted, granting, answer, horigin, hgrants, hfits, hgranted, hruns⟩ := hgranted
      refine ⟨origin, granted, granting, answer, horigin, hgrants, hgranted, hruns, ?_⟩
      rw [hgrants.expiry horigin.valid, UInt64.lt_iff_toNat_lt, UInt64.toNat_add, Nat.mod_eq_of_lt hfits] at hlapsed
      exact hlapsed

end Runs

/-- The clock and the term add up, plans are committed while their leases run, and no lease is revoked when leases expire. -/
def Sample.Prompt (system : System) (label : Label) : Bool :=
  decide (system.now.toNat + system.impl.policy.assignmentLeaseTtlMs.toNat < 2 ^ 64) &&
    match label with
    | .finish position =>
      match system.calls[position]? with
      | some (.schedule plan) => decide (system.now ≤ plan.binding.leaseExpiresAtMs)
      | _ => true
    | .run .expireLeases => system.impl.assignments.values.all fun record => decide (record.binding.leaseExpiresAtMs ≠ 0)
    | _ => true

theorem Sample.Prompt.grantsInTime {system : System} {label : Label} (h : Prompt system label) : system.GrantsInTime label := by
  simp only [Prompt, Bool.and_eq_true, decide_eq_true_eq] at h
  obtain ⟨hfits, h⟩ := h
  refine ⟨fun _ _ => hfits, ?_, ?_⟩
  · rintro position plan impl work rfl hcall -
    simpa only [hcall, decide_eq_true_eq] using h
  · rintro rfl id record hrecord -
    simp only [List.all_eq_true, decide_eq_true_eq] at h
    exact h record (mem_values.mpr ⟨id, hrecord⟩)

/-- The leases of a system, and how they compare with its clock. -/
def Sample.terms (system : System) : List (Bool × Bool) :=
  system.impl.assignments.values.map fun record => (record.state.isActive, decide (system.now ≤ record.binding.leaseExpiresAtMs))

set_option maxRecDepth 100000 in
/-- Work is scheduled, and its lease expired after the term. -/
theorem leases_granted_in_time_sample : ∃ system after reply,
    Sample.run (fun system label => Sample.Prompt system label) (Sample.enlist ++ Sample.submit Sample.exclusiveWork ++
      Sample.schedule ++ [.tick 121001]) = some system ∧
    system.step (.run .expireLeases) = some (reply, after) ∧ Sample.terms system = [(true, false)] ∧
      system.KeepsTerms after (.run .expireLeases) := by
  have hview : (Sample.run (fun system label => Sample.Prompt system label) (Sample.enlist ++
      Sample.submit Sample.exclusiveWork ++ Sample.schedule ++ [.tick 121001])).map
        (fun system => (Sample.terms system, Sample.Prompt system (.run .expireLeases))) = some ([(true, false)], true) := by
    decide +kernel
  obtain ⟨system, hsystem, hread⟩ := Option.map_eq_some_iff.mp hview
  obtain ⟨hterms, hprompt⟩ := Prod.mk.inj hread
  have hreach : system.ReachableBy System.GrantsInTime :=
    (Sample.run_reaches hsystem).mono fun _ _ hprompt => Sample.Prompt.grantsInTime hprompt
  exact ⟨system, _, _, hsystem, rfl, hterms,
    (leases_granted_in_time system.impl system.now).2 system _ _ _ hreach (Sample.Prompt.grantsInTime hprompt) rfl⟩

/-- Leases that last as long as a clock of 64 bits. -/
def Sample.endless : PolicySnapshot := { id := 1, generation := 2, assignmentLeaseTtlMs := 0xFFFFFFFFFFFFFFFF }

/-- Work is planned under that policy, and committed. -/
def Sample.overlong : Option (System × Reply × System) := do
  let planned ← run (fun _ _ => True) (enlist ++ submit exclusiveWork ++ [.run (.setPolicy endless), .begin (.schedule 5 1)])
  let (reply, committed) ← planned.step (.finish 0)
  return (planned, reply, committed)

/-- The clock, whether no assignment is stored and the policy is valid, and the leases after the commit. -/
def Sample.overlongTerms (found : System × Reply × System) : UInt64 × Bool × Bool × List (Bool × Bool) :=
  (found.1.now, found.1.impl.assignments.values.isEmpty, (found.1.impl.policy.validate found.1.impl.limits).toBool,
    (found.2.2.impl.assignments.values).map fun record =>
      (record.state.isActive, decide (found.1.now ≤ record.binding.leaseExpiresAtMs)))

set_option maxRecDepth 100000 in
/-- The policy is valid, and every lease under it has run out when it is granted. -/
theorem not_leases_granted_in_time : ¬∀ (system after : System) (label : Label) (reply : Reply), system.Reachable →
    system.now.toNat < 2 ^ 63 → system.impl.policy.validate system.impl.limits = .ok () →
    system.step label = some (reply, after) → system.KeepsTerms after label := by
  intro hkeeps
  have hview : Sample.overlong.map Sample.overlongTerms = some (1000, true, true, [(true, false)]) := by decide +kernel
  obtain ⟨⟨planned, reply, committed⟩, hfound, hterms⟩ := Option.map_eq_some_iff.mp hview
  simp only [Sample.overlong, bind, Option.bind_eq_some_iff] at hfound
  obtain ⟨planned', hrun, ⟨reply', committed'⟩, hstep, heq⟩ := hfound
  obtain ⟨rfl, rfl, rfl⟩ := by simpa only [pure, Option.some.injEq, Prod.mk.injEq] using heq
  simp only [Sample.overlongTerms, Prod.mk.injEq] at hterms
  obtain ⟨hnow, hempty, hpolicy, hleases⟩ := hterms
  have hvalid : planned'.impl.policy.validate planned'.impl.limits = .ok () := by
    cases hvalidate : planned'.impl.policy.validate planned'.impl.limits with
    | ok => rfl
    | error error =>
      rw [hvalidate] at hpolicy
      cases hpolicy
  obtain ⟨record, hmem, hlapsed⟩ : ∃ record ∈ committed'.impl.assignments.values,
      (record.state.isActive, decide (planned'.now ≤ record.binding.leaseExpiresAtMs)) = (true, false) :=
    List.mem_map.mp (by rw [hleases]; exact List.mem_singleton_self _)
  obtain ⟨hactive, hlapsed⟩ := Prod.mk.inj hlapsed
  obtain ⟨id, hrecord⟩ := mem_values.mp hmem
  have hterms := hkeeps planned' committed' (.finish 0) reply' (Sample.run_reaches hrun) (by rw [hnow]; decide) hvalid hstep
  refine of_decide_eq_false hlapsed (hterms.fresh (fun _ hlabel => by cases hlabel) id record hrecord hactive ?_)
  intro before hbefore
  have hmem := mem_values.mpr ⟨id, hbefore⟩
  rw [List.isEmpty_iff.mp hempty] at hmem
  cases hmem

end AgentScheduler
