import AgentScheduler.Lifecycles
import AgentScheduler.Observation
import AgentScheduler.Replicas

/-! Recovered assignments: who may take their slots away, and who does. -/
namespace AgentScheduler
open Std KeyedTable Relation

/-! ### Decisions about an assignment -/

/-- The second section of a call decides an assignment that waits for revalidation: its work is admitted again or
cancelled, or its incarnation is replaced or lost. -/
def Call.Decides (impl : Impl) (binding : AssignmentBinding) : Call → Prop
  | .registerAgent descriptor => ∃ existing, impl.agents[descriptor.id]? = some existing ∧
      existing.descriptor.generation < descriptor.generation ∧ existing.descriptor.boot = binding.boot
  | .submitWork request => request.id = binding.work
  | .cancelWork work _ _ => work = binding.work
  | .declareAgentLost _ boot _ => boot = binding.boot
  | .schedule _ | .dispatch .. => False

/-- The operation decides an assignment that waits for revalidation: it is revalidated, an observation names it, or its
work, its incarnation or its policy is invalidated. -/
def Operation.Decides (now : UInt64) (impl : Impl) (binding : AssignmentBinding) : Operation → Prop
  | .revalidateAssignments => True
  | .revalidateAgentAssignments agent boot => agent = binding.agent ∧ boot = binding.boot
  | .release id _ _ _ | .completeAssignment id _ _ | .failAssignment id _ _ _ | .rejectAssignment id _ _ _ => id = binding.id
  | .supersedeWork _ _ replacement => replacement.id = binding.work
  | .expireDeadlines => ∃ work, impl.work[binding.work]? = some work ∧ work.request.LapsedAt now
  | .setPolicy policy => policy.generation ≠ binding.policyGeneration
  | .drainAgent _ boot force => force ∧ boot = binding.boot
  | .deregisterAgent _ boot _ => boot = binding.boot
  | _ => False

/-- The step decides an assignment that waits for revalidation. -/
def System.Decides (system : System) (binding : AssignmentBinding) : Label → Prop
  | .run operation => operation.Decides system.now system.impl binding
  | .finish position => ∃ call, system.calls[position]? = some call ∧ call.Decides system.impl binding
  | _ => False

/-- The assignment is stored and waits for revalidation. -/
def Impl.Retains (impl : Impl) (id : AssignmentId) (binding : AssignmentBinding) : Prop :=
  ∃ held, impl.assignments[id]? = some held ∧ held.state = .revalidationRequired ∧ held.binding = binding

/-- An assignment that waits for revalidation holds its slot, and no other exclusive assignment shares it. -/
structure System.HoldsSlot (system : System) (id : AssignmentId) (binding : AssignmentBinding) : Prop where
  retained : system.impl.Retains id binding
  alone : binding.exclusive → system.impl.ledger.exclusiveFor binding.work = {id}
  unshared : binding.exclusive → ∀ label impl work other, system.Commits label impl work other →
    other.work = binding.work → ¬other.exclusive

section Deeds
variable {ctx : Context} {impl impl' : Impl} {event : Event} {stale stale' : Set AgentId} {id : AssignmentId}
  {record : AssignmentRecord} {binding : AssignmentBinding}

/-- A deed that neither closes nor advances an assignment leaves it as it is stored. -/
theorem Deed.keepsStored (hdeed : Deed ctx event (stale, impl) (stale', impl')) (h : Consistent impl)
    (hrecord : impl.assignments[id]? = some record) (hcloses : event ≠ .closes record) (hadvances : event ≠ .advances id) :
    impl'.assignments[id]? = some record := by
  have hkept : impl'.assignments = impl.assignments → impl'.assignments[id]? = some record := fun heq => heq ▸ hrecord
  cases hdeed with
  | quiet _ hessence _ =>
    have hassignments := congrArg Impl.assignments hessence
    exact hkept hassignments
  | govern _ htables _ =>
    have hassignments := congrArg Impl.assignments htables
    exact hkept hassignments
  | close closed found state reason detail hfound hopen hterminal =>
    have hledger := congrArg (fun ledger => ledger.assignments id)
      (ledger_closeAssignment closed ctx.now state reason detail h hterminal)
    have hledger : (closeAssignment ctx.now impl closed state reason detail).assignments[id]? =
        (impl.assignments[id]?).map (closing (closesOnly closed) ctx.now state reason detail) := hledger
    have hother : id ≠ closed := by
      rintro rfl
      obtain rfl := Option.some.inj (hfound.symm.trans hrecord)
      exact hcloses rfl
    have hid : record.binding.id = id := h.assignmentKey id record hrecord
    have hselected : ¬closesOnly closed record := by simp [closesOnly, hid, hother]
    rw [hledger, hrecord, Option.map_some, closing, if_neg hselected]
  | fence =>
    refine hkept ?_
    unfold fenceBoot
    split <;> rfl
  | touch | note | enroll | reincarnate | accept | reopen | settle | tally => exact hkept rfl
  | refresh agent => exact hkept (rest_refreshAgent impl agent).1
  | recount agent =>
    have hassignments := congrArg Impl.assignments (slots_refreshAgentAccounting impl agent)
    exact hkept hassignments
  | refreshWork work =>
    have hassignments := congrArg Impl.assignments (slots_refreshWorkAccounting impl work)
    exact hkept hassignments
  | commit generation binding work hcheck =>
    have hwithin := Ledger.within_commit (commits_of_check h hcheck).2.work
    rw [← (commitApply_spec h hcheck).2] at hwithin
    exact hwithin.assignments id record hrecord
  | advance advanced before after hbefore =>
    have hother : advanced ≠ id := fun heq => hadvances (heq ▸ rfl)
    change (impl.assignments.insert advanced after)[id]? = some record
    rw [getElem?_insert, if_neg hother]
    exact hrecord

theorem Deeds.keepsStored {allows : Event → Prop} (hdeeds : Deeds ctx allows (stale, impl) (stale', impl'))
    (hconsistent : Consistent impl) (hrecord : impl.assignments[id]? = some record) (hcloses : ¬allows (.closes record))
    (hadvances : ¬allows (.advances id)) : impl'.assignments[id]? = some record :=
  Deeds.keeps (motive := fun scene => scene.2.assignments[id]? = some record) hdeeds
    (fun _ _ _ hallows hdeed hscene hkept => hdeed.keepsStored hscene hkept (fun hevent => hcloses (hevent ▸ hallows))
      fun hevent => hadvances (hevent ▸ hallows))
    hconsistent hrecord

/-- Nothing but a decision or the expiry of its lease closes an assignment that waits for revalidation. -/
theorem Operation.decides_of_closes {operation : Operation} (hstate : record.state = .revalidationRequired)
    (hcauses : operation.Causes ctx impl (.closes record)) :
    operation.Decides ctx.now impl record.binding ∨
      (operation = .expireLeases ∧ record.binding.leaseExpiresAtMs < ctx.now) ∨
      (∃ generation dispatchId dispatchGeneration boot,
        operation = .acknowledge record.binding.id generation dispatchId dispatchGeneration boot) ∨
      ∃ generation boot, operation = .markExecuting record.binding.id generation boot := by
  cases operation with
  | shutdown =>
    have hassigned : record.state = .assigned := hcauses
    rw [hstate] at hassigned
    cases hassigned
  | setPolicy => exact .inl (Ne.symm hcauses.2)
  | drainAgent => exact .inl ⟨hcauses.1, hcauses.2.symm⟩
  | revalidateAgentAssignments => exact .inl ⟨hcauses.1.symm, hcauses.2.1.symm⟩
  | revalidateAssignments => exact .inl trivial
  | expireDeadlines =>
    left
    obtain ⟨entry, hentry, hlapsed⟩ := hcauses
    obtain ⟨work, hwork, rfl⟩ := Option.map_eq_some_iff.mp hentry
    exact ⟨work, hwork, hlapsed⟩
  | expireLeases => exact .inr (.inl ⟨rfl, hcauses.2⟩)
  | acknowledge id generation dispatchId dispatchGeneration boot =>
    obtain rfl : record.binding.id = id := hcauses
    exact .inr (.inr (.inl ⟨generation, dispatchId, dispatchGeneration, boot, rfl⟩))
  | markExecuting id generation boot =>
    obtain rfl : record.binding.id = id := hcauses
    exact .inr (.inr (.inr ⟨generation, boot, rfl⟩))
  | deregisterAgent | supersedeWork | release | completeAssignment | failAssignment | rejectAssignment =>
    exact .inl (Eq.symm hcauses)
  | _ => exact hcauses.elim

theorem Call.decides_of_closes {call : Call} (hcauses : call.Causes impl (.closes record)) :
    call.Decides impl record.binding := by
  cases call with
  | registerAgent descriptor =>
    obtain ⟨existing, hexisting, hnewer, hboot⟩ := hcauses
    exact ⟨existing, hexisting, hnewer, hboot.symm⟩
  | submitWork | cancelWork => exact Eq.symm hcauses
  | declareAgentLost => exact hcauses.1.symm
  | schedule | dispatch => exact hcauses.elim

/-! ### Operations that touch an assignment without deciding it -/

/-- Neither a report of progress nor a handoff changes an assignment that waits for revalidation. -/
theorem acknowledge_waiting {now : UInt64} {generation : AssignmentGeneration} {dispatchId : DispatchId}
    {dispatchGeneration : DispatchGeneration} {boot : AgentBootId} (hrecord : impl.assignments[id]? = some record)
    (hstate : record.state = .revalidationRequired) :
    (acknowledge now impl id generation dispatchId dispatchGeneration boot).2 = impl := by
  by_contra hchanged
  cases hlookup : lookupAssignment impl id generation boot with
  | error problem => exact hchanged (observing_refused hlookup)
  | ok found =>
    obtain rfl := Option.some.inj ((lookupAssignment_stored hlookup).symm.trans hrecord)
    have hdispatched := ((acknowledge_changes hlookup).mp hchanged).2
    rw [hstate] at hdispatched
    cases hdispatched

theorem markExecuting_waiting {now : UInt64} {generation : AssignmentGeneration} {boot : AgentBootId}
    (hrecord : impl.assignments[id]? = some record) (hstate : record.state = .revalidationRequired) :
    (markExecuting now impl id generation boot).2 = impl := by
  by_contra hchanged
  cases hlookup : lookupAssignment impl id generation boot with
  | error problem => exact hchanged (observing_refused hlookup)
  | ok found =>
    obtain rfl := Option.some.inj ((lookupAssignment_stored hlookup).symm.trans hrecord)
    have hruns := (markExecuting_changes hlookup).mp hchanged
    rw [hstate] at hruns
    rcases hruns with hruns | hruns | hruns <;> cases hruns

theorem dispatchCommit_waiting {generation : AssignmentGeneration} (hrecord : impl.assignments[id]? = some record)
    (hstate : record.state = .revalidationRequired) : (dispatchCommit ctx impl id generation).2 = impl := by
  unfold dispatchCommit
  cases hcheck : handoffCheck ctx impl id generation with
  | error rejection => rfl
  | ok found =>
    obtain ⟨hfound, -, hassigned, -⟩ := handoffCheck_ok hcheck
    obtain rfl := Option.some.inj (hfound.symm.trans hrecord)
    rw [hstate] at hassigned
    cases hassigned

/-- A publication leaves the assignment waiting. -/
theorem publishCapabilities_retains {now : UInt64} {agent : AgentId} {boot : AgentBootId} {profile : CapabilityProfile}
    (h : Consistent impl) (hretains : impl.Retains id binding) :
    (publishCapabilities now impl agent boot profile).2.Retains id binding := by
  obtain ⟨record, hrecord, hstate, hbinding⟩ := hretains
  cases hcheck : checkCapabilities now impl agent boot profile with
  | error error =>
    have hsame : (publishCapabilities now impl agent boot profile).2 = impl := by
      unfold publishCapabilities guarded
      rw [hcheck]
    rw [hsame]
    exact ⟨record, hrecord, hstate, hbinding⟩
  | ok published =>
    cases published with
    | none =>
      have hsame : (publishCapabilities now impl agent boot profile).2 = impl := by
        unfold publishCapabilities guarded
        rw [hcheck]
      rw [hsame]
      exact ⟨record, hrecord, hstate, hbinding⟩
    | some canonical =>
      have hassignments := congrFun (publishCapabilities_tables h hcheck).2 id
      have hassignments : (publishCapabilities now impl agent boot profile).2.assignments[id]? =
          (impl.assignments[id]?).map (demoting agent canonical) := hassignments
      rw [hrecord] at hassignments
      refine ⟨demoting agent canonical record, hassignments, ?_, ?_⟩
      · unfold demoting
        split
        · rfl
        · exact hstate
      · unfold demoting
        split
        · exact hbinding
        · exact hbinding

/-- The expiry of leases takes the slot exactly when the lease has run out. -/
theorem expireLeases_retains_iff {now : UInt64} (h : Consistent impl) (hretains : impl.Retains id binding) :
    (expireLeases now impl).2.Retains id binding ↔ ¬binding.leaseExpiresAtMs < now := by
  obtain ⟨record, hrecord, hstate, rfl⟩ := hretains
  have hactive : record.state.isActive := by
    rw [hstate]
    rfl
  let lapsed (record : AssignmentRecord) : Bool := record.state.isActive && record.binding.leaseExpiresAtMs < now
  have hselected : ∀ record, lapsed record → record.state.isActive := by
    intro record hlapsed
    simp only [lapsed, Bool.and_eq_true] at hlapsed
    exact hlapsed.1
  have hledger := congrArg (fun ledger => ledger.assignments id)
    (closeWhere_spec lapsed now .expired .leaseExpired "assignment lease expired" h rfl hselected).2
  have hledger : (expireLeases now impl).2.assignments[id]? =
      (impl.assignments[id]?).map (closing lapsed now .expired .leaseExpired "assignment lease expired") := hledger
  rw [hrecord, Option.map_some, closing] at hledger
  by_cases hexpired : record.binding.leaseExpiresAtMs < now
  · have hlapsed : lapsed record := by simp [lapsed, hactive, hexpired]
    rw [if_pos hlapsed] at hledger
    refine iff_of_false ?_ (not_not.mpr hexpired)
    rintro ⟨held, hheld, hwaits, -⟩
    obtain rfl := Option.some.inj (hledger.symm.trans hheld)
    cases hwaits
  · have hlapsed : ¬lapsed record := by simp [lapsed, hexpired]
    rw [if_neg hlapsed] at hledger
    exact iff_of_true ⟨record, hledger, hstate, rfl⟩ hexpired

end Deeds

/-! ### Recovered assignments over runs -/

section Steps
variable {system after : System} {label : Label} {reply : Reply} {id : AssignmentId} {binding : AssignmentBinding}

/-- An assignment that waits for revalidation keeps its slot to itself. -/
theorem System.Valid.holdsSlot (hvalid : system.Valid) (hretains : system.impl.Retains id binding) :
    system.HoldsSlot id binding := by
  obtain ⟨held, hheld, hstate, rfl⟩ := hretains
  have hactive : held.state.isActive := by
    rw [hstate]
    rfl
  have hmem : ∀ ledger : Ledger, ledger.assignments id = some held → held.binding.exclusive →
      id ∈ ledger.exclusiveFor held.binding.work :=
    fun ledger hstored hexclusive => ⟨held, hstored, hactive, rfl, hexclusive⟩
  refine ⟨⟨held, hheld, hstate, rfl⟩, fun hexclusive => ?_, fun hexclusive label impl work other hcommits hsame hother => ?_⟩
  · have honly := Set.encard_le_one_iff.mp (hvalid.healthy.bounded.exclusive held.binding.work)
    have hself := hmem system.impl.ledger hheld hexclusive
    exact Set.eq_singleton_iff_unique_mem.mpr ⟨hself, fun found hfound => honly found id hfound hself⟩
  · -- what a batch has stored so far still holds the assignment
    have hstored : impl.ledger.assignments id = some held := by
      cases hcommits with
      | schedule => exact hheld
      | batch hvisits =>
        have hkept := hvisits.visits.keeps (motive := fun state => Healthy system.context.now state.impl ∧
            system.impl.ledger.Within state.impl.ledger)
          (fun first state item hstate => ⟨batchItem_healthy hstate.1,
            hstate.2.trans (ledger_batchItem_within first item hstate.1.consistent)⟩)
          (fun _ _ hstate => hstate) ⟨hvalid.healthy, .refl _⟩
        exact hkept.2.assignments id held hheld
    obtain ⟨hhealthy, generation, hcheck⟩ := hcommits.checked hvalid
    have hnone := (commits_of_check hhealthy.consistent hcheck).2.exclusive hother
    have hself := hmem impl.ledger hstored hexclusive
    rw [← hsame, hnone] at hself
    exact Set.notMem_empty id hself

/-- A step that does not decide an assignment leaves it waiting, unless it expires the lease. -/
theorem System.step_retains_iff (hvalid : system.Valid) (hretains : system.impl.Retains id binding)
    (hcontinues : system.Continues label) (hnot : ¬system.Decides binding label)
    (hstep : system.step label = some (reply, after)) :
    after.impl.Retains id binding ↔ ¬(label = .run .expireLeases ∧ binding.leaseExpiresAtMs < system.now) := by
  have hconsistent := hvalid.healthy.consistent
  by_cases hexpires : label = .run .expireLeases
  · subst hexpires
    obtain ⟨-, rfl⟩ := Prod.mk.inj (Option.some.inj hstep)
    exact (expireLeases_retains_iff hconsistent hretains).trans (not_congr (and_iff_right rfl).symm)
  refine iff_of_true ?_ fun hboth => hexpires hboth.1
  obtain ⟨held, hheld, hstate, rfl⟩ := hretains
  have hid : held.binding.id = id := hconsistent.assignmentKey id held hheld
  have hsame : after.impl = system.impl → after.impl.Retains id held.binding := fun heq => heq ▸ ⟨held, hheld, hstate, rfl⟩
  by_cases htouches : system.Causes label (.closes held) ∨ system.Causes label (.advances id)
  · cases label with
    | run operation =>
      obtain ⟨-, rfl⟩ := Prod.mk.inj (Option.some.inj hstep)
      rcases htouches with hcloses | hadvances
      · rcases operation.decides_of_closes hstate hcloses with hdecides | ⟨rfl, -⟩ | ⟨_, _, _, _, rfl⟩ | ⟨_, _, rfl⟩
        · exact (hnot hdecides).elim
        · exact (hexpires rfl).elim
        · exact hsame (acknowledge_waiting (hid.symm ▸ hheld) hstate)
        · exact hsame (markExecuting_waiting (hid.symm ▸ hheld) hstate)
      · cases operation with
        | publishCapabilities => exact publishCapabilities_retains hconsistent ⟨held, hheld, hstate, rfl⟩
        | acknowledge other =>
          obtain rfl : id = other := hadvances
          exact hsame (acknowledge_waiting hheld hstate)
        | markExecuting other =>
          obtain rfl : id = other := hadvances
          exact hsame (markExecuting_waiting hheld hstate)
        | _ => exact hadvances.elim
    | finish position =>
      rcases htouches with ⟨call, hcall, hcloses⟩ | ⟨call, hcall, hadvances⟩
      · exact (hnot ⟨call, hcall, call.decides_of_closes hcloses⟩).elim
      · cases call with
        | dispatch other =>
          obtain rfl : id = other := hadvances
          have hcall : system.calls[position]? = some (.dispatch id _) := hcall
          simp only [System.step, hcall] at hstep
          obtain ⟨-, rfl⟩ := Prod.mk.inj (Option.some.inj hstep)
          exact hsame (dispatchCommit_waiting hheld hstate)
        | _ => exact hadvances.elim
    | _ => exact (htouches.elim (fun hcloses => hcloses) fun hadvances => hadvances).elim
  · rw [not_or] at htouches
    refine ⟨held, (hcontinues.deeds hvalid hstep).keepsStored hconsistent hheld ?_ ?_, hstate, rfl⟩
    · exact fun hallows => hallows.elim (fun hbook => hbook) htouches.1
    · exact fun hallows => hallows.elim (fun hbook => hbook) htouches.2

/-- The recovered assignments: a load stored them. -/
structure System.Recovers (system : System) (position : Nat) (after : System) (id : AssignmentId) (record : AssignmentRecord) :
    Prop where
  reachable : system.Reachable
  stopped : system.impl.running = false
  loads : ∃ reply, system.step (.load position) = some (reply, after)
  stored : after.impl.assignments[id]? = some record
  active : record.state.isActive

/-- A recovered assignment waits for revalidation, and its lease expires at time zero. -/
theorem System.Recovers.spec {position : Nat} {record : AssignmentRecord} (h : system.Recovers position after id record) :
    after.Reachable ∧ after.impl.Retains id record.binding ∧ record.binding.leaseExpiresAtMs = 0 := by
  obtain ⟨hreach, hstopped, ⟨reply, hstep⟩, hrecord, hactive⟩ := h
  have hafter : after.Reachable := System.ReachableBy.trans hreach (.single ⟨_, _, trivial, hstep⟩)
  simp only [System.step] at hstep
  split at hstep
  · cases hstep
  · next file hfile =>
    rw [hstopped] at hstep
    obtain ⟨-, rfl⟩ := Option.some.inj hstep
    have hledger := congrArg (fun ledger => ledger.assignments id)
      (restore_image system.impl (hreach.valid.saved file (List.mem_of_getElem? hfile)).consistent).2
    have hledger : (restore system.impl (image file)).assignments[id]? =
        (file.assignments[id]?).map AssignmentRecord.recover := hledger
    have hstored : (restore system.impl (image file)).assignments[id]? = some record := hrecord
    rw [hledger] at hstored
    obtain ⟨before, -, rfl⟩ := Option.map_eq_some_iff.mp hstored
    unfold AssignmentRecord.recover at hrecord hactive ⊢
    split
    · next hwas =>
      rw [if_pos hwas] at hrecord
      exact ⟨hafter, ⟨_, hrecord, rfl, rfl⟩, rfl⟩
    · next hwas =>
      rw [if_neg hwas] at hactive
      exact (hwas hactive).elim

/-- The step leaves a recovered assignment undecided: it goes on in the same process without another load, and if it is a
decision about the assignment, the assignment still waits for revalidation afterwards. -/
def System.Undecided (id : AssignmentId) (binding : AssignmentBinding) (system : System) (label : Label) : Prop :=
  system.Continues label ∧ (system.Decides binding label → ∀ reply after, system.step label = some (reply, after) →
    after.impl.Retains id binding)

/-- No lease is expired once time has passed. -/
def System.KeepsLeases (system : System) (label : Label) : Prop := ¬(label = .run .expireLeases ∧ 0 < system.now)

/-- In a run from a load, a recovered assignment that is not decided holds its slot as long as `expire_leases` is not called
with time on the clock; a call of it takes the slot away. -/
theorem recovered_slot_held_iff {before loaded : System} {position : Nat} {record : AssignmentRecord}
    (hrecovers : before.Recovers position loaded id record) :
    (∀ system : System, System.Runs (fun s l => s.Undecided id record.binding l ∧ s.KeepsLeases l) loaded system →
      system.HoldsSlot id record.binding) ∧
    ∀ (system : System) label reply after, System.Runs (System.Undecided id record.binding) loaded system →
      system.HoldsSlot id record.binding → system.Undecided id record.binding label →
      system.step label = some (reply, after) →
      (after.HoldsSlot id record.binding ↔ system.KeepsLeases label) := by
  obtain ⟨hreach, hretains, hlease⟩ := hrecovers.spec
  have hstep : ∀ {s s' : System} {label reply}, s.Valid → s.Undecided id record.binding label →
      s.step label = some (reply, s') → s.impl.Retains id record.binding →
      (s'.impl.Retains id record.binding ↔ s.KeepsLeases label) := by
    intro s s' label reply hvalid hundecided hstep hheld
    by_cases hdecides : s.Decides record.binding label
    · refine iff_of_true (hundecided.2 hdecides reply s' hstep) ?_
      rintro ⟨rfl, -⟩
      exact hdecides
    · have hiff := System.step_retains_iff hvalid hheld hundecided.1 hdecides hstep
      rw [hlease] at hiff
      exact hiff
  refine ⟨fun system hrun => ?_, fun system label reply after hrun hholds hundecided hnext => ?_⟩
  · have hkept : system.Valid ∧ system.impl.Retains id record.binding := by
      refine Runs.keeps (motive := fun s : System => s.Valid ∧ s.impl.Retains id record.binding)
        (fun s s' hs hinv => ?_) hrun ⟨hreach.valid, hretains⟩
      obtain ⟨label, reply, ⟨hundecided, hkeeps⟩, hnext⟩ := hs
      exact ⟨hinv.1.step hnext, (hstep hinv.1 hundecided hnext hinv.2).mpr hkeeps⟩
    exact hkept.1.holdsSlot hkept.2
  · have hvalid : system.Valid := hrun.valid hreach.valid
    rw [← hstep hvalid hundecided hnext hholds.retained]
    exact ⟨System.HoldsSlot.retained, fun hheld => (hvalid.step hnext).holdsSlot hheld⟩

end Steps

/-! ### A recovered assignment and the clock -/

/-- The scheduler starts, agents report, and leases may be expired. -/
def Sample.Tends (expires : Bool) : Label → Bool
  | .run .start | .run (.publishHealth ..) => true
  | .run .expireLeases => expires
  | _ => false

theorem Sample.Tends.undecided {expires : Bool} {system : System} {label : Label} {id : AssignmentId}
    {binding : AssignmentBinding} (h : Tends expires label) : system.Undecided id binding label := by
  cases label with
  | run operation => cases operation <;> first | exact ⟨trivial, fun hdecides => hdecides.elim⟩ | cases h
  | _ => cases h

theorem Sample.Tends.keepsLeases {system : System} {label : Label} (h : Tends false label) : system.KeepsLeases label := by
  rintro ⟨rfl, -⟩
  cases h

/-- A state with an assigned work item is saved and loaded again; the only assignment of the file, and what follows. -/
def Sample.recovered (expires : Bool) (labels : List Label) : Option (System × System × AssignmentRecord × System) := do
  let before ← run (fun _ _ => True) (enlist ++ submit exclusiveWork ++ schedule ++ [.save, .run .shutdown])
  let (_, loaded) ← before.step (.load 0)
  let record ← loaded.impl.assignments.values.head?
  let later ← loaded.perform (fun _ label => Tends expires label) labels
  return (before, loaded, record, later)

theorem Sample.recovered_spec {expires : Bool} {labels : List Label} {before loaded later : System} {record : AssignmentRecord}
    (h : recovered expires labels = some (before, loaded, record, later)) (hstopped : before.impl.running = false)
    (hactive : record.state.isActive) :
    ∃ id, before.Recovers 0 loaded id record ∧ System.Runs (fun _ label => Tends expires label) loaded later := by
  simp only [recovered, bind, Option.bind_eq_some_iff] at h
  obtain ⟨before', hrun, ⟨reply, loaded'⟩, hload, record', hhead, later', hlater, heq⟩ := h
  obtain ⟨rfl, rfl, rfl, rfl⟩ := by simpa only [pure, Option.some.injEq, Prod.mk.injEq] using heq
  obtain ⟨id, hrecord⟩ := mem_values.mp (List.mem_of_mem_head? hhead)
  exact ⟨id, ⟨run_reaches hrun, hstopped, ⟨reply, hload⟩, hrecord, hactive⟩, System.perform_runs hlater⟩

/-- Whether the scheduler was stopped, the state of the recovered assignment, and the states of all in the end. -/
def Sample.recovery (found : System × System × AssignmentRecord × System) : Bool × AssignmentState × List AssignmentState :=
  (found.1.impl.running, found.2.2.1.state, found.2.2.2.impl.assignments.values.map AssignmentRecord.state)

set_option maxRecDepth 100000 in
/-- The scheduler starts again and the agent reports its health: the assignment still waits. -/
theorem recovered_slot_held_iff_sample : ∃ before loaded record later id,
    Sample.recovered false [.run .start, .run (.publishHealth 1 Sample.boot { Sample.health with generation := 2 })] =
      some (before, loaded, record, later) ∧
    before.Recovers 0 loaded id record ∧ later.HoldsSlot id record.binding := by
  have hview : (Sample.recovered false [.run .start,
      .run (.publishHealth 1 Sample.boot { Sample.health with generation := 2 })]).map Sample.recovery =
        some (false, .revalidationRequired, [.revalidationRequired]) := by decide +kernel
  obtain ⟨⟨before, loaded, record, later⟩, hfound, hview⟩ := Option.map_eq_some_iff.mp hview
  simp only [Sample.recovery, Prod.mk.injEq] at hview
  obtain ⟨hstopped, hstate, -⟩ := hview
  obtain ⟨id, hrecovers, hruns⟩ := Sample.recovered_spec hfound hstopped (by rw [hstate]; rfl)
  have hundecided : System.Runs (fun s l => s.Undecided id record.binding l ∧ s.KeepsLeases l) loaded later :=
    hruns.mono fun _ _ htends => ⟨Sample.Tends.undecided htends, Sample.Tends.keepsLeases htends⟩
  exact ⟨before, loaded, record, later, id, hfound, hrecovers, (recovered_slot_held_iff hrecovers).1 later hundecided⟩

set_option maxRecDepth 100000 in
/-- The leases are expired right after the scheduler starts again, and the assignment is gone. -/
theorem not_recovered_slot_held : ¬∀ (before loaded system : System) (position : Nat) (id : AssignmentId) record,
    before.Recovers position loaded id record → System.Runs (System.Undecided id record.binding) loaded system →
    system.HoldsSlot id record.binding := by
  intro hholds
  have hview : (Sample.recovered true [.run .start, .run .expireLeases]).map Sample.recovery =
      some (false, .revalidationRequired, [.expired]) := by decide +kernel
  obtain ⟨⟨before, loaded, record, later⟩, hfound, hview⟩ := Option.map_eq_some_iff.mp hview
  simp only [Sample.recovery, Prod.mk.injEq] at hview
  obtain ⟨hstopped, hstate, hends⟩ := hview
  obtain ⟨id, hrecovers, hruns⟩ := Sample.recovered_spec hfound hstopped (by rw [hstate]; rfl)
  have hundecided : System.Runs (System.Undecided id record.binding) loaded later :=
    hruns.mono fun _ _ htends => Sample.Tends.undecided htends
  obtain ⟨held, hheld, hwaits, -⟩ := (hholds before loaded later 0 id record hrecovers hundecided).retained
  have hmem : held.state ∈ later.impl.assignments.values.map AssignmentRecord.state :=
    List.mem_map_of_mem (mem_values.mpr ⟨id, hheld⟩)
  rw [hends, hwaits] at hmem
  simp at hmem

end AgentScheduler
