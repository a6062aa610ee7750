import AgentScheduler.Consistency
import AgentScheduler.Soundness

/-! Closing assignments, one or many: slots and counters follow, and the ledger moves by a single step. -/
namespace AgentScheduler
open Std KeyedTable

section
variable {impl : Impl}

/-! ### One assignment -/

/-- Ends the record and takes it out of both indexes; only the counters of its work are then behind. -/
theorem coherent_unslot {id : AssignmentId} {before after : AssignmentRecord} (h : Consistent impl)
    (hbefore : impl.assignments[id]? = some before) (hterminal : after.state.isTerminal)
    (hbinding : after.binding = before.binding) :
    Coherent {before.binding.work} (deindexAssignment (dropLease (impl.setAssignment id after) before.binding.lease) after) := by
  have hid : before.binding.id = id := h.assignmentKey id before hbefore
  have hinactive := AssignmentState.not_isActive_of_isTerminal hterminal
  have hledger : (deindexAssignment (dropLease (impl.setAssignment id after) before.binding.lease) after).ledger =
      impl.ledger.setAssignment id after := ledger_setAssignment impl id after
  have hactive : ∀ (p : AssignmentRecord → Prop) member, member ∈ (impl.ledger.setAssignment id after).active p ↔
      member ∈ impl.ledger.active p ∧ member ≠ id := by
    intro p member
    unfold Ledger.active Ledger.setAssignment
    by_cases heq : member = id
    · subst heq
      simp [hinactive]
    · simp [heq]
  have hslot : ∀ {Key : Type} [Ord Key] [TransOrd Key] [LawfulEqOrd Key] [DecidableEq Key]
      (index : Table Key (IdSet AssignmentId)) (key : AssignmentRecord → Key) (k : Key) (member : AssignmentId),
      (∀ k member, member ∈ indexIds index k ↔ member ∈ impl.ledger.active fun record => key record = k) →
      (member ∈ indexIds (indexErase index (key before) id) k ↔
        member ∈ (impl.ledger.setAssignment id after).active fun record => key record = k) := by
    intro Key _ _ _ _ index key k member hindex
    rw [mem_indexIds_erase, hindex, hactive]
    constructor
    · rintro ⟨hmem, hnot⟩
      refine ⟨hmem, ?_⟩
      rintro rfl
      obtain ⟨record, hrecord, -, hk⟩ := hmem
      obtain rfl : before = record := Option.some.inj (hbefore.symm.trans hrecord)
      exact hnot ⟨hk, rfl⟩
    · rintro ⟨hmem, hne⟩
      exact ⟨hmem, fun hboth => hne hboth.2.symm⟩
  refine ⟨h.agentKey, h.agentBoot, h.workKey, h.assignmentKey.insert ?_, fun other record hrecord => ?_,
    h.leaseKey.modify fun _ => rfl, h.queueKey, h.tenantKey, h.fencedKey, fun work member => ?_,
    fun agent member => ?_, fun work record hstale hrecord => ?_, fun work record _ => h.admitted work record fun hmem => hmem,
    fun work hnone => ?_⟩
  · rw [hbinding, hid]
  · change (impl.assignments.insert id after)[other]? = some record at hrecord
    rw [KeyedTable.getElem?_insert] at hrecord
    split at hrecord
    · rw [← Option.some.inj hrecord]
      exact .inr hterminal
    · exact h.assignmentState other record hrecord
  · rw [hledger]
    have := hslot impl.indexAssignmentsByWork (fun record => record.binding.work) work member h.workIndex
    rwa [← hid, ← hbinding] at this ⊢
  · rw [hledger]
    have := hslot impl.indexAssignmentsByAgent (fun record => record.binding.agent) agent member h.agentIndex
    rwa [← hid, ← hbinding] at this ⊢
  · have hsame : (impl.ledger.setAssignment id after).activeFor work = impl.ledger.activeFor work := by
      ext member
      refine (hactive _ member).trans ⟨And.left, fun hmem => ⟨hmem, ?_⟩⟩
      rintro rfl
      obtain ⟨found, hfound, -, hwork⟩ := hmem
      obtain rfl : before = found := Option.some.inj (hbefore.symm.trans hfound)
      exact hstale hwork.symm
    rw [hledger, hsame]
    exact h.current work record (fun hmem => hmem) hrecord
  · rw [hledger]
    refine Set.subset_empty_iff.mp fun member hmember => ?_
    rw [← h.unknown work hnone]
    exact ((hactive _ member).mp hmember).1

/-- Which record `close_assignment` ends. -/
def closesOnly (id : AssignmentId) (record : AssignmentRecord) : Bool := record.binding.id = id && record.state.isActive

private theorem setAssignment_eq_closing {id : AssignmentId} {record : AssignmentRecord} {now : UInt64}
    {state : AssignmentState} {reason : InvalidationReason} {detail : Text} (h : Consistent impl)
    (hrecord : impl.assignments[id]? = some record) (hactive : record.state.isActive) :
    impl.ledger.setAssignment id (record.close now state reason detail) =
      impl.ledger.mapAssignments (closing (closesOnly id) now state reason detail) := by
  refine Ledger.ext rfl rfl rfl rfl rfl rfl (funext fun other => ?_)
  have hledger : ∀ other, impl.ledger.assignments other = impl.assignments[other]? := fun _ => rfl
  simp only [Ledger.setAssignment, Ledger.mapAssignments, hledger]
  by_cases heq : other = id
  · subst heq
    have hkey : record.binding.id = other := h.assignmentKey other record hrecord
    simp [hrecord, closing, closesOnly, hkey, hactive]
  · rw [Function.update_of_ne heq, hledger]
    cases hother : impl.assignments[other]? with
    | none => rfl
    | some found =>
      have hkey : found.binding.id = other := h.assignmentKey other found hother
      simp [closing, closesOnly, hkey, heq]

private theorem closing_eq_self {id : AssignmentId} {now : UInt64} {state : AssignmentState}
    {reason : InvalidationReason} {detail : Text} (h : Consistent impl)
    (hnone : ∀ record, impl.assignments[id]? = some record → record.state.isActive = false) :
    impl.ledger.mapAssignments (closing (closesOnly id) now state reason detail) = impl.ledger := by
  refine Ledger.ext rfl rfl rfl rfl rfl rfl (funext fun other => ?_)
  change impl.assignments[other]?.map _ = impl.assignments[other]?
  cases hother : impl.assignments[other]? with
  | none => rfl
  | some found =>
    have hkey : found.binding.id = other := h.assignmentKey other found hother
    by_cases heq : other = id
    · subst heq
      simp [closing, closesOnly, hnone found hother]
    · simp [closing, closesOnly, hkey, heq]

/-- The step of `close_assignment` that decays the recent load of the agent. -/
def Impl.decayAgent (impl : Impl) (agent : AgentId) : Impl :=
  match impl.agents[agent]? with
  | none => impl
  | some record => refreshAgentAccounting (impl.setAgent agent (decayRecent record)) agent

/-- What `close_assignment` does to an active record, step by step. -/
private theorem closeAssignment_active {id : AssignmentId} {record : AssignmentRecord} {now : UInt64}
    {state : AssignmentState} {reason : InvalidationReason} {detail : Text} (h : Consistent impl)
    (hrecord : impl.assignments[id]? = some record) (hactive : record.state.isActive) (hterminal : state.isTerminal) :
    Consistent (closeAssignment now impl id state reason detail) ∧
      (closeAssignment now impl id state reason detail).ledger =
        impl.ledger.setAssignment id (record.close now state reason detail) := by
  have hopen : record.state.isTerminal = false := by
    cases hstate : record.state.isTerminal with
    | false => rfl
    | true =>
      rw [AssignmentState.not_isActive_of_isTerminal hstate] at hactive
      cases hactive
  let closed := record.close now state reason detail
  let unslotted := deindexAssignment (dropLease (impl.setAssignment id closed) record.binding.lease) closed
  have hunslotted : Coherent {record.binding.work} unslotted := coherent_unslot h hrecord hterminal rfl
  have hledger : unslotted.ledger = impl.ledger.setAssignment id closed := ledger_setAssignment impl id closed
  let decayed := unslotted.decayAgent record.binding.agent
  have hdecayed : Coherent {record.binding.work} decayed ∧ decayed.ledger = unslotted.ledger := by
    cases hagent : unslotted.agents[record.binding.agent]? with
    | none =>
      have heq : decayed = unslotted := by simp only [decayed, Impl.decayAgent, hagent]
      rw [heq]
      exact ⟨hunslotted, rfl⟩
    | some agent =>
      have heq : decayed = refreshAgentAccounting
          (unslotted.setAgent record.binding.agent (decayRecent agent)) record.binding.agent := by
        simp only [decayed, Impl.decayAgent, hagent]
      have hdescriptor : (decayRecent agent).descriptor = agent.descriptor := by
        unfold decayRecent
        split <;> rfl
      have hentry : (decayRecent agent).entry = agent.entry := by
        unfold decayRecent
        split <;> rfl
      rw [heq, ledger_refreshAgentAccounting, ledger_setAgent_same hagent hentry]
      refine ⟨Coherent.refreshAgentAccounting (hunslotted.setAgent ?_ ?_) _, rfl⟩
      · rw [hdescriptor]
        exact hunslotted.agentKey _ agent hagent
      · rw [hdescriptor]
        exact hunslotted.agentBoot _ agent hagent
  have hclosed : closeAssignment now impl id state reason detail =
      Impl.revise { refreshWorkAccounting decayed record.binding.work with
        assignmentsInvalidated := (refreshWorkAccounting decayed record.binding.work).assignmentsInvalidated + 1 } := by
    unfold closeAssignment
    simp only [hrecord, hopen]
    rfl
  have hrefreshed := hdecayed.1.refreshWorkAccounting record.binding.work
  rw [Set.sdiff_self] at hrefreshed
  rw [hclosed]
  refine ⟨hrefreshed.of_core rfl, ?_⟩
  have hcore := @ledger_of_core (refreshWorkAccounting decayed record.binding.work) (
    Impl.revise { refreshWorkAccounting decayed record.binding.work with
      assignmentsInvalidated := (refreshWorkAccounting decayed record.binding.work).assignmentsInvalidated + 1 }) rfl
  rw [hcore, ledger_refreshWorkAccounting, hdecayed.2, hledger]

/-- A record that is not active is left alone by `close_assignment`. -/
private theorem closeAssignment_inactive {id : AssignmentId} {now : UInt64} {state : AssignmentState}
    {reason : InvalidationReason} {detail : Text} (h : Consistent impl)
    (hnone : ∀ record, impl.assignments[id]? = some record → record.state.isActive = false) :
    closeAssignment now impl id state reason detail = impl := by
  unfold closeAssignment
  cases hrecord : impl.assignments[id]? with
  | none => rfl
  | some record =>
    have hterminal : record.state.isTerminal := by
      rcases h.assignmentState id record hrecord with hactive | hterminal
      · rw [hnone record hrecord] at hactive
        cases hactive
      · exact hterminal
    simp [hterminal]

theorem Coherent.closeAssignment {id : AssignmentId} {now : UInt64} {state : AssignmentState}
    {reason : InvalidationReason} {detail : Text} (h : Consistent impl) (hterminal : state.isTerminal) :
    Consistent (closeAssignment now impl id state reason detail) := by
  by_cases hactive : ∃ record, impl.assignments[id]? = some record ∧ record.state.isActive
  · obtain ⟨record, hrecord, hactive⟩ := hactive
    exact (closeAssignment_active h hrecord hactive hterminal).1
  · rw [closeAssignment_inactive h fun record hrecord => by
      by_contra hstate
      exact hactive ⟨record, hrecord, by simpa using hstate⟩]
    exact h

/-- `close_assignment` ends the record under its id, if it is active, and moves nothing else. -/
theorem ledger_closeAssignment (id : AssignmentId) (now : UInt64) (state : AssignmentState)
    (reason : InvalidationReason) (detail : Text) (h : Consistent impl) (hterminal : state.isTerminal) :
    (closeAssignment now impl id state reason detail).ledger =
      impl.ledger.mapAssignments (closing (closesOnly id) now state reason detail) := by
  by_cases hactive : ∃ record, impl.assignments[id]? = some record ∧ record.state.isActive
  · obtain ⟨record, hrecord, hactive⟩ := hactive
    rw [(closeAssignment_active h hrecord hactive hterminal).2, setAssignment_eq_closing h hrecord hactive]
  · have hnone : ∀ record, impl.assignments[id]? = some record → record.state.isActive = false := fun record hrecord => by
      by_contra hstate
      exact hactive ⟨record, hrecord, by simpa using hstate⟩
    rw [closeAssignment_inactive h hnone, closing_eq_self h hnone]

/-! ### Loops over the assignment table -/

/-- A ledger without its assignments. -/
def Ledger.frame (ledger : Ledger) : Ledger := { ledger with assignments := fun _ => none }

theorem Ledger.eq_of_frame {ledger ledger' : Ledger} (hframe : ledger.frame = ledger'.frame)
    (hassignments : ledger.assignments = ledger'.assignments) : ledger = ledger' := by
  cases ledger; cases ledger'
  simp only [Ledger.frame, Ledger.mk.injEq] at hframe hassignments ⊢
  tauto

/-- One turn of a loop over the assignment table that acts on the selected records. -/
def turnAt (selected : AssignmentRecord → Bool) (body : Impl → AssignmentId → AssignmentRecord → Impl) (impl : Impl)
    (id : AssignmentId) : Impl :=
  match impl.assignments[id]? with
  | none => impl
  | some record => if selected record then body impl id record else impl

/-- A turn either replaces the record of its id or does nothing. -/
private theorem turnAt_spec {selected : AssignmentRecord → Bool} {body : Impl → AssignmentId → AssignmentRecord → Impl}
    {update : AssignmentRecord → AssignmentRecord}
    (hbody : ∀ impl id record, Consistent impl → impl.assignments[id]? = some record → selected record →
      Consistent (body impl id record) ∧ (body impl id record).ledger = impl.ledger.setAssignment id (update record))
    (h : Consistent impl) (id : AssignmentId) :
    Consistent (turnAt selected body impl id) ∧ (turnAt selected body impl id).ledger.frame = impl.ledger.frame ∧
      ∀ other, (turnAt selected body impl id).ledger.assignments other =
        if id = other then (impl.ledger.assignments other).map fun record => if selected record then update record else record
        else impl.ledger.assignments other := by
  have hread : ∀ other, impl.ledger.assignments other = impl.assignments[other]? := fun _ => rfl
  cases hrecord : impl.assignments[id]? with
  | none =>
    have hturn : turnAt selected body impl id = impl := by simp only [turnAt, hrecord]
    rw [hturn]
    refine ⟨h, rfl, fun other => ?_⟩
    by_cases heq : id = other
    · subst heq
      rw [if_pos rfl, hread, hrecord, Option.map_none]
    · rw [if_neg heq]
  | some record =>
    by_cases hsel : selected record
    · have hturn : turnAt selected body impl id = body impl id record := by simp only [turnAt, hrecord, hsel, if_true]
      obtain ⟨hconsistent, hledger⟩ := hbody impl id record h hrecord hsel
      rw [hturn, hledger]
      refine ⟨hconsistent, rfl, fun other => ?_⟩
      by_cases heq : id = other
      · subst heq
        simp [Ledger.setAssignment, hread, hrecord, hsel]
      · simp [Ledger.setAssignment, heq, Function.update_of_ne (Ne.symm heq)]
    · have hturn : turnAt selected body impl id = impl := by simp [turnAt, hrecord, hsel]
      rw [hturn]
      refine ⟨h, rfl, fun other => ?_⟩
      by_cases heq : id = other
      · subst heq
        simp [hread, hrecord, hsel]
      · rw [if_neg heq]

/-- A loop over the assignment table whose turns rewrite the selected records rewrites them all at once. -/
theorem foldl_turnAt {selected : AssignmentRecord → Bool} {f : Impl → AssignmentId → AssignmentRecord → Impl}
    {update : AssignmentRecord → AssignmentRecord}
    (hbody : ∀ impl id record, Consistent impl → impl.assignments[id]? = some record → selected record →
      Consistent (f impl id record) ∧ (f impl id record).ledger = impl.ledger.setAssignment id (update record))
    (h : Consistent impl) :
    Consistent (impl.assignments.keys.foldl (turnAt selected f) impl) ∧
      (impl.assignments.keys.foldl (turnAt selected f) impl).ledger =
        impl.ledger.mapAssignments fun record => if selected record then update record else record := by
  let invariant (state : Impl) : Prop := Consistent state ∧ state.ledger.frame = impl.ledger.frame
  have hinv : ∀ state id, invariant state → invariant (turnAt selected f state id) := fun state id hstate =>
    ⟨(turnAt_spec hbody hstate.1 id).1, (turnAt_spec hbody hstate.1 id).2.1.trans hstate.2⟩
  have hfinal : invariant (impl.assignments.keys.foldl (turnAt selected f) impl) :=
    List.foldlRecOn _ _ ⟨h, rfl⟩ fun state hstate id _ => hinv state id hstate
  refine ⟨hfinal.1, Ledger.eq_of_frame hfinal.2 (funext fun id => ?_)⟩
  exact foldl_table_read (f := fun state id => state.ledger.assignments id) invariant hinv
    (fun state id other hstate => (turnAt_spec hbody hstate.1 id).2.2 other) impl.assignments (fun _ => rfl)
    ⟨h, rfl⟩ id

/-- `closeWhere` ends exactly the selected records. -/
theorem closeWhere_spec (selected : AssignmentRecord → Bool) (now : UInt64) (state : AssignmentState)
    (reason : InvalidationReason) (detail : Text) (h : Consistent impl) (hterminal : state.isTerminal)
    (hselected : ∀ record, selected record → record.state.isActive) :
    Consistent (closeWhere now impl selected state reason detail) ∧
      (closeWhere now impl selected state reason detail).ledger =
        impl.ledger.mapAssignments (closing selected now state reason detail) :=
  foldl_turnAt (f := fun impl id _ => closeAssignment now impl id state reason detail)
    (fun _ _ record h hrecord hsel => closeAssignment_active h hrecord (hselected record hsel) hterminal) h

/-- The demotion loop of `publish_capabilities` demotes exactly the outdated records. -/
theorem demoteOutdated_spec (agent : AgentId) (profile : CapabilityProfile) (h : Consistent impl) :
    Consistent (demoteOutdated impl agent profile) ∧
      (demoteOutdated impl agent profile).ledger = impl.ledger.mapAssignments (demoting agent profile) := by
  refine foldl_turnAt (f := fun impl id record => dropLease (impl.setAssignment id record.demote) record.binding.lease)
    (fun impl id record h hrecord hsel => ?_) h
  have hactive : record.state.isActive := by
    simp [outdatedBy] at hsel
    exact hsel.1.2
  have hdemoted : Consistent (impl.setAssignment id record.demote) := h.setAssignment hrecord hactive rfl rfl
  exact ⟨hdemoted.dropLease _, ledger_setAssignment impl id _⟩

/-! ### What closing leaves alone -/

/-- An instance without what closing an assignment changes. -/
def Impl.frame (impl : Impl) : Impl :=
  { impl with
    agents := ∅
    work := ∅
    assignments := ∅
    leases := ∅
    stateRevision := 0
    assignmentsInvalidated := 0
    indexAgentsByLifecycle := ∅
    indexWorkByLifecycle := ∅
    indexAssignmentsByAgent := ∅
    indexAssignmentsByWork := ∅ }

@[simp] theorem frame_refreshAgentAccounting (impl : Impl) (agent : AgentId) :
    (refreshAgentAccounting impl agent).frame = impl.frame := by
  unfold refreshAgentAccounting
  split <;> rfl

@[simp] theorem frame_refreshWorkAccounting (impl : Impl) (work : WorkId) :
    (refreshWorkAccounting impl work).frame = impl.frame := by
  unfold refreshWorkAccounting
  split <;> rfl

@[simp] theorem frame_closeAssignment (now : UInt64) (impl : Impl) (id : AssignmentId) (state : AssignmentState)
    (reason : InvalidationReason) (detail : Text) :
    (closeAssignment now impl id state reason detail).frame = impl.frame := by
  unfold closeAssignment
  split
  · rfl
  · split
    · rfl
    · refine Eq.trans (b := (refreshWorkAccounting _ _).frame) rfl ?_
      rw [frame_refreshWorkAccounting]
      split
      · rfl
      · rw [frame_refreshAgentAccounting]
        rfl

theorem frame_closeWhere (now : UInt64) (impl : Impl) (selected : AssignmentRecord → Bool) (state : AssignmentState)
    (reason : InvalidationReason) (detail : Text) :
    (closeWhere now impl selected state reason detail).frame = impl.frame := by
  refine List.foldlRecOn (motive := fun state : Impl => state.frame = impl.frame) _ _ rfl fun state hstate id _ => ?_
  split
  · exact hstate
  · split
    · rw [frame_closeAssignment, hstate]
    · exact hstate

end

end AgentScheduler
