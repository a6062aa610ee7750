import AgentScheduler.RecordChains
import AgentScheduler.Unambiguous

/-! Every assignment has one lease, whose flag it shares, and no other lease is stored. -/
namespace AgentScheduler
open Std KeyedTable Relation ByteCodec

/-- What `derive_lease_id` feeds to the digest. -/
def leaseInput (binding : AssignmentBinding) : List UInt8 :=
  fieldTag 0x11 ++ hash128Bytes binding.id.value ++ leBytes64 (UInt64.ofNat binding.leaseGeneration.value)

/-- The identities of a binding are derived from what it binds. -/
structure AssignmentBinding.Derived (binding : AssignmentBinding) : Prop where
  id : binding.id = deriveAssignmentId binding
  generation : binding.leaseGeneration = ⟨binding.generation.value⟩
  lease : binding.lease = deriveLeaseId binding

/-- The assignments and the leases name each other, and agree on what is current. -/
structure Records.Leased (records : Records) : Prop where
  key : ∀ id record, records.assignments id = some record → record.binding.id = id
  derived : ∀ id record, records.assignments id = some record → record.binding.Derived
  ended : ∀ id record, records.assignments id = some record → record.state.isTerminal → record.leaseCurrent = false
  leased : ∀ id record, records.assignments id = some record → ∃ lease, records.leases record.binding.lease = some lease ∧
    lease.assignment = id ∧ lease.current = record.leaseCurrent
  owned : ∀ id lease, records.leases id = some lease → ∃ record, records.assignments lease.assignment = some record ∧
    record.binding.lease = id

/-- The digest does not collide on two inputs. -/
def DigestTells (input other : List UInt8) : Prop := derivedId input = derivedId other → input = other

/-- The identities of a binding tell it from another one. -/
def AssignmentBinding.Apart (binding other : AssignmentBinding) : Prop :=
  DigestTells (hashBinding binding) (hashBinding other) ∧ DigestTells (leaseInput binding) (leaseInput other)

/-- No digest of a commit collides with that of a stored assignment. -/
def System.CommitsApart (system : System) (label : Label) : Prop :=
  ∀ impl work binding, system.Places label impl work binding →
    ∀ (id : AssignmentId) record, impl.assignments[id]? = some record → record.binding.Apart binding

/-! ### Derived identities -/

section Identities
variable {binding first second : AssignmentBinding}

theorem deriveLeaseId_eq (binding : AssignmentBinding) : deriveLeaseId binding = ⟨derivedId (leaseInput binding)⟩ := by
  unfold deriveLeaseId leaseInput
  rfl

theorem deriveLeaseId_congr (hid : first.id = second.id)
    (hgeneration : UInt64.ofNat first.leaseGeneration.value = UInt64.ofNat second.leaseGeneration.value) :
    deriveLeaseId first = deriveLeaseId second := by
  unfold deriveLeaseId
  rw [hid, hgeneration]

theorem deriveAssignmentId_congr (h : hashBinding first = hashBinding second) :
    deriveAssignmentId first = deriveAssignmentId second := by
  unfold deriveAssignmentId
  rw [h]

theorem hashBinding_generation (binding : AssignmentBinding) :
    ∃ rest, hashBinding binding = fieldTag 0x01 ++ (leBytes64 (UInt64.ofNat binding.generation.value) ++ rest) := by
  unfold hashBinding
  simp only [List.append_assoc]
  exact ⟨_, rfl⟩

/-- The generation is the first thing that is hashed of a binding. -/
theorem generation_of_hashBinding (h : hashBinding first = hashBinding second) :
    UInt64.ofNat first.generation.value = UInt64.ofNat second.generation.value := by
  obtain ⟨rest, hfirst⟩ := hashBinding_generation first
  obtain ⟨rest', hsecond⟩ := hashBinding_generation second
  rw [hfirst, hsecond] at h
  exact (Unambiguous.leBytes64_append.mp (List.append_cancel_left h)).1

/-- The assignment is the first thing that is hashed of a lease. -/
theorem id_of_leaseInput (h : leaseInput first = leaseInput second) : first.id = second.id := by
  unfold leaseInput hash128Bytes at h
  rw [List.append_assoc, List.append_assoc, List.append_assoc, List.append_assoc] at h
  obtain ⟨hhigh, hrest⟩ := Unambiguous.leBytes64_append.mp (List.append_cancel_left h)
  obtain ⟨hlow, -⟩ := Unambiguous.leBytes64_append.mp hrest
  have hsame : ∀ id other : AssignmentId, id.value.high = other.value.high → id.value.low = other.value.low → id = other := by
    rintro ⟨⟨high, low⟩⟩ ⟨⟨high', low'⟩⟩ rfl rfl
    rfl
  exact hsame first.id second.id hhigh hlow

theorem AssignmentBinding.Derived.renew (h : binding.Derived) (expiry : UInt64) :
    ({ binding with leaseExpiresAtMs := expiry } : AssignmentBinding).Derived :=
  ⟨h.id.trans (deriveAssignmentId_congr rfl), h.generation, h.lease.trans (deriveLeaseId_congr rfl rfl)⟩

/-- Derived bindings under one identity, when the digest does not collide, have one lease. -/
theorem AssignmentBinding.Derived.lease_eq (hfirst : first.Derived) (hsecond : second.Derived) (hid : first.id = second.id)
    (hapart : first.Apart second) : first.lease = second.lease := by
  have hdigest : deriveAssignmentId first = deriveAssignmentId second := by rw [← hfirst.id, ← hsecond.id, hid]
  have hinput : hashBinding first = hashBinding second := hapart.1 (StrongId.mk.inj hdigest)
  rw [hfirst.lease, hsecond.lease]
  refine deriveLeaseId_congr hid ?_
  rw [hfirst.generation, hsecond.generation]
  exact generation_of_hashBinding hinput

/-- Derived bindings with one lease, when the digest does not collide, have one identity. -/
theorem AssignmentBinding.Derived.id_eq (hfirst : first.Derived) (hsecond : second.Derived) (hlease : first.lease = second.lease)
    (hapart : first.Apart second) : first.id = second.id := by
  have hdigest : deriveLeaseId first = deriveLeaseId second := by rw [← hfirst.lease, ← hsecond.lease, hlease]
  rw [deriveLeaseId_eq, deriveLeaseId_eq] at hdigest
  exact id_of_leaseInput (hapart.2 (StrongId.mk.inj hdigest))

end Identities

namespace Records.Leased
variable {records records' : Records} {id : AssignmentId} {before after : AssignmentRecord}

theorem of_eq (h : records.Leased) (hassignments : records'.assignments = records.assignments)
    (hleases : records'.leases = records.leases) : records'.Leased := by
  obtain ⟨agents, tenantOf, assignments, leases, held⟩ := records
  obtain ⟨agents', tenantOf', assignments', leases', held'⟩ := records'
  obtain rfl : assignments' = assignments := hassignments
  obtain rfl : leases' = leases := hleases
  exact ⟨h.key, h.derived, h.ended, h.leased, h.owned⟩

/-- An assignment and its lease change together. -/
theorem change {expiry : UInt64} (h : records.Leased) (hbefore : records.assignments id = some before)
    (hbinding : after.binding = { before.binding with leaseExpiresAtMs := expiry })
    (hended : after.state.isTerminal → after.leaseCurrent = false) {update : Lease → Lease}
    (hassignment : ∀ lease, (update lease).assignment = lease.assignment)
    (hcurrent : ∀ lease : Lease, lease.current = before.leaseCurrent → (update lease).current = after.leaseCurrent) :
    ((records.setAssignment id after).modifyLease after.binding.lease update).Leased := by
  obtain ⟨held, hheld, hholds, hagrees⟩ := h.leased id before hbefore
  have hid : after.binding.id = before.binding.id := by rw [hbinding]
  have hlease : after.binding.lease = before.binding.lease := by rw [hbinding]
  have hread : ∀ other record, ((records.setAssignment id after).modifyLease after.binding.lease update).assignments other =
      some record → other = id ∧ record = after ∨ other ≠ id ∧ records.assignments other = some record := by
    intro other record hrecord
    change Function.update records.assignments id (some after) other = some record at hrecord
    rw [update_ite] at hrecord
    split at hrecord
    · next heq => exact .inl ⟨heq.symm, (Option.some.inj hrecord).symm⟩
    · next hne => exact .inr ⟨Ne.symm hne, hrecord⟩
  have hleases : ∀ other, ((records.setAssignment id after).modifyLease after.binding.lease update).leases other =
      if before.binding.lease = other then some (update held) else records.leases other := by
    intro other
    change Function.update records.leases after.binding.lease ((records.leases after.binding.lease).map update) other = _
    rw [hlease, update_ite, hheld]
    rfl
  have hderived : after.binding.Derived := by
    rw [hbinding]
    exact (h.derived id before hbefore).renew expiry
  refine ⟨fun other record hrecord => ?_, fun other record hrecord => ?_, fun other record hrecord => ?_,
    fun other record hrecord => ?_, fun other lease hstored => ?_⟩
  · rcases hread other record hrecord with ⟨rfl, rfl⟩ | ⟨-, hold⟩
    · rw [hid]
      exact h.key other before hbefore
    · exact h.key other record hold
  · rcases hread other record hrecord with ⟨-, rfl⟩ | ⟨-, hold⟩
    · exact hderived
    · exact h.derived other record hold
  · rcases hread other record hrecord with ⟨-, rfl⟩ | ⟨-, hold⟩
    · exact hended
    · exact h.ended other record hold
  · rw [hleases]
    rcases hread other record hrecord with ⟨rfl, rfl⟩ | ⟨hne, hold⟩
    · rw [hlease, if_pos rfl]
      exact ⟨update held, rfl, (hassignment held).trans hholds, hcurrent held hagrees⟩
    · obtain ⟨lease, hstored, hassigned, hflag⟩ := h.leased other record hold
      rw [if_neg]
      · exact ⟨lease, hstored, hassigned, hflag⟩
      · intro hsame
        rw [← hsame, hheld] at hstored
        obtain rfl := Option.some.inj hstored
        exact hne (hassigned.symm.trans hholds)
  · rw [hleases] at hstored
    change ∃ record, Function.update records.assignments id (some after) lease.assignment = some record ∧ _
    rw [update_ite]
    split at hstored
    · next heq =>
      obtain rfl := Option.some.inj hstored
      rw [hassignment, hholds, if_pos rfl]
      exact ⟨after, rfl, hlease.trans heq⟩
    · next hother =>
      obtain ⟨record, hrecord, hnamed⟩ := h.owned other lease hstored
      refine ⟨record, ?_, hnamed⟩
      rw [if_neg]
      · exact hrecord
      · intro hsame
        rw [← hsame, hbefore] at hrecord
        obtain rfl := Option.some.inj hrecord
        exact hother hnamed

/-- An assignment changes beside its lease. -/
theorem advance (h : records.Leased) (hbefore : records.assignments id = some before)
    (hbinding : after.binding = before.binding) (hactive : after.state.isActive)
    (hcurrent : after.leaseCurrent = before.leaseCurrent) : (records.setAssignment id after).Leased := by
  have hchanged : ((records.setAssignment id after).modifyLease after.binding.lease fun lease => lease).Leased := by
    refine h.change hbefore hbinding (fun hterminal => ?_) (fun _ => rfl) fun _ hflag => hflag.trans hcurrent.symm
    rw [AssignmentState.not_isActive_of_isTerminal hterminal] at hactive
    cases hactive
  refine hchanged.of_eq rfl ?_
  simp [Records.modifyLease]

/-- An assignment lapses, and its lease with it. -/
theorem close (h : records.Leased) (hbefore : records.assignments id = some before) (hbinding : after.binding = before.binding)
    (hlapsed : after.leaseCurrent = false) : (records.close id after).Leased := by
  have hchanged : ((records.setAssignment id after).modifyLease after.binding.lease fun stored =>
      { stored with current := false }).Leased :=
    h.change hbefore hbinding (fun _ => hlapsed) (fun _ => rfl) fun _ _ => hlapsed.symm
  exact hchanged

/-- A commit stores an assignment and its lease, or finds both. -/
theorem commit {binding : AssignmentBinding} {tenant : TenantId} (h : records.Leased) (hderived : binding.Derived)
    (hapart : ∀ id record, records.assignments id = some record → record.binding.Apart binding) :
    (records.commit binding tenant).Leased := by
  cases hslot : records.assignments binding.id with
  | some taken =>
    -- the same binding was committed before: its lease is the one that is stored
    have hnamed : taken.binding.lease = binding.lease :=
      (h.derived binding.id taken hslot).lease_eq hderived (h.key binding.id taken hslot) (hapart binding.id taken hslot)
    obtain ⟨held, hheld, -⟩ := h.leased binding.id taken hslot
    refine h.of_eq ?_ ?_
    · simp only [Records.commit, Records.modifyHeld, hslot, Option.getD_some]
      exact Function.update_eq_self_iff.mpr hslot.symm
    · rw [hnamed] at hheld
      simp only [Records.commit, Records.modifyHeld, hheld, Option.getD_some]
      exact Function.update_eq_self_iff.mpr hheld.symm
  | none =>
    have hfree : records.leases binding.lease = none := by
      cases hstored : records.leases binding.lease with
      | none => rfl
      | some lease =>
        obtain ⟨record, hrecord, hnamed⟩ := h.owned binding.lease lease hstored
        have hid : record.binding.id = binding.id :=
          (h.derived lease.assignment record hrecord).id_eq hderived hnamed (hapart lease.assignment record hrecord)
        rw [← h.key lease.assignment record hrecord, hid, hslot] at hrecord
        cases hrecord
    have hassignments : ∀ other, (records.commit binding tenant).assignments other =
        if binding.id = other then some binding.record else records.assignments other := by
      intro other
      change Function.update records.assignments binding.id _ other = _
      rw [update_ite, hslot]
      rfl
    have hleases : ∀ other, (records.commit binding tenant).leases other =
        if binding.lease = other then some binding.leaseRecord else records.leases other := by
      intro other
      change Function.update records.leases binding.lease _ other = _
      rw [update_ite, hfree]
      rfl
    have hread : ∀ other record, (records.commit binding tenant).assignments other = some record →
        other = binding.id ∧ record = binding.record ∨ other ≠ binding.id ∧ records.assignments other = some record := by
      intro other record hrecord
      rw [hassignments] at hrecord
      split at hrecord
      · next heq => exact .inl ⟨heq.symm, (Option.some.inj hrecord).symm⟩
      · next hne => exact .inr ⟨Ne.symm hne, hrecord⟩
    refine ⟨fun other record hrecord => ?_, fun other record hrecord => ?_, fun other record hrecord => ?_,
      fun other record hrecord => ?_, fun other lease hstored => ?_⟩
    · rcases hread other record hrecord with ⟨rfl, rfl⟩ | ⟨-, hold⟩
      · rfl
      · exact h.key other record hold
    · rcases hread other record hrecord with ⟨-, rfl⟩ | ⟨-, hold⟩
      · exact hderived
      · exact h.derived other record hold
    · rcases hread other record hrecord with ⟨-, rfl⟩ | ⟨-, hold⟩
      · nofun
      · exact h.ended other record hold
    · rw [hleases]
      rcases hread other record hrecord with ⟨rfl, rfl⟩ | ⟨-, hold⟩
      · exact ⟨binding.leaseRecord, if_pos rfl, rfl, rfl⟩
      · obtain ⟨lease, hstored, hassigned, hflag⟩ := h.leased other record hold
        rw [if_neg]
        · exact ⟨lease, hstored, hassigned, hflag⟩
        · intro hsame
          rw [← hsame, hfree] at hstored
          cases hstored
    · rw [hleases] at hstored
      rw [hassignments]
      split at hstored
      · next heq =>
        obtain rfl := Option.some.inj hstored
        exact ⟨binding.record, if_pos rfl, heq⟩
      · obtain ⟨record, hrecord, hnamed⟩ := h.owned other lease hstored
        refine ⟨record, ?_, hnamed⟩
        rw [if_neg]
        · exact hrecord
        · intro hsame
          rw [← hsame, hslot] at hrecord
          cases hrecord

/-- Nothing is current after a recovery. -/
theorem recover (h : records.Leased) : records.recover.Leased := by
  have hcurrent : ∀ id record, records.assignments id = some record → record.recover.leaseCurrent = false := by
    intro id record _
    unfold AssignmentRecord.recover
    split <;> rfl
  have hbinding : ∀ record : AssignmentRecord, record.recover.binding.id = record.binding.id ∧
      record.recover.binding.lease = record.binding.lease ∧ (record.binding.Derived → record.recover.binding.Derived) := by
    intro record
    unfold AssignmentRecord.recover
    split
    · exact ⟨rfl, rfl, fun hderived => hderived.renew 0⟩
    · exact ⟨rfl, rfl, fun hderived => hderived⟩
  have hread : ∀ id found, records.recover.assignments id = some found →
      ∃ record, records.assignments id = some record ∧ record.recover = found :=
    fun id found hfound => Option.map_eq_some_iff.mp hfound
  refine ⟨fun id found hfound => ?_, fun id found hfound => ?_, fun id found hfound _ => ?_, fun id found hfound => ?_,
    fun id found hfound => ?_⟩
  · obtain ⟨record, hrecord, rfl⟩ := hread id found hfound
    exact (hbinding record).1.trans (h.key id record hrecord)
  · obtain ⟨record, hrecord, rfl⟩ := hread id found hfound
    exact (hbinding record).2.2 (h.derived id record hrecord)
  · obtain ⟨record, hrecord, rfl⟩ := hread id found hfound
    exact hcurrent id record hrecord
  · obtain ⟨record, hrecord, rfl⟩ := hread id found hfound
    obtain ⟨lease, hstored, hassigned, -⟩ := h.leased id record hrecord
    refine ⟨lease.recover, ?_, hassigned, (hcurrent id record hrecord).symm⟩
    change (records.leases _).map Lease.recover = _
    rw [(hbinding record).2.1, hstored]
    rfl
  · obtain ⟨lease, hstored, rfl⟩ := Option.map_eq_some_iff.mp hfound
    obtain ⟨record, hrecord, hnamed⟩ := h.owned id lease hstored
    refine ⟨record.recover, ?_, (hbinding record).2.1.trans hnamed⟩
    change (records.assignments lease.assignment).map AssignmentRecord.recover = _
    rw [hrecord]
    rfl

theorem empty : Records.empty.Leased := by
  refine ⟨?_, ?_, ?_, ?_, ?_⟩ <;> intro _ _ hnone <;> cases hnone

/-- Every change keeps assignments and leases together, if what is committed is derived and told apart. -/
theorem posting {now : UInt64} {occasion : Occasion} (hposting : Posting now occasion records records')
    (hcommits : ∀ impl work binding, occasion = .commits impl work binding → binding.Derived ∧
      ∀ (id : AssignmentId) record, impl.assignments[id]? = some record → record.binding.Apart binding)
    (h : records.Leased) : records'.Leased := by
  cases hposting with
  | vouch | reportLoad | silence | enroll | receive | «open» => exact h.of_eq rfl rfl
  | advance id before after hbefore _ hactive hbinding hlease => exact h.advance hbefore hbinding hactive hlease
  | demote id before hbefore => exact h.close hbefore rfl rfl
  | renew id before after ttl hbefore _ hactive hlease hbinding =>
    have hopen : after.state.isTerminal → after.leaseCurrent = false := by
      intro hterminal
      rw [AssignmentState.not_isActive_of_isTerminal hterminal] at hactive
      cases hactive
    have hgranted : ((records.setAssignment id after).modifyLease after.binding.lease fun stored =>
        { stored with expiresAtMs := after.binding.leaseExpiresAtMs, current := true }).Leased :=
      h.change hbefore hbinding hopen (fun _ => rfl) fun _ _ => hlease.symm
    exact hgranted
  | close id record state reason detail hrecord => exact h.close hrecord rfl rfl
  | conclude id record brief state reason detail hrecord =>
    have hclosed : (records.close id (record.close now state reason detail)).Leased := h.close hrecord rfl rfl
    refine hclosed.of_eq ?_ ?_ <;> unfold Records.release <;> split <;> rfl
  | @commit impl work binding =>
    obtain ⟨hderived, hapart⟩ := hcommits impl work binding rfl
    exact h.commit hderived hapart

end Records.Leased

/-! ### What is committed is derived -/

section Plans
variable {ctx : Context} {impl : Impl}

/-- The identities are variables here, so that no digest is computed to compare two bindings. -/
theorem derived_with {binding : AssignmentBinding} {id : AssignmentId} {lease : LeaseId} {dispatch : DispatchId}
    (hid : id = deriveAssignmentId binding) (hgeneration : binding.leaseGeneration = ⟨binding.generation.value⟩)
    (hlease : lease = deriveLeaseId { binding with id := id }) :
    ({ binding with id := id, lease := lease, dispatch := dispatch } : AssignmentBinding).Derived :=
  ⟨hid.trans (deriveAssignmentId_congr rfl), hgeneration, hlease.trans (deriveLeaseId_congr rfl rfl)⟩

theorem derived_withIds {binding : AssignmentBinding} (h : binding.leaseGeneration = ⟨binding.generation.value⟩) :
    binding.withIds.Derived := by
  unfold AssignmentBinding.withIds
  exact @derived_with binding (deriveAssignmentId binding) _ _ rfl h rfl

theorem derived_of_plan {work : WorkRecord} {binding : AssignmentBinding}
    (h : (planLocked ctx impl work).binding = some binding) : binding.Derived := by
  obtain ⟨-, id, agent, -, rfl⟩ := planLocked_binding h
  exact derived_withIds rfl

private theorem beginCall_derived {era : Nat} {request : Request} {plan : Plan}
    (h : beginCall ctx impl era request = .inr (.schedule plan)) : plan.binding.Derived := by
  cases request with
  | schedule work generation =>
    simp only [beginCall] at h
    split at h
    · cases h
    · next binding hbinding =>
      obtain rfl := Call.schedule.inj (Sum.inr.inj h)
      unfold scheduleBegin at hbinding
      split at hbinding
      · cases hbinding
      · split at hbinding
        · cases hbinding
        · exact derived_of_plan hbinding
  | dispatch | registerAgent | submitWork | cancelWork | declareAgentLost =>
    simp only [beginCall] at h
    split at h <;> cases h

/-- The bindings of the plans in flight are derived. -/
theorem System.ReachableBy.plans_derived {allowed : System → Label → Prop} {system : System} (h : system.ReachableBy allowed) :
    ∀ plan, .schedule plan ∈ system.calls → plan.binding.Derived := by
  refine System.ReachableBy.keeps (motive := fun system => ∀ plan, Call.schedule plan ∈ system.calls → plan.binding.Derived) h
    (fun start hstart plan hplan => ?_) fun s s' label reply _ _ hstep hinv plan hplan => ?_
  · obtain ⟨options, generatedId, now, hstart⟩ := hstart
    obtain ⟨impl, -, rfl⟩ := Option.map_eq_some_iff.mp hstart
    exact (List.not_mem_nil hplan).elim
  · rcases (System.step_frame hstep).calls _ hplan with hold | ⟨-, -, request, hbegin⟩
    · exact hinv plan hold
    · exact beginCall_derived hbegin

theorem System.Places.derived {allowed : System → Label → Prop} {system : System} {label : Label} {work : WorkRecord}
    {binding : AssignmentBinding} (hplaces : system.Places label impl work binding) (hreach : system.ReachableBy allowed) :
    binding.Derived := by
  cases hplaces with
  | schedule hcall => exact hreach.plans_derived _ (List.mem_of_getElem? hcall)
  | @batch _ _ state _ _ _ hdry hcommits hwork =>
    have hconsistent : Consistent state.impl := (hcommits.visits.healthy hreach.valid.healthy).consistent
    exact derived_of_plan (hcommits.takes.check hconsistent hwork).1

end Plans

/-- As long as no digest of a commit collides, every stored assignment has exactly one lease, under its
derived identity, and shares its flag; only an active assignment that does not wait for revalidation has it set. -/
theorem leases_agree {system : System} (hreach : system.ReachableBy System.CommitsApart) :
    (∀ (id : AssignmentId) record, system.impl.assignments[id]? = some record →
      record.binding.lease = deriveLeaseId record.binding ∧
        (∃ lease, system.impl.leases[record.binding.lease]? = some lease ∧ lease.assignment = id ∧
          lease.current = record.leaseCurrent) ∧
        (record.leaseCurrent → record.state.isActive ∧ record.state ≠ .revalidationRequired)) ∧
      ∀ (id : LeaseId) lease, system.impl.leases[id]? = some lease →
        ∃ record, system.impl.assignments[lease.assignment]? = some record ∧ record.binding.lease = id := by
  have hleased : system.impl.records.Leased := by
    refine (hreach.records .empty (fun _ h => h.recover) fun s label occasion records records' hs hapart hdoes hposting h =>
      h.posting hposting ?_).1
    rintro impl work binding rfl
    have hplaces := hdoes.places
    exact ⟨hplaces.derived hs, hapart impl work binding hplaces⟩
  refine ⟨fun id record hrecord => ⟨(hleased.derived id record hrecord).lease, hleased.leased id record hrecord, ?_⟩,
    hleased.owned⟩
  intro hcurrent
  rw [(hreach.valid.healthy.sound id record hrecord).lease] at hcurrent
  refine ⟨AssignmentState.isActive_of_isLive hcurrent, fun hstate => ?_⟩
  rw [hstate] at hcurrent
  cases hcurrent

/-- No batch runs, and a plan is finished only while no assignment is stored. -/
def Sample.PlacesFirst (system : System) : Label → Bool
  | .run (.scheduleBatch _) => false
  | .finish _ => system.impl.assignments.isEmpty
  | _ => true

theorem Sample.PlacesFirst.commitsApart {system : System} {label : Label} (h : PlacesFirst system label) :
    system.CommitsApart label := by
  intro impl work binding hplaces
  cases hplaces with
  | batch => cases h
  | schedule hcall hcheck =>
    simp only [PlacesFirst, ExtTreeMap.isEmpty_iff] at h
    intro id record hrecord
    rw [h] at hrecord
    simp at hrecord

/-- A work item is scheduled, and its evidence moves under it. -/
def Sample.leased : Option System :=
  run (fun system label => PlacesFirst system label) (enlist ++ submit exclusiveWork ++ schedule ++
    [.run (.publishCapabilities 1 boot { profile with generation := 2 })])

set_option maxRecDepth 100000 in
/-- The assignment waits for revalidation, and neither it nor its lease is current. -/
theorem leases_agree_sample : ∃ system, ∃ id : AssignmentId, ∃ record lease, Sample.leased = some system ∧
    system.impl.assignments[id]? = some record ∧ record.state = .revalidationRequired ∧
      system.impl.leases[record.binding.lease]? = some lease ∧ lease.assignment = id ∧
        lease.current = record.leaseCurrent := by
  have hview : Sample.leased.map (fun system => system.impl.assignments.values.map AssignmentRecord.state) =
      some [.revalidationRequired] := by decide +kernel
  obtain ⟨system, hsystem, hstates⟩ := Option.map_eq_some_iff.mp hview
  have hreach : system.ReachableBy System.CommitsApart :=
    (Sample.run_reaches hsystem).mono fun _ _ hfirst => Sample.PlacesFirst.commitsApart hfirst
  obtain ⟨record, hmem, hstate⟩ : ∃ record ∈ system.impl.assignments.values, record.state = .revalidationRequired :=
    List.mem_map.mp (by rw [hstates]; exact List.mem_singleton_self _)
  obtain ⟨id, hrecord⟩ := mem_values.mp hmem
  obtain ⟨-, ⟨lease, hlease, hassigned, hflag⟩, -⟩ := (leases_agree hreach).1 id record hrecord
  exact ⟨system, id, record, lease, hsystem, hrecord, hstate, hlease, hassigned, hflag⟩

end AgentScheduler
