import AgentScheduler.Exclusivity
import AgentScheduler.Outcomes

/-! What tenants are charged for, and the ends of assignments that charge them on. -/
namespace AgentScheduler
open Std KeyedTable Relation

/-- The active assignments of the works of a tenant. -/
def Records.ofTenant (records : Records) (tenant : TenantId) : Set AssignmentId :=
  records.having fun record => record.state.isActive ∧ records.tenantOf record.binding.work = some tenant

/-- Every tenant is charged for the active assignments of its works. -/
structure Records.Charged (records : Records) : Prop where
  phase : ∀ id record, records.assignments id = some record → record.state.isActive ∨ record.state.isTerminal
  untold : records.held 0 = none
  charged : ∀ tenant, tenant ≠ 0 → (records.ofTenant tenant).encard = ((records.held tenant).getD 0 : ℕ)

/-- The assignments of an earlier state are still there, and those that are active have the tenants they had. -/
structure Records.Stems (before records : Records) : Prop where
  kept : ∀ id, before.assignments id ≠ none → records.assignments id ≠ none
  works : ∀ id record, before.assignments id ≠ none → records.assignments id = some record → record.state.isActive →
    records.tenantOf record.binding.work = before.tenantOf record.binding.work

/-! ### Works keep their tenants while they are assigned -/

namespace Records.Stems
variable {origin records records' : Records} {id : AssignmentId} {before after : AssignmentRecord}

theorem refl (records : Records) : records.Stems records := ⟨fun _ h => h, fun _ _ _ _ _ => rfl⟩

theorem of_eq (h : origin.Stems records) (hassignments : records'.assignments = records.assignments)
    (htenants : records'.tenantOf = records.tenantOf) : origin.Stems records' := by
  refine ⟨fun id hid => ?_, fun id record hid hrecord hactive => ?_⟩
  · rw [hassignments]
    exact h.kept id hid
  · rw [hassignments] at hrecord
    rw [htenants]
    exact h.works id record hid hrecord hactive

/-- A record that is rewritten for the same work stays active only if it was. -/
theorem rewrite (h : origin.Stems records) (hbefore : records.assignments id = some before)
    (hwork : after.binding.work = before.binding.work) (hactive : after.state.isActive → before.state.isActive) :
    origin.Stems (records.setAssignment id after) := by
  refine ⟨fun other hother => ?_, fun other record hother hrecord hstays => ?_⟩
  · simp only [Records.setAssignment, update_ite]
    split
    · exact Option.some_ne_none after
    · exact h.kept other hother
  · simp only [Records.setAssignment, update_ite] at hrecord
    split at hrecord
    · next heq =>
      obtain rfl := Option.some.inj hrecord
      subst heq
      change records.tenantOf after.binding.work = _
      rw [hwork]
      exact h.works id before hother hbefore (hactive hstays)
    · exact h.works other record hother hrecord hstays

theorem posting {now : UInt64} {occasion : Occasion} (hposting : Posting now occasion records records')
    (h : origin.Stems records) : origin.Stems records' := by
  have hclosed : ∀ {state : AssignmentState} {p : Prop}, state.isTerminal → state.isActive → p := by
    intro state p hterminal hactive
    rw [AssignmentState.not_isActive_of_isTerminal hterminal] at hactive
    cases hactive
  cases hposting with
  | vouch | reportLoad | silence | enroll | «open» => exact h.of_eq rfl rfl
  | advance id before after hbefore hwas _ hbinding _ => exact h.rewrite hbefore (by rw [hbinding]) fun _ => hwas
  | demote id before hbefore hwas =>
    have hdemoted : origin.Stems (records.setAssignment id before.demote) := h.rewrite hbefore rfl fun _ => hwas
    exact hdemoted.of_eq rfl rfl
  | renew id before after ttl hbefore hwas _ _ hbinding =>
    have hrenewed : origin.Stems (records.setAssignment id after) := h.rewrite hbefore (by rw [hbinding]) fun _ => hwas
    exact hrenewed.of_eq rfl rfl
  | close id record state reason detail hrecord _ hterminal =>
    have hended : origin.Stems (records.setAssignment id (record.close now state reason detail)) :=
      h.rewrite hrecord rfl fun hactive => hclosed hterminal hactive
    exact hended.of_eq rfl rfl
  | conclude id record brief state reason detail hrecord _ hterminal =>
    have hended : origin.Stems (records.setAssignment id (record.close now state reason detail)) :=
      h.rewrite hrecord rfl fun hactive => hclosed hterminal hactive
    refine hended.of_eq ?_ ?_ <;> unfold Records.release <;> split <;> rfl
  | @commit impl work binding =>
    have hread : ∀ id, impl.records.assignments id ≠ none →
        (impl.records.commit binding work.request.requirements.tenant).assignments id = impl.records.assignments id := by
      intro id hid
      simp only [Records.commit, Records.modifyHeld, update_ite]
      split
      · next heq =>
        obtain ⟨taken, htaken⟩ := Option.ne_none_iff_exists'.mp hid
        rw [heq, htaken]
        rfl
      · rfl
    refine ⟨fun id hid => ?_, fun id record hid hrecord hactive => ?_⟩
    · rw [hread id (h.kept id hid)]
      exact h.kept id hid
    · rw [hread id (h.kept id hid)] at hrecord
      exact h.works id record hid hrecord hactive
  | receive work tenant hidle =>
    refine ⟨h.kept, fun id record hid hrecord hactive => ?_⟩
    have hother : work ≠ record.binding.work := by
      rintro rfl
      have hmem : id ∈ records.active fun found => found.binding.work = record.binding.work := ⟨record, hrecord, hactive, rfl⟩
      rw [hidle] at hmem
      exact hmem
    change Function.update records.tenantOf work (some tenant) record.binding.work = _
    rw [update_ite, if_neg hother]
    exact h.works id record hid hrecord hactive

end Records.Stems

/-! ### What is charged -/

/-- What a release reads and writes. -/
theorem Records.release_frame {records records' : Records} (work : WorkId) (htenants : records'.tenantOf = records.tenantOf)
    (hheld : records'.held = records.held) : (records'.release work).assignments = records'.assignments ∧
      (records'.release work).tenantOf = records'.tenantOf ∧ (records'.release work).held = (records.release work).held := by
  unfold Records.release
  rw [htenants]
  split
  · exact ⟨rfl, htenants, hheld⟩
  · refine ⟨rfl, htenants, ?_⟩
    simp only [Records.modifyHeld, hheld]

namespace Records.Charged
variable {records records' : Records} {id : AssignmentId} {before after : AssignmentRecord}

theorem of_eq (h : records.Charged) (hassignments : records'.assignments = records.assignments)
    (htenants : records'.tenantOf = records.tenantOf) (hheld : records'.held = records.held) : records'.Charged := by
  obtain ⟨agents, tenantOf, assignments, leases, held⟩ := records
  obtain ⟨agents', tenantOf', assignments', leases', held'⟩ := records'
  obtain rfl : tenantOf' = tenantOf := htenants
  obtain rfl : assignments' = assignments := hassignments
  obtain rfl : held' = held := hheld
  exact ⟨h.phase, h.untold, h.charged⟩

theorem phase_setAssignment (h : records.Charged) (hafter : after.state.isActive ∨ after.state.isTerminal) :
    ∀ other record, (records.setAssignment id after).assignments other = some record →
      record.state.isActive ∨ record.state.isTerminal := by
  intro other record hrecord
  simp only [Records.setAssignment, update_ite] at hrecord
  split at hrecord
  · obtain rfl := Option.some.inj hrecord
    exact hafter
  · exact h.phase other record hrecord

/-- A record that stays active is charged as before. -/
theorem rewrite (h : records.Charged) (hbefore : records.assignments id = some before)
    (hwork : after.binding.work = before.binding.work) (hwas : before.state.isActive) (hactive : after.state.isActive) :
    (records.setAssignment id after).Charged := by
  refine ⟨h.phase_setAssignment (.inl hactive), h.untold, fun tenant htenant => ?_⟩
  refine Eq.trans (congrArg Set.encard ?_) (h.charged tenant htenant)
  change (records.setAssignment id after).having _ = records.ofTenant tenant
  by_cases hbelongs : records.tenantOf before.binding.work = some tenant
  · rw [Records.having_setAssignment ⟨hactive, by rw [hwork]; exact hbelongs⟩]
    exact Set.insert_eq_of_mem ⟨before, hbefore, hwas, hbelongs⟩
  · rw [Records.having_setAssignment_of_not]
    · rfl
    · rintro found hfound ⟨-, hother⟩
      obtain rfl := Option.some.inj (hbefore.symm.trans hfound)
      exact hbelongs hother
    · rintro ⟨-, hother⟩
      exact hbelongs (hwork ▸ hother)

/-- The assignment that ends is no longer of its tenant. -/
theorem ofTenant_close (hafter : after.state.isActive = false) (tenant : TenantId) :
    (records.setAssignment id after).ofTenant tenant = records.ofTenant tenant \ {id} := by
  ext other
  simp only [Records.ofTenant, Records.having, Records.setAssignment, update_ite, Set.mem_ofPred_eq, Set.mem_sdiff,
    Set.mem_singleton_iff]
  split
  · next heq =>
    refine iff_of_false ?_ fun hmem => hmem.2 heq.symm
    rintro ⟨record, hrecord, hactive, -⟩
    obtain rfl := Option.some.inj hrecord
    rw [hafter] at hactive
    cases hactive
  · next hne => exact (and_iff_left (Ne.symm hne)).symm

/-- An assignment without a tenant ends. -/
theorem drop (h : records.Charged) (hbefore : records.assignments id = some before) (hafter : after.state.isTerminal)
    (hfree : ∀ tenant, records.tenantOf before.binding.work = some tenant → tenant = 0) :
    (records.setAssignment id after).Charged := by
  refine ⟨h.phase_setAssignment (.inr hafter), h.untold, fun tenant htenant => ?_⟩
  rw [ofTenant_close (AssignmentState.not_isActive_of_isTerminal hafter), Set.sdiff_singleton_eq_self]
  · exact h.charged tenant htenant
  · rintro ⟨record, hrecord, -, hbelongs⟩
    obtain rfl := Option.some.inj (hbefore.symm.trans hrecord)
    exact htenant (hfree tenant hbelongs)

/-- An assignment ends, and its tenant gives it back. -/
theorem settle (h : records.Charged) (hbefore : records.assignments id = some before) (hopen : before.state.isTerminal = false)
    (hafter : after.state.isTerminal) : ((records.setAssignment id after).release before.binding.work).Charged := by
  have hactive : before.state.isActive :=
    (h.phase id before hbefore).resolve_right (by rw [hopen]; nofun)
  cases hbelongs : records.tenantOf before.binding.work with
  | none =>
    have hended : (records.setAssignment id after).Charged :=
      h.drop hbefore hafter fun tenant htenant => by rw [hbelongs] at htenant; cases htenant
    have hkept : (records.setAssignment id after).release before.binding.work = records.setAssignment id after := by
      unfold Records.release
      rw [show (records.setAssignment id after).tenantOf before.binding.work = none from hbelongs]
    rw [hkept]
    exact hended
  | some payer =>
    have hpaid : (records.setAssignment id after).release before.binding.work =
        (records.setAssignment id after).modifyHeld payer (· - 1) := by
      unfold Records.release
      rw [show (records.setAssignment id after).tenantOf before.binding.work = some payer from hbelongs]
    rw [hpaid]
    have hset : ∀ tenant, ((records.setAssignment id after).modifyHeld payer (· - 1)).ofTenant tenant =
        records.ofTenant tenant \ {id} := ofTenant_close (AssignmentState.not_isActive_of_isTerminal hafter)
    refine ⟨h.phase_setAssignment (.inr hafter), ?_, fun tenant htenant => ?_⟩
    · change Function.update records.held payer ((records.held payer).map (· - 1)) 0 = none
      rw [update_ite]
      split
      · next hzero => rw [hzero, h.untold]; rfl
      · exact h.untold
    · rw [hset]
      have hheld : ((records.setAssignment id after).modifyHeld payer (· - 1)).held tenant =
          if payer = tenant then (records.held payer).map (· - 1) else records.held tenant := update_ite _ _ _ _
      rw [hheld]
      split
      · next heq =>
        subst heq
        have hmem : id ∈ records.ofTenant payer := ⟨before, hbefore, hactive, hbelongs⟩
        have hcount := h.charged payer htenant
        rw [Set.encard_sdiff_singleton_of_mem hmem, hcount]
        cases hheld : records.held payer with
        | none =>
          rw [hheld, Option.getD_none, Nat.cast_zero, Set.encard_eq_zero] at hcount
          rw [hcount] at hmem
          exact hmem.elim
        | some count => simp
      · next hother =>
        rw [Set.sdiff_singleton_eq_self]
        · exact h.charged tenant htenant
        · rintro ⟨record, hrecord, -, hpayer⟩
          obtain rfl := Option.some.inj (hbefore.symm.trans hrecord)
          exact hother (Option.some.inj (hbelongs.symm.trans hpayer))

/-- A commit is charged to the tenant of its work, which is recorded, unless the work has none. -/
theorem commit {binding : AssignmentBinding} {payer : TenantId} (h : records.Charged)
    (hwork : records.tenantOf binding.work = some payer)
    (hpays : payer = 0 ∨ records.held payer ≠ none ∧ records.assignments binding.id = none) :
    (records.commit binding payer).Charged := by
  have hassignments : ∀ other, (records.commit binding payer).assignments other =
      if binding.id = other then some ((records.assignments binding.id).getD binding.record) else records.assignments other :=
    fun other => update_ite _ _ _ _
  have hheld : ∀ tenant, (records.commit binding payer).held tenant =
      if payer = tenant then (records.held payer).map (· + 1) else records.held tenant := fun tenant => update_ite _ _ _ _
  refine ⟨fun other record hrecord => ?_, ?_, fun tenant htenant => ?_⟩
  · rw [hassignments] at hrecord
    split at hrecord
    · obtain rfl := Option.some.inj hrecord
      cases hslot : records.assignments binding.id with
      | none => exact .inl rfl
      | some taken => exact h.phase binding.id taken hslot
    · exact h.phase other record hrecord
  · rw [hheld]
    split
    · next hzero => rw [hzero, h.untold]; rfl
    · exact h.untold
  · rw [hheld]
    by_cases hpayer : payer = tenant
    · subst hpayer
      obtain ⟨hrecorded, hfree⟩ := hpays.resolve_left htenant
      obtain ⟨count, hcount⟩ := Option.ne_none_iff_exists'.mp hrecorded
      have hset : (records.commit binding payer).ofTenant payer = insert binding.id (records.ofTenant payer) := by
        change (records.commit binding payer).having _ = _
        have hsame : (records.commit binding payer).assignments = (records.setAssignment binding.id binding.record).assignments := by
          funext other
          rw [hassignments, hfree]
          exact (update_ite _ _ _ _).symm
        have hstored : (records.setAssignment binding.id binding.record).having (fun record => record.state.isActive ∧
            records.tenantOf record.binding.work = some payer) = insert binding.id (records.ofTenant payer) :=
          Records.having_setAssignment ⟨rfl, hwork⟩
        rw [← hstored]
        ext other
        simp only [Records.having, Set.mem_ofPred_eq, hsame]
        rfl
      rw [hset, Set.encard_insert_of_notMem, h.charged payer htenant, if_pos rfl, hcount]
      · simp
      · rintro ⟨record, hrecord, -⟩
        rw [hfree] at hrecord
        cases hrecord
    · rw [if_neg hpayer]
      refine Eq.trans (congrArg Set.encard ?_) (h.charged tenant htenant)
      ext other
      simp only [Records.ofTenant, Records.having, Set.mem_ofPred_eq, hassignments]
      split
      · next heq =>
        subst heq
        have hnone : ∀ record : AssignmentRecord, record.binding.work = binding.work →
            ¬(record.state.isActive ∧ records.tenantOf record.binding.work = some tenant) := by
          rintro record hbound ⟨-, hbelongs⟩
          rw [hbound, hwork] at hbelongs
          exact hpayer (Option.some.inj hbelongs)
        cases hslot : records.assignments binding.id with
        | none =>
          refine iff_of_false ?_ ?_
          · rintro ⟨record, hrecord, hbelongs⟩
            obtain rfl := Option.some.inj hrecord
            exact hnone _ rfl hbelongs
          · rintro ⟨record, hrecord, -⟩
            cases hrecord
        | some taken => rfl
      · rfl

theorem recover (h : records.Charged) : records.recover.Charged := by
  have hrecovered : ∀ record : AssignmentRecord, record.recover.binding.work = record.binding.work ∧
      (record.recover.state.isActive ↔ record.state.isActive) ∧ (record.state.isTerminal → record.recover.state.isTerminal) := by
    intro record
    unfold AssignmentRecord.recover
    split
    · next hactive =>
      refine ⟨rfl, iff_of_true rfl hactive, fun hterminal => ?_⟩
      rw [AssignmentState.not_isActive_of_isTerminal hterminal] at hactive
      cases hactive
    · exact ⟨rfl, .rfl, fun hterminal => hterminal⟩
  refine ⟨fun id found hfound => ?_, h.untold, fun tenant htenant => ?_⟩
  · obtain ⟨record, hrecord, rfl⟩ := Option.map_eq_some_iff.mp hfound
    exact (h.phase id record hrecord).imp (hrecovered record).2.1.mpr (hrecovered record).2.2
  · refine Eq.trans (congrArg Set.encard ?_) (h.charged tenant htenant)
    ext id
    constructor
    · rintro ⟨found, hfound, hactive, hbelongs⟩
      obtain ⟨record, hrecord, rfl⟩ := Option.map_eq_some_iff.mp hfound
      rw [(hrecovered record).1] at hbelongs
      exact ⟨record, hrecord, (hrecovered record).2.1.mp hactive, hbelongs⟩
    · rintro ⟨record, hrecord, hactive, hbelongs⟩
      refine ⟨record.recover, ?_, (hrecovered record).2.1.mpr hactive, ?_⟩
      · change (records.assignments id).map AssignmentRecord.recover = _
        rw [hrecord]
        rfl
      · rw [(hrecovered record).1]
        exact hbelongs

theorem empty : Records.empty.Charged := by
  refine ⟨fun id record hrecord => (by cases hrecord), rfl, fun tenant _ => ?_⟩
  rw [Set.encard_eq_zero.mpr]
  · rfl
  · refine Set.eq_empty_of_forall_notMem ?_
    rintro id ⟨record, hrecord, -⟩
    cases hrecord

/-- Every change charges the tenants for what is active, if it drops no assignment of a tenant and commits for recorded
tenants only. -/
theorem posting {now : UInt64} {occasion : Occasion} (hposting : Posting now occasion records records')
    (hcloses : ∀ id record, occasion = .closes id record → records.assignments id = some record → record.state.isActive →
      ∀ tenant, records.tenantOf record.binding.work = some tenant → tenant = 0)
    (hcommits : ∀ impl work binding, occasion = .commits impl work binding → work.request.requirements.tenant = 0 ∨
      impl.records.held work.request.requirements.tenant ≠ none ∧ impl.records.assignments binding.id = none)
    (h : records.Charged) : records'.Charged := by
  cases hposting with
  | vouch | reportLoad | silence | enroll => exact h.of_eq rfl rfl rfl
  | advance id before after hbefore hwas hactive hbinding _ => exact h.rewrite hbefore (by rw [hbinding]) hwas hactive
  | demote id before hbefore hwas =>
    have hdemoted : (records.setAssignment id before.demote).Charged := h.rewrite hbefore rfl hwas rfl
    exact hdemoted.of_eq rfl rfl rfl
  | renew id before after ttl hbefore hwas hactive _ hbinding =>
    have hrenewed : (records.setAssignment id after).Charged := h.rewrite hbefore (by rw [hbinding]) hwas hactive
    exact hrenewed.of_eq rfl rfl rfl
  | close id record state reason detail hrecord hopen hterminal =>
    have hactive : record.state.isActive := (h.phase id record hrecord).resolve_right (by rw [hopen]; nofun)
    have hended : (records.setAssignment id (record.close now state reason detail)).Charged :=
      h.drop hrecord hterminal (hcloses id record rfl hrecord hactive)
    exact hended.of_eq rfl rfl rfl
  | conclude id record brief state reason detail hrecord hopen hterminal =>
    have hended : ((records.setAssignment id (record.close now state reason detail)).release record.binding.work).Charged :=
      h.settle hrecord hopen hterminal
    let closed := (records.close id (record.close now state reason detail)).countOutcome record.binding.agent state
    let stored := records.setAssignment id (record.close now state reason detail)
    obtain ⟨hassignments, htenants, hheld⟩ := Records.release_frame record.binding.work
      (show closed.tenantOf = stored.tenantOf from rfl) (show closed.held = stored.held from rfl)
    obtain ⟨hassignments', htenants', -⟩ := Records.release_frame record.binding.work
      (show stored.tenantOf = stored.tenantOf from rfl) rfl
    exact hended.of_eq (hassignments.trans hassignments'.symm) (htenants.trans htenants'.symm) hheld
  | @commit impl work binding brief _ _ hwork =>
    refine h.commit ?_ (hcommits impl work binding rfl)
    change (impl.work[binding.work]?).map _ = _
    rw [hwork]
    rfl
  | receive work tenant hidle =>
    refine ⟨h.phase, h.untold, fun payer hpayer => ?_⟩
    refine Eq.trans (congrArg Set.encard ?_) (h.charged payer hpayer)
    ext id
    simp only [Records.ofTenant, Records.having, Set.mem_ofPred_eq, update_ite]
    refine exists_congr fun record => and_congr_right fun hrecord => and_congr_right fun hactive => ?_
    rw [if_neg]
    rintro rfl
    have hmem : id ∈ records.active fun found => found.binding.work = record.binding.work := ⟨record, hrecord, hactive, rfl⟩
    rw [hidle] at hmem
    exact hmem
  | «open» tenant hzero hunknown =>
    refine ⟨h.phase, ?_, fun payer hpayer => ?_⟩
    · change Function.update records.held tenant (some 0) 0 = none
      rw [update_ite, if_neg hzero]
      exact h.untold
    · have hheld : Function.update records.held tenant (some 0) payer =
          if tenant = payer then some 0 else records.held payer := update_ite _ _ _ _
      change (records.ofTenant payer).encard = ((Function.update records.held tenant (some 0) payer).getD 0 : ℕ)
      rw [hheld, h.charged payer hpayer]
      split
      · next heq => rw [← heq, hunknown]; rfl
      · rfl

end Records.Charged

/-- The work is not stored, or has no tenant. -/
def Impl.Untenanted (impl : Impl) (work : WorkId) : Prop :=
  ∀ record, impl.work[work]? = some record → record.request.requirements.tenant = 0

/-- The step ends no assignment of a tenant otherwise than its agent reports, and commits for a tenant only if the tenant is
recorded and the identity it derives is not taken. -/
structure System.ChargesAll (system : System) (label : Label) : Prop where
  drops : ∀ id record, system.Does label (.closes id record) → system.impl.Untenanted record.binding.work
  commits : ∀ impl work binding, system.Places label impl work binding → work.request.requirements.tenant = 0 ∨
    impl.tenants.contains work.request.requirements.tenant ∧ impl.assignments[binding.id]? = none

/-- The active assignments of the stored works of a tenant. -/
def Impl.chargeOf (impl : Impl) (tenant : TenantId) : Nat :=
  impl.activeCount fun record => (impl.work[record.binding.work]?).any fun work => work.request.requirements.tenant = tenant

theorem encard_ofTenant (impl : Impl) (tenant : TenantId) : (impl.records.ofTenant tenant).encard = impl.chargeOf tenant := by
  have hset : impl.records.ofTenant tenant = keysWhere impl.assignments fun record => record.state.isActive &&
      (impl.work[record.binding.work]?).any fun work => work.request.requirements.tenant = tenant := by
    ext id
    simp only [Records.ofTenant, Records.having, keysWhere, Set.mem_ofPred_eq, Bool.and_eq_true]
    refine exists_congr fun record => and_congr_right fun _ => and_congr_right fun _ => ?_
    change (impl.work[record.binding.work]?).map (fun work => work.request.requirements.tenant) = some tenant ↔ _
    cases impl.work[record.binding.work]? <;> simp
  rw [hset, encard_keysWhere]
  rfl

theorem System.ReachableBy.charged {system : System} (hreach : system.ReachableBy System.ChargesAll) :
    system.impl.records.Charged := by
  refine (hreach.chains .empty (fun _ h => h.recover) fun s label records' _ hcharges hchain hcharged => ?_).1
  -- along the chain the works of the assignments that were stored before the step keep their tenants
  refine (hchain.keeps (motive := fun records => s.impl.records.Stems records ∧ records.Charged)
    (fun occasion records records' hdoes hposting hinv => ⟨hinv.1.posting hposting, ?_⟩) ⟨.refl _, hcharged⟩).2
  refine Records.Charged.posting hposting ?_ ?_ hinv.2
  · rintro id record rfl hrecord hactive tenant htenant
    have hstored : s.impl.records.assignments id ≠ none := by
      have hfound : s.impl.assignments[id]? = some record := hdoes.stored
      change s.impl.assignments[id]? ≠ none
      rw [hfound]
      nofun
    rw [hinv.1.works id record hstored hrecord hactive] at htenant
    obtain ⟨work, hwork, rfl⟩ := Option.map_eq_some_iff.mp htenant
    exact hcharges.drops id record hdoes work hwork
  · rintro impl work binding rfl
    rcases hcharges.commits impl work binding hdoes.places with hzero | ⟨hrecorded, hfree⟩
    · exact .inl hzero
    · refine .inr ⟨?_, hfree⟩
      rw [ExtTreeMap.contains_eq_isSome_getElem?] at hrecorded
      obtain ⟨found, hfound⟩ := Option.isSome_iff_exists.mp hrecorded
      change (impl.tenants[_]?).map TenantRecord.activeAssignments ≠ none
      rw [hfound]
      nofun

/-- In runs whose steps drop no assignment of a tenant and commit for recorded tenants only, what a tenant is recorded to
hold is the number of active assignments of its works, and a tenant that is not recorded has none. -/
theorem tenants_charged {system : System} (hreach : system.ReachableBy System.ChargesAll) (tenant : TenantId) :
    (∀ record, system.impl.tenants[tenant]? = some record → record.activeAssignments = system.impl.chargeOf tenant) ∧
      (tenant ≠ 0 → system.impl.tenants[tenant]? = none → system.impl.chargeOf tenant = 0) := by
  have hheld : ∀ count, ((system.impl.tenants[tenant]?).map TenantRecord.activeAssignments).getD 0 = count → tenant ≠ 0 →
      system.impl.chargeOf tenant = count := by
    rintro count hcount htenant
    have hcharged : (system.impl.records.ofTenant tenant).encard =
        ((((system.impl.tenants[tenant]?).map TenantRecord.activeAssignments).getD 0 : ℕ) : ℕ∞) :=
      hreach.charged.charged tenant htenant
    rw [encard_ofTenant, hcount] at hcharged
    exact_mod_cast hcharged
  refine ⟨fun record hrecord => ?_, fun htenant hnone => ?_⟩
  · refine (hheld _ (by rw [hrecord]; rfl) ?_).symm
    rintro rfl
    have huntold : (system.impl.tenants[(0 : TenantId)]?).map TenantRecord.activeAssignments = none := hreach.charged.untold
    rw [hrecord] at huntold
    cases huntold
  · exact hheld 0 (by rw [hnone]; rfl) htenant

/-- What keeps a tenant charged: evidence, outcomes, and the first sections and first assignments of calls for tenants that
are recorded. -/
def Sample.Charging (system : System) : Label → Bool
  | .begin _ | .run (.publishCapabilities ..) | .run (.publishHealth ..) | .run (.publishAvailability ..)
  | .run (.completeAssignment ..) => true
  | .finish _ => system.impl.assignments.isEmpty &&
    system.impl.work.values.all fun work => system.impl.tenants.contains work.request.requirements.tenant
  | _ => false

theorem Sample.Charging.chargesAll {system : System} {label : Label} (h : Charging system label) : system.ChargesAll label := by
  refine ⟨fun id record hdoes => ?_, fun impl work binding hplaces => ?_⟩
  · have hstored := hdoes.stored
    cases label with
    | run operation => cases operation <;> first | exact hdoes.2.elim | cases h
    | finish position =>
      simp only [Charging, Bool.and_eq_true, ExtTreeMap.isEmpty_iff] at h
      rw [h.1] at hstored
      simp at hstored
    | _ => exact hdoes.elim
  · cases hplaces with
    | batch => cases h
    | @schedule position plan _ hcall hcheck =>
      simp only [Charging, Bool.and_eq_true, ExtTreeMap.isEmpty_iff, List.all_eq_true] at h
      have hwork := (commitCheck_ok.mp hcheck).2.1
      refine .inr ⟨h.2 work (mem_values.mpr ⟨plan.work, hwork⟩), ?_⟩
      rw [h.1]
      simp

/-- Work of tenant 7 is assigned to an agent of that tenant, which then reports on it. -/
def Sample.tenanted (allowed : System → Label → Prop) [∀ system label, Decidable (allowed system label)]
    (kind : ObservationKind) : Option (System × System) := do
  let system ← run allowed ([.begin (.registerAgent { descriptor with tenant := 7 }), .finish 0] ++ enlist.drop 2 ++
    submit { exclusiveWork with requirements := { tenant := 7 } } ++ schedule)
  let record ← system.impl.assignments.values.head?
  let observation : Observation := { assignment := record.binding.id, generation := record.binding.generation, boot, kind }
  let after ← system.perform allowed [.run observation.operation]
  return (system, after)

theorem Sample.tenanted_reaches {allowed : System → Label → Prop} [∀ system label, Decidable (allowed system label)]
    {kind : ObservationKind} {system after : System} (h : tenanted allowed kind = some (system, after)) :
    system.ReachableBy allowed ∧ after.ReachableBy allowed := by
  simp only [tenanted, bind, Option.bind_eq_some_iff] at h
  obtain ⟨found, hrun, record, -, reported, hreported, hform⟩ := h
  obtain ⟨rfl, rfl⟩ := Prod.mk.inj (Option.some.inj hform)
  exact ⟨run_reaches hrun, (run_reaches hrun).trans (System.perform_runs hreported)⟩

/-- What tenant 7 is recorded to hold, and what it holds. -/
def Sample.charge (system : System) : Option Nat × Nat :=
  ((system.impl.tenants[(7 : TenantId)]?).map TenantRecord.activeAssignments, system.impl.chargeOf 7)

set_option maxRecDepth 100000 in
/-- The agent completes the work. -/
theorem tenants_charged_sample : ∃ system after record,
    Sample.tenanted (fun system label => Sample.Charging system label) .completed = some (system, after) ∧
      (Sample.charge system).1 = some 1 ∧ after.impl.tenants[(7 : TenantId)]? = some record ∧
        record.activeAssignments = 0 ∧ after.impl.chargeOf 7 = 0 := by
  have hview : (Sample.tenanted (fun system label => Sample.Charging system label) .completed).map (fun found =>
      ((Sample.charge found.1).1, (Sample.charge found.2).1)) = some (some 1, some 0) := by decide +kernel
  obtain ⟨⟨system, after⟩, hfound, hcharges⟩ := Option.map_eq_some_iff.mp hview
  obtain ⟨hbefore, hafter⟩ := Prod.mk.inj hcharges
  obtain ⟨record, hrecord, hheld⟩ := Option.map_eq_some_iff.mp hafter
  have hreach : after.ReachableBy System.ChargesAll :=
    (Sample.tenanted_reaches hfound).2.mono fun _ _ hcharging => Sample.Charging.chargesAll hcharging
  have hcharged := (tenants_charged hreach 7).1 record hrecord
  exact ⟨system, after, record, hfound, hbefore, hrecord, hheld, hcharged.symm.trans hheld⟩

set_option maxRecDepth 100000 in
/-- The agent gives the work back, and the tenant is charged for it on. -/
theorem not_tenants_charged : ¬∀ system : System, system.Reachable → ∀ (tenant : TenantId) record,
    system.impl.tenants[tenant]? = some record → record.activeAssignments = system.impl.chargeOf tenant := by
  intro hcharged
  have hview : (Sample.tenanted (fun _ _ => True) (.released "")).map (fun found => Sample.charge found.2) =
      some (some 1, 0) := by decide +kernel
  obtain ⟨⟨system, after⟩, hfound, hcharge⟩ := Option.map_eq_some_iff.mp hview
  obtain ⟨hheld, hnone⟩ := Prod.mk.inj hcharge
  obtain ⟨record, hrecord, hheld⟩ := Option.map_eq_some_iff.mp hheld
  have hsame := hcharged after (Sample.tenanted_reaches hfound).2 7 record hrecord
  rw [hheld, hnone] at hsame
  cases hsame

end AgentScheduler
