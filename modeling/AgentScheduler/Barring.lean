import AgentScheduler.Fencing

/-! What a fence takes away at once: the authority of everything bound to the fenced boot, as long as every fence is
set on behalf of the agent that runs under it. -/
namespace AgentScheduler
open Std KeyedTable Relation

/-! ### Readiness of records -/

/-- Everything a ready agent has shown. -/
def AgentRecord.Shows (record : AgentRecord) : Prop :=
  (record.capabilityCurrent ∧ record.healthCurrent ∧ record.availabilityCurrent) ∧
    record.availability = .available ∧ record.reachability = .reachable ∧ record.readiness = .ready

/-- Recomputing will not make the agent ready. -/
def AgentRecord.Barred (record : AgentRecord) : Prop := record.lifecycle.IsSticky ∨ ¬record.Shows

section Records
variable {record record' : AgentRecord}

/-- The lifecycle of a settled record that does not stick. -/
theorem recomputeLifecycle_cases (hsettled : recomputeLifecycle record = record) :
    record.lifecycle.IsSticky ∨
      (¬record.Shows ∧ record.lifecycle ≠ .ready ∧ record.lifecycle ≠ .busy) ∨
      (record.Shows ∧ record.lifecycle = if 0 < record.activeAssignments then .busy else .ready) := by
  have hlifecycle : (recomputeLifecycle record).lifecycle = record.lifecycle := by rw [hsettled]
  unfold recomputeLifecycle at hlifecycle
  unfold AgentLifecycle.IsSticky AgentRecord.Shows
  split at hlifecycle
  · next hsticky => exact .inl hsticky
  · split at hlifecycle
    · next hmissing =>
      right; left
      rw [← hlifecycle]
      refine ⟨fun hshows => ?_, ?_⟩
      · simp [hshows.1.1, hshows.1.2.1, hshows.1.2.2] at hmissing
      · split <;> simp
    · next hcurrent =>
      split at hlifecycle
      · next hunavailable =>
        right; left
        rw [← hlifecycle]
        exact ⟨fun hshows => by simp [hshows.2] at hunavailable, by simp⟩
      · next havailable =>
        right; right
        rw [← hlifecycle]
        simp only [Bool.or_eq_true, Bool.not_eq_true', not_or, Bool.not_eq_false] at hcurrent
        simp only [not_or, not_not, ne_eq] at havailable
        exact ⟨⟨⟨hcurrent.1.1, hcurrent.1.2, hcurrent.2⟩, havailable⟩, rfl⟩

/-- A settled record is barred exactly when it is neither ready nor busy. -/
theorem AgentRecord.barred_iff (hsettled : recomputeLifecycle record = record) :
    record.Barred ↔ record.lifecycle ≠ .ready ∧ record.lifecycle ≠ .busy := by
  unfold AgentRecord.Barred
  rcases recomputeLifecycle_cases hsettled with hsticky | ⟨hhides, hlifecycle⟩ | ⟨hshows, hlifecycle⟩
  · refine ⟨fun _ => ?_, fun _ => .inl hsticky⟩
    rcases hsticky with h | h | h <;> rw [h] <;> simp
  · exact ⟨fun _ => hlifecycle, fun _ => .inr hhides⟩
  · rw [hlifecycle]
    refine ⟨fun hbarred => ?_, fun hneither => ?_⟩
    · rcases hbarred with hsticky | hhides
      · split at hsticky <;> simp [AgentLifecycle.IsSticky] at hsticky
      · exact (hhides hshows).elim
    · split at hneither
      · exact (hneither.2 rfl).elim
      · exact (hneither.1 rfl).elim

theorem AgentRecord.Keeps.shows (h : record.Keeps record') : record'.Shows ↔ record.Shows := by
  have hessence := h.essence
  simp only [AgentRecord.essence, AgentRecord.gist, AgentRecord.mk.injEq] at hessence
  unfold AgentRecord.Shows
  simp only [hessence]

theorem AgentRecord.Keeps.barred (h : record.Keeps record') (hbarred : record.Barred) : record'.Barred := by
  rcases hbarred with hsticky | hhides
  · have hlifecycle := h.sticky (.inl hsticky)
    exact .inl (hlifecycle ▸ hsticky)
  · exact .inr fun hshows => hhides (h.shows.mp hshows)

theorem freshAgent_barred {now : UInt64} {impl : Impl} {descriptor : AgentDescriptor} {reason : Text} :
    (freshAgent now impl descriptor reason).Barred := by
  right
  unfold AgentRecord.Shows freshAgent
  rw [recomputeLifecycle_eq]
  rintro ⟨⟨hcapability, -⟩, -⟩
  cases hcapability

end Records

/-! ### What one step keeps -/

/-- Some boots hold nothing, but for some agents: nothing active is bound to them, and agents under them are barred. -/
structure Bars (exempt : Set AgentId) (boots : Set AgentBootId) (impl : Impl) : Prop where
  idle : ∀ (id : AssignmentId) record, impl.assignments[id]? = some record → record.state.isActive →
    record.binding.boot ∈ boots → record.binding.agent ∈ exempt
  barred : ∀ (agent : AgentId) record, impl.agents[agent]? = some record → record.descriptor.boot ∈ boots →
    agent ∉ exempt → record.Barred

/-- Events that make at most some agents ready, and commit nothing. -/
def Event.Within (exempt : Set AgentId) : Event → Prop
  | .touches agent _ => agent ∈ exempt
  | .commits _ => False
  | _ => True

section Steps
variable {ctx : Context} {event : Event} {stale stale' : Set AgentId} {impl impl' : Impl} {exempt : Set AgentId}
  {boots : Set AgentBootId}

/-- An event at an agent under a fenced boot bars it. -/
theorem AgentEvent.update_barred {now : UInt64} {record : AgentRecord} {event : AgentEvent} (hadmits : event.Admits impl record)
    (hfenced : bootIsFenced impl record.descriptor.boot) : (event.update now impl record).Barred := by
  have hopen : ∀ boot, record.descriptor.boot = boot → bootIsFenced impl boot = false → (event.update now impl record).Barred := by
    rintro boot rfl hunfenced
    rw [hfenced] at hunfenced
    cases hunfenced
  cases event with
  | reported boot | available boot | drained boot => exact hopen boot hadmits.1 hadmits.2
  | published boot => exact hopen boot hadmits.1 hadmits.2.1
  | reregistered descriptor => exact hopen descriptor.boot hadmits.2.2.1.symm hadmits.2.2.2
  | retired boot => exact .inl (.inr (.inl rfl))
  | lost boot reason => exact .inl (.inl rfl)

/-- Deeds keep bars, when the boots are fenced already or the deed concerns the exempt agents. -/
theorem Deed.bars (hdeed : Deed ctx event (stale, impl) (stale', impl')) (hconsistent : Consistent impl)
    (h : Bars exempt boots impl) (hcase : (∀ boot ∈ boots, bootIsFenced impl boot) ∨ event.Within exempt) :
    Bars exempt boots impl' := by
  refine ⟨fun id record' hrecord' hactive hboot => ?_, fun agent record' hrecord' hboot hother => ?_⟩
  · cases hdeed.slotEffect hconsistent hrecord' with
    | kept record hrecord hbinding hsame =>
      rw [hbinding] at hboot ⊢
      exact h.idle id record hrecord (hsame ▸ hactive) hboot
    | closed record _ _ _ hinactive =>
      rw [hinactive] at hactive
      cases hactive
    | committed binding hevent _ _ hrecord hunfenced =>
      subst hrecord hevent
      have hboot : binding.boot ∈ boots := hboot
      rcases hcase with hfenced | hwithin
      · rw [hfenced _ hboot] at hunfenced
        cases hunfenced
      · exact hwithin.elim
  · cases hdeed.agentEffect hconsistent hrecord' with
    | kept record hrecord hkeeps =>
      rw [(AgentRecord.read_of_essence hkeeps.essence).1] at hboot
      exact hkeeps.barred (h.barred agent record hrecord hboot hother)
    | touched record touch hevent hrecord hadmits hupdate =>
      subst hupdate hevent
      rcases hcase with hfenced | hwithin
      · rw [(AgentEvent.update_identity _ hadmits).2] at hboot
        exact AgentEvent.update_barred hadmits (hfenced _ hboot)
      · exact (hother hwithin).elim
    | enrolled descriptor reason _ _ hfresh =>
      subst hfresh
      exact freshAgent_barred

/-- Chains of deeds keep the bars of boots that are fenced already. -/
theorem Deeds.bars_fenced {allows : Event → Prop} (hdeeds : Deeds ctx allows (stale, impl) (stale', impl'))
    (hconsistent : Consistent impl) (h : Bars exempt {boot | bootIsFenced impl boot} impl) :
    Bars exempt {boot | bootIsFenced impl boot} impl' := by
  refine (hdeeds.keeps (motive := fun scene => Bars exempt {boot | bootIsFenced impl boot} scene.2 ∧
    ∀ boot, bootIsFenced impl boot → bootIsFenced scene.2 boot) (fun _ _ _ _ hdeed hscene hinv => ?_) hconsistent
    ⟨h, fun _ hfenced => hfenced⟩).1
  exact ⟨hdeed.bars hscene hinv.1 (.inl fun boot hboot => hinv.2 boot hboot),
    fun boot hfenced => (hdeed.fenceEffect hscene).1 (hinv.2 boot hfenced)⟩

/-- A new fence comes from a deed that fences. -/
theorem Deeds.new_fence {allows : Event → Prop} {boot : AgentBootId} (hdeeds : Deeds ctx allows (stale, impl) (stale', impl'))
    (hconsistent : Consistent impl) (hfenced : bootIsFenced impl' boot) : bootIsFenced impl boot ∨ allows (.fences boot) :=
  hdeeds.keeps (motive := fun scene => bootIsFenced scene.2 boot → bootIsFenced impl boot ∨ allows (.fences boot))
    (fun _ _ _ hallowed hdeed hscene hinv hafter =>
      ((hdeed.fenceEffect hscene).2 hafter).elim hinv fun ⟨hevent, _⟩ => .inr (hevent ▸ hallowed)) hconsistent .inl hfenced

/-- Chains of deeds that concern the exempt agents keep every bar. -/
theorem Deeds.bars_within {allows : Event → Prop} (hdeeds : Deeds ctx allows (stale, impl) (stale', impl'))
    (hconsistent : Consistent impl) (hallows : ∀ event, allows event → event.Within exempt) (h : Bars exempt boots impl) :
    Bars exempt boots impl' :=
  hdeeds.keeps (motive := fun scene => Bars exempt boots scene.2)
    (fun event _ _ hallowed hdeed hscene hinv => hdeed.bars hscene hinv (.inr (hallows event hallowed))) hconsistent h

/-! ### What the fencing operations leave behind -/

/-- Stores a record of an agent and brings everything derived from it up to date. -/
def Impl.replaceAgent (impl : Impl) (agent : AgentId) (record : AgentRecord) : Impl :=
  (refreshAgent (impl.setAgent agent record) agent).revise

/-- A locked section that fails changes nothing. -/
theorem guarded_cases {Found : Type} (impl : Impl) (check : Except SchedulerError Found) (body : Found → Step) :
    (∃ error, check = .error error ∧ guarded impl check body = (.error error, impl)) ∨
      ∃ found, check = .ok found ∧ guarded impl check body = body found := by
  unfold guarded
  cases check with
  | error error => exact .inl ⟨error, rfl, rfl⟩
  | ok found => exact .inr ⟨found, rfl, rfl⟩

section Forms
variable {now : UInt64} {agent : AgentId} {boot : AgentBootId}

/-- What a loss under the current boot closes. -/
def lostIncarnation (now : UInt64) (impl : Impl) (agent : AgentId) (record : AgentRecord) (reason : Text) : Impl :=
  closeAllActive now (fenceBoot now impl agent record.descriptor.boot record.descriptor.generation reason) record.descriptor.boot
    .lost .agentLost "agent incarnation was declared lost"

/-- A loss under the current boot closes what is bound to it, then silences the agent. -/
theorem declareAgentLostCommit_current (now : UInt64) (reason : Text) {record : AgentRecord} (h : Consistent impl)
    (hrecord : impl.agents[agent]? = some record) :
    ∃ stored, (lostIncarnation now impl agent record reason).agents[agent]? = some stored ∧
      stored.descriptor.boot = record.descriptor.boot ∧
      declareAgentLostCommit now impl agent record.descriptor.boot reason =
        (.ok (), (lostIncarnation now impl agent record reason).replaceAgent agent
          { invalidateDynamicEvidence stored with lifecycle := .lost, reason := reason }) := by
  have hfenced := Quiet.fenceBoot now impl agent record.descriptor.boot record.descriptor.generation reason h
  obtain ⟨-, hagents⟩ := closeAllActive_idle record.descriptor.boot now .lost .agentLost "agent incarnation was declared lost" agent hfenced.1 rfl
  obtain ⟨stored, hstored, hboot⟩ := stored_agent _ (hagents.trans (by rw [hfenced.2])) hrecord
  refine ⟨stored, hstored, hboot, ?_⟩
  unfold declareAgentLostCommit
  simp only [hrecord, ne_eq, not_true_eq_false, if_false]
  exact congrArg (fun impl => (Except.ok (), (refreshAgent impl agent).revise)) (modifyAgent_eq_setAgent hstored)

/-- A loss under another boot than the current one only fences it. -/
theorem declareAgentLostCommit_stale {reason : Text}
    (hother : ¬∃ record, impl.agents[agent]? = some record ∧ record.descriptor.boot = boot) :
    declareAgentLostCommit now impl agent boot reason = (.ok (), fenceBoot now impl agent boot 0 reason) := by
  unfold declareAgentLostCommit
  cases hrecord : impl.agents[agent]? with
  | none => rfl
  | some record =>
    have hboot : record.descriptor.boot ≠ boot := fun heq => hother ⟨record, hrecord, heq⟩
    simp only [if_pos hboot]

/-- What a deregistration closes, and the fence it sets. -/
def retiredIncarnation (now : UInt64) (impl : Impl) (agent : AgentId) (record : AgentRecord) : Impl :=
  fenceBoot now
    (if 0 < activeAssignmentCount impl agent then
      closeAllActive now impl record.descriptor.boot .invalidated .agentRetired
        "forced deregistration invalidated the assignment"
    else impl)
    agent record.descriptor.boot record.descriptor.generation "deregistered"

/-- A deregistration that is accepted closes what is bound to the boot, then silences the agent. -/
theorem deregisterAgent_cases (now : UInt64) (agent : AgentId) (boot : AgentBootId) (force : Bool) (h : Consistent impl) :
    ((∀ record, impl.agents[agent]? = some record → record.descriptor.boot = boot → bootIsFenced impl boot = false →
        force = false ∧ 0 < activeAssignmentCount impl agent) ∧
        ∃ error, deregisterAgent now impl agent boot force = (.error error, impl)) ∨
      ∃ record stored, impl.agents[agent]? = some record ∧ record.descriptor.boot = boot ∧ bootIsFenced impl boot = false ∧
        (force ∨ activeAssignmentCount impl agent = 0) ∧
        (retiredIncarnation now impl agent record).agents[agent]? = some stored ∧ stored.descriptor.boot = boot ∧
        deregisterAgent now impl agent boot force =
          (.ok (), (retiredIncarnation now impl agent record).replaceAgent agent
            { invalidateDynamicEvidence stored with lifecycle := .retired, reason := "deregistered" }) := by
  rcases guarded_cases impl _ _ with ⟨error, hrefused, hsame⟩ | ⟨record, hcheck, hform⟩
  · refine .inl ⟨fun record hrecord hboot hopen => ?_, error, hsame⟩
    by_contra haccepted
    refine absurd (hrefused.symm.trans (?_ : _ = Except.ok record)) (by simp)
    simp only [except_bind_eq_ok, rejectIf_eq_ok]
    refine ⟨record, ?_, (), ?_, rfl⟩
    · simp only [currentAgent, except_bind_eq_ok, lookupOrFail_eq_ok, rejectIf_eq_ok]
      exact ⟨record, hrecord, (), by simp [staleBoot, hboot, hopen], rfl⟩
    · rintro ⟨hactive, hforce⟩
      exact haccepted ⟨by simpa using hforce, hactive⟩
  · right
    simp only [except_bind_eq_ok, rejectIf_eq_ok] at hcheck
    obtain ⟨found, hfound, -, hforced, hreturn⟩ := hcheck
    obtain rfl : found = record := Except.ok.inj hreturn
    obtain ⟨hagent, rfl, hopen⟩ := currentAgent_ok hfound
    have hidle : force ∨ activeAssignmentCount impl agent = 0 := by
      by_contra hneither
      simp only [not_or] at hneither
      exact hforced ⟨Nat.pos_of_ne_zero hneither.2, hneither.1⟩
    obtain ⟨hmoves, -, hagents⟩ := deregister_idle {} agent found.descriptor.boot now h
    have hfenced := Quiet.fenceBoot now _ agent found.descriptor.boot found.descriptor.generation "deregistered" (hmoves h).1
    obtain ⟨stored, hstored, hboot⟩ := stored_agent (retiredIncarnation now impl agent found)
      ((congrArg Ledger.agents hfenced.2).trans hagents) hagent
    refine ⟨found, stored, hagent, rfl, hopen, hidle, hstored, hboot, ?_⟩
    exact hform.trans (congrArg (fun impl => (Except.ok (), (refreshAgent impl agent).revise))
      (@modifyAgent_eq_setAgent (retiredIncarnation now impl agent found) _ _ _ hstored))

/-- What the second section of a registration makes of an instance. -/
theorem registerAgentCommit_cases (now : UInt64) (impl : Impl) (descriptor : AgentDescriptor) :
    ((∀ existing, impl.agents[descriptor.id]? = some existing → existing.descriptor.generation < descriptor.generation →
        bootIsFenced impl descriptor.boot) ∧ ∃ error, registerAgentCommit now impl descriptor = (.error error, impl)) ∨
      (∃ existing, impl.agents[descriptor.id]? = some existing ∧ existing.descriptor.generation < descriptor.generation ∧
        bootIsFenced impl descriptor.boot = false ∧
        registerAgentCommit now impl descriptor =
          (.ok (), (retireIncarnation now impl existing descriptor.id).replaceAgent descriptor.id
            (freshAgent now (retireIncarnation now impl existing descriptor.id) descriptor "reincarnated"))) ∨
      (∃ existing, impl.agents[descriptor.id]? = some existing ∧ descriptor.generation = existing.descriptor.generation ∧
        descriptor.boot = existing.descriptor.boot ∧ bootIsFenced impl descriptor.boot = false ∧
        registerAgentCommit now impl descriptor =
          (.ok (), impl.replaceAgent descriptor.id (reregistered now impl descriptor existing))) ∨
      (impl.agents[descriptor.id]? = none ∧
        registerAgentCommit now impl descriptor =
          (.ok (), (indexAgent (impl.setAgent descriptor.id (freshAgent now impl descriptor "registered"))
            (freshAgent now impl descriptor "registered")).revise)) := by
  unfold registerAgentCommit
  cases hexisting : impl.agents[descriptor.id]? with
  | some existing =>
    simp only [hexisting]
    rcases guarded_cases impl _ _ with ⟨error, hrefused, hsame⟩ | ⟨_, hcheck, hform⟩
    · refine .inl ⟨fun found hfound hnewer => ?_, error, hsame⟩
      obtain rfl := Option.some.inj hfound
      by_contra hopen
      have hordered : ¬descriptor.generation < existing.descriptor.generation := Nat.lt_asymm hnewer
      have hmoved : descriptor.generation ≠ existing.descriptor.generation := fun heq => Nat.lt_irrefl _ (heq ▸ hnewer)
      refine absurd (hrefused.symm.trans (?_ : _ = Except.ok ())) (by simp)
      simp only [check_bind_eq_ok, checkIncarnation, checkUnfenced, rejectIf_eq_ok]
      exact ⟨⟨hordered, fun hboth => hmoved hboth.1⟩, hopen⟩
    · right
      rw [hform]
      simp only [check_bind_eq_ok, checkIncarnation, checkUnfenced, rejectIf_eq_ok, Bool.not_eq_true] at hcheck
      obtain ⟨⟨hordered, hsame⟩, hopen⟩ := hcheck
      split
      · next hnewer => exact .inl ⟨existing, rfl, hnewer, hopen, rfl⟩
      · next holder =>
        have hgeneration := StrongId.eq_of_not_lt hordered holder
        have hboot : descriptor.boot = existing.descriptor.boot := by
          by_contra hne
          exact hsame ⟨hgeneration, hne⟩
        exact .inr (.inl ⟨existing, rfl, hgeneration, hboot, hopen, rfl⟩)
  | none =>
    simp only [hexisting]
    rcases guarded_cases impl _ _ with ⟨error, -, hsame⟩ | ⟨_, -, hform⟩
    · refine .inl ⟨fun existing hnone _ => ?_, error, hsame⟩
      cases hnone
    · exact .inr (.inr (.inr ⟨trivial, hform⟩))

end Forms

/-- The agent holds nothing under the boot, and is barred. -/
def Silenced (impl : Impl) (agent : AgentId) (boot : AgentBootId) : Prop :=
  impl.ledger.Idle agent boot ∧ ∀ record, impl.agents[agent]? = some record → record.Barred

/-- Replacing a record leaves the assignments alone. -/
theorem assignments_replaceAgent (impl : Impl) (agent : AgentId) (record : AgentRecord) :
    (impl.replaceAgent agent record).assignments = impl.assignments :=
  (rest_refreshAgent (impl.setAgent agent record) agent).1

theorem Ledger.Idle.of_assignments {ledger ledger' : Ledger} {agent : AgentId} {boot : AgentBootId}
    (h : ledger.Idle agent boot) (heq : ledger'.assignments = ledger.assignments) : ledger'.Idle agent boot := by
  unfold Ledger.Idle Ledger.active at h ⊢
  rw [heq]
  exact h

/-- A replaced record keeps what it has shown. -/
theorem keeps_replaceAgent {agent : AgentId} {record found : AgentRecord} (h : Consistent impl)
    (hkey : record.descriptor.id = agent) (hfound : (impl.replaceAgent agent record).agents[agent]? = some found) :
    record.Keeps found := by
  have hkeyed : Keyed (fun record : AgentRecord => record.descriptor.id) (impl.setAgent agent record).agents :=
    h.agentKey.insert hkey
  have hfound : (refreshAgent (impl.setAgent agent record) agent).agents[agent]? = some found := hfound
  rw [agents_refreshAgent hkeyed] at hfound
  obtain ⟨stored, hstored, hkeeps⟩ := Impl.KeepsAgent.refreshAgentAccounting hkeyed found hfound
  rw [getElem?_setAgent, if_pos rfl] at hstored
  obtain rfl := Option.some.inj hstored
  exact hkeeps

/-- Storing a barred record of an idle agent silences it. -/
private theorem silenced_of {agent : AgentId} {boot : AgentBootId} {record : AgentRecord} (h : Consistent impl)
    (hidle : impl.ledger.Idle agent boot) (hkey : record.descriptor.id = agent) (hbarred : record.Barred) :
    Silenced (impl.replaceAgent agent record) agent boot := by
  refine ⟨hidle.of_assignments (funext fun id => ?_), fun found hfound => ?_⟩
  · change (impl.replaceAgent agent record).assignments[id]? = impl.assignments[id]?
    rw [assignments_replaceAgent]
  · exact (keeps_replaceAgent h hkey hfound).barred hbarred

/-- What a loss under the current boot leaves bound to it. -/
theorem lostIncarnation_idle (now : UInt64) (agent : AgentId) (record : AgentRecord) (reason : Text) (h : Consistent impl)
    (other : AgentId) : Consistent (lostIncarnation now impl agent record reason) ∧
      (lostIncarnation now impl agent record reason).ledger.Idle other record.descriptor.boot := by
  have hfenced := Quiet.fenceBoot now impl agent record.descriptor.boot record.descriptor.generation reason h
  exact ⟨(@Refines.closeAllActive {} _ _ _ _ _ _ rfl hfenced.1).1, (closeAllActive_idle _ _ _ _ _ other hfenced.1 rfl).1⟩

/-- A loss that is reported under the current boot silences the agent. -/
theorem declareAgentLostCommit_silences (now : UInt64) (agent : AgentId) (reason : Text) {record : AgentRecord}
    (h : Consistent impl) (hrecord : impl.agents[agent]? = some record) :
    Silenced (declareAgentLostCommit now impl agent record.descriptor.boot reason).2 agent record.descriptor.boot := by
  obtain ⟨stored, hstored, -, hform⟩ := declareAgentLostCommit_current now reason h hrecord
  obtain ⟨hclosed, hidle⟩ := lostIncarnation_idle now agent record reason h agent
  rw [hform]
  exact silenced_of hclosed hidle (hclosed.agentKey agent stored hstored) (.inl (.inl rfl))

/-- A loss that is reported under another boot than the current one leaves the agents alone. -/
theorem declareAgentLostCommit_agents {now : UInt64} {agent : AgentId} {boot : AgentBootId} {reason : Text}
    (hother : ¬∃ record, impl.agents[agent]? = some record ∧ record.descriptor.boot = boot) :
    (declareAgentLostCommit now impl agent boot reason).2.agents = impl.agents := by
  rw [declareAgentLostCommit_stale hother]
  unfold fenceBoot
  split <;> rfl

/-- A deregistration that is accepted silences the agent. -/
theorem deregisterAgent_silences (now : UInt64) (agent : AgentId) (boot : AgentBootId) (force : Bool) (h : Consistent impl) :
    (deregisterAgent now impl agent boot force).2 = impl ∨
      (∃ record, impl.agents[agent]? = some record ∧ record.descriptor.boot = boot ∧ bootIsFenced impl boot = false ∧
        (force ∨ activeAssignmentCount impl agent = 0)) ∧
      Silenced (deregisterAgent now impl agent boot force).2 agent boot := by
  rcases deregisterAgent_cases now agent boot force h with
    ⟨-, error, hsame⟩ | ⟨record, stored, hrecord, rfl, hopen, hforce, hstored, -, hform⟩
  · exact .inl (congrArg Prod.snd hsame)
  · refine .inr ⟨⟨record, hrecord, rfl, hopen, hforce⟩, ?_⟩
    obtain ⟨hmoves, hidle, -⟩ := deregister_idle {} agent record.descriptor.boot now h
    have hfenced := Quiet.fenceBoot now _ agent record.descriptor.boot record.descriptor.generation "deregistered" (hmoves h).1
    have hretired : Consistent (retiredIncarnation now impl agent record) := hfenced.1
    rw [hform]
    exact silenced_of hretired (hidle.of_assignments (congrArg Ledger.assignments hfenced.2))
      (hretired.agentKey agent stored hstored) (.inl (.inr (.inl rfl)))

/-- A reincarnation that is accepted silences the agent under its old boot. -/
theorem registerAgentCommit_silences (now : UInt64) {descriptor : AgentDescriptor} {existing : AgentRecord}
    (h : Consistent impl) (hexisting : impl.agents[descriptor.id]? = some existing)
    (hnewer : existing.descriptor.generation < descriptor.generation) :
    (registerAgentCommit now impl descriptor).2 = impl ∨
      bootIsFenced impl descriptor.boot = false ∧ Silenced (registerAgentCommit now impl descriptor).2 descriptor.id existing.descriptor.boot := by
  rcases registerAgentCommit_cases now impl descriptor with
    ⟨-, error, hsame⟩ | ⟨found, hfound, -, hopen, hform⟩ | ⟨found, hfound, hsame, -⟩ | ⟨hnone, -⟩
  · exact .inl (congrArg Prod.snd hsame)
  · obtain rfl := Option.some.inj (hexisting.symm.trans hfound)
    refine .inr ⟨hopen, ?_⟩
    obtain ⟨hmoves, hidle, -⟩ := retireIncarnation_idle {} now h hexisting
    rw [hform]
    refine silenced_of (hmoves h).1 (hidle _) ?_ freshAgent_barred
    rw [freshAgent_descriptor]
    rfl
  · obtain rfl := Option.some.inj (hexisting.symm.trans hfound)
    exact (Nat.lt_irrefl _ (hsame ▸ hnewer)).elim
  · rw [hexisting] at hnone
    cases hnone

end Steps

/-! ### Runs whose fences are well placed -/

/-- Nothing active is bound to a fenced boot, and no agent is ready or busy under one. -/
structure Impl.FencesHold (impl : Impl) : Prop where
  assignments : ∀ (id : AssignmentId) record, impl.assignments[id]? = some record → record.state.isActive →
    bootIsFenced impl record.binding.boot = false
  agents : ∀ (agent : AgentId) record, impl.agents[agent]? = some record → bootIsFenced impl record.descriptor.boot →
    record.lifecycle ≠ .ready ∧ record.lifecycle ≠ .busy

/-- The steps that fence a boot, with the agent they act on. -/
inductive System.Fences (system : System) : Label → AgentId → AgentBootId → Prop
  /-- a loss fences the reported boot, whoever runs under it -/
  | loss (position : Nat) (agent : AgentId) (boot : AgentBootId) (reason : Text)
      (hcall : system.calls[position]? = some (.declareAgentLost agent boot reason)) :
      System.Fences system (.finish position) agent boot
  | retirement (agent : AgentId) (boot : AgentBootId) (force : Bool) (record : AgentRecord)
      (hrecord : system.impl.agents[agent]? = some record) (hboot : record.descriptor.boot = boot)
      (hopen : bootIsFenced system.impl boot = false) (hidle : force ∨ activeAssignmentCount system.impl agent = 0) :
      System.Fences system (.run (.deregisterAgent agent boot force)) agent boot
  | reincarnation (position : Nat) (descriptor : AgentDescriptor) (existing : AgentRecord)
      (hcall : system.calls[position]? = some (.registerAgent descriptor))
      (hexisting : system.impl.agents[descriptor.id]? = some existing)
      (hnewer : existing.descriptor.generation < descriptor.generation)
      (hopen : bootIsFenced system.impl descriptor.boot = false) :
      System.Fences system (.finish position) descriptor.id existing.descriptor.boot

/-- No step fences a boot under which another agent is ready, busy, or holds an active assignment. -/
def System.FencesOwn (system : System) (label : Label) : Prop :=
  ∀ agent boot, system.Fences label agent boot → ∀ (other : AgentId) record, other ≠ agent →
    system.impl.agents[other]? = some record → record.descriptor.boot = boot →
    record.lifecycle ≠ .ready ∧ record.lifecycle ≠ .busy ∧
      ∀ (id : AssignmentId) assignment, system.impl.assignments[id]? = some assignment → assignment.state.isActive →
        assignment.binding.agent = other → assignment.binding.boot ≠ boot

section Runs
variable {system after : System} {label : Label} {reply : Reply} {agent : AgentId} {boot : AgentBootId}

/-- What an instance without a bar on some agent still says of it. -/
theorem Tidy.settledRecord {impl : Impl} (h : Tidy ∅ ∅ impl) {record : AgentRecord} (hrecord : impl.agents[agent]? = some record) :
    recomputeLifecycle record = record := (h.settled agent (Set.notMem_empty _) record hrecord).2

theorem Bars.fencesHold {impl : Impl} (h : Bars ∅ {boot | bootIsFenced impl boot} impl) (htidy : Tidy ∅ ∅ impl) :
    impl.FencesHold := by
  refine ⟨fun id record hrecord hactive => ?_, fun agent record hrecord hfenced => ?_⟩
  · by_contra hfenced
    exact h.idle id record hrecord hactive (by simpa using hfenced)
  · exact (AgentRecord.barred_iff (htidy.settledRecord hrecord)).mp
      (h.barred agent record hrecord hfenced (Set.notMem_empty _))

theorem Impl.FencesHold.bars {impl : Impl} (h : impl.FencesHold) (htidy : Tidy ∅ ∅ impl) :
    Bars ∅ {boot | bootIsFenced impl boot} impl := by
  refine ⟨fun id record hrecord hactive hfenced => ?_, fun agent record hrecord hfenced _ => ?_⟩
  · rw [Set.mem_ofPred_eq, h.assignments id record hrecord hactive] at hfenced
    cases hfenced
  · exact (AgentRecord.barred_iff (htidy.settledRecord hrecord)).mpr (h.agents agent record hrecord hfenced)

/-- Active assignments are bound to the boot their agent runs under. -/
theorem Sound.boot_of_active {impl : Impl} (h : Sound impl.ledger) {id : AssignmentId} {record : AssignmentRecord}
    (hrecord : impl.assignments[id]? = some record) (hactive : record.state.isActive) :
    ∃ holder, impl.agents[record.binding.agent]? = some holder ∧ holder.descriptor.boot = record.binding.boot := by
  obtain ⟨_, hentry, -, hboot, -⟩ := (h id record hrecord).agent hactive
  obtain ⟨holder, hholder, rfl⟩ := Option.map_eq_some_iff.mp hentry
  exact ⟨holder, hholder, hboot⟩

/-- Every new fence comes from a step that fences it; the agent the step acts on is silenced under that boot, or runs
under another one. -/
theorem System.fence_cases (hvalid : system.Valid) (hstep : system.step label = some (reply, after))
    (hdeeds : Deeds system.context (fun event => event.IsBookkeeping ∨ system.Causes label event) (∅, system.impl)
      (∅, after.impl)) (hfenced : bootIsFenced after.impl boot)
    (hnew : bootIsFenced system.impl boot = false) :
    ∃ agent, system.Fences label agent boot ∧
      (∀ event, event.IsBookkeeping ∨ system.Causes label event → event.Within {agent}) ∧
      (Silenced after.impl agent boot ∨
        ∀ record, after.impl.agents[agent]? = some record → record.descriptor.boot ≠ boot) := by
  have hallowed : system.Causes label (.fences boot) := by
    have hcause := hdeeds.new_fence hvalid.healthy.consistent hfenced
    rcases hcause with hold | hbook | hcauses
    · rw [hold] at hnew
      cases hnew
    · cases hbook
    · exact hcauses
  have hconsistent := hvalid.healthy.consistent
  have hchanged : after.impl ≠ system.impl := fun heq => by
    rw [heq, hnew] at hfenced
    cases hfenced
  cases label with
  | run operation =>
    obtain ⟨-, rfl⟩ := Prod.mk.inj (Option.some.inj hstep)
    cases operation with
    | deregisterAgent agent named force =>
      obtain rfl : boot = named := hallowed
      rcases deregisterAgent_silences system.now agent boot force hconsistent with
        hsame | ⟨⟨record, hrecord, hboot, hopen, hidle⟩, hsilenced⟩
      · exact (hchanged hsame).elim
      · refine ⟨agent, .retirement agent boot force record hrecord hboot hopen hidle, fun event hevent => ?_, .inl hsilenced⟩
        rcases hevent with hbook | hcauses
        · cases event <;> trivial
        · cases event with
          | touches touched touch =>
            cases touch with
            | retired => exact hcauses.1
            | _ => exact hcauses.elim
          | commits => exact hcauses.elim
          | _ => trivial
    | _ => exact hallowed.elim
  | finish position =>
    obtain ⟨call, hcall, hcauses⟩ := hallowed
    have hcall : system.calls[position]? = some call := hcall
    simp only [System.step, hcall] at hstep
    obtain ⟨-, rfl⟩ := Prod.mk.inj (Option.some.inj hstep)
    have hwithin : ∀ agent, (∀ event, call.Causes system.impl event → event.Within {agent}) →
        ∀ event, event.IsBookkeeping ∨ system.Causes (.finish position) event → event.Within {agent} := by
      rintro agent hcause event (hbook | ⟨found, hfound, hcauses⟩)
      · cases event <;> trivial
      · obtain rfl := Option.some.inj (hcall.symm.trans hfound)
        exact hcause event hcauses
    cases call with
    | registerAgent descriptor =>
      obtain ⟨existing, hexisting, hnewer, rfl⟩ := hcauses
      rcases registerAgentCommit_silences system.now hconsistent hexisting hnewer with
        hsame | ⟨hopen, hsilenced⟩
      · exact (hchanged hsame).elim
      · refine ⟨descriptor.id, .reincarnation position descriptor existing hcall hexisting hnewer hopen,
          hwithin descriptor.id fun event hcauses => ?_, .inl hsilenced⟩
        cases event with
        | touches touched touch =>
          cases touch with
          | reregistered => exact hcauses.1
          | _ => exact hcauses.elim
        | commits => exact hcauses.elim
        | _ => trivial
    | declareAgentLost agent named reason =>
      obtain rfl : boot = named := hcauses
      refine ⟨agent, .loss position agent boot reason hcall, hwithin agent fun event hcauses => ?_, ?_⟩
      · cases event with
        | touches touched touch =>
          cases touch with
          | lost => exact hcauses.1
          | _ => exact hcauses.elim
        | commits => exact hcauses.elim
        | _ => trivial
      · by_cases hcurrent : ∃ record, system.impl.agents[agent]? = some record ∧ record.descriptor.boot = boot
        · obtain ⟨record, hrecord, rfl⟩ := hcurrent
          exact .inl (declareAgentLostCommit_silences system.now _ reason hconsistent hrecord)
        · right
          intro record hrecord hboot
          have hsame : (declareAgentLostCommit system.now system.impl agent boot reason).2.agents = system.impl.agents :=
            declareAgentLostCommit_agents hcurrent
          exact hcurrent ⟨record, hsame ▸ hrecord, hboot⟩
    | _ => exact hcauses.elim
  | _ => exact hallowed.elim

/-- A step that fences no boot of another agent keeps the promise of the fences. -/
theorem System.FencesOwn.fencesHold (hown : system.FencesOwn label) (hvalid : system.Valid)
    (hstep : system.step label = some (reply, after))
    (hdeeds : Deeds system.context (fun event => event.IsBookkeeping ∨ system.Causes label event) (∅, system.impl)
      (∅, after.impl)) (htidy : Tidy ∅ ∅ system.impl) (htidy' : Tidy ∅ ∅ after.impl)
    (h : system.impl.FencesHold) : after.impl.FencesHold := by
  have hconsistent := hvalid.healthy.consistent
  have hold : Bars ∅ {boot | bootIsFenced system.impl boot} after.impl := hdeeds.bars_fenced hconsistent (h.bars htidy)
  -- what a boot that is fenced by this very step still holds
  have hnew : ∀ boot, bootIsFenced after.impl boot → bootIsFenced system.impl boot = false → Bars ∅ {boot} after.impl := by
    intro boot hfenced hunfenced
    obtain ⟨agent, hfences, hwithin, hsilenced⟩ := System.fence_cases hvalid hstep hdeeds hfenced hunfenced
    have hothers : Bars {agent} {boot} system.impl := by
      refine ⟨fun id record hrecord hactive hboot => ?_, fun other record hrecord hboot hother => ?_⟩
      · obtain ⟨holder, hholder, hbound⟩ := Sound.boot_of_active hvalid.healthy.sound hrecord hactive
        by_contra hother
        exact (hown agent boot hfences _ holder hother hholder (hbound.trans hboot)).2.2 id record hrecord hactive rfl hboot
      · obtain ⟨hready, hbusy, -⟩ := hown agent boot hfences other record hother hrecord hboot
        exact (AgentRecord.barred_iff (htidy.settledRecord hrecord)).mpr ⟨hready, hbusy⟩
    have hafter : Bars {agent} {boot} after.impl := hdeeds.bars_within hconsistent hwithin hothers
    refine ⟨fun id record hrecord hactive hboot => ?_, fun other record hrecord hboot _ => ?_⟩
    · obtain rfl : record.binding.agent = agent := hafter.idle id record hrecord hactive hboot
      rcases hsilenced with ⟨hidle, -⟩ | helsewhere
      · have hmem : id ∈ after.impl.ledger.active fun found =>
            found.binding.agent = record.binding.agent ∧ found.binding.boot = boot := ⟨record, hrecord, hactive, rfl, hboot⟩
        rw [hidle] at hmem
        exact hmem
      · obtain ⟨holder, hholder, hbound⟩ := Sound.boot_of_active (hvalid.step hstep).healthy.sound hrecord hactive
        exact helsewhere holder hholder (hbound.trans hboot)
    · by_cases heq : other = agent
      · subst heq
        rcases hsilenced with ⟨-, hbarred⟩ | helsewhere
        · exact hbarred record hrecord
        · exact (helsewhere record hrecord hboot).elim
      · exact hafter.barred other record hrecord hboot heq
  refine Bars.fencesHold ⟨fun id record hrecord hactive hboot => ?_, fun agent record hrecord hboot hother => ?_⟩ htidy'
  · cases hfenced : bootIsFenced system.impl record.binding.boot with
    | true => exact hold.idle id record hrecord hactive hfenced
    | false => exact (hnew _ hboot hfenced).idle id record hrecord hactive rfl
  · cases hfenced : bootIsFenced system.impl record.descriptor.boot with
    | true => exact hold.barred agent record hrecord hfenced hother
    | false => exact (hnew _ hboot hfenced).barred agent record hrecord rfl hother

/-- A recovery refreshes the agents it installs, and nothing else. -/
theorem keepsAgent_restore {impl file : Impl} (h : Consistent file) :
    (install impl (image file)).KeepsAgent (restore impl (image file)) agent := by
  let rebuilt := rebuildIndexes (install impl (image file))
  let counted := rebuilt.agents.keys.foldl refreshAgentAccounting rebuilt
  have hrebuilt : rebuilt.agents = (install impl (image file)).agents := read_rebuildIndexes _ (f := Impl.agents) fun _ => rfl
  have hcounted : Coherent Set.univ counted ∧ rebuilt.KeepsAgent counted agent :=
    List.foldlRecOn (motive := fun after : Impl => Coherent Set.univ after ∧ rebuilt.KeepsAgent after agent) _ _
      ⟨coherent_install _ h, .of_agents rfl⟩ fun after hafter refreshed _ =>
        ⟨hafter.1.refreshAgentAccounting refreshed, hafter.2.trans (.refreshAgentAccounting hafter.1.agentKey)⟩
  have hworks : (restore impl (image file)).agents = counted.agents :=
    foldl_project (f := Impl.agents) agents_refreshWorkAccounting counted.work.keys counted
  exact ((Impl.KeepsAgent.of_agents hrebuilt).trans hcounted.2).trans (.of_agents hworks)

/-- No recovered agent has shown anything. -/
theorem restore_hides {impl file : Impl} (h : Consistent file) {record : AgentRecord}
    (hrecord : (restore impl (image file)).agents[agent]? = some record) : ¬record.Shows := by
  obtain ⟨installed, hinstalled, hkeeps⟩ := keepsAgent_restore h record hrecord
  rw [hkeeps.shows]
  change (file.agents.map fun _ record => record.recover)[agent]? = some installed at hinstalled
  rw [getElem?_map] at hinstalled
  obtain ⟨saved, -, rfl⟩ := Option.map_eq_some_iff.mp hinstalled
  rintro ⟨⟨hcapability, -⟩, -⟩
  cases hcapability

theorem fencesHold_restore {impl file : Impl} (h : Consistent file) (hfile : file.FencesHold) :
    (restore impl (image file)).FencesHold := by
  refine ⟨fun id record hrecord hactive => ?_, fun agent record hrecord _ => ?_⟩
  · have hledger := congrArg (fun ledger => ledger.assignments id) (restore_image impl h).2
    have hledger : (restore impl (image file)).assignments[id]? = (file.assignments[id]?).map AssignmentRecord.recover := hledger
    rw [hledger] at hrecord
    obtain ⟨saved, hsaved, rfl⟩ := Option.map_eq_some_iff.mp hrecord
    rw [AssignmentRecord.recover_isActive] at hactive
    have hbinding : SameBinding saved saved.recover := (Evolves.recover saved).binding
    rw [bootIsFenced_restore, hbinding]
    exact hfile.assignments id saved hsaved hactive
  · exact (AgentRecord.barred_iff ((tidy_restore h).settledRecord hrecord)).mp (.inr (restore_hides h hrecord))

end Runs

/-- In every run that fences no boot under which another agent has standing, fences hold in every state. -/
theorem fencesHold_of_fencesOwn : ∀ system : System, system.ReachableBy System.FencesOwn → system.impl.FencesHold := by
  intro system h
  refine (System.ReachableBy.stores (motive := fun impl => impl.FencesHold ∧ Tidy ∅ ∅ impl) h (fun hconstruct => ?_)
    (fun hconsistent hfile => ⟨fencesHold_restore hconsistent hfile.1, tidy_restore hconsistent⟩)
    fun {s s'} {label} {reply} hvalid hown hstep hdeeds hbefore => ?_).1.1
  · obtain ⟨-, -, hnone⟩ := construct_spec hconstruct
    refine ⟨⟨fun id record hrecord _ => ?_, fun agent record _ hfenced => (construct_unfenced hconstruct hfenced).elim⟩,
      tidy_construct hconstruct⟩
    cases (hnone id).symm.trans hrecord
  · have htidy : Tidy ∅ ∅ s'.impl :=
      Deeds.keeps (motive := fun scene => Tidy scene.1 scene.1 scene.2) hdeeds
        (fun _ _ _ _ hdeed hconsistent htidy => hdeed.tidy hconsistent htidy) hvalid.healthy.consistent hbefore.2
    exact ⟨hown.fencesHold hvalid hstep hdeeds hbefore.2 htidy hbefore.1, htidy⟩

/-- Agent 1 is the only one that is registered or reported lost. -/
def Sample.Alone (system : System) : Bool :=
  system.impl.agents.keys.all (fun agent => agent = 1) && system.calls.all fun call =>
    match call with
    | .declareAgentLost agent _ _ => agent = 1
    | _ => true

theorem Sample.Alone.fencesOwn {system : System} {label : Label} (h : Sample.Alone system) : system.FencesOwn label := by
  simp only [Sample.Alone, Bool.and_eq_true, List.all_eq_true, decide_eq_true_eq] at h
  have hstored : ∀ (agent : AgentId) record, system.impl.agents[agent]? = some record → agent = 1 := fun agent record hrecord =>
    h.1 agent (ExtTreeMap.mem_keys.mpr (ExtTreeMap.mem_iff_isSome_getElem?.mpr (by rw [hrecord]; rfl)))
  intro agent boot hfences other record hother hrecord
  refine (hother ((hstored other record hrecord).trans ?_)).elim
  cases hfences with
  | loss position agent boot reason hcall => exact (of_decide_eq_true (h.2 _ (List.mem_of_getElem? hcall))).symm
  | retirement agent boot force record hrecord => exact (hstored agent record hrecord).symm
  | reincarnation position descriptor existing _ hexisting => exact (hstored _ existing hexisting).symm

set_option maxRecDepth 100000 in
/-- An agent that holds an assignment is declared lost under its own boot. -/
theorem fencesHold_of_fencesOwn_sample : ∃ system, Sample.run (fun system _ => Sample.Alone system)
    (Sample.enlist ++ Sample.submit Sample.exclusiveWork ++ Sample.schedule ++
      [.begin (.declareAgentLost 1 Sample.boot "lost"), .finish 0]) = some system ∧
      bootIsFenced system.impl Sample.boot ∧ system.impl.FencesHold := by
  have hrun : (Sample.run (fun system _ => Sample.Alone system)
      (Sample.enlist ++ Sample.submit Sample.exclusiveWork ++ Sample.schedule ++
        [.begin (.declareAgentLost 1 Sample.boot "lost"), .finish 0])).map
      (fun system => bootIsFenced system.impl Sample.boot) = some true := by decide +kernel
  obtain ⟨system, hsystem, hfenced⟩ := Option.map_eq_some_iff.mp hrun
  have hreached : system.ReachableBy System.FencesOwn := (Sample.run_reaches hsystem).mono fun _ _ halone => Sample.Alone.fencesOwn halone
  exact ⟨system, hsystem, hfenced, fencesHold_of_fencesOwn system hreached⟩

set_option maxRecDepth 100000 in
/-- Fences do not hold in every reachable state: a loss of one agent may name the boot of another. -/
theorem not_fencesHold : ¬∀ system : System, system.Reachable → system.impl.FencesHold := by
  intro hold
  have hrun : (Sample.run (fun _ _ => True) (Sample.enlist ++ [.begin (.declareAgentLost 2 Sample.boot "lost"), .finish 0])).map
      (fun system => (system.impl.agents[(1 : AgentId)]?).map fun agent =>
        (bootIsFenced system.impl agent.descriptor.boot, agent.lifecycle)) = some (some (true, .ready)) := by decide +kernel
  obtain ⟨system, hsystem, hview⟩ := Option.map_eq_some_iff.mp hrun
  obtain ⟨agent, hagent, hview⟩ := Option.map_eq_some_iff.mp hview
  obtain ⟨hfenced, hready⟩ := Prod.mk.inj hview
  exact ((hold system (Sample.run_reaches hsystem)).agents 1 agent hagent hfenced).1 hready

end AgentScheduler
