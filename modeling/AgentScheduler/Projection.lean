import AgentScheduler.SavedState
import AgentScheduler.Tidiness
import AgentScheduler.Exclusivity

/-! Loading what was saved: the state that `load` leaves, field by field, against the state that `save` wrote. -/
namespace AgentScheduler
open Std KeyedTable Relation

/-- How many active assignments name an agent. -/
def Impl.activeOn (impl : Impl) (agent : AgentId) : Nat := impl.activeCount fun record => record.binding.agent = agent

/-- How many active assignments name a work item. -/
def Impl.activeOf (impl : Impl) (work : WorkId) : Nat := impl.activeCount fun record => record.binding.work = work

/-- What a load makes of an agent: its identity and its history; nothing it published is current. -/
def AgentRecord.reloaded (file : Impl) (record : AgentRecord) : AgentRecord :=
  { record.recover with activeAssignments := file.activeOn record.descriptor.id }

/-- What a load makes of a work item: its lifecycle is settled, or says whether it holds assignments. -/
def WorkRecord.reloaded (file : Impl) (record : WorkRecord) : WorkRecord :=
  { record with
    lifecycle :=
      if record.lifecycle.isTerminal then record.lifecycle
      else if file.activeOf record.request.id = 0 then .admitted else .assigned
    currentAssignments := file.activeOf record.request.id }

/-- The state `after` a load into `current` is the conservative projection of the state `file` that was saved. -/
structure Impl.Reloads (file current after : Impl) : Prop where
  schedulerId : after.schedulerId = if file.schedulerId.isZero then current.schedulerId else file.schedulerId
  schedulerEpoch : after.schedulerEpoch.value = file.schedulerEpoch.value + 1
  coordinatorEpoch : after.coordinatorEpoch = file.coordinatorEpoch
  queueGeneration : after.queueGeneration = file.queueGeneration
  nextAdmissionSequence : after.nextAdmissionSequence = max file.nextAdmissionSequence 1
  counters : after.assignmentsCreated = file.assignmentsCreated ∧
    after.assignmentsInvalidated = file.assignmentsInvalidated ∧ after.schedulingRounds = file.schedulingRounds
  policy : after.policy = file.policy
  queues : after.queues = file.queues
  tenants : after.tenants = file.tenants
  fencedBoots : after.fencedBoots = file.fencedBoots
  agents : ∀ agent : AgentId, after.agents[agent]? = file.agents[agent]?.map (AgentRecord.reloaded file)
  work : ∀ work : WorkId, after.work[work]? = file.work[work]?.map (WorkRecord.reloaded file)
  assignments : ∀ id : AssignmentId, after.assignments[id]? = file.assignments[id]?.map AssignmentRecord.recover
  leases : ∀ id : LeaseId, after.leases[id]? = file.leases[id]?.map Lease.recover
  stopped : after.running = false ∧ after.admissionOpen = false ∧ after.shuttingDown = false ∧ after.recovered = true

section Folds
variable {impl : Impl}

theorem AgentRecord.recounted_of_slots {impl' : Impl} (h : impl'.slots = impl.slots) (record : AgentRecord) :
    record.recounted impl' = record.recounted impl := by
  rw [AgentRecord.recounted, activeAssignmentCount_of_slots h]
  rfl

theorem keyed_refreshAgentAccounting (hkey : Keyed (fun record : AgentRecord => record.descriptor.id) impl.agents)
    (agent : AgentId) : Keyed (fun record : AgentRecord => record.descriptor.id) (refreshAgentAccounting impl agent).agents := by
  intro other stored hstored
  rw [agents_refreshAgentAccounting _ _ _ hkey] at hstored
  split at hstored
  · obtain ⟨record, hrecord, rfl⟩ := Option.map_eq_some_iff.mp hstored
    have hessence := (record.keeps_recompute (activeAssignmentCount impl record.descriptor.id)).essence
    exact (congrArg AgentDescriptor.id (AgentRecord.read_of_essence hessence).1).trans (hkey other record hrecord)
  · exact hkey other stored hstored

/-- Refreshing agents in turn recounts each of them once. -/
theorem agents_refreshAll {agents : List AgentId} (hnodup : agents.Nodup)
    (hkey : Keyed (fun record : AgentRecord => record.descriptor.id) impl.agents) (other : AgentId) :
    (agents.foldl refreshAgentAccounting impl).agents[other]? =
      if other ∈ agents then (impl.agents[other]?).map (AgentRecord.recounted · impl) else impl.agents[other]? := by
  induction agents generalizing impl with
  | nil => rfl
  | cons agent agents ih =>
    obtain ⟨hnew, hnodup⟩ := List.nodup_cons.mp hnodup
    rw [List.foldl_cons, ih hnodup (keyed_refreshAgentAccounting hkey agent), agents_refreshAgentAccounting _ _ _ hkey]
    simp only [AgentRecord.recounted_of_slots (slots_refreshAgentAccounting impl agent), List.mem_cons]
    by_cases hother : other ∈ agents
    · have hne : agent ≠ other := fun heq => hnew (heq ▸ hother)
      rw [if_pos hother, if_neg hne, if_pos (Or.inr hother)]
    · rw [if_neg hother]
      by_cases heq : agent = other
      · rw [if_pos heq, if_pos (Or.inl heq.symm)]
      · rw [if_neg heq, if_neg (fun hmem => hmem.elim (fun h => heq h.symm) hother)]

theorem WorkRecord.recounted_of_slots {impl' : Impl} (h : impl'.slots = impl.slots) (record : WorkRecord) :
    record.recounted impl' = record.recounted impl := by
  have hrecounted := congrArg (fun impl : Impl => record.recounted impl) h
  exact hrecounted

theorem keyed_refreshWorkAccounting (hkey : Keyed (fun record : WorkRecord => record.request.id) impl.work)
    (work : WorkId) : Keyed (fun record : WorkRecord => record.request.id) (refreshWorkAccounting impl work).work := by
  intro other stored hstored
  rw [work_refreshWorkAccounting hkey] at hstored
  split at hstored
  · obtain ⟨record, hrecord, rfl⟩ := Option.map_eq_some_iff.mp hstored
    exact hkey other record hrecord
  · exact hkey other stored hstored

/-- Refreshing work items in turn recounts each of them once. -/
theorem work_refreshAll {works : List WorkId} (hnodup : works.Nodup)
    (hkey : Keyed (fun record : WorkRecord => record.request.id) impl.work) (other : WorkId) :
    (works.foldl refreshWorkAccounting impl).work[other]? =
      if other ∈ works then (impl.work[other]?).map (WorkRecord.recounted · impl) else impl.work[other]? := by
  induction works generalizing impl with
  | nil => rfl
  | cons work works ih =>
    obtain ⟨hnew, hnodup⟩ := List.nodup_cons.mp hnodup
    rw [List.foldl_cons, ih hnodup (keyed_refreshWorkAccounting hkey work), work_refreshWorkAccounting hkey]
    simp only [WorkRecord.recounted_of_slots (slots_refreshWorkAccounting impl work), List.mem_cons]
    by_cases hother : other ∈ works
    · have hne : work ≠ other := fun heq => hnew (heq ▸ hother)
      rw [if_pos hother, if_neg hne, if_pos (Or.inr hother)]
    · rw [if_neg hother]
      by_cases heq : work = other
      · rw [if_pos heq, if_pos (Or.inl heq.symm)]
      · rw [if_neg heq, if_neg (fun hmem => hmem.elim (fun h => heq h.symm) hother)]

end Folds

section Recovered
variable {file current : Impl}

/-- Recovery keeps the active assignments active, under the same agent and the same work. -/
theorem active_recover (p : AssignmentRecord → Prop) (hp : ∀ record : AssignmentRecord, p record.recover ↔ p record) :
    (file.ledger.recover current.ledger).active p = file.ledger.active p := by
  ext id
  simp only [Ledger.active, Set.mem_ofPred_eq, Ledger.recover, Option.map_eq_some_iff]
  constructor
  · rintro ⟨_, ⟨record, hrecord, rfl⟩, hactive, hrecovered⟩
    exact ⟨record, hrecord, record.recover_isActive ▸ hactive, (hp record).mp hrecovered⟩
  · rintro ⟨record, hrecord, hactive, hholds⟩
    exact ⟨record.recover, ⟨record, hrecord, rfl⟩, record.recover_isActive.symm ▸ hactive, (hp record).mpr hholds⟩

theorem AssignmentRecord.recover_binding (record : AssignmentRecord) :
    record.recover.binding.agent = record.binding.agent ∧ record.recover.binding.work = record.binding.work := by
  rw [AssignmentRecord.recover]
  split <;> exact ⟨rfl, rfl⟩

/-- The rebuilt index counts what the file holds. -/
theorem activeAssignmentCount_rebuilt (h : Consistent file) (agent : AgentId) :
    activeAssignmentCount (rebuildIndexes (install current (image file))) agent = file.activeOn agent := by
  have hcoherent := coherent_install current h
  have hledger : (rebuildIndexes (install current (image file))).ledger = file.ledger.recover current.ledger :=
    (read_rebuildIndexes _ (f := Impl.ledger) fun _ => rfl).trans (ledger_install current file)
  have hcount := hcoherent.encard_active_agent agent
  rw [hledger, active_recover _ fun record => by rw [record.recover_binding.1]] at hcount
  rw [encard_active file (p := fun record => record.binding.agent = agent) fun record => by simp] at hcount
  exact (Nat.cast_inj.mp hcount).symm

theorem activeIds_rebuilt (h : Consistent file) (work : WorkId) :
    ((indexIds (rebuildIndexes (install current (image file))).indexAssignmentsByWork work).filter
      (isActiveId (rebuildIndexes (install current (image file))))).length = file.activeOf work := by
  have hcoherent := coherent_install current h
  have hledger : (rebuildIndexes (install current (image file))).ledger = file.ledger.recover current.ledger :=
    (read_rebuildIndexes _ (f := Impl.ledger) fun _ => rfl).trans (ledger_install current file)
  have hcount := hcoherent.encard_activeFor work
  rw [hledger, Ledger.activeFor, active_recover _ fun record => by rw [record.recover_binding.2]] at hcount
  rw [encard_active file (p := fun record => record.binding.work = work) fun record => by simp] at hcount
  exact (Nat.cast_inj.mp hcount).symm

/-- Nothing that was recovered is executing. -/
theorem not_executing_rebuilt (id : AssignmentId) :
    isExecutingId (rebuildIndexes (install current (image file))) id = false := by
  have hassignments : (rebuildIndexes (install current (image file))).assignments =
      file.assignments.map fun _ record => record.recover := read_rebuildIndexes _ (f := Impl.assignments) fun _ => rfl
  rw [isExecutingId, hassignments, getElem?_map]
  cases file.assignments[id]? with
  | none => rfl
  | some record =>
    rw [Option.map_some]
    simp only [Bool.or_eq_false_iff, decide_eq_false_iff_not]
    rw [AssignmentRecord.recover]
    split
    · exact ⟨fun heq => (by cases heq), fun heq => (by cases heq)⟩
    · next hinactive =>
      constructor
      · intro hstate
        have hstate : record.state = .executing := hstate
        rw [hstate] at hinactive
        exact hinactive rfl
      · intro hstate
        have hstate : record.state = .releasing := hstate
        rw [hstate] at hinactive
        exact hinactive rfl

/-- An agent without evidence that is neither lost nor retired waits for revalidation. -/
theorem recomputeLifecycle_recovered (record : AgentRecord) (active : Nat) :
    recomputeLifecycle { record.recover with activeAssignments := active } =
      { record.recover with activeAssignments := active } := by
  have hlifecycle : record.recover.lifecycle = .lost ∨ record.recover.lifecycle = .retired ∨
      record.recover.lifecycle = .revalidationRequired := by
    change lifecycleFromHint (lifecycleHint record.lifecycle) = _ ∨ lifecycleFromHint (lifecycleHint record.lifecycle) = _ ∨
      lifecycleFromHint (lifecycleHint record.lifecycle) = _
    cases record.lifecycle <;> decide
  rw [recomputeLifecycle]
  rcases hlifecycle with hlost | hretired | hwaits
  · rw [if_pos (Or.inl hlost)]
  · rw [if_pos (Or.inr (Or.inl hretired))]
  · rw [if_neg (by simp only [hwaits]; decide), if_pos (by rfl), ← hwaits]
    rfl

/-- The lifecycle of a work item after its slots are counted. -/
theorem refreshedWorkLifecycle_recovered (record : WorkRecord) (active : Nat) :
    refreshedWorkLifecycle record.recover.lifecycle active false =
      if record.lifecycle.isTerminal then record.lifecycle else if active = 0 then .admitted else .assigned := by
  rw [refreshedWorkLifecycle, WorkRecord.recover]
  cases record.lifecycle <;> rfl

theorem keyed_rebuilt (h : Consistent file) :
    Keyed (fun record : AgentRecord => record.descriptor.id) (rebuildIndexes (install current (image file))).agents ∧
      Keyed (fun record : WorkRecord => record.request.id) (rebuildIndexes (install current (image file))).work :=
  ⟨(coherent_install current h).agentKey, (coherent_install current h).workKey⟩

/-- What every agent is after a load. -/
theorem agents_reloaded (h : Consistent file) (agent : AgentId) :
    (restore current (image file)).agents[agent]? = file.agents[agent]?.map (AgentRecord.reloaded file) := by
  let rebuilt := rebuildIndexes (install current (image file))
  have hrebuilt : rebuilt.agents = file.agents.map fun _ record => record.recover :=
    read_rebuildIndexes _ (f := Impl.agents) fun _ => rfl
  let counted := rebuilt.agents.keys.foldl refreshAgentAccounting rebuilt
  have hworks : (restore current (image file)).agents = counted.agents :=
    foldl_project (f := Impl.agents) (fun impl work => agents_refreshWorkAccounting impl work) counted.work.keys counted
  rw [hworks, agents_refreshAll ExtTreeMap.nodup_keys (keyed_rebuilt h).1, hrebuilt]
  rw [getElem?_map, Option.map_map]
  cases hrecord : file.agents[agent]? with
  | none => simp
  | some record =>
    have hmem : agent ∈ (file.agents.map fun _ record => record.recover).keys := by
      rw [ExtTreeMap.mem_keys, ExtTreeMap.mem_iff_isSome_getElem?, getElem?_map, hrecord]
      rfl
    rw [if_pos hmem, Option.map_some, Option.map_some, Function.comp, AgentRecord.recounted,
      activeAssignmentCount_rebuilt h, recomputeLifecycle_recovered]
    rfl

/-- What every work item is after a load. -/
theorem work_reloaded (h : Consistent file) (work : WorkId) :
    (restore current (image file)).work[work]? = file.work[work]?.map (WorkRecord.reloaded file) := by
  let rebuilt := rebuildIndexes (install current (image file))
  have hrebuilt : rebuilt.work = file.work.map fun _ record => record.recover :=
    read_rebuildIndexes _ (f := Impl.work) fun _ => rfl
  let counted := rebuilt.agents.keys.foldl refreshAgentAccounting rebuilt
  have hcounted : counted.work = rebuilt.work :=
    by
    have hfiled : counted.workFile = rebuilt.workFile :=
      foldl_project (f := Impl.workFile) (fun impl agent => workFile_refreshAgentAccounting impl agent) _ _
    have hwork := congrArg Impl.work hfiled
    exact hwork
  have hslots : counted.slots = rebuilt.slots :=
    foldl_project (f := Impl.slots) (fun impl agent => slots_refreshAgentAccounting impl agent) rebuilt.agents.keys rebuilt
  have hrevised : (restore current (image file)).work = (counted.work.keys.foldl refreshWorkAccounting counted).work := rfl
  have hkey : Keyed (fun record : WorkRecord => record.request.id) counted.work := hcounted ▸ (keyed_rebuilt h).2
  rw [hrevised, work_refreshAll ExtTreeMap.nodup_keys hkey, hcounted, hrebuilt]
  rw [getElem?_map, Option.map_map]
  cases hrecord : file.work[work]? with
  | none => simp
  | some record =>
    have hmem : work ∈ (file.work.map fun _ record => record.recover).keys := by
      rw [ExtTreeMap.mem_keys, ExtTreeMap.mem_iff_isSome_getElem?, getElem?_map, hrecord]
      rfl
    have hnone : ((indexIds rebuilt.indexAssignmentsByWork record.request.id).filter (isActiveId rebuilt)).any
        (isExecutingId rebuilt) = false := by
      rw [List.any_eq_false]
      intro id _
      rw [not_executing_rebuilt id]
      exact Bool.false_ne_true
    rw [if_pos hmem, Option.map_some, Option.map_some, Function.comp, WorkRecord.recounted_of_slots hslots]
    simp only [WorkRecord.recounted]
    change some { record.recover with
      currentAssignments := ((indexIds rebuilt.indexAssignmentsByWork record.request.id).filter (isActiveId rebuilt)).length
      lifecycle := refreshedWorkLifecycle record.recover.lifecycle
        ((indexIds rebuilt.indexAssignmentsByWork record.request.id).filter (isActiveId rebuilt)).length
        (((indexIds rebuilt.indexAssignmentsByWork record.request.id).filter (isActiveId rebuilt)).any
          (isExecutingId rebuilt)) } = _
    rw [hnone, activeIds_rebuilt h, refreshedWorkLifecycle_recovered]
    rfl

/-- The fields of a state that neither rebuilding nor refreshing touches. -/
def Impl.settings (impl : Impl) : Impl :=
  { impl.stored with agents := ∅, work := ∅, stateRevision := 0 }

theorem settings_refreshAgentAccounting (impl : Impl) (agent : AgentId) :
    (refreshAgentAccounting impl agent).settings = impl.settings := by
  unfold refreshAgentAccounting
  split <;> rfl

theorem settings_refreshWorkAccounting (impl : Impl) (work : WorkId) :
    (refreshWorkAccounting impl work).settings = impl.settings := by
  unfold AgentScheduler.refreshWorkAccounting
  split <;> rfl

theorem settings_restore (current file : Impl) :
    (restore current (image file)).settings = (install current (image file)).settings := by
  let rebuilt := rebuildIndexes (install current (image file))
  have hrebuilt : rebuilt.settings = (install current (image file)).settings := by
    have hstored := stored_rebuildIndexes (install current (image file))
    exact congrArg (fun impl : Impl => { impl with agents := ∅, work := ∅, stateRevision := 0 }) hstored
  let counted := rebuilt.agents.keys.foldl refreshAgentAccounting rebuilt
  have hcounted : counted.settings = rebuilt.settings :=
    foldl_project (f := Impl.settings) (fun impl agent => settings_refreshAgentAccounting impl agent) _ _
  have hworks : (restore current (image file)).settings = counted.settings :=
    foldl_project (f := Impl.settings) (fun impl work => settings_refreshWorkAccounting impl work) counted.work.keys counted
  exact hworks.trans (hcounted.trans hrebuilt)

/-- `load` leaves the conservative projection of what was saved. -/
theorem restore_reloads (current : Impl) (h : Consistent file) : file.Reloads current (restore current (image file)) := by
  have hsettings := settings_restore current file
  have hsame {α : Type} (f : Impl → α) (hf : ∀ impl : Impl, f impl.settings = f impl) :
      f (restore current (image file)) = f (install current (image file)) := by
    rw [← hf, hsettings, hf]
  have hsequence := hsame Impl.nextAdmissionSequence fun _ => rfl
  constructor
  · exact hsame Impl.schedulerId fun _ => rfl
  · exact hsame (fun impl => impl.schedulerEpoch.value) fun _ => rfl
  · exact hsame Impl.coordinatorEpoch fun _ => rfl
  · exact hsame Impl.queueGeneration fun _ => rfl
  · rw [hsequence]
    change (if file.nextAdmissionSequence = 0 then 1 else file.nextAdmissionSequence) = _
    split <;> omega
  · exact ⟨hsame Impl.assignmentsCreated fun _ => rfl, hsame Impl.assignmentsInvalidated fun _ => rfl,
      hsame Impl.schedulingRounds fun _ => rfl⟩
  · exact hsame Impl.policy fun _ => rfl
  · exact hsame Impl.queues fun _ => rfl
  · exact hsame Impl.tenants fun _ => rfl
  · exact hsame Impl.fencedBoots fun _ => rfl
  · exact agents_reloaded h
  · exact work_reloaded h
  · intro id
    rw [hsame Impl.assignments fun _ => rfl]
    exact getElem?_map _ _ _
  · intro id
    rw [hsame Impl.leases fun _ => rfl]
    exact getElem?_map _ _ _
  · exact ⟨hsame Impl.running fun _ => rfl, hsame Impl.admissionOpen fun _ => rfl,
      hsame Impl.shuttingDown fun _ => rfl, hsame Impl.recovered fun _ => rfl⟩

end Recovered

/-! ### Saving and loading -/

/-- What `load` makes of the file that a state was saved in. -/
structure LoadsSaved (saved : Impl) (file : List UInt8) (current : Impl) (path : Text) (options : LoadOptions) : Prop where
  /-- the file is accepted exactly when it and the saved tables are within the limits -/
  accepts : (∃ result, (load current path options file).1 = .ok result) ↔
    file.length ≤ saved.limits.maxPersistenceBytes.toNat ∧ saved.Loadable
  /-- then the state is the projection of what was saved, and the report counts it -/
  reloads : ∀ result, (load current path options file).1 = .ok result →
    saved.Reloads current (load current path options file).2 ∧ result.agentsLoaded = saved.agents.size ∧
      result.workLoaded = saved.work.size ∧ result.assignmentsLoaded = saved.assignments.size ∧
      result.assignmentsRequiringRevalidation = saved.activeCount (fun _ => true) ∧
      result.newSchedulerEpoch = (load current path options file).2.schedulerEpoch
  /-- otherwise nothing changes -/
  refuses : ∀ error, (load current path options file).1 = .error error → (load current path options file).2 = current

theorem load_stopped {current : Impl} (path : Text) (options : LoadOptions) (file : List UInt8) (h : current.running = false) :
    (∀ error, decodeFile current.limits path options file = .error error →
      load current path options file = (.error error, current)) ∧
    ∀ verified decoded, decodeFile current.limits path options file = .ok (verified, decoded) →
      (load current path options file).2 = restore current decoded ∧
      ∃ result, (load current path options file).1 = .ok result ∧ result.agentsLoaded = decoded.agents.size ∧
        result.workLoaded = decoded.work.size ∧ result.assignmentsLoaded = decoded.assignments.size ∧
        result.assignmentsRequiringRevalidation = decoded.requiringRevalidation ∧
        result.newSchedulerEpoch = (restore current decoded).schedulerEpoch := by
  constructor
  · intro error herror
    rw [load, if_neg (by rw [h]; exact Bool.false_ne_true), herror]
  · intro verified decoded hdecoded
    rw [load, if_neg (by rw [h]; exact Bool.false_ne_true), hdecoded]
    exact ⟨rfl, _, rfl, rfl, rfl, rfl, rfl, rfl⟩

end AgentScheduler
