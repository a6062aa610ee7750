import AgentScheduler.Causes
import AgentScheduler.Submissions

/-! What `submit_work` answers for the stored generation of a work item, over every run. -/
namespace AgentScheduler
open Std KeyedTable Relation

/-! ### Stored requests are canonical -/

/-- Every stored request is its own canonical form. -/
def Ledger.CanonicalWorks (ledger : Ledger) : Prop :=
  ∀ work entry, ledger.works work = some entry → entry.request.canonicalize = entry.request

section Deeds
variable {ctx : Context} {event : Event} {ledger : Ledger}

theorem Ledger.CanonicalWorks.setWork {work : WorkId} {entry : WorkEntry} (h : ledger.CanonicalWorks)
    (hcanonical : entry.request.canonicalize = entry.request) : (ledger.setWork work entry).CanonicalWorks := by
  intro other found hfound
  by_cases hwork : other = work
  · subst hwork
    obtain rfl : entry = found := by simpa [Ledger.setWork] using hfound
    exact hcanonical
  · exact h other found (by simpa [Ledger.setWork, Function.update_of_ne hwork] using hfound)

theorem Ledger.CanonicalWorks.stored {impl : Impl} {work : WorkId} {record : WorkRecord} (h : impl.ledger.CanonicalWorks)
    (hrecord : impl.work[work]? = some record) : record.request.canonicalize = record.request := by
  refine h work record.entry ?_
  simp [Impl.ledger, hrecord]

/-- Only an admission stores another request, in its canonical form. -/
theorem Deed.canonicalWorks {scene scene' : Set AgentId × Impl} (hdeed : Deed ctx event scene scene')
    (hconsistent : Consistent scene.2) (h : scene.2.ledger.CanonicalWorks) : scene'.2.ledger.CanonicalWorks := by
  have hset {impl : Impl} {work : WorkId} {record : WorkRecord} (h : impl.ledger.CanonicalWorks)
      (hcanonical : record.request.canonicalize = record.request) : (impl.setWork work record).ledger.CanonicalWorks := by
    rw [ledger_setWork]
    exact h.setWork hcanonical
  cases hdeed with
  | quiet impl' _ hquiet => rwa [(hquiet hconsistent).2]
  | @govern _ impl impl' htables _ =>
    intro work entry hentry
    have hwork := congrArg Impl.work htables
    have hwork : impl'.work = impl.work := hwork
    refine h work entry ?_
    simpa only [Impl.ledger, hwork] using hentry
  | close id record state reason detail hrecord hopen hterminal =>
    rw [ledger_closeAssignment id ctx.now state reason detail hconsistent hterminal]
    exact h
  | fence => rwa [ledger_fenceBoot]
  | touch | note | enroll | reincarnate | advance => exact h
  | refresh agent => rwa [(Quiet.refreshAgent _ agent hconsistent).2]
  | recount agent => rwa [ledger_refreshAgentAccounting]
  | accept work record _ _ _ _ hcanonical =>
    rw [ledger_of_core (core_indexWork _ _)]
    exact hset h hcanonical
  | reopen work record _ _ _ _ hcanonical =>
    rw [ledger_of_core (core_indexWork _ _)]
    refine hset ?_ hcanonical
    rwa [ledger_of_core (core_deindexWork _ work)]
  | @settle _ impl work record lifecycle reason hrecord _ =>
    rw [ledger_of_core (core_syncWorkLifecycleIndex _ _ _)]
    have hstored : record.request.canonicalize = record.request := Ledger.CanonicalWorks.stored h hrecord
    exact hset h hstored
  | tally work record record' hrecord hgist =>
    refine hset h ?_
    rw [(WorkRecord.read_of_gist hgist).1]
    exact h.stored hrecord
  | refreshWork work => rwa [ledger_refreshWorkAccounting]
  | commit generation binding work hcheck =>
    rw [(commitApply_spec hconsistent hcheck).2]
    exact h.setWork (h.stored (commits_of_check hconsistent hcheck).1)

end Deeds

/-- The requests of an instance, of its files and of the submissions in flight. -/
structure System.CanonicalRequests (system : System) : Prop where
  stored : system.impl.ledger.CanonicalWorks
  saved : ∀ file ∈ system.saved, file.ledger.CanonicalWorks
  calls : ∀ request, .submitWork request ∈ system.calls → request.DistinctNames

section Submitting
variable {impl : Impl} {request : WorkRequest} {unchanged : Bool}

theorem submitWorkBegin_admissible (h : submitWorkBegin impl request = .ok unchanged) :
    request.Admissible impl.limits := by
  unfold submitWorkBegin at h
  simp only [check_bind_eq_ok] at h
  exact h.1

/-- A submission in flight has passed its first section. -/
theorem beginCall_distinctNames {ctx : Context} {era : Nat} {asked : Request}
    (h : beginCall ctx impl era asked = .inr (.submitWork request)) : request.DistinctNames := by
  cases asked with
  | submitWork called =>
    simp only [beginCall] at h
    split at h
    · cases h
    · cases h
    · next hchecked =>
      obtain rfl := Call.submitWork.inj (Sum.inr.inj h)
      exact (submitWorkBegin_admissible hchecked).distinctNames
  | schedule | dispatch | registerAgent | cancelWork | declareAgentLost =>
    simp only [beginCall] at h
    split at h <;> cases h

end Submitting

theorem System.step_canonicalRequests {system after : System} {label : Label} {reply : Reply} (hvalid : system.Valid)
    (hstep : system.step label = some (reply, after)) (h : system.CanonicalRequests) : after.CanonicalRequests := by
  have hframe := System.step_frame hstep
  refine ⟨?_, fun file hfile => ?_, fun request hcall => ?_⟩
  · rcases System.step_deeds hvalid hstep with ⟨position, file, -, hfile, -, himpl⟩ | ⟨options, generatedId, -, himpl⟩ |
      hdeeds
    · have hmem := List.mem_of_getElem? hfile
      rw [himpl, (restore_image system.impl (hvalid.saved file hmem).consistent).2]
      exact h.saved file hmem
    · intro work entry hentry
      rw [(construct_spec himpl).2.1 work] at hentry
      cases hentry
    · exact Deeds.keeps (motive := fun scene => scene.2.ledger.CanonicalWorks) hdeeds
        (fun _ _ _ _ hdeed hconsistent hcanonical => hdeed.canonicalWorks hconsistent hcanonical)
        hvalid.healthy.consistent h.stored
  · rcases hframe.saved file hfile with hold | rfl
    · exact h.saved file hold
    · exact h.stored
  · rcases hframe.calls _ hcall with hold | ⟨-, -, asked, hbegin⟩
    · exact h.calls request hold
    · exact beginCall_distinctNames hbegin

theorem System.ReachableBy.canonicalRequests {allowed : System → Label → Prop} {system : System}
    (hreach : system.ReachableBy allowed) : system.CanonicalRequests := by
  refine hreach.keeps (fun start hstart => ?_) fun s s' label reply hvalid _ hstep h =>
    System.step_canonicalRequests hvalid hstep h
  obtain ⟨options, generatedId, now, hinitial⟩ := hstart
  obtain ⟨impl, hconstruct, rfl⟩ := Option.map_eq_some_iff.mp hinitial
  refine ⟨fun work entry hentry => ?_, fun _ hfile => (List.not_mem_nil hfile).elim,
    fun _ hcall => (List.not_mem_nil hcall).elim⟩
  have hentry : impl.ledger.works work = some entry := hentry
  rw [(construct_spec hconstruct).2.1 work] at hentry
  cases hentry

/-! ### Repeated submissions -/

/-- The stored work item takes a repeated submission of its generation. -/
structure Impl.Repeats (impl : Impl) (request : WorkRequest) (record : WorkRecord) : Prop where
  opened : impl.admissionOpen = true
  kept : record.lifecycle ≠ .cancelled ∧ record.lifecycle ≠ .superseded
  variant : request.Variant record.request

section Repeated
variable {impl : Impl} {request : WorkRequest} {record : WorkRecord}

/-- A request has the canonical form of a stored one if it is a variant of it. -/
theorem canonicalize_eq_iff {stored : WorkRequest} (hnames : request.DistinctNames)
    (hcanonical : stored.canonicalize = stored) : request.canonicalize = stored ↔ request.Variant stored := by
  constructor
  · intro heq
    rw [← heq]
    exact request.variant_canonicalize
  · intro hvariant
    exact (hvariant.canonicalize_eq hnames).trans hcanonical

theorem checkResubmission_unchanged {canonical : WorkRequest} (detail : Text)
    (hgeneration : canonical.generation = record.request.generation) :
    checkResubmission canonical record detail = .ok .unchanged ↔
      record.lifecycle ≠ .cancelled ∧ record.lifecycle ≠ .superseded ∧ canonical = record.request := by
  have hstale : ¬canonical.generation < record.request.generation := by
    rw [hgeneration]
    exact UInt64.lt_irrefl _
  unfold checkResubmission
  simp only [check_bind_eq_ok, rejectIf_eq_ok, if_pos hgeneration, hstale, not_false_eq_true, true_and]
  constructor
  · rintro ⟨hcancelled, hsuperseded, hsame, -⟩
    exact ⟨hcancelled, hsuperseded, (not_not.mp hsame).symm⟩
  · rintro ⟨hcancelled, hsuperseded, hsame⟩
    exact ⟨hcancelled, hsuperseded, not_not.mpr hsame.symm, rfl⟩

/-- For the stored generation there is nothing to reopen. -/
theorem checkResubmission_same {canonical : WorkRequest} (detail : Text) (hgeneration : canonical.generation = record.request.generation) :
    checkResubmission canonical record detail = .ok .unchanged ∨
      ∃ error, checkResubmission canonical record detail = .error error := by
  cases hdecision : checkResubmission canonical record detail with
  | error error => exact .inr ⟨error, rfl⟩
  | ok decision =>
    cases decision with
    | unchanged => exact .inl rfl
    | reopen =>
      have hnewer := checkResubmission_reopen hdecision
      rw [hgeneration] at hnewer
      exact absurd hnewer (UInt64.lt_irrefl _)

/-- Both sections take a repeated submission under these circumstances. -/
theorem repeats_iff (detail : Text) (hgeneration : request.generation = record.request.generation) (hnames : request.DistinctNames)
    (hcanonical : record.request.canonicalize = record.request) :
    impl.Repeats request record ↔
      impl.admissionOpen = true ∧ checkResubmission request.canonicalize record detail = .ok .unchanged := by
  have hgeneration : request.canonicalize.generation = record.request.generation := hgeneration
  rw [checkResubmission_unchanged detail hgeneration, canonicalize_eq_iff hnames hcanonical]
  constructor
  · rintro ⟨hopen, ⟨hcancelled, hsuperseded⟩, hvariant⟩
    exact ⟨hopen, hcancelled, hsuperseded, hvariant⟩
  · rintro ⟨hopen, hcancelled, hsuperseded, hvariant⟩
    exact ⟨hopen, ⟨hcancelled, hsuperseded⟩, hvariant⟩

/-- The first section answers a repeated submission at once. -/
theorem submitWorkBegin_repeated (hrecord : impl.work[request.id]? = some record)
    (hgeneration : request.generation = record.request.generation)
    (hcanonical : record.request.canonicalize = record.request) :
    submitWorkBegin impl request ≠ .ok false ∧
      (submitWorkBegin impl request = .ok true ↔ request.Admissible impl.limits ∧ impl.Repeats request record) := by
  let detail : Text := "work is cancelled and cannot be re-admitted at the same generation"
  have hsame : request.canonicalize.generation = record.request.generation := hgeneration
  have hstored : impl.work[request.canonicalize.id]? = some record := hrecord
  have hbegin : ∀ answer, submitWorkBegin impl request = .ok answer ↔
      request.Admissible impl.limits ∧ impl.admissionOpen = true ∧
        checkResubmission request.canonicalize record detail = .ok .unchanged ∧ answer = true := by
    intro answer
    unfold submitWorkBegin
    simp only [check_bind_eq_ok, checkAdmissionOpen, rejectIf_eq_ok, not_not, hstored]
    refine and_congr_right fun _ => and_congr_right fun _ => ?_
    rw [except_bind_eq_ok]
    constructor
    · rintro ⟨decision, hdecision, hanswer⟩
      rcases checkResubmission_same detail hsame with hunchanged | ⟨error, herror⟩
      · obtain rfl := Except.ok.inj (hunchanged.symm.trans hdecision)
        exact ⟨hunchanged, (Except.ok.inj hanswer).symm⟩
      · cases herror.symm.trans hdecision
    · rintro ⟨hdecision, rfl⟩
      exact ⟨.unchanged, hdecision, rfl⟩
  constructor
  · intro hfalse
    cases ((hbegin false).mp hfalse).2.2.2
  · rw [hbegin true]
    refine and_congr_right fun hadmissible => ?_
    rw [repeats_iff detail hgeneration hadmissible.distinctNames hcanonical]
    exact and_congr_right fun _ => and_iff_left rfl

/-- The second section leaves the instance as it is, too. -/
theorem submitWorkCommit_repeated (now : UInt64) (hrecord : impl.work[request.id]? = some record)
    (hgeneration : request.generation = record.request.generation) (hnames : request.DistinctNames)
    (hcanonical : record.request.canonicalize = record.request) :
    (submitWorkCommit now impl request).2 = impl ∧
      ((submitWorkCommit now impl request).1 = .ok () ↔ impl.Repeats request record) := by
  have hsame : request.canonicalize.generation = record.request.generation := hgeneration
  have hstored : impl.work[request.canonicalize.id]? = some record := hrecord
  rw [repeats_iff "work is cancelled" hgeneration hnames hcanonical]
  cases hopen : impl.admissionOpen with
  | false =>
    have hclosed : ∃ error, checkAdmissionOpen impl request.canonicalize.id = .error error := by
      unfold checkAdmissionOpen rejectIf
      rw [hopen, if_pos (by simp)]
      exact ⟨_, rfl⟩
    obtain ⟨error, hclosed⟩ := hclosed
    simp only [submitWorkCommit, guarded, hclosed, reduceCtorEq, Bool.false_eq_true, false_and, and_self]
  | true =>
    have hopened : checkAdmissionOpen impl request.canonicalize.id = .ok () := rejectIf_eq_ok.mpr (not_not.mpr hopen)
    rcases checkResubmission_same "work is cancelled" hsame with hdecision | ⟨error, hdecision⟩
    · simp only [submitWorkCommit, guarded, hopened, hstored, hdecision, and_self]
    · simp only [submitWorkCommit, guarded, hopened, hstored, hdecision, reduceCtorEq, and_false, and_self]

end Repeated

/-- All ways to say a submission have one canonical form. Wherever a run leads, a request for the stored generation of a work
item changes nothing, in either section of the call, and succeeds exactly when it says the stored submission again, admission
is open and the work item is neither cancelled nor superseded. -/
theorem variants_resubmit :
    (∀ request : WorkRequest, request.canonicalize.canonicalize = request.canonicalize) ∧
    (∀ (limits : ResourceLimits) (left right : WorkRequest), left.validate limits = .ok () → left.Variant right →
      left.Admissible limits ∧ left.canonicalize = right.canonicalize) ∧
    ∀ (system : System) (request : WorkRequest) (record : WorkRecord), system.Reachable →
      system.impl.work[request.id]? = some record → request.generation = record.request.generation →
      (∃ result, system.step (.begin (.submitWork request)) = some (.mutation result, system) ∧
        (result = .ok () ↔ request.Admissible system.impl.limits ∧ system.impl.Repeats request record)) ∧
      ∀ position, system.calls[position]? = some (.submitWork request) →
        ∃ result, system.step (.finish position) =
            some (.mutation result, { system with calls := system.calls.eraseIdx position }) ∧
          (result = .ok () ↔ system.impl.Repeats request record) := by
  refine ⟨WorkRequest.canonicalize_canonicalize, fun limits left right hvalid hvariant => ?_,
    fun system request record hreach hrecord hgeneration => ?_⟩
  · have hadmissible := WorkRequest.admissible_of_validate hvalid
    exact ⟨hadmissible, hvariant.canonicalize_eq hadmissible.distinctNames⟩
  · have hrequests := hreach.canonicalRequests
    have hcanonical := hrequests.stored.stored hrecord
    constructor
    · obtain ⟨hanswered, hsucceeds⟩ := submitWorkBegin_repeated hrecord hgeneration hcanonical
      rw [← hsucceeds]
      cases hbegin : submitWorkBegin system.impl request with
      | error error =>
        refine ⟨.error error, ?_, ?_⟩
        · simp only [System.step, beginCall, hbegin]
        · simp
      | ok answer =>
        cases answer with
        | false => exact absurd hbegin hanswered
        | true =>
          refine ⟨.ok (), ?_, ?_⟩
          · simp only [System.step, beginCall, hbegin]
          · simp
    · intro position hcall
      have hnames := hrequests.calls request (List.mem_of_getElem? hcall)
      obtain ⟨hkept, hsucceeds⟩ := submitWorkCommit_repeated system.now hrecord hgeneration hnames hcanonical
      refine ⟨(submitWorkCommit system.now system.impl request).1, ?_, hsucceeds⟩
      simp only [System.step, hcall, finishCall, System.context, Prod.map, id, hkept]

/-- Work with two requirements. -/
def Sample.demanding : WorkRequest :=
  { Sample.exclusiveWork with
    requirements := { capabilities := [{ name := "gpu" }, { name := "net" }], requiredPolicyLabels := ["eu", "pci"] } }

/-- The same work, its requirements the other way round and a label said twice. -/
def Sample.reworded : WorkRequest :=
  { Sample.demanding with
    requirements := { capabilities := [{ name := "net" }, { name := "gpu" }], requiredPolicyLabels := ["pci", "eu", "pci"] } }

/-- What a request is held against: the stored work item, the canonical form, and whether admission is open. -/
def Sample.held (system : System) (request : WorkRequest) : Option (WorkGeneration × WorkLifecycle × Bool) × Bool × Bool :=
  ((system.impl.work[request.id]?).map fun record =>
      (record.request.generation, record.lifecycle, decide (request.canonicalize = record.request)),
    system.impl.admissionOpen, (request.canonicalize.validate system.impl.limits).toBool)

theorem Sample.held_stored {system : System} {request : WorkRequest} {generation : WorkGeneration} {lifecycle : WorkLifecycle}
    {opened valid : Bool} (h : Sample.held system request = (some (generation, lifecycle, true), opened, valid)) :
    ∃ record, system.impl.work[request.id]? = some record ∧ record.request.generation = generation ∧
      record.lifecycle = lifecycle ∧ request.canonicalize = record.request := by
  obtain ⟨hstored, -⟩ := Prod.mk.inj h
  obtain ⟨record, hrecord, hread⟩ := Option.map_eq_some_iff.mp hstored
  simp only [Prod.mk.injEq, decide_eq_true_eq] at hread
  exact ⟨record, hrecord, hread⟩

theorem Sample.held_admissible {system : System} {request : WorkRequest}
    {stored : Option (WorkGeneration × WorkLifecycle × Bool)} {opened : Bool}
    (h : Sample.held system request = (stored, opened, true)) :
    system.impl.admissionOpen = opened ∧ request.Admissible system.impl.limits := by
  obtain ⟨-, hopen, hvalid⟩ := by simpa only [Prod.mk.injEq, Sample.held] using h
  refine ⟨hopen, ?_⟩
  unfold WorkRequest.Admissible
  cases hvalidate : request.canonicalize.validate system.impl.limits with
  | ok => rfl
  | error error =>
    rw [hvalidate] at hvalid
    cases hvalid

set_option maxRecDepth 100000 in
/-- The work is submitted, and submitted again in other words. -/
theorem variants_resubmit_sample : ∃ system,
    Sample.run (fun _ _ => True) (Sample.submit Sample.demanding) = some system ∧
      system.step (.begin (.submitWork Sample.reworded)) = some (.mutation (.ok ()), system) := by
  have hview : (Sample.run (fun _ _ => True) (Sample.submit Sample.demanding)).map
      (fun system => Sample.held system Sample.reworded) = some (some (1, .admitted, true), true, true) := by decide +kernel
  obtain ⟨system, hsystem, hheld⟩ := Option.map_eq_some_iff.mp hview
  obtain ⟨record, hrecord, hgeneration, hlifecycle, hsame⟩ := Sample.held_stored hheld
  obtain ⟨hopen, hadmissible⟩ := Sample.held_admissible hheld
  have hreach : system.Reachable := Sample.run_reaches hsystem
  have hrepeats : system.impl.Repeats Sample.reworded record := by
    refine ⟨hopen, ?_, ?_⟩
    · rw [hlifecycle]
      decide
    · rw [← hsame]
      exact Sample.reworded.variant_canonicalize
  obtain ⟨result, hstep, hsucceeds⟩ := (variants_resubmit.2.2 system Sample.reworded record hreach hrecord hgeneration.symm).1
  rw [hsucceeds.mpr ⟨hadmissible, hrepeats⟩] at hstep
  exact ⟨system, hsystem, hstep⟩

set_option maxRecDepth 100000 in
/-- Once admission is closed, even the identical submission is refused. -/
theorem not_variants_resubmit : ¬∀ (system : System) (request : WorkRequest) (record : WorkRecord), system.Reachable →
    system.impl.work[request.id]? = some record → request.generation = record.request.generation →
    request.validate system.impl.limits = .ok () → request.Variant record.request →
    record.lifecycle ≠ .cancelled → record.lifecycle ≠ .superseded →
    system.step (.begin (.submitWork request)) = some (.mutation (.ok ()), system) := by
  intro hrepeats
  have hview : (Sample.run (fun _ _ => True) (Sample.submit Sample.exclusiveWork ++ [.run .shutdown])).map
      (fun system => Sample.held system Sample.exclusiveWork) = some (some (1, .admitted, true), false, true) := by
    decide +kernel
  obtain ⟨system, hsystem, hheld⟩ := Option.map_eq_some_iff.mp hview
  obtain ⟨record, hrecord, hgeneration, hlifecycle, hsame⟩ := Sample.held_stored hheld
  obtain ⟨hclosed, hvalid⟩ := Sample.held_admissible hheld
  have hreach : system.Reachable := Sample.run_reaches hsystem
  have hvariant : Sample.exclusiveWork.Variant record.request := hsame ▸ Sample.exclusiveWork.variant_canonicalize
  have hstep := hrepeats system Sample.exclusiveWork record hreach hrecord hgeneration.symm hvalid hvariant
    (by rw [hlifecycle]; decide) (by rw [hlifecycle]; decide)
  obtain ⟨hanswered, hsucceeds⟩ := submitWorkBegin_repeated hrecord hgeneration.symm
    (hreach.canonicalRequests.stored.stored hrecord)
  simp only [System.step, beginCall] at hstep
  cases hbegin : submitWorkBegin system.impl Sample.exclusiveWork with
  | error error =>
    rw [hbegin] at hstep
    cases (Prod.mk.inj (Option.some.inj hstep)).1
  | ok answer =>
    cases answer with
    | false => exact hanswered hbegin
    | true =>
      have hopen := (hsucceeds.mp hbegin).2.opened
      rw [hclosed] at hopen
      cases hopen

end AgentScheduler
