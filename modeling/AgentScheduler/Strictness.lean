import AgentScheduler.Persistence
import AgentScheduler.KeyedTable

/-! The section loop of `load`: which sections and records a payload holds, and which of them are installed. -/
namespace AgentScheduler
open Std ByteCodec KeyedTable

/-! ### The sections of a payload -/

/-- One section as it stands in the bytes, before its records are put into a table. -/
inductive PayloadSection
  | scheduler (fields : DecodedState)
  | policy (snapshot : PolicySnapshot)
  | queues (records : List QueueRecord)
  | tenants (records : List TenantRecord)
  | agents (records : List AgentRecord)
  | work (records : List WorkRecord)
  | assignments (records : List AssignmentRecord)
  | leases (records : List Lease)
  | fenced (records : List FencedBoot)

namespace PayloadSection

def tag : PayloadSection → UInt8
  | scheduler _ => 1
  | policy _ => 2
  | queues _ => 3
  | tenants _ => 4
  | agents _ => 5
  | work _ => 6
  | assignments _ => 7
  | leases _ => 8
  | fenced _ => 9

/-- The number of records in the section. -/
def records : PayloadSection → Nat
  | scheduler _ => 0
  | policy _ => 0
  | queues records => records.length
  | tenants records => records.length
  | agents records => records.length
  | work records => records.length
  | assignments records => records.length
  | leases records => records.length
  | fenced records => records.length

/-- No key occurs twice in the section. -/
def KeysDistinct : PayloadSection → Prop
  | scheduler _ => True
  | policy _ => True
  | queues records => (records.map QueueRecord.id).Nodup
  | tenants records => (records.map TenantRecord.id).Nodup
  | agents records => (records.map fun record => record.descriptor.id).Nodup
  | work records => (records.map fun record => record.request.id).Nodup
  | assignments records => (records.map fun record => record.binding.id).Nodup
  | leases records => (records.map Lease.id).Nodup
  | fenced records => (records.map FencedBoot.boot).Nodup

/-- What the section does to the candidate state. -/
def install (decoded : DecodedState) : PayloadSection → DecodedState
  | scheduler fields =>
    { decoded with
      schedulerId := fields.schedulerId
      schedulerEpoch := fields.schedulerEpoch
      coordinatorEpoch := fields.coordinatorEpoch
      queueGeneration := fields.queueGeneration
      nextAdmissionSequence := fields.nextAdmissionSequence
      assignmentsCreated := fields.assignmentsCreated
      assignmentsInvalidated := fields.assignmentsInvalidated
      schedulingRounds := fields.schedulingRounds
      admissionOpen := fields.admissionOpen
      shuttingDown := fields.shuttingDown }
  | policy snapshot => { decoded with policy := snapshot }
  | queues records => { decoded with queues := emplaceAll decoded.queues QueueRecord.id records }
  | tenants records => { decoded with tenants := emplaceAll decoded.tenants TenantRecord.id records }
  | agents records =>
    { decoded with agents := emplaceAll decoded.agents (fun record => record.descriptor.id) records }
  | work records => { decoded with work := emplaceAll decoded.work (fun record => record.request.id) records }
  | assignments records =>
    { decoded with
      assignments := emplaceAll decoded.assignments (fun record => record.binding.id) records
      requiringRevalidation := decoded.requiringRevalidation +
        records.countP fun record => record.state = .revalidationRequired }
  | leases records => { decoded with leases := emplaceAll decoded.leases Lease.id records }
  | fenced records => { decoded with fencedBoots := emplaceAll decoded.fencedBoots FencedBoot.boot records }

/-- The candidate state holds what the section says: its fields, or every one of its records under its key. -/
def InstalledIn (decoded : DecodedState) : PayloadSection → Prop
  | scheduler fields => (scheduler fields).install decoded = decoded
  | policy snapshot => decoded.policy = snapshot
  | queues records => ∀ record ∈ records, decoded.queues[record.id]? = some record
  | tenants records => ∀ record ∈ records, decoded.tenants[record.id]? = some record
  | agents records => ∀ record ∈ records, decoded.agents[record.descriptor.id]? = some record
  | work records => ∀ record ∈ records, decoded.work[record.request.id]? = some record
  | assignments records => ∀ record ∈ records, decoded.assignments[record.binding.id]? = some record
  | leases records => ∀ record ∈ records, decoded.leases[record.id]? = some record
  | fenced records => ∀ record ∈ records, decoded.fencedBoots[record.boot]? = some record

/-- The table the section fills is still empty. -/
def Unfilled (decoded : DecodedState) : PayloadSection → Prop
  | scheduler _ => True
  | policy _ => True
  | queues _ => decoded.queues = ∅
  | tenants _ => decoded.tenants = ∅
  | agents _ => decoded.agents = ∅
  | work _ => decoded.work = ∅
  | assignments _ => decoded.assignments = ∅
  | leases _ => decoded.leases = ∅
  | fenced _ => decoded.fencedBoots = ∅

end PayloadSection

/-- The body of a section, by its tag. -/
def readPayloadSection (limits : ResourceLimits) (tag : UInt8) : Decoder PayloadSection :=
  match tag with
  | 1 => do return .scheduler (← readScheduler {})
  | 2 => do return .policy (← readPolicy limits)
  | 3 => do
    return .queues (← readCounted (readQueue limits) limits.maxQueues "queue count exceeds the configured maximum")
  | 4 => do
    return .tenants (← readCounted readTenant limits.maxTenants "tenant count exceeds the configured maximum")
  | 5 => do
    return .agents (← readCounted (readAgent limits) limits.maxAgents "agent count exceeds the configured maximum")
  | 6 => do
    return .work (← readCounted (readWork limits) limits.maxWorkItems "work count exceeds the configured maximum")
  | 7 => do
    return .assignments (← readCounted (readAssignment limits)
      (limits.maxActiveAssignments + limits.maxHistoricalAssignments)
      "assignment count exceeds the configured maximum")
  | 8 => do
    return .leases (← readCounted readLease limits.maxLeases "lease count exceeds the configured maximum")
  | 9 => do
    return .fenced (← readCounted (readFenced limits) limits.maxFencedBoots
      "fenced boot count exceeds the configured maximum")
  | _ => throw ("unknown persistence section tag" : Text)

/-- A section with its tag. -/
def readTagged (limits : ResourceLimits) : Decoder PayloadSection := do
  let tag ← readU8
  readPayloadSection limits tag

/-- The bytes are the number nine and these sections, one after the other, and nothing else. -/
def HoldsSections (limits : ResourceLimits) (payload : List UInt8) (sections : List PayloadSection) : Prop :=
  ∃ rest, readU32 payload = .ok (9, rest) ∧ readMany (readTagged limits) 9 rest = .ok (sections, [])

/-! ### The loop reads the sections and installs them in order -/

theorem readSection_eq (limits : ResourceLimits) (tag : UInt8) (decoded : DecodedState) :
    readSection limits tag decoded = do return (← readPayloadSection limits tag).install decoded := by
  fun_cases readSection limits tag decoded
  case case1 => simp only [readPayloadSection, readScheduler, bind_assoc, pure_bind, PayloadSection.install]
  case case10 =>
    rw [readPayloadSection]
    · rfl
    all_goals assumption
  all_goals simp only [readPayloadSection, bind_assoc, pure_bind, PayloadSection.install]

theorem readSections_eq (limits : ResourceLimits) (count : Nat) (decoded : DecodedState) :
    readSections limits count decoded = do
      return (← readMany (readTagged limits) count).foldl (fun decoded part => part.install decoded) decoded := by
  induction count generalizing decoded with
  | zero => rfl
  | succ count ih =>
    simp only [readSections, readMany, readTagged, readSection_eq, bind_assoc, pure_bind, ih, List.foldl_cons]

/-- A payload that is accepted holds nine sections, and the candidate state is what they install in order. -/
theorem decodePayload_sections {limits : ResourceLimits} {path : Text} {payload : List UInt8} {decoded : DecodedState}
    (h : decodePayload limits path payload = .ok decoded) :
    ∃ sections, HoldsSections limits payload sections ∧
      decoded = sections.foldl (fun decoded part => part.install decoded) {} := by
  rw [decodePayload] at h
  split at h
  · cases h
  next sectionCount rest hcount =>
    split at h
    · cases h
    next hnine =>
      have hnine : sectionCount = 9 := not_not.mp hnine
      subst hnine
      have hrun : readSections limits 9 {} rest = (readMany (readTagged limits) 9 rest).map fun read =>
          (read.1.foldl (fun decoded part => part.install decoded) {}, read.2) := by
        rw [readSections_eq]
        change (readMany (readTagged limits) 9 rest).bind _ = _
        cases readMany (readTagged limits) 9 rest <;> rfl
      rw [show (9 : UInt32).toNat = 9 from rfl, hrun] at h
      cases hread : readMany (readTagged limits) 9 rest with
      | error what => rw [hread] at h; cases h
      | ok read =>
        obtain ⟨sections, trailing⟩ := read
        rw [hread] at h
        simp only [Except.map] at h
        split at h
        · cases h
        next htrailing =>
          rw [not_not] at htrailing
          subst htrailing
          exact ⟨sections, ⟨rest, hcount, hread⟩, (Except.ok.inj h).symm⟩

theorem readMany_length {α : Type} {read : Decoder α} {count : Nat} {input rest : List UInt8} {values : List α}
    (h : readMany read count input = .ok (values, rest)) : values.length = count := by
  induction count generalizing input values with
  | zero =>
    cases h
    rfl
  | succ count ih =>
    change ((read input).bind fun first => (readMany read count first.2).bind fun others =>
      .ok (first.1 :: others.1, others.2)) = _ at h
    cases hfirst : read input with
    | error what => rw [hfirst] at h; cases h
    | ok first =>
      rw [hfirst] at h
      change ((readMany read count first.2).bind fun others => .ok (first.1 :: others.1, others.2)) = _ at h
      cases hothers : readMany read count first.2 with
      | error what => rw [hothers] at h; cases h
      | ok others =>
        rw [hothers] at h
        cases h
        rw [List.length_cons, ih hothers]

/-! ### Installing a section -/

section Emplace
variable {Key Value : Type} [Ord Key] [TransOrd Key] [LawfulEqOrd Key] [DecidableEq Key]

/-- Records with distinct keys that are not taken are all stored. -/
theorem emplaceAll_fresh {table : Table Key Value} {key : Value → Key} {values : List Value}
    (hkeys : (values.map key).Nodup) (hfresh : ∀ value ∈ values, table[key value]? = none) :
    (emplaceAll table key values).size = table.size + values.length ∧
      (∀ value ∈ values, (emplaceAll table key values)[key value]? = some value) ∧
      ∀ k : Key, table[k]?.isSome → (emplaceAll table key values)[k]? = table[k]? := by
  induction values generalizing table with
  | nil => simp [emplaceAll]
  | cons value rest ih =>
    rw [List.map_cons, List.nodup_cons] at hkeys
    have hnone : table[key value]? = none := hfresh value (by simp)
    have hother : ∀ k, k ≠ key value → (table.insertIfNew (key value) value)[k]? = table[k]? := by
      intro k hk
      rw [getElem?_insertIfNew, if_neg hk.symm]
    have hself : (table.insertIfNew (key value) value)[key value]? = some value := by
      rw [getElem?_insertIfNew, if_pos rfl, hnone]
      rfl
    have hrest : ∀ other ∈ rest, (table.insertIfNew (key value) value)[key other]? = none := by
      intro other hmem
      have hne : key other ≠ key value := fun heq => hkeys.1 (heq ▸ List.mem_map_of_mem hmem)
      rw [hother _ hne]
      exact hfresh other (by simp [hmem])
    obtain ⟨hsize, hstored, hkept⟩ := ih hkeys.2 hrest
    have hcons : emplaceAll table key (value :: rest) = emplaceAll (table.insertIfNew (key value) value) key rest := rfl
    rw [hcons]
    refine ⟨?_, ?_, ?_⟩
    · have hmem : key value ∉ table := by
        rw [ExtTreeMap.mem_iff_isSome_getElem?, hnone]
        simp
      rw [hsize, ExtTreeMap.size_insertIfNew, if_neg hmem, List.length_cons]
      omega
    · intro stored hmem
      rcases List.mem_cons.mp hmem with rfl | hmem
      · rw [hkept _ (by rw [hself]; rfl), hself]
      · exact hstored stored hmem
    · intro k hk
      have hne : k ≠ key value := by
        rintro rfl
        rw [hnone] at hk
        cases hk
      rw [hkept k (by rw [hother k hne]; exact hk), hother k hne]

/-- An empty table takes records with distinct keys whole. -/
theorem emplaceAll_empty {key : Value → Key} {values : List Value} (hkeys : (values.map key).Nodup) :
    (emplaceAll (∅ : Table Key Value) key values).size = values.length ∧
      ∀ value ∈ values, (emplaceAll (∅ : Table Key Value) key values)[key value]? = some value := by
  have hfresh : ∀ value ∈ values, (∅ : Table Key Value)[key value]? = none := fun _ _ => ExtTreeMap.getElem?_empty
  have h := emplaceAll_fresh hkeys hfresh
  rw [ExtTreeMap.size_empty, Nat.zero_add] at h
  exact ⟨h.1, h.2.1⟩

end Emplace

/-- The number of records in the tables. -/
def DecodedState.records (decoded : DecodedState) : Nat :=
  decoded.queues.size + decoded.tenants.size + decoded.agents.size + decoded.work.size +
    decoded.assignments.size + decoded.leases.size + decoded.fencedBoots.size

namespace PayloadSection

/-- A section fills its own table only. -/
theorem unfilled_install {part other : PayloadSection} {decoded : DecodedState} (hne : other.tag ≠ part.tag)
    (h : other.Unfilled decoded) : other.Unfilled (part.install decoded) := by
  cases part <;> cases other <;> first | exact absurd rfl hne | exact h

/-- A section leaves what the others have installed. -/
theorem installedIn_install {part other : PayloadSection} {decoded : DecodedState} (hne : other.tag ≠ part.tag)
    (h : other.InstalledIn decoded) : other.InstalledIn (part.install decoded) := by
  cases other
  case scheduler fields =>
    have hsame := congrArg (fun decoded => part.install decoded) h
    cases part <;> first | exact absurd rfl hne | exact hsame
  all_goals cases part <;> first | exact absurd rfl hne | exact h

/-- A section without repeated keys is installed whole. -/
theorem install_whole {part : PayloadSection} {decoded : DecodedState} (hunfilled : part.Unfilled decoded)
    (hkeys : part.KeysDistinct) :
    part.InstalledIn (part.install decoded) ∧ (part.install decoded).records = decoded.records + part.records := by
  cases part
  case scheduler fields => exact ⟨rfl, rfl⟩
  case policy snapshot => exact ⟨rfl, rfl⟩
  all_goals
    have h := emplaceAll_empty hkeys
    simp only [Unfilled] at hunfilled
    simp only [install, InstalledIn, DecodedState.records, PayloadSection.records, hunfilled, ExtTreeMap.size_empty]
    exact ⟨h.2, by rw [h.1]; omega⟩

end PayloadSection

/-! ### Accepted payloads -/

def sectionTags : List UInt8 := [1, 2, 3, 4, 5, 6, 7, 8, 9]

theorem PayloadSection.tag_mem (part : PayloadSection) : part.tag ∈ sectionTags := by
  cases part <;> simp [PayloadSection.tag, sectionTags]

/-- Sections with distinct tags and distinct keys are installed one after the other without touching each other. -/
theorem foldl_install {sections : List PayloadSection} (htags : (sections.map PayloadSection.tag).Nodup)
    (hkeys : ∀ part ∈ sections, part.KeysDistinct) {decoded : DecodedState}
    (hunfilled : ∀ part ∈ sections, part.Unfilled decoded) :
    let installed := sections.foldl (fun decoded part => part.install decoded) decoded
    (∀ part ∈ sections, part.InstalledIn installed) ∧
      (∀ other : PayloadSection, other.tag ∉ sections.map PayloadSection.tag → other.InstalledIn decoded →
        other.InstalledIn installed) ∧
      installed.records = decoded.records + (sections.map PayloadSection.records).sum := by
  induction sections generalizing decoded with
  | nil => simp
  | cons part rest ih =>
    rw [List.map_cons, List.nodup_cons] at htags
    obtain ⟨hinstalled, hrecords⟩ :=
      PayloadSection.install_whole (hunfilled part (by simp)) (hkeys part (by simp))
    have hrest : ∀ other ∈ rest, other.Unfilled (part.install decoded) := by
      intro other hmem
      have hne : other.tag ≠ part.tag := fun heq => htags.1 (heq ▸ List.mem_map_of_mem hmem)
      exact PayloadSection.unfilled_install hne (hunfilled other (by simp [hmem]))
    obtain ⟨hparts, hothers, hsum⟩ := ih htags.2 (fun other hmem => hkeys other (by simp [hmem])) hrest
    refine ⟨?_, ?_, ?_⟩
    · intro other hmem
      rcases List.mem_cons.mp hmem with rfl | hmem
      · exact hothers other htags.1 hinstalled
      · exact hparts other hmem
    · intro other hother hkept
      rw [List.map_cons, List.mem_cons, not_or] at hother
      exact hothers other hother.2 (PayloadSection.installedIn_install hother.1 hkept)
    · rw [List.foldl_cons, hsum, hrecords, List.map_cons, List.sum_cons, Nat.add_assoc]

/-- The bytes hold each of the nine sections once, no key twice in a section, and nothing else, and every section
and every record of them is in the candidate state. -/
def Strict (limits : ResourceLimits) (payload : List UInt8) (decoded : DecodedState) : Prop :=
  ∃ sections, HoldsSections limits payload sections ∧
    (∀ tag ∈ sectionTags, (sections.map PayloadSection.tag).count tag = 1) ∧
    (∀ part ∈ sections, part.KeysDistinct) ∧ (∀ part ∈ sections, part.InstalledIn decoded) ∧
    decoded.records = (sections.map PayloadSection.records).sum

/-- No section tag repeats in the bytes, and no record key repeats in a section. -/
def NeverRepeats (limits : ResourceLimits) (payload : List UInt8) : Prop :=
  ∀ sections, HoldsSections limits payload sections →
    (sections.map PayloadSection.tag).Nodup ∧ ∀ part ∈ sections, part.KeysDistinct

theorem HoldsSections.unique {limits : ResourceLimits} {payload : List UInt8} {sections others : List PayloadSection}
    (h : HoldsSections limits payload sections) (hothers : HoldsSections limits payload others) : sections = others := by
  obtain ⟨rest, hcount, hread⟩ := h
  obtain ⟨rest', hcount', hread'⟩ := hothers
  rw [hcount] at hcount'
  cases hcount'
  rw [hread] at hread'
  cases hread'
  rfl

/-- Nine sections with distinct tags are the nine sections. -/
theorem HoldsSections.tags {limits : ResourceLimits} {payload : List UInt8} {sections : List PayloadSection}
    (h : HoldsSections limits payload sections) (hnodup : (sections.map PayloadSection.tag).Nodup) :
    ∀ tag ∈ sectionTags, (sections.map PayloadSection.tag).count tag = 1 := by
  obtain ⟨rest, -, hread⟩ := h
  have hlength : (sections.map PayloadSection.tag).length = sectionTags.length := by
    rw [List.length_map, readMany_length hread]
    rfl
  have hsub : sections.map PayloadSection.tag ⊆ sectionTags := by
    intro tag hmem
    obtain ⟨part, -, rfl⟩ := List.mem_map.mp hmem
    exact part.tag_mem
  have hperm : (sections.map PayloadSection.tag).Perm sectionTags :=
    (hnodup.subperm hsub).perm_of_length_le (Nat.le_of_eq hlength.symm)
  intro tag hmem
  exact List.count_eq_one_of_mem hnodup (hperm.mem_iff.mpr hmem)

/-- An accepted payload is read strictly exactly when neither a section tag nor a record key repeats in it. -/
theorem payload_strict {limits : ResourceLimits} {path : Text} {payload : List UInt8} {decoded : DecodedState}
    (h : decodePayload limits path payload = .ok decoded) :
    Strict limits payload decoded ↔ NeverRepeats limits payload := by
  obtain ⟨sections, hsections, hdecoded⟩ := decodePayload_sections h
  constructor
  · rintro ⟨others, hothers, htags, hkeys, -, -⟩ found hfound
    rw [hfound.unique hothers]
    refine ⟨?_, hkeys⟩
    rw [List.nodup_iff_count_le_one]
    intro tag
    by_cases hmem : tag ∈ sectionTags
    · exact Nat.le_of_eq (htags tag hmem)
    · rw [List.count_eq_zero_of_not_mem]
      · exact Nat.zero_le 1
      · intro hin
        obtain ⟨part, -, rfl⟩ := List.mem_map.mp hin
        exact hmem part.tag_mem
  · intro hnever
    obtain ⟨htags, hkeys⟩ := hnever sections hsections
    have hunfilled : ∀ part ∈ sections, part.Unfilled ({} : DecodedState) := by
      intro part _
      cases part <;> first | exact trivial | rfl
    obtain ⟨hinstalled, -, hrecords⟩ := foldl_install htags hkeys hunfilled
    rw [← hdecoded] at hinstalled hrecords
    refine ⟨sections, hsections, hsections.tags htags, hkeys, hinstalled, ?_⟩
    rw [hrecords]
    exact Nat.zero_add _

namespace Sample

/-- Nine scheduler sections: the number nine, then the tag and sixty-six zero bytes nine times. -/
def repeatedSections : List UInt8 := leBytes32 9 ++ (List.replicate 9 (1 :: List.replicate 66 0)).flatten

/-- The nine sections without records, the policy all zero. -/
def emptySections : List UInt8 :=
  leBytes32 9 ++ (1 :: List.replicate 66 0) ++ (2 :: List.replicate 94 0) ++
    ([3, 4, 5, 6, 7, 8, 9] : List UInt8).flatMap fun tag => tag :: leBytes32 0

end Sample

set_option maxRecDepth 20000 in
theorem payload_strict_sample : ∃ decoded, decodePayload {} "" Sample.emptySections = .ok decoded ∧
    (Strict {} Sample.emptySections decoded ↔ NeverRepeats {} Sample.emptySections) := by
  have hok : (decodePayload {} "" Sample.emptySections).toBool = true := by decide +kernel
  cases h : decodePayload {} "" Sample.emptySections with
  | error error => rw [h] at hok; cases hok
  | ok decoded => exact ⟨decoded, rfl, payload_strict h⟩

set_option maxRecDepth 20000 in
/-- Nine scheduler sections are accepted: the policy and the fenced boots are silently defaulted. -/
theorem not_payload_strict : ¬∀ (limits : ResourceLimits) (path : Text) (payload : List UInt8) (decoded : DecodedState),
    decodePayload limits path payload = .ok decoded → Strict limits payload decoded := by
  intro hall
  have hok : (decodePayload {} "" Sample.repeatedSections).toBool = true := by decide +kernel
  have htags : (readMany (readTagged {}) 9 (Sample.repeatedSections.drop 4)).toOption.map
      (fun read => read.1.map PayloadSection.tag) = some (List.replicate 9 1) := by decide +kernel
  cases h : decodePayload {} "" Sample.repeatedSections with
  | error error => rw [h] at hok; cases hok
  | ok decoded =>
    obtain ⟨sections, ⟨rest, hcount, hread⟩, honce, -⟩ := hall {} "" _ decoded h
    have hrest : rest = Sample.repeatedSections.drop 4 := congrArg Prod.snd (Except.ok.inj hcount).symm
    rw [← hrest, hread] at htags
    have hpolicy := honce 2 (by decide)
    have htags : sections.map PayloadSection.tag = List.replicate 9 1 := Option.some.inj htags
    rw [htags] at hpolicy
    exact absurd hpolicy (by decide)

end AgentScheduler
