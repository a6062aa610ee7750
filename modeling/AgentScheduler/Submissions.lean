import AgentScheduler.Sorting
import AgentScheduler.Work

/-! Canonical forms of work requests: what a submission says, and one form for all ways to say it. -/
namespace AgentScheduler
open Std

/-! ### Sorted ranges without duplicates -/

section Unique
variable {α : Type} [DecidableEq α] {before : α → α → Bool}

theorem mem_uniqueAfter (kept : α) (values : List α) (value : α) :
    value ∈ uniqueAfter kept values ↔ value = kept ∨ value ∈ values := by
  induction values generalizing kept with
  | nil => simp [uniqueAfter]
  | cons next rest ih =>
    simp only [uniqueAfter]
    split
    next heq =>
      rw [ih, heq, List.mem_cons]
      tauto
    next hne => rw [List.mem_cons, ih, List.mem_cons]

theorem mem_uniqueAdjacent (values : List α) (value : α) : value ∈ uniqueAdjacent values ↔ value ∈ values := by
  cases values with
  | nil => rfl
  | cons first rest => rw [uniqueAdjacent, mem_uniqueAfter, List.mem_cons]

/-- An order in which only equal values are on a par. -/
structure LinearBefore (before : α → α → Bool) : Prop extends StrictWeakOrder before where
  eq_of_not : ∀ left right, before left right = false → before right left = false → left = right

omit [DecidableEq α] in
theorem LinearBefore.irrefl (h : LinearBefore before) (value : α) : before value value = false := by
  by_contra hbefore
  rw [Bool.not_eq_false] at hbefore
  rw [h.asymm value value hbefore] at hbefore
  cases hbefore

theorem LinearBefore.pairwise_uniqueAfter (h : LinearBefore before) {kept : α} {values : List α}
    (hsorted : (kept :: values).Pairwise fun left right => before right left = false) :
    (uniqueAfter kept values).Pairwise fun left right => before left right = true := by
  induction values generalizing kept with
  | nil => exact List.pairwise_singleton _ _
  | cons next rest ih =>
    obtain ⟨hkept, hrest⟩ := List.pairwise_cons.mp hsorted
    simp only [uniqueAfter]
    split
    next heq => exact ih (heq ▸ hrest)
    next hne =>
      have hnext : before kept next = true := by
        by_contra hnot
        rw [Bool.not_eq_true] at hnot
        exact hne (h.eq_of_not kept next hnot (hkept next List.mem_cons_self))
      refine List.pairwise_cons.mpr ⟨fun value hvalue => ?_, ih hrest⟩
      by_contra hnot
      rw [Bool.not_eq_true] at hnot
      rcases (mem_uniqueAfter next rest value).mp hvalue with rfl | hmem
      · rw [hnext] at hnot
        cases hnot
      · -- the value is on a par with the one kept and with the next one, which differ
        have hequal := h.eq_of_not kept value hnot (hkept value (List.mem_cons_of_mem _ hmem))
        subst hequal
        rw [(List.pairwise_cons.mp hrest).1 kept hmem] at hnext
        cases hnext

/-- Sorting and dropping duplicates leaves a strictly ascending range. -/
theorem LinearBefore.pairwise_canonical (h : LinearBefore before) (values : List α) :
    (uniqueAdjacent (sortBy before values)).Pairwise fun left right => before left right = true := by
  have hsorted := h.toStrictWeakOrder.pairwise_sortBy values
  cases hvalues : sortBy before values with
  | nil => exact .nil
  | cons first rest =>
    rw [hvalues] at hsorted
    exact h.pairwise_uniqueAfter hsorted

theorem mem_canonical (values : List α) (value : α) :
    value ∈ uniqueAdjacent (sortBy before values) ↔ value ∈ values := by
  rw [mem_uniqueAdjacent, mem_sortBy]

omit [DecidableEq α] in
/-- Two strictly ascending ranges of the same values are equal. -/
theorem LinearBefore.eq_of_mem_iff (h : LinearBefore before) {left right : List α}
    (hleft : left.Pairwise fun a b => before a b = true) (hright : right.Pairwise fun a b => before a b = true)
    (hsame : ∀ value, value ∈ left ↔ value ∈ right) : left = right := by
  have hnodup {values : List α} (hvalues : values.Pairwise fun a b => before a b = true) : values.Nodup := by
    refine hvalues.imp fun hbefore heq => ?_
    rw [heq, h.irrefl] at hbefore
    cases hbefore
  have hperm : left.Perm right := (List.perm_ext_iff_of_nodup (hnodup hleft) (hnodup hright)).mpr hsame
  refine hperm.eq_of_pairwise (fun a b _ _ hab hba => ?_) hleft hright
  rw [h.asymm a b hab] at hba
  cases hba

/-- The canonical range depends on the values only. -/
theorem LinearBefore.canonical_eq (h : LinearBefore before) {left right : List α}
    (hsame : ∀ value, value ∈ left ↔ value ∈ right) :
    uniqueAdjacent (sortBy before left) = uniqueAdjacent (sortBy before right) := by
  refine h.eq_of_mem_iff (h.pairwise_canonical left) (h.pairwise_canonical right) fun value => ?_
  rw [mem_canonical, mem_canonical, hsame]

theorem LinearBefore.canonical_idempotent (h : LinearBefore before) (values : List α) :
    uniqueAdjacent (sortBy before (uniqueAdjacent (sortBy before values))) = uniqueAdjacent (sortBy before values) :=
  h.canonical_eq fun value => mem_canonical values value

end Unique

theorem Text.linearBefore : LinearBefore fun left right : Text => decide (left < right) where
  toStrictWeakOrder := Text.strictWeakOrder
  eq_of_not _ _ hleft hright := Text.eq_of_not_lt (of_decide_eq_false hleft) (of_decide_eq_false hright)

theorem agentBefore : LinearBefore fun left right : AgentId => decide (left < right) where
  asymm left right h := by
    rw [decide_eq_false_iff_not]
    exact UInt64.lt_asymm (of_decide_eq_true h)
  trans left middle right h h' := by
    rw [decide_eq_false_iff_not] at h h' ⊢
    rw [StrongId.lt_iff, UInt64.not_lt] at h h' ⊢
    exact UInt64.le_trans h h'
  eq_of_not left right hleft hright := by
    rw [decide_eq_false_iff_not, StrongId.lt_iff, UInt64.not_lt] at hleft hright
    cases left
    cases right
    exact congrArg StrongId.mk (UInt64.le_antisymm hright hleft)

/-! ### Requirements -/

theorem sortBy_sorted {α : Type} {before : α → α → Bool} {values : List α}
    (hsorted : values.Pairwise fun left right => before right left = false) : sortBy before values = values := by
  refine List.Pairwise.insertionSort_eq (hsorted.imp fun h => ?_)
  rw [h]
  rfl

theorem requirementBefore_strictWeakOrder : StrictWeakOrder requirementBefore := by
  constructor
  · intro left right h
    simp only [requirementBefore] at h ⊢
    split at h
    next hname =>
      rw [if_pos (Ne.symm hname), decide_eq_false_iff_not]
      exact Text.lt_asymm (of_decide_eq_true h)
    next hname =>
      rw [if_neg (fun hne => hname (Ne.symm hne)), decide_eq_false_iff_not]
      exact UInt8.lt_asymm (of_decide_eq_true h)
  · intro left middle right h h'
    simp only [requirementBefore] at h h' ⊢
    by_cases hfirst : left.name = middle.name
    · by_cases hsecond : middle.name = right.name
      · rw [if_neg (by simp [hfirst]), decide_eq_false_iff_not, UInt8.not_lt] at h
        rw [if_neg (by simp [hsecond]), decide_eq_false_iff_not, UInt8.not_lt] at h'
        rw [if_neg (by simp [hfirst, hsecond]), decide_eq_false_iff_not, UInt8.not_lt]
        exact UInt8.le_trans h h'
      · rw [if_pos (Ne.symm hsecond)] at h'
        rw [if_pos (by rw [hfirst]; exact Ne.symm hsecond), hfirst]
        exact h'
    · rw [if_pos (Ne.symm hfirst), decide_eq_false_iff_not] at h
      by_cases hsecond : middle.name = right.name
      · rw [if_pos (by rw [← hsecond]; exact Ne.symm hfirst), ← hsecond, decide_eq_false_iff_not]
        exact h
      · rw [if_pos (Ne.symm hsecond), decide_eq_false_iff_not] at h'
        have hlast : ¬right.name < left.name := Text.not_lt_trans h h'
        have hne : right.name ≠ left.name := by
          intro heq
          rw [heq] at h'
          exact hfirst (Text.eq_of_not_lt h' h)
        rw [if_pos hne, decide_eq_false_iff_not]
        exact hlast

/-- Requirements on a par have one name. -/
theorem name_of_requirementBefore {left right : CapabilityRequirement} (hleft : requirementBefore left right = false)
    (hright : requirementBefore right left = false) : left.name = right.name := by
  by_contra hne
  simp only [requirementBefore] at hleft hright
  rw [if_pos hne, decide_eq_false_iff_not] at hleft
  rw [if_pos (Ne.symm hne), decide_eq_false_iff_not] at hright
  exact hne (Text.eq_of_not_lt hleft hright)

/-- Requirements of distinct names are sorted in one way. -/
theorem sortBy_requirements {left right : List CapabilityRequirement} (hperm : left.Perm right)
    (hnames : (left.map CapabilityRequirement.name).Nodup) :
    sortBy requirementBefore left = sortBy requirementBefore right := by
  have hsame : (sortBy requirementBefore left).Perm (sortBy requirementBefore right) :=
    (perm_sortBy _ left).trans (hperm.trans (perm_sortBy _ right).symm)
  refine hsame.eq_of_pairwise (fun a b ha hb hab hba => ?_)
    (requirementBefore_strictWeakOrder.pairwise_sortBy left) (requirementBefore_strictWeakOrder.pairwise_sortBy right)
  have ha : a ∈ left := mem_sortBy.mp ha
  have hb : b ∈ left := hperm.mem_iff.mpr (mem_sortBy.mp hb)
  exact List.inj_on_of_nodup_map hnames ha hb (name_of_requirementBefore hba hab)

/-- A sorted range without adjacent duplicates has none. -/
theorem nodup_of_adjacent {values : List Text} (hsorted : values.Pairwise fun left right => ¬right < left)
    (hunique : hasAdjacentDuplicate values = false) : values.Nodup := by
  induction values with
  | nil => exact .nil
  | cons first rest ih =>
    obtain ⟨hfirst, hrest⟩ := List.pairwise_cons.mp hsorted
    cases rest with
    | nil => exact List.nodup_singleton _
    | cons second rest =>
      simp only [hasAdjacentDuplicate, Bool.or_eq_false_iff, decide_eq_false_iff_not] at hunique
      refine List.nodup_cons.mpr ⟨fun hmem => ?_, ih hrest hunique.2⟩
      -- a later copy of the first would stand after the second, which is greater
      rcases List.mem_cons.mp hmem with heq | hlater
      · exact hunique.1 heq
      · have hsecond := (List.pairwise_cons.mp hrest).1 first hlater
        exact hunique.1 (Text.eq_of_not_lt hsecond (hfirst second List.mem_cons_self))

theorem nodup_of_canonicalizeUnique {names : List Text} (h : canonicalizeUnique names) : names.Nodup := by
  rw [canonicalizeUnique, Bool.not_eq_true'] at h
  have hsorted : (sortBy (fun left right => decide (left < right)) names).Pairwise fun left right => ¬right < left :=
    (Text.strictWeakOrder.pairwise_sortBy names).imp fun h => of_decide_eq_false h
  exact (perm_sortBy _ names).nodup_iff.mp (nodup_of_adjacent hsorted h)

theorem canonicalizeUnique_of_nodup {names : List Text} (h : names.Nodup) : canonicalizeUnique names := by
  have hadjacent {values : List Text} (hvalues : values.Nodup) : hasAdjacentDuplicate values = false := by
    induction values with
    | nil => rfl
    | cons first rest ih =>
      cases rest with
      | nil => rfl
      | cons second rest =>
        obtain ⟨hfirst, hrest⟩ := List.nodup_cons.mp hvalues
        rw [hasAdjacentDuplicate, ih hrest, Bool.or_false, decide_eq_false_iff_not]
        exact fun heq => hfirst (heq ▸ List.mem_cons_self)
  rw [canonicalizeUnique, hadjacent ((perm_sortBy _ names).nodup_iff.mpr h)]
  rfl

/-! ### Requests -/

namespace WorkRequest

/-- A request without the lists that `canonicalize` puts in order. -/
def frame (request : WorkRequest) : WorkRequest :=
  { request with
    requirements :=
      { request.requirements with
        capabilities := []
        requiredPolicyLabels := []
        affinity := []
        antiAffinity := []
        warmStateKeys := [] } }

/-- Two ways to say one submission: the requirements in another order, the other lists with the same elements. -/
structure Variant (left right : WorkRequest) : Prop where
  frame : left.frame = right.frame
  capabilities : left.requirements.capabilities.Perm right.requirements.capabilities
  policyLabels : ∀ label, label ∈ left.requirements.requiredPolicyLabels ↔ label ∈ right.requirements.requiredPolicyLabels
  affinity : ∀ agent, agent ∈ left.requirements.affinity ↔ agent ∈ right.requirements.affinity
  antiAffinity : ∀ agent, agent ∈ left.requirements.antiAffinity ↔ agent ∈ right.requirements.antiAffinity
  warmStateKeys : ∀ key, key ∈ left.requirements.warmStateKeys ↔ key ∈ right.requirements.warmStateKeys

variable {left right request : WorkRequest}

theorem Variant.symm (h : left.Variant right) : right.Variant left where
  frame := h.frame.symm
  capabilities := h.capabilities.symm
  policyLabels label := (h.policyLabels label).symm
  affinity agent := (h.affinity agent).symm
  antiAffinity agent := (h.antiAffinity agent).symm
  warmStateKeys key := (h.warmStateKeys key).symm

/-- A request is a variant of its canonical form. -/
theorem variant_canonicalize (request : WorkRequest) : request.Variant request.canonicalize where
  frame := rfl
  capabilities := (perm_sortBy _ _).symm
  policyLabels label := (mem_canonical _ label).symm
  affinity agent := (mem_canonical _ agent).symm
  antiAffinity agent := (mem_canonical _ agent).symm
  warmStateKeys key := (mem_canonical _ key).symm

theorem Variant.identity (h : left.Variant right) : left.id = right.id ∧ left.generation = right.generation := by
  have hid := congrArg WorkRequest.id h.frame
  have hgeneration := congrArg WorkRequest.generation h.frame
  exact ⟨hid, hgeneration⟩

/-- Requests are determined by their frame and the lists. -/
theorem ext_frame (hframe : left.frame = right.frame)
    (hcapabilities : left.requirements.capabilities = right.requirements.capabilities)
    (hlabels : left.requirements.requiredPolicyLabels = right.requirements.requiredPolicyLabels)
    (haffinity : left.requirements.affinity = right.requirements.affinity)
    (hantiAffinity : left.requirements.antiAffinity = right.requirements.antiAffinity)
    (hkeys : left.requirements.warmStateKeys = right.requirements.warmStateKeys) : left = right := by
  let fill (frame : WorkRequest) (capabilities : List CapabilityRequirement) (requiredPolicyLabels : List Text)
      (affinity antiAffinity : List AgentId) (warmStateKeys : List Text) : WorkRequest :=
    { frame with
      requirements :=
        { frame.requirements with capabilities, requiredPolicyLabels, affinity, antiAffinity, warmStateKeys } }
  calc left = fill left.frame left.requirements.capabilities left.requirements.requiredPolicyLabels
        left.requirements.affinity left.requirements.antiAffinity left.requirements.warmStateKeys := rfl
    _ = fill right.frame right.requirements.capabilities right.requirements.requiredPolicyLabels
        right.requirements.affinity right.requirements.antiAffinity right.requirements.warmStateKeys := by
      rw [hframe, hcapabilities, hlabels, haffinity, hantiAffinity, hkeys]
    _ = right := rfl

/-- The names of the requirements are distinct. -/
def DistinctNames (request : WorkRequest) : Prop :=
  (request.requirements.capabilities.map CapabilityRequirement.name).Nodup

/-- Variants with distinct requirement names have one canonical form. -/
theorem Variant.canonicalize_eq (h : left.Variant right) (hnames : left.DistinctNames) :
    left.canonicalize = right.canonicalize :=
  ext_frame h.frame (sortBy_requirements h.capabilities hnames) (Text.linearBefore.canonical_eq h.policyLabels)
    (agentBefore.canonical_eq h.affinity) (agentBefore.canonical_eq h.antiAffinity)
    (Text.linearBefore.canonical_eq h.warmStateKeys)

/-- The canonical form is its own canonical form. -/
theorem canonicalize_canonicalize (request : WorkRequest) : request.canonicalize.canonicalize = request.canonicalize :=
  ext_frame rfl (sortBy_sorted (requirementBefore_strictWeakOrder.pairwise_sortBy _))
    (Text.linearBefore.canonical_idempotent _) (agentBefore.canonical_idempotent _)
    (agentBefore.canonical_idempotent _) (Text.linearBefore.canonical_idempotent _)

/-! ### Valid requests -/

/-- `submit_work` validates the canonical form. -/
def Admissible (request : WorkRequest) (limits : ResourceLimits) : Prop := request.canonicalize.validate limits = .ok ()

theorem distinctNames_of_validate {limits : ResourceLimits} (h : request.validate limits = .ok ()) :
    request.DistinctNames := by
  unfold validate at h
  simp only [check_bind_eq_ok, rejectIf_eq_ok, not_not] at h
  obtain ⟨-, -, -, -, -, -, -, -, -, -, -, -, -, hunique, -⟩ := h
  exact nodup_of_canonicalizeUnique hunique

theorem Admissible.distinctNames {limits : ResourceLimits} (h : request.Admissible limits) : request.DistinctNames := by
  have hnames := distinctNames_of_validate h
  exact (((perm_sortBy _ _).map _).nodup_iff).mp hnames

/-- Dropping duplicates makes no range longer. -/
theorem length_uniqueAfter {α : Type} [DecidableEq α] (kept : α) (values : List α) :
    (uniqueAfter kept values).length ≤ values.length + 1 := by
  induction values generalizing kept with
  | nil => simp [uniqueAfter]
  | cons next rest ih =>
    simp only [uniqueAfter]
    split
    · have := ih kept
      rw [List.length_cons]
      omega
    · have := ih next
      rw [List.length_cons, List.length_cons]
      omega

theorem length_canonical {α : Type} [DecidableEq α] (before : α → α → Bool) (values : List α) :
    (uniqueAdjacent (sortBy before values)).length ≤ values.length := by
  have hlength : (sortBy before values).length = values.length := (perm_sortBy before values).length_eq
  cases hvalues : sortBy before values with
  | nil => simp [uniqueAdjacent]
  | cons first rest =>
    rw [hvalues, List.length_cons] at hlength
    rw [uniqueAdjacent]
    exact (length_uniqueAfter first rest).trans (by omega)

/-- A request that is valid as it stands is admissible. -/
theorem admissible_of_validate {limits : ResourceLimits} (h : request.validate limits = .ok ()) :
    request.Admissible limits := by
  have hnames := distinctNames_of_validate h
  unfold Admissible
  unfold validate at h ⊢
  simp only [check_bind_eq_ok, rejectIf_eq_ok, forM_eq_ok, not_not, not_or, Nat.not_lt] at h ⊢
  obtain ⟨hid, hgeneration, hqueue, hqueueGeneration, hpriority, hmode, hparallel, hperAgent, hclass, hkind, hpayload,
    hcapabilityCount, hcapabilities, -, hlabelCount, hlabels, haffinityCount, hconflict, hkeyCount, hkeys⟩ := h
  refine ⟨hid, hgeneration, hqueue, hqueueGeneration, hpriority, hmode, hparallel, hperAgent, hclass, hkind, hpayload,
    ?_, ?_, ?_, ?_, ?_, ?_, ?_, ?_, ?_⟩
  · exact (perm_sortBy _ _).length_eq.trans_le hcapabilityCount
  · exact fun requirement hmem => hcapabilities requirement (mem_sortBy.mp hmem)
  · exact canonicalizeUnique_of_nodup ((((perm_sortBy _ _).map _).nodup_iff).mpr hnames)
  · exact (length_canonical _ _).trans hlabelCount
  · exact fun label hmem => hlabels label ((mem_canonical _ label).mp hmem)
  · exact ⟨(length_canonical _ _).trans haffinityCount.1, (length_canonical _ _).trans haffinityCount.2⟩
  · simp only [List.any_eq_true, List.contains_iff_mem, not_exists, not_and] at hconflict ⊢
    intro agent hanti haffinity
    exact hconflict agent ((mem_canonical _ agent).mp hanti) ((mem_canonical _ agent).mp haffinity)
  · exact (length_canonical _ _).trans hkeyCount
  · exact fun key hmem => hkeys key ((mem_canonical _ key).mp hmem)

end WorkRequest

end AgentScheduler
