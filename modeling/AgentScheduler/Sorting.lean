import AgentScheduler.Capability

/-! Sorted ranges: what sorting under a strict weak order leaves, and the order of byte strings. -/
namespace AgentScheduler
open Std

/-! ### Sorting under a strict weak order -/

/-- What `std::sort` requires of its comparator. -/
structure StrictWeakOrder {α : Type} (before : α → α → Bool) : Prop where
  asymm : ∀ left right, before left right → before right left = false
  trans : ∀ left middle right, before middle left = false → before right middle = false → before right left = false

section Sorting
variable {α β : Type} {before : α → α → Bool} {values : List α}

theorem perm_sortBy (before : α → α → Bool) (values : List α) : (sortBy before values).Perm values :=
  List.perm_insertionSort _ _

theorem mem_sortBy {value : α} : value ∈ sortBy before values ↔ value ∈ values := (perm_sortBy before values).mem_iff

/-- In a sorted range nothing comes before what stands in front of it. -/
theorem StrictWeakOrder.pairwise_sortBy (h : StrictWeakOrder before) (values : List α) :
    (sortBy before values).Pairwise fun left right => before right left = false := by
  let follows (left right : α) : Prop := (!before right left) = true
  have htotal : Std.Total follows := ⟨fun left right => by
    by_cases hbefore : before left right
    · left
      simp [follows, h.asymm left right hbefore]
    · right
      simpa [follows] using hbefore⟩
  have htrans : IsTrans α follows := ⟨fun left middle right hleft hright => by
    have hleft : before middle left = false := by simpa [follows] using hleft
    have hright : before right middle = false := by simpa [follows] using hright
    simpa [follows] using h.trans left middle right hleft hright⟩
  refine List.Pairwise.imp (fun hfollows => ?_) (List.pairwise_insertionSort follows values)
  simpa [follows] using hfollows

theorem StrictWeakOrder.on (h : StrictWeakOrder before) (key : β → α) :
    StrictWeakOrder fun left right => before (key left) (key right) :=
  ⟨fun left right => h.asymm (key left) (key right), fun left middle right => h.trans (key left) (key middle) (key right)⟩

/-- Where everything before a value precedes it and nothing after it does, its place is the number of what precedes it. -/
theorem idxOf_eq_countP [DecidableEq α] (hasymm : ∀ left right, before left right → before right left = false)
    (hsorted : values.Pairwise fun left right => before left right) {value : α} (hmem : value ∈ values) :
    values.idxOf value = values.countP fun other => before other value := by
  have hirrefl : before value value = false := by
    by_contra hbefore
    rw [Bool.not_eq_false] at hbefore
    rw [hasymm value value hbefore] at hbefore
    cases hbefore
  induction values with
  | nil => cases hmem
  | cons first rest ih =>
    obtain ⟨hfirst, hrest⟩ := List.pairwise_cons.mp hsorted
    by_cases heq : first = value
    · subst heq
      have hnone : rest.countP (fun other => before other first) = 0 := by
        refine List.countP_eq_zero.mpr fun other hother => ?_
        rw [hasymm first other (hfirst other hother)]
        exact Bool.false_ne_true
      rw [List.idxOf_cons_self, List.countP_cons, hirrefl, hnone]
      rfl
    · have hrest' : value ∈ rest := (List.mem_cons.mp hmem).resolve_left (Ne.symm heq)
      rw [List.idxOf_cons_ne _ heq, ih hrest hrest', List.countP_cons, hfirst value hrest']
      rfl

end Sorting

/-! ### Byte strings -/

namespace Text

theorem lt_asymm {left right : Text} (h : left < right) : ¬right < left := List.lt_asymm h

theorem lt_trans {left middle right : Text} (h : left < middle) (h' : middle < right) : left < right := List.lt_trans h h'

theorem lt_irrefl (text : Text) : ¬text < text := List.lt_irrefl text.bytes

theorem not_lt_trans {left middle right : Text} (h : ¬middle < left) (h' : ¬right < middle) : ¬right < left := by
  have hfirst : left.bytes ≤ middle.bytes := h
  have hsecond : middle.bytes ≤ right.bytes := h'
  exact List.le_trans hfirst hsecond

theorem eq_of_not_lt {left right : Text} (h : ¬left < right) (h' : ¬right < left) : left = right :=
  congrArg mk (List.le_antisymm h' h)

theorem strictWeakOrder : StrictWeakOrder fun left right : Text => decide (left < right) := by
  constructor
  · intro left right h
    rw [decide_eq_false_iff_not]
    exact lt_asymm (of_decide_eq_true h)
  · intro left middle right h h'
    rw [decide_eq_false_iff_not] at h h' ⊢
    exact not_lt_trans h h'

end Text

/-! ### Canonical profiles -/

/-- The evidence is sorted by name, each name once. -/
def CapabilityProfile.Sorted (profile : CapabilityProfile) : Prop :=
  profile.capabilities.Pairwise fun left right => left.name < right.name

/-- A sorted range without adjacent duplicates has none at all. -/
theorem pairwise_of_adjacentDuplicateName {capabilities : List CapabilityEvidence}
    (hsorted : capabilities.Pairwise fun left right => ¬right.name < left.name)
    (hunique : adjacentDuplicateName capabilities = none) : capabilities.Pairwise fun left right => left.name < right.name := by
  induction capabilities with
  | nil => exact .nil
  | cons first rest ih =>
    obtain ⟨hfirst, hrest⟩ := List.pairwise_cons.mp hsorted
    cases rest with
    | nil => exact List.pairwise_singleton _ _
    | cons second rest =>
      unfold adjacentDuplicateName at hunique
      split at hunique
      · cases hunique
      · next hne =>
        have hbelow : first.name < second.name := by
          by_contra hnot
          exact hne (Text.eq_of_not_lt hnot (hfirst second List.mem_cons_self))
        have htail := ih hrest hunique
        refine List.pairwise_cons.mpr ⟨fun other hmem => ?_, htail⟩
        rcases List.mem_cons.mp hmem with rfl | hmem
        · exact hbelow
        · exact Text.lt_trans hbelow ((List.pairwise_cons.mp htail).1 other hmem)

theorem CapabilityProfile.canonicalize_sorted {profile canonical : CapabilityProfile} {limits : ResourceLimits}
    (h : profile.canonicalize limits = .ok canonical) : canonical.Sorted := by
  unfold canonicalize at h
  simp only [check_bind_eq_ok] at h
  obtain ⟨-, -, -, -, h⟩ := h
  split at h
  · cases h
  · next hunique =>
    obtain rfl := Except.ok.inj h
    refine pairwise_of_adjacentDuplicateName ?_ hunique
    refine List.Pairwise.imp (fun hnot => ?_)
      ((Text.strictWeakOrder.on CapabilityEvidence.name).pairwise_sortBy profile.capabilities)
    exact of_decide_eq_false hnot

/-- The names alone decide whether a profile is sorted. -/
theorem CapabilityProfile.Sorted.of_names {profile profile' : CapabilityProfile} (h : profile.Sorted)
    (hnames : profile'.capabilities.map CapabilityEvidence.name = profile.capabilities.map CapabilityEvidence.name) :
    profile'.Sorted := by
  unfold Sorted at h ⊢
  rw [← List.pairwise_map] at h ⊢
  rwa [hnames]

/-- A name of a sorted profile stands for one piece of evidence. -/
theorem CapabilityProfile.Sorted.unique {profile : CapabilityProfile} (h : profile.Sorted) {left right : CapabilityEvidence}
    (hleft : left ∈ profile.capabilities) (hright : right ∈ profile.capabilities) (hname : left.name = right.name) :
    left = right := by
  have hdistinct : (profile.capabilities.map CapabilityEvidence.name).Nodup := by
    refine List.pairwise_map.mpr (List.Pairwise.imp (fun hlt => ?_) h)
    rintro heq
    exact Text.lt_irrefl _ (heq ▸ hlt)
  exact List.inj_on_of_nodup_map hdistinct hleft hright hname

/-- The lookup of a name returns evidence of that name. -/
theorem findCapability_eq_some {profile : CapabilityProfile} {name : Text} {evidence : CapabilityEvidence}
    (h : findCapability profile name = some evidence) : evidence ∈ profile.capabilities ∧ evidence.name = name := by
  unfold findCapability at h
  split at h
  · next found hfound =>
    split at h
    · next hname =>
      obtain rfl := Option.some.inj h
      exact ⟨List.mem_of_find?_eq_some hfound, hname⟩
    · cases h
  · cases h

end AgentScheduler
