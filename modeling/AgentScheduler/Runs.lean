import Mathlib.Logic.Relation

/-! Runs of a step relation: what every step keeps, and what relates the two ends of a run. -/
namespace Runs
open Relation

variable {State : Type*} {step : State → State → Prop} {motive : State → Prop} {start finish : State}

/-- What every step keeps holds at the end of a run. -/
theorem keeps (hstep : ∀ s s', step s s' → motive s → motive s') (hrun : ReflTransGen step start finish)
    (hstart : motive start) : motive finish := by
  induction hrun with
  | refl => exact hstart
  | tail _ hlast ih => exact hstep _ _ hlast ih

/-- A preorder that every step from an motive state respects relates the ends of a run. -/
theorem relates {r : State → State → Prop} (hrefl : ∀ s, r s s)
    (htrans : ∀ s s' s'', r s s' → r s' s'' → r s s'')
    (hkeeps : ∀ s s', step s s' → motive s → motive s')
    (hstep : ∀ s s', step s s' → motive s → r s s') (hrun : ReflTransGen step start finish)
    (hstart : motive start) : r start finish := by
  induction hrun with
  | refl => exact hrefl start
  | tail hbefore hlast ih => exact htrans _ _ _ ih (hstep _ _ hlast (keeps hkeeps hbefore hstart))

end Runs
