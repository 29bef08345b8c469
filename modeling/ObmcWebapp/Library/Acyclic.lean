/-
# Relations without cycles below an element

Descent along a relation ends below an element exactly when nothing below the element
leads back to itself, provided only finitely many elements are below it. One direction
needs no finiteness.
-/

import Mathlib.Order.WellFoundedSet
import Mathlib.Tactic

namespace Relation

variable {α : Type*} {r : α → α → Prop} {top : α}

/-- Nothing that leads to the element leads back to itself. -/
def AcyclicBelow (r : α → α → Prop) (top : α) : Prop :=
  ∀ below, ReflTransGen r below top → ¬TransGen r below below

/-- Where descent ends nothing leads back to itself. -/
theorem not_transGen_self_of_acc (hacc : Acc r top) : ¬TransGen r top top := by
  rw [← acc_transGen_iff] at hacc
  induction hacc with
  | intro element _ ih => exact fun hcycle => ih element hcycle hcycle

theorem acc_iff_acyclicBelow (hfinite : {below | TransGen r below top}.Finite) :
    Acc r top ↔ AcyclicBelow r top := by
  constructor
  · intro hacc below hbelow
    rcases reflTransGen_iff_eq_or_transGen.mp hbelow with rfl | hproper
    · exact not_transGen_self_of_acc hacc
    · exact not_transGen_self_of_acc (hacc.inv_of_transGen hproper)
  · intro hacyclic
    -- the closure is a strict order on the finitely many elements below
    let order : {below | TransGen r below top} → {below | TransGen r below top} → Prop :=
      fun lower upper => TransGen r lower upper
    have : Finite {below | TransGen r below top} := hfinite
    have : IsTrans _ order := ⟨fun _ _ _ hlower hupper => TransGen.trans hlower hupper⟩
    have : Std.Irrefl order := ⟨fun below hcycle => hacyclic below below.2.to_reflTransGen hcycle⟩
    have hwellFounded : WellFounded order := Finite.wellFounded_of_trans_of_irrefl order
    have hsteps : Subrelation (Subrel r fun below => TransGen r below top) order :=
      fun hstep => TransGen.single hstep
    apply (Set.WellFoundedOn.acc_iff_wellFoundedOn.out 0 2).mpr
    exact Subrelation.wf hsteps hwellFounded

end Relation
