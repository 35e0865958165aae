import FormulaLayout.Formula.Fault
import FormulaLayout.Number.Binary

/-! Whole numbers beyond the floats. From the middle between the largest float and the next power
of two on there is no float to round to, and a conversion fails. -/
namespace FormulaLayout.Number

@[irreducible] def wholeLimit : Nat := Nat.pow 2 1024 - Nat.pow 2 970

def HoldsWhole (n : Int) : Prop := n.natAbs < wholeLimit

instance (n : Int) : Decidable (HoldsWhole n) := inferInstanceAs (Decidable (_ < _))

def toFloat (n : Int) : Except Undefined Float :=
  if HoldsWhole n then .ok (ofWhole n) else .error .tooLarge

theorem toFloat_of_holds {n : Int} (holds : HoldsWhole n) : toFloat n = .ok (ofWhole n) :=
  if_pos holds

theorem toFloat_uncaught (n : Int) (reason : Undefined) (failed : toFloat n = .error reason) :
    reason.caught = false := by
  unfold toFloat at failed
  split at failed <;> cases failed
  rfl

theorem toFloat_eq_ok_iff {n : Int} {x : Float} :
    toFloat n = .ok x ↔ HoldsWhole n ∧ ofWhole n = x := by
  unfold toFloat
  split <;> simp [*]

end FormulaLayout.Number
