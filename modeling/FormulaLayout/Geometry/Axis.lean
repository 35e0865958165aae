import FormulaLayout.Text.Quoted

/-! The two axes, and pairs with a part for each. -/
namespace FormulaLayout

inductive Axis where
  | x | y
deriving DecidableEq, Repr

structure UnknownAxis where
  text : String
deriving DecidableEq, Repr

def UnknownAxis.message (error : UnknownAxis) : String :=
  s!"{Text.quoted error.text} is not a valid Axis"

namespace Axis

def ofText : String → Except UnknownAxis Axis
  | "x" => .ok x
  | "y" => .ok y
  | text => .error ⟨text⟩

def other : Axis → Axis
  | x => y
  | y => x

theorem eq_other_of_ne {axis axis' : Axis} (apart : axis' ≠ axis) : axis' = axis.other := by
  revert apart
  cases axis <;> cases axis' <;> decide

theorem forall_iff {P : Axis → Prop} : (∀ axis, P axis) ↔ P x ∧ P y :=
  ⟨fun all => ⟨all x, all y⟩, fun both axis => match axis with
    | x => both.1
    | y => both.2⟩

end Axis

structure PerAxis (α : Type) where
  x : α
  y : α
deriving DecidableEq, Repr

namespace PerAxis
variable {α β : Type}

def both (value : α) : PerAxis α := ⟨value, value⟩

def get (pair : PerAxis α) : Axis → α
  | .x => pair.x
  | .y => pair.y

def set (pair : PerAxis α) (axis : Axis) (value : α) : PerAxis α :=
  match axis with
  | .x => { pair with x := value }
  | .y => { pair with y := value }

def map (f : α → β) (pair : PerAxis α) : PerAxis β := ⟨f pair.x, f pair.y⟩

def swap (pair : PerAxis α) : PerAxis α := ⟨pair.y, pair.x⟩

theorem get_set (pair : PerAxis α) (axis axis' : Axis) (value : α) :
    (pair.set axis value).get axis' = if axis = axis' then value else pair.get axis' := by
  cases axis <;> cases axis' <;> rfl

@[simp] theorem get_swap (pair : PerAxis α) (axis : Axis) :
    pair.swap.get axis = pair.get axis.other := by
  cases axis <;> rfl

@[simp] theorem get_both (value : α) (axis : Axis) : (both value).get axis = value := by
  cases axis <;> rfl

end PerAxis
end FormulaLayout
