import FormulaLayout.Proofs.Placement.Scope

/-! Formulas and free placements with the axes exchanged. Each name that a container or a component
binds on one axis has a counterpart on the other, and the constants stay. A formula whose names are
exchanged has the same value among the names of the exchanged canvas, or lacks one because of the
counterpart of what was missing. A placement measures both sizes before it looks for both positions,
so which axis comes first decides only which reason is given where there is no rectangle. -/
namespace FormulaLayout
open Number

def counterparts : List (String × String) :=
  [("centerx", "centery"), ("centery", "centerx"), ("width", "height"), ("height", "width"),
    ("CENTERX", "CENTERY"), ("CENTERY", "CENTERX"), ("WIDTH", "HEIGHT"), ("HEIGHT", "WIDTH")]

def counterpart (name : String) : String := (counterparts.lookup name).getD name

theorem counterpart_of_notMem {name : String} (none : name ∉ counterparts.map Prod.fst) :
    counterpart name = name := by
  have absent : counterparts.lookup name = Option.none :=
    List.lookup_eq_none_iff.mpr fun entry listed => by
      have away : entry.1 ≠ name := fun same => none (same ▸ List.mem_map_of_mem listed)
      simpa using away.symm
  rw [counterpart, absent, Option.getD_none]

theorem counterpart_counterpart (name : String) : counterpart (counterpart name) = name := by
  by_cases listed : name ∈ counterparts.map Prod.fst
  · have all : ∀ name ∈ counterparts.map Prod.fst, counterpart (counterpart name) = name := by
      decide
    exact all name listed
  · rw [counterpart_of_notMem listed, counterpart_of_notMem listed]

theorem apply_counterpart {β : Type} (f : String → Option β)
    (absent : ∀ name ∈ counterparts.map Prod.fst, f name = none) (name : String) :
    f (counterpart name) = f name := by
  by_cases listed : name ∈ counterparts.map Prod.fst
  · have closed : ∀ name ∈ counterparts.map Prod.fst,
        counterpart name ∈ counterparts.map Prod.fst := by decide
    rw [absent name listed, absent _ (closed name listed)]
  · rw [counterpart_of_notMem listed]

/-- What lacks a value by one name lacks it by its counterpart. -/
def Undefined.transpose : Undefined → Undefined
  | unbound name => unbound (counterpart name)
  | hole => hole
  | tooLarge => tooLarge
  | halfTooLarge => halfTooLarge

namespace Bindings
variable {bindings mirrored : Bindings}

/-- The second bindings give to the counterpart of each name what the first give to the name. -/
def Mirrors (bindings mirrored : Bindings) : Prop :=
  ∀ name, mirrored (counterpart name) = bindings name

theorem Mirrors.read (mirrors : Mirrors bindings mirrored) (name : String) :
    mirrored.read (counterpart name) = (bindings.read name).mapError Undefined.transpose := by
  have constant := apply_counterpart (fun name => constants.lookup name) (by decide) name
  unfold Bindings.read
  rw [mirrors name, constant]
  cases bindings name with
  | some value => rfl
  | none => cases constants.lookup name <;> rfl

theorem Mirrors.assign (mirrors : Mirrors bindings mirrored) (target : String) (value : Float) :
    Mirrors (bindings.assign target value) (mirrored.assign (counterpart target) value) := by
  intro name
  have same : counterpart name = counterpart target ↔ name = target :=
    ⟨fun h => by rw [← counterpart_counterpart name, h, counterpart_counterpart], fun h => by rw [h]⟩
  simp only [Bindings.assign, same, mirrors name]

theorem Mirrors.withSize (mirrors : Mirrors bindings mirrored) (centre extent : String)
    (container : Float) (size : Option Float) :
    Mirrors (bindings.withSize centre extent container size)
      (mirrored.withSize (counterpart centre) (counterpart extent) container size) := by
  cases size with
  | none => exact mirrors
  | some size => exact (mirrors.assign centre _).assign extent size

end Bindings

namespace Formula

def transpose : Formula → Formula
  | literal value => literal value
  | name text => name (counterpart text)
  | negate operand => negate operand.transpose
  | binary operator left right => binary operator left.transpose right.transpose
  | call function operand => call function operand.transpose
  | extremum function left right => extremum function left.transpose right.transpose
  | hole => hole

theorem Over.transpose {f : Formula} (leaves : f.Over (baseNames ++ extendedNames)) :
    f.transpose.Over (baseNames ++ extendedNames) := by
  have listed : ∀ name ∈ baseNames ++ extendedNames,
      counterpart name ∈ baseNames ++ extendedNames := by decide
  induction leaves with
  | literal value => exact .literal value
  | name known => exact .name (listed _ known)
  | negate _ ih => exact .negate ih
  | binary operator _ _ ih ih' => exact .binary operator ih ih'
  | call function _ ih => exact .call function ih
  | extremum function _ _ ih ih' => exact .extremum function ih ih'

end Formula

namespace Environment

end Environment

def PixelRect.transpose (rect : PixelRect) : PixelRect :=
  ⟨rect.y, rect.x, rect.height, rect.width⟩

theorem PixelRect.origin_transpose (rect : PixelRect) : rect.transpose.origin = rect.origin.swap :=
  rfl

theorem PixelRect.extent_transpose (rect : PixelRect) : rect.transpose.extent = rect.extent.swap :=
  rfl

def Dimension.transpose (dimension : Dimension) : Dimension :=
  { dimension with formula := dimension.formula.transpose }

namespace FreePlacement

def transpose (placement : FreePlacement) : FreePlacement :=
  ⟨placement.position.swap.map Formula.transpose, placement.size.swap.map Dimension.transpose⟩

theorem get_position_transpose (placement : FreePlacement) (axis : Axis) :
    placement.transpose.position.get axis = (placement.position.get axis.other).transpose := by
  cases axis <;> rfl

theorem get_size_transpose (placement : FreePlacement) (axis : Axis) :
    placement.transpose.size.get axis = (placement.size.get axis.other).transpose := by
  cases axis <;> rfl

theorem Known.transpose {placement : FreePlacement} (known : placement.Known) :
    placement.transpose.Known := by
  intro axis
  rw [get_size_transpose, get_position_transpose]
  exact ⟨(known axis.other).1.transpose, (known axis.other).2.transpose⟩

end FreePlacement
end FormulaLayout
