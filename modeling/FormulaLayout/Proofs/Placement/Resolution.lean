import FormulaLayout.Placement.Free
import FormulaLayout.Proofs.Conversion
import FormulaLayout.Proofs.Evaluation

/-! Free placements axis by axis. Sizes are measured among the names of the canvas. Positions are
found among names that were added to these, which leaves every name of the canvas as it was. The
sides of the canvas become floats in any case, its origin does on both axes with the positions. -/
namespace FormulaLayout
open Number

instance decidableExistsOk {ε α : Type} {P : α → Prop} [DecidablePred P] :
    (outcome : Except ε α) → Decidable (∃ value, outcome = .ok value ∧ P value)
  | .error _ => isFalse (by simp)
  | .ok value => decidable_of_iff (P value) (by simp)

def PlacementText.position (text : PlacementText) : PerAxis (Option String) := ⟨text.x, text.y⟩

def PlacementText.size (text : PlacementText) : PerAxis (Option String) :=
  ⟨text.width, text.height⟩

namespace Environment

theorem read_withComponent (env : Environment) (width height : Option Float) {name : String}
    (base : name ∈ baseNames) :
    (env.withComponent width height).bindings.read name = env.bindings.read name := by
  have apart : ∀ name ∈ baseNames, name ∉ ["CENTERX", "WIDTH", "CENTERY", "HEIGHT"] := by decide
  simp only [Bindings.read, bindings_withComponent env width height (apart name base)]

end Environment

theorem Dimension.extent_eq_ok_iff {dimension : Dimension} {value extent : Float} {origin : Int} :
    dimension.extent value origin = .ok extent ↔
      if dimension.continuation then HoldsWhole origin ∧ value + ofWhole origin = extent
      else value = extent := by
  unfold Dimension.extent
  split
  · simp only [bind_eq_ok_iff, toFloat_eq_ok_iff, pure, Except.pure, Except.ok.injEq, and_assoc,
      exists_and_left, exists_eq_left']
  · rw [Except.ok.injEq]

theorem Dimension.exists_extent {origin : Int} (holds : HoldsWhole origin) (dimension : Dimension)
    (value : Float) : ∃ extent, dimension.extent value origin = .ok extent := by
  simp only [extent_eq_ok_iff, holds, true_and]
  split <;> exact ⟨_, rfl⟩

namespace FreePlacement

theorem start_eq_ok_iff {formula : Formula} {env : Environment} {origin pixel : Int} :
    start formula env origin = .ok pixel ↔ ∃ offset, formula.evaluate env.bindings = .ok offset ∧
      HoldsWhole origin ∧ roundPixel (ofWhole origin + offset) = pixel := by
  simp only [start, bind_eq_ok_iff, toFloat_eq_ok_iff, pure, Except.pure, Except.ok.injEq,
    and_assoc, exists_and_left, exists_eq_left']

theorem start_of_holds {origin : Int} (holds : HoldsWhole origin) (formula : Formula)
    (env : Environment) : start formula env origin =
      (formula.evaluate env.bindings).map fun offset => roundPixel (ofWhole origin + offset) := by
  rw [start, toFloat_of_holds holds]
  cases formula.evaluate env.bindings <;> rfl

def surroundings (placement : FreePlacement) (canvas : PixelRect) (extents : PerAxis Float) :
    Environment :=
  (Environment.ofCanvas canvas).withComponent (placement.size.x.known extents.x)
    (placement.size.y.known extents.y)

/-- How a rectangle comes about: extents first, then positions, then lengths. -/
structure Resolution (placement : FreePlacement) (canvas : PixelRect) (extents : PerAxis Float)
    (rect : PixelRect) : Prop where
  sides : ∀ axis, HoldsWhole (canvas.extent.get axis)
  sized : ∀ axis, ∃ value,
    (placement.size.get axis).formula.evaluate (Environment.ofCanvas canvas).bindings = .ok value ∧
      (placement.size.get axis).extent value (canvas.origin.get axis) = .ok (extents.get axis)
  starts : ∀ axis, start (placement.position.get axis) (placement.surroundings canvas extents)
    (canvas.origin.get axis) = .ok (rect.origin.get axis)
  lengths : ∀ axis, rect.extent.get axis =
    (placement.size.get axis).length (extents.get axis) (rect.origin.get axis)

theorem resolve_eq_ok_iff {placement : FreePlacement} {canvas rect : PixelRect} :
    placement.resolve canvas = .ok rect ↔ ∃ extents, placement.Resolution canvas extents rect := by
  simp only [resolve, bind_eq_ok_iff, Environment.forPixels_eq_ok_iff, pure, Except.pure,
    Except.ok.injEq]
  constructor
  · rintro ⟨_, ⟨sides, rfl⟩, w, foundX, h, foundY, width, sizedX, height, sizedY, x, startX, y,
      startY, rfl⟩
    refine ⟨⟨width, height⟩, sides, ?_, ?_, ?_⟩
    · intro axis
      cases axis with
      | x => exact ⟨w, foundX, sizedX⟩
      | y => exact ⟨h, foundY, sizedY⟩
    · intro axis
      cases axis with
      | x => exact startX
      | y => exact startY
    · intro axis
      cases axis <;> rfl
  · rintro ⟨⟨width, height⟩, sides, sized, starts, lengths⟩
    obtain ⟨w, foundX, sizedX⟩ := sized .x
    obtain ⟨h, foundY, sizedY⟩ := sized .y
    refine ⟨_, ⟨sides, rfl⟩, w, foundX, h, foundY, width, sizedX, height, sizedY, rect.x, starts .x,
      rect.y, starts .y, ?_⟩
    have spans : placement.size.x.length width rect.x = rect.width ∧
        placement.size.y.length height rect.y = rect.height :=
      ⟨(lengths .x).symm, (lengths .y).symm⟩
    rw [spans.1, spans.2]

theorem parse_eq_ok {text : PlacementText} {placement : FreePlacement}
    (parsed : parse text = .ok placement) (axis : Axis) :
    Formula.parse (text.position.get axis) [] = .ok (placement.position.get axis) ∧
      Dimension.parse (text.size.get axis) = .ok (placement.size.get axis) := by
  simp only [parse, bind_eq_ok_iff, pure, Except.pure, Except.ok.injEq] at parsed
  obtain ⟨x, positionX, y, positionY, width, sizeX, height, sizeY, rfl⟩ := parsed
  cases axis with
  | x => exact ⟨positionX, sizeX⟩
  | y => exact ⟨positionY, sizeY⟩

end FreePlacement
end FormulaLayout
