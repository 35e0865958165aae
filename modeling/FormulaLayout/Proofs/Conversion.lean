import FormulaLayout.Environment
import FormulaLayout.Geometry.Pixel

/-! The numbers of a rectangle as floats. Of the sides of a container there are floats, or there is
no environment at all, and what is missing then is no name. -/
namespace FormulaLayout
open Number

theorem bind_eq_ok_iff {ε α β : Type} {first : Except ε α} {next : α → Except ε β} {result : β} :
    first >>= next = .ok result ↔ ∃ value, first = .ok value ∧ next value = .ok result := by
  cases first with
  | error reason => simp [bind, Except.bind]
  | ok value => simp [bind, Except.bind]

def PixelRect.HoldsOn (rect : PixelRect) (axis : Axis) : Prop :=
  HoldsWhole (rect.origin.get axis) ∧ HoldsWhole (rect.extent.get axis)

instance (rect : PixelRect) (axis : Axis) : Decidable (rect.HoldsOn axis) :=
  inferInstanceAs (Decidable (_ ∧ _))

namespace Environment

def ofCanvas (canvas : PixelRect) : Environment :=
  forContainer (ofWhole canvas.width) (ofWhole canvas.height)

theorem forPixels_of_sides {canvas : PixelRect}
    (sides : ∀ axis, HoldsWhole (canvas.extent.get axis)) :
    forPixels canvas.width canvas.height = .ok (ofCanvas canvas) := by
  have width : HoldsWhole canvas.width := sides .x
  have height : HoldsWhole canvas.height := sides .y
  have inside : ¬2 * wholeLimit ≤ max canvas.width.natAbs canvas.height.natAbs := by
    simp only [HoldsWhole] at width height
    omega
  rw [forPixels, if_neg inside, toFloat_of_holds width, toFloat_of_holds height]
  rfl

theorem forPixels_beyond {canvas : PixelRect}
    (beyond : ¬∀ axis, HoldsWhole (canvas.extent.get axis)) :
    ∃ reason, forPixels canvas.width canvas.height = .error reason ∧ reason.caught = false := by
  by_cases twice : 2 * wholeLimit ≤ max canvas.width.natAbs canvas.height.natAbs
  · exact ⟨_, if_pos twice, rfl⟩
  · rw [forPixels, if_neg twice]
    by_cases width : HoldsWhole canvas.width
    · have height : ¬HoldsWhole canvas.height := fun height =>
        beyond (Axis.forall_iff.mpr ⟨width, height⟩)
      rw [toFloat_of_holds width, toFloat, if_neg height]
      exact ⟨_, rfl, rfl⟩
    · rw [toFloat, if_neg width]
      exact ⟨_, rfl, rfl⟩

theorem forPixels_eq_ok_iff {canvas : PixelRect} {env : Environment} :
    forPixels canvas.width canvas.height = .ok env ↔
      (∀ axis, HoldsWhole (canvas.extent.get axis)) ∧ ofCanvas canvas = env := by
  by_cases sides : ∀ axis, HoldsWhole (canvas.extent.get axis)
  · rw [forPixels_of_sides sides, Except.ok.injEq]
    exact (and_iff_right sides).symm
  · obtain ⟨reason, failed, -⟩ := forPixels_beyond sides
    rw [failed]
    exact iff_of_false nofun fun found => sides found.1

end Environment
end FormulaLayout
