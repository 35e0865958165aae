import FormulaLayout.Proofs.Number.Arithmetic
import FormulaLayout.Proofs.Placement.Resolution

/-! Components in a row, where each starts at the very formula that ended the one before. Both
edges are rounded from the same sum, so the components touch, and their lengths add up to what the
row covers. The end is measured among the names of the canvas and the start among more of them,
which is why the formula in between may use the names of the canvas only. -/
namespace FormulaLayout
open Number

def IsBaseFormula (text : String) : Prop :=
  ∃ formula, Formula.parse (some text) [] = .ok formula ∧ ∀ name ∈ formula.names, name ∈ baseNames

instance (text : String) : Decidable (IsBaseFormula text) :=
  inferInstanceAs (Decidable (∃ _, _ ∧ _))

def PixelRect.far (rect : PixelRect) (axis : Axis) : Int :=
  rect.origin.get axis + rect.extent.get axis

def FreePlacement.Places (text : PlacementText) (canvas rect : PixelRect) : Prop :=
  ∃ placement, FreePlacement.parse text = .ok placement ∧ placement.resolve canvas = .ok rect

instance (text : PlacementText) (canvas rect : PixelRect) :
    Decidable (FreePlacement.Places text canvas rect) :=
  inferInstanceAs (Decidable (∃ _, _ ∧ _))

structure Placed (canvas : PixelRect) where
  text : PlacementText
  rect : PixelRect
  places : FreePlacement.Places text canvas rect

namespace Placed
variable {canvas : PixelRect} {axis : Axis}

theorem far_eq (placed : Placed canvas) {text : String} {formula : Formula}
    (parsed : Formula.parse (some text) [] = .ok formula)
    (ends : placed.text.size.get axis = some ("?" ++ text)) :
    ∃ value, formula.value (Environment.ofCanvas canvas).bindings = .ok value ∧
      placed.rect.far axis = roundPixel (value + ofWhole (canvas.origin.get axis)) := by
  obtain ⟨placement, read, resolved⟩ := placed.places
  obtain ⟨extents, -, sized, -, lengths⟩ := FreePlacement.resolve_eq_ok_iff.mp resolved
  have size := (FreePlacement.parse_eq_ok read axis).2
  rw [ends, Dimension.parse_continuation, parsed] at size
  have same : placement.size.get axis = ⟨formula, true⟩ := (Except.ok.inj size).symm
  obtain ⟨value, found, measured⟩ := sized axis
  simp only [same, Dimension.extent_eq_ok_iff, Formula.evaluate_eq_value, if_true] at found measured
  refine ⟨value, found, ?_⟩
  rw [PixelRect.far, lengths axis, same, Dimension.add_length_of_continuation rfl, measured.2]

theorem near_eq (placed : Placed canvas) {text : String} {formula : Formula}
    (parsed : Formula.parse (some text) [] = .ok formula)
    (base : ∀ name ∈ formula.names, name ∈ baseNames)
    (starts : placed.text.position.get axis = some text) :
    ∃ value, formula.value (Environment.ofCanvas canvas).bindings = .ok value ∧
      placed.rect.origin.get axis = roundPixel (ofWhole (canvas.origin.get axis) + value) := by
  obtain ⟨placement, read, resolved⟩ := placed.places
  obtain ⟨extents, -, -, near, -⟩ := FreePlacement.resolve_eq_ok_iff.mp resolved
  have position := (FreePlacement.parse_eq_ok read axis).1
  rw [starts, parsed] at position
  have same : placement.position.get axis = formula := (Except.ok.inj position).symm
  obtain ⟨value, found, -, total⟩ := FreePlacement.start_eq_ok_iff.mp (near axis)
  rw [same, Formula.evaluate_eq_value] at found
  refine ⟨value, ?_, total.symm⟩
  rw [← found, Formula.value_congr]
  exact fun name occurs => (Environment.read_withComponent _ _ _ (base name occurs)).symm

def Continues (axis : Axis) (first second : Placed canvas) : Prop :=
  ∃ text, IsBaseFormula text ∧ first.text.size.get axis = some ("?" ++ text) ∧
    second.text.position.get axis = some text

theorem Continues.touches {first second : Placed canvas}
    (continues : Continues axis first second) :
    first.rect.far axis = second.rect.origin.get axis := by
  obtain ⟨text, ⟨formula, parsed, base⟩, ends, starts⟩ := continues
  obtain ⟨value, found, far⟩ := first.far_eq parsed ends
  obtain ⟨value', found', near⟩ := second.near_eq parsed base starts
  obtain rfl : value = value' := Except.ok.inj (found.symm.trans found')
  rw [far, near, float_add_comm]

theorem sum_extents (first : Placed canvas) (rest : List (Placed canvas))
    (chain : (first :: rest).IsChain (Continues axis)) :
    ((first :: rest).map fun placed => placed.rect.extent.get axis).sum =
      ((first :: rest).getLast (List.cons_ne_nil first rest)).rect.far axis -
        first.rect.origin.get axis := by
  induction rest generalizing first with
  | nil => simp [PixelRect.far]
  | cons second rest ih =>
    obtain ⟨continues, chain⟩ := List.isChain_cons_cons.mp chain
    rw [List.map_cons, List.sum_cons, ih second chain, List.getLast_cons_cons, ← continues.touches]
    unfold PixelRect.far
    ring

end Placed

/-- A component ends where the next one starts, and a row of them leaves no gap. -/
theorem continuations_share_edges (canvas : PixelRect) (axis : Axis) :
    (∀ (first second : Placed canvas) (text : String), IsBaseFormula text →
      first.text.size.get axis = some ("?" ++ text) →
      second.text.position.get axis = some text →
      first.rect.origin.get axis + first.rect.extent.get axis = second.rect.origin.get axis) ∧
    ∀ (first : Placed canvas) (rest : List (Placed canvas)),
      (first :: rest).IsChain (Placed.Continues axis) →
      ((first :: rest).map fun placed => placed.rect.extent.get axis).sum =
        ((first :: rest).getLast (List.cons_ne_nil first rest)).rect.far axis -
          first.rect.origin.get axis := by
  constructor
  · intro first second text base ends starts
    have continues : Placed.Continues axis first second := ⟨text, base, ends, starts⟩
    exact continues.touches
  · exact Placed.sum_extents

namespace Placed

def across (x width : String) : PlacementText :=
  { PlacementText.filling with x := some x, width := some width }

def third : Placed ⟨7, 0, 100, 20⟩ :=
  ⟨across "0" "?width/3", ⟨7, 0, 33, 20⟩, by decide +kernel⟩

def endless : Placed ⟨7, 0, 100, 20⟩ :=
  ⟨across "width/3" "?1/0", ⟨40, 0, 2147483607, 20⟩, by decide +kernel⟩

def undefined : Placed ⟨7, 0, 100, 20⟩ :=
  ⟨across "1/0" "? 0/0", ⟨2147483647, 0, -2147483647, 20⟩, by decide +kernel⟩

theorem row_shares_edges :
    IsBaseFormula "width/3" ∧ third.rect.far .x = endless.rect.origin.get .x ∧
      [third, endless, undefined].IsChain (Continues .x) ∧
      ([third, endless, undefined].map fun placed => placed.rect.extent.get .x).sum =
        undefined.rect.far .x - third.rect.origin.get .x := by
  have base : IsBaseFormula "width/3" := by decide +kernel
  have chain : [third, endless, undefined].IsChain (Continues .x) :=
    .cons_cons ⟨"width/3", base, rfl, rfl⟩
      (.cons_cons ⟨"1/0", by decide +kernel, rfl, rfl⟩ (.singleton undefined))
  obtain ⟨pair, row⟩ := continuations_share_edges ⟨7, 0, 100, 20⟩ .x
  exact ⟨base, pair third endless "width/3" base rfl rfl, chain,
    row third [endless, undefined] chain⟩

end Placed
end FormulaLayout
