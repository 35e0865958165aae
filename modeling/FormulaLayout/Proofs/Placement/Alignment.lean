import FormulaLayout.Proofs.Number.HalfUp
import FormulaLayout.Proofs.Placement.PixelSpace
import FormulaLayout.Proofs.Placement.Scope

/-! Components in the middle of a canvas and against its far edge. Both starts are written in terms
of the component's own extent before it is rounded, and start and length are then rounded half up
one by one. In the middle the two roundings never make the gaps differ by more than one pixel.
Against the far edge they cancel out, except that of two halves both are rounded up, which leaves
the component one pixel past the edge. -/
namespace FormulaLayout
open Number

namespace Axis

def centring : Axis → String
  | x => "CENTERX"
  | y => "CENTERY"

def flushing : Axis → String
  | x => "width - WIDTH"
  | y => "height - HEIGHT"

def centre : Axis → Formula
  | x => .name "CENTERX"
  | y => .name "CENTERY"

def rest : Axis → Formula
  | x => .binary .plus (.name "width") (.negate (.name "WIDTH"))
  | y => .binary .plus (.name "height") (.negate (.name "HEIGHT"))

theorem parse_centring (axis : Axis) : Formula.parse (some axis.centring) [] = .ok axis.centre := by
  cases axis <;> decide +kernel

theorem parse_flushing (axis : Axis) : Formula.parse (some axis.flushing) [] = .ok axis.rest := by
  cases axis <;> decide +kernel

end Axis

theorem Dimension.known_of_plain {dimension : Dimension} (plain : dimension.continuation = false)
    (extent : Float) : dimension.known extent = some extent := by
  simp only [known, plain, Bool.false_eq_true, if_false]

namespace FreePlacement
variable {text : PlacementText} {placement : FreePlacement} {canvas rect : PixelRect} {axis : Axis}
  {size offset : ℚ}

theorem value_centre (plain : (placement.size.get axis).continuation = false)
    (canvas : PixelRect) (extents : PerAxis Float) :
    axis.centre.value (placement.surroundings canvas extents).bindings =
      .ok ((ofWhole (canvas.extent.get axis) - extents.get axis) / 2) := by
  have known := Dimension.known_of_plain plain (extents.get axis)
  rw [surroundings, Environment.bindings_withComponent_eq]
  cases axis with
  | x =>
    rw [show placement.size.x.known extents.x = some extents.x from known]
    cases placement.size.y.known extents.y <;>
      simp only [Bindings.withSize, Axis.centre, Formula.value, Bindings.read_assign,
        String.reduceEq, if_true, if_false] <;> rfl
  | y =>
    rw [show placement.size.y.known extents.y = some extents.y from known]
    simp only [Bindings.withSize, Axis.centre, Formula.value, Bindings.read_assign,
      String.reduceEq, if_true, if_false]
    rfl

theorem value_rest (plain : (placement.size.get axis).continuation = false)
    (canvas : PixelRect) (extents : PerAxis Float) :
    axis.rest.value (placement.surroundings canvas extents).bindings =
      .ok (ofWhole (canvas.extent.get axis) + -extents.get axis) := by
  have known := Dimension.known_of_plain plain (extents.get axis)
  rw [surroundings, Environment.bindings_withComponent_eq, Environment.ofCanvas,
    Environment.bindings_forContainer]
  cases axis with
  | x =>
    rw [show placement.size.x.known extents.x = some extents.x from known]
    cases placement.size.y.known extents.y <;>
      simp only [Bindings.withSize, Axis.rest, Formula.value, Bindings.read_assign,
        String.reduceEq, if_true, if_false] <;> rfl
  | y =>
    rw [show placement.size.y.known extents.y = some extents.y from known]
    cases placement.size.x.known extents.x <;>
      simp only [Bindings.withSize, Axis.rest, Formula.value, Bindings.read_assign,
        String.reduceEq, if_true, if_false] <;> rfl

/-- A placement with this text for its start on one axis, and a length there that is no continuation
and has a finite value. -/
structure Aligned (axis : Axis) (start : String) (text : PlacementText) (placement : FreePlacement)
    (canvas : PixelRect) (size : ℚ) : Prop where
  parsed : parse text = .ok placement
  starts : text.position.get axis = some start
  plain : (placement.size.get axis).continuation = false
  measured : ∃ value, (placement.size.get axis).formula.evaluate
    (Environment.ofCanvas canvas).bindings = .ok value ∧ value? value = some size

def exactResults (canvas : PixelRect) (axis : Axis) (size offset : ℚ) : List ℚ :=
  let origin : ℚ := canvas.origin.get axis
  let extent : ℚ := canvas.extent.get axis
  [origin, extent, extent - size, offset, origin + offset, origin + offset + 1 / 2, size + 1 / 2]

/-- No float operation rounds, and neither of the two pixels is held back. -/
structure Undistorted (canvas : PixelRect) (axis : Axis) (size offset : ℚ) : Prop where
  exact : ∀ result ∈ exactResults canvas axis size offset, IsFloat result
  start : IsPixel (halfUp (canvas.origin.get axis + offset))
  length : IsPixel (halfUp size)

theorem Undistorted.results (undistorted : Undistorted canvas axis size offset) :
    IsFloat (canvas.origin.get axis) ∧ IsFloat (canvas.extent.get axis) ∧
      IsFloat (canvas.extent.get axis - size) ∧ IsFloat offset ∧
      IsFloat (canvas.origin.get axis + offset) ∧
      IsFloat (canvas.origin.get axis + offset + 1 / 2) ∧ IsFloat (size + 1 / 2) := by
  simpa [exactResults] using undistorted.exact

def Offsets (axis : Axis) (start : String) (placement : FreePlacement) (canvas : PixelRect)
    (size offset : ℚ) : Prop :=
  ∃ formula, Formula.parse (some start) [] = .ok formula ∧
    ∀ extents : PerAxis Float, value? (extents.get axis) = some size →
      ∃ value, formula.value (placement.surroundings canvas extents).bindings = .ok value ∧
        value? value = some offset

theorem offsets_centring (plain : (placement.size.get axis).continuation = false)
    (undistorted : Undistorted canvas axis size ((canvas.extent.get axis - size) / 2)) :
    Offsets axis axis.centring placement canvas size ((canvas.extent.get axis - size) / 2) := by
  obtain ⟨-, extent, rest, half, -⟩ := undistorted.results
  refine ⟨axis.centre, axis.parse_centring, fun extents measured => ?_⟩
  refine ⟨_, value_centre plain canvas extents, ?_⟩
  have whole := (rounds_ofWhole (canvas.extent.get axis)).value?_eq extent
  have difference := (rounds_sub whole measured).value?_eq rest
  exact (rounds_div difference value?_two two_ne_zero).value?_eq half

theorem offsets_flushing (plain : (placement.size.get axis).continuation = false)
    (undistorted : Undistorted canvas axis size (canvas.extent.get axis - size)) :
    Offsets axis axis.flushing placement canvas size (canvas.extent.get axis - size) := by
  obtain ⟨-, extent, rest, -⟩ := undistorted.results
  refine ⟨axis.rest, axis.parse_flushing, fun extents measured => ?_⟩
  refine ⟨_, value_rest plain canvas extents, ?_⟩
  have whole := (rounds_ofWhole (canvas.extent.get axis)).value?_eq extent
  rw [sub_eq_add_neg] at rest ⊢
  exact (rounds_add whole (value?_neg measured)).value?_eq rest

def namesOn (placement : FreePlacement) (axis : Axis) : List String :=
  (placement.size.get axis).formula.names ++ (placement.position.get axis).names

/-- The reason is a name that this axis mentions, or that there is no float for the origin or the
extent of the canvas on it. -/
def Lacking (placement : FreePlacement) (canvas : PixelRect) (axis : Axis) (reason : Undefined) :
    Prop :=
  (∃ name ∈ placement.namesOn axis, reason = .unbound name) ∨
    reason.caught = false ∧ ¬canvas.HoldsOn axis

namespace Aligned
variable {start : String} (aligned : Aligned axis start text placement canvas size)
include aligned

theorem position_eq {formula : Formula} (read : Formula.parse (some start) [] = .ok formula) :
    placement.position.get axis = formula := by
  have position := (parse_eq_ok aligned.parsed axis).1
  rw [aligned.starts, read] at position
  exact (Except.ok.inj position).symm

theorem extent_eq {extents : PerAxis Float}
    (resolution : placement.Resolution canvas extents rect) :
    value? (extents.get axis) = some size := by
  obtain ⟨value, found, same⟩ := aligned.measured
  obtain ⟨value', found', sized⟩ := resolution.sized axis
  obtain rfl : value = value' := Except.ok.inj (found.symm.trans found')
  rw [Dimension.extent_eq_ok_iff, aligned.plain, if_neg Bool.false_ne_true] at sized
  rwa [← sized]

theorem rounded (offsets : Offsets axis start placement canvas size offset)
    (undistorted : Undistorted canvas axis size offset)
    (resolved : placement.resolve canvas = .ok rect) :
    rect.origin.get axis = halfUp (canvas.origin.get axis + offset) ∧
      rect.extent.get axis = halfUp size := by
  obtain ⟨extents, resolution⟩ := resolve_eq_ok_iff.mp resolved
  have extent := aligned.extent_eq resolution
  obtain ⟨formula, read, places⟩ := offsets
  obtain ⟨value, found, exact⟩ := places extents extent
  obtain ⟨origin, -, -, -, sum, raised, raised'⟩ := undistorted.results
  constructor
  · have starts := resolution.starts axis
    rw [aligned.position_eq read, start_eq_ok_iff, Formula.evaluate_eq_value] at starts
    obtain ⟨value', found', -, start⟩ := starts
    obtain rfl : value = value' := Except.ok.inj (found.symm.trans found')
    have whole := (rounds_ofWhole (canvas.origin.get axis)).value?_eq origin
    have total := (rounds_add whole exact).value?_eq sum
    calc
      rect.origin.get axis = roundPixel (ofWhole (canvas.origin.get axis) + value) :=
        start.symm
      _ = clampPixel (halfUp (canvas.origin.get axis + offset)) := roundPixel_eq_halfUp total raised
      _ = halfUp (canvas.origin.get axis + offset) :=
        clampPixel_of_bounds undistorted.start.1 undistorted.start.2
  · calc
      rect.extent.get axis = roundPixel (extents.get axis) := by
        rw [resolution.lengths axis, Dimension.length, aligned.plain]
        rfl
      _ = clampPixel (halfUp size) := roundPixel_eq_halfUp extent raised'
      _ = halfUp size := clampPixel_of_bounds undistorted.length.1 undistorted.length.2

theorem complete (offsets : Offsets axis start placement canvas size offset) :
    (placement.size.get axis).formula.firstOf? extendedNames = none ∧
      (placement.position.get axis).firstOf? placement.closedNames = none := by
  obtain ⟨extent, measured, exact⟩ := aligned.measured
  obtain ⟨formula, read, places⟩ := offsets
  obtain ⟨value, found, -⟩ := places (.both extent) (by rwa [PerAxis.get_both])
  rw [Formula.evaluate_eq_value] at measured
  rw [← aligned.position_eq read] at found
  have size := Dimension.over_of_parse (parse_eq_ok aligned.parsed axis).2
  have position := over_of_parse (parse_eq_ok aligned.parsed axis).1
  exact ⟨(size.hingesOn (Environment.closes_forContainer _ _)).eq_none_of_ok measured,
    (position.hingesOn (placement.closes_surroundings canvas _)).eq_none_of_ok found⟩

/-- The axis itself is never to blame. What its other lacks is a name, or a float for one of its two
whole numbers. -/
theorem blames_other (offsets : Offsets axis start placement canvas size offset)
    (undistorted : Undistorted canvas axis size offset)
    {reason : Undefined} (failed : placement.resolve canvas = .error reason) :
    Lacking placement canvas axis.other reason := by
  have known := known_of_parse aligned.parsed
  cases caught : reason.caught with
  | true =>
    obtain ⟨scope, listed, name, first, rfl⟩ := blames_resolve known canvas reason failed caught
    refine .inl ⟨name, ?_, rfl⟩
    have occurs : name ∈ scope.formula.names := List.mem_of_find?_eq_some first
    obtain ⟨size, position⟩ := aligned.complete offsets
    obtain ⟨axis', measured | placed⟩ := mem_scopes listed
    · subst measured
      have other : axis' = axis.other :=
        Axis.eq_other_of_ne fun same => by simp [same, size] at first
      exact other ▸ List.mem_append_left _ occurs
    · subst placed
      have other : axis' = axis.other :=
        Axis.eq_other_of_ne fun same => by simp [same, position] at first
      exact other ▸ List.mem_append_right _ occurs
  | false =>
    refine .inr ⟨caught, fun other => ?_⟩
    obtain ⟨origin, extent, -⟩ := undistorted.results
    have own : canvas.HoldsOn axis := ⟨holdsWhole_of_isFloat origin, holdsWhole_of_isFloat extent⟩
    have holds : ∀ axis', canvas.HoldsOn axis' := fun axis' => by
      by_cases same : axis' = axis
      · exact same ▸ own
      · exact Axis.eq_other_of_ne same ▸ other
    exact absurd ((hingesOn_resolve known holds).caught failed) (by simp [caught])

theorem answers (offsets : Offsets axis start placement canvas size offset)
    (undistorted : Undistorted canvas axis size offset) :
    match placement.resolve canvas with
    | .ok rect => rect.origin.get axis = halfUp (canvas.origin.get axis + offset) ∧
        rect.extent.get axis = halfUp size
    | .error reason => Lacking placement canvas axis.other reason := by
  cases resolved : placement.resolve canvas with
  | ok rect => exact aligned.rounded offsets undistorted resolved
  | error reason => exact aligned.blames_other offsets undistorted resolved

end Aligned

/-- The size is a multiple of one part in 1024, and no magnitude reaches `2 ^ 31`. -/
structure Moderate (canvas : PixelRect) (axis : Axis) (size : ℚ) : Prop where
  units : ∃ n : ℤ, size = n / 1024
  origin : |canvas.origin.get axis| < 2 ^ 31
  extent : |canvas.extent.get axis| < 2 ^ 31
  size : |size| < 2 ^ 31

/-- In units of one part in 2048 all results are whole numbers. -/
theorem Moderate.exact (moderate : Moderate canvas axis size)
    (offsets : offset = canvas.extent.get axis - size ∨
      offset = (canvas.extent.get axis - size) / 2) :
    ∀ result ∈ exactResults canvas axis size offset, IsFloat result := by
  obtain ⟨⟨n, rfl⟩, origin, extent, small⟩ := moderate
  have units : |n| < 2 ^ 41 := by
    rw [abs_div, abs_of_pos (by norm_num : (0 : ℚ) < 1024), div_lt_iff₀ (by norm_num)] at small
    norm_num at small
    exact_mod_cast small
  simp only [exactResults]
  generalize canvas.origin.get axis = o at *
  generalize canvas.extent.get axis = e at *
  rw [abs_lt] at origin extent units
  obtain ⟨m, rfl, bound⟩ : ∃ m : ℤ, offset = m / 2048 ∧ |m| < 2 ^ 43 := by
    rcases offsets with rfl | rfl
    · refine ⟨2048 * e - 2 * n, by push_cast; ring, abs_lt.mpr ?_⟩
      omega
    · refine ⟨1024 * e - n, by push_cast; ring, abs_lt.mpr ?_⟩
      omega
  rw [abs_lt] at bound
  have part {q : ℚ} (k : ℤ) (low : -2 ^ 53 ≤ k) (high : k ≤ 2 ^ 53) (whole : q = k / 2048) :
      IsFloat q :=
    isFloat_of_units (k := 11) (by rw [whole]; norm_num) (by norm_num) (abs_le.mpr ⟨low, high⟩)
  simp only [List.forall_mem_cons, List.not_mem_nil, false_imp_iff, implies_true, and_true]
  refine ⟨part (2048 * o) ?_ ?_ ?_, part (2048 * e) ?_ ?_ ?_, part (2048 * e - 2 * n) ?_ ?_ ?_,
    part m ?_ ?_ rfl, part (2048 * o + m) ?_ ?_ ?_, part (2048 * o + m + 1024) ?_ ?_ ?_,
    part (2 * n + 1024) ?_ ?_ ?_⟩
  all_goals first | omega | (push_cast; ring)

/-- The gaps on both sides of a component in the middle differ by one pixel at most. -/
theorem centring_within_one_pixel
    (aligned : Aligned axis axis.centring text placement canvas size) :
    (Moderate canvas axis size → ∀ result ∈ exactResults canvas axis size
      ((canvas.extent.get axis - size) / 2), IsFloat result) ∧
    (Undistorted canvas axis size ((canvas.extent.get axis - size) / 2) →
      match placement.resolve canvas with
      | .ok rect => |(rect.origin.get axis - canvas.origin.get axis) -
          (canvas.far axis - rect.far axis)| ≤ 1
      | .error reason => Lacking placement canvas axis.other reason) := by
  refine ⟨fun moderate => moderate.exact (.inr rfl), fun undistorted => ?_⟩
  have answers := aligned.answers (offsets_centring aligned.plain undistorted) undistorted
  cases resolved : placement.resolve canvas with
  | error reason =>
    rw [resolved] at answers
    exact answers
  | ok rect =>
    rw [resolved] at answers
    obtain ⟨start, length⟩ := answers
    have gaps := abs_gaps_le_one (canvas.extent.get axis) size
    rw [halfUp_intCast_add] at start
    simp only [PixelRect.far, start, length]
    convert gaps using 2
    ring

def wide (x width : String) : PlacementText := ⟨some x, some "0", some width, some "1"⟩

def Shows (x width : String) (canvas : PixelRect) (size : ℚ) (rect : PixelRect) : Prop :=
  ∃ placement, parse (wide x width) = .ok placement ∧
    (placement.size.get .x).continuation = false ∧
    (∃ value, (placement.size.get .x).formula.evaluate (Environment.ofCanvas canvas).bindings =
      .ok value ∧ value? value = some size) ∧
    placement.resolve canvas = .ok rect

instance (x width : String) (canvas : PixelRect) (size : ℚ) (rect : PixelRect) :
    Decidable (Shows x width canvas size rect) :=
  inferInstanceAs (Decidable (∃ _, _ ∧ _))

theorem Shows.exists_aligned {x width : String} (shows : Shows x width canvas size rect) :
    ∃ placement, Aligned .x x (wide x width) placement canvas size ∧
      placement.resolve canvas = .ok rect := by
  obtain ⟨placement, parsed, plain, measured, resolved⟩ := shows
  exact ⟨placement, ⟨parsed, rfl, plain, measured⟩, resolved⟩

theorem half_is_centred_within_one_pixel :
    ∃ placement rect, Aligned .x "CENTERX" (wide "CENTERX" "101/2") placement ⟨-3, 5, 100, 40⟩
        (101 / 2) ∧
      Undistorted ⟨-3, 5, 100, 40⟩ .x (101 / 2) ((100 - 101 / 2) / 2) ∧
      placement.resolve ⟨-3, 5, 100, 40⟩ = .ok rect ∧
      |(rect.x - -3) - (97 - (rect.x + rect.width))| ≤ 1 := by
  have shows : Shows "CENTERX" "101/2" ⟨-3, 5, 100, 40⟩ (101 / 2) ⟨22, 5, 51, 1⟩ := by
    decide +kernel
  obtain ⟨placement, aligned, resolved⟩ := shows.exists_aligned
  have moderate : Moderate ⟨-3, 5, 100, 40⟩ .x (101 / 2) :=
    ⟨⟨51712, by norm_num⟩, by decide, by decide, by norm_num [abs_of_pos]⟩
  obtain ⟨exact, centred⟩ := centring_within_one_pixel aligned
  have undistorted : Undistorted ⟨-3, 5, 100, 40⟩ .x (101 / 2) ((100 - 101 / 2) / 2) :=
    ⟨exact moderate, by decide +kernel, by decide +kernel⟩
  have gaps := centred undistorted
  rw [resolved] at gaps
  exact ⟨placement, _, aligned, undistorted, resolved, gaps⟩

/-- A component against the far edge is flush with it, or one pixel past it if the size is in the
middle between two whole numbers. -/
theorem flushing_ends_with_canvas
    (aligned : Aligned axis axis.flushing text placement canvas size) :
    (Moderate canvas axis size → ∀ result ∈ exactResults canvas axis size
      (canvas.extent.get axis - size), IsFloat result) ∧
    (Undistorted canvas axis size (canvas.extent.get axis - size) →
      match placement.resolve canvas with
      | .ok rect => rect.far axis = canvas.far axis + if Int.fract size = 1 / 2 then 1 else 0
      | .error reason => Lacking placement canvas axis.other reason) := by
  refine ⟨fun moderate => moderate.exact (.inl rfl), fun undistorted => ?_⟩
  have answers := aligned.answers (offsets_flushing aligned.plain undistorted) undistorted
  cases resolved : placement.resolve canvas with
  | error reason =>
    rw [resolved] at answers
    exact answers
  | ok rect =>
    rw [resolved] at answers
    obtain ⟨start, length⟩ := answers
    rw [halfUp_intCast_add] at start
    simp only [PixelRect.far, start, length, add_assoc, halfUp_sub_add]

theorem quarter_ends_with_canvas :
    ∃ placement rect, Aligned .x "width - WIDTH" (wide "width - WIDTH" "width/4") placement
        ⟨-3, 5, 101, 40⟩ (101 / 4) ∧
      Undistorted ⟨-3, 5, 101, 40⟩ .x (101 / 4) (101 - 101 / 4) ∧
      placement.resolve ⟨-3, 5, 101, 40⟩ = .ok rect ∧ rect.far .x = 98 := by
  have shows : Shows "width - WIDTH" "width/4" ⟨-3, 5, 101, 40⟩ (101 / 4) ⟨73, 5, 25, 1⟩ := by
    decide +kernel
  obtain ⟨placement, aligned, resolved⟩ := shows.exists_aligned
  have moderate : Moderate ⟨-3, 5, 101, 40⟩ .x (101 / 4) :=
    ⟨⟨25856, by norm_num⟩, by decide, by decide, by norm_num [abs_of_pos]⟩
  obtain ⟨exact, flush⟩ := flushing_ends_with_canvas aligned
  have undistorted : Undistorted ⟨-3, 5, 101, 40⟩ .x (101 / 4) (101 - 101 / 4) :=
    ⟨exact moderate, by decide +kernel, by decide +kernel⟩
  have edges := flush undistorted
  rw [resolved] at edges
  exact ⟨placement, _, aligned, undistorted, resolved, edges.trans (by decide +kernel)⟩

/-- Half of an odd canvas is rounded up twice. -/
theorem half_passes_edge :
    ¬ ∀ (axis : Axis) (text : PlacementText) (placement : FreePlacement) (canvas rect : PixelRect)
      (size : ℚ), Aligned axis axis.flushing text placement canvas size →
      Moderate canvas axis size →
      Undistorted canvas axis size (canvas.extent.get axis - size) →
      placement.resolve canvas = .ok rect → rect.far axis = canvas.far axis := by
  intro flush
  have shows : Shows "width - WIDTH" "width/2" ⟨0, 0, 101, 1⟩ (101 / 2) ⟨51, 0, 51, 1⟩ := by
    decide +kernel
  obtain ⟨placement, aligned, resolved⟩ := shows.exists_aligned
  have moderate : Moderate ⟨0, 0, 101, 1⟩ .x (101 / 2) :=
    ⟨⟨51712, by norm_num⟩, by decide, by decide, by norm_num [abs_of_pos]⟩
  have undistorted : Undistorted ⟨0, 0, 101, 1⟩ .x (101 / 2) (101 - 101 / 2) :=
    ⟨moderate.exact (.inl rfl), by decide +kernel, by decide +kernel⟩
  have edges := flush .x _ placement _ _ _ aligned moderate undistorted resolved
  exact absurd edges (by decide)

end FreePlacement
end FormulaLayout
