import FormulaLayout.Proofs.Conversion
import FormulaLayout.Proofs.Grid.Run
import FormulaLayout.Proofs.Number.Amount

/-! Gaps between neighbours. On one axis all cells of a grid are cut from one strip: the content of
the parent, with the same gap behind every cell. The end of a cell and the start of the next one
are one edge, computed from one running sum, so that nothing of the strip is lost between them. The
edge at index zero is the start of the strip, since no weight, however strange, makes a multiple of
zero pass for a pixel. -/
namespace FormulaLayout.Grid
open Number
variable {α : Type}

structure Strip where
  origin : Int
  extent : Int
  gap : Int
deriving DecidableEq, Repr

def strip (grid : Grid α) (parent : PixelRect) (axis : Axis) : Except Undefined Strip := do
  let env := Environment.forContainer (ofWhole parent.width) (ofWhole parent.height)
  let frame ← measure (grid.frame.get axis) env
  let (origin, extent) := content (parent.origin.get axis) (parent.extent.get axis) frame
  let margin ← measure (grid.margin.get axis) env
  return ⟨origin, extent, effectiveMargin margin extent⟩

def spanIn (grid : Grid α) (axis : Axis) (strip : Strip) (index : Nat) : Int × Int :=
  grid.span axis index strip.origin strip.extent strip.gap

def cut (grid : Grid α) (axis : Axis) (index : Nat) (strip : Strip) :
    Except Undefined (Int × Int) :=
  if grid.Spannable axis index strip.extent strip.gap then .ok (grid.spanIn axis strip index)
  else .error .tooLarge

theorem cut_eq_ok_iff {grid : Grid α} {axis : Axis} {index : Nat} {strip : Strip}
    {span : Int × Int} : grid.cut axis index strip = .ok span ↔
      grid.Spannable axis index strip.extent strip.gap ∧ grid.spanIn axis strip index = span := by
  unfold cut
  split <;> simp [*]

theorem resolveAxis_eq (grid : Grid α) (parent : PixelRect) (cell : Cell) (axis : Axis) :
    grid.resolveAxis (.ofCanvas parent) parent cell axis =
      grid.strip parent axis >>= grid.cut axis (cell.index axis) := by
  simp only [resolveAxis, strip, Environment.ofCanvas, bind, Except.bind]
  cases measure (grid.frame.get axis)
      (.forContainer (ofWhole parent.width) (ofWhole parent.height)) with
  | error reason => rfl
  | ok frame =>
    dsimp only
    cases measure (grid.margin.get axis)
      (.forContainer (ofWhole parent.width) (ofWhole parent.height)) <;> rfl

theorem resolve_eq {grid : Grid α} {cell : Cell} (occupied : grid.contains cell = true)
    {parent : PixelRect} (sides : ∀ axis, HoldsWhole (parent.extent.get axis)) :
    grid.resolve cell parent = do
      let x ← grid.strip parent .x >>= grid.cut .x (cell.index .x)
      let y ← grid.strip parent .y >>= grid.cut .y (cell.index .y)
      return .ofSpans ⟨x, y⟩ := by
  rw [resolve, if_pos occupied, Environment.forPixels_of_sides sides,
    ← resolveAxis_eq, ← resolveAxis_eq]
  rfl

theorem cut_uncaught (grid : Grid α) (axis : Axis) (index : Nat) (strip : Strip)
    (reason : Undefined) (failed : grid.cut axis index strip = .error reason) :
    reason.caught = false := by
  unfold cut at failed
  split at failed <;> cases failed
  rfl

theorem resolve_uncaught {grid : Grid α} {cell : Cell} (occupied : grid.contains cell = true)
    {parent : PixelRect} (sides : ¬∀ axis, HoldsWhole (parent.extent.get axis))
    (reason : Undefined) (failed : grid.resolve cell parent = .error reason) :
    reason.caught = false := by
  obtain ⟨first, beyond, uncaught⟩ := Environment.forPixels_beyond sides
  rw [resolve, if_pos occupied, beyond] at failed
  cases failed
  exact uncaught

theorem sides_of_resolve {grid : Grid α} {cell : Cell} {parent rect : PixelRect}
    (occupied : grid.contains cell = true) (done : grid.resolve cell parent = .ok rect) :
    ∀ axis, HoldsWhole (parent.extent.get axis) := by
  rw [resolve, if_pos occupied, bind_eq_ok_iff] at done
  obtain ⟨env, known, -⟩ := done
  exact (Environment.forPixels_eq_ok_iff.mp known).1

theorem resolve_eq_ok_iff {grid : Grid α} {cell : Cell} {parent rect : PixelRect}
    (occupied : grid.contains cell = true) :
    grid.resolve cell parent = .ok rect ↔
      (∀ axis, HoldsWhole (parent.extent.get axis)) ∧ ∀ axis, ∃ strip,
        grid.strip parent axis = .ok strip ∧ grid.cut axis (cell.index axis) strip =
          .ok (rect.origin.get axis, rect.extent.get axis) := by
  by_cases sides : ∀ axis, HoldsWhole (parent.extent.get axis)
  · rw [resolve_eq occupied sides, and_iff_right sides, Axis.forall_iff]
    simp only [bind_eq_ok_iff, pure, Except.pure, Except.ok.injEq]
    constructor
    · rintro ⟨x, horizontal, y, vertical, rfl⟩
      exact ⟨horizontal, vertical⟩
    · rintro ⟨horizontal, vertical⟩
      exact ⟨_, horizontal, _, vertical, rfl⟩
  · exact iff_of_false (fun done => sides (sides_of_resolve occupied done)) fun h => sides h.1

theorem span_of_resolve {grid : Grid α} {cell : Cell} {parent rect : PixelRect}
    (occupied : grid.contains cell = true) (done : grid.resolve cell parent = .ok rect)
    (axis : Axis) :
    ∃ strip, grid.strip parent axis = .ok strip ∧
      grid.spanIn axis strip (cell.index axis) = (rect.origin.get axis, rect.extent.get axis) := by
  obtain ⟨strip, known, cut⟩ := ((resolve_eq_ok_iff occupied).mp done).2 axis
  exact ⟨strip, known, (cut_eq_ok_iff.mp cut).2⟩

theorem spannable_of_no_gap {extent : Int} (holds : HoldsWhole extent) (grid : Grid α)
    (axis : Axis) (index : Nat) : grid.Spannable axis index extent 0 := by
  simpa [Spannable, edgeNumbers] using holds

/-- There are floats for all whole numbers that the rectangle of a cell is computed from. -/
structure Converts (grid : Grid α) (parent : PixelRect) (cell : Cell) : Prop where
  sides : ∀ axis, HoldsWhole (parent.extent.get axis)
  edges : ∀ axis strip, grid.strip parent axis = .ok strip →
    grid.Spannable axis (cell.index axis) strip.extent strip.gap

theorem Converts.exists_rect {grid : Grid α} {parent : PixelRect} {cell : Cell}
    (converts : grid.Converts parent cell) (occupied : grid.contains cell = true)
    (strips : ∀ axis, ∃ strip, grid.strip parent axis = .ok strip) :
    ∃ rect, grid.resolve cell parent = .ok rect := by
  have spans : ∀ axis, ∃ span,
      grid.strip parent axis >>= grid.cut axis (cell.index axis) = .ok span := by
    intro axis
    obtain ⟨strip, known⟩ := strips axis
    exact ⟨_, bind_eq_ok_iff.mpr
      ⟨strip, known, cut_eq_ok_iff.mpr ⟨converts.edges axis strip known, rfl⟩⟩⟩
  obtain ⟨x, horizontal⟩ := spans .x
  obtain ⟨y, vertical⟩ := spans .y
  exact ⟨_, by rw [resolve_eq occupied converts.sides, horizontal, vertical]; rfl⟩

theorem exists_of_strip {grid : Grid α} {parent : PixelRect} {axis : Axis} {strip : Strip}
    (known : grid.strip parent axis = .ok strip) :
    ∃ frame margin,
      measure (grid.frame.get axis)
        (.forContainer (ofWhole parent.width) (ofWhole parent.height)) = .ok frame ∧
      measure (grid.margin.get axis)
        (.forContainer (ofWhole parent.width) (ofWhole parent.height)) = .ok margin ∧
      content (parent.origin.get axis) (parent.extent.get axis) frame =
        (strip.origin, strip.extent) ∧
      strip.gap = effectiveMargin margin strip.extent := by
  simp only [Grid.strip, bind, Except.bind, pure, Except.pure] at known
  split at known
  · cases known
  · next frame framed =>
    split at known
    · cases known
    · next margin spaced =>
      cases known
      exact ⟨frame, margin, framed, spaced, rfl, rfl⟩

theorem measure_bounds {setting : Option Formula} {env : Environment} {value : Int}
    (measured : measure setting env = .ok value) : pixelMin ≤ value ∧ value ≤ pixelMax := by
  cases setting with
  | none =>
    cases measured
    decide
  | some formula =>
    rw [measure] at measured
    cases found : formula.evaluate env.bindings with
    | error reason =>
      rw [found] at measured
      cases measured
    | ok x =>
      rw [found] at measured
      rw [← Except.ok.inj measured]
      exact truncatePixel_bounds x

theorem content_snd_nonneg (origin extent frame : Int) : 0 ≤ (content origin extent frame).2 := by
  unfold content
  dsimp only
  split
  · exact le_rfl
  · exact not_lt.mp ‹_›

theorem extent_nonneg {grid : Grid α} {parent : PixelRect} {axis : Axis} {strip : Strip}
    (known : grid.strip parent axis = .ok strip) : 0 ≤ strip.extent := by
  obtain ⟨frame, margin, -, -, inside, -⟩ := exists_of_strip known
  have rest := content_snd_nonneg (parent.origin.get axis) (parent.extent.get axis) frame
  rwa [inside] at rest

theorem gap_nonneg {grid : Grid α} {parent : PixelRect} {axis : Axis} {strip : Strip}
    (known : grid.strip parent axis = .ok strip) : 0 ≤ strip.gap := by
  obtain ⟨frame, margin, -, -, -, gap⟩ := exists_of_strip known
  rw [gap, effectiveMargin]
  split <;> omega

theorem extent_le {grid : Grid α} {parent : PixelRect} {axis : Axis} {strip : Strip}
    (known : grid.strip parent axis = .ok strip) :
    strip.extent ≤ max 0 (parent.extent.get axis - pixelMin * 2) := by
  obtain ⟨frame, margin, framed, -, inside, -⟩ := exists_of_strip known
  have frames := measure_bounds framed
  simp only [content] at inside
  split at inside <;> simp only [Prod.mk.injEq] at inside <;> omega

theorem gap_le {grid : Grid α} {parent : PixelRect} {axis : Axis} {strip : Strip}
    (known : grid.strip parent axis = .ok strip) : strip.gap ≤ pixelMax := by
  obtain ⟨frame, margin, -, spaced, -, gap⟩ := exists_of_strip known
  have margins := measure_bounds spaced
  rw [gap, effectiveMargin]
  split
  · decide
  · exact margins.2

theorem holdsWhole_gaps {gap count : Int} (nonneg : 0 ≤ gap) (pixel : gap ≤ pixelMax)
    (some : 0 ≤ count) (few : count ≤ 2 ^ 200) : HoldsWhole (gap * count) := by
  have low : 0 ≤ gap * count := Int.mul_nonneg nonneg some
  have high : gap * count ≤ pixelMax * 2 ^ 200 := Int.mul_le_mul pixel few some (by decide)
  have reach : pixelMax * 2 ^ 200 ≤ 2 ^ 250 := by decide +kernel
  exact holdsWhole_of_bounds (by omega) (high.trans reach)

/-- Up to this size there are floats for all whole numbers, far beyond the space of pixels. -/
theorem converts_of_bounds {grid : Grid α} {parent : PixelRect} {cell : Cell}
    (inside : Holds grid.bounds cell) (sides : ∀ axis, |parent.extent.get axis| ≤ 2 ^ 200)
    (bounds : ∀ axis, grid.bounds.get axis ≤ 2 ^ 200) : grid.Converts parent cell := by
  refine ⟨fun axis => ?_, fun axis strip known => ?_⟩
  · have side := abs_le.mp (sides axis)
    exact holdsWhole_of_bounds (by omega) (by omega)
  · have side := abs_le.mp (sides axis)
    have below := inside axis
    have few := bounds axis
    have least := extent_nonneg known
    have most := extent_le known
    have extent : HoldsWhole strip.extent := by
      simp only [pixelMin] at most
      exact holdsWhole_of_bounds (by omega) (by omega)
    have gaps {count : Int} (some : 0 ≤ count) (within : count ≤ 2 ^ 200) :
        HoldsWhole (strip.gap * count) :=
      holdsWhole_gaps (gap_nonneg known) (gap_le known) some within
    have edge (index : Nat) (within : index ≤ grid.bounds.get axis) :
        ∀ n ∈ grid.edgeNumbers axis strip.extent strip.gap index, HoldsWhole n := by
      unfold edgeNumbers
      dsimp only
      split
      · simpa using extent
      · simp only [List.forall_mem_cons]
        exact ⟨extent, gaps (by omega) (by omega), gaps (by omega) (by omega), by simp⟩
    intro n listed
    exact (List.mem_append.mp listed).elim (edge _ (by omega) n) (edge _ (by omega) n)

def Resolved (grid : Grid α) (parent : PixelRect) (axis : Axis) (index : Nat)
    (start length : Int) : Prop :=
  ∃ cell rect, grid.contains cell = true ∧ cell.index axis = index ∧
    grid.resolve cell parent = .ok rect ∧
    rect.origin.get axis = start ∧ rect.extent.get axis = length

theorem Resolved.span {grid : Grid α} {parent : PixelRect} {axis : Axis} {index : Nat}
    {start length : Int} (h : Resolved grid parent axis index start length) :
    ∃ strip, grid.strip parent axis = .ok strip ∧
      grid.spanIn axis strip index = (start, length) := by
  obtain ⟨cell, rect, occupied, rfl, done, rfl, rfl⟩ := h
  exact span_of_resolve occupied done axis

theorem countsAs_weightSum_zero (grid : Grid α) (axis : Axis) :
    CountsAs (grid.weightSum axis 0) 0 :=
  .inl (isAmount_zero (show unpack (0 : Float) = .zero .positive from rfl))

theorem edge_of_countsAs {grid : Grid α} {axis : Axis} {index : Nat}
    (none : CountsAs (grid.weightSum axis index) 0) (extent margin : Int) :
    grid.edge axis extent margin index = 0 := by
  have first := none.mul_left (ofWhole extent)
  have second := first.div_right (grid.weightSum axis (grid.bounds.get axis))
  exact truncatePixel_of_countsAs (second.mul_right _)

theorem edge_zero (grid : Grid α) (axis : Axis) (extent margin : Int) :
    grid.edge axis extent margin 0 = 0 :=
  edge_of_countsAs (countsAs_weightSum_zero grid axis) extent margin

theorem spanIn_zero (grid : Grid α) (axis : Axis) (strip : Strip) :
    (grid.spanIn axis strip 0).1 = strip.origin := by
  change strip.origin + grid.edge axis strip.extent strip.gap 0 = strip.origin
  rw [edge_zero, add_zero]

theorem spanIn_add (grid : Grid α) (axis : Axis) (strip : Strip) (index count : Nat) :
    (grid.spanIn axis strip (index + count)).1 = (grid.spanIn axis strip index).1 +
      ∑ k ∈ Finset.range count, ((grid.spanIn axis strip (index + k)).2 + strip.gap) := by
  induction count with
  | zero => simp
  | succ count ih =>
    have next : (grid.spanIn axis strip (index + count + 1)).1 =
        (grid.spanIn axis strip (index + count)).1 + (grid.spanIn axis strip (index + count)).2 +
          strip.gap := grid.span_next axis (index + count) strip.origin strip.extent strip.gap
    rw [Finset.sum_range_succ, ← add_assoc index, next, ih]
    omega

/-- Along consecutive indices nothing is lost and nothing is shared: each cell starts where the
one before it ends, behind the gap, and the first cell of all starts with the content. -/
theorem neighbours_meet (operations : List (Operation α)) (parent : PixelRect) (axis : Axis)
    {index : Nat} {start length : Int}
    (resolved : Resolved (run operations) parent axis index start length) :
    ∃ strip, (run operations).strip parent axis = .ok strip ∧
      (index = 0 → start = strip.origin) ∧
      (∀ start' length', Resolved (run operations) parent axis (index + 1) start' length' →
        start' = start + length + strip.gap) ∧
      ∀ (starts lengths : Nat → Int) (count : Nat),
        (∀ k ≤ count, Resolved (run operations) parent axis (index + k) (starts k) (lengths k)) →
          starts count = start + ∑ k ∈ Finset.range count, (lengths k + strip.gap) := by
  obtain ⟨strip, known, span⟩ := resolved.span
  have same : ∀ {index' start' length'},
      Resolved (run operations) parent axis index' start' length' →
        (run operations).spanIn axis strip index' = (start', length') := by
    intro index' start' length' other
    obtain ⟨strip', known', span'⟩ := other.span
    rw [known] at known'
    cases known'
    exact span'
  refine ⟨strip, known, ?_, ?_, ?_⟩
  · rintro rfl
    rw [← (run operations).spanIn_zero axis strip, span]
  · intro start' length' next
    have meets := (run operations).span_next axis index strip.origin strip.extent strip.gap
    change ((run operations).spanIn axis strip (index + 1)).1 =
      ((run operations).spanIn axis strip index).1 +
        ((run operations).spanIn axis strip index).2 + strip.gap at meets
    rwa [same next, span] at meets
  · intro starts lengths count all
    have meets := (run operations).spanIn_add axis strip index count
    rw [same (all count le_rfl), span] at meets
    rw [show starts count = _ from meets]
    congr 1
    refine Finset.sum_congr rfl fun k listed => ?_
    rw [same (all k (Finset.mem_range.mp listed).le)]

def columnsApart (weight : Float) : List (Operation Unit) :=
  [.place ⟨0, 0⟩ (), .place ⟨1, 0⟩ (), .setMargin (some "2") none, .setFrame (some "10") none,
    .setWeight .x 0 weight]

/-- Two columns meet whether the first one's weight is three or not a number, which puts all edges
at the start. -/
theorem columnsApart_meet :
    (Resolved (run (columnsApart 3)) ⟨5, 0, 100, 1⟩ .x 0 15 58 ∧
      Resolved (run (columnsApart 3)) ⟨5, 0, 100, 1⟩ .x 1 75 98 ∧
      ∃ strip, (run (columnsApart 3)).strip ⟨5, 0, 100, 1⟩ .x = .ok strip ∧
        15 = strip.origin ∧ 75 = 15 + 58 + strip.gap) ∧
    Resolved (run (columnsApart undefinedValue)) ⟨5, 0, 100, 1⟩ .x 0 15 (-2) ∧
      Resolved (run (columnsApart undefinedValue)) ⟨5, 0, 100, 1⟩ .x 1 15 (-2) ∧
      ∃ strip, (run (columnsApart undefinedValue)).strip ⟨5, 0, 100, 1⟩ .x = .ok strip ∧
        15 = strip.origin ∧ 15 = 15 + -2 + strip.gap := by
  have meet {weight : Float} {length next length' : Int}
      (first : Resolved (run (columnsApart weight)) ⟨5, 0, 100, 1⟩ .x 0 15 length)
      (second : Resolved (run (columnsApart weight)) ⟨5, 0, 100, 1⟩ .x 1 next length') :
      ∃ strip, (run (columnsApart weight)).strip ⟨5, 0, 100, 1⟩ .x = .ok strip ∧
        15 = strip.origin ∧ next = 15 + length + strip.gap := by
    obtain ⟨strip, known, origin, meets, -⟩ :=
      neighbours_meet (columnsApart weight) ⟨5, 0, 100, 1⟩ .x first
    exact ⟨strip, known, origin rfl, meets next length' second⟩
  have first : Resolved (run (columnsApart 3)) ⟨5, 0, 100, 1⟩ .x 0 15 58 :=
    ⟨⟨0, 0⟩, ⟨15, 0, 58, 1⟩, by decide, rfl, by decide +kernel, rfl, rfl⟩
  have second : Resolved (run (columnsApart 3)) ⟨5, 0, 100, 1⟩ .x 1 75 98 :=
    ⟨⟨1, 0⟩, ⟨75, 0, 98, 1⟩, by decide, rfl, by decide +kernel, rfl, rfl⟩
  have first' : Resolved (run (columnsApart undefinedValue)) ⟨5, 0, 100, 1⟩ .x 0 15 (-2) :=
    ⟨⟨0, 0⟩, ⟨15, 0, -2, 1⟩, by decide, rfl, by decide +kernel, rfl, rfl⟩
  have second' : Resolved (run (columnsApart undefinedValue)) ⟨5, 0, 100, 1⟩ .x 1 15 (-2) :=
    ⟨⟨1, 0⟩, ⟨15, 0, -2, 1⟩, by decide, rfl, by decide +kernel, rfl, rfl⟩
  exact ⟨⟨first, second, meet first second⟩, first', second', meet first' second'⟩

end FormulaLayout.Grid
