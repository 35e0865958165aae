import FormulaLayout.Proofs.Grid.Gaps
import FormulaLayout.Proofs.Number.Zero

/-! What a grid remembers of its history. Of the weights it knows the last one that each index was
given, and a cell looks at those below the bounds only, so that grids of one shape resolve it alike,
however they came about. Weights are compared as numbers here: a zero of the other sign changes a
running sum only while all weights so far are zeros, and then every edge lies at the start. -/
namespace FormulaLayout
open Number

theorem prefixSum_related {R : Float → Float → Prop} (none : R 0 0)
    (add : ∀ {x x' y y'}, R x x' → R y y' → R (x + y) (x' + y')) {weights weights' : Nat → Float}
    {count : Nat} (each : ∀ k < count, R (weights k) (weights' k)) :
    R (prefixSum weights count) (prefixSum weights' count) := by
  induction count with
  | zero => exact none
  | succ count ih =>
    cases count with
    | zero => exact each 0 Nat.zero_lt_one
    | succ count =>
      rw [prefixSum_succ_succ, prefixSum_succ_succ]
      exact add (ih fun k less => each k (by omega)) (each (count + 1) (by omega))

theorem isZero_prefixSum {weights : Nat → Float} {count : Nat}
    (zeros : ∀ k < count, IsZero (weights k)) : IsZero (prefixSum weights count) :=
  @prefixSum_related (fun x _ => IsZero x) ⟨.positive, rfl⟩ .add weights weights count zeros

theorem negative_of_prefixSum {weights : Nat → Float} {count : Nat}
    (h : unpack (prefixSum weights count) = .zero .negative) :
    ∀ k < count, unpack (weights k) = .zero .negative := by
  induction count with
  | zero => exact fun k below => absurd below k.not_lt_zero
  | succ count ih =>
    intro k below
    cases count with
    | zero =>
      obtain rfl : k = 0 := by omega
      exact h
    | succ count =>
      rw [prefixSum_succ_succ] at h
      obtain ⟨before, last⟩ := negative_of_add h
      obtain earlier | rfl := Nat.lt_succ_iff_lt_or_eq.mp below
      · exact ih before k earlier
      · exact last

theorem positive_of_isZero {weights : Nat → Float} {index count : Nat} (below : index ≤ count)
    (some : ¬IsZero (prefixSum weights index)) (none : IsZero (prefixSum weights count)) :
    unpack (prefixSum weights count) = .zero .positive := by
  obtain ⟨sign, zero⟩ := none
  cases sign with
  | negative =>
    have zeros := negative_of_prefixSum zero
    exact absurd (isZero_prefixSum fun k less => ⟨_, zeros k (less.trans_le below)⟩) some
  | positive => exact zero

namespace Grid
variable {α β : Type}

/-- Of one shape, whatever the cells hold and whichever they are. -/
structure SameShape (grid : Grid α) (grid' : Grid β) : Prop where
  bounds : grid.bounds = grid'.bounds
  weight : ∀ axis, ∀ index < grid.bounds.get axis,
    SameNumber (grid.weight axis index) (grid'.weight axis index)
  margin : grid.margin = grid'.margin
  frame : grid.frame = grid'.frame

namespace SameShape
variable {grid : Grid α} {grid' : Grid β}

theorem weightSum (same : grid.SameShape grid') {axis : Axis} {index : Nat}
    (below : index ≤ grid.bounds.get axis) :
    SameNumber (grid.weightSum axis index) (grid'.weightSum axis index) :=
  prefixSum_related (R := SameNumber) (.refl 0) .add fun k less =>
    same.weight axis k (less.trans_le below)

theorem edge (same : grid.SameShape grid') {axis : Axis} {index : Nat}
    (below : index ≤ grid.bounds.get axis) (extent margin : Int) :
    grid.edge axis extent margin index = grid'.edge axis extent margin index := by
  have atStart : IsZero (grid.weightSum axis index) → IsZero (grid'.weightSum axis index) →
      grid.edge axis extent margin index = grid'.edge axis extent margin index :=
    fun ⟨_, zero⟩ ⟨_, zero'⟩ => (edge_of_countsAs (.inl (isAmount_zero zero)) ..).trans
      (edge_of_countsAs (.inl (isAmount_zero zero')) ..).symm
  -- a sum of zero lies at the start, and next to any other a total of zero has but one sign
  obtain sums | ⟨zero, zero'⟩ := (sameNumber_iff ..).mp (same.weightSum below)
  swap
  · exact atStart zero zero'
  by_cases zero : IsZero (grid.weightSum axis index)
  · exact atStart zero ((isZero_congr sums).mp zero)
  have zero' : ¬IsZero (grid'.weightSum axis index) := mt (isZero_congr sums).mpr zero
  have totals : unpack (grid.weightSum axis (grid.bounds.get axis)) =
      unpack (grid'.weightSum axis (grid.bounds.get axis)) := by
    obtain totals | ⟨none, none'⟩ := (sameNumber_iff ..).mp (same.weightSum le_rfl)
    · exact totals
    · exact (positive_of_isZero below zero none).trans (positive_of_isZero below zero' none').symm
  have product : ofWhole extent * grid.weightSum axis index =
      ofWhole extent * grid'.weightSum axis index := by
    rw [mul_eq_packed, mul_eq_packed, sums]
  have share : ofWhole extent * grid.weightSum axis index /
        grid.weightSum axis (grid.bounds.get axis) =
      ofWhole extent * grid'.weightSum axis index /
        grid'.weightSum axis (grid.bounds.get axis) := by
    rw [product, div_eq_packed, div_eq_packed, totals]
  rw [Grid.edge, Grid.edge, share, same.bounds]

theorem span (same : grid.SameShape grid') {axis : Axis} {index : Nat}
    (inside : index < grid.bounds.get axis) (origin extent margin : Int) :
    grid.span axis index origin extent margin = grid'.span axis index origin extent margin := by
  simp only [Grid.span, same.edge inside.le, same.edge (Nat.succ_le_of_lt inside)]

theorem spannable (same : grid.SameShape grid') (axis : Axis) (index : Nat)
    (extent margin : Int) :
    grid.Spannable axis index extent margin ↔ grid'.Spannable axis index extent margin := by
  simp only [Spannable, edgeNumbers, same.bounds]

theorem resolveAxis (same : grid.SameShape grid') {cell : Cell} (inside : Holds grid.bounds cell)
    (env : Environment) (parent : PixelRect) (axis : Axis) :
    grid.resolveAxis env parent cell axis = grid'.resolveAxis env parent cell axis := by
  simp only [Grid.resolveAxis, same.margin, same.frame, same.spannable, same.span (inside axis)]

theorem resolve (same : grid.SameShape grid') (within : Within grid) {cell : Cell}
    (occupied : grid.contains cell = true) (occupied' : grid'.contains cell = true)
    (parent : PixelRect) : grid.resolve cell parent = grid'.resolve cell parent := by
  simp only [Grid.resolve, occupied, occupied', if_true,
    same.resolveAxis (within cell occupied)]

end SameShape

def Operation.given? (axis : Axis) (index : Nat) : Operation α → Option Float
  | .setWeight axis' (.ofNat index') weight =>
    if axis' = axis ∧ index' = index then some weight else none
  | _ => none

def lastGiven? (operations : List (Operation α)) (axis : Axis) (index : Nat) : Option Float :=
  operations.reverse.findSome? (Operation.given? axis index)

theorem lastGiven?_concat (operations : List (Operation α)) (operation : Operation α)
    (axis : Axis) (index : Nat) :
    lastGiven? (operations ++ [operation]) axis index =
      (operation.given? axis index).or (lastGiven? operations axis index) := by
  rw [lastGiven?, List.reverse_concat, List.findSome?_cons]
  cases operation.given? axis index <;> rfl

def weightAfter (grid : Grid α) (operations : List (Operation α)) (axis : Axis) (index : Nat) :
    Float :=
  (lastGiven? operations axis index).getD (grid.weight axis index)

/-- The default is not held, and reads back all the same. -/
theorem getD_setWeight (weights : OrderedMap Nat Float) (index index' : Nat) (weight : Float) :
    ((if weight == defaultWeight then weights.erase index
      else weights.insert index weight).get? index').getD defaultWeight =
      if index = index' then weight else (weights.get? index').getD defaultWeight := by
  by_cases plain : weight == defaultWeight
  · have same : weight = defaultWeight :=
      SameNumber.eq_of_not_isZero (.inl plain) fun ⟨_, zero⟩ => nomatch zero
    rw [if_pos plain, OrderedMap.get?_erase, same]
    split <;> rfl
  · rw [if_neg plain, OrderedMap.get?_insert]
    split <;> rfl

theorem weight_apply (grid : Grid α) (operation : Operation α) (axis : Axis) (index : Nat) :
    (operation.apply grid).weight axis index =
      (operation.given? axis index).getD (grid.weight axis index) := by
  cases operation with
  | place cell value => rfl
  | reserve cell => rfl
  | remove cell shrink =>
    obtain ⟨cells, bounds, removed⟩ := grid.exists_remove_eq cell shrink
    rw [show (Operation.remove cell shrink).apply grid = _ from removed]
    rfl
  | setWeight axis' index' weight =>
    cases index' with
    | negSucc n => rfl
    | ofNat n =>
      have written := getD_setWeight (grid.weights.get axis') n index weight
      change (((grid.weights.set axis' _).get axis).get? index).getD defaultWeight =
        Option.getD (if axis' = axis ∧ n = index then some weight else none) _
      rw [PerAxis.get_set]
      by_cases same : axis' = axis
      · subst same
        rw [if_pos rfl, written]
        by_cases here : n = index <;> simp only [here, true_and, if_true, if_false] <;> rfl
      · rw [if_neg same, if_neg (fun both => same both.1)]
        rfl
  | setMargin x y => rfl
  | setFrame x y => rfl

theorem weight_foldl_eq (grid : Grid α) (operations : List (Operation α)) (axis : Axis)
    (index : Nat) :
    (operations.foldl Operation.apply grid).weight axis index =
      grid.weightAfter operations axis index := by
  induction operations using List.reverseRecOn with
  | nil => rfl
  | append_singleton rest operation ih =>
    rw [List.foldl_append, List.foldl_cons, List.foldl_nil, weight_apply, ih, weightAfter,
      weightAfter, lastGiven?_concat]
    cases operation.given? axis index <;> rfl

theorem weight_foldl (grid : Grid α) (operations : List (Operation α)) (axis : Axis)
    (index : Nat) :
    SameNumber ((operations.foldl Operation.apply grid).weight axis index)
      (grid.weightAfter operations axis index) := by
  rw [weight_foldl_eq]
  exact .refl _

structure Weighting where
  axis : Axis
  index : Int
  weight : Float

def Weighting.operation (call : Weighting) : Operation α :=
  .setWeight call.axis call.index call.weight

theorem exists_foldl_weightings (grid : Grid α) (calls : List Weighting) :
    ∃ weights,
      (calls.map Weighting.operation).foldl Operation.apply grid = { grid with weights } := by
  induction calls generalizing grid with
  | nil => exact ⟨grid.weights, rfl⟩
  | cons call rest ih =>
    have step : ∃ weights, call.operation.apply grid = { grid with weights } := by
      obtain ⟨axis, index, weight⟩ := call
      cases index with
      | ofNat n => exact ⟨_, rfl⟩
      | negSucc n => exact ⟨grid.weights, rfl⟩
    obtain ⟨weights, changed⟩ := step
    obtain ⟨weights', changed'⟩ := ih (call.operation.apply grid)
    exact ⟨weights', by rw [List.map_cons, List.foldl_cons, changed', changed]⟩

/-- Grids of one shape resolve a cell alike, when it is occupied in both. Calls that set weights
count by the last weight that each index below the bounds was given, whatever their order. -/
theorem resolve_forgets_history (operations : List (Operation α)) {cell : Cell}
    (occupied : (run operations).contains cell = true) (parent : PixelRect) :
    (∀ (β : Type) (operations' : List (Operation β)),
      (run operations).SameShape (run operations') → (run operations').contains cell = true →
        (run operations).resolve cell parent = (run operations').resolve cell parent) ∧
    ∀ calls calls' : List Weighting,
      (∀ axis, ∀ index < (run operations).bounds.get axis,
        SameNumber ((run operations).weightAfter (calls.map Weighting.operation) axis index)
          ((run operations).weightAfter (calls'.map Weighting.operation) axis index)) →
      (run (operations ++ calls.map Weighting.operation)).resolve cell parent =
        (run (operations ++ calls'.map Weighting.operation)).resolve cell parent := by
  refine ⟨fun β operations' same occupied' =>
    same.resolve (within_run operations) occupied occupied' parent, ?_⟩
  intro calls calls' agree
  obtain ⟨weights, changed⟩ := exists_foldl_weightings (run operations) calls
  obtain ⟨weights', changed'⟩ := exists_foldl_weightings (run operations) calls'
  have ends : run (operations ++ calls.map Weighting.operation) =
      { run operations with weights } := List.foldl_append.trans changed
  have ends' : run (operations ++ calls'.map Weighting.operation) =
      { run operations with weights := weights' } := List.foldl_append.trans changed'
  have shape : (run (operations ++ calls.map Weighting.operation)).SameShape
      (run (operations ++ calls'.map Weighting.operation)) := by
    rw [ends, ends']
    refine ⟨rfl, fun axis index below => ?_, rfl, rfl⟩
    rw [← changed, ← changed']
    have first := weight_foldl (run operations) (calls.map Weighting.operation) axis index
    have second := weight_foldl (run operations) (calls'.map Weighting.operation) axis index
    exact (first.trans (agree axis index below)).trans second.symm
  refine shape.resolve (within_run _) ?_ ?_ parent
  · rw [ends]
    exact occupied
  · rw [ends']
    exact occupied

def weightless : List (Operation Unit) :=
  [.place ⟨0, 0⟩ (), .place ⟨1, 0⟩ (), .setMargin (some "2") none, .setWeight .x 0 0]

/-- The shape of `weightless`, with the other zero, a weight beyond the bounds, one that is taken back,
and a cell that is gone. -/
def weightlessAfterAll : List (Operation Bool) :=
  [.setWeight .x 9 4, .setWeight .y 0 3, .setMargin (some "1/") none, .reserve ⟨1, 0⟩,
    .setWeight .x 0 (-0), .place ⟨0, 0⟩ true, .place ⟨5, 5⟩ false, .remove ⟨5, 5⟩ true,
    .setWeight .y 0 1, .setMargin (some "2") none]

theorem weightless_resolves_alike :
    (run weightless).resolve ⟨1, 0⟩ ⟨5, 0, 100, 9⟩ =
        (run weightlessAfterAll).resolve ⟨1, 0⟩ ⟨5, 0, 100, 9⟩ ∧
      (run (weightless ++ [Weighting.mk .x 0 4, ⟨.x, 1, 7⟩].map Weighting.operation)).resolve
          ⟨1, 0⟩ ⟨5, 0, 100, 9⟩ =
        (run (weightless ++ [Weighting.mk .x 1 7, ⟨.x, 2, 5⟩, ⟨.x, 0, 8⟩, ⟨.x, 0, 4⟩].map
          Weighting.operation)).resolve ⟨1, 0⟩ ⟨5, 0, 100, 9⟩ := by
  have occupied : (run weightless).contains ⟨1, 0⟩ = true := by decide
  have occupied' : (run weightlessAfterAll).contains ⟨1, 0⟩ = true := by decide
  have shape : (run weightless).SameShape (run weightlessAfterAll) :=
    ⟨by decide, fun axis => by cases axis <;> decide +kernel, by decide +kernel, by decide +kernel⟩
  obtain ⟨runs, calls⟩ := resolve_forgets_history weightless occupied ⟨5, 0, 100, 9⟩
  exact ⟨runs Bool weightlessAfterAll shape occupied',
    calls _ _ fun axis => by cases axis <;> decide +kernel⟩

end Grid
end FormulaLayout
