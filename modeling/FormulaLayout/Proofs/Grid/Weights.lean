import FormulaLayout.Proofs.Grid.History
import FormulaLayout.Proofs.Grid.Table

/-! Weights and their running sums, told from the history of a grid. An index weighs what it was
given last, to the bit, whatever was given to other indices before, after or in between. An entry of
the table of running sums is the sum, from the left, of the weights below it. So it hangs neither on
the length of the table nor on what was done to other indices. -/
namespace FormulaLayout
open Number

/-- The sum from left to right. The first summand is taken as it is. -/
def leftSum : List Float → Float
  | [] => 0
  | first :: rest => rest.foldl (· + ·) first

theorem prefixSum_eq_leftSum (weights : Nat → Float) (count : Nat) :
    prefixSum weights count = leftSum ((List.range count).map weights) := by
  cases count with
  | zero => rfl
  | succ count =>
    rw [List.range_succ_eq_map, List.map_cons, List.map_map, leftSum, List.foldl_map]
    rfl

namespace Grid
variable {α : Type}

def givenWeights (operations : List (Operation α)) (axis : Axis) (index : Nat) : List Float :=
  operations.filterMap (Operation.given? axis index)

theorem lastGiven?_eq_getLast? (operations : List (Operation α)) (axis : Axis) (index : Nat) :
    lastGiven? operations axis index = (givenWeights operations axis index).getLast? :=
  List.getLast?_filterMap.symm

theorem weight_run (operations : List (Operation α)) (axis : Axis) (index : Nat) :
    (run operations).weight axis index =
      (givenWeights operations axis index).getLast?.getD defaultWeight := by
  have untouched : (empty : Grid α).weight axis index = defaultWeight := by
    cases axis <;> rfl
  rw [run, weight_foldl_eq, weightAfter, untouched, lastGiven?_eq_getLast?]

theorem weightSum_run (operations : List (Operation α)) (axis : Axis) (count : Nat) :
    (run operations).weightSum axis count = leftSum ((List.range count).map fun index =>
      (givenWeights operations axis index).getLast?.getD defaultWeight) := by
  rw [weightSum, prefixSum_eq_leftSum]
  simp only [weight_run]

theorem setWeight_of_neg (grid : Grid α) (axis : Axis) {index : Int} (below : index < 0)
    (weight : Float) : grid.setWeight axis index weight = .error ⟨index⟩ := by
  obtain ⟨n, rfl⟩ := Int.eq_negSucc_of_lt_zero below
  rfl

theorem weight_of_neg (grid : Grid α) (axis : Axis) {index : Int} (below : index < 0) :
    grid.weight axis index = defaultWeight := by
  obtain ⟨n, rfl⟩ := Int.eq_negSucc_of_lt_zero below
  rfl

/-- After any run an index weighs what it was given last, or one, and an index below zero is given
nothing. An entry of the table of running sums is the sum of the weights below it from the left,
whatever the length of the table, and the same after all runs that gave those indices the same
weights last. -/
theorem sums_recount_last_weights (operations : List (Operation α)) (axis : Axis) :
    (∀ index < 0, ∀ weight,
      (run operations).setWeight axis index weight = .error ⟨index⟩ ∧
        (Operation.setWeight axis index weight).apply (run operations) = run operations ∧
        (run operations).weight axis index = 1) ∧
    (∀ index : Nat, (run operations).weight axis index =
      (givenWeights operations axis index).getLast?.getD 1) ∧
    ∀ count, ∀ k ≤ count,
      ((run operations).sumTable axis count)[k]? = some ((run operations).weightSum axis k) ∧
      (run operations).weightSum axis k =
        leftSum ((List.range k).map fun index : Nat => (run operations).weight axis index) ∧
      ∀ operations' : List (Operation α),
        (∀ index < k, (givenWeights operations' axis index).getLast? =
          (givenWeights operations axis index).getLast?) →
        ∀ count' ≥ k, ((run operations').sumTable axis count')[k]? =
          ((run operations).sumTable axis count)[k]? := by
  refine ⟨fun index below weight => ?_, weight_run operations axis, fun count k inside => ?_⟩
  · have refused := setWeight_of_neg (run operations) axis below weight
    refine ⟨refused, ?_, weight_of_neg _ axis below⟩
    rw [Operation.apply, refused]
    rfl
  · refine ⟨getElem?_sumTable _ axis inside, prefixSum_eq_leftSum _ k, ?_⟩
    intro operations' same count' inside'
    have sums : (run operations').weightSum axis k = (run operations).weightSum axis k := by
      rw [weightSum_run, weightSum_run]
      congr 1
      refine List.map_congr_left fun index below => ?_
      rw [same index (List.mem_range.mp below)]
    rw [getElem?_sumTable _ axis inside', getElem?_sumTable _ axis inside, sums]

def reweighted : List (Operation Unit) :=
  [.setWeight .x 0 2, .setWeight .x 1 7, .setWeight .x (-1) 4, .setWeight .x 0 1,
    .setWeight .x 1 2.5]

/-- The calls of `reweighted` in another order, among calls for a later index and for the other axis. -/
def reweightedOtherwise : List (Operation Unit) :=
  [.setWeight .x 1 7, .setWeight .x 5 3, .setWeight .y 0 9, .setWeight .x 1 2.5, .setWeight .x 0 2,
    .setWeight .x 0 1]

theorem reweighted_sums_up :
    ((-1 : Int) < 0 ∧ (run reweighted).setWeight .x (-1) 4 = .error ⟨-1⟩) ∧
    ((∀ index < 2, (givenWeights reweightedOtherwise .x index).getLast? =
        (givenWeights reweighted .x index).getLast?) ∧
      ((run reweightedOtherwise).sumTable .x 6)[2]? = ((run reweighted).sumTable .x 2)[2]? ∧
      ((run reweighted).sumTable .x 2)[2]? = some 3.5) := by
  have last : ∀ index < 2, (givenWeights reweightedOtherwise .x index).getLast? =
      (givenWeights reweighted .x index).getLast? := by decide +kernel
  have sum : (run reweighted).weightSum .x 2 = 3.5 := by decide +kernel
  obtain ⟨refused, -, sums⟩ := sums_recount_last_weights reweighted .x
  obtain ⟨entry, -, same⟩ := sums 2 2 le_rfl
  refine ⟨⟨by decide, (refused (-1) (by decide) 4).1⟩, last, ?_, entry.trans (congrArg some sum)⟩
  exact same reweightedOtherwise last 6 (by decide)

end Grid
end FormulaLayout
