import Mathlib.Data.List.Basic
import FormulaLayout.Grid.Resolve

/-! The running sums as a table. The weights up to an index are written out, ones at first and then
the deviations over them, and summed from the left. A span is cut with three look-ups: the total at
the bound, and the sums at both ends of the cell. The table is made long enough for all three, so
none of them misses it, also for a cell that lies beyond the bound. -/
namespace FormulaLayout
open Number

def overwrite (table : List Float) (entries : List (Nat × Float)) : List Float :=
  entries.foldl (fun table entry => table.set entry.1 entry.2) table

theorem length_overwrite (table : List Float) (entries : List (Nat × Float)) :
    (overwrite table entries).length = table.length := by
  induction entries generalizing table with
  | nil => rfl
  | cons entry rest ih => exact (ih _).trans List.length_set

theorem overwrite_of_not_mem {entries : List (Nat × Float)} {index : Nat}
    (absent : index ∉ entries.map Prod.fst) (table : List Float) :
    (overwrite table entries)[index]? = table[index]? := by
  induction entries generalizing table with
  | nil => rfl
  | cons entry rest ih =>
    rw [List.map_cons, List.mem_cons, not_or] at absent
    exact (ih absent.2 _).trans (List.getElem?_set_ne (Ne.symm absent.1))

theorem overwrite_of_mem {entries : List (Nat × Float)} {index : Nat} {value : Float}
    (distinct : (entries.map Prod.fst).Nodup) (listed : (index, value) ∈ entries)
    {table : List Float} (inside : index < table.length) :
    (overwrite table entries)[index]? = some value := by
  induction entries generalizing table with
  | nil => cases listed
  | cons entry rest ih =>
    rw [List.map_cons, List.nodup_cons] at distinct
    cases listed with
    | head => exact (overwrite_of_not_mem distinct.1 _).trans (List.getElem?_set_self inside)
    | tail _ later => exact ih distinct.2 later (by rwa [List.length_set])

/-- Zero, and then the sums of ever more of the weights, with the first one taken as it is. -/
def runningSums : List Float → List Float
  | [] => [0]
  | first :: rest => 0 :: rest.scanl (· + ·) first

theorem runningSums_map_range (weights : Nat → Float) (count : Nat) :
    runningSums ((List.range count).map weights) =
      (List.range (count + 1)).map (prefixSum weights) := by
  cases count with
  | zero => rfl
  | succ count =>
    rw [List.range_succ_eq_map, List.map_cons, List.range_succ_eq_map, List.map_cons, runningSums,
      List.map_map, List.map_map]
    congr 1
    refine List.ext_getElem? fun index => ?_
    rw [List.getElem?_scanl, List.length_map, List.length_range, List.getElem?_map,
      ← List.map_take, List.take_range, List.foldl_map]
    by_cases inside : index ≤ count
    · rw [if_pos inside, Nat.min_eq_left inside,
        List.getElem?_range (Nat.lt_succ_of_le inside)]
      rfl
    · rw [if_neg inside, List.getElem?_eq_none (by rw [List.length_range]; omega)]
      rfl

namespace Grid
variable {α : Type}

theorem weight_natCast (grid : Grid α) (axis : Axis) (index : Nat) :
    grid.weight axis index = ((grid.weights.get axis).get? index).getD defaultWeight := rfl

def weightTable (grid : Grid α) (axis : Axis) (count : Nat) : List Float :=
  overwrite (List.replicate count defaultWeight) (grid.weights.get axis).entries

theorem weightTable_eq (grid : Grid α) (axis : Axis) (count : Nat) :
    grid.weightTable axis count = (List.range count).map fun index : Nat => grid.weight axis index := by
  have length : (grid.weightTable axis count).length = count := by
    rw [weightTable, length_overwrite, List.length_replicate]
  refine List.ext_getElem? fun index => ?_
  by_cases inside : index < count
  · rw [List.getElem?_map, List.getElem?_range inside, Option.map_some]
    cases found : (grid.weights.get axis).get? index with
    | some value =>
      have listed := (OrderedMap.mem_entries_iff _ index value).mpr found
      rw [weight_natCast, found]
      exact overwrite_of_mem (grid.weights.get axis).distinct listed (by simpa using inside)
    | none =>
      have absent : index ∉ (grid.weights.get axis).entries.map Prod.fst := fun listed => by
        have present := (OrderedMap.contains_iff_mem_keys _ index).mpr listed
        rw [OrderedMap.contains, found] at present
        cases present
      rw [weight_natCast, found]
      exact (overwrite_of_not_mem absent _).trans (List.getElem?_replicate_of_lt inside)
  · rw [List.getElem?_eq_none (by omega), List.getElem?_eq_none (by simpa using inside)]

def sumTable (grid : Grid α) (axis : Axis) (count : Nat) : List Float :=
  runningSums (grid.weightTable axis count)

theorem getElem?_sumTable (grid : Grid α) (axis : Axis) {count index : Nat}
    (inside : index ≤ count) :
    (grid.sumTable axis count)[index]? = some (grid.weightSum axis index) := by
  rw [sumTable, weightTable_eq, runningSums_map_range, List.getElem?_map,
    List.getElem?_range (Nat.lt_succ_of_le inside)]
  rfl

end Grid
end FormulaLayout
