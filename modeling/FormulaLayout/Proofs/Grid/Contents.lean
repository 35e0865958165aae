import FormulaLayout.Proofs.Grid.Outline

/-! What a grid holds, told from its history. A cell is listed exactly if the last operation that
did anything to it was a placement, with what was placed there last. The cells stand in the order in
which they were entered: a placement enters a cell that is empty, and a cell keeps its rank until it
is cleared, whatever replaces its occupant meanwhile. Everything else that can be asked of the
contents is an answer about this list. -/
namespace FormulaLayout.Grid
variable {α : Type}

def Operation.puts? (cell : Cell) : Operation α → Option (Occupant α)
  | .place cell' value => if cell' = cell then some (.child value) else none
  | .reserve cell' => if cell' = cell then some .reserved else none
  | _ => none

abbrev Event (α : Type) := Grid α → Operation α → Prop

namespace Event

def puts (cell : Cell) (occupant : Occupant α) : Event α := fun _ operation =>
  operation.puts? cell = some occupant

def clears (cell : Cell) : Event α
  | grid, .remove cell' shrink => cell' = cell ∧ (grid.remove cell' shrink).2 = true
  | _, _ => False

def enters (cell : Cell) : Event α := fun grid operation =>
  (operation.puts? cell).isSome = true ∧ grid.contains cell = false

/-- An operation on the cell that succeeds, as every placement does. -/
def touches (cell : Cell) : Event α := fun grid operation =>
  (operation.puts? cell).isSome = true ∨ clears cell grid operation

end Event

def Occurs (operations : List (Operation α)) (event : Event α) (i : Nat) : Prop :=
  ∃ operation, operations[i]? = some operation ∧ event (run (operations.take i)) operation

/-- The event comes with the operation number `i`, and nothing of the other kind comes later. -/
structure StandsSince (operations : List (Operation α)) (event undoing : Event α) (i : Nat) :
    Prop where
  occurs : Occurs operations event i
  last : ∀ j, Occurs operations undoing j → j ≤ i

def LastPut (operations : List (Operation α)) (cell : Cell) (occupant : Occupant α) : Prop :=
  ∃ i, StandsSince operations (.puts cell occupant) (.touches cell) i

/-- The operation number `i` was the placement that first occupied the cell after it was last
empty. -/
def EnteredAt (operations : List (Operation α)) (cell : Cell) (i : Nat) : Prop :=
  StandsSince operations (.enters cell) (.clears cell) i

section Concat
variable {operations : List (Operation α)} {operation : Operation α} {cell : Cell} {i : Nat}
  {event undoing : Event α}

theorem Occurs.lt (occurs : Occurs operations event i) : i < operations.length := by
  obtain ⟨operation, found, -⟩ := occurs
  exact (List.getElem?_eq_some_iff.mp found).1

theorem occurs_concat :
    Occurs (operations ++ [operation]) event i ↔
      Occurs operations event i ∨ i = operations.length ∧ event (run operations) operation := by
  obtain before | rfl | behind := Nat.lt_trichotomy i operations.length
  · simp [Occurs, List.getElem?_append_left before, List.take_append_of_le_length before.le,
      before.ne]
  · simp [Occurs]
  · refine iff_of_false (fun occurs => ?_) ?_
    · have less := occurs.lt
      rw [List.length_append, List.length_singleton] at less
      omega
    · rintro (occurs | ⟨rfl, -⟩)
      · exact occurs.lt.not_gt behind
      · exact behind.false

theorem standsSince_concat :
    StandsSince (operations ++ [operation]) event undoing i ↔
      (i = operations.length ∧ event (run operations) operation) ∨
        StandsSince operations event undoing i ∧ ¬undoing (run operations) operation := by
  constructor
  · rintro ⟨occurs, last⟩
    rcases occurs_concat.mp occurs with before | now
    · refine .inr ⟨⟨before, fun j undone => last j (occurs_concat.mpr (.inl undone))⟩, ?_⟩
      intro undone
      exact (last _ (occurs_concat.mpr (.inr ⟨rfl, undone⟩))).not_gt before.lt
    · exact .inl now
  · rintro (⟨rfl, now⟩ | ⟨⟨before, last⟩, kept⟩)
    · refine ⟨occurs_concat.mpr (.inr ⟨rfl, now⟩), fun j undone => ?_⟩
      have less := undone.lt
      rw [List.length_append, List.length_singleton] at less
      omega
    · refine ⟨occurs_concat.mpr (.inl before), fun j undone => ?_⟩
      rcases occurs_concat.mp undone with undone | ⟨-, undone⟩
      · exact last j undone
      · exact absurd undone kept

theorem exists_standsSince_concat :
    (∃ i, StandsSince (operations ++ [operation]) event undoing i) ↔
      event (run operations) operation ∨
        (∃ i, StandsSince operations event undoing i) ∧ ¬undoing (run operations) operation := by
  simp only [standsSince_concat, exists_or, exists_and_right, exists_eq, true_and]

theorem run_concat (operations : List (Operation α)) (operation : Operation α) :
    run (operations ++ [operation]) = operation.apply (run operations) :=
  run_append operations [operation]

theorem not_standsSince_nil : ¬StandsSince ([] : List (Operation α)) event undoing i :=
  fun stands => Nat.not_lt_zero i stands.occurs.lt

end Concat

section Step
variable {grid : Grid α} {operation : Operation α} {cell : Cell}

theorem contains_iff : grid.contains cell = true ↔ ∃ occupant, grid.get? cell = some occupant :=
  Option.isSome_iff_exists

theorem get?_apply_iff {occupant : Occupant α} :
    (operation.apply grid).get? cell = some occupant ↔
      Event.puts cell occupant grid operation ∨
        grid.get? cell = some occupant ∧ ¬Event.touches cell grid operation := by
  cases operation with
  | place cell' value =>
    rw [Operation.apply, get?_place]
    by_cases here : cell' = cell <;>
      simp [Event.puts, Event.touches, Event.clears, Operation.puts?, here]
  | reserve cell' =>
    rw [Operation.apply, reserve, get?_place]
    by_cases here : cell' = cell <;>
      simp [Event.puts, Event.touches, Event.clears, Operation.puts?, here]
  | remove cell' shrink =>
    rw [Operation.apply, get?_remove]
    by_cases here : cell' = cell
    · subst here
      rw [if_pos rfl]
      refine iff_of_false nofun ?_
      rintro (put | ⟨held, untouched⟩)
      · cases put
      · exact untouched (.inr ⟨rfl, (remove_snd ..).trans (contains_iff.mpr ⟨occupant, held⟩)⟩)
    · simp [Event.puts, Event.touches, Event.clears, Operation.puts?, here]
  | setWeight axis index weight =>
    have same : ((Operation.setWeight axis index weight).apply grid).get? cell = grid.get? cell := by
      cases index <;> rfl
    simp [same, Event.puts, Event.touches, Event.clears, Operation.puts?]
  | setMargin x y =>
    have same : ((Operation.setMargin x y).apply grid).get? cell = grid.get? cell := rfl
    simp [same, Event.puts, Event.touches, Event.clears, Operation.puts?]
  | setFrame x y =>
    have same : ((Operation.setFrame x y).apply grid).get? cell = grid.get? cell := rfl
    simp [same, Event.puts, Event.touches, Event.clears, Operation.puts?]

theorem not_clears_of_puts? (puts : (operation.puts? cell).isSome = true) :
    ¬Event.clears cell grid operation := by
  cases operation with
  | remove => cases puts
  | _ => exact id

theorem contains_apply_iff :
    (operation.apply grid).contains cell = true ↔
      Event.enters cell grid operation ∨
        grid.contains cell = true ∧ ¬Event.clears cell grid operation := by
  have put_contains (put : (operation.puts? cell).isSome = true) :
      (operation.apply grid).contains cell = true := by
    obtain ⟨occupant, put⟩ := Option.isSome_iff_exists.mp put
    exact contains_iff.mpr ⟨occupant, get?_apply_iff.mpr (.inl put)⟩
  constructor
  · intro present'
    obtain ⟨occupant, held⟩ := contains_iff.mp present'
    rcases get?_apply_iff.mp held with put | ⟨before, untouched⟩
    · have put := Option.isSome_of_mem put
      by_cases present : grid.contains cell = true
      · exact .inr ⟨present, not_clears_of_puts? put⟩
      · exact .inl ⟨put, Bool.eq_false_iff.mpr present⟩
    · exact .inr ⟨contains_iff.mpr ⟨occupant, before⟩, fun clears => untouched (.inr clears)⟩
  · rintro (⟨put, -⟩ | ⟨present, kept⟩)
    · exact put_contains put
    · by_cases put : (operation.puts? cell).isSome = true
      · exact put_contains put
      · obtain ⟨occupant, held⟩ := contains_iff.mp present
        exact contains_iff.mpr
          ⟨occupant, get?_apply_iff.mpr (.inr ⟨held, fun touched => touched.elim put kept⟩)⟩

theorem keys_apply (grid : Grid α) (operation : Operation α) :
    (operation.apply grid).cells.keys.Sublist grid.cells.keys ∨
      ∃ cell, Event.enters cell grid operation ∧
        (operation.apply grid).cells.keys = grid.cells.keys ++ [cell] := by
  have put {cell : Cell} (occupant : Occupant α) (puts : (operation.puts? cell).isSome = true) :
      (grid.place cell occupant).cells.keys.Sublist grid.cells.keys ∨
        ∃ cell', Event.enters cell' grid operation ∧
          (grid.place cell occupant).cells.keys = grid.cells.keys ++ [cell'] := by
    rw [cells_place, OrderedMap.keys_insert]
    split
    · exact .inl (List.Sublist.refl _)
    · next absent =>
      refine .inr ⟨cell, ⟨puts, ?_⟩, rfl⟩
      exact Bool.eq_false_iff.mpr (mt (OrderedMap.contains_iff_mem_keys _ _).mp absent)
  cases operation with
  | place cell value => exact put _ (by simp [Operation.puts?])
  | reserve cell => exact put _ (by simp [Operation.puts?])
  | remove cell shrink =>
    rw [Operation.apply, cells_remove]
    exact .inl (List.filter_sublist.map _)
  | setWeight axis index weight => cases index <;> exact .inl (List.Sublist.refl _)
  | setMargin | setFrame => exact .inl (List.Sublist.refl _)

end Step

theorem get?_run_iff (operations : List (Operation α)) (cell : Cell) (occupant : Occupant α) :
    (run operations).get? cell = some occupant ↔ LastPut operations cell occupant := by
  induction operations using List.reverseRecOn with
  | nil => exact iff_of_false nofun fun ⟨_, stands⟩ => not_standsSince_nil stands
  | append_singleton operations operation ih =>
    rw [run_concat, get?_apply_iff, ih]
    exact exists_standsSince_concat.symm

theorem contains_run_iff (operations : List (Operation α)) (cell : Cell) :
    (run operations).contains cell = true ↔ ∃ i, EnteredAt operations cell i := by
  induction operations using List.reverseRecOn with
  | nil => exact iff_of_false nofun fun ⟨_, stands⟩ => not_standsSince_nil stands
  | append_singleton operations operation ih =>
    rw [run_concat, contains_apply_iff, ih]
    exact exists_standsSince_concat.symm

section Ranks
variable {operations : List (Operation α)} {operation : Operation α} {cell : Cell} {i j : Nat}

theorem EnteredAt.of_concat (entered : EnteredAt (operations ++ [operation]) cell i)
    (present : (run operations).contains cell = true) : EnteredAt operations cell i := by
  rcases standsSince_concat.mp entered with ⟨-, enters⟩ | ⟨before, -⟩
  · rw [enters.2] at present
    cases present
  · exact before

theorem EnteredAt.eq_length (entered : EnteredAt (operations ++ [operation]) cell i)
    (absent : (run operations).contains cell = false) : i = operations.length := by
  rcases standsSince_concat.mp entered with ⟨now, -⟩ | ⟨before, -⟩
  · exact now
  · rw [(contains_run_iff operations cell).mpr ⟨i, before⟩] at absent
    cases absent

theorem EnteredAt.unique (entered : EnteredAt operations cell i)
    (entered' : EnteredAt operations cell j) : i = j := by
  induction operations using List.reverseRecOn with
  | nil => exact absurd entered not_standsSince_nil
  | append_singleton operations operation ih =>
    cases present : (run operations).contains cell with
    | true => exact ih (entered.of_concat present) (entered'.of_concat present)
    | false => rw [entered.eq_length present, entered'.eq_length present]

theorem keys_run_ranked (operations : List (Operation α)) :
    (run operations).cells.keys.Pairwise fun cell cell' =>
      ∀ i j, EnteredAt operations cell i → EnteredAt operations cell' j → i < j := by
  induction operations using List.reverseRecOn with
  | nil => exact List.Pairwise.nil
  | append_singleton operations operation ih =>
    have listed {cell : Cell} (mem : cell ∈ (run operations).cells.keys) :
        (run operations).contains cell = true := (OrderedMap.contains_iff_mem_keys _ _).mpr mem
    have before : (run operations).cells.keys.Pairwise fun cell cell' => ∀ i j,
        EnteredAt (operations ++ [operation]) cell i →
          EnteredAt (operations ++ [operation]) cell' j → i < j :=
      ih.imp_of_mem fun mem mem' ranked i j entered entered' =>
        ranked i j (entered.of_concat (listed mem)) (entered'.of_concat (listed mem'))
    rw [run_concat]
    rcases keys_apply (run operations) operation with fewer | ⟨cell, enters, more⟩
    · exact before.sublist fewer
    · rw [more, List.pairwise_append]
      refine ⟨before, List.pairwise_singleton _ _, fun cell' mem last isLast i j entered entered' => ?_⟩
      obtain rfl := List.mem_singleton.mp isLast
      rw [entered'.eq_length enters.2]
      exact (entered.of_concat (listed mem)).occurs.lt

end Ranks

theorem cellOf?_eq_some_iff [DecidableEq α] {grid : Grid α} {value : α} {cell : Cell} :
    grid.cellOf? value = some cell ↔ ∃ before behind,
      grid.entries = before ++ (cell, .child value) :: behind ∧
        ∀ entry ∈ before, entry.2 ≠ .child value := by
  unfold cellOf?
  rw [Option.map_eq_some_iff]
  constructor
  · rintro ⟨⟨_, occupant⟩, found, rfl⟩
    obtain ⟨here, before, behind, whole, others⟩ := List.find?_eq_some_iff_append.mp found
    obtain rfl := of_decide_eq_true here
    exact ⟨before, behind, whole, fun entry mem => by simpa using others entry mem⟩
  · rintro ⟨before, behind, whole, others⟩
    refine ⟨(cell, .child value), List.find?_eq_some_iff_append.mpr ?_, rfl⟩
    exact ⟨by simp, before, behind, whole, fun entry mem => by simpa using others entry mem⟩

theorem cellOf?_eq_none_iff [DecidableEq α] {grid : Grid α} {value : α} :
    grid.cellOf? value = none ↔ ∀ entry ∈ grid.entries, entry.2 ≠ .child value := by
  simp [cellOf?]

/-- The entries tell the history, and all other answers go by the entries. -/
structure Recounts (grid : Grid α) (operations : List (Operation α)) [DecidableEq α] : Prop where
  listed : ∀ cell occupant, (cell, occupant) ∈ grid.entries ↔ LastPut operations cell occupant
  entered : ∀ entry ∈ grid.entries, ∃! i, EnteredAt operations entry.1 i
  ranked : grid.entries.Pairwise fun entry entry' =>
    ∀ i j, EnteredAt operations entry.1 i → EnteredAt operations entry'.1 j → i < j
  get? : ∀ cell occupant, grid.get? cell = some occupant ↔ (cell, occupant) ∈ grid.entries
  contains : ∀ cell, grid.contains cell = true ↔ ∃ occupant, (cell, occupant) ∈ grid.entries
  size : grid.size = grid.entries.length ∧ (grid.entries.map Prod.fst).Nodup
  children : grid.children = grid.entries.filterMap fun entry => entry.2.child?
  cellOf? : ∀ value cell, grid.cellOf? value = some cell ↔ ∃ before behind,
    grid.entries = before ++ (cell, .child value) :: behind ∧
      ∀ entry ∈ before, entry.2 ≠ .child value
  cellOf?_none : ∀ value, grid.cellOf? value = none ↔
    ∀ entry ∈ grid.entries, entry.2 ≠ .child value
  removes : ∀ cell shrink, (grid.remove cell shrink).2 = true ↔
    ∃ occupant, (cell, occupant) ∈ grid.entries

/-- After any run the grid lists the cells whose last successful operation was a placement, with
the last occupant of each, in the order in which they were entered. -/
theorem entries_recount_history [DecidableEq α] (operations : List (Operation α)) :
    Recounts (run operations) operations := by
  have listed (cell : Cell) (occupant : Occupant α) :
      (run operations).get? cell = some occupant ↔ (cell, occupant) ∈ (run operations).entries :=
    (OrderedMap.mem_entries_iff ..).symm
  have present (cell : Cell) : (run operations).contains cell = true ↔
      ∃ occupant, (cell, occupant) ∈ (run operations).entries := by
    simp only [contains_iff, listed]
  refine ⟨fun cell occupant => ?_, fun entry mem => ?_, ?_, listed, present,
    ⟨rfl, (run operations).cells.distinct⟩, ?_, fun _ _ => cellOf?_eq_some_iff,
    fun _ => cellOf?_eq_none_iff, fun cell shrink => ?_⟩
  · rw [← listed, get?_run_iff]
  · obtain ⟨i, entered⟩ := (contains_run_iff ..).mp ((present entry.1).mpr ⟨entry.2, mem⟩)
    exact ⟨i, entered, fun j entered' => entered'.unique entered⟩
  · exact List.pairwise_map.mp (keys_run_ranked operations)
  · exact List.filterMap_map
  · rw [remove_snd, present]

/-- The first cell keeps its rank when its child is replaced, the second loses it when it is cleared
and entered once more. -/
example : (run [.place ⟨0, 0⟩ 'a', .place ⟨1, 0⟩ 'b', .reserve ⟨2, 0⟩, .place ⟨0, 0⟩ 'b',
      .remove ⟨1, 0⟩ false, .remove ⟨1, 0⟩ true, .place ⟨1, 0⟩ 'a']).entries =
    [(⟨0, 0⟩, .child 'b'), (⟨2, 0⟩, .reserved), (⟨1, 0⟩, .child 'a')] := by
  decide

end FormulaLayout.Grid
