import FormulaLayout.Proofs.Grid.Outline

/-! Refused operations. An index below zero is refused before anything is written, and so is a
setting whose horizontal text is malformed. The vertical text is read only after the horizontal
setting is in force, so that a refusal of it leaves the new horizontal setting behind; everything
else is as it was. -/
namespace FormulaLayout.Grid
variable {α : Type}

inductive Refusal where
  | index (error : NegativeIndex)
  | formula (fault : Fault)
deriving DecidableEq

def Operation.attempt (grid : Grid α) : Operation α → Grid α × Except Refusal Unit
  | .place cell value => (grid.place cell (.child value), .ok ())
  | .reserve cell => (grid.reserve cell, .ok ())
  | .remove cell shrink => ((grid.remove cell shrink).1, .ok ())
  | .setWeight axis index weight =>
    match grid.setWeight axis index weight with
    | .ok grid => (grid, .ok ())
    | .error error => (grid, .error (.index error))
  | .setMargin x y => (grid.setMargin x y).map id (·.mapError .formula)
  | .setFrame x y => (grid.setFrame x y).map id (·.mapError .formula)

theorem attempt_fst (grid : Grid α) (operation : Operation α) :
    (operation.attempt grid).1 = operation.apply grid := by
  cases operation with
  | setWeight axis index weight => cases index <;> rfl
  | _ => rfl

/-- The setting whose horizontal part is what the text says, if it can be read. -/
def halfSet (setting : PerAxis (Option Formula)) (x : Option String) : PerAxis (Option Formula) :=
  { setting with x := (readSetting x).toOption.getD setting.x }

def Resets (setting : PerAxis (Option Formula)) (x : Option String) : Prop :=
  ∃ new, readSetting x = .ok new ∧ new ≠ setting.x

theorem halfSet_eq_iff (setting : PerAxis (Option Formula)) (x : Option String) :
    halfSet setting x = setting ↔ ¬Resets setting x := by
  have same : halfSet setting x = setting ↔ (halfSet setting x).x = setting.x :=
    ⟨congrArg PerAxis.x, fun same => congrArg (fun x => { setting with x }) same⟩
  rw [same, halfSet]
  unfold Resets
  cases readSetting x with
  | error fault => exact iff_of_true rfl nofun
  | ok new =>
    constructor
    · rintro same ⟨_, ⟨⟩, other⟩
      exact other same
    · intro kept
      by_contra other
      exact kept ⟨new, rfl, other⟩

theorem readSettings_of_refused {setting : PerAxis (Option Formula)} {x y : Option String}
    {fault : Fault} (refused : (readSettings setting x y).2 = .error fault) :
    (readSettings setting x y).1 = halfSet setting x := by
  unfold readSettings halfSet at *
  cases readX : readSetting x with
  | error faultX => rfl
  | ok new =>
    rw [readX] at refused
    cases readY : readSetting y with
    | error faultY => rfl
    | ok newY =>
      rw [readY] at refused
      cases refused

def Operation.leftover (grid : Grid α) : Operation α → Grid α
  | .setMargin x _ => { grid with margin := halfSet grid.margin x }
  | .setFrame x _ => { grid with frame := halfSet grid.frame x }
  | _ => grid

/-- Half of the operation shows even when the other half is refused. -/
def Operation.Tears (grid : Grid α) : Operation α → Prop
  | .setMargin x _ => Resets grid.margin x
  | .setFrame x _ => Resets grid.frame x
  | _ => False

theorem leftover_eq_iff (grid : Grid α) (operation : Operation α) :
    operation.leftover grid = grid ↔ ¬operation.Tears grid := by
  cases operation with
  | setMargin x y =>
    refine Iff.trans ⟨congrArg margin, fun same => ?_⟩ (halfSet_eq_iff grid.margin x)
    exact congrArg (fun margin => { grid with margin }) same
  | setFrame x y =>
    refine Iff.trans ⟨congrArg frame, fun same => ?_⟩ (halfSet_eq_iff grid.frame x)
    exact congrArg (fun frame => { grid with frame }) same
  | _ => exact iff_of_true rfl not_false

theorem mapError_eq_error {ε ε' : Type} {f : ε → ε'} {outcome : Except ε Unit} {error : ε'}
    (h : outcome.mapError f = .error error) : ∃ reason, outcome = .error reason := by
  cases outcome with
  | error reason => exact ⟨reason, rfl⟩
  | ok value => cases h

theorem attempt_of_refused {grid : Grid α} {operation : Operation α} {refusal : Refusal}
    (refused : (operation.attempt grid).2 = .error refusal) :
    (operation.attempt grid).1 = operation.leftover grid := by
  cases operation with
  | place cell value | reserve cell | remove cell shrink => cases refused
  | setWeight axis index weight =>
    cases index with
    | ofNat n => cases refused
    | negSucc n => rfl
  | setMargin x y =>
    obtain ⟨fault, reading⟩ := mapError_eq_error refused
    exact congrArg (fun margin => { grid with margin }) (readSettings_of_refused reading)
  | setFrame x y =>
    obtain ⟨fault, reading⟩ := mapError_eq_error refused
    exact congrArg (fun frame => { grid with frame }) (readSettings_of_refused reading)

/-- A refused operation changes nothing, now and for every later cell, unless it sets a margin or a
frame whose horizontal text can be read and says something else. Then that part is set, and just
that part. -/
theorem refusal_keeps_grid_iff (operations : List (Operation α)) (operation : Operation α)
    {refusal : Refusal} (refused : (operation.attempt (run operations)).2 = .error refusal) :
    (operation.attempt (run operations)).1 = operation.leftover (run operations) ∧
      ((operation.attempt (run operations)).1 = run operations ↔
        ¬operation.Tears (run operations)) ∧
      (¬operation.Tears (run operations) → ∀ later cell parent,
        (run (operations ++ operation :: later)).resolve cell parent =
          (run (operations ++ later)).resolve cell parent) := by
  have left := attempt_of_refused refused
  have kept := leftover_eq_iff (run operations) operation
  refine ⟨left, left ▸ kept, fun whole later cell parent => ?_⟩
  have same : operation.apply (run operations) = run operations := by
    rw [← attempt_fst, left, kept.mpr whole]
  rw [run_append, run_append, List.foldl_cons, same]

def sevenApart : List (Operation Unit) :=
  [.place ⟨0, 0⟩ (), .place ⟨1, 0⟩ (), .setMargin (some "7") none]

theorem sevenApart_keeps_its_margin :
    (Operation.attempt (run sevenApart) (.setMargin (some " 7 ") (some "2+"))).1 =
        run sevenApart ∧
      (run (sevenApart ++ [.setMargin (some " 7 ") (some "2+"), .reserve ⟨0, 1⟩])).resolve ⟨0, 1⟩
          ⟨0, 0, 100, 20⟩ =
        (run (sevenApart ++ [.reserve ⟨0, 1⟩])).resolve ⟨0, 1⟩ ⟨0, 0, 100, 20⟩ := by
  have whole : ¬Operation.Tears (run sevenApart) (.setMargin (some " 7 ") (some "2+")) := by
    rintro ⟨new, read, other⟩
    have seven : readSetting (some " 7 ") = .ok (run sevenApart).margin.x := by decide +kernel
    exact other (Except.ok.inj (read.symm.trans seven))
  have refused : (Operation.attempt (run sevenApart) (.setMargin (some " 7 ") (some "2+"))).2 =
      .error (.formula ⟨.endsEarly, "2+", some 2⟩) := by decide +kernel
  obtain ⟨-, kept, later⟩ := refusal_keeps_grid_iff sevenApart _ refused
  exact ⟨kept.mpr whole, later whole [.reserve ⟨0, 1⟩] _ _⟩

def closeColumns : List (Operation Unit) := [.place ⟨0, 0⟩ (), .place ⟨1, 0⟩ ()]

/-- A margin is refused for its second text, and the columns move apart by the first one. -/
theorem refused_margin_moves_columns :
    ¬(∀ (operations : List (Operation Unit)) (operation : Operation Unit) (refusal : Refusal),
        (operation.attempt (run operations)).2 = .error refusal →
          (operation.attempt (run operations)).1 = run operations) ∧
      ¬∀ (operations : List (Operation Unit)) (operation : Operation Unit) (refusal : Refusal),
        (operation.attempt (run operations)).2 = .error refusal →
          ∀ cell parent, (operation.attempt (run operations)).1.resolve cell parent =
            (run operations).resolve cell parent := by
  have refused : (Operation.attempt (run closeColumns) (.setMargin (some "7") (some "2+"))).2 =
      .error (.formula ⟨.endsEarly, "2+", some 2⟩) := by decide +kernel
  have moved : (Operation.attempt (run closeColumns) (.setMargin (some "7") (some "2+"))).1.resolve
      ⟨1, 0⟩ ⟨0, 0, 100, 20⟩ ≠ (run closeColumns).resolve ⟨1, 0⟩ ⟨0, 0, 100, 20⟩ := by
    decide +kernel
  constructor
  · intro all
    exact moved (congrArg (resolve · _ _) (all closeColumns _ _ refused))
  · intro all
    exact moved (all closeColumns _ _ refused _ _)

end FormulaLayout.Grid
