import FormulaLayout.Proofs.Grid.Gaps
import FormulaLayout.Proofs.Grid.Outline
import FormulaLayout.Proofs.Grid.Table
import FormulaLayout.Proofs.Scope

/-! What the settings of a grid may mention. They are measured in the names of the parent alone, so
a cell that is occupied resolves unless one of the four settings mentions a name of the component,
and the first to do so gives the reason: a frame before a margin, and both of the horizontal axis
before those of the vertical one. Weights give no reason, whatever their sum is, and the sums are
found in the table at every index that is looked up. There must be floats for the sides of the
parent and for what the edges are computed from, which holds far beyond any space of pixels. -/
namespace FormulaLayout.Grid
open Number
variable {α : Type}

def KnownSetting (setting : Option Formula) : Prop :=
  ∀ formula ∈ setting, formula.Over (baseNames ++ extendedNames)

theorem knownSetting_of_readSetting {text : Option String} {setting : Option Formula}
    (read : readSetting text = .ok setting) : KnownSetting setting := by
  intro formula set
  cases text with
  | none =>
    cases read
    cases set
  | some text =>
    rw [readSetting] at read
    cases parsed : Formula.parse text [] with
    | error fault =>
      rw [parsed] at read
      cases read
    | ok parsedFormula =>
      rw [parsed] at read
      cases read
      cases set
      simpa using over_of_parse parsed

theorem get_readSettings (old : PerAxis (Option Formula)) (x y : Option String) (axis : Axis) :
    (readSettings old x y).1.get axis = old.get axis ∨
      readSetting ((PerAxis.mk x y).get axis) = .ok ((readSettings old x y).1.get axis) := by
  unfold readSettings
  cases readX : readSetting x with
  | error fault => exact .inl rfl
  | ok settingX =>
    cases readY : readSetting y with
    | error fault =>
      cases axis with
      | x => exact .inr readX
      | y => exact .inl rfl
    | ok settingY =>
      cases axis with
      | x => exact .inr readX
      | y => exact .inr readY

theorem knownSetting_readSettings {old : PerAxis (Option Formula)}
    (known : ∀ axis, KnownSetting (old.get axis)) (x y : Option String) (axis : Axis) :
    KnownSetting ((readSettings old x y).1.get axis) := by
  obtain kept | read := get_readSettings old x y axis
  · rw [kept]
    exact known axis
  · exact knownSetting_of_readSetting read

structure SettingsKnown (grid : Grid α) : Prop where
  margin : ∀ axis, KnownSetting (grid.margin.get axis)
  frame : ∀ axis, KnownSetting (grid.frame.get axis)

theorem SettingsKnown.of_eq {grid grid' : Grid α} (known : grid.SettingsKnown)
    (margin : grid'.margin = grid.margin) (frame : grid'.frame = grid.frame) :
    grid'.SettingsKnown :=
  ⟨margin ▸ known.margin, frame ▸ known.frame⟩

theorem SettingsKnown.apply {grid : Grid α} (known : grid.SettingsKnown)
    (operation : Operation α) : (operation.apply grid).SettingsKnown := by
  cases operation with
  | place cell value => exact known.of_eq rfl rfl
  | reserve cell => exact known.of_eq rfl rfl
  | remove cell shrink =>
    obtain ⟨cells, bounds, removed⟩ := grid.exists_remove_eq cell shrink
    rw [show (Operation.remove cell shrink).apply grid = _ from removed]
    exact known.of_eq rfl rfl
  | setWeight axis index weight => cases index <;> exact known.of_eq rfl rfl
  | setMargin x y => exact ⟨knownSetting_readSettings known.margin x y, known.frame⟩
  | setFrame x y => exact ⟨known.margin, knownSetting_readSettings known.frame x y⟩

theorem SettingsKnown.foldl {grid : Grid α} (known : grid.SettingsKnown)
    (operations : List (Operation α)) : (operations.foldl Operation.apply grid).SettingsKnown := by
  induction operations generalizing grid with
  | nil => exact known
  | cons operation rest ih => exact ih (known.apply operation)

theorem settingsKnown_empty : (empty : Grid α).SettingsKnown := by
  have nothing (axis : Axis) : KnownSetting ((PerAxis.both none).get axis) := by
    rw [PerAxis.get_both]
    exact nofun
  exact ⟨nothing, nothing⟩

def settingScopes (setting : Option Formula) : List Scope :=
  setting.toList.map fun formula => ⟨formula, extendedNames⟩

def axisScopes (grid : Grid α) (axis : Axis) : List Scope :=
  settingScopes (grid.frame.get axis) ++ settingScopes (grid.margin.get axis)

def scopes (grid : Grid α) : List Scope := grid.axisScopes .x ++ grid.axisScopes .y

theorem hingesOn_measure {setting : Option Formula} (known : KnownSetting setting)
    {env : Environment} (closes : env.bindings.Closes extendedNames) :
    HingesOn (firstMissing? (settingScopes setting)) (measure setting env) := by
  cases setting with
  | none => exact .ok 0
  | some formula =>
    rw [measure, Formula.evaluate_eq_value]
    rw [settingScopes, Option.toList_some, List.map_singleton, firstMissing?_cons]
    change HingesOn ((formula.firstOf? extendedNames).or none) _
    rw [Option.or_none]
    exact ((known formula rfl).hingesOn closes).map _

section
variable {grid : Grid α} (known : grid.SettingsKnown)
include known

theorem hingesOn_strip (parent : PixelRect) (axis : Axis) :
    HingesOn (firstMissing? (grid.axisScopes axis)) (grid.strip parent axis) := by
  have closes := Environment.closes_forContainer (ofWhole parent.width) (ofWhole parent.height)
  rw [axisScopes, firstMissing?_append]
  refine (hingesOn_measure (known.frame axis) closes).bind fun frame _ => ?_
  exact (hingesOn_measure (known.margin axis) closes).map _

theorem hingesOn_resolve {cell : Cell} (occupied : grid.contains cell = true)
    {parent : PixelRect} (converts : grid.Converts parent cell) :
    HingesOn (firstMissing? grid.scopes) (grid.resolve cell parent) := by
  have each (axis : Axis) : HingesOn (firstMissing? (grid.axisScopes axis))
      (grid.strip parent axis >>= grid.cut axis (cell.index axis)) := by
    rw [← Option.or_none (o := firstMissing? (grid.axisScopes axis))]
    refine (hingesOn_strip known parent axis).bind fun strip found => ?_
    exact ⟨_, cut_eq_ok_iff.mpr ⟨converts.edges axis strip found, rfl⟩⟩
  rw [resolve_eq occupied converts.sides, scopes, firstMissing?_append]
  exact (each .x).bind fun x _ => (each .y).map _

theorem blames_resolve {cell : Cell} (occupied : grid.contains cell = true)
    (parent : PixelRect) : Blames grid.scopes (grid.resolve cell parent) := by
  by_cases sides : ∀ axis, HoldsWhole (parent.extent.get axis)
  · have each (axis : Axis) : Blames grid.scopes
        (grid.strip parent axis >>= grid.cut axis (cell.index axis)) := by
      have among : grid.axisScopes axis ⊆ grid.scopes := by
        cases axis with
        | x => exact List.subset_append_left ..
        | y => exact List.subset_append_right ..
      refine (Blames.of_hingesOn (hingesOn_strip known parent axis) among).bind fun strip _ => ?_
      exact .of_uncaught (grid.cut_uncaught axis _ strip)
    rw [resolve_eq occupied sides]
    exact (each .x).bind fun x _ => (each .y).bind fun y _ => .ok _
  · exact .of_uncaught (resolve_uncaught occupied sides)

end

/-- A margin is measured before the frame of the other axis. -/
example : (run [.place ⟨0, 0⟩ (), .setFrame none (some "CENTERX"),
    .setMargin (some "width-HEIGHT") none]).resolve ⟨0, 0⟩ ⟨0, 0, 9, 9⟩ =
      .error (.unbound "HEIGHT") := by
  decide +kernel

end FormulaLayout.Grid
