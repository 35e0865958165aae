import FormulaLayout.Proofs.Placement.Resolution
import FormulaLayout.Proofs.Scope

/-! What the formulas of a free placement may mention. No name of the component is open to its
sizes. All are open to its positions, except those of an axis on which the size is a continuation.
A placement that was read from texts resolves on every canvas unless one of its formulas mentions a
name that is closed to it, and the formulas are tried in a fixed order: sizes before positions, and
the horizontal one before the vertical one. -/
namespace FormulaLayout
open Number

theorem Dimension.isNone_known (dimension : Dimension) (extent : Float) :
    (dimension.known extent).isNone = dimension.continuation := by
  unfold known
  cases dimension.continuation <;> rfl

theorem Dimension.over_of_parse {text : Option String} {dimension : Dimension}
    (parsed : parse text = .ok dimension) :
    dimension.formula.Over (baseNames ++ extendedNames) := by
  simp only [parse, bind_eq_ok_iff, pure, Except.pure, Except.ok.injEq] at parsed
  obtain ⟨formula, read, rfl⟩ := parsed
  simpa using FormulaLayout.over_of_parse read

namespace FreePlacement

def Known (placement : FreePlacement) : Prop :=
  ∀ axis, (placement.size.get axis).formula.Over (baseNames ++ extendedNames) ∧
    (placement.position.get axis).Over (baseNames ++ extendedNames)

theorem known_of_parse {text : PlacementText} {placement : FreePlacement}
    (parsed : parse text = .ok placement) : placement.Known := by
  intro axis
  obtain ⟨position, size⟩ := parse_eq_ok parsed axis
  exact ⟨Dimension.over_of_parse size, by simpa using over_of_parse position⟩

def closedNames (placement : FreePlacement) : List String :=
  (if placement.size.x.continuation then Axis.x.ownNames else []) ++
    if placement.size.y.continuation then Axis.y.ownNames else []

theorem mem_closedNames (placement : FreePlacement) (name : String) :
    name ∈ placement.closedNames ↔
      ∃ axis, (placement.size.get axis).continuation = true ∧ name ∈ axis.ownNames := by
  rw [closedNames, List.mem_append, List.mem_ite_nil_right, List.mem_ite_nil_right]
  constructor
  · rintro (horizontal | vertical)
    · exact ⟨.x, horizontal⟩
    · exact ⟨.y, vertical⟩
  · rintro ⟨axis, closed⟩
    cases axis with
    | x => exact .inl closed
    | y => exact .inr closed

theorem closes_surroundings (placement : FreePlacement) (canvas : PixelRect)
    (extents : PerAxis Float) :
    (placement.surroundings canvas extents).bindings.Closes placement.closedNames := by
  have closes := Environment.closes_withComponent (ofWhole canvas.width) (ofWhole canvas.height)
    (placement.size.x.known extents.x) (placement.size.y.known extents.y)
  rwa [Dimension.isNone_known, Dimension.isNone_known] at closes

def scopes (placement : FreePlacement) : List Scope :=
  [⟨placement.size.x.formula, extendedNames⟩, ⟨placement.size.y.formula, extendedNames⟩,
    ⟨placement.position.x, placement.closedNames⟩, ⟨placement.position.y, placement.closedNames⟩]

theorem mem_scopes {placement : FreePlacement} {scope : Scope} (listed : scope ∈ placement.scopes) :
    ∃ axis, scope = ⟨(placement.size.get axis).formula, extendedNames⟩ ∨
      scope = ⟨placement.position.get axis, placement.closedNames⟩ := by
  simp only [scopes, List.mem_cons, List.not_mem_nil, or_false] at listed
  obtain rfl | rfl | rfl | rfl := listed
  · exact ⟨.x, .inl rfl⟩
  · exact ⟨.y, .inl rfl⟩
  · exact ⟨.x, .inr rfl⟩
  · exact ⟨.y, .inr rfl⟩

theorem exists_scope_iff (placement : FreePlacement) :
    (∃ scope ∈ placement.scopes, ∃ name ∈ scope.formula.names, name ∈ scope.closed) ↔
      (∃ axis, ∃ name ∈ (placement.size.get axis).formula.names, name ∈ extendedNames) ∨
      ∃ axis, (placement.size.get axis).continuation = true ∧
        ∃ axis', ∃ name ∈ (placement.position.get axis').names, name ∈ axis.ownNames := by
  simp only [scopes, List.mem_cons, List.not_mem_nil, or_false, exists_eq_or_imp, exists_eq_left,
    mem_closedNames]
  constructor
  · rintro (width | height | ⟨name, mentioned, axis, marked, own⟩ |
      ⟨name, mentioned, axis, marked, own⟩)
    · exact .inl ⟨.x, width⟩
    · exact .inl ⟨.y, height⟩
    · exact .inr ⟨axis, marked, .x, name, mentioned, own⟩
    · exact .inr ⟨axis, marked, .y, name, mentioned, own⟩
  · rintro (⟨_ | _, mentions⟩ | ⟨axis, marked, _ | _, name, mentioned, own⟩)
    · exact .inl mentions
    · exact .inr (.inl mentions)
    · exact .inr (.inr (.inl ⟨name, mentioned, axis, marked, own⟩))
    · exact .inr (.inr (.inr ⟨name, mentioned, axis, marked, own⟩))

section
variable {placement : FreePlacement} (known : placement.Known)
include known

theorem hingesOn_size (canvas : PixelRect) (axis : Axis) :
    HingesOn ((placement.size.get axis).formula.firstOf? extendedNames)
      ((placement.size.get axis).formula.evaluate (Environment.ofCanvas canvas).bindings) := by
  rw [Formula.evaluate_eq_value]
  exact (known axis).1.hingesOn (Environment.closes_forContainer _ _)

theorem hingesOn_position (canvas : PixelRect) (extents : PerAxis Float) (axis : Axis) :
    HingesOn ((placement.position.get axis).firstOf? placement.closedNames)
      ((placement.position.get axis).evaluate (placement.surroundings canvas extents).bindings) := by
  rw [Formula.evaluate_eq_value]
  exact (known axis).2.hingesOn (placement.closes_surroundings canvas extents)

theorem hingesOn_resolve {canvas : PixelRect} (holds : ∀ axis, canvas.HoldsOn axis) :
    HingesOn (firstMissing? placement.scopes) (placement.resolve canvas) := by
  have extent (axis : Axis) (value : Float) :
      HingesOn none ((placement.size.get axis).extent value (canvas.origin.get axis)) :=
    Dimension.exists_extent (holds axis).1 ..
  have position (extents : PerAxis Float) (axis : Axis) :
      HingesOn ((placement.position.get axis).firstOf? placement.closedNames)
        (start (placement.position.get axis) (placement.surroundings canvas extents)
          (canvas.origin.get axis)) := by
    rw [start_of_holds (holds axis).1]
    exact (hingesOn_position known canvas extents axis).map _
  rw [resolve, Environment.forPixels_of_sides fun axis => (holds axis).2]
  simp only [scopes, firstMissing?_cons]
  refine (hingesOn_size known canvas .x).bind fun w _ => ?_
  refine (hingesOn_size known canvas .y).bind fun h _ => ?_
  refine (extent .x w).bind fun width _ => (extent .y h).bind fun height _ => ?_
  exact (position ⟨width, height⟩ .x).bind fun x _ =>
    (position ⟨width, height⟩ .y).bind fun y _ => .ok _

theorem blames_resolve (canvas : PixelRect) :
    Blames placement.scopes (placement.resolve canvas) := by
  have size (axis : Axis) : Blames placement.scopes
      ((placement.size.get axis).formula.evaluate (Environment.ofCanvas canvas).bindings) := by
    refine .of_scope ⟨_, extendedNames⟩ ?_ (hingesOn_size known canvas axis)
    cases axis <;> simp [scopes, PerAxis.get]
  have extent (axis : Axis) (value : Float) : Blames placement.scopes
      ((placement.size.get axis).extent value (canvas.origin.get axis)) := by
    unfold Dimension.extent
    split
    · exact (Blames.of_uncaught (toFloat_uncaught _)).bind fun _ _ => .ok _
    · exact .ok value
  have position (extents : PerAxis Float) (axis : Axis) : Blames placement.scopes
      (start (placement.position.get axis) (placement.surroundings canvas extents)
        (canvas.origin.get axis)) := by
    have hinges := hingesOn_position known canvas extents axis
    refine (Blames.of_scope ⟨_, placement.closedNames⟩ ?_ hinges).bind fun _ _ =>
      (Blames.of_uncaught (toFloat_uncaught _)).bind fun _ _ => .ok _
    cases axis <;> simp [scopes]
  by_cases sides : ∀ axis, HoldsWhole (canvas.extent.get axis)
  · rw [resolve, Environment.forPixels_of_sides sides]
    refine (size .x).bind fun w _ => (size .y).bind fun h _ => ?_
    refine (extent .x w).bind fun width _ => (extent .y h).bind fun height _ => ?_
    exact (position ⟨width, height⟩ .x).bind fun x _ =>
      (position ⟨width, height⟩ .y).bind fun y _ => .ok _
  · obtain ⟨reason, beyond, uncaught⟩ := Environment.forPixels_beyond sides
    rw [resolve, beyond]
    exact .of_uncaught fun reason' failed => Except.error.inj failed ▸ uncaught

end

/-- A placement fails to resolve exactly if a size mentions a name of the component, or a position
one of an axis on which the size is a continuation. It fails for the leftmost such name of the first
formula that has one; in all other cases there is a rectangle. -/
theorem resolve_fails_at_closed_name {text : PlacementText} {placement : FreePlacement}
    (parsed : parse text = .ok placement) {canvas : PixelRect}
    (holds : ∀ axis, canvas.HoldsOn axis) :
    ((∃ reason, placement.resolve canvas = .error reason) ↔
      (∃ axis, ∃ name ∈ (placement.size.get axis).formula.names, name ∈ extendedNames) ∨
      ∃ axis, (placement.size.get axis).continuation = true ∧
        ∃ axis', ∃ name ∈ (placement.position.get axis').names, name ∈ axis.ownNames) ∧
    match firstMissing? placement.scopes with
    | some name => placement.resolve canvas = .error (.unbound name)
    | none => ∃ rect, placement.resolve canvas = .ok rect := by
  have hinges := hingesOn_resolve (known_of_parse parsed) holds
  rw [hinges.exists_error_iff, isSome_firstMissing?, exists_scope_iff]
  exact ⟨Iff.rfl, hinges⟩

/-- The width is a continuation, and the height is infinite. -/
def halfOpen (x y : String) : PlacementText := ⟨some x, some y, some "?width", some "1/0"⟩

/-- On the axis of the infinite height all names are open. Of the two that are not, the one that
comes first is to blame. -/
theorem halfOpen_lacks_width :
    (∃ placement, parse (halfOpen "CENTERY-WIDTH" "CENTERX") = .ok placement ∧
      placement.resolve ⟨5, 5, 100, 20⟩ = .error (.unbound "WIDTH")) ∧
    ∃ placement, parse (halfOpen "HEIGHT/HEIGHT" "CENTERY") = .ok placement ∧
      ∃ rect, placement.resolve ⟨5, 5, 100, 20⟩ = .ok rect := by
  have closed : ∃ placement, parse (halfOpen "CENTERY-WIDTH" "CENTERX") = .ok placement ∧
      firstMissing? placement.scopes = some "WIDTH" := by decide +kernel
  have allOpen : ∃ placement, parse (halfOpen "HEIGHT/HEIGHT" "CENTERY") = .ok placement ∧
      firstMissing? placement.scopes = none := by decide +kernel
  obtain ⟨placement, parsed, missing⟩ := closed
  obtain ⟨placement', parsed', complete⟩ := allOpen
  have holds : ∀ axis, (⟨5, 5, 100, 20⟩ : PixelRect).HoldsOn axis :=
    Axis.forall_iff.mpr (by decide +kernel)
  have fails := (resolve_fails_at_closed_name parsed holds).2
  have succeeds := (resolve_fails_at_closed_name parsed' holds).2
  rw [missing] at fails
  rw [complete] at succeeds
  exact ⟨⟨placement, parsed, fails⟩, placement', parsed', succeeds⟩

end FreePlacement
end FormulaLayout
