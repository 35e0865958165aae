import FormulaLayout.Geometry.Axis
import FormulaLayout.Proofs.Bindings
import FormulaLayout.Proofs.Parsing.Names
import Mathlib.Data.List.Find

/-! Scopes. Of the names of the vocabulary, those of the container always have a value, and those of
the component only where its size is known. A formula that was read from a text has a value unless
it mentions a name that is closed to it, and then the leftmost such name is the reason. Arithmetic
gives no reason: it has a value for infinities and for what is not a number, too. -/
namespace FormulaLayout

/-- There is a value unless a name is missing, and then that name is the reason. -/
def HingesOn {α : Type} (missing : Option String) (outcome : Except Undefined α) : Prop :=
  match missing with
  | some name => outcome = .error (.unbound name)
  | none => ∃ value, outcome = .ok value

namespace HingesOn
variable {α β : Type} {missing missing' : Option String} {outcome : Except Undefined α}

theorem ok (value : α) : HingesOn none (.ok value : Except Undefined α) := ⟨value, rfl⟩

theorem bind {next : α → Except Undefined β} (first : HingesOn missing outcome)
    (second : ∀ value, outcome = .ok value → HingesOn missing' (next value)) :
    HingesOn (missing.or missing') (outcome >>= next) := by
  cases missing with
  | some name =>
    obtain rfl : outcome = .error (.unbound name) := first
    exact rfl
  | none =>
    obtain ⟨value, rfl⟩ := first
    exact second value rfl

theorem map (h : HingesOn missing outcome) (f : α → β) : HingesOn missing (outcome.map f) := by
  cases missing with
  | some name =>
    obtain rfl : outcome = .error (.unbound name) := h
    exact rfl
  | none =>
    obtain ⟨value, rfl⟩ := h
    exact ⟨f value, rfl⟩

theorem exists_error_iff (h : HingesOn missing outcome) :
    (∃ reason, outcome = .error reason) ↔ missing.isSome = true := by
  cases missing with
  | some name => exact iff_of_true ⟨_, h⟩ rfl
  | none =>
    obtain ⟨value, rfl⟩ := h
    exact iff_of_false nofun nofun

theorem caught (h : HingesOn missing outcome) {reason : Undefined}
    (failed : outcome = .error reason) : reason.caught = true := by
  subst failed
  cases missing with
  | some name =>
    obtain rfl : reason = .unbound name := Except.error.inj h
    rfl
  | none =>
    obtain ⟨value, found⟩ := h
    cases found

theorem eq_none_of_ok (h : HingesOn missing outcome) {value : α} (found : outcome = .ok value) :
    missing = none := by
  cases missing with
  | some name => cases h.symm.trans found
  | none => rfl

end HingesOn

/-- Of the names of the vocabulary, just these have no value. -/
def Bindings.Closes (bindings : Bindings) (closed : List String) : Prop :=
  ∀ name ∈ baseNames ++ extendedNames, bindings.lacks name = decide (name ∈ closed)

namespace Formula

def firstOf? (f : Formula) (closed : List String) : Option String :=
  f.names.find? (· ∈ closed)

theorem isSome_firstOf? (f : Formula) (closed : List String) :
    (f.firstOf? closed).isSome = true ↔ ∃ name ∈ f.names, name ∈ closed := by
  simp [firstOf?]

theorem Over.subset {vocabulary : List String} {f : Formula} (leaves : f.Over vocabulary) :
    f.names ⊆ vocabulary := by
  induction leaves with
  | literal => exact List.nil_subset _
  | name listed => exact List.cons_subset.mpr ⟨listed, List.nil_subset _⟩
  | negate _ ih | call _ _ ih => exact ih
  | binary _ _ _ ih ih' | extremum _ _ _ ih ih' => exact List.append_subset.mpr ⟨ih, ih'⟩

theorem Over.hingesOn_lacks {vocabulary : List String} {f : Formula} (leaves : f.Over vocabulary)
    (bindings : Bindings) : HingesOn (f.names.find? bindings.lacks) (f.value bindings) := by
  induction leaves with
  | literal value => exact .ok value
  | @name text =>
    have answers := bindings.read_answers text
    rw [names, List.find?_singleton, value]
    split at answers
    · next missing =>
      rw [if_pos missing]
      exact answers
    · next present =>
      rw [if_neg (Bool.eq_false_iff.mp present)]
      exact answers
  | negate _ ih | call _ _ ih => exact ih.map _
  | binary _ _ _ ih ih' | extremum _ _ _ ih ih' =>
    rw [names, List.find?_append]
    exact ih.bind fun a _ => ih'.map _

theorem Over.hingesOn {f : Formula} (leaves : f.Over (baseNames ++ extendedNames))
    {bindings : Bindings} {closed : List String} (closes : bindings.Closes closed) :
    HingesOn (f.firstOf? closed) (f.value bindings) := by
  have same : f.firstOf? closed = f.names.find? bindings.lacks :=
    List.find?_congr fun name occurs => (closes name (leaves.subset occurs)).symm
  rw [same]
  exact leaves.hingesOn_lacks bindings

end Formula

structure Scope where
  formula : Formula
  closed : List String
deriving DecidableEq

def firstMissing? (scopes : List Scope) : Option String :=
  scopes.findSome? fun scope => scope.formula.firstOf? scope.closed

theorem firstMissing?_cons (scope : Scope) (rest : List Scope) :
    firstMissing? (scope :: rest) =
      (scope.formula.firstOf? scope.closed).or (firstMissing? rest) := by
  rw [firstMissing?, List.findSome?_cons]
  cases scope.formula.firstOf? scope.closed <;> rfl

theorem firstMissing?_append (first second : List Scope) :
    firstMissing? (first ++ second) = (firstMissing? first).or (firstMissing? second) :=
  List.findSome?_append

theorem isSome_firstMissing? (scopes : List Scope) :
    (firstMissing? scopes).isSome = true ↔
      ∃ scope ∈ scopes, ∃ name ∈ scope.formula.names, name ∈ scope.closed := by
  simp only [firstMissing?, List.findSome?_isSome_iff, Formula.isSome_firstOf?]

theorem firstMissing?_singleton (scope : Scope) :
    firstMissing? [scope] = scope.formula.firstOf? scope.closed := by
  rw [firstMissing?_cons]
  exact Option.or_none

/-- What is caught is a name that is closed to one of these formulas, and the leftmost such name in
it. -/
def Blames {α : Type} (scopes : List Scope) (outcome : Except Undefined α) : Prop :=
  ∀ reason, outcome = .error reason → reason.caught = true →
    ∃ scope ∈ scopes, ∃ name,
      scope.formula.firstOf? scope.closed = some name ∧ reason = .unbound name

namespace Blames
variable {α β : Type} {scopes : List Scope} {outcome : Except Undefined α}

theorem ok (value : α) : Blames scopes (.ok value : Except Undefined α) := fun _ => nofun

theorem of_uncaught (uncaught : ∀ reason, outcome = .error reason → reason.caught = false) :
    Blames scopes outcome := by
  intro reason failed caught
  rw [uncaught reason failed] at caught
  cases caught

theorem of_hingesOn {some : List Scope} (hinges : HingesOn (firstMissing? some) outcome)
    (among : some ⊆ scopes) : Blames scopes outcome := by
  intro reason failed _
  cases missing : firstMissing? some with
  | none =>
    rw [missing, failed] at hinges
    obtain ⟨value, found⟩ := hinges
    cases found
  | some name =>
    rw [missing, failed] at hinges
    obtain ⟨scope, listed, first⟩ := List.exists_of_findSome?_eq_some missing
    exact ⟨scope, among listed, name, first, Except.error.inj hinges⟩

theorem of_scope (scope : Scope) (listed : scope ∈ scopes)
    (hinges : HingesOn (scope.formula.firstOf? scope.closed) outcome) : Blames scopes outcome :=
  of_hingesOn (firstMissing?_singleton scope ▸ hinges)
    (List.cons_subset.mpr ⟨listed, List.nil_subset _⟩)

theorem bind {next : α → Except Undefined β} (first : Blames scopes outcome)
    (second : ∀ value, outcome = .ok value → Blames scopes (next value)) :
    Blames scopes (outcome >>= next) := by
  cases outcome with
  | error reason =>
    intro reason' failed
    cases failed
    exact first reason rfl
  | ok value => exact second value rfl

end Blames

/-- The names that stand for the component itself on one axis. -/
def Axis.ownNames : Axis → List String
  | .x => ["CENTERX", "WIDTH"]
  | .y => ["CENTERY", "HEIGHT"]

namespace Environment

theorem closes_forContainer (width height : Float) :
    (forContainer width height).bindings.Closes extendedNames := by
  intro name listed
  simp only [bindings_forContainer, Bindings.lacks_assign]
  revert name
  decide

theorem closes_withComponent (width height : Float) (inner outer : Option Float) :
    ((forContainer width height).withComponent inner outer).bindings.Closes
      ((if inner.isNone then Axis.x.ownNames else []) ++
        if outer.isNone then Axis.y.ownNames else []) := by
  intro name listed
  rw [bindings_withComponent_eq, Bindings.lacks_withSize, Bindings.lacks_withSize,
    closes_forContainer width height name listed]
  generalize inner.isNone = first, outer.isNone = second
  revert name
  cases first <;> cases second <;> decide

end Environment
end FormulaLayout
