import FormulaLayout.Proofs.Evaluation
import FormulaLayout.Proofs.Scope

/-! What the outcome of a formula depends on: the names that occur, each with the value it is known
by, and nothing else. A formula has a value as soon as all its names have one, for no operation ever
fails and none leaves an operand out. Otherwise the leftmost name without a value is the reason. -/
namespace FormulaLayout

namespace Bindings

/-- The value a name is known by, which is that of the constant where nothing is bound. -/
def known? (bindings : Bindings) (name : String) : Option Float :=
  (bindings name).or (constants.lookup name)

def Unbound (bindings : Bindings) (name : String) : Prop :=
  bindings name = none ∧ name ∉ ["pi", "e"]

instance (bindings : Bindings) (name : String) : Decidable (bindings.Unbound name) :=
  decidable_of_iff ((bindings name).isNone = true ∧ name ∉ ["pi", "e"])
    (and_congr_left' Option.isNone_iff_eq_none)

theorem read_eq_known? (bindings : Bindings) (name : String) :
    bindings.read name =
      match bindings.known? name with
      | some value => .ok value
      | none => .error (.unbound name) := by
  unfold read known?
  cases bindings name <;> rfl

theorem lookup_constants_eq_none_iff (name : String) :
    constants.lookup name = none ↔ name ∉ ["pi", "e"] := by
  simp [constants, List.lookup_eq_none_iff]

theorem lacks_iff (bindings : Bindings) (name : String) :
    bindings.lacks name = true ↔ bindings.Unbound name := by
  rw [Unbound, ← lookup_constants_eq_none_iff, ← Option.or_eq_none_iff, ← known?, lacks,
    read_eq_known?]
  cases bindings.known? name <;> simp [Except.isOk, Except.toBool]

theorem known?_assign_of_ne (bindings : Bindings) {target name : String} (other : name ≠ target)
    (value : Float) : (bindings.assign target value).known? name = bindings.known? name := by
  simp only [known?, assign, if_neg other]

end Bindings

namespace Formula

structure HangsOnNames (f : Formula) (bindings : Bindings) : Prop where
  raises : (∃ reason, f.evaluate bindings = .error reason) ↔ ∃ name ∈ f.names, bindings.Unbound name
  leftmost : ∀ before name after, f.names = before ++ name :: after →
    (∀ earlier ∈ before, ¬bindings.Unbound earlier) → bindings.Unbound name →
      f.evaluate bindings = .error (.unbound name)
  value : (∀ name ∈ f.names, ¬bindings.Unbound name) → ∃ value, f.evaluate bindings = .ok value
  agreeing : ∀ bindings' : Bindings,
    (∀ name ∈ f.names, bindings'.known? name = bindings.known? name) →
      f.evaluate bindings' = f.evaluate bindings
  beside : ∀ target ∉ f.names, ∀ value,
    f.evaluate (bindings.assign target value) = f.evaluate bindings

theorem evaluate_congr {f : Formula} {bindings bindings' : Bindings}
    (same : ∀ name ∈ f.names, bindings'.known? name = bindings.known? name) :
    f.evaluate bindings' = f.evaluate bindings := by
  rw [evaluate_eq_value, evaluate_eq_value]
  refine value_congr fun name occurs => ?_
  rw [Bindings.read_eq_known?, Bindings.read_eq_known?, same name occurs]

/-- Every formula without a hole, whatever its names and its depth, fails at its leftmost unbound
name or has a value. -/
theorem outcome_hangs_on_names {vocabulary : List String} {f : Formula}
    (leaves : f.Over vocabulary) (bindings : Bindings) : f.HangsOnNames bindings := by
  have hinges := leaves.hingesOn_lacks bindings
  rw [← evaluate_eq_value] at hinges
  refine ⟨?_, ?_, ?_, fun _ => evaluate_congr, ?_⟩
  · rw [hinges.exists_error_iff]
    simp only [List.find?_isSome, Bindings.lacks_iff]
  · intro before name after split bound unbound
    have found : f.names.find? bindings.lacks = some name := by
      rw [split, List.find?_append, List.find?_eq_none.mpr, Option.none_or,
        List.find?_cons_of_pos ((bindings.lacks_iff name).mpr unbound)]
      exact fun earlier listed => mt (bindings.lacks_iff earlier).mp (bound earlier listed)
    rw [found] at hinges
    exact hinges
  · intro bound
    have found : f.names.find? bindings.lacks = none :=
      List.find?_eq_none.mpr fun name occurs => mt (bindings.lacks_iff name).mp (bound name occurs)
    rw [found] at hinges
    exact hinges
  · intro target absent value
    refine evaluate_congr fun name occurs => bindings.known?_assign_of_ne ?_ value
    rintro rfl
    exact absent occurs

def widthOverZero : Formula :=
  .binary .times
    (.binary .plus (.binary .divide (.name "width") (.literal 0)) (.name "gap"))
    (.call .ln (.binary .root (.name "pi") (.name "inset")))

def widthOnly : Bindings := fun name => if name = "width" then some 100 else none

theorem widthOverZero_lacks_gap :
    widthOverZero.Over ["width", "gap", "pi", "inset"] ∧
      widthOverZero.evaluate widthOnly = .error (.unbound "gap") ∧
      (∃ value, widthOverZero.evaluate ((widthOnly.assign "gap" 1).assign "inset" 0) = .ok value) ∧
      ∀ value, widthOverZero.evaluate (widthOnly.assign "height" value) =
        .error (.unbound "gap") := by
  have leaves : widthOverZero.Over ["width", "gap", "pi", "inset"] :=
    .binary _ (.binary _ (.binary _ (.name (by decide)) (.literal _)) (.name (by decide)))
      (.call _ (.binary _ (.name (by decide)) (.name (by decide))))
  have outcome := outcome_hangs_on_names leaves widthOnly
  have missing : widthOverZero.evaluate widthOnly = .error (.unbound "gap") :=
    outcome.leftmost ["width"] "gap" ["pi", "inset"] (by decide) (by decide) (by decide)
  refine ⟨leaves, missing, ?_, fun value => ?_⟩
  · exact (outcome_hangs_on_names leaves _).value (by decide)
  · exact (outcome.beside "height" (by decide) value).trans missing

end Formula
end FormulaLayout
