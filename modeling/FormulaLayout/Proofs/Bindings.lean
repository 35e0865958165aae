import FormulaLayout.Environment

/-! Bindings name by name. An environment is built by assigning one name after the other, so which
names it knows does not hang on any of the values. -/
namespace FormulaLayout

namespace Bindings

def assign (bindings : Bindings) (target : String) (value : Float) : Bindings :=
  fun text => if text = target then some value else bindings text

theorem read_assign (bindings : Bindings) (target : String) (value : Float)
    (text : String) :
    (bindings.assign target value).read text =
      if text = target then .ok value else bindings.read text := by
  by_cases same : text = target
  · simp only [read, assign, if_pos same]
  · simp only [read, assign, if_neg same]

theorem get?_insert (values : OrderedMap String Float) (name : String) (value : Float) :
    (values.insert name value).get? = assign values.get? name value := by
  funext other
  simp only [OrderedMap.get?_insert, assign, eq_comm]

def withSize (bindings : Bindings) (centre extent : String) (container : Float) :
    Option Float → Bindings
  | none => bindings
  | some size => (bindings.assign centre ((container - size) / 2)).assign extent size

def lacks (bindings : Bindings) (name : String) : Bool := !(bindings.read name).isOk

theorem read_answers (bindings : Bindings) (name : String) :
    match bindings.lacks name with
    | true => bindings.read name = .error (.unbound name)
    | false => ∃ value, bindings.read name = .ok value := by
  unfold lacks read
  cases bindings name with
  | some value => exact ⟨value, rfl⟩
  | none =>
    cases constants.lookup name with
    | some value => exact ⟨value, rfl⟩
    | none => rfl

theorem lacks_assign (bindings : Bindings) (target : String) (value : Float) (name : String) :
    (bindings.assign target value).lacks name = (bindings.lacks name && name ≠ target) := by
  rw [lacks, read_assign]
  by_cases same : name = target
  · simp [same, Except.isOk, Except.toBool]
  · simp [same, lacks]

theorem lacks_withSize (bindings : Bindings) (centre extent : String) (container : Float)
    (size : Option Float) (name : String) :
    (bindings.withSize centre extent container size).lacks name =
      (bindings.lacks name && (size.isNone || name ∉ [centre, extent])) := by
  cases size with
  | none => simp [withSize]
  | some size =>
    simp only [withSize, lacks_assign, Bool.and_assoc]
    simp

end Bindings

namespace Environment

theorem bindings_forContainer (width height : Float) :
    (forContainer width height).bindings =
      ((((Bindings.assign (OrderedMap.ofList constants).get? "centerx" (width / 2)).assign
        "centery" (height / 2)).assign "width" width).assign "height" height) := by
  simp only [← Bindings.get?_insert]
  rfl

theorem bindings_withComponent_eq (env : Environment) (width height : Option Float) :
    (env.withComponent width height).bindings =
      (env.bindings.withSize "CENTERX" "WIDTH" env.width width).withSize "CENTERY" "HEIGHT"
        env.height height := by
  cases width <;> cases height <;>
    simp only [Bindings.withSize, bindings, ← Bindings.get?_insert] <;> rfl

end Environment
end FormulaLayout
