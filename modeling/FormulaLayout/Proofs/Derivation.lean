import FormulaLayout.Proofs.Scope
import Mathlib.Data.List.Induction

/-! Environments derived from one another. A derivation binds two names on each axis on which it is
given a size: the offset that centres a component of this size, and the size. Over a whole chain the
last size on each axis counts, and an axis without any leaves its names unbound. The names of an
axis stand behind all that were there when the axis was first given a size, and the names of the
container stay as they are. -/
namespace FormulaLayout

def PerAxis.present {α : Type} (pair : PerAxis (Option α)) : List (Axis × α) :=
  [Axis.x, .y].filterMap fun axis => (pair.get axis).map (axis, ·)

namespace Axis

def centreName : Axis → String
  | x => "CENTERX"
  | y => "CENTERY"

def extentName : Axis → String
  | x => "WIDTH"
  | y => "HEIGHT"

theorem ownNames_eq (axis : Axis) : axis.ownNames = [axis.centreName, axis.extentName] := by
  cases axis <;> rfl

@[simp] theorem centreName_inj {axis axis' : Axis} :
    axis.centreName = axis'.centreName ↔ axis = axis' := by
  cases axis <;> cases axis' <;> decide

@[simp] theorem extentName_inj {axis axis' : Axis} :
    axis.extentName = axis'.extentName ↔ axis = axis' := by
  cases axis <;> cases axis' <;> decide

@[simp] theorem extentName_ne_centreName (axis axis' : Axis) :
    axis.extentName ≠ axis'.centreName := by
  cases axis <;> cases axis' <;> decide

theorem mem_extendedNames_iff {name : String} :
    name ∈ extendedNames ↔ ∃ axis : Axis, name ∈ axis.ownNames := by
  constructor
  · intro extended
    simp only [extendedNames, List.mem_cons, List.not_mem_nil, or_false] at extended
    obtain rfl | rfl | rfl | rfl := extended
    · exact ⟨.x, by decide⟩
    · exact ⟨.y, by decide⟩
    · exact ⟨.x, by decide⟩
    · exact ⟨.y, by decide⟩
  · rintro ⟨axis, own⟩
    revert name
    cases axis <;> decide

theorem centreName_mem_flatMap {axis : Axis} {axes : List Axis} :
    axis.centreName ∈ axes.flatMap ownNames ↔ axis ∈ axes := by
  have apart (axis' : Axis) : axis.centreName ≠ axis'.extentName :=
    (extentName_ne_centreName axis' axis).symm
  simp [ownNames_eq, apart]

theorem extentName_mem_flatMap {axis : Axis} {axes : List Axis} :
    axis.extentName ∈ axes.flatMap ownNames ↔ axis ∈ axes := by
  simp [ownNames_eq]

end Axis

def lastOn? (given : List (Axis × Float)) (axis : Axis) : Option Float :=
  (given.filterMap fun part => if part.1 = axis then some part.2 else none).getLast?

theorem lastOn?_concat (given : List (Axis × Float)) (axis axis' : Axis) (size : Float) :
    lastOn? (given ++ [(axis', size)]) axis =
      if axis' = axis then some size else lastOn? given axis := by
  rw [lastOn?, List.filterMap_append]
  by_cases here : axis' = axis
  · simp [here]
  · simp [here, lastOn?]

def givenAxes (given : List (Axis × Float)) : List Axis := (given.map Prod.fst).eraseDups

theorem mem_givenAxes {given : List (Axis × Float)} {axis : Axis} :
    axis ∈ givenAxes given ↔ axis ∈ given.map Prod.fst :=
  List.mem_eraseDups

theorem givenAxes_concat (given : List (Axis × Float)) (axis : Axis) (size : Float) :
    givenAxes (given ++ [(axis, size)]) =
      if axis ∈ givenAxes given then givenAxes given else givenAxes given ++ [axis] := by
  rw [givenAxes, List.map_append, List.eraseDups_append]
  by_cases before : axis ∈ given.map Prod.fst
  · rw [if_pos (mem_givenAxes.mpr before)]
    simp [List.removeAll, before, givenAxes]
  · rw [if_neg (mt mem_givenAxes.mp before)]
    simp [List.removeAll, before, givenAxes, List.eraseDups_cons]

namespace Environment

def container (env : Environment) : PerAxis Float := ⟨env.width, env.height⟩

def Bare (env : Environment) : Prop :=
  ∀ axis : Axis, axis.centreName ∉ env.values.keys ∧ axis.extentName ∉ env.values.keys

theorem bare_forContainer (width height : Float) : (forContainer width height).Bare := by
  rw [Bare, keys_forContainer]
  intro axis
  cases axis <;> decide

theorem bindings_of_not_mem {env : Environment} {name : String} (absent : name ∉ env.values.keys) :
    env.bindings name = none := by
  rw [← OrderedMap.contains_iff_mem_keys, OrderedMap.contains] at absent
  exact Option.not_isSome_iff_eq_none.mp absent

def bindSize (env : Environment) (part : Axis × Float) : Environment :=
  let offset := (env.container.get part.1 - part.2) / 2
  { env with values := (env.values.insert part.1.centreName offset).insert part.1.extentName part.2 }

def derive (env : Environment) (sizes : List (PerAxis (Option Float))) : Environment :=
  sizes.foldl (fun env size => env.withComponent size.x size.y) env

theorem withComponent_eq_foldl (env : Environment) (size : PerAxis (Option Float)) :
    env.withComponent size.x size.y = size.present.foldl bindSize env := by
  obtain ⟨width, height⟩ := size
  cases width <;> cases height <;> rfl

theorem derive_eq_foldl (env : Environment) (sizes : List (PerAxis (Option Float))) :
    env.derive sizes = (sizes.flatMap PerAxis.present).foldl bindSize env := by
  rw [List.foldl_flatMap, derive]
  simp only [withComponent_eq_foldl]

theorem bindings_bindSize (env : Environment) (axis : Axis) (size : Float) (name : String) :
    (env.bindSize (axis, size)).bindings name =
      if axis.extentName = name then some size
      else if axis.centreName = name then some ((env.container.get axis - size) / 2)
      else env.bindings name := by
  rw [bindings, bindSize, OrderedMap.get?_insert, OrderedMap.get?_insert]
  rfl

theorem keys_bindSize {base env : Environment} {axes : List Axis} (bare : base.Bare)
    (keys : env.values.keys = base.values.keys ++ axes.flatMap Axis.ownNames) (axis : Axis)
    (size : Float) :
    (env.bindSize (axis, size)).values.keys =
      base.values.keys ++ (if axis ∈ axes then axes else axes ++ [axis]).flatMap Axis.ownNames := by
  obtain ⟨noCentre, noExtent⟩ := bare axis
  have centre : axis.centreName ∈ env.values.keys ↔ axis ∈ axes := by
    rw [keys, List.mem_append, or_iff_right noCentre, Axis.centreName_mem_flatMap]
  have extent : axis.extentName ∈ env.values.keys ↔ axis ∈ axes := by
    rw [keys, List.mem_append, or_iff_right noExtent, Axis.extentName_mem_flatMap]
  rw [bindSize, OrderedMap.keys_insert, OrderedMap.keys_insert]
  by_cases before : axis ∈ axes
  · rw [if_pos before, if_pos (centre.mpr before), if_pos (extent.mpr before), keys]
  · have last : axis.extentName ∉ env.values.keys ++ [axis.centreName] := by
      simp [extent, before]
    rw [if_neg before, if_neg (mt centre.mp before), if_neg last, keys, List.flatMap_append,
      List.flatMap_singleton, Axis.ownNames_eq]
    simp only [List.append_assoc, List.singleton_append]

/-- What an environment knows after sizes were given one by one. -/
structure Told (base env : Environment) (given : List (Axis × Float)) : Prop where
  container : env.container = base.container
  keys : env.values.keys = base.values.keys ++ (givenAxes given).flatMap Axis.ownNames
  centre : ∀ axis : Axis, env.bindings axis.centreName =
    (lastOn? given axis).map fun size => (base.container.get axis - size) / 2
  extent : ∀ axis : Axis, env.bindings axis.extentName = lastOn? given axis
  others : ∀ name ∉ extendedNames, env.bindings name = base.bindings name

theorem Told.start {base : Environment} (bare : base.Bare) : Told base base [] where
  container := rfl
  keys := (List.append_nil _).symm
  centre axis := bindings_of_not_mem (bare axis).1
  extent axis := bindings_of_not_mem (bare axis).2
  others _ _ := rfl

theorem Told.bindSize {base env : Environment} {given : List (Axis × Float)} (bare : base.Bare)
    (told : Told base env given) (axis : Axis) (size : Float) :
    Told base (env.bindSize (axis, size)) (given ++ [(axis, size)]) where
  container := told.container
  keys := by
    rw [keys_bindSize bare told.keys, givenAxes_concat]
  centre axis' := by
    rw [bindings_bindSize, if_neg (Axis.extentName_ne_centreName axis axis'), lastOn?_concat,
      told.centre, told.container]
    by_cases same : axis = axis' <;> simp [same]
  extent axis' := by
    rw [bindings_bindSize, if_neg (Axis.extentName_ne_centreName axis' axis).symm, lastOn?_concat,
      told.extent]
    by_cases same : axis = axis' <;> simp [same]
  others name foreign := by
    have apart : name ∉ axis.ownNames := fun own =>
      foreign (Axis.mem_extendedNames_iff.mpr ⟨axis, own⟩)
    rw [Axis.ownNames_eq, List.mem_cons, List.mem_singleton, not_or] at apart
    rw [bindings_bindSize, if_neg (Ne.symm apart.2), if_neg (Ne.symm apart.1),
      told.others name foreign]

theorem told_foldl {base : Environment} (bare : base.Bare) (given : List (Axis × Float)) :
    Told base (given.foldl Environment.bindSize base) given := by
  induction given using List.reverseRecOn with
  | nil => exact .start bare
  | append_singleton given part ih =>
    rw [List.foldl_append]
    exact ih.bindSize bare part.1 part.2

theorem told_derive {base : Environment} (bare : base.Bare)
    (sizes : List (PerAxis (Option Float))) :
    Told base (base.derive sizes) (sizes.flatMap PerAxis.present) := by
  rw [derive_eq_foldl]
  exact told_foldl bare _

def lastSize? (sizes : List (PerAxis (Option Float))) (axis : Axis) : Option Float :=
  (sizes.filterMap fun size => size.get axis).getLast?

theorem isSome_lastSize? (sizes : List (PerAxis (Option Float))) (axis : Axis) :
    (lastSize? sizes axis).isSome = true ↔ ∃ size ∈ sizes, (size.get axis).isSome = true := by
  rw [lastSize?, List.getLast?_isSome, Ne, List.filterMap_eq_nil_iff]
  simp [Option.isSome_iff_ne_none]

theorem lastOn?_present (sizes : List (PerAxis (Option Float))) (axis : Axis) :
    lastOn? (sizes.flatMap PerAxis.present) axis = lastSize? sizes axis := by
  refine congrArg List.getLast? ?_
  induction sizes with
  | nil => rfl
  | cons size rest ih =>
    rw [List.flatMap_cons, List.filterMap_append, ih]
    obtain ⟨width, height⟩ := size
    cases axis <;> cases width <;> cases height <;> rfl

def addedAxes (sizes : List (PerAxis (Option Float))) : List Axis :=
  givenAxes (sizes.flatMap PerAxis.present)

structure Derived (width height : Float) (sizes : List (PerAxis (Option Float)))
    (env : Environment) : Prop where
  base : ∀ name ∈ baseNames, env.bindings name = (forContainer width height).bindings name
  offset : ∀ axis : Axis, env.bindings axis.centreName =
    (lastSize? sizes axis).map fun size => (PerAxis.get ⟨width, height⟩ axis - size) / 2
  size : ∀ axis : Axis, env.bindings axis.extentName = lastSize? sizes axis
  added : ∀ axis : Axis, ∀ name ∈ axis.ownNames, (env.bindings name).isSome = true ↔
    ∃ size ∈ sizes, (size.get axis).isSome = true
  others : ∀ name, name ∉ baseNames → name ∉ extendedNames → env.bindings name = none
  order : env.values.keys = ["pi", "e", "centerx", "centery", "width", "height"] ++
    (addedAxes sizes).flatMap Axis.ownNames

/-- Whatever sizes a chain of derivations gives, its last environment binds the names of the
container as before, those of an axis by the last size on it, and nothing else. -/
theorem derive_binds_last_sizes (width height : Float) (sizes : List (PerAxis (Option Float))) :
    Derived width height sizes ((forContainer width height).derive sizes) := by
  have told := told_derive (bare_forContainer width height) sizes
  constructor
  case base =>
    intro name listed
    exact told.others name (by revert name; decide)
  case offset =>
    intro axis
    rw [told.centre, lastOn?_present]
    rfl
  case size =>
    intro axis
    rw [told.extent, lastOn?_present]
  case added =>
    intro axis name own
    rw [← isSome_lastSize?, ← lastOn?_present]
    rw [Axis.ownNames_eq, List.mem_cons, List.mem_singleton] at own
    obtain rfl | rfl := own
    · rw [told.centre, Option.isSome_map]
    · rw [told.extent]
  case others =>
    intro name strange strange'
    rw [told.others name strange']
    refine bindings_of_not_mem ?_
    rw [keys_forContainer]
    simp only [baseNames, List.mem_cons, List.not_mem_nil, or_false, not_or] at strange ⊢
    tauto
  case order =>
    rw [told.keys, keys_forContainer]
    rfl

example :
    ((forContainer 10 8).derive
      [⟨none, some 2⟩, ⟨none, none⟩, ⟨some 4, some 6⟩]).values.entries.drop 6 =
      [("CENTERY", 1), ("HEIGHT", 6), ("CENTERX", 3), ("WIDTH", 4)] := by decide +kernel

end Environment
end FormulaLayout
