import FormulaLayout.Formula.Evaluate

/-! Evaluation on explicit stacks against evaluation by recursion. A walk is a moment of the
evaluation: what is still to be done and the values found so far. Every walk that is ever reached
has enough values for its next task, a walk without tasks has exactly one, and the steps are at
most two for each node. A formula without a value is at fault where the first of its nodes, in
post-order, has no value of its own. -/
namespace FormulaLayout

structure Walk where
  tasks : List Formula.Task
  values : List Float

namespace Walk
open Formula

def start (f : Formula) : Walk := ⟨[.visit f], []⟩

/-- One turn of the loop, or nothing when no task is left. -/
def next? (bindings : Bindings) (walk : Walk) : Option (Except Undefined Walk) :=
  match walk.tasks with
  | [] => none
  | .visit f :: rest => some (.ok ⟨f.operands.map .visit ++ .combine f :: rest, walk.values⟩)
  | .combine f :: rest =>
    let count := f.operands.length
    some ((f.combine bindings (walk.values.take count).reverse).map fun value =>
      ⟨rest, value :: walk.values.drop count⟩)

theorem perform_eq_next? (bindings : Bindings) (walk : Walk) :
    perform bindings walk.tasks walk.values =
      match walk.next? bindings with
      | none => .ok walk.values
      | some outcome => outcome.bind fun later => perform bindings later.tasks later.values := by
  obtain ⟨tasks, values⟩ := walk
  match tasks with
  | [] => simp [next?, perform]
  | .visit f :: rest => simp [next?, perform, Except.bind]
  | .combine f :: rest =>
    rw [perform]
    simp only [next?, bind]
    cases f.combine bindings (values.take f.operands.length).reverse <;> rfl

inductive Reaches (bindings : Bindings) (origin : Walk) : Nat → Walk → Prop
  | here : Reaches bindings origin 0 origin
  | turn {steps : Nat} {walk later : Walk} :
      Reaches bindings origin steps walk → walk.next? bindings = some (.ok later) →
      Reaches bindings origin (steps + 1) later

/-- A depth of values on which the tasks can be carried out one after the other, so that one value
is left in the end. -/
def Suffices : Nat → List Task → Prop
  | depth, [] => depth = 1
  | depth, .visit _ :: rest => Suffices (depth + 1) rest
  | depth, .combine f :: rest =>
    f.operands.length ≤ depth ∧ Suffices (depth - f.operands.length + 1) rest

theorem suffices_visits (formulas : List Formula) (depth : Nat) (rest : List Task) :
    Suffices depth (formulas.map .visit ++ rest) ↔ Suffices (depth + formulas.length) rest := by
  induction formulas generalizing depth with
  | nil => rfl
  | cons f formulas ih =>
    simp only [List.map_cons, List.cons_append, Suffices, ih, List.length_cons]
    rw [Nat.add_assoc, Nat.add_comm 1]

theorem suffices_next {bindings : Bindings} {walk later : Walk}
    (h : Suffices walk.values.length walk.tasks)
    (step : walk.next? bindings = some (.ok later)) :
    Suffices later.values.length later.tasks := by
  obtain ⟨tasks, values⟩ := walk
  match tasks with
  | [] => simp [next?] at step
  | .visit f :: rest =>
    simp only [next?, Option.some.injEq, Except.ok.injEq] at step
    subst step
    rw [suffices_visits]
    exact ⟨by omega, by simpa [Suffices] using h⟩
  | .combine f :: rest =>
    simp only [next?, Option.some.injEq] at step
    cases combined : f.combine bindings (values.take f.operands.length).reverse with
    | error reason => simp [combined, Except.map] at step
    | ok value =>
      simp only [combined, Except.map, Except.ok.injEq] at step
      subst step
      simpa using h.2

theorem Reaches.suffices {bindings : Bindings} {f : Formula} {steps : Nat} {walk : Walk}
    (h : Reaches bindings (start f) steps walk) :
    Suffices walk.values.length walk.tasks := by
  induction h with
  | here => rfl
  | turn _ step ih => exact suffices_next ih step

theorem total_next {bindings : Bindings} {walk later : Walk}
    (step : walk.next? bindings = some (.ok later)) :
    Task.total later.tasks < Task.total walk.tasks := by
  obtain ⟨tasks, values⟩ := walk
  match tasks with
  | [] => simp [next?] at step
  | .visit f :: rest =>
    simp only [next?, Option.some.injEq, Except.ok.injEq] at step
    subst step
    have := total_visits f (.combine f :: rest)
    simp only [Task.total, Task.weight] at this ⊢
    omega
  | .combine f :: rest =>
    simp only [next?, Option.some.injEq] at step
    cases combined : f.combine bindings (values.take f.operands.length).reverse with
    | error reason => simp [combined, Except.map] at step
    | ok value =>
      simp only [combined, Except.map, Except.ok.injEq] at step
      subst step
      simp [Task.total, Task.weight]

theorem Reaches.steps_add_total {bindings : Bindings} {origin walk : Walk} {steps : Nat}
    (h : Reaches bindings origin steps walk) :
    steps + Task.total walk.tasks ≤ Task.total origin.tasks := by
  induction h with
  | here => omega
  | turn _ step ih =>
    have := total_next step
    omega

theorem exists_reaches_of_perform {bindings : Bindings} {origin : Walk} (walk : Walk) (steps : Nat)
    (h : Reaches bindings origin steps walk) :
    ∃ later steps', Reaches bindings origin steps' later ∧
      match perform bindings walk.tasks walk.values with
      | .ok values => later = ⟨[], values⟩
      | .error reason => later.next? bindings = some (.error reason) := by
  rw [perform_eq_next?]
  cases turn : walk.next? bindings with
  | none =>
    obtain ⟨tasks, values⟩ := walk
    match tasks with
    | [] => exact ⟨_, steps, h, rfl⟩
    | .visit f :: rest => simp [next?] at turn
    | .combine f :: rest => simp [next?] at turn
  | some outcome =>
    cases outcome with
    | error reason => exact ⟨walk, steps, h, turn⟩
    | ok later =>
      have := total_next turn
      exact exists_reaches_of_perform later (steps + 1) (h.turn turn)
termination_by Task.total walk.tasks

theorem Reaches.perform_eq {bindings : Bindings} {origin walk : Walk} {steps : Nat}
    (h : Reaches bindings origin steps walk) :
    perform bindings walk.tasks walk.values = perform bindings origin.tasks origin.values := by
  induction h with
  | here => rfl
  | @turn _ walk later _ step ih =>
    rw [← ih, perform_eq_next? bindings walk, step]
    rfl

end Walk

namespace Formula

theorem value_congr {bindings bindings' : Bindings} {f : Formula}
    (same : ∀ name ∈ f.names, bindings.read name = bindings'.read name) :
    f.value bindings = f.value bindings' := by
  induction f with
  | literal | hole => rfl
  | name text => exact same text (List.mem_singleton_self text)
  | negate operand ih | call _ operand ih => simp only [value, ih same]
  | binary _ left right ihLeft ihRight | extremum _ left right ihLeft ihRight =>
    have left' := ihLeft fun name occurs => same name (List.mem_append_left _ occurs)
    have right' := ihRight fun name occurs => same name (List.mem_append_right _ occurs)
    simp only [value, left', right']

/-- The nodes, each after its operands and the left operand first. -/
def postorder : Formula → List Formula
  | literal value => [literal value]
  | name text => [name text]
  | hole => [hole]
  | negate operand => operand.postorder ++ [negate operand]
  | call function operand => operand.postorder ++ [call function operand]
  | binary operator left right =>
    left.postorder ++ right.postorder ++ [binary operator left right]
  | extremum function left right =>
    left.postorder ++ right.postorder ++ [extremum function left right]

/-- Why the node itself, whatever its operands, has no value. -/
def undefinedAt (bindings : Bindings) : Formula → Option Undefined
  | name text =>
    if bindings text = none ∧ constants.lookup text = none then some (.unbound text) else none
  | hole => some .hole
  | _ => none

theorem read_undefined (bindings : Bindings) (text : String) :
    (name text).undefinedAt bindings =
      match bindings.read text with
      | .ok _ => none
      | .error reason => some reason := by
  unfold undefinedAt Bindings.read
  cases bound : bindings text with
  | some value => simp [bound]
  | none =>
    cases known : constants.lookup text <;> simp only [bound, known, true_and] <;> rfl

theorem findSome?_postorder (bindings : Bindings) (f : Formula) :
    f.postorder.findSome? (undefinedAt bindings) =
      match f.value bindings with
      | .ok _ => none
      | .error reason => some reason := by
  induction f with
  | literal number => simp [postorder, value, undefinedAt]
  | name text =>
    simp only [postorder, value, List.findSome?_singleton]
    exact read_undefined bindings text
  | hole => simp [postorder, value, undefinedAt]
  | negate operand ih | call _ operand ih =>
    simp only [postorder, List.findSome?_append, ih, value]
    cases operand.value bindings <;> simp [undefinedAt, bind, Except.bind, pure, Except.pure]
  | binary _ left right ihLeft ihRight | extremum _ left right ihLeft ihRight =>
    simp only [postorder, List.findSome?_append, ihLeft, ihRight, value]
    cases left.value bindings with
    | error reason => simp [bind, Except.bind]
    | ok a =>
      cases right.value bindings <;> simp [undefinedAt, bind, Except.bind, pure, Except.pure]

theorem perform_start (bindings : Bindings) (f : Formula) :
    perform bindings (Walk.start f).tasks (Walk.start f).values =
      (f.value bindings).map fun v => [v] := by
  rw [Walk.start, perform_visit]
  cases f.value bindings <;> simp [Except.bind, Except.map, perform]

/-- The stacks give what the recursion gives. On the way no task lacks values, the turns are
bounded by the size, and the loop ends with the one value or at the first node, in post-order,
that has none. -/
theorem evaluate_on_stacks (bindings : Bindings) (f : Formula) :
    f.evaluate bindings = f.value bindings ∧
    (∀ steps walk, Walk.Reaches bindings (.start f) steps walk →
      steps ≤ 2 * f.size ∧
      (∀ g rest, walk.tasks = .combine g :: rest → g.operands.length ≤ walk.values.length) ∧
      (walk.tasks = [] → ∃ v, walk.values = [v] ∧ f.value bindings = .ok v)) ∧
    (∃ steps walk, Walk.Reaches bindings (.start f) steps walk ∧
      match f.value bindings with
      | .ok v => walk = ⟨[], [v]⟩
      | .error reason => walk.next? bindings = some (.error reason)) ∧
    (∀ reason, f.value bindings = .error reason ↔
      f.postorder.findSome? (undefinedAt bindings) = some reason) := by
  refine ⟨evaluate_eq_value bindings f, ?_, ?_, ?_⟩
  · intro steps walk reached
    have enough := reached.suffices
    refine ⟨?_, ?_, ?_⟩
    · have := reached.steps_add_total
      simp only [Walk.start, Task.total, Task.weight] at this
      omega
    · intro g rest next
      rw [next] at enough
      exact enough.1
    · intro done
      rw [done] at enough
      obtain ⟨v, values⟩ := List.length_eq_one_iff.mp enough
      refine ⟨v, values, ?_⟩
      have same := reached.perform_eq
      rw [perform_start, done, values, perform] at same
      cases found : f.value bindings with
      | error reason => simp [found, Except.map] at same
      | ok w => simpa [found, Except.map, eq_comm] using same
  · obtain ⟨walk, steps, reached, led⟩ :=
      @Walk.exists_reaches_of_perform bindings _ (.start f) 0 .here
    refine ⟨steps, walk, reached, ?_⟩
    rw [perform_start] at led
    cases found : f.value bindings <;> simpa [found, Except.map] using led
  · intro reason
    rw [findSome?_postorder]
    cases f.value bindings <;> simp

end Formula
end FormulaLayout
