import FormulaLayout.Formula.Syntax
import FormulaLayout.Formula.Fault
import FormulaLayout.Number.Decimal

/-! Values of formulas. `evaluate` keeps its own stack of tasks and its own stack of values, so a
sum of any length is evaluated in constant depth; `value` says the same by recursion on the tree.
Arithmetic never fails: a division by zero or a logarithm of zero gives an infinity or no number. -/
namespace FormulaLayout
open Number

/-- The plain exponents are single operations, each rounded once, and a square root keeps the sign
of zero and has no value below it. All others go through logarithms and may miss the last bit. -/
def raise (base exponent : Float) : Float :=
  if exponent == 2 then base * base
  else if exponent == 1 then base
  else if exponent == 0.5 then base.sqrt
  else if exponent == 0 then 1
  else if exponent == -1 then 1 / base
  else base.pow exponent

/-- A root is the power with the reciprocal exponent. -/
def Operator.apply : Operator → Float → Float → Float
  | .power, a, b => raise a b
  | .root, a, b => raise b (1 / a)
  | .times, a, b => a * b
  | .divide, a, b => a / b
  | .plus, a, b => a + b
  | .minus, a, b => a - b

def UnaryFunction.apply : UnaryFunction → Float → Float
  | .cos, a => a.cos
  | .sin, a => a.sin
  | .tan, a => a.tan
  | .log, a => a.log10
  | .ln, a => a.log

/-- A tie gives the right operand, which shows on zeros of different sign. -/
def Extremum.apply (function : Extremum) (a b : Float) : Float :=
  if a.isNaN || b.isNaN then undefinedValue
  else match function with
    | .max => if a > b then a else b
    | .min => if a < b then a else b

abbrev Bindings := String → Option Float

def constants : List (String × Float) := [("pi", 3.141592653589793), ("e", 2.718281828459045)]

/-- A binding hides the constant of the same name. -/
def Bindings.read (bindings : Bindings) (name : String) : Except Undefined Float :=
  match bindings name with
  | some value => .ok value
  | none =>
    match constants.lookup name with
    | some value => .ok value
    | none => .error (.unbound name)

namespace Formula

def operands : Formula → List Formula
  | literal _ | name _ | hole => []
  | negate operand | call _ operand => [operand]
  | binary _ left right | extremum _ left right => [left, right]

/-- The value of a node from those of its operands; the last line meets no node whose operands
were all evaluated. -/
def combine (bindings : Bindings) : Formula → List Float → Except Undefined Float
  | literal value, _ => .ok value
  | name text, _ => bindings.read text
  | hole, _ => .error .hole
  | negate _, [a] => .ok (-a)
  | call function _, [a] => .ok (function.apply a)
  | binary operator _ _, [a, b] => .ok (operator.apply a b)
  | extremum function _ _, [a, b] => .ok (function.apply a b)
  | _, _ => .error .hole

inductive Task where
  | visit (f : Formula)
  | combine (f : Formula)
deriving DecidableEq

def Task.weight : Task → Nat
  | visit f => 2 * f.size
  | combine _ => 1

def Task.total : List Task → Nat
  | [] => 0
  | task :: rest => task.weight + total rest

theorem total_visits (f : Formula) (rest : List Task) :
    Task.total (f.operands.map .visit ++ rest) + 2 = 2 * f.size + Task.total rest := by
  cases f <;> simp only [operands, size, List.map_cons, List.map_nil, List.cons_append,
    List.nil_append, Task.total, Task.weight] <;> omega

/-- The newest value is first. -/
def perform (bindings : Bindings) : List Task → List Float → Except Undefined (List Float)
  | [], values => .ok values
  | .visit f :: rest, values =>
    perform bindings (f.operands.map .visit ++ .combine f :: rest) values
  | .combine f :: rest, values => do
    let count := f.operands.length
    let value ← f.combine bindings (values.take count).reverse
    perform bindings rest (value :: values.drop count)
termination_by tasks => Task.total tasks
decreasing_by
  · have := total_visits f (.combine f :: rest)
    simp only [Task.total, Task.weight] at this ⊢
    omega
  · simp [Task.total, Task.weight]

def evaluate (bindings : Bindings) (f : Formula) : Except Undefined Float := do
  match ← perform bindings [.visit f] [] with
  | [value] => .ok value
  | _ => .error .hole

def value (bindings : Bindings) : Formula → Except Undefined Float
  | literal value => .ok value
  | name text => bindings.read text
  | hole => .error .hole
  | negate operand => return -(← operand.value bindings)
  | call function operand => return function.apply (← operand.value bindings)
  | binary operator left right => do
    let a ← left.value bindings
    let b ← right.value bindings
    return operator.apply a b
  | extremum function left right => do
    let a ← left.value bindings
    let b ← right.value bindings
    return function.apply a b

theorem perform_visit (bindings : Bindings) (f : Formula) (rest : List Task)
    (values : List Float) :
    perform bindings (.visit f :: rest) values =
      (f.value bindings).bind fun v => perform bindings rest (v :: values) := by
  induction f generalizing rest values with
  | literal | name | hole => simp [perform, operands, combine, value, bind, Except.bind]
  | negate operand ih | call _ operand ih =>
    rw [perform]
    simp only [operands, List.map, List.cons_append, List.nil_append, ih, value]
    cases operand.value bindings <;>
      simp [perform, operands, combine, bind, Except.bind, pure, Except.pure]
  | binary _ left right ihLeft ihRight | extremum _ left right ihLeft ihRight =>
    rw [perform]
    simp only [operands, List.map, List.cons_append, List.nil_append, ihLeft, ihRight, value]
    cases left.value bindings <;> cases right.value bindings <;>
      simp [perform, operands, combine, bind, Except.bind, pure, Except.pure]

theorem evaluate_eq_value (bindings : Bindings) (f : Formula) :
    f.evaluate bindings = f.value bindings := by
  simp only [evaluate, perform_visit, bind, Except.bind]
  cases f.value bindings <;> simp [perform]

end Formula
end FormulaLayout
