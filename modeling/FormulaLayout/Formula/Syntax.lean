import FormulaLayout.Number.Written

/-! Formula trees. A formula is parsed once and evaluated many times. A hole stands where a tree
assembled by hand lacks a subformula: it can be shown, but it has no value. -/
namespace FormulaLayout

inductive Operator where
  | power | root | times | divide | plus | minus
deriving DecidableEq, Repr

def Operator.symbol : Operator → String
  | .power => "^"
  | .root => "r"
  | .times => "*"
  | .divide => "/"
  | .plus => "+"
  | .minus => "-"

inductive UnaryFunction where
  | cos | sin | tan | log | ln
deriving DecidableEq, Repr

def UnaryFunction.name : UnaryFunction → String
  | .cos => "cos"
  | .sin => "sin"
  | .tan => "tan"
  | .log => "log"
  | .ln => "ln"

inductive Extremum where
  | max | min
deriving DecidableEq, Repr

def Extremum.name : Extremum → String
  | .max => "max"
  | .min => "min"

inductive Formula where
  | literal (value : Float)
  | name (text : String)
  | negate (operand : Formula)
  | binary (operator : Operator) (left right : Formula)
  | call (function : UnaryFunction) (operand : Formula)
  | extremum (function : Extremum) (left right : Formula)
  | hole
deriving DecidableEq

namespace Formula

def zero : Formula := .literal 0

instance : Inhabited Formula := ⟨zero⟩

/-- A negation binds to what follows it and needs no parentheses, infix forms always carry
theirs. -/
def render : Formula → String
  | literal value => Number.general value
  | name text => text
  | negate operand => s!"-{operand.render}"
  | binary operator left right => s!"({left.render} {operator.symbol} {right.render})"
  | call function operand => s!"{function.name}({operand.render})"
  | extremum function left right => s!"({left.render} {function.name} {right.render})"
  | hole => "None"

def size : Formula → Nat
  | literal _ | name _ | hole => 1
  | negate operand | call _ operand => operand.size + 1
  | binary _ left right | extremum _ left right => left.size + right.size + 1

def negateIf (negated : Bool) (f : Formula) : Formula := if negated then .negate f else f

def names : Formula → List String
  | literal _ | hole => []
  | name text => [text]
  | negate operand | call _ operand => operand.names
  | binary _ left right | extremum _ left right => left.names ++ right.names

end Formula
end FormulaLayout
