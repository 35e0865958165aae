/-! What can be wrong with a formula. A complaint says what, a fault also where: it carries the
text without blanks and, unless the whole text is to blame, an index into it. -/
namespace FormulaLayout

/-- The complaint `stalled` is the fate of an empty extra name: it matches at any letter and
consumes nothing, so a scan that meets no longer word there would stay for ever. -/
inductive Complaint where
  | notANumber (literal : String)
  | unknownName (initial : Char)
  | unsupportedSymbol (symbol : Char)
  | stalled (initial : Char)
  | unexpected (text : String)
  | leftOperandMissing (name : String)
  | argumentMissing (name : String)
  | endsEarly
  | unbalanced
  | operandMissingBefore (text : String)
  | nestedTooDeeply
deriving DecidableEq, Repr

def Complaint.message : Complaint → String
  | notANumber literal => s!"'{literal}' is not a number"
  | unknownName initial => s!"unknown name starting with '{initial}'"
  | unsupportedSymbol symbol => s!"'{symbol}' is not a supported operator"
  | stalled initial => s!"the empty name matches at '{initial}' for ever"
  | unexpected text => s!"unexpected '{text}'"
  | leftOperandMissing name => s!"'{name}' needs a value on its left"
  | argumentMissing name =>
    s!"'{name}' must be followed by a number, variable or parenthesized group"
  | endsEarly => "expression ends where a value was expected"
  | unbalanced => "unbalanced ')'"
  | operandMissingBefore text => s!"expected a value before '{text}'"
  | nestedTooDeeply => "parentheses nest too deeply"

structure Fault where
  complaint : Complaint
  source : String
  position : Option Nat
deriving DecidableEq, Repr

def Fault.message (fault : Fault) : String :=
  if fault.source = "" then fault.complaint.message
  else
    let located := s!"{fault.complaint.message} in expression '{fault.source}'"
    match fault.position with
    | none => located
    | some index => s!"{located} (at index {index})"

/-- Why a formula has no value, or a component no rectangle. The last two are about whole numbers
that lie beyond all floats. -/
inductive Undefined where
  | unbound (name : String)
  | hole
  | tooLarge
  | halfTooLarge
deriving DecidableEq, Repr

def Undefined.message : Undefined → String
  | unbound name => s!"variable '{name}' is not available here"
  | hole => "Cannot evaluate NoneType: None"
  | tooLarge => "int too large to convert to float"
  | halfTooLarge => "integer division result too large for a float"

/-- Only a name without a value counts as a fault of the component. What else goes wrong ends
whatever is under way. -/
def Undefined.caught : Undefined → Bool
  | unbound _ => true
  | hole | tooLarge | halfTooLarge => false

end FormulaLayout
