import FormulaLayout.Formula.Token

/-! Reading tokens from left to right. A level is what one open parenthesis encloses. On every
level the pending connectives, each with its left operand, grow tighter towards the top; a new
connective first joins all that bind at least as tightly, which makes every tier associate to the
left. A minus after a value is a plus with the sign on the next operand, and two adjacent values
multiply. Parentheses still open at the end are closed there. -/
namespace FormulaLayout

inductive Connective where
  | plus | divide | times | root | power | min | max
deriving DecidableEq, Repr

namespace Connective

/-- Loosest first. -/
def tier : Connective → Nat
  | plus => 0
  | divide => 1
  | times => 2
  | root => 3
  | power => 4
  | min => 5
  | max => 6

def join : Connective → Formula → Formula → Formula
  | plus => .binary .plus
  | divide => .binary .divide
  | times => .binary .times
  | root => .binary .root
  | power => .binary .power
  | min => .extremum .min
  | max => .extremum .max

def ofOperator : Operator → Connective
  | .power => power
  | .root => root
  | .times => times
  | .divide => divide
  | .plus | .minus => plus

def ofExtremum : Extremum → Connective
  | .max => max
  | .min => min

end Connective

abbrev Pending := List (Connective × Formula)

def Pending.collapse (tier : Nat) : Pending → Formula → Pending × Formula
  | [], value => ([], value)
  | (connective, left) :: rest, value =>
    if tier ≤ connective.tier then collapse tier rest (connective.join left value)
    else ((connective, left) :: rest, value)

def Pending.close : Pending → Formula → Formula
  | [], value => value
  | (connective, left) :: rest, value => close rest (connective.join left value)

theorem Pending.collapse_zero (pending : Pending) (value : Formula) :
    collapse 0 pending value = ([], pending.close value) := by
  induction pending generalizing value with
  | nil => rfl
  | cons head rest ih => simp [collapse, close, ih]

/-- Where the next value goes. A sign may be given once in front of an operand and once more in
front of the argument of a function. -/
inductive Slot where
  | operand (negated signed : Bool)
  | argument (negated : Bool) (function : UnaryFunction) (argumentNegated : Bool)
deriving DecidableEq

def Slot.fill : Slot → Formula → Formula
  | operand negated _, value => .negateIf negated value
  | argument negated function argumentNegated, value =>
    .negateIf negated (.call function (.negateIf argumentNegated value))

inductive Phase where
  | start
  | awaiting (slot : Slot)
  | holding (value : Formula)
deriving DecidableEq

structure ParserState where
  outer : List (Pending × Slot)
  pending : Pending
  phase : Phase
deriving DecidableEq

namespace ParserState

def initial : ParserState := ⟨[], [], .start⟩

def connect (state : ParserState) (connective : Connective) (value : Formula) (slot : Slot) :
    ParserState :=
  let (pending, left) := state.pending.collapse connective.tier value
  { state with pending := (connective, left) :: pending, phase := .awaiting slot }

def hold (state : ParserState) (value : Formula) : ParserState :=
  { state with phase := .holding value }

def await (state : ParserState) (slot : Slot) : ParserState :=
  { state with phase := .awaiting slot }

def openGroup (limit : Option Nat) (state : ParserState) (slot : Slot) :
    Except Complaint ParserState :=
  if limit.any (· ≤ state.outer.length) then .error .nestedTooDeeply
  else .ok ⟨(state.pending, slot) :: state.outer, [], .start⟩

def receive (limit : Option Nat) (state : ParserState) (slot : Slot) (token : Token) :
    Except Complaint ParserState :=
  match token.kind, slot with
  | .number value, slot => .ok (state.hold (slot.fill (.literal value)))
  | .name, slot => .ok (state.hold (slot.fill (.name token.text)))
  | .opening, slot => state.openGroup limit slot
  | .operator .minus, .operand negated false => .ok (state.await (.operand (!negated) true))
  | .operator .minus, .argument negated function false =>
    .ok (state.await (.argument negated function true))
  | _, .argument _ function _ => .error (.argumentMissing function.name)
  | .function function, .operand negated _ =>
    .ok (state.await (.argument negated function false))
  | .extremum function, .operand .. => .error (.leftOperandMissing function.name)
  | .operator _, .operand .. => .error (.operandMissingBefore token.text)
  | .closing, .operand .. => .error .unbalanced

def step (limit : Option Nat) (state : ParserState) (token : Token) :
    Except Complaint ParserState :=
  match state.phase with
  | .start =>
    match token.kind, state.outer with
    | .closing, (pending, slot) :: outer => .ok ⟨outer, pending, .holding (slot.fill .zero)⟩
    | _, _ => state.receive limit (.operand false false) token
  | .awaiting slot => state.receive limit slot token
  | .holding value =>
    match token.kind with
    | .operator operator =>
      .ok (state.connect (.ofOperator operator) value (.operand (operator = .minus) false))
    | .extremum function =>
      .ok (state.connect (.ofExtremum function) value (.operand false false))
    | .closing =>
      match state.outer with
      | [] => .error (.unexpected token.text)
      | (pending, slot) :: outer =>
        .ok ⟨outer, pending, .holding (slot.fill (state.pending.close value))⟩
    | _ =>
      (state.connect .times value (.operand false false)).receive limit (.operand false false)
        token

def closeAll : List (Pending × Slot) → Formula → Formula
  | [], value => value
  | (pending, slot) :: outer, value => closeAll outer (pending.close (slot.fill value))

def finish (state : ParserState) : Except Complaint Formula :=
  match state.phase with
  | .start => .ok (closeAll state.outer .zero)
  | .holding value => .ok (closeAll state.outer (state.pending.close value))
  | .awaiting (.operand ..) => .error .endsEarly
  | .awaiting (.argument _ function _) => .error (.argumentMissing function.name)

/-- Nesting is a matter of the whole text, all other complaints point at their token. -/
def run (limit : Option Nat) (source : String) (state : ParserState) :
    List Token → Except Fault ParserState
  | [] => .ok state
  | token :: rest =>
    match state.step limit token with
    | .ok next => next.run limit source rest
    | .error .nestedTooDeeply => .error ⟨.nestedTooDeeply, source, none⟩
    | .error complaint => .error ⟨complaint, source, some token.position⟩

theorem run_append (limit : Option Nat) (source : String) (state : ParserState)
    (left right : List Token) :
    state.run limit source (left ++ right) =
      (state.run limit source left).bind (·.run limit source right) := by
  induction left generalizing state with
  | nil => rfl
  | cons token rest ih =>
    simp only [List.cons_append, run]
    split
    · exact ih _
    · rfl
    · rfl

end ParserState

def nestingLimit : Nat := 75

def parseTokensWithin (limit : Option Nat) (source : String) (tokens : List Token) :
    Except Fault Formula := do
  let state ← ParserState.initial.run limit source tokens
  match state.finish with
  | .ok formula => .ok formula
  | .error complaint => .error ⟨complaint, source, some source.length⟩

def parseTokens : String → List Token → Except Fault Formula :=
  parseTokensWithin (some nestingLimit)

namespace Formula

/-- No text at all means zero, as an empty text does. -/
def parse (text : Option String) (extra : List String) : Except Fault Formula :=
  match text with
  | none => .ok zero
  | some text => do parseTokens (sourceOf text) (← tokenize text extra)

theorem parse_congr {text text' : String} (extra : List String)
    (h : Text.squeeze text.toList = Text.squeeze text'.toList) :
    parse (some text) extra = parse (some text') extra := by
  simp [parse, sourceOf, tokenize_congr extra h, h]

end Formula
end FormulaLayout
