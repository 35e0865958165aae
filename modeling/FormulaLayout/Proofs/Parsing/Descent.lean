import FormulaLayout.Proofs.Parsing.Outcome

/-! The parser as procedures that call each other, one for each rule of the grammar, on a stack of
calls that is not of any height. A sum and the other tiers go on in a loop, so however long the
tokens are, the only way back from a value to a sum is an opening parenthesis. -/
namespace FormulaLayout

/-- The connective at the front, whether it flips its right operand, and where that starts. -/
def connective? : List Token → Option (Connective × Bool × List Token)
  | [] => none
  | token :: rest =>
    match token.kind with
    | .operator .minus => some (.plus, true, rest)
    | .operator operator => some (.ofOperator operator, false, rest)
    | .extremum function => some (.ofExtremum function, false, rest)
    | .closing => none
    | _ => some (.times, false, token :: rest)

theorem connective?_eq_some_iff {tokens start : List Token} {connective : Connective}
    {flip : Bool} :
    connective? tokens = some (connective, flip, start) ↔ Joins connective flip tokens start := by
  constructor
  · intro found
    cases tokens with
    | nil => cases found
    | cons token rest =>
      cases kind : token.kind with
      | operator operator =>
        cases operator with
        | minus =>
          simp only [connective?, kind, Option.some.injEq, Prod.mk.injEq] at found
          obtain ⟨rfl, rfl, rfl⟩ := found
          exact .minus kind
        | _ =>
          simp only [connective?, kind, Option.some.injEq, Prod.mk.injEq] at found
          obtain ⟨rfl, rfl, rfl⟩ := found
          exact .operator kind nofun
      | extremum function =>
        simp only [connective?, kind, Option.some.injEq, Prod.mk.injEq] at found
        obtain ⟨rfl, rfl, rfl⟩ := found
        exact .extremum kind
      | closing => simp [connective?, kind] at found
      | _ =>
        simp only [connective?, kind, Option.some.injEq, Prod.mk.injEq] at found
        obtain ⟨rfl, rfl, rfl⟩ := found
        exact .adjacent (by rw [kind]; rfl)
  · intro joins
    cases joins with
    | @operator token rest operator kind binary => cases operator <;> simp_all [connective?]
    | minus kind => simp [connective?, kind]
    | extremum kind => simp [connective?, kind]
    | @adjacent token rest starts =>
      cases kind : token.kind <;> simp_all [connective?, TokenKind.startsValue]

theorem Joins.length_le {connective : Connective} {flip : Bool} {tokens start : List Token}
    (joins : Joins connective flip tokens start) : start.length ≤ tokens.length := by
  cases joins <;> simp

namespace Descent

/-- What a procedure is to read. A sum is the loosest tier and a signed value the tightest. -/
inductive Routine where
  | tier (flip : Bool) (level : Nat)
  | signed (flip : Bool)
  | call
  | argument (function : UnaryFunction)
  | value
  | group

abbrev Outcome := Except Fault (Formula × List Token)

namespace Outcome

def onTree (outcome : Outcome) (f : Formula → Formula) : Outcome :=
  outcome.map fun (tree, rest) => (f tree, rest)

theorem onTree_eq_bind (outcome : Outcome) (f : Formula → Formula) :
    outcome.onTree f = outcome >>= fun (tree, rest) => .ok (f tree, rest) := by
  cases outcome <;> rfl

theorem onTree_id (outcome : Outcome) : outcome.onTree id = outcome := by
  cases outcome <;> rfl

end Outcome

def goOn (level : Nat) (operand : Bool → List Token → Outcome) :
    Nat → Formula → List Token → Outcome
  | 0, left, tokens => .ok (left, tokens)
  | turns + 1, left, tokens =>
    match connective? tokens with
    | none => .ok (left, tokens)
    | some (connective, flip, start) =>
      if connective.tier = level then do
        let (right, rest) ← operand flip start
        goOn level operand turns (connective.join left right) rest
      else .ok (left, tokens)

def frontKind? (tokens : List Token) : Option TokenKind := tokens.head?.map Token.kind

def startsArgument (tokens : List Token) : Bool :=
  match frontKind? tokens with
  | some (.number _) | some .name | some .opening => true
  | _ => false

def takeMinus : List Token → Bool × List Token
  | [] => (false, [])
  | token :: rest =>
    if token.kind = .operator .minus then (true, rest) else (false, token :: rest)

def close (source : String) (inner : Formula) : List Token → Outcome
  | [] => .ok (inner, [])
  | token :: rest =>
    if token.kind = .closing then .ok (inner, rest)
    else .error (faultAt (.unexpected token.text) source (token :: rest))

theorem exists_of_frontKind? {tokens : List Token} {kind : TokenKind}
    (front : frontKind? tokens = some kind) :
    ∃ token rest, tokens = token :: rest ∧ token.kind = kind := by
  cases tokens with
  | nil => cases front
  | cons token rest => exact ⟨token, rest, rfl, Option.some.inj front⟩

theorem takeMinus_cases (tokens : List Token) :
    (∃ sign rest, tokens = sign :: rest ∧ sign.kind = .operator .minus ∧
      takeMinus tokens = (true, rest)) ∨
    takeMinus tokens = (false, tokens) ∧ frontKind? tokens ≠ some (.operator .minus) := by
  cases tokens with
  | nil => exact .inr ⟨rfl, nofun⟩
  | cons token rest =>
    by_cases minus : token.kind = .operator .minus
    · exact .inl ⟨token, rest, rfl, minus, if_pos minus⟩
    · exact .inr ⟨if_neg minus, fun front => minus (Option.some.inj front)⟩

/-- Every call is made with one frame less. -/
def read (source : String) : Nat → Routine → List Token → Outcome
  | 0, _, _ => .error (tooDeep source)
  | frames + 1, .tier flip level, tokens =>
    if level < signedLevel then do
      let (left, rest) ← read source frames (.tier flip (level + 1)) tokens
      goOn level (fun flip => read source frames (.tier flip (level + 1))) rest.length left rest
    else read source frames (.signed flip) tokens
  | frames + 1, .signed flip, tokens =>
    let (minus, rest) := takeMinus tokens
    (read source frames .call rest).onTree (.negateIf (flip ^^ minus))
  | frames + 1, .call, tokens =>
    match frontKind? tokens with
    | some (.extremum function) =>
      .error (faultAt (.leftOperandMissing function.name) source tokens)
    | some (.function function) =>
      (read source frames (.argument function) tokens.tail).onTree (.call function)
    | _ => read source frames .value tokens
  | frames + 1, .argument function, tokens =>
    let (minus, rest) := takeMinus tokens
    if startsArgument rest then (read source frames .value rest).onTree (.negateIf minus)
    else .error (faultAt (.argumentMissing function.name) source rest)
  | _ + 1, .value, [] => .error (faultAt .endsEarly source [])
  | frames + 1, .value, token :: rest =>
    match token.kind with
    | .number value => .ok (.literal value, rest)
    | .name => .ok (.name token.text, rest)
    | .opening => read source frames .group rest
    | .closing => .error (faultAt .unbalanced source (token :: rest))
    | _ => .error (faultAt (.operandMissingBefore token.text) source (token :: rest))
  | _ + 1, .group, [] => .ok (.zero, [])
  | frames + 1, .group, token :: rest =>
    if token.kind = .closing then .ok (.zero, rest)
    else do
      let (inner, behind) ← read source frames (.tier false 0) (token :: rest)
      close source inner behind

section Calls
variable (source : String) (frames : Nat) (token : Token) (tokens : List Token)

theorem read_tier (flip : Bool) (level : Nat) :
    read source (frames + 1) (.tier flip level) tokens =
      if level < signedLevel then
        read source frames (.tier flip (level + 1)) tokens >>= fun (left, rest) =>
          goOn level (fun flip => read source frames (.tier flip (level + 1))) rest.length left rest
      else read source frames (.signed flip) tokens := rfl

theorem read_signed (flip : Bool) :
    read source (frames + 1) (.signed flip) tokens =
      (read source frames .call (takeMinus tokens).2).onTree
        (.negateIf (flip ^^ (takeMinus tokens).1)) := rfl

theorem read_call :
    read source (frames + 1) .call tokens =
      match frontKind? tokens with
      | some (.extremum function) =>
        .error (faultAt (.leftOperandMissing function.name) source tokens)
      | some (.function function) =>
        (read source frames (.argument function) tokens.tail).onTree (.call function)
      | _ => read source frames .value tokens := rfl

theorem read_argument (function : UnaryFunction) :
    read source (frames + 1) (.argument function) tokens =
      if startsArgument (takeMinus tokens).2 then
        (read source frames .value (takeMinus tokens).2).onTree (.negateIf (takeMinus tokens).1)
      else .error (faultAt (.argumentMissing function.name) source (takeMinus tokens).2) := rfl

theorem read_value :
    read source (frames + 1) .value (token :: tokens) =
      match token.kind with
      | .number value => .ok (.literal value, tokens)
      | .name => .ok (.name token.text, tokens)
      | .opening => read source frames .group tokens
      | .closing => .error (faultAt .unbalanced source (token :: tokens))
      | _ => .error (faultAt (.operandMissingBefore token.text) source (token :: tokens)) := rfl

theorem read_group :
    read source (frames + 1) .group (token :: tokens) =
      if token.kind = .closing then .ok (.zero, tokens)
      else read source frames (.tier false 0) (token :: tokens) >>= fun (inner, behind) =>
        close source inner behind := rfl

end Calls

def parse (frames : Nat) (source : String) (tokens : List Token) : Except Fault Formula :=
  if tokens = [] then .ok .zero
  else do
    let (tree, rest) ← read source frames (.tier false 0) tokens
    match rest with
    | [] => .ok tree
    | token :: _ => .error (faultAt (.unexpected token.text) source rest)

end Descent
end FormulaLayout
