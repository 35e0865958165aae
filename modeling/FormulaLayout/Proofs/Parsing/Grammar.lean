import FormulaLayout.Formula.Parse

/-! The grammar of formulas, apart from any way of reading it. A derivation of a symbol takes
tokens off the front of a list, leaves the rest and yields a tree. A tier is an operand of the next
tighter tier and then any number of joins; a minus joins as a plus does and flips the sign of the
very first signed value behind it. -/
namespace FormulaLayout

def TokenKind.startsValue : TokenKind → Bool
  | .number _ | .name | .opening | .function _ => true
  | .extremum _ | .operator _ | .closing => false

/-- The connective at the front of the tokens, whether it flips its right operand, and where that
operand starts. -/
inductive Joins : Connective → Bool → List Token → List Token → Prop where
  | operator {token : Token} {rest : List Token} {operator : Operator}
      (kind : token.kind = .operator operator) (binary : operator ≠ .minus) :
      Joins (.ofOperator operator) false (token :: rest) rest
  | minus {token : Token} {rest : List Token} (kind : token.kind = .operator .minus) :
      Joins .plus true (token :: rest) rest
  | extremum {token : Token} {rest : List Token} {function : Extremum}
      (kind : token.kind = .extremum function) :
      Joins (.ofExtremum function) false (token :: rest) rest
  | adjacent {token : Token} {rest : List Token} (starts : token.kind.startsValue = true) :
      Joins .times false (token :: rest) (token :: rest)

/-- A tier is named by the number of its connective, so that sums are tier zero, and the operands
of the tightest tier, signed values, are tier seven. -/
inductive Symbol where
  | formula
  | tier (flip : Bool) (level : Nat)
  | more (level : Nat) (left : Formula)
  | signed (flip : Bool)
  | call
  | value
deriving DecidableEq

def signedLevel : Nat := 7

inductive Derivation : Symbol → List Token → List Token → Formula → Type where
  | empty : Derivation .formula [] [] .zero
  | sum {tokens : List Token} {tree : Formula} (sum : Derivation (.tier false 0) tokens [] tree) :
      Derivation .formula tokens [] tree
  | tier {flip : Bool} {level : Nat} {tokens middle rest : List Token} {left tree : Formula}
      (loose : level < signedLevel) (first : Derivation (.tier flip (level + 1)) tokens middle left)
      (more : Derivation (.more level left) middle rest tree) :
      Derivation (.tier flip level) tokens rest tree
  | tightest {flip : Bool} {tokens rest : List Token} {tree : Formula}
      (signed : Derivation (.signed flip) tokens rest tree) :
      Derivation (.tier flip signedLevel) tokens rest tree
  | stop {level : Nat} {tokens : List Token} {left : Formula} :
      Derivation (.more level left) tokens tokens left
  | join {level : Nat} {connective : Connective} {flip : Bool}
      {tokens start middle rest : List Token} {left right tree : Formula}
      (here : connective.tier = level) (joins : Joins connective flip tokens start)
      (operand : Derivation (.tier flip (level + 1)) start middle right)
      (more : Derivation (.more level (connective.join left right)) middle rest tree) :
      Derivation (.more level left) tokens rest tree
  | unsigned {flip : Bool} {tokens rest : List Token} {tree : Formula}
      (call : Derivation .call tokens rest tree) :
      Derivation (.signed flip) tokens rest (.negateIf flip tree)
  | minus {flip : Bool} {token : Token} {tokens rest : List Token} {tree : Formula}
      (kind : token.kind = .operator .minus) (call : Derivation .call tokens rest tree) :
      Derivation (.signed flip) (token :: tokens) rest (.negateIf (!flip) tree)
  | plain {tokens rest : List Token} {tree : Formula}
      (value : Derivation .value tokens rest tree) : Derivation .call tokens rest tree
  | apply {token : Token} {tokens rest : List Token} {function : UnaryFunction} {tree : Formula}
      (kind : token.kind = .function function) (value : Derivation .value tokens rest tree) :
      Derivation .call (token :: tokens) rest (.call function tree)
  | applyMinus {token sign : Token} {tokens rest : List Token} {function : UnaryFunction}
      {tree : Formula} (kind : token.kind = .function function)
      (kind' : sign.kind = .operator .minus) (value : Derivation .value tokens rest tree) :
      Derivation .call (token :: sign :: tokens) rest (.call function (.negate tree))
  | number {token : Token} {rest : List Token} {value : Float}
      (kind : token.kind = .number value) :
      Derivation .value (token :: rest) rest (.literal value)
  | name {token : Token} {rest : List Token} (kind : token.kind = .name) :
      Derivation .value (token :: rest) rest (.name token.text)
  | emptyGroup {token close : Token} {rest : List Token} (kind : token.kind = .opening)
      (kind' : close.kind = .closing) : Derivation .value (token :: close :: rest) rest .zero
  | group {token close : Token} {tokens rest : List Token} {tree : Formula}
      (kind : token.kind = .opening) (kind' : close.kind = .closing)
      (sum : Derivation (.tier false 0) tokens (close :: rest) tree) :
      Derivation .value (token :: tokens) rest tree
  | openEmptyGroup {token : Token} (kind : token.kind = .opening) :
      Derivation .value [token] [] .zero
  | openGroup {token : Token} {tokens : List Token} {tree : Formula}
      (kind : token.kind = .opening) (sum : Derivation (.tier false 0) tokens [] tree) :
      Derivation .value (token :: tokens) [] tree

structure Reading (tokens : List Token) where
  tree : Formula
  derivation : Derivation .formula tokens [] tree

theorem Joins.unique {connective connective' : Connective} {flip flip' : Bool}
    {tokens start start' : List Token} (h : Joins connective flip tokens start)
    (h' : Joins connective' flip' tokens start') :
    connective = connective' ∧ flip = flip' ∧ start = start' := by
  cases h <;> cases h' <;> simp_all [TokenKind.startsValue]

def Apart (level : Nat) (tokens : List Token) : Prop :=
  ∀ connective flip start, Joins connective flip tokens start → connective.tier < level

theorem Apart.mono {level level' : Nat} {tokens : List Token} (h : Apart level tokens)
    (looser : level ≤ level') : Apart level' tokens :=
  fun connective flip start joins => Nat.lt_of_lt_of_le (h connective flip start joins) looser

theorem apart_nil (level : Nat) : Apart level [] :=
  fun _ _ _ joins => nomatch joins

theorem apart_closing {token : Token} (kind : token.kind = .closing) (level : Nat)
    (rest : List Token) : Apart level (token :: rest) := by
  intro connective flip start joins
  cases joins <;> simp_all [TokenKind.startsValue]

theorem Derivation.apart_of_more {level : Nat} {left tree : Formula} {tokens rest : List Token}
    (more : Derivation (.more level left) tokens rest tree) (follow : Apart level rest) :
    Apart (level + 1) tokens := by
  cases more with
  | stop => exact follow.mono (Nat.le_succ level)
  | join here joins =>
    intro connective flip start joins'
    obtain ⟨rfl, -, -⟩ := joins.unique joins'
    omega

/-- What must not stand behind a symbol for its end to be where it is. -/
def Symbol.EndsAt : Symbol → List Token → Prop
  | .tier _ level, rest | .more level _, rest => Apart level rest
  | .formula, _ | .signed _, _ | .call, _ | .value, _ => True

/-- What the tokens of a symbol begin with. Only a formula and what follows an operand may take no
token at all. -/
def Symbol.Begins : Symbol → List Token → Prop
  | .formula, _ | .more _ _, _ => True
  | _, [] => False
  | .tier _ _, token :: _ | .signed _, token :: _ =>
    token.kind.startsValue = true ∨ token.kind = .operator .minus
  | .call, token :: _ => token.kind.startsValue = true
  | .value, token :: _ =>
    token.kind.startsValue = true ∧ ∀ function, token.kind ≠ .function function

theorem Derivation.begins {symbol : Symbol} {tokens rest : List Token} {tree : Formula}
    (d : Derivation symbol tokens rest tree) : symbol.Begins tokens := by
  induction d with
  | empty | sum | stop | join => trivial
  | @tier _ _ tokens _ _ _ _ _ _ _ ih | @tightest _ tokens _ _ _ ih => cases tokens <;> exact ih
  | @unsigned _ tokens _ _ _ ih =>
    cases tokens with
    | nil => exact ih
    | cons => exact .inl ih
  | minus kind => exact .inr kind
  | @plain tokens _ _ _ ih =>
    cases tokens with
    | nil => exact ih
    | cons => exact ih.1
  | apply kind | applyMinus kind => simp [Symbol.Begins, kind, TokenKind.startsValue]
  | number kind | name kind | emptyGroup kind | group kind | openEmptyGroup kind | openGroup kind =>
    simp [Symbol.Begins, kind, TokenKind.startsValue]

end FormulaLayout
