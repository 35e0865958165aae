import FormulaLayout.Proofs.Parsing.Reading

/-! What tokens become nodes. Read from left to right, an operator between its operands and a
function in front of its argument, a tree has a node for every token that is neither a parenthesis
nor a sign, in the order of the tokens, a zero for every empty group, and a product wherever a value
starts right behind another one. A minus behind a value is no sign, it makes a sum. This is kept by
every rule of the grammar, so no token is lost, taken twice or moved. -/
namespace FormulaLayout

inductive Node where
  | literal (value : Float)
  | name (text : String)
  | binary (operator : Operator)
  | call (function : UnaryFunction)
  | extremum (function : Extremum)
  | hole
deriving DecidableEq

def Node.isLeaf : Node → Bool
  | literal _ | name _ | hole => true
  | binary _ | call _ | extremum _ => false

def Formula.nodes : Formula → List Node
  | literal value => [.literal value]
  | name text => [.name text]
  | negate operand => operand.nodes
  | binary operator left right => left.nodes ++ .binary operator :: right.nodes
  | call function operand => .call function :: operand.nodes
  | extremum function left right => left.nodes ++ .extremum function :: right.nodes
  | hole => [.hole]

def Formula.leaves (f : Formula) : List Node := f.nodes.filter Node.isLeaf

theorem Formula.nodes_negateIf (negated : Bool) (f : Formula) :
    (negateIf negated f).nodes = f.nodes := by
  cases negated <;> rfl

def Connective.node : Connective → Node
  | plus => .binary .plus
  | divide => .binary .divide
  | times => .binary .times
  | root => .binary .root
  | power => .binary .power
  | min => .extremum .min
  | max => .extremum .max

theorem Formula.nodes_join (connective : Connective) (left right : Formula) :
    (connective.join left right).nodes = left.nodes ++ connective.node :: right.nodes := by
  cases connective <;> rfl

def TokenKind.endsValue : TokenKind → Bool
  | .number _ | .name | .closing => true
  | .function _ | .extremum _ | .operator _ | .opening => false

def closesAtOnce : List Token → Bool
  | [] => true
  | token :: _ => token.kind = .closing

/-- What a token stands for, behind a value or not, and in front of the rest. -/
def Token.node? (token : Token) (afterValue : Bool) (rest : List Token) : Option Node :=
  match token.kind with
  | .number value => some (.literal value)
  | .name => some (.name token.text)
  | .function function => some (.call function)
  | .extremum function => some (.extremum function)
  | .operator .minus => if afterValue then some (.binary .plus) else none
  | .operator operator => some (.binary operator)
  | .opening => if closesAtOnce rest then some (.literal 0) else none
  | .closing => none

def nodesFrom : Bool → List Token → List Node
  | _, [] => []
  | afterValue, token :: rest =>
    let nodes := (token.node? afterValue rest).toList ++ nodesFrom token.kind.endsValue rest
    if afterValue && token.kind.startsValue then .binary .times :: nodes else nodes

theorem nodesFrom_cons (afterValue : Bool) (token : Token) (rest : List Token) :
    nodesFrom afterValue (token :: rest) =
      let nodes := (token.node? afterValue rest).toList ++ nodesFrom token.kind.endsValue rest
      if afterValue && token.kind.startsValue then .binary .times :: nodes else nodes := rfl

section Kinds
variable {token : Token} (rest : List Token)

theorem nodesFrom_number {value : Float} (kind : token.kind = .number value) :
    nodesFrom false (token :: rest) = .literal value :: nodesFrom true rest := by
  simp [nodesFrom_cons, Token.node?, kind, TokenKind.endsValue]

theorem nodesFrom_name (kind : token.kind = .name) :
    nodesFrom false (token :: rest) = .name token.text :: nodesFrom true rest := by
  simp [nodesFrom_cons, Token.node?, kind, TokenKind.endsValue]

theorem nodesFrom_function {function : UnaryFunction} (kind : token.kind = .function function) :
    nodesFrom false (token :: rest) = .call function :: nodesFrom false rest := by
  simp [nodesFrom_cons, Token.node?, kind, TokenKind.endsValue]

theorem nodesFrom_sign (kind : token.kind = .operator .minus) :
    nodesFrom false (token :: rest) = nodesFrom false rest := by
  simp [nodesFrom_cons, Token.node?, kind, TokenKind.endsValue]

theorem nodesFrom_closing (kind : token.kind = .closing) (afterValue : Bool) :
    nodesFrom afterValue (token :: rest) = nodesFrom true rest := by
  simp [nodesFrom_cons, Token.node?, kind, TokenKind.startsValue, TokenKind.endsValue]

theorem nodesFrom_opening (kind : token.kind = .opening) :
    nodesFrom false (token :: rest) =
      (if closesAtOnce rest then [.literal 0] else []) ++ nodesFrom false rest := by
  cases empty : closesAtOnce rest <;>
    simp [nodesFrom_cons, Token.node?, kind, TokenKind.endsValue, empty]

theorem nodesFrom_adjacent (starts : token.kind.startsValue = true) :
    nodesFrom true (token :: rest) = .binary .times :: nodesFrom false (token :: rest) := by
  cases kind : token.kind <;> simp_all [nodesFrom_cons, Token.node?, TokenKind.startsValue]

end Kinds

theorem Joins.nodes_eq {connective : Connective} {flip : Bool} {tokens start : List Token}
    (joins : Joins connective flip tokens start) :
    nodesFrom true tokens = connective.node :: nodesFrom false start := by
  cases joins with
  | @operator _ _ operator kind =>
    cases operator <;>
      simp_all [nodesFrom_cons, Token.node?, TokenKind.startsValue, TokenKind.endsValue,
        Connective.ofOperator, Connective.node]
  | minus kind =>
    simp [nodesFrom_cons, Token.node?, kind, TokenKind.startsValue, TokenKind.endsValue,
      Connective.node]
  | @extremum _ _ function kind =>
    cases function <;>
      simp [nodesFrom_cons, Token.node?, kind, TokenKind.startsValue, TokenKind.endsValue,
        Connective.ofExtremum, Connective.node]
  | adjacent starts => exact nodesFrom_adjacent _ starts

theorem closesAtOnce_of_begins {flip : Bool} {level : Nat} {tokens : List Token}
    (begins : (Symbol.tier flip level).Begins tokens) : closesAtOnce tokens = false := by
  cases tokens with
  | nil => exact begins.elim
  | cons token rest =>
    obtain starts | kind := begins
    · cases kind : token.kind <;> simp_all [closesAtOnce, TokenKind.startsValue]
    · simp [closesAtOnce, kind]

/-- The nodes of the operand that a symbol continues, if it does, and of all that follows. -/
def Symbol.nodesWith : Symbol → List Token → List Node
  | .more _ left, tokens => left.nodes ++ nodesFrom true tokens
  | .formula, tokens | .tier _ _, tokens | .signed _, tokens | .call, tokens | .value, tokens =>
    nodesFrom false tokens

/-- The empty formula is left out here: it is the only one whose zero no token stands for. -/
theorem Derivation.nodes_eq {symbol : Symbol} {tokens rest : List Token} {tree : Formula}
    (d : Derivation symbol tokens rest tree) (part : symbol ≠ .formula) :
    symbol.nodesWith tokens = tree.nodes ++ nodesFrom true rest := by
  induction d with
  | empty | sum => exact absurd rfl part
  | tier _ _ _ ihFirst ihMore => exact (ihFirst (by simp)).trans (ihMore (by simp))
  | tightest _ ih | plain _ ih => exact ih (by simp)
  | stop => rfl
  | @join _ connective _ _ start _ _ left right _ _ joins _ _ ihOperand ihMore =>
    have operand : nodesFrom false start = right.nodes ++ _ := ihOperand (by simp)
    rw [← ihMore (by simp), Symbol.nodesWith, Symbol.nodesWith, joins.nodes_eq, operand,
      Formula.nodes_join, List.append_assoc, List.cons_append]
  | unsigned _ ih =>
    rw [Formula.nodes_negateIf]
    exact ih (by simp)
  | minus kind _ ih =>
    rw [Formula.nodes_negateIf, Symbol.nodesWith, nodesFrom_sign _ kind]
    exact ih (by simp)
  | apply kind _ ih =>
    rw [Symbol.nodesWith, nodesFrom_function _ kind]
    exact congrArg _ (ih (by simp))
  | applyMinus kind kind' _ ih =>
    rw [Symbol.nodesWith, nodesFrom_function _ kind, nodesFrom_sign _ kind']
    exact congrArg _ (ih (by simp))
  | number kind => exact nodesFrom_number _ kind
  | name kind => exact nodesFrom_name _ kind
  | @emptyGroup _ close rest kind kind' =>
    have empty : closesAtOnce (close :: rest) = true := decide_eq_true kind'
    rw [Symbol.nodesWith, nodesFrom_opening _ kind, if_pos empty, nodesFrom_closing _ kind']
    rfl
  | group kind kind' sum ih =>
    have content := ih (by simp)
    rw [nodesFrom_closing _ kind'] at content
    rw [Symbol.nodesWith, nodesFrom_opening _ kind, closesAtOnce_of_begins sum.begins]
    exact content
  | openEmptyGroup kind =>
    rw [Symbol.nodesWith, nodesFrom_opening _ kind]
    rfl
  | openGroup kind sum ih =>
    rw [Symbol.nodesWith, nodesFrom_opening _ kind, closesAtOnce_of_begins sum.begins]
    exact ih (by simp)

theorem Reading.nodes_eq {tokens : List Token} (reading : Reading tokens) (some : tokens ≠ []) :
    reading.tree.nodes = nodesFrom false tokens := by
  obtain ⟨tree, d⟩ := reading
  cases d with
  | empty => exact absurd rfl some
  | sum sum =>
    have nodes := sum.nodes_eq (by simp)
    rw [nodesFrom, List.append_nil] at nodes
    exact nodes.symm

/-- The values among the tokens, with a zero for each group that has nothing in it. -/
def leafTokens : List Token → List Node
  | [] => []
  | token :: rest =>
    match token.kind with
    | .number value => .literal value :: leafTokens rest
    | .name => .name token.text :: leafTokens rest
    | .opening => if closesAtOnce rest then .literal 0 :: leafTokens rest else leafTokens rest
    | .function _ | .extremum _ | .operator _ | .closing => leafTokens rest

theorem filter_isLeaf_nodesFrom (afterValue : Bool) (tokens : List Token) :
    (nodesFrom afterValue tokens).filter Node.isLeaf = leafTokens tokens := by
  induction tokens generalizing afterValue with
  | nil => rfl
  | cons token rest ih =>
    have here : (token.node? afterValue rest).toList.filter Node.isLeaf ++ leafTokens rest =
        leafTokens (token :: rest) := by
      rw [leafTokens, Token.node?]
      cases token.kind with
      | operator operator => cases operator <;> cases afterValue <;> rfl
      | opening => cases closesAtOnce rest <;> rfl
      | _ => rfl
    rw [← here, ← ih token.kind.endsValue, ← List.filter_append, nodesFrom_cons]
    split
    · exact List.filter_cons_of_neg (by decide)
    · rfl

/-- Only a product comes from no token of its own. -/
theorem count_nodesFrom_cons {node : Node} (written : node ≠ .binary .times) (afterValue : Bool)
    (token : Token) (rest : List Token) :
    (nodesFrom afterValue (token :: rest)).count node =
      (if token.node? afterValue rest = some node then 1 else 0) +
        (nodesFrom token.kind.endsValue rest).count node := by
  have here : (token.node? afterValue rest).toList.count node =
      if token.node? afterValue rest = some node then 1 else 0 := by
    cases token.node? afterValue rest <;> simp [List.count_singleton]
  rw [nodesFrom_cons, ← here, ← List.count_append]
  split
  · exact List.count_cons_of_ne written.symm
  · rfl

def Writes (kind : TokenKind) (node : Node) : Prop :=
  ∀ token afterValue rest, Token.node? token afterValue rest = some node ↔ token.kind = kind

theorem writes_operator {operator : Operator}
    (listed : operator = .power ∨ operator = .root ∨ operator = .divide) :
    Writes (.operator operator) (.binary operator) := by
  have other : operator ≠ .plus ∧ operator ≠ .minus := by
    rcases listed with rfl | rfl | rfl <;> decide
  intro token afterValue rest
  unfold Token.node?
  split <;> simp_all [other.1.symm, other.2.symm]

theorem writes_function (function : UnaryFunction) :
    Writes (.function function) (.call function) := by
  intro token afterValue rest
  unfold Token.node?
  split <;> simp_all

theorem writes_extremum (function : Extremum) :
    Writes (.extremum function) (.extremum function) := by
  intro token afterValue rest
  unfold Token.node?
  split <;> simp_all

theorem Writes.count_nodesFrom {kind : TokenKind} {node : Node} (writes : Writes kind node)
    (written : node ≠ .binary .times) (afterValue : Bool) (tokens : List Token) :
    (nodesFrom afterValue tokens).count node = tokens.countP (·.kind = kind) := by
  induction tokens generalizing afterValue with
  | nil => rfl
  | cons token rest ih =>
    rw [count_nodesFrom_cons written, ih, List.countP_cons, Nat.add_comm]
    simp only [writes token, decide_eq_true_eq]

def TokenKind.isMinus (kind : TokenKind) : Bool := kind = .operator .minus

def binaryMinuses (tokens : List Token) : Nat :=
  (tokens.zip tokens.tail).countP fun (before, token) => before.kind.endsValue && token.kind.isMinus

theorem binaryMinuses_cons (token : Token) (rest : List Token) :
    binaryMinuses (token :: rest) = binaryMinuses rest +
      if token.kind.endsValue && rest.head?.any (·.kind.isMinus) then 1 else 0 := by
  cases rest with
  | nil => simp [binaryMinuses]
  | cons next rest => simp [binaryMinuses, List.countP_cons]

theorem count_plus_node? (token : Token) (afterValue : Bool) (rest : List Token) :
    (if token.node? afterValue rest = some (.binary .plus) then 1 else 0) =
      (if token.kind = .operator .plus then 1 else 0) +
        if afterValue && token.kind.isMinus then 1 else 0 := by
  unfold Token.node?
  split <;> simp_all [TokenKind.isMinus]

theorem count_plus_nodesFrom (afterValue : Bool) (tokens : List Token) :
    (nodesFrom afterValue tokens).count (.binary .plus) =
      tokens.countP (·.kind = .operator .plus) + binaryMinuses tokens +
        if afterValue && tokens.head?.any (·.kind.isMinus) then 1 else 0 := by
  induction tokens generalizing afterValue with
  | nil => simp [nodesFrom, binaryMinuses]
  | cons token rest ih =>
    rw [count_nodesFrom_cons (by decide), ih, count_plus_node?, binaryMinuses_cons,
      List.countP_cons, List.head?_cons, Option.any_some]
    simp only [decide_eq_true_eq]
    omega

theorem minus_notMem_nodesFrom (afterValue : Bool) (tokens : List Token) :
    .binary .minus ∉ nodesFrom afterValue tokens := by
  rw [← List.count_eq_zero]
  induction tokens generalizing afterValue with
  | nil => rfl
  | cons token rest ih =>
    have other : token.node? afterValue rest ≠ some (.binary .minus) := by
      unfold Token.node?
      split <;> simp_all
    rw [count_nodesFrom_cons (by decide), if_neg other, ih]

theorem Reading.minus_notMem_nodes {tokens : List Token} (reading : Reading tokens) :
    .binary .minus ∉ reading.tree.nodes := by
  by_cases empty : tokens = []
  · subst empty
    obtain ⟨tree, d⟩ := reading
    cases d with
    | empty => decide
    | sum sum => exact sum.begins.elim
  · rw [reading.nodes_eq empty]
    exact minus_notMem_nodesFrom false tokens

/-- The leaves of what is read are the values among its tokens, in their order, and a zero for every
empty group. Powers, roots, quotients and functions are as many as the tokens of their kind, and
sums as many as the signs of addition and the minuses behind a value. -/
theorem nodes_are_tokens {limit : Option Nat} {source : String} {tokens : List Token}
    {formula : Formula} (filled : tokens ≠ [])
    (parsed : parseTokensWithin limit source tokens = .ok formula) :
    formula.leaves = leafTokens tokens ∧
    (∀ operator, operator = .power ∨ operator = .root ∨ operator = .divide →
      formula.nodes.count (.binary operator) = tokens.countP (·.kind = .operator operator)) ∧
    (∀ function,
      formula.nodes.count (.call function) = tokens.countP (·.kind = .function function)) ∧
    (∀ function,
      formula.nodes.count (.extremum function) = tokens.countP (·.kind = .extremum function)) ∧
    formula.nodes.count (.binary .plus) =
      tokens.countP (·.kind = .operator .plus) + binaryMinuses tokens := by
  obtain ⟨-, reading, rfl⟩ := parseTokensWithin_eq_ok_iff.mp parsed
  rw [Formula.leaves, reading.nodes_eq filled]
  refine ⟨filter_isLeaf_nodesFrom .., fun operator listed => ?_, fun function => ?_,
    fun function => ?_, ?_⟩
  · have other : Node.binary operator ≠ .binary .times := by
      rcases listed with rfl | rfl | rfl <;> decide
    exact (writes_operator listed).count_nodesFrom other ..
  · exact (writes_function function).count_nodesFrom nofun ..
  · exact (writes_extremum function).count_nodesFrom nofun ..
  · simpa using count_plus_nodesFrom false tokens

/-- The tokens of `5-x^()cos(-2max(`. -/
def looseEnds : List Token :=
  [⟨.number 5, "5", 0⟩, ⟨.operator .minus, "-", 1⟩, ⟨.name, "x", 2⟩, ⟨.operator .power, "^", 3⟩,
    ⟨.opening, "(", 4⟩, ⟨.closing, ")", 5⟩, ⟨.function .cos, "cos", 6⟩, ⟨.opening, "(", 9⟩,
    ⟨.operator .minus, "-", 10⟩, ⟨.number 2, "2", 11⟩, ⟨.extremum .max, "max", 12⟩,
    ⟨.opening, "(", 15⟩]

/-- Of the two minuses the first one makes a sum, and both empty groups are a zero. -/
theorem looseEnds_become_nodes :
    let tree : Formula := .binary .plus (.literal 5)
      (.binary .times (.binary .power (.negate (.name "x")) .zero)
        (.call .cos (.extremum .max (.negate (.literal 2)) .zero)))
    looseEnds ≠ [] ∧ parseTokens "" looseEnds = .ok tree ∧
      tree.leaves = [.literal 5, .name "x", .literal 0, .literal 2, .literal 0] ∧
      tree.nodes.count (.binary .plus) = 1 := by
  intro tree
  have filled : looseEnds ≠ [] := List.cons_ne_nil _ _
  have parsed : parseTokens "" looseEnds = .ok tree := rfl
  obtain ⟨leaves, -, -, -, sums⟩ := nodes_are_tokens filled parsed
  exact ⟨filled, parsed, leaves, sums⟩

end FormulaLayout
