import FormulaLayout.Proofs.Parsing.Nodes

/-! What may be left unsaid in a formula. A minus behind a value stands for a plus and a sign, and
two values side by side for a product. With all of it spelled out the tokens are read as the same
tree. -/
namespace FormulaLayout

def Token.asPlus (token : Token) : Token := ⟨.operator .plus, "+", token.position⟩

def Token.timesBefore (token : Token) : Token := ⟨.operator .times, "*", token.position⟩

theorem Token.joins_asPlus (token : Token) (rest : List Token) :
    Joins .plus false (token.asPlus :: rest) rest :=
  .operator (show token.asPlus.kind = .operator .plus from rfl) nofun

theorem Token.joins_timesBefore (token : Token) (rest : List Token) :
    Joins .times false (token.timesBefore :: rest) rest :=
  .operator (show token.timesBefore.kind = .operator .times from rfl) nofun

/-- A minus behind a value and the sign behind it come to a plus. -/
def spelledFrom : Bool → List Token → List Token
  | _, [] => []
  | afterValue, token :: rest =>
    if afterValue && token.kind.isMinus then
      match rest with
      | [] => [token.asPlus, token]
      | next :: behind =>
        if next.kind.isMinus then token.asPlus :: spelledFrom false behind
        else token.asPlus :: token :: spelledFrom false (next :: behind)
    else
      (if afterValue && token.kind.startsValue then [token.timesBefore] else []) ++
        token :: spelledFrom token.kind.endsValue rest
termination_by structural _ tokens => tokens

def spelledOut (tokens : List Token) : List Token := spelledFrom false tokens

theorem TokenKind.isMinus_iff {kind : TokenKind} : kind.isMinus = true ↔ kind = .operator .minus :=
  decide_eq_true_iff

def startsWithMinus (tokens : List Token) : Bool := tokens.head?.any (·.kind.isMinus)

/-- All that spelling out does, behind a value or not. -/
inductive Spells : Bool → List Token → List Token → Prop where
  | nil {afterValue : Bool} : Spells afterValue [] []
  | signed {token next : Token} {rest spelled : List Token} (kind : token.kind = .operator .minus)
      (kind' : next.kind = .operator .minus) (more : Spells false rest spelled) :
      Spells true (token :: next :: rest) (token.asPlus :: spelled)
  | minus {token : Token} {rest spelled : List Token} (kind : token.kind = .operator .minus)
      (unsigned : startsWithMinus rest = false) (more : Spells false rest spelled) :
      Spells true (token :: rest) (token.asPlus :: token :: spelled)
  | product {token : Token} {rest spelled : List Token} (starts : token.kind.startsValue = true)
      (more : Spells token.kind.endsValue rest spelled) :
      Spells true (token :: rest) (token.timesBefore :: token :: spelled)
  | plain {afterValue : Bool} {token : Token} {rest spelled : List Token}
      (more : Spells token.kind.endsValue rest spelled) :
      Spells afterValue (token :: rest) (token :: spelled)

theorem spells_spelledFrom (afterValue : Bool) (tokens : List Token) :
    Spells afterValue tokens (spelledFrom afterValue tokens) := by
  induction afterValue, tokens using spelledFrom.induct with
  | case1 => exact .nil
  | case2 afterValue token minus =>
    obtain ⟨rfl, isMinus⟩ := Bool.and_eq_true_iff.mp minus
    rw [spelledFrom, if_pos minus]
    exact .minus (TokenKind.isMinus_iff.mp isMinus) rfl .nil
  | case3 afterValue token minus next behind sign ih =>
    obtain ⟨rfl, isMinus⟩ := Bool.and_eq_true_iff.mp minus
    rw [spelledFrom, if_pos minus, if_pos sign]
    exact .signed (TokenKind.isMinus_iff.mp isMinus) (TokenKind.isMinus_iff.mp sign) ih
  | case4 afterValue token minus next behind other ih =>
    obtain ⟨rfl, isMinus⟩ := Bool.and_eq_true_iff.mp minus
    rw [spelledFrom, if_pos minus, if_neg other]
    exact .minus (TokenKind.isMinus_iff.mp isMinus) (Bool.eq_false_iff.mpr other) ih
  | case5 afterValue token rest other ih =>
    rw [spelledFrom.eq_def]
    dsimp only
    rw [if_neg other]
    split
    · next product =>
      obtain ⟨rfl, starts⟩ := Bool.and_eq_true_iff.mp product
      exact .product starts ih
    · exact .plain ih

theorem Spells.startsWithMinus_eq {tokens spelled : List Token}
    (spells : Spells false tokens spelled) : startsWithMinus spelled = startsWithMinus tokens := by
  cases spells <;> rfl

def NoTripleMinus (tokens : List Token) : Prop :=
  ¬List.replicate 3 (.operator .minus) <:+: tokens.map Token.kind

theorem NoTripleMinus.tail {token : Token} {rest : List Token}
    (few : NoTripleMinus (token :: rest)) : NoTripleMinus rest :=
  fun triple => few (triple.trans (List.suffix_cons ..).isInfix)

theorem NoTripleMinus.not_startsWithMinus {token next : Token} {rest : List Token}
    (few : NoTripleMinus (token :: next :: rest)) (kind : token.kind = .operator .minus)
    (kind' : next.kind = .operator .minus) : startsWithMinus rest = false := by
  rw [Bool.eq_false_iff]
  intro third
  cases rest with
  | nil => cases third
  | cons sign rest =>
    have kind'' := TokenKind.isMinus_iff.mp third
    refine few (List.IsPrefix.isInfix ⟨rest.map Token.kind, ?_⟩)
    simp [kind, kind', kind'', List.replicate]

namespace ParserState
variable {state : ParserState} {token : Token} {tokens tokens' : List Token} {tree : Formula}

def holds (state : ParserState) : Bool :=
  match state.phase with
  | .holding _ => true
  | .start | .awaiting _ => false

theorem holds_of_receive {limit : Option Nat} {slot : Slot} {next : ParserState}
    (taken : state.receive limit slot token = .ok next) : next.holds = token.kind.endsValue := by
  unfold receive at taken
  split at taken
  case h_3 kind =>
    unfold openGroup at taken
    split at taken
    · cases taken
    · rw [kind, ← Except.ok.inj taken]
      rfl
  case h_1 kind | h_2 kind | h_4 kind | h_5 kind | h_7 kind =>
    rw [kind, ← Except.ok.inj taken]
    rfl
  all_goals cases taken

theorem holds_of_step {limit : Option Nat} {next : ParserState}
    (taken : state.step limit token = .ok next) : next.holds = token.kind.endsValue := by
  unfold step at taken
  split at taken
  · split at taken
    · next kind _ =>
      rw [kind, ← Except.ok.inj taken]
      rfl
    · exact holds_of_receive taken
  · exact holds_of_receive taken
  · split at taken
    · next kind =>
      rw [kind, ← Except.ok.inj taken]
      rfl
    · next kind =>
      rw [kind, ← Except.ok.inj taken]
      rfl
    · next kind =>
      split at taken
      · cases taken
      · rw [kind, ← Except.ok.inj taken]
        rfl
    · exact holds_of_receive taken

theorem continues_cons_congr
    (same : ∀ next, state.step none token = .ok next →
      (next.Continues tokens tree ↔ next.Continues tokens' tree)) :
    state.Continues (token :: tokens) tree ↔ state.Continues (token :: tokens') tree := by
  have answers := step_answers none state token tokens
  have answers' := step_answers none state token tokens'
  have nests := step_nests none state token
  cases taken : state.step none token with
  | ok next =>
    rw [taken] at answers answers'
    rw [answers tree, answers' tree]
    exact same next taken
  | error complaint =>
    rw [taken] at answers answers' nests
    have flat : complaint ≠ .nestedTooDeeply := fun deep => absurd (nests.2 deep) (by simp [allows])
    exact iff_of_false (answers.resolve_left flat tree) (answers'.resolve_left flat tree)

theorem continues_await_minus_iff (kind : token.kind = .operator .minus) (negated : Bool) :
    (state.await (.operand negated false)).Continues (token :: tokens) tree ↔
      (state.await (.operand (!negated) true)).Continues tokens tree := by
  simp only [Continues, await, Awaits, Slot.fills_operand_iff_of_minus kind]

theorem continues_await_signed_iff (unsigned : startsWithMinus tokens = false) (negated : Bool) :
    (state.await (.operand negated true)).Continues tokens tree ↔
      (state.await (.operand negated false)).Continues tokens tree := by
  cases tokens with
  | nil => exact iff_of_false not_awaits_nil not_awaits_nil
  | cons token rest =>
    have kind : token.kind ≠ .operator .minus := by
      intro minus
      simp [startsWithMinus, minus, TokenKind.isMinus] at unsigned
    simp only [Continues, await, Awaits, Slot.fills_operand_iff kind]

theorem continues_connect_iff {value : Formula} (holding : state.phase = .holding value)
    {connective : Connective} {flip : Bool} (joins : Joins connective flip tokens tokens') :
    state.Continues tokens tree ↔
      (state.connect connective value (.operand flip false)).Continues tokens' tree := by
  rw [continues_iff_of_holding holding]
  exact holds_iff_of_joins joins state value tree

theorem exists_holding (holds : state.holds = true) : ∃ value, state.phase = .holding value := by
  unfold ParserState.holds at holds
  split at holds
  · next value phase => exact ⟨value, phase⟩
  · cases holds
  · cases holds

theorem continues_asPlus_iff {value : Formula} (holding : state.phase = .holding value)
    (kind : token.kind = .operator .minus) (unsigned : startsWithMinus tokens = false) :
    state.Continues (token.asPlus :: token :: tokens) tree ↔
      state.Continues (token :: tokens) tree := by
  rw [continues_connect_iff holding (token.joins_asPlus _),
    continues_connect_iff holding (.minus kind)]
  let connected := state.connect .plus value (.operand false false)
  exact calc (connected.await (.operand false false)).Continues (token :: tokens) tree
    _ ↔ (connected.await (.operand true true)).Continues tokens tree :=
      continues_await_minus_iff kind false
    _ ↔ (connected.await (.operand true false)).Continues tokens tree :=
      continues_await_signed_iff unsigned true

theorem continues_asPlus_iff_of_sign {value : Formula} (holding : state.phase = .holding value)
    {next : Token} (kind : token.kind = .operator .minus) (kind' : next.kind = .operator .minus)
    (unsigned : startsWithMinus tokens = false) :
    state.Continues (token.asPlus :: tokens) tree ↔
      state.Continues (token :: next :: tokens) tree := by
  rw [continues_connect_iff holding (token.joins_asPlus _),
    continues_connect_iff holding (.minus kind)]
  let connected := state.connect .plus value (.operand false false)
  exact calc (connected.await (.operand false false)).Continues tokens tree
    _ ↔ (connected.await (.operand false true)).Continues tokens tree :=
      (continues_await_signed_iff unsigned false).symm
    _ ↔ (connected.await (.operand true false)).Continues (next :: tokens) tree :=
      (continues_await_minus_iff kind' true).symm

theorem continues_timesBefore_iff {value : Formula} (holding : state.phase = .holding value)
    (starts : token.kind.startsValue = true) :
    state.Continues (token.timesBefore :: token :: tokens) tree ↔
      state.Continues (token :: tokens) tree := by
  rw [continues_connect_iff holding (token.joins_timesBefore _),
    continues_connect_iff holding (.adjacent starts)]

theorem continues_iff_of_spells {spelled : List Token} (spells : Spells state.holds tokens spelled)
    (few : NoTripleMinus tokens) : state.Continues spelled tree ↔ state.Continues tokens tree := by
  generalize flag : state.holds = afterValue at spells
  induction spells generalizing state with
  | nil => rfl
  | @signed token next rest spelled kind kind' more ih =>
    obtain ⟨value, holding⟩ := exists_holding flag
    rw [← continues_asPlus_iff_of_sign holding kind kind' (few.not_startsWithMinus kind kind')]
    exact continues_cons_congr fun next taken => ih few.tail.tail (holds_of_step taken)
  | minus kind unsigned more ih =>
    obtain ⟨value, holding⟩ := exists_holding flag
    rw [continues_asPlus_iff holding kind (more.startsWithMinus_eq.trans unsigned)]
    refine continues_cons_congr fun next taken => ih few.tail ?_
    rw [holds_of_step taken, kind]
    rfl
  | product starts more ih =>
    obtain ⟨value, holding⟩ := exists_holding flag
    rw [continues_timesBefore_iff holding starts]
    exact continues_cons_congr fun next taken => ih few.tail (holds_of_step taken)
  | plain more ih =>
    exact continues_cons_congr fun next taken => ih few.tail (holds_of_step taken)

end ParserState

theorem nestingFrom_operator {token : Token} {operator : Operator}
    (kind : token.kind = .operator operator) (depth : Nat) (rest : List Token) :
    nestingFrom depth (token :: rest) = nestingFrom depth rest := by
  have flat : token.kind.depthAfter depth = depth := by
    rw [kind]
    rfl
  rw [nestingFrom, flat]
  exact Nat.max_eq_right (le_nestingFrom depth rest)

theorem Spells.nestingFrom_eq {afterValue : Bool} {tokens spelled : List Token}
    (spells : Spells afterValue tokens spelled) (depth : Nat) :
    nestingFrom depth spelled = nestingFrom depth tokens := by
  have behind (token : Token) {rest spelled : List Token} (depth : Nat)
      (ih : ∀ depth, nestingFrom depth spelled = nestingFrom depth rest) :
      nestingFrom depth (token :: spelled) = nestingFrom depth (token :: rest) := by
    rw [nestingFrom, nestingFrom, ih]
  induction spells generalizing depth with
  | nil => rfl
  | signed kind kind' more ih =>
    rw [nestingFrom_operator rfl, nestingFrom_operator kind, nestingFrom_operator kind', ih]
  | minus kind unsigned more ih => rw [nestingFrom_operator rfl, behind _ depth ih]
  | product starts more ih => rw [nestingFrom_operator rfl, behind _ depth ih]
  | plain more ih => exact behind _ depth ih

theorem parse_spelledOut_iff {limit : Option Nat} {source source' : String} {tokens : List Token}
    (few : NoTripleMinus tokens) (formula : Formula) :
    parseTokensWithin limit source' (spelledOut tokens) = .ok formula ↔
      parseTokensWithin limit source tokens = .ok formula := by
  have readings (tokens : List Token) := congrFun (ParserState.initial_continues tokens) formula
  have spells : Spells false tokens (spelledOut tokens) := spells_spelledFrom ..
  have nests : nesting (spelledOut tokens) = nesting tokens := spells.nestingFrom_eq 0
  rw [parseTokensWithin_eq_ok_iff, parseTokensWithin_eq_ok_iff, ← readings, ← readings, nests]
  exact and_congr_right fun _ => ParserState.continues_iff_of_spells spells few

/-- Where no three minuses stand in a row, the tokens and the same tokens spelled out have the same
outcome. Differences are sums of what is negated, so no tree has one. -/
theorem spelling_out_keeps_tree (limit : Option Nat) (source source' : String)
    (tokens : List Token) :
    (NoTripleMinus tokens → SameOutcome limit source tokens source' (spelledOut tokens)) ∧
    ∀ formula, parseTokensWithin limit source tokens = .ok formula →
      .binary .minus ∉ formula.nodes := by
  refine ⟨fun few => sameOutcome_of_iff (parse_spelledOut_iff few), fun formula parsed => ?_⟩
  obtain ⟨-, reading, rfl⟩ := parseTokensWithin_eq_ok_iff.mp parsed
  exact reading.minus_notMem_nodes

/-- The tokens of `5--x2(-3)-cos1`. -/
def unspoken : List Token :=
  [⟨.number 5, "5", 0⟩, ⟨.operator .minus, "-", 1⟩, ⟨.operator .minus, "-", 2⟩, ⟨.name, "x", 3⟩,
    ⟨.number 2, "2", 4⟩, ⟨.opening, "(", 5⟩, ⟨.operator .minus, "-", 6⟩, ⟨.number 3, "3", 7⟩,
    ⟨.closing, ")", 8⟩, ⟨.operator .minus, "-", 9⟩, ⟨.function .cos, "cos", 10⟩,
    ⟨.number 1, "1", 13⟩]

/-- It is spelled out as `5+x*2*(-3)+-cos1`. -/
theorem unspoken_is_spelled_out :
    let tree : Formula := .binary .plus (.binary .plus (.literal 5)
      (.binary .times (.binary .times (.name "x") (.literal 2)) (.negate (.literal 3))))
      (.negate (.call .cos (.literal 1)))
    NoTripleMinus unspoken ∧
    (spelledOut unspoken).map Token.text =
      ["5", "+", "x", "*", "2", "*", "(", "-", "3", ")", "+", "-", "cos", "1"] ∧
    SameOutcome (some nestingLimit) "5--x2(-3)-cos1" unspoken "5+x*2*(-3)+-cos1"
      (spelledOut unspoken) ∧
    parseTokens "5--x2(-3)-cos1" unspoken = .ok tree ∧ .binary .minus ∉ tree.nodes := by
  intro tree
  have few : NoTripleMinus unspoken := by
    unfold NoTripleMinus
    decide
  have parsed : parseTokens "5--x2(-3)-cos1" unspoken = .ok tree := rfl
  obtain ⟨same, noDifference⟩ := spelling_out_keeps_tree (some nestingLimit) "5--x2(-3)-cos1"
    "5+x*2*(-3)+-cos1" unspoken
  exact ⟨few, rfl, same few, parsed, noDifference tree parsed⟩

end FormulaLayout
