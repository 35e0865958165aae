import Mathlib.Logic.Nonempty
import FormulaLayout.Proofs.Bindings
import FormulaLayout.Proofs.Evaluation
import FormulaLayout.Proofs.Parsing.Reading

/-! Names replaced by groups. The grammar takes a closed group wherever it takes a name, and what
stands around it, a sign, a function or a connective, meets the whole group as it met the name. So
the tokens of one formula in place of a name in another read as one tree in place of the name in
the other, and have the value that the other has when the name is bound to the value of the one. -/
namespace FormulaLayout

namespace Formula

def substitute (f : Formula) (target : String) (inner : Formula) : Formula :=
  match f with
  | literal value => literal value
  | name text => if text = target then inner else name text
  | negate operand => negate (operand.substitute target inner)
  | binary operator left right =>
    binary operator (left.substitute target inner) (right.substitute target inner)
  | call function operand => call function (operand.substitute target inner)
  | extremum function left right =>
    extremum function (left.substitute target inner) (right.substitute target inner)
  | hole => hole

variable (target : String) (inner : Formula)

theorem substitute_negateIf (negated : Bool) (f : Formula) :
    (negateIf negated f).substitute target inner = negateIf negated (f.substitute target inner) := by
  cases negated <;> rfl

theorem substitute_join (connective : Connective) (left right : Formula) :
    (connective.join left right).substitute target inner =
      connective.join (left.substitute target inner) (right.substitute target inner) := by
  cases connective <;> rfl

end Formula

theorem Formula.value_substitute {bindings : Bindings} {target : String} {inner : Formula}
    {value : Float} (known : inner.value bindings = .ok value) (f : Formula) :
    (f.substitute target inner).value bindings = f.value (bindings.assign target value) := by
  induction f with
  | literal | hole => rfl
  | name text =>
    rw [substitute, Formula.value, Bindings.read_assign]
    split
    · exact known
    · rfl
  | negate operand ih | call _ operand ih => simp only [substitute, Formula.value, ih]
  | binary _ left right ihLeft ihRight | extremum _ left right ihLeft ihRight =>
    simp only [substitute, Formula.value, ihLeft, ihRight]

/-- How many parentheses are open behind the tokens, if so many are open before them. -/
def openAfter : Nat → List Token → Nat
  | depth, [] => depth
  | depth, token :: rest => openAfter (token.kind.depthAfter depth) rest

def Closed (tokens : List Token) : Prop := openAfter 0 tokens = 0

instance (tokens : List Token) : Decidable (Closed tokens) :=
  inferInstanceAs (Decidable (_ = _))

namespace Joins
variable {connective : Connective} {flip : Bool} {tokens start : List Token}

theorem openAfter_eq (joins : Joins connective flip tokens start) (depth : Nat) :
    openAfter depth tokens = openAfter depth start := by
  cases joins with
  | operator kind | minus kind | extremum kind => simp only [openAfter, kind, TokenKind.depthAfter]
  | adjacent => rfl

theorem append (joins : Joins connective flip tokens start) (more : List Token) :
    Joins connective flip (tokens ++ more) (start ++ more) := by
  cases joins with
  | operator kind binary => exact .operator kind binary
  | minus kind => exact .minus kind
  | extremum kind => exact .extremum kind
  | adjacent starts => exact .adjacent starts

end Joins

namespace Derivation
variable {symbol : Symbol} {tokens rest : List Token} {tree : Formula}

theorem openAfter_le (d : Derivation symbol tokens rest tree) (depth : Nat) :
    openAfter depth rest ≤ openAfter depth tokens := by
  induction d generalizing depth with
  | empty | stop => exact Nat.le_refl _
  | sum _ ih | tightest _ ih | unsigned _ ih | plain _ ih => exact ih depth
  | tier _ _ _ ihFirst ihMore => exact Nat.le_trans (ihMore depth) (ihFirst depth)
  | join _ joins _ _ ihOperand ihMore =>
    rw [joins.openAfter_eq depth]
    exact Nat.le_trans (ihMore depth) (ihOperand depth)
  | minus kind _ ih | apply kind _ ih =>
    simpa only [openAfter, kind, TokenKind.depthAfter] using ih depth
  | applyMinus kind kind' _ ih =>
    simpa only [openAfter, kind, kind', TokenKind.depthAfter] using ih depth
  | number kind | name kind => simp only [openAfter, kind, TokenKind.depthAfter, Nat.le_refl]
  | emptyGroup kind kind' =>
    simp only [openAfter, kind, kind', TokenKind.depthAfter, Nat.add_sub_cancel, Nat.le_refl]
  | group kind kind' _ ih =>
    simpa only [openAfter, kind, kind', TokenKind.depthAfter, Nat.add_sub_cancel] using
      ih (depth + 1)
  | openEmptyGroup kind => simp only [openAfter, kind, TokenKind.depthAfter, Nat.le_succ]
  | openGroup kind _ ih =>
    simp only [openAfter, kind, TokenKind.depthAfter]
    exact Nat.le_of_succ_le (ih (depth + 1))

theorem append (d : Derivation symbol tokens rest tree) (part : symbol ≠ .formula) (depth : Nat)
    (closed : openAfter depth tokens = openAfter depth rest) (more : List Token) :
    Derives symbol (tokens ++ more) (rest ++ more) tree := by
  induction d generalizing depth with
  | empty | sum => exact absurd rfl part
  | stop => exact ⟨.stop⟩
  | tightest _ ih => exact (ih (by simp) depth closed).map .tightest
  | unsigned _ ih => exact (ih (by simp) depth closed).map .unsigned
  | plain _ ih => exact (ih (by simp) depth closed).map .plain
  | tier loose first rest ihFirst ihMore =>
    -- neither part closes what was open before, so each is closed if both together are
    have upper := first.openAfter_le depth
    have lower := rest.openAfter_le depth
    obtain ⟨first⟩ := ihFirst (by simp) depth (by omega)
    obtain ⟨rest⟩ := ihMore (by simp) depth (by omega)
    exact ⟨.tier loose first rest⟩
  | join here joins operand rest ihOperand ihMore =>
    rw [joins.openAfter_eq depth] at closed
    have upper := operand.openAfter_le depth
    have lower := rest.openAfter_le depth
    obtain ⟨operand⟩ := ihOperand (by simp) depth (by omega)
    obtain ⟨rest⟩ := ihMore (by simp) depth (by omega)
    exact ⟨.join here (joins.append more) operand rest⟩
  | minus kind _ ih =>
    simp only [openAfter, kind, TokenKind.depthAfter] at closed
    exact (ih (by simp) depth closed).map (.minus kind)
  | apply kind _ ih =>
    simp only [openAfter, kind, TokenKind.depthAfter] at closed
    exact (ih (by simp) depth closed).map (.apply kind)
  | applyMinus kind kind' _ ih =>
    simp only [openAfter, kind, kind', TokenKind.depthAfter] at closed
    exact (ih (by simp) depth closed).map (.applyMinus kind kind')
  | number kind => exact ⟨.number kind⟩
  | name kind => exact ⟨.name kind⟩
  | emptyGroup kind kind' => exact ⟨.emptyGroup kind kind'⟩
  | group kind kind' _ ih =>
    refine (ih (by simp) (depth + 1) ?_).map (.group kind kind')
    simpa only [openAfter, kind, kind', TokenKind.depthAfter, Nat.add_sub_cancel] using closed
  | openEmptyGroup kind =>
    simp only [openAfter, kind, TokenKind.depthAfter] at closed
    omega
  | openGroup kind inner _ =>
    have left := inner.openAfter_le (depth + 1)
    simp only [openAfter, kind, TokenKind.depthAfter] at closed left
    omega

end Derivation

/-- A name, and the tokens in parentheses that take its place. -/
structure Replacement where
  target : String
  opening : Token
  inner : List Token
  closing : Token
  opens : opening.kind = .opening
  closes : closing.kind = .closing

namespace Replacement

def group (replacement : Replacement) : List Token :=
  replacement.opening :: replacement.inner ++ [replacement.closing]

def Replaces (replacement : Replacement) (token : Token) : Prop :=
  token.kind = .name ∧ token.text = replacement.target

instance (replacement : Replacement) (token : Token) : Decidable (replacement.Replaces token) :=
  inferInstanceAs (Decidable (_ ∧ _))

def apply (replacement : Replacement) (tokens : List Token) : List Token :=
  tokens.flatMap fun token => if replacement.Replaces token then replacement.group else [token]

variable (replacement : Replacement) {token : Token} (rest : List Token)

theorem apply_cons_of_replaces (replaced : replacement.Replaces token) :
    replacement.apply (token :: rest) = replacement.group ++ replacement.apply rest := by
  rw [apply, List.flatMap_cons, if_pos replaced]
  rfl

theorem apply_cons_of_kept (kept : ¬replacement.Replaces token) :
    replacement.apply (token :: rest) = token :: replacement.apply rest := by
  rw [apply, List.flatMap_cons, if_neg kept]
  rfl

theorem apply_cons_of_kind {kind : TokenKind} (here : token.kind = kind) (other : kind ≠ .name) :
    replacement.apply (token :: rest) = token :: replacement.apply rest :=
  replacement.apply_cons_of_kept rest fun replaced => other (here ▸ replaced.1)

theorem derives_group (reading : Reading replacement.inner) (closed : Closed replacement.inner) :
    Derives .value (replacement.group ++ rest) rest reading.tree := by
  rw [group, List.append_assoc, List.cons_append]
  obtain ⟨tree, d⟩ := reading
  generalize replacement.inner = inner at closed d
  cases d with
  | empty => exact ⟨.emptyGroup replacement.opens replacement.closes⟩
  | sum sum =>
    have followed := sum.append (by simp) 0 closed (replacement.closing :: rest)
    exact followed.map (.group replacement.opens replacement.closes)

end Replacement

def Symbol.substitute (symbol : Symbol) (target : String) (inner : Formula) : Symbol :=
  match symbol with
  | .more level left => .more level (left.substitute target inner)
  | _ => symbol

section Replace
variable (replacement : Replacement)

theorem Joins.replace {connective : Connective} {flip : Bool} {tokens start : List Token}
    (joins : Joins connective flip tokens start) :
    Joins connective flip (replacement.apply tokens) (replacement.apply start) := by
  cases joins with
  | operator kind binary =>
    rw [replacement.apply_cons_of_kind _ kind nofun]
    exact .operator kind binary
  | minus kind =>
    rw [replacement.apply_cons_of_kind _ kind nofun]
    exact .minus kind
  | extremum kind =>
    rw [replacement.apply_cons_of_kind _ kind nofun]
    exact .extremum kind
  | @adjacent token rest starts =>
    by_cases replaced : replacement.Replaces token
    · rw [replacement.apply_cons_of_replaces _ replaced]
      exact .adjacent (by rw [replacement.opens]; rfl)
    · rw [replacement.apply_cons_of_kept _ replaced]
      exact .adjacent starts

/-- Derivations go through with the group in the place of the name. -/
theorem Derivation.replace {inner : Formula}
    (group : ∀ rest, Derives .value (replacement.group ++ rest) rest inner)
    {symbol : Symbol} {tokens rest : List Token} {tree : Formula}
    (d : Derivation symbol tokens rest tree) :
    Derives (symbol.substitute replacement.target inner) (replacement.apply tokens)
      (replacement.apply rest) (tree.substitute replacement.target inner) := by
  induction d with
  | empty => exact ⟨.empty⟩
  | sum _ ih => exact ih.map .sum
  | tier loose _ _ ihFirst ihMore =>
    obtain ⟨first⟩ := ihFirst
    obtain ⟨more⟩ := ihMore
    exact ⟨.tier loose first more⟩
  | tightest _ ih => exact ih.map .tightest
  | stop => exact ⟨.stop⟩
  | join here joins _ _ ihOperand ihMore =>
    obtain ⟨operand⟩ := ihOperand
    rw [Symbol.substitute, Formula.substitute_join] at ihMore
    obtain ⟨more⟩ := ihMore
    exact ⟨.join here (joins.replace replacement) operand more⟩
  | unsigned _ ih =>
    rw [Formula.substitute_negateIf]
    exact ih.map .unsigned
  | minus kind _ ih =>
    rw [Formula.substitute_negateIf, replacement.apply_cons_of_kind _ kind nofun]
    exact ih.map (.minus kind)
  | plain _ ih => exact ih.map .plain
  | apply kind _ ih =>
    rw [replacement.apply_cons_of_kind _ kind nofun]
    exact ih.map (.apply kind)
  | applyMinus kind kind' _ ih =>
    rw [replacement.apply_cons_of_kind _ kind nofun,
      replacement.apply_cons_of_kind _ kind' nofun]
    exact ih.map (.applyMinus kind kind')
  | number kind =>
    rw [replacement.apply_cons_of_kind _ kind nofun]
    exact ⟨.number kind⟩
  | @name token rest kind =>
    by_cases here : token.text = replacement.target
    · rw [replacement.apply_cons_of_replaces _ ⟨kind, here⟩, Formula.substitute, if_pos here]
      exact group _
    · rw [replacement.apply_cons_of_kept _ fun replaced => here replaced.2, Formula.substitute,
        if_neg here]
      exact ⟨.name kind⟩
  | emptyGroup kind kind' =>
    rw [replacement.apply_cons_of_kind _ kind nofun,
      replacement.apply_cons_of_kind _ kind' nofun]
    exact ⟨.emptyGroup kind kind'⟩
  | group kind kind' _ ih =>
    rw [replacement.apply_cons_of_kind _ kind' nofun] at ih
    rw [replacement.apply_cons_of_kind _ kind nofun]
    exact ih.map (.group kind kind')
  | openEmptyGroup kind =>
    rw [replacement.apply_cons_of_kind _ kind nofun]
    exact ⟨.openEmptyGroup kind⟩
  | openGroup kind _ ih =>
    rw [replacement.apply_cons_of_kind _ kind nofun]
    exact ih.map (.openGroup kind)

theorem Reading.replace {tokens : List Token} (outer : Reading tokens)
    (inner : Reading replacement.inner) (closed : Closed replacement.inner) :
    ∃ reading : Reading (replacement.apply tokens),
      reading.tree = outer.tree.substitute replacement.target inner.tree := by
  obtain ⟨d⟩ := outer.derivation.replace replacement
    fun rest => replacement.derives_group rest inner closed
  exact ⟨⟨_, d⟩, rfl⟩

end Replace

/-- A formula with a group in the place of a name, where the limit allows for both, is read as the
tree with the tree of the group in the place of the name, and evaluates as it does when the name is
bound to the value of the group. -/
theorem replacing_is_substituting (limit : Option Nat) (replacement : Replacement)
    {source source' : String} {tokens : List Token} {outer inner : Formula}
    (read : parseTokensWithin limit source tokens = .ok outer)
    (readInner : parseTokensWithin limit source' replacement.inner = .ok inner)
    (closed : Closed replacement.inner)
    (within : allows limit (nesting (replacement.apply tokens)) = true) :
    (∀ source'', parseTokensWithin limit source'' (replacement.apply tokens) =
      .ok (outer.substitute replacement.target inner)) ∧
    ∀ bindings value, inner.evaluate bindings = .ok value →
      (outer.substitute replacement.target inner).evaluate bindings =
        outer.evaluate (bindings.assign replacement.target value) := by
  constructor
  · intro source''
    obtain ⟨-, reading, rfl⟩ := parseTokensWithin_eq_ok_iff.mp read
    obtain ⟨-, readingInner, rfl⟩ := parseTokensWithin_eq_ok_iff.mp readInner
    exact parseTokensWithin_eq_ok_iff.mpr ⟨within, reading.replace replacement readingInner closed⟩
  · intro bindings value known
    rw [Formula.evaluate_eq_value] at known
    rw [Formula.evaluate_eq_value, Formula.evaluate_eq_value, Formula.value_substitute known]

/-- The tokens of `2-x^2x`. -/
def squareAndFactor : List Token :=
  [⟨.number 2, "2", 0⟩, ⟨.operator .minus, "-", 1⟩, ⟨.name, "x", 2⟩, ⟨.operator .power, "^", 3⟩,
    ⟨.number 2, "2", 4⟩, ⟨.name, "x", 5⟩]

def differenceForX : Replacement :=
  ⟨"x", ⟨.opening, "(", 0⟩,
    [⟨.number 1, "1", 1⟩, ⟨.operator .minus, "-", 2⟩, ⟨.name, "y", 3⟩], ⟨.closing, ")", 4⟩, rfl, rfl⟩

/-- In `2-(1-y)^2(1-y)` the first minus goes to the whole group, as it went to `x`. -/
theorem difference_stands_for_x :
    let difference : Formula := .binary .plus (.literal 1) (.negate (.name "y"))
    let product : Formula := .binary .plus (.literal 2)
      (.binary .times (.binary .power (.negate (.name "x")) (.literal 2)) (.name "x"))
    let bindings : Bindings := fun text => if text = "y" then some 3 else none
    Closed differenceForX.inner ∧ parseTokens "" squareAndFactor = .ok product ∧
      parseTokens "" (differenceForX.apply squareAndFactor) = .ok (.binary .plus (.literal 2)
        (.binary .times (.binary .power (.negate difference) (.literal 2)) difference)) ∧
      difference.evaluate bindings = .ok (-2) ∧
      (product.substitute "x" difference).evaluate bindings =
        product.evaluate (bindings.assign "x" (-2)) ∧
      product.evaluate (bindings.assign "x" (-2)) = .ok (-6) := by
  intro difference product bindings
  have closed : Closed differenceForX.inner := by decide
  have value : difference.evaluate bindings = .ok (-2) :=
    (Formula.evaluate_eq_value bindings difference).trans rfl
  have read : parseTokens "" squareAndFactor = .ok product := rfl
  have readInner : parseTokens "" differenceForX.inner = .ok difference := rfl
  obtain ⟨parses, evaluates⟩ := replacing_is_substituting (some nestingLimit) differenceForX read
    readInner closed (by decide)
  exact ⟨closed, read, parses "", value, evaluates bindings (-2) value,
    (Formula.evaluate_eq_value _ product).trans rfl⟩

end FormulaLayout
