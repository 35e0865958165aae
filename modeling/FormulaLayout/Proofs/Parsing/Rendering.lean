import FormulaLayout.Proofs.Parsing.Reading
import FormulaLayout.Proofs.Scanning.Depth

/-! Rendering, undone by reading. A rendered formula is its lexemes with blanks between some of
them. Every infix form brings its own parentheses, so its operands are signed values on either side
of one connective, whatever that connective is; the grammar derives the tree from the lexemes, and
nothing else. -/
namespace FormulaLayout
open Number Text

namespace Lexeme

def opening : Lexeme := ⟨.opening, ['(']⟩
def closing : Lexeme := ⟨.closing, [')']⟩
def operator (operator : Operator) : Lexeme := ⟨.operator operator, operator.symbol.toList⟩
def function (function : UnaryFunction) : Lexeme := ⟨.function function, function.name.toList⟩
def extremum (function : Extremum) : Lexeme := ⟨.extremum function, function.name.toList⟩
def name (text : String) : Lexeme := ⟨.name, text.toList⟩
def literal (value : Float) : Lexeme := ⟨.number value, (general value).toList⟩

def enclose (inner : List Lexeme) : List Lexeme := opening :: (inner ++ [closing])

theorem known_word {text : String} {kind : TokenKind}
    (h : text.toList ∈ knownWords [] ∧ TokenKind.ofWord text = kind) :
    Known ⟨kind, text.toList⟩ := by
  have known := Known.word h.1
  rwa [String.ofList_toList, h.2] at known

theorem known_name {text : String} (listed : text ∈ baseNames ++ extendedNames) :
    (name text).Known := by
  have kinds : ∀ text ∈ baseNames ++ extendedNames, TokenKind.ofWord text = .name := by decide
  refine known_word ⟨List.mem_map_of_mem ?_, kinds text listed⟩
  exact List.mem_append_left _ (List.mem_append_left _ listed)

theorem known_reserved {text : String} {kind : TokenKind} (listed : (text, kind) ∈ reservedWords) :
    Known ⟨kind, text.toList⟩ := by
  have kinds : ∀ word ∈ reservedWords, TokenKind.ofWord word.1 = word.2 := by decide
  refine known_word ⟨List.mem_map_of_mem ?_, kinds (text, kind) listed⟩
  exact List.mem_append_right _ (List.mem_map_of_mem listed)

theorem known_operator (op : Operator) : (operator op).Known := by
  cases op with
  | root => exact known_reserved (by decide)
  | _ => exact .symbol rfl

theorem known_function (f : UnaryFunction) : (function f).Known := by
  cases f <;> exact known_reserved (by decide)

theorem known_extremum (f : Extremum) : (extremum f).Known := by
  cases f <;> exact known_reserved (by decide)

theorem known_literal {value : Float} (plain : ∀ c ∈ (general value).toList, startsLiteral c = true)
    (reads : (Literal.scan (general value).toList).value? = some value) :
    (literal value).Known := by
  rw [Literal.scan_of_plain plain] at reads
  have known := Known.number reads
  simp only [Literal.text, Option.map_none, Option.getD_none, List.append_nil] at known
  exact known

theorem known_enclose {inner : List Lexeme} (known : ∀ lexeme ∈ inner, lexeme.Known) :
    ∀ lexeme ∈ enclose inner, lexeme.Known :=
  List.forall_mem_cons.mpr ⟨.symbol rfl,
    List.forall_mem_append.mpr ⟨known, List.forall_mem_singleton.mpr (.symbol rfl)⟩⟩

structure Follows (rest : List Lexeme) : Prop where
  separate : Separate rest
  other : ∀ next ∈ rest.head?, next.isNumber = false

theorem Follows.cons {lexeme : Lexeme} {rest : List Lexeme} (other : lexeme.isNumber = false)
    (separate : Separate rest) : Follows (lexeme :: rest) where
  separate := List.IsChain.cons separate fun _ _ => .inl other
  other := by
    rintro _ ⟨rfl⟩
    exact other

end Lexeme

namespace Formula

def lexemes : Formula → List Lexeme
  | .literal value => [.literal value]
  | .name text => [.name text]
  | .hole => [.name "None"]
  | .negate operand => .operator .minus :: operand.lexemes
  | .binary operator left right =>
    Lexeme.enclose (left.lexemes ++ .operator operator :: right.lexemes)
  | .call function operand => .function function :: Lexeme.enclose operand.lexemes
  | .extremum function left right =>
    Lexeme.enclose (left.lexemes ++ .extremum function :: right.lexemes)

theorem squeeze_render (f : Formula) :
    squeeze f.render.toList = squeeze (Lexeme.texts f.lexemes) := by
  have blank : squeeze " ".toList = [] := by decide
  induction f with
  | literal value => simp [render, lexemes, Lexeme.literal]
  | name text => simp [render, lexemes, Lexeme.name]
  | hole => rfl
  | negate operand ih =>
    simp only [render, lexemes, toString, String.toList_append, squeeze_append, Lexeme.texts_cons,
      ih]
    rfl
  | call function operand ih =>
    simp only [render, lexemes, Lexeme.enclose, toString, String.toList_append, squeeze_append,
      Lexeme.texts_cons, Lexeme.texts_append, ih, List.append_assoc]
    rfl
  | binary _ left right ihLeft ihRight | extremum _ left right ihLeft ihRight =>
    simp only [render, lexemes, Lexeme.enclose, toString, String.toList_append, squeeze_append,
      Lexeme.texts_cons, Lexeme.texts_append, ihLeft, ihRight, blank, List.append_assoc]
    rfl

theorem separate_lexemes_append (f : Formula) {rest : List Lexeme} (follows : Lexeme.Follows rest) :
    Lexeme.Separate (f.lexemes ++ rest) := by
  -- Only a literal ends in a number, so only there does it matter what follows.
  induction f generalizing rest with
  | literal => exact follows.separate.cons fun next front => .inr (follows.other next front)
  | name | hole => exact (Lexeme.Follows.cons rfl follows.separate).separate
  | negate operand ih => exact (Lexeme.Follows.cons rfl (ih follows)).separate
  | call function operand ih =>
    have closed := ih (.cons rfl follows.separate : Lexeme.Follows (.closing :: rest))
    have opened : Lexeme.Follows (.opening :: (operand.lexemes ++ .closing :: rest)) :=
      .cons rfl closed
    simp only [lexemes, Lexeme.enclose, List.cons_append, List.append_assoc]
    exact (Lexeme.Follows.cons rfl opened.separate).separate
  | binary _ left right ihLeft ihRight | extremum _ left right ihLeft ihRight =>
    have closed := ihRight (.cons rfl follows.separate : Lexeme.Follows (.closing :: rest))
    simp only [lexemes, Lexeme.enclose, List.cons_append, List.append_assoc]
    exact (Lexeme.Follows.cons rfl (ihLeft (.cons rfl closed))).separate

/-- Formulas that their rendering shows as they are: a literal has a plain decimal that reads back
as itself, only standard names occur, and no minus sign stands in front of another or between two
operands. -/
inductive Legible : Formula → Prop where
  | literal {value : Float} (plain : ∀ c ∈ (general value).toList, startsLiteral c = true)
      (readsBack : (Literal.scan (general value).toList).value? = some value) :
      Legible (.literal value)
  | name {text : String} (listed : text ∈ baseNames ++ extendedNames) : Legible (.name text)
  | negate {operand : Formula} (legible : Legible operand)
      (single : ∀ f, operand ≠ .negate f) : Legible (.negate operand)
  | binary {operator : Operator} {left right : Formula} (written : operator ≠ .minus)
      (legible : Legible left) (legible' : Legible right) : Legible (.binary operator left right)
  | call {function : UnaryFunction} {operand : Formula} (legible : Legible operand) :
      Legible (.call function operand)
  | extremum {function : Extremum} {left right : Formula} (legible : Legible left)
      (legible' : Legible right) : Legible (.extremum function left right)

theorem Legible.known {f : Formula} (legible : f.Legible) :
    ∀ lexeme ∈ f.lexemes, lexeme.Known := by
  induction legible with
  | literal plain readsBack =>
    exact List.forall_mem_singleton.mpr (Lexeme.known_literal plain readsBack)
  | name listed => exact List.forall_mem_singleton.mpr (Lexeme.known_name listed)
  | negate legible single ih => exact List.forall_mem_cons.mpr ⟨Lexeme.known_operator _, ih⟩
  | call legible ih =>
    exact List.forall_mem_cons.mpr ⟨Lexeme.known_function _, Lexeme.known_enclose ih⟩
  | binary written legible legible' ihLeft ihRight =>
    exact Lexeme.known_enclose (List.forall_mem_append.mpr
      ⟨ihLeft, List.forall_mem_cons.mpr ⟨Lexeme.known_operator _, ihRight⟩⟩)
  | extremum legible legible' ihLeft ihRight =>
    exact Lexeme.known_enclose (List.forall_mem_append.mpr
      ⟨ihLeft, List.forall_mem_cons.mpr ⟨Lexeme.known_extremum _, ihRight⟩⟩)

theorem Legible.tokenize_render {f : Formula} (legible : f.Legible) :
    tokenize f.render [] = .ok (Lexeme.place 0 f.lexemes) := by
  have separate : Lexeme.Separate (f.lexemes ++ []) := f.separate_lexemes_append ⟨.nil, nofun⟩
  rw [List.append_nil] at separate
  exact Lexeme.tokenize_of_known legible.known separate f.squeeze_render

theorem Legible.nesting_render {f : Formula} (legible : f.Legible) (position : Nat) :
    nesting (Lexeme.place position f.lexemes) = nestingOfText f.render := by
  rw [nesting, nestingFrom_place legible.known, nestingOfText, ← deepestFrom_squeeze,
    ← f.squeeze_render, deepestFrom_squeeze]

def symbol : Formula → Symbol
  | .negate _ => .signed false
  | _ => .call

end Formula

theorem Connective.ofOperator_join {operator : Operator} (written : operator ≠ .minus)
    (left right : Formula) :
    (ofOperator operator).join left right = .binary operator left right := by
  cases operator with
  | minus => exact absurd rfl written
  | _ => rfl

theorem Connective.ofExtremum_join (function : Extremum) (left right : Formula) :
    (ofExtremum function).join left right = .extremum function left right := by
  cases function <;> rfl

theorem Derives.loosen {flip : Bool} {level tighter : Nat} {tokens rest : List Token}
    {tree : Formula} (looser : level ≤ tighter) (bound : tighter ≤ signedLevel)
    (d : Derives (.tier flip tighter) tokens rest tree) :
    Derives (.tier flip level) tokens rest tree := by
  induction looser with
  | refl => exact d
  | step _ ih => exact ih (Nat.le_of_succ_le bound) (d.map fun d => .tier bound d .stop)

theorem derives_tier_of_signed {flip : Bool} {level : Nat} {tokens rest : List Token}
    {tree : Formula} (bound : level ≤ signedLevel)
    (signed : Derives (.signed flip) tokens rest tree) :
    Derives (.tier flip level) tokens rest tree :=
  Derives.loosen bound (Nat.le_refl _) (signed.map .tightest)

theorem derives_join {connective : Connective} {tokens middle start rest : List Token}
    {left right : Formula} (joins : Joins connective false middle start)
    (first : Derives (.signed false) tokens middle left)
    (operand : Derives (.signed false) start rest right) :
    Derives (.tier false 0) tokens rest (connective.join left right) := by
  have bound : connective.tier < signedLevel := by cases connective <;> decide
  obtain ⟨first⟩ := derives_tier_of_signed bound first
  obtain ⟨operand⟩ := derives_tier_of_signed bound operand
  have joined : Derives (.tier false connective.tier) tokens rest (connective.join left right) :=
    ⟨.tier bound first (.join rfl joins operand .stop)⟩
  exact joined.loosen (Nat.zero_le _) (Nat.le_of_lt bound)

theorem derives_enclose {inner : List Lexeme} {position : Nat} {rest : List Token} {tree : Formula}
    (sum : ∀ close, close.kind = .closing →
      Derives (.tier false 0) (Lexeme.place (position + 1) inner ++ close :: rest) (close :: rest)
        tree) :
    Derives .value (Lexeme.place position (Lexeme.enclose inner) ++ rest) rest tree := by
  rw [Lexeme.enclose, Lexeme.place, Lexeme.place_append, List.cons_append, List.append_assoc]
  exact (sum _ rfl).map (.group rfl rfl)

namespace Formula

def Derived (f : Formula) : Prop :=
  ∀ position rest, Derives f.symbol (Lexeme.place position f.lexemes ++ rest) rest f

theorem Derived.signed {f : Formula} (derived : f.Derived) (position : Nat) (rest : List Token) :
    Derives (.signed false) (Lexeme.place position f.lexemes ++ rest) rest f := by
  have d := derived position rest
  cases f with
  | negate => exact d
  | _ => exact d.map .unsigned

theorem Derived.enclose_join {left right : Formula} (derived : left.Derived)
    (derived' : right.Derived) {connective : Connective} (middle : Lexeme)
    (joins : ∀ token rest, token.kind = middle.kind → Joins connective false (token :: rest) rest)
    (position : Nat) (rest : List Token) :
    Derives .call (Lexeme.place position
      (Lexeme.enclose (left.lexemes ++ middle :: right.lexemes)) ++ rest) rest
      (connective.join left right) := by
  refine (derives_enclose fun close _ => ?_).map .plain
  rw [Lexeme.place_append, Lexeme.place, List.append_assoc, List.cons_append]
  exact derives_join (joins _ _ rfl) (derived.signed ..) (derived'.signed ..)

theorem Legible.derived {f : Formula} (legible : f.Legible) : f.Derived := by
  induction legible with
  | literal => exact fun _ _ => ⟨.plain (.number rfl)⟩
  | @name text =>
    intro position rest
    have value : Derives .value (⟨.name, text, position⟩ :: rest) rest (.name text) := ⟨.name rfl⟩
    rw [lexemes, Lexeme.place, Lexeme.name, String.ofList_toList]
    exact value.map .plain
  | @negate operand legible single ih =>
    intro position rest
    -- A second sign would not be read: the operand has to do without one.
    have unsigned : operand.symbol = .call := by
      cases operand with
      | negate f => exact absurd rfl (single f)
      | _ => rfl
    have call := ih (position + 1) rest
    rw [unsigned] at call
    exact call.map (.minus rfl)
  | @call function operand legible ih =>
    intro position rest
    have argument (start : Nat) :
        Derives .value (Lexeme.place start (Lexeme.enclose operand.lexemes) ++ rest) rest operand :=
      derives_enclose fun close _ => derives_tier_of_signed (Nat.zero_le _) (ih.signed _ _)
    exact (argument _).map (.apply rfl)
  | @binary operator left right written legible legible' ihLeft ihRight =>
    intro position rest
    have d := ihLeft.enclose_join ihRight (.operator operator)
      (fun _ _ kind => .operator kind written) position rest
    rw [Connective.ofOperator_join written] at d
    exact d
  | @extremum function left right legible legible' ihLeft ihRight =>
    intro position rest
    have d := ihLeft.enclose_join ihRight (.extremum function) (fun _ _ kind => .extremum kind)
      position rest
    rw [Connective.ofExtremum_join] at d
    exact d

theorem Legible.exists_reading {f : Formula} (legible : f.Legible) :
    ∃ reading : Reading (Lexeme.place 0 f.lexemes), reading.tree = f := by
  obtain ⟨sum⟩ := derives_tier_of_signed (Nat.zero_le _) (legible.derived.signed 0 [])
  rw [List.append_nil] at sum
  exact ⟨⟨f, .sum sum⟩, rfl⟩

theorem Legible.parseTokensWithin_eq_ok_iff {f : Formula} (legible : f.Legible)
    (limit : Option Nat) (source : String) :
    parseTokensWithin limit source (Lexeme.place 0 f.lexemes) = .ok f ↔
      allows limit (nestingOfText f.render) = true := by
  rw [FormulaLayout.parseTokensWithin_eq_ok_iff, legible.nesting_render]
  exact and_iff_left legible.exists_reading

theorem Legible.render_injective {f g : Formula} (legible : f.Legible) (legible' : g.Legible)
    (same : f.render = g.render) : f = g := by
  have found := (legible.parseTokensWithin_eq_ok_iff none "").mpr rfl
  have found' := (legible'.parseTokensWithin_eq_ok_iff none "").mpr rfl
  have tokens := legible.tokenize_render
  rw [same, legible'.tokenize_render, Except.ok.injEq] at tokens
  rw [tokens, found, Except.ok.injEq] at found'
  exact found'

/-- Within any limit on nesting, a legible formula is what its own rendering reads as, and beyond it
the rendering does not; no other legible formula has that rendering. -/
theorem parse_render {f : Formula} (legible : f.Legible) :
    (parse (some f.render) [] = .ok f ↔ nestingOfText f.render ≤ nestingLimit) ∧
      (∃ tokens, tokenize f.render [] = .ok tokens ∧ ∀ limit source,
        parseTokensWithin limit source tokens = .ok f ↔
          allows limit (nestingOfText f.render) = true) ∧
      ∀ g : Formula, g.Legible → g.render = f.render → g = f := by
  have within := legible.parseTokensWithin_eq_ok_iff
  refine ⟨?_, ⟨_, legible.tokenize_render, within⟩, fun g legible' same => ?_⟩
  · have parsed : parse (some f.render) [] =
        parseTokens (sourceOf f.render) (Lexeme.place 0 f.lexemes) := by
      rw [parse, legible.tokenize_render]
      rfl
    rw [parsed, parseTokens, within]
    simp [allows]
  · exact legible'.render_injective legible same

/-- The scan meets `-((pire)max2.5)`, where two names and the root are glued together. -/
theorem glued_words_parse :
    parse (some "-((pi r e) max 2.5)") [] =
      .ok (.negate (.extremum .max (.binary .root (.name "pi") (.name "e")) (.literal 2.5))) := by
  have root : Legible (.binary .root (.name "pi") (.name "e")) :=
    .binary (by decide) (.name (by decide)) (.name (by decide))
  have literal : Legible (.literal 2.5) :=
    .literal (List.all_eq_true.mp (by decide +kernel)) (by decide +kernel)
  have larger : Legible (.extremum .max (.binary .root (.name "pi") (.name "e")) (.literal 2.5)) :=
    .extremum root literal
  exact (parse_render (larger.negate nofun)).1.mpr (by decide +kernel)

end Formula
end FormulaLayout
