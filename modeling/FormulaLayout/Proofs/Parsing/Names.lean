import FormulaLayout.Proofs.Parsing.Reading
import FormulaLayout.Proofs.Scanning.Vocabulary

/-! The leaves of a parsed formula. A tree that was read from a text lacks nothing, and the names in
it are names of the vocabulary: the scan makes names of known words only, and the grammar takes a
name from a token as it stands. -/
namespace FormulaLayout

/-- Every leaf is a value or one of these names. -/
inductive Formula.Over (names : List String) : Formula → Prop where
  | literal (value : Float) : Over names (.literal value)
  | name {text : String} (listed : text ∈ names) : Over names (.name text)
  | negate {operand : Formula} (leaves : Over names operand) : Over names (.negate operand)
  | binary (operator : Operator) {left right : Formula} (leaves : Over names left)
      (leaves' : Over names right) : Over names (.binary operator left right)
  | call (function : UnaryFunction) {operand : Formula} (leaves : Over names operand) :
      Over names (.call function operand)
  | extremum (function : Extremum) {left right : Formula} (leaves : Over names left)
      (leaves' : Over names right) : Over names (.extremum function left right)

namespace Formula.Over
variable {names : List String}

theorem negateIf {f : Formula} (leaves : f.Over names) (negated : Bool) :
    (Formula.negateIf negated f).Over names := by
  cases negated
  · exact leaves
  · exact leaves.negate

theorem join {left right : Formula} (leaves : left.Over names) (leaves' : right.Over names)
    (connective : Connective) : (connective.join left right).Over names := by
  cases connective with
  | min | max => exact .extremum _ leaves leaves'
  | _ => exact .binary _ leaves leaves'

end Formula.Over

def NamesIn (names : List String) (tokens : List Token) : Prop :=
  ∀ token ∈ tokens, token.kind = .name → token.text ∈ names

theorem NamesIn.of_suffix {names : List String} {tokens rest : List Token}
    (named : NamesIn names tokens) (suffix : rest <:+ tokens) : NamesIn names rest :=
  fun token listed => named token (suffix.mem listed)

theorem Joins.suffix {connective : Connective} {flip : Bool} {tokens start : List Token}
    (joins : Joins connective flip tokens start) : start <:+ tokens := by
  cases joins with
  | operator | minus | extremum => exact List.suffix_cons ..
  | adjacent => exact List.suffix_rfl

def Symbol.LeftOver (names : List String) : Symbol → Prop
  | .more _ left => left.Over names
  | _ => True

namespace Derivation
variable {symbol : Symbol} {tokens rest : List Token} {tree : Formula}

theorem suffix (d : Derivation symbol tokens rest tree) : rest <:+ tokens := by
  induction d with
  | empty | stop => exact List.suffix_rfl
  | sum _ ih | tightest _ ih | unsigned _ ih | plain _ ih => exact ih
  | tier _ _ _ first more => exact more.trans first
  | join _ joins _ _ operand more => exact (more.trans operand).trans joins.suffix
  | minus _ _ ih | apply _ _ ih => exact ih.trans (List.suffix_cons ..)
  | applyMinus _ _ _ ih => exact (ih.trans (List.suffix_cons ..)).trans (List.suffix_cons ..)
  | number | name => exact List.suffix_cons ..
  | emptyGroup => exact (List.suffix_cons ..).trans (List.suffix_cons ..)
  | group _ _ _ ih => exact ((List.suffix_cons ..).trans ih).trans (List.suffix_cons ..)
  | openEmptyGroup | openGroup => exact List.nil_suffix

theorem tree_over {names : List String} (d : Derivation symbol tokens rest tree)
    (named : NamesIn names tokens) (left : symbol.LeftOver names) : tree.Over names := by
  induction d with
  | empty | number | emptyGroup | openEmptyGroup => exact .literal _
  | stop => exact left
  | sum _ ih | tightest _ ih | plain _ ih => exact ih named trivial
  | tier _ first _ ihFirst ihMore =>
    exact ihMore (named.of_suffix first.suffix) (ihFirst named trivial)
  | @join _ connective _ _ _ _ _ _ _ _ _ joins operand _ ihOperand ihMore =>
    have named := named.of_suffix joins.suffix
    exact ihMore (named.of_suffix operand.suffix) (left.join (ihOperand named trivial) connective)
  | unsigned _ ih => exact (ih named trivial).negateIf _
  | minus _ _ ih => exact (ih (named.of_suffix (List.suffix_cons ..)) trivial).negateIf _
  | apply _ _ ih => exact .call _ (ih (named.of_suffix (List.suffix_cons ..)) trivial)
  | applyMinus _ _ _ ih =>
    have named := (named.of_suffix (List.suffix_cons ..)).of_suffix (List.suffix_cons ..)
    exact .call _ (ih named trivial).negate
  | @name token _ kind => exact .name (named token List.mem_cons_self kind)
  | group _ _ _ ih | openGroup _ _ ih => exact ih (named.of_suffix (List.suffix_cons ..)) trivial

end Derivation

theorem exists_lexeme_of_scanFrom {words : List (List Char)} {source : String}
    {skip position : Nat} {text : List Char} {tokens : List Token}
    (scanned : scanFrom words source skip position text = .ok tokens) :
    ∀ token ∈ tokens, ∃ c rest word, lexeme words c rest = .ok (token.kind, word) ∧
      token.text = String.ofList word := by
  induction text generalizing skip position tokens with
  | nil =>
    obtain rfl : [] = tokens := Except.ok.inj scanned
    exact nofun
  | cons c rest ih =>
    cases skip with
    | succ skip => exact ih scanned
    | zero =>
      rw [scanFrom] at scanned
      cases front : lexeme words c rest with
      | error complaint => simp [front] at scanned
      | ok found =>
        obtain ⟨kind, word⟩ := found
        simp only [front, bind, Except.bind] at scanned
        cases later : scanFrom words source (word.length - 1) (position + 1) rest with
        | error fault => simp [later] at scanned
        | ok behind =>
          simp only [later, pure, Except.pure, Except.ok.injEq] at scanned
          subst scanned
          exact List.forall_mem_cons.mpr ⟨⟨c, rest, word, front, rfl⟩, ih later⟩

theorem ofWord_of_reserved : ∀ word ∈ reservedWords.map Prod.fst,
    TokenKind.ofWord word ≠ .name := by
  decide

theorem mem_of_lexeme_name {extra : List String} {c : Char} {rest word : List Char}
    (found : lexeme (knownWords extra) c rest = .ok (.name, word)) :
    String.ofList word ∈ baseNames ++ extendedNames ++ extra := by
  unfold lexeme at found
  split at found
  · dsimp only at found
    split at found <;> simp at found
  · split at found
    · next kind symbol =>
      simp only [Except.ok.injEq, Prod.mk.injEq] at found
      obtain ⟨rfl, -⟩ := found
      unfold TokenKind.ofSymbol? at symbol
      split at symbol <;> cases symbol
    · split at found
      · split at found
        · cases found
        · cases found
        · next longest =>
          simp only [Except.ok.injEq, Prod.mk.injEq] at found
          obtain ⟨kind, rfl⟩ := found
          have listed := (longestWord?_eq_some_iff.mp longest).listed
          obtain ⟨name, known, rfl⟩ := List.mem_map.mp listed
          rw [String.ofList_toList] at kind ⊢
          exact (List.mem_append.mp known).resolve_right fun reserved =>
            ofWord_of_reserved name reserved kind
      · cases found

theorem namesIn_of_tokenize {text : String} {extra : List String} {tokens : List Token}
    (scanned : tokenize text extra = .ok tokens) :
    NamesIn (baseNames ++ extendedNames ++ extra) tokens := by
  intro token listed kind
  obtain ⟨c, rest, word, found, same⟩ := exists_lexeme_of_scanFrom scanned token listed
  rw [kind] at found
  rw [same]
  exact mem_of_lexeme_name found

theorem over_of_parse {text : Option String} {extra : List String} {f : Formula}
    (parsed : Formula.parse text extra = .ok f) :
    f.Over (baseNames ++ extendedNames ++ extra) := by
  cases text with
  | none =>
    obtain rfl : Formula.zero = f := Except.ok.inj parsed
    exact .literal 0
  | some text =>
    simp only [Formula.parse, bind, Except.bind] at parsed
    cases scanned : tokenize text extra with
    | error fault => simp [scanned] at parsed
    | ok tokens =>
      simp only [scanned] at parsed
      obtain ⟨-, reading, rfl⟩ := parseTokensWithin_eq_ok_iff.mp parsed
      exact reading.derivation.tree_over (namesIn_of_tokenize scanned) trivial

end FormulaLayout
