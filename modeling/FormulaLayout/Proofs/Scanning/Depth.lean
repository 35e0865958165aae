import FormulaLayout.Proofs.Parsing.Nesting
import FormulaLayout.Proofs.Scanning.Lexeme

/-! How deeply the parentheses of a text nest, counted from its characters. Blanks do not matter,
and as only the two parentheses are lexemes with a parenthesis in their text, known lexemes glued
together nest as deeply as the tokens they make. -/
namespace FormulaLayout
open Number Text

/-- How many parentheses of a text are open at most, if so many are open before it. -/
def deepestFrom : Nat → List Char → Nat
  | depth, [] => depth
  | depth, c :: rest =>
    let after := if c = '(' then depth + 1 else if c = ')' then depth - 1 else depth
    max depth (deepestFrom after rest)

def nestingOfText (text : String) : Nat := deepestFrom 0 text.toList

theorem le_deepestFrom (depth : Nat) (text : List Char) : depth ≤ deepestFrom depth text := by
  cases text with
  | nil => exact Nat.le_refl depth
  | cons c rest => exact Nat.le_max_left ..

theorem deepestFrom_cons_of_flat {c : Char} (opens : c ≠ '(') (closes : c ≠ ')') (depth : Nat)
    (rest : List Char) : deepestFrom depth (c :: rest) = deepestFrom depth rest := by
  rw [deepestFrom, if_neg opens, if_neg closes]
  exact Nat.max_eq_right (le_deepestFrom depth rest)

theorem deepestFrom_append_of_flat {text : List Char} (flat : ∀ c ∈ text, c ≠ '(' ∧ c ≠ ')')
    (depth : Nat) (rest : List Char) :
    deepestFrom depth (text ++ rest) = deepestFrom depth rest := by
  induction text with
  | nil => rfl
  | cons c text ih =>
    obtain ⟨⟨opens, closes⟩, flat⟩ := List.forall_mem_cons.mp flat
    rw [List.cons_append, deepestFrom_cons_of_flat opens closes, ih flat]

theorem deepestFrom_squeeze (depth : Nat) (text : List Char) :
    deepestFrom depth (squeeze text) = deepestFrom depth text := by
  induction text generalizing depth with
  | nil => rfl
  | cons c rest ih =>
    by_cases blank : isBlank c = true
    · have opens : c ≠ '(' := by rintro rfl; exact absurd blank (by decide)
      have closes : c ≠ ')' := by rintro rfl; exact absurd blank (by decide)
      rw [deepestFrom_cons_of_flat opens closes, ← ih]
      simp [squeeze, blank]
    · have kept : squeeze (c :: rest) = c :: squeeze rest := by simp [squeeze, blank]
      rw [kept, deepestFrom, deepestFrom, ih]

theorem TokenKind.depthAfter_of_flat {kind : TokenKind} (opens : kind ≠ .opening)
    (closes : kind ≠ .closing) (depth : Nat) : kind.depthAfter depth = depth := by
  cases kind with
  | opening => exact absurd rfl opens
  | closing => exact absurd rfl closes
  | _ => rfl

theorem Lexeme.Known.deepestFrom_append {lexeme : Lexeme} (known : lexeme.Known) (depth : Nat)
    (rest : List Char) :
    deepestFrom depth (lexeme.text ++ rest) =
      max depth (deepestFrom (lexeme.kind.depthAfter depth) rest) := by
  have stays := Nat.max_eq_right (le_deepestFrom depth rest)
  cases known with
  | @symbol c kind h =>
    unfold TokenKind.ofSymbol? at h
    split at h <;> cases h <;> rfl
  | @word word listed =>
    have flat : ∀ kind ∈ TokenKind.name :: reservedWords.map Prod.snd,
        kind ≠ .opening ∧ kind ≠ .closing := by
      simp [reservedWords]
    obtain ⟨opens, closes⟩ := flat _ (TokenKind.ofWord_mem (String.ofList word))
    have text : ∀ c ∈ word, c ≠ '(' ∧ c ≠ ')' := fun c mem => (word_plain listed mem).2
    rw [deepestFrom_append_of_flat text, TokenKind.depthAfter_of_flat opens closes, stays]
  | @number literal value reads =>
    have flat : ∀ c ∈ literal.text, c ≠ '(' ∧ c ≠ ')' := by
      intro c mem
      have shape := (Literal.regular_of_value? reads).mem_text mem
      constructor <;> rintro rfl <;> exact absurd shape (by decide)
    rw [deepestFrom_append_of_flat flat]
    exact stays.symm

theorem nestingFrom_place {lexemes : List Lexeme} (known : ∀ lexeme ∈ lexemes, lexeme.Known)
    (depth position : Nat) :
    nestingFrom depth (Lexeme.place position lexemes) =
      deepestFrom depth (Lexeme.texts lexemes) := by
  induction lexemes generalizing depth position with
  | nil => rfl
  | cons lexeme rest ih =>
    obtain ⟨known, knownRest⟩ := List.forall_mem_cons.mp known
    rw [Lexeme.texts_cons, known.deepestFrom_append, Lexeme.place, nestingFrom, ih knownRest]

end FormulaLayout
