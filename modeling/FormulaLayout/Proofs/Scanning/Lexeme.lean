import FormulaLayout.Proofs.Scanning.Literal
import FormulaLayout.Proofs.Scanning.Vocabulary
import Mathlib.Data.List.Chain

/-! Lexemes: tokens without their place. Known lexemes glued together are scanned one by one, and
the tokens found are the same lexemes placed one behind the other. That takes no blanks between
them: glued words come apart in one way only, and a number ends at anything that is not a number. -/
namespace FormulaLayout
open Number Text

structure Lexeme where
  kind : TokenKind
  text : List Char
deriving DecidableEq

namespace Lexeme

def texts (lexemes : List Lexeme) : List Char := lexemes.flatMap text

/-- The tokens that the lexemes make, if the first stands at the position and each other one right
behind the one before it. -/
def place (position : Nat) : List Lexeme → List Token
  | [] => []
  | lexeme :: rest =>
    ⟨lexeme.kind, String.ofList lexeme.text, position⟩ :: place (position + lexeme.text.length) rest

@[simp] theorem texts_nil : texts [] = [] := rfl

@[simp] theorem texts_cons (lexeme : Lexeme) (rest : List Lexeme) :
    texts (lexeme :: rest) = lexeme.text ++ texts rest := rfl

@[simp] theorem texts_append (left right : List Lexeme) :
    texts (left ++ right) = texts left ++ texts right := by
  simp [texts]

@[simp] theorem place_nil (position : Nat) : place position [] = [] := rfl

theorem place_append (position : Nat) (left right : List Lexeme) :
    place position (left ++ right) =
      place position left ++ place (position + (texts left).length) right := by
  induction left generalizing position with
  | nil => rfl
  | cons lexeme rest ih =>
    simp only [List.cons_append, place, ih, texts_cons, List.length_append, Nat.add_assoc]

inductive Scans (words : List (List Char)) : List Lexeme → Prop where
  | nil : Scans words []
  | cons {kind : TokenKind} {c : Char} {text : List Char} {rest : List Lexeme}
      (front : lexeme words c (text ++ texts rest) = .ok (kind, c :: text))
      (more : Scans words rest) : Scans words (⟨kind, c :: text⟩ :: rest)

end Lexeme

theorem scanFrom_skip (words : List (List Char)) (source : String) (position : Nat)
    (passed rest : List Char) :
    scanFrom words source passed.length position (passed ++ rest) =
      scanFrom words source 0 (position + passed.length) rest := by
  induction passed generalizing position with
  | nil => rfl
  | cons c passed ih =>
    rw [List.length_cons, List.cons_append, scanFrom, ih, Nat.add_assoc, Nat.add_comm 1]

namespace Lexeme

theorem Scans.scanFrom {words : List (List Char)} {lexemes : List Lexeme}
    (scans : Scans words lexemes) (source : String) (position : Nat) :
    scanFrom words source 0 position (texts lexemes) = .ok (place position lexemes) := by
  induction scans generalizing position with
  | nil => rfl
  | @cons kind c text rest front more ih =>
    have behind := scanFrom_skip words source (position + 1) text (texts rest)
    rw [ih, Nat.add_right_comm, Nat.add_assoc] at behind
    simp only [texts_cons, List.cons_append, FormulaLayout.scanFrom, front, List.length_cons,
      Nat.add_sub_cancel, behind]
    rfl

inductive Known : Lexeme → Prop where
  | symbol {c : Char} {kind : TokenKind} (h : TokenKind.ofSymbol? c = some kind) :
      Known ⟨kind, [c]⟩
  | word {word : List Char} (listed : word ∈ knownWords []) :
      Known ⟨.ofWord (String.ofList word), word⟩
  | number {literal : Literal} {value : Float} (reads : literal.value? = some value) :
      Known ⟨.number value, literal.text⟩

def isNumber (lexeme : Lexeme) : Bool :=
  match lexeme.kind with
  | .number _ => true
  | _ => false

/-- Two numbers side by side would read as one. -/
def Separate : List Lexeme → Prop :=
  List.IsChain fun left right => left.isNumber = false ∨ right.isNumber = false

def symbols : List Char := ['(', ')', '^', '*', '/', '+', '-']

theorem mem_symbols {c : Char} {kind : TokenKind} (h : TokenKind.ofSymbol? c = some kind) :
    c ∈ symbols := by
  unfold TokenKind.ofSymbol? at h
  split at h <;> simp [symbols] at h ⊢

theorem startsLiteral_of_ofSymbol? {c : Char} {kind : TokenKind}
    (h : TokenKind.ofSymbol? c = some kind) : startsLiteral c = false ∧ c ≠ 'E' := by
  have all : symbols.all (fun c => !startsLiteral c && c != 'E') = true := by decide
  simpa using List.all_eq_true.mp all c (mem_symbols h)

theorem Known.endsLiteral {lexeme : Lexeme} (known : lexeme.Known)
    (other : lexeme.isNumber = false) (rest : List Char) : EndsLiteral (lexeme.text ++ rest) := by
  cases known with
  | symbol h =>
    rintro c ⟨rfl⟩
    exact startsLiteral_of_ofSymbol? h
  | word listed =>
    obtain ⟨c, text, rfl, literal, mark, -⟩ := word_starts listed
    rintro c ⟨rfl⟩
    exact ⟨literal, mark⟩
  | number => cases other

theorem Known.front {lexeme : Lexeme} (known : lexeme.Known) {rest : List Char}
    (ends : lexeme.isNumber = true → EndsLiteral rest) :
    ∃ c text, lexeme.text = c :: text ∧
      FormulaLayout.lexeme (knownWords []) c (text ++ rest) = .ok (lexeme.kind, c :: text) := by
  cases known with
  | @symbol c kind h =>
    have literal := (startsLiteral_of_ofSymbol? h).1
    exact ⟨c, [], rfl, by simp [FormulaLayout.lexeme, literal, h]⟩
  | @word word listed =>
    have found := longestWord?_eq_some_iff.mpr (isLongest_append listed rest)
    obtain ⟨c, text, rfl, literal, -, symbol, letter⟩ := word_starts listed
    rw [List.cons_append] at found
    exact ⟨c, text, rfl, by simp [FormulaLayout.lexeme, literal, symbol, letter, found]⟩
  | @number literal value reads =>
    have regular := Literal.regular_of_value? reads
    have scanned := regular.scan_append (ends rfl)
    obtain ⟨c, mantissa, whole⟩ := List.exists_cons_of_ne_nil regular.some_mantissa
    have starts := regular.mantissa c (by simp [whole])
    have start : literal.text = c :: literal.text.tail := by simp [Literal.text, whole]
    refine ⟨c, literal.text.tail, start, ?_⟩
    rw [start, List.cons_append] at scanned
    simp [FormulaLayout.lexeme, starts, scanned, reads, start.symm]

theorem scans_of_known {lexemes : List Lexeme} (known : ∀ lexeme ∈ lexemes, lexeme.Known)
    (separate : Separate lexemes) : Scans (knownWords []) lexemes := by
  induction lexemes with
  | nil => exact .nil
  | cons lexeme rest ih =>
    have more := ih (fun _ mem => known _ (List.mem_cons_of_mem _ mem)) separate.tail
    have ends : lexeme.isNumber = true → EndsLiteral (texts rest) := by
      intro number
      cases rest with
      | nil => exact nofun
      | cons next rest =>
        have other := (List.isChain_cons_cons.mp separate).1.resolve_left (by simp [number])
        exact (known next (by simp)).endsLiteral other (texts rest)
    obtain ⟨c, text, whole, front⟩ := (known lexeme (List.mem_cons_self ..)).front ends
    obtain ⟨kind, _⟩ := lexeme
    cases whole
    exact .cons front more

theorem Known.not_blank {lexeme : Lexeme} (known : lexeme.Known) {c : Char}
    (mem : c ∈ lexeme.text) : isBlank c = false := by
  cases known with
  | symbol h =>
    have none : symbols.all (!isBlank ·) = true := by decide
    rw [List.mem_singleton.mp mem]
    simpa using List.all_eq_true.mp none _ (mem_symbols h)
  | word listed => exact (word_plain listed mem).1
  | number reads =>
    rw [Bool.eq_false_iff]
    intro blank
    rcases (Literal.regular_of_value? reads).mem_text mem with starts | rfl | rfl
    · rw [startsLiteral_of_isBlank blank] at starts
      cases starts
    · exact absurd blank (by decide)
    · exact absurd blank (by decide)

theorem squeeze_texts {lexemes : List Lexeme} (known : ∀ lexeme ∈ lexemes, lexeme.Known) :
    squeeze (texts lexemes) = texts lexemes := by
  refine List.filter_eq_self.mpr fun c mem => ?_
  obtain ⟨lexeme, listed, mem⟩ := List.mem_flatMap.mp mem
  simp [(known lexeme listed).not_blank mem]

theorem tokenize_of_known {lexemes : List Lexeme} (known : ∀ lexeme ∈ lexemes, lexeme.Known)
    (separate : Separate lexemes) {text : String}
    (glued : squeeze text.toList = squeeze (texts lexemes)) :
    tokenize text [] = .ok (place 0 lexemes) := by
  rw [tokenize, glued, squeeze_texts known]
  exact (scans_of_known known separate).scanFrom _ 0

theorem place_injective {position : Nat} {left right : List Lexeme}
    (same : place position left = place position right) : left = right := by
  induction left generalizing position right with
  | nil =>
    cases right with
    | nil => rfl
    | cons => cases same
  | cons lexeme rest ih =>
    cases right with
    | nil => cases same
    | cons lexeme' rest' =>
      obtain ⟨kind, text⟩ := lexeme
      obtain ⟨kind', text'⟩ := lexeme'
      obtain ⟨first, later⟩ := List.cons.inj same
      obtain ⟨rfl, glued, -⟩ := Token.mk.inj first
      obtain rfl := String.ofList_injective glued
      rw [ih later]

theorem eq_of_texts_eq {left right : List Lexeme} (known : ∀ lexeme ∈ left, lexeme.Known)
    (known' : ∀ lexeme ∈ right, lexeme.Known) (separate : Separate left)
    (separate' : Separate right) (same : texts left = texts right) : left = right := by
  have glued : squeeze (String.ofList (texts left)).toList = squeeze (texts left) := by
    rw [String.toList_ofList]
  have scanned := tokenize_of_known known separate glued
  rw [tokenize_of_known known' separate' (same ▸ glued)] at scanned
  exact (place_injective (Except.ok.inj scanned)).symm

def ofWord (word : List Char) : Lexeme := ⟨.ofWord (String.ofList word), word⟩

theorem isNumber_ofWord (word : List Char) : (ofWord word).isNumber = false := by
  have none : ∀ kind ∈ TokenKind.name :: reservedWords.map Prod.snd,
      isNumber ⟨kind, word⟩ = false := by
    simp [reservedWords, isNumber]
  exact none _ (TokenKind.ofWord_mem _)

theorem known_ofWords {words : List (List Char)} (listed : ∀ word ∈ words, word ∈ knownWords []) :
    ∀ lexeme ∈ words.map ofWord, lexeme.Known :=
  List.forall_mem_map.mpr fun word mem => .word (listed word mem)

theorem separate_ofWords {words : List (List Char)}
    (listed : ∀ word ∈ words, word ∈ knownWords []) : Separate (words.map ofWord) := by
  induction words with
  | nil => exact .nil
  | cons first rest ih =>
    obtain ⟨listed, listedRest⟩ := List.forall_mem_cons.mp listed
    exact List.IsChain.cons (ih listedRest) fun _ _ => .inl (isNumber_ofWord first)

theorem texts_ofWords (words : List (List Char)) : texts (words.map ofWord) = words.flatten := by
  rw [texts, List.flatMap_map, ← List.flatMap_id]
  rfl

/-- Known lexemes glued together come apart again, if no two numbers stand side by side. So words
glued together are words in one way only, and a number ends where a word begins. -/
theorem scanning_undoes_gluing :
    (∀ lexemes : List Lexeme, (∀ lexeme ∈ lexemes, lexeme.Known) → Separate lexemes →
      tokenize (String.ofList (texts lexemes)) [] = .ok (place 0 lexemes)) ∧
    (∀ words words' : List (List Char), (∀ word ∈ words, word ∈ knownWords []) →
      (∀ word ∈ words', word ∈ knownWords []) → words.flatten = words'.flatten →
      words = words') ∧
    (∀ (literal : Literal) (value : Float) (word : List Char), literal.value? = some value →
      word ∈ knownWords [] →
      tokenize (String.ofList (literal.text ++ word)) [] =
        .ok [⟨.number value, String.ofList literal.text, 0⟩,
          ⟨.ofWord (String.ofList word), String.ofList word, literal.text.length⟩]) := by
  have scans (lexemes : List Lexeme) (known : ∀ lexeme ∈ lexemes, lexeme.Known)
      (separate : Separate lexemes) :
      tokenize (String.ofList (texts lexemes)) [] = .ok (place 0 lexemes) :=
    tokenize_of_known known separate (by rw [String.toList_ofList])
  refine ⟨scans, fun words words' listed listed' same => ?_,
    fun literal value word reads listed => ?_⟩
  · rw [← texts_ofWords, ← texts_ofWords] at same
    have lexemes := eq_of_texts_eq (known_ofWords listed) (known_ofWords listed')
      (separate_ofWords listed) (separate_ofWords listed') same
    have injective : Function.Injective ofWord := fun _ _ same => (Lexeme.mk.inj same).2
    exact List.map_injective_iff.mpr injective lexemes
  · have known : ∀ lexeme ∈ [⟨.number value, literal.text⟩, ofWord word], lexeme.Known :=
      List.forall_mem_cons.mpr ⟨.number reads, known_ofWords (List.forall_mem_singleton.mpr listed)⟩
    have separate : Separate [⟨.number value, literal.text⟩, ofWord word] :=
      List.isChain_pair.mpr (.inr (isNumber_ofWord word))
    simpa [place, ofWord] using scans _ known separate

def hundredCosines : List Lexeme :=
  ⟨.number 100, ['1', 'E', '2']⟩ :: (["cos", "pi", "r", "e"].map String.toList).map ofWord

/-- In `1E2cospire` the mark belongs to the number, and the four words come apart. -/
theorem number_and_words_come_apart :
    tokenize "1E2cospire" [] = .ok [⟨.number 100, "1E2", 0⟩, ⟨.function .cos, "cos", 3⟩,
      ⟨.name, "pi", 6⟩, ⟨.operator .root, "r", 8⟩, ⟨.name, "e", 9⟩] := by
  have hundred : (⟨['1'], some ⟨false, ['2']⟩⟩ : Literal).value? = some 100 := by decide +kernel
  have words : ∀ word ∈ ["cos", "pi", "r", "e"].map String.toList, word ∈ knownWords [] := by
    decide
  have known : ∀ lexeme ∈ hundredCosines, lexeme.Known :=
    List.forall_mem_cons.mpr ⟨.number hundred, known_ofWords words⟩
  have separate : Separate hundredCosines :=
    List.IsChain.cons (separate_ofWords words) (by rintro _ ⟨rfl⟩; decide)
  have scanned := scanning_undoes_gluing.1 hundredCosines known separate
  have text : String.ofList (texts hundredCosines) = "1E2cospire" := by decide
  have placed : place 0 hundredCosines = [⟨.number 100, "1E2", 0⟩, ⟨.function .cos, "cos", 3⟩,
      ⟨.name, "pi", 6⟩, ⟨.operator .root, "r", 8⟩, ⟨.name, "e", 9⟩] := by decide
  rwa [text, placed] at scanned

end Lexeme
end FormulaLayout
