import FormulaLayout.Proofs.Scanning.Literal
import FormulaLayout.Proofs.Scanning.Vocabulary

/-! What stands at the front of a text. A lexeme takes its characters off the front, the first one
at least, and is the same lexeme whatever part of the text behind it is there. An empty word is met
only where no other word is. -/
namespace FormulaLayout
open Number Text

structure StartsWord (c : Char) : Prop where
  literal : startsLiteral c = false
  symbol : TokenKind.ofSymbol? c = none
  letter : isLetter c = true

inductive Meets (words : List (List Char)) (c : Char) (rest : List Char) :
    Except Complaint (TokenKind × List Char) → Prop where
  | literal {literal : Literal} {value : Float} (starts : startsLiteral c = true)
      (scanned : Literal.scan (c :: rest) = literal) (reads : literal.value? = some value) :
      Meets words c rest (.ok (.number value, literal.text))
  | symbol {kind : TokenKind} (literal : startsLiteral c = false)
      (symbol : TokenKind.ofSymbol? c = some kind) : Meets words c rest (.ok (kind, [c]))
  | word {word : List Char} (starts : StartsWord c) (longest : IsLongest words (c :: rest) word)
      (filled : word ≠ []) : Meets words c rest (.ok (.ofWord (String.ofList word), word))
  | notANumber (starts : startsLiteral c = true)
      (unread : (Literal.scan (c :: rest)).value? = none) :
      Meets words c rest (.error (.notANumber (String.ofList (Literal.scan (c :: rest)).text)))
  | unknownName (starts : StartsWord c) (unknown : longestWord? words (c :: rest) = none) :
      Meets words c rest (.error (.unknownName c))
  | stalled (starts : StartsWord c) (empty : IsLongest words (c :: rest) []) :
      Meets words c rest (.error (.stalled c))
  | unsupportedSymbol (literal : startsLiteral c = false)
      (symbol : TokenKind.ofSymbol? c = none) (letter : isLetter c = false) :
      Meets words c rest (.error (.unsupportedSymbol c))

theorem meets_lexeme (words : List (List Char)) (c : Char) (rest : List Char) :
    Meets words c rest (lexeme words c rest) := by
  unfold lexeme
  split
  · next starts =>
    dsimp only
    split
    · next reads => exact .literal starts rfl reads
    · next unread => exact .notANumber starts unread
  · next other =>
    have literal := Bool.eq_false_iff.mpr other
    split
    · next symbol => exact .symbol literal symbol
    · next symbol =>
      split
      · next letter =>
        have starts : StartsWord c := ⟨literal, symbol, letter⟩
        split
        · next unknown => exact .unknownName starts unknown
        · next empty => exact .stalled starts (longestWord?_eq_some_iff.mp empty)
        · next filled found =>
          exact .word starts (longestWord?_eq_some_iff.mp found) filled
      · next letter => exact .unsupportedSymbol literal symbol (Bool.eq_false_iff.mpr letter)

theorem Meets.lexeme_eq {words : List (List Char)} {c : Char} {rest : List Char}
    {result : Except Complaint (TokenKind × List Char)} (meets : Meets words c rest result) :
    lexeme words c rest = result := by
  cases meets with
  | literal starts scanned reads => simp [lexeme, starts, scanned, reads]
  | symbol literal symbol => simp [lexeme, literal, symbol]
  | @word word starts longest filled =>
    have found := longestWord?_eq_some_iff.mpr longest
    obtain ⟨first, more, rfl⟩ := List.exists_cons_of_ne_nil filled
    simp [lexeme, starts.literal, starts.symbol, starts.letter, found]
  | notANumber starts unread => simp [lexeme, starts, unread]
  | unknownName starts unknown =>
    simp [lexeme, starts.literal, starts.symbol, starts.letter, unknown]
  | stalled starts empty =>
    have found := longestWord?_eq_some_iff.mpr empty
    simp [lexeme, starts.literal, starts.symbol, starts.letter, found]
  | unsupportedSymbol literal symbol letter => simp [lexeme, literal, symbol, letter]

theorem Meets.exists_passed {words : List (List Char)} {c : Char} {rest text : List Char}
    {kind : TokenKind} (meets : Meets words c rest (.ok (kind, text))) :
    ∃ passed left, text = c :: passed ∧ rest = passed ++ left := by
  have split {left : List Char} (whole : c :: rest = text ++ left) (filled : text ≠ []) :
      ∃ passed left, text = c :: passed ∧ rest = passed ++ left := by
    obtain ⟨empty, -⟩ | ⟨passed, front⟩ := List.cons_eq_append_iff.mp whole
    · exact absurd empty filled
    · exact ⟨passed, left, front⟩
  cases meets with
  | literal starts scanned reads =>
    obtain ⟨left, whole⟩ := Literal.scan_text_append (c :: rest)
    rw [scanned] at whole
    have filled := (Literal.regular_of_value? reads).some_mantissa
    exact split whole (List.append_ne_nil_of_left_ne_nil filled _)
  | symbol => exact ⟨[], rest, rfl, rfl⟩
  | word starts longest filled =>
    obtain ⟨left, whole⟩ := longest.front
    exact split whole.symm filled

theorem Meets.of_prefix {words : List (List Char)} {c : Char} {passed left shorter : List Char}
    {kind : TokenKind} (meets : Meets words c (passed ++ left) (.ok (kind, c :: passed)))
    (cut : shorter <+: left) : Meets words c (passed ++ shorter) (.ok (kind, c :: passed)) := by
  generalize same : c :: passed = text at meets ⊢
  cases meets with
  | @literal literal _ starts scanned reads =>
    have regular := Literal.regular_of_value? reads
    rw [← List.cons_append, same] at scanned
    have ends := regular.scan_append_iff.mp scanned
    have scanned := regular.scan_append_iff.mpr (ends.of_prefix cut)
    rw [← same, List.cons_append] at scanned
    exact .literal starts scanned reads
  | symbol literal symbol => exact .symbol literal symbol
  | word starts longest filled =>
    rw [← List.cons_append, same] at longest
    have longest := longest.of_prefix cut
    rw [← same, List.cons_append] at longest
    exact .word starts (same ▸ longest) filled

theorem Meets.nil_mem {words : List (List Char)} {c initial : Char} {rest : List Char}
    (meets : Meets words c rest (.error (.stalled initial))) : [] ∈ words := by
  cases meets with
  | stalled starts empty => exact empty.listed

theorem Meets.nil_notMem {words : List (List Char)} {c initial : Char} {rest : List Char}
    (meets : Meets words c rest (.error (.unknownName initial))) : [] ∉ words := by
  cases meets with
  | unknownName starts unknown =>
    have answers := longestWord?_answers words (c :: rest)
    rw [unknown] at answers
    exact fun listed => answers [] listed List.nil_prefix

end FormulaLayout
