import FormulaLayout.Proofs.Parsing.Continuation
import FormulaLayout.Proofs.Parsing.Nesting
import FormulaLayout.Proofs.Parsing.Unambiguous

/-! Reading is deriving: as long as parentheses do not nest too deeply, the parser accepts exactly
the tokens that the grammar derives, and yields the tree of their only derivation. -/
namespace FormulaLayout
namespace ParserState

theorem initial_continues (tokens : List Token) :
    initial.Continues tokens = fun tree => ∃ reading : Reading tokens, reading.tree = tree := by
  funext tree
  refine propext ((continues_start_iff [] tokens tree).trans ⟨?_, ?_⟩)
  · rintro ⟨rest, group, content, rfl, rfl⟩
    rcases content with ⟨rfl, rfl⟩ | ⟨⟨sum⟩⟩
    · exact ⟨⟨.zero, .empty⟩, rfl⟩
    · exact ⟨⟨group, .sum sum⟩, rfl⟩
  · rintro ⟨⟨tree, d⟩, rfl⟩
    cases d with
    | empty => exact ⟨[], .zero, .inl ⟨rfl, rfl⟩, rfl, rfl⟩
    | sum sum => exact ⟨[], tree, .inr ⟨sum⟩, rfl, rfl⟩

end ParserState

open ParserState in
/-- A tree comes out of tokens that keep within the limit and have no other reading; a fault comes
out of tokens that exceed it or have no reading at all. -/
theorem parseTokensWithin_answers (limit : Option Nat) (source : String) (tokens : List Token) :
    match parseTokensWithin limit source tokens with
    | .ok formula => allows limit (nesting tokens) = true ∧
        ∀ tree, (∃ reading : Reading tokens, reading.tree = tree) ↔ formula = tree
    | .error fault => fault.complaint.isMalformed = true ∧
        (allows limit (nesting tokens) = true →
          fault.complaint ≠ .nestedTooDeeply ∧ ¬Nonempty (Reading tokens)) := by
  have answers := run_answers limit source initial tokens
  have nests := run_nests limit source initial tokens
  rw [initial_continues] at answers
  unfold parseTokensWithin
  cases reached : initial.run limit source tokens with
  | ok last =>
    rw [reached] at answers nests
    have done := last.finish_answers
    have within := nests (allows_zero limit)
    cases finished : last.finish with
    | ok formula =>
      rw [finished] at done
      simp only [bind, Except.bind, finished]
      exact ⟨within, fun tree => (answers tree).trans (done tree)⟩
    | error complaint =>
      rw [finished] at done
      obtain ⟨malformed, flat⟩ := finish_malformed finished
      simp only [bind, Except.bind, finished]
      refine ⟨malformed, fun _ => ⟨flat, fun ⟨reading⟩ => ?_⟩⟩
      exact done reading.tree ((answers reading.tree).mp ⟨reading, rfl⟩)
  | error fault =>
    rw [reached] at answers nests
    obtain ⟨malformed, beyond⟩ := nests
    refine ⟨malformed, fun within => ?_⟩
    have flat : fault.complaint ≠ .nestedTooDeeply := by
      intro deep
      exact Bool.eq_false_iff.mp (beyond deep) within
    exact ⟨flat, fun ⟨reading⟩ => (answers.resolve_left flat) _ ⟨reading, rfl⟩⟩

theorem parseTokensWithin_eq_ok_iff {limit : Option Nat} {source : String} {tokens : List Token}
    {formula : Formula} :
    parseTokensWithin limit source tokens = .ok formula ↔
      allows limit (nesting tokens) = true ∧ ∃ reading : Reading tokens, reading.tree = formula := by
  have answers := parseTokensWithin_answers limit source tokens
  cases parsed : parseTokensWithin limit source tokens with
  | ok tree =>
    rw [parsed] at answers
    rw [answers.2, Except.ok.injEq]
    exact (and_iff_right answers.1).symm
  | error fault =>
    rw [parsed] at answers
    refine iff_of_false nofun ?_
    rintro ⟨within, reading, -⟩
    exact (answers.2 within).2 ⟨reading⟩

theorem parseTokensWithin_eq_ok_congr (limit : Option Nat) (source source' : String)
    (tokens : List Token) (formula : Formula) :
    parseTokensWithin limit source tokens = .ok formula ↔
      parseTokensWithin limit source' tokens = .ok formula := by
  rw [parseTokensWithin_eq_ok_iff, parseTokensWithin_eq_ok_iff]

def Rejected (limit : Option Nat) (source : String) (tokens : List Token) : Prop :=
  ∃ fault, parseTokensWithin limit source tokens = .error fault ∧
    fault.complaint.isMalformed = true

theorem rejected_iff {limit : Option Nat} {source : String} {tokens : List Token} :
    Rejected limit source tokens ↔
      ∀ formula, parseTokensWithin limit source tokens ≠ .ok formula := by
  have answers := parseTokensWithin_answers limit source tokens
  cases parsed : parseTokensWithin limit source tokens with
  | ok formula =>
    refine iff_of_false ?_ fun none => none formula rfl
    rintro ⟨fault, failed, -⟩
    cases parsed.symm.trans failed
  | error fault =>
    rw [parsed] at answers
    exact iff_of_true ⟨fault, parsed, answers.1⟩ nofun

def SameOutcome (limit : Option Nat) (source : String) (tokens : List Token) (source' : String)
    (tokens' : List Token) : Prop :=
  (∃ formula, parseTokensWithin limit source tokens = .ok formula ∧
    parseTokensWithin limit source' tokens' = .ok formula) ∨
  Rejected limit source tokens ∧ Rejected limit source' tokens'

theorem sameOutcome_of_iff {limit : Option Nat} {source source' : String}
    {tokens tokens' : List Token}
    (same : ∀ formula, parseTokensWithin limit source' tokens' = .ok formula ↔
      parseTokensWithin limit source tokens = .ok formula) :
    SameOutcome limit source tokens source' tokens' := by
  by_cases read : ∃ formula, parseTokensWithin limit source tokens = .ok formula
  · obtain ⟨formula, parsed⟩ := read
    exact .inl ⟨formula, parsed, (same formula).mpr parsed⟩
  · rw [not_exists] at read
    exact .inr ⟨rejected_iff.mpr read,
      rejected_iff.mpr fun formula parsed => read formula ((same formula).mp parsed)⟩

/-- Tokens are read if the limit allows their nesting and the grammar derives them, and what comes
out is the tree of their only derivation; all others are malformed, and nesting is to blame only
beyond the limit. -/
theorem reading_is_deriving (limit : Option Nat) (source : String) (tokens : List Token) :
    Subsingleton (Reading tokens) ∧
      (∀ formula, parseTokensWithin limit source tokens = .ok formula ↔
        allows limit (nesting tokens) = true ∧ ∃ reading : Reading tokens, reading.tree = formula) ∧
      (¬(allows limit (nesting tokens) = true ∧ Nonempty (Reading tokens)) →
        ∃ fault, parseTokensWithin limit source tokens = .error fault ∧
          fault.complaint.isMalformed = true ∧
          (allows limit (nesting tokens) = true → fault.complaint ≠ .nestedTooDeeply)) := by
  have answers := parseTokensWithin_answers limit source tokens
  refine ⟨subsingleton_reading tokens, ?_⟩
  cases parsed : parseTokensWithin limit source tokens with
  | ok formula =>
    rw [parsed] at answers
    obtain ⟨within, readings⟩ := answers
    constructor
    · intro formula'
      rw [readings formula', Except.ok.injEq]
      exact (and_iff_right within).symm
    · intro none
      obtain ⟨reading, -⟩ := (readings formula).mpr rfl
      exact absurd ⟨within, ⟨reading⟩⟩ none
  | error fault =>
    rw [parsed] at answers
    obtain ⟨malformed, underivable⟩ := answers
    constructor
    · intro formula
      refine iff_of_false nofun ?_
      rintro ⟨within, reading, -⟩
      exact (underivable within).2 ⟨reading⟩
    · exact fun _ => ⟨fault, rfl, malformed, fun within => (underivable within).1⟩

/-- In `2-3(4` the minus goes to the three, the three multiplies the open group. -/
theorem two_less_three_four_reads :
    ∃ reading : Reading [⟨.number 2, "2", 0⟩, ⟨.operator .minus, "-", 1⟩, ⟨.number 3, "3", 2⟩,
        ⟨.opening, "(", 3⟩, ⟨.number 4, "4", 4⟩],
      reading.tree = .binary .plus (.literal 2)
        (.binary .times (.negate (.literal 3)) (.literal 4)) := by
  refine (((reading_is_deriving (some nestingLimit) "2-3(4" _).2.1 _).mp ?parses).2
  rfl

end FormulaLayout
