import FormulaLayout.Proofs.Parsing.Reading
import FormulaLayout.Proofs.Scanning.Cutting

/-! Where a parse error points. Every state of the parser can still be completed, by one value at
most, so what the parser gets through is the front of tokens that it accepts. A token that it
refuses can stand there in no tokens at all, whatever comes behind it and however deeply
parentheses may nest. -/
namespace FormulaLayout

def Accepted (limit : Option Nat) (tokens : List Token) : Prop :=
  ∃ source formula, parseTokensWithin limit source tokens = .ok formula

def Viable (limit : Option Nat) (tokens : List Token) : Prop :=
  ∃ more, Accepted limit (tokens ++ more)

structure FirstImpossible (limit : Option Nat) (before : List Token) (token : Token) : Prop where
  viable : Viable limit before
  impossible : ∀ limit', ¬Viable limit' (before ++ [token])

structure EndsEarly (limit : Option Nat) (tokens : List Token) : Prop where
  viable : Viable limit tokens
  unfinished : ∀ limit', ¬Accepted limit' tokens

theorem Accepted.reading {limit : Option Nat} {tokens : List Token}
    (accepted : Accepted limit tokens) : Nonempty (Reading tokens) := by
  obtain ⟨source, formula, parsed⟩ := accepted
  obtain ⟨-, reading, -⟩ := parseTokensWithin_eq_ok_iff.mp parsed
  exact ⟨reading⟩

namespace ParserState
variable {limit : Option Nat} {source : String}

/-- The parser gets through all tokens in front of the one that it fails at. -/
theorem exists_run_of_error {state : ParserState} {tokens : List Token} {fault : Fault}
    (failed : state.run limit source tokens = .error fault)
    (flat : fault.complaint ≠ .nestedTooDeeply) :
    ∃ before token behind reached, tokens = before ++ token :: behind ∧
      state.run limit source before = .ok reached ∧
      state.run limit source (before ++ [token]) = .error fault ∧
      fault.source = source ∧ fault.position = some token.position := by
  induction tokens generalizing state with
  | nil => cases failed
  | cons token rest ih =>
    cases taken : state.step limit token with
    | ok next =>
      have runs (tokens : List Token) :
          state.run limit source (token :: tokens) = next.run limit source tokens := by
        rw [run, taken]
      rw [runs] at failed
      obtain ⟨before, refused, behind, reached, rfl, through, stops, points⟩ := ih failed
      refine ⟨token :: before, refused, behind, reached, rfl, ?_, ?_, points⟩
      · rw [runs, through]
      · rw [List.cons_append, runs, stops]
    | error complaint =>
      have stops (tokens : List Token) :
          state.run limit source (token :: tokens) = .error fault := by
        rw [← failed, run, run, taken]
        cases complaint <;> rfl
      refine ⟨[], token, rest, state, rfl, rfl, stops [], ?_⟩
      rw [run, taken] at failed
      cases complaint with
      | nestedTooDeeply =>
        cases failed
        exact absurd rfl flat
      | _ =>
        cases failed
        exact ⟨rfl, rfl⟩

/-- A state that waits for a value is completed by any number, all others are complete. -/
theorem exists_completion (limit : Option Nat) (source : String) (state : ParserState) :
    ∃ more last formula, state.run limit source more = .ok last ∧ last.finish = .ok formula := by
  cases phase : state.phase with
  | start => exact ⟨[], state, _, rfl, by rw [finish, phase]⟩
  | holding value => exact ⟨[], state, _, rfl, by rw [finish, phase]⟩
  | awaiting slot =>
    let number : Token := ⟨.number 0, "0", 0⟩
    have taken : state.step limit number = .ok (state.hold (slot.fill (.literal 0))) := by
      simp only [step, phase, receive, number]
    exact ⟨[number], _, _, by rw [run, taken]; rfl, rfl⟩

theorem viable_of_run {tokens : List Token} {reached : ParserState}
    (through : initial.run limit source tokens = .ok reached) : Viable limit tokens := by
  obtain ⟨more, last, formula, completed, finished⟩ := exists_completion limit source reached
  refine ⟨more, source, formula, ?_⟩
  rw [parseTokensWithin, run_append, through]
  simp only [Except.bind, completed, bind, finished]

theorem no_reading_of_run {tokens : List Token} {fault : Fault}
    (failed : initial.run limit source tokens = .error fault)
    (flat : fault.complaint ≠ .nestedTooDeeply) : ¬Nonempty (Reading tokens) := by
  have answers := run_answers limit source initial tokens
  rw [initial_continues, failed] at answers
  exact fun ⟨reading⟩ => answers.resolve_left flat reading.tree ⟨reading, rfl⟩

theorem no_reading_of_finish {tokens : List Token} {last : ParserState} {complaint : Complaint}
    (through : initial.run limit source tokens = .ok last)
    (failed : last.finish = .error complaint) : ¬Nonempty (Reading tokens) := by
  have answers := run_answers limit source initial tokens
  have done := last.finish_answers
  rw [initial_continues, through] at answers
  rw [failed] at done
  exact fun ⟨reading⟩ => done reading.tree ((answers reading.tree).mp ⟨reading, rfl⟩)

theorem firstImpossible_of_run {before : List Token} {token : Token} {reached : ParserState}
    {fault : Fault} (through : initial.run limit source before = .ok reached)
    (stops : initial.run limit source (before ++ [token]) = .error fault)
    (flat : fault.complaint ≠ .nestedTooDeeply) : FirstImpossible limit before token := by
  refine ⟨viable_of_run through, fun limit' ⟨more, accepted⟩ => ?_⟩
  have failed : initial.run limit source (before ++ [token] ++ more) = .error fault := by
    rw [run_append, stops]
    rfl
  exact no_reading_of_run failed flat accepted.reading

theorem endsEarly_of_run {tokens : List Token} {last : ParserState} {complaint : Complaint}
    (through : initial.run limit source tokens = .ok last)
    (failed : last.finish = .error complaint) : EndsEarly limit tokens where
  viable := viable_of_run through
  unfinished _ accepted := no_reading_of_finish through failed accepted.reading

end ParserState

open ParserState in
/-- A parse error that does not blame nesting points at the first impossible token, or behind the
text if tokens are missing at its end. -/
theorem fault_at_first_impossible_token {text : String} {extra : List String} {tokens : List Token}
    (scanned : tokenize text extra = .ok tokens) {limit : Option Nat} {fault : Fault}
    (refused : parseTokensWithin limit (sourceOf text) tokens = .error fault)
    (flat : fault.complaint ≠ .nestedTooDeeply) :
    fault.complaint.isMalformed = true ∧ fault.source = sourceOf text ∧
      (fault.position = some (sourceOf text).length ∨
        ∃ token ∈ tokens, fault.position = some token.position) ∧
      (∀ before token behind, tokens = before ++ token :: behind →
        fault.position = some token.position → FirstImpossible limit before token) ∧
      (fault.position = some (sourceOf text).length → EndsEarly limit tokens) := by
  have cuts := cutsUp_of_tokenize scanned
  have inside {before behind : List Token} {token : Token}
      (split : tokens = before ++ token :: behind) : token.position ≠ (sourceOf text).length := by
    rw [← String.length_toList]
    exact Nat.ne_of_lt (cuts.position_lt split)
  have nests := run_nests limit (sourceOf text) initial tokens
  unfold parseTokensWithin at refused
  cases ended : initial.run limit (sourceOf text) tokens with
  | error fault' =>
    rw [ended] at refused nests
    obtain rfl : fault' = fault := Except.error.inj refused
    obtain ⟨before, token, behind, reached, split, through, stops, source, position⟩ :=
      exists_run_of_error ended flat
    refine ⟨nests.1, source, .inr ⟨token, by simp [split], position⟩, ?_, ?_⟩
    · intro before' token' behind' split' position'
      have same : token.position = token'.position :=
        Option.some.inj (position.symm.trans position')
      obtain ⟨rfl, rfl⟩ := cuts.eq_of_position_eq split split' same
      exact firstImpossible_of_run through stops flat
    · intro behindText
      exact absurd (Option.some.inj (position.symm.trans behindText)) (inside split)
  | ok last =>
    rw [ended] at refused
    cases finished : last.finish with
    | ok formula => simp [bind, Except.bind, finished] at refused
    | error complaint =>
      simp only [bind, Except.bind, finished] at refused
      cases refused
      refine ⟨(finish_malformed finished).1, rfl, .inl rfl, ?_, fun _ => ?_⟩
      · intro before token behind split position
        exact absurd (Option.some.inj position).symm (inside split)
      · exact endsEarly_of_run ended finished

/-- In `pi+*e` the star is impossible. -/
theorem star_is_first_impossible :
    tokenize "pi+*e" [] = .ok [⟨.name, "pi", 0⟩, ⟨.operator .plus, "+", 2⟩,
      ⟨.operator .times, "*", 3⟩, ⟨.name, "e", 4⟩] ∧
    parseTokens (sourceOf "pi+*e") [⟨.name, "pi", 0⟩, ⟨.operator .plus, "+", 2⟩,
      ⟨.operator .times, "*", 3⟩, ⟨.name, "e", 4⟩] =
        .error ⟨.operandMissingBefore "*", "pi+*e", some 3⟩ ∧
    FirstImpossible (some nestingLimit) [⟨.name, "pi", 0⟩, ⟨.operator .plus, "+", 2⟩]
      ⟨.operator .times, "*", 3⟩ := by
  have scanned : tokenize "pi+*e" [] = .ok [⟨.name, "pi", 0⟩, ⟨.operator .plus, "+", 2⟩,
    ⟨.operator .times, "*", 3⟩, ⟨.name, "e", 4⟩] := rfl
  have refused : parseTokens (sourceOf "pi+*e") [⟨.name, "pi", 0⟩, ⟨.operator .plus, "+", 2⟩,
    ⟨.operator .times, "*", 3⟩, ⟨.name, "e", 4⟩] =
      .error ⟨.operandMissingBefore "*", "pi+*e", some 3⟩ := rfl
  obtain ⟨-, -, -, points, -⟩ := fault_at_first_impossible_token scanned refused nofun
  exact ⟨scanned, refused, points _ _ [⟨.name, "e", 4⟩] rfl rfl⟩

end FormulaLayout
