import FormulaLayout.Proofs.Parsing.Reading

/-! Parentheses that are missing at the end. As many groups are open as there are opening
parentheses in excess of closing ones, so a closing parenthesis in excess is refused wherever it
stands. The end of the tokens closes all groups that are open, from the inside out, and a closing
parenthesis the innermost one in the same way. So it does not matter how many of the missing ones
are there. -/
namespace FormulaLayout

def openings (tokens : List Token) : Nat := tokens.countP (·.kind = .opening)

def closings (tokens : List Token) : Nat := tokens.countP (·.kind = .closing)

theorem openings_append (tokens more : List Token) :
    openings (tokens ++ more) = openings tokens + openings more :=
  List.countP_append ..

theorem closings_append (tokens more : List Token) :
    closings (tokens ++ more) = closings tokens + closings more :=
  List.countP_append ..

theorem closings_of_forall {ends : List Token} (closing : ∀ token ∈ ends, token.kind = .closing) :
    closings ends = ends.length :=
  List.countP_eq_length.mpr fun token mem => decide_eq_true (closing token mem)

theorem openings_of_forall {ends : List Token} (closing : ∀ token ∈ ends, token.kind = .closing) :
    openings ends = 0 := by
  refine List.countP_eq_zero.mpr fun token mem => ?_
  simp [closing token mem]

namespace ParserState
variable {limit : Option Nat} {source : String} {state last : ParserState} {token : Token}
  {tokens : List Token} {formula : Formula}

theorem run_cons_eq_ok_iff :
    state.run limit source (token :: tokens) = .ok last ↔
      ∃ next, state.step limit token = .ok next ∧ next.run limit source tokens = .ok last := by
  rw [run]
  cases taken : state.step limit token with
  | ok next => simp
  | error complaint => cases complaint <;> simp

theorem run_append_eq_ok_iff {more : List Token} :
    state.run limit source (tokens ++ more) = .ok last ↔
      ∃ middle, state.run limit source tokens = .ok middle ∧
        middle.run limit source more = .ok last := by
  rw [run_append]
  cases state.run limit source tokens <;> simp [Except.bind]

theorem step_closing_of_outermost (limit : Option Nat) (kind : token.kind = .closing)
    (outermost : state.outer = []) :
    ∃ complaint, state.step limit token = .error complaint := by
  unfold step
  cases phase : state.phase with
  | start => simp [kind, outermost, receive]
  | awaiting slot => cases slot <;> simp [kind, receive]
  | holding value => simp [kind, outermost]

theorem outer_length_of_step {next : ParserState} (taken : state.step limit token = .ok next) :
    next.outer.length + closings [token] = state.outer.length + openings [token] := by
  have nests := step_nests limit state token
  rw [taken] at nests
  obtain ⟨depth, -⟩ := nests
  rw [depth]
  cases kind : token.kind with
  | closing =>
    -- the step was taken, so there is a group to close
    have inside : state.outer ≠ [] := by
      intro outermost
      obtain ⟨complaint, failed⟩ := step_closing_of_outermost limit kind outermost
      cases taken.symm.trans failed
    have some := List.length_pos_iff.mpr inside
    have shut : closings [token] = 1 := by simp [closings, kind]
    have none : openings [token] = 0 := by simp [openings, kind]
    rw [TokenKind.depthAfter, shut, none, Nat.sub_add_cancel some, Nat.add_zero]
  | _ => simp [TokenKind.depthAfter, closings, openings, kind]

theorem outer_length_of_run (reached : state.run limit source tokens = .ok last) :
    last.outer.length + closings tokens = state.outer.length + openings tokens := by
  induction tokens generalizing state with
  | nil =>
    cases reached
    rfl
  | cons token rest ih =>
    obtain ⟨next, taken, reached⟩ := run_cons_eq_ok_iff.mp reached
    have here := outer_length_of_step taken
    have later := ih reached
    rw [← List.singleton_append, closings_append, openings_append]
    omega

theorem outer_length_add_closings (reached : initial.run limit source tokens = .ok last) :
    last.outer.length + closings tokens = openings tokens :=
  (outer_length_of_run reached).trans (Nat.zero_add _)

/-- Where a group is open, a closing parenthesis changes nothing in what the end of the tokens makes
of the state. -/
theorem finish_step_closing_iff (limit : Option Nat) (kind : token.kind = .closing)
    (inside : state.outer ≠ []) :
    (∃ next, state.step limit token = .ok next ∧ next.finish = .ok formula) ↔
      state.finish = .ok formula := by
  obtain ⟨⟨pending, slot⟩, outer, enclosed⟩ := List.exists_cons_of_ne_nil inside
  unfold step finish
  cases phase : state.phase with
  | start => simp [kind, enclosed, closeAll]
  | awaiting slot => cases slot <;> simp [kind, receive]
  | holding value => simp [kind, enclosed, closeAll]

theorem finish_run_closings_iff (limit : Option Nat) (source : String) {ends : List Token}
    (closing : ∀ token ∈ ends, token.kind = .closing) (enough : ends.length ≤ state.outer.length) :
    (∃ last, state.run limit source ends = .ok last ∧ last.finish = .ok formula) ↔
      state.finish = .ok formula := by
  induction ends generalizing state with
  | nil => simp [run]
  | cons token rest ih =>
    obtain ⟨kind, closing⟩ := List.forall_mem_cons.mp closing
    have inside : state.outer ≠ [] := List.length_pos_iff.mp (Nat.lt_of_lt_of_le (by simp) enough)
    rw [← finish_step_closing_iff limit kind inside]
    -- one group less is open behind the token, and one token less is left
    have later {next : ParserState} (taken : state.step limit token = .ok next) :
        (∃ last, next.run limit source rest = .ok last ∧ last.finish = .ok formula) ↔
          next.finish = .ok formula := by
      refine ih closing ?_
      have depth := outer_length_of_step taken
      have shut : closings [token] = 1 := by simp [closings, kind]
      rw [shut] at depth
      rw [List.length_cons] at enough
      omega
    simp only [run_cons_eq_ok_iff]
    constructor
    · rintro ⟨last, ⟨next, taken, reached⟩, finished⟩
      exact ⟨next, taken, (later taken).mp ⟨last, reached, finished⟩⟩
    · rintro ⟨next, taken, finished⟩
      obtain ⟨last, reached, finished⟩ := (later taken).mpr finished
      exact ⟨last, ⟨next, taken, reached⟩, finished⟩

end ParserState

open ParserState

theorem parseTokensWithin_eq_ok_iff_run {limit : Option Nat} {source : String}
    {tokens : List Token} {formula : Formula} :
    parseTokensWithin limit source tokens = .ok formula ↔
      ∃ last, initial.run limit source tokens = .ok last ∧ last.finish = .ok formula := by
  unfold parseTokensWithin
  cases ended : initial.run limit source tokens with
  | error fault => simp [bind, Except.bind]
  | ok last => cases finished : last.finish <;> simp [bind, Except.bind, finished]

theorem rejected_of_excess {limit : Option Nat} {source : String} {front tokens : List Token}
    (before : front <+: tokens) (excess : openings front < closings front) :
    Rejected limit source tokens := by
  obtain ⟨behind, rfl⟩ := before
  refine rejected_iff.mpr fun formula parsed => ?_
  obtain ⟨last, reached, -⟩ := parseTokensWithin_eq_ok_iff_run.mp parsed
  obtain ⟨middle, reached, -⟩ := run_append_eq_ok_iff.mp reached
  have depth := outer_length_add_closings reached
  omega

theorem parse_append_closings_iff {limit : Option Nat} {source source' : String}
    {tokens ends : List Token} (closing : ∀ token ∈ ends, token.kind = .closing)
    (enough : closings tokens + ends.length ≤ openings tokens) (formula : Formula) :
    parseTokensWithin limit source' (tokens ++ ends) = .ok formula ↔
      parseTokensWithin limit source tokens = .ok formula := by
  rw [parseTokensWithin_eq_ok_congr limit source' source, parseTokensWithin_eq_ok_iff_run,
    parseTokensWithin_eq_ok_iff_run]
  simp only [run_append_eq_ok_iff]
  have room {middle : ParserState} (reached : initial.run limit source tokens = .ok middle) :
      ends.length ≤ middle.outer.length := by
    have depth := outer_length_add_closings reached
    omega
  constructor
  · rintro ⟨last, ⟨middle, reached, shut⟩, finished⟩
    exact ⟨middle, reached,
      (finish_run_closings_iff limit source closing (room reached)).mp ⟨last, shut, finished⟩⟩
  · rintro ⟨middle, reached, finished⟩
    obtain ⟨last, shut, finished⟩ :=
      (finish_run_closings_iff limit source closing (room reached)).mpr finished
    exact ⟨last, ⟨middle, reached, shut⟩, finished⟩

/-- Closing parentheses in excess of the opening ones in front of them are refused. Any number of
closing parentheses may follow up to the number that is missing, without any difference to what is
read, and no more. -/
theorem missing_closings_are_optional (limit : Option Nat) (source : String)
    (tokens : List Token) :
    (∀ front, front <+: tokens → openings front < closings front →
      Rejected limit source tokens) ∧
    ∀ source' ends, (∀ token ∈ ends, token.kind = .closing) →
      (closings tokens + ends.length ≤ openings tokens →
        SameOutcome limit source tokens source' (tokens ++ ends)) ∧
      (openings tokens < closings tokens + ends.length →
        Rejected limit source' (tokens ++ ends)) := by
  refine ⟨fun front before excess => rejected_of_excess before excess,
    fun source' ends closing => ⟨fun enough => ?_, fun excess => ?_⟩⟩
  · exact sameOutcome_of_iff (parse_append_closings_iff closing enough)
  · refine rejected_of_excess List.prefix_rfl ?_
    rw [openings_append, closings_append, openings_of_forall closing, closings_of_forall closing]
    exact excess

/-- The tokens of `2-(3(`, where a group and an empty group in it are open. -/
def openPair : List Token :=
  [⟨.number 2, "2", 0⟩, ⟨.operator .minus, "-", 1⟩, ⟨.opening, "(", 2⟩, ⟨.number 3, "3", 3⟩,
    ⟨.opening, "(", 4⟩]

/-- With one or two closing parentheses it is the same formula, with three it is none. -/
theorem openPair_closes :
    parseTokens "2-(3(" openPair = .ok (.binary .plus (.literal 2)
      (.negate (.binary .times (.literal 3) .zero))) ∧
    SameOutcome (some nestingLimit) "2-(3(" openPair "2-(3()"
      (openPair ++ [⟨.closing, ")", 5⟩]) ∧
    SameOutcome (some nestingLimit) "2-(3(" openPair "2-(3())"
      (openPair ++ [⟨.closing, ")", 5⟩, ⟨.closing, ")", 6⟩]) ∧
    Rejected (some nestingLimit) "2-(3()))"
      (openPair ++ [⟨.closing, ")", 5⟩, ⟨.closing, ")", 6⟩, ⟨.closing, ")", 7⟩]) ∧
    Rejected (some nestingLimit) "2)" [⟨.number 2, "2", 0⟩, ⟨.closing, ")", 1⟩] := by
  obtain ⟨-, closes⟩ := missing_closings_are_optional (some nestingLimit) "2-(3(" openPair
  refine ⟨rfl, (closes _ _ (by decide)).1 (by decide), (closes _ _ (by decide)).1 (by decide),
    (closes _ _ (by decide)).2 (by decide), ?_⟩
  exact (missing_closings_are_optional (some nestingLimit) "2)" _).1 _ List.prefix_rfl (by decide)

end FormulaLayout
