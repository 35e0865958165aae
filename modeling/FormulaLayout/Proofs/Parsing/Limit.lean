import FormulaLayout.Proofs.Parsing.Closing
import FormulaLayout.Proofs.Parsing.Frames

/-! The limit on parentheses. Tokens that never have more than the limit open are read as if there
were none, and where one more would be opened, nothing but the limit is to blame. A stack of calls
that has no limit of its own for parentheses has one all the same: a level of them takes twelve
frames, or thirteen behind a function, and nothing else adds up. -/
namespace FormulaLayout
open ParserState

def OpensAtMost (most : Nat) (tokens : List Token) : Prop :=
  ∀ front, front <+: tokens → openings front ≤ closings front + most

def OpensBeyond (depth : Nat) (source : String) (tokens : List Token) : Prop :=
  ∃ front token behind, tokens = front ++ token :: behind ∧ token.kind = .opening ∧
    closings front + depth ≤ openings front ∧ ∃ last, initial.run none source front = .ok last

theorem OpensAtMost.mono {most most' : Nat} {tokens : List Token} (h : OpensAtMost most tokens)
    (more : most ≤ most') : OpensAtMost most' tokens := by
  intro front before
  have := h front before
  omega

theorem OpensBeyond.anti {depth depth' : Nat} {source : String} {tokens : List Token}
    (h : OpensBeyond depth source tokens) (less : depth' ≤ depth) :
    OpensBeyond depth' source tokens := by
  obtain ⟨front, token, behind, split, kind, deep, reached⟩ := h
  exact ⟨front, token, behind, split, kind, by omega, reached⟩

namespace ParserState
variable {limit : Nat} {source : String} {state last : ParserState} {token : Token}
  {tokens : List Token}

theorem openGroup_of_free (free : state.outer.length < limit) (slot : Slot) :
    state.openGroup (some limit) slot = state.openGroup none slot := by
  simp [openGroup, free]

theorem receive_of_free (free : token.kind = .opening → state.outer.length < limit) (slot : Slot) :
    state.receive (some limit) slot token = state.receive none slot token := by
  unfold receive
  split
  case h_3 kind => exact openGroup_of_free (free kind) _
  all_goals rfl

theorem step_of_free (free : token.kind = .opening → state.outer.length < limit) :
    state.step (some limit) token = state.step none token := by
  unfold step
  split
  · split
    · rfl
    · exact receive_of_free free _
  · exact receive_of_free free _
  · split
    · rfl
    · rfl
    · rfl
    · refine receive_of_free ?_ _
      exact free

theorem step_of_full (kind : token.kind = .opening) (full : limit ≤ state.outer.length) :
    state.step (some limit) token = .error .nestedTooDeeply := by
  have refused (state : ParserState) (slot : Slot) (full : limit ≤ state.outer.length) :
      state.receive (some limit) slot token = .error .nestedTooDeeply := by
    unfold receive
    simp [kind, openGroup, full]
  unfold step
  split
  · simp only [kind]
    exact refused _ _ full
  · exact refused _ _ full
  · simp only [kind]
    exact refused _ _ full

theorem run_of_opensAtMost
    (room : ∀ front, front <+: tokens →
      state.outer.length + openings front ≤ closings front + limit) :
    state.run (some limit) source tokens = state.run none source tokens := by
  induction tokens generalizing state with
  | nil => rfl
  | cons token rest ih =>
    have free (kind : token.kind = .opening) : state.outer.length < limit := by
      have one : state.outer.length + 1 ≤ limit := by
        simpa [openings, closings, kind] using room [token] (by simp)
      exact one
    rw [run, run, step_of_free free]
    cases taken : state.step none token with
    | error complaint => cases complaint <;> rfl
    | ok next =>
      refine ih fun front before => ?_
      have depth := outer_length_of_step taken
      have later := room (token :: front) (by simpa using before)
      rw [← List.singleton_append, openings_append, closings_append] at later
      omega

theorem run_of_run_none (reached : state.run none source tokens = .ok last) :
    state.run (some limit) source tokens = .ok last ∨
      state.run (some limit) source tokens = .error (tooDeep source) := by
  induction tokens generalizing state with
  | nil => exact .inl reached
  | cons token rest ih =>
    by_cases full : token.kind = .opening ∧ limit ≤ state.outer.length
    · refine .inr ?_
      simp only [run, step_of_full full.1 full.2]
      rfl
    · have free (kind : token.kind = .opening) : state.outer.length < limit :=
        Nat.lt_of_not_le fun beyond => full ⟨kind, beyond⟩
      obtain ⟨next, taken, reached⟩ := run_cons_eq_ok_iff.mp reached
      rw [← step_of_free free] at taken
      simp only [run, taken]
      exact ih reached

theorem exists_run_of_openings (opens : ∀ token ∈ tokens, token.kind = .opening) :
    ∃ last, state.run none source tokens = .ok last := by
  induction tokens generalizing state with
  | nil => exact ⟨state, rfl⟩
  | cons token rest ih =>
    obtain ⟨kind, opens⟩ := List.forall_mem_cons.mp opens
    have taken : ∃ next, state.step none token = .ok next := by
      unfold step
      split <;> simp [kind, receive, openGroup]
    obtain ⟨next, taken⟩ := taken
    obtain ⟨last, reached⟩ := @ih next opens
    exact ⟨last, run_cons_eq_ok_iff.mpr ⟨next, taken, reached⟩⟩

end ParserState

variable {limit : Nat} {source : String} {tokens : List Token}

theorem parseTokensWithin_of_opensAtMost (h : OpensAtMost limit tokens) :
    parseTokensWithin (some limit) source tokens = parseTokensWithin none source tokens := by
  have same : initial.run (some limit) source tokens = initial.run none source tokens :=
    run_of_opensAtMost fun front before => by
      have := h front before
      simpa [initial] using this
  rw [parseTokensWithin, parseTokensWithin, same]

theorem parseTokensWithin_of_opensBeyond (h : OpensBeyond limit source tokens) :
    parseTokensWithin (some limit) source tokens = .error (tooDeep source) := by
  obtain ⟨front, token, behind, rfl, kind, deep, last, reached⟩ := h
  have failed : initial.run (some limit) source (front ++ token :: behind) =
      .error (tooDeep source) := by
    rw [run_append]
    rcases run_of_run_none reached with reached' | failed
    · have depth := outer_length_add_closings reached
      rw [reached']
      simp only [Except.bind, run]
      rw [step_of_full kind (by omega)]
      rfl
    · rw [failed]
      rfl
  rw [parseTokensWithin, failed]
  rfl

theorem not_tooDeep_of_none {fault : Fault}
    (failed : parseTokensWithin none source tokens = .error fault) :
    fault.complaint ≠ .nestedTooDeeply := by
  have answers := parseTokensWithin_answers none source tokens
  rw [failed] at answers
  exact (answers.2 rfl).1

namespace Descent

theorem parse_of_opensAtMost {frames : Nat} (h : OpensAtMost limit tokens)
    (enough : 13 * limit + 12 ≤ frames) :
    parse frames source tokens = parseTokensWithin none source tokens := by
  have flat : parseTokensWithin (some limit) source tokens =
      parseTokensWithin none source tokens := parseTokensWithin_of_opensAtMost h
  rcases parse_compares limit frames source tokens with same | ⟨deep, -⟩ | ⟨-, few⟩
  · exact same.trans flat
  · exact absurd rfl (not_tooDeep_of_none (flat.symm.trans deep))
  · omega

theorem parse_of_opensBeyond {frames : Nat} (h : OpensBeyond limit source tokens)
    (few : frames < 12 * limit + 12) : parse frames source tokens = .error (tooDeep source) := by
  have deep := parseTokensWithin_of_opensBeyond h
  rcases parse_compares limit frames source tokens with same | ⟨-, enough⟩ | ⟨deep, -⟩
  · exact same.trans deep
  · omega
  · exact deep

end Descent

/-- Only open parentheses are limited. Tokens that never have more than sixty of them open are read
as without a limit, whatever else there is of them, and nesting is not to blame for any fault. Where
one is opened inside two hundred, nesting is to blame. That holds for every limit in between and for
every stack of calls that has frames for sixty and none for two hundred. -/
theorem only_parentheses_nest (source : String) (tokens : List Token) :
    (OpensAtMost 60 tokens →
      parseTokens source tokens = parseTokensWithin none source tokens ∧
      (∀ limit, 60 ≤ limit →
        parseTokensWithin (some limit) source tokens = parseTokensWithin none source tokens) ∧
      (∀ frames, 792 ≤ frames →
        Descent.parse frames source tokens = parseTokensWithin none source tokens) ∧
      ∀ fault, parseTokensWithin none source tokens = .error fault →
        fault.complaint ≠ .nestedTooDeeply) ∧
    (OpensBeyond 200 source tokens →
      parseTokens source tokens = .error ⟨.nestedTooDeeply, source, none⟩ ∧
      (∀ limit, limit ≤ 200 →
        parseTokensWithin (some limit) source tokens = .error ⟨.nestedTooDeeply, source, none⟩) ∧
      ∀ frames, frames < 2412 →
        Descent.parse frames source tokens = .error ⟨.nestedTooDeeply, source, none⟩) ∧
    ∀ text extra, tokenize text extra = .ok tokens →
      Formula.parse (some text) extra = parseTokens (sourceOf text) tokens := by
  refine ⟨fun shallow => ⟨?_, fun limit more => ?_, fun frames enough => ?_, fun fault => ?_⟩,
    fun deep => ⟨?_, fun limit less => ?_, fun frames few => ?_⟩, fun text extra scanned => ?_⟩
  · exact parseTokensWithin_of_opensAtMost (shallow.mono (by decide))
  · exact parseTokensWithin_of_opensAtMost (shallow.mono more)
  · exact Descent.parse_of_opensAtMost shallow enough
  · exact not_tooDeep_of_none
  · exact parseTokensWithin_of_opensBeyond (deep.anti (by decide))
  · exact parseTokensWithin_of_opensBeyond (deep.anti less)
  · exact Descent.parse_of_opensBeyond deep few
  · simp [Formula.parse, scanned, bind, Except.bind]

def nestedSource (depth : Nat) : String := String.ofList (List.replicate depth '(' ++ ['1', '+'])

def nestedTokens (depth : Nat) : List Token :=
  (List.range depth).map (⟨.opening, "(", ·⟩) ++
    [⟨.number 1, "1", depth⟩, ⟨.operator .plus, "+", depth + 1⟩]

/-- Inside sixty parentheses the complaint is about the end, inside two hundred and one about the
nesting. -/
theorem nested_sums_fail :
    OpensAtMost 60 (nestedTokens 60) ∧
    parseTokens (nestedSource 60) (nestedTokens 60) =
      .error ⟨.endsEarly, nestedSource 60, some 62⟩ ∧
    OpensBeyond 200 (nestedSource 201) (nestedTokens 201) ∧
    parseTokens (nestedSource 201) (nestedTokens 201) =
      .error ⟨.nestedTooDeeply, nestedSource 201, none⟩ := by
  have shallow : OpensAtMost 60 (nestedTokens 60) := fun front before =>
    Nat.le_add_left_of_le (Nat.le_trans before.sublist.countP_le (by decide +kernel))
  have read : parseTokensWithin none (nestedSource 60) (nestedTokens 60) =
      .error ⟨.endsEarly, nestedSource 60, some 62⟩ := by rfl
  have deep : OpensBeyond 200 (nestedSource 201) (nestedTokens 201) := by
    refine ⟨(List.range 200).map (⟨.opening, "(", ·⟩), ⟨.opening, "(", 200⟩,
      [⟨.number 1, "1", 201⟩, ⟨.operator .plus, "+", 202⟩], ?_, rfl, ?_, ?_⟩
    · rw [nestedTokens, List.range_succ]
      simp
    · decide +kernel
    · refine exists_run_of_openings fun token listed => ?_
      obtain ⟨index, -, rfl⟩ := List.mem_map.mp listed
      rfl
  obtain ⟨within, -, -⟩ := only_parentheses_nest (nestedSource 60) (nestedTokens 60)
  obtain ⟨-, beyond, -⟩ := only_parentheses_nest (nestedSource 201) (nestedTokens 201)
  exact ⟨shallow, (within shallow).1.trans read, deep, (beyond deep).1⟩

end FormulaLayout
