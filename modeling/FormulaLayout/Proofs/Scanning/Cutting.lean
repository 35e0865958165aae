import FormulaLayout.Proofs.Scanning.Round

/-! Tokens cut a text up. As long as no empty word is met, each round passes a character at least,
so the loop comes to an end, and the tokens found are the pieces of what is passed. Cutting away
what is not passed yet changes nothing in what is found: the part in front of a fault is scanned on
its own, with the tokens found before the fault. -/
namespace FormulaLayout
open Number Text

structure CutsUp (text : List Char) (tokens : List Token) : Prop where
  whole : tokens.flatMap (·.text.toList) = text
  filled : ∀ token ∈ tokens, token.text ≠ ""
  placed : ∀ before token behind, tokens = before ++ token :: behind →
    token.position = (before.flatMap (·.text.toList)).length

namespace CutsUp
variable {text : List Char} {tokens : List Token}

theorem nil : CutsUp [] [] where
  whole := rfl
  filled := nofun
  placed _ _ _ same := by simp at same

theorem concat (cuts : CutsUp text tokens) (kind : TokenKind) {piece : List Char}
    (filled : piece ≠ []) :
    CutsUp (text ++ piece) (tokens ++ [⟨kind, String.ofList piece, text.length⟩]) where
  whole := by simp [cuts.whole]
  filled := by
    refine List.forall_mem_append.mpr ⟨cuts.filled, List.forall_mem_singleton.mpr ?_⟩
    simpa using filled
  placed before token behind same := by
    rcases List.eq_nil_or_concat behind with rfl | ⟨behind, last, rfl⟩
    · obtain ⟨rfl, last⟩ := List.append_inj' same rfl
      rw [← (List.cons.inj last).1, cuts.whole]
    · rw [List.concat_eq_append, ← List.cons_append, ← List.append_assoc] at same
      exact cuts.placed before token behind (List.append_inj' same rfl).1

theorem length_le (cuts : CutsUp text tokens) : tokens.length ≤ text.length := by
  obtain ⟨rfl, filled, -⟩ := cuts
  induction tokens with
  | nil => exact Nat.zero_le _
  | cons token rest ih =>
    obtain ⟨filled, filledRest⟩ := List.forall_mem_cons.mp filled
    have some : 0 < token.text.toList.length := by
      simpa [List.length_pos_iff] using filled
    rw [List.length_cons, List.flatMap_cons, List.length_append]
    have later := ih filledRest
    omega

theorem position_lt (cuts : CutsUp text tokens) {before behind : List Token} {token : Token}
    (split : tokens = before ++ token :: behind) : token.position < text.length := by
  have filled := cuts.filled token (by simp [split])
  have some : 0 < token.text.toList.length := by
    simpa [List.length_pos_iff] using filled
  rw [cuts.placed before token behind split, ← cuts.whole, split, List.flatMap_append,
    List.flatMap_cons]
  simp only [List.length_append]
  omega

theorem position_lt_position (cuts : CutsUp text tokens) {before between behind : List Token}
    {token later : Token} (split : tokens = before ++ token :: (between ++ later :: behind)) :
    token.position < later.position := by
  have front : CutsUp ((before ++ token :: between).flatMap (·.text.toList))
      (before ++ token :: between) := by
    refine ⟨rfl, fun token mem => cuts.filled token ?_, fun left token right same => ?_⟩
    · simp only [split, List.mem_append, List.mem_cons] at mem ⊢
      tauto
    · refine cuts.placed left token (right ++ later :: behind) ?_
      rw [split, ← List.cons_append, ← List.append_assoc, same, List.append_assoc, List.cons_append]
  have placed := cuts.placed (before ++ token :: between) later behind (by simp [split])
  rw [placed]
  exact front.position_lt rfl

theorem eq_of_position_eq (cuts : CutsUp text tokens) {before before' behind behind' : List Token}
    {token token' : Token} (split : tokens = before ++ token :: behind)
    (split' : tokens = before' ++ token' :: behind') (same : token.position = token'.position) :
    before = before' ∧ token = token' := by
  rcases List.append_eq_append_iff.mp (split.symm.trans split') with
    ⟨between, longer, front⟩ | ⟨between, longer, front⟩
  · cases between with
    | nil =>
      rw [List.append_nil] at longer
      exact ⟨longer.symm, (List.cons.inj front).1⟩
    | cons first between =>
      obtain ⟨rfl, rfl⟩ := List.cons.inj front
      exact absurd same (Nat.ne_of_lt (cuts.position_lt_position split))
  · cases between with
    | nil =>
      rw [List.append_nil] at longer
      exact ⟨longer, (List.cons.inj front).1.symm⟩
    | cons first between =>
      obtain ⟨rfl, rfl⟩ := List.cons.inj front
      exact absurd same.symm (Nat.ne_of_lt (cuts.position_lt_position split'))

end CutsUp

namespace Scan
variable {words : List (List Char)} {source : String} {text : List Char}

def Moving (words : List (List Char)) (source : String) (scan : Scan) : Prop :=
  ∀ fault, scan.outcome words source = .error fault → ∀ initial, fault.complaint ≠ .stalled initial

theorem Moving.not_stalled {found : List Token} {position : Nat} {c : Char} {rest : List Char}
    (moving : Moving words source ⟨found, position, c :: rest⟩) :
    ¬Meets words c rest (.error (.stalled c)) := by
  intro front
  have failed : outcome words source ⟨found, position, c :: rest⟩ =
      .error ⟨.stalled c, source, some position⟩ := by
    simp [outcome, scanFrom, front.lexeme_eq, Except.map]
  exact moving _ failed c rfl

theorem moving_of_after {n : Nat} {scan : Scan} (reached : after words source text n = .ok scan)
    (moving : Moving words source ⟨[], 0, text⟩) : scan.Moving words source := by
  rwa [Moving, outcome_of_after reached, ← outcome_start]

/-- What is known of the loop after `n` rounds, of which the characters passed are given. -/
structure Past (words : List (List Char)) (n : Nat) (passed : List Char) (scan : Scan) : Prop where
  position : scan.position = passed.length
  lively : scan.rest = [] ∨ n ≤ scan.position
  cutsUp : CutsUp passed scan.found
  alone : ∀ source shorter, shorter <+: scan.rest →
    after words source (passed ++ shorter) n = .ok { scan with rest := shorter }

theorem past_start (words : List (List Char)) (text : List Char) :
    Past words 0 [] ⟨[], 0, text⟩ where
  position := rfl
  lively := .inr (Nat.le_refl 0)
  cutsUp := .nil
  alone _ _ _ := rfl

theorem Past.turn {n : Nat} {passed : List Char} {scan next : Scan}
    (past : Past words n passed scan) (turns : Turns words source scan (.ok next))
    (moving : scan.Moving words source) :
    ∃ more, scan.rest = more ++ next.rest ∧ Past words (n + 1) (passed ++ more) next := by
  cases turns with
  | finished =>
    refine ⟨[], rfl, ?_⟩
    rw [List.append_nil]
    refine ⟨past.position, .inl rfl, past.cutsUp, fun source shorter cut => ?_⟩
    rw [after, past.alone source shorter cut]
    obtain rfl := List.prefix_nil.mp cut
    rfl
  | @passes found position c more left kind front =>
    obtain rfl : position = passed.length := past.position
    have filled := List.cons_ne_nil c more
    refine ⟨c :: more, rfl, by simp, .inr ?_, past.cutsUp.concat kind filled,
      fun source shorter cut => ?_⟩
    · have before : n ≤ passed.length := past.lively.resolve_left (List.cons_ne_nil _ _)
      dsimp only
      omega
    · have longer : c :: (more ++ shorter) <+: c :: (more ++ left) := by simpa using cut
      rw [after, List.append_assoc, List.cons_append, past.alone source _ longer]
      exact (Turns.passes (front.of_prefix cut)).round_eq
  | stays front => exact absurd front moving.not_stalled

theorem exists_past {n : Nat} {scan : Scan} (reached : after words source text n = .ok scan)
    (moving : Moving words source ⟨[], 0, text⟩) :
    ∃ passed, text = passed ++ scan.rest ∧ Past words n passed scan := by
  induction n generalizing scan with
  | zero =>
    cases reached
    exact ⟨[], rfl, past_start words text⟩
  | succ n ih =>
    obtain ⟨before, reached, turns⟩ := turns_of_after_succ reached
    obtain ⟨passed, whole, past⟩ := ih reached
    obtain ⟨more, next, past⟩ := past.turn turns (moving_of_after reached moving)
    exact ⟨passed ++ more, by rw [List.append_assoc, ← next, whole], past⟩

theorem after_length (moving : Moving words source ⟨[], 0, text⟩) :
    after words source text text.length =
      (scanFrom words source 0 0 text).map (⟨·, text.length, []⟩) := by
  cases ended : after words source text text.length with
  | ok scan =>
    obtain ⟨passed, whole, past⟩ := exists_past ended moving
    have finished : scan.rest = [] := past.lively.elim id fun far => by
      have length := congrArg List.length whole
      rw [List.length_append] at length
      rw [past.position] at far
      exact List.length_eq_zero_iff.mp (by omega)
    rw [← outcome_of_after ended, outcome_of_finished finished]
    rw [finished, List.append_nil] at whole
    obtain ⟨found, position, rest⟩ := scan
    obtain rfl : position = passed.length := past.position
    obtain rfl : rest = [] := finished
    rw [whole]
    rfl
  | error fault =>
    obtain ⟨n, scan, -, reached, turns⟩ := turns_of_after_error ended
    rw [← outcome_of_after reached, turns.outcome_eq]
    rfl

end Scan

abbrev LoopMoves (text : String) (extra : List String) : Prop :=
  Scan.Moving (knownWords extra) (sourceOf text) ⟨[], 0, squeeze text.toList⟩

theorem exists_meets_of_scanFrom {words : List (List Char)} {source : String} {text : List Char}
    {skip position : Nat} {fault : Fault}
    (failed : scanFrom words source skip position text = .error fault) :
    ∃ c rest place, Meets words c rest (.error fault.complaint) ∧
      fault = ⟨fault.complaint, source, some place⟩ := by
  induction text generalizing skip position with
  | nil => cases failed
  | cons c rest ih =>
    cases skip with
    | succ skip => exact ih failed
    | zero =>
      rw [scanFrom] at failed
      have meets := meets_lexeme words c rest
      cases front : lexeme words c rest with
      | error complaint =>
        rw [front] at failed meets
        cases failed
        exact ⟨c, rest, position, meets, rfl⟩
      | ok found =>
        simp only [front, bind, Except.bind] at failed
        split at failed
        · next later =>
          cases failed
          exact ih later
        · cases failed

theorem nil_mem_knownWords_iff {extra : List String} : [] ∈ knownWords extra ↔ "" ∈ extra := by
  have fixed : "" ∉ baseNames ++ extendedNames ∧ "" ∉ reservedWords.map Prod.fst := by decide
  rw [knownWords, List.mem_map]
  constructor
  · rintro ⟨name, listed, empty⟩
    obtain rfl := String.toList_eq_nil_iff.mp empty
    rcases List.mem_append.mp listed with listed | reserved
    · exact (List.mem_append.mp listed).resolve_left fixed.1
    · exact absurd reserved fixed.2
  · exact fun listed => ⟨"", List.mem_append_left _ (List.mem_append_right _ listed), rfl⟩

theorem squeeze_of_squeezed_append {text passed rest : List Char}
    (whole : squeeze text = passed ++ rest) : squeeze passed = passed := by
  refine List.filter_eq_self.mpr fun c mem => ?_
  have kept : c ∈ squeeze text := whole ▸ List.mem_append_left rest mem
  simp [(mem_squeeze.mp kept).2]

theorem loopMoves_of_notMem {extra : List String} (named : "" ∉ extra) (text : String) :
    LoopMoves text extra := by
  intro fault failed initial stalled
  rw [Scan.outcome_start] at failed
  obtain ⟨c, rest, place, meets, -⟩ := exists_meets_of_scanFrom failed
  rw [stalled] at meets
  exact named (nil_mem_knownWords_iff.mp meets.nil_mem)

theorem cutsUp_of_tokenize {text : String} {extra : List String} {tokens : List Token}
    (scanned : tokenize text extra = .ok tokens) : CutsUp (sourceOf text).toList tokens := by
  rw [tokenize] at scanned
  have moving : LoopMoves text extra := by
    intro fault failed
    rw [Scan.outcome_start, scanned] at failed
    cases failed
  have ended := Scan.after_length moving
  rw [scanned] at ended
  obtain ⟨passed, whole, past⟩ := Scan.exists_past ended moving
  rw [List.append_nil] at whole
  simpa [sourceOf, whole] using past.cutsUp

theorem tokenize_take_position {text : String} {extra : List String} {n : Nat} {scan : Scan}
    (reached : loop text extra n = .ok scan) (moving : LoopMoves text extra) :
    tokenize (String.ofList ((sourceOf text).toList.take scan.position)) extra =
      .ok scan.found := by
  obtain ⟨passed, whole, past⟩ := Scan.exists_past reached moving
  have front : (sourceOf text).toList.take scan.position = passed := by
    simp [sourceOf, whole, past.position]
  have alone := past.alone (sourceOf (String.ofList passed)) [] List.nil_prefix
  rw [List.append_nil] at alone
  rw [front, tokenize, String.toList_ofList, squeeze_of_squeezed_append whole,
    ← Scan.outcome_of_after alone]
  exact Scan.outcome_of_finished rfl

/-- Without an empty name, either the tokens cut the whole text up, or some round raises, and then
what is in front of that place is scanned on its own, into the tokens found so far. -/
theorem scan_keeps_every_character {extra : List String} (named : "" ∉ extra) (text : String) :
    match tokenize text extra with
    | .ok tokens => CutsUp (sourceOf text).toList tokens
    | .error fault => ∃ n scan, loop text extra n = .ok scan ∧
        scan.round (knownWords extra) (sourceOf text) = .error fault ∧
        fault.source = sourceOf text ∧ fault.position = some scan.position ∧
        scan.position < (sourceOf text).length ∧
        tokenize (String.ofList ((sourceOf text).toList.take scan.position)) extra =
          .ok scan.found := by
  cases scanned : tokenize text extra with
  | ok tokens => exact cutsUp_of_tokenize scanned
  | error fault =>
    have moving := loopMoves_of_notMem named text
    have ended := Scan.after_length moving
    rw [← tokenize, scanned] at ended
    obtain ⟨n, scan, -, reached, turns⟩ := Scan.turns_of_after_error ended
    obtain ⟨passed, whole, past⟩ := Scan.exists_past reached moving
    obtain ⟨source, position, left⟩ := turns.fault_eq
    refine ⟨n, scan, reached, turns.round_eq, source, position, ?_,
      tokenize_take_position reached moving⟩
    have remains := List.length_pos_iff.mpr left
    simp only [sourceOf, String.length_ofList, whole, List.length_append, past.position]
    omega

theorem broken_number_leaves_name : "" ∉ ["ab", "abc"] ∧
    tokenize "ab c2E-" ["ab", "abc"] = .error ⟨.notANumber "2E-", "abc2E-", some 3⟩ ∧
    ∃ n scan, loop "ab c2E-" ["ab", "abc"] n = .ok scan ∧ scan.found = [⟨.name, "abc", 0⟩] := by
  have named : "" ∉ ["ab", "abc"] := by decide
  have failed : tokenize "ab c2E-" ["ab", "abc"] =
      .error ⟨.notANumber "2E-", "abc2E-", some 3⟩ := by rfl
  have alone : tokenize (String.ofList ((sourceOf "ab c2E-").toList.take 3)) ["ab", "abc"] =
      .ok [⟨.name, "abc", 0⟩] := by rfl
  have kept := scan_keeps_every_character named "ab c2E-"
  rw [failed] at kept
  obtain ⟨n, scan, reached, -, -, position, -, front⟩ := kept
  rw [← Option.some.inj position, alone] at front
  exact ⟨named, failed, n, scan, reached, (Except.ok.inj front).symm⟩

end FormulaLayout
