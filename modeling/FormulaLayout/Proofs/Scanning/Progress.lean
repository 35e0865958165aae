import FormulaLayout.Proofs.Scanning.Cutting

/-! When the loop ends. Names that are not empty are passed when they are met, so the loop ends,
after as many rounds as there are characters at the latest. An empty name is met where a letter
begins no other word. There the loop would raise without that name; with it the loop stays and
finds one more empty token in every round. -/
namespace FormulaLayout
open Number Text

def Complaint.awakened : Complaint → Complaint
  | stalled initial => unknownName initial
  | complaint => complaint

def Fault.awakened (fault : Fault) : Fault := { fault with complaint := fault.complaint.awakened }

theorem Meets.filter {words : List (List Char)} {c : Char} {rest : List Char}
    {result : Except Complaint (TokenKind × List Char)} (meets : Meets words c rest result) :
    Meets (words.filter (· ≠ [])) c rest (result.mapError Complaint.awakened) := by
  cases meets with
  | literal starts scanned reads => exact .literal starts scanned reads
  | symbol literal symbol => exact .symbol literal symbol
  | word starts longest filled =>
    exact .word starts (isLongest_filter_iff.mpr ⟨longest, filled⟩) filled
  | notANumber starts unread => exact .notANumber starts unread
  | unknownName starts unknown =>
    exact .unknownName starts (by rw [longestWord?_filter, unknown]; rfl)
  | stalled starts empty =>
    have found := longestWord?_eq_some_iff.mpr empty
    exact .unknownName starts (by rw [longestWord?_filter, found]; rfl)
  | unsupportedSymbol literal symbol letter => exact .unsupportedSymbol literal symbol letter

theorem scanFrom_filter (words : List (List Char)) (source : String) (skip position : Nat)
    (text : List Char) :
    scanFrom (words.filter (· ≠ [])) source skip position text =
      (scanFrom words source skip position text).mapError Fault.awakened := by
  induction text generalizing skip position with
  | nil => rfl
  | cons c rest ih =>
    cases skip with
    | succ skip => exact ih skip (position + 1)
    | zero =>
      rw [scanFrom, scanFrom, (meets_lexeme words c rest).filter.lexeme_eq]
      cases lexeme words c rest with
      | error complaint => rfl
      | ok found =>
        obtain ⟨kind, text⟩ := found
        simp only [Except.mapError, ih]
        cases scanFrom words source (text.length - 1) (position + 1) rest <;> rfl

theorem knownWords_filter (extra : List String) :
    knownWords (extra.filter (· ≠ "")) = (knownWords extra).filter (· ≠ []) := by
  have fixed : (baseNames ++ extendedNames).filter (· ≠ "") = baseNames ++ extendedNames ∧
      (reservedWords.map Prod.fst).filter (· ≠ "") = reservedWords.map Prod.fst := by decide
  have same : (fun word : List Char => decide (word ≠ [])) ∘ String.toList =
      fun name => decide (name ≠ "") := by
    funext name
    simp [String.toList_eq_nil_iff]
  rw [knownWords, knownWords, List.filter_map, same, List.filter_append, List.filter_append,
    fixed.1, fixed.2]

/-- Leaving out the empty name makes an unknown name of what it stood for, and changes nothing
else. -/
theorem tokenize_filter (text : String) (extra : List String) :
    tokenize text (extra.filter (· ≠ "")) = (tokenize text extra).mapError Fault.awakened := by
  rw [tokenize, knownWords_filter, scanFrom_filter]
  rfl

def LoopEnds (text : String) (extra : List String) : Prop :=
  ∃ n, ∀ scan, loop text extra n = .ok scan → scan.rest = []

/-- A letter begins no word but the empty one. -/
def MeetsEmptyName (text : String) (extra : List String) : Prop :=
  "" ∈ extra ∧ ∃ initial position, tokenize text (extra.filter (· ≠ "")) =
    .error ⟨.unknownName initial, sourceOf text, some position⟩

theorem not_loopMoves_iff {text : String} {extra : List String} :
    ¬LoopMoves text extra ↔ MeetsEmptyName text extra := by
  have start := Scan.outcome_start (knownWords extra) (sourceOf text) (squeeze text.toList)
  simp only [LoopMoves, Scan.Moving, start, not_forall, not_not]
  constructor
  · rintro ⟨fault, failed, initial, stalled⟩
    obtain ⟨c, rest, place, meets, whole⟩ := exists_meets_of_scanFrom failed
    rw [stalled] at meets whole
    refine ⟨nil_mem_knownWords_iff.mp meets.nil_mem, initial, place, ?_⟩
    rw [tokenize_filter, tokenize, failed, whole]
    rfl
  · rintro ⟨listed, initial, place, failed⟩
    rw [tokenize_filter] at failed
    cases scanned : tokenize text extra with
    | ok tokens => rw [scanned] at failed; cases failed
    | error fault =>
      rw [scanned] at failed
      have complaint : fault.complaint.awakened = .unknownName initial :=
        congrArg Fault.complaint (Except.error.inj failed)
      obtain ⟨c, rest, place, meets, -⟩ := exists_meets_of_scanFrom scanned
      refine ⟨fault, scanned, initial, ?_⟩
      cases found : fault.complaint with
      | stalled initial' =>
        rw [found] at complaint
        rw [Complaint.unknownName.inj complaint]
      | unknownName initial' =>
        rw [found] at meets
        exact absurd (nil_mem_knownWords_iff.mpr listed) meets.nil_notMem
      | _ => rw [found] at complaint; cases complaint

namespace Scan
variable {words : List (List Char)} {source : String} {text : List Char}

theorem Moving.round {scan : Scan} (moving : scan.Moving words source) (left : scan.rest ≠ []) :
    (∃ fault, scan.round words source = .error fault) ∨
      ∃ next, scan.round words source = .ok next ∧ scan.position < next.position := by
  have turns := turns_round words source scan
  cases turned : scan.round words source with
  | error fault => exact .inl ⟨fault, rfl⟩
  | ok next =>
    rw [turned] at turns
    cases turns with
    | finished => exact absurd rfl left
    | passes => exact .inr ⟨_, rfl, Nat.lt_add_of_pos_right (Nat.succ_pos _)⟩
    | stays front => exact absurd front moving.not_stalled

theorem rest_ne_nil_of_error {n : Nat} {scan : Scan} {fault : Fault}
    (failed : scanFrom words source 0 0 text = .error fault)
    (reached : after words source text n = .ok scan) : scan.rest ≠ [] := by
  intro finished
  have outcome := (outcome_of_finished finished).symm.trans (outcome_of_after reached)
  rw [failed] at outcome
  cases outcome

theorem after_of_not_moving (still : ¬Moving words source ⟨[], 0, text⟩) (n : Nat) :
    ∃ scan, after words source text n = .ok scan ∧ scan.rest ≠ [] ∧ scan.found.length = n := by
  simp only [Moving, outcome_start, not_forall, not_not] at still
  obtain ⟨fault, failed, initial, stalled⟩ := still
  induction n with
  | zero =>
    have start : after words source text 0 = .ok ⟨[], 0, text⟩ := rfl
    exact ⟨_, start, rest_ne_nil_of_error failed start, rfl⟩
  | succ n ih =>
    obtain ⟨scan, reached, remains, count⟩ := ih
    have turns := turns_round words source scan
    have next : after words source text (n + 1) = scan.round words source := by
      rw [after, reached]
      rfl
    cases turned : scan.round words source with
    | error raised =>
      rw [turned] at turns
      have outcome := turns.outcome_eq.symm.trans (outcome_of_after reached)
      rw [failed] at outcome
      exact absurd stalled (Except.error.inj outcome ▸ turns.not_stalled initial)
    | ok scan' =>
      rw [turned] at turns next
      refine ⟨scan', next, rest_ne_nil_of_error failed next, ?_⟩
      cases turns with
      | finished => exact absurd rfl remains
      | passes | stays => simpa using count

end Scan

theorem loopEnds_iff {text : String} {extra : List String} :
    LoopEnds text extra ↔ LoopMoves text extra := by
  constructor
  · rintro ⟨n, ended⟩
    by_contra still
    obtain ⟨scan, reached, left, -⟩ := Scan.after_of_not_moving still n
    exact left (ended scan reached)
  · intro moving
    refine ⟨(squeeze text.toList).length, fun scan reached => ?_⟩
    rw [loop, Scan.after_length moving] at reached
    cases scanned : scanFrom (knownWords extra) (sourceOf text) 0 0 (squeeze text.toList) with
    | ok tokens =>
      rw [scanned] at reached
      rw [← Except.ok.inj reached]
    | error fault =>
      rw [scanned] at reached
      cases reached

/-- The loop ends exactly if it meets no empty name. As long as it runs there are no more tokens
than characters passed, a round at a character raises or passes one at least, and after as many
rounds as there are characters it has come to what the scan gives. A loop that does not end finds
tokens without end. -/
theorem loop_ends_iff (text : String) (extra : List String) :
    (LoopEnds text extra ↔ ¬MeetsEmptyName text extra) ∧
      (LoopEnds text extra →
        (∀ n scan, loop text extra n = .ok scan →
          scan.found.length ≤ scan.position ∧ scan.position ≤ (sourceOf text).length ∧
          (scan.rest ≠ [] →
            (∃ fault, scan.round (knownWords extra) (sourceOf text) = .error fault) ∨
              ∃ next, scan.round (knownWords extra) (sourceOf text) = .ok next ∧
                scan.position < next.position)) ∧
        loop text extra (sourceOf text).length =
          (tokenize text extra).map (⟨·, (sourceOf text).length, []⟩)) ∧
      (¬LoopEnds text extra →
        ∀ n, ∃ scan, loop text extra n = .ok scan ∧ scan.found.length = n) := by
  have size : (sourceOf text).length = (squeeze text.toList).length := by simp [sourceOf]
  refine ⟨?_, fun ends => ⟨fun n scan reached => ?_, ?_⟩, fun endless n => ?_⟩
  · rw [loopEnds_iff, ← not_loopMoves_iff, not_not]
  · have moving := loopEnds_iff.mp ends
    obtain ⟨passed, whole, past⟩ := Scan.exists_past reached moving
    have bound := past.cutsUp.length_le
    refine ⟨past.position ▸ bound, ?_, fun left => ?_⟩
    · rw [size, whole, past.position, List.length_append]
      exact Nat.le_add_right ..
    · exact (Scan.moving_of_after reached moving).round left
  · rw [size]
    exact Scan.after_length (loopEnds_iff.mp ends)
  · rw [loopEnds_iff] at endless
    obtain ⟨scan, reached, -, count⟩ := Scan.after_of_not_moving endless n
    exact ⟨scan, reached, count⟩

theorem loop_of_empty_name (n : Nat) :
    loop "q" [""] n = .ok ⟨List.replicate n ⟨.name, "", 0⟩, 0, ['q']⟩ := by
  induction n with
  | zero => rfl
  | succ n ih =>
    rw [loop, Scan.after, ← loop, ih, List.replicate_succ']
    rfl

/-- The empty name is met at the letter `q` for ever, and a token is found each time. -/
theorem empty_name_stays : ¬LoopEnds "q" [""] ∧
    ∀ n, loop "q" [""] n = .ok ⟨List.replicate n ⟨.name, "", 0⟩, 0, ['q']⟩ := by
  refine ⟨fun ⟨n, ended⟩ => ?_, loop_of_empty_name⟩
  exact List.cons_ne_nil _ _ (ended _ (loop_of_empty_name n))

end FormulaLayout
