import FormulaLayout.Proofs.Scanning.Front
import FormulaLayout.Proofs.Scanning.Lexeme

/-! The scan as a loop. A round makes a token of the lexeme at the front of what is left of the text
and passes its characters. A known word of no characters makes a token too, and as it passes
nothing, the next round meets it again. Whatever a round does, the scan as a whole comes to the
same in the end. -/
namespace FormulaLayout
open Number Text

structure Scan where
  found : List Token
  position : Nat
  rest : List Char

namespace Scan

def pass (scan : Scan) (kind : TokenKind) (text : List Char) : Scan :=
  ⟨scan.found ++ [⟨kind, String.ofList text, scan.position⟩], scan.position + text.length,
    scan.rest.drop text.length⟩

def round (words : List (List Char)) (source : String) (scan : Scan) : Except Fault Scan :=
  match scan.rest with
  | [] => .ok scan
  | c :: rest =>
    match lexeme words c rest with
    | .ok (kind, text) => .ok (scan.pass kind text)
    | .error (.stalled _) => .ok (scan.pass (.ofWord "") [])
    | .error complaint => .error ⟨complaint, source, some scan.position⟩

def after (words : List (List Char)) (source : String) (text : List Char) : Nat → Except Fault Scan
  | 0 => .ok ⟨[], 0, text⟩
  | n + 1 => (after words source text n).bind (round words source)

inductive Turns (words : List (List Char)) (source : String) : Scan → Except Fault Scan → Prop where
  | finished {found : List Token} {position : Nat} :
      Turns words source ⟨found, position, []⟩ (.ok ⟨found, position, []⟩)
  | passes {found : List Token} {position : Nat} {c : Char} {passed left : List Char}
      {kind : TokenKind} (front : Meets words c (passed ++ left) (.ok (kind, c :: passed))) :
      Turns words source ⟨found, position, c :: (passed ++ left)⟩
        (.ok ⟨found ++ [⟨kind, String.ofList (c :: passed), position⟩],
          position + (passed.length + 1), left⟩)
  | stays {found : List Token} {position : Nat} {c : Char} {rest : List Char}
      (front : Meets words c rest (.error (.stalled c))) :
      Turns words source ⟨found, position, c :: rest⟩
        (.ok ⟨found ++ [⟨.name, "", position⟩], position, c :: rest⟩)
  | raises {found : List Token} {position : Nat} {c : Char} {rest : List Char}
      {complaint : Complaint} (front : Meets words c rest (.error complaint))
      (moving : ∀ initial, complaint ≠ .stalled initial) :
      Turns words source ⟨found, position, c :: rest⟩ (.error ⟨complaint, source, some position⟩)

variable {words : List (List Char)} {source : String} {text : List Char}

theorem turns_round (words : List (List Char)) (source : String) (scan : Scan) :
    Turns words source scan (scan.round words source) := by
  obtain ⟨found, position, rest⟩ := scan
  cases rest with
  | nil => exact .finished
  | cons c rest =>
    have meets := meets_lexeme words c rest
    unfold round
    dsimp only
    cases front : lexeme words c rest with
    | ok first =>
      obtain ⟨kind, text⟩ := first
      rw [front] at meets
      obtain ⟨passed, left, rfl, rfl⟩ := meets.exists_passed
      simpa [pass] using Turns.passes meets
    | error complaint =>
      rw [front] at meets
      cases meets with
      | stalled starts empty => exact .stays (.stalled starts empty)
      | notANumber | unknownName | unsupportedSymbol =>
        exact .raises (front ▸ meets_lexeme ..) nofun

theorem Turns.round_eq {scan : Scan} {result : Except Fault Scan}
    (turns : Turns words source scan result) : scan.round words source = result := by
  cases turns with
  | finished => rfl
  | passes front => simp [round, front.lexeme_eq, pass]
  | stays front =>
    have name : TokenKind.ofWord "" = .name := by decide
    simp [round, front.lexeme_eq, pass, name]
  | @raises found position c rest complaint front moving =>
    cases complaint with
    | stalled initial => exact absurd rfl (moving initial)
    | _ => simp [round, front.lexeme_eq]

theorem Turns.fault_eq {scan : Scan} {fault : Fault}
    (turns : Turns words source scan (.error fault)) :
    fault.source = source ∧ fault.position = some scan.position ∧ scan.rest ≠ [] := by
  cases turns with
  | raises => exact ⟨rfl, rfl, nofun⟩

theorem Turns.not_stalled {scan : Scan} {fault : Fault}
    (turns : Turns words source scan (.error fault)) (initial : Char) :
    fault.complaint ≠ .stalled initial := by
  cases turns with
  | raises front moving => exact moving initial

theorem turns_of_after_succ {n : Nat} {next : Scan}
    (reached : after words source text (n + 1) = .ok next) :
    ∃ scan, after words source text n = .ok scan ∧ Turns words source scan (.ok next) := by
  rw [after] at reached
  cases before : after words source text n with
  | error fault => simp [before, Except.bind] at reached
  | ok scan =>
    rw [before] at reached
    exact ⟨scan, rfl, reached ▸ turns_round words source scan⟩

theorem turns_of_after_error {n : Nat} {fault : Fault}
    (raised : after words source text n = .error fault) :
    ∃ m scan, m < n ∧ after words source text m = .ok scan ∧
      Turns words source scan (.error fault) := by
  induction n with
  | zero => cases raised
  | succ n ih =>
    rw [after] at raised
    cases before : after words source text n with
    | error earlier =>
      rw [before] at raised
      obtain ⟨m, scan, lt, reached⟩ := ih (before.trans raised)
      exact ⟨m, scan, Nat.lt_succ_of_lt lt, reached⟩
    | ok scan =>
      rw [before] at raised
      exact ⟨n, scan, Nat.lt_succ_self n, before, raised ▸ turns_round words source scan⟩

def outcome (words : List (List Char)) (source : String) (scan : Scan) :
    Except Fault (List Token) :=
  (scanFrom words source 0 scan.position scan.rest).map (scan.found ++ ·)

theorem Turns.outcome_eq {scan : Scan} {result : Except Fault Scan}
    (turns : Turns words source scan result) :
    scan.outcome words source = result.bind (outcome words source) := by
  cases turns with
  | finished => rfl
  | @passes found position c passed left kind front =>
    have behind := scanFrom_skip words source (position + 1) passed left
    rw [Nat.add_right_comm, Nat.add_assoc] at behind
    simp only [outcome, scanFrom, front.lexeme_eq, List.length_cons, Nat.add_sub_cancel, behind,
      Except.bind]
    cases scanFrom words source 0 (position + (passed.length + 1)) left <;>
      simp [bind, Except.bind, Except.map, pure, Except.pure]
  | stays front => simp [outcome, scanFrom, front.lexeme_eq, Except.bind, Except.map]
  | raises front => simp [outcome, scanFrom, front.lexeme_eq, Except.bind, Except.map]

theorem outcome_start (words : List (List Char)) (source : String) (text : List Char) :
    outcome words source ⟨[], 0, text⟩ = scanFrom words source 0 0 text := by
  unfold outcome
  cases scanFrom words source 0 0 text <;> rfl

theorem outcome_of_after {n : Nat} {scan : Scan} (reached : after words source text n = .ok scan) :
    scan.outcome words source = scanFrom words source 0 0 text := by
  induction n generalizing scan with
  | zero =>
    cases reached
    exact outcome_start words source text
  | succ n ih =>
    obtain ⟨before, reached, turns⟩ := turns_of_after_succ reached
    rw [← ih reached]
    exact turns.outcome_eq.symm

theorem outcome_of_finished {scan : Scan} (finished : scan.rest = []) :
    scan.outcome words source = .ok scan.found := by
  simp [outcome, finished, scanFrom, Except.map]

end Scan

def loop (text : String) (extra : List String) (n : Nat) : Except Fault Scan :=
  Scan.after (knownWords extra) (sourceOf text) (squeeze text.toList) n

end FormulaLayout
