import FormulaLayout.Proofs.Parsing.Pending

/-! What becomes of a state of the parser and the tokens behind it, fault included. A step hands the
rest of the tokens to the next state, and two states that differ only in what is joined already come
to the same. -/
namespace FormulaLayout

def tooDeep (source : String) : Fault := ⟨.nestedTooDeeply, source, none⟩

def faultAt (complaint : Complaint) (source : String) : List Token → Fault
  | [] => ⟨complaint, source, some source.length⟩
  | token :: _ => ⟨complaint, source, some token.position⟩

theorem closing_of_apart {token : Token} {rest : List Token} (apart : Apart 0 (token :: rest)) :
    token.kind = .closing := by
  have idle {connective : Connective} {flip : Bool} {start : List Token}
      (joins : Joins connective flip (token :: rest) start) : False :=
    Nat.not_lt_zero _ (apart connective flip start joins)
  cases kind : token.kind with
  | closing => rfl
  | operator operator =>
    by_cases minus : operator = .minus
    · exact (idle (.minus (minus ▸ kind))).elim
    · exact (idle (.operator kind minus)).elim
  | extremum function => exact (idle (.extremum kind)).elim
  | _ => exact (idle (.adjacent (kind ▸ rfl))).elim

namespace ParserState
variable {limit : Option Nat} {source : String} {state : ParserState} {token : Token}

def outcome (limit : Option Nat) (source : String) (state : ParserState) (tokens : List Token) :
    Except Fault Formula := do
  let last ← state.run limit source tokens
  match last.finish with
  | .ok formula => .ok formula
  | .error complaint => .error ⟨complaint, source, some source.length⟩

theorem outcome_of_step {next : ParserState} (taken : state.step limit token = .ok next)
    (rest : List Token) :
    state.outcome limit source (token :: rest) = next.outcome limit source rest := by
  simp only [outcome, run, taken]

theorem outcome_of_complaint {complaint : Complaint}
    (failed : state.step limit token = .error complaint) (flat : complaint ≠ .nestedTooDeeply)
    (rest : List Token) :
    state.outcome limit source (token :: rest) =
      .error (faultAt complaint source (token :: rest)) := by
  cases complaint with
  | nestedTooDeeply => exact absurd rfl flat
  | _ =>
    simp only [outcome, run, failed]
    rfl

theorem outcome_of_tooDeep (failed : state.step limit token = .error .nestedTooDeeply)
    (rest : List Token) :
    state.outcome limit source (token :: rest) = .error (tooDeep source) := by
  simp only [outcome, run, failed]
  rfl

theorem outcome_congr {state' : ParserState}
    (same : state.step limit token = state'.step limit token) (rest : List Token) :
    state.outcome limit source (token :: rest) = state'.outcome limit source (token :: rest) := by
  simp only [outcome, run, same]

theorem receive_phase (limit : Option Nat) (outer : List (Pending × Slot)) (pending : Pending)
    (phase phase' : Phase) (slot : Slot) (token : Token) :
    receive limit ⟨outer, pending, phase⟩ slot token =
      receive limit ⟨outer, pending, phase'⟩ slot token := by
  unfold receive
  split <;> rfl

theorem outcome_start (outer : List (Pending × Slot)) (pending : Pending)
    (other : token.kind ≠ .closing ∨ outer = []) (rest : List Token) :
    outcome limit source ⟨outer, pending, .start⟩ (token :: rest) =
      outcome limit source ⟨outer, pending, .awaiting (.operand false false)⟩ (token :: rest) := by
  refine outcome_congr ?_ rest
  have received := receive_phase limit outer pending .start (.awaiting (.operand false false))
    (.operand false false) token
  simp only [step]
  rw [← received]
  split
  · next closing _ => simp_all
  · rfl

theorem outcome_joins {connective : Connective} {flip : Bool} {tokens start : List Token}
    (joins : Joins connective flip tokens start) {outer : List (Pending × Slot)} {pending : Pending}
    (looser : pending.Looser connective.tier) (left : Formula) :
    outcome limit source ⟨outer, pending, .holding left⟩ tokens =
      outcome limit source
        ⟨outer, (connective, left) :: pending, .awaiting (.operand flip false)⟩ start := by
  have kept := looser connective.tier left (Nat.le_refl _)
  cases joins with
  | @operator token rest operator kind binary =>
    refine outcome_of_step ?_ _
    simp [step, kind, connect, kept, binary]
  | minus kind =>
    refine outcome_of_step ?_ _
    simp only [Connective.tier] at kept
    simp [step, kind, connect, Connective.ofOperator, Connective.tier, kept]
  | extremum kind =>
    refine outcome_of_step ?_ _
    simp [step, kind, connect, kept]
  | @adjacent token rest starts =>
    refine outcome_congr ?_ rest
    have connected : connect ⟨outer, pending, .holding left⟩ .times left (.operand false false) =
        ⟨outer, (.times, left) :: pending, .awaiting (.operand false false)⟩ := by
      rw [connect, kept]
    cases kind : token.kind <;> simp_all [step, TokenKind.startsValue]

theorem outcome_join {connective : Connective} {tokens : List Token}
    (apart : Apart (connective.tier + 1) tokens) (outer : List (Pending × Slot)) (pending : Pending)
    (left right : Formula) :
    outcome limit source ⟨outer, (connective, left) :: pending, .holding right⟩ tokens =
      outcome limit source ⟨outer, pending, .holding (connective.join left right)⟩ tokens := by
  have joined {next : Connective} {flip : Bool} {start : List Token}
      (joins : Joins next flip tokens start) (slot : Slot) :
      connect ⟨outer, (connective, left) :: pending, .holding right⟩ next right slot =
        connect ⟨outer, pending, .holding (connective.join left right)⟩ next
          (connective.join left right) slot := by
    have looser := apart next flip start joins
    rw [connect, connect, Pending.collapse, if_pos (Nat.le_of_lt_succ looser)]
  cases tokens with
  | nil => rfl
  | cons token rest =>
    refine outcome_congr ?_ rest
    cases kind : token.kind with
    | closing => simp only [step, kind, Pending.close]
    | operator operator =>
      simp only [step, kind]
      by_cases minus : operator = .minus
      · subst minus
        exact congrArg Except.ok (joined (.minus kind) _)
      · exact congrArg Except.ok (joined (.operator kind minus) _)
    | extremum function => simp only [step, kind, joined (.extremum kind)]
    | _ => simp only [step, kind, joined (.adjacent (kind ▸ rfl))]

end ParserState

end FormulaLayout
