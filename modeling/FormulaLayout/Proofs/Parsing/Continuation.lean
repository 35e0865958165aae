import FormulaLayout.Proofs.Parsing.Slot

/-! Each state of the parser stands for a part of a derivation that is still open: pending
connectives for tiers whose last operand is not complete, a slot for a value that has lost its
first tokens, open parentheses for groups. What completes a state is what completes its successor,
token by token, so that the parser finds the derivation if there is one, and gives up only where
there is none or parentheses nest too deeply. -/
namespace FormulaLayout
open Pending Slot

/-- What a finished group and the tokens behind it yield, given the groups around it. -/
def Encloses : List (Pending × Slot) → List Token → Formula → Formula → Prop
  | [], tokens, group, tree => tokens = [] ∧ group = tree
  | (pending, slot) :: outer, tokens, group, tree =>
    ∃ middle rest group', Closes tokens middle ∧
      pending.Completes signedLevel (slot.fill group) middle rest group' ∧
      Encloses outer rest group' tree

theorem Encloses.apart {outer : List (Pending × Slot)} {tokens : List Token} {group tree : Formula}
    (h : Encloses outer tokens group tree) : Apart 0 tokens := by
  cases outer with
  | nil =>
    obtain ⟨rfl, -⟩ := h
    exact apart_nil 0
  | cons head outer =>
    obtain ⟨middle, rest, group', closes, -⟩ := h
    exact closes.apart

def Holds (outer : List (Pending × Slot)) (pending : Pending) (value : Formula)
    (tokens : List Token) (tree : Formula) : Prop :=
  ∃ rest group, pending.Completes signedLevel value tokens rest group ∧
    Encloses outer rest group tree

def Awaits (outer : List (Pending × Slot)) (pending : Pending) (slot : Slot)
    (tokens : List Token) (tree : Formula) : Prop :=
  ∃ rest value, slot.Fills tokens rest value ∧ Holds outer pending value rest tree

theorem not_awaits_operand {token : Token} {negated signed : Bool}
    (plain : token.kind.startsValue = false)
    (unsigned : token.kind = .operator .minus → signed ≠ false) {outer : List (Pending × Slot)}
    {pending : Pending} {tokens : List Token} {tree : Formula} :
    ¬Awaits outer pending (.operand negated signed) (token :: tokens) tree := by
  rintro ⟨rest, value, fills, -⟩
  obtain starts | ⟨kind, sign⟩ := begins_of_fills_operand fills
  · rw [plain] at starts
    cases starts
  · exact unsigned kind sign

theorem not_awaits_operand_of_closing {token : Token} (kind : token.kind = .closing)
    {outer : List (Pending × Slot)} {pending : Pending} {negated signed : Bool}
    {tokens : List Token} {tree : Formula} :
    ¬Awaits outer pending (.operand negated signed) (token :: tokens) tree :=
  not_awaits_operand (by rw [kind]; rfl) (by simp [kind])

theorem not_awaits_nil {outer : List (Pending × Slot)} {pending : Pending} {slot : Slot}
    {tree : Formula} : ¬Awaits outer pending slot [] tree := by
  rintro ⟨rest, value, fills, -⟩
  exact not_fills_nil slot fills

namespace ParserState

/-- The tokens complete what the state has begun, and the tree is the whole formula. -/
def Continues (state : ParserState) (tokens : List Token) (tree : Formula) : Prop :=
  match state.phase with
  | .start =>
    Encloses state.outer tokens .zero tree ∨
      Awaits state.outer state.pending (.operand false false) tokens tree
  | .awaiting slot => Awaits state.outer state.pending slot tokens tree
  | .holding value => Holds state.outer state.pending value tokens tree

theorem continues_iff_of_start {state : ParserState} (start : state.phase = .start)
    (tokens : List Token) (tree : Formula) :
    state.Continues tokens tree ↔ Encloses state.outer tokens .zero tree ∨
      Awaits state.outer state.pending (.operand false false) tokens tree := by
  simp only [Continues, start]

theorem continues_iff_of_awaiting {state : ParserState} {slot : Slot}
    (awaiting : state.phase = .awaiting slot) (tokens : List Token) (tree : Formula) :
    state.Continues tokens tree ↔ Awaits state.outer state.pending slot tokens tree := by
  simp only [Continues, awaiting]

theorem continues_iff_of_holding {state : ParserState} {value : Formula}
    (holding : state.phase = .holding value) (tokens : List Token) (tree : Formula) :
    state.Continues tokens tree ↔ Holds state.outer state.pending value tokens tree := by
  simp only [Continues, holding]

theorem continues_start_iff (outer : List (Pending × Slot)) (tokens : List Token) (tree : Formula) :
    (⟨outer, [], .start⟩ : ParserState).Continues tokens tree ↔
      ∃ rest group, Content tokens rest group ∧ Encloses outer rest group tree := by
  have sum (rest : List Token) (group : Formula) :
      Derives (.tier false 0) tokens rest group ↔
        ∃ middle value, Derives (.signed false) tokens middle value ∧
          Completes signedLevel [] value middle rest group := by
    rw [← tier_completes_iff (Nat.zero_le _) (looser_nil 0)]
    simp [Completes]
  simp only [Continues, Awaits, Holds, Content, Fills, sum]
  constructor
  · rintro (encloses | ⟨middle, value, fills, rest, group, completes, encloses⟩)
    · exact ⟨tokens, .zero, .inl ⟨rfl, rfl⟩, encloses⟩
    · exact ⟨rest, group, .inr ⟨middle, value, fills, completes⟩, encloses⟩
  · rintro ⟨rest, group, ⟨rfl, rfl⟩ | ⟨middle, value, fills, completes⟩, encloses⟩
    · exact .inl encloses
    · exact .inr ⟨middle, value, fills, rest, group, completes, encloses⟩

theorem awaits_iff_of_leaf {slot : Slot} {token : Token} {leaf : Formula}
    (fills : ∀ {tokens rest value}, slot.Fills (token :: tokens) rest value ↔
      tokens = rest ∧ slot.fill leaf = value)
    (outer : List (Pending × Slot)) (pending : Pending) (tokens : List Token) (tree : Formula) :
    Awaits outer pending slot (token :: tokens) tree ↔
      Holds outer pending (slot.fill leaf) tokens tree := by
  simp only [Awaits, fills]
  constructor
  · rintro ⟨rest, value, ⟨rfl, rfl⟩, holds⟩
    exact holds
  · exact fun holds => ⟨_, _, ⟨rfl, rfl⟩, holds⟩

theorem awaits_iff_of_opening {token : Token} (kind : token.kind = .opening) (slot : Slot)
    (outer : List (Pending × Slot)) (pending : Pending) (tokens : List Token) (tree : Formula) :
    Awaits outer pending slot (token :: tokens) tree ↔
      (⟨(pending, slot) :: outer, [], .start⟩ : ParserState).Continues tokens tree := by
  have unsigned : token.kind ≠ .operator .minus := by simp [kind]
  have plain : ∀ function, token.kind ≠ .function function := by simp [kind]
  rw [continues_start_iff]
  simp only [Awaits, fills_iff_value unsigned plain, derives_value_iff_of_opening kind, Encloses,
    Holds]
  constructor
  · rintro ⟨rest, value, ⟨group, ⟨middle, content, closes⟩, rfl⟩, last, group', completes, encloses⟩
    exact ⟨middle, group, content, rest, last, group', closes, completes, encloses⟩
  · rintro ⟨middle, group, content, rest, last, group', closes, completes, encloses⟩
    exact ⟨rest, _, ⟨group, ⟨middle, content, closes⟩, rfl⟩, last, group', completes, encloses⟩

/-- A result of the parser answers for what completes the state: it hands on to a state with the
same completions, or gives up where there are none or parentheses nest too deeply. -/
def Answers (completes : Formula → Prop) (completes' : ParserState → Formula → Prop) :
    Except Complaint ParserState → Prop
  | .ok next => ∀ tree, completes tree ↔ completes' next tree
  | .error complaint => complaint = .nestedTooDeeply ∨ ∀ tree, ¬completes tree

theorem receive_answers (limit : Option Nat) (state : ParserState) (slot : Slot) (token : Token)
    (tokens : List Token) :
    Answers (Awaits state.outer state.pending slot (token :: tokens)) (·.Continues tokens)
      (state.receive limit slot token) := by
  unfold receive
  split
  · next value kind =>
    refine fun tree => awaits_iff_of_leaf (fun {tokens rest value'} => ?_) ..
    rw [fills_iff_value (by simp [kind]) (by simp [kind])]
    simp [derives_value_iff_of_number kind, and_assoc]
  · next kind =>
    refine fun tree => awaits_iff_of_leaf (fun {tokens rest value'} => ?_) ..
    rw [fills_iff_value (by simp [kind]) (by simp [kind])]
    simp [derives_value_iff_of_name kind, and_assoc]
  · next kind =>
    unfold openGroup
    split
    · exact .inl rfl
    · exact fun tree => awaits_iff_of_opening kind ..
  · next negated kind =>
    intro tree
    simp only [Awaits, fills_operand_iff_of_minus kind, Continues, await]
  · next negated function kind =>
    intro tree
    simp only [Awaits, fills_argument_iff_of_minus kind, Continues, await]
  · next notNumber notName notOpening unsigned =>
    refine .inr ?_
    rintro tree ⟨rest, value, fills, -⟩
    obtain ⟨starts, plain⟩ | ⟨kind, sign⟩ := begins_of_fills_argument fills
    · cases kind : token.kind <;> simp_all [TokenKind.startsValue]
    · exact unsigned kind sign
  · next function negated signed kind =>
    intro tree
    simp only [Awaits, fills_operand_iff_of_function kind, Continues, await]
  · next function negated signed kind =>
    exact .inr fun tree => not_awaits_operand (by rw [kind]; rfl) (by simp [kind])
  · next operator negated signed unsigned kind =>
    refine .inr fun tree => not_awaits_operand (by rw [kind]; rfl) fun kind' => ?_
    exact unsigned (TokenKind.operator.inj (kind.symm.trans kind'))
  · next negated signed kind => exact .inr fun tree => not_awaits_operand_of_closing kind

theorem holds_iff_of_joins {connective : Connective} {flip : Bool} {tokens start : List Token}
    (joins : Joins connective flip tokens start) (state : ParserState) (value tree : Formula) :
    Holds state.outer state.pending value tokens tree ↔
      (state.connect connective value (.operand flip false)).Continues start tree := by
  constructor
  · rintro ⟨rest, group, completes, encloses⟩
    obtain ⟨middle, right, signed, completes'⟩ :=
      (completes_iff_of_joins joins encloses.apart _ _ _).mp completes
    exact ⟨middle, right, signed, rest, group, completes', encloses⟩
  · rintro ⟨middle, right, signed, rest, group, completes', encloses⟩
    have completes := (completes_iff_of_joins joins encloses.apart _ value _).mpr
      ⟨middle, right, signed, completes'⟩
    exact ⟨rest, group, completes, encloses⟩

theorem holds_iff_of_apart {tokens : List Token} (apart : Apart 0 tokens)
    (outer : List (Pending × Slot)) (pending : Pending) (value tree : Formula) :
    Holds outer pending value tokens tree ↔ Encloses outer tokens (pending.close value) tree := by
  constructor
  · rintro ⟨rest, group, completes, encloses⟩
    obtain ⟨rfl, rfl⟩ := (completes_iff_of_apart apart 6 pending value rest group).mp completes
    exact encloses
  · intro encloses
    have completes := (completes_iff_of_apart apart 6 pending value tokens _).mpr ⟨rfl, rfl⟩
    exact ⟨tokens, _, completes, encloses⟩

theorem encloses_iff_of_closing {token : Token} (kind : token.kind = .closing) (pending : Pending)
    (slot : Slot) (outer : List (Pending × Slot)) (tokens : List Token) (group tree : Formula) :
    Encloses ((pending, slot) :: outer) (token :: tokens) group tree ↔
      Holds outer pending (slot.fill group) tokens tree := by
  constructor
  · rintro ⟨middle, rest, group', closes, completes, encloses⟩
    cases closes
    exact ⟨rest, group', completes, encloses⟩
  · rintro ⟨rest, group', completes, encloses⟩
    exact ⟨tokens, rest, group', .parenthesis kind, completes, encloses⟩

theorem Answers.congr {completes completes' : Formula → Prop}
    {continues : ParserState → Formula → Prop} {result : Except Complaint ParserState}
    (h : Answers completes' continues result) (same : ∀ tree, completes tree ↔ completes' tree) :
    Answers completes continues result := by
  cases result with
  | ok next => exact fun tree => (same tree).trans (h tree)
  | error complaint => exact h.imp_right fun none tree done => none tree ((same tree).mp done)

theorem start_answers (limit : Option Nat) (state : ParserState) (token : Token)
    (tokens : List Token) (inside : token.kind = .closing → state.outer = []) :
    Answers (fun tree => Encloses state.outer (token :: tokens) .zero tree ∨
        Awaits state.outer state.pending (.operand false false) (token :: tokens) tree)
      (·.Continues tokens) (state.receive limit (.operand false false) token) := by
  refine (receive_answers limit state _ token tokens).congr fun tree => or_iff_right ?_
  intro encloses
  cases outer : state.outer with
  | nil =>
    rw [outer] at encloses
    exact absurd encloses.1 nofun
  | cons head rest =>
    rw [outer] at encloses
    obtain ⟨middle, rest', group', closes, -⟩ := encloses
    cases closes with
    | parenthesis kind =>
      rw [inside kind] at outer
      cases outer

theorem step_answers (limit : Option Nat) (state : ParserState) (token : Token)
    (tokens : List Token) :
    Answers (state.Continues (token :: tokens)) (·.Continues tokens) (state.step limit token) := by
  unfold step
  split
  · next start =>
    refine Answers.congr ?_ fun tree => continues_iff_of_start start ..
    split
    · next pending slot outer kind enclosed =>
      intro tree
      dsimp only
      rw [enclosed, encloses_iff_of_closing kind]
      exact or_iff_left (not_awaits_operand_of_closing kind)
    · next top =>
      refine start_answers limit state token tokens fun kind => ?_
      cases outer : state.outer with
      | nil => rfl
      | cons head rest => exact (top head.1 head.2 rest kind outer).elim
  · next slot awaiting =>
    exact (receive_answers limit state slot token tokens).congr
      fun tree => continues_iff_of_awaiting awaiting ..
  · next value holding =>
    refine Answers.congr ?_ fun tree => continues_iff_of_holding holding ..
    split
    · next operator kind =>
      intro tree
      by_cases minus : operator = .minus
      · subst minus
        exact holds_iff_of_joins (.minus kind) state value tree
      · rw [decide_eq_false minus]
        exact holds_iff_of_joins (.operator kind minus) state value tree
    · next function kind => exact holds_iff_of_joins (.extremum kind) state value
    · next kind =>
      have close := holds_iff_of_apart (apart_closing kind 0 tokens) state.outer state.pending value
      split
      · next enclosed =>
        refine .inr fun tree holds => ?_
        rw [close, enclosed] at holds
        exact absurd holds.1 nofun
      · next pending slot outer enclosed =>
        intro tree
        rw [close, enclosed, encloses_iff_of_closing kind]
        rfl
    · next notOperator notExtremum notClosing =>
      have starts : token.kind.startsValue = true := by
        cases kind : token.kind <;> simp_all [TokenKind.startsValue]
      exact (receive_answers limit _ _ token tokens).congr
        (holds_iff_of_joins (.adjacent starts) state value)

theorem encloses_nil_iff (outer : List (Pending × Slot)) (group tree : Formula) :
    Encloses outer [] group tree ↔ closeAll outer group = tree := by
  induction outer generalizing group with
  | nil => simp [Encloses, closeAll]
  | cons head outer ih =>
    obtain ⟨pending, slot⟩ := head
    rw [closeAll, ← ih]
    constructor
    · rintro ⟨middle, rest, group', closes, completes, encloses⟩
      cases closes
      obtain ⟨rfl, rfl⟩ := (completes_iff_of_apart (apart_nil 0) 6 ..).mp completes
      exact encloses
    · intro encloses
      have completes := (completes_iff_of_apart (apart_nil 0) 6 pending (slot.fill group) [] _).mpr
        ⟨rfl, rfl⟩
      exact ⟨[], [], _, .finished, completes, encloses⟩

theorem finish_answers (state : ParserState) :
    match state.finish with
    | .ok formula => ∀ tree, state.Continues [] tree ↔ formula = tree
    | .error _ => ∀ tree, ¬state.Continues [] tree := by
  unfold finish
  cases phase : state.phase with
  | start =>
    intro tree
    rw [continues_iff_of_start phase, encloses_nil_iff]
    exact or_iff_left (not_awaits_nil)
  | holding value =>
    intro tree
    rw [continues_iff_of_holding phase, holds_iff_of_apart (apart_nil 0), encloses_nil_iff]
  | awaiting slot =>
    cases slot with
    | operand | argument =>
      intro tree
      rw [continues_iff_of_awaiting phase]
      exact not_awaits_nil

def RunAnswers (completes : Formula → Prop) : Except Fault ParserState → Prop
  | .ok last => ∀ tree, completes tree ↔ last.Continues [] tree
  | .error fault => fault.complaint = .nestedTooDeeply ∨ ∀ tree, ¬completes tree

theorem run_answers (limit : Option Nat) (source : String) (state : ParserState)
    (tokens : List Token) :
    RunAnswers (state.Continues tokens) (state.run limit source tokens) := by
  induction tokens generalizing state with
  | nil => exact fun tree => Iff.rfl
  | cons token rest ih =>
    have answers := step_answers limit state token rest
    unfold run
    cases taken : state.step limit token with
    | ok next =>
      rw [taken] at answers
      have later := ih next
      dsimp only
      cases ended : next.run limit source rest with
      | ok last =>
        rw [ended] at later
        exact fun tree => (answers tree).trans (later tree)
      | error fault =>
        rw [ended] at later
        exact later.imp_right fun none tree continues => none tree ((answers tree).mp continues)
    | error complaint =>
      rw [taken] at answers
      cases complaint with
      | nestedTooDeeply => exact .inl rfl
      | _ => exact .inr (answers.resolve_left (by simp))

end ParserState
end FormulaLayout
