import FormulaLayout.Proofs.Parsing.Pending

/-! What a slot of the parser waits for. A signed value may have lost its sign and its function to
the slot, and an argument its sign; what is left is a shorter symbol of the grammar, and the value
around it is what the slot makes of it. A group is its content and what closes it. -/
namespace FormulaLayout

inductive Closes : List Token → List Token → Prop where
  | parenthesis {token : Token} {rest : List Token} (kind : token.kind = .closing) :
      Closes (token :: rest) rest
  | finished : Closes [] []

theorem Closes.apart {tokens rest : List Token} (h : Closes tokens rest) : Apart 0 tokens := by
  cases h with
  | parenthesis kind => exact apart_closing kind 0 rest
  | finished => exact apart_nil 0

def Content (tokens rest : List Token) (tree : Formula) : Prop :=
  (tokens = rest ∧ tree = .zero) ∨ Derives (.tier false 0) tokens rest tree

theorem derives_value_iff_of_opening {token : Token} (kind : token.kind = .opening)
    {tokens rest : List Token} {tree : Formula} :
    Derives .value (token :: tokens) rest tree ↔
      ∃ middle, Content tokens middle tree ∧ Closes middle rest := by
  constructor
  · rintro ⟨d⟩
    cases d with
    | number kind' | name kind' => exact absurd (kind.symm.trans kind') nofun
    | emptyGroup _ close => exact ⟨_, .inl ⟨rfl, rfl⟩, .parenthesis close⟩
    | group _ close sum => exact ⟨_, .inr ⟨sum⟩, .parenthesis close⟩
    | openEmptyGroup => exact ⟨_, .inl ⟨rfl, rfl⟩, .finished⟩
    | openGroup _ sum => exact ⟨_, .inr ⟨sum⟩, .finished⟩
  · rintro ⟨middle, ⟨rfl, rfl⟩ | ⟨⟨sum⟩⟩, closes⟩
    · cases closes with
      | parenthesis close => exact ⟨.emptyGroup kind close⟩
      | finished => exact ⟨.openEmptyGroup kind⟩
    · cases closes with
      | parenthesis close => exact ⟨.group kind close sum⟩
      | finished => exact ⟨.openGroup kind sum⟩

theorem derives_value_iff_of_number {token : Token} {value : Float}
    (kind : token.kind = .number value) {tokens rest : List Token} {tree : Formula} :
    Derives .value (token :: tokens) rest tree ↔ tokens = rest ∧ .literal value = tree := by
  constructor
  · rintro ⟨d⟩
    cases d with
    | number kind' => exact ⟨rfl, by rw [TokenKind.number.inj (kind.symm.trans kind')]⟩
    | name kind' | emptyGroup kind' | group kind' | openEmptyGroup kind' | openGroup kind' =>
      exact absurd (kind.symm.trans kind') nofun
  · rintro ⟨rfl, rfl⟩
    exact ⟨.number kind⟩

theorem derives_value_iff_of_name {token : Token} (kind : token.kind = .name)
    {tokens rest : List Token} {tree : Formula} :
    Derives .value (token :: tokens) rest tree ↔ tokens = rest ∧ .name token.text = tree := by
  constructor
  · rintro ⟨d⟩
    cases d with
    | name => exact ⟨rfl, rfl⟩
    | number kind' | emptyGroup kind' | group kind' | openEmptyGroup kind' | openGroup kind' =>
      exact absurd (kind.symm.trans kind') nofun
  · rintro ⟨rfl, rfl⟩
    exact ⟨.name kind⟩

theorem derives_call_iff_value {token : Token}
    (kind : ∀ function, token.kind ≠ .function function) {tokens rest : List Token}
    {tree : Formula} :
    Derives .call (token :: tokens) rest tree ↔ Derives .value (token :: tokens) rest tree := by
  constructor
  · rintro ⟨d⟩
    cases d with
    | plain value => exact ⟨value⟩
    | apply kind' | applyMinus kind' => exact absurd kind' (kind _)
  · rintro ⟨value⟩
    exact ⟨.plain value⟩

theorem derives_call_iff_of_function {token : Token} {function : UnaryFunction}
    (kind : token.kind = .function function) {tokens rest : List Token} {tree : Formula} :
    Derives .call (token :: tokens) rest tree ↔
      (∃ value, Derives .value tokens rest value ∧ .call function value = tree) ∨
        ∃ sign tokens' value, tokens = sign :: tokens' ∧ sign.kind = .operator .minus ∧
          Derives .value tokens' rest value ∧ .call function (.negate value) = tree := by
  constructor
  · rintro ⟨d⟩
    cases d with
    | plain value => exact absurd kind (value.begins.2 _)
    | apply kind' value =>
      obtain rfl := TokenKind.function.inj (kind.symm.trans kind')
      exact .inl ⟨_, ⟨value⟩, rfl⟩
    | applyMinus kind' sign value =>
      obtain rfl := TokenKind.function.inj (kind.symm.trans kind')
      exact .inr ⟨_, _, _, rfl, sign, ⟨value⟩, rfl⟩
  · rintro (⟨value, ⟨d⟩, rfl⟩ | ⟨sign, tokens', value, rfl, kind', ⟨d⟩, rfl⟩)
    · exact ⟨.apply kind d⟩
    · exact ⟨.applyMinus kind kind' d⟩

theorem derives_signed_iff_call {token : Token} (kind : token.kind ≠ .operator .minus)
    {flip : Bool} {tokens rest : List Token} {tree : Formula} :
    Derives (.signed flip) (token :: tokens) rest tree ↔
      ∃ call, Derives .call (token :: tokens) rest call ∧ .negateIf flip call = tree := by
  constructor
  · rintro ⟨d⟩
    cases d with
    | unsigned call => exact ⟨_, ⟨call⟩, rfl⟩
    | minus kind' => exact absurd kind' kind
  · rintro ⟨call, ⟨d⟩, rfl⟩
    exact ⟨.unsigned d⟩

theorem derives_signed_iff_of_minus {token : Token} (kind : token.kind = .operator .minus)
    {flip : Bool} {tokens rest : List Token} {tree : Formula} :
    Derives (.signed flip) (token :: tokens) rest tree ↔
      ∃ call, Derives .call tokens rest call ∧ .negateIf (!flip) call = tree := by
  constructor
  · rintro ⟨d⟩
    cases d with
    | unsigned call => exact absurd call.begins (by simp [Symbol.Begins, kind, TokenKind.startsValue])
    | minus _ call => exact ⟨_, ⟨call⟩, rfl⟩
  · rintro ⟨call, ⟨d⟩, rfl⟩
    exact ⟨.minus kind d⟩

namespace Slot

/-- The tokens of a slot, of which those that made it what it is are gone. -/
def Fills : Slot → List Token → List Token → Formula → Prop
  | .operand negated false, tokens, rest, value => Derives (.signed negated) tokens rest value
  | .operand negated true, tokens, rest, value =>
    ∃ call, Derives .call tokens rest call ∧ .negateIf negated call = value
  | .argument negated function false, tokens, rest, value =>
    ∃ call, ((∃ value, Derives .value tokens rest value ∧ .call function value = call) ∨
        ∃ sign tokens' value, tokens = sign :: tokens' ∧ sign.kind = .operator .minus ∧
          Derives .value tokens' rest value ∧ .call function (.negate value) = call) ∧
      .negateIf negated call = value
  | .argument negated function true, tokens, rest, value =>
    ∃ argument, Derives .value tokens rest argument ∧
      .negateIf negated (.call function (.negate argument)) = value

theorem fills_operand_iff {negated signed : Bool} {token : Token}
    (kind : token.kind ≠ .operator .minus) {tokens rest : List Token} {value : Formula} :
    (operand negated signed).Fills (token :: tokens) rest value ↔
      ∃ call, Derives .call (token :: tokens) rest call ∧ .negateIf negated call = value := by
  cases signed with
  | false => exact derives_signed_iff_call kind
  | true => rfl

theorem fills_argument_iff {negated signed : Bool} {function : UnaryFunction} {token : Token}
    (kind : token.kind ≠ .operator .minus) {tokens rest : List Token} {value : Formula} :
    (argument negated function signed).Fills (token :: tokens) rest value ↔
      ∃ value', Derives .value (token :: tokens) rest value' ∧
        (argument negated function signed).fill value' = value := by
  cases signed with
  | true => rfl
  | false =>
    constructor
    · rintro ⟨call, ⟨value', d, rfl⟩ | ⟨sign, tokens', value', same, kind', -⟩, rfl⟩
      · exact ⟨value', d, rfl⟩
      · cases same
        exact absurd kind' kind
    · rintro ⟨value', d, rfl⟩
      exact ⟨_, .inl ⟨value', d, rfl⟩, rfl⟩

theorem fills_iff_value {token : Token} (kind : token.kind ≠ .operator .minus)
    (kind' : ∀ function, token.kind ≠ .function function) (slot : Slot) {tokens rest : List Token}
    {value : Formula} :
    slot.Fills (token :: tokens) rest value ↔
      ∃ value', Derives .value (token :: tokens) rest value' ∧ slot.fill value' = value := by
  cases slot with
  | operand negated signed =>
    rw [fills_operand_iff kind]
    simp only [derives_call_iff_value kind', fill]
  | argument negated function signed => exact fills_argument_iff kind

theorem fills_operand_iff_of_minus {token : Token} (kind : token.kind = .operator .minus)
    (negated : Bool) {tokens rest : List Token} {value : Formula} :
    (operand negated false).Fills (token :: tokens) rest value ↔
      (operand (!negated) true).Fills tokens rest value :=
  derives_signed_iff_of_minus kind

theorem fills_argument_iff_of_minus {token : Token} (kind : token.kind = .operator .minus)
    (negated : Bool) (function : UnaryFunction) {tokens rest : List Token} {value : Formula} :
    (argument negated function false).Fills (token :: tokens) rest value ↔
      (argument negated function true).Fills tokens rest value := by
  constructor
  · rintro ⟨call, ⟨value', ⟨d⟩, rfl⟩ | ⟨sign, tokens', value', same, -, d, rfl⟩, rfl⟩
    · exact absurd d.begins.1 (by simp [kind, TokenKind.startsValue])
    · cases same
      exact ⟨value', d, rfl⟩
  · rintro ⟨value', d, rfl⟩
    exact ⟨_, .inr ⟨token, tokens, value', rfl, kind, d, rfl⟩, rfl⟩

theorem fills_operand_iff_of_function {token : Token} {function : UnaryFunction}
    (kind : token.kind = .function function) (negated signed : Bool) {tokens rest : List Token}
    {value : Formula} :
    (operand negated signed).Fills (token :: tokens) rest value ↔
      (argument negated function false).Fills tokens rest value := by
  have unsigned : token.kind ≠ .operator .minus := by simp [kind]
  rw [fills_operand_iff unsigned]
  simp only [derives_call_iff_of_function kind]
  rfl

theorem begins_of_fills_operand {negated signed : Bool} {token : Token} {tokens rest : List Token}
    {value : Formula} (h : (operand negated signed).Fills (token :: tokens) rest value) :
    token.kind.startsValue = true ∨ token.kind = .operator .minus ∧ signed = false := by
  cases signed with
  | false =>
    obtain ⟨d⟩ := h
    exact d.begins.imp_right fun kind => ⟨kind, rfl⟩
  | true =>
    obtain ⟨call, ⟨d⟩, -⟩ := h
    exact .inl d.begins

theorem begins_of_fills_argument {negated signed : Bool} {function : UnaryFunction} {token : Token}
    {tokens rest : List Token} {value : Formula}
    (h : (argument negated function signed).Fills (token :: tokens) rest value) :
    (token.kind.startsValue = true ∧ ∀ function, token.kind ≠ .function function) ∨
      token.kind = .operator .minus ∧ signed = false := by
  cases signed with
  | false =>
    obtain ⟨call, ⟨value', ⟨d⟩, -⟩ | ⟨sign, tokens', value', same, kind, -⟩, -⟩ := h
    · exact .inl d.begins
    · cases same
      exact .inr ⟨kind, rfl⟩
  | true =>
    obtain ⟨value', ⟨d⟩, -⟩ := h
    exact .inl d.begins

theorem not_fills_nil (slot : Slot) {rest : List Token} {value : Formula} :
    ¬slot.Fills [] rest value := by
  intro h
  match slot, h with
  | .operand _ false, ⟨d⟩ => exact d.begins
  | .operand _ true, ⟨_, ⟨d⟩, _⟩ => exact d.begins
  | .argument _ _ false, ⟨_, .inl ⟨_, ⟨d⟩, _⟩, _⟩ => exact d.begins
  | .argument _ _ true, ⟨_, ⟨d⟩, _⟩ => exact d.begins

end Slot

end FormulaLayout
