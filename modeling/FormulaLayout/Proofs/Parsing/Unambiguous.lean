import FormulaLayout.Proofs.Parsing.Grammar

/-! No formula has two derivations: the tokens alone decide every step. A value is known by its
first token or two, a tier ends where no connective of its own or a tighter tier follows, and a
group closes with the first parenthesis that its sum does not take. -/
namespace FormulaLayout

namespace Derivation
variable {flip : Bool} {level : Nat} {token close sign : Token} {function : UnaryFunction}
  {tokens middle start rest : List Token} {left right tree : Formula}

/-- Where its end is decided, no other derivation begins with the same tokens. -/
def Alone {symbol : Symbol} (d : Derivation symbol tokens rest tree) : Prop :=
  ∀ ⦃rest' : List Token⦄ ⦃tree' : Formula⦄ (d' : Derivation symbol tokens rest' tree'),
    symbol.EndsAt rest → symbol.EndsAt rest' → rest = rest' ∧ tree = tree' ∧ HEq d d'

theorem alone_empty : empty.Alone := by
  intro rest' tree' d' ends ends'
  cases d' with
  | empty => exact ⟨rfl, rfl, HEq.rfl⟩
  | sum sum' => exact sum'.begins.elim

theorem Alone.sum {d : Derivation (.tier false 0) tokens [] tree} (alone : d.Alone) :
    d.sum.Alone := by
  intro rest' tree' d' ends ends'
  cases d' with
  | empty => exact d.begins.elim
  | sum sum' =>
    obtain ⟨-, rfl, same⟩ := alone sum' (apart_nil 0) (apart_nil 0)
    cases same
    exact ⟨rfl, rfl, HEq.rfl⟩

theorem Alone.tier {first : Derivation (.tier flip (level + 1)) tokens middle left}
    {more : Derivation (.more level left) middle rest tree} (loose : level < signedLevel)
    (aloneFirst : first.Alone) (aloneMore : more.Alone) : (tier loose first more).Alone := by
  intro rest' tree' d' ends ends'
  cases d' with
  | tier loose' first' more' =>
    obtain ⟨rfl, rfl, same⟩ :=
      aloneFirst first' (more.apart_of_more ends) (more'.apart_of_more ends')
    obtain ⟨rfl, rfl, same'⟩ := aloneMore more' ends ends'
    cases same
    cases same'
    exact ⟨rfl, rfl, HEq.rfl⟩
  | tightest => exact absurd loose (Nat.lt_irrefl _)

theorem Alone.tightest {signed : Derivation (.signed flip) tokens rest tree}
    (alone : signed.Alone) : (Derivation.tightest signed).Alone := by
  intro rest' tree' d' ends ends'
  cases d' with
  | tier loose => exact absurd loose (Nat.lt_irrefl _)
  | tightest signed' =>
    obtain ⟨rfl, rfl, same⟩ := alone signed' trivial trivial
    cases same
    exact ⟨rfl, rfl, HEq.rfl⟩

theorem alone_stop : (stop : Derivation (.more level left) tokens tokens left).Alone := by
  intro rest' tree' d' ends ends'
  cases d' with
  | stop => exact ⟨rfl, rfl, HEq.rfl⟩
  | join here joins =>
    have := ends _ _ _ joins
    omega

theorem Alone.join {connective : Connective}
    {operand : Derivation (.tier flip (level + 1)) start middle right}
    {more : Derivation (.more level (connective.join left right)) middle rest tree}
    (here : connective.tier = level) (joins : Joins connective flip tokens start)
    (aloneOperand : operand.Alone) (aloneMore : more.Alone) :
    (join here joins operand more).Alone := by
  intro rest' tree' d' ends ends'
  cases d' with
  | stop =>
    have := ends' _ _ _ joins
    omega
  | join here' joins' operand' more' =>
    obtain ⟨rfl, rfl, rfl⟩ := joins.unique joins'
    obtain ⟨rfl, rfl, same⟩ :=
      aloneOperand operand' (more.apart_of_more ends) (more'.apart_of_more ends')
    obtain ⟨rfl, rfl, same'⟩ := aloneMore more' ends ends'
    cases same
    cases same'
    exact ⟨rfl, rfl, HEq.rfl⟩

theorem not_begins_call_of_minus (kind : token.kind = .operator .minus) :
    ¬Symbol.call.Begins (token :: tokens) := by
  simp [Symbol.Begins, kind, TokenKind.startsValue]

theorem Alone.unsigned {call : Derivation .call tokens rest tree} (alone : call.Alone) :
    (unsigned call : Derivation (.signed flip) tokens rest _).Alone := by
  intro rest' tree' d' ends ends'
  cases d' with
  | unsigned call' =>
    obtain ⟨rfl, rfl, same⟩ := alone call' trivial trivial
    cases same
    exact ⟨rfl, rfl, HEq.rfl⟩
  | minus kind' => exact absurd call.begins (not_begins_call_of_minus kind')

theorem Alone.minus {call : Derivation .call tokens rest tree}
    (kind : token.kind = .operator .minus) (alone : call.Alone) :
    (minus kind call : Derivation (.signed flip) (token :: tokens) rest _).Alone := by
  intro rest' tree' d' ends ends'
  cases d' with
  | unsigned call' => exact absurd call'.begins (not_begins_call_of_minus kind)
  | minus kind' call' =>
    obtain ⟨rfl, rfl, same⟩ := alone call' trivial trivial
    cases same
    exact ⟨rfl, rfl, HEq.rfl⟩

theorem Alone.plain {value : Derivation .value tokens rest tree} (alone : value.Alone) :
    (plain value).Alone := by
  intro rest' tree' d' ends ends'
  cases d' with
  | plain value' =>
    obtain ⟨rfl, rfl, same⟩ := alone value' trivial trivial
    cases same
    exact ⟨rfl, rfl, HEq.rfl⟩
  | apply kind' => exact absurd kind' (value.begins.2 _)
  | applyMinus kind' => exact absurd kind' (value.begins.2 _)

theorem not_begins_value_of_minus (kind : token.kind = .operator .minus) :
    ¬Symbol.value.Begins (token :: tokens) := by
  simp [Symbol.Begins, kind, TokenKind.startsValue]

theorem Alone.apply {value : Derivation .value tokens rest tree}
    (kind : token.kind = .function function) (alone : value.Alone) :
    (apply kind value).Alone := by
  intro rest' tree' d' ends ends'
  cases d' with
  | plain value' => exact absurd kind (value'.begins.2 _)
  | apply kind' value' =>
    obtain ⟨rfl, rfl, same⟩ := alone value' trivial trivial
    obtain rfl := TokenKind.function.inj (kind.symm.trans kind')
    cases same
    exact ⟨rfl, rfl, HEq.rfl⟩
  | applyMinus _ kind' => exact absurd value.begins (not_begins_value_of_minus kind')

theorem Alone.applyMinus {value : Derivation .value tokens rest tree}
    (kind : token.kind = .function function) (kind' : sign.kind = .operator .minus)
    (alone : value.Alone) : (applyMinus kind kind' value).Alone := by
  intro rest' tree' d' ends ends'
  cases d' with
  | plain value' => exact absurd kind (value'.begins.2 _)
  | apply _ value' => exact absurd value'.begins (not_begins_value_of_minus kind')
  | applyMinus kind'' _ value' =>
    obtain ⟨rfl, rfl, same⟩ := alone value' trivial trivial
    obtain rfl := TokenKind.function.inj (kind.symm.trans kind'')
    cases same
    exact ⟨rfl, rfl, HEq.rfl⟩

theorem alone_number {value : Float} (kind : token.kind = .number value) :
    (number kind : Derivation .value (token :: rest) rest _).Alone := by
  intro rest' tree' d' ends ends'
  cases d' with
  | number kind' =>
    obtain rfl := TokenKind.number.inj (kind.symm.trans kind')
    exact ⟨rfl, rfl, HEq.rfl⟩
  | name kind' | emptyGroup kind' | group kind' | openEmptyGroup kind' | openGroup kind' =>
    exact absurd (kind.symm.trans kind') nofun

theorem alone_name (kind : token.kind = .name) :
    (name kind : Derivation .value (token :: rest) rest _).Alone := by
  intro rest' tree' d' ends ends'
  cases d' with
  | name kind' => exact ⟨rfl, rfl, HEq.rfl⟩
  | number kind' | emptyGroup kind' | group kind' | openEmptyGroup kind' | openGroup kind' =>
    exact absurd (kind.symm.trans kind') nofun

theorem not_begins_tier_of_closing (kind : close.kind = .closing) :
    ¬(Symbol.tier flip level).Begins (close :: tokens) := by
  simp [Symbol.Begins, kind, TokenKind.startsValue]

theorem alone_emptyGroup (kind : token.kind = .opening) (kind' : close.kind = .closing) :
    (emptyGroup kind kind' : Derivation .value (token :: close :: rest) rest _).Alone := by
  intro rest' tree' d' ends ends'
  cases d' with
  | emptyGroup => exact ⟨rfl, rfl, HEq.rfl⟩
  | number kind' | name kind' => exact absurd (kind.symm.trans kind') nofun
  | group _ _ sum' | openGroup _ sum' =>
    exact absurd sum'.begins (not_begins_tier_of_closing kind')

theorem Alone.group {sum : Derivation (.tier false 0) tokens (close :: rest) tree}
    (kind : token.kind = .opening) (kind' : close.kind = .closing) (alone : sum.Alone) :
    (group kind kind' sum).Alone := by
  have ends := apart_closing kind' 0 rest
  intro rest' tree' d' _ _
  cases d' with
  | number kind' | name kind' => exact absurd (kind.symm.trans kind') nofun
  | emptyGroup _ close' => exact absurd sum.begins (not_begins_tier_of_closing close')
  | group _ close' sum' =>
    obtain ⟨same, rfl, same'⟩ := alone sum' ends (apart_closing close' 0 _)
    cases same
    cases same'
    exact ⟨rfl, rfl, HEq.rfl⟩
  | openEmptyGroup => exact sum.begins.elim
  | openGroup _ sum' => exact absurd (alone sum' ends (apart_nil 0)).1 nofun

theorem alone_openEmptyGroup (kind : token.kind = .opening) : (openEmptyGroup kind).Alone := by
  intro rest' tree' d' ends ends'
  cases d' with
  | openEmptyGroup => exact ⟨rfl, rfl, HEq.rfl⟩
  | number kind' | name kind' => exact absurd (kind.symm.trans kind') nofun
  | group _ _ sum' | openGroup _ sum' => exact sum'.begins.elim

theorem Alone.openGroup {sum : Derivation (.tier false 0) tokens [] tree}
    (kind : token.kind = .opening) (alone : sum.Alone) : (openGroup kind sum).Alone := by
  intro rest' tree' d' _ _
  cases d' with
  | number kind' | name kind' => exact absurd (kind.symm.trans kind') nofun
  | emptyGroup _ close' => exact absurd sum.begins (not_begins_tier_of_closing close')
  | group _ close' sum' =>
    exact absurd (alone sum' (apart_nil 0) (apart_closing close' 0 _)).1 nofun
  | openEmptyGroup => exact sum.begins.elim
  | openGroup _ sum' =>
    obtain ⟨-, rfl, same⟩ := alone sum' (apart_nil 0) (apart_nil 0)
    cases same
    exact ⟨rfl, rfl, HEq.rfl⟩

theorem alone {symbol : Symbol} (d : Derivation symbol tokens rest tree) : d.Alone := by
  induction d with
  | empty => exact alone_empty
  | sum _ sum => exact sum.sum
  | tier loose _ _ first more => exact first.tier loose more
  | tightest _ signed => exact signed.tightest
  | stop => exact alone_stop
  | join here joins _ _ operand more => exact operand.join here joins more
  | unsigned _ call => exact call.unsigned
  | minus kind _ call => exact call.minus kind
  | plain _ value => exact value.plain
  | apply kind _ value => exact value.apply kind
  | applyMinus kind kind' _ value => exact value.applyMinus kind kind'
  | number kind => exact alone_number kind
  | name kind => exact alone_name kind
  | emptyGroup kind kind' => exact alone_emptyGroup kind kind'
  | group kind kind' _ sum => exact sum.group kind kind'
  | openEmptyGroup kind => exact alone_openEmptyGroup kind
  | openGroup kind _ sum => exact sum.openGroup kind

end Derivation

theorem subsingleton_reading (tokens : List Token) : Subsingleton (Reading tokens) := by
  refine ⟨fun ⟨tree, d⟩ ⟨tree', d'⟩ => ?_⟩
  obtain ⟨-, rfl, same⟩ := d.alone d' trivial trivial
  cases same
  rfl

end FormulaLayout
