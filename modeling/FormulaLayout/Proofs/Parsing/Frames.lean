import FormulaLayout.Proofs.Parsing.Descent

/-! What the procedures read, compared with the parser that keeps its own stack, the machine. A call
starts at a state of the machine and ends at a later one. From one group into the next it takes
twelve calls, thirteen if the group is the argument of a function, and the loops take none. So where
the tokens keep within a limit on parentheses, thirteen frames for each are enough, and where they
exceed it, twelve for each are too few. -/
namespace FormulaLayout
namespace Descent
open ParserState

namespace Routine

/-- The frames that are enough for a routine, groups apart, also where a function comes first. -/
def most : Routine → Nat
  | value => 1
  | argument _ => 2
  | call => 3
  | signed _ => 4
  | tier _ level => 5 + (signedLevel - level)
  | group => 13

/-- The frames without which a routine does not get into a group. -/
def least : Routine → Nat
  | value => 2
  | argument _ => 3
  | call => 3
  | signed _ => 4
  | tier _ level => 5 + (signedLevel - level)
  | group => 13

def Leaves : Routine → List Token → List Token → Prop
  | tier _ level, tokens, rest => Apart level rest ∧ rest.length < tokens.length
  | group, tokens, rest => rest.length ≤ tokens.length
  | _, tokens, rest => rest.length < tokens.length

variable {flip flip' : Bool} {level : Nat}

theorem most_tier_lt (loose : level < signedLevel) :
    (tier flip (level + 1)).most < (tier flip' level).most := by
  simp only [most]
  omega

theorem least_tier_le : (tier flip' level).least ≤ (tier flip (level + 1)).least + 1 := by
  simp only [least]
  omega

end Routine

/-- Where the machine stands when a routine is called, and where it is to hold the tree. -/
inductive Enters : Routine → List Token → ParserState → (Formula → ParserState) → Prop where
  | tier {flip : Bool} {level : Nat} {tokens : List Token} {outer : List (Pending × Slot)}
      {pending : Pending} (loose : level ≤ signedLevel) (looser : pending.Looser level) :
      Enters (.tier flip level) tokens ⟨outer, pending, .awaiting (.operand flip false)⟩
        fun tree => ⟨outer, pending, .holding tree⟩
  | signed {flip : Bool} {tokens : List Token} {outer : List (Pending × Slot)}
      {pending : Pending} :
      Enters (.signed flip) tokens ⟨outer, pending, .awaiting (.operand flip false)⟩
        fun tree => ⟨outer, pending, .holding tree⟩
  | call {negated signed : Bool} {tokens : List Token} {outer : List (Pending × Slot)}
      {pending : Pending}
      (sign : frontKind? tokens = some (.operator .minus) → signed = true) :
      Enters .call tokens ⟨outer, pending, .awaiting (.operand negated signed)⟩
        fun tree => ⟨outer, pending, .holding (.negateIf negated tree)⟩
  | argument {negated : Bool} {function : UnaryFunction} {tokens : List Token}
      {outer : List (Pending × Slot)} {pending : Pending} :
      Enters (.argument function) tokens
        ⟨outer, pending, .awaiting (.argument negated function false)⟩
        fun tree => ⟨outer, pending, .holding (.negateIf negated (.call function tree))⟩
  | operand {negated signed : Bool} {tokens : List Token} {outer : List (Pending × Slot)}
      {pending : Pending}
      (sign : frontKind? tokens = some (.operator .minus) → signed = true)
      (noFunction : ∀ function, frontKind? tokens ≠ some (.function function))
      (noExtremum : ∀ function, frontKind? tokens ≠ some (.extremum function)) :
      Enters .value tokens ⟨outer, pending, .awaiting (.operand negated signed)⟩
        fun tree => ⟨outer, pending, .holding (.negateIf negated tree)⟩
  | value {slot : Slot} {tokens : List Token} {outer : List (Pending × Slot)} {pending : Pending}
      (starts : startsArgument tokens = true) :
      Enters .value tokens ⟨outer, pending, .awaiting slot⟩
        fun tree => ⟨outer, pending, .holding (slot.fill tree)⟩
  | group {slot : Slot} {tokens : List Token} {outer : List (Pending × Slot)}
      {pending : Pending} :
      Enters .group tokens ⟨(pending, slot) :: outer, [], .start⟩
        fun tree => ⟨outer, pending, .holding (slot.fill tree)⟩

/-- What was read with so many frames, compared with what the machine comes to. They may differ
where the machine finds too many groups open and there were frames enough to open them, and where
the frames were too few. -/
def Compares (source : String) (frames most least : Nat)
    (later : Formula → List Token → Except Fault Formula) (leaves : List Token → Prop)
    (machine : Except Fault Formula) : Outcome → Prop
  | .ok (tree, rest) => (leaves rest ∧ machine = later tree rest) ∨
      (machine = .error (tooDeep source) ∧ least ≤ frames)
  | .error fault => machine = .error fault ∨
      (machine = .error (tooDeep source) ∧ least ≤ frames) ∨
      (fault = tooDeep source ∧ frames < most)

namespace Compares
variable {source : String} {frames most least most' least' : Nat}
  {later later' : Formula → List Token → Except Fault Formula} {leaves leaves' : List Token → Prop}
  {machine : Except Fault Formula} {outcome : Outcome}

theorem of_beyond (deep : machine = .error (tooDeep source)) (enough : least ≤ frames) :
    Compares source frames most least later leaves machine outcome := by
  match outcome with
  | .ok _ => exact .inr ⟨deep, enough⟩
  | .error _ => exact .inr (.inl ⟨deep, enough⟩)

theorem imp (h : Compares source frames most least later leaves machine outcome)
    (left : ∀ rest, leaves rest → leaves' rest) :
    Compares source frames most least later leaves' machine outcome := by
  match outcome, h with
  | .ok (_, rest), h => exact h.imp_left fun agrees => ⟨left rest agrees.1, agrees.2⟩
  | .error _, h => exact h

theorem bind (h : Compares source frames most least later leaves machine outcome)
    (below : most < most') (above : least' ≤ least + 1)
    {next : Formula × List Token → Outcome}
    (behind : ∀ tree rest, leaves rest →
      Compares source (frames + 1) most' least' later' leaves' (later tree rest)
        (next (tree, rest))) :
    Compares source (frames + 1) most' least' later' leaves' machine (outcome >>= next) := by
  match outcome, h with
  | .ok (tree, rest), h =>
    rcases h with ⟨left, same⟩ | ⟨deep, enough⟩
    · rw [same]
      exact behind tree rest left
    · exact of_beyond deep (by omega)
  | .error fault, h =>
    rcases h with same | ⟨deep, enough⟩ | ⟨deep, few⟩
    · exact .inl same
    · exact .inr (.inl ⟨deep, by omega⟩)
    · exact .inr (.inr ⟨deep, by omega⟩)

theorem onTree (h : Compares source frames most least later leaves machine outcome)
    (below : most < most') (above : least' ≤ least + 1) {f : Formula → Formula}
    (holds : ∀ tree rest, later tree rest = later' (f tree) rest)
    (left : ∀ rest, leaves rest → leaves' rest) :
    Compares source (frames + 1) most' least' later' leaves' machine (outcome.onTree f) := by
  rw [Outcome.onTree_eq_bind]
  exact h.bind below above fun tree rest kept => .inl ⟨left rest kept, holds tree rest⟩

end Compares

def Simulates (limit : Nat) (source : String) (frames : Nat) (routine : Routine) : Prop :=
  ∀ tokens state holds, Enters routine tokens state holds → state.outer.length ≤ limit →
    Compares source frames (13 * (limit - state.outer.length) + routine.most)
      (12 * (limit - state.outer.length) + routine.least)
      (fun tree rest => (holds tree).outcome (some limit) source rest)
      (routine.Leaves tokens) (state.outcome (some limit) source tokens)
      (read source frames routine tokens)

variable {limit : Nat} {source : String} {frames : Nat}

theorem simulates_zero (routine : Routine) : Simulates limit source 0 routine := by
  intro tokens state holds enters within
  refine .inr (.inr ⟨rfl, ?_⟩)
  cases enters <;> simp only [Routine.most] <;> omega

theorem goOn_compares {level : Nat}
    (operand : ∀ flip, Simulates limit source frames (.tier flip (level + 1)))
    (loose : level < signedLevel) {outer : List (Pending × Slot)} {pending : Pending}
    (looser : pending.Looser level) (within : outer.length ≤ limit) {turns : Nat} {left : Formula}
    {tokens : List Token} (enough : tokens.length ≤ turns) (apart : Apart (level + 1) tokens) :
    Compares source (frames + 1) (13 * (limit - outer.length) + (Routine.tier false level).most)
      (12 * (limit - outer.length) + (Routine.tier false level).least)
      (fun tree rest => outcome (some limit) source ⟨outer, pending, .holding tree⟩ rest)
      (fun rest => Apart level rest ∧ rest.length ≤ tokens.length)
      (outcome (some limit) source ⟨outer, pending, .holding left⟩ tokens)
      (goOn level (fun flip => read source frames (.tier flip (level + 1))) turns left tokens) := by
  induction turns generalizing left tokens with
  | zero =>
    obtain rfl : tokens = [] := List.length_eq_zero_iff.mp (Nat.le_zero.mp enough)
    exact .inl ⟨⟨apart_nil level, Nat.le_refl _⟩, rfl⟩
  | succ turns ih =>
    rw [goOn]
    split
    · next none =>
      refine .inl ⟨⟨fun connective flip start joins => ?_, Nat.le_refl _⟩, rfl⟩
      cases none.symm.trans (connective?_eq_some_iff.mpr joins)
    · next connective flip start found =>
      have joins := connective?_eq_some_iff.mp found
      split
      · next here =>
        subst here
        rw [outcome_joins joins looser]
        have entered := operand flip start
          ⟨outer, (connective, left) :: pending, .awaiting (.operand flip false)⟩ _
          (.tier (Nat.succ_le_of_lt loose)
            (Pending.looser_cons (Nat.lt_succ_self connective.tier) left pending)) within
        have taken := joins.length_le
        refine entered.bind (Nat.add_lt_add_left (Routine.most_tier_lt loose) _)
          (Nat.add_le_add_left Routine.least_tier_le _) fun right rest left => ?_
        obtain ⟨apart, shorter⟩ := left
        rw [outcome_join apart]
        refine (ih (by omega) apart).imp fun rest' left => ⟨left.1, ?_⟩
        omega
      · next other =>
        refine .inl ⟨⟨fun connective' flip' start' joins' => ?_, Nat.le_refl _⟩, rfl⟩
        have looser' := apart connective' flip' start' joins'
        obtain ⟨rfl, -, -⟩ := joins.unique joins'
        omega

theorem Simulates.handOn {routine : Routine} (simulates : Simulates limit source frames routine)
    (caller : Routine) {tokens tokens' : List Token}
    {state state' : ParserState} {holds holds' : Formula → ParserState}
    (enters : Enters routine tokens' state' holds') (within : state.outer.length ≤ limit)
    (same : state.outcome (some limit) source tokens = state'.outcome (some limit) source tokens')
    (level : state'.outer.length = state.outer.length)
    (below : routine.most < caller.most) (above : caller.least ≤ routine.least + 1)
    (f : Formula → Formula) (kept : ∀ tree, holds' tree = holds (f tree))
    (left : ∀ rest, routine.Leaves tokens' rest → caller.Leaves tokens rest) :
    Compares source (frames + 1) (13 * (limit - state.outer.length) + caller.most)
      (12 * (limit - state.outer.length) + caller.least)
      (fun tree rest => (holds tree).outcome (some limit) source rest) (caller.Leaves tokens)
      (state.outcome (some limit) source tokens)
      ((read source frames routine tokens').onTree f) := by
  have compares := simulates tokens' state' holds' enters (level ▸ within)
  rw [level, ← same] at compares
  refine compares.onTree (Nat.add_lt_add_left below _) (by omega) (fun tree rest => ?_) left
  rw [kept]

theorem simulates_tier (calls : ∀ routine, Simulates limit source frames routine) (flip : Bool)
    (level : Nat) : Simulates limit source (frames + 1) (.tier flip level) := by
  intro tokens state holds enters within
  cases enters with
  | @tier _ _ _ outer pending loose looser =>
    rw [read_tier]
    split
    · next loose =>
      have first := calls (.tier flip (level + 1)) tokens _ _
        (.tier loose fun level' value tighter => looser level' value (by omega)) within
      refine first.bind (Nat.add_lt_add_left (Routine.most_tier_lt loose) _)
        (Nat.add_le_add_left Routine.least_tier_le _) fun left rest ended => ?_
      obtain ⟨apart, shorter⟩ := ended
      refine (goOn_compares (fun flip => calls (.tier flip (level + 1))) loose looser within
        (Nat.le_refl _) apart).imp fun rest' ended => ⟨ended.1, ?_⟩
      omega
    · next tightest =>
      rw [← Outcome.onTree_id (read source frames (.signed flip) tokens)]
      refine (calls (.signed flip)).handOn (.tier flip level) .signed within rfl rfl ?_ ?_ id
        (fun _ => rfl) fun rest shorter => ⟨fun connective flip start _ => ?_, shorter⟩
      · simp only [Routine.most]
        omega
      · simp only [Routine.least]
        omega
      · have := Pending.tier_lt_signedLevel connective
        omega

theorem simulates_signed (calls : ∀ routine, Simulates limit source frames routine) (flip : Bool) :
    Simulates limit source (frames + 1) (.signed flip) := by
  intro tokens state holds enters within
  cases enters with
  | @signed _ _ outer pending =>
    rw [read_signed]
    obtain ⟨sign, rest, rfl, minus, taken⟩ | ⟨taken, unsigned⟩ := takeMinus_cases tokens
    · have step : step (some limit) ⟨outer, pending, .awaiting (.operand flip false)⟩ sign =
          .ok ⟨outer, pending, .awaiting (.operand (flip ^^ true) true)⟩ := by
        simp [ParserState.step, receive, minus, await]
      rw [taken]
      exact (calls .call).handOn (.signed flip) (.call fun _ => rfl) within
        (outcome_of_step step rest) rfl (Nat.lt_succ_self _) (Nat.le_refl _) _ (fun _ => rfl)
        fun _ => Nat.lt_succ_of_lt
    · simp only [taken, Bool.xor_false]
      exact (calls .call).handOn (.signed flip) (.call fun minus => absurd minus unsigned) within
        rfl rfl (Nat.lt_succ_self _) (Nat.le_refl _) _ (fun _ => rfl) fun _ => id

theorem simulates_call (calls : ∀ routine, Simulates limit source frames routine) :
    Simulates limit source (frames + 1) .call := by
  intro tokens state holds enters within
  cases enters with
  | @call negated signed _ outer pending sign =>
    rw [read_call]
    split
    · next function front =>
      obtain ⟨token, rest, rfl, kind⟩ := exists_of_frontKind? front
      refine .inl (outcome_of_complaint ?_ (by simp) rest)
      simp [step, receive, kind]
    · next function front =>
      obtain ⟨token, rest, rfl, kind⟩ := exists_of_frontKind? front
      have step : step (some limit) ⟨outer, pending, .awaiting (.operand negated signed)⟩ token =
          .ok ⟨outer, pending, .awaiting (.argument negated function false)⟩ := by
        simp [step, receive, kind, await]
      exact (calls (.argument function)).handOn .call .argument within (outcome_of_step step rest)
        rfl (Nat.lt_succ_self _) (Nat.le_succ _) (.call function) (fun _ => rfl)
        fun _ => Nat.lt_succ_of_lt
    · next noExtremum noFunction =>
      rw [← Outcome.onTree_id (read source frames .value tokens)]
      exact (calls .value).handOn .call (.operand sign noFunction noExtremum) within rfl rfl
        (Nat.lt_add_of_pos_right Nat.two_pos) (Nat.le_refl _) id (fun _ => rfl) fun _ => id

theorem outcome_argumentMissing {negated signed : Bool} {function : UnaryFunction}
    {outer : List (Pending × Slot)} {pending : Pending} {tokens : List Token}
    (sign : frontKind? tokens = some (.operator .minus) → signed = true)
    (other : ¬startsArgument tokens = true) :
    outcome (some limit) source ⟨outer, pending, .awaiting (.argument negated function signed)⟩
      tokens = .error (faultAt (.argumentMissing function.name) source tokens) := by
  cases tokens with
  | nil => rfl
  | cons token rest =>
    refine outcome_of_complaint ?_ (by simp) rest
    cases kind : token.kind with
    | number _ | name | opening => simp [startsArgument, frontKind?, kind] at other
    | operator operator =>
      cases operator with
      | minus => simp [step, receive, kind, sign (congrArg some kind)]
      | _ => simp [step, receive, kind]
    | _ => simp [step, receive, kind]

theorem simulates_argument (calls : ∀ routine, Simulates limit source frames routine)
    (function : UnaryFunction) : Simulates limit source (frames + 1) (.argument function) := by
  intro tokens state holds enters within
  cases enters with
  | @argument negated _ _ outer pending =>
    rw [read_argument]
    obtain ⟨sign, rest, rfl, minus, taken⟩ | ⟨taken, unsigned⟩ := takeMinus_cases tokens
    · have step : step (some limit) ⟨outer, pending, .awaiting (.argument negated function false)⟩
          sign = .ok ⟨outer, pending, .awaiting (.argument negated function true)⟩ := by
        simp [step, receive, minus, await]
      simp only [taken]
      split
      · next starts =>
        exact (calls .value).handOn (.argument function) (.value starts) within
          (outcome_of_step step rest) rfl (Nat.lt_succ_self _) (Nat.le_refl _) _ (fun _ => rfl)
          fun _ => Nat.lt_succ_of_lt
      · next other =>
        rw [outcome_of_step step rest]
        exact .inl (outcome_argumentMissing (fun _ => rfl) other)
    · simp only [taken]
      split
      · next starts =>
        exact (calls .value).handOn (.argument function) (.value starts) within rfl rfl
          (Nat.lt_succ_self _) (Nat.le_refl _) _ (fun _ => rfl) fun _ => id
      · next other =>
        exact .inl (outcome_argumentMissing (fun minus => absurd minus unsigned) other)

theorem value_compares (group : Simulates limit source frames .group) {slot : Slot}
    {tokens : List Token} {outer : List (Pending × Slot)} {pending : Pending}
    (within : outer.length ≤ limit) (starts : startsArgument tokens = true) :
    Compares source (frames + 1) (13 * (limit - outer.length) + Routine.value.most)
      (12 * (limit - outer.length) + Routine.value.least)
      (fun tree rest =>
        outcome (some limit) source ⟨outer, pending, .holding (slot.fill tree)⟩ rest)
      (Routine.value.Leaves tokens)
      (outcome (some limit) source ⟨outer, pending, .awaiting slot⟩ tokens)
      (read source (frames + 1) .value tokens) := by
  cases tokens with
  | nil => cases starts
  | cons token rest =>
    rw [read_value]
    cases kind : token.kind with
    | number value =>
      refine .inl ⟨Nat.lt_succ_self _, outcome_of_step ?_ rest⟩
      simp [step, receive, kind, hold]
    | name =>
      refine .inl ⟨Nat.lt_succ_self _, outcome_of_step ?_ rest⟩
      simp [step, receive, kind, hold]
    | opening =>
      have step : step (some limit) ⟨outer, pending, .awaiting slot⟩ token =
          openGroup (some limit) ⟨outer, pending, .awaiting slot⟩ slot := by
        simp [step, receive, kind]
      rcases Nat.lt_or_ge outer.length limit with free | full
      · have opened : openGroup (some limit) ⟨outer, pending, .awaiting slot⟩ slot =
            .ok ⟨(pending, slot) :: outer, [], .start⟩ := by
          simp [openGroup, free]
        rw [outcome_of_step (step.trans opened)]
        have inner := group rest ⟨(pending, slot) :: outer, [], .start⟩ _ .group free
        rw [← Outcome.onTree_id (read source frames .group rest)]
        refine inner.onTree ?_ ?_ (fun _ _ => rfl) fun _ => Nat.lt_succ_of_le
        · simp only [Routine.most, List.length_cons]
          omega
        · simp only [Routine.least, List.length_cons]
          omega
      · have refused : openGroup (some limit) ⟨outer, pending, .awaiting slot⟩ slot =
            .error .nestedTooDeeply := by
          simp [openGroup, full]
        rw [outcome_of_tooDeep (step.trans refused)]
        cases frames with
        | zero => exact .inl rfl
        | succ frames =>
          refine .of_beyond rfl ?_
          simp only [Routine.least]
          omega
    | _ => simp [startsArgument, frontKind?, kind] at starts

theorem simulates_value (calls : ∀ routine, Simulates limit source frames routine) :
    Simulates limit source (frames + 1) .value := by
  intro tokens state holds enters within
  cases enters with
  | value starts => exact value_compares (calls .group) within starts
  | @operand negated signed _ outer pending sign noFunction noExtremum =>
    by_cases starts : startsArgument tokens = true
    · exact value_compares (calls .group) within starts
    · cases tokens with
      | nil => exact .inl rfl
      | cons token rest =>
        rw [read_value]
        cases kind : token.kind with
        | number _ | name | opening => simp [startsArgument, frontKind?, kind] at starts
        | function function => exact absurd (congrArg some kind) (noFunction function)
        | extremum function => exact absurd (congrArg some kind) (noExtremum function)
        | closing =>
          refine .inl (outcome_of_complaint ?_ (by simp) rest)
          simp [step, receive, kind]
        | operator operator =>
          refine .inl (outcome_of_complaint ?_ (by simp) rest)
          cases operator with
          | minus => simp [step, receive, kind, sign (congrArg some kind)]
          | _ => simp [step, receive, kind]

theorem simulates_group (calls : ∀ routine, Simulates limit source frames routine) :
    Simulates limit source (frames + 1) .group := by
  intro tokens state holds enters within
  cases enters with
  | @group slot _ outer pending =>
    cases tokens with
    | nil => exact .inl ⟨Nat.le_refl _, rfl⟩
    | cons token rest =>
      rw [read_group]
      split
      · next closing =>
        refine .inl ⟨Nat.le_succ _, outcome_of_step ?_ rest⟩
        simp [step, closing]
      · next other =>
        rw [outcome_start _ _ (.inl other)]
        have inner := calls (.tier false 0) (token :: rest) _ _
          (.tier (Nat.zero_le _) (Pending.looser_nil 0)) within
        refine inner.bind ?_ ?_ fun tree behind ended => ?_
        · exact Nat.lt_succ_self _
        · exact Nat.le_refl _
        · obtain ⟨apart, shorter⟩ := ended
          cases behind with
          | nil => exact .inl ⟨Nat.zero_le _, rfl⟩
          | cons token behind =>
            have closing := closing_of_apart apart
            simp only [close, closing, if_true]
            refine .inl ⟨?_, outcome_of_step ?_ behind⟩
            · exact Nat.le_of_succ_le (Nat.le_of_lt shorter)
            · simp [step, closing, Pending.close]

theorem simulates (limit : Nat) (source : String) (frames : Nat) (routine : Routine) :
    Simulates limit source frames routine := by
  induction frames generalizing routine with
  | zero => exact simulates_zero routine
  | succ frames calls =>
    cases routine with
    | tier flip level => exact simulates_tier calls flip level
    | signed flip => exact simulates_signed calls flip
    | call => exact simulates_call calls
    | argument function => exact simulates_argument calls function
    | value => exact simulates_value calls
    | group => exact simulates_group calls

/-- The procedures find what the machine finds, unless it finds too many groups open that there are
frames for, or the frames are too few for the groups that it may open. -/
theorem parse_compares (limit frames : Nat) (source : String) (tokens : List Token) :
    parse frames source tokens = parseTokensWithin (some limit) source tokens ∨
      (parseTokensWithin (some limit) source tokens = .error (tooDeep source) ∧
        12 * limit + 12 ≤ frames) ∨
      (parse frames source tokens = .error (tooDeep source) ∧ frames < 13 * limit + 12) := by
  cases tokens with
  | nil => exact .inl rfl
  | cons token rest =>
    have machine : parseTokensWithin (some limit) source (token :: rest) =
        outcome (some limit) source ⟨[], [], .awaiting (.operand false false)⟩ (token :: rest) :=
      outcome_start [] [] (.inr rfl) rest
    have compares := simulates limit source frames (.tier false 0) (token :: rest)
      ⟨[], [], .awaiting (.operand false false)⟩ _
      (.tier (Nat.zero_le _) (Pending.looser_nil 0)) (Nat.zero_le limit)
    rw [← machine] at compares
    rw [parse, if_neg (List.cons_ne_nil token rest)]
    cases found : read source frames (.tier false 0) (token :: rest) with
    | error fault =>
      rw [found] at compares
      rcases compares with same | deep | ⟨rfl, few⟩
      · exact .inl same.symm
      · exact .inr (.inl deep)
      · exact .inr (.inr ⟨rfl, few⟩)
    | ok result =>
      obtain ⟨tree, behind⟩ := result
      rw [found] at compares
      rcases compares with ⟨⟨apart, -⟩, same⟩ | deep
      · rw [same]
        refine .inl ?_
        cases behind with
        | nil => rfl
        | cons token behind =>
          have closing := closing_of_apart apart
          refine (outcome_of_complaint ?_ (by simp) behind).symm
          simp [step, closing]
      · exact .inr (.inl deep)

end Descent
end FormulaLayout
