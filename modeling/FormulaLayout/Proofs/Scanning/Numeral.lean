import FormulaLayout.Proofs.Scanning.Words

/-! Literals in a scan. At a digit or a point the loop takes the longest run of digits and points,
and behind the mark of an exponent a sign, if there is one, and all digits that follow. How far the
literal reaches is settled by its characters alone. Whether it is a number is settled afterwards: if
it is none, the scan raises at its first character, whatever a shorter literal would have been. -/
namespace FormulaLayout
namespace Number
open Text

/-- The text begins with a run of the kind, and nothing of the kind follows it. -/
structure LeadingRun (kind : Char → Bool) (text run rest : List Char) : Prop where
  whole : text = run ++ rest
  inside : ∀ c ∈ run, kind c = true
  stop : ∀ c ∈ rest.head?, kind c = false

theorem leadingRun_iff {kind : Char → Bool} {text run rest : List Char} :
    LeadingRun kind text run rest ↔ text.takeWhile kind = run ∧ text.dropWhile kind = rest := by
  constructor
  · rintro ⟨rfl, inside, stop⟩
    exact ⟨takeWhile_append_of_stop inside stop, dropWhile_append_of_stop inside stop⟩
  · rintro ⟨rfl, rfl⟩
    refine ⟨List.takeWhile_append_dropWhile.symm, fun c mem => List.mem_takeWhile_imp mem, ?_⟩
    intro c front
    have stops := List.head?_dropWhile_not kind text
    rw [Option.mem_def.mp front] at stops
    exact stops

inductive TakesExponent : List Char → Option Exponent → List Char → Prop where
  | none {text : List Char} (unmarked : text.head? ≠ some 'E') : TakesExponent text none text
  | negative {text digits rest : List Char} (run : LeadingRun isDigit text digits rest) :
      TakesExponent ('E' :: '-' :: text) (some ⟨true, digits⟩) rest
  | positive {text digits rest : List Char} (unsigned : text.head? ≠ some '-')
      (run : LeadingRun isDigit text digits rest) :
      TakesExponent ('E' :: text) (some ⟨false, digits⟩) rest

def TakesLiteral (text : List Char) (literal : Literal) (rest : List Char) : Prop :=
  ∃ tail, LeadingRun startsLiteral text literal.mantissa tail ∧
    TakesExponent tail literal.exponent rest

theorem TakesExponent.text_append {text rest : List Char} {exponent : Option Exponent}
    (takes : TakesExponent text exponent rest) :
    text = (exponent.map Exponent.text).getD [] ++ rest := by
  cases takes with
  | none => rfl
  | negative run => simp [Exponent.text, run.whole]
  | positive unsigned run => simp [Exponent.text, run.whole]

theorem TakesLiteral.text_append {text rest : List Char} {literal : Literal}
    (takes : TakesLiteral text literal rest) : text = literal.text ++ rest := by
  obtain ⟨tail, run, exponent⟩ := takes
  rw [run.whole, exponent.text_append, Literal.text, List.append_assoc]

theorem TakesLiteral.scan_eq {text rest : List Char} {literal : Literal}
    (takes : TakesLiteral text literal rest) : Literal.scan text = literal := by
  obtain ⟨mantissa, exponent⟩ := literal
  obtain ⟨tail, run, exponent⟩ := takes
  obtain ⟨front, behind⟩ := leadingRun_iff.mp run
  unfold Literal.scan
  rw [front, behind]
  cases exponent with
  | none unmarked =>
    split
    case h_1 | h_2 => simp at unmarked
    case h_3 => rfl
  | negative digits => simp only [(leadingRun_iff.mp digits).1]
  | positive unsigned digits =>
    split
    case h_1 signed => simp [(List.cons.inj signed).2] at unsigned
    case h_2 marked => rw [← (List.cons.inj marked).2, (leadingRun_iff.mp digits).1]
    case h_3 other => exact absurd rfl (other _)

theorem exists_takesLiteral (text : List Char) :
    ∃ rest, TakesLiteral text (Literal.scan text) rest := by
  have run (kind : Char → Bool) (text : List Char) :
      LeadingRun kind text (text.takeWhile kind) (text.dropWhile kind) :=
    leadingRun_iff.mpr ⟨rfl, rfl⟩
  unfold Literal.scan
  split
  case h_1 rest behind =>
    refine ⟨rest.dropWhile isDigit, _, run startsLiteral text, ?_⟩
    rw [behind]
    exact .negative (run isDigit rest)
  case h_2 rest unsigned behind =>
    refine ⟨rest.dropWhile isDigit, _, run startsLiteral text, ?_⟩
    rw [behind]
    refine .positive (fun signed => ?_) (run isDigit rest)
    obtain ⟨more, rfl⟩ := List.head?_eq_some_iff.mp signed
    exact unsigned more rfl
  case h_3 unmarked =>
    refine ⟨_, _, run startsLiteral text, .none fun marked => ?_⟩
    obtain ⟨more, behind⟩ := List.head?_eq_some_iff.mp marked
    exact unmarked more behind

theorem TakesLiteral.unique {text rest rest' : List Char} {literal literal' : Literal}
    (takes : TakesLiteral text literal rest) (takes' : TakesLiteral text literal' rest') :
    literal' = literal ∧ rest' = rest := by
  obtain rfl : literal' = literal := takes'.scan_eq.symm.trans takes.scan_eq
  exact ⟨rfl, List.append_cancel_left (takes'.text_append.symm.trans takes.text_append)⟩

def isDecimal (c : Char) : Bool := (decimalValue? c).isSome

theorem isSome_decimal?_iff {digits : List Char} :
    (decimal? digits).isSome = true ↔ ∀ c ∈ digits, isDecimal c = true := by
  rw [isSome_decimal?, List.all_eq_true]
  rfl

def aroundPoint (mantissa : List Char) : List Char :=
  mantissa.takeWhile (· ≠ '.') ++ (mantissa.dropWhile (· ≠ '.')).drop 1

theorem aroundPoint_cons (c : Char) (mantissa : List Char) :
    aroundPoint (c :: mantissa) = if c = '.' then mantissa else c :: aroundPoint mantissa := by
  by_cases point : c = '.' <;> simp [aroundPoint, point]

theorem count_point_cons_le_iff {mantissa : List Char} :
    ('.' :: mantissa).count '.' ≤ 1 ↔ '.' ∉ mantissa := by
  rw [List.count_cons_self, ← List.count_eq_zero]
  omega

theorem decimal_aroundPoint_iff {mantissa : List Char} :
    (∀ c ∈ aroundPoint mantissa, isDecimal c = true) ↔
      mantissa.count '.' ≤ 1 ∧ ∀ c ∈ mantissa, c ≠ '.' → isDecimal c = true := by
  induction mantissa with
  | nil => simp [aroundPoint]
  | cons c mantissa ih =>
    rw [aroundPoint_cons, List.forall_mem_cons]
    by_cases point : c = '.'
    · subst point
      have spoils : isDecimal '.' = false := by decide
      rw [if_pos rfl, count_point_cons_le_iff]
      grind
    · rw [if_neg point, List.count_cons_of_ne point, List.forall_mem_cons, ih]
      tauto

theorem aroundPoint_ne_nil_iff {mantissa : List Char} (one : mantissa.count '.' ≤ 1) :
    aroundPoint mantissa ≠ [] ↔ ∃ c ∈ mantissa, c ≠ '.' := by
  cases mantissa with
  | nil => simp [aroundPoint]
  | cons c mantissa =>
    rw [aroundPoint_cons]
    by_cases point : c = '.'
    · subst point
      have single := count_point_cons_le_iff.mp one
      rw [if_pos rfl, Ne, List.eq_nil_iff_forall_not_mem]
      grind
    · rw [if_neg point]
      exact iff_of_true (List.cons_ne_nil _ _) ⟨c, List.mem_cons_self, point⟩

theorem Exponent.isSome_value?_iff {exponent : Exponent} :
    exponent.value?.isSome = true ↔
      exponent.digits ≠ [] ∧ ∀ c ∈ exponent.digits, isDecimal c = true := by
  rw [← isSome_decimal?_iff, Exponent.value?]
  by_cases filled : exponent.digits = []
  · simp [filled]
  · cases decimal? exponent.digits <;> simp [filled]

theorem Literal.isSome_value?_iff {literal : Literal} :
    literal.value?.isSome = true ↔
      (aroundPoint literal.mantissa ≠ [] ∧ ∀ c ∈ aroundPoint literal.mantissa, isDecimal c = true) ∧
        ∀ exponent ∈ literal.exponent, exponent.value?.isSome = true := by
  rw [← isSome_decimal?_iff, Literal.value?, ← aroundPoint]
  by_cases filled : aroundPoint literal.mantissa = []
  · simp [filled]
  · cases decimal? (aroundPoint literal.mantissa) with
    | none => simp [filled]
    | some coefficient =>
      cases literal.exponent with
      | none => simp [filled]
      | some exponent =>
        cases given : exponent.value? <;> simp [filled, given]

structure Literal.IsNumber (literal : Literal) : Prop where
  some_digit : ∃ c ∈ literal.mantissa, isDigit c = true
  one_point : literal.mantissa.count '.' ≤ 1
  some_power : ∀ exponent ∈ literal.exponent, exponent.digits ≠ []
  decimal : ∀ c ∈ literal.text, isDigit c = true → isDecimal c = true

theorem TakesExponent.isDigit {text rest : List Char} {exponent : Option Exponent}
    (takes : TakesExponent text exponent rest) {found : Exponent} (given : found ∈ exponent) :
    ∀ c ∈ found.digits, Text.isDigit c = true := by
  cases takes with
  | none => cases given
  | negative run | positive _ run =>
    cases given
    exact run.inside

theorem Literal.forall_digit_text_iff {literal : Literal} {P : Char → Prop} :
    (∀ c ∈ literal.text, isDigit c = true → P c) ↔
      (∀ c ∈ literal.mantissa, isDigit c = true → P c) ∧
        ∀ exponent ∈ literal.exponent, ∀ c ∈ exponent.digits, isDigit c = true → P c := by
  have signs : isDigit 'E' = false ∧ isDigit '-' = false := by decide
  obtain ⟨mantissa, exponent⟩ := literal
  rw [Literal.text, List.forall_mem_append]
  cases exponent with
  | none => simp
  | some exponent =>
    obtain ⟨negative, digits⟩ := exponent
    cases negative <;> simp [Exponent.text, signs]

theorem TakesLiteral.isSome_value?_iff {text rest : List Char} {literal : Literal}
    (takes : TakesLiteral text literal rest) :
    literal.value?.isSome = true ↔ literal.IsNumber := by
  obtain ⟨tail, run, exponent⟩ := takes
  have digit : ∀ c ∈ literal.mantissa, (c ≠ '.' ↔ isDigit c = true) := by
    intro c mem
    have starts := run.inside c mem
    have point : isDigit '.' = false := by decide
    rw [startsLiteral, Bool.or_eq_true, beq_iff_eq] at starts
    constructor
    · exact starts.resolve_right
    · rintro digit rfl
      rw [point] at digit
      cases digit
  rw [Literal.isSome_value?_iff, decimal_aroundPoint_iff]
  constructor
  · rintro ⟨⟨filled, one, decimal⟩, power⟩
    obtain ⟨c, mem, other⟩ := (aroundPoint_ne_nil_iff one).mp filled
    refine ⟨⟨c, mem, (digit c mem).mp other⟩, one, fun found given => ?_, ?_⟩
    · exact (Exponent.isSome_value?_iff.mp (power found given)).1
    · rw [Literal.forall_digit_text_iff]
      exact ⟨fun c mem isDigit => decimal c mem ((digit c mem).mpr isDigit),
        fun found given c mem _ => (Exponent.isSome_value?_iff.mp (power found given)).2 c mem⟩
  · rintro ⟨⟨c, mem, isDigit⟩, one, filled, decimal⟩
    obtain ⟨mantissa, digits⟩ := Literal.forall_digit_text_iff.mp decimal
    refine ⟨⟨(aroundPoint_ne_nil_iff one).mpr ⟨c, mem, (digit c mem).mpr isDigit⟩, one,
      fun c mem other => mantissa c mem ((digit c mem).mp other)⟩, fun found given => ?_⟩
    exact Exponent.isSome_value?_iff.mpr ⟨filled found given,
      fun c mem => digits found given c mem (exponent.isDigit given c mem)⟩

end Number

open Number Text

theorem Scan.Turns.loop_eq {text : String} {extra : List String} {n : Nat} {scan : Scan}
    {result : Except Fault Scan} (reached : loop text extra n = .ok scan)
    (turns : Scan.Turns (knownWords extra) (sourceOf text) scan result) :
    loop text extra (n + 1) = result :=
  (loop_succ reached).trans turns.round_eq

structure ReadsNumber (text : String) (extra : List String) (n : Nat) (scan : Scan)
    (literal : Literal) (left : List Char) : Prop where
  takes : literal.IsNumber ↔ ∃ value, loop text extra (n + 1) = .ok
    ⟨scan.found ++ [⟨.number value, String.ofList literal.text, scan.position⟩],
      scan.position + literal.text.length, left⟩
  keeps : ∀ next tokens, loop text extra (n + 1) = .ok next → tokenize text extra = .ok tokens →
    next.found <+: tokens
  raises : ¬literal.IsNumber ↔ tokenize text extra =
    .error ⟨.notANumber (String.ofList literal.text), sourceOf text, some scan.position⟩

section Rounds
variable {text : String} {extra : List String} {n : Nat} {scan : Scan}
  {c : Char} {rest : List Char} {literal : Literal} {left : List Char}

theorem turns_of_isNumber (front : scan.rest = c :: rest) (starts : startsLiteral c = true)
    (takes : TakesLiteral scan.rest literal left) (isNumber : literal.IsNumber) :
    ∃ value, Scan.Turns (knownWords extra) (sourceOf text) scan (.ok
      ⟨scan.found ++ [⟨.number value, String.ofList literal.text, scan.position⟩],
        scan.position + literal.text.length, left⟩) := by
  obtain ⟨value, reads⟩ := Option.isSome_iff_exists.mp (takes.isSome_value?_iff.mpr isNumber)
  obtain ⟨found, position, rest'⟩ := scan
  obtain rfl : rest' = c :: rest := front
  have meets : Meets (knownWords extra) c rest (.ok (.number value, literal.text)) :=
    .literal starts takes.scan_eq reads
  obtain ⟨passed, left', whole, rfl⟩ := meets.exists_passed
  obtain rfl : left' = left := by
    have split := takes.text_append
    rw [whole, List.cons_append] at split
    exact List.append_cancel_left (List.cons.inj split).2
  refine ⟨value, ?_⟩
  rw [whole] at meets ⊢
  exact .passes meets

theorem turns_of_not_isNumber (front : scan.rest = c :: rest) (starts : startsLiteral c = true)
    (takes : TakesLiteral scan.rest literal left) (other : ¬literal.IsNumber) :
    Scan.Turns (knownWords extra) (sourceOf text) scan (.error
      ⟨.notANumber (String.ofList literal.text), sourceOf text, some scan.position⟩) := by
  have unread : literal.value? = none :=
    Option.not_isSome_iff_eq_none.mp (mt takes.isSome_value?_iff.mp other)
  obtain ⟨found, position, rest'⟩ := scan
  obtain rfl : rest' = c :: rest := front
  obtain rfl := takes.scan_eq
  exact .raises (.notANumber starts unread) nofun

/-- Where a digit or a point stands, whatever was scanned before it, one literal is taken, and it
makes a token exactly if it is a number. Otherwise the scan raises where the literal begins. -/
theorem literal_is_number_or_raises (reached : loop text extra n = .ok scan)
    (front : scan.rest = c :: rest) (starts : isDigit c = true ∨ c = '.') :
    ∃ literal left, TakesLiteral scan.rest literal left ∧
      (∀ literal' left', TakesLiteral scan.rest literal' left' →
        literal' = literal ∧ left' = left) ∧
      ReadsNumber text extra n scan literal left := by
  have starts : startsLiteral c = true := by simpa [startsLiteral] using starts
  obtain ⟨left, takes⟩ := exists_takesLiteral scan.rest
  refine ⟨_, left, takes, fun literal' left' => takes.unique, ?_⟩
  generalize Literal.scan scan.rest = literal at takes
  have passes (isNumber : literal.IsNumber) : ∃ value, loop text extra (n + 1) = _ :=
    (turns_of_isNumber front starts takes isNumber).imp fun _ turns => turns.loop_eq reached
  have raises (other : ¬literal.IsNumber) : tokenize text extra = _ :=
    (outcome_of_loop reached).symm.trans
      (turns_of_not_isNumber front starts takes other).outcome_eq
  refine ⟨⟨passes, ?_⟩, fun _ _ passed => found_prefix_of_loop passed, ⟨raises, ?_⟩⟩
  · rintro ⟨value, passed⟩
    by_contra other
    have stops := (turns_of_not_isNumber front starts takes other).loop_eq reached
    rw [passed] at stops
    cases stops
  · intro failed isNumber
    obtain ⟨value, passed⟩ := passes isNumber
    obtain ⟨place, found, behind⟩ := exists_position_of_loop passed failed
    obtain rfl : scan.position = place := Option.some.inj found
    obtain ⟨digit, mem, -⟩ := isNumber.some_digit
    have some : 0 < literal.text.length := List.length_pos_of_mem (List.mem_append_left _ mem)
    dsimp only at behind
    omega

end Rounds

/-- Behind `pi` the literal reaches to the end, and its last digit, a superscript, is no decimal
one. Without it the literal is a number. -/
theorem superscript_spoils_power :
    tokenize "pi.5E-07²" [] = .error ⟨.notANumber ".5E-07²", "pi.5E-07²", some 2⟩ ∧
      ∃ value, loop "pi.5E-07(" [] 2 =
        .ok ⟨[⟨.name, "pi", 0⟩, ⟨.number value, ".5E-07", 2⟩], 8, ['(']⟩ := by
  have spoiled : loop "pi.5E-07²" [] 1 = .ok ⟨[⟨.name, "pi", 0⟩], 2, ".5E-07²".toList⟩ := by rfl
  have plain : loop "pi.5E-07(" [] 1 = .ok ⟨[⟨.name, "pi", 0⟩], 2, ".5E-07(".toList⟩ := by rfl
  constructor
  · obtain ⟨literal, left, takes, -, reads⟩ :=
      literal_is_number_or_raises spoiled (by rfl) (.inr rfl)
    obtain rfl : literal = ⟨['.', '5'], some ⟨true, ['0', '7', '²']⟩⟩ :=
      takes.scan_eq.symm.trans (by decide)
    refine reads.raises.mp fun isNumber => ?_
    exact absurd (isNumber.decimal '²' (by decide) (by decide)) (by decide)
  · obtain ⟨literal, left, takes, -, reads⟩ :=
      literal_is_number_or_raises plain (by rfl) (.inr rfl)
    obtain rfl : literal = ⟨['.', '5'], some ⟨true, ['0', '7']⟩⟩ :=
      takes.scan_eq.symm.trans (by decide)
    obtain rfl : left = ['('] :=
      List.append_cancel_left (takes.text_append.symm.trans (by decide))
    have decimal : ".5E-07".toList.all (fun c => !isDigit c || isDecimal c) = true := by decide
    refine reads.takes.mp
      ⟨⟨'5', by decide, by decide⟩, by decide, by decide, fun c listed digit => ?_⟩
    simpa [digit] using List.all_eq_true.mp decimal c listed

end FormulaLayout
