import FormulaLayout.Formula.Token
import Mathlib.Data.List.TakeWhile
import Mathlib.Data.Option.Basic

/-! Literals that are numbers. One with a value has a mantissa of digits and points, and behind the
mark of an exponent there is at least one digit. Such a literal is scanned as a whole exactly if
what stands behind it does not go on with it, and the first character there tells. -/
namespace FormulaLayout.Number
open Text

theorem isDigit_of_decimal? {digits : List Char} {value : Nat} (h : decimal? digits = some value)
    {c : Char} (mem : c ∈ digits) : isDigit c = true := by
  have all := isSome_decimal? digits
  rw [h, Option.isSome_some, eq_comm, List.all_eq_true] at all
  obtain ⟨digit, read⟩ := Option.isSome_iff_exists.mp (all c mem)
  exact isDigit_of_decimalValue? read

theorem startsLiteral_of_isDigit {c : Char} (h : isDigit c = true) : startsLiteral c = true := by
  simp [startsLiteral, h]

theorem startsLiteral_of_isBlank {c : Char} (blank : isBlank c = true) :
    startsLiteral c = false := by
  have none : blanks.all (!startsLiteral ·) = true := by decide +kernel
  simpa using List.all_eq_true.mp none c (mem_blanks blank)

structure Exponent.Regular (exponent : Exponent) : Prop where
  some_digit : exponent.digits ≠ []
  digits : ∀ c ∈ exponent.digits, isDigit c = true

theorem Exponent.regular_of_value? {exponent : Exponent} {value : Int}
    (reads : exponent.value? = some value) : exponent.Regular := by
  simp only [Exponent.value?, bind, Option.bind_eq_some_iff] at reads
  obtain ⟨_, filled, size, digits, -⟩ := reads
  exact ⟨(Option.guard_eq_some' _).mp filled, fun c => isDigit_of_decimal? digits⟩

structure Literal.Regular (literal : Literal) : Prop where
  some_mantissa : literal.mantissa ≠ []
  mantissa : ∀ c ∈ literal.mantissa, startsLiteral c = true
  exponent : ∀ exponent ∈ literal.exponent, exponent.Regular

theorem mem_around_point {mantissa : List Char} {c : Char} (mem : c ∈ mantissa) :
    c ∈ mantissa.takeWhile (· ≠ '.') ++ (mantissa.dropWhile (· ≠ '.')).drop 1 ∨ c = '.' := by
  rw [← List.takeWhile_append_dropWhile (p := (· ≠ '.')) (l := mantissa)] at mem
  rcases List.mem_append.mp mem with whole | tail
  · exact .inl (List.mem_append.mpr (.inl whole))
  · match h : mantissa.dropWhile (· ≠ '.') with
    | [] =>
      rw [h] at tail
      cases tail
    | point :: fraction =>
      have isPoint := List.head?_dropWhile_not (· ≠ '.') mantissa
      rw [h] at tail isPoint
      rcases List.mem_cons.mp tail with rfl | later
      · exact .inr (by simpa using isPoint)
      · exact .inl (List.mem_append.mpr (.inr later))

theorem Literal.regular_of_value? {literal : Literal} {value : Float}
    (reads : literal.value? = some value) : literal.Regular := by
  simp only [Literal.value?, bind, Option.bind_eq_some_iff] at reads
  obtain ⟨_, filled, coefficient, digits, scaled⟩ := reads
  refine ⟨fun none => ?_, fun c mem => ?_, fun exponent given => ?_⟩
  · exact (Option.guard_eq_some' _).mp filled (by rw [none]; rfl)
  · rcases mem_around_point mem with digit | rfl
    · exact startsLiteral_of_isDigit (isDigit_of_decimal? digits digit)
    · rfl
  · rw [Option.mem_def.mp given] at scaled
    obtain ⟨size, power, -⟩ := Option.bind_eq_some_iff.mp scaled
    exact Exponent.regular_of_value? power

theorem Exponent.Regular.mem_text {exponent : Exponent} (regular : exponent.Regular) {c : Char}
    (mem : c ∈ exponent.text) : isDigit c = true ∨ c = 'E' ∨ c = '-' := by
  rcases List.mem_cons.mp mem with mark | behind
  · exact .inr (.inl mark)
  · split at behind
    · rcases List.mem_cons.mp behind with sign | digit
      · exact .inr (.inr sign)
      · exact .inl (regular.digits c digit)
    · exact .inl (regular.digits c behind)

theorem Literal.Regular.mem_text {literal : Literal} (regular : literal.Regular) {c : Char}
    (mem : c ∈ literal.text) : startsLiteral c = true ∨ c = 'E' ∨ c = '-' := by
  obtain ⟨mantissa, exponent⟩ := literal
  rcases List.mem_append.mp mem with whole | scaled
  · exact .inl (regular.mantissa c whole)
  · cases exponent with
    | none => cases scaled
    | some exponent =>
      exact ((regular.exponent exponent rfl).mem_text scaled).imp_left startsLiteral_of_isDigit

theorem takeWhile_append_of_stop {p : Char → Bool} {run rest : List Char}
    (inside : ∀ c ∈ run, p c = true) (stop : ∀ c ∈ rest.head?, p c = false) :
    (run ++ rest).takeWhile p = run := by
  rw [List.takeWhile_append_of_pos inside]
  cases rest with
  | nil => simp
  | cons c rest => simp [stop c rfl]

theorem dropWhile_append_of_stop {p : Char → Bool} {run rest : List Char}
    (inside : ∀ c ∈ run, p c = true) (stop : ∀ c ∈ rest.head?, p c = false) :
    (run ++ rest).dropWhile p = rest := by
  rw [List.dropWhile_append_of_pos inside]
  cases rest with
  | nil => rfl
  | cons c rest => simp [stop c rfl]

def EndsLiteral (rest : List Char) : Prop :=
  ∀ c ∈ rest.head?, startsLiteral c = false ∧ c ≠ 'E'

theorem EndsLiteral.scan {rest : List Char} (ends : EndsLiteral rest) :
    Literal.scan rest = ⟨[], none⟩ := by
  cases rest with
  | nil => rfl
  | cons c rest =>
    obtain ⟨stop, unmarked⟩ := ends c rfl
    simp only [Literal.scan, List.takeWhile_cons, List.dropWhile_cons, stop, Bool.false_eq_true,
      if_false]
    split <;> simp_all

theorem Literal.scan_append_of_stop {run rest : List Char}
    (inside : ∀ c ∈ run, startsLiteral c = true)
    (stop : ∀ c ∈ rest.head?, startsLiteral c = false) :
    Literal.scan (run ++ rest) = { Literal.scan rest with mantissa := run } := by
  have none : ∀ c ∈ ([] : List Char), startsLiteral c = true := nofun
  have left := dropWhile_append_of_stop none stop
  rw [List.nil_append] at left
  simp only [scan, takeWhile_append_of_stop inside stop, dropWhile_append_of_stop inside stop, left]
  split <;> rfl

theorem Literal.scan_of_plain {text : List Char} (plain : ∀ c ∈ text, startsLiteral c = true) :
    Literal.scan text = ⟨text, none⟩ := by
  have whole : scan (text ++ []) = _ := scan_append_of_stop plain nofun
  rwa [List.append_nil] at whole

theorem stop_of_takeWhile_append {p : Char → Bool} {run rest : List Char}
    (whole : (run ++ rest).takeWhile p = run) : ∀ c ∈ rest.head?, p c = false := by
  have inside : ∀ c ∈ run, p c = true := by
    rw [← whole]
    exact fun c mem => List.mem_takeWhile_imp mem
  rw [List.takeWhile_append_of_pos inside] at whole
  cases rest with
  | nil => exact nofun
  | cons c rest =>
    rintro _ ⟨rfl⟩
    exact Bool.eq_false_iff.mpr fun more => by simp [more] at whole

theorem Literal.mantissa_scan (text : List Char) :
    (Literal.scan text).mantissa = text.takeWhile startsLiteral := by
  unfold Literal.scan
  split <;> rfl

theorem Literal.exponent_scan_of_mark (rest : List Char) :
    (Literal.scan ('E' :: rest)).exponent ≠ none := by
  unfold Literal.scan
  split
  case h_1 | h_2 => simp
  case h_3 other => exact absurd rfl (other rest)

theorem Exponent.Regular.scan_append {exponent : Exponent} (regular : exponent.Regular)
    (rest : List Char) :
    Literal.scan (exponent.text ++ rest) =
      ⟨[], some { exponent with digits := (exponent.digits ++ rest).takeWhile isDigit }⟩ := by
  obtain ⟨negative, digits⟩ := exponent
  cases negative with
  | true => rfl
  | false =>
    obtain ⟨first, more, rfl⟩ := List.exists_cons_of_ne_nil regular.some_digit
    have unsigned : first ≠ '-' := by
      rintro rfl
      exact absurd (regular.digits _ (List.mem_cons_self ..)) (by decide)
    change Literal.scan ('E' :: (first :: more ++ rest)) = _
    unfold Literal.scan
    split
    case h_1 signed => exact absurd (List.cons.inj (List.cons.inj signed).2).1 unsigned
    case h_2 marked => rw [← (List.cons.inj marked).2]; rfl
    case h_3 other => exact absurd rfl (other _)

/-- What may stand behind a literal: with an exponent anything but one more digit, and without one
nothing that goes on with the mantissa or marks an exponent. -/
def Literal.EndsBefore (literal : Literal) (rest : List Char) : Prop :=
  match literal.exponent with
  | none => EndsLiteral rest
  | some _ => ∀ c ∈ rest.head?, isDigit c = false

theorem EndsLiteral.endsBefore {rest : List Char} (ends : EndsLiteral rest) (literal : Literal) :
    literal.EndsBefore rest := by
  unfold Literal.EndsBefore
  split
  · exact ends
  · intro c front
    exact Bool.eq_false_iff.mpr fun digit =>
      Bool.eq_false_iff.mp (ends c front).1 (startsLiteral_of_isDigit digit)

/-- One character tells where a literal ends, so that it also ends before less of the same. -/
theorem Literal.EndsBefore.of_prefix {literal : Literal} {rest shorter : List Char}
    (ends : literal.EndsBefore rest) (front : shorter <+: rest) : literal.EndsBefore shorter := by
  cases shorter with
  | nil =>
    have nothing : EndsLiteral [] := nofun
    exact nothing.endsBefore literal
  | cons c shorter =>
    obtain ⟨more, rfl⟩ := front
    exact ends

theorem Literal.Regular.scan_append_iff {literal : Literal} (regular : literal.Regular)
    {rest : List Char} :
    Literal.scan (literal.text ++ rest) = literal ↔ literal.EndsBefore rest := by
  obtain ⟨mantissa, exponent⟩ := literal
  cases exponent with
  | none =>
    simp only [Literal.text, Option.map_none, Option.getD_none, List.append_nil,
      Literal.EndsBefore]
    constructor
    · intro scanned
      have run := Literal.mantissa_scan (mantissa ++ rest)
      rw [scanned] at run
      have stop := stop_of_takeWhile_append run.symm
      refine fun c front => ⟨stop c front, ?_⟩
      rintro rfl
      obtain ⟨more, rfl⟩ := List.head?_eq_some_iff.mp front
      rw [Literal.scan_append_of_stop regular.mantissa stop] at scanned
      exact Literal.exponent_scan_of_mark more (congrArg Literal.exponent scanned)
    · intro ends
      rw [Literal.scan_append_of_stop regular.mantissa fun c front => (ends c front).1, ends.scan]
  | some exponent =>
    have exponentRegular := regular.exponent exponent rfl
    have scanned : Literal.scan (mantissa ++ (exponent.text ++ rest)) = _ :=
      Literal.scan_append_of_stop regular.mantissa (by rintro c ⟨rfl⟩; decide)
    rw [exponentRegular.scan_append] at scanned
    simp only [Literal.text, Option.map_some, Option.getD_some, List.append_assoc, scanned,
      Literal.EndsBefore]
    constructor
    · intro same
      have run := congrArg Exponent.digits (Option.some.inj (Literal.mk.inj same).2)
      exact stop_of_takeWhile_append run
    · intro stop
      rw [takeWhile_append_of_stop exponentRegular.digits stop]

theorem Literal.Regular.scan_append {literal : Literal} (regular : literal.Regular)
    {rest : List Char} (ends : EndsLiteral rest) :
    Literal.scan (literal.text ++ rest) = literal :=
  regular.scan_append_iff.mpr (ends.endsBefore literal)

end FormulaLayout.Number
