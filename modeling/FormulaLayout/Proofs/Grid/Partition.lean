import FormulaLayout.Proofs.Grid.Edges
import FormulaLayout.Proofs.Grid.Gaps

/-! Sharing out a strip without gaps. The cells line up from the origin on and no length is below
zero. Only the far edge is in question: it multiplies the extent by the total weight and divides by
it again, and comes back to the extent exactly when the product was not rounded down too far. -/
namespace FormulaLayout.Grid
open Number Number.Amount
variable {α : Type}

theorem two_pow_clog_lt {n : ℕ} (positive : 0 < n) : 2 ^ Nat.clog 2 n < 2 * n := by
  obtain rfl | more : n = 1 ∨ 1 < n := by omega
  · simp
  · have below := Nat.pow_pred_clog_lt_self one_lt_two more
    have : Nat.clog 2 n ≠ 0 := (Nat.clog_pos one_lt_two more).ne'
    calc
      2 ^ Nat.clog 2 n = 2 * 2 ^ (Nat.clog 2 n - 1) := by
        rw [← pow_succ', Nat.sub_one_add_one this]
      _ < 2 * n := Nat.mul_lt_mul_of_pos_left below two_pos

theorem whole_le_nearest_iff {n : ℕ} (positive : 0 < n) (bound : n ≤ 2 ^ 31) (x : ℚ) :
    (n : ℚ) ≤ nearest x ↔ n - 2 ^ Nat.clog 2 n / 2 ^ 54 ≤ x := by
  have top : n ≤ 2 ^ Nat.clog 2 n := Nat.le_pow_clog one_lt_two n
  have least : Nat.clog 2 n ≤ 31 := Nat.clog_le_of_le_pow bound
  have above := two_pow_clog_lt positive
  generalize Nat.clog 2 n = log at top least above ⊢
  obtain ⟨rest, whole, some⟩ : ∃ rest, rest + log = 53 ∧ 1 ≤ rest :=
    ⟨53 - log, by omega, by omega⟩
  have scale : 2 ^ rest * 2 ^ log = 2 ^ 53 := by rw [← pow_add, whole]
  have scale' : (2 : ℚ) ^ rest * 2 ^ log = 2 ^ 53 := by exact_mod_cast scale
  have unit : (2 : ℚ) ^ (-rest : ℤ) = 2 ^ log / 2 ^ 53 := by
    rw [zpow_neg, zpow_natCast, ← scale']
    field_simp
  have exact : ((n * 2 ^ rest : ℕ) : ℤ) * (2 : ℚ) ^ (-rest : ℤ) = n := by
    rw [unit, ← scale']
    push_cast
    field_simp
  have even : ((n * 2 ^ rest : ℕ) : ℤ) % 2 = 0 := by
    obtain ⟨less, rfl⟩ : ∃ less, rest = less + 1 := ⟨rest - 1, by omega⟩
    rw [pow_succ, ← mul_assoc]
    omega
  have low : (2 : ℤ) ^ 52 < (n * 2 ^ rest : ℕ) := by
    have : 2 ^ rest * 2 ^ log < 2 ^ rest * (2 * n) :=
      Nat.mul_lt_mul_of_pos_left above (Nat.two_pow_pos rest)
    have : 2 ^ 52 < n * 2 ^ rest := by linarith
    exact_mod_cast this
  have high : ((n * 2 ^ rest : ℕ) : ℤ) ≤ 2 ^ 53 := by
    have : n * 2 ^ rest ≤ 2 ^ log * 2 ^ rest := Nat.mul_le_mul_right _ top
    have : n * 2 ^ rest ≤ 2 ^ 53 := by linarith
    exact_mod_cast this
  have reached := le_nearest_iff even low high (k := -rest) (by omega) x
  have half : (((n * 2 ^ rest : ℕ) : ℤ) - 1 / 2 : ℚ) * 2 ^ (-rest : ℤ) =
      n - 2 ^ log / 2 ^ 54 := by
    rw [sub_mul, exact, unit]
    ring
  rwa [exact, half] at reached

/-- The extent comes back from the multiplication and the division by the total: the product was
exact, or short of exact by no more than the quotient rounds away. A total or a product too large
for a float leaves only the extents that an infinity is cut to. -/
def Recovers (extent : ℤ) (total : Float) : Prop :=
  extent = 0 ∨ ∃ t, value? total = some t ∧
    match value? (ofWhole extent * total) with
    | none => extent = pixelMax
    | some product => 2 ^ 54 * (extent * t - product) ≤ 2 ^ Nat.clog 2 extent.toNat * t

theorem nearest_quotient_le {n : ℕ} {t p : ℚ} (bound : n ≤ 2 ^ 31) (some : 0 < t) (fits : Fits t)
    (product : p = nearest (n * t)) : nearest (p / t) ≤ n + 1 / 2 := by
  have bound' : (n : ℚ) ≤ 2 ^ 31 := by exact_mod_cast bound
  have fits' : Fits (n + 1 / 2) :=
    ⟨2 * n + 1, -1, by rw [abs_of_nonneg] <;> omega, by norm_num, by push_cast; ring⟩
  refine nearest_le_of_fits fits' ((div_le_iff₀ some).mpr ?_)
  obtain ⟨m, k, -, least, rfl⟩ := fits
  have whole : (n : ℚ) * (m * 2 ^ k) =
      ((n * m * 2 ^ (k - -1074).toNat : ℤ) : ℚ) * 2 ^ (-1074 : ℤ) := by
    rw [two_zpow_eq_units least]
    generalize (2 : ℚ) ^ (-1074 : ℤ) = unit
    push_cast
    ring
  have error := (abs_le.mp (abs_nearest_sub_le_of_whole whole)).2
  rw [← product, abs_of_nonneg (by positivity)] at error
  have := mul_le_mul_of_nonneg_right bound' some.le
  linarith

theorem floor_nearest_quotient {n : ℕ} {t p : ℚ} (positive : 0 < n) (bound : n ≤ 2 ^ 31)
    (some : 0 < t) (fits : Fits t) (product : p = nearest (n * t)) :
    ⌊nearest (p / t)⌋ = n ↔ 2 ^ 54 * (n * t - p) ≤ 2 ^ Nat.clog 2 n * t := by
  have upper := nearest_quotient_le bound some fits product
  have least : ⌊nearest (p / t)⌋ = n ↔ (n : ℚ) ≤ nearest (p / t) := by
    rw [Int.floor_eq_iff]
    push_cast
    constructor
    · exact fun h => h.1
    · exact fun h => ⟨h, by linarith⟩
  rw [least, whole_le_nearest_iff positive bound, le_div_iff₀ some]
  constructor <;> intro h <;> nlinarith

theorem pixels_quotient {n : ℕ} {t p : ℚ≥0} (sized : n ≤ pixelMax) (some : t ≠ 0) (fits : Fits t)
    (product : rounded ((n * t : ℚ≥0) : Amount) = p) :
    pixels (rounded (quotient p t)) = ⌊nearest (p / t)⌋ ∧ ⌊nearest (p / t : ℚ)⌋ ≤ n := by
  have bound : n ≤ 2 ^ 31 := by
    simp only [pixelMax] at sized
    omega
  have rounds := coe_of_rounded_eq product
  push_cast at rounds
  have size : (0 : ℚ) < t := by exact_mod_cast NNRat.coe_pos.mpr (pos_iff_ne_zero.mpr some)
  have upper := nearest_quotient_le bound size fits rounds
  have n_le : (n : ℚ) ≤ 2 ^ 31 := by exact_mod_cast bound
  have small : nearest ((p / t : ℚ≥0) : ℚ) < 2 ^ (1024 : ℤ) := calc
    nearest ((p / t : ℚ≥0) : ℚ) = nearest (p / t) := by rw [NNRat.coe_div]
    _ < 2 ^ (32 : ℤ) := by norm_num; linarith
    _ ≤ 2 ^ (1024 : ℤ) := zpow_le_zpow_right₀ (by norm_num) (by norm_num)
  have floor_le : ⌊nearest (p / t : ℚ)⌋ ≤ n := by
    rw [← Int.lt_add_one_iff, Int.floor_lt]
    push_cast
    linarith
  rw [coe_quotient_coe some, rounded_coe, if_pos small, pixels_coe, coe_nearestAmount,
    NNRat.coe_div]
  exact ⟨min_eq_left (floor_le.trans sized), floor_le⟩

theorem recovers_iff {extent : ℕ} {total : Float} {amount : Amount} (sized : extent ≤ pixelMax)
    (known : IsAmount total amount) (some : amount ≠ 0) :
    pixels (rounded (quotient (rounded (rounded (extent : ℚ≥0) * amount)) amount)) = extent ↔
      Recovers extent total := by
  have bound : extent ≤ 2 ^ 31 := by
    simp only [pixelMax] at sized
    omega
  have converted : IsAmount (ofWhole extent) (extent : ℚ≥0) := by
    have := isAmount_ofWhole (n := extent) (by omega)
    rwa [Int.toNat_natCast, rounded_natCast (by omega)] at this
  rw [rounded_natCast (by omega)]
  obtain rfl | positive : extent = 0 ∨ 0 < extent := by omega
  · refine iff_of_true ?_ (.inl rfl)
    have none : ((0 : ℕ) : ℚ≥0) = 0 := Nat.cast_zero
    rw [none, WithTop.coe_zero, zero_mul, rounded_zero, zero_quotient, rounded_zero]
    rfl
  have nonzero : (extent : ℤ) ≠ 0 := by omega
  have nonzero' : ((extent : ℚ≥0) : Amount) ≠ 0 := by exact_mod_cast positive.ne'
  simp only [Recovers, nonzero, false_or, Int.toNat_natCast]
  induction amount using WithTop.recTopCoe with
  | top =>
    rw [quotient_top, rounded_zero]
    refine iff_of_false (fun h => nonzero h.symm) ?_
    rintro ⟨t, value, -⟩
    have infinite : unpack total = .infinity .positive := known
    simp [value?, infinite, unpackedValue?] at value
  | coe t =>
    have value : value? total = Option.some (t : ℚ) := known
    have some' : t ≠ 0 := by simpa using some
    have product := isAmount_mul converted known
    rw [← WithTop.coe_mul]
    generalize rounding : rounded (((extent : ℚ≥0) * t : ℚ≥0) : Amount) = rest at product ⊢
    induction rest using WithTop.recTopCoe with
    | top =>
      have infinite : unpack (ofWhole extent * total) = .infinity .positive := product
      simp only [value?, infinite, unpackedValue?]
      constructor
      · intro h
        exact ⟨t, value, h.symm⟩
      · rintro ⟨_, _, h⟩
        exact h.symm
    | coe p =>
      have exact : value? (ofWhole extent * total) = Option.some (p : ℚ) := product
      have rounds := coe_of_rounded_eq rounding
      push_cast at rounds
      have fits := (fits_of_value value).1
      have size : (0 : ℚ) < t := by
        have := NNRat.coe_pos.mpr (pos_iff_ne_zero.mpr some')
        exact_mod_cast this
      have floor := floor_nearest_quotient positive bound size fits rounds
      rw [(pixels_quotient sized some' fits rounding).1, floor, exact]
      constructor
      · exact fun h => ⟨t, value, h⟩
      · rintro ⟨t', value', h⟩
        rw [value] at value'
        cases value'
        exact h

def Positive (x : Float) : Prop := ∃ q, value? x = some q ∧ 0 < q

theorem positive_iff (x : Float) : Positive x ↔ (value? x).any (0 < ·) = true := by
  unfold Positive
  cases value? x <;> simp

instance (x : Float) : Decidable (Positive x) := decidable_of_iff _ (positive_iff x).symm

theorem Positive.isAmount {x : Float} (h : Positive x) : ∃ a, IsAmount x a ∧ a ≠ 0 := by
  obtain ⟨q, value, positive⟩ := h
  lift q to ℚ≥0 using positive.le
  exact ⟨(q : Amount), value, WithTop.coe_ne_zero.mpr (NNRat.coe_pos.mp positive).ne'⟩

/-- Positive weights share a strip without gaps, and each index has a cell that resolves. -/
structure Shared (grid : Grid α) (parent : PixelRect) (axis : Axis) (strip : Strip)
    (starts lengths : Nat → Int) : Prop where
  known : grid.strip parent axis = .ok strip
  gapless : strip.gap = 0
  sized : strip.extent ≤ pixelMax
  nonempty : 0 < grid.bounds.get axis
  positive : ∀ index < grid.bounds.get axis, Positive (grid.weight axis index)
  resolved : ∀ index < grid.bounds.get axis,
    Resolved grid parent axis index (starts index) (lengths index)

structure LinesUp (strip : Strip) (count : Nat) (starts lengths : Nat → Int) : Prop where
  first : starts 0 = strip.origin
  next : ∀ index, index + 1 < count → starts (index + 1) = starts index + lengths index
  sizes : ∀ index < count, 0 ≤ lengths index

structure Partitions (strip : Strip) (count : Nat) (starts lengths : Nat → Int) : Prop
    extends LinesUp strip count starts lengths where
  last : starts (count - 1) + lengths (count - 1) = strip.origin + strip.extent
  total : ∑ index ∈ Finset.range count, lengths index = strip.extent

theorem Shared.edges {grid : Grid α} {parent : PixelRect} {axis : Axis} {strip : Strip}
    {starts lengths : Nat → Int} (h : Shared grid parent axis strip starts lengths) {index : Nat}
    (below : index < grid.bounds.get axis) :
    starts index = strip.origin + grid.edge axis strip.extent 0 index ∧
      lengths index =
        grid.edge axis strip.extent 0 (index + 1) - grid.edge axis strip.extent 0 index := by
  obtain ⟨strip', known, span⟩ := (h.resolved index below).span
  rw [h.known] at known
  cases known
  simp only [spanIn, Grid.span, h.gapless, Prod.mk.injEq] at span
  omega

theorem Shared.amounts {grid : Grid α} {parent : PixelRect} {axis : Axis} {strip : Strip}
    {starts lengths : Nat → Int} (h : Shared grid parent axis strip starts lengths) :
    ∃ amounts : ℕ → Amount,
      (∀ index < grid.bounds.get axis, IsAmount (grid.weight axis index) (amounts index)) ∧
        runningAmount amounts (grid.bounds.get axis) ≠ 0 := by
  obtain ⟨amounts, spec⟩ := exists_amounts fun index below => (h.positive index below).isAmount
  refine ⟨amounts, fun index below => (spec index below).1, ?_⟩
  obtain ⟨first, some⟩ := spec 0 h.nonempty
  have one : runningAmount amounts 1 = amounts 0 := by
    rw [runningAmount, runningAmount, zero_add]
    exact CountsAs.rounded_eq (.inl first)
  have least := runningAmount_mono amounts h.nonempty
  intro none
  rw [none] at least
  exact some (one.symm.trans (nonpos_iff_eq_zero.mp least))

theorem Shared.far_edge_iff {grid : Grid α} {parent : PixelRect} {axis : Axis} {strip : Strip}
    {starts lengths : Nat → Int} (h : Shared grid parent axis strip starts lengths) :
    grid.edge axis strip.extent 0 (grid.bounds.get axis) = strip.extent ↔
      Recovers strip.extent (grid.weightSum axis (grid.bounds.get axis)) := by
  obtain ⟨amounts, weights, some⟩ := h.amounts
  have sized := extent_nonneg h.known
  have total : IsAmount (grid.weightSum axis (grid.bounds.get axis))
    (runningAmount amounts (grid.bounds.get axis)) := isAmount_prefixSum weights
  have recovers := @recovers_iff strip.extent.toNat _ _ (by have := h.sized; omega) total some
  rw [Int.toNat_of_nonneg sized] at recovers
  rw [edge_of_amounts weights sized le_rfl]
  exact recovers

theorem Shared.linesUp {grid : Grid α} {parent : PixelRect} {axis : Axis} {strip : Strip}
    {starts lengths : Nat → Int} (h : Shared grid parent axis strip starts lengths) :
    LinesUp strip (grid.bounds.get axis) starts lengths := by
  obtain ⟨amounts, weights, -⟩ := h.amounts
  have sized := extent_nonneg h.known
  refine ⟨?_, ?_, ?_⟩
  · rw [(h.edges h.nonempty).1, edge_zero, add_zero]
  · intro index below
    have here := h.edges (Nat.lt_of_succ_lt below)
    have next := h.edges below
    omega
  · intro index below
    have ordered := edge_le_edge weights sized (Nat.le_succ index) below
    have here := h.edges below
    change grid.edge axis strip.extent 0 index ≤ grid.edge axis strip.extent 0 (index + 1) at ordered
    omega

/-- Cells without gaps always line up. They reach the end of the strip, and so partition it,
exactly when the extent comes back from the total. -/
theorem lines_up_and_partitions_iff (operations : List (Operation α)) {parent : PixelRect}
    {axis : Axis} {strip : Strip} {starts lengths : Nat → Int}
    (shared : Shared (run operations) parent axis strip starts lengths) :
    LinesUp strip ((run operations).bounds.get axis) starts lengths ∧
      (Partitions strip ((run operations).bounds.get axis) starts lengths ↔
        Recovers strip.extent
          ((run operations).weightSum axis ((run operations).bounds.get axis))) := by
  have linesUp := shared.linesUp
  have far := shared.far_edge_iff
  have edges := fun {index} => @Shared.edges _ _ _ _ _ _ _ shared index
  have some := shared.nonempty
  generalize (run operations).bounds.get axis = count at *
  obtain ⟨count, rfl⟩ : ∃ rest, count = rest + 1 := ⟨count - 1, by omega⟩
  have reach : ∑ index ∈ Finset.range (count + 1), lengths index =
      (run operations).edge axis strip.extent 0 (count + 1) := by
    have each : ∀ index ∈ Finset.range (count + 1), lengths index =
        (run operations).edge axis strip.extent 0 (index + 1) -
          (run operations).edge axis strip.extent 0 index :=
      fun index listed => (edges (Finset.mem_range.mp listed)).2
    rw [Finset.sum_congr rfl each,
      Finset.sum_range_sub fun index => (run operations).edge axis strip.extent 0 index,
      edge_zero, sub_zero]
  have final := edges (Nat.lt_succ_self count)
  refine ⟨linesUp, ?_⟩
  rw [← far]
  constructor
  · intro parts
    rw [← reach, parts.total]
  · intro whole
    refine ⟨linesUp, ?_, reach.trans whole⟩
    rw [Nat.add_sub_cancel]
    omega

def unevenColumns : List (Operation Unit) :=
  [.place ⟨0, 0⟩ (), .place ⟨1, 0⟩ (), .setWeight .x 1 2]

theorem uneven_columns_partition :
    ∃ starts lengths : Nat → Int,
      Shared (run unevenColumns) ⟨0, 0, 100, 1⟩ .x ⟨0, 100, 0⟩ starts lengths ∧
        Partitions ⟨0, 100, 0⟩ 2 starts lengths := by
  have shared : Shared (run unevenColumns) ⟨0, 0, 100, 1⟩ .x ⟨0, 100, 0⟩
      (fun index => if index = 0 then 0 else 33) (fun index => if index = 0 then 33 else 67) := by
    refine ⟨by decide +kernel, rfl, by decide, by decide, by decide +kernel, ?_⟩
    intro index below
    obtain rfl | rfl : index = 0 ∨ index = 1 := by
      change index < 2 at below
      omega
    · exact ⟨⟨0, 0⟩, ⟨0, 0, 33, 1⟩, by decide, rfl, by decide +kernel, rfl, rfl⟩
    · exact ⟨⟨1, 0⟩, ⟨33, 0, 67, 1⟩, by decide, rfl, by decide +kernel, rfl, rfl⟩
  have total : value? ((run unevenColumns).weightSum .x 2) = some 3 := by decide +kernel
  have product : value? (ofWhole 100 * (run unevenColumns).weightSum .x 2) = some 300 := by
    decide +kernel
  refine ⟨_, _, shared, (lines_up_and_partitions_iff unevenColumns shared).2.mpr ?_⟩
  refine .inr ⟨3, total, ?_⟩
  change match value? (ofWhole 100 * (run unevenColumns).weightSum .x 2) with
    | none => (100 : Int) = pixelMax
    | some product => 2 ^ 54 * (((100 : Int) : ℚ) * 3 - product) ≤ 2 ^ Nat.clog 2 100 * 3
  rw [product]
  norm_num

def narrowColumn : List (Operation Unit) := [.place ⟨0, 0⟩ (), .setWeight .x 0 0.7]

/-- The column leaves the last of three pixels uncovered, since three times its weight is rounded
down. -/
theorem narrow_column_falls_short :
    ¬∀ (operations : List (Operation Unit)) (parent : PixelRect) (axis : Axis) (strip : Strip)
      (starts lengths : Nat → Int),
      Shared (run operations) parent axis strip starts lengths →
        Partitions strip ((run operations).bounds.get axis) starts lengths := by
  intro all
  have shared : Shared (run narrowColumn) ⟨0, 0, 3, 1⟩ .x ⟨0, 3, 0⟩ (fun _ => 0) (fun _ => 2) := by
    refine ⟨by decide +kernel, rfl, by decide, by decide, by decide +kernel, ?_⟩
    intro index below
    obtain rfl : index = 0 := by
      change index < 1 at below
      omega
    exact ⟨⟨0, 0⟩, ⟨0, 0, 2, 1⟩, by decide, rfl, by decide +kernel, rfl, rfl⟩
  have last := (all narrowColumn ⟨0, 0, 3, 1⟩ .x ⟨0, 3, 0⟩ _ _ shared).last
  exact absurd last (by decide)

end FormulaLayout.Grid
