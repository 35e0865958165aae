import FormulaLayout.Proofs.Grid.Partition

/-! Whole-number weights. As long as the extent times the total weight stays below `2 ^ 53`, the
running sums and the products are exact and only the quotient is rounded. A quotient short of a
whole number is short of it by at least one part in the total, and that is more than the rounding
can make up for, so every edge is the exact one, cut to whole pixels. -/
namespace FormulaLayout.Grid
open Number Number.Amount
variable {α : Type}

theorem floor_nearest_div {part total extent : ℕ} (some : 0 < total)
    (most : part ≤ extent * total) (small : extent * total < 2 ^ 53) (bound : extent < 2 ^ 31) :
    ⌊nearest (part / total)⌋ = (part / total : ℕ) := by
  have some' : (0 : ℚ) < total := by exact_mod_cast some
  have least : ((part / total : ℕ) : ℚ) ≤ part / total := Nat.cast_div_le
  have short : part + 1 ≤ (part / total + 1) * total := by
    rw [Nat.succ_mul]
    exact Nat.lt_div_mul_add some
  have exact : part / total * total ≤ part := Nat.div_mul_le_self part total
  have whole_le : part / total ≤ extent := Nat.div_le_of_le_mul (by rwa [mul_comm])
  generalize part / total = whole at least short exact whole_le ⊢
  have fits : Fits (whole : ℤ) := fits_intCast (by rw [Nat.abs_cast]; omega)
  rw [Int.floor_eq_iff]
  constructor
  · rw [← nearest_of_fits fits]
    exact nearest_mono (by exact_mod_cast least)
  · rcases whole_le.eq_or_lt with rfl | less
    · -- all of the extent, which is no fraction
      have all : (part : ℚ) / total = (whole : ℤ) := by
        rw [div_eq_iff some'.ne']
        exact_mod_cast le_antisymm most exact
      rw [all, nearest_of_fits fits]
      exact lt_add_one _
    · by_contra! reached
      have scale : 2 ^ Nat.clog 2 (whole + 1) < 2 * (whole + 1) :=
        two_pow_clog_lt (Nat.succ_pos whole)
      have above : ((whole + 1 : ℕ) : ℚ) - 2 ^ Nat.clog 2 (whole + 1) / 2 ^ 54 ≤ part / total :=
        (whole_le_nearest_iff (Nat.succ_pos whole) (by omega) _).mp (by exact_mod_cast reached)
      generalize Nat.clog 2 (whole + 1) = log at scale above
      have tight : 2 ^ log * total < 2 ^ 54 := by
        have : 2 ^ log * total ≤ 2 * (whole + 1) * total := Nat.mul_le_mul_right _ scale.le
        have : (whole + 1) * total ≤ extent * total := Nat.mul_le_mul_right _ less
        linarith
      have tight' : (2 : ℚ) ^ log * total < 2 ^ 54 := by exact_mod_cast tight
      have short' : (part : ℚ) + 1 ≤ (whole + 1 : ℕ) * total := by exact_mod_cast short
      rw [le_div_iff₀ some', sub_mul] at above
      linarith

def weightBelow (weights : ℕ → ℕ) (index : ℕ) : ℕ := ∑ k ∈ Finset.range index, weights k

theorem weightBelow_succ (weights : ℕ → ℕ) (index : ℕ) :
    weightBelow weights (index + 1) = weightBelow weights index + weights index :=
  Finset.sum_range_succ ..

theorem weightBelow_mono (weights : ℕ → ℕ) : Monotone (weightBelow weights) :=
  monotone_nat_of_le_succ fun index => (weightBelow_succ weights index).symm ▸ Nat.le_add_right ..

theorem runningAmount_whole (weights : ℕ → ℕ) {count : ℕ}
    (small : weightBelow weights count ≤ 2 ^ 53) :
    runningAmount (fun k => ((weights k : ℚ≥0) : Amount)) count =
      ((weightBelow weights count : ℚ≥0) : Amount) := by
  induction count with
  | zero => rfl
  | succ count ih =>
    rw [runningAmount, ih ((weightBelow_mono weights (Nat.le_succ count)).trans small),
      ← WithTop.coe_add, ← Nat.cast_add, ← weightBelow_succ, rounded_natCast small]

structure Whole (grid : Grid α) (parent : PixelRect) (axis : Axis) (strip : Strip)
    (weights : ℕ → ℕ) : Prop where
  known : grid.strip parent axis = .ok strip
  gapless : strip.gap = 0
  sized : strip.extent ≤ pixelMax
  weighs : ∀ index < grid.bounds.get axis,
    value? (grid.weight axis index) = some (weights index : ℚ)
  nonzero : 1 ≤ weightBelow weights (grid.bounds.get axis)
  small : strip.extent * weightBelow weights (grid.bounds.get axis) < 2 ^ 53

def exactEdge (weights : ℕ → ℕ) (extent : ℤ) (count index : ℕ) : ℤ :=
  extent * weightBelow weights index / weightBelow weights count

theorem pixels_rounded_div {part total extent : ℕ} (some : 0 < total)
    (most : part ≤ extent * total) (small : extent * total < 2 ^ 53) (bound : extent ≤ pixelMax) :
    pixels (rounded (quotient (part : ℚ≥0) (total : ℚ≥0))) = (part / total : ℕ) := by
  have some' : (total : ℚ≥0) ≠ 0 := by exact_mod_cast some.ne'
  have below : extent < 2 ^ 31 := by
    simp only [pixelMax] at bound
    omega
  have floor := floor_nearest_div some most small below
  have whole_le : part / total ≤ extent := Nat.div_le_of_le_mul (by rwa [mul_comm])
  generalize part / total = whole at floor whole_le ⊢
  have finite : nearest ((part / total : ℚ≥0) : ℚ) < 2 ^ (1024 : ℤ) := by
    have above := Int.lt_floor_add_one (nearest ((part : ℚ) / total))
    rw [floor] at above
    have whole_le' : (whole : ℚ) ≤ 2 ^ 31 := by exact_mod_cast whole_le.trans below.le
    calc
      nearest ((part / total : ℚ≥0) : ℚ) = nearest ((part : ℚ) / total) := by push_cast; rfl
      _ < (whole : ℤ) + 1 := above
      _ ≤ 2 ^ (32 : ℤ) := by push_cast; linarith
      _ ≤ 2 ^ (1024 : ℤ) := zpow_le_zpow_right₀ (by norm_num) (by norm_num)
  rw [coe_quotient_coe some', rounded_coe, if_pos finite, pixels_coe, coe_nearestAmount]
  push_cast
  rw [floor]
  omega

theorem Whole.edge {grid : Grid α} {parent : PixelRect} {axis : Axis} {strip : Strip}
    {weights : ℕ → ℕ} (h : Whole grid parent axis strip weights) {index : ℕ}
    (below : index ≤ grid.bounds.get axis) :
    grid.edge axis strip.extent 0 index =
      exactEdge weights strip.extent (grid.bounds.get axis) index := by
  obtain ⟨known, -, sized, weighs, nonzero, small⟩ := h
  have positive := extent_nonneg known
  have amounts : ∀ k < grid.bounds.get axis,
      IsAmount (grid.weight axis k) ((weights k : ℚ≥0) : Amount) := fun k less => by
    change value? (grid.weight axis k) = some ((weights k : ℚ≥0) : ℚ)
    rw [weighs k less, NNRat.coe_natCast]
  have part_le := weightBelow_mono weights below
  rw [edge_of_amounts amounts positive below, exactEdge]
  lift strip.extent to ℕ using positive with extent
  rw [Int.toNat_natCast]
  rcases Nat.eq_zero_or_pos extent with rfl | some
  · -- nothing to share, whatever the weights
    have none : pixels 0 = 0 := by decide
    rw [Nat.cast_zero, WithTop.coe_zero, rounded_zero, zero_mul, rounded_zero, zero_quotient,
      rounded_zero, none]
    simp
  · have small' : extent * weightBelow weights (grid.bounds.get axis) < 2 ^ 53 := by
      exact_mod_cast small
    have total_le := Nat.le_mul_of_pos_left (weightBelow weights (grid.bounds.get axis)) some
    have product_le := Nat.mul_le_mul_left extent part_le
    have whole : extent ≤ 2 ^ 53 := by
      have := Nat.le_mul_of_pos_right extent nonzero
      omega
    rw [runningAmount_whole weights (by omega), runningAmount_whole weights (by omega),
      rounded_natCast whole, ← WithTop.coe_mul, ← Nat.cast_mul, rounded_natCast (by omega),
      pixels_rounded_div nonzero product_le small' sized]
    push_cast
    rfl

theorem Whole.spanIn {grid : Grid α} {parent : PixelRect} {axis : Axis} {strip : Strip}
    {weights : ℕ → ℕ} (h : Whole grid parent axis strip weights) {index : ℕ}
    (below : index < grid.bounds.get axis) :
    grid.spanIn axis strip index =
      (strip.origin + exactEdge weights strip.extent (grid.bounds.get axis) index,
        exactEdge weights strip.extent (grid.bounds.get axis) (index + 1) -
          exactEdge weights strip.extent (grid.bounds.get axis) index) := by
  have start := h.edge below.le
  have stop : _ = exactEdge weights strip.extent _ (index + 1) := h.edge (Nat.succ_le_of_lt below)
  simp only [Grid.spanIn, span, h.gapless, start, stop, Prod.mk.injEq, true_and]
  omega

theorem exactEdge_zero (weights : ℕ → ℕ) (extent : ℤ) (count : ℕ) :
    exactEdge weights extent count 0 = 0 := by
  simp [exactEdge, weightBelow]

theorem exactEdge_self {weights : ℕ → ℕ} {count : ℕ} (nonzero : 1 ≤ weightBelow weights count)
    (extent : ℤ) : exactEdge weights extent count count = extent :=
  Int.mul_ediv_cancel extent (by omega)

theorem ediv_add_sub_ediv_bounds (a b : ℤ) {n : ℤ} (positive : 0 < n) :
    b / n ≤ (a + b) / n - a / n ∧ (a + b) / n - a / n ≤ b / n + 1 := by
  have lower : (a / n + b / n) * n ≤ a + b := by
    have := Int.ediv_mul_le a positive.ne'
    have := Int.ediv_mul_le b positive.ne'
    linarith
  have upper : a + b < (a / n + b / n + 2) * n := by
    have := Int.lt_ediv_add_one_mul_self a positive
    have := Int.lt_ediv_add_one_mul_self b positive
    linarith
  have least := Int.le_ediv_of_mul_le positive lower
  have most := Int.ediv_lt_of_lt_mul positive upper
  omega

theorem exactEdge_of_equal {weights : ℕ → ℕ} {count weight index : ℕ} (extent : ℤ)
    (equal : ∀ k < count, weights k = weight) (nonzero : 1 ≤ weightBelow weights count)
    (below : index < count) :
    extent / count ≤
        exactEdge weights extent count (index + 1) - exactEdge weights extent count index ∧
      exactEdge weights extent count (index + 1) - exactEdge weights extent count index ≤
        extent / count + 1 := by
  have sum : ∀ k ≤ count, weightBelow weights k = k * weight := by
    intro k most
    rw [weightBelow, Finset.sum_congr rfl fun i listed =>
      equal i ((Finset.mem_range.mp listed).trans_le most), Finset.sum_const, Finset.card_range,
      smul_eq_mul]
  have some : 0 < (weight : ℤ) := by
    rw [sum count le_rfl] at nonzero
    exact_mod_cast Nat.pos_of_mul_pos_left nonzero
  have edge : ∀ k ≤ count, exactEdge weights extent count k = extent * k / count := by
    intro k most
    rw [exactEdge, sum k most, sum count le_rfl]
    push_cast
    rw [← mul_assoc, Int.mul_ediv_mul_of_pos_left _ _ some]
  have step : extent * (index + 1 : ℕ) = extent * index + extent := by
    push_cast
    ring
  rw [edge index below.le, edge (index + 1) below, step]
  exact ediv_add_sub_ediv_bounds _ _ (by omega)

theorem Resolved.spanIn_eq {grid : Grid α} {parent : PixelRect} {axis : Axis} {strip : Strip}
    {index : ℕ} {start length : Int} (h : Resolved grid parent axis index start length)
    (known : grid.strip parent axis = .ok strip) : grid.spanIn axis strip index = (start, length) := by
  obtain ⟨strip', known', span⟩ := h.span
  rw [known] at known'
  cases known'
  exact span

theorem exists_resolved {grid : Grid α} {parent : PixelRect} {cell : Cell} {axis : Axis}
    (occupied : grid.contains cell = true) (converts : grid.Converts parent cell)
    {strip strip' : Strip}
    (known : grid.strip parent axis = .ok strip)
    (known' : grid.strip parent axis.other = .ok strip') :
    ∃ start length, Resolved grid parent axis (cell.index axis) start length := by
  have strips : ∀ axis, ∃ strip, grid.strip parent axis = .ok strip := by
    cases axis with
    | x => exact Axis.forall_iff.mpr ⟨⟨strip, known⟩, strip', known'⟩
    | y => exact Axis.forall_iff.mpr ⟨⟨strip', known'⟩, strip, known⟩
  obtain ⟨rect, done⟩ := converts.exists_rect occupied strips
  exact ⟨_, _, cell, rect, occupied, rfl, done, rfl, rfl⟩

theorem Whole.resolved_eq {operations : List (Operation α)} {parent : PixelRect} {axis : Axis}
    {strip : Strip} {weights : ℕ → ℕ} (whole : Whole (run operations) parent axis strip weights)
    {index : ℕ} {start length : ℤ}
    (resolved : Resolved (run operations) parent axis index start length) :
    index < (run operations).bounds.get axis ∧
      start = strip.origin +
        exactEdge weights strip.extent ((run operations).bounds.get axis) index ∧
      length = exactEdge weights strip.extent ((run operations).bounds.get axis) (index + 1) -
        exactEdge weights strip.extent ((run operations).bounds.get axis) index := by
  have below : index < (run operations).bounds.get axis := by
    obtain ⟨cell, _, occupied, rfl, -⟩ := resolved
    exact within_run operations cell occupied axis
  have span := resolved.spanIn_eq whole.known
  rw [whole.spanIn below, Prod.mk.injEq] at span
  exact ⟨below, span.1.symm, span.2.symm⟩

/-- Every occupied index starts and ends at the exact edges, the lengths of all indices add up to
the extent, and with equal weights no two of them differ by more than a pixel. -/
theorem whole_weights_have_exact_edges {operations : List (Operation α)} {parent : PixelRect}
    {axis : Axis} {strip : Strip} {weights : ℕ → ℕ}
    (whole : Whole (run operations) parent axis strip weights) :
    (∀ cell strip', (run operations).contains cell = true →
      (run operations).Converts parent cell →
      (run operations).strip parent axis.other = .ok strip' →
        ∃ start length, Resolved (run operations) parent axis (cell.index axis) start length) ∧
      (∀ index start length, Resolved (run operations) parent axis index start length →
        start = strip.origin + strip.extent * weightBelow weights index /
            weightBelow weights ((run operations).bounds.get axis) ∧
          start + length = strip.origin + strip.extent * weightBelow weights (index + 1) /
            weightBelow weights ((run operations).bounds.get axis)) ∧
      (∀ lengths : ℕ → ℤ,
        (∀ index < (run operations).bounds.get axis,
          ∃ start, Resolved (run operations) parent axis index start (lengths index)) →
        ∑ index ∈ Finset.range ((run operations).bounds.get axis), lengths index =
          strip.extent) ∧
      ∀ weight, (∀ index < (run operations).bounds.get axis, weights index = weight) →
        ∀ index index' start start' length length',
          Resolved (run operations) parent axis index start length →
          Resolved (run operations) parent axis index' start' length' →
            |length - length'| ≤ 1 := by
  refine ⟨fun cell strip' occupied converts known' =>
    exists_resolved occupied converts whole.known known', ?_, ?_, ?_⟩
  · intro index start length resolved
    obtain ⟨-, rfl, rfl⟩ := whole.resolved_eq resolved
    refine ⟨rfl, ?_⟩
    rw [add_assoc, add_sub_cancel]
    rfl
  · intro lengths all
    have each : ∀ index ∈ Finset.range ((run operations).bounds.get axis), lengths index =
        exactEdge weights strip.extent ((run operations).bounds.get axis) (index + 1) -
          exactEdge weights strip.extent ((run operations).bounds.get axis) index := by
      intro index listed
      obtain ⟨start, resolved⟩ := all index (Finset.mem_range.mp listed)
      exact (whole.resolved_eq resolved).2.2
    rw [Finset.sum_congr rfl each, Finset.sum_range_sub (exactEdge weights strip.extent _),
      exactEdge_zero, sub_zero, exactEdge_self whole.nonzero]
  · intro weight equal index index' start start' length length' resolved resolved'
    obtain ⟨below, -, rfl⟩ := whole.resolved_eq resolved
    obtain ⟨below', -, rfl⟩ := whole.resolved_eq resolved'
    have bounds := exactEdge_of_equal strip.extent equal whole.nonzero below
    have bounds' := exactEdge_of_equal strip.extent equal whole.nonzero below'
    rw [abs_le]
    omega

def threeColumns : List (Operation Unit) :=
  [.place ⟨0, 0⟩ (), .place ⟨2, 0⟩ (), .reserve ⟨1, 0⟩, .setFrame (some "5") none]

/-- Of a hundred pixels within the frame the last column gets the one that is left over. -/
theorem threeColumns_share_hundred :
    Whole (run threeColumns) ⟨2, 0, 110, 1⟩ .x ⟨7, 100, 0⟩ (fun _ => 1) ∧
      Resolved (run threeColumns) ⟨2, 0, 110, 1⟩ .x 1 40 33 ∧
      Resolved (run threeColumns) ⟨2, 0, 110, 1⟩ .x 2 73 34 ∧
      (40 : ℤ) = 7 + 100 * weightBelow (fun _ => 1) 1 / weightBelow (fun _ => 1) 3 ∧
      |(33 : ℤ) - 34| ≤ 1 := by
  have whole : Whole (run threeColumns) ⟨2, 0, 110, 1⟩ .x ⟨7, 100, 0⟩ (fun _ => 1) := by
    refine ⟨by decide +kernel, rfl, by decide, ?_, by decide, by decide⟩
    decide +kernel
  have middle : Resolved (run threeColumns) ⟨2, 0, 110, 1⟩ .x 1 40 33 :=
    ⟨⟨1, 0⟩, ⟨40, 0, 33, 1⟩, by decide, rfl, by decide +kernel, rfl, rfl⟩
  have last : Resolved (run threeColumns) ⟨2, 0, 110, 1⟩ .x 2 73 34 :=
    ⟨⟨2, 0⟩, ⟨73, 0, 34, 1⟩, by decide, rfl, by decide +kernel, rfl, rfl⟩
  obtain ⟨-, edges, -, equal⟩ := whole_weights_have_exact_edges whole
  exact ⟨whole, middle, last, (edges 1 40 33 middle).1,
    equal 1 (fun _ _ => rfl) 1 2 40 73 33 34 middle last⟩

end FormulaLayout.Grid
