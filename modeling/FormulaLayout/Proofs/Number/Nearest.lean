import Mathlib.Data.Int.Log
import Mathlib.Data.Rat.Floor
import Mathlib.Tactic.Linarith
import Mathlib.Tactic.Positivity
import Mathlib.Tactic.Ring
import Mathlib.Tactic.FieldSimp
import Mathlib.Tactic.GCongr

/-! Rounding of exact numbers. A number is scaled so that its last kept place is the unit, cut to
the nearest whole number with ties to even, and scaled back: 53 places are kept, and none below
`2 ^ (-1074)`. Range is not limited here. Rounding is monotone and leaves alone what fits. -/
namespace FormulaLayout.Number

def nearestWhole (x : ℚ) : ℤ :=
  if x - ⌊x⌋ < 1 / 2 then ⌊x⌋
  else if 1 / 2 < x - ⌊x⌋ then ⌊x⌋ + 1
  else ⌊x⌋ + ⌊x⌋ % 2

theorem nearestWhole_bounds (x : ℚ) :
    x - 1 / 2 ≤ nearestWhole x ∧ (nearestWhole x : ℚ) ≤ x + 1 / 2 := by
  have low := Int.floor_le x
  have high := Int.lt_floor_add_one x
  unfold nearestWhole
  split_ifs with below above
  · constructor <;> linarith
  · push_cast
    constructor <;> linarith
  · have half : x - ⌊x⌋ = 1 / 2 := le_antisymm (not_lt.mp above) (not_lt.mp below)
    rcases Int.emod_two_eq_zero_or_one ⌊x⌋ with even | odd
    · rw [even]
      push_cast
      constructor <;> linarith
    · rw [odd]
      push_cast
      constructor <;> linarith

theorem le_nearestWhole {n : ℤ} {x : ℚ} (h : (n : ℚ) ≤ x) : n ≤ nearestWhole x := by
  have floor : n ≤ ⌊x⌋ := Int.le_floor.mpr h
  have := Int.emod_nonneg ⌊x⌋ (by decide : (2 : ℤ) ≠ 0)
  unfold nearestWhole
  split_ifs <;> omega

theorem nearestWhole_le {n : ℤ} {x : ℚ} (h : x ≤ n) : nearestWhole x ≤ n := by
  have floor : ⌊x⌋ ≤ n := by
    exact_mod_cast (Int.floor_le x).trans h
  have := Int.emod_lt_of_pos ⌊x⌋ (by decide : (0 : ℤ) < 2)
  rcases floor.lt_or_eq with less | same
  · unfold nearestWhole
    split_ifs <;> omega
  · have whole : x - ⌊x⌋ = 0 := by
      have := Int.floor_le x
      rw [same] at this ⊢
      linarith
    simp only [nearestWhole, whole]
    norm_num [same]

@[simp] theorem nearestWhole_intCast (n : ℤ) : nearestWhole n = n :=
  le_antisymm (nearestWhole_le le_rfl) (le_nearestWhole le_rfl)

theorem nearestWhole_mono {x y : ℚ} (h : x ≤ y) : nearestWhole x ≤ nearestWhole y := by
  rcases (Int.floor_le_floor h).lt_or_eq with less | same
  · calc
      nearestWhole x ≤ ⌊x⌋ + 1 := nearestWhole_le (by exact_mod_cast (Int.lt_floor_add_one x).le)
      _ ≤ ⌊y⌋ := less
      _ ≤ nearestWhole y := le_nearestWhole (Int.floor_le y)
  · have := Int.emod_nonneg ⌊y⌋ (by decide : (2 : ℤ) ≠ 0)
    have := Int.emod_lt_of_pos ⌊y⌋ (by decide : (0 : ℤ) < 2)
    unfold nearestWhole
    rw [same]
    split_ifs <;> first | omega | linarith

theorem even_le_nearestWhole_iff {n : ℤ} (even : n % 2 = 0) (x : ℚ) :
    n ≤ nearestWhole x ↔ n - 1 / 2 ≤ x := by
  constructor
  · intro h
    have bound := (nearestWhole_bounds x).2
    have : (n : ℚ) ≤ nearestWhole x := by exact_mod_cast h
    linarith
  · intro h
    rcases le_or_gt (n : ℚ) x with above | below
    · exact le_nearestWhole above
    · have floor : ⌊x⌋ = n - 1 := by
        rw [Int.floor_eq_iff]
        push_cast
        constructor <;> linarith
      unfold nearestWhole
      rw [floor]
      push_cast
      split_ifs with less more
      · linarith
      · omega
      · omega

theorem nearestWhole_eq {n : ℤ} {x : ℚ} (near : |x - n| ≤ 1 / 2)
    (tie : |x - n| = 1 / 2 → n % 2 = 0) : nearestWhole x = n := by
  obtain ⟨low, high⟩ := abs_le.mp near
  obtain ⟨lower, upper⟩ := nearestWhole_bounds x
  rcases lt_trichotomy (nearestWhole x) n with less | same | more
  · have less' : (nearestWhole x : ℚ) + 1 ≤ n := by exact_mod_cast less
    have even := tie (abs_eq (by norm_num) |>.mpr (.inr (by linarith)))
    exact absurd ((even_le_nearestWhole_iff even x).mpr (by linarith)) (not_le.mpr less)
  · exact same
  · have more' : (n : ℚ) + 1 ≤ nearestWhole x := by exact_mod_cast more
    have half : x = n + 1 / 2 := by linarith
    have even := tie (abs_eq (by norm_num) |>.mpr (.inl (by linarith)))
    have floor : ⌊x⌋ = n := by
      rw [half, Int.floor_eq_iff]
      constructor <;> linarith
    simp only [nearestWhole, floor]
    rw [half]
    norm_num
    omega

theorem nearestWhole_tie {x : ℚ} (h : |x - nearestWhole x| = 1 / 2) :
    nearestWhole x % 2 = 0 := by
  by_contra odd
  have other : (nearestWhole x - 1) % 2 = 0 ∧ (nearestWhole x + 1) % 2 = 0 := by omega
  rcases (abs_eq (by norm_num)).mp h with above | below
  · have := (even_le_nearestWhole_iff other.2 x).mpr (by push_cast; linarith)
    omega
  · have := nearestWhole_eq (n := nearestWhole x - 1) (x := x)
      (by rw [abs_le]; push_cast; constructor <;> linarith) fun _ => other.1
    omega

theorem nearestWhole_neg (x : ℚ) : nearestWhole (-x) = -nearestWhole x := by
  have mirrored : |-x - (-nearestWhole x : ℤ)| = |x - nearestWhole x| := by
    rw [← abs_neg]
    congr 1
    push_cast
    ring
  obtain ⟨lower, upper⟩ := nearestWhole_bounds x
  apply nearestWhole_eq
  · rw [mirrored, abs_le]
    constructor <;> linarith
  · intro half
    have := nearestWhole_tie (mirrored ▸ half)
    omega

def lastPlace (x : ℚ) : ℤ := max (Int.log 2 |x| - 52) (-1074)

def nearest (x : ℚ) : ℚ := nearestWhole (x / 2 ^ lastPlace x) * 2 ^ lastPlace x

theorem two_zpow_pos (k : ℤ) : (0 : ℚ) < 2 ^ k := zpow_pos (by norm_num) k

theorem two_zpow_add (j k : ℤ) : (2 : ℚ) ^ (j + k) = 2 ^ j * 2 ^ k :=
  zpow_add₀ (by norm_num) j k

theorem two_zpow_eq_units {j k : ℤ} (h : k ≤ j) :
    (2 : ℚ) ^ j = ((2 ^ (j - k).toNat : ℤ) : ℚ) * 2 ^ k := by
  push_cast
  rw [← zpow_natCast, ← two_zpow_add]
  congr 1
  omega

@[simp] theorem nearest_zero : nearest 0 = 0 := by
  have zero : nearestWhole 0 = 0 := by exact_mod_cast nearestWhole_intCast 0
  simp [nearest, zero]

theorem nearest_neg (x : ℚ) : nearest (-x) = -nearest x := by
  simp only [nearest, lastPlace, abs_neg, neg_div, nearestWhole_neg, Int.cast_neg, neg_mul]

theorem units_le_nearest {n : ℤ} {x : ℚ} (h : n * 2 ^ lastPlace x ≤ x) :
    n * 2 ^ lastPlace x ≤ nearest x := by
  have scaled : (n : ℚ) ≤ x / 2 ^ lastPlace x := (le_div_iff₀ (two_zpow_pos _)).mpr h
  have : (n : ℚ) ≤ nearestWhole (x / 2 ^ lastPlace x) := by
    exact_mod_cast le_nearestWhole scaled
  exact mul_le_mul_of_nonneg_right this (two_zpow_pos _).le

theorem nearest_le_units {n : ℤ} {x : ℚ} (h : x ≤ n * 2 ^ lastPlace x) :
    nearest x ≤ n * 2 ^ lastPlace x := by
  have scaled : x / 2 ^ lastPlace x ≤ n := (div_le_iff₀ (two_zpow_pos _)).mpr h
  have : (nearestWhole (x / 2 ^ lastPlace x) : ℚ) ≤ n := by
    exact_mod_cast nearestWhole_le scaled
  exact mul_le_mul_of_nonneg_right this (two_zpow_pos _).le

theorem two_zpow_le_nearest {k : ℤ} {x : ℚ} (place : lastPlace x ≤ k) (h : 2 ^ k ≤ x) :
    2 ^ k ≤ nearest x := by
  rw [two_zpow_eq_units place] at h ⊢
  exact units_le_nearest h

theorem nearest_le_two_zpow {k : ℤ} {x : ℚ} (place : lastPlace x ≤ k) (h : x ≤ 2 ^ k) :
    nearest x ≤ 2 ^ k := by
  rw [two_zpow_eq_units place] at h ⊢
  exact nearest_le_units h

theorem nearest_nonneg {x : ℚ} (h : 0 ≤ x) : 0 ≤ nearest x := by
  simpa using units_le_nearest (n := 0) (by simpa using h)

private theorem log_le_log {x y : ℚ} (positive : 0 < x) (h : x ≤ y) :
    Int.log 2 |x| ≤ Int.log 2 |y| := by
  rw [abs_of_pos positive, abs_of_pos (positive.trans_le h)]
  exact Int.log_mono_right positive h

private theorem nearest_mono_of_pos {x y : ℚ} (positive : 0 < x) (h : x ≤ y) :
    nearest x ≤ nearest y := by
  have logs := log_le_log positive h
  have xAbs := abs_of_pos positive
  have yAbs := abs_of_pos (positive.trans_le h)
  rcases (max_le_max_right (-1074) (Int.sub_le_sub_right logs 52)).eq_or_lt with same | finer
  · change lastPlace x = lastPlace y at same
    unfold nearest
    rw [same]
    have scaled : x / 2 ^ lastPlace y ≤ y / 2 ^ lastPlace y :=
      div_le_div_of_nonneg_right h (two_zpow_pos _).le
    have : (nearestWhole (x / 2 ^ lastPlace y) : ℚ) ≤ nearestWhole (y / 2 ^ lastPlace y) := by
      exact_mod_cast nearestWhole_mono scaled
    exact mul_le_mul_of_nonneg_right this (two_zpow_pos _).le
  · -- a power of two lies between the two, and neither rounding passes it
    change lastPlace x < lastPlace y at finer
    have coarse : lastPlace y = Int.log 2 |y| - 52 := by
      unfold lastPlace at finer ⊢
      omega
    have gap : Int.log 2 |x| + 1 ≤ Int.log 2 |y| := by
      unfold lastPlace at finer
      omega
    have xBelow : x ≤ 2 ^ (Int.log 2 |y|) := by
      have := Int.lt_zpow_succ_log_self (b := 2) (by norm_num) x
      rw [Nat.cast_ofNat, ← xAbs] at this
      rw [xAbs] at this gap
      exact this.le.trans (zpow_le_zpow_right₀ (by norm_num) gap)
    have yAbove : 2 ^ (Int.log 2 |y|) ≤ y := by
      have := Int.zpow_log_le_self (b := 2) (by norm_num) (positive.trans_le h)
      rw [yAbs]
      exact_mod_cast this
    exact (nearest_le_two_zpow (by omega) xBelow).trans
      (two_zpow_le_nearest (by omega) yAbove)

theorem nearest_mono {x y : ℚ} (h : x ≤ y) : nearest x ≤ nearest y := by
  rcases lt_trichotomy x 0 with negative | rfl | positive
  · rcases lt_or_ge y 0 with below | above
    · have := nearest_mono_of_pos (neg_pos.mpr below) (neg_le_neg h)
      rw [nearest_neg, nearest_neg] at this
      exact neg_le_neg_iff.mp this
    · have := nearest_nonneg (neg_pos.mpr negative).le
      rw [nearest_neg] at this
      exact (neg_nonneg.mp this).trans (nearest_nonneg above)
  · simpa using nearest_nonneg h
  · exact nearest_mono_of_pos positive h

/-- A number with at most 53 places, none of them below the last that exists. -/
def Fits (x : ℚ) : Prop := ∃ (n : ℤ) (k : ℤ), |n| ≤ 2 ^ 53 ∧ -1074 ≤ k ∧ x = n * 2 ^ k

theorem Fits.neg {x : ℚ} (h : Fits x) : Fits (-x) := by
  obtain ⟨n, k, bound, least, rfl⟩ := h
  exact ⟨-n, k, by rwa [abs_neg], least, by push_cast; ring⟩

theorem fits_intCast {n : ℤ} (h : |n| ≤ 2 ^ 53) : Fits n := ⟨n, 0, h, by norm_num, by simp⟩

theorem fits_two_zpow {k : ℤ} (least : -1074 ≤ k) : Fits (2 ^ k) :=
  ⟨1, k, by norm_num, least, by simp⟩

theorem lastPlace_le_of_lt {x : ℚ} {k : ℤ} (nonzero : x ≠ 0) (h : |x| < 2 ^ (k + 53))
    (least : -1074 ≤ k) : lastPlace x ≤ k := by
  have := (Int.lt_zpow_iff_log_lt (b := 2) (by norm_num) (abs_pos.mpr nonzero)).mp
    (by exact_mod_cast h)
  unfold lastPlace
  omega

theorem lastPlace_eq {x : ℚ} {k : ℤ} (low : 2 ^ (k + 52) ≤ x) (high : x < 2 ^ (k + 53))
    (least : -1074 ≤ k) : lastPlace x = k := by
  have positive : 0 < x := (two_zpow_pos _).trans_le low
  have above := (Int.zpow_le_iff_le_log (b := 2) (by norm_num) positive).mp
    (by exact_mod_cast low)
  have below := lastPlace_le_of_lt positive.ne' (by rwa [abs_of_pos positive]) least
  unfold lastPlace at below ⊢
  rw [abs_of_pos positive] at below ⊢
  omega

theorem abs_lt_two_zpow_lastPlace (x : ℚ) : |x| < 2 ^ (lastPlace x + 53) := by
  have := Int.lt_zpow_succ_log_self (b := 2) (by norm_num) |x|
  rw [Nat.cast_ofNat] at this
  refine this.trans_le (zpow_le_zpow_right₀ (by norm_num) ?_)
  unfold lastPlace
  omega

theorem nearest_units {n k : ℤ} (place : lastPlace (n * 2 ^ k) ≤ k) :
    nearest (n * 2 ^ k) = n * 2 ^ k := by
  generalize lastPlace_eq : lastPlace (n * 2 ^ k) = j at place
  rw [nearest, lastPlace_eq, two_zpow_eq_units place, ← mul_assoc, ← Int.cast_mul,
    mul_div_cancel_right₀ _ (two_zpow_pos j).ne', nearestWhole_intCast]

theorem nearest_of_fits {x : ℚ} (h : Fits x) : nearest x = x := by
  obtain ⟨n, k, bound, least, rfl⟩ := h
  have scale := two_zpow_pos k
  rcases eq_or_ne n 0 with rfl | nonzero
  · simp
  have nonzero' : (n * 2 ^ k : ℚ) ≠ 0 := mul_ne_zero (by exact_mod_cast nonzero) scale.ne'
  have size : |(n * 2 ^ k : ℚ)| = |n| * 2 ^ k := by
    rw [abs_mul, abs_of_pos scale, Int.cast_abs]
  rcases bound.lt_or_eq with less | full
  · apply nearest_units
    refine lastPlace_le_of_lt nonzero' ?_ least
    rw [size, add_comm, two_zpow_add]
    exact mul_lt_mul_of_pos_right (by exact_mod_cast less) scale
  · -- the mantissa is full, one more place is kept in front of it
    obtain ⟨half, rfl⟩ : ∃ half, n = half * 2 := by
      have : n % 2 = 0 := by
        rcases abs_choice n with same | flipped <;> omega
      exact ⟨n / 2, by omega⟩
    have shifted : ((half * 2 : ℤ) * 2 ^ k : ℚ) = half * 2 ^ (k + 1) := by
      rw [two_zpow_add]
      push_cast
      ring
    rw [shifted] at nonzero' size ⊢
    apply nearest_units
    refine lastPlace_le_of_lt nonzero' ?_ (by omega)
    rw [size, full, show k + 1 + 53 = (53 : ℤ) + k + 1 by ring, two_zpow_add, two_zpow_add]
    push_cast
    have := two_zpow_pos (53 + k)
    linarith

theorem fits_nearest (x : ℚ) : Fits (nearest x) := by
  refine ⟨nearestWhole (x / 2 ^ lastPlace x), lastPlace x, ?_, le_max_right _ _, rfl⟩
  have bound : |x / 2 ^ lastPlace x| < 2 ^ (53 : ℤ) := by
    rw [abs_div, abs_of_pos (two_zpow_pos _), div_lt_iff₀ (two_zpow_pos _), ← two_zpow_add,
      add_comm]
    exact abs_lt_two_zpow_lastPlace x
  rw [abs_lt] at bound
  rw [abs_le]
  constructor
  · exact le_nearestWhole (by push_cast; exact bound.1.le)
  · exact nearestWhole_le (by push_cast; exact bound.2.le)

theorem nearest_le_of_fits {x r : ℚ} (fits : Fits r) (h : x ≤ r) : nearest x ≤ r :=
  (nearest_mono h).trans_eq (nearest_of_fits fits)

theorem abs_nearest_sub_le (x : ℚ) : |nearest x - x| ≤ 2 ^ lastPlace x / 2 := by
  obtain ⟨lower, upper⟩ := nearestWhole_bounds (x / 2 ^ lastPlace x)
  have scale := two_zpow_pos (lastPlace x)
  have exact : x = x / 2 ^ lastPlace x * 2 ^ lastPlace x := (div_mul_cancel₀ _ scale.ne').symm
  have error : nearest x - x =
      (nearestWhole (x / 2 ^ lastPlace x) - x / 2 ^ lastPlace x) * 2 ^ lastPlace x := by
    rw [sub_mul, ← exact]
    rfl
  have half : |(nearestWhole (x / 2 ^ lastPlace x) : ℚ) - x / 2 ^ lastPlace x| ≤ 1 / 2 := by
    rw [abs_le]
    constructor <;> linarith
  rw [error, abs_mul, abs_of_pos scale]
  have := mul_le_mul_of_nonneg_right half scale.le
  linarith

theorem abs_nearest_sub_le_of_whole {x : ℚ} {n : ℤ} (whole : x = n * 2 ^ (-1074 : ℤ)) :
    |nearest x - x| ≤ |x| / 2 ^ 53 := by
  rcases eq_or_ne x 0 with rfl | nonzero
  · simp
  by_cases least : lastPlace x = -1074
  · rw [whole] at least ⊢
    rw [nearest_units least.le, sub_self, abs_zero]
    positivity
  · have place : lastPlace x = Int.log 2 |x| - 52 := by
      unfold lastPlace at least ⊢
      omega
    have low := Int.zpow_log_le_self (b := 2) (by norm_num) (abs_pos.mpr nonzero)
    rw [Nat.cast_ofNat] at low
    have error := abs_nearest_sub_le x
    rw [place, zpow_sub₀ (by norm_num)] at error
    norm_num at error ⊢
    linarith

theorem le_nearest_iff {n k : ℤ} (even : n % 2 = 0) (low : 2 ^ 52 < n) (high : n ≤ 2 ^ 53)
    (least : -1074 ≤ k) (x : ℚ) : n * 2 ^ k ≤ nearest x ↔ (n - 1 / 2) * 2 ^ k ≤ x := by
  have scale := two_zpow_pos k
  have low' : (2 : ℚ) ^ 52 + 1 ≤ n := by exact_mod_cast low
  have high' : (n : ℚ) ≤ 2 ^ 53 := by exact_mod_cast high
  have units (y : ℚ) (place : lastPlace y = k) :
      n * 2 ^ k ≤ nearest y ↔ (n - 1 / 2) * 2 ^ k ≤ y := by
    rw [nearest, place, mul_le_mul_iff_left₀ scale, Int.cast_le, even_le_nearestWhole_iff even,
      le_div_iff₀ scale]
  have binade (y : ℚ) (above : 2 ^ 52 * 2 ^ k ≤ y) (below : y < n * 2 ^ k) :
      lastPlace y = k := by
    refine lastPlace_eq ?_ ?_ least
    · rwa [add_comm, two_zpow_add]
    · rw [add_comm, two_zpow_add]
      exact below.trans_le (mul_le_mul_of_nonneg_right high' scale.le)
  constructor
  · intro h
    by_contra short
    rw [not_le] at short
    have below : x < n * 2 ^ k := by nlinarith
    rcases le_or_gt (2 ^ 52 * 2 ^ k) x with above | under
    · exact short.not_ge ((units x (binade x above below)).mp h)
    · have fits : Fits (2 ^ 52 * 2 ^ k) := by
        have := fits_two_zpow (k := 52 + k) (by omega)
        rwa [two_zpow_add] at this
      have := nearest_le_of_fits fits under.le
      nlinarith
  · intro h
    have half : (n - 1 / 2 : ℚ) * 2 ^ k < n * 2 ^ k := by nlinarith
    have place := binade ((n - 1 / 2) * 2 ^ k) (by nlinarith) half
    exact ((units _ place).mpr le_rfl).trans (nearest_mono h)

end FormulaLayout.Number
