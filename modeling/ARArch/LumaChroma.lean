import Mathlib.Algebra.Order.Field.Basic
import Mathlib.Algebra.Order.Group.MinMax
import Mathlib.Tactic.FieldSimp
import Mathlib.Tactic.LinearCombination
import Mathlib.Tactic.Linarith
import Mathlib.Tactic.Ring

/-!
# Luma and chroma in fixed point

A colour is given by its luma, a weighted mean of red, green and blue, and by how far blue and red
are from it. A conversion in fixed point rounds by a shift and saturates at the ends of the range.
-/

namespace LumaChroma

/-! ### The weights -/

structure Color (K : Type) where
  red : K
  green : K
  blue : K

/-- The luma of a colour, and its blue and red differences. -/
structure Signal (K : Type) where
  luma : K
  cb : K
  cr : K

/-- The shares of red, green and blue in the luma. -/
structure Weights (K : Type) [Field K] where
  red : K
  green : K
  blue : K
  sum_eq_one : red + green + blue = 1
  red_ne_one : 1 - red ≠ 0
  green_ne_zero : green ≠ 0
  blue_ne_one : 1 - blue ≠ 0

namespace Weights

variable {K : Type} [Field K] [CharZero K]

def luma (k : Weights K) (c : Color K) : K :=
  k.red * c.red + k.green * c.green + k.blue * c.blue

/-- The differences are scaled to the range of the colours. -/
def encode (k : Weights K) (c : Color K) : Signal K where
  luma := k.luma c
  cb := (c.blue - k.luma c) / (2 * (1 - k.blue))
  cr := (c.red - k.luma c) / (2 * (1 - k.red))

def decode (k : Weights K) (s : Signal K) : Color K where
  red := s.luma + 2 * (1 - k.red) * s.cr
  green := s.luma - 2 * (1 - k.blue) * k.blue / k.green * s.cb -
    2 * (1 - k.red) * k.red / k.green * s.cr
  blue := s.luma + 2 * (1 - k.blue) * s.cb

theorem decode_encode (k : Weights K) (c : Color K) : k.decode (k.encode c) = c := by
  have hr := k.red_ne_one
  have hg := k.green_ne_zero
  have hb := k.blue_ne_one
  have hred : (k.decode (k.encode c)).red = c.red := by
    simp only [decode, encode]
    field_simp
    ring
  have hblue : (k.decode (k.encode c)).blue = c.blue := by
    simp only [decode, encode]
    field_simp
    ring
  have hgreen : (k.decode (k.encode c)).green = c.green := by
    simp only [decode, encode]
    field_simp
    rw [luma]
    linear_combination (k.red * c.red + k.green * c.green + k.blue * c.blue) * k.sum_eq_one
  calc k.decode (k.encode c)
      = ⟨(k.decode (k.encode c)).red, (k.decode (k.encode c)).green,
          (k.decode (k.encode c)).blue⟩ := rfl
    _ = c := by rw [hred, hgreen, hblue]

end Weights

/-! ### Rounding and saturation -/

section

variable {K : Type} [Field K] [LinearOrder K] [IsStrictOrderedRing K]

/-- A shift behind the addition of one half rounds to a nearest integer. -/
theorem abs_shift_sub_le (n : ℤ) (k : ℕ) :
    |(((n + 2 ^ k) >>> (k + 1) : ℤ) : K) - n / 2 ^ (k + 1)| ≤ 1 / 2 := by
  have hpos : (0 : ℤ) < 2 ^ k * 2 := by positivity
  have hhalf : (0 : K) < 2 ^ k := by positivity
  rw [Int.shiftRight_eq_div_pow, pow_succ, pow_succ]
  push_cast
  set q := (n + 2 ^ k) / (2 ^ k * 2)
  set r := (n + 2 ^ k) % (2 ^ k * 2)
  have hr : 0 ≤ r := Int.emod_nonneg _ hpos.ne'
  have hr' : r < 2 ^ k * 2 := Int.emod_lt_of_pos _ hpos
  have hsum : 2 ^ k * 2 * q + r = n + 2 ^ k := Int.mul_ediv_add_emod _ _
  have hcast : (2 : K) ^ k * 2 * q + r = n + 2 ^ k := by exact_mod_cast hsum
  have hle : (0 : K) ≤ r := by exact_mod_cast hr
  have hlt : (r : K) < 2 ^ k * 2 := by exact_mod_cast hr'
  have hrest : (q : K) - n / (2 ^ k * 2) = (2 ^ k - r) / (2 ^ k * 2) := by
    field_simp
    linear_combination hcast
  rw [hrest, abs_div, abs_of_pos (by positivity : (0 : K) < 2 ^ k * 2),
    div_le_div_iff₀ (by positivity) two_pos, one_mul]
  have habs : |(2 : K) ^ k - r| ≤ 2 ^ k := abs_le.mpr ⟨by linarith, by linarith⟩
  exact mul_le_mul_of_nonneg_right habs zero_le_two

end

section

variable {K : Type} [LinearOrder K] {lo hi a : K}

/-- The number of a range that is nearest to a number. -/
def saturate (lo hi a : K) : K := max lo (min hi a)

/-- What is in the range is itself its saturation. -/
theorem saturate_eq_self (hlo : lo ≤ a) (hhi : a ≤ hi) : saturate lo hi a = a := by
  rw [saturate, min_eq_right hhi, max_eq_right hlo]

theorem abs_saturate_sub_le [AddCommGroup K] [IsOrderedAddMonoid K] (lo hi a b : K) :
    |saturate lo hi a - saturate lo hi b| ≤ |a - b| := by
  have hmax : |saturate lo hi a - saturate lo hi b| ≤ max |lo - lo| |min hi a - min hi b| :=
    abs_max_sub_max_le_max _ _ _ _
  have hmin : |min hi a - min hi b| ≤ max |hi - hi| |a - b| := abs_min_sub_min_le_max _ _ _ _
  rw [sub_self, abs_zero] at hmax hmin
  rw [max_eq_right (abs_nonneg (min hi a - min hi b))] at hmax
  rw [max_eq_right (abs_nonneg (a - b))] at hmin
  exact hmax.trans hmin

end

end LumaChroma
