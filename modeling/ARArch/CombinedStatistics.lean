import ARArch.RunningStatistics
import Mathlib.Data.Int.ModEq

/-!
# Combining statistics in any order

For `uint64_t` the difference of the counts in the third moment wraps when the left operand is the
smaller one, so that the order of the operands matters. All divisors are powers of the sum of the
counts up to the third, modulo 2^64; an empty operand is no exception, but two are.
-/

namespace ARArch.RunningStatistics

/-- Statistics that a list of samples leads to. -/
def Reachable (s : RunningStatistics ℚ) : Prop :=
  ∃ samples, (fresh : RunningStatistics ℚ).feed uint64 samples = some s

/-- No divisor is zero when the counts have this sum. -/
def Addable (n : ℤ) : Prop := ¬(2 ^ 64 : ℤ) ∣ n ^ 3

instance (n : ℤ) : Decidable (Addable n) := inferInstanceAs (Decidable (¬(2 ^ 64 : ℤ) ∣ n ^ 3))

/-- Statistics can be combined in any order, each sum being defined. -/
structure AnyOrder (a b c : RunningStatistics ℚ) : Prop where
  comm : ∃ s t, add uint64 a b = some s ∧ add uint64 b a = some t ∧ s.toMoments = t.toMoments
  assoc : ∃ s t u v, add uint64 a b = some s ∧ add uint64 s c = some u ∧
    add uint64 b c = some t ∧ add uint64 a t = some v ∧ u.toMoments = v.toMoments
  fresh : ∃ s, add uint64 a fresh = some s ∧ s.toMoments = a.toMoments
  assign : addAssign uint64 a b = add uint64 a b

/-- What reachable statistics have in common. -/
structure Counted (a : Moments ℚ) : Prop where
  nonneg : 0 ≤ a.n
  lt : a.n < 2 ^ 64
  eq_zero : a.n = 0 → a = ⟨0, 0, 0, 0, 0⟩

variable {a b c s t : RunningStatistics ℚ} {sample : Sample ℚ} {samples : List (Sample ℚ)} {n : ℤ}

theorem uint64_nonneg : 0 ≤ uint64 n := Int.emod_nonneg n (by decide)

theorem uint64_lt : uint64 n < 2 ^ 64 := Int.emod_lt_of_pos n (by decide)

theorem uint64_eq_zero_iff : uint64 n = 0 ↔ (2 ^ 64 : ℤ) ∣ n :=
  (Int.dvd_iff_emod_eq_zero).symm

theorem uint64_modEq (n : ℤ) : uint64 n ≡ n [ZMOD 2 ^ 64] := Int.mod_modEq n (2 ^ 64)

theorem update_counted (h : s.update uint64 sample = some t) : Counted t.toMoments := by
  have hne : ((uint64 (s.n + 1) : ℤ) : ℚ) ≠ 0 := by
    intro hzero
    rw [update, hzero] at h
    simp [divide_zero] at h
  have hn : t.n = uint64 (s.n + 1) := by
    simp only [update, divide_of_ne hne] at h
    exact congrArg (fun s => s.n) (Option.some.inj h).symm
  refine ⟨?_, ?_, ?_⟩
  · rw [hn]
    exact uint64_nonneg
  · rw [hn]
    exact uint64_lt
  · intro hzero
    rw [hn] at hzero
    rw [hzero] at hne
    exact absurd Int.cast_zero hne

theorem feed_counted (hs : Counted s.toMoments) (h : s.feed uint64 samples = some t) :
    Counted t.toMoments := by
  induction samples generalizing s with
  | nil =>
    obtain rfl : s = t := Option.some.inj h
    exact hs
  | cons sample samples ih =>
    rw [feed_cons, Option.bind_eq_some_iff] at h
    obtain ⟨s', hupdate, hfeed⟩ := h
    exact ih (update_counted hupdate) hfeed

theorem Reachable.counted (h : Reachable s) : Counted s.toMoments := by
  obtain ⟨samples, hfeed⟩ := h
  exact feed_counted ⟨le_rfl, by decide, fun _ => rfl⟩ hfeed

theorem uint64_cube : uint64 (uint64 n * uint64 n * uint64 n) = 0 ↔ (2 ^ 64 : ℤ) ∣ n ^ 3 := by
  have h : uint64 n * uint64 n * uint64 n ≡ n ^ 3 [ZMOD 2 ^ 64] := by
    have hmul := ((uint64_modEq n).mul (uint64_modEq n)).mul (uint64_modEq n)
    rwa [show n * n * n = n ^ 3 by ring] at hmul
  rw [uint64_eq_zero_iff]
  exact h.dvd_iff

theorem divisors_iff : Divisors ℚ uint64 n ↔ Addable n := by
  constructor
  · intro h hdvd
    exact h.three (Int.cast_eq_zero.mpr (uint64_cube.mpr hdvd))
  · intro h
    have hthree : uint64 (uint64 n * uint64 n * uint64 n) ≠ 0 :=
      fun hzero => h (uint64_cube.mp hzero)
    have htwo : uint64 (uint64 n * uint64 n) ≠ 0 := by
      intro hzero
      apply hthree
      rw [uint64_eq_zero_iff] at hzero ⊢
      exact hzero.mul_right _
    have hone : uint64 n ≠ 0 := by
      intro hzero
      apply htwo
      rw [hzero]
      rfl
    exact ⟨Int.cast_ne_zero.mpr hone, Int.cast_ne_zero.mpr htwo, Int.cast_ne_zero.mpr hthree⟩

theorem Addable.ne_zero (h : Addable n) : n ≠ 0 := by
  rintro rfl
  exact h (by decide)

theorem addable_of_lt (hpos : 0 < n) (hlt : n ^ 3 < 2 ^ 64) : Addable n := by
  intro hdvd
  have hle : 2 ^ 64 ≤ n ^ 3 := Int.le_of_dvd (by positivity) hdvd
  omega

theorem addable_congr {m : ℤ} (h : m ≡ n [ZMOD 2 ^ 64]) : Addable m ↔ Addable n :=
  not_congr (h.pow 3).dvd_iff

theorem add_eq_some_iff : add uint64 a b = some s ↔
    Addable (a.n + b.n) ∧ s = ⟨combined uint64 a.toMoments b.toMoments, 0, 0⟩ := by
  constructor
  · intro h
    have hdivisors : Divisors ℚ uint64 (a.n + b.n) :=
      divisors_of_add (by rw [h, Option.isSome_some])
    refine ⟨divisors_iff.mp hdivisors, ?_⟩
    rw [add_of_divisors hdivisors] at h
    exact (Option.some.inj h).symm
  · rintro ⟨hadd, rfl⟩
    exact add_of_divisors (divisors_iff.mpr hadd)

section Combined

variable {a b c : Moments ℚ}

theorem combined_n : (combined uint64 a b).n = uint64 (a.n + b.n) := rfl

/-- The two operands differ in what the wrapped differences of the counts contribute. -/
theorem combined_M3_sub : (combined uint64 a b).M3 - (combined uint64 b a).M3 =
    (b.M1 - a.M1) ^ 3 * a.n * b.n * (uint64 (a.n - b.n) + uint64 (b.n - a.n) : ℤ) /
      (uint64 (uint64 (a.n + b.n) * uint64 (a.n + b.n)) : ℤ) := by
  simp only [combined, add_comm b.n a.n]
  push_cast
  ring

theorem uint64_sub_add_sub {m : ℤ} (hm : 0 ≤ m) (hm' : m < 2 ^ 64) (hn : 0 ≤ n) (hn' : n < 2 ^ 64) :
    uint64 (m - n) + uint64 (n - m) = if m = n then 0 else 2 ^ 64 := by
  unfold uint64
  split <;> omega

theorem combined_comm_iff (ha : Counted a) (hb : Counted b) (hadd : Addable (a.n + b.n)) :
    combined uint64 a b = combined uint64 b a ↔
      a.n = b.n ∨ a.n = 0 ∨ b.n = 0 ∨ a.M1 = b.M1 := by
  have htwo := (divisors_iff.mpr hadd).two
  have hsub := combined_M3_sub (a := a) (b := b)
  rw [uint64_sub_add_sub ha.nonneg ha.lt hb.nonneg hb.lt] at hsub
  have hM3 : combined uint64 a b = combined uint64 b a ↔
      (combined uint64 a b).M3 - (combined uint64 b a).M3 = 0 := by
    rw [sub_eq_zero]
    constructor
    · intro h
      rw [h]
    · intro h
      have hsquares : b.n * b.n - b.n * a.n + a.n * a.n = a.n * a.n - a.n * b.n + b.n * b.n := by
        ring
      refine Moments.ext ?_ ?_ ?_ h ?_ <;> simp only [combined, add_comm b.n a.n, hsquares] <;> ring
  rw [hM3, hsub]
  by_cases hn : a.n = b.n
  · rw [if_pos hn, Int.cast_zero, mul_zero, zero_div]
    exact iff_of_true rfl (.inl hn)
  · have hwrap : ((2 ^ 64 : ℤ) : ℚ) ≠ 0 := Int.cast_ne_zero.mpr (by decide)
    rw [if_neg hn, div_eq_zero_iff, or_iff_left htwo, mul_eq_zero, or_iff_left hwrap, mul_eq_zero,
      mul_eq_zero, pow_eq_zero_iff three_ne_zero, sub_eq_zero, Int.cast_eq_zero, Int.cast_eq_zero,
      or_iff_right hn, or_assoc, eq_comm]
    tauto

theorem Counted.uint64_n (ha : Counted a) : uint64 a.n = a.n :=
  Int.emod_eq_of_lt ha.nonneg ha.lt

theorem combined_empty_right (hn : uint64 a.n = a.n) (hadd : Addable a.n) :
    combined uint64 a ⟨0, 0, 0, 0, 0⟩ = a := by
  have hne : (a.n : ℚ) ≠ 0 := Int.cast_ne_zero.mpr hadd.ne_zero
  ext
  · rw [combined_n, add_zero, hn]
  · simp only [combined, add_zero, hn, Int.cast_zero, zero_mul]
    exact mul_div_cancel_left₀ _ hne
  · simp [combined]
  · simp [combined]
  · have hzero : uint64 0 = 0 := rfl
    simp [combined, hzero]

theorem combined_empty_left (hn : uint64 b.n = b.n) (hadd : Addable b.n) :
    combined uint64 ⟨0, 0, 0, 0, 0⟩ b = b := by
  have hne : (b.n : ℚ) ≠ 0 := Int.cast_ne_zero.mpr hadd.ne_zero
  ext
  · rw [combined_n, zero_add, hn]
  · simp only [combined, zero_add, hn, Int.cast_zero, zero_mul]
    exact mul_div_cancel_left₀ _ hne
  · simp [combined]
  · simp [combined]
  · have hzero : uint64 0 = 0 := rfl
    simp [combined, hzero]

/-- Of equal means only the sum of the counts goes wrong. -/
theorem combined_same_mean (hmean : a.M1 = b.M1) :
    combined uint64 a b = ⟨uint64 (a.n + b.n), (a.n + b.n : ℤ) * a.M1 / (uint64 (a.n + b.n) : ℤ),
      a.M2 + b.M2, a.M3 + b.M3, a.M4 + b.M4⟩ := by
  ext
  · exact combined_n
  · simp only [combined, hmean, Int.cast_add, add_mul]
  · simp [combined, hmean]
  · simp [combined, hmean]
  · simp [combined, hmean]

/-- The mean stays if it is zero, or if the sum of the counts does not wrap. -/
theorem mean_combined_same_mean (hmean : a.M1 = b.M1) (hpos : 0 < a.n + b.n)
    (h : a.M1 = 0 ∨ a.n + b.n < 2 ^ 64) : (combined uint64 a b).M1 = a.M1 := by
  rw [combined_same_mean hmean]
  rcases h with hzero | hlt
  · simp [hzero]
  · have hn : uint64 (a.n + b.n) = a.n + b.n := Int.emod_eq_of_lt hpos.le hlt
    have hne : ((a.n + b.n : ℤ) : ℚ) ≠ 0 := Int.cast_ne_zero.mpr hpos.ne'
    simp only [hn]
    exact mul_div_cancel_left₀ _ hne

theorem combined_M2 : (combined uint64 a b).M2 =
    a.M2 + b.M2 + (b.M1 - a.M1) ^ 2 * a.n * b.n / (uint64 (a.n + b.n) : ℤ) := rfl

/-- The counts of three operands add up in any order, modulo `2 ^ 64`. -/
theorem uint64_add_assoc (m n k : ℤ) :
    uint64 (uint64 (m + n) + k) = uint64 (m + uint64 (n + k)) := by
  unfold uint64
  omega

theorem wrapError_of_le (ha : a.n < 2 ^ 64) (hb : 0 ≤ b.n) (h : b.n ≤ a.n) :
    wrapError uint64 a b = 0 := by
  have hdiff : uint64 (a.n - b.n) - (a.n - b.n) = 0 := by
    unfold uint64
    omega
  rw [wrapError, hdiff, Int.cast_zero, mul_zero, zero_div]

theorem wrapError_of_lt (ha : 0 ≤ a.n) (hb : b.n < 2 ^ 64) (h : a.n < b.n) :
    wrapError uint64 a b =
      (b.M1 - a.M1) ^ 3 * a.n * b.n * 2 ^ 64 / (a.n + b.n) ^ 2 := by
  have hdiff : uint64 (a.n - b.n) - (a.n - b.n) = 2 ^ 64 := by
    unfold uint64
    omega
  rw [wrapError, hdiff]
  norm_num

theorem wrapError_same_mean (h : a.M1 = b.M1) : wrapError uint64 a b = 0 := by
  rw [wrapError, h, sub_self]
  simp

theorem wrapError_eq_zero_iff (ha : 0 < a.n) (hb : b.n < 2 ^ 64) (h : a.n < b.n) :
    wrapError uint64 a b = 0 ↔ a.M1 = b.M1 := by
  constructor
  · intro hzero
    have ha' : (0 : ℚ) < a.n := Int.cast_pos.mpr ha
    have hb' : (0 : ℚ) < b.n := Int.cast_pos.mpr (ha.trans h)
    rw [wrapError_of_lt ha.le hb h, div_eq_zero_iff, or_iff_left (pow_pos (add_pos ha' hb') 2).ne',
      mul_eq_zero, or_iff_left (by norm_num), mul_eq_zero, or_iff_left hb'.ne', mul_eq_zero,
      or_iff_left ha'.ne'] at hzero
    exact (sub_eq_zero.mp (eq_zero_of_pow_eq_zero hzero)).symm
  · exact wrapError_same_mean

/-- Non-empty statistics with counts whose sum is small enough for all products. -/
structure Small (a b c : Moments ℚ) : Prop where
  a_pos : 0 < a.n
  b_pos : 0 < b.n
  c_pos : 0 < c.n
  cube_lt : (a.n + b.n + c.n) ^ 3 < 2 ^ 64

theorem powerSums_combined (ha : 0 < a.n) (hb : 0 < b.n) (hlt : (a.n + b.n) ^ 3 < 2 ^ 64) :
    (combined uint64 a b).powerSums = a.powerSums + b.powerSums +
      (0, 0, 0, wrapError uint64 a b, 4 * (a.merge b).M1 * wrapError uint64 a b) := by
  have hne : (a.n + b.n : ℚ) ≠ 0 := by
    rw [← Int.cast_add]
    exact Int.cast_ne_zero.mpr (by omega)
  rw [combined_eq_merge exact_uint64 ha.le hb.le (by omega) hlt, Moments.powerSums_addM3,
    Moments.powerSums_merge hne]

/-- Non-empty statistics that may change places. -/
def Swappable (a b : Moments ℚ) : Prop := a.n = b.n ∨ a.M1 = b.M1

/-- The errors of wrapped differences cancel: all means are equal, or each left operand is the
larger one where it matters. -/
def Balanced (a b c : Moments ℚ) : Prop :=
  (a.M1 = b.M1 ∧ b.M1 = c.M1) ∨ (a.M1 = b.M1 ∧ c.n ≤ b.n ∧ b.n + c.n ≤ a.n) ∨
    (a.n = b.n ∧ c.n ≤ b.n ∧ (b.n + c.n) * a.M1 = b.n * b.M1 + c.n * c.M1)

/-- Equal halves, the last operand with the mean of the second. -/
theorem same_mean_of_half {d k r : ℚ} (hk : 0 < k) (hr : 0 < r)
    (h : (d / 2) ^ 3 * (k + k) * r * 2 ^ 64 / (k + k + r) ^ 2 =
      d ^ 3 * k * (k + r) * 2 ^ 64 / (k + (k + r)) ^ 2) : d = 0 := by
  have hne : (k + k + r) ^ 2 ≠ 0 := by positivity
  rw [← add_assoc k k r, div_left_inj' hne] at h
  have hprod : d ^ 3 * (k * (4 * k + 3 * r)) = 0 := by linear_combination -4 / 2 ^ 64 * h
  have hpos : k * (4 * k + 3 * r) ≠ 0 := by positivity
  exact eq_zero_of_pow_eq_zero ((mul_eq_zero_iff_right hpos).mp hprod)

/-- Equal halves, the first operand with the mean of the others. -/
theorem same_mean_of_middle {d k r : ℚ} (hk : 0 < k) (hr : 0 < r)
    (h : (d * (k + k + r) / (2 * (k + r))) ^ 3 * (k + k) * r * 2 ^ 64 / (k + k + r) ^ 2 =
      d ^ 3 * k * r * 2 ^ 64 / (k + r) ^ 2) : d = 0 := by
  have hprod : d ^ 3 * (2 * k + 3 * r) = 0 := by
    field_simp at h
    linear_combination -1 / 2 * h
  have hpos : 2 * k + 3 * r ≠ 0 := by positivity
  exact eq_zero_of_pow_eq_zero ((mul_eq_zero_iff_right hpos).mp hprod)

namespace Small

theorem cube_left (h : Small a b c) : (a.n + b.n) ^ 3 < 2 ^ 64 := by
  have hle : (a.n + b.n) ^ 3 ≤ (a.n + b.n + c.n) ^ 3 :=
    pow_le_pow_left₀ (by linarith [h.a_pos, h.b_pos]) (by linarith [h.c_pos]) 3
  exact hle.trans_lt h.cube_lt

theorem cube_right (h : Small a b c) : (b.n + c.n) ^ 3 < 2 ^ 64 := by
  have hle : (b.n + c.n) ^ 3 ≤ (a.n + b.n + c.n) ^ 3 :=
    pow_le_pow_left₀ (by linarith [h.b_pos, h.c_pos]) (by linarith [h.a_pos]) 3
  exact hle.trans_lt h.cube_lt

theorem lt (h : Small a b c) : a.n + b.n + c.n < 2 ^ 64 := by
  have hpos : 0 < a.n + b.n + c.n := by linarith [h.a_pos, h.b_pos, h.c_pos]
  have hle : a.n + b.n + c.n ≤ (a.n + b.n + c.n) ^ 3 := le_self_pow₀ hpos (by decide)
  exact hle.trans_lt h.cube_lt

theorem combined_left (h : Small a b c) : (combined uint64 a b).n = a.n + b.n ∧
    (combined uint64 a b).M1 = (a.n * a.M1 + b.n * b.M1) / (a.n + b.n) := by
  have hpos := h.a_pos
  have hpos' := h.b_pos
  rw [combined_eq_merge exact_uint64 hpos.le hpos'.le (by omega) h.cube_left]
  exact ⟨rfl, rfl⟩

theorem combined_right (h : Small a b c) : (combined uint64 b c).n = b.n + c.n ∧
    (combined uint64 b c).M1 = (b.n * b.M1 + c.n * c.M1) / (b.n + c.n) := by
  have hpos := h.b_pos
  have hpos' := h.c_pos
  rw [combined_eq_merge exact_uint64 hpos.le hpos'.le (by omega) h.cube_right]
  exact ⟨rfl, rfl⟩

/-- The mean of all samples. -/
def meanOf (a b c : Moments ℚ) : ℚ :=
  (a.n * a.M1 + b.n * b.M1 + c.n * c.M1) / (a.n + b.n + c.n)

theorem powerSums_left (h : Small a b c) :
    (combined uint64 (combined uint64 a b) c).powerSums =
      a.powerSums + b.powerSums + c.powerSums +
        (0, 0, 0, wrapError uint64 a b + wrapError uint64 (combined uint64 a b) c,
          4 * ((combined uint64 a b).M1 * wrapError uint64 a b +
            meanOf a b c * wrapError uint64 (combined uint64 a b) c)) := by
  obtain ⟨hn, hM1⟩ := h.combined_left
  have hpos := h.a_pos
  have hpos' := h.b_pos
  have hne : (a.n + b.n : ℚ) ≠ 0 := by
    rw [← Int.cast_add]
    exact Int.cast_ne_zero.mpr (by omega)
  have hmean : ((combined uint64 a b).merge c).M1 = meanOf a b c := by
    rw [Moments.merge, hn, hM1, meanOf, Int.cast_add]
    simp only
    rw [mul_div_cancel₀ _ hne]
  have hmean' : (a.merge b).M1 = (combined uint64 a b).M1 := hM1.symm
  rw [powerSums_combined (by omega) h.c_pos (by rw [hn]; exact h.cube_lt), hmean,
    powerSums_combined h.a_pos h.b_pos h.cube_left, hmean']
  simp only [Prod.ext_iff, Prod.fst_add, Prod.snd_add]
  refine ⟨?_, ?_, ?_, ?_, ?_⟩ <;> ring

theorem powerSums_right (h : Small a b c) :
    (combined uint64 a (combined uint64 b c)).powerSums =
      a.powerSums + b.powerSums + c.powerSums +
        (0, 0, 0, wrapError uint64 b c + wrapError uint64 a (combined uint64 b c),
          4 * ((combined uint64 b c).M1 * wrapError uint64 b c +
            meanOf a b c * wrapError uint64 a (combined uint64 b c))) := by
  obtain ⟨hn, hM1⟩ := h.combined_right
  have hpos := h.b_pos
  have hpos' := h.c_pos
  have hne : (b.n + c.n : ℚ) ≠ 0 := by
    rw [← Int.cast_add]
    exact Int.cast_ne_zero.mpr (by omega)
  have hmean : (a.merge (combined uint64 b c)).M1 = meanOf a b c := by
    rw [Moments.merge, hn, hM1, meanOf, Int.cast_add]
    simp only
    rw [mul_div_cancel₀ _ hne, add_assoc, add_assoc]
  have hmean' : (b.merge c).M1 = (combined uint64 b c).M1 := hM1.symm
  rw [powerSums_combined h.a_pos (by omega) (by rw [hn, ← add_assoc]; exact h.cube_lt), hmean,
    powerSums_combined h.b_pos h.c_pos h.cube_right, hmean']
  simp only [Prod.ext_iff, Prod.fst_add, Prod.snd_add]
  refine ⟨?_, ?_, ?_, ?_, ?_⟩ <;> ring

/-- The two ways to combine three statistics agree when their errors do. -/
theorem combined_assoc_iff (h : Small a b c) :
    combined uint64 (combined uint64 a b) c = combined uint64 a (combined uint64 b c) ↔
      wrapError uint64 a b + wrapError uint64 (combined uint64 a b) c =
        wrapError uint64 b c + wrapError uint64 a (combined uint64 b c) ∧
      (combined uint64 a b).M1 * wrapError uint64 a b +
          meanOf a b c * wrapError uint64 (combined uint64 a b) c =
        (combined uint64 b c).M1 * wrapError uint64 b c +
          meanOf a b c * wrapError uint64 a (combined uint64 b c) := by
  constructor
  · intro heq
    have hsums := congrArg Moments.powerSums heq
    rw [h.powerSums_left, h.powerSums_right] at hsums
    have herrors := add_left_cancel hsums
    simp only [Prod.mk.injEq, true_and] at herrors
    exact ⟨herrors.1, mul_left_cancel₀ four_ne_zero herrors.2⟩
  · rintro ⟨hM3, hM4⟩
    have hn : (combined uint64 (combined uint64 a b) c).n = a.n + b.n + c.n := by
      have hpos := h.a_pos
      have hpos' := h.b_pos
      have hpos'' := h.c_pos
      rw [combined_n, h.combined_left.1]
      exact Int.emod_eq_of_lt (by omega) h.lt
    have hne : ((combined uint64 (combined uint64 a b) c).n : ℚ) ≠ 0 := by
      rw [hn]
      have hpos := h.a_pos
      have hpos' := h.b_pos
      have hpos'' := h.c_pos
      exact Int.cast_ne_zero.mpr (by omega)
    apply Moments.eq_of_powerSums hne
    rw [h.powerSums_left, h.powerSums_right, hM3, hM4]

theorem meanOf_eq_iff (h : Small a b c) :
    meanOf a b c = (combined uint64 b c).M1 ↔ a.M1 = (combined uint64 b c).M1 := by
  have ha : (0 : ℚ) < a.n := Int.cast_pos.mpr h.a_pos
  have hb : (0 : ℚ) < b.n := Int.cast_pos.mpr h.b_pos
  have hc : (0 : ℚ) < c.n := Int.cast_pos.mpr h.c_pos
  have hdiff : meanOf a b c - (combined uint64 b c).M1 =
      a.n / (a.n + b.n + c.n) * (a.M1 - (combined uint64 b c).M1) := by
    rw [h.combined_right.2, meanOf]
    field_simp
    ring
  have hfactor : (a.n / (a.n + b.n + c.n) : ℚ) ≠ 0 :=
    (div_pos ha (add_pos (add_pos ha hb) hc)).ne'
  rw [← sub_eq_zero, hdiff, mul_eq_zero, or_iff_right hfactor, sub_eq_zero]

theorem assoc_iff_errors (h : Small a b c) (hcomm : Swappable a b) :
    combined uint64 (combined uint64 a b) c = combined uint64 a (combined uint64 b c) ↔
      wrapError uint64 (combined uint64 a b) c =
        wrapError uint64 b c + wrapError uint64 a (combined uint64 b c) ∧
      (a.M1 = (combined uint64 b c).M1 ∨ wrapError uint64 b c = 0) := by
  have hlt := h.lt
  have ha := h.a_pos
  have hb := h.b_pos
  have hc := h.c_pos
  have herror : wrapError uint64 a b = 0 := by
    rcases hcomm with hn | hmean
    · exact wrapError_of_le (by omega) (by omega) (by omega)
    · exact wrapError_same_mean hmean
  rw [h.combined_assoc_iff, herror, zero_add, mul_zero, zero_add, ← h.meanOf_eq_iff]
  refine and_congr_right fun heq => ?_
  rw [heq, mul_add, add_left_inj, mul_eq_mul_right_iff]

theorem right_mean_iff (h : Small a b c) : a.M1 = (combined uint64 b c).M1 ↔
    (b.n + c.n) * a.M1 = b.n * b.M1 + c.n * c.M1 := by
  have hb : (0 : ℚ) < b.n := Int.cast_pos.mpr h.b_pos
  have hc : (0 : ℚ) < c.n := Int.cast_pos.mpr h.c_pos
  rw [h.combined_right.2, eq_div_iff (add_pos hb hc).ne', mul_comm]

theorem left_mean (h : Small a b c) (hmean : a.M1 = b.M1) : (combined uint64 a b).M1 = b.M1 := by
  have ha : (0 : ℚ) < a.n := Int.cast_pos.mpr h.a_pos
  have hb : (0 : ℚ) < b.n := Int.cast_pos.mpr h.b_pos
  rw [h.combined_left.2, hmean, ← add_mul, mul_div_cancel_left₀ _ (add_pos ha hb).ne']

theorem right_mean (h : Small a b c) (hmean : b.M1 = c.M1) : (combined uint64 b c).M1 = b.M1 := by
  have hb : (0 : ℚ) < b.n := Int.cast_pos.mpr h.b_pos
  have hc : (0 : ℚ) < c.n := Int.cast_pos.mpr h.c_pos
  rw [h.combined_right.2, ← hmean, ← add_mul, mul_div_cancel_left₀ _ (add_pos hb hc).ne']

theorem left_error_of_le (h : Small a b c) (hle : c.n ≤ a.n + b.n) :
    wrapError uint64 (combined uint64 a b) c = 0 := by
  have hlt := h.lt
  have hc := h.c_pos
  have hn := h.combined_left.1
  exact wrapError_of_le (by omega) (by omega) (by omega)

theorem right_error_of_le (h : Small a b c) (hle : b.n + c.n ≤ a.n) :
    wrapError uint64 a (combined uint64 b c) = 0 := by
  have hlt := h.lt
  have hb := h.b_pos
  have hc := h.c_pos
  have hn := h.combined_right.1
  exact wrapError_of_le (by omega) (by omega) (by omega)

theorem assoc_of_balanced (h : Small a b c) (hcomm : Swappable a b) (hbalanced : Balanced a b c) :
    combined uint64 (combined uint64 a b) c = combined uint64 a (combined uint64 b c) := by
  have hlt := h.lt
  have ha := h.a_pos
  have hb := h.b_pos
  have hc := h.c_pos
  rw [h.assoc_iff_errors hcomm]
  rcases hbalanced with ⟨hab, hbc⟩ | ⟨_, hcb, hle⟩ | ⟨hn, hcb, hmean⟩
  · have hright : a.M1 = (combined uint64 b c).M1 := by rw [h.right_mean hbc, hab]
    have hleft : (combined uint64 a b).M1 = c.M1 := by rw [h.left_mean hab, hbc]
    rw [wrapError_same_mean hleft, wrapError_same_mean hbc, wrapError_same_mean hright, add_zero]
    exact ⟨rfl, .inr rfl⟩
  · have hlast : wrapError uint64 b c = 0 := wrapError_of_le (by omega) hc.le hcb
    rw [h.left_error_of_le (by omega), h.right_error_of_le hle, hlast, add_zero]
    exact ⟨rfl, .inr rfl⟩
  · have hlast : wrapError uint64 b c = 0 := wrapError_of_le (by omega) hc.le hcb
    have hright : a.M1 = (combined uint64 b c).M1 := h.right_mean_iff.mpr hmean
    rw [h.left_error_of_le (by omega), wrapError_same_mean hright, hlast, add_zero]
    exact ⟨rfl, .inr rfl⟩

theorem last_mean (h : Small a b c) (hab : a.M1 = b.M1)
    (hright : a.M1 = (combined uint64 b c).M1) : b.M1 = c.M1 := by
  have hc : (c.n : ℚ) ≠ 0 := Int.cast_ne_zero.mpr h.c_pos.ne'
  rw [h.right_mean_iff, hab] at hright
  apply mul_left_cancel₀ hc
  linear_combination hright

/-- With the same mean in the last two operands and as many samples in the first two. -/
theorem first_mean_of_errors (h : Small a b c) (hn : a.n = b.n) (hbc : b.M1 = c.M1)
    (hlt : b.n < c.n) (herrors : wrapError uint64 (combined uint64 a b) c =
      wrapError uint64 a (combined uint64 b c)) : a.M1 = b.M1 := by
  have hlt' := h.lt
  have ha := h.a_pos
  have hb := h.b_pos
  have hc := h.c_pos
  have hb' : (0 : ℚ) < b.n := Int.cast_pos.mpr hb
  have hc' : (0 : ℚ) < c.n := Int.cast_pos.mpr hc
  obtain ⟨hnl, hMl⟩ := h.combined_left
  obtain ⟨hnr, _⟩ := h.combined_right
  have hright := h.right_mean hbc
  by_cases hle : c.n ≤ a.n + b.n
  · rw [h.left_error_of_le hle, eq_comm,
      wrapError_eq_zero_iff ha (by omega) (by omega), hright] at herrors
    exact herrors
  · have hhalf : c.M1 - (combined uint64 a b).M1 = (b.M1 - a.M1) / 2 := by
      rw [hMl, hn, ← hbc]
      field_simp
      ring
    rw [wrapError_of_lt (by omega) (by omega) (by omega),
      wrapError_of_lt ha.le (by omega) (by omega), hhalf, hright, hnl, hnr, hn, Int.cast_add,
      Int.cast_add] at herrors
    exact (sub_eq_zero.mp (same_mean_of_half hb' hc' herrors)).symm

/-- With the mean of the last two operands in the first, and as many samples in the first two. -/
theorem last_mean_of_errors (h : Small a b c) (hn : a.n = b.n)
    (hright : a.M1 = (combined uint64 b c).M1) (hlt : b.n < c.n)
    (herrors : wrapError uint64 (combined uint64 a b) c = wrapError uint64 b c) :
    b.M1 = c.M1 := by
  have hlt' := h.lt
  have hb := h.b_pos
  have hc := h.c_pos
  have hb' : (0 : ℚ) < b.n := Int.cast_pos.mpr hb
  have hc' : (0 : ℚ) < c.n := Int.cast_pos.mpr hc
  obtain ⟨hnl, hMl⟩ := h.combined_left
  by_cases hle : c.n ≤ a.n + b.n
  · rw [h.left_error_of_le hle, eq_comm, wrapError_eq_zero_iff hb (by omega) hlt] at herrors
    exact herrors
  · have hmiddle : c.M1 - (combined uint64 a b).M1 =
        (c.M1 - b.M1) * (b.n + b.n + c.n) / (2 * (b.n + c.n)) := by
      rw [hMl, hright, h.combined_right.2, hn]
      field_simp
      ring
    rw [wrapError_of_lt (by omega) (by omega) (by omega), wrapError_of_lt hb.le (by omega) hlt,
      hmiddle, hnl, hn, Int.cast_add] at herrors
    exact (sub_eq_zero.mp (same_mean_of_middle hb' hc' herrors)).symm

theorem balanced_of_assoc (h : Small a b c) (hcomm : Swappable a b)
    (hassoc : combined uint64 (combined uint64 a b) c =
      combined uint64 a (combined uint64 b c)) : Balanced a b c := by
  have hlt := h.lt
  have ha := h.a_pos
  have hb := h.b_pos
  have hc := h.c_pos
  have hnr := h.combined_right.1
  obtain ⟨herrors, hlast⟩ := (h.assoc_iff_errors hcomm).mp hassoc
  by_cases hcb : c.n ≤ b.n
  · have hzero : wrapError uint64 b c = 0 := wrapError_of_le (by omega) hc.le hcb
    rw [h.left_error_of_le (by omega), hzero, zero_add, eq_comm] at herrors
    by_cases hle : b.n + c.n ≤ a.n
    · rcases hcomm with hn | hab
      · omega
      · exact .inr (.inl ⟨hab, hcb, hle⟩)
    · rw [wrapError_eq_zero_iff ha (by omega) (by omega)] at herrors
      rcases hcomm with hn | hab
      · exact .inr (.inr ⟨hn, hcb, h.right_mean_iff.mp herrors⟩)
      · exact .inl ⟨hab, h.last_mean hab herrors⟩
  · have hbc_lt : b.n < c.n := not_le.mp hcb
    rw [wrapError_eq_zero_iff hb (by omega) hbc_lt] at hlast
    rcases hlast with hright | hbc
    · rw [wrapError_same_mean hright, add_zero] at herrors
      rcases hcomm with hn | hab
      · have hbc := h.last_mean_of_errors hn hright hbc_lt herrors
        exact .inl ⟨by rw [hright, h.right_mean hbc], hbc⟩
      · exact .inl ⟨hab, h.last_mean hab hright⟩
    · rw [wrapError_same_mean hbc, zero_add] at herrors
      rcases hcomm with hn | hab
      · exact .inl ⟨h.first_mean_of_errors hn hbc hbc_lt herrors, hbc⟩
      · exact .inl ⟨hab, hbc⟩

end Small

end Combined

section AnyOrder

variable {a b c : RunningStatistics ℚ}

/-- The sums of counts that are divisors. -/
structure SumsAddable (a b c : RunningStatistics ℚ) : Prop where
  alone : Addable a.n
  left : Addable (a.n + b.n)
  right : Addable (b.n + c.n)
  all : Addable (a.n + b.n + c.n)

theorem addable_left : Addable (uint64 (a.n + b.n) + c.n) ↔ Addable (a.n + b.n + c.n) :=
  addable_congr ((uint64_modEq (a.n + b.n)).add_right c.n)

theorem addable_right : Addable (a.n + uint64 (b.n + c.n)) ↔ Addable (a.n + b.n + c.n) := by
  rw [add_assoc]
  exact addable_congr ((uint64_modEq (b.n + c.n)).add_left a.n)

theorem anyOrder_iff_combined (ha : Counted a.toMoments) : AnyOrder a b c ↔
    SumsAddable a b c ∧
    combined uint64 a.toMoments b.toMoments = combined uint64 b.toMoments a.toMoments ∧
    combined uint64 (combined uint64 a.toMoments b.toMoments) c.toMoments =
      combined uint64 a.toMoments (combined uint64 b.toMoments c.toMoments) := by
  constructor
  · intro h
    obtain ⟨s, t, hs, ht, hst⟩ := h.comm
    obtain ⟨s', t', u, v, hs', hu, ht', hv, huv⟩ := h.assoc
    obtain ⟨w, hw, _⟩ := h.fresh
    obtain ⟨hab, rfl⟩ := add_eq_some_iff.mp hs
    obtain ⟨_, rfl⟩ := add_eq_some_iff.mp ht
    obtain ⟨_, rfl⟩ := add_eq_some_iff.mp hs'
    obtain ⟨hbc, rfl⟩ := add_eq_some_iff.mp ht'
    obtain ⟨habc, rfl⟩ := add_eq_some_iff.mp hu
    obtain ⟨_, rfl⟩ := add_eq_some_iff.mp hv
    obtain ⟨ha', _⟩ := add_eq_some_iff.mp hw
    refine ⟨⟨?_, hab, hbc, addable_left.mp habc⟩, hst, huv⟩
    rwa [fresh, add_zero] at ha'
  · rintro ⟨hsums, hcomm, hassoc⟩
    have hba : Addable (b.n + a.n) := by
      rw [add_comm]
      exact hsums.left
    refine ⟨?_, ?_, ?_, ?_⟩
    · exact ⟨_, _, add_eq_some_iff.mpr ⟨hsums.left, rfl⟩, add_eq_some_iff.mpr ⟨hba, rfl⟩, hcomm⟩
    · exact ⟨_, _, _, _, add_eq_some_iff.mpr ⟨hsums.left, rfl⟩,
        add_eq_some_iff.mpr ⟨addable_left.mpr hsums.all, rfl⟩,
        add_eq_some_iff.mpr ⟨hsums.right, rfl⟩,
        add_eq_some_iff.mpr ⟨addable_right.mpr hsums.all, rfl⟩, hassoc⟩
    · have ha' : Addable (a.n + (fresh : RunningStatistics ℚ).n) := by
        rw [fresh, add_zero]
        exact hsums.alone
      exact ⟨_, add_eq_some_iff.mpr ⟨ha', rfl⟩, combined_empty_right ha.uint64_n hsums.alone⟩
    · cases h : add uint64 a b <;> simp [addAssign, h]

theorem anyOrder_of_middle_empty (ha : Counted a.toMoments) (hb : Counted b.toMoments)
    (hc : Counted c.toMoments) (hsums : SumsAddable a b c) (hzero : b.n = 0) : AnyOrder a b c := by
  have hright := hsums.right
  rw [hzero, zero_add] at hright
  refine (anyOrder_iff_combined ha).mpr ⟨hsums, ?_, ?_⟩
  · exact (combined_comm_iff ha hb hsums.left).mpr (.inr (.inr (.inl hzero)))
  · rw [hb.eq_zero hzero, combined_empty_right ha.uint64_n hsums.alone,
      combined_empty_left hc.uint64_n hright]

theorem anyOrder_of_last_empty (ha : Counted a.toMoments) (hb : Counted b.toMoments)
    (hc : Counted c.toMoments) (hsums : SumsAddable a b c) (hzero : c.n = 0)
    (hcomm : Swappable a.toMoments b.toMoments) : AnyOrder a b c := by
  have hright := hsums.right
  rw [hzero, add_zero] at hright
  have hleft : Addable (combined uint64 a.toMoments b.toMoments).n :=
    (addable_congr (uint64_modEq (a.n + b.n))).mpr hsums.left
  have hn : uint64 (combined uint64 a.toMoments b.toMoments).n =
      (combined uint64 a.toMoments b.toMoments).n := Int.emod_emod_of_dvd _ dvd_rfl
  refine (anyOrder_iff_combined ha).mpr ⟨hsums, ?_, ?_⟩
  · rw [combined_comm_iff ha hb hsums.left]
    exact hcomm.elim .inl fun hmean => .inr (.inr (.inr hmean))
  · rw [hc.eq_zero hzero, combined_empty_right hn hleft, combined_empty_right hb.uint64_n hright]

/-- The combination of means that are equal goes wrong only if the mean is not zero and a sum of
counts wraps. -/
def KeepsMean (a b c : RunningStatistics ℚ) : Prop :=
  (a.M1 = b.M1 ∧ b.M1 = c.M1) ∧
    (a.M1 = 0 ∨ (a.n + b.n < 2 ^ 64 ∧ b.n + c.n < 2 ^ 64))

theorem anyOrder_of_same_mean (ha : Counted a.toMoments) (hb : Counted b.toMoments)
    (hc : Counted c.toMoments) (hsums : SumsAddable a b c) (h : KeepsMean a b c) :
    AnyOrder a b c := by
  obtain ⟨⟨hab, hbc⟩, hkept⟩ := h
  have ha' := ha.nonneg
  have hb' := hb.nonneg
  have hc' := hc.nonneg
  have hpos := hsums.alone.ne_zero
  have hpos' := hsums.right.ne_zero
  have hleft : (combined uint64 a.toMoments b.toMoments).M1 = a.M1 :=
    mean_combined_same_mean hab (by omega) (hkept.imp_right And.left)
  have hright : (combined uint64 b.toMoments c.toMoments).M1 = b.M1 :=
    mean_combined_same_mean hbc (by omega) (hkept.imp (fun h => hab ▸ h) And.right)
  refine (anyOrder_iff_combined ha).mpr ⟨hsums, ?_, ?_⟩
  · exact (combined_comm_iff ha hb hsums.left).mpr (.inr (.inr (.inr hab)))
  · rw [combined_same_mean (hleft.trans (hab.trans hbc)),
      combined_same_mean (hab.trans hright.symm), hleft]
    ext
    · exact uint64_add_assoc a.n b.n c.n
    · rcases hkept with hzero | ⟨hab', hbc'⟩
      · simp [hzero]
      · have hn : uint64 (a.n + b.n) = a.n + b.n := Int.emod_eq_of_lt (by omega) hab'
        have hn' : uint64 (b.n + c.n) = b.n + c.n := Int.emod_eq_of_lt (by omega) hbc'
        simp only [combined_n, hn, hn', add_assoc]
    · simp only [combined_same_mean hab, combined_same_mean hbc, add_assoc]
    · simp only [combined_same_mean hab, combined_same_mean hbc, add_assoc]
    · simp only [combined_same_mean hab, combined_same_mean hbc, add_assoc]

/-- The second moments agree if the errors that wrapped sums make in a mean `m` do. -/
theorem counts_of_mean_errors {m x y u v k l : ℚ} (hm : m ≠ 0) (hu : u ≠ 0) (hv : v ≠ 0)
    (h : (m - x * m / u) ^ 2 * u * k = (y * m / v - m) ^ 2 * l * v) :
    k * (x - u) ^ 2 * v = l * (y - v) ^ 2 * u := by
  have hleft : (m - x * m / u) ^ 2 * u * k = m ^ 2 * ((x - u) ^ 2 * k / u) := by
    field_simp
    ring
  have hright : (y * m / v - m) ^ 2 * l * v = m ^ 2 * ((y - v) ^ 2 * l / v) := by
    field_simp
  rw [hleft, hright] at h
  have hquotients := (div_eq_div_iff hu hv).mp (mul_left_cancel₀ (pow_ne_zero 2 hm) h)
  linear_combination hquotients

/-- What a mean that is not zero demands of the counts. -/
theorem counts_of_assoc (hsums : SumsAddable a b c) (hab : a.M1 = b.M1) (hbc : b.M1 = c.M1)
    (hne : a.M1 ≠ 0) (h : combined uint64 (combined uint64 a.toMoments b.toMoments) c.toMoments =
      combined uint64 a.toMoments (combined uint64 b.toMoments c.toMoments)) :
    c.n * (a.n + b.n - uint64 (a.n + b.n)) ^ 2 * uint64 (b.n + c.n) =
      a.n * (b.n + c.n - uint64 (b.n + c.n)) ^ 2 * uint64 (a.n + b.n) := by
  have hM2 := congrArg Moments.M2 h
  rw [combined_same_mean hab, combined_same_mean hbc, combined_M2, combined_M2] at hM2
  simp only [uint64_add_assoc, ← hbc, ← hab, ← add_assoc, add_right_inj] at hM2
  have hall := (divisors_iff.mpr (addable_right.mpr hsums.all)).one
  have hcounts := counts_of_mean_errors hne (divisors_iff.mpr hsums.left).one
    (divisors_iff.mpr hsums.right).one ((div_left_inj' hall).mp hM2)
  exact_mod_cast hcounts

/-- Where equal means are combined in any order they are kept, or both sums wrap alike. -/
theorem keepsMean_of_assoc (ha : Counted a.toMoments) (hb : Counted b.toMoments)
    (hc : Counted c.toMoments) (hsums : SumsAddable a b c) (ha_pos : 0 < a.n) (hc_pos : 0 < c.n)
    (hab : a.M1 = b.M1) (hbc : b.M1 = c.M1)
    (h : combined uint64 (combined uint64 a.toMoments b.toMoments) c.toMoments =
      combined uint64 a.toMoments (combined uint64 b.toMoments c.toMoments)) :
    KeepsMean a b c ∨ (2 ^ 64 ≤ a.n + b.n ∧ a.n = c.n ∧ a.M1 ≠ 0) := by
  by_cases hzero : a.M1 = 0
  · exact .inl ⟨⟨hab, hbc⟩, .inl hzero⟩
  have hcounts := counts_of_assoc hsums hab hbc hzero h
  have ha_lt := ha.lt
  have hb_lt := hb.lt
  have hc_lt := hc.lt
  have hb_nonneg := hb.nonneg
  have hleft : 0 < uint64 (a.n + b.n) := uint64_nonneg.lt_of_ne' (fun hz =>
    (divisors_iff.mpr hsums.left).one (by rw [hz, Int.cast_zero]))
  have hright : 0 < uint64 (b.n + c.n) := uint64_nonneg.lt_of_ne' (fun hz =>
    (divisors_iff.mpr hsums.right).one (by rw [hz, Int.cast_zero]))
  have hkept {n : ℤ} (hn : 0 ≤ n) (hlt : n < 2 ^ 64) : n - uint64 n = 0 := by
    unfold uint64
    omega
  have hwraps {n : ℤ} (hle : 2 ^ 64 ≤ n) (hlt : n < 2 * 2 ^ 64) : n - uint64 n = 2 ^ 64 := by
    unfold uint64
    omega
  by_cases hl : a.n + b.n < 2 ^ 64
  · by_cases hr : b.n + c.n < 2 ^ 64
    · exact .inl ⟨⟨hab, hbc⟩, .inr ⟨hl, hr⟩⟩
    · rw [hkept (by omega) hl, hwraps (not_lt.mp hr) (by omega)] at hcounts
      have hpos : 0 < a.n * (2 ^ 64) ^ 2 * uint64 (a.n + b.n) := by positivity
      rw [← hcounts] at hpos
      simp at hpos
  · by_cases hr : b.n + c.n < 2 ^ 64
    · rw [hkept (by omega) hr, hwraps (not_lt.mp hl) (by omega)] at hcounts
      have hpos : 0 < c.n * (2 ^ 64) ^ 2 * uint64 (b.n + c.n) := by positivity
      rw [hcounts] at hpos
      simp at hpos
    · have hl' := hwraps (not_lt.mp hl) (by omega)
      have hr' := hwraps (not_lt.mp hr) (by omega)
      rw [hl', hr'] at hcounts
      have hprod : (c.n - a.n) * (a.n + b.n + c.n - 2 ^ 64) = 0 := by
        have hcancel : (2 ^ 64 : ℤ) ^ 2 ≠ 0 := by decide
        apply mul_left_cancel₀ hcancel
        linear_combination hcounts + c.n * (2 ^ 64) ^ 2 * hr' - a.n * (2 ^ 64) ^ 2 * hl'
      have hall : a.n + b.n + c.n - 2 ^ 64 ≠ 0 := by
        intro hz
        apply hsums.all
        rw [sub_eq_zero.mp hz]
        decide
      rcases mul_eq_zero.mp hprod with heq | heq
      · exact .inr ⟨not_lt.mp hl, (sub_eq_zero.mp heq).symm, hzero⟩
      · exact absurd heq hall

theorem Balanced.swappable {a b c : Moments ℚ} (h : Balanced a b c) : Swappable a b := by
  rcases h with ⟨hab, _⟩ | ⟨hab, _⟩ | ⟨hn, _⟩
  · exact .inr hab
  · exact .inr hab
  · exact .inl hn

/-- When `a`, `b` and `c` can be combined in any order: each sum of counts is defined, and an
operand is empty, all means are equal, or the errors of small counts cancel. -/
def Combinable (a b c : RunningStatistics ℚ) : Prop :=
  SumsAddable a b c ∧
    (b.n = 0 ∨ (c.n = 0 ∧ Swappable a.toMoments b.toMoments) ∨ KeepsMean a b c ∨
      ((a.n + b.n + c.n) ^ 3 < 2 ^ 64 ∧ Balanced a.toMoments b.toMoments c.toMoments))

/-- Nothing is empty, and the products of the counts wrap with means that differ, or the sums of
the counts with a mean that is not zero. -/
def Wrapping (a b c : RunningStatistics ℚ) : Prop :=
  (0 < a.n ∧ 0 < b.n ∧ 0 < c.n) ∧ Swappable a.toMoments b.toMoments ∧
    ((2 ^ 64 ≤ (a.n + b.n + c.n) ^ 3 ∧ ¬(a.M1 = b.M1 ∧ b.M1 = c.M1)) ∨
      (2 ^ 64 ≤ a.n + b.n ∧ a.n = c.n ∧ a.M1 ≠ 0))

theorem anyOrder_of_combinable (ha : Counted a.toMoments) (hb : Counted b.toMoments)
    (hc : Counted c.toMoments) (h : Combinable a b c) : AnyOrder a b c := by
  obtain ⟨hsums, hcases⟩ := h
  rcases hcases with hzero | ⟨hzero, hcomm⟩ | hmean | ⟨hcube, hbalanced⟩
  · exact anyOrder_of_middle_empty ha hb hc hsums hzero
  · exact anyOrder_of_last_empty ha hb hc hsums hzero hcomm
  · exact anyOrder_of_same_mean ha hb hc hsums hmean
  · rcases hb.nonneg.eq_or_lt with hzero | hb_pos
    · exact anyOrder_of_middle_empty ha hb hc hsums hzero.symm
    · rcases hc.nonneg.eq_or_lt with hzero | hc_pos
      · exact anyOrder_of_last_empty ha hb hc hsums hzero.symm hbalanced.swappable
      · have ha_pos : 0 < a.n := ha.nonneg.lt_of_ne' hsums.alone.ne_zero
        have hsmall : Small a.toMoments b.toMoments c.toMoments := ⟨ha_pos, hb_pos, hc_pos, hcube⟩
        refine (anyOrder_iff_combined ha).mpr ⟨hsums, ?_, ?_⟩
        · rw [combined_comm_iff ha hb hsums.left]
          exact hbalanced.swappable.elim .inl fun hmean => .inr (.inr (.inr hmean))
        · exact hsmall.assoc_of_balanced hbalanced.swappable hbalanced

theorem combinable_of_anyOrder (ha : Counted a.toMoments) (hb : Counted b.toMoments)
    (hc : Counted c.toMoments) (h : AnyOrder a b c) : Combinable a b c ∨ Wrapping a b c := by
  obtain ⟨hsums, hcomm, hassoc⟩ := (anyOrder_iff_combined ha).mp h
  rw [combined_comm_iff ha hb hsums.left] at hcomm
  have ha_pos : 0 < a.n := ha.nonneg.lt_of_ne' hsums.alone.ne_zero
  rcases hb.nonneg.eq_or_lt with hzero | hb_pos
  · exact .inl ⟨hsums, .inl hzero.symm⟩
  have hswap : Swappable a.toMoments b.toMoments := by
    rcases hcomm with hn | hzero | hzero | hmean
    · exact .inl hn
    · exact absurd hzero ha_pos.ne'
    · exact absurd hzero hb_pos.ne'
    · exact .inr hmean
  rcases hc.nonneg.eq_or_lt with hzero | hc_pos
  · exact .inl ⟨hsums, .inr (.inl ⟨hzero.symm, hswap⟩)⟩
  by_cases hcube : (a.n + b.n + c.n) ^ 3 < 2 ^ 64
  · have hsmall : Small a.toMoments b.toMoments c.toMoments := ⟨ha_pos, hb_pos, hc_pos, hcube⟩
    exact .inl ⟨hsums, .inr (.inr (.inr ⟨hcube, hsmall.balanced_of_assoc hswap hassoc⟩))⟩
  by_cases hsame : a.M1 = b.M1 ∧ b.M1 = c.M1
  · rcases keepsMean_of_assoc ha hb hc hsums ha_pos hc_pos hsame.1 hsame.2 hassoc with hkept | hwrap
    · exact .inl ⟨hsums, .inr (.inr (.inl hkept))⟩
    · exact .inr ⟨⟨ha_pos, hb_pos, hc_pos⟩, hswap, .inr hwrap⟩
  · exact .inr ⟨⟨ha_pos, hb_pos, hc_pos⟩, hswap, .inl ⟨not_lt.mp hcube, hsame⟩⟩

end AnyOrder

/-- Statistics that are combinable can be combined in any order, and no others can, unless products
or sums of their counts wrap. -/
theorem combinable_in_any_order (a b c : RunningStatistics ℚ) (ha : Reachable a) (hb : Reachable b)
    (hc : Reachable c) :
    (Combinable a b c → AnyOrder a b c) ∧
      (¬Wrapping a b c → AnyOrder a b c → Combinable a b c) := by
  refine ⟨anyOrder_of_combinable ha.counted hb.counted hc.counted, fun hwrap hany => ?_⟩
  exact (combinable_of_anyOrder ha.counted hb.counted hc.counted hany).resolve_right hwrap

def oneSample (x : ℚ) : RunningStatistics ℚ := ⟨⟨1, x, 0, 0, 0⟩, 10, 10⟩

def twoEqual (x : ℚ) : RunningStatistics ℚ := ⟨⟨2, x, 0, 0, 0⟩, 10, 20⟩

theorem reachable_oneSample (x : ℚ) : Reachable (oneSample x) := by
  refine ⟨[⟨x, 10⟩], ?_⟩
  simp [feed, update, divide, fresh, oneSample, uint64]

theorem reachable_twoEqual (x : ℚ) : Reachable (twoEqual x) := by
  refine ⟨[⟨x, 10⟩, ⟨x, 20⟩], ?_⟩
  simp [feed, update, divide, fresh, twoEqual, uint64]

theorem anyOrder_one_one_one : AnyOrder (oneSample 1) (oneSample 1) (oneSample 1) := by
  refine (combinable_in_any_order (oneSample 1) (oneSample 1) (oneSample 1)
    (reachable_oneSample 1) (reachable_oneSample 1) (reachable_oneSample 1)).1 ⟨?_, ?_⟩
  · exact ⟨by decide, by decide, by decide, by decide⟩
  · exact .inr (.inr (.inl ⟨⟨rfl, rfl⟩, .inr ⟨by decide, by decide⟩⟩))

/-- One sample and two others do not commute. -/
theorem not_anyOrder : ¬∀ a b c : RunningStatistics ℚ, Reachable a → Reachable b → Reachable c →
    AnyOrder a b c := by
  intro h
  have ha := reachable_oneSample 0
  have hb := reachable_twoEqual 1
  have hany := h (oneSample 0) (twoEqual 1) (oneSample 0) ha hb ha
  obtain ⟨hsums, hcomm, _⟩ := (anyOrder_iff_combined ha.counted).mp hany
  rw [combined_comm_iff ha.counted hb.counted hsums.left] at hcomm
  revert hcomm
  decide

end ARArch.RunningStatistics
