import Mathlib.Algebra.BigOperators.Ring.Finset
import Mathlib.Data.Nat.Choose.Sum
import Mathlib.Data.Int.Cast.Lemmas
import Mathlib.Data.Nat.Cast.Field
import Mathlib.Tactic.FieldSimp
import Mathlib.Tactic.LinearCombination
import Mathlib.Tactic.Ring

/-!
# Central moments

The number of samples, their mean and the sums of the second, third and fourth powers of the
deviations from it are one way to write the sums of the powers of the samples. Those of two lists
add up for the list of both, from which the formulas that combine central moments follow, and that
they may be combined in any order.
-/

@[ext]
structure Moments (R : Type) where
  n : ℤ
  M1 : R
  M2 : R
  M3 : R
  M4 : R
  deriving DecidableEq

/-- The number of samples and the sums of their first four powers. -/
abbrev PowerSums (R : Type) := ℤ × R × R × R × R

namespace Moments

variable {R : Type} [Field R] {a b c : Moments R} {xs ys : List R} {x m : R}

def mean (xs : List R) : R := xs.sum / xs.length

/-- The sum of the powers of the deviations from the mean. -/
def centralMoment (k : ℕ) (xs : List R) : R := (xs.map fun x => (x - mean xs) ^ k).sum

def ofList (xs : List R) : Moments R where
  n := xs.length
  M1 := mean xs
  M2 := centralMoment 2 xs
  M3 := centralMoment 3 xs
  M4 := centralMoment 4 xs

def powerSums (a : Moments R) : PowerSums R :=
  (a.n, a.n * a.M1, a.M2 + a.n * a.M1 ^ 2, a.M3 + 3 * a.M1 * a.M2 + a.n * a.M1 ^ 3,
    a.M4 + 4 * a.M1 * a.M3 + 6 * a.M1 ^ 2 * a.M2 + a.n * a.M1 ^ 4)

def sums (xs : List R) : PowerSums R :=
  (xs.length, xs.sum, (xs.map fun x => x ^ 2).sum, (xs.map fun x => x ^ 3).sum,
    (xs.map fun x => x ^ 4).sum)

theorem sums_append : sums (xs ++ ys) = sums xs + sums ys := by
  simp [sums]

/-- Moments with the same sums are the same. -/
theorem eq_of_powerSums (hn : (a.n : R) ≠ 0) (h : a.powerSums = b.powerSums) : a = b := by
  obtain ⟨h0, h1, h2, h3, h4⟩ : a.n = b.n ∧ (a.n * a.M1 = b.n * b.M1) ∧
      (a.M2 + a.n * a.M1 ^ 2 = b.M2 + b.n * b.M1 ^ 2) ∧
      (a.M3 + 3 * a.M1 * a.M2 + a.n * a.M1 ^ 3 = b.M3 + 3 * b.M1 * b.M2 + b.n * b.M1 ^ 3) ∧
      (a.M4 + 4 * a.M1 * a.M3 + 6 * a.M1 ^ 2 * a.M2 + a.n * a.M1 ^ 4 =
        b.M4 + 4 * b.M1 * b.M3 + 6 * b.M1 ^ 2 * b.M2 + b.n * b.M1 ^ 4) := by
    simpa only [powerSums, Prod.mk.injEq] using h
  rw [← h0] at h1 h2 h3 h4
  have hM1 : a.M1 = b.M1 := mul_left_cancel₀ hn h1
  rw [hM1] at h2 h3 h4
  have hM2 : a.M2 = b.M2 := add_right_cancel h2
  rw [hM2] at h3 h4
  have hM3 : a.M3 = b.M3 := by linear_combination h3
  rw [hM3] at h4
  have hM4 : a.M4 = b.M4 := by linear_combination h4
  exact Moments.ext h0 hM1 hM2 hM3 hM4

@[simp] theorem ofList_singleton : ofList [x] = ⟨1, x, 0, 0, 0⟩ := by
  simp [ofList, mean, centralMoment]

theorem sum_sub_pow (k : ℕ) : (xs.map fun x => (x - m) ^ k).sum =
    ∑ j ∈ Finset.range (k + 1), (-m) ^ (k - j) * k.choose j * (xs.map fun x => x ^ j).sum := by
  induction xs with
  | nil => simp
  | cons x xs ih =>
    simp only [List.map_cons, List.sum_cons, ih, mul_add, Finset.sum_add_distrib]
    rw [sub_eq_add_neg, add_pow]
    congr 1
    apply Finset.sum_congr rfl
    intro j _
    ring

theorem length_mul_mean [CharZero R] : (xs.length : R) * mean xs = xs.sum := by
  cases xs with
  | nil => simp
  | cons x xs => exact mul_div_cancel₀ _ (Nat.cast_ne_zero.mpr (Nat.succ_ne_zero _))

theorem powerSums_ofList [CharZero R] : (ofList xs).powerSums = sums xs := by
  have h : (xs.length : R) * mean xs = xs.sum := length_mul_mean
  unfold powerSums ofList sums centralMoment
  simp only [sum_sub_pow, Finset.sum_range_succ, Finset.sum_range_zero, pow_zero, pow_one,
    List.map_const', List.sum_replicate, nsmul_eq_mul, Nat.choose, List.map_id', ← h,
    Int.cast_natCast, Prod.mk.injEq, true_and]
  push_cast
  refine ⟨?_, ?_, ?_⟩ <;> ring

/-- The moments of two lists together. -/
def merge (a b : Moments R) : Moments R :=
  let n : R := a.n + b.n
  let δ := b.M1 - a.M1
  { n := a.n + b.n
    M1 := (a.n * a.M1 + b.n * b.M1) / n
    M2 := a.M2 + b.M2 + δ ^ 2 * a.n * b.n / n
    M3 := a.M3 + b.M3 + δ ^ 3 * a.n * b.n * (a.n - b.n) / n ^ 2 +
      3 * δ * (a.n * b.M2 - b.n * a.M2) / n
    M4 := a.M4 + b.M4 + δ ^ 4 * a.n * b.n * (a.n ^ 2 - a.n * b.n + b.n ^ 2) / n ^ 3 +
      6 * δ ^ 2 * (a.n ^ 2 * b.M2 + b.n ^ 2 * a.M2) / n ^ 2 +
      4 * δ * (a.n * b.M3 - b.n * a.M3) / n }

theorem powerSums_merge (h : (a.n + b.n : R) ≠ 0) :
    (a.merge b).powerSums = a.powerSums + b.powerSums := by
  unfold powerSums merge
  simp only [Prod.mk_add_mk, Prod.mk.injEq, Int.cast_add, true_and]
  refine ⟨?_, ?_, ?_, ?_⟩ <;> field_simp <;> ring

theorem ofList_append [CharZero R] (h : xs ++ ys ≠ []) :
    ofList (xs ++ ys) = (ofList xs).merge (ofList ys) := by
  have hlen : ((ofList (xs ++ ys)).n : R) ≠ 0 := by
    rw [ofList, Int.cast_natCast, Nat.cast_ne_zero]
    exact List.length_eq_zero_iff.not.mpr h
  have hsum : ((ofList xs).n + (ofList ys).n : R) ≠ 0 := by
    simpa [ofList] using hlen
  apply eq_of_powerSums hlen
  rw [powerSums_merge hsum, powerSums_ofList, powerSums_ofList, powerSums_ofList, sums_append]

/-- The third moment with an error. -/
def addM3 (a : Moments R) (e : R) : Moments R := { a with M3 := a.M3 + e }

@[simp] theorem addM3_zero : a.addM3 0 = a := by
  rw [addM3, add_zero]

theorem powerSums_addM3 {e : R} :
    (a.addM3 e).powerSums = a.powerSums + (0, 0, 0, e, 4 * a.M1 * e) := by
  unfold powerSums addM3
  simp only [Prod.mk_add_mk, Prod.mk.injEq, add_zero, true_and]
  constructor <;> ring

end Moments
