import Mathlib.Algebra.Ring.Int.Defs
import Mathlib.Tactic.Common
import Mathlib.Tactic.Ring

/-!
# Copies into an array

An array is a function of its indices. Segments that are written one behind the other make one
segment; rows of an array that lie at a distance from each other are a segment of the same kind.
-/

namespace ArrayCopy

variable {β : Type} {a f g : ℤ → β} {off len n k j c r stride : ℤ}

/-- The array after a copy of `len` elements to the index `off`. -/
def write (a : ℤ → β) (off len : ℤ) (f : ℤ → β) : ℤ → β := fun j =>
  if off ≤ j ∧ j < off + len then f (j - off) else a j

theorem write_inside (h : off ≤ j) (h' : j < off + len) : write a off len f j = f (j - off) :=
  if_pos ⟨h, h'⟩

theorem write_outside (h : j < off ∨ off + len ≤ j) : write a off len f j = a j := by
  unfold write
  rw [if_neg (by omega)]

theorem write_zero : write a off 0 f = a := by
  funext j
  exact write_outside (by omega)

/-- A segment behind another, where both come from one sequence. -/
theorem write_write (hlen : 0 ≤ len) (hn : 0 ≤ n) :
    write (write a off len f) (off + len) n (fun x => f (len + x)) = write a off (len + n) f := by
  funext j
  by_cases hj : off ≤ j ∧ j < off + len
  · rw [write_outside (by omega), write_inside hj.1 hj.2, write_inside hj.1 (by omega)]
  · by_cases hj' : off + len ≤ j ∧ j < off + len + n
    · rw [write_inside hj'.1 hj'.2, write_inside (by omega) (by omega)]
      congr 1
      omega
    · rw [write_outside (by omega), write_outside (by omega), write_outside (by omega)]

/-- The elements of rows of length `k`, one row behind the other. -/
def strided (stride k : ℤ) (f : ℤ → β) : ℤ → β := fun x => f (x / k * stride + x % k)

theorem strided_apply (hc : 0 ≤ c) (hck : c < k) :
    strided stride k f (r * k + c) = f (r * stride + c) := by
  have hk : k ≠ 0 := by omega
  have hdiv : (r * k + c) / k = r := by
    rw [Int.add_comm, Int.add_mul_ediv_right _ _ hk, Int.ediv_eq_zero_of_lt hc hck, zero_add]
  have hmod : (r * k + c) % k = c := by
    rw [Int.add_comm, Int.add_mul_emod_self_right, Int.emod_eq_of_lt hc hck]
  rw [strided, hdiv, hmod]

theorem strided_self : strided k k f = f := by
  funext x
  unfold strided
  congr 1
  rw [Int.mul_comm]
  exact Int.mul_ediv_add_emod x k

/-- One more row. -/
theorem write_row (hn : 0 ≤ n) (hk : 0 < k) :
    write (write a off (n * k) (strided stride k f)) (off + n * k) k
      (fun x => f (n * stride + x)) = write a off ((n + 1) * k) (strided stride k f) := by
  have hnk : 0 ≤ n * k := Int.mul_nonneg hn hk.le
  have hsum : (n + 1) * k = n * k + k := by ring
  rw [hsum, ← write_write hnk hk.le]
  funext j
  by_cases hj : off + n * k ≤ j ∧ j < off + n * k + k
  · rw [write_inside hj.1 hj.2, write_inside hj.1 hj.2,
      strided_apply (by omega) (by omega)]
  · unfold write
    rw [if_neg hj, if_neg hj]

end ArrayCopy
