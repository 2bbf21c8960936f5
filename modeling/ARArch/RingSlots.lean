import Mathlib.Data.Nat.ModEq
import Mathlib.Data.Finset.Card
import Mathlib.Order.Interval.Finset.Nat

/-!
# Slots that are used in turn

The tickets `0, 1, 2, ...` use `n` slots in turn. As long as the tickets in use are fewer than the
slots, no two of them have a slot in common.
-/

namespace ARArch.RingSlots

variable {n lo hi k : ℕ}

/-- The slot of one of the tickets from `lo` up to `hi`. -/
def Occupied (n lo hi k : ℕ) : Prop := ∃ f, lo ≤ f ∧ f < hi ∧ f % n = k

theorem eq_of_mod_eq {f g : ℕ} (hmod : f % n = g % n) (hf : f < g + n) (hg : g < f + n) :
    f = g := by
  apply Nat.ModEq.eq_of_abs_lt hmod
  rw [abs_lt]
  omega

theorem not_occupied_empty : ¬ Occupied n lo lo k := by
  intro ⟨f, hlo, hhi, _⟩
  omega

/-- The slot of the next ticket is free when there is room for one more. -/
theorem not_occupied_next (hroom : hi < lo + n) : ¬ Occupied n lo hi (hi % n) := by
  intro ⟨f, hlo, hhi, hmod⟩
  have hf : f = hi := eq_of_mod_eq hmod (by omega) (by omega)
  omega

theorem occupied_next (hle : lo ≤ hi) :
    Occupied n lo (hi + 1) k ↔ k = hi % n ∨ Occupied n lo hi k := by
  constructor
  · intro ⟨f, hlo, hhi, hmod⟩
    by_cases hf : f = hi
    · exact Or.inl (hf ▸ hmod.symm)
    · exact Or.inr ⟨f, hlo, by omega, hmod⟩
  · rintro (rfl | ⟨f, hlo, hhi, hmod⟩)
    · exact ⟨hi, hle, by omega, rfl⟩
    · exact ⟨f, hlo, by omega, hmod⟩

/-- When the oldest ticket goes, its slot is free, and the others are as they were. -/
theorem occupied_tail (hroom : hi ≤ lo + n) :
    Occupied n (lo + 1) hi k ↔ k ≠ lo % n ∧ Occupied n lo hi k := by
  constructor
  · intro ⟨f, hlo, hhi, hmod⟩
    refine ⟨?_, f, by omega, hhi, hmod⟩
    intro hk
    have hf : f = lo := eq_of_mod_eq (hmod.trans hk) (by omega) (by omega)
    omega
  · intro ⟨hk, f, hlo, hhi, hmod⟩
    have hne : f ≠ lo := by
      intro hf
      exact hk (hf ▸ hmod.symm)
    exact ⟨f, by omega, hhi, hmod⟩

theorem count_eq_zero {m : ℕ} (h : ¬ Occupied n lo (lo + m) k) :
    (List.range' lo m).countP (· % n = k) = 0 := by
  rw [List.countP_eq_zero]
  intro f hf hk
  rw [List.mem_range'_1] at hf
  exact h ⟨f, hf.1, hf.2, of_decide_eq_true hk⟩

theorem count_le_one {m : ℕ} (hroom : m ≤ n) :
    (List.range' lo m).countP (· % n = k) ≤ 1 := by
  induction m with
  | zero => exact Nat.zero_le 1
  | succ m ih =>
      rw [List.range'_1_concat, List.countP_append, List.countP_singleton]
      by_cases hk : (lo + m) % n = k
      · subst hk
        have hfree : ¬ Occupied n lo (lo + m) ((lo + m) % n) := not_occupied_next (by omega)
        rw [count_eq_zero hfree, Nat.zero_add]
        split <;> omega
      · rw [if_neg (by simpa only [decide_eq_true_eq] using hk), Nat.add_zero]
        exact ih (by omega)

/-- Among `n + 1` tickets that have one of `n` images each, two have the same. -/
theorem exists_same_image {image : ℕ → ℕ} (hn : n ≤ hi)
    (himage : ∀ f, hi - n ≤ f → f ≤ hi → image f < n) :
    ∃ a b, hi - n ≤ a ∧ a < b ∧ b ≤ hi ∧ image a = image b := by
  have hcard : (Finset.range n).card < (Finset.Icc (hi - n) hi).card := by
    rw [Finset.card_range, Nat.card_Icc]
    omega
  have hmaps : ∀ f ∈ Finset.Icc (hi - n) hi, image f ∈ Finset.range n := by
    intro f hf
    obtain ⟨hlo, hhi⟩ := Finset.mem_Icc.mp hf
    exact Finset.mem_range.mpr (himage f hlo hhi)
  obtain ⟨a, ha, b, hb, hne, hab⟩ := Finset.exists_ne_map_eq_of_card_lt_of_maps_to hcard hmaps
  rw [Finset.mem_Icc] at ha hb
  obtain hlt | hlt := Nat.lt_or_gt_of_ne hne
  · exact ⟨a, b, ha.1, hlt, hb.2, hab⟩
  · exact ⟨b, a, hb.1, hlt, ha.2, hab.symm⟩

end ARArch.RingSlots
