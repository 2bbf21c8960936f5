import Mathlib.Data.List.Nodup
import Mathlib.Logic.Function.Basic
import Mathlib.Tactic.Common

/-!
# Objects in places

What is held where, as a function from places to the objects in them. Objects that are apart stay
so when all that one place holds is moved to another, and when new ones are put somewhere; what is
freed can be such a place too, which nothing ever leaves.
-/

abbrev Holdings (P O : Type) := P → List O

namespace Holdings

variable {P O : Type} {H : Holdings P O} {p q r : P} {o : O} {os : List O}

/-- Every object is in one place at most, and there once. -/
structure Apart (H : Holdings P O) : Prop where
  nodup : ∀ p, (H p).Nodup
  place_eq : ∀ p q, ∀ o ∈ H p, o ∈ H q → p = q

theorem Apart.nowhere (h : ∀ p, H p = []) : H.Apart where
  nodup p := by
    rw [h]
    exact List.nodup_nil
  place_eq p _ o ho := by
    rw [h] at ho
    cases ho

variable [DecidableEq P]

def put (H : Holdings P O) (p : P) (os : List O) : Holdings P O :=
  Function.update H p (os ++ H p)

def clear (H : Holdings P O) (p : P) : Holdings P O := Function.update H p []

/-- Move what one place holds to another. -/
def move (H : Holdings P O) (p q : P) : Holdings P O := (H.clear p).put q (H p)

theorem put_self : H.put p os p = os ++ H p := Function.update_self ..

theorem put_of_ne (h : q ≠ p) : H.put p os q = H q := Function.update_of_ne h ..

theorem clear_self : H.clear p p = [] := Function.update_self ..

theorem clear_of_ne (h : q ≠ p) : H.clear p q = H q := Function.update_of_ne h ..

theorem eq_put {H' : Holdings P O} (hp : H' p = os ++ H p) (hrest : ∀ q, q ≠ p → H' q = H q) :
    H' = H.put p os := by
  funext q
  by_cases hq : q = p
  · rw [hq, put_self, hp]
  · rw [put_of_ne hq, hrest q hq]

theorem eq_move {H' : Holdings P O} (hpq : p ≠ q) (hp : H' p = []) (hq : H' q = H p ++ H q)
    (hrest : ∀ r, r ≠ p → r ≠ q → H' r = H r) : H' = H.move p q := by
  apply eq_put
  · rw [hq, clear_of_ne hpq.symm]
  · intro r hr
    by_cases hrp : r = p
    · rw [hrp, clear_self, hp]
    · rw [clear_of_ne hrp, hrest r hrp hr]

theorem mem_put : o ∈ H.put p os q ↔ q = p ∧ o ∈ os ∨ o ∈ H q := by
  by_cases h : q = p
  · rw [h, put_self, List.mem_append]
    simp only [true_and]
  · rw [put_of_ne h]
    simp only [h, false_and, false_or]

theorem mem_clear : o ∈ H.clear p q ↔ q ≠ p ∧ o ∈ H q := by
  by_cases h : q = p
  · rw [h, clear_self]
    simp only [List.not_mem_nil, ne_eq, not_true_eq_false, false_and]
  · rw [clear_of_ne h]
    simp only [ne_eq, h, not_false_eq_true, true_and]

theorem exists_mem_of_mem_move (h : o ∈ H.move p q r) : ∃ r', o ∈ H r' := by
  rcases mem_put.mp h with ⟨-, hp⟩ | hr
  · exact ⟨p, hp⟩
  · exact ⟨r, (mem_clear.mp hr).2⟩

theorem Apart.clear (h : H.Apart) (p : P) : (H.clear p).Apart where
  nodup q := by
    by_cases hq : q = p
    · rw [hq, clear_self]
      exact List.nodup_nil
    · rw [clear_of_ne hq]
      exact h.nodup q
  place_eq q r o hq hr := h.place_eq q r o (mem_clear.mp hq).2 (mem_clear.mp hr).2

theorem Apart.put (h : H.Apart) (p : P) (hnodup : os.Nodup) (hnew : ∀ o ∈ os, ∀ q, o ∉ H q) :
    (H.put p os).Apart where
  nodup q := by
    by_cases hq : q = p
    · rw [hq, put_self, List.nodup_append]
      refine ⟨hnodup, h.nodup p, ?_⟩
      rintro o ho _ hp rfl
      exact hnew o ho p hp
    · rw [put_of_ne hq]
      exact h.nodup q
  place_eq q r o hq hr := by
    rcases mem_put.mp hq with ⟨hqp, hnq⟩ | hq
    · rcases mem_put.mp hr with ⟨hrp, -⟩ | hr
      · rw [hqp, hrp]
      · exact absurd hr (hnew o hnq r)
    · rcases mem_put.mp hr with ⟨-, hnr⟩ | hr
      · exact absurd hq (hnew o hnr q)
      · exact h.place_eq q r o hq hr

theorem Apart.move (h : H.Apart) (p q : P) : (H.move p q).Apart := by
  refine (h.clear p).put q (h.nodup p) ?_
  intro o ho r hr
  obtain ⟨hne, hr⟩ := mem_clear.mp hr
  exact hne (h.place_eq r p o hr ho)

end Holdings
