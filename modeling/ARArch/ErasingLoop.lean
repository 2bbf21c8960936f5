import Mathlib.Data.List.Basic
import Mathlib.Tactic.Common

/-!
# Erasing while iterating

The loop `for (it = begin; it != end; ++it) if (! keep(*it)) it = erase(it)`. `erase` returns the
element behind the erased one, which `++it` then leaves out; behind the last one it moves past the
end. The loop erases all that is not to be kept exactly if an element to keep follows each of them.
-/

variable {α : Type} {keep : α → Bool} {a b : α} {as : List α} {r : List α × List α}

/-- What stays and what is erased, or `none` when the iterator moves past the end. -/
def erasingLoop (keep : α → Bool) : List α → Option (List α × List α)
  | [] => some ([], [])
  | [a] => if keep a then some ([a], []) else none
  | a :: b :: as =>
    if keep a then (erasingLoop keep (b :: as)).map fun r => (a :: r.1, r.2)
    else (erasingLoop keep as).map fun r => (b :: r.1, a :: r.2)

/-- An element to keep comes right behind each that is not to be kept. -/
def Followed (keep : α → Bool) : List α → Prop
  | [] => True
  | a :: as => (keep a = false → ∃ b ∈ as.head?, keep b = true) ∧ Followed keep as

namespace Followed

theorem tail (h : Followed keep (a :: as)) : Followed keep as := h.2

theorem not_singleton (h : keep a = false) : ¬Followed keep [a] := by
  rintro ⟨hfollow, _⟩
  obtain ⟨b, hb, _⟩ := hfollow h
  cases hb

theorem keep_next (h : Followed keep (a :: b :: as)) (ha : keep a = false) : keep b = true := by
  obtain ⟨c, hc, hkeep⟩ := h.1 ha
  obtain rfl : b = c := Option.some.inj hc
  exact hkeep

theorem cons_of_keep (ha : keep a = true) (h : Followed keep as) : Followed keep (a :: as) := by
  refine ⟨?_, h⟩
  intro hfalse
  rw [ha] at hfalse
  cases hfalse

theorem cons_cons (hb : keep b = true) (h : Followed keep as) : Followed keep (a :: b :: as) :=
  ⟨fun _ => ⟨b, rfl, hb⟩, h.cons_of_keep hb⟩

instance decidable (keep : α → Bool) : (as : List α) → Decidable (Followed keep as)
  | [] => .isTrue trivial
  | a :: as =>
    have := decidable keep as
    inferInstanceAs (Decidable ((keep a = false → ∃ b ∈ as.head?, keep b = true) ∧ _))

end Followed

theorem erasingLoop_of_followed (h : Followed keep as) :
    erasingLoop keep as = some (as.filter keep, as.filter fun a => !keep a) := by
  induction as using erasingLoop.induct keep with
  | case1 => rfl
  | case2 a ha => simp [erasingLoop, ha]
  | case3 a ha => exact absurd h (Followed.not_singleton (Bool.eq_false_iff.mpr ha))
  | case4 a b as ha ih =>
    rw [erasingLoop, if_pos ha, ih h.tail]
    simp [ha]
  | case5 a b as ha ih =>
    have hb : keep b = true := h.keep_next (Bool.eq_false_iff.mpr ha)
    rw [erasingLoop, if_neg ha, ih h.tail.tail]
    simp [ha, hb]

/-- What stays tells already that nothing was left out. -/
theorem Followed.of_erasingLoop (h : erasingLoop keep as = some r) (hr : r.1 = as.filter keep) :
    Followed keep as := by
  induction as using erasingLoop.induct keep generalizing r with
  | case1 => trivial
  | case2 a ha => exact Followed.cons_of_keep ha trivial
  | case3 a ha =>
    rw [erasingLoop, if_neg ha] at h
    cases h
  | case4 a b as ha ih =>
    rw [erasingLoop, if_pos ha, Option.map_eq_some_iff] at h
    obtain ⟨r', hr', rfl⟩ := h
    rw [List.filter_cons_of_pos ha] at hr
    exact Followed.cons_of_keep ha (ih hr' (List.cons.inj hr).2)
  | case5 a b as ha ih =>
    rw [erasingLoop, if_neg ha, Option.map_eq_some_iff] at h
    obtain ⟨r', hr', rfl⟩ := h
    rw [List.filter_cons_of_neg ha] at hr
    have hb : keep b = true := by
      have hmem : b ∈ (b :: as).filter keep := by
        rw [← hr]
        exact List.mem_cons_self
      exact (List.mem_filter.mp hmem).2
    rw [List.filter_cons_of_pos hb] at hr
    exact Followed.cons_cons hb (ih hr' (List.cons.inj hr).2)
