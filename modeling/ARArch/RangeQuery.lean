import ARArch.BoundedMap
import Mathlib.Data.List.TakeWhile

/-!
# Elements between two keys

`between` walks from the lower bound of one key to the upper bound of another. It stops where the
two iterators are equal, so that it must not begin behind the upper bound; only a lower bound at
the end is excepted. When the keys are in order this cannot happen, when they are not it depends
on the keys in the map.
-/

namespace ARArch

open Keyed

variable {K V : Type} [LinearOrder K]

namespace Multimap

def upperBound (m : Multimap K V) (key : K) : ℕ :=
  (m.elements.takeWhile (fun e => e.1 ≤ key)).length

/-- Insert elements one after another. -/
def insertAll (m : Multimap K V) (es : List (K × V)) : Multimap K V := es.foldl insert m

/-- The elements with a key from `starting` to `ending`. -/
def inRange (m : Multimap K V) (starting ending : K) : List (K × V) :=
  m.elements.filter (fun e => starting ≤ e.1 ∧ e.1 ≤ ending)

/-- No key lies strictly between the two when they are out of order, or all keys are below
`starting`. -/
def Walkable (m : Multimap K V) (starting ending : K) : Prop :=
  (∀ e ∈ m.elements, ¬(ending < e.1 ∧ e.1 < starting)) ∨ ∀ e ∈ m.elements, e.1 < starting

end Multimap

namespace BoundedMap

/-- The loop of `between`, with the elements from `it1` on; `none` if it reads behind the last. -/
def betweenFrom (it2 : ℕ) : ℕ → List (K × V) → Multimap K V → ℕ → Option (ℕ × Multimap K V)
  | it1, [], results, c => if it1 = it2 then some (c, results) else none
  | it1, e :: es, results, c =>
    if it1 = it2 then some (c, results)
    else betweenFrom it2 (it1 + 1) es (results.insert e) (c + 1)

def between (b : BoundedMap K V) (starting ending : K) (results : Multimap K V) :
    Option (ℕ × Multimap K V) :=
  let it1 := b.m.lowerBound starting
  let it2 := b.m.upperBound ending
  if it1 ≠ b.m.size then betweenFrom it2 it1 (b.m.elements.drop it1) results 0
  else some (0, results)

/-- The elements of the range are added, and counted. -/
def AnswersRange (b : BoundedMap K V) (starting ending : K) (results : Multimap K V) : Prop :=
  b.between starting ending results = some ((b.m.inRange starting ending).length,
    results.insertAll (b.m.inRange starting ending))

end BoundedMap

namespace Multimap

variable {m results : Multimap K V} {starting ending key : K} {e : K × V} {l es : List (K × V)}

/-- The lower bound lies before the upper one if no key does the opposite. -/
theorem length_takeWhile_le_iff (h : Sorted l) :
    (l.takeWhile (fun e => e.1 < starting)).length ≤
        (l.takeWhile (fun e => e.1 ≤ ending)).length ↔
      ∀ e ∈ l, ¬(ending < e.1 ∧ e.1 < starting) := by
  induction l with
  | nil => simp
  | cons d l ih =>
      obtain ⟨hd, hl⟩ := List.pairwise_cons.mp h
      by_cases hs : d.1 < starting
      · by_cases he : d.1 ≤ ending
        · simpa [hs, he, not_lt.mpr he] using ih hl
        · simp [hs, he, not_le.mp he]
      · have hall : ∀ e ∈ d :: l, ¬ e.1 < starting := by
          intro e he
          rcases List.mem_cons.mp he with rfl | he
          · exact hs
          · exact fun hlt => hs ((hd e he).trans_lt hlt)
        constructor
        · exact fun _ e he hbetween => hall e he hbetween.2
        · intro _
          simp [hs]

theorem filter_range_eq (h : Sorted l) :
    l.filter (fun e => starting ≤ e.1 ∧ e.1 ≤ ending) =
      (l.take (l.takeWhile (fun e => e.1 ≤ ending)).length).drop
        (l.takeWhile (fun e => e.1 < starting)).length := by
  induction l with
  | nil => rfl
  | cons d l ih =>
      obtain ⟨hd, hl⟩ := List.pairwise_cons.mp h
      by_cases he : d.1 ≤ ending
      · by_cases hs : d.1 < starting
        · simpa [hs, he, not_le.mpr hs] using ih hl
        · have hzero : (l.takeWhile (fun e => e.1 < starting)).length = 0 := by
            cases l with
            | nil => rfl
            | cons e l =>
                have hle : starting ≤ e.1 := (not_lt.mp hs).trans (hd e List.mem_cons_self)
                simp [not_lt.mpr hle]
          have hrest := ih hl
          rw [hzero, List.drop_zero] at hrest
          simpa [hs, he, not_lt.mp hs] using hrest
      · have hnone : ∀ e ∈ d :: l, ¬ (starting ≤ e.1 ∧ e.1 ≤ ending) := by
          intro e hmem hin
          rcases List.mem_cons.mp hmem with rfl | hmem
          · exact he hin.2
          · exact he ((hd e hmem).trans hin.2)
        have hempty : (d :: l).filter (fun e => starting ≤ e.1 ∧ e.1 ≤ ending) = [] := by
          apply List.filter_eq_nil_iff.mpr
          intro e hmem
          simpa using hnone e hmem
        rw [hempty]
        simp [he]

theorem inRange_eq : m.inRange starting ending =
    (m.elements.take (m.upperBound ending)).drop (m.lowerBound starting) :=
  filter_range_eq m.sorted

theorem upperBound_le_size : m.upperBound key ≤ m.size := (List.takeWhile_sublist _).length_le

theorem lowerBound_le_size : m.lowerBound key ≤ m.size := (List.takeWhile_sublist _).length_le

theorem lowerBound_eq_size : m.lowerBound key = m.size ↔ ∀ e ∈ m.elements, e.1 < key := by
  have hsub := List.takeWhile_prefix (l := m.elements) (fun e => decide (e.1 < key))
  constructor
  · intro h
    simpa using List.takeWhile_eq_self_iff.mp (hsub.eq_of_length h)
  · intro h
    have hall : m.elements.takeWhile (fun e => decide (e.1 < key)) = m.elements := by
      simpa [List.takeWhile_eq_self_iff] using h
    exact congrArg List.length hall

theorem walkable_iff : m.Walkable starting ending ↔
    m.lowerBound starting ≤ m.upperBound ending ∨ m.lowerBound starting = m.size := by
  rw [lowerBound_eq_size]
  exact or_congr_left (length_takeWhile_le_iff m.sorted).symm

/-- Keys in order make a range that can be walked. -/
theorem walkable_of_le (h : starting ≤ ending) : m.Walkable starting ending :=
  .inl fun _ _ hbetween => (h.trans_lt hbetween.1).not_gt hbetween.2

end Multimap

namespace BoundedMap

variable {b : BoundedMap K V} {results : Multimap K V} {starting ending : K} {es : List (K × V)}
  {it1 it2 c : ℕ}

theorem betweenFrom_eq_some (h : it1 ≤ it2) (hend : it2 ≤ it1 + es.length) :
    betweenFrom it2 it1 es results c =
      some (c + (it2 - it1), results.insertAll (es.take (it2 - it1))) := by
  induction es generalizing it1 results c with
  | nil =>
      have heq : it1 = it2 := by
        rw [List.length_nil] at hend
        omega
      simp [betweenFrom, heq, Multimap.insertAll]
  | cons e es ih =>
      rw [List.length_cons] at hend
      by_cases heq : it1 = it2
      · simp [betweenFrom, heq, Multimap.insertAll]
      · have hsub : it2 - it1 = it2 - (it1 + 1) + 1 := by omega
        have hcount : c + 1 + (it2 - (it1 + 1)) = c + (it2 - it1) := by omega
        rw [betweenFrom, if_neg heq, ih (by omega) (by omega), hcount, hsub, List.take_succ_cons]
        rfl

/-- A walk that begins behind its end does not meet it. -/
theorem betweenFrom_eq_none (h : it2 < it1) : betweenFrom it2 it1 es results c = none := by
  induction es generalizing it1 results c with
  | nil => exact if_neg (by omega)
  | cons e es ih =>
      rw [betweenFrom, if_neg (by omega)]
      exact ih (by omega)

/-- `between` answers the range exactly if it can be walked, and otherwise not at all. -/
theorem between_eq : b.between starting ending results =
    if b.m.lowerBound starting ≤ b.m.upperBound ending ∨ b.m.lowerBound starting = b.m.size then
      some ((b.m.inRange starting ending).length,
        results.insertAll (b.m.inRange starting ending))
    else none := by
  have hlow : b.m.lowerBound starting ≤ b.m.size := b.m.lowerBound_le_size
  have hup : b.m.upperBound ending ≤ b.m.size := b.m.upperBound_le_size
  have hrange : (b.m.elements.drop (b.m.lowerBound starting)).take
      (b.m.upperBound ending - b.m.lowerBound starting) = b.m.inRange starting ending := by
    rw [Multimap.inRange_eq, List.drop_take]
  have hlength : (b.m.inRange starting ending).length =
      b.m.upperBound ending - b.m.lowerBound starting := by
    rw [Multimap.inRange_eq, List.length_drop, List.length_take]
    have hsize : b.m.elements.length = b.m.size := rfl
    omega
  by_cases hend : b.m.lowerBound starting = b.m.size
  · have hempty : b.m.inRange starting ending = [] := by
      rw [← List.length_eq_zero_iff]
      omega
    rw [if_pos (.inr hend), between, if_neg (not_not.mpr hend), hempty]
    rfl
  · rw [between, if_pos hend]
    by_cases hle : b.m.lowerBound starting ≤ b.m.upperBound ending
    · rw [if_pos (.inl hle), betweenFrom_eq_some hle, hrange, hlength, Nat.zero_add]
      rw [List.length_drop]
      have hsize : b.m.elements.length = b.m.size := rfl
      omega
    · have hnot : ¬ (b.m.lowerBound starting ≤ b.m.upperBound ending ∨
          b.m.lowerBound starting = b.m.size) := not_or.mpr ⟨hle, hend⟩
      rw [if_neg hnot]
      exact betweenFrom_eq_none (not_le.mp hle)

theorem answersRange_iff :
    b.AnswersRange starting ending results ↔ b.m.Walkable starting ending := by
  rw [AnswersRange, Multimap.walkable_iff, between_eq]
  split_ifs with h
  · exact iff_of_true rfl h
  · exact iff_of_false (fun hnone => by cases hnone) h

end BoundedMap
end ARArch
