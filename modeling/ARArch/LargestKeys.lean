import Mathlib.Data.List.Sort
import Mathlib.Order.Defs.LinearOrder

/-!
# The entries with the largest keys

Entries with keys come one after another. `sortByKey` lists them by key, those of equal keys in
the order in which they came, and `largest n` are the last `n` of that list: what remains when
the smallest keys are dropped first and among equal keys the earliest. They can be kept up to date
one entry at a time, and their keys do not depend on the order in which the entries came.
-/

namespace Keyed

variable {K V : Type} [LinearOrder K]

abbrev Sorted (l : List (K × V)) : Prop := l.Pairwise (fun a b => a.1 ≤ b.1)

/-- Insert an entry behind those of smaller and of equal keys. -/
def insertByKey (e : K × V) (l : List (K × V)) : List (K × V) :=
  l.orderedInsert (fun a b => a.1 < b.1) e

def sortByKey (es : List (K × V)) : List (K × V) := es.insertionSort (fun a b => a.1 ≤ b.1)

def largest (n : ℕ) (es : List (K × V)) : List (K × V) := (sortByKey es).drop (es.length - n)

variable {l es es' : List (K × V)} {e b : K × V} {n : ℕ}

theorem insertByKey_cons_of_lt (h : e.1 < b.1) : insertByKey e (b :: l) = e :: b :: l :=
  List.orderedInsert_cons_of_le _ l h

theorem insertByKey_cons_of_not_lt (h : ¬ e.1 < b.1) :
    insertByKey e (b :: l) = b :: insertByKey e l :=
  List.orderedInsert_of_not_le _ l h

@[simp] theorem length_insertByKey : (insertByKey e l).length = l.length + 1 :=
  List.orderedInsert_length _ l e

theorem mem_insertByKey : b ∈ insertByKey e l ↔ b = e ∨ b ∈ l := List.mem_orderedInsert _

theorem sorted_insertByKey (h : Sorted l) : Sorted (insertByKey e l) := by
  induction l with
  | nil => exact List.pairwise_singleton _ e
  | cons b l ih =>
      obtain ⟨hb, hl⟩ := List.pairwise_cons.mp h
      by_cases he : e.1 < b.1
      · rw [insertByKey_cons_of_lt he]
        refine List.pairwise_cons.mpr ⟨fun d hd => ?_, h⟩
        rcases List.mem_cons.mp hd with rfl | hd
        · exact he.le
        · exact he.le.trans (hb d hd)
      · rw [insertByKey_cons_of_not_lt he]
        refine List.pairwise_cons.mpr ⟨fun d hd => ?_, ih hl⟩
        rcases mem_insertByKey.mp hd with rfl | hd
        · exact not_lt.mp he
        · exact hb d hd

@[simp] theorem length_sortByKey : (sortByKey es).length = es.length :=
  List.length_insertionSort _ es

theorem sorted_sortByKey : Sorted (sortByKey es) := by
  induction es with
  | nil => exact List.Pairwise.nil
  | cons e es ih =>
      have : IsTrans (K × V) (fun a b => a.1 ≤ b.1) := ⟨fun _ _ _ => le_trans⟩
      have : Std.Total (fun a b : K × V => a.1 ≤ b.1) := ⟨fun a b => le_total a.1 b.1⟩
      exact ih.orderedInsert e _

theorem sortByKey_of_sorted (h : Sorted es) : sortByKey es = es := by
  have : IsTrans (K × V) (fun a b => a.1 ≤ b.1) := ⟨fun _ _ _ => le_trans⟩
  have : Std.Total (fun a b : K × V => a.1 ≤ b.1) := ⟨fun a b => le_total a.1 b.1⟩
  exact List.Pairwise.insertionSort_eq h

/-- An entry that came first and one that came last are inserted in either order. -/
theorem orderedInsert_insertByKey (a e : K × V) (l : List (K × V)) :
    (insertByKey e l).orderedInsert (fun a b => a.1 ≤ b.1) a =
      insertByKey e (l.orderedInsert (fun a b => a.1 ≤ b.1) a) := by
  induction l with
  | nil =>
      by_cases h : a.1 ≤ e.1
      · simp [insertByKey, h, not_lt.mpr h]
      · simp [insertByKey, h, not_le.mp h]
  | cons b l ih =>
      by_cases heb : e.1 < b.1
      · rw [insertByKey_cons_of_lt heb]
        by_cases hae : a.1 ≤ e.1
        · have hab : a.1 ≤ b.1 := hae.trans heb.le
          simp only [List.orderedInsert_cons, if_pos hae, if_pos hab]
          rw [insertByKey_cons_of_not_lt (not_lt.mpr hae), insertByKey_cons_of_lt heb]
        · have hea := not_le.mp hae
          by_cases hab : a.1 ≤ b.1
          · simp only [List.orderedInsert_cons, if_neg hae, if_pos hab]
            rw [insertByKey_cons_of_lt hea]
          · simp only [List.orderedInsert_cons, if_neg hae, if_neg hab]
            rw [insertByKey_cons_of_lt heb]
      · rw [insertByKey_cons_of_not_lt heb]
        by_cases hab : a.1 ≤ b.1
        · have hae : a.1 ≤ e.1 := hab.trans (not_lt.mp heb)
          simp only [List.orderedInsert_cons, if_pos hab]
          rw [insertByKey_cons_of_not_lt (not_lt.mpr hae), insertByKey_cons_of_not_lt heb]
        · simp only [List.orderedInsert_cons, if_neg hab]
          rw [insertByKey_cons_of_not_lt heb, ih]

theorem sortByKey_append_singleton :
    sortByKey (es ++ [e]) = insertByKey e (sortByKey es) := by
  induction es with
  | nil => rfl
  | cons a es ih =>
      change (sortByKey (es ++ [e])).orderedInsert _ a = _
      rw [ih]
      exact orderedInsert_insertByKey a e _

/-- Dropping before an insertion loses the same entries as dropping after it. -/
theorem drop_insertByKey (hl : Sorted l) (k : ℕ) :
    (insertByKey e l).drop (k + 1) = (insertByKey e (l.drop k)).drop 1 := by
  induction l generalizing k with
  | nil => simp [insertByKey]
  | cons b l ih =>
      cases k with
      | zero => rfl
      | succ k =>
          obtain ⟨hb, hl⟩ := List.pairwise_cons.mp hl
          rw [List.drop_succ_cons, ← ih hl]
          by_cases he : e.1 < b.1
          · rw [insertByKey_cons_of_lt he, List.drop_succ_cons, List.drop_succ_cons]
            cases l with
            | nil => simp [insertByKey]
            | cons d l =>
                have hed : e.1 < d.1 := he.trans_le (hb d List.mem_cons_self)
                rw [insertByKey_cons_of_lt hed, List.drop_succ_cons]
          · rw [insertByKey_cons_of_not_lt he, List.drop_succ_cons]

@[simp] theorem length_largest : (largest n es).length = min es.length n := by
  simp only [largest, List.length_drop, length_sortByKey]
  omega

@[simp] theorem largest_nil : largest n ([] : List (K × V)) = [] := by
  simp [largest, sortByKey]

theorem mem_of_mem_largest (h : e ∈ largest n es) : e ∈ es :=
  (List.mem_insertionSort _).mp (List.mem_of_mem_drop h)

theorem largest_append_of_lt (h : es.length < n) :
    largest n (es ++ [e]) = insertByKey e (largest n es) := by
  have hnew : (es ++ [e]).length - n = 0 := by
    rw [List.length_append, List.length_singleton]
    omega
  have hold : es.length - n = 0 := by omega
  rw [largest, largest, hnew, hold, sortByKey_append_singleton, List.drop_zero, List.drop_zero]

theorem largest_append_of_le (h : n ≤ es.length) :
    largest n (es ++ [e]) = (insertByKey e (largest n es)).drop 1 := by
  have hnew : (es ++ [e]).length - n = es.length - n + 1 := by
    rw [List.length_append, List.length_singleton]
    omega
  rw [largest, hnew, sortByKey_append_singleton, drop_insertByKey sorted_sortByKey]
  rfl

/-- The keys of the largest entries do not depend on the order of the entries. -/
theorem keys_largest_of_perm (h : es.Perm es') :
    (largest n es).map Prod.fst = (largest n es').map Prod.fst := by
  have hkeys (es : List (K × V)) : (sortByKey es).map Prod.fst =
      (es.map Prod.fst).insertionSort (fun a b => a ≤ b) :=
    List.map_insertionSort _ _ Prod.fst es (fun _ _ _ _ => Iff.rfl)
  have hsorted : (es.map Prod.fst).insertionSort (fun a b => a ≤ b) =
      (es'.map Prod.fst).insertionSort (fun a b => a ≤ b) := by
    have hperm := ((List.perm_insertionSort (fun a b => a ≤ b) _).trans
      (h.map Prod.fst)).trans (List.perm_insertionSort (fun a b => a ≤ b) _).symm
    exact hperm.eq_of_pairwise' (List.pairwise_insertionSort _ _)
      (List.pairwise_insertionSort _ _)
  rw [largest, largest, List.map_drop, List.map_drop, hkeys, hkeys, hsorted, h.length_eq]

end Keyed
