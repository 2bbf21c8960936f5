import Mathlib.Data.List.Sort

/-!
# A stable sort by a key

Sorting by keys in ascending order keeps the order of elements with the same key. So the first
element of the sorted list is the first of those with the least key, and the last element the last
of those with the greatest.
-/

variable {α κ : Type} [LinearOrder κ] {key : α → κ} {l : List α} {a m m' : α}

def sortedBy (key : α → κ) (l : List α) : List α := l.insertionSort fun a b => key a ≤ key b

theorem sortedBy_perm : (sortedBy key l).Perm l := List.perm_insertionSort _ _

theorem mem_sortedBy : a ∈ sortedBy key l ↔ a ∈ l := sortedBy_perm.mem_iff

theorem sortedBy_pairwise : (sortedBy key l).Pairwise fun a b => key a ≤ key b := by
  have : IsTrans α fun a b => key a ≤ key b := ⟨fun _ _ _ => le_trans⟩
  have : Std.Total fun a b : α => key a ≤ key b := ⟨fun a b => le_total (key a) (key b)⟩
  exact List.pairwise_insertionSort _ l

/-- The first of the elements with the least key. -/
inductive FirstLeast (key : α → κ) : List α → α → Prop
  | here {l : List α} {m : α} (h : ∀ a ∈ l, key m ≤ key a) : FirstLeast key (m :: l) m
  | there {l : List α} {a m : α} (h : FirstLeast key l m) (hlt : key m < key a) : FirstLeast key (a :: l) m

namespace FirstLeast

theorem mem (h : FirstLeast key l m) : m ∈ l := by
  induction h with
  | here _ => exact List.mem_cons_self
  | there _ _ ih => exact List.mem_cons_of_mem _ ih

theorem key_le (h : FirstLeast key l m) : ∀ a ∈ l, key m ≤ key a := by
  induction h with
  | here h =>
    intro a ha
    rcases List.mem_cons.mp ha with rfl | ha
    · exact le_rfl
    · exact h a ha
  | there _ hlt ih =>
    intro a ha
    rcases List.mem_cons.mp ha with rfl | ha
    · exact hlt.le
    · exact ih a ha

theorem unique (h : FirstLeast key l m) (h' : FirstLeast key l m') : m = m' := by
  induction h with
  | here hle =>
    cases h' with
    | here _ => rfl
    | there h' hlt => exact absurd hlt (not_lt.mpr (hle _ h'.mem))
  | there h hlt ih =>
    cases h' with
    | here hle => exact absurd hlt (not_lt.mpr (hle _ h.mem))
    | there h' _ => exact ih h'

theorem of_head (h : (sortedBy key l).head? = some m) : FirstLeast key l m := by
  induction l generalizing m with
  | nil => cases h
  | cons a l ih =>
    cases hsorted : sortedBy key l with
    | nil =>
      obtain rfl : l = [] := List.nil_perm.mp (hsorted ▸ sortedBy_perm)
      obtain rfl : a = m := Option.some.inj h
      exact .here fun b hb => absurd hb List.not_mem_nil
    | cons b rest =>
      have hb : FirstLeast key l b := ih (congrArg List.head? hsorted)
      have hcons : sortedBy key (a :: l) =
          if key a ≤ key b then a :: b :: rest
          else b :: rest.orderedInsert (fun a b => key a ≤ key b) a := by
        rw [sortedBy, List.insertionSort_cons, ← sortedBy, hsorted, List.orderedInsert_cons]
      rw [hcons] at h
      by_cases hab : key a ≤ key b
      · rw [if_pos hab] at h
        obtain rfl : a = m := Option.some.inj h
        exact .here fun c hc => hab.trans (hb.key_le c hc)
      · rw [if_neg hab] at h
        obtain rfl : b = m := Option.some.inj h
        exact .there hb (not_le.mp hab)

end FirstLeast

theorem head_sortedBy_iff : (sortedBy key l).head? = some m ↔ FirstLeast key l m := by
  constructor
  · exact FirstLeast.of_head
  · intro h
    cases hhead : (sortedBy key l).head? with
    | none =>
      have hnil : l = [] := List.nil_perm.mp (List.head?_eq_none_iff.mp hhead ▸ sortedBy_perm)
      have hmem := h.mem
      rw [hnil] at hmem
      cases hmem
    | some m' => rw [h.unique (FirstLeast.of_head hhead)]

/-- The last of the elements with the greatest key. -/
inductive LastGreatest (key : α → κ) : List α → α → Prop
  | here {l : List α} {m : α} (h : ∀ a ∈ l, key a < key m) : LastGreatest key (m :: l) m
  | there {l : List α} {a m : α} (h : LastGreatest key l m) (hle : key a ≤ key m) :
      LastGreatest key (a :: l) m

namespace LastGreatest

theorem mem (h : LastGreatest key l m) : m ∈ l := by
  induction h with
  | here _ => exact List.mem_cons_self
  | there _ _ ih => exact List.mem_cons_of_mem _ ih

theorem le_key (h : LastGreatest key l m) : ∀ a ∈ l, key a ≤ key m := by
  induction h with
  | here h =>
    intro a ha
    rcases List.mem_cons.mp ha with rfl | ha
    · exact le_rfl
    · exact (h a ha).le
  | there _ hle ih =>
    intro a ha
    rcases List.mem_cons.mp ha with rfl | ha
    · exact hle
    · exact ih a ha

theorem unique (h : LastGreatest key l m) (h' : LastGreatest key l m') : m = m' := by
  induction h with
  | here hlt =>
    cases h' with
    | here _ => rfl
    | there h' hle => exact absurd (hlt _ h'.mem) (not_lt.mpr hle)
  | there h hle ih =>
    cases h' with
    | here hlt => exact absurd (hlt _ h.mem) (not_lt.mpr hle)
    | there h' _ => exact ih h'

end LastGreatest

section Insert

variable {a b : α}

/-- An element goes behind all that have a smaller key. -/
theorem orderedInsert_of_lt (h : ∀ b ∈ l, key b < key a) :
    l.orderedInsert (fun a b => key a ≤ key b) a = l ++ [a] := by
  induction l with
  | nil => rfl
  | cons b l ih =>
    have hlt := h b List.mem_cons_self
    rw [List.orderedInsert_cons, if_neg (not_le.mpr hlt),
      ih fun c hc => h c (List.mem_cons_of_mem b hc)]
    rfl

/-- An element goes before one whose key is not smaller. -/
theorem getLast_orderedInsert_of_le (hb : l.getLast? = some b) (hle : key a ≤ key b) :
    (l.orderedInsert (fun a b => key a ≤ key b) a).getLast? = some b := by
  induction l with
  | nil => cases hb
  | cons c l ih =>
    rw [List.orderedInsert_cons]
    split_ifs with hac
    · rw [List.getLast?_cons_cons, hb]
    · cases l with
      | nil =>
        obtain rfl : c = b := Option.some.inj hb
        exact absurd hle hac
      | cons d l =>
        have hlast := ih (by rwa [List.getLast?_cons_cons] at hb)
        rw [List.getLast?_cons, hlast]
        rfl

/-- Selecting from a sorted list commutes with putting an element into it. -/
theorem filter_orderedInsert (p : α → Bool) (hl : l.Pairwise fun a b => key a ≤ key b) :
    (l.orderedInsert (fun a b => key a ≤ key b) a).filter p =
      if p a then (l.filter p).orderedInsert (fun a b => key a ≤ key b) a else l.filter p := by
  induction l with
  | nil =>
    rw [List.orderedInsert_nil, List.filter_cons, List.filter_nil, List.orderedInsert_nil]
  | cons b l ih =>
    obtain ⟨hb, hl⟩ := List.pairwise_cons.mp hl
    by_cases hab : key a ≤ key b
    · rw [List.orderedInsert_cons, if_pos hab, List.filter_cons]
      split_ifs
      · have hall : ∀ c ∈ (b :: l).filter p, key a ≤ key c := by
          intro c hc
          rcases List.mem_cons.mp (List.mem_filter.mp hc).1 with rfl | hc
          · exact hab
          · exact hab.trans (hb c hc)
        cases hf : (b :: l).filter p with
        | nil => rfl
        | cons c rest =>
          have hac : key a ≤ key c := hall c (by rw [hf]; exact List.mem_cons_self)
          rw [List.orderedInsert_cons, if_pos hac]
      · rfl
    · rw [List.orderedInsert_cons, if_neg hab, List.filter_cons, List.filter_cons, ih hl]
      by_cases hp : p b = true
      · rw [if_pos hp, if_pos hp, List.orderedInsert_cons, if_neg hab]
        split_ifs <;> rfl
      · rw [if_neg hp, if_neg hp]

end Insert

/-- What is selected is sorted as if it stood alone. -/
theorem filter_sortedBy (p : α → Bool) :
    (sortedBy key l).filter p = sortedBy key (l.filter p) := by
  induction l with
  | nil => rfl
  | cons a l ih =>
    have hcons : sortedBy key (a :: l) =
        (sortedBy key l).orderedInsert (fun a b => key a ≤ key b) a := rfl
    rw [hcons, filter_orderedInsert p sortedBy_pairwise, ih, List.filter_cons]
    split_ifs <;> rfl

theorem LastGreatest.of_getLast (h : (sortedBy key l).getLast? = some m) :
    LastGreatest key l m := by
  induction l generalizing m with
  | nil => cases h
  | cons a l ih =>
    have hcons : sortedBy key (a :: l) =
        (sortedBy key l).orderedInsert (fun a b => key a ≤ key b) a := rfl
    rw [hcons] at h
    cases hlast : (sortedBy key l).getLast? with
    | none =>
      have hnil : l = [] := List.nil_perm.mp (List.getLast?_eq_none_iff.mp hlast ▸ sortedBy_perm)
      subst hnil
      obtain rfl : a = m := Option.some.inj h
      exact .here fun b hb => absurd hb List.not_mem_nil
    | some b =>
      have hb := ih hlast
      by_cases hab : key a ≤ key b
      · rw [getLast_orderedInsert_of_le hlast hab] at h
        obtain rfl : b = m := Option.some.inj h
        exact .there hb hab
      · have hall : ∀ c ∈ sortedBy key l, key c < key a := by
          intro c hc
          exact (hb.le_key c (mem_sortedBy.mp hc)).trans_lt (not_le.mp hab)
        rw [orderedInsert_of_lt hall, List.getLast?_concat] at h
        obtain rfl : a = m := Option.some.inj h
        exact .here fun c hc => hall c (mem_sortedBy.mpr hc)

theorem getLast_sortedBy_iff : (sortedBy key l).getLast? = some m ↔ LastGreatest key l m := by
  constructor
  · exact LastGreatest.of_getLast
  · intro h
    cases hlast : (sortedBy key l).getLast? with
    | none =>
      have hnil : l = [] := List.nil_perm.mp (List.getLast?_eq_none_iff.mp hlast ▸ sortedBy_perm)
      have hmem := h.mem
      rw [hnil] at hmem
      cases hmem
    | some m' => rw [h.unique (LastGreatest.of_getLast hlast)]
