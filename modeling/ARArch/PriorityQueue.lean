import Mathlib.Order.Lattice
import Mathlib.Tactic.Common

/-!
# A priority queue

Elements with keys in a linear order, one with the greatest key at the top. Of two elements with
the same key the one that was pushed first stays above the other.
-/

structure PriorityQueue {α κ : Type} [LinearOrder κ] (key : α → κ) where
  elements : List α
  key_le_head : ∀ t ∈ elements.head?, ∀ e ∈ elements, key e ≤ key t

namespace PriorityQueue

variable {α κ : Type} [LinearOrder κ] {key : α → κ} {q : PriorityQueue key} {e t x : α}

def empty : PriorityQueue key where
  elements := []
  key_le_head _ ht := by cases ht

def top (q : PriorityQueue key) : Option α := q.elements.head?

def pushOnto (key : α → κ) (x : α) : List α → List α
  | [] => [x]
  | t :: rest => if key t < key x then x :: t :: rest else t :: x :: rest

theorem mem_pushOnto {es : List α} : e ∈ pushOnto key x es ↔ e = x ∨ e ∈ es := by
  cases es with
  | nil => exact List.mem_singleton.trans (or_iff_left List.not_mem_nil).symm
  | cons t rest =>
    rw [pushOnto]
    split
    · exact List.mem_cons
    · rw [List.mem_cons, List.mem_cons, List.mem_cons, or_left_comm]

theorem key_le_pushOnto {es : List α} (h : ∀ t ∈ es.head?, ∀ e ∈ es, key e ≤ key t) :
    ∀ t ∈ (pushOnto key x es).head?, ∀ e ∈ pushOnto key x es, key e ≤ key t := by
  intro t ht e he
  rw [mem_pushOnto] at he
  cases es with
  | nil =>
    obtain rfl : x = t := Option.some.inj ht
    rcases he with rfl | he
    · exact le_rfl
    · cases he
  | cons u rest =>
    rw [pushOnto] at ht
    by_cases hu : key u < key x
    · rw [if_pos hu] at ht
      obtain rfl : x = t := Option.some.inj ht
      rcases he with rfl | he
      · exact le_rfl
      · exact le_trans (h u rfl e he) (le_of_lt hu)
    · rw [if_neg hu] at ht
      obtain rfl : u = t := Option.some.inj ht
      rcases he with rfl | he
      · exact not_lt.mp hu
      · exact h u rfl e he

def push (q : PriorityQueue key) (x : α) : PriorityQueue key where
  elements := pushOnto key x q.elements
  key_le_head := key_le_pushOnto q.key_le_head

@[simp] theorem mem_push : e ∈ (q.push x).elements ↔ e = x ∨ e ∈ q.elements := mem_pushOnto

theorem top_mem (h : q.top = some t) : t ∈ q.elements := List.mem_of_head? h

theorem key_le_top (h : q.top = some t) (he : e ∈ q.elements) : key e ≤ key t :=
  q.key_le_head t h e he

theorem top_eq_none : q.top = none ↔ q.elements = [] := List.head?_eq_none_iff

end PriorityQueue
