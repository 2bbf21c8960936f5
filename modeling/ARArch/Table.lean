import Mathlib.Logic.Function.Basic
import Mathlib.Tactic.Common

/-!
# Tables of keyed entries

The content of a keyed container as a function from keys to optional values. `insert` keeps an
entry that exists, `assign` writes through to it; erasing is by key.
-/

abbrev Table (K V : Type) := K → Option V

namespace Table

variable {K V : Type}

def empty : Table K V := fun _ => none

/-- The same keys with other values. -/
def mapValues {W : Type} (T : Table K V) (f : V → W) : Table K W := fun k => (T k).map f

theorem mapValues_apply {W : Type} (T : Table K V) (f : V → W) (k : K) :
    T.mapValues f k = (T k).map f := rfl

@[simp] theorem empty_apply (k : K) : (empty : Table K V) k = none := rfl

variable [DecidableEq K]

/-- Write the value of a key, whether or not it has one. -/
def assign (T : Table K V) (k : K) (v : V) : Table K V := Function.update T k (some v)

/-- Insert unless the key has a value. -/
def insert (T : Table K V) (k : K) (v : V) : Table K V :=
  if (T k).isSome then T else T.assign k v

def erase (T : Table K V) (k : K) : Table K V := Function.update T k none

/-- Replace the value of a key that has one. -/
def adjust (T : Table K V) (k : K) (f : V → V) : Table K V :=
  Function.update T k ((T k).map f)

@[simp] theorem assign_self (T : Table K V) (k : K) (v : V) : T.assign k v k = some v := by
  simp [assign]

@[simp] theorem assign_of_ne (T : Table K V) {k j : K} (v : V) (h : j ≠ k) :
    T.assign k v j = T j := by
  simp [assign, h]

theorem assign_apply (T : Table K V) (k j : K) (v : V) :
    T.assign k v j = if j = k then some v else T j := by
  simp [assign, Function.update_apply]

theorem insert_of_none {T : Table K V} {k : K} (h : T k = none) (v : V) :
    T.insert k v = T.assign k v := by
  simp [insert, h]

theorem insert_of_some {T : Table K V} {k : K} {w : V} (h : T k = some w) (v : V) :
    T.insert k v = T := by
  simp [insert, h]

@[simp] theorem insert_of_ne (T : Table K V) {k j : K} (v : V) (h : j ≠ k) :
    T.insert k v j = T j := by
  unfold insert
  split_ifs
  · rfl
  · exact T.assign_of_ne v h

theorem insert_self (T : Table K V) (k : K) (v : V) :
    T.insert k v k = some ((T k).getD v) := by
  cases h : T k with
  | none => simp [insert_of_none h]
  | some w => simp [insert_of_some h, h]

@[simp] theorem erase_self (T : Table K V) (k : K) : T.erase k k = none := by
  simp [erase]

@[simp] theorem erase_of_ne (T : Table K V) {k j : K} (h : j ≠ k) : T.erase k j = T j := by
  simp [erase, h]

theorem erase_apply (T : Table K V) (k j : K) :
    T.erase k j = if j = k then none else T j := by
  simp [erase, Function.update_apply]

theorem erase_eq_some {T : Table K V} {k j : K} {v : V} :
    T.erase k j = some v ↔ j ≠ k ∧ T j = some v := by
  rw [erase_apply]
  split_ifs with h <;> simp [h]

@[simp] theorem adjust_self (T : Table K V) (k : K) (f : V → V) :
    T.adjust k f k = (T k).map f := by
  simp [adjust]

@[simp] theorem adjust_of_ne (T : Table K V) {k j : K} (f : V → V) (h : j ≠ k) :
    T.adjust k f j = T j := by
  simp [adjust, h]

theorem isSome_adjust {T : Table K V} {k j : K} {f : V → V} (h : (T j).isSome) :
    ((T.adjust k f) j).isSome := by
  by_cases hj : j = k
  · subst hj
    rwa [adjust_self, Option.isSome_map]
  · rwa [adjust_of_ne _ _ hj]

theorem erase_of_none {T : Table K V} {k : K} (h : T k = none) : T.erase k = T := by
  rw [erase, ← h, Function.update_eq_self]

theorem erase_assign_of_none {T : Table K V} {k : K} (h : T k = none) (v : V) :
    (T.assign k v).erase k = T := by
  funext j
  by_cases hj : j = k
  · subst hj; simp [h]
  · simp [hj]

@[simp] theorem erase_assign_empty (k : K) (v : V) :
    ((empty : Table K V).assign k v).erase k = empty :=
  erase_assign_of_none (empty_apply k) v

theorem mapValues_assign {W : Type} (T : Table K V) (f : V → W) (k : K) (v : V) :
    (T.assign k v).mapValues f = (T.mapValues f).assign k (f v) := by
  funext j
  by_cases hj : j = k
  · simp [mapValues, hj]
  · simp [mapValues, hj]

theorem mapValues_erase {W : Type} (T : Table K V) (f : V → W) (k : K) :
    (T.erase k).mapValues f = (T.mapValues f).erase k := by
  funext j
  by_cases hj : j = k
  · simp [mapValues, hj]
  · simp [mapValues, hj]

end Table
