import ARArch.LargestKeys

/-!
# A map of bounded size

`bounded_map` wraps a `std::multimap` and, when an insertion makes it too large, removes the
smallest keys from `minkey` on. Its elements are always the largest of those inserted.

The loop of `prune` advances its iterator after an erasure too, over the element that follows. It
does not run past the end: a single insertion leaves one element too many, and the element erased
has a successor. A map that may hold no element at all has none.
-/

namespace ARArch

open Keyed

/-- A `std::multimap` as the elements that an iteration meets. An element is inserted behind those
with an equal key. Iterators are positions in the list, that of `end()` is the size. -/
structure Multimap (K V : Type) [LinearOrder K] where
  elements : List (K × V)
  sorted : Sorted elements

variable {K V : Type} [LinearOrder K]

namespace Multimap

def empty : Multimap K V := ⟨[], List.Pairwise.nil⟩

def size (m : Multimap K V) : ℕ := m.elements.length

def insert (m : Multimap K V) (value : K × V) : Multimap K V :=
  ⟨insertByKey value m.elements, sorted_insertByKey m.sorted⟩

def lowerBound (m : Multimap K V) (key : K) : ℕ :=
  (m.elements.takeWhile (fun e => e.1 < key)).length

/-- Erase the element at a position, which is then that of the next element. -/
def erase (m : Multimap K V) (it : ℕ) : Multimap K V :=
  ⟨m.elements.eraseIdx it, m.sorted.sublist (List.eraseIdx_sublist _ it)⟩

theorem size_insert (m : Multimap K V) (value : K × V) : (m.insert value).size = m.size + 1 :=
  length_insertByKey

theorem size_erase {m : Multimap K V} {it : ℕ} (h : it < m.size) :
    (m.erase it).size = m.size - 1 :=
  List.length_eraseIdx_of_lt h

theorem lowerBound_eq_zero {m : Multimap K V} {key : K} (h : ∀ e ∈ m.elements, key ≤ e.1) :
    m.lowerBound key = 0 := by
  unfold lowerBound
  cases hm : m.elements with
  | nil => rfl
  | cons e es =>
      have hle : key ≤ e.1 := h e (by simp [hm])
      simp [not_lt.mpr hle]

end Multimap

structure BoundedMap (K V : Type) [LinearOrder K] where
  maxSize : ℕ
  minkey : K
  m : Multimap K V := Multimap.empty

namespace BoundedMap

/-- The loop of `prune` from an iterator on; `none` if it advances the iterator past the end. -/
def pruneFrom (maxSize : ℕ) (m : Multimap K V) (it : ℕ) : Option (Multimap K V) :=
  if it < m.size then
    if maxSize < m.size then
      -- erased, the element gives its position to the next one, and `++it` steps over that
      if it < m.size - 1 then pruneFrom maxSize (m.erase it) (it + 1) else none
    else some m
  else some m
termination_by m.size - it
decreasing_by
  rename_i hit _ _
  rw [Multimap.size_erase hit]
  omega

def prune (b : BoundedMap K V) : Option (BoundedMap K V) :=
  (pruneFrom b.maxSize b.m (b.m.lowerBound b.minkey)).map (fun m => { b with m := m })

/-- The iterator that `insert` answers is used by no caller and left out. -/
def insert (b : BoundedMap K V) (value : K × V) : Option (BoundedMap K V) :=
  let b' := { b with m := b.m.insert value }
  if b'.maxSize < b'.m.size then b'.prune else some b'

def inserts (b : BoundedMap K V) (values : List (K × V)) : Option (BoundedMap K V) :=
  values.foldlM BoundedMap.insert b

variable {b : BoundedMap K V} {m : Multimap K V} {maxSize : ℕ} {minkey : K} {e : K × V}
  {es : List (K × V)}

/-- One element too many: the first one goes. -/
theorem pruneFrom_first (hmax : 1 ≤ maxSize) (h : m.size = maxSize + 1) :
    pruneFrom maxSize m 0 = some (m.erase 0) := by
  have hsize : (m.erase 0).size = maxSize := by
    rw [Multimap.size_erase (by omega), h]
    rfl
  rw [pruneFrom, if_pos (by omega), if_pos (by omega), if_pos (by omega), pruneFrom, hsize,
    if_neg (Nat.lt_irrefl maxSize)]
  exact ite_self _

/-- The map holds the largest of the elements inserted so far. -/
structure Holds (maxSize : ℕ) (minkey : K) (es : List (K × V)) (b : BoundedMap K V) : Prop where
  bound : b.maxSize = maxSize
  least : b.minkey = minkey
  elements : b.m.elements = largest maxSize es

theorem Holds.size (h : Holds maxSize minkey es b) : b.m.size = min es.length maxSize := by
  rw [Multimap.size, h.elements, length_largest]

theorem holds_insert (hmax : 1 ≤ maxSize) (h : Holds maxSize minkey es b)
    (hkeys : ∀ d ∈ es ++ [e], minkey ≤ d.1) :
    ∃ b', b.insert e = some b' ∧ Holds maxSize minkey (es ++ [e]) b' := by
  have hsize : (b.m.insert e).size = min es.length maxSize + 1 := by
    rw [Multimap.size_insert, h.size]
  by_cases hlt : es.length < maxSize
  · refine ⟨{ b with m := b.m.insert e }, ?_, h.bound, h.least, ?_⟩
    · refine if_neg ?_
      dsimp only
      rw [hsize, h.bound]
      omega
    · rw [largest_append_of_lt hlt, ← h.elements]
      rfl
  · have hle : maxSize ≤ es.length := not_lt.mp hlt
    have hlower : (b.m.insert e).lowerBound b.minkey = 0 := by
      refine Multimap.lowerBound_eq_zero (fun d hd => ?_)
      rw [h.least]
      apply hkeys d
      rcases mem_insertByKey.mp hd with rfl | hd
      · exact List.mem_append_right _ List.mem_cons_self
      · rw [h.elements] at hd
        exact List.mem_append_left _ (mem_of_mem_largest hd)
    refine ⟨{ b with m := (b.m.insert e).erase 0 }, ?_, h.bound, h.least, ?_⟩
    · have hover : b.maxSize < (b.m.insert e).size := by
        rw [hsize, h.bound]
        omega
      have hone : (b.m.insert e).size = b.maxSize + 1 := by
        rw [hsize, h.bound]
        omega
      have hmax' : 1 ≤ b.maxSize := by
        rw [h.bound]
        exact hmax
      rw [insert, if_pos hover, prune]
      dsimp only
      rw [hlower, pruneFrom_first hmax' hone]
      rfl
    · rw [largest_append_of_le hle, ← h.elements]
      exact List.eraseIdx_zero.trans List.drop_one.symm

theorem holds_inserts (hmax : 1 ≤ maxSize) (h : Holds maxSize minkey es b) (es' : List (K × V))
    (hkeys : ∀ d ∈ es ++ es', minkey ≤ d.1) :
    ∃ b', b.inserts es' = some b' ∧ Holds maxSize minkey (es ++ es') b' := by
  induction es' generalizing es b with
  | nil =>
      rw [List.append_nil]
      exact ⟨b, rfl, h⟩
  | cons e es' ih =>
      have happend : es ++ e :: es' = es ++ [e] ++ es' := by simp
      rw [happend] at hkeys ⊢
      obtain ⟨b₁, hb₁, h₁⟩ :=
        holds_insert hmax h (fun d hd => hkeys d (List.mem_append_left _ hd))
      obtain ⟨b₂, hb₂, h₂⟩ := ih h₁ hkeys
      refine ⟨b₂, ?_, h₂⟩
      rw [inserts, List.foldlM_cons, hb₁]
      exact hb₂

end BoundedMap

/-- Any insertions, one by one, into a new map: no iterator runs past the end, the map holds the
largest of the elements, and another order of the insertions leaves the same keys. -/
theorem bounded_map_keeps_largest {maxSize : ℕ} (hmax : 1 ≤ maxSize) (minkey : K)
    (es : List (K × V)) (hkeys : ∀ e ∈ es, minkey ≤ e.1) :
    ∃ b : BoundedMap K V, ({ maxSize, minkey } : BoundedMap K V).inserts es = some b ∧
      b.m.elements = largest maxSize es ∧ b.m.size = min es.length maxSize ∧
      ∀ es' : List (K × V), es'.Perm es →
        ∃ b' : BoundedMap K V, ({ maxSize, minkey } : BoundedMap K V).inserts es' = some b' ∧
          b'.m.elements.map Prod.fst = b.m.elements.map Prod.fst := by
  have hrun (es : List (K × V)) (hkeys : ∀ e ∈ es, minkey ≤ e.1) :
      ∃ b, ({ maxSize, minkey } : BoundedMap K V).inserts es = some b ∧
        BoundedMap.Holds maxSize minkey es b := by
    have hnew : BoundedMap.Holds maxSize minkey [] ({ maxSize, minkey } : BoundedMap K V) :=
      ⟨rfl, rfl, largest_nil.symm⟩
    exact BoundedMap.holds_inserts hmax hnew es hkeys
  obtain ⟨b, hb, h⟩ := hrun es hkeys
  refine ⟨b, hb, h.elements, h.size, fun es' hperm => ?_⟩
  obtain ⟨b', hb', h'⟩ := hrun es' (fun e he => hkeys e (hperm.mem_iff.mp he))
  refine ⟨b', hb', ?_⟩
  rw [h'.elements, h.elements]
  exact keys_largest_of_perm hperm

/-- Of three elements the two with the largest keys stay, the later one of the key 5. -/
theorem bounded_map_keeps_largest_two :
    ∃ b : BoundedMap ℕ ℕ,
      ({ maxSize := 2, minkey := 0 } : BoundedMap ℕ ℕ).inserts [(5, 0), (7, 1), (5, 2)] =
        some b ∧ b.m.elements = [(5, 2), (7, 1)] := by
  obtain ⟨b, hb, helements, _⟩ := bounded_map_keeps_largest (K := ℕ) (V := ℕ)
    (by decide : 1 ≤ 2) 0 [(5, 0), (7, 1), (5, 2)] (by simp)
  exact ⟨b, hb, helements.trans (by decide)⟩

end ARArch
