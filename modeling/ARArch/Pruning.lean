import ARArch.BoundedMap

/-!
# Pruning more than one element

The loop of `prune` takes the iterator that `erase` returns and advances it as well, so that it
erases every second element. One element too many is removed as it should be. Of more it leaves
smaller ones in front of larger ones that it erases, and behind the last element it moves past the
end.
-/

namespace ARArch

open Keyed

variable {K V α β : Type} [LinearOrder K] {as : List α} {excess : ℕ}

/-- What the loop leaves of the elements from its iterator on, of which `excess` are too many;
`none` if it moves past the end. -/
def alternatePruned : ℕ → List α → Option (List α)
  | 0, as => some as
  | _ + 1, [] => some []
  | _ + 1, [_] => none
  | excess + 1, _ :: b :: as => (alternatePruned excess as).map fun rest => b :: rest

theorem alternatePruned_nil : alternatePruned excess ([] : List α) = some [] := by
  cases excess <;> rfl

theorem alternatePruned_map {f : α → β} :
    alternatePruned excess (as.map f) = (alternatePruned excess as).map (List.map f) := by
  induction excess, as using alternatePruned.induct with
  | case1 as => rfl
  | case2 excess => rfl
  | case3 excess a => rfl
  | case4 excess a b as ih =>
    simp only [List.map_cons, alternatePruned, ih, Option.map_map]
    rfl

/-- The smallest elements go, and no others, exactly if it is one at most and not the last. -/
theorem alternatePruned_eq_drop_iff (hnodup : as.Nodup) (hle : excess ≤ as.length) :
    alternatePruned excess as = some (as.drop excess) ↔
      excess = 0 ∨ excess = 1 ∧ 2 ≤ as.length := by
  match excess, as with
  | 0, as => simp [alternatePruned]
  | excess + 1, [] => simp at hle
  | excess + 1, [a] => simp [alternatePruned]
  | 1, a :: b :: as => simp [alternatePruned]
  | excess + 2, a :: b :: as =>
    have hb : b ∉ as := (List.nodup_cons.mp (List.nodup_cons.mp hnodup).2).1
    refine iff_of_false ?_ (by omega)
    intro hpruned
    obtain ⟨rest, -, hrest⟩ := Option.map_eq_some_iff.mp hpruned
    have hmem : b ∈ as.drop excess := by
      rw [List.drop_succ_cons, List.drop_succ_cons] at hrest
      rw [← hrest]
      exact List.mem_cons_self
    exact hb (List.mem_of_mem_drop hmem)

/-- The end is overrun by an odd number of elements of which too many are to go. -/
theorem alternatePruned_eq_none_iff :
    alternatePruned excess as = none ↔ as.length % 2 = 1 ∧ as.length < 2 * excess := by
  induction excess, as using alternatePruned.induct with
  | case1 as => simp [alternatePruned]
  | case2 excess => simp [alternatePruned]
  | case3 excess a =>
    have hlt : 1 < 2 * (excess + 1) := by omega
    exact iff_of_true rfl ⟨rfl, hlt⟩
  | case4 excess a b as ih =>
    rw [alternatePruned, Option.map_eq_none_iff, ih]
    simp only [List.length_cons]
    omega

namespace Multimap

variable {m : Multimap K V} {it : ℕ} {a b : K × V} {es : List (K × V)}

theorem elements_erase (h : m.elements.drop it = a :: b :: es) :
    (m.erase it).elements = (m.elements.take it ++ [b]) ++ es ∧
      (m.elements.take it ++ [b]).length = it + 1 := by
  have hlt : it < m.elements.length := by
    have hlen := congrArg List.length h
    simp only [List.length_drop, List.length_cons] at hlen
    omega
  have hdrop : m.elements.drop (it + 1) = b :: es := by
    rw [← List.drop_drop, h]
    rfl
  have herase : (m.erase it).elements = m.elements.eraseIdx it := rfl
  constructor
  · rw [herase, List.eraseIdx_eq_take_drop_succ, hdrop, List.append_assoc]
    rfl
  · rw [List.length_append, List.length_take, List.length_singleton]
    omega

/-- The elements with their positions, which tell them apart as the nodes of the map. -/
def nodes (m : Multimap K V) : Multimap K (ℕ × V) where
  elements := m.elements.zipIdx.map fun e => (e.1.1, e.2, e.1.2)
  sorted := by
    have hkeys : (m.elements.zipIdx.map Prod.fst).Pairwise (fun a b => a.1 ≤ b.1) := by
      rw [List.zipIdx_map_fst]
      exact m.sorted
    exact (List.pairwise_map.mp hkeys).map _ fun _ _ hle => hle

theorem elements_of_nodes (m : Multimap K V) :
    m.nodes.elements.map (fun e => (e.1, e.2.2)) = m.elements := by
  rw [nodes, List.map_map]
  exact List.zipIdx_map_fst ..

theorem nodup_nodes (m : Multimap K V) : m.nodes.elements.Nodup := by
  apply List.Nodup.of_map fun e => e.2.1
  rw [nodes, List.map_map]
  have hpositions : (m.elements.zipIdx.map Prod.snd).Nodup := by
    rw [List.zipIdx_map_snd]
    exact List.nodup_range'
  exact hpositions

theorem size_nodes (m : Multimap K V) : m.nodes.size = m.size := by
  rw [size, size, ← elements_of_nodes m, List.length_map]

end Multimap

namespace BoundedMap

variable {m : Multimap K V} {maxSize it : ℕ} {b : BoundedMap K V}

/-- One turn of the loop erases an element and leaves out the next. -/
theorem pruneFrom_elements (maxSize : ℕ) (m : Multimap K V) (it : ℕ) :
    (pruneFrom maxSize m it).map Multimap.elements =
      (alternatePruned (m.size - maxSize) (m.elements.drop it)).map
        fun rest => m.elements.take it ++ rest := by
  induction m, it using pruneFrom.induct maxSize with
  | case1 m it hit hover hnext ih =>
    obtain ⟨a, b, es, hes⟩ : ∃ a b es, m.elements.drop it = a :: b :: es := by
      have hlt : it + 1 < m.elements.length := Nat.add_lt_of_lt_sub hnext
      exact ⟨_, _, _, by rw [List.drop_eq_getElem_cons hit, List.drop_eq_getElem_cons hlt]⟩
    obtain ⟨herase, hlen⟩ := Multimap.elements_erase hes
    have hexcess : m.size - maxSize = ((m.erase it).size - maxSize) + 1 := by
      rw [Multimap.size_erase hit]
      omega
    rw [pruneFrom, if_pos hit, if_pos hover, if_pos hnext, ih, herase, hes, hexcess,
      List.drop_left' hlen, List.take_left' hlen, alternatePruned, Option.map_map]
    simp only [Function.comp_def, List.append_assoc, List.singleton_append]
  | case2 m it hit hover hlast =>
    obtain ⟨a, ha⟩ : ∃ a, m.elements.drop it = [a] := by
      have hle : m.elements.length ≤ it + 1 := Nat.le_add_of_sub_le (not_lt.mp hlast)
      exact ⟨_, by rw [List.drop_eq_getElem_cons hit, List.drop_eq_nil_of_le hle]⟩
    obtain ⟨excess, hexcess⟩ : ∃ excess, m.size - maxSize = excess + 1 :=
      ⟨m.size - maxSize - 1, by omega⟩
    rw [pruneFrom, if_pos hit, if_pos hover, if_neg hlast, ha, hexcess]
    rfl
  | case3 m it hit hfits =>
    rw [pruneFrom, if_pos hit, if_neg hfits, Nat.sub_eq_zero_of_le (not_lt.mp hfits)]
    simp [alternatePruned]
  | case4 m it hend =>
    have hdrop : m.elements.drop it = [] := List.drop_eq_nil_of_le (not_lt.mp hend)
    rw [pruneFrom, if_neg hend, hdrop, alternatePruned_nil, Option.map_some, Option.map_some,
      List.append_nil, List.take_of_length_le (not_lt.mp hend)]

theorem prune_elements (hkeys : ∀ e ∈ b.m.elements, b.minkey ≤ e.1) :
    b.prune.map (fun b => b.m.elements) =
      alternatePruned (b.m.size - b.maxSize) b.m.elements := by
  have hloop := pruneFrom_elements b.maxSize b.m 0
  simp only [List.drop_zero, List.take_zero, List.nil_append, Option.map_id'] at hloop
  rw [prune, Multimap.lowerBound_eq_zero hkeys, Option.map_map, ← hloop]
  rfl

theorem prune_eq_none_iff (hkeys : ∀ e ∈ b.m.elements, b.minkey ≤ e.1) :
    b.prune = none ↔ b.m.size % 2 = 1 ∧ 2 * b.maxSize < b.m.size := by
  rw [← Option.map_eq_none_iff (f := fun b : BoundedMap K V => b.m.elements), prune_elements hkeys,
    alternatePruned_eq_none_iff, ← Multimap.size]
  omega

def nodes (b : BoundedMap K V) : BoundedMap K (ℕ × V) where
  maxSize := b.maxSize
  minkey := b.minkey
  m := b.m.nodes

theorem keys_of_nodes (hkeys : ∀ e ∈ b.m.elements, b.minkey ≤ e.1) :
    ∀ e ∈ b.nodes.m.elements, b.nodes.minkey ≤ e.1 := by
  intro e he
  have hmem : (e.1, e.2.2) ∈ b.m.elements := by
    rw [← Multimap.elements_of_nodes b.m]
    exact List.mem_map_of_mem he
  exact hkeys _ hmem

/-- The positions change nothing in what `prune` does. -/
theorem prune_nodes (hkeys : ∀ e ∈ b.m.elements, b.minkey ≤ e.1) :
    b.nodes.prune.map (fun b => b.m.elements.map fun e => (e.1, e.2.2)) =
      b.prune.map (fun b => b.m.elements) := by
  have hsize : b.nodes.m.size - b.nodes.maxSize = b.m.size - b.maxSize := by
    rw [show b.nodes.m.size = b.m.size from Multimap.size_nodes b.m]
    rfl
  have hnodes := congrArg (Option.map (List.map fun e => (e.1, e.2.2)))
    (prune_elements (keys_of_nodes hkeys))
  rw [hsize, Option.map_map, ← alternatePruned_map] at hnodes
  rw [prune_elements hkeys]
  exact hnodes.trans (congrArg _ (Multimap.elements_of_nodes b.m))

end BoundedMap

/-- `prune` leaves the elements with the largest keys, the last of equal ones, exactly if one at
most is too many and another one stays. -/
theorem prune_largest_iff (b : BoundedMap K V) (hkeys : ∀ e ∈ b.m.elements, b.minkey ≤ e.1) :
    b.nodes.prune.map (fun b => b.m.elements) = some (largest b.maxSize b.nodes.m.elements) ↔
      b.m.size ≤ b.maxSize ∨ b.m.size = b.maxSize + 1 ∧ 1 ≤ b.maxSize := by
  have hsize : b.nodes.m.size = b.m.size := Multimap.size_nodes b.m
  have hlength : b.nodes.m.elements.length = b.m.size := hsize
  have hmax : b.nodes.maxSize = b.maxSize := rfl
  have hnodup : b.nodes.m.elements.Nodup := Multimap.nodup_nodes b.m
  have hle : b.m.size - b.maxSize ≤ b.nodes.m.elements.length := by
    rw [hlength]
    exact Nat.sub_le _ _
  rw [BoundedMap.prune_elements (BoundedMap.keys_of_nodes hkeys), largest, hsize, hmax, hlength,
    sortByKey_of_sorted b.nodes.m.sorted,
    alternatePruned_eq_drop_iff hnodup hle, hlength]
  omega

/-- Of three elements the smallest goes. -/
theorem prune_largest_of_three :
    let b : BoundedMap ℕ Unit := {
      maxSize := 2
      minkey := 0
      m := ((Multimap.empty.insert (5, ())).insert (7, ())).insert (5, ()) }
    b.nodes.prune.map (fun b => b.m.elements) = some (largest 2 b.nodes.m.elements) := by
  refine (prune_largest_iff _ ?_).mpr (.inr ⟨rfl, by decide⟩)
  decide

/-- A map without room for elements erases its only one and moves past the end; of four elements
that are to be two the second smallest stays and a larger one goes. -/
theorem prune_not_largest :
    ({ maxSize := 0, minkey := 0 } : BoundedMap ℕ Unit).insert (1, ()) = none ∧
      let b : BoundedMap ℕ Unit := {
        maxSize := 2
        minkey := 0
        m := (((Multimap.empty.insert (1, ())).insert (2, ())).insert (3, ())).insert (4, ()) }
      b.prune.map (fun b => b.m.elements) = some [(2, ()), (4, ())] ∧
        largest 2 b.m.elements = [(3, ()), (4, ())] := by
  refine ⟨?_, ?_, by decide⟩
  · rw [BoundedMap.insert, if_pos (by decide)]
    exact (BoundedMap.prune_eq_none_iff (by decide)).mpr (by decide)
  · rw [BoundedMap.prune_elements (by decide)]
    rfl

end ARArch
