import Mathlib.Order.Basic
import Mathlib.Order.Defs.Unbundled
import Mathlib.Data.List.Basic
import Mathlib.Tactic.Common

/-!
# Handles and what they belong to

An object belongs to the object it was created from and to the owners of that one. Its handle is
good until the object or one of its owners is destroyed. What goes wrong is written down and the
calls go on; `≤` says what any calls can do, `Spares` that no older object was destroyed by them.
-/

/-- The elements below `i` are there and have the property. -/
def Filled {α : Type} (P : α → Prop) (xs : List α) (i : ℕ) : Prop :=
  ∀ j < i, ∃ x, xs[j]? = some x ∧ P x

namespace Filled

variable {α : Type} {P Q : α → Prop} {xs : List α} {x : α} {i : ℕ}

theorem zero : Filled P xs 0 := by
  intro j hj
  omega

theorem mono (hxs : Filled P xs i) (hPQ : ∀ x, P x → Q x) : Filled Q xs i := by
  intro j hj
  obtain ⟨x, hget, hx⟩ := hxs j hj
  exact ⟨x, hget, hPQ x hx⟩

theorem of_le {n : ℕ} (hxs : Filled P xs i) (hn : n ≤ i) : Filled P xs n :=
  fun j hj => hxs j (Nat.lt_of_lt_of_le hj hn)

theorem set (hxs : Filled P xs i) (hi : i < xs.length) (hx : P x) :
    Filled P (xs.set i x) (i + 1) := by
  intro j hj
  by_cases hij : i = j
  · subst hij
    exact ⟨x, List.getElem?_set_self hi, hx⟩
  · obtain ⟨y, hget, hy⟩ := hxs j (by omega)
    refine ⟨y, ?_, hy⟩
    rw [List.getElem?_set_ne hij]
    exact hget

end Filled

structure Handle where
  id : ℕ
  owners : List ℕ
  deriving DecidableEq

namespace Handle

def lineage (h : Handle) : List ℕ := h.id :: h.owners

/-- The owners of what is created from this object, if there is one. -/
def ownersBelow : Option Handle → List ℕ
  | none => []
  | some h => h.lineage

theorem id_mem_lineage {h : Handle} : h.id ∈ h.lineage := List.mem_cons_self

end Handle

inductive HandleFault
  | destroyedTwice (id : ℕ)
  | ownerDestroyed (id : ℕ)
  | usedDestroyed (id : ℕ)
  | indeterminate
  | outOfBounds (index size : ℕ)
  deriving DecidableEq

structure Handles where
  next : ℕ := 0
  destroyed : List ℕ := []
  faults : List HandleFault := []

namespace Handles

variable {a b c : Handles} {h owner : Handle} {fault : HandleFault}

def Dead (a : Handles) (h : Handle) : Prop := ∃ id ∈ h.lineage, id ∈ a.destroyed

instance : Decidable (a.Dead h) := inferInstanceAs (Decidable (∃ id ∈ h.lineage, id ∈ a.destroyed))

/-- The object was created, and neither it nor one of its owners has been destroyed. -/
def Live (a : Handles) (h : Handle) : Prop := ∀ id ∈ h.lineage, id < a.next ∧ id ∉ a.destroyed

instance : Decidable (a.Live h) :=
  inferInstanceAs (Decidable (∀ id ∈ h.lineage, id < a.next ∧ id ∉ a.destroyed))

def log (a : Handles) (fault : HandleFault) : Handles := { a with faults := fault :: a.faults }

def create (a : Handles) (owner : Option Handle) : Handle × Handles :=
  ({ id := a.next, owners := Handle.ownersBelow owner }, { a with next := a.next + 1 })

/-- A call that is given this handle. -/
def use (a : Handles) : Option Handle → Handles
  | none => a
  | some h => if a.Dead h then a.log (.usedDestroyed h.id) else a

def misuse (a : Handles) (h : Handle) : Option HandleFault :=
  if h.id ∈ a.destroyed then some (.destroyedTwice h.id)
  else if a.Dead h then some (.ownerDestroyed h.id)
  else none

/-- Destroying the null handle does nothing. -/
def destroy (a : Handles) : Option Handle → Handles
  | none => a
  | some h =>
    { a with destroyed := h.id :: a.destroyed, faults := (a.misuse h).toList ++ a.faults }

/-- `handles[i]`; behind the end it is read as the null handle, and the fault is written down. -/
def read (a : Handles) (handles : List (Option Handle)) (i : ℕ) : Option Handle × Handles :=
  match handles[i]? with
  | some h => (h, a)
  | none => (none, a.log (.outOfBounds i handles.length))

def useAll (a : Handles) (handles : List (Option Handle)) : Handles := handles.foldl use a

instance : LE Handles where
  le a b := a.next ≤ b.next ∧ a.destroyed ⊆ b.destroyed ∧ a.faults ⊆ b.faults

instance : Preorder Handles where
  le_refl a := ⟨Nat.le_refl _, List.Subset.refl _, List.Subset.refl _⟩
  le_trans _ _ _ hab hbc :=
    ⟨Nat.le_trans hab.1 hbc.1, List.Subset.trans hab.2.1 hbc.2.1, List.Subset.trans hab.2.2 hbc.2.2⟩

/-- All that was destroyed from `a` to `b` was also created from `a` to `b`. -/
structure Spares (a b : Handles) : Prop where
  next_le : a.next ≤ b.next
  of_destroyed : ∀ id ∈ b.destroyed, id ∈ a.destroyed ∨ a.next ≤ id ∧ id < b.next

instance : Std.Refl Spares := ⟨fun _ => ⟨Nat.le_refl _, fun _ hid => .inl hid⟩⟩

instance : IsTrans Handles Spares where
  trans := by
    intro a b c hab hbc
    refine ⟨Nat.le_trans hab.next_le hbc.next_le, ?_⟩
    intro id hid
    obtain hid | hnew := hbc.of_destroyed id hid
    · have hle := hbc.next_le
      obtain hid | hnew := hab.of_destroyed id hid
      · exact .inl hid
      · exact .inr (by omega)
    · have hle := hab.next_le
      exact .inr (by omega)

theorem le_log : a ≤ a.log fault :=
  ⟨Nat.le_refl _, List.Subset.refl _, List.subset_cons_self fault a.faults⟩

theorem le_create {o : Option Handle} : a ≤ (a.create o).2 :=
  ⟨Nat.le_succ _, List.Subset.refl _, List.Subset.refl _⟩

theorem le_use {o : Option Handle} : a ≤ a.use o := by
  match o with
  | none => exact le_refl a
  | some h =>
    by_cases hdead : a.Dead h
    · rw [use, if_pos hdead]
      exact le_log
    · rw [use, if_neg hdead]

theorem le_destroy {o : Option Handle} : a ≤ a.destroy o := by
  match o with
  | none => exact le_refl a
  | some h => exact ⟨Nat.le_refl _, List.subset_cons_self _ _, List.subset_append_right _ _⟩

theorem le_read {handles : List (Option Handle)} {i : ℕ} : a ≤ (a.read handles i).2 := by
  unfold read
  match handles[i]? with
  | some h => exact le_refl a
  | none => exact le_log

theorem le_useAll {handles : List (Option Handle)} : a ≤ a.useAll handles := by
  induction handles generalizing a with
  | nil => exact le_refl a
  | cons h handles ih => exact le_use.trans ih

theorem Dead.mono (hdead : a.Dead h) (hab : a ≤ b) : b.Dead h := by
  obtain ⟨id, hid, hdestroyed⟩ := hdead
  exact ⟨id, hid, hab.2.1 hdestroyed⟩

theorem faults_ne_nil_mono (hfaults : a.faults ≠ []) (hab : a ≤ b) : b.faults ≠ [] := by
  intro hnil
  apply hfaults
  rw [← List.subset_nil, ← hnil]
  exact hab.2.2

theorem dead_destroy (hid : owner.id ∈ h.lineage) : (a.destroy (some owner)).Dead h :=
  ⟨owner.id, hid, List.mem_cons_self⟩

/-- Destroying what is dead is always a fault. -/
theorem faults_destroy_of_dead (hdead : a.Dead h) : (a.destroy (some h)).faults ≠ [] := by
  unfold destroy misuse
  by_cases hid : h.id ∈ a.destroyed
  · simp [hid]
  · simp [hid, hdead]

theorem misuse_of_not_dead (hdead : ¬a.Dead h) : a.misuse h = none := by
  have hid : h.id ∉ a.destroyed := fun hid => hdead ⟨h.id, Handle.id_mem_lineage, hid⟩
  rw [misuse, if_neg hid, if_neg hdead]

theorem use_of_not_dead (hdead : ¬a.Dead h) : a.use (some h) = a := if_neg hdead

theorem faults_destroy_of_not_dead (hdead : ¬a.Dead h) :
    (a.destroy (some h)).faults = a.faults := by
  simp only [destroy, misuse_of_not_dead hdead, Option.toList_none, List.nil_append]

/-- Nothing was destroyed so far, and nothing went wrong. -/
def Untouched (a : Handles) : Prop := a.destroyed = [] ∧ a.faults = []

theorem Untouched.not_dead (ha : a.Untouched) : ¬a.Dead h := by
  rintro ⟨id, -, hid⟩
  rw [ha.1] at hid
  cases hid

theorem Untouched.use_eq (ha : a.Untouched) {o : Option Handle} : a.use o = a := by
  match o with
  | none => rfl
  | some h => exact use_of_not_dead ha.not_dead

theorem Untouched.create (ha : a.Untouched) {o : Option Handle} : (a.create o).2.Untouched := ha

theorem spares_log : Spares a (a.log fault) := ⟨Nat.le_refl _, fun _ hid => .inl hid⟩

theorem spares_create {o : Option Handle} : Spares a (a.create o).2 :=
  ⟨Nat.le_succ _, fun _ hid => .inl hid⟩

theorem spares_use {o : Option Handle} : Spares a (a.use o) := by
  match o with
  | none => exact refl_of Spares a
  | some h =>
    by_cases hdead : a.Dead h
    · rw [use, if_pos hdead]
      exact spares_log
    · rw [use, if_neg hdead]
      exact refl_of Spares a

theorem spares_read {handles : List (Option Handle)} {i : ℕ} : Spares a (a.read handles i).2 := by
  unfold read
  match handles[i]? with
  | some h => exact refl_of Spares a
  | none => exact spares_log

theorem spares_useAll {handles : List (Option Handle)} : Spares a (a.useAll handles) := by
  induction handles generalizing a with
  | nil => exact refl_of Spares a
  | cons h handles ih => exact trans_of Spares spares_use ih

/-- What was created on the way may be destroyed again. -/
theorem Spares.destroy (hab : Spares a b) (hnew : a.next ≤ h.id) (hlt : h.id < b.next) :
    Spares a (b.destroy (some h)) := by
  refine ⟨hab.next_le, ?_⟩
  intro id hid
  obtain rfl | hid := List.mem_cons.mp hid
  · exact .inr ⟨hnew, hlt⟩
  · exact hab.of_destroyed id hid

theorem Live.of_spares (hlive : a.Live h) (hab : Spares a b) : b.Live h := by
  intro id hid
  obtain ⟨hlt, hnot⟩ := hlive id hid
  refine ⟨Nat.lt_of_lt_of_le hlt hab.next_le, ?_⟩
  intro hdestroyed
  obtain hold | hnew := hab.of_destroyed id hdestroyed
  · exact hnot hold
  · omega

/-- The handle is not null, and its object lives. -/
def Usable (a : Handles) (o : Option Handle) : Prop := ∃ h, o = some h ∧ a.Live h

theorem Live.destroy {k : Handle} (hlive : a.Live h) (hk : k.id ∉ h.lineage) :
    (a.destroy (some k)).Live h := by
  intro id hid
  obtain ⟨hlt, hnot⟩ := hlive id hid
  refine ⟨hlt, ?_⟩
  intro hdestroyed
  obtain rfl | hold := List.mem_cons.mp hdestroyed
  · exact hk hid
  · exact hnot hold

theorem use_next {o : Option Handle} : (a.use o).next = a.next := by
  match o with
  | none => rfl
  | some h =>
    by_cases hdead : a.Dead h
    · rw [use, if_pos hdead, log]
    · rw [use, if_neg hdead]

/-- What was created in front of `h` is not in its lineage, unless its owner is that old. -/
def Inherits (a : Handles) (h : Handle) (o : Option Handle) : Prop :=
  ∀ id ∈ h.lineage, id < a.next → id ∈ Handle.ownersBelow o

theorem inherits_create {o : Option Handle} : a.Inherits (a.create o).1 o := by
  intro id hid hlt
  obtain rfl | hid := List.mem_cons.mp hid
  · exact absurd hlt (Nat.lt_irrefl _)
  · exact hid

theorem Inherits.mono {o : Option Handle} (hinherit : b.Inherits h o) (hle : a.next ≤ b.next) :
    a.Inherits h o :=
  fun id hid hlt => hinherit id hid (Nat.lt_of_lt_of_le hlt hle)

/-- An object that is newer than the owner and older than `h` may be destroyed. -/
theorem Inherits.not_mem {o : Option Handle} {k : Handle} (hinherit : b.Inherits h o)
    (ho : a.Usable o) (hnew : a.next ≤ k.id) (hold : k.id < b.next) : k.id ∉ h.lineage := by
  intro hmem
  obtain ⟨owner, rfl, howner⟩ := ho
  have hlt := (howner k.id (hinherit k.id hmem hold)).1
  omega

/-- No destroyed object is newer than the newest. -/
def Bounded (a : Handles) : Prop := ∀ id ∈ a.destroyed, id < a.next

theorem Bounded.of_spares (ha : a.Bounded) (hab : Spares a b) : b.Bounded := by
  intro id hid
  obtain hold | hnew := hab.of_destroyed id hid
  · exact Nat.lt_of_lt_of_le (ha id hold) hab.next_le
  · exact hnew.2

theorem live_create (ha : a.Bounded) (howner : a.Live owner) :
    (a.create (some owner)).2.Live (a.create (some owner)).1 := by
  intro id hid
  obtain rfl | hid := List.mem_cons.mp hid
  · refine ⟨Nat.lt_succ_self _, ?_⟩
    intro hdestroyed
    exact Nat.lt_irrefl _ (ha _ hdestroyed)
  · obtain ⟨hlt, hnot⟩ := howner id hid
    exact ⟨Nat.lt_succ_of_lt hlt, hnot⟩

theorem Usable.of_spares {o : Option Handle} (ha : a.Usable o) (hab : Spares a b) :
    b.Usable o := by
  obtain ⟨h, ho, hlive⟩ := ha
  exact ⟨h, ho, hlive.of_spares hab⟩

theorem live_create_none (ha : a.Bounded) : (a.create none).2.Live (a.create none).1 := by
  intro id hid
  obtain rfl | hid := List.mem_cons.mp hid
  · exact ⟨Nat.lt_succ_self _, fun hdestroyed => Nat.lt_irrefl _ (ha _ hdestroyed)⟩
  · cases hid

theorem use_of_live (hlive : a.Live h) : a.use (some h) = a :=
  use_of_not_dead fun ⟨id, hid, hdestroyed⟩ => (hlive id hid).2 hdestroyed

/-- The handle is null, or its object lives. -/
def Harmless (a : Handles) (o : Option Handle) : Prop := ∀ h, o = some h → a.Live h

theorem Usable.harmless {o : Option Handle} (ho : a.Usable o) : a.Harmless o := by
  obtain ⟨h, rfl, hlive⟩ := ho
  intro k hk
  cases hk
  exact hlive

theorem use_of_harmless {o : Option Handle} (ho : a.Harmless o) : a.use o = a := by
  match o with
  | none => rfl
  | some h => exact use_of_live (ho h rfl)

theorem useAll_of_harmless {handles : List (Option Handle)}
    (hhandles : ∀ o ∈ handles, a.Harmless o) : a.useAll handles = a := by
  induction handles with
  | nil => rfl
  | cons o handles ih =>
    rw [List.forall_mem_cons] at hhandles
    rw [useAll, List.foldl_cons, use_of_harmless hhandles.1]
    exact ih hhandles.2

theorem read_of_filled {handles : List (Option Handle)} {i n : ℕ}
    (hfilled : Filled a.Usable handles n) (hi : i < n) :
    ∃ o, a.read handles i = (o, a) ∧ a.Usable o := by
  obtain ⟨o, hget, ho⟩ := hfilled i hi
  exact ⟨o, by rw [read, hget], ho⟩

theorem usable_create {o : Option Handle} (ha : a.Bounded) (ho : a.Usable o) :
    (a.create o).2.Live (a.create o).1 := by
  obtain ⟨owner, rfl, howner⟩ := ho
  exact live_create ha howner

end Handles
