import ARArch.Sessions
import Mathlib.Data.Int.ModEq

/-!
# The ring buffer

`RingBuffer<T>` keeps its elements in a vector that is never moved: `tail` is the place of the
oldest element, `head` the place for the next one, and a full buffer gives its oldest element up.
Seen from outside it is a list that forgets its oldest elements.

Indices and lengths are `int`s. An access outside the vector has no result.
-/

namespace ARArch

structure RingBuffer (α : Type) where
  content : List α
  head : ℤ := 0
  tail : ℤ := 0
  length : ℤ := 0
  capacity : ℤ

namespace RingBuffer

variable {α : Type}

/-- The constructor; `value` is what `resize` fills the vector with. -/
def new (value : α) (capacity : ℤ) : RingBuffer α :=
  { content := List.replicate capacity.toNat value, capacity := capacity }

def indexIncrement (b : RingBuffer α) (i : ℤ) : ℤ := if b.capacity ≤ i + 1 then 0 else i + 1

/-- `content[i]`, read. -/
def read (b : RingBuffer α) (i : ℤ) : Option α := if 0 ≤ i then b.content[i.toNat]? else none

/-- `content[i]`, written. -/
def write (b : RingBuffer α) (i : ℤ) (x : α) : Option (RingBuffer α) :=
  if 0 ≤ i ∧ i < b.content.length then some { b with content := b.content.set i.toNat x }
  else none

def clear (b : RingBuffer α) : RingBuffer α := { b with head := 0, tail := 0, length := 0 }

def empty (b : RingBuffer α) : Bool := b.length = 0

def full (b : RingBuffer α) : Bool := b.length ≥ b.capacity

def size (b : RingBuffer α) : ℤ := b.length

/-- The first statement of `push`: a full buffer loses its oldest element. -/
def makeRoom (b : RingBuffer α) : RingBuffer α :=
  if b.length ≥ b.capacity then
    { b with tail := b.indexIncrement b.tail, length := b.length - 1 }
  else b

/-- The others: the element goes to the head. -/
def append (b : RingBuffer α) (data : α) : Option (ℤ × RingBuffer α) := do
  let b ← b.write b.head data
  let b := { b with head := b.indexIncrement b.head, length := b.length + 1 }
  some (b.capacity - b.length, b)

def push (b : RingBuffer α) (data : α) : Option (ℤ × RingBuffer α) := b.makeRoom.append data

/-- `true` with the element, or `false`, which leaves `popped` alone. -/
def pop (b : RingBuffer α) : Option (Option α × RingBuffer α) :=
  if b.length > 0 then do
    let popped ← b.read b.tail
    some (some popped, { b with tail := b.indexIncrement b.tail, length := b.length - 1 })
  else some (none, b)

/-- The loop of `peekList`, with `len` rounds to go. -/
def peekFrom (b : RingBuffer α) : ℕ → ℤ → List α → ℤ → Option (ℤ × List α)
  | 0, _, contents, c => some (c, contents)
  | len + 1, t, contents, c => do
    let x ← b.read t
    peekFrom b len (b.indexIncrement t) (contents ++ [x]) (c + 1)

def peekList (b : RingBuffer α) : Option (ℤ × List α) :=
  if b.length > 0 then b.peekFrom b.length.toNat b.tail [] 0 else some (0, [])

/-! The variants with a lock do the same; a call made alone finds the lock free. -/

def pushMt (b : RingBuffer α) (data : α) : Option (ℤ × RingBuffer α) := b.push data

def popMt (b : RingBuffer α) : Option (Option α × RingBuffer α) := b.pop

def peekListMt (b : RingBuffer α) : Option (ℤ × List α) := b.peekList

/-- What a buffer can be asked to do. -/
inductive Request (α : Type)
  | push (data : α)
  | pushMt (data : α)
  | pop
  | popMt
  | clear
  | size
  | empty
  | full
  | peekList
  | peekListMt

@[reducible] def Request.Ans : Request α → Type
  | push _ | pushMt _ | size => ℤ
  | pop | popMt => Option α
  | clear => Unit
  | empty | full => Bool
  | peekList | peekListMt => ℤ × List α

def respond : Service (Request α) Request.Ans (RingBuffer α)
  | .push data, b => b.push data
  | .pushMt data, b => b.pushMt data
  | .pop, b => b.pop
  | .popMt, b => b.popMt
  | .clear, b => some ((), b.clear)
  | .size, b => some (b.size, b)
  | .empty, b => some (b.empty, b)
  | .full, b => some (b.full, b)
  | .peekList, b => b.peekList.map (fun a => (a, b))
  | .peekListMt, b => b.peekListMt.map (fun a => (a, b))

/-! ### The list that forgets -/

/-- Append an element, and forget the oldest ones beyond the capacity. -/
def keepNewest (capacity : ℕ) (l : List α) (x : α) : List α :=
  (l ++ [x]).drop (l.length + 1 - capacity)

/-- What a list that forgets answers, with its elements from the oldest to the newest. -/
def respondList (capacity : ℕ) : Service (Request α) Request.Ans (List α)
  | .push data, l | .pushMt data, l =>
    let l' := keepNewest capacity l data
    some ((capacity : ℤ) - l'.length, l')
  | .pop, l | .popMt, l => some (l.head?, l.tail)
  | .clear, _ => some ((), [])
  | .size, l => some (l.length, l)
  | .empty, l => some (l.isEmpty, l)
  | .full, l => some (decide (capacity ≤ l.length), l)
  | .peekList, l | .peekListMt, l => some ((l.length, l), l)

/-! ### The representation -/

/-- The place `n` steps after place `i`, on a ring of the given capacity. -/
def ahead (capacity i n : ℤ) : ℤ := if i + n < capacity then i + n else i + n - capacity

theorem ahead_eq_emod {capacity i n : ℤ} (hi : 0 ≤ i) (hi' : i < capacity) (hn : 0 ≤ n)
    (hn' : n ≤ capacity) : ahead capacity i n = (i + n) % capacity := by
  rw [ahead]
  split_ifs with h
  · exact (Int.emod_eq_of_lt (by omega) h).symm
  · rw [← Int.sub_emod_right]
    exact (Int.emod_eq_of_lt (by omega) (by omega)).symm

/-- The elements from place `t` on are those of a list. -/
def Lists (b : RingBuffer α) : ℤ → List α → Prop
  | _, [] => True
  | t, x :: l => b.read t = some x ∧ Lists b (b.indexIncrement t) l

/-- The indices are consistent. -/
structure WellFormed (b : RingBuffer α) : Prop where
  head_nonneg : 0 ≤ b.head
  head_lt : b.head < b.capacity
  tail_nonneg : 0 ≤ b.tail
  tail_lt : b.tail < b.capacity
  length_nonneg : 0 ≤ b.length
  length_le : b.length ≤ b.capacity
  head_eq : b.head = (b.tail + b.length) % b.capacity

/-- The buffer stands for a list. -/
structure Represents (capacity : ℕ) (b : RingBuffer α) (l : List α) : Prop where
  capacity_eq : b.capacity = capacity
  pos : 0 < capacity
  size_eq : b.content.length = capacity
  tail_nonneg : 0 ≤ b.tail
  tail_lt : b.tail < capacity
  head_eq : b.head = ahead capacity b.tail b.length
  length_eq : b.length = l.length
  length_le : l.length ≤ capacity
  lists : b.Lists b.tail l

variable {b b' : RingBuffer α} {l : List α} {x value : α} {n : ℕ} {t : ℤ}

theorem Represents.wellFormed (h : Represents n b l) : b.WellFormed := by
  have hc := h.capacity_eq
  have hlen := h.length_eq
  have hle := h.length_le
  have hpos := h.pos
  have htail := h.tail_nonneg
  have htail' := h.tail_lt
  have hhead := h.head_eq
  have hmod : b.head = (b.tail + b.length) % b.capacity := by
    rw [hhead, hc]
    exact ahead_eq_emod htail htail' (by omega) (by omega)
  rw [ahead] at hhead
  refine ⟨?_, ?_, htail, by omega, by omega, by omega, hmod⟩
  · split_ifs at hhead <;> omega
  · split_ifs at hhead <;> omega

theorem represents_new {capacity : ℤ} (hc : 1 ≤ capacity) :
    Represents capacity.toNat (new value capacity) ([] : List α) := by
  have hcap : (capacity.toNat : ℤ) = capacity := Int.toNat_of_nonneg (by omega)
  refine ⟨hcap.symm, by omega, List.length_replicate, le_rfl, ?_, ?_, rfl, Nat.zero_le _, trivial⟩
  · change (0 : ℤ) < _
    omega
  · change (0 : ℤ) = ahead _ 0 0
    rw [ahead, if_pos (by omega)]
    rfl

theorem represents_clear (h : Represents n b l) : Represents n b.clear [] := by
  have hpos := h.pos
  refine ⟨h.capacity_eq, h.pos, h.size_eq, le_rfl, ?_, ?_, rfl, Nat.zero_le _, trivial⟩
  · change (0 : ℤ) < _
    omega
  · change (0 : ℤ) = ahead _ 0 0
    rw [ahead, if_pos (by omega)]
    rfl

/-- The elements listed depend on the vector only. -/
theorem Lists.congr (h : b.Lists t l) (hc : b'.content = b.content)
    (hcap : b'.capacity = b.capacity) : b'.Lists t l := by
  induction l generalizing t with
  | nil => trivial
  | cons y l ih =>
      refine ⟨?_, ?_⟩
      · rw [read, hc]
        exact h.1
      · rw [indexIncrement, hcap]
        exact ih h.2

/-- Elements read at other places are not touched by a write. -/
theorem read_write (hw : b.write t x = some b') (i : ℤ) (hi : i ≠ t) : b'.read i = b.read i := by
  rw [write] at hw
  split_ifs at hw with ht
  cases hw
  rw [read, read]
  split_ifs with hi'
  · exact List.getElem?_set_ne (by omega)
  · rfl

theorem read_write_self (hw : b.write t x = some b') : b'.read t = some x := by
  rw [write] at hw
  split_ifs at hw with ht
  cases hw
  rw [read, if_pos ht.1]
  exact List.getElem?_set_self (by omega)

theorem indexIncrement_write (hw : b.write t x = some b') (i : ℤ) :
    b'.indexIncrement i = b.indexIncrement i := by
  rw [write] at hw
  split_ifs at hw
  cases hw
  rfl

/-- A write to the place behind the last element appends to the list. -/
theorem lists_write {i : ℤ} (hw : b.write t x = some b') (hi : 0 ≤ i) (hi' : i < b.capacity)
    (hlen : l.length < b.capacity) (ht : t = ahead b.capacity i l.length) (hl : b.Lists i l) :
    b'.Lists i (l ++ [x]) := by
  induction l generalizing i with
  | nil =>
      have hti : t = i := by
        rw [ht, ahead]
        simp [hi']
      rw [hti] at hw
      exact ⟨read_write_self hw, trivial⟩
  | cons y l ih =>
      obtain ⟨hread, hrest⟩ := hl
      simp only [List.length_cons, Nat.cast_add, Nat.cast_one] at hlen ht
      have hne : i ≠ t := by
        rw [ht, ahead]
        split_ifs <;> omega
      refine ⟨by rw [read_write hw i hne, hread], ?_⟩
      rw [indexIncrement_write hw]
      have hnext : t = ahead b.capacity (b.indexIncrement i) l.length := by
        rw [ht, ahead, ahead, indexIncrement]
        split_ifs <;> omega
      refine ih ?_ ?_ (by omega) hnext hrest
      · rw [indexIncrement]
        split_ifs <;> omega
      · rw [indexIncrement]
        split_ifs <;> omega

/-- The oldest element goes, and the tail moves on. -/
theorem represents_dropOldest (h : Represents n b (x :: l)) :
    Represents n { b with tail := b.indexIncrement b.tail, length := b.length - 1 } l := by
  have hc := h.capacity_eq
  have hlen := h.length_eq
  have hle := h.length_le
  have htail := h.tail_nonneg
  have htail' := h.tail_lt
  have hhead := h.head_eq
  simp only [List.length_cons, Nat.cast_add, Nat.cast_one] at hlen hle
  refine ⟨hc, h.pos, h.size_eq, ?_, ?_, ?_, ?_, by omega, h.lists.2.congr rfl rfl⟩
  · change 0 ≤ b.indexIncrement b.tail
    rw [indexIncrement]
    split_ifs <;> omega
  · change b.indexIncrement b.tail < n
    rw [indexIncrement]
    split_ifs <;> omega
  · change b.head = ahead n (b.indexIncrement b.tail) (b.length - 1)
    rw [hhead, ahead, ahead, indexIncrement]
    split_ifs <;> omega
  · change b.length - 1 = (l.length : ℤ)
    omega

theorem represents_makeRoom (h : Represents n b l) :
    Represents n b.makeRoom (l.drop (l.length + 1 - n)) ∧
      (l.drop (l.length + 1 - n)).length < n := by
  have hc := h.capacity_eq
  have hlen := h.length_eq
  have hle := h.length_le
  have hpos := h.pos
  rw [makeRoom]
  split_ifs with hfull
  · have hone : l.length + 1 - n = 1 := by omega
    rw [hone]
    obtain ⟨y, l, rfl⟩ : ∃ y l', l = y :: l' := by
      cases l with
      | nil =>
          rw [List.length_nil] at hlen
          omega
      | cons y l => exact ⟨y, l, rfl⟩
    rw [List.length_cons] at hle
    rw [List.drop_one, List.tail_cons]
    exact ⟨represents_dropOldest h, by omega⟩
  · have hzero : l.length + 1 - n = 0 := by omega
    rw [hzero]
    refine ⟨h, ?_⟩
    rw [List.drop_zero]
    omega

/-- A buffer that is not full takes one more element. -/
theorem represents_append (h : Represents n b l) (hlt : l.length < n) :
    ∃ b', b.append x = some ((n : ℤ) - (l ++ [x]).length, b') ∧ Represents n b' (l ++ [x]) := by
  have hwf := h.wellFormed
  have hc := h.capacity_eq
  have hlen := h.length_eq
  have hsize := h.size_eq
  have htail := h.tail_nonneg
  have htail' := h.tail_lt
  have hhead := h.head_eq
  have hin : 0 ≤ b.head ∧ b.head < b.content.length := by
    have hlow := hwf.head_nonneg
    have hhigh := hwf.head_lt
    omega
  have hw : b.write b.head x = some { b with content := b.content.set b.head.toNat x } :=
    if_pos hin
  have hplace : b.head = ahead b.capacity b.tail l.length := by
    rw [hhead, hc, hlen]
  have hlists := lists_write hw htail (by omega) (by omega) hplace h.lists
  have hsum : ((l ++ [x]).length : ℤ) = l.length + 1 := by simp
  rw [append, hw, hsum]
  refine ⟨{ b with
    content := b.content.set b.head.toNat x
    head := b.indexIncrement b.head
    length := b.length + 1 }, ?_, hc, h.pos, ?_, htail, htail', ?_, ?_, ?_, hlists.congr rfl rfl⟩
  · have hanswer : b.capacity - (b.length + 1) = (n : ℤ) - (l.length + 1) := by omega
    simp only [Option.bind_eq_bind, Option.bind_some, hanswer]
    rfl
  · rw [List.length_set]
    exact hsize
  · change (if b.capacity ≤ b.head + 1 then 0 else b.head + 1) = ahead n b.tail (b.length + 1)
    rw [ahead] at hhead ⊢
    split_ifs at hhead ⊢ <;> omega
  · rw [hsum, hlen]
  · rw [List.length_append, List.length_singleton]
    omega

theorem represents_push (h : Represents n b l) :
    ∃ b', b.push x = some ((n : ℤ) - (keepNewest n l x).length, b') ∧
      Represents n b' (keepNewest n l x) := by
  obtain ⟨hroom, hlt⟩ := represents_makeRoom h
  have hdrop : keepNewest n l x = l.drop (l.length + 1 - n) ++ [x] := by
    have hle := h.length_le
    have hpos := h.pos
    exact List.drop_append_of_le_length (by omega)
  rw [hdrop]
  exact represents_append hroom hlt

theorem represents_pop (h : Represents n b l) :
    ∃ b', b.pop = some (l.head?, b') ∧ Represents n b' l.tail := by
  have hlen := h.length_eq
  rw [pop]
  cases l with
  | nil =>
      rw [List.length_nil] at hlen
      rw [if_neg (by omega)]
      exact ⟨b, rfl, h⟩
  | cons y l =>
      simp only [List.length_cons, Nat.cast_add, Nat.cast_one] at hlen
      rw [if_pos (by omega), h.lists.1]
      rw [List.head?_cons, List.tail_cons]
      exact ⟨_, rfl, represents_dropOldest h⟩

theorem peekFrom_eq (h : b.Lists t l) (contents : List α) (c : ℤ) :
    b.peekFrom l.length t contents c = some (c + l.length, contents ++ l) := by
  induction l generalizing t contents c with
  | nil => simp [peekFrom]
  | cons y l ih =>
      obtain ⟨hread, hrest⟩ := h
      rw [List.length_cons, peekFrom, hread]
      simp only [Option.bind_eq_bind, Option.bind_some]
      rw [ih hrest]
      simp only [List.append_assoc, List.singleton_append, Nat.cast_add, Nat.cast_one]
      congr 2
      omega

theorem represents_peekList (h : Represents n b l) : b.peekList = some ((l.length : ℤ), l) := by
  have hlen := h.length_eq
  rw [peekList]
  split_ifs with hpos
  · rw [hlen, Int.toNat_natCast, peekFrom_eq h.lists]
    simp
  · have hnil : l = [] := by
      rw [← List.length_eq_zero_iff]
      omega
    rw [hnil]
    rfl

/-- A buffer answers as the list that it stands for. -/
theorem represents_respond (h : Represents n b l) (q : Request α) :
    ∃ a b' l', respond q b = some (a, b') ∧ respondList n q l = some (a, l') ∧
      Represents n b' l' := by
  have hlen := h.length_eq
  have hc := h.capacity_eq
  cases q with
  | push data =>
      obtain ⟨b', hb, hr⟩ := represents_push (x := data) h
      exact ⟨_, b', _, hb, rfl, hr⟩
  | pushMt data =>
      obtain ⟨b', hb, hr⟩ := represents_push (x := data) h
      exact ⟨_, b', _, hb, rfl, hr⟩
  | pop =>
      obtain ⟨b', hb, hr⟩ := represents_pop h
      exact ⟨_, b', _, hb, rfl, hr⟩
  | popMt =>
      obtain ⟨b', hb, hr⟩ := represents_pop h
      exact ⟨_, b', _, hb, rfl, hr⟩
  | clear => exact ⟨(), b.clear, [], rfl, rfl, represents_clear h⟩
  | size => exact ⟨b.size, b, l, rfl, by rw [size, hlen]; rfl, h⟩
  | empty =>
      refine ⟨b.empty, b, l, rfl, ?_, h⟩
      have he : b.empty = l.isEmpty := by
        rw [empty, hlen]
        cases l <;> simp
        omega
      rw [he]
      rfl
  | full =>
      refine ⟨b.full, b, l, rfl, ?_, h⟩
      have he : b.full = decide (n ≤ l.length) := by
        rw [full, hlen, hc]
        simp
      rw [he]
      rfl
  | peekList =>
      refine ⟨_, b, l, ?_, rfl, h⟩
      rw [respond, represents_peekList h]
      rfl
  | peekListMt =>
      refine ⟨_, b, l, ?_, rfl, h⟩
      rw [respond, peekListMt, represents_peekList h]
      rfl

/-- Over any run, a new buffer answers as a list that keeps its newest elements, its indices are
consistent, and the next call, whatever it is, has an answer. -/
theorem ring_buffer_refines_list {capacity : ℤ} (hc : 1 ≤ capacity)
    {done : List (Done (Request α) Request.Ans)}
    (h : Session respond (fun _ _ _ => True) (new value capacity) done b) :
    b.capacity = capacity ∧ b.WellFormed ∧
      (∃ l, Session (respondList capacity.toNat) (fun _ _ _ => True) [] done l ∧
        Represents capacity.toNat b l) ∧
      ∀ q, (respond q b).isSome := by
  obtain ⟨l, hs, hr⟩ : ∃ l, Session (respondList capacity.toNat) (fun _ _ _ => True) [] done l ∧
      Represents capacity.toNat b l := by
    refine Session.refines (R := Represents capacity.toNat) (represents_new hc) ?_ h
    intro _ _ b l q a b' hr _ hq
    obtain ⟨a', b₁, l', hb, hl, hr'⟩ := represents_respond hr q
    cases hq.symm.trans hb
    exact ⟨trivial, l', hl, hr'⟩
  refine ⟨?_, hr.wellFormed, ⟨l, hs, hr⟩, ?_⟩
  · rw [hr.capacity_eq]
    omega
  · intro q
    obtain ⟨a, b', _, hb, _, _⟩ := represents_respond hr q
    rw [hb]
    rfl

/-- Three elements pushed into a buffer for two, and one popped. -/
theorem ring_buffer_refines_list_two :
    ∃ b, Session respond (fun _ _ _ => True) (new 0 2)
      [⟨.pop, some 2⟩, ⟨.push 3, 0⟩, ⟨.push 2, 0⟩, ⟨.push 1, 1⟩] b ∧ b.WellFormed := by
  have hs : ∃ b, Session respond (fun _ _ _ => True) (new 0 2)
      [⟨.pop, some 2⟩, ⟨.push 3, 0⟩, ⟨.push 2, 0⟩, ⟨.push 1, 1⟩] b :=
    ⟨_, .call (.call (.call (.call .start trivial rfl) trivial rfl) trivial rfl) trivial rfl⟩
  obtain ⟨b, hb⟩ := hs
  exact ⟨b, hb, (ring_buffer_refines_list (by decide) hb).2.1⟩

end RingBuffer
end ARArch
