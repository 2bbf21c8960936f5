import ARArch.RingBuffer

/-!
# Peeking into the ring buffer

`peek` gives the oldest element out and then moves the tail on, as `pop` does, but keeps the
length. In an empty buffer, or one with room for a single element, the tail stays where it is; in
any other the calls after it meet the wrong elements.
-/

namespace ARArch
namespace RingBuffer

variable {α : Type}

def peek (b : RingBuffer α) : Option (Option α × RingBuffer α) :=
  if b.length > 0 then do
    let item ← b.read b.tail
    some (some item, { b with tail := b.indexIncrement b.tail })
  else some (none, b)

/-- The variant with a lock. -/
def peekMt (b : RingBuffer α) : Option (Option α × RingBuffer α) := b.peek

/-- What a buffer can be asked to do, and to be peeked into. -/
inductive PeekRequest (α : Type)
  | peek
  | peekMt
  | other (q : Request α)

@[reducible] def PeekRequest.Ans : PeekRequest α → Type
  | peek | peekMt => Option α
  | other q => q.Ans

def PeekRequest.isPeek : PeekRequest α → Bool
  | peek | peekMt => true
  | other _ => false

def respondPeeking : Service (PeekRequest α) PeekRequest.Ans (RingBuffer α)
  | .peek, b => b.peek
  | .peekMt, b => b.peekMt
  | .other q, b => respond q b

/-- A call other than a peek. -/
def otherCall : Done (PeekRequest α) PeekRequest.Ans → Option (Done (Request α) Request.Ans)
  | ⟨.other q, a⟩ => some ⟨q, a⟩
  | ⟨.peek, _⟩ | ⟨.peekMt, _⟩ => none

/-- The calls of a run other than the peeks, with their answers. -/
def otherCalls (done : List (Done (PeekRequest α) PeekRequest.Ans)) :
    List (Done (Request α) Request.Ans) :=
  done.filterMap otherCall

/-- What a buffer answers to one call after another. -/
def answers (b : RingBuffer α) : List (Request α) → Option (List (Done (Request α) Request.Ans))
  | [] => some []
  | q :: qs => do
    let p ← respond q b
    let as ← answers p.2 qs
    some (⟨q, p.1⟩ :: as)

/-- A peek changes no answer to the calls after it, and a pop that comes next gives what the peek
gave. -/
def PeekObserves (b : RingBuffer α) : Prop :=
  ∀ a b', b.peek = some (a, b') →
    (∃ b'', b'.pop = some (a, b'')) ∧ ∀ qs, b'.answers qs = b.answers qs

/-- The tail has nowhere to go, or stays for want of an element. -/
def Unmoved (b : RingBuffer α) : Prop := b.capacity = 1 ∨ b.length = 0

instance (b : RingBuffer α) : Decidable b.Unmoved := inferInstanceAs (Decidable (_ ∨ _))

/-- Every peek finds a buffer that it leaves as it is. -/
def QuietPeek (_ : List (Done (PeekRequest α) PeekRequest.Ans)) (b : RingBuffer α)
    (q : PeekRequest α) : Prop :=
  q.isPeek = true → b.Unmoved

/-- The same buffer with its tail one place too far. -/
structure Shifted (b b' : RingBuffer α) : Prop where
  content : b'.content = b.content
  head : b'.head = b.head
  length : b'.length = b.length
  capacity : b'.capacity = b.capacity
  tail : b'.tail = b.indexIncrement b.tail

variable {b b' b₁ : RingBuffer α} {l : List α} {x value : α} {n : ℕ} {a : Option α}

theorem peek_of_unmoved (h : Represents n b l) (hu : b.Unmoved) : b.peek = some (l.head?, b) := by
  have hc := h.capacity_eq
  have hlen := h.length_eq
  have htail := h.tail_nonneg
  have htail' := h.tail_lt
  rw [peek]
  cases l with
  | nil =>
      rw [List.length_nil] at hlen
      rw [if_neg (by omega)]
      rfl
  | cons y l =>
      simp only [List.length_cons, Nat.cast_add, Nat.cast_one] at hlen
      have hone : b.capacity = 1 := hu.resolve_right (by omega)
      have hstay : b.indexIncrement b.tail = b.tail := by
        rw [indexIncrement, if_pos (by omega)]
        omega
      rw [if_pos (by omega), h.lists.1, hstay]
      rfl

theorem peek_shifts (h : Represents n b (x :: l)) :
    ∃ b', b.peek = some (some x, b') ∧ Shifted b b' := by
  have hlen := h.length_eq
  simp only [List.length_cons, Nat.cast_add, Nat.cast_one] at hlen
  refine ⟨{ b with tail := b.indexIncrement b.tail }, ?_, rfl, rfl, rfl, rfl, rfl⟩
  rw [peek, if_pos (by omega), h.lists.1]
  rfl

theorem answers_cons {q : Request α} {qs : List (Request α)} {p : q.Ans × RingBuffer α}
    (hp : respond q b = some p) :
    b.answers (q :: qs) = (p.2.answers qs).map (fun as => ⟨q, p.1⟩ :: as) := by
  rw [answers, hp]
  cases h : p.2.answers qs with
  | none => simp [h]
  | some as => simp [h]

theorem answers_cons_eq_some {q : Request α} {qs : List (Request α)}
    {as : List (Done (Request α) Request.Ans)} (h : b.answers (q :: qs) = some as) :
    ∃ p as', respond q b = some p ∧ p.2.answers qs = some as' ∧ as = ⟨q, p.1⟩ :: as' := by
  cases hp : respond q b with
  | none =>
      rw [answers, hp] at h
      cases h
  | some p =>
      rw [answers_cons hp] at h
      obtain ⟨as', has, he⟩ := Option.map_eq_some_iff.mp h
      exact ⟨p, as', rfl, has, he.symm⟩

/-- A write leaves the tail and the length. -/
theorem write_leaves {t : ℤ} (hw : b.write t x = some b') :
    b'.tail = b.tail ∧ b'.length = b.length := by
  rw [write] at hw
  split_ifs at hw
  cases hw
  exact ⟨rfl, rfl⟩

namespace Shifted

theorem read (h : Shifted b b') (i : ℤ) : b'.read i = b.read i := by
  rw [RingBuffer.read, RingBuffer.read, h.content]

theorem indexIncrement (h : Shifted b b') (i : ℤ) : b'.indexIncrement i = b.indexIncrement i := by
  rw [RingBuffer.indexIncrement, RingBuffer.indexIncrement, h.capacity]

/-- The oldest element is taken from both, and they stay one place apart. -/
theorem pop (h : Shifted b b') (hr : Represents n b (x :: l)) (ha : b'.pop = some (a, b₁)) :
    ∃ b₂, b.pop = some (some x, b₂) ∧ Represents n b₂ l ∧ Shifted b₂ b₁ := by
  have hlen := hr.length_eq
  simp only [List.length_cons, Nat.cast_add, Nat.cast_one] at hlen
  obtain ⟨b₂, hb₂, hr₂⟩ := represents_pop hr
  refine ⟨b₂, hb₂, hr₂, ?_⟩
  rw [RingBuffer.pop, if_pos (by omega), hr.lists.1] at hb₂
  cases hb₂
  rw [RingBuffer.pop, if_pos (by rw [h.length]; omega), h.read] at ha
  obtain ⟨y, -, hy⟩ := Option.bind_eq_some_iff.mp ha
  cases hy
  refine ⟨h.content, h.head, ?_, h.capacity, ?_⟩
  · change b'.length - 1 = b.length - 1
    rw [h.length]
  · change b'.indexIncrement b'.tail = b.indexIncrement (b.indexIncrement b.tail)
    rw [h.indexIncrement, h.tail]

/-- A pop that follows a push into the shifted buffer meets an element that was there before. -/
theorem pop_append (h : Shifted b b') (hr : Represents n b []) (hn : 2 ≤ n) {c : ℤ}
    (hb : b'.append x = some (c, b₁)) {b₂ : RingBuffer α} (ha : b₁.pop = some (a, b₂)) :
    b.read (b.indexIncrement b.tail) = a := by
  have hlen : b.length = 0 := hr.length_eq
  have hc := hr.capacity_eq
  have htail := hr.tail_nonneg
  have htail' := hr.tail_lt
  have hhead : b.head = b.tail := by
    rw [hr.head_eq, hlen, ahead, if_pos (by omega), add_zero]
  obtain ⟨w, hw, hb₁⟩ := Option.bind_eq_some_iff.mp hb
  cases hb₁
  obtain ⟨htw, hlw⟩ := write_leaves hw
  have hplace : b'.tail ≠ b'.head := by
    rw [h.tail, h.head, hhead, RingBuffer.indexIncrement]
    split_ifs <;> omega
  have hread : w.read w.tail = b.read (b.indexIncrement b.tail) := by
    rw [htw, read_write hw _ hplace, h.read, h.tail]
  rw [RingBuffer.pop, if_pos (by change 0 < w.length + 1; rw [hlw, h.length, hlen]; omega)] at ha
  obtain ⟨y, hy, hp⟩ := Option.bind_eq_some_iff.mp ha
  cases hp
  rw [← hread]
  exact hy

/-- An element pushed into both when they are empty is found by a pop from the one only. -/
theorem push_pop_ne [Nontrivial α] (h : Shifted b b') (hr : Represents n b []) (hn : 2 ≤ n) :
    ∃ y, b'.answers [.push y, .pop] ≠ b.answers [.push y, .pop] := by
  by_contra hall
  push Not at hall
  have hlen : b.length = 0 := hr.length_eq
  have hc := hr.capacity_eq
  have hstale (y : α) : b.read (b.indexIncrement b.tail) = some y := by
    obtain ⟨b₁, hb₁, hr₁⟩ := represents_push (x := y) hr
    obtain ⟨b₂, hb₂, -⟩ := represents_pop hr₁
    have hlist : (keepNewest n [] y).head? = some y := by
      have hzero : ([] : List α).length + 1 - n = 0 := by
        rw [List.length_nil]
        omega
      rw [keepNewest, hzero]
      rfl
    have hroom : b'.makeRoom = b' := by
      apply if_neg
      rw [h.length, h.capacity]
      omega
    have hsame := hall y
    have hpush : respond (.push y) b = some (_, b₁) := hb₁
    have hpop : respond .pop b₁ = some (_, b₂) := hb₂
    rw [answers_cons hpush, answers_cons hpop, hlist] at hsame
    obtain ⟨⟨c, b₃⟩, as, hp, has, hcons⟩ := answers_cons_eq_some hsame
    obtain ⟨⟨a, b₄⟩, as₂, ha, -, hcons₂⟩ := answers_cons_eq_some has
    have happend : b'.append y = some (c, b₃) := by
      rw [← hroom]
      exact hp
    have hread := h.pop_append hr hn happend ha
    rw [hcons₂] at hcons
    obtain ⟨-, htail⟩ := List.cons.inj hcons
    obtain ⟨hlast, -⟩ := List.cons.inj htail
    cases hlast
    exact hread
  obtain ⟨y, z, hyz⟩ := exists_pair_ne α
  have hsome := (hstale y).symm.trans (hstale z)
  exact hyz (Option.some.inj hsome)

/-- Some calls tell the two apart: pops until they are empty, then a push and a pop. -/
theorem answers_ne [Nontrivial α] (h : Shifted b b') (hr : Represents n b l) (hn : 2 ≤ n) :
    ∃ qs, b'.answers qs ≠ b.answers qs := by
  induction l generalizing b b' with
  | nil =>
      obtain ⟨y, hy⟩ := h.push_pop_ne hr hn
      exact ⟨_, hy⟩
  | cons x l ih =>
      obtain ⟨b₂, hb₂, hr₂⟩ := represents_pop hr
      cases hp : b'.pop with
      | none =>
          refine ⟨[.pop], ?_⟩
          simp [answers, respond, hp, hb₂]
      | some p =>
          obtain ⟨a, b₁⟩ := p
          obtain ⟨b₂, hb₂, hr₂, hs⟩ := h.pop hr hp
          obtain ⟨qs, hqs⟩ := ih hs hr₂
          refine ⟨.pop :: qs, fun heq => hqs ?_⟩
          have hpop : respond .pop b = some (some x, b₂) := hb₂
          have hpop' : respond .pop b' = some (a, b₁) := hp
          rw [answers_cons hpop, answers_cons hpop'] at heq
          have htails := congrArg (Option.map List.tail) heq
          simpa [Function.comp_def] using htails

end Shifted

/-- A peek goes unnoticed if and only if the tail does not move. -/
theorem peekObserves_iff_unmoved [Nontrivial α] (h : Represents n b l) :
    b.PeekObserves ↔ b.Unmoved := by
  constructor
  · intro hobs
    by_contra hmoved
    obtain ⟨hcap, hlen⟩ := not_or.mp hmoved
    have hn : 2 ≤ n := by
      have hpos := h.pos
      have hc := h.capacity_eq
      omega
    cases l with
    | nil => exact hlen h.length_eq
    | cons x l =>
        obtain ⟨b', hb', hs⟩ := peek_shifts h
        obtain ⟨qs, hqs⟩ := hs.answers_ne h hn
        exact hqs ((hobs _ _ hb').2 qs)
  · intro hu a b' hpeek
    rw [peek_of_unmoved h hu] at hpeek
    cases hpeek
    obtain ⟨b'', hpop, -⟩ := represents_pop h
    exact ⟨⟨b'', hpop⟩, fun _ => rfl⟩

theorem represents_of_session {capacity : ℤ} (hc : 1 ≤ capacity)
    {done : List (Done (Request α) Request.Ans)}
    (h : Session respond (fun _ _ _ => True) (new value capacity) done b) :
    ∃ l, Represents capacity.toNat b l := by
  apply h.invariant (I := fun _ b => ∃ l, Represents capacity.toNat b l)
  · exact ⟨[], represents_new hc⟩
  · rintro _ b q a b' ⟨l, hr⟩ _ hq
    obtain ⟨a', b₁, l', hb, -, hr'⟩ := represents_respond hr q
    cases hq.symm.trans hb
    exact ⟨l', hr'⟩

theorem session_otherCalls {capacity : ℤ} (hc : 1 ≤ capacity)
    {done : List (Done (PeekRequest α) PeekRequest.Ans)}
    (h : Session respondPeeking QuietPeek (new value capacity) done b) :
    Session respond (fun _ _ _ => True) (new value capacity) (otherCalls done) b := by
  induction h with
  | start => exact .start
  | @call done b b' q a _ hok hq ih =>
      obtain ⟨l, hr⟩ := represents_of_session hc ih
      cases q with
      | peek =>
          have hpeek : b.peek = some (a, b') := hq
          rw [peek_of_unmoved hr (hok rfl)] at hpeek
          cases hpeek
          exact ih
      | peekMt =>
          have hpeek : b.peek = some (a, b') := hq
          rw [peek_of_unmoved hr (hok rfl)] at hpeek
          cases hpeek
          exact ih
      | other q => exact .call ih trivial hq

/-- While every peek finds an empty buffer, or one for a single element, the other calls get the
answers that they get without the peeks. In a state so reached the next peek goes unnoticed if
and only if it finds such a buffer too. -/
theorem peeks_observe [Nontrivial α] {capacity : ℤ} (hc : 1 ≤ capacity) (value : α)
    {done : List (Done (PeekRequest α) PeekRequest.Ans)}
    (h : Session respondPeeking QuietPeek (new value capacity) done b) :
    Session respond (fun _ _ _ => True) (new value capacity) (otherCalls done) b ∧
      (b.PeekObserves ↔ b.capacity = 1 ∨ b.length = 0) := by
  have hs := session_otherCalls hc h
  obtain ⟨l, hr⟩ := represents_of_session hc hs
  exact ⟨hs, peekObserves_iff_unmoved hr⟩

/-- A peek before the first push into a buffer for two. -/
theorem peeks_observe_two :
    ∃ b : RingBuffer ℕ, Session respondPeeking QuietPeek (new 0 2)
      [⟨.other (.push 5), 1⟩, ⟨.peek, none⟩] b ∧
      Session respond (fun _ _ _ => True) (new 0 2) [⟨.push 5, 1⟩] b ∧ ¬ b.PeekObserves := by
  have hs : ∃ b : RingBuffer ℕ, Session respondPeeking QuietPeek (new 0 2)
      [⟨.other (.push 5), 1⟩, ⟨.peek, none⟩] b ∧ ¬ (b.capacity = 1 ∨ b.length = 0) :=
    ⟨_, .call (.call .start (fun _ => .inr rfl) rfl) (by rintro ⟨⟩) rfl, by decide⟩
  obtain ⟨b, hb, hmoved⟩ := hs
  obtain ⟨hothers, hiff⟩ := peeks_observe (by decide) 0 hb
  exact ⟨b, hb, hothers, fun hobs => hmoved (hiff.mp hobs)⟩

/-- After two pushes a peek gives the first element, and the pop after it the second. -/
theorem peek_disturbs :
    ¬∀ (capacity : ℤ) (done : List (Done (Request ℕ) Request.Ans)) (b : RingBuffer ℕ),
      1 ≤ capacity → Session respond (fun _ _ _ => True) (new 0 capacity) done b →
      b.PeekObserves := by
  intro h
  have hs : ∃ (done : List (Done (Request ℕ) Request.Ans)) (b : RingBuffer ℕ),
      Session respond (fun _ _ _ => True) (new 0 2) done b ∧
      ∃ b', b.peek = some (some 1, b') ∧ b'.pop.map Prod.fst = some (some 2) :=
    ⟨[⟨.push 2, 0⟩, ⟨.push 1, 1⟩], _, .call (.call .start trivial rfl) trivial rfl, _, rfl, rfl⟩
  obtain ⟨done, b, hb, b', hpeek, hpop⟩ := hs
  obtain ⟨⟨b'', hpop'⟩, -⟩ := h 2 done b (by decide) hb _ _ hpeek
  rw [hpop'] at hpop
  cases hpop

end RingBuffer
end ARArch
