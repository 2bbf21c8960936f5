import ARArch.RelyGuarantee
import Mathlib.Data.Fintype.Card

/-!
# Frames in flight

A frame handler looks at the number of `FrameInfo` objects before it makes one, and makes none if
there are more than the queue size. The number is that of all cameras, and between the check and
the creation other handlers may pass the same check. Each handler has at most one creation
pending, so that the excess is at most the number of handlers.

`Countable` counts an object from the beginning of its construction to the end of its
destruction, and that is how long it is taken to live here. The count is an `int` in the source;
2^31 objects do not fit into memory.
-/

namespace ARArch

open Atomic

/-- What a handler finds outside: the image, the state of the camera, whether the conversion and
the allocation of the arrays go through. -/
inductive HandlerQuestion
  | hasImage
  | isStopping
  | isConverted
  | isAllocated
  | initialised
  | hasCamera
  | isPinned
  deriving DecidableEq

inductive HandlerOp
  | ask (q : HandlerQuestion)
  | inFlight
  | newFrameInfo
  | destroyFrameInfo (o : ℕ)

@[reducible] def HandlerOp.Ans : HandlerOp → Type
  | ask _ => Bool
  | inFlight => ℤ
  | newFrameInfo => ℕ
  | destroyFrameInfo _ => Unit

structure FrameInfos where
  /-- `Countable<FrameInfo>::count`. -/
  count : ℤ := 0
  objects : Finset ℕ := ∅
  /-- The number of objects made so far, which names the next one. -/
  made : ℕ := 0

namespace FrameInfos

def exec (answer : Bool) : (i : HandlerOp) → FrameInfos → Option (i.Ans × FrameInfos)
  | .ask _, m => some (answer, m)
  | .inFlight, m => some (m.count, m)
  | .newFrameInfo, m => some (m.made,
    { count := m.count + 1, objects := insert m.made m.objects, made := m.made + 1 })
  | .destroyFrameInfo o, m =>
    if o ∈ m.objects then some ((), { m with count := m.count - 1, objects := m.objects.erase o })
    else none

end FrameInfos

abbrev HandlerCall (α : Type) := Prog HandlerOp HandlerOp.Ans α

namespace HandlerCall

abbrev perform (i : HandlerOp) : HandlerCall i.Ans := Prog.perform i

/-- `HardwareCamera_enqueue` up to the creation of the frame, which is then handed to the camera. -/
def enqueue : HandlerCall Unit := do
  if ← perform (.ask .initialised) then
    if ← perform (.ask .hasCamera) then
      let _ ← perform .newFrameInfo
      pure ()

def enqueueYUV : HandlerCall Unit := do
  if ← perform (.ask .initialised) then
    if ← perform (.ask .hasCamera) then
      if ← perform (.ask .isPinned) then
        if ← perform (.ask .isConverted) then
          let _ ← perform .newFrameInfo
          pure ()

/-- The image format that a `CPUFrameHandler` gets. -/
inductive ImageFormat
  | yuv420888
  | nv21
  | other
  deriving DecidableEq

/-- `CPUFrameHandler.onImageAvailable`. -/
def onImageAvailable (queueSize : ℕ) (inputFormat : ImageFormat) : HandlerCall Unit := do
  if ← perform (.ask .hasImage) then
    if ← perform (.ask .isStopping) then pure ()
    else
      if queueSize < (← perform .inFlight) then pure ()
      else
        match inputFormat with
        | .yuv420888 => do
          if ← perform (.ask .isConverted) then
            if ← perform (.ask .isAllocated) then enqueueYUV
        | .nv21 => do
          if ← perform (.ask .isAllocated) then
            if ← perform (.ask .isConverted) then enqueue
        | .other => pure ()

/-- `RenderScriptFrameHandler.onBufferAvailable`. The number is read again for the log. -/
def onBufferAvailable (queueSize : ℕ) : HandlerCall Unit := do
  if ← perform (.ask .isStopping) then pure ()
  else
    if queueSize < (← perform .inFlight) then
      let _ ← perform .inFlight
      pure ()
    else
      if ← perform (.ask .isConverted) then
        if ← perform (.ask .isAllocated) then enqueue

end HandlerCall

/-- A callback that a camera delivers to its frame handler. -/
inductive Callback
  | image (inputFormat : HandlerCall.ImageFormat)
  | buffer
  deriving DecidableEq

def Callback.program (queueSize : ℕ) : Callback → HandlerCall Unit
  | .image inputFormat => HandlerCall.onImageAvailable queueSize inputFormat
  | .buffer => HandlerCall.onBufferAvailable queueSize

/-- The frame handlers of `k` cameras, and the threads of the pipeline. -/
inductive FlightParty (k : ℕ)
  | handler (j : Fin k)
  | pipeline (j : ℕ)
  deriving DecidableEq

/-- What the handlers and the pipeline are given: callbacks, one after another for each handler,
and the frames to destroy. -/
structure Flight (k : ℕ) where
  queueSize : ℕ
  callbacks : Fin k → List Callback
  destroys : ℕ → List ℕ

variable {k : ℕ}

abbrev FlightShared (k : ℕ) := Recorded (FlightParty k) HandlerOp HandlerOp.Ans FrameInfos

def flightSteps : Action (FlightParty k) HandlerOp HandlerOp.Ans (FlightShared k) :=
  recorded (fun answer _ => FrameInfos.exec answer)

def Flight.program (F : Flight k) : FlightParty k → HandlerCall Unit
  | .handler j => Prog.forEach (Callback.program F.queueSize) (F.callbacks j)
  | .pipeline j => Prog.forEach (fun o => HandlerCall.perform (.destroyFrameInfo o)) (F.destroys j)

def Flight.pool (F : Flight k) :
    Pool (FlightParty k) HandlerOp HandlerOp.Ans Unit (FlightShared k) :=
  ⟨F.program, ⟨{}, []⟩⟩

/-- The handlers that have passed the check last made, and have made no frame since. -/
def pending (queueSize : ℕ) :
    List (Event (FlightParty k) HandlerOp HandlerOp.Ans) → Finset (Fin k)
  | [] => ∅
  | ⟨.handler j, .inFlight, n⟩ :: h =>
    if n ≤ queueSize then insert j (pending queueSize h) else (pending queueSize h).erase j
  | ⟨.handler j, .newFrameInfo, _⟩ :: h => (pending queueSize h).erase j
  | _ :: h => pending queueSize h

/-- The bound, with the creations that are still to come. -/
structure Bounded (queueSize : ℕ) (s : FlightShared k) : Prop where
  count : s.mem.count = s.mem.objects.card
  bound : s.mem.objects.card + (pending queueSize s.hist).card ≤ queueSize + k
  fresh : s.mem.made ∉ s.mem.objects
  named : ∀ o ∈ s.mem.objects, o < s.mem.made

/-- A party changes only its own admission. -/
def flightContract (queueSize : ℕ) : Contract (FlightParty k) (FlightShared k) where
  inv := Bounded queueSize
  guar t s s' := ∀ j, t ≠ .handler j →
    (j ∈ pending queueSize s'.hist ↔ j ∈ pending queueSize s.hist)

/-- The handler has passed the check and may make a frame. -/
def Admitted (queueSize : ℕ) (j : Fin k) (s : FlightShared k) : Prop :=
  j ∈ pending queueSize s.hist

section Invariant

variable {n : ℕ} {j : Fin k} {s s' : FlightShared k} {t : FlightParty k}

theorem Admitted.stable : (flightContract n).Stable (.handler j) (Admitted n j) := by
  intro u s s' hu _ hg _ h
  exact (hg j hu).mpr h

theorem ask_call {q : HandlerQuestion} {b : Bool} (h : Bounded n s)
    (hc : flightSteps t (.ask q) s b s') :
    Bounded n s' ∧ pending n s'.hist = pending n s.hist := by
  obtain ⟨⟨_, he⟩, hh⟩ := hc
  have hmem : s'.mem = s.mem := (Prod.mk.inj (Option.some.inj he)).2.symm
  have hpending : pending n s'.hist = pending n s.hist := by
    rw [hh]
    cases t <;> rfl
  refine ⟨⟨?_, ?_, ?_, ?_⟩, hpending⟩
  · rw [hmem]
    exact h.count
  · rw [hmem, hpending]
    exact h.bound
  · rw [hmem]
    exact h.fresh
  · rw [hmem]
    exact h.named

/-- A check that passes admits the handler: at most `queueSize` frames live, and at most `k`
handlers are admitted. -/
theorem inFlight_call {a : ℤ} (h : Bounded n s)
    (hc : flightSteps (.handler j) .inFlight s a s') :
    Bounded n s' ∧ (a ≤ n → Admitted n j s') ∧
      (flightContract n).guar (.handler j) s s' := by
  obtain ⟨⟨_, he⟩, hh⟩ := hc
  obtain ⟨rfl, hmem⟩ := Prod.mk.inj (Option.some.inj he)
  have hpending : pending n s'.hist = if s.mem.count ≤ n then insert j (pending n s.hist)
      else (pending n s.hist).erase j := by
    rw [hh]
    rfl
  have hbound : s.mem.objects.card + (pending n s'.hist).card ≤ n + k := by
    rw [hpending]
    split_ifs with hle
    · have hcard : (insert j (pending n s.hist)).card ≤ k := by
        simpa using Finset.card_le_univ (insert j (pending n s.hist))
      have hlive : s.mem.objects.card ≤ n := by
        have hcount := h.count
        omega
      omega
    · have herase := Finset.card_erase_le (s := pending n s.hist) (a := j)
      have hb := h.bound
      omega
  refine ⟨⟨?_, ?_, ?_, ?_⟩, ?_, ?_⟩
  · rw [← hmem]
    exact h.count
  · rw [← hmem]
    exact hbound
  · rw [← hmem]
    exact h.fresh
  · rw [← hmem]
    exact h.named
  · intro hle
    rw [Admitted, hpending, if_pos hle]
    exact Finset.mem_insert_self j _
  · intro i hi
    have hij : i ≠ j := fun he => hi (by rw [he])
    rw [hpending]
    split_ifs <;> simp [hij]

/-- An admitted handler uses its admission up. -/
theorem newFrameInfo_call {o : ℕ} (h : Bounded n s) (ha : Admitted n j s)
    (hc : flightSteps (.handler j) .newFrameInfo s o s') :
    Bounded n s' ∧ (flightContract n).guar (.handler j) s s' := by
  obtain ⟨⟨_, he⟩, hh⟩ := hc
  obtain ⟨rfl, hmem⟩ := Prod.mk.inj (Option.some.inj he)
  have hpending : pending n s'.hist = (pending n s.hist).erase j := by
    rw [hh]
    rfl
  have hobjects : s'.mem.objects.card = s.mem.objects.card + 1 := by
    rw [← hmem]
    exact Finset.card_insert_of_notMem h.fresh
  have hlt : ∀ o ∈ s'.mem.objects, o < s'.mem.made := by
    intro o ho
    rw [← hmem] at ho ⊢
    rcases Finset.mem_insert.mp ho with rfl | ho
    · exact Nat.lt_succ_self _
    · exact (h.named o ho).trans (Nat.lt_succ_self _)
  refine ⟨⟨?_, ?_, ?_, hlt⟩, ?_⟩
  · rw [hobjects, ← hmem]
    push_cast
    rw [h.count]
  · rw [hobjects, hpending, Finset.card_erase_of_mem ha]
    have hpos : 0 < (pending n s.hist).card := Finset.card_pos.mpr ⟨j, ha⟩
    have hb := h.bound
    omega
  · exact fun hmade => (hlt _ hmade).false
  · intro i hi
    have hij : i ≠ j := fun he => hi (by rw [he])
    rw [hpending]
    simp [hij]

theorem destroyFrameInfo_call {i o : ℕ} {a : Unit} (h : Bounded n s)
    (hc : flightSteps (.pipeline i) (.destroyFrameInfo o) s a s') :
    Bounded n s' ∧ (flightContract n).guar (.pipeline i) s s' := by
  obtain ⟨⟨_, he⟩, hh⟩ := hc
  have hpending : pending n s'.hist = pending n s.hist := by
    rw [hh]
    rfl
  simp only [FrameInfos.exec] at he
  split_ifs at he with ho
  obtain ⟨-, hmem⟩ := Prod.mk.inj (Option.some.inj he)
  have hobjects : s'.mem.objects.card + 1 = s.mem.objects.card := by
    rw [← hmem]
    exact Finset.card_erase_add_one ho
  have hcount : s'.mem.count = s.mem.count - 1 := by rw [← hmem]
  have hlt : ∀ o ∈ s'.mem.objects, o < s'.mem.made := by
    intro o ho
    rw [← hmem] at ho ⊢
    exact h.named o (Finset.mem_of_mem_erase ho)
  refine ⟨⟨?_, ?_, ?_, hlt⟩, ?_⟩
  · have hb := h.count
    omega
  · rw [hpending]
    have hb := h.bound
    omega
  · exact fun hmade => (hlt _ hmade).false
  · intro j _
    rw [hpending]

/-- A question decides how the handler goes on, and leaves its admission as it is. -/
theorem ask_bind {q : HandlerQuestion} {f : Bool → HandlerCall Unit}
    {P : FlightShared k → Prop} (hP : P = Admitted n j ∨ P = fun _ => True)
    (hf : ∀ b, Triple (flightContract n) flightSteps (.handler j) P (f b) (fun _ _ => True)) :
    Triple (flightContract n) flightSteps (.handler j) P
      (HandlerCall.perform (.ask q) >>= f) (fun _ _ => True) := by
  have hstable : (flightContract n).Stable (.handler j) P := by
    rcases hP with rfl | rfl
    · exact Admitted.stable
    · exact .const True
  refine .perform_bind (fun _ => P) (fun _ => hstable) ?_ hf
  intro s b s' h hs hc
  obtain ⟨hinv, hpending⟩ := ask_call h hc
  refine ⟨hinv, fun i _ => by rw [hpending], ?_⟩
  rcases hP with rfl | rfl
  · rw [Admitted, hpending]
    exact hs
  · trivial

theorem ask_triple {q : HandlerQuestion} {p : HandlerCall Unit} {P : FlightShared k → Prop}
    (hP : P = Admitted n j ∨ P = fun _ => True)
    (hp : Triple (flightContract n) flightSteps (.handler j) P p (fun _ _ => True)) :
    Triple (flightContract n) flightSteps (.handler j) P
      (do if ← HandlerCall.perform (.ask q) then p) (fun _ _ => True) := by
  apply ask_bind hP
  intro b
  cases b with
  | true => exact hp
  | false => exact .pure (fun _ _ _ => trivial)

theorem newFrameInfo_triple :
    Triple (flightContract n) flightSteps (.handler j) (Admitted n j)
      (do let _ ← HandlerCall.perform .newFrameInfo) (fun _ _ => True) := by
  refine .perform_bind (fun _ _ => True) (fun _ => .const True) ?_
    (fun _ => .pure (fun _ _ _ => trivial))
  intro s o s' h ha hc
  obtain ⟨hinv, hguar⟩ := newFrameInfo_call h ha hc
  exact ⟨hinv, hguar, trivial⟩

theorem enqueue_admitted :
    Triple (flightContract n) flightSteps (.handler j) (Admitted n j) HandlerCall.enqueue
      (fun _ _ => True) :=
  ask_triple (Or.inl rfl) (ask_triple (Or.inl rfl) newFrameInfo_triple)

theorem enqueueYUV_admitted :
    Triple (flightContract n) flightSteps (.handler j) (Admitted n j) HandlerCall.enqueueYUV
      (fun _ _ => True) :=
  ask_triple (Or.inl rfl) (ask_triple (Or.inl rfl)
    (ask_triple (Or.inl rfl) (ask_triple (Or.inl rfl) newFrameInfo_triple)))

/-- The test of both handlers: what is done after it is done by an admitted handler. -/
theorem check_triple {f : ℤ → HandlerCall Unit}
    (hpass : ∀ a : ℤ, a ≤ n → Triple (flightContract n) flightSteps (.handler j) (Admitted n j)
      (f a) (fun _ _ => True))
    (hfail : ∀ a : ℤ, ¬ a ≤ n → Triple (flightContract n) flightSteps (.handler j)
      (fun _ => True) (f a) (fun _ _ => True)) :
    Triple (flightContract n) flightSteps (.handler j) (fun _ => True)
      (HandlerCall.perform .inFlight >>= f) (fun _ _ => True) := by
  refine .perform_bind (fun a s => a ≤ n → Admitted n j s) ?_ ?_ ?_
  · exact fun a => .imp_const (fun _ => Admitted.stable)
  · intro s a s' h _ hc
    obtain ⟨hinv, hadmitted, hguar⟩ := inFlight_call h hc
    exact ⟨hinv, hguar, hadmitted⟩
  · intro a
    by_cases ha : a ≤ n
    · exact (hpass a ha).weaken (fun _ _ hs => hs ha) (fun _ _ _ h => h)
    · exact (hfail a ha).weaken (fun _ _ _ => trivial) (fun _ _ _ h => h)

theorem onImageAvailable_triple (inputFormat : HandlerCall.ImageFormat) :
    Triple (flightContract n) flightSteps (.handler j) (fun _ => True)
      (HandlerCall.onImageAvailable n inputFormat) (fun _ _ => True) := by
  apply ask_triple (Or.inr rfl)
  apply ask_bind (Or.inr rfl)
  intro isStopping
  cases isStopping with
  | true => exact .pure (fun _ _ _ => trivial)
  | false =>
      apply check_triple
      · intro a ha
        simp only [if_neg (not_lt.mpr ha)]
        cases inputFormat with
        | yuv420888 =>
            exact ask_triple (Or.inl rfl) (ask_triple (Or.inl rfl) enqueueYUV_admitted)
        | nv21 => exact ask_triple (Or.inl rfl) (ask_triple (Or.inl rfl) enqueue_admitted)
        | other => exact .pure (fun _ _ _ => trivial)
      · intro a ha
        simp only [if_pos (not_le.mp ha)]
        exact .pure (fun _ _ _ => trivial)

theorem onBufferAvailable_triple :
    Triple (flightContract n) flightSteps (.handler j) (fun _ => True)
      (HandlerCall.onBufferAvailable n) (fun _ _ => True) := by
  apply ask_bind (Or.inr rfl)
  intro isStopping
  cases isStopping with
  | true => exact .pure (fun _ _ _ => trivial)
  | false =>
      apply check_triple
      · intro a ha
        simp only [if_neg (not_lt.mpr ha)]
        exact ask_triple (Or.inl rfl) (ask_triple (Or.inl rfl) enqueue_admitted)
      · intro a ha
        simp only [if_pos (not_le.mp ha)]
        apply check_triple
        · exact fun _ _ => .pure (fun _ _ _ => trivial)
        · exact fun _ _ => .pure (fun _ _ _ => trivial)

theorem flight_triple (F : Flight k) (t : FlightParty k) :
    Triple (flightContract F.queueSize) flightSteps t (fun _ => True) (F.program t)
      (fun _ _ => True) := by
  cases t with
  | handler j =>
      apply Triple.forEach
      intro c _
      cases c with
      | image inputFormat => exact onImageAvailable_triple inputFormat
      | buffer => exact onBufferAvailable_triple
  | pipeline i =>
      apply Triple.forEach
      intro o _
      apply Triple.perform (fun _ => .const True)
      intro s a s' h _ hc
      obtain ⟨hinv, hguar⟩ := destroyFrameInfo_call h hc
      exact ⟨hinv, hguar, trivial⟩

end Invariant

theorem bounded_of_reach {F : Flight k}
    {p : Pool (FlightParty k) HandlerOp HandlerOp.Ans Unit (FlightShared k)}
    (hp : Pool.Reach flightSteps F.pool p) : Bounded F.queueSize p.state := by
  apply Contract.sound_inv (fun t => .const True) (flight_triple F) _ (fun _ => trivial) hp
  refine ⟨rfl, ?_, Finset.notMem_empty _, ?_⟩
  · exact Nat.zero_le _
  · exact fun o ho => (Finset.notMem_empty o ho).elim

/-- The number of `FrameInfo` objects alive never exceeds the queue size by more than the number
of cameras. -/
theorem frames_in_flight_bounded {F : Flight k}
    {p : Pool (FlightParty k) HandlerOp HandlerOp.Ans Unit (FlightShared k)}
    (hp : Pool.Reach flightSteps F.pool p) : p.state.mem.objects.card ≤ F.queueSize + k :=
  (Nat.le_add_right _ _).trans (bounded_of_reach hp).bound

/-- Two handlers with a queue size of 0. -/
def twoHandlers : Flight 2 where
  queueSize := 0
  callbacks := fun _ => [.buffer]
  destroys := fun _ => []

/-- Both handlers pass the check before either makes its frame, and the bound is reached. -/
theorem frames_in_flight_bounded_two :
    ∃ p, Pool.Reach flightSteps twoHandlers.pool p ∧ p.state.mem.objects.card = 2 ∧
      p.state.mem.objects.card ≤ 0 + 2 := by
  let checks : List (FlightParty 2 × Bool) :=
    [(.handler 0, false), (.handler 0, true), (.handler 1, false), (.handler 1, true)]
  let turn (j : Fin 2) : List (FlightParty 2 × Bool) := List.replicate 5 (.handler j, true)
  have hrun : (Pool.replay (fun answer _ => FrameInfos.exec answer) (fun _ _ _ _ => true)
      (checks ++ turn 0 ++ turn 1) twoHandlers.pool).any (fun p =>
        p.state.mem.objects.card = 2) = true := by decide
  obtain ⟨p, hp, hres⟩ := (Option.any_eq_true _ _).mp hrun
  have hreach := Pool.reach_of_replay_all _ _ _ hp
  exact ⟨p, hreach, of_decide_eq_true hres, frames_in_flight_bounded hreach⟩

end ARArch
