import ARArch.SequentialCalls
import ARArch.RelyGuarantee

/-!
# The queue of a camera

The camera callback hands its frames over with `Camera::enqueue`, and source nodes take them.
The queue is a `tbb::concurrent_bounded_queue`: a `try_push` fails only when the queue is full, and
`pop` waits while it is empty. When the queue is full the producer makes room itself: it takes the
oldest frame and pushes again.

Between two steps of `enqueue` the consumers may run. They only take frames, so that room once
made stays: the second push succeeds at the latest, and no call evicts twice.
-/

namespace ARArch

open Atomic

/-- A call on the queue of a camera or on the repository. `returned` marks the end of a call of
`enqueue`, with its result. -/
inductive CameraOp
  | tryPush (id : CameraId) (frame : FrameRef)
  | tryPop (id : CameraId)
  | pop (id : CameraId)
  | size (id : CameraId)
  | repo (i : Op)
  | returned (b : Bool)

@[reducible] def CameraOp.Ans : CameraOp → Type
  | tryPush _ _ => Bool
  | tryPop _ => Option FrameRef
  | pop _ => FrameRef
  | size _ => ℕ
  | repo i => i.Ans
  | returned _ => Unit

/-- Calls that take at most one frame and put none in. -/
def CameraOp.takes : CameraOp → Bool
  | .tryPop _ | .pop _ | .size _ => true
  | _ => false

structure CameraMemory (τ : Type) where
  capacity : CameraId → ℕ
  /-- The frames in the queue of a camera, the oldest first. -/
  queues : CameraId → List FrameRef := fun _ => []
  base : Memory τ

namespace CameraMemory

variable {τ : Type}

def setQueue (m : CameraMemory τ) (id : CameraId) (frames : List FrameRef) : CameraMemory τ :=
  { m with queues := Function.update m.queues id frames }

@[simp] theorem setQueue_self (m : CameraMemory τ) (id : CameraId) (frames : List FrameRef) :
    (m.setQueue id frames).queues id = frames := by
  simp [setQueue]

@[simp] theorem capacity_setQueue (m : CameraMemory τ) (id : CameraId) (frames : List FrameRef) :
    (m.setQueue id frames).capacity = m.capacity := rfl

@[simp] theorem base_setQueue (m : CameraMemory τ) (id : CameraId) (frames : List FrameRef) :
    (m.setQueue id frames).base = m.base := rfl

/-- While a `pop` waits, `size` of the original is negative and the queue is empty; no loop up to
it makes a turn then, as here. The programs below ask for nothing in the repository that the
environment settles. -/
def exec [DecidableEq τ] (t : τ) :
    (i : CameraOp) → CameraMemory τ → Option (i.Ans × CameraMemory τ)
  | .tryPush id f, m =>
    if (m.queues id).length < m.capacity id then
      some (true, m.setQueue id (m.queues id ++ [f]))
    else some (false, m)
  | .tryPop id, m =>
    match m.queues id with
    | [] => some (none, m)
    | f :: fs => some (some f, m.setQueue id fs)
  | .pop id, m =>
    match m.queues id with
    | [] => none
    | f :: fs => some (f, m.setQueue id fs)
  | .size id, m => some ((m.queues id).length, m)
  | .repo i, m => (Memory.exec false t i m.base).map fun q => (q.1, { m with base := q.2 })
  | .returned _, m => some ((), m)

end CameraMemory

abbrev CameraCall (α : Type) := Prog CameraOp CameraOp.Ans α

namespace CameraCall

abbrev perform (i : CameraOp) : CameraCall i.Ans := Prog.perform i

/-- A call of the repository. -/
abbrev repository {α : Type} (p : Call α) : CameraCall α := p.embed .repo (fun _ r => r)

/-- The loop of `enqueue`, with the turns it has left. -/
def enqueueLoop (id : CameraId) (data : FrameRef) : ℕ → CameraCall Bool
  | 0 => pure false
  | n + 1 => do
    match ← perform (.tryPop id) with
    | none => pure ()
    | some oldData => do
      let seq ← perform (.repo (.seqno oldData))
      repository (Call.deleteFrame id seq)
    if ← perform (.tryPush id data) then pure true else enqueueLoop id data n

def enqueue (id : CameraId) (data : FrameRef) : CameraCall Bool := do
  if ← perform (.tryPush id data) then pure true else enqueueLoop id data 2

def clearLoop (id : CameraId) : ℕ → CameraCall Unit
  | 0 => pure ()
  | n + 1 => do
    match ← perform (.tryPop id) with
    | none => pure ()
    | some _ => clearLoop id n

def clear (id : CameraId) : CameraCall Unit := do
  let n ← perform (.size id)
  clearLoop id n

def drainLoop (id : CameraId) : ℕ → List FrameRef → ℕ → CameraCall (List FrameRef × ℕ)
  | 0, stack, no => pure (stack, no)
  | n + 1, stack, no => do
    match ← perform (.tryPop id) with
    | none => pure (stack, no)
    | some data => drainLoop id n (data :: stack) (no + 1)

/-- The stack that is handed in, with the frames taken on top, and how many these are. -/
def drain (id : CameraId) (stack : List FrameRef) : CameraCall (List FrameRef × ℕ) := do
  let n ← perform (.size id)
  drainLoop id n stack 0

def dequeue (id : CameraId) : CameraCall (Option FrameRef) := perform (.tryPop id)

def dequeueBlocked (id : CameraId) : CameraCall FrameRef := perform (.pop id)

end CameraCall

/-- What a consumer may call. -/
inductive TakeCall
  | dequeue
  | dequeueBlocked
  | drain
  | clear
  deriving DecidableEq

def TakeCall.program (id : CameraId) : TakeCall → CameraCall Unit
  | dequeue => do
    let _ ← CameraCall.dequeue id
    pure ()
  | dequeueBlocked => do
    let _ ← CameraCall.dequeueBlocked id
    pure ()
  | drain => do
    let _ ← CameraCall.drain id []
    pure ()
  | clear => CameraCall.clear id

/-- The calls that put a frame in or use the repository. -/
def CameraOp.other (i : CameraOp) : Option Unit := if i.takes then none else some ()

theorem CameraOp.takes_of_other {i : CameraOp} (h : i.other = none) : i.takes = true := by
  unfold other at h
  split_ifs at h with htakes
  exact htakes

/-- A consumer takes frames, and makes no other calls. -/
theorem TakeCall.program_within (c : TakeCall) (id : CameraId) :
    (c.program id).Within CameraOp.other [] := by
  have hclear (n : ℕ) : (CameraCall.clearLoop id n).Within CameraOp.other [] := by
    induction n with
    | zero => exact .pure ()
    | succ n ih =>
        refine .perform_bind rfl (fun a => ?_)
        cases a with
        | none => exact .pure ()
        | some f => exact ih
  have hdrain (n : ℕ) (stack : List FrameRef) (no : ℕ) :
      (CameraCall.drainLoop id n stack no).Within CameraOp.other [] := by
    induction n generalizing stack no with
    | zero => exact .pure (stack, no)
    | succ n ih =>
        refine .perform_bind rfl (fun a => ?_)
        cases a with
        | none => exact .pure (stack, no)
        | some f => exact ih (f :: stack) (no + 1)
  cases c with
  | dequeue => exact .perform_bind rfl (fun _ => .pure ())
  | dequeueBlocked => exact .perform_bind rfl (fun _ => .pure ())
  | drain =>
      refine .bind_nil ?_ (fun _ => .pure ())
      exact .perform_bind rfl (fun n => hdrain n [] 0)
  | clear => exact .perform_bind rfl hclear

inductive QueueParty
  | producer
  | consumer (j : ℕ)
  deriving DecidableEq

abbrev CameraEvent := Event QueueParty CameraOp CameraOp.Ans

abbrev CameraShared := Recorded QueueParty CameraOp CameraOp.Ans (CameraMemory QueueParty)

/-- The steps on the queue of a camera. -/
def cameraCalls : Action QueueParty CameraOp CameraOp.Ans CameraShared :=
  recorded (fun _ => CameraMemory.exec)

/-- One thread enqueues frames, and consumers make their calls. -/
structure CameraTraffic where
  id : CameraId
  frames : List FrameRef
  calls : ℕ → List TakeCall

/-- One call of `enqueue`, with its end. -/
def CameraCall.handOver (id : CameraId) (data : FrameRef) : CameraCall Unit := do
  let b ← CameraCall.enqueue id data
  perform (.returned b)

def CameraTraffic.program (T : CameraTraffic) : QueueParty → CameraCall Unit
  | .producer => Prog.forEach (CameraCall.handOver T.id) T.frames
  | .consumer j => Prog.forEach (TakeCall.program T.id) (T.calls j)

def CameraTraffic.pool (T : CameraTraffic) (capacity : CameraId → ℕ) (r : Repository) :
    Pool QueueParty CameraOp CameraOp.Ans Unit CameraShared :=
  ⟨T.program, ⟨{ capacity := capacity, base := { repo := r } }, []⟩⟩

/-! ### What the history tells of a queue -/

/-- The frame that a call put into the queue. -/
def pushedFrame (id : CameraId) : CameraEvent → Option FrameRef
  | ⟨_, .tryPush c f, true⟩ => if c = id then some f else none
  | _ => none

/-- The frame that a call took from the queue. -/
def takenFrame (id : CameraId) : CameraEvent → Option FrameRef
  | ⟨_, .tryPop c, r⟩ => if c = id then r else none
  | ⟨_, .pop c, f⟩ => if c = id then some f else none
  | _ => none

/-- The frames enqueued so far, in this order. -/
def enqueued (id : CameraId) (h : List CameraEvent) : List FrameRef :=
  (h.filterMap (pushedFrame id)).reverse

/-- The frames that have left the queue, in this order. -/
def departed (id : CameraId) (h : List CameraEvent) : List FrameRef :=
  (h.filterMap (takenFrame id)).reverse

/-- The frames that the producer evicted. -/
def evicted (id : CameraId) (h : List CameraEvent) : List FrameRef :=
  (h.filter (fun e => e.thread = .producer)).filterMap (takenFrame id)

/-- The frames that consumers took, one for each call on the queue that took one. -/
def consumed (id : CameraId) (h : List CameraEvent) : List FrameRef :=
  (h.filter (fun e => e.thread ≠ .producer)).filterMap (takenFrame id)

/-- How many frames the producer has evicted since a call of `enqueue` last returned. -/
def evictions (id : CameraId) : List CameraEvent → ℕ
  | [] => 0
  | e :: h =>
    if e.thread = .producer then
      match e.op with
      | .returned _ => 0
      | _ => evictions id h + (takenFrame id e).toList.length
    else evictions id h

section History

variable {id : CameraId} {e : CameraEvent} {h : List CameraEvent} {f : FrameRef}

@[simp] theorem enqueued_cons :
    enqueued id (e :: h) = enqueued id h ++ (pushedFrame id e).toList := by
  cases he : pushedFrame id e <;> simp [enqueued, he]

@[simp] theorem departed_cons :
    departed id (e :: h) = departed id h ++ (takenFrame id e).toList := by
  cases he : takenFrame id e <;> simp [departed, he]

/-- A frame that has left the queue was evicted or taken by a consumer. -/
theorem count_departed :
    (departed id h).count f = (evicted id h).count f + (consumed id h).count f := by
  induction h with
  | nil => rfl
  | cons e h ih =>
      rw [departed_cons, List.count_append, ih]
      cases ht : takenFrame id e with
      | none => by_cases hp : e.thread = .producer <;> simp [evicted, consumed, hp, ht]
      | some g =>
          by_cases hp : e.thread = .producer
          · simp [evicted, consumed, hp, ht, List.count_cons]
            omega
          · simp [evicted, consumed, hp, ht, List.count_cons]
            omega

theorem evictions_cons_of_ne (hp : e.thread ≠ .producer) :
    evictions id (e :: h) = evictions id h := by
  simp [evictions, hp]

end History

namespace CameraMemory

variable {id : CameraId} {t : QueueParty} {i : CameraOp} {r : i.Ans}
  {m m' : CameraMemory QueueParty}

theorem exec_capacity (h : exec t i m = some (r, m')) : m'.capacity = m.capacity := by
  cases i with
  | tryPush c f =>
      simp only [exec] at h
      split_ifs at h <;> cases h <;> rfl
  | tryPop c =>
      simp only [exec] at h
      split at h <;> cases h <;> rfl
  | pop c =>
      simp only [exec] at h
      split at h <;> cases h
      rfl
  | size c | returned b =>
      cases h
      rfl
  | repo i =>
      obtain ⟨q, -, hq⟩ := Option.map_eq_some_iff.mp h
      cases hq
      rfl

theorem queues_setQueue (c : CameraId) (frames : List FrameRef) :
    (m.setQueue c frames).queues id = if id = c then frames else m.queues id := by
  simp [setQueue, Function.update_apply]

/-- What a call puts into a queue and what it takes from it account for the change. -/
theorem exec_conserves (id : CameraId) (h : exec t i m = some (r, m')) :
    m.queues id ++ (pushedFrame id ⟨t, i, r⟩).toList =
      (takenFrame id ⟨t, i, r⟩).toList ++ m'.queues id := by
  cases i with
  | tryPush c f =>
      simp only [exec] at h
      split_ifs at h <;> cases h
      · by_cases hc : id = c
        · subst hc
          simp [pushedFrame, takenFrame]
        · simp [pushedFrame, takenFrame, queues_setQueue, hc, Ne.symm hc]
      · simp [pushedFrame, takenFrame]
  | tryPop c =>
      simp only [exec] at h
      split at h <;> rename_i hq <;> cases h
      · simp [pushedFrame, takenFrame]
      · by_cases hc : id = c
        · subst hc
          simp [pushedFrame, takenFrame, hq]
        · simp [pushedFrame, takenFrame, queues_setQueue, hc, Ne.symm hc]
  | pop c =>
      simp only [exec] at h
      split at h <;> rename_i hq <;> cases h
      by_cases hc : id = c
      · subst hc
        simp [pushedFrame, takenFrame, hq]
      · simp [pushedFrame, takenFrame, queues_setQueue, hc, Ne.symm hc]
  | size c | returned b =>
      cases h
      simp [pushedFrame, takenFrame]
  | repo i =>
      obtain ⟨q, -, hq⟩ := Option.map_eq_some_iff.mp h
      cases hq
      simp [pushedFrame, takenFrame]

theorem exec_bounded (id : CameraId) (h : exec t i m = some (r, m'))
    (hm : (m.queues id).length ≤ m.capacity id) : (m'.queues id).length ≤ m.capacity id := by
  have hconserves := congrArg List.length (exec_conserves id h)
  simp only [List.length_append] at hconserves
  cases hp : pushedFrame id ⟨t, i, r⟩ with
  | none =>
      rw [hp] at hconserves
      simp only [Option.toList_none, List.length_nil] at hconserves
      omega
  | some f =>
      cases i with
      | tryPush c g =>
          simp only [exec] at h
          split_ifs at h with hlt <;> cases h
          · simp only [pushedFrame] at hp
            split_ifs at hp with hc
            subst hc
            simpa [Nat.succ_le_iff] using hlt
          · simp [pushedFrame] at hp
      | _ => simp [pushedFrame] at hp

theorem exec_tryPush {f : FrameRef} {b : Bool}
    (h : exec t (.tryPush id f) m = some (b, m')) :
    (b = true ∧ (m.queues id).length < m.capacity id) ∨
      (b = false ∧ m.capacity id ≤ (m.queues id).length) := by
  simp only [exec] at h
  split_ifs at h with hlt <;> cases h
  · exact Or.inl ⟨rfl, hlt⟩
  · exact Or.inr ⟨rfl, not_lt.mp hlt⟩

theorem exec_tryPop {a : Option FrameRef} (h : exec t (.tryPop id) m = some (a, m')) :
    (a = none ∧ m'.queues id = []) ∨
      ∃ f, a = some f ∧ (m'.queues id).length < (m.queues id).length := by
  simp only [exec] at h
  split at h <;> rename_i hq <;> cases h
  · exact Or.inl ⟨rfl, hq⟩
  · exact Or.inr ⟨_, rfl, by simp [hq]⟩

theorem exec_repo {j : Op} {a : j.Ans} (h : exec t (.repo j) m = some (a, m')) :
    m'.queues = m.queues := by
  obtain ⟨q, -, hq⟩ := Option.map_eq_some_iff.mp h
  cases hq
  rfl

theorem exec_base (hi : ∀ j, i ≠ .repo j) (h : exec t i m = some (r, m')) :
    m'.base = m.base := by
  cases i with
  | tryPush c f =>
      simp only [exec] at h
      split_ifs at h <;> cases h <;> rfl
  | tryPop c =>
      simp only [exec] at h
      split at h <;> cases h <;> rfl
  | pop c =>
      simp only [exec] at h
      split at h <;> cases h
      rfl
  | size c | returned b =>
      cases h
      rfl
  | repo j => exact (hi j rfl).elim

/-- Only `pop` and the repository may make a thread wait. -/
theorem exec_total (hr : ∀ j, i ≠ .repo j) (hp : ∀ c, i ≠ .pop c) : ∃ q, exec t i m = some q := by
  cases i with
  | tryPush c f =>
      simp only [exec]
      split_ifs <;> exact ⟨_, rfl⟩
  | tryPop c =>
      simp only [exec]
      split <;> exact ⟨_, rfl⟩
  | pop c => exact (hp c rfl).elim
  | size c | returned b => exact ⟨_, rfl⟩
  | repo j => exact (hr j rfl).elim

end CameraMemory

end ARArch
