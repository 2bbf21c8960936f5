import ARArch.ThreadPool
import ARArch.Repository

/-!
# The global references of a frame

`HardwareCamera.enqueue` and `enqueueYUV` make global references to the arrays of a frame and hand
them to its `FrameInfo`, whose destructor deletes them. `Camera::enqueue` takes the frame over in a
shared pointer; the queue and whoever takes the frame from there share it. When the frame cannot be
queued its pointer goes out of scope in `Camera::enqueue`, and the JNI function deletes the
references once more.

The references of a frame and the frame itself are made in one step, since no other thread knows of
them yet, and the destructor runs in one step with the drop of the last share. Copying or dropping
a share that is not there is undefined and has no outcome. What the repository shares is not
spelled out: a call of `delete_frame` gives up any shares.
-/

namespace ARArch

open Atomic

/-- The arrays that a frame has references to. -/
inductive FrameArray
  | rgba
  | mono
  deriving DecidableEq

/-- `share` makes a shared pointer of a new frame, `copy` copies one and `drop` destroys one.
`returned` marks the end of a call from Java. -/
inductive JniOp
  | newFrameInfo (arrays : List FrameArray)
  | share (frame : FrameRef)
  | copy (frame : FrameRef)
  | drop (frame : FrameRef)
  | tryPush (id : CameraId) (frame : FrameRef)
  | tryPop (id : CameraId)
  | pop (id : CameraId)
  | seqno (frame : FrameRef)
  | setSeqno (frame : FrameRef) (n : SeqNo)
  | deleteFrame (id : CameraId) (seqno : SeqNo)
  | deleteGlobalRef (frame : FrameRef) (a : FrameArray)
  | returned (frame : FrameRef) (b : Bool)

@[reducible] def JniOp.Ans : JniOp → Type
  | newFrameInfo _ | pop _ => FrameRef
  | tryPush _ _ => Bool
  | tryPop _ => Option FrameRef
  | seqno _ => SeqNo
  | deleteFrame _ _ => List FrameRef
  | _ => Unit

structure JniMemory where
  capacity : CameraId → ℕ
  /-- The frames in the queue of a camera, the oldest first. -/
  queues : CameraId → List FrameRef := fun _ => []
  /-- The frames from here on have not been made yet. -/
  nextFrame : FrameRef := 0
  arrays : FrameRef → List FrameArray := fun _ => []
  seqnos : FrameRef → SeqNo := fun _ => 0
  /-- How many shared pointers there are to a frame. -/
  uses : FrameRef → ℕ := fun _ => 0
  destroyed : FrameRef → Bool := fun _ => false
  /-- How often a reference of a frame has been deleted. -/
  deletions : FrameRef → FrameArray → ℕ := fun _ _ => 0
  /-- The shares that the repository gives up, in one call of `delete_frame` after another. -/
  givenUp : List (List FrameRef) := []

namespace JniMemory

/-- `FrameInfo::dispose`, with an environment. -/
def destroy (m : JniMemory) (f : FrameRef) : JniMemory :=
  { m with
    uses := Function.update m.uses f 0
    destroyed := Function.update m.destroyed f true
    deletions := Function.update m.deletions f (fun a =>
      if a ∈ m.arrays f then m.deletions f a + 1 else m.deletions f a) }

def deleteRef (m : JniMemory) (f : FrameRef) (a : FrameArray) : JniMemory :=
  { m with
    deletions := Function.update m.deletions f
      (Function.update (m.deletions f) a (m.deletions f a + 1)) }

@[simp] theorem destroyed_destroy (m : JniMemory) (f : FrameRef) :
    (m.destroy f).destroyed = Function.update m.destroyed f true := rfl

@[simp] theorem deletions_destroy (m : JniMemory) (f : FrameRef) :
    (m.destroy f).deletions = Function.update m.deletions f (fun a =>
      if a ∈ m.arrays f then m.deletions f a + 1 else m.deletions f a) := rfl

@[simp] theorem deletions_deleteRef (m : JniMemory) (f : FrameRef) (a : FrameArray) :
    (m.deleteRef f a).deletions = Function.update m.deletions f
      (Function.update (m.deletions f) a (m.deletions f a + 1)) := rfl

def exec : (i : JniOp) → JniMemory → Option (i.Ans × JniMemory)
  | .newFrameInfo arrays, m =>
    some (m.nextFrame, { m with
      nextFrame := m.nextFrame + 1
      arrays := Function.update m.arrays m.nextFrame arrays })
  | .share f, m =>
    if m.destroyed f then none else some ((), { m with uses := Function.update m.uses f 1 })
  | .copy f, m =>
    if m.uses f = 0 then none
    else some ((), { m with uses := Function.update m.uses f (m.uses f + 1) })
  | .drop f, m =>
    if m.uses f = 0 then none
    else if m.uses f = 1 then some ((), m.destroy f)
    else some ((), { m with uses := Function.update m.uses f (m.uses f - 1) })
  | .tryPush id f, m =>
    if m.uses f = 0 then none
    else if (m.queues id).length < m.capacity id then
      some (true, { m with
        queues := Function.update m.queues id (m.queues id ++ [f])
        uses := Function.update m.uses f (m.uses f + 1) })
    else some (false, m)
  | .tryPop id, m =>
    match m.queues id with
    | [] => some (none, m)
    | f :: fs => some (some f, { m with queues := Function.update m.queues id fs })
  | .pop id, m =>
    match m.queues id with
    | [] => none
    | f :: fs => some (f, { m with queues := Function.update m.queues id fs })
  | .seqno f, m => some (m.seqnos f, m)
  | .setSeqno f n, m => some ((), { m with seqnos := Function.update m.seqnos f n })
  | .deleteFrame _ _, m =>
    match m.givenUp with
    | [] => some ([], m)
    | l :: ls => some (l, { m with givenUp := ls })
  | .deleteGlobalRef f a, m => some ((), m.deleteRef f a)
  | .returned _ _, m => some ((), m)

end JniMemory

abbrev JniCall (α : Type) := Prog JniOp JniOp.Ans α

namespace JniCall

abbrev perform (i : JniOp) : JniCall i.Ans := Prog.perform i

/-- `delete_frame`, as far as it gives shares up. -/
def deleteFrame (id : CameraId) (seqno : SeqNo) : JniCall Unit := do
  let frames ← perform (.deleteFrame id seqno)
  Prog.forEach (fun frame => perform (.drop frame)) frames

/-- The loop of `Camera::enqueue`, with the turns it has left. -/
def enqueueLoop (id : CameraId) (sp : FrameRef) : ℕ → JniCall Bool
  | 0 => pure false
  | n + 1 => do
    match ← perform (.tryPop id) with
    | none => pure ()
    | some oldData => do
      let seq ← perform (.seqno oldData)
      perform (.drop oldData)
      deleteFrame id seq
    if ← perform (.tryPush id sp) then pure true else enqueueLoop id sp n

/-- The body of `Camera::enqueue`, with the shared pointer made. -/
def pushShared (id : CameraId) (sp : FrameRef) : JniCall Bool := do
  if ← perform (.tryPush id sp) then pure true else enqueueLoop id sp 2

/-- `Camera::enqueue`, with its shared pointer `sp`. -/
def enqueue (id : CameraId) (data : FrameRef) : JniCall Bool := do
  perform (.share data)
  let isQueued ← pushShared id data
  perform (.drop data)
  pure isQueued

/-- What the JNI functions do once they have the arrays. -/
def handOver (id : CameraId) (arrays : List FrameArray) : JniCall Bool := do
  let frameInfo ← perform (.newFrameInfo arrays)
  if ← enqueue id frameInfo then do
    perform (.returned frameInfo true)
    pure true
  else do
    Prog.forEach (fun a => perform (.deleteGlobalRef frameInfo a)) arrays
    perform (.returned frameInfo false)
    pure false

/-- The references that are not null. -/
def arraysOf (hasRgba hasGrey : Bool) (monoLen : ℤ) : List FrameArray :=
  (if hasRgba then [.rgba] else []) ++ (if 0 < monoLen ∧ hasGrey then [.mono] else [])

def hardwareCameraEnqueue (id : CameraId) (hasRgba hasGrey : Bool) (monoLen : ℤ) :
    JniCall Bool :=
  handOver id (arraysOf hasRgba hasGrey monoLen)

/-- The RGBA array has been pinned; `isGrey` says whether the grey image could be made. -/
def hardwareCameraEnqueueYUV (id : CameraId) (hasGrey isGrey : Bool) (monoLen : ℤ) :
    JniCall Bool :=
  handOver id (arraysOf true hasGrey (if 0 < monoLen ∧ hasGrey ∧ !isGrey then 0 else monoLen))

end JniCall

/-- What a thread may do: call from Java, take frames from a queue, number them, and copy and drop
shares of them. -/
inductive JniTask
  | enqueue (id : CameraId) (hasRgba hasGrey : Bool) (monoLen : ℤ)
  | enqueueYUV (id : CameraId) (hasGrey isGrey : Bool) (monoLen : ℤ)
  | dequeue (id : CameraId)
  | dequeueBlocked (id : CameraId)
  | number (frame : FrameRef) (n : SeqNo)
  | copy (frame : FrameRef)
  | drop (frame : FrameRef)

namespace JniTask

@[reducible] def Ans : JniTask → Type
  | enqueue _ _ _ _ | enqueueYUV _ _ _ _ => Bool
  | dequeue _ => Option FrameRef
  | dequeueBlocked _ => FrameRef
  | _ => Unit

def program : (q : JniTask) → JniCall q.Ans
  | enqueue id hasRgba hasGrey monoLen =>
    JniCall.hardwareCameraEnqueue id hasRgba hasGrey monoLen
  | enqueueYUV id hasGrey isGrey monoLen =>
    JniCall.hardwareCameraEnqueueYUV id hasGrey isGrey monoLen
  | dequeue id => JniCall.perform (.tryPop id)
  | dequeueBlocked id => JniCall.perform (.pop id)
  | number f n => JniCall.perform (.setSeqno f n)
  | copy f => JniCall.perform (.copy f)
  | drop f => JniCall.perform (.drop f)

end JniTask

section Runs

variable {τ : Type}

abbrev JniEvent (τ : Type) := Event τ JniOp JniOp.Ans

abbrev JniShared (τ : Type) := Recorded τ JniOp JniOp.Ans JniMemory

def jniCalls (τ : Type) : Action τ JniOp JniOp.Ans (JniShared τ) :=
  recorded (fun _ _ => JniMemory.exec)

/-- The threads begin, with frames below `made` in the queues and elsewhere. -/
def JniMemory.start (capacity : CameraId → ℕ) (queues : CameraId → List FrameRef)
    (made : FrameRef) (uses : FrameRef → ℕ) (seqnos : FrameRef → SeqNo)
    (givenUp : List (List FrameRef)) : JniMemory where
  capacity := capacity
  queues := queues
  nextFrame := made
  seqnos := seqnos
  uses f := if f < made then uses f else 0
  givenUp := givenUp

def jniPool (tasks : τ → Prog JniTask JniTask.Ans Unit) (m : JniMemory) :
    Pool τ JniOp JniOp.Ans Unit (JniShared τ) :=
  ⟨fun t => (tasks t).expand JniTask.program, ⟨m, []⟩⟩

/-- The queue was full when the frame was pushed. -/
def isFullPush (f : FrameRef) : JniEvent τ → Bool
  | ⟨_, .tryPush _ g, false⟩ => g = f
  | _ => false

/-- How often a frame was pushed in vain. -/
def fullPushes (f : FrameRef) (h : List (JniEvent τ)) : ℕ := h.countP (isFullPush f)

/-- A frame that was pushed twice in vain finds room the third time. -/
def FindsRoom (_ : τ) (i : JniOp) (s : JniShared τ) (_ : i.Ans) : Prop :=
  match i with
  | .tryPush id f => fullPushes f s.hist = 2 → (s.mem.queues id).length < s.mem.capacity id
  | _ => True

/-- Once a call from Java has returned and its frame is destroyed, each reference that it made has
been deleted once. -/
def DeletedOnce (s : JniShared τ) : Prop :=
  ∀ t f b, ⟨t, .returned f b, ()⟩ ∈ s.hist → s.mem.destroyed f = true →
    ∀ a ∈ s.mem.arrays f, s.mem.deletions f a = 1

end Runs

end ARArch
