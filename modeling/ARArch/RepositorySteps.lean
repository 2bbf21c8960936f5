import ARArch.Repository
import ARArch.AtomicProgram

/-!
# Atomic steps on the repository

Each operation is one call on a container or an atomic of the repository. An accessor holds the
lock of its element from `find` until it is erased through or dropped. The lock is not reentrant:
a `find` on a locked element waits, also for a lock of the same thread.

`findCamera` and `findFrame` take an accessor of `camera_frames` and of a map of frames; a
`const_accessor` (`peekCamera`) waits for writers only. The operations on a single frame address
the map that the camera's entry holds. A map that was made by `new` but refused by
`camera_frames.insert` is reached by no other party and keeps no observable content;
`FramesPtr.unlinked` points to such a map.

`tryPut port camera seqno u` offers `seqno` at an output port of the router, whose node was built
for `camera`; `begin` starts the body of that node on an accepted message, and `busy` is the
node's own `is_detecting()` or `is_tracking()`. `exchangeRendering` and `resetRendering` are the
`compare_exchange_strong(false, true)` and the `store(false)` on `is_rendering`.
-/

namespace ARArch

/-- A pointer to a map of frames. -/
inductive FramesPtr
  | linked (camera : CameraId)
  | unlinked
  deriving DecidableEq

inductive Op
  | counterFind (camera : CameraId)
  | counterCreate (camera : CameraId)
  | counterFetchAdd (camera : CameraId)
  | findCamera (camera : CameraId)
  | peekCamera (camera : CameraId)
  | insertCamera (camera : CameraId)
  | dropCamera (camera : CameraId)
  | findFrame (camera : CameraId) (seqno : SeqNo)
  | countFrame (camera : CameraId) (seqno : SeqNo)
  | insertFrame (frames : FramesPtr) (seqno : SeqNo) (frame : FrameRef)
  | eraseFrame (camera : CameraId) (seqno : SeqNo)
  | dropFrame (camera : CameraId) (seqno : SeqNo)
  | clearFrames (camera : CameraId)
  | load (frame : FrameRef) (u : Consumer)
  | store (frame : FrameRef) (u : Consumer) (b : Bool)
  | rgbaLen (frame : FrameRef)
  | seqno (frame : FrameRef)
  | setSeqno (frame : FrameRef) (seqno : SeqNo)
  | cameraIds
  | insertCameraInterface (camera : CameraId)
  | stereoFind (hash : ℕ)
  | stereoAssign (hash : ℕ) (key : Key)
  | stereoInsert (hash : ℕ) (key : Key)
  | stereoErase (hash : ℕ)
  | busy (camera : CameraId) (u : Consumer)
  | tryPut (port : ℕ) (camera : CameraId) (seqno : SeqNo) (u : Consumer)
  | begin (camera : CameraId) (seqno : SeqNo) (u : Consumer)
  | exchangeRendering
  | resetRendering

@[reducible] def Op.Ans : Op → Type
  | counterFind _ | findCamera _ | peekCamera _ | insertCamera _ | countFrame _ _ => Bool
  | counterFetchAdd _ | seqno _ => SeqNo
  | findFrame _ _ => Option FrameRef
  | load _ _ | busy _ _ | tryPut _ _ _ _ | exchangeRendering => Bool
  | rgbaLen _ => ℤ
  | cameraIds => List CameraId
  | stereoFind _ => Option Key
  | _ => Unit

/-- The repository with the locks held on its elements, by thread, and the messages that ports
have accepted. -/
structure Memory (τ : Type) where
  repo : Repository
  cameraLock : Table CameraId τ := Table.empty
  frameLock : Table Key τ := Table.empty
  accepted : List (Key × Consumer) := []
  /-- `is_rendering` of the repository. -/
  isRendering : Bool := false

namespace Memory

variable {τ : Type} [DecidableEq τ]

def withRepo (m : Memory τ) (r : Repository) : Memory τ := { m with repo := r }

/-- What an operation of thread `t` answers and leaves; `none` while it has to wait. The answers
of `busy` and `tryPut` are the environment's. -/
def exec (answer : Bool) (t : τ) : (i : Op) → Memory τ → Option (i.Ans × Memory τ)
  | .counterFind c, m => some ((m.repo.seqNumbers c).isSome, m)
  | .counterCreate c, m =>
    some ((), m.withRepo { m.repo with seqNumbers := m.repo.seqNumbers.assign c 0 })
  | .counterFetchAdd c, m => (m.repo.seqNumbers c).map fun n =>
    (n, m.withRepo { m.repo with seqNumbers := m.repo.seqNumbers.assign c (n + 1) })
  | .findCamera c, m =>
    if (m.repo.cameraFrames c).isNone then some (false, m)
    else if (m.cameraLock c).isSome then none
    else some (true, { m with cameraLock := m.cameraLock.assign c t })
  | .peekCamera c, m =>
    if (m.cameraLock c).isSome then none else some ((m.repo.cameraFrames c).isSome, m)
  | .insertCamera c, m => some ((m.repo.cameraFrames c).isNone, m.withRepo
    { m.repo with cameraFrames := m.repo.cameraFrames.insert c Table.empty })
  | .dropCamera c, m => some ((), { m with
    cameraLock := if m.cameraLock c = some t then m.cameraLock.erase c else m.cameraLock })
  | .findFrame c s, m =>
    match m.repo.frame (c, s) with
    | none => some (none, m)
    | some f =>
      if (m.frameLock (c, s)).isSome then none
      else some (some f, { m with frameLock := m.frameLock.assign (c, s) t })
  | .countFrame c s, m => some ((m.repo.frame (c, s)).isSome, m)
  | .insertFrame (.linked c) s f, m => some ((), m.withRepo (m.repo.insertFrame (c, s) f))
  | .insertFrame .unlinked _ _, m => some ((), m)
  | .eraseFrame c s, m => some ((), { m with
    repo := m.repo.eraseFrame (c, s), frameLock := m.frameLock.erase (c, s) })
  | .dropFrame c s, m => some ((), { m with
    frameLock := if m.frameLock (c, s) = some t then m.frameLock.erase (c, s) else m.frameLock })
  | .clearFrames c, m => some ((), m.withRepo
    { m.repo with cameraFrames := m.repo.cameraFrames.adjust c (fun _ => Table.empty) })
  | .load f u, m => some ((m.repo.infos f).flag u, m)
  | .store f u b, m => some ((), m.withRepo (m.repo.modifyInfo f (·.setFlag u b)))
  | .rgbaLen f, m => some ((m.repo.infos f).rgbaLen, m)
  | .seqno f, m => some ((m.repo.infos f).seqno, m)
  | .setSeqno f s, m =>
    some ((), m.withRepo (m.repo.modifyInfo f (fun i => { i with seqno := s })))
  | .cameraIds, m => some (m.repo.cameras, m)
  | .insertCameraInterface c, m =>
    some ((), m.withRepo { m.repo with cameras := m.repo.cameras ++ [c] })
  | .stereoFind h, m => some (m.repo.stereoFrames h, m)
  | .stereoAssign h k, m =>
    some ((), m.withRepo { m.repo with stereoFrames := m.repo.stereoFrames.assign h k })
  | .stereoInsert h k, m =>
    some ((), m.withRepo { m.repo with stereoFrames := m.repo.stereoFrames.insert h k })
  | .stereoErase h, m =>
    some ((), m.withRepo { m.repo with stereoFrames := m.repo.stereoFrames.erase h })
  | .busy _ _, m => some (answer, m)
  | .tryPut _ c s u, m => some (answer,
    if answer then { m with accepted := ((c, s), u) :: m.accepted } else m)
  | .begin c s u, m => if ((c, s), u) ∈ m.accepted then some ((), m) else none
  | .exchangeRendering, m => some (!m.isRendering, { m with isRendering := true })
  | .resetRendering, m => some ((), { m with isRendering := false })

end Memory
end ARArch
