import ARArch.Semaphore
import ARArch.Sessions
import Mathlib.Logic.Function.Basic

/-!
# The lock that a camera is opened under

`startPreview` takes the only permit of `openCloseLock` before it opens the camera, and the
callbacks of the camera give it back. They are spread over `HardwareCamera.CameraCallback` and the
two classes `StandardCamera` and `FastCamera`, whose status callbacks differ only in where they
look for the surface of the preview and in the texts they report.

`startPreview` is two requests, up to its `tryAcquire` and from there, so that a callback for an
earlier opening may come between them. A device is named by the number of its opening.

The callbacks do not look at the lock. Which of them may come, for the lock to be kept, depends on
what has come since it was last taken.
-/

namespace ARArch

/-- What comes of `startPreview` before it has the lock: no camera manager, an interruption, or
`tryAcquire` tells whether there is a permit. -/
inductive Arrival
  | noManager
  | interrupted
  | waits
  deriving DecidableEq

/-- How `createCameraPreviewSession` and `onConfigured` end: as they should, or by one of the early
returns and exceptions, all of which report a failure. -/
inductive PreviewOutcome
  | proceeds
  | fails
  deriving DecidableEq

structure HardwareCamera where
  cameraDevice : Option ℕ := none
  captureSession : Option ℕ := none
  isConfigured : Bool := false
  stopping : Bool := false
  openCloseLock : Semaphore 1 := .make 1

namespace HardwareCamera

variable (camera : HardwareCamera)

def release : HardwareCamera := { camera with openCloseLock := camera.openCloseLock.release }

/-- `startPreview` up to `tryAcquire`: whether it has the lock. -/
def startPreview : Arrival → Bool × HardwareCamera
  | .noManager => (false, camera)
  | .interrupted => (false, { camera with isConfigured := false, stopping := false })
  | .waits =>
    match camera.openCloseLock.tryAcquire with
    | none => (false, { camera with isConfigured := false, stopping := false })
    | some lock =>
      (true, { camera with isConfigured := false, stopping := false, openCloseLock := lock })

/-- The effect, and the result reported to `previewCallback`. -/
def createCameraPreviewSession (ends : PreviewOutcome) : Option Bool × HardwareCamera :=
  match camera.cameraDevice, ends with
  | none, _ => (none, camera)
  | some _, .proceeds => (none, camera)
  | some _, .fails => (some false, { camera with isConfigured := false })

def onOpened (device : ℕ) (ends : PreviewOutcome) : Option Bool × HardwareCamera :=
  { camera with cameraDevice := some device }.release.createCameraPreviewSession ends

def onDisconnected : HardwareCamera := { camera with cameraDevice := none }.release

def onError : HardwareCamera := { camera with cameraDevice := none }.release

/-- The lock is released in the `finally` block. -/
def onConfigured (device : ℕ) (ends : PreviewOutcome) : Option Bool × HardwareCamera :=
  let isOK := match ends with
    | .proceeds => true
    | .fails => false
  (some isOK, { camera with captureSession := some device, isConfigured := isOK }.release)

def onConfigureFailed : Option Bool × HardwareCamera :=
  (some false, { camera with isConfigured := false }.release)

def stopCamera : HardwareCamera :=
  { camera with captureSession := none, cameraDevice := none, isConfigured := false }

end HardwareCamera

/-- How far an opening has come. -/
inductive DevicePhase
  | unopened
  | opening
  | configuring
  | opened
  deriving DecidableEq

/-- A camera object and its openings. -/
structure CameraOpenings where
  camera : HardwareCamera := {}
  /-- A `startPreview` has the lock and has not opened the camera yet. -/
  starting : Bool := false
  opens : ℕ := 0
  phase : ℕ → DevicePhase := fun _ => .unopened

inductive PreviewRequest
  | startPreview (arrival : Arrival)
  /-- `openCamera` returns, and then `startPreview` with `true`. -/
  | openCamera
  /-- An exception after the lock was taken: `startPreview` releases it and returns `false`. -/
  | openThrows
  /-- An `Error` after the lock was taken, which `startPreview` does not catch. -/
  | openThrowsError
  | onOpened (device : ℕ) (ends : PreviewOutcome)
  | onConfigured (device : ℕ) (ends : PreviewOutcome)
  | onConfigureFailed (device : ℕ)
  | onDisconnected (device : ℕ)
  | onError (device : ℕ)
  | stopCamera
  deriving DecidableEq

/-- Whether `startPreview` has the lock, what a callback reports. -/
@[reducible] def PreviewRequest.Ans : PreviewRequest → Type
  | startPreview _ => Bool
  | onOpened _ _ | onConfigured _ _ | onConfigureFailed _ => Option Bool
  | openCamera | openThrows | openThrowsError | onDisconnected _ | onError _ | stopCamera => Unit

namespace CameraOpenings

/-- A session is configured next if the camera was asked for one. -/
def afterOpened : PreviewOutcome → DevicePhase
  | .proceeds => .configuring
  | .fails => .opened

def respond : Service PreviewRequest PreviewRequest.Ans CameraOpenings
  | .startPreview arrival, s =>
    let p := s.camera.startPreview arrival
    some (p.1, { s with camera := p.2, starting := p.1 })
  | .openCamera, s =>
    some ((), { s with
      starting := false
      opens := s.opens + 1
      phase := Function.update s.phase s.opens .opening })
  | .openThrows, s => some ((), { s with camera := s.camera.release, starting := false })
  | .openThrowsError, s => some ((), { s with starting := false })
  | .onOpened device ends, s =>
    let p := s.camera.onOpened device ends
    some (p.1, { s with
      camera := p.2
      phase := Function.update s.phase device (afterOpened ends) })
  | .onConfigured device ends, s =>
    let p := s.camera.onConfigured device ends
    some (p.1, { s with camera := p.2, phase := Function.update s.phase device .opened })
  | .onConfigureFailed device, s =>
    let p := s.camera.onConfigureFailed
    some (p.1, { s with camera := p.2, phase := Function.update s.phase device .opened })
  | .onDisconnected _, s => some ((), { s with camera := s.camera.onDisconnected })
  | .onError _, s => some ((), { s with camera := s.camera.onError })
  | .stopCamera, s => some ((), { s with camera := s.camera.stopCamera })

/-- The calls of `startPreview` come one after another, and the callbacks in an order in which
they may be delivered; a device may be lost at any time. -/
def Delivers (s : CameraOpenings) : PreviewRequest → Prop
  | .startPreview _ => s.starting = false
  | .openCamera | .openThrows | .openThrowsError => s.starting = true
  | .onOpened device _ => s.phase device = .opening
  | .onConfigured device _ | .onConfigureFailed device => s.phase device = .configuring
  | .onDisconnected device | .onError device => s.phase device ≠ .unopened
  | .stopCamera => True

instance (s : CameraOpenings) (q : PreviewRequest) : Decidable (s.Delivers q) :=
  match q with
  | .startPreview _ => inferInstanceAs (Decidable (s.starting = false))
  | .openCamera | .openThrows | .openThrowsError =>
    inferInstanceAs (Decidable (s.starting = true))
  | .onOpened device _ => inferInstanceAs (Decidable (s.phase device = .opening))
  | .onConfigured device _ | .onConfigureFailed device =>
    inferInstanceAs (Decidable (s.phase device = .configuring))
  | .onDisconnected device | .onError device =>
    inferInstanceAs (Decidable (s.phase device ≠ .unopened))
  | .stopCamera => inferInstanceAs (Decidable True)

end CameraOpenings

/-- The callbacks of the camera, and an exception that `startPreview` catches. Each releases the
lock once. -/
def PreviewRequest.isAnswer : PreviewRequest → Bool
  | startPreview _ | openCamera | openThrowsError | stopCamera => false
  | openThrows | onOpened _ _ | onConfigured _ _ | onConfigureFailed _ | onDisconnected _
  | onError _ => true

abbrev LockHistory := List (Done PreviewRequest PreviewRequest.Ans)

/-- A `startPreview` took the lock. -/
def takesLock : Done PreviewRequest PreviewRequest.Ans → Bool
  | ⟨.startPreview _, taken⟩ => taken
  | _ => false

/-- The lock was taken, and no answer has come since. -/
def awaited : LockHistory → Bool
  | [] => false
  | d :: done => takesLock d || (!d.request.isAnswer && awaited done)

/-- The camera was opened since the lock was last taken. -/
def openedSince : LockHistory → Bool
  | [] => false
  | d :: done => !takesLock d && (d.request = .openCamera || openedSince done)

/-- An answer is the first one since the lock was last taken, and an `Error` comes in a
`startPreview` only behind one. -/
def InTurn (done : LockHistory) : PreviewRequest → Prop
  | .openThrowsError => awaited done = false
  | q => q.isAnswer = true → awaited done = true

namespace CameraOpenings

variable {s s' : CameraOpenings} {done : LockHistory} {q : PreviewRequest} {a : q.Ans}

abbrev lock (s : CameraOpenings) : Semaphore 1 := s.camera.openCloseLock

/-- A call that has the lock is under way, or it has opened the camera, whose device has not
answered. -/
def Unanswered (done : LockHistory) (s : CameraOpenings) : Prop :=
  s.starting = true ∨
    openedSince done = true ∧ ∃ device, s.opens = device + 1 ∧ s.phase device = .opening

open Semaphore

/-- There is never more than one permit and one release from each acquisition to the next; and
while a release is still to come, there is something it can come from. -/
structure KeepsLock (done : LockHistory) (s : CameraOpenings) : Prop where
  kept : KeptLock s.lock.log
  unanswered : s.lock.permits = 0 → s.Unanswered done

/-- A run in all states of which the lock is kept. -/
def KeptThroughout (done : LockHistory) (s : CameraOpenings) : Prop :=
  Session respond (fun done s q => s.Delivers q ∧ s.KeepsLock done) {} done s ∧ s.KeepsLock done

theorem lock_of_answer (hr : q.isAnswer = true) (hq : respond q s = some (a, s')) :
    s'.lock = s.lock.release := by
  cases q with
  | openThrows | onConfigured | onConfigureFailed | onDisconnected | onError =>
      cases hq
      rfl
  | onOpened device ends =>
      cases hq
      cases ends <;> rfl
  | startPreview | openCamera | openThrowsError | stopCamera => cases hr

theorem lock_of_startPreview (camera : HardwareCamera) (arrival : Arrival) :
    ((camera.startPreview arrival).1 = false ∧
      (camera.startPreview arrival).2.openCloseLock = camera.openCloseLock) ∨
    ((camera.startPreview arrival).1 = true ∧
      camera.openCloseLock.tryAcquire = some (camera.startPreview arrival).2.openCloseLock) := by
  cases arrival with
  | noManager | interrupted => exact Or.inl ⟨rfl, rfl⟩
  | waits =>
      unfold HardwareCamera.startPreview
      cases h : camera.openCloseLock.tryAcquire with
      | none => exact Or.inl ⟨rfl, rfl⟩
      | some lock => exact Or.inr ⟨rfl, rfl⟩

/-- What the run so far says of the lock, as long as this is kept. -/
structure Matches (done : LockHistory) (s : CameraOpenings) : Prop where
  awaited_iff : s.lock.permits = 0 ↔ awaited done = true
  not_opened : s.starting = true → openedSince done = false

theorem awaited_answer (hr : q.isAnswer = true) : awaited (⟨q, a⟩ :: done) = false := by
  cases q with
  | openThrows | onOpened | onConfigured | onConfigureFailed | onDisconnected | onError => rfl
  | startPreview | openCamera | openThrowsError | stopCamera => cases hr

theorem openedSince_answer (hr : q.isAnswer = true) :
    openedSince (⟨q, a⟩ :: done) = openedSince done := by
  cases q with
  | openThrows | onOpened | onConfigured | onConfigureFailed | onDisconnected | onError => rfl
  | startPreview | openCamera | openThrowsError | stopCamera => cases hr

theorem starting_of_answer (hr : q.isAnswer = true) (hq : respond q s = some (a, s'))
    (hs : s'.starting = true) : s.starting = true := by
  cases q with
  | openThrows =>
      cases hq
      cases hs
  | onOpened | onConfigured | onConfigureFailed | onDisconnected | onError =>
      cases hq
      exact hs
  | startPreview | openCamera | openThrowsError | stopCamera => cases hr

/-- An answer keeps the lock exactly if it is awaited. -/
theorem keepsLock_answer (hr : q.isAnswer = true) (hk : s.KeepsLock done) (hm : s.Matches done)
    (hq : respond q s = some (a, s')) :
    (s'.KeepsLock (⟨q, a⟩ :: done) ↔ awaited done = true) ∧ s'.Matches (⟨q, a⟩ :: done) := by
  have hlock := lock_of_answer hr hq
  have hpermits : s'.lock.permits ≠ 0 := by
    rw [hlock]
    exact Nat.succ_ne_zero _
  refine ⟨?_, ⟨?_, ?_⟩⟩
  · rw [← hm.awaited_iff]
    constructor
    · intro h
      have hkept := h.kept
      rw [hlock, keptLock_release] at hkept
      exact hkept.2
    · intro hheld
      refine ⟨?_, fun hfree => absurd hfree hpermits⟩
      rw [hlock, keptLock_release]
      exact ⟨hk.kept, hheld⟩
  · rw [awaited_answer hr]
    exact iff_of_false hpermits Bool.false_ne_true
  · intro hs
    rw [openedSince_answer hr]
    exact hm.not_opened (starting_of_answer hr hq hs)

theorem keepsLock_startPreview {arrival : Arrival} {a : Bool} (hk : s.KeepsLock done)
    (hm : s.Matches done) (hok : s.starting = false)
    (hq : respond (.startPreview arrival) s = some (a, s')) :
    s'.KeepsLock (⟨.startPreview arrival, a⟩ :: done) ∧
      s'.Matches (⟨.startPreview arrival, a⟩ :: done) := by
  cases hq
  obtain ⟨hfalse, hlock⟩ | ⟨htrue, hlock⟩ := lock_of_startPreview s.camera arrival
  · have hawaited : awaited (⟨.startPreview arrival, (s.camera.startPreview arrival).1⟩ :: done) =
        awaited done := by
      simp [awaited, takesLock, PreviewRequest.isAnswer, hfalse]
    have hopened :
        openedSince (⟨.startPreview arrival, (s.camera.startPreview arrival).1⟩ :: done) =
          openedSince done := by
      simp [openedSince, takesLock, hfalse]
    refine ⟨⟨?_, ?_⟩, ⟨?_, ?_⟩⟩
    · rw [lock, hlock]
      exact hk.kept
    · intro hheld
      rw [lock, hlock] at hheld
      refine Or.inr ?_
      rw [hopened]
      exact (hk.unanswered hheld).resolve_left (by simp [hok])
    · rw [hawaited, lock, hlock]
      exact hm.awaited_iff
    · intro hs
      exact absurd (hfalse.symm.trans hs) Bool.false_ne_true
  · refine ⟨⟨(keptLock_tryAcquire hlock).mpr hk.kept, fun _ => Or.inl htrue⟩, ⟨?_, ?_⟩⟩
    · have hheld := permits_of_keptLock_tryAcquire hk.kept hlock
      simp [awaited, takesLock, htrue, lock, hheld]
    · intro _
      simp [openedSince, takesLock, htrue]

/-- An `Error` leaves the lock taken, with nothing that would release it. -/
theorem keepsLock_error (hk : s.KeepsLock done) (hm : s.Matches done) (hok : s.starting = true)
    (hq : respond .openThrowsError s = some ((), s')) :
    (s'.KeepsLock (⟨.openThrowsError, ()⟩ :: done) ↔ awaited done = false) ∧
      s'.Matches (⟨.openThrowsError, ()⟩ :: done) := by
  cases hq
  have hopened : openedSince (⟨.openThrowsError, ()⟩ :: done) = false := hm.not_opened hok
  refine ⟨?_, ⟨hm.awaited_iff, fun hs => absurd hs Bool.false_ne_true⟩⟩
  rw [← Bool.not_eq_true, ← hm.awaited_iff]
  constructor
  · intro h hheld
    obtain hstarting | ⟨hsince, _⟩ := h.unanswered hheld
    · cases hstarting
    · rw [hopened] at hsince
      cases hsince
  · intro hfree
    exact ⟨hk.kept, fun hheld => absurd hheld hfree⟩

/-- A request keeps the lock exactly if it comes in turn. -/
theorem keepsLock_step (hk : s.KeepsLock done) (hm : s.Matches done) (hok : s.Delivers q)
    (hq : respond q s = some (a, s')) :
    (s'.KeepsLock (⟨q, a⟩ :: done) ↔ InTurn done q) ∧ s'.Matches (⟨q, a⟩ :: done) := by
  cases q with
  | openThrows | onOpened | onConfigured | onConfigureFailed | onDisconnected | onError =>
      obtain ⟨hiff, hmatches⟩ := keepsLock_answer rfl hk hm hq
      refine ⟨hiff.trans ?_, hmatches⟩
      simp [InTurn, PreviewRequest.isAnswer]
  | openThrowsError => exact keepsLock_error hk hm hok hq
  | startPreview arrival =>
      obtain ⟨hkeeps, hmatches⟩ := keepsLock_startPreview hk hm hok hq
      exact ⟨iff_of_true hkeeps (fun hr => by cases hr), hmatches⟩
  | openCamera =>
      cases hq
      refine ⟨iff_of_true ⟨hk.kept, fun _ => ?_⟩ (fun hr => by cases hr),
        ⟨hm.awaited_iff, fun hs => absurd hs Bool.false_ne_true⟩⟩
      exact Or.inr ⟨rfl, s.opens, rfl, Function.update_self ..⟩
  | stopCamera =>
      cases hq
      exact ⟨iff_of_true ⟨hk.kept, hk.unanswered⟩ (fun hr => by cases hr),
        ⟨hm.awaited_iff, hm.not_opened⟩⟩

theorem keepsLock_new : KeepsLock [] {} where
  kept := keptLock_iff_alternates.mpr trivial
  unanswered := fun hp => by cases hp

theorem matches_new : Matches [] {} where
  awaited_iff := by simp [lock, Semaphore.make, awaited]
  not_opened := fun _ => rfl

theorem matches_of_kept (h : KeptThroughout done s) : s.Matches done := by
  obtain ⟨hs, hlast⟩ := h
  induction hs with
  | start => exact matches_new
  | call _ hok hq ih => exact (keepsLock_step hok.2 (ih hok.2) hok.1 hq).2

end CameraOpenings

end ARArch
