import ARArch.Table
import Mathlib.Data.Fintype.Basic
import Mathlib.Data.Nat.Bitwise

/-!
# The repository of frames

The data that the cameras, the router and its consumers share. `camera_frames` is a map of maps;
an entry of it is made once for a camera and never erased, so the map of a camera is the value of
its entry. Frames are shared objects, reached through references, and outlive their entries.

`unsigned long` camera ids and `uint64_t` sequence numbers are natural numbers: nothing but the
counters computes with them, and no counter draws 2^64 numbers.
-/

namespace ARArch

abbrev CameraId := ℕ
abbrev SeqNo := ℕ
abbrev Key := CameraId × SeqNo

/-- A `shared_ptr<FrameInfo>` that is not null. -/
abbrev FrameRef := ℕ

/-- `numeric_limits<unsigned long>::max()`, which stands for no camera. -/
def noCamera : CameraId := 2 ^ 64 - 1

/-- The parties a frame is routed to; each has a claim flag in the frame. -/
inductive Consumer
  | detector
  | tracker
  | renderer
  deriving DecidableEq, Repr

instance : Fintype Consumer where
  elems := {.detector, .tracker, .renderer}
  complete u := by cases u <;> simp

structure FrameInfo where
  seqno : SeqNo := 0
  rgbaLen : ℤ := 0
  isDetecting : Bool := false
  isTracking : Bool := false
  isRendering : Bool := false
  deriving DecidableEq, Repr

namespace FrameInfo

def flag (i : FrameInfo) : Consumer → Bool
  | .detector => i.isDetecting
  | .tracker => i.isTracking
  | .renderer => i.isRendering

def setFlag (i : FrameInfo) (u : Consumer) (b : Bool) : FrameInfo :=
  match u with
  | .detector => { i with isDetecting := b }
  | .tracker => { i with isTracking := b }
  | .renderer => { i with isRendering := b }

@[simp] theorem flag_setFlag (i : FrameInfo) (u v : Consumer) (b : Bool) :
    (i.setFlag u b).flag v = if v = u then b else i.flag v := by
  cases u <;> cases v <;> rfl

@[simp] theorem rgbaLen_setFlag (i : FrameInfo) (u : Consumer) (b : Bool) :
    (i.setFlag u b).rgbaLen = i.rgbaLen := by
  cases u <;> rfl

/-- No consumer has claimed the frame: the test of `delete_frame`. -/
def unclaimed (i : FrameInfo) : Bool := !i.isDetecting && !i.isTracking && !i.isRendering

/-- Neither detector nor tracker has claimed the frame: the test made for a stereo twin and by
`delete_all_frames`. -/
def undetected (i : FrameInfo) : Bool := !i.isDetecting && !i.isTracking

theorem unclaimed_iff (i : FrameInfo) : i.unclaimed = true ↔ ∀ u, i.flag u = false := by
  constructor
  · intro h u
    simp only [unclaimed, Bool.and_eq_true, Bool.not_eq_true'] at h
    cases u <;> simp only [flag, h]
  · intro h
    have hd := h .detector
    have ht := h .tracker
    have hr := h .renderer
    simp only [flag] at hd ht hr
    simp [unclaimed, hd, ht, hr]

theorem not_unclaimed_iff (i : FrameInfo) : i.unclaimed = false ↔ ∃ u, i.flag u = true := by
  rw [← not_iff_not, Bool.not_eq_false, unclaimed_iff]
  simp

/-- A claimed frame that the two-flag test lets go is claimed by the renderer alone. -/
theorem rendering_of_undetected {i : FrameInfo} (h : i.undetected = true) {u : Consumer}
    (hu : i.flag u = true) : i.isRendering = true := by
  simp only [undetected, Bool.and_eq_true, Bool.not_eq_true'] at h
  cases u with
  | detector => simp [flag, h.1] at hu
  | tracker => simp [flag, h.2] at hu
  | renderer => exact hu

end FrameInfo

/-- `pair_hasher` on 64-bit integers, which `std::hash` leaves as they are. -/
def pairHasher (k : Key) : ℕ := k.1 ^^^ k.2

structure Repository where
  /-- The registered cameras, in the order in which the map is iterated. -/
  cameras : List CameraId := []
  seqNumbers : Table CameraId SeqNo := Table.empty
  cameraFrames : Table CameraId (Table SeqNo FrameRef) := Table.empty
  stereoFrames : Table ℕ Key := Table.empty
  /-- The frame objects behind the references. -/
  infos : FrameRef → FrameInfo := fun _ => {}

namespace Repository

/-- The repository before any call, with the frame objects that will be handed over. -/
def initial (infos : FrameRef → FrameInfo) : Repository := { infos := infos }

variable (r : Repository) (k j : Key) (f g : FrameRef)

/-- The frame stored under a camera and a sequence number. -/
def frame : Option FrameRef := (r.cameraFrames k.1).bind (fun frames => frames k.2)

/-- `erase` on the frame map of a camera. -/
def eraseFrame : Repository :=
  { r with cameraFrames := r.cameraFrames.adjust k.1 (fun frames => frames.erase k.2) }

/-- `insert` into the frame map of a camera that has one. -/
def insertFrame : Repository :=
  { r with cameraFrames := r.cameraFrames.adjust k.1 (fun frames => frames.insert k.2 f) }

def modifyInfo (h : FrameInfo → FrameInfo) : Repository :=
  { r with infos := Function.update r.infos f (h (r.infos f)) }

@[simp] theorem frame_modifyInfo (h : FrameInfo → FrameInfo) :
    (r.modifyInfo f h).frame k = r.frame k := rfl

@[simp] theorem infos_modifyInfo_self (h : FrameInfo → FrameInfo) :
    (r.modifyInfo f h).infos f = h (r.infos f) := by
  simp [modifyInfo]

theorem infos_modifyInfo (h : FrameInfo → FrameInfo) :
    (r.modifyInfo f h).infos g = if g = f then h (r.infos f) else r.infos g := by
  simp [modifyInfo, Function.update_apply]

@[simp] theorem infos_eraseFrame : (r.eraseFrame k).infos = r.infos := rfl

@[simp] theorem stereoFrames_eraseFrame : (r.eraseFrame k).stereoFrames = r.stereoFrames := rfl

@[simp] theorem cameras_eraseFrame : (r.eraseFrame k).cameras = r.cameras := rfl

theorem frame_eraseFrame : (r.eraseFrame k).frame j = if j = k then none else r.frame j := by
  obtain ⟨c, s⟩ := k
  obtain ⟨d, q⟩ := j
  by_cases hc : d = c
  · subst hc
    cases hm : r.cameraFrames d with
    | none => simp [frame, eraseFrame, hm]
    | some frames => simp [frame, eraseFrame, hm, Table.erase_apply]
  · simp [frame, eraseFrame, hc]

@[simp] theorem frame_eraseFrame_self : (r.eraseFrame k).frame k = none := by
  simp [frame_eraseFrame]

theorem frame_eraseFrame_of_ne {k j : Key} (h : j ≠ k) : (r.eraseFrame k).frame j = r.frame j := by
  simp [frame_eraseFrame, h]

theorem frame_insertFrame_of_ne {k j : Key} (h : j ≠ k) :
    (r.insertFrame k f).frame j = r.frame j := by
  obtain ⟨c, s⟩ := k
  obtain ⟨d, q⟩ := j
  by_cases hc : d = c
  · subst hc
    have hq : q ≠ s := fun he => h (by rw [he])
    cases hm : r.cameraFrames d with
    | none => simp [frame, insertFrame, hm]
    | some frames => simp [frame, insertFrame, hm, hq]
  · simp [frame, insertFrame, hc]

theorem frame_insertFrame_self (h : (r.cameraFrames k.1).isSome) :
    (r.insertFrame k f).frame k = some ((r.frame k).getD f) := by
  obtain ⟨frames, hm⟩ := Option.isSome_iff_exists.mp h
  simp [frame, insertFrame, hm, Table.insert_self]

end Repository
end ARArch
