import ARArch.OpenCloseLock

/-!
# The devices that a camera object opens

Camera2 hands the device it has opened to `onOpened`, and the device stays open until it is
closed. `HardwareCamera` keeps it in `cameraDevice`, which `stopCamera` closes; a device that is
lost is closed by its own callback.

The callbacks do not look at what `cameraDevice` holds. A device that it no longer refers to
although it is open is out of reach of `stopCamera`.
-/

namespace ARArch

/-- A request to the camera object, or a `stopCamera` that `abortCaptures` ends by an exception. -/
inductive DeviceRequest
  | call (q : PreviewRequest)
  | abortThrows
  deriving DecidableEq

@[reducible] def DeviceRequest.Ans : DeviceRequest → Type
  | call q => q.Ans
  | abortThrows => Unit

/-- A camera object, and the devices that are open. -/
structure OpenDevices where
  openings : CameraOpenings := {}
  devices : List ℕ := []

abbrev DeviceHistory := List (Done DeviceRequest DeviceRequest.Ans)

/-- `onOpened` was called. -/
def DevicePhase.Given : DevicePhase → Prop
  | configuring | opened => True
  | unopened | opening => False

namespace OpenDevices

abbrev cameraDevice (s : OpenDevices) : Option ℕ := s.openings.camera.cameraDevice

abbrev captureSession (s : OpenDevices) : Option ℕ := s.openings.camera.captureSession

/-- The devices that a request leaves open. -/
def devicesAfter (s : OpenDevices) : PreviewRequest → List ℕ
  | .onOpened device _ => device :: s.devices
  | .onDisconnected device | .onError device => s.devices.filter (fun d => d ≠ device)
  | .stopCamera => s.devices.filter (fun d => s.cameraDevice ≠ some d)
  | .startPreview _ | .openCamera | .openThrows | .openThrowsError | .onConfigured _ _
  | .onConfigureFailed _ => s.devices

def respond : Service DeviceRequest DeviceRequest.Ans OpenDevices
  | .call q, s =>
    (CameraOpenings.respond q s.openings).map (fun p => (p.1, ⟨p.2, s.devicesAfter q⟩))
  | .abortThrows, s => some ((), s)

/-- The order of the callbacks is that of `CameraOpenings`; only a session can be aborted. -/
def Delivers (s : OpenDevices) : DeviceRequest → Prop
  | .call q => s.openings.Delivers q
  | .abortThrows => s.captureSession.isSome = true

instance (s : OpenDevices) (q : DeviceRequest) : Decidable (s.Delivers q) :=
  match q with
  | .call q => inferInstanceAs (Decidable (s.openings.Delivers q))
  | .abortThrows => inferInstanceAs (Decidable (s.captureSession.isSome = true))

/-- A device is opened while the object has none, and no device is lost while it has another. -/
def Expects (s : OpenDevices) : DeviceRequest → Prop
  | .call (.onOpened _ _) => s.cameraDevice = none
  | .call (.onDisconnected device) | .call (.onError device) =>
    s.cameraDevice = none ∨ s.cameraDevice = some device
  | .call (.startPreview _) | .call .openCamera | .call .openThrows | .call .openThrowsError
  | .call (.onConfigured _ _) | .call (.onConfigureFailed _) | .call .stopCamera
  | .abortThrows => True

/-- Every open device is the one that `stopCamera` would close. -/
def Reaches (s : OpenDevices) : Prop := ∀ device ∈ s.devices, s.cameraDevice = some device

/-- A session, in all states of which every open device is in reach. -/
def ReachesThroughout (done : DeviceHistory) (s : OpenDevices) : Prop :=
  Session respond (fun _ s q => s.Delivers q ∧ s.Reaches) {} done s ∧ s.Reaches

/-- `cameraDevice` is open, and what is open has been given to `onOpened`. -/
structure Tracks (s : OpenDevices) : Prop where
  mem : ∀ device ∈ s.cameraDevice, device ∈ s.devices
  given : ∀ device ∈ s.devices, (s.openings.phase device).Given
  unopened : ∀ device, s.openings.opens ≤ device → s.openings.phase device = .unopened

variable {s s' : OpenDevices} {q : PreviewRequest} {device : ℕ} {ends : PreviewOutcome}

@[simp] theorem cameraDevice_startPreview (camera : HardwareCamera) (arrival : Arrival) :
    (camera.startPreview arrival).2.cameraDevice = camera.cameraDevice := by
  cases arrival with
  | noManager | interrupted => rfl
  | waits =>
      unfold HardwareCamera.startPreview
      cases camera.openCloseLock.tryAcquire <;> rfl

@[simp] theorem cameraDevice_onOpened (camera : HardwareCamera) :
    (camera.onOpened device ends).2.cameraDevice = some device := by
  cases ends <;> rfl

/-- What a request makes of `cameraDevice`. -/
def deviceAfter (s : OpenDevices) : PreviewRequest → Option ℕ
  | .onOpened device _ => some device
  | .onDisconnected _ | .onError _ | .stopCamera => none
  | .startPreview _ | .openCamera | .openThrows | .openThrowsError | .onConfigured _ _
  | .onConfigureFailed _ => s.cameraDevice

theorem cameraDevice_of_respond {a : q.Ans} {o : CameraOpenings}
    (h : CameraOpenings.respond q s.openings = some (a, o)) :
    o.camera.cameraDevice = s.deviceAfter q := by
  cases q with
  | startPreview arrival =>
      cases h
      exact cameraDevice_startPreview s.openings.camera arrival
  | onOpened device ends =>
      cases h
      exact cameraDevice_onOpened s.openings.camera
  | openCamera | openThrows | openThrowsError | onConfigured | onConfigureFailed | onDisconnected
  | onError | stopCamera =>
      cases h
      rfl

theorem given_afterOpened : (CameraOpenings.afterOpened ends).Given := by
  cases ends <;> trivial

/-- The phase of a device that is given stays so, and `onOpened` gives its own. -/
theorem given_of_respond {a : q.Ans} {o : CameraOpenings} (h : s.Tracks)
    (hok : s.openings.Delivers q) (hq : CameraOpenings.respond q s.openings = some (a, o))
    (hmem : device ∈ s.devicesAfter q) : (o.phase device).Given := by
  have hgiven : device ∈ s.devices → (s.openings.phase device).Given := h.given device
  cases q with
  | startPreview | openThrows | openThrowsError =>
      cases hq
      exact hgiven hmem
  | onDisconnected | onError | stopCamera =>
      cases hq
      exact hgiven (List.mem_filter.mp hmem).1
  | openCamera =>
      cases hq
      have hne : device ≠ s.openings.opens := by
        intro heq
        have hphase := hgiven hmem
        rw [h.unopened device (Nat.le_of_eq heq.symm)] at hphase
        exact hphase
      dsimp only
      rw [Function.update_of_ne hne]
      exact hgiven hmem
  | onOpened opened ends =>
      cases hq
      dsimp only
      rcases eq_or_ne device opened with rfl | hne
      · rw [Function.update_self]
        exact given_afterOpened
      · rw [Function.update_of_ne hne]
        exact hgiven ((List.mem_cons.mp hmem).resolve_left hne)
  | onConfigured configured ends | onConfigureFailed configured =>
      cases hq
      dsimp only
      rcases eq_or_ne device configured with rfl | hne
      · rw [Function.update_self]
        trivial
      · rw [Function.update_of_ne hne]
        exact hgiven hmem

theorem unopened_of_respond {a : q.Ans} {o : CameraOpenings} (h : s.Tracks)
    (hok : s.openings.Delivers q) (hq : CameraOpenings.respond q s.openings = some (a, o))
    (hle : o.opens ≤ device) : o.phase device = .unopened := by
  have hold : s.openings.opens ≤ device → s.openings.phase device = .unopened :=
    h.unopened device
  cases q with
  | startPreview | openThrows | openThrowsError | onDisconnected | onError | stopCamera =>
      cases hq
      exact hold hle
  | openCamera =>
      cases hq
      have hlt : s.openings.opens < device := hle
      dsimp only
      rw [Function.update_of_ne (Nat.ne_of_gt hlt)]
      exact hold (Nat.le_of_lt hlt)
  | onOpened other | onConfigured other | onConfigureFailed other =>
      cases hq
      have hphase := hold hle
      have hne : device ≠ other := by
        intro heq
        rw [heq] at hphase
        rw [show s.openings.phase other = _ from hok] at hphase
        cases hphase
      dsimp only
      rw [Function.update_of_ne hne]
      exact hphase

theorem tracks_new : Tracks {} where
  mem := by simp
  given := by simp
  unopened := fun _ _ => rfl

theorem mem_devicesAfter (h : s.Tracks) (hmem : device ∈ s.deviceAfter q) :
    device ∈ s.devicesAfter q := by
  cases q with
  | startPreview | openCamera | openThrows | openThrowsError | onConfigured | onConfigureFailed =>
      exact h.mem device hmem
  | onOpened opened ends =>
      cases hmem
      exact List.mem_cons_self
  | onDisconnected | onError | stopCamera => cases hmem

theorem tracks_call {a : q.Ans} (h : s.Tracks) (hok : s.openings.Delivers q)
    (hq : respond (.call q) s = some (a, s')) : s'.Tracks := by
  obtain ⟨⟨b, o⟩, ho, heq⟩ := Option.map_eq_some_iff.mp hq
  cases heq
  constructor
  · intro device hmem
    rw [cameraDevice, cameraDevice_of_respond ho] at hmem
    exact mem_devicesAfter h hmem
  · intro device hmem
    exact given_of_respond h hok ho hmem
  · intro device hle
    exact unopened_of_respond h hok ho hle

theorem tracks_step {q : DeviceRequest} {a : q.Ans} (h : s.Tracks) (hok : s.Delivers q)
    (hq : respond q s = some (a, s')) : s'.Tracks := by
  cases q with
  | call q => exact tracks_call h hok hq
  | abortThrows =>
      cases hq
      exact h

theorem Reaches.eq_nil (h : s.Reaches) (hnone : s.cameraDevice = none) : s.devices = [] := by
  apply List.eq_nil_iff_forall_not_mem.mpr
  intro device hmem
  have hsome := h device hmem
  rw [hnone] at hsome
  cases hsome

/-- What is left when a device is lost is in reach only if nothing is left. -/
theorem lost_iff (h : s.Tracks) (hr : s.Reaches) :
    (∀ d ∈ s.devices.filter (fun d => d ≠ device), none = some d) ↔
      s.cameraDevice = none ∨ s.cameraDevice = some device := by
  constructor
  · intro hleft
    cases hcamera : s.cameraDevice with
    | none => exact Or.inl rfl
    | some d =>
        have hmem : d ∈ s.devices := h.mem d hcamera
        rcases eq_or_ne d device with rfl | hne
        · exact Or.inr rfl
        · have hnone := hleft d (List.mem_filter.mpr ⟨hmem, by simpa using hne⟩)
          cases hnone
  · intro hcamera d hd
    obtain ⟨hmem, hne⟩ := List.mem_filter.mp hd
    have hsome := hr d hmem
    obtain hnone | hdevice := hcamera
    · rw [hnone] at hsome
      cases hsome
    · rw [hdevice] at hsome
      cases hsome
      simp at hne

theorem opened_iff (h : s.Tracks) (hr : s.Reaches) (hopening : s.openings.phase device = .opening) :
    (∀ d ∈ device :: s.devices, some device = some d) ↔ s.cameraDevice = none := by
  constructor
  · intro hall
    cases hcamera : s.cameraDevice with
    | none => rfl
    | some d =>
        have hmem : d ∈ s.devices := h.mem d hcamera
        have heq := hall d (List.mem_cons_of_mem device hmem)
        cases heq
        have hgiven := h.given device hmem
        rw [hopening] at hgiven
        cases hgiven
  · intro hnone d hd
    rw [hr.eq_nil hnone, List.mem_singleton] at hd
    rw [hd]

/-- After a `stopCamera` no device in reach is open. -/
theorem stopped_eq_nil (hr : s.Reaches) : s.devicesAfter .stopCamera = [] := by
  apply List.filter_eq_nil_iff.mpr
  intro device hmem
  simp [hr device hmem]

theorem reaches_call_iff {a : q.Ans} (h : s.Tracks) (hr : s.Reaches)
    (hok : s.openings.Delivers q) (hq : respond (.call q) s = some (a, s')) :
    s'.Reaches ↔ s.Expects (.call q) := by
  obtain ⟨⟨b, o⟩, ho, heq⟩ := Option.map_eq_some_iff.mp hq
  cases heq
  have hcamera := cameraDevice_of_respond ho
  unfold Reaches cameraDevice
  rw [hcamera]
  cases q with
  | startPreview | openCamera | openThrows | openThrowsError | onConfigured | onConfigureFailed =>
      exact iff_of_true hr trivial
  | onOpened device ends => exact opened_iff h hr hok
  | onDisconnected device | onError device => exact lost_iff h hr
  | stopCamera =>
      apply iff_of_true _ trivial
      intro device hmem
      rw [stopped_eq_nil hr] at hmem
      cases hmem

theorem reaches_step_iff {q : DeviceRequest} {a : q.Ans} (h : s.Tracks) (hr : s.Reaches)
    (hok : s.Delivers q) (hq : respond q s = some (a, s')) : s'.Reaches ↔ s.Expects q := by
  cases q with
  | call q => exact reaches_call_iff h hr hok hq
  | abortThrows =>
      cases hq
      exact iff_of_true hr trivial

theorem tracks_of_session {ok : DeviceHistory → OpenDevices → DeviceRequest → Prop}
    (hdelivers : ∀ done s q, ok done s q → s.Delivers q) {done : DeviceHistory}
    (h : Session respond ok {} done s) : s.Tracks := by
  induction h with
  | start => exact tracks_new
  | call _ hok hq ih => exact tracks_step ih (hdelivers _ _ _ hok) hq

open Semaphore in
/-- The lock does not help: here it is kept, and the device opened first stays open. -/
theorem out_of_reach_with_lock_kept : ∃ (done : DeviceHistory) (s : OpenDevices),
    Session respond (fun _ s q => s.Delivers q) {} done s ∧
      KeptLock s.openings.lock.log ∧ s.devicesAfter .stopCamera = [0] := by
  have hrun : (Session.replay respond (fun _ s q => s.Delivers q)
      [.call (.startPreview .waits), .call .openCamera, .call (.onOpened 0 .fails),
        .call (.startPreview .waits), .call .openCamera, .call (.onOpened 1 .fails)] [] {}).any
      (fun r => r.2.openings.lock.log = [.release, .acquire, .release, .acquire] ∧
        r.2.devicesAfter .stopCamera = [0]) = true := by decide
  obtain ⟨⟨done, s⟩, hs, hres⟩ := (Option.any_eq_true _ _).mp hrun
  obtain ⟨hlog, hdevices⟩ := of_decide_eq_true hres
  have hlock : KeptLock s.openings.lock.log := by
    rw [hlog, keptLock_iff_alternates]
    simp [Alternates]
  exact ⟨done, s, Session.of_replay _ .start hs, hlock, hdevices⟩

end OpenDevices

end ARArch
