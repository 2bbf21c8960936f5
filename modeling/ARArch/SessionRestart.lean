import ARArch.Architectures
import ARArch.CallEffects
import ARArch.Sessions

/-!
# Starting and stopping sessions

The repository is there as long as the process. A session adds cameras to it, starts an
architecture, whose run loop and source nodes go on until `must_terminate` is set, and stops.

Nothing clears `must_terminate` and nothing removes a camera, so that a session can be started
once, and a camera can be added once. What becomes of the architecture of an earlier session, which
`startMAR` replaces, is not followed here: that the process ends with it, as its thread was never
joined, is in `ArchitectureThread`.
-/

namespace ARArch

structure MARProcess where
  repository : Repository := {}
  /-- `is_rear_facing()` of the cameras of the repository. -/
  isRearFacing : CameraId → Bool := fun _ => false
  mustTerminate : Bool := false
  initialised : Bool := false
  androidWindow : Bool := false
  architecture : Option Architecture := none

namespace MARProcess

variable (p : MARProcess)

/-- `HardwareCamera.addCamera`. -/
def addCamera (camera : CameraId) (isRearFacing : Bool) : Bool × MARProcess :=
  let added := p.repository.hardwareAddCamera camera
  (added.1,
    { p with
      repository := added.2
      isRearFacing :=
        if added.1 then Function.update p.isRearFacing camera isRearFacing else p.isRearFacing })

def rearCameras : List CameraId := p.repository.cameras.filter p.isRearFacing

def frontCameras : List CameraId :=
  p.repository.cameras.filter (fun camera => !p.isRearFacing camera)

/-- `start`: only `TBBMonoArchitecture` looks whether its source node has found the camera. -/
def start : Architecture → Bool
  | .mono camera => camera ∈ p.repository.cameras
  | .monoAndFront _ _ | .stereo _ _ | .stereoAndFront _ _ _ => true

/-- `MAR.startMAR`, where faces can be recognized if they are to be and a renderer can be made. -/
def startMAR (facesReady rendererMade : Bool) : Bool × MARProcess :=
  if p.androidWindow = false then (false, p)
  else if p.rearCameras = [] ∧ p.frontCameras = [] then (false, p)
  else if facesReady = false ∨ rendererMade = false then (false, p)
  else
    match makeArchitecture p.rearCameras p.frontCameras with
    | none => (false, { p with architecture := none })
    | some architecture =>
      (p.start architecture, { p with architecture := some architecture })

def stopMAR : MARProcess := { p with mustTerminate := true, initialised := false }

/-- A turn of `TBBMonoCameraSourceNode`: whether the node goes on. -/
def sourceNode (camera : CameraId) (frame : Option FrameRef) : Bool × MARProcess :=
  (!p.mustTerminate,
    match frame with
    | none => p
    | some frame => { p with repository := p.repository.newFrame camera frame })

end MARProcess

inductive SessionCall
  | addCamera (camera : CameraId) (isRearFacing : Bool)
  | setSurface
  | startMAR (facesReady rendererMade : Bool)
  /-- The thread of the architecture comes to its loop. -/
  | run
  /-- The condition of the loop. -/
  | loop
  | sourceNode (camera : CameraId) (frame : Option FrameRef)
  | stopMAR
  deriving DecidableEq

/-- What a call returns, or whether the loop or the node goes on. -/
abbrev SessionCall.Ans (_ : SessionCall) : Type := Bool

def MARProcess.respond : Service SessionCall SessionCall.Ans MARProcess
  | .addCamera camera isRearFacing, p => some (p.addCamera camera isRearFacing)
  | .setSurface, p => some (true, { p with androidWindow := true })
  | .startMAR facesReady rendererMade, p => some (p.startMAR facesReady rendererMade)
  | .run, p => some (true, { p with initialised := true })
  | .loop, p => some (!p.mustTerminate, p)
  | .sourceNode camera frame, p => some (p.sourceNode camera frame)
  | .stopMAR, p => some (true, p.stopMAR)

abbrev SessionHistory := List (Done SessionCall SessionCall.Ans)

/-- A session is under way. -/
def running : SessionHistory → Bool
  | [] => false
  | e :: done =>
    match e.request with
    | .startMAR _ _ => e.answer
    | .stopMAR => false
    | _ => running done

/-- Sessions come one after another, each made of cameras that are added, a `startMAR` that
returns `true`, and `stopMAR`. -/
def InSession (done : SessionHistory) (p : MARProcess) : SessionCall → Prop
  | .addCamera _ _ => running done = false
  | .startMAR facesReady rendererMade =>
    running done = false ∧ (p.startMAR facesReady rendererMade).1 = true
  | .stopMAR => running done = true
  | .run | .loop | .sourceNode _ _ => p.architecture ≠ none
  | .setSurface => True

instance (done : SessionHistory) (p : MARProcess) (q : SessionCall) :
    Decidable (InSession done p q) :=
  match q with
  | .addCamera _ _ => inferInstanceAs (Decidable (running done = false))
  | .startMAR _ _ => inferInstanceAs (Decidable (_ ∧ _))
  | .stopMAR => inferInstanceAs (Decidable (running done = true))
  | .run | .loop | .sourceNode _ _ => inferInstanceAs (Decidable (p.architecture ≠ none))
  | .setSurface => inferInstanceAs (Decidable True)

/-- The runs of sessions. -/
abbrev Sessions (done : SessionHistory) (p : MARProcess) : Prop :=
  Session MARProcess.respond InSession {} done p

/-- A session has been stopped. -/
def stopped (done : SessionHistory) : Bool := done.any (fun e => e.request = .stopMAR)

/-- The camera has been added. -/
def added (camera : CameraId) (done : SessionHistory) : Bool :=
  done.any (fun e =>
    match e.request with
    | .addCamera c _ => c = camera ∧ e.answer = true
    | _ => false)

/-- The camera was added in a session that has been stopped. -/
def usedBefore (camera : CameraId) : SessionHistory → Bool
  | [] => false
  | e :: done => if e.request = .stopMAR then added camera done else usedBefore camera done

/-- In every state of a run `must_terminate` is false while a session is under way, and a camera
used in an earlier session is added as it was the first time. -/
structure Restarts (done : SessionHistory) : Prop where
  keepsGoing : ∀ earlier p, earlier <:+ done → Sessions earlier p → running earlier = true →
    p.mustTerminate = false
  addsAgain : ∀ camera isRearFacing answer earlier,
    ⟨.addCamera camera isRearFacing, answer⟩ :: earlier <:+ done →
      usedBefore camera earlier = true → answer = true

theorem Restarts.nil : Restarts [] where
  keepsGoing := by
    intro earlier p hsuffix _ hrunning
    rw [List.suffix_nil.mp hsuffix] at hrunning
    cases hrunning
  addsAgain := by
    intro camera isRearFacing answer earlier hsuffix
    cases List.suffix_nil.mp hsuffix

theorem Restarts.of_cons {e : Done SessionCall SessionCall.Ans} {done : SessionHistory}
    (h : Restarts (e :: done)) : Restarts done where
  keepsGoing := fun earlier p hsuffix =>
    h.keepsGoing earlier p (hsuffix.trans (List.suffix_cons e done))
  addsAgain := fun camera isRearFacing answer earlier hsuffix =>
    h.addsAgain camera isRearFacing answer earlier (hsuffix.trans (List.suffix_cons e done))

/-- No session is started after one was stopped, and no camera of an earlier one is added. -/
def StartsOnce (done : SessionHistory) : SessionCall → Prop
  | .addCamera camera _ => usedBefore camera done = false
  | .startMAR _ _ => stopped done = false
  | .setSurface | .run | .loop | .sourceNode _ _ | .stopMAR => True

namespace MARProcess

variable {p p' : MARProcess} {done : SessionHistory} {q : SessionCall} {a : Bool}
  {camera : CameraId}

/-- The flag tells whether a session was stopped, and the cameras stay. -/
structure Kept (done : SessionHistory) (p : MARProcess) : Prop where
  flag : p.mustTerminate = stopped done
  cameras : ∀ camera, added camera done = true → camera ∈ p.repository.cameras

theorem added_of_usedBefore (h : usedBefore camera done = true) : added camera done = true := by
  induction done with
  | nil => cases h
  | cons e done ih =>
      have hadded : added camera done = true := by
        unfold usedBefore at h
        split_ifs at h with hstop
        · exact h
        · exact ih h
      unfold added at hadded ⊢
      rw [List.any_cons, hadded, Bool.or_true]

theorem cameras_hardwareAddCamera (r : Repository) (camera : CameraId) :
    (r.hardwareAddCamera camera).2.cameras =
      if (r.hardwareAddCamera camera).1 = true then r.cameras ++ [camera] else r.cameras := by
  unfold Repository.hardwareAddCamera Repository.addCamera
  by_cases hknown : camera = noCamera ∨ camera ∈ r.cameras
  · simp [hknown]
  · simp [hknown]

/-- A camera that the repository has is not added. -/
theorem addCamera_of_mem (h : camera ∈ p.repository.cameras) (isRearFacing : Bool) :
    (p.addCamera camera isRearFacing).1 = false := by
  simp [addCamera, Repository.hardwareAddCamera, Repository.addCamera, h]

theorem startMAR_other (p : MARProcess) (facesReady rendererMade : Bool) :
    (p.startMAR facesReady rendererMade).2.repository = p.repository ∧
      (p.startMAR facesReady rendererMade).2.mustTerminate = p.mustTerminate := by
  unfold startMAR
  split_ifs with hwindow hcameras hready
  · exact ⟨rfl, rfl⟩
  · exact ⟨rfl, rfl⟩
  · exact ⟨rfl, rfl⟩
  · cases makeArchitecture p.rearCameras p.frontCameras with
    | none => exact ⟨rfl, rfl⟩
    | some architecture => exact ⟨rfl, rfl⟩

theorem sourceNode_other (p : MARProcess) (camera : CameraId) (frame : Option FrameRef) :
    (p.sourceNode camera frame).2.repository.cameras = p.repository.cameras ∧
      (p.sourceNode camera frame).2.mustTerminate = p.mustTerminate := by
  unfold sourceNode
  cases frame with
  | none => exact ⟨rfl, rfl⟩
  | some frame => exact ⟨Repository.cameras_newFrame _ _ _, rfl⟩

namespace Kept

theorem start : Kept [] {} where
  flag := rfl
  cameras := fun camera h => by cases h

/-- A call that neither adds a camera nor stops the session. -/
theorem other (h : Kept done p) (hstop : q ≠ .stopMAR)
    (hadd : ∀ camera isRearFacing, q ≠ .addCamera camera isRearFacing)
    (hflag : p'.mustTerminate = p.mustTerminate)
    (hcameras : p'.repository.cameras = p.repository.cameras) :
    Kept (⟨q, a⟩ :: done) p' where
  flag := by
    rw [hflag, h.flag]
    simp [stopped, hstop]
  cameras := by
    intro camera hadded
    rw [hcameras]
    apply h.cameras
    unfold added at hadded ⊢
    rw [List.any_cons] at hadded
    cases q with
    | addCamera c isRearFacing => exact absurd rfl (hadd c isRearFacing)
    | setSurface | startMAR | run | loop | sourceNode | stopMAR => exact hadded

theorem addCamera (h : Kept done p) (c : CameraId) (isRearFacing : Bool) :
    Kept (⟨.addCamera c isRearFacing, (p.addCamera c isRearFacing).1⟩ :: done)
      (p.addCamera c isRearFacing).2 where
  flag := by
    have hflag : (p.addCamera c isRearFacing).2.mustTerminate = p.mustTerminate := rfl
    rw [hflag, h.flag]
    simp [stopped]
  cameras := by
    intro camera hadded
    have hcameras : (p.addCamera c isRearFacing).2.repository.cameras =
        if (p.addCamera c isRearFacing).1 = true then p.repository.cameras ++ [c]
        else p.repository.cameras := cameras_hardwareAddCamera p.repository c
    rw [hcameras]
    unfold added at hadded
    rw [List.any_cons, Bool.or_eq_true] at hadded
    obtain hnow | hbefore := hadded
    · obtain ⟨hc, hanswer⟩ := of_decide_eq_true hnow
      dsimp only at hc hanswer
      rw [if_pos hanswer, hc]
      exact List.mem_append_right _ (List.mem_singleton_self camera)
    · have hmem := h.cameras camera hbefore
      split_ifs with hanswer
      · exact List.mem_append_left _ hmem
      · exact hmem

theorem step (h : Kept done p) (hq : respond q p = some (a, p')) : Kept (⟨q, a⟩ :: done) p' := by
  cases q with
  | addCamera c isRearFacing =>
      cases hq
      exact h.addCamera c isRearFacing
  | setSurface =>
      cases hq
      exact h.other (by simp) (by simp) rfl rfl
  | startMAR facesReady rendererMade =>
      have hp : (p.startMAR facesReady rendererMade).2 = p' :=
        congrArg Prod.snd (Option.some.inj hq)
      subst hp
      obtain ⟨hrepository, hflag⟩ := startMAR_other p facesReady rendererMade
      exact h.other (by simp) (by simp) hflag (by rw [hrepository])
  | run =>
      cases hq
      exact h.other (by simp) (by simp) rfl rfl
  | loop =>
      cases hq
      exact h.other (by simp) (by simp) rfl rfl
  | sourceNode camera frame =>
      have hp : (p.sourceNode camera frame).2 = p' := congrArg Prod.snd (Option.some.inj hq)
      subst hp
      obtain ⟨hcameras, hflag⟩ := sourceNode_other p camera frame
      exact h.other (by simp) (by simp) hflag hcameras
  | stopMAR =>
      cases hq
      constructor
      · rfl
      · intro camera hadded
        apply h.cameras
        simpa [added] using hadded

end Kept

theorem kept {done : SessionHistory} {p : MARProcess} (h : Sessions done p) : Kept done p := by
  apply h.invariant Kept.start
  intro done p q a p' hkept hok hq
  exact hkept.step hq

theorem stopped_cons_of_ne (hstop : q ≠ .stopMAR) : stopped (⟨q, a⟩ :: done) = stopped done := by
  simp [stopped, hstop]

/-- A session that starts after another has stopped finds the flag set, and a camera that was
added is not added again. -/
theorem startsOnce_of_restarts (h : Sessions done p) (hok : InSession done p q)
    (hq : respond q p = some (a, p')) (hr : Restarts (⟨q, a⟩ :: done)) : StartsOnce done q := by
  cases q with
  | addCamera camera isRearFacing =>
      by_contra hused
      have hused : usedBefore camera done = true := Bool.eq_true_of_not_eq_false hused
      have hadded : a = true :=
        hr.addsAgain camera isRearFacing a done List.suffix_rfl hused
      have hanswer : (p.addCamera camera isRearFacing).1 = a :=
        congrArg Prod.fst (Option.some.inj hq)
      have hmem := (kept h).cameras camera (added_of_usedBefore hused)
      rw [addCamera_of_mem hmem, hadded] at hanswer
      cases hanswer
  | startMAR facesReady rendererMade =>
      have hstart : p.startMAR facesReady rendererMade = (a, p') := Option.some.inj hq
      have hrunning : running (⟨.startMAR facesReady rendererMade, a⟩ :: done) = true := by
        have htrue := hok.2
        rw [hstart] at htrue
        exact htrue
      have hflag := hr.keepsGoing _ p' List.suffix_rfl (h.call hok hq) hrunning
      have hsame := (startMAR_other p facesReady rendererMade).2
      rw [hstart, (kept h).flag] at hsame
      exact hsame.symm.trans hflag
  | setSurface | run | loop | sourceNode | stopMAR => trivial

theorem keepsGoing_cons (h : Sessions done p) (hr : Restarts done) (hs : StartsOnce done q)
    (hrunning : running (⟨q, a⟩ :: done) = true) : stopped (⟨q, a⟩ :: done) = false := by
  have hstopped (hbefore : running done = true) : stopped done = false := by
    rw [← (kept h).flag]
    exact hr.keepsGoing done p List.suffix_rfl h hbefore
  cases q with
  | startMAR facesReady rendererMade =>
      rw [stopped_cons_of_ne (by simp)]
      exact hs
  | stopMAR => cases hrunning
  | addCamera | setSurface | run | loop | sourceNode =>
      rw [stopped_cons_of_ne (by simp)]
      exact hstopped hrunning

theorem restarts_cons_iff (h : Sessions done p) (hok : InSession done p q)
    (hq : respond q p = some (a, p')) :
    Restarts (⟨q, a⟩ :: done) ↔ Restarts done ∧ StartsOnce done q := by
  constructor
  · intro hr
    exact ⟨hr.of_cons, startsOnce_of_restarts h hok hq hr⟩
  · rintro ⟨hr, hs⟩
    constructor
    · intro earlier p₁ hsuffix hp₁ hrunning
      obtain rfl | hsuffix := List.suffix_cons_iff.mp hsuffix
      · rw [(kept hp₁).flag]
        exact keepsGoing_cons h hr hs hrunning
      · exact hr.keepsGoing earlier p₁ hsuffix hp₁ hrunning
    · intro camera isRearFacing answer earlier hsuffix hused
      obtain heq | hsuffix := List.suffix_cons_iff.mp hsuffix
      · cases heq
        rw [show usedBefore camera done = false from hs] at hused
        cases hused
      · exact hr.addsAgain camera isRearFacing answer earlier hsuffix hused

/-- Sessions can be restarted in a run if and only if none is: no session is started after one was
stopped, and no camera is added that an earlier session had added. -/
theorem restarts_iff (done : SessionHistory) (p : MARProcess) (h : Sessions done p) :
    Restarts done ↔
      Session respond (fun done p q => InSession done p q ∧ StartsOnce done q) {} done p := by
  constructor
  · intro hr
    induction h with
    | start => exact .start
    | call h hok hq ih =>
        obtain ⟨hbefore, hs⟩ := (restarts_cons_iff h hok hq).mp hr
        exact .call (ih hbefore) ⟨hok, hs⟩ hq
  · intro hs
    clear h
    induction hs with
    | start => exact .nil
    | call hs hok hq ih =>
        have hsessions := hs.mono (fun _ _ _ hok => hok.1)
        exact (restarts_cons_iff hsessions hok.1 hq).mpr ⟨ih, hok.2⟩

/-- A session of one camera, which is stopped. -/
theorem restarts_iff_one :
    ∃ (done : SessionHistory) (p : MARProcess), p.architecture = some (.mono 1) ∧
      stopped done = true ∧ (Restarts done ↔
        Session respond (fun done p q => InSession done p q ∧ StartsOnce done q) {} done p) := by
  have hrun : (Session.replay respond InSession
      [.setSurface, .addCamera 1 true, .startMAR true true, .run, .sourceNode 1 (some 0), .loop,
        .stopMAR, .loop] [] {}).any
      (fun s => s.2.architecture = some (.mono 1) ∧ stopped s.1 = true) = true := by decide
  obtain ⟨⟨done, p⟩, hs, hres⟩ := (Option.any_eq_true _ _).mp hrun
  obtain ⟨harchitecture, hstopped⟩ := of_decide_eq_true hres
  exact ⟨done, p, harchitecture, hstopped, restarts_iff done p (Session.of_replay _ .start hs)⟩

/-- The camera of a session that was stopped is not added again. -/
theorem camera_not_added_again :
    ¬∀ (done : SessionHistory) (p : MARProcess), Sessions done p → Restarts done := by
  intro h
  have hrun : (Session.replay respond InSession
      [.setSurface, .addCamera 1 true, .startMAR true true, .run, .stopMAR, .addCamera 1 true]
      [] {}).any (fun s => s.1.head?.map (fun e => (e.request, e.answer)) =
        some (.addCamera 1 true, false) ∧ usedBefore 1 s.1.tail = true) = true := by decide
  obtain ⟨⟨done, p⟩, hs, hres⟩ := (Option.any_eq_true _ _).mp hrun
  obtain ⟨hhead, hused⟩ := of_decide_eq_true hres
  obtain ⟨e, he, hlatest⟩ := Option.map_eq_some_iff.mp hhead
  obtain ⟨earlier, rfl⟩ := List.head?_eq_some_iff.mp he
  obtain ⟨q, a⟩ := e
  cases hlatest
  have hanswer := (h _ p (Session.of_replay _ .start hs)).addsAgain 1 true false earlier
    List.suffix_rfl hused
  cases hanswer

end MARProcess

end ARArch
