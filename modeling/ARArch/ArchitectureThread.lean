import ARArch.SessionRestart

/-!
# The thread of the architecture

`start` runs an architecture on a thread that is a member of it, and nothing joins or detaches this
thread. `startMAR` replaces the architecture by the one it makes, which destroys the one before.
The destructor of a thread that can still be joined ends the process, also when its function has
returned; the graph, which is destroyed before the thread, may not even let it come to that.
-/

namespace ARArch

structure ArchitectureThread where
  process : MARProcess := {}
  /-- The thread of `architecture` was started and can be joined. -/
  joinable : Bool := false

namespace ArchitectureThread

/-- `startMAR` comes as far as to replace the architecture. -/
def Replaces (p : MARProcess) (facesReady rendererMade : Bool) : Prop :=
  p.androidWindow = true ∧ ¬(p.rearCameras = [] ∧ p.frontCameras = []) ∧
    facesReady = true ∧ rendererMade = true

instance (p : MARProcess) (facesReady rendererMade : Bool) :
    Decidable (Replaces p facesReady rendererMade) :=
  inferInstanceAs (Decidable (_ ∧ _))

/-- `startMAR`, or `none` if the process ends with it. -/
def startMAR (s : ArchitectureThread) (facesReady rendererMade : Bool) :
    Option (Bool × ArchitectureThread) :=
  let started := s.process.startMAR facesReady rendererMade
  if Replaces s.process facesReady rendererMade then
    if s.joinable then none else some (started.1, ⟨started.2, started.1⟩)
  else some (started.1, ⟨started.2, s.joinable⟩)

def respond : Service SessionCall SessionCall.Ans ArchitectureThread
  | .startMAR facesReady rendererMade, s => s.startMAR facesReady rendererMade
  | q, s => (MARProcess.respond q s.process).map (fun a => (a.1, ⟨a.2, s.joinable⟩))

/-- A `startMAR` that returned `true`. -/
def isStart (e : Done SessionCall SessionCall.Ans) : Bool :=
  match e.request with
  | .startMAR _ _ => e.answer
  | _ => false

abbrev Runs (done : SessionHistory) (s : ArchitectureThread) : Prop :=
  Session respond (fun _ _ _ => True) {} done s

variable {s s' : ArchitectureThread} {p p' : MARProcess} {done : SessionHistory}
  {q : SessionCall} {a facesReady rendererMade : Bool}

/-- Whether a session can start: there is a window and a camera. -/
def Ready (p : MARProcess) : Prop := p.androidWindow = true ∧ p.repository.cameras ≠ []

theorem no_cameras_iff : p.rearCameras = [] ∧ p.frontCameras = [] ↔ p.repository.cameras = [] := by
  unfold MARProcess.rearCameras MARProcess.frontCameras
  constructor
  · rintro ⟨hrear, hfront⟩
    apply List.eq_nil_iff_forall_not_mem.mpr
    intro camera hmem
    have hnotRear := List.filter_eq_nil_iff.mp hrear camera hmem
    have hnotFront := List.filter_eq_nil_iff.mp hfront camera hmem
    simp_all
  · intro hnil
    rw [hnil]
    exact ⟨rfl, rfl⟩

theorem replaces_iff : Replaces p facesReady rendererMade ↔
    Ready p ∧ facesReady = true ∧ rendererMade = true := by
  unfold Replaces Ready
  rw [no_cameras_iff, and_assoc]

theorem startMAR_of_not_replaces (h : ¬Replaces p facesReady rendererMade) :
    p.startMAR facesReady rendererMade = (false, p) := by
  unfold MARProcess.startMAR
  split_ifs with hwindow hcameras hready
  · rfl
  · rfl
  · rfl
  · push Not at hready
    simp only [ne_eq, Bool.not_eq_false] at hwindow hready
    exact absurd ⟨hwindow, hcameras, hready⟩ h

theorem window_startMAR :
    (p.startMAR facesReady rendererMade).2.androidWindow = p.androidWindow := by
  unfold MARProcess.startMAR
  split_ifs
  · rfl
  · rfl
  · rfl
  · cases makeArchitecture p.rearCameras p.frontCameras <;> rfl

theorem Ready.startMAR (h : Ready p) : Ready (p.startMAR facesReady rendererMade).2 := by
  unfold Ready
  rw [window_startMAR, (MARProcess.startMAR_other p facesReady rendererMade).1]
  exact h

/-- A window and a camera are there for good. -/
theorem Ready.respond (h : Ready p) (hq : MARProcess.respond q p = some (a, p')) : Ready p' := by
  cases q with
  | addCamera camera isRearFacing =>
      cases hq
      refine ⟨h.1, ?_⟩
      have hcameras := MARProcess.cameras_hardwareAddCamera p.repository camera
      dsimp only
      rw [hcameras]
      split_ifs
      · simp
      · exact h.2
  | setSurface =>
      cases hq
      exact ⟨rfl, h.2⟩
  | startMAR facesReady rendererMade =>
      have hp : p' = (p.startMAR facesReady rendererMade).2 :=
        congrArg Prod.snd (Option.some.inj hq).symm
      rw [hp]
      exact h.startMAR
  | run | loop | stopMAR =>
      cases hq
      exact h
  | sourceNode camera frame =>
      have hp : p' = (p.sourceNode camera frame).2 :=
        congrArg Prod.snd (Option.some.inj hq).symm
      have hcameras := (MARProcess.sourceNode_other p camera frame).1
      rw [hp]
      refine ⟨?_, ?_⟩
      · cases frame <;> exact h.1
      · rw [hcameras]
        exact h.2

/-- The thread was started by the only `startMAR` that returned `true`. -/
structure Tracks (done : SessionHistory) (s : ArchitectureThread) : Prop where
  count : done.countP isStart = if s.joinable then 1 else 0
  ready : s.joinable = true → Ready s.process

theorem Tracks.new : Tracks [] {} where
  count := rfl
  ready := by simp

theorem Tracks.startMAR (h : Tracks done s)
    (hq : s.startMAR facesReady rendererMade = some (a, s')) :
    Tracks (⟨.startMAR facesReady rendererMade, a⟩ :: done) s' := by
  unfold ArchitectureThread.startMAR at hq
  dsimp only at hq
  split_ifs at hq with hreplaces hjoinable
  · cases hq
    have hbefore : done.countP isStart = 0 := by
      rw [h.count, if_neg hjoinable]
    constructor
    · rw [List.countP_cons, hbefore, Nat.zero_add]
      rfl
    · exact fun _ => (replaces_iff.mp hreplaces).1.startMAR
  · rw [startMAR_of_not_replaces hreplaces] at hq
    cases hq
    constructor
    · rw [List.countP_cons, h.count]
      simp [isStart]
    · exact h.ready

theorem respond_other (h : ∀ facesReady rendererMade, q ≠ .startMAR facesReady rendererMade) :
    respond q s = (MARProcess.respond q s.process).map (fun a => (a.1, ⟨a.2, s.joinable⟩)) := by
  cases q with
  | startMAR facesReady rendererMade => exact absurd rfl (h facesReady rendererMade)
  | addCamera | setSurface | run | loop | sourceNode | stopMAR => rfl

theorem Tracks.step (h : Tracks done s) (hq : respond q s = some (a, s')) :
    Tracks (⟨q, a⟩ :: done) s' := by
  cases q with
  | startMAR facesReady rendererMade => exact h.startMAR hq
  | addCamera | setSurface | run | loop | sourceNode | stopMAR =>
      rw [respond_other (by simp)] at hq
      obtain ⟨⟨b, p⟩, hp, heq⟩ := Option.map_eq_some_iff.mp hq
      cases heq
      constructor
      · rw [List.countP_cons_of_neg (by simp [isStart])]
        exact h.count
      · exact fun hjoinable => (h.ready hjoinable).respond hp

end ArchitectureThread

end ARArch
