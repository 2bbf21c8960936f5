import ARArch.NodeEffects
import Mathlib.Algebra.Group.Pi.Lemmas
import Mathlib.Algebra.Ring.Int.Defs

/-!
# The count of colour data

`rgbaAcquires` goes up when `getColorData` has an environment and down when `releaseColorData` has
one. The five callers release what they were refused, or keep what they were given, so that the
count does not always come back to where it was.
-/

namespace ARArch

open Atomic

/-- The callers of `getColorData`. -/
inductive ColorUser
  | spin (b : BusyFlag) (frame : FrameRef)
  | aprilTag (camera1Id camera2Id : CameraId) (seqno : SeqNo)
  | face (cameraId : CameraId) (seqno : SeqNo)
  | faceOverlay (cameraId : CameraId) (seqno : SeqNo)
  | updateCameraTexture (frame : FrameRef)

def ColorUser.program (w : World) : ColorUser → NodeCall Unit
  | spin b frame => do
    let _ ← NodeCall.spin w b frame
    pure ()
  | aprilTag camera1Id camera2Id seqno => do
    let _ ← NodeCall.aprilTagDetector w camera1Id camera2Id seqno
    pure ()
  | face cameraId seqno => do
    let _ ← NodeCall.faceDetector w cameraId seqno
    pure ()
  | faceOverlay cameraId seqno => do
    let _ ← NodeCall.faceOverlayDetector w cameraId seqno
    pure ()
  | updateCameraTexture frame => do
    let _ ← NodeCall.updateCameraTexture w frame
    pure ()

/-- The program returns, and the counts of all frames are the same as before. -/
def NodeCall.Balanced {α : Type} (p : NodeCall α) (m : NodeMemory) : Prop :=
  p.Ends (fun i => NodeMemory.exec i) m (fun _ m' => m'.acquires = m.acquires)

namespace World

variable (w : World)

/-- The data are given, or else `env` happens to be null and no environment is there to release
them in either. -/
def EvensOut (e : Eye) (context : JniEnv) : Prop :=
  w.getEnv e = true ∨ context = .null ∧ w.getEnvAgain e = false

/-- What `env` contains once the data of a frame have been asked for. -/
def envAfter (e : Eye) (context : JniEnv) : JniEnv := if w.getEnv e then .valid else context

/-- By how much getting the data raises the count. -/
def taken (e : Eye) : ℤ := if w.getEnv e then 1 else 0

/-- By how much releasing changes it; `none`: it crashes. -/
def released (e : Eye) : JniEnv → Option ℤ
  | .null => some (if w.getEnvAgain e then -1 else 0)
  | .valid => some (-1)
  | .wild => none

/-- What getting and releasing come to. -/
def imbalance (e : Eye) (context : JniEnv) : Option ℤ :=
  (w.released e (w.envAfter e context)).map (fun n => w.taken e + n)

variable {w} {e : Eye} {context : JniEnv}

theorem imbalance_eq_none : w.imbalance e context = none ↔
    w.getEnv e = false ∧ context = .wild := by
  rw [imbalance, envAfter]
  cases w.getEnv e <;> cases context <;> simp [released]

theorem not_evensOut_of_none (h : w.imbalance e context = none) : ¬ w.EvensOut e context := by
  obtain ⟨he, rfl⟩ := imbalance_eq_none.mp h
  rintro (h' | h')
  · rw [he] at h'
    cases h'
  · cases h'.1

theorem imbalance_of_some {n : ℤ} (h : w.imbalance e context = some n) :
    (n = -1 ∧ ¬ w.EvensOut e context) ∨ (n = 0 ∧ w.EvensOut e context) := by
  rw [imbalance, envAfter, taken] at h
  rw [EvensOut]
  cases hg : w.getEnv e with
  | true =>
      rw [hg] at h
      cases h
      exact .inr ⟨rfl, .inl rfl⟩
  | false =>
      rw [hg] at h
      cases context with
      | null =>
          cases ha : w.getEnvAgain e with
          | true =>
              simp only [released, ha] at h
              cases h
              exact .inl ⟨rfl, by simp⟩
          | false =>
              simp only [released, ha] at h
              cases h
              exact .inr ⟨rfl, .inr ⟨rfl, rfl⟩⟩
      | valid =>
          cases h
          exact .inl ⟨rfl, by simp⟩
      | wild => cases h

theorem imbalance_le_zero {n : ℤ} (h : w.imbalance e context = some n) : n ≤ 0 := by
  rcases imbalance_of_some h with ⟨rfl, -⟩ | ⟨rfl, -⟩ <;> decide

theorem imbalance_eq_zero_iff {n : ℤ} (h : w.imbalance e context = some n) :
    n = 0 ↔ w.EvensOut e context := by
  rcases imbalance_of_some h with ⟨rfl, he⟩ | ⟨rfl, he⟩
  · exact iff_of_false (by decide) he
  · exact iff_of_true rfl he

end World

namespace Repository

/-- The frame of the stereo twin as the stereo detector finds it; `none`: it never returns. -/
def twinFrame (r : Repository) (k : Key) : Option (Option FrameRef) :=
  match r.stereoFrames (pairHasher k) with
  | none => some none
  | some twin => r.getFrame twin

variable {r : Repository} {c c2 : CameraId} {s : SeqNo} {f : FrameRef} {j k : Key}

theorem getFrame_ne_none_of_twinFrame {twin : Key} (h : r.twinFrame k ≠ none)
    (ht : r.stereoFrames (pairHasher k) = some twin) : r.getFrame twin ≠ none := by
  rw [twinFrame, ht] at h
  exact h

/-- Letting go of a frame makes no other call wait, nor keeps one from waiting: neither the frame
nor its twin is without data. -/
theorem getFrame_letGo_eq_none (hf : r.getFrame k = some (some f)) (htwin : r.twinFrame k ≠ none) :
    (r.letGo .detector k f).getFrame j = none ↔ r.getFrame j = none := by
  rw [getFrame_eq_none, getFrame_eq_none]
  constructor
  · rintro ⟨g, hg, hlen⟩
    exact ⟨g, frame_of_frame_letGo hg, rgbaLen_letGo.symm.trans_le hlen⟩
  · rintro ⟨g, hg, hlen⟩
    have hj : r.getFrame j = none := getFrame_eq_none.mpr ⟨g, hg, hlen⟩
    refine ⟨g, ?_, rgbaLen_letGo.trans_le hlen⟩
    rw [frame_letGo_of_ne, hg]
    · rintro rfl
      rw [hj] at hf
      cases hf
    · rintro w hw rfl
      exact getFrame_ne_none_of_twinFrame htwin hw hj

/-- The last look-up of the stereo detector waits if it would have waited at the beginning. -/
theorem letSecondGo_eq_none (hf : r.getFrame (c, s) = some (some f))
    (htwin : r.twinFrame (c, s) ≠ none) :
    (r.letGo .detector (c, s) f).letSecondGo c2 s f = none ↔
      ¬ (c2 = noCamera ∨ r.getFrame (c2, s) ≠ none) := by
  rw [letSecondGo]
  by_cases hc : c2 = noCamera
  · rw [if_pos hc]
    exact iff_of_false (Option.some_ne_none _) (not_not_intro (.inl hc))
  · rw [if_neg hc, Option.map_eq_none_iff, getFrame_letGo_eq_none hf htwin, not_or, not_not]
    exact (and_iff_right hc).symm

end Repository

/-- The inputs on which a call returns with the same counts. -/
def ColorUser.Settles (w : World) (m : NodeMemory) : ColorUser → Prop
  | spin _ _ => w.getEnv .own = true → w.array .own = true
  | aprilTag c c2 s =>
    ∃ a, m.repo.getFrame (c, s) = some a ∧ (a.isSome = true →
      w.EvensOut .own w.uninitialised ∧
      (∃ twin, m.repo.twinFrame (c, s) = some twin ∧
        (twin.isSome = true → w.EvensOut .twin (w.envAfter .own w.uninitialised))) ∧
      (c2 = noCamera ∨ m.repo.getFrame (c2, s) ≠ none))
  | face c s | faceOverlay c s =>
    ∃ a, m.repo.getFrame (c, s) = some a ∧
      (a.isSome = true → w.EvensOut .own w.uninitialised)
  | updateCameraTexture _ =>
    (w.isStaged && NodeCall.lacksStaging w) = true ∨
      ((w.getEnv .own && w.array .own) = true ∨ w.texsize = 0) ∧
        w.EvensOut .own w.uninitialised

namespace NodeMemory

def addAcquires (m : NodeMemory) (f : FrameRef) (n : ℤ) : NodeMemory :=
  { m with acquires := m.acquires + Pi.single f n }

@[simp] theorem addAcquires_zero (m : NodeMemory) (f : FrameRef) : m.addAcquires f 0 = m := by
  rw [addAcquires, Pi.single_zero, add_zero]

end NodeMemory

namespace NodeCall

variable {w : World} {m m' : NodeMemory} {c c2 : CameraId} {s : SeqNo} {f : FrameRef}
  {u : Consumer} {b : BusyFlag} {α : Type} {e : Eye} {context : JniEnv}

/-! ### What changes no count -/

/-- The program returns and changes neither counts nor repository. -/
def IsQuiet (p : NodeCall α) : Prop :=
  ∀ x, p.EndsWithin (fun i => NodeMemory.exec i) (fun m => (m.repo, m.acquires) = x)

theorem isQuiet_pure (a : α) : IsQuiet (pure a) := fun _ => .pure a

theorem isQuiet_detections (o : RendererOptions) (q : DetectionRequest) :
    IsQuiet (perform (.detections o q)) := by
  refine fun _ => .perform (fun m hm => ?_)
  cases q <;> exact ⟨_, _, rfl, hm⟩

theorem isQuiet_overlay (p : OverlayCall α) : IsQuiet (overlay p) :=
  fun _ => .embed (fun i m hm =>
    ⟨_, _, (rfl : NodeMemory.exec (.overlay i) m = some (_, _)), hm⟩) p

theorem isQuiet_publishFace : IsQuiet (publishFace w s) := by
  rw [publishFace]
  cases w.face with
  | none => exact isQuiet_pure _
  | some timestamp =>
      exact fun x => .bind (isQuiet_detections _ _ x) (fun _ => isQuiet_detections _ _ x)

theorem isQuiet_publishTags : IsQuiet (publishTags w s) := by
  rw [publishTags]
  cases w.tags .own with
  | none => exact isQuiet_pure _
  | some timestamps =>
      exact fun x => .bind (isQuiet_detections _ _ x) (fun _ => isQuiet_detections _ _ x)

theorem isQuiet_draw : IsQuiet (draw w) :=
  fun x => .bind (isQuiet_detections _ _ x) (fun _ => .ite (isQuiet_overlay _ x) (.pure _))

/-! ### What the callers change -/

/-- The program returns, and has added `d` to the counts. -/
def Adds (p : NodeCall α) (m : NodeMemory) (d : FrameRef → ℤ) : Prop :=
  p.Ends (fun i => NodeMemory.exec i) m (fun _ m' => m'.acquires = m.acquires + d)

theorem Adds.balanced_iff {p : NodeCall α} {d : FrameRef → ℤ} (h : Adds p m d) :
    Balanced p m ↔ d = 0 := by
  obtain ⟨a, m', hrun, hm'⟩ := h
  rw [Balanced, Prog.ends_of_run hrun, hm', add_eq_left]

theorem not_balanced_of_none {p : NodeCall α} (h : p.alone m = none) : ¬ Balanced p m :=
  Prog.not_ends_of_run_none h

theorem alone_addAcquires (m : NodeMemory) (f : FrameRef) (n : ℤ) :
    (perform (.addAcquires f n)).alone m = some ((), m.addAcquires f n) := by
  rw [alone, Prog.run_perform, NodeMemory.exec, NodeMemory.addAcquires]
  congr 3
  funext g
  by_cases hg : g = f
  · rw [hg, Function.update_self, Pi.add_apply, Pi.single_eq_same]
  · rw [Function.update_of_ne hg, Pi.add_apply, Pi.single_eq_of_ne hg, add_zero]

theorem alone_getColorData (m : NodeMemory) : (getColorData w e f context).alone m =
    some ((w.getEnv e && w.array e, w.envAfter e context), m.addAcquires f (w.taken e)) := by
  rw [getColorData, World.envAfter, World.taken]
  cases w.getEnv e with
  | true =>
      rw [if_pos rfl, alone_bind, alone_addAcquires, Bool.true_and]
      rfl
  | false =>
      rw [if_neg Bool.false_ne_true, if_neg Bool.false_ne_true, if_neg Bool.false_ne_true,
        NodeMemory.addAcquires_zero]
      rfl

theorem alone_releaseColorData (m : NodeMemory) : (releaseColorData w e f context).alone m =
    (w.released e context).map (fun n => ((), m.addAcquires f n)) := by
  cases context with
  | null =>
      rw [releaseColorData, World.released]
      cases w.getEnvAgain e with
      | true => exact alone_addAcquires m f (-1)
      | false =>
          rw [if_neg Bool.false_ne_true, if_neg Bool.false_ne_true, Option.map_some,
            NodeMemory.addAcquires_zero]
          rfl
  | valid => exact alone_addAcquires m f (-1)
  | wild => rfl

/-- Once the data have been used quietly they can be released. -/
theorem ends_before_release {use : NodeCall Unit} (huse : IsQuiet use) {n : ℤ}
    (hn : w.released e context = some n) (m : NodeMemory) :
    use.Ends (fun i => NodeMemory.exec i) m (fun _ m₁ => ∃ m',
      (releaseColorData w e f context).alone m₁ = some ((), m') ∧ m'.repo = m.repo ∧
        m'.acquires = m.acquires + Pi.single f n) := by
  refine (huse _ _ rfl).mono (fun _ m₁ h₁ => ?_)
  have hrepo : m₁.repo = m.repo := congrArg Prod.fst h₁
  have hacq : m₁.acquires = m.acquires := congrArg Prod.snd h₁
  refine ⟨m₁.addAcquires f n, ?_, hrepo, ?_⟩
  · rw [alone_releaseColorData, hn]
    rfl
  · rw [← hacq]
    rfl

theorem ends_withColorData {use : NodeCall Unit} (huse : IsQuiet use) {n : ℤ}
    (hn : w.imbalance e context = some n) (m : NodeMemory) :
    (withColorData w e f context use).Ends (fun i => NodeMemory.exec i) m (fun env m' =>
      env = w.envAfter e context ∧ m'.repo = m.repo ∧
        m'.acquires = m.acquires + Pi.single f n) := by
  obtain ⟨d, hd, rfl⟩ := Option.map_eq_some_iff.mp hn
  rw [withColorData, Prog.ends_bind_of_run (alone_getColorData m), Prog.ends_bind]
  refine (ends_before_release (f := f) huse hd _).mono ?_
  rintro _ m₁ ⟨m', hrelease, hrepo, hacq⟩
  rw [Prog.ends_bind_of_run hrelease]
  refine ⟨_, _, rfl, rfl, hrepo, ?_⟩
  rw [hacq, NodeMemory.addAcquires, add_assoc, ← Pi.single_add]

theorem alone_withColorData_of_none (use : NodeCall Unit) (h : w.imbalance e context = none)
    (m : NodeMemory) : (withColorData w e f context use).alone m = none := by
  obtain ⟨he, rfl⟩ := World.imbalance_eq_none.mp h
  rw [withColorData_of_no_env he, alone_bind]
  cases use.alone m <;> rfl

/-! ### The callers -/

/-- A face detector that looks at its frame adds what getting and releasing add. -/
theorem adds_lookForFace {publish : NodeCall Unit} (hpublish : IsQuiet publish) {n : ℤ}
    (hn : w.imbalance .own w.uninitialised = some n) (m : NodeMemory) :
    Adds (lookForFace w b publish f) m (Pi.single f n) := by
  rw [Adds, lookForFace, Prog.ends_bind_of_run (alone_storeBusy m b true), Prog.ends_bind]
  refine (ends_withColorData hpublish hn _).mono (fun _ m₁ h₁ => ?_)
  exact ⟨_, _, alone_storeBusy m₁ b false, h₁.2.2⟩

theorem alone_lookForFace_of_none {publish : NodeCall Unit}
    (h : w.imbalance .own w.uninitialised = none) (m : NodeMemory) :
    (lookForFace w b publish f).alone m = none := by
  rw [lookForFace, alone_bind, alone_storeBusy]
  change (withColorData w .own f w.uninitialised publish >>= _).alone _ = none
  rw [alone_bind, alone_withColorData_of_none publish h]
  rfl

/-- What a face detector has added is there if it releases data that it was refused. -/
theorem balanced_lookForFace_iff {publish : NodeCall Unit} (hpublish : IsQuiet publish)
    (m : NodeMemory) : Balanced (lookForFace w b publish f) m ↔
      w.EvensOut .own w.uninitialised := by
  cases hn : w.imbalance .own w.uninitialised with
  | none =>
      exact iff_of_false (not_balanced_of_none (alone_lookForFace_of_none hn m))
        (World.not_evensOut_of_none hn)
  | some n =>
      rw [(adds_lookForFace hpublish hn m).balanced_iff, Pi.single_eq_zero_iff]
      exact World.imbalance_eq_zero_iff hn

/-- A frame that is not there does no harm, unlike one without data. -/
theorem balanced_consume_iff {use : FrameRef → NodeCall Unit} {P : Prop} (m : NodeMemory)
    (huse : ∀ f, Balanced (use f) m ↔ P) : Balanced (consume u c s use) m ↔
      ∃ a, m.repo.getFrame (c, s) = some a ∧ (a.isSome = true → P) := by
  have hrun := alone_consume m u c s use
  cases hf : m.repo.getFrame (c, s) with
  | none =>
      rw [hf] at hrun
      refine iff_of_false (not_balanced_of_none hrun) ?_
      rintro ⟨a, h, -⟩
      cases h
  | some a =>
      rw [hf] at hrun
      cases a with
      | none => exact iff_of_true ((Prog.ends_of_run hrun).mpr rfl) ⟨none, rfl, by simp⟩
      | some f =>
          change (consume u c s use).alone m = ((use f).alone m).map (fun q =>
              (s, { q.2 with repo := q.2.repo.letGo u (c, s) f })) at hrun
          have hsame : Balanced (consume u c s use) m ↔ Balanced (use f) m := by
            cases hu : (use f).alone m with
            | none =>
                rw [hu] at hrun
                exact iff_of_false (not_balanced_of_none hrun) (not_balanced_of_none hu)
            | some q =>
                rw [hu] at hrun
                rw [Balanced, Prog.ends_of_run hrun, Balanced, Prog.ends_of_run hu]
          rw [hsame, huse f]
          constructor
          · exact fun h => ⟨some f, rfl, fun _ => h⟩
          · rintro ⟨a, ha, h⟩
            cases ha
            exact h rfl

/-- Throwing the answer away changes nothing. -/
theorem balanced_discard_iff {β : Type} {p : NodeCall α} (b : β) (m : NodeMemory) :
    Balanced (do
      let _ ← p
      pure b) m ↔ Balanced p m := by
  rw [Balanced, Prog.ends_bind]
  simp only [Prog.ends_pure]
  rfl

theorem balanced_spin_iff (m : NodeMemory) : Balanced (spin w b f) m ↔
    (w.getEnv .own = true → w.array .own = true) := by
  cases he : w.getEnv .own with
  | false =>
      rw [spin_of_no_env he]
      exact iff_of_true (Prog.ends_pure.mpr rfl) (fun h => absurd h Bool.false_ne_true)
  | true =>
      rw [spin_of_env he, Balanced, Prog.ends_bind_of_run (alone_addAcquires m f 1)]
      cases ha : w.array .own with
      | false =>
          rw [if_neg Bool.false_ne_true, Prog.ends_pure]
          have hne : m.acquires + Pi.single f 1 ≠ m.acquires := by
            rw [ne_eq, add_eq_left, Pi.single_eq_zero_iff]
            decide
          exact iff_of_false hne (fun h => Bool.false_ne_true (h rfl))
      | true =>
          have hback (m₁ : NodeMemory) (h : m₁.acquires = m.acquires + Pi.single f 1) :
              m₁.acquires + Pi.single f (-1) = m.acquires := by
            rw [h, add_assoc, ← Pi.single_add, Int.add_right_neg, Pi.single_zero, add_zero]
          refine iff_of_true ?_ (fun _ => rfl)
          rw [if_pos rfl, Prog.ends_bind_of_run (alone_exchangeBusy _ b)]
          split_ifs
          · rw [Prog.ends_bind_of_run (alone_addAcquires _ f (-1)),
              Prog.ends_bind_of_run (alone_storeBusy _ b false), Prog.ends_pure]
            exact hback _ rfl
          · rw [Prog.ends_bind_of_run (alone_addAcquires _ f (-1)), Prog.ends_pure]
            exact hback _ rfl

/-- Null is copied from. -/
theorem alone_copyTexture_of_null (h : (w.getEnv .own && w.array .own) = false ∧ w.texsize ≠ 0)
    (m : NodeMemory) : (copyTexture w f).alone m = none := by
  rw [copyTexture, alone_bind, alone_getColorData]
  change NodeCall.alone (if (w.getEnv .own && w.array .own) = false ∧ w.texsize ≠ 0 then _
    else _) _ = none
  rw [if_pos h]
  rfl

theorem alone_copyTexture_of_none
    (h : ¬ ((w.getEnv .own && w.array .own) = false ∧ w.texsize ≠ 0))
    (hn : w.imbalance .own w.uninitialised = none) (m : NodeMemory) :
    (copyTexture w f).alone m = none := by
  obtain ⟨he, hwild⟩ := World.imbalance_eq_none.mp hn
  have hrelease : w.released .own (w.envAfter .own w.uninitialised) = none := by
    rw [World.envAfter, he, hwild]
    rfl
  rw [copyTexture, alone_bind, alone_getColorData]
  change NodeCall.alone (if (w.getEnv .own && w.array .own) = false ∧ w.texsize ≠ 0 then _
    else _) _ = none
  rw [if_neg h, alone_bind]
  cases (draw w).alone (m.addAcquires f (w.taken .own)) with
  | none => rfl
  | some q =>
      change (releaseColorData w .own f (w.envAfter .own w.uninitialised)).alone q.2 = none
      rw [alone_releaseColorData, hrelease]
      rfl

theorem adds_copyTexture (h : ¬ ((w.getEnv .own && w.array .own) = false ∧ w.texsize ≠ 0))
    {n : ℤ} (hn : w.imbalance .own w.uninitialised = some n) (m : NodeMemory) :
    Adds (copyTexture w f) m (Pi.single f n) := by
  obtain ⟨d, hd, rfl⟩ := Option.map_eq_some_iff.mp hn
  rw [Adds, copyTexture, Prog.ends_bind_of_run (alone_getColorData m), if_neg h, Prog.ends_bind]
  refine (ends_before_release (f := f) isQuiet_draw hd _).mono ?_
  rintro _ m₁ ⟨m', hrelease, -, hacq⟩
  refine ⟨_, _, hrelease, hacq.trans ?_⟩
  rw [NodeMemory.addAcquires, add_assoc, ← Pi.single_add]

/-- Copying to the texture does as the face detectors do, unless it copies from null. -/
theorem balanced_copyTexture_iff (m : NodeMemory) : Balanced (copyTexture w f) m ↔
    ((w.getEnv .own && w.array .own) = true ∨ w.texsize = 0) ∧
      w.EvensOut .own w.uninitialised := by
  by_cases hnull : (w.getEnv .own && w.array .own) = false ∧ w.texsize ≠ 0
  · refine iff_of_false (not_balanced_of_none (alone_copyTexture_of_null hnull m)) ?_
    rintro ⟨h | h, -⟩
    · rw [hnull.1] at h
      cases h
    · exact hnull.2 h
  · have hcopies : (w.getEnv .own && w.array .own) = true ∨ w.texsize = 0 := by
      rwa [not_and_or, Bool.not_eq_false, not_not] at hnull
    rw [and_iff_right hcopies]
    cases hn : w.imbalance .own w.uninitialised with
    | none =>
        exact iff_of_false (not_balanced_of_none (alone_copyTexture_of_none hnull hn m))
          (World.not_evensOut_of_none hn)
    | some n =>
        rw [(adds_copyTexture hnull hn m).balanced_iff, Pi.single_eq_zero_iff]
        exact World.imbalance_eq_zero_iff hn

theorem balanced_updateCameraTexture_iff (m : NodeMemory) :
    Balanced (updateCameraTexture w f) m ↔
      (ColorUser.updateCameraTexture f).Settles w m := by
  rw [updateCameraTexture, ColorUser.Settles]
  by_cases hstaged : (w.isStaged && lacksStaging w) = true
  · rw [if_pos hstaged]
    exact iff_of_true (Prog.ends_pure.mpr rfl) (.inl hstaged)
  · have hsame : Balanced (do
        copyTexture w f
        pure true) m ↔ Balanced (copyTexture w f) m := balanced_discard_iff true m
    rw [if_neg hstaged, hsame, balanced_copyTexture_iff, or_iff_right hstaged]

theorem alone_lookAtTwin_of_none (h : m.repo.twinFrame (c, s) = none) (env : JniEnv) :
    (lookAtTwin w c s env).alone m = none := by
  rw [Repository.twinFrame] at h
  rw [lookAtTwin, alone_bind, alone_stereoTwin]
  cases ht : m.repo.stereoFrames (pairHasher (c, s)) with
  | none =>
      rw [ht] at h
      cases h
  | some twin =>
      rw [ht] at h
      have hget : m.repo.getFrame (twin.1, twin.2) = none := h
      change (call (.getFrame twin.1 twin.2) >>= _).alone m = none
      rw [alone_bind, alone_getFrame, hget]
      rfl

/-- Looking at the twin adds what getting and releasing its data add. -/
theorem ends_lookAtTwin {twin : Option FrameRef} (h : m.repo.twinFrame (c, s) = some twin)
    {env : JniEnv} {n : ℤ} (hn : w.imbalance .twin env = some n) :
    (lookAtTwin w c s env).Ends (fun i => NodeMemory.exec i) m (fun _ m' =>
      m'.repo = m.repo ∧
        m'.acquires = m.acquires + twin.elim 0 (fun g => Pi.single g n)) := by
  rw [Repository.twinFrame] at h
  rw [lookAtTwin, Prog.ends_bind_of_run (alone_stereoTwin m c s)]
  cases ht : m.repo.stereoFrames (pairHasher (c, s)) with
  | none =>
      rw [ht] at h
      cases h
      exact ⟨_, _, rfl, rfl, (add_zero _).symm⟩
  | some k =>
      rw [ht] at h
      have hfound : m.repo.getFrame (k.1, k.2) = some twin := h
      have hget : (call (.getFrame k.1 k.2)).alone m = some (twin, m) := by
        rw [alone_getFrame, hfound]
        rfl
      change (call (.getFrame k.1 k.2) >>= _).Ends _ m _
      rw [Prog.ends_bind_of_run hget]
      cases twin with
      | none => exact ⟨_, _, rfl, rfl, (add_zero _).symm⟩
      | some g =>
          change (withColorData w .twin g env (pure ()) >>= _).Ends _ m _
          rw [Prog.ends_bind]
          refine (ends_withColorData (f := g) (isQuiet_pure ()) hn m).mono (fun _ m₁ h₁ => ?_)
          exact ⟨_, _, rfl, h₁.2⟩

/-- An environment that did not crash the first release does not crash the second. -/
theorem imbalance_twin_isSome (h : w.imbalance .own context ≠ none) :
    (w.imbalance .twin (w.envAfter .own context)).isSome = true := by
  rw [Option.isSome_iff_ne_none]
  intro hn
  obtain ⟨-, hwild⟩ := World.imbalance_eq_none.mp hn
  rw [World.envAfter] at hwild
  cases he : w.getEnv .own with
  | true =>
      rw [he] at hwild
      cases hwild
  | false =>
      rw [he] at hwild
      exact h (World.imbalance_eq_none.mpr ⟨he, hwild⟩)

/-- Two frames whose counts go down by one at most do not make up for each other. -/
theorem add_elim_eq_zero_iff {f : FrameRef} {twin : Option FrameRef} {n d : ℤ} (hn : n ≤ 0)
    (hd : d ≤ 0) : Pi.single f n + twin.elim 0 (fun g => Pi.single g d) = (0 : FrameRef → ℤ) ↔
      n = 0 ∧ (twin.isSome = true → d = 0) := by
  cases twin with
  | none => simp
  | some g =>
      rw [Option.elim_some, Option.isSome_some]
      constructor
      · intro h
        have hf := congrFun h f
        have hg := congrFun h g
        rw [Pi.add_apply, Pi.single_eq_same, Pi.zero_apply] at hf
        rw [Pi.add_apply, Pi.single_eq_same, Pi.zero_apply] at hg
        by_cases hfg : f = g
        · subst hfg
          rw [Pi.single_eq_same] at hf
          exact ⟨by omega, fun _ => by omega⟩
        · rw [Pi.single_eq_of_ne hfg] at hf
          rw [Pi.single_eq_of_ne (Ne.symm hfg)] at hg
          exact ⟨by omega, fun _ => by omega⟩
      · rintro ⟨rfl, h⟩
        rw [h rfl, Pi.single_zero, Pi.single_zero, add_zero]

/-- What the stereo detector does once it has published the tags. -/
def afterTags (w : World) (c c2 : CameraId) (s : SeqNo) (f : FrameRef) (env : JniEnv) :
    NodeCall SeqNo := do
  lookAtTwin w c s env
  letGo .detector c s f
  deleteSecond c2 s f
  perform (.storeBusy (.aprilTag c) false)
  pure s

theorem alone_aprilTagDetector (c2 : CameraId) (hf : m.repo.getFrame (c, s) = some (some f)) {n : ℤ}
    (hn : w.imbalance .own w.uninitialised = some n) : ∃ m₁ : NodeMemory, m₁.repo = m.repo ∧
      m₁.acquires = m.acquires + Pi.single f n ∧ (aprilTagDetector w c c2 s).alone m =
        (afterTags w c c2 s f (w.envAfter .own w.uninitialised)).alone m₁ := by
  obtain ⟨_, m₁, hrun₁, rfl, hrepo₁, hacq₁⟩ := ends_withColorData (f := f) (isQuiet_pure ()) hn
    { m with busy := Function.update m.busy (.aprilTag c) true }
  obtain ⟨_, m₂, hrun₂, h₂⟩ := isQuiet_publishTags (w := w) (s := s) _ m₁ rfl
  refine ⟨m₂, (congrArg Prod.fst h₂).trans hrepo₁, (congrArg Prod.snd h₂).trans hacq₁, ?_⟩
  rw [aprilTagDetector, alone_bind, alone_getFrame, hf]
  change (perform (.storeBusy (.aprilTag c) true) >>= _).alone m = _
  rw [alone_bind, alone_storeBusy]
  change (withColorData w .own f w.uninitialised (pure ()) >>= _).alone _ = _
  rw [alone_bind, alone, hrun₁]
  change (publishTags w s >>= _).alone m₁ = _
  rw [alone_bind, alone, hrun₂]
  rfl

theorem alone_aprilTagDetector_of_none (hf : m.repo.getFrame (c, s) = some (some f))
    (hn : w.imbalance .own w.uninitialised = none) :
    (aprilTagDetector w c c2 s).alone m = none := by
  rw [aprilTagDetector, alone_bind, alone_getFrame, hf]
  change (perform (.storeBusy (.aprilTag c) true) >>= _).alone m = none
  rw [alone_bind, alone_storeBusy]
  change (withColorData w .own f w.uninitialised (pure ()) >>= _).alone _ = none
  rw [alone_bind, alone_withColorData_of_none (pure ()) hn]
  rfl

theorem alone_afterTags_of_no_twin {env : JniEnv} (h : m.repo.twinFrame (c, s) = none) :
    (afterTags w c c2 s f env).alone m = none := by
  rw [afterTags, alone_bind, alone_lookAtTwin_of_none h]
  rfl

theorem alone_aprilTagDetector_of_no_twin (hf : m.repo.getFrame (c, s) = some (some f))
    (htwin : m.repo.twinFrame (c, s) = none) : (aprilTagDetector w c c2 s).alone m = none := by
  cases hn : w.imbalance .own w.uninitialised with
  | none => exact alone_aprilTagDetector_of_none hf hn
  | some n =>
      obtain ⟨m₁, hrepo, -, hrun⟩ := alone_aprilTagDetector c2 hf hn
      rw [hrun, alone_afterTags_of_no_twin (by rw [hrepo, htwin])]

theorem alone_afterTags (c2 : CameraId) (f : FrameRef) {env : JniEnv} {twin : Option FrameRef}
    (h : m.repo.twinFrame (c, s) = some twin) {d : ℤ} (hd : w.imbalance .twin env = some d) :
    ∃ m₁ : NodeMemory, m₁.acquires = m.acquires + twin.elim 0 (fun g => Pi.single g d) ∧
      (afterTags w c c2 s f env).alone m =
        ((m.repo.letGo .detector (c, s) f).letSecondGo c2 s f).map (fun r => (s,
          { m₁ with repo := r, busy := Function.update m₁.busy (.aprilTag c) false })) := by
  obtain ⟨_, m₁, hrun, hrepo, hacq⟩ := ends_lookAtTwin h hd
  refine ⟨m₁, hacq, ?_⟩
  rw [afterTags, alone_bind, alone, hrun]
  change (letGo .detector c s f >>= _).alone m₁ = _
  rw [alone_bind, alone_letGo]
  change (deleteSecond c2 s f >>= _).alone _ = _
  rw [alone_bind, alone_deleteSecond]
  change (((m₁.repo.letGo .detector (c, s) f).letSecondGo c2 s f).map _).bind _ = _
  rw [hrepo]
  cases (m.repo.letGo .detector (c, s) f).letSecondGo c2 s f <;> rfl

theorem balanced_aprilTagDetector_of_frame (hf : m.repo.getFrame (c, s) = some (some f)) :
    Balanced (aprilTagDetector w c c2 s) m ↔ w.EvensOut .own w.uninitialised ∧
      (∃ twin, m.repo.twinFrame (c, s) = some twin ∧
        (twin.isSome = true → w.EvensOut .twin (w.envAfter .own w.uninitialised))) ∧
      (c2 = noCamera ∨ m.repo.getFrame (c2, s) ≠ none) := by
  cases hn : w.imbalance .own w.uninitialised with
  | none =>
      exact iff_of_false (not_balanced_of_none (alone_aprilTagDetector_of_none hf hn))
        (fun h => World.not_evensOut_of_none hn h.1)
  | some n =>
      obtain ⟨m₁, hrepo₁, hacq₁, hrun₁⟩ := alone_aprilTagDetector c2 hf hn
      cases htwin : m.repo.twinFrame (c, s) with
      | none =>
          refine iff_of_false
            (not_balanced_of_none (alone_aprilTagDetector_of_no_twin hf htwin)) ?_
          rintro ⟨-, ⟨twin, h, -⟩, -⟩
          cases h
      | some twin =>
          have hown : w.imbalance .own w.uninitialised ≠ none := by
            rw [hn]
            exact Option.some_ne_none n
          have htwin₁ : m₁.repo.twinFrame (c, s) = some twin := by rw [hrepo₁, htwin]
          have hlast_iff : (m.repo.letGo .detector (c, s) f).letSecondGo c2 s f = none ↔
              ¬ (c2 = noCamera ∨ m.repo.getFrame (c2, s) ≠ none) := by
            apply Repository.letSecondGo_eq_none hf
            rw [htwin]
            exact Option.some_ne_none twin
          obtain ⟨d, hd⟩ := Option.isSome_iff_exists.mp (imbalance_twin_isSome hown)
          obtain ⟨m₂, hacq₂, hrun₂⟩ := alone_afterTags c2 f htwin₁ hd
          rw [hrepo₁] at hrun₂
          cases hlast : (m.repo.letGo .detector (c, s) f).letSecondGo c2 s f with
          | none =>
              rw [hrun₂, hlast] at hrun₁
              exact iff_of_false (not_balanced_of_none hrun₁)
                (fun h => hlast_iff.mp hlast h.2.2)
          | some r =>
              have hsecond : c2 = noCamera ∨ m.repo.getFrame (c2, s) ≠ none := by
                by_contra h
                rw [hlast_iff.mpr h] at hlast
                cases hlast
              rw [hrun₂, hlast] at hrun₁
              rw [Balanced, Prog.ends_of_run hrun₁, hacq₂, hacq₁, add_assoc, add_eq_left,
                add_elim_eq_zero_iff (World.imbalance_le_zero hn) (World.imbalance_le_zero hd),
                World.imbalance_eq_zero_iff hn, World.imbalance_eq_zero_iff hd]
              simp [hsecond]

theorem balanced_aprilTagDetector_iff (m : NodeMemory) :
    Balanced (aprilTagDetector w c c2 s) m ↔ (ColorUser.aprilTag c c2 s).Settles w m := by
  have hget := alone_getFrame m c s
  rw [ColorUser.Settles]
  cases hf : m.repo.getFrame (c, s) with
  | none =>
      rw [hf] at hget
      have hrun : (aprilTagDetector w c c2 s).alone m = none := by
        rw [aprilTagDetector, alone_bind, hget]
        rfl
      refine iff_of_false (not_balanced_of_none hrun) ?_
      rintro ⟨a, h, -⟩
      cases h
  | some a =>
      rw [hf] at hget
      cases a with
      | none =>
          exact iff_of_true ((Prog.ends_bind_of_run hget).mpr (Prog.ends_pure.mpr rfl))
            ⟨none, rfl, by simp⟩
      | some f =>
          rw [balanced_aprilTagDetector_of_frame hf]
          simp

end NodeCall

end ARArch
