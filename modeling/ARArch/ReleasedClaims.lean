import ARArch.NodeEffects
import ARArch.Sessions

/-!
# Every claim is released

Whatever a detector or a tracker finds on its frame, and whichever exception is caught on the way,
it ends by clearing its claim, resetting its busy flag and deleting the frame. Between two runs no
busy flag is set.
-/

namespace ARArch

open Atomic

/-- What a node leaves of the repository when it has its frame; `none`: it never returns. -/
def Node.finish (n : Node) (r : Repository) (s : SeqNo) (f : FrameRef) : Option Repository :=
  match n with
  | .aprilTag c c2 => (r.letGo .detector (c, s) f).letSecondGo c2 s f
  | _ => some (r.letGo n.consumer (n.camera, s) f)

/-- The node has given its claim and its busy flag back, and the frame is gone unless somebody else
has claimed it. -/
structure ClaimReleased (n : Node) (s : SeqNo) (f : FrameRef) (m m' : NodeMemory) : Prop where
  busy : n.isBusy m' = n.isBusy m
  flag : (m'.repo.infos f).flag n.consumer = false
  gone : m'.repo.frame (n.camera, s) = none ∨
    ∃ u, u ≠ n.consumer ∧ (m'.repo.infos f).flag u = true

/-- A node runs from beginning to end, or others change the repository. -/
inductive NodeRequest
  | run (n : Node) (s : SeqNo) (w : World)
  | change (r : Repository)

@[reducible] def NodeRequest.Ans : NodeRequest → Type
  | run _ _ _ => SeqNo
  | change _ => Unit

def NodeMemory.respond : Service NodeRequest NodeRequest.Ans NodeMemory
  | .run n s w, m => (n.program w s).alone m
  | .change r, m => some ((), { m with repo := r })

namespace Repository

variable {r r' : Repository} {n : Node} {s : SeqNo} {f : FrameRef}

/-- Letting the second frame go takes no flag and puts no frame back. -/
theorem letSecondGo_cases {c2 : CameraId} (h : r.letSecondGo c2 s f = some r') :
    r' = r ∨ r' = r.letGo .detector (c2, s) f := by
  rw [letSecondGo] at h
  split_ifs at h with hc
  · cases h
    exact .inl rfl
  · obtain ⟨a, -, ha⟩ := Option.map_eq_some_iff.mp h
    cases a with
    | none => exact .inl ha.symm
    | some g => exact .inr ha.symm

theorem released_letGo {u : Consumer} {k : Key} (hf : r.frame k = some f) :
    ((r.letGo u k f).infos f).flag u = false ∧ ((r.letGo u k f).frame k = none ∨
      ∃ v, v ≠ u ∧ ((r.letGo u k f).infos f).flag v = true) := by
  refine ⟨flag_letGo_self, ?_⟩
  by_cases hfree : ∀ v, v ≠ u → (r.infos f).flag v = false
  · exact .inl (frame_letGo hf hfree)
  · push Not at hfree
    obtain ⟨v, hv, hflag⟩ := hfree
    refine .inr ⟨v, hv, ?_⟩
    rw [flag_letGo_of_ne hv]
    simpa using hflag

theorem released_finish (hf : r.frame (n.camera, s) = some f) (h : n.finish r s f = some r') :
    (r'.infos f).flag n.consumer = false ∧ (r'.frame (n.camera, s) = none ∨
      ∃ u, u ≠ n.consumer ∧ (r'.infos f).flag u = true) := by
  cases n with
  | aprilTag c c2 =>
      have hf' : r.frame (c, s) = some f := hf
      obtain ⟨hflag, hgone⟩ := released_letGo (u := .detector) hf'
      rcases letSecondGo_cases h with rfl | rfl
      · exact ⟨hflag, hgone⟩
      · refine ⟨flag_letGo_self, ?_⟩
        rcases hgone with hgone | ⟨v, hv, hclaim⟩
        · left
          by_contra hn
          obtain ⟨g, hg⟩ := Option.ne_none_iff_exists'.mp hn
          have hback : (r.letGo .detector (c, s) f).frame (c, s) = some g :=
            frame_of_frame_letGo hg
          rw [hgone] at hback
          cases hback
        · right
          refine ⟨v, hv, ?_⟩
          rwa [flag_letGo_of_ne hv]
  | _ =>
      cases h
      exact released_letGo hf

end Repository

section Runs

variable {m m₀ : NodeMemory} {n : Node} {s : SeqNo} {f : FrameRef} {w : World}

/-- A node that uses its frame without touching flags, or resets its own busy flag. -/
theorem leaves_consume_busy {u : Consumer} {c : CameraId} {use : FrameRef → NodeCall Unit}
    {busy : BusyFlag → Bool} (hf : m.repo.getFrame (c, s) = some (some f))
    (huse : (use f).Leaves (fun i => NodeMemory.exec i) m (fun _ m' =>
      m'.control = (m.repo, busy, m.isRendering))) (hbusy : busy = m.busy) :
    (NodeCall.consume u c s use).Leaves (fun i => NodeMemory.exec i) m (fun a m' =>
      a = s ∧ some (m.repo.letGo u (c, s) f) = some m'.repo ∧ m'.busy = m.busy) := by
  refine (NodeCall.leaves_consume hf huse).mono (fun a m' h => ⟨h.1, ?_, ?_⟩)
  · exact congrArg some (congrArg Prod.fst h.2).symm
  · rw [← hbusy]
    exact congrArg (fun x => x.2.1) h.2

theorem leaves_program (hf : m.repo.getFrame (n.camera, s) = some (some f))
    (hbusy : n.isBusy m = false) :
    (n.program w s).Leaves (fun i => NodeMemory.exec i) m (fun a m' =>
      a = s ∧ n.finish m.repo s f = some m'.repo ∧ m'.busy = m.busy) := by
  have hfree {b : BusyFlag} (hb : m.busy b = false) : Function.update m.busy b false = m.busy := by
    rw [← hb, Function.update_eq_self]
  cases n with
  | simulation c =>
      have huse : NodeCall.IsAside (do
          let _ ← NodeCall.spin w .simulation f
          pure ()) := .bind NodeCall.isAside_spin (fun _ => .pure ())
      exact leaves_consume_busy hf (huse m) rfl
  | timeTest object c =>
      have huse : NodeCall.IsAside (do
          let _ ← NodeCall.spin w (.tracker object) f
          pure ()) := .bind NodeCall.isAside_spin (fun _ => .pure ())
      exact leaves_consume_busy hf (huse m) rfl
  | nullDetector c => exact leaves_consume_busy hf (Prog.Keeps.pure () m) rfl
  | nullTracker c => exact leaves_consume_busy hf (Prog.Keeps.pure () m) rfl
  | face c =>
      have huse := NodeCall.leaves_lookForFace (w := w) (b := .face c) (f := f)
        (NodeCall.isAside_publishFace (w := w) (s := s)) m
      exact leaves_consume_busy hf huse (hfree hbusy)
  | faceOverlay c =>
      have huse := NodeCall.leaves_lookForFace (w := w) (b := .faceOverlay c) (f := f)
        (NodeCall.isAside_overlay (NodeCall.publishOverlay w s)) m
      exact leaves_consume_busy hf huse (hfree hbusy)
  | aprilTag c c2 =>
      refine (NodeCall.leaves_aprilTagDetector hf).mono (fun a m' h => ⟨h.1, h.2.1, ?_⟩)
      rw [← hfree hbusy]
      exact congrArg Prod.fst h.2.2

/-- A node begins with `get_frame`. -/
theorem alone_program (n : Node) (w : World) (s : SeqNo) (m : NodeMemory) :
    (m.repo.getFrame (n.camera, s) = none → (n.program w s).alone m = none) ∧
      (m.repo.getFrame (n.camera, s) = some none → (n.program w s).alone m = some (s, m)) := by
  have hconsume (u : Consumer) (c : CameraId) (use : FrameRef → NodeCall Unit) :
      (m.repo.getFrame (c, s) = none → (NodeCall.consume u c s use).alone m = none) ∧
        (m.repo.getFrame (c, s) = some none →
          (NodeCall.consume u c s use).alone m = some (s, m)) := by
    rw [NodeCall.alone_consume]
    constructor
    · intro hf
      rw [hf]
      rfl
    · intro hf
      rw [hf]
      rfl
  cases n with
  | aprilTag c c2 =>
      change (m.repo.getFrame (c, s) = none → (NodeCall.aprilTagDetector w c c2 s).alone m = none) ∧
        (m.repo.getFrame (c, s) = some none →
          (NodeCall.aprilTagDetector w c c2 s).alone m = some (s, m))
      rw [NodeCall.aprilTagDetector, NodeCall.alone_bind, NodeCall.alone_getFrame]
      constructor
      · intro hf
        rw [hf]
        rfl
      · intro hf
        rw [hf]
        rfl
  | _ => exact hconsume _ _ _

/-- Between two runs no busy flag is set. -/
theorem busy_of_session (h₀ : ∀ b, m₀.busy b = false)
    {done : List (Done NodeRequest NodeRequest.Ans)}
    (h : Session NodeMemory.respond (fun _ _ _ => True) m₀ done m) : ∀ b, m.busy b = false := by
  refine Session.invariant (I := fun _ m => ∀ b, m.busy b = false) h₀ ?_ h
  intro done m q a m' hm _ hq
  cases q with
  | change r =>
      cases hq
      exact hm
  | run n s w =>
      have hbusy : n.isBusy m = false := by
        cases n <;> first | exact hm _ | rfl
      cases hf : m.repo.getFrame (n.camera, s) with
      | none =>
          have hrun : (n.program w s).alone m = some (a, m') := hq
          rw [(alone_program n w s m).1 hf] at hrun
          cases hrun
      | some found =>
          cases found with
          | none =>
              have hrun : (n.program w s).alone m = some (a, m') := hq
              rw [(alone_program n w s m).2 hf] at hrun
              cases hrun
              exact hm
          | some f =>
              rw [(leaves_program hf hbusy a m' hq).2.2]
              exact hm

end Runs

/-! ### The nodes return -/

/-- Every stored frame has colour data. -/
def Repository.AllColored (r : Repository) : Prop :=
  ∀ k f, r.frame k = some f → 0 < (r.infos f).rgbaLen

namespace NodeCall

variable {w : World} {c c2 : CameraId} {s : SeqNo} {f : FrameRef} {u : Consumer} {b : BusyFlag}
  {α : Type}

/-- On frames with colour data the program returns, and leaves such frames. -/
abbrev Returns (p : NodeCall α) : Prop :=
  p.EndsWithin (fun i => NodeMemory.exec i) (fun m => m.repo.AllColored)

/-- An operation that leaves the repository and does not crash. -/
theorem returns_perform {i : NodeOp}
    (h : ∀ m, ∃ a m', NodeMemory.exec i m = some (a, m') ∧ m'.repo = m.repo) :
    Returns (perform i) := by
  refine .perform (fun m hm => ?_)
  obtain ⟨a, m', he, hr⟩ := h m
  exact ⟨a, m', he, by rwa [hr]⟩

theorem returns_addAcquires (n : ℤ) : Returns (perform (.addAcquires f n)) :=
  returns_perform (fun _ => ⟨_, _, rfl, rfl⟩)

theorem returns_storeBusy (v : Bool) : Returns (perform (.storeBusy b v)) :=
  returns_perform (fun _ => ⟨_, _, rfl, rfl⟩)

theorem returns_exchangeBusy : Returns (perform (.exchangeBusy b)) :=
  returns_perform (fun _ => ⟨_, _, rfl, rfl⟩)

theorem returns_detections (o : RendererOptions) (q : DetectionRequest) :
    Returns (perform (.detections o q)) := by
  refine returns_perform (fun m => ?_)
  cases q <;> exact ⟨_, _, rfl, rfl⟩

theorem returns_overlay (p : OverlayCall α) : Returns (overlay p) :=
  .embed (fun i m hm => ⟨_, _, (rfl : NodeMemory.exec (.overlay i) m = some (_, _)), hm⟩) p

theorem returns_getFrame : Returns (call (.getFrame c s)) := by
  intro m hm
  have hget : m.repo.getFrame (c, s) = some (m.repo.frame (c, s)) := by
    rw [Repository.getFrame]
    cases hf : m.repo.frame (c, s) with
    | none => rfl
    | some f => exact if_pos (hm _ _ hf)
  refine ⟨m.repo.frame (c, s), m, ?_, hm⟩
  rw [← alone, alone_getFrame, hget]
  rfl

theorem returns_stereoTwin : Returns (call (.stereoTwin c s)) :=
  fun m hm => ⟨_, _, alone_stereoTwin m c s, hm⟩

theorem returns_letGo : Returns (letGo u c s f) := by
  intro m hm
  refine ⟨_, _, alone_letGo m u c s f, ?_⟩
  intro k g hg
  rw [Repository.rgbaLen_letGo]
  exact hm k g (Repository.frame_of_frame_letGo hg)

/-- With the environment at hand the data are given back. -/
theorem returns_withColorData {e : Eye} (he : w.getEnv e = true) (context : JniEnv)
    {use : NodeCall Unit} (huse : Returns use) : Returns (withColorData w e f context use) := by
  rw [withColorData_of_env he]
  refine .bind (returns_addAcquires 1) (fun _ => ?_)
  exact .bind huse (fun _ => .bind (returns_addAcquires (-1)) (fun _ => .pure _))

theorem returns_spin (he : w.getEnv .own = true) : Returns (spin w b f) := by
  rw [spin_of_env he]
  refine .bind (returns_addAcquires 1) (fun _ => .ite ?_ (.pure _))
  refine .bind returns_exchangeBusy (fun _ => .ite ?_ ?_)
  · exact .bind (returns_addAcquires (-1)) (fun _ => .bind (returns_storeBusy false)
      (fun _ => .pure _))
  · exact .bind (returns_addAcquires (-1)) (fun _ => .pure _)

theorem returns_consume {use : FrameRef → NodeCall Unit} (h : ∀ f, Returns (use f)) :
    Returns (consume u c s use) := by
  refine .bind returns_getFrame (fun a => ?_)
  cases a with
  | none => exact .pure _
  | some f => exact .bind (h f) (fun _ => .bind returns_letGo (fun _ => .pure _))

theorem returns_publishFace : Returns (publishFace w s) := by
  rw [publishFace]
  cases w.face with
  | none => exact .pure _
  | some timestamp =>
      exact .bind (returns_detections _ _) (fun _ => returns_detections _ _)

theorem returns_publishTags : Returns (publishTags w s) := by
  rw [publishTags]
  cases w.tags .own with
  | none => exact .pure _
  | some timestamps =>
      exact .bind (returns_detections _ _) (fun _ => returns_detections _ _)

theorem returns_lookForFace (he : w.getEnv .own = true) {publish : NodeCall Unit}
    (h : Returns publish) : Returns (lookForFace w b publish f) :=
  .bind (returns_storeBusy true) (fun _ =>
    .bind (returns_withColorData he _ h) (fun _ => returns_storeBusy false))

theorem returns_lookAtTwin (he : w.getEnv .twin = true) (env : JniEnv) :
    Returns (lookAtTwin w c s env) := by
  refine .bind returns_stereoTwin (fun twin => ?_)
  cases twin with
  | none => exact .pure _
  | some k =>
      refine .bind returns_getFrame (fun a => ?_)
      cases a with
      | none => exact .pure _
      | some f => exact .bind (returns_withColorData he env (.pure _)) (fun _ => .pure _)

theorem returns_deleteSecond : Returns (deleteSecond c2 s f) := by
  refine .ite (.pure _) (.bind returns_getFrame (fun a => ?_))
  cases a with
  | none => exact .pure _
  | some g => exact returns_letGo

theorem returns_program (he : ∀ e, w.getEnv e = true) (n : Node) : Returns (n.program w s) := by
  cases n with
  | simulation c =>
      exact returns_consume (fun f => .bind (returns_spin (he .own)) (fun _ => .pure _))
  | timeTest object c =>
      exact returns_consume (fun f => .bind (returns_spin (he .own)) (fun _ => .pure _))
  | nullDetector c => exact returns_consume (fun f => .pure _)
  | nullTracker c => exact returns_consume (fun f => .pure _)
  | face c => exact returns_consume (fun f => returns_lookForFace (he .own) returns_publishFace)
  | faceOverlay c =>
      exact returns_consume (fun f => returns_lookForFace (he .own) (returns_overlay _))
  | aprilTag c c2 =>
      refine .bind returns_getFrame (fun a => ?_)
      cases a with
      | none => exact .pure _
      | some f =>
          refine .bind (returns_storeBusy true) (fun _ => ?_)
          refine .bind (returns_withColorData (he .own) _ (.pure _)) (fun env => ?_)
          refine .bind returns_publishTags (fun _ => ?_)
          refine .bind (returns_lookAtTwin (he .twin) env) (fun _ => ?_)
          refine .bind returns_letGo (fun _ => .bind returns_deleteSecond (fun _ => ?_))
          exact .bind (returns_storeBusy false) (fun _ => .pure _)

end NodeCall

/-- A detector or tracker that returns from a run on a frame with colour data has released its
claim, whatever the world answers; and it does return where all frames have colour data and the
JNI environment is there. -/
theorem nodes_release_claim {m₀ m : NodeMemory} (h₀ : ∀ b, m₀.busy b = false)
    {done : List (Done NodeRequest NodeRequest.Ans)}
    (h : Session NodeMemory.respond (fun _ _ _ => True) m₀ done m) (n : Node) (s : SeqNo)
    {f : FrameRef} (hf : m.repo.frame (n.camera, s) = some f)
    (hdata : 0 < (m.repo.infos f).rgbaLen) (w : World) :
    (∀ a m', (n.program w s).alone m = some (a, m') → a = s ∧ ClaimReleased n s f m m') ∧
      (m.repo.AllColored → (∀ e, w.getEnv e = true) →
        ∃ m', (n.program w s).alone m = some (s, m')) := by
  have hget : m.repo.getFrame (n.camera, s) = some (some f) := by
    rw [Repository.getFrame, hf]
    exact if_pos hdata
  have hbusy : n.isBusy m = false := by
    cases n <;> first | exact busy_of_session h₀ h _ | rfl
  have hleaves := leaves_program (w := w) hget hbusy
  constructor
  · intro a m' hrun
    obtain ⟨ha, hrepo, hsame⟩ := hleaves a m' hrun
    obtain ⟨hflag, hgone⟩ := Repository.released_finish hf hrepo
    have hbusy' : n.isBusy m' = n.isBusy m := by
      cases n <;> first | exact congrFun hsame _ | rfl
    exact ⟨ha, hbusy', hflag, hgone⟩
  · intro hcolored he
    obtain ⟨a, m', hrun, -⟩ := NodeCall.returns_program he n m hcolored
    obtain ⟨rfl, -⟩ := hleaves a m' hrun
    exact ⟨m', hrun⟩

/-- Frame 7 under number 1 of camera 0, claimed by a detector. -/
def detectedFrame : NodeMemory where
  repo :=
    { cameras := [0]
      seqNumbers := Table.empty.assign 0 2
      cameraFrames := Table.empty.assign 0 (Table.empty.assign 1 7)
      infos := fun _ => { seqno := 1, rgbaLen := 4, isDetecting := true } }

/-- The face detector finds a face in it. -/
theorem nodes_release_claim_face : ∃ m',
    ((Node.face 0).program { face := some 5 } 1).alone detectedFrame = some (1, m') ∧
      ClaimReleased (.face 0) 1 7 detectedFrame m' := by
  have hcolored : detectedFrame.repo.AllColored := by
    intro k f _
    change (0 : ℤ) < 4
    decide
  have hstart : Session NodeMemory.respond (fun _ _ _ => True) detectedFrame [] detectedFrame :=
    .start
  have hdata : 0 < (detectedFrame.repo.infos 7).rgbaLen := by
    change (0 : ℤ) < 4
    decide
  obtain ⟨hreleased, hreturns⟩ := nodes_release_claim (fun _ => rfl) hstart
    (.face 0) 1 rfl hdata { face := some 5 }
  obtain ⟨m', hm'⟩ := hreturns hcolored (fun _ => rfl)
  exact ⟨m', hm', (hreleased 1 m' hm').2⟩

end ARArch
