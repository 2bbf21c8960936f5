import ARArch.Nodes
import ARArch.CallEffects

/-!
# What a node does to the repository

Getting and giving back colour data, detecting, publishing and drawing change neither the
repository nor a busy flag. What is left of a node is the calls by which it lets its frame go.
-/

namespace ARArch

open Atomic

namespace NodeCall

variable {w : World} {m : NodeMemory} {c camera : CameraId} {s : SeqNo} {f frame : FrameRef}
  {u : Consumer} {b : BusyFlag} {α : Type}

/-! ### Calls on the repository -/

theorem alone_bind {β : Type} (p : NodeCall α) (k : α → NodeCall β) (m : NodeMemory) :
    (p >>= k).alone m = (p.alone m).bind (fun q => (k q.1).alone q.2) :=
  Prog.run_bind _ p k m

theorem alone_getFrame (m : NodeMemory) (c : CameraId) (s : SeqNo) :
    (call (.getFrame c s)).alone m = (m.repo.getFrame (c, s)).map (fun a => (a, m)) := by
  simp only [alone, Prog.run_perform, NodeMemory.exec, Repository.respond_eq, Request.effect,
    Option.map_map]
  rfl

theorem alone_deleteFrame (m : NodeMemory) (c : CameraId) (s : SeqNo) :
    (call (.deleteFrame c s)).alone m =
      some ((), { m with repo := m.repo.deleteFrame (c, s) }) := by
  simp only [alone, Prog.run_perform, NodeMemory.exec, Repository.respond_eq]
  rfl

theorem alone_setFlag (m : NodeMemory) (f : FrameRef) (u : Consumer) (v : Bool) :
    (call (.setFlag f u v)).alone m =
      some ((), { m with repo := m.repo.modifyInfo f (·.setFlag u v) }) := by
  simp only [alone, Prog.run_perform, NodeMemory.exec, Repository.respond_eq]
  rfl

theorem alone_stereoTwin (m : NodeMemory) (c : CameraId) (s : SeqNo) :
    (call (.stereoTwin c s)).alone m = some (m.repo.stereoFrames (pairHasher (c, s)), m) := by
  simp only [alone, Prog.run_perform, NodeMemory.exec, Repository.respond_eq]
  rfl

/-! ### Colour data -/

theorem withColorData_of_env {e : Eye} (he : w.getEnv e = true) (context : JniEnv)
    (use : NodeCall Unit) : withColorData w e f context use = (do
      perform (.addAcquires f 1)
      use
      perform (.addAcquires f (-1))
      pure .valid) := by
  rw [withColorData, getColorData, if_pos he]
  rfl

theorem withColorData_of_no_env {e : Eye} (he : w.getEnv e = false) (context : JniEnv)
    (use : NodeCall Unit) : withColorData w e f context use = (do
      use
      releaseColorData w e f context
      pure context) := by
  rw [withColorData, getColorData, he, if_neg Bool.false_ne_true]
  rfl

theorem spin_of_env (he : w.getEnv .own = true) : spin w b f = (do
      perform (.addAcquires f 1)
      if w.array .own then do
        if ← perform (.exchangeBusy b) then do
          perform (.addAcquires f (-1))
          perform (.storeBusy b false)
          pure true
        else do
          perform (.addAcquires f (-1))
          pure false
      else pure true) := by
  rw [spin, getColorData, if_pos he]
  rfl

theorem spin_of_no_env (he : w.getEnv .own = false) : spin w b f = pure true := by
  rw [spin, getColorData, he, if_neg Bool.false_ne_true]
  rfl

end NodeCall

/-! ### What is left alone -/

/-- What the nodes tell each other by: the repository, the busy flags and `is_rendering`. -/
def NodeMemory.control (m : NodeMemory) : Repository × (BusyFlag → Bool) × Bool :=
  (m.repo, m.busy, m.isRendering)

/-- The operations that touch nothing of that. -/
def NodeOp.isAside : NodeOp → Bool
  | .addAcquires _ _ | .detections _ _ | .overlay _ | .crash => true
  | _ => false

theorem NodeMemory.control_of_exec {i : NodeOp} (hi : i.isAside = true) {m m' : NodeMemory}
    {a : i.Ans} (h : exec i m = some (a, m')) : m'.control = m.control := by
  cases i with
  | addAcquires f n =>
      cases h
      rfl
  | detections c q =>
      obtain ⟨p, -, hp⟩ := Option.map_eq_some_iff.mp h
      cases hp
      rfl
  | overlay j =>
      cases h
      rfl
  | crash => cases h
  | _ => cases hi

namespace NodeCall

variable {w : World} {m m' : NodeMemory} {c : CameraId} {s : SeqNo} {f : FrameRef}
  {u : Consumer} {b : BusyFlag} {α : Type}

/-- The program leaves repository, busy flags and `is_rendering`. -/
abbrev IsAside (p : NodeCall α) : Prop := p.Keeps (fun i => NodeMemory.exec i) NodeMemory.control

theorem isAside_perform {i : NodeOp} (hi : i.isAside = true) : IsAside (perform i) :=
  Prog.Keeps.perform (fun _ _ _ => NodeMemory.control_of_exec hi)

theorem isAside_overlay (p : OverlayCall α) : IsAside (overlay p) :=
  Prog.Keeps.embed (fun _ _ _ _ h => NodeMemory.control_of_exec rfl h) p

theorem isAside_getColorData (e : Eye) (context : JniEnv) :
    IsAside (getColorData w e f context) :=
  .ite (.bind (isAside_perform rfl) (fun _ => .pure _)) (.pure _)

theorem isAside_releaseColorData (e : Eye) (context : JniEnv) :
    IsAside (releaseColorData w e f context) := by
  cases context with
  | null => exact .ite (isAside_perform rfl) (.pure _)
  | valid => exact isAside_perform rfl
  | wild => exact isAside_perform rfl

theorem isAside_withColorData (e : Eye) (context : JniEnv) {use : NodeCall Unit}
    (h : IsAside use) : IsAside (withColorData w e f context use) :=
  .bind (isAside_getColorData e context) (fun p =>
    .bind h (fun _ => .bind (isAside_releaseColorData e p.2) (fun _ => .pure _)))

theorem isAside_publishFace : IsAside (publishFace w s) := by
  rw [publishFace]
  cases w.face with
  | none => exact .pure _
  | some timestamp => exact .bind (isAside_perform rfl) (fun _ => isAside_perform rfl)

theorem isAside_publishTags : IsAside (publishTags w s) := by
  rw [publishTags]
  cases w.tags .own with
  | none => exact .pure _
  | some timestamps => exact .bind (isAside_perform rfl) (fun _ => isAside_perform rfl)

theorem isAside_draw : IsAside (draw w) :=
  .bind (isAside_perform rfl) (fun _ => .ite (isAside_overlay _) (.pure _))

theorem isAside_copyTexture : IsAside (copyTexture w f) :=
  .bind (isAside_getColorData .own _) (fun p =>
    .ite (isAside_perform rfl) (.bind isAside_draw (fun _ => isAside_releaseColorData .own p.2)))

theorem isAside_updateCameraTexture : IsAside (updateCameraTexture w f) :=
  .ite (.pure _) (.bind isAside_copyTexture (fun _ => .pure _))

theorem alone_storeBusy (m : NodeMemory) (b : BusyFlag) (v : Bool) :
    (perform (.storeBusy b v)).alone m =
      some ((), { m with busy := Function.update m.busy b v }) :=
  Prog.run_perform _ _ _

theorem alone_exchangeBusy (m : NodeMemory) (b : BusyFlag) :
    (perform (.exchangeBusy b)).alone m =
      some (!m.busy b, { m with busy := Function.update m.busy b true }) :=
  Prog.run_perform _ _ _

theorem control_storeBusy {m₁ : NodeMemory} {v v' : Bool}
    (h : m₁.control = (m.repo, Function.update m.busy b v', m.isRendering)) :
    ({ m₁ with busy := Function.update m₁.busy b v } : NodeMemory).control =
      (m.repo, Function.update m.busy b v, m.isRendering) := by
  have hrepo : m₁.repo = m.repo := congrArg Prod.fst h
  have hbusy : m₁.busy = Function.update m.busy b v' := congrArg (fun x => x.2.1) h
  have hrendering : m₁.isRendering = m.isRendering := congrArg (fun x => x.2.2) h
  simp only [NodeMemory.control, hrepo, hbusy, hrendering, Function.update_idem]

/-- `spin` resets the busy flag only if it has set it. -/
theorem isAside_spin : IsAside (spin w b f) := by
  intro m
  rw [spin, Prog.leaves_bind]
  refine (isAside_getColorData .own _ m).mono (fun p m₁ h₁ => ?_)
  rw [← h₁]
  cases p.1 with
  | false => exact Prog.leaves_pure.mpr rfl
  | true =>
      rw [if_pos rfl, Prog.leaves_bind_of_run (alone_exchangeBusy m₁ b)]
      cases hb : m₁.busy b with
      | false =>
          rw [Bool.not_false, if_pos rfl, Prog.leaves_bind]
          refine (isAside_releaseColorData .own p.2 _).mono (fun _ m₂ h₂ => ?_)
          have hset : m₂.control = (m₁.repo, Function.update m₁.busy b true, m₁.isRendering) := h₂
          rw [Prog.leaves_bind_of_run (alone_storeBusy m₂ b false), Prog.leaves_pure,
            control_storeBusy hset, ← hb, Function.update_eq_self]
          rfl
      | true =>
          rw [Bool.not_true, if_neg Bool.false_ne_true, Prog.leaves_bind]
          refine (isAside_releaseColorData .own p.2 _).mono (fun _ m₂ h₂ => ?_)
          rw [Prog.leaves_pure, h₂, NodeMemory.control, ← hb, Function.update_eq_self]
          rfl

/-- A face detector's busy flag is free in the end. -/
theorem leaves_lookForFace {publish : NodeCall Unit} (hpublish : IsAside publish) (m : NodeMemory) :
    (lookForFace w b publish f).Leaves (fun i => NodeMemory.exec i) m (fun _ m' =>
      m'.control = (m.repo, Function.update m.busy b false, m.isRendering)) := by
  rw [lookForFace, Prog.leaves_bind_of_run (alone_storeBusy m b true), Prog.leaves_bind]
  refine (isAside_withColorData .own _ hpublish _).mono (fun _ m₁ h₁ => ?_)
  exact (Prog.leaves_of_run (alone_storeBusy m₁ b false)).mpr (control_storeBusy h₁)

end NodeCall

/-! ### Letting a frame go -/

namespace Repository

/-- Give a claim up and delete the frame. -/
def letGo (r : Repository) (u : Consumer) (k : Key) (f : FrameRef) : Repository :=
  (r.modifyInfo f (·.setFlag u false)).deleteFrame k

/-- The last look-up of the stereo detector; `none`: it never returns. -/
def letSecondGo (r : Repository) (camera2Id : CameraId) (s : SeqNo) (f : FrameRef) :
    Option Repository :=
  if camera2Id = noCamera then some r
  else (r.getFrame (camera2Id, s)).map (fun a =>
    match a with
    | none => r
    | some _ => r.letGo .detector (camera2Id, s) f)

variable {r r' : Repository} {u v : Consumer} {k j : Key} {f g : FrameRef} {c2 : CameraId}
  {s : SeqNo}

theorem getFrame_eq_some_some : r.getFrame k = some (some f) ↔
    r.frame k = some f ∧ 0 < (r.infos f).rgbaLen := by
  rw [getFrame]
  cases hf : r.frame k with
  | none => simp
  | some g =>
      change (if 0 < (r.infos g).rgbaLen then some (some g) else none) = some (some f) ↔ _
      constructor
      · intro h
        split_ifs at h with hlen
        cases h
        exact ⟨rfl, hlen⟩
      · rintro ⟨h, hlen⟩
        cases h
        rw [if_pos hlen]

/-- The call waits for the data of a frame that has none. -/
theorem getFrame_eq_none : r.getFrame k = none ↔
    ∃ g, r.frame k = some g ∧ (r.infos g).rgbaLen ≤ 0 := by
  rw [getFrame]
  cases hf : r.frame k with
  | none => simp
  | some g =>
      change (if 0 < (r.infos g).rgbaLen then some (some g) else none) = none ↔ _
      constructor
      · intro h
        split_ifs at h with hlen
        exact ⟨g, rfl, not_lt.mp hlen⟩
      · rintro ⟨g', h, hlen⟩
        cases h
        exact if_neg (not_lt.mpr hlen)

theorem infos_letGo : (r.letGo u k f).infos = (r.modifyInfo f (·.setFlag u false)).infos :=
  infos_deleteFrame _

theorem rgbaLen_letGo : ((r.letGo u k f).infos g).rgbaLen = (r.infos g).rgbaLen := by
  rw [infos_letGo, infos_modifyInfo]
  split_ifs with h
  · rw [h, FrameInfo.rgbaLen_setFlag]
  · rfl

theorem flag_letGo_self : ((r.letGo u k f).infos f).flag u = false := by
  rw [infos_letGo, infos_modifyInfo_self, FrameInfo.flag_setFlag, if_pos rfl]

theorem flag_letGo_of_ne (h : v ≠ u) : ((r.letGo u k f).infos f).flag v = (r.infos f).flag v := by
  rw [infos_letGo, infos_modifyInfo_self, FrameInfo.flag_setFlag, if_neg h]

theorem frame_of_frame_letGo (h : (r.letGo u k f).frame j = some g) : r.frame j = some g :=
  frame_of_frame_deleteFrame (r := r.modifyInfo f (·.setFlag u false)) h

/-- Only the frame named and the one its entry leads to can go. -/
theorem frame_deleteFrame_of_ne (hj : j ≠ k)
    (htwin : ∀ w, r.stereoFrames (pairHasher k) = some w → j ≠ w) :
    (r.deleteFrame k).frame j = r.frame j := by
  by_cases hl : r.lets FrameInfo.unclaimed k
  · cases ht : r.stereoFrames (pairHasher k) with
    | none => rw [deleteFrame_of_unpaired ht, frame_eraseIf_of_ne hj]
    | some w =>
        rw [deleteFrame_of_paired ht hl, frame_deleteStereoPair,
          frame_eraseIf_of_ne (htwin w ht), frame_eraseFrame_of_ne r hj]
  · rw [deleteFrame_of_not_lets hl]

theorem frame_letGo_of_ne (hj : j ≠ k)
    (htwin : ∀ w, r.stereoFrames (pairHasher k) = some w → j ≠ w) :
    (r.letGo u k f).frame j = r.frame j :=
  frame_deleteFrame_of_ne (r := r.modifyInfo f (·.setFlag u false)) hj htwin

/-- The frame is gone unless somebody else has claimed it. -/
theorem frame_letGo (hf : r.frame k = some f) (hfree : ∀ v, v ≠ u → (r.infos f).flag v = false) :
    (r.letGo u k f).frame k = none := by
  refine frame_deleteFrame_self ⟨f, hf, ?_⟩
  rw [infos_modifyInfo_self, FrameInfo.unclaimed_iff]
  intro v
  rw [FrameInfo.flag_setFlag]
  split_ifs with h
  · rfl
  · exact hfree v h

end Repository

namespace NodeCall

variable {w : World} {m m' : NodeMemory} {c c2 : CameraId} {s : SeqNo} {f : FrameRef}
  {u : Consumer} {use : FrameRef → NodeCall Unit} {busy : BusyFlag → Bool}

theorem alone_letGo (m : NodeMemory) (u : Consumer) (c : CameraId) (s : SeqNo) (f : FrameRef) :
    (letGo u c s f).alone m = some ((), { m with repo := m.repo.letGo u (c, s) f }) := by
  rw [letGo, alone_bind, alone_setFlag]
  exact alone_deleteFrame _ c s

theorem alone_consume (m : NodeMemory) (u : Consumer) (c : CameraId) (s : SeqNo)
    (use : FrameRef → NodeCall Unit) : (consume u c s use).alone m =
      (m.repo.getFrame (c, s)).bind (fun a => a.elim (some (s, m)) (fun f =>
        ((use f).alone m).map (fun q => (s, { q.2 with repo := q.2.repo.letGo u (c, s) f })))) := by
  rw [consume, alone_bind, alone_getFrame]
  cases m.repo.getFrame (c, s) with
  | none => rfl
  | some a =>
      cases a with
      | none => rfl
      | some f =>
          change (use f >>= _).alone m = _
          rw [alone_bind]
          change ((use f).alone m).bind _ = ((use f).alone m).map _
          cases (use f).alone m with
          | none => rfl
          | some q =>
              change (letGo u c s f >>= _).alone q.2 = _
              rw [alone_bind, alone_letGo]
              rfl

theorem alone_deleteSecond (m : NodeMemory) (c2 : CameraId) (s : SeqNo) (f : FrameRef) :
    (deleteSecond c2 s f).alone m =
      (m.repo.letSecondGo c2 s f).map (fun r => ((), { m with repo := r })) := by
  rw [deleteSecond, Repository.letSecondGo]
  split_ifs with hc
  · rfl
  · rw [alone_bind, alone_getFrame]
    cases m.repo.getFrame (c2, s) with
    | none => rfl
    | some a =>
        cases a with
        | none => rfl
        | some g => exact alone_letGo m .detector c2 s f

theorem leaves_consume (hf : m.repo.getFrame (c, s) = some (some f))
    (huse : (use f).Leaves (fun i => NodeMemory.exec i) m (fun _ m' =>
      m'.control = (m.repo, busy, m.isRendering))) :
    (consume u c s use).Leaves (fun i => NodeMemory.exec i) m (fun a m' =>
      a = s ∧ m'.control = (m.repo.letGo u (c, s) f, busy, m.isRendering)) := by
  have hget : (call (.getFrame c s)).alone m = some (some f, m) := by
    rw [alone_getFrame, hf]
    rfl
  rw [consume, Prog.leaves_bind_of_run hget, Prog.leaves_bind]
  refine huse.mono (fun _ m₁ h₁ => ?_)
  rw [Prog.leaves_bind_of_run (alone_letGo m₁ u c s f), Prog.leaves_pure]
  have hrepo : m₁.repo = m.repo := congrArg Prod.fst h₁
  have hrest : m₁.control.2 = (busy, m.isRendering) := congrArg Prod.snd h₁
  refine ⟨rfl, ?_⟩
  rw [← hrepo, ← hrest]
  rfl

theorem isAside_getFrame (c : CameraId) (s : SeqNo) : IsAside (call (.getFrame c s)) := by
  intro m a m' h
  rw [← alone, alone_getFrame] at h
  obtain ⟨b, -, hb⟩ := Option.map_eq_some_iff.mp h
  cases hb
  rfl

theorem isAside_lookAtTwin (env : JniEnv) : IsAside (lookAtTwin w c s env) := by
  have htwin : IsAside (call (.stereoTwin c s)) := by
    intro m a m' h
    rw [← alone, alone_stereoTwin] at h
    cases h
    rfl
  refine .bind htwin (fun twin => ?_)
  cases twin with
  | none => exact .pure _
  | some k =>
      refine .bind (isAside_getFrame k.1 k.2) (fun a => ?_)
      cases a with
      | none => exact .pure _
      | some f => exact .bind (isAside_withColorData .twin env (.pure _)) (fun _ => .pure _)

theorem leaves_aprilTagDetector (hf : m.repo.getFrame (c, s) = some (some f)) :
    (aprilTagDetector w c c2 s).Leaves (fun i => NodeMemory.exec i) m (fun a m' =>
      a = s ∧ (m.repo.letGo .detector (c, s) f).letSecondGo c2 s f = some m'.repo ∧
        m'.control.2 = (Function.update m.busy (.aprilTag c) false, m.isRendering)) := by
  have hget : (call (.getFrame c s)).alone m = some (some f, m) := by
    rw [alone_getFrame, hf]
    rfl
  rw [aprilTagDetector, Prog.leaves_bind_of_run hget,
    Prog.leaves_bind_of_run (alone_storeBusy m (.aprilTag c) true), Prog.leaves_bind]
  refine (isAside_withColorData .own _ (.pure _) _).mono (fun env m₁ h₁ => ?_)
  rw [Prog.leaves_bind]
  refine (isAside_publishTags _).mono (fun _ m₂ h₂ => ?_)
  rw [Prog.leaves_bind]
  refine (isAside_lookAtTwin env _).mono (fun _ m₃ h₃ => ?_)
  have hcontrol : m₃.control = (m.repo, Function.update m.busy (.aprilTag c) true,
      m.isRendering) := h₃.trans (h₂.trans h₁)
  have hrepo : m₃.repo = m.repo := congrArg Prod.fst hcontrol
  rw [Prog.leaves_bind_of_run (alone_letGo m₃ .detector c s f), Prog.leaves_bind, ← hrepo]
  intro _ m₄ h₄
  rw [← alone, alone_deleteSecond] at h₄
  obtain ⟨r, hr, he⟩ := Option.map_eq_some_iff.mp h₄
  cases he
  rw [Prog.leaves_bind_of_run (alone_storeBusy _ (.aprilTag c) false), Prog.leaves_pure]
  refine ⟨rfl, hr, ?_⟩
  exact congrArg Prod.snd (control_storeBusy hcontrol)

end NodeCall

end ARArch
