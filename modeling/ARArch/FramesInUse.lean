import ARArch.CallEffects

/-!
# Frames in use

Whether the calls that remove frames leave a claimed frame where it is. `delete_frame` tests all
three claim flags of the frame it is asked for. The stereo twin that goes with it, and the frames
removed by `delete_all_frames`, are tested for detection and tracking only, so that a frame which
is being rendered can be removed.
-/

namespace ARArch

namespace Repository

/-- Every claimed frame stored in `r` is stored under the same key in `r'`. -/
def KeepsFramesInUse (r r' : Repository) : Prop :=
  ∀ k f u, r.frame k = some f → (r.infos f).flag u = true → r'.frame k = some f

/-- The frame under `k` is claimed by the renderer and by nobody else. -/
def rendersOnly (r : Repository) (k : Key) : Prop :=
  ∃ f, r.frame k = some f ∧ (r.infos f).undetected = true ∧ (r.infos f).isRendering = true

variable {r : Repository} {k : Key}

theorem KeepsFramesInUse.refl : r.KeepsFramesInUse r := fun _ _ _ hf _ => hf

/-- A test that spares every claimed frame. -/
theorem keeps_eraseIf {free : FrameInfo → Bool}
    (h : ∀ f, r.frame k = some f → free (r.infos f) = true → (r.infos f).unclaimed = true) :
    r.KeepsFramesInUse (r.eraseIf free k) := by
  intro j f u hf hu
  rw [frame_eraseIf]
  refine ⟨hf, ?_⟩
  rintro ⟨rfl, hb⟩
  have hn := (FrameInfo.unclaimed_iff _).mp (h f hf hb) u
  rw [hu] at hn
  cases hn

/-- The two-flag test spares the claimed frame under a key unless it is only rendered. -/
theorem keeps_eraseIf_undetected (h : ¬ r.rendersOnly k) :
    r.KeepsFramesInUse (r.eraseIf FrameInfo.undetected k) := by
  apply keeps_eraseIf
  intro f hf hd
  by_contra hn
  rw [Bool.not_eq_true, FrameInfo.not_unclaimed_iff] at hn
  obtain ⟨u, hu⟩ := hn
  exact h ⟨f, hf, hd, FrameInfo.rendering_of_undetected hd hu⟩

theorem not_keeps_of_erased {r' : Repository} (h : r.rendersOnly k) (hr : r'.frame k = none) :
    ¬ r.KeepsFramesInUse r' := by
  obtain ⟨f, hf, _, hi⟩ := h
  intro hk
  have hf' := hk k f .renderer hf hi
  rw [hr] at hf'
  cases hf'

/-- What makes `delete_frame` remove a frame in use: it removes the frame it is asked for, and
the twin recorded for that frame is being rendered only. -/
def takesRenderedTwin (r : Repository) (k : Key) : Prop :=
  r.lets FrameInfo.unclaimed k ∧
    ∃ twin, r.stereoFrames (pairHasher k) = some twin ∧ r.rendersOnly twin

theorem keeps_deleteFrame_iff :
    r.KeepsFramesInUse (r.deleteFrame k) ↔ ¬ r.takesRenderedTwin k := by
  have hself : r.KeepsFramesInUse (r.eraseIf FrameInfo.unclaimed k) :=
    keeps_eraseIf (fun _ _ hu => hu)
  by_cases hl : r.lets FrameInfo.unclaimed k
  · cases ht : r.stereoFrames (pairHasher k) with
    | none =>
        rw [deleteFrame_of_unpaired ht]
        simpa [takesRenderedTwin, ht] using hself
    | some twin =>
        rw [eraseIf_of_lets hl] at hself
        have hne : r.rendersOnly twin → twin ≠ k := by
          rintro ⟨g, hg, _, hi⟩ rfl
          obtain ⟨f, hf, hu⟩ := hl
          rw [hg] at hf
          cases hf
          have hn := (FrameInfo.unclaimed_iff _).mp hu .renderer
          rw [FrameInfo.flag, hi] at hn
          cases hn
        rw [deleteFrame_of_paired ht hl]
        constructor
        · rintro hk ⟨_, twin', ht', hro⟩
          rw [ht] at ht'
          cases ht'
          refine not_keeps_of_erased hro ?_ hk
          obtain ⟨g, hg, hd, _⟩ := hro
          have hg' : (r.eraseFrame k).frame twin = some g := by
            rw [frame_eraseFrame_of_ne r (hne ⟨g, hg, hd, ‹_›⟩), hg]
          rw [frame_deleteStereoPair, eraseIf_of_lets ⟨g, hg', hd⟩, frame_eraseFrame_self]
        · intro hn j f u hf hu
          have hro : ¬ (r.eraseFrame k).rendersOnly twin := by
            rintro ⟨g, hg, hd, hi⟩
            rw [frame_eraseFrame] at hg
            split_ifs at hg
            exact hn ⟨hl, twin, ht, g, hg, hd, hi⟩
          rw [frame_deleteStereoPair]
          exact keeps_eraseIf_undetected hro j f u (hself j f u hf hu) hu
  · rw [deleteFrame_of_not_lets hl]
    exact ⟨fun _ h => hl h.1, fun _ => .refl⟩

/-- What makes `delete_all_frames` remove a frame in use. -/
def takesRenderedFrame (r : Repository) (s : SeqNo) : Prop :=
  ∃ c ∈ r.cameras, r.rendersOnly (c, s)

theorem keeps_deleteAllFrames_iff (s : SeqNo) :
    r.KeepsFramesInUse (r.deleteAllFrames s) ↔ ¬ r.takesRenderedFrame s := by
  constructor
  · rintro hk ⟨c, hc, f, hf, hd, hi⟩
    have hf' := hk (c, s) f .renderer hf hi
    rw [frame_deleteAllFrames] at hf'
    exact hf'.2 ⟨hc, rfl, hd⟩
  · intro hn k f u hf hu
    rw [frame_deleteAllFrames]
    refine ⟨hf, ?_⟩
    rintro ⟨hc, hs, hd⟩
    have hk : k = (k.1, s) := Prod.ext rfl hs
    rw [hk] at hf
    exact hn ⟨k.1, hc, f, hf, hd, FrameInfo.rendering_of_undetected hd hu⟩

end Repository

/-- The calls that may remove frames. -/
def Request.removes : Request → Bool
  | .deleteFrame _ _ | .deleteAllFrames _ | .getFrame _ _ => true
  | _ => false

/-- The request removes a frame that only the renderer has claimed. -/
def Repository.losesRendered (r : Repository) : Request → Prop
  | .deleteFrame c s => r.takesRenderedTwin (c, s)
  | .deleteAllFrames s => r.takesRenderedFrame s
  | _ => False

/-- A removing call keeps every frame in use, if it returns at all, exactly when it does not
come across a frame that only the renderer has claimed. -/
theorem keeps_frames_in_use_iff (r : Repository) (q : Request) (hq : q.removes = true) :
    (∀ a r', r.respond q = some (a, r') → r.KeepsFramesInUse r') ↔ ¬ r.losesRendered q := by
  rw [Repository.respond_eq]
  cases q with
  | deleteFrame c s =>
      simpa [Request.effect, Repository.losesRendered] using Repository.keeps_deleteFrame_iff
  | deleteAllFrames s =>
      simpa [Request.effect, Repository.losesRendered] using Repository.keeps_deleteAllFrames_iff s
  | getFrame c s =>
      simp only [Request.effect, Repository.losesRendered, not_false_iff, iff_true]
      intro a r' h
      obtain ⟨b, _, hb⟩ := Option.map_eq_some_iff.mp h
      cases hb
      exact .refl
  | _ => cases hq

/-- Frames 0 and 1 of two cameras under number 1, a stereo pair, frame 1 being rendered. -/
def renderedTwin : Repository where
  cameras := [0, 1]
  cameraFrames := fun c =>
    if c = 0 then some (Table.empty.assign 1 0)
    else if c = 1 then some (Table.empty.assign 1 1) else none
  stereoFrames := (Table.empty.assign 1 (1, 1)).assign 0 (0, 1)
  infos := fun f => { seqno := 1, rgbaLen := 4, isRendering := f = 1 }

theorem keeps_frames_in_use_iff_renderedTwin :
    (∀ a r', renderedTwin.respond (.getFrame 0 1) = some (a, r') →
      renderedTwin.KeepsFramesInUse r') ↔ ¬ renderedTwin.losesRendered (.getFrame 0 1) :=
  keeps_frames_in_use_iff renderedTwin (.getFrame 0 1) rfl

/-- Deleting frame 0, which nobody has claimed, removes frame 1. -/
theorem deleteFrame_removes_rendered_twin :
    ∃ r', renderedTwin.respond (.deleteFrame 0 1) = some ((), r') ∧
      ¬ renderedTwin.KeepsFramesInUse r' := by
  refine ⟨renderedTwin.deleteFrame (0, 1), Repository.respond_eq _ _, ?_⟩
  have hro : renderedTwin.rendersOnly (1, 1) := ⟨1, by decide, by decide, by decide⟩
  exact Repository.not_keeps_of_erased hro (by decide)

end ARArch
