import ARArch.ColorData
import ARArch.ReleasedClaims
import ARArch.UnpairedFrames

/-!
# The frames that the stereo detector removes

The twin of a frame is looked up in the table of pairs, but the frame deleted at the end is the
one that the second camera has under the first camera's number. While the two cameras do not
number in step this is a third frame.
-/

namespace ARArch

open Atomic

/-- Whatever a run of the detector comes to, only frames of its own pair are gone. -/
def RemovesOnlyPair (c1 c2 : CameraId) (s s2 : SeqNo) (m : NodeMemory) : Prop :=
  ∀ w, ((Node.aprilTag c1 c2).program w s).Leaves (fun i => NodeMemory.exec i) m (fun _ m' =>
    ∀ j, j ≠ (c1, s) → j ≠ (c2, s2) → m'.repo.frame j = m.repo.frame j)

/-- The detector has its frame, does not wait for the twin, and finds a third frame under its own
number, which nobody has claimed but perhaps the detector itself. -/
def TakesThird (c1 c2 : CameraId) (s s2 : SeqNo) (r : Repository) : Prop :=
  c2 ≠ c1 ∧ s2 ≠ s ∧ ∃ f g, r.getFrame (c1, s) = some (some f) ∧ r.getFrame (c2, s2) ≠ none ∧
    r.getFrame (c2, s) = some (some g) ∧
    ((r.modifyInfo f (·.setFlag .detector false)).infos g).unclaimed = true

namespace Repository

variable {r r' : Repository} {k j : Key} {f g : FrameRef} {u : Consumer} {c2 : CameraId}
  {s : SeqNo}

theorem stereoFrames_of_letGo {x : ℕ} {w : Key}
    (h : (r.letGo u k f).stereoFrames x = some w) : r.stereoFrames x = some w :=
  stereoFrames_of_deleteFrame (r := r.modifyInfo f (·.setFlag u false)) h

/-- Taking a claim back twice is taking it back once. -/
theorem infos_letGo_twice : ((r.letGo u k f).modifyInfo f (·.setFlag u false)).infos g =
    (r.modifyInfo f (·.setFlag u false)).infos g := by
  rw [infos_modifyInfo, infos_letGo, infos_modifyInfo_self, infos_modifyInfo]
  split_ifs
  · cases u <;> rfl
  · rfl

end Repository

section Pair

variable {c1 c2 : CameraId} {s s2 : SeqNo} {r r' : Repository} {f g : FrameRef} {m : NodeMemory}
  {j : Key}

theorem frame_letGo_first (h12 : r.stereoFrames (pairHasher (c1, s)) = some (c2, s2))
    (h1 : j ≠ (c1, s)) (h2 : j ≠ (c2, s2)) :
    (r.letGo .detector (c1, s) f).frame j = r.frame j := by
  refine Repository.frame_letGo_of_ne h1 (fun w hw => ?_)
  rw [h12] at hw
  cases hw
  exact h2

/-- A third frame is found after the first deletion if and only if it was there before. -/
theorem getFrame_letGo_first (h12 : r.stereoFrames (pairHasher (c1, s)) = some (c2, s2))
    (hc : c2 ≠ c1) (hs : s2 ≠ s) :
    (r.letGo .detector (c1, s) f).getFrame (c2, s) = some (some g) ↔
      r.getFrame (c2, s) = some (some g) := by
  have h1 : (c2, s) ≠ (c1, s) := fun h => hc (Prod.mk.inj h).1
  have h2 : (c2, s) ≠ (c2, s2) := fun h => hs (Prod.mk.inj h).2.symm
  rw [Repository.getFrame_eq_some_some, Repository.getFrame_eq_some_some,
    frame_letGo_first h12 h1 h2, Repository.rgbaLen_letGo]

/-- The second deletion is of the pair too, or deletes nothing. -/
theorem frame_letGo_second (h12 : r.stereoFrames (pairHasher (c1, s)) = some (c2, s2))
    (h21 : r.stereoFrames (pairHasher (c2, s2)) = some (c1, s))
    (hf : r.getFrame (c1, s) = some (some f)) (htwin : r.getFrame (c2, s2) ≠ none)
    (hthird : ¬ TakesThird c1 c2 s s2 r)
    (hg : (r.letGo .detector (c1, s) f).getFrame (c2, s) = some (some g))
    (h1 : j ≠ (c1, s)) (h2 : j ≠ (c2, s2)) :
    ((r.letGo .detector (c1, s) f).letGo .detector (c2, s) f).frame j = r.frame j := by
  rw [← frame_letGo_first (f := f) h12 h1 h2]
  by_cases hc : c2 = c1
  · subst hc
    refine Repository.frame_letGo_of_ne h1 (fun w hw => ?_)
    rw [Repository.stereoFrames_of_letGo hw] at h12
    cases h12
    exact h2
  by_cases hs : s2 = s
  · subst hs
    refine Repository.frame_letGo_of_ne h2 (fun w hw => ?_)
    rw [Repository.stereoFrames_of_letGo hw] at h21
    cases h21
    exact h1
  have hg' := (getFrame_letGo_first h12 hc hs).mp hg
  have hclaimed : ¬ ((r.letGo .detector (c1, s) f).modifyInfo f
      (·.setFlag .detector false)).lets FrameInfo.unclaimed (c2, s) := by
    rintro ⟨g', hg'', hfree⟩
    have hsame : g' = g := by
      have := (Repository.getFrame_eq_some_some.mp hg).1
      rw [Repository.frame_modifyInfo, this] at hg''
      exact (Option.some.inj hg'').symm
    rw [hsame, Repository.infos_letGo_twice] at hfree
    exact hthird ⟨hc, hs, f, g, hf, htwin, hg', hfree⟩
  rw [Repository.letGo, Repository.deleteFrame_of_not_lets hclaimed, Repository.frame_modifyInfo]

theorem frame_letSecondGo_of_ne (h12 : r.stereoFrames (pairHasher (c1, s)) = some (c2, s2))
    (h21 : r.stereoFrames (pairHasher (c2, s2)) = some (c1, s))
    (hf : r.getFrame (c1, s) = some (some f)) (htwin : r.getFrame (c2, s2) ≠ none)
    (hthird : ¬ TakesThird c1 c2 s s2 r)
    (h : (r.letGo .detector (c1, s) f).letSecondGo c2 s f = some r') (h1 : j ≠ (c1, s))
    (h2 : j ≠ (c2, s2)) : r'.frame j = r.frame j := by
  rw [Repository.letSecondGo] at h
  split_ifs at h with hc
  · cases h
    exact frame_letGo_first h12 h1 h2
  · obtain ⟨a, ha, he⟩ := Option.map_eq_some_iff.mp h
    cases a with
    | none =>
        cases he
        exact frame_letGo_first h12 h1 h2
    | some g =>
        cases he
        exact frame_letGo_second h12 h21 hf htwin hthird ha h1 h2

/-- The third frame goes. -/
theorem frame_letSecondGo_third (h12 : r.stereoFrames (pairHasher (c1, s)) = some (c2, s2))
    (hcam : c2 ≠ noCamera) (hc : c2 ≠ c1) (hs : s2 ≠ s) (hg : r.getFrame (c2, s) = some (some g))
    (hfree : ((r.modifyInfo f (·.setFlag .detector false)).infos g).unclaimed = true) :
    ∃ r', (r.letGo .detector (c1, s) f).letSecondGo c2 s f = some r' ∧
      r'.frame (c2, s) = none := by
  have hg' := (getFrame_letGo_first (f := f) h12 hc hs).mpr hg
  refine ⟨(r.letGo .detector (c1, s) f).letGo .detector (c2, s) f, ?_, ?_⟩
  · rw [Repository.letSecondGo, if_neg hcam, hg']
    rfl
  · refine Repository.frame_deleteFrame_self ⟨g, ?_, ?_⟩
    · exact (Repository.getFrame_eq_some_some.mp hg').1
    · rw [Repository.infos_letGo_twice]
      exact hfree

/-- The stereo detector removes frames of its own pair only, unless it takes a third frame. -/
theorem removes_only_pair_iff (hcam : c2 ≠ noCamera)
    (h12 : m.repo.stereoFrames (pairHasher (c1, s)) = some (c2, s2))
    (h21 : m.repo.stereoFrames (pairHasher (c2, s2)) = some (c1, s)) :
    RemovesOnlyPair c1 c2 s s2 m ↔ ¬ TakesThird c1 c2 s s2 m.repo := by
  have htwinFrame : m.repo.twinFrame (c1, s) = m.repo.getFrame (c2, s2) := by
    rw [Repository.twinFrame, h12]
  constructor
  · rintro h ⟨hc, hs, f, g, hf, htwin, hg, hfree⟩
    -- nothing is found in either frame
    obtain ⟨m₁, hrepo₁, -, hrun₁⟩ := NodeCall.alone_aprilTagDetector c2 (w := {}) (n := 0) hf
      rfl
    obtain ⟨twin, ht⟩ := Option.ne_none_iff_exists'.mp htwin
    have ht₁ : m₁.repo.twinFrame (c1, s) = some twin := by rw [hrepo₁, htwinFrame, ht]
    obtain ⟨m₂, -, hrun₂⟩ := NodeCall.alone_afterTags c2 f (w := {}) (d := 0) ht₁
      rfl
    obtain ⟨r', hr', hgone⟩ := frame_letSecondGo_third (f := f) h12 hcam hc hs hg hfree
    rw [hrepo₁, hr'] at hrun₂
    rw [hrun₂] at hrun₁
    have hkeep := h {} _ _ hrun₁ (c2, s) (fun he => hc (Prod.mk.inj he).1)
      (fun he => hs (Prod.mk.inj he).2.symm)
    rw [(Repository.getFrame_eq_some_some.mp hg).1] at hkeep
    rw [hgone] at hkeep
    cases hkeep
  · intro hthird w
    cases hf : m.repo.getFrame (c1, s) with
    | none => exact Prog.leaves_of_run_none ((alone_program (.aprilTag c1 c2) w s m).1 hf)
    | some a =>
        cases a with
        | none =>
            exact (Prog.leaves_of_run ((alone_program (.aprilTag c1 c2) w s m).2 hf)).mpr
              (fun _ _ _ => rfl)
        | some f =>
            by_cases htwin : m.repo.getFrame (c2, s2) = none
            · rw [← htwinFrame] at htwin
              exact Prog.leaves_of_run_none (NodeCall.alone_aprilTagDetector_of_no_twin hf htwin)
            · refine (NodeCall.leaves_aprilTagDetector hf).mono ?_
              rintro a m' ⟨-, hr, -⟩ j h1 h2
              exact frame_letSecondGo_of_ne h12 h21 hf htwin hthird hr h1 h2

end Pair

/-- Camera 0 with frame 1, camera 1 with the frames 1 and 2; frame 1 of camera 0 is paired with
frame `s2` of camera 1. -/
def pairedFrames (s2 : SeqNo) : NodeMemory where
  repo :=
    ({ cameras := [0, 1]
       seqNumbers := (Table.empty.assign 0 1).assign 1 2
       cameraFrames := (Table.empty.assign 0 (Table.empty.assign 1 7)).assign 1
         ((Table.empty.assign 1 8).assign 2 9)
       infos := fun _ => { seqno := 1, rgbaLen := 4 } } : Repository).stereoPair (0, 1) (1, s2)

theorem removes_only_pair_iff_in_step : RemovesOnlyPair 0 1 1 1 (pairedFrames 1) :=
  (removes_only_pair_iff (by decide) rfl rfl).mpr (fun h => h.2.1 rfl)

/-- While the second camera is one number ahead its frame 1 goes, though frame 2 is the twin. -/
theorem aprilTagDetector_removes_third :
    (pairedFrames 2).repo.stereoFrames (pairHasher (0, 1)) = some (1, 2) ∧
      (pairedFrames 2).repo.stereoFrames (pairHasher (1, 2)) = some (0, 1) ∧
      ¬ RemovesOnlyPair 0 1 1 2 (pairedFrames 2) := by
  refine ⟨rfl, rfl, fun h => ?_⟩
  have hkeep := h {} _ _ rfl (1, 1) (by decide) (by decide)
  revert hkeep
  decide

end ARArch
