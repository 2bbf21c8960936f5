import ARArch.Requests

/-!
# What the calls change

The frames stored, the frame objects and the table of pairs after each call, read off the closed
forms. Every later module argues with these lemmas.
-/

namespace ARArch.Repository

variable {r : Repository} {k j : Key} {f g : FrameRef} {c d : CameraId} {s : SeqNo}
  {free : FrameInfo → Bool}

/-! ### Erasing -/

/-- The frame stored under a key passes the test `free`. -/
def lets (r : Repository) (free : FrameInfo → Bool) (k : Key) : Prop :=
  ∃ f, r.frame k = some f ∧ free (r.infos f) = true

theorem eraseIf_of_lets (h : r.lets free k) : r.eraseIf free k = r.eraseFrame k := by
  obtain ⟨f, hf, hb⟩ := h
  simp [eraseIf, hf, hb]

theorem eraseIf_of_not_lets (h : ¬ r.lets free k) : r.eraseIf free k = r := by
  unfold eraseIf
  cases hf : r.frame k with
  | none => rfl
  | some f =>
      have hb : ¬ free (r.infos f) = true := fun hb => h ⟨f, hf, hb⟩
      simp [hb]

@[simp] theorem infos_eraseIf (r : Repository) : (r.eraseIf free k).infos = r.infos := by
  by_cases h : r.lets free k
  · rw [eraseIf_of_lets h, infos_eraseFrame]
  · rw [eraseIf_of_not_lets h]

@[simp] theorem stereoFrames_eraseIf (r : Repository) :
    (r.eraseIf free k).stereoFrames = r.stereoFrames := by
  by_cases h : r.lets free k
  · rw [eraseIf_of_lets h, stereoFrames_eraseFrame]
  · rw [eraseIf_of_not_lets h]

@[simp] theorem cameras_eraseIf (r : Repository) : (r.eraseIf free k).cameras = r.cameras := by
  by_cases h : r.lets free k
  · rw [eraseIf_of_lets h, cameras_eraseFrame]
  · rw [eraseIf_of_not_lets h]

@[simp] theorem seqNumbers_eraseIf (r : Repository) :
    (r.eraseIf free k).seqNumbers = r.seqNumbers := by
  by_cases h : r.lets free k
  · rw [eraseIf_of_lets h]
    rfl
  · rw [eraseIf_of_not_lets h]

theorem frame_eraseIf_of_ne (h : j ≠ k) : (r.eraseIf free k).frame j = r.frame j := by
  by_cases hl : r.lets free k
  · rw [eraseIf_of_lets hl, frame_eraseFrame_of_ne r h]
  · rw [eraseIf_of_not_lets hl]

/-- A frame stays unless it is the one named and passes the test. -/
theorem frame_eraseIf :
    (r.eraseIf free k).frame j = some f ↔
      r.frame j = some f ∧ ¬ (j = k ∧ free (r.infos f) = true) := by
  by_cases hl : r.lets free k
  · obtain ⟨g, hg, hb⟩ := hl
    rw [eraseIf_of_lets ⟨g, hg, hb⟩, frame_eraseFrame]
    by_cases hj : j = k
    · subst hj
      have hn : ¬ (r.frame j = some f ∧ ¬ free (r.infos f) = true) := by
        rintro ⟨hf, hn⟩
        rw [hg] at hf
        cases hf
        exact hn hb
      simpa using hn
    · simp [hj]
  · rw [eraseIf_of_not_lets hl]
    constructor
    · intro hf
      refine ⟨hf, ?_⟩
      rintro ⟨rfl, hb⟩
      exact hl ⟨f, hf, hb⟩
    · exact And.left

/-! ### Forgetting a pair -/

@[simp] theorem frame_deleteStereoPair (r : Repository) :
    (r.deleteStereoPair k).frame j = r.frame j := by
  unfold deleteStereoPair
  cases r.stereoFrames (pairHasher k) <;> rfl

@[simp] theorem infos_deleteStereoPair (r : Repository) :
    (r.deleteStereoPair k).infos = r.infos := by
  unfold deleteStereoPair
  cases r.stereoFrames (pairHasher k) <;> rfl

/-- An entry left is an old one, of another key than the two of the pair. -/
theorem stereoFrames_deleteStereoPair {twin w : Key} {h : ℕ}
    (ht : r.stereoFrames (pairHasher k) = some twin) :
    (r.deleteStereoPair k).stereoFrames h = some w ↔
      h ≠ pairHasher k ∧ h ≠ pairHasher twin ∧ r.stereoFrames h = some w := by
  simp only [deleteStereoPair, ht, Table.erase_eq_some]
  tauto

theorem deleteStereoPair_of_none (h : r.stereoFrames (pairHasher k) = none) :
    r.deleteStereoPair k = r := by
  simp [deleteStereoPair, h]

/-! ### `delete_frame` -/

theorem deleteTwin_of_none (h : r.stereoFrames (pairHasher k) = none) : r.deleteTwin k = r := by
  simp [deleteTwin, h]

theorem deleteTwin_of_some {twin : Key} (h : r.stereoFrames (pairHasher k) = some twin) :
    r.deleteTwin k = (r.eraseIf FrameInfo.undetected twin).deleteStereoPair k := by
  simp [deleteTwin, h]

theorem deleteFrame_of_lets (h : r.lets FrameInfo.unclaimed k) :
    r.deleteFrame k = (r.eraseFrame k).deleteTwin k := by
  obtain ⟨f, hf, hu⟩ := h
  simp [deleteFrame, hf, hu]

theorem deleteFrame_of_not_lets (h : ¬ r.lets FrameInfo.unclaimed k) : r.deleteFrame k = r := by
  unfold deleteFrame
  cases hf : r.frame k with
  | none => rfl
  | some f =>
      have hu : ¬ (r.infos f).unclaimed = true := fun hu => h ⟨f, hf, hu⟩
      simp [hu]

/-- Deleting never puts a frame under a key. -/
theorem frame_of_frame_deleteTwin (h : (r.deleteTwin k).frame j = some f) :
    r.frame j = some f := by
  cases ht : r.stereoFrames (pairHasher k) with
  | none => rwa [deleteTwin_of_none ht] at h
  | some twin =>
      rw [deleteTwin_of_some ht, frame_deleteStereoPair, frame_eraseIf] at h
      exact h.1

theorem frame_of_frame_deleteFrame (h : (r.deleteFrame k).frame j = some f) :
    r.frame j = some f := by
  by_cases hl : r.lets FrameInfo.unclaimed k
  · rw [deleteFrame_of_lets hl] at h
    have h' := frame_of_frame_deleteTwin h
    rw [frame_eraseFrame] at h'
    split_ifs at h'
    exact h'
  · rwa [deleteFrame_of_not_lets hl] at h

theorem frame_deleteFrame_self (h : r.lets FrameInfo.unclaimed k) :
    (r.deleteFrame k).frame k = none := by
  rw [deleteFrame_of_lets h]
  by_contra hn
  obtain ⟨f, hf⟩ := Option.ne_none_iff_exists'.mp hn
  have hf' := frame_of_frame_deleteTwin hf
  rw [frame_eraseFrame_self] at hf'
  cases hf'

/-- A frame without an entry in the table of pairs goes alone. -/
theorem deleteFrame_of_unpaired (h : r.stereoFrames (pairHasher k) = none) :
    r.deleteFrame k = r.eraseIf FrameInfo.unclaimed k := by
  by_cases hl : r.lets FrameInfo.unclaimed k
  · rw [deleteFrame_of_lets hl, eraseIf_of_lets hl]
    exact deleteTwin_of_none h
  · rw [deleteFrame_of_not_lets hl, eraseIf_of_not_lets hl]

/-- A frame with an entry takes the entry's frame and the pair with it. -/
theorem deleteFrame_of_paired {twin : Key} (h : r.stereoFrames (pairHasher k) = some twin)
    (hl : r.lets FrameInfo.unclaimed k) :
    r.deleteFrame k =
      ((r.eraseFrame k).eraseIf FrameInfo.undetected twin).deleteStereoPair k := by
  have ht : (r.eraseFrame k).stereoFrames (pairHasher k) = some twin := h
  rw [deleteFrame_of_lets hl, deleteTwin_of_some ht]

@[simp] theorem infos_deleteFrame (r : Repository) : (r.deleteFrame k).infos = r.infos := by
  by_cases hl : r.lets FrameInfo.unclaimed k
  · cases ht : r.stereoFrames (pairHasher k) with
    | none => rw [deleteFrame_of_unpaired ht, infos_eraseIf]
    | some twin =>
        rw [deleteFrame_of_paired ht hl, infos_deleteStereoPair, infos_eraseIf, infos_eraseFrame]
  · rw [deleteFrame_of_not_lets hl]

/-- Deleting again finds nothing to delete. -/
theorem not_lets_deleteFrame (r : Repository) (k : Key) :
    ¬ (r.deleteFrame k).lets FrameInfo.unclaimed k := by
  by_cases hl : r.lets FrameInfo.unclaimed k
  · rintro ⟨f, hf, _⟩
    rw [frame_deleteFrame_self hl] at hf
    cases hf
  · rwa [deleteFrame_of_not_lets hl]

/-! ### `delete_all_frames` and `clear_queued` -/

theorem stereoFrames_foldl_eraseIf (cameras : List CameraId) (r : Repository) :
    (cameras.foldl (fun r c => r.eraseIf free (c, s)) r).stereoFrames = r.stereoFrames := by
  induction cameras generalizing r with
  | nil => rfl
  | cons c cameras ih => rw [List.foldl_cons, ih, stereoFrames_eraseIf]

theorem frame_foldl_eraseIf (cameras : List CameraId) (r : Repository) :
    (cameras.foldl (fun r c => r.eraseIf free (c, s)) r).frame j = some f ↔
      r.frame j = some f ∧ ¬ (j.1 ∈ cameras ∧ j.2 = s ∧ free (r.infos f) = true) := by
  induction cameras generalizing r with
  | nil => simp
  | cons c cameras ih =>
      rw [List.foldl_cons, ih, infos_eraseIf]
      have hj : j = (c, s) ↔ j.1 = c ∧ j.2 = s := Prod.ext_iff
      rw [frame_eraseIf, hj, List.mem_cons, and_assoc, ← not_or, and_assoc, ← or_and_right]

/-- A frame stays unless its camera is registered and neither detector nor tracker has it. -/
theorem frame_deleteAllFrames :
    (r.deleteAllFrames s).frame j = some f ↔ r.frame j = some f ∧
      ¬ (j.1 ∈ r.cameras ∧ j.2 = s ∧ (r.infos f).undetected = true) :=
  frame_foldl_eraseIf r.cameras r

@[simp] theorem stereoFrames_deleteAllFrames (r : Repository) :
    (r.deleteAllFrames s).stereoFrames = r.stereoFrames :=
  stereoFrames_foldl_eraseIf r.cameras r

theorem frame_clearQueued :
    (r.clearQueued c).frame j = if j.1 = c then none else r.frame j := by
  by_cases hc : j.1 = c
  · subst hc
    cases hm : r.cameraFrames j.1 <;> simp [frame, clearQueued, hm]
  · simp [frame, clearQueued, hc]

/-! ### Registering -/

theorem frame_registerFrame_self (r : Repository) (k : Key) (f : FrameRef) :
    (r.registerFrame k f).frame k = some ((r.frame k).getD f) := by
  cases hm : r.cameraFrames k.1 with
  | none => simp [frame, registerFrame, insertFrame, hm, Table.insert_of_none hm,
      Table.insert_self]
  | some frames => simp [frame, registerFrame, insertFrame, hm, Table.insert_of_some hm,
      Table.insert_self]

theorem frame_registerFrame_of_ne (r : Repository) (f : FrameRef) (h : j ≠ k) :
    (r.registerFrame k f).frame j = r.frame j := by
  rw [registerFrame, frame_insertFrame_of_ne _ f h]
  by_cases hc : j.1 = k.1
  · cases hm : r.cameraFrames j.1 with
    | none =>
        rw [hc] at hm
        simp [frame, hc, hm, Table.insert_of_none hm]
    | some frames =>
        rw [hc] at hm
        simp [frame, hc, hm, Table.insert_of_some hm]
  · simp [frame, hc]

/-- Registering leaves what is stored. -/
theorem frame_registerFrame_of_some (k : Key) (f : FrameRef) (h : r.frame j = some g) :
    (r.registerFrame k f).frame j = some g := by
  by_cases hj : j = k
  · rw [hj, frame_registerFrame_self, ← hj, h, Option.getD_some]
  · rw [frame_registerFrame_of_ne r f hj, h]

@[simp] theorem infos_registerFrame (r : Repository) (k : Key) (f : FrameRef) :
    (r.registerFrame k f).infos = r.infos := rfl

@[simp] theorem frame_nextSeqno (r : Repository) (c : CameraId) :
    (r.nextSeqno c).frame k = r.frame k := by
  unfold nextSeqno
  cases r.seqNumbers c <;> rfl

@[simp] theorem infos_nextSeqno (r : Repository) (c : CameraId) :
    (r.nextSeqno c).infos = r.infos := by
  unfold nextSeqno
  cases r.seqNumbers c <;> rfl

@[simp] theorem stereoFrames_nextSeqno (r : Repository) (c : CameraId) :
    (r.nextSeqno c).stereoFrames = r.stereoFrames := by
  unfold nextSeqno
  cases r.seqNumbers c <;> rfl

@[simp] theorem cameras_nextSeqno (r : Repository) (c : CameraId) :
    (r.nextSeqno c).cameras = r.cameras := by
  unfold nextSeqno
  cases r.seqNumbers c <;> rfl

/-- The counter of a camera: absent before the first number, then 0, then one more each time. -/
theorem seqNumbers_nextSeqno_self (r : Repository) (c : CameraId) :
    (r.nextSeqno c).seqNumbers c =
      some (match r.seqNumbers c with
        | none => 0
        | some n => n + 1) := by
  unfold nextSeqno
  cases hc : r.seqNumbers c <;> simp

theorem seqNumbers_nextSeqno_of_ne (r : Repository) (h : d ≠ c) :
    (r.nextSeqno c).seqNumbers d = r.seqNumbers d := by
  unfold nextSeqno
  cases hc : r.seqNumbers c <;> simp [h]

theorem frame_newFrame_self (r : Repository) (c : CameraId) (f : FrameRef) :
    (r.newFrame c f).frame (c, r.number c) =
      some ((r.frame (c, r.number c)).getD f) := by
  rw [newFrame, frame_registerFrame_self, setSeqno, frame_modifyInfo, frame_nextSeqno]

theorem frame_newFrame_of_ne (r : Repository) (f : FrameRef) (h : j ≠ (c, r.number c)) :
    (r.newFrame c f).frame j = r.frame j := by
  rw [newFrame, frame_registerFrame_of_ne _ _ h, setSeqno, frame_modifyInfo, frame_nextSeqno]

theorem frame_newFrame_of_some (c : CameraId) (f : FrameRef) (h : r.frame j = some g) :
    (r.newFrame c f).frame j = some g := by
  apply frame_registerFrame_of_some
  rw [setSeqno, frame_modifyInfo, frame_nextSeqno, h]

theorem frame_newStereoFrame_of_some (c1 c2 : CameraId) (f1 f2 : FrameRef)
    (h : r.frame j = some g) : (r.newStereoFrame c1 f1 c2 f2).frame j = some g := by
  apply frame_registerFrame_of_some
  apply frame_registerFrame_of_some
  rw [frame_nextSeqno, h]

@[simp] theorem stereoFrames_newStereoFrame (r : Repository) (c1 c2 : CameraId)
    (f1 f2 : FrameRef) : (r.newStereoFrame c1 f1 c2 f2).stereoFrames = r.stereoFrames :=
  stereoFrames_nextSeqno r c1

theorem infos_newFrame (r : Repository) (c : CameraId) (f g : FrameRef) :
    (r.newFrame c f).infos g =
      if g = f then { r.infos f with seqno := r.number c } else r.infos g := by
  rw [newFrame, infos_registerFrame, setSeqno, infos_modifyInfo, infos_nextSeqno]

@[simp] theorem stereoFrames_newFrame (r : Repository) (c : CameraId) (f : FrameRef) :
    (r.newFrame c f).stereoFrames = r.stereoFrames :=
  stereoFrames_nextSeqno r c

@[simp] theorem cameras_newFrame (r : Repository) (c : CameraId) (f : FrameRef) :
    (r.newFrame c f).cameras = r.cameras :=
  cameras_nextSeqno r c

theorem seqNumbers_newFrame (r : Repository) (c : CameraId) (f : FrameRef) :
    (r.newFrame c f).seqNumbers = (r.nextSeqno c).seqNumbers := rfl

@[simp] theorem frame_addCamera (r : Repository) (c : CameraId) :
    (r.addCamera c).2.frame k = r.frame k := by
  unfold addCamera
  split_ifs <;> rfl

@[simp] theorem stereoFrames_addCamera (r : Repository) (c : CameraId) :
    (r.addCamera c).2.stereoFrames = r.stereoFrames := by
  unfold addCamera
  split_ifs <;> rfl

@[simp] theorem frame_hardwareAddCamera (r : Repository) (c : CameraId) :
    (r.hardwareAddCamera c).2.frame k = r.frame k := by
  unfold hardwareAddCamera
  split_ifs <;> simp

@[simp] theorem stereoFrames_hardwareAddCamera (r : Repository) (c : CameraId) :
    (r.hardwareAddCamera c).2.stereoFrames = r.stereoFrames := by
  unfold hardwareAddCamera
  split_ifs <;> simp

/-! ### Pairing -/

theorem stereoFrames_stereoPair (r : Repository) (k1 k2 : Key) (h : ℕ) :
    (r.stereoPair k1 k2).stereoFrames h =
      if h = pairHasher k2 then some k1
      else if h = pairHasher k1 then some k2
      else r.stereoFrames h := by
  simp only [stereoPair, linkTwin, Table.assign_apply]

end ARArch.Repository
