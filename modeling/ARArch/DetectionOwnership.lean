import ARArch.Detections
import ARArch.Places

/-!
# Bounding boxes have one owner

A bounding box is in a list of the map of tags, in the map of faces, among the tags or the face
that the renderer keeps, or it has been deleted. The renderer moves all the boxes of one of these
places at a time, and draws what it keeps afterwards.
-/

namespace ARArch

inductive BoxPlace
  | aprilTags (seqno : ℕ)
  | faceDetections (seqno : ℕ)
  | lastAprilTags
  | lastFace
  | deleted
  deriving DecidableEq

namespace Detections

def boxesAt (d : Detections) : Holdings BoxPlace ℕ
  | .aprilTags seqno => ((d.aprilTags seqno).getD []).map (·.ref)
  | .faceDetections seqno => (d.faceDetections seqno).toList.map (·.ref)
  | .lastAprilTags => d.lastAprilTags.map (·.ref)
  | .lastFace => d.lastFace.toList.map (·.ref)
  | .deleted => d.deleted

/-- Every box that was made is in one place at most. -/
structure Owned (d : Detections) : Prop where
  apart : d.boxesAt.Apart
  made : ∀ p, ∀ ref ∈ d.boxesAt p, ref < d.made

variable {d d' : Detections} {p q : BoxPlace} {seqno : ℕ} {now : ℤ} {L : List DetectedBoundingBox}

theorem Owned.start : ({} : Detections).Owned where
  apart := .nowhere (fun p => by cases p <;> rfl)
  made p ref h := by cases p <;> cases h

theorem Owned.move (h : d.Owned) (hmade : d'.made = d.made)
    (hmove : d'.boxesAt = d.boxesAt.move p q) : d'.Owned where
  apart := by
    rw [hmove]
    exact h.apart.move p q
  made r ref hr := by
    rw [hmove] at hr
    obtain ⟨r', hr'⟩ := Holdings.exists_mem_of_mem_move hr
    rw [hmade]
    exact h.made r' ref hr'

/-- Boxes that are made take the next references. -/
theorem Owned.put {n : ℕ} (h : d.Owned) (hmade : d'.made = d.made + n)
    (hput : d'.boxesAt = d.boxesAt.put p (List.range' d.made n)) : d'.Owned where
  apart := by
    rw [hput]
    refine h.apart.put p List.nodup_range' ?_
    intro ref href r hr
    have hold : ref < d.made := h.made r ref hr
    have hnew : d.made ≤ ref := (List.mem_range'_1.mp href).1
    omega
  made r ref hr := by
    rw [hput] at hr
    rw [hmade]
    rcases Holdings.mem_put.mp hr with ⟨-, hnew⟩ | hold
    · exact (List.mem_range'_1.mp hnew).2
    · have hlt : ref < d.made := h.made r ref hold
      omega

/-- A number that is in a map already keeps its boxes; the new ones are nowhere. -/
theorem Owned.lose (h : d.Owned) (hmade : d.made ≤ d'.made) (heq : d'.boxesAt = d.boxesAt) :
    d'.Owned where
  apart := by
    rw [heq]
    exact h.apart
  made p ref hp := by
    rw [heq] at hp
    have hlt : ref < d.made := h.made p ref hp
    omega

/-! ### Publications -/

theorem newBoxes_refs (timestamps : List ℤ) :
    (d.newBoxes seqno timestamps).map (·.ref) = List.range' d.made timestamps.length := by
  apply List.ext_getElem
  · rw [List.length_map, newBoxes, List.length_mapIdx, List.length_range']
  · intro i hi hi'
    simp [newBoxes]

theorem Owned.insertAprilTags (h : d.Owned) (seqno : ℕ) (timestamps : List ℤ) :
    (d.insertAprilTags seqno timestamps).Owned := by
  cases hentry : d.aprilTags seqno with
  | some L =>
      refine h.lose (Nat.le_add_right _ _) ?_
      unfold Detections.insertAprilTags
      rw [Table.insert_of_some hentry]
      rfl
  | none =>
      refine Owned.put (p := .aprilTags seqno) h rfl (Holdings.eq_put ?_ ?_)
      · simp only [boxesAt, Detections.insertAprilTags, Table.insert_self, hentry]
        rw [← newBoxes_refs timestamps]
        exact (List.append_nil _).symm
      · intro q hq
        cases q with
        | aprilTags n =>
            have hn : n ≠ seqno := by
              rintro rfl
              exact hq rfl
            simp only [boxesAt, Detections.insertAprilTags, Table.insert_of_ne _ _ hn]
        | faceDetections n => rfl
        | lastAprilTags => rfl
        | lastFace => rfl
        | deleted => rfl

theorem Owned.insertFaceDetection (h : d.Owned) (seqno : ℕ) (timestamp : ℤ) :
    (d.insertFaceDetection seqno timestamp).Owned := by
  cases hentry : d.faceDetections seqno with
  | some bb =>
      refine h.lose (Nat.le_add_right _ _) ?_
      unfold Detections.insertFaceDetection
      rw [Table.insert_of_some hentry]
      rfl
  | none =>
      refine Owned.put (p := .faceDetections seqno) h rfl (Holdings.eq_put ?_ ?_)
      · simp only [boxesAt, Detections.insertFaceDetection, Table.insert_self, hentry]
        rfl
      · intro q hq
        cases q with
        | aprilTags n => rfl
        | faceDetections n =>
            have hn : n ≠ seqno := by
              rintro rfl
              exact hq rfl
            simp only [boxesAt, Detections.insertFaceDetection, Table.insert_of_ne _ _ hn]
        | lastAprilTags => rfl
        | lastFace => rfl
        | deleted => rfl

/-! ### What a draw does -/

theorem Owned.setRecent (h : d.Owned) (k : DetectionKind) (recent : List ℕ) :
    (d.setRecent k recent).Owned :=
  h.lose le_rfl rfl

theorem Owned.deleteLastTags (h : d.Owned) : d.deleteLastTags.Owned := by
  refine Owned.move (p := .lastAprilTags) (q := .deleted) h rfl
    (Holdings.eq_move nofun rfl rfl ?_)
  intro r hr hr'
  cases r with
  | aprilTags n => rfl
  | faceDetections n => rfl
  | lastAprilTags => exact absurd rfl hr
  | lastFace => rfl
  | deleted => exact absurd rfl hr'

theorem Owned.deleteLastFace (h : d.Owned) : d.deleteLastFace.Owned := by
  refine Owned.move (p := .lastFace) (q := .deleted) h rfl
    (Holdings.eq_move nofun rfl rfl ?_)
  intro r hr hr'
  cases r with
  | aprilTags n => rfl
  | faceDetections n => rfl
  | lastAprilTags => rfl
  | lastFace => exact absurd rfl hr
  | deleted => exact absurd rfl hr'

/-- The boxes of a list that is shown move from the map to what the renderer keeps. -/
theorem Owned.keepTags (h : d.Owned) (hL : d.aprilTags seqno = some L)
    (hlast : d.lastAprilTags = []) (t : ℤ) :
    ({ d with
      lastAprilTagTime := t
      lastAprilTags := L
      aprilTags := d.aprilTags.erase seqno } : Detections).Owned := by
  refine Owned.move (p := .aprilTags seqno) (q := .lastAprilTags) h rfl
    (Holdings.eq_move nofun ?_ ?_ ?_)
  · simp only [boxesAt, Table.erase_self]
    rfl
  · simp only [boxesAt, hL, hlast]
    exact (List.append_nil _).symm
  · intro r hr hr'
    cases r with
    | aprilTags n =>
        have hn : n ≠ seqno := by
          rintro rfl
          exact hr rfl
        simp only [boxesAt, Table.erase_of_ne _ hn]
    | faceDetections n => rfl
    | lastAprilTags => exact absurd rfl hr'
    | lastFace => rfl
    | deleted => rfl

theorem Owned.deleteStale (h : d.Owned) (hL : d.aprilTags seqno = some L) :
    ({ d.delete L with aprilTags := d.aprilTags.assign seqno [] } : Detections).Owned := by
  refine Owned.move (p := .aprilTags seqno) (q := .deleted) h rfl
    (Holdings.eq_move nofun ?_ ?_ ?_)
  · simp only [boxesAt, Table.assign_self]
    rfl
  · simp only [boxesAt, hL]
    rfl
  · intro r hr hr'
    cases r with
    | aprilTags n =>
        have hn : n ≠ seqno := by
          rintro rfl
          exact hr rfl
        simp only [boxesAt, Table.assign_of_ne _ _ hn]
    | faceDetections n => rfl
    | lastAprilTags => rfl
    | lastFace => rfl
    | deleted => exact absurd rfl hr'

theorem Owned.keepFace {bb : DetectedBoundingBox} (h : d.Owned)
    (hbb : d.faceDetections seqno = some bb) (hlast : d.lastFace = none) (t : ℤ) :
    ({ d with
      lastFace := some bb
      lastFaceTime := t
      faceDetections := d.faceDetections.erase seqno } : Detections).Owned := by
  refine Owned.move (p := .faceDetections seqno) (q := .lastFace) h rfl
    (Holdings.eq_move nofun ?_ ?_ ?_)
  · simp only [boxesAt, Table.erase_self]
    rfl
  · simp only [boxesAt, hbb, hlast]
    rfl
  · intro r hr hr'
    cases r with
    | aprilTags n => rfl
    | faceDetections n =>
        have hn : n ≠ seqno := by
          rintro rfl
          exact hr rfl
        simp only [boxesAt, Table.erase_of_ne _ hn]
    | lastAprilTags => rfl
    | lastFace => exact absurd rfl hr'
    | deleted => rfl

/-- The tags that are drawn are those that the renderer keeps afterwards. -/
theorem Owned.drawAprilTags (h : d.Owned) (now : ℤ) :
    (d.drawAprilTags now).2.Owned ∧
      ∀ box ∈ (d.drawAprilTags now).1.drawn, box ∈ (d.drawAprilTags now).2.lastAprilTags := by
  have hcleared : d.deleteLastTags.Owned := h.deleteLastTags
  unfold Detections.drawAprilTags
  split_ifs with htime
  · cases hpop : popLargest (d.recent .aprilTag) with
    | none => exact ⟨hcleared, fun _ hbox => absurd hbox List.not_mem_nil⟩
    | some popped =>
        obtain ⟨lastSeq, rest⟩ := popped
        have hpopped := hcleared.setRecent .aprilTag rest
        dsimp only
        cases hL : d.aprilTags lastSeq with
        | none => exact ⟨hpopped, fun _ hbox => absurd hbox List.not_mem_nil⟩
        | some L =>
            dsimp only
            unfold showTags
            split_ifs with hfresh
            · exact ⟨hpopped.keepTags hL rfl _, fun box hbox => hbox⟩
            · exact ⟨hpopped.deleteStale hL, fun _ hbox => absurd hbox List.not_mem_nil⟩
  · exact ⟨h, fun box hbox => hbox⟩

theorem Owned.drawFaces (h : d.Owned) (now : ℤ) :
    (d.drawFaces now).2.Owned ∧ (d.drawFaces now).2.lastAprilTags = d.lastAprilTags ∧
      ∀ box ∈ (d.drawFaces now).1.drawn, (d.drawFaces now).2.lastFace = some box := by
  have hcleared : d.deleteLastFace.Owned := h.deleteLastFace
  unfold Detections.drawFaces
  split_ifs with htime
  · cases hpop : popLargest (d.recent .face) with
    | none => exact ⟨hcleared, rfl, fun _ hbox => absurd hbox List.not_mem_nil⟩
    | some popped =>
        obtain ⟨lastSeq, rest⟩ := popped
        have hpopped := hcleared.setRecent .face rest
        dsimp only
        cases hbb : d.faceDetections lastSeq with
        | none => exact ⟨hpopped, rfl, fun _ hbox => absurd hbox List.not_mem_nil⟩
        | some bb =>
            refine ⟨hpopped.keepFace hbb rfl _, rfl, ?_⟩
            intro box hbox
            rw [List.mem_singleton.mp hbox]
  · refine ⟨h, rfl, ?_⟩
    intro box hbox
    exact Option.mem_toList.mp hbox

/-- What is drawn is kept, as tags or as a face. -/
theorem Owned.draw (h : d.Owned) (c : RendererOptions) (now faceNow : ℤ) :
    (d.draw c now faceNow).2.Owned ∧
      ∀ box ∈ (d.draw c now faceNow).1.drawn,
        box ∈ (d.draw c now faceNow).2.lastAprilTags ∨
          (d.draw c now faceNow).2.lastFace = some box := by
  obtain ⟨isAprilTags, isBB⟩ := c
  have htags : ∀ d' shown, (if isAprilTags then d.drawAprilTags now else ({}, d)) = (shown, d') →
      d'.Owned ∧ ∀ box ∈ shown.drawn, box ∈ d'.lastAprilTags := by
    intro d' shown heq
    split_ifs at heq
    · have hdraw := h.drawAprilTags now
      rw [heq] at hdraw
      exact hdraw
    · cases heq
      exact ⟨h, nofun⟩
  unfold Detections.draw
  dsimp only
  cases hp : (if isAprilTags then d.drawAprilTags now else ({}, d)) with
  | mk shown d' =>
      obtain ⟨howned, hdrawn⟩ := htags d' shown hp
      dsimp only
      cases isBB with
      | false =>
          refine ⟨howned, ?_⟩
          intro box hbox
          rcases List.mem_append.mp hbox with htag | hface
          · exact .inl (hdrawn box htag)
          · cases hface
      | true =>
          obtain ⟨howned', hsame, hface⟩ := howned.drawFaces faceNow
          refine ⟨howned', ?_⟩
          intro box hbox
          rcases List.mem_append.mp hbox with htag | hbox
          · refine .inl ?_
            exact hsame ▸ hdrawn box htag
          · exact .inr (hface box hbox)

theorem Owned.respond {c : RendererOptions} {q : DetectionRequest} {a : q.Ans} (h : d.Owned)
    (hq : Detections.respond c q d = some (a, d')) : d'.Owned := by
  cases q with
  | insertAprilTags seqno timestamps =>
      cases hq
      exact h.insertAprilTags seqno timestamps
  | insertFaceDetection seqno timestamp =>
      cases hq
      exact h.insertFaceDetection seqno timestamp
  | push k seqno =>
      cases hq
      exact h.setRecent k _
  | draw now faceNow =>
      cases hq
      exact (h.draw c now faceNow).1

theorem Owned.of_session {c : RendererOptions}
    {ok : List (Done DetectionRequest DetectionRequest.Ans) → Detections → DetectionRequest → Prop}
    {done : List (Done DetectionRequest DetectionRequest.Ans)}
    (h : Session (Detections.respond c) ok {} done d) : d.Owned := by
  refine Session.invariant (I := fun _ d => d.Owned) .start ?_ h
  intro done d q a d' howned _ hq
  exact howned.respond hq

/-- A box that the renderer keeps is not deleted. -/
theorem Owned.kept_not_deleted {box : DetectedBoundingBox} (h : d.Owned)
    (hbox : box ∈ d.lastAprilTags ∨ d.lastFace = some box) : box.ref ∉ d.deleted := by
  intro hdeleted
  rcases hbox with htag | hface
  · have hmem : box.ref ∈ d.boxesAt .lastAprilTags := List.mem_map_of_mem htag
    cases h.apart.place_eq .lastAprilTags .deleted box.ref hmem hdeleted
  · have hmem : box.ref ∈ d.boxesAt .lastFace :=
      List.mem_map_of_mem (Option.mem_toList.mpr hface)
    cases h.apart.place_eq .lastFace .deleted box.ref hmem hdeleted

end Detections

/-- In every run each box is deleted once at most, and a draw from the state reached draws no box
that has been deleted by its end. -/
theorem boxes_freed_once (c : RendererOptions)
    (ok : List (Done DetectionRequest DetectionRequest.Ans) → Detections → DetectionRequest → Prop)
    (done : List (Done DetectionRequest DetectionRequest.Ans)) (d : Detections)
    (h : Session (Detections.respond c) ok {} done d) :
    d.deleted.Nodup ∧ ∀ now faceNow, ∀ box ∈ (d.draw c now faceNow).1.drawn,
      box.ref ∉ (d.draw c now faceNow).2.deleted := by
  have howned : d.Owned := .of_session h
  refine ⟨howned.apart.nodup .deleted, ?_⟩
  intro now faceNow box hbox
  obtain ⟨howned', hkept⟩ := howned.draw c now faceNow
  exact howned'.kept_not_deleted (hkept box hbox)

/-- Two tags are shown until they are too old and a third has been found. -/
theorem boxes_freed_once_three :
    ∃ d : Detections, d.deleted = [0, 1] ∧ d.lastAprilTags = [⟨2, 2, 1300000000⟩] ∧
      d.deleted.Nodup ∧ ∀ now faceNow, ∀ box ∈ (d.draw ⟨true, true⟩ now faceNow).1.drawn,
        box.ref ∉ (d.draw ⟨true, true⟩ now faceNow).2.deleted := by
  have hrun : (Session.replay (Detections.respond ⟨true, true⟩) (fun _ _ _ => True)
      [.insertAprilTags 1 [1000000000, 1000000001], .push .aprilTag 1,
        .draw 1100000000 1100000000, .draw 1200000000 1200000000,
        .insertAprilTags 2 [1300000000], .push .aprilTag 2,
        .draw 1350000000 1350000000] [] {}).any
      (fun s => s.2.deleted = [0, 1] ∧ s.2.lastAprilTags = [⟨2, 2, 1300000000⟩]) = true := by
    decide
  obtain ⟨⟨done, d⟩, hs, hres⟩ := (Option.any_eq_true _ _).mp hrun
  obtain ⟨hdeleted, hkept⟩ := of_decide_eq_true hres
  exact ⟨d, hdeleted, hkept, boxes_freed_once _ _ _ _ (Session.of_replay _ .start hs)⟩

end ARArch
