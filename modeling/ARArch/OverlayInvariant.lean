import ARArch.FaceOverlays

/-!
# Which overlays the detector may delete

The numbers order the owners. The renderer takes only overlays whose number is at least
`currentRenderOverlay`, and lets them go only after it has stored a larger number; the detector
deletes only overlays whose number is more than one below a value of `currentRenderOverlay` that
it has read, and the stored numbers only grow. So an overlay that the renderer holds or draws is
none that the detector may delete, and an entry of the map whose overlay has been deleted is one
that the renderer will not look for again.
-/

namespace ARArch

open Atomic

namespace OverlayMemory

/-- The overlay exists, and the detector may not delete it. -/
structure Owned (m : OverlayMemory) (o : OverlayRef) : Prop where
  made : o < m.made
  live : o ∉ m.frees
  current : m.currentRenderOverlay ≤ (m.rois o).seqno

structure Inv (m : OverlayMemory) : Prop where
  entry : ∀ s o, m.faceOverlays s = some o → o < m.made ∧ (m.rois o).seqno = s ∧ 1 ≤ s
  /-- An entry whose overlay has been deleted lies below what is being rendered. -/
  old : ∀ s o, m.faceOverlays s = some o → o ∈ m.frees → s + 1 < m.currentRenderOverlay
  made : ∀ o ∈ m.frees, o < m.made
  once : m.frees.Nodup
  image : ∀ o, o < m.made → o ∉ m.frees → (m.rois o).hasImage = true
  positive : 1 ≤ m.currentRenderOverlay
  current : m.currentRenderOverlay = 1 ∨ m.currentRenderOverlay ≤ m.lastSeq
  seen : m.lastSeq ≤ m.lastFaceOverlay
  held : ∀ o, m.lastOverlay = some o → m.Owned o ∧ (m.rois o).seqno ≤ m.lastSeq
  drawn : ∀ o, m.drawing = some o → m.Owned o

/-- What a step of the detector leaves to the renderer. -/
structure DetectorMove (m m' : OverlayMemory) : Prop where
  current : m'.currentRenderOverlay = m.currentRenderOverlay
  lastSeq : m'.lastSeq = m.lastSeq
  lastOverlay : m'.lastOverlay = m.lastOverlay
  drawing : m'.drawing = m.drawing
  published : m.lastFaceOverlay ≤ m'.lastFaceOverlay
  made : m.made ≤ m'.made
  seqno : ∀ o < m.made, (m'.rois o).seqno = (m.rois o).seqno
  entries : ∀ s o, m'.faceOverlays s = some o → m.faceOverlays s = some o ∨ m.made ≤ o
  frees : ∀ o ∈ m'.frees, o ∈ m.frees ∨ (m.rois o).seqno + 1 < m.currentRenderOverlay

/-- What a step of the renderer leaves to the detector. -/
structure RendererMove (m m' : OverlayMemory) : Prop where
  published : m'.lastFaceOverlay = m.lastFaceOverlay
  made : m'.made = m.made
  current : m.currentRenderOverlay ≤ m'.currentRenderOverlay
  seqno : ∀ o, (m'.rois o).seqno = (m.rois o).seqno
  entries : ∀ s o, m'.faceOverlays s = some o → m.faceOverlays s = some o
  frees : ∀ o ∈ m'.frees, o ∈ m.frees ∨
    (m.currentRenderOverlay ≤ (m.rois o).seqno ∧ ∀ s, m'.faceOverlays s ≠ some o)

variable {m m' : OverlayMemory} {o face : OverlayRef} {s q : ℕ}

theorem DetectorMove.refl (m : OverlayMemory) : DetectorMove m m :=
  ⟨rfl, rfl, rfl, rfl, le_rfl, le_rfl, fun _ _ => rfl, fun _ _ h => Or.inl h,
    fun _ h => Or.inl h⟩

theorem RendererMove.refl (m : OverlayMemory) : RendererMove m m :=
  ⟨rfl, rfl, le_rfl, fun _ => rfl, fun _ _ h => h, fun _ h => Or.inl h⟩

@[simp] theorem modifyRoi_self (f : DetectedROI → DetectedROI) :
    (m.modifyRoi o f).rois o = f (m.rois o) := by
  simp [modifyRoi]

theorem modifyRoi_of_ne (f : DetectedROI → DetectedROI) (h : face ≠ o) :
    (m.modifyRoi o f).rois face = m.rois face := by
  simp [modifyRoi, h]

theorem seqno_modifyRoi {f : DetectedROI → DetectedROI} (hf : ∀ roi, (f roi).seqno = roi.seqno) :
    ((m.modifyRoi o f).rois face).seqno = (m.rois face).seqno := by
  by_cases h : face = o
  · rw [h, modifyRoi_self, hf]
  · rw [modifyRoi_of_ne f h]

theorem seqno_free : ((m.free o).rois face).seqno = (m.rois face).seqno :=
  seqno_modifyRoi (f := fun roi => { roi with hasImage := false }) (fun _ => rfl)

theorem hasImage_free (h : face ≠ o) :
    ((m.free o).rois face).hasImage = (m.rois face).hasImage := by
  have hroi : (m.free o).rois face = m.rois face :=
    modifyRoi_of_ne (fun roi => { roi with hasImage := false }) h
  rw [hroi]

theorem rois_insertNew (ho : o < m.made) : (m.insertNew s).rois o = m.rois o :=
  Function.update_of_ne ho.ne _ _

/-- An entry after an insertion is an earlier one or the new one. -/
theorem entry_insertNew (he : (m.insertNew s).faceOverlays q = some o) :
    m.faceOverlays q = some o ∨ (q = s ∧ o = m.made) := by
  by_cases hq : q = s
  · subst hq
    have hself : (m.insertNew q).faceOverlays q = some ((m.faceOverlays q).getD m.made) :=
      Table.insert_self _ _ _
    rw [hself] at he
    cases hm : m.faceOverlays q with
    | none =>
        rw [hm] at he
        cases he
        exact Or.inr ⟨rfl, rfl⟩
    | some face =>
        rw [hm] at he
        exact Or.inl he
  · have hne : (m.insertNew s).faceOverlays q = m.faceOverlays q := Table.insert_of_ne _ _ hq
    exact Or.inl (hne ▸ he)

namespace Inv

/-- An entry at or above what is being rendered has not been deleted. -/
theorem live_of_entry (h : Inv m) (he : m.faceOverlays s = some o)
    (hs : m.currentRenderOverlay ≤ s) : o ∉ m.frees := by
  intro ho
  have hold := h.old s o he ho
  omega

/-- Deleting an overlay that is neither held nor drawn, when its entry lies below what is being
rendered or is gone. -/
theorem free (h : Inv m) (hmade : o < m.made) (hlive : o ∉ m.frees)
    (hold : ∀ s, m.faceOverlays s = some o → s + 1 < m.currentRenderOverlay)
    (hheld : m.lastOverlay ≠ some o) (hdrawn : m.drawing ≠ some o) : Inv (m.free o) := by
  have howned {face : OverlayRef} (hne : face ≠ o) (hf : m.Owned face) :
      (m.free o).Owned face := by
    refine ⟨hf.made, ?_, ?_⟩
    · exact fun hmem => (List.mem_cons.mp hmem).elim hne hf.live
    · rw [seqno_free]
      exact hf.current
  refine { h with entry := ?_, old := ?_, made := ?_, once := ?_, image := ?_, held := ?_,
                  drawn := ?_ }
  · intro s face he
    rw [seqno_free]
    exact h.entry s face he
  · intro s face he hmem
    rcases List.mem_cons.mp hmem with rfl | hmem
    · exact hold s he
    · exact h.old s face he hmem
  · intro face hmem
    rcases List.mem_cons.mp hmem with rfl | hmem
    · exact hmade
    · exact h.made face hmem
  · exact List.nodup_cons.mpr ⟨hlive, h.once⟩
  · intro face hface hmem
    have hne : face ≠ o := fun he => hmem (he ▸ List.mem_cons_self)
    rw [hasImage_free hne]
    exact h.image face hface (fun hm => hmem (List.mem_cons_of_mem _ hm))
  · intro face he
    have hne : face ≠ o := fun heq => hheld (heq ▸ he)
    refine ⟨howned hne (h.held face he).1, ?_⟩
    rw [seqno_free]
    exact (h.held face he).2
  · intro face he
    exact howned (fun heq => hdrawn (heq ▸ he)) (h.drawn face he)

theorem erase (h : Inv m) (s : ℕ) : Inv (effect (.erase s) m) := by
  have hentry {q : ℕ} {o : OverlayRef} (he : m.faceOverlays.erase s q = some o) :
      m.faceOverlays q = some o := (Table.erase_eq_some.mp he).2
  have howned {o : OverlayRef} (ho : m.Owned o) : (effect (.erase s) m).Owned o :=
    ⟨ho.made, ho.live, ho.current⟩
  exact { h with
    entry := fun q o he => h.entry q o (hentry he)
    old := fun q o he => h.old q o (hentry he)
    held := fun o ho => ⟨howned (h.held o ho).1, (h.held o ho).2⟩
    drawn := fun o ho => howned (h.drawn o ho) }

theorem insertNew (h : Inv m) (hs : 1 ≤ s) : Inv (m.insertNew s) := by
  have hroi {o : OverlayRef} (ho : o < m.made) : (m.insertNew s).rois o = m.rois o :=
    rois_insertNew ho
  have hnew : ((m.insertNew s).rois m.made) = { seqno := s } := Function.update_self _ _ _
  have howned {o : OverlayRef} (ho : m.Owned o) : (m.insertNew s).Owned o := by
    refine ⟨ho.made.trans (Nat.lt_succ_self _), ho.live, ?_⟩
    rw [hroi ho.made]
    exact ho.current
  refine { h with entry := ?_, old := ?_, made := ?_, image := ?_, held := ?_, drawn := ?_ }
  · intro q o he
    rcases entry_insertNew he with he | ⟨rfl, rfl⟩
    · obtain ⟨hmade, hseqno, hpos⟩ := h.entry q o he
      rw [hroi hmade]
      exact ⟨hmade.trans (Nat.lt_succ_self _), hseqno, hpos⟩
    · rw [hnew]
      exact ⟨Nat.lt_succ_self _, rfl, hs⟩
  · intro q o he hmem
    rcases entry_insertNew he with he | ⟨rfl, rfl⟩
    · exact h.old q o he hmem
    · exact ((h.made _ hmem).false).elim
  · exact fun o hmem => (h.made o hmem).trans (Nat.lt_succ_self _)
  · intro o ho hmem
    rcases Nat.lt_succ_iff_lt_or_eq.mp ho with ho | rfl
    · rw [hroi ho]
      exact h.image o ho hmem
    · rw [hnew]
  · intro o ho
    obtain ⟨hown, hle⟩ := h.held o ho
    refine ⟨howned hown, ?_⟩
    rw [hroi hown.made]
    exact hle
  · exact fun o ho => howned (h.drawn o ho)

/-- Nothing that the invariant says depends on `inUse`. -/
theorem setInUse (h : Inv m) (face : OverlayRef) : Inv (effect (.setInUse face) m) := by
  have hseqno (o : OverlayRef) :
      ((effect (.setInUse face) m).rois o).seqno = (m.rois o).seqno :=
    seqno_modifyRoi (f := fun roi => { roi with inUse := true }) (fun _ => rfl)
  have himage (o : OverlayRef) :
      ((effect (.setInUse face) m).rois o).hasImage = (m.rois o).hasImage := by
    by_cases ho : o = face
    · subst ho
      simp [effect]
    · simp [effect, modifyRoi_of_ne _ ho]
  have howned {o : OverlayRef} (ho : m.Owned o) : (effect (.setInUse face) m).Owned o := by
    refine ⟨ho.made, ho.live, ?_⟩
    rw [hseqno]
    exact ho.current
  refine { h with entry := ?_, image := ?_, held := ?_, drawn := ?_ }
  · intro q o he
    rw [hseqno]
    exact h.entry q o he
  · intro o ho hmem
    rw [himage]
    exact h.image o ho hmem
  · intro o ho
    rw [hseqno]
    exact ⟨howned (h.held o ho).1, (h.held o ho).2⟩
  · exact fun o ho => howned (h.drawn o ho)

/-- The fields that ownership does not read. -/
theorem owned_congr (h : m.Owned o) (hmade : m'.made = m.made) (hfrees : m'.frees = m.frees)
    (hcurrent : m'.currentRenderOverlay = m.currentRenderOverlay) (hrois : m'.rois = m.rois) :
    m'.Owned o := by
  refine ⟨?_, ?_, ?_⟩
  · rw [hmade]
    exact h.made
  · rw [hfrees]
    exact h.live
  · rw [hcurrent, hrois]
    exact h.current

theorem storeLast (h : Inv m) (hs : m.lastFaceOverlay ≤ s) :
    Inv (effect (.storeLastFaceOverlay s) m) :=
  { h with
    seen := h.seen.trans hs
    held := fun o ho => ⟨owned_congr (h.held o ho).1 rfl rfl rfl rfl, (h.held o ho).2⟩
    drawn := fun o ho => owned_congr (h.drawn o ho) rfl rfl rfl rfl }

theorem setLastSeq (h : Inv m) (hs : m.lastSeq ≤ s) (hs' : s ≤ m.lastFaceOverlay) :
    Inv (effect (.setLastSeq s) m) :=
  { h with
    current := h.current.imp_right (fun hc => hc.trans hs)
    seen := hs'
    held := fun o ho =>
      ⟨owned_congr (h.held o ho).1 rfl rfl rfl rfl, (h.held o ho).2.trans hs⟩
    drawn := fun o ho => owned_congr (h.drawn o ho) rfl rfl rfl rfl }

theorem beginOverlay (h : Inv m) (ho : m.Owned o) : Inv (effect (.beginOverlay o) m) :=
  { h with
    held := fun o ho => ⟨owned_congr (h.held o ho).1 rfl rfl rfl rfl, (h.held o ho).2⟩
    drawn := fun face hface => by
      cases hface
      exact owned_congr ho rfl rfl rfl rfl }

theorem endOverlay (h : Inv m) : Inv (effect .endOverlay m) :=
  { h with
    held := fun o ho => ⟨owned_congr (h.held o ho).1 rfl rfl rfl rfl, (h.held o ho).2⟩
    drawn := fun face hface => by cases hface }

theorem setLastOverlay (h : Inv m) (ho : m.Owned o) (hle : (m.rois o).seqno ≤ m.lastSeq) :
    Inv (effect (.setLastOverlay o) m) :=
  { h with
    held := fun face hface => by
      cases hface
      exact ⟨owned_congr ho rfl rfl rfl rfl, hle⟩
    drawn := fun o ho => owned_congr (h.drawn o ho) rfl rfl rfl rfl }

/-- The number of the overlay that is held becomes the one being rendered. -/
theorem storeCurrent (h : Inv m) (hs : m.currentRenderOverlay ≤ s) (hle : s ≤ m.lastSeq)
    (hheld : ∀ o, m.lastOverlay = some o → s ≤ (m.rois o).seqno) (hdrawing : m.drawing = none) :
    Inv (effect (.storeCurrentRenderOverlay s) m) :=
  { h with
    old := fun q o he hmem => (h.old q o he hmem).trans_le hs
    positive := h.positive.trans hs
    current := Or.inr hle
    held := fun o ho =>
      ⟨⟨(h.held o ho).1.made, (h.held o ho).1.live, hheld o ho⟩, (h.held o ho).2⟩
    drawn := fun o ho => by
      have hnone : m.drawing = some o := ho
      rw [hdrawing] at hnone
      cases hnone }

theorem freeLastOverlay (h : Inv m) (ho : m.lastOverlay = some o)
    (hentry : ∀ s, m.faceOverlays s ≠ some o) (hdrawing : m.drawing = none) :
    Inv m.freeLastOverlay := by
  obtain ⟨hown, -⟩ := h.held o ho
  -- as a deletion of an overlay that nobody holds any more
  have hunheld : Inv { m with lastOverlay := none } :=
    { h with
      held := fun face hface => by cases hface
      drawn := fun face hface => owned_congr (h.drawn face hface) rfl rfl rfl rfl }
  have hfree := hunheld.free (o := o) hown.made hown.live
    (fun s he => (hentry s he).elim) (by simp) (by simp [hdrawing])
  have heq : m.freeLastOverlay = OverlayMemory.free { m with lastOverlay := none } o := by
    rw [OverlayMemory.freeLastOverlay, ho]
    rfl
  rw [heq]
  exact hfree

end Inv

end OverlayMemory

end ARArch
