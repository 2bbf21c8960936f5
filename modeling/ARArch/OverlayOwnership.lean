import ARArch.OverlayInvariant

/-!
# Overlays have one owner at a time

The programs of the detector and the renderer keep the invariant, each relying on what the other
leaves alone: the detector deletes only below what the renderer has announced, and the renderer
deletes only what it has announced before and taken out of the map.
-/

namespace ARArch

open Atomic OverlayMemory

/-- What a step of a party leaves to the other. -/
def OverlayMove : OverlayParty → OverlayMemory → OverlayMemory → Prop
  | .detector => DetectorMove
  | .renderer => RendererMove

theorem OverlayMove.refl (t : OverlayParty) (m : OverlayMemory) : OverlayMove t m m := by
  cases t with
  | detector => exact DetectorMove.refl m
  | renderer => exact RendererMove.refl m

def overlayContract : Contract OverlayParty OverlayShared where
  inv s := s.mem.Inv
  guar t s s' := OverlayMove t s.mem s'.mem

/-- The other party's steps do not falsify an assertion. -/
def OverlayStable (t : OverlayParty) (P : OverlayMemory → Prop) : Prop :=
  overlayContract.Stable t (fun s => P s.mem)

theorem stable_of_renderer {P : OverlayMemory → Prop}
    (h : ∀ m m', m.Inv → RendererMove m m' → P m → P m') : OverlayStable .detector P := by
  intro u s s' hu hi hg _ hp
  cases u with
  | detector => exact (hu rfl).elim
  | renderer => exact h s.mem s'.mem hi hg hp

theorem stable_of_detector {P : OverlayMemory → Prop}
    (h : ∀ m m', m.Inv → DetectorMove m m' → P m → P m') : OverlayStable .renderer P := by
  intro u s s' hu hi hg _ hp
  cases u with
  | detector => exact h s.mem s'.mem hi hg hp
  | renderer => exact (hu rfl).elim

abbrev OverlayTriple {α : Type} (t : OverlayParty) (P : OverlayMemory → Prop)
    (p : OverlayCall α) (Q : α → OverlayMemory → Prop) : Prop :=
  Triple overlayContract overlaySteps t (fun s => P s.mem) p (fun a s => Q a s.mem)

namespace OverlayTriple

variable {α : Type} {t : OverlayParty} {P : OverlayMemory → Prop} {Q : α → OverlayMemory → Prop}
  {i : OverlayOp} {f : i.Ans → OverlayCall α}

theorem perform_bind (M : i.Ans → OverlayMemory → Prop) (hM : ∀ r, OverlayStable t (M r))
    (hcall : ∀ m b, m.Inv → P m →
      (effect i m).Inv ∧ OverlayMove t m (effect i m) ∧ M (answer b i m) (effect i m))
    (hf : ∀ r, OverlayTriple t (M r) (f r) Q) :
    OverlayTriple t P (OverlayCall.perform i >>= f) Q := by
  refine Triple.perform_bind (fun r s => M r s.mem) hM ?_ hf
  intro s r s' hi hp hc
  obtain ⟨⟨b, he⟩, -⟩ := hc
  obtain ⟨rfl, hmem⟩ := Prod.mk.inj (Option.some.inj he)
  have h := hcall s.mem b hi hp
  rw [hmem] at h
  exact h

/-- A call that changes nothing. -/
theorem read_bind (hi : ∀ m, effect i m = m) (M : i.Ans → OverlayMemory → Prop)
    (hM : ∀ r, OverlayStable t (M r)) (hcall : ∀ m b, m.Inv → P m → M (answer b i m) m)
    (hf : ∀ r, OverlayTriple t (M r) (f r) Q) :
    OverlayTriple t P (OverlayCall.perform i >>= f) Q := by
  refine perform_bind M hM ?_ hf
  intro m b h hp
  rw [hi]
  exact ⟨h, .refl t m, hcall m b h hp⟩

/-- A call of which only the change matters. -/
theorem write_bind {R : OverlayMemory → Prop} (hR : OverlayStable t R)
    (hcall : ∀ m, m.Inv → P m →
      (effect i m).Inv ∧ OverlayMove t m (effect i m) ∧ R (effect i m))
    (hf : ∀ r, OverlayTriple t R (f r) Q) :
    OverlayTriple t P (OverlayCall.perform i >>= f) Q :=
  perform_bind (fun _ => R) (fun _ => hR) (fun m _ => hcall m) hf

theorem write {R : OverlayMemory → Prop} (hR : OverlayStable t R)
    (hcall : ∀ m, m.Inv → P m →
      (effect i m).Inv ∧ OverlayMove t m (effect i m) ∧ R (effect i m)) :
    OverlayTriple t P (OverlayCall.perform i) (fun _ => R) :=
  write_bind hR hcall (fun _ => Triple.pure (fun _ _ h => h))

theorem pure {a : α} (h : ∀ m, m.Inv → P m → Q a m) :
    OverlayTriple t P (Pure.pure a : OverlayCall α) Q :=
  Triple.pure (fun s => h s.mem)

theorem of_fact {φ : Prop} {p : OverlayCall α} (h : φ → OverlayTriple t P p Q) :
    OverlayTriple t (fun m => φ ∧ P m) p Q :=
  Triple.of_fact h

end OverlayTriple

/-! ### The detector -/

/-- The detector works on frame `q` and has read `c` as what is being rendered; the entries whose
overlays have been deleted are named in `dels`. -/
structure Scanning (q c : ℕ) (dels : List ℕ) (m : OverlayMemory) : Prop where
  keys : ∀ s o, m.faceOverlays s = some o → s < q
  published : m.lastFaceOverlay < q
  current : c ≤ m.currentRenderOverlay
  freed : ∀ s o, m.faceOverlays s = some o → o ∈ m.frees → s ∈ dels

/-- The detector has come upon an entry. -/
structure Visiting (c seq : ℕ) (o : OverlayRef) (m : OverlayMemory) : Prop where
  made : o < m.made
  seqno : (m.rois o).seqno = seq
  live : seq + 1 < c → o ∉ m.frees

section Detector

variable {q c seq : ℕ} {dels : List ℕ} {o : OverlayRef} {m m' : OverlayMemory}

theorem Scanning.move (hr : RendererMove m m') (h : Scanning q c dels m) :
    Scanning q c dels m' := by
  refine ⟨fun s o he => h.keys s o (hr.entries s o he), ?_, h.current.trans hr.current, ?_⟩
  · rw [hr.published]
    exact h.published
  · intro s o he hmem
    rcases hr.frees o hmem with hmem | ⟨-, hgone⟩
    · exact h.freed s o (hr.entries s o he) hmem
    · exact (hgone s he).elim

/-- What the renderer deletes lies above what the detector may delete. -/
theorem Visiting.move (hr : RendererMove m m') (hc : c ≤ m.currentRenderOverlay)
    (h : Visiting c seq o m) : Visiting c seq o m' := by
  refine ⟨?_, ?_, ?_⟩
  · rw [hr.made]
    exact h.made
  · rw [hr.seqno]
    exact h.seqno
  · intro hlt hmem
    rcases hr.frees o hmem with hmem | ⟨hle, -⟩
    · exact h.live hlt hmem
    · rw [h.seqno] at hle
      omega

theorem Scanning.stable : OverlayStable .detector (Scanning q c dels) :=
  stable_of_renderer (fun _ _ _ hr h => h.move hr)

theorem Visiting.stable :
    OverlayStable .detector (fun m => Scanning q c dels m ∧ Visiting c seq o m) :=
  stable_of_renderer (fun _ _ _ hr h => ⟨h.1.move hr, h.2.move hr h.1.current⟩)

theorem Scanning.visiting (h : Scanning q c dels m) (hi : m.Inv)
    (he : m.faceOverlays seq = some o) (hseq : seq ∉ dels) : Visiting c seq o m := by
  obtain ⟨hmade, hseqno, -⟩ := hi.entry seq o he
  exact ⟨hmade, hseqno, fun _ hmem => hseq (h.freed seq o he hmem)⟩

theorem lt_delSeq_iff (hc : 1 ≤ c) : seq < OverlayCall.delSeq c ↔ seq + 1 < c := by
  have hne : c ≠ 0 := by omega
  rw [OverlayCall.delSeq, if_neg hne]
  omega

/-- Deleting an old overlay concerns neither the renderer's overlay nor what it draws. -/
theorem free_visited (hi : m.Inv) (h : Scanning q c dels m) (hv : Visiting c seq o m)
    (hlt : seq + 1 < c) :
    (m.free o).Inv ∧ DetectorMove m (m.free o) ∧ Scanning q c (dels ++ [seq]) (m.free o) := by
  have hbelow : (m.rois o).seqno + 1 < m.currentRenderOverlay := by
    rw [hv.seqno]
    exact hlt.trans_le h.current
  have howned (hown : m.Owned o) : False := by
    have hle := hown.current
    omega
  refine ⟨hi.free hv.made (hv.live hlt) ?_ ?_ ?_, ?_, ?_⟩
  · intro s he
    rw [← (hi.entry s o he).2.1]
    exact hbelow
  · exact fun ho => howned (hi.held o ho).1
  · exact fun ho => howned (hi.drawn o ho)
  · refine ⟨rfl, rfl, rfl, rfl, le_rfl, le_rfl, fun _ _ => seqno_free, fun _ _ he => Or.inl he, ?_⟩
    intro face hmem
    rcases List.mem_cons.mp hmem with rfl | hmem
    · exact Or.inr hbelow
    · exact Or.inl hmem
  · refine ⟨h.keys, h.published, h.current, ?_⟩
    intro s face he hmem
    rcases List.mem_cons.mp hmem with rfl | hmem
    · have hs : (m.rois face).seqno = s := (hi.entry s face he).2.1
      rw [← hs, hv.seqno]
      simp
    · exact List.mem_append_left _ (h.freed s face he hmem)

/-- The visit of one overlay: `p` is the rest of the scan, `p'` the rest with `seq` to erase. -/
theorem visit_triple (hc : 1 ≤ c) {p p' : OverlayCall (List ℕ)} {count : ℕ}
    (hp : OverlayTriple .detector (Scanning q c dels) p (fun dels => Scanning q c dels))
    (hp' : OverlayTriple .detector (Scanning q c (dels ++ [seq])) p'
      (fun dels => Scanning q c dels)) :
    OverlayTriple .detector (fun m => Scanning q c dels m ∧ Visiting c seq o m)
      (if 5 < count then pure dels
      else do
        if ← OverlayCall.perform (.inUse o) then p
        else if seq < OverlayCall.delSeq c then do
          OverlayCall.perform (.free o)
          p'
        else p)
      (fun dels => Scanning q c dels) := by
  have hskip : OverlayTriple .detector (fun m => Scanning q c dels m ∧ Visiting c seq o m) p
      (fun dels => Scanning q c dels) :=
    hp.weaken (fun _ _ h => h.1) (fun _ _ _ h => h)
  by_cases hcount : 5 < count
  · simp only [if_pos hcount]
    exact .pure (fun _ _ h => h.1)
  simp only [if_neg hcount]
  refine OverlayTriple.read_bind (fun _ => rfl)
    (fun _ m => Scanning q c dels m ∧ Visiting c seq o m) (fun _ => Visiting.stable)
    (fun _ _ _ h => h) ?_
  intro inUse
  cases inUse with
  | true => exact hskip
  | false =>
      simp only [Bool.false_eq_true, if_false]
      by_cases hlt : seq < OverlayCall.delSeq c
      · simp only [if_pos hlt]
        refine OverlayTriple.write_bind (R := Scanning q c (dels ++ [seq])) Scanning.stable ?_
          (fun _ => hp')
        intro m hi h
        exact free_visited hi h.1 h.2 ((lt_delSeq_iff hc).mp hlt)
      · simp only [if_neg hlt]
        exact hskip

theorem deleteOld_triple (hc : 1 ≤ c) (visits : List ℕ) (hvisits : visits.Nodup)
    (count : ℕ) (hdels : ∀ s ∈ dels, s ∉ visits) :
    OverlayTriple .detector (Scanning q c dels)
      (OverlayCall.deleteOld (OverlayCall.delSeq c) visits count dels)
      (fun dels => Scanning q c dels) := by
  induction visits generalizing count dels with
  | nil => exact .pure (fun _ _ h => h)
  | cons seq visits ih =>
      obtain ⟨hseq, hvisits⟩ := List.nodup_cons.mp hvisits
      have hrest : ∀ s ∈ dels, s ∉ visits :=
        fun s hs hmem => hdels s hs (List.mem_cons_of_mem _ hmem)
      have hnot : seq ∉ dels := fun hs => hdels seq hs List.mem_cons_self
      have hadded : ∀ s ∈ dels ++ [seq], s ∉ visits := by
        intro s hs
        rcases List.mem_append.mp hs with hs | hs
        · exact hrest s hs
        · rwa [List.mem_singleton.mp hs]
      apply OverlayTriple.read_bind (fun _ => rfl)
        (fun r m => Scanning q c dels m ∧ ∀ o, r = some o → Visiting c seq o m)
      · intro r
        apply stable_of_renderer
        rintro m m' _ hr ⟨hs, hv⟩
        exact ⟨hs.move hr, fun o ho => (hv o ho).move hr hs.current⟩
      · exact fun m _ hi hs => ⟨hs, fun o ho => hs.visiting hi ho hnot⟩
      · intro r
        cases r with
        | none => exact (ih hvisits count hrest).weaken (fun _ _ h => h.1) (fun _ _ _ h => h)
        | some o =>
            exact (visit_triple hc (ih hvisits _ hrest) (ih hvisits _ hadded)).weaken
              (fun _ _ h => ⟨h.1, h.2 o rfl⟩) (fun _ _ _ h => h)

theorem eraseAll_triple :
    OverlayTriple .detector (Scanning q c dels)
      (Prog.forEach (fun sn => OverlayCall.perform (.erase sn)) dels)
      (fun _ => Scanning q c []) := by
  induction dels with
  | nil => exact .pure (fun _ _ h => h)
  | cons s dels ih =>
      apply OverlayTriple.write_bind (R := Scanning q c dels) Scanning.stable _ (fun _ => ih)
      intro m hi h
      have hentry {k : ℕ} {o : OverlayRef} (he : m.faceOverlays.erase s k = some o) :
          k ≠ s ∧ m.faceOverlays k = some o := Table.erase_eq_some.mp he
      refine ⟨hi.erase s, ?_, fun k o he => h.keys k o (hentry he).2, h.published, h.current, ?_⟩
      · exact { DetectorMove.refl m with entries := fun k o he => Or.inl (hentry he).2 }
      · intro k o he hmem
        have hk := h.freed k o (hentry he).2 hmem
        exact (List.mem_cons.mp hk).resolve_left (hentry he).1

theorem insertNew_move (hi : m.Inv) (h : Scanning q c [] m) (hq : 1 ≤ q) :
    (m.insertNew q).Inv ∧ DetectorMove m (m.insertNew q) ∧
      Scanning (q + 1) 1 [] (m.insertNew q) := by
  refine ⟨hi.insertNew hq, ?_, ?_, ?_, hi.positive, ?_⟩
  · refine ⟨rfl, rfl, rfl, rfl, le_rfl, Nat.le_succ _, ?_, ?_, fun o ho => Or.inl ho⟩
    · intro o ho
      rw [rois_insertNew ho]
    · intro s o he
      exact (entry_insertNew he).imp_right (fun heq => heq.2.ge)
  · intro s o he
    rcases entry_insertNew he with he | ⟨rfl, -⟩
    · exact (h.keys s o he).trans (Nat.lt_succ_self q)
    · exact Nat.lt_succ_self s
  · exact h.published.trans (Nat.lt_succ_self q)
  · intro s o he hmem
    rcases entry_insertNew he with he | ⟨-, rfl⟩
    · exact h.freed s o he hmem
    · exact ((hi.made _ hmem).false).elim

theorem Scanning.next (h : Scanning q c [] m) (hi : m.Inv) {q' : ℕ} (hq : q ≤ q') :
    Scanning q' 1 [] m :=
  ⟨fun s o he => (h.keys s o he).trans_le hq, h.published.trans_le hq, hi.positive, h.freed⟩

/-- A question of the detector, which ends its work if the answer is no. -/
theorem ask_overlay {φ : OverlayQuestion} {p : OverlayCall Unit} {P : OverlayMemory → Prop}
    {Q : Unit → OverlayMemory → Prop} (hP : OverlayStable .detector P)
    (hno : ∀ m, m.Inv → P m → Q () m) (hp : OverlayTriple .detector P p Q) :
    OverlayTriple .detector P (do if ← OverlayCall.perform (.ask φ) then p) Q := by
  refine OverlayTriple.read_bind (fun _ => rfl) (fun _ => P) (fun _ => hP) (fun _ _ _ h => h) ?_
  intro b
  cases b with
  | true => exact hp
  | false => exact .pure hno

theorem faceOverlayDetector_triple (call : DetectorCall) (hq : 1 ≤ call.seqno) :
    OverlayTriple .detector (Scanning call.seqno 1 [])
      (OverlayCall.faceOverlayDetector call) (fun _ => Scanning (call.seqno + 1) 1 []) := by
  have hskip {c : ℕ} (m : OverlayMemory) (hi : m.Inv) (h : Scanning call.seqno c [] m) :
      Scanning (call.seqno + 1) 1 [] m := h.next hi (Nat.le_succ _)
  apply ask_overlay Scanning.stable hskip
  apply ask_overlay Scanning.stable hskip
  refine OverlayTriple.read_bind (fun _ => rfl)
    (fun c m => 1 ≤ c ∧ Scanning call.seqno c [] m) (fun c => ?_) (fun m _ hi h => ?_)
    (fun c => ?_)
  · exact (Contract.Stable.const _).and Scanning.stable
  · exact ⟨hi.positive, h.keys, h.published, le_rfl, h.freed⟩
  apply OverlayTriple.of_fact
  intro hc
  refine Triple.bind (deleteOld_triple hc call.visits call.nodup 0 (by simp)) (fun dels => ?_)
  refine Triple.bind (M := fun _ s => Scanning call.seqno c [] s.mem) eraseAll_triple
    (fun _ => ?_)
  apply ask_overlay Scanning.stable hskip
  refine OverlayTriple.write_bind (R := Scanning (call.seqno + 1) 1 []) Scanning.stable
    (fun m hi h => insertNew_move hi h hq) (fun _ => ?_)
  apply OverlayTriple.write Scanning.stable
  intro m hi h
  have hle : m.lastFaceOverlay ≤ call.seqno := Nat.le_of_lt_succ h.published
  refine ⟨hi.storeLast hle, { DetectorMove.refl m with published := hle }, ?_⟩
  exact ⟨h.keys, Nat.lt_succ_self _, h.current, h.freed⟩

theorem detector_triple {calls : List DetectorCall} (hpos : ∀ call ∈ calls, 1 ≤ call.seqno)
    (hlt : (calls.map DetectorCall.seqno).Pairwise (· < ·))
    (hq : ∀ call ∈ calls, q ≤ call.seqno) :
    OverlayTriple .detector (Scanning q 1 [])
      (Prog.forEach OverlayCall.faceOverlayDetector calls) (fun _ _ => True) := by
  induction calls generalizing q with
  | nil => exact .pure (fun _ _ _ => trivial)
  | cons call calls ih =>
      rw [List.map_cons, List.pairwise_cons] at hlt
      have hcall : OverlayTriple .detector (Scanning q 1 [])
          (OverlayCall.faceOverlayDetector call) (fun _ => Scanning (call.seqno + 1) 1 []) :=
        (faceOverlayDetector_triple call (hpos call List.mem_cons_self)).weaken
          (fun s hi h => h.next hi (hq call List.mem_cons_self)) (fun _ _ _ h => h)
      refine Triple.bind hcall (fun _ => ih ?_ hlt.2 ?_)
      · exact fun call' h => hpos call' (List.mem_cons_of_mem _ h)
      · exact fun call' h => hlt.1 _ (List.mem_map_of_mem h)

end Detector

/-! ### The renderer -/

/-- The renderer is at the overlay with number `s`, which is the newest it has seen. -/
structure Seeing (s : ℕ) (drawing : Option OverlayRef) (m : OverlayMemory) : Prop where
  lastSeq : m.lastSeq = s
  drawing : m.drawing = drawing
  current : m.currentRenderOverlay = 1 ∨ m.currentRenderOverlay ≤ s
  /-- What it holds is older. -/
  older : ∀ o, m.lastOverlay = some o → (m.rois o).seqno < s

/-- It has found the overlay with that number, and has yet to make it its own. -/
structure Taking (s : ℕ) (face : OverlayRef) (m : OverlayMemory) : Prop where
  owned : m.Owned face
  seqno : (m.rois face).seqno = s

section Renderer

variable {s : ℕ} {face old : OverlayRef} {d : Option OverlayRef} {m m' : OverlayMemory}

theorem Owned.move (hr : DetectorMove m m') (h : m.Owned face) : m'.Owned face := by
  refine ⟨h.made.trans_le hr.made, ?_, ?_⟩
  · intro hmem
    rcases hr.frees face hmem with hmem | hlt
    · exact h.live hmem
    · have hle := h.current
      omega
  · rw [hr.current, hr.seqno face h.made]
    exact h.current

theorem Seeing.move (hi : m.Inv) (hr : DetectorMove m m') (h : Seeing s d m) :
    Seeing s d m' := by
  refine ⟨hr.lastSeq.trans h.lastSeq, hr.drawing.trans h.drawing, ?_, ?_⟩
  · rw [hr.current]
    exact h.current
  · intro o ho
    rw [hr.lastOverlay] at ho
    rw [hr.seqno o (hi.held o ho).1.made]
    exact h.older o ho

theorem Taking.move (hr : DetectorMove m m') (h : Taking s face m) : Taking s face m' := by
  refine ⟨Owned.move hr h.owned, ?_⟩
  rw [hr.seqno face h.owned.made]
  exact h.seqno

theorem Seeing.taking (hi : m.Inv) (h : Seeing s d m) (he : m.faceOverlays s = some face) :
    Taking s face m := by
  obtain ⟨hmade, hseqno, hpos⟩ := hi.entry s face he
  have hle : m.currentRenderOverlay ≤ s := by
    rcases h.current with hone | hle
    · omega
    · exact hle
  refine ⟨⟨hmade, hi.live_of_entry he hle, ?_⟩, hseqno⟩
  rw [hseqno]
  exact hle

/-- An assertion about the renderer's own state, the overlay it takes and the one it held. -/
theorem taking_stable {R : OverlayMemory → Prop}
    (hR : ∀ m m', m.Inv → DetectorMove m m' → R m → R m') :
    OverlayStable .renderer (fun m => Seeing s d m ∧ Taking s face m ∧ R m) :=
  stable_of_detector (fun m m' hi hr h =>
    ⟨h.1.move hi hr, h.2.1.move hr, hR m m' hi hr h.2.2⟩)

/-- Reading an overlay that the renderer owns. -/
theorem overlay_triple {P : Option OverlayRef → OverlayMemory → Prop}
    (hP : ∀ d, OverlayStable .renderer (P d))
    (howned : ∀ m, m.Inv → P none m → m.Owned face)
    (hset : ∀ m d d', P d m → P d' { m with drawing := d' }) :
    OverlayTriple .renderer (P none) (OverlayCall.overlay face) (fun _ => P none) := by
  refine OverlayTriple.write_bind (R := P (some face)) (hP _) (fun m hi h => ?_) (fun _ => ?_)
  · exact ⟨hi.beginOverlay (howned m hi h), { RendererMove.refl m with }, hset m _ _ h⟩
  · apply OverlayTriple.write (hP none)
    intro m hi h
    exact ⟨hi.endOverlay, { RendererMove.refl m with }, hset m _ _ h⟩

def Resting (m : OverlayMemory) : Prop := m.drawing = none

theorem Resting.stable : OverlayStable .renderer Resting :=
  stable_of_detector (fun _ _ _ hr h => hr.drawing.trans h)

theorem erase_move (hi : m.Inv) :
    (effect (.erase s) m).Inv ∧ RendererMove m (effect (.erase s) m) := by
  refine ⟨hi.erase s, { RendererMove.refl m with entries := ?_, frees := ?_ }⟩
  · exact fun q o he => (Table.erase_eq_some.mp he).2
  · exact fun o ho => Or.inl ho

/-- The previous overlay, of which no entry is left, is deleted. -/
theorem freeLastOverlay_move (hi : m.Inv) (h : Seeing s none m) (ht : Taking s face m)
    (hold : m.lastOverlay = some old) (hentry : ∀ q, m.faceOverlays q ≠ some old) :
    m.freeLastOverlay.Inv ∧ RendererMove m m.freeLastOverlay ∧
      Seeing s none m.freeLastOverlay ∧ Taking s face m.freeLastOverlay ∧
      m.freeLastOverlay.lastOverlay = none := by
  have heq : m.freeLastOverlay = { m.free old with lastOverlay := none } := by
    rw [OverlayMemory.freeLastOverlay, hold]
  have hne : face ≠ old := by
    rintro rfl
    have hlt := h.older face hold
    rw [ht.seqno] at hlt
    exact hlt.false
  refine ⟨hi.freeLastOverlay hold hentry h.drawing, ?_⟩
  rw [heq]
  refine ⟨⟨rfl, rfl, le_rfl, fun _ => seqno_free, fun _ _ he => he, ?_⟩, ?_, ?_, rfl⟩
  · intro o ho
    rcases List.mem_cons.mp ho with rfl | ho
    · exact Or.inr ⟨(hi.held _ hold).1.current, hentry⟩
    · exact Or.inl ho
  · exact ⟨h.lastSeq, h.drawing, h.current, fun o ho => by cases ho⟩
  · refine ⟨⟨ht.owned.made, ?_, ?_⟩, seqno_free.trans ht.seqno⟩
    · exact fun hmem => (List.mem_cons.mp hmem).elim hne ht.owned.live
    · exact ht.owned.current.trans_eq seqno_free.symm

/-- The overlay found becomes the one held, and is announced. -/
theorem keep_triple :
    OverlayTriple .renderer
      (fun m => Seeing s none m ∧ Taking s face m ∧ m.lastOverlay = none)
      (do
        OverlayCall.perform (.setLastOverlay face)
        OverlayCall.perform (.storeCurrentRenderOverlay s)
        OverlayCall.perform (.erase s))
      (fun _ => Resting) := by
  have hstable : OverlayStable .renderer (fun m =>
      (m.lastSeq = s ∧ m.drawing = none ∧ m.lastOverlay = some face) ∧ Taking s face m) := by
    apply stable_of_detector
    rintro m m' hi hr ⟨⟨hlast, hdrawing, hheld⟩, ht⟩
    exact ⟨⟨hr.lastSeq.trans hlast, hr.drawing.trans hdrawing, hr.lastOverlay.trans hheld⟩,
      ht.move hr⟩
  refine OverlayTriple.write_bind hstable ?_ (fun _ => ?_)
  · rintro m hi ⟨h, ht, -⟩
    have hle : (m.rois face).seqno ≤ m.lastSeq := (ht.seqno.trans h.lastSeq.symm).le
    refine ⟨hi.setLastOverlay ht.owned hle, { RendererMove.refl m with }, ?_⟩
    exact ⟨⟨h.lastSeq, h.drawing, rfl⟩, ⟨ht.owned.made, ht.owned.live, ht.owned.current⟩, ht.seqno⟩
  refine OverlayTriple.write_bind Resting.stable ?_ (fun _ => ?_)
  · rintro m hi ⟨⟨hlast, hdrawing, hheld⟩, ht⟩
    have hcurrent : m.currentRenderOverlay ≤ s := ht.owned.current.trans_eq ht.seqno
    refine ⟨hi.storeCurrent hcurrent hlast.ge ?_ hdrawing, ?_, hdrawing⟩
    · intro o ho
      rw [hheld] at ho
      cases ho
      exact ht.seqno.ge
    · exact { RendererMove.refl m with
        current := hcurrent
        frees := fun o ho => Or.inl ho }
  · apply OverlayTriple.write Resting.stable
    intro m hi h
    exact ⟨(erase_move hi).1, (erase_move hi).2, h⟩

/-- The overlay held before is taken out of the map and deleted. -/
theorem release_bind {p : OverlayCall Unit} {Q : Unit → OverlayMemory → Prop}
    (hp : OverlayTriple .renderer
      (fun m => Seeing s none m ∧ Taking s face m ∧ m.lastOverlay = none) p Q) :
    OverlayTriple .renderer
      (fun m => Seeing s none m ∧ Taking s face m ∧ m.lastOverlay = some old)
      (do
        let seq ← OverlayCall.perform (.seqno old)
        OverlayCall.perform (.erase seq)
        OverlayCall.perform .freeLastOverlay
        p) Q := by
  refine OverlayTriple.read_bind (fun _ => rfl)
    (fun q m => Seeing s none m ∧ Taking s face m ∧ m.lastOverlay = some old ∧
      (m.rois old).seqno = q) (fun q => ?_) (fun m _ _ h => ⟨h.1, h.2.1, h.2.2, rfl⟩)
    (fun q => ?_)
  · apply taking_stable
    rintro m m' hi hr ⟨hold, hq⟩
    refine ⟨hr.lastOverlay.trans hold, ?_⟩
    rw [hr.seqno old (hi.held old hold).1.made]
    exact hq
  refine OverlayTriple.write_bind (R := fun m => Seeing s none m ∧ Taking s face m ∧
    m.lastOverlay = some old ∧ ∀ q, m.faceOverlays q ≠ some old) ?_ ?_ (fun _ => ?_)
  · apply taking_stable
    rintro m m' hi hr ⟨hold, hentry⟩
    refine ⟨hr.lastOverlay.trans hold, fun q he => ?_⟩
    rcases hr.entries q old he with he | hle
    · exact hentry q he
    · exact absurd (hi.held old hold).1.made (not_lt.mpr hle)
  · rintro m hi ⟨h, ht, hold, hq⟩
    refine ⟨(erase_move hi).1, (erase_move hi).2, ?_, ?_, hold, ?_⟩
    · exact ⟨h.lastSeq, h.drawing, h.current, h.older⟩
    · exact ⟨⟨ht.owned.made, ht.owned.live, ht.owned.current⟩, ht.seqno⟩
    · intro k he
      obtain ⟨hne, he⟩ := Table.erase_eq_some.mp he
      exact hne ((hi.entry k old he).2.1.symm.trans hq)
  · refine OverlayTriple.write_bind ?_ ?_ (fun _ => hp)
    · exact taking_stable (fun _ _ _ hr h => hr.lastOverlay.trans h)
    · rintro m hi ⟨h, ht, hold, hentry⟩
      exact freeLastOverlay_move hi h ht hold hentry

theorem setLastSeq_move (hi : m.Inv) (hrest : Resting m) (hlt : m.lastSeq < s)
    (hle : s ≤ m.lastFaceOverlay) :
    (effect (.setLastSeq s) m).Inv ∧ RendererMove m (effect (.setLastSeq s) m) ∧
      Seeing s none (effect (.setLastSeq s) m) := by
  refine ⟨hi.setLastSeq hlt.le hle, { RendererMove.refl m with }, rfl, hrest, ?_, ?_⟩
  · exact hi.current.imp_right (fun hc => hc.trans hlt.le)
  · exact fun o ho => (hi.held o ho).2.trans_lt hlt

theorem setInUse_move (hi : m.Inv) (h : Seeing s none m) (ht : Taking s face m) :
    (effect (.setInUse face) m).Inv ∧ RendererMove m (effect (.setInUse face) m) ∧
      Seeing s none (effect (.setInUse face) m) ∧ Taking s face (effect (.setInUse face) m) := by
  have hseqno (o : OverlayRef) :
      ((effect (.setInUse face) m).rois o).seqno = (m.rois o).seqno :=
    seqno_modifyRoi (f := fun roi => { roi with inUse := true }) (fun _ => rfl)
  refine ⟨hi.setInUse face, { RendererMove.refl m with seqno := hseqno }, ?_, ?_⟩
  · refine ⟨h.lastSeq, h.drawing, h.current, fun o ho => ?_⟩
    rw [hseqno]
    exact h.older o ho
  · have hcurrent : m.currentRenderOverlay ≤ ((effect (.setInUse face) m).rois face).seqno := by
      rw [hseqno]
      exact ht.owned.current
    exact ⟨⟨ht.owned.made, ht.owned.live, hcurrent⟩, (hseqno face).trans ht.seqno⟩

theorem takeOverlay_triple :
    OverlayTriple .renderer
      (fun m => Resting m ∧ m.lastSeq < s ∧ s ≤ m.lastFaceOverlay)
      (OverlayCall.takeOverlay s) (fun _ => Resting) := by
  refine OverlayTriple.write_bind (R := Seeing s none)
    (stable_of_detector (fun _ _ hi hr h => h.move hi hr))
    (fun m hi h => setLastSeq_move hi h.1 h.2.1 h.2.2) (fun _ => ?_)
  refine OverlayTriple.read_bind (fun _ => rfl)
    (fun r m => Seeing s none m ∧ ∀ face, r = some face → Taking s face m) (fun r => ?_)
    (fun m _ hi h => ⟨h, fun face he => h.taking hi he⟩) (fun r => ?_)
  · apply stable_of_detector
    rintro m m' hi hr ⟨h, ht⟩
    exact ⟨h.move hi hr, fun face he => (ht face he).move hr⟩
  cases r with
  | none => exact .pure (fun m _ h => h.1.drawing)
  | some face =>
  have hkept : OverlayStable .renderer (fun m => Seeing s none m ∧ Taking s face m) :=
    stable_of_detector (fun m m' hi hr h => ⟨h.1.move hi hr, h.2.move hr⟩)
  -- the overlay found has its image
  refine OverlayTriple.read_bind (fun _ => rfl)
    (fun b m => b = true ∧ Seeing s none m ∧ Taking s face m)
    (fun b => (Contract.Stable.const _).and hkept) ?_ (fun b => ?_)
  · rintro m _ hi ⟨h, ht⟩
    have ht := ht face rfl
    exact ⟨hi.image face ht.owned.made ht.owned.live, h, ht⟩
  apply OverlayTriple.of_fact
  rintro rfl
  rw [if_pos rfl]
  refine OverlayTriple.write_bind (R := fun m => Seeing s none m ∧ Taking s face m) hkept
    (fun m hi h => setInUse_move hi h.1 h.2) (fun _ => ?_)
  refine Triple.bind (overlay_triple (P := fun d m => Seeing s d m ∧ Taking s face m)
    (fun d => ?_) (fun m _ h => h.2.owned) ?_) (fun _ => ?_)
  · exact stable_of_detector (fun m m' hi hr h => ⟨h.1.move hi hr, h.2.move hr⟩)
  · rintro m d d' ⟨h, ht⟩
    exact ⟨⟨h.lastSeq, rfl, h.current, h.older⟩,
      ⟨⟨ht.owned.made, ht.owned.live, ht.owned.current⟩, ht.seqno⟩⟩
  refine OverlayTriple.read_bind (P := fun m => Seeing s none m ∧ Taking s face m) (fun _ => rfl)
    (fun r m => Seeing s none m ∧ Taking s face m ∧ m.lastOverlay = r) (fun r => ?_)
    (fun m _ _ h => ⟨h.1, h.2, rfl⟩) (fun r => ?_)
  · exact taking_stable (fun _ _ _ hr h => hr.lastOverlay.trans h)
  cases r with
  | none => exact keep_triple
  | some old => exact release_bind keep_triple

theorem draw_triple : OverlayTriple .renderer Resting OverlayCall.draw (fun _ => Resting) := by
  refine OverlayTriple.read_bind (fun _ => rfl)
    (fun s m => Resting m ∧ m.lastSeq ≤ s ∧ s ≤ m.lastFaceOverlay) (fun s => ?_)
    (fun m _ hi h => ⟨h, hi.seen, le_rfl⟩) (fun s => ?_)
  · apply stable_of_detector
    rintro m m' _ hr ⟨hrest, hlast, hle⟩
    exact ⟨hr.drawing.trans hrest, hr.lastSeq.le.trans hlast, hle.trans hr.published⟩
  refine OverlayTriple.read_bind (fun _ => rfl)
    (fun r m => r ≤ s ∧ Resting m ∧ m.lastSeq = r ∧ s ≤ m.lastFaceOverlay) (fun r => ?_)
    (fun m _ hi h => ⟨h.2.1, h.1, rfl, h.2.2⟩) (fun r => ?_)
  · apply stable_of_detector
    rintro m m' _ hr ⟨hrs, hrest, hlast, hle⟩
    exact ⟨hrs, hr.drawing.trans hrest, hr.lastSeq.trans hlast, hle.trans hr.published⟩
  by_cases hne : r ≠ s
  · simp only [if_pos hne]
    refine takeOverlay_triple.weaken ?_ (fun _ _ _ h => h)
    rintro m hi ⟨hrs, hrest, hlast, hle⟩
    exact ⟨hrest, hlast ▸ lt_of_le_of_ne hrs hne, hle⟩
  · simp only [if_neg hne]
    refine OverlayTriple.read_bind (fun _ => rfl)
      (fun r m => Resting m ∧ m.lastOverlay = r) (fun r => ?_) (fun m _ _ h => ⟨h.2.1, rfl⟩)
      (fun r => ?_)
    · apply stable_of_detector
      rintro m m' _ hr ⟨hrest, hheld⟩
      exact ⟨hr.drawing.trans hrest, hr.lastOverlay.trans hheld⟩
    cases r with
    | none => exact .pure (fun _ _ h => h.1)
    | some face =>
        refine Triple.weaken (overlay_triple
          (P := fun d m => m.drawing = d ∧ m.lastOverlay = some face) (fun d => ?_) ?_ ?_)
          (fun _ _ h => h) (fun _ _ _ h => h.1)
        · apply stable_of_detector
          rintro m m' _ hr ⟨hd, hheld⟩
          exact ⟨hr.drawing.trans hd, hr.lastOverlay.trans hheld⟩
        · exact fun m hi h => (hi.held face h.2).1
        · exact fun m d d' h => ⟨rfl, h.2⟩

end Renderer

variable {T : OverlayTraffic} {p : Pool OverlayParty OverlayOp OverlayOp.Ans Unit OverlayShared}

/-- What a party relies on when it starts. -/
def overlayPre : OverlayParty → OverlayMemory → Prop
  | .detector => Scanning 1 1 []
  | .renderer => Resting

theorem overlayPre_stable (t : OverlayParty) : OverlayStable t (overlayPre t) := by
  cases t with
  | detector => exact Scanning.stable
  | renderer => exact Resting.stable

theorem overlayProgram_triple (t : OverlayParty) :
    OverlayTriple t (overlayPre t) (T.program t) (fun _ _ => True) := by
  cases t with
  | detector => exact detector_triple T.positive T.increasing T.positive
  | renderer =>
      exact (Triple.forEach (fun _ _ => draw_triple)).weaken (fun _ _ h => h)
        (fun _ _ _ _ => trivial)

theorem overlayInv_initial : T.pool.state.mem.Inv where
  entry := fun s o h => by cases h
  old := fun s o h => by cases h
  made := fun o h => by cases h
  once := List.nodup_nil
  image := fun o h => (Nat.not_lt_zero o h).elim
  positive := le_rfl
  current := Or.inl rfl
  seen := le_rfl
  held := fun o h => by cases h
  drawn := fun o h => by cases h

theorem overlayPre_initial (t : OverlayParty) : overlayPre t T.pool.state.mem := by
  cases t with
  | detector =>
      refine ⟨?_, Nat.zero_lt_one, le_rfl, ?_⟩
      · intro s o h
        cases h
      · intro s o h
        cases h
  | renderer => rfl

theorem overlayInv_of_reach (hp : Pool.Reach overlaySteps T.pool p) : p.state.mem.Inv :=
  Contract.sound_inv (C := overlayContract) overlayPre_stable overlayProgram_triple
    (overlayInv_initial (T := T)) (overlayPre_initial (T := T)) hp

/-- Every overlay is deleted at most once, and none that the renderer is drawing from or holds as
`state->lastOverlay` has been deleted. -/
theorem overlays_have_one_owner (hp : Pool.Reach overlaySteps T.pool p) :
    p.state.mem.frees.Nodup ∧ (∀ o, p.state.mem.drawing = some o → o ∉ p.state.mem.frees) ∧
      ∀ o, p.state.mem.lastOverlay = some o → o ∉ p.state.mem.frees := by
  have h := overlayInv_of_reach hp
  exact ⟨h.once, fun o ho => (h.drawn o ho).live, fun o ho => (h.held o ho).1.live⟩

/-- Two overlays are published, and drawn as they come. -/
def twoOverlays : OverlayTraffic where
  calls := [⟨1, [], List.nodup_nil⟩, ⟨2, [], List.nodup_nil⟩]
  draws := 2
  increasing := by decide
  positive := by decide

/-- The second draw deletes the overlay that the first has drawn. -/
theorem overlays_have_one_owner_two :
    ∃ p, Pool.Reach overlaySteps twoOverlays.pool p ∧ p.state.mem.frees = [0] ∧
      p.state.mem.lastOverlay = some 1 ∧ p.state.mem.frees.Nodup := by
  let detector : OverlayParty := .detector
  let renderer : OverlayParty := .renderer
  have hrun : (Pool.replay (fun b _ => OverlayMemory.exec b) (fun _ _ _ _ => true)
      (List.replicate 6 (detector, true) ++ List.replicate 12 (renderer, true) ++
        List.replicate 6 (detector, true) ++ List.replicate 15 (renderer, true))
      twoOverlays.pool).any (fun p =>
        p.state.mem.frees = [0] ∧ p.state.mem.lastOverlay = some 1) = true := by decide
  obtain ⟨p, hp, hres⟩ := (Option.any_eq_true _ _).mp hrun
  obtain ⟨hfrees, hheld⟩ := of_decide_eq_true hres
  have hreach := Pool.reach_of_replay_all _ _ _ hp
  exact ⟨p, hreach, hfrees, hheld, (overlays_have_one_owner hreach).1⟩

end ARArch
