import ARArch.EdgeOrder
import ARArch.RelyGuarantee

/-!
# Every node keeps the order

The programs of the nodes keep `Edges.Inv`, whatever the interleaving. A source node draws a
number and sends it before it draws the next; the join sends on the pairs in the order in which it
has made them; and a body of the rear router has one frame to offer, which the render node has not
yet accepted.
-/

namespace ARArch

open Atomic

/-! ### Steps -/

namespace FlowMemory

variable {b : Bool} {t : FlowNode} {s s' : FlowMemory} {i : Op} {a : i.Ans}

theorem exec_repo (hi : i.rendererKey = none) (h : exec b t (.repo i) s = some (a, s')) :
    ∃ m', Memory.exec b t i s.mem = some (a, m') ∧ s' = { s with mem := m' } := by
  simp only [exec, hi] at h
  obtain ⟨⟨r, m'⟩, hm, heq⟩ := Option.map_eq_some_iff.mp h
  cases heq
  exact ⟨m', hm, rfl⟩

/-- The render node accepts an offer or refuses it. -/
theorem exec_offer {port : ℕ} {c : CameraId} {n : SeqNo} {r : Bool}
    (h : exec b t (.repo (.tryPut port c n .renderer)) s = some (r, s')) :
    s'.mem.repo = s.mem.repo ∧ (r = false ∧ s'.edges = s.edges ∨
      r = true ∧ s'.edges = s.edges.accept t (c, n)) := by
  have hkey : (Op.tryPut port c n .renderer).rendererKey = some (c, n) := rfl
  simp only [exec, hkey] at h
  split_ifs at h
  · cases h
    exact ⟨rfl, .inr ⟨rfl, rfl⟩⟩
  · cases h
    exact ⟨rfl, .inl ⟨rfl, rfl⟩⟩

theorem exec_send {ch : Channel} {m : CameraFrame} {r : Unit}
    (h : exec b t (.send ch m) s = some (r, s')) :
    s' = { s with edges := s.edges.send ch m } := by
  cases h
  rfl

theorem exec_take {side : Side} {input : Channel} {m : CameraFrame}
    (h : exec b t (.take side input) s = some (m, s')) :
    (s.edges.sent input)[s.edges.taken side]? = some m ∧
      s' = { s with edges := s.edges.take t side } := by
  obtain ⟨m', hm, heq⟩ := Option.map_eq_some_iff.mp h
  cases heq
  exact ⟨hm, rfl⟩

theorem exec_takePair {c1 c2 : CameraId} {tt : CameraFrame × CameraFrame}
    (h : exec b t (.takePair c1 c2) s = some (tt, s')) :
    (s.edges.sent (.source c1))[s.edges.joined]? = some tt.1 ∧
      (s.edges.sent (.source c2))[s.edges.joined]? = some tt.2 ∧
      s' = { s with edges := s.edges.takePair } := by
  simp only [exec] at h
  split at h
  · rename_i m1 m2 h1 h2
    cases h
    exact ⟨h1, h2, rfl⟩
  · cases h

theorem exec_beginRender {n : SeqNo} (h : exec b t .beginRender s = some (n, s')) : s' = s := by
  obtain ⟨n', _, heq⟩ := Option.map_eq_some_iff.mp h
  cases heq
  rfl

theorem exec_mustTerminate {r : Bool} (h : exec b t .mustTerminate s = some (r, s')) :
    s' = s := by
  cases h
  rfl

theorem exec_endRender {r : Unit} (h : exec b t .endRender s = some (r, s')) :
    s' = { s with rendering := none } := by
  cases h
  rfl

end FlowMemory

namespace Flow

/-- The step moves no message and draws no number. -/
def Still (s s' : FlowShared) : Prop :=
  s'.mem.edges = s.mem.edges ∧ s'.mem.mem.repo.seqNumbers = s.mem.mem.repo.seqNumbers

theorem still_of_unmarked {t : FlowNode} {i : Op} {s s' : FlowShared} {a : i.Ans}
    (hi : i.mark = none) (h : flowSteps t (.repo i) s a s') : Still s s' := by
  obtain ⟨⟨b, he⟩, _⟩ := h
  obtain ⟨m', hm, hs⟩ := FlowMemory.exec_repo (Op.rendererKey_of_mark hi) he
  rw [Still, hs]
  exact ⟨rfl, Memory.seqNumbers_of_unmarked hi hm⟩

/-! ### The contract -/

/-- A statement about the counters and the edges. -/
abbrev On (P : Table CameraId SeqNo → Edges → Prop) (s : FlowShared) : Prop :=
  P s.mem.mem.repo.seqNumbers s.mem.edges

def frameOrder (g : Graph) : Contract FlowNode FlowShared where
  inv := On (fun counters e => e.Inv g counters)
  guar t s s' := Edges.Guar g t s.mem.mem.repo.seqNumbers s'.mem.mem.repo.seqNumbers
    s.mem.edges s'.mem.edges

variable {g : Graph} {t : FlowNode} {α : Type} {P : Table CameraId SeqNo → Edges → Prop}

theorem Still.keeps {s s' : FlowShared} (h : Still s s') (hi : (frameOrder g).inv s)
    (hP : On P s) : (frameOrder g).inv s' ∧ (frameOrder g).guar t s s' ∧ On P s' := by
  obtain ⟨he, hc⟩ := h
  simp only [frameOrder, On, he, hc] at hi hP ⊢
  exact ⟨hi, .refl t, hP⟩

theorem triple_repo (hP : (frameOrder g).Stable t (On P)) {p : Call α} (hp : p.Unmarked) :
    Triple (frameOrder g) flowSteps t (On P) (FlowCall.repo p) (fun _ => On P) :=
  .embed_unmarked hP (fun _ _ _ _ hi hinv hPs h => (still_of_unmarked hi h).keeps hinv hPs) hp

/-- The other operations that move nothing. -/
theorem triple_still (hP : (frameOrder g).Stable t (On P)) {i : FlowOp}
    (hi : ∀ s a s', flowSteps t i s a s' → Still s s') :
    Triple (frameOrder g) flowSteps t (On P) (FlowCall.perform i) (fun _ => On P) :=
  .perform (fun _ => hP) (fun s a s' hinv hPs h => (hi s a s' h).keeps hinv hPs)

theorem triple_mustTerminate (hP : (frameOrder g).Stable t (On P)) :
    Triple (frameOrder g) flowSteps t (On P) (FlowCall.perform .mustTerminate)
      (fun _ => On P) := by
  apply triple_still hP
  rintro s a s' ⟨⟨b, he⟩, _⟩
  rw [Still, FlowMemory.exec_mustTerminate he]
  exact ⟨rfl, rfl⟩

theorem stable_true : (frameOrder g).Stable t (On (fun _ _ => True)) := .const True

/-! ### The source nodes -/

/-- The number drawn for a frame; a number 0 is never looked at. -/
def Drawn (d : CameraId) (n : SeqNo) (counters : Table CameraId SeqNo) (e : Edges) : Prop :=
  n ≠ 0 → (∀ m ∈ e.sent (.source d), ∀ b ∈ m.numbers d, b < n) ∧ n < (counters d).getD 0

variable {d : CameraId} {n : SeqNo} {m : CameraFrame}

/-- Only the source node of a camera draws its numbers and sends on its edge. -/
theorem stable_source
    (hP : ∀ counters counters' e e', counters' d = counters d →
      e'.sent (.source d) = e.sent (.source d) → P counters e → P counters' e') :
    (frameOrder g).Stable (.source d) (On P) :=
  fun _ _ _ hu _ hg _ h => hP _ _ _ _ (hg.counter d hu) (hg.source d hu) h

theorem stable_drawn : (frameOrder g).Stable (.source d) (On (Drawn d n)) := by
  apply stable_source
  intro counters counters' e e' hc he h
  rw [Drawn, hc, he]
  exact h

theorem stable_ready : (frameOrder g).Stable (.source d) (On (Edges.Ready d m)) := by
  apply stable_source
  intro counters counters' e e' hc he h
  rw [Edges.Ready, hc, he]
  exact h

/-- The counter of the camera goes up. -/
theorem draw_keeps {s s' : FlowShared} (hi : (frameOrder g).inv s) {v : SeqNo}
    (hv : (s.mem.mem.repo.seqNumbers d).getD 0 ≤ v) (he : s'.mem.edges = s.mem.edges)
    (hc : s'.mem.mem.repo.seqNumbers = s.mem.mem.repo.seqNumbers.assign d v) :
    (frameOrder g).inv s' ∧ (frameOrder g).guar (.source d) s s' := by
  simp only [frameOrder, On, he, hc] at hi ⊢
  constructor
  · apply hi.mono_counters
    intro c
    by_cases hcd : c = d
    · subst hcd
      rwa [Table.assign_self]
    · rw [Table.assign_of_ne _ v hcd]
  · exact .draw (fun c hcd => Table.assign_of_ne _ v hcd)

theorem fetchAdd_keeps {s s' : FlowShared} (hi : (frameOrder g).inv s)
    (h : flowSteps (.source d) (.repo (.counterFetchAdd d)) s n s') :
    (frameOrder g).inv s' ∧ (frameOrder g).guar (.source d) s s' ∧ On (Drawn d n) s' := by
  obtain ⟨⟨b, he⟩, _⟩ := h
  obtain ⟨m', hm, hs⟩ := FlowMemory.exec_repo rfl he
  obtain ⟨hn, hm'⟩ := Memory.exec_counterFetchAdd hm
  have hedges : s'.mem.edges = s.mem.edges := by rw [hs]
  have hcounters : s'.mem.mem.repo.seqNumbers = s.mem.mem.repo.seqNumbers.assign d (n + 1) := by
    rw [hs, hm']
    rfl
  have hv : (s.mem.mem.repo.seqNumbers d).getD 0 ≤ n + 1 := by
    rw [hn]
    exact Nat.le_succ n
  obtain ⟨hi', hg⟩ := draw_keeps hi hv hedges hcounters
  refine ⟨hi', hg, fun _ => ⟨?_, ?_⟩⟩
  · intro m hm b hb
    rw [hedges] at hm
    have hlt := hi.drawn d m hm b hb
    rwa [hn] at hlt
  · rw [hcounters, Table.assign_self]
    exact Nat.lt_succ_self n

theorem create_keeps {s s' : FlowShared} (hi : (frameOrder g).inv s)
    (hnone : (s.mem.mem.repo.seqNumbers d).isSome = false)
    (h : flowSteps (.source d) (.repo (.counterCreate d)) s () s') :
    (frameOrder g).inv s' ∧ (frameOrder g).guar (.source d) s s' := by
  obtain ⟨⟨b, he⟩, _⟩ := h
  obtain ⟨m', hm, hs⟩ := FlowMemory.exec_repo rfl he
  cases hm
  have hd : s.mem.mem.repo.seqNumbers d = none := by simpa using hnone
  have hv : (s.mem.mem.repo.seqNumbers d).getD 0 ≤ 0 := by
    rw [hd]
    exact le_rfl
  exact draw_keeps hi hv (by rw [hs]) (by rw [hs]; rfl)

theorem triple_nextSeqno :
    Triple (frameOrder g) flowSteps (.source d) (On (fun _ _ => True))
      (FlowCall.repo (Call.nextSeqno d)) (fun n => On (Drawn d n)) := by
  rw [FlowCall.repo, Call.nextSeqno, Prog.embed_bind]
  apply Triple.bind (M := fun isKnown => On (fun counters _ => (counters d).isSome = isKnown))
  · apply Triple.perform
    · intro isKnown
      apply stable_source
      intro counters counters' e e' hc _ h
      rwa [hc]
    · intro s isKnown s' hi _ h
      have hstill := still_of_unmarked rfl h
      obtain ⟨⟨b, he⟩, _⟩ := h
      obtain ⟨m', hm, _⟩ := FlowMemory.exec_repo rfl he
      have hknown : On (fun counters _ => (counters d).isSome = isKnown) s :=
        (Memory.exec_counterFind hm).1.symm
      exact hstill.keeps hi hknown
  · intro isKnown
    cases isKnown with
    | true =>
        apply Triple.perform (fun _ => stable_drawn)
        intro s n s' hi _ h
        exact fetchAdd_keeps hi h
    | false =>
        apply Triple.perform_bind (fun _ => On (fun _ _ => True)) (fun _ => stable_true)
        · intro s _ s' hi hnone h
          obtain ⟨hi', hg⟩ := create_keeps hi hnone h
          exact ⟨hi', hg, trivial⟩
        · intro _
          exact .pure (fun _ _ _ h => absurd rfl h)

theorem triple_monoCameraSource (frame : Option FrameRef) :
    Triple (frameOrder g) flowSteps (.source d) (On (fun _ _ => True))
      (FlowCall.repo (Call.monoCameraSource d frame)) (fun m => On (Edges.Ready d m)) := by
  cases frame with
  | none =>
      apply Triple.pure
      intro s _ _
      exact ⟨.inl rfl, by simp [CameraFrame.numbers_empty]⟩
  | some f =>
      rw [FlowCall.repo, Call.monoCameraSource, Call.newFrame]
      simp only [Prog.embed_bind]
      apply Triple.bind (M := fun n => On (Drawn d n))
      · apply Triple.bind triple_nextSeqno
        intro n
        apply Triple.bind (triple_repo stable_drawn (.perform rfl))
        intro _
        apply Triple.bind (triple_repo stable_drawn Call.inner_registerFrame.unmarked)
        intro _
        exact .pure (fun _ _ h => h)
      · intro n
        apply Triple.pure
        intro s _ hdrawn
        refine ⟨.inr ⟨n, rfl⟩, fun a ha => ?_⟩
        have hne := CameraFrame.ne_zero_of_mem_numbers ha
        cases CameraFrame.eq_of_mem_numbers_mono ha
        exact hdrawn hne

theorem triple_send_source (hg : g.WellFed) :
    Triple (frameOrder g) flowSteps (.source d) (On (Edges.Ready d m))
      (FlowCall.perform (.send (.source d) m)) (fun _ => On (fun _ _ => True)) := by
  apply Triple.perform (fun _ => stable_true)
  intro s _ s' hi hready h
  obtain ⟨⟨b, he⟩, _⟩ := h
  have hs := FlowMemory.exec_send he
  simp only [frameOrder, On, hs] at hi ⊢
  exact ⟨hi.send_source hg hready, .send_source, trivial⟩

theorem triple_cameraSource (hg : g.WellFed) (frames : List (Option FrameRef)) :
    Triple (frameOrder g) flowSteps (.source d) (On (fun _ _ => True))
      (FlowCall.cameraSource d frames) (fun _ => On (fun _ _ => True)) := by
  induction frames with
  | nil => exact .pure (fun _ _ h => h)
  | cons frame frames ih =>
      unfold FlowCall.cameraSource
      apply Triple.bind (triple_monoCameraSource frame)
      intro m
      apply Triple.bind (triple_mustTerminate stable_ready)
      intro isTerminating
      cases isTerminating with
      | true => exact .pure (fun _ _ _ => trivial)
      | false => exact (triple_send_source hg).bind (fun _ => ih)

/-! ### The join -/

/-- The join has sent on all the pairs it has made. -/
def Joined (_ : Table CameraId SeqNo) (e : Edges) : Prop := e.joined = (e.sent .join).length

/-- The join has made one pair more. -/
def Joining (c1 c2 : CameraId) (tt : CameraFrame × CameraFrame) (_ : Table CameraId SeqNo)
    (e : Edges) : Prop :=
  e.joined = (e.sent .join).length + 1 ∧
    (e.sent (.source c1))[(e.sent .join).length]? = some tt.1 ∧
    (e.sent (.source c2))[(e.sent .join).length]? = some tt.2

variable {c1 c2 : CameraId} {tt : CameraFrame × CameraFrame}

theorem stable_joined : (frameOrder g).Stable .join (On Joined) := by
  intro u s s' hu _ hg _ h
  obtain ⟨hsent, hjoined⟩ := hg.join hu
  simp only [On, Joined, hsent, hjoined] at h ⊢
  exact h

theorem stable_joining : (frameOrder g).Stable .join (On (Joining c1 c2 tt)) := by
  intro u s s' hu _ hg _ h
  obtain ⟨hsent, hjoined⟩ := hg.join hu
  simp only [On, Joining, hsent, hjoined] at h ⊢
  obtain ⟨hcount, h1, h2⟩ := h
  exact ⟨hcount, getElem?_of_prefix (hg.kept _) h1, getElem?_of_prefix (hg.kept _) h2⟩

theorem triple_takePair :
    Triple (frameOrder g) flowSteps .join (On Joined) (FlowCall.perform (.takePair c1 c2))
      (fun tt => On (Joining c1 c2 tt)) := by
  apply Triple.perform (fun _ => stable_joining)
  intro s tt s' hi hjoined h
  obtain ⟨⟨b, he⟩, _⟩ := h
  obtain ⟨h1, h2, hs⟩ := FlowMemory.exec_takePair he
  simp only [frameOrder, On, hs] at hi hjoined ⊢
  rw [hjoined] at h1 h2
  exact ⟨hi.takePair, .takePair, congrArg (· + 1) hjoined, h1, h2⟩

/-- The join may send what names the same frames of the first camera as the first message. -/
theorem triple_send_join (hin : g.rear.input = .join)
    (hm : tt.1.FromSource g.rear.camera → tt.2.FromSource c2 →
      m.numbers g.rear.camera = tt.1.numbers g.rear.camera) :
    Triple (frameOrder g) flowSteps .join (On (Joining g.rear.camera c2 tt))
      (FlowCall.perform (.send .join m)) (fun _ => On Joined) := by
  apply Triple.perform (fun _ => stable_joined)
  intro s _ s' hi hjoining h
  obtain ⟨⟨b, he⟩, _⟩ := h
  have hs := FlowMemory.exec_send he
  obtain ⟨hcount, h1, h2⟩ := hjoining
  have hnumbers := hm (hi.shape _ _ (List.mem_of_getElem? h1))
    (hi.shape _ _ (List.mem_of_getElem? h2))
  simp only [frameOrder, On, hs] at hi ⊢
  refine ⟨hi.send_join hin h1 hnumbers, .send_join, ?_⟩
  rw [Joined, Edges.sent_send_self, List.length_append]
  exact hcount

theorem triple_joinProcessor (hin : g.rear.input = .join) (hc : c2 ≠ g.rear.camera) :
    Triple (frameOrder g) flowSteps .join (On Joined)
      (FlowCall.joinProcessor g.rear.camera c2) (fun _ => On Joined) := by
  apply Triple.bind triple_takePair
  intro tt
  split_ifs
  · exact triple_send_join hin (fun _ _ => rfl)
  · apply Triple.bind (triple_repo stable_joining Call.inner_stereoPair.unmarked)
    intro _
    exact triple_send_join hin (CameraFrame.numbers_joinFrames hc)

/-! ### The routers -/

/-- A worker of the rear router works on the message that was its turn, with the offers in `L`
still to make; it has made none of them. -/
def Working (g : Graph) (w : ℕ) (m : CameraFrame) (L : List Mark) (_ : Table CameraId SeqNo)
    (e : Edges) : Prop :=
  L <:+ Call.offered g.rear.map m.keys ∧
    (∃ i, e.turn (.router .rear w) = i + 1 ∧ (e.sent g.rear.input)[i]? = some m) ∧
    (L ≠ [] → ∀ x ∈ e.rendered, x.1 ≠ e.turn (.router .rear w))

variable {w : ℕ} {L L' : List Mark}

theorem Working.suffix {counters : Table CameraId SeqNo} {e : Edges}
    (h : Working g w m L counters e) (hL : L' <:+ L) : Working g w m L' counters e := by
  obtain ⟨hsuffix, hturn, hnew⟩ := h
  refine ⟨hL.trans hsuffix, hturn, fun hne => hnew ?_⟩
  rintro rfl
  exact hne (List.suffix_nil.mp hL)

theorem stable_working : (frameOrder g).Stable (.router .rear w) (On (Working g w m L)) := by
  intro u s s' hu hi hg _ h
  obtain ⟨hsuffix, ⟨i, hi', hm⟩, hnew⟩ := h
  have hturn := hg.turn _ (Ne.symm hu)
  refine ⟨hsuffix, ⟨i, hturn.trans hi', getElem?_of_prefix (hg.kept _) hm⟩, fun hne => ?_⟩
  rw [hturn]
  obtain hsame | ⟨v, key, _, rfl, hcons⟩ := hg.rendered
  · rw [hsame]
    exact hnew hne
  · rw [hcons]
    intro x hx
    obtain rfl | hx := List.mem_cons.mp hx
    · -- two workers never have the same turn
      intro (heq : s.mem.edges.turn (.router .rear v) = s.mem.edges.turn (.router .rear w))
      have hv : v = w := hi.apart v w heq (by omega)
      exact hu (by rw [hv])
    · exact hnew hne x hx

theorem triple_take_rear :
    Triple (frameOrder g) flowSteps (.router .rear w) (On (fun _ _ => True))
      (FlowCall.perform (.take .rear g.rear.input))
      (fun m => On (Working g w m (Call.offered g.rear.map m.keys))) := by
  apply Triple.perform (fun _ => stable_working)
  intro s m s' hi _ h
  obtain ⟨⟨b, he⟩, _⟩ := h
  obtain ⟨hm, hs⟩ := FlowMemory.exec_take he
  simp only [frameOrder, On, hs] at hi ⊢
  refine ⟨hi.take_rear, .take .rear, List.suffix_rfl, ⟨_, Edges.turn_take_self _ _ _, hm⟩, ?_⟩
  intro _ x hx
  have hx := hi.bounded x hx
  rw [Edges.turn_take_self]
  omega

/-- An offer that a worker of the rear router makes. -/
theorem offer_keeps {x : Mark} {i : Op} {s s' : FlowShared} {a : i.Ans}
    (hw : w < g.rear.concurrency) (hmark : i.mark = some x) (hi : (frameOrder g).inv s)
    (h : On (Working g w m (x :: L)) s) (hstep : flowSteps (.router .rear w) (.repo i) s a s') :
    (frameOrder g).inv s' ∧ (frameOrder g).guar (.router .rear w) s s' ∧
      On (Working g w m L) s' := by
  have hworking := h.suffix (List.suffix_cons x L)
  obtain ⟨hsuffix, ⟨j, hj, hm⟩, hnew⟩ := h
  obtain ⟨key, hkey, hcamera, rfl⟩ :=
    Call.exists_of_mem_offered (hsuffix.subset List.mem_cons_self)
  obtain ⟨port, rfl⟩ := Op.eq_tryPut_of_mark hmark
  obtain ⟨⟨b, he⟩, _⟩ := hstep
  obtain ⟨hrepo, ⟨_, hedges⟩ | ⟨_, hedges⟩⟩ := FlowMemory.exec_offer he
  · have hstill : Still s s' := ⟨hedges, by rw [hrepo]⟩
    exact hstill.keeps hi hworking
  · have hplaced : s.mem.edges.Placed g (s.mem.edges.turn (.router .rear w), key) := by
      refine ⟨hcamera, j, m, hj, hm, ?_⟩
      rw [CameraFrame.mem_numbers, ← hcamera]
      exact hkey
    have hnil : L = [] := hi.eq_nil_of_offer hm hsuffix
    simp only [frameOrder, On, hedges, hrepo] at hi ⊢
    refine ⟨hi.accept hw hplaced (hnew (List.cons_ne_nil _ _)), .accept hw, ?_⟩
    exact ⟨hworking.1, ⟨j, hj, hm⟩, fun hne => absurd hnil hne⟩

theorem triple_routerBody_rear (hw : w < g.rear.concurrency) :
    Triple (frameOrder g) flowSteps (.router .rear w) (On (fun _ _ => True))
      (FlowCall.routerBody .rear g.rear) (fun _ => On (fun _ _ => True)) := by
  apply Triple.bind triple_take_rear
  intro m
  have hbody : Triple (frameOrder g) flowSteps (.router .rear w)
      (On (Working g w m (Call.offered g.rear.map m.keys)))
      (FlowCall.repo (Call.router g.rear.map m)) (fun _ => On (Working g w m [])) := by
    apply Triple.embed_within (R := fun L => On (Working g w m L)) (fun _ => stable_working)
      (fun s hL h => h.suffix hL) _ _ (Call.marks_router m)
    · intro L i s a s' hi hinv h hstep
      exact (still_of_unmarked hi hstep).keeps hinv h
    · intro x L i s a s' hmark hinv h hstep
      exact offer_keeps hw hmark hinv h hstep
  exact hbody.weaken (fun _ _ h => h) (fun _ _ _ _ => trivial)

theorem triple_routerBody_front {node : RouterNode} (hnode : node.params.renderer = false) :
    Triple (frameOrder g) flowSteps (.router .front w) (On (fun _ _ => True))
      (FlowCall.routerBody .front node) (fun _ => On (fun _ _ => True)) := by
  apply Triple.bind (M := fun _ => On (fun _ _ => True))
  · apply Triple.perform (fun _ => stable_true)
    intro s m s' hi _ h
    obtain ⟨⟨b, he⟩, _⟩ := h
    obtain ⟨_, hs⟩ := FlowMemory.exec_take he
    simp only [frameOrder, On, hs] at hi ⊢
    exact ⟨hi.take_front, .take .front, trivial⟩
  · intro m
    have hunmarked : (Call.router node.map m).Unmarked := by
      have hmarks : (Call.router node.map m).Marks (Call.offered node.map m.keys) :=
        Call.marks_router m
      rwa [Call.offered_eq_nil hnode] at hmarks
    exact triple_repo stable_true hunmarked

/-! ### The render node -/

theorem triple_beginRender :
    Triple (frameOrder g) flowSteps t (On (fun _ _ => True)) (FlowCall.perform .beginRender)
      (fun _ => On (fun _ _ => True)) := by
  apply triple_still stable_true
  rintro s a s' ⟨⟨b, he⟩, _⟩
  rw [Still, FlowMemory.exec_beginRender he]
  exact ⟨rfl, rfl⟩

theorem triple_endRender :
    Triple (frameOrder g) flowSteps t (On (fun _ _ => True)) (FlowCall.perform .endRender)
      (fun _ => On (fun _ _ => True)) := by
  apply triple_still stable_true
  rintro s a s' ⟨⟨b, he⟩, _⟩
  rw [Still, FlowMemory.exec_endRender he]
  exact ⟨rfl, rfl⟩

theorem triple_unlessTerminated {body : Call Unit} (hbody : body.Unmarked) :
    Triple (frameOrder g) flowSteps t (On (fun _ _ => True))
      (FlowCall.unlessTerminated body d n) (fun _ => On (fun _ _ => True)) := by
  unfold FlowCall.unlessTerminated
  split_ifs
  · exact triple_repo stable_true Call.unmarked_deleteFrame
  · apply Triple.bind (triple_mustTerminate stable_true)
    intro isTerminating
    cases isTerminating with
    | true => exact triple_repo stable_true Call.unmarked_deleteFrame
    | false => exact triple_repo stable_true hbody

theorem triple_render (type : RendererType) :
    Triple (frameOrder g) flowSteps t (On (fun _ _ => True)) (FlowCall.render type d)
      (fun _ => On (fun _ _ => True)) := by
  apply Triple.bind triple_beginRender
  intro n
  apply Triple.bind (M := fun _ => On (fun _ _ => True)) _ (fun _ => triple_endRender)
  cases type with
  | standard => exact triple_unlessTerminated Call.unmarked_tbbRender
  | benchmark => exact triple_unlessTerminated Call.unmarked_tbbBenchmarkRender
  | none => exact .pure (fun _ _ h => h)

/-! ### The graph -/

/-- The join starts with no pair that it has not sent on. -/
def pre (t : FlowNode) (s : FlowShared) : Prop := t = .join → On Joined s

theorem stable_pre : (frameOrder g).Stable t (pre t) := by
  apply Contract.Stable.imp_const
  rintro rfl
  exact stable_joined

variable {F : Flow}

theorem triple_loop {body : FlowCall Unit}
    (h : Triple (frameOrder g) flowSteps t (On P) body (fun _ => On P)) :
    Triple (frameOrder g) flowSteps t (On P) (F.loop t body) (fun _ => On P) :=
  .forEach (fun _ _ => h)

theorem triple_pure : Triple (frameOrder g) flowSteps t (On (fun _ _ => True))
    (pure () : FlowCall Unit) (fun _ => On (fun _ _ => True)) :=
  .pure (fun _ _ h => h)

/-- What the other nodes do, at any time. -/
theorem triple_other (hg : F.graph.WellFed) (ht : t ≠ .join) :
    Triple (frameOrder F.graph) flowSteps t (On (fun _ _ => True)) (F.program t)
      (fun _ => On (fun _ _ => True)) := by
  cases t with
  | source d =>
      simp only [program]
      split_ifs
      · exact triple_cameraSource hg _
      · exact triple_pure
  | join => exact absurd rfl ht
  | router side w =>
      cases side with
      | rear =>
          simp only [program, Graph.router]
          split_ifs with hw
          · exact triple_loop (triple_routerBody_rear hw)
          · exact triple_pure
      | front =>
          cases hnode : F.graph.front with
          | none =>
              simp only [program, Graph.router, hnode]
              exact triple_pure
          | some node =>
              simp only [program, Graph.router, hnode]
              split_ifs
              · exact triple_loop (triple_routerBody_front (hg.front node hnode))
              · exact triple_pure
  | detector side n =>
      simp only [program]
      split
      · exact triple_pure
      · exact triple_repo stable_true (.perform_bind rfl (fun _ => Call.unmarked_detectorNode))
  | tracker side n =>
      simp only [program]
      split
      · exact triple_pure
      · exact triple_repo stable_true (.perform_bind rfl (fun _ => Call.unmarked_consume))
  | render => exact triple_loop (triple_render _)

theorem triple_join (hg : F.graph.WellFed) :
    Triple (frameOrder F.graph) flowSteps .join (On Joined) (F.program .join)
      (fun _ => On Joined) := by
  obtain ⟨hpair, _⟩ | ⟨c2, hc, hpair, hin⟩ := hg.fed
  · simp only [program, hpair]
    exact .pure (fun _ _ h => h)
  · simp only [program, hpair]
    exact triple_loop (triple_joinProcessor hin hc)

theorem triple_program (hg : F.graph.WellFed) (t : FlowNode) :
    Triple (frameOrder F.graph) flowSteps t (pre t) (F.program t) (fun _ _ => True) := by
  by_cases ht : t = .join
  · subst ht
    exact (triple_join hg).weaken (fun _ _ h => h rfl) (fun _ _ _ _ => trivial)
  · exact (triple_other hg ht).weaken (fun _ _ _ => trivial) (fun _ _ _ _ => trivial)

end Flow
end ARArch
