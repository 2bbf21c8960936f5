import ARArch.RenderOrder

/-!
# When frames are shown in order

A step is in turn unless the render node accepts a frame from a body whose message was taken
before one that has had its frame accepted; where the rear router runs one body at a time every
step counts as in turn. The numbers that the render node accepts ascend if and only if all steps
are in turn.
-/

namespace ARArch

open Atomic

/-- The graphs that are built are fed as they should be, if the cameras are different ones. -/
theorem wellFed_of_makeArchitecture {rear front : List CameraId} {a : Architecture}
    (hnodup : (rear ++ front).Nodup) (ha : makeArchitecture rear front = some a) :
    a.graph.WellFed := by
  have hfront (c : CameraId) (node : RouterNode) (h : some (frontRouter c) = some node) :
      node.params.renderer = false := by
    cases h
    rfl
  have hnone (node : RouterNode) (h : none = some node) : node.params.renderer = false := nomatch h
  have hne (rear1 rear2 : CameraId) (cameras : List CameraId)
      (h : (rear1 :: rear2 :: cameras).Nodup) : rear2 ≠ rear1 := by
    rintro rfl
    simp at h
  match rear, front, ha with
  | [rear1], [], rfl => exact ⟨hnone, .inl ⟨rfl, rfl⟩⟩
  | [], front1 :: _, rfl => exact ⟨hnone, .inl ⟨rfl, rfl⟩⟩
  | [rear1], front1 :: _, rfl => exact ⟨hfront front1, .inl ⟨rfl, rfl⟩⟩
  | rear1 :: rear2 :: _, [], rfl =>
      exact ⟨hnone, .inr ⟨rear2, hne rear1 rear2 _ hnodup, rfl, rfl⟩⟩
  | rear1 :: rear2 :: _, front1 :: _, rfl =>
      exact ⟨hfront front1, .inr ⟨rear2, hne rear1 rear2 _ hnodup, rfl, rfl⟩⟩

namespace Flow

/-- Where the rear router runs several bodies, the render node has not accepted a frame of a later
message than the one whose frame it accepts now. -/
def InTurn (F : Flow) (t : FlowNode) : (i : FlowOp) → FlowShared → i.Ans → Prop
  | .repo (.tryPut _ _ _ .renderer), s, isAccepted =>
    isAccepted = true → F.graph.rear.concurrency ≠ 1 →
      ∀ x ∈ s.mem.edges.rendered, x.1 ≤ s.mem.edges.turn t
  | _, _, _ => True

/-- The frames accepted are of ascending turns. -/
def Ordered (e : Edges) : Prop := e.rendered.Pairwise (fun later earlier => earlier.1 < later.1)

variable {F : Flow} {r : Repository} {c : Pool FlowNode FlowOp FlowOp.Ans Unit FlowShared}
  {s s' : FlowShared} {t : FlowNode} {i : FlowOp} {a : i.Ans}

theorem inv_pool : (frameOrder F.graph).inv (F.pool r).state := Edges.Inv.empty _

theorem pre_pool (t : FlowNode) : pre t (F.pool r).state := fun _ => rfl

theorem inv_of_reach (hg : F.graph.WellFed) (hr : Pool.Reach flowSteps (F.pool r) c) :
    (frameOrder F.graph).inv c.state :=
  Contract.sound_inv (fun _ => stable_pre) (triple_program hg) inv_pool pre_pool hr

theorem guar_of_step (hg : F.graph.WellFed) (hr : Pool.Reach flowSteps (F.pool r) c)
    {k : i.Ans → FlowCall Unit} (hc : c.threads t = .call i k) (ha : flowSteps t i c.state a s') :
    (frameOrder F.graph).guar t c.state s' :=
  Contract.sound_step (fun _ => stable_pre) (triple_program hg) inv_pool pre_pool hr hc ha

/-- The numbers that are shown ascend if the turns do. -/
theorem shown_ascending_iff (hi : (frameOrder F.graph).inv s) :
    (F.shown s).Pairwise (fun later earlier => earlier < later) ↔ Ordered s.mem.edges := by
  have hshown : F.shown s = s.mem.edges.rendered.map (fun x => x.2.2) := by
    rw [shown, List.filter_eq_self.mpr]
    intro x hx
    exact decide_eq_true (hi.placed x hx).1
  have honce : s.mem.edges.rendered.Pairwise (fun x y => x.1 ≠ y.1) :=
    List.pairwise_map.mp hi.once
  rw [hshown, List.pairwise_map]
  constructor
  · intro h
    apply (h.and honce).imp_of_mem
    intro x y hx hy hxy
    exact (hi.lt_iff_lt (hi.placed y hy) (hi.placed x hx) hxy.2.symm).mp hxy.1
  · intro h
    apply h.imp_of_mem
    intro x y hx hy hxy
    exact (hi.lt_iff_lt (hi.placed y hy) (hi.placed x hx) hxy.ne).mpr hxy

theorem inTurn_iff (h : flowSteps t i s a s') :
    F.InTurn t i s a ↔ ∀ key,
      s'.mem.edges.rendered = (s.mem.edges.turn t, key) :: s.mem.edges.rendered →
      F.graph.rear.concurrency ≠ 1 → ∀ x ∈ s.mem.edges.rendered, x.1 ≤ s.mem.edges.turn t := by
  have hsame {p : Prop} (hs : s'.mem.edges.rendered = s.mem.edges.rendered) :
      ∀ key, s'.mem.edges.rendered = (s.mem.edges.turn t, key) :: s.mem.edges.rendered → p := by
    intro key hkey
    rw [hs] at hkey
    exact absurd hkey.symm (List.cons_ne_self _ _)
  obtain ⟨⟨b, he⟩, -⟩ := h
  cases i with
  | repo j =>
      have hrepo (hj : j.rendererKey = none) :
          s'.mem.edges.rendered = s.mem.edges.rendered := by
        obtain ⟨m', _, hs⟩ := FlowMemory.exec_repo hj he
        rw [hs]
      cases j
      case tryPut port c n u =>
          cases u with
          | renderer =>
              obtain ⟨_, ⟨hrefused, hedges⟩ | ⟨haccepted, hedges⟩⟩ := FlowMemory.exec_offer he
              · apply iff_of_true
                · intro haccepted
                  rw [hrefused] at haccepted
                  cases haccepted
                · exact hsame (by rw [hedges])
              · constructor
                · intro hturn _ _
                  exact hturn haccepted
                · intro h _
                  exact h (c, n) (by rw [hedges]; rfl)
          | detector => exact iff_of_true trivial (hsame (hrepo rfl))
          | tracker => exact iff_of_true trivial (hsame (hrepo rfl))
      all_goals exact iff_of_true trivial (hsame (hrepo rfl))
  | mustTerminate => exact iff_of_true trivial (hsame (by rw [FlowMemory.exec_mustTerminate he]))
  | send ch m => exact iff_of_true trivial (hsame (by rw [FlowMemory.exec_send he]; rfl))
  | takePair c1 c2 =>
      exact iff_of_true trivial (hsame (by rw [(FlowMemory.exec_takePair he).2.2]; rfl))
  | take side input =>
      exact iff_of_true trivial (hsame (by rw [(FlowMemory.exec_take he).2]; rfl))
  | beginRender => exact iff_of_true trivial (hsame (by rw [FlowMemory.exec_beginRender he]))
  | endRender => exact iff_of_true trivial (hsame (by rw [FlowMemory.exec_endRender he]))

/-- A step keeps the turns ascending if it is in turn. -/
theorem ordered_step_iff (hi : (frameOrder F.graph).inv s) (hi' : (frameOrder F.graph).inv s')
    (hg : (frameOrder F.graph).guar t s s') (h : flowSteps t i s a s') :
    Ordered s'.mem.edges ↔ Ordered s.mem.edges ∧ F.InTurn t i s a := by
  rw [inTurn_iff h]
  obtain hsame | ⟨w, key, hw, rfl, hcons⟩ := hg.rendered
  · rw [Ordered, Ordered, hsame]
    apply Iff.symm
    apply and_iff_left
    intro key hkey
    exact absurd hkey.symm (List.cons_ne_self _ _)
  · have honce := hi'.once
    rw [hcons, List.map_cons, List.nodup_cons] at honce
    rw [Ordered, hcons, List.pairwise_cons, and_comm]
    apply and_congr_right
    intro _
    constructor
    · intro hlt _ _ _ x hx
      exact (hlt x hx).le
    · intro hle x hx
      have hne : x.1 ≠ s.mem.edges.turn (.router .rear w) := by
        intro heq
        exact honce.1 (List.mem_map.mpr ⟨x, hx, heq⟩)
      apply lt_of_le_of_ne _ hne
      by_cases hserial : F.graph.rear.concurrency = 1
      · have hw0 : w = 0 := by omega
        subst hw0
        exact hi.serial hserial x hx
      · exact hle key rfl hserial x hx

theorem ordered_of_reach (hg : F.graph.WellFed)
    (hr : Pool.Reach (flowSteps.restrict F.InTurn) (F.pool r) c) :
    Pool.Reach flowSteps (F.pool r) c ∧ Ordered c.state.mem.edges := by
  induction hr with
  | refl => exact ⟨.refl, .nil⟩
  | tail _ hstep ih =>
      cases hstep with
      | @call t i k a s' hc ha =>
          obtain ⟨hr, ho⟩ := ih
          have hr' := hr.tail (.call hc ha.1)
          have hstep := ordered_step_iff (inv_of_reach hg hr) (inv_of_reach hg hr')
            (guar_of_step hg hr hc ha.1) ha.1
          exact ⟨hr', hstep.mpr ⟨ho, ha.2⟩⟩

theorem reach_of_ordered (hg : F.graph.WellFed) (hr : Pool.Reach flowSteps (F.pool r) c)
    (ho : Ordered c.state.mem.edges) :
    Pool.Reach (flowSteps.restrict F.InTurn) (F.pool r) c := by
  induction hr with
  | refl => exact .refl
  | tail hr hstep ih =>
      cases hstep with
      | @call t i k a s' hc ha =>
          have hr' := hr.tail (.call hc ha)
          have hstep := ordered_step_iff (inv_of_reach hg hr) (inv_of_reach hg hr')
            (guar_of_step hg hr hc ha) ha
          obtain ⟨ho, hturn⟩ := hstep.mp ho
          exact (ih ho).tail (.call hc ⟨ha, hturn⟩)

/-- Where the rear router runs one body at a time, every step is in turn. -/
theorem reach_of_serial (hserial : F.graph.rear.concurrency = 1)
    (hr : Pool.Reach flowSteps (F.pool r) c) :
    Pool.Reach (flowSteps.restrict F.InTurn) (F.pool r) c := by
  have hturn (t : FlowNode) (i : FlowOp) (s : FlowShared) (a : i.Ans) : F.InTurn t i s a := by
    unfold InTurn
    split
    · exact fun _ hne => absurd hserial hne
    · trivial
  have hstep : Pool.Step (α := Unit) flowSteps ≤ Pool.Step (flowSteps.restrict F.InTurn) := by
    intro c c' hstep
    cases hstep with
    | call hc ha => exact .call hc ⟨ha, hturn _ _ _ _⟩
  exact Relation.ReflTransGen.mono hstep _ _ hr

/-- One rear camera, or a front camera alone: the numbers shown always ascend. -/
theorem shown_in_order_of_serial (hg : F.graph.WellFed) (hserial : F.graph.rear.concurrency = 1)
    (hr : Pool.Reach flowSteps (F.pool r) c) :
    (F.shown c.state).Pairwise (fun later earlier => earlier < later) :=
  (shown_ascending_iff (inv_of_reach hg hr)).mpr
    (ordered_of_reach hg (reach_of_serial hserial hr)).2

end Flow

/-- The numbers of the rear, or only, camera that the render node has accepted ascend if and only
if all steps so far were in turn. -/
theorem shown_in_order_iff {rear front : List CameraId} {a : Architecture} {F : Flow}
    {r : Repository} {c : Pool FlowNode FlowOp FlowOp.Ans Unit FlowShared}
    (hnodup : (rear ++ front).Nodup) (ha : makeArchitecture rear front = some a)
    (hF : F.graph = a.graph) (hr : Pool.Reach flowSteps (F.pool r) c) :
    (F.shown c.state).Pairwise (fun later earlier => earlier < later) ↔
      Pool.Reach (flowSteps.restrict F.InTurn) (F.pool r) c := by
  have hg : F.graph.WellFed := by
    rw [hF]
    exact wellFed_of_makeArchitecture hnodup ha
  rw [Flow.shown_ascending_iff (Flow.inv_of_reach hg hr)]
  constructor
  · exact Flow.reach_of_ordered hg hr
  · intro h
    exact (Flow.ordered_of_reach hg h).2

/-- Two cameras with a map and a counter each, and frames that hold an image. -/
def twoCameras : Repository where
  seqNumbers := (Table.empty.assign 0 1).assign 1 1
  cameraFrames := (Table.empty.assign 0 Table.empty).assign 1 Table.empty
  infos := fun _ => { rgbaLen := 1 }

/-- A graph that gets two frames of each of its cameras. -/
def twoFramesEach (a : Architecture) : Flow where
  graph := a.graph
  detectorType := fun _ => .none
  rendererType := .standard
  frames := fun camera => [some (2 * camera), some (2 * camera + 1)]
  turns := fun _ => 2

/-- A node takes that many steps, with that answer from outside. -/
def schedule (l : List (FlowNode × ℕ × Bool)) : List (FlowNode × Bool) :=
  l.flatMap (fun x => List.replicate x.2.1 (x.1, x.2.2))

/-- The source node registers a frame and sends its message. -/
def sourceTurn (camera : CameraId) : List (FlowNode × ℕ × Bool) :=
  [(.source camera, 6, true), (.source camera, 1, false), (.source camera, 1, true)]

/-- One rear camera: its two frames are rendered one after the other. -/
theorem shown_in_order_iff_mono : ∃ c : Pool FlowNode FlowOp FlowOp.Ans Unit FlowShared,
    (twoFramesEach (.mono 0)).shown c.state = [2, 1] ∧
    (((twoFramesEach (.mono 0)).shown c.state).Pairwise (fun later earlier => earlier < later) ↔
      Pool.Reach (flowSteps.restrict (twoFramesEach (.mono 0)).InTurn)
        ((twoFramesEach (.mono 0)).pool twoCameras) c) := by
  let turns : List (FlowNode × ℕ × Bool) :=
    [(.router .rear 0, 11, true), (.render, 1, true), (.render, 1, false), (.render, 17, true),
      (.router .rear 0, 9, true)]
  have hrun : (Pool.replay FlowMemory.exec (fun _ _ _ _ => true)
      (schedule (sourceTurn 0 ++ sourceTurn 0 ++ turns))
      ((twoFramesEach (.mono 0)).pool twoCameras)).any
      (fun c => (twoFramesEach (.mono 0)).shown c.state = [2, 1]) = true := by decide +kernel
  obtain ⟨c, hc, hshown⟩ := (Option.any_eq_true _ _).mp hrun
  have ha : makeArchitecture [0] [] = some (.mono 0) := rfl
  exact ⟨c, of_decide_eq_true hshown,
    shown_in_order_iff (by decide) ha rfl (Pool.reach_of_replay_all _ _ c hc)⟩

/-- Two rear cameras. The body for the first pair has handed its frame to the detector when the
body for the second pair hands its own to the tracker and the render node; the render node is
done with that when the first body offers its frame. -/
theorem shown_out_of_order :
    ¬∀ (rear front : List CameraId) (a : Architecture) (F : Flow) (r : Repository)
      (c : Pool FlowNode FlowOp FlowOp.Ans Unit FlowShared),
      (rear ++ front).Nodup → makeArchitecture rear front = some a → F.graph = a.graph →
      Pool.Reach flowSteps (F.pool r) c →
      (F.shown c.state).Pairwise (fun later earlier => earlier < later) := by
  intro h
  let turns : List (FlowNode × ℕ × Bool) :=
    [(.join, 12, true),
      (.router .rear 0, 6, true), (.router .rear 0, 1, false), (.router .rear 0, 2, true),
      (.router .rear 1, 6, true), (.router .rear 1, 3, false), (.router .rear 1, 4, true),
      (.render, 1, true), (.render, 1, false), (.render, 15, true),
      (.router .rear 0, 1, true)]
  have hrun : (Pool.replay FlowMemory.exec (fun _ _ _ _ => true)
      (schedule (sourceTurn 0 ++ sourceTurn 0 ++ sourceTurn 1 ++ sourceTurn 1 ++ turns))
      ((twoFramesEach (.stereo 0 1)).pool twoCameras)).any
      (fun c => (twoFramesEach (.stereo 0 1)).shown c.state = [1, 2]) = true := by decide +kernel
  obtain ⟨c, hc, hshown⟩ := (Option.any_eq_true _ _).mp hrun
  have hordered := h [0, 1] [] (.stereo 0 1) _ _ c (by decide) rfl rfl
    (Pool.reach_of_replay_all _ _ c hc)
  rw [of_decide_eq_true hshown] at hordered
  have hlt := (List.pairwise_cons.mp hordered).1 2 (List.mem_singleton_self 2)
  exact absurd hlt (by decide)

end ARArch
