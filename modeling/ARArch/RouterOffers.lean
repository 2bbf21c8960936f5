import ARArch.FlowGraph

/-!
# What the router offers

Two kinds of calls matter to the order in which frames are rendered: those that change the counter
of a camera, and the offers to the render node. A source node draws one number for a frame; the
body of a router offers the frames that its message names and its map routes to a renderer, in
their order and each once. No other call of a node is of either kind.
-/

namespace ARArch

open Atomic

inductive Mark
  | draw (camera : CameraId)
  | offer (key : Key)
  deriving DecidableEq

def Op.mark : Op → Option Mark
  | .counterCreate c | .counterFetchAdd c => some (.draw c)
  | .tryPut _ c n .renderer => some (.offer (c, n))
  | _ => none

theorem Op.rendererKey_of_mark {i : Op} (hi : i.mark = none) : i.rendererKey = none := by
  cases i
  case tryPut port c n u =>
      cases u
      · rfl
      · rfl
      · cases hi
  all_goals rfl

theorem Op.eq_tryPut_of_mark {i : Op} {key : Key} (hi : i.mark = some (.offer key)) :
    ∃ port, i = .tryPut port key.1 key.2 .renderer := by
  cases i
  case tryPut port c n u =>
      cases u
      · cases hi
      · cases hi
      · cases hi
        exact ⟨port, rfl⟩
  all_goals cases hi

/-- The calls on the counters of the cameras and on the nodes at the ports. -/
def Op.outer : Op → Option Unit
  | .counterCreate _ | .counterFetchAdd _ | .busy _ _ | .tryPut _ _ _ _ => some ()
  | _ => none

theorem Op.mark_of_outer {i : Op} (hi : i.outer = none) : i.mark = none := by
  cases i
  case counterCreate c => cases hi
  case counterFetchAdd c => cases hi
  case tryPut port c n u => cases hi
  all_goals rfl

/-- A call that is not marked leaves the counters alone. -/
theorem Memory.seqNumbers_of_unmarked {τ : Type} [DecidableEq τ] {answer : Bool} {t : τ} {i : Op}
    {m m' : Memory τ} {a : i.Ans} (hi : i.mark = none) (h : exec answer t i m = some (a, m')) :
    m'.repo.seqNumbers = m.repo.seqNumbers := by
  cases i
  case counterCreate c => cases hi
  case counterFetchAdd c => cases hi
  case findCamera c =>
      rcases exec_findCamera h with ⟨_, _, hm⟩ | ⟨_, _, _, hm⟩ <;> rw [hm]
  case peekCamera c =>
      simp only [exec] at h
      split_ifs at h
      cases h
      rfl
  case findFrame c n =>
      rcases exec_findFrame h with ⟨_, _, hm⟩ | ⟨f, _, _, _, hm⟩ <;> rw [hm]
  case insertFrame p n f => cases p <;> cases h <;> rfl
  case tryPut port c n u => rcases exec_tryPut h with ⟨_, hm⟩ | ⟨_, hm⟩ <;> rw [hm]
  case begin c n u => rw [(exec_begin h).2]
  all_goals
    cases h
    rfl

namespace Call

variable {α : Type} {c : CameraId} {n : SeqNo} {f : FrameRef} {L : List Mark}

/-- The marked calls are taken from the list. -/
abbrev Marks (p : Call α) (L : List Mark) : Prop := p.Within Op.mark L

abbrev Unmarked (p : Call α) : Prop := Marks p []

abbrev Inner (p : Call α) : Prop := p.Within Op.outer []

theorem Inner.unmarked {p : Call α} (h : Inner p) : Unmarked p :=
  h.of_mark (fun _ => Op.mark_of_outer)

/-! ### Calls of the repository -/

theorem inner_registerFrame : Inner (registerFrame c n f) := by
  apply Prog.Within.perform_bind rfl
  intro isFound
  apply Prog.Within.ite
  · exact .perform_bind rfl (fun _ => .perform rfl)
  · apply Prog.Within.perform_bind rfl
    intro isNew
    exact .ite (.perform rfl) (.perform rfl)

theorem inner_loadUndetected : Inner (loadUndetected f) := by
  apply Prog.Within.perform_bind rfl
  intro isDetecting
  apply Prog.Within.ite (.pure _)
  exact .perform_bind rfl (fun _ => .ite (.pure _) (.pure _))

theorem inner_loadUnclaimed : Inner (loadUnclaimed f) := by
  apply Prog.Within.perform_bind rfl
  intro isDetecting
  apply Prog.Within.ite (.pure _)
  apply Prog.Within.perform_bind rfl
  intro isTracking
  apply Prog.Within.ite (.pure _)
  exact .perform_bind rfl (fun _ => .ite (.pure _) (.pure _))

theorem inner_eraseIf {mayErase : FrameRef → Call Bool} (h : ∀ f, Inner (mayErase f)) :
    Inner (eraseIf mayErase c n) := by
  apply Prog.Within.perform_bind rfl
  intro found
  cases found with
  | none => exact .pure _
  | some f =>
      apply (h f).bind_nil
      intro isFree
      apply Prog.Within.ite
      · exact .perform_bind rfl (fun _ => .pure _)
      · exact .perform_bind rfl (fun _ => .pure _)

theorem inner_deleteStereoPair : Inner (deleteStereoPair c n) := by
  apply Prog.Within.perform_bind rfl
  intro twin
  cases twin with
  | none => exact .pure _
  | some twin =>
      apply Prog.Within.perform_bind rfl
      intro _
      apply Prog.Within.perform_bind rfl
      intro back
      cases back with
      | none => exact .pure _
      | some back => exact .perform_bind rfl (fun _ => .pure _)

theorem inner_deleteTwin : Inner (deleteTwin c n) := by
  apply Prog.Within.perform_bind rfl
  intro twin
  cases twin with
  | none => exact .perform rfl
  | some twin =>
      apply Prog.Within.perform_bind rfl
      intro _
      apply Prog.Within.perform_bind rfl
      intro isFound
      apply Prog.Within.ite
      · apply (inner_eraseIf (fun f => inner_loadUndetected)).bind_nil
        intro _
        exact inner_deleteStereoPair.bind_nil (fun _ => .perform rfl)
      · exact inner_deleteStereoPair.bind_nil (fun _ => .pure _)

theorem inner_deleteFrame : Inner (deleteFrame c n) := by
  apply Prog.Within.perform_bind rfl
  intro isFound
  apply Prog.Within.ite _ (.pure _)
  apply (inner_eraseIf (fun f => inner_loadUnclaimed)).bind_nil
  intro isErased
  exact .ite inner_deleteTwin (.perform rfl)

theorem inner_getFrame : Inner (getFrame c n) := by
  apply Prog.Within.perform_bind rfl
  intro isFound
  apply Prog.Within.ite _ (.pure _)
  apply Prog.Within.perform_bind rfl
  intro found
  cases found with
  | none => exact .perform_bind rfl (fun _ => .pure _)
  | some f =>
      apply Prog.Within.perform_bind rfl
      intro rgbaLen
      apply Prog.Within.ite
      · apply Prog.Within.perform_bind rfl
        intro _
        exact .perform_bind rfl (fun _ => .pure _)
      · apply Prog.Within.perform_bind rfl
        intro seq
        apply inner_deleteFrame.bind_nil
        intro _
        apply Prog.Within.perform_bind rfl
        intro _
        exact .perform_bind rfl (fun _ => .pure _)

theorem inner_linkTwin {key twin : Key} : Inner (linkTwin key twin) := by
  apply Prog.Within.perform_bind rfl
  intro entry
  cases entry with
  | none => exact .perform rfl
  | some entry => exact .perform rfl

theorem inner_stereoPair {c2 : CameraId} {n2 : SeqNo} : Inner (stereoPair c n c2 n2) :=
  inner_linkTwin.bind_nil (fun _ => inner_linkTwin)

theorem unmarked_deleteFrame : Unmarked (deleteFrame c n) := inner_deleteFrame.unmarked

theorem unmarked_getFrame : Unmarked (getFrame c n) := inner_getFrame.unmarked

/-! ### The nodes at the ports -/

theorem unmarked_consume {u : Consumer} : Unmarked (consume u c n) := by
  apply unmarked_getFrame.bind_nil
  intro found
  cases found with
  | none => exact .pure _
  | some f => exact .perform_bind rfl (fun _ => unmarked_deleteFrame)

theorem unmarked_aprilTagRelease {c2 : CameraId} : Unmarked (aprilTagRelease c c2 n f) := by
  apply Prog.Within.perform_bind rfl
  intro _
  apply unmarked_deleteFrame.bind_nil
  intro _
  apply Prog.Within.ite (.pure _)
  apply unmarked_getFrame.bind_nil
  intro found
  cases found with
  | none => exact .pure _
  | some _ => exact .perform_bind rfl (fun _ => unmarked_deleteFrame)

theorem unmarked_aprilTagTBBDetector {c2 : CameraId} : Unmarked (aprilTagTBBDetector c c2 n) := by
  apply unmarked_getFrame.bind_nil
  intro found
  cases found with
  | none => exact .pure _
  | some f =>
      apply Prog.Within.perform_bind rfl
      intro twin
      cases twin with
      | none => exact unmarked_aprilTagRelease
      | some twin => exact unmarked_getFrame.bind_nil (fun _ => unmarked_aprilTagRelease)

theorem unmarked_detectorNode {type : DetectorType} {c2 : CameraId} :
    Unmarked (detectorNode type c c2 n) := by
  cases type with
  | aprilTags => exact unmarked_aprilTagTBBDetector
  | simulate => exact unmarked_consume
  | faceRecognition => exact unmarked_consume
  | none => exact unmarked_consume

theorem unmarked_render : Unmarked (render c n) := by
  apply unmarked_getFrame.bind_nil
  intro found
  cases found with
  | none => exact .perform_bind rfl (fun _ => unmarked_deleteFrame)
  | some f =>
      apply Prog.Within.perform_bind rfl
      intro _
      exact .perform_bind rfl (fun _ => unmarked_deleteFrame)

theorem unmarked_tbbRender : Unmarked (tbbRender c n) := by
  apply Prog.Within.ite unmarked_deleteFrame
  exact .perform_bind rfl (fun _ => .ite unmarked_render unmarked_deleteFrame)

theorem unmarked_tbbBenchmarkRender : Unmarked (tbbBenchmarkRender c n) := by
  apply Prog.Within.perform_bind rfl
  intro isFree
  apply Prog.Within.ite _ unmarked_deleteFrame
  apply unmarked_getFrame.bind_nil
  intro found
  cases found with
  | none => exact .perform rfl
  | some f => exact unmarked_render

/-! ### The router -/

variable {map : CameraId → Option TBBRouterParameters} {params : TBBRouterParameters} {port : ℕ}

/-- The frames among those named that a map routes to a renderer. -/
def offered (map : CameraId → Option TBBRouterParameters) (keys : List Key) : List Mark :=
  (keys.filter (fun k => (map k.1).any (fun params => params.renderer))).map Mark.offer

theorem offered_append (keys keys' : List Key) :
    offered map (keys ++ keys') = offered map keys ++ offered map keys' := by
  simp [offered]

theorem unmarked_offer {isThere : Bool} {u : Consumer} (hu : u ≠ .renderer) :
    Unmarked (offer isThere port c n f u) := by
  have hput : (Op.tryPut port c n u).mark = none := by
    cases u with
    | detector => rfl
    | tracker => rfl
    | renderer => exact absurd rfl hu
  apply Prog.Within.ite _ (.pure _)
  apply Prog.Within.perform_bind rfl
  intro isBusy
  apply Prog.Within.ite (.pure _)
  apply Prog.Within.perform_bind hput
  intro isAccepted
  exact .ite (.perform_bind rfl (fun _ => .pure _)) (.pure _)

theorem unmarked_renderOrDelete {isDelete : Bool} :
    Unmarked (renderOrDelete false isDelete port c n f) := by
  unfold renderOrDelete
  rw [if_neg Bool.false_ne_true]
  exact .ite unmarked_deleteFrame (.pure _)

theorem marks_renderOrDelete {isThere isDelete : Bool} :
    Marks (renderOrDelete isThere isDelete port c n f) [.offer (c, n)] := by
  have hput : (Op.tryPut port c n .renderer).mark = some (.offer (c, n)) := rfl
  apply Prog.Within.ite
  · apply Prog.Within.marked_bind hput
    intro isAccepted
    exact .ite (.perform rfl) unmarked_deleteFrame
  · exact (Prog.Within.ite unmarked_deleteFrame (.pure _)).mono List.nil_suffix

theorem marks_routeFrom (hmap : map c = some params) :
    Marks (routeFrom port params c n f) (offered map [(c, n)]) := by
  apply (unmarked_offer (by decide)).bind_nil
  intro isDetectRoute
  apply (unmarked_offer (by decide)).bind_nil
  intro isTrackRoute
  cases hr : params.renderer with
  | false => exact unmarked_renderOrDelete.mono List.nil_suffix
  | true =>
      have hoffered : offered map [(c, n)] = [.offer (c, n)] := by simp [offered, hmap, hr]
      rw [hoffered]
      exact marks_renderOrDelete

theorem marks_routeFrame (hmap : map c = some params) :
    Marks (routeFrame params c n f) (offered map [(c, n)]) := by
  unfold routeFrame
  split
  · exact marks_routeFrom hmap
  · exact marks_routeFrom hmap
  · exact marks_routeFrom hmap
  · exact marks_routeFrom hmap
  · exact .pure _

theorem marks_routeKey : Marks (routeKey map c n) (offered map [(c, n)]) := by
  apply Prog.Within.ite (.pure _)
  apply unmarked_getFrame.bind_nil
  intro found
  cases found with
  | none => exact .pure _
  | some f =>
      cases hmap : map c with
      | none => exact .pure _
      | some params => exact marks_routeFrame hmap

/-- The keys that stand for a frame. -/
def named (keys : List Key) : List Key := keys.filter (fun k => k.1 ≠ noCamera ∧ k.2 ≠ 0)

theorem marks_routeKeys (keys : List Key) :
    Marks (routeKeys map keys) (offered map (named keys)) := by
  induction keys with
  | nil => exact .pure _
  | cons k keys ih =>
      obtain ⟨c, n⟩ := k
      unfold routeKeys
      split_ifs with hc
      · exact .pure _
      · by_cases hn : n = 0
        · have hnamed : named ((c, n) :: keys) = named keys := by simp [named, hn]
          have hkey : routeKey map c n = pure () := by simp [routeKey, hn]
          rw [hnamed, hkey]
          exact ih
        · have hnamed : named ((c, n) :: keys) = [(c, n)] ++ named keys := by
            simp [named, hc, hn]
          rw [hnamed, offered_append]
          exact marks_routeKey.bind (fun _ => ih)

theorem marks_routeCameras (ds : List CameraFrameData) :
    Marks (routeCameras map ds) (offered map (named (ds.flatMap fun d =>
      [(d.cameraId, d.seqno1), (d.camera2Id, d.seqno2)]))) := by
  induction ds with
  | nil => exact .pure _
  | cons d ds ih =>
      unfold routeCameras
      split_ifs with hd
      · exact .pure _
      · rw [List.flatMap_cons, named, List.filter_append, offered_append]
        exact (marks_routeKeys _).bind (fun _ => ih)

/-- The body of a router offers the frames named by its message, in their order and each once. -/
theorem marks_router (m : CameraFrame) : Marks (router map m) (offered map m.keys) :=
  .ite (.pure _) (marks_routeCameras _)

variable {node : RouterNode} {keys : List Key} {k : Key}

/-- The map of a router node has one entry. -/
theorem eq_camera_of_any {p : TBBRouterParameters → Bool} (h : (node.map k.1).any p = true) :
    k.1 = node.camera := by
  by_contra hne
  have hmap : node.map k.1 = none := if_neg hne
  rw [hmap] at h
  cases h

theorem exists_of_mem_offered {x : Mark} (h : x ∈ offered node.map keys) :
    ∃ k ∈ keys, k.1 = node.camera ∧ x = .offer k := by
  obtain ⟨k, hk, rfl⟩ := List.mem_map.mp h
  obtain ⟨hmem, hany⟩ := List.mem_filter.mp hk
  exact ⟨k, hmem, eq_camera_of_any hany, rfl⟩

theorem length_offered_le :
    (offered node.map keys).length ≤ (keys.filter (fun k => k.1 = node.camera)).length := by
  rw [offered, List.length_map]
  apply List.Sublist.length_le
  apply List.monotone_filter_right
  intro k hk
  exact decide_eq_true (eq_camera_of_any hk)

theorem offered_eq_nil (h : node.params.renderer = false) : offered node.map keys = [] := by
  rw [offered, List.map_eq_nil_iff, List.filter_eq_nil_iff]
  intro k _ hany
  have hmap : node.map k.1 = some node.params := if_pos (eq_camera_of_any hany)
  rw [hmap, Option.any_some, h] at hany
  cases hany

end Call
end ARArch
