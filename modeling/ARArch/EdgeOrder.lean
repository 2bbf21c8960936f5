import ARArch.RouterOffers

/-!
# The order on the edges

The numbers of a camera ascend along the queue behind its source node, and the messages that reach
the rear router name the frames of its camera in the order of that queue, each one at most. The
render node has accepted frames of messages that the router has taken, one of a message at most.

`Edges.Inv` says this of the edges and the counters, and `Edges.Guar` what a step of a node leaves
alone; there is a lemma for each kind of step that moves a message.
-/

namespace ARArch

open Atomic

namespace CameraFrame

/-- The numbers under which a message names frames of a camera. -/
def numbers (c : CameraId) (m : CameraFrame) : List SeqNo :=
  (m.keys.filter (fun k => k.1 = c)).map Prod.snd

/-- What the source node of a camera sends. -/
def FromSource (c : CameraId) (m : CameraFrame) : Prop := m = {} ∨ ∃ n, m = mono c n

variable {c d : CameraId} {n a : SeqNo} {m m1 m2 : CameraFrame}

theorem mem_numbers : a ∈ m.numbers c ↔ (c, a) ∈ m.keys := by
  simp [numbers]

theorem ne_zero_of_mem_numbers (h : a ∈ m.numbers c) : a ≠ 0 := by
  have hk : (c, a).1 ≠ noCamera ∧ (c, a).2 ≠ 0 :=
    of_decide_eq_true (List.mem_filter.mp (mem_numbers.mp h)).2
  exact hk.2

theorem keys_empty : keys {} = [] := by decide

theorem keys_mono : keys (mono d n) = Call.named [(d, n)] := by
  simp [keys, mono, set, Call.named, List.filter_cons]

theorem joinFrames_eq : FlowCall.joinFrames m1 m2 =
    setStereo {} 0 (m1.cameras 0).cameraId (m2.cameras 0).cameraId (m1.cameras 0).seqno1
      (m2.cameras 0).seqno1 := rfl

theorem keys_joinFrames : keys (FlowCall.joinFrames m1 m2) = Call.named
    [((m1.cameras 0).cameraId, (m1.cameras 0).seqno1),
      ((m2.cameras 0).cameraId, if (m2.cameras 0).seqno1 = 0 ∧ (m1.cameras 0).seqno1 ≠ 0
        then (m1.cameras 0).seqno1 else (m2.cameras 0).seqno1)] := by
  rw [joinFrames_eq]
  simp [keys, setStereo, Call.named, List.filter_cons]

theorem numbers_empty : numbers c {} = [] := by
  simp [numbers, keys_empty]

theorem eq_of_mem_numbers_mono (h : a ∈ (mono d n).numbers c) : a = n := by
  rw [mem_numbers, keys_mono] at h
  have hk := List.mem_singleton.mp (List.mem_filter.mp h).1
  exact congrArg Prod.snd hk

theorem FromSource.length_numbers (h : FromSource d m) : (m.numbers c).length ≤ 1 := by
  obtain rfl | ⟨n, rfl⟩ := h
  · simp [numbers_empty]
  · calc ((mono d n).numbers c).length ≤ (mono d n).keys.length := by
          rw [numbers, List.length_map]
          exact List.length_filter_le _ _
      _ ≤ [(d, n)].length := by
          rw [keys_mono]
          exact List.length_filter_le _ _

/-- A joined message names the frames of the first camera that the first message names. -/
theorem numbers_joinFrames (hc : d ≠ c) (h1 : FromSource c m1) (h2 : FromSource d m2) :
    (FlowCall.joinFrames m1 m2).numbers c = m1.numbers c := by
  have hnamed (x y : Key) : Call.named [x, y] = Call.named [x] ++ Call.named [y] :=
    List.filter_append [x] [y]
  have hsecond (s : SeqNo) :
      (Call.named [((m2.cameras 0).cameraId, s)]).filter (fun k => k.1 = c) = [] := by
    obtain rfl | ⟨n, rfl⟩ := h2
    · simp [Call.named]
    · by_cases hs : d ≠ noCamera ∧ s ≠ 0 <;> simp [Call.named, mono, set, hs, hc]
  rw [numbers, keys_joinFrames, hnamed, List.filter_append, hsecond, List.append_nil, numbers]
  obtain rfl | ⟨n, rfl⟩ := h1
  · simp [keys_empty, Call.named]
  · rw [keys_mono]
    rfl

end CameraFrame

/-! ### The invariant -/

/-- The front camera's frames are not rendered, and the rear router gets the messages of its
camera: from the source node, or joined with those of another camera. -/
structure Graph.WellFed (g : Graph) : Prop where
  front : ∀ node, g.front = some node → node.params.renderer = false
  fed : (g.pair = none ∧ g.rear.input = .source g.rear.camera) ∨
    ∃ d, d ≠ g.rear.camera ∧ g.pair = some (g.rear.camera, d) ∧ g.rear.input = .join

variable {g : Graph} {counters counters' : Table CameraId SeqNo} {e e' : Edges}

/-- All numbers in a message are smaller than all in another. -/
def Precedes (c : CameraId) (m m' : CameraFrame) : Prop :=
  ∀ a ∈ m.numbers c, ∀ b ∈ m'.numbers c, a < b

/-- The frame is named by the message taken in that turn. -/
def Edges.Placed (g : Graph) (e : Edges) (x : ℕ × Key) : Prop :=
  x.2.1 = g.rear.camera ∧ ∃ i m, x.1 = i + 1 ∧ (e.sent g.rear.input)[i]? = some m ∧
    x.2.2 ∈ m.numbers g.rear.camera

structure Edges.Inv (g : Graph) (counters : Table CameraId SeqNo) (e : Edges) : Prop where
  shape : ∀ d, ∀ m ∈ e.sent (.source d), m.FromSource d
  drawn : ∀ d, ∀ m ∈ e.sent (.source d), ∀ a ∈ m.numbers d, a < (counters d).getD 0
  ascending : ∀ d, (e.sent (.source d)).Pairwise (Precedes d)
  fed : (e.sent g.rear.input).map (·.numbers g.rear.camera) <+:
    (e.sent (.source g.rear.camera)).map (·.numbers g.rear.camera)
  turns : ∀ w, e.turn (.router .rear w) ≤ e.taken .rear
  apart : ∀ w w', e.turn (.router .rear w) = e.turn (.router .rear w') →
    e.turn (.router .rear w) ≠ 0 → w = w'
  placed : ∀ x ∈ e.rendered, e.Placed g x
  bounded : ∀ x ∈ e.rendered, x.1 ≤ e.taken .rear
  once : (e.rendered.map Prod.fst).Nodup
  serial : g.rear.concurrency = 1 → ∀ x ∈ e.rendered, x.1 ≤ e.turn (.router .rear 0)

/-- What a step of `t` leaves alone. -/
structure Edges.Guar (g : Graph) (t : FlowNode) (counters counters' : Table CameraId SeqNo)
    (e e' : Edges) : Prop where
  counter : ∀ d, t ≠ .source d → counters' d = counters d
  source : ∀ d, t ≠ .source d → e'.sent (.source d) = e.sent (.source d)
  join : t ≠ .join → e'.sent .join = e.sent .join ∧ e'.joined = e.joined
  kept : ∀ ch, e.sent ch <+: e'.sent ch
  turn : ∀ u, u ≠ t → e'.turn u = e.turn u
  rendered : e'.rendered = e.rendered ∨ ∃ w key, w < g.rear.concurrency ∧
    t = .router .rear w ∧ e'.rendered = (e.turn t, key) :: e.rendered

theorem Edges.Guar.refl (t : FlowNode) : Edges.Guar g t counters counters e e where
  counter _ _ := rfl
  source _ _ := rfl
  join _ := ⟨rfl, rfl⟩
  kept _ := List.prefix_rfl
  turn _ _ := rfl
  rendered := .inl rfl

theorem Edges.Inv.empty (counters : Table CameraId SeqNo) : Edges.Inv g counters {} where
  shape _ _ hm := absurd hm List.not_mem_nil
  drawn _ _ hm := absurd hm List.not_mem_nil
  ascending _ := .nil
  fed := List.prefix_rfl
  turns _ := le_rfl
  apart _ _ _ h := absurd rfl h
  placed _ hx := absurd hx List.not_mem_nil
  bounded _ hx := absurd hx List.not_mem_nil
  once := .nil
  serial _ _ hx := absurd hx List.not_mem_nil

theorem getElem?_of_prefix {α : Type} {l l' : List α} {i : ℕ} {x : α} (hl : l <+: l')
    (hx : l[i]? = some x) : l'[i]? = some x := by
  obtain ⟨hi, rfl⟩ := List.getElem?_eq_some_iff.mp hx
  exact List.prefix_iff_getElem?.mp hl i hi

theorem Edges.Placed.mono {x : ℕ × Key} (h : e.Placed g x)
    (hs : e.sent g.rear.input <+: e'.sent g.rear.input) : e'.Placed g x := by
  obtain ⟨hc, i, m, hi, hm, hx⟩ := h
  exact ⟨hc, i, m, hi, getElem?_of_prefix hs hm, hx⟩

namespace Edges.Inv

variable {i j : ℕ} {m m' : CameraFrame} {a b : SeqNo}

/-- A message for the rear router names at most one frame of its camera. -/
theorem length_numbers (h : e.Inv g counters) (hm : (e.sent g.rear.input)[i]? = some m) :
    (m.numbers g.rear.camera).length ≤ 1 := by
  have hmem : m.numbers g.rear.camera ∈ (e.sent g.rear.input).map (·.numbers g.rear.camera) :=
    List.mem_map_of_mem (List.mem_of_getElem? hm)
  obtain ⟨m', hm', heq⟩ := List.mem_map.mp (h.fed.subset hmem)
  rw [← heq]
  exact (h.shape _ m' hm').length_numbers

/-- A message for the rear router has at most one frame to offer. -/
theorem eq_nil_of_offer {x : Mark} {L : List Mark} (h : e.Inv g counters)
    (hm : (e.sent g.rear.input)[i]? = some m)
    (hL : x :: L <:+ Call.offered g.rear.map m.keys) : L = [] := by
  have hlength : (x :: L).length ≤ 1 :=
    calc (x :: L).length ≤ (Call.offered g.rear.map m.keys).length := hL.length_le
      _ ≤ (m.numbers g.rear.camera).length := by
          rw [CameraFrame.numbers, List.length_map]
          exact Call.length_offered_le
      _ ≤ 1 := h.length_numbers hm
  rw [List.length_cons] at hlength
  exact List.length_eq_zero_iff.mp (by omega)

/-- The numbers that the rear router gets ascend. -/
theorem lt_of_lt (h : e.Inv g counters) (hi : (e.sent g.rear.input)[i]? = some m)
    (hj : (e.sent g.rear.input)[j]? = some m') (hij : i < j)
    (ha : a ∈ m.numbers g.rear.camera) (hb : b ∈ m'.numbers g.rear.camera) : a < b := by
  have hsource : ((e.sent (.source g.rear.camera)).map (·.numbers g.rear.camera)).Pairwise
      (fun l l' => ∀ a ∈ l, ∀ b ∈ l', a < b) := List.pairwise_map.mpr (h.ascending _)
  have hinput := List.pairwise_map.mp (hsource.sublist h.fed.sublist)
  obtain ⟨hi', rfl⟩ := List.getElem?_eq_some_iff.mp hi
  obtain ⟨hj', rfl⟩ := List.getElem?_eq_some_iff.mp hj
  exact List.pairwise_iff_getElem.mp hinput i j hi' hj' hij a ha b hb

/-- The numbers of frames accepted compare as the turns in which they were offered. -/
theorem lt_iff_lt (h : e.Inv g counters) {x y : ℕ × Key} (hx : e.Placed g x) (hy : e.Placed g y)
    (hne : x.1 ≠ y.1) : x.2.2 < y.2.2 ↔ x.1 < y.1 := by
  obtain ⟨_, i, m, hi, hm, ha⟩ := hx
  obtain ⟨_, j, m', hj, hm', hb⟩ := hy
  constructor
  · intro hlt
    by_contra hle
    have hji : j < i := by omega
    exact lt_asymm hlt (h.lt_of_lt hm' hm hji hb ha)
  · intro hlt
    exact h.lt_of_lt hm hm' (by omega) ha hb

end Edges.Inv

/-! ### What moves a message -/

/-- A message that the source node of a camera is about to send. -/
def Edges.Ready (d : CameraId) (m : CameraFrame) (counters : Table CameraId SeqNo)
    (e : Edges) : Prop :=
  m.FromSource d ∧ ∀ a ∈ m.numbers d,
    (∀ m' ∈ e.sent (.source d), ∀ b ∈ m'.numbers d, b < a) ∧ a < (counters d).getD 0

theorem append_prefix_of_getElem? {α : Type} {l l' : List α} {x : α} (hl : l <+: l')
    (hx : l'[l.length]? = some x) : l ++ [x] <+: l' := by
  obtain ⟨r, rfl⟩ := hl
  rw [List.getElem?_append_right le_rfl, Nat.sub_self] at hx
  cases r with
  | nil => cases hx
  | cons y r =>
      cases hx
      exact ⟨r, by simp⟩

namespace Edges.Inv

variable {d : CameraId} {m m1 : CameraFrame} {w : ℕ} {key : Key}

theorem mono_counters (h : e.Inv g counters)
    (hc : ∀ d, (counters d).getD 0 ≤ (counters' d).getD 0) : e.Inv g counters' :=
  { h with drawn := fun d m hm a ha => (h.drawn d m hm a ha).trans_le (hc d) }

theorem send_source (h : e.Inv g counters) (hg : g.WellFed) (hm : Ready d m counters e) :
    (e.send (.source d) m).Inv g counters where
  shape d' x hx := by
    obtain hx | ⟨rfl, rfl⟩ := e.mem_sent_send m hx
    · exact h.shape d' x hx
    · exact hm.1
  drawn d' x hx a ha := by
    obtain hx | ⟨rfl, rfl⟩ := e.mem_sent_send m hx
    · exact h.drawn d' x hx a ha
    · exact (hm.2 a ha).2
  ascending d' := by
    by_cases hd : d' = d
    · subst hd
      rw [sent_send_self, List.pairwise_append]
      refine ⟨h.ascending d', List.pairwise_singleton _ _, ?_⟩
      intro x hx y hy a ha b hb
      cases List.mem_singleton.mp hy
      exact (hm.2 b hb).1 x hx a ha
    · rw [sent_send_of_ne e m (by simpa using hd)]
      exact h.ascending d'
  fed := by
    obtain ⟨_, hin⟩ | ⟨_, _, _, hin⟩ := hg.fed
    · rw [hin]
    · have hfed := h.fed
      rw [hin] at hfed ⊢
      rw [sent_send_of_ne e m (by simp)]
      exact hfed.trans ((e.sent_prefix_send m).map _)
  turns := h.turns
  apart := h.apart
  placed x hx := (h.placed x hx).mono (e.sent_prefix_send m)
  bounded := h.bounded
  once := h.once
  serial := h.serial

/-- The join sends on what the next message of the first camera names. -/
theorem send_join (h : e.Inv g counters) (hin : g.rear.input = .join)
    (hm1 : (e.sent (.source g.rear.camera))[(e.sent .join).length]? = some m1)
    (hm : m.numbers g.rear.camera = m1.numbers g.rear.camera) :
    (e.send .join m).Inv g counters where
  shape d x hx := by
    rw [sent_source_send_join] at hx
    exact h.shape d x hx
  drawn d x hx := by
    rw [sent_source_send_join] at hx
    exact h.drawn d x hx
  ascending d := by
    rw [sent_source_send_join]
    exact h.ascending d
  fed := by
    have hfed := h.fed
    rw [hin] at hfed ⊢
    rw [sent_send_self, sent_source_send_join, List.map_append]
    apply append_prefix_of_getElem? hfed
    rw [List.length_map, List.getElem?_map, hm1]
    exact congrArg some hm.symm
  turns := h.turns
  apart := h.apart
  placed x hx := (h.placed x hx).mono (e.sent_prefix_send m)
  bounded := h.bounded
  once := h.once
  serial := h.serial

theorem takePair (h : e.Inv g counters) : e.takePair.Inv g counters := { h with }

/-- A worker of the rear router gets a turn that nobody has had. -/
theorem take_rear (h : e.Inv g counters) : (e.take (.router .rear w) .rear).Inv g counters where
  shape := h.shape
  drawn := h.drawn
  ascending := h.ascending
  fed := h.fed
  turns v := by
    rw [taken_take_self]
    by_cases hv : v = w
    · subst hv
      exact (e.turn_take_self _ _).le
    · rw [turn_take_router e _ hv]
      exact (h.turns v).trans (Nat.le_succ _)
  apart v v' heq hne := by
    have hv := h.turns v
    have hv' := h.turns v'
    by_cases hw : v = w
    · by_cases hw' : v' = w
      · exact hw.trans hw'.symm
      · subst hw
        rw [turn_take_self, turn_take_router e _ hw'] at heq
        omega
    · rw [turn_take_router e _ hw] at heq hne
      by_cases hw' : v' = w
      · subst hw'
        rw [turn_take_self] at heq
        omega
      · rw [turn_take_router e _ hw'] at heq
        exact h.apart v v' heq hne
  placed := h.placed
  bounded x hx := by
    rw [taken_take_self]
    exact (h.bounded x hx).trans (Nat.le_succ _)
  once := h.once
  serial hs x hx := by
    by_cases hw : 0 = w
    · subst hw
      rw [turn_take_self]
      exact (h.bounded x hx).trans (Nat.le_succ _)
    · rw [turn_take_router e _ hw]
      exact h.serial hs x hx

theorem take_front (h : e.Inv g counters) :
    (e.take (.router .front w) .front).Inv g counters := by
  have hturn (v : ℕ) : (e.take (.router .front w) .front).turn (.router .rear v) =
      e.turn (.router .rear v) := e.turn_take_of_ne _ _ (by simp)
  have htaken : (e.take (.router .front w) .front).taken .rear = e.taken .rear := by
    simp [Edges.take]
  exact
    { h with
      turns := fun v => by rw [hturn, htaken]; exact h.turns v
      apart := fun v v' => by rw [hturn, hturn]; exact h.apart v v'
      bounded := fun x hx => by rw [htaken]; exact h.bounded x hx
      serial := fun hs x hx => by rw [hturn]; exact h.serial hs x hx }

/-- The render node accepts the first frame that is offered in a turn. -/
theorem accept (h : e.Inv g counters) (hw : w < g.rear.concurrency)
    (hp : e.Placed g (e.turn (.router .rear w), key))
    (hnew : ∀ x ∈ e.rendered, x.1 ≠ e.turn (.router .rear w)) :
    (e.accept (.router .rear w) key).Inv g counters :=
  { h with
    placed := List.forall_mem_cons.mpr ⟨hp, h.placed⟩
    bounded := List.forall_mem_cons.mpr ⟨h.turns w, h.bounded⟩
    once := by
      apply List.nodup_cons.mpr
      refine ⟨fun hmem => ?_, h.once⟩
      obtain ⟨x, hx, heq⟩ := List.mem_map.mp hmem
      exact hnew x hx heq
    serial := fun hs => by
      have hw0 : w = 0 := by omega
      subst hw0
      exact List.forall_mem_cons.mpr ⟨le_rfl, h.serial hs⟩ }

end Edges.Inv

namespace Edges.Guar

variable {d : CameraId} {m : CameraFrame} {t : FlowNode} {w : ℕ} {key : Key}

theorem draw (hc : ∀ d', d' ≠ d → counters' d' = counters d') :
    Edges.Guar g (.source d) counters counters' e e where
  counter d' hd := hc d' (fun h => hd (by rw [h]))
  source _ _ := rfl
  join _ := ⟨rfl, rfl⟩
  kept _ := List.prefix_rfl
  turn _ _ := rfl
  rendered := .inl rfl

theorem send_source : Edges.Guar g (.source d) counters counters e (e.send (.source d) m) where
  counter _ _ := rfl
  source d' hd := e.sent_send_of_ne m (fun h => by cases h; exact hd rfl)
  join _ := ⟨e.sent_send_of_ne m (by simp), rfl⟩
  kept _ := e.sent_prefix_send m
  turn _ _ := rfl
  rendered := .inl rfl

theorem send_join : Edges.Guar g .join counters counters e (e.send .join m) where
  counter _ _ := rfl
  source d' _ := e.sent_source_send_join m d'
  join ht := absurd rfl ht
  kept _ := e.sent_prefix_send m
  turn _ _ := rfl
  rendered := .inl rfl

theorem takePair : Edges.Guar g .join counters counters e e.takePair where
  counter _ _ := rfl
  source _ _ := rfl
  join ht := absurd rfl ht
  kept _ := List.prefix_rfl
  turn _ _ := rfl
  rendered := .inl rfl

theorem take (side : Side) : Edges.Guar g t counters counters e (e.take t side) where
  counter _ _ := rfl
  source _ _ := rfl
  join _ := ⟨rfl, rfl⟩
  kept _ := List.prefix_rfl
  turn _ hu := e.turn_take_of_ne _ _ hu
  rendered := .inl rfl

theorem accept (hw : w < g.rear.concurrency) :
    Edges.Guar g (.router .rear w) counters counters e (e.accept (.router .rear w) key) where
  counter _ _ := rfl
  source _ _ := rfl
  join _ := ⟨rfl, rfl⟩
  kept _ := List.prefix_rfl
  turn _ _ := rfl
  rendered := .inr ⟨w, key, hw, rfl, rfl⟩

end Edges.Guar
end ARArch
