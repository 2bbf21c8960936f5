import ARArch.DetectionMaps

/-!
# The order in which detections are shown

A queue gives out its largest number first and keeps the smaller ones, so that a draw may come
to an older number after a newer one. The numbers taken up stay in order if each of them was
pushed after the one before it was taken up, and an older one takes the display back.
-/

namespace ARArch

open Detections

variable {c : RendererOptions} {k : DetectionKind} {d d' : Detections} {q : DetectionRequest}
  {a : q.Ans} {n : ℕ} {done : DetectionHistory}

/-- The numbers pushed since a draw last took a detection of the kind up, the latest first. -/
def pushedSince (k : DetectionKind) : DetectionHistory → List ℕ
  | [] => []
  | e :: done =>
    if (e.request.takes k e.answer).isSome then []
    else (e.request.pushes k).toList ++ pushedSince k done

/-- A draw that pops a number, and can show what the map has under it, pops one that was pushed
since the last detection of its kind was taken up. -/
def PopsNewer (c : RendererOptions) (done : DetectionHistory) (d : Detections) :
    DetectionRequest → Prop
  | .draw now faceNow =>
    (∀ n ∈ d.toPop c .aprilTag now, d.isShowable .aprilTag now n = true →
      n ∈ pushedSince .aprilTag done) ∧
    ∀ n ∈ d.toPop c .face faceNow, d.isShowable .face faceNow n = true →
      n ∈ pushedSince .face done
  | _ => True

instance (c : RendererOptions) (done : DetectionHistory) (d : Detections)
    (q : DetectionRequest) : Decidable (PopsNewer c done d q) :=
  match q with
  | .draw _ _ => inferInstanceAs (Decidable (_ ∧ _))
  | .insertAprilTags _ _ | .insertFaceDetection _ _ | .push _ _ => inferInstanceAs (Decidable True)

theorem PopsNewer.of_kind {now faceNow : ℤ} (h : PopsNewer c done d (.draw now faceNow))
    (hpop : d.toPop c k (clock now faceNow k) = some n)
    (hshow : d.isShowable k (clock now faceNow k) n = true) : n ∈ pushedSince k done := by
  cases k with
  | aprilTag => exact h.1 n hpop hshow
  | face => exact h.2 n hpop hshow

/-- The time stamps that a request publishes, or the clock that it reads. -/
def DetectionRequest.times : DetectionRequest → List ℤ
  | .insertAprilTags _ ts => ts
  | .insertFaceDetection _ t => [t]
  | .push _ _ => []
  | .draw now faceNow => [now, faceNow]

/-- The time of a request is later than those of all requests before it. -/
def Later (done : DetectionHistory) (q : DetectionRequest) : Prop :=
  ∀ e ∈ done, ∀ t ∈ e.request.times, ∀ u ∈ q.times, t < u

instance (done : DetectionHistory) (q : DetectionRequest) : Decidable (Later done q) :=
  inferInstanceAs (Decidable (∀ e ∈ done, _))

/-- What a draw leaves of a queue is smaller than what it has popped. -/
theorem lt_popped {time : ℤ} {m : ℕ} (h : d.toPop c k time = some n) (hd : (d.recent k).Nodup)
    (hm : m ∈ (d.recent k).erase n) : m < n := by
  unfold toPop at h
  split_ifs at h with hw
  have hle : m ≤ n := (List.max?_eq_some_iff.mp h).2 m (List.mem_of_mem_erase hm)
  have hne : m ≠ n := (hd.mem_erase_iff.mp hm).1
  omega

/-- The numbers pushed and the numbers taken up of a kind, and what the queue still has. -/
structure Ascending (k : DetectionKind) (done : DetectionHistory) (d : Detections) : Prop where
  inserted_sorted : (inserted k done).Pairwise (· > ·)
  pushed_inserted : ∀ j ∈ pushed k done, j ∈ inserted k done
  recent_pushed : ∀ j ∈ d.recent k, j ∈ pushed k done
  taken_pushed : ∀ j ∈ taken k done, j ∈ pushed k done
  recent_nodup : (d.recent k).Nodup
  /-- What was pushed since the latest number was taken up is larger than that number. -/
  taken_lt_since : ∀ m ∈ taken k done, ∀ j ∈ pushedSince k done, m < j
  /-- What was in the queue then is smaller. -/
  recent_below : ∀ j ∈ d.recent k, j ∈ pushedSince k done ∨ ∃ m ∈ taken k done, j < m

namespace Ascending

theorem start (k : DetectionKind) : Ascending k [] {} where
  inserted_sorted := List.Pairwise.nil
  pushed_inserted := fun j hj => by cases hj
  recent_pushed := fun j hj => by cases hj
  taken_pushed := fun j hj => by cases hj
  recent_nodup := List.nodup_nil
  taken_lt_since := fun m hm => by cases hm
  recent_below := fun j hj => by cases hj

theorem since_of_takes_none (e : Done DetectionRequest DetectionRequest.Ans)
    (h : e.request.takes k e.answer = none) :
    pushedSince k (e :: done) = (e.request.pushes k).toList ++ pushedSince k done := by
  simp [pushedSince, h]

theorem since_of_takes_some (e : Done DetectionRequest DetectionRequest.Ans)
    (h : e.request.takes k e.answer = some n) : pushedSince k (e :: done) = [] := by
  simp [pushedSince, h]

/-- A request that neither pushes nor takes up, and adds nothing to the queue. -/
theorem keep (h : Ascending k done d)
    (hi : (inserted k (⟨q, a⟩ :: done)).Pairwise (· > ·))
    (hsub : ∀ j ∈ inserted k done, j ∈ inserted k (⟨q, a⟩ :: done)) (hp : q.pushes k = none)
    (ht : q.takes k a = none) (hr : (d'.recent k).Sublist (d.recent k)) :
    Ascending k (⟨q, a⟩ :: done) d' := by
  have hpush : pushed k (⟨q, a⟩ :: done) = pushed k done := by rw [pushed_cons, hp]; rfl
  have htake : taken k (⟨q, a⟩ :: done) = taken k done := by rw [taken_cons, ht]; rfl
  have hsince : pushedSince k (⟨q, a⟩ :: done) = pushedSince k done := by
    rw [since_of_takes_none _ ht, hp]; rfl
  constructor
  · exact hi
  · rw [hpush]
    exact fun j hj => hsub j (h.pushed_inserted j hj)
  · rw [hpush]
    exact fun j hj => h.recent_pushed j (hr.mem hj)
  · rw [hpush, htake]
    exact h.taken_pushed
  · exact hr.nodup h.recent_nodup
  · rw [htake, hsince]
    exact h.taken_lt_since
  · rw [htake, hsince]
    exact fun j hj => h.recent_below j (hr.mem hj)

theorem push (h : Ascending k done d) (hi : q.inserts k = none) (hp : q.pushes k = some n)
    (ht : q.takes k a = none) (hb : inserted k done = n :: pushed k done)
    (hr : d'.recent k = n :: d.recent k) : Ascending k (⟨q, a⟩ :: done) d' := by
  have hins : inserted k (⟨q, a⟩ :: done) = inserted k done := by rw [inserted_cons, hi]; rfl
  have hpush : pushed k (⟨q, a⟩ :: done) = n :: pushed k done := by rw [pushed_cons, hp]; rfl
  have htake : taken k (⟨q, a⟩ :: done) = taken k done := by rw [taken_cons, ht]; rfl
  have hsince : pushedSince k (⟨q, a⟩ :: done) = n :: pushedSince k done := by
    rw [since_of_takes_none _ ht, hp]; rfl
  have hnew : ∀ j ∈ pushed k done, j < n := by
    have hsorted := h.inserted_sorted
    rw [hb] at hsorted
    exact (List.pairwise_cons.mp hsorted).1
  constructor
  · rw [hins]
    exact h.inserted_sorted
  · rw [hins, hpush, hb]
    exact fun j hj => hj
  · rw [hpush, hr]
    intro j hj
    apply List.mem_cons.mpr
    exact (List.mem_cons.mp hj).imp_right (h.recent_pushed j)
  · rw [hpush, htake]
    exact fun j hj => List.mem_cons_of_mem n (h.taken_pushed j hj)
  · rw [hr]
    apply List.nodup_cons.mpr ⟨fun hn => ?_, h.recent_nodup⟩
    have := hnew n (h.recent_pushed n hn)
    omega
  · rw [htake, hsince]
    intro m hm j hj
    obtain rfl | hj := List.mem_cons.mp hj
    · exact hnew m (h.taken_pushed m hm)
    · exact h.taken_lt_since m hm j hj
  · rw [htake, hsince, hr]
    intro j hj
    obtain rfl | hj := List.mem_cons.mp hj
    · exact Or.inl List.mem_cons_self
    · exact (h.recent_below j hj).imp_left (List.mem_cons_of_mem n)

theorem take {time : ℤ} (h : Ascending k done d) (hi : q.inserts k = none)
    (hp : q.pushes k = none) (ht : q.takes k a = some n) (hpop : d.toPop c k time = some n)
    (hr : d'.recent k = (d.recent k).erase n) : Ascending k (⟨q, a⟩ :: done) d' := by
  have hins : inserted k (⟨q, a⟩ :: done) = inserted k done := by rw [inserted_cons, hi]; rfl
  have hpush : pushed k (⟨q, a⟩ :: done) = pushed k done := by rw [pushed_cons, hp]; rfl
  have htake : taken k (⟨q, a⟩ :: done) = n :: taken k done := by rw [taken_cons, ht]; rfl
  have hsince : pushedSince k (⟨q, a⟩ :: done) = [] := since_of_takes_some _ ht
  constructor
  · rw [hins]
    exact h.inserted_sorted
  · rw [hins, hpush]
    exact h.pushed_inserted
  · rw [hpush, hr]
    exact fun j hj => h.recent_pushed j (List.mem_of_mem_erase hj)
  · rw [hpush, htake]
    intro j hj
    obtain rfl | hj := List.mem_cons.mp hj
    · exact h.recent_pushed j (mem_recent_of_toPop hpop)
    · exact h.taken_pushed j hj
  · rw [hr]
    exact h.recent_nodup.erase n
  · rw [hsince]
    exact fun m hm j hj => by cases hj
  · rw [htake, hr]
    intro j hj
    exact Or.inr ⟨n, List.mem_cons_self, lt_popped hpop h.recent_nodup hj⟩

theorem step (h : Ascending k done d) (hpub : Publishes (· < ·) done q)
    (hq : Detections.respond c q d = some (a, d')) : Ascending k (⟨q, a⟩ :: done) d' := by
  cases kindStep hq k with
  | @insert _ _ n hi hp ht hr he =>
      have hins : inserted k (⟨q, a⟩ :: done) = n :: inserted k done := by
        rw [inserted_cons, hi]; rfl
      apply h.keep ?_ ?_ hp ht (hr ▸ List.Sublist.refl _)
      · rw [hins]
        exact List.pairwise_cons.mpr ⟨(hpub.inserts hi).2, h.inserted_sorted⟩
      · rw [hins]
        exact fun j hj => List.mem_cons_of_mem n hj
  | push hi hp ht hr he => exact h.push hi hp ht (hpub.pushes hp) hr
  | other hi hp ht hr he =>
      have hins : inserted k (⟨q, a⟩ :: done) = inserted k done := by
        rw [inserted_cons, hi]; rfl
      apply h.keep ?_ ?_ hp ht (hr ▸ List.Sublist.refl _)
      · rw [hins]
        exact h.inserted_sorted
      · rw [hins]
        exact fun j hj => hj
  | @draw now faceNow shown hd =>
      have hins : inserted k (⟨.draw now faceNow, shown⟩ :: done) = inserted k done :=
        inserted_cons _
      have hkeep (ht : DetectionRequest.takes k (.draw now faceNow) shown = none)
          (hr : (d'.recent k).Sublist (d.recent k)) :
          Ascending k (⟨.draw now faceNow, shown⟩ :: done) d' := by
        apply h.keep ?_ ?_ rfl ht hr
        · rw [hins]
          exact h.inserted_sorted
        · rw [hins]
          exact fun j hj => hj
      generalize hpop : d.toPop c k (clock now faceNow k) = popped at hd
      generalize htake : shown.taken k = took at hd
      cases hd with
      | idle hr he => exact hkeep htake (hr ▸ List.Sublist.refl _)
      | take hs hr he => exact h.take rfl rfl htake hpop hr
      | leave hs hr he => exact hkeep htake (hr ▸ List.erase_sublist)

end Ascending

theorem ascending {done : DetectionHistory} {d : Detections}
    (h : Session (Detections.respond c) (fun done _ q => Publishes (· < ·) done q) {} done d)
    (k : DetectionKind) : Ascending k done d := by
  apply h.invariant (Ascending.start k)
  intro done d q a d' hd hok hq
  exact hd.step hok hq

/-- The numbers taken up never decrease. -/
def InOrder (done : DetectionHistory) : Prop :=
  ∀ k, (taken k done).Pairwise (fun later earlier => earlier ≤ later)

theorem InOrder.nil : InOrder [] := fun _ => List.Pairwise.nil

theorem popsNewer_iff (hq : Detections.respond c q d = some (a, d')) :
    PopsNewer c done d q ↔ ∀ k n, q.takes k a = some n → n ∈ pushedSince k done := by
  cases q with
  | insertAprilTags n ts => exact ⟨fun _ k n h => (by cases h), fun _ => trivial⟩
  | insertFaceDetection n t => exact ⟨fun _ k n h => (by cases h), fun _ => trivial⟩
  | push k n => exact ⟨fun _ k n h => (by cases h), fun _ => trivial⟩
  | draw now faceNow =>
      cases hq
      have htakes (k : DetectionKind) (n : ℕ) := (draw_from d c now faceNow k).taken_iff (n := n)
      constructor
      · intro h k n htake
        obtain ⟨hpop, hshow⟩ := (htakes k n).mp htake
        exact h.of_kind hpop hshow
      · intro h
        constructor
        · exact fun n hpop hshow => h .aprilTag n ((htakes .aprilTag n).mpr ⟨hpop, hshow⟩)
        · exact fun n hpop hshow => h .face n ((htakes .face n).mpr ⟨hpop, hshow⟩)

/-- What is taken up comes from the queue. -/
theorem recent_of_takes (hq : Detections.respond c q d = some (a, d'))
    (htake : q.takes k a = some n) : n ∈ d.recent k := by
  cases q with
  | insertAprilTags m ts => cases htake
  | insertFaceDetection m t => cases htake
  | push k' m => cases htake
  | draw now faceNow =>
      cases hq
      have hpop := ((draw_from d c now faceNow k).taken_iff.mp htake).1
      exact mem_recent_of_toPop hpop

/-- A number taken up keeps the order if and only if it was pushed since the last one was. -/
theorem Ascending.takes_in_order_iff (h : Ascending k done d)
    (hrecent : ∀ n, q.takes k a = some n → n ∈ d.recent k) :
    (taken k (⟨q, a⟩ :: done)).Pairwise (fun later earlier => earlier ≤ later) ↔
      (taken k done).Pairwise (fun later earlier => earlier ≤ later) ∧
        ∀ n, q.takes k a = some n → n ∈ pushedSince k done := by
  rw [taken_cons]
  cases htake : q.takes k a with
  | none => simp
  | some n =>
      simp only [Option.toList_some, List.singleton_append, List.pairwise_cons,
        Option.some.injEq, forall_eq']
      rw [and_comm]
      apply and_congr_right
      intro _
      constructor
      · intro hle
        apply (h.recent_below n (hrecent n htake)).resolve_right
        rintro ⟨m, hm, hlt⟩
        have := hle m hm
        omega
      · intro hsince m hm
        have := h.taken_lt_since m hm n hsince
        omega

theorem InOrder.cons_iff (h : ∀ k, Ascending k done d)
    (hq : Detections.respond c q d = some (a, d')) :
    InOrder (⟨q, a⟩ :: done) ↔ InOrder done ∧ PopsNewer c done d q := by
  have hstep (k : DetectionKind) := (h k).takes_in_order_iff (q := q) (a := a)
    (fun n hn => recent_of_takes hq hn)
  rw [popsNewer_iff hq]
  constructor
  · intro ho
    exact ⟨fun k => ((hstep k).mp (ho k)).1, fun k => ((hstep k).mp (ho k)).2⟩
  · intro ho k
    exact (hstep k).mpr ⟨ho.1 k, ho.2 k⟩

/-- In a run with ascending publications the numbers taken up never decrease if and only if every
draw that takes one up finds it among those pushed since the last. -/
theorem taken_in_order_iff (c : RendererOptions) (done : DetectionHistory) (d : Detections)
    (h : Session (Detections.respond c) (fun done _ q => Publishes (· < ·) done q) {} done d) :
    InOrder done ↔ Session (Detections.respond c)
      (fun done d q => Publishes (· < ·) done q ∧ PopsNewer c done d q) {} done d := by
  constructor
  · intro ho
    induction h with
    | start => exact .start
    | call h hok hq ih =>
        obtain ⟨hdone, hnewer⟩ := (InOrder.cons_iff (ascending h) hq).mp ho
        exact .call (ih hdone) ⟨hok, hnewer⟩ hq
  · intro hs
    clear h
    induction hs with
    | start => exact .nil
    | call hs hok hq ih =>
        have hpublish := hs.mono (fun _ _ _ hok => hok.1)
        exact (InOrder.cons_iff (ascending hpublish) hq).mpr ⟨ih, hok.2⟩

/-- A draw after each of two publications. -/
theorem taken_in_order_iff_two :
    ∃ (done : DetectionHistory) (d : Detections), taken .aprilTag done = [2, 1] ∧
      (InOrder done ↔ Session (Detections.respond ⟨true, false⟩)
        (fun done d q => Publishes (· < ·) done q ∧ PopsNewer ⟨true, false⟩ done d q)
        {} done d) := by
  have hrun : (Session.replay (Detections.respond ⟨true, false⟩)
      (fun done _ q => Publishes (· < ·) done q)
      [.insertAprilTags 1 [1000000000], .push .aprilTag 1, .draw 1010000000 1010000000,
        .insertAprilTags 2 [1200000000], .push .aprilTag 2, .draw 1290000000 1290000000] [] {}).any
      (fun s => taken .aprilTag s.1 = [2, 1]) = true := by decide
  obtain ⟨⟨done, d⟩, hs, hres⟩ := (Option.any_eq_true _ _).mp hrun
  exact ⟨done, d, of_decide_eq_true hres,
    taken_in_order_iff _ done d (Session.of_replay _ .start hs)⟩

/-- Two publications before the first draw, which takes the later one up; 290 ms later a draw
finds the earlier one, which is 350 ms old. -/
theorem taken_out_of_order :
    ¬∀ (c : RendererOptions) (done : DetectionHistory) (d : Detections),
      Session (Detections.respond c)
        (fun done _ q => Publishes (· < ·) done q ∧ Later done q) {} done d →
      InOrder done := by
  intro h
  have hrun : (Session.replay (Detections.respond ⟨true, false⟩)
      (fun done _ q => Publishes (· < ·) done q ∧ Later done q)
      [.insertAprilTags 1 [1000000000], .push .aprilTag 1,
        .insertAprilTags 2 [1050000000], .push .aprilTag 2,
        .draw 1060000000 1060000000, .draw 1350000000 1350000000] [] {}).any
      (fun s => taken .aprilTag s.1 = [1, 2]) = true := by decide
  obtain ⟨⟨done, d⟩, hs, hres⟩ := (Option.any_eq_true _ _).mp hrun
  have ho := h _ done d (Session.of_replay _ .start hs) .aprilTag
  rw [of_decide_eq_true hres] at ho
  have hle := (List.pairwise_cons.mp ho).1 2 (List.mem_singleton_self 2)
  omega

end ARArch
