import ARArch.DetectionSteps

/-!
# The maps of detections and their queues

A publication puts a number into the map and into the queue, and a draw that takes a detection up
takes its number out of both. A draw that pops the number of a list of tags that is empty or too
old clears the list and leaves its entry in the map, where nothing will ever look for it again.
-/

namespace ARArch

abbrev DetectionHistory := List (Done DetectionRequest DetectionRequest.Ans)

namespace DetectionRequest

/-- The number that a request inserts into the map of a kind. -/
def inserts (k : DetectionKind) : DetectionRequest → Option ℕ
  | insertAprilTags n _ => if k = .aprilTag then some n else none
  | insertFaceDetection n _ => if k = .face then some n else none
  | _ => none

def pushes (k : DetectionKind) : DetectionRequest → Option ℕ
  | push k' n => if k' = k then some n else none
  | _ => none

/-- The number of the detection that a request takes up for display. -/
def takes (k : DetectionKind) : (q : DetectionRequest) → q.Ans → Option ℕ
  | draw _ _, shown => shown.taken k
  | insertAprilTags _ _, _ | insertFaceDetection _ _, _ | push _ _, _ => none

end DetectionRequest

/-- The numbers inserted, pushed and taken up, the latest first. -/
def inserted (k : DetectionKind) (done : DetectionHistory) : List ℕ :=
  done.filterMap (fun e => e.request.inserts k)

def pushed (k : DetectionKind) (done : DetectionHistory) : List ℕ :=
  done.filterMap (fun e => e.request.pushes k)

def taken (k : DetectionKind) (done : DetectionHistory) : List ℕ :=
  done.filterMap (fun e => e.request.takes k e.answer)

/-- A publication begins when the one before it is complete, with a number that is related to all
earlier ones. -/
def Begins (before : ℕ → ℕ → Prop) (k : DetectionKind) (n : ℕ) (done : DetectionHistory) : Prop :=
  inserted k done = pushed k done ∧ ∀ m ∈ inserted k done, before m n

/-- The detectors publish one detection after another, by an insertion and a push. -/
def Publishes (before : ℕ → ℕ → Prop) (done : DetectionHistory) : DetectionRequest → Prop
  | .insertAprilTags n _ => Begins before .aprilTag n done
  | .insertFaceDetection n _ => Begins before .face n done
  | .push k n => inserted k done = n :: pushed k done
  | .draw _ _ => True

instance (before : ℕ → ℕ → Prop) [DecidableRel before] (k : DetectionKind) (n : ℕ)
    (done : DetectionHistory) : Decidable (Begins before k n done) :=
  inferInstanceAs (Decidable (_ ∧ _))

instance (before : ℕ → ℕ → Prop) [DecidableRel before] (done : DetectionHistory)
    (q : DetectionRequest) : Decidable (Publishes before done q) :=
  match q with
  | .insertAprilTags n _ => inferInstanceAs (Decidable (Begins before .aprilTag n done))
  | .insertFaceDetection n _ => inferInstanceAs (Decidable (Begins before .face n done))
  | .push k n => inferInstanceAs (Decidable (inserted k done = n :: pushed k done))
  | .draw _ _ => inferInstanceAs (Decidable True)

open Detections

variable {c : RendererOptions} {k : DetectionKind} {d d' : Detections} {q : DetectionRequest}
  {a : q.Ans} {n : ℕ} {done : DetectionHistory}

theorem Publishes.inserts {before : ℕ → ℕ → Prop} (h : Publishes before done q)
    (hq : q.inserts k = some n) : Begins before k n done := by
  cases q with
  | insertAprilTags m ts =>
      simp only [DetectionRequest.inserts] at hq
      split_ifs at hq with hk
      cases hq
      exact hk ▸ h
  | insertFaceDetection m t =>
      simp only [DetectionRequest.inserts] at hq
      split_ifs at hq with hk
      cases hq
      exact hk ▸ h
  | push k' m => cases hq
  | draw now faceNow => cases hq

theorem Publishes.pushes {before : ℕ → ℕ → Prop} (h : Publishes before done q)
    (hq : q.pushes k = some n) : inserted k done = n :: pushed k done := by
  cases q with
  | push k' m =>
      simp only [DetectionRequest.pushes] at hq
      split_ifs at hq with hk
      cases hq
      exact hk ▸ h
  | insertAprilTags m ts => cases hq
  | insertFaceDetection m t => cases hq
  | draw now faceNow => cases hq

theorem inserted_cons (e : Done DetectionRequest DetectionRequest.Ans) :
    inserted k (e :: done) = (e.request.inserts k).toList ++ inserted k done := by
  cases h : e.request.inserts k <;> simp [inserted, h]

theorem pushed_cons (e : Done DetectionRequest DetectionRequest.Ans) :
    pushed k (e :: done) = (e.request.pushes k).toList ++ pushed k done := by
  cases h : e.request.pushes k <;> simp [pushed, h]

theorem taken_cons (e : Done DetectionRequest DetectionRequest.Ans) :
    taken k (e :: done) = (e.request.takes k e.answer).toList ++ taken k done := by
  cases h : e.request.takes k e.answer <;> simp [taken, h]

/-- The effect of a request on the map and the queue of a kind. -/
inductive KindStep (c : RendererOptions) (k : DetectionKind) (d d' : Detections) :
    (q : DetectionRequest) → q.Ans → Prop
  | insert {q : DetectionRequest} {a : q.Ans} {n : ℕ} (hi : q.inserts k = some n)
      (hp : q.pushes k = none) (ht : q.takes k a = none) (hr : d'.recent k = d.recent k)
      (he : ∀ j, d'.hasEntry k j = (d.hasEntry k j || j == n)) : KindStep c k d d' q a
  | push {q : DetectionRequest} {a : q.Ans} {n : ℕ} (hi : q.inserts k = none)
      (hp : q.pushes k = some n) (ht : q.takes k a = none)
      (hr : d'.recent k = n :: d.recent k)
      (he : ∀ j, d'.hasEntry k j = d.hasEntry k j) : KindStep c k d d' q a
  | draw {now faceNow : ℤ} {shown : Shown}
      (h : DrawnFrom d d' k (clock now faceNow k) (d.toPop c k (clock now faceNow k))
        (shown.taken k)) : KindStep c k d d' (.draw now faceNow) shown
  | other {q : DetectionRequest} {a : q.Ans} (hi : q.inserts k = none) (hp : q.pushes k = none)
      (ht : q.takes k a = none) (hr : d'.recent k = d.recent k)
      (he : ∀ j, d'.hasEntry k j = d.hasEntry k j) : KindStep c k d d' q a

theorem isSome_insert {α : Type} (T : Table ℕ α) (n j : ℕ) (v : α) :
    (T.insert n v j).isSome = ((T j).isSome || j == n) := by
  by_cases hj : j = n
  · subst hj
    simp [Table.insert_self]
  · simp [hj]

theorem kindStep (h : Detections.respond c q d = some (a, d')) (k : DetectionKind) :
    KindStep c k d d' q a := by
  cases q with
  | insertAprilTags n ts =>
      cases h
      cases k with
      | aprilTag =>
          exact .insert rfl rfl rfl rfl (fun j => isSome_insert d.aprilTags n j _)
      | face => exact .other rfl rfl rfl rfl (fun _ => rfl)
  | insertFaceDetection n t =>
      cases h
      cases k with
      | aprilTag => exact .other rfl rfl rfl rfl (fun _ => rfl)
      | face =>
          exact .insert rfl rfl rfl rfl (fun j => isSome_insert d.faceDetections n j _)
  | push k' n =>
      cases h
      have hentry (j : ℕ) : (d.push k' n).hasEntry k j = d.hasEntry k j := by cases k <;> rfl
      by_cases hk : k' = k
      · subst hk
        have hpush : (DetectionRequest.push k' n).pushes k' = some n := if_pos rfl
        exact .push rfl hpush rfl (recent_setRecent_self _) hentry
      · have hpush : (DetectionRequest.push k' n).pushes k = none := if_neg hk
        exact .other rfl hpush rfl (recent_setRecent_of_ne _ (Ne.symm hk)) hentry
  | draw now faceNow =>
      cases h
      exact .draw (draw_from d c now faceNow k)

theorem mem_recent_of_toPop {time : ℤ} (h : d.toPop c k time = some n) : n ∈ d.recent k := by
  unfold toPop at h
  split_ifs at h with hw
  exact (List.max?_eq_some_iff.mp h).1

/-- The queue and the map of a kind, and the numbers published so far. -/
structure InStep (k : DetectionKind) (done : DetectionHistory) (d : Detections) : Prop where
  entries : ∀ j, d.hasEntry k j = true ↔
    j ∈ d.recent k ∨ (j ∈ inserted k done ∧ j ∉ pushed k done)
  recent_nodup : (d.recent k).Nodup
  recent_pushed : ∀ j ∈ d.recent k, j ∈ pushed k done
  pushed_inserted : ∀ j ∈ pushed k done, j ∈ inserted k done
  inserted_nodup : (inserted k done).Nodup

namespace InStep

theorem start (k : DetectionKind) : InStep k [] {} where
  entries := fun j => by cases k <;> simp [hasEntry, inserted, Table.empty]
  recent_nodup := List.nodup_nil
  recent_pushed := fun j hj => by cases hj
  pushed_inserted := fun j hj => by cases hj
  inserted_nodup := List.nodup_nil

theorem insert (h : InStep k done d) (hi : q.inserts k = some n) (hp : q.pushes k = none)
    (hb : Begins (· ≠ ·) k n done) (hr : d'.recent k = d.recent k)
    (he : ∀ j, d'.hasEntry k j = (d.hasEntry k j || j == n)) : InStep k (⟨q, a⟩ :: done) d' := by
  have hins : inserted k (⟨q, a⟩ :: done) = n :: inserted k done := by
    rw [inserted_cons, hi]; rfl
  have hpush : pushed k (⟨q, a⟩ :: done) = pushed k done := by rw [pushed_cons, hp]; rfl
  have hnew : n ∉ inserted k done := fun hn => hb.2 n hn rfl
  constructor
  · intro j
    have hold := h.entries j
    rw [hb.1] at hold hnew
    rw [he, hr, hins, hpush, Bool.or_eq_true, hold, beq_iff_eq, List.mem_cons, hb.1]
    by_cases hj : j = n
    · subst hj
      simp [hnew]
    · simp [hj]
  · rw [hr]
    exact h.recent_nodup
  · rw [hr, hpush]
    exact h.recent_pushed
  · rw [hins, hpush]
    exact fun j hj => List.mem_cons_of_mem n (h.pushed_inserted j hj)
  · rw [hins]
    exact List.nodup_cons.mpr ⟨hnew, h.inserted_nodup⟩

theorem push (h : InStep k done d) (hi : q.inserts k = none) (hp : q.pushes k = some n)
    (hb : inserted k done = n :: pushed k done) (hr : d'.recent k = n :: d.recent k)
    (he : ∀ j, d'.hasEntry k j = d.hasEntry k j) : InStep k (⟨q, a⟩ :: done) d' := by
  have hins : inserted k (⟨q, a⟩ :: done) = inserted k done := by rw [inserted_cons, hi]; rfl
  have hpush : pushed k (⟨q, a⟩ :: done) = n :: pushed k done := by rw [pushed_cons, hp]; rfl
  have hnew : n ∉ pushed k done := (List.nodup_cons.mp (hb ▸ h.inserted_nodup)).1
  constructor
  · intro j
    rw [he, hr, hins, hpush, h.entries j, hb, List.mem_cons, List.mem_cons]
    by_cases hj : j = n
    · subst hj
      simp [hnew]
    · simp [hj]
  · rw [hr]
    exact List.nodup_cons.mpr ⟨fun hn => hnew (h.recent_pushed n hn), h.recent_nodup⟩
  · rw [hr, hpush]
    intro j hj
    apply List.mem_cons.mpr
    exact (List.mem_cons.mp hj).imp_right (h.recent_pushed j)
  · rw [hins, hpush, hb]
    exact fun j hj => hj
  · rw [hins]
    exact h.inserted_nodup

/-- A request that neither publishes nor changes the queue and the map. -/
theorem keep (h : InStep k done d) (hi : q.inserts k = none) (hp : q.pushes k = none)
    (hr : d'.recent k = d.recent k) (he : ∀ j, d'.hasEntry k j = d.hasEntry k j) :
    InStep k (⟨q, a⟩ :: done) d' := by
  have hins : inserted k (⟨q, a⟩ :: done) = inserted k done := by rw [inserted_cons, hi]; rfl
  have hpush : pushed k (⟨q, a⟩ :: done) = pushed k done := by rw [pushed_cons, hp]; rfl
  constructor
  · intro j
    rw [he, hr, hins, hpush]
    exact h.entries j
  · rw [hr]
    exact h.recent_nodup
  · rw [hr, hpush]
    exact h.recent_pushed
  · rw [hins, hpush]
    exact h.pushed_inserted
  · rw [hins]
    exact h.inserted_nodup

theorem take (h : InStep k done d) (hi : q.inserts k = none) (hp : q.pushes k = none)
    (hn : n ∈ d.recent k) (hr : d'.recent k = (d.recent k).erase n)
    (he : ∀ j, d'.hasEntry k j = (d.hasEntry k j && j != n)) : InStep k (⟨q, a⟩ :: done) d' := by
  have hins : inserted k (⟨q, a⟩ :: done) = inserted k done := by rw [inserted_cons, hi]; rfl
  have hpush : pushed k (⟨q, a⟩ :: done) = pushed k done := by rw [pushed_cons, hp]; rfl
  constructor
  · intro j
    rw [he, hr, hins, hpush, Bool.and_eq_true, h.entries j, bne_iff_ne,
      h.recent_nodup.mem_erase_iff]
    by_cases hj : j = n
    · subst hj
      simp [h.recent_pushed j hn]
    · simp [hj]
  · rw [hr]
    exact h.recent_nodup.erase n
  · rw [hr, hpush]
    exact fun j hj => h.recent_pushed j (List.mem_of_mem_erase hj)
  · rw [hins, hpush]
    exact h.pushed_inserted
  · rw [hins]
    exact h.inserted_nodup

/-- A draw that shows what it pops. -/
theorem draw {now faceNow : ℤ} {shown : Shown} (h : InStep k done d)
    (hd : DrawnFrom d d' k (clock now faceNow k) (d.toPop c k (clock now faceNow k))
      (shown.taken k))
    (hshow : ∀ n ∈ d.toPop c k (clock now faceNow k),
      d.isShowable k (clock now faceNow k) n = true) :
    InStep k (⟨.draw now faceNow, shown⟩ :: done) d' := by
  generalize hpop : d.toPop c k (clock now faceNow k) = popped at hd hshow
  generalize htake : shown.taken k = took at hd
  cases hd with
  | idle hr he => exact h.keep rfl rfl hr he
  | take hs hr he => exact h.take rfl rfl (mem_recent_of_toPop hpop) hr he
  | leave hs hr he =>
      rw [hshow _ rfl] at hs
      cases hs

/-- Between publications the queue has the numbers of the entries. -/
theorem settled (h : InStep k done d) (hs : inserted k done = pushed k done) (j : ℕ) :
    j ∈ d.recent k ↔ d.hasEntry k j = true := by
  rw [h.entries j, hs]
  constructor
  · exact Or.inl
  · intro hj
    apply hj.resolve_right
    exact fun hopen => hopen.2 hopen.1

end InStep

/-- A draw pops the number of tags only if it can show them: the list is not empty, and not older
than 400 ms. -/
def PopsFresh (c : RendererOptions) (d : Detections) : DetectionRequest → Prop
  | .draw now _ => ∀ n ∈ d.toPop c .aprilTag now, d.isShowable .aprilTag now n = true
  | _ => True

instance (c : RendererOptions) (d : Detections) (q : DetectionRequest) :
    Decidable (PopsFresh c d q) :=
  match q with
  | .draw now _ => inferInstanceAs
      (Decidable (∀ n ∈ d.toPop c .aprilTag now, d.isShowable .aprilTag now n = true))
  | .insertAprilTags _ _ | .insertFaceDetection _ _ | .push _ _ => inferInstanceAs (Decidable True)

/-- Every face that is popped can be shown. -/
theorem InStep.pops_face (h : InStep .face done d) {now : ℤ} :
    ∀ n ∈ d.toPop c .face now, d.isShowable .face now n = true := by
  intro n hn
  have hrecent := mem_recent_of_toPop hn
  exact (h.entries n).mpr (Or.inl hrecent)

theorem InStep.step (h : InStep k done d) (hpub : Publishes (· ≠ ·) done q)
    (hfresh : PopsFresh c d q) (hq : Detections.respond c q d = some (a, d')) :
    InStep k (⟨q, a⟩ :: done) d' := by
  cases kindStep hq k with
  | insert hi hp ht hr he => exact h.insert hi hp (hpub.inserts hi) hr he
  | push hi hp ht hr he => exact h.push hi hp (hpub.pushes hp) hr he
  | other hi hp ht hr he => exact h.keep hi hp hr he
  | draw hd =>
      apply h.draw hd
      cases k with
      | aprilTag => exact hfresh
      | face => exact h.pops_face

theorem in_step {done : DetectionHistory} {d : Detections}
    (h : Session (Detections.respond c)
      (fun done d q => Publishes (· ≠ ·) done q ∧ PopsFresh c d q) {} done d) (k : DetectionKind) :
    InStep k done d := by
  apply h.invariant (InStep.start k)
  intro done d q a d' hd hok hq
  exact hd.step hok.1 hok.2 hq

/-- While every list of tags that is popped can be shown, the queues have the numbers of the
entries of the maps whenever no publication is open. -/
theorem recent_numbers_are_keys (c : RendererOptions) (done : DetectionHistory) (d : Detections)
    (h : Session (Detections.respond c)
      (fun done d q => Publishes (· ≠ ·) done q ∧ PopsFresh c d q) {} done d)
    (hsettled : ∀ k, inserted k done = pushed k done) :
    (∀ n, n ∈ d.recent .aprilTag ↔ (d.aprilTags n).isSome = true) ∧
      ∀ n, n ∈ d.recent .face ↔ (d.faceDetections n).isSome = true :=
  ⟨(in_step h .aprilTag).settled (hsettled .aprilTag),
    (in_step h .face).settled (hsettled .face)⟩

/-- Of two lists of tags and a face, a draw takes the later list and the face up. -/
theorem recent_numbers_are_keys_three :
    ∃ (done : DetectionHistory) (d : Detections), (∀ k, inserted k done = pushed k done) ∧
      taken .aprilTag done = [2] ∧ taken .face done = [2] ∧
      (∀ n, n ∈ d.recent .aprilTag ↔ (d.aprilTags n).isSome = true) ∧
      ∀ n, n ∈ d.recent .face ↔ (d.faceDetections n).isSome = true := by
  have hrun : (Session.replay (Detections.respond ⟨true, true⟩)
      (fun done d q => Publishes (· ≠ ·) done q ∧ PopsFresh ⟨true, true⟩ d q)
      [.insertAprilTags 1 [1000000000], .push .aprilTag 1, .insertAprilTags 2 [1050000000],
        .insertFaceDetection 2 1040000000, .push .face 2, .push .aprilTag 2,
        .draw 1060000000 1060000000] [] {}).any
      (fun s => (inserted .aprilTag s.1 = pushed .aprilTag s.1 ∧
        inserted .face s.1 = pushed .face s.1) ∧ taken .aprilTag s.1 = [2] ∧
        taken .face s.1 = [2]) = true := by decide
  obtain ⟨⟨done, d⟩, hs, hres⟩ := (Option.any_eq_true _ _).mp hrun
  obtain ⟨⟨htags, hfaces⟩, htaken⟩ := of_decide_eq_true hres
  have hsettled (k : DetectionKind) : inserted k done = pushed k done := by
    cases k with
    | aprilTag => exact htags
    | face => exact hfaces
  exact ⟨done, d, hsettled, htaken.1, htaken.2,
    recent_numbers_are_keys _ _ _ (Session.of_replay _ .start hs) hsettled⟩

/-- A frame without tags: the draw that pops its number leaves the entry in the map. -/
theorem popped_number_keeps_entry :
    ¬∀ (c : RendererOptions) (done : DetectionHistory) (d : Detections),
      Session (Detections.respond c) (fun done _ q => Publishes (· ≠ ·) done q) {} done d →
      (∀ k, inserted k done = pushed k done) →
      (∀ n, n ∈ d.recent .aprilTag ↔ (d.aprilTags n).isSome = true) ∧
        ∀ n, n ∈ d.recent .face ↔ (d.faceDetections n).isSome = true := by
  intro h
  have hrun : (Session.replay (Detections.respond ⟨true, false⟩)
      (fun done _ q => Publishes (· ≠ ·) done q)
      [.insertAprilTags 1 [], .push .aprilTag 1, .draw 1000000000 1000000000] [] {}).any
      (fun s => (inserted .aprilTag s.1 = pushed .aprilTag s.1 ∧
        inserted .face s.1 = pushed .face s.1) ∧ s.2.recent .aprilTag = [] ∧
        (s.2.aprilTags 1).isSome = true) = true := by decide
  obtain ⟨⟨done, d⟩, hs, hres⟩ := (Option.any_eq_true _ _).mp hrun
  obtain ⟨⟨htags, hfaces⟩, hrecent, hentry⟩ := of_decide_eq_true hres
  have hsettled (k : DetectionKind) : inserted k done = pushed k done := by
    cases k with
    | aprilTag => exact htags
    | face => exact hfaces
  have hmem := ((h _ _ _ (Session.of_replay _ .start hs) hsettled).1 1).mpr hentry
  rw [hrecent] at hmem
  cases hmem

end ARArch
