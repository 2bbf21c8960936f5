import ARArch.Detections

/-!
# What a draw does to a map and its queue

For each kind of detection a draw either leaves the map and the queue alone, or pops the largest
number; it then takes the detection up and erases its entry, or leaves the entry in the map.
-/

namespace ARArch

namespace Detections

variable {d d' : Detections} {c : RendererOptions} {k : DetectionKind} {now faceNow : ℤ} {n j : ℕ}

/-- Whether the map of a kind has an entry for a number. -/
def hasEntry (d : Detections) : DetectionKind → ℕ → Bool
  | .aprilTag, n => (d.aprilTags n).isSome
  | .face, n => (d.faceDetections n).isSome

/-- The time stamp of what is shown. -/
def lastTime (d : Detections) : DetectionKind → ℤ
  | .aprilTag => d.lastAprilTagTime
  | .face => d.lastFaceTime

/-- The clock that a draw reads for a kind. -/
def clock (now faceNow : ℤ) : DetectionKind → ℤ
  | .aprilTag => now
  | .face => faceNow

/-- The number that a draw at a time pops. -/
def toPop (d : Detections) (c : RendererOptions) (k : DetectionKind) (time : ℤ) : Option ℕ :=
  if c.shows k = true ∧ 280000000 < time - d.lastTime k then (d.recent k).max? else none

/-- What the map has under a number can be shown: an entry for a face, for a tag one that is not
empty or older than 400 ms. -/
def isShowable (d : Detections) (k : DetectionKind) (time : ℤ) (n : ℕ) : Bool :=
  match k with
  | .aprilTag => ((d.aprilTags n).map (isFresh time)).getD false
  | .face => (d.faceDetections n).isSome

/-- The effect of a draw on the map and the queue of a kind, and what it takes up. -/
inductive DrawnFrom (d d' : Detections) (k : DetectionKind) (time : ℤ) :
    Option ℕ → Option ℕ → Prop
  | idle (hr : d'.recent k = d.recent k) (he : ∀ j, d'.hasEntry k j = d.hasEntry k j) :
      DrawnFrom d d' k time none none
  | take {n : ℕ} (hs : d.isShowable k time n = true) (hr : d'.recent k = (d.recent k).erase n)
      (he : ∀ j, d'.hasEntry k j = (d.hasEntry k j && j != n)) :
      DrawnFrom d d' k time (some n) (some n)
  | leave {n : ℕ} (hs : d.isShowable k time n = false) (hr : d'.recent k = (d.recent k).erase n)
      (he : ∀ j, d'.hasEntry k j = d.hasEntry k j) :
      DrawnFrom d d' k time (some n) none

@[simp] theorem recent_setRecent_self (q : List ℕ) : (d.setRecent k q).recent k = q := by
  simp [setRecent]

theorem recent_setRecent_of_ne {k' : DetectionKind} (q : List ℕ) (h : k' ≠ k) :
    (d.setRecent k q).recent k' = d.recent k' := by
  simp [setRecent, h]

theorem popLargest_eq_none {q : List ℕ} : popLargest q = none ↔ q.max? = none := by
  simp [popLargest]

theorem popLargest_eq_some {q rest : List ℕ} :
    popLargest q = some (n, rest) ↔ q.max? = some n ∧ rest = q.erase n := by
  constructor
  · intro h
    obtain ⟨m, hm, he⟩ := Option.map_eq_some_iff.mp h
    cases he
    exact ⟨hm, rfl⟩
  · rintro ⟨hm, rfl⟩
    simp [popLargest, hm]

theorem isSome_erase {α : Type} (T : Table ℕ α) :
    (T.erase n j).isSome = ((T j).isSome && j != n) := by
  rw [Table.erase_apply]
  split_ifs with h <;> simp [h]

/-- Showing tags concerns only the map of tags. -/
theorem showTags_other (d : Detections) (now : ℤ) (n : ℕ) (L : List DetectedBoundingBox) :
    (d.showTags now n L).2.faceDetections = d.faceDetections ∧
      (d.showTags now n L).2.recent = d.recent ∧
      (d.showTags now n L).2.lastFaceTime = d.lastFaceTime := by
  rw [showTags]
  split_ifs
  · exact ⟨rfl, rfl, rfl⟩
  · exact ⟨rfl, rfl, rfl⟩

theorem drawAprilTags_other (d : Detections) (now : ℤ) :
    (d.drawAprilTags now).2.faceDetections = d.faceDetections ∧
      (d.drawAprilTags now).2.recent .face = d.recent .face ∧
      (d.drawAprilTags now).2.lastFaceTime = d.lastFaceTime := by
  have hrecent (q : List ℕ) : (d.deleteLastTags.setRecent .aprilTag q).recent .face =
      d.recent .face := recent_setRecent_of_ne q (by decide)
  rw [drawAprilTags]
  split_ifs
  · cases popLargest (d.recent .aprilTag) with
    | none => exact ⟨rfl, rfl, rfl⟩
    | some p =>
        obtain ⟨n, rest⟩ := p
        dsimp only
        cases d.aprilTags n with
        | none => exact ⟨rfl, hrecent rest, rfl⟩
        | some L =>
            obtain ⟨hf, hr, ht⟩ :=
              showTags_other (d.deleteLastTags.setRecent .aprilTag rest) now n L
            exact ⟨hf, (congrFun hr _).trans (hrecent rest), ht⟩
  · exact ⟨rfl, rfl, rfl⟩

theorem drawFaces_other (d : Detections) (now : ℤ) :
    (d.drawFaces now).2.aprilTags = d.aprilTags ∧
      (d.drawFaces now).2.recent .aprilTag = d.recent .aprilTag := by
  have hrecent (q : List ℕ) : (d.deleteLastFace.setRecent .face q).recent .aprilTag =
      d.recent .aprilTag := recent_setRecent_of_ne q (by decide)
  rw [drawFaces]
  split_ifs
  · cases popLargest (d.recent .face) with
    | none => exact ⟨rfl, rfl⟩
    | some p =>
        obtain ⟨n, rest⟩ := p
        dsimp only
        cases d.faceDetections n with
        | none => exact ⟨rfl, hrecent rest⟩
        | some bb => exact ⟨rfl, hrecent rest⟩
  · exact ⟨rfl, rfl⟩

theorem drawAprilTags_from (d : Detections) (now : ℤ) :
    DrawnFrom d (d.drawAprilTags now).2 .aprilTag now
      (if 280000000 < now - d.lastAprilTagTime then (d.recent .aprilTag).max? else none)
      ((d.drawAprilTags now).1.taken .aprilTag) := by
  rw [drawAprilTags]
  split_ifs with hwindow
  · cases hp : popLargest (d.recent .aprilTag) with
    | none =>
        rw [popLargest_eq_none.mp hp]
        exact .idle rfl (fun _ => rfl)
    | some p =>
        obtain ⟨n, rest⟩ := p
        obtain ⟨hmax, rfl⟩ := popLargest_eq_some.mp hp
        rw [hmax]
        have hrecent := recent_setRecent_self (d := d.deleteLastTags) (k := .aprilTag)
          ((d.recent .aprilTag).erase n)
        dsimp only
        cases hL : d.aprilTags n with
        | none =>
            refine .leave ?_ hrecent (fun _ => rfl)
            simp [isShowable, hL]
        | some L =>
            simp only [showTags]
            split_ifs with hfresh
            · refine .take ?_ hrecent ?_
              · simpa [isShowable, hL] using hfresh
              · exact fun j => isSome_erase d.aprilTags
            · refine .leave ?_ hrecent ?_
              · simpa [isShowable, hL] using hfresh
              · intro j
                by_cases hj : j = n
                · subst hj
                  simp [hasEntry, hL]
                · simp [hasEntry, hj, Detections.delete, setRecent, deleteLastTags]
  · exact .idle rfl (fun _ => rfl)

theorem drawFaces_from (d : Detections) (now : ℤ) :
    DrawnFrom d (d.drawFaces now).2 .face now
      (if 280000000 < now - d.lastFaceTime then (d.recent .face).max? else none)
      ((d.drawFaces now).1.taken .face) := by
  rw [drawFaces]
  split_ifs with hwindow
  · cases hp : popLargest (d.recent .face) with
    | none =>
        rw [popLargest_eq_none.mp hp]
        exact .idle rfl (fun _ => rfl)
    | some p =>
        obtain ⟨n, rest⟩ := p
        obtain ⟨hmax, rfl⟩ := popLargest_eq_some.mp hp
        rw [hmax]
        have hrecent := recent_setRecent_self (d := d.deleteLastFace) (k := .face)
          ((d.recent .face).erase n)
        dsimp only
        cases hb : d.faceDetections n with
        | none =>
            refine .leave ?_ hrecent (fun _ => rfl)
            simp [isShowable, hb]
        | some bb =>
            refine .take ?_ hrecent ?_
            · simp [isShowable, hb]
            · exact fun j => isSome_erase d.faceDetections
  · exact .idle rfl (fun _ => rfl)

/-- Only the map and the queue of its kind, and the time stamp, decide what a draw does. -/
theorem DrawnFrom.congr {d₁ d₁' : Detections} {time : ℤ} {p t : Option ℕ}
    (h : DrawnFrom d d' k time p t) (hr : d₁.recent k = d.recent k)
    (hr' : d₁'.recent k = d'.recent k) (he : ∀ j, d₁.hasEntry k j = d.hasEntry k j)
    (he' : ∀ j, d₁'.hasEntry k j = d'.hasEntry k j)
    (hs : ∀ n, d₁.isShowable k time n = d.isShowable k time n) :
    DrawnFrom d₁ d₁' k time p t := by
  cases h with
  | idle h1 h2 =>
      refine .idle ?_ (fun j => ?_)
      · rw [hr', h1, hr]
      · rw [he', h2, he]
  | take h0 h1 h2 =>
      refine .take ?_ ?_ (fun j => ?_)
      · rw [hs, h0]
      · rw [hr', h1, hr]
      · rw [he', h2, he]
  | leave h0 h1 h2 =>
      refine .leave ?_ ?_ (fun j => ?_)
      · rw [hs, h0]
      · rw [hr', h1, hr]
      · rw [he', h2, he]

/-- A draw takes up what it has popped if it can show it. -/
theorem DrawnFrom.taken_iff {time : ℤ} {p t : Option ℕ} (h : DrawnFrom d d' k time p t) :
    t = some n ↔ p = some n ∧ d.isShowable k time n = true := by
  cases h with
  | idle hr he => simp
  | take hs hr he =>
      constructor
      · intro hn
        cases hn
        exact ⟨rfl, hs⟩
      · exact And.left
  | leave hs hr he =>
      constructor
      · intro hn
        cases hn
      · intro hn
        cases hn.1
        rw [hn.2] at hs
        cases hs

/-- The part for tags, which a renderer may leave out. -/
theorem tagsPart_from (d : Detections) (c : RendererOptions) (now : ℤ) :
    DrawnFrom d (if c.isAprilTags then d.drawAprilTags now else ({}, d)).2 .aprilTag now
      (d.toPop c .aprilTag now)
      ((if c.isAprilTags then d.drawAprilTags now else ({}, d)).1.taken .aprilTag) := by
  cases h : c.isAprilTags with
  | false =>
      have hpop : d.toPop c .aprilTag now = none := by simp [toPop, RendererOptions.shows, h]
      rw [hpop]
      exact .idle rfl (fun _ => rfl)
  | true =>
      have hpop : d.toPop c .aprilTag now =
          if 280000000 < now - d.lastAprilTagTime then (d.recent .aprilTag).max? else none := by
        simp [toPop, RendererOptions.shows, lastTime, h]
      rw [hpop]
      exact drawAprilTags_from d now

theorem facesPart_from (d : Detections) (c : RendererOptions) (now : ℤ) :
    DrawnFrom d (if c.isBB then d.drawFaces now else ({}, d)).2 .face now (d.toPop c .face now)
      ((if c.isBB then d.drawFaces now else ({}, d)).1.taken .face) := by
  cases h : c.isBB with
  | false =>
      have hpop : d.toPop c .face now = none := by simp [toPop, RendererOptions.shows, h]
      rw [hpop]
      exact .idle rfl (fun _ => rfl)
  | true =>
      have hpop : d.toPop c .face now =
          if 280000000 < now - d.lastFaceTime then (d.recent .face).max? else none := by
        simp [toPop, RendererOptions.shows, lastTime, h]
      rw [hpop]
      exact drawFaces_from d now

/-- Every draw, for either kind. -/
theorem draw_from (d : Detections) (c : RendererOptions) (now faceNow : ℤ) (k : DetectionKind) :
    DrawnFrom d (d.draw c now faceNow).2 k (clock now faceNow k)
      (d.toPop c k (clock now faceNow k)) ((d.draw c now faceNow).1.taken k) := by
  cases k with
  | aprilTag =>
      -- the part for faces leaves the tags alone
      have hkept : (d.draw c now faceNow).2.aprilTags =
            (if c.isAprilTags then d.drawAprilTags now else ({}, d)).2.aprilTags ∧
          (d.draw c now faceNow).2.recent .aprilTag =
            (if c.isAprilTags then d.drawAprilTags now else ({}, d)).2.recent .aprilTag := by
        cases h : c.isBB with
        | false => simp [draw, h]
        | true => simpa [draw, h] using drawFaces_other _ faceNow
      refine (tagsPart_from d c now).congr rfl hkept.2 (fun _ => rfl) (fun j => ?_) (fun _ => rfl)
      rw [hasEntry, hasEntry, hkept.1]
  | face =>
      -- the part for tags has left the faces alone
      have hkept : (if c.isAprilTags then d.drawAprilTags now else ({}, d)).2.faceDetections =
            d.faceDetections ∧
          (if c.isAprilTags then d.drawAprilTags now else ({}, d)).2.recent .face =
            d.recent .face ∧
          (if c.isAprilTags then d.drawAprilTags now else ({}, d)).2.lastFaceTime =
            d.lastFaceTime := by
        cases h : c.isAprilTags with
        | false => exact ⟨rfl, rfl, rfl⟩
        | true => exact drawAprilTags_other d now
      have hfaces := facesPart_from
        (if c.isAprilTags then d.drawAprilTags now else ({}, d)).2 c faceNow
      have hpop : toPop (if c.isAprilTags then d.drawAprilTags now else ({}, d)).2 c .face
          faceNow = d.toPop c .face faceNow := by
        have htime : lastTime (if c.isAprilTags then d.drawAprilTags now else ({}, d)).2 .face =
            d.lastTime .face := hkept.2.2
        rw [toPop, toPop, hkept.2.1, htime]
      rw [hpop] at hfaces
      refine hfaces.congr hkept.2.1.symm rfl (fun j => ?_) (fun _ => rfl) (fun n => ?_)
      · rw [hasEntry, hasEntry, hkept.1]
      · rw [isShowable, isShowable, hkept.1]

end Detections

end ARArch
