import ARArch.Requests

/-!
# The abstract frame map

What the frame store is for when no frames are paired: a map from cameras and numbers to frames,
in which the frames of a camera are numbered in the order they come, together with the claim
flags of the frames. A frame stays until it is deleted while no consumer claims it, or until its
camera is cleared.
-/

namespace ARArch

structure FrameMap where
  cameras : List CameraId := []
  /-- How many frames the camera has had. -/
  count : CameraId → ℕ := fun _ => 0
  live : Table Key FrameRef := Table.empty
  flag : FrameRef → Consumer → Bool

namespace FrameMap

def isNew (m : FrameMap) (c : CameraId) : Bool := c ≠ noCamera ∧ c ∉ m.cameras

def addCamera (m : FrameMap) (c : CameraId) : FrameMap :=
  if m.isNew c then { m with cameras := m.cameras ++ [c] } else m

def add (m : FrameMap) (c : CameraId) (f : FrameRef) : FrameMap :=
  { m with
    count := Function.update m.count c (m.count c + 1)
    live := m.live.assign (c, m.count c) f }

/-- Delete a frame that no consumer claims. -/
def delete (m : FrameMap) (k : Key) : FrameMap :=
  match m.live k with
  | none => m
  | some f => if ∀ u, m.flag f u = false then { m with live := m.live.erase k } else m

def clear (m : FrameMap) (c : CameraId) : FrameMap :=
  { m with live := fun k => if k.1 = c then none else m.live k }

def setFlag (m : FrameMap) (f : FrameRef) (u : Consumer) (b : Bool) : FrameMap :=
  { m with flag := fun g v => if g = f ∧ v = u then b else m.flag g v }

/-- The map as a service; requests about pairs and bare numbers are not its own. -/
def respond : Service Request Request.Ans FrameMap
  | .hardwareAddCamera c, m => some (m.isNew c, m.addCamera c)
  | .newFrame c f, m => some (m.count c, m.add c f)
  | .getFrame c s, m => some (m.live (c, s), m)
  | .hasFrame c s, m => some ((m.live (c, s)).isSome, m)
  | .hasFrameAny s, m => some (m.cameras.any (fun c => (m.live (c, s)).isSome), m)
  | .deleteFrame c s, m => some ((), m.delete (c, s))
  | .clearQueued c, m => some ((), m.clear c)
  | .setFlag f u b, m => some ((), m.setFlag f u b)
  | _, _ => none

end FrameMap

/-- The requests of a monocular run: frames come from registered cameras only, and nothing is
paired. -/
def Monocular (cameras : List CameraId) : Request → Prop
  | .newFrame c _ => c ∈ cameras
  | .hardwareAddCamera _ | .getFrame _ _ | .hasFrame _ _ | .hasFrameAny _ => True
  | .deleteFrame _ _ | .clearQueued _ | .setFlag _ _ _ => True
  | _ => False

/-! ### The map in terms of the calls made -/

/-- The number of `new_frame` calls for a camera. -/
def framesOf (done : History) (c : CameraId) : ℕ :=
  done.countP (fun d => match d.request with
    | .newFrame c' _ => c' = c
    | _ => false)

/-- The claim flag as it was last set. -/
def flagOf (flag₀ : FrameRef → Consumer → Bool) : History → FrameRef → Consumer → Bool
  | [], f, u => flag₀ f u
  | ⟨.setFlag f' u' b, _⟩ :: done, f, u => if f = f' ∧ u = u' then b else flagOf flag₀ done f u
  | _ :: done, f, u => flagOf flag₀ done f u

/-- `f` was registered as `(c, s)`, and was not since removed by a `clear_queued` of its camera or
by a `delete_frame` made while its flags were clear. -/
def Stored (flag₀ : FrameRef → Consumer → Bool) : History → CameraId → SeqNo → FrameRef → Prop
  | [], _, _, _ => False
  | ⟨.newFrame c' f', _⟩ :: done, c, s, f =>
    (c = c' ∧ s = framesOf done c ∧ f = f') ∨ Stored flag₀ done c s f
  | ⟨.deleteFrame c' s', _⟩ :: done, c, s, f =>
    Stored flag₀ done c s f ∧ ¬ (c = c' ∧ s = s' ∧ ∀ u, flagOf flag₀ done f u = false)
  | ⟨.clearQueued c', _⟩ :: done, c, s, f => Stored flag₀ done c s f ∧ c ≠ c'
  | _ :: done, c, s, f => Stored flag₀ done c s f

/-- What the calls of a monocular run answer, in terms of the calls before. -/
def MonocularAnswer (flag₀ : FrameRef → Consumer → Bool) (done : History) :
    (q : Request) → q.Ans → Prop
  | .newFrame c _, a => a = framesOf done c
  | .getFrame c s, a => ∀ f, a = some f ↔ Stored flag₀ done c s f
  | .hasFrame c s, a => a = true ↔ ∃ f, Stored flag₀ done c s f
  | .hasFrameAny s, a => a = true ↔ ∃ c f, Stored flag₀ done c s f
  | _, _ => True

namespace FrameMap

variable {flag₀ : FrameRef → Consumer → Bool} {done : History} {m t : FrameMap}

/-- The state of the map as the calls made so far determine it. -/
structure Records (flag₀ : FrameRef → Consumer → Bool) (done : History) (m : FrameMap) : Prop where
  count : ∀ c, m.count c = framesOf done c
  flag : ∀ f u, m.flag f u = flagOf flag₀ done f u
  live : ∀ c s f, m.live (c, s) = some f ↔ Stored flag₀ done c s f
  below : ∀ c s f, m.live (c, s) = some f → c ∈ m.cameras ∧ s < m.count c

theorem Records.newFrame (h : Records flag₀ done m) {c : CameraId} (hc : c ∈ m.cameras)
    (f : FrameRef) (a : SeqNo) : Records flag₀ (⟨.newFrame c f, a⟩ :: done) (m.add c f) := by
  have hfree : m.live (c, m.count c) = none := by
    by_contra hn
    obtain ⟨g, hg⟩ := Option.ne_none_iff_exists'.mp hn
    exact Nat.lt_irrefl _ (h.below c _ g hg).2
  have hcount (d : CameraId) : (m.add c f).count d = framesOf (⟨.newFrame c f, a⟩ :: done) d := by
    by_cases hd : d = c
    · subst hd
      simp [add, framesOf, h.count]
    · have hd' : ¬ c = d := fun he => hd he.symm
      simp [add, framesOf, h.count, hd, hd']
  have hlive (d : CameraId) (s : SeqNo) (g : FrameRef) :
      (m.add c f).live (d, s) = some g ↔
        (d = c ∧ s = m.count c ∧ g = f) ∨ m.live (d, s) = some g := by
    simp only [add, Table.assign_apply, Prod.mk.injEq]
    split_ifs with hk
    · obtain ⟨rfl, rfl⟩ := hk
      simp [hfree, eq_comm]
    · constructor
      · exact Or.inr
      · rintro (⟨rfl, rfl, _⟩ | hg)
        · exact (hk ⟨rfl, rfl⟩).elim
        · exact hg
  refine ⟨hcount, h.flag, ?_, ?_⟩
  · intro d s g
    rw [hlive, h.live, h.count]
    constructor
    · rintro (⟨rfl, rfl, rfl⟩ | hg)
      · exact Or.inl ⟨rfl, rfl, rfl⟩
      · exact Or.inr hg
    · rintro (⟨rfl, rfl, rfl⟩ | hg)
      · exact Or.inl ⟨rfl, rfl, rfl⟩
      · exact Or.inr hg
  · intro d s g hg
    have hle : m.count d ≤ (m.add c f).count d := by
      by_cases hd : d = c
      · subst hd
        simp [add]
      · simp [add, hd]
    rcases (hlive d s g).mp hg with ⟨rfl, rfl, _⟩ | hg
    · exact ⟨hc, by simp [add]⟩
    · exact ⟨(h.below d s g hg).1, Nat.lt_of_lt_of_le (h.below d s g hg).2 hle⟩

theorem delete_live (m : FrameMap) (k j : Key) (g : FrameRef) :
    (m.delete k).live j = some g ↔
      m.live j = some g ∧ ¬ (j = k ∧ ∀ u, m.flag g u = false) := by
  unfold delete
  cases hk : m.live k with
  | none =>
      refine ⟨fun hg => ⟨hg, ?_⟩, And.left⟩
      rintro ⟨rfl, _⟩
      simp [hk] at hg
  | some f =>
      dsimp only
      split_ifs with hu
      · rw [Table.erase_eq_some]
        constructor
        · rintro ⟨hj, hg⟩
          exact ⟨hg, fun h => hj h.1⟩
        · rintro ⟨hg, hn⟩
          refine ⟨?_, hg⟩
          rintro rfl
          rw [hk] at hg
          cases hg
          exact hn ⟨rfl, hu⟩
      · refine ⟨fun hg => ⟨hg, ?_⟩, And.left⟩
        rintro ⟨rfl, hn⟩
        rw [hk] at hg
        cases hg
        exact hu hn

theorem delete_eq (m : FrameMap) (k : Key) :
    m.delete k = m ∨ m.delete k = { m with live := m.live.erase k } := by
  unfold delete
  cases m.live k with
  | none => exact Or.inl rfl
  | some f =>
      dsimp only
      split_ifs
      · exact Or.inr rfl
      · exact Or.inl rfl

@[simp] theorem delete_count (m : FrameMap) (k : Key) : (m.delete k).count = m.count := by
  rcases m.delete_eq k with h | h <;> rw [h]

@[simp] theorem delete_flag (m : FrameMap) (k : Key) : (m.delete k).flag = m.flag := by
  rcases m.delete_eq k with h | h <;> rw [h]

@[simp] theorem delete_cameras (m : FrameMap) (k : Key) : (m.delete k).cameras = m.cameras := by
  rcases m.delete_eq k with h | h <;> rw [h]

theorem Records.deleteFrame (h : Records flag₀ done m) (c : CameraId) (s : SeqNo) :
    Records flag₀ (⟨.deleteFrame c s, ()⟩ :: done) (m.delete (c, s)) := by
  refine ⟨?_, ?_, ?_, ?_⟩
  · intro d
    rw [delete_count]
    exact h.count d
  · intro f u
    rw [delete_flag]
    exact h.flag f u
  · intro d q g
    rw [delete_live, h.live, Prod.mk.injEq, and_assoc]
    simp only [h.flag]
    rfl
  · intro d q g hg
    rw [delete_live] at hg
    rw [delete_cameras, delete_count]
    exact h.below d q g hg.1

theorem Records.clearQueued (h : Records flag₀ done m) (c : CameraId) :
    Records flag₀ (⟨.clearQueued c, ()⟩ :: done) (m.clear c) := by
  have hlive (d : CameraId) (s : SeqNo) (g : FrameRef) :
      (m.clear c).live (d, s) = some g ↔ m.live (d, s) = some g ∧ d ≠ c := by
    simp only [clear]
    split_ifs with hd <;> simp [hd]
  refine ⟨h.count, h.flag, ?_, ?_⟩
  · intro d s g
    rw [hlive, h.live]
    rfl
  · intro d s g hg
    exact h.below d s g ((hlive d s g).mp hg).1

theorem Records.setFlag (h : Records flag₀ done m) (f : FrameRef) (u : Consumer) (b : Bool) :
    Records flag₀ (⟨.setFlag f u b, ()⟩ :: done) (m.setFlag f u b) := by
  refine ⟨h.count, ?_, h.live, h.below⟩
  intro g v
  simp only [FrameMap.setFlag, flagOf, h.flag]

theorem Records.addCamera (h : Records flag₀ done m) (c : CameraId) (b : Bool) :
    Records flag₀ (⟨.hardwareAddCamera c, b⟩ :: done) (m.addCamera c) := by
  unfold FrameMap.addCamera
  split_ifs
  · refine ⟨h.count, h.flag, h.live, ?_⟩
    intro d s f hf
    exact ⟨List.mem_append_left _ (h.below d s f hf).1, (h.below d s f hf).2⟩
  · exact ⟨h.count, h.flag, h.live, h.below⟩

theorem Records.step (h : Records flag₀ done m) {q : Request} {a : q.Ans}
    (hok : Monocular m.cameras q) (hq : FrameMap.respond q m = some (a, t)) :
    Records flag₀ (⟨q, a⟩ :: done) t := by
  cases q with
  | hardwareAddCamera c =>
      cases hq
      exact h.addCamera c _
  | newFrame c f =>
      cases hq
      exact h.newFrame hok f _
  | deleteFrame c s =>
      cases hq
      exact h.deleteFrame c s
  | clearQueued c =>
      cases hq
      exact h.clearQueued c
  | setFlag f u b =>
      cases hq
      exact h.setFlag f u b
  | getFrame c s | hasFrame c s | hasFrameAny s =>
      cases hq
      exact ⟨h.count, h.flag, h.live, h.below⟩
  | _ => cases hok

theorem Records.of_session
    (h : Session FrameMap.respond (fun _ m q => Monocular m.cameras q) { flag := flag₀ } done m) :
    Records flag₀ done m := by
  refine Session.invariant (I := Records flag₀) ?_ (fun _ _ _ _ _ h hok hq => h.step hok hq) h
  refine ⟨fun _ => rfl, fun _ _ => rfl, ?_, ?_⟩
  · intro c s f
    simp [Stored]
  · intro c s f hf
    cases hf

/-- The answers of the map are the ones the calls before call for. -/
theorem Records.answer (h : Records flag₀ done m) {q : Request} {a : q.Ans}
    (hq : FrameMap.respond q m = some (a, t)) : MonocularAnswer flag₀ done q a := by
  cases q with
  | newFrame c f =>
      cases hq
      exact h.count c
  | getFrame c s =>
      cases hq
      exact h.live c s
  | hasFrame c s =>
      cases hq
      simp only [MonocularAnswer, ← h.live, Option.isSome_iff_exists]
  | hasFrameAny s =>
      cases hq
      simp only [MonocularAnswer, ← h.live, List.any_eq_true, Option.isSome_iff_exists]
      constructor
      · rintro ⟨c, _, f, hf⟩
        exact ⟨c, f, hf⟩
      · rintro ⟨c, f, hf⟩
        exact ⟨c, (h.below c s f hf).1, f, hf⟩
  | _ => trivial

/-! ### One camera at a time -/

end FrameMap

/-- The request is about camera `d` alone, or about the claim flags of a frame. -/
def Request.onlyOn (d : CameraId) : Request → Bool
  | hardwareAddCamera c | newFrame c _ | getFrame c _ | hasFrame c _ | deleteFrame c _ => c = d
  | clearQueued c => c = d
  | setFlag _ _ _ => true
  | _ => false

namespace FrameMap

variable {m m' t : FrameMap} {d : CameraId} {q : Request}

/-- Two maps that cannot be told apart by requests about camera `d`. -/
structure AgreeOn (d : CameraId) (m m' : FrameMap) : Prop where
  cameras : d ∈ m.cameras ↔ d ∈ m'.cameras
  count : m.count d = m'.count d
  live : ∀ s, m.live (d, s) = m'.live (d, s)
  flag : m.flag = m'.flag

theorem AgreeOn.skip (h : AgreeOn d m m') {a : q.Ans} (hd : q.onlyOn d = false)
    (hq : FrameMap.respond q m = some (a, t)) : AgreeOn d t m' := by
  have hne {c : CameraId} (hc : decide (c = d) = false) : d ≠ c := fun he =>
    of_decide_eq_false hc he.symm
  cases q with
  | hardwareAddCamera c =>
      cases hq
      unfold addCamera
      split_ifs
      · refine ⟨?_, h.count, h.live, h.flag⟩
        rw [← h.cameras]
        simp [hne hd]
      · exact h
  | newFrame c f =>
      cases hq
      refine ⟨h.cameras, ?_, ?_, h.flag⟩
      · rw [← h.count]
        simp [add, hne hd]
      · intro s
        rw [← h.live]
        simp [add, hne hd]
  | deleteFrame c s =>
      cases hq
      refine ⟨?_, ?_, ?_, ?_⟩
      · rw [delete_cameras, h.cameras]
      · rw [delete_count, h.count]
      · intro n
        rw [← h.live]
        apply Option.ext
        intro g
        rw [delete_live]
        simp [hne hd]
      · rw [delete_flag, h.flag]
  | clearQueued c =>
      cases hq
      refine ⟨h.cameras, h.count, ?_, h.flag⟩
      intro n
      rw [← h.live]
      simp [clear, hne hd]
  | getFrame c s | hasFrame c s | hasFrameAny s =>
      cases hq
      exact h
  | setFlag f u b => cases hd
  | _ => cases hq

theorem AgreeOn.keep (h : AgreeOn d m m') {a : q.Ans} (hd : q.onlyOn d = true)
    (hok : Monocular m.cameras q) (hq : FrameMap.respond q m = some (a, t)) :
    Monocular m'.cameras q ∧
      ∃ t', FrameMap.respond q m' = some (a, t') ∧ AgreeOn d t t' := by
  cases q with
  | hardwareAddCamera c =>
      have hc : c = d := of_decide_eq_true hd
      subst hc
      cases hq
      have hnew : m'.isNew c = m.isNew c := by simp [isNew, h.cameras]
      refine ⟨trivial, m'.addCamera c, by rw [FrameMap.respond, hnew], ?_⟩
      unfold addCamera
      rw [hnew]
      split_ifs
      · exact ⟨by simp, h.count, h.live, h.flag⟩
      · exact h
  | newFrame c f =>
      have hc : c = d := of_decide_eq_true hd
      subst hc
      cases hq
      refine ⟨h.cameras.mp hok, m'.add c f, by rw [FrameMap.respond, h.count], ?_⟩
      refine ⟨h.cameras, by simp [add, h.count], ?_, h.flag⟩
      intro s
      simp [add, Table.assign_apply, h.count, h.live]
  | getFrame c s =>
      have hc : c = d := of_decide_eq_true hd
      subst hc
      cases hq
      exact ⟨trivial, m', by rw [FrameMap.respond, h.live], h⟩
  | hasFrame c s =>
      have hc : c = d := of_decide_eq_true hd
      subst hc
      cases hq
      exact ⟨trivial, m', by rw [FrameMap.respond, h.live], h⟩
  | deleteFrame c s =>
      have hc : c = d := of_decide_eq_true hd
      subst hc
      cases hq
      refine ⟨trivial, m'.delete (c, s), rfl, ?_⟩
      refine ⟨?_, ?_, ?_, ?_⟩
      · rw [delete_cameras, delete_cameras, h.cameras]
      · rw [delete_count, delete_count, h.count]
      · intro n
        apply Option.ext
        intro g
        rw [delete_live, delete_live, h.live, h.flag]
      · rw [delete_flag, delete_flag, h.flag]
  | clearQueued c =>
      have hc : c = d := of_decide_eq_true hd
      subst hc
      cases hq
      exact ⟨trivial, m'.clear c, rfl, h.cameras, h.count, by simp [clear], h.flag⟩
  | setFlag f u b =>
      cases hq
      exact ⟨trivial, m'.setFlag f u b, rfl, h.cameras, h.count, h.live,
        by simp [FrameMap.setFlag, h.flag]⟩
  | _ => cases hd

/-- Leaving out the calls on other cameras changes no answer of a call on camera `d`. -/
theorem session_onlyOn {flag₀ : FrameRef → Consumer → Bool} {done : History} (d : CameraId)
    (h : Session FrameMap.respond (fun _ m q => Monocular m.cameras q) { flag := flag₀ } done m) :
    ∃ m', Session FrameMap.respond (fun _ m q => Monocular m.cameras q) { flag := flag₀ }
      (done.filter (fun e => e.request.onlyOn d)) m' := by
  have h₀ : AgreeOn d { flag := flag₀ } { flag := flag₀ } := ⟨.rfl, rfl, fun _ => rfl, rfl⟩
  obtain ⟨m', hm, _⟩ := Session.project (Request.onlyOn d) h₀
    (fun _ _ _ _ _ _ hd hR _ hq => hR.skip hd hq)
    (fun _ _ _ _ _ _ _ hd hR hok hq => hR.keep hd hok hq) h
  exact ⟨m', hm⟩

end FrameMap
end ARArch
