import ARArch.JniReferences

/-!
# How often the references are deleted

A call from Java goes through stages: its frame is made, waits to be queued, and is queued or, after
three pushes in vain, has its references deleted. The destructor deletes them too, once, on
whichever thread the last share is dropped.
-/

namespace ARArch

open Atomic

inductive CallStage
  | idle
  | made (frame : FrameRef) (arrays : List FrameArray)
  | waiting (frame : FrameRef) (arrays : List FrameArray) (fulls : ℕ)
  | queued (frame : FrameRef)
  | undoing (frame : FrameRef) (left : List FrameArray)

namespace CallStage

def frame : CallStage → Option FrameRef
  | idle => none
  | made f _ | waiting f _ _ | queued f | undoing f _ => some f

/-- How often the call itself has deleted a reference. -/
def undone : CallStage → FrameArray → ℕ
  | undoing _ left, a => if a ∈ left then 0 else 1
  | _, _ => 0

theorem undone_undoing (f : FrameRef) (left : List FrameArray) (a : FrameArray) :
    (undoing f left).undone a = if a ∈ left then 0 else 1 := rfl

/-- How often the frame has been pushed in vain. -/
def Fulls : CallStage → ℕ → Prop
  | idle, _ => True
  | made _ _, n => n = 0
  | waiting _ _ k, n => n = k ∧ k < 3
  | queued _, n => n < 3
  | undoing _ _, n => n = 3

def Arrays : CallStage → List FrameArray → Prop
  | made _ arrays, l | waiting _ arrays _, l => l = arrays ∧ arrays.Nodup
  | undoing _ left, _ => left.Nodup
  | _, _ => True

/-- The stage after so many pushes in vain. -/
def afterFull (f : FrameRef) (arrays : List FrameArray) (n : ℕ) : CallStage :=
  if n < 3 then waiting f arrays n else undoing f arrays

end CallStage

/-- In which order a call from Java makes its calls; what else a thread does is free. -/
def jniOrder : Discipline JniOp JniOp.Ans CallStage where
  allowed
    | .newFrameInfo arrays, g => g = .idle ∧ arrays.Nodup
    | .share f, g => ∃ arrays, g = .made f arrays
    | .tryPush _ f, g => ∃ arrays n, g = .waiting f arrays n
    | .deleteGlobalRef f a, g => ∃ left, g = .undoing f (a :: left)
    | .returned f b, g => g = if b then .queued f else .undoing f []
    | _, _ => True
  after
    | .newFrameInfo arrays, f, _ => .made f arrays
    | .share f, _, .made _ arrays => .waiting f arrays 0
    | .tryPush _ f, true, _ => .queued f
    | .tryPush _ f, false, .waiting _ arrays n => .afterFull f arrays (n + 1)
    | .deleteGlobalRef f _, _, .undoing _ (_ :: left) => .undoing f left
    | .returned _ _, _, _ => .idle
    | _, _, g => g
  answers _ _ := True

/-! ### The programs keep to it -/

namespace JniCall

variable {id : CameraId} {f : FrameRef} {arrays left : List FrameArray} {g : CallStage} {n : ℕ}

theorem follows_drop : jniOrder.Follows g (perform (.drop f)) (fun _ => g) :=
  .last trivial (fun _ _ => rfl)

theorem follows_deleteFrame {s : SeqNo} :
    jniOrder.Follows g (deleteFrame id s) (fun _ => g) :=
  .step trivial (fun _ _ => .forEach (fun _ => follows_drop))

/-- The frame is queued, or has its references deleted next. -/
def pushed (f : FrameRef) (arrays : List FrameArray) (b : Bool) : CallStage :=
  if b then .queued f else .undoing f arrays

theorem follows_tryPush {p : JniCall Bool}
    (hp : jniOrder.Follows (.afterFull f arrays (n + 1)) p (pushed f arrays)) :
    jniOrder.Follows (.waiting f arrays n) (do
      if ← perform (.tryPush id f) then pure true else p) (pushed f arrays) := by
  refine .step ⟨arrays, n, rfl⟩ (fun r _ => ?_)
  cases r with
  | true => exact .pure rfl
  | false => exact hp

theorem follows_enqueueLoop (h : n ≤ 2) :
    jniOrder.Follows (.afterFull f arrays (3 - n)) (enqueueLoop id f n) (pushed f arrays) := by
  induction n with
  | zero => exact .pure rfl
  | succ n ih =>
      have hstage : CallStage.afterFull f arrays (3 - (n + 1)) =
          .waiting f arrays (3 - (n + 1)) := if_pos (by omega)
      have hnext : 3 - (n + 1) + 1 = 3 - n := by omega
      have hpush : jniOrder.Follows (.waiting f arrays (3 - (n + 1)))
          (do if ← perform (.tryPush id f) then pure true else enqueueLoop id f n)
          (pushed f arrays) := by
        apply follows_tryPush
        rw [hnext]
        exact ih (by omega)
      rw [hstage, enqueueLoop]
      refine .step trivial (fun a _ => ?_)
      cases a with
      | none => exact hpush
      | some oldData =>
          refine .step trivial (fun _ _ => .step trivial (fun _ _ => ?_))
          exact follows_deleteFrame.bind (fun _ => hpush)

theorem follows_enqueue :
    jniOrder.Follows (.made f arrays) (enqueue id f) (pushed f arrays) := by
  refine .step ⟨arrays, rfl⟩ (fun _ _ => ?_)
  have hpush : jniOrder.Follows (.waiting f arrays 0) (pushShared id f) (pushed f arrays) :=
    follows_tryPush (follows_enqueueLoop (n := 2) le_rfl)
  exact hpush.bind (fun b => follows_drop.bind (fun _ => .pure rfl))

theorem follows_undo (left : List FrameArray) : jniOrder.Follows (.undoing f left)
    (Prog.forEach (fun a => perform (.deleteGlobalRef f a)) left)
    (fun _ => .undoing f []) := by
  induction left with
  | nil => exact .pure rfl
  | cons a left ih => exact .step ⟨left, rfl⟩ (fun _ _ => ih)

theorem follows_handOver (h : arrays.Nodup) :
    jniOrder.Follows .idle (handOver id arrays) (fun _ => .idle) := by
  refine .step ⟨rfl, h⟩ (fun f _ => follows_enqueue.bind (fun b => ?_))
  cases b with
  | true => exact .step rfl (fun _ _ => .pure rfl)
  | false =>
      refine (follows_undo arrays).bind (fun _ => ?_)
      exact .step rfl (fun _ _ => .pure rfl)

theorem nodup_arraysOf (hasRgba hasGrey : Bool) (monoLen : ℤ) :
    (arraysOf hasRgba hasGrey monoLen).Nodup := by
  rw [arraysOf]
  split_ifs <;> decide

end JniCall

theorem follows_task (q : JniTask) : jniOrder.Follows .idle q.program (fun _ => .idle) := by
  cases q with
  | enqueue id hasRgba hasGrey monoLen =>
      exact JniCall.follows_handOver (JniCall.nodup_arraysOf _ _ _)
  | enqueueYUV id hasGrey isGrey monoLen =>
      exact JniCall.follows_handOver (JniCall.nodup_arraysOf _ _ _)
  | _ => exact .last trivial (fun _ _ => rfl)

/-! ### Counting -/

namespace JniMemory

variable {i : JniOp} {r : i.Ans} {m m' : JniMemory} {f : FrameRef} {k : FrameArray → ℕ}

/-- How often the destructor has deleted the references. -/
def disposals (m : JniMemory) (f : FrameRef) : ℕ := if m.destroyed f then 1 else 0

/-- The references have been deleted by the destructor and `k` times besides. -/
def Counted (m : JniMemory) (f : FrameRef) (k : FrameArray → ℕ) : Prop :=
  f < m.nextFrame ∧ ∀ a ∈ m.arrays f, m.deletions f a = m.disposals f + k a

/-- A destroyed frame is not shared. -/
def Unshared (m : JniMemory) : Prop := ∀ f, m.destroyed f = true → m.uses f = 0

/-- Nothing has happened to the frame. -/
structure Unmade (m : JniMemory) (f : FrameRef) : Prop where
  uses : m.uses f = 0
  destroyed : m.destroyed f = false
  deletions : ∀ a, m.deletions f a = 0

end JniMemory

/-- The frame that a step of a call from Java is about. -/
def JniOp.about : (i : JniOp) → i.Ans → Option FrameRef
  | newFrameInfo _, f => some f
  | share f, _ | tryPush _ f, _ | deleteGlobalRef f _, _ | returned f _, _ => some f
  | _, _ => none

namespace JniMemory

/-- What is counted is the same in both. -/
structure SameBooks (m m' : JniMemory) : Prop where
  nextFrame : m'.nextFrame = m.nextFrame
  arrays : m'.arrays = m.arrays
  uses : m'.uses = m.uses
  destroyed : m'.destroyed = m.destroyed
  deletions : m'.deletions = m.deletions

variable {i : JniOp} {r : i.Ans} {m m' : JniMemory} {f : FrameRef} {k : FrameArray → ℕ}

theorem SameBooks.refl (m : JniMemory) : SameBooks m m := ⟨rfl, rfl, rfl, rfl, rfl⟩

/-- What a step may do to the books. -/
theorem exec_cases (hm : m.Unshared) (h : exec i m = some (r, m')) :
    SameBooks m m' ∨
    (i.about r = some m.nextFrame ∧ ∃ arrays, m' = { m with
      nextFrame := m.nextFrame + 1
      arrays := Function.update m.arrays m.nextFrame arrays }) ∨
    (∃ g n, m.destroyed g = false ∧ (m.uses g ≠ 0 ∨ i.about r = some g) ∧
      SameBooks { m with uses := Function.update m.uses g n } m') ∨
    (∃ g, m.uses g = 1 ∧ m' = m.destroy g) ∨
    ∃ g a, i = .deleteGlobalRef g a ∧ m' = m.deleteRef g a := by
  have hlive {g : FrameRef} (hg : m.uses g ≠ 0) : m.destroyed g = false := by
    by_contra hd
    exact hg (hm g (by simpa using hd))
  cases i with
  | newFrameInfo arrays =>
      cases h
      exact .inr (.inl ⟨rfl, arrays, rfl⟩)
  | share g =>
      simp only [exec] at h
      split_ifs at h with hd
      cases h
      exact .inr (.inr (.inl ⟨g, 1, by simpa using hd, .inr (rfl), .refl _⟩))
  | copy g =>
      simp only [exec] at h
      split_ifs at h with hg
      cases h
      exact .inr (.inr (.inl ⟨g, _, hlive hg, .inl hg, .refl _⟩))
  | drop g =>
      simp only [exec] at h
      split_ifs at h with hg h1
      · cases h
        exact .inr (.inr (.inr (.inl ⟨g, h1, rfl⟩)))
      · cases h
        exact .inr (.inr (.inl ⟨g, _, hlive hg, .inl hg, .refl _⟩))
  | tryPush id g =>
      simp only [exec] at h
      split_ifs at h with hg hroom
      · cases h
        exact .inr (.inr (.inl ⟨g, m.uses g + 1, hlive hg, .inl hg, ⟨rfl, rfl, rfl, rfl, rfl⟩⟩))
      · cases h
        exact .inl (.refl _)
  | tryPop id =>
      simp only [exec] at h
      split at h <;> cases h <;> exact .inl ⟨rfl, rfl, rfl, rfl, rfl⟩
  | pop id =>
      simp only [exec] at h
      split at h <;> cases h
      exact .inl ⟨rfl, rfl, rfl, rfl, rfl⟩
  | deleteFrame id s =>
      simp only [exec] at h
      split at h <;> cases h <;> exact .inl ⟨rfl, rfl, rfl, rfl, rfl⟩
  | deleteGlobalRef g a =>
      cases h
      exact .inr (.inr (.inr (.inr ⟨g, a, rfl, rfl⟩)))
  | seqno g | setSeqno g n | returned g b =>
      cases h
      exact .inl ⟨rfl, rfl, rfl, rfl, rfl⟩

theorem Unshared.exec (hm : m.Unshared) (h : exec i m = some (r, m')) : m'.Unshared := by
  intro f hf
  rcases exec_cases hm h with hs | ⟨-, arrays, rfl⟩ | ⟨g, n, hd, -, hs⟩ | ⟨g, -, rfl⟩ |
    ⟨g, a, -, rfl⟩
  · rw [hs.destroyed] at hf
    rw [hs.uses]
    exact hm f hf
  · exact hm f hf
  · have hne : f ≠ g := by
      rintro rfl
      rw [hs.destroyed] at hf
      have hf' : m.destroyed f = true := hf
      rw [hd] at hf'
      cases hf'
    rw [hs.destroyed] at hf
    rw [hs.uses]
    exact (Function.update_of_ne hne _ _).trans (hm f hf)
  · by_cases hfg : f = g
    · rw [hfg]
      exact Function.update_self ..
    · refine (Function.update_of_ne hfg _ _).trans (hm f ?_)
      rwa [destroyed_destroy, Function.update_of_ne hfg] at hf
  · exact hm f hf

/-- How often a frame is used does not matter. -/
theorem Counted.congr (hf : m.Counted f k) (hnext : m'.nextFrame = m.nextFrame)
    (harrays : m'.arrays = m.arrays) (hdestroyed : m'.destroyed = m.destroyed)
    (hdeletions : m'.deletions = m.deletions) : m'.Counted f k := by
  obtain ⟨hlt, hcount⟩ := hf
  constructor
  · rwa [hnext]
  · intro a ha
    rw [harrays] at ha
    rw [hdeletions, disposals, hdestroyed]
    exact hcount a ha

/-- Only the call that the frame belongs to changes what is counted of it. -/
theorem Counted.exec (hm : m.Unshared) (h : exec i m = some (r, m'))
    (hi : ∀ a, i ≠ .deleteGlobalRef f a) (hf : m.Counted f k) :
    m'.Counted f k ∧ m'.arrays f = m.arrays f := by
  have ⟨hlt, hcount⟩ := hf
  rcases exec_cases hm h with hs | ⟨-, arrays, rfl⟩ | ⟨g, n, -, -, hs⟩ | ⟨g, h1, rfl⟩ |
    ⟨g, a, rfl, rfl⟩
  · exact ⟨hf.congr hs.nextFrame hs.arrays hs.destroyed hs.deletions, congrFun hs.arrays f⟩
  · have hne : f ≠ m.nextFrame := Nat.ne_of_lt hlt
    have harrays : Function.update m.arrays m.nextFrame arrays f = m.arrays f :=
      Function.update_of_ne hne _ _
    refine ⟨⟨Nat.lt_succ_of_lt hlt, ?_⟩, harrays⟩
    intro a ha
    exact hcount a (harrays ▸ ha)
  · exact ⟨hf.congr hs.nextFrame hs.arrays hs.destroyed hs.deletions, congrFun hs.arrays f⟩
  · refine ⟨⟨hlt, ?_⟩, rfl⟩
    intro a ha
    have hcount' := hcount a ha
    by_cases hfg : f = g
    · subst hfg
      have hd : m.destroyed f = false := by
        by_contra hd
        have := hm f (by simpa using hd)
        omega
      have ha' : a ∈ m.arrays f := ha
      rw [disposals, hd, if_neg Bool.false_ne_true] at hcount'
      rw [disposals, deletions_destroy, destroyed_destroy, Function.update_self,
        Function.update_self, if_pos ha', if_pos rfl, hcount']
      omega
    · rw [disposals, deletions_destroy, destroyed_destroy, Function.update_of_ne hfg,
        Function.update_of_ne hfg]
      exact hcount'
  · have hne : f ≠ g := by
      rintro rfl
      exact hi a rfl
    refine ⟨⟨hlt, ?_⟩, rfl⟩
    intro b hb
    rw [deletions_deleteRef, Function.update_of_ne hne]
    exact hcount b hb

theorem Unmade.exec (hm : m.Unshared) (h : exec i m = some (r, m')) (hi : i.about r ≠ some f)
    (hf : m.Unmade f) : m'.Unmade f := by
  rcases exec_cases hm h with hs | ⟨-, arrays, rfl⟩ | ⟨g, n, -, hg, hs⟩ | ⟨g, h1, rfl⟩ |
    ⟨g, a, rfl, rfl⟩
  · refine ⟨?_, ?_, ?_⟩
    · rw [hs.uses, hf.uses]
    · rw [hs.destroyed, hf.destroyed]
    · rw [hs.deletions]
      exact hf.deletions
  · exact ⟨hf.uses, hf.destroyed, hf.deletions⟩
  · have hne : f ≠ g := by
      rintro rfl
      rcases hg with hg | hg
      · exact hg hf.uses
      · exact hi hg
    refine ⟨?_, ?_, ?_⟩
    · rw [hs.uses]
      exact (Function.update_of_ne hne _ _).trans hf.uses
    · rw [hs.destroyed]
      exact hf.destroyed
    · rw [hs.deletions]
      exact hf.deletions
  · have hne : f ≠ g := by
      rintro rfl
      rw [hf.uses] at h1
      cases h1
    refine ⟨?_, ?_, ?_⟩
    · exact (Function.update_of_ne hne _ _).trans hf.uses
    · exact (Function.update_of_ne hne _ _).trans hf.destroyed
    · intro a
      rw [deletions_destroy, Function.update_of_ne hne]
      exact hf.deletions a
  · have hne : f ≠ g := by
      rintro rfl
      exact hi rfl
    refine ⟨hf.uses, hf.destroyed, ?_⟩
    intro b
    rw [deletions_deleteRef, Function.update_of_ne hne]
    exact hf.deletions b

theorem nextFrame_le (hm : m.Unshared) (h : exec i m = some (r, m')) :
    m.nextFrame ≤ m'.nextFrame := by
  rcases exec_cases hm h with hs | ⟨-, arrays, rfl⟩ | ⟨g, n, -, -, hs⟩ | ⟨g, -, rfl⟩ |
    ⟨g, a, -, rfl⟩
  · exact hs.nextFrame.ge
  · exact Nat.le_succ _
  · exact hs.nextFrame.ge
  · exact le_rfl
  · exact le_rfl

end JniMemory

/-! ### The stages of all calls together -/

section Stages

variable {τ : Type} {t u : τ} {i : JniOp} {r : i.Ans} {s s' : JniShared τ} {f : FrameRef}
  {g : CallStage}

theorem fullPushes_cons (h : List (JniEvent τ)) (hi : i.about r ≠ some f) :
    fullPushes f (⟨t, i, r⟩ :: h) = fullPushes f h := by
  have hfull : ¬ isFullPush f (⟨t, i, r⟩ : JniEvent τ) = true := by
    intro hfull
    cases i with
    | tryPush id g =>
        cases r with
        | true => cases hfull
        | false => exact hi (congrArg some (of_decide_eq_true hfull))
    | _ => cases hfull
  rw [fullPushes, List.countP_cons_of_neg hfull]
  rfl

/-- What a stage says of its frame. -/
def CallStage.Holds (g : CallStage) (s : JniShared τ) : Prop :=
  ∀ f, g.frame = some f → s.mem.Counted f g.undone ∧ g.Fulls (fullPushes f s.hist) ∧
    g.Arrays (s.mem.arrays f)

theorem CallStage.Holds.exec (hm : s.mem.Unshared) (hc : jniCalls τ t i s r s')
    (hi : ∀ f, g.frame = some f → i.about r ≠ some f) (h : g.Holds s) : g.Holds s' := by
  obtain ⟨⟨_, he⟩, hh⟩ := hc
  intro f hf
  obtain ⟨hcounted, hfulls, harrays⟩ := h f hf
  have hdelete (a : FrameArray) : i ≠ .deleteGlobalRef f a := by
    rintro rfl
    exact hi f hf rfl
  obtain ⟨hcounted', heq⟩ := hcounted.exec hm he hdelete
  refine ⟨hcounted', ?_, ?_⟩
  · rw [hh, fullPushes_cons _ (hi f hf)]
    exact hfulls
  · rw [heq]
    exact harrays

/-- What is known of all frames, with the stages of the threads. -/
structure Accounted (G : τ → CallStage) (s : JniShared τ) : Prop where
  unshared : s.mem.Unshared
  stages : ∀ t, (G t).Holds s
  unique : ∀ t u f, (G t).frame = some f → (G u).frame = some f → t = u
  returned : ∀ t f b, ⟨t, .returned f b, ()⟩ ∈ s.hist →
    s.mem.Counted f (fun _ => if b then 0 else 1) ∧ (fullPushes f s.hist < 3 ↔ b = true) ∧
      ∀ u, (G u).frame ≠ some f
  unmade : ∀ f, s.mem.nextFrame ≤ f → s.mem.Unmade f ∧ fullPushes f s.hist = 0

/-- A step is about a frame just made, or about the one of the thread's call. -/
theorem about_of_allowed {m m' : JniMemory} (hg : jniOrder.allowed i g)
    (h : JniMemory.exec i m = some (r, m')) (hf : i.about r = some f) :
    (f = m.nextFrame ∧ m.nextFrame < m'.nextFrame) ∨ g.frame = some f := by
  cases i with
  | newFrameInfo arrays =>
      cases h
      cases hf
      exact .inl ⟨rfl, Nat.lt_succ_self _⟩
  | share k =>
      obtain ⟨arrays, rfl⟩ := hg
      exact .inr hf
  | tryPush id k =>
      obtain ⟨arrays, n, rfl⟩ := hg
      exact .inr hf
  | deleteGlobalRef k a =>
      obtain ⟨left, rfl⟩ := hg
      exact .inr hf
  | returned k b =>
      cases hg
      cases b <;> exact .inr hf
  | _ => cases hf

theorem after_of_about (hf : i.about r = none) : jniOrder.after i r g = g := by
  cases i <;> first | rfl | cases hf

theorem frame_after (hg : jniOrder.allowed i g) (hf : i.about r = some f) {k : FrameRef}
    (hk : (jniOrder.after i r g).frame = some k) : k = f := by
  cases i with
  | newFrameInfo arrays =>
      cases hf
      cases hk
      rfl
  | share j =>
      obtain ⟨arrays, rfl⟩ := hg
      cases hf
      cases hk
      rfl
  | tryPush id j =>
      obtain ⟨arrays, n, rfl⟩ := hg
      have hj : j = f := Option.some.inj hf
      cases r with
      | true => exact (Option.some.inj hk).symm.trans hj
      | false =>
          change (CallStage.afterFull j arrays (n + 1)).frame = some k at hk
          rw [CallStage.afterFull] at hk
          split_ifs at hk <;> exact (Option.some.inj hk).symm.trans hj
  | deleteGlobalRef j a =>
      obtain ⟨left, rfl⟩ := hg
      cases hf
      cases hk
      rfl
  | returned j b => cases hk
  | _ => cases hf

/-! ### The calls one by one -/

section Calls

variable {G : τ → CallStage} {arrays left : List FrameArray} {n : ℕ}

theorem Accounted.made {r : FrameRef} (h : Accounted G s) (hnodup : arrays.Nodup)
    (hc : jniCalls τ t (.newFrameInfo arrays) s r s') : (CallStage.made r arrays).Holds s' := by
  obtain ⟨⟨_, he⟩, hh⟩ := hc
  obtain ⟨hunmade, hfulls⟩ := h.unmade s.mem.nextFrame le_rfl
  have hmem := Option.some.inj he
  have hr : s.mem.nextFrame = r := congrArg Prod.fst hmem
  have hs' : _ = s'.mem := congrArg Prod.snd hmem
  subst hr
  intro f hf
  cases hf
  refine ⟨⟨?_, ?_⟩, ?_, ?_⟩
  · rw [← hs']
    exact Nat.lt_succ_self _
  · intro a _
    rw [JniMemory.disposals, ← hs']
    change s.mem.deletions _ a = (if s.mem.destroyed _ = true then 1 else 0) + 0
    rw [hunmade.deletions, hunmade.destroyed]
    rfl
  · rw [hh]
    exact hfulls
  · rw [← hs']
    exact ⟨Function.update_self .., hnodup⟩

namespace CallStage.Holds

theorem shared {r : Unit} (hm : s.mem.Unshared) (h : (CallStage.made f arrays).Holds s)
    (hc : jniCalls τ t (.share f) s r s') : (CallStage.waiting f arrays 0).Holds s' := by
  obtain ⟨⟨_, he⟩, hh⟩ := hc
  obtain ⟨hcounted, hfulls, harrays⟩ := h f rfl
  obtain ⟨hcounted', heq⟩ := hcounted.exec hm he (fun _ => nofun)
  intro k hk
  cases hk
  refine ⟨hcounted', ?_, ?_⟩
  · rw [hh]
    exact ⟨hfulls, by omega⟩
  · rw [heq]
    exact harrays

theorem pushed {id : CameraId} (hm : s.mem.Unshared)
    (h : (CallStage.waiting f arrays n).Holds s) (hc : jniCalls τ t (.tryPush id f) s true s') :
    (CallStage.queued f).Holds s' := by
  obtain ⟨⟨_, he⟩, hh⟩ := hc
  obtain ⟨hcounted, ⟨hfulls, hlt⟩, -⟩ := h f rfl
  intro k hk
  cases hk
  refine ⟨(hcounted.exec hm he (fun _ => nofun)).1, ?_, trivial⟩
  rw [hh]
  change fullPushes f s.hist < 3
  omega

/-- A push in vain, after which the call tries again or gives up. -/
theorem full {id : CameraId} (hm : s.mem.Unshared) (h : (CallStage.waiting f arrays n).Holds s)
    (hc : jniCalls τ t (.tryPush id f) s false s') :
    (CallStage.afterFull f arrays (n + 1)).Holds s' := by
  obtain ⟨⟨_, he⟩, hh⟩ := hc
  obtain ⟨hcounted, ⟨hfulls, hlt⟩, harrays⟩ := h f rfl
  obtain ⟨hcounted', heq⟩ := hcounted.exec hm he (fun _ => nofun)
  have hfull : isFullPush f (⟨t, .tryPush id f, false⟩ : JniEvent τ) = true := decide_eq_true rfl
  have hfulls' : fullPushes f s'.hist = n + 1 := by
    rw [hh, fullPushes, List.countP_cons_of_pos hfull]
    exact congrArg (· + 1) hfulls
  rw [CallStage.afterFull]
  split_ifs with h3
  · intro k hk
    cases hk
    exact ⟨hcounted', ⟨hfulls', h3⟩, heq ▸ harrays⟩
  · intro k hk
    cases hk
    refine ⟨⟨hcounted'.1, fun a ha => ?_⟩, ?_, harrays.2⟩
    · have hmem : a ∈ arrays := by
        rw [heq, harrays.1] at ha
        exact ha
      rw [CallStage.undone_undoing, if_pos hmem]
      exact hcounted'.2 a ha
    · change fullPushes f s'.hist = 3
      omega

theorem deleted {a : FrameArray} {r : Unit} (h : (CallStage.undoing f (a :: left)).Holds s)
    (hc : jniCalls τ t (.deleteGlobalRef f a) s r s') : (CallStage.undoing f left).Holds s' := by
  obtain ⟨⟨_, he⟩, hh⟩ := hc
  obtain ⟨⟨hlt, hcount⟩, hfulls, hnodup⟩ := h f rfl
  have hs' : s.mem.deleteRef f a = s'.mem := congrArg Prod.snd (Option.some.inj he)
  have ha : a ∉ left := (List.nodup_cons.mp hnodup).1
  intro k hk
  cases hk
  refine ⟨⟨?_, fun b hb => ?_⟩, ?_, (List.nodup_cons.mp hnodup).2⟩
  · rw [← hs']
    exact hlt
  · rw [← hs'] at hb ⊢
    have hcount' := hcount b hb
    rw [CallStage.undone_undoing] at hcount'
    change (s.mem.deleteRef f a).deletions f b =
      s.mem.disposals f + (if b ∈ left then 0 else 1)
    rw [JniMemory.deletions_deleteRef, Function.update_self]
    by_cases hba : b = a
    · rw [hba, if_pos List.mem_cons_self] at hcount'
      rw [hba, Function.update_self, if_neg ha, hcount']
    · rw [Function.update_of_ne hba, hcount']
      simp [hba]
  · rw [hh]
    exact hfulls

end CallStage.Holds

/-- The stage that the thread comes to holds. -/
theorem Accounted.after (h : Accounted G s) (hg : jniOrder.allowed i (G t))
    (hc : jniCalls τ t i s r s') : (jniOrder.after i r (G t)).Holds s' := by
  have hstage := h.stages t
  cases i with
  | newFrameInfo arrays => exact h.made hg.2 hc
  | share f =>
      obtain ⟨arrays, hg⟩ := hg
      rw [hg] at hstage ⊢
      exact hstage.shared h.unshared hc
  | tryPush id f =>
      obtain ⟨arrays, n, hg⟩ := hg
      rw [hg] at hstage ⊢
      cases r with
      | true => exact hstage.pushed h.unshared hc
      | false => exact hstage.full h.unshared hc
  | deleteGlobalRef f a =>
      obtain ⟨left, hg⟩ := hg
      rw [hg] at hstage ⊢
      exact hstage.deleted hc
  | returned f b => exact nofun
  | _ => exact hstage.exec h.unshared hc (fun _ _ => nofun)

/-- A call that returns has pushed its frame, or deleted all its references. -/
theorem Accounted.justReturned [DecidableEq τ] (h : Accounted G s) {b : Bool}
    (hg : jniOrder.allowed (.returned f b) (G t)) (hc : jniCalls τ t (.returned f b) s () s') :
    s'.mem.Counted f (fun _ => if b then 0 else 1) ∧ (fullPushes f s'.hist < 3 ↔ b = true) ∧
      ∀ u, (Function.update G t (jniOrder.after (.returned f b) () (G t)) u).frame ≠ some f := by
  have hstage := h.stages t
  have hG : G t = if b then .queued f else .undoing f [] := hg
  have hframe : (G t).frame = some f := by
    rw [hG]
    cases b <;> rfl
  obtain ⟨⟨_, he⟩, hh⟩ := hc
  have hmem : s.mem = s'.mem := congrArg Prod.snd (Option.some.inj he)
  have hfull : fullPushes f s'.hist = fullPushes f s.hist := by
    rw [hh]
    rfl
  rw [hG] at hstage
  refine ⟨?_, ?_, fun u => ?_⟩
  · rw [← hmem]
    cases b with
    | true => exact (hstage f rfl).1
    | false => exact (hstage f rfl).1
  · rw [hfull]
    cases b with
    | true => exact iff_of_true (hstage f rfl).2.1 rfl
    | false =>
        have h3 : fullPushes f s.hist = 3 := (hstage f rfl).2.1
        rw [h3]
        decide
  · by_cases hu : u = t
    · rw [hu, Function.update_self]
      exact nofun
    · rw [Function.update_of_ne hu]
      exact fun hf => hu (h.unique u t f hf hframe)

/-- The frame of another thread's call, or of none, is left alone. -/
theorem about_ne (hg : jniOrder.allowed i g) (hc : jniCalls τ t i s r s')
    (hlt : f < s.mem.nextFrame) (hf : g.frame ≠ some f) : i.about r ≠ some f := by
  intro ha
  obtain ⟨⟨_, he⟩, _⟩ := hc
  rcases about_of_allowed hg he ha with ⟨rfl, -⟩ | ha
  · exact Nat.lt_irrefl _ hlt
  · exact hf ha

theorem Accounted.about_ne_of_other (h : Accounted G s) (hg : jniOrder.allowed i (G t))
    (hc : jniCalls τ t i s r s') (hu : u ≠ t) (hf : (G u).frame = some f) :
    i.about r ≠ some f :=
  about_ne hg hc (h.stages u f hf).1.1 (fun ht => hu (h.unique u t f hf ht))

theorem frame_after_ne (hg : jniOrder.allowed i g) (hi : i.about r ≠ some f)
    (hf : g.frame ≠ some f) : (jniOrder.after i r g).frame ≠ some f := by
  intro hk
  cases ha : i.about r with
  | none =>
      rw [after_of_about ha] at hk
      exact hf hk
  | some k =>
      have hkf := frame_after hg ha hk
      rw [hkf] at hi
      exact hi ha

/-- No two calls are about one frame, also after a step. -/
theorem Accounted.unique_after [DecidableEq τ] (h : Accounted G s)
    (hg : jniOrder.allowed i (G t)) (hc : jniCalls τ t i s r s') {v : τ}
    (hu : (Function.update G t (jniOrder.after i r (G t)) u).frame = some f)
    (hv : (Function.update G t (jniOrder.after i r (G t)) v).frame = some f) : u = v := by
  have hmoved {u : τ} (hu : u ≠ t) (hf : (G u).frame = some f) :
      (jniOrder.after i r (G t)).frame ≠ some f :=
    frame_after_ne hg (h.about_ne_of_other hg hc hu hf) (fun ht => hu (h.unique u t f hf ht))
  by_cases hut : u = t <;> by_cases hvt : v = t
  · rw [hut, hvt]
  · rw [hut, Function.update_self] at hu
    rw [Function.update_of_ne hvt] at hv
    exact (hmoved hvt hv hu).elim
  · rw [hvt, Function.update_self] at hv
    rw [Function.update_of_ne hut] at hu
    exact (hmoved hut hu hv).elim
  · rw [Function.update_of_ne hut] at hu
    rw [Function.update_of_ne hvt] at hv
    exact h.unique u v f hu hv

theorem Accounted.step [DecidableEq τ] (h : Accounted G s) (hg : jniOrder.allowed i (G t))
    (hc : jniCalls τ t i s r s') :
    Accounted (Function.update G t (jniOrder.after i r (G t))) s' := by
  have hafter := h.after hg hc
  obtain ⟨⟨_, he⟩, hh⟩ := id hc
  refine ⟨h.unshared.exec he, ?_, fun u v f hu hv => h.unique_after hg hc hu hv, ?_, ?_⟩
  · intro u
    by_cases hu : u = t
    · rw [hu, Function.update_self]
      exact hafter
    · rw [Function.update_of_ne hu]
      exact (h.stages u).exec h.unshared hc (fun f hf => h.about_ne_of_other hg hc hu hf)
  · intro u f b hb
    rw [hh] at hb
    rcases List.mem_cons.mp hb with heq | hb
    · cases heq
      exact h.justReturned hg hc
    · obtain ⟨hcounted, hfulls, hfree⟩ := h.returned u f b hb
      have hi : i.about r ≠ some f := about_ne hg hc hcounted.1 (hfree t)
      have hdelete (a : FrameArray) : i ≠ .deleteGlobalRef f a := by
        rintro rfl
        exact hi rfl
      refine ⟨(hcounted.exec h.unshared he hdelete).1, ?_, ?_⟩
      · rw [hh, fullPushes_cons _ hi]
        exact hfulls
      · intro v
        by_cases hv : v = t
        · rw [hv, Function.update_self]
          exact frame_after_ne hg hi (hfree t)
        · rw [Function.update_of_ne hv]
          exact hfree v
  · intro f hf
    have hlt : s.mem.nextFrame ≤ f := (JniMemory.nextFrame_le h.unshared he).trans hf
    obtain ⟨hunmade, hfulls⟩ := h.unmade f hlt
    have hi : i.about r ≠ some f := by
      intro ha
      rcases about_of_allowed hg he ha with ⟨rfl, hnext⟩ | ha
      · exact Nat.not_lt.mpr hf hnext
      · exact Nat.not_lt.mpr hlt (h.stages t f ha).1.1
    refine ⟨hunmade.exec h.unshared he hi, ?_⟩
    rw [hh, fullPushes_cons _ hi, hfulls]

end Calls

/-- At every moment of a run. -/
theorem accounted_of_reach [DecidableEq τ]
    {ok : τ → (i : JniOp) → JniShared τ → i.Ans → Prop}
    {tasks : τ → Prog JniTask JniTask.Ans Unit}
    {capacity : CameraId → ℕ} {queues : CameraId → List FrameRef} {made : FrameRef}
    {uses : FrameRef → ℕ} {seqnos : FrameRef → SeqNo} {givenUp : List (List FrameRef)}
    {c : Pool τ JniOp JniOp.Ans Unit (JniShared τ)}
    (hr : Pool.Reach ((jniCalls τ).restrict ok)
      (jniPool tasks (JniMemory.start capacity queues made uses seqnos givenUp)) c) :
    ∃ G, Accounted G c.state := by
  have hprog (t : τ) : jniOrder.Follows .idle ((tasks t).expand JniTask.program)
      (fun _ => .idle) := .expand follows_task (tasks t)
  have h₀ : Accounted (fun _ => .idle)
      (jniPool tasks (JniMemory.start capacity queues made uses seqnos givenUp)).state := by
    refine ⟨nofun, fun _ => nofun, nofun, nofun, fun f hf => ⟨⟨?_, rfl, fun _ => rfl⟩, rfl⟩⟩
    exact if_neg (Nat.not_lt.mpr hf)
  have hr' := (Pool.reach_restrict_true ((jniCalls τ).restrict ok)).mpr hr
  obtain ⟨G, hG, -⟩ := Pool.ghosts_of_reach (D := jniOrder) (J := Accounted)
    (fun _ _ _ _ _ _ hJ hi _ ha => hJ.step hi ha.1) hprog h₀ hr'
  exact ⟨G, hG⟩

/-- Where a frame finds room the third time, it is pushed in vain twice at most. -/
theorem fullPushes_le_two [DecidableEq τ] {threads : τ → JniCall Unit} {m : JniMemory}
    {c : Pool τ JniOp JniOp.Ans Unit (JniShared τ)}
    (hr : Pool.Reach ((jniCalls τ).restrict FindsRoom) ⟨threads, ⟨m, []⟩⟩ c) (f : FrameRef) :
    fullPushes f c.state.hist ≤ 2 := by
  induction hr with
  | refl => exact Nat.zero_le 2
  | @tail c₁ c₂ _ hstep ih =>
      cases hstep with
      | @call t i k r s' hc ha =>
          obtain ⟨⟨⟨_, he⟩, hh⟩, hok⟩ := ha
          change fullPushes f s'.hist ≤ 2
          rw [hh, fullPushes, List.countP_cons]
          change fullPushes f c₁.state.hist + _ ≤ 2
          split_ifs with hfull
          · cases i with
            | tryPush id g =>
                cases r with
                | true => cases hfull
                | false =>
                    have hg : g = f := of_decide_eq_true hfull
                    subst hg
                    have hne : fullPushes g c₁.state.hist ≠ 2 := by
                      intro h2
                      have hroom := hok h2
                      simp only [JniMemory.exec] at he
                      split_ifs at he
                      · cases he
                    omega
            | _ => cases hfull
          · omega

/-- The references of a finished call's frame are each deleted once if and only if the frame was
not pushed in vain three times, or has no references. -/
theorem deletions_iff [DecidableEq τ] {G : τ → CallStage} (h : Accounted G s) {b : Bool}
    (hb : ⟨t, .returned f b, ()⟩ ∈ s.hist) (hd : s.mem.destroyed f = true) :
    (∀ a ∈ s.mem.arrays f, s.mem.deletions f a = 1) ↔
      fullPushes f s.hist < 3 ∨ s.mem.arrays f = [] := by
  obtain ⟨⟨-, hcount⟩, hfulls, -⟩ := h.returned t f b hb
  rw [JniMemory.disposals, hd, if_pos rfl] at hcount
  rw [hfulls]
  constructor
  · intro hall
    cases b with
    | true => exact .inl rfl
    | false =>
        right
        by_contra hne
        obtain ⟨a, ha⟩ := List.exists_mem_of_ne_nil _ hne
        have h2 := hcount a ha
        rw [hall a ha] at h2
        cases h2
  · rintro (rfl | hnil) a ha
    · exact hcount a ha
    · rw [hnil] at ha
      cases ha

/-- As long as no frame that was pushed twice in vain meets a full queue again, every reference that
a call from Java makes is deleted once. -/
theorem references_deleted_once [DecidableEq τ] (tasks : τ → Prog JniTask JniTask.Ans Unit)
    (capacity : CameraId → ℕ) (queues : CameraId → List FrameRef) (made : FrameRef)
    (uses : FrameRef → ℕ) (seqnos : FrameRef → SeqNo) (givenUp : List (List FrameRef))
    {c : Pool τ JniOp JniOp.Ans Unit (JniShared τ)}
    (hr : Pool.Reach ((jniCalls τ).restrict FindsRoom)
      (jniPool tasks (JniMemory.start capacity queues made uses seqnos givenUp)) c) :
    DeletedOnce c.state := by
  obtain ⟨G, hG⟩ := accounted_of_reach hr
  intro t f b hb hd
  have htwice := fullPushes_le_two hr f
  exact (deletions_iff hG hb hd).mpr (.inl (by omega))

end Stages

/-- A camera thread enqueues one frame with its RGBA array; another thread takes it and is done
with it. -/
def enqueueAndTake : Bool → Prog JniTask JniTask.Ans Unit
  | true => do
    let _ ← Prog.perform (.enqueue 0 true false 0)
    pure ()
  | false => do
    let f ← Prog.perform (.dequeueBlocked 0)
    Prog.perform (JniTask.drop f)

/-- The queue has room for every push. -/
def hasRoom (_ : Bool) (i : JniOp) (s : JniShared Bool) (_ : i.Ans) : Bool :=
  match i with
  | .tryPush id _ => (s.mem.queues id).length < s.mem.capacity id
  | _ => true

theorem hasRoom_sound (t : Bool) (i : JniOp) (s : JniShared Bool) (r : i.Ans)
    (h : hasRoom t i s r = true) : FindsRoom t i s r := by
  cases i with
  | tryPush id f => exact fun _ => of_decide_eq_true h
  | _ => trivial

theorem references_deleted_once_taken : ∃ c : Pool Bool JniOp JniOp.Ans Unit (JniShared Bool),
    ⟨true, .returned 0 true, ()⟩ ∈ c.state.hist ∧ c.state.mem.destroyed 0 = true ∧
      DeletedOnce c.state := by
  have hrun : Pool.replay (fun _ _ => JniMemory.exec) hasRoom
      (List.replicate 5 (true, true) ++ List.replicate 2 (false, true))
      (jniPool enqueueAndTake
        (JniMemory.start (fun _ => 1) (fun _ => []) 0 (fun _ => 0) (fun _ => 0) [])) =
      some ⟨_, ⟨_, _⟩⟩ := rfl
  have hreach := Pool.reach_of_replay hasRoom_sound _ _ _ hrun
  refine ⟨_, ?_, ?_, references_deleted_once enqueueAndTake _ _ _ _ _ _ hreach⟩
  · exact .tail _ (.tail _ (.head _))
  · decide

/-- Two camera threads of one camera; the second enqueues three frames. -/
def enqueueAndCrowd : Bool → Prog JniTask JniTask.Ans Unit
  | true => do
    let _ ← Prog.perform (.enqueue 0 true false 0)
    pure ()
  | false => Prog.forEach (fun _ => do
      let _ ← Prog.perform (JniTask.enqueue 0 true false 0)
      pure ()) [1, 2, 3]

/-- Whenever the first thread has made room, the second takes it: the destructor deletes the
reference of frame 1, and so does the JNI function. -/
theorem references_deleted_twice : ∃ c : Pool Bool JniOp JniOp.Ans Unit (JniShared Bool),
    Pool.Reach (jniCalls Bool) (jniPool enqueueAndCrowd
      (JniMemory.start (fun _ => 1) (fun _ => []) 0 (fun _ => 0) (fun _ => 0) [])) c ∧
      c.state.mem.deletions 1 .rgba = 2 ∧ ¬ DeletedOnce c.state := by
  have hrun : Pool.replay (fun _ _ => JniMemory.exec) (fun _ _ _ _ => true)
      (List.replicate 5 (false, true) ++ List.replicate 7 (true, true) ++
        List.replicate 5 (false, true) ++ List.replicate 5 (true, true) ++
        List.replicate 5 (false, true) ++ List.replicate 4 (true, true))
      (jniPool enqueueAndCrowd
        (JniMemory.start (fun _ => 1) (fun _ => []) 0 (fun _ => 0) (fun _ => 0) [])) =
      some ⟨_, ⟨_, _⟩⟩ := rfl
  refine ⟨_, Pool.reach_of_replay_all _ _ _ hrun, by decide, fun h => ?_⟩
  have honce := h true 1 false (.head _) (by decide) .rgba (by decide)
  revert honce
  decide

end ARArch
