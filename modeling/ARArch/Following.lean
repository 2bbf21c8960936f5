import ARArch.FrameProtocol

/-!
# Routers and nodes follow the protocol

The contract of a scene guarantees that every step follows the protocol. The rules below prove of
a program that each of its steps does, and `Does P p Q` is their judgement: `p`, run by a party at
work where `P` holds, follows the protocol and ends where `Q` holds, whatever the others do.

An assertion that no step of anybody falsifies is lasting.
-/

namespace ARArch

open Atomic

/-- A condition on the steps of a run, in the state before the step. -/
abbrev Condition := Party → (i : Op) → Shared Party → i.Ans → Prop

/-- The contract of a scene, for the steps that meet a condition. -/
def Scene.contract (S : Scene) (ok : Condition) : Contract Party (Shared Party) where
  inv := S.Inv
  guar t s s' := ∃ i a, calls.restrict ok t i s a s' ∧ S.Follows s t i a

def Lasting (P : Shared Party → Prop) : Prop := ∀ t s s', Cleans t s s' → P s → P s'

namespace Lasting

variable {P Q : Shared Party → Prop}

theorem true : Lasting (fun _ => True) := fun _ _ _ _ h => h

theorem and (hP : Lasting P) (hQ : Lasting Q) : Lasting (fun s => P s ∧ Q s) :=
  fun t s s' hc h => ⟨hP t s s' hc h.1, hQ t s s' hc h.2⟩

theorem or (hP : Lasting P) (hQ : Lasting Q) : Lasting (fun s => P s ∨ Q s) :=
  fun t s s' hc h => h.imp (hP t s s' hc) (hQ t s s' hc)

theorem did (t : Party) (i : Op) (a : i.Ans) : Lasting (fun s => Did s t i a) :=
  fun _ _ _ hc h => hc.history _ h

theorem refused (t : Party) : Lasting (fun s => Refused s t) := by
  rintro t' s s' hc ⟨f, v, h⟩
  exact ⟨f, v, hc.history _ h⟩

theorem released (k : Key) (u : Consumer) : Lasting (fun s => Released s k u) := by
  rintro t s s' hc (⟨f, h⟩ | h)
  · exact Or.inl ⟨f, hc.history _ h⟩
  · exact Or.inr (hc.history _ h)

theorem mayDelete (t : Party) : Lasting (MayDelete t) := by
  cases t with
  | router i => exact true
  | consumer k u => exact released k u

theorem atWork (S : Scene) (t : Party) : Lasting (S.AtWork t) := by
  cases t with
  | router i => exact fun _ _ _ _ h => h
  | consumer k u => exact fun _ _ _ hc h => S.started_mono hc.accepted h

end Lasting

/-- The frame is not in the store, and will not be again. -/
def Gone (k : Key) (s : Shared Party) : Prop := s.mem.repo.frame k = none

theorem Lasting.gone (k : Key) : Lasting (Gone k) := by
  intro t s s' hc h
  by_contra hn
  obtain ⟨f, hf⟩ := Option.ne_none_iff_exists'.mp hn
  rw [Gone, hc.frames k f hf] at h
  cases h

section Rules

variable {S : Scene} {ok : Condition} {t : Party} {k : Key} {f : FrameRef} {c : CameraId}
  {n : SeqNo} {α β : Type}

theorem Lasting.stable {P : Shared Party → Prop} (hP : Lasting P) : (S.contract ok).Stable t P := by
  rintro u s s' _ _ ⟨i, a, hc, hf⟩ _ h
  exact hP u s s' (hf.cleans hc.1) h

theorem stable_locked : (S.contract ok).Stable t (Locked t c) := by
  rintro u s s' hu _ ⟨i, a, hc, hf⟩ _ h
  exact (hf.cleans hc.1).locks c t (Ne.symm hu) h

theorem stable_holding : (S.contract ok).Stable t (Holding t k f) := by
  rintro u s s' hu _ ⟨i, a, hc, hf⟩ _ h
  have hclean := hf.cleans hc.1
  refine ⟨hclean.locks k.1 t (Ne.symm hu) h.locked, ?_⟩
  rcases hclean.kept k f h.frame with hk | hl
  · exact hk
  · rw [Locked, h.locked] at hl
    exact (hu (Option.some.inj hl).symm).elim

/-- Program `p` of a party at work follows the protocol, from `P` to `Q`. -/
def Scene.Does (S : Scene) (ok : Condition) (t : Party) (P : Shared Party → Prop) (p : Call α)
    (Q : α → Shared Party → Prop) : Prop :=
  Triple (S.contract ok) (calls.restrict ok) t (fun s => S.AtWork t s ∧ P s) p
    (fun a s => S.AtWork t s ∧ Q a s)

namespace Scene.Does

variable {P P' : Shared Party → Prop} {Q Q' : α → Shared Party → Prop}

theorem pure {a : α} (h : ∀ s, S.Inv s → P s → Q a s) : S.Does ok t P (Pure.pure a) Q :=
  Triple.pure (fun s hi hp => ⟨hp.1, h s hi hp.2⟩)

theorem bind {p : Call α} {g : α → Call β} {M : α → Shared Party → Prop}
    {Q : β → Shared Party → Prop} (hp : S.Does ok t P p M)
    (hg : ∀ a, S.Does ok t (M a) (g a) Q) : S.Does ok t P (p >>= g) Q :=
  Triple.bind hp hg

theorem weaken {p : Call α} (h : S.Does ok t P' p Q') (hP : ∀ s, S.Inv s → P s → P' s)
    (hQ : ∀ a s, S.Inv s → Q' a s → Q a s) : S.Does ok t P p Q :=
  Triple.weaken h (fun s hi hp => ⟨hp.1, hP s hi hp.2⟩) (fun a s hi hq => ⟨hq.1, hQ a s hi hq.2⟩)

theorem pre {p : Call α} (h : S.Does ok t P' p Q) (hP : ∀ s, S.Inv s → P s → P' s) :
    S.Does ok t P p Q :=
  weaken h hP (fun _ _ _ hq => hq)

theorem of_fact {p : Call α} {φ : Prop} (h : φ → S.Does ok t P p Q) :
    S.Does ok t (fun s => φ ∧ P s) p Q :=
  (Triple.of_fact h).weaken (fun _ _ hp => ⟨hp.2.1, hp.1, hp.2.2⟩) (fun _ _ _ hq => hq)

/-- One step. -/
theorem step {i : Op} {g : i.Ans → Call α} (M : i.Ans → Shared Party → Prop)
    (hM : ∀ a, (S.contract ok).Stable t (M a))
    (h : ∀ s a s', S.Inv s → S.AtWork t s → P s → calls t i s a s' → ok t i s a →
      S.Follows s t i a ∧ M a s')
    (hg : ∀ a, S.Does ok t (M a) (g a) Q) : S.Does ok t P (Call.perform i >>= g) Q := by
  refine Triple.perform_bind (fun a s => S.AtWork t s ∧ M a s)
    (fun a => (Lasting.atWork S t).stable.and (hM a)) ?_ hg
  rintro s a s' hi ⟨ht, hp⟩ hc
  obtain ⟨hf, hm⟩ := h s a s' hi ht hp hc.1 hc.2
  exact ⟨hi.step hf hc.1, ⟨i, a, hc, hf⟩, Lasting.atWork S t t s s' (hf.cleans hc.1) ht, hm⟩

/-- A step that looks something up or drops it. -/
theorem look {i : Op} {g : i.Ans → Call α} (hi : i.looks = true)
    (M : i.Ans → Shared Party → Prop) (hM : ∀ a, (S.contract ok).Stable t (M a))
    (h : ∀ s a s', S.Inv s → P s → calls t i s a s' → Cleans t s s' → M a s')
    (hg : ∀ a, S.Does ok t (M a) (g a) Q) : S.Does ok t P (Call.perform i >>= g) Q :=
  step M hM (fun s a s' hinv ht hp hc _ =>
    have hf := Scene.Follows.look hi ht
    ⟨hf, h s a s' hinv hp hc (hf.cleans hc)⟩) hg

/-- A look that only keeps what lasts. -/
theorem pass {i : Op} {g : i.Ans → Call α} (hi : i.looks = true) (hP : Lasting P)
    (hg : ∀ a, S.Does ok t P (g a) Q) : S.Does ok t P (Call.perform i >>= g) Q :=
  look hi (fun _ => P) (fun _ => hP.stable) (fun s _ s' _ hp _ hclean => hP t s s' hclean hp) hg

theorem pass_last {i : Op} (hi : i.looks = true) (hP : Lasting P) :
    S.Does ok t P (Call.perform i) (fun _ => P) :=
  pass hi hP (fun _ => pure (fun _ _ h => h))

end Scene.Does

open Scene

/-! ### Deleting a frame -/

/-- The party has read these claims of the frame as cleared. -/
def AllRead (t : Party) (f : FrameRef) (vs : List Consumer) (s : Shared Party) : Prop :=
  ∀ v ∈ vs, Did s t (.load f v) false

theorem Lasting.allRead (vs : List Consumer) : Lasting (AllRead t f vs) :=
  fun _ _ _ hc h v hv => hc.history _ (h v hv)

/-- Reading one claim. -/
theorem does_load (hk : Concerns t k) {v : Consumer} {vs : List Consumer} {g : Bool → Call α}
    {Q : α → Shared Party → Prop}
    (htrue : S.Does ok t (fun s => Refused s t) (g true) Q)
    (hfalse : S.Does ok t (fun s => Holding t k f s ∧ MayDelete t s ∧ AllRead t f (v :: vs) s)
      (g false) Q) :
    S.Does ok t (fun s => Holding t k f s ∧ MayDelete t s ∧ AllRead t f vs s)
      (Call.perform (.load f v) >>= g) Q := by
  refine Does.step
    (fun b s => Holding t k f s ∧ MayDelete t s ∧ AllRead t f vs s ∧ Did s t (.load f v) b)
    (fun b => stable_holding.and ((Lasting.mayDelete t).stable.and
      ((Lasting.allRead vs).stable.and (Lasting.did t (.load f v) b).stable))) ?_ ?_
  · rintro s b s' hi ht ⟨hh, hm, hr⟩ hc _
    have hf : S.Follows s t (.load f v) b := .load ht hk hh hm
    have hclean := hf.cleans hc
    obtain ⟨b', he⟩ := hc.1
    have hmem := (Memory.exec_load he).2
    refine ⟨hf, ⟨?_, ?_⟩, Lasting.mayDelete t t s s' hclean hm, Lasting.allRead vs t s s' hclean hr,
      Did.of_calls hc⟩
    · rw [Locked, hmem]
      exact hh.locked
    · rw [hmem]
      exact hh.frame
  · intro b
    cases b with
    | true => exact htrue.pre (fun _ _ h => ⟨f, v, h.2.2.2⟩)
    | false =>
        exact hfalse.pre (fun _ _ h => ⟨h.1, h.2.1, List.forall_mem_cons.mpr ⟨h.2.2.2, h.2.2.1⟩⟩)

theorem does_loadUnclaimed (hk : Concerns t k) :
    S.Does ok t (fun s => Holding t k f s ∧ MayDelete t s) (Call.loadUnclaimed f)
      (fun b s => if b then Holding t k f s ∧ ∀ v, Did s t (.load f v) false
        else Refused s t) := by
  have hnil : ∀ s, S.Inv s → Holding t k f s ∧ MayDelete t s →
      Holding t k f s ∧ MayDelete t s ∧ AllRead t f [] s :=
    fun _ _ h => ⟨h.1, h.2, List.forall_mem_nil _⟩
  refine Does.pre (does_load hk (Does.pure (fun _ _ h => h)) ?_) hnil
  refine does_load hk (Does.pure (fun _ _ h => h)) ?_
  refine does_load hk (Does.pure (fun _ _ h => h)) (Does.pure ?_)
  rintro s _ ⟨hh, _, hr⟩
  refine ⟨hh, fun v => hr v ?_⟩
  cases v <;> simp

/-- What a deleter knows when it has looked the frame up. -/
def LookedUp (t : Party) (k : Key) (a : Option FrameRef) (s : Shared Party) : Prop :=
  match a with
  | none => Gone k s
  | some f => Holding t k f s ∧ MayDelete t s

theorem does_eraseIf (hk : Concerns t (c, n)) :
    S.Does ok t (fun s => Locked t c s ∧ (Gone (c, n) s ∨ MayDelete t s))
      (Call.eraseIf Call.loadUnclaimed c n) (fun _ s => Gone (c, n) s ∨ Refused s t) := by
  have hlast : Lasting (fun s => Gone (c, n) s ∨ Refused s t) := (Lasting.gone _).or (.refused t)
  refine Does.look rfl (LookedUp t (c, n)) ?_ ?_ ?_
  · intro a
    cases a with
    | none => exact (Lasting.gone _).stable
    | some f => exact stable_holding.and (Lasting.mayDelete t).stable
  · rintro s a s' _ ⟨hl, hm⟩ hc hclean
    obtain ⟨b, he⟩ := hc.1
    rcases Memory.exec_findFrame he with ⟨rfl, hf, hm'⟩ | ⟨f, rfl, hf, _, hm'⟩
    · change s'.mem.repo.frame (c, n) = none
      rw [hm']
      exact hf
    · refine ⟨⟨?_, ?_⟩, ?_⟩
      · rw [Locked, hm']
        exact hl
      · rw [hm']
        exact hf
      · rcases hm with hgone | hm
        · rw [Gone, hf] at hgone
          cases hgone
        · exact Lasting.mayDelete t t s s' hclean hm
  · intro a
    cases a with
    | none => exact Does.pure (fun _ _ h => Or.inl h)
    | some f =>
        refine Does.bind (does_loadUnclaimed hk) (fun b => ?_)
        cases b with
        | true =>
            refine Does.step (fun _ => Gone (c, n)) (fun _ => (Lasting.gone _).stable) ?_
              (fun _ => Does.pure (fun _ _ h => Or.inl h))
            rintro s ⟨⟩ s' _ ht ⟨hh, hr⟩ hc _
            refine ⟨.erase ht hh hr, ?_⟩
            obtain ⟨b, he⟩ := hc.1
            rw [Gone, (Memory.exec_eraseFrame he).1, Repository.frame_eraseFrame_self]
        | false =>
            refine Does.pre (Does.pass rfl hlast (fun _ => Does.pure (fun _ _ h => h))) ?_
            exact fun _ _ h => Or.inr h

/-- Without stereo pairs the second half of `delete_frame` only lets the camera go. -/
theorem does_deleteTwin {P : Shared Party → Prop} (hP : Lasting P) :
    S.Does ok t P (Call.deleteTwin c n) (fun _ => P) := by
  refine Does.look rfl (fun a s => a = none ∧ P s) (fun _ => .and (.const _) hP.stable) ?_ ?_
  · rintro s a s' hi hp hc hclean
    obtain ⟨b, he⟩ := hc.1
    refine ⟨?_, hP t s s' hclean hp⟩
    rw [(Memory.exec_stereoFind he).1, hi.single]
    rfl
  · intro a
    refine Does.of_fact (fun ha => ?_)
    subst ha
    exact Does.pass_last rfl hP

theorem locked_of_findCamera {b : Bool} {m m' : Memory Party}
    (h : Memory.exec b t (.findCamera c) m = some (true, m')) : m'.cameraLock c = some t := by
  rcases Memory.exec_findCamera h with ⟨hf, _⟩ | ⟨_, _, _, hm⟩
  · cases hf
  · subst hm
    exact Table.assign_self _ c t

theorem gone_of_findCamera {b : Bool} {m m' : Memory Party}
    (h : Memory.exec b t (.findCamera c) m = some (false, m')) (n : SeqNo) :
    m'.repo.frame (c, n) = none := by
  rcases Memory.exec_findCamera h with ⟨_, hnone, hm⟩ | ⟨hf, _⟩
  · rw [hm, Repository.frame, hnone]
    rfl
  · cases hf

/-- A party deletes a frame, or finds it gone or claimed. -/
theorem does_deleteFrame (hk : Concerns t (c, n)) :
    S.Does ok t (fun s => Gone (c, n) s ∨ MayDelete t s) (Call.deleteFrame c n)
      (fun _ s => Gone (c, n) s ∨ Refused s t) := by
  have hpre : Lasting (fun s => Gone (c, n) s ∨ MayDelete t s) :=
    (Lasting.gone _).or (.mayDelete t)
  have hpost : Lasting (fun s => Gone (c, n) s ∨ Refused s t) := (Lasting.gone _).or (.refused t)
  refine Does.look rfl
    (fun b s => if b then Locked t c s ∧ (Gone (c, n) s ∨ MayDelete t s) else Gone (c, n) s)
    ?_ ?_ ?_
  · intro b
    cases b with
    | true => exact stable_locked.and hpre.stable
    | false => exact (Lasting.gone _).stable
  · rintro s b s' _ hp hc hclean
    obtain ⟨b', he⟩ := hc.1
    cases b with
    | true => exact ⟨locked_of_findCamera he, hpre t s s' hclean hp⟩
    | false => exact gone_of_findCamera he n
  · intro b
    cases b with
    | true =>
        refine Does.bind (does_eraseIf hk) (fun isFound => ?_)
        cases isFound with
        | true => exact does_deleteTwin hpost
        | false => exact Does.pass_last rfl hpost
    | false => exact Does.pure (fun _ _ h => Or.inl h)

/-- Called while its own party holds the camera, `delete_frame` waits for ever, unless there is
no such camera. -/
theorem does_deleteFrame_locked (m n : SeqNo) :
    S.Does ok t (Locked t c) (Call.deleteFrame c m) (fun _ => Gone (c, n)) := by
  refine Does.look rfl (fun b s => b = false ∧ Gone (c, n) s)
    (fun _ => .and (.const _) (Lasting.gone _).stable) ?_ ?_
  · rintro s b s' _ hl hc _
    obtain ⟨b', he⟩ := hc.1
    rcases Memory.exec_findCamera he with ⟨rfl, _⟩ | ⟨_, _, hfree, _⟩
    · exact ⟨rfl, gone_of_findCamera he n⟩
    · rw [Locked, hfree] at hl
      cases hl
  · intro b
    refine Does.of_fact (fun hb => ?_)
    subst hb
    exact Does.pure (fun _ _ h => h)

/-! ### Looking a frame up -/

/-- What the answer of `get_frame` tells. -/
def Got (S : Scene) (t : Party) (k : Key) (a : Option FrameRef) (s : Shared Party) : Prop :=
  match a with
  | none => Gone k s
  | some f => S.stored k = some f ∧ Did s t (.findFrame k.1 k.2) (some f)

theorem Lasting.got (a : Option FrameRef) : Lasting (Got S t k a) := by
  cases a with
  | none => exact .gone k
  | some f => exact .and (fun _ _ _ _ h => h) (.did t (.findFrame k.1 k.2) (some f))

/-- The camera is held, and the frame was found there. -/
theorem does_getFound :
    S.Does ok t (fun s => Locked t c s ∧ Got S t (c, n) (some f) s)
      (do
        let rgbaLen ← Call.perform (.rgbaLen f)
        if 0 < rgbaLen then do
          Call.perform (.dropFrame c n)
          Call.perform (.dropCamera c)
          pure (some f)
        else do
          let seq ← Call.perform (.seqno f)
          Call.deleteFrame c seq
          Call.perform (.dropFrame c n)
          Call.perform (.dropCamera c)
          pure none) (Got S t (c, n)) := by
  refine Does.look rfl (fun _ s => Locked t c s ∧ Got S t (c, n) (some f) s)
    (fun _ => stable_locked.and (Lasting.got _).stable) ?_ (fun len => ?_)
  · rintro s len s' _ ⟨hl, hg⟩ hc hclean
    obtain ⟨b, he⟩ := hc.1
    refine ⟨?_, Lasting.got _ t s s' hclean hg⟩
    rw [Locked, (Memory.exec_rgbaLen he).2]
    exact hl
  · split_ifs with hlen
    · refine Does.pre (Does.pass rfl (Lasting.got (some f)) (fun _ => ?_)) (fun _ _ h => h.2)
      exact Does.pass rfl (Lasting.got (some f)) (fun _ => Does.pure (fun _ _ h => h))
    · refine Does.look rfl (fun _ => Locked t c) (fun _ => stable_locked) ?_ (fun seq => ?_)
      · rintro s seq s' _ ⟨hl, _⟩ hc _
        obtain ⟨b, he⟩ := hc.1
        rw [Locked, (Memory.exec_seqno he).2]
        exact hl
      · refine Does.bind (does_deleteFrame_locked seq n) (fun _ => ?_)
        refine Does.pass rfl (Lasting.gone (c, n)) (fun _ => ?_)
        exact Does.pass rfl (Lasting.gone (c, n)) (fun _ => Does.pure (fun _ _ h => h))

theorem does_getFrame :
    S.Does ok t (fun _ => True) (Call.getFrame c n) (Got S t (c, n)) := by
  refine Does.look rfl (fun b s => if b then Locked t c s else Gone (c, n) s) ?_ ?_ ?_
  · intro b
    cases b with
    | true => exact stable_locked
    | false => exact (Lasting.gone _).stable
  · rintro s b s' _ _ hc _
    obtain ⟨b', he⟩ := hc.1
    cases b with
    | true => exact locked_of_findCamera he
    | false => exact gone_of_findCamera he n
  · intro b
    cases b with
    | true =>
        refine Does.look rfl
          (fun a s => Got S t (c, n) a s ∧ (a ≠ none → Locked t c s)) ?_ ?_ ?_
        · exact fun a => (Lasting.got a).stable.and (.imp_const fun _ => stable_locked)
        · rintro s a s' hi hl hc _
          obtain ⟨b, he⟩ := hc.1
          rcases Memory.exec_findFrame he with ⟨rfl, hf, hm⟩ | ⟨f, rfl, hf, _, hm⟩
          · refine ⟨?_, fun h => (h rfl).elim⟩
            rw [Got, Gone, hm]
            exact hf
          · refine ⟨⟨hi.stored _ f hf, Did.of_calls hc⟩, fun _ => ?_⟩
            rw [Locked, hm]
            exact hl
        · intro a
          cases a with
          | none =>
              refine Does.pre (Does.pass rfl (Lasting.got none) (fun _ => ?_)) (fun _ _ h => h.1)
              exact Does.pure (fun _ _ h => h)
          | some f => exact Does.pre does_getFound (fun _ _ h => ⟨h.2 nofun, h.1⟩)
    | false => exact Does.pure (fun _ _ h => h)

/-! ### Consumers -/

variable {u : Consumer}

/-- A node clears its own claim on the frame it has found. -/
theorem does_release {g : Unit → Call α} {Q : α → Shared Party → Prop}
    (hg : ∀ a, S.Does ok (.consumer k u) (fun s => Released s k u) (g a) Q) :
    S.Does ok (.consumer k u) (Got S (.consumer k u) k (some f))
      (Call.perform (.store f u false) >>= g) Q := by
  refine Does.step (fun _ s => Released s k u) (fun _ => (Lasting.released k u).stable) ?_ hg
  rintro s ⟨⟩ s' _ ht ⟨hk, hd⟩ hc _
  exact ⟨.release ht hk hd, Or.inl ⟨f, Did.of_calls hc⟩⟩

theorem does_consume :
    S.Does ok (.consumer k u) (fun _ => True) (Call.consume u k.1 k.2)
      (fun _ s => Gone k s ∨ Refused s (.consumer k u)) := by
  refine Does.bind does_getFrame (fun a => ?_)
  cases a with
  | none => exact Does.pure (fun _ _ h => Or.inl h)
  | some f =>
      refine does_release (fun _ => ?_)
      exact Does.pre (does_deleteFrame rfl) (fun _ _ h => Or.inr h)

theorem does_render :
    S.Does ok (.consumer k .renderer) (fun _ => True) (Call.render k.1 k.2)
      (fun _ s => Gone k s ∨ Refused s (.consumer k .renderer)) := by
  refine Does.bind does_getFrame (fun a => ?_)
  cases a with
  | none =>
      refine Does.pass rfl (Lasting.gone k) (fun _ => ?_)
      exact Does.pre (does_deleteFrame rfl) (fun _ _ h => Or.inl h)
  | some f =>
      refine does_release (fun _ => ?_)
      refine Does.pass rfl (Lasting.released k .renderer) (fun _ => ?_)
      exact Does.pre (does_deleteFrame rfl) (fun _ _ h => Or.inr h)

theorem does_tbbRender (hr : S.routed) (hn : k.2 ≠ 0) :
    S.Does ok (.consumer k .renderer) (fun _ => True) (Call.tbbRender k.1 k.2)
      (fun _ s => Gone k s ∨ Refused s (.consumer k .renderer)) := by
  rw [Call.tbbRender, if_neg hn]
  refine Does.step (fun b s => b = false → Released s k .renderer)
    (fun b => .imp_const fun _ => (Lasting.released k .renderer).stable) ?_ ?_
  · rintro s b s' _ ht _ hc _
    refine ⟨.exchange hr ht, ?_⟩
    rintro rfl
    exact Or.inr (Did.of_calls hc)
  · intro b
    cases b with
    | true => exact Does.pre does_render (fun _ _ _ => trivial)
    | false => exact Does.pre (does_deleteFrame rfl) (fun _ _ h => Or.inr (h rfl))

/-- A node ends only where its frame is gone or claimed by somebody else. -/
theorem does_node (hr : S.routed) (hn : k.2 ≠ 0) :
    S.Does ok (.consumer k u) (fun _ => True) (Call.node u k.1 k.2)
      (fun _ s => Gone k s ∨ Refused s (.consumer k u)) := by
  cases u with
  | detector => exact does_consume
  | tracker => exact does_consume
  | renderer => exact does_tbbRender hr hn

theorem does_holder :
    S.Does ok (.consumer k u) (fun _ => True) (Call.holder u k.1 k.2)
      (fun _ s => Gone k s ∨ Refused s (.consumer k u)) := by
  cases u with
  | detector => exact does_consume
  | tracker => exact does_consume
  | renderer => exact does_render

/-! ### Routers -/

variable {i : ℕ}

/-- A port is offered the frame, and the claim is set if it accepts. -/
theorem does_tryPut {port : ℕ} (hr : S.routed) (hk : S.stored (c, n) = some f) (hn : n ≠ 0)
    {g : Bool → Call α} {Q : α → Shared Party → Prop}
    (hg : ∀ b, S.Does ok (.router i)
      (fun s => b = true → ((c, n), u) ∈ s.mem.accepted) (g b) Q) :
    S.Does ok (.router i) (fun _ => True) (Call.perform (.tryPut port c n u) >>= g) Q := by
  have hlast : Lasting (fun s => ((c, n), u) ∈ s.mem.accepted) :=
    fun _ _ _ hc h => hc.accepted _ h
  refine Does.step (fun b s => b = true → ((c, n), u) ∈ s.mem.accepted)
    (fun b => .imp_const fun _ => hlast.stable) ?_ hg
  rintro s b s' _ _ _ hc _
  refine ⟨.offer hr (by rw [hk]; rfl) hn, ?_⟩
  rintro rfl
  obtain ⟨b, he⟩ := hc.1
  rcases Memory.exec_tryPut he with ⟨hf, _⟩ | ⟨_, hm⟩
  · cases hf
  · rw [hm]
    exact List.mem_cons_self

theorem does_claim (hr : S.routed) (hk : S.stored k = some f) {g : Unit → Call α}
    {Q : α → Shared Party → Prop} (hg : ∀ a, S.Does ok (.router i) (fun _ => True) (g a) Q) :
    S.Does ok (.router i) (fun s => (k, u) ∈ s.mem.accepted)
      (Call.perform (.store f u true) >>= g) Q := by
  refine Does.step (fun _ _ => True) (fun _ => .const _) ?_ hg
  rintro s ⟨⟩ s' _ _ ha _ _
  exact ⟨.claim hr hk ha, trivial⟩

theorem does_offer {isThere : Bool} {port : ℕ} (hr : S.routed) (hk : S.stored (c, n) = some f)
    (hn : n ≠ 0) :
    S.Does ok (.router i) (fun _ => True) (Call.offer isThere port c n f u)
      (fun _ _ => True) := by
  rw [Call.offer]
  split_ifs with hthere
  · refine Does.pass rfl .true (fun busy => ?_)
    cases busy with
    | true => exact Does.pure (fun _ _ _ => trivial)
    | false =>
        refine does_tryPut hr hk hn (fun b => ?_)
        cases b with
        | true =>
            refine Does.pre (does_claim hr hk (fun _ => ?_)) (fun _ _ h => h rfl)
            exact Does.pure (fun _ _ _ => trivial)
        | false => exact Does.pure (fun _ _ _ => trivial)
  · exact Does.pure (fun _ _ _ => trivial)

theorem does_router_deleteFrame :
    S.Does ok (.router i) (fun _ => True) (Call.deleteFrame c n) (fun _ _ => True) :=
  Does.weaken (does_deleteFrame (t := .router i) trivial) (fun _ _ _ => Or.inr trivial)
    (fun _ _ _ _ => trivial)

theorem does_renderOrDelete {isThere isDelete : Bool} {port : ℕ} (hr : S.routed)
    (hk : S.stored (c, n) = some f) (hn : n ≠ 0) :
    S.Does ok (.router i) (fun _ => True) (Call.renderOrDelete isThere isDelete port c n f)
      (fun _ _ => True) := by
  rw [Call.renderOrDelete]
  split_ifs with hthere hdelete
  · refine does_tryPut hr hk hn (fun b => ?_)
    cases b with
    | true =>
        refine Does.pre (does_claim hr hk (fun _ => ?_)) (fun _ _ h => h rfl)
        exact Does.pure (fun _ _ _ => trivial)
    | false => exact does_router_deleteFrame.pre (fun _ _ _ => trivial)
  · exact does_router_deleteFrame
  · exact Does.pure (fun _ _ _ => trivial)

theorem does_routeFrom {port : ℕ} {params : TBBRouterParameters} (hr : S.routed)
    (hk : S.stored (c, n) = some f) (hn : n ≠ 0) :
    S.Does ok (.router i) (fun _ => True) (Call.routeFrom port params c n f)
      (fun _ _ => True) := by
  refine Does.bind (does_offer hr hk hn) (fun isDetectRoute => ?_)
  refine Does.bind (does_offer hr hk hn) (fun isTrackRoute => ?_)
  exact does_renderOrDelete hr hk hn

theorem does_routeFrame {params : TBBRouterParameters} (hr : S.routed)
    (hk : S.stored (c, n) = some f) (hn : n ≠ 0) :
    S.Does ok (.router i) (fun _ => True) (Call.routeFrame params c n f) (fun _ _ => True) := by
  unfold Call.routeFrame
  split
  · exact does_routeFrom hr hk hn
  · exact does_routeFrom hr hk hn
  · exact does_routeFrom hr hk hn
  · exact does_routeFrom hr hk hn
  · exact Does.pure (fun _ _ _ => trivial)

theorem does_routeKey {map : CameraId → Option TBBRouterParameters} (hr : S.routed) :
    S.Does ok (.router i) (fun _ => True) (Call.routeKey map c n) (fun _ _ => True) := by
  rw [Call.routeKey]
  split_ifs with hn
  · exact Does.pure (fun _ _ _ => trivial)
  · refine Does.bind does_getFrame (fun a => ?_)
    cases a with
    | none => exact Does.pure (fun _ _ _ => trivial)
    | some f =>
        cases map c with
        | none => exact Does.pure (fun _ _ _ => trivial)
        | some params =>
            refine Does.pre (Does.of_fact (fun hk => does_routeFrame hr hk hn)) ?_
            exact fun _ _ h => ⟨h.1, trivial⟩

theorem does_routeKeys {map : CameraId → Option TBBRouterParameters} (hr : S.routed)
    (keys : List Key) :
    S.Does ok (.router i) (fun _ => True) (Call.routeKeys map keys) (fun _ _ => True) := by
  induction keys with
  | nil => exact Does.pure (fun _ _ _ => trivial)
  | cons k keys ih =>
      obtain ⟨c, n⟩ := k
      rw [Call.routeKeys]
      split_ifs with hc
      · exact Does.pure (fun _ _ _ => trivial)
      · exact Does.bind (does_routeKey hr) (fun _ => ih)

theorem does_routeCameras {map : CameraId → Option TBBRouterParameters} (hr : S.routed)
    (ds : List CameraFrameData) :
    S.Does ok (.router i) (fun _ => True) (Call.routeCameras map ds) (fun _ _ => True) := by
  induction ds with
  | nil => exact Does.pure (fun _ _ _ => trivial)
  | cons d ds ih =>
      rw [Call.routeCameras]
      split_ifs with hc
      · exact Does.pure (fun _ _ _ => trivial)
      · exact Does.bind (does_routeKeys hr _) (fun _ => ih)

theorem does_router {map : CameraId → Option TBBRouterParameters} (hr : S.routed)
    (m : CameraFrame) :
    S.Does ok (.router i) (fun _ => True) (Call.router map m) (fun _ _ => True) := by
  rw [Call.router]
  split_ifs with hm
  · exact Does.pure (fun _ _ _ => trivial)
  · exact does_routeCameras hr _

end Rules

/-! ### Runs -/

variable {T : Traffic} {r : Repository} {ok : Condition} {k : Key} {u : Consumer}
  {p : Pool Party Op Op.Ans Unit (Shared Party)} {I : Shared Party → Prop}

/-- What is known when a party has finished. -/
def Finished : Party → Unit → Shared Party → Prop
  | .router _, _, _ => True
  | .consumer k u, _, s => Gone k s ∨ Refused s (.consumer k u)

theorem Traffic.follows (T : Traffic) (r : Repository) (ok : Condition) (t : Party) :
    Triple ((Scene.ofTraffic r).contract ok) (calls.restrict ok) t (fun _ => True) (T.program t)
      (Finished t) := by
  cases t with
  | router i =>
      have hrouter : (Scene.ofTraffic r).Does ok (.router i) (fun _ => True)
          (Call.router T.map (T.message i)) (Finished (.router i)) :=
        does_router trivial (T.message i)
      exact Triple.weaken hrouter (fun _ _ _ => ⟨trivial, trivial⟩) (fun _ _ _ _ => trivial)
  | consumer k u =>
      refine Triple.perform_bind
        (fun _ s => k.2 ≠ 0 ∧ (Scene.ofTraffic r).AtWork (.consumer k u) s)
        (fun _ => .and (.const _) (Lasting.atWork _ _).stable) ?_ (fun _ => ?_)
      · rintro s ⟨⟩ s' hi _ hc
        have hf : (Scene.ofTraffic r).Follows s (.consumer k u) (.begin k.1 k.2 u) () := .begin
        obtain ⟨b, he⟩ := hc.1.1
        obtain ⟨hmem, hm⟩ := Memory.exec_begin he
        refine ⟨hi.step hf hc.1, ⟨_, _, hc, hf⟩, hi.numbered _ hmem, ?_⟩
        exact (hf.cleans hc.1).accepted _ hmem
      · refine Triple.of_fact (fun hn => ?_)
        have hnode : (Scene.ofTraffic r).Does ok (.consumer k u) (fun _ => True)
          (Call.node u k.1 k.2) (Finished (.consumer k u)) := does_node trivial hn
        exact Triple.weaken hnode (fun _ _ h => ⟨h, trivial⟩) (fun _ _ _ h => h.2)

theorem Scene.Inv.ofTraffic (hr : r.stereoFrames = Table.empty) :
    (Scene.ofTraffic r).Inv ⟨{ repo := r }, []⟩ :=
  ⟨fun _ _ h => h, hr, fun _ h => (List.not_mem_nil h).elim⟩

/-- Whatever the steps that follow the protocol preserve holds in every run. -/
theorem Traffic.invariant (hr : r.stereoFrames = Table.empty) (hI : I ⟨{ repo := r }, []⟩)
    (hstep : ∀ t i a s s', (Scene.ofTraffic r).Inv s → (Scene.ofTraffic r).Follows s t i a →
      calls t i s a s' → ok t i s a → I s → I s')
    (hp : Pool.Reach (calls.restrict ok) (T.pool r) p) : I p.state := by
  refine Contract.sound_guar (fun _ => .const _) (T.follows r ok) (Scene.Inv.ofTraffic hr)
    (fun _ => trivial) hI ?_ hp
  rintro t s s' hi ⟨i, a, hc, hf⟩
  exact hstep t i a s s' hi hf hc.1 hc.2

/-- A node that has finished has seen its frame gone or claimed. -/
theorem Traffic.finished (hr : r.stereoFrames = Table.empty)
    (hp : Pool.Reach (calls.restrict ok) (T.pool r) p)
    (ht : p.threads (.consumer k u) = .pure ()) :
    Gone k p.state ∨ Refused p.state (.consumer k u) :=
  Contract.sound_post (fun _ => .const _) (T.follows r ok) (Scene.Inv.ofTraffic hr)
    (fun _ => trivial) hp ht

/-- The holders of the frames in a repository, each letting its frame go. -/
def holders (r : Repository) (holds : Key → Consumer → Bool) :
    Pool Party Op Op.Ans Unit (Shared Party) :=
  ⟨fun
    | .router _ => .pure ()
    | .consumer k u => if holds k u then Call.holder u k.1 k.2 else .pure (),
    ⟨{ repo := r }, []⟩⟩

variable {holds : Key → Consumer → Bool}

theorem Scene.Inv.ofHolders (hr : r.stereoFrames = Table.empty) :
    (Scene.ofHolders r holds).Inv ⟨{ repo := r }, []⟩ :=
  ⟨fun _ _ h => h, hr, fun _ h => (List.not_mem_nil h).elim⟩

theorem holders_follow (r : Repository) (holds : Key → Consumer → Bool) (ok : Condition)
    (t : Party) :
    Triple ((Scene.ofHolders r holds).contract ok) (calls.restrict ok) t (fun _ => True)
      ((holders r holds).threads t)
      (fun _ s => ∀ k u, t = .consumer k u → holds k u = true → Gone k s ∨ Refused s t) := by
  cases t with
  | router i => exact Triple.pure (fun _ _ _ => nofun)
  | consumer k u =>
      simp only [holders]
      split_ifs with hk
      · have hholder : (Scene.ofHolders r holds).Does ok (.consumer k u) (fun _ => True)
          (Call.holder u k.1 k.2) (fun _ s => Gone k s ∨ Refused s (.consumer k u)) :=
          does_holder
        refine Triple.weaken hholder (fun _ _ _ => ⟨hk, trivial⟩) ?_
        rintro ⟨⟩ s _ h _ _ ⟨⟩ _
        exact h.2
      · refine Triple.pure ?_
        rintro s _ _ _ _ ⟨⟩ hk'
        exact (hk hk').elim

theorem holders_invariant (hr : r.stereoFrames = Table.empty) (hI : I ⟨{ repo := r }, []⟩)
    (hstep : ∀ t i a s s', (Scene.ofHolders r holds).Inv s →
      (Scene.ofHolders r holds).Follows s t i a → calls t i s a s' → I s → I s')
    (hp : Pool.Reach calls (holders r holds) p) : I p.state := by
  have hp' := (Pool.reach_restrict_true calls).mpr hp
  refine Contract.sound_guar (fun _ => .const _) (holders_follow r holds _)
    (Scene.Inv.ofHolders hr) (fun _ => trivial) hI ?_ hp'
  rintro t s s' hi ⟨i, a, hc, hf⟩
  exact hstep t i a s s' hi hf hc.1

/-- A holder that has finished has seen its frame gone or claimed. -/
theorem holders_finished (hr : r.stereoFrames = Table.empty)
    (hp : Pool.Reach calls (holders r holds) p) (hk : holds k u = true)
    (ht : p.threads (.consumer k u) = .pure ()) :
    Gone k p.state ∨ Refused p.state (.consumer k u) := by
  have hp' := (Pool.reach_restrict_true calls).mpr hp
  exact Contract.sound_post (fun _ => .const _) (holders_follow r holds _)
    (Scene.Inv.ofHolders hr) (fun _ => trivial) hp' ht k u rfl hk

end ARArch
