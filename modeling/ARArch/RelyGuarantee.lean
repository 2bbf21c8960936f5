import ARArch.ThreadPool

/-!
# Rely and guarantee

A contract fixes an invariant of the shared state and, for every thread, what its calls may do to
the state. A thread may rely on the guarantees of all others: an assertion of thread `t` is
stable if no call allowed to another thread falsifies it.

`Triple C act t P p Q` says that program `p` of thread `t`, started where `P` holds, keeps the
invariant and its guarantee with every call, and ends only where `Q` holds, whatever the other
threads do in between. `Contract.sound` is the parallel rule: if every thread meets its triple,
then in every pool reached the invariant holds and every finished thread has its postcondition.
-/

namespace Atomic

variable {τ ι : Type} {ρ : ι → Type} {α β σ : Type}

structure Contract (τ σ : Type) where
  inv : σ → Prop
  guar : τ → σ → σ → Prop

def Contract.Stable (C : Contract τ σ) (t : τ) (P : σ → Prop) : Prop :=
  ∀ u s s', u ≠ t → C.inv s → C.guar u s s' → C.inv s' → P s → P s'

namespace Contract.Stable

variable {C : Contract τ σ} {t : τ} {P Q : σ → Prop}

theorem const (p : Prop) : C.Stable t (fun _ => p) := fun _ _ _ _ _ _ _ hp => hp

theorem and (hP : C.Stable t P) (hQ : C.Stable t Q) : C.Stable t (fun s => P s ∧ Q s) :=
  fun u s s' hu hi hg hi' h => ⟨hP u s s' hu hi hg hi' h.1, hQ u s s' hu hi hg hi' h.2⟩

theorem imp_const {p : Prop} (hQ : p → C.Stable t Q) : C.Stable t (fun s => p → Q s) :=
  fun u s s' hu hi hg hi' h hp => hQ hp u s s' hu hi hg hi' (h hp)

theorem exists' {X : Sort*} {P : X → σ → Prop} (h : ∀ x, C.Stable t (P x)) :
    C.Stable t (fun s => ∃ x, P x s) :=
  fun u s s' hu hi hg hi' hp => hp.imp (fun x hx => h x u s s' hu hi hg hi' hx)

end Contract.Stable

def Triple (C : Contract τ σ) (act : Action τ ι ρ σ) (t : τ) :
    (σ → Prop) → Prog ι ρ α → (α → σ → Prop) → Prop
  | P, .pure a, Q => ∀ s, C.inv s → P s → Q a s
  | P, .call i k, Q => ∃ M : ρ i → σ → Prop, (∀ r, C.Stable t (M r)) ∧
      (∀ s r s', C.inv s → P s → act t i s r s' → C.inv s' ∧ C.guar t s s' ∧ M r s') ∧
      ∀ r, Triple C act t (M r) (k r) Q

namespace Triple

variable {C : Contract τ σ} {act : Action τ ι ρ σ} {t : τ} {P : σ → Prop}

theorem pure {a : α} {Q : α → σ → Prop} (h : ∀ s, C.inv s → P s → Q a s) :
    Triple C act t P (Pure.pure a : Prog ι ρ α) Q := h

/-- One call: the assertion after it must be stable and hold for every answer. -/
theorem perform_bind {i : ι} {f : ρ i → Prog ι ρ α} {Q : α → σ → Prop} (M : ρ i → σ → Prop)
    (hM : ∀ r, C.Stable t (M r))
    (hcall : ∀ s r s', C.inv s → P s → act t i s r s' → C.inv s' ∧ C.guar t s s' ∧ M r s')
    (hf : ∀ r, Triple C act t (M r) (f r) Q) :
    Triple C act t P (Prog.perform i >>= f) Q :=
  ⟨M, hM, hcall, hf⟩

theorem perform {i : ι} {Q : ρ i → σ → Prop} (hQ : ∀ r, C.Stable t (Q r))
    (hcall : ∀ s r s', C.inv s → P s → act t i s r s' → C.inv s' ∧ C.guar t s s' ∧ Q r s') :
    Triple C act t P (Prog.perform i : Prog ι ρ (ρ i)) Q :=
  ⟨Q, hQ, hcall, fun _ _ _ h => h⟩

/-- An embedded program keeps what each of its operations keeps. -/
theorem embed {κ : Type} {ρ' : κ → Type} {inj : κ → ι} {out : (i : κ) → ρ (inj i) → ρ' i}
    (hP : C.Stable t P)
    (hcall : ∀ i s r s', C.inv s → P s → act t (inj i) s r s' →
      C.inv s' ∧ C.guar t s s' ∧ P s')
    (p : Prog κ ρ' α) : Triple C act t P (p.embed inj out) (fun _ => P) := by
  induction p with
  | pure a => exact fun _ _ h => h
  | call i k ih => exact ⟨fun _ => P, fun _ => hP, hcall i, fun r => ih (out i r)⟩

/-- An embedded program whose marked calls are taken from a list, with an assertion for what is
left of the list. -/
theorem embed_within {κ ν : Type} {ρ' : κ → Type} {inj : κ → ι} {out : (i : κ) → ρ (inj i) → ρ' i}
    {mark : κ → Option ν} {R : List ν → σ → Prop} (hR : ∀ L, C.Stable t (R L))
    (hsuffix : ∀ {L L'} s, L' <:+ L → R L s → R L' s)
    (hcall : ∀ L i s r s', mark i = none → C.inv s → R L s → act t (inj i) s r s' →
      C.inv s' ∧ C.guar t s s' ∧ R L s')
    (hmarked : ∀ x L i s r s', mark i = some x → C.inv s → R (x :: L) s →
      act t (inj i) s r s' → C.inv s' ∧ C.guar t s s' ∧ R L s')
    {p : Prog κ ρ' α} {L : List ν} (hp : p.Within mark L) :
    Triple C act t (R L) (p.embed inj out) (fun _ => R []) := by
  induction p generalizing L with
  | pure a => exact fun s _ hs => hsuffix s L.nil_suffix hs
  | call i k ih =>
      obtain ⟨hi, hk⟩ | ⟨x, M, hi, hM, hk⟩ := hp
      · exact ⟨fun _ => R L, fun _ => hR L, fun s r s' => hcall L i s r s' hi,
          fun r => ih (out i r) (hk _)⟩
      · exact ⟨fun _ => R M, fun _ => hR M,
          fun s r s' hs h => hmarked x M i s r s' hi hs (hsuffix s hM h),
          fun r => ih (out i r) (hk _)⟩

/-- A program without marked calls keeps what each of the other calls keeps. -/
theorem unmarked {ν : Type} {mark : ι → Option ν} (hP : C.Stable t P)
    (hcall : ∀ i s r s', mark i = none → C.inv s → P s → act t i s r s' →
      C.inv s' ∧ C.guar t s s' ∧ P s')
    {p : Prog ι ρ α} (hp : p.Within mark []) : Triple C act t P p (fun _ => P) := by
  induction p with
  | pure a => exact fun _ _ h => h
  | call i k ih =>
      obtain ⟨hi, hk⟩ | ⟨x, M, hi, hM, hk⟩ := hp
      · exact ⟨fun _ => P, fun _ => hP, fun s r s' => hcall i s r s' hi, fun r => ih r (hk r)⟩
      · cases List.suffix_nil.mp hM

/-- An embedded program without marked calls keeps what each of the other calls keeps. -/
theorem embed_unmarked {κ ν : Type} {ρ' : κ → Type} {inj : κ → ι}
    {out : (i : κ) → ρ (inj i) → ρ' i} {mark : κ → Option ν} (hP : C.Stable t P)
    (hcall : ∀ i s r s', mark i = none → C.inv s → P s → act t (inj i) s r s' →
      C.inv s' ∧ C.guar t s s' ∧ P s')
    {p : Prog κ ρ' α} (hp : p.Within mark []) :
    Triple C act t P (p.embed inj out) (fun _ => P) := by
  induction p with
  | pure a => exact fun _ _ h => h
  | call i k ih =>
      obtain ⟨hi, hk⟩ | ⟨x, M, hi, hM, hk⟩ := hp
      · exact ⟨fun _ => P, fun _ => hP, fun s r s' => hcall i s r s' hi,
          fun r => ih (out i r) (hk _)⟩
      · cases List.suffix_nil.mp hM

theorem weaken {R : σ → Prop} {p : Prog ι ρ α} {Q Q' : α → σ → Prop} (h : Triple C act t R p Q')
    (hP : ∀ s, C.inv s → P s → R s) (hQ : ∀ a s, C.inv s → Q' a s → Q a s) :
    Triple C act t P p Q := by
  induction p generalizing P R with
  | pure a => exact fun s hi hp => hQ a s hi (h s hi (hP s hi hp))
  | call i k ih =>
      obtain ⟨M, hM, hcall, hk⟩ := h
      exact ⟨M, hM, fun s r s' hi hp => hcall s r s' hi (hP s hi hp),
        fun r => ih r (hk r) (fun _ _ hm => hm)⟩

theorem bind {p : Prog ι ρ α} {f : α → Prog ι ρ β} {M : α → σ → Prop} {Q : β → σ → Prop}
    (hp : Triple C act t P p M) (hf : ∀ a, Triple C act t (M a) (f a) Q) :
    Triple C act t P (p >>= f) Q := by
  induction p generalizing P with
  | pure a => exact (hf a).weaken hp (fun _ _ _ h => h)
  | call i k ih =>
      obtain ⟨N, hN, hcall, hk⟩ := hp
      exact ⟨N, hN, hcall, fun r => ih r (hk r)⟩

/-- A loop whose body keeps an assertion. -/
theorem forEach {f : β → Prog ι ρ Unit} {bs : List β}
    (h : ∀ b ∈ bs, Triple C act t P (f b) (fun _ => P)) :
    Triple C act t P (Prog.forEach f bs) (fun _ => P) := by
  induction bs with
  | nil => exact pure (fun _ _ hp => hp)
  | cons b bs ih =>
      exact (h b List.mem_cons_self).bind
        (fun _ => ih (fun b hb => h b (List.mem_cons_of_mem _ hb)))

theorem exists_elim {X : Sort*} {P : X → σ → Prop} {p : Prog ι ρ α} {Q : α → σ → Prop}
    (h : ∀ x, Triple C act t (P x) p Q) : Triple C act t (fun s => ∃ x, P x s) p Q := by
  induction p generalizing P with
  | pure a =>
      rintro s hi ⟨x, hx⟩
      exact h x s hi hx
  | call i k ih =>
      choose M hM hcall hk using h
      refine ⟨fun r s => ∃ x, M x r s, fun r => .exists' (fun x => hM x r), ?_, ?_⟩
      · rintro s r s' hi ⟨x, hx⟩ ha
        obtain ⟨hi', hg, hm⟩ := hcall x s r s' hi hx ha
        exact ⟨hi', hg, x, hm⟩
      · exact fun r => ih r (fun x => hk x r)

/-- A fact that does not depend on the state may be used outside the triple. -/
theorem of_fact {p : Prog ι ρ α} {φ : Prop} {Q : α → σ → Prop}
    (h : φ → Triple C act t P p Q) : Triple C act t (fun s => φ ∧ P s) p Q :=
  (exists_elim (X := PLift φ) (P := fun _ => P) (fun x => h x.down)).weaken
    (fun _ _ hp => ⟨⟨hp.1⟩, hp.2⟩) (fun _ _ _ hq => hq)

/-- An assertion that no state meets. -/
theorem of_false {p : Prog ι ρ α} {Q : α → σ → Prop} (h : ∀ s, C.inv s → ¬ P s) :
    Triple C act t P p Q :=
  (of_fact (φ := False) (P := P) False.elim).weaken (fun s hi hp => (h s hi hp).elim)
    (fun _ _ _ hq => hq)

end Triple

variable [DecidableEq τ]

/-- The parallel rule. -/
theorem Contract.sound {C : Contract τ σ} {act : Action τ ι ρ σ} {prog : τ → Prog ι ρ α}
    {pre : τ → σ → Prop} {post : τ → α → σ → Prop} (hpre : ∀ t, C.Stable t (pre t))
    (htriple : ∀ t, Triple C act t (pre t) (prog t) (post t)) {s : σ} (hi : C.inv s)
    (hs : ∀ t, pre t s) {c : Pool τ ι ρ α σ} (hr : Pool.Reach act ⟨prog, s⟩ c) :
    C.inv c.state ∧ ∀ t, ∃ P, C.Stable t P ∧ P c.state ∧
      Triple C act t P (c.threads t) (post t) := by
  induction hr with
  | refl => exact ⟨hi, fun t => ⟨pre t, hpre t, hs t, htriple t⟩⟩
  | tail _ hstep ih =>
      cases hstep with
      | @call t i k r s' hc ha =>
          obtain ⟨hinv, hthreads⟩ := ih
          obtain ⟨P, hP, hPs, htr⟩ := hthreads t
          rw [hc] at htr
          obtain ⟨M, hM, hcall, hk⟩ := htr
          obtain ⟨hinv', hguar, hm⟩ := hcall _ r s' hinv hPs ha
          refine ⟨hinv', fun u => ?_⟩
          by_cases hu : u = t
          · subst hu
            exact ⟨M r, hM r, hm, by simpa using hk r⟩
          · obtain ⟨R, hR, hRs, hur⟩ := hthreads u
            exact ⟨R, hR, hR t _ _ (Ne.symm hu) hinv hguar hinv' hRs,
              by simpa [Function.update_of_ne hu] using hur⟩

theorem Contract.sound_inv {C : Contract τ σ} {act : Action τ ι ρ σ} {prog : τ → Prog ι ρ α}
    {pre : τ → σ → Prop} {post : τ → α → σ → Prop} (hpre : ∀ t, C.Stable t (pre t))
    (htriple : ∀ t, Triple C act t (pre t) (prog t) (post t)) {s : σ} (hi : C.inv s)
    (hs : ∀ t, pre t s) {c : Pool τ ι ρ α σ} (hr : Pool.Reach act ⟨prog, s⟩ c) :
    C.inv c.state :=
  (Contract.sound hpre htriple hi hs hr).1

theorem Contract.sound_post {C : Contract τ σ} {act : Action τ ι ρ σ} {prog : τ → Prog ι ρ α}
    {pre : τ → σ → Prop} {post : τ → α → σ → Prop} (hpre : ∀ t, C.Stable t (pre t))
    (htriple : ∀ t, Triple C act t (pre t) (prog t) (post t)) {s : σ} (hi : C.inv s)
    (hs : ∀ t, pre t s) {c : Pool τ ι ρ α σ} (hr : Pool.Reach act ⟨prog, s⟩ c) {t : τ} {a : α}
    (ht : c.threads t = .pure a) : post t a c.state := by
  obtain ⟨hinv, hthreads⟩ := Contract.sound hpre htriple hi hs hr
  obtain ⟨P, _, hPs, htr⟩ := hthreads t
  rw [ht] at htr
  exact htr _ hinv hPs

/-- Every step taken in a pool reached is one that its thread guarantees. -/
theorem Contract.sound_step {C : Contract τ σ} {act : Action τ ι ρ σ} {prog : τ → Prog ι ρ α}
    {pre : τ → σ → Prop} {post : τ → α → σ → Prop} (hpre : ∀ t, C.Stable t (pre t))
    (htriple : ∀ t, Triple C act t (pre t) (prog t) (post t)) {s : σ} (hi : C.inv s)
    (hs : ∀ t, pre t s) {c : Pool τ ι ρ α σ} (hr : Pool.Reach act ⟨prog, s⟩ c) {t : τ} {i : ι}
    {k : ρ i → Prog ι ρ α} {r : ρ i} {s' : σ} (hc : c.threads t = .call i k)
    (ha : act t i c.state r s') : C.guar t c.state s' := by
  obtain ⟨hinv, hthreads⟩ := Contract.sound hpre htriple hi hs hr
  obtain ⟨P, _, hPs, htr⟩ := hthreads t
  rw [hc] at htr
  obtain ⟨M, _, hcall, _⟩ := htr
  exact (hcall _ r s' hinv hPs ha).2.1

/-- What every guaranteed step preserves holds in every pool reached. -/
theorem Contract.sound_guar {C : Contract τ σ} {act : Action τ ι ρ σ} {prog : τ → Prog ι ρ α}
    {pre : τ → σ → Prop} {post : τ → α → σ → Prop} (hpre : ∀ t, C.Stable t (pre t))
    (htriple : ∀ t, Triple C act t (pre t) (prog t) (post t)) {s : σ} (hi : C.inv s)
    (hs : ∀ t, pre t s) {I : σ → Prop} (hI : I s)
    (hstep : ∀ t s s', C.inv s → C.guar t s s' → I s → I s')
    {c : Pool τ ι ρ α σ} (hr : Pool.Reach act ⟨prog, s⟩ c) : I c.state := by
  induction hr with
  | refl => exact hI
  | tail hreach hs' ih =>
      cases hs' with
      | @call t i k r s' hc ha =>
          exact hstep t _ s' (Contract.sound_inv hpre htriple hi hs hreach)
            (Contract.sound_step hpre htriple hi hs hreach hc ha) ih

end Atomic
