import ARArch.CallEffects

/-!
# Stereo pairing

The table of pairs is keyed by the hash of a camera and a sequence number, which is their
exclusive or, and never compares the keys themselves. Over a run of `stereo_pair`, `stereo_twin`
and `delete_stereo_pair` calls it represents the live pairs as long as no two keys in use share a
hash. When they do, as the keys (0, 2) and (1, 3) do, a twin is overwritten by another pair.
-/

namespace ARArch

/-- `k` and `j` were paired, in either order, and neither was deleted since. -/
def Live : History → Key → Key → Prop
  | [], _, _ => False
  | ⟨.stereoPair k1 k2, _⟩ :: done, k, j =>
    (k = k1 ∧ j = k2) ∨ (k = k2 ∧ j = k1) ∨ Live done k j
  | ⟨.deleteStereoPair c s, _⟩ :: done, k, j => Live done k j ∧ k ≠ (c, s) ∧ j ≠ (c, s)
  | _ :: done, k, j => Live done k j

namespace Request

/-- The keys that a pairing call names. -/
def pairKeys : Request → List Key
  | stereoPair k1 k2 => [k1, k2]
  | stereoTwin c s | deleteStereoPair c s => [(c, s)]
  | _ => []

def isPairing : Request → Bool
  | stereoPair _ _ | stereoTwin _ _ | deleteStereoPair _ _ => true
  | _ => false

/-- The two keys that a `stereo_pair` call links. -/
def linked : Request → List Key
  | stereoPair k1 k2 => [k1, k2]
  | _ => []

end Request

/-- A pairing call whose keys, if it is a `stereo_pair`, occur in no earlier one. -/
def PairedOnce (done : History) (q : Request) : Prop :=
  q.isPairing = true ∧ ∀ k ∈ q.linked, ∀ d ∈ done, k ∉ d.request.linked

/-- No key of the call shares its hash with a live key or with another key of the call. -/
def HashesApart (done : History) (q : Request) : Prop :=
  ∀ k ∈ q.pairKeys, ∀ k', (k' ∈ q.pairKeys ∨ ∃ j, Live done k' j) →
    pairHasher k' = pairHasher k → k' = k

def PairingApart (done : History) (_ : Repository) (q : Request) : Prop :=
  PairedOnce done q ∧ HashesApart done q

theorem Live.symm {done : History} {k j : Key} (h : Live done k j) : Live done j k := by
  induction done with
  | nil => exact h
  | cons d done ih =>
      obtain ⟨q, a⟩ := d
      cases q with
      | stereoPair k1 k2 =>
          obtain ⟨hk, hj⟩ | ⟨hk, hj⟩ | h := h
          · exact Or.inr (Or.inl ⟨hj, hk⟩)
          · exact Or.inl ⟨hj, hk⟩
          · exact Or.inr (Or.inr (ih h))
      | deleteStereoPair c s => exact ⟨ih h.1, h.2.2, h.2.1⟩
      | _ => exact ih h

theorem Live.linked {done : History} {k j : Key} (h : Live done k j) :
    ∃ d ∈ done, k ∈ d.request.linked := by
  have later {d : Done Request Request.Ans} {done : History} :
      (∃ e ∈ done, k ∈ e.request.linked) → ∃ e ∈ d :: done, k ∈ e.request.linked :=
    fun ⟨e, he, hk⟩ => ⟨e, List.mem_cons_of_mem _ he, hk⟩
  induction done with
  | nil => exact h.elim
  | cons d done ih =>
      obtain ⟨q, a⟩ := d
      cases q with
      | stereoPair k1 k2 =>
          obtain ⟨hk, _⟩ | ⟨hk, _⟩ | h := h
          · exact ⟨_, List.mem_cons_self, by simp [Request.linked, hk]⟩
          · exact ⟨_, List.mem_cons_self, by simp [Request.linked, hk]⟩
          · exact later (ih h)
      | deleteStereoPair c s => exact later (ih h.1)
      | _ => exact later (ih h)

theorem not_live_of_pairedOnce {done : History} {q : Request} (h : PairedOnce done q) {k j : Key}
    (hk : k ∈ q.linked) : ¬ Live done k j := by
  intro hl
  obtain ⟨d, hd, hm⟩ := hl.linked
  exact h.2 k hk d hd hm

/-- The table holds exactly the live pairs, each entry under the hash of its key. -/
structure PairsRepresented (done : History) (r : Repository) : Prop where
  entry : ∀ k j, Live done k j → r.stereoFrames (pairHasher k) = some j
  live : ∀ h j, r.stereoFrames h = some j → ∃ k, pairHasher k = h ∧ Live done k j

namespace PairsRepresented

variable {done : History} {r : Repository} {k k1 k2 : Key}

theorem unique (hr : PairsRepresented done r) {j j' : Key} (h : Live done k j)
    (h' : Live done k j') : j = j' := by
  have he := hr.entry k j h
  rw [hr.entry k j' h'] at he
  exact (Option.some.inj he).symm

/-- Under hashes apart, the entry of a key is its own. -/
theorem entry_iff (hr : PairsRepresented done r)
    (ha : ∀ k', (∃ j, Live done k' j) → pairHasher k' = pairHasher k → k' = k) (j : Key) :
    r.stereoFrames (pairHasher k) = some j ↔ Live done k j := by
  constructor
  · intro h
    obtain ⟨k', hk, hl⟩ := hr.live _ _ h
    rwa [← ha k' ⟨j, hl⟩ hk]
  · exact hr.entry k j

theorem stereoPair (hr : PairsRepresented done r) (ho : PairedOnce done (.stereoPair k1 k2))
    (ha : HashesApart done (.stereoPair k1 k2)) (u : Unit) :
    PairsRepresented (⟨.stereoPair k1 k2, u⟩ :: done) (r.stereoPair k1 k2) := by
  have h1 : k1 ∈ (Request.stereoPair k1 k2).linked := by simp [Request.linked]
  have h2 : k2 ∈ (Request.stereoPair k1 k2).linked := by simp [Request.linked]
  have hne {k j k' : Key} (hl : Live done k j) (hk' : k' ∈ (Request.stereoPair k1 k2).linked) :
      pairHasher k ≠ pairHasher k' := by
    intro he
    have hk := ha k' hk' k (Or.inr ⟨j, hl⟩) he
    exact not_live_of_pairedOnce ho hk' (hk ▸ hl)
  constructor
  · intro k j hl
    rw [Repository.stereoFrames_stereoPair]
    obtain ⟨hk, hj⟩ | ⟨hk, hj⟩ | hl := hl
    · subst hk hj
      by_cases he : pairHasher k = pairHasher j
      · have hkj : k = j := ha j h2 k (Or.inl h1) he
        rw [if_pos he, hkj]
      · rw [if_neg he, if_pos rfl]
    · subst hk hj
      rw [if_pos rfl]
    · rw [if_neg (hne hl h2), if_neg (hne hl h1)]
      exact hr.entry k j hl
  · intro h j he
    rw [Repository.stereoFrames_stereoPair] at he
    split_ifs at he with hh2 hh1
    · cases he
      exact ⟨k2, hh2.symm, Or.inr (Or.inl ⟨rfl, rfl⟩)⟩
    · cases he
      exact ⟨k1, hh1.symm, Or.inl ⟨rfl, rfl⟩⟩
    · obtain ⟨k, hk, hl⟩ := hr.live h j he
      exact ⟨k, hk, Or.inr (Or.inr hl)⟩

theorem deleteStereoPair (hr : PairsRepresented done r) {c : CameraId} {s : SeqNo}
    (ha : HashesApart done (.deleteStereoPair c s)) (b : Bool) :
    PairsRepresented (⟨.deleteStereoPair c s, b⟩ :: done) (r.deleteStereoPair (c, s)) := by
  have hapart (k' : Key) (hl : ∃ j, Live done k' j)
      (he : pairHasher k' = pairHasher (c, s)) : k' = (c, s) :=
    ha (c, s) (by simp [Request.pairKeys]) k' (Or.inr hl) he
  cases ht : r.stereoFrames (pairHasher (c, s)) with
  | none =>
      rw [Repository.deleteStereoPair_of_none ht]
      have hno (j : Key) : ¬ Live done (c, s) j := by
        intro hl
        rw [hr.entry _ _ hl] at ht
        cases ht
      refine ⟨fun k j hl => hr.entry k j hl.1, fun h j he => ?_⟩
      obtain ⟨k, hk, hl⟩ := hr.live h j he
      refine ⟨k, hk, hl, ?_, ?_⟩
      · rintro rfl
        exact hno j hl
      · rintro rfl
        exact hno k hl.symm
  | some twin =>
      have hpair : Live done (c, s) twin := (hr.entry_iff hapart twin).mp ht
      constructor
      · intro k j hl
        obtain ⟨hl, hk, hj⟩ := hl
        rw [Repository.stereoFrames_deleteStereoPair ht]
        refine ⟨fun he => hk (hapart k ⟨j, hl⟩ he), ?_, hr.entry k j hl⟩
        -- an entry under the twin's hash leads to the deleted key
        intro he
        have hj' := hr.entry k j hl
        rw [he, hr.entry twin _ hpair.symm] at hj'
        exact hj (Option.some.inj hj').symm
      · intro h j he
        rw [Repository.stereoFrames_deleteStereoPair ht] at he
        obtain ⟨h1, h2, he⟩ := he
        obtain ⟨k, hk, hl⟩ := hr.live h j he
        refine ⟨k, hk, hl, ?_, ?_⟩
        · rintro rfl
          exact h1 hk.symm
        · rintro rfl
          have hkt : k = twin := hr.unique hl.symm hpair
          exact h2 (by rw [← hk, hkt])

theorem of_session {r₀ : Repository} (h₀ : r₀.stereoFrames = Table.empty)
    (h : Session Repository.respond PairingApart r₀ done r) : PairsRepresented done r := by
  refine Session.invariant (I := PairsRepresented) ⟨fun _ _ hl => hl.elim, ?_⟩ ?_ h
  · intro h j he
    rw [h₀] at he
    cases he
  · rintro done r q a r' hr ⟨ho, ha⟩ hq
    rw [Repository.respond_eq] at hq
    cases q with
    | stereoPair k1 k2 =>
        cases hq
        exact hr.stereoPair ho ha ()
    | stereoTwin c s =>
        cases hq
        exact ⟨hr.entry, hr.live⟩
    | deleteStereoPair c s =>
        cases hq
        exact hr.deleteStereoPair ha _
    | _ => cases ho.1

end PairsRepresented

/-- What the pairing calls should answer: the live twin, and whether there was a pair. -/
def PairingAnswer (done : History) : (q : Request) → q.Ans → Prop
  | .stereoTwin c s, a => ∀ j, a = some j ↔ Live done (c, s) j
  | .deleteStereoPair c s, a => a = true ↔ ∃ j, Live done (c, s) j
  | _, _ => True

theorem pairing_answer {done : History} {r r' : Repository} {q : Request} {a : q.Ans}
    (hr : PairsRepresented done r) (hok : PairingApart done r q)
    (hq : r.respond q = some (a, r')) : PairingAnswer done q a := by
  rw [Repository.respond_eq] at hq
  cases q with
  | stereoTwin c s =>
      cases hq
      exact hr.entry_iff
        (fun k' hl he => hok.2 (c, s) (by simp [Request.pairKeys]) k' (Or.inr hl) he)
  | deleteStereoPair c s =>
      cases hq
      have he := hr.entry_iff (k := (c, s))
        (fun k' hl he => hok.2 (c, s) (by simp [Request.pairKeys]) k' (Or.inr hl) he)
      simp only [PairingAnswer, Option.isSome_iff_exists, he]
  | _ => trivial

/-- The twin of a live key as `stereo_twin` gives it. -/
def Repository.TwinIs (r : Repository) (k : Key) (twin : Option Key) : Prop :=
  r.respond (.stereoTwin k.1 k.2) = some (twin, r)

theorem Repository.twinIs_iff {r : Repository} {k : Key} {twin : Option Key} :
    r.TwinIs k twin ↔ r.stereoFrames (pairHasher k) = twin := by
  rw [TwinIs, respond_eq]
  simp [Request.effect]

/-- Over a run in which no two keys in use share a hash, every answer is right, the twin of a
live key has that key as its twin, and a deletion forgets its own pair and no other. -/
theorem stereo_pairing_faithful {r₀ : Repository} (h₀ : r₀.stereoFrames = Table.empty)
    {done : History} {r : Repository} (h : Session Repository.respond PairingApart r₀ done r) :
    Answered PairingAnswer done ∧
    (∀ k j, Live done k j → r.TwinIs k (some j) ∧ r.TwinIs j (some k)) ∧
    ∀ c s a r', PairingApart done r (.deleteStereoPair c s) →
      r.respond (.deleteStereoPair c s) = some (a, r') →
      (∀ k j, Live done k j → k ≠ (c, s) → j ≠ (c, s) → r'.TwinIs k (some j)) ∧
      ∀ j, Live done (c, s) j → r'.TwinIs (c, s) none ∧ r'.TwinIs j none := by
  have hr := PairsRepresented.of_session h₀ h
  refine ⟨?_, ?_, ?_⟩
  · exact Session.answered (fun _ _ => PairsRepresented.of_session h₀)
      (fun _ _ _ _ _ hr hok hq => pairing_answer hr hok hq) h
  · intro k j hl
    rw [Repository.twinIs_iff, Repository.twinIs_iff]
    exact ⟨hr.entry k j hl, hr.entry j k hl.symm⟩
  · intro c s a r' hok hq
    have hr' := PairsRepresented.of_session h₀ (.call h hok hq)
    rw [Repository.respond_eq] at hq
    cases hq
    refine ⟨?_, ?_⟩
    · intro k j hl hk hj
      rw [Repository.twinIs_iff]
      exact hr'.entry k j ⟨hl, hk, hj⟩
    · intro j hl
      have ht := hr.entry _ _ hl
      have hnone (k : Key) (hk : pairHasher k = pairHasher (c, s) ∨ pairHasher k = pairHasher j) :
          (r.deleteStereoPair (c, s)).stereoFrames (pairHasher k) = none := by
        by_contra hn
        obtain ⟨w, hw⟩ := Option.ne_none_iff_exists'.mp hn
        rw [Repository.stereoFrames_deleteStereoPair ht] at hw
        rcases hk with hk | hk
        · exact hw.1 hk
        · exact hw.2.1 hk
      rw [Repository.twinIs_iff, Repository.twinIs_iff]
      exact ⟨hnone _ (Or.inl rfl), hnone _ (Or.inr rfl)⟩

theorem stereo_pairing_faithful_single :
    (({} : Repository).stereoPair (0, 2) (1, 2)).TwinIs (1, 2) (some (0, 2)) := by
  have hok : PairingApart [] {} (.stereoPair (0, 2) (1, 2)) := by
    refine ⟨by unfold PairedOnce; decide, ?_⟩
    intro k hk k' hk' he
    have hno : ¬ ∃ j, Live [] k' j := fun ⟨_, hl⟩ => hl
    have hk'' : k' ∈ (Request.stereoPair (0, 2) (1, 2)).pairKeys := hk'.resolve_right hno
    simp only [Request.pairKeys, List.mem_cons, List.not_mem_nil, or_false] at hk hk''
    rcases hk with rfl | rfl <;> rcases hk'' with rfl | rfl <;> revert he <;> decide
  exact ((stereo_pairing_faithful rfl (.call .start hok (Repository.respond_eq _ _))).2.1
    (0, 2) (1, 2) (Or.inl ⟨rfl, rfl⟩)).2

/-- Frames 2 and 3 of cameras 0 and 1, paired in turn: the second pair overwrites the first. -/
theorem stereoTwin_of_overwritten_pair :
    ∃ done r, Session Repository.respond (fun done _ q => PairedOnce done q) {} done r ∧
      Live done (0, 2) (1, 2) ∧ r.TwinIs (0, 2) (some (0, 3)) := by
  have hfirst : PairedOnce [] (.stereoPair (0, 2) (1, 2)) := by
    unfold PairedOnce
    decide
  have hsecond : PairedOnce [⟨.stereoPair (0, 2) (1, 2), ()⟩] (.stereoPair (0, 3) (1, 3)) := by
    unfold PairedOnce
    decide
  refine ⟨_, _, .call (.call .start hfirst (Repository.respond_eq _ _)) hsecond
    (Repository.respond_eq _ _), ?_, ?_⟩
  · exact Or.inr (Or.inr (Or.inl ⟨rfl, rfl⟩))
  · rw [Repository.twinIs_iff]
    decide

end ARArch
