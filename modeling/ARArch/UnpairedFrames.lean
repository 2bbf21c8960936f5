import ARArch.StalePairs

/-!
# Frames outside all pairs

What `delete_frame` does to a frame that no `stereo_pair` call named. The table of pairs is asked
for the hash of its key only, so that the entry of another frame with the same hash is taken for
its own: the frame which that entry leads to goes too, and the pair is forgotten.
-/

namespace ARArch

/-- `delete_frame` of `k` leaves all other frames and the pairs, and a claimed frame altogether. -/
def Repository.DeletesAlone (r : Repository) (k : Key) : Prop :=
  ∃ r', r.respond (.deleteFrame k.1 k.2) = some ((), r') ∧ (∀ j, j ≠ k → r'.frame j = r.frame j) ∧
    r'.stereoFrames = r.stereoFrames ∧
    ∀ f u, r.frame k = some f → (r.infos f).flag u = true → r' = r

/-- The entry of another frame, which was paired, stands under the hash of `k`. -/
def MistakenEntry (done : History) (r : Repository) (k : Key) : Prop :=
  ∃ k', Linked done k' ∧ k' ≠ k ∧ pairHasher k' = pairHasher k ∧
    (r.stereoFrames (pairHasher k')).isSome = true

variable {done : History} {r r₀ : Repository} {k : Key}

theorem Linked.cons {d : Done Request Request.Ans} (h : Linked done k) : Linked (d :: done) k := by
  obtain ⟨e, he, hk⟩ := h
  exact ⟨e, List.mem_cons_of_mem d he, hk⟩

namespace Repository

theorem stereoFrames_of_deleteStereoPair {x : ℕ} {w : Key}
    (h : (r.deleteStereoPair k).stereoFrames x = some w) : r.stereoFrames x = some w := by
  cases ht : r.stereoFrames (pairHasher k) with
  | none => rwa [deleteStereoPair_of_none ht] at h
  | some twin => exact ((stereoFrames_deleteStereoPair ht).mp h).2.2

theorem stereoFrames_of_deleteFrame {x : ℕ} {w : Key}
    (h : (r.deleteFrame k).stereoFrames x = some w) : r.stereoFrames x = some w := by
  by_cases hl : r.lets FrameInfo.unclaimed k
  · cases ht : r.stereoFrames (pairHasher k) with
    | none => rwa [deleteFrame_of_unpaired ht, stereoFrames_eraseIf] at h
    | some twin =>
        rw [deleteFrame_of_paired ht hl] at h
        have he := stereoFrames_of_deleteStereoPair h
        rwa [stereoFrames_eraseIf, stereoFrames_eraseFrame] at he
  · rwa [deleteFrame_of_not_lets hl] at h

end Repository

/-- Only `stereo_pair` makes entries, under the hashes of the keys that it links. -/
theorem stereoFrames_of_respond {q : Request} {a : q.Ans} {r' : Repository}
    (hq : r.respond q = some (a, r')) {x : ℕ} {w : Key} (hx : r'.stereoFrames x = some w) :
    r.stereoFrames x = some w ∨ ∃ k ∈ q.linked, pairHasher k = x := by
  rw [Repository.respond_eq] at hq
  cases q with
  | stereoPair k1 k2 =>
      cases hq
      rw [Repository.stereoFrames_stereoPair] at hx
      split_ifs at hx with h2 h1
      · exact .inr ⟨k2, by simp [Request.linked], h2.symm⟩
      · exact .inr ⟨k1, by simp [Request.linked], h1.symm⟩
      · exact .inl hx
  | deleteStereoPair c s =>
      cases hq
      exact .inl (Repository.stereoFrames_of_deleteStereoPair hx)
  | deleteFrame c s =>
      cases hq
      exact .inl (Repository.stereoFrames_of_deleteFrame hx)
  | getFrame c s =>
      obtain ⟨b, _, hb⟩ := Option.map_eq_some_iff.mp hq
      cases hb
      exact .inl hx
  | addCamera c =>
      have hr : (r.addCamera c).2 = r' := congrArg Prod.snd (Option.some.inj hq)
      rw [← hr, Repository.stereoFrames_addCamera] at hx
      exact .inl hx
  | hardwareAddCamera c =>
      have hr : (r.hardwareAddCamera c).2 = r' := congrArg Prod.snd (Option.some.inj hq)
      rw [← hr, Repository.stereoFrames_hardwareAddCamera] at hx
      exact .inl hx
  | nextSeqno c =>
      cases hq
      rw [Repository.stereoFrames_nextSeqno] at hx
      exact .inl hx
  | newFrame c f =>
      cases hq
      rw [Repository.stereoFrames_newFrame] at hx
      exact .inl hx
  | newStereoFrame c1 f1 c2 f2 =>
      cases hq
      rw [Repository.stereoFrames_newStereoFrame] at hx
      exact .inl hx
  | deleteAllFrames s =>
      cases hq
      rw [Repository.stereoFrames_deleteAllFrames] at hx
      exact .inl hx
  | _ =>
      cases hq
      exact .inl hx

/-- Every entry of the table stands under the hash of a frame that was paired. -/
theorem linked_of_entry {P : History → Repository → Request → Prop}
    (h₀ : r₀.stereoFrames = Table.empty) (h : Session Repository.respond P r₀ done r) {x : ℕ}
    {w : Key} (hx : r.stereoFrames x = some w) : ∃ k, Linked done k ∧ pairHasher k = x := by
  induction h generalizing w with
  | start =>
      rw [h₀] at hx
      cases hx
  | call _ _ hq ih =>
      rcases stereoFrames_of_respond hq hx with hx | ⟨k, hk, he⟩
      · obtain ⟨k, hk, he⟩ := ih hx
        exact ⟨k, hk.cons, he⟩
      · exact ⟨k, ⟨_, List.mem_cons_self, hk⟩, he⟩

theorem Repository.deletesAlone_iff :
    r.DeletesAlone k ↔
      ¬ (r.lets FrameInfo.unclaimed k ∧ (r.stereoFrames (pairHasher k)).isSome = true) := by
  have hrespond : r.respond (.deleteFrame k.1 k.2) = some ((), r.deleteFrame k) :=
    respond_eq _ _
  constructor
  · rintro ⟨r', hr', _, hpairs, _⟩ ⟨hl, hentry⟩
    rw [hrespond] at hr'
    cases hr'
    obtain ⟨twin, ht⟩ := Option.isSome_iff_exists.mp hentry
    -- the entry itself is gone
    rw [deleteFrame_of_paired ht hl] at hpairs
    have ht' : ((r.eraseFrame k).eraseIf FrameInfo.undetected twin).stereoFrames (pairHasher k) =
        some twin := by rw [stereoFrames_eraseIf, stereoFrames_eraseFrame, ht]
    rw [← hpairs] at ht
    exact ((stereoFrames_deleteStereoPair ht').mp ht).1 rfl
  · intro hn
    refine ⟨_, hrespond, ?_⟩
    by_cases hl : r.lets FrameInfo.unclaimed k
    · have ht : r.stereoFrames (pairHasher k) = none := by
        by_contra ht
        exact hn ⟨hl, Option.isSome_iff_ne_none.mpr ht⟩
      rw [deleteFrame_of_unpaired ht]
      refine ⟨fun j hj => frame_eraseIf_of_ne hj, stereoFrames_eraseIf r, ?_⟩
      intro f u hf hu
      obtain ⟨g, hg, hfree⟩ := hl
      rw [hf] at hg
      cases hg
      rw [(FrameInfo.unclaimed_iff _).mp hfree u] at hu
      cases hu
    · rw [deleteFrame_of_not_lets hl]
      exact ⟨fun _ _ => rfl, rfl, fun _ _ _ _ => rfl⟩

/-- Deleting a frame that was never paired touches nothing else, unless it goes while the entry of
a paired frame stands under its hash. -/
theorem deletes_unpaired_alone_iff (h₀ : r₀.stereoFrames = Table.empty)
    (h : Session Repository.respond (fun _ _ _ => True) r₀ done r) (hk : ¬ Linked done k) :
    r.DeletesAlone k ↔ ¬ (r.lets FrameInfo.unclaimed k ∧ MistakenEntry done r k) := by
  have hentry : MistakenEntry done r k ↔ (r.stereoFrames (pairHasher k)).isSome = true := by
    constructor
    · rintro ⟨k', _, _, he, hs⟩
      rwa [← he]
    · intro hs
      obtain ⟨w, hw⟩ := Option.isSome_iff_exists.mp hs
      obtain ⟨k', hk', he⟩ := linked_of_entry h₀ h hw
      have hne : k' ≠ k := by
        rintro rfl
        exact hk hk'
      exact ⟨k', hk', hne, he, by rwa [he]⟩
  rw [hentry]
  exact Repository.deletesAlone_iff

/-- Camera 0 with the frames 0 to 2 and camera 1 with the frames 0 to 3; those under number 2 are
paired. -/
def pairAmongOthers : Repository :=
  (((((((((({} : Repository).nextSeqno 0).nextSeqno 1).newFrame 0 1).newFrame 0 2).newFrame 0
    3).newFrame 1 4).newFrame 1 5).newFrame 1 6).newFrame 1 7).stereoPair (0, 2) (1, 2)

theorem pairAmongOthers_session : ∃ done,
    Session Repository.respond (fun _ _ _ => True) {} done pairAmongOthers ∧
      ∀ k, Linked done k → k = (0, 2) ∨ k = (1, 2) := by
  have hcall {done : History} {r r' : Repository} {q : Request} {a : q.Ans}
      (h : Session Repository.respond (fun _ _ _ => True) {} done r)
      (hq : q.effect r = some (a, r')) :
      Session Repository.respond (fun _ _ _ => True) {} (⟨q, a⟩ :: done) r' :=
    h.call trivial ((Repository.respond_eq _ _).trans hq)
  have h2 := hcall (hcall .start (q := .nextSeqno 0) rfl) (q := .nextSeqno 1) rfl
  have h5 := hcall (hcall (hcall h2 (q := .newFrame 0 1) rfl) (q := .newFrame 0 2) rfl)
    (q := .newFrame 0 3) rfl
  have h9 := hcall (hcall (hcall (hcall h5 (q := .newFrame 1 4) rfl) (q := .newFrame 1 5) rfl)
    (q := .newFrame 1 6) rfl) (q := .newFrame 1 7) rfl
  refine ⟨_, hcall h9 (q := .stereoPair (0, 2) (1, 2)) rfl, ?_⟩
  rintro k ⟨d, hd, hk⟩
  simp only [List.mem_cons, List.not_mem_nil, or_false] at hd
  rcases hd with rfl | rfl | rfl | rfl | rfl | rfl | rfl | rfl | rfl | rfl
  · simpa [Request.linked] using hk
  all_goals cases hk

/-- Frame 1 of camera 0 goes alone. -/
theorem deletes_unpaired_alone_iff_first : pairAmongOthers.DeletesAlone (0, 1) := by
  obtain ⟨done, h, hlinked⟩ := pairAmongOthers_session
  have hk : ¬ Linked done (0, 1) := by
    intro hk
    rcases hlinked _ hk with h | h <;> cases h
  refine (deletes_unpaired_alone_iff rfl h hk).mpr ?_
  rintro ⟨_, k', hk', _, he, _⟩
  rcases hlinked _ hk' with rfl | rfl <;> revert he <;> decide

/-- Frame 3 of camera 1 takes frame 2 along, whose pair stands under its hash. -/
theorem deleteFrame_takes_paired_frame : ∃ done,
    Session Repository.respond (fun _ _ _ => True) {} done pairAmongOthers ∧
      ¬ Linked done (1, 3) ∧ ¬ pairAmongOthers.DeletesAlone (1, 3) := by
  obtain ⟨done, h, hlinked⟩ := pairAmongOthers_session
  refine ⟨done, h, ?_, ?_⟩
  · intro hk
    rcases hlinked _ hk with h | h <;> cases h
  · rintro ⟨r', hr', hframes, _⟩
    rw [Repository.respond_eq] at hr'
    cases hr'
    have hframe := hframes (1, 2) (by decide)
    revert hframe
    decide

end ARArch
