import ARArch.CallEffects
import ARArch.Numerals

/-!
# The names of the cameras

Android names cameras by texts, and the repository knows them by numbers: `camera_ID` reads a name
as a number, and takes the hash of one that is not a numeral. The names of the cameras that
Camera2 lists are plain numerals.
-/

namespace ARArch

open Numeral

abbrev CameraName := List Char

/-- `Camera::camera_ID`; the text that `strtoul` gets ends at the first zero character. -/
def cameraID (hash : CameraName → ℕ) (name : CameraName) : CameraId :=
  let read := strtoul (name.takeWhile (· ≠ '\x00'))
  if read.2 = [] then read.1 else hash name

namespace Repository

/-- `HardwareCamera.addCamera` of a name. -/
def addNamed (hash : CameraName → ℕ) (r : Repository) (name : CameraName) : Bool × Repository :=
  r.hardwareAddCamera (cameraID hash name)

/-- What the calls for a list of names leave. -/
def addAll (hash : CameraName → ℕ) (r : Repository) (names : List CameraName) : Repository :=
  names.foldl (fun r name => (r.addNamed hash name).2) r

/-- Every name gets a camera of its own: it is added the first time and refused from then on. -/
def KeptApart (hash : CameraName → ℕ) (r : Repository) (names : List CameraName) : Prop :=
  ∀ before name after, names = before ++ name :: after →
    (((r.addAll hash before).addNamed hash name).1 = true ↔ name ∉ before)

variable {hash : CameraName → ℕ} {r : Repository} {names before after : List CameraName}
  {name other : CameraName} {id : CameraId}

theorem cameraID_of_plain (h : Plain name) : cameraID hash name = min (value name) noCamera := by
  have hzero : name.takeWhile (· ≠ '\x00') = name := by
    apply List.takeWhile_eq_self_iff.mpr
    intro c hc
    have hdigit := h.digits c hc
    have hne : c ≠ '\x00' := by
      intro heq
      rw [heq] at hdigit
      simp at hdigit
    simpa using hne
  unfold cameraID
  rw [hzero, h.strtoul_eq]
  rfl

theorem cameraID_ne_iff (h : Plain name) :
    cameraID hash name ≠ noCamera ↔ value name < 2 ^ 64 - 1 := by
  rw [cameraID_of_plain h, Ne, min_eq_right_iff, not_le]
  exact Iff.rfl

theorem cameraID_of_lt (h : Plain name) (hlt : value name < 2 ^ 64 - 1) :
    cameraID hash name = value name := by
  rw [cameraID_of_plain h]
  exact Nat.min_eq_left (Nat.le_of_lt hlt)

/-- A camera is added unless its number stands for none or is taken. -/
theorem addNamed_fst : (r.addNamed hash name).1 = true ↔
    cameraID hash name ≠ noCamera ∧ cameraID hash name ∉ r.cameras := by
  unfold addNamed hardwareAddCamera addCamera
  split
  · rename_i hrefused
    simp only [Bool.false_eq_true, false_iff, not_and_or, not_not]
    exact hrefused
  · rename_i hadded
    simp only [true_iff]
    exact not_or.mp hadded

theorem mem_cameras_addNamed : id ∈ (r.addNamed hash name).2.cameras ↔
    id ∈ r.cameras ∨ (id ≠ noCamera ∧ cameraID hash name = id) := by
  unfold addNamed hardwareAddCamera addCamera
  split
  · rename_i hrefused
    simp only [Bool.false_eq_true, if_false]
    constructor
    · exact Or.inl
    · rintro (hmem | ⟨hne, rfl⟩)
      · exact hmem
      · exact hrefused.resolve_left hne
  · rename_i hadded
    simp only [if_true, cameras_nextSeqno, List.mem_append, List.mem_singleton]
    push Not at hadded
    constructor
    · rintro (hmem | rfl)
      · exact Or.inl hmem
      · exact Or.inr ⟨hadded.1, rfl⟩
    · rintro (hmem | ⟨_, rfl⟩)
      · exact Or.inl hmem
      · exact Or.inr rfl

theorem mem_cameras_addAll : id ∈ (r.addAll hash names).cameras ↔
    id ∈ r.cameras ∨ (id ≠ noCamera ∧ ∃ name ∈ names, cameraID hash name = id) := by
  induction names generalizing r with
  | nil => simp [addAll]
  | cons name names ih =>
      unfold addAll at ih ⊢
      rw [List.foldl_cons, ih, mem_cameras_addNamed, List.exists_mem_cons_iff]
      constructor
      · rintro ((hmem | ⟨hne, hid⟩) | ⟨hne, hid⟩)
        · exact Or.inl hmem
        · exact Or.inr ⟨hne, Or.inl hid⟩
        · exact Or.inr ⟨hne, Or.inr hid⟩
      · rintro (hmem | ⟨hne, hid | hid⟩)
        · exact Or.inl (Or.inl hmem)
        · exact Or.inl (Or.inr ⟨hne, hid⟩)
        · exact Or.inr ⟨hne, hid⟩

/-- The answer for a name that was not given before, whatever was. -/
theorem keptApart_fresh (h : KeptApart hash r (before ++ name :: after)) (hfresh : name ∉ before) :
    cameraID hash name ≠ noCamera ∧ cameraID hash name ∉ r.cameras ∧
      ∀ earlier ∈ before, cameraID hash earlier ≠ cameraID hash name := by
  have hadded := (h before name after rfl).mpr hfresh
  obtain ⟨hne, hnew⟩ := addNamed_fst.mp hadded
  rw [mem_cameras_addAll] at hnew
  push Not at hnew
  exact ⟨hne, hnew.1, hnew.2 hne⟩

theorem keptApart_injective (h : KeptApart hash r names) (hname : name ∈ names)
    (hother : other ∈ names) (hid : cameraID hash name = cameraID hash other) : name = other := by
  by_contra hne
  obtain ⟨before, after, hsplit, hfresh⟩ := List.eq_append_cons_of_mem hname
  rw [hsplit] at h hother
  obtain ⟨_, _, hbefore⟩ := keptApart_fresh h hfresh
  have hlater : other ∈ after := by
    rcases List.mem_append.mp hother with hmem | hmem
    · exact absurd hid.symm (hbefore other hmem)
    · exact (List.mem_cons.mp hmem).resolve_left (Ne.symm hne)
  -- the other name comes later, and what lies before its first occurrence has this one
  have hnot : other ∉ before := fun hmem => hbefore other hmem hid.symm
  obtain ⟨between, last, rfl, hbetween⟩ := List.eq_append_cons_of_mem hlater
  have hassoc : before ++ name :: (between ++ other :: last) =
      (before ++ name :: between) ++ other :: last := by simp
  rw [hassoc] at h
  have hfirst : other ∉ before ++ name :: between := by
    simp [hnot, Ne.symm hne, hbetween]
  obtain ⟨_, _, hearlier⟩ := keptApart_fresh h hfirst
  exact hearlier name (by simp) hid

theorem keptApart_iff : KeptApart hash r names ↔
    (∀ name ∈ names, cameraID hash name ≠ noCamera ∧ cameraID hash name ∉ r.cameras) ∧
      ∀ name ∈ names, ∀ other ∈ names, cameraID hash name = cameraID hash other →
        name = other := by
  constructor
  · intro h
    constructor
    · intro name hname
      obtain ⟨before, after, hsplit, hfresh⟩ := List.eq_append_cons_of_mem hname
      rw [hsplit] at h
      obtain ⟨hne, hnew, _⟩ := keptApart_fresh h hfresh
      exact ⟨hne, hnew⟩
    · intro name hname other hother hid
      exact keptApart_injective h hname hother hid
  · rintro ⟨hfree, hinjective⟩ before name after rfl
    have hname : name ∈ before ++ name :: after := by simp
    obtain ⟨hne, hnew⟩ := hfree name hname
    rw [addNamed_fst, mem_cameras_addAll]
    constructor
    · rintro ⟨_, hnot⟩ hmem
      exact hnot (Or.inr ⟨hne, name, hmem, rfl⟩)
    · intro hfresh
      refine ⟨hne, ?_⟩
      rintro (hmem | ⟨_, earlier, hmem, hid⟩)
      · exact hnew hmem
      · have hearlier : earlier ∈ before ++ name :: after := List.mem_append_left _ hmem
        have heq := hinjective earlier hearlier name hname hid
        rw [heq] at hmem
        exact hfresh hmem

/-- Plain numerals are kept apart if and only if each of them is less than the largest number of
64 bits and no two of them stand for the same number, as `1` and `01` do. -/
theorem numerals_kept_apart_iff (hash : CameraName → ℕ) (infos : FrameRef → FrameInfo)
    (names : List CameraName) (h : ∀ name ∈ names, Plain name) :
    KeptApart hash (initial infos) names ↔
      (∀ name ∈ names, value name < 2 ^ 64 - 1) ∧
        ∀ name ∈ names, ∀ other ∈ names, value name = value other → name = other := by
  rw [keptApart_iff]
  constructor
  · rintro ⟨hfree, hinjective⟩
    constructor
    · intro name hname
      exact (cameraID_ne_iff (h name hname)).mp (hfree name hname).1
    · intro name hname other hother hvalue
      apply hinjective name hname other hother
      rw [cameraID_of_plain (h name hname), cameraID_of_plain (h other hother), hvalue]
  · rintro ⟨hsmall, hinjective⟩
    constructor
    · intro name hname
      have hne : cameraID hash name ≠ noCamera :=
        (cameraID_ne_iff (h name hname)).mpr (hsmall name hname)
      exact ⟨hne, List.not_mem_nil⟩
    · intro name hname other hother hid
      apply hinjective name hname other hother
      rwa [cameraID_of_lt (h name hname) (hsmall name hname),
        cameraID_of_lt (h other hother) (hsmall other hother)] at hid

/-- Two cameras, of which the second is named once more with a zero before its numeral. -/
theorem numerals_kept_apart_iff_zero :
    (∀ name ∈ [['0'], ['1'], ['0', '1']], Plain name) ∧
      ¬KeptApart (fun _ => 0) (initial fun _ => {}) [['0'], ['1'], ['0', '1']] := by
  have hplain : ∀ name ∈ [['0'], ['1'], ['0', '1']], Plain name := by
    intro name hname
    have hcases : name = ['0'] ∨ name = ['1'] ∨ name = ['0', '1'] := by simpa using hname
    obtain rfl | rfl | rfl := hcases <;> exact ⟨by simp, by simp⟩
  refine ⟨hplain, ?_⟩
  rw [numerals_kept_apart_iff _ _ _ hplain]
  rintro ⟨_, hinjective⟩
  have heq := hinjective ['1'] (by simp) ['0', '1'] (by simp) rfl
  simp at heq

end Repository

end ARArch
