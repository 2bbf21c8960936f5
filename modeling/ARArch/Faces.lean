import Mathlib.Algebra.Ring.Int.Defs
import Mathlib.Algebra.Order.Group.Int
import Mathlib.Order.Lattice
import Mathlib.Tactic.Common

/-!
# Choosing a face

`find_face` is to choose the largest of the rectangles that the classifier returns. Its loop
compares every area with `minArea` and never raises that bound, so that it ends with the last
rectangle that is large enough, whichever that is.

A frame has less than 2^31 pixels, so that no area overflows.
-/

namespace ARArch

/-- `cv::Rect`. -/
structure Rect where
  x : ℤ := 0
  y : ℤ := 0
  width : ℤ := 0
  height : ℤ := 0
  deriving DecidableEq

def Rect.area (r : Rect) : ℤ := r.width * r.height

structure DetectRect (T : Type) where
  top : T
  left : T
  bottom : T
  right : T
  w : T
  h : T
  deriving DecidableEq

namespace DetectRect

variable {T : Type} [Ring T] [LinearOrder T]

/-- The constructor without arguments. -/
def none : DetectRect T := ⟨-1, -1, -1, -1, 0, 0⟩

def abs (v : T) : T := if v < 0 then -v else v

def new (top left bottom right : T) : DetectRect T :=
  ⟨top, left, bottom, right, abs (right - left), abs (bottom - top)⟩

def width (d : DetectRect T) : T := d.w

def height (d : DetectRect T) : T := d.h

end DetectRect

/-- The loop of `find_face`. -/
def largeEnough (maxArea : ℤ) (faces : List Rect) : Rect :=
  faces.foldl (fun roi cr => if cr.area ≥ maxArea then cr else roi) {}

/-- The bounds that `find_face` gives for a rectangle. -/
def Rect.bounds (roi : Rect) : DetectRect ℤ :=
  .new roi.y roi.x (roi.y + roi.height) (roi.x + roi.width)

/-- `find_face`, with what `detectMultiScale` returns, if the conversion and the detection throw no
exception. -/
def findFace (hasCascade : Bool) (detected : Option (List Rect)) (minArea : ℤ) :
    Bool × DetectRect ℤ :=
  if hasCascade then
    match detected with
    | none => (false, .none)
    | some faces =>
      let maxArea := if minArea ≤ 0 then 0 else minArea
      let roi := largeEnough maxArea faces
      if roi.area > 0 then (true, roi.bounds) else (false, .none)
  else (false, .none)

/-- A face is found if some rectangle has a positive area that is large enough, and then it is a
largest one. -/
def FindsLargest (faces : List Rect) (minArea : ℤ) : Prop :=
  ((findFace true (some faces) minArea).1 = true ↔
      ∃ r ∈ faces, 0 < r.area ∧ max minArea 0 ≤ r.area) ∧
    ((findFace true (some faces) minArea).1 = true →
      ∃ r ∈ faces, (∀ r' ∈ faces, r'.area ≤ r.area) ∧
        (findFace true (some faces) minArea).2 = r.bounds)

/-- The last rectangle that is large enough. -/
def lastLargeEnough (faces : List Rect) (minArea : ℤ) : Option Rect :=
  (faces.filter (fun r => max minArea 0 ≤ r.area)).getLast?

variable {faces : List Rect} {minArea : ℤ} {r r' : Rect}

theorem largeEnough_eq (maxArea : ℤ) :
    largeEnough maxArea faces =
      ((faces.filter (fun r => maxArea ≤ r.area)).getLast?).getD {} := by
  have hfold (roi : Rect) :
      faces.foldl (fun roi cr => if cr.area ≥ maxArea then cr else roi) roi =
        ((faces.filter (fun r => maxArea ≤ r.area)).getLast?).getD roi := by
    induction faces generalizing roi with
    | nil => rfl
    | cons cr rest ih =>
        rw [List.foldl_cons, ih]
        by_cases hcr : maxArea ≤ cr.area
        · rw [if_pos hcr, List.filter_cons_of_pos (by simpa using hcr), List.getLast?_cons]
          rfl
        · rw [if_neg hcr, List.filter_cons_of_neg (by simpa using hcr)]
  exact hfold {}

/-- The bounds determine the rectangle. -/
theorem bounds_injective (h : r.bounds = r'.bounds) : r = r' := by
  obtain ⟨x, y, width, height⟩ := r
  obtain ⟨x', y', width', height'⟩ := r'
  simp only [Rect.bounds, DetectRect.new, DetectRect.mk.injEq] at h
  obtain ⟨hy, hx, hbottom, hright, -, -⟩ := h
  simp only [Rect.mk.injEq]
  omega

theorem findFace_eq (faces : List Rect) (minArea : ℤ) : findFace true (some faces) minArea =
    if 0 < ((lastLargeEnough faces minArea).getD {}).area then
      (true, ((lastLargeEnough faces minArea).getD {}).bounds) else (false, .none) := by
  have hmax : (if minArea ≤ 0 then 0 else minArea) = max minArea 0 := by
    split_ifs <;> omega
  rw [lastLargeEnough, ← largeEnough_eq, ← hmax]
  rfl

theorem lastLargeEnough_mem (h : lastLargeEnough faces minArea = some r) :
    r ∈ faces ∧ max minArea 0 ≤ r.area := by
  have hmem := List.mem_of_getLast? h
  rw [List.mem_filter] at hmem
  exact ⟨hmem.1, by simpa using hmem.2⟩

theorem not_large_of_lastLargeEnough_none (h : lastLargeEnough faces minArea = none) :
    ∀ r ∈ faces, ¬ max minArea 0 ≤ r.area := by
  intro r hr hle
  have hmem : r ∈ faces.filter (fun r => max minArea 0 ≤ r.area) :=
    List.mem_filter.mpr ⟨hr, by simpa using hle⟩
  rw [List.getLast?_eq_none_iff.mp h] at hmem
  cases hmem

/-- Without a rectangle that is large enough there is no face. -/
theorem finds_largest_of_none (h : lastLargeEnough faces minArea = none) :
    FindsLargest faces minArea := by
  have hfalse : (findFace true (some faces) minArea).1 = false := by
    rw [findFace_eq, h]
    rfl
  constructor
  · rw [hfalse]
    refine iff_of_false Bool.false_ne_true ?_
    rintro ⟨r, hr, -, hle⟩
    exact not_large_of_lastLargeEnough_none h r hr hle
  · intro htrue
    rw [hfalse] at htrue
    cases htrue

/-- The last rectangle that is large enough decides. -/
theorem finds_largest_of_some {q : Rect} (h : lastLargeEnough faces minArea = some q) :
    FindsLargest faces minArea ↔ ∀ r ∈ faces, r.area ≤ q.area := by
  obtain ⟨hq, hle⟩ := lastLargeEnough_mem h
  have hmax : (0 : ℤ) ≤ max minArea 0 := le_max_right _ _
  have hrun := findFace_eq faces minArea
  rw [h, Option.getD_some] at hrun
  by_cases hpos : 0 < q.area
  · rw [if_pos hpos] at hrun
    unfold FindsLargest
    rw [hrun]
    constructor
    · rintro ⟨-, hbounds⟩
      obtain ⟨r, hr, hlargest, heq⟩ := hbounds rfl
      rw [bounds_injective heq]
      exact hlargest
    · intro hlargest
      exact ⟨iff_of_true rfl ⟨q, hq, hpos, hle⟩, fun _ => ⟨q, hq, hlargest, rfl⟩⟩
  · rw [if_neg hpos] at hrun
    unfold FindsLargest
    rw [hrun]
    constructor
    · rintro ⟨hiff, -⟩ r hr
      by_contra hlt
      have hfound : ∃ r ∈ faces, 0 < r.area ∧ max minArea 0 ≤ r.area := ⟨r, hr, by omega, by omega⟩
      exact Bool.false_ne_true (hiff.mpr hfound)
    · intro hlargest
      refine ⟨iff_of_false Bool.false_ne_true ?_, fun htrue => absurd htrue Bool.false_ne_true⟩
      rintro ⟨r, hr, hr', -⟩
      exact hpos (hr'.trans_le (hlargest r hr))

/-- `find_face` chooses a largest face if and only if no rectangle in the list is larger than the
last one that is large enough. -/
theorem finds_largest_iff (faces : List Rect) (minArea : ℤ) :
    FindsLargest faces minArea ↔
      ∀ q, lastLargeEnough faces minArea = some q → ∀ r ∈ faces, r.area ≤ q.area := by
  cases h : lastLargeEnough faces minArea with
  | none => exact iff_of_true (finds_largest_of_none h) nofun
  | some q =>
      rw [finds_largest_of_some h]
      constructor
      · rintro hlargest q' hq'
        cases hq'
        exact hlargest
      · exact fun hall => hall q rfl

/-- A large face and then a small one. -/
theorem smaller_face_found : ¬∀ faces minArea, FindsLargest faces minArea := by
  intro h
  obtain ⟨r, -, hlargest, heq⟩ :=
    (h [⟨0, 0, 400, 400⟩, ⟨500, 0, 300, 300⟩] 90000).2 (by decide)
  have hsmall : r = ⟨500, 0, 300, 300⟩ := by
    apply bounds_injective
    exact heq.symm
  rw [hsmall] at hlargest
  exact absurd (hlargest ⟨0, 0, 400, 400⟩ List.mem_cons_self) (by decide)

end ARArch
