import ARArch.Faces

/-!
# The coordinates of a face

Between the classifier and the screen a face is a `cv::Rect`, a `DetectRect`, a `cv::Rect` again
and the record that is stored. Both detectors give `top` for `x` and `left` for `y` when they build
the second `cv::Rect`, and `drawBB` gives `top` for the `x` of a point, so that the two swaps
cancel for the position of a drawn box, but not for its size. The image of an overlay has one swap
only.
-/

namespace ARArch

/-- A pixel of `CV_8UC4`. -/
abbrev Pixel := BitVec 32

/-- `cv::Mat`, with the pixel at a row and a column. -/
structure Mat where
  rows : ℤ
  cols : ℤ
  pixel : ℤ → ℤ → Pixel

/-- `cv::Rect::operator&`. -/
def Rect.inter (a b : Rect) : Rect :=
  let x := max a.x b.x
  let y := max a.y b.y
  let width := min (a.x + a.width) (b.x + b.width) - x
  let height := min (a.y + a.height) (b.y + b.height) - y
  if width ≤ 0 ∨ height ≤ 0 then {} else ⟨x, y, width, height⟩

/-- `cv::Mat::operator()`. -/
def Mat.crop (m : Mat) (roi : Rect) : Mat :=
  ⟨roi.height, roi.width, fun row col => m.pixel (roi.y + row) (roi.x + col)⟩

/-- Two images of one size that agree at every pixel. -/
def Mat.Same (m m' : Mat) : Prop :=
  m.rows = m'.rows ∧ m.cols = m'.cols ∧
    ∀ row col, 0 ≤ row → row < m.rows → 0 ≤ col → col < m.cols → m.pixel row col = m'.pixel row col

/-- The `cv::Rect` that both detectors build from the bounds of a face. -/
def faceRoi (faceBB : DetectRect ℤ) : Rect :=
  ⟨faceBB.top, faceBB.left, faceBB.width, faceBB.height⟩

/-- A `DetectedBoundingBox` with its bounds; a bound is a `double` that holds an integer. -/
structure StoredBox where
  seqno : ℕ
  cameraId : ℕ
  BB : DetectRect ℤ

/-- A `DetectedROI` with its bounds, and the image in place of its address. -/
structure StoredROI where
  image : Mat
  BB : DetectRect ℤ
  cameraId : ℕ
  seqno : ℕ

/-- What `FaceTBBDetector` stores for the answer of `find_face`. -/
def faceRecord (seqno cameraId : ℕ) (answer : Bool × DetectRect ℤ) : Option StoredBox :=
  if answer.1 then
    let roi := faceRoi answer.2
    some ⟨seqno, cameraId, .new roi.y roi.x (roi.y + roi.height) (roi.x + roi.width)⟩
  else none

/-- What `FaceOverlayTBBDetector` stores for the answer of `find_face` about a frame. -/
def overlayRecord (seqno cameraId : ℕ) (rgba : Mat) (answer : Bool × DetectRect ℤ) :
    Option StoredROI :=
  if answer.1 then
    let roi := faceRoi answer.2
    let croppedRoi := roi.inter ⟨0, 0, rgba.cols, rgba.rows⟩
    some ⟨rgba.crop croppedRoi, .new roi.y roi.x (roi.y + roi.height) (roi.x + roi.width),
      cameraId, seqno⟩
  else none

/-- `cv::Point2d`. -/
structure Point where
  x : ℤ
  y : ℤ
  deriving DecidableEq

/-- The corners that `drawBB` gives to `cv::rectangle`. -/
def drawBB (top left bottom right : ℤ) : Point × Point :=
  (⟨top, left⟩, ⟨bottom, right⟩)

/-- The corners of the box that `draw` draws for a record. -/
def StoredBox.drawn (bb : StoredBox) : Point × Point :=
  drawBB bb.BB.top bb.BB.left bb.BB.bottom bb.BB.right

/-- `find_face` answers with a rectangle. -/
def Selects (faces : List Rect) (minArea : ℤ) (r : Rect) : Prop :=
  findFace true (some faces) minArea = (true, r.bounds)

def Rect.Within (r : Rect) (width height : ℤ) : Prop :=
  0 ≤ r.x ∧ 0 ≤ r.y ∧ 0 ≤ r.width ∧ 0 ≤ r.height ∧ r.x + r.width ≤ width ∧ r.y + r.height ≤ height

instance (r : Rect) (width height : ℤ) : Decidable (r.Within width height) :=
  inferInstanceAs (Decidable (_ ∧ _))

/-- The box that is drawn for a rectangle has its corners. -/
def BoxSurvives (r : Rect) : Prop :=
  ∀ faces seqno cameraId, Selects faces 90000 r →
    ∃ bb, faceRecord seqno cameraId (findFace true (some faces) 90000) = some bb ∧
      bb.drawn = (⟨r.x, r.y⟩, ⟨r.x + r.width, r.y + r.height⟩)

/-- The image that is stored for a rectangle is that part of the frame. -/
def ImageSurvives (width height : ℤ) (r : Rect) : Prop :=
  ∀ faces seqno cameraId (rgba : Mat), rgba.cols = width → rgba.rows = height →
    Selects faces 20000 r →
    ∃ roi, overlayRecord seqno cameraId rgba (findFace true (some faces) 20000) = some roi ∧
      roi.image.Same (rgba.crop r)

variable {faces : List Rect} {minArea width height : ℤ} {r r' : Rect}

theorem area_of_selects (h : Selects faces minArea r) : minArea ≤ r.area := by
  unfold Selects at h
  rw [findFace_eq] at h
  cases hlast : lastLargeEnough faces minArea with
  | none =>
      rw [hlast, if_neg (by decide)] at h
      exact absurd (congrArg Prod.fst h) Bool.false_ne_true
  | some q =>
      rw [hlast, Option.getD_some] at h
      have hle : max minArea 0 ≤ q.area := (lastLargeEnough_mem hlast).2
      split_ifs at h with hpos
      · have hqr : q = r := bounds_injective (congrArg Prod.snd h)
        rw [← hqr]
        omega
      · exact absurd (congrArg Prod.fst h) Bool.false_ne_true

/-- A rectangle that is large enough is selected where it is the only one. -/
theorem selects_of_area (hpos : 0 < r.area) (h : minArea ≤ r.area) : Selects [r] minArea r := by
  have hlarge : max minArea 0 ≤ r.area := by omega
  have hlast : lastLargeEnough [r] minArea = some r := by
    unfold lastLargeEnough
    rw [List.filter_cons_of_pos (by simpa using hlarge)]
    rfl
  unfold Selects
  rw [findFace_eq, hlast, Option.getD_some, if_pos hpos]

/-- The rectangle that a detector builds has the coordinates of the face exchanged. -/
theorem faceRoi_bounds (hwidth : 0 ≤ r.width) (hheight : 0 ≤ r.height) :
    faceRoi r.bounds = ⟨r.y, r.x, r.width, r.height⟩ := by
  simp only [faceRoi, Rect.bounds, DetectRect.new, DetectRect.width, DetectRect.height,
    DetectRect.abs, Rect.mk.injEq, true_and]
  constructor
  · split_ifs <;> omega
  · split_ifs <;> omega

theorem faceRecord_drawn (seqno cameraId : ℕ) (h : Selects faces minArea r)
    (hr : r.Within width height) :
    ∃ bb, faceRecord seqno cameraId (findFace true (some faces) minArea) = some bb ∧
      bb.drawn = (⟨r.x, r.y⟩, ⟨r.x + r.height, r.y + r.width⟩) := by
  obtain ⟨-, -, hwidth, hheight, -, -⟩ := hr
  rw [h, faceRecord, if_pos rfl]
  refine ⟨_, rfl, ?_⟩
  rw [faceRoi_bounds hwidth hheight]
  rfl

theorem box_survives_iff (hr : r.Within width height) :
    BoxSurvives r ↔ (90000 ≤ r.area → r.width = r.height) := by
  constructor
  · intro hsurvives hlarge
    have hselects : Selects [r] 90000 r := selects_of_area (by omega) hlarge
    obtain ⟨bb, hbb, hright⟩ := hsurvives [r] 0 0 hselects
    obtain ⟨bb', hbb', hdrawn⟩ := faceRecord_drawn 0 0 hselects hr
    have heq : bb' = bb := Option.some.inj (hbb'.symm.trans hbb)
    rw [heq, hright] at hdrawn
    simp only [Prod.mk.injEq, Point.mk.injEq] at hdrawn
    omega
  · intro hsquare faces seqno cameraId hselects
    have heq : r.width = r.height := hsquare (area_of_selects hselects)
    obtain ⟨bb, hbb, hdrawn⟩ := faceRecord_drawn seqno cameraId hselects hr
    refine ⟨bb, hbb, ?_⟩
    rw [hdrawn, heq]

theorem overlayRecord_image (seqno cameraId : ℕ) (rgba : Mat) (h : Selects faces minArea r)
    (hr : r.Within width height) :
    ∃ roi, overlayRecord seqno cameraId rgba (findFace true (some faces) minArea) = some roi ∧
      roi.image = rgba.crop
        (Rect.inter ⟨r.y, r.x, r.width, r.height⟩ ⟨0, 0, rgba.cols, rgba.rows⟩) := by
  obtain ⟨-, -, hwidth, hheight, -, -⟩ := hr
  rw [h, overlayRecord, if_pos rfl]
  refine ⟨_, rfl, ?_⟩
  rw [faceRoi_bounds hwidth hheight]

/-- The sides of a rectangle with an area are positive. -/
theorem sides_pos (hr : r.Within width height) (harea : 0 < r.area) :
    0 < r.width ∧ 0 < r.height := by
  obtain ⟨-, -, hwidth, hheight, -, -⟩ := hr
  have hw : r.width ≠ 0 := by
    intro hzero
    rw [Rect.area, hzero, zero_mul] at harea
    exact lt_irrefl _ harea
  have hh : r.height ≠ 0 := by
    intro hzero
    rw [Rect.area, hzero, mul_zero] at harea
    exact lt_irrefl _ harea
  omega

theorem inter_of_within (hr : r.Within width height) (harea : 0 < r.area) :
    r.inter ⟨0, 0, width, height⟩ = r := by
  obtain ⟨hwidth, hheight⟩ := sides_pos hr harea
  obtain ⟨hx, hy, -, -, hright, hbottom⟩ := hr
  obtain ⟨x, y, w, h⟩ := r
  simp only [Rect.inter] at *
  rw [if_neg (by omega)]
  simp only [Rect.mk.injEq]
  omega

/-- A part of a frame that is as large as the rectangle starts where the rectangle given does. -/
theorem inter_origin {a b : Rect} (hwidth : 0 < (a.inter b).width)
    (hfull : (a.inter b).width = a.width) (hfull' : (a.inter b).height = a.height) :
    (a.inter b).x = a.x ∧ (a.inter b).y = a.y := by
  unfold Rect.inter at *
  dsimp only at *
  split_ifs at * with hempty
  · exact absurd hwidth (lt_irrefl _)
  · dsimp only at *
    omega

/-- A frame that is dark but for one pixel. -/
def oneLight (width height row col : ℤ) : Mat :=
  ⟨height, width, fun i j => if i = row ∧ j = col then 1 else 0⟩

theorem image_survives_iff (hr : r.Within width height) :
    ImageSurvives width height r ↔ (20000 ≤ r.area → r.x = r.y) := by
  constructor
  · intro hsurvives hlarge
    have hpos : 0 < r.area := by omega
    obtain ⟨hwidth, hheight⟩ := sides_pos hr hpos
    have hselects : Selects [r] 20000 r := selects_of_area hpos hlarge
    let rgba := oneLight width height r.y r.x
    obtain ⟨roi, hroi, hrows, hcols, hsame⟩ := hsurvives [r] 0 0 rgba rfl rfl hselects
    obtain ⟨roi', hroi', himage⟩ := overlayRecord_image 0 0 rgba hselects hr
    have heq : roi' = roi := Option.some.inj (hroi'.symm.trans hroi)
    rw [heq] at himage
    rw [himage] at hrows hcols hsame
    simp only [Mat.crop] at hrows hcols hsame
    obtain ⟨hx, hy⟩ := inter_origin (by omega) hcols hrows
    -- the first pixel of the image is the light one
    have hfirst := hsame 0 0 le_rfl (by omega) le_rfl (by omega)
    rw [hx, hy] at hfirst
    by_contra hne
    have hdark : ¬ (r.x + 0 = r.y ∧ r.y + 0 = r.x) := by omega
    have hlight : r.y + 0 = r.y ∧ r.x + 0 = r.x := by omega
    simp only [rgba, oneLight, if_neg hdark, if_pos hlight] at hfirst
    exact absurd hfirst (by decide)
  · intro hdiagonal faces seqno cameraId rgba hcols hrows hselects
    have hlarge : 20000 ≤ r.area := area_of_selects hselects
    have hxy : r.x = r.y := hdiagonal hlarge
    obtain ⟨roi, hroi, himage⟩ := overlayRecord_image seqno cameraId rgba hselects hr
    have hswap : (⟨r.y, r.x, r.width, r.height⟩ : Rect) = r := by
      obtain ⟨x, y, w, h⟩ := r
      simp only [Rect.mk.injEq, and_true] at hxy ⊢
      omega
    rw [hcols, hrows, hswap, inter_of_within hr (by omega)] at himage
    refine ⟨roi, hroi, ?_⟩
    rw [himage]
    exact ⟨rfl, rfl, fun _ _ _ _ _ _ => rfl⟩

/-- A face that is selected keeps its coordinates on the screen if and only if it is a square, and
its image if and only if it lies on the diagonal. -/
theorem face_survives_iff (hr : r.Within width height) :
    BoxSurvives r ∧ ImageSurvives width height r ↔
      (90000 ≤ r.area → r.width = r.height) ∧ (20000 ≤ r.area → r.x = r.y) := by
  rw [box_survives_iff hr, image_survives_iff hr]

theorem face_survives_iff_upright :
    BoxSurvives ⟨50, 50, 300, 400⟩ ∧ ImageSurvives 640 480 ⟨50, 50, 300, 400⟩ ↔
      (90000 ≤ Rect.area ⟨50, 50, 300, 400⟩ → (300 : ℤ) = 400) ∧
        (20000 ≤ Rect.area ⟨50, 50, 300, 400⟩ → (50 : ℤ) = 50) :=
  face_survives_iff (by decide)

/-- A square face beside the diagonal, and an upright one. -/
theorem face_displaced :
    ¬(∀ r : Rect, r.Within 640 480 → BoxSurvives r ∧ ImageSurvives 640 480 r) ∧
      ¬BoxSurvives ⟨100, 0, 300, 400⟩ ∧ ¬ImageSurvives 640 480 ⟨100, 0, 300, 300⟩ := by
  have hbox : ¬BoxSurvives ⟨100, 0, 300, 400⟩ := by
    have hr : Rect.Within ⟨100, 0, 300, 400⟩ 640 480 := by decide
    rw [box_survives_iff hr]
    decide
  have himage : ¬ImageSurvives 640 480 ⟨100, 0, 300, 300⟩ := by
    rw [image_survives_iff (by decide)]
    decide
  refine ⟨fun h => ?_, hbox, himage⟩
  exact hbox (h ⟨100, 0, 300, 400⟩ (by decide)).1

end ARArch
