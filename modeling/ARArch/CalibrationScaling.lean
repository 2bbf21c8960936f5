import ARArch.Calibration
import Mathlib.Algebra.CharZero.Defs
import Mathlib.Algebra.Order.Ring.Rat
import Mathlib.Tactic.FinCases

/-!
# Scaling a calibration

`scale` goes from the image size that is kept to a new one and keeps that, so that only the last
size of a sequence matters. Every constructor that is given a matrix keeps the size it is given;
that of the parameters keeps none, and the first `scale` reads what no one has assigned. The
principal point of a camera matrix is in its last column, but the class keeps it in the last row, so
that the one in the matrix stays behind.
-/

namespace ARArch.CalibrationValues

variable {d : Numerics ℚ} {c c' : CalibrationValues ℚ} {A : Matrix33 ℚ} {w h : ℤ} {sx sy tx ty : ℚ}

/-- The camera matrix for images that are `sx` times as wide and `sy` times as high: the focal
length and the principal point of a direction are in one row. -/
def scaledBy (sx sy : ℚ) (A : Matrix33 ℚ) : Matrix33 ℚ := fun i j =>
  if i = 0 ∧ j ≠ 1 then A i j * sx
  else if i = 1 ∧ j ≠ 0 then A i j * sy
  else A i j

/-- What `scale` makes of the elements, where those of a direction are in one column. -/
def columnsScaledBy (sx sy : ℚ) (A : Matrix33 ℚ) : Matrix33 ℚ := fun i j =>
  if j = 0 ∧ i ≠ 1 then A i j * sx
  else if j = 1 ∧ i ≠ 0 then A i j * sy
  else A i j

theorem columnsScaledBy_one : columnsScaledBy 1 1 A = A := by
  funext i j
  simp only [columnsScaledBy, mul_one, ite_self]

theorem columnsScaledBy_columnsScaledBy :
    columnsScaledBy tx ty (columnsScaledBy sx sy A) = columnsScaledBy (sx * tx) (sy * ty) A := by
  funext i j
  simp only [columnsScaledBy]
  split_ifs
  · exact mul_assoc _ _ _
  · exact mul_assoc _ _ _
  · rfl

/-- In a direction that is scaled there must be no principal point, in either place. -/
theorem columnsScaledBy_eq_scaledBy_iff : columnsScaledBy sx sy A = scaledBy sx sy A ↔
    (sx = 1 ∨ A 0 2 = 0 ∧ A 2 0 = 0) ∧ (sy = 1 ∨ A 1 2 = 0 ∧ A 2 1 = 0) := by
  constructor
  · intro h
    have hcx : A 0 2 = A 0 2 * sx := congrFun (congrFun h 0) 2
    have hcx' : A 2 0 * sx = A 2 0 := congrFun (congrFun h 2) 0
    have hcy : A 1 2 = A 1 2 * sy := congrFun (congrFun h 1) 2
    have hcy' : A 2 1 * sy = A 2 1 := congrFun (congrFun h 2) 1
    rw [eq_comm, mul_right_eq_self₀] at hcx hcy
    rw [mul_right_eq_self₀] at hcx' hcy'
    tauto
  · rintro ⟨hx, hy⟩
    funext i j
    fin_cases i <;> fin_cases j <;> simp [columnsScaledBy, scaledBy] <;> grind

/-- The object is for images of this size, and `K` and the distortion are as `init` leaves them. -/
structure Sized (c : CalibrationValues ℚ) (w h : ℤ) : Prop where
  intrinsics : c.intrinsics = .ofMatrix c.K
  distortion_rows : 0 < c.distortion.rows
  distortion_cols : c.distortion.cols = 1
  imageWidth : c.imageWidth = some w
  imageHeight : c.imageHeight = some h

/-! ### `init` -/

theorem columnOf_of_column {m : CvMat ℚ} (hrows : 0 < m.rows) (hcols : m.cols = 1) :
    columnOf m = m := by
  have hfull : m.empty = false := by
    simp only [CvMat.empty, hcols]
    simpa using Nat.ne_of_gt hrows
  have hle : ¬m.rows < m.cols := by omega
  rw [columnOf, hfull, if_neg Bool.false_ne_true, if_neg hle]

theorem rows_columnOf {m : CvMat ℚ} : 0 < (columnOf m).rows := by
  unfold columnOf
  split
  · exact Nat.succ_pos 4
  next hfull =>
    have hpos : m.rows ≠ 0 ∧ m.cols ≠ 0 := by simpa [CvMat.empty] using hfull
    split
    · exact Nat.pos_of_ne_zero hpos.2
    · exact Nat.pos_of_ne_zero hpos.1

/-- What `init(false)` leaves as it is. -/
structure InitKeeps (c c' : CalibrationValues ℚ) : Prop where
  intrinsics : c'.intrinsics = c.intrinsics
  K : c'.intrinsics = .ofMatrix c'.K
  distortion : c'.distortion = columnOf c.distortion
  distortion_cols : c'.distortion.cols = 1
  imageWidth : c'.imageWidth = c.imageWidth
  imageHeight : c'.imageHeight = c.imageHeight

theorem InitKeeps.sized (hkeep : InitKeeps c c') (hwidth : c.imageWidth = some w)
    (hheight : c.imageHeight = some h) : Sized c' w h where
  intrinsics := hkeep.K
  distortion_rows := hkeep.distortion ▸ rows_columnOf
  distortion_cols := hkeep.distortion_cols
  imageWidth := hkeep.imageWidth.trans hwidth
  imageHeight := hkeep.imageHeight.trans hheight

theorem init_keeps (hinit : init d false c = .ok c') : InitKeeps c c' := by
  simp only [init, Bool.false_eq_true, if_false] at hinit
  obtain ⟨inverse, -, hinit⟩ := bind_eq_ok.mp hinit
  obtain ⟨matrix, -, hinit⟩ := bind_eq_ok.mp hinit
  obtain ⟨K, hK, hinit⟩ := bind_eq_ok.mp hinit
  obtain ⟨D, hD, hinit⟩ := bind_eq_ok.mp hinit
  cases hinit
  exact ⟨rfl, CvMat.toMatrix33_eq_ok.mp hK, rfl, CvMat.cols_of_toColumn hD, rfl, rfl⟩

theorem init_succeeds (hA : c.intrinsics = .ofMatrix A)
    (hcols : (columnOf c.distortion).cols = 1) : ∃ c', init d false c = .ok c' := by
  obtain ⟨inverse, hinverse⟩ := CvMat.inv_ofMatrix (d := d) (A := A)
  obtain ⟨xs, hxs⟩ := CvMat.toColumn_of_cols hcols
  have hmatrix : (CvMat.ofMatrix A).toMatrix33 = .ok A := rfl
  simp only [init, toEigen, Bool.false_eq_true, if_false, hA, hinverse, hmatrix, hxs]
  exact ⟨_, rfl⟩

theorem fromEigen_spec : (c.fromEigen d).intrinsics = .ofMatrix (c.fromEigen d).K ∧
    (c.fromEigen d).imageWidth = c.imageWidth ∧ (c.fromEigen d).imageHeight = c.imageHeight ∧
      (c.D ≠ [] ∧ (c.fromEigen d).distortion = .ofColumn c.D ∨
        (c.fromEigen d).distortion = c.distortion) := by
  unfold fromEigen
  dsimp only
  split
  next hlength => exact ⟨rfl, rfl, rfl, .inl ⟨List.ne_nil_of_length_pos hlength, rfl⟩⟩
  · exact ⟨rfl, rfl, rfl, .inr rfl⟩

/-- The distortion of Eigen is a column, or left out. -/
theorem init_eigen_sized (hinit : init d true c = .ok c') (hdistortion : c.distortion = .null)
    (hwidth : c.imageWidth = some w) (hheight : c.imageHeight = some h) : Sized c' w h := by
  simp only [init, if_true] at hinit
  obtain ⟨inverse, -, hinit⟩ := bind_eq_ok.mp hinit
  obtain ⟨matrix, -, hinit⟩ := bind_eq_ok.mp hinit
  cases hinit
  obtain ⟨hK, hwidth', hheight', hcolumn⟩ := fromEigen_spec (d := d) (c := c)
  have hcols : (columnOf (c.fromEigen d).distortion).cols = 1 := by
    obtain ⟨hD, hcolumn⟩ | hnull := hcolumn
    · rw [hcolumn, columnOf_of_column (List.length_pos_of_ne_nil hD) rfl]
      rfl
    · rw [hnull, hdistortion]
      rfl
  exact ⟨hK, rows_columnOf, hcols, hwidth'.trans hwidth, hheight'.trans hheight⟩

/-! ### `scale` -/

def withIntrinsics (fx fy cx cy : ℚ) (A : Matrix33 ℚ) : Matrix33 ℚ := fun i j =>
  if i.val = 2 ∧ j.val = 1 then cy
  else if i.val = 2 ∧ j.val = 0 then cx
  else if i.val = 1 ∧ j.val = 1 then fy
  else if i.val = 0 ∧ j.val = 0 then fx
  else A i j

theorem setDistortion_zero {m : CvMat ℚ} : setDistortion 0 0 0 0 0 m = .ok m := by
  simp only [setDistortion, ne_eq, not_true_eq_false, or_self, if_false]
  rfl

/-- Without coefficients `set` leaves the distortion to `init`. -/
theorem set_of_matrix (fx fy cx cy : ℚ) (hA : c.intrinsics = .ofMatrix A) :
    set d fx fy cx cy 0 0 0 0 0 c =
      init d false { c with intrinsics := .ofMatrix (withIntrinsics fx fy cx cy A) } := by
  have hfull : (CvMat.ofMatrix A).empty = false := rfl
  simp only [set, hA, hfull, Bool.false_eq_true, if_false, setDistortion_zero]
  rfl

theorem withIntrinsics_eq_columnsScaledBy :
    withIntrinsics (A 0 0 * sx) (A 1 1 * sy) (A 2 0 * sx) (A 2 1 * sy) A =
      columnsScaledBy sx sy A := by
  funext i j
  fin_cases i <;> fin_cases j <;> rfl

theorem getIntrinsic_of_sized (hc : Sized c w h) (i j : Fin 3) :
    getIntrinsic d i j c = .ok (c.K i j) := by
  have hfull : (CvMat.ofMatrix c.K).empty = false := rfl
  rw [getIntrinsic, hc.intrinsics, hfull, if_neg Bool.false_ne_true]
  exact dif_pos ⟨i.isLt, j.isLt⟩

theorem getters_of_sized (hc : Sized c w h) : getFx d c = .ok (c.K 0 0) ∧
    getFy d c = .ok (c.K 1 1) ∧ getCx d c = .ok (c.K 2 0) ∧ getCy d c = .ok (c.K 2 1) :=
  ⟨getIntrinsic_of_sized hc 0 0, getIntrinsic_of_sized hc 1 1, getIntrinsic_of_sized hc 2 0,
    getIntrinsic_of_sized hc 2 1⟩

/-- New intrinsics and a new size for an object that is initialised. -/
theorem init_of_sized {next : CalibrationValues ℚ} {w' h' : ℤ} (hc : Sized c w h)
    (hA : next.intrinsics = .ofMatrix A) (hdistortion : next.distortion = c.distortion)
    (hwidth : next.imageWidth = some w') (hheight : next.imageHeight = some h') :
    ∃ c', init d false next = .ok c' ∧ Sized c' w' h' ∧ c'.K = A ∧
      c'.distortion = c.distortion := by
  have hcolumn : columnOf next.distortion = c.distortion := by
    rw [hdistortion]
    exact columnOf_of_column hc.distortion_rows hc.distortion_cols
  have hcols : (columnOf next.distortion).cols = 1 := by
    rw [hcolumn]
    exact hc.distortion_cols
  obtain ⟨c', hinit⟩ := init_succeeds (d := d) hA hcols
  have hkeep := init_keeps hinit
  have hmatrix : CvMat.ofMatrix c'.K = .ofMatrix A :=
    hkeep.K.symm.trans (hkeep.intrinsics.trans hA)
  have hK : c'.K = A := by
    injection hmatrix
  exact ⟨c', hinit, hkeep.sized hwidth hheight, hK, hkeep.distortion.trans hcolumn⟩

/-- One call of `scale`. -/
theorem scale_sized (hc : Sized c w h) (w' h' : ℤ) : ∃ c', scale d w' h' c = .ok c' ∧
    Sized c' w' h' ∧ c'.K = columnsScaledBy (w' / w) (h' / h) c.K ∧
      c'.distortion = c.distortion := by
  have hfull : (CvMat.ofMatrix c.K).empty = false := rfl
  obtain ⟨hfx, hfy, hcx, hcy⟩ := getters_of_sized (d := d) hc
  have hratio (a b b' : ℚ) : a / b * b' = a * (b' / b) := by
    rw [div_mul_eq_mul_div, mul_div_assoc]
  let next : CalibrationValues ℚ := { c with
    intrinsics := .ofMatrix (columnsScaledBy (w' / w) (h' / h) c.K)
    imageWidth := some w', imageHeight := some h' }
  have hscale : scale d w' h' c = init d false next := by
    simp only [scale, hc.intrinsics, hfull, hc.imageWidth, hc.imageHeight, hfx, hfy, hcx, hcy,
      assigned, hratio]
    have hset := set_of_matrix (d := d) (A := c.K) (c := { c with
        intrinsics := .ofMatrix c.K, imageWidth := some w', imageHeight := some h' })
      (c.K 0 0 * (w' / w)) (c.K 1 1 * (h' / h)) (c.K 2 0 * (w' / w)) (c.K 2 1 * (h' / h)) rfl
    rw [withIntrinsics_eq_columnsScaledBy] at hset
    exact hset
  rw [hscale]
  exact init_of_sized hc rfl rfl rfl rfl

def scales (d : Numerics ℚ) (sizes : List (ℤ × ℤ)) (c : CalibrationValues ℚ) :
    Except CvFault (CalibrationValues ℚ) :=
  sizes.foldlM (fun c size => scale d size.1 size.2 c) c

/-- The run: what the sizes in between do cancels out. -/
theorem scales_sized {sizes : List (ℤ × ℤ)} (hc : Sized c w h) (hw : w ≠ 0) (hh : h ≠ 0)
    (hsizes : ∀ size ∈ sizes, 0 < size.1 ∧ 0 < size.2) (w' h' : ℤ) :
    ∃ c', scales d (sizes ++ [(w', h')]) c = .ok c' ∧ Sized c' w' h' ∧
      c'.K = columnsScaledBy (w' / w) (h' / h) c.K ∧ c'.distortion = c.distortion := by
  induction sizes generalizing c w h with
  | nil =>
    obtain ⟨c', hscale, hc'⟩ := scale_sized (d := d) hc w' h'
    refine ⟨c', ?_, hc'⟩
    rw [List.nil_append, scales, List.foldlM_cons, hscale]
    rfl
  | cons size sizes ih =>
    rw [List.forall_mem_cons] at hsizes
    obtain ⟨⟨hwidth, hheight⟩, hsizes⟩ := hsizes
    obtain ⟨c₁, hscale, hc₁, hK₁, hdistortion₁⟩ := scale_sized (d := d) hc size.1 size.2
    obtain ⟨c', hrest, hc', hK', hdistortion'⟩ := ih hc₁ hwidth.ne' hheight.ne' hsizes
    refine ⟨c', ?_, hc', ?_, hdistortion'.trans hdistortion₁⟩
    · rw [List.cons_append, scales, List.foldlM_cons, hscale]
      exact hrest
    · have hw₁ : (size.1 : ℚ) ≠ 0 := Int.cast_ne_zero.mpr hwidth.ne'
      have hh₁ : (size.2 : ℚ) ≠ 0 := Int.cast_ne_zero.mpr hheight.ne'
      have hcancel (a b b' : ℚ) (hb : b ≠ 0) : b / a * (b' / b) = b' / a := by
        rw [mul_comm, div_mul_div_cancel₀ hb]
      rw [hK', hK₁, columnsScaledBy_columnsScaledBy, hcancel _ _ _ hw₁, hcancel _ _ _ hh₁]

/-! ### The constructors -/

namespace Construction

def width : Construction ℚ → ℤ
  | .mat _ width _ _ _ _ => width
  | .matx _ width _ _ _ _ => width
  | .eigen _ width _ _ _ _ => width
  | .parameters _ _ _ _ width _ _ _ _ _ _ _ _ => width

def height : Construction ℚ → ℤ
  | .mat _ _ height _ _ _ => height
  | .matx _ _ height _ _ _ => height
  | .eigen _ _ height _ _ _ => height
  | .parameters _ _ _ _ _ height _ _ _ _ _ _ _ => height

def takesMatrix : Construction ℚ → Bool
  | .mat .. => true
  | .matx .. => true
  | .eigen .. => true
  | .parameters .. => false

/-- The camera matrix of the intrinsics that are given; one that is not 3x3 builds no object. -/
def cameraMatrix : Construction ℚ → Matrix33 ℚ
  | .mat intrinsics _ _ _ _ _ => intrinsics.toMatrix33.toOption.getD 0
  | .matx intrinsics _ _ _ _ _ => intrinsics
  | .eigen intrinsics _ _ _ _ _ => intrinsics
  | .parameters fx fy cx cy _ _ _ _ _ _ _ _ _ => !![fx, 0, cx; 0, fy, cy; 0, 0, 1]

/-- In a direction in which the size changes the principal point is zero. -/
structure Scalable (k : Construction ℚ) (w' h' : ℤ) : Prop where
  takesMatrix : k.takesMatrix = true
  cx : w' = k.width ∨ k.cameraMatrix 0 2 = 0 ∧ k.cameraMatrix 2 0 = 0
  cy : h' = k.height ∨ k.cameraMatrix 1 2 = 0 ∧ k.cameraMatrix 2 1 = 0

end Construction

/-- The intrinsics of `c` in `c'`, scaled, and with them the camera matrix `A`. -/
structure Scaled (d : Numerics ℚ) (A : Matrix33 ℚ) (sx sy : ℚ) (c c' : CalibrationValues ℚ) :
    Prop where
  fx : getFx d c' = (fun fx => fx * sx) <$> getFx d c
  fy : getFy d c' = (fun fy => fy * sy) <$> getFy d c
  cx : getCx d c' = (fun cx => cx * sx) <$> getCx d c
  cy : getCy d c' = (fun cy => cy * sy) <$> getCy d c
  distortion : c'.distortion = c.distortion
  intrinsics : c'.intrinsics = .ofMatrix c'.K
  K : c'.K = scaledBy sx sy A

/-- Scaling through `sizes` to `(w', h')` scales what the constructor was given by the last size and
the first, and restores it if they are the same. -/
def ScalesTo (d : Numerics ℚ) (k : Construction ℚ) (sizes : List (ℤ × ℤ)) (w' h' : ℤ)
    (c : CalibrationValues ℚ) : Prop :=
  ∃ c', scales d (sizes ++ [(w', h')]) c = .ok c' ∧
    Scaled d k.cameraMatrix (w' / k.width) (h' / k.height) c c' ∧
    (w' = k.width → h' = k.height → c'.intrinsics = c.intrinsics ∧ c'.K = c.K)

theorem getters_scaled {w' h' : ℤ} (hc : Sized c w h) (hc' : Sized c' w' h')
    (hK : c'.K = columnsScaledBy sx sy c.K) :
    getFx d c' = (fun fx => fx * sx) <$> getFx d c ∧
      getFy d c' = (fun fy => fy * sy) <$> getFy d c ∧
      getCx d c' = (fun cx => cx * sx) <$> getCx d c ∧
      getCy d c' = (fun cy => cy * sy) <$> getCy d c := by
  have hget (i j : Fin 3) : getIntrinsic d i j c' = .ok (columnsScaledBy sx sy c.K i j) := by
    rw [getIntrinsic_of_sized hc', hK]
  obtain ⟨hfx, hfy, hcx, hcy⟩ := getters_of_sized (d := d) hc
  rw [hfx, hfy, hcx, hcy]
  exact ⟨hget 0 0, hget 1 1, hget 2 0, hget 2 1⟩

theorem build_sized {k : Construction ℚ} (hbuild : k.build d = .ok c) (hk : k.takesMatrix = true) :
    Sized c k.width k.height := by
  cases k with
  | mat intrinsics width height distortion rmserr totalerr =>
    exact (init_keeps hbuild).sized rfl rfl
  | matx intrinsics width height distortion rmserr totalerr =>
    exact (init_keeps hbuild).sized rfl rfl
  | eigen intrinsics width height distortion rmserr totalerr =>
    exact init_eigen_sized hbuild rfl rfl rfl
  | parameters fx fy cx cy width height k1 k2 k3 p1 p2 rmsError totalError => cases hk

theorem init_eigen_K (hinit : init d true c = .ok c') : c'.K = c.K := by
  simp only [init, if_true] at hinit
  obtain ⟨inverse, -, hinit⟩ := bind_eq_ok.mp hinit
  obtain ⟨matrix, -, hinit⟩ := bind_eq_ok.mp hinit
  cases hinit
  unfold fromEigen
  dsimp only
  split <;> rfl

/-- `K` is the matrix that was given. -/
theorem build_K {k : Construction ℚ} (hbuild : k.build d = .ok c) (hk : k.takesMatrix = true) :
    c.K = k.cameraMatrix := by
  cases k with
  | mat intrinsics width height distortion rmserr totalerr =>
    have hkeep := init_keeps hbuild
    have hgiven : intrinsics = .ofMatrix c.K := hkeep.intrinsics.symm.trans hkeep.K
    rw [Construction.cameraMatrix, hgiven]
    rfl
  | matx intrinsics width height distortion rmserr totalerr =>
    have hkeep := init_keeps hbuild
    have hgiven : CvMat.ofMatrix intrinsics = .ofMatrix c.K := hkeep.intrinsics.symm.trans hkeep.K
    injection hgiven with _ _ hgiven
    exact hgiven.symm
  | eigen => exact init_eigen_K hbuild
  | parameters => cases hk

/-- What a matrix is scaled to is right exactly where no principal point has to be moved. -/
theorem scalesTo_of_matrix {k : Construction ℚ} {sizes : List (ℤ × ℤ)} {w' h' : ℤ}
    (hbuild : k.build d = .ok c) (hk : k.takesMatrix = true) (hwidth : 0 < k.width)
    (hheight : 0 < k.height) (hsizes : ∀ size ∈ sizes, 0 < size.1 ∧ 0 < size.2) :
    ScalesTo d k sizes w' h' c ↔ k.Scalable w' h' := by
  have hc := build_sized hbuild hk
  obtain ⟨c', hscales, hc', hK, hdistortion⟩ :=
    scales_sized (d := d) hc hwidth.ne' hheight.ne' hsizes w' h'
  have hw : (k.width : ℚ) ≠ 0 := Int.cast_ne_zero.mpr hwidth.ne'
  have hh : (k.height : ℚ) ≠ 0 := Int.cast_ne_zero.mpr hheight.ne'
  have hscalable : c'.K = scaledBy (w' / k.width) (h' / k.height) k.cameraMatrix ↔
      k.Scalable w' h' := by
    rw [hK, build_K hbuild hk, columnsScaledBy_eq_scaledBy_iff, div_eq_one_iff_eq hw,
      div_eq_one_iff_eq hh, Int.cast_inj, Int.cast_inj]
    exact ⟨fun h => ⟨hk, h.1, h.2⟩, fun h => ⟨h.cx, h.cy⟩⟩
  rw [← hscalable]
  constructor
  · rintro ⟨c'', hscales', hscaled, -⟩
    obtain rfl : c' = c'' := Except.ok.inj (hscales.symm.trans hscales')
    exact hscaled.K
  · intro hK'
    obtain ⟨hfx, hfy, hcx, hcy⟩ := getters_scaled (d := d) hc hc' hK
    refine ⟨c', hscales, ⟨hfx, hfy, hcx, hcy, hdistortion, hc'.intrinsics, hK'⟩, ?_⟩
    rintro rfl rfl
    have hback : c'.K = c.K := by
      rw [hK, div_self hw, div_self hh, columnsScaledBy_one]
    exact ⟨by rw [hc'.intrinsics, hc.intrinsics, hback], hback⟩

theorem set_keeps {fx fy cx cy k1 k2 k3 p1 p2 : ℚ}
    (hset : set d fx fy cx cy k1 k2 k3 p1 p2 c = .ok c') :
    c'.intrinsics = .ofMatrix c'.K ∧ c'.imageWidth = c.imageWidth := by
  obtain ⟨m₁, -, hset⟩ := bind_eq_ok.mp hset
  obtain ⟨m₂, -, hset⟩ := bind_eq_ok.mp hset
  obtain ⟨m₃, -, hset⟩ := bind_eq_ok.mp hset
  obtain ⟨m₄, -, hset⟩ := bind_eq_ok.mp hset
  obtain ⟨distortion, -, hinit⟩ := bind_eq_ok.mp hset
  exact ⟨(init_keeps hinit).K, (init_keeps hinit).imageWidth⟩

/-- The size is not among what the constructor of the parameters keeps. -/
theorem build_unsized {k : Construction ℚ} (hbuild : k.build d = .ok c)
    (hk : k.takesMatrix = false) : c.intrinsics = .ofMatrix c.K ∧ c.imageWidth = none := by
  cases k with
  | mat | matx | eigen => cases hk
  | parameters => exact set_keeps hbuild

theorem scale_unsized (hK : c.intrinsics = .ofMatrix c.K) (hwidth : c.imageWidth = none)
    (w' h' : ℤ) : scale d w' h' c = .error .indeterminate := by
  have hfull : (CvMat.ofMatrix c.K).empty = false := rfl
  rw [scale, hK, hfull, if_neg Bool.false_ne_true, hwidth]
  rfl

theorem not_scalesTo_of_unsized {k : Construction ℚ} {sizes : List (ℤ × ℤ)} {w' h' : ℤ}
    (hK : c.intrinsics = .ofMatrix c.K) (hwidth : c.imageWidth = none) :
    ¬ScalesTo d k sizes w' h' c := by
  rintro ⟨c', hscales, -⟩
  obtain ⟨size, rest, hsplit⟩ : ∃ size rest, sizes ++ [(w', h')] = size :: rest :=
    List.exists_cons_of_ne_nil (List.append_ne_nil_of_right_ne_nil _ (List.cons_ne_nil _ _))
  rw [hsplit, scales, List.foldlM_cons, scale_unsized hK hwidth] at hscales
  cases hscales

end ARArch.CalibrationValues
