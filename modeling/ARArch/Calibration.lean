import Mathlib.Algebra.Field.Rat
import Mathlib.LinearAlgebra.Matrix.Adjugate
import Mathlib.LinearAlgebra.Matrix.Notation

/-!
# Calibration values

`CalibrationValues` keeps the intrinsics of a camera as a `cv::Mat`, the size of the images they are
for, and the forms of the intrinsics that `init` derives from them. What OpenCV and Eigen compute
with the elements of a matrix is a parameter; that a matrix is shared by several `cv::Mat` is left
out.
-/

namespace ARArch

inductive CvFault
  /-- The exception of a failed `CV_Assert`. -/
  | assertion
  | outOfBounds
  | indeterminate
  deriving DecidableEq

abbrev Matrix33 (α : Type) := Matrix (Fin 3) (Fin 3) α

/-- A `cv::Mat` of type `CV_64FC1` or `CV_32FC1`. -/
structure CvMat (α : Type) where
  rows : ℕ
  cols : ℕ
  elements : Matrix (Fin rows) (Fin cols) α

/-- The NaN, the rounding to `float`, `cv::invert` of a square matrix of doubles, `Matx33f::inv` and
the inverse of Eigen. -/
structure Numerics (α : Type) where
  nan : α
  toFloat : α → α
  invert (n : ℕ) : Matrix (Fin n) (Fin n) α → Matrix (Fin n) (Fin n) α
  invertf : Matrix33 α → Matrix33 α
  inverse : Matrix33 α → Matrix33 α

namespace CvMat

variable {α : Type}

/-- `cv::Mat()` -/
def null : CvMat α := ⟨0, 0, fun i _ => i.elim0⟩

def ofMatrix {r c : ℕ} (A : Matrix (Fin r) (Fin c) α) : CvMat α := ⟨r, c, A⟩

/-- `cv::eigen2cv` of a vector. -/
def ofColumn (xs : List α) : CvMat α := ofMatrix (c := 1) fun i _ => xs.get i

def zeros [Zero α] (r c : ℕ) : CvMat α := ofMatrix (r := r) (c := c) fun _ _ => 0

def eye [Zero α] [One α] (n : ℕ) : CvMat α :=
  ofMatrix (r := n) (c := n) fun i j => if i = j then 1 else 0

def empty (m : CvMat α) : Bool := m.rows = 0 || m.cols = 0

def elementAt (m : CvMat α) (i j : ℕ) : Except CvFault α :=
  if h : i < m.rows ∧ j < m.cols then .ok (m.elements ⟨i, h.1⟩ ⟨j, h.2⟩) else .error .outOfBounds

/-- `m.at<double>(i, j) = v` -/
def set (m : CvMat α) (i j : ℕ) (v : α) : Except CvFault (CvMat α) :=
  if i < m.rows ∧ j < m.cols then
    .ok { m with elements := fun i' j' => if i'.val = i ∧ j'.val = j then v else m.elements i' j' }
  else .error .outOfBounds

def map (f : α → α) (m : CvMat α) : CvMat α := { m with elements := fun i j => f (m.elements i j) }

def t (m : CvMat α) : CvMat α := ⟨m.cols, m.rows, fun i j => m.elements j i⟩

/-- The conversion to a `cv::Matx33d`, `cv::Matx33f` or `Eigen::Matrix3d`. -/
def toMatrix33 : CvMat α → Except CvFault (Matrix33 α)
  | ⟨3, 3, A⟩ => .ok A
  | _ => .error .assertion

/-- `cv::cv2eigen` to a vector. -/
def toColumn : CvMat α → Except CvFault (List α)
  | ⟨_, 1, A⟩ => .ok (List.ofFn fun i => A i 0)
  | _ => .error .assertion

/-- `inv()`, which asserts that the matrix is square. -/
def inv (d : Numerics α) (m : CvMat α) : Except CvFault (CvMat α) :=
  if h : m.rows = m.cols ∧ m.empty = false then
    .ok (ofMatrix (d.invert m.rows fun i j => m.elements i (j.cast h.1)))
  else .error .assertion

theorem toMatrix33_eq_ok {m : CvMat α} {A : Matrix33 α} :
    m.toMatrix33 = .ok A ↔ m = .ofMatrix A := by
  constructor
  · intro h
    unfold toMatrix33 at h
    split at h
    · cases h
      rfl
    · cases h
  · rintro rfl
    rfl

theorem cols_of_toColumn {m : CvMat α} {xs : List α} (h : m.toColumn = .ok xs) : m.cols = 1 := by
  unfold toColumn at h
  split at h
  · rfl
  · cases h

theorem toColumn_of_cols {m : CvMat α} (h : m.cols = 1) : ∃ xs, m.toColumn = .ok xs := by
  obtain ⟨rows, cols, A⟩ := m
  subst h
  exact ⟨_, rfl⟩

theorem inv_ofMatrix {d : Numerics α} {A : Matrix33 α} :
    ∃ m, (ofMatrix A).inv d = .ok m :=
  ⟨_, dif_pos ⟨rfl, rfl⟩⟩

end CvMat

theorem bind_eq_ok {α β : Type} {x : Except CvFault α} {f : α → Except CvFault β} {b : β} :
    x >>= f = .ok b ↔ ∃ a, x = .ok a ∧ f a = .ok b := by
  cases x with
  | error e =>
    constructor
    · intro h
      cases h
    · rintro ⟨a, ha, -⟩
      cases ha
  | ok a =>
    constructor
    · exact fun h => ⟨a, rfl, h⟩
    · rintro ⟨a, ha, h⟩
      cases ha
      exact h

/-- The Eigen matrices have no initial value, but `init` assigns them before they are read. The size
has none either. -/
structure CalibrationValues (α : Type) [Zero α] where
  intrinsics : CvMat α := .null
  distortion : CvMat α := .null
  intrinsicsInverse : CvMat α := .null
  intrinsicsf : CvMat α := .null
  intrinsicsInversef : CvMat α := .null
  distortionf : CvMat α := .null
  intrinsics33d : Matrix33 α := fun _ _ => 0
  intrinsicsInverse33d : Matrix33 α := fun _ _ => 0
  intrinsics33f : Matrix33 α := fun _ _ => 0
  intrinsicsInverse33f : Matrix33 α := fun _ _ => 0
  K : Matrix33 α := fun _ _ => 0
  KI : Matrix33 α := fun _ _ => 0
  Kf : Matrix33 α := fun _ _ => 0
  KIf : Matrix33 α := fun _ _ => 0
  D : List α := []
  Df : List α := []
  imageWidth : Option ℤ := none
  imageHeight : Option ℤ := none
  rmsError : α := 0
  totalError : α := 0

namespace CalibrationValues

variable {α : Type} [Field α] (d : Numerics α)

def cast (A : Matrix33 α) : Matrix33 α := fun i j => d.toFloat (A i j)

/-- The first part of `init(true)`. -/
def fromEigen (c : CalibrationValues α) : CalibrationValues α :=
  let c := { c with
    intrinsics := .ofMatrix c.K
    KI := d.inverse c.K
    Kf := cast d c.K
    KIf := cast d (d.inverse c.K) }
  if c.D.length > 0 then { c with distortion := .ofColumn c.D, Df := c.D.map d.toFloat } else c

/-- The last part of `init(false)`. -/
def toEigen (c : CalibrationValues α) : Except CvFault (CalibrationValues α) := do
  let K ← c.intrinsics.toMatrix33
  let D ← c.distortion.toColumn
  return { c with
    K, D
    KI := d.inverse K
    Kf := cast d K
    KIf := cast d (d.inverse K)
    Df := D.map d.toFloat }

/-- `_distortion` as a column. -/
def columnOf (distortion : CvMat α) : CvMat α :=
  if distortion.empty then .zeros 5 1
  else if distortion.rows < distortion.cols then distortion.t
  else distortion

def init (isEigen : Bool) (c : CalibrationValues α) : Except CvFault (CalibrationValues α) := do
  let c := if isEigen then c.fromEigen d else c
  let inverse ← c.intrinsics.inv d
  let intrinsics33d ← c.intrinsics.toMatrix33
  let distortion := columnOf c.distortion
  let c := { c with
    distortion, intrinsics33d
    intrinsicsf := c.intrinsics.map d.toFloat
    intrinsicsInverse := inverse
    intrinsicsInversef := inverse.map d.toFloat
    distortionf := distortion.map d.toFloat
    intrinsicsInverse33d := d.invert 3 intrinsics33d
    intrinsics33f := cast d intrinsics33d
    intrinsicsInverse33f := d.invertf (cast d intrinsics33d) }
  if isEigen then return c else c.toEigen d

def getIntrinsic (i j : ℕ) (c : CalibrationValues α) : Except CvFault α :=
  if c.intrinsics.empty then .ok d.nan else c.intrinsics.elementAt i j

def getFx : CalibrationValues α → Except CvFault α := getIntrinsic d 0 0

def getFy : CalibrationValues α → Except CvFault α := getIntrinsic d 1 1

def getCx : CalibrationValues α → Except CvFault α := getIntrinsic d 2 0

def getCy : CalibrationValues α → Except CvFault α := getIntrinsic d 2 1

def setIntrinsic (i j : ℕ) (v : α) (c : CalibrationValues α) :
    Except CvFault (CalibrationValues α) := do
  let intrinsics ← (if c.intrinsics.empty then .eye 3 else c.intrinsics).set i j v
  init d false { c with intrinsics }

def setFx : α → CalibrationValues α → Except CvFault (CalibrationValues α) := setIntrinsic d 0 0

def setFy : α → CalibrationValues α → Except CvFault (CalibrationValues α) := setIntrinsic d 1 1

def setCx : α → CalibrationValues α → Except CvFault (CalibrationValues α) := setIntrinsic d 2 0

def setCy : α → CalibrationValues α → Except CvFault (CalibrationValues α) := setIntrinsic d 2 1

section

variable [DecidableEq α]

/-- A coefficient that is zero leaves the element as it is. -/
def setCoefficient (i : ℕ) (k : α) (distortion : CvMat α) : Except CvFault (CvMat α) :=
  if k ≠ 0 then distortion.set i 0 k else .ok distortion

def setDistortion (k1 k2 k3 p1 p2 : α) (distortion : CvMat α) : Except CvFault (CvMat α) := do
  if k1 ≠ 0 ∨ k2 ≠ 0 ∨ p1 ≠ 0 ∨ p2 ≠ 0 ∨ k3 ≠ 0 then
    let distortion ← setCoefficient 0 k1 (if distortion.empty then .zeros 5 1 else distortion)
    let distortion ← setCoefficient 1 k2 distortion
    let distortion ← setCoefficient 2 p1 distortion
    let distortion ← setCoefficient 3 p2 distortion
    setCoefficient 4 k3 distortion
  else return distortion

def set (fx fy cx cy k1 k2 k3 p1 p2 : α) (c : CalibrationValues α) :
    Except CvFault (CalibrationValues α) := do
  let intrinsics ← (if c.intrinsics.empty then .eye 3 else c.intrinsics).set 0 0 fx
  let intrinsics ← intrinsics.set 1 1 fy
  let intrinsics ← intrinsics.set 2 0 cx
  let intrinsics ← intrinsics.set 2 1 cy
  let distortion ← setDistortion k1 k2 k3 p1 p2 c.distortion
  init d false { c with intrinsics, distortion }

/-- Reading a size that no one has assigned. -/
def assigned : Option ℤ → Except CvFault ℤ
  | some n => .ok n
  | none => .error .indeterminate

def scale (newWidth newHeight : ℤ) (c : CalibrationValues α) :
    Except CvFault (CalibrationValues α) := do
  if c.intrinsics.empty then return c
  let width ← assigned c.imageWidth
  let height ← assigned c.imageHeight
  let fx ← getFx d c
  let fy ← getFy d c
  let cx ← getCx d c
  let cy ← getCy d c
  set d (fx / width * newWidth) (fy / height * newHeight) (cx / width * newWidth)
    (cy / height * newHeight) 0 0 0 0 0
    { c with imageWidth := some newWidth, imageHeight := some newHeight }

/-- The constructors with arguments, but for the copy constructor; an argument with a default may be
left out. -/
inductive Construction (α : Type)
  | mat (intrinsics : CvMat α) (width height : ℤ) (distortion : CvMat α) (rmserr totalerr : α)
  | matx (intrinsics : Matrix33 α) (width height : ℤ) (distortion : CvMat α) (rmserr totalerr : α)
  | eigen (intrinsics : Matrix33 α) (width height : ℤ) (distortion : Option (List α))
      (rmserr totalerr : α)
  | parameters (fx fy cx cy : α) (width height : ℤ) (k1 k2 k3 p1 p2 rmsError totalError : α)

/-- The constructor of the parameters uses neither the size nor the errors. -/
def Construction.build : Construction α → Except CvFault (CalibrationValues α)
  | .mat intrinsics width height distortion rmserr totalerr =>
    init d false {
      intrinsics, distortion, imageWidth := some width, imageHeight := some height
      rmsError := rmserr, totalError := totalerr }
  | .matx intrinsics width height distortion rmserr totalerr =>
    init d false {
      intrinsics := .ofMatrix intrinsics, distortion
      imageWidth := some width, imageHeight := some height
      rmsError := rmserr, totalError := totalerr }
  | .eigen intrinsics width height distortion rmserr totalerr =>
    init d true {
      K := intrinsics, D := distortion.getD []
      imageWidth := some width, imageHeight := some height
      rmsError := rmserr, totalError := totalerr }
  | .parameters fx fy cx cy _ _ k1 k2 k3 p1 p2 _ _ =>
    set d fx fy cx cy k1 k2 k3 p1 p2 { intrinsics := .eye 3, distortion := .zeros 5 1 }

end

/-- What the copy operations assign: the distortion goes to the intrinsics, too. -/
def copied (other c : CalibrationValues α) : CalibrationValues α :=
  let c := if other.intrinsics.empty then c else { c with intrinsics := other.intrinsics }
  let c := if other.distortion.empty then c else { c with intrinsics := other.distortion }
  { c with rmsError := other.rmsError, totalError := other.totalError }

def copyConstruct (other : CalibrationValues α) : Except CvFault (CalibrationValues α) :=
  init d false (copied other {})

/-- `isSelf` is `&other == this`. -/
def copyAssign (isSelf : Bool) (other c : CalibrationValues α) :
    Except CvFault (CalibrationValues α) :=
  if isSelf then .ok c else init d false (copied other c)

/-- The object and what is left of the other one. -/
def moveAssign (isSelf : Bool) (other c : CalibrationValues α) :
    Except CvFault (CalibrationValues α × CalibrationValues α) := do
  if isSelf then return (c, other)
  let c ← init d false (copied other c)
  return (c, { other with intrinsics := .null, distortion := .null })

/-- The copy operations; without a target an object is assigned to itself. -/
inductive CopyOperation (α : Type) [Zero α]
  | copyConstruct
  | copyAssign (target : Option (CalibrationValues α))
  | moveAssign (target : Option (CalibrationValues α))

namespace CopyOperation

def isSelf : CopyOperation α → Bool
  | .copyConstruct => false
  | .copyAssign target => target.isNone
  | .moveAssign target => target.isNone

def run (other : CalibrationValues α) : CopyOperation α → Except CvFault (CalibrationValues α)
  | .copyConstruct => CalibrationValues.copyConstruct d other
  | .copyAssign target => CalibrationValues.copyAssign d target.isNone other (target.getD other)
  | .moveAssign target =>
    Prod.fst <$> CalibrationValues.moveAssign d target.isNone other (target.getD other)

end CopyOperation

/-- The intrinsics, the distortion, the size, the errors and the derived matrices are equal. -/
structure SameCalibration (c other : CalibrationValues α) : Prop where
  intrinsics : c.intrinsics = other.intrinsics
  distortion : c.distortion = other.distortion
  imageWidth : c.imageWidth = other.imageWidth
  imageHeight : c.imageHeight = other.imageHeight
  rmsError : c.rmsError = other.rmsError
  totalError : c.totalError = other.totalError
  K : c.K = other.K
  KI : c.KI = other.KI
  Kf : c.Kf = other.Kf
  KIf : c.KIf = other.KIf
  cvKI : c.intrinsicsInverse = other.intrinsicsInverse
  cvKf : c.intrinsicsf = other.intrinsicsf
  cvKIf : c.intrinsicsInversef = other.intrinsicsInversef
  cvKx : c.intrinsics33d = other.intrinsics33d
  cvKIx : c.intrinsicsInverse33d = other.intrinsicsInverse33d
  cvKfx : c.intrinsics33f = other.intrinsics33f
  cvKIfx : c.intrinsicsInverse33f = other.intrinsicsInverse33f

variable {d} {c other : CalibrationValues α}

theorem init_of_not_square (h : c.intrinsics.rows ≠ c.intrinsics.cols) :
    init d false c = .error .assertion := by
  have hinv : c.intrinsics.inv d = .error .assertion := dif_neg fun hsquare => h hsquare.1
  simp only [init, Bool.false_eq_true, if_false, hinv]
  rfl

theorem intrinsics_of_copied (h : other.distortion.empty = false) :
    (copied other c).intrinsics = other.distortion := by
  simp only [copied, h, Bool.false_eq_true, if_false]

/-- The intrinsics are a column when `init` inverts them. -/
theorem init_copied (h : other.distortion.rows = 5 ∧ other.distortion.cols = 1) :
    init d false (copied other c) = .error .assertion := by
  apply init_of_not_square
  have hfull : other.distortion.empty = false := by simp [CvMat.empty, h]
  rw [intrinsics_of_copied hfull, h.1, h.2]
  decide

namespace CopyOperation

variable {operation : CopyOperation α}

theorem run_self (hself : operation.isSelf = true) : operation.run d c = .ok c := by
  cases operation with
  | copyConstruct => cases hself
  | copyAssign target | moveAssign target =>
    cases target with
    | none => rfl
    | some target => cases hself

/-- Between two objects every operation throws. -/
theorem run_other (hself : operation.isSelf = false)
    (h : other.distortion.rows = 5 ∧ other.distortion.cols = 1) :
    operation.run d other = .error .assertion := by
  cases operation with
  | copyConstruct => exact init_copied h
  | copyAssign target =>
    cases target with
    | none => cases hself
    | some target => exact init_copied h
  | moveAssign target =>
    cases target with
    | none => cases hself
    | some target =>
      have hmove : CalibrationValues.moveAssign d false other target =
          .error .assertion := by
        rw [CalibrationValues.moveAssign, init_copied h]
        rfl
      rw [run, Option.isNone_some, Option.getD_some, hmove]
      rfl

end CopyOperation

/-- No copy operation yields the calibration, whatever the intrinsics are, but for the assignments
of an object to itself. -/
theorem copy_same_iff (d : Numerics α) (operation : CopyOperation α) (c : CalibrationValues α)
    (hdistortion : c.distortion.rows = 5 ∧ c.distortion.cols = 1) :
    (∃ c', operation.run d c = .ok c' ∧ SameCalibration c' c) ↔ operation.isSelf = true := by
  constructor
  · rintro ⟨c', hrun, -⟩
    by_contra hself
    rw [CopyOperation.run_other (Bool.eq_false_of_not_eq_true hself) hdistortion] at hrun
    cases hrun
  · intro hself
    have hsame : SameCalibration c c := by constructor <;> rfl
    exact ⟨c, CopyOperation.run_self hself, hsame⟩

/-- Arithmetic without rounding, where a singular matrix has the inverse zero. -/
def exactNumerics : Numerics ℚ where
  nan := 0
  toFloat := id
  invert _ A := A.det⁻¹ • A.adjugate
  invertf A := A.det⁻¹ • A.adjugate
  inverse A := A.det⁻¹ • A.adjugate

/-- A camera of 512 by 512 pixels with its principal point in the middle. -/
def halfCamera : Construction ℚ :=
  .mat (.ofMatrix !![512, 0, 256; 0, 512, 256; 0, 0, 1]) 512 512 (.zeros 5 1) 0 0

theorem copy_same_half : ∃ c, halfCamera.build exactNumerics = .ok c ∧
    ((∃ c', CopyOperation.copyConstruct.run exactNumerics c = .ok c' ∧ SameCalibration c' c) ↔
      false = true) :=
  ⟨_, rfl, copy_same_iff exactNumerics .copyConstruct _ ⟨rfl, rfl⟩⟩

theorem copy_not_same : ∃ c, halfCamera.build exactNumerics = .ok c ∧
    c.intrinsics.rows = 3 ∧ c.intrinsics.cols = 3 ∧
      c.distortion.rows = 5 ∧ c.distortion.cols = 1 ∧
      copyConstruct exactNumerics c = .error .assertion :=
  ⟨_, rfl, rfl, rfl, rfl, rfl, init_copied ⟨rfl, rfl⟩⟩

end CalibrationValues

end ARArch
