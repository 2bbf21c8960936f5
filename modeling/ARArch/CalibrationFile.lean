import ARArch.CalibrationScaling

/-!
# The file of a calibration

`write` puts a calibration into a `cv::FileStorage` and `read` takes it out of a node of one. The
storage is a parameter. What is relied on is what its documentation says: names and values go in
turn to the innermost map that is open, and a node gives back what was written under its name, or
the default of the type where nothing was. Names begin with a letter or an underscore, and no map
that is read has two elements of one name.
-/

namespace ARArch

/-- What `<<` writes and `>>` reads at once. -/
inductive FileScalar (α : Type)
  | integer (n : ℤ)
  | real (x : α)
  | mat (m : CvMat α)

inductive FileValue (α : Type)
  | scalar (v : FileScalar α)
  | map (elements : List (String × FileValue α))

/-- Each map has one element of a name. -/
inductive FileValue.WellNamed {α : Type} : FileValue α → Prop
  | scalar (v : FileScalar α) : WellNamed (.scalar v)
  | map {elements : List (String × FileValue α)} (names : (elements.map Prod.fst).Nodup)
      (values : ∀ e ∈ elements, e.2.WellNamed) : WellNamed (.map elements)

theorem FileValue.WellNamed.append {α : Type} {elements : List (String × FileValue α)}
    {name : String} {v : FileValue α} (h : (FileValue.map elements).WellNamed)
    (hname : elements.lookup name = none) (hv : v.WellNamed) :
    (FileValue.map (elements ++ [(name, v)])).WellNamed := by
  cases h with
  | map hnames hvalues =>
      refine .map ?_ ?_
      · rw [List.map_append, List.nodup_append]
        refine ⟨hnames, List.nodup_singleton _, ?_⟩
        intro a ha b hb
        obtain ⟨e, he, rfl⟩ := List.mem_map.mp ha
        obtain rfl : b = name := List.mem_singleton.mp hb
        have hne := List.lookup_eq_none_iff.mp hname e he
        rw [bne_iff_ne] at hne
        exact hne.symm
      · rw [List.forall_mem_append, List.forall_mem_singleton]
        exact ⟨hvalues, hv⟩

/-- The names that elements may have. -/
def isElementName (name : String) : Bool :=
  match name.toList with
  | [] => false
  | c :: cs => (c.isAlpha || c == '_') && cs.all fun c => c.isAlphanum || c == '-' || c == '_'

/-- How far a storage is written: the elements of the innermost map, the maps around it with the
name that the inner one gets, and a name that waits for its value. -/
structure Written (α : Type) where
  elements : List (String × FileValue α) := []
  outer : List (String × List (String × FileValue α)) := []
  elname : Option String := none

/-- `cv::FileStorage` and `cv::FileNode`, as far as they are used. `written` says how far a storage
is written and `holds` what stands in a node, or that nothing does. -/
structure FileStorage (α : Type) where
  Storage : Type
  FileNode : Type
  written : Storage → Written α → Prop
  holds : FileNode → Option (FileValue α) → Prop
  /-- A file that is opened for writing. -/
  openWrite : Storage
  /-- `fs << name` where a name is expected. -/
  putName : String → Storage → Except CvFault Storage
  /-- `fs << value` -/
  put : FileScalar α → Storage → Except CvFault Storage
  /-- `fs << "{"` -/
  openMap : Storage → Except CvFault Storage
  /-- `fs << "}"` -/
  closeMap : Storage → Except CvFault Storage
  /-- The map of the file, when it is opened for reading. -/
  root : Storage → FileNode
  /-- `fn[name]` -/
  child : String → FileNode → Except CvFault FileNode
  /-- `fn >> m` -/
  toMat : FileNode → Except CvFault (CvMat α)
  /-- `(int) fn` -/
  toInt : FileNode → Except CvFault ℤ
  /-- `(double) fn` -/
  toReal : FileNode → Except CvFault α

namespace FileStorage

variable {α : Type} {S : FileStorage α}

/-- The storage does what its documentation says. -/
structure Documented (S : FileStorage α) : Prop where
  openWrite : S.written S.openWrite {}
  putName {name : String} (h : isElementName name = true) {fs : S.Storage} {elements} {outer} :
    S.written fs ⟨elements, outer, none⟩ →
      ∃ fs', S.putName name fs = .ok fs' ∧ S.written fs' ⟨elements, outer, some name⟩
  put (v : FileScalar α) {fs : S.Storage} {elements} {outer} {name} :
    S.written fs ⟨elements, outer, some name⟩ →
      ∃ fs', S.put v fs = .ok fs' ∧ S.written fs' ⟨elements ++ [(name, .scalar v)], outer, none⟩
  openMap {fs : S.Storage} {elements} {outer} {name} :
    S.written fs ⟨elements, outer, some name⟩ →
      ∃ fs', S.openMap fs = .ok fs' ∧ S.written fs' ⟨[], (name, elements) :: outer, none⟩
  closeMap {fs : S.Storage} {elements elements'} {outer} {name} :
    S.written fs ⟨elements', (name, elements) :: outer, none⟩ →
      ∃ fs', S.closeMap fs = .ok fs' ∧
        S.written fs' ⟨elements ++ [(name, .map elements')], outer, none⟩
  root {fs : S.Storage} {elements} (h : (FileValue.map elements).WellNamed) :
    S.written fs ⟨elements, [], none⟩ → S.holds (S.root fs) (some (.map elements))
  child (name : String) {fn : S.FileNode} {elements} : S.holds fn (some (.map elements)) →
    ∃ fn', S.child name fn = .ok fn' ∧ S.holds fn' (elements.lookup name)
  child_none (name : String) {fn : S.FileNode} : S.holds fn none →
    ∃ fn', S.child name fn = .ok fn' ∧ S.holds fn' none
  toMat {fn : S.FileNode} {m} : S.holds fn (some (.scalar (.mat m))) → S.toMat fn = .ok m
  toMat_none {fn : S.FileNode} : S.holds fn none → S.toMat fn = .ok .null
  toInt {fn : S.FileNode} {n} : S.holds fn (some (.scalar (.integer n))) → S.toInt fn = .ok n
  toReal {fn : S.FileNode} {x} : S.holds fn (some (.scalar (.real x))) → S.toReal fn = .ok x

/-- `fs << name << value` -/
def putElement (S : FileStorage α) (name : String) (v : FileScalar α) (fs : S.Storage) :
    Except CvFault S.Storage := do
  let fs ← S.putName name fs
  S.put v fs

theorem Documented.putElement (hS : S.Documented) {name : String}
    (h : isElementName name = true) (v : FileScalar α)
    {fs : S.Storage} {elements : List (String × FileValue α)}
    {outer : List (String × List (String × FileValue α))}
    (hfs : S.written fs ⟨elements, outer, none⟩) :
    ∃ fs', S.putElement name v fs = .ok fs' ∧
      S.written fs' ⟨elements ++ [(name, .scalar v)], outer, none⟩ := by
  obtain ⟨fs₁, hname, hfs₁⟩ := hS.putName h hfs
  obtain ⟨fs₂, hput, hfs₂⟩ := hS.put v hfs₁
  exact ⟨fs₂, bind_eq_ok.mpr ⟨fs₁, hname, hput⟩, hfs₂⟩

end FileStorage

namespace CalibrationValues

section

variable {α : Type} [Field α] (d : Numerics α)

def write (S : FileStorage α) (c : CalibrationValues α) (fs : S.Storage) :
    Except CvFault S.Storage := do
  if c.intrinsics.empty then return fs
  let fs ← S.putName "CalibrationValues" fs
  let fs ← S.openMap fs
  let fs ← S.putElement "intrinsics" (.mat c.intrinsics) fs
  let fs ← S.putElement "distortion" (.mat c.distortion) fs
  let width ← assigned c.imageWidth
  let fs ← S.putElement "width" (.integer width) fs
  let height ← assigned c.imageHeight
  let fs ← S.putElement "height" (.integer height) fs
  let fs ← S.putElement "rms_error" (.real c.rmsError) fs
  let fs ← S.putElement "total_error" (.real c.totalError) fs
  S.closeMap fs

def read (S : FileStorage α) (fn : S.FileNode) (c : CalibrationValues α) :
    Except CvFault (CalibrationValues α) := do
  let intrinsics ← S.toMat (← S.child "intrinsics" fn)
  let distortion ← S.toMat (← S.child "distortion" fn)
  let imageWidth ← S.toInt (← S.child "width" fn)
  let imageHeight ← S.toInt (← S.child "height" fn)
  let rmsError ← S.toReal (← S.child "rms_error" fn)
  let totalError ← S.toReal (← S.child "total_error" fn)
  init d false { c with
    intrinsics, distortion, rmsError, totalError
    imageWidth := some imageWidth, imageHeight := some imageHeight }

/-- The map that `write` makes. -/
def fileElements (c : CalibrationValues α) (width height : ℤ) : List (String × FileValue α) :=
  [("intrinsics", .scalar (.mat c.intrinsics)), ("distortion", .scalar (.mat c.distortion)),
    ("width", .scalar (.integer width)), ("height", .scalar (.integer height)),
    ("rms_error", .scalar (.real c.rmsError)), ("total_error", .scalar (.real c.totalError))]

variable {d} {S : FileStorage α} {c c₁ c₂ : CalibrationValues α} {w h : ℤ}
  {elements : List (String × FileValue α)}

/-- The map of a calibration stands behind what the storage had. -/
theorem write_eq (hS : S.Documented) {fs : S.Storage} (hfull : c.intrinsics.empty = false)
    (hwidth : c.imageWidth = some w) (hheight : c.imageHeight = some h)
    (hfs : S.written fs ⟨elements, [], none⟩) : ∃ fs', write S c fs = .ok fs' ∧
      S.written fs' ⟨elements ++ [("CalibrationValues", .map (c.fileElements w h))], [], none⟩ := by
  have hnames : ∀ name ∈ ["CalibrationValues", "intrinsics", "distortion", "width", "height",
      "rms_error", "total_error"], isElementName name = true := by decide
  simp only [List.forall_mem_cons] at hnames
  obtain ⟨hname₁, hname₂, hname₃, hname₄, hname₅, hname₆, hname₇, -⟩ := hnames
  obtain ⟨fs₁, hname, hfs₁⟩ := hS.putName hname₁ hfs
  obtain ⟨fs₂, hopen, hfs₂⟩ := hS.openMap hfs₁
  obtain ⟨fs₃, hintrinsics, hfs₃⟩ := hS.putElement hname₂ (.mat c.intrinsics) hfs₂
  obtain ⟨fs₄, hdistortion, hfs₄⟩ := hS.putElement hname₃ (.mat c.distortion) hfs₃
  obtain ⟨fs₅, hwidth', hfs₅⟩ := hS.putElement hname₄ (.integer w) hfs₄
  obtain ⟨fs₆, hheight', hfs₆⟩ := hS.putElement hname₅ (.integer h) hfs₅
  obtain ⟨fs₇, hrms, hfs₇⟩ := hS.putElement hname₆ (.real c.rmsError) hfs₆
  obtain ⟨fs₈, htotal, hfs₈⟩ := hS.putElement hname₇ (.real c.totalError) hfs₇
  obtain ⟨fs₉, hclose, hfs₉⟩ := hS.closeMap hfs₈
  refine ⟨fs₉, ?_, hfs₉⟩
  rw [write, hfull, if_neg Bool.false_ne_true, hwidth, hheight]
  simp only [assigned, bind_eq_ok]
  exact ⟨fs₁, hname, fs₂, hopen, fs₃, hintrinsics, fs₄, hdistortion, w, rfl, fs₅, hwidth', h, rfl,
    fs₆, hheight', fs₇, hrms, fs₈, htotal, hclose⟩

theorem fileElements_wellNamed : (FileValue.map (c.fileElements w h)).WellNamed := by
  have hnames : ["intrinsics", "distortion", "width", "height", "rms_error", "total_error"].Nodup :=
    by decide
  refine .map hnames ?_
  simp only [fileElements, List.forall_mem_cons]
  exact ⟨.scalar _, .scalar _, .scalar _, .scalar _, .scalar _, .scalar _, List.forall_mem_nil _⟩

/-- Six of the members determine what `init(false)` makes of an object. -/
theorem init_congr (hintrinsics : c₁.intrinsics = c₂.intrinsics)
    (hdistortion : c₁.distortion = c₂.distortion) (hwidth : c₁.imageWidth = c₂.imageWidth)
    (hheight : c₁.imageHeight = c₂.imageHeight) (hrms : c₁.rmsError = c₂.rmsError)
    (htotal : c₁.totalError = c₂.totalError) : init d false c₁ = init d false c₂ := by
  cases c₁
  cases c₂
  cases hintrinsics
  cases hdistortion
  cases hwidth
  cases hheight
  cases hrms
  cases htotal
  rfl

theorem read_fileElements (hS : S.Documented) (x : CalibrationValues α) {fn : S.FileNode}
    (hwidth : c.imageWidth = some w) (hheight : c.imageHeight = some h)
    (hfn : S.holds fn (some (.map (c.fileElements w h)))) : read d S fn x = init d false c := by
  obtain ⟨fn₁, hintrinsics, hfn₁⟩ := hS.child "intrinsics" hfn
  obtain ⟨fn₂, hdistortion, hfn₂⟩ := hS.child "distortion" hfn
  obtain ⟨fn₃, hwidth', hfn₃⟩ := hS.child "width" hfn
  obtain ⟨fn₄, hheight', hfn₄⟩ := hS.child "height" hfn
  obtain ⟨fn₅, hrms, hfn₅⟩ := hS.child "rms_error" hfn
  obtain ⟨fn₆, htotal, hfn₆⟩ := hS.child "total_error" hfn
  have hread : read d S fn x = init d false { x with
      intrinsics := c.intrinsics, distortion := c.distortion
      rmsError := c.rmsError, totalError := c.totalError
      imageWidth := some w, imageHeight := some h } := by
    have hmat := hS.toMat hfn₁
    have hmat' := hS.toMat hfn₂
    have hint := hS.toInt hfn₃
    have hint' := hS.toInt hfn₄
    have hreal := hS.toReal hfn₅
    have hreal' := hS.toReal hfn₆
    simp only [read, hintrinsics, hdistortion, hwidth', hheight', hrms, htotal, bind, Except.bind,
      hmat, hmat', hint, hint', hreal, hreal']
  rw [hread]
  exact init_congr rfl rfl hwidth.symm hheight.symm rfl rfl

end

/-! ### Objects as `init` leaves them -/

variable {d : Numerics ℚ} {c c' : CalibrationValues ℚ} {A : Matrix33 ℚ} {D : List ℚ} {w h : ℤ}

/-- The object with everything that `init` derives from its intrinsics and its distortion. -/
def derived (d : Numerics ℚ) (A : Matrix33 ℚ) (D : List ℚ) (c : CalibrationValues ℚ) :
    CalibrationValues ℚ := { c with
  distortion := columnOf c.distortion
  intrinsicsf := c.intrinsics.map d.toFloat
  intrinsicsInverse := .ofMatrix (d.invert 3 A)
  intrinsicsInversef := (CvMat.ofMatrix (d.invert 3 A)).map d.toFloat
  distortionf := (columnOf c.distortion).map d.toFloat
  intrinsics33d := A
  intrinsicsInverse33d := d.invert 3 A
  intrinsics33f := cast d A
  intrinsicsInverse33f := d.invertf (cast d A)
  K := A
  KI := d.inverse A
  Kf := cast d A
  KIf := cast d (d.inverse A)
  D
  Df := D.map d.toFloat }

theorem init_of_matrix (hA : c.intrinsics = .ofMatrix A)
    (hD : (columnOf c.distortion).toColumn = .ok D) : init d false c = .ok (derived d A D c) := by
  have hinverse : (CvMat.ofMatrix A).inv d = .ok (.ofMatrix (d.invert 3 A)) :=
    dif_pos ⟨rfl, rfl⟩
  have hmatrix : (CvMat.ofMatrix A).toMatrix33 = .ok A := rfl
  simp only [init, toEigen, Bool.false_eq_true, if_false, derived, hA, hinverse, hmatrix, hD]
  rfl

theorem init_cases (hinit : init d false c = .ok c') : ∃ A D, c.intrinsics = .ofMatrix A ∧
    (columnOf c.distortion).toColumn = .ok D ∧ c' = derived d A D c := by
  have hkeep := init_keeps hinit
  obtain ⟨D, hD⟩ := CvMat.toColumn_of_cols (hkeep.distortion ▸ hkeep.distortion_cols)
  have hA : c.intrinsics = .ofMatrix c'.K := hkeep.intrinsics.symm.trans hkeep.K
  rw [init_of_matrix hA hD] at hinit
  exact ⟨_, D, hA, hD, (Except.ok.inj hinit).symm⟩

/-- `init(false)` leaves the object as it is, but for the vectors of Eigen that hold the distortion
and that nothing reads. -/
def Settled (d : Numerics ℚ) (c : CalibrationValues ℚ) : Prop :=
  ∃ c', init d false c = .ok c' ∧ SameCalibration c' c ∧ c'.distortionf = c.distortionf

theorem SameCalibration.refl (c : CalibrationValues ℚ) : SameCalibration c c :=
  ⟨rfl, rfl, rfl, rfl, rfl, rfl, rfl, rfl, rfl, rfl, rfl, rfl, rfl, rfl, rfl, rfl, rfl⟩

theorem settled_of_init (hinit : init d false c = .ok c') : Settled d c' := by
  obtain ⟨A, D, hA, hD, rfl⟩ := init_cases hinit
  have hcolumn : columnOf (columnOf c.distortion) = columnOf c.distortion :=
    columnOf_of_column rows_columnOf (CvMat.cols_of_toColumn hD)
  have hD' : (columnOf (derived d A D c).distortion).toColumn = .ok D :=
    (congrArg CvMat.toColumn hcolumn).trans hD
  have hsame : derived d A D (derived d A D c) = derived d A D c := by
    simp only [derived, hcolumn]
  refine ⟨derived d A D c, ?_, SameCalibration.refl _, rfl⟩
  rw [init_of_matrix (c := derived d A D c) hA hD', hsame]

theorem fromEigen_forms : (c.fromEigen d).KI = d.inverse (c.fromEigen d).K ∧
    (c.fromEigen d).Kf = cast d (c.fromEigen d).K ∧
      (c.fromEigen d).KIf = cast d (d.inverse (c.fromEigen d).K) := by
  unfold fromEigen
  dsimp only
  split <;> exact ⟨rfl, rfl, rfl⟩

/-- Without a distortion for Eigen `init(true)` leaves that vector empty. -/
theorem settled_of_eigen (hinit : init d true c = .ok c') (hdistortion : c.distortion = .null)
    (hwidth : c.imageWidth = some w) (hheight : c.imageHeight = some h) : Settled d c' := by
  have hsized := init_eigen_sized hinit hdistortion hwidth hheight
  obtain ⟨D, hD⟩ := CvMat.toColumn_of_cols hsized.distortion_cols
  have hcolumn := columnOf_of_column hsized.distortion_rows hsized.distortion_cols
  rw [← hcolumn] at hD
  refine ⟨_, init_of_matrix (d := d) hsized.intrinsics hD, ?_⟩
  obtain ⟨hK, -, -, -⟩ := fromEigen_spec (d := d) (c := c)
  obtain ⟨hKI, hKf, hKIf⟩ := fromEigen_forms (d := d) (c := c)
  simp only [init, if_true] at hinit
  obtain ⟨inverse, hinverse, hinit⟩ := bind_eq_ok.mp hinit
  obtain ⟨matrix, hmatrix, hinit⟩ := bind_eq_ok.mp hinit
  rw [hK] at hinverse hmatrix
  cases hinverse
  cases hmatrix
  cases hinit
  constructor
  · exact ⟨rfl, hcolumn, rfl, rfl, rfl, rfl, rfl, hKI.symm, hKf.symm, hKIf.symm, rfl, rfl, rfl, rfl,
      rfl, rfl, rfl⟩
  · exact congrArg (CvMat.map d.toFloat) hcolumn

/-! ### Runs -/

/-- The calls that change an object. -/
inductive Change
  | setFx (v : ℚ)
  | setFy (v : ℚ)
  | setCx (v : ℚ)
  | setCy (v : ℚ)
  | set (fx fy cx cy k1 k2 k3 p1 p2 : ℚ)
  | scale (newWidth newHeight : ℤ)

def Change.run (d : Numerics ℚ) (c : CalibrationValues ℚ) :
    Change → Except CvFault (CalibrationValues ℚ)
  | .setFx v => c.setFx d v
  | .setFy v => c.setFy d v
  | .setCx v => c.setCx d v
  | .setCy v => c.setCy d v
  | .set fx fy cx cy k1 k2 k3 p1 p2 => c.set d fx fy cx cy k1 k2 k3 p1 p2
  | .scale newWidth newHeight => c.scale d newWidth newHeight

/-- An object that a constructor makes, by default without arguments. -/
def construct (d : Numerics ℚ) : Option (Construction ℚ) → Except CvFault (CalibrationValues ℚ)
  | none => .ok {}
  | some k => k.build d

/-- `c'` is what `init` makes of an object with the size that `c` has. -/
def InitOfSize (d : Numerics ℚ) (width height : Option ℤ) (c' : CalibrationValues ℚ) : Prop :=
  ∃ next, init d false next = .ok c' ∧ next.imageWidth = width ∧ next.imageHeight = height

theorem setIntrinsic_init {i j : ℕ} {v : ℚ} (hset : setIntrinsic d i j v c = .ok c') :
    InitOfSize d c.imageWidth c.imageHeight c' := by
  obtain ⟨intrinsics, -, hinit⟩ := bind_eq_ok.mp hset
  exact ⟨_, hinit, rfl, rfl⟩

theorem set_init {fx fy cx cy k1 k2 k3 p1 p2 : ℚ}
    (hset : set d fx fy cx cy k1 k2 k3 p1 p2 c = .ok c') :
    InitOfSize d c.imageWidth c.imageHeight c' := by
  obtain ⟨m₁, -, hset⟩ := bind_eq_ok.mp hset
  obtain ⟨m₂, -, hset⟩ := bind_eq_ok.mp hset
  obtain ⟨m₃, -, hset⟩ := bind_eq_ok.mp hset
  obtain ⟨m₄, -, hset⟩ := bind_eq_ok.mp hset
  obtain ⟨distortion, -, hinit⟩ := bind_eq_ok.mp hset
  exact ⟨_, hinit, rfl, rfl⟩

/-- What `scale` does to an object without intrinsics, or to one of a size that is known. -/
theorem scale_init {w' h' : ℤ} (hscale : scale d w' h' c = .ok c') :
    c' = c ∨ c.imageWidth.isSome ∧ InitOfSize d (some w') (some h') c' := by
  unfold scale at hscale
  split at hscale
  · cases hscale
    exact Or.inl rfl
  · obtain ⟨width, hwidth, hscale⟩ := bind_eq_ok.mp hscale
    obtain ⟨height, -, hscale⟩ := bind_eq_ok.mp hscale
    obtain ⟨fx, -, hscale⟩ := bind_eq_ok.mp hscale
    obtain ⟨fy, -, hscale⟩ := bind_eq_ok.mp hscale
    obtain ⟨cx, -, hscale⟩ := bind_eq_ok.mp hscale
    obtain ⟨cy, -, hset⟩ := bind_eq_ok.mp hscale
    have hsome : c.imageWidth.isSome := by
      cases hnone : c.imageWidth with
      | none =>
        rw [hnone] at hwidth
        cases hwidth
      | some width => rfl
    exact Or.inr ⟨hsome, set_init hset⟩

/-- The three ways a change goes. -/
theorem Change.run_cases {change : Change} (hrun : change.run d c = .ok c') :
    c' = c ∨ InitOfSize d c.imageWidth c.imageHeight c' ∨
      c.imageWidth.isSome ∧ ∃ w' h', InitOfSize d (some w') (some h') c' := by
  cases change with
  | setFx v => exact Or.inr (Or.inl (setIntrinsic_init hrun))
  | setFy v => exact Or.inr (Or.inl (setIntrinsic_init hrun))
  | setCx v => exact Or.inr (Or.inl (setIntrinsic_init hrun))
  | setCy v => exact Or.inr (Or.inl (setIntrinsic_init hrun))
  | set => exact Or.inr (Or.inl (set_init hrun))
  | scale newWidth newHeight =>
    obtain hsame | ⟨hsome, hinit⟩ := scale_init hrun
    · exact Or.inl hsame
    · exact Or.inr (Or.inr ⟨hsome, newWidth, newHeight, hinit⟩)

/-- An object that was made from a matrix stays of a known size and as `init` leaves it. -/
def Ready (d : Numerics ℚ) (c : CalibrationValues ℚ) : Prop :=
  (∃ w h, Sized c w h) ∧ Settled d c

theorem InitOfSize.ready (hinit : InitOfSize d (some w) (some h) c') : Ready d c' := by
  obtain ⟨next, hinit, hwidth, hheight⟩ := hinit
  exact ⟨⟨w, h, (init_keeps hinit).sized hwidth hheight⟩, settled_of_init hinit⟩

theorem Change.ready {change : Change} (hready : Ready d c) (hrun : change.run d c = .ok c') :
    Ready d c' := by
  obtain rfl | hinit | ⟨-, w', h', hinit⟩ := run_cases hrun
  · exact hready
  · obtain ⟨⟨w, h, hsized⟩, -⟩ := hready
    rw [hsized.imageWidth, hsized.imageHeight] at hinit
    exact hinit.ready
  · exact hinit.ready

theorem Change.unsized {change : Change} (hwidth : c.imageWidth = none)
    (hrun : change.run d c = .ok c') : c'.imageWidth = none := by
  obtain rfl | ⟨next, hinit, hnext, -⟩ | ⟨hsome, -⟩ := run_cases hrun
  · exact hwidth
  · rw [(init_keeps hinit).imageWidth, hnext, hwidth]
  · rw [hwidth] at hsome
    cases hsome

/-- What the changes keep, a run of them keeps. -/
theorem changes_keep {P : CalibrationValues ℚ → Prop}
    (hstep : ∀ (change : Change) c c', P c → change.run d c = .ok c' → P c')
    {changes : List Change} (hc : P c)
    (hrun : changes.foldlM (fun c change => change.run d c) c = .ok c') : P c' := by
  induction changes generalizing c with
  | nil =>
    cases hrun
    exact hc
  | cons change changes ih =>
    rw [List.foldlM_cons] at hrun
    obtain ⟨c₁, hfirst, hrest⟩ := bind_eq_ok.mp hrun
    exact ih (hstep change c c₁ hc hfirst) hrest

theorem build_ready {k : Construction ℚ} (hbuild : k.build d = .ok c) (hk : k.takesMatrix = true) :
    Ready d c := by
  refine ⟨⟨_, _, build_sized hbuild hk⟩, ?_⟩
  cases k with
  | mat => exact settled_of_init hbuild
  | matx => exact settled_of_init hbuild
  | eigen => exact settled_of_eigen hbuild rfl rfl rfl
  | parameters => cases hk

/-! ### The round trip -/

variable {S : FileStorage ℚ}

/-- A file without an element of that name takes the calibration, and any object that reads it from
there is the same calibration. -/
def RoundTrips (d : Numerics ℚ) (S : FileStorage ℚ) (c : CalibrationValues ℚ) : Prop :=
  ∀ (fs : S.Storage) (elements : List (String × FileValue ℚ)) (x : CalibrationValues ℚ),
    S.written fs ⟨elements, [], none⟩ → (FileValue.map elements).WellNamed →
    elements.lookup "CalibrationValues" = none →
    ∃ fs' fn c', c.write S fs = .ok fs' ∧ S.child "CalibrationValues" (S.root fs') = .ok fn ∧
      read d S fn x = .ok c' ∧ SameCalibration c' c ∧ c'.distortionf = c.distortionf

theorem Ready.roundTrips (hS : S.Documented) (hready : Ready d c) : RoundTrips d S c := by
  intro fs elements x hfs hnamed hlacks
  obtain ⟨⟨w, h, hsized⟩, c', hinit, hsame, hdistortionf⟩ := hready
  have hfull : c.intrinsics.empty = false := by
    rw [hsized.intrinsics]
    rfl
  obtain ⟨fs', hwrite, hfs'⟩ := write_eq hS hfull hsized.imageWidth hsized.imageHeight hfs
  have hnamed' := hnamed.append hlacks (c.fileElements_wellNamed (w := w) (h := h))
  obtain ⟨fn, hchild, hfn⟩ := hS.child "CalibrationValues" (hS.root hnamed' hfs')
  have hlookup : (elements ++ [("CalibrationValues", FileValue.map (c.fileElements w h))]).lookup
      "CalibrationValues" = some (.map (c.fileElements w h)) := by
    rw [List.lookup_append, hlacks, List.lookup_cons_self, Option.none_or]
  rw [hlookup] at hfn
  have hread := read_fileElements (d := d) hS x hsized.imageWidth hsized.imageHeight hfn
  exact ⟨fs', fn, c', hwrite, hchild, hread.trans hinit, hsame, hdistortionf⟩

/-- Reading where nothing was written throws. -/
theorem read_none (hS : S.Documented) {fn : S.FileNode} (hfn : S.holds fn none)
    (x : CalibrationValues ℚ) : ¬∃ c', read d S fn x = .ok c' := by
  rintro ⟨c', hread⟩
  obtain ⟨fn', hchild, hfn'⟩ := hS.child_none "intrinsics" hfn
  simp only [read, bind_eq_ok] at hread
  obtain ⟨fn₁, hfn₁, intrinsics, hintrinsics, _, _, _, _, _, _, _, _, _, _, _, _, _, _, _, _, _, _,
    _, _, hinit⟩ := hread
  obtain rfl : fn' = fn₁ := Except.ok.inj (hchild.symm.trans hfn₁)
  rw [hS.toMat_none hfn'] at hintrinsics
  cases hintrinsics
  obtain ⟨inverse, hinverse, -⟩ := bind_eq_ok.mp hinit
  cases hinverse

/-- Without intrinsics nothing is written, and without a size `write` reads what no one has
assigned. -/
theorem not_roundTrips_of_unsized (hS : S.Documented) (hwidth : c.imageWidth = none) :
    ¬RoundTrips d S c := by
  intro h
  have hempty : (FileValue.map ([] : List (String × FileValue ℚ))).WellNamed :=
    .map List.nodup_nil (List.forall_mem_nil _)
  obtain ⟨fs', fn, c', hwrite, hchild, hread, -⟩ := h S.openWrite [] {} hS.openWrite hempty rfl
  cases hfull : c.intrinsics.empty with
  | true =>
    rw [write, hfull, if_pos rfl] at hwrite
    cases hwrite
    obtain ⟨fn', hchild', hfn'⟩ := hS.child "CalibrationValues" (hS.root hempty hS.openWrite)
    obtain rfl : fn' = fn := Except.ok.inj (hchild'.symm.trans hchild)
    exact read_none hS hfn' {} ⟨c', hread⟩
  | false =>
    rw [write, hfull, if_neg Bool.false_ne_true, hwidth] at hwrite
    simp only [bind_eq_ok] at hwrite
    obtain ⟨_, _, _, _, _, _, _, _, _, hassigned, _⟩ := hwrite
    cases hassigned

/-- A storage that keeps its file in memory. -/
def fileInMemory : FileStorage ℚ where
  Storage := Written ℚ
  FileNode := Option (FileValue ℚ)
  written fs w := fs = w
  holds fn v := fn = v
  openWrite := {}
  putName name fs :=
    match fs.elname with
    | none => .ok { fs with elname := some name }
    | some _ => .error .assertion
  put v fs :=
    match fs.elname with
    | none => .error .assertion
    | some name => .ok { fs with elements := fs.elements ++ [(name, .scalar v)], elname := none }
  openMap fs :=
    match fs.elname with
    | none => .error .assertion
    | some name => .ok { elements := [], outer := (name, fs.elements) :: fs.outer }
  closeMap fs :=
    match fs.outer with
    | [] => .error .assertion
    | (name, elements) :: outer => .ok { elements := elements ++ [(name, .map fs.elements)], outer }
  root fs := some (.map fs.elements)
  child name
    | none => .ok none
    | some (.map elements) => .ok (elements.lookup name)
    | some (.scalar _) => .error .assertion
  toMat
    | none => .ok .null
    | some (.scalar (.mat m)) => .ok m
    | _ => .error .assertion
  toInt
    | none => .ok 0
    | some (.scalar (.integer n)) => .ok n
    | _ => .error .assertion
  toReal
    | none => .ok 0
    | some (.scalar (.integer n)) => .ok n
    | some (.scalar (.real x)) => .ok x
    | _ => .error .assertion

theorem fileInMemory_documented : fileInMemory.Documented where
  openWrite := rfl
  putName _ _ _ _ h := by
    obtain rfl := h
    exact ⟨_, rfl, rfl⟩
  put _ _ _ _ _ h := by
    obtain rfl := h
    exact ⟨_, rfl, rfl⟩
  openMap h := by
    obtain rfl := h
    exact ⟨_, rfl, rfl⟩
  closeMap h := by
    obtain rfl := h
    exact ⟨_, rfl, rfl⟩
  root _ h := by
    obtain rfl := h
    rfl
  child _ _ _ h := by
    obtain rfl := h
    exact ⟨_, rfl, rfl⟩
  child_none _ _ h := by
    obtain rfl := h
    exact ⟨_, rfl, rfl⟩
  toMat h := by
    obtain rfl := h
    rfl
  toMat_none h := by
    obtain rfl := h
    rfl
  toInt h := by
    obtain rfl := h
    rfl
  toReal h := by
    obtain rfl := h
    rfl

end CalibrationValues

end ARArch
