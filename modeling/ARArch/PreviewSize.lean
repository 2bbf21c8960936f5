import ARArch.PlanePacking
import ARArch.StableSort

/-!
# Preview sizes

`getMaximumOutputSize`, `getPreviewOutputSize` and `getPreviewValidSizes` sort the sizes that the
camera supports by the product of height and width, which is an `Int` of 32 bits. The first of them
takes the first element of the sorted array, the others what fits the bound, from the other end. The
bound is the display if it is at least HD in one direction, else the HD size. A size counts pixels.
-/

namespace ARArch

structure Size where
  width : ℕ
  height : ℕ
  deriving DecidableEq

namespace Size

def long (s : Size) : ℕ := max s.width s.height

def short (s : Size) : ℕ := min s.width s.height

def area (s : Size) : ℕ := s.width * s.height

/-- `it.height * it.width` -/
def intArea (s : Size) : ℤ := int32 (s.height * s.width)

def Fits (s bound : Size) : Prop := s.long ≤ bound.long ∧ s.short ≤ bound.short

instance (s bound : Size) : Decidable (s.Fits bound) :=
  inferInstanceAs (Decidable (_ ∧ _))

end Size

open Size

variable {sizes : List Size} {s m displaySize : Size}

def hdSize : Size := ⟨1080, 720⟩

def HdScreen (displaySize : Size) : Prop :=
  displaySize.long ≥ hdSize.long ∨ displaySize.short ≥ hdSize.short

instance : Decidable (HdScreen displaySize) := inferInstanceAs (Decidable (_ ∨ _))

def maxSize (displaySize : Size) : Size := if HdScreen displaySize then displaySize else hdSize

def getMaximumOutputSize (sizes : List Size) : Option Size := (sortedBy intArea sizes).head?

def findSize (sizes : List Size) (size : Size) : ℤ :=
  match sizes.findIdx? (· = size) with
  | some i => i
  | none => -1

/-- The sizes that fit the bound, from the largest to the smallest. -/
def validSizes (displaySize : Size) (sizes : List Size) : List Size :=
  (sortedBy intArea sizes).reverse.filter (Fits · (maxSize displaySize))

structure OutputSizeResult where
  size : Size
  index : ℤ
  deriving DecidableEq

/-- `getPreviewOutputSize`, or `none` when no size fits. -/
def getPreviewOutputSize (screenSize : Size) (sizes : List Size) : Option OutputSizeResult :=
  (validSizes screenSize sizes).head?.map fun sz => ⟨sz, findSize sizes sz⟩

def getPreviewValidSizes (screenSize : Size) (surfaceSize : Option Size) (sizes : List Size) :
    List Size :=
  validSizes (surfaceSize.getD screenSize) sizes

/-- The smaller of the display and the HD bound. -/
def smallerSize (displaySize : Size) : Size :=
  if displaySize.area ≤ hdSize.area then displaySize else hdSize

/-- The sizes that fit the smaller bound, the largest first. -/
structure ValidSizes (displaySize : Size) (sizes valid : List Size) : Prop where
  fitting : valid.Perm (sizes.filter (Fits · (smallerSize displaySize)))
  descending : valid.Pairwise fun s t => t.area ≤ s.area

/-- None of the sizes that fit the smaller bound is larger than `m`, which is one of them. -/
structure LargestFitting (displaySize : Size) (sizes : List Size) (m : Size) : Prop where
  mem : m ∈ sizes
  fits : m.Fits (smallerSize displaySize)
  area_le : ∀ s ∈ sizes, s.Fits (smallerSize displaySize) → s.area ≤ m.area

/-- The first of the sizes that are returned as valid, which is the largest that fits the smaller
bound, with an index at which the array holds it. -/
def FirstWithIndex (displaySize : Size) (sizes valid : List Size)
    (result : Option OutputSizeResult) : Prop :=
  ∃ (size : Size) (i : ℕ), valid.head? = some size ∧ LargestFitting displaySize sizes size ∧
    sizes[i]? = some size ∧ result = some ⟨size, i⟩

/-- A size of maximal area. -/
def MaximalSize (sizes : List Size) (result : Option Size) : Prop :=
  ∃ m ∈ sizes, result = some m ∧ ∀ s ∈ sizes, s.area ≤ m.area

theorem mem_validSizes :
    s ∈ validSizes displaySize sizes ↔ s ∈ sizes ∧ s.Fits (maxSize displaySize) := by
  unfold validSizes
  rw [List.mem_filter, List.mem_reverse, mem_sortedBy, decide_eq_true_iff]

theorem validSizes_pairwise :
    (validSizes displaySize sizes).Pairwise fun s t => t.intArea ≤ s.intArea :=
  (List.pairwise_reverse.mpr sortedBy_pairwise).filter _

theorem validSizes_perm :
    (validSizes displaySize sizes).Perm (sizes.filter (Fits · (maxSize displaySize))) :=
  ((List.reverse_perm _).trans sortedBy_perm).filter _

theorem intArea_of_lt (h : s.area < 2 ^ 31) : s.intArea = s.area := by
  have hmul : (s.height : ℤ) * s.width = s.area := by
    rw [area, Nat.cast_mul, mul_comm]
  rw [intArea, hmul]
  exact int32_of_lt (by omega) (by omega)

theorem long_mul_short : s.long * s.short = s.area := max_mul_min s.width s.height

theorem area_le_of_fits {bound : Size} (h : s.Fits bound) : s.area ≤ bound.area := by
  rw [← long_mul_short, ← long_mul_short]
  exact Nat.mul_le_mul h.1 h.2

theorem area_smallerSize_le : (smallerSize displaySize).area ≤ hdSize.area := by
  unfold smallerSize
  split
  · assumption
  · exact le_rfl

/-- Where the display fits the HD bound, or that the display, the smaller is the one that fits. -/
theorem smallerSize_fits (h : displaySize.Fits hdSize ∨ hdSize.Fits displaySize) :
    (smallerSize displaySize).Fits displaySize ∧ (smallerSize displaySize).Fits hdSize := by
  unfold smallerSize
  by_cases harea : displaySize.area ≤ hdSize.area
  · rw [if_pos harea]
    refine ⟨⟨le_rfl, le_rfl⟩, h.elim id fun ⟨hlong, hshort⟩ => ?_⟩
    rw [← long_mul_short, ← long_mul_short] at harea
    -- The sides of the HD size are positive, so that neither of the display's is longer.
    have hlong_le : displaySize.long * hdSize.short ≤ hdSize.long * hdSize.short :=
      (Nat.mul_le_mul_left _ hshort).trans harea
    have hshort_le : hdSize.long * displaySize.short ≤ hdSize.long * hdSize.short :=
      (Nat.mul_le_mul_right _ hlong).trans harea
    exact ⟨Nat.le_of_mul_le_mul_right hlong_le (by decide),
      Nat.le_of_mul_le_mul_left hshort_le (by decide)⟩
  · rw [if_neg harea]
    refine ⟨h.elim (fun hfits => absurd (area_le_of_fits hfits) harea) id, ⟨le_rfl, le_rfl⟩⟩

theorem area_lt_of_fits (h : s.Fits (smallerSize displaySize)) : s.area < 2 ^ 31 := by
  have hd : hdSize.area < 2 ^ 31 := by decide
  exact ((area_le_of_fits h).trans area_smallerSize_le).trans_lt hd

theorem validSizes_iff : ValidSizes displaySize sizes (validSizes displaySize sizes) ↔
    ∀ s ∈ sizes, s.Fits (maxSize displaySize) ↔ s.Fits (smallerSize displaySize) := by
  constructor
  · intro h s hs
    have hmem := h.fitting.mem_iff (a := s)
    rw [mem_validSizes, List.mem_filter, decide_eq_true_iff] at hmem
    exact (and_congr_right_iff.mp hmem) hs
  · intro h
    constructor
    · have hfilter : sizes.filter (Fits · (maxSize displaySize)) =
          sizes.filter (Fits · (smallerSize displaySize)) :=
        List.filter_congr fun s hs => decide_eq_decide.mpr (h s hs)
      rw [← hfilter]
      exact validSizes_perm
    · have harea : ∀ s ∈ validSizes displaySize sizes, s.intArea = s.area := by
        intro s hs
        obtain ⟨hs, hfits⟩ := mem_validSizes.mp hs
        exact intArea_of_lt (area_lt_of_fits ((h s hs).mp hfits))
      refine validSizes_pairwise.imp_of_mem ?_
      intro s t hs ht hle
      rw [harea s hs, harea t ht] at hle
      exact Int.ofNat_le.mp hle

/-- The first valid size is the last of those with the greatest product. -/
theorem head_validSizes_iff : (validSizes displaySize sizes).head? = some m ↔
    LastGreatest intArea (sizes.filter (Fits · (maxSize displaySize))) m := by
  rw [validSizes, List.filter_reverse, List.head?_reverse, filter_sortedBy, getLast_sortedBy_iff]

theorem findSize_of_mem (h : s ∈ sizes) :
    ∃ i : ℕ, findSize sizes s = i ∧ sizes[i]? = some s := by
  unfold findSize
  cases hfind : sizes.findIdx? (· = s) with
  | none =>
    have hnot := List.findIdx?_eq_none_iff.mp hfind s h
    exact absurd hnot (by simp)
  | some i =>
    obtain ⟨hi, heq, _⟩ := List.findIdx?_eq_some_iff_getElem.mp hfind
    refine ⟨i, rfl, ?_⟩
    rw [List.getElem?_eq_getElem hi, of_decide_eq_true heq]

theorem firstWithIndex_iff :
    FirstWithIndex displaySize sizes (getPreviewValidSizes displaySize none sizes)
        (getPreviewOutputSize displaySize sizes) ↔
      ∃ m, LastGreatest intArea (sizes.filter (Fits · (maxSize displaySize))) m ∧
        LargestFitting displaySize sizes m := by
  constructor
  · rintro ⟨m, i, hhead, hlargest, _, _⟩
    exact ⟨m, head_validSizes_iff.mp hhead, hlargest⟩
  · rintro ⟨m, hm, hlargest⟩
    have hhead := head_validSizes_iff.mpr hm
    obtain ⟨i, hi, hget⟩ := findSize_of_mem hlargest.mem
    refine ⟨m, i, hhead, hlargest, hget, ?_⟩
    rw [getPreviewOutputSize, hhead, Option.map_some, hi]

theorem maximalSize_iff : MaximalSize sizes (getMaximumOutputSize sizes) ↔
    ∃ m, FirstLeast intArea sizes m ∧ ∀ s ∈ sizes, s.area ≤ m.area := by
  constructor
  · rintro ⟨m, _, hm, hmax⟩
    exact ⟨m, head_sortedBy_iff.mp hm, hmax⟩
  · rintro ⟨m, hm, hmax⟩
    exact ⟨m, hm.mem, head_sortedBy_iff.mpr hm, hmax⟩

/-- Where no area leaves the range of an `Int`, the first size is largest only among equals. -/
theorem maximalSize_iff_of_lt (hlt : ∀ s ∈ sizes, s.area < 2 ^ 31) :
    MaximalSize sizes (getMaximumOutputSize sizes) ↔
      sizes ≠ [] ∧ ∀ s ∈ sizes, ∀ t ∈ sizes, s.area = t.area := by
  rw [maximalSize_iff]
  constructor
  · rintro ⟨m, hm, hmax⟩
    have hequal : ∀ s ∈ sizes, s.area = m.area := by
      intro s hs
      have hle := hm.key_le s hs
      rw [intArea_of_lt (hlt s hs), intArea_of_lt (hlt m hm.mem)] at hle
      exact Nat.le_antisymm (hmax s hs) (Int.ofNat_le.mp hle)
    exact ⟨List.ne_nil_of_mem hm.mem, fun s hs t ht => (hequal s hs).trans (hequal t ht).symm⟩
  · rintro ⟨hne, hequal⟩
    cases sizes with
    | nil => exact absurd rfl hne
    | cons m sizes =>
      have hm : m ∈ m :: sizes := List.mem_cons_self
      refine ⟨m, .here fun s hs => ?_, fun s hs => (hequal s hs m hm).le⟩
      have hs' : s ∈ m :: sizes := List.mem_cons_of_mem m hs
      rw [intArea_of_lt (hlt m hm), intArea_of_lt (hlt s hs'), hequal m hm s hs']

end ARArch
