import ARArch.LumaChroma
import Mathlib.Algebra.Order.Ring.Int
import Mathlib.Algebra.Order.Ring.Rat
import Mathlib.Data.Nat.Cast.Order.Field
import Mathlib.Tactic.NormNum

/-!
# From YUV to RGBA

The RenderScript kernels convert in fixed point, with `short`s in between, and the colour image is
then copied to a byte array, in the order of bytes that the camera has been opened for.
-/

namespace ARArch

open LumaChroma

/-- A `short` from an `int`. -/
def short (n : ℤ) : ℤ := n.bmod (2 ^ 16)

/-- `short4` -/
structure Short4 where
  x : ℤ
  y : ℤ
  z : ℤ
  w : ℤ

/-- `uchar4` -/
structure UChar4 where
  x : UInt8
  y : UInt8
  z : UInt8
  w : UInt8
  deriving DecidableEq

/-- `rs_allocation` -/
structure Allocation (α : Type) where
  dimX : ℕ
  dimY : ℕ
  element : ℕ → ℕ → α

/-- An allocation of YUV elements, whose U and V have half the columns and rows of its Y. -/
structure YuvAllocation where
  ay : Allocation UInt8
  au : Allocation UInt8
  av : Allocation UInt8

/-- `rsSetElementAt` -/
def Allocation.set {α : Type} (a : Allocation α) (x y : ℕ) (e : α) : Allocation α :=
  { a with element := fun x' y' => if x' = x ∧ y' = y then e else a.element x' y' }

inductive ColorFormats
  | RGBA
  | BGRA
  deriving DecidableEq

/-! ### The script -/

namespace YUV2RGBA

/-- The comparisons of a component with 0 and 255. -/
def clamp (p : ℤ) : ℤ :=
  let p := if p < 0 then 0 else p
  if p > 255 then 255 else p

/-- The components that `yuvToRGBA4` and `yuvToBGRA4` compute. -/
def yuvToShort4 (y u v : UInt8) : Short4 :=
  let Y := short (short y.toNat - 16)
  let U := short (short u.toNat - 128)
  let V := short (short v.toNat - 128)
  { x := clamp (short ((Y * 298 + V * 409 + 128) >>> (8 : ℕ)))
    y := clamp (short ((Y * 298 - U * 100 - V * 208 + 128) >>> (8 : ℕ)))
    z := clamp (short ((Y * 298 + U * 516 + 128) >>> (8 : ℕ)))
    w := 255 }

def yuvToRGBA4 (y u v : UInt8) : UChar4 :=
  let p := yuvToShort4 y u v
  ⟨.ofInt p.x, .ofInt p.y, .ofInt p.z, .ofInt p.w⟩

def yuvToBGRA4 (y u v : UInt8) : UChar4 :=
  let p := yuvToShort4 y u v
  ⟨.ofInt p.z, .ofInt p.y, .ofInt p.x, .ofInt p.w⟩

/-- `rsGetElementAtYuv_uchar_Y`, and those of U and V, which know of the half size. -/
def elementY (a : YuvAllocation) (x y : ℕ) : UInt8 := a.ay.element x y
def elementU (a : YuvAllocation) (x y : ℕ) : UInt8 := a.au.element (x >>> 1) (y >>> 1)
def elementV (a : YuvAllocation) (x y : ℕ) : UInt8 := a.av.element (x >>> 1) (y >>> 1)

/-- The kernel `YUVtoRGBA`. -/
def YUVtoRGBA (input : YuvAllocation) (x y : ℕ) : UChar4 :=
  yuvToRGBA4 (elementY input x y) (elementU input x y) (elementV input x y)

/-- The kernel `YUVtoBGRA`. -/
def YUVtoBGRA (input : YuvAllocation) (x y : ℕ) : UChar4 :=
  yuvToBGRA4 (elementY input x y) (elementU input x y) (elementV input x y)

/-- A round of the inner loop of `makeRef`. -/
def makeRefAt (ay au av : Allocation UInt8) (y : ℕ) (aout : Allocation UChar4) (x : ℕ) :
    Allocation UChar4 :=
  aout.set x y (yuvToRGBA4 (ay.element x y) (au.element (x >>> 1) (y >>> 1))
    (av.element (x >>> 1) (y >>> 1)))

def makeRef (ay au av : Allocation UInt8) (aout : Allocation UChar4) : Allocation UChar4 :=
  (List.range ay.dimY).foldl
    (fun aout y => (List.range ay.dimX).foldl (makeRefAt ay au av y) aout) aout

section

variable {ay au av : Allocation UInt8} {aout : Allocation UChar4} {x y : ℕ}

theorem makeRefAt_foldl (w : ℕ) (row : ℕ) :
    ((List.range w).foldl (makeRefAt ay au av row) aout).element x y =
      if x < w ∧ y = row then YUVtoRGBA ⟨ay, au, av⟩ x y else aout.element x y := by
  induction w with
  | zero => simp
  | succ w ih =>
      rw [List.range_succ, List.foldl_append, List.foldl_cons, List.foldl_nil, makeRefAt,
        Allocation.set]
      simp only [ih]
      by_cases hx : x = w ∧ y = row
      · obtain ⟨rfl, rfl⟩ := hx
        rw [if_pos ⟨rfl, rfl⟩, if_pos ⟨Nat.lt_succ_self _, rfl⟩]
        rfl
      · rw [if_neg hx]
        congr 1
        rw [eq_iff_iff]
        omega

/-- `makeRef` is the reference of the kernel `YUVtoRGBA`. -/
theorem makeRef_element (ay au av : Allocation UInt8) (aout : Allocation UChar4) (x y : ℕ) :
    (makeRef ay au av aout).element x y =
      if x < ay.dimX ∧ y < ay.dimY then YUVtoRGBA ⟨ay, au, av⟩ x y else aout.element x y := by
  have hrows (h : ℕ) : ((List.range h).foldl
      (fun aout y => (List.range ay.dimX).foldl (makeRefAt ay au av y) aout) aout).element x y =
        if x < ay.dimX ∧ y < h then YUVtoRGBA ⟨ay, au, av⟩ x y else aout.element x y := by
    induction h with
    | zero => simp
    | succ h ih =>
        rw [List.range_succ, List.foldl_append, List.foldl_cons, List.foldl_nil, makeRefAt_foldl,
          ih]
        by_cases hy : x < ay.dimX ∧ y = h
        · rw [if_pos hy, if_pos (by omega)]
        · rw [if_neg hy]
          congr 1
          rw [eq_iff_iff]
          omega
  exact hrows ay.dimY

end

end YUV2RGBA

open YUV2RGBA

def UChar4.bytes (p : UChar4) : Vector UInt8 4 := #v[p.x, p.y, p.z, p.w]

/-- `copyTo` with a byte array, in the order of the rows. -/
def Allocation.copyTo (a : Allocation UChar4) : Vector UInt8 (a.dimY * a.dimX * 4) :=
  (Vector.ofFn fun i : Fin (a.dimY * a.dimX) =>
    a.element (i % a.dimX) (i / a.dimX)).flatMap UChar4.bytes

namespace RenderScriptFrameHandler

/-- `allocRGBAOut` behind the `forEach` of the kernel of a colour format. -/
def allocRGBAOut (colorFormat : ColorFormats) (allocYUVIn : YuvAllocation) : Allocation UChar4 where
  dimX := allocYUVIn.ay.dimX
  dimY := allocYUVIn.ay.dimY
  element :=
    match colorFormat with
    | .BGRA => YUVtoBGRA allocYUVIn
    | .RGBA => YUVtoRGBA allocYUVIn

/-- The bytes that `onBufferAvailable` enqueues for an image that is not grey. -/
def rgbaData (colorFormat : ColorFormats) (allocYUVIn : YuvAllocation) :
    Vector UInt8 (allocYUVIn.ay.dimY * allocYUVIn.ay.dimX * 4) :=
  (allocRGBAOut colorFormat allocYUVIn).copyTo

end RenderScriptFrameHandler

open RenderScriptFrameHandler

/-! ### What is meant by an image -/

namespace ColorFormats

/-- The bytes of a pixel. -/
def bytes (format : ColorFormats) (red green blue : UInt8) : Vector UInt8 4 :=
  match format with
  | .RGBA => #v[red, green, blue, 255]
  | .BGRA => #v[blue, green, red, 255]

end ColorFormats

namespace YUV2RGBA

/-- The shares of the colours in the luma, which are also those of the grey image. -/
def weights : Weights ℚ where
  red := 299 / 1000
  green := 587 / 1000
  blue := 114 / 1000
  sum_eq_one := by norm_num
  red_ne_one := by norm_num
  green_ne_zero := by norm_num
  blue_ne_one := by norm_num

/-- The Y, U and V of a colour: the luma goes from 16 to 235, and the differences are from 16 to 240
with 128 for a grey. -/
def signal (c : Color ℚ) : Signal ℚ where
  luma := 16 + 219 / 255 * (weights.encode c).luma
  cb := 128 + 224 / 255 * (weights.encode c).cb
  cr := 128 + 224 / 255 * (weights.encode c).cr

theorem short_eq {n : ℤ} (hlo : -32768 ≤ n) (hhi : n < 32768) : short n = n :=
  Int.bmod_eq_of_le hlo hhi

theorem clamp_eq_saturate (p : ℤ) : clamp p = saturate 0 255 p := by
  unfold clamp saturate
  dsimp only
  split_ifs <;> omega

theorem clamp_mem (p : ℤ) : 0 ≤ clamp p ∧ clamp p ≤ 255 := by
  unfold clamp
  dsimp only
  split_ifs <;> omega

theorem toNat_ofInt {p : ℤ} (hlo : 0 ≤ p) (hhi : p ≤ 255) : ((UInt8.ofInt p).toNat : ℤ) = p := by
  rw [UInt8.ofInt, UInt8.toNat_ofNat']
  omega

theorem shift_near (n : ℤ) : |(((n + 128) >>> (8 : ℕ) : ℤ) : ℚ) - n / 256| ≤ 1 / 2 := by
  have h : |(((n + 2 ^ 7) >>> (7 + 1 : ℕ) : ℤ) : ℚ) - n / 2 ^ (7 + 1)| ≤ 1 / 2 :=
    abs_shift_sub_le n 7
  have hint : (2 : ℤ) ^ 7 = 128 := by norm_num
  have hrat : (2 : ℚ) ^ (7 + 1) = 256 := by norm_num
  rw [hint, hrat] at h
  exact h

/-- A component is the saturation of what it stands for, but for a half and the error before. -/
theorem component_near {n : ℤ} {t δ : ℚ} (hlo : -8388608 ≤ n) (hhi : n < 8388480)
    (h : |(n : ℚ) / 256 - t| ≤ δ) :
    |((UInt8.ofInt (clamp (short ((n + 128) >>> (8 : ℕ))))).toNat : ℚ) - saturate 0 255 t| ≤
      1 / 2 + δ := by
  have hround := shift_near n
  have hshort : short ((n + 128) >>> (8 : ℕ)) = (n + 128) >>> (8 : ℕ) := by
    apply short_eq <;> rw [Int.shiftRight_eq_div_pow] <;> omega
  rw [hshort]
  generalize (n + 128) >>> (8 : ℕ) = p at hround
  obtain ⟨hzero, hmax⟩ := clamp_mem p
  have hbyte : ((UInt8.ofInt (clamp p)).toNat : ℤ) = clamp p := toNat_ofInt hzero hmax
  have hcast : ((UInt8.ofInt (clamp p)).toNat : ℚ) = ((clamp p : ℤ) : ℚ) := by
    exact_mod_cast hbyte
  have hsaturate : ((clamp p : ℤ) : ℚ) = saturate 0 255 (p : ℚ) := by
    rw [clamp_eq_saturate]
    simp [saturate]
  rw [hcast, hsaturate]
  calc |saturate 0 255 (p : ℚ) - saturate 0 255 t|
      ≤ |(p : ℚ) - t| := abs_saturate_sub_le _ _ _ _
    _ ≤ |(p : ℚ) - n / 256| + |(n : ℚ) / 256 - t| := abs_sub_le _ _ _
    _ ≤ 1 / 2 + δ := add_le_add hround h

/-- A colour from its Y, U and V. -/
theorem color_eq (c : Color ℚ) :
    c.red = 255 / 219 * ((signal c).luma - 16) + 255 / 224 * (1402 / 1000) * ((signal c).cr - 128) ∧
    c.green = 255 / 219 * ((signal c).luma - 16) -
      255 / 224 * (1772 / 1000) * (114 / 587) * ((signal c).cb - 128) -
      255 / 224 * (1402 / 1000) * (299 / 587) * ((signal c).cr - 128) ∧
    c.blue = 255 / 219 * ((signal c).luma - 16) +
      255 / 224 * (1772 / 1000) * ((signal c).cb - 128) := by
  have hdecode := weights.decode_encode c
  have hred := congrArg Color.red hdecode
  have hgreen := congrArg Color.green hdecode
  have hblue := congrArg Color.blue hdecode
  simp only [Weights.decode, weights] at hred hgreen hblue
  refine ⟨?_, ?_, ?_⟩
  · rw [← hred]
    simp only [signal, weights]
    ring
  · rw [← hgreen]
    simp only [signal, weights]
    ring
  · rw [← hblue]
    simp only [signal, weights]
    ring

theorem short_sub {a : UInt8} {k : ℤ} (hk : 0 ≤ k) (hk' : k ≤ 128) :
    short (short a.toNat - k) = a.toNat - k := by
  have hlt : a.toNat < 256 := a.toNat_lt
  have hshort : short a.toNat = a.toNat := short_eq (by omega) (by omega)
  rw [hshort]
  exact short_eq (by omega) (by omega)

theorem abs_sample_le (a : UInt8) : |(a.toNat : ℤ) - 128| ≤ 128 := by
  have hlt : a.toNat < 256 := a.toNat_lt
  exact abs_le.mpr ⟨by omega, by omega⟩

theorem abs_product_le (a : UInt8) {k : ℤ} (hk : |k| ≤ 1000) :
    |((a.toNat : ℤ) - 128) * k| ≤ 128000 := by
  rw [abs_mul]
  calc |(a.toNat : ℤ) - 128| * |k|
      ≤ 128 * 1000 := mul_le_mul (abs_sample_le a) hk (abs_nonneg k) (by norm_num)
    _ = 128000 := by norm_num

/-- The error that a coefficient in fixed point makes. -/
theorem abs_error_le (a : UInt8) (k : ℚ) :
    |k * ((a.toNat : ℚ) - 128)| ≤ |k| * 128 := by
  rw [abs_mul]
  apply mul_le_mul_of_nonneg_left _ (abs_nonneg k)
  have hsample := abs_sample_le a
  have hcast : ((|(a.toNat : ℤ) - 128| : ℤ) : ℚ) ≤ 128 := by exact_mod_cast hsample
  push_cast at hcast
  exact hcast

theorem abs_luma_error_le (y : UInt8) :
    |(298 / 256 - 255 / 219 : ℚ) * ((y.toNat : ℚ) - 16)| ≤ 2 / 25 := by
  have hy : y.toNat < 256 := y.toNat_lt
  have hlt : (y.toNat : ℚ) < 256 := by exact_mod_cast hy
  have hnonneg : (0 : ℚ) ≤ y.toNat := Nat.cast_nonneg _
  rw [abs_le]
  constructor <;> linarith

/-- A sum of differences in fixed point is that of a colour, but for the errors of the coefficients
and those of the samples. -/
theorem sum_near (ku kv : ℤ) (cu cv : ℚ) (hku : |ku| ≤ 1000) (hkv : |kv| ≤ 1000)
    (hcoefficients : |(ku : ℚ) / 256 - cu| + |(kv : ℚ) / 256 - cv| ≤ 1 / 600)
    (y u v : UInt8) (s : Signal ℚ) :
    |((UInt8.ofInt (clamp (short ((((y.toNat : ℤ) - 16) * 298 + ((u.toNat : ℤ) - 128) * ku +
        ((v.toNat : ℤ) - 128) * kv + 128) >>> (8 : ℕ))))).toNat : ℚ) -
      saturate 0 255 (255 / 219 * (s.luma - 16) + cu * (s.cb - 128) + cv * (s.cr - 128))| ≤
      4 / 5 + 255 / 219 * |(y.toNat : ℚ) - s.luma| + |cu| * |(u.toNat : ℚ) - s.cb| +
        |cv| * |(v.toNat : ℚ) - s.cr| := by
  have hy : y.toNat < 256 := y.toNat_lt
  obtain ⟨hu, hu'⟩ := abs_le.mp (abs_product_le u hku)
  obtain ⟨hv, hv'⟩ := abs_le.mp (abs_product_le v hkv)
  have herror : |((((y.toNat : ℤ) - 16) * 298 + ((u.toNat : ℤ) - 128) * ku +
      ((v.toNat : ℤ) - 128) * kv : ℤ) : ℚ) / 256 -
      (255 / 219 * (s.luma - 16) + cu * (s.cb - 128) + cv * (s.cr - 128))| ≤
      3 / 10 + 255 / 219 * |(y.toNat : ℚ) - s.luma| + |cu| * |(u.toNat : ℚ) - s.cb| +
        |cv| * |(v.toNat : ℚ) - s.cr| := by
    obtain ⟨ha, ha'⟩ := abs_le.mp (abs_luma_error_le y)
    obtain ⟨hb, hb'⟩ := abs_le.mp (abs_error_le u ((ku : ℚ) / 256 - cu))
    obtain ⟨hc, hc'⟩ := abs_le.mp (abs_error_le v ((kv : ℚ) / 256 - cv))
    obtain ⟨hl, hl'⟩ := abs_le.mp (le_refl |(y.toNat : ℚ) - s.luma|)
    obtain ⟨hd, hd'⟩ := abs_le.mp (abs_mul cu ((u.toNat : ℚ) - s.cb)).le
    obtain ⟨he, he'⟩ := abs_le.mp (abs_mul cv ((v.toNat : ℚ) - s.cr)).le
    push_cast
    rw [abs_le]
    constructor <;> linarith
  refine (component_near (by omega) (by omega) herror).trans_eq ?_
  ring

/-- How far the samples of a pixel are from those of a colour. -/
def deviation (y u v : UInt8) (c : Color ℚ) : Signal ℚ where
  luma := |(y.toNat : ℚ) - (signal c).luma|
  cb := |(u.toNat : ℚ) - (signal c).cb|
  cr := |(v.toNat : ℚ) - (signal c).cr|

/-- The components of a pixel are those of a colour, as far as they can be shown, but for what the
samples deviate from those of the colour and for less than one. -/
structure Near (d : Signal ℚ) (c : Color ℚ) (red green blue : UInt8) : Prop where
  red : |(red.toNat : ℚ) - saturate 0 255 c.red| ≤
    4 / 5 + 255 / 219 * d.luma + 255 / 224 * (1402 / 1000) * d.cr
  green : |(green.toNat : ℚ) - saturate 0 255 c.green| ≤
    4 / 5 + 255 / 219 * d.luma + 255 / 224 * (1772 / 1000) * (114 / 587) * d.cb +
      255 / 224 * (1402 / 1000) * (299 / 587) * d.cr
  blue : |(blue.toNat : ℚ) - saturate 0 255 c.blue| ≤
    4 / 5 + 255 / 219 * d.luma + 255 / 224 * (1772 / 1000) * d.cb

theorem yuvToShort4_near (y u v : UInt8) (c : Color ℚ) :
    Near (deviation y u v c) c (.ofInt (yuvToShort4 y u v).x) (.ofInt (yuvToShort4 y u v).y)
      (.ofInt (yuvToShort4 y u v).z) := by
  obtain ⟨hred, hgreen, hblue⟩ := color_eq c
  have hY : short (short y.toNat - 16) = y.toNat - 16 := short_sub (by norm_num) (by norm_num)
  have hU : short (short u.toNat - 128) = u.toNat - 128 := short_sub (by norm_num) (by norm_num)
  have hV : short (short v.toNat - 128) = v.toNat - 128 := short_sub (by norm_num) (by norm_num)
  simp only [yuvToShort4, hY, hU, hV]
  constructor
  · have hnear := sum_near 0 409 0 (255 / 224 * (1402 / 1000)) (by norm_num) (by norm_num)
      (by norm_num [abs_of_pos]) y u v (signal c)
    have hcv : |(255 / 224 * (1402 / 1000) : ℚ)| = 255 / 224 * (1402 / 1000) := by norm_num
    simp only [abs_zero, hcv, mul_zero, add_zero, zero_mul] at hnear
    rw [hred]
    exact hnear
  · have hnear := sum_near (-100) (-208) (-(255 / 224 * (1772 / 1000) * (114 / 587)))
      (-(255 / 224 * (1402 / 1000) * (299 / 587))) (by norm_num) (by norm_num)
      (by norm_num [abs_of_pos]) y u v (signal c)
    have hcu : |(255 / 224 * (1772 / 1000) * (114 / 587) : ℚ)| =
        255 / 224 * (1772 / 1000) * (114 / 587) := by norm_num
    have hcv : |(255 / 224 * (1402 / 1000) * (299 / 587) : ℚ)| =
        255 / 224 * (1402 / 1000) * (299 / 587) := by norm_num
    simp only [abs_neg, hcu, hcv, mul_neg, neg_mul, ← sub_eq_add_neg] at hnear
    rw [hgreen]
    exact hnear
  · have hnear := sum_near 516 0 (255 / 224 * (1772 / 1000)) 0 (by norm_num) (by norm_num)
      (by norm_num [abs_of_pos]) y u v (signal c)
    have hcu : |(255 / 224 * (1772 / 1000) : ℚ)| = 255 / 224 * (1772 / 1000) := by norm_num
    simp only [abs_zero, hcu, mul_zero, add_zero, zero_mul] at hnear
    rw [hblue]
    exact hnear

/-- A colour of whole components. -/
def colorOf (r g b : UInt8) : Color ℚ := ⟨r.toNat, g.toNat, b.toNat⟩

theorem abs_byte_sub_le {a b : UInt8} {k : ℤ} {t : ℚ}
    (h : |(a.toNat : ℚ) - saturate 0 255 (b.toNat : ℚ)| ≤ t) (ht : t < k + 1) :
    |(a.toNat : ℤ) - b.toNat| ≤ k := by
  have hb : b.toNat < 256 := b.toNat_lt
  have hbq : (b.toNat : ℚ) ≤ 255 := by exact_mod_cast Nat.le_of_lt_succ hb
  rw [saturate_eq_self (Nat.cast_nonneg _) hbq] at h
  have hlt : (((|(a.toNat : ℤ) - b.toNat| : ℤ)) : ℚ) < ((k + 1 : ℤ) : ℚ) := by
    push_cast
    exact h.trans_lt ht
  exact Int.lt_add_one_iff.mp (Int.cast_lt.mp hlt)

/-- Samples that are the nearest bytes to those of a colour give this colour back, but for two in
red and blue and one in green. -/
theorem Near.of_nearest {d : Signal ℚ} {r g b red green blue : UInt8}
    (h : Near d (colorOf r g b) red green blue) (hluma : d.luma ≤ 1 / 2) (hcb : d.cb ≤ 1 / 2)
    (hcr : d.cr ≤ 1 / 2) :
    |(red.toNat : ℤ) - r.toNat| ≤ 2 ∧ |(green.toNat : ℤ) - g.toNat| ≤ 1 ∧
      |(blue.toNat : ℤ) - b.toNat| ≤ 2 := by
  refine ⟨abs_byte_sub_le h.red ?_, abs_byte_sub_le h.green ?_, abs_byte_sub_le h.blue ?_⟩
  · push_cast
    linarith
  · push_cast
    linarith
  · push_cast
    linarith

end YUV2RGBA

namespace Allocation

variable {a : Allocation UChar4} {x y k : ℕ}

/-- The bytes of an element. -/
theorem copyTo_getElem? (hx : x < a.dimX) (hy : y < a.dimY) (hk : k < 4) :
    a.copyTo[4 * (y * a.dimX + x) + k]? = (a.element x y).bytes[k]? := by
  have hpos : 0 < a.dimX := Nat.zero_lt_of_lt hx
  have hcolumn : (y * a.dimX + x) % a.dimX = x := Nat.mul_add_mod_of_lt hx
  have hrow : (y * a.dimX + x) / a.dimX = y := by
    rw [Nat.mul_comm, Nat.mul_add_div hpos, Nat.div_eq_of_lt hx, Nat.add_zero]
  have hlt : y * a.dimX + x < a.dimY * a.dimX := by
    calc y * a.dimX + x
        < y * a.dimX + a.dimX := Nat.add_lt_add_left hx _
      _ = (y + 1) * a.dimX := (Nat.succ_mul _ _).symm
      _ ≤ a.dimY * a.dimX := Nat.mul_le_mul_right _ hy
  generalize hi : y * a.dimX + x = i at hcolumn hrow hlt
  have hdiv : (4 * i + k) / 4 = i := by omega
  have hmod : (4 * i + k) % 4 = k := by omega
  rw [copyTo, Vector.getElem?_flatMap, dif_pos (by omega)]
  simp only [Vector.getElem_ofFn, hdiv, hmod, hcolumn, hrow]
  exact (Vector.getElem?_eq_getElem hk).symm

end Allocation

namespace RenderScriptFrameHandler

/-- The bytes that are enqueued for a pixel stand in the order of the colour format. They are near
every colour that the samples of the pixel are near; when the samples are the nearest to those of a
colour, they are at most two from it, in green at most one. -/
theorem rgbaData_near (colorFormat : ColorFormats) (allocYUVIn : YuvAllocation) {x y : ℕ}
    (hx : x < allocYUVIn.ay.dimX) (hy : y < allocYUVIn.ay.dimY) :
    ∃ red green blue : UInt8,
      (∀ k < 4, (rgbaData colorFormat allocYUVIn)[4 * (y * allocYUVIn.ay.dimX + x) + k]? =
        (colorFormat.bytes red green blue)[k]?) ∧
      (∀ c : Color ℚ, Near (deviation (allocYUVIn.ay.element x y)
        (allocYUVIn.au.element (x / 2) (y / 2)) (allocYUVIn.av.element (x / 2) (y / 2)) c) c
        red green blue) ∧
      ∀ r g b : UInt8,
        let d := deviation (allocYUVIn.ay.element x y) (allocYUVIn.au.element (x / 2) (y / 2))
          (allocYUVIn.av.element (x / 2) (y / 2)) (colorOf r g b)
        d.luma ≤ 1 / 2 → d.cb ≤ 1 / 2 → d.cr ≤ 1 / 2 →
          |(red.toNat : ℤ) - r.toNat| ≤ 2 ∧ |(green.toNat : ℤ) - g.toNat| ≤ 1 ∧
            |(blue.toNat : ℤ) - b.toNat| ≤ 2 := by
  have hnear := yuvToShort4_near (allocYUVIn.ay.element x y)
    (allocYUVIn.au.element (x / 2) (y / 2)) (allocYUVIn.av.element (x / 2) (y / 2))
  refine ⟨_, _, _, ?_, hnear, fun r g b hluma hcb hcr => (hnear _).of_nearest hluma hcb hcr⟩
  intro k hk
  have hbytes := Allocation.copyTo_getElem? (a := allocRGBAOut colorFormat allocYUVIn) hx hy hk
  refine Eq.trans hbytes ?_
  cases colorFormat with
  | RGBA => rfl
  | BGRA => rfl

/-- The samples of a red. -/
theorem deviation_red :
    deviation 81 90 240 (colorOf 255 0 0) = ⟨481 / 1000, 90 / 443, 0⟩ := by
  have hy : (((81 : UInt8).toNat : ℕ) : ℚ) = 81 := rfl
  have hu : (((90 : UInt8).toNat : ℕ) : ℚ) = 90 := rfl
  have hv : (((240 : UInt8).toNat : ℕ) : ℚ) = 240 := rfl
  have hcolor : colorOf 255 0 0 = ⟨255, 0, 0⟩ := rfl
  have hsignal : signal ⟨255, 0, 0⟩ = ⟨81481 / 1000, 128 - 66976 / 1772, 240⟩ := by
    norm_num [signal, Weights.encode, Weights.luma, weights]
  rw [deviation, hcolor, hsignal, hy, hu, hv]
  norm_num [abs_of_neg]

/-- An image of two by two pixels that is red. -/
def redImage : YuvAllocation where
  ay := ⟨2, 2, fun _ _ => 81⟩
  au := ⟨1, 1, fun _ _ => 90⟩
  av := ⟨1, 1, fun _ _ => 240⟩

theorem rgbaData_near_red : ∃ red green blue : UInt8,
    (∀ k < 4, (rgbaData .BGRA redImage)[4 * (1 * 2 + 1) + k]? =
      (ColorFormats.BGRA.bytes red green blue)[k]?) ∧
    |(red.toNat : ℤ) - 255| ≤ 2 ∧ |(green.toNat : ℤ) - 0| ≤ 1 ∧ |(blue.toNat : ℤ) - 0| ≤ 2 := by
  obtain ⟨red, green, blue, hbytes, -, hnearest⟩ :=
    rgbaData_near .BGRA redImage Nat.one_lt_two Nat.one_lt_two
  have hred := hnearest 255 0 0
  simp only [redImage, deviation_red] at hred
  exact ⟨red, green, blue, hbytes, hred (by norm_num) (by norm_num) (by norm_num)⟩

end RenderScriptFrameHandler

end ARArch
