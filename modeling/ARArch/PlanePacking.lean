import ARArch.ArrayCopy
import Mathlib.Algebra.Order.Group.Int

/-!
# Packing the planes of an image

A frame handler copies the three planes of a `YUV_420_888` image into one array in the I420 layout.
The luminance is copied as if its rows were not padded, and the chroma samples as if there were
nothing between them: only the padding of the chroma rows is left out. A layout with padded
luminance or interleaved chroma is packed without complaint, but not into its image.
-/

namespace ARArch

open ArrayCopy

abbrev Byte := BitVec 8

inductive PackingFault
  | negativeArraySize
  | indexOutOfBounds
  | bufferUnderflow
  | illegalArgument
  deriving DecidableEq

/-- The value of an `Int` expression. -/
def int32 (x : ℤ) : ℤ := (x + 2 ^ 31) % 2 ^ 32 - 2 ^ 31

structure ByteArr where
  size : ℤ
  byte : ℤ → Byte

structure ByteBuffer where
  capacity : ℤ
  byte : ℤ → Byte
  position : ℤ := 0

def newByteArray (size : ℤ) : Except PackingFault ByteArr :=
  if size < 0 then .error .negativeArraySize else .ok ⟨size, fun _ => 0⟩

namespace ByteBuffer

/-- `get(dst, offset, length)`, a copy from the position on. -/
def get (b : ByteBuffer) (dst : ByteArr) (offset length : ℤ) :
    Except PackingFault (ByteBuffer × ByteArr) :=
  if offset < 0 ∨ length < 0 ∨ dst.size < offset + length then .error .indexOutOfBounds
  else if b.capacity - b.position < length then .error .bufferUnderflow
  else .ok ({ b with position := b.position + length },
    { dst with byte := write dst.byte offset length (fun x => b.byte (b.position + x)) })

def setPosition (b : ByteBuffer) (newPosition : ℤ) : Except PackingFault ByteBuffer :=
  if newPosition < 0 ∨ b.capacity < newPosition then .error .illegalArgument
  else .ok { b with position := newPosition }

end ByteBuffer

/-- A layout of the planes of an image, with buffers that end with the last sample. -/
structure PlaneLayout where
  w : ℤ
  h : ℤ
  yRowStride : ℤ
  rowStride : ℤ
  pixelStride : ℤ
  even_w : w % 2 = 0
  two_le_w : 2 ≤ w
  two_le_h : 2 ≤ h
  w_le : w ≤ yRowStride
  rowStride_nonneg : 0 ≤ rowStride
  rowStride_lt : rowStride < 2 ^ 31
  pixelStride_eq : pixelStride = 1 ∨ pixelStride = 2
  yCapacity_lt : (h - 1) * yRowStride + w < 2 ^ 31
  capacity_lt : (h / 2 - 1) * rowStride + (w / 2 - 1) * pixelStride + 1 < 2 ^ 31

/-- A chroma plane that is being copied. -/
structure ChromaCopy where
  plane : ByteBuffer
  YUV : ByteArr
  offset : ℤ

/-- A turn of the loops over the chroma rows. -/
def copyRow (w h chromaRowPadding : ℤ) (s : ChromaCopy) (i : ℕ) :
    Except PackingFault ChromaCopy := do
  let (plane, YUV) ← s.plane.get s.YUV s.offset (w / 2)
  let offset := int32 (s.offset + w / 2)
  if (i : ℤ) < h / 2 - 1 then
    let plane ← plane.setPosition (int32 (plane.position + chromaRowPadding))
    return ⟨plane, YUV, offset⟩
  else return ⟨plane, YUV, offset⟩

def copyRows (w h chromaRowPadding : ℤ) (s : ChromaCopy) : Except PackingFault ChromaCopy :=
  (List.range (h / 2).toNat).foldlM (copyRow w h chromaRowPadding) s

/-- The array that `onImageAvailable` builds for an image. -/
def packI420 (w h chromaRowStride : ℤ) (Y U V : ByteBuffer) : Except PackingFault ByteArr := do
  let YUV ← newByteArray (int32 (w * int32 (h + h / 2)))
  let (_, YUV) ← Y.get YUV 0 (int32 (w * h))
  let chromaRowPadding := int32 (chromaRowStride - w / 2)
  let offset := int32 (w * h)
  if chromaRowPadding = 0 then
    let (_, YUV) ← U.get YUV offset (int32 (w * h) / 4)
    let offset := int32 (offset + int32 (w * h) / 4)
    let (_, YUV) ← V.get YUV offset (int32 (w * h) / 4)
    return YUV
  else
    let s ← copyRows w h chromaRowPadding ⟨U, YUV, offset⟩
    let s ← copyRows w h chromaRowPadding ⟨V, s.YUV, s.offset⟩
    return s.YUV

namespace PlaneLayout

variable (l : PlaneLayout)

def yBuffer (Y : ℤ → Byte) : ByteBuffer := { capacity := (l.h - 1) * l.yRowStride + l.w, byte := Y }

def chromaBuffer (C : ℤ → Byte) : ByteBuffer :=
  { capacity := (l.h / 2 - 1) * l.rowStride + (l.w / 2 - 1) * l.pixelStride + 1, byte := C }

/-- The array built for the bytes of the planes. -/
def pack (Y U V : ℤ → Byte) : Except PackingFault ByteArr :=
  packI420 l.w l.h l.rowStride (l.yBuffer Y) (l.chromaBuffer U) (l.chromaBuffer V)

/-- The I420 array of the image. -/
structure IsI420 (Y U V : ℤ → Byte) (YUV : ByteArr) : Prop where
  size : YUV.size = l.w * (l.h + l.h / 2)
  luminance : ∀ r c, 0 ≤ r → r < l.h → 0 ≤ c → c < l.w →
    YUV.byte (r * l.w + c) = Y (r * l.yRowStride + c)
  blue : ∀ r c, 0 ≤ r → r < l.h / 2 → 0 ≤ c → c < l.w / 2 →
    YUV.byte (l.w * l.h + (r * (l.w / 2) + c)) = U (r * l.rowStride + c * l.pixelStride)
  red : ∀ r c, 0 ≤ r → r < l.h / 2 → 0 ≤ c → c < l.w / 2 →
    YUV.byte (l.w * l.h + l.h / 2 * (l.w / 2) + (r * (l.w / 2) + c)) =
      V (r * l.rowStride + c * l.pixelStride)

/-- Every image with this layout is packed. -/
def Packs : Prop := ∀ Y U V, ∃ YUV, l.pack Y U V = .ok YUV ∧ l.IsI420 Y U V YUV

end PlaneLayout

theorem ok_bind {α β : Type} (a : α) (f : α → Except PackingFault β) :
    (Except.ok a >>= f) = f a := rfl

theorem int32_of_lt {x : ℤ} (h : -2 ^ 31 ≤ x) (h' : x < 2 ^ 31) : int32 x = x := by
  unfold int32
  omega

theorem ByteBuffer.get_ok (b : ByteBuffer) (dst : ByteArr) (offset length : ℤ)
    (hoffset : 0 ≤ offset) (hlength : 0 ≤ length) (hdst : offset + length ≤ dst.size)
    (hb : b.position + length ≤ b.capacity) :
    b.get dst offset length = .ok ({ b with position := b.position + length },
      { dst with byte := write dst.byte offset length (fun x => b.byte (b.position + x)) }) := by
  unfold ByteBuffer.get
  rw [if_neg (by omega), if_neg (by omega)]

theorem ByteBuffer.get_error {b : ByteBuffer} {dst : ByteArr} {offset length : ℤ}
    (h : dst.size < offset + length) : b.get dst offset length = .error .indexOutOfBounds := by
  unfold ByteBuffer.get
  rw [if_pos (by omega)]

theorem ByteBuffer.size_of_get {b b' : ByteBuffer} {dst dst' : ByteArr} {offset length : ℤ}
    (h : b.get dst offset length = .ok (b', dst')) : dst'.size = dst.size := by
  unfold ByteBuffer.get at h
  split_ifs at h
  cases h
  rfl

theorem ByteBuffer.setPosition_ok {b : ByteBuffer} {newPosition : ℤ} (h : 0 ≤ newPosition)
    (h' : newPosition ≤ b.capacity) :
    b.setPosition newPosition = .ok { b with position := newPosition } := by
  unfold ByteBuffer.setPosition
  rw [if_neg (by omega)]

/-! ### The loops over the chroma rows -/

section Rows

variable {w h padding stride capacity offset size : ℤ} {C D : ℤ → Byte}

/-- The chroma rows fit into the array, and the buffer has them. -/
structure RowsFit (w h padding stride capacity offset size : ℤ) : Prop where
  two_le_w : 2 ≤ w
  stride_eq : stride = w / 2 + padding
  stride_nonneg : 0 ≤ stride
  offset_nonneg : 0 ≤ offset
  fits : offset + h / 2 * (w / 2) ≤ size
  size_lt : size < 2 ^ 31
  has : (h / 2 - 1) * stride + w / 2 ≤ capacity
  capacity_lt : capacity < 2 ^ 31

/-- A turn copies the row at the position, and moves it to the next row if there is one. -/
theorem copyRow_ok (hfit : RowsFit w h padding stride capacity offset size) {n : ℕ}
    (hn : (n : ℤ) < h / 2) :
    ∃ position, ((n : ℤ) + 1 < h / 2 → position = (n + 1) * stride) ∧
      copyRow w h padding
        ⟨⟨capacity, C, n * stride⟩,
          ⟨size, write D offset (n * (w / 2)) (strided stride (w / 2) C)⟩,
          offset + n * (w / 2)⟩ n =
      .ok ⟨⟨capacity, C, position⟩,
        ⟨size, write D offset ((n + 1) * (w / 2)) (strided stride (w / 2) C)⟩,
        offset + (n + 1) * (w / 2)⟩ := by
  obtain ⟨htwo, hstride, hstride0, hoffset, hfits, hsize, hhas, hcapacity⟩ := hfit
  have hk : 0 < w / 2 := by omega
  have hnext : ((n : ℤ) + 1) * (w / 2) = n * (w / 2) + w / 2 := by ring
  have hwritten : 0 ≤ (n : ℤ) * (w / 2) := Int.mul_nonneg (by omega) hk.le
  have hlast : ((n : ℤ) + 1) * (w / 2) ≤ h / 2 * (w / 2) :=
    Int.mul_le_mul_of_nonneg_right (by omega) hk.le
  have hread : 0 ≤ (n : ℤ) * stride := Int.mul_nonneg (by omega) hstride0
  have hreadLast : (n : ℤ) * stride ≤ (h / 2 - 1) * stride :=
    Int.mul_le_mul_of_nonneg_right (by omega) hstride0
  have hget := ByteBuffer.get_ok ⟨capacity, C, n * stride⟩
    ⟨size, write D offset (n * (w / 2)) (strided stride (w / 2) C)⟩ (offset + n * (w / 2)) (w / 2)
    (by omega) hk.le (by dsimp only; omega) (by dsimp only; omega)
  dsimp only at hget
  rw [write_row (by omega) hk] at hget
  have hoffset' : int32 (offset + n * (w / 2) + w / 2) = offset + (n + 1) * (w / 2) := by
    rw [int32_of_lt (by omega) (by omega)]
    omega
  unfold copyRow
  dsimp only
  rw [hget]
  by_cases hmore : (n : ℤ) < h / 2 - 1
  · have hrow : ((n : ℤ) + 1) * stride = n * stride + stride := by ring
    have hrowLast : ((n : ℤ) + 1) * stride ≤ (h / 2 - 1) * stride :=
      Int.mul_le_mul_of_nonneg_right (by omega) hstride0
    have hposition : int32 (n * stride + w / 2 + padding) = (n + 1) * stride := by
      rw [int32_of_lt (by omega) (by omega)]
      omega
    refine ⟨(n + 1) * stride, fun _ => rfl, ?_⟩
    change (if (n : ℤ) < h / 2 - 1 then _ else _) = _
    rw [if_pos hmore]
    dsimp only
    rw [hposition, hoffset', ByteBuffer.setPosition_ok (by omega) (by dsimp only; omega)]
    rfl
  · refine ⟨n * stride + w / 2, fun hlt => absurd hlt (by omega), ?_⟩
    change (if (n : ℤ) < h / 2 - 1 then _ else _) = _
    rw [if_neg hmore, hoffset']
    rfl

/-- After `n` turns the first `n` rows are copied. -/
theorem copyRows_prefix (hfit : RowsFit w h padding stride capacity offset size) {n : ℕ}
    (hn : (n : ℤ) ≤ h / 2) :
    ∃ position, ((n : ℤ) < h / 2 → position = n * stride) ∧
      (List.range n).foldlM (copyRow w h padding) ⟨⟨capacity, C, 0⟩, ⟨size, D⟩, offset⟩ =
      .ok ⟨⟨capacity, C, position⟩,
        ⟨size, write D offset (n * (w / 2)) (strided stride (w / 2) C)⟩,
        offset + n * (w / 2)⟩ := by
  induction n with
  | zero =>
      refine ⟨0, fun _ => by simp, ?_⟩
      simp only [Nat.cast_zero, Int.zero_mul, write_zero, Int.add_zero]
      rfl
  | succ n ih =>
      push_cast at hn ⊢
      obtain ⟨position, hposition, hrun⟩ := ih (by omega)
      have heq : position = n * stride := hposition (by omega)
      subst heq
      obtain ⟨position', hposition', hturn⟩ := copyRow_ok (C := C) (D := D) hfit
        (show (n : ℤ) < h / 2 by omega)
      refine ⟨position', hposition', ?_⟩
      rw [List.range_succ, List.foldlM_append, hrun]
      exact (bind_pure _).trans hturn

theorem copyRows_ok (hfit : RowsFit w h padding stride capacity offset size) (hh : 0 ≤ h) :
    ∃ position, copyRows w h padding ⟨⟨capacity, C, 0⟩, ⟨size, D⟩, offset⟩ =
      .ok ⟨⟨capacity, C, position⟩,
        ⟨size, write D offset (h / 2 * (w / 2)) (strided stride (w / 2) C)⟩,
        offset + h / 2 * (w / 2)⟩ := by
  have hrows : (((h / 2).toNat : ℕ) : ℤ) = h / 2 := Int.toNat_of_nonneg (by omega)
  obtain ⟨position, -, hrun⟩ := copyRows_prefix (C := C) (D := D) hfit hrows.le
  rw [hrows] at hrun
  exact ⟨position, hrun⟩

end Rows

/-! ### The whole array -/

namespace PlaneLayout

variable (l : PlaneLayout)

/-- The rows of the luminance without padding fit into its buffer. -/
theorem luminance_le : l.w * l.h ≤ (l.h - 1) * l.yRowStride + l.w := by
  have hrows : (l.h - 1) * l.w ≤ (l.h - 1) * l.yRowStride :=
    Int.mul_le_mul_of_nonneg_left l.w_le (by have := l.two_le_h; omega)
  have hsum : l.w * l.h = (l.h - 1) * l.w + l.w := by ring
  omega

theorem h_le_luminance : 2 * l.h ≤ l.w * l.h :=
  Int.mul_le_mul_of_nonneg_right l.two_le_w (by have := l.two_le_h; omega)

theorem w_le_luminance : 2 * l.w ≤ l.w * l.h := by
  rw [Int.mul_comm]
  exact Int.mul_le_mul_of_nonneg_left l.two_le_h (by have := l.two_le_w; omega)

theorem size_eq : l.w * (l.h + l.h / 2) =
    l.w * l.h + l.h / 2 * (l.w / 2) + l.h / 2 * (l.w / 2) := by
  have hw : l.w = 2 * (l.w / 2) := by
    have heven := l.even_w
    omega
  have hsum : l.w * (l.h + l.h / 2) = l.w * l.h + l.h / 2 * l.w := by ring
  have hhalf : l.h / 2 * l.w = l.h / 2 * (l.w / 2) + l.h / 2 * (l.w / 2) := by
    rw [← Int.mul_add]
    congr 1
    omega
  omega

/-- The row that is copied ends within the buffer. -/
theorem row_le : (l.h / 2 - 1) * l.rowStride + l.w / 2 ≤
    (l.h / 2 - 1) * l.rowStride + (l.w / 2 - 1) * l.pixelStride + 1 := by
  have htwo := l.two_le_w
  rcases l.pixelStride_eq with hp | hp
  · rw [hp]
    omega
  · rw [hp]
    omega

/-- What is packed: for the chroma rows the pixel stride plays no part. -/
def packed (Y U V : ℤ → Byte) : ByteArr where
  size := l.w * (l.h + l.h / 2)
  byte :=
    write
      (write (write (fun _ => 0) 0 (l.w * l.h) Y) (l.w * l.h) (l.h / 2 * (l.w / 2))
        (strided l.rowStride (l.w / 2) U))
      (l.w * l.h + l.h / 2 * (l.w / 2)) (l.h / 2 * (l.w / 2)) (strided l.rowStride (l.w / 2) V)

/-- The array has an `Int` size, and the number of chroma samples is right where they are copied
at once. -/
def Packable : Prop :=
  l.w * (l.h + l.h / 2) < 2 ^ 31 ∧ (l.h % 2 = 0 ∨ l.rowStride ≠ l.w / 2 ∨ l.w = 2)

theorem rowsFit (hsize : l.w * (l.h + l.h / 2) < 2 ^ 31) (offset : ℤ)
    (hoffset : 0 ≤ offset)
    (hfits : offset + l.h / 2 * (l.w / 2) ≤ l.w * (l.h + l.h / 2)) :
    RowsFit l.w l.h (l.rowStride - l.w / 2) l.rowStride
      ((l.h / 2 - 1) * l.rowStride + (l.w / 2 - 1) * l.pixelStride + 1) offset
      (l.w * (l.h + l.h / 2)) where
  two_le_w := l.two_le_w
  stride_eq := by omega
  stride_nonneg := l.rowStride_nonneg
  offset_nonneg := hoffset
  fits := hfits
  size_lt := hsize
  has := l.row_le
  capacity_lt := l.capacity_lt

/-- The first statements, up to the choice between the two ways to copy the chroma samples. -/
theorem pack_eq (Y U V : ℤ → Byte) (hsize : l.w * (l.h + l.h / 2) < 2 ^ 31) :
    l.pack Y U V =
      let YUV : ByteArr := ⟨l.w * (l.h + l.h / 2), write (fun _ => 0) 0 (l.w * l.h) Y⟩
      if l.rowStride - l.w / 2 = 0 then do
        let (_, YUV) ← (l.chromaBuffer U).get YUV (l.w * l.h) (l.w * l.h / 4)
        let (_, YUV) ← (l.chromaBuffer V).get YUV (int32 (l.w * l.h + l.w * l.h / 4))
          (l.w * l.h / 4)
        return YUV
      else do
        let s ← copyRows l.w l.h (l.rowStride - l.w / 2) ⟨l.chromaBuffer U, YUV, l.w * l.h⟩
        let s ← copyRows l.w l.h (l.rowStride - l.w / 2) ⟨l.chromaBuffer V, s.YUV, s.offset⟩
        return s.YUV := by
  have hcapacity := l.yCapacity_lt
  have hluminance := l.luminance_le
  have hheight := l.h_le_luminance
  have hwidth := l.w_le_luminance
  have hw := l.two_le_w
  have hh := l.two_le_h
  have hstride := l.rowStride_nonneg
  have hstride' := l.rowStride_lt
  have hnonneg : 0 ≤ l.w * (l.h + l.h / 2) := Int.mul_nonneg (by omega) (by omega)
  have hlarger : l.w * l.h ≤ l.w * (l.h + l.h / 2) :=
    Int.mul_le_mul_of_nonneg_left (by omega) (by omega)
  have hnew : newByteArray (l.w * (l.h + l.h / 2)) =
      .ok ⟨l.w * (l.h + l.h / 2), fun _ => 0⟩ := if_neg (by omega)
  have hget := ByteBuffer.get_ok (l.yBuffer Y) ⟨l.w * (l.h + l.h / 2), fun _ => 0⟩ 0 (l.w * l.h)
    le_rfl (by omega) (by dsimp only; omega) (by dsimp only [yBuffer]; omega)
  unfold pack packI420
  rw [int32_of_lt (x := l.h + l.h / 2) (by omega) (by omega),
    int32_of_lt (x := l.w * (l.h + l.h / 2)) (by omega) hsize,
    int32_of_lt (x := l.w * l.h) (by omega) (by omega),
    int32_of_lt (x := l.rowStride - l.w / 2) (by omega) (by omega), hnew, ok_bind, hget, ok_bind]
  simp only [yBuffer, zero_add]

/-- The number of samples of a chroma plane, as it is computed where there is no padding. -/
theorem quarter_eq (h : l.h % 2 = 0 ∨ l.w = 2) : l.w * l.h / 4 = l.h / 2 * (l.w / 2) := by
  rcases h with heven | hw
  · have hw : l.w = 2 * (l.w / 2) := by
      have heven' := l.even_w
      omega
    have hh : l.h = 2 * (l.h / 2) := by omega
    have hprod : l.w * l.h = 4 * (l.h / 2 * (l.w / 2)) := by
      calc l.w * l.h = 2 * (l.w / 2) * (2 * (l.h / 2)) := by rw [← hw, ← hh]
        _ = 4 * (l.h / 2 * (l.w / 2)) := by ring
    omega
  · rw [hw]
    omega

theorem pack_ok (Y U V : ℤ → Byte) (h : l.Packable) : l.pack Y U V = .ok (l.packed Y U V) := by
  obtain ⟨hsize, hodd⟩ := h
  have hsum := l.size_eq
  have hw := l.two_le_w
  have hh := l.two_le_h
  have hsamples : 0 ≤ l.h / 2 * (l.w / 2) := Int.mul_nonneg (by omega) (by omega)
  have hluminance : 0 ≤ l.w * l.h := Int.mul_nonneg (by omega) (by omega)
  rw [l.pack_eq Y U V hsize]
  dsimp only
  by_cases hdense : l.rowStride - l.w / 2 = 0
  · rw [if_pos hdense, l.quarter_eq (hodd.imp_right (fun h => h.resolve_left (by omega)))]
    have hcapacity := l.row_le
    have hstride : l.rowStride = l.w / 2 := by omega
    have hrows : (l.h / 2 - 1) * (l.w / 2) = l.h / 2 * (l.w / 2) - l.w / 2 := by ring
    rw [hstride] at hcapacity
    have hU := ByteBuffer.get_ok (l.chromaBuffer U)
      ⟨l.w * (l.h + l.h / 2), write (fun _ => 0) 0 (l.w * l.h) Y⟩ (l.w * l.h)
      (l.h / 2 * (l.w / 2)) hluminance hsamples (by dsimp only; omega)
      (by dsimp only [chromaBuffer]; rw [hstride]; omega)
    have hV := ByteBuffer.get_ok (l.chromaBuffer V)
      ⟨l.w * (l.h + l.h / 2), write (write (fun _ => 0) 0 (l.w * l.h) Y) (l.w * l.h)
        (l.h / 2 * (l.w / 2)) U⟩
      (l.w * l.h + l.h / 2 * (l.w / 2)) (l.h / 2 * (l.w / 2)) (by omega) hsamples
      (by dsimp only; omega) (by dsimp only [chromaBuffer]; rw [hstride]; omega)
    simp only [chromaBuffer, zero_add] at hU hV
    unfold chromaBuffer
    rw [hU, ok_bind, int32_of_lt (by omega) (by omega)]
    dsimp only
    rw [hV, ok_bind, packed, hstride, strided_self, strided_self]
    rfl
  · rw [if_neg hdense]
    obtain ⟨_, hU⟩ := copyRows_ok (C := U) (D := write (fun _ => 0) 0 (l.w * l.h) Y)
      (l.rowsFit hsize (l.w * l.h) hluminance (by omega)) (by omega)
    obtain ⟨_, hV⟩ := copyRows_ok (C := V)
      (D := write (write (fun _ => 0) 0 (l.w * l.h) Y) (l.w * l.h) (l.h / 2 * (l.w / 2))
        (strided l.rowStride (l.w / 2) U))
      (l.rowsFit hsize (l.w * l.h + l.h / 2 * (l.w / 2)) (by omega) (by omega)) (by omega)
    unfold chromaBuffer
    rw [hU, ok_bind, hV, ok_bind]
    rfl

/-- A size of 2^31 or more wraps to a negative one. -/
theorem pack_oversized (Y U V : ℤ → Byte) (h : 2 ^ 31 ≤ l.w * (l.h + l.h / 2)) :
    l.pack Y U V = .error .negativeArraySize := by
  have hcapacity := l.yCapacity_lt
  have hluminance := l.luminance_le
  have hheight := l.h_le_luminance
  have hh := l.two_le_h
  have hbound : l.w * (l.h + l.h / 2) ≤ l.w * (l.h + l.h) :=
    Int.mul_le_mul_of_nonneg_left (by omega) (by have := l.two_le_w; omega)
  have hdouble : l.w * (l.h + l.h) = l.w * l.h + l.w * l.h := by ring
  have hwrap : int32 (l.w * (l.h + l.h / 2)) < 0 := by
    unfold int32
    omega
  unfold pack packI420
  rw [int32_of_lt (x := l.h + l.h / 2) (by omega) (by omega), newByteArray, if_pos hwrap]
  rfl

/-- For an odd height too many samples of dense chroma planes are asked for. -/
theorem pack_odd (Y U V : ℤ → Byte) (hsize : l.w * (l.h + l.h / 2) < 2 ^ 31)
    (hodd : l.h % 2 ≠ 0) (hdense : l.rowStride = l.w / 2) (hw : l.w ≠ 2) :
    ∃ fault, l.pack Y U V = .error fault := by
  have hsum := l.size_eq
  have htwo := l.two_le_w
  have heven := l.even_w
  have hlum : l.w * l.h = 4 * (l.h / 2 * (l.w / 2)) + l.w := by
    calc l.w * l.h = l.w * (2 * (l.h / 2) + 1) := by
          congr 1
          omega
      _ = 2 * (l.h / 2 * l.w) + l.w := by ring
      _ = 2 * (l.h / 2 * (2 * (l.w / 2))) + l.w := by
          congr 3
          omega
      _ = 4 * (l.h / 2 * (l.w / 2)) + l.w := by ring
  have hover : l.h / 2 * (l.w / 2) < l.w * l.h / 4 := by omega
  have hrow : 1 * (l.w / 2) ≤ l.h / 2 * (l.w / 2) :=
    Int.mul_le_mul_of_nonneg_right (by have := l.two_le_h; omega) (by omega)
  rw [l.pack_eq Y U V hsize]
  dsimp only
  rw [if_pos (by omega)]
  cases hU : (l.chromaBuffer U).get
      ⟨l.w * (l.h + l.h / 2), write (fun _ => 0) 0 (l.w * l.h) Y⟩ (l.w * l.h)
      (l.w * l.h / 4) with
  | error fault => exact ⟨fault, rfl⟩
  | ok copied =>
      obtain ⟨plane, YUV⟩ := copied
      have hYUV : YUV.size = l.w * (l.h + l.h / 2) := ByteBuffer.size_of_get hU
      refine ⟨.indexOutOfBounds, ?_⟩
      rw [ok_bind]
      dsimp only
      rw [int32_of_lt (by omega) (by omega), ByteBuffer.get_error (by omega)]
      rfl

/-! ### What the array has -/

variable {l}

theorem packed_luminance (Y U V : ℤ → Byte) {r c : ℤ} (hr : 0 ≤ r) (hrh : r < l.h) (hc : 0 ≤ c)
    (hcw : c < l.w) : (l.packed Y U V).byte (r * l.w + c) = Y (r * l.w + c) := by
  have hrow : 0 ≤ r * l.w := Int.mul_nonneg hr (by omega)
  have hlast : (r + 1) * l.w ≤ l.h * l.w := Int.mul_le_mul_of_nonneg_right hrh (by omega)
  have hnext : (r + 1) * l.w = r * l.w + l.w := by ring
  have hcomm : l.h * l.w = l.w * l.h := Int.mul_comm ..
  have hsamples : 0 ≤ l.h / 2 * (l.w / 2) := Int.mul_nonneg (by omega) (by omega)
  unfold packed
  dsimp only
  rw [write_outside (by omega), write_outside (by omega), write_inside (by omega) (by omega)]
  congr 1
  omega

section Chroma

variable {r c : ℤ} (hr : 0 ≤ r) (hrh : r < l.h / 2) (hc : 0 ≤ c) (hcw : c < l.w / 2)

include hr hrh hc hcw

/-- A chroma sample lies among those of its plane. -/
theorem chroma_index :
    0 ≤ r * (l.w / 2) + c ∧ r * (l.w / 2) + c < l.h / 2 * (l.w / 2) := by
  have hrow : 0 ≤ r * (l.w / 2) := Int.mul_nonneg hr (by omega)
  have hlast : (r + 1) * (l.w / 2) ≤ l.h / 2 * (l.w / 2) :=
    Int.mul_le_mul_of_nonneg_right hrh (by omega)
  have hnext : (r + 1) * (l.w / 2) = r * (l.w / 2) + l.w / 2 := by ring
  omega

theorem packed_blue (Y U V : ℤ → Byte) :
    (l.packed Y U V).byte (l.w * l.h + (r * (l.w / 2) + c)) = U (r * l.rowStride + c) := by
  obtain ⟨hfirst, hlast⟩ := chroma_index hr hrh hc hcw
  unfold packed
  dsimp only
  rw [write_outside (by omega), write_inside (by omega) (by omega)]
  refine Eq.trans ?_ (strided_apply hc hcw)
  congr 1
  omega

theorem packed_red (Y U V : ℤ → Byte) :
    (l.packed Y U V).byte
      (l.w * l.h + l.h / 2 * (l.w / 2) + (r * (l.w / 2) + c)) = V (r * l.rowStride + c) := by
  obtain ⟨hfirst, hlast⟩ := chroma_index hr hrh hc hcw
  unfold packed
  dsimp only
  rw [write_inside (by omega) (by omega)]
  refine Eq.trans ?_ (strided_apply hc hcw)
  congr 1
  omega

end Chroma

/-- The condition under which what is packed is the image. -/
theorem packed_isI420_iff : (∀ Y U V, l.IsI420 Y U V (l.packed Y U V)) ↔
    l.yRowStride = l.w ∧ (l.pixelStride = 1 ∨ l.w = 2) := by
  have hw := l.two_le_w
  have hh := l.two_le_h
  have heven := l.even_w
  constructor
  · intro hall
    constructor
    · -- a luminance plane that is light at the start of the second row only
      have hsample := (hall (fun j => if j = l.yRowStride then 1 else 0) 0 0).luminance 1 0
        (by omega) (by omega) le_rfl (by omega)
      rw [packed_luminance _ _ _ (by omega) (by omega) le_rfl (by omega)] at hsample
      by_contra hne
      have hdark : ¬ 1 * l.w + 0 = l.yRowStride := by omega
      have hlight : 1 * l.yRowStride + 0 = l.yRowStride := by omega
      rw [if_neg hdark, if_pos hlight] at hsample
      exact absurd hsample (by decide)
    · rcases l.pixelStride_eq with hone | htwo
      · exact .inl hone
      · refine .inr ?_
        by_contra hne
        -- a plane that is light at its second sample only
        have hsample := (hall 0 (fun j => if j = 2 then 1 else 0) 0).blue 0 1 le_rfl (by omega)
          (by omega) (by omega)
        rw [packed_blue le_rfl (by omega) (by omega) (by omega), htwo] at hsample
        have hdark : ¬ 0 * l.rowStride + 1 = 2 := by omega
        have hlight : 0 * l.rowStride + 1 * 2 = 2 := by omega
        rw [if_neg hdark, if_pos hlight] at hsample
        exact absurd hsample (by decide)
  · rintro ⟨hstride, hpixel⟩ Y U V
    have hcolumn {c : ℤ} (hc : 0 ≤ c) (hcw : c < l.w / 2) : c * l.pixelStride = c := by
      rcases hpixel with hone | htwo
      · rw [hone, Int.mul_one]
      · have hzero : c = 0 := by omega
        rw [hzero, Int.zero_mul]
    refine ⟨rfl, fun r c hr hrh hc hcw => ?_, fun r c hr hrh hc hcw => ?_,
      fun r c hr hrh hc hcw => ?_⟩
    · rw [packed_luminance _ _ _ hr hrh hc hcw, hstride]
    · rw [packed_blue hr hrh hc hcw, hcolumn hc hcw]
    · rw [packed_red hr hrh hc hcw, hcolumn hc hcw]

end PlaneLayout

/-- Every image of a layout is packed if and only if the rows of the luminance have no padding, the
chroma samples of a row follow each other, an odd height comes with chroma rows that have padding,
and the size of the array is an `Int`. -/
theorem packs_iff (l : PlaneLayout) : l.Packs ↔
    l.yRowStride = l.w ∧ (l.pixelStride = 1 ∨ l.w = 2) ∧
      (l.h % 2 = 0 ∨ l.rowStride ≠ l.w / 2 ∨ l.w = 2) ∧ l.w * (l.h + l.h / 2) < 2 ^ 31 := by
  by_cases hpackable : l.Packable
  · have hiff : l.Packs ↔ ∀ Y U V, l.IsI420 Y U V (l.packed Y U V) := by
      unfold PlaneLayout.Packs
      simp only [l.pack_ok _ _ _ hpackable, Except.ok.injEq, exists_eq_left']
    rw [hiff, PlaneLayout.packed_isI420_iff]
    obtain ⟨hsize, hodd⟩ := hpackable
    constructor
    · rintro ⟨hstride, hpixel⟩
      exact ⟨hstride, hpixel, hodd, hsize⟩
    · rintro ⟨hstride, hpixel, -, -⟩
      exact ⟨hstride, hpixel⟩
  · refine iff_of_false (fun hpacks => ?_) (fun h => hpackable ⟨h.2.2.2, h.2.2.1⟩)
    obtain ⟨YUV, hYUV, -⟩ := hpacks 0 0 0
    by_cases hsize : l.w * (l.h + l.h / 2) < 2 ^ 31
    · have hodd : ¬ (l.h % 2 = 0 ∨ l.rowStride ≠ l.w / 2 ∨ l.w = 2) :=
        fun h => hpackable ⟨hsize, h⟩
      push Not at hodd
      obtain ⟨fault, hfault⟩ := l.pack_odd 0 0 0 hsize hodd.1 hodd.2.1 hodd.2.2
      rw [hfault] at hYUV
      cases hYUV
    · rw [l.pack_oversized 0 0 0 (not_lt.mp hsize)] at hYUV
      cases hYUV

/-- 4 × 2 pixels with interleaved chroma. -/
def interleavedLayout : PlaneLayout where
  w := 4
  h := 2
  yRowStride := 4
  rowStride := 4
  pixelStride := 2
  even_w := rfl
  two_le_w := by decide
  two_le_h := by decide
  w_le := by decide
  rowStride_nonneg := by decide
  rowStride_lt := by decide
  pixelStride_eq := .inr rfl
  yCapacity_lt := by decide
  capacity_lt := by decide

/-- The second blue sample is taken from between the first and the second one. -/
theorem interleaved_packed_wrong :
    (interleavedLayout.pack (fun _ => 0) (fun j => if j = 2 then 1 else 0) (fun _ => 0)).map
        (fun YUV => YUV.byte 9) = .ok 0 ∧ ¬∀ l : PlaneLayout, l.Packs := by
  refine ⟨rfl, fun h => ?_⟩
  have hpixel := ((packs_iff interleavedLayout).mp (h interleavedLayout)).2.1
  exact absurd hpixel (by decide)

end ARArch
