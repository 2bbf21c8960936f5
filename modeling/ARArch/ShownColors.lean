import ARArch.CameraTexture
import ARArch.ColorConversion
import Mathlib.Data.List.Induction

/-!
# The colours of the camera texture

The cameras are opened for RGBA, and `update_camera_texture` copies their bytes to an image of the
format that `create_swapchain` has chosen for the surface. The colours that a shader reads there
are those of the camera if the surface has `VK_FORMAT_R8G8B8A8_UNORM`; else red and blue are
exchanged.
-/

namespace ARArch

open LumaChroma YUV2RGBA RenderScriptFrameHandler

inductive VkFormat
  | r8g8b8a8Unorm
  | b8g8r8a8Unorm
  | other (value : ℕ)
  deriving DecidableEq

namespace VulkanRenderer

/-- `surface_format_indices`, as `VulkanTools::get_surface_formats` fills it. -/
def surfaceFormatIndices (formats : List VkFormat) : VkFormat → Option ℕ :=
  formats.zipIdx.foldl (fun indices e => Function.update indices e.1 (some e.2)) fun _ => none

/-- `surface_format` of `create_swapchain`, which fails if there is none. -/
def surfaceFormat (formats : List VkFormat) : Option VkFormat :=
  if (surfaceFormatIndices formats .r8g8b8a8Unorm).isSome then some .r8g8b8a8Unorm
  else if (surfaceFormatIndices formats .b8g8r8a8Unorm).isSome then some .b8g8r8a8Unorm
  else none

/-- `imageFormat` of the swapchain: `formats[surface_format_index].format` -/
def imageFormat (formats : List VkFormat) : Option VkFormat := do
  let format ← surfaceFormat formats
  let index ← surfaceFormatIndices formats format
  formats[index]?

theorem surfaceFormatIndices_snoc (formats : List VkFormat) (format : VkFormat) :
    surfaceFormatIndices (formats ++ [format]) =
      Function.update (surfaceFormatIndices formats) format (some formats.length) := by
  simp [surfaceFormatIndices, List.zipIdx_append]

/-- An index of a format is one of its places. -/
theorem surfaceFormatIndices_spec (formats : List VkFormat) (format : VkFormat) :
    (format ∈ formats ∧ ∃ index, surfaceFormatIndices formats format = some index ∧
      formats[index]? = some format) ∨
    (format ∉ formats ∧ surfaceFormatIndices formats format = none) := by
  induction formats using List.reverseRecOn with
  | nil => exact Or.inr ⟨List.not_mem_nil, rfl⟩
  | append_singleton formats last ih =>
      rw [surfaceFormatIndices_snoc, List.mem_append, List.mem_singleton]
      by_cases hlast : format = last
      · subst hlast
        refine Or.inl ⟨Or.inr rfl, formats.length, Function.update_self _ _ _, ?_⟩
        exact List.getElem?_concat_length
      · rw [Function.update_of_ne hlast]
        obtain ⟨hmem, index, hindex, hget⟩ | ⟨hmem, hnone⟩ := ih
        · refine Or.inl ⟨Or.inl hmem, index, hindex, ?_⟩
          obtain ⟨hlt, -⟩ := List.getElem?_eq_some_iff.mp hget
          rw [List.getElem?_append_left hlt, hget]
        · exact Or.inr ⟨by simp [hmem, hlast], hnone⟩

theorem isSome_surfaceFormatIndices (formats : List VkFormat) (format : VkFormat) :
    (surfaceFormatIndices formats format).isSome ↔ format ∈ formats := by
  obtain ⟨hmem, index, hindex, -⟩ | ⟨hmem, hnone⟩ := surfaceFormatIndices_spec formats format
  · simp [hmem, hindex]
  · simp [hmem, hnone]

/-- The swapchain has the format that the texture has. -/
theorem imageFormat_eq (formats : List VkFormat) : imageFormat formats = surfaceFormat formats := by
  have hchosen (format : VkFormat) (h : (surfaceFormatIndices formats format).isSome) :
      (do let index ← surfaceFormatIndices formats format; formats[index]?) = some format := by
    obtain ⟨-, index, hindex, hget⟩ | ⟨-, hnone⟩ := surfaceFormatIndices_spec formats format
    · rw [hindex]
      exact hget
    · rw [hnone] at h
      cases h
  unfold imageFormat surfaceFormat
  split_ifs with hr hb
  · exact hchosen _ hr
  · exact hchosen _ hb
  · rfl

end VulkanRenderer

/-! ### What a shader reads -/

/-- The order of the bytes of a pixel in memory. -/
def VkFormat.order : VkFormat → Option ColorFormats
  | .r8g8b8a8Unorm => some .RGBA
  | .b8g8r8a8Unorm => some .BGRA
  | .other _ => none

/-- The red, green and blue that the bytes of a pixel stand for. -/
def ColorFormats.colors (format : ColorFormats) (byte : ℕ → Byte) : UInt8 × UInt8 × UInt8 :=
  match format with
  | .RGBA => (.ofBitVec (byte 0), .ofBitVec (byte 1), .ofBitVec (byte 2))
  | .BGRA => (.ofBitVec (byte 2), .ofBitVec (byte 1), .ofBitVec (byte 0))

/-- What is read of the pixel at `(x, y)` of an image that is uploaded from a buffer. -/
def texel (format : ColorFormats) (width : ℕ) (buffer : StagingBuffer) (x y : ℕ) :
    UInt8 × UInt8 × UInt8 :=
  format.colors fun k => buffer.mappedData (pixelIndex width x y k)

/-- `COLOR_FORMAT` -/
def MAR.colorFormat : ColorFormats := .RGBA

/-- The colour data of a frame. -/
def frameData (image : YuvAllocation) (i : ℕ) : Byte :=
  ((rgbaData MAR.colorFormat image)[i]?.getD 0).toBitVec

/-- The frame of an image, which is as wide and as high as the camera. -/
def TextureCall.ofImage (image : YuvAllocation) : TextureCall where
  width := image.ay.dimX
  height := image.ay.dimY

/-- The colours read of the pixels are near those of the image. -/
def ShowsColors (format : ColorFormats) (image : YuvAllocation) (buffer : StagingBuffer) : Prop :=
  ∀ x < image.ay.dimX, ∀ y < image.ay.dimY, ∀ c : Color ℚ,
    Near (deviation (image.ay.element x y) (image.au.element (x / 2) (y / 2))
      (image.av.element (x / 2) (y / 2)) c) c (texel format image.ay.dimX buffer x y).1
      (texel format image.ay.dimX buffer x y).2.1 (texel format image.ay.dimX buffer x y).2.2

theorem pixelIndex_eq (width x y k : ℕ) : pixelIndex width x y k = 4 * (y * width + x) + k := by
  rw [pixelIndex, Nat.mul_comm]

/-- The frame of an image fits a texture and a buffer. -/
structure ImageFits (image : YuvAllocation) (t : Texture) (buffer : StagingBuffer) : Prop where
  width_le : image.ay.dimX ≤ t.cameraWidth
  height_le : image.ay.dimY ≤ t.cameraHeight
  size_le : image.ay.dimX * image.ay.dimY * 4 ≤ buffer.size

variable {image : YuvAllocation} {t : Texture} {contents : TextureContents}
  {buffer : StagingBuffer} {x y : ℕ}

/-- The bytes of a frame in the buffer are read as the colours that the camera wrote if both are in
the same order. -/
theorem texel_copied (format : ColorFormats) (hfits : ImageFits image t buffer)
    (hdata : contents.colorData = frameData image) (hx : x < image.ay.dimX)
    (hy : y < image.ay.dimY) : ∃ red green blue : UInt8,
      texel format image.ay.dimX (copied t (.ofImage image) contents buffer) x y =
        format.colors (fun k => ((MAR.colorFormat.bytes red green blue)[k]?.getD 0).toBitVec) ∧
      ∀ c : Color ℚ, Near (deviation (image.ay.element x y) (image.au.element (x / 2) (y / 2))
        (image.av.element (x / 2) (y / 2)) c) c red green blue := by
  obtain ⟨red, green, blue, hbytes, hnear, -⟩ := rgbaData_near MAR.colorFormat image hx hy
  refine ⟨red, green, blue, ?_, hnear⟩
  have hw : (TextureCall.ofImage image).w t = image.ay.dimX := Nat.min_eq_right hfits.width_le
  have hh : (TextureCall.ofImage image).h t = image.ay.dimY := Nat.min_eq_right hfits.height_le
  have hshows : ShowsFrame t (.ofImage image) contents
      (copied t (.ofImage image) contents buffer) :=
    FitsBuffer.showsFrame ⟨hfits.size_le, Or.inl hfits.width_le⟩
  have hbyte : ∀ k < 4, (copied t (.ofImage image) contents buffer).mappedData
      (pixelIndex image.ay.dimX x y k) =
        ((MAR.colorFormat.bytes red green blue)[k]?.getD 0).toBitVec := by
    intro k hk
    have hpixel := hshows.pixel x (hw ▸ hx) y (hh ▸ hy) k hk
    rw [hw] at hpixel
    rw [hpixel, hdata, frameData, ← hbytes k hk, TextureCall.ofImage, pixelIndex_eq]
  cases format with
  | RGBA =>
      simp only [texel, ColorFormats.colors]
      rw [hbyte 0 (by omega), hbyte 1 (by omega), hbyte 2 (by omega)]
  | BGRA =>
      simp only [texel, ColorFormats.colors]
      rw [hbyte 0 (by omega), hbyte 1 (by omega), hbyte 2 (by omega)]

/-- Red and blue are far apart in a red. -/
theorem not_near_red {red green blue : UInt8}
    (h : Near (deviation 81 90 240 (colorOf 255 0 0)) (colorOf 255 0 0) red green blue) :
    ¬ Near (deviation 81 90 240 (colorOf 255 0 0)) (colorOf 255 0 0) blue green red := by
  intro hswapped
  rw [deviation_red] at h hswapped
  have hle : (0 : ℚ) ≤ 255 := by norm_num
  have hzero : saturate 0 255 (colorOf 255 0 0).blue = 0 := saturate_eq_self le_rfl hle
  have hmax : saturate 0 255 (colorOf 255 0 0).red = 255 := saturate_eq_self hle le_rfl
  obtain ⟨-, hlow⟩ := abs_le.mp (hzero ▸ h.blue)
  obtain ⟨hhigh, -⟩ := abs_le.mp (hmax ▸ hswapped.red)
  linarith

namespace VulkanRenderer

/-- The order of the bytes of the camera texture. -/
def textureOrder (formats : List VkFormat) : Option ColorFormats :=
  (surfaceFormat formats).bind VkFormat.order

end VulkanRenderer

end ARArch
