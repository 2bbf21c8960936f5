import ARArch.Rasterization
import ARArch.ShownColors
import ARArch.TextureSampling

/-!
# The pixels of the screen

`record_default_commands` records one draw of the four vertices of `camera.vert`, a strip of two
triangles on which `camera.frag` reads the camera texture. What is said of it is said of places: the
place on the screen where Vulkan puts a vertex, the place in the texture that belongs to the middle
of a pixel, and the texels around that. How exactly a device computes them, how it weighs the texels
and which of the triangles covers a pixel on their common edge is left to the device.
-/

namespace ARArch

open Rasterization TextureSampling

abbrev Vec4 := ℚ × ℚ × ℚ × ℚ

/-! ### The vertices -/

namespace CameraVert

structure Output where
  texCoord : ℚ × ℚ
  /-- `gl_Position` -/
  position : Vec4

def quadVertices : ℕ → ℚ × ℚ
  | 0 => (1, 1)
  | 1 => (1, -1)
  | 2 => (-1, 1)
  | _ => (-1, -1)

def texVertices : ℕ → ℚ × ℚ
  | 0 => (1, 1)
  | 1 => (1, 0)
  | 2 => (0, 1)
  | _ => (0, 0)

def z : ℚ := 0

def main (vertexIndex : ℕ) : Output where
  texCoord := texVertices vertexIndex
  position := ((quadVertices vertexIndex).1, (quadVertices vertexIndex).2, z, 1)

end CameraVert

/-! ### The commands -/

structure VkExtent2D where
  width : ℕ
  height : ℕ

structure VkRect2D where
  x : ℕ
  y : ℕ
  extent : VkExtent2D

structure VkViewport where
  x : ℚ
  y : ℚ
  width : ℚ
  height : ℚ
  minDepth : ℚ
  maxDepth : ℚ

/-- The union of a colour and a depth: the depth is where the red is. -/
structure VkClearValue where
  words : Vec4

namespace VkClearValue

def depth (value : VkClearValue) : ℚ := value.words.1

def withColor (color : Vec4) : VkClearValue := ⟨color⟩

def setDepth (depth : ℚ) (value : VkClearValue) : VkClearValue := ⟨(depth, value.words.2)⟩

end VkClearValue

/-- The render pass of one image of the swapchain. -/
structure RenderCommands where
  clearColor : VkClearValue
  clearDepth : VkClearValue
  viewport : VkViewport
  scissor : VkRect2D
  vertexCount : ℕ

def recordDefaultCommands (backgroundColor : ℚ × ℚ × ℚ) (extent : VkExtent2D) : RenderCommands where
  clearColor := (VkClearValue.withColor
    (backgroundColor.1, backgroundColor.2.1, backgroundColor.2.2, 1)).setDepth 0
  clearDepth := (VkClearValue.withColor (0, 0, 0, 0)).setDepth 1
  viewport := {
    x := 0, y := 0, width := extent.width, height := extent.height, minDepth := 0, maxDepth := 1 }
  scissor := { x := 0, y := 0, extent }
  vertexCount := 4

/-! ### The pipeline -/

/-- The vertices of a triangle of the topology TRIANGLE_STRIP. -/
def stripVertices (i : ℕ) : ℕ × ℕ × ℕ := (i, i + (1 + i % 2), i + (2 - i % 2))

namespace VkViewport

def point (viewport : VkViewport) (position : Vec4) : Rasterization.Point where
  x := viewport.width / 2 * (position.1 / position.2.2.2) + (viewport.x + viewport.width / 2)
  y := viewport.height / 2 * (position.2.1 / position.2.2.2) + (viewport.y + viewport.height / 2)

def depth (viewport : VkViewport) (position : Vec4) : ℚ :=
  (viewport.maxDepth - viewport.minDepth) * (position.2.2.1 / position.2.2.2) + viewport.minDepth

end VkViewport

def VkRect2D.contains (rect : VkRect2D) (x y : ℕ) : Bool :=
  rect.x ≤ x && x < rect.x + rect.extent.width && rect.y ≤ y && y < rect.y + rect.extent.height

/-- The value of the `i`-th triangle's vertices. -/
def onVertices {α : Type} (i : ℕ) (f : CameraVert.Output → α) : α × α × α :=
  let (k₀, k₁, k₂) := stripVertices i
  (f (CameraVert.main k₀), f (CameraVert.main k₁), f (CameraVert.main k₂))

def triangle (viewport : VkViewport) (i : ℕ) : Triangle :=
  let (a, b, c) := onVertices i fun output => viewport.point output.position
  ⟨a, b, c⟩

/-- `inTexCoord` at a point of the plane of a triangle. -/
def texCoordAt (viewport : VkViewport) (i : ℕ) (p : Rasterization.Point) : ℚ × ℚ :=
  let interpolate (f : CameraVert.Output → ℚ) : ℚ :=
    (triangle viewport i).perspective (onVertices i fun output => output.position.2.2.2)
      (onVertices i f) p
  (interpolate fun output => output.texCoord.1, interpolate fun output => output.texCoord.2)

def center (x y : ℕ) : Rasterization.Point := ⟨x + 1 / 2, y + 1 / 2⟩

def depthAt (viewport : VkViewport) (i : ℕ) (p : Rasterization.Point) : ℚ :=
  (triangle viewport i).linear (onVertices i fun output => viewport.depth output.position) p

/-- A pixel is drawn once, from one place in the texture: one of the triangles covers it, which
shows its front, the counter-clockwise one, and passes the scissor and the depth test LESS. -/
structure ShowsPlace (sampling : PointSampling) (commands : RenderCommands) (x y : ℕ)
    (place : ℚ × ℚ) : Prop where
  covered : ∃! i, i < commands.vertexCount - 2 ∧
    sampling.covers (triangle commands.viewport i) (center x y) = true
  front : ∀ i < commands.vertexCount - 2, 0 < (triangle commands.viewport i).area
  scissor : commands.scissor.contains x y = true
  nearer : ∀ i < commands.vertexCount - 2,
    depthAt commands.viewport i (center x y) < commands.clearDepth.depth
  texCoord : ∀ i < commands.vertexCount - 2,
    texCoordAt commands.viewport i (center x y) = place

/-! ### The two triangles -/

/-- Of two triangles one covers a pixel if they do not agree on it. -/
theorem existsUnique_of_covers_once {covers : ℕ → Bool} (h : covers 1 = !covers 0) :
    ∃! i, i < 2 ∧ covers i = true := by
  have htwo {j : ℕ} (hj : j < 2) : j = 0 ∨ j = 1 := by omega
  cases hfirst : covers 0 with
  | true =>
      refine ⟨0, ⟨Nat.two_pos, hfirst⟩, ?_⟩
      rintro j ⟨hj, hcovered⟩
      obtain rfl | rfl := htwo hj
      · rfl
      · rw [h, hfirst] at hcovered
        contradiction
  | false =>
      rw [hfirst] at h
      refine ⟨1, ⟨Nat.one_lt_two, h⟩, ?_⟩
      rintro j ⟨hj, hcovered⟩
      obtain rfl | rfl := htwo hj
      · rw [hfirst] at hcovered
        contradiction
      · rfl

section

variable (sampling : PointSampling) (backgroundColor : ℚ × ℚ × ℚ)
  {extent : VkExtent2D} {i x y : ℕ}

/-- The vertices of the quad are the corners of the screen. -/
theorem triangle_zero : triangle (recordDefaultCommands backgroundColor extent).viewport 0 =
    ⟨⟨extent.width, extent.height⟩, ⟨extent.width, 0⟩, ⟨0, extent.height⟩⟩ := by
  simp only [triangle, onVertices, stripVertices, CameraVert.main, CameraVert.quadVertices,
    VkViewport.point, recordDefaultCommands, Triangle.mk.injEq, Rasterization.Point.mk.injEq]
  refine ⟨⟨?_, ?_⟩, ⟨?_, ?_⟩, ?_, ?_⟩ <;> ring

theorem triangle_one : triangle (recordDefaultCommands backgroundColor extent).viewport 1 =
    ⟨⟨extent.width, 0⟩, ⟨0, 0⟩, ⟨0, extent.height⟩⟩ := by
  simp only [triangle, onVertices, stripVertices, CameraVert.main, CameraVert.quadVertices,
    VkViewport.point, recordDefaultCommands, Triangle.mk.injEq, Rasterization.Point.mk.injEq]
  refine ⟨⟨?_, ?_⟩, ⟨?_, ?_⟩, ?_, ?_⟩ <;> ring

variable (hwidth : 0 < extent.width) (hheight : 0 < extent.height)

include hwidth hheight

/-- Both triangles show their front. -/
theorem area_pos (hi : i < 2) :
    0 < (triangle (recordDefaultCommands backgroundColor extent).viewport i).area := by
  have hw : (0 : ℚ) < extent.width := by exact_mod_cast hwidth
  have hh : (0 : ℚ) < extent.height := by exact_mod_cast hheight
  have harea : (triangle (recordDefaultCommands backgroundColor extent).viewport i).area =
      extent.width * extent.height / 2 := by
    obtain rfl | rfl : i = 0 ∨ i = 1 := by omega
    · rw [triangle_zero, Triangle.area]
      ring
    · rw [triangle_one, Triangle.area]
      ring
  rw [harea]
  positivity

/-- The texture coordinates are those of the place on the screen. -/
theorem texCoordAt_eq (hi : i < 2) (p : Rasterization.Point) :
    texCoordAt (recordDefaultCommands backgroundColor extent).viewport i p =
      (p.x / extent.width, p.y / extent.height) := by
  have hw : (extent.width : ℚ) ≠ 0 := by exact_mod_cast hwidth.ne'
  have hh : (extent.height : ℚ) ≠ 0 := by exact_mod_cast hheight.ne'
  have harea := (area_pos backgroundColor hwidth hheight hi).ne'
  have hone : (onVertices i fun output => output.position.2.2.2) = (1, 1, 1) := rfl
  have hu : (triangle (recordDefaultCommands backgroundColor extent).viewport i).IsAffine
      (onVertices i fun output => output.texCoord.1) (1 / extent.width) 0 0 := by
    obtain rfl | rfl : i = 0 ∨ i = 1 := by omega
    · rw [triangle_zero]
      constructor <;> simp [onVertices, stripVertices, CameraVert.main, CameraVert.texVertices, hw]
    · rw [triangle_one]
      constructor <;> simp [onVertices, stripVertices, CameraVert.main, CameraVert.texVertices, hw]
  have hv : (triangle (recordDefaultCommands backgroundColor extent).viewport i).IsAffine
      (onVertices i fun output => output.texCoord.2) 0 (1 / extent.height) 0 := by
    obtain rfl | rfl : i = 0 ∨ i = 1 := by omega
    · rw [triangle_zero]
      constructor <;> simp [onVertices, stripVertices, CameraVert.main, CameraVert.texVertices, hh]
    · rw [triangle_one]
      constructor <;> simp [onVertices, stripVertices, CameraVert.main, CameraVert.texVertices, hh]
  simp only [texCoordAt, hone, Triangle.perspective_one harea]
  rw [Triangle.linear_eq harea hu, Triangle.linear_eq harea hv, Prod.mk.injEq]
  constructor <;> ring

theorem depthAt_eq (hi : i < 2) (p : Rasterization.Point) :
    depthAt (recordDefaultCommands backgroundColor extent).viewport i p = 0 := by
  have harea := (area_pos backgroundColor hwidth hheight hi).ne'
  have hzero : (triangle (recordDefaultCommands backgroundColor extent).viewport i).IsAffine
      (onVertices i fun output =>
        (recordDefaultCommands backgroundColor extent).viewport.depth output.position) 0 0 0 := by
    constructor <;> simp [onVertices, stripVertices, CameraVert.main, CameraVert.z,
      VkViewport.depth, recordDefaultCommands]
  rw [depthAt, Triangle.linear_eq harea hzero]
  ring

/-- Each pixel is covered by exactly one of the triangles. -/
theorem covers_once (hx : x < extent.width) (hy : y < extent.height) :
    sampling.covers (triangle (recordDefaultCommands backgroundColor extent).viewport 1)
        (center x y) =
      !sampling.covers (triangle (recordDefaultCommands backgroundColor extent).viewport 0)
        (center x y) := by
  have hw : (0 : ℚ) < extent.width := by exact_mod_cast hwidth
  have hh : (0 : ℚ) < extent.height := by exact_mod_cast hheight
  have hx' : (x : ℚ) + 1 ≤ extent.width := by exact_mod_cast hx
  have hy' : (y : ℚ) + 1 ≤ extent.height := by exact_mod_cast hy
  let a : Rasterization.Point := ⟨extent.width, 0⟩
  let b : Rasterization.Point := ⟨0, extent.height⟩
  have hside : side a b ⟨0, 0⟩ ≠ 0 := by
    have hvalue : side a b ⟨0, 0⟩ = extent.width * extent.height := by
      simp only [side, a, b]
      ring
    rw [hvalue]
    positivity
  have hopposite : corner ⟨0, 0⟩ a b 1 1 = ⟨extent.width, extent.height⟩ := by
    simp [corner, a, b]
  have hcenter : corner ⟨0, 0⟩ a b ((x + 1 / 2) / extent.width) ((y + 1 / 2) / extent.height) =
      center x y := by
    simp only [corner, center, a, b, Rasterization.Point.mk.injEq]
    constructor <;> field_simp <;> ring
  rw [triangle_zero, triangle_one, ← hopposite, ← hcenter]
  apply sampling.covers_once hside
  · exact .acb
  · exact .cab
  · exact ⟨by positivity, (div_lt_one hw).mpr (by linarith)⟩
  · exact ⟨by positivity, (div_lt_one hh).mpr (by linarith)⟩

/-- The place in the texture that belongs to a pixel: upright, and not mirrored. -/
def placeOf (extent : VkExtent2D) (x y : ℕ) : ℚ × ℚ :=
  ((x + 1 / 2) / extent.width, (y + 1 / 2) / extent.height)

theorem showsPlace_placeOf (hx : x < extent.width) (hy : y < extent.height) :
    ShowsPlace sampling (recordDefaultCommands backgroundColor extent) x y
      (placeOf extent x y) where
  covered := existsUnique_of_covers_once
    (covers_once sampling backgroundColor hwidth hheight hx hy)
  front _ hi := area_pos backgroundColor hwidth hheight hi
  scissor := by simp [VkRect2D.contains, recordDefaultCommands, hx, hy]
  nearer _ hi := by
    rw [depthAt_eq backgroundColor hwidth hheight hi]
    exact zero_lt_one
  texCoord _ hi := texCoordAt_eq backgroundColor hwidth hheight hi (center x y)

end

/-! ### What the screen shows -/

/-- No pixel has REPEAT read texels that are not around its place. -/
def ShowsAround (extent : VkExtent2D) (width height : ℕ) : Prop :=
  ∀ x < extent.width, ∀ y < extent.height,
    ReadsAround width (placeOf extent x y).1 ∧ ReadsAround height (placeOf extent x y).2

open YUV2RGBA

/-- With an image as large as the texture and the screen, the texels that a pixel is drawn from are
in colours near those that the camera saw there. -/
theorem screen_shows_image {image : YuvAllocation} {t : Texture} {contents : TextureContents}
    {buffer : StagingBuffer} (hfits : ImageFits image t buffer)
    (hdata : contents.colorData = frameData image) (hwidth : t.cameraWidth = image.ay.dimX)
    (hheight : t.cameraHeight = image.ay.dimY) {x y : ℕ} (hx : x < image.ay.dimX)
    (hy : y < image.ay.dimY) :
    ∀ i ∈ footprint t.cameraWidth (placeOf ⟨t.cameraWidth, t.cameraHeight⟩ x y).1,
      ∀ j ∈ footprint t.cameraHeight (placeOf ⟨t.cameraWidth, t.cameraHeight⟩ x y).2,
        ∃ red green blue : UInt8,
          texel .RGBA t.cameraWidth (copied t (.ofImage image) contents buffer) i.toNat j.toNat =
            (red, green, blue) ∧
          ∀ c : LumaChroma.Color ℚ, Near (deviation (image.ay.element x y)
            (image.au.element (x / 2) (y / 2)) (image.av.element (x / 2) (y / 2)) c) c red green
              blue := by
  have hw : 0 < t.cameraWidth := hwidth ▸ Nat.zero_lt_of_lt hx
  have hh : 0 < t.cameraHeight := hheight ▸ Nat.zero_lt_of_lt hy
  intro i hi j hj
  obtain rfl : i = x := by rwa [placeOf, footprint_middle hw] at hi
  obtain rfl : j = y := by rwa [placeOf, footprint_middle hh] at hj
  rw [Int.toNat_natCast, Int.toNat_natCast, hwidth]
  exact texel_copied .RGBA hfits hdata hx hy

end ARArch
