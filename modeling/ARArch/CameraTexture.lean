import ARArch.PlanePacking

/-!
# The camera texture

`VulkanRenderer::update_camera_texture` copies the front of a frame to a staging buffer, lets `draw`
write there, and uploads the buffer as an image whose rows are as long as the texture is wide. The
buffer is made for the first frame and used for all later ones while it can be mapped.

What memory holds is a function of the index. The calls of a run are given by the sizes of their
frames and by what Vulkan answers; what frames and buffers hold may be anything.
-/

namespace ARArch

structure StagingBuffer where
  size : ℕ
  mappedData : ℕ → Byte
  size_lt : size < 2 ^ 32

/-- `camera_width` and `camera_height` -/
structure Texture where
  cameraWidth : ℕ
  cameraHeight : ℕ

/-- The size of a frame, and whether the staging buffer can be mapped or a new one created. -/
structure TextureCall where
  width : ℕ
  height : ℕ
  mapped : Bool := true
  created : Bool := true

/-- What a frame and a new buffer hold, and what `draw` makes of the buffer. -/
structure TextureContents where
  colorData : ℕ → Byte
  newData : ℕ → Byte
  draw : (ℕ → Byte) → ℕ → Byte

variable {t : Texture} {call : TextureCall} {contents : TextureContents}
  {staging : Option StagingBuffer} {buffer : StagingBuffer} {calls : List TextureCall}
  {size : Option ℕ}

namespace TextureCall

def w (call : TextureCall) (t : Texture) : ℕ := min t.cameraWidth call.width

def h (call : TextureCall) (t : Texture) : ℕ := min t.cameraHeight call.height

/-- A product of `uint32_t`. -/
def texsize (call : TextureCall) (t : Texture) : ℕ := call.w t * call.h t * 4 % 2 ^ 32

theorem texsize_lt : call.texsize t < 2 ^ 32 := Nat.mod_lt _ (by decide)

theorem w_le : call.w t ≤ call.width := Nat.min_le_right _ _

theorem h_le : call.h t ≤ call.height := Nat.min_le_right _ _

theorem texsize_le : call.texsize t ≤ call.w t * call.h t * 4 := Nat.mod_le _ _

theorem texsize_le_frame : call.texsize t ≤ call.width * call.height * 4 :=
  texsize_le.trans (Nat.mul_le_mul_right 4 (Nat.mul_le_mul w_le h_le))

end TextureCall

/-- The buffer that a call uses, unless none can be created. -/
def stagingFor (t : Texture) (call : TextureCall) (contents : TextureContents) :
    Option StagingBuffer → Option StagingBuffer
  | some buffer =>
    if call.mapped then some buffer
    else if call.created then some ⟨call.texsize t, contents.newData, TextureCall.texsize_lt⟩
    else none
  | none =>
    if call.created then some ⟨call.texsize t, contents.newData, TextureCall.texsize_lt⟩ else none

def memcpy (dst src : ℕ → Byte) (n : ℕ) : ℕ → Byte := fun i => if i < n then src i else dst i

/-- The buffer after the copy. -/
def copied (t : Texture) (call : TextureCall) (contents : TextureContents)
    (buffer : StagingBuffer) : StagingBuffer :=
  { buffer with mappedData := memcpy buffer.mappedData contents.colorData (call.texsize t) }

def drawn (contents : TextureContents) (buffer : StagingBuffer) : StagingBuffer :=
  { buffer with mappedData := contents.draw buffer.mappedData }

/-- `VulkanRenderer::update_camera_texture`, up to the upload. -/
def updateTexture (t : Texture) (call : TextureCall) (contents : TextureContents)
    (staging : Option StagingBuffer) : Option StagingBuffer :=
  (stagingFor t call contents staging).map fun buffer => drawn contents (copied t call contents buffer)

/-- The byte `k` of the pixel at `(x, y)` in rows of a width. -/
def pixelIndex (width x y k : ℕ) : ℕ := (y * width + x) * 4 + k

/-- After the copy the buffer holds the frame, cropped to the texture, and neither the copy nor
`draw` leave the frame or the buffer. -/
structure ShowsFrame (t : Texture) (call : TextureCall) (contents : TextureContents)
    (buffer : StagingBuffer) : Prop where
  pixel : ∀ x < call.w t, ∀ y < call.h t, ∀ k < 4,
    buffer.mappedData (pixelIndex (call.w t) x y k) =
      contents.colorData (pixelIndex call.width x y k)
  reads : ∀ i < call.texsize t, i < call.width * call.height * 4
  writes : ∀ i < call.texsize t, i < buffer.size
  draws : ∀ x < call.width, ∀ y < call.height, ∀ k < 4,
    pixelIndex call.width x y k < buffer.size

/-- In a run every frame is shown, whatever the frames and new buffers hold. -/
def FramesShown (t : Texture) : Option StagingBuffer → List TextureCall → Prop
  | _, [] => True
  | staging, call :: calls => ∀ contents,
    (∀ buffer ∈ stagingFor t call contents staging,
      ShowsFrame t call contents (copied t call contents buffer)) ∧
    FramesShown t (updateTexture t call contents staging) calls

/-- The size of the buffer after a call. -/
def sizeAfter (t : Texture) (call : TextureCall) : Option ℕ → Option ℕ
  | some size =>
    if call.mapped then some size
    else if call.created then some (call.texsize t) else none
  | none => if call.created then some (call.texsize t) else none

/-- A frame fits a new buffer if it fits the texture, and its size is one of 32 bits. -/
def FitsNew (t : Texture) (call : TextureCall) : Prop :=
  call.width * call.height = 0 ∨ (call.width ≤ t.cameraWidth ∧ call.height ≤ t.cameraHeight ∧
    call.width * call.height * 4 < 2 ^ 32)

/-- A frame fits the buffer of earlier frames if it is not larger, and its rows are not cropped
or only one is copied. -/
def FitsBuffer (t : Texture) (call : TextureCall) (size : ℕ) : Prop :=
  call.width * call.height * 4 ≤ size ∧
    (call.width ≤ t.cameraWidth ∨ call.h t ≤ 1 ∨ call.w t = 0)

/-- The frame of a call fits the buffer that the call uses. -/
def FrameFits (t : Texture) (call : TextureCall) : Option ℕ → Prop
  | some size =>
    if call.mapped then FitsBuffer t call size else call.created = true → FitsNew t call
  | none => call.created = true → FitsNew t call

def FramesFit (t : Texture) : Option ℕ → List TextureCall → Prop
  | _, [] => True
  | size, call :: calls => FrameFits t call size ∧ FramesFit t (sizeAfter t call size) calls

theorem memcpy_of_lt {dst src : ℕ → Byte} {n i : ℕ} (h : i < n) : memcpy dst src n i = src i :=
  if_pos h

theorem pixelIndex_lt {width height x y k : ℕ} (hx : x < width) (hy : y < height) (hk : k < 4) :
    pixelIndex width x y k < width * height * 4 := by
  have hrow : (y + 1) * width ≤ height * width := Nat.mul_le_mul_right width hy
  have hsucc : (y + 1) * width = y * width + width := Nat.succ_mul y width
  have hcomm : height * width = width * height := Nat.mul_comm height width
  unfold pixelIndex
  omega

theorem texsize_of_fits {n : ℕ} (hfit : call.width * call.height * 4 ≤ n) (hn : n < 2 ^ 32) :
    call.texsize t = call.w t * call.h t * 4 := by
  have hle : call.w t * call.h t ≤ call.width * call.height :=
    Nat.mul_le_mul TextureCall.w_le TextureCall.h_le
  exact Nat.mod_eq_of_lt (by omega)

/-- Rows that are not cropped, or a single one, lie in the buffer as in the frame. -/
theorem pixelIndex_of_fits {x y k : ℕ}
    (hrow : call.width ≤ t.cameraWidth ∨ call.h t ≤ 1 ∨ call.w t = 0) (hx : x < call.w t)
    (hy : y < call.h t) : pixelIndex (call.w t) x y k = pixelIndex call.width x y k := by
  rcases hrow with hwidth | hone | hzero
  · have hw : call.w t = call.width := Nat.min_eq_right hwidth
    rw [hw]
  · obtain rfl : y = 0 := by omega
    unfold pixelIndex
    rw [Nat.zero_mul, Nat.zero_mul]
  · omega

theorem FitsBuffer.showsFrame (h : FitsBuffer t call buffer.size) :
    ShowsFrame t call contents (copied t call contents buffer) := by
  obtain ⟨hfit, hrow⟩ := h
  have htexsize := texsize_of_fits (t := t) hfit buffer.size_lt
  have hle : call.texsize t ≤ call.width * call.height * 4 := TextureCall.texsize_le_frame
  constructor
  · intro x hx y hy k hk
    have hlt : pixelIndex (call.w t) x y k < call.texsize t := by
      rw [htexsize]
      exact pixelIndex_lt hx hy hk
    rw [← pixelIndex_of_fits hrow hx hy]
    exact memcpy_of_lt hlt
  · intro i hi
    omega
  · intro i hi
    exact Nat.lt_of_lt_of_le hi (hle.trans hfit)
  · intro x hx y hy k hk
    exact Nat.lt_of_lt_of_le (pixelIndex_lt hx hy hk) hfit

/-- What `draw` may write needs the buffer to hold the whole frame. -/
theorem ShowsFrame.frame_le (h : ShowsFrame t call contents buffer) :
    call.width * call.height * 4 ≤ buffer.size := by
  by_cases hzero : call.width = 0 ∨ call.height = 0
  · have hmul : call.width * call.height = 0 := Nat.mul_eq_zero.mpr hzero
    omega
  · have hlast := h.draws (call.width - 1) (by omega) (call.height - 1) (by omega) 3 (by omega)
    obtain ⟨height, hheight⟩ : ∃ height, call.height = height + 1 := ⟨call.height - 1, by omega⟩
    have hmul : call.width * (height + 1) = height * call.width + call.width := by
      rw [Nat.mul_succ, Nat.mul_comm]
    unfold pixelIndex at hlast
    rw [hheight, Nat.add_sub_cancel] at hlast
    rw [hheight, hmul]
    omega

/-- A frame that is cropped in width has its second row at another index. -/
theorem rows_of_shown {n : ℕ} (hn : n < 2 ^ 32) (data : TextureContents → ℕ → Byte)
    (h : ∀ contents, ShowsFrame t call contents (copied t call contents ⟨n, data contents, hn⟩)) :
    FitsBuffer t call n := by
  have hfit : call.width * call.height * 4 ≤ n := (h ⟨fun _ => 0, fun _ => 0, id⟩).frame_le
  refine ⟨hfit, ?_⟩
  by_contra hrow
  have hw : call.w t < call.width := Nat.lt_of_le_of_lt (Nat.min_le_left _ _) (by omega)
  let second : TextureContents := ⟨fun i => if i = call.width * 4 then 1 else 0, fun _ => 0, id⟩
  have hpixel := (h second).pixel 0 (by omega) 1 (by omega) 0 (by omega)
  have hlt : pixelIndex (call.w t) 0 1 0 < call.texsize t := by
    rw [texsize_of_fits hfit hn]
    exact pixelIndex_lt (by omega) (by omega) (by omega)
  have hcopied : second.colorData (pixelIndex (call.w t) 0 1 0) = 1 := by
    refine (memcpy_of_lt hlt).symm.trans (hpixel.trans (if_pos ?_))
    unfold pixelIndex
    omega
  have hother : second.colorData (pixelIndex (call.w t) 0 1 0) = 0 := by
    refine if_neg ?_
    unfold pixelIndex
    omega
  rw [hother] at hcopied
  exact absurd hcopied (by decide)

theorem shown_iff {n : ℕ} (hn : n < 2 ^ 32) (data : TextureContents → ℕ → Byte) :
    (∀ contents, ShowsFrame t call contents (copied t call contents ⟨n, data contents, hn⟩)) ↔
      FitsBuffer t call n := by
  constructor
  · exact rows_of_shown hn data
  · intro h contents
    exact FitsBuffer.showsFrame h

/-- A new buffer is as large as what is copied, so the whole frame has to be. -/
theorem fitsBuffer_texsize_iff : FitsBuffer t call (call.texsize t) ↔ FitsNew t call := by
  have hw : call.w t ≤ call.width := TextureCall.w_le
  have hh : call.h t ≤ call.height := TextureCall.h_le
  constructor
  · rintro ⟨hfit, _⟩
    by_cases hzero : call.width * call.height = 0
    · exact .inl hzero
    · have hlt : call.texsize t < 2 ^ 32 := TextureCall.texsize_lt
      have hle : call.texsize t ≤ call.w t * call.h t * 4 := TextureCall.texsize_le
      have hwidth : 0 < call.width := Nat.pos_of_ne_zero (Nat.ne_zero_of_mul_ne_zero_left hzero)
      have hheight : 0 < call.height := Nat.pos_of_ne_zero (Nat.ne_zero_of_mul_ne_zero_right hzero)
      have hleft : call.w t * call.h t ≤ call.w t * call.height := Nat.mul_le_mul_left _ hh
      have hright : call.w t * call.h t ≤ call.width * call.h t := Nat.mul_le_mul_right _ hw
      have hwidth' : call.width ≤ call.w t :=
        Nat.le_of_mul_le_mul_right (by omega : call.width * call.height ≤ _) hheight
      have hheight' : call.height ≤ call.h t :=
        Nat.le_of_mul_le_mul_left (by omega : call.width * call.height ≤ _) hwidth
      refine .inr ⟨?_, ?_, ?_⟩
      · exact hwidth'.trans (Nat.min_le_left _ _)
      · exact hheight'.trans (Nat.min_le_left _ _)
      · exact Nat.lt_of_le_of_lt hfit hlt
  · rintro (hzero | ⟨hwidth, hheight, hlt⟩)
    · refine ⟨?_, ?_⟩
      · rw [hzero]
        exact Nat.zero_le _
      · rcases Nat.mul_eq_zero.mp hzero with hwidth | hheight
        · exact .inr (.inr (by omega))
        · exact .inr (.inl (by omega))
    · have hw' : call.w t = call.width := Nat.min_eq_right hwidth
      have hh' : call.h t = call.height := Nat.min_eq_right hheight
      refine ⟨?_, .inl hwidth⟩
      rw [texsize_of_fits (Nat.le_refl _) hlt, hw', hh']

theorem frameShown_iff :
    (∀ contents, ∀ buffer ∈ stagingFor t call contents staging,
      ShowsFrame t call contents (copied t call contents buffer)) ↔
    FrameFits t call (staging.map StagingBuffer.size) := by
  have hnew : (∀ contents, ∀ buffer ∈ stagingFor t call contents none,
      ShowsFrame t call contents (copied t call contents buffer)) ↔
      (call.created = true → FitsNew t call) := by
    rw [← fitsBuffer_texsize_iff, ← shown_iff TextureCall.texsize_lt TextureContents.newData]
    constructor
    · intro h hcreated contents
      exact h contents _ (if_pos hcreated)
    · intro h contents buffer hbuffer
      unfold stagingFor at hbuffer
      by_cases hcreated : call.created = true
      · rw [if_pos hcreated] at hbuffer
        obtain rfl := Option.some.inj hbuffer
        exact h hcreated contents
      · rw [if_neg hcreated] at hbuffer
        cases hbuffer
  cases staging with
  | none => exact hnew
  | some buffer =>
    by_cases hmapped : call.mapped = true
    · have hfits : FrameFits t call ((some buffer).map StagingBuffer.size) ↔
          FitsBuffer t call buffer.size := by
        rw [Option.map_some, FrameFits, if_pos hmapped]
      rw [hfits, ← shown_iff buffer.size_lt fun _ => buffer.mappedData]
      constructor
      · intro h contents
        exact h contents _ (if_pos hmapped)
      · intro h contents buffer' hbuffer
        obtain rfl := Option.some.inj ((if_pos hmapped).symm.trans hbuffer)
        exact h contents
    · have hfits : FrameFits t call ((some buffer).map StagingBuffer.size) ↔
          (call.created = true → FitsNew t call) := by
        rw [Option.map_some, FrameFits, if_neg hmapped]
      have hstaging (contents : TextureContents) :
          stagingFor t call contents (some buffer) = stagingFor t call contents none :=
        if_neg hmapped
      simp only [hstaging]
      exact hnew.trans hfits.symm

theorem size_updateTexture : (updateTexture t call contents staging).map StagingBuffer.size =
    sizeAfter t call (staging.map StagingBuffer.size) := by
  cases staging with
  | none => cases hcreated : call.created <;> simp [updateTexture, stagingFor, sizeAfter, hcreated,
      drawn, copied]
  | some buffer =>
    cases hmapped : call.mapped <;> cases hcreated : call.created <;>
      simp [updateTexture, stagingFor, sizeAfter, hmapped, hcreated, drawn, copied]

/-- The frames of a run are shown exactly if each of them fits. -/
theorem framesShown_iff (t : Texture) (staging : Option StagingBuffer) (calls : List TextureCall) :
    FramesShown t staging calls ↔ FramesFit t (staging.map StagingBuffer.size) calls := by
  induction calls generalizing staging with
  | nil => exact Iff.rfl
  | cons call calls ih =>
    constructor
    · intro h
      refine ⟨frameShown_iff.mp fun contents => (h contents).1, ?_⟩
      have htail := (h ⟨fun _ => 0, fun _ => 0, id⟩).2
      rwa [ih, size_updateTexture] at htail
    · rintro ⟨hhead, htail⟩ contents
      refine ⟨frameShown_iff.mpr hhead contents, ?_⟩
      rw [ih, size_updateTexture]
      exact htail

/-- A small frame first, and then one as large as the texture. -/
theorem larger_frame_not_shown : ¬∀ (t : Texture) (staging : Option StagingBuffer)
    (calls : List TextureCall), FramesShown t staging calls := by
  intro h
  have hshown := h ⟨640, 480⟩ none [⟨320, 240, true, true⟩, ⟨640, 480, true, true⟩]
  have hfit := frameShown_iff.mp fun contents =>
    ((hshown ⟨fun _ => 0, fun _ => 0, id⟩).2 contents).1
  exact absurd hfit.1 (by decide)

/-- Frames of one size that fits the texture are shown, whatever Vulkan answers. -/
theorem framesFit_of_same_size {width height : ℕ} (hwidth : width ≤ t.cameraWidth)
    (hheight : height ≤ t.cameraHeight) (hlt : width * height * 4 < 2 ^ 32)
    (hcalls : ∀ call ∈ calls, call.width = width ∧ call.height = height)
    (hsize : ∀ n ∈ size, width * height * 4 = n) : FramesFit t size calls := by
  induction calls generalizing size with
  | nil => trivial
  | cons call calls ih =>
    obtain ⟨⟨rfl, rfl⟩, hcalls⟩ := List.forall_mem_cons.mp hcalls
    have hnew : FitsNew t call := .inr ⟨hwidth, hheight, hlt⟩
    have htexsize : call.width * call.height * 4 = call.texsize t := by
      rw [texsize_of_fits (Nat.le_refl _) hlt, TextureCall.w, TextureCall.h,
        Nat.min_eq_right hwidth, Nat.min_eq_right hheight]
    have hcreated : ∀ n ∈ (if call.created then some (call.texsize t) else none),
        call.width * call.height * 4 = n := by
      intro n hn
      split at hn
      · exact htexsize.trans (Option.some.inj hn)
      · cases hn
    cases size with
    | none => exact ⟨fun _ => hnew, ih hcalls hcreated⟩
    | some n =>
      have hn : call.width * call.height * 4 = n := hsize n rfl
      constructor
      · rw [FrameFits]
        split
        · exact ⟨hn.le, .inl hwidth⟩
        · exact fun _ => hnew
      · apply ih hcalls
        rw [sizeAfter]
        split
        · exact hsize
        · exact hcreated

end ARArch
