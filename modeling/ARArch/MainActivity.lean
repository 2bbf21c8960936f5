import ARArch.Numerals
import ARArch.PreviewSize
import ARArch.PreviewStart

/-!
# The main activity

For each of three video streams the user selects a camera in one list and then a size in another,
which shows the sizes of the camera as texts. The start button initializes the cameras and starts
`ARActivity` with those that could be initialized.

`MAR.None`, which is the text of a list's item and no camera's name, is `none` among cameras. The
callbacks of the lists come one after another in any order, also between a selection of the user
and the callback for a list that was filled anew.
-/

namespace ARArch

open Numeral

/-- `Size` of Android, a width and a height that are 32 bits wide. -/
abbrev IntSize := ℤ × ℤ

def Size.toInts (s : Size) : IntSize := (s.width, s.height)

structure Size.IsInt (s : Size) : Prop where
  width : s.width < 2 ^ 31
  height : s.height < 2 ^ 31

def isWhitespace (c : Char) : Bool :=
  (9 ≤ c.toNat ∧ c.toNat ≤ 13) ∨ (28 ≤ c.toNat ∧ c.toNat ≤ 32) ∨
    (0x2000 ≤ c.toNat ∧ c.toNat ≤ 0x200A) ∨
    c.toNat ∈ [0xA0, 0x1680, 0x2028, 0x2029, 0x202F, 0x205F, 0x3000]

def trim (t : List Char) : List Char :=
  ((t.dropWhile isWhitespace).reverse.dropWhile isWhitespace).reverse

/-- `"${it.width}x${it.height}"` -/
def sizeText (s : Size) : List Char := text s.width ++ 'x' :: text s.height

def noneText : List Char := ['N', 'o', 'n', 'e']

/-- The size that `SelectCameraSizeAdapter` reads from an item, or `none` outside if `parseInt`
throws. -/
def parseSize (sze : List Char) : Option (Option IntSize) :=
  if sze = noneText then some none
  else
    match sze.splitOn 'x' with
    | w :: h :: _ => do
      let width ← parseInt (trim w)
      let height ← parseInt (trim h)
      some (some (width, height))
    | _ => some none

inductive LensFacing
  | front
  | back
  | external
  deriving DecidableEq

structure CameraCharacteristics where
  facing : Option LensFacing
  /-- The output sizes of the stream configuration map, if there is one; that the map has none of
  the format is left out. -/
  sizes : Option (List Size)
  isInt : ∀ l ∈ sizes, ∀ s ∈ l, s.IsInt

namespace MAR

/-- `MAR.cameras`; it ends where `getCameraCharacteristics` throws. -/
def listCameras (characteristics : CameraId → Option CameraCharacteristics)
    (isFacingBack isFacingFront : Bool) : List CameraId → List (CameraId × List Size)
  | [] => []
  | id :: ids =>
    match characteristics id with
    | none => []
    | some c =>
      let others := listCameras characteristics isFacingBack isFacingFront ids
      match c.sizes with
      | none => others
      | some sizes =>
        if c.facing = some .back ∧ isFacingBack = true then (id, sizes) :: others
        else if c.facing = some .front ∧ isFacingFront = true then (id, sizes) :: others
        else others

inductive Round
  | returns (opens isRearFacing added : Bool)
  | throws (opens isRearFacing : Bool)

/-- The loop of `initialize` over the sorted cameras, with the results so far; an exception ends
it. -/
def initializeCameras (round : CameraId → Round) :
    List (Option CameraId) → Table (Option CameraId) Bool → MAR →
      Table (Option CameraId) Bool × MAR
  | [], results, mar => (results, mar)
  | none :: ids, results, mar => initializeCameras round ids (results.assign none false) mar
  | some id :: ids, results, mar =>
    match round id with
    | .throws opens isRearFacing => (results, mar.initializeCamera id opens isRearFacing)
    | .returns opens isRearFacing added =>
      initializeCameras round ids (results.assign (some id) (opens && added))
        (mar.initializeCamera id opens isRearFacing)

def stopPreviews (mar : MAR) (cameraIds : List CameraId) : MAR := cameraIds.foldl stopPreview mar

end MAR

inductive CameraSlot
  | camera0
  | camera1
  | camera2
  deriving DecidableEq

structure CameraStream where
  cameras : List CameraId := []
  selectedCamera : Option CameraId := none
  sizeList : List (List Char) := []
  selectedSize : Option IntSize := none

inductive ButtonText
  | start
  | stop
  | busy
  deriving DecidableEq

structure MainActivity where
  cameraSizes : Table CameraId (List Size)
  streams : CameraSlot → CameraStream
  activeCameras : List (CameraId × IntSize) := []
  startButton : ButtonText := .start
  mar : MAR

inductive ClickEvent
  | returned
  | message (text : String)
  | stopped (cameraIds : List CameraId)
  | started (activeCameras : List (CameraId × IntSize))
  deriving DecidableEq

/-- The set of a camera's sizes keeps the order in which they are added. -/
def addSize (sizes : List Size) (s : Size) : List Size := if s ∈ sizes then sizes else sizes ++ [s]

def addSizes (screenSize : Size) (cameras : List (CameraId × List Size))
    (cameraSizes : Table CameraId (List Size)) : Table CameraId (List Size) :=
  cameras.foldl (fun T p => (getPreviewValidSizes screenSize none p.2).foldl
    (fun T s => T.assign p.1 (addSize ((T p.1).getD []) s)) T) cameraSizes

namespace MainActivity

/-- After `init`, with the cameras that `MAR.cameras` lists on either side. -/
def create (mar : MAR) (screenSize : Size)
    (backCameras frontCameras : List (CameraId × List Size)) : MainActivity where
  cameraSizes := addSizes screenSize frontCameras (addSizes screenSize backCameras Table.empty)
  streams stream :=
    { cameras := if stream = .camera2 then frontCameras.map Prod.fst else backCameras.map Prod.fst }
  mar := mar

variable (a : MainActivity)

def cameraList : List (Option CameraId) :=
  [(a.streams .camera0).selectedCamera, (a.streams .camera1).selectedCamera,
    (a.streams .camera2).selectedCamera]

def sizeList (camera : Option CameraId) : List (List Char) :=
  let sizes := ((camera.bind a.cameraSizes).getD []).map sizeText
  if sizes = [] then [noneText] else sizes

/-- `SelectCameraAdapter.onItemSelected` -/
def selectCamera (stream : CameraSlot) (item : Option CameraId) : MainActivity :=
  { a with
    streams := Function.update a.streams stream
      { a.streams stream with selectedCamera := item, sizeList := a.sizeList item } }

def setSize (stream : CameraSlot) (size : Option IntSize) : MainActivity :=
  { a with
    streams := Function.update a.streams stream
      { a.streams stream with selectedSize := size } }

/-- `SelectCameraSizeAdapter.onItemSelected`, or `none` if it throws. -/
def selectSize (stream : CameraSlot) : Option (List Char) → Option MainActivity
  | none => some (a.setSize stream none)
  | some sze => (parseSize sze).map (a.setSize stream)

def put (activeCameras : List (CameraId × IntSize)) (cid : CameraId) (size : IntSize) :
    List (CameraId × IntSize) :=
  activeCameras.filter (fun p => p.1 ≠ cid) ++ [(cid, size)]

/-- `checkResults`, with the active cameras; `none` outside if there is no result for the camera,
which throws. -/
def checkResults (results : Table (Option CameraId) Bool) (stream : CameraStream)
    (activeCameras : List (CameraId × IntSize)) :
    Option (Option CameraId × List (CameraId × IntSize)) :=
  match stream.selectedCamera with
  | none => some (none, activeCameras)
  | some cid =>
    match results (some cid), stream.selectedSize with
    | none, _ => none
    | some false, _ => some (none, activeCameras)
    | some true, some size => some (some cid, put activeCameras cid size)
    | some true, none => some (none, activeCameras)

/-- The listener of the button from the results of `MAR.initialize` on. -/
def startCameras (results : Table (Option CameraId) Bool) (mar : MAR) :
    Option (ClickEvent × MainActivity) := do
  let (cid0, active) ← checkResults results (a.streams .camera0) a.activeCameras
  let (cid1, active) ← checkResults results (a.streams .camera1) active
  let (cid2, active) ← checkResults results (a.streams .camera2) active
  if cid0 = none ∧ cid1 = none ∧ cid2 = none then
    some (.returned, { a with activeCameras := active, mar := mar })
  else
    some (.started active, { a with activeCameras := active, mar := mar, startButton := .stop })

def complaint : Option String :=
  let cid (stream : CameraSlot) := (a.streams stream).selectedCamera
  let size (stream : CameraSlot) := (a.streams stream).selectedSize
  if cid .camera0 = none ∧ cid .camera1 = none ∧ cid .camera2 = none then
    some "Please select at least one camera"
  else if cid .camera0 = cid .camera1 ∧ cid .camera0 ≠ none then
    some "Cannot select same camera for different video streams"
  else if cid .camera0 ≠ none ∧ size .camera0 = none then some "Size not selected for camera 1"
  else if cid .camera1 ≠ none ∧ size .camera1 = none then some "Size not selected for camera 2"
  else if cid .camera2 ≠ none ∧ size .camera2 = none then some "Size not selected for camera 3"
  else none

/-- The listener of the start button. In the branch for `Stop` the text of the button is compared
with `Start` where it should be set. `MAR.initialize` sorts the cameras, here into `order`. -/
def click (order : List (Option CameraId)) (round : CameraId → MAR.Round) :
    Option (ClickEvent × MainActivity) :=
  match a.startButton with
  | .busy => some (.returned, a)
  | .stop =>
    let cameraIds := a.activeCameras.map Prod.fst
    some (.stopped cameraIds, { a with mar := a.mar.stopPreviews cameraIds })
  | .start =>
    match a.complaint with
    | some text => some (.message text, a)
    | none =>
      let initialized := MAR.initializeCameras round order Table.empty a.mar
      a.startCameras initialized.1 initialized.2

end MainActivity

/-- What the activity gets to do: a callback of a list, in which an item that is `null` is `none`,
a click, or a request that others make of `MAR`. -/
inductive ActivityRequest
  | selectCamera (stream : CameraSlot) (item : Option CameraId)
  | selectSize (stream : CameraSlot) (item : Option (List Char))
  | deselectSize (stream : CameraSlot)
  | click (order : List (Option CameraId)) (round : CameraId → MAR.Round)
  | preview (q : MARRequest)

@[reducible] def ActivityRequest.Ans : ActivityRequest → Type
  | selectCamera _ _ | selectSize _ _ | deselectSize _ => Unit
  | click _ _ => ClickEvent
  | preview q => q.Ans

abbrev ActivityHistory := List (Done ActivityRequest ActivityRequest.Ans)

def MARRequest.initializes : MARRequest → Bool
  | initializeCamera _ _ _ => true
  | startPreview _ | step _ | stopPreview _ | onPreviewResult _ _ _ => false

namespace MainActivity

def respond : Service ActivityRequest ActivityRequest.Ans MainActivity
  | .selectCamera stream item, a => some ((), a.selectCamera stream item)
  | .selectSize stream item, a => (a.selectSize stream item).map (fun b => ((), b))
  | .deselectSize stream, a => some ((), a.setSize stream none)
  | .click order round, a => a.click order round
  | .preview q, a => (MAR.respond q a.mar).map (fun p => (p.1, { a with mar := p.2 }))

/-- An item is one of its list. Only the listener of the button initializes cameras, and all that
are selected. -/
def Delivers (a : MainActivity) : ActivityRequest → Prop
  | .selectCamera stream item => ∀ camera ∈ item, camera ∈ (a.streams stream).cameras
  | .selectSize stream item => ∀ sze ∈ item, sze ∈ (a.streams stream).sizeList
  | .deselectSize _ => True
  | .click order _ => order.Perm a.cameraList
  | .preview q => q.initializes = false

instance (a : MainActivity) (q : ActivityRequest) : Decidable (a.Delivers q) :=
  match q with
  | .selectCamera stream item =>
    inferInstanceAs (Decidable (∀ camera ∈ item, camera ∈ (a.streams stream).cameras))
  | .selectSize stream item =>
    inferInstanceAs (Decidable (∀ sze ∈ item, sze ∈ (a.streams stream).sizeList))
  | .deselectSize _ => inferInstanceAs (Decidable True)
  | .click order _ => inferInstanceAs (Decidable (order.Perm a.cameraList))
  | .preview q => inferInstanceAs (Decidable (q.initializes = false))

end MainActivity

end ARArch
