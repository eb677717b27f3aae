import SecMon.Frame
import SecMon.ImageProcessing.Rect

/-!
# Frames with their images

`Vision` is what the elements of a scene take from OpenCV.  `Picture` is a frame
with the images in its slots and what is drawn and written on them.
-/

namespace SecMon

/-- OpenCV, as far as the work functions use it.  `P` is a `cv::Mat`, `C` a contour,
`J` an encoded image. -/
structure Vision (P C J : Type) where
  /-- a new `cv::Mat` -/
  mat : P
  zeros : P
  isEmpty : P → Bool
  /-- with `COLOR_BGR2GRAY` -/
  cvtColor : P → P
  /-- of two images of one size -/
  absdiff : P → P → P
  /-- with `THRESH_BINARY` -/
  threshold : P → (thresh maxval : Nat) → P
  /-- with `RETR_EXTERNAL` and `CHAIN_APPROX_SIMPLE` -/
  findContours : P → List C
  contourArea : C → Rat
  /-- a black image of the same size, the assignment of `Scalar(0, 0, 0)` -/
  black : P → P
  /-- draws one contour, filled -/
  drawContours : P → C → P
  /-- with `MORPH_CLOSE` and a rectangle of this side -/
  morphologyEx : P → (side : Nat) → P
  boundingRect : C → Rect
  /-- `std::sort` with `compare_rect_size_` -/
  sort : List Rect → List Rect
  /-- draws one rectangle -/
  rectangle : P → Rect → P
  /-- the image with its border, the overlay and the three texts -/
  display : P → P → String → String → String → P
  imencode : P → J

/-- What is documented of it. -/
structure Vision.Lawful {P C J : Type} (v : Vision P C J) : Prop where
  mat : v.isEmpty v.mat = true
  zeros : v.isEmpty v.zeros = false
  cvtColor : ∀ image, v.isEmpty image = false → v.isEmpty (v.cvtColor image) = false
  absdiff : ∀ a b, v.isEmpty a = false → v.isEmpty b = false → v.isEmpty (v.absdiff a b) = false
  threshold : ∀ image thresh maxval,
    v.isEmpty image = false → v.isEmpty (v.threshold image thresh maxval) = false
  black : ∀ image, v.isEmpty image = false → v.isEmpty (v.black image) = false
  drawContours : ∀ image contour,
    v.isEmpty image = false → v.isEmpty (v.drawContours image contour) = false
  morphologyEx : ∀ image side,
    v.isEmpty image = false → v.isEmpty (v.morphologyEx image side) = false
  rectangle : ∀ image rect, v.isEmpty image = false → v.isEmpty (v.rectangle image rect) = false
  boundingRect : ∀ contour, (v.boundingRect contour).Positive
  sort : ∀ rects, (v.sort rects).Perm rects

/-- Images that are numbers, each with one contour, if it is not zero; what is drawn
is added. -/
def Vision.numbers : Vision (Option Nat) Nat (List UInt8) where
  mat := none
  zeros := some 0
  isEmpty := Option.isNone
  cvtColor image := image
  absdiff a b := a.bind fun m => b.map fun n => m - n + (n - m)
  threshold image _ _ := image
  findContours image := if image = some 0 then [] else [image.getD 0]
  contourArea _ := 50
  black image := image.map fun _ => 0
  drawContours image n := image.map (· + n)
  morphologyEx image _ := image
  boundingRect n := ⟨n, n, 10, 10⟩
  sort rects := rects
  rectangle image _ := image
  display original _ _ _ _ := original
  imencode image := [UInt8.ofNat (image.getD 0)]

theorem Vision.numbers_lawful : numbers.Lawful where
  mat := rfl
  zeros := rfl
  cvtColor _ h := h
  absdiff
    | some _, some _, _, _ => rfl
  threshold _ _ _ h := h
  black
    | some _, _ => rfl
  drawContours
    | some _, _, _ => rfl
  morphologyEx _ _ h := h
  rectangle _ _ h := h
  boundingRect _ := ⟨Int.ofNat_succ_pos 9, Int.ofNat_succ_pos 9⟩
  sort _ := .refl _

deriving instance DecidableEq for Frame

/-- `Frame`, with what is in its images.  `published` is history: the images of
this frame that were handed to a stream's viewers. -/
structure Picture (P J : Type) where
  frame : Frame
  images : List P
  regionsOfInterest : List Rect := []
  displayTime : String := ""
  displayName : String := ""
  displayStats : String := ""
  published : List (String × J) := []
  deriving DecidableEq

variable {P C J : Type}

namespace Picture

/-- The constructor. -/
def construct (v : Vision P C J) : Picture P J where
  frame := Frame.construct
  images := (List.replicate kMaxImagesPerFrame v.mat).set 1 v.zeros

/-- A new frame with what the camera read into it, and when. -/
def captured (v : Vision P C J) (image : P × String) : Picture P J :=
  { construct v with
    images := (construct (J := J) v).images.set 0 image.1
    displayTime := image.2 }

/-- `get_original_image`. -/
def original (v : Vision P C J) (f : Picture P J) : P := f.images.getD 0 v.mat

/-- `get_overlay_image`. -/
def overlay (v : Vision P C J) (f : Picture P J) : P := f.images.getD 1 v.mat

/-- `get_image`. -/
def getImage (v : Vision P C J) (name : String) (f : Picture P J) : Except String P :=
  (f.frame.getImage name).1.map fun i => f.images.getD i v.mat

/-- `get_original_with_overlay_image_as_jpg`. -/
def originalWithOverlayAsJpg (v : Vision P C J) (f : Picture P J) : Except String J :=
  if v.isEmpty (f.original v) then .error "No data in original image"
  else .ok (v.imencode
    (v.display (f.original v) (f.overlay v) f.displayTime f.displayName f.displayStats))

/-- `get_image_as_jpg`. -/
def getImageAsJpg (v : Vision P C J) (name : String) (f : Picture P J) : Except String J :=
  if name = "main" then f.originalWithOverlayAsJpg v
  else do
    let image ← f.getImage v name
    if v.isEmpty image then .error ("No data in image with name " ++ name)
    else return v.imencode image

end Picture

end SecMon
