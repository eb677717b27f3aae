import SecMon.ImageProcessing.Consolidate
import SecMon.ImageSource
import SecMon.Pipeline.Sequential
import SecMon.Scene

/-!
# What a scene publishes

The work functions of `MovementDetectorBasic`, `ROI_Detector` and
`ScenePublisher`, with the exceptions they throw and catch.  As `Mealy` machines
they have for their state the members of their object; with the image source
they are the four elements of a scene.

* `compared`, `searched`, `finished`: what they make of frame `i` one after the
  other.  Frame `i` is compared with frame `i - 1`.
* `Published`: what that comes to.  The regions cover what moved, and nothing
  far from it; each stream with viewers gets its image, if the frame has it.
* `scene_publishes`: every run of a scene's pipeline publishes such frames.
-/

namespace SecMon

variable {P C J S : Type}

/-! ### The work functions -/

/-- `kSensitivityValue`. -/
def kSensitivityValue : Nat := 20

/-- `kDifferenceInterval`. -/
def kDifferenceInterval : Nat := 1

/-- `MovementDetectorBasic`: of the previous frame only the original image is
read. -/
structure MovementDetectorBasic (P : Type) where
  previousFrame : Option P := none
  framesSinceLastDiff : Nat := 0
  deriving DecidableEq, Repr

/-- From the two calls of `cvtColor` on: the blobs of what differs, without the
smaller ones, closed to regions. -/
def MovementDetectorBasic.foreground (v : Vision P C J) (current previous : P) : P :=
  let difference := v.absdiff (v.cvtColor current) (v.cvtColor previous)
  let foreground := v.threshold difference kSensitivityValue 255
  let blobs := (v.findContours foreground).foldl
    (fun image contour => if v.contourArea contour < 5 then image else v.drawContours image contour)
    (v.black foreground)
  v.morphologyEx blobs 25

/-- `MovementDetectorBasic::process_next_frame`.  `cvtColor` throws for an
empty image, `get_new_image` for a name that is taken. -/
def MovementDetectorBasic.processNextFrame (v : Vision P C J) (d : MovementDetectorBasic P)
    (f : Picture P J) : MovementDetectorBasic P × Except String (Picture P J) :=
  let d := { d with framesSinceLastDiff := d.framesSinceLastDiff + 1 }
  match d.previousFrame with
  | none => ({ d with previousFrame := some (f.original v) }, .ok f)
  | some previous =>
    if d.framesSinceLastDiff < kDifferenceInterval then (d, .ok f)
    else if v.isEmpty (f.original v) ∨ v.isEmpty previous then (d, .error "cvtColor")
    else
      match f.frame.getNewImage "foreground" with
      | (.error e, _) => (d, .error e)
      | (.ok i, frame) =>
        ({ previousFrame := some (f.original v), framesSinceLastDiff := 0 },
          .ok { f with
            frame := frame
            images := f.images.set i (foreground v (f.original v) previous) })

/-- `ROI_Detector::is_too_small_`. -/
def RoiDetector.isTooSmall (v : Vision P C J) (contour : C) : Bool := v.contourArea contour < 8

/-- The rectangles around what moved, before they are sorted. -/
def RoiDetector.boxes (v : Vision P C J) (foreground : P) : List Rect :=
  ((v.findContours foreground).filter fun c => !isTooSmall v c).map v.boundingRect

/-- `ROI_Detector::process_next_frame`.  It catches what `get_image` throws;
`none` is an iterator that is used past its end. -/
def RoiDetector.processNextFrame (v : Vision P C J) (f : Picture P J) : Option (Picture P J) :=
  match f.getImage v "foreground" with
  | .error _ => some f
  | .ok foreground =>
    (consolidateRectangles (v.sort (f.regionsOfInterest ++ boxes v foreground))).map fun rects =>
      { f with
        regionsOfInterest := rects
        images := f.images.set 1 (rects.foldl v.rectangle (f.overlay v)) }

/-- The streams of a publisher, in the order of its constructor. -/
def ScenePublisher.streams : List String := ["main", "overlay", "foreground", "difference"]

/-- The image of a frame that a stream gets, if it has viewers; what
`get_image_as_jpg` throws is caught. -/
def ScenePublisher.publish (v : Vision P C J) (f : Picture P J) (viewers : String → Bool)
    (name : String) : Option (String × J) :=
  if viewers name then
    match f.getImageAsJpg v name with
    | .ok jpg => some (name, jpg)
    | .error _ => none
  else none

/-- The texts that are set before. -/
def ScenePublisher.title (displayName stats : String) (f : Picture P J) : Picture P J :=
  { f with displayName := displayName, displayStats := stats }

/-- `ScenePublisher::process_next_frame`. -/
def ScenePublisher.processNextFrame (v : Vision P C J) (displayName stats : String)
    (viewers : String → Bool) (f : Picture P J) : Picture P J :=
  let f := title displayName stats f
  { f with published := f.published ++ streams.filterMap (publish v f viewers) }

/-! ### The elements as machines -/

/-- Who is connected when a frame is published, and the performance string then. -/
structure Surroundings where
  viewers : Nat → String → Bool
  stats : Nat → String

section

variable (v : Vision P C J) (e : Surroundings) (displayName : String)

def movementDetector : Mealy (Option (Picture P J)) where
  State := MovementDetectorBasic P
  start := {}
  step d
    | none => (d, none)
    | some f => ((d.processNextFrame v f).1, (d.processNextFrame v f).2.toOption)

def roiDetector : Mealy (Option (Picture P J)) where
  State := Unit
  start := ()
  step _ f := ((), f.bind (RoiDetector.processNextFrame v))

def scenePublisher : Mealy (Option (Picture P J)) where
  State := Nat
  start := 0
  step n f :=
    (n + 1, f.map (ScenePublisher.processNextFrame v displayName (e.stats n) (e.viewers n)))

/-- The elements of a scene. -/
def sceneStages (cap : VideoCapture S P) (c : Camera S) : List (Mealy (Option (Picture P J))) :=
  [imageSource v cap c, movementDetector v, roiDetector v, scenePublisher v e displayName]

end

/-! ### What they make of frame `i` -/

section

variable (v : Vision P C J) (frames : Nat → P × String) (e : Surroundings) (displayName : String)

/-- What moved between frame `i` and the one before. -/
def movement (i : Nat) : P :=
  MovementDetectorBasic.foreground v (frames i).1 (frames (i - 1)).1

/-- Frame `i` with what moved. -/
def compared (i : Nat) : Picture P J :=
  if i = 0 then Picture.captured v (frames i)
  else
    { Picture.captured v (frames i) with
      frame := (Frame.construct.getNewImage "foreground").2
      images := (Picture.captured (J := J) v (frames i)).images.set 2 (movement v frames i) }

/-- The movement detector before frame `i`. -/
def detectorAt (i : Nat) : MovementDetectorBasic P :=
  if i = 0 then {}
  else
    { previousFrame := some (frames (i - 1)).1
      framesSinceLastDiff := if i = 1 then 1 else 0 }

/-- Frame `i` when it has been searched for regions of interest. -/
def searched (i : Nat) : Option (Picture P J) :=
  RoiDetector.processNextFrame v (compared v frames i)

/-- Frame `i` when it has been published. -/
def finished (i : Nat) : Option (Picture P J) :=
  (searched v frames i).map
    (ScenePublisher.processNextFrame v displayName (e.stats i) (e.viewers i))

end

variable {v : Vision P C J} {frames : Nat → P × String} {e : Surroundings} {displayName : String}
  {cap : VideoCapture S P} {c : Camera S}

theorem original_captured (image : P × String) :
    (Picture.captured (J := J) v image).original v = image.1 :=
  rfl

theorem getNewImage_foreground :
    Frame.construct.getNewImage "foreground" =
      (.ok 2, (Frame.construct.getNewImage "foreground").2) :=
  Prod.ext (by decide +kernel) rfl

/-- **Frames are compared one after the other**: none is skipped, and nothing is
thrown for the images of a camera. -/
theorem movementDetector_outputs (hframes : ∀ i, v.isEmpty (frames i).1 = false) (n : Nat) :
    (movementDetector v).outputs
        ((List.range n).map fun i => some (Picture.captured (J := J) v (frames i))) =
      (List.range n).map fun i => some (compared v frames i) := by
  refine Mealy.outputs_range (σ := detectorAt frames) rfl (fun i => ?_) n
  cases i with
  | zero => rfl
  | succ i =>
    have hsince : ¬(detectorAt frames (i + 1)).framesSinceLastDiff + 1 < kDifferenceInterval :=
      Nat.not_lt.mpr (Nat.le_add_left 1 _)
    have hstep : (detectorAt frames (i + 1)).processNextFrame v
        (Picture.captured (J := J) v (frames (i + 1))) =
        (detectorAt frames (i + 2), .ok (compared v frames (i + 1))) := by
      have hprevious : (detectorAt frames (i + 1)).previousFrame = some (frames i).1 := rfl
      have hempty : ¬(v.isEmpty ((Picture.captured (J := J) v (frames (i + 1))).original v) = true ∨
          v.isEmpty (frames i).1 = true) := by
        rw [original_captured, hframes, hframes]
        decide
      have hframe : (Picture.captured (J := J) v (frames (i + 1))).frame = Frame.construct := rfl
      rw [MovementDetectorBasic.processNextFrame]
      simp only [hprevious]
      rw [if_neg hsince, if_neg hempty, hframe, getNewImage_foreground]
      rfl
    show (((detectorAt frames (i + 1)).processNextFrame v _).1,
      ((detectorAt frames (i + 1)).processNextFrame v _).2.toOption) = _
    rw [hstep]
    rfl

theorem roiDetector_outputs (n : Nat) :
    (roiDetector v).outputs ((List.range n).map fun i => some (compared (J := J) v frames i)) =
      (List.range n).map (searched v frames) :=
  Mealy.outputs_range (σ := fun _ => ()) rfl (fun _ => rfl) n

theorem scenePublisher_outputs (n : Nat) :
    (scenePublisher v e displayName).outputs ((List.range n).map (searched (J := J) v frames)) =
      (List.range n).map (finished v frames e displayName) :=
  Mealy.outputs_range (σ := fun i => i) rfl (fun _ => rfl) n

theorem cascade_searched (hcamera : c.Delivers cap frames)
    (hframes : ∀ i, v.isEmpty (frames i).1 = false) (n : Nat) :
    Mealy.cascade ((sceneStages (J := J) v e displayName cap c).take 3) (List.replicate n none) =
      (List.range n).map (searched v frames) := by
  show (roiDetector v).outputs ((movementDetector v).outputs
    ((imageSource v cap c).outputs (List.replicate n none))) = _
  rw [hcamera.outputs, movementDetector_outputs hframes, roiDetector_outputs]

theorem cascade_sceneStages (hcamera : c.Delivers cap frames)
    (hframes : ∀ i, v.isEmpty (frames i).1 = false) (n : Nat) :
    Mealy.cascade (sceneStages (J := J) v e displayName cap c) (List.replicate n none) =
      (List.range n).map (finished v frames e displayName) := by
  show (scenePublisher v e displayName).outputs
    (Mealy.cascade ((sceneStages v e displayName cap c).take 3) (List.replicate n none)) = _
  rw [cascade_searched hcamera hframes, scenePublisher_outputs]

/-! ### What is in a finished frame -/

/-- The regions of a frame: none in the first, later one for each group of boxes
around what moved, as its bounding box. -/
structure Regions (v : Vision P C J) (frames : Nat → P × String) (i : Nat) (rects : List Rect) :
    Prop where
  first : i = 0 → rects = []
  groups : 0 < i → Nonempty (Grouping (v.sort (RoiDetector.boxes v (movement v frames i))) rects)
  covers : 0 < i → ∀ box ∈ RoiDetector.boxes v (movement v frames i),
    ∃ r ∈ rects, box.isInside r = true

/-- Whether frame `i` has an image for a stream. -/
def hasImage (i : Nat) (name : String) : Bool :=
  name = "main" || name = "overlay" || name = "foreground" && 0 < i

/-- The overlay with these regions. -/
def marked (v : Vision P C J) (rects : List Rect) : P := rects.foldl v.rectangle v.zeros

/-- The image of frame `i` for a stream. -/
def shown (v : Vision P C J) (frames : Nat → P × String) (e : Surroundings) (displayName : String)
    (i : Nat) (rects : List Rect) (name : String) : J :=
  v.imencode <|
    if name = "main" then
      v.display (frames i).1 (marked v rects) (frames i).2 displayName (e.stats i)
    else if name = "overlay" then marked v rects
    else movement v frames i

/-- **What is published of frame `i`**: the streams with viewers get their images. -/
structure Published (v : Vision P C J) (frames : Nat → P × String) (e : Surroundings)
    (displayName : String) (i : Nat) (f : Picture P J) : Prop where
  original : f.original v = (frames i).1
  regions : Regions v frames i f.regionsOfInterest
  published : f.published =
    (ScenePublisher.streams.filter fun name => e.viewers i name && hasImage i name).map fun name =>
      (name, shown v frames e displayName i f.regionsOfInterest name)

theorem Vision.Lawful.isEmpty_marked (hv : v.Lawful) (rects : List Rect) :
    v.isEmpty (marked v rects) = false :=
  List.foldlRecOn (motive := fun image => v.isEmpty image = false) rects v.rectangle hv.zeros
    fun image himage rect _ => hv.rectangle image rect himage

theorem Vision.Lawful.isEmpty_movement (hv : v.Lawful)
    (hframes : ∀ i, v.isEmpty (frames i).1 = false) (i : Nat) :
    v.isEmpty (movement v frames i) = false := by
  have hgray : ∀ i, v.isEmpty (v.cvtColor (frames i).1) = false := fun i => hv.cvtColor _ (hframes i)
  have hdifference := hv.absdiff _ _ (hgray i) (hgray (i - 1))
  have hblack := hv.black _ (hv.threshold _ kSensitivityValue 255 hdifference)
  refine hv.morphologyEx _ _ (List.foldlRecOn (motive := fun image => v.isEmpty image = false) _ _
    hblack fun image himage contour _ => ?_)
  -- a contour is drawn or dropped
  split_ifs
  · exact himage
  · exact hv.drawContours image contour himage

/-- Frame `i` after the search. -/
def marksOf (v : Vision P C J) (frames : Nat → P × String) (i : Nat) (rects : List Rect) :
    Picture P J :=
  { compared v frames i with
    regionsOfInterest := rects
    images := (compared (J := J) v frames i).images.set 1 (marked v rects) }

variable (frames) in
/-- **The search loses no box**, and ends. -/
theorem searched_eq (hv : v.Lawful) (i : Nat) :
    ∃ rects, searched (J := J) v frames i = some (marksOf v frames i rects) ∧
      Regions v frames i rects := by
  cases i with
  | zero =>
    have hnone : (Frame.construct.getImage "foreground").1 =
        .error "No image registered with name foreground" := by decide +kernel
    refine ⟨[], ?_, fun _ => rfl, fun h => absurd h (lt_irrefl 0), fun h => absurd h (lt_irrefl 0)⟩
    have hget : (compared (J := J) v frames 0).getImage v "foreground" =
        .error "No image registered with name foreground" :=
      congrArg (Except.map fun i => (compared (J := J) v frames 0).images.getD i v.mat) hnone
    rw [searched, RoiDetector.processNextFrame, hget]
    rfl
  | succ i =>
    have hsome : ((Frame.construct.getNewImage "foreground").2.getImage "foreground").1 =
        .ok 2 := by decide +kernel
    have hget : (compared (J := J) v frames (i + 1)).getImage v "foreground" =
        .ok (movement v frames (i + 1)) :=
      congrArg (Except.map fun k => (compared (J := J) v frames (i + 1)).images.getD k v.mat) hsome
    have hboxes : ∀ box ∈ v.sort (RoiDetector.boxes v (movement v frames (i + 1))),
        box.Positive := by
      intro box hbox
      obtain ⟨contour, _, rfl⟩ := List.mem_map.mp ((hv.sort _).mem_iff.mp hbox)
      exact hv.boundingRect contour
    obtain ⟨rects, hrects, hsweep⟩ := RoiDetector.sweep_consolidateRectangles hboxes
    obtain ⟨tail, hq, ⟨g⟩⟩ := hsweep.grouping
    rw [List.nil_append] at hq
    subst hq
    refine ⟨rects, ?_, fun h => absurd h (Nat.succ_ne_zero i), fun _ => ⟨g⟩, fun _ box hbox => ?_⟩
    · rw [searched, RoiDetector.processNextFrame, hget]
      show (RoiDetector.consolidateRectangles _).map _ = _
      rw [show (compared (J := J) v frames (i + 1)).regionsOfInterest = [] from rfl,
        List.nil_append, hrects]
      rfl
    · obtain ⟨r, hr, hle⟩ := g.covers ((hv.sort _).mem_iff.mpr hbox)
      exact ⟨r, hr, Rect.isInside_iff.mpr hle⟩

/-- Frame `i` when it is published, with the two texts. -/
def titled (v : Vision P C J) (frames : Nat → P × String) (e : Surroundings) (displayName : String)
    (i : Nat) (rects : List Rect) : Picture P J :=
  ScenePublisher.title displayName (e.stats i) (marksOf v frames i rects)

theorem getImage_compared (i : Nat) {name : String} (hname : name ∈ ScenePublisher.streams)
    (hmain : name ≠ "main") :
    ((compared (J := J) v frames i).frame.getImage name).1 =
      if hasImage i name then .ok (if name = "overlay" then 1 else 2)
      else .error ("No image registered with name " ++ name) := by
  have hzero : ∀ name ∈ ScenePublisher.streams, name ≠ "main" →
      (Frame.construct.getImage name).1 =
        if hasImage 0 name then .ok (if name = "overlay" then 1 else 2)
        else .error ("No image registered with name " ++ name) := by decide +kernel
  have hsucc : ∀ name ∈ ScenePublisher.streams, name ≠ "main" →
      ((Frame.construct.getNewImage "foreground").2.getImage name).1 =
        if hasImage 1 name then .ok (if name = "overlay" then 1 else 2)
        else .error ("No image registered with name " ++ name) := by decide +kernel
  cases i with
  | zero => exact hzero name hname hmain
  | succ i =>
    have hhas : hasImage (i + 1) name = hasImage 1 name := by
      rw [hasImage, hasImage, decide_eq_true (Nat.succ_pos i), decide_eq_true Nat.one_pos]
    rw [hhas]
    exact hsucc name hname hmain

theorem overlay_titled (i : Nat) (rects : List Rect) :
    (titled v frames e displayName i rects : Picture P J).images.getD 1 v.mat = marked v rects := by
  cases i <;> rfl

/-- **Which image a stream gets**, or what is thrown. -/
theorem getImageAsJpg_titled (hv : v.Lawful) (hframes : ∀ i, v.isEmpty (frames i).1 = false)
    (i : Nat) (rects : List Rect) {name : String} (hname : name ∈ ScenePublisher.streams) :
    (titled v frames e displayName i rects).getImageAsJpg v name =
      if hasImage i name then .ok (shown v frames e displayName i rects name)
      else .error ("No image registered with name " ++ name) := by
  by_cases hmain : name = "main"
  · subst hmain
    have horiginal : (titled v frames e displayName i rects : Picture P J).original v =
        (frames i).1 := by cases i <;> rfl
    have htime : (titled v frames e displayName i rects : Picture P J).displayTime =
        (frames i).2 := by cases i <;> rfl
    have hhas : hasImage i "main" = true := rfl
    rw [Picture.getImageAsJpg, if_pos rfl, Picture.originalWithOverlayAsJpg, horiginal, hframes,
      if_neg Bool.false_ne_true, Picture.overlay, overlay_titled, htime, hhas, if_pos rfl]
    rfl
  · have himage : (titled v frames e displayName i rects : Picture P J).getImage v name =
        if hasImage i name then
          .ok (if name = "overlay" then marked v rects else movement v frames i)
        else .error ("No image registered with name " ++ name) := by
      show Except.map (fun k => (titled v frames e displayName i rects : Picture P J).images.getD k
        v.mat) ((compared (J := J) v frames i).frame.getImage name).1 = _
      rw [getImage_compared i hname hmain]
      by_cases hhas : hasImage i name = true
      · rw [if_pos hhas, if_pos hhas]
        by_cases hoverlay : name = "overlay"
        · rw [if_pos hoverlay, if_pos hoverlay]
          exact congrArg Except.ok (overlay_titled i rects)
        · rw [if_neg hoverlay, if_neg hoverlay]
          -- there is a foreground from the second frame on
          have hpos : 0 < i := by simp_all [hasImage]
          obtain ⟨j, rfl⟩ := Nat.exists_eq_succ_of_ne_zero hpos.ne'
          rfl
      · rw [if_neg hhas, if_neg hhas]
        rfl
    have hfull : v.isEmpty (if name = "overlay" then marked v rects else movement v frames i) =
        false := by
      split_ifs
      · exact hv.isEmpty_marked rects
      · exact hv.isEmpty_movement hframes i
    rw [Picture.getImageAsJpg, if_neg hmain, himage]
    by_cases hhas : hasImage i name = true
    · rw [if_pos hhas, if_pos hhas, shown, if_neg hmain]
      show (if v.isEmpty _ = true then _ else _) = _
      rw [hfull, if_neg Bool.false_ne_true]
      rfl
    · rw [if_neg hhas, if_neg hhas]
      rfl

variable (e displayName) in
/-- **Every frame is finished**, as `Published` says. -/
theorem finished_eq (hv : v.Lawful) (hframes : ∀ i, v.isEmpty (frames i).1 = false) (i : Nat) :
    ∃ f : Picture P J, finished v frames e displayName i = some f ∧
      Published v frames e displayName i f := by
  obtain ⟨rects, hsearched, hregions⟩ := searched_eq (J := J) frames hv i
  rw [finished, hsearched]
  have hnone : (compared (J := J) v frames i).published = [] := by cases i <;> rfl
  refine ⟨_, rfl, by cases i <;> rfl, hregions, ?_⟩
  show (compared (J := J) v frames i).published ++ ScenePublisher.streams.filterMap
    (ScenePublisher.publish v (titled v frames e displayName i rects) (e.viewers i)) = _
  rw [hnone, List.nil_append, ← List.filterMap_eq_map', List.filterMap_filter]
  refine List.filterMap_congr fun name hname => ?_
  rw [ScenePublisher.publish, getImageAsJpg_titled hv hframes i rects hname]
  cases e.viewers i name
  · rfl
  · cases hasImage i name <;> rfl

theorem launched_of_construct {T F : Type} {rates : Rates F} {name : String} {fps : Int}
    {factor : F} {now : Nat} {t : TimePoint} {sc : Scene T}
    (h : Scene.construct rates name (.ok fps) factor now t = .ok sc) :
    Pipeline.Launched [Stage.imageSource, .movementDetector, .roiDetector, .scenePublisher] 5000
      sc.pipeline := by
  rw [Scene.construct_eq_launch] at h
  obtain ⟨p, hp, hl⟩ := Pipeline.launch_ok (T := T) 5000 (rates.interval fps factor)
    (Stage.imageSource, some "  Camera") [(.movementDetector, some " Movemnt"),
      (.roiDetector, some "    ROIs"), (.scenePublisher, some " Publish")] now t
  rw [hp] at h
  obtain rfl := Except.ok.inj h
  exact hl

/-- **What a scene publishes.**  In every run of the pipeline of a scene whose
elements work as above, for a camera that delivers `frames`: whatever the
schedule, the frames that come out of the publisher are the frames of the
camera in their order, each `Published`. -/
theorem scene_publishes {F : Type} {rates : Rates F} {name : String} {fps : Int} {factor : F}
    {now : Nat} {t : TimePoint} {sc : Scene (Picture P J)}
    (h : Scene.construct rates name (.ok fps) factor now t = .ok sc) (hv : v.Lawful)
    (hcamera : c.Delivers cap frames) (hframes : ∀ i, v.isEmpty (frames i).1 = false)
    {as : List (Pipeline.Action (Picture P J))} {s : Pipeline.State (Picture P J) Stage}
    (hrun : Machine.Steps Pipeline.step (Pipeline.WorksAs (sceneStages v e displayName cap c))
      sc.pipeline as s) {i : Nat} {x : Option (Picture P J)} (hx : (s.outputsAt 3)[i]? = some x) :
    ∃ f, x = some f ∧ Published v frames e displayName i f := by
  have hlength : (sceneStages v e displayName cap c : List (Mealy (Option (Picture P J)))).length =
      4 := rfl
  have hout := (launched_of_construct h).cascade (k := 3) rfl hrun (Nat.lt_succ_self 3)
  rw [List.take_of_length_le hlength.le, cascade_sceneStages hcamera hframes] at hout
  obtain ⟨hi, hget⟩ := List.getElem?_eq_some_iff.mp hx
  have hx' := hget.symm.trans (hout.getElem hi)
  rw [List.getElem_map, List.getElem_range] at hx'
  obtain ⟨f, hf, hpublished⟩ := finished_eq e displayName hv hframes i
  exact ⟨f, hx'.trans hf, hpublished⟩

/-- The images of a file of two, as they are delivered. -/
def twoImages (i : Nat) : Option Nat × String :=
  ([some 3, some 8].get ⟨(i + 1) % 2, Nat.mod_lt _ Nat.two_pos⟩, toString ((i + 1) % 2 + 1))

/-- Somebody looks at the main stream, and at what moved. -/
def lookers : Surroundings where
  viewers _ name := name = "main" || name = "foreground"
  stats _ := ""

/-- The elements of a scene on that file. -/
def yardStages (e : Surroundings) : List (Mealy (Option (Picture (Option Nat) (List UInt8)))) :=
  sceneStages Vision.numbers e "Yard" (.file [some 3, some 8]) (.onFile "yard.avi" 1)

/-- Frame `i` of that file, through all four elements. -/
def frameRun (e : Surroundings) (i : Nat) :
    List (Pipeline.Action (Picture (Option Nat) (List UInt8))) :=
  [.elapse 40, .expire 0, .run 0 1,
    .finish 0 (some (Picture.captured Vision.numbers (twoImages i))) 2, .next 0, .restart 0,
    .rewait 0, .run 1 3, .finish 1 (some (compared Vision.numbers twoImages i)) 4, .next 1,
    .run 2 5, .finish 2 (searched Vision.numbers twoImages i) 6, .next 2, .run 3 7,
    .finish 3 (finished Vision.numbers twoImages e "Yard" i) 8, .next 3]

theorem delivers_twoImages :
    (Camera.onFile "yard.avi" 1).Delivers (.file [some 3, some 8]) twoImages := by
  have hpos : 0 < [some 3, some 8].length := Nat.two_pos
  have hmade : Camera.construct Vision.numbers (.file [some 3, some 8]) "yard.avi" 0 =
      .ok (.onFile "yard.avi" 1) := rfl
  exact Camera.delivers_file (VideoCapture.file_plays _) (by decide) hmade hpos

theorem twoImages_full (i : Nat) : Vision.numbers.isEmpty (twoImages i).1 = false := by
  have hall : ∀ image ∈ [some 3, some 8], Vision.numbers.isEmpty image = false := by decide
  exact hall _ (List.get_mem _ _)

theorem construct_of_toOption {T F : Type} {rates : Rates F} {name : String}
    {camera : Except String Int} {factor : F} {now : Nat} {t : TimePoint} {sc : Scene T}
    (h : (Scene.construct rates name camera factor now t).toOption = some sc) :
    Scene.construct rates name camera factor now t = .ok sc := by
  cases hc : Scene.construct (T := T) rates name camera factor now t with
  | error e =>
    rw [hc] at h
    cases h
  | ok sc' =>
    rw [hc] at h
    exact congrArg Except.ok (Option.some.inj h)

/-- The second frame of a scene. -/
theorem scene_publishes_two :
    ∃ sc, Scene.construct ⟨fun _ (_ : Unit) => 40, fun _ _ => 40⟩ "Yard" (.ok 25) () 0 0 =
        .ok sc ∧
      ∃ s, Machine.exec (Machine.permit Pipeline.step (Pipeline.WorksAs (yardStages lookers))) sc.pipeline
          (frameRun lookers 0 ++ frameRun lookers 1) = some s ∧
        ∃ x f, (s.outputsAt 3)[1]? = some x ∧ x = some f ∧
          Published Vision.numbers twoImages lookers "Yard" 1 f := by
  have hcheck : ((Scene.construct ⟨fun _ (_ : Unit) => 40, fun _ _ => 40⟩ "Yard" (.ok 25) ()
      0 0).toOption.bind fun sc =>
        (Machine.exec (Machine.permit Pipeline.step (Pipeline.WorksAs (yardStages lookers))) sc.pipeline
          (frameRun lookers 0 ++ frameRun lookers 1)).map fun s => (s.outputsAt 3)[1]?.isSome) = some true := by decide +kernel
  obtain ⟨sc, hsc, hrun⟩ := Option.bind_eq_some_iff.mp hcheck
  obtain ⟨s, hs, hx⟩ := Option.map_eq_some_iff.mp hrun
  obtain ⟨x, hx⟩ := Option.isSome_iff_exists.mp hx
  have hok := construct_of_toOption hsc
  obtain ⟨f, hf, hpublished⟩ := scene_publishes hok Vision.numbers_lawful delivers_twoImages
    twoImages_full (Machine.steps_iff_exec_permit.mpr hs) hx
  exact ⟨sc, hok, s, hs, x, f, hx, hf, hpublished⟩

end SecMon
