import SecMon.Picture
import SecMon.Core.Mealy

/-!
# The camera of a scene

`ImageSource.cpp`, `Camera.cpp`: a camera is a `cv::VideoCapture` on a url or on
a file.  Where it has no image it is opened again, and asked once more.

`video_repeats`: a file is shown over and over.  The constructor takes the first
image to see its size, so the first round is one image short.
-/

namespace SecMon

/-- `cv::VideoCapture`, with the clock.  `S` is the state of the device. -/
structure VideoCapture (S P : Type) where
  /-- `release`, `open` and `isOpened` -/
  opened : String → S → Option S
  read : S → Option P × S
  /-- the property `CV_CAP_PROP_POS_FRAMES` -/
  posFrames : S → Nat
  localTime : S → String

structure Camera (S : Type) where
  source : String
  realCamera : Bool
  capture : S
  deriving DecidableEq, Repr

variable {S P C J : Type} {n : Nat}

namespace Camera

variable (v : Vision P C J) (cap : VideoCapture S P)

/-- The constructor. -/
def construct (source : String) (s : S) : Except String (Camera S) :=
  match cap.opened source s with
  | none => .error ("Could not open camera at: " ++ source)
  | some s =>
    match cap.read s with
    | (none, _) => .error ("Could not get first image from camera at: " ++ source)
    | (some image, s) =>
      if v.isEmpty image then .error ("Could not get first image from camera at: " ++ source)
      else .ok {
        source := source
        realCamera := source.toList.take 4 = "http".toList
        capture := s }

/-- `get_next_frame`: the image and the time that is shown with it. -/
def getNextFrame (c : Camera S) : Option (P × String) × Camera S :=
  match cap.read c.capture with
  | (none, s) => (none, { c with capture := s })
  | (some image, s) =>
    (some (image, if c.realCamera then cap.localTime s else toString (cap.posFrames s)),
      { c with capture := s })

def restart (c : Camera S) : Except String (Camera S) :=
  match cap.opened c.source c.capture with
  | none => .error ("Could not re-open camera at: " ++ c.source)
  | some s => .ok { c with capture := s }

end Camera

namespace ImageSource

/-- The `try` block.  `throw e` throws a copy, of which only the base class is
left; what is thrown in the block itself is a `char*`, which is not caught. -/
def nextImage (cap : VideoCapture S P) (c : Camera S) : Except String (P × String) × Camera S :=
  match c.getNextFrame cap with
  | (some image, c) => (.ok image, c)
  | (none, c) =>
    match c.restart cap with
    | .error _ => (.error "std::exception", c)
    | .ok c =>
      match c.getNextFrame cap with
      | (some image, c) => (.ok image, c)
      | (none, c) => (.error "Camera failed to read after re-start", c)

/-- `process_next_frame`. -/
def processNextFrame (v : Vision P C J) (cap : VideoCapture S P) (c : Camera S) :
    Except String (Picture P J) × Camera S :=
  ((nextImage cap c).1.map (Picture.captured v), (nextImage cap c).2)

end ImageSource

/-- The image source of a scene.  A frame whose work function throws gets no further. -/
def imageSource (v : Vision P C J) (cap : VideoCapture S P) (c : Camera S) :
    Mealy (Option (Picture P J)) where
  State := Camera S
  start := c
  step c _ := ((ImageSource.processNextFrame v cap c).2,
    (ImageSource.processNextFrame v cap c).1.toOption)

/-- **The camera delivers `frames`**, one a call. -/
def Camera.Delivers (cap : VideoCapture S P) (c : Camera S) (frames : Nat → P × String) : Prop :=
  ∃ σ : Nat → Camera S, σ 0 = c ∧ ∀ i, ImageSource.nextImage cap (σ i) = (.ok (frames i), σ (i + 1))

theorem Camera.Delivers.outputs {cap : VideoCapture S P} {c : Camera S} {frames : Nat → P × String}
    (h : c.Delivers cap frames) (v : Vision P C J) (n : Nat) :
    (imageSource v cap c).outputs (List.replicate n none) =
      (List.range n).map fun i => some (Picture.captured v (frames i)) := by
  obtain ⟨σ, hstart, hnext⟩ := h
  have hnone : List.replicate n (none : Option (Picture P J)) =
      (List.range n).map fun _ => none := by
    rw [List.map_const', List.length_range]
  rw [hnone]
  refine Mealy.outputs_range (σ := σ) hstart.symm (fun i => ?_) n
  show ((ImageSource.nextImage cap (σ i)).2,
    ((ImageSource.nextImage cap (σ i)).1.map (Picture.captured v)).toOption) = _
  rw [hnext]
  rfl

theorem Camera.delivers_of_step {cap : VideoCapture S P} {c : Camera S} {frames : Nat → P × String}
    {I : Nat → Camera S → Prop} (hstart : I 0 c)
    (hstep : ∀ i c, I i c → ∃ c', ImageSource.nextImage cap c = (.ok (frames i), c') ∧ I (i + 1) c') :
    c.Delivers cap frames := by
  let σ : Nat → Camera S := fun i => (fun c => (ImageSource.nextImage cap c).2)^[i] c
  have hI : ∀ i, I i (σ i) := by
    intro i
    induction i with
    | zero => exact hstart
    | succ i ih =>
      obtain ⟨c', hc', hI⟩ := hstep i (σ i) ih
      have hσ : σ (i + 1) = c' :=
        (Function.iterate_succ_apply' _ i c).trans (congrArg Prod.snd hc')
      rw [hσ]
      exact hI
  refine ⟨σ, rfl, fun i => ?_⟩
  obtain ⟨c', hc', _⟩ := hstep i (σ i) (hI i)
  have hσ : σ (i + 1) = c' :=
    (Function.iterate_succ_apply' _ i c).trans (congrArg Prod.snd hc')
  rw [hc', hσ]

/-! ### Files -/

/-- What is documented of a capture on a file with these images: it reads one
after the other, and none when it is at the end. -/
structure VideoCapture.Plays (cap : VideoCapture S P) (images : List P) : Prop where
  opened : ∀ source s, ∃ s', cap.opened source s = some s' ∧ cap.posFrames s' = 0
  read : ∀ s (h : cap.posFrames s < images.length),
    ∃ s', cap.read s = (some (images.get ⟨cap.posFrames s, h⟩), s') ∧
      cap.posFrames s' = cap.posFrames s + 1
  ended : ∀ s, images.length ≤ cap.posFrames s → (cap.read s).1 = none

/-- A camera on a file, when so many images have been read. -/
structure Camera.OnFile (cap : VideoCapture S P) (n : Nat) (c : Camera S) : Prop where
  file : c.realCamera = false
  position : cap.posFrames c.capture = n

section

variable {v : Vision P C J} {cap : VideoCapture S P} {images : List P} {c : Camera S}

theorem Camera.onFile_of_construct (hplays : cap.Plays images) {source : String} {s : S}
    (hfile : source.toList.take 4 ≠ "http".toList) (h : construct v cap source s = .ok c) :
    0 < images.length ∧ c.OnFile cap 1 := by
  obtain ⟨s₀, hopened, hzero⟩ := hplays.opened source s
  simp only [construct, hopened] at h
  by_cases hpos : 0 < images.length
  · obtain ⟨s₁, hread, hone⟩ := hplays.read s₀ (hzero ▸ hpos)
    simp only [hread] at h
    split_ifs at h
    obtain rfl := Except.ok.inj h
    exact ⟨hpos, decide_eq_false hfile, by rw [hone, hzero]⟩
  · have hnone := hplays.ended s₀ ((Nat.le_of_not_lt hpos).trans (Nat.zero_le _))
    rcases hread : cap.read s₀ with ⟨image, s₁⟩
    rw [hread] at hnone
    obtain rfl : image = none := hnone
    simp only [hread] at h
    cases h

theorem Camera.OnFile.getNextFrame (h : c.OnFile cap n) (hplays : cap.Plays images)
    (hn : n < images.length) :
    ∃ c', c.getNextFrame cap = (some (images.get ⟨n, hn⟩, toString (n + 1)), c') ∧
      c'.OnFile cap (n + 1) := by
  obtain ⟨hfile, rfl⟩ := h
  obtain ⟨s', hread, hposition⟩ := hplays.read c.capture hn
  refine ⟨{ c with capture := s' }, ?_, hfile, hposition⟩
  rw [Camera.getNextFrame]
  simp only [hread, hfile, hposition]
  rfl

/-- Each image is followed by the next, and the last by the first. -/
theorem Camera.OnFile.nextImage (hplays : cap.Plays images) (hpos : 0 < images.length) {i : Nat}
    (h : c.OnFile cap (i % images.length + 1)) :
    ∃ c', ImageSource.nextImage cap c =
        (.ok (images.get ⟨(i + 1) % images.length, Nat.mod_lt _ hpos⟩,
          toString ((i + 1) % images.length + 1)), c') ∧
      c'.OnFile cap ((i + 1) % images.length + 1) := by
  have hmod : (i + 1) % images.length = (i % images.length + 1) % images.length :=
    (Nat.mod_add_mod i images.length 1).symm
  rw [ImageSource.nextImage]
  by_cases hend : i % images.length + 1 = images.length
  · -- the file is at its end, and is opened again
    have hfirst : (i + 1) % images.length = 0 := by rw [hmod, hend, Nat.mod_self]
    have hnone := hplays.ended c.capture (h.position.trans hend).ge
    rcases hread : cap.read c.capture with ⟨image, s⟩
    rw [hread] at hnone
    obtain rfl : image = none := hnone
    have hnext : c.getNextFrame cap = (none, { c with capture := s }) := by
      rw [Camera.getNextFrame]
      simp only [hread]
    obtain ⟨s₀, hopened, hzero⟩ := hplays.opened c.source s
    have hrestart : Camera.restart cap { c with capture := s } = .ok { c with capture := s₀ } := by
      rw [Camera.restart]
      simp only [hopened]
    have hstart : Camera.OnFile cap 0 { c with capture := s₀ } := ⟨h.file, hzero⟩
    obtain ⟨c', hc', hone⟩ := hstart.getNextFrame hplays hpos
    refine ⟨c', ?_, hfirst ▸ hone⟩
    simp only [hnext, hrestart, hc', hfirst]
  · have hlt : i % images.length + 1 < images.length :=
      Nat.lt_of_le_of_ne (Nat.mod_lt i hpos) hend
    have hnext : (i + 1) % images.length = i % images.length + 1 := by
      rw [hmod, Nat.mod_eq_of_lt hlt]
    obtain ⟨c', hc', hsucc⟩ := h.getNextFrame hplays hlt
    refine ⟨c', ?_, hnext ▸ hsucc⟩
    simp only [hc', hnext]

theorem Camera.delivers_file (hplays : cap.Plays images) {source : String} {s : S}
    (hfile : source.toList.take 4 ≠ "http".toList) (h : construct v cap source s = .ok c)
    (hpos : 0 < images.length) :
    c.Delivers cap fun i => (images.get ⟨(i + 1) % images.length, Nat.mod_lt _ hpos⟩,
      toString ((i + 1) % images.length + 1)) := by
  refine delivers_of_step (I := fun i c => c.OnFile cap (i % images.length + 1)) ?_
    fun i c hc => hc.nextImage hplays hpos
  rw [Nat.zero_mod]
  exact (onFile_of_construct hplays hfile h).2

/-- **A file is shown over and over**, from its second image on, each image with
its number in the file; nothing is ever thrown. -/
theorem video_repeats (hplays : cap.Plays images) {source : String} {s : S}
    (hfile : source.toList.take 4 ≠ "http".toList) (h : Camera.construct v cap source s = .ok c)
    (n : Nat) :
    ∃ hpos : 0 < images.length,
      (imageSource v cap c).outputs (List.replicate n none) =
        (List.range n).map fun i =>
          some (Picture.captured v (images.get ⟨(i + 1) % images.length, Nat.mod_lt _ hpos⟩,
            toString ((i + 1) % images.length + 1))) :=
  ⟨(Camera.onFile_of_construct hplays hfile h).1,
    (Camera.delivers_file hplays hfile h (Camera.onFile_of_construct hplays hfile h).1).outputs v n⟩

end

/-- A file with these images.  The state is the number of those that were read. -/
def VideoCapture.file (images : List P) : VideoCapture Nat P where
  opened _ _ := some 0
  read n := (images[n]?, if n < images.length then n + 1 else n)
  posFrames n := n
  localTime _ := ""

theorem VideoCapture.file_plays (images : List P) : (file images).Plays images where
  opened _ _ := ⟨0, rfl, rfl⟩
  read n h := by
    have hn : n < images.length := h
    refine ⟨n + 1, ?_, rfl⟩
    show (images[n]?, if n < images.length then n + 1 else n) = _
    rw [if_pos hn, List.getElem?_eq_getElem hn]
    rfl
  ended n h := List.getElem?_eq_none h

/-- The camera on it, when so many images have been read. -/
def Camera.onFile (source : String) (n : Nat) : Camera Nat where
  source := source
  realCamera := false
  capture := n

/-- Two images, three times. -/
theorem video_repeats_two :
    ∃ hpos : 0 < [some 3, some 8].length,
      (imageSource Vision.numbers (.file [some 3, some 8]) (.onFile "yard.avi" 1)).outputs
          (List.replicate 6 none) =
        (List.range 6).map fun i => some (Picture.captured Vision.numbers
          ([some 3, some 8].get ⟨(i + 1) % [some 3, some 8].length, Nat.mod_lt _ hpos⟩,
            toString ((i + 1) % [some 3, some 8].length + 1))) := by
  have hmade : Camera.construct Vision.numbers (.file [some 3, some 8]) "yard.avi" 0 =
      .ok (.onFile "yard.avi" 1) := rfl
  exact video_repeats (VideoCapture.file_plays _) (by decide) hmade 6

end SecMon
