import Mathlib.Data.List.Infix
import Mathlib.Data.List.Nodup

/-!
# The image slots of a frame

`Frame.cpp`: a frame has `kMaxImagesPerFrame` images, each with a name.  A slot
with the empty name is free.  The calls hand out references to images, that is
to slots; none of them changes an image.

* `Holds f names`: the slots of `f` are filled with `names`, one after the other.
* `getNewImage_eq`, `getImage_eq`, `getNewOrExistingImage_eq`: what each call does
  then.
* `Holds.step`: a call keeps what is registered, and adds at most its own name.
* `image_slots`: what follows for a run of calls.
-/

namespace SecMon

/-- `kMaxImagesPerFrame`. -/
def kMaxImagesPerFrame : Nat := 10

/-- `Frame`, as far as the names of the images go. -/
@[ext]
structure Frame where
  imageNames : List String
  size : imageNames.length = kMaxImagesPerFrame

namespace Frame

/-- What a call returns, the slot or the text of an `invalid_argument`, and what it
leaves. -/
abbrev Result := Except String Nat × Frame

/-- The constructor. -/
def construct : Frame where
  imageNames := ["original", "overlay"] ++ List.replicate 8 ""
  size := rfl

/-- The loop of `get_new_image` over the slots that are left.  Slots are counted from
where these begin. -/
def newImageLoop (name : String) : List String → Except String Nat × List String
  | [] => (.error "No available images", [])
  | slot :: slots =>
    if slot = name then
      (.error ("Image already registered with name " ++ name), slot :: slots)
    else if slot = "" then
      (.ok 0, name :: slots)
    else
      ((newImageLoop name slots).1.map (· + 1), slot :: (newImageLoop name slots).2)

theorem length_newImageLoop (name : String) (slots : List String) :
    (newImageLoop name slots).2.length = slots.length := by
  induction slots with
  | nil => rfl
  | cons slot slots ih =>
    rw [newImageLoop]
    split_ifs
    · rfl
    · rfl
    · exact congrArg (· + 1) ih

/-- The scan that takes the first free slot. -/
def register (f : Frame) (name : String) : Result :=
  ((newImageLoop name f.imageNames).1,
    ⟨(newImageLoop name f.imageNames).2, (length_newImageLoop name _).trans f.size⟩)

/-- `get_new_image`. -/
def getNewImage (f : Frame) (name : String) : Result := f.register name

/-- `get_new_blank_image`.  `images_[i].zeros(..)` makes a new matrix, which is dropped. -/
def getNewBlankImage (f : Frame) (name : String) : Result := f.register name

/-- `get_image`. -/
def getImage (f : Frame) (name : String) : Result :=
  match f.imageNames.findIdx? (· = name) with
  | some i => (.ok i, f)
  | none => (.error ("No image registered with name " ++ name), f)

/-- `get_new_or_existing_image`. -/
def getNewOrExistingImage (f : Frame) (name : String) : Result :=
  match f.imageNames.findIdx? (· = name) with
  | some i => (.ok i, f)
  | none => f.getNewImage name

/-- One of the four calls. -/
inductive Call
  | getNewImage (name : String)
  | getNewBlankImage (name : String)
  | getNewOrExistingImage (name : String)
  | getImage (name : String)
  deriving DecidableEq, Repr

def Call.name : Call → String
  | getNewImage name => name
  | getNewBlankImage name => name
  | getNewOrExistingImage name => name
  | getImage name => name

def step (f : Frame) : Call → Result
  | .getNewImage name => f.getNewImage name
  | .getNewBlankImage name => f.getNewBlankImage name
  | .getNewOrExistingImage name => f.getNewOrExistingImage name
  | .getImage name => f.getImage name

/-- What a sequence of calls leaves, those that throw among them. -/
def after (f : Frame) (calls : List Call) : Frame := calls.foldl (fun f c => (f.step c).2) f

/-- The names that are registered. -/
def registered (f : Frame) : List String := f.imageNames.filter (· ≠ "")

/-- The call ends with an exception. -/
def Throws (r : Result) : Prop := ∃ e, r.1 = .error e

/-! ## Filled slots -/

/-- **The slots are filled with `names`**, one after the other, and the rest is free. -/
structure Holds (f : Frame) (names : List String) : Prop where
  imageNames_eq :
    f.imageNames = names ++ List.replicate (kMaxImagesPerFrame - names.length) ""
  nodup : names.Nodup
  not_mem : "" ∉ names
  first : ["original", "overlay"] <+: names

theorem holds_construct : construct.Holds ["original", "overlay"] where
  imageNames_eq := rfl
  nodup := by decide
  not_mem := by decide
  first := List.prefix_refl _

section

variable {f : Frame} {names : List String} {name : String}

theorem Holds.length_le (h : f.Holds names) : names.length ≤ kMaxImagesPerFrame := by
  have hsize := congrArg List.length h.imageNames_eq
  rw [f.size, List.length_append] at hsize
  omega

theorem Holds.registered_eq (h : f.Holds names) : f.registered = names := by
  have hnames : names.filter (· ≠ "") = names := by
    rw [List.filter_eq_self]
    intro slot hslot
    rw [decide_eq_true_iff]
    rintro rfl
    exact h.not_mem hslot
  rw [registered, h.imageNames_eq, List.filter_append, hnames, List.filter_replicate]
  simp

/-- What the loop does with slots that are filled one after the other. -/
theorem newImageLoop_eq (hname : name ≠ "") (free : Nat) (hempty : "" ∉ names) :
    newImageLoop name (names ++ List.replicate free "") =
      if name ∈ names then
        (.error ("Image already registered with name " ++ name), names ++ List.replicate free "")
      else if free = 0 then
        (.error "No available images", names ++ List.replicate free "")
      else
        (.ok names.length, names ++ name :: List.replicate (free - 1) "") := by
  induction names with
  | nil =>
    rw [if_neg (by simp), List.nil_append]
    cases free with
    | zero => rfl
    | succ free =>
      rw [List.replicate_succ, newImageLoop, if_neg hname.symm, if_pos rfl, if_neg (by omega)]
      rfl
  | cons slot names ih =>
    rw [List.mem_cons, not_or] at hempty
    rw [List.cons_append, newImageLoop]
    by_cases hslot : slot = name
    · rw [if_pos hslot, if_pos (by simp [hslot])]
    · have hmem : name ∈ slot :: names ↔ name ∈ names := by
        rw [List.mem_cons]
        exact or_iff_right fun h => hslot h.symm
      rw [if_neg hslot, if_neg (Ne.symm hempty.1), ih hempty.2]
      simp only [hmem]
      split_ifs <;> rfl

theorem findIdx?_eq (hname : name ≠ "") (free : Nat) :
    (names ++ List.replicate free "").findIdx? (· = name) =
      if name ∈ names then some (names.idxOf name) else none := by
  induction names with
  | nil => simpa using fun _ h => hname h
  | cons slot names ih =>
    rw [List.cons_append, List.findIdx?_cons, ih, List.idxOf_cons]
    by_cases hslot : slot = name
    · simp [hslot]
    · have hmem : name ∈ slot :: names ↔ name ∈ names := by
        rw [List.mem_cons]
        exact or_iff_right fun h => hslot h.symm
      rw [beq_false_of_ne hslot, if_neg (by simpa using hslot)]
      simp only [hmem]
      split_ifs <;> rfl

/-! ## The calls -/

theorem register_of_loop {f' : Frame} {r : Except String Nat}
    (h : newImageLoop name f.imageNames = (r, f'.imageNames)) : f.register name = (r, f') := by
  have hfst := congrArg Prod.fst h
  have hsnd := congrArg Prod.snd h
  exact Prod.ext hfst (Frame.ext hsnd)

/-- **The first free slot is taken**, if there is one and the name is new. -/
theorem Holds.register_eq (h : f.Holds names) (hname : name ≠ "") :
    (name ∈ names ∧
      f.register name = (.error ("Image already registered with name " ++ name), f)) ∨
    (name ∉ names ∧ names.length = kMaxImagesPerFrame ∧
      f.register name = (.error "No available images", f)) ∨
    (name ∉ names ∧ names.length < kMaxImagesPerFrame ∧
      ∃ f', f.register name = (.ok names.length, f') ∧ f'.Holds (names ++ [name])) := by
  have hlen := h.length_le
  have hloop := newImageLoop_eq hname (kMaxImagesPerFrame - names.length) h.not_mem
  rw [← h.imageNames_eq] at hloop
  by_cases hmem : name ∈ names
  · rw [if_pos hmem] at hloop
    exact Or.inl ⟨hmem, register_of_loop hloop⟩
  rw [if_neg hmem] at hloop
  by_cases hfull : kMaxImagesPerFrame - names.length = 0
  · rw [if_pos hfull] at hloop
    exact Or.inr (Or.inl ⟨hmem, by omega, register_of_loop hloop⟩)
  rw [if_neg hfull] at hloop
  have hfree : kMaxImagesPerFrame - names.length - 1 =
      kMaxImagesPerFrame - (names ++ [name]).length := by
    rw [List.length_append, List.length_singleton]
    omega
  rw [hfree, List.append_cons] at hloop
  have hsize := length_newImageLoop name f.imageNames
  rw [hloop, f.size] at hsize
  refine Or.inr (Or.inr ⟨hmem, by omega, ⟨_, hsize⟩, register_of_loop hloop, ?_⟩)
  have hnodup : (names ++ [name]).Nodup := by
    rw [← List.concat_eq_append]
    exact h.nodup.concat hmem
  have hnot : "" ∉ names ++ [name] := by
    rw [List.mem_append, List.mem_singleton, not_or]
    exact ⟨h.not_mem, hname.symm⟩
  exact ⟨rfl, hnodup, hnot, h.first.trans (List.prefix_append names [name])⟩

theorem Holds.getImage_eq (h : f.Holds names) (hname : name ≠ "") :
    f.getImage name =
      if name ∈ names then (.ok (names.idxOf name), f)
      else (.error ("No image registered with name " ++ name), f) := by
  rw [getImage, h.imageNames_eq, findIdx?_eq hname]
  split_ifs <;> rfl

theorem Holds.getNewOrExistingImage_eq (h : f.Holds names) (hname : name ≠ "") :
    f.getNewOrExistingImage name =
      if name ∈ names then (.ok (names.idxOf name), f) else f.getNewImage name := by
  rw [getNewOrExistingImage, h.imageNames_eq, findIdx?_eq hname]
  split_ifs <;> rfl

/-- What is the same for all calls: they leave what is registered, add at most their
name, and answer with its slot. -/
def Keeps (f : Frame) (names : List String) (name : String) (r : Result) : Prop :=
  ∃ names', r.2.Holds names' ∧ names <+: names' ∧ (Throws r → r.2 = f) ∧
    ∀ i, r.1 = .ok i → names'[i]? = some name

theorem Holds.keeps_error (h : f.Holds names) (e : String) :
    Keeps f names name (.error e, f) := by
  refine ⟨names, h, List.prefix_refl names, fun _ => rfl, ?_⟩
  intro i hi
  cases hi

theorem Holds.keeps_found (h : f.Holds names) (hmem : name ∈ names) :
    Keeps f names name (.ok (names.idxOf name), f) := by
  refine ⟨names, h, List.prefix_refl names, fun _ => rfl, ?_⟩
  intro i hi
  obtain rfl : names.idxOf name = i := Except.ok.inj hi
  rw [List.getElem?_eq_getElem (List.idxOf_lt_length_iff.mpr hmem), List.getElem_idxOf]

theorem Holds.keeps_register (h : f.Holds names) (hname : name ≠ "") :
    Keeps f names name (f.register name) := by
  obtain ⟨-, hr⟩ | ⟨-, -, hr⟩ | ⟨-, -, f', hr, hf'⟩ := h.register_eq hname
  · exact hr ▸ h.keeps_error _
  · exact hr ▸ h.keeps_error _
  · rw [hr]
    refine ⟨names ++ [name], hf', List.prefix_append names [name], ?_, ?_⟩
    · rintro ⟨e, he⟩
      cases he
    · intro i hi
      obtain rfl : names.length = i := Except.ok.inj hi
      exact List.getElem?_concat_length

/-- **A call keeps what is registered.** -/
theorem Holds.step (h : f.Holds names) {c : Call} (hc : c.name ≠ "") :
    Keeps f names c.name (f.step c) := by
  cases c with
  | getNewImage name => exact h.keeps_register hc
  | getNewBlankImage name => exact h.keeps_register hc
  | getNewOrExistingImage name =>
    have heq : f.step (.getNewOrExistingImage name) = _ := h.getNewOrExistingImage_eq hc
    rw [heq]
    split_ifs with hmem
    · exact h.keeps_found hmem
    · exact h.keeps_register hc
  | getImage name =>
    have heq : f.step (.getImage name) = _ := h.getImage_eq hc
    rw [heq]
    split_ifs with hmem
    · exact h.keeps_found hmem
    · exact h.keeps_error _

theorem Holds.after (calls : List Call) : ∀ {f : Frame} {names : List String}, f.Holds names →
    (∀ c ∈ calls, c.name ≠ "") → ∃ names', (f.after calls).Holds names' ∧ names <+: names' := by
  induction calls with
  | nil =>
    intro f names h _
    exact ⟨names, h, List.prefix_refl names⟩
  | cons c calls ih =>
    intro f names h hcalls
    rw [List.forall_mem_cons] at hcalls
    obtain ⟨names', h', hprefix, -⟩ := h.step hcalls.1
    obtain ⟨names'', h'', hprefix'⟩ := ih h' hcalls.2
    exact ⟨names'', h'', hprefix.trans hprefix'⟩

end

/-! ## Runs -/

theorem Holds.getImage_of_getElem? {f : Frame} {names : List String} {name : String} {i : Nat}
    (h : f.Holds names) (hi : names[i]? = some name) :
    f.getImage name = (.ok i, f) ∧ f.getNewOrExistingImage name = (.ok i, f) := by
  have hmem : name ∈ names := List.mem_of_getElem? hi
  have hname : name ≠ "" := fun heq => h.not_mem (heq ▸ hmem)
  have hidx : names.idxOf name = i := by
    obtain ⟨hlt, rfl⟩ := List.getElem?_eq_some_iff.mp hi
    exact h.nodup.idxOf_getElem i hlt
  rw [h.getImage_eq hname, h.getNewOrExistingImage_eq hname, if_pos hmem, if_pos hmem, hidx]
  exact ⟨rfl, rfl⟩

/-- **A name once registered resolves to the same slot for ever.** -/
theorem Holds.same_slot {f : Frame} {names : List String} (h : f.Holds names) {c : Call} {i : Nat}
    {calls : List Call} (hc : c.name ≠ "") (hcalls : ∀ d ∈ calls, d.name ≠ "")
    (hi : (f.step c).1 = .ok i) :
    (((f.step c).2.after calls).getImage c.name).1 = .ok i ∧
      (((f.step c).2.after calls).getNewOrExistingImage c.name).1 = .ok i := by
  obtain ⟨names', h', -, -, hslot⟩ := h.step hc
  obtain ⟨names'', h'', hprefix⟩ := h'.after calls hcalls
  have hslot' : names''[i]? = some c.name := by
    obtain ⟨more, rfl⟩ := hprefix
    have hlt := (List.getElem?_eq_some_iff.mp (hslot i hi)).1
    rw [List.getElem?_append_left hlt]
    exact hslot i hi
  obtain ⟨himage, hexisting⟩ := h''.getImage_of_getElem? hslot'
  exact ⟨congrArg Prod.fst himage, congrArg Prod.fst hexisting⟩

theorem eq_of_getImage {f : Frame} {a b : String} {i : Nat} (ha : (f.getImage a).1 = .ok i)
    (hb : (f.getImage b).1 = .ok i) : a = b := by
  have hfound : ∀ name, (f.getImage name).1 = .ok i → f.imageNames[i]? = some name := by
    intro name h
    rw [getImage] at h
    split at h
    · rename_i j hj
      obtain rfl : j = i := Except.ok.inj h
      obtain ⟨hlt, hname, -⟩ := List.findIdx?_eq_some_iff_getElem.mp hj
      rw [List.getElem?_eq_getElem hlt]
      exact congrArg some (of_decide_eq_true hname)
    · cases h
  exact Option.some.inj ((hfound a ha).symm.trans (hfound b hb))

theorem throws_error {e : String} {f : Frame} : Throws (.error e, f) := ⟨e, rfl⟩

theorem not_throws_ok {i : Nat} {f : Frame} : ¬Throws (.ok i, f) := by
  rintro ⟨e, he⟩
  cases he

/-- **When each call throws.** -/
theorem Holds.throws_iff {f : Frame} {names : List String} {name : String} (h : f.Holds names)
    (hname : name ≠ "") :
    (Throws (f.getImage name) ↔ name ∉ names) ∧
      (Throws (f.register name) ↔ name ∈ names ∨ names.length = kMaxImagesPerFrame) ∧
      (Throws (f.getNewOrExistingImage name) ↔
        name ∉ names ∧ names.length = kMaxImagesPerFrame) := by
  have hregister : Throws (f.register name) ↔
      name ∈ names ∨ names.length = kMaxImagesPerFrame := by
    obtain ⟨hmem, hr⟩ | ⟨-, hfull, hr⟩ | ⟨hmem, hlt, f', hr, -⟩ := h.register_eq hname
    · rw [hr]
      exact iff_of_true throws_error (Or.inl hmem)
    · rw [hr]
      exact iff_of_true throws_error (Or.inr hfull)
    · rw [hr]
      exact iff_of_false not_throws_ok (not_or.mpr ⟨hmem, hlt.ne⟩)
  rw [h.getImage_eq hname, h.getNewOrExistingImage_eq hname]
  split_ifs with hmem
  · exact ⟨iff_of_false not_throws_ok (not_not.mpr hmem), hregister,
      iff_of_false not_throws_ok fun hnot => hnot.1 hmem⟩
  · refine ⟨iff_of_true throws_error hmem, hregister, ?_⟩
    rw [getNewImage, hregister, or_iff_right hmem, and_iff_right hmem]

/-- **The image slots of a frame**, after any run of calls with names that are not
empty. -/
theorem image_slots (calls : List Call) (hcalls : ∀ c ∈ calls, c.name ≠ "") :
    let f := construct.after calls
    (f.registered.Nodup ∧ f.registered <+: f.imageNames ∧
      ["original", "overlay"] <+: f.registered) ∧
    (∀ (c : Call) (i : Nat) (more : List Call), c.name ≠ "" → (∀ d ∈ more, d.name ≠ "") →
      (f.step c).1 = .ok i →
      (((f.step c).2.after more).getImage c.name).1 = .ok i ∧
        (((f.step c).2.after more).getNewOrExistingImage c.name).1 = .ok i) ∧
    (∀ (a b : String) (i : Nat), (f.getImage a).1 = .ok i → (f.getImage b).1 = .ok i → a = b) ∧
    ∀ name : String, name ≠ "" →
      (Throws (f.getImage name) ↔ name ∉ f.registered) ∧
      (Throws (f.getNewImage name) ↔
        name ∈ f.registered ∨ f.registered.length = kMaxImagesPerFrame) ∧
      (Throws (f.getNewBlankImage name) ↔
        name ∈ f.registered ∨ f.registered.length = kMaxImagesPerFrame) ∧
      (Throws (f.getNewOrExistingImage name) ↔
        name ∉ f.registered ∧ f.registered.length = kMaxImagesPerFrame) ∧
      ∀ c : Call, c.name = name → Throws (f.step c) → (f.step c).2 = f := by
  intro f
  obtain ⟨names, h, hprefix⟩ := holds_construct.after calls hcalls
  have hreg : f.registered = names := h.registered_eq
  rw [hreg]
  refine ⟨⟨h.nodup, ⟨_, h.imageNames_eq.symm⟩, hprefix⟩, ?_, fun _ _ _ => eq_of_getImage, ?_⟩
  · intro c i more hc hmore hi
    exact h.same_slot hc hmore hi
  · intro name hname
    obtain ⟨himage, hnew, hexisting⟩ := h.throws_iff hname
    refine ⟨himage, hnew, hnew, hexisting, ?_⟩
    rintro c rfl hthrows
    obtain ⟨-, -, -, hkeep, -⟩ := h.step hname
    exact hkeep hthrows

/-- Eight more images fill the frame.  After that a name that is there is still found. -/
theorem image_slots_full :
    let f := construct.after [.getNewImage "gray", .getNewImage "gray", .getNewBlankImage "hsv",
      .getNewOrExistingImage "mask", .getImage "none", .getNewImage "a", .getNewImage "b",
      .getNewImage "c", .getNewImage "d", .getNewImage "foreground"]
    f.registered.length = kMaxImagesPerFrame ∧ Throws (f.getNewImage "e") ∧
      ¬Throws (f.getNewOrExistingImage "mask") := by
  intro f
  obtain ⟨-, -, -, hthrows⟩ := image_slots
    [.getNewImage "gray", .getNewImage "gray", .getNewBlankImage "hsv",
      .getNewOrExistingImage "mask", .getImage "none", .getNewImage "a", .getNewImage "b",
      .getNewImage "c", .getNewImage "d", .getNewImage "foreground"] (by decide)
  obtain ⟨-, hnew, -⟩ := hthrows "e" (by decide)
  obtain ⟨-, -, -, hexisting, -⟩ := hthrows "mask" (by decide)
  exact ⟨by decide +kernel, hnew.mpr (by decide +kernel), hexisting.not.mpr (by decide +kernel)⟩

end Frame

end SecMon
