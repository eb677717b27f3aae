import SecMon.Gui.Fetch
import SecMon.SceneStages

/-!
# The streams of the scenes

`GUI_Interface.cpp`, and the constructor of `ScenePublisher`: a scene that is made
registers its four streams, and a browser asks for a stream by its number.
`signals` says which signal a `Stream` was given.

`scene_watched`: after any number of scenes and requests, a browser that asks for
the number of a scene's stream becomes the last of its viewers, and of no
other's.
-/

namespace SecMon

open Http

variable {κ : Type}

/-- `GUI_Interface`, as far as streams go.  `scenes` counts the publishers that
were made. -/
structure GuiInterface (κ : Type) where
  streamDirectory : StreamDirectory κ := {}
  /-- the `signal_` of the stream with each id: the scene it is of, and its name -/
  signals : List (Int × Nat × String) := []
  scenes : Nat := 0

namespace GuiInterface

/-- `registerNewStream`. -/
def registerNewStream (scene : Nat) (name : String) (gui : GuiInterface κ) : GuiInterface κ :=
  { gui with
    streamDirectory := gui.streamDirectory.addStream
    signals := gui.signals ++ [(gui.streamDirectory.streamId + 1, scene, name)] }

/-- The constructor of `ScenePublisher`. -/
def newPublisher (gui : GuiInterface κ) : GuiInterface κ :=
  { ScenePublisher.streams.foldl (fun g name => g.registerNewStream gui.scenes name) gui with
    scenes := gui.scenes + 1 }

/-- A scene is made, or a request comes to `handleValidStream`. -/
inductive Event (κ : Type)
  | newPublisher
  | request (path : Bytes) (conn : κ)

def step (gui : GuiInterface κ) : Event κ → GuiInterface κ
  | .newPublisher => gui.newPublisher
  | .request path conn =>
    { gui with
      streamDirectory := (gui.streamDirectory.handleValidStream path conn).getD
        gui.streamDirectory }

def after (events : List (Event κ)) : GuiInterface κ := events.foldl step {}

/-- The viewers of a scene's stream. -/
def viewersOf (gui : GuiInterface κ) (scene : Nat) (name : String) : List κ :=
  match gui.signals.find? fun e => e.2 = (scene, name) with
  | some e => ((gui.streamDirectory.streamList.lookup e.1).map (·.connectionList)).getD []
  | none => []

/-- The number of a scene's stream. -/
def streamNumber (scene : Nat) (name : String) : Nat :=
  4 * scene + ScenePublisher.streams.idxOf name + 1

theorem idxOf_lt {name : String} (hname : name ∈ ScenePublisher.streams) :
    ScenePublisher.streams.idxOf name < 4 :=
  List.idxOf_lt_length_of_mem hname

theorem streamNumber_inj {scene scene' : Nat} {name name' : String}
    (hname : name ∈ ScenePublisher.streams) (hname' : name' ∈ ScenePublisher.streams) :
    streamNumber scene' name' = streamNumber scene name ↔ scene' = scene ∧ name' = name := by
  have hlt := idxOf_lt hname
  have hlt' := idxOf_lt hname'
  constructor
  · intro h
    rw [streamNumber, streamNumber] at h
    refine ⟨by omega, ?_⟩
    have hidx : ScenePublisher.streams.idxOf name' = ScenePublisher.streams.idxOf name := by omega
    exact (List.idxOf_inj hname').mp hidx
  · rintro ⟨rfl, rfl⟩
    rfl

/-- **The streams are numbered** scene by scene. -/
structure Numbered (gui : GuiInterface κ) : Prop where
  directory : gui.streamDirectory.Numbered (4 * gui.scenes)
  signals_eq : gui.signals = (List.range gui.scenes).flatMap fun scene =>
    ScenePublisher.streams.map fun name => ((streamNumber scene name : Int), scene, name)

variable {gui : GuiInterface κ} {scene : Nat} {name : String}

theorem streamNumber_eq (scene : Nat) :
    ScenePublisher.streams.map (streamNumber scene) =
      [4 * scene + 1, 4 * scene + 2, 4 * scene + 3, 4 * scene + 4] := by
  have hidx : ScenePublisher.streams.map (fun name => ScenePublisher.streams.idxOf name) =
      [0, 1, 2, 3] := by decide
  have hmap := congrArg (List.map fun i => 4 * scene + i + 1) hidx
  rwa [List.map_map] at hmap

theorem Numbered.newPublisher (h : gui.Numbered) : gui.newPublisher.Numbered := by
  obtain ⟨hdir, hsignals⟩ := h
  constructor
  · exact hdir.addStream.addStream.addStream.addStream
  · have hnames := congrArg (List.map fun i : Nat => (i : Int)) (streamNumber_eq gui.scenes)
    simp only [ScenePublisher.streams, List.map_cons, List.map_nil, List.cons.injEq, and_true]
      at hnames
    obtain ⟨hmain, hoverlay, hforeground, hdifference⟩ := hnames
    show gui.signals ++ [_] ++ [_] ++ [_] ++ [_] = _
    rw [hsignals, show gui.newPublisher.scenes = gui.scenes + 1 from rfl, List.range_succ,
      List.flatMap_append, List.flatMap_singleton]
    simp only [ScenePublisher.streams, List.map_cons, List.map_nil, hmain, hoverlay, hforeground,
      hdifference, registerNewStream, StreamDirectory.addStream, hdir.streamId_eq,
      List.append_assoc, List.cons_append, List.nil_append]
    push_cast
    rfl

theorem Numbered.request (h : gui.Numbered) (path : Bytes) (conn : κ) :
    (gui.step (.request path conn)).Numbered := by
  refine ⟨?_, h.signals_eq⟩
  show ((gui.streamDirectory.handleValidStream path conn).getD gui.streamDirectory).Numbered _
  cases hp : gui.streamDirectory.handleValidStream path conn with
  | none => exact h.directory
  | some dir' =>
    obtain ⟨id, rfl⟩ := StreamDirectory.handleValidStream_eq_some hp
    exact h.directory.modify id _

theorem numbered_after (events : List (Event κ)) : (after events).Numbered := by
  suffices h : ∀ gui : GuiInterface κ, gui.Numbered → (events.foldl step gui).Numbered from
    h {} ⟨⟨rfl, rfl⟩, rfl⟩
  induction events with
  | nil => exact fun gui h => h
  | cons event events ih =>
    intro gui h
    refine ih _ ?_
    cases event with
    | newPublisher => exact h.newPublisher
    | request path conn => exact h.request path conn

theorem Numbered.find_signal (h : gui.Numbered) (hscene : scene < gui.scenes)
    (hname : name ∈ ScenePublisher.streams) :
    gui.signals.find? (fun e => e.2 = (scene, name)) =
      some ((streamNumber scene name : Int), scene, name) := by
  have hmem : ((streamNumber scene name : Int), scene, name) ∈ gui.signals := by
    rw [h.signals_eq, List.mem_flatMap]
    exact ⟨scene, List.mem_range.mpr hscene, List.mem_map.mpr ⟨name, hname, rfl⟩⟩
  cases hfind : gui.signals.find? (fun e => e.2 = (scene, name)) with
  | none => exact absurd (decide_eq_true rfl) (List.find?_eq_none.mp hfind _ hmem)
  | some e =>
    have hsignal : e.2 = (scene, name) := by simpa using List.find?_some hfind
    have he := List.mem_of_find?_eq_some hfind
    rw [h.signals_eq, List.mem_flatMap] at he
    obtain ⟨scene', _, he⟩ := he
    obtain ⟨name', _, rfl⟩ := List.mem_map.mp he
    obtain ⟨rfl, rfl⟩ := Prod.mk.inj hsignal
    rfl

theorem Numbered.viewersOf_eq (h : gui.Numbered) (hscene : scene < gui.scenes)
    (hname : name ∈ ScenePublisher.streams) :
    gui.viewersOf scene name = ((gui.streamDirectory.streamList.lookup
      (streamNumber scene name : Int)).map (·.connectionList)).getD [] := by
  rw [viewersOf, h.find_signal hscene hname]

theorem Numbered.viewersOf_register (h : gui.Numbered) {scene' : Nat} {name' : String}
    (hname : name ∈ ScenePublisher.streams)
    (hscene' : scene' < gui.scenes) (hname' : name' ∈ ScenePublisher.streams) (conn : κ) :
    viewersOf { gui with streamDirectory :=
        gui.streamDirectory.register (streamNumber scene name : Int) conn } scene' name' =
      if scene' = scene ∧ name' = name then gui.viewersOf scene' name' ++ [conn]
      else gui.viewersOf scene' name' := by
  have h' : Numbered { gui with streamDirectory :=
      gui.streamDirectory.register (streamNumber scene name : Int) conn } :=
    ⟨h.directory.modify _ _, h.signals_eq⟩
  have hid := idxOf_lt hname'
  have hsome : (gui.streamDirectory.streamList.lookup (streamNumber scene' name' : Int)).isSome =
      true := by
    rw [h.directory.lookup_isSome_iff, streamNumber]
    omega
  obtain ⟨str, hstr⟩ := Option.isSome_iff_exists.mp hsome
  rw [h'.viewersOf_eq hscene' hname', h.viewersOf_eq hscene' hname', StreamDirectory.lookup_register, hstr]
  simp only [Int.natCast_inj, streamNumber_inj hname hname']
  split_ifs <;> rfl

/-- **A browser watches the stream it asks for.**  After any number of scenes and
requests, a client whose request encodes the number of a scene's stream becomes
the last of that stream's viewers; nobody else's viewers change, and nothing is
replied. -/
theorem scene_watched {events : List (Event κ)} {path : Bytes} {d : RequestHead} {conn : κ}
    {docRoot : Bytes} {files : Bytes → Option Bytes} {pieces : List Bytes} {more : Bytes}
    (hscene : scene < (after events).scenes) (hname : name ∈ ScenePublisher.streams)
    (hmax : 4 * (after events).scenes ≤ 2147483647)
    (hpath : StreamPath path (streamNumber scene name)) (hp : Encodes d.uri path)
    (hsize : ∀ data ∈ pieces, data.length ≤ 8192) (hsent : pieces.flatten = d.render ++ more) :
    let gui := after events
    let out := (RequestHandler.mk docRoot gui.streamDirectory).handleRequest files d.request {} conn
    let c := Connection.drive conn ⟨⟨docRoot, gui.streamDirectory⟩, files⟩ (.start {}) pieces
    c.handled = [d.request] ∧ c.writes = [] ∧ out.isStream = true ∧
      ∀ scene' < gui.scenes, ∀ name' ∈ ScenePublisher.streams,
        viewersOf { gui with streamDirectory := out.streamDirectory } scene' name' =
          if scene' = scene ∧ name' = name then gui.viewersOf scene' name' ++ [conn]
          else gui.viewersOf scene' name' := by
  intro gui out c
  have hn : gui.Numbered := numbered_after events
  have hid := idxOf_lt hname
  have hpos : 1 ≤ streamNumber scene name := Nat.le_add_left 1 _
  have hle : streamNumber scene name ≤ 4 * gui.scenes := by
    have hlt : scene < gui.scenes := hscene
    rw [streamNumber]
    omega
  obtain ⟨hhandled, hwatch⟩ := watch conn hn.directory hmax hp hpath hsize hsent
  rw [if_pos ⟨hpos, hle⟩, ← hn.directory.register_eq hpos] at hwatch
  obtain ⟨hstream, hdirectory, hwrites⟩ := hwatch
  refine ⟨hhandled, hwrites, hstream, fun scene' hscene' name' hname' => ?_⟩
  rw [← hn.viewersOf_register hname hscene' hname' conn, ← hdirectory]

/-- The page of a site with two scenes asks for the overlay of the second. -/
theorem scene_watched_second :
    let gui := after [.newPublisher, .request (ascii "/001.mjpeg") 7, .newPublisher]
    let path := ascii "/006.mjpeg"
    let out := (RequestHandler.mk [] gui.streamDirectory).handleRequest (fun _ => none)
      (RequestHead.get path).request {} 8
    let c := Connection.drive 8 ⟨⟨[], gui.streamDirectory⟩, fun _ => none⟩ (.start {})
      [(RequestHead.get path).render]
    c.handled = [(RequestHead.get path).request] ∧ c.writes = [] ∧ out.isStream = true ∧
      ∀ scene' < gui.scenes, ∀ name' ∈ ScenePublisher.streams,
        viewersOf { gui with streamDirectory := out.streamDirectory } scene' name' =
          if scene' = 1 ∧ name' = "overlay" then gui.viewersOf scene' name' ++ [8]
          else gui.viewersOf scene' name' := by
  have hpath : StreamPath (ascii "/006.mjpeg") (streamNumber 1 "overlay") :=
    ⟨ascii "006", ⟨by decide, by decide +kernel⟩, by decide, rfl⟩
  have hsent : [(RequestHead.get (ascii "/006.mjpeg")).render].flatten =
      (RequestHead.get (ascii "/006.mjpeg")).render ++ [] := rfl
  exact scene_watched (by decide) (by decide) (by decide) hpath
    (encodes_percentEncode isPlain _) (by decide +kernel) hsent

end GuiInterface

end SecMon
