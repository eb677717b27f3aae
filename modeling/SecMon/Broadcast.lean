import SecMon.Gui.Outbox
import SecMon.SceneStages

/-!
# From the camera to the viewers

One stream of a scene, with everyone who watches it: the scene's pipeline, the
signal of the stream, and any number of `StreamConnection`s on it, each on its
own strand.  `publish` is the moment at which `ScenePublisher` emits the image of
a frame, while it works on that frame; the viewers may do anything before and
after.

When a viewer connects to the signal, and when it is disconnected, is history
that no step reads.  `viewers_follow`: between these two moments a viewer is
given the image of every frame that is published, and at no other time any; and
what is written to it is the beginning of that.
-/

namespace SecMon

open Machine Http

variable {P C S : Type}

structure Watched (P : Type) where
  pipeline : Pipeline.State (Picture P Bytes) Stage
  viewers : List StreamConnection := []
  /-- the frames for which the loop over the streams has come past this one -/
  published : Nat := 0
  /-- how many were published when each viewer connected to the signal -/
  connectedAt : Nat → Option Nat := fun _ => none
  /-- and when it was disconnected -/
  disconnectedAt : Nat → Option Nat := fun _ => none

namespace Watched

inductive Action (P : Type)
  | pipeline (a : Pipeline.Action (Picture P Bytes))
  | publish
  | join
  | viewer (i : Nat) (a : StreamConnection.Action)

section

variable (v : Vision P C Bytes) (e : Surroundings) (displayName name : String)

/-- The image that is emitted to the stream, if it has viewers. -/
def emission (s : Watched P) (f : Picture P Bytes) : Option (String × Bytes) :=
  ScenePublisher.publish v (ScenePublisher.title displayName (e.stats s.published) f)
    (fun _ => s.viewers.any (·.isConnected)) name

/-- Viewer `i`, which was `c`, does `a` and becomes `c'`. -/
def moveViewer (i : Nat) (a : StreamConnection.Action) (c c' : StreamConnection) (s : Watched P) :
    Watched P :=
  { s with
    viewers := s.viewers.set i c'
    connectedAt :=
      if a = .connectToSignal then Function.update s.connectedAt i (some s.published)
      else s.connectedAt
    disconnectedAt :=
      if c.isConnected && !c'.isConnected then
        Function.update s.disconnectedAt i (some s.published)
      else s.disconnectedAt }

/-- The end of the publisher's work on a frame. -/
def endsPublishing {T : Type} : Pipeline.Action T → Bool
  | .finish 3 _ _ => true
  | _ => false

/-- The work on a frame does not end before the frame was published. -/
def step (s : Watched P) : Action P → Option (Watched P)
  | .pipeline a =>
    if endsPublishing a = true → s.published = (s.pipeline.inputsAt 3).length then
      (Pipeline.step s.pipeline a).map fun p => { s with pipeline := p }
    else none
  | .publish => do
    let f ← (s.pipeline.inputsAt 3)[s.published]?
    let f ← f
    return { s with
      viewers := match s.emission v e displayName name f with
        | some (_, jpg) => s.viewers.map (·.imageReady jpg)
        | none => s.viewers
      published := s.published + 1 }
  | .join => some { s with viewers := s.viewers ++ [{}] }
  | .viewer _ (.imageReady _) => none
  | .viewer i a => do
    let c ← s.viewers[i]?
    let c' ← c.step a
    return s.moveViewer i a c c'

/-- The elements work as the scene's do, and `Surroundings` says who is there. -/
def Works (cap : VideoCapture S P) (c : Camera S) (s : Watched P) : Action P → Prop
  | .pipeline a => Pipeline.WorksAs (sceneStages v e displayName cap c) s.pipeline a
  | .publish => e.viewers s.published name = s.viewers.any (·.isConnected)
  | _ => True

end

end Watched

/-! ### A viewer of a stream -/

namespace Http.StreamConnection

/-- `start()` has come to `connectToSignal`. -/
def HasConnected (c : StreamConnection) : Prop := c.stage = .connected ∨ c.stage = .started

/-- The frames that were published from `start` on and before `stop`, of `n` that
were published at all. -/
def spell (start stop : Option Nat) (n : Nat) : List Nat :=
  match start with
  | none => []
  | some first => List.range' first (stop.getD n - first)

/-- **A viewer that follows a stream**, of which `n` frames were published.  It
connected to the signal when there were `start`, and was disconnected when there
were `stop`. -/
structure Follows (E : Nat → Option Bytes) (n : Nat) (start stop : Option Nat)
    (c : StreamConnection) : Prop where
  begun : start.isSome = true ↔ c.HasConnected
  connected : c.isConnected = true ↔ start.isSome = true ∧ stop = none
  /-- only a write that fails disconnects it -/
  failed : stop.isSome = true → start.isSome = true ∧ c.hasFailed = true
  inOrder : ∀ first, start = some first → first ≤ stop.getD n ∧ stop.getD n ≤ n
  /-- it has been given what there was of the frames in between -/
  given : c.emitted.map (·.bytes) = (spell start stop n).filterMap E

/-- What a viewer does by itself. -/
structure Moves (a : Action) (c c' : StreamConnection) : Prop where
  emitted : c'.emitted = c.emitted
  failed : c.hasFailed = true → c'.hasFailed = true
  connects : a = .connectToSignal → ¬c.HasConnected ∧ c'.HasConnected ∧ c'.isConnected = true
  stays : a ≠ .connectToSignal → (c'.HasConnected ↔ c.HasConnected) ∧
    (c'.isConnected = true → c.isConnected = true)
  leaves : c.isConnected = true → c'.isConnected = true ∨ c'.hasFailed = true

variable {E : Nat → Option Bytes} {n : Nat} {start stop : Option Nat} {c c' : StreamConnection}
  {a : Action} {bytes : Bytes}

theorem moves_of_step (ha : ∀ bytes, a ≠ .imageReady bytes) (hs : c.step a = some c') :
    Moves a c c' := by
  cases stepTo_of_step hs with
  | imageReady bytes => exact absurd rfl (ha bytes)
  | sendInitialHeaders hst =>
    refine ⟨rfl, id, nofun, fun _ => ⟨iff_of_false ?_ ?_, id⟩, .inl⟩
    · exact fun h => by rcases h with h | h <;> cases h
    · rw [HasConnected, hst]
      decide
  | returnHeaders hst =>
    refine ⟨rfl, id, nofun, fun _ => ⟨iff_of_false ?_ ?_, id⟩, .inl⟩
    · exact fun h => by rcases h with h | h <;> cases h
    · rw [HasConnected, hst]
      decide
  | connectToSignal hst =>
    refine ⟨rfl, id, fun _ => ⟨?_, .inl rfl, rfl⟩, fun hne => absurd rfl hne, fun _ => .inl rfl⟩
    rw [HasConnected, hst]
    decide
  | storeConnection hst =>
    exact ⟨rfl, id, nofun, fun _ => ⟨iff_of_true (.inr rfl) (.inl hst), id⟩, .inl⟩
  | completeWrite => exact ⟨rfl, id, nofun, fun _ => ⟨Iff.rfl, id⟩, .inl⟩
  | @runHandler hd hq hstrand =>
    have hfrozen := frozen_pop_run c hd
    refine ⟨hfrozen.emitted, fun hf => ?_, nofun, fun _ => ⟨?_, fun h => ?_⟩, fun h => ?_⟩
    · rcases run_keeps c.pop hd with ⟨-, hsame⟩ | hf'
      · exact hsame.trans hf
      · exact hf'
    · rw [HasConnected, HasConnected, hfrozen.stage]
    · rcases isConnected_run c.pop hd with hsame | ⟨-, hoff⟩
      · exact hsame.symm.trans h
      · exact absurd (hoff.symm.trans h) Bool.false_ne_true
    · rcases run_keeps c.pop hd with ⟨hsame, -⟩ | hf
      · exact .inl (hsame.trans h)
      · exact .inr hf

theorem spell_succ {first : Nat} (hle : first ≤ n) :
    spell (some first) none (n + 1) = spell (some first) none n ++ [n] := by
  show List.range' first (n + 1 - first) = List.range' first (n - first) ++ [n]
  rw [Nat.succ_sub hle, List.range'_concat, Nat.one_mul, Nat.add_sub_cancel' hle]

theorem spell_succ_of_not (h : ¬(start.isSome = true ∧ stop = none)) :
    spell start stop (n + 1) = spell start stop n := by
  cases start with
  | none => rfl
  | some first =>
    cases stop with
    | none => exact absurd ⟨rfl, rfl⟩ h
    | some last => rfl

theorem follows_start : Follows E n none none {} where
  begun := iff_of_false Bool.false_ne_true fun h => by rcases h with h | h <;> cases h
  connected := iff_of_false Bool.false_ne_true fun h => Bool.false_ne_true h.1
  failed := nofun
  inOrder := nofun
  given := rfl

theorem emitted_imageReady (h : c.isConnected = true) :
    (c.imageReady bytes).emitted.map (·.bytes) = c.emitted.map (·.bytes) ++ [bytes] := by
  rw [imageReady, if_pos h]
  exact List.map_append

theorem imageReady_of_not_isConnected (h : ¬c.isConnected = true) : c.imageReady bytes = c :=
  if_neg h

/-- **A step of the viewer**, which may connect it or disconnect it. -/
theorem Follows.step (h : Follows E n start stop c) (hm : Moves a c c') :
    Follows E n (if a = .connectToSignal then some n else start)
      (if c.isConnected && !c'.isConnected then some n else stop) c' := by
  by_cases ha : a = .connectToSignal
  · -- it connects once
    obtain ⟨hnot, hhas, hon⟩ := hm.connects ha
    have hstart : start = none := by
      rw [← Option.not_isSome_iff_eq_none, h.begun]
      exact hnot
    subst hstart
    have hstop : stop = none := by
      rw [← Option.not_isSome_iff_eq_none]
      exact fun hsome => Bool.false_ne_true (h.failed hsome).1
    subst hstop
    rw [if_pos ha, hon, Bool.not_true, Bool.and_false, if_neg Bool.false_ne_true]
    refine ⟨iff_of_true rfl hhas, iff_of_true hon ⟨rfl, rfl⟩,
      fun hs => absurd hs Bool.false_ne_true, fun first hfirst => ?_, ?_⟩
    · obtain rfl := Option.some.inj hfirst
      exact ⟨Nat.le_refl n, Nat.le_refl n⟩
    · rw [hm.emitted, h.given, spell, spell, Option.getD_none, Nat.sub_self]
      rfl
  · obtain ⟨hhas, hback⟩ := hm.stays ha
    rw [if_neg ha]
    by_cases hleft : (c.isConnected && !c'.isConnected) = true
    · obtain ⟨hc, hc'⟩ := Bool.and_eq_true_iff.mp hleft
      obtain ⟨hstart, rfl⟩ := h.connected.mp hc
      have hoff : ¬c'.isConnected = true := by simpa using hc'
      rw [if_pos hleft]
      refine ⟨h.begun.trans hhas.symm, iff_of_false hoff fun hn => Option.some_ne_none n hn.2,
        fun _ => ?_, fun first hfirst => ⟨(h.inOrder first hfirst).1, Nat.le_refl n⟩, ?_⟩
      · exact ⟨hstart, (hm.leaves hc).resolve_left hoff⟩
      · rw [hm.emitted, h.given]
        rfl
    · rw [if_neg hleft]
      have hsame : c'.isConnected = c.isConnected := by
        rw [Bool.eq_iff_iff]
        refine ⟨hback, fun hc => ?_⟩
        by_contra hoff
        exact hleft (by rw [hc, Bool.eq_false_iff.mpr hoff]; rfl)
      exact ⟨h.begun.trans hhas.symm, hsame ▸ h.connected,
        fun hs => (h.failed hs).imp_right hm.failed, h.inOrder, hm.emitted ▸ h.given⟩

/-- A round in which the frame has no image, or nobody is there to be given it. -/
theorem Follows.skip (h : Follows E n start stop c) (hE : E n = none ∨ ¬c.isConnected = true) :
    Follows E (n + 1) start stop c := by
  refine ⟨h.begun, h.connected, h.failed, fun first hfirst => ?_, ?_⟩
  · have hle := h.inOrder first hfirst
    cases stop with
    | none => exact ⟨Nat.le_succ_of_le hle.1, Nat.le_refl _⟩
    | some last => exact ⟨hle.1, Nat.le_succ_of_le hle.2⟩
  · by_cases hon : start.isSome = true ∧ stop = none
    · have hnone := hE.resolve_right fun hoff => hoff (h.connected.mpr hon)
      obtain ⟨hstart, rfl⟩ := hon
      obtain ⟨first, rfl⟩ := Option.isSome_iff_exists.mp hstart
      have hle : first ≤ n := (h.inOrder first rfl).1
      rw [h.given, spell_succ hle, List.filterMap_append]
      simp [hnone]
    · rw [h.given, spell_succ_of_not hon]

/-- A round of emissions: one image for those who are connected. -/
theorem Follows.emit (h : Follows E n start stop c) (hE : E n = some bytes) :
    Follows E (n + 1) start stop (c.imageReady bytes) := by
  by_cases hc : c.isConnected = true
  · obtain ⟨hstart, rfl⟩ := h.connected.mp hc
    obtain ⟨first, rfl⟩ := Option.isSome_iff_exists.mp hstart
    have hle : first ≤ n := (h.inOrder first rfl).1
    have hkeeps : (c.imageReady bytes).stage = c.stage ∧
        (c.imageReady bytes).isConnected = c.isConnected := by
      rw [imageReady, if_pos hc]
      exact ⟨rfl, rfl⟩
    refine ⟨?_, ?_, fun hs => absurd hs Bool.false_ne_true, fun first' hfirst => ?_, ?_⟩
    · rw [HasConnected, hkeeps.1]
      exact h.begun
    · rw [hkeeps.2]
      exact h.connected
    · obtain rfl := Option.some.inj hfirst
      exact ⟨Nat.le_succ_of_le hle, Nat.le_refl _⟩
    · rw [emitted_imageReady hc, h.given, spell_succ hle, List.filterMap_append]
      simp [hE]
  · rw [imageReady_of_not_isConnected hc]
    exact h.skip (.inr hc)

/-- What is written is the headers, and the beginning of what was emitted. -/
theorem Live.log (h : Live c) : ∃ written, written <+: c.emitted ∧
    c.log = if c.stage = .registered then [] else headerBuffers :: written.map frameBuffers := by
  rcases h with rfl | ⟨hst, written, rest, adds, hp, _⟩
  · exact ⟨[], List.nil_prefix, rfl⟩
  · refine ⟨written, ?_, ?_⟩
    · rw [hp.emitted, List.append_assoc, List.append_assoc]
      exact List.prefix_append _ _
    · rw [if_neg hst]
      exact hp.log

end Http.StreamConnection

/-! ### The images of a stream -/

/-- The regions that are found in frame `i`. -/
def regionsAt (v : Vision P C Bytes) (frames : Nat → P × String) (i : Nat) : List Rect :=
  ((searched (J := Bytes) v frames i).map (·.regionsOfInterest)).getD []

/-- The image of frame `i` for a stream, if it has one. -/
def imageOf (v : Vision P C Bytes) (frames : Nat → P × String) (e : Surroundings)
    (displayName name : String) (i : Nat) : Option Bytes :=
  if hasImage i name then some (shown v frames e displayName i (regionsAt v frames i) name)
  else none

namespace Watched

variable {v : Vision P C Bytes} {frames : Nat → P × String} {e : Surroundings}
  {displayName name : String} {cap : VideoCapture S P} {c : Camera S} {s s' : Watched P}

/-- **The emission of frame `i`** is its image, if anybody is there. -/
theorem emission_eq (hv : v.Lawful) (hframes : ∀ i, v.isEmpty (frames i).1 = false)
    (hname : name ∈ ScenePublisher.streams) {f : Picture P Bytes}
    (hf : searched v frames s.published = some f) :
    s.emission v e displayName name f =
      if s.viewers.any (·.isConnected) then
        (imageOf v frames e displayName name s.published).map (name, ·)
      else none := by
  obtain ⟨rects, hsearched, _⟩ := searched_eq (J := Bytes) frames hv s.published
  obtain rfl := Option.some.inj (hf.symm.trans hsearched)
  have hrects : regionsAt v frames s.published = rects := by
    rw [regionsAt, hsearched]
    rfl
  have hjpg : (ScenePublisher.title displayName (e.stats s.published)
      (marksOf v frames s.published rects)).getImageAsJpg v name = _ :=
    getImageAsJpg_titled hv hframes s.published rects hname
  rw [emission, ScenePublisher.publish, hjpg, imageOf, hrects]
  cases hasImage s.published name <;> rfl

/-- What every run of a scene with viewers keeps. -/
structure Watching (v : Vision P C Bytes) (frames : Nat → P × String) (e : Surroundings)
    (displayName name : String) (cap : VideoCapture S P) (c : Camera S) (s : Watched P) : Prop where
  wired : Pipeline.Wired [.imageSource, .movementDetector, .roiDetector, .scenePublisher] true
    s.pipeline
  flow : Pipeline.Flow s.pipeline
  answers : Pipeline.Answers (sceneStages v e displayName cap c) s.pipeline
  started : s.published ≤ (s.pipeline.inputsAt 3).length
  completed : (s.pipeline.outputsAt 3).length ≤ s.published
  viewers : ∀ (i : Nat) (c : StreamConnection), s.viewers[i]? = some c → c.Live ∧
    c.Follows (imageOf v frames e displayName name) s.published (s.connectedAt i)
      (s.disconnectedAt i)
  /-- of those to come there is no history -/
  fresh : ∀ i, s.viewers.length ≤ i → s.connectedAt i = none ∧ s.disconnectedAt i = none

theorem Watching.input (h : Watching v frames e displayName name cap c s)
    (hcamera : c.Delivers cap frames) (hframes : ∀ i, v.isEmpty (frames i).1 = false) {i : Nat}
    {x : Option (Picture P Bytes)} (hx : (s.pipeline.inputsAt 3)[i]? = some x) :
    x = searched v frames i := by
  have hin := h.answers.inputs_cascade h.flow h.wired rfl (Nat.lt_succ_self 3)
  rw [cascade_searched hcamera hframes] at hin
  obtain ⟨hi, hget⟩ := List.getElem?_eq_some_iff.mp hx
  have hx' := hget.symm.trans (hin.getElem hi)
  rw [List.getElem_map, List.getElem_range] at hx'
  exact hx'

theorem Watching.pipeline (h : Watching v frames e displayName name cap c s)
    {a : Pipeline.Action (Picture P Bytes)}
    (hok : Pipeline.WorksAs (sceneStages v e displayName cap c) s.pipeline a)
    (hs : s.step v e displayName name (.pipeline a) = some s') :
    Watching v frames e displayName name cap c s' := by
  obtain ⟨hguard, hs⟩ := Option.ite_none_right_eq_some.mp hs
  obtain ⟨p, hp, rfl⟩ := Option.map_eq_some_iff.mp hs
  have hw := h.wired.step a hp
  have hf := h.flow.step h.wired a hp
  obtain ⟨hin, hout⟩ := Pipeline.inputsAt_outputsAt_step hp 3
  refine ⟨hw, hf, h.answers.step h.flow h.wired rfl hok hp, h.started.trans hin.length_le, ?_,
    h.viewers, h.fresh⟩
  rcases hout with hout | ⟨hsame, data, t, rfl⟩
  · show (p.outputsAt 3).length ≤ s.published
    rw [hout]
    exact h.completed
  · -- the frame that is completed was published
    have hle := (hf.length_inputsAt hw (Nat.lt_succ_self 3)).1
    rw [hsame] at hle
    exact hle.trans (hguard rfl).ge

theorem Watching.publish (h : Watching v frames e displayName name cap c s) (hv : v.Lawful)
    (hcamera : c.Delivers cap frames) (hframes : ∀ i, v.isEmpty (frames i).1 = false)
    (hname : name ∈ ScenePublisher.streams)
    (hs : s.step v e displayName name .publish = some s') :
    Watching v frames e displayName name cap c s' := by
  obtain ⟨x, hx, hs⟩ := Option.bind_eq_some_iff.mp hs
  obtain ⟨f, rfl, hs⟩ := Option.bind_eq_some_iff.mp hs
  obtain rfl := Option.some.inj hs
  have hf := h.input hcamera hframes hx
  have hlt := (List.getElem?_eq_some_iff.mp hx).1
  have hskip : imageOf v frames e displayName name s.published = none ∨
      s.viewers.any (·.isConnected) = false →
      Watching v frames e displayName name cap c { s with published := s.published + 1 } := by
    intro hE
    refine ⟨h.wired, h.flow, h.answers, hlt, h.completed.trans (Nat.le_succ _), fun i c hi => ?_,
      h.fresh⟩
    obtain ⟨hlive, hfollows⟩ := h.viewers i c hi
    exact ⟨hlive, hfollows.skip
      (hE.imp_right fun hany => List.any_eq_false.mp hany c (List.mem_of_getElem? hi))⟩
  rw [emission_eq hv hframes hname hf.symm]
  cases hany : s.viewers.any (·.isConnected) with
  | false => exact hskip (.inr hany)
  | true =>
    rw [if_pos rfl]
    cases himage : imageOf v frames e displayName name s.published with
    | none => exact hskip (.inl himage)
    | some jpg =>
      refine ⟨h.wired, h.flow, h.answers, hlt, h.completed.trans (Nat.le_succ _), fun i c hi => ?_,
        fun i hi => h.fresh i (Nat.le_trans (List.length_map _).ge hi)⟩
      have hi' : (s.viewers.map (·.imageReady jpg))[i]? = some c := hi
      rw [List.getElem?_map] at hi'
      obtain ⟨c₀, hc₀, rfl⟩ := Option.map_eq_some_iff.mp hi'
      obtain ⟨hlive, hfollows⟩ := h.viewers i c₀ hc₀
      exact ⟨hlive.step (a := .imageReady jpg) rfl, hfollows.emit himage⟩

section

variable {i j : Nat} {a : StreamConnection.Action} {c c' : StreamConnection}

theorem connectedAt_moveViewer : (s.moveViewer i a c c').connectedAt i =
    if a = .connectToSignal then some s.published else s.connectedAt i := by
  unfold moveViewer
  split_ifs <;> simp

theorem disconnectedAt_moveViewer : (s.moveViewer i a c c').disconnectedAt i =
    if c.isConnected && !c'.isConnected then some s.published else s.disconnectedAt i := by
  unfold moveViewer
  split_ifs <;> simp

theorem connectedAt_moveViewer_of_ne (h : i ≠ j) :
    (s.moveViewer i a c c').connectedAt j = s.connectedAt j := by
  rw [moveViewer]
  dsimp only
  split_ifs
  · exact Function.update_of_ne h.symm _ _
  · rfl

theorem disconnectedAt_moveViewer_of_ne (h : i ≠ j) :
    (s.moveViewer i a c c').disconnectedAt j = s.disconnectedAt j := by
  rw [moveViewer]
  dsimp only
  split_ifs
  · exact Function.update_of_ne h.symm _ _
  · rfl

end

theorem step_viewer {i : Nat} {a : StreamConnection.Action}
    (hs : s.step v e displayName name (.viewer i a) = some s') :
    (∀ bytes, a ≠ .imageReady bytes) ∧ ∃ c c', s.viewers[i]? = some c ∧ c.step a = some c' ∧
      s' = s.moveViewer i a c c' := by
  cases a with
  | imageReady bytes => cases hs
  | sendInitialHeaders | returnHeaders | connectToSignal | storeConnection | completeWrite
  | runHandler =>
    refine ⟨fun bytes h => StreamConnection.Action.noConfusion h, ?_⟩
    obtain ⟨c, hc, hs⟩ := Option.bind_eq_some_iff.mp hs
    obtain ⟨c', hc', hs⟩ := Option.bind_eq_some_iff.mp hs
    exact ⟨c, c', hc, hc', (Option.some.inj hs).symm⟩

theorem Watching.viewer (h : Watching v frames e displayName name cap c s) {i : Nat}
    {a : StreamConnection.Action}
    (hs : s.step v e displayName name (.viewer i a) = some s') :
    Watching v frames e displayName name cap c s' := by
  obtain ⟨ha, c₀, c', hc₀, hc', rfl⟩ := step_viewer hs
  obtain ⟨hlive, hfollows⟩ := h.viewers i c₀ hc₀
  have hlt : i < s.viewers.length := (List.getElem?_eq_some_iff.mp hc₀).1
  refine ⟨h.wired, h.flow, h.answers, h.started, h.completed, fun j c hj => ?_, fun j hj => ?_⟩
  · have hj' : (s.viewers.set i c')[j]? = some c := hj
    by_cases hij : i = j
    · subst hij
      rw [List.getElem?_set_self hlt] at hj'
      obtain rfl := Option.some.inj hj'
      rw [connectedAt_moveViewer, disconnectedAt_moveViewer]
      exact ⟨hlive.step hc', hfollows.step (StreamConnection.moves_of_step ha hc')⟩
    · rw [List.getElem?_set_ne hij] at hj'
      rw [connectedAt_moveViewer_of_ne hij, disconnectedAt_moveViewer_of_ne hij]
      exact h.viewers j c hj'
  · have hj' : s.viewers.length ≤ j := Nat.le_trans List.length_set.ge hj
    have hij : i ≠ j := (Nat.lt_of_lt_of_le hlt hj').ne
    rw [connectedAt_moveViewer_of_ne hij, disconnectedAt_moveViewer_of_ne hij]
    exact h.fresh j hj'

theorem Watching.join (h : Watching v frames e displayName name cap c s) :
    Watching v frames e displayName name cap c { s with viewers := s.viewers ++ [{}] } := by
  refine ⟨h.wired, h.flow, h.answers, h.started, h.completed, fun i c hi => ?_, fun i hi => ?_⟩
  · have hi' : (s.viewers ++ [({} : StreamConnection)])[i]? = some c := hi
    rcases Nat.lt_or_ge i s.viewers.length with hlt | hge
    · rw [List.getElem?_append_left hlt] at hi'
      exact h.viewers i c hi'
    · rw [List.getElem?_append_right hge] at hi'
      obtain rfl := List.mem_singleton.mp (List.mem_of_getElem? hi')
      obtain ⟨hstart, hstop⟩ := h.fresh i hge
      exact ⟨.inl rfl, by rw [hstart, hstop]; exact StreamConnection.follows_start⟩
  · exact h.fresh i (Nat.le_trans (Nat.le.intro List.length_append.symm) hi)

theorem Watching.step (h : Watching v frames e displayName name cap c s) (hv : v.Lawful)
    (hcamera : c.Delivers cap frames) (hframes : ∀ i, v.isEmpty (frames i).1 = false)
    (hname : name ∈ ScenePublisher.streams) {a : Action P}
    (hok : Works v e displayName name cap c s a) (hs : s.step v e displayName name a = some s') :
    Watching v frames e displayName name cap c s' := by
  cases a with
  | pipeline a => exact h.pipeline hok hs
  | publish => exact h.publish hv hcamera hframes hname hs
  | join => exact Option.some.inj hs ▸ h.join
  | viewer i a => exact h.viewer hs

/-- What a run comes to, for the viewers. -/
structure Followed (v : Vision P C Bytes) (frames : Nat → P × String) (e : Surroundings)
    (displayName name : String) (s : Watched P) : Prop where
  /-- every frame that is done was published, and in its turn -/
  completed : (s.pipeline.outputsAt 3).length ≤ s.published
  started : s.published ≤ (s.pipeline.inputsAt 3).length
  /-- a viewer was given the images of the frames published while it was connected -/
  follows : ∀ (i : Nat) (c : StreamConnection), s.viewers[i]? = some c →
    c.Follows (imageOf v frames e displayName name) s.published (s.connectedAt i)
      (s.disconnectedAt i)
  /-- and was written the headers and the first of these -/
  written : ∀ c ∈ s.viewers, ∃ written, written <+: c.emitted ∧ c.log =
    if c.stage = .registered then []
    else StreamConnection.headerBuffers :: written.map StreamConnection.frameBuffers

theorem watching_start {F : Type} {rates : Rates F} {sceneName : String} {fps : Int} {factor : F}
    {now : Nat} {t : TimePoint} {sc : Scene (Picture P Bytes)}
    (h : Scene.construct rates sceneName (.ok fps) factor now t = .ok sc) :
    Watching v frames e displayName name cap c { pipeline := sc.pipeline } := by
  have hl := launched_of_construct h
  refine ⟨hl.wired, hl.flow, hl.answers, Nat.zero_le _, ?_, nofun, fun _ _ => ⟨rfl, rfl⟩⟩
  rw [Pipeline.State.outputsAt, Pipeline.State.completedAt, Pipeline.State.timedAt, hl.log]
  exact Nat.le_refl 0

/-- **From the camera to the viewers.**  In every run of a scene and of the
viewers of one of its streams, whatever the interleaving of the pipeline, the
emissions and the viewers: each viewer was given the images of exactly those
frames of the camera that were published from the moment it connected to the
signal on, none left out and none twice, up to the one at which it was
disconnected, because a write has failed, or to the last. -/
theorem viewers_follow {F : Type} {rates : Rates F} {sceneName : String} {fps : Int} {factor : F}
    {now : Nat} {t : TimePoint} {sc : Scene (Picture P Bytes)}
    (h : Scene.construct rates sceneName (.ok fps) factor now t = .ok sc) (hv : v.Lawful)
    (hcamera : c.Delivers cap frames) (hframes : ∀ i, v.isEmpty (frames i).1 = false)
    (hname : name ∈ ScenePublisher.streams) {as : List (Action P)}
    (hrun : Steps (step v e displayName name) (Works v e displayName name cap c)
      { pipeline := sc.pipeline } as s) :
    Followed v frames e displayName name s := by
  have hw : Watching v frames e displayName name cap c s :=
    hrun.invariant (fun s a s' hw hok hs => hw.step hv hcamera hframes hname hok hs)
      (watching_start h)
  refine ⟨hw.completed, hw.started, fun i c hi => (hw.viewers i c hi).2, fun c hc => ?_⟩
  obtain ⟨i, hi⟩ := List.getElem?_of_mem hc
  exact (hw.viewers i c hi).1.log

instance [DecidableEq P] : ∀ (s : Watched P) (a : Action P),
    Decidable (Works v e displayName name cap c s a)
  | s, .pipeline a =>
    inferInstanceAs (Decidable (Pipeline.WorksAs (sceneStages v e displayName cap c) s.pipeline a))
  | s, .publish =>
    inferInstanceAs (Decidable (e.viewers s.published name = s.viewers.any (·.isConnected)))
  | _, .join | _, .viewer _ _ => .isTrue trivial

/-- Somebody is there for the second frame. -/
def latecomer : Surroundings where
  viewers i _ := i = 1
  stats _ := ""

/-- A frame, with the emission for the stream. -/
def watchedFrame (i : Nat) : List (Action (Option Nat)) :=
  ((frameRun latecomer i).take 14).map .pipeline ++
    .publish :: ((frameRun latecomer i).drop 14).map .pipeline

/-- A viewer connects after the first frame, and cannot be written to after the
second. -/
def latecomerRun : List (Action (Option Nat)) :=
  watchedFrame 0 ++
    [.join, .viewer 0 .sendInitialHeaders, .viewer 0 .returnHeaders, .viewer 0 .connectToSignal,
      .viewer 0 .storeConnection] ++
    watchedFrame 1 ++
    [.viewer 0 (.completeWrite 0 true), .viewer 0 .runHandler, .viewer 0 .runHandler] ++
    watchedFrame 2

theorem viewers_follow_latecomer :
    ∃ sc, Scene.construct ⟨fun _ (_ : Unit) => 40, fun _ _ => 40⟩ "Yard" (.ok 25) () 0 0 =
        .ok sc ∧
      ∃ s, exec (permit (step Vision.numbers latecomer "Yard" "main") (Works Vision.numbers
          latecomer "Yard" "main" (.file [some 3, some 8]) (.onFile "yard.avi" 1)))
          { pipeline := sc.pipeline } latecomerRun = some s ∧
        s.viewers.map (fun c => c.emitted.map (·.bytes)) = [[[3]]] ∧
        (s.connectedAt 0, s.disconnectedAt 0, s.published) = (some 1, some 2, 3) ∧
        Followed Vision.numbers twoImages latecomer "Yard" "main" s := by
  have hcheck : ((Scene.construct ⟨fun _ (_ : Unit) => 40, fun _ _ => 40⟩ "Yard" (.ok 25) ()
      0 0).toOption.bind fun sc =>
        (exec (permit (step Vision.numbers latecomer "Yard" "main") (Works Vision.numbers
          latecomer "Yard" "main" (.file [some 3, some 8]) (.onFile "yard.avi" 1)))
          { pipeline := sc.pipeline } latecomerRun).map fun s =>
              (s.viewers.map fun c => c.emitted.map (·.bytes), s.connectedAt 0, s.disconnectedAt 0,
                s.published)) = some ([[[3]]], some 1, some 2, 3) := by decide +kernel
  obtain ⟨sc, hsc, hrun⟩ := Option.bind_eq_some_iff.mp hcheck
  obtain ⟨s, hs, hgiven⟩ := Option.map_eq_some_iff.mp hrun
  obtain ⟨hgiven, hmoments⟩ := Prod.mk.inj hgiven
  have hok := construct_of_toOption hsc
  exact ⟨sc, hok, s, hs, hgiven, hmoments, viewers_follow hok Vision.numbers_lawful
    delivers_twoImages twoImages_full (by decide) (steps_iff_exec_permit.mpr hs)⟩

end Watched

end SecMon
