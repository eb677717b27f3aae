import SecMon.Broadcast
import SecMon.Core.Parts
import SecMon.Gui.Delivery
import SecMon.Pipeline.Liveness

/-!
# A scene and its viewers, side by side

In a run of the whole that `Broadcast` describes, the pipeline and each of the
viewers make their own steps and rest in the others (`pipeline_step`,
`viewer_step`): each is a part in the sense of `Core.Parts`, and what is known of
it by itself is true of it here.

The runs have no end.  They are fair to the elements of the pipeline and to its
timer, and to the strand and the socket of every viewer; time passes, and nobody
calls `pause`.  `comes_to`: the publisher comes to every frame.
-/

namespace SecMon

open Machine Http

variable {P C S : Type}

namespace Http.StreamConnection

variable {E : Nat → Option Bytes} {first j n : Nat} {c c' : StreamConnection} {a : Action}
  {bytes : Bytes} {image : Image} {l : List Image}

/-- **It has been shown the frames from `first` to `j`**: of the writes to it that
have ended, the first is that of the headers, and those of the images of these
frames come next, in their order. -/
def Shown (E : Nat → Option Bytes) (first j : Nat) (c : StreamConnection) : Prop :=
  ∃ written : List Image, c.log = headerBuffers :: (written.map frameBuffers ++ c.outstanding) ∧
    (List.range' first (j + 1 - first)).filterMap E <+: written.map (·.bytes)

/-- As long as it is connected it has been given the images of all frames. -/
theorem Follows.all {stop : Option Nat} (h : Follows E n (some first) stop c)
    (hc : c.isConnected = true) :
    first ≤ n ∧ c.emitted.map (·.bytes) = (List.range' first (n - first)).filterMap E := by
  obtain ⟨-, rfl⟩ := h.connected.mp hc
  exact ⟨(h.inOrder first rfl).1, h.given⟩

theorem connected_step (hs : c.step a = some c') (hc : c.isConnected = true) :
    c'.isConnected = true ∨ c'.hasFailed = true := by
  by_cases ha : ∃ bytes, a = .imageReady bytes
  · obtain ⟨bytes, rfl⟩ := ha
    obtain rfl := Option.some.inj hs
    rw [imageReady, if_pos hc]
    exact .inl hc
  · exact (moves_of_step (fun bytes hb => ha ⟨bytes, hb⟩) hs).leaves hc

theorem emitted_step (hs : c.step a = some c') : c.emitted <+: c'.emitted := by
  by_cases ha : ∃ bytes, a = .imageReady bytes
  · obtain ⟨bytes, rfl⟩ := ha
    obtain rfl := Option.some.inj hs
    rw [imageReady]
    split
    · exact List.prefix_append _ _
    · exact List.prefix_refl _
  · rw [(moves_of_step (fun bytes hb => ha ⟨bytes, hb⟩) hs).emitted]

/-- What was emitted before an image that is written was written before it. -/
theorem prefix_of_mem {written : List Image} (hd : Delivering c)
    (hl : l ++ [image] <+: c.emitted) (hw : written <+: c.emitted) (hmem : image ∈ written) :
    l ++ [image] <+: written := by
  rcases List.prefix_or_prefix_of_prefix hl hw with h | h
  · exact h
  rcases List.prefix_concat_iff.mp h with rfl | h
  · exact List.prefix_refl _
  · -- the image is not emitted twice
    have hnodup := hd.nodup.sublist hl.sublist
    have hdisjoint := (List.nodup_append.mp hnodup).2.2 image (h.subset hmem) image
      (List.mem_singleton_self image)
    exact absurd rfl hdisjoint

/-- **Once the write of an image has ended**, so have those of all before it. -/
theorem shown_of_ended (hd : Delivering c) (hl : l ++ [image] <+: c.emitted)
    (hmap : (l ++ [image]).map (·.bytes) = (List.range' first (j + 1 - first)).filterMap E)
    (hlog : frameBuffers image ∈ c.log) (hout : frameBuffers image ∉ c.outstanding) :
    Shown E first j c := by
  have hcut : ∀ written : List Image, written <+: c.emitted → image ∈ written →
      (List.range' first (j + 1 - first)).filterMap E <+: written.map (·.bytes) := by
    intro written hw hmem
    rw [← hmap]
    exact (prefix_of_mem hd hl hw hmem).map _
  rcases hd.live with rfl | ⟨-, written, rest, adds, hp, hb⟩
  · exact absurd hlog List.not_mem_nil
  have hw : written <+: c.emitted := by
    rw [hp.emitted, List.append_assoc, List.append_assoc]
    exact List.prefix_append _ _
  have hmem : image ∈ written := by
    rw [hp.log] at hlog
    rcases List.mem_cons.mp hlog with heq | hmem
    · exact absurd heq.symm (headerBuffers_ne_frameBuffers image)
    · obtain ⟨image', hmem, heq⟩ := List.mem_map.mp hmem
      exact frameBuffers_injective heq ▸ hmem
  rcases hb with hb | ⟨hi, -⟩
  · -- the last write is still going on
    obtain rfl | ⟨ended, last, rfl⟩ := List.eq_nil_or_concat written
    · exact absurd hmem List.not_mem_nil
    rw [List.concat_eq_append] at hp hb hw hmem
    have hlast : c.outstanding = [frameBuffers last] := by
      rw [hb.outstanding, lastWrite_concat]
    have hne : image ≠ last := by
      rintro rfl
      rw [hlast] at hout
      exact hout (List.mem_singleton_self _)
    have hmem' : image ∈ ended := by
      rcases List.mem_append.mp hmem with hmem | hmem
      · exact hmem
      · exact absurd (List.mem_singleton.mp hmem) hne
    refine ⟨ended, ?_, hcut ended ((List.prefix_append _ _).trans hw) hmem'⟩
    rw [hp.log, hlast, List.map_append]
    rfl
  · refine ⟨written, ?_, hcut written hw hmem⟩
    rw [hp.log, hi.outstanding, List.append_nil]

end Http.StreamConnection

namespace Watched

/-! ### What a step does to a viewer -/

section

variable (v : Vision P C Bytes) (e : Surroundings) (displayName name : String)

/-- The image of the frame that is published next, if anybody is given one. -/
def emits (s : Watched P) : Option Bytes := do
  let f ← (s.pipeline.inputsAt 3)[s.published]?
  let f ← f
  (s.emission v e displayName name f).map (·.2)

/-- What viewer `i` does in a step of the whole. -/
def viewerDoes (i : Nat) (s : Watched P) : Action P → Option StreamConnection.Action
  | .viewer k a => if k = i then some a else none
  | .publish => (s.emits v e displayName name).map .imageReady
  | _ => none

end

/-- What the pipeline does. -/
def pipelineDoes : Action P → Option (Pipeline.Action (Picture P Bytes))
  | .pipeline a => some a
  | _ => none

variable {v : Vision P C Bytes} {frames : Nat → P × String} {e : Surroundings}
  {displayName name : String} {cap : VideoCapture S P} {c : Camera S} {s s' : Watched P}
  {a : Action P} {i : Nat}

theorem published_step (hs : s.step v e displayName name a = some s') :
    (a = .publish ∧ s'.published = s.published + 1) ∨
      (a ≠ .publish ∧ s'.published = s.published) := by
  cases a with
  | pipeline a =>
    obtain ⟨-, hs⟩ := Option.ite_none_right_eq_some.mp hs
    obtain ⟨p, -, rfl⟩ := Option.map_eq_some_iff.mp hs
    exact .inr ⟨nofun, rfl⟩
  | publish =>
    obtain ⟨x, -, hs⟩ := Option.bind_eq_some_iff.mp hs
    obtain ⟨f, -, hs⟩ := Option.bind_eq_some_iff.mp hs
    obtain rfl := Option.some.inj hs
    exact .inl ⟨rfl, rfl⟩
  | join =>
    obtain rfl := Option.some.inj hs
    exact .inr ⟨nofun, rfl⟩
  | viewer k a =>
    obtain ⟨-, c, c', -, -, rfl⟩ := step_viewer hs
    exact .inr ⟨nofun, rfl⟩

/-- **A viewer makes its own steps, and rests in the others.** -/
theorem viewer_step (hs : s.step v e displayName name a = some s') {c : StreamConnection}
    (hi : s.viewers[i]? = some c) :
    ∃ c', s'.viewers[i]? = some c' ∧
      (∀ b, viewerDoes v e displayName name i s a = some b → c.step b = some c') ∧
      (viewerDoes v e displayName name i s a = none → c' = c) := by
  cases a with
  | pipeline a =>
    obtain ⟨-, hs⟩ := Option.ite_none_right_eq_some.mp hs
    obtain ⟨p, -, rfl⟩ := Option.map_eq_some_iff.mp hs
    exact ⟨c, hi, nofun, fun _ => rfl⟩
  | publish =>
    obtain ⟨x, hx, hs⟩ := Option.bind_eq_some_iff.mp hs
    obtain ⟨f, rfl, hs⟩ := Option.bind_eq_some_iff.mp hs
    obtain rfl := Option.some.inj hs
    have hemits : s.emits v e displayName name =
        (s.emission v e displayName name f).map (·.2) := by
      rw [emits, hx]
      rfl
    rw [viewerDoes, hemits]
    cases s.emission v e displayName name f with
    | none => exact ⟨c, hi, nofun, fun _ => rfl⟩
    | some jpg =>
      refine ⟨c.imageReady jpg.2, ?_, ?_, nofun⟩
      · show (s.viewers.map (·.imageReady jpg.2))[i]? = _
        rw [List.getElem?_map, hi]
        rfl
      · rintro b hb
        obtain rfl := Option.some.inj hb
        rfl
  | join =>
    obtain rfl := Option.some.inj hs
    refine ⟨c, ?_, nofun, fun _ => rfl⟩
    show (s.viewers ++ [({} : StreamConnection)])[i]? = some c
    rw [List.getElem?_append_left (List.getElem?_eq_some_iff.mp hi).1]
    exact hi
  | viewer k a =>
    obtain ⟨-, c₀, c', hk, hstep, rfl⟩ := step_viewer hs
    show ∃ c'', (s.viewers.set k c')[i]? = some c'' ∧ _
    rw [viewerDoes]
    by_cases hki : k = i
    · subst hki
      obtain rfl := Option.some.inj (hk.symm.trans hi)
      refine ⟨c', ?_, ?_, ?_⟩
      · rw [List.getElem?_set_self (List.getElem?_eq_some_iff.mp hk).1]
      · rw [if_pos rfl]
        rintro b hb
        obtain rfl := Option.some.inj hb
        exact hstep
      · rw [if_pos rfl]
        exact nofun
    · rw [if_neg hki, List.getElem?_set_ne hki]
      exact ⟨c, hi, nofun, fun _ => rfl⟩

theorem viewers_step (hs : s.step v e displayName name a = some s') {c' : StreamConnection}
    (hi : s'.viewers[i]? = some c') : (∃ c, s.viewers[i]? = some c) ∨ c' = {} := by
  rcases Nat.lt_or_ge i s.viewers.length with hlt | hge
  · exact .inl ⟨_, List.getElem?_eq_getElem hlt⟩
  have hlen := (List.getElem?_eq_some_iff.mp hi).1
  cases a with
  | pipeline a =>
    obtain ⟨-, hs⟩ := Option.ite_none_right_eq_some.mp hs
    obtain ⟨p, -, rfl⟩ := Option.map_eq_some_iff.mp hs
    exact absurd hlen (Nat.not_lt_of_le hge)
  | publish =>
    obtain ⟨x, hx, hs⟩ := Option.bind_eq_some_iff.mp hs
    obtain ⟨f, rfl, hs⟩ := Option.bind_eq_some_iff.mp hs
    obtain rfl := Option.some.inj hs
    refine absurd hlen (Nat.not_lt_of_le (Nat.le_trans (Nat.le_of_eq ?_) hge))
    dsimp only
    split
    · exact List.length_map _
    · rfl
  | join =>
    obtain rfl := Option.some.inj hs
    rw [List.getElem?_append_right hge] at hi
    exact .inr (List.mem_singleton.mp (List.mem_of_getElem? hi))
  | viewer k a =>
    obtain ⟨-, c₀, c', -, -, rfl⟩ := step_viewer hs
    have hsame : (s.moveViewer k a c₀ c').viewers.length = s.viewers.length := List.length_set
    exact absurd (hsame ▸ hlen) (Nat.not_lt_of_le hge)

theorem Watching.emits_eq (h : Watching v frames e displayName name cap c s) (hv : v.Lawful)
    (hcamera : c.Delivers cap frames) (hframes : ∀ i, v.isEmpty (frames i).1 = false)
    (hname : name ∈ ScenePublisher.streams)
    (hs : s.step v e displayName name .publish = some s')
    (hany : s.viewers.any (·.isConnected) = true) :
    s.emits v e displayName name = imageOf v frames e displayName name s.published := by
  obtain ⟨x, hx, hs⟩ := Option.bind_eq_some_iff.mp hs
  obtain ⟨f, rfl, -⟩ := Option.bind_eq_some_iff.mp hs
  rw [emits, hx]
  show (s.emission v e displayName name f).map (·.2) = _
  rw [emission_eq hv hframes hname (h.input hcamera hframes hx).symm, if_pos hany]
  cases imageOf v frames e displayName name s.published <;> rfl

theorem any_isConnected {c : StreamConnection} (hi : s.viewers[i]? = some c)
    (hc : c.isConnected = true) : s.viewers.any (·.isConnected) = true :=
  List.any_eq_true.mpr ⟨c, List.mem_of_getElem? hi, hc⟩

theorem connectedAt_step (hs : s.step v e displayName name a = some s') {c : StreamConnection}
    (hi : s.viewers[i]? = some c) (hc : c.HasConnected) :
    s'.connectedAt i = s.connectedAt i := by
  cases a with
  | pipeline a =>
    obtain ⟨-, hs⟩ := Option.ite_none_right_eq_some.mp hs
    obtain ⟨p, -, rfl⟩ := Option.map_eq_some_iff.mp hs
    rfl
  | publish =>
    obtain ⟨x, -, hs⟩ := Option.bind_eq_some_iff.mp hs
    obtain ⟨f, -, hs⟩ := Option.bind_eq_some_iff.mp hs
    obtain rfl := Option.some.inj hs
    rfl
  | join =>
    obtain rfl := Option.some.inj hs
    rfl
  | viewer k b =>
    obtain ⟨hb, c₀, c', hk, hstep, rfl⟩ := step_viewer hs
    by_cases hki : k = i
    · subst hki
      obtain rfl := Option.some.inj (hk.symm.trans hi)
      rw [connectedAt_moveViewer, if_neg]
      exact fun hconnect => ((StreamConnection.moves_of_step hb hstep).connects hconnect).1 hc
    · exact connectedAt_moveViewer_of_ne hki

/-! ### Fair runs of the whole -/

/-- Who has to act for the images to come. -/
inductive Party
  | element (k : Nat)
  | timer
  | viewer (i : Nat) (p : StreamConnection.Party)

def Party.busy : Party → Watched P → Prop
  | .element k, s => s.pipeline.Busy k
  | .timer, s => ∃ w, s.pipeline.element 0 = some w ∧ w.due s.pipeline.now = true
  | .viewer i p, s => ∃ c, s.viewers[i]? = some c ∧ p.busy c

/-- The publisher acts when it publishes, too. -/
def Party.acts : Party → Action P → Prop
  | .element k, a => (∃ b, a = .pipeline b ∧ b.stage? = some k) ∨ k = 3 ∧ a = .publish
  | .timer, a => a = .pipeline (.expire 0)
  | .viewer i p, a => ∃ b, a = .viewer i b ∧ p.acts b

/-- The elements work as the scene's do, and nobody calls `pause`. -/
def Goes (v : Vision P C Bytes) (e : Surroundings) (displayName name : String)
    (cap : VideoCapture S P) (c : Camera S) (s : Watched P) (a : Action P) : Prop :=
  Works v e displayName name cap c s a ∧ ∀ b, a = .pipeline b → b ≠ .pauseCall

/-- What is known of every state of such a run. -/
structure Viewing (v : Vision P C Bytes) (frames : Nat → P × String) (e : Surroundings)
    (displayName name : String) (cap : VideoCapture S P) (c : Camera S) (s : Watched P) : Prop where
  watching : Watching v frames e displayName name cap c s
  unpaused : Pipeline.Unpaused [.imageSource, .movementDetector, .roiDetector, .scenePublisher] true
    s.pipeline
  delivering : ∀ (i : Nat) (c : StreamConnection), s.viewers[i]? = some c → c.Delivering

theorem pipeline_step (hs : s.step v e displayName name a = some s') :
    (∀ b, pipelineDoes a = some b → Pipeline.step s.pipeline b = some s'.pipeline) ∧
      (pipelineDoes a = none → s'.pipeline = s.pipeline) := by
  cases a with
  | pipeline a =>
    obtain ⟨-, hs⟩ := Option.ite_none_right_eq_some.mp hs
    obtain ⟨p, hp, rfl⟩ := Option.map_eq_some_iff.mp hs
    refine ⟨fun b hb => ?_, nofun⟩
    obtain rfl := Option.some.inj hb
    exact hp
  | publish =>
    obtain ⟨x, -, hs⟩ := Option.bind_eq_some_iff.mp hs
    obtain ⟨f, -, hs⟩ := Option.bind_eq_some_iff.mp hs
    obtain rfl := Option.some.inj hs
    exact ⟨nofun, fun _ => rfl⟩
  | join =>
    obtain rfl := Option.some.inj hs
    exact ⟨nofun, fun _ => rfl⟩
  | viewer k a =>
    obtain ⟨-, c, c', -, -, rfl⟩ := step_viewer hs
    exact ⟨nofun, fun _ => rfl⟩

theorem Viewing.step (h : Viewing v frames e displayName name cap c s) (hv : v.Lawful)
    (hcamera : c.Delivers cap frames) (hframes : ∀ i, v.isEmpty (frames i).1 = false)
    (hname : name ∈ ScenePublisher.streams) (hok : Goes v e displayName name cap c s a)
    (hs : s.step v e displayName name a = some s') :
    Viewing v frames e displayName name cap c s' := by
  refine ⟨h.watching.step hv hcamera hframes hname hok.1 hs, ?_, fun i c' hi => ?_⟩
  · obtain ⟨hdoes, hrests⟩ := pipeline_step hs
    cases hd : pipelineDoes a with
    | none =>
      rw [hrests hd]
      exact h.unpaused
    | some b =>
      refine h.unpaused.step (hok.2 b ?_) (hdoes b hd)
      cases a with
      | pipeline a => exact congrArg _ (Option.some.inj hd)
      | publish | join | viewer => cases hd
  · rcases viewers_step hs hi with ⟨c₀, hc₀⟩ | rfl
    · obtain ⟨c₁, hc₁, hdoes, hrests⟩ := viewer_step hs hc₀
      obtain rfl := Option.some.inj (hc₁.symm.trans hi)
      have hd := h.delivering i c₀ hc₀
      cases hv : viewerDoes v e displayName name i s a with
      | none =>
        rw [hrests hv]
        exact hd
      | some b => exact hd.step (hdoes b hv)
    · exact StreamConnection.delivering_start

theorem Viewing.steps (h : Viewing v frames e displayName name cap c s) (hv : v.Lawful)
    (hcamera : c.Delivers cap frames) (hframes : ∀ i, v.isEmpty (frames i).1 = false)
    (hname : name ∈ ScenePublisher.streams) {as : List (Action P)}
    (hs : Steps (Watched.step v e displayName name) (Goes v e displayName name cap c) s as s') :
    Viewing v frames e displayName name cap c s' :=
  hs.invariant (fun _ _ _ h hok hs => h.step hv hcamera hframes hname hok hs) h

variable {ρ : Nat → Watched P} {act : Nat → Action P} {n m j : Nat}

theorem pipeline_part
    (hrun : Endless (Watched.step v e displayName name) (Goes v e displayName name cap c) ρ act) :
    Part Pipeline.step Pipeline.NoPause (fun n => (ρ n).pipeline)
      fun n => pipelineDoes (act n) := by
  refine ⟨fun n b hb => ⟨(hrun n).1.2 b ?_, (pipeline_step (hrun n).2).1 b hb⟩,
    fun n hn => (pipeline_step (hrun n).2).2 hn⟩
  cases hact : act n with
  | pipeline a =>
    rw [hact] at hb
    exact congrArg _ (Option.some.inj hb)
  | publish | join | viewer =>
    rw [hact] at hb
    cases hb

theorem pipeline_acts
    (hrun : Endless (Watched.step v e displayName name) (Goes v e displayName name cap c) ρ act)
    (htime : Pipeline.TimePasses fun n => (ρ n).pipeline) (n : Nat) :
    ∃ m, n ≤ m ∧ (pipelineDoes (act m)).isSome = true := by
  by_contra hnever
  have hstay : ∀ m, n ≤ m → (ρ m).pipeline = (ρ n).pipeline := by
    intro m hm
    induction hm with
    | refl => rfl
    | @step m hm ih =>
      refine ((pipeline_part hrun).rests m ?_).trans ih
      exact Option.not_isSome_iff_eq_none.mp fun hsome => hnever ⟨m, hm, hsome⟩
  obtain ⟨m, hm, hle⟩ := htime ((ρ n).pipeline.now + 1) n
  dsimp only at hle
  rw [hstay m hm] at hle
  omega

theorem published_mono
    (hrun : Endless (Watched.step v e displayName name) (Goes v e displayName name cap c) ρ act)
    (hnm : n ≤ m) : (ρ n).published ≤ (ρ m).published := by
  induction hnm with
  | refl => exact Nat.le_refl _
  | @step m hm ih =>
    rcases published_step (hrun m).2 with ⟨-, hpub⟩ | ⟨-, hpub⟩
    · exact Nat.le_trans ih (hpub ▸ Nat.le_succ _)
    · exact Nat.le_trans ih (Nat.le_of_eq hpub.symm)

/-- **The strands of the pipeline get to do what they have to do.**  The publisher
may publish instead, but only as often as it has frames to publish. -/
theorem pipeline_fair
    (hrun : Endless (Watched.step v e displayName name) (Goes v e displayName name cap c) ρ act)
    (h : ∀ n, Viewing v frames e displayName name cap c (ρ n))
    (hfair : Fair Party.busy Party.acts ρ act) :
    FairPart (fun (k : Nat) (s : Pipeline.State (Picture P Bytes) Stage) => s.Busy k)
      (fun k a => a.stage? = some k) (fun n => (ρ n).pipeline) fun n => pipelineDoes (act n) := by
  intro k n hbusy
  by_contra hnever
  have hact : ∀ m, n ≤ m → ∀ b, pipelineDoes (act m) = some b → b.stage? ≠ some k :=
    fun m hm b hb hst => hnever ⟨m, b, hm, hb, hst⟩
  have hpublish : ∀ m, n ≤ m → ∃ m', m ≤ m' ∧ k = 3 ∧ act m' = .publish := by
    intro m hm
    obtain ⟨m', hm', ⟨b, hb, hst⟩ | hpub⟩ :=
      hfair (.element k) m fun j hj => hbusy j (Nat.le_trans hm hj)
    · exact absurd hst (hact m' (Nat.le_trans hm hm') b (by rw [hb]; rfl))
    · exact ⟨m', hm', hpub⟩
  obtain ⟨-, -, rfl, -⟩ := hpublish n (Nat.le_refl n)
  have hinputs : ∀ m, n ≤ m → (ρ m).pipeline.inputsAt 3 = (ρ n).pipeline.inputsAt 3 := by
    intro m hm
    induction hm with
    | refl => rfl
    | @step m hm ih =>
      obtain ⟨hdoes, hrests⟩ := pipeline_step (hrun m).2
      cases hd : pipelineDoes (act m) with
      | none => rw [hrests hd, ih]
      | some b =>
        have hsame := Pipeline.turn_other (h m).watching.wired (hact m hm b hd) (hdoes b hd)
        rw [Pipeline.State.inputsAt, hsame.started, ← Pipeline.State.inputsAt, ih]
  have hmany : ∀ d, ∃ m, n ≤ m ∧ d ≤ (ρ m).published := by
    intro d
    induction d with
    | zero => exact ⟨n, Nat.le_refl n, Nat.zero_le _⟩
    | succ d ih =>
      obtain ⟨m, hm, hd⟩ := ih
      obtain ⟨m', hm', -, hpub⟩ := hpublish m hm
      refine ⟨m' + 1, Nat.le_succ_of_le (Nat.le_trans hm hm'), ?_⟩
      have hone := (published_step (hrun m').2).resolve_right fun hne => hne.1 hpub
      rw [hone.2]
      exact Nat.succ_le_succ (Nat.le_trans hd (published_mono hrun hm'))
  obtain ⟨m, hm, hlt⟩ := hmany (((ρ n).pipeline.inputsAt 3).length + 1)
  have hle := (h m).watching.started
  rw [hinputs m hm] at hle
  exact absurd hle (Nat.not_le_of_lt hlt)

/-- **The publisher comes to every frame.** -/
theorem comes_to
    (hrun : Endless (Watched.step v e displayName name) (Goes v e displayName name cap c) ρ act)
    (h : ∀ n, Viewing v frames e displayName name cap c (ρ n))
    (hfair : Fair Party.busy Party.acts ρ act)
    (htime : Pipeline.TimePasses fun n => (ρ n).pipeline) (hj : (ρ n).published ≤ j) :
    ∃ m, n ≤ m ∧ act m = .publish ∧ (ρ m).published = j := by
  have hpart := pipeline_part hrun
  obtain ⟨time, act', halone⟩ := exists_alone (pipeline_acts hrun htime)
  have hrun' := halone.endless hpart
  have hfair' := halone.fair hpart (pipeline_fair hrun h hfair)
  have htimer' : Pipeline.FairToTimer (fun k => (ρ (time k)).pipeline) act' := by
    refine halone.fair hpart fun _ n hbusy => ?_
    obtain ⟨m, hm, hact⟩ := hfair .timer n hbusy
    exact ⟨m, .expire 0, hm, congrArg pipelineDoes hact, rfl⟩
  have htime' : Pipeline.TimePasses fun k => (ρ (time k)).pipeline := by
    intro t k
    obtain ⟨m, hm, hle⟩ := htime t (time k)
    obtain ⟨k', hk', hstate⟩ := halone.exists_state hpart m
    have hnow : (ρ m).pipeline.now = (ρ (time k')).pipeline.now := congrArg (·.now) hstate
    exact ⟨k', halone.mono.le_iff_le.mp (Nat.le_trans hm hk'), Nat.le_trans hle hnow.le⟩
  have hun : ∀ k, Pipeline.Unpaused _ _ (ρ (time k)).pipeline := fun k => (h (time k)).unpaused
  obtain ⟨k, hk⟩ := Pipeline.Unpaused.keeps_making hrun' hfair' htimer' htime' hun j
  obtain ⟨k', -, hdone⟩ := Pipeline.Running.delivers (hrun'.mono fun _ _ _ => trivial) hfair'
    (fun k => (hun k).running) hk
  obtain ⟨it, hit, -⟩ := hdone 3 (Nat.lt_succ_self 3)
  have hlt : j < (ρ (time k')).published := by
    refine Nat.lt_of_lt_of_le ?_ (h (time k')).watching.completed
    rw [Pipeline.State.outputsAt, List.length_map]
    exact (List.getElem?_eq_some_iff.mp hit).1
  have hnm : n ≤ time k' := by
    refine Nat.le_of_not_lt fun hlt' => ?_
    have hle := published_mono hrun (Nat.le_of_lt hlt')
    omega
  obtain ⟨m, hm, hle, hpass⟩ := exists_passes (f := fun m => (ρ m).published) hnm hj hlt
  rcases published_step (hrun m).2 with ⟨hact, hpub⟩ | ⟨-, hpub⟩
  · exact ⟨m, hm, hact, by omega⟩
  · omega

theorem viewing_start {F : Type} {rates : Rates F} {sceneName : String} {fps : Int} {factor : F}
    {now : Nat} {t : TimePoint} {sc : Scene (Picture P Bytes)}
    (h : Scene.construct rates sceneName (.ok fps) factor now t = .ok sc) :
    Viewing v frames e displayName name cap c { pipeline := sc.pipeline } := by
  refine ⟨watching_start h, ?_, nofun⟩
  rw [Scene.construct_eq_launch] at h
  obtain ⟨p, hp, -⟩ := Pipeline.launch_ok (T := Picture P Bytes) 5000 (rates.interval fps factor)
    (Stage.imageSource, some "  Camera") [(.movementDetector, some " Movemnt"),
      (.roiDetector, some "    ROIs"), (.scenePublisher, some " Publish")] now t
  rw [hp] at h
  obtain rfl := Except.ok.inj h
  obtain ⟨w, htick, -⟩ := Pipeline.ticking_of_launch hp
  exact ⟨(Pipeline.launched_of_launch hp).running, w, .waiting, htick⟩

theorem hasImage_mono {i j : Nat} (hij : i ≤ j) (h : hasImage i name = true) :
    hasImage j name = true := by
  simp only [hasImage, Bool.or_eq_true, Bool.and_eq_true, decide_eq_true_eq] at h ⊢
  exact h.imp_right fun h => ⟨h.1, Nat.lt_of_lt_of_le h.2 hij⟩

end Watched

end SecMon
