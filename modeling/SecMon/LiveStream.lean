import SecMon.StreamParts

/-!
# A live stream

`Broadcast` says which images a viewer is given and in which order; here they
come.  The publisher comes to every frame, and what a viewer is given it is
shown.

`frames_are_shown`: a viewer that is connected is shown the camera's frames, one
after the other and without end, or it fails.
-/

namespace SecMon

open Machine Http

namespace Watched

variable {P C S : Type} {v : Vision P C Bytes} {frames : Nat → P × String} {e : Surroundings}
  {displayName name : String} {cap : VideoCapture S P} {c : Camera S} {s : Watched P}
  {ρ : Nat → Watched P} {act : Nat → Action P} {i j n m : Nat}

/-! ### One viewer of the run -/

/-- What viewer `i` is from time `n` on. -/
structure Seen (v : Vision P C Bytes) (e : Surroundings) (displayName name : String)
    (ρ : Nat → Watched P) (act : Nat → Action P) (n i : Nat) (viewer : Nat → StreamConnection) :
    Prop where
  there : ∀ m, (ρ (n + m)).viewers[i]? = some (viewer m)
  part : Part StreamConnection.step anyStep viewer fun m =>
    viewerDoes v e displayName name i (ρ (n + m)) (act (n + m))

theorem exists_seen
    (hrun : Endless (Watched.step v e displayName name) (Goes v e displayName name cap c) ρ act)
    {c₀ : StreamConnection} (hi : (ρ n).viewers[i]? = some c₀) :
    ∃ viewer, viewer 0 = c₀ ∧ Seen v e displayName name ρ act n i viewer := by
  have hthere : ∀ m, ∃ c, (ρ (n + m)).viewers[i]? = some c := by
    intro m
    induction m with
    | zero => exact ⟨c₀, hi⟩
    | succ m ih =>
      obtain ⟨c₁, hc₁⟩ := ih
      obtain ⟨c₂, hc₂, -⟩ := viewer_step (hrun (n + m)).2 hc₁
      exact ⟨c₂, hc₂⟩
  choose viewer hviewer using hthere
  refine ⟨viewer, Option.some.inj ((hviewer 0).symm.trans hi), hviewer, ?_, ?_⟩
  · intro m b hb
    obtain ⟨c', hc', hdoes, -⟩ := viewer_step (hrun (n + m)).2 (hviewer m)
    obtain rfl := Option.some.inj ((hviewer (m + 1)).symm.trans hc')
    exact ⟨trivial, hdoes b hb⟩
  · intro m hm
    obtain ⟨c', hc', -, hrests⟩ := viewer_step (hrun (n + m)).2 (hviewer m)
    obtain rfl := Option.some.inj ((hviewer (m + 1)).symm.trans hc')
    exact hrests hm

namespace Seen

variable {viewer : Nat → StreamConnection}

theorem fair (hs : Seen v e displayName name ρ act n i viewer)
    (hfair : Fair Party.busy Party.acts ρ act) :
    FairPart StreamConnection.Party.busy StreamConnection.Party.acts viewer fun m =>
      viewerDoes v e displayName name i (ρ (n + m)) (act (n + m)) := by
  intro p m hbusy
  have hbusy' : ∀ m', n + m ≤ m' → (Party.viewer i p).busy (ρ m') := by
    intro m' hm'
    obtain ⟨d, rfl⟩ := Nat.exists_eq_add_of_le (Nat.le_trans (Nat.le_add_right n m) hm')
    exact ⟨viewer d, hs.there d, hbusy d (Nat.le_of_add_le_add_left hm')⟩
  obtain ⟨m', hm', b, hact, hb⟩ := hfair (.viewer i p) (n + m) hbusy'
  obtain ⟨d, rfl⟩ := Nat.exists_eq_add_of_le (Nat.le_trans (Nat.le_add_right n m) hm')
  refine ⟨d, b, Nat.le_of_add_le_add_left hm', ?_, hb⟩
  show viewerDoes v e displayName name i (ρ (n + d)) (act (n + d)) = some b
  rw [hact, viewerDoes, if_pos rfl]

theorem connected (hs : Seen v e displayName name ρ act n i viewer)
    (hconn : (viewer 0).isConnected = true) (hok : ∀ m, (viewer m).hasFailed = false) (m : Nat) :
    (viewer m).isConnected = true := by
  induction m with
  | zero => exact hconn
  | succ m ih =>
    cases hd : viewerDoes v e displayName name i (ρ (n + m)) (act (n + m)) with
    | none => rw [hs.part.rests m hd, ih]
    | some b =>
      refine (StreamConnection.connected_step (hs.part.acts m b hd).2 ih).resolve_right fun hf => ?_
      exact Bool.false_ne_true ((hok (m + 1)).symm.trans hf)

theorem connectedAt (hs : Seen v e displayName name ρ act n i viewer)
    (hrun : Endless (Watched.step v e displayName name) (Goes v e displayName name cap c) ρ act)
    (h : ∀ n, Viewing v frames e displayName name cap c (ρ n))
    (hconn : ∀ m, (viewer m).isConnected = true) (m : Nat) :
    (ρ (n + m)).connectedAt i = (ρ n).connectedAt i := by
  induction m with
  | zero => rfl
  | succ m ih =>
    have hfollows := ((h (n + m)).watching.viewers i _ (hs.there m)).2
    have hbegun := hfollows.begun.mp (hfollows.connected.mp (hconn m)).1
    exact (connectedAt_step (hrun (n + m)).2 (hs.there m) hbegun).trans ih

/-- The frame `j` comes, and its image is emitted to the viewer. -/
theorem emitted (hs : Seen v e displayName name ρ act n i viewer)
    (hrun : Endless (Watched.step v e displayName name) (Goes v e displayName name cap c) ρ act)
    (h : ∀ n, Viewing v frames e displayName name cap c (ρ n)) (hv : v.Lawful)
    (hcamera : c.Delivers cap frames) (hframes : ∀ i, v.isEmpty (frames i).1 = false)
    (hname : name ∈ ScenePublisher.streams) (hfair : Fair Party.busy Party.acts ρ act)
    (htime : Pipeline.TimePasses fun n => (ρ n).pipeline)
    (hconn : ∀ m, (viewer m).isConnected = true) (hj : (ρ (n + m)).published ≤ j)
    (himage : hasImage j name = true) :
    ∃ m' jpg, m ≤ m' ∧ (ρ (n + (m' + 1))).published = j + 1 ∧
      viewerDoes v e displayName name i (ρ (n + m')) (act (n + m')) = some (.imageReady jpg) := by
  obtain ⟨jpg, hjpg⟩ : ∃ jpg, imageOf v frames e displayName name j = some jpg :=
    ⟨_, if_pos himage⟩
  obtain ⟨m', hm', hact, hpub⟩ := comes_to hrun h hfair htime hj
  obtain ⟨d, rfl⟩ := Nat.exists_eq_add_of_le (Nat.le_trans (Nat.le_add_right n m) hm')
  have hstep := (hrun (n + d)).2
  have hone := (published_step hstep).resolve_right fun hne => hne.1 hact
  rw [hact] at hstep
  have hemits := (h (n + d)).watching.emits_eq hv hcamera hframes hname hstep
    (any_isConnected (hs.there d) (hconn d))
  rw [hpub, hjpg] at hemits
  refine ⟨d, jpg, Nat.le_of_add_le_add_left hm', hone.2.trans (congrArg (· + 1) hpub), ?_⟩
  rw [hact, viewerDoes, hemits]
  rfl

end Seen

/-- **A live stream.**  In a run without end of a scene and the viewers of one of
its streams, fair to everyone, in which time passes and nobody calls `pause`: a
viewer that is connected fails sometime, or it is shown every frame that is
published from then on.  The frames it is shown begin with the one that was next
when it connected to the signal, and none is left out. -/
theorem frames_are_shown {F : Type} {rates : Rates F} {sceneName : String} {fps : Int} {factor : F}
    {now : Nat} {t : TimePoint} {sc : Scene (Picture P Bytes)}
    (h : Scene.construct rates sceneName (.ok fps) factor now t = .ok sc) (hv : v.Lawful)
    (hcamera : c.Delivers cap frames) (hframes : ∀ i, v.isEmpty (frames i).1 = false)
    (hname : name ∈ ScenePublisher.streams) {as : List (Action P)}
    (hstart : Steps (step v e displayName name) (Goes v e displayName name cap c)
      { pipeline := sc.pipeline } as (ρ 0))
    (hrun : Endless (step v e displayName name) (Goes v e displayName name cap c) ρ act)
    (hfair : Fair Party.busy Party.acts ρ act)
    (htime : Pipeline.TimePasses fun n => (ρ n).pipeline) {c₀ : StreamConnection}
    (hi : (ρ n).viewers[i]? = some c₀) (hconn : c₀.isConnected = true) :
    ∃ first, (ρ n).connectedAt i = some first ∧ first ≤ (ρ n).published ∧
      ∀ j, (ρ n).published ≤ j → hasImage j name = true → ∃ m c₁, n ≤ m ∧
        (ρ m).viewers[i]? = some c₁ ∧ (c₁.hasFailed = true ∨
          c₁.Shown (imageOf v frames e displayName name) first j) := by
  have hview : ∀ n, Viewing v frames e displayName name cap c (ρ n) :=
    hrun.invariant (fun _ _ _ hs hok hstep => hs.step hv hcamera hframes hname hok hstep)
      ((viewing_start h).steps hv hcamera hframes hname hstart)
  obtain ⟨viewer, rfl, hs⟩ := exists_seen hrun hi
  have hdelivering : ∀ m, (viewer m).Delivering := fun m =>
    (hview (n + m)).delivering i _ (hs.there m)
  have hfollows := ((hview n).watching.viewers i _ hi).2
  obtain ⟨first, hfirst⟩ := Option.isSome_iff_exists.mp (hfollows.connected.mp hconn).1
  rw [hfirst] at hfollows
  refine ⟨first, hfirst, (hfollows.all hconn).1, fun j hj himage => ?_⟩
  by_cases hfail : ∃ m, (viewer m).hasFailed = true
  · obtain ⟨m, hf⟩ := hfail
    exact ⟨n + m, viewer m, Nat.le_add_right n m, hs.there m, .inl hf⟩
  have hok : ∀ m, (viewer m).hasFailed = false := fun m =>
    Bool.eq_false_iff.mpr fun hf => hfail ⟨m, hf⟩
  have hconnected := hs.connected hconn hok
  have hemit : ∀ m j, (ρ (n + m)).published ≤ j → hasImage j name = true → _ := fun m j =>
    hs.emitted hrun hview hv hcamera hframes hname hfair htime hconnected (m := m) (j := j)
  -- the viewer by itself, which has images to write without end
  obtain ⟨time, act', halone⟩ := exists_alone fun m => by
    obtain ⟨m', jpg, hm', -, hdoes⟩ := hemit m _ (Nat.le_max_left _ j)
      (hasImage_mono (Nat.le_max_right _ j) himage)
    exact ⟨m', hm', Option.isSome_iff_exists.mpr ⟨_, hdoes⟩⟩
  have hrun' := halone.endless hs.part
  -- the emission of the image of frame `j`
  obtain ⟨m₀, jpg, -, hpub, hdoes⟩ := hemit 0 j hj himage
  have hready := Option.some.inj (hs.part.acts m₀ _ hdoes).2
  have hemitted : (viewer (m₀ + 1)).emitted =
      (viewer m₀).emitted ++ [⟨(viewer m₀).emitted.length, jpg⟩] := by
    rw [← hready, StreamConnection.imageReady, if_pos (hconnected m₀)]
    rfl
  have hgiven := ((hview _).watching.viewers i _ (hs.there (m₀ + 1))).2
  rw [hs.connectedAt hrun hview hconnected, hfirst] at hgiven
  have hmap := (hgiven.all (hconnected _)).2
  rw [hpub, hemitted] at hmap
  obtain ⟨k, -, hstate⟩ := halone.exists_state hs.part (m₀ + 1)
  rw [hstate] at hemitted
  have hmem : (⟨(viewer m₀).emitted.length, jpg⟩ : Image) ∈ (viewer (time k)).emitted :=
    hemitted ▸ List.mem_append_right _ (List.mem_singleton_self _)
  obtain ⟨k', hk', hend⟩ := StreamConnection.arrives hrun' (halone.fair hs.part (hs.fair hfair))
    (fun k => hdelivering (time k)) hmem
  have hlasts : (viewer m₀).emitted ++ [⟨(viewer m₀).emitted.length, jpg⟩] <+:
      (viewer (time k')).emitted :=
    hrun'.lasts (I := fun _ => True) (P := fun c => (viewer m₀).emitted ++ _ <+: c.emitted)
      (fun _ => trivial) (fun _ _ _ _ hl hs => hl.trans (StreamConnection.emitted_step hs)) hk'
      (hemitted ▸ List.prefix_refl _)
  refine ⟨n + time k', viewer (time k'), Nat.le_add_right _ _, hs.there _, .inr ?_⟩
  rcases hend with hf | ⟨hlog, hout⟩
  · exact absurd ⟨time k', hf⟩ hfail
  · exact StreamConnection.shown_of_ended (hdelivering _) hlasts hmap hlog hout

/-! ### A scene that is watched for ever -/

/-- The elements of a scene between two frames. -/
def sceneElements {T : Type} (expiry pending : Nat) : List (WorkWrapper T Stage) :=
  [{ work := .imageSource, timeStatsQueue := some 0,
     timed := some { milliseconds := 40, timer := { expiry := expiry, pending := pending } },
     next := some 1 },
   { work := .movementDetector, timeStatsQueue := some 1, timed := none, next := some 2 },
   { work := .roiDetector, timeStatsQueue := some 2, timed := none, next := some 3 },
   { work := .scenePublisher, timeStatsQueue := some 3, timed := none }]

/-- Element `k` has an item in work. -/
def during {T : Type} (k : Nat) (it : Item T Stage) (expiry pending : Nat)
    (s : Pipeline.State T Stage) : Pipeline.State T Stage :=
  { s with pipeline := { s.pipeline with
      elements := (sceneElements expiry pending).modify k fun w =>
        { w with activity := some (.working it 0) } } }

section

open Pipeline

variable {T : Type} {p : State T Stage} {expiry pending k : Nat}

/-- One item is in work, and element `k` has it. -/
def InWork (k expiry pending : Nat) (p : State T Stage) : Prop :=
  (∃ it p₀, p = during k it expiry pending p₀) ∧ p.inputsAt k ≠ []

theorem exec_tick (hel : p.pipeline.elements = sceneElements expiry 1)
    (hdue : expiry ≤ p.now + 40) :
    ∃ p', exec Pipeline.step p [.elapse 40, .expire 0, .run 0 0] = some p' ∧
      InWork 0 expiry 0 p' ∧ p'.now = p.now + 40 ∧ p'.inputsAt 3 = p.inputsAt 3 := by
  have hrun : exec Pipeline.step p [.elapse 40, .expire 0, .run 0 0] =
      some (during 0 { id := (p.startedAt 0).length, data := none, applied := [] } expiry 0
        { p with
          now := p.now + 40
          log := p.log ++
            [.started 0 { id := (p.startedAt 0).length, data := none, applied := [] }] }) := by
    obtain ⟨now, ⟨elements⟩⟩ := p
    dsimp only at hel hdue
    subst hel
    simp [exec, Pipeline.step, State.element, sceneElements, WorkWrapper.due, WorkWrapper.pending,
      WorkWrapper.expiry, hdue, WorkWrapper.expire, WorkWrapper.setTimer, WorkWrapper.postTicks,
      State.modify, Pipeline.modify, State.begin, State.dataOf, State.record, during,
      State.startedAt]
  refine ⟨_, hrun, ⟨⟨_, _, rfl⟩, ?_⟩, rfl, ?_⟩
  · rw [inputsAt_of_started (s := p) rfl]
    exact List.append_ne_nil_of_right_ne_nil _ (List.cons_ne_nil _ _)
  · rw [inputsAt_of_started (s := p) rfl]
    exact List.append_nil _

theorem inWork_passed {it : Item T Stage} {q : Pipeline T Stage} {p' : State T Stage}
    (hp : p' = during (k + 1) it expiry pending
      { p with
        pipeline := q
        log := p.log ++ [.completed k it 0 0] ++ [.started (k + 1) it] }) :
    InWork (k + 1) expiry pending p' ∧
      p'.inputsAt 3 = p.inputsAt 3 ++ if k + 1 = 3 then [it.data] else [] := by
  have hin : ∀ j, p'.inputsAt j = p.inputsAt j ++ if k + 1 = j then [it.data] else [] := by
    intro j
    have hlog : p'.log = (p.record (.completed k it 0 0)).log ++ [.started (k + 1) it] := by
      rw [hp]
      rfl
    rw [inputsAt_of_started hlog, inputsAt_of_completed rfl]
  refine ⟨⟨⟨it, _, hp⟩, ?_⟩, hin 3⟩
  rw [hin, if_pos rfl]
  exact List.append_ne_nil_of_right_ne_nil _ (List.cons_ne_nil _ _)

theorem InWork.source (h : InWork 0 expiry 0 p) (d : Option T) :
    ∃ p', exec Pipeline.step p [.finish 0 d 0, .next 0, .restart 0, .rewait 0, .run 1 0] =
      some p' ∧ InWork 1 (expiry + 40) 1 p' ∧ p'.now = p.now ∧ p'.inputsAt 3 = p.inputsAt 3 := by
  obtain ⟨⟨it, p₀, rfl⟩, -⟩ := h
  have hrun : exec Pipeline.step (during 0 it expiry 0 p₀)
      [.finish 0 d 0, .next 0, .restart 0, .rewait 0, .run 1 0] =
      some (during 1 (it.worked .imageSource d) (expiry + 40) 1
        { p₀ with
          pipeline := { p₀.pipeline with
            timeStats := p₀.pipeline.timeStats.modify 0 (· ++ [(0, 0)]) }
          log := p₀.log ++ [.completed 0 (it.worked .imageSource d) 0 0] ++
            [.started 1 (it.worked .imageSource d)] }) := by
    simp [exec, Pipeline.step, during, sceneElements, State.element, State.modify, Pipeline.modify,
      State.record, emplaceTimes, WorkWrapper.afterNext, State.pass, WorkWrapper.scheduleWork,
      WorkWrapper.post, WorkWrapper.restart, WorkWrapper.rewait, WorkWrapper.expiresAt,
      WorkWrapper.asyncWait, WorkWrapper.setTimer, WorkWrapper.postTicks, WorkWrapper.milliseconds,
      WorkWrapper.expiry, WorkWrapper.pending, State.begin, State.dataOf]
  obtain ⟨hnext, hin⟩ := inWork_passed (p := p₀) rfl
  exact ⟨_, hrun, hnext, rfl, hin.trans (List.append_nil _)⟩

theorem InWork.plain {expiry : Nat} (hk : k = 1 ∨ k = 2) (h : InWork k expiry 1 p) (d : Option T) :
    ∃ p', exec Pipeline.step p [.finish k d 0, .next k, .run (k + 1) 0] = some p' ∧
      InWork (k + 1) expiry 1 p' ∧ p'.now = p.now ∧
      (p'.inputsAt 3).length = (p.inputsAt 3).length + if k = 2 then 1 else 0 := by
  obtain ⟨⟨it, p₀, rfl⟩, -⟩ := h
  obtain ⟨work, hrun⟩ : ∃ work, exec Pipeline.step (during k it expiry 1 p₀)
      [.finish k d 0, .next k, .run (k + 1) 0] =
      some (during (k + 1) (it.worked work d) expiry 1
        { p₀ with
          pipeline := { p₀.pipeline with
            timeStats := p₀.pipeline.timeStats.modify k (· ++ [(0, 0)]) }
          log := p₀.log ++ [.completed k (it.worked work d) 0 0] ++
            [.started (k + 1) (it.worked work d)] }) := by
    rcases hk with rfl | rfl
    · refine ⟨.movementDetector, ?_⟩
      simp [exec, Pipeline.step, during, sceneElements, State.element, State.modify,
        Pipeline.modify, State.record, emplaceTimes, WorkWrapper.afterNext, State.pass,
        WorkWrapper.scheduleWork, WorkWrapper.post, State.begin, State.dataOf]
    · refine ⟨.roiDetector, ?_⟩
      simp [exec, Pipeline.step, during, sceneElements, State.element, State.modify,
        Pipeline.modify, State.record, emplaceTimes, WorkWrapper.afterNext, State.pass,
        WorkWrapper.scheduleWork, WorkWrapper.post, State.begin, State.dataOf]
  obtain ⟨hnext, hin⟩ := inWork_passed (p := p₀) rfl
  refine ⟨_, hrun, hnext, rfl, ?_⟩
  rw [hin]
  rcases hk with rfl | rfl
  · exact congrArg List.length (List.append_nil _)
  · exact List.length_append

theorem InWork.publisher (h : InWork 3 expiry 1 p) (d : Option T) :
    ∃ p', exec Pipeline.step p [.finish 3 d 0, .next 3] = some p' ∧
      p'.pipeline.elements = sceneElements expiry 1 ∧ p'.now = p.now ∧
      p'.inputsAt 3 = p.inputsAt 3 := by
  obtain ⟨⟨it, p₀, rfl⟩, -⟩ := h
  exact ⟨_, rfl, rfl, rfl, inputsAt_of_completed rfl 3⟩

end

section

variable (v e displayName name cap c)

variable {as : List (Pipeline.Action (Picture P Bytes))}

/-- What is somebody's choice: the data that work leaves, and a `pause`. -/
def chosen {T : Type} : Pipeline.Action T → Bool
  | .finish .. | .pauseCall => true
  | _ => false

theorem goes_plain {p : Pipeline.State (Picture P Bytes) Stage}
    (hplain : ∀ a ∈ as, chosen a = false) (h : exec Pipeline.step s.pipeline as = some p) :
    Steps (step v e displayName name) (Goes v e displayName name cap c) s (as.map .pipeline)
      { s with pipeline := p } := by
  induction as generalizing s with
  | nil =>
    obtain rfl := Option.some.inj h
    exact .nil s
  | cons a as ih =>
    obtain ⟨p₁, hp₁, h⟩ := Option.bind_eq_some_iff.mp h
    have ha : chosen a = false := hplain a List.mem_cons_self
    have hstep : s.step v e displayName name (.pipeline a) = some { s with pipeline := p₁ } := by
      rw [step, if_pos, hp₁]
      · rfl
      · intro hends
        cases a with
        | finish => cases ha
        | _ => cases hends
    have hgoes : Goes v e displayName name cap c s (.pipeline a) := by
      refine ⟨?_, fun b hb => ?_⟩
      · cases a <;> trivial
      · obtain rfl := Action.pipeline.inj hb
        rintro rfl
        cases ha
    exact .cons hgoes hstep (ih (s := { s with pipeline := p₁ })
      (fun b hb => hplain b (List.mem_cons_of_mem a hb)) h)

/-- The work of element `k` ends, with what its machine answers. -/
theorem goes_turn {k : Nat} {Q : Pipeline.State (Picture P Bytes) Stage → Prop}
    (hplain : ∀ a ∈ as, chosen a = false)
    (h : ∀ d, ∃ p, exec Pipeline.step s.pipeline (.finish k d 0 :: as) = some p ∧ Q p)
    (hin : s.pipeline.inputsAt k ≠ [])
    (hpub : k = 3 → s.published = (s.pipeline.inputsAt 3).length) :
    ∃ bs p, Steps (step v e displayName name) (Goes v e displayName name cap c) s bs
      { s with pipeline := p } ∧ Q p := by
  obtain ⟨d, hd⟩ : ∃ d, ∀ m ∈ (sceneStages v e displayName cap c)[k]?,
      (m.outputs (s.pipeline.inputsAt k)).getLast? = some d := by
    cases hm : (sceneStages v e displayName cap c)[k]? with
    | none => exact ⟨none, nofun⟩
    | some m =>
      have hout : m.outputs (s.pipeline.inputsAt k) ≠ [] := by
        rw [← List.length_pos_iff, Mealy.length_outputs, List.length_pos_iff]
        exact hin
      refine ⟨(m.outputs (s.pipeline.inputsAt k)).getLast hout, fun m' hm' => ?_⟩
      obtain rfl := Option.some.inj hm'
      exact List.getLast?_eq_some_getLast hout
  obtain ⟨p, hp, hQ⟩ := h d
  refine ⟨(.finish k d 0 :: as).map .pipeline, p, ?_, hQ⟩
  obtain ⟨p₁, hp₁, hrest⟩ := Option.bind_eq_some_iff.mp hp
  have hstep : s.step v e displayName name (.pipeline (.finish k d 0)) =
      some { s with pipeline := p₁ } := by
    rw [step, if_pos, hp₁]
    · rfl
    · intro hends
      refine hpub ?_
      rcases k with _ | _ | _ | _ | k
      all_goals first | rfl | cases hends
  refine .cons ⟨hd, fun b hb => ?_⟩ hstep
    (goes_plain v e displayName name cap c (s := { s with pipeline := p₁ }) hplain hrest)
  obtain rfl := Action.pipeline.inj hb
  nofun

theorem goes_viewer {w w' : StreamConnection} {as : List StreamConnection.Action}
    (ha : ∀ bytes, StreamConnection.Action.imageReady bytes ∉ as) (hs : s.viewers = [w])
    (h : exec StreamConnection.step w as = some w') :
    ∃ t, Steps (step v e displayName name) (Goes v e displayName name cap c) s
        (as.map (.viewer 0)) t ∧
      t.viewers = [w'] ∧ t.pipeline = s.pipeline ∧ t.published = s.published := by
  induction as generalizing s w with
  | nil =>
    obtain rfl := Option.some.inj h
    exact ⟨s, .nil s, hs, rfl, rfl⟩
  | cons a as ih =>
    obtain ⟨w₁, hw₁, h⟩ := Option.bind_eq_some_iff.mp h
    have hstep : s.step v e displayName name (.viewer 0 a) = some (s.moveViewer 0 a w w₁) := by
      have hget : s.viewers[0]? = some w := by rw [hs]; rfl
      rw [step, hget, Option.bind_eq_bind, Option.bind_some, hw₁]
      · rfl
      · exact fun bytes hb => ha bytes (hb ▸ List.mem_cons_self)
    have hset : (s.moveViewer 0 a w w₁).viewers = [w₁] := by
      show s.viewers.set 0 w₁ = [w₁]
      rw [hs]
      rfl
    obtain ⟨t, ht, hviewers, hpipeline, hpublished⟩ :=
      ih (fun bytes hb => ha bytes (List.mem_cons_of_mem a hb)) hset h
    exact ⟨t, .cons ⟨trivial, fun b hb => by cases hb⟩ hstep ht, hviewers, hpipeline, hpublished⟩

end

/-- A viewer that is connected, and has nothing to do. -/
structure Idle (w : StreamConnection) : Prop where
  connected : w.isConnected = true
  strand : w.strand = []
  inFlight : w.inFlight = []
  outbox : w.outbox = []

theorem Idle.served {w : StreamConnection} (h : Idle w) (bytes : Bytes) :
    ∃ w', exec StreamConnection.step (w.imageReady bytes)
      [.runHandler, .runHandler, .completeWrite 0 false, .runHandler] = some w' ∧ Idle w' := by
  obtain ⟨stage, reply, temporaries, isConnected, hasConnection, isListed, outbox, inFlight, strand,
    log, emitted, hasFailed⟩ := w
  obtain ⟨hconnected, hstrand, hflight, hbox⟩ := h
  dsimp only at hconnected hstrand hflight hbox
  subst hconnected hstrand hflight hbox
  exact ⟨_, rfl, rfl, rfl, rfl, rfl⟩

/-- **Between two frames**: nobody has anything to do before the timer goes off. -/
structure Resting (v : Vision P C Bytes) (frames : Nat → P × String) (e : Surroundings)
    (displayName name : String) (cap : VideoCapture S P) (c : Camera S) (n : Nat) (s : Watched P) :
    Prop where
  viewing : Viewing v frames e displayName name cap c s
  now : s.pipeline.now = 40 * n
  elements : s.pipeline.pipeline.elements = sceneElements (40 * (n + 1)) 1
  published : s.published = (s.pipeline.inputsAt 3).length
  viewer : ∃ w, s.viewers = [w] ∧ Idle w

theorem Resting.still {n : Nat} (h : Resting v frames e displayName name cap c n s) (p : Party) :
    ¬p.busy s := by
  cases p with
  | element k =>
    rintro ⟨w, hw, hbusy⟩
    have hmem : w ∈ sceneElements (40 * (n + 1)) 1 := h.elements ▸ List.mem_of_getElem? hw
    simp only [sceneElements, List.mem_cons, List.not_mem_nil, or_false] at hmem
    rcases hmem with rfl | rfl | rfl | rfl <;> simp at hbusy
  | timer =>
    rintro ⟨w, hw, hdue⟩
    rw [Pipeline.State.element, h.elements] at hw
    obtain rfl := Option.some.inj hw
    rw [h.now, WorkWrapper.due, Bool.and_eq_true, decide_eq_true_eq, decide_eq_true_eq] at hdue
    have hle : 40 * (n + 1) ≤ 40 * n := hdue.2
    omega
  | viewer i p =>
    rintro ⟨w, hw, hbusy⟩
    obtain ⟨w', hw', hidle⟩ := h.viewer
    rw [hw'] at hw
    obtain rfl := List.mem_singleton.mp (List.mem_of_getElem? hw)
    cases p with
    | strand => exact hbusy hidle.strand
    | socket => exact hbusy hidle.inFlight

/-- The publisher comes to the last frame, and the viewer is given its image. -/
theorem Viewing.publishes (h : Viewing v frames e displayName "main" cap c s) (hv : v.Lawful)
    (hcamera : c.Delivers cap frames) (hframes : ∀ i, v.isEmpty (frames i).1 = false)
    (hthere : ∀ i, e.viewers i "main" = true)
    (hlast : (s.pipeline.inputsAt 3).length = s.published + 1) {w : StreamConnection}
    (hw : s.viewers = [w]) (hconn : w.isConnected = true) :
    ∃ bytes, Steps (Watched.step v e displayName "main") (Goes v e displayName "main" cap c) s
      [.publish] { s with viewers := [w.imageReady bytes], published := s.published + 1 } := by
  have hany : s.viewers.any (·.isConnected) = true := by
    rw [hw, List.any_cons, hconn]
    rfl
  have hlt : s.published < (s.pipeline.inputsAt 3).length :=
    Nat.lt_of_lt_of_eq (Nat.lt_succ_self _) hlast.symm
  have hx := List.getElem?_eq_getElem hlt
  have hf := h.watching.input hcamera hframes hx
  obtain ⟨rects, hsearched, -⟩ := searched_eq (J := Bytes) frames hv s.published
  rw [hf, hsearched] at hx
  have hemission : s.emission v e displayName "main" (marksOf v frames s.published rects) = _ :=
    emission_eq hv hframes (by decide) hsearched
  have himage : hasImage s.published "main" = true := rfl
  rw [if_pos hany, imageOf, if_pos himage] at hemission
  have hgoes : Goes v e displayName "main" cap c s .publish := by
    refine ⟨(hthere _).trans hany.symm, fun b hb => ?_⟩
    cases hb
  refine ⟨shown v frames e displayName s.published (regionsAt v frames s.published) "main",
    .single hgoes ?_⟩
  rw [Watched.step, hx, Option.bind_eq_bind, Option.bind_some, Option.bind_eq_bind,
    Option.bind_some, hemission, hw]
  rfl

/-- **One frame more**, from the timer to the viewer. -/
theorem Resting.round {n : Nat} (h : Resting v frames e displayName "main" cap c n s)
    (hv : v.Lawful) (hcamera : c.Delivers cap frames)
    (hframes : ∀ i, v.isEmpty (frames i).1 = false) (hthere : ∀ i, e.viewers i "main" = true) :
    ∃ a as t, Steps (Watched.step v e displayName "main") (Goes v e displayName "main" cap c) s
        (a :: as) t ∧
      Resting v frames e displayName "main" cap c (n + 1) t := by
  obtain ⟨w, hw, hidle⟩ := h.viewer
  have hdue : 40 * (n + 1) ≤ s.pipeline.now + 40 := by
    rw [h.now]
    omega
  obtain ⟨p₀, hp₀, hat₀, hnow₀, hin₀⟩ := exec_tick h.elements hdue
  have htick := goes_plain v e displayName "main" cap c (s := s) (by simp [chosen]) hp₀
  obtain ⟨as₁, p₁, h₁, hat₁, hnow₁, hin₁⟩ := goes_turn v e displayName "main" cap c
    (s := { s with pipeline := p₀ }) (by simp [chosen]) hat₀.source hat₀.2 nofun
  obtain ⟨as₂, p₂, h₂, hat₂, hnow₂, hin₂⟩ := goes_turn v e displayName "main" cap c
    (s := { s with pipeline := p₁ }) (by simp [chosen]) (hat₁.plain (.inl rfl)) hat₁.2 nofun
  obtain ⟨as₃, p₃, h₃, hat₃, hnow₃, hin₃⟩ := goes_turn v e displayName "main" cap c
    (s := { s with pipeline := p₂ }) (by simp [chosen]) (hat₂.plain (.inr rfl)) hat₂.2 nofun
  have hlast : (p₃.inputsAt 3).length = s.published + 1 := by
    rw [hin₃, hin₂, hin₁, hin₀, h.published]
    rfl
  have hsearch := htick.append (h₁.append (h₂.append h₃))
  obtain ⟨bytes, h₄⟩ := (h.viewing.steps hv hcamera hframes (by decide) hsearch).publishes hv
    hcamera hframes hthere hlast hw hidle.connected
  obtain ⟨as₅, p₅, h₅, hel₅, hnow₅, hin₅⟩ := goes_turn v e displayName "main" cap c
    (s := { s with pipeline := p₃, viewers := _, published := s.published + 1 }) (by simp [chosen])
    hat₃.publisher hat₃.2 fun _ => hlast.symm
  obtain ⟨w', hw', hidle'⟩ := hidle.served bytes
  obtain ⟨t, h₆, hviewers, hpipeline, hpublished⟩ := goes_viewer v e displayName "main" cap c
    (s := { s with pipeline := p₅, viewers := _, published := s.published + 1 }) (by simp) rfl hw'
  have hround := hsearch.append (h₄.append (h₅.append h₆))
  refine ⟨_, _, _, hround, h.viewing.steps hv hcamera hframes (by decide) hround, ?_, ?_, ?_,
    w', hviewers, hidle'⟩
  · rw [hpipeline]
    show p₅.now = 40 * (n + 1)
    rw [hnow₅, hnow₃, hnow₂, hnow₁, hnow₀, h.now, Nat.mul_succ]
  · rw [hpipeline]
    exact hel₅
  · rw [hpipeline, hpublished]
    show s.published + 1 = (p₅.inputsAt 3).length
    rw [hin₅, hlast]

/-- A run without end, in which one viewer is served frame after frame. -/
theorem Resting.endless (h : Resting v frames e displayName "main" cap c 0 s) (hv : v.Lawful)
    (hcamera : c.Delivers cap frames) (hframes : ∀ i, v.isEmpty (frames i).1 = false)
    (hthere : ∀ i, e.viewers i "main" = true) :
    ∃ ρ act, ρ 0 = s ∧
      Endless (Watched.step v e displayName "main") (Goes v e displayName "main" cap c) ρ act ∧
      Fair Party.busy Party.acts ρ act ∧ Pipeline.TimePasses fun n => (ρ n).pipeline := by
  obtain ⟨ρ, act, h0, hrun, hrests⟩ := exists_endless
    (fun _ _ hr => Resting.round hr hv hcamera hframes hthere) h
  refine ⟨ρ, act, h0, hrun, fun p n hbusy => ?_, fun time n => ?_⟩
  · obtain ⟨m, hm, hr⟩ := hrests n
    exact absurd (hbusy m hm) (hr.still p)
  · obtain ⟨m, hm, hr⟩ := hrests (n + time)
    refine ⟨m, Nat.le_trans (Nat.le_add_right n time) hm, ?_⟩
    rw [hr.now]
    omega

/-- Somebody is there all the time. -/
def onlooker : Surroundings where
  viewers _ _ := true
  stats _ := ""

/-- The first viewer of the yard connects before the first frame, and is shown
the hundredth. -/
theorem frames_are_shown_hundredth :
    ∃ (ρ : Nat → Watched (Option Nat)) (act : Nat → Action (Option Nat)),
      Endless (Watched.step Vision.numbers onlooker "Yard" "main")
        (Goes Vision.numbers onlooker "Yard" "main" (.file [some 3, some 8])
          (.onFile "yard.avi" 1)) ρ act ∧
      Fair Party.busy Party.acts ρ act ∧ (Pipeline.TimePasses fun n => (ρ n).pipeline) ∧
      ∃ m c₁, (ρ m).viewers[0]? = some c₁ ∧ (c₁.hasFailed = true ∨
        c₁.Shown (imageOf Vision.numbers twoImages onlooker "Yard" "main") 0 100) := by
  obtain ⟨sc, hsc, hnow, hel, hlog⟩ : ∃ sc : Scene (Picture (Option Nat) Bytes),
      Scene.construct ⟨fun _ (_ : Unit) => 40, fun _ _ => 40⟩ "Yard" (.ok 25) () 0 0 = .ok sc ∧
        sc.pipeline.now = 0 ∧ sc.pipeline.pipeline.elements = sceneElements 40 1 ∧
        sc.pipeline.log = [] := ⟨_, rfl, rfl, rfl, rfl⟩
  have hviewer : exec StreamConnection.step {} [.sendInitialHeaders, .returnHeaders,
      .connectToSignal, .storeConnection, .completeWrite 0 false, .runHandler] =
      some (StreamConnection.lapBase 0) := rfl
  have hjoin : Steps (Watched.step Vision.numbers onlooker "Yard" "main")
      (Goes Vision.numbers onlooker "Yard" "main" (.file [some 3, some 8]) (.onFile "yard.avi" 1))
      { pipeline := sc.pipeline } [.join] { pipeline := sc.pipeline, viewers := [{}] } :=
    .single ⟨trivial, nofun⟩ rfl
  obtain ⟨s₀, hconnects, hviewers, hpipeline, hpublished⟩ := goes_viewer Vision.numbers onlooker
    "Yard" "main" (.file [some 3, some 8]) (.onFile "yard.avi" 1)
    (s := { pipeline := sc.pipeline, viewers := [{}] }) (by simp) rfl hviewer
  have hstart := hjoin.append hconnects
  have hinputs : (sc.pipeline.inputsAt 3).length = 0 := by
    rw [Pipeline.State.inputsAt, Pipeline.State.startedAt, hlog]
    rfl
  have hviewing := (viewing_start hsc).steps Vision.numbers_lawful delivers_twoImages
    twoImages_full (by decide) hstart
  have hrests : Resting Vision.numbers twoImages onlooker "Yard" "main" (.file [some 3, some 8])
      (.onFile "yard.avi" 1) 0 s₀ := by
    refine ⟨hviewing, ?_, ?_, ?_, _, hviewers, rfl, rfl, rfl, rfl⟩
    · rw [hpipeline]
      exact hnow
    · rw [hpipeline]
      exact hel
    · rw [hpublished, hpipeline]
      exact hinputs.symm
  obtain ⟨ρ, act, rfl, hrun, hfair, htime⟩ := hrests.endless Vision.numbers_lawful
    delivers_twoImages twoImages_full fun _ => rfl
  have hi : (ρ 0).viewers[0]? = some (StreamConnection.lapBase 0) := by
    rw [hviewers]
    rfl
  obtain ⟨first, -, hfirst, hall⟩ := frames_are_shown hsc Vision.numbers_lawful delivers_twoImages
    twoImages_full (by decide) hstart hrun hfair htime hi rfl
  rw [hpublished] at hfirst hall
  obtain rfl := Nat.le_zero.mp hfirst
  obtain ⟨m, c₁, -, hc₁, hshown⟩ := hall 100 (Nat.zero_le _) rfl
  exact ⟨ρ, act, hrun, hfair, htime, m, c₁, hc₁, hshown⟩

end Watched

end SecMon
