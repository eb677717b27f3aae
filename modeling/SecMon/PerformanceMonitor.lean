import Mathlib.Algebra.Order.Field.Rat
import Mathlib.Data.List.Chain
import Mathlib.Data.Rat.Floor
import Mathlib.Tactic.Linarith

/-!
# The performance monitor

`PerformanceMonitor.cpp`: the CPU usage between two samples of `times()`, as the
scene publisher shows it.  The divisions are those of the rational numbers, the
conversions from `double` to `int` and from there to `unsigned int` are the ones
of C++.

* `cpuUsage_le_iff`: the usage is a percentage exactly if the new sample is ahead
  of the last one.  Otherwise `-1` is stored, as `4294967295`.
* `figures_iff`: over a run, all figures are percentages exactly if every sample
  taken is ahead of the one before it.  That no more time is used than there is
  need only hold where it is.
-/

namespace SecMon

/-- What `times()` returns, and the system and user time that it fills in. -/
structure TimeSample where
  now : Int
  tmsStime : Int
  tmsUtime : Int
  deriving DecidableEq, Repr

namespace TimeSample

/-- The CPU time used since the sample `a`. -/
def used (a b : TimeSample) : Int := (b.tmsStime - a.tmsStime) + (b.tmsUtime - a.tmsUtime)

/-- No more CPU time is used than `n` processors have in the ticks elapsed. -/
def Within (n : Int) (a b : TimeSample) : Prop := a.used b ≤ (b.now - a.now) * n

/-- The clock has moved on, and no CPU time has wrapped around. -/
def Ahead (a b : TimeSample) : Prop :=
  a.now < b.now ∧ a.tmsStime ≤ b.tmsStime ∧ a.tmsUtime ≤ b.tmsUtime

instance (n : Int) (a b : TimeSample) : Decidable (Within n a b) :=
  inferInstanceAs (Decidable (_ ≤ _))

instance (a b : TimeSample) : Decidable (Ahead a b) := inferInstanceAs (Decidable (_ ∧ _))

end TimeSample

/-- `PerformanceMonitor`.  `lastPerfTime` is in nanoseconds. -/
structure PerformanceMonitor where
  interval : Int
  numberOfProcessors : Int
  lastCpuUsage : Int
  lastSystemCpuUsage : Int
  lastUserCpuUsage : Int
  lastPerfTime : Int
  peakRssMb : Nat := 0
  currentRssMb : Nat := 0
  cpuUsage : BitVec 32 := 0
  deriving DecidableEq, Repr

/-- What a call of `get_performance_string` may read: the clock, for the test and
again where it is stored, the memory, and the times. -/
structure PerformanceReading where
  tested : Int
  stored : Int
  peakRssMb : Nat
  currentRssMb : Nat
  timeSample : TimeSample
  deriving DecidableEq, Repr

namespace PerformanceMonitor

open TimeSample (Within Ahead)

/-- `static_cast<int>` of a `double` in the range of an `int`. -/
def toInt (x : ℚ) : Int := x.num.tdiv x.den

/-- The `percent` of `get_current_cpu_usage`. -/
def percent (m : PerformanceMonitor) (timeSample : TimeSample) : ℚ :=
  if timeSample.now ≤ m.lastCpuUsage ∨ timeSample.tmsStime < m.lastSystemCpuUsage ∨
      timeSample.tmsUtime < m.lastUserCpuUsage then
    -- "Overflow detection. Just skip this value."
    -1
  else
    let percent : ℚ := ((timeSample.tmsStime - m.lastSystemCpuUsage) +
      (timeSample.tmsUtime - m.lastUserCpuUsage) : Int)
    let percent := percent / (timeSample.now - m.lastCpuUsage : Int)
    let percent := percent / m.numberOfProcessors
    percent * 100

/-- `get_current_cpu_usage`. -/
def getCurrentCpuUsage (m : PerformanceMonitor) (timeSample : TimeSample) :
    PerformanceMonitor × BitVec 32 :=
  ({ m with
      lastCpuUsage := timeSample.now
      lastSystemCpuUsage := timeSample.tmsStime
      lastUserCpuUsage := timeSample.tmsUtime },
    BitVec.ofInt 32 (toInt (m.percent timeSample)))

/-- `cpu_usage_ = get_current_cpu_usage()`, with the memory figures before it. -/
def refresh (m : PerformanceMonitor) (peakRssMb currentRssMb : Nat) (timeSample : TimeSample) :
    PerformanceMonitor :=
  let m := { m with peakRssMb := peakRssMb, currentRssMb := currentRssMb }
  let (m, usage) := m.getCurrentCpuUsage timeSample
  { m with cpuUsage := usage }

/-- `number_of_processors_`: the lines of `/proc/cpuinfo`, as `fgets` cuts them, that
begin with `processor`. -/
def processors (cpuinfo : List (List Char)) : Nat :=
  cpuinfo.countP fun line => "processor".toList.isPrefixOf line

/-- The constructor.  It takes two samples. -/
def construct (interval : Int) (cpuinfo : List (List Char)) (now : Int)
    (peakRssMb currentRssMb : Nat) (first second : TimeSample) : PerformanceMonitor :=
  let m : PerformanceMonitor := {
    interval := interval
    numberOfProcessors := processors cpuinfo
    lastCpuUsage := first.now
    lastSystemCpuUsage := first.tmsStime
    lastUserCpuUsage := first.tmsUtime
    lastPerfTime := now }
  m.refresh peakRssMb currentRssMb second

/-- Whether more than the interval has passed, in whole milliseconds. -/
def due (m : PerformanceMonitor) (reading : PerformanceReading) : Bool :=
  (reading.tested - m.lastPerfTime).tdiv 1000000 > m.interval

/-- The text of `get_performance_string`. -/
def text (m : PerformanceMonitor) : String :=
  "CPU: " ++ toString m.cpuUsage.toNat ++ "%  Curr: " ++ toString m.currentRssMb ++
    "Mb  Peak: " ++ toString m.peakRssMb ++ "Mb"

/-- `get_performance_string`. -/
def getPerformanceString (m : PerformanceMonitor) (reading : PerformanceReading) :
    PerformanceMonitor × String :=
  let m :=
    if m.due reading then
      { m with lastPerfTime := reading.stored }.refresh reading.peakRssMb reading.currentRssMb
        reading.timeSample
    else
      m
  (m, m.text)

/-! ## One sample -/

/-- The sample that the next one is compared with. -/
def lastSample (m : PerformanceMonitor) : TimeSample :=
  ⟨m.lastCpuUsage, m.lastSystemCpuUsage, m.lastUserCpuUsage⟩

theorem toInt_eq_floor {x : ℚ} (hx : 0 ≤ x) : toInt x = ⌊x⌋ := by
  rw [toInt, Int.tdiv_eq_ediv_of_nonneg (Rat.num_nonneg.mpr hx), Rat.floor_def']

theorem percent_of_not_ahead {m : PerformanceMonitor} {s : TimeSample}
    (h : ¬Ahead m.lastSample s) : m.percent s = -1 := by
  apply if_pos
  simp only [Ahead, lastSample] at h
  omega

theorem percent_of_ahead {m : PerformanceMonitor} {s : TimeSample} (h : Ahead m.lastSample s) :
    m.percent s =
      (m.lastSample.used s : ℚ) / (s.now - m.lastCpuUsage : Int) / m.numberOfProcessors * 100 := by
  apply if_neg
  simp only [Ahead, lastSample] at h
  omega

theorem percent_mem {m : PerformanceMonitor} {s : TimeSample} (hn : 1 ≤ m.numberOfProcessors)
    (hw : Within m.numberOfProcessors m.lastSample s) (h : Ahead m.lastSample s) :
    0 ≤ m.percent s ∧ m.percent s ≤ 100 := by
  rw [percent_of_ahead h]
  obtain ⟨hnow, hstime, hutime⟩ := h
  have hused : 0 ≤ m.lastSample.used s := by
    rw [TimeSample.used]
    omega
  have hn0 : (0 : ℚ) < m.numberOfProcessors := by exact_mod_cast (by omega)
  have hticks : (0 : ℚ) < (s.now - m.lastCpuUsage : Int) := by
    exact_mod_cast Int.sub_pos.mpr hnow
  have husedq : (0 : ℚ) ≤ m.lastSample.used s := by exact_mod_cast hused
  have hw' : (m.lastSample.used s : ℚ) ≤
      (s.now - m.lastCpuUsage : Int) * m.numberOfProcessors := by exact_mod_cast hw
  have hshare : (m.lastSample.used s : ℚ) / (s.now - m.lastCpuUsage : Int) /
      m.numberOfProcessors ≤ 1 := by
    rw [div_div, div_le_one (mul_pos hticks hn0)]
    exact hw'
  have hshare0 : 0 ≤ (m.lastSample.used s : ℚ) / (s.now - m.lastCpuUsage : Int) /
      m.numberOfProcessors := div_nonneg (div_nonneg husedq hticks.le) hn0.le
  constructor <;> linarith

/-- **The usage is a percentage exactly if the sample is ahead of the last one.** -/
theorem cpuUsage_le_iff {m : PerformanceMonitor} {s : TimeSample} (hn : 1 ≤ m.numberOfProcessors)
    (hw : Ahead m.lastSample s → Within m.numberOfProcessors m.lastSample s) :
    (m.getCurrentCpuUsage s).2.toNat ≤ 100 ↔ Ahead m.lastSample s := by
  rw [getCurrentCpuUsage, BitVec.toNat_ofInt]
  by_cases h : Ahead m.lastSample s
  · obtain ⟨h0, h100⟩ := percent_mem hn (hw h) h
    have hfloor0 : 0 ≤ ⌊m.percent s⌋ := Int.floor_nonneg.mpr h0
    have hfloor : ⌊m.percent s⌋ ≤ 100 := by
      have hle := (Int.floor_le (m.percent s)).trans h100
      exact_mod_cast hle
    rw [toInt_eq_floor h0]
    simp only [h, iff_true]
    omega
  · have htoInt : toInt (-1) = -1 := by decide +kernel
    rw [percent_of_not_ahead h, htoInt]
    simp only [h, iff_false]
    decide

/-! ## Runs -/

/-- The calls of `get_performance_string`, each with the state it leaves and its text. -/
def run (m : PerformanceMonitor) : List PerformanceReading → List (PerformanceMonitor × String)
  | [] => []
  | reading :: readings =>
    m.getPerformanceString reading :: run (m.getPerformanceString reading).1 readings

/-- The samples that these calls take. -/
def samples (m : PerformanceMonitor) : List PerformanceReading → List TimeSample
  | [] => []
  | reading :: readings =>
    if m.due reading then
      reading.timeSample :: samples (m.getPerformanceString reading).1 readings
    else
      samples (m.getPerformanceString reading).1 readings

/-- **A refresh shows a percentage exactly if its sample is ahead.** -/
theorem refresh_cpuUsage_le_iff {m : PerformanceMonitor} {s : TimeSample} {peak current : Nat}
    (hn : 1 ≤ m.numberOfProcessors)
    (hw : Ahead m.lastSample s → Within m.numberOfProcessors m.lastSample s) :
    (m.refresh peak current s).cpuUsage.toNat ≤ 100 ↔ Ahead m.lastSample s :=
  cpuUsage_le_iff hn hw

theorem getPerformanceString_of_due {m : PerformanceMonitor} {reading : PerformanceReading}
    (h : m.due reading = true) (hn : 1 ≤ m.numberOfProcessors)
    (hw : Ahead m.lastSample reading.timeSample →
      Within m.numberOfProcessors m.lastSample reading.timeSample) :
    ∃ m', (m.getPerformanceString reading).1 = m' ∧ m'.lastSample = reading.timeSample ∧
      m'.numberOfProcessors = m.numberOfProcessors ∧
      (m'.cpuUsage.toNat ≤ 100 ↔ Ahead m.lastSample reading.timeSample) :=
  ⟨_, if_pos h, rfl, rfl, refresh_cpuUsage_le_iff hn hw⟩

theorem getPerformanceString_of_not_due {m : PerformanceMonitor} {reading : PerformanceReading}
    (h : ¬m.due reading = true) : (m.getPerformanceString reading).1 = m := if_neg h

theorem text_of_mem_run {readings : List PerformanceReading} :
    ∀ {m : PerformanceMonitor}, ∀ p ∈ m.run readings, p.2 = p.1.text := by
  induction readings with
  | nil =>
    intro m p hp
    cases hp
  | cons reading readings ih =>
    intro m p hp
    cases List.mem_cons.mp hp with
    | inl hp => exact hp ▸ rfl
    | inr hp => exact ih p hp

/-- The figures of the calls, from a state that shows a percentage. -/
theorem run_iff (readings : List PerformanceReading) : ∀ m : PerformanceMonitor,
    1 ≤ m.numberOfProcessors → m.cpuUsage.toNat ≤ 100 →
    ((m.lastSample :: m.samples readings).IsChain fun a b =>
      Ahead a b → Within m.numberOfProcessors a b) →
    ((∀ p ∈ m.run readings, p.1.cpuUsage.toNat ≤ 100) ↔
      (m.lastSample :: m.samples readings).IsChain Ahead) := by
  induction readings with
  | nil =>
    intro m _ _ _
    simp [run, samples]
  | cons reading readings ih =>
    intro m hn hm hw
    rw [run, List.forall_mem_cons]
    by_cases hdue : m.due reading = true
    · rw [samples, if_pos hdue, List.isChain_cons_cons] at hw
      obtain ⟨m', hm', hlast, hnum, hiff⟩ := getPerformanceString_of_due hdue hn hw.1
      rw [hm', ← hlast, ← hnum] at hw
      rw [samples, if_pos hdue, List.isChain_cons_cons, hm', ← hiff, ← hlast]
      apply and_congr_right
      intro hle
      exact ih m' (hnum ▸ hn) hle hw.2
    · rw [samples, if_neg hdue, getPerformanceString_of_not_due hdue] at hw ⊢
      rw [ih m hn hm hw]
      exact and_iff_right hm

/-- **All figures are percentages exactly if every sample is ahead of the one before.** -/
theorem figures_iff (interval : Int) (cpuinfo : List (List Char)) (now : Int)
    (peakRssMb currentRssMb : Nat) (first second : TimeSample)
    (readings : List PerformanceReading) (hn : 1 ≤ processors cpuinfo)
    (hw : (first :: second ::
      (construct interval cpuinfo now peakRssMb currentRssMb first second).samples
        readings).IsChain fun a b => Ahead a b → Within (processors cpuinfo) a b) :
    let m := construct interval cpuinfo now peakRssMb currentRssMb first second
    (m.cpuUsage.toNat ≤ 100 ∧
        ∀ p ∈ m.run readings, p.2 = p.1.text ∧ p.1.cpuUsage.toNat ≤ 100) ↔
      (first :: second :: m.samples readings).IsChain Ahead := by
  intro m
  have hprocessors : 1 ≤ m.numberOfProcessors := Int.ofNat_le.mpr hn
  have hfirst : m.cpuUsage.toNat ≤ 100 ↔ Ahead first second :=
    refresh_cpuUsage_le_iff hprocessors (List.isChain_cons_cons.mp hw).1
  have htext : (∀ p ∈ m.run readings, p.2 = p.1.text ∧ p.1.cpuUsage.toNat ≤ 100) ↔
      ∀ p ∈ m.run readings, p.1.cpuUsage.toNat ≤ 100 :=
    forall₂_congr fun p hp => and_iff_right (text_of_mem_run p hp)
  rw [htext, List.isChain_cons_cons, hfirst]
  apply and_congr_right
  intro hahead
  exact run_iff readings m hprocessors (hfirst.mpr hahead) (List.isChain_cons_cons.mp hw).2

/-- Two refreshes on two processors; the clock has wrapped around before the second,
and more time seems to be used than there is. -/
theorem figures_iff_two :
    let cpuinfo := ["processor\t: 0".toList, "flags".toList, "processor\t: 1".toList]
    let readings : List PerformanceReading :=
      [⟨2000000000, 2000000000, 8, 7, ⟨300, 150, 150⟩⟩, ⟨2500000000, 0, 8, 7, ⟨0, 0, 0⟩⟩,
        ⟨4000000000, 4000000000, 8, 7, ⟨-400, 160, 150⟩⟩]
    let m := construct 1000 cpuinfo 0 8 7 ⟨0, 0, 0⟩ ⟨100, 50, 50⟩
    1 ≤ processors cpuinfo ∧
      (((⟨0, 0, 0⟩ : TimeSample) :: ⟨100, 50, 50⟩ :: m.samples readings).IsChain fun a b =>
        Ahead a b → Within (processors cpuinfo) a b) ∧
      ((m.cpuUsage.toNat ≤ 100 ∧
          ∀ p ∈ m.run readings, p.2 = p.1.text ∧ p.1.cpuUsage.toNat ≤ 100) ↔
        ((⟨0, 0, 0⟩ : TimeSample) :: ⟨100, 50, 50⟩ :: m.samples readings).IsChain Ahead) :=
  ⟨by decide, by decide, figures_iff _ _ _ _ _ _ _ _ (by decide) (by decide)⟩

/-- The second sample of the constructor is taken in the same tick as the first, and
`4294967295` is shown. -/
theorem not_figures :
    ¬∀ (interval : Int) (cpuinfo : List (List Char)) (now : Int) (peakRssMb currentRssMb : Nat)
      (first second : TimeSample) (readings : List PerformanceReading),
      1 ≤ processors cpuinfo →
      (first :: second ::
        (construct interval cpuinfo now peakRssMb currentRssMb first second).samples
          readings).IsChain (Within (processors cpuinfo)) →
      (construct interval cpuinfo now peakRssMb currentRssMb first second).cpuUsage.toNat ≤ 100 ∧
        ∀ p ∈ (construct interval cpuinfo now peakRssMb currentRssMb first second).run readings,
          p.2 = p.1.text ∧ p.1.cpuUsage.toNat ≤ 100 := by
  intro h
  have hfirst := (h 1000 ["processor".toList] 0 8 7 ⟨50, 1, 2⟩ ⟨50, 1, 2⟩ [] (by decide)
    (by decide)).1
  exact absurd hfirst (by decide +kernel)

end PerformanceMonitor

end SecMon
