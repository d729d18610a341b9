import Daxson.Go

/-! # The pacer

Exact rationals, with durations in nanoseconds. The power function of the Pareto draw is a parameter.
-/

namespace Daxson.Bcl

structure ParetoParams where
  alpha : ℚ
  xm : Int
  /-- No limit if zero. -/
  cap : Int
  deriving DecidableEq, Repr

/-- `Sample` with the draw `u`, where `pow` is `math.Pow`. -/
def ParetoParams.sample (pow : ℚ → ℚ → ℚ) (u : ℚ) (p : ParetoParams) : Int :=
  let u := if 1 ≤ u then 1 - 1 / 10 ^ 9 else u
  let x := p.xm / pow (1 - u) (1 / p.alpha)
  if 0 < p.cap ∧ p.cap < toDuration x then p.cap else toDuration x

structure Pacer where
  ewmaLatencyNs : ℚ
  alpha : ℚ
  thresholdNs : ℚ
  rate : ℚ
  interFrameBase : ParetoParams
  deriving DecidableEq, Repr

/-- `NewPacer`, which reads only the threshold of the personality. -/
def newPacer (congestionThreshold : Int) : Pacer where
  ewmaLatencyNs := 1000000
  alpha := 25 / 100
  thresholdNs := congestionThreshold
  rate := 1
  interFrameBase := { alpha := 18 / 10, xm := 300000, cap := 2000000 }

/-- `ObserveWrite`, which does not look at the number of bytes. -/
def Pacer.observeWrite (wallTime : Int) (p : Pacer) : Pacer :=
  let p := { p with ewmaLatencyNs := p.alpha * wallTime + (1 - p.alpha) * p.ewmaLatencyNs }
  if p.thresholdNs < p.ewmaLatencyNs then { p with rate := max (10 / 100) (p.rate * (1 / 2)) }
  else if p.rate < 1 then { p with rate := min 1 (p.rate + 5 / 100) }
  else p

def Pacer.isCongested (p : Pacer) : Bool := decide (p.thresholdNs < p.ewmaLatencyNs)

def Pacer.interFrameDelay (pow : ℚ → ℚ → ℚ) (u : ℚ) (p : Pacer) : Int :=
  let base := p.interFrameBase.sample pow u
  if 1 ≤ p.rate then base else toDuration (base * (1 / p.rate))

def Pacer.burstDelay (p : Pacer) : Int :=
  if p.isCongested = false ∨ 1 ≤ p.rate then 0 else toDuration (10000000 * (1 / p.rate))

/-- The pacer after the calls of `ObserveWrite`. -/
def Pacer.observed (wallTimes : List Int) (p : Pacer) : Pacer :=
  wallTimes.foldl (fun p wallTime => p.observeWrite wallTime) p

/-! ## The draws -/

/-- A positive power of a fraction is a fraction. -/
def KeepsFractions (pow : ℚ → ℚ → ℚ) : Prop := ∀ x y, 0 < x → x ≤ 1 → 0 < y → 0 < pow x y ∧ pow x y ≤ 1

theorem ParetoParams.sample_bounds {pow : ℚ → ℚ → ℚ} (hpow : KeepsFractions pow) {u : ℚ} (hu : 0 ≤ u)
    (p : ParetoParams) (halpha : 0 < p.alpha) (hxm : 0 < p.xm) (hcap : p.xm ≤ p.cap) :
    p.xm ≤ p.sample pow u ∧ p.sample pow u ≤ p.cap := by
  unfold sample
  dsimp only
  generalize hv : (if 1 ≤ u then 1 - 1 / 10 ^ 9 else u) = v
  have hunit : 0 ≤ v ∧ v < 1 := by
    rw [← hv]
    split_ifs with h1
    · norm_num
    · exact ⟨hu, not_le.mp h1⟩
  obtain ⟨hpos, hone⟩ := hpow (1 - v) (1 / p.alpha) (by linarith) (by linarith) (one_div_pos.mpr halpha)
  have hxm' : (0 : ℚ) < p.xm := by exact_mod_cast hxm
  have hx : (p.xm : ℚ) ≤ p.xm / pow (1 - v) (1 / p.alpha) := by
    rw [le_div_iff₀ hpos]
    exact mul_le_of_le_one_right hxm'.le hone
  have hle := le_toDuration hxm.le hx
  split_ifs with hover
  · exact ⟨hcap, le_rfl⟩
  · exact ⟨hle, by omega⟩

/-! ## The rate -/

/-- The rate is a fraction of full speed, and never zero. -/
structure Pacer.Paced (p : Pacer) : Prop where
  floor : 1 / 10 ≤ p.rate
  full : p.rate ≤ 1

theorem newPacer_paced (congestionThreshold : Int) : (newPacer congestionThreshold).Paced :=
  ⟨by norm_num [newPacer], le_rfl⟩

namespace Pacer

variable {p : Pacer}

theorem observeWrite_base (wallTime : Int) (p : Pacer) :
    (p.observeWrite wallTime).interFrameBase = p.interFrameBase := by
  unfold observeWrite
  dsimp only
  split_ifs <;> rfl

theorem observeWrite_paced (wallTime : Int) (h : p.Paced) : (p.observeWrite wallTime).Paced := by
  obtain ⟨hfloor, hfull⟩ := h
  unfold observeWrite
  dsimp only
  split_ifs
  · refine ⟨le_trans (by norm_num) (le_max_left _ _), max_le (by norm_num) ?_⟩
    linarith
  · refine ⟨le_min (by norm_num) ?_, min_le_left _ _⟩
    linarith
  · exact ⟨hfloor, hfull⟩

theorem observeWrite_congested (wallTime : Int) (h : p.Paced)
    (hcong : (p.observeWrite wallTime).isCongested = true) : (p.observeWrite wallTime).rate ≤ 1 / 2 := by
  have hfull := h.full
  unfold isCongested observeWrite at hcong
  unfold observeWrite
  dsimp only at hcong ⊢
  split_ifs at hcong ⊢ with hover hbelow
  · apply max_le (by norm_num)
    linarith
  · exact absurd (decide_eq_true_eq.mp hcong) hover
  · exact absurd (decide_eq_true_eq.mp hcong) hover

theorem observed_snoc (wallTimes : List Int) (wallTime : Int) (p : Pacer) :
    p.observed (wallTimes ++ [wallTime]) = (p.observed wallTimes).observeWrite wallTime := by
  unfold observed
  rw [List.foldl_append, List.foldl_cons, List.foldl_nil]

theorem observed_base (wallTimes : List Int) (p : Pacer) :
    (p.observed wallTimes).interFrameBase = p.interFrameBase := by
  induction wallTimes using List.reverseRecOn with
  | nil => rfl
  | append_singleton wallTimes wallTime ih => rw [observed_snoc, observeWrite_base, ih]

theorem observed_paced (wallTimes : List Int) (h : p.Paced) : (p.observed wallTimes).Paced := by
  induction wallTimes using List.reverseRecOn with
  | nil => exact h
  | append_singleton wallTimes wallTime ih =>
    rw [observed_snoc]
    exact observeWrite_paced wallTime ih

theorem observed_congested {wallTimes : List Int} (hne : wallTimes ≠ []) (h : p.Paced)
    (hcong : (p.observed wallTimes).isCongested = true) : (p.observed wallTimes).rate ≤ 1 / 2 := by
  obtain ⟨before, last, rfl⟩ := (List.eq_nil_or_concat' wallTimes).resolve_left hne
  rw [observed_snoc] at hcong ⊢
  exact observeWrite_congested last (observed_paced before h) hcong

/-! ## The delays -/

theorem Paced.scale (h : p.Paced) {x : ℚ} (hx : 0 ≤ x) : x ≤ x * (1 / p.rate) ∧ x * (1 / p.rate) ≤ 10 * x := by
  have hpos : 0 < p.rate := lt_of_lt_of_le (by norm_num) h.floor
  rw [mul_one_div, le_div_iff₀ hpos, div_le_iff₀ hpos]
  constructor
  · exact mul_le_of_le_one_right hx h.full
  · nlinarith [h.floor]

theorem interFrameDelay_bounds {pow : ℚ → ℚ → ℚ} {u : ℚ} (h : p.Paced) {lo hi : Int} (hlo0 : 0 ≤ lo)
    (hlo : lo ≤ p.interFrameBase.sample pow u) (hhi : p.interFrameBase.sample pow u ≤ hi) :
    lo ≤ p.interFrameDelay pow u ∧ p.interFrameDelay pow u ≤ 10 * hi := by
  unfold interFrameDelay
  dsimp only
  split_ifs
  · exact ⟨hlo, by omega⟩
  · have hbase : (0 : ℚ) ≤ p.interFrameBase.sample pow u := by exact_mod_cast hlo0.trans hlo
    obtain ⟨hmore, hless⟩ := h.scale hbase
    have hlo' : (lo : ℚ) ≤ p.interFrameBase.sample pow u := by exact_mod_cast hlo
    have hhi' : (p.interFrameBase.sample pow u : ℚ) ≤ hi := by exact_mod_cast hhi
    constructor
    · exact le_toDuration hlo0 (hlo'.trans hmore)
    · apply toDuration_le (hbase.trans hmore)
      push_cast
      linarith

theorem burstDelay_of_not_congested (h : p.isCongested = false) : p.burstDelay = 0 := by
  unfold burstDelay
  rw [if_pos (Or.inl h)]

theorem burstDelay_bounds (h : p.Paced) (hcong : p.isCongested = true) (hhalf : p.rate ≤ 1 / 2) :
    20000000 ≤ p.burstDelay ∧ p.burstDelay ≤ 100000000 := by
  have hpos : 0 < p.rate := lt_of_lt_of_le (by norm_num) h.floor
  obtain ⟨hmore, hless⟩ := h.scale (x := 10000000) (by norm_num)
  unfold burstDelay
  rw [if_neg (by simp only [hcong, Bool.true_eq_false, false_or]; linarith)]
  constructor
  · apply le_toDuration (by norm_num)
    rw [mul_one_div, le_div_iff₀ hpos]
    push_cast
    linarith
  · apply toDuration_le (by linarith)
    push_cast
    linarith

/-- What holds of the pacer at any time. A duration is in nanoseconds. -/
structure Bounded (p : Pacer) : Prop where
  rate : 1 / 10 ≤ p.rate ∧ p.rate ≤ 1
  divisor : p.rate ≠ 0
  base : ∀ pow u, KeepsFractions pow → 0 ≤ u →
    p.interFrameBase.xm ≤ p.interFrameBase.sample pow u ∧ p.interFrameBase.sample pow u ≤ p.interFrameBase.cap
  interFrame : ∀ pow u, p.interFrameBase.xm ≤ p.interFrameBase.sample pow u →
    p.interFrameBase.sample pow u ≤ p.interFrameBase.cap →
      300000 ≤ p.interFrameDelay pow u ∧ p.interFrameDelay pow u ≤ 20000000
  noBurstDelay : p.isCongested = false → p.burstDelay = 0

/-- What holds of a congested pacer that has seen a write. -/
structure Slowed (p : Pacer) : Prop where
  rate : p.rate ≤ 1 / 2
  burstDelay : 20000000 ≤ p.burstDelay ∧ p.burstDelay ≤ 100000000

theorem Paced.bounded {congestionThreshold : Int} (h : p.Paced)
    (hbase : p.interFrameBase = (newPacer congestionThreshold).interFrameBase) : p.Bounded := by
  refine ⟨⟨h.floor, h.full⟩, ?_, fun pow u hpow hu => ?_, fun pow u hlo hhi => ?_, burstDelay_of_not_congested⟩
  · exact (lt_of_lt_of_le (by norm_num) h.floor).ne'
  · rw [hbase]
    exact ParetoParams.sample_bounds hpow hu _ (by norm_num [newPacer]) (by norm_num [newPacer])
      (by norm_num [newPacer])
  · have hxm : p.interFrameBase.xm = 300000 := by rw [hbase]; rfl
    have hcap : p.interFrameBase.cap = 2000000 := by rw [hbase]; rfl
    rw [hxm] at hlo
    rw [hcap] at hhi
    exact interFrameDelay_bounds h (by norm_num) hlo hhi

end Pacer

/-- **The pacer's rate** stays between a tenth and one, so that no delay divides by zero. -/
theorem pacer_invariant (congestionThreshold : Int) (wallTimes : List Int) :
    ((newPacer congestionThreshold).observed wallTimes).Bounded ∧
      (wallTimes ≠ [] → ((newPacer congestionThreshold).observed wallTimes).isCongested = true →
        ((newPacer congestionThreshold).observed wallTimes).Slowed) := by
  have hnew := newPacer_paced congestionThreshold
  have hpaced := Pacer.observed_paced wallTimes hnew
  refine ⟨hpaced.bounded (Pacer.observed_base wallTimes _), fun hne hcong => ?_⟩
  have hhalf := Pacer.observed_congested hne hnew hcong
  exact ⟨hhalf, Pacer.burstDelay_bounds hpaced hcong hhalf⟩

end Daxson.Bcl
