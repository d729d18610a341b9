import Daxson.Tunnel.Run

/-! # The reconnect delays

The delays form a fixed schedule, and a run waits some of it, over and over from the start.
-/

open Lib.Machine

namespace Daxson.Reconnect

/-! ## The schedule -/

/-- The delay after `k` failed attempts, before its jitter. -/
def RunCfg.delay (cfg : RunCfg) : Nat → Int64
  | 0 => cfg.baseDelay
  | k + 1 => nextBackoff cfg (cfg.delay k)

structure RunCfg.Ordered (cfg : RunCfg) : Prop where
  base_pos : 0 < cfg.baseDelay.toInt
  base_le : cfg.baseDelay.toInt ≤ cfg.maxDelay.toInt
  multiplier_pos : 0 < cfg.multiplier

theorem truncate_of_nonneg {q : ℚ} (hq : 0 ≤ q) : truncate q = ⌊q⌋ := toDuration_of_nonneg hq

section Schedule

variable {cfg : RunCfg} (h : cfg.Ordered)
include h

theorem le_nextBackoff_iff {b : Int64} (hb : 0 ≤ b.toInt) (z : Int) :
    z ≤ (nextBackoff cfg b).toInt ↔ z ≤ cfg.maxDelay.toInt ∧ (z : ℚ) ≤ b.toInt * cfg.multiplier := by
  have hmax : 0 ≤ cfg.maxDelay.toInt := h.base_pos.le.trans h.base_le
  have hq : 0 ≤ min (cfg.maxDelay.toInt : ℚ) (b.toInt * cfg.multiplier) :=
    le_min (by exact_mod_cast hmax) (mul_nonneg (by exact_mod_cast hb) h.multiplier_pos.le)
  have hfloor : 0 ≤ ⌊min (cfg.maxDelay.toInt : ℚ) (b.toInt * cfg.multiplier)⌋ := Int.floor_nonneg.mpr hq
  have htop : ⌊min (cfg.maxDelay.toInt : ℚ) (b.toInt * cfg.multiplier)⌋ ≤ cfg.maxDelay.toInt := by
    rw [← Int.floor_intCast (R := ℚ) cfg.maxDelay.toInt]
    exact Int.floor_le_floor (by simp)
  have hlt := cfg.maxDelay.toInt_lt
  unfold nextBackoff
  rw [truncate_of_nonneg hq, Int64.toInt_ofInt_of_le (by omega) (by omega), Int.le_floor, le_min_iff, Int.cast_le]

theorem delay_bounds (k : Nat) : 0 ≤ (cfg.delay k).toInt ∧ (cfg.delay k).toInt ≤ cfg.maxDelay.toInt := by
  induction k with
  | zero => exact ⟨h.base_pos.le, h.base_le⟩
  | succ k ih =>
    have hiff := le_nextBackoff_iff h ih.1
    refine ⟨(hiff 0).mpr ⟨h.base_pos.le.trans h.base_le, ?_⟩, ((hiff _).mp le_rfl).1⟩
    have hk : (0 : ℚ) ≤ (cfg.delay k).toInt := by exact_mod_cast ih.1
    simpa using mul_nonneg hk h.multiplier_pos.le

theorem base_le_delay (hmult : 1 ≤ cfg.multiplier) (k : Nat) : cfg.baseDelay.toInt ≤ (cfg.delay k).toInt := by
  induction k with
  | zero => exact le_rfl
  | succ k ih =>
    refine (le_nextBackoff_iff h (delay_bounds h k).1 _).mpr ⟨h.base_le, ?_⟩
    have hk : (0 : ℚ) ≤ (cfg.delay k).toInt := by exact_mod_cast (delay_bounds h k).1
    calc (cfg.baseDelay.toInt : ℚ) ≤ (cfg.delay k).toInt := by exact_mod_cast ih
      _ ≤ (cfg.delay k).toInt * cfg.multiplier := le_mul_of_one_le_right hk hmult

theorem delay_one_lt (hmult : cfg.multiplier < 1) : (cfg.delay 1).toInt < cfg.baseDelay.toInt := by
  by_contra hge
  have hle := ((le_nextBackoff_iff h h.base_pos.le _).mp (not_lt.mp hge)).2
  have hbase : (0 : ℚ) < cfg.baseDelay.toInt := by exact_mod_cast h.base_pos
  have hlt := mul_lt_of_lt_one_right hbase hmult
  exact absurd hle (not_le.mpr hlt)

end Schedule

/-! ## One delay -/

theorem quarter {b : Int64} (hb : 0 ≤ b.toInt) : (b / 4).toInt = b.toInt / 4 := by
  have hmin : b ≠ Int64.minValue := by
    rintro rfl
    exact absurd hb (by decide)
  rw [Int64.toInt_div_of_ne_left b 4 hmin, Int.tdiv_eq_ediv_of_nonneg hb]
  rfl

theorem jitter_zero {b : Int64} (hb : b.toInt = 0) (draw : Int64) : jitter b draw = some (.delay 0) := by
  unfold jitter
  rw [if_pos (Int64.le_iff_toInt_le.mpr hb.le)]

theorem jitter_panic {b : Int64} (hpos : 0 < b.toInt) (hb : b.toInt < 4) (draw : Int64) :
    jitter b draw = some .panic := by
  have hle : ¬ b ≤ 0 := by
    rw [Int64.le_iff_toInt_le]
    exact not_le.mpr hpos
  have hquarter : b / 4 ≤ 0 := by
    rw [Int64.le_iff_toInt_le, quarter hpos.le, Int.ediv_eq_zero_of_lt hpos.le hb]
    rfl
  unfold jitter
  rw [if_neg hle, if_pos hquarter]

theorem jitter_of_le {b : Int64} (hb : 4 ≤ b.toInt) (draw : Int64) :
    jitter b draw = if 0 ≤ draw.toInt ∧ draw.toInt < b.toInt / 4 then some (.delay draw) else none := by
  have hnonneg : 0 ≤ b.toInt := by omega
  have hle : ¬ b ≤ 0 := by
    rw [Int64.le_iff_toInt_le, Int64.toInt_zero]
    omega
  have hquarter : ¬ b / 4 ≤ 0 := by
    rw [Int64.le_iff_toInt_le, quarter hnonneg, Int64.toInt_zero]
    omega
  unfold jitter
  rw [if_neg hle, if_neg hquarter]
  simp only [Int64.le_iff_toInt_le, Int64.lt_iff_toInt_lt, quarter hnonneg, Int64.toInt_zero]

theorem jitter_of_zero_draw (b : Int64) : ∃ j, jitter b 0 = some j := by
  unfold jitter
  split_ifs with hle hquarter hdraw
  · exact ⟨_, rfl⟩
  · exact ⟨_, rfl⟩
  · exact ⟨_, rfl⟩
  · exact absurd ⟨Int64.le_refl 0, Int64.not_le.mp hquarter⟩ hdraw

/-! ## Every wait -/

def Within (cfg : RunCfg) (w : Int64) : Prop :=
  cfg.baseDelay.toInt ≤ w.toInt ∧ 4 * w.toInt ≤ 5 * cfg.maxDelay.toInt

/-- Whatever is drawn for the delay `b`, there is a wait and it is within bounds. -/
def Safe (cfg : RunCfg) (b : Int64) : Prop :=
  ∀ draw j, jitter b draw = some j → ∃ d, j = .delay d ∧ Within cfg (b + d)

/-- The greatest delay whose wait cannot overflow, some 233 years. -/
def longestDelay : Int := 7378697629483820647

theorem add_toInt {b d : Int64} (hb : 0 ≤ b.toInt) (hd : 0 ≤ d.toInt) :
    (b + d).toInt = if b.toInt + d.toInt < 2 ^ 63 then b.toInt + d.toInt else b.toInt + d.toInt - 2 ^ 64 := by
  have hblt := b.toInt_lt
  have hdlt := d.toInt_lt
  rw [Int64.toInt_add, Int.bmod_def]
  split_ifs <;> omega

theorem safe_iff {cfg : RunCfg} (h : cfg.Ordered) {b : Int64} (hb : 0 ≤ b.toInt)
    (hmax : b.toInt ≤ cfg.maxDelay.toInt) :
    Safe cfg b ↔ 4 ≤ b.toInt ∧ cfg.baseDelay.toInt ≤ b.toInt ∧ b.toInt ≤ longestDelay := by
  have hbase := h.base_pos
  unfold Safe longestDelay
  constructor
  · intro hsafe
    have hfour : 4 ≤ b.toInt := by
      by_contra hlt
      rcases hb.lt_or_eq with hpos | hzero
      · obtain ⟨d, hd, -⟩ := hsafe 0 _ (jitter_panic hpos (by omega) 0)
        cases hd
      · obtain ⟨d, hd, hlow, -⟩ := hsafe 0 _ (jitter_zero hzero.symm 0)
        cases hd
        rw [add_toInt hb le_rfl, Int64.toInt_zero] at hlow
        omega
    have hdrawn : ∀ draw : Int64, 0 ≤ draw.toInt → draw.toInt < b.toInt / 4 →
        cfg.baseDelay.toInt ≤ (b + draw).toInt := by
      intro draw hdraw hlt
      obtain ⟨d, hd, hlow, -⟩ := hsafe draw _ ((jitter_of_le hfour draw).trans (if_pos ⟨hdraw, hlt⟩))
      cases hd
      exact hlow
    refine ⟨hfour, ?_, ?_⟩
    · have hlow := hdrawn 0 le_rfl (by rw [Int64.toInt_zero]; omega)
      rwa [Int64.add_zero] at hlow
    · -- The greatest draw overflows for any longer delay.
      by_contra hlong
      have hlt := b.toInt_lt
      have hdraw : (Int64.ofInt (b.toInt / 4 - 1)).toInt = b.toInt / 4 - 1 :=
        Int64.toInt_ofInt_of_le (by omega) (by omega)
      have hlow := hdrawn _ (by rw [hdraw]; omega) (by rw [hdraw]; omega)
      rw [add_toInt hb (by rw [hdraw]; omega), hdraw, if_neg (by omega)] at hlow
      omega
  · rintro ⟨hfour, hlow, hlong⟩ draw j hj
    rw [jitter_of_le hfour] at hj
    split_ifs at hj with hdraw
    obtain rfl := Option.some.inj hj
    refine ⟨draw, rfl, ?_, ?_⟩
    · rw [add_toInt hb hdraw.1, if_pos (by omega)]
      omega
    · rw [add_toInt hb hdraw.1, if_pos (by omega)]
      omega

/-! ## Runs -/

/-- No run meets the panic of `rand.Int63n`, and no wait of a run is out of bounds. -/
def DelaysBounded (cfg : RunCfg) : Prop :=
  ∀ acts s, run (Runner.step cfg) (Runner.start cfg) acts = some s →
    s.point ≠ .panicked ∧ ∀ w ∈ s.waits, Within cfg w

structure Paced (cfg : RunCfg) (s : Runner) : Prop where
  backoff : s.backoff = cfg.delay s.attempt
  point : s.point ≠ .panicked
  waits : ∀ w ∈ s.waits, Within cfg w

theorem paced_step {cfg : RunCfg} (hsafe : ∀ k, cfg.givesUp k = false → Safe cfg (cfg.delay k)) {s s' : Runner}
    (h : Paced cfg s) (hs : Stepped cfg s s') : Paced cfg s' := by
  cases hs with
  | panicked hp hlive hgo hj =>
    obtain ⟨draw, hj⟩ := hj
    rw [h.backoff] at hj
    obtain ⟨d, hd, -⟩ := hsafe _ hgo draw _ hj
    cases hd
  | wait draw d hp hlive hgo hj =>
    rw [h.backoff] at hj
    obtain ⟨d', hd, hwithin⟩ := hsafe _ hgo draw _ hj
    cases hd
    refine ⟨h.backoff, by simp, fun w hw => ?_⟩
    rcases List.mem_append.mp hw with hw | hw
    · exact h.waits w hw
    · rw [List.mem_singleton.mp hw, h.backoff]
      exact hwithin
  | waited hp =>
    refine ⟨?_, by simp, h.waits⟩
    rw [h.backoff]
    rfl
  | closeOld old hp closed hclosed =>
    refine ⟨rfl, ?_, h.waits⟩
    change s.session.elim Point.dial .session ≠ .panicked
    cases s.session <;> simp
  | idle | breaks | cancel => exact ⟨h.backoff, h.point, h.waits⟩
  | _ => exact ⟨h.backoff, by simp, h.waits⟩

/-- Before a dial, with `k` attempts failed. -/
structure Trying (cfg : RunCfg) (k : Nat) (s : Runner) : Prop where
  point : s.point = .dial
  live : s.cancelled = false
  attempt : s.attempt = k
  backoff : s.backoff = cfg.delay k

theorem Trying.fail {cfg : RunCfg} {k : Nat} {s : Runner} (h : Trying cfg k s) (hgo : cfg.givesUp k = false)
    {draw : Int64} {j : Jitter} (hj : jitter (cfg.delay k) draw = some j) :
    run (Runner.step cfg) s [.dialFails, .retry draw] = some ({ s with point := .failed }.await j) := by
  obtain ⟨hpoint, hlive, rfl, hbackoff⟩ := h
  have hdial : s.step cfg .dialFails = some { s with point := .failed } := if_pos hpoint
  have hretry : Runner.step cfg { s with point := .failed } (.retry draw) =
      some ({ s with point := .failed }.await j) := by
    change ({ s with point := .failed } : Runner).retry cfg draw = _
    simp [Runner.retry, hlive, hgo, hbackoff, hj]
  rw [run_cons, hdial, Option.bind_some, run_cons, hretry]
  rfl

theorem givesUp_eq_false {cfg : RunCfg} {k : Nat} :
    cfg.givesUp k = false ↔ cfg.reconnect.maxRetries.toInt < 0 ∨ (k : Int) < cfg.reconnect.maxRetries.toInt := by
  unfold RunCfg.givesUp
  rw [Bool.and_eq_false_iff, decide_eq_false_iff_not, decide_eq_false_iff_not, not_le, not_le]

theorem givesUp_of_le {cfg : RunCfg} {j k : Nat} (hle : j ≤ k) (hk : cfg.givesUp k = false) :
    cfg.givesUp j = false := by
  rw [givesUp_eq_false] at hk ⊢
  omega

section Reach

variable {cfg : RunCfg} (h : DelaysBounded cfg)
include h

theorem exists_trying (k : Nat) (hk : ∀ j < k, cfg.givesUp j = false) :
    ∃ acts s, run (Runner.step cfg) (Runner.start cfg) acts = some s ∧ Trying cfg k s := by
  induction k with
  | zero => exact ⟨[], _, rfl, rfl, rfl, rfl, rfl⟩
  | succ k ih =>
    obtain ⟨acts, s, hrun, htrying⟩ := ih fun j hj => hk j (by omega)
    obtain ⟨j, hj⟩ := jitter_of_zero_draw (cfg.delay k)
    have hfail := htrying.fail (hk k (by omega)) hj
    have hwait : run (Runner.step cfg) (Runner.start cfg) (acts ++ [.dialFails, .retry 0]) =
        some ({ s with point := .failed }.await j) := by
      rw [run_append, hrun]
      exact hfail
    cases j with
    | panic => exact absurd rfl (h _ _ hwait).1
    | delay d =>
      refine ⟨(acts ++ [.dialFails, .retry 0]) ++ [.waited],
        { s with
          backoff := nextBackoff cfg s.backoff, attempt := s.attempt + 1, point := .dial
          waits := s.waits ++ [s.backoff + d] }, ?_, ?_⟩
      · rw [run_append, hwait]
        rfl
      · obtain ⟨-, hlive, rfl, hbackoff⟩ := htrying
        exact ⟨rfl, hlive, rfl, congrArg (nextBackoff cfg) hbackoff⟩

theorem safe_of_bounded (k : Nat) (hk : cfg.givesUp k = false) : Safe cfg (cfg.delay k) := by
  intro draw j hj
  obtain ⟨acts, s, hrun, htrying⟩ := exists_trying h k fun j hj => givesUp_of_le hj.le hk
  have hwait : run (Runner.step cfg) (Runner.start cfg) (acts ++ [.dialFails, .retry draw]) =
      some ({ s with point := .failed }.await j) := by
    rw [run_append, hrun]
    exact htrying.fail hk hj
  obtain ⟨hpoint, hwaits⟩ := h _ _ hwait
  cases j with
  | panic => exact absurd rfl hpoint
  | delay d =>
    refine ⟨d, rfl, ?_⟩
    rw [← htrying.backoff]
    exact hwaits _ (List.mem_append_right _ (List.mem_singleton.mpr rfl))

end Reach

theorem bounded_iff_safe {cfg : RunCfg} :
    DelaysBounded cfg ↔ ∀ k, cfg.givesUp k = false → Safe cfg (cfg.delay k) := by
  constructor
  · exact safe_of_bounded
  · intro hsafe acts s hrun
    have hstart : Paced cfg (Runner.start cfg) := ⟨rfl, by simp [Runner.start], by simp [Runner.start]⟩
    have hpaced := run_invariant (fun _ _ _ hs hstep => paced_step hsafe hs (step_inv hstep)) acts _ _ hstart hrun
    exact ⟨hpaced.point, hpaced.waits⟩

/-- The waits are sound exactly for settings under which none panics, shrinks or overflows. -/
theorem delays_bounded_iff (cfg : RunCfg) (h : cfg.Ordered) :
    DelaysBounded cfg ↔ cfg.reconnect.maxRetries.toInt = 0 ∨
      4 ≤ cfg.baseDelay.toInt ∧ (cfg.reconnect.maxRetries.toInt = 1 ∨ 1 ≤ cfg.multiplier) ∧
        ∀ k, cfg.givesUp k = false → (cfg.delay k).toInt ≤ longestDelay := by
  have hsafe : ∀ k, Safe cfg (cfg.delay k) ↔ _ := fun k => safe_iff h (delay_bounds h k).1 (delay_bounds h k).2
  rw [bounded_iff_safe]
  constructor
  · intro hall
    refine or_iff_not_imp_left.mpr fun hretries => ?_
    refine ⟨?_, ?_, fun k hk => ((hsafe k).mp (hall k hk)).2.2⟩
    · exact ((hsafe 0).mp (hall 0 (givesUp_eq_false.mpr (by omega)))).1
    · refine or_iff_not_imp_left.mpr fun hone => ?_
      have hlow := ((hsafe 1).mp (hall 1 (givesUp_eq_false.mpr (by omega)))).2.1
      exact not_lt.mp fun hlt => absurd (delay_one_lt h hlt) (not_lt.mpr hlow)
  · intro hcond k hk
    have hwhen := givesUp_eq_false.mp hk
    rcases hcond with hzero | ⟨hfour, hmult, hlong⟩
    · omega
    · have hlow : cfg.baseDelay.toInt ≤ (cfg.delay k).toInt := by
        rcases hmult with hone | hmult
        · obtain rfl : k = 0 := by omega
          exact le_rfl
        · exact base_le_delay h hmult k
      exact (hsafe k).mpr ⟨hfour.trans hlow, hlow, hlong k hk⟩

theorem default_delays_bounded :
    DelaysBounded { reconnect := Config.defaults.tunnel.reconnect, multiplier := 2 } := by
  have hordered : RunCfg.Ordered { reconnect := Config.defaults.tunnel.reconnect, multiplier := 2 } :=
    ⟨by decide +kernel, by decide +kernel, by decide +kernel⟩
  refine (delays_bounded_iff _ hordered).mpr (.inr ⟨by decide +kernel, .inr (by decide +kernel), fun k _ => ?_⟩)
  exact (delay_bounds hordered k).2.trans (by decide +kernel)

/-- A client's configuration with the given reconnect settings. -/
def clientWith (reconnect : Config.ReconnectCfg) : Config where
  mode := .client
  tunnel :=
    { addr := ascii "vpn.example.com:443", auth := { psk := ascii "0123456789abcdef" }, reconnect := reconnect }

/-- A base delay of three nanoseconds panics, and with the multiplier a half the wait shrinks. -/
theorem delays_unbounded :
    ∃ tiny shrinking : RunCfg,
      (clientWith tiny.reconnect).validate = none ∧ tiny.Ordered ∧
        (run (Runner.step tiny) (Runner.start tiny) [.dialFails, .retry 0]).map (·.point) = some .panicked ∧
      (clientWith shrinking.reconnect).validate = none ∧ shrinking.Ordered ∧
        (run (Runner.step shrinking) (Runner.start shrinking)
          [.dialFails, .retry 0, .waited, .dialFails, .retry 0]).map (·.waits) = some [1000000000, 500000000] ∧
      ¬ DelaysBounded tiny ∧ ¬ DelaysBounded shrinking := by
  refine ⟨{ reconnect := { maxRetries := -1, baseDelay := ⟨3⟩, maxDelay := ⟨60000000000⟩ }, multiplier := 2 },
    { reconnect := { maxRetries := -1, baseDelay := ⟨1000000000⟩, maxDelay := ⟨60000000000⟩ }, multiplier := 1 / 2 },
    by decide +kernel, ⟨by decide +kernel, by decide +kernel, by decide +kernel⟩, by decide +kernel,
    by decide +kernel, ⟨by decide +kernel, by decide +kernel, by decide +kernel⟩, by decide +kernel, ?_, ?_⟩
  · intro hbounded
    have hsafe := bounded_iff_safe.mp hbounded 0 (by decide +kernel) 0 .panic (by decide +kernel)
    obtain ⟨d, hd, -⟩ := hsafe
    cases hd
  · intro hbounded
    obtain ⟨d, hd, hlow, -⟩ :=
      bounded_iff_safe.mp hbounded 1 (by decide +kernel) 0 (.delay 0) (by decide +kernel)
    cases hd
    exact absurd hlow (by decide +kernel)

end Daxson.Reconnect
