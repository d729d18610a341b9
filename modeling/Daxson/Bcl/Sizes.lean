import Daxson.Go
import Daxson.Lib.Bisect

/-! # The size model and its biased sampler

Weights are exact rationals, and a draw of `rand.Float64` is a rational in [0, 1).
-/

open Lib.Bisect

namespace Daxson.Bcl

structure SizeBucket where
  size : Int
  weight : ℚ
  deriving DecidableEq, Repr

structure SizeModel where
  buckets : List SizeBucket
  /-- Normalised cumulative weights. -/
  cumWeights : List ℚ
  deriving DecidableEq, Repr

def totalWeight (buckets : List SizeBucket) : ℚ := buckets.foldl (fun total b => total + b.weight) 0

/-- The second loop of `NewSizeModel`. -/
def cumulate (total running : ℚ) : List SizeBucket → List ℚ
  | [] => []
  | b :: bs => (running + b.weight / total) :: cumulate total (running + b.weight / total) bs

def newSizeModel (buckets : List SizeBucket) : SizeModel :=
  ⟨buckets, cumulate (totalWeight buckets) 0 buckets⟩

/-- The loop of `Sample`. There is no index when it still runs after `fuel` rounds, or reads out of range. -/
def SizeModel.search (u : ℚ) (m : SizeModel) : Nat → Nat → Nat → Option Nat
  | 0, _, _ => none
  | fuel + 1, lo, hi =>
    if lo < hi then
      match m.cumWeights[(lo + hi) / 2]? with
      | none => none
      | some c => if c < u then m.search u fuel ((lo + hi) / 2 + 1) hi else m.search u fuel lo ((lo + hi) / 2)
    else some lo

/-- `Sample` with the draw `u`. A round halves the range, and there is no size in an empty model. -/
def SizeModel.sample (u : ℚ) (m : SizeModel) : Option Int :=
  (m.search u m.cumWeights.length 0 (m.cumWeights.length - 1)).bind fun i => (m.buckets[i]?).map (·.size)

def SizeModel.quantile (size : Int) (m : SizeModel) : ℚ :=
  match m.buckets.findIdx? (fun b => decide (size ≤ b.size)) with
  | none => 1
  | some 0 => 0
  | some (i + 1) => m.cumWeights.getD i 0

/-- The rejection loop of `sampleBiased`: the size and how many draws it took, or `none` when it still runs after all
of them. -/
def SizeModel.rejectBelow (floor : ℚ) (m : SizeModel) : List ℚ → Option (Int × Nat)
  | [] => none
  | u :: us =>
    match m.sample u with
    | none => none
    | some s => if floor ≤ m.quantile s then some (s, 1) else (m.rejectBelow floor us).map fun (s, n) => (s, n + 1)

def SizeModel.sampleBiased (floor : ℚ) (m : SizeModel) (draws : List ℚ) : Option (Int × Nat) :=
  if floor ≤ 0 then (draws.head?.bind m.sample).map fun s => (s, 1) else m.rejectBelow floor draws

structure PaddingSelector where
  sizeModel : SizeModel
  inLargeMode : Bool := false
  modeTransitionP : ℚ := 15 / 100

/-- The mode after the draw for it. -/
def PaddingSelector.flip (u : ℚ) (ps : PaddingSelector) : PaddingSelector :=
  if u < ps.modeTransitionP then { ps with inLargeMode := !ps.inLargeMode } else ps

def PaddingSelector.floor (ps : PaddingSelector) : ℚ := if ps.inLargeMode then 6 / 10 else 0

/-- `sampleCorrelatedSize` with the draw for the mode and the draws for the size. -/
def PaddingSelector.sampleCorrelatedSize (u : ℚ) (draws : List ℚ) (ps : PaddingSelector) :
    Option (Int × Nat) × PaddingSelector :=
  (ps.sizeModel.sampleBiased (ps.flip u).floor draws, ps.flip u)

/-- The personalities that `ParsePersonality` knows. -/
inductive Preset
  | browser | grpc | videoStream | mobile | relay
  deriving DecidableEq, Repr

def Preset.sizeBuckets : Preset → List SizeBucket
  | browser => [⟨128, 6 / 100⟩, ⟨256, 8 / 100⟩, ⟨512, 9 / 100⟩, ⟨1024, 12 / 100⟩, ⟨2048, 11 / 100⟩,
      ⟨4096, 15 / 100⟩, ⟨8192, 14 / 100⟩, ⟨16384, 25 / 100⟩]
  | grpc => [⟨64, 10 / 100⟩, ⟨128, 15 / 100⟩, ⟨256, 18 / 100⟩, ⟨512, 20 / 100⟩, ⟨1024, 17 / 100⟩,
      ⟨2048, 12 / 100⟩, ⟨4096, 8 / 100⟩]
  | videoStream => [⟨4096, 5 / 100⟩, ⟨8192, 10 / 100⟩, ⟨16384, 85 / 100⟩]
  | mobile => [⟨128, 15 / 100⟩, ⟨256, 20 / 100⟩, ⟨512, 25 / 100⟩, ⟨1024, 20 / 100⟩, ⟨2048, 12 / 100⟩,
      ⟨4096, 8 / 100⟩]
  | relay => [⟨512, 10 / 100⟩, ⟨1024, 10 / 100⟩, ⟨2048, 15 / 100⟩, ⟨4096, 20 / 100⟩, ⟨8192, 20 / 100⟩,
      ⟨16384, 25 / 100⟩]

def Preset.frameSizeModel (p : Preset) : SizeModel := newSizeModel p.sizeBuckets

theorem SizeModel.sampleBiased_of_pos {floor : ℚ} (h : 0 < floor) (m : SizeModel) (draws : List ℚ) :
    m.sampleBiased floor draws = m.rejectBelow floor draws := by
  unfold sampleBiased
  rw [if_neg (not_le.mpr h)]

/-- The draws of a whole interval are accepted. -/
def CanFinish (floor : ℚ) (m : SizeModel) : Prop :=
  ∃ lo hi : ℚ, 0 ≤ lo ∧ lo < hi ∧ hi ≤ 1 ∧
    ∀ u, lo < u → u < hi → ∃ s, m.sample u = some s ∧ floor ≤ m.quantile s

/-! ## The search -/

/-- The index at which the search ends. -/
def SizeModel.found (u : ℚ) (m : SizeModel) : Nat :=
  bisect (fun mid => decide (m.cumWeights.getD mid 0 < u)) 0 (m.cumWeights.length - 1)

theorem SizeModel.search_eq (u : ℚ) (m : SizeModel) {fuel k lo hi : Nat} (hfuel : hi - lo < fuel) (hk : hi - lo ≤ k)
    (hhi : hi < m.cumWeights.length) :
    m.search u fuel lo hi = some (bisectLoop (fun mid => decide (m.cumWeights.getD mid 0 < u)) k lo hi) := by
  induction fuel generalizing k lo hi with
  | zero => omega
  | succ fuel ih =>
    unfold search
    by_cases hlt : lo < hi
    · obtain ⟨k, rfl⟩ : ∃ k', k = k' + 1 := ⟨k - 1, by omega⟩
      have hget : m.cumWeights[(lo + hi) / 2]? = some (m.cumWeights.getD ((lo + hi) / 2) 0) := by
        rw [List.getD_eq_getElem?_getD, List.getElem?_eq_getElem (by omega), Option.getD_some]
      rw [if_pos hlt, hget]
      simp only [bisectLoop, hlt, if_true, decide_eq_true_eq]
      split_ifs with hmid
      · exact ih (by omega) (by omega) hhi
      · exact ih (by omega) (by omega) (by omega)
    · rw [if_neg hlt]
      cases k with
      | zero => rfl
      | succ k => simp only [bisectLoop, hlt, if_false]

/-! ## Weighted buckets -/

/-- At least one bucket, each with some weight. -/
structure Weighted where
  list : List SizeBucket
  nonempty : list ≠ []
  positive : ∀ b ∈ list, 0 < b.weight

namespace Weighted

variable (w : Weighted)

def model : SizeModel := newSizeModel w.list

/-- The weight of the buckets before `i`, as a part of the total. -/
def before (i : Nat) : ℚ := ((w.list.take i).map (·.weight)).sum / totalWeight w.list

theorem totalWeight_eq (l : List SizeBucket) : totalWeight l = (l.map (·.weight)).sum := by
  unfold totalWeight
  rw [List.sum_eq_foldl, List.foldl_map]

theorem length_pos : 0 < w.list.length := List.length_pos_iff.mpr w.nonempty

theorem totalWeight_pos : 0 < totalWeight w.list := by
  rw [totalWeight_eq]
  apply List.sum_pos
  · intro x hx
    obtain ⟨b, hb, rfl⟩ := List.mem_map.mp hx
    exact w.positive b hb
  · simpa using w.nonempty

theorem before_zero : w.before 0 = 0 := by simp [before]

theorem before_length : w.before w.list.length = 1 := by
  unfold before
  rw [List.take_length, ← totalWeight_eq]
  exact div_self w.totalWeight_pos.ne'

theorem before_succ {i : Nat} (h : i < w.list.length) :
    w.before (i + 1) = w.before i + (w.list[i]).weight / totalWeight w.list := by
  unfold before
  rw [List.take_add_one, List.getElem?_eq_getElem h, List.map_append, List.sum_append, add_div]
  simp only [Option.toList_some, List.map_cons, List.map_nil, List.sum_singleton]

theorem before_lt_succ {i : Nat} (h : i < w.list.length) : w.before i < w.before (i + 1) := by
  rw [before_succ w h]
  have := div_pos (w.positive _ (List.getElem_mem h)) w.totalWeight_pos
  linarith

theorem before_mono {i j : Nat} (hij : i ≤ j) (hj : j ≤ w.list.length) : w.before i ≤ w.before j := by
  induction j, hij using Nat.le_induction with
  | base => exact le_rfl
  | succ j hij ih => exact (ih (by omega)).trans (w.before_lt_succ (by omega)).le

theorem before_strictMono {i j : Nat} (hij : i < j) (hj : j ≤ w.list.length) : w.before i < w.before j :=
  lt_of_lt_of_le (w.before_lt_succ (by omega)) (w.before_mono hij hj)

theorem cumulate_getElem? (total running : ℚ) (l : List SizeBucket) (i : Nat) (h : i < l.length) :
    (cumulate total running l)[i]? = some (running + ((l.take (i + 1)).map (·.weight)).sum / total) := by
  induction l generalizing running i with
  | nil => simp at h
  | cons b l ih =>
    cases i with
    | zero => simp [cumulate]
    | succ i =>
      simp only [cumulate, List.getElem?_cons_succ, List.take_succ_cons, List.map_cons, List.sum_cons]
      rw [ih _ i (by simpa using h)]
      congr 1
      ring

theorem cumulate_length (total running : ℚ) (l : List SizeBucket) : (cumulate total running l).length = l.length := by
  induction l generalizing running with
  | nil => rfl
  | cons b l ih => simp [cumulate, ih]

theorem cumWeights_length : w.model.cumWeights.length = w.list.length := cumulate_length _ _ _

theorem cumWeights_getElem? {i : Nat} (h : i < w.list.length) :
    w.model.cumWeights[i]? = some (w.before (i + 1)) := by
  unfold model newSizeModel before
  rw [cumulate_getElem? _ _ _ _ h, zero_add]

theorem cumWeights_getD {i : Nat} (h : i < w.list.length) : w.model.cumWeights.getD i 0 = w.before (i + 1) := by
  rw [List.getD_eq_getElem?_getD, w.cumWeights_getElem? h, Option.getD_some]

theorem below_mono (u : ℚ) (i j : Nat) (hij : i ≤ j) (hj : j < w.model.cumWeights.length - 1)
    (h : decide (w.model.cumWeights.getD j 0 < u) = true) : decide (w.model.cumWeights.getD i 0 < u) = true := by
  have hlen := w.cumWeights_length
  rw [decide_eq_true_eq, w.cumWeights_getD (by omega)] at h ⊢
  exact lt_of_le_of_lt (w.before_mono (by omega) (by omega)) h

theorem found_lt (u : ℚ) : w.model.found u < w.list.length := by
  have hlen := w.cumWeights_length
  have hpos := w.length_pos
  have hle : w.model.found u ≤ w.model.cumWeights.length - 1 := bisect_le (w.below_mono u)
  omega

theorem found_eq {i : Nat} {u : ℚ} (h : i < w.list.length) (hlo : i = 0 ∨ w.before i < u)
    (hhi : u ≤ w.before (i + 1)) : w.model.found u = i := by
  have hlen := w.cumWeights_length
  apply bisect_eq (w.below_mono u) (by omega)
  · intro j hj
    have hbefore := hlo.resolve_left (by omega)
    rw [decide_eq_true_eq, w.cumWeights_getD (by omega)]
    exact lt_of_le_of_lt (w.before_mono (by omega) (by omega)) hbefore
  · intro _
    rw [decide_eq_false_iff_not, w.cumWeights_getD h, not_lt]
    exact hhi

theorem exists_range {u : ℚ} (hu : u ≤ 1) :
    ∃ i, i < w.list.length ∧ (i = 0 ∨ w.before i < u) ∧ u ≤ w.before (i + 1) := by
  have hpos := w.length_pos
  have hlast : ∃ i, u ≤ w.before (i + 1) := by
    refine ⟨w.list.length - 1, ?_⟩
    rw [Nat.sub_add_cancel hpos, w.before_length]
    exact hu
  classical
  -- The first bucket whose range ends behind the draw.
  refine ⟨Nat.find hlast, ?_, ?_, Nat.find_spec hlast⟩
  · have hle : Nat.find hlast ≤ w.list.length - 1 := by
      apply Nat.find_min'
      rw [Nat.sub_add_cancel hpos, w.before_length]
      exact hu
    omega
  · cases hfind : Nat.find hlast with
    | zero => exact Or.inl rfl
    | succ i =>
      right
      exact not_le.mp (Nat.find_min hlast (by omega))

theorem found_range {u : ℚ} (hu : u ≤ 1) :
    (w.model.found u = 0 ∨ w.before (w.model.found u) < u) ∧ u ≤ w.before (w.model.found u + 1) := by
  obtain ⟨i, hi, hlo, hhi⟩ := w.exists_range hu
  rw [w.found_eq hi hlo hhi]
  exact ⟨hlo, hhi⟩

theorem found_iff {i : Nat} {u : ℚ} (h : i < w.list.length) (hu : u ≤ 1) :
    w.model.found u = i ↔ (i = 0 ∨ w.before i < u) ∧ u ≤ w.before (i + 1) := by
  constructor
  · rintro rfl
    exact w.found_range hu
  · rintro ⟨hlo, hhi⟩
    exact w.found_eq h hlo hhi

theorem cumWeights_increasing : w.model.cumWeights.Pairwise (· < ·) := by
  have hlen := w.cumWeights_length
  rw [List.pairwise_iff_getElem]
  intro i j hi hj hij
  have hci := w.cumWeights_getElem? (hlen ▸ hi)
  have hcj := w.cumWeights_getElem? (hlen ▸ hj)
  rw [List.getElem?_eq_getElem hi, Option.some.injEq] at hci
  rw [List.getElem?_eq_getElem hj, Option.some.injEq] at hcj
  rw [hci, hcj]
  exact w.before_strictMono (by omega) (by omega)

theorem cumWeights_pos : ∀ c ∈ w.model.cumWeights, 0 < c := by
  intro c hc
  obtain ⟨i, hi, rfl⟩ := List.getElem_of_mem hc
  have hi' : i < w.list.length := w.cumWeights_length ▸ hi
  have hci := w.cumWeights_getElem? hi'
  rw [List.getElem?_eq_getElem hi, Option.some.injEq] at hci
  rw [hci, ← w.before_zero]
  exact w.before_strictMono (Nat.succ_pos i) hi'

theorem cumWeights_last : w.model.cumWeights.getLast? = some 1 := by
  have hpos := w.length_pos
  rw [List.getLast?_eq_getElem?, w.cumWeights_length, w.cumWeights_getElem? (by omega),
    Nat.sub_add_cancel hpos, w.before_length]

theorem search_found (u : ℚ) {fuel : Nat} (hfuel : w.list.length ≤ fuel) :
    w.model.search u fuel 0 (w.model.cumWeights.length - 1) = some (w.model.found u) := by
  have hlen := w.cumWeights_length
  have hpos := w.length_pos
  exact w.model.search_eq u (by omega) le_rfl (by omega)

theorem sample_found (u : ℚ) (h : w.model.found u < w.list.length) :
    w.model.sample u = some (w.list[w.model.found u]).size := by
  unfold SizeModel.sample
  rw [w.search_found u w.cumWeights_length.ge, Option.bind_some]
  change (w.list[w.model.found u]?).map (·.size) = _
  rw [List.getElem?_eq_getElem h, Option.map_some]

theorem found_least {u : ℚ} (hu : u ≤ 1) :
    IsLeast {j | ∃ c, w.model.cumWeights[j]? = some c ∧ u ≤ c} (w.model.found u) := by
  obtain ⟨hlo, hhi⟩ := w.found_range hu
  have hlt := w.found_lt u
  constructor
  · exact ⟨_, w.cumWeights_getElem? hlt, hhi⟩
  · rintro j ⟨c, hc, huc⟩
    by_contra hj
    have hj : j < w.model.found u := not_le.mp hj
    rw [w.cumWeights_getElem? (by omega), Option.some.injEq] at hc
    have hbefore := hlo.resolve_left (by omega)
    have hmono := w.before_mono hj (by omega)
    linarith

end Weighted

theorem size_sampler_inverts (w : Weighted) :
    (w.model.cumWeights.Pairwise (· < ·) ∧ (∀ c ∈ w.model.cumWeights, 0 < c) ∧
        w.model.cumWeights.getLast? = some 1) ∧
      ∀ u : ℚ, 0 ≤ u → u < 1 → ∃ i b,
        (∀ fuel, w.list.length ≤ fuel →
          w.model.search u fuel 0 (w.model.cumWeights.length - 1) = some i) ∧
        w.list[i]? = some b ∧ w.model.sample u = some b.size ∧
        IsLeast {j | ∃ c, w.model.cumWeights[j]? = some c ∧ u ≤ c} i ∧
        ∀ j < w.list.length,
          i = j ↔ (j = 0 ∨ w.model.cumWeights.getD (j - 1) 0 < u) ∧ u ≤ w.model.cumWeights.getD j 0 := by
  refine ⟨⟨w.cumWeights_increasing, w.cumWeights_pos, w.cumWeights_last⟩, fun u _ hu => ?_⟩
  have hlt := w.found_lt u
  refine ⟨w.model.found u, w.list[w.model.found u], fun fuel hfuel => w.search_found u hfuel,
    List.getElem?_eq_getElem hlt, w.sample_found u hlt, w.found_least hu.le, fun j hj => ?_⟩
  rw [w.found_iff hj hu.le, w.cumWeights_getD hj]
  cases j with
  | zero => simp
  | succ j => rw [Nat.add_sub_cancel, w.cumWeights_getD (by omega)]

/-! ## Admissible models -/

/-- The buckets of a model, by increasing size. -/
structure Buckets extends Weighted where
  increasing : list.Pairwise fun a b => a.size < b.size

namespace Buckets

variable (bs : Buckets)

/-! ## Quantiles and samples -/

theorem quantile_size {i : Nat} (h : i < bs.list.length) : bs.model.quantile (bs.list[i]).size = bs.before i := by
  have hfind : bs.model.buckets.findIdx? (fun b => decide ((bs.list[i]).size ≤ b.size)) = some i := by
    rw [List.findIdx?_eq_some_iff_getElem]
    refine ⟨h, by simp [Weighted.model, newSizeModel], fun j hj => ?_⟩
    have := List.pairwise_iff_getElem.mp bs.increasing j i (by omega) h hj
    rw [decide_eq_true_eq, not_le]
    exact this
  unfold SizeModel.quantile
  rw [hfind]
  cases i with
  | zero => exact bs.before_zero.symm
  | succ i => exact bs.cumWeights_getD (Nat.lt_of_succ_lt h)

theorem sample_eq {i : Nat} {u : ℚ} (h : i < bs.list.length) (hlo : bs.before i < u) (hhi : u ≤ bs.before (i + 1)) :
    bs.model.sample u = some (bs.list[i]).size := by
  have hfound : bs.model.found u = i := bs.found_eq h (Or.inr hlo) hhi
  subst hfound
  exact bs.sample_found u h

theorem sample_mem (u : ℚ) : ∃ (i : Nat) (h : i < bs.list.length), bs.model.sample u = some (bs.list[i]).size :=
  ⟨bs.model.found u, bs.found_lt u, bs.sample_found u (bs.found_lt u)⟩

/-! ## Acceptance -/

theorem accepts_iff (floor : ℚ) :
    (∃ b ∈ bs.list, floor ≤ bs.model.quantile b.size) ↔ floor ≤ bs.before (bs.list.length - 1) := by
  have hpos := List.length_pos_iff.mpr bs.nonempty
  constructor
  · rintro ⟨b, hb, hq⟩
    obtain ⟨i, hi, rfl⟩ := List.getElem_of_mem hb
    rw [bs.quantile_size hi] at hq
    exact hq.trans (bs.before_mono (by omega) (by omega))
  · intro h
    refine ⟨bs.list[bs.list.length - 1], List.getElem_mem _, ?_⟩
    rw [bs.quantile_size (by omega)]
    exact h

theorem rejectBelow_none {floor : ℚ} (h : bs.before (bs.list.length - 1) < floor) (draws : List ℚ) :
    bs.model.rejectBelow floor draws = none := by
  induction draws with
  | nil => rfl
  | cons u us ih =>
    obtain ⟨i, hi, hs⟩ := bs.sample_mem u
    have hq : ¬floor ≤ bs.model.quantile (bs.list[i]).size := fun hq =>
      absurd ((bs.accepts_iff floor).mp ⟨_, List.getElem_mem hi, hq⟩) (not_le.mpr h)
    unfold SizeModel.rejectBelow
    rw [hs]
    simp only [hq, if_false]
    rw [ih]
    rfl

theorem canFinish_iff (floor : ℚ) : CanFinish floor bs.model ↔ floor ≤ bs.before (bs.list.length - 1) := by
  have hpos := List.length_pos_iff.mpr bs.nonempty
  have hlast : bs.list.length - 1 + 1 = bs.list.length := by omega
  constructor
  · rintro ⟨lo, hi, -, hlt, -, hacc⟩
    obtain ⟨s, hs, hq⟩ := hacc ((lo + hi) / 2) (by linarith) (by linarith)
    obtain ⟨i, hi, hs'⟩ := bs.sample_mem ((lo + hi) / 2)
    rw [hs, Option.some.injEq] at hs'
    exact (bs.accepts_iff floor).mp ⟨_, List.getElem_mem hi, hs' ▸ hq⟩
  · intro h
    refine ⟨bs.before (bs.list.length - 1), 1, ?_, ?_, le_rfl, fun u hlo hhi => ?_⟩
    · rw [← bs.before_zero]
      exact bs.before_mono (Nat.zero_le _) (by omega)
    · rw [← bs.before_length]
      conv_rhs => rw [← hlast]
      exact bs.before_lt_succ (by omega)
    · refine ⟨_, bs.sample_eq (by omega) hlo ?_, ?_⟩
      · rw [hlast, bs.before_length]
        exact hhi.le
      · rw [bs.quantile_size (by omega)]
        exact h

theorem sampleBiased_none_iff {floor : ℚ} (hfloor : 0 < floor) :
    (∀ draws : List ℚ, (∀ u ∈ draws, 0 ≤ u ∧ u < 1) → bs.model.sampleBiased floor draws = none) ↔
      bs.before (bs.list.length - 1) < floor := by
  simp only [SizeModel.sampleBiased_of_pos hfloor]
  constructor
  · intro h
    by_contra hge
    obtain ⟨lo, hi, hlo, hlt, hhi, hacc⟩ := (bs.canFinish_iff floor).mpr (not_lt.mp hge)
    obtain ⟨s, hs, hq⟩ := hacc ((lo + hi) / 2) (by linarith) (by linarith)
    have hnone := h [(lo + hi) / 2] (by
      intro u hu
      rw [List.mem_singleton] at hu
      constructor <;> linarith)
    simp [SizeModel.rejectBelow, hs, hq] at hnone
  · intro h draws _
    exact bs.rejectBelow_none h draws

theorem before_last : bs.before (bs.list.length - 1) =
    1 - (bs.list.getLast bs.nonempty).weight / totalWeight bs.list := by
  have hpos := List.length_pos_iff.mpr bs.nonempty
  have hlast : bs.list.length - 1 + 1 = bs.list.length := by omega
  have hsucc : bs.before (bs.list.length - 1 + 1) = _ + _ := bs.before_succ (Nat.sub_lt hpos Nat.one_pos)
  rw [hlast, bs.before_length] at hsucc
  rw [List.getLast_eq_getElem, hsucc]
  exact (add_sub_cancel_right _ _).symm

/-- The last bucket leaves the floor of 60 % to the others. -/
def LastLight : Prop := (bs.list.getLast bs.nonempty).weight ≤ 4 / 10 * totalWeight bs.list

def largest : Int := (bs.list.getLast bs.nonempty).size

instance : Decidable bs.LastLight := inferInstanceAs (Decidable (_ ≤ _))

theorem lastLight_iff : bs.LastLight ↔ 6 / 10 ≤ bs.before (bs.list.length - 1) := by
  have htotal : 0 < totalWeight bs.list := bs.totalWeight_pos
  unfold LastLight
  rw [bs.before_last, ← div_le_iff₀ htotal]
  constructor <;> intro h <;> linarith

end Buckets

def Preset.buckets (p : Preset) : Buckets where
  list := p.sizeBuckets
  nonempty := by cases p <;> simp [sizeBuckets]
  increasing := by cases p <;> decide
  positive := by cases p <;> decide +kernel

/-- The large mode can finish exactly if the last bucket has at most 40 % of the weight. -/
theorem biased_sampler_finishes_iff (bs : Buckets) :
    (CanFinish (6 / 10) bs.model ↔ bs.LastLight) ∧
      ((∃ b ∈ bs.list, 6 / 10 ≤ bs.model.quantile b.size) ↔ bs.LastLight) ∧
      ((∀ draws : List ℚ, (∀ u ∈ draws, 0 ≤ u ∧ u < 1) → bs.model.sampleBiased (6 / 10) draws = none) ↔
        ¬bs.LastLight) ∧
      ∀ p : Preset, CanFinish (6 / 10) p.frameSizeModel ↔ p ≠ .videoStream := by
  refine ⟨?_, ?_, ?_, fun p => ?_⟩
  · rw [bs.canFinish_iff, bs.lastLight_iff]
  · rw [bs.accepts_iff, bs.lastLight_iff]
  · rw [bs.sampleBiased_none_iff (by norm_num), bs.lastLight_iff, not_le]
  · have h : CanFinish (6 / 10) p.frameSizeModel ↔ _ := p.buckets.canFinish_iff (6 / 10)
    rw [h, ← Buckets.lastLight_iff]
    cases p <;> decide +kernel

theorem video_large_mode_spins :
    ¬CanFinish (6 / 10) Preset.videoStream.frameSizeModel ∧
      ∀ draws, (PaddingSelector.sampleCorrelatedSize (1 / 2) draws
        { sizeModel := Preset.videoStream.frameSizeModel, inLargeMode := true }).1 = none := by
  have h : Preset.videoStream.buckets.before (Preset.videoStream.buckets.list.length - 1) < 6 / 10 := by
    decide +kernel
  constructor
  · intro hf
    exact absurd ((Preset.videoStream.buckets.canFinish_iff _).mp hf) (not_le.mpr h)
  · intro draws
    have hstay : ¬(1 / 2 : ℚ) < 15 / 100 := by norm_num
    simp only [PaddingSelector.sampleCorrelatedSize, PaddingSelector.flip, PaddingSelector.floor, hstay, if_false,
      if_true]
    rw [SizeModel.sampleBiased_of_pos (by norm_num)]
    exact Preset.videoStream.buckets.rejectBelow_none h draws

end Daxson.Bcl
