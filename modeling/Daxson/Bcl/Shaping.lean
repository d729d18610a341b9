import Daxson.Bcl.Fragment
import Mathlib.Data.Stream.Init

/-! # The shaping loop

The mode of the selector carries over from frame to frame and from burst to burst.
-/

open Filter

namespace Daxson.Bcl

/-- `zeroPadProb` of a new selector, which nothing changes. -/
def zeroPadProb : ℚ := 20 / 100

/-- The selector of a connection, with the draws and the writes that are still to come: the padding bytes of each
frame and the error of its write. -/
structure Shaper where
  draws : Stream' ℚ
  writes : Stream' (Bytes × Option SysError)
  padding : PaddingSelector
  -- Whether the selector was ever in the large mode, which the code does not keep.
  wasLarge : Bool := false

def newShaper (m : SizeModel) (draws : Stream' ℚ) (writes : Stream' (Bytes × Option SysError)) : Shaper where
  draws := draws
  writes := writes
  padding := { sizeModel := m }

namespace Shaper

/-- `sampleCorrelatedSize`, or `none` when it has not returned after `fuel` draws. -/
def sampleCorrelatedSize (fuel : Nat) (s : Shaper) : Option (Int × Shaper) :=
  let (drawn, ps) := s.padding.sampleCorrelatedSize s.draws.head (s.draws.tail.take fuel)
  drawn.map fun (size, n) =>
    (size, { s with draws := s.draws.tail.drop n, padding := ps, wasLarge := s.wasLarge || ps.inLargeMode })

/-- The draws of `SelectPadding`. Without a target there is no padding. -/
def selectTarget (fuel : Nat) (s : Shaper) : Option (Option Int × Shaper) :=
  if s.draws.head < zeroPadProb then some (none, { s with draws := s.draws.tail })
  else (Shaper.sampleCorrelatedSize fuel { s with draws := s.draws.tail }).map fun (t, s) => (some t, s)

/-- What a round of `fragmentAndSend` draws, and what becomes of its write. -/
def round (fuel : Nat) (s : Shaper) : Option (Round × Shaper) :=
  (s.sampleCorrelatedSize fuel).bind fun (apparentSize, s) =>
    (s.selectTarget fuel).map fun (target, s) =>
      ({ apparentSize, target, pad := s.writes.head.1, fault := s.writes.head.2 },
        { s with writes := s.writes.tail })

def fragmentAndSend (fuel rounds : Nat) (s : Shaper) (data : Bytes) :
    Option ((List Sent × Option GoError) × Shaper) :=
  fragmentFrom (Shaper.round fuel) rounds s data

/-- The bursts of a connection, one after the other. A round takes a byte at least. -/
def sendBursts (fuel : Nat) : Shaper → List Bytes → Option (List (List Sent × Option GoError) × Shaper)
  | s, [] => some ([], s)
  | s, burst :: bursts =>
    (s.fragmentAndSend fuel burst.length burst).bind fun (result, s) =>
      (sendBursts fuel s bursts).map fun (results, s) => (result :: results, s)

end Shaper

/-! ## The draws of a round are draws of the model -/

@[simp] theorem PaddingSelector.flip_sizeModel (u : ℚ) (ps : PaddingSelector) :
    (ps.flip u).sizeModel = ps.sizeModel := by
  unfold flip
  split_ifs <;> rfl

namespace Shaper

theorem sampleCorrelatedSize_inv {fuel : Nat} {s s' : Shaper} {size : Int}
    (h : s.sampleCorrelatedSize fuel = some (size, s')) :
    ∃ n,
      s.padding.sizeModel.sampleBiased (s.padding.flip s.draws.head).floor (s.draws.tail.take fuel) = some (size, n) ∧
      s' = { s with
        draws := s.draws.tail.drop n, padding := s.padding.flip s.draws.head
        wasLarge := s.wasLarge || (s.padding.flip s.draws.head).inLargeMode } := by
  obtain ⟨⟨size', n⟩, hsample, hpair⟩ := Option.map_eq_some_iff.mp h
  obtain ⟨rfl, rfl⟩ := Prod.mk.inj hpair
  exact ⟨n, hsample, rfl⟩

theorem selectTarget_inv {fuel : Nat} {s s' : Shaper} {target : Option Int}
    (h : s.selectTarget fuel = some (target, s')) :
    (target = none ∧ s' = { s with draws := s.draws.tail }) ∨
      ∃ t, target = some t ∧ Shaper.sampleCorrelatedSize fuel { s with draws := s.draws.tail } = some (t, s') := by
  unfold selectTarget at h
  split_ifs at h
  · obtain ⟨rfl, rfl⟩ := Prod.mk.inj (Option.some.inj h)
    exact .inl ⟨rfl, rfl⟩
  · obtain ⟨⟨t, s₁⟩, hsample, hpair⟩ := Option.map_eq_some_iff.mp h
    obtain ⟨rfl, rfl⟩ := Prod.mk.inj hpair
    exact .inr ⟨t, rfl, hsample⟩

theorem round_inv {fuel : Nat} {s s' : Shaper} {d : Round} (h : s.round fuel = some (d, s')) :
    ∃ s₁ s₂, s.sampleCorrelatedSize fuel = some (d.apparentSize, s₁) ∧ s₁.selectTarget fuel = some (d.target, s₂) ∧
      s' = { s₂ with writes := s₂.writes.tail } := by
  obtain ⟨⟨size, s₁⟩, hsize, hrest⟩ := Option.bind_eq_some_iff.mp h
  obtain ⟨⟨target, s₂⟩, htarget, hpair⟩ := Option.map_eq_some_iff.mp hrest
  obtain ⟨rfl, rfl⟩ := Prod.mk.inj hpair
  exact ⟨s₁, s₂, hsize, htarget, rfl⟩

theorem sampleCorrelatedSize_mem {m : SizeModel} {fuel : Nat} {s s' : Shaper} {size : Int}
    (hm : s.padding.sizeModel = m) (h : s.sampleCorrelatedSize fuel = some (size, s')) :
    size ∈ m.sizes ∧ s'.padding.sizeModel = m := by
  obtain ⟨n, hsample, rfl⟩ := sampleCorrelatedSize_inv h
  rw [hm] at hsample
  exact ⟨sampleBiased_mem_sizes hsample, (PaddingSelector.flip_sizeModel _ _).trans hm⟩

theorem round_drew {m : SizeModel} {fuel : Nat} {s s' : Shaper} {d : Round} (hm : s.padding.sizeModel = m)
    (h : s.round fuel = some (d, s')) : m.Drew d ∧ s'.padding.sizeModel = m := by
  obtain ⟨s₁, s₂, hsize, htarget, rfl⟩ := round_inv h
  obtain ⟨hmem, hm₁⟩ := sampleCorrelatedSize_mem hm hsize
  rcases selectTarget_inv htarget with ⟨hnone, rfl⟩ | ⟨t, hsome, hsample⟩
  · refine ⟨⟨hmem, ?_⟩, hm₁⟩
    rw [hnone]
    simp
  · obtain ⟨htmem, hm₂⟩ := sampleCorrelatedSize_mem (s := { s₁ with draws := s₁.draws.tail }) hm₁ hsample
    refine ⟨⟨hmem, ?_⟩, hm₂⟩
    rw [hsome]
    simpa using htmem

/-- The loop over the draws is the loop over the rounds that it draws. -/
theorem fragmentAndSend_rounds {m : SizeModel} {size : Int} (hsize : size ∈ m.sizes) {fuel : Nat} (rounds : Nat)
    {s s' : Shaper} {data : Bytes} {result : List Sent × Option GoError} (hm : s.padding.sizeModel = m)
    (h : s.fragmentAndSend fuel rounds data = some (result, s')) :
    s'.padding.sizeModel = m ∧
      ∃ draws, (∀ i, m.Drew (draws i)) ∧ Bcl.fragmentAndSend rounds draws data = some result := by
  have hidle : m.Drew { apparentSize := size } := ⟨hsize, by simp⟩
  have hdone : ∀ {rounds : Nat} {s : Shaper} {data : Bytes} {result : List Sent × Option GoError},
      s.padding.sizeModel = m → data.isEmpty = true → s.fragmentAndSend fuel rounds data = some (result, s') →
      s'.padding.sizeModel = m ∧
        ∃ draws, (∀ i, m.Drew (draws i)) ∧ Bcl.fragmentAndSend rounds draws data = some result := by
    intro rounds s data result hm hempty h
    obtain ⟨rfl, rfl⟩ := Prod.mk.inj (Option.some.inj ((fragmentFrom_empty rounds s hempty).symm.trans h))
    exact ⟨hm, fun _ => { apparentSize := size }, fun _ => hidle, fragmentAndSend_empty rounds _ hempty⟩
  induction rounds generalizing s data result with
  | zero =>
    cases hne : data.isEmpty with
    | true => exact hdone hm hne h
    | false => simp [fragmentAndSend, fragmentFrom, hne] at h
  | succ rounds ih =>
    cases hne : data.isEmpty with
    | true => exact hdone hm hne h
    | false =>
      obtain ⟨⟨d, s₁⟩, hround, h⟩ := Option.bind_eq_some_iff.mp ((fragmentFrom_round rounds s hne).symm.trans h)
      obtain ⟨hd, hm₁⟩ := round_drew hm hround
      cases hfault : d.fault with
      | some e =>
        simp only [hfault] at h
        obtain ⟨rfl, rfl⟩ := Prod.mk.inj (Option.some.inj h)
        refine ⟨hm₁, fun _ => d, fun _ => hd, ?_⟩
        simp only [fragmentAndSend_round rounds _ hne, hfault]
      | none =>
        simp only [hfault] at h
        obtain ⟨⟨⟨sent, err⟩, s₂⟩, hrest, hpair⟩ := Option.map_eq_some_iff.mp h
        obtain ⟨rfl, rfl⟩ := Prod.mk.inj hpair
        obtain ⟨hm₂, draws, hdraws, hloop⟩ := ih hm₁ hrest
        refine ⟨hm₂, Stream'.cons d draws, fun i => ?_, ?_⟩
        · cases i with
          | zero => exact hd
          | succ i => exact hdraws i
        · have hcons := fragmentAndSend_round rounds (Stream'.cons d draws) hne
          rw [show Stream'.cons d draws 0 = d from rfl, hfault] at hcons
          rw [hcons]
          exact congrArg (Option.map _) hloop

end Shaper

/-- What a burst has become: frames that follow the model, and unless a write failed all of its bytes in order. -/
structure SizeModel.Delivered (m : SizeModel) (largest : Int) (burst : Bytes) (result : List Sent × Option GoError) :
    Prop where
  conforms : ∀ fp ∈ result.1, m.Conforms largest fp.1
  in_order : (result.1.map fun fp => fp.1.payload).flatten <+: burst
  sent_all : result.2 = none → (result.1.map fun fp => fp.1.payload).flatten = burst
  failed : ∀ e, result.2 = some e → ∃ fault, e = sendErr fault

theorem Shaper.fragmentAndSend_delivers {m : SizeModel} {largest : Int} (hmax : IsGreatest { s | s ∈ m.sizes } largest)
    {fuel : Nat} {s s' : Shaper} {data : Bytes} {result : List Sent × Option GoError} (hm : s.padding.sizeModel = m)
    (h : s.fragmentAndSend fuel data.length data = some (result, s')) :
    m.Delivered largest data result ∧ s'.padding.sizeModel = m := by
  obtain ⟨hm', draws, hdraws, hloop⟩ := fragmentAndSend_rounds hmax.1 data.length hm h
  obtain ⟨sent, err, hloop', hsent⟩ := fragmentAndSend_fragments hmax.2 data.length draws hdraws data le_rfl
  obtain rfl := Option.some.inj (hloop.symm.trans hloop')
  refine ⟨⟨hsent.conforms, hsent.in_order, hsent.sent_all, fun e he => ?_⟩, hm'⟩
  obtain ⟨_, fault, -, hfault⟩ := hsent.failed e he
  exact ⟨fault, hfault⟩

theorem Shaper.sendBursts_delivers {m : SizeModel} {largest : Int} (hmax : IsGreatest { s | s ∈ m.sizes } largest)
    {fuel : Nat} (bursts : List Bytes) {s s' : Shaper} {results : List (List Sent × Option GoError)}
    (hm : s.padding.sizeModel = m) (h : s.sendBursts fuel bursts = some (results, s')) :
    List.Forall₂ (m.Delivered largest) bursts results := by
  induction bursts generalizing s results with
  | nil =>
    obtain ⟨rfl, -⟩ := Prod.mk.inj (Option.some.inj h)
    exact .nil
  | cons burst bursts ih =>
    obtain ⟨⟨result, s₁⟩, hburst, h⟩ := Option.bind_eq_some_iff.mp h
    obtain ⟨⟨rest, s₂⟩, hrest, hpair⟩ := Option.map_eq_some_iff.mp h
    obtain ⟨rfl, rfl⟩ := Prod.mk.inj hpair
    obtain ⟨hdelivered, hm₁⟩ := fragmentAndSend_delivers hmax hm hburst
    exact .cons hdelivered (ih hm₁ hrest)

/-! ## With a light last bucket every burst ends -/

namespace Buckets

variable (bs : Buckets)

/-- Draws of `rand.Float64` that come back to the last bucket again and again. -/
structure Fair (u : Stream' ℚ) : Prop where
  ranged : ∀ n, 0 ≤ u.get n ∧ u.get n < 1
  last : ∀ n, ∃ k, bs.before (bs.list.length - 1) < u.get (n + k)

def Ready (s : Shaper) : Prop := s.padding.sizeModel = bs.model ∧ bs.Fair s.draws

/-- With enough fuel, and any more, the call has one and the same result. -/
def Ends {α : Type} (f : Nat → Option (α × Shaper)) : Prop :=
  ∃ x s, bs.Ready s ∧ ∀ᶠ fuel in atTop, f fuel = some (x, s)

variable {bs} {α β : Type}

theorem Fair.drop {u : Stream' ℚ} (h : bs.Fair u) (n : Nat) : bs.Fair (u.drop n) := by
  refine ⟨fun i => ?_, fun i => ?_⟩
  · rw [Stream'.get_drop]
    exact h.ranged _
  · obtain ⟨k, hk⟩ := h.last (n + i)
    refine ⟨k, ?_⟩
    rwa [Stream'.get_drop, ← Nat.add_assoc]

theorem ends_of_ready (x : α) {s : Shaper} (h : bs.Ready s) : bs.Ends fun _ => some (x, s) :=
  ⟨x, s, h, .of_forall fun _ => rfl⟩

theorem ends_bind {f : Nat → Option (α × Shaper)} {g : Nat → α × Shaper → Option (β × Shaper)} (hf : bs.Ends f)
    (hg : ∀ x s, bs.Ready s → bs.Ends fun fuel => g fuel (x, s)) : bs.Ends fun fuel => (f fuel).bind (g fuel) := by
  obtain ⟨x, s, hready, hf⟩ := hf
  obtain ⟨y, s', hready', hg⟩ := hg x s hready
  refine ⟨y, s', hready', ?_⟩
  filter_upwards [hf, hg] with fuel hf hg
  rw [hf]
  exact hg

theorem ends_map {f : Nat → Option (α × Shaper)} {g : α × Shaper → β × Shaper} (hf : bs.Ends f)
    (hg : ∀ x s, bs.Ready s → bs.Ready (g (x, s)).2) : bs.Ends fun fuel => (f fuel).map g := by
  obtain ⟨x, s, hready, hf⟩ := hf
  refine ⟨(g (x, s)).1, (g (x, s)).2, hg x s hready, ?_⟩
  filter_upwards [hf] with fuel hf
  rw [hf]
  rfl

theorem eventually_of_succ {p : Nat → Prop} (h : ∀ᶠ fuel in atTop, p (fuel + 1)) : ∀ᶠ fuel in atTop, p fuel := by
  rw [← map_add_atTop_eq_nat 1]
  exact eventually_map.mpr h

theorem rejectBelow_round {floor : ℚ} {u : Stream' ℚ}
    (h : (∀ size, bs.model.sample u.head = some size → floor ≤ bs.model.quantile size) ∨
      ∃ found, ∀ᶠ fuel in atTop, bs.model.rejectBelow floor (u.tail.take fuel) = some found) :
    ∃ found, ∀ᶠ fuel in atTop, bs.model.rejectBelow floor (u.take fuel) = some found := by
  obtain ⟨i, hi, hsample⟩ := bs.sample_mem u.head
  by_cases haccepted : floor ≤ bs.model.quantile (bs.list[i]).size
  · refine ⟨((bs.list[i]).size, 1), eventually_of_succ (.of_forall fun fuel => ?_)⟩
    rw [Stream'.take_succ, SizeModel.rejectBelow, hsample]
    exact if_pos haccepted
  · obtain ⟨⟨size, n⟩, hrest⟩ := h.resolve_left fun hall => haccepted (hall _ hsample)
    refine ⟨(size, n + 1), eventually_of_succ ?_⟩
    filter_upwards [hrest] with fuel hrest
    rw [Stream'.take_succ, SizeModel.rejectBelow, hsample]
    dsimp only
    rw [if_neg haccepted, hrest]
    rfl

theorem rejectBelow_ends {floor : ℚ} (hfloor : floor ≤ bs.before (bs.list.length - 1)) (n : Nat) (u : Stream' ℚ)
    (hu : ∀ i, u.get i < 1) (h : bs.before (bs.list.length - 1) < u.get n) :
    ∃ found, ∀ᶠ fuel in atTop, bs.model.rejectBelow floor (u.take fuel) = some found := by
  have hpos := List.length_pos_iff.mpr bs.nonempty
  induction n generalizing u with
  | zero =>
    have hlast : bs.model.sample u.head = some (bs.list[bs.list.length - 1]).size := by
      apply bs.sample_eq (by omega) h
      rw [Nat.sub_add_cancel hpos, bs.before_length]
      exact (hu 0).le
    refine rejectBelow_round (.inl fun size hsize => ?_)
    rw [hlast, Option.some.injEq] at hsize
    rw [← hsize, bs.quantile_size (by omega)]
    exact hfloor
  | succ n ih => exact rejectBelow_round (.inr (ih u.tail (fun i => hu (i + 1)) h))

theorem sampleBiased_ends (hlight : bs.LastLight) (ps : PaddingSelector) {u : Stream' ℚ} (hfair : bs.Fair u) :
    ∃ found, ∀ᶠ fuel in atTop, bs.model.sampleBiased ps.floor (u.take fuel) = some found := by
  unfold SizeModel.sampleBiased PaddingSelector.floor
  cases ps.inLargeMode with
  | false =>
    obtain ⟨i, hi, hsize⟩ := bs.sample_mem u.head
    refine ⟨((bs.list[i]).size, 1), eventually_of_succ (.of_forall fun fuel => ?_)⟩
    simp only [Bool.false_eq_true, if_false, le_rfl, if_true]
    rw [Stream'.take_succ, List.head?_cons, Option.bind_some, hsize]
    rfl
  | true =>
    obtain ⟨n, hn⟩ := hfair.last 0
    simp only [if_true, if_neg (by norm_num : ¬(6 / 10 : ℚ) ≤ 0)]
    exact rejectBelow_ends (bs.lastLight_iff.mp hlight) _ u (fun i => (hfair.ranged i).2) hn

theorem sampleCorrelatedSize_ends (hlight : bs.LastLight) {s : Shaper} (h : bs.Ready s) :
    bs.Ends fun fuel => s.sampleCorrelatedSize fuel := by
  obtain ⟨hmodel, hfair⟩ := h
  obtain ⟨⟨size, n⟩, hsample⟩ := sampleBiased_ends hlight (s.padding.flip s.draws.head) (hfair.drop 1)
  let s' : Shaper := { s with
    draws := s.draws.tail.drop n, padding := s.padding.flip s.draws.head
    wasLarge := s.wasLarge || (s.padding.flip s.draws.head).inLargeMode }
  have hready : bs.Ready s' := ⟨(PaddingSelector.flip_sizeModel _ _).trans hmodel, (hfair.drop 1).drop n⟩
  refine ⟨size, s', hready, ?_⟩
  filter_upwards [hsample] with fuel hsample
  unfold Shaper.sampleCorrelatedSize PaddingSelector.sampleCorrelatedSize
  rw [hmodel]
  exact congrArg (Option.map _) hsample

theorem round_ends (hlight : bs.LastLight) {s : Shaper} (h : bs.Ready s) : bs.Ends fun fuel => s.round fuel := by
  have htarget : ∀ s : Shaper, bs.Ready s → bs.Ends fun fuel => s.selectTarget fuel := by
    intro s h
    have htail : bs.Ready { s with draws := s.draws.tail } := ⟨h.1, h.2.drop 1⟩
    unfold Shaper.selectTarget
    split_ifs
    · exact ends_of_ready none htail
    · exact ends_map (sampleCorrelatedSize_ends hlight htail) fun _ _ hready => hready
  unfold Shaper.round
  refine ends_bind (sampleCorrelatedSize_ends hlight h) fun _ s₁ h₁ => ?_
  exact ends_map (htarget s₁ h₁) fun _ _ hready => hready

theorem fragmentAndSend_ends (hlight : bs.LastLight) (rounds : Nat) {s : Shaper} (h : bs.Ready s) (data : Bytes)
    (hrounds : data.length ≤ rounds) : bs.Ends fun fuel => s.fragmentAndSend fuel rounds data := by
  induction rounds generalizing s data with
  | zero =>
    obtain rfl := List.eq_nil_of_length_eq_zero (Nat.le_zero.mp hrounds)
    exact ends_of_ready _ h
  | succ rounds ih =>
    cases hne : data.isEmpty with
    | true =>
      unfold Shaper.fragmentAndSend
      simp only [fragmentFrom_empty _ s hne]
      exact ends_of_ready _ h
    | false =>
      unfold Shaper.fragmentAndSend at ih ⊢
      simp only [fragmentFrom_round rounds s hne]
      refine ends_bind (round_ends hlight h) fun d s₁ h₁ => ?_
      dsimp only
      cases d.fault with
      | some e => exact ends_of_ready _ h₁
      | none =>
        have hpos := maxPayload_pos d.apparentSize
        exact ends_map (ih h₁ _ (by rw [List.length_drop]; omega)) fun _ _ hready => hready

theorem sendBursts_ends (hlight : bs.LastLight) (bursts : List Bytes) {s : Shaper} (h : bs.Ready s) :
    bs.Ends fun fuel => s.sendBursts fuel bursts := by
  induction bursts generalizing s with
  | nil => exact ends_of_ready _ h
  | cons burst bursts ih =>
    refine ends_bind (fragmentAndSend_ends hlight burst.length h burst le_rfl) fun _ s₁ h₁ => ?_
    exact ends_map (ih h₁) fun _ _ hready => hready

/-! ## With a heavy last bucket the large mode is the end -/

theorem sampleCorrelatedSize_large (hheavy : ¬bs.LastLight) {s : Shaper} (hm : s.padding.sizeModel = bs.model)
    (hlarge : (s.padding.flip s.draws.head).inLargeMode = true) (fuel : Nat) : s.sampleCorrelatedSize fuel = none := by
  rw [bs.lastLight_iff, not_le] at hheavy
  unfold Shaper.sampleCorrelatedSize PaddingSelector.sampleCorrelatedSize PaddingSelector.floor
  rw [if_pos hlarge, hm, SizeModel.sampleBiased_of_pos (by norm_num), bs.rejectBelow_none hheavy]
  rfl

/-- A selector of the model that was never in the large mode. -/
structure Small (bs : Buckets) (s : Shaper) : Prop where
  model : s.padding.sizeModel = bs.model
  now : s.padding.inLargeMode = false
  ever : s.wasLarge = false

theorem small_sampleCorrelatedSize (hheavy : ¬bs.LastLight) {fuel : Nat} {s s' : Shaper} {size : Int}
    (hs : bs.Small s) (h : s.sampleCorrelatedSize fuel = some (size, s')) : bs.Small s' := by
  have hsmall : (s.padding.flip s.draws.head).inLargeMode = false := by
    rw [Bool.eq_false_iff]
    intro hlarge
    rw [sampleCorrelatedSize_large hheavy hs.model hlarge] at h
    cases h
  obtain ⟨n, -, rfl⟩ := Shaper.sampleCorrelatedSize_inv h
  refine ⟨(PaddingSelector.flip_sizeModel _ _).trans hs.model, hsmall, ?_⟩
  rw [hs.ever, hsmall]
  rfl

theorem small_round (hheavy : ¬bs.LastLight) {fuel : Nat} {s s' : Shaper} {d : Round} (hs : bs.Small s)
    (h : s.round fuel = some (d, s')) : bs.Small s' := by
  obtain ⟨s₁, s₂, hsize, htarget, rfl⟩ := Shaper.round_inv h
  have h₁ := small_sampleCorrelatedSize hheavy hs hsize
  rcases Shaper.selectTarget_inv htarget with ⟨-, rfl⟩ | ⟨t, -, hsample⟩
  · exact ⟨h₁.model, h₁.now, h₁.ever⟩
  · have htail : bs.Small { s₁ with draws := s₁.draws.tail } := ⟨h₁.model, h₁.now, h₁.ever⟩
    have h₂ := small_sampleCorrelatedSize hheavy htail hsample
    exact ⟨h₂.model, h₂.now, h₂.ever⟩

theorem small_sendBursts (hheavy : ¬bs.LastLight) {fuel : Nat} (bursts : List Bytes) {s s' : Shaper}
    {results : List (List Sent × Option GoError)} (hs : bs.Small s)
    (h : s.sendBursts fuel bursts = some (results, s')) : bs.Small s' := by
  induction bursts generalizing s results with
  | nil =>
    obtain ⟨-, rfl⟩ := Prod.mk.inj (Option.some.inj h)
    exact hs
  | cons burst bursts ih =>
    obtain ⟨⟨result, s₁⟩, hburst, h⟩ := Option.bind_eq_some_iff.mp h
    obtain ⟨⟨rest, s₂⟩, hrest, hpair⟩ := Option.map_eq_some_iff.mp h
    obtain ⟨-, rfl⟩ := Prod.mk.inj hpair
    exact ih (fragmentFrom_keeps (fun _ _ _ hs hround => small_round hheavy hs hround) _ hs hburst) hrest

/-- The draws that change the mode at once and come from the last bucket from then on. -/
def spinning (bs : Buckets) : Stream' ℚ := .cons 0 (.const ((bs.before (bs.list.length - 1) + 1) / 2))

theorem fair_spinning (bs : Buckets) : bs.Fair bs.spinning := by
  have hpos := List.length_pos_iff.mpr bs.nonempty
  have hlt : bs.before (bs.list.length - 1) < 1 := by
    have h := bs.before_lt_succ (i := bs.list.length - 1) (by omega)
    rwa [Nat.sub_add_cancel hpos, bs.before_length] at h
  have hnonneg : 0 ≤ bs.before (bs.list.length - 1) := by
    rw [← bs.before_zero]
    exact bs.before_mono (Nat.zero_le _) (by omega)
  have hget : ∀ n, bs.spinning.get (n + 1) = (bs.before (bs.list.length - 1) + 1) / 2 := fun _ => rfl
  refine ⟨fun n => ?_, fun n => ⟨1, ?_⟩⟩
  · cases n with
    | zero => exact ⟨le_refl (0 : ℚ), zero_lt_one⟩
    | succ n =>
      rw [hget]
      constructor <;> linarith
  · rw [hget]
    linarith

theorem isGreatest_largest (bs : Buckets) : IsGreatest { s | s ∈ bs.model.sizes } bs.largest := by
  refine ⟨List.mem_map_of_mem (List.getLast_mem bs.nonempty), fun s hs => ?_⟩
  obtain ⟨b, hb, rfl⟩ := List.mem_map.mp hs
  obtain ⟨i, hi, rfl⟩ := List.getElem_of_mem hb
  have hi : i < bs.list.length := hi
  unfold largest
  rw [List.getLast_eq_getElem]
  rcases Nat.lt_or_eq_of_le (Nat.le_sub_one_of_lt hi) with hlt | heq
  · exact (List.pairwise_iff_getElem.mp bs.increasing i _ hi (by omega) hlt).le
  · subst heq
    exact le_rfl

end Buckets

/-- **Shaping** ends for all fair draws exactly if the last bucket has at most 40 % of the weight. -/
theorem shaping_finishes_iff (bs : Buckets) :
    ((∀ draws writes bursts, bs.Fair draws → ∃ fuel results s,
        (newShaper bs.model draws writes).sendBursts fuel bursts = some (results, s) ∧
          List.Forall₂ (bs.model.Delivered bs.largest) bursts results) ↔ bs.LastLight) ∧
      (¬bs.LastLight → ∀ draws writes bursts fuel results s,
        (newShaper bs.model draws writes).sendBursts fuel bursts = some (results, s) →
          s.padding.inLargeMode = false ∧ s.wasLarge = false) ∧
      ∀ p : Preset, p.buckets.LastLight ↔ p ≠ .videoStream := by
  refine ⟨⟨fun h => ?_, fun hlight draws writes bursts hfair => ?_⟩,
    fun hheavy draws writes bursts fuel results s h => ?_,
    fun p => by cases p <;> decide +kernel⟩
  · by_contra hheavy
    have hflip : (PaddingSelector.flip 0 { sizeModel := bs.model }).inLargeMode = true := by
      unfold PaddingSelector.flip
      rw [if_pos (by norm_num)]
      rfl
    obtain ⟨fuel, results, s, hsent, -⟩ := h bs.spinning (.const ([], none)) [[0]] bs.fair_spinning
    obtain ⟨⟨result, s₁⟩, hburst, -⟩ := Option.bind_eq_some_iff.mp hsent
    have hround : (newShaper bs.model bs.spinning (.const ([], none))).round fuel = none := by
      have hnone := Buckets.sampleCorrelatedSize_large (s := newShaper bs.model bs.spinning (.const ([], none)))
        hheavy rfl hflip fuel
      unfold Shaper.round
      rw [hnone]
      rfl
    unfold Shaper.fragmentAndSend at hburst
    rw [List.length_singleton, fragmentFrom_round _ _ rfl, hround] at hburst
    cases hburst
  · obtain ⟨results, s, -, hends⟩ := Buckets.sendBursts_ends hlight bursts
      (s := newShaper bs.model draws writes) ⟨rfl, hfair⟩
    obtain ⟨fuel, hsent⟩ := hends.exists
    exact ⟨fuel, results, s, hsent, Shaper.sendBursts_delivers bs.isGreatest_largest bursts rfl hsent⟩
  · have hsmall := Buckets.small_sendBursts hheavy bursts ⟨rfl, rfl, rfl⟩ h
    exact ⟨hsmall.now, hsmall.ever⟩

end Daxson.Bcl
