import Daxson.Bcl.Proofs
import Daxson.Bcl.Sizes
import Daxson.Lib.Machine

/-! # Fragmentation

Payload and padding of a frame come from two draws, and each is cut off at its own limits.
-/

open Lib.Machine

namespace Daxson.Bcl

open Protocol

section Loop

variable {σ : Type} (draw : σ → Option (Round × σ))

/-- `fragmentAndSend`, with a source for the draws of its rounds: the frames it wrote and its error, or `none` when it
has not returned after `fuel` rounds. -/
def fragmentFrom : Nat → σ → Bytes → Option ((List Sent × Option GoError) × σ)
  | 0, s, remaining => if remaining.isEmpty then some (([], none), s) else none
  | fuel + 1, s, remaining =>
    if remaining.isEmpty then some (([], none), s)
    else
      match draw s with
      | none => none
      | some (d, s) =>
        match Protocol.writeFrame (dataFrame d remaining) d.pad with
        | .error e => some (([], some (.wrap "bcl: write frame: %w" [] e)), s)
        | .ok _ =>
          match d.fault with
          | some e => some (([], some (.wrap "bcl: write frame: %w" [] (.sys e))), s)
          | none =>
            (fragmentFrom fuel s (remaining.drop (maxPayload d.apparentSize))).map
              fun ((sent, err), s) => (((dataFrame d remaining, d.pad) :: sent, err), s)

/-- The error of a write that failed. -/
def sendErr (e : SysError) : GoError := .wrap "bcl: write frame: %w" [] (.sys e)

variable {draw}

theorem fragmentFrom_empty (fuel : Nat) (s : σ) {remaining : Bytes} (hempty : remaining.isEmpty = true) :
    fragmentFrom draw fuel s remaining = some (([], none), s) := by
  cases fuel <;> rw [fragmentFrom, if_pos hempty]

theorem fragmentFrom_round (fuel : Nat) (s : σ) {remaining : Bytes} (hne : remaining.isEmpty = false) :
    fragmentFrom draw (fuel + 1) s remaining =
      (draw s).bind fun (d, s) =>
        match d.fault with
        | some e => some (([], some (sendErr e)), s)
        | none =>
          (fragmentFrom draw fuel s (remaining.drop (maxPayload d.apparentSize))).map
            fun ((sent, err), s) => (((dataFrame d remaining, d.pad) :: sent, err), s) := by
  rw [fragmentFrom, if_neg (by simp [hne])]
  cases draw s with
  | none => rfl
  | some r =>
    simp only [Protocol.writeFrame_legal (dataFrame_legal r.1 remaining)]
    rfl

theorem fragmentFrom_keeps {P : σ → Prop} (hdraw : ∀ s d s', P s → draw s = some (d, s') → P s') (fuel : Nat) {s s' : σ}
    {remaining : Bytes} {result : List Sent × Option GoError} (hs : P s)
    (h : fragmentFrom draw fuel s remaining = some (result, s')) : P s' := by
  induction fuel generalizing s remaining result with
  | zero =>
    rw [fragmentFrom] at h
    split_ifs at h
    obtain ⟨-, rfl⟩ := Prod.mk.inj (Option.some.inj h)
    exact hs
  | succ fuel ih =>
    cases hne : remaining.isEmpty with
    | true =>
      rw [fragmentFrom_empty _ s hne] at h
      obtain ⟨-, rfl⟩ := Prod.mk.inj (Option.some.inj h)
      exact hs
    | false =>
      rw [fragmentFrom_round fuel s hne] at h
      obtain ⟨⟨d, s₁⟩, hd, h⟩ := Option.bind_eq_some_iff.mp h
      have h₁ := hdraw s d s₁ hs hd
      cases hfault : d.fault with
      | some e =>
        simp only [hfault] at h
        obtain ⟨-, rfl⟩ := Prod.mk.inj (Option.some.inj h)
        exact h₁
      | none =>
        simp only [hfault] at h
        obtain ⟨⟨⟨sent, err⟩, s₂⟩, hrest, hpair⟩ := Option.map_eq_some_iff.mp h
        obtain ⟨-, rfl⟩ := Prod.mk.inj hpair
        exact ih h₁ hrest

end Loop

/-- `fragmentAndSend` over the draws of all rounds. -/
def fragmentAndSend (fuel : Nat) (draws : Nat → Round) (data : Bytes) : Option (List Sent × Option GoError) :=
  (fragmentFrom (fun u : Nat → Round => some (u 0, fun i => u (i + 1))) fuel draws data).map Prod.fst

def SizeModel.sizes (m : SizeModel) : List Int := m.buckets.map (·.size)

/-- Both sampling calls of the round returned a size of the model. -/
structure SizeModel.Drew (m : SizeModel) (d : Round) : Prop where
  apparent : d.apparentSize ∈ m.sizes
  target : ∀ t, d.target = some t → t ∈ m.sizes

theorem sample_mem_sizes {m : SizeModel} {u : ℚ} {s : Int} (h : m.sample u = some s) : s ∈ m.sizes := by
  obtain ⟨i, -, h⟩ := Option.bind_eq_some_iff.mp h
  obtain ⟨b, hb, rfl⟩ := Option.map_eq_some_iff.mp h
  exact List.mem_map_of_mem (List.mem_of_getElem? hb)

theorem rejectBelow_mem_sizes {m : SizeModel} {floor : ℚ} {draws : List ℚ} {s : Int} {n : Nat}
    (h : m.rejectBelow floor draws = some (s, n)) : s ∈ m.sizes := by
  induction draws generalizing n with
  | nil => cases h
  | cons u us ih =>
    unfold SizeModel.rejectBelow at h
    split at h
    · cases h
    · rename_i s' hs
      split_ifs at h
      · obtain ⟨rfl, -⟩ := Prod.mk.inj (Option.some.inj h)
        exact sample_mem_sizes hs
      · obtain ⟨⟨s'', k⟩, hrest, hpair⟩ := Option.map_eq_some_iff.mp h
        obtain ⟨rfl, -⟩ := Prod.mk.inj hpair
        exact ih hrest

theorem sampleBiased_mem_sizes {m : SizeModel} {floor : ℚ} {draws : List ℚ} {s : Int} {n : Nat}
    (h : m.sampleBiased floor draws = some (s, n)) : s ∈ m.sizes := by
  unfold SizeModel.sampleBiased at h
  split_ifs at h
  · obtain ⟨s', hs, hpair⟩ := Option.map_eq_some_iff.mp h
    obtain ⟨rfl, -⟩ := Prod.mk.inj hpair
    obtain ⟨u, -, hu⟩ := Option.bind_eq_some_iff.mp hs
    exact sample_mem_sizes hu
  · exact rejectBelow_mem_sizes h

theorem sampleCorrelatedSize_mem {ps : PaddingSelector} {u : ℚ} {draws : List ℚ} {s : Int} {n : Nat}
    (h : (ps.sampleCorrelatedSize u draws).1 = some (s, n)) : s ∈ ps.sizeModel.sizes :=
  sampleBiased_mem_sizes h

/-! ## One frame -/

theorem maxPayload_pos (size : Int) : 0 < maxPayload size := by
  unfold maxPayload
  dsimp only
  split_ifs <;> unfold maxPayloadSize at * <;> omega

theorem maxPayload_size (size : Int) : (frameHeaderSize + maxPayload size : Int) ≤ max 12 size := by
  unfold maxPayload frameHeaderSize
  dsimp only
  split_ifs <;> unfold maxPayloadSize at * <;> omega

theorem selectPadding_cases (target : Option Int) (n : Nat) :
    (selectPadding target n).toNat = 0 ∨
      ∃ t, target = some t ∧ (frameHeaderSize + n + (selectPadding target n).toNat : Int) ≤ t ∧
        ((selectPadding target n).toNat < maxPaddingSize →
          (frameHeaderSize + n + (selectPadding target n).toNat : Int) = t) := by
  unfold selectPadding
  cases target with
  | none => exact .inl rfl
  | some t =>
    dsimp only
    split_ifs with hgap hmax
    · exact .inl rfl
    · refine .inr ⟨t, rfl, ?_, ?_⟩
      · change (_ + _ + (1024 : Int)) ≤ t
        unfold maxPaddingSize at hmax
        omega
      · intro hlt
        exact absurd hlt (by decide)
    · have hval : (UInt16.ofNat (t - frameHeaderSize - n).toNat).toNat = (t - frameHeaderSize - n).toNat := by
        apply UInt16.toNat_ofNat_of_lt'
        unfold maxPaddingSize at hmax
        change _ < 65536
        omega
      refine .inr ⟨t, rfl, ?_, fun _ => ?_⟩ <;> rw [hval] <;> omega

/-- A frame that follows the model. -/
structure SizeModel.Conforms (m : SizeModel) (largest : Int) (f : Frame) : Prop where
  nonempty : f.payload ≠ []
  legal : f.Legal
  bounded : (frameHeaderSize + f.payload.length + f.padLen.toNat : Int) ≤ max 12 largest
  sampled : 0 < f.padLen.toNat → f.padLen.toNat < maxPaddingSize →
    (frameHeaderSize + f.payload.length + f.padLen.toNat : Int) ∈ m.sizes

theorem dataFrame_conforms {m : SizeModel} {largest : Int} {d : Round} {remaining : Bytes}
    (hmax : ∀ s ∈ m.sizes, s ≤ largest) (hd : m.Drew d) (hne : remaining.isEmpty = false) :
    m.Conforms largest (dataFrame d remaining) := by
  have hpos := maxPayload_pos d.apparentSize
  have hsize := maxPayload_size d.apparentSize
  have happarent := hmax _ hd.apparent
  have hlen : (dataFrame d remaining).payload.length ≤ maxPayload d.apparentSize := List.length_take_le _ _
  have hpad := selectPadding_cases d.target (dataFrame d remaining).payload.length
  have hsel : selectPadding d.target (dataFrame d remaining).payload.length = (dataFrame d remaining).padLen := rfl
  rw [hsel] at hpad
  refine ⟨?_, dataFrame_legal d remaining, ?_, ?_⟩
  · simp only [dataFrame, ne_eq, List.take_eq_nil_iff, not_or]
    exact ⟨by omega, by simpa using hne⟩
  · rcases hpad with hzero | ⟨t, ht, hle, -⟩
    · omega
    · have := hmax t (hd.target t ht)
      omega
  · intro hsome hlt
    rcases hpad with hzero | ⟨t, ht, -, heq⟩
    · omega
    · rw [heq hlt]
      exact hd.target t ht

/-! ## The loop -/

theorem fragmentAndSend_empty (fuel : Nat) (draws : Nat → Round) {data : Bytes} (hempty : data.isEmpty = true) :
    fragmentAndSend fuel draws data = some ([], none) := by
  unfold fragmentAndSend
  rw [fragmentFrom_empty fuel draws hempty]
  rfl

theorem fragmentAndSend_round (fuel : Nat) (draws : Nat → Round) {remaining : Bytes} (hne : remaining.isEmpty = false) :
    fragmentAndSend (fuel + 1) draws remaining =
      match (draws 0).fault with
      | some e => some ([], some (sendErr e))
      | none =>
        (fragmentAndSend fuel (fun i => draws (i + 1)) (remaining.drop (maxPayload (draws 0).apparentSize))).map
          fun (sent, err) => ((dataFrame (draws 0) remaining, (draws 0).pad) :: sent, err) := by
  unfold fragmentAndSend
  rw [fragmentFrom_round fuel draws hne, Option.bind_some]
  dsimp only
  cases (draws 0).fault with
  | some e => rfl
  | none => simp only [Option.map_map, Function.comp_def]

/-- What the loop has done when it returns. -/
structure Fragmented (m : SizeModel) (largest : Int) (draws : Nat → Round) (data : Bytes) (sent : List Sent)
    (err : Option GoError) : Prop where
  conforms : ∀ fp ∈ sent, m.Conforms largest fp.1
  -- Only a failed write ends the loop early.
  failed : ∀ e, err = some e → ∃ i fault, (draws i).fault = some fault ∧ e = sendErr fault
  in_order : (sent.map fun fp => fp.1.payload).flatten <+: data
  sent_all : err = none → (sent.map fun fp => fp.1.payload).flatten = data

theorem fragmentAndSend_fragments {m : SizeModel} {largest : Int} (hmax : ∀ s ∈ m.sizes, s ≤ largest)
    (fuel : Nat) (draws : Nat → Round) (hdraws : ∀ i, m.Drew (draws i)) (data : Bytes) (hfuel : data.length ≤ fuel) :
    ∃ sent err, fragmentAndSend fuel draws data = some (sent, err) ∧ Fragmented m largest draws data sent err := by
  induction fuel generalizing draws data with
  | zero =>
    obtain rfl := List.eq_nil_of_length_eq_zero (Nat.le_zero.mp hfuel)
    exact ⟨[], none, rfl, by simp, by simp, ⟨[], rfl⟩, fun _ => rfl⟩
  | succ fuel ih =>
    cases hne : data.isEmpty with
    | true =>
      rw [List.isEmpty_iff] at hne
      subst hne
      exact ⟨[], none, rfl, by simp, by simp, ⟨[], rfl⟩, fun _ => rfl⟩
    | false =>
      rw [fragmentAndSend_round fuel draws hne]
      cases hfault : (draws 0).fault with
      | some e =>
        refine ⟨[], some (sendErr e), rfl, by simp, ?_, ⟨data, rfl⟩, by simp⟩
        rintro e' he
        exact ⟨0, e, hfault, (Option.some.inj he).symm⟩
      | none =>
        have hpos := maxPayload_pos (draws 0).apparentSize
        obtain ⟨sent, err, hloop, hsent⟩ := ih (fun i => draws (i + 1)) (fun i => hdraws (i + 1))
          (data.drop (maxPayload (draws 0).apparentSize)) (by rw [List.length_drop]; omega)
        have hsplit : data = (dataFrame (draws 0) data).payload ++ data.drop (maxPayload (draws 0).apparentSize) :=
          (List.take_append_drop _ _).symm
        refine ⟨(dataFrame (draws 0) data, (draws 0).pad) :: sent, err, by rw [hloop]; rfl, ?_, ?_, ?_, ?_⟩
        · rintro fp (_ | ⟨_, hfp⟩)
          · exact dataFrame_conforms hmax (hdraws 0) hne
          · exact hsent.conforms fp hfp
        · intro e he
          obtain ⟨i, fault, hi, hfault⟩ := hsent.failed e he
          exact ⟨i + 1, fault, hi, hfault⟩
        · rw [List.map_cons, List.flatten_cons]
          conv_rhs => rw [hsplit]
          exact (List.prefix_append_right_inj _).mpr hsent.in_order
        · intro hnone
          rw [List.map_cons, List.flatten_cons, hsent.sent_all hnone]
          exact hsplit.symm

theorem sendRound_open {c : Conn} {d : Round} {data : Bytes} (hopen : c.connClosed = false)
    (hs : c.sender = .flush data) (hne : data.isEmpty = false) :
    (∀ e, d.fault = some e → ∃ c', c.sendRound d = some c' ∧ c'.wire = c.wire ∧ c'.sender = .wait ∧
      c'.writeErr = some (sendErr e)) ∧
    (d.fault = none → ∃ c', c.sendRound d = some c' ∧ c'.wire = c.wire ++ (dataFrame d data).encode d.pad ∧
      c'.sender = .flush (data.drop (maxPayload d.apparentSize)) ∧ c'.connClosed = false) := by
  unfold Conn.sendRound Conn.writeFrame
  rw [hs]
  simp only [hne, writeFrame_legal (dataFrame_legal d data), hopen]
  constructor
  · intro e he
    rw [he]
    exact ⟨_, rfl, rfl, rfl, rfl⟩
  · intro hnone
    rw [hnone]
    exact ⟨_, rfl, rfl, rfl, rfl⟩

/-- The rounds of the machine are the rounds of the loop. -/
theorem run_fragmentAndSend (p : Personality) (fuel : Nat) (draws : Nat → Round) (data : Bytes) (c : Conn)
    {sent : List Sent} {err : Option GoError} (hopen : c.connClosed = false) (hs : c.sender = .flush data)
    (h : fragmentAndSend fuel draws data = some (sent, err)) :
    ∃ n c', run (Conn.step p) c ((List.range n).map fun i => .sendRound (draws i)) = some c' ∧
      c'.wire = c.wire ++ encodeAll sent ∧ (err = none → c'.sender = .flush []) ∧
      ∀ e, err = some e → c'.sender = .wait ∧ c'.writeErr = some e := by
  induction fuel generalizing draws data c sent with
  | zero =>
    cases hne : data.isEmpty with
    | true =>
      rw [fragmentAndSend_empty 0 draws hne] at h
      cases h
      rw [List.isEmpty_iff.mp hne] at hs
      exact ⟨0, c, rfl, (List.append_nil _).symm, fun _ => hs, nofun⟩
    | false =>
      simp [fragmentAndSend, fragmentFrom, hne] at h
  | succ fuel ih =>
    cases hne : data.isEmpty with
    | true =>
      rw [fragmentAndSend_empty _ draws hne] at h
      cases h
      rw [List.isEmpty_iff.mp hne] at hs
      exact ⟨0, c, rfl, (List.append_nil _).symm, fun _ => hs, nofun⟩
    | false =>
      rw [fragmentAndSend_round fuel draws hne] at h
      obtain ⟨hfails, hsends⟩ := sendRound_open (d := draws 0) hopen hs hne
      cases hfault : (draws 0).fault with
      | some e =>
        rw [hfault] at h
        cases h
        obtain ⟨c', hround, hwire, hwait, herr⟩ := hfails e hfault
        refine ⟨1, c', ?_, by rw [hwire]; exact (List.append_nil _).symm, nofun, ?_⟩
        · simp [Conn.step, hround]
        · rintro e' ⟨⟩
          exact ⟨hwait, herr⟩
      | none =>
        rw [hfault] at h
        obtain ⟨⟨sent', err'⟩, hloop, hres⟩ := Option.map_eq_some_iff.mp h
        cases hres
        obtain ⟨c₁, hround, hwire, hflush, hopen₁⟩ := hsends hfault
        obtain ⟨n, c', hrun, hwire', hdone⟩ := ih _ _ c₁ hopen₁ hflush hloop
        refine ⟨n + 1, c', ?_, ?_, hdone⟩
        · rw [List.range_succ_eq_map, List.map_cons, List.map_map, run_cons]
          exact (congrArg (Option.bind · _) hround).trans hrun
        · rw [hwire', hwire, encodeAll_cons, List.append_assoc]

theorem fragmentation_conforms (m : SizeModel) (largest : Int) (hmax : IsGreatest { s | s ∈ m.sizes } largest)
    (draws : Nat → Round) (hdraws : ∀ i, m.Drew (draws i)) (data : Bytes) :
    ∃ sent err, fragmentAndSend data.length draws data = some (sent, err) ∧
      ((∀ i, (draws i).fault = none) → err = none ∧ (sent.map fun fp => fp.1.payload).flatten = data) ∧
      (∀ e, err = some e → ∃ i fault, (draws i).fault = some fault ∧ e = sendErr fault) ∧
      ∀ fp ∈ sent, fp.1.payload ≠ [] ∧ fp.1.payload.length ≤ 65535 ∧ fp.1.padLen.toNat ≤ 1024 ∧
        (11 + fp.1.payload.length + fp.1.padLen.toNat : Int) ≤ max 12 largest ∧
        (0 < fp.1.padLen.toNat → fp.1.padLen.toNat < 1024 →
          (11 + fp.1.payload.length + fp.1.padLen.toNat : Int) ∈ m.sizes) := by
  obtain ⟨sent, err, hloop, hsent⟩ := fragmentAndSend_fragments hmax.2 data.length draws hdraws data le_rfl
  refine ⟨sent, err, hloop, ?_, hsent.failed, ?_⟩
  · intro hok
    have hnone : err = none := by
      cases herr : err with
      | none => rfl
      | some e =>
        obtain ⟨i, fault, hi, -⟩ := hsent.failed e herr
        rw [hok i] at hi
        cases hi
    exact ⟨hnone, hsent.sent_all hnone⟩
  · intro fp hfp
    obtain ⟨hne, hlegal, hle, hsampled⟩ := hsent.conforms fp hfp
    exact ⟨hne, hlegal.1, hlegal.2, hle, hsampled⟩

theorem fragmentation_of_two_sizes :
    ∃ sent, fragmentAndSend 5 (fun i => { apparentSize := if i = 0 then 12 else 16, target := some 16 })
        [1, 2, 3, 4, 5] = some (sent, none) ∧
      (sent.map fun fp => fp.1.payload).flatten = [1, 2, 3, 4, 5] := by
  have hsmall : 12 ∈ (newSizeModel [⟨12, 1⟩, ⟨16, 1⟩]).sizes :=
    @sampleCorrelatedSize_mem { sizeModel := newSizeModel [⟨12, 1⟩, ⟨16, 1⟩] } (1 / 2) [1 / 4] 12 1 (by decide +kernel)
  have hlarge : 16 ∈ (newSizeModel [⟨12, 1⟩, ⟨16, 1⟩]).sizes :=
    @sampleCorrelatedSize_mem { sizeModel := newSizeModel [⟨12, 1⟩, ⟨16, 1⟩] } (1 / 2) [3 / 4] 16 1 (by decide +kernel)
  have hmax : IsGreatest { s | s ∈ (newSizeModel [⟨12, 1⟩, ⟨16, 1⟩]).sizes } 16 := by
    refine ⟨hlarge, ?_⟩
    intro s hs
    have hs : s = 12 ∨ s = 16 := by simpa [newSizeModel, SizeModel.sizes] using hs
    omega
  obtain ⟨sent, err, hloop, hall, -⟩ := fragmentation_conforms (newSizeModel [⟨12, 1⟩, ⟨16, 1⟩]) 16 hmax
    (fun i => { apparentSize := if i = 0 then 12 else 16, target := some 16 })
    (fun i => ⟨by dsimp only; split_ifs <;> assumption, fun t ht => Option.some.inj ht ▸ hlarge⟩) [1, 2, 3, 4, 5]
  obtain ⟨rfl, hdata⟩ := hall fun _ => rfl
  exact ⟨sent, hloop, hdata⟩

end Daxson.Bcl
