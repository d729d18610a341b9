import Daxson.Protocol.Frame

/-! # Streams of frames -/

open Lib Lib.BigEndian

namespace Daxson.Protocol

theorem legal_iff (f : Frame) : f.Legal ↔ f.payload.length ≤ 65535 ∧ f.padLen.toNat ≤ 1024 := Iff.rfl

instance (f : Frame) : Decidable f.Legal := inferInstanceAs (Decidable (_ ∧ _))

theorem writeFrame_ok_iff (f : Frame) (pad b : Bytes) :
    writeFrame f pad = .ok b ↔ f.Legal ∧ b = f.encode pad := by
  unfold writeFrame Frame.Legal
  split_ifs with hpay hpad
  · simp
    omega
  · simp
    omega
  · simp only [Except.ok.injEq]
    constructor
    · intro h
      exact ⟨⟨by omega, by omega⟩, h.symm⟩
    · intro h
      exact h.2.symm

/-! ## Writing and reading back -/

/-- What a list of `WriteFrame` calls puts on the wire, each with its padding. -/
def written (fs : List (Frame × Bytes)) : Bytes :=
  fs.flatMap fun (f, pad) =>
    match writeFrame f pad with
    | .ok b => b
    | .error _ => []

def accepted (fs : List (Frame × Bytes)) : List Frame := (fs.map Prod.fst).filter (decide ·.Legal)

/-- The results of `n` calls of `ReadFrame`. -/
def readFrames : Nat → ByteReader → List (Except GoError Frame)
  | 0, _ => []
  | n + 1, r => (readFrame r).1 :: readFrames n (readFrame r).2

theorem readFrame_fin (r : ByteReader) : (readFrame r).2.fin = r.fin := by
  unfold readFrame
  have h1 := readFull_fin frameHeaderSize r
  generalize readFull frameHeaderSize r = x at h1 ⊢
  rcases x with ⟨_ | hdr, r1⟩
  · exact h1
  dsimp only at h1 ⊢
  split_ifs
  · exact h1
  · exact h1
  have h2 := readFull_fin (beVal (slice hdr 5 9)) r1
  generalize readFull (beVal (slice hdr 5 9)) r1 = x at h2 ⊢
  rcases x with ⟨_ | payload, r2⟩
  · exact h2.trans h1
  dsimp only at h2 ⊢
  have h3 := readFull_fin (beVal (slice hdr 9 11)) r2
  generalize readFull (beVal (slice hdr 9 11)) r2 = x at h3 ⊢
  rcases x with ⟨_ | padding, r3⟩ <;> exact h3.trans (h2.trans h1)

theorem readFrame_end (r : ByteReader) (h : r.content = []) : (readFrame r).1 = .error (.sys r.fin) := by
  unfold readFrame
  have hend := readFull_end frameHeaderSize r (by decide) h
  generalize readFull frameHeaderSize r = x at hend ⊢
  rcases x with ⟨e | hdr, r1⟩
  · rw [← Except.error.inj hend]
  · cases hend

theorem readFrames_written (fs : List (Frame × Bytes)) (r : ByteReader) (h : r.content = written fs) :
    readFrames ((accepted fs).length + 1) r = (accepted fs).map .ok ++ [.error (.sys r.fin)] := by
  induction fs generalizing r with
  | nil => simp [accepted, readFrames, readFrame_end r h]
  | cons fp fs ih =>
    obtain ⟨f, pad⟩ := fp
    by_cases hf : f.Legal
    · have hw : written ((f, pad) :: fs) = f.encode pad ++ written fs := by
        simp [written, writeFrame_legal hf]
      obtain ⟨r', hread, hrest⟩ := readFrame_of_scan (scan_encode hf pad) (encode_length f pad) r (h.trans hw)
      have hfin := readFrame_fin r
      have hacc : accepted ((f, pad) :: fs) = f :: accepted fs := by simp [accepted, hf]
      rw [hacc, List.length_cons, readFrames, hread, ih r' hrest]
      rw [hread] at hfin
      rw [← hfin]
      rfl
    · have hw : written ((f, pad) :: fs) = written fs := by
        cases hres : writeFrame f pad with
        | ok b => exact absurd ((writeFrame_ok_iff f pad b).mp hres).1 hf
        | error e => simp [written, hres]
      have hacc : accepted ((f, pad) :: fs) = accepted fs := by simp [accepted, hf]
      rw [hacc]
      exact ih r (h.trans hw)

/-! ## Reading and writing back -/

theorem readFrame_inv {r r' : ByteReader} {f : Frame} (h : readFrame r = (.ok f, r')) :
    ∃ b, r.content = b ++ r'.content ∧ b.length = f.size ∧ scan b = .frame f := by
  unfold readFrame at h
  rcases h1 : readFull frameHeaderSize r with ⟨_ | hdr, r1⟩
  · rw [h1] at h
    cases h
  obtain ⟨hlen1, rfl, hr1⟩ := readFull_inv h1
  rw [h1] at h
  dsimp only at h
  have hslice : ∀ {lo hi : Nat}, hi ≤ frameHeaderSize →
      slice (r.content.take frameHeaderSize) lo hi = slice r.content lo hi := fun hle => slice_take _ hle
  rw [hslice (by decide : 9 ≤ frameHeaderSize), hslice (by decide : 11 ≤ frameHeaderSize),
    hslice (by decide : 5 ≤ frameHeaderSize)] at h
  generalize hL : beVal (slice r.content 5 9) = L at h
  generalize hP : beVal (slice r.content 9 11) = P at h
  split_ifs at h with hmax hpad
  · cases h
  · cases h
  rcases h2 : readFull L r1 with ⟨_ | payload, r2⟩
  · rw [h2] at h
    cases h
  obtain ⟨hlen2, rfl, hr2⟩ := readFull_inv h2
  rw [h2] at h
  dsimp only at h
  rcases h3 : readFull P r2 with ⟨_ | padding, r3⟩
  · rw [h3] at h
    cases h
  obtain ⟨hlen3, -, hr3⟩ := readFull_inv h3
  rw [h3] at h
  simp only [Prod.mk.injEq, Except.ok.injEq] at h
  obtain ⟨rfl, rfl⟩ := h
  rw [hr2, hr1, List.length_drop, List.length_drop] at hlen3
  rw [hr1, List.length_drop] at hlen2
  have hsplit : r3.content = r.content.drop (frameHeaderSize + L + P) := by
    rw [hr3, hr2, hr1, List.drop_drop, List.drop_drop, Nat.add_assoc]
  have hblen : (r.content.take (frameHeaderSize + L + P)).length = frameHeaderSize + L + P := by
    rw [List.length_take]
    omega
  have hP16 : (UInt16.ofNat P).toNat = P :=
    UInt16.toNat_ofNat_of_lt' (lt_of_le_of_lt (Nat.not_lt.mp hpad) (by decide))
  have hpay : r1.content.take L = slice (r.content.take (frameHeaderSize + L + P)) frameHeaderSize
      (frameHeaderSize + L) := by
    rw [slice_take _ (by omega), hr1, slice, List.drop_take]
    congr 1
    omega
  have hhead : (r.content.take frameHeaderSize).headD 0 = (r.content.take (frameHeaderSize + L + P)).headD 0 := by
    rw [List.headD_eq_head?_getD, List.headD_eq_head?_getD, List.head?_take, List.head?_take,
      if_neg (by decide), if_neg (by unfold frameHeaderSize; omega)]
  refine ⟨r.content.take (frameHeaderSize + L + P), ?_, ?_, ?_⟩
  · rw [hsplit, List.take_append_drop]
  · rw [hblen, Frame.size, hP16, List.length_take, hr1, List.length_drop]
    omega
  · have hfield : ∀ {lo hi : Nat}, hi ≤ frameHeaderSize →
        slice (r.content.take (frameHeaderSize + L + P)) lo hi = slice r.content lo hi :=
      fun hle => slice_take _ (by omega)
    unfold scan
    simp only [hblen, hfield (by decide : 9 ≤ frameHeaderSize), hfield (by decide : 11 ≤ frameHeaderSize),
      hfield (by decide : 5 ≤ frameHeaderSize), hL, hP]
    rw [if_neg (by omega), if_neg hmax, if_neg hpad, if_neg (by omega), if_neg (by omega), hpay, hhead]

theorem encode_of_scan {b : Bytes} {f : Frame} (h : scan b = .frame f) (pad : Bytes) :
    (f.encode pad).take (frameHeaderSize + f.payload.length) = b.take (frameHeaderSize + f.payload.length) := by
  obtain ⟨hhdr, htype, hsid, hpay, hplen, hpad, -, -⟩ := scan_frame h
  have hhead : [f.type] = b.take 1 := by
    rw [htype]
    exact (take_one_eq (le_trans (by decide) hhdr)).symm
  have hs : beBytes 4 f.streamID.toNat = slice b 1 5 := by
    have hlt := beVal_lt (slice b 1 5)
    rw [slice_length b (le_trans (by decide) hhdr)] at hlt
    rw [hsid, UInt32.toNat_ofNat_of_lt' hlt]
    exact beBytes_slice b (le_trans (by decide) hhdr) rfl
  have hl : beBytes 4 f.payload.length = slice b 5 9 := by
    rw [hplen]
    exact beBytes_slice b (le_trans (by decide) hhdr) rfl
  have hp : beBytes 2 f.padLen.toNat = slice b 9 11 := by
    rw [hpad]
    exact beBytes_slice b hhdr rfl
  have hbody : f.payload = slice b 11 (11 + f.payload.length) := by
    rw [hplen]
    exact hpay
  have hsplit : b.take (frameHeaderSize + f.payload.length) =
      b.take 1 ++ slice b 1 5 ++ slice b 5 9 ++ slice b 9 11 ++ slice b 11 (11 + f.payload.length) := by
    rw [← take_slice b (by decide), ← take_slice b (by decide), ← take_slice b (by decide),
      ← take_slice b (by omega)]
    rfl
  rw [hsplit, ← hhead, ← hs, ← hl, ← hp, ← hbody, Frame.encode]
  simp only [← List.append_assoc]
  rw [List.take_left']
  simp [frameHeaderSize]
  omega

theorem frame_stream_codec :
    (∀ (f : Frame) (pad : Bytes),
      (∃ b, writeFrame f pad = .ok b) ↔ f.payload.length ≤ 65535 ∧ f.padLen.toNat ≤ 1024) ∧
    (∀ (fs : List (Frame × Bytes)) (chunks : List Bytes) (last : Bool), chunks.flatten = written fs →
      readFrames ((accepted fs).length + 1) ⟨chunks, .eof, last⟩ =
        (accepted fs).map .ok ++ [.error (.sys .eof)]) ∧
    (∀ (r r' : ByteReader) (f : Frame), readFrame r = (.ok f, r') →
      ∃ b, r.content = b ++ r'.content ∧
        b.length = 11 + beVal (slice b 5 9) + beVal (slice b 9 11) ∧
        ∀ pad, ∃ b', writeFrame f pad = .ok b' ∧ b'.length = b.length ∧
          b'.take (11 + beVal (slice b 5 9)) = b.take (11 + beVal (slice b 5 9))) := by
  refine ⟨fun f pad => ?_, fun fs chunks last h => ?_, fun r r' f h => ?_⟩
  · simp only [writeFrame_ok_iff, exists_and_left, exists_eq, and_true]
    exact legal_iff f
  · exact readFrames_written fs ⟨chunks, .eof, last⟩ h
  · obtain ⟨b, hcontent, hlen, hscan⟩ := readFrame_inv h
    obtain ⟨-, -, -, -, hplen, hpad, hlegal, -⟩ := scan_frame hscan
    have hsize : f.size = 11 + f.payload.length + f.padLen.toNat := rfl
    refine ⟨b, hcontent, by omega, fun pad => ⟨f.encode pad, writeFrame_legal hlegal pad, ?_, ?_⟩⟩
    · rw [encode_length, hlen]
    · rw [← hplen]
      exact encode_of_scan hscan pad

end Daxson.Protocol
