import Daxson.Invite.Wire

/-! # Frames

`WriteFrame` and `ReadFrame`, and the scan of a frame that has come in part.
-/

open Lib Lib.BigEndian

namespace Daxson.Protocol

def frameHeaderSize : Nat := 11
def maxPayloadSize : Nat := 65535
def maxPaddingSize : Nat := 1024

def typeData : UInt8 := 0x01
def typePing : UInt8 := 0x05
def typePong : UInt8 := 0x06
def typePadding : UInt8 := 0x08

def addrIPv4 : UInt8 := 0x01
def addrDomain : UInt8 := 0x03
def addrIPv6 : UInt8 := 0x04

structure Frame where
  type : UInt8
  streamID : UInt32 := 0
  payload : Bytes
  padLen : UInt16 := 0
  deriving DecidableEq, Repr

def errFrameTooLarge : GoError := .sentinel "protocol: frame payload exceeds maximum size"
def errPaddingTooLarge : GoError := .sentinel "protocol: frame padding exceeds maximum size"

/-- The bytes of a frame, with `pad` for what the random source draws. -/
def Frame.encode (f : Frame) (pad : Bytes) : Bytes :=
  [f.type] ++ (beBytes 4 f.streamID.toNat ++ (beBytes 4 f.payload.length ++ (beBytes 2 f.padLen.toNat ++
    (f.payload ++ (copyArr f.padLen.toNat pad).val))))

def writeFrame (f : Frame) (pad : Bytes) : Except GoError Bytes :=
  if maxPayloadSize < f.payload.length then .error errFrameTooLarge
  else if maxPaddingSize < f.padLen.toNat then .error errPaddingTooLarge
  else .ok (f.encode pad)

def readFrame (r : ByteReader) : Except GoError Frame × ByteReader :=
  match readFull frameHeaderSize r with
  | (.error e, r) => (.error (.sys e), r)
  | (.ok hdr, r) =>
    let length := beVal (slice hdr 5 9)
    let padLen := beVal (slice hdr 9 11)
    if maxPayloadSize < length then (.error errFrameTooLarge, r)
    else if maxPaddingSize < padLen then (.error errPaddingTooLarge, r)
    else
      match readFull length r with
      | (.error e, r) => (.error (.sys e), r)
      | (.ok payload, r) =>
        match readFull padLen r with
        | (.error e, r) => (.error (.sys e), r)
        | (.ok _, r) =>
          (.ok {
            type := hdr.headD 0
            streamID := UInt32.ofNat (beVal (slice hdr 1 5))
            payload := payload
            padLen := UInt16.ofNat padLen }, r)

/-! ## A frame that has come in part -/

inductive Scan where
  /-- The read in progress still wants `n` bytes. -/
  | need (n : Nat)
  | fail (err : GoError)
  | frame (f : Frame)
  deriving DecidableEq, Repr

def scan (got : Bytes) : Scan :=
  if got.length < frameHeaderSize then .need (frameHeaderSize - got.length)
  else
    let length := beVal (slice got 5 9)
    let padLen := beVal (slice got 9 11)
    if maxPayloadSize < length then .fail errFrameTooLarge
    else if maxPaddingSize < padLen then .fail errPaddingTooLarge
    else if got.length < frameHeaderSize + length then .need (frameHeaderSize + length - got.length)
    else if got.length < frameHeaderSize + length + padLen then
      .need (frameHeaderSize + length + padLen - got.length)
    else
      .frame {
        type := got.headD 0
        streamID := UInt32.ofNat (beVal (slice got 1 5))
        payload := slice got frameHeaderSize (frameHeaderSize + length)
        padLen := UInt16.ofNat padLen }

/-- The sizes that both ends check. -/
def Frame.Legal (f : Frame) : Prop := f.payload.length ≤ maxPayloadSize ∧ f.padLen.toNat ≤ maxPaddingSize

def Frame.size (f : Frame) : Nat := frameHeaderSize + f.payload.length + f.padLen.toNat

theorem frame_size_pos (f : Frame) : 0 < f.size := by
  unfold Frame.size frameHeaderSize
  omega

@[simp] theorem encode_length (f : Frame) (pad : Bytes) : (f.encode pad).length = f.size := by
  have hpad := (copyArr f.padLen.toNat pad).property
  simp only [Frame.encode, Frame.size, frameHeaderSize, List.length_append, List.length_singleton,
    beBytes_length, hpad]
  omega

theorem writeFrame_legal {f : Frame} (h : f.Legal) (pad : Bytes) : writeFrame f pad = .ok (f.encode pad) := by
  unfold writeFrame
  rw [if_neg (Nat.not_lt.mpr h.1), if_neg (Nat.not_lt.mpr h.2)]

/-! ## The header of an encoding -/

theorem encode_length_field {f : Frame} (h : f.Legal) (pad : Bytes) :
    beVal (slice (f.encode pad) 5 9) = f.payload.length := by
  have hslice : slice (f.encode pad) 5 9 = beBytes 4 f.payload.length := by
    have := slice_mid ([f.type] ++ beBytes 4 f.streamID.toNat) (beBytes 4 f.payload.length)
      (beBytes 2 f.padLen.toNat ++ (f.payload ++ (copyArr f.padLen.toNat pad).val)) 5 9 (by simp) (by simp)
    simpa only [Frame.encode, List.append_assoc] using this
  have hmax := h.1
  rw [hslice, beVal_beBytes, Nat.mod_eq_of_lt]
  unfold maxPayloadSize at hmax
  omega

theorem encode_pad_field (f : Frame) (pad : Bytes) : beVal (slice (f.encode pad) 9 11) = f.padLen.toNat := by
  have hslice : slice (f.encode pad) 9 11 = beBytes 2 f.padLen.toNat := by
    have := slice_mid ([f.type] ++ beBytes 4 f.streamID.toNat ++ beBytes 4 f.payload.length)
      (beBytes 2 f.padLen.toNat) (f.payload ++ (copyArr f.padLen.toNat pad).val) 9 11 (by simp) (by simp)
    simpa only [Frame.encode, List.append_assoc] using this
  have hlt : f.padLen.toNat < 256 ^ 2 := f.padLen.toNat_lt
  rw [hslice, beVal_beBytes, Nat.mod_eq_of_lt hlt]

theorem encode_stream_field (f : Frame) (pad : Bytes) :
    UInt32.ofNat (beVal (slice (f.encode pad) 1 5)) = f.streamID := by
  have hslice : slice (f.encode pad) 1 5 = beBytes 4 f.streamID.toNat :=
    slice_mid [f.type] (beBytes 4 f.streamID.toNat) _ 1 5 rfl (by simp)
  have hlt : f.streamID.toNat < 256 ^ 4 := f.streamID.toNat_lt
  rw [hslice, beVal_beBytes, Nat.mod_eq_of_lt hlt, UInt32.ofNat_toNat]

theorem encode_payload (f : Frame) (pad : Bytes) :
    slice (f.encode pad) frameHeaderSize (frameHeaderSize + f.payload.length) = f.payload := by
  have := slice_mid ([f.type] ++ beBytes 4 f.streamID.toNat ++ beBytes 4 f.payload.length ++
    beBytes 2 f.padLen.toNat) f.payload (copyArr f.padLen.toNat pad).val frameHeaderSize
    (frameHeaderSize + f.payload.length) (by simp [frameHeaderSize]) (by simp [frameHeaderSize])
  simpa only [Frame.encode, List.append_assoc] using this

/-! ## Scanning an encoding -/

theorem scan_encode {f : Frame} (h : f.Legal) (pad : Bytes) : scan (f.encode pad) = .frame f := by
  have hsize : f.size = frameHeaderSize + f.payload.length + f.padLen.toNat := rfl
  unfold scan
  simp only [encode_length, encode_length_field h, encode_pad_field, encode_stream_field, encode_payload]
  rw [if_neg (by omega), if_neg (Nat.not_lt.mpr h.1), if_neg (Nat.not_lt.mpr h.2), if_neg (by omega),
    if_neg (by omega), UInt16.ofNat_toNat]
  rfl

theorem scan_take {f : Frame} (h : f.Legal) (pad : Bytes) {k : Nat} (hk : k < f.size) :
    ∃ n, scan ((f.encode pad).take k) = .need n ∧ 0 < n ∧ k + n ≤ f.size := by
  have hsize : f.size = frameHeaderSize + f.payload.length + f.padLen.toNat := rfl
  have hlen : ((f.encode pad).take k).length = k := by
    rw [List.length_take, encode_length]
    omega
  unfold scan
  rw [hlen]
  by_cases hhdr : k < frameHeaderSize
  · rw [if_pos hhdr]
    exact ⟨_, rfl, by omega, by omega⟩
  · -- The header is there, so the two length fields are those of the frame.
    have h9 : 9 ≤ k := by unfold frameHeaderSize at hhdr; omega
    have h11 : 11 ≤ k := by unfold frameHeaderSize at hhdr; omega
    rw [if_neg hhdr]
    simp only [slice_take _ h9, slice_take _ h11, encode_length_field h, encode_pad_field]
    rw [if_neg (Nat.not_lt.mpr h.1), if_neg (Nat.not_lt.mpr h.2)]
    by_cases hpay : k < frameHeaderSize + f.payload.length
    · rw [if_pos hpay]
      exact ⟨_, rfl, by omega, by omega⟩
    · rw [if_neg hpay, if_pos (by omega)]
      exact ⟨_, rfl, by omega, by omega⟩

/-! ## Scan and `ReadFrame` -/

theorem scan_frame {got : Bytes} {f : Frame} (h : scan got = .frame f) :
    frameHeaderSize ≤ got.length ∧ f.type = got.headD 0 ∧ f.streamID = UInt32.ofNat (beVal (slice got 1 5)) ∧
      f.payload = slice got frameHeaderSize (frameHeaderSize + beVal (slice got 5 9)) ∧
      f.payload.length = beVal (slice got 5 9) ∧ f.padLen.toNat = beVal (slice got 9 11) ∧ f.Legal ∧
      f.size ≤ got.length := by
  unfold scan at h
  split_ifs at h with hhdr
  dsimp only at h
  split_ifs at h with hmax hpad hpay hall
  have hlt : beVal (slice got 9 11) < 2 ^ 16 := by
    unfold maxPaddingSize at hpad
    omega
  have hlen : (slice got frameHeaderSize (frameHeaderSize + beVal (slice got 5 9))).length =
      beVal (slice got 5 9) := by
    rw [slice_length got (by omega)]
    omega
  obtain rfl := Scan.frame.inj h
  have hpl : (UInt16.ofNat (beVal (slice got 9 11))).toNat = beVal (slice got 9 11) := UInt16.toNat_ofNat_of_lt' hlt
  refine ⟨by omega, rfl, rfl, rfl, hlen, hpl, ⟨?_, ?_⟩, ?_⟩
  · simp only [hlen]
    omega
  · simp only [hpl]
    omega
  · simp only [Frame.size, hlen, hpl]
    omega

theorem readFrame_of_scan {got rest : Bytes} {f : Frame} (h : scan got = .frame f) (hsize : got.length = f.size)
    (r : ByteReader) (hr : r.content = got ++ rest) : ∃ r', readFrame r = (.ok f, r') ∧ r'.content = rest := by
  obtain ⟨hhdr, htype, hsid, hpay, hplen, hpad, hlegal, -⟩ := scan_frame h
  have hlen : got.length = frameHeaderSize + f.payload.length + f.padLen.toNat := hsize
  obtain ⟨r1, h1, hr1⟩ := readFull_ok frameHeaderSize r (by rw [hr, List.length_append]; omega)
  obtain ⟨r2, h2, hr2⟩ := readFull_ok f.payload.length r1 (by
    rw [hr1, hr, List.length_drop, List.length_append]
    omega)
  obtain ⟨r3, h3, hr3⟩ := readFull_ok f.padLen.toNat r2 (by
    rw [hr2, hr1, hr, List.length_drop, List.length_drop, List.length_append]
    omega)
  have hslice : ∀ {lo hi : Nat}, hi ≤ frameHeaderSize →
      slice (r.content.take frameHeaderSize) lo hi = slice got lo hi := by
    intro lo hi hle
    rw [slice_take _ hle, hr, slice_append _ _ (hle.trans hhdr)]
  have hhead : (r.content.take frameHeaderSize).headD 0 = got.headD 0 := by
    rw [hr, List.take_append_of_le_length hhdr]
    cases got with
    | nil => cases hhdr
    | cons b t => rfl
  have hpayload : r1.content.take f.payload.length = f.payload := by
    rw [hr1, hr, List.drop_append_of_le_length hhdr, List.take_append_of_le_length (by
      rw [List.length_drop]
      omega)]
    conv_rhs => rw [hpay, ← hplen]
    rw [slice, List.drop_take]
    congr 1
    omega
  refine ⟨r3, ?_, ?_⟩
  · unfold readFrame
    rw [h1]
    simp only [hslice (by decide : 9 ≤ frameHeaderSize), hslice (by decide : 11 ≤ frameHeaderSize),
      hslice (by decide : 5 ≤ frameHeaderSize), hhead, ← hplen, ← hpad, ← htype, ← hsid]
    rw [if_neg (Nat.not_lt.mpr hlegal.1), if_neg (Nat.not_lt.mpr hlegal.2), h2]
    simp only [h3, hpayload, UInt16.ofNat_toNat]
  · rw [hr3, hr2, hr1, hr, List.drop_drop, List.drop_drop, List.drop_left' (by omega)]

end Daxson.Protocol
