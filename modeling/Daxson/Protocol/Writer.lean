import Daxson.Lib.Buffer
import Daxson.Lib.Machine
import Daxson.Protocol.Stream

/-! # The Writer and its buffer

`Writer` builds every frame in one buffer that it keeps. A panic is `none`.
-/

open Lib Lib.BigEndian Lib.Buffer Lib.Machine

namespace Daxson.Protocol

/-- What the surroundings decide about one `WriteFrame`. -/
structure WriteEnv where
  /-- The bytes that the random source has for a slice of `n` bytes. -/
  drawn : (n : Nat) → ByteArr n
  /-- The random source fails after so many bytes. -/
  randErr : Option (Nat × SysError) := none
  writeErr : Option SysError := none

structure Writer where
  /-- The whole array: its length is `cap(fw.buf)`. -/
  buf : Bytes
  /-- The slices that were handed to the underlying writer, in order. -/
  handed : List Bytes

def newWriter : Writer := { buf := List.replicate 4096 0, handed := [] }

/-- `rand.Read(buf[lo:hi])`. -/
def WriteEnv.randRead (env : WriteEnv) (buf : Bytes) (lo hi : Nat) : Option (Option SysError × Bytes) :=
  let drawn := (env.drawn (hi - lo)).val
  match env.randErr with
  | none => (copyTo buf lo hi drawn).map fun buf => (none, buf)
  | some (n, e) => (copyTo buf lo hi (drawn.take n)).map fun buf => (some e, buf)

/-- The stores of `WriteFrame` into `buf`. Go checks the bounds of a slice against the capacity, and here
they are checked against the length, which is no more. -/
def Frame.store (f : Frame) (buf : Bytes) : Option Bytes := do
  let buf ← copyTo buf 0 1 [f.type]
  let buf ← copyTo buf 1 5 (beBytes 4 f.streamID.toNat)
  let buf ← copyTo buf 5 9 (beBytes 4 f.payload.length)
  let buf ← copyTo buf 9 11 (beBytes 2 f.padLen.toNat)
  copyTo buf frameHeaderSize buf.length f.payload

/-- The random source is asked only for padding. -/
def Frame.pad (f : Frame) (env : WriteEnv) (buf : Bytes) : Option (Option SysError × Bytes) :=
  if 0 < f.padLen then env.randRead buf (frameHeaderSize + f.payload.length) buf.length else some (none, buf)

def Writer.writeFrame (f : Frame) (env : WriteEnv) (fw : Writer) : Option (Option GoError × Writer) :=
  if maxPayloadSize < f.payload.length then some (some errFrameTooLarge, fw)
  else if maxPaddingSize < f.padLen.toNat then some (some errPaddingTooLarge, fw)
  else do
    let total := frameHeaderSize + f.payload.length + f.padLen.toNat
    let array := if fw.buf.length < total then List.replicate (total * 2) 0 else fw.buf
    let buf ← if total ≤ array.length then some (array.take total) else none
    let buf ← f.store buf
    let (err, buf) ← f.pad env buf
    let array := buf ++ array.drop total
    match err with
    | some e => some (some (.sys e), { fw with buf := array })
    | none => some (env.writeErr.map .sys, { buf := array, handed := fw.handed ++ [buf] })

/-! ## The buffer holds the encoding -/

/-- The header and the payload of a frame. -/
def Frame.head (f : Frame) : Bytes :=
  [f.type] ++ beBytes 4 f.streamID.toNat ++ beBytes 4 f.payload.length ++ beBytes 2 f.padLen.toNat ++ f.payload

theorem head_length (f : Frame) : f.head.length = frameHeaderSize + f.payload.length := by
  simp only [Frame.head, List.length_append, List.length_singleton, beBytes_length, frameHeaderSize]

theorem encode_eq_head (f : Frame) (pad : ByteArr f.padLen.toNat) : f.encode pad.val = f.head ++ pad.val := by
  simp only [Frame.encode, Frame.head, copyArr_val, List.append_assoc]

theorem store_head (f : Frame) {buf : Bytes} (hlen : buf.length = f.size) :
    f.store buf = some (f.head ++ buf.drop (frameHeaderSize + f.payload.length)) := by
  have hsize : f.size = 11 + f.payload.length + f.padLen.toNat := rfl
  have htype : copyTo buf 0 1 [f.type] = some ([f.type] ++ buf.drop 1) :=
    copyTo_append [] buf [f.type] rfl le_rfl (by rw [hlen]; omega)
  unfold Frame.store
  simp only [Option.bind_eq_bind]
  rw [htype, Option.bind_some,
    copyTo_append _ _ _ (by simp) (by simp) (by simp; omega), Option.bind_some,
    copyTo_append _ _ _ (by simp) (by simp) (by simp; omega), Option.bind_some,
    copyTo_append _ _ _ (by simp) (by simp) (by simp; omega), Option.bind_some,
    copyTo_append _ _ _ (by simp [frameHeaderSize]) (by simp [frameHeaderSize]; omega)
      (by simp [frameHeaderSize]; omega)]
  simp only [List.drop_drop, Frame.head, beBytes_length, frameHeaderSize]

theorem randRead_end (env : WriteEnv) {filled old : Bytes} {lo hi : Nat} (hlo : lo = filled.length)
    (hhi : hi = lo + old.length) :
    ∃ buf, env.randRead (filled ++ old) lo hi = some (env.randErr.map Prod.snd, buf) ∧
      (env.randErr = none → buf = filled ++ (env.drawn (hi - lo)).val) := by
  have hlen := (env.drawn (hi - lo)).property
  unfold WriteEnv.randRead
  cases env.randErr with
  | none =>
    dsimp only
    rw [copyTo_append _ _ _ hlo (by omega) (by omega), List.drop_of_length_le (by omega), List.append_nil]
    exact ⟨_, rfl, fun _ => rfl⟩
  | some ke =>
    obtain ⟨k, e⟩ := ke
    dsimp only
    rw [copyTo_append _ _ _ hlo (by rw [List.length_take]; omega) (by omega)]
    exact ⟨_, rfl, nofun⟩

/-! ## The encoder without a buffer -/

def WriteEnv.padErr (env : WriteEnv) (f : Frame) : Option SysError :=
  if 0 < f.padLen then env.randErr.map Prod.snd else none

/-- What a `WriteFrame` that allocates every frame would return, and what it would hand over. -/
def plainWrite (f : Frame) (env : WriteEnv) : Option GoError × List Bytes :=
  match Protocol.writeFrame f (env.drawn f.padLen.toNat).val with
  | .error e => (some e, [])
  | .ok b =>
    match env.padErr f with
    | some e => (some (.sys e), [])
    | none => (env.writeErr.map .sys, [b])

theorem pad_end (f : Frame) (env : WriteEnv) {old : Bytes} (hold : old.length = f.padLen.toNat) :
    ∃ buf, f.pad env (f.head ++ old) = some (env.padErr f, buf) ∧
      (env.padErr f = none → buf = f.encode (env.drawn f.padLen.toNat).val) := by
  have hsize : (f.head ++ old).length = frameHeaderSize + f.payload.length + old.length := by
    rw [List.length_append, head_length]
  unfold Frame.pad WriteEnv.padErr
  rw [encode_eq_head]
  split_ifs with hpad
  · obtain ⟨buf, hread, hbuf⟩ := randRead_end env (head_length f).symm hsize
    have hlen : (f.head ++ old).length - (frameHeaderSize + f.payload.length) = f.padLen.toNat := by omega
    refine ⟨buf, hread, ?_⟩
    intro hnone
    rw [hbuf (Option.map_eq_none_iff.mp hnone), hlen]
  · have hzero : f.padLen.toNat = 0 := by
      rw [UInt16.lt_iff_toNat_lt] at hpad
      exact Nat.eq_zero_of_not_pos hpad
    have hdrawn : (env.drawn f.padLen.toNat).val = [] :=
      List.eq_nil_of_length_eq_zero ((env.drawn f.padLen.toNat).property.trans hzero)
    have hnil : old = [] := List.eq_nil_of_length_eq_zero (hold.trans hzero)
    exact ⟨_, rfl, fun _ => by rw [hdrawn, hnil]⟩

theorem writeFrame_built (f : Frame) (env : WriteEnv) (fw : Writer) (h : f.Legal) :
    ∃ array, (∀ e, env.padErr f = some e → fw.writeFrame f env = some (some (.sys e), { fw with buf := array })) ∧
      (env.padErr f = none → fw.writeFrame f env = some (env.writeErr.map .sys,
        { buf := array, handed := fw.handed ++ [f.encode (env.drawn f.padLen.toNat).val] })) := by
  have hsize : frameHeaderSize + f.payload.length + f.padLen.toNat = f.size := rfl
  generalize harray : (if fw.buf.length < f.size then List.replicate (f.size * 2) 0 else fw.buf) = array
  have hroom : f.size ≤ array.length := by
    subst harray
    split_ifs with hcap
    · rw [List.length_replicate]
      omega
    · omega
  have hlen : (array.take f.size).length = f.size := by rw [List.length_take]; omega
  have hold : ((array.take f.size).drop (frameHeaderSize + f.payload.length)).length = f.padLen.toNat := by
    rw [List.length_drop]
    omega
  obtain ⟨buf, hpadding, hbuf⟩ := pad_end f env hold
  refine ⟨buf ++ array.drop f.size, ?_⟩
  unfold Writer.writeFrame
  rw [if_neg (Nat.not_lt.mpr h.1), if_neg (Nat.not_lt.mpr h.2)]
  simp only [hsize, harray, if_pos hroom, Option.bind_eq_bind, Option.bind_some, store_head f hlen, hpadding]
  constructor
  · intro e he
    rw [he]
  · intro hnone
    rw [hnone, ← hbuf hnone]

/-- One call of the Writer is one call of the plain encoder, whatever the buffer holds. -/
theorem writeFrame_plain (f : Frame) (env : WriteEnv) (fw : Writer) :
    ∃ buf, fw.writeFrame f env =
      some ((plainWrite f env).1, { buf := buf, handed := fw.handed ++ (plainWrite f env).2 }) := by
  by_cases h : f.Legal
  · obtain ⟨array, hfails, hhands⟩ := writeFrame_built f env fw h
    refine ⟨array, ?_⟩
    unfold plainWrite
    rw [writeFrame_legal h]
    cases hpad : env.padErr f with
    | none => exact hhands hpad
    | some e => simpa using hfails e hpad
  · refine ⟨fw.buf, ?_⟩
    unfold Writer.writeFrame plainWrite Protocol.writeFrame
    by_cases hpay : maxPayloadSize < f.payload.length
    · simp [hpay]
    · have hpad : maxPaddingSize < f.padLen.toNat := by
        unfold Frame.Legal at h
        omega
      simp [hpay, hpad]

/-! ## Histories -/

/-- The Writer after one `WriteFrame`. -/
def Writer.step (fw : Writer) (call : Frame × WriteEnv) : Option Writer :=
  (fw.writeFrame call.1 call.2).map Prod.snd

theorem run_plain (calls : List (Frame × WriteEnv)) (fw : Writer) :
    ∃ buf, run Writer.step fw calls =
      some { buf := buf, handed := fw.handed ++ calls.flatMap fun call => (plainWrite call.1 call.2).2 } := by
  induction calls generalizing fw with
  | nil => exact ⟨fw.buf, by simp⟩
  | cons call calls ih =>
    obtain ⟨buf, hcall⟩ := writeFrame_plain call.1 call.2 fw
    obtain ⟨buf', hrun⟩ := ih { buf := buf, handed := fw.handed ++ (plainWrite call.1 call.2).2 }
    refine ⟨buf', ?_⟩
    rw [run_cons, Writer.step, hcall, Option.map_some, Option.bind_some, hrun, List.flatMap_cons,
      List.append_assoc]

/-- **The Writer is the plain encoder.** -/
theorem writer_hands_over_encodings (calls : List (Frame × WriteEnv)) :
    ∃ fw, run Writer.step newWriter calls = some fw ∧
      fw.handed = calls.flatMap (fun call => (plainWrite call.1 call.2).2) ∧
      ∀ (f : Frame) (env : WriteEnv), ∃ err fw', fw.writeFrame f env = some (err, fw') ∧
        (¬ (f.payload.length ≤ 65535 ∧ f.padLen.toNat ≤ 1024) → fw'.handed = fw.handed ∧ err ≠ none) ∧
        (f.payload.length ≤ 65535 ∧ f.padLen.toNat ≤ 1024 →
          (∀ n e, 0 < f.padLen → env.randErr = some (n, e) → fw'.handed = fw.handed ∧ err = some (.sys e)) ∧
          ((0 < f.padLen → env.randErr = none) →
            fw'.handed = fw.handed ++ [[f.type] ++ beBytes 4 f.streamID.toNat ++ beBytes 4 f.payload.length ++
              beBytes 2 f.padLen.toNat ++ f.payload ++ (env.drawn f.padLen.toNat).val] ∧
            err = env.writeErr.map .sys)) := by
  obtain ⟨buf, hrun⟩ := run_plain calls newWriter
  refine ⟨_, hrun, rfl, ?_⟩
  intro f env
  obtain ⟨buf', hcall⟩ := writeFrame_plain f env { buf := buf, handed := _ }
  refine ⟨_, _, hcall, ?_, ?_⟩
  · intro hillegal
    have hrejected : ∃ e, Protocol.writeFrame f (env.drawn f.padLen.toNat).val = .error e := by
      cases hw : Protocol.writeFrame f (env.drawn f.padLen.toNat).val with
      | error e => exact ⟨e, rfl⟩
      | ok b => exact absurd ((writeFrame_ok_iff _ _ _).mp hw).1 hillegal
    obtain ⟨e, he⟩ := hrejected
    simp [plainWrite, he]
  · intro hlegal
    have hw := writeFrame_legal (f := f) hlegal (env.drawn f.padLen.toNat).val
    constructor
    · intro n e hpad hrand
      simp [plainWrite, hw, WriteEnv.padErr, hpad, hrand]
    · intro hrand
      have hnone : env.padErr f = none := by
        unfold WriteEnv.padErr
        split_ifs with hpad
        · rw [hrand hpad]
          rfl
        · rfl
      simp [plainWrite, hw, hnone, encode_eq_head, Frame.head]

end Daxson.Protocol
