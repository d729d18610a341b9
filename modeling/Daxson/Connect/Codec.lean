import Daxson.Net
import Daxson.Protocol.Frame
import Mathlib.Data.List.GetD

/-! # The CONNECT messages

The codec of the tunnel, the relay's own copy of it, and the scan of a request that has come in part.
-/

open Lib Lib.BigEndian

namespace Daxson.Connect

structure Target where
  addrType : UInt8
  addr : Bytes
  port : UInt16
  deriving DecidableEq, Repr

end Daxson.Connect

/-! ## The tunnel's codec -/

namespace Daxson.Tunnel

open Connect

def connectOK : UInt8 := 0x00
def connectFail : UInt8 := 0x01

def writeConnectRequest (t : Target) : Except GoError Bytes :=
  if 255 < t.addr.length then
    .error (.new "tunnel: address too long: %d bytes" [formatInt t.addr.length])
  else .ok ([t.addrType, UInt8.ofNat t.addr.length] ++ (t.addr ++ beBytes 2 t.port.toNat))

def errZeroLength : GoError := .new "tunnel: zero-length address" []

def readConnectRequest (r : ByteReader) : Except GoError Target × ByteReader :=
  match readFull 2 r with
  | (.error e, r) => (.error (.wrap "tunnel: read connect hdr: %w" [] (.sys e)), r)
  | (.ok hdr, r) =>
    let addrLen := (hdr.getD 1 0).toNat
    if addrLen = 0 then (.error errZeroLength, r)
    else
      match readFull (addrLen + 2) r with
      | (.error e, r) => (.error (.wrap "tunnel: read connect addr: %w" [] (.sys e)), r)
      | (.ok addrBuf, r) =>
        (.ok {
          addrType := hdr.getD 0 0
          addr := addrBuf.take addrLen
          port := UInt16.ofNat (beVal (slice addrBuf addrLen (addrLen + 2))) }, r)

def writeConnectResponse (ok : Bool) : Bytes := [if ok then connectOK else connectFail]

/-- The refusal that a status byte stands for. -/
def refusal (status : UInt8) : Option GoError :=
  if status = connectOK then none
  else some (.new "tunnel: server refused connection (status 0x%02x)" [hexEncode [status]])

def readConnectResponse (r : ByteReader) : Option GoError × ByteReader :=
  match readFull 1 r with
  | (.error e, r) => (some (.wrap "tunnel: read connect response: %w" [] (.sys e)), r)
  | (.ok status, r) => (refusal (status.getD 0 0), r)

def targetAddr (addr : Bytes) (port : UInt16) : Bytes := Net.joinHostPort addr (formatInt port.toNat)

end Daxson.Tunnel

/-! ## The relay's codec -/

namespace Daxson.Relay

open Connect

/-- The length byte wraps, since the relay does not check the length. -/
def writeConnectRequest (t : Target) : Bytes :=
  [t.addrType, UInt8.ofNat t.addr.length] ++ (t.addr ++ [(t.port >>> 8).toUInt8, t.port.toUInt8])

def readConnectRequest (r : ByteReader) : Except GoError Target × ByteReader :=
  match r.readAll 2 with
  | (.error e, r) => (.error (.sys e), r)
  | (.ok hdr, r) =>
    let addrLen := (hdr.getD 1 0).toNat
    match r.readAll (addrLen + 2) with
    | (.error e, r) => (.error (.sys e), r)
    | (.ok rest, r) =>
      (.ok {
        addrType := hdr.getD 0 0
        addr := rest.take addrLen
        port := (rest.getD addrLen 0).toUInt16 <<< 8 ||| (rest.getD (addrLen + 1) 0).toUInt16 }, r)

def writeConnectResponse (ok : Bool) : Bytes := [if ok then 0x00 else 0x01]

def refusal (status : UInt8) : Option GoError :=
  if status = 0x00 then none
  else some (.new "relay: upstream refused (status 0x%02x)" [hexEncode [status]])

def readConnectResponse (r : ByteReader) : Option GoError × ByteReader :=
  match r.readAll 1 with
  | (.error e, r) => (some (.wrap "read response: %w" [] (.sys e)), r)
  | (.ok status, r) => (refusal (status.getD 0 0), r)

end Daxson.Relay

/-! ## A request that has come in part -/

namespace Daxson.Connect

inductive Scan where
  /-- The read in progress still wants `n` bytes. -/
  | need (n : Nat)
  | fail (err : GoError)
  | target (t : Target)
  deriving DecidableEq, Repr

/-- Where a `readConnectRequest` stands after the bytes `got`. Only the tunnel refuses an empty
address. -/
def scan (refuseEmpty : Bool) (got : Bytes) : Scan :=
  if got.length < 2 then .need (2 - got.length)
  else
    let addrLen := (got.getD 1 0).toNat
    if refuseEmpty && addrLen == 0 then .fail Tunnel.errZeroLength
    else if got.length < 4 + addrLen then .need (4 + addrLen - got.length)
    else
      .target {
        addrType := got.getD 0 0
        addr := slice got 2 (2 + addrLen)
        port := UInt16.ofNat (beVal (slice got (2 + addrLen) (4 + addrLen))) }

def Target.Legal (t : Target) : Prop := 1 ≤ t.addr.length ∧ t.addr.length ≤ 255

def Target.encode (t : Target) : Bytes :=
  [t.addrType, UInt8.ofNat t.addr.length] ++ (t.addr ++ beBytes 2 t.port.toNat)

@[simp] theorem encode_length (t : Target) : t.encode.length = 4 + t.addr.length := by
  simp only [Target.encode, List.length_append, List.length_cons, List.length_nil, beBytes_length]
  omega

theorem tunnel_writes {t : Target} (h : t.Legal) : Tunnel.writeConnectRequest t = .ok t.encode := by
  unfold Tunnel.writeConnectRequest
  rw [if_neg (Nat.not_lt.mpr h.2)]
  rfl

theorem port_bytes (p : UInt16) : [(p >>> 8).toUInt8, p.toUInt8] = beBytes 2 p.toNat := by
  simp only [beBytes, List.nil_append, List.singleton_append, List.cons.injEq, and_true]
  constructor
  · rw [← UInt8.toNat_inj]
    simp [Nat.shiftRight_eq_div_pow]
  · rw [← UInt8.toNat_inj]
    simp

theorem relay_writes (t : Target) : Relay.writeConnectRequest t = t.encode := by
  unfold Relay.writeConnectRequest Target.encode
  rw [port_bytes]

/-! ## Scanning an encoding -/

theorem encode_addrLen {t : Target} (h : t.Legal) : (UInt8.ofNat t.addr.length).toNat = t.addr.length :=
  UInt8.toNat_ofNat_of_lt' (Nat.lt_succ_of_le h.2)

theorem Target.Legal.not_refused {t : Target} (h : t.Legal) (refuseEmpty : Bool) :
    ¬ (refuseEmpty && t.addr.length == 0) = true := by
  intro hand
  rw [Bool.and_eq_true, beq_iff_eq] at hand
  have := h.1
  omega

theorem scan_encode {t : Target} (h : t.Legal) (refuseEmpty : Bool) : scan refuseEmpty t.encode = .target t := by
  have hlen : (t.encode.getD 1 0).toNat = t.addr.length := encode_addrLen h
  have haddr : slice t.encode 2 (2 + t.addr.length) = t.addr :=
    slice_mid [t.addrType, UInt8.ofNat t.addr.length] t.addr _ 2 _ rfl rfl
  have hport : slice t.encode (2 + t.addr.length) (4 + t.addr.length) = beBytes 2 t.port.toNat := by
    have := slice_mid ([t.addrType, UInt8.ofNat t.addr.length] ++ t.addr) (beBytes 2 t.port.toNat) []
      (2 + t.addr.length) (4 + t.addr.length) (by simp; omega) (by simp; omega)
    simpa only [Target.encode, List.append_assoc, List.append_nil] using this
  have hlt : t.port.toNat < 256 ^ 2 := t.port.toNat_lt
  unfold scan
  simp only [encode_length, hlen, haddr, hport]
  rw [if_neg (by omega), if_neg (h.not_refused refuseEmpty), if_neg (by omega), beVal_beBytes,
    Nat.mod_eq_of_lt hlt, UInt16.ofNat_toNat]
  rfl

theorem scan_take {t : Target} (h : t.Legal) (refuseEmpty : Bool) {k : Nat} (hk : k < t.encode.length) :
    ∃ n, scan refuseEmpty (t.encode.take k) = .need n ∧ k + n ≤ t.encode.length := by
  have hklen : (t.encode.take k).length = k := by
    rw [List.length_take]
    omega
  rw [encode_length] at hk ⊢
  unfold scan
  rw [hklen]
  by_cases hhdr : k < 2
  · rw [if_pos hhdr]
    exact ⟨_, rfl, by omega⟩
  · -- The header is there, so the length byte is the target's.
    have hlen : ((t.encode.take k).getD 1 0).toNat = t.addr.length := by
      obtain ⟨m, rfl⟩ : ∃ m, k = m + 2 := ⟨k - 2, by omega⟩
      exact encode_addrLen h
    rw [if_neg hhdr]
    simp only [hlen]
    rw [if_neg (h.not_refused refuseEmpty), if_pos (by omega)]
    exact ⟨_, rfl, by omega⟩

/-! ## Scan and `readConnectRequest` -/

theorem getD_take (b : Bytes) {i k : Nat} (h : i < k) : (b.take k).getD i 0 = b.getD i 0 := by
  rw [List.getD_eq_getElem?_getD, List.getD_eq_getElem?_getD, List.getElem?_take_of_lt h]

theorem port_of_bytes (b : Bytes) {n : Nat} (h : n + 2 ≤ b.length) :
    (b.getD n 0).toUInt16 <<< 8 ||| (b.getD (n + 1) 0).toUInt16 = UInt16.ofNat (beVal (slice b n (n + 2))) := by
  obtain ⟨hi, lo, hslice, hget⟩ : ∃ hi lo, slice b n (n + 2) = [hi, lo] ∧ b.getD n 0 = hi ∧ b.getD (n + 1) 0 = lo := by
    refine ⟨b[n], b[n + 1], ?_, List.getD_eq_getElem _ _ (by omega), List.getD_eq_getElem _ _ (by omega)⟩
    rw [slice, List.drop_take, Nat.add_sub_cancel_left, List.drop_eq_getElem_cons (by omega),
      List.drop_eq_getElem_cons (by omega)]
    rfl
  rw [hslice, hget.1, hget.2, ← UInt16.toNat_inj]
  have hhi := hi.toNat_lt
  have hlo := lo.toNat_lt
  have hshift : hi.toNat <<< (UInt16.toNat 8 % 16) % 2 ^ 16 = 2 ^ 8 * hi.toNat := by
    simp [Nat.shiftLeft_eq]
    omega
  simp only [UInt16.toNat_or, UInt16.toNat_shiftLeft, UInt8.toNat_toUInt16, beVal, UInt16.toNat_ofNat',
    List.foldl_cons, List.foldl_nil]
  rw [hshift, ← Nat.two_pow_add_eq_or_of_lt (by simpa using hlo)]
  omega

theorem scan_target {refuseEmpty : Bool} {got : Bytes} {t : Target} (h : scan refuseEmpty got = .target t)
    (hsize : got.length = 4 + t.addr.length) :
    (got.getD 1 0).toNat = t.addr.length ∧ ¬ (refuseEmpty && t.addr.length == 0) = true ∧
      t.addrType = got.getD 0 0 ∧ t.addr = (got.drop 2).take t.addr.length ∧
      t.port = UInt16.ofNat (beVal (slice (got.drop 2) t.addr.length (t.addr.length + 2))) := by
  unfold scan at h
  split_ifs at h with hhdr
  dsimp only at h
  split_ifs at h with hempty hall
  obtain rfl := Scan.target.inj h
  have hlen : (slice got 2 (2 + (got.getD 1 0).toNat)).length = (got.getD 1 0).toNat := by
    rw [slice_length got (by omega)]
    omega
  simp only [hlen] at hsize ⊢
  refine ⟨trivial, hempty, trivial, ?_, ?_⟩
  · unfold slice
    rw [List.drop_take, Nat.add_sub_cancel_left]
  · simp only [slice, List.drop_take, List.drop_drop]
    rw [Nat.add_sub_add_right, Nat.add_sub_cancel_left]

theorem two_reads {got : Bytes} {n : Nat} (hsize : got.length = 4 + n) (rest : Bytes) :
    (got ++ rest).take 2 = got.take 2 ∧ ((got ++ rest).drop 2).take (n + 2) = got.drop 2 ∧
      ((got ++ rest).drop 2).drop (n + 2) = rest := by
  have hlen : (got.drop 2).length = n + 2 := by
    rw [List.length_drop]
    omega
  rw [List.take_append_of_le_length (by omega), List.drop_append_of_le_length (by omega), List.take_left' hlen,
    List.drop_left' hlen]
  exact ⟨rfl, rfl, rfl⟩

theorem tunnel_reads {got rest : Bytes} {t : Target} (h : scan true got = .target t)
    (hsize : got.length = 4 + t.addr.length) (r : ByteReader) (hr : r.content = got ++ rest) :
    ∃ r', Tunnel.readConnectRequest r = (.ok t, r') ∧ r'.content = rest := by
  obtain ⟨hlen, hempty, htype, haddr, hport⟩ := scan_target h hsize
  obtain ⟨r1, h1, hr1⟩ := readFull_ok 2 r (by rw [hr, List.length_append]; omega)
  obtain ⟨r2, h2, hr2⟩ := readFull_ok (t.addr.length + 2) r1 (by
    rw [hr1, hr, List.length_drop, List.length_append]
    omega)
  obtain ⟨hhdr, hbuf, hrest⟩ := two_reads hsize rest
  rw [hr] at h1 hr1
  rw [hr1] at h2 hr2
  refine ⟨r2, ?_, ?_⟩
  · unfold Tunnel.readConnectRequest
    rw [h1, hhdr]
    simp only [getD_take got (by decide : 1 < 2), getD_take got (by decide : 0 < 2), hlen]
    rw [if_neg (by simpa using hempty), h2, hbuf]
    simp only [← haddr, ← hport, ← htype]
  · exact hr2.trans hrest

theorem relay_reads {got rest : Bytes} {t : Target} (h : scan false got = .target t)
    (hsize : got.length = 4 + t.addr.length) (r : ByteReader) (hr : r.content = got ++ rest)
    (hclean : rest = [] → r.errWithLast = false) :
    ∃ r', Relay.readConnectRequest r = (.ok t, r') ∧ r'.content = rest := by
  obtain ⟨hlen, -, htype, haddr, hport⟩ := scan_target h hsize
  have hsum : r.content.length = 4 + t.addr.length + rest.length := by rw [hr, List.length_append, hsize]
  obtain ⟨r1, h1, hr1, hkeep⟩ := Reader.readAll_ok 2 r (by omega) (by omega)
  have hsum1 : r1.content.length = t.addr.length + 2 + rest.length := by
    rw [hr1, List.length_drop]
    omega
  obtain ⟨r2, h2, hr2, -⟩ := Reader.readAll_ok (t.addr.length + 2) r1 (by omega) (by
    intro hend
    rw [hkeep]
    exact hclean (List.length_eq_zero_iff.mp (by omega)))
  obtain ⟨hhdr, hbuf, hrest⟩ := two_reads hsize rest
  rw [hr] at h1 hr1
  rw [hr1] at h2 hr2
  refine ⟨r2, ?_, ?_⟩
  · unfold Relay.readConnectRequest
    rw [h1, hhdr]
    simp only [getD_take got (by decide : 1 < 2), getD_take got (by decide : 0 < 2), hlen]
    rw [h2, hbuf]
    have hby := port_of_bytes (got.drop 2) (by rw [List.length_drop]; omega : t.addr.length + 2 ≤ (got.drop 2).length)
    simp only [hby, ← haddr, ← hport, ← htype]
  · exact hr2.trans hrest

theorem tunnel_reads_status {b : UInt8} {rest : Bytes} (r : ByteReader) (hr : r.content = b :: rest) :
    ∃ r', Tunnel.readConnectResponse r = (Tunnel.refusal b, r') ∧ r'.content = rest := by
  obtain ⟨r', h, hrest⟩ := readFull_first hr
  refine ⟨r', ?_, hrest⟩
  unfold Tunnel.readConnectResponse
  rw [h]
  rfl

theorem relay_reads_status {b : UInt8} {rest : Bytes} (r : ByteReader) (hr : r.content = b :: rest)
    (hclean : rest = [] → r.errWithLast = false) :
    ∃ r', Relay.readConnectResponse r = (Relay.refusal b, r') ∧ r'.content = rest := by
  obtain ⟨r', h, hrest, -⟩ := Reader.readAll_ok 1 r (by simp [hr]) (by
    intro hend
    rw [hr, List.length_cons] at hend
    exact hclean (List.length_eq_zero_iff.mp (by omega)))
  rw [hr] at h hrest
  refine ⟨r', ?_, hrest⟩
  unfold Relay.readConnectResponse
  rw [h]
  rfl

end Daxson.Connect
