import Daxson.Connect.Codec
import Daxson.Lib.Recognise
import Daxson.Net

/-! # The SOCKS5 front end -/

open Lib Lib.BigEndian Lib.Reader

namespace Daxson.Socks5

open Connect Net

def socks5Version : UInt8 := 0x05
def methodNoAuth : UInt8 := 0x00
def methodNoAccept : UInt8 := 0xFF
def cmdConnect : UInt8 := 0x01
def atypIPv4 : UInt8 := 0x01
def atypDomain : UInt8 := 0x03
def atypIPv6 : UInt8 := 0x04

/-- `io.ReadFull` of `n` bytes, and `fmt.Errorf` with `text` when it fails. -/
def readOr {β : Type} (n : Nat) (text : String) (k : Bytes → ReadOp UInt8 SysError GoError β) :
    ReadOp UInt8 SysError GoError β :=
  andThen (readFull n) (fun e => .wrap text [] (.sys e)) k

/-- An error text that ends in `%d`, with the byte as its argument. -/
def byteError (text : String) (b : UInt8) : GoError := .new text [formatInt b.toNat]

/-- What `negotiate` reads. -/
def readMethods : ReadOp UInt8 SysError GoError Bytes :=
  readOr 2 "read greeting: %w" fun hdr =>
    if hdr.getD 0 0 ≠ socks5Version then fail (byteError "unsupported SOCKS version: %d" (hdr.getD 0 0))
    else readOr (hdr.getD 1 0).toNat "read methods: %w" done

def negotiate (w : WriteOutcome) (c : NetConn) : Option GoError × NetConn :=
  match readMethods c.rx with
  | (.error e, rx) => (some e, { c with rx := rx })
  | (.ok methods, rx) =>
    if methodNoAuth ∈ methods then
      let (err, c) := NetConn.write w [socks5Version, methodNoAuth] { c with rx := rx }
      (err.map .sys, c)
    else
      (some (.new "no acceptable auth method" []),
        (NetConn.write w [socks5Version, methodNoAccept] { c with rx := rx }).2)

/-- The switch of `readRequest` on the address type. -/
def readAddr (atyp : UInt8) : ReadOp UInt8 SysError GoError (UInt8 × Bytes) :=
  if atyp = atypIPv4 then readOr 4 "read IPv4: %w" fun ipbuf => done (Protocol.addrIPv4, ipString ipbuf)
  else if atyp = atypDomain then
    readOr 1 "read domain length: %w" fun lenBuf =>
      readOr (lenBuf.getD 0 0).toNat "read domain: %w" fun domBuf => done (Protocol.addrDomain, domBuf)
  else if atyp = atypIPv6 then readOr 16 "read IPv6: %w" fun ipbuf => done (Protocol.addrIPv6, ipString ipbuf)
  else fail (byteError "unsupported address type: %d" atyp)

/-- The reserved byte of the header is not looked at. -/
def readRequest : ReadOp UInt8 SysError GoError Target :=
  readOr 4 "read request header: %w" fun hdr =>
    if hdr.getD 0 0 ≠ socks5Version then fail (byteError "unexpected version byte: %d" (hdr.getD 0 0))
    else if hdr.getD 1 0 ≠ cmdConnect then fail (byteError "unsupported command: %d" (hdr.getD 1 0))
    else
      andThen (readAddr (hdr.getD 3 0)) id fun a =>
        readOr 2 "read port: %w" fun portBuf =>
          done { addrType := a.1, addr := a.2, port := UInt16.ofNat (beVal portBuf) }

/-- What `handleConn` does before it opens a stream. -/
def accept (w : WriteOutcome) (c : NetConn) : Except GoError Target × NetConn :=
  match negotiate w c with
  | (some e, c) => (.error e, c)
  | (none, c) =>
    match readRequest c.rx with
    | (res, rx) => (res, { c with rx := rx })

/-! ## The grammar -/

/-- A destination as the client writes it. -/
inductive Address where
  | ipv4 (ip : ByteArr 4)
  | domain (name : Bytes) (short : name.length ≤ 255)
  | ipv6 (ip : ByteArr 16)

def Address.atyp : Address → UInt8
  | .ipv4 _ => 0x01
  | .domain _ _ => 0x03
  | .ipv6 _ => 0x04

def Address.body : Address → Bytes
  | .ipv4 ip => ip.val
  | .domain name _ => UInt8.ofNat name.length :: name
  | .ipv6 ip => ip.val

/-- The type and text that go through the tunnel. -/
def Address.sent : Address → UInt8 × Bytes
  | .ipv4 ip => (Protocol.addrIPv4, ipString ip.val)
  | .domain name _ => (Protocol.addrDomain, name)
  | .ipv6 ip => (Protocol.addrIPv6, ipString ip.val)

/-- All that a client sends before its data. -/
structure Hello where
  methods : Bytes
  few : methods.length ≤ 255
  offered : 0x00 ∈ methods
  reserved : UInt8
  address : Address
  port : UInt16

def Hello.greeting (h : Hello) : Bytes := 0x05 :: UInt8.ofNat h.methods.length :: h.methods

def Hello.request (h : Hello) : Bytes :=
  [0x05, 0x01, h.reserved, h.address.atyp] ++ (h.address.body ++ beBytes 2 h.port.toNat)

def Hello.encode (h : Hello) : Bytes := h.greeting ++ h.request

def Hello.target (h : Hello) : Target := ⟨h.address.sent.1, h.address.sent.2, h.port⟩

/-! ## What each read recognises -/

theorem readFull_recognises (n : Nat) : Recognises (readFull n) fun s x => s.length = n ∧ x = s where
  complete := by
    rintro r s x rest ⟨rfl, rfl⟩ hr
    obtain ⟨r', hread, hrest⟩ := readFull_ok x.length r (by simp [hr])
    rw [hr, List.take_left] at hread
    rw [hr, List.drop_left] at hrest
    exact ⟨r', hread, hrest⟩
  sound := by
    intro r x r' h
    obtain ⟨hle, rfl, hrest⟩ := readFull_inv h
    refine ⟨_, ⟨List.length_take_of_le hle, rfl⟩, ?_⟩
    rw [hrest, List.take_append_drop]

theorem readOr_recognises {β : Type} (n : Nat) (text : String) {k : Bytes → ReadOp UInt8 SysError GoError β}
    {K : Bytes → Bytes → β → Prop} (hk : ∀ b, Recognises (k b) (K b)) :
    Recognises (readOr n text k) fun s y => ∃ b t, s = b ++ t ∧ b.length = n ∧ K b t y := by
  refine ((readFull_recognises n).andThen _ hk).congr fun s y => ?_
  constructor
  · rintro ⟨b, t, x, rfl, ⟨hlen, rfl⟩, hy⟩
    exact ⟨x, t, rfl, hlen, hy⟩
  · rintro ⟨b, t, rfl, hlen, hy⟩
    exact ⟨b, t, b, rfl, ⟨hlen, rfl⟩, hy⟩

theorem readOr_done {β : Type} (n : Nat) (text : String) (f : Bytes → β) :
    Recognises (readOr n text fun b => done (f b)) fun s y => s.length = n ∧ y = f s := by
  refine (readOr_recognises n text fun b => Recognises.done (f b)).congr fun s y => ?_
  constructor
  · rintro ⟨b, t, rfl, hlen, rfl, rfl⟩
    simp [hlen]
  · rintro ⟨hlen, rfl⟩
    exact ⟨s, [], by simp, hlen, rfl, rfl⟩

theorem ofNat_length {b : Bytes} {n : UInt8} (h : b.length = n.toNat) : UInt8.ofNat b.length = n := by
  rw [h, UInt8.ofNat_toNat]

theorem readMethods_recognises :
    Recognises readMethods fun s m => m.length ≤ 255 ∧ s = 0x05 :: UInt8.ofNat m.length :: m := by
  unfold readMethods
  refine (readOr_recognises 2 _ fun hdr => (readOr_done _ _ id).ite _ _).congr fun s m => ?_
  constructor
  · rintro ⟨hdr, m, rfl, hlen, hversion, ht, rfl⟩
    obtain ⟨v, n, rfl⟩ := List.length_eq_two.mp hlen
    obtain rfl : v = 0x05 := not_not.mp hversion
    refine ⟨ht.trans_le (Nat.le_of_lt_succ n.toNat_lt), ?_⟩
    change [0x05, n] ++ m = 0x05 :: UInt8.ofNat m.length :: m
    rw [ofNat_length ht]
    rfl
  · rintro ⟨hfew, rfl⟩
    exact ⟨[0x05, UInt8.ofNat m.length], m, rfl, rfl, not_not.mpr rfl,
      (UInt8.toNat_ofNat_of_lt' (Nat.lt_succ_of_le hfew)).symm, rfl⟩

theorem readAddr_recognises (atyp : UInt8) :
    Recognises (readAddr atyp) fun s x => ∃ a : Address, a.atyp = atyp ∧ s = a.body ∧ x = a.sent := by
  unfold readAddr
  split_ifs with h4 hdomain h6
  · refine (readOr_done 4 _ _).congr fun s x => ?_
    constructor
    · rintro ⟨hlen, rfl⟩
      exact ⟨.ipv4 ⟨s, hlen⟩, h4.symm, rfl, rfl⟩
    · rintro ⟨ip | ⟨name, short⟩ | ip, ha, rfl, rfl⟩
      · exact ⟨ip.property, rfl⟩
      · exact absurd (ha.trans h4) (by decide : (0x03 : UInt8) ≠ 0x01)
      · exact absurd (ha.trans h4) (by decide : (0x04 : UInt8) ≠ 0x01)
  · refine (readOr_recognises 1 _ fun lenBuf => readOr_done _ _ fun domBuf => (Protocol.addrDomain, domBuf)).congr
      fun s x => ?_
    constructor
    · rintro ⟨lenBuf, name, rfl, hone, hlen, rfl⟩
      obtain ⟨n, rfl⟩ := List.length_eq_one_iff.mp hone
      refine ⟨.domain name (hlen.trans_le (Nat.le_of_lt_succ n.toNat_lt)), hdomain.symm, ?_, rfl⟩
      change [n] ++ name = UInt8.ofNat name.length :: name
      rw [ofNat_length hlen]
      rfl
    · rintro ⟨ip | ⟨name, short⟩ | ip, ha, rfl, rfl⟩
      · exact absurd (ha.trans hdomain) (by decide : (0x01 : UInt8) ≠ 0x03)
      · exact ⟨[UInt8.ofNat name.length], name, rfl, rfl,
          (UInt8.toNat_ofNat_of_lt' (Nat.lt_succ_of_le short)).symm, rfl⟩
      · exact absurd (ha.trans hdomain) (by decide : (0x04 : UInt8) ≠ 0x03)
  · refine (readOr_done 16 _ _).congr fun s x => ?_
    constructor
    · rintro ⟨hlen, rfl⟩
      exact ⟨.ipv6 ⟨s, hlen⟩, h6.symm, rfl, rfl⟩
    · rintro ⟨ip | ⟨name, short⟩ | ip, ha, rfl, rfl⟩
      · exact absurd (ha.trans h6) (by decide : (0x01 : UInt8) ≠ 0x04)
      · exact absurd (ha.trans h6) (by decide : (0x03 : UInt8) ≠ 0x04)
      · exact ⟨ip.property, rfl⟩
  · refine (Recognises.fail _).congr fun s x => ?_
    refine iff_of_false id ?_
    rintro ⟨ip | ⟨name, short⟩ | ip, rfl, -, -⟩
    · exact h4 rfl
    · exact hdomain rfl
    · exact h6 rfl

theorem beBytes_port {b : Bytes} (h : b.length = 2) : beBytes 2 (UInt16.ofNat (beVal b)).toNat = b := by
  have hlt : beVal b < 256 ^ b.length := beVal_lt b
  rw [h] at hlt
  rw [UInt16.toNat_ofNat_of_lt' hlt, ← h, beBytes_beVal]

theorem port_beBytes (p : UInt16) : UInt16.ofNat (beVal (beBytes 2 p.toNat)) = p := by
  have hlt : p.toNat < 256 ^ 2 := p.toNat_lt
  rw [beVal_beBytes, Nat.mod_eq_of_lt hlt, UInt16.ofNat_toNat]

theorem readRequest_recognises :
    Recognises readRequest fun s t => ∃ (reserved : UInt8) (a : Address) (port : UInt16),
      s = [0x05, 0x01, reserved, a.atyp] ++ (a.body ++ beBytes 2 port.toNat) ∧ t = ⟨a.sent.1, a.sent.2, port⟩ := by
  unfold readRequest
  refine (readOr_recognises 4 _ fun hdr => (((readAddr_recognises (hdr.getD 3 0)).andThen id fun a =>
    readOr_done 2 _ _).ite _ _).ite _ _).congr fun s t => ?_
  constructor
  · rintro ⟨hdr, u, rfl, hlen, hversion, hcmd, b, portBuf, x, rfl, ⟨a, ha, rfl, rfl⟩, hport, rfl⟩
    obtain ⟨v, cmd, reserved, atyp, rfl⟩ := List.length_eq_four.mp hlen
    obtain rfl : v = 0x05 := not_not.mp hversion
    obtain rfl : cmd = 0x01 := not_not.mp hcmd
    obtain rfl : a.atyp = atyp := ha
    refine ⟨reserved, a, UInt16.ofNat (beVal portBuf), ?_, rfl⟩
    rw [beBytes_port hport]
  · rintro ⟨reserved, a, port, rfl, rfl⟩
    refine ⟨[0x05, 0x01, reserved, a.atyp], _, rfl, rfl, not_not.mpr rfl, not_not.mpr rfl, a.body, _, a.sent, rfl,
      ⟨a, rfl, rfl, rfl⟩, beBytes_length 2 _, ?_⟩
    rw [port_beBytes]

/-! ## The front end -/

theorem sent_length (a : Address) : a.sent.2.length ≤ 255 := by
  cases a with
  | ipv4 ip => exact (ipString_length (.inl ip.property)).trans (by decide)
  | domain name short => exact short
  | ipv6 ip => exact (ipString_length (.inr ip.property)).trans (by decide)

theorem negotiate_none_iff (w : WriteOutcome) (c c' : NetConn) :
    negotiate w c = (none, c') ↔ w = .full ∧ ∃ methods rx, readMethods c.rx = (.ok methods, rx) ∧
      methodNoAuth ∈ methods ∧ c' = ⟨rx, c.tx ++ [0x05, 0x00]⟩ := by
  unfold negotiate
  rcases readMethods c.rx with ⟨e | methods, rx⟩
  · simp
  · by_cases hauth : methodNoAuth ∈ methods
    · cases w with
      | full =>
        simp [hauth, NetConn.write, WriteOutcome.err, WriteOutcome.delivered, eq_comm]
        rfl
      | short n e => simp [hauth, NetConn.write, WriteOutcome.err]
    · simp [hauth]

theorem accept_ok_iff (w : WriteOutcome) (c c' : NetConn) (t : Target) :
    accept w c = (.ok t, c') ↔ ∃ c₁, negotiate w c = (none, c₁) ∧ ∃ rx, readRequest c₁.rx = (.ok t, rx) ∧
      c' = { c₁ with rx := rx } := by
  unfold accept
  rcases negotiate w c with ⟨_ | e, c₁⟩
  · simp [Prod.ext_iff, eq_comm]
  · simp

theorem accept_hello (c : NetConn) (h : Hello) {rest : Bytes} (hin : c.rx.content = h.encode ++ rest) :
    ∃ rx : ByteReader, accept .full c = (.ok h.target, ⟨rx, c.tx ++ [0x05, 0x00]⟩) ∧ rx.content = rest := by
  unfold Hello.encode at hin
  rw [List.append_assoc] at hin
  obtain ⟨r1, h1, hr1⟩ := readMethods_recognises.complete c.rx h.greeting h.methods _ ⟨h.few, rfl⟩ hin
  obtain ⟨r2, h2, hr2⟩ := readRequest_recognises.complete r1 h.request h.target rest
    ⟨h.reserved, h.address, h.port, rfl, rfl⟩ hr1
  have hneg : negotiate .full c = (none, ⟨r1, c.tx ++ [0x05, 0x00]⟩) :=
    (negotiate_none_iff _ _ _).mpr ⟨rfl, h.methods, r1, h1, h.offered, rfl⟩
  exact ⟨r2, (accept_ok_iff _ _ _ _).mpr ⟨_, hneg, r2, h2, rfl⟩, hr2⟩

theorem hello_of_accept {w : WriteOutcome} {c c' : NetConn} {t : Target} (hok : accept w c = (.ok t, c')) :
    w = .full ∧ ∃ (h : Hello) (rest : Bytes), c.rx.content = h.encode ++ rest := by
  obtain ⟨c₁, hneg, r2, h2, -⟩ := (accept_ok_iff _ _ _ _).mp hok
  obtain ⟨hw, methods, r1, h1, hoffered, rfl⟩ := (negotiate_none_iff _ _ _).mp hneg
  obtain ⟨_, ⟨hfew, rfl⟩, hin⟩ := readMethods_recognises.sound _ _ _ h1
  obtain ⟨_, ⟨reserved, a, port, rfl, -⟩, hin1⟩ := readRequest_recognises.sound _ _ _ h2
  refine ⟨hw, ⟨methods, hfew, hoffered, reserved, a, port⟩, r2.content, ?_⟩
  rw [hin, hin1, ← List.append_assoc]
  rfl

/-- **The SOCKS5 grammar.** -/
theorem socks5_accepts_exactly (w : WriteOutcome) (c : NetConn) :
    ((∃ t, (accept w c).1 = .ok t) ↔ w = .full ∧ ∃ (h : Hello) (rest : Bytes), c.rx.content = h.encode ++ rest) ∧
    ∀ (h : Hello) (rest : Bytes), c.rx.content = h.encode ++ rest → w = .full →
      (∃ rx : ByteReader, accept w c = (.ok h.target, ⟨rx, c.tx ++ [0x05, 0x00]⟩) ∧ rx.content = rest) ∧
      h.target.addr.length ≤ 255 ∧ ∃ b, Tunnel.writeConnectRequest h.target = .ok b := by
  refine ⟨⟨?_, ?_⟩, ?_⟩
  · rintro ⟨t, ht⟩
    exact hello_of_accept (Prod.ext ht rfl : accept w c = (.ok t, (accept w c).2))
  · rintro ⟨rfl, h, rest, hin⟩
    obtain ⟨rx, hok, -⟩ := accept_hello c h hin
    exact ⟨h.target, by rw [hok]⟩
  · rintro h rest hin rfl
    have hlen : h.target.addr.length ≤ 255 := sent_length h.address
    refine ⟨accept_hello c h hin, hlen, h.target.encode, ?_⟩
    unfold Tunnel.writeConnectRequest
    rw [if_neg (Nat.not_lt.mpr hlen)]
    rfl

theorem socks5_accepts_in_pieces :
    let chunks : List Bytes := [[0x05], [0x01, 0x00, 0x05, 0x01], [0x00, 0x03, 0x02, 0x68], [0x69, 0x01, 0xBB, 0x47]]
    ∃ rx : ByteReader, accept .full { rx := { chunks := chunks, fin := .eof } } =
      (.ok ⟨Protocol.addrDomain, ascii "hi", 443⟩, ⟨rx, [0x05, 0x00]⟩) ∧ rx.content = [0x47] :=
  ((socks5_accepts_exactly .full _).2 ⟨[0x00], by decide, by decide, 0x00, .domain (ascii "hi") (by decide), 443⟩ [0x47]
    (by decide) rfl).1

end Daxson.Socks5
