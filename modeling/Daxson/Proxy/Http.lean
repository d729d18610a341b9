import Daxson.Connect.Codec
import Daxson.Json.Proofs
import Daxson.Lib.Buffered
import Daxson.Mux.Close

/-! # The HTTP CONNECT front end

What the reader of `handleConn` has buffered goes to the stream first.
-/

open Lib

namespace Daxson.Http

open Connect Mux

/-! ## The handler -/

def badRequest : Bytes := ascii "HTTP/1.1 400 Bad Request\r\n\r\n"
def badGateway : Bytes := ascii "HTTP/1.1 502 Bad Gateway\r\n\r\n"
def established : Bytes := ascii "HTTP/1.1 200 Connection Established\r\n\r\n"

/-- The fields of `http.Request` that are looked at. -/
structure Request where
  method : Bytes
  host : Bytes
  deriving DecidableEq, Repr

structure HandlerEnv where
  /-- `net.ParseIP` finds an address. -/
  parseIP : Bytes → Bool
  openStream : Target → Option GoError

/-- `strconv.ParseUint(s, 10, 16)`. -/
def parsePort (s : Bytes) : Option UInt16 :=
  (Json.parseDigits s).bind fun v => if v ≤ 65535 then some (UInt16.ofNat v) else none

def addrTypeOf (parseIP : Bytes → Bool) (host : Bytes) : UInt8 :=
  if parseIP host then if 58 ∈ host then Protocol.addrIPv6 else Protocol.addrIPv4 else Protocol.addrDomain

/-- The target for `req.Host`. Without a port that `SplitHostPort` finds, the whole text is the host. -/
def connectTarget (parseIP : Bytes → Bool) (authority : Bytes) : Option Target :=
  let hostPort :=
    match Net.splitHostPort authority with
    | .ok hostPort => hostPort
    | .error _ => (authority, ascii "443")
  (parsePort hostPort.2).map fun port => ⟨addrTypeOf parseIP hostPort.1, hostPort.1, port⟩

structure Handled where
  toClient : List Bytes := []
  /-- What `OpenStream` was called with. -/
  asked : Option Target := none
  opened : Bool := false
  /-- What is written to the stream before the copies start. -/
  toStream : List Bytes := []
  br : Buffered UInt8 SysError
  deriving DecidableEq, Repr

/-- The two copies that an opened stream ends in, with the stream as `a` and the client as `b`. -/
def Handled.relay (h : Handled) : Relaying := Relaying.start h.toStream.flatten

/-- `handleConn`, with the result of `http.ReadRequest` and the reader as that leaves it. -/
def handleConn (env : HandlerEnv) (req : Except GoError Request) (br : Buffered UInt8 SysError) : Handled :=
  match req with
  | .error _ => { br := br }
  | .ok req =>
    if req.method ≠ ascii "CONNECT" then { toClient := [badRequest], br := br }
    else
      match connectTarget env.parseIP req.host with
      | none => { toClient := [badRequest], br := br }
      | some t =>
        match env.openStream t with
        | some _ => { toClient := [badGateway], asked := some t, br := br }
        | none =>
          let (first, br) := if 0 < br.buf.length then ([br.drain.1], br.drain.2) else ([], br)
          { toClient := [established], asked := some t, opened := true, toStream := first, br := br }

/-! ## The hand-over -/

/-- The reader that `handleConn` makes of the connection. -/
def newReader (rd : ByteReader) : Buffered UInt8 SysError := { rd := rd, size := 4096 }

theorem handleConn_opened {env : HandlerEnv} {req : Except GoError Request} {br : Buffered UInt8 SysError}
    (h : (handleConn env req br).opened = true) :
    (handleConn env req br).toStream.flatten = br.buf ∧ (handleConn env req br).br.buf = [] := by
  unfold handleConn at h ⊢
  cases req with
  | error e => cases h
  | ok req =>
    dsimp only at h ⊢
    by_cases hmethod : req.method ≠ ascii "CONNECT"
    · rw [if_pos hmethod] at h
      cases h
    · rw [if_neg hmethod] at h ⊢
      cases ht : connectTarget env.parseIP req.host with
      | none => simp [ht] at h
      | some t =>
        rw [ht] at h
        dsimp only at h ⊢
        cases ho : env.openStream t with
        | some e => simp [ho] at h
        | none =>
          dsimp only
          split_ifs with hbuf
          · simp [Buffered.drain]
          · have hempty : br.buf = [] := List.length_eq_zero_iff.mp (by omega)
            simp [hempty]

/-- **The hand-over**, however the buffer was filled while the header was read. -/
theorem connect_hands_over (env : HandlerEnv) (req : Except GoError Request) (rd : ByteReader) (header data : Bytes)
    (ops : List Parser.Op) (s : Parser UInt8 SysError) (hin : rd.content = header ++ data)
    (hrun : Machine.run Parser.step { br := newReader rd } ops = some s) (htaken : s.taken = header)
    (hopen : (handleConn env req s.br).opened = true) (acts : List RelayingAct) (t : Relaying)
    (hrelay : Machine.run Relaying.step (handleConn env req s.br).relay acts = some t)
    (hrest : acts.flatMap (RelayingAct.sentBy .b) = s.br.rd.content) :
    (handleConn env req s.br).br.buf = [] ∧ (t.conn .a).outbound.sent <+: data ∧
      (t.Returned → ((t.conn .a).outbound.sent = data ↔
        Machine.AllSteps Relaying.step (HarmlessAt .b) (handleConn env req s.br).relay acts)) := by
  have hheld := Parser.run_held hrun
  have hdata : s.br.buf ++ s.br.rd.content = data := by
    unfold Parser.held newReader at hheld
    rw [htaken] at hheld
    dsimp only at hheld
    rw [hin, List.nil_append, List.nil_append] at hheld
    exact List.append_cancel_left hheld
  obtain ⟨hstream, hbuf⟩ := handleConn_opened hopen
  unfold Handled.relay at hrelay ⊢
  rw [hstream] at hrelay ⊢
  have hsent : (t.conn .b).inbound.sent = data := by
    rw [sent_run .b acts hrelay, hrest]
    exact hdata
  have hdir := Machine.run_invariant direction_step acts _ t (direction_start _) hrelay
  refine ⟨hbuf, ?_, fun hret => ?_⟩
  · rw [← hsent]
    exact (hdir .a).wrote_first
  · rw [← hsent]
    exact one_way_iff _ acts t .a hrelay hret

theorem connect_hands_over_shared_chunk :
    let header := ascii "CONNECT a:1 HTTP/1.1\r\n\r\n"
    let rd : ByteReader := { chunks := [header.take 22, header.drop 22 ++ ascii "hi", ascii "!"], fin := .eof }
    let env : HandlerEnv := { parseIP := fun _ => false, openStream := fun _ => none }
    let acts : List RelayingAct := [.send .b (ascii "!"), .endSending .b, .copy .a (.read (ascii "!")),
      .copy .a (.write .full), .copy .a .stop, .close .a, .copy .b .stop, .close .b]
    ∃ s t, Machine.run Parser.step { br := newReader rd } [.fill, .fill, .take 24] = some s ∧
      Machine.run Relaying.step (handleConn env (.ok ⟨ascii "CONNECT", ascii "a:1"⟩) s.br).relay acts = some t ∧
      t.Returned ∧ (t.conn .a).outbound.sent = ascii "hi!" := by
  intro header rd env acts
  have hruns : (Machine.run Parser.step { br := newReader rd }
      [.fill, .fill, .take 24]).map (fun s => (s.br, s.taken)) =
      some ({ newReader rd with rd := ⟨[ascii "!"], .eof, false⟩, buf := ascii "hi" }, header) := by
    decide +kernel
  obtain ⟨s, hs, heq⟩ := Option.map_eq_some_iff.mp hruns
  obtain ⟨hbr, htaken⟩ := Prod.mk.inj heq
  have hrelays : (Machine.run Relaying.step (handleConn env (.ok ⟨ascii "CONNECT", ascii "a:1"⟩) s.br).relay acts).map
      (fun t => ((t.conn .a).closed, (t.conn .b).closed)) = some (true, true) := by
    rw [hbr]
    decide +kernel
  obtain ⟨t, ht, hclosed⟩ := Option.map_eq_some_iff.mp hrelays
  have hret : t.Returned := (forall_side .a).mpr (Prod.mk.inj hclosed)
  have hover := connect_hands_over env (.ok ⟨ascii "CONNECT", ascii "a:1"⟩) rd header (ascii "hi!") _ s
    (by decide +kernel) hs htaken (by rw [hbr]; decide +kernel) acts t ht (by rw [hbr]; decide +kernel)
  exact ⟨s, t, hs, ht, hret, (hover.2.2 hret).mpr (by rw [hbr]; decide +kernel)⟩

/-- The target ends first, and what the client has sent is lost though no write has failed. -/
theorem client_bytes_cut_off :
    let header := ascii "CONNECT a:1 HTTP/1.1\r\n\r\n"
    let rd : ByteReader := { chunks := [header ++ ascii "hi", ascii "!"], fin := .eof }
    let env : HandlerEnv := { parseIP := fun _ => false, openStream := fun _ => none }
    let acts : List RelayingAct := [.send .b (ascii "!"), .endSending .a, .copy .b .stop, .close .b, .copy .a .stop,
      .close .a]
    ∃ s t, Machine.run Parser.step { br := newReader rd } [.fill, .take 24] = some s ∧ s.taken = header ∧
      acts.flatMap (RelayingAct.sentBy .b) = s.br.rd.content ∧
      Machine.run Relaying.step (handleConn env (.ok ⟨ascii "CONNECT", ascii "a:1"⟩) s.br).relay acts = some t ∧
      t.Returned ∧ (t.conn .a).outbound.sent = ascii "hi" := by
  intro header rd env acts
  have hruns : (Machine.run Parser.step { br := newReader rd } [.fill, .take 24]).map (fun s => (s.br, s.taken)) =
      some ({ newReader rd with rd := ⟨[ascii "!"], .eof, false⟩, buf := ascii "hi" }, header) := by
    decide +kernel
  obtain ⟨s, hs, heq⟩ := Option.map_eq_some_iff.mp hruns
  obtain ⟨hbr, htaken⟩ := Prod.mk.inj heq
  have hrelays : (Machine.run Relaying.step (handleConn env (.ok ⟨ascii "CONNECT", ascii "a:1"⟩) s.br).relay acts).map
      (fun t => (((t.conn .a).closed, (t.conn .b).closed), (t.conn .a).outbound.sent)) =
        some ((true, true), ascii "hi") := by
    rw [hbr]
    decide +kernel
  obtain ⟨t, ht, heq⟩ := Option.map_eq_some_iff.mp hrelays
  obtain ⟨hclosed, hsent⟩ := Prod.mk.inj heq
  refine ⟨s, t, hs, htaken, ?_, ht, (forall_side .a).mpr (Prod.mk.inj hclosed), hsent⟩
  rw [hbr]
  decide +kernel

/-! ## Authorities -/

/-- A DNS name or an IPv4 address. -/
structure HostText where
  text : Bytes
  plain : Net.Plain text

structure V6Text where
  text : Bytes
  colon : 58 ∈ text
  opening : 91 ∉ text
  closing : 93 ∉ text

/-- A decimal number up to 65535. -/
structure PortText where
  text : Bytes
  value : Nat
  reads : Json.parseDigits text = some value
  fits : value ≤ 65535

inductive Authority where
  | hostPort (host : HostText) (port : PortText)
  | hostOnly (host : HostText)
  | v6Port (v6 : V6Text) (port : PortText)
  | v6Only (v6 : V6Text)

def Authority.text : Authority → Bytes
  | .hostPort host port => host.text ++ 58 :: port.text
  | .hostOnly host => host.text
  | .v6Port v6 port => 91 :: (v6.text ++ 93 :: 58 :: port.text)
  | .v6Only v6 => 91 :: (v6.text ++ [93])

/-- The host, or the address without its brackets. -/
def Authority.bare : Authority → Bytes
  | .hostPort host _ => host.text
  | .hostOnly host => host.text
  | .v6Port v6 _ => v6.text
  | .v6Only v6 => v6.text

def Authority.port : Authority → Nat
  | .hostPort _ port => port.value
  | .hostOnly _ => 443
  | .v6Port _ port => port.value
  | .v6Only _ => 443

/-- The port as written, and `443` without one. -/
def Authority.portText : Authority → Bytes
  | .hostPort _ port => port.text
  | .hostOnly _ => ascii "443"
  | .v6Port _ port => port.text
  | .v6Only _ => ascii "443"

def Authority.isBareV6 : Authority → Bool
  | .v6Only _ => true
  | _ => false

theorem digits_plain {s : Bytes} {n : Nat} (h : Json.parseDigits s = some n) : Net.Plain s := by
  unfold Json.parseDigits at h
  split_ifs at h with hbad
  simp only [Bool.or_eq_true, List.isEmpty_iff, Bool.not_eq_true', List.all_eq_false, not_or, not_exists,
    not_and, not_not] at hbad
  have hnot : ∀ c, Json.isDigit c = false → c ∉ s := by
    intro c hc hmem
    rw [hbad.2 c hmem] at hc
    cases hc
  exact ⟨hnot 58 rfl, hnot 91 rfl, hnot 93 rfl⟩

theorem parsePort_text (port : PortText) : parsePort port.text = some (UInt16.ofNat port.value) := by
  unfold parsePort
  rw [port.reads]
  simp [port.fits]

theorem connectTarget_split (parseIP : Bytes → Bool) {authority host : Bytes} {port : PortText}
    (h : Net.splitHostPort authority = .ok (host, port.text)) :
    connectTarget parseIP authority = some ⟨addrTypeOf parseIP host, host, UInt16.ofNat port.value⟩ := by
  unfold connectTarget
  rw [h]
  dsimp only
  rw [parsePort_text]
  rfl

theorem connectTarget_fallback (parseIP : Bytes → Bool) {authority : Bytes} {e : GoError}
    (h : Net.splitHostPort authority = .error e) :
    connectTarget parseIP authority = some ⟨addrTypeOf parseIP authority, authority, 443⟩ := by
  have hport : parsePort (ascii "443") = some 443 := by decide +kernel
  unfold connectTarget
  rw [h]
  dsimp only
  rw [hport]
  rfl

/-- The host that is sent: the text as it stands where no port is found. -/
def Authority.sentHost : Authority → Bytes
  | .v6Only v6 => 91 :: (v6.text ++ [93])
  | a => a.bare

theorem connectTarget_authority (parseIP : Bytes → Bool) (a : Authority) :
    connectTarget parseIP a.text = some ⟨addrTypeOf parseIP a.sentHost, a.sentHost, UInt16.ofNat a.port⟩ := by
  cases a with
  | hostPort host port =>
    exact connectTarget_split parseIP (Net.splitHostPort_plain host.plain (digits_plain port.reads))
  | hostOnly host => exact connectTarget_fallback parseIP (Net.splitHostPort_bare host.plain.1)
  | v6Port v6 port =>
    exact connectTarget_split parseIP (Net.splitHostPort_bracketed v6.opening v6.closing (digits_plain port.reads))
  | v6Only v6 => exact connectTarget_fallback parseIP (Net.splitHostPort_bracketed_bare v6.colon v6.closing)

theorem port_fits (a : Authority) : (UInt16.ofNat a.port).toNat = a.port := by
  have hle : a.port ≤ 65535 := by
    cases a with
    | hostPort host port => exact port.fits
    | hostOnly host => exact (by decide : 443 ≤ 65535)
    | v6Port v6 port => exact port.fits
    | v6Only v6 => exact (by decide : 443 ≤ 65535)
  exact UInt16.toNat_ofNat_of_lt' (Nat.lt_succ_of_le hle)

theorem sentHost_joined_iff (a : Authority) :
    Net.joinHostPort a.sentHost (formatInt a.port) = Net.joinHostPort a.bare (formatInt a.port) ↔
      a.isBareV6 = false := by
  cases a with
  | v6Only v6 =>
    refine iff_of_false ?_ (by simp [Authority.isBareV6])
    intro heq
    have hlen := congrArg List.length heq
    simp [Authority.sentHost, Authority.bare, Net.joinHostPort, v6.colon] at hlen
    omega
  | _ => exact iff_of_true rfl rfl

theorem sentHost_written_iff (a : Authority) :
    Net.joinHostPort a.sentHost (formatInt a.port) = Net.joinHostPort a.bare a.portText ↔
      a.isBareV6 = false ∧ a.portText = formatInt a.port := by
  cases hbare : a.isBareV6 with
  | true =>
    have hport : a.portText = formatInt a.port := by
      cases a with
      | v6Only v6 => exact (by decide +kernel : ascii "443" = formatInt 443)
      | _ => cases hbare
    rw [hport, sentHost_joined_iff, hbare]
    simp
  | false =>
    have hsent : a.sentHost = a.bare := by
      cases a with
      | v6Only v6 => cases hbare
      | _ => rfl
    rw [hsent, Net.joinHostPort_port_inj]
    simp [eq_comm]

/-- **CONNECT targets** are dialed as written, but for a bare IPv6 address in brackets. -/
theorem connect_dialed_as_written_iff (env : HandlerEnv) (a : Authority) (br : Buffered UInt8 SysError) :
    ∃ t, (handleConn env (.ok ⟨ascii "CONNECT", a.text⟩) br).asked = some t ∧
      (Tunnel.targetAddr t.addr t.port = Net.joinHostPort a.bare (formatInt a.port) ↔ a.isBareV6 = false) ∧
      (Tunnel.targetAddr t.addr t.port = Net.joinHostPort a.bare a.portText ↔
        a.isBareV6 = false ∧ a.portText = formatInt a.port) := by
  have hdialed : Tunnel.targetAddr a.sentHost (UInt16.ofNat a.port) =
      Net.joinHostPort a.sentHost (formatInt a.port) := by
    unfold Tunnel.targetAddr
    rw [port_fits]
  refine ⟨⟨addrTypeOf env.parseIP a.sentHost, a.sentHost, UInt16.ofNat a.port⟩, ?_, ?_, ?_⟩
  · unfold handleConn
    dsimp only
    rw [if_neg (not_not.mpr rfl), connectTarget_authority]
    dsimp only
    split <;> rfl
  · rw [hdialed]
    exact sentHost_joined_iff a
  · rw [hdialed]
    exact sentHost_written_iff a

theorem bare_v6_dialed_twice_bracketed :
    let authority : Authority := .v6Only ⟨ascii "::1", by decide, by decide, by decide⟩
    let env : HandlerEnv := { parseIP := fun host => host == ascii "::1", openStream := fun _ => none }
    let asked :=
      (handleConn env (.ok ⟨ascii "CONNECT", authority.text⟩) (newReader { chunks := [], fin := .eof })).asked
    asked = some ⟨Protocol.addrDomain, ascii "[::1]", 443⟩ ∧
      Tunnel.targetAddr (ascii "[::1]") 443 = ascii "[[::1]]:443" ∧
      Net.joinHostPort authority.bare (formatInt authority.port) = ascii "[::1]:443" := by
  decide +kernel

end Daxson.Http
