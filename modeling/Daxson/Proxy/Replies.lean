import Daxson.Proxy.Socks5

/-! # The SOCKS5 replies

A request that `readRequest` does not take ends the connection without a reply.
-/

open Lib Lib.BigEndian

namespace Daxson.Socks5

open Connect

def repSuccess : UInt8 := 0x00
def repGeneralFailure : UInt8 := 0x01
def repCommandNotSupp : UInt8 := 0x07
def repAddrTypeNotSupp : UInt8 := 0x08

/-- The bytes of `sendReply`. -/
def replyBytes (code : UInt8) : Bytes := [socks5Version, code, 0x00, atypIPv4, 0, 0, 0, 0, 0, 0]

/-- What `handleConn` hands to a connection after the method selection. -/
inductive Event where
  | reply (b : Bytes)
  /-- A piece that `io.Copy` takes from the client to the stream. -/
  | toStream (b : Bytes)
  | toClient (b : Bytes)
  deriving DecidableEq, Repr

def Event.isReply : Event → Bool
  | .reply _ => true
  | _ => false

/-- What the surroundings decide: the fate of both writes, the outcome of `OpenStream`, and the pieces
that the two copies move, in the order in which they are written. -/
structure HandlerEnv where
  selection : WriteOutcome := .full
  openStream : Target → Option GoError
  reply : WriteOutcome := .full
  upDown : List (Bytes ⊕ Bytes) := []

def relayed : Bytes ⊕ Bytes → Event
  | .inl b => .toStream b
  | .inr b => .toClient b

structure Handled where
  /-- The stream was opened, for this target. -/
  opened : Option Target := none
  events : List Event := []

def handleConn (env : HandlerEnv) (c : NetConn) : Handled :=
  match accept env.selection c with
  | (.error _, _) => {}
  | (.ok t, _) =>
    match env.openStream t with
    | some _ => { events := [.reply (replyBytes repGeneralFailure)] }
    | none =>
      { opened := some t
        events := .reply (replyBytes repSuccess) ::
          match env.reply.err with
          | some _ => []
          | none => env.upDown.map relayed }

/-! ## What a client is owed -/

def KnownType (atyp : UInt8) : Prop := atyp = atypIPv4 ∨ atyp = atypDomain ∨ atyp = atypIPv6

/-- A whole request: the header, and behind a known address type the address and the port. -/
def CompleteRequest (cmd atyp : UInt8) (b : Bytes) : Prop :=
  ∃ reserved rest, b = [0x05, cmd, reserved, atyp] ++ rest ∧
    (KnownType atyp → ∃ (a : Address) (port : UInt16) (more : Bytes),
      a.atyp = atyp ∧ rest = (a.body ++ beBytes 2 port.toNat) ++ more)

/-- One reply of ten bytes comes first, with the right code, and only a success is followed by data. -/
def Answered (cmd atyp : UInt8) (h : Handled) : Prop :=
  ∃ code data, h.events = .reply (replyBytes code) :: data ∧ (∀ e ∈ data, e.isReply = false) ∧
    (data ≠ [] → code = repSuccess) ∧ (code = repSuccess ↔ h.opened.isSome = true) ∧
    (cmd ≠ cmdConnect → code = repCommandNotSupp) ∧ (¬ KnownType atyp → code = repAddrTypeNotSupp)

theorem atyp_known (a : Address) : KnownType a.atyp := by
  cases a with
  | ipv4 ip => exact .inl rfl
  | domain name short => exact .inr (.inl rfl)
  | ipv6 ip => exact .inr (.inr rfl)

theorem relayed_isReply (l : List (Bytes ⊕ Bytes)) : ∀ e ∈ l.map relayed, e.isReply = false := by
  intro e he
  obtain ⟨b | b, -, rfl⟩ := List.mem_map.mp he
  · rfl
  · rfl

theorem readRequest_complete {cmd atyp : UInt8} {r : ByteReader} (h : CompleteRequest cmd atyp r.content) :
    (∃ t rx, readRequest r = (.ok t, rx)) ↔ cmd = cmdConnect ∧ KnownType atyp := by
  obtain ⟨reserved, rest, hin, hfull⟩ := h
  constructor
  · rintro ⟨t, rx, hread⟩
    obtain ⟨_, ⟨reserved', a, port, rfl, -⟩, hin'⟩ := readRequest_recognises.sound _ _ _ hread
    rw [hin] at hin'
    simp only [List.cons_append, List.cons.injEq, true_and] at hin'
    obtain ⟨rfl, -, rfl, -⟩ := hin'
    exact ⟨rfl, atyp_known a⟩
  · rintro ⟨rfl, hknown⟩
    obtain ⟨a, port, more, rfl, rfl⟩ := hfull hknown
    obtain ⟨rx, hread, -⟩ := readRequest_recognises.complete r _ ⟨a.sent.1, a.sent.2, port⟩ more
      ⟨reserved, a, port, rfl, rfl⟩ hin
    exact ⟨_, rx, hread⟩

theorem answered_opened (env : HandlerEnv) (t : Target) {atyp : UInt8} (hknown : KnownType atyp)
    {c c' : NetConn} (h : accept env.selection c = (.ok t, c')) : Answered cmdConnect atyp (handleConn env c) := by
  unfold handleConn
  rw [h]
  dsimp only
  cases env.openStream t with
  | some e =>
    refine ⟨repGeneralFailure, [], rfl, by simp, by simp, ?_, by simp, absurd hknown⟩
    exact iff_of_false (by decide) (by simp)
  | none =>
    refine ⟨repSuccess, _, rfl, ?_, fun _ => rfl, by simp, by simp, absurd hknown⟩
    cases env.reply.err with
    | some e => simp
    | none => exact relayed_isReply env.upDown

/-- A complete request is answered exactly when it is a CONNECT with a known address type. -/
theorem socks5_answered_iff (env : HandlerEnv) (c c₁ : NetConn) (cmd atyp : UInt8)
    (hneg : negotiate env.selection c = (none, c₁)) (hreq : CompleteRequest cmd atyp c₁.rx.content) :
    Answered cmd atyp (handleConn env c) ↔ cmd = cmdConnect ∧ KnownType atyp := by
  rw [← readRequest_complete hreq]
  constructor
  · rintro ⟨code, data, hevents, -⟩
    rcases hread : readRequest c₁.rx with ⟨e | t, rx⟩
    · have hfail : accept env.selection c = (.error e, { c₁ with rx := rx }) := by
        unfold accept
        rw [hneg]
        dsimp only
        rw [hread]
      unfold handleConn at hevents
      rw [hfail] at hevents
      cases hevents
    · exact ⟨t, rx, rfl⟩
  · rintro ⟨t, rx, hread⟩
    obtain ⟨rfl, hknown⟩ := (readRequest_complete hreq).mp ⟨t, rx, hread⟩
    exact answered_opened env t hknown ((accept_ok_iff _ _ _ _).mpr ⟨c₁, hneg, rx, hread, rfl⟩)

theorem socks5_answered_refused :
    let chunks : List Bytes := [[0x05, 0x01, 0x00], [0x05, 0x01, 0x00, 0x03, 0x02], [0x68, 0x69, 0x01, 0xBB]]
    Answered cmdConnect atypDomain
      (handleConn { openStream := fun _ => some (.new "tunnel: no active session" []) }
        { rx := { chunks := chunks, fin := .eof } }) := by
  intro chunks
  refine (socks5_answered_iff _ _ _ cmdConnect atypDomain rfl ?_).mpr ⟨rfl, .inr (.inl rfl)⟩
  exact ⟨0x00, [0x02, 0x68, 0x69, 0x01, 0xBB], rfl,
    fun _ => ⟨.domain (ascii "hi") (by decide), 443, [], rfl, by decide⟩⟩

/-- A BIND request and one with address type 2 are read to the end, and the connection is closed. -/
theorem socks5_unanswered :
    let conn (request : Bytes) : NetConn := { rx := { chunks := [[0x05, 0x01, 0x00], request], fin := .eof } }
    let bind : Bytes := [0x05, 0x02, 0x00, 0x01, 127, 0, 0, 1, 0x01, 0xBB]
    CompleteRequest 0x02 atypIPv4 bind ∧ (handleConn { openStream := fun _ => none } (conn bind)).events = [] ∧
      CompleteRequest cmdConnect 0x02 [0x05, 0x01, 0x00, 0x02] ∧
      (handleConn { openStream := fun _ => none } (conn [0x05, 0x01, 0x00, 0x02])).events = [] := by
  refine ⟨⟨0x00, [127, 0, 0, 1, 0x01, 0xBB], rfl, fun _ => ?_⟩, by decide, ⟨0x00, [], rfl, ?_⟩, by decide⟩
  · exact ⟨.ipv4 ⟨[127, 0, 0, 1], rfl⟩, 443, [], rfl, by decide⟩
  · intro hknown
    exact absurd hknown (by decide : ¬ (0x02 = atypIPv4 ∨ 0x02 = atypDomain ∨ 0x02 = atypIPv6))

end Daxson.Socks5
