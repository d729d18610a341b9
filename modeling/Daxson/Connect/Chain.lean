import Daxson.Connect.Codec
import Daxson.Mux.Relay

/-! # A proxied stream through any number of relays

Every party moves by itself, and reads whatever pieces its stream hands out.
-/

open Lib (Pipe)

namespace Daxson.Connect

open Mux

/-- One stream, with a pipe each way. `up` leads to the target. -/
structure Link where
  up : Pipe UInt8 := {}
  down : Pipe UInt8 := {}
  deriving DecidableEq, Repr

/-! ## What `bridgeStream` and `handleStream` share -/

/-- A goroutine that serves one stream. `ω` is where it stands between the request and the answer. -/
inductive Hop (ω : Type) where
  /-- In `readConnectRequest`, after the bytes `got`. -/
  | request (got : Bytes)
  | opening (w : ω)
  | answering (ok : Bool)
  | relaying (up down : Copy)
  | closed
  deriving DecidableEq, Repr

/-- What differs between the two: the codec, and how the way on is opened. -/
structure Party (ω : Type) where
  refuseEmpty : Bool
  response : Bool → Bytes
  start : Target → ω

inductive HopAct where
  | recv (chunk : Bytes)
  /-- A read fails. For the relay also one whose error comes with the last bytes. -/
  | recvFails
  | answer (o : WriteOutcome)
  | up (a : CopyAct)
  | down (a : CopyAct)
  deriving DecidableEq, Repr

def Party.received {ω : Type} (p : Party ω) (got : Bytes) : Hop ω :=
  match scan p.refuseEmpty got with
  | .need _ => .request got
  | .fail _ => .closed
  | .target t => .opening (p.start t)

/-- A step between the incoming stream `l` and the outgoing one. -/
def Hop.step {ω : Type} (p : Party ω) (l : Link) (h : Hop ω) (out : Link) (a : HopAct) :
    Option (Link × Hop ω × Link) :=
  match h, a with
  | .request got, .recv chunk =>
    match scan p.refuseEmpty got, l.up.pull chunk with
    | .need n, some up =>
      -- A read returns at most what is left of its buffer.
      if chunk = [] ∨ n < chunk.length then none
      else some ({ l with up := up }, p.received (got ++ chunk), out)
    | _, _ => none
  | .request _, .recvFails => some (l, .closed, out)
  | .answering ok, .answer o =>
    some ({ l with down := l.down.push (o.delivered (p.response ok)) },
      if ok && o.err.isNone then .relaying .reading .reading else .closed, out)
  | .relaying u d, .up a =>
    (u.step l.up out.up a).map fun r => ({ l with up := r.2.1 }, .relaying r.1 d, { out with up := r.2.2 })
  | .relaying u d, .down a =>
    (d.step out.down l.down a).map fun r =>
      ({ l with down := r.2.2 }, .relaying u r.1, { out with down := r.2.1 })
  | _, _ => none

/-! ## The server -/

structure ServerNode where
  hop : Hop Target := .request []
  /-- The address of the dial that succeeded. -/
  dialed : Option Bytes := none
  target : Link := {}
  deriving DecidableEq, Repr

def serverParty : Party Target where
  refuseEmpty := true
  response := Tunnel.writeConnectResponse
  start := id

inductive ServerAct where
  | hop (a : HopAct)
  | dial (ok : Bool)
  /-- The target itself sends and reads on its connection. -/
  | targetSends (b : Bytes)
  | targetReads (chunk : Bytes)
  deriving DecidableEq, Repr

def ServerNode.step (l : Link) (n : ServerNode) (a : ServerAct) : Option (Link × ServerNode) :=
  match a with
  | .hop a => (n.hop.step serverParty l n.target a).map fun r => (r.1, { n with hop := r.2.1, target := r.2.2 })
  | .dial ok =>
    match n.hop with
    | .opening t =>
      some (l, { n with
        hop := .answering ok
        dialed := if ok then some (Tunnel.targetAddr t.addr t.port) else none })
    | _ => none
  | .targetSends b =>
    if n.dialed = none then none
    else some (l, { n with target := { n.target with down := n.target.down.push b } })
  | .targetReads chunk =>
    (n.target.up.pull chunk).map fun up => (l, { n with target := { n.target with up := up } })

/-! ## A relay -/

inductive Opening where
  | connect (t : Target)
  | status
  deriving DecidableEq, Repr

structure RelayNode where
  hop : Hop Opening := .request []
  upstream : Link := {}
  deriving DecidableEq, Repr

def relayParty : Party Opening where
  refuseEmpty := false
  response := Relay.writeConnectResponse
  start := .connect

inductive RelayAct where
  | hop (a : HopAct)
  /-- The upstream session is closed, or opens no stream. -/
  | noStream
  | connect (o : WriteOutcome)
  | status (b : UInt8)
  | statusFails
  deriving DecidableEq, Repr

def RelayNode.step (l : Link) (n : RelayNode) (a : RelayAct) : Option (Link × RelayNode) :=
  match a with
  | .hop a => (n.hop.step relayParty l n.upstream a).map fun r => (r.1, { hop := r.2.1, upstream := r.2.2 })
  | .noStream =>
    match n.hop with
    | .opening (.connect _) => some (l, { n with hop := .answering false })
    | _ => none
  | .connect o =>
    match n.hop with
    | .opening (.connect t) =>
      some (l, {
        hop := if o.err.isNone then .opening .status else .answering false
        upstream := { n.upstream with up := n.upstream.up.push (o.delivered (Relay.writeConnectRequest t)) } })
    | _ => none
  | .status b =>
    match n.hop with
    | .opening .status =>
      (n.upstream.down.pull [b]).map fun down =>
        (l, { hop := .answering (Relay.refusal b).isNone, upstream := { n.upstream with down := down } })
    | _ => none
  | .statusFails =>
    match n.hop with
    | .opening .status => some (l, { n with hop := .answering false })
    | _ => none

/-! ## The chain -/

/-- The relays between the client and the server, the nearest one first. -/
inductive Chain where
  | server (n : ServerNode)
  | relay (n : RelayNode) (rest : Chain)
  deriving DecidableEq, Repr

inductive ChainAct where
  | server (a : ServerAct)
  | relay (a : RelayAct)
  | next (a : ChainAct)
  deriving DecidableEq, Repr

def Chain.step (l : Link) : Chain → ChainAct → Option (Link × Chain)
  | .server n, .server a => (n.step l a).map fun r => (r.1, .server r.2)
  | .relay n rest, .relay a => (n.step l a).map fun r => (r.1, .relay r.2 rest)
  | .relay n rest, .next a =>
    (rest.step n.upstream a).map fun r => (l, .relay { n with upstream := r.1 } r.2)
  | _, _ => none

def Chain.serverNode : Chain → ServerNode
  | .server n => n
  | .relay _ rest => rest.serverNode

def Chain.fresh : Nat → Chain
  | 0 => .server {}
  | n + 1 => .relay {} (fresh n)

/-! ## The client -/

inductive ClientState where
  | start
  | status
  | opened
  | failed (err : GoError)
  deriving DecidableEq, Repr

structure System where
  client : ClientState := .start
  /-- What the application's writes have put on the stream, and what its reads have returned. -/
  appSent : Bytes := []
  appGot : Bytes := []
  link : Link := {}
  chain : Chain
  deriving DecidableEq, Repr

inductive SysAct where
  | noSession (err : GoError)
  | noStream (err : GoError)
  | connect (o : WriteOutcome)
  | status (b : UInt8)
  | statusFails (err : SysError)
  | appWrites (b : Bytes) (o : WriteOutcome)
  | appReads (chunk : Bytes)
  | chain (a : ChainAct)
  deriving DecidableEq, Repr

def System.openStream (t : Target) (s : System) (o : WriteOutcome) : System :=
  match Tunnel.writeConnectRequest t with
  | .error e => { s with client := .failed (.wrap "tunnel: write connect request: %w" [] e) }
  | .ok b =>
    { s with
      client :=
        match o.err with
        | none => .status
        | some e => .failed (.wrap "tunnel: write connect request: %w" [] (.sys e))
      link := { s.link with up := s.link.up.push (o.delivered b) } }

/-- A step while the client opens a stream to `t`, or uses the one it has opened. -/
def System.step (t : Target) (s : System) (a : SysAct) : Option System :=
  match s.client, a with
  | .start, .noSession e => some { s with client := .failed e }
  | .start, .noStream e => some { s with client := .failed (.wrap "tunnel: open stream: %w" [] e) }
  | .start, .connect o => some (s.openStream t o)
  | .status, .status b =>
    (s.link.down.pull [b]).map fun down =>
      { s with
        client :=
          match Tunnel.refusal b with
          | none => .opened
          | some e => .failed e
        link := { s.link with down := down } }
  | .status, .statusFails e =>
    some { s with client := .failed (.wrap "tunnel: read connect response: %w" [] (.sys e)) }
  | .opened, .appWrites b o =>
    some { s with
      appSent := s.appSent ++ o.delivered b
      link := { s.link with up := s.link.up.push (o.delivered b) } }
  | .opened, .appReads chunk =>
    (s.link.down.pull chunk).map fun down =>
      { s with appGot := s.appGot ++ chunk, link := { s.link with down := down } }
  | _, .chain a => (s.chain.step s.link a).map fun r => { s with link := r.1, chain := r.2 }
  | _, _ => none

end Daxson.Connect
