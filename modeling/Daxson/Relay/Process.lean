import Daxson.Auth.Spec
import Daxson.Lib.Crew
import Daxson.Tunnel.Leaks
import Daxson.Tunnel.Serving

/-! # The relay's process

Nothing guards `upstreamSession`: `OpenStream` reads it three times, and every read is a step of its own.
-/

open Lib.Crew

namespace Daxson.Relay

open Auth
open Tunnel (Listening)
open Reconnect (Link)

/-- Where a `connectUpstream` stands: before the call it names. -/
inductive Connecting where
  | dial
  | clientHandshake (rawConn : Link)
  | newClientSession (shapedConn : Link)
  /-- The new session is there, and the old one is still to be closed. -/
  | closeOld (sess : Link)
  | store (sess : Link)
  deriving DecidableEq, Repr

/-- Where `upstreamMaintain` stands. -/
inductive Maintain where
  | wait
  | isClosed
  | connecting (p : Connecting)
  | returned
  deriving DecidableEq, Repr

/-- Where `Run` stands, with the goroutine that it starts. -/
inductive Phase where
  | initial (p : Connecting)
  | failed (err : GoError)
  | serving (m : Maintain)
  deriving DecidableEq

/-- What the goroutines share. -/
structure Node where
  /-- `Transport.Obfs.Enabled`. -/
  obfs : Bool := false
  downstreamAuth : Handshaker := ⟨[]⟩
  /-- `Server.Listen`. -/
  listen : Bytes := []
  phase : Phase := .initial .dial
  loop : Listening := .start
  listenerOpen : Bool := false
  cancelled : Bool := false
  /-- For each dialed connection, whether it is closed. -/
  closed : List Bool := []
  upstreamSession : Option Link := none
  connectionsOutbound : Nat := 0
  sessionsActive : Int := 0
  /-- A method of a nil session was called. -/
  panicked : Bool := false

/-- `New`: the relay before `Run`. -/
def newRelay (obfs : Bool) (downstreamAuth : Handshaker) (listen : Bytes) : Node where
  obfs := obfs
  downstreamAuth := downstreamAuth
  listen := listen

def Node.close (conn : Link) (n : Node) : Node := { n with closed := n.closed.set conn.id true }

def Node.wrap (n : Node) (conn : Link) : Link := if n.obfs then .shaped conn else conn

inductive Outcome where
  | goesOn (p : Connecting)
  | connected
  | error (err : GoError)

/-- The next call of `connectUpstream` returns, with its error. -/
def Node.connectUpstream (n : Node) (err : Option SysError) : Connecting → Option (Node × Outcome)
  | .dial =>
    match err with
    | some e => some (n, .error (.wrap "upstream dial: %w" [] (.sys e)))
    | none => some ({ n with closed := n.closed ++ [false] }, .goesOn (.clientHandshake (.raw n.closed.length)))
  | .clientHandshake rawConn =>
    match err with
    | some e => some (n.close rawConn, .error (.wrap "upstream auth: %w" [] (.sys e)))
    | none => some (n, .goesOn (.newClientSession (n.wrap rawConn)))
  | .newClientSession shapedConn =>
    match err with
    | some e => some (n.close shapedConn, .error (.wrap "upstream mux: %w" [] (.sys e)))
    | none => some (n, .goesOn (.closeOld shapedConn))
  | .closeOld sess =>
    match err with
    | some _ => none
    | none => some (n.upstreamSession.elim n fun old => n.close old, .goesOn (.store sess))
  | .store sess =>
    match err with
    | some _ => none
    | none => some ({ n with upstreamSession := some sess }, .connected)

/-! ## Downstream -/

/-- Where a `handleDownstreamConn` stands: before the call it names. -/
inductive ConnStage where
  | serverHandshake (conn : NetConn)
  | newServerSession
  | recordSessionOpen
  | acceptStream
  -- The deferred calls.
  | recordSessionClose
  | sessClose
  | rawClose
  | returned

/-- Where a `bridgeStream` stands: before the call or the read it names. -/
inductive BridgeStage where
  | readConnectRequest
  /-- `upstreamSession == nil`. -/
  | nilCheck
  /-- `upstreamSession.IsClosed()`. -/
  | closedCheck
  /-- `upstreamSession.OpenStream()`. -/
  | openStream
  /-- The CONNECT exchange on the upstream stream. -/
  | connect
  | refuse
  | respond
  | relay
  -- The deferred calls.
  | upstreamClose
  | downstreamClose
  | returned
  deriving DecidableEq, Repr

inductive Worker where
  | conn (stage : ConnStage) (rawClosed shaping unmuxed : Bool)
  /-- The session that the upstream stream is on, and whether each of the two streams is closed. -/
  | bridge (stage : BridgeStage) (upstream : Option Link) (upstreamClosed downstreamClosed : Bool)

inductive MainAct where
  /-- The next call of `connectUpstream` returns. -/
  | connect (err : Option SysError)
  | tick
  | maintainCancelled
  | isClosed
  /-- The mux closes the stored session of its own accord, or the new one before it is stored. -/
  | breaks
  | newBreaks
  | tlsInitFails (err : SysError)
  | listenFails (err : SysError)
  | listens
  | accepted (conn : NetConn)
  | streamAccepted
  | acceptFails
  | cancel
  | closeListener

inductive WorkAct where
  | handshake (env : ServerEnv)
  /-- The next call returns, or fails. -/
  | call (ok : Bool)

/-- `Run` and `upstreamMaintain` after a call of `connectUpstream`. -/
def Phase.after (out : Outcome) : Phase → Phase
  | .initial _ =>
    match out with
    | .goesOn p' => .initial p'
    | .connected => .serving .wait
    | .error e => .failed (.wrap "relay: initial upstream connect: %w" [] e)
  | .serving _ =>
    match out with
    | .goesOn p' => .serving (.connecting p')
    | .connected | .error _ => .serving .wait
  | .failed e => .failed e

def Phase.connecting : Phase → Option Connecting
  | .initial p | .serving (.connecting p) => some p
  | _ => none

def Phase.isServing : Phase → Bool
  | .serving _ => true
  | _ => false

def Node.isOpen (n : Node) (conn : Link) : Bool := n.closed[conn.id]? = some false

def Node.main (n : Node) : MainAct → Option (Node × Option Worker)
  | .connect err =>
    n.phase.connecting.bind fun p => (n.connectUpstream err p).map fun (n', out) =>
      ({ n' with phase := n.phase.after out }, none)
  | .tick => if n.phase = .serving .wait then some ({ n with phase := .serving .isClosed }, none) else none
  | .maintainCancelled =>
    if n.phase = .serving .wait ∧ n.cancelled then some ({ n with phase := .serving .returned }, none) else none
  | .isClosed =>
    if n.phase = .serving .isClosed then
      some ({ n with phase := .serving (if n.upstreamSession.any n.isOpen then .wait else .connecting .dial) }, none)
    else none
  | .breaks => n.upstreamSession.map fun sess => (n.close sess, none)
  | .newBreaks =>
    match n.phase.connecting with
    | some (.closeOld sess) | some (.store sess) => some (n.close sess, none)
    | _ => none
  | .tlsInitFails e =>
    if n.phase.isServing ∧ n.loop = .start then
      some ({ n with loop := .returned (some (.wrap "relay: downstream TLS init: %w" [] (.sys e))) }, none)
    else none
  | .listenFails e =>
    if n.phase.isServing ∧ n.loop = .start then
      some ({ n with loop := .returned (some (.wrap "relay: downstream listen %s: %w" [n.listen] (.sys e))) }, none)
    else none
  | .listens =>
    if n.phase.isServing ∧ n.loop = .start then some ({ n with loop := .accepting, listenerOpen := true }, none)
    else none
  | .accepted conn =>
    if n.loop = .accepting ∧ n.listenerOpen then
      -- An accepted connection is counted as an outbound one.
      some ({ n with connectionsOutbound := n.connectionsOutbound + 1 },
        some (.conn (.serverHandshake conn) false false false))
    else none
  | .streamAccepted => if n.loop ≠ .start then some (n, some (.bridge .readConnectRequest none false false)) else none
  | .acceptFails =>
    if n.loop = .accepting then
      some (if n.cancelled then { n with loop := .returned none, listenerOpen := false } else n, none)
    else none
  | .cancel => some ({ n with cancelled := true }, none)
  | .closeListener => if n.cancelled then some ({ n with listenerOpen := false }, none) else none

def Node.workConn (cr : Crypto) (n : Node) (rawClosed shaping unmuxed : Bool) (a : WorkAct) :
    ConnStage → Option (Node × Worker)
  | .serverHandshake conn =>
    match a with
    | .handshake env =>
      some (n, .conn (match (n.downstreamAuth.serverHandshake cr env conn).1 with
        | .ok _ => .newServerSession
        | .error _ => .rawClose) rawClosed shaping unmuxed)
    | .call _ => none
  | .newServerSession =>
    match a with
    | .call ok => some (n, .conn (if ok then .recordSessionOpen else .rawClose) rawClosed n.obfs (!ok))
    | .handshake _ => none
  | .recordSessionOpen =>
    some ({ n with sessionsActive := n.sessionsActive + 1 }, .conn .acceptStream rawClosed shaping unmuxed)
  | .acceptStream => some (n, .conn .recordSessionClose rawClosed shaping unmuxed)
  | .recordSessionClose =>
    some ({ n with sessionsActive := n.sessionsActive - 1 }, .conn .sessClose rawClosed shaping unmuxed)
  | .sessClose => some (n, .conn .rawClose true false unmuxed)
  | .rawClose => some (n, .conn .returned true shaping unmuxed)
  | .returned => none

def Node.workBridge (n : Node) (upstream : Option Link) (upstreamClosed downstreamClosed : Bool) (ok : Bool) :
    BridgeStage → Option (Node × Worker)
  | .readConnectRequest =>
    some (n, .bridge (if ok then .nilCheck else .downstreamClose) upstream upstreamClosed downstreamClosed)
  | .nilCheck =>
    some (n,
      .bridge (if n.upstreamSession = none then .refuse else .closedCheck) upstream upstreamClosed downstreamClosed)
  | .closedCheck =>
    match n.upstreamSession with
    | none => some ({ n with panicked := true }, .bridge .returned upstream upstreamClosed downstreamClosed)
    | some sess =>
      some (n, .bridge (if n.isOpen sess then .openStream else .refuse) upstream upstreamClosed downstreamClosed)
  | .openStream =>
    match n.upstreamSession with
    | none => some ({ n with panicked := true }, .bridge .returned upstream upstreamClosed downstreamClosed)
    | some sess =>
      some (n, if ok && n.isOpen sess then .bridge .connect (some sess) false downstreamClosed
        else .bridge .refuse upstream upstreamClosed downstreamClosed)
  | .connect =>
    some (n, if ok then .bridge .respond upstream upstreamClosed downstreamClosed
      else .bridge .refuse upstream true downstreamClosed)
  | .refuse => some (n, .bridge .downstreamClose upstream upstreamClosed downstreamClosed)
  | .respond =>
    some (n, .bridge (if ok then .relay else .upstreamClose) upstream upstreamClosed downstreamClosed)
  | .relay => some (n, .bridge .upstreamClose upstream true true)
  | .upstreamClose => some (n, .bridge .downstreamClose upstream true downstreamClosed)
  | .downstreamClose => some (n, .bridge .returned upstream upstreamClosed true)
  | .returned => none

def Node.work (cr : Crypto) (n : Node) : Worker → WorkAct → Option (Node × Worker)
  | .conn stage rawClosed shaping unmuxed, a => n.workConn cr rawClosed shaping unmuxed a stage
  | .bridge stage upstream upstreamClosed downstreamClosed, .call ok =>
    n.workBridge upstream upstreamClosed downstreamClosed ok stage
  | .bridge _ _ _ _, .handshake _ => none

def relaying (cr : Crypto) : Team Node Worker → Turn MainAct WorkAct → Option (Team Node Worker) :=
  step Node.main (Node.work cr)

end Daxson.Relay
