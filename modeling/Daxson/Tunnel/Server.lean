import Daxson.Auth.Spec
import Daxson.Config

/-! # A server connection up to its session -/

namespace Daxson.Tunnel

open Auth

structure Server where
  hmacAuth : Handshaker
  /-- `none`: device and bootstrap auth are disabled. -/
  reg : Option Registry := none
  probeUpstream : Bytes := []

def newServer (cr : Crypto) (cfg : Config) (reg : Option Registry) : Server where
  hmacAuth := new cr cfg.server.auth.psk
  reg := reg
  probeUpstream := cfg.server.probeUpstream

/-- What the probe upstream does: whether it can be dialed, what it sends, and how much the relay
moves each way before one side ends. -/
structure ProbeEnv where
  dialErr : Option SysError := none
  sends : Bytes := []
  toUpstream : Nat := 0
  toClient : Nat := 0

structure Relayed where
  toUpstream : Bytes := []
  toClient : Bytes := []
  deriving DecidableEq, Repr

def forwardToProbeUpstream (s : Server) (p : ProbeEnv) (c : NetConn) : Relayed :=
  if s.probeUpstream.isEmpty then {}
  else
    match p.dialErr with
    | some _ => {}
    | none => { toUpstream := c.rx.content.take p.toUpstream, toClient := p.sends.take p.toClient }

inductive ConnFate where
  /-- Authenticated: the multiplexer takes over. -/
  | session (res : ServerAuthResult)
  /-- Counted as an auth failure, recorded as a probe and forwarded. -/
  | probed (relayed : Relayed)
  | dropped (err : GoError)
  deriving DecidableEq

/-- What came of a connection. `conn.tx` is what the server itself sent to the client. -/
structure Handled where
  fate : ConnFate
  conn : NetConn
  reg : Option Registry

def handleConn (cr : Crypto) (env : ServerEnv) (p : ProbeEnv) (s : Server) (c : NetConn) : Handled :=
  match serverDispatch cr env s.hmacAuth s.reg c with
  | (.ok res, c, reg) => ⟨.session res, c, reg⟩
  | (.error e, c, reg) =>
    if isAuthFailed e then ⟨.probed (forwardToProbeUpstream s p c), c, reg⟩ else ⟨.dropped e, c, reg⟩

def Handled.forwarded (h : Handled) : Bytes :=
  match h.fate with
  | .probed relayed => relayed.toUpstream
  | _ => []

end Daxson.Tunnel
