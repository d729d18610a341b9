import Daxson.Lib.Crew
import Daxson.Telemetry
import Daxson.Tunnel.ServerProofs

/-! # The server's process

A handshake is one step, since it calls the registry at most once. The streams of a session are left out.
-/

open Lib.Crew

namespace Daxson.Tunnel

open Auth Telemetry

/-- Where `ListenAndServe` stands. -/
inductive Listening where
  | start
  | accepting
  | returned (err : Option GoError)
  deriving DecidableEq

/-- What the handlers share. -/
structure Serving where
  server : Server
  /-- `Server.Listen`. -/
  listen : Bytes := []
  /-- `Transport.Obfs.Enabled`. -/
  obfs : Bool := false
  /-- The TLS persona label. -/
  transport : Bytes := []
  /-- `none`: no telemetry. -/
  collector : Option Collector := none
  sessionsActive : Int := 0
  connectionsInbound : Nat := 0
  authFailures : Nat := 0
  loop : Listening := .start
  listenerOpen : Bool := false
  cancelled : Bool := false
  -- The calls to the collector, which the code does not keep.
  calls : List Call := []

/-- Where a `handleConn` stands: before the call it names. -/
inductive Stage where
  | serverDispatch (conn : NetConn)
  | recordAuthFailure
  | recordProbe
  | forwardToProbeUpstream
  | newServerSession (res : ServerAuthResult)
  | recordSessionOpen (res : ServerAuthResult)
  | openSession (res : ServerAuthResult)
  /-- In the loop, with the ID that the deferred `CloseSession` will name. -/
  | acceptStream (sid : Option Bytes)
  -- The deferred calls.
  | closeSession (sid : Bytes)
  | recordSessionClose
  | sessClose
  | rawClose
  | returned

structure Handler where
  remote : Bytes
  stage : Stage
  rawClosed : Bool := false
  /-- The goroutines of the shaped connection run. -/
  shaping : Bool := false
  -- Whether `NewServerSession` failed, which the code does not keep.
  unmuxed : Bool := false

def modeText : AuthMode → Bytes
  | .hmac => ascii "hmac"
  | .device => ascii "device"
  | .bootstrap => ascii "bootstrap"

/-- A call to the collector, where there is one. -/
def Serving.tell (call : Call) (s : Serving) : Serving :=
  match s.collector with
  | none => s
  | some c => { s with collector := some (c.exec call), calls := s.calls ++ [call] }

/-- The arguments of `OpenSession`. -/
def openCall (now : Time) (remote transport : Bytes) (res : ServerAuthResult) : Call :=
  .openSession now res.sessionID ((res.devicePub.getD []).take 3) [] remote transport (modeText res.mode)

inductive MainAct where
  | tlsInitFails (err : SysError)
  | listenFails (err : SysError)
  | listens
  | accepted (remote : Bytes) (conn : NetConn)
  | acceptFails
  | cancel
  /-- The goroutine that waits for the context closes the listener. -/
  | closeListener
  | resolveISP (ptr : Nat) (name : Bytes)

inductive HandlerAct where
  | dispatched (env : ServerEnv) (p : ProbeEnv)
  | muxed (ok : Bool)
  /-- The next call returns, at this time. -/
  | goesOn (now : Time)

def Serving.main (s : Serving) : MainAct → Option (Serving × Option Handler)
  | .tlsInitFails e =>
    if s.loop = .start then some ({ s with loop := .returned (some (.wrap "server: TLS init: %w" [] (.sys e))) }, none)
    else none
  | .listenFails e =>
    if s.loop = .start then
      some ({ s with loop := .returned (some (.wrap "server: listen %s: %w" [s.listen] (.sys e))) }, none)
    else none
  | .listens =>
    if s.loop = .start then some ({ s with loop := .accepting, listenerOpen := true }, none) else none
  | .accepted remote conn =>
    if s.loop = .accepting ∧ s.listenerOpen then
      some ({ s with connectionsInbound := s.connectionsInbound + 1 },
        some { remote := remote, stage := .serverDispatch conn })
    else none
  | .acceptFails =>
    if s.loop = .accepting then
      some (if s.cancelled then { s with loop := .returned none, listenerOpen := false } else s, none)
    else none
  | .cancel => some ({ s with cancelled := true }, none)
  | .closeListener => if s.cancelled then some ({ s with listenerOpen := false }, none) else none
  | .resolveISP ptr name => some (s.tell (.resolveISP ptr name), none)

/-- `handleConn` after `ServerDispatch`. -/
def Serving.dispatched (out : Handled) (h : Handler) (s : Serving) : Serving × Handler :=
  ({ s with server := { s.server with reg := out.reg } },
    match out.fate with
    | .session res => { h with stage := .newServerSession res }
    | .probed _ => { h with stage := .recordAuthFailure }
    | .dropped _ => { h with stage := .rawClose })

def Serving.work (cr : Crypto) (s : Serving) (h : Handler) : HandlerAct → Option (Serving × Handler)
  | .dispatched env p =>
    match h.stage with
    | .serverDispatch conn => some (s.dispatched (handleConn cr env p s.server conn) h)
    | _ => none
  | .muxed ok =>
    match h.stage with
    | .newServerSession res =>
      -- The connection is shaped first, and a failure leaves it to itself.
      let h := { h with shaping := s.obfs }
      some (s,
        if ok then { h with stage := .recordSessionOpen res } else { h with stage := .rawClose, unmuxed := true })
    | _ => none
  | .goesOn now =>
    match h.stage with
    | .recordAuthFailure => some ({ s with authFailures := s.authFailures + 1 }, { h with stage := .recordProbe })
    | .recordProbe =>
      some (s.tell (.recordProbe now h.remote (ascii "auth_failed")), { h with stage := .forwardToProbeUpstream })
    | .forwardToProbeUpstream => some (s, { h with stage := .rawClose })
    | .recordSessionOpen res =>
      some ({ s with sessionsActive := s.sessionsActive + 1 }, { h with stage := .openSession res })
    | .openSession res =>
      some (s.tell (openCall now h.remote s.transport res),
        { h with stage := .acceptStream (if s.collector.isSome then some (hexEncode res.sessionID.val) else none) })
    | .acceptStream (some sid) => some (s, { h with stage := .closeSession sid })
    | .acceptStream none => some (s, { h with stage := .recordSessionClose })
    | .closeSession sid => some (s.tell (.closeSession sid), { h with stage := .recordSessionClose })
    | .recordSessionClose =>
      some ({ s with sessionsActive := s.sessionsActive - 1 }, { h with stage := .sessClose })
    | .sessClose => some (s, { h with stage := .rawClose, rawClosed := true, shaping := false })
    | .rawClose => some (s, { h with stage := .returned, rawClosed := true })
    | _ => none

/-- The process: the listener's loop and its handlers. -/
def serving (cr : Crypto) : Team Serving Handler → Turn MainAct HandlerAct → Option (Team Serving Handler) :=
  step Serving.main (Serving.work cr)

/-! ## One step -/

@[simp] theorem tell_sessionsActive (call : Call) (s : Serving) : (s.tell call).sessionsActive = s.sessionsActive := by
  unfold Serving.tell
  split <;> rfl

@[simp] theorem tell_connectionsInbound (call : Call) (s : Serving) :
    (s.tell call).connectionsInbound = s.connectionsInbound := by
  unfold Serving.tell
  split <;> rfl

@[simp] theorem tell_authFailures (call : Call) (s : Serving) : (s.tell call).authFailures = s.authFailures := by
  unfold Serving.tell
  split <;> rfl

@[simp] theorem tell_obfs (call : Call) (s : Serving) : (s.tell call).obfs = s.obfs := by
  unfold Serving.tell
  split <;> rfl

@[simp] theorem tell_collector_isSome (call : Call) (s : Serving) :
    (s.tell call).collector.isSome = s.collector.isSome := by
  unfold Serving.tell
  split <;> simp_all

/-- What a handler's step can do. -/
inductive Worked (s : Serving) (h : Handler) : Serving → Handler → Prop where
  | authenticated (conn : NetConn) (res : ServerAuthResult) (reg : Option Registry)
      (hs : h.stage = .serverDispatch conn) :
      Worked s h { s with server := { s.server with reg := reg } } { h with stage := .newServerSession res }
  | failed (conn : NetConn) (reg : Option Registry) (hs : h.stage = .serverDispatch conn) :
      Worked s h { s with server := { s.server with reg := reg } } { h with stage := .recordAuthFailure }
  | failureCounted (hs : h.stage = .recordAuthFailure) :
      Worked s h { s with authFailures := s.authFailures + 1 } { h with stage := .recordProbe }
  | probeTold (now : Time) (hs : h.stage = .recordProbe) :
      Worked s h (s.tell (.recordProbe now h.remote (ascii "auth_failed"))) { h with stage := .forwardToProbeUpstream }
  | dropped (conn : NetConn) (reg : Option Registry) (hs : h.stage = .serverDispatch conn) :
      Worked s h { s with server := { s.server with reg := reg } } { h with stage := .rawClose }
  | muxed (res : ServerAuthResult) (hs : h.stage = .newServerSession res) :
      Worked s h s { h with stage := .recordSessionOpen res, shaping := s.obfs }
  | unmuxed (res : ServerAuthResult) (hs : h.stage = .newServerSession res) :
      Worked s h s { h with stage := .rawClose, shaping := s.obfs, unmuxed := true }
  | forwarded (hs : h.stage = .forwardToProbeUpstream) : Worked s h s { h with stage := .rawClose }
  | counted (res : ServerAuthResult) (hs : h.stage = .recordSessionOpen res) :
      Worked s h { s with sessionsActive := s.sessionsActive + 1 } { h with stage := .openSession res }
  | tracked (now : Time) (res : ServerAuthResult) (hs : h.stage = .openSession res) :
      Worked s h (s.tell (openCall now h.remote s.transport res))
        { h with stage := .acceptStream (if s.collector.isSome then some (hexEncode res.sessionID.val) else none) }
  | ended (sid : Option Bytes) (hs : h.stage = .acceptStream sid) :
      Worked s h s { h with stage := sid.elim .recordSessionClose .closeSession }
  | untracked (sid : Bytes) (hs : h.stage = .closeSession sid) :
      Worked s h (s.tell (.closeSession sid)) { h with stage := .recordSessionClose }
  | uncounted (hs : h.stage = .recordSessionClose) :
      Worked s h { s with sessionsActive := s.sessionsActive - 1 } { h with stage := .sessClose }
  | sessClosed (hs : h.stage = .sessClose) :
      Worked s h s { h with stage := .rawClose, rawClosed := true, shaping := false }
  | returned (hs : h.stage = .rawClose) : Worked s h s { h with stage := .returned, rawClosed := true }

theorem work_inv {cr : Crypto} {s s' : Serving} {h h' : Handler} {a : HandlerAct}
    (hw : s.work cr h a = some (s', h')) : Worked s h s' h' := by
  cases a with
  | dispatched env p =>
    dsimp only [Serving.work] at hw
    split at hw
    · rename_i conn hs
      generalize handleConn cr env p s.server conn = out at hw
      unfold Serving.dispatched at hw
      obtain ⟨fate, c, reg⟩ := out
      cases fate <;> obtain ⟨rfl, rfl⟩ := Prod.mk.inj (Option.some.inj hw)
      · exact .authenticated conn _ reg hs
      · exact .failed conn reg hs
      · exact .dropped conn reg hs
    · cases hw
  | muxed ok =>
    dsimp only [Serving.work] at hw
    split at hw
    · rename_i res hs
      cases ok <;> obtain ⟨rfl, rfl⟩ := Prod.mk.inj (Option.some.inj hw)
      · exact .unmuxed res hs
      · exact .muxed res hs
    · cases hw
  | goesOn now =>
    dsimp only [Serving.work] at hw
    split at hw
    case h_12 => cases hw
    all_goals
      rename_i hs
      obtain ⟨rfl, rfl⟩ := Prod.mk.inj (Option.some.inj hw)
    · exact .failureCounted hs
    · exact .probeTold now hs
    · exact .forwarded hs
    · exact .counted _ hs
    · exact .tracked now _ hs
    · exact .ended (some _) hs
    · exact .ended none hs
    · exact .untracked _ hs
    · exact .uncounted hs
    · exact .sessClosed hs
    · exact .returned hs

/-- What the loop's step can do: the shared state, and the handler that it starts. -/
inductive Looped (s : Serving) : Serving → Option Handler → Prop where
  | loop (loop : Listening) (listenerOpen cancelled : Bool) :
      Looped s { s with loop := loop, listenerOpen := listenerOpen, cancelled := cancelled } none
  | accepted (remote : Bytes) (conn : NetConn) :
      Looped s { s with connectionsInbound := s.connectionsInbound + 1 }
        (some { remote := remote, stage := .serverDispatch conn })
  | resolved (ptr : Nat) (name : Bytes) : Looped s (s.tell (.resolveISP ptr name)) none

theorem main_inv {s s' : Serving} {a : MainAct} {hired : Option Handler} (h : s.main a = some (s', hired)) :
    Looped s s' hired := by
  cases a with
  | tlsInitFails e | listenFails e | listens | closeListener =>
    dsimp only [Serving.main] at h
    split_ifs at h
    obtain ⟨rfl, rfl⟩ := Prod.mk.inj (Option.some.inj h)
    exact .loop _ _ _
  | accepted remote conn =>
    dsimp only [Serving.main] at h
    split_ifs at h
    obtain ⟨rfl, rfl⟩ := Prod.mk.inj (Option.some.inj h)
    exact .accepted remote conn
  | acceptFails =>
    dsimp only [Serving.main] at h
    by_cases hloop : s.loop = .accepting
    · rw [if_pos hloop] at h
      obtain ⟨rfl, rfl⟩ := Prod.mk.inj (Option.some.inj h)
      split_ifs
      · exact .loop _ _ _
      · exact .loop s.loop s.listenerOpen s.cancelled
    · rw [if_neg hloop] at h
      cases h
  | cancel =>
    obtain ⟨rfl, rfl⟩ := Prod.mk.inj (Option.some.inj h)
    exact .loop _ _ _
  | resolveISP ptr name =>
    obtain ⟨rfl, rfl⟩ := Prod.mk.inj (Option.some.inj h)
    exact .resolved ptr name

end Daxson.Tunnel
