import Daxson.Protocol.Frame

/-! # A shaped connection

An action carries what the surroundings decide. A `WriteFrame` is one step here, and the pacer is left out.
-/

namespace Daxson.Bcl

open Protocol

/-- The two fields of a personality that the machine reads. -/
structure Personality where
  maxBurstBytes : Int
  keepaliveIdle : Int
  deriving DecidableEq, Repr

/-- A burst is flushed at 1000 bytes. -/
def plain : Personality where
  maxBurstBytes := 1000
  keepaliveIdle := 0

inductive ConnState where
  | idle
  | burst
  | drain
  | think
  | congested
  deriving DecidableEq, Repr

inductive Sender where
  | wait
  /-- Out of a select with the first item of a burst, before the state is set. -/
  | taken (item : Bytes)
  /-- In the collect loop, with the burst so far. -/
  | collect (burst : List Bytes) (total : Nat)
  /-- In `fragmentAndSend`, with what is left to send. -/
  | flush (remaining : Bytes)
  | drain
  | think
  | stopped
  deriving DecidableEq, Repr

inductive Keepalive where
  | wait
  /-- The state allowed a PING. -/
  | checkIdle
  | sendPing
  | stopped
  deriving DecidableEq, Repr

inductive Reader where
  | none
  /-- A call with a buffer of `n` bytes is inside `ReadFrame`, which has read `got`. -/
  | reading (n : Nat) (got : Bytes)
  deriving DecidableEq, Repr

end Daxson.Bcl

open Daxson.Bcl Daxson.Protocol in
structure Daxson.Bcl.Conn where
  /-- Capacity 256. -/
  inbox : List Bytes := []
  /-- Capacity 4, as `pongCh`. -/
  pingCh : List Frame := []
  pongCh : List Frame := []
  readBuf : Bytes := []
  state : ConnState := .idle
  writeErr : Option GoError := none
  lastActivityNs : Int := 0
  pendingPingSent : Int := 0
  canceled : Bool := false
  connClosed : Bool := false
  closed : Bool := false
  sender : Sender := .wait
  /-- The activations of `runBurstCycle` on the sender's stack. -/
  depth : Nat := 0
  keepalive : Keepalive := .wait
  reader : Reader := .none
  /-- The `Write` calls that are in their select, with their copies. -/
  writers : List Bytes := []
  /-- Everything that the underlying connection has taken. -/
  wire : Bytes := []
  -- History that the code does not keep.
  /-- The bytes that `Write` calls have reported as accepted. -/
  accepted : Bytes := []
  dataSent : Bytes := []
  /-- The bytes that the sender has taken and given up. -/
  dropped : Bytes := []
  returned : Bytes := []
  deriving DecidableEq, Repr

namespace Daxson.Bcl

open Protocol

def inboxCap : Nat := 256
def controlCap : Nat := 4

def Conn.writeFrame (f : Frame) (pad : Bytes) (fault : Option SysError) (c : Conn) : Option GoError × Conn :=
  match Protocol.writeFrame f pad with
  | .error e => (some e, c)
  | .ok b =>
    match if c.connClosed then some .closed else fault with
    | some e => (some (.sys e), c)
    | none => (none, { c with wire := c.wire ++ b })

/-! ## Write and Read -/

/-- `Write` up to its select. -/
def Conn.write (b : Bytes) (c : Conn) : Conn :=
  if b.isEmpty || c.writeErr.isSome then c else { c with writers := c.writers ++ [b] }

/-- The select of the `i`-th waiting `Write` takes the inbox. -/
def Conn.writeSend (i : Nat) (c : Conn) : Option Conn :=
  match c.writers[i]? with
  | none => none
  | some b =>
    if c.inbox.length < inboxCap then
      some { c with writers := c.writers.eraseIdx i, inbox := c.inbox ++ [b], accepted := c.accepted ++ b }
    else none

/-- The select of the `i`-th waiting `Write` takes the context. -/
def Conn.writeClosed (i : Nat) (c : Conn) : Option Conn :=
  if c.canceled && i < c.writers.length then some { c with writers := c.writers.eraseIdx i } else none

/-- A `Read` call starts: from the buffer when it holds something, else with `ReadFrame`. -/
def Conn.read (n : Nat) (c : Conn) : Option Conn :=
  match c.reader with
  | .reading _ _ => none
  | .none =>
    if c.readBuf.isEmpty then some { c with reader := .reading n [] }
    else some { c with returned := c.returned ++ c.readBuf.take n, readBuf := c.readBuf.drop n }

/-- What `Read` with a buffer of `n` bytes does with a frame. -/
def Conn.handleFrame (n : Nat) (f : Frame) (c : Conn) : Conn :=
  if f.type = typeData then
    if f.payload.isEmpty then { c with reader := .reading n [] }
    else { c with
      reader := .none, returned := c.returned ++ f.payload.take n, readBuf := c.readBuf ++ f.payload.drop n }
  else if f.type = typePing then
    { c with
      reader := .reading n [], pingCh := if c.pingCh.length < controlCap then c.pingCh ++ [f] else c.pingCh }
  else if f.type = typePong then
    { c with
      reader := .reading n [], pongCh := if c.pongCh.length < controlCap then c.pongCh ++ [f] else c.pongCh }
  -- Padding and unknown types are discarded.
  else { c with reader := .reading n [] }

/-- The underlying connection hands a chunk to the read in progress. -/
def Conn.recv (chunk : Bytes) (now : Int) (c : Conn) : Option Conn :=
  match c.reader with
  | .none => none
  | .reading n got =>
    match scan got with
    | .need k =>
      if chunk.isEmpty || k < chunk.length then none
      else
        match scan (got ++ chunk) with
        | .need _ => some { c with reader := .reading n (got ++ chunk) }
        | .fail _ => some { c with reader := .none }
        | .frame f => some (Conn.handleFrame n f { c with lastActivityNs := now })
    | _ => none

def Conn.recvFails (c : Conn) : Option Conn :=
  match c.reader with
  | .none => none
  | .reading _ _ => some { c with reader := .none }

/-! ## The sender -/

/-- The stack of activations unwinds, and `sender` is back in its select. -/
def Conn.endCycle (c : Conn) : Conn := { c with sender := .wait, depth := 0 }

/-- `coalesceBurst`: one chunk is used as it is. -/
def coalesceBurst (chunks : List Bytes) : Bytes :=
  match chunks with
  | [chunk] => chunk
  | _ => chunks.flatten

/-- A select of the sender takes an item of the inbox. -/
def Conn.takeItem (p : Personality) (c : Conn) : Option Conn :=
  match c.inbox with
  | [] => none
  | item :: rest =>
    match c.sender with
    | .wait | .drain | .think => some { c with inbox := rest, sender := .taken item }
    | .collect burst total =>
      let burst := burst ++ [item]
      let total := total + item.length
      if p.maxBurstBytes ≤ total then some { c with inbox := rest, sender := .flush (coalesceBurst burst) }
      else some { c with inbox := rest, sender := .collect burst total }
    | _ => none

/-- `runBurstCycle` is called. The keepalive may read the state until it is set. -/
def Conn.startBurst (c : Conn) : Option Conn :=
  match c.sender with
  | .taken item => some { c with state := .burst, sender := .collect [item] item.length, depth := c.depth + 1 }
  | _ => none

/-- `writePong`, whose error is dropped. -/
def Conn.writePong (ping : Frame) (fault : Option SysError) (c : Conn) : Conn :=
  (c.writeFrame { type := typePong, payload := ping.payload } [] fault).2

/-- A select of the sender takes a PING. In the drain phase that ends the phase. -/
def Conn.takePing (fault : Option SysError) (c : Conn) : Option Conn :=
  match c.pingCh with
  | [] => none
  | ping :: rest =>
    match c.sender with
    | .wait | .collect _ _ | .think => some (Conn.writePong ping fault { c with pingCh := rest })
    | .drain => some { Conn.writePong ping fault { c with pingCh := rest } with sender := .think, state := .think }
    | _ => none

/-- `processPong`, without the pacer. -/
def Conn.processPong (c : Conn) : Conn := { c with pendingPingSent := 0 }

/-- A select of the drain or think phase takes a PONG. -/
def Conn.takePong (c : Conn) : Option Conn :=
  match c.pongCh with
  | [] => none
  | _ :: rest =>
    match c.sender with
    | .drain => some { Conn.processPong { c with pongCh := rest } with sender := .think, state := .think }
    | .think => some (Conn.processPong { c with pongCh := rest })
    | _ => none

/-- The timer of the sender's phase fires. -/
def Conn.timer (c : Conn) : Option Conn :=
  match c.sender with
  | .collect burst _ => some { c with sender := .flush (coalesceBurst burst) }
  | .drain => some { c with sender := .think, state := .think }
  | .think => some { Conn.endCycle c with state := .idle }
  | _ => none

/-- A select of the sender takes the context. A burst in collection is given up. -/
def Conn.senderDone (c : Conn) : Option Conn :=
  if c.canceled then
    match c.sender with
    | .wait => some { c with sender := .stopped }
    | .collect burst _ => some { Conn.endCycle c with dropped := c.dropped ++ burst.flatten }
    | .drain | .think => some (Conn.endCycle c)
    | _ => none
  else none

def maxPayload (apparentSize : Int) : Nat :=
  let m := apparentSize - frameHeaderSize
  let m := if m ≤ 0 then 1 else m
  (if m > maxPayloadSize then (maxPayloadSize : Int) else m).toNat

/-- `SelectPadding`, with the sampled target or `none` for the zero-padding draw. -/
def selectPadding (target : Option Int) (payloadLen : Nat) : UInt16 :=
  match target with
  | none => 0
  | some target =>
    let gap := target - frameHeaderSize - payloadLen
    if gap ≤ 0 then 0
    else if gap > maxPaddingSize then UInt16.ofNat maxPaddingSize
    else UInt16.ofNat gap.toNat

/-- The draws and the outcome of one round of `fragmentAndSend`. -/
structure Round where
  apparentSize : Int
  target : Option Int := none
  pad : Bytes := []
  fault : Option SysError := none
  now : Int := 0
  deriving DecidableEq, Repr

def dataFrame (d : Round) (remaining : Bytes) : Frame :=
  let payload := remaining.take (maxPayload d.apparentSize)
  { type := typeData, payload := payload, padLen := selectPadding d.target payload.length }

/-- One round of `fragmentAndSend`. An error ends the cycle, and the rest of the burst is given up. -/
def Conn.sendRound (d : Round) (c : Conn) : Option Conn :=
  match c.sender with
  | .flush remaining =>
    if remaining.isEmpty then none
    else
      let f := dataFrame d remaining
      match c.writeFrame f d.pad d.fault with
      | (some e, c) =>
        some { Conn.endCycle c with
          writeErr := some (.wrap "bcl: write frame: %w" [] e), dropped := c.dropped ++ remaining }
      | (none, c) =>
        some { c with
          sender := .flush (remaining.drop (maxPayload d.apparentSize)), lastActivityNs := d.now
          dataSent := c.dataSent ++ f.payload }
  | _ => none

def Conn.flushed (c : Conn) : Option Conn :=
  match c.sender with
  | .flush [] => some { c with sender := .drain, state := .drain }
  | _ => none

/-! ## Keepalive -/

/-- The timer of the keepalive fires, and the state is read. -/
def Conn.keepaliveTimer (c : Conn) : Option Conn :=
  match c.keepalive with
  | .wait =>
    match c.state with
    | .burst | .drain | .congested => some c
    | _ => some { c with keepalive := .checkIdle }
  | _ => none

def Conn.keepaliveCheck (p : Personality) (now : Int) (c : Conn) : Option Conn :=
  match c.keepalive with
  | .checkIdle =>
    if now - c.lastActivityNs < Int.tdiv p.keepaliveIdle 2 then some { c with keepalive := .wait }
    else some { c with keepalive := .sendPing }
  | _ => none

/-- `randomBytes`, which draws nothing. -/
def randomBytes (n : Nat) : Bytes := (List.range n).map fun i => UInt8.ofNat (n * i + 17)

/-- `sendPing`. An error ends the goroutine. -/
def Conn.sendPing (now : Int) (fault : Option SysError) (c : Conn) : Option Conn :=
  match c.keepalive with
  | .sendPing =>
    match Conn.writeFrame { type := typePing, payload := randomBytes 8 } [] fault
        { c with pendingPingSent := now } with
    | (some _, c) => some { c with keepalive := .stopped }
    | (none, c) => some { c with keepalive := .wait }
  | _ => none

def Conn.keepaliveDone (c : Conn) : Option Conn :=
  match c.keepalive with
  | .wait => if c.canceled then some { c with keepalive := .stopped } else none
  | _ => none

/-! ## Close -/

def Conn.closeConn (c : Conn) : Option Conn := if c.canceled then some { c with connClosed := true } else none

/-- `Close` returns when both goroutines have. -/
def Conn.closeReturn (c : Conn) : Option Conn :=
  if c.connClosed && c.sender = .stopped && c.keepalive = .stopped then some { c with closed := true } else none

/-! ## The machine -/

inductive Act where
  | write (b : Bytes)
  | writeSend (i : Nat)
  | writeClosed (i : Nat)
  | read (n : Nat)
  | recv (chunk : Bytes) (now : Int)
  | recvFails
  | takeItem
  | startBurst
  | takePing (fault : Option SysError)
  | takePong
  | timer
  | senderDone
  | sendRound (d : Round)
  | flushed
  | keepaliveTimer
  | keepaliveCheck (now : Int)
  | sendPing (now : Int) (fault : Option SysError)
  | keepaliveDone
  | cancel
  | closeConn
  | closeReturn
  deriving DecidableEq, Repr

def Conn.step (p : Personality) (c : Conn) : Act → Option Conn
  | .write b => some (c.write b)
  | .writeSend i => c.writeSend i
  | .writeClosed i => c.writeClosed i
  | .read n => c.read n
  | .recv chunk now => c.recv chunk now
  | .recvFails => c.recvFails
  | .takeItem => c.takeItem p
  | .startBurst => c.startBurst
  | .takePing fault => c.takePing fault
  | .takePong => c.takePong
  | .timer => c.timer
  | .senderDone => c.senderDone
  | .sendRound d => c.sendRound d
  | .flushed => c.flushed
  | .keepaliveTimer => c.keepaliveTimer
  | .keepaliveCheck now => c.keepaliveCheck p now
  | .sendPing now fault => c.sendPing now fault
  | .keepaliveDone => c.keepaliveDone
  | .cancel => some { c with canceled := true }
  | .closeConn => c.closeConn
  | .closeReturn => c.closeReturn

end Daxson.Bcl
