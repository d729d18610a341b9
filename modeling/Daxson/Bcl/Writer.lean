import Daxson.Bcl.Proofs
import Daxson.Lib.Machine
import Daxson.Protocol.Stream

/-! # The shared Writer

A `WriteFrame` fills the buffer and later writes it out. In between the other goroutine may fill it too.
-/

open Lib.Machine

namespace Daxson.Bcl

open Protocol

/-- A `WriteFrame` between its halves: the array behind its `buf` and the length of the slice. -/
structure Call where
  array : Nat
  total : Nat
  deriving DecidableEq, Repr

/-- What the sender goes on with when its call returns. -/
inductive Job where
  | pong
  | data (d : Round)
  deriving DecidableEq, Repr

structure SharedConn where
  conn : Conn := {}
  /-- The arrays that the Writer has allocated. The last one is its buffer. -/
  arrays : List Bytes := [List.replicate 4096 0]
  senderCall : Option (Call × Job) := none
  pingCall : Option Call := none
  /-- The frames passed to `WriteFrame`, with the padding that was drawn for them. -/
  passed : List Sent := []

/-- `WriteFrame` up to its write. -/
def SharedConn.fill (f : Frame) (pad : Bytes) (s : SharedConn) : Except GoError (Call × SharedConn) :=
  match Protocol.writeFrame f pad with
  | .error e => .error e
  | .ok b =>
    let arrays :=
      if (s.arrays.getLastD []).length < b.length then s.arrays ++ [List.replicate (b.length * 2) 0] else s.arrays
    let i := arrays.length - 1
    .ok (⟨i, b.length⟩,
      { s with arrays := arrays.modify i fun a => b ++ a.drop b.length, passed := s.passed ++ [(f, pad)] })

def SharedConn.slice (call : Call) (s : SharedConn) : Bytes := (s.arrays.getD call.array []).take call.total

/-- The write at the end of `WriteFrame`. -/
def SharedConn.writeOut (call : Call) (fault : Option SysError) (s : SharedConn) : Option GoError × Conn :=
  match if s.conn.connClosed then some .closed else fault with
  | some e => (some (.sys e), s.conn)
  | none => (none, { s.conn with wire := s.conn.wire ++ s.slice call })

/-- The sender after its call: what `takePing` and `sendRound` do behind their `WriteFrame`. -/
def Conn.senderReturn (job : Job) (err : Option GoError) (c : Conn) : Conn :=
  match job, c.sender with
  | .pong, .drain => { c with sender := .think, state := .think }
  | .data d, .flush remaining =>
    match err with
    | some e =>
      { Conn.endCycle c with
        writeErr := some (.wrap "bcl: write frame: %w" [] e), dropped := c.dropped ++ remaining }
    | none =>
      { c with
        sender := .flush (remaining.drop (maxPayload d.apparentSize)), lastActivityNs := d.now
        dataSent := c.dataSent ++ (dataFrame d remaining).payload }
  | _, _ => c

/-- The keepalive after its call. -/
def Conn.keepaliveReturn (err : Option GoError) (c : Conn) : Conn :=
  { c with keepalive := if err.isSome then .stopped else .wait }

/-! ## The machine -/

inductive Owner where
  | sender
  | keepalive
  | caller
  deriving DecidableEq, Repr

/-- The goroutine that takes a step, or `none` for the three steps with a `WriteFrame` in them. -/
def Act.owner : Act → Option Owner
  | .takePing _ | .sendRound _ | .sendPing _ _ => none
  | .takeItem | .startBurst | .takePong | .timer | .senderDone | .flushed => some .sender
  | .keepaliveTimer | .keepaliveCheck _ | .keepaliveDone => some .keepalive
  | _ => some .caller

inductive SharedAct where
  /-- A step without a `WriteFrame`. -/
  | other (a : Act)
  | beginPong
  | beginData (d : Round)
  | endSender (fault : Option SysError)
  | beginPing (now : Int)
  | endPing (fault : Option SysError)

/-- The sender calls `WriteFrame`, which returns at once when the frame is too large. -/
def SharedConn.senderCalls (job : Job) (f : Frame) (pad : Bytes) (s : SharedConn) : SharedConn :=
  match s.fill f pad with
  | .error e => { s with conn := s.conn.senderReturn job (some e) }
  | .ok (call, s) => { s with senderCall := some (call, job) }

def SharedConn.beginPong (s : SharedConn) : Option SharedConn :=
  match s.senderCall, s.conn.pingCh with
  | none, ping :: rest =>
    match s.conn.sender with
    | .wait | .collect _ _ | .think | .drain =>
      some (SharedConn.senderCalls .pong { type := typePong, payload := ping.payload } []
        { s with conn := { s.conn with pingCh := rest } })
    | _ => none
  | _, _ => none

def SharedConn.beginData (d : Round) (s : SharedConn) : Option SharedConn :=
  match s.senderCall, s.conn.sender with
  | none, .flush remaining =>
    if remaining.isEmpty then none else some (s.senderCalls (.data d) (dataFrame d remaining) d.pad)
  | _, _ => none

def SharedConn.endSender (fault : Option SysError) (s : SharedConn) : Option SharedConn :=
  match s.senderCall with
  | none => none
  | some (call, job) =>
    let (err, c) := s.writeOut call fault
    some { s with senderCall := none, conn := c.senderReturn job err }

def SharedConn.beginPing (now : Int) (s : SharedConn) : Option SharedConn :=
  match s.pingCall, s.conn.keepalive with
  | none, .sendPing =>
    match SharedConn.fill { type := typePing, payload := randomBytes 8 } []
        { s with conn := { s.conn with pendingPingSent := now } } with
    | .error e => some { s with conn := Conn.keepaliveReturn (some e) { s.conn with pendingPingSent := now } }
    | .ok (call, s) => some { s with pingCall := some call }
  | _, _ => none

def SharedConn.endPing (fault : Option SysError) (s : SharedConn) : Option SharedConn :=
  match s.pingCall with
  | none => none
  | some call =>
    let (err, c) := s.writeOut call fault
    some { s with pingCall := none, conn := c.keepaliveReturn err }

def SharedConn.step (p : Personality) (s : SharedConn) : SharedAct → Option SharedConn
  | .other a =>
    match a.owner with
    | none => none
    | some o =>
      -- A goroutine that is inside `WriteFrame` does nothing else.
      if (o = .sender ∧ s.senderCall.isSome) ∨ (o = .keepalive ∧ s.pingCall.isSome) then none
      else (s.conn.step p a).map fun c => { s with conn := c }
  | .beginPong => s.beginPong
  | .beginData d => s.beginData d
  | .endSender fault => s.endSender fault
  | .beginPing now => s.beginPing now
  | .endPing fault => s.endPing fault

/-! ## The two halves of a call -/

/-- After the first half of a call: its array holds the frame. -/
structure Placed (f : Frame) (pad : Bytes) (call : Call) (arrays : List Bytes) : Prop where
  legal : f.Legal
  total : call.total = f.size
  slice : (arrays.getD call.array []).take call.total = f.encode pad

theorem fill_cases (s : SharedConn) (f : Frame) (pad : Bytes) :
    (∃ err, Protocol.writeFrame f pad = .error err ∧ s.fill f pad = .error err) ∨
      ∃ call arrays, Placed f pad call arrays ∧
        s.fill f pad = .ok (call, { s with arrays := arrays, passed := s.passed ++ [(f, pad)] }) := by
  unfold SharedConn.fill
  cases hw : Protocol.writeFrame f pad with
  | error err => exact .inl ⟨err, rfl, rfl⟩
  | ok b =>
    obtain ⟨hlegal, rfl⟩ := (writeFrame_ok_iff f pad b).mp hw
    refine .inr ⟨_, _, ⟨hlegal, encode_length f pad, ?_⟩, rfl⟩
    generalize harr : (if (s.arrays.getLastD []).length < (f.encode pad).length then
      s.arrays ++ [List.replicate ((f.encode pad).length * 2) 0] else s.arrays) = arrays
    have hpos : 0 < arrays.length := by
      subst harr
      split_ifs with hlen
      · simp
      · cases hs : s.arrays with
        | nil =>
          rw [hs, encode_length] at hlen
          simp [Frame.size, frameHeaderSize] at hlen
        | cons a l => simp
    have hi : arrays.length - 1 < arrays.length := by omega
    simp [hi]

theorem fill_legal (s : SharedConn) {f : Frame} (hf : f.Legal) (pad : Bytes) :
    ∃ call arrays, Placed f pad call arrays ∧
      s.fill f pad = .ok (call, { s with arrays := arrays, passed := s.passed ++ [(f, pad)] }) := by
  obtain ⟨err, herr, -⟩ | hok := fill_cases s f pad
  · rw [writeFrame_legal hf] at herr
    cases herr
  · exact hok

theorem senderCalls_cases (s : SharedConn) (job : Job) (f : Frame) (pad : Bytes) :
    (∃ err, Protocol.writeFrame f pad = .error err ∧
        s.senderCalls job f pad = { s with conn := s.conn.senderReturn job (some err) }) ∨
      ∃ call arrays, Placed f pad call arrays ∧ s.senderCalls job f pad =
        { s with arrays := arrays, passed := s.passed ++ [(f, pad)], senderCall := some (call, job) } := by
  unfold SharedConn.senderCalls
  obtain ⟨err, herr, hfill⟩ | ⟨call, arrays, hplaced, hfill⟩ := fill_cases s f pad
  · exact .inl ⟨err, herr, by rw [hfill]⟩
  · exact .inr ⟨call, arrays, hplaced, by rw [hfill]⟩

/-- Both halves together are the `WriteFrame` of the connection. -/
theorem writeOut_placed {s : SharedConn} {f : Frame} {pad : Bytes} {call : Call} (h : Placed f pad call s.arrays)
    (fault : Option SysError) : s.writeOut call fault = s.conn.writeFrame f pad fault := by
  have hslice : s.slice call = f.encode pad := h.slice
  unfold SharedConn.writeOut Conn.writeFrame
  cases (if s.conn.connClosed = true then some SysError.closed else fault) <;>
    simp only [writeFrame_legal h.legal, hslice]

theorem writeOut_wire (s : SharedConn) (call : Call) (fault : Option SysError) :
    ∃ wire, (s.writeOut call fault).2 = { s.conn with wire := wire } := by
  unfold SharedConn.writeOut
  split
  · exact ⟨s.conn.wire, rfl⟩
  · exact ⟨_, rfl⟩

theorem senderReturn_keeps (job : Job) (err : Option GoError) (c : Conn) :
    (c.senderReturn job err).wire = c.wire ∧ (c.senderReturn job err).pingCh = c.pingCh ∧
      (c.senderReturn job err).keepalive = c.keepalive := by
  unfold Conn.senderReturn
  split
  · exact ⟨rfl, rfl, rfl⟩
  · cases err <;> exact ⟨rfl, rfl, rfl⟩
  · exact ⟨rfl, rfl, rfl⟩

@[simp] theorem senderReturn_wire (job : Job) (err : Option GoError) (c : Conn) :
    (c.senderReturn job err).wire = c.wire :=
  (senderReturn_keeps job err c).1

theorem handleFrame_wire (n : Nat) (f : Frame) (c : Conn) : (c.handleFrame n f).wire = c.wire := by
  unfold Conn.handleFrame
  split_ifs <;> rfl

theorem step_wire {p : Personality} {c c' : Conn} {a : Act} {o : Owner} (ho : a.owner = some o)
    (h : c.step p a = some c') : c'.wire = c.wire := by
  cases step_inv h with
  | takePing | drainPing | roundFails | round | sendPing => cases ho
  | write b =>
    unfold Conn.write
    split_ifs <;> rfl
  | recvFrame chunk now n f => exact handleFrame_wire n f _
  | _ => rfl

/-! ## One step -/

/-- What a step can do. A DATA frame and the keepalive's PING are never too large. -/
inductive SharedStep (p : Personality) (s : SharedConn) : SharedAct → SharedConn → Prop where
  | other {a : Act} {o : Owner} {c : Conn} (ho : a.owner = some o) (hs : o = .sender → s.senderCall = none)
      (hp : o = .keepalive → s.pingCall = none) (hc : s.conn.step p a = some c) :
      SharedStep p s (.other a) { s with conn := c }
  | pongFails {ping : Frame} {rest : List Frame} (err : GoError) (hs : s.senderCall = none)
      (hch : s.conn.pingCh = ping :: rest) :
      SharedStep p s .beginPong { s with conn := Conn.senderReturn .pong (some err) { s.conn with pingCh := rest } }
  | beginPong {ping : Frame} {rest : List Frame} {call : Call} {arrays : List Bytes} (hs : s.senderCall = none)
      (hch : s.conn.pingCh = ping :: rest)
      (hplaced : Placed { type := typePong, payload := ping.payload } [] call arrays) :
      SharedStep p s .beginPong
        { s with
          conn := { s.conn with pingCh := rest }, arrays := arrays, senderCall := some (call, .pong)
          passed := s.passed ++ [({ type := typePong, payload := ping.payload }, [])] }
  | beginData {d : Round} {remaining : Bytes} {call : Call} {arrays : List Bytes} (hs : s.senderCall = none)
      (hflush : s.conn.sender = .flush remaining) (hne : remaining ≠ [])
      (hplaced : Placed (dataFrame d remaining) d.pad call arrays) :
      SharedStep p s (.beginData d)
        { s with
          arrays := arrays, senderCall := some (call, .data d)
          passed := s.passed ++ [(dataFrame d remaining, d.pad)] }
  | endSender {fault : Option SysError} {call : Call} {job : Job} (hs : s.senderCall = some (call, job)) :
      SharedStep p s (.endSender fault)
        { s with
          senderCall := none, conn := (s.writeOut call fault).2.senderReturn job (s.writeOut call fault).1 }
  | beginPing {now : Int} {call : Call} {arrays : List Bytes} (hp : s.pingCall = none)
      (hk : s.conn.keepalive = .sendPing)
      (hplaced : Placed { type := typePing, payload := randomBytes 8 } [] call arrays) :
      SharedStep p s (.beginPing now)
        { s with
          conn := { s.conn with pendingPingSent := now }, arrays := arrays, pingCall := some call
          passed := s.passed ++ [({ type := typePing, payload := randomBytes 8 }, [])] }
  | endPing {fault : Option SysError} {call : Call} (hp : s.pingCall = some call) :
      SharedStep p s (.endPing fault)
        { s with
          pingCall := none, conn := (s.writeOut call fault).2.keepaliveReturn (s.writeOut call fault).1 }

theorem other_inv {p : Personality} {s s' : SharedConn} {a : Act} (h : s.step p (.other a) = some s') :
    SharedStep p s (.other a) s' := by
  unfold SharedConn.step at h
  cases ho : a.owner with
  | none => simp [ho] at h
  | some o =>
    simp only [ho] at h
    split_ifs at h with hbusy
    obtain ⟨c, hc, rfl⟩ := Option.map_eq_some_iff.mp h
    refine .other ho ?_ ?_ hc
    · rintro rfl
      simpa using hbusy
    · rintro rfl
      simpa using hbusy

theorem beginPong_inv {p : Personality} {s s' : SharedConn} (h : s.beginPong = some s') :
    SharedStep p s .beginPong s' := by
  unfold SharedConn.beginPong at h
  split at h
  · rename_i ping rest hs hch
    have heq : s' = SharedConn.senderCalls .pong { type := typePong, payload := ping.payload } []
        { s with conn := { s.conn with pingCh := rest } } := by
      split at h <;> first | (cases h; done) | (cases h; rfl)
    rw [heq]
    obtain ⟨err, -, hcalls⟩ | ⟨call, arrays, hplaced, hcalls⟩ := senderCalls_cases
      { s with conn := { s.conn with pingCh := rest } } .pong { type := typePong, payload := ping.payload } []
    · rw [hcalls]
      exact .pongFails err hs hch
    · rw [hcalls]
      exact .beginPong hs hch hplaced
  · cases h

theorem beginData_inv {p : Personality} {d : Round} {s s' : SharedConn} (h : s.beginData d = some s') :
    SharedStep p s (.beginData d) s' := by
  unfold SharedConn.beginData at h
  split at h
  · rename_i remaining hs hflush
    split_ifs at h with hempty
    obtain rfl := Option.some.inj h
    obtain ⟨call, arrays, hplaced, hfill⟩ := fill_legal s (dataFrame_legal d remaining) d.pad
    unfold SharedConn.senderCalls
    rw [hfill]
    exact .beginData hs hflush (fun hnil => hempty (by rw [hnil]; rfl)) hplaced
  · cases h

theorem beginPing_eq {s : SharedConn} (now : Int) (hp : s.pingCall = none) (hk : s.conn.keepalive = .sendPing) :
    ∃ call arrays, Placed { type := typePing, payload := randomBytes 8 } [] call arrays ∧
      s.beginPing now = some { s with
        conn := { s.conn with pendingPingSent := now }, arrays := arrays, pingCall := some call
        passed := s.passed ++ [({ type := typePing, payload := randomBytes 8 }, [])] } := by
  obtain ⟨call, arrays, hplaced, hfill⟩ :=
    fill_legal { s with conn := { s.conn with pendingPingSent := now } } ping_legal []
  refine ⟨call, arrays, hplaced, ?_⟩
  unfold SharedConn.beginPing
  split
  · rw [hfill]
  · rename_i hno
    exact absurd hk (hno hp)

theorem beginPing_inv {p : Personality} {now : Int} {s s' : SharedConn} (h : s.beginPing now = some s') :
    SharedStep p s (.beginPing now) s' := by
  have hready : s.pingCall = none ∧ s.conn.keepalive = .sendPing := by
    unfold SharedConn.beginPing at h
    split at h
    · rename_i hp hk
      exact ⟨hp, hk⟩
    · cases h
  obtain ⟨call, arrays, hplaced, heq⟩ := beginPing_eq now hready.1 hready.2
  obtain rfl := Option.some.inj (heq.symm.trans h)
  exact .beginPing hready.1 hready.2 hplaced

theorem shared_inv {p : Personality} {s s' : SharedConn} {a : SharedAct} (h : s.step p a = some s') :
    SharedStep p s a s' := by
  cases a with
  | other a => exact other_inv h
  | beginPong => exact beginPong_inv h
  | beginData d => exact beginData_inv h
  | beginPing now => exact beginPing_inv h
  | endSender fault =>
    dsimp only [SharedConn.step, SharedConn.endSender] at h
    split at h
    · cases h
    · rename_i call job hs
      obtain rfl := Option.some.inj h
      exact .endSender hs
  | endPing fault =>
    dsimp only [SharedConn.step, SharedConn.endPing] at h
    split at h
    · cases h
    · rename_i call hp
      obtain rfl := Option.some.inj h
      exact .endPing hp

/-! ## One call at a time -/

/-- The wire holds whole encodings of passed frames, in the order of the calls. -/
def OnlyPassed (passed : List Sent) (wire : Bytes) : Prop :=
  ∃ sent, List.Sublist sent passed ∧ wire = encodeAll sent

/-- The buffer still holds the frame of the last call, which is not on the wire yet. -/
def Filled (call : Call) (s : SharedConn) : Prop :=
  ∃ done f pad, s.passed = done ++ [(f, pad)] ∧ f.Legal ∧ s.slice call = f.encode pad ∧ OnlyPassed done s.conn.wire

/-- At most one call is in progress, and it has the buffer for itself. -/
inductive Serial (s : SharedConn) : Prop
  | quiet (hs : s.senderCall = none) (hp : s.pingCall = none) (hwire : OnlyPassed s.passed s.conn.wire)
  | sender (call : Call) (job : Job) (hs : s.senderCall = some (call, job)) (hp : s.pingCall = none)
      (hfill : Filled call s)
  | ping (call : Call) (hs : s.senderCall = none) (hp : s.pingCall = some call) (hfill : Filled call s)

theorem onlyPassed_append {passed : List Sent} {wire : Bytes} (h : OnlyPassed passed wire)
    (fp : Sent) : OnlyPassed (passed ++ [fp]) wire := by
  obtain ⟨sent, hsub, hwire⟩ := h
  exact ⟨sent, hsub.trans (List.sublist_append_left _ _), hwire⟩

theorem Serial.onlyPassed {s : SharedConn} (h : Serial s) : OnlyPassed s.passed s.conn.wire := by
  have hfilled : ∀ {call}, Filled call s → OnlyPassed s.passed s.conn.wire := by
    rintro call ⟨done, f, pad, hpassed, -, -, hwire⟩
    rw [hpassed]
    exact onlyPassed_append hwire (f, pad)
  cases h with
  | quiet hs hp hwire => exact hwire
  | sender call job hs hp hfill => exact hfilled hfill
  | ping call hs hp hfill => exact hfilled hfill

theorem Placed.filled {s : SharedConn} {f : Frame} {pad : Bytes} {call : Call} {done : List Sent}
    (h : Placed f pad call s.arrays) (hpassed : s.passed = done ++ [(f, pad)]) (hwire : OnlyPassed done s.conn.wire) :
    Filled call s :=
  ⟨done, f, pad, hpassed, h.legal, h.slice, hwire⟩

theorem onlyPassed_writeOut {s : SharedConn} {call : Call} (h : Filled call s) (fault : Option SysError) :
    OnlyPassed s.passed (s.writeOut call fault).2.wire := by
  obtain ⟨done, f, pad, hpassed, hlegal, hslice, hwire⟩ := h
  unfold SharedConn.writeOut
  split
  · rw [hpassed]
    exact onlyPassed_append hwire (f, pad)
  · obtain ⟨sent, hsub, hsent⟩ := hwire
    refine ⟨sent ++ [(f, pad)], ?_, ?_⟩
    · rw [hpassed]
      exact hsub.append (List.Sublist.refl _)
    · simp [hsent, hslice]

/-- A call begins only while the other goroutine is outside `WriteFrame`. -/
def Exclusive (s : SharedConn) : SharedAct → Prop
  | .beginPong | .beginData _ => s.pingCall = none
  | .beginPing _ => s.senderCall = none
  | _ => True

instance (s : SharedConn) : ∀ a : SharedAct, Decidable (Exclusive s a)
  | .beginPong => inferInstanceAs (Decidable (s.pingCall = none))
  | .beginData _ => inferInstanceAs (Decidable (s.pingCall = none))
  | .beginPing _ => inferInstanceAs (Decidable (s.senderCall = none))
  | .other _ => .isTrue trivial
  | .endSender _ => .isTrue trivial
  | .endPing _ => .isTrue trivial

theorem serial_other {s : SharedConn} {c : Conn} (h : Serial s) (hc : c.wire = s.conn.wire) :
    Serial { s with conn := c } := by
  have hfilled : ∀ {call}, Filled call s → Filled call { s with conn := c } := by
    rintro call ⟨done, f, pad, hpassed, hlegal, hslice, hwire⟩
    exact ⟨done, f, pad, hpassed, hlegal, hslice, by rw [hc]; exact hwire⟩
  cases h with
  | quiet hs hp hwire => exact .quiet hs hp (by rw [hc]; exact hwire)
  | sender call job hs hp hfill => exact .sender call job hs hp (hfilled hfill)
  | ping call hs hp hfill => exact .ping call hs hp (hfilled hfill)

theorem serial_step {p : Personality} {s : SharedConn} {a : SharedAct} {s' : SharedConn} (h : Serial s)
    (hex : Exclusive s a) (hstep : s.step p a = some s') : Serial s' := by
  cases shared_inv hstep with
  | other ho _ _ hc => exact serial_other h (step_wire ho hc)
  | pongFails err hs => exact .quiet hs hex (by simpa using h.onlyPassed)
  | beginPong hs hch hplaced => exact .sender _ .pong rfl hex (hplaced.filled rfl h.onlyPassed)
  | beginData hs hflush hne hplaced => exact .sender _ (.data _) rfl hex (hplaced.filled rfl h.onlyPassed)
  | beginPing hp hk hplaced => exact .ping _ hex rfl (hplaced.filled rfl h.onlyPassed)
  | endSender hcall =>
    cases h with
    | quiet hs hp hwire => simp [hs] at hcall
    | ping call hs hp hfill => simp [hs] at hcall
    | sender call' job' hs hp hfill =>
      obtain ⟨rfl, rfl⟩ := Prod.mk.inj (Option.some.inj (hs.symm.trans hcall))
      exact .quiet rfl hp (by simpa using onlyPassed_writeOut hfill _)
  | endPing hcall =>
    cases h with
    | quiet hs hp hwire => simp [hp] at hcall
    | sender call job hs hp hfill => simp [hp] at hcall
    | ping call' hs hp hfill =>
      obtain rfl := Option.some.inj (hp.symm.trans hcall)
      exact .quiet hs rfl (onlyPassed_writeOut hfill _)

/-! ## Calls that nobody disturbs -/

/-- Some run brings the connection to `c`, with no call in progress. -/
def Reaches (p : Personality) (s : SharedConn) (c : Conn) : Prop :=
  ∃ acts s', run (SharedConn.step p) s acts = some s' ∧ s'.conn = c ∧ s'.senderCall = none ∧ s'.pingCall = none

theorem reaches_of_step {p : Personality} {s s' : SharedConn} {a : SharedAct} {c : Conn}
    (h : s.step p a = some s') (hr : Reaches p s' c) : Reaches p s c := by
  obtain ⟨acts, t, hrun, ht⟩ := hr
  refine ⟨a :: acts, t, ?_, ht⟩
  rw [run_cons, h]
  exact hrun

theorem reaches_senderCalls (p : Personality) {s : SharedConn} (hs : s.senderCall = none) (hp : s.pingCall = none)
    (job : Job) (f : Frame) (pad : Bytes) (fault : Option SysError) :
    Reaches p (s.senderCalls job f pad)
      ((s.conn.writeFrame f pad fault).2.senderReturn job (s.conn.writeFrame f pad fault).1) := by
  obtain ⟨err, herr, heq⟩ | ⟨call, arrays, hplaced, heq⟩ := senderCalls_cases s job f pad
  · rw [heq]
    refine ⟨[], _, rfl, ?_, hs, hp⟩
    unfold Conn.writeFrame
    rw [herr]
  · rw [heq]
    refine ⟨[.endSender fault], _, rfl, ?_, rfl, hp⟩
    have hout := writeOut_placed (s := { s with arrays := arrays }) hplaced fault
    rw [← hout]
    rfl

theorem takePing_return {c c' : Conn} {fault : Option SysError} (h : c.takePing fault = some c') :
    ∃ ping rest, c.pingCh = ping :: rest ∧ c.sender.Selects ∧
      let w := Conn.writeFrame { type := typePong, payload := ping.payload } [] fault { c with pingCh := rest }
      c' = w.2.senderReturn .pong w.1 := by
  obtain ⟨ping, rest, hch, hsel, hcase⟩ := takePing_inv h
  refine ⟨ping, rest, hch, hsel, ?_⟩
  have hsender := writeFrame_sender { type := typePong, payload := ping.payload } [] fault { c with pingCh := rest }
  unfold Conn.senderReturn
  dsimp only
  rw [hsender]
  obtain ⟨hdrain, rfl⟩ | ⟨hdrain, rfl⟩ := hcase
  · rw [hdrain]
    rfl
  · cases hc : c.sender with
    | drain => exact absurd hc hdrain
    | _ => rfl

theorem sendRound_return {c c' : Conn} {d : Round} (h : c.sendRound d = some c') :
    ∃ remaining, c.sender = .flush remaining ∧ remaining.isEmpty = false ∧
      let w := c.writeFrame (dataFrame d remaining) d.pad d.fault
      c' = w.2.senderReturn (.data d) w.1 := by
  obtain ⟨remaining, hc, hempty, hcase⟩ := sendRound_inv h
  refine ⟨remaining, hc, hempty, ?_⟩
  obtain ⟨e, hw, -, rfl⟩ | ⟨wire, hw, -, -, -, rfl⟩ := hcase
  · simp [hw, Conn.senderReturn, hc]
  · simp [hw, Conn.senderReturn, hc]

section Simulation

variable {p : Personality} {s : SharedConn} {c' : Conn}

theorem takePing_shared (hs : s.senderCall = none) (hp : s.pingCall = none) {fault : Option SysError}
    (h : s.conn.takePing fault = some c') : Reaches p s c' := by
  obtain ⟨ping, rest, hch, hsel, rfl⟩ := takePing_return h
  have hbegin : s.beginPong = some (SharedConn.senderCalls .pong
      { type := typePong, payload := ping.payload } [] { s with conn := { s.conn with pingCh := rest } }) := by
    unfold SharedConn.beginPong
    rw [hs, hch]
    cases hc : s.conn.sender with
    | taken | flush | stopped =>
      rw [hc] at hsel
      exact hsel.elim
    | _ => rfl
  apply reaches_of_step (a := .beginPong) hbegin
  exact reaches_senderCalls p (s := { s with conn := { s.conn with pingCh := rest } }) hs hp .pong _ [] fault

theorem sendRound_shared (hs : s.senderCall = none) (hp : s.pingCall = none) {d : Round}
    (h : s.conn.sendRound d = some c') : Reaches p s c' := by
  obtain ⟨remaining, hc, hempty, rfl⟩ := sendRound_return h
  have hbegin : s.beginData d = some (s.senderCalls (.data d) (dataFrame d remaining) d.pad) := by
    unfold SharedConn.beginData
    rw [hs, hc]
    simp [hempty]
  apply reaches_of_step (a := .beginData d) hbegin
  exact reaches_senderCalls p hs hp (.data d) _ d.pad d.fault

theorem sendPing_shared (hs : s.senderCall = none) (hp : s.pingCall = none) {now : Int} {fault : Option SysError}
    (h : s.conn.sendPing now fault = some c') : Reaches p s c' := by
  obtain ⟨hk, hreturn⟩ := sendPing_inv h
  -- What the keepalive does behind its call is `keepaliveReturn`.
  obtain rfl : c' = Conn.keepaliveReturn _ _ := hreturn
  obtain ⟨call, arrays, hplaced, hbegin⟩ := beginPing_eq now hp hk
  apply reaches_of_step (a := .beginPing now) hbegin
  refine ⟨[.endPing fault], _, rfl, ?_, hs, rfl⟩
  have hout := writeOut_placed (s := { s with conn := { s.conn with pendingPingSent := now }, arrays := arrays })
    hplaced fault
  rw [← hout]
  rfl

theorem step_shared (hs : s.senderCall = none) (hp : s.pingCall = none) {a : Act}
    (h : s.conn.step p a = some c') : Reaches p s c' := by
  cases ho : a.owner with
  | some o =>
    refine ⟨[.other a], { s with conn := c' }, ?_, rfl, hs, hp⟩
    simp [SharedConn.step, ho, hs, hp, h]
  | none =>
    cases a with
    | takePing fault => exact takePing_shared hs hp h
    | sendRound d => exact sendRound_shared hs hp h
    | sendPing now fault => exact sendPing_shared hs hp h
    | _ => cases ho

/-- The machine with calls in two pieces can do every run of the connection's machine. -/
theorem run_shared {acts : List Act} (h : run (Conn.step p) {} acts = some c') : Reaches p {} c' := by
  have hstep : ∀ (c : Conn) (a : Act) (c₁ : Conn) (s : SharedConn),
      s.conn = c ∧ s.senderCall = none ∧ s.pingCall = none → c.step p a = some c₁ → Reaches p s c₁ := by
    rintro c a c₁ s ⟨rfl, hs, hp⟩ hstep
    exact step_shared hs hp hstep
  exact run_simulation hstep acts {} c' {} ⟨rfl, rfl, rfl⟩ h

end Simulation

/-! ## When the keepalive is undisturbed -/

/-- Nothing waits for the sender, and it holds no data. -/
def Conn.Resting (c : Conn) : Prop := c.inbox = [] ∧ c.pingCh = [] ∧ c.sender.held = []

instance (c : Conn) : Decidable c.Resting := inferInstanceAs (Decidable (_ ∧ _))

/-- When the keepalive finds the connection idle, nothing waits for the sender, and no data and no PING are in its
hands. Until the keepalive's PING is out, no `Write` hands over data and no PING of the peer comes in. -/
def undisturbed (p : Personality) (s : SharedConn) : SharedAct → Bool
  | .other (.keepaliveCheck now) =>
    Int.tdiv p.keepaliveIdle 2 ≤ now - s.conn.lastActivityNs → s.conn.Resting ∧ s.senderCall = none
  | .other (.writeSend _) => s.conn.keepalive ≠ .sendPing
  | .other (.recv chunk now) =>
    s.conn.keepalive = .sendPing → ∀ f ∈ s.conn.completes (.recv chunk now), f.type ≠ typePing
  | _ => true

/-- While the keepalive is about to send its PING, or sends it, the sender has nothing to write. -/
structure Undisturbed (s : SharedConn) : Prop where
  sending : s.pingCall.isSome → s.conn.keepalive = .sendPing
  resting : s.conn.keepalive = .sendPing → s.conn.Resting ∧ s.senderCall = none

theorem pinged_not_resting {c : Conn} {ping : Frame} {rest : List Frame} (h : c.pingCh = ping :: rest) :
    ¬ c.Resting := by
  rintro ⟨-, hnone, -⟩
  rw [h] at hnone
  cases hnone

theorem flushing_not_resting {c : Conn} {remaining : Bytes} (h : c.sender = .flush remaining) (hne : remaining ≠ []) :
    ¬ c.Resting := by
  rintro ⟨-, -, hheld⟩
  rw [h] at hheld
  exact hne hheld

theorem Undisturbed.exclusive {p : Personality} {s s' : SharedConn} {a : SharedAct} (h : Undisturbed s)
    (hstep : s.step p a = some s') : Exclusive s a := by
  -- A call of the sender needs something that is not there while the keepalive sends.
  have hquiet : ¬ s.conn.Resting → s.pingCall = none := by
    intro hbusy
    by_contra hping
    exact hbusy (h.resting (h.sending (Option.isSome_iff_ne_none.mpr hping))).1
  cases shared_inv hstep with
  | pongFails _ _ hch | beginPong _ hch => exact hquiet (pinged_not_resting hch)
  | beginData _ hflush hne => exact hquiet (flushing_not_resting hflush hne)
  | beginPing _ hk => exact (h.resting hk).2
  | other | endSender | endPing => exact trivial

theorem resting_other {p : Personality} {c c' : Conn} {a : Act} {o : Owner} (ho : a.owner = some o)
    (h : c.step p a = some c') (hr : c.Resting) (hwrite : ∀ i, a ≠ .writeSend i)
    (hping : ∀ f ∈ c.completes a, f.type ≠ typePing) : c'.Resting := by
  obtain ⟨hin, hch, hheld⟩ := hr
  cases step_inv h with
  | takePing | drainPing | roundFails | round | sendPing => cases ho
  | writeSend i => exact absurd rfl (hwrite i)
  | write b =>
    unfold Conn.write
    split_ifs <;> exact ⟨hin, hch, hheld⟩
  | recvFrame chunk now n f got hreader hscan =>
    have hf : f.type ≠ typePing := hping f (by simp [Conn.completes, hreader, hscan])
    unfold Conn.handleFrame
    split_ifs <;> exact ⟨hin, hch, hheld⟩
  | takeFirst item rest hne | takeNext item rest hne =>
    rw [hin] at hne
    cases hne
  | startBurst item hs =>
    rw [hs] at hheld
    exact ⟨hin, hch, by simpa [Sender.held] using hheld⟩
  | collected burst total hs =>
    rw [hs] at hheld
    exact ⟨hin, hch, by simpa [Sender.held, coalesceBurst_eq] using hheld⟩
  | drainPong | drained | rested | stop | giveUp | cut | flushed => exact ⟨hin, hch, rfl⟩
  | _ => exact ⟨hin, hch, hheld⟩

theorem keepalive_other {p : Personality} {c c' : Conn} {a : Act} {o : Owner} (ho : a.owner = some o)
    (h : c.step p a = some c') (hk : c'.keepalive = .sendPing) :
    c.keepalive = .sendPing ∨ ∃ now, a = .keepaliveCheck now ∧ Int.tdiv p.keepaliveIdle 2 ≤ now - c.lastActivityNs := by
  cases step_inv h with
  | takePing | drainPing | roundFails | round | sendPing => cases ho
  | write b =>
    unfold Conn.write at hk
    split_ifs at hk <;> exact .inl hk
  | recvFrame chunk now n f =>
    unfold Conn.handleFrame at hk
    split_ifs at hk <;> exact .inl hk
  | keepaliveTimer | keepaliveDone => cases hk
  | keepaliveCheck now =>
    refine .inr ⟨now, rfl, ?_⟩
    dsimp only at hk
    split_ifs at hk with hidle
    exact not_lt.mp hidle
  | _ => exact .inl hk

theorem keepalive_kept {p : Personality} {c c' : Conn} {a : Act} {o : Owner} (ho : a.owner = some o)
    (hne : o ≠ .keepalive) (h : c.step p a = some c') : c'.keepalive = c.keepalive := by
  cases step_inv h with
  | takePing | drainPing | roundFails | round | sendPing => cases ho
  | keepaliveTimer | keepaliveBusy | keepaliveCheck | keepaliveDone => exact absurd (Option.some.inj ho).symm hne
  | write b =>
    unfold Conn.write
    split_ifs <;> rfl
  | recvFrame chunk now n f =>
    unfold Conn.handleFrame
    split_ifs <;> rfl
  | _ => rfl

theorem undisturbed_other {p : Personality} {s : SharedConn} {a : Act} {o : Owner} {c : Conn} (h : Undisturbed s)
    (hquiet : undisturbed p s (.other a)) (ho : a.owner = some o) (hp : o = .keepalive → s.pingCall = none)
    (hc : s.conn.step p a = some c) : Undisturbed { s with conn := c } where
  sending := by
    intro hping
    have hne : o ≠ .keepalive := by
      intro hk
      rw [hp hk] at hping
      cases hping
    exact (keepalive_kept ho hne hc).trans (h.sending hping)
  resting := by
    intro hk
    rcases keepalive_other ho hc hk with hk | ⟨now, rfl, hidle⟩
    · obtain ⟨hrest, hcall⟩ := h.resting hk
      refine ⟨resting_other ho hc hrest ?_ ?_, hcall⟩
      · rintro i rfl
        exact of_decide_eq_true hquiet hk
      · cases a with
        | recv chunk now => exact of_decide_eq_true hquiet hk
        | _ => exact fun f hf => by cases hf
    · obtain ⟨hrest, hcall⟩ := of_decide_eq_true hquiet hidle
      exact ⟨resting_other ho hc hrest (by simp) (fun f hf => by cases hf), hcall⟩

theorem undisturbed_step {p : Personality} {s s' : SharedConn} {a : SharedAct} (h : Undisturbed s)
    (hquiet : undisturbed p s a) (hstep : s.step p a = some s') : Undisturbed s' := by
  -- A step of the sender's calls starts from a connection that does not rest, so that the keepalive does not send.
  have hbusy : ∀ {t : SharedConn}, t.conn.keepalive = s.conn.keepalive → t.pingCall = s.pingCall →
      ¬ (s.conn.Resting ∧ s.senderCall = none) → Undisturbed t := by
    intro t hk hp hbusy
    have hno : t.conn.keepalive ≠ .sendPing := fun hsend => hbusy (h.resting (hk ▸ hsend))
    refine ⟨fun hping => ?_, fun hsend => absurd hsend hno⟩
    rw [hp] at hping
    exact hk.trans (h.sending hping)
  cases shared_inv hstep with
  | other ho _ hp hc => exact undisturbed_other h hquiet ho hp hc
  | pongFails err _ hch =>
    exact hbusy (senderReturn_keeps .pong _ _).2.2 rfl fun hrest => pinged_not_resting hch hrest.1
  | beginPong _ hch => exact hbusy rfl rfl fun hrest => pinged_not_resting hch hrest.1
  | beginData _ hflush hne => exact hbusy rfl rfl fun hrest => flushing_not_resting hflush hne hrest.1
  | endSender hcall =>
    obtain ⟨wire, hwire⟩ := writeOut_wire s _ _
    refine hbusy ((senderReturn_keeps _ _ _).2.2.trans (by rw [hwire])) rfl ?_
    rintro ⟨-, hnone⟩
    rw [hcall] at hnone
    cases hnone
  | beginPing _ hk => exact ⟨fun _ => hk, h.resting⟩
  | endPing =>
    refine ⟨by simp, fun hsend => ?_⟩
    unfold Conn.keepaliveReturn at hsend
    dsimp only at hsend
    split_ifs at hsend

/-- **One call at a time**, where the keepalive is undisturbed. -/
theorem exclusive_writes (p : Personality) (acts : List SharedAct) (s : SharedConn)
    (hquiet : AllSteps (SharedConn.step p) (fun s a => undisturbed p s a) {} acts)
    (hrun : run (SharedConn.step p) {} acts = some s) :
    ¬(s.senderCall.isSome ∧ s.pingCall.isSome) ∧
      ∃ sent, List.Sublist sent s.passed ∧ s.conn.wire = encodeAll sent := by
  have hinit : Serial {} := .quiet rfl rfl ⟨[], List.Sublist.refl _, rfl⟩
  have hstep : ∀ (s : SharedConn) (a : SharedAct) (s' : SharedConn), Undisturbed s ∧ Serial s → undisturbed p s a →
      s.step p a = some s' → Undisturbed s' ∧ Serial s' := by
    rintro s a s' ⟨hund, hser⟩ hquiet hs
    exact ⟨undisturbed_step hund hquiet hs, serial_step hser (hund.exclusive hs) hs⟩
  have h := (run_invariant_when hstep acts {} s ⟨⟨by simp, by simp⟩, hinit⟩ hquiet hrun).2
  refine ⟨?_, h.onlyPassed⟩
  cases h with
  | quiet hs hp hwire => simp [hs]
  | sender call job hs hp hfill => simp [hp]
  | ping call hs hp hfill => simp [hs]

theorem exclusive_writes_pong_then_ping :
    let p : Personality := { maxBurstBytes := 524288, keepaliveIdle := 45000000000 }
    let ping : Bytes := Frame.encode { type := typePing, payload := [1, 2, 3, 4] } []
    let acts : List SharedAct := [.other (.read 16), .other (.recv (ping.take 11) 0), .other (.recv (ping.drop 11) 0),
      .other .keepaliveTimer, .beginPong, .endSender none, .other (.keepaliveCheck 45000000000),
      .beginPing 45000000000, .endPing none]
    ∃ s, run (SharedConn.step p) {} acts = some s ∧ s.conn.wire.length = 34 ∧
      ¬(s.senderCall.isSome ∧ s.pingCall.isSome) ∧
      ∃ sent, List.Sublist sent s.passed ∧ s.conn.wire = encodeAll sent := by
  intro p ping acts
  have hruns : ((run (SharedConn.step p) {} acts).map fun s => s.conn.wire.length) = some 34 := by decide +kernel
  obtain ⟨s, hs, hlen⟩ := Option.map_eq_some_iff.mp hruns
  have hquiet : AllSteps (SharedConn.step p) (fun s a => undisturbed p s a) {} acts := by decide +kernel
  exact ⟨s, hs, hlen, exclusive_writes p acts s hquiet hs⟩

/-- The keepalive fills the buffer before a PONG is written out: the peer reads a frame nobody passed. -/
theorem shared_buffer_race :
    let p : Personality := { maxBurstBytes := 524288, keepaliveIdle := 45000000000 }
    let ping : Bytes := Frame.encode { type := typePing, payload := [1, 2, 3, 4] } []
    let acts : List SharedAct := [.other (.read 16), .other (.recv (ping.take 11) 0), .other (.recv (ping.drop 11) 0),
      .other .keepaliveTimer, .other (.keepaliveCheck 45000000000), .beginPong, .beginPing 45000000000,
      .endSender none, .endPing none]
    ((run (SharedConn.step p) {} (acts.take 7)).map fun s => (s.senderCall.isSome, s.pingCall.isSome)) =
        some (true, true) ∧
      ((run (SharedConn.step p) {} acts).map fun s => s.passed.map Prod.fst) =
        some [{ type := typePong, payload := [1, 2, 3, 4] }, { type := typePing, payload := randomBytes 8 }] ∧
      ((run (SharedConn.step p) {} acts).map fun s => ((readFrame ⟨[s.conn.wire], .eof, false⟩).1).toOption) =
        some (some { type := typePing, payload := [17, 25, 33, 41, 5, 0, 0, 0] }) := by
  decide +kernel

end Daxson.Bcl
