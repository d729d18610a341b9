import Daxson.Bcl.Proofs
import Daxson.Lib.Machine

/-! # Round-trip samples

All steps share one clock, and a PONG comes with the PING that it answers: all PINGs carry the same payload.
-/

open Lib.Machine

namespace Daxson.Bcl

open Protocol

/-- A queued PONG. -/
structure Arrival where
  frame : Frame
  time : Int
  /-- The number of the PING that it answers. `none`: nobody has asked. -/
  answers : Option Nat
  deriving DecidableEq, Repr

/-- A latency, and the PONG that it was taken for. -/
structure Sample where
  pong : Arrival
  latency : Int
  deriving DecidableEq, Repr

structure ClockedConn where
  conn : Conn := {}
  now : Int := 0
  /-- The PINGs on the wire, with the times they were sent at. -/
  pings : List (Bytes × Int) := []
  /-- `pongCh`, as it came in. -/
  queue : List Arrival := []
  samples : List Sample := []
  deriving DecidableEq, Repr

/-- A step at a time. Where it completes a PONG, the peer's answer is to the PING with this number. -/
structure Tick where
  now : Int
  act : Act
  answers : Option Nat := none
  deriving DecidableEq, Repr

/-- The step with the clock at `now`, wherever it reads the clock. -/
def Act.at (now : Int) : Act → Act
  | .recv chunk _ => .recv chunk now
  | .sendRound d => .sendRound { d with now := now }
  | .keepaliveCheck _ => .keepaliveCheck now
  | .sendPing _ fault => .sendPing now fault
  | a => a

/-- What `processPong` feeds to `ObserveWrite`. -/
def Conn.pongLatency (now : Int) (c : Conn) : Option Int :=
  if c.pendingPingSent = 0 then none else some (now - c.pendingPingSent)

def pingFrame : Frame := { type := typePing, payload := randomBytes 8 }

/-- What a step adds to the record, given the connection behind it. -/
def ClockedConn.record (s : ClockedConn) (t : Tick) (c : Conn) : ClockedConn :=
  let s' := { s with conn := c, now := t.now }
  match t.act with
  | .recv _ _ =>
    match s.conn.completes t.act with
    | some f =>
      if f.type = typePong ∧ s.conn.pongCh.length < controlCap then
        { s' with queue := s.queue ++ [⟨f, t.now, t.answers⟩] }
      else s'
    | none => s'
  | .takePong =>
    match s.queue with
    | pong :: rest =>
      { s' with
        queue := rest, samples := s.samples ++ (s.conn.pongLatency t.now).toList.map fun l => ⟨pong, l⟩ }
    | [] => s'
  | .sendPing _ fault =>
    if (s.conn.writeFrame pingFrame [] fault).1.isNone then { s' with pings := s.pings ++ [(pingFrame.payload, t.now)] }
    else s'
  | _ => s'

/-- A step at a time that is not before the last one. -/
def ClockedConn.step (p : Personality) (s : ClockedConn) (t : Tick) : Option ClockedConn :=
  if t.now < s.now then none
  else (s.conn.step p (t.act.at t.now)).map (s.record { t with act := t.act.at t.now })

/-- The sample is the time from the PING that the PONG answers, and whose payload it carries, to the PONG's arrival. -/
def Sample.IsRoundTrip (pings : List (Bytes × Int)) (x : Sample) : Prop :=
  ∃ q ∈ x.pong.answers.bind (pings[·]?), q.1 = x.pong.frame.payload ∧ x.latency = x.pong.time - q.2

instance (pings : List (Bytes × Int)) (x : Sample) : Decidable (x.IsRoundTrip pings) :=
  inferInstanceAs (Decidable (∃ q ∈ x.pong.answers.bind (pings[·]?), _))

/-! ## The record -/

theorem takePong_pongs {p : Personality} {c c' : Conn} (h : c.step p .takePong = some c') :
    ∃ f rest, c.pongCh = f :: rest ∧ c'.pongCh = rest ∧ c'.pendingPingSent = 0 := by
  cases step_inv h with
  | takePong pong rest hch | drainPong pong rest hch => exact ⟨pong, rest, hch, rfl, rfl⟩

theorem writeFrame_pongs (f : Frame) (pad : Bytes) (fault : Option SysError) (c : Conn) :
    (c.writeFrame f pad fault).2.pongCh = c.pongCh ∧
      (c.writeFrame f pad fault).2.pendingPingSent = c.pendingPingSent := by
  obtain ⟨wire, hwire⟩ := writeFrame_wire f pad fault c
  rw [hwire]
  exact ⟨rfl, rfl⟩

theorem takePing_pongs {c c' : Conn} {fault : Option SysError} (h : c.takePing fault = some c') :
    c'.pongCh = c.pongCh ∧ c'.pendingPingSent = c.pendingPingSent := by
  obtain ⟨ping, rest, -, -, ⟨-, rfl⟩ | ⟨-, rfl⟩⟩ := takePing_inv h
  · exact writeFrame_pongs _ [] fault { c with pingCh := rest }
  · exact writeFrame_pongs _ [] fault { c with pingCh := rest }

theorem sendPing_pongs {c c' : Conn} {now : Int} {fault : Option SysError} (h : c.sendPing now fault = some c') :
    c'.pongCh = c.pongCh ∧ c'.pendingPingSent = now := by
  obtain ⟨-, rfl⟩ := sendPing_inv h
  exact writeFrame_pongs _ [] fault { c with pendingPingSent := now }

/-- What a step can do to the record. -/
inductive RttStep (s : ClockedConn) (t : Tick) : ClockedConn → Prop
  | quiet {c : Conn} (hch : c.pongCh = s.conn.pongCh) (hpending : c.pendingPingSent = s.conn.pendingPingSent) :
      RttStep s t { s with conn := c, now := t.now }
  | hear {c : Conn} (f : Frame) (hch : c.pongCh = s.conn.pongCh ++ [f])
      (hpending : c.pendingPingSent = s.conn.pendingPingSent) :
      RttStep s t { s with conn := c, now := t.now, queue := s.queue ++ [⟨f, t.now, t.answers⟩] }
  | take {c : Conn} (hact : t.act = .takePong) (pong : Arrival) (rest : List Arrival) (hqueue : s.queue = pong :: rest)
      (hch : c.pongCh = rest.map Arrival.frame) (hpending : c.pendingPingSent = 0) :
      RttStep s t { s with
        conn := c, now := t.now, queue := rest
        samples := s.samples ++ (s.conn.pongLatency t.now).toList.map fun l => ⟨pong, l⟩ }
  | ping {c : Conn} {now : Int} {fault : Option SysError} (hact : t.act = .sendPing now fault)
      (sent : List (Bytes × Int))
      (hsent : fault = none → s.conn.connClosed = false → sent = [(pingFrame.payload, t.now)])
      (hch : c.pongCh = s.conn.pongCh) (hpending : c.pendingPingSent = t.now) :
      RttStep s t { s with conn := c, now := t.now, pings := s.pings ++ sent }

theorem control_pongs {c c' : Conn} (h : c'.controlView = c.controlView) :
    c'.pongCh = c.pongCh ∧ c'.pendingPingSent = c.pendingPingSent :=
  ⟨congrArg ControlView.pongCh h, congrArg ControlView.pendingPingSent h⟩

section Record

variable {s : ClockedConn} {t : Tick} {c : Conn}

theorem record_recv {chunk : Bytes} (h : s.conn.recv chunk t.now = some c) :
    RttStep s t (s.record { t with act := .recv chunk t.now } c) := by
  unfold ClockedConn.record
  obtain ⟨hnone, hview⟩ | ⟨n, f, hframe, hview⟩ := recv_control h
  · obtain ⟨hch, hpending⟩ := control_pongs hview
    simp only [hnone]
    exact .quiet hch hpending
  · rw [handleFrame_control] at hview
    have hch := congrArg ControlView.pongCh hview
    have hpending : c.pendingPingSent = s.conn.pendingPingSent := congrArg ControlView.pendingPingSent hview
    dsimp only [Conn.controlView] at hch
    simp only [hframe]
    split_ifs at hch ⊢ with hpong
    · exact .hear f hch hpending
    · exact .quiet hch hpending

theorem record_takePong {p : Personality} (hq : s.queue.map Arrival.frame = s.conn.pongCh)
    (h : s.conn.step p .takePong = some c) (hact : t.act = .takePong) :
    RttStep s t (s.record { t with act := .takePong } c) := by
  obtain ⟨f, rest, hch, hrest, hpending⟩ := takePong_pongs h
  unfold ClockedConn.record
  cases hqueue : s.queue with
  | nil =>
    rw [hqueue, hch] at hq
    cases hq
  | cons pong queue =>
    rw [hqueue, hch, List.map_cons, List.cons.injEq] at hq
    exact .take hact pong queue hqueue (hrest.trans hq.2.symm) hpending

theorem record_sendPing {now : Int} {fault : Option SysError} (h : s.conn.sendPing t.now fault = some c)
    (hact : t.act = .sendPing now fault) : RttStep s t (s.record { t with act := .sendPing t.now fault } c) := by
  obtain ⟨hch, hpending⟩ := sendPing_pongs h
  unfold ClockedConn.record
  obtain ⟨e, heq, hwhy⟩ | ⟨-, -, -, heq⟩ := writeFrame_cases pingFrame [] fault s.conn
  · simp only [heq, Option.isNone_some, Bool.false_eq_true, if_false]
    have hsent : fault = none → s.conn.connClosed = false → [] = [(pingFrame.payload, t.now)] := by
      intro hf hopen
      rcases hwhy ping_legal with hclosed | hfault
      · rw [hopen] at hclosed
        cases hclosed
      · exact absurd hf hfault
    have hping := RttStep.ping hact [] hsent hch hpending
    rw [List.append_nil] at hping
    exact hping
  · simp only [heq, Option.isNone_none, if_true]
    exact .ping hact _ (fun _ _ => rfl) hch hpending

theorem rtt_cases {p : Personality} {s' : ClockedConn} (hq : s.queue.map Arrival.frame = s.conn.pongCh)
    (h : s.step p t = some s') : RttStep s t s' := by
  unfold ClockedConn.step at h
  split_ifs at h
  obtain ⟨c, hc, rfl⟩ := Option.map_eq_some_iff.mp h
  cases hact : t.act with
  | recv chunk now =>
    rw [hact] at hc
    exact record_recv hc
  | takePong =>
    rw [hact] at hc
    exact record_takePong hq hc hact
  | sendPing now fault =>
    rw [hact] at hc
    exact record_sendPing hc hact
  | takePing fault =>
    rw [hact] at hc
    obtain ⟨hch, hpending⟩ := takePing_pongs hc
    exact .quiet hch hpending
  | _ =>
    rw [hact] at hc
    obtain ⟨hch, hpending⟩ := control_pongs (step_control hc id)
    exact .quiet hch hpending

end Record

/-! ## Prompt runs -/

/-- A PONG that is measured has just arrived and answers the last PING, with its payload. Each PING goes out. -/
def prompt (s : ClockedConn) (t : Tick) : Bool :=
  match t.act with
  | .takePong =>
    s.conn.pendingPingSent ≠ 0 → ∀ pong ∈ s.queue.head?,
      pong.time = t.now ∧ pong.answers = some (s.pings.length - 1) ∧ pong.frame.payload = pingFrame.payload
  | .sendPing _ fault => fault = none ∧ s.conn.connClosed = false
  | _ => true

/-- The record of the queue is the queue, the pending time is that of the last PING, and the samples are
round trips. -/
structure Measured (s : ClockedConn) : Prop where
  queue : s.queue.map Arrival.frame = s.conn.pongCh
  pending : s.conn.pendingPingSent ≠ 0 → s.pings[s.pings.length - 1]? = some (pingFrame.payload, s.conn.pendingPingSent)
  samples : ∀ x ∈ s.samples, x.IsRoundTrip s.pings

theorem Sample.IsRoundTrip.append {pings more : List (Bytes × Int)} {x : Sample} (h : x.IsRoundTrip pings) :
    x.IsRoundTrip (pings ++ more) := by
  obtain ⟨q, hq, hx⟩ := h
  obtain ⟨i, hi, hping⟩ := Option.bind_eq_some_iff.mp hq
  refine ⟨q, Option.bind_eq_some_iff.mpr ⟨i, hi, ?_⟩, hx⟩
  rw [List.getElem?_append_left (List.getElem?_eq_some_iff.mp hping).1]
  exact hping

theorem measured_step {p : Personality} {s s' : ClockedConn} {t : Tick} (h : Measured s) (hprompt : prompt s t)
    (hstep : s.step p t = some s') : Measured s' := by
  cases rtt_cases h.queue hstep with
  | quiet hch hpending =>
    refine ⟨h.queue.trans hch.symm, ?_, h.samples⟩
    dsimp only
    rw [hpending]
    exact h.pending
  | hear f hch hpending =>
    refine ⟨?_, ?_, h.samples⟩
    · dsimp only
      rw [List.map_append, h.queue, hch]
      rfl
    · dsimp only
      rw [hpending]
      exact h.pending
  | take hact pong rest hqueue hch hpending =>
    refine ⟨hch.symm, fun hne => absurd hpending hne, ?_⟩
    intro x hx
    rw [List.mem_append] at hx
    obtain hx | hx := hx
    · exact h.samples x hx
    · unfold Conn.pongLatency at hx
      split_ifs at hx with hzero
      · cases hx
      · -- The PONG has arrived at the time that `processPong` reads, and answers the PING whose time is pending.
        unfold prompt at hprompt
        rw [hact] at hprompt
        obtain ⟨harrived, hanswers, hpayload⟩ := of_decide_eq_true hprompt hzero pong (by rw [hqueue]; rfl)
        simp only [Option.toList_some, List.map_cons, List.map_nil, List.mem_singleton] at hx
        subst hx
        refine ⟨(pingFrame.payload, s.conn.pendingPingSent), ?_, hpayload.symm, ?_⟩
        · rw [hanswers]
          exact h.pending hzero
        · dsimp only
          rw [harrived]
  | ping hact sent hsent hch hpending =>
    refine ⟨h.queue.trans hch.symm, ?_, fun x hx => (h.samples x hx).append⟩
    intro _
    unfold prompt at hprompt
    rw [hact] at hprompt
    obtain ⟨hfault, hopen⟩ := of_decide_eq_true hprompt
    dsimp only
    rw [hsent hfault hopen, hpending]
    simp

/-- A burst of one byte, up to the drain phase. -/
def burstTicks (now : Int) : List Tick :=
  [.write [1], .writeSend 0, .takeItem, .startBurst, .timer, .sendRound { apparentSize := 64 },
    .flushed].map (Tick.mk now · none)

def pingTicks (now : Int) : List Tick := [.keepaliveTimer, .keepaliveCheck 0, .sendPing 0 none].map (Tick.mk now · none)

/-- A `Read` gets a PONG with the payload. -/
def pongTicks (payload : Bytes) (answers : Option Nat) (now : Int) : List Tick :=
  let pong := Frame.encode { type := typePong, payload := payload } []
  [.read 16, .recv (pong.take 11) 0, .recv (pong.drop 11) 0].map (Tick.mk now · answers)

end Daxson.Bcl
