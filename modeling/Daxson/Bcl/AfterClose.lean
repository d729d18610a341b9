import Daxson.Bcl.Proofs
import Daxson.Lib.Machine

/-! # Write after Close

A `Write` does not look whether the connection is closed, so what decides is the room left in the inbox.
-/

namespace Daxson.Bcl

open Protocol Lib.Machine

/-! ## The order of Close -/

/-- The flags that `Close` sets, in its order. -/
def Conn.closing (c : Conn) : Bool × Bool × Bool := (c.canceled, c.connClosed, c.closed)

theorem writeFrame_closing (f : Frame) (pad : Bytes) (fault : Option SysError) (c : Conn) :
    (c.writeFrame f pad fault).2.closing = c.closing := by
  obtain ⟨wire, hwire⟩ := writeFrame_wire f pad fault c
  rw [hwire]
  rfl

theorem handleFrame_closing (n : Nat) (f : Frame) (c : Conn) : (c.handleFrame n f).closing = c.closing := by
  unfold Conn.handleFrame
  split_ifs <;> rfl

inductive ClosingStep (c c' : Conn) : Prop
  | keep (h : c'.closing = c.closing)
  | cancel (h : c' = { c with canceled := true })
  | conn (hcancel : c.canceled = true) (h : c' = { c with connClosed := true })
  | done (hconn : c.connClosed = true) (hsender : c.sender = .stopped) (h : c' = { c with closed := true })

theorem step_closing {p : Personality} {c c' : Conn} {a : Act} (h : c.step p a = some c') : ClosingStep c c' := by
  cases step_inv h with
  | cancel => exact .cancel rfl
  | closeConn hcancel => exact .conn hcancel rfl
  | closeReturn hconn hs => exact .done hconn hs rfl
  | write b =>
    unfold Conn.write
    split_ifs <;> exact .keep rfl
  | recvFrame chunk now n f => exact .keep (handleFrame_closing n f _)
  | takePing fault ping rest | drainPing fault ping rest =>
    exact .keep (writeFrame_closing _ [] fault { c with pingCh := rest })
  | sendPing now fault => exact .keep (writeFrame_closing _ [] fault { c with pendingPingSent := now })
  | _ => exact .keep rfl

/-! ## A stopped connection -/

structure Conn.Stopped (c : Conn) : Prop where
  sender : c.sender = .stopped
  canceled : c.canceled = true

/-- All that a `Write` looks at or changes. -/
def Conn.writeView (c : Conn) : Sender × Bool × Option GoError × List Bytes × List Bytes :=
  (c.sender, c.canceled, c.writeErr, c.inbox, c.writers)

theorem writeFrame_writeView (f : Frame) (pad : Bytes) (fault : Option SysError) (c : Conn) :
    (c.writeFrame f pad fault).2.writeView = c.writeView := by
  obtain ⟨wire, hwire⟩ := writeFrame_wire f pad fault c
  rw [hwire]
  rfl

theorem handleFrame_writeView (n : Nat) (f : Frame) (c : Conn) : (c.handleFrame n f).writeView = c.writeView := by
  unfold Conn.handleFrame
  split_ifs <;> rfl

def Act.isWrite : Act → Bool
  | .write _ | .writeSend _ | .writeClosed _ => true
  | _ => false

/-- What a step can do to what the `Write` calls share. -/
inductive WriteStep (c : Conn) (a : Act) (c' : Conn) : Prop
  | call (b : Bytes) (ha : a = .write b) (h : c' = c.write b)
  | send (i : Nat) (b : Bytes) (ha : a = .writeSend i) (hi : i < c.writers.length)
      (hroom : c.inbox.length < inboxCap)
      (h : c' = { c with
        writers := c.writers.eraseIdx i, inbox := c.inbox ++ [b], accepted := c.accepted ++ b })
  | refuse (i : Nat) (ha : a = .writeClosed i) (hi : i < c.writers.length)
      (h : c' = { c with writers := c.writers.eraseIdx i })
  | aside (ha : a.isWrite = false) (hview : c'.writeView = c.writeView)

theorem stopped_writes {p : Personality} {c c' : Conn} {a : Act} (hc : c.Stopped) (h : c.step p a = some c') :
    WriteStep c a c' := by
  obtain ⟨hsender, hcancel⟩ := hc
  cases step_inv h with
  | write b => exact .call b rfl rfl
  | writeSend i b hb hroom => exact .send i b rfl (List.getElem?_eq_some_iff.mp hb).1 hroom rfl
  | writeClosed i _ hi => exact .refuse i rfl hi rfl
  | cancel => exact .aside rfl (by simp [Conn.writeView, hcancel])
  | recvFrame chunk now n f => exact .aside rfl (handleFrame_writeView n f _)
  | sendPing now fault => exact .aside rfl (writeFrame_writeView _ [] fault { c with pendingPingSent := now })
  | takeFirst _ _ _ hs | cut _ hs => simp [hsender] at hs
  | takePing _ _ _ _ hsel =>
    rw [hsender] at hsel
    exact hsel.elim
  -- Each of them is a step of a sender that has not stopped.
  | startBurst _ hs | takeNext _ _ _ _ _ hs | drainPing _ _ _ _ hs | takePong _ _ _ hs | drainPong _ _ _ hs
  | collected _ _ hs | drained hs | rested hs | stop _ hs | giveUp _ _ _ hs | roundFails _ _ _ hs | round _ _ hs
  | flushed hs =>
    rw [hsender] at hs
    cases hs
  | _ => exact .aside rfl rfl

theorem stopped_step {p : Personality} {c c' : Conn} {a : Act} (hc : c.Stopped) (h : c.step p a = some c') :
    c'.Stopped ∧ c'.writeErr = c.writeErr ∧ c.inbox.length ≤ c'.inbox.length := by
  obtain ⟨hsender, hcancel⟩ := hc
  cases stopped_writes ⟨hsender, hcancel⟩ h with
  | call b _ hc' =>
    subst hc'
    unfold Conn.write
    split_ifs <;> exact ⟨⟨hsender, hcancel⟩, rfl, le_rfl⟩
  | send i b _ _ _ hc' =>
    subst hc'
    exact ⟨⟨hsender, hcancel⟩, rfl, by simp⟩
  | refuse i _ _ hc' =>
    subst hc'
    exact ⟨⟨hsender, hcancel⟩, rfl, le_rfl⟩
  | aside _ hview =>
    simp only [Conn.writeView, Prod.mk.injEq] at hview
    obtain ⟨hsender', hcancel', herr, hinbox, -⟩ := hview
    exact ⟨⟨hsender'.trans hsender, hcancel'.trans hcancel⟩, herr, by rw [hinbox]⟩

structure CloseOrder (c : Conn) : Prop where
  conn : c.connClosed = true → c.canceled = true
  closed : c.closed = true → c.Stopped

theorem closeOrder_step {p : Personality} {c c' : Conn} {a : Act} (ho : CloseOrder c) (h : c.step p a = some c') :
    CloseOrder c' := by
  cases step_closing h with
  | keep hkeep =>
    simp only [Conn.closing, Prod.mk.injEq] at hkeep
    obtain ⟨hcancel, hconn, hclosed⟩ := hkeep
    refine ⟨fun hc => hcancel.trans (ho.conn (hconn.symm.trans hc)), fun hc => ?_⟩
    exact (stopped_step (ho.closed (hclosed.symm.trans hc)) h).1
  | cancel heq =>
    subst heq
    exact ⟨fun _ => rfl, fun hc => ⟨(ho.closed hc).sender, rfl⟩⟩
  | conn hcancel heq =>
    subst heq
    exact ⟨fun _ => hcancel, fun hc => ⟨(ho.closed hc).sender, hcancel⟩⟩
  | done hconn hsender heq =>
    subst heq
    exact ⟨ho.conn, fun _ => ⟨hsender, ho.conn hconn⟩⟩

theorem closed_stopped {p : Personality} {acts : List Act} {c : Conn} (h : run (Conn.step p) {} acts = some c)
    (hc : c.closed = true) : c.Stopped := by
  have ho : CloseOrder c := run_invariant (fun _ _ _ ho hs => closeOrder_step ho hs) acts {} c
    ⟨by simp, by simp⟩ h
  exact ho.closed hc

/-! ## The calls after Close -/

/-- A connection together with what becomes of the `Write` calls that begin after `Close` has returned. -/
structure Watched where
  conn : Conn
  /-- How many of the waiting calls began before. New ones join behind them. -/
  early : Nat
  /-- The slices that later calls have reported as accepted. -/
  accepted : List Bytes := []
  deriving DecidableEq, Repr

def Watched.start (c : Conn) : Watched where
  conn := c
  early := c.writers.length

def Watched.settle (s : Watched) : Act → Watched
  | .writeSend i =>
    if i < s.early then { s with early := s.early - 1 }
    else { s with accepted := s.accepted ++ [s.conn.writers.getD i []] }
  | .writeClosed i => if i < s.early then { s with early := s.early - 1 } else s
  | _ => s

def Watched.step (p : Personality) (s : Watched) (a : Act) : Option Watched :=
  (s.conn.step p a).map fun c => { s.settle a with conn := c }

/-- No later call gets into the inbox: it is turned away by the write error, or there is no room. -/
structure Refusing (s : Watched) : Prop where
  stopped : s.conn.Stopped
  none : s.accepted = []
  why : (s.conn.writeErr.isSome = true ∧ s.conn.writers.length = s.early) ∨ inboxCap ≤ s.conn.inbox.length

@[simp] theorem settle_aside (s : Watched) {a : Act} (ha : a.isWrite = false) : s.settle a = s := by
  cases a with
  | write b | writeSend i | writeClosed i => cases ha
  | _ => rfl

theorem refusing_step {p : Personality} {s s' : Watched} {a : Act} (hr : Refusing s) (h : s.step p a = some s') :
    Refusing s' := by
  obtain ⟨c, hc, rfl⟩ := Option.map_eq_some_iff.mp h
  obtain ⟨hstopped, herr, hroom⟩ := stopped_step hr.stopped hc
  have hnone := hr.none
  cases stopped_writes hr.stopped hc with
  | call b ha hc' =>
    subst ha
    refine ⟨hstopped, hnone, hr.why.imp (fun hw => ?_) hroom.trans'⟩
    -- The error turns the call away before its select.
    rw [hc']
    simpa [Conn.write, Watched.settle, hw.1] using hw
  | send i b ha hi hfree hc' =>
    subst ha hc'
    rcases hr.why with ⟨hsome, hearly⟩ | hfull
    · rw [hearly] at hi
      refine ⟨hstopped, by simp [Watched.settle, hi, hnone], .inl ⟨hsome, ?_⟩⟩
      simp [Watched.settle, List.length_eraseIdx, hi, hearly]
    · omega
  | refuse i ha hi hc' =>
    subst ha hc'
    refine ⟨hstopped, ?_, hr.why.imp (fun hw => ⟨hw.1, ?_⟩) id⟩
    · simp only [Watched.settle]
      split_ifs <;> exact hnone
    · rw [hw.2] at hi
      simp [Watched.settle, List.length_eraseIdx, hi, hw.2]
  | aside ha hview =>
    simp only [Conn.writeView, Prod.mk.injEq] at hview
    refine ⟨hstopped, by simpa [ha] using hnone, hr.why.imp (fun hw => ?_) hroom.trans'⟩
    simpa [ha, herr, hview.2.2.2.2] using hw

theorem start_refusing {c : Conn} (hc : c.Stopped) (h : c.writeErr.isSome = true ∨ inboxCap ≤ c.inbox.length) :
    Refusing (Watched.start c) :=
  ⟨hc, rfl, h.imp (fun herr => ⟨herr, rfl⟩) id⟩

/-- A later `Write` never gets a slice accepted, and can always return with `net.ErrClosed`. -/
def RefusesWrites (p : Personality) (c : Conn) : Prop :=
  ∀ (more : List Act) (s : Watched), run (Watched.step p) (Watched.start c) more = some s →
    s.accepted = [] ∧ ∀ i < s.conn.writers.length, (s.conn.writeClosed i).isSome = true

/-- After `Close` a `Write` is refused exactly for a stored error or a full inbox. -/
theorem write_refused_after_close_iff (p : Personality) (acts : List Act) (c : Conn)
    (h : run (Conn.step p) {} acts = some c) (hc : c.closed = true) :
    RefusesWrites p c ↔ c.writeErr.isSome = true ∨ inboxCap ≤ c.inbox.length := by
  have hstopped := closed_stopped h hc
  constructor
  · intro hrefuses
    by_contra hno
    simp only [not_or, Bool.not_eq_true, Nat.not_le] at hno
    obtain ⟨herr, hroom⟩ := hno
    -- Both cases of the select are ready, and it takes the inbox.
    have hrun : run (Watched.step p) (Watched.start c) [.write [0], .writeSend c.writers.length] = some
        { conn := { c with inbox := c.inbox ++ [[0]], accepted := c.accepted ++ [0] }
          early := c.writers.length, accepted := [[0]] } := by
      simp [Watched.step, Watched.start, Watched.settle, Conn.step, Conn.write, Conn.writeSend, herr, hroom,
        List.eraseIdx_append_of_length_le]
    have := (hrefuses _ _ hrun).1
    simp at this
  · intro hwhy more s hrun
    have hr : Refusing s := run_invariant (fun _ _ _ hr hs => refusing_step hr hs) more _ s
      (start_refusing hstopped hwhy) hrun
    refine ⟨hr.none, fun i hi => ?_⟩
    simp [Conn.writeClosed, hr.stopped.canceled, hi]

def quietClose : List Act := [.cancel, .closeConn, .senderDone, .keepaliveDone, .closeReturn]

theorem write_refused_after_close_error :
    RefusesWrites { maxBurstBytes := 524288, keepaliveIdle := 45000000000 }
      { writeErr := some (.wrap "bcl: write frame: %w" [] (.sys .closed)), state := .burst, canceled := true
        connClosed := true, closed := true, sender := .stopped, keepalive := .stopped, accepted := [1]
        dropped := [1] } :=
  (write_refused_after_close_iff { maxBurstBytes := 524288, keepaliveIdle := 45000000000 }
    ([.write [1], .writeSend 0, .takeItem, .startBurst, .timer,
        .sendRound { apparentSize := 0, fault := some .closed }] ++ quietClose) _ rfl rfl).mpr (.inl rfl)

theorem write_accepted_after_close :
    ∃ c s, run (Conn.step { maxBurstBytes := 524288, keepaliveIdle := 45000000000 }) {} quietClose = some c ∧
      c.closed = true ∧
      run (Watched.step { maxBurstBytes := 524288, keepaliveIdle := 45000000000 }) (Watched.start c)
        [.write [7], .writeSend 0] = some s ∧
      s.accepted = [[7]] :=
  ⟨_, _, rfl, rfl, rfl, rfl⟩

end Daxson.Bcl
