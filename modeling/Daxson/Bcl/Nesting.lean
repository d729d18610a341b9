import Daxson.Lib.Machine
import Daxson.Bcl.Proofs

/-! # Nested burst cycles

`runBurstCycle` calls itself when data arrives early, and no activation returns before the last one does.
-/

open Lib.Machine

namespace Daxson.Bcl

open Protocol

/-- The sender is in no cycle. -/
def Sender.Idle (s : Sender) : Prop := s = .wait ∨ s = .stopped

/-- The activations on the stack, with the one that a taken item is about to start. -/
def Conn.nested (c : Conn) : Nat :=
  match c.sender with
  | .taken _ => c.depth + 1
  | _ => c.depth

/-- What a step does to the stack of activations. -/
inductive StackStep (c : Conn) (a : Act) (c' : Conn) : Prop
  | stay (hnested : c'.nested = c.nested) (hidle : c'.sender.Idle → c.sender.Idle)
  | unwind (hnested : c'.nested = 0)
  | enter (hwait : c.sender = .wait) (hnested : c'.nested = c.nested + 1) (hbusy : ¬c'.sender.Idle)
  | reenter (htake : a = .takeItem) (hearly : c.sender = .drain ∨ c.sender = .think)
      (hnested : c'.nested = c.nested + 1) (hbusy : ¬c'.sender.Idle)

theorem writeFrame_stack (f : Frame) (pad : Bytes) (fault : Option SysError) (c : Conn) :
    (c.writeFrame f pad fault).2.depth = c.depth ∧ (c.writeFrame f pad fault).2.sender = c.sender := by
  obtain ⟨wire, hwire⟩ := writeFrame_wire f pad fault c
  rw [hwire]
  exact ⟨rfl, rfl⟩

theorem StackStep.same {c c' : Conn} {a : Act} (hdepth : c'.depth = c.depth) (hsender : c'.sender = c.sender) :
    StackStep c a c' := by
  refine .stay ?_ (fun hi => hsender ▸ hi)
  unfold Conn.nested
  rw [hdepth, hsender]

theorem step_stack {p : Personality} {c c' : Conn} {a : Act} (h : c.step p a = some c') : StackStep c a c' := by
  cases step_inv h with
  | write b =>
    unfold Conn.write
    split_ifs <;> exact .same rfl rfl
  | recvFrame chunk now n f =>
    unfold Conn.handleFrame
    split_ifs <;> exact .same rfl rfl
  | takeFirst item rest hin hs =>
    rcases hs with hs | hs | hs
    · exact .enter hs (by simp [Conn.nested, hs]) (by simp [Sender.Idle])
    · exact .reenter rfl (.inl hs) (by simp [Conn.nested, hs]) (by simp [Sender.Idle])
    · exact .reenter rfl (.inr hs) (by simp [Conn.nested, hs]) (by simp [Sender.Idle])
  | startBurst item hs => exact .stay (by simp [Conn.nested, hs]) (by simp [Sender.Idle])
  | takeNext item rest hin burst total hs =>
    split_ifs <;> exact .stay (by simp [Conn.nested, hs]) (by simp [Sender.Idle])
  | takePing fault ping rest =>
    obtain ⟨hdepth, hsender⟩ := writeFrame_stack { type := typePong, payload := ping.payload } [] fault
      { c with pingCh := rest }
    exact .same hdepth hsender
  | drainPing fault ping rest hch hs =>
    obtain ⟨hdepth, -⟩ := writeFrame_stack { type := typePong, payload := ping.payload } [] fault
      { c with pingCh := rest }
    refine .stay ?_ (by simp [Sender.Idle])
    have hnested : c.nested = c.depth := by simp [Conn.nested, hs]
    rw [hnested]
    exact hdepth
  | drainPong _ _ _ hs | collected _ _ hs | drained hs | round _ _ hs | flushed hs =>
    exact .stay (by simp [Conn.nested, Conn.processPong, hs]) (by simp [Sender.Idle])
  | rested | giveUp | cut | roundFails => exact .unwind rfl
  | stop _ hs => exact .stay (by simp [Conn.nested, hs]) fun _ => .inl hs
  | sendPing now fault =>
    obtain ⟨hdepth, hsender⟩ := writeFrame_stack { type := typePing, payload := randomBytes 8 } [] fault
      { c with pendingPingSent := now }
    exact .same hdepth hsender
  | _ => exact .same rfl rfl

/-! ## The bound -/

/-- A cycle takes an item before its think time is over. -/
def tookEarly (c : Conn) (a : Act) : Bool := a = .takeItem && (c.sender = .drain || c.sender = .think)

def Balanced (c : Conn) : Prop := c.sender.Idle → c.nested = 0

theorem balanced_step (p : Personality) (c : Conn) (a : Act) (c' : Conn) (hb : Balanced c)
    (h : c.step p a = some c') :
    Balanced c' ∧ c'.nested - 1 ≤ c.nested - 1 + if tookEarly c a then 1 else 0 := by
  unfold Balanced at hb ⊢
  cases step_stack h with
  | stay hnested hidle =>
    rw [hnested]
    exact ⟨fun hi => hb (hidle hi), Nat.le_add_right _ _⟩
  | unwind hnested =>
    rw [hnested]
    exact ⟨fun _ => rfl, Nat.zero_le _⟩
  | enter hwait hnested hbusy =>
    rw [hnested, hb (.inl hwait)]
    exact ⟨fun hi => absurd hi hbusy, Nat.zero_le _⟩
  | reenter htake hearly hnested hbusy =>
    have : tookEarly c a = true := by
      unfold tookEarly
      rcases hearly with hs | hs <;> simp [htake, hs]
    rw [hnested, this]
    refine ⟨fun hi => absurd hi hbusy, ?_⟩
    simp only [if_true]
    omega

theorem depth_le_nested (c : Conn) : c.depth ≤ c.nested := by
  unfold Conn.nested
  split <;> omega

/-- **Nesting.** Only an item that is taken early adds to the stack. -/
theorem nesting_le_early_items (p : Personality) (before acts : List Act) (c₀ c : Conn)
    (hbefore : run (Conn.step p) {} before = some c₀) (hwait : c₀.sender = .wait)
    (hrun : run (Conn.step p) c₀ acts = some c) : c.depth ≤ count (Conn.step p) tookEarly c₀ acts + 1 := by
  have hb : Balanced c₀ :=
    run_invariant (fun s a s' hs h => (balanced_step p s a s' hs h).1) before {} c₀ (fun _ => rfl) hbefore
  have hle := run_measure_le (balanced_step p) acts c₀ c hb hrun
  have hdepth := depth_le_nested c
  rw [hb (.inl hwait)] at hle
  omega

/-! ## Items that come early without end -/

/-- An item is written and taken, and its burst window ends. -/
def takeOne : List Act := [.write [1], .writeSend 0, .takeItem, .startBurst, .timer]

/-- The item goes out as one frame, and the cycle drains. -/
def flushOne : List Act := [.sendRound { apparentSize := 0 }, .flushed]

def earlyCycle : List Act := takeOne ++ flushOne

theorem nesting_le_early_items_once :
    let step := Conn.step { maxBurstBytes := 1000, keepaliveIdle := 0 }
    ∃ c₀ c, run step {} (earlyCycle ++ [.timer, .timer]) = some c₀ ∧ c₀.sender = .wait ∧
      run step c₀ (earlyCycle ++ earlyCycle) = some c ∧ c.depth ≤ 2 := by
  intro step
  have hruns : ((run step {} (earlyCycle ++ [.timer, .timer])).bind fun c₀ =>
      (run step c₀ (earlyCycle ++ earlyCycle)).map fun _ =>
        (c₀.sender, count step tookEarly c₀ (earlyCycle ++ earlyCycle))) = some (.wait, 1) := by
    decide +kernel
  obtain ⟨c₀, hbefore, hmap⟩ := Option.bind_eq_some_iff.mp hruns
  obtain ⟨c, hrun, heq⟩ := Option.map_eq_some_iff.mp hmap
  obtain ⟨hwait, hcount⟩ := Prod.mk.inj heq
  have hle := nesting_le_early_items _ _ _ c₀ c hbefore hwait hrun
  exact ⟨c₀, c, hbefore, hwait, hrun, hle.trans (by rw [hcount])⟩

/-- The sender can start a burst and nothing is in its way. -/
structure Ready (c : Conn) : Prop where
  sender : c.sender = .wait ∨ c.sender = .drain
  inbox : c.inbox = []
  writers : c.writers = []
  writeErr : c.writeErr = none
  conn : c.connClosed = false

theorem writeFrame_open {f : Frame} (hf : f.Legal) (pad : Bytes) {c : Conn} (hc : c.connClosed = false) :
    c.writeFrame f pad none = (none, { c with wire := c.wire ++ f.encode pad }) := by
  unfold Conn.writeFrame
  rw [writeFrame_legal hf, hc]
  rfl

theorem run_takeOne (p : Personality) {c : Conn} (h : Ready c) :
    run (Conn.step p) c takeOne = some { c with
      accepted := c.accepted ++ [1], state := .burst, sender := .flush [1], depth := c.depth + 1 } := by
  obtain ⟨hs, hi, hw, he, -⟩ := h
  rcases hs with hs | hs <;>
    simp [takeOne, Conn.step, Conn.write, Conn.writeSend, Conn.takeItem, Conn.startBurst, Conn.timer,
      coalesceBurst, inboxCap, hs, hi, hw, he]

theorem run_flushOne (p : Personality) {c : Conn} (hs : c.sender = .flush [1]) (hc : c.connClosed = false) :
    run (Conn.step p) c flushOne = some { c with
      wire := c.wire ++ (dataFrame { apparentSize := 0 } [1]).encode [], lastActivityNs := 0
      dataSent := c.dataSent ++ [1], state := .drain, sender := .drain } := by
  have hframe := writeFrame_open (dataFrame_legal { apparentSize := 0 } [1]) [] hc
  have hone : maxPayload 0 = 1 := by decide
  simp only [flushOne, run_cons, run_nil, Conn.step, Conn.sendRound, hs, hframe, hone]
  rfl

theorem run_earlyCycle (p : Personality) {c : Conn} (h : Ready c) :
    ∃ c', run (Conn.step p) c earlyCycle = some c' ∧ Ready c' ∧ c'.depth = c.depth + 1 := by
  rw [earlyCycle, run_append, run_takeOne p h, Option.bind_some]
  exact ⟨_, run_flushOne p rfl h.conn, ⟨.inr rfl, h.inbox, h.writers, h.writeErr, h.conn⟩, rfl⟩

theorem run_earlyCycles (p : Personality) (n : Nat) :
    ∃ acts c, run (Conn.step p) {} acts = some c ∧ Ready c ∧ c.depth = n := by
  induction n with
  | zero => exact ⟨[], {}, rfl, ⟨.inl rfl, rfl, rfl, rfl, rfl⟩, rfl⟩
  | succ n ih =>
    obtain ⟨acts, c, hrun, hready, hdepth⟩ := ih
    obtain ⟨c', hcycle, hready', hdepth'⟩ := run_earlyCycle p hready
    refine ⟨acts ++ earlyCycle, c', ?_, hready', by rw [hdepth', hdepth]⟩
    rw [run_append, hrun]
    exact hcycle

/-- The depths that the sender's stack reaches in some run. -/
def depths (p : Personality) : Set Nat := { n | ∃ acts c, run (Conn.step p) {} acts = some c ∧ c.depth = n }

/-- An item in every drain phase nests the cycles beyond any bound. -/
theorem nesting_unbounded : ¬BddAbove (depths { maxBurstBytes := 524288, keepaliveIdle := 45000000000 }) := by
  rintro ⟨B, hB⟩
  obtain ⟨acts, c, hrun, -, hdepth⟩ := run_earlyCycles _ (B + 1)
  have := hB ⟨acts, c, hrun, hdepth⟩
  omega

end Daxson.Bcl
