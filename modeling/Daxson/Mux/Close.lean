import Daxson.Lib.Machine
import Daxson.Mux.Relay

/-! # Relay and its Close calls

`Close` ends both directions of a connection, so it also fails the reads of the other copy.
-/

open Lib (Pipe)
open Lib.Machine

namespace Daxson.Mux

inductive Side where
  | a
  | b
  deriving DecidableEq, Repr

def Side.other : Side → Side
  | .a => .b
  | .b => .a

/-- A connection of the relay, with the peer behind it. -/
structure Endpoint where
  /-- What the peer sends. -/
  inbound : Pipe UInt8 := {}
  /-- What is written to the peer. -/
  outbound : Pipe UInt8 := {}
  /-- The peer has ended its sending direction. -/
  ended : Bool := false
  closed : Bool := false
  deriving DecidableEq, Repr

structure Relaying where
  conn : Side → Endpoint
  /-- The goroutine that copies to a side, from the other one. -/
  copy : Side → Copy

/-- The start of the two copies. `buffered` is empty but in the HTTP proxy. -/
def Relaying.start (buffered : Bytes) : Relaying where
  conn
    | .a => { outbound := ({} : Pipe UInt8).push buffered }
    | .b => { inbound := { sent := buffered, read := buffered.length } }
  copy := fun _ => .reading

inductive RelayingAct where
  | send (p : Side) (chunk : Bytes)
  | endSending (p : Side)
  | receive (p : Side) (chunk : Bytes)
  | copy (d : Side) (x : CopyAct)
  | close (d : Side)
  deriving DecidableEq, Repr

/-- What a copy between two connections can meet: only a closed connection fails. -/
def CopyAct.Possible (src dst : Endpoint) : CopyAct → Prop
  | .read _ => src.closed = false
  | .stop => src.closed = true ∨ src.ended = true ∧ src.inbound.unread = []
  | .write o => dst.closed = true ∧ o.err ≠ none ∨ dst.closed = false ∧ o = .full

instance (src dst : Endpoint) (x : CopyAct) : Decidable (x.Possible src dst) := by
  cases x <;> unfold CopyAct.Possible <;> infer_instance

def Relaying.setConn (p : Side) (e : Endpoint) (s : Relaying) : Relaying :=
  { s with conn := Function.update s.conn p e }

def Relaying.step (s : Relaying) : RelayingAct → Option Relaying
  | .send p chunk =>
    if (s.conn p).ended = true ∨ chunk = [] then none
    else some (s.setConn p { s.conn p with inbound := (s.conn p).inbound.push chunk })
  | .endSending p => some (s.setConn p { s.conn p with ended := true })
  | .receive p chunk =>
    ((s.conn p).outbound.pull chunk).map fun out => s.setConn p { s.conn p with outbound := out }
  | .copy d x =>
    if x.Possible (s.conn d.other) (s.conn d) then
      ((s.copy d).step (s.conn d.other).inbound (s.conn d).outbound x).map fun (c, src, dst) =>
        { (s.setConn d.other { s.conn d.other with inbound := src }).setConn d { s.conn d with outbound := dst } with
          copy := Function.update s.copy d c }
    else none
  | .close d =>
    if s.copy d = .done ∧ (s.conn d).closed = false then some (s.setConn d { s.conn d with closed := true })
    else none

/-- Both copies have closed their destination and sent on `done`. -/
def Relaying.Returned (s : Relaying) : Prop := ∀ d, (s.conn d).closed = true

/-- All that a peer has sent is written to the other, which gets it as it keeps reading. -/
def Relaying.Lossless (s : Relaying) : Prop :=
  ∀ d, (s.conn d).outbound.sent = (s.conn d.other).inbound.sent

/-- No byte is left on the connection when it is closed, and none comes later. -/
def Harmless (s : Relaying) : RelayingAct → Prop
  | .close d => (s.conn d).inbound.unread = []
  | .send p _ => (s.conn p).closed = false
  | _ => True

instance (s : Relaying) (x : RelayingAct) : Decidable (Harmless s x) := by
  cases x <;> unfold Harmless <;> infer_instance

/-- The same for one of the connections. -/
def HarmlessAt (p : Side) (s : Relaying) : RelayingAct → Prop
  | .close d => d = p → (s.conn d).inbound.unread = []
  | .send q _ => q = p → (s.conn q).closed = false
  | _ => True

instance (p : Side) (s : Relaying) (x : RelayingAct) : Decidable (HarmlessAt p s x) := by
  cases x <;> unfold HarmlessAt <;> infer_instance

theorem harmless_iff (s : Relaying) (x : RelayingAct) : Harmless s x ↔ ∀ p, HarmlessAt p s x := by
  cases x <;> simp [Harmless, HarmlessAt]

/-! ## One direction -/

/-- The copy has written what it read, but for the piece in its hands. -/
def Carried (got wrote : Bytes) : Copy → Prop
  | .writing buf => wrote ++ buf = got
  | _ => wrote = got

theorem carried_step {c c' : Copy} {src src' dst dst' : Pipe UInt8} {x : CopyAct}
    (h : c.step src dst x = some (c', src', dst')) (hok : ∀ o, x = .write o → o = .full)
    (hc : Carried src.got dst.sent c) : Carried src'.got dst'.sent c' := by
  cases copyStep_of_step h with
  | read chunk src' hsent hgot =>
    rw [hgot]
    exact congrArg (· ++ chunk) hc
  | stop => exact hc
  | write buf o =>
    obtain rfl := hok o rfl
    exact hc

structure Direction (s : Relaying) (d : Side) : Prop where
  carried : Carried (s.conn d.other).inbound.got (s.conn d).outbound.sent (s.copy d)
  -- Only its own copy closes a destination, so no write of the copy meets a closed connection.
  closing : (s.conn d).closed = true → s.copy d = .done

theorem conn_setConn (s : Relaying) (p q : Side) (e : Endpoint) :
    (s.setConn p e).conn q = if q = p then e else s.conn q :=
  Function.update_apply _ _ _ _

theorem other_ne (d : Side) : d.other ≠ d := by cases d <;> decide

theorem direction_setConn {s : Relaying} {p : Side} {e : Endpoint} (hgot : e.inbound.got = (s.conn p).inbound.got)
    (hsent : e.outbound.sent = (s.conn p).outbound.sent) (hclosed : e.closed = true → s.copy p = .done)
    (h : ∀ d, Direction s d) (d : Side) : Direction (s.setConn p e) d where
  carried := by
    have hg : ((s.setConn p e).conn d.other).inbound.got = (s.conn d.other).inbound.got := by
      rw [conn_setConn]
      split_ifs with hp
      · rw [hgot, hp]
      · rfl
    have hw : ((s.setConn p e).conn d).outbound.sent = (s.conn d).outbound.sent := by
      rw [conn_setConn]
      split_ifs with hp
      · rw [hsent, hp]
      · rfl
    rw [hg, hw]
    exact (h d).carried
  closing := by
    rw [conn_setConn]
    split_ifs with hp
    · intro hc
      exact hp ▸ hclosed hc
    · exact (h d).closing

theorem forall_side {P : Side → Prop} (d : Side) : (∀ e, P e) ↔ P d ∧ P d.other := by
  constructor
  · intro h
    exact ⟨h d, h d.other⟩
  · rintro ⟨hd, ho⟩ e
    cases d <;> cases e <;> assumption

theorem step_copy_inv {s s' : Relaying} {d : Side} {x : CopyAct} (h : s.step (.copy d x) = some s') :
    x.Possible (s.conn d.other) (s.conn d) ∧ s.copy d ≠ .done ∧
      ∃ c src dst, (s.copy d).step (s.conn d.other).inbound (s.conn d).outbound x = some (c, src, dst) ∧
        s'.conn d = { s.conn d with outbound := dst } ∧
        s'.conn d.other = { s.conn d.other with inbound := src } ∧
        s'.copy d = c ∧ s'.copy d.other = s.copy d.other := by
  simp only [Relaying.step] at h
  split_ifs at h with hx
  obtain ⟨⟨c, src, dst⟩, hcopy, rfl⟩ := Option.map_eq_some_iff.mp h
  have hdone : s.copy d ≠ .done := by
    intro hd
    rw [hd] at hcopy
    cases hcopy
  refine ⟨hx, hdone, c, src, dst, hcopy, ?_, ?_, ?_, ?_⟩
  · simp [conn_setConn]
  · simp [conn_setConn, other_ne]
  · exact Function.update_self _ _ _
  · exact Function.update_of_ne (other_ne d) _ _

theorem direction_copy {s s' : Relaying} {d : Side} {x : CopyAct} (h : ∀ d, Direction s d)
    (hstep : s.step (.copy d x) = some s') : ∀ e, Direction s' e := by
  obtain ⟨hx, hdone, c, src, dst, hcopy, hd, ho, hc, hco⟩ := step_copy_inv hstep
  have hopen : (s.conn d).closed ≠ true := fun hcl => hdone ((h d).closing hcl)
  have hoo : d.other.other = d := by cases d <;> rfl
  rw [forall_side d]
  constructor
  · constructor
    · rw [hd, ho, hc]
      apply carried_step hcopy _ (h d).carried
      rintro o rfl
      rcases hx with ⟨hcl, -⟩ | ⟨-, hfull⟩
      · exact absurd hcl hopen
      · exact hfull
    · rw [hd]
      intro hcl
      exact absurd hcl hopen
  · constructor
    · have := (h d.other).carried
      rw [hoo] at this ⊢
      rw [hd, ho, hco]
      exact this
    · rw [ho, hco]
      exact (h d.other).closing

theorem direction_step (s : Relaying) (x : RelayingAct) (s' : Relaying) (h : ∀ d, Direction s d)
    (hstep : s.step x = some s') : ∀ d, Direction s' d := by
  cases x with
  | send p chunk =>
    simp only [Relaying.step] at hstep
    split_ifs at hstep
    obtain rfl := Option.some.inj hstep
    exact direction_setConn (Pipe.got_push _ _) rfl (h p).closing h
  | endSending p =>
    obtain rfl := Option.some.inj hstep
    exact direction_setConn rfl rfl (h p).closing h
  | receive p chunk =>
    obtain ⟨out, hout, rfl⟩ := Option.map_eq_some_iff.mp hstep
    exact direction_setConn rfl (Pipe.pull_eq_some hout).1 (h p).closing h
  | copy d x => exact direction_copy h hstep
  | close d =>
    simp only [Relaying.step] at hstep
    split_ifs at hstep with hd
    obtain rfl := Option.some.inj hstep
    exact direction_setConn rfl rfl (fun _ => hd.1) h

/-! ## What a Close leaves behind -/

/-- Nothing is left unread on a closed connection. -/
def Endpoint.Drained (e : Endpoint) : Prop := e.closed = true → e.inbound.unread = []

def Relaying.Drained (s : Relaying) : Prop := ∀ p, (s.conn p).Drained

theorem drained_setConn {s : Relaying} {q : Side} {e : Endpoint} {good : Prop}
    (h : e.Drained ↔ (s.conn q).Drained ∧ good) (p : Side) :
    ((s.setConn q e).conn p).Drained ↔ (s.conn p).Drained ∧ (q = p → good) := by
  rw [conn_setConn]
  by_cases hp : p = q
  · subst hp
    simpa using h
  · rw [if_neg hp]
    simp [Ne.symm hp]

theorem step_source {c c' : Copy} {src src' dst dst' : Pipe UInt8} {x : CopyAct}
    (h : c.step src dst x = some (c', src', dst')) (hx : ∀ chunk, x ≠ .read chunk) : src' = src := by
  cases copyStep_of_step h with
  | read chunk => exact absurd rfl (hx chunk)
  | stop => rfl
  | write buf o => rfl

theorem step_source_sent {c c' : Copy} {src src' dst dst' : Pipe UInt8} {x : CopyAct}
    (h : c.step src dst x = some (c', src', dst')) : src'.sent = src.sent := by
  cases copyStep_of_step h with
  | read chunk src' hsent => exact hsent
  | stop => rfl
  | write => rfl

theorem drained_copy {s s' : Relaying} {d : Side} {x : CopyAct} (hstep : s.step (.copy d x) = some s') :
    ∀ p, (s'.conn p).Drained ↔ (s.conn p).Drained := by
  obtain ⟨hx, -, c, src, dst, hcopy, hd, ho, -, -⟩ := step_copy_inv hstep
  -- A closed connection cannot be read, so what is unread on it stays.
  have hother : (s'.conn d.other).Drained ↔ (s.conn d.other).Drained := by
    rw [ho]
    cases hcl : (s.conn d.other).closed with
    | false => simp [Endpoint.Drained, hcl]
    | true =>
      have hsrc := step_source hcopy (by
        rintro chunk rfl
        exact absurd hx (by simp [CopyAct.Possible, hcl]))
      rw [hsrc]
  have hself : (s'.conn d).Drained ↔ (s.conn d).Drained := by rw [hd]; rfl
  exact (forall_side d).mpr ⟨hself, hother⟩

theorem drainedAt_step (p : Side) (s : Relaying) (x : RelayingAct) (s' : Relaying) (hstep : s.step x = some s') :
    (s'.conn p).Drained ↔ (s.conn p).Drained ∧ HarmlessAt p s x := by
  cases x with
  | send q chunk =>
    simp only [Relaying.step] at hstep
    split_ifs at hstep with hq
    obtain rfl := Option.some.inj hstep
    apply drained_setConn
    have hchunk : chunk ≠ [] := fun h => hq (Or.inr h)
    cases hc : (s.conn q).closed <;> simp [Endpoint.Drained, Pipe.unread_push, hc, hchunk]
  | endSending q =>
    obtain rfl := Option.some.inj hstep
    refine (drained_setConn (?_ : _ ↔ _ ∧ True) p).trans ?_
    · simp [Endpoint.Drained]
    · simp [HarmlessAt]
  | receive q chunk =>
    obtain ⟨out, hout, rfl⟩ := Option.map_eq_some_iff.mp hstep
    refine (drained_setConn (?_ : _ ↔ _ ∧ True) p).trans ?_
    · simp [Endpoint.Drained]
    · simp [HarmlessAt]
  | copy d x => simp only [drained_copy hstep, HarmlessAt, and_true]
  | close d =>
    simp only [Relaying.step] at hstep
    split_ifs at hstep with hd
    obtain rfl := Option.some.inj hstep
    apply drained_setConn
    simp [Endpoint.Drained, hd.2]

theorem drained_step (s : Relaying) (x : RelayingAct) (s' : Relaying) (hstep : s.step x = some s') :
    s'.Drained ↔ s.Drained ∧ Harmless s x := by
  unfold Relaying.Drained
  rw [harmless_iff, ← forall_and]
  exact forall_congr' fun p => drainedAt_step p s x s' hstep

theorem wrote_all_iff {s : Relaying} {d : Side} (h : Direction s d) (hret : s.Returned) :
    (s.conn d).outbound.sent = (s.conn d.other).inbound.sent ↔ (s.conn d.other).Drained := by
  have hwrote : (s.conn d).outbound.sent = (s.conn d.other).inbound.got := by
    have := h.carried
    rw [h.closing (hret d)] at this
    exact this
  unfold Endpoint.Drained
  simp only [hwrote, hret d.other, Pipe.unread_eq_nil_iff, forall_const]

theorem lossless_iff {s : Relaying} (h : ∀ d, Direction s d) (hret : s.Returned) : s.Lossless ↔ s.Drained := by
  unfold Relaying.Lossless Relaying.Drained
  constructor
  · intro hl p
    have := (wrote_all_iff (h p.other) hret).mp (hl p.other)
    cases p <;> exact this
  · exact fun hd d => (wrote_all_iff (h d) hret).mpr (hd d.other)

theorem Direction.wrote_first {s : Relaying} {d : Side} (h : Direction s d) :
    (s.conn d).outbound.sent <+: (s.conn d.other).inbound.sent := by
  have hgot : (s.conn d).outbound.sent <+: (s.conn d.other).inbound.got := by
    have hc := h.carried
    cases hcopy : s.copy d with
    | writing buf =>
      rw [hcopy] at hc
      exact ⟨buf, hc⟩
    | _ =>
      rw [hcopy] at hc
      exact hc ▸ List.prefix_rfl
  exact hgot.trans (Pipe.got_isPrefix_sent _)

theorem direction_start (buffered : Bytes) (d : Side) : Direction (Relaying.start buffered) d where
  carried := by cases d <;> simp [Relaying.start, Carried, Side.other, Pipe.got]
  closing := by cases d <;> simp [Relaying.start]

theorem drained_start (buffered : Bytes) : (Relaying.start buffered).Drained := by
  intro p
  cases p <;> simp [Relaying.start, Endpoint.Drained]

/-- What a peer sends in a step. -/
def RelayingAct.sentBy (p : Side) : RelayingAct → Bytes
  | .send q chunk => if q = p then chunk else []
  | _ => []

theorem sent_setConn {s : Relaying} {q : Side} {e : Endpoint} (h : e.inbound = (s.conn q).inbound) (p : Side) :
    ((s.setConn q e).conn p).inbound.sent = (s.conn p).inbound.sent := by
  rw [conn_setConn]
  split_ifs with hp
  · rw [h, hp]
  · rfl

theorem sent_step {s s' : Relaying} {x : RelayingAct} (p : Side) (hstep : s.step x = some s') :
    (s'.conn p).inbound.sent = (s.conn p).inbound.sent ++ x.sentBy p := by
  cases x with
  | send q chunk =>
    simp only [Relaying.step] at hstep
    split_ifs at hstep
    obtain rfl := Option.some.inj hstep
    rw [conn_setConn, RelayingAct.sentBy]
    by_cases hp : p = q
    · subst hp
      simp
    · simp [hp, Ne.symm hp]
  | endSending q =>
    obtain rfl := Option.some.inj hstep
    exact (sent_setConn (by rfl) p).trans (List.append_nil _).symm
  | receive q chunk =>
    obtain ⟨out, hout, rfl⟩ := Option.map_eq_some_iff.mp hstep
    exact (sent_setConn (by rfl) p).trans (List.append_nil _).symm
  | copy d x =>
    obtain ⟨-, -, c, src, dst, hcopy, hd, ho, -, -⟩ := step_copy_inv hstep
    have hall : ∀ p, (s'.conn p).inbound.sent = (s.conn p).inbound.sent := by
      rw [forall_side d, hd, ho]
      exact ⟨rfl, step_source_sent hcopy⟩
    exact (hall p).trans (List.append_nil _).symm
  | close d =>
    simp only [Relaying.step] at hstep
    split_ifs at hstep
    obtain rfl := Option.some.inj hstep
    exact (sent_setConn (by rfl) p).trans (List.append_nil _).symm

theorem sent_run (p : Side) (acts : List RelayingAct) {s t : Relaying} (hrun : run Relaying.step s acts = some t) :
    (t.conn p).inbound.sent = (s.conn p).inbound.sent ++ acts.flatMap (RelayingAct.sentBy p) := by
  induction acts generalizing s with
  | nil =>
    obtain rfl := Option.some.inj hrun
    simp
  | cons x acts ih =>
    rw [run_cons, Option.bind_eq_some_iff] at hrun
    obtain ⟨s₁, hstep, hrun⟩ := hrun
    rw [ih hrun, sent_step p hstep, List.flatMap_cons, List.append_assoc]

theorem one_way_iff (buffered : Bytes) (acts : List RelayingAct) (s : Relaying) (d : Side)
    (hrun : run Relaying.step (Relaying.start buffered) acts = some s) (hret : s.Returned) :
    (s.conn d).outbound.sent = (s.conn d.other).inbound.sent ↔
      AllSteps Relaying.step (HarmlessAt d.other) (Relaying.start buffered) acts := by
  have hdir := run_invariant direction_step acts _ s (direction_start buffered) hrun
  rw [wrote_all_iff (hdir d) hret, run_iff_allSteps (drainedAt_step d.other) acts _ s hrun]
  exact and_iff_right (drained_start buffered d.other)

/-- `Relay` loses nothing exactly if no `Close` came before the bytes of the peer it cuts off. -/
theorem relay_lossless_iff (buffered : Bytes) (acts : List RelayingAct) (s : Relaying)
    (hrun : run Relaying.step (Relaying.start buffered) acts = some s) (hret : s.Returned) :
    s.Lossless ↔ AllSteps Relaying.step Harmless (Relaying.start buffered) acts := by
  have hdir := run_invariant direction_step acts _ s (direction_start buffered) hrun
  rw [lossless_iff hdir hret, run_iff_allSteps drained_step acts _ s hrun]
  exact and_iff_right (drained_start buffered)

/-- Both peers send and end before the first copy closes. -/
def bothEnd : List RelayingAct :=
  [.send .a [2, 3], .endSending .a, .send .b [1], .endSending .b, .copy .a (.read [1]), .copy .b (.read [2, 3]),
    .copy .a (.write .full), .copy .a .stop, .close .a, .copy .b (.write .full), .copy .b .stop, .close .b]

theorem relay_lossless_both_end :
    ∃ s, run Relaying.step (Relaying.start []) bothEnd = some s ∧ s.Returned ∧ s.Lossless := by
  have hruns : (run Relaying.step (Relaying.start []) bothEnd).map
      (fun s => ((s.conn .a).closed, (s.conn .b).closed)) = some (true, true) := by
    decide +kernel
  obtain ⟨s, hs, heq⟩ := Option.map_eq_some_iff.mp hruns
  have hret : s.Returned := (forall_side .a).mpr (Prod.mk.inj heq)
  exact ⟨s, hs, hret, (relay_lossless_iff [] bothEnd s hs hret).mpr (by decide +kernel)⟩

/-- The peer behind `b` sends a byte and ends. -/
def oneEnds : List RelayingAct :=
  [.send .a [2, 3], .endSending .a, .send .b [1], .endSending .b, .copy .a (.read [1]), .copy .a (.write .full),
    .copy .a .stop, .close .a, .receive .a [1], .copy .b .stop, .close .b]

theorem early_end_truncates :
    ∃ s, run Relaying.step (Relaying.start []) oneEnds = some s ∧ s.Returned ∧
      (s.conn .a).inbound.sent = [2, 3] ∧ (s.conn .b).outbound.sent = [] ∧ ¬s.Lossless := by
  have hruns : (run Relaying.step (Relaying.start []) oneEnds).map
      (fun s => (((s.conn .a).closed, (s.conn .b).closed), (s.conn .a).inbound.sent, (s.conn .b).outbound.sent)) =
        some ((true, true), [2, 3], []) := by
    decide +kernel
  obtain ⟨s, hs, heq⟩ := Option.map_eq_some_iff.mp hruns
  obtain ⟨hclosed, hrest⟩ := Prod.mk.inj heq
  obtain ⟨hin, hout⟩ := Prod.mk.inj hrest
  refine ⟨s, hs, (forall_side .a).mpr (Prod.mk.inj hclosed), hin, hout, fun hl => ?_⟩
  have := hl .b
  rw [Side.other, hin, hout] at this
  cases this

end Daxson.Mux
