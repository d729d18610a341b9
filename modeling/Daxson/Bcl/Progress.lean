import Daxson.Bcl.AfterClose
import Daxson.Bcl.Fragment

/-! # The goroutines come to an end

Each step of the sender and the keepalive uses up something that others have brought.
-/

open Lib.Machine

namespace Daxson.Bcl

open Protocol

/-! ## What is left to do -/

def Sender.work : Sender → Nat
  | .stopped => 0
  | .wait => 1
  | .think => 2
  | .drain => 3
  | .flush remaining => remaining.length + 4
  | .collect burst _ => burst.flatten.length + 5
  | .taken item => item.length + 6

def Keepalive.work : Keepalive → Nat
  | .stopped => 0
  | .wait => 1
  | .sendPing => 2
  | .checkIdle => 3

/-- A bound on the steps that the two goroutines can take. -/
def Conn.work (c : Conn) : Nat :=
  c.sender.work + c.keepalive.work + (c.inbox.flatten.length + 6 * c.inbox.length) + c.pingCh.length + c.pongCh.length

/-- The steps of the two goroutines, but for the keepalive's timer. -/
def Act.isOwn : Act → Bool
  | .takeItem | .startBurst | .takePing _ | .takePong | .timer | .senderDone | .sendRound _ | .flushed => true
  | .keepaliveCheck _ | .sendPing _ _ | .keepaliveDone => true
  | _ => false

/-- The work that an action brings, but for the bytes that a `Write` hands over. -/
def Act.given : Act → Nat
  | .writeSend _ => 6
  | .recv _ _ => 1
  | .keepaliveTimer => 2
  | _ => 0

theorem sendRound_work {c c' : Conn} {d : Round} (h : c.sendRound d = some c') :
    c'.work + 1 ≤ c.work ∧ c'.accepted = c.accepted := by
  obtain ⟨remaining, hs, hne, ⟨e, -, -, rfl⟩ | ⟨wire, -, -, -, -, rfl⟩⟩ := sendRound_inv h
  · refine ⟨?_, rfl⟩
    simp only [Conn.work, Conn.endCycle, hs, Sender.work]
    omega
  · refine ⟨?_, rfl⟩
    have hpos := maxPayload_pos d.apparentSize
    have hlen : remaining.length ≠ 0 := by
      intro hzero
      rw [List.eq_nil_of_length_eq_zero hzero] at hne
      cases hne
    simp only [Conn.work, hs, Sender.work, List.length_drop]
    omega

theorem sendPing_work {c c' : Conn} {now : Int} {fault : Option SysError} (h : c.sendPing now fault = some c') :
    c'.work + 1 ≤ c.work ∧ c'.accepted = c.accepted := by
  obtain ⟨hk, rfl⟩ := sendPing_inv h
  obtain ⟨wire, hwire⟩ := writeFrame_wire { type := typePing, payload := randomBytes 8 } [] fault
    { c with pendingPingSent := now }
  dsimp only
  rw [hwire]
  refine ⟨?_, rfl⟩
  split_ifs <;> simp only [Conn.work, hk, Keepalive.work] <;> omega

theorem takePing_work {c c' : Conn} {fault : Option SysError} (h : c.takePing fault = some c') :
    c'.work + 1 ≤ c.work ∧ c'.accepted = c.accepted := by
  obtain ⟨ping, rest, hch, -, hcases⟩ := takePing_inv h
  obtain ⟨wire, hwire⟩ :=
    writeFrame_wire { type := typePong, payload := ping.payload } [] fault { c with pingCh := rest }
  simp only [Conn.writePong, hwire] at hcases
  rcases hcases with ⟨hs, rfl⟩ | ⟨-, rfl⟩
  · refine ⟨?_, rfl⟩
    simp only [Conn.work, hch, hs, Sender.work, List.length_cons]
    omega
  · refine ⟨?_, rfl⟩
    simp only [Conn.work, hch, List.length_cons]
    omega

theorem own_work {p : Personality} {c c' : Conn} {a : Act} (ha : a.isOwn = true) (h : c.step p a = some c') :
    c'.work + 1 ≤ c.work ∧ c'.accepted = c.accepted := by
  cases step_inv h with
  | sendPing => exact sendPing_work h
  | takePing | drainPing => exact takePing_work h
  | roundFails | round => exact sendRound_work h
  | takeFirst item rest hin hs =>
    refine ⟨?_, rfl⟩
    rcases hs with hs | hs | hs <;> simp [Conn.work, hin, hs, Sender.work] <;> omega
  | startBurst item hs =>
    refine ⟨?_, rfl⟩
    simp [Conn.work, hs, Sender.work]
  | takeNext item rest hin burst total hs =>
    refine ⟨?_, rfl⟩
    split_ifs <;> simp [Conn.work, hin, hs, Sender.work, coalesceBurst_eq] <;> omega
  | takePong pong rest hch hs | drainPong pong rest hch hs =>
    refine ⟨?_, rfl⟩
    simp only [Conn.work, Conn.processPong, hch, hs, Sender.work, List.length_cons]
    omega
  | collected burst total hs =>
    refine ⟨?_, rfl⟩
    simp only [Conn.work, hs, Sender.work, coalesceBurst_eq]
    omega
  | drained hs | rested hs | stop _ hs | giveUp _ _ _ hs | flushed hs =>
    refine ⟨?_, rfl⟩
    simp only [Conn.work, Conn.endCycle, hs, Sender.work]
    omega
  | cut _ hs =>
    refine ⟨?_, rfl⟩
    rcases hs with hs | hs <;> simp only [Conn.work, Conn.endCycle, hs, Sender.work] <;> omega
  | keepaliveCheck now hk =>
    refine ⟨?_, rfl⟩
    split_ifs <;> simp only [Conn.work, hk, Keepalive.work] <;> omega
  | keepaliveDone hk =>
    refine ⟨?_, rfl⟩
    simp only [Conn.work, hk, Keepalive.work]
    omega
  | _ => cases ha

theorem handleFrame_work (n : Nat) (f : Frame) (c : Conn) :
    (c.handleFrame n f).work ≤ c.work + 1 ∧ (c.handleFrame n f).accepted = c.accepted := by
  unfold Conn.handleFrame
  split_ifs <;> refine ⟨?_, rfl⟩ <;> simp only [Conn.work, List.length_append, List.length_singleton] <;> omega

theorem given_work {p : Personality} {c c' : Conn} {a : Act} (ha : a.isOwn = false) (h : c.step p a = some c') :
    c'.work + c.accepted.length ≤ c.work + c'.accepted.length + a.given := by
  cases step_inv h with
  | write b =>
    unfold Conn.write
    split_ifs <;> exact Nat.le_add_right _ _
  | writeSend i b =>
    simp only [Conn.work, Act.given, List.flatten_append, List.flatten_singleton, List.length_append,
      List.length_singleton]
    omega
  | recvFrame chunk now n f =>
    obtain ⟨hwork, haccepted⟩ := handleFrame_work n f { c with lastActivityNs := now }
    have hsame : Conn.work { c with lastActivityNs := now } = c.work := rfl
    rw [haccepted]
    rw [hsame] at hwork
    simp only [Act.given]
    omega
  | keepaliveTimer hk =>
    simp only [Conn.work, Act.given, hk, Keepalive.work]
    omega
  | takeFirst | startBurst | takeNext | takePing | drainPing | takePong | drainPong | collected | drained | rested
  | stop | giveUp | cut | roundFails | round | flushed | keepaliveCheck | sendPing | keepaliveDone => cases ha
  | _ => exact Nat.le_add_right _ _

theorem work_step {p : Personality} {c c' : Conn} {a : Act} (h : c.step p a = some c') :
    (c'.work : Int) - c'.accepted.length + (if a.isOwn then 1 else 0 : Nat) ≤ c.work - c.accepted.length + a.given := by
  cases ha : a.isOwn with
  | true =>
    obtain ⟨hwork, haccepted⟩ := own_work ha h
    rw [haccepted]
    simp only [if_true]
    omega
  | false =>
    have hwork := given_work ha h
    simp only [Bool.false_eq_true, if_false]
    omega

/-! ## What becomes of the accepted bytes -/

/-- Every accepted byte is sent, given up, held or queued, and in order as long as none is given up. -/
structure Accounted (c : Conn) : Prop where
  all : (c.dataSent ++ c.dropped ++ c.sender.held ++ c.inbox.flatten).Perm c.accepted
  order : c.dropped = [] → c.accepted = c.dataSent ++ (c.sender.held ++ c.inbox.flatten)

theorem all_step {c c' : Conn} {a : Act} {fs : List Sent} (hs : SendStep c a c' fs)
    (h : (c.dataSent ++ c.dropped ++ c.sender.held ++ c.inbox.flatten).Perm c.accepted) :
    (c'.dataSent ++ c'.dropped ++ c'.sender.held ++ c'.inbox.flatten).Perm c'.accepted := by
  rw [List.perm_iff_count] at h ⊢
  intro b
  have hb := h b
  cases hs with
  | stay _ hdata hview =>
    obtain ⟨ha, hd, hh, hq, hdr⟩ := sendView_eq hview
    rw [ha, hd, hh, hq, hdr]
    exact hb
  | accept b' hview =>
    obtain ⟨ha, hd, hh, hq, hdr⟩ := sendView_eq hview
    rw [ha, hd, hh, hq, hdr]
    simp only [Conn.sendView, List.count_append] at hb ⊢
    omega
  | take b' q hbq hview =>
    obtain ⟨ha, hd, hh, hq, hdr⟩ := sendView_eq hview
    rw [ha, hd, hh, hq, hdr]
    simp only [Conn.sendView, hbq, List.count_append] at hb ⊢
    omega
  | send d x rest _ _ _ _ hheld hview =>
    obtain ⟨ha, hd, hh, hq, hdr⟩ := sendView_eq hview
    rw [ha, hd, hh, hq, hdr]
    simp only [Conn.sendView, hheld, List.count_append] at hb ⊢
    omega
  | drop _ hview =>
    obtain ⟨ha, hd, hh, hq, hdr⟩ := sendView_eq hview
    rw [ha, hd, hh, hq, hdr]
    simp only [Conn.sendView, List.count_append, List.count_nil] at hb ⊢
    omega

theorem dropped_step {c c' : Conn} {a : Act} {fs : List Sent} (hs : SendStep c a c' fs) : c.dropped <+: c'.dropped := by
  cases hs with
  | stay _ _ hview | accept _ hview | take _ _ _ hview | send _ _ _ _ _ _ _ _ hview | drop _ hview =>
    rw [(sendView_eq hview).2.2.2.2]
    simp [Conn.sendView]

theorem accounted_step {p : Personality} {c c' : Conn} {a : Act} (hc : Accounted c) (h : c.step p a = some c') :
    Accounted c' := by
  obtain ⟨fs, -, hs⟩ := step_sends h
  refine ⟨all_step hs hc.all, fun hnil => ?_⟩
  have hnone : c.dropped = [] := by
    have hpre := dropped_step hs
    rw [hnil] at hpre
    exact List.prefix_nil.mp hpre
  rcases inOrder_or_drop hs (hc.order hnone) with ⟨horder, -⟩ | ⟨-, hview⟩
  · exact horder
  · -- Nothing was held, so nothing is given up.
    obtain ⟨ha, hd, hh, hq, hdr⟩ := sendView_eq hview
    rw [hnil] at hdr
    have hheld : c.sender.held = [] := (List.append_eq_nil_iff.mp hdr.symm).2
    have horder := hc.order hnone
    rw [hheld] at horder
    rw [ha, hd, hh, hq]
    exact horder

/-! ## Nothing left to do -/

/-- The sender stops only when it sees that the context is done, which it then stays. -/
def StopsCanceled (c : Conn) : Prop := c.sender = .stopped → c.canceled = true

theorem sender_stops {p : Personality} {c c' : Conn} {a : Act} (h : c.step p a = some c') (hs : c'.sender = .stopped) :
    c.sender = .stopped ∨ c.canceled = true := by
  cases step_inv h with
  | stop hcancel => exact .inr hcancel
  | write b =>
    left
    unfold Conn.write at hs
    split_ifs at hs <;> exact hs
  | recvFrame chunk now n f =>
    have hview := handleFrame_writeView n f { c with lastActivityNs := now }
    simp only [Conn.writeView, Prod.mk.injEq] at hview
    exact .inl (hview.1.symm.trans hs)
  | takePing fault ping rest => exact .inl ((writeFrame_sender _ [] fault { c with pingCh := rest }).symm.trans hs)
  | sendPing now fault => exact .inl ((writeFrame_sender _ [] fault { c with pendingPingSent := now }).symm.trans hs)
  | takeNext =>
    dsimp only at hs
    split_ifs at hs
  | takeFirst | startBurst | drainPing | drainPong | collected | drained | rested | giveUp | cut | roundFails | round
  | flushed => cases hs
  | _ => exact .inl hs

theorem stopsCanceled_step {p : Personality} {c c' : Conn} {a : Act} (hc : StopsCanceled c) (h : c.step p a = some c') :
    StopsCanceled c' := by
  intro hs
  have hcanceled : c.canceled = true := (sender_stops h hs).elim hc id
  cases step_closing h with
  | keep hkeep =>
    simp only [Conn.closing, Prod.mk.injEq] at hkeep
    exact hkeep.1.trans hcanceled
  | cancel heq | conn _ heq | done _ _ heq =>
    subst heq
    first
    | rfl
    | exact hcanceled

section Stuck

variable {p : Personality} {c : Conn} (hstuck : ∀ a : Act, a.isOwn = true → c.step p a = none)

include hstuck

theorem waits_of_stuck (hlive : c.sender ≠ .stopped) : c.sender = .wait ∧ c.inbox = [] ∧ c.pingCh = [] := by
  have htimer := hstuck .timer rfl
  simp only [Conn.step, Conn.timer] at htimer
  cases hs : c.sender with
  | stopped => exact absurd hs hlive
  | taken item =>
    have hstart := hstuck .startBurst rfl
    simp [Conn.step, Conn.startBurst, hs] at hstart
  | collect burst total | drain | think =>
    rw [hs] at htimer
    cases htimer
  | flush remaining =>
    cases remaining with
    | nil =>
      have hflushed := hstuck .flushed rfl
      simp [Conn.step, Conn.flushed, hs] at hflushed
    | cons b rest =>
      have hround := hstuck (.sendRound { apparentSize := 0 }) rfl
      simp only [Conn.step, Conn.sendRound, hs, List.isEmpty_cons, Bool.false_eq_true, if_false] at hround
      split at hround <;> cases hround
  | wait =>
    refine ⟨rfl, ?_, ?_⟩
    · have htake := hstuck .takeItem rfl
      cases hin : c.inbox with
      | nil => rfl
      | cons item rest => simp [Conn.step, Conn.takeItem, hin, hs] at htake
    · have htake := hstuck (.takePing none) rfl
      cases hch : c.pingCh with
      | nil => rfl
      | cons ping rest => simp [Conn.step, Conn.takePing, hch, hs] at htake

theorem stopped_of_stuck (hcanceled : c.canceled = true) : c.sender = .stopped ∧ c.keepalive = .stopped := by
  constructor
  · by_contra hlive
    have hdone := hstuck .senderDone rfl
    simp [Conn.step, Conn.senderDone, hcanceled, (waits_of_stuck hstuck hlive).1] at hdone
  · cases hk : c.keepalive with
    | stopped => rfl
    | wait =>
      have hdone := hstuck .keepaliveDone rfl
      simp [Conn.step, Conn.keepaliveDone, hk, hcanceled] at hdone
    | checkIdle =>
      have hcheck := hstuck (.keepaliveCheck 0) rfl
      simp only [Conn.step, Conn.keepaliveCheck, hk] at hcheck
      split_ifs at hcheck
    | sendPing =>
      have hping := hstuck (.sendPing 0 none) rfl
      simp only [Conn.step, Conn.sendPing, hk] at hping
      split at hping <;> cases hping

end Stuck

/-- Three bytes in two writes, of which the second comes while the first waits for more. -/
def twoWrites : List Act :=
  [.write [7, 8], .writeSend 0, .takeItem, .startBurst, .write [9], .writeSend 0, .takeItem, .timer,
    .sendRound { apparentSize := 13 }, .sendRound { apparentSize := 13 }, .flushed, .timer, .timer]

def afterTwoWrites : Conn where
  wire :=
    Frame.encode { type := typeData, payload := [7, 8] } [] ++ Frame.encode { type := typeData, payload := [9] } []
  accepted := [7, 8, 9]
  dataSent := [7, 8, 9]

end Daxson.Bcl
