import Daxson.Bcl.Proofs
import Daxson.Lib.Machine

/-! # Holes in the stream

The sender goes on after a failed flush and after a cancelled collection.
-/

open Lib.Machine

namespace Daxson.Bcl

open Protocol

/-- The accepted bytes are on the wire, held or queued, in this order. Once some are given up, what
is on the wire is still a prefix of them. -/
def Ordered (c : Conn) : Prop :=
  if c.dropped = [] then c.accepted = c.dataSent ++ (c.sender.held ++ c.inbox.flatten)
  else c.dataSent <+: c.accepted

theorem Ordered.sent {c : Conn} (h : Ordered c) : c.dataSent <+: c.accepted := by
  unfold Ordered at h
  split_ifs at h
  · exact ⟨_, h.symm⟩
  · exact h

theorem ordered_init : Ordered {} := by
  simp [Ordered, Sender.held]

/-- A DATA frame that gets out finds that the sender has given up nothing. -/
def NoneGivenUp (c : Conn) (a : Act) : Prop :=
  ∀ d, a = .sendRound d → c.connClosed = false → d.fault = none → c.dropped = []

theorem prefix_step {c c' : Conn} {a : Act} {fs : List Sent} (hs : SendStep c a c' fs)
    (hno : ∀ d, a = .sendRound d → c.connClosed = false → d.fault = none → False) (h : c.dataSent <+: c.accepted) :
    c'.dataSent <+: c'.accepted ∧ c.dropped <+: c'.dropped := by
  cases hs with
  | stay _ hdata hview =>
    obtain ⟨ha, hd, -, -, hdr⟩ := sendView_eq hview
    rw [ha, hd, hdr]
    exact ⟨h, List.prefix_refl _⟩
  | accept b hview =>
    obtain ⟨ha, hd, -, -, hdr⟩ := sendView_eq hview
    rw [ha, hd, hdr]
    exact ⟨h.trans (List.prefix_append _ _), List.prefix_refl _⟩
  | take b q hbq hview =>
    obtain ⟨ha, hd, -, -, hdr⟩ := sendView_eq hview
    rw [ha, hd, hdr]
    exact ⟨h, List.prefix_refl _⟩
  | send d x rest ha' hopen hfault htype hheld hview => exact (hno d ha' hopen hfault).elim
  | drop hwhy hview =>
    obtain ⟨ha, hd, -, -, hdr⟩ := sendView_eq hview
    rw [ha, hd, hdr]
    exact ⟨h, List.prefix_append _ _⟩

theorem ordered_step (p : Personality) (c : Conn) (a : Act) (c' : Conn) (hc : Ordered c)
    (hgood : NoneGivenUp c a) (h : c.step p a = some c') : Ordered c' := by
  have hpre := hc.sent
  obtain ⟨fs, -, hs⟩ := step_sends h
  unfold Ordered at hc ⊢
  by_cases hnone : c.dropped = []
  · rw [if_pos hnone] at hc
    rcases inOrder_or_drop hs hc with ⟨horder, hdr⟩ | ⟨-, hview⟩
    · rw [hdr, if_pos hnone]
      exact horder
    · -- What is given up is not on the wire, and nothing else is lost.
      obtain ⟨ha, hd, hh, hq, hdr⟩ := sendView_eq hview
      rw [ha, hd, hh, hq, hdr]
      split_ifs with hnil
      · rw [List.append_eq_nil_iff] at hnil
        rw [hnil.2] at hc
        exact hc
      · exact hpre
  · have hno : ∀ d, a = .sendRound d → c.connClosed = false → d.fault = none → False :=
      fun d ha hopen hfault => hnone (hgood d ha hopen hfault)
    obtain ⟨hpre', hdr⟩ := prefix_step hs hno hpre
    have hnone' : c'.dropped ≠ [] := by
      intro hnil
      rw [hnil] at hdr
      exact hnone (List.prefix_nil.mp hdr)
    rw [if_neg hnone']
    exact hpre'

theorem no_hole_when_none_given_up (p : Personality) (acts : List Act) (c : Conn)
    (hgood : AllSteps (Conn.step p) NoneGivenUp {} acts) (hrun : run (Conn.step p) {} acts = some c) :
    c.dataSent <+: c.accepted :=
  (run_invariant_when (ordered_step p) acts {} c ordered_init hgood hrun).sent

/-- Two writes in two bursts. The flush of the first ends with `fault`. -/
def twoBursts (fault : Option SysError) : List Act :=
  [.write [1], .writeSend 0, .takeItem, .startBurst, .write [2], .writeSend 0, .timer,
    .sendRound { apparentSize := 100, fault := fault }]

theorem no_hole_two_bursts :
    ∃ c, run (Conn.step plain) {} (twoBursts none) = some c ∧ c.dataSent = [1] ∧ c.accepted = [1, 2] ∧
      c.dataSent <+: c.accepted := by
  have hruns : (run (Conn.step plain) {} (twoBursts none)).map (fun c => (c.dataSent, c.accepted)) =
      some ([1], [1, 2]) := by
    decide
  obtain ⟨c, hc, heq⟩ := Option.map_eq_some_iff.mp hruns
  obtain ⟨hsent, haccepted⟩ := Prod.mk.inj heq
  refine ⟨c, hc, hsent, haccepted, no_hole_when_none_given_up plain _ c ?_ hc⟩
  simp only [twoBursts, AllSteps, NoneGivenUp, reduceCtorEq, false_implies, implies_true, true_and, and_true]
  -- The steps before the flush leave nothing given up.
  intro c₁ h₁ c₂ h₂ c₃ h₃ c₄ h₄ c₅ h₅ c₆ h₆ c₇ h₇ d hd _ _
  obtain rfl := Option.some.inj h₁
  obtain rfl := Option.some.inj h₂
  obtain rfl := Option.some.inj h₃
  obtain rfl := Option.some.inj h₄
  obtain rfl := Option.some.inj h₅
  obtain rfl := Option.some.inj h₆
  obtain rfl := Option.some.inj h₇
  rfl

theorem failed_flush_leaves_hole :
    (run (Conn.step plain) {} (twoBursts (some .closed) ++
        [.takeItem, .startBurst, .timer, .sendRound { apparentSize := 100 }])).map
          (fun c => (c.dataSent, c.accepted)) = some ([2], [1, 2]) ∧
      ¬([2] : Bytes) <+: [1, 2] := by
  decide

end Daxson.Bcl
