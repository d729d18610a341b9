import Daxson.Bcl.Delivery
import Daxson.Bcl.Progress

/-! # Delivery when things fail

The two ends of `Bcl.Delivery` with failing writes and closes. A read that fails is one that never returns.
-/

open Lib (Pipe)
open Lib.Machine

namespace Daxson.Bcl

open Protocol

def PairAct.ReadsOn (x : PairAct) : Prop := x.Ends (· ≠ .recvFails)

/-- What is sent, held or queued was accepted, in this order. -/
def Selected (c : Conn) : Prop := (c.dataSent ++ (c.sender.held ++ c.inbox.flatten)).Sublist c.accepted

theorem selected_step {p : Personality} {c c' : Conn} {a : Act} (hc : Selected c) (h : c.step p a = some c') :
    Selected c' := by
  obtain ⟨fs, -, hs⟩ := step_sends h
  unfold Selected at hc ⊢
  cases hs with
  | stay _ hdata hview =>
    obtain ⟨ha, hd, hh, hq, -⟩ := sendView_eq hview
    rw [ha, hd, hh, hq]
    exact hc
  | accept b hview =>
    obtain ⟨ha, hd, hh, hq, -⟩ := sendView_eq hview
    have hmore := hc.append (List.Sublist.refl b)
    rw [ha, hd, hh, hq]
    simpa [Conn.sendView] using hmore
  | take b q hbq hview =>
    obtain ⟨ha, hd, hh, hq, -⟩ := sendView_eq hview
    rw [ha, hd, hh, hq]
    rw [hbq] at hc
    simpa [Conn.sendView] using hc
  | send d x rest _ _ _ _ hheld hview =>
    obtain ⟨ha, hd, hh, hq, -⟩ := sendView_eq hview
    rw [ha, hd, hh, hq]
    rw [hheld] at hc
    simpa [Conn.sendView] using hc
  | drop _ hview =>
    -- What is given up leaves the rest in its order.
    obtain ⟨ha, hd, hh, hq, -⟩ := sendView_eq hview
    rw [ha, hd, hh, hq]
    apply List.Sublist.trans _ hc
    exact (List.Sublist.refl _).append (List.sublist_append_right _ _)

structure EndInv (c : Conn) : Prop where
  selected : Selected c
  accounted : Accounted c

theorem endInv_step {p : Personality} {c c' : Conn} {a : Act} (hc : EndInv c) (h : c.step p a = some c') : EndInv c' :=
  ⟨selected_step hc.selected h, accounted_step hc.accounted h⟩

/-- What the reader `d` has of the writer `c`, whatever has failed. -/
structure Survives (c d : Conn) : Prop where
  /-- What is returned was sent, without gaps. -/
  sent : d.returned <+: c.dataSent
  /-- What was sent was accepted, in this order and at most once. -/
  ordered : c.dataSent.Sublist c.accepted
  /-- What is missing was given up by the sender, or is still with it. -/
  missing : (c.dataSent ++ c.dropped ++ c.sender.held ++ c.inbox.flatten).Perm c.accepted
  whole : c.dropped = [] → d.returned <+: c.accepted

theorem survives_of_link {c d : Conn} {p : Pipe UInt8} (hc : EndInv c) (h : Link c p d) : Survives c d := by
  obtain ⟨done, rest, hl⟩ := h
  have hsent : d.returned <+: c.dataSent := by
    rw [hl.data, ← hl.got, List.append_assoc]
    exact List.prefix_append _ _
  refine ⟨hsent, (List.sublist_append_left _ _).trans hc.selected, hc.accounted.all, fun hnone => ?_⟩
  rw [hc.accounted.order hnone]
  exact hsent.trans (List.prefix_append _ _)

/-- **Delivery when things fail.** -/
theorem pair_survives (pa pb : Personality) (acts : List PairAct) (s : Pair) (hreads : ∀ x ∈ acts, x.ReadsOn)
    (hrun : run (Pair.step pa pb) {} acts = some s) : Survives s.a s.b ∧ Survives s.b s.a := by
  have hfresh : EndInv {} := ⟨.refl _, .refl _, fun _ => rfl⟩
  have hinv : PairInv EndInv s := pairInv_run (fun hc _ h => endInv_step hc h) id hfresh hreads hrun
  exact ⟨survives_of_link hinv.a hinv.toB, survives_of_link hinv.b hinv.toA⟩

/-- The flush of the first burst fails. The second gets through, and its sender is closed before it is read. -/
def firstBurstLost : List PairAct :=
  [.onA (.write [1]), .onA (.writeSend 0), .onA .takeItem, .onA .startBurst, .onA (.write [2]), .onA (.writeSend 0),
    .onA .timer, .onA (.sendRound { apparentSize := 100, fault := some .closed }), .onA .takeItem, .onA .startBurst,
    .onA .timer,
    .onA (.sendRound { apparentSize := 100 }), .onA .cancel, .onA .closeConn,
    .onB (.read 4), .onB (.recv [1, 0, 0, 0, 0, 0, 0, 0, 1, 0, 0] 0), .onB (.recv [2] 0)]

theorem pair_survives_first_burst_lost :
    ∃ s, run (Pair.step plain plain) {} firstBurstLost = some s ∧ s.b.returned = [2] ∧ s.a.dropped = [1] ∧
      s.a.accepted = [1, 2] ∧ Survives s.a s.b := by
  have hends : (run (Pair.step plain plain) {} firstBurstLost).map
      (fun s => (s.b.returned, s.a.dropped, s.a.accepted)) = some ([2], [1], [1, 2]) := by
    decide +kernel
  obtain ⟨s, hrun, heq⟩ := Option.map_eq_some_iff.mp hends
  obtain ⟨hreturned, hrest⟩ := Prod.mk.inj heq
  obtain ⟨hdropped, haccepted⟩ := Prod.mk.inj hrest
  refine ⟨s, hrun, hreturned, hdropped, haccepted, (pair_survives plain plain firstBurstLost s ?_ hrun).1⟩
  simp [firstBurstLost, PairAct.ReadsOn, PairAct.Ends]

end Daxson.Bcl
