import Daxson.Bcl.Proofs
import Daxson.Lib.Machine
import Daxson.Lib.Pipe

/-! # Delivery between two shaped connections

Two connections joined by two byte pipes, which hand out any pieces.
-/

open Lib (Pipe)
open Lib.Machine

namespace Daxson.Bcl

open Protocol

/-! ## The pair -/

structure Pair where
  a : Conn := {}
  b : Conn := {}
  ab : Pipe UInt8 := {}
  ba : Pipe UInt8 := {}
  deriving DecidableEq, Repr

inductive PairAct where
  | onA (act : Act)
  | onB (act : Act)
  /-- A frame that is not DATA comes into the stream to `b`, or to `a`. -/
  | injectAB (f : Frame) (pad : Bytes)
  | injectBA (f : Frame) (pad : Bytes)
  deriving DecidableEq, Repr

def emitted (c c' : Conn) : Bytes := c'.wire.drop c.wire.length

/-- The pipe after the reader's part of a step: a chunk is what comes next. -/
def consume (act : Act) (p : Pipe UInt8) : Option (Pipe UInt8) :=
  match act with
  | .recv chunk _ => p.pull chunk
  | _ => some p

def inject (f : Frame) (pad : Bytes) (p : Pipe UInt8) : Option (Pipe UInt8) :=
  if f.type = typeData then none
  else
    match Protocol.writeFrame f pad with
    | .error _ => none
    | .ok b => some (p.push b)

def Pair.step (pa pb : Personality) (s : Pair) : PairAct → Option Pair
  | .onA act =>
    match consume act s.ba, s.a.step pa act with
    | some ba, some a => some { s with a := a, ba := ba, ab := s.ab.push (emitted s.a a) }
    | _, _ => none
  | .onB act =>
    match consume act s.ab, s.b.step pb act with
    | some ab, some b => some { s with b := b, ab := ab, ba := s.ba.push (emitted s.b b) }
    | _, _ => none
  | .injectAB f pad => (inject f pad s.ab).map fun ab => { s with ab := ab }
  | .injectBA f pad => (inject f pad s.ba).map fun ba => { s with ba := ba }

/-- No write error, no read error and no `Close`. -/
def Act.Quiet : Act → Prop
  | .takePing fault => fault = none
  | .sendRound d => d.fault = none
  | .sendPing _ fault => fault = none
  | .recvFails | .cancel => False
  | _ => True

theorem Act.Quiet.ne_cancel {a : Act} (h : a.Quiet) : a ≠ .cancel := by
  rintro rfl
  exact h

theorem Act.Quiet.ne_recvFails {a : Act} (h : a.Quiet) : a ≠ .recvFails := by
  rintro rfl
  exact h

def PairAct.Ends (Q : Act → Prop) : PairAct → Prop
  | .onA act | .onB act => Q act
  | _ => True

def PairAct.Quiet (x : PairAct) : Prop := x.Ends Act.Quiet

/-! ## The sender's side -/

/-- The connection is open, and every accepted byte is on the wire, held or queued, in this order. -/
structure Flowing (c : Conn) : Prop where
  live : c.canceled = false
  conn : c.connClosed = false
  order : c.accepted = c.dataSent ++ (c.sender.held ++ c.inbox.flatten)

theorem flowing_step {p : Personality} {c c' : Conn} {a : Act} (hf : Flowing c) (hq : a.Quiet)
    (h : c.step p a = some c') : Flowing c' := by
  have hclose := step_closeView h hq.ne_cancel hf.live
  simp only [Conn.closeView, Prod.mk.injEq, hf.live, hf.conn] at hclose
  refine ⟨hclose.1, hclose.2, ?_⟩
  obtain ⟨fs, -, hs⟩ := step_sends h
  rcases inOrder_or_drop hs hf.order with ⟨horder, -⟩ | ⟨hwhy, -⟩
  · exact horder
  · -- Nothing is given up on an open connection without a write error.
    rcases hwhy with hwhy | hwhy | ⟨d, rfl, hfault⟩
    · rw [hf.live] at hwhy
      cases hwhy
    · rw [hf.conn] at hwhy
      cases hwhy
    · exact absurd hq hfault

theorem step_emits {p : Personality} {c c' : Conn} {a : Act} (h : c.step p a = some c') :
    ∃ fs : List Sent, (∀ x ∈ fs, x.1.Legal) ∧ emitted c c' = encodeAll fs ∧ c'.dataSent = c.dataSent ++ dataOf fs := by
  obtain ⟨fs, ⟨hlegal, hwire⟩, hs⟩ := step_sends h
  refine ⟨fs, hlegal, by rw [emitted, hwire, List.drop_left], ?_⟩
  cases hs with
  | stay _ hdata hview => rw [hdata, List.append_nil]; exact congrArg SendView.dataSent hview
  | accept b hview => rw [dataOf_nil, List.append_nil]; exact congrArg SendView.dataSent hview
  | take b q hbq hview => rw [dataOf_nil, List.append_nil]; exact congrArg SendView.dataSent hview
  | send d x rest ha hopen hfault htype hheld hview =>
    rw [dataOf_singleton, if_pos htype]
    exact congrArg SendView.dataSent hview
  | drop hwhy hview => rw [dataOf_nil, List.append_nil]; exact congrArg SendView.dataSent hview

/-! ## The stream between the ends -/

/-- Where the reader is: behind `done`, and inside the first frame of `rest`. -/
def ReaderAt (d : Conn) (p : Pipe UInt8) (done rest : List Sent) : Prop :=
  match d.reader with
  | .none => p.got = encodeAll done
  | .reading _ got =>
    d.readBuf = [] ∧ p.got = encodeAll done ++ got ∧ ∀ x tail, rest = x :: tail → got.length < x.1.size

/-- The pipe holds whole frames, and the data of those that are read is what `Read` has returned or
still buffers. -/
structure LinkedBy (c : Conn) (p : Pipe UInt8) (d : Conn) (done rest : List Sent) : Prop where
  legal : ∀ x ∈ done ++ rest, x.1.Legal
  sent : p.sent = encodeAll done ++ encodeAll rest
  data : c.dataSent = dataOf done ++ dataOf rest
  got : d.returned ++ d.readBuf = dataOf done
  at_ : ReaderAt d p done rest

def Link (c : Conn) (p : Pipe UInt8) (d : Conn) : Prop := ∃ done rest, LinkedBy c p d done rest

theorem link_init : Link {} {} {} :=
  ⟨[], [], by simp, rfl, rfl, rfl, rfl⟩

theorem part_isPrefix {c d : Conn} {p : Pipe UInt8} {n : Nat} {got : Bytes} {done rest : List Sent}
    (hl : LinkedBy c p d done rest) (hr : d.reader = .reading n got) : got <+: encodeAll rest := by
  have hat := hl.at_
  rw [ReaderAt, hr] at hat
  have hpre := p.got_isPrefix_sent
  rw [hat.2.1, hl.sent] at hpre
  exact (List.prefix_append_right_inj _).mp hpre

theorem readerAt_push {c d : Conn} {p : Pipe UInt8} {done rest : List Sent} (fs : List Sent) (b : Bytes)
    (hl : LinkedBy c p d done rest) : ReaderAt d (p.push b) done (rest ++ fs) := by
  have h := hl.at_
  cases hr : d.reader with
  | none =>
    rw [ReaderAt, hr] at h ⊢
    exact (Pipe.got_push b p).trans h
  | reading n got =>
    have hpre := part_isPrefix hl hr
    rw [ReaderAt, hr] at h ⊢
    obtain ⟨hbuf, hgot, hpart⟩ := h
    refine ⟨hbuf, (Pipe.got_push b p).trans hgot, ?_⟩
    intro x tail heq
    cases rest with
    | nil =>
      have hnil : got = [] := List.prefix_nil.mp hpre
      rw [hnil]
      exact frame_size_pos _
    | cons y rest =>
      obtain ⟨rfl, -⟩ := List.cons.inj heq
      exact hpart y rest rfl

theorem link_push {c c' d : Conn} {p : Pipe UInt8} {fs : List Sent} (h : Link c p d) (hlegal : ∀ x ∈ fs, x.1.Legal)
    (hdata : c'.dataSent = c.dataSent ++ dataOf fs) : Link c' (p.push (encodeAll fs)) d := by
  obtain ⟨done, rest, hl⟩ := h
  refine ⟨done, rest ++ fs, ?_, ?_, ?_, hl.got, readerAt_push fs _ hl⟩
  · intro x hx
    rw [← List.append_assoc, List.mem_append] at hx
    exact hx.elim (hl.legal x) (hlegal x)
  · simp [hl.sent]
  · rw [hdata, hl.data, dataOf_append, List.append_assoc]

theorem link_send {pe : Personality} {c c' d : Conn} {p : Pipe UInt8} {a : Act} (h : Link c p d)
    (hstep : c.step pe a = some c') : Link c' (p.push (emitted c c')) d := by
  obtain ⟨fs, hlegal, hemit, hdata⟩ := step_emits hstep
  rw [hemit]
  exact link_push h hlegal hdata

theorem link_inject {c d : Conn} {p p' : Pipe UInt8} {f : Frame} {pad : Bytes} (h : Link c p d)
    (hp : inject f pad p = some p') : Link c p' d := by
  unfold inject at hp
  split_ifs at hp with htype
  by_cases hlegal : f.Legal
  · rw [writeFrame_legal hlegal] at hp
    obtain rfl := Option.some.inj hp
    have := @link_push c c d p [(f, pad)] h (by simpa using hlegal) (by simp [dataOf_singleton, htype])
    simpa using this
  · unfold Protocol.writeFrame at hp
    split_ifs at hp with h1 h2
    exact absurd ⟨by omega, by omega⟩ hlegal

/-! ## The reader's side -/

theorem readerAt_of_readView {d d' : Conn} {p : Pipe UInt8} {done rest : List Sent} (h : d'.readView = d.readView)
    (hr : ReaderAt d p done rest) : ReaderAt d' p done rest := by
  simp only [Conn.readView, ReadView.mk.injEq] at h
  unfold ReaderAt at hr ⊢
  rw [h.1, h.2.1]
  exact hr

theorem linkedBy_read {c d d' : Conn} {p : Pipe UInt8} {n : Nat} {done rest : List Sent}
    (hl : LinkedBy c p d done rest) (h : d.read n = some d') : LinkedBy c p d' done rest := by
  have hat := hl.at_
  unfold Conn.read at h
  split at h
  · cases h
  · rename_i hr
    rw [ReaderAt, hr] at hat
    split_ifs at h with hbuf
    · -- The call goes into `ReadFrame` at a frame boundary.
      obtain rfl := Option.some.inj h
      rw [List.isEmpty_iff] at hbuf
      refine ⟨hl.legal, hl.sent, hl.data, hl.got, hbuf, by simpa using hat, ?_⟩
      intro x tail _
      exact frame_size_pos _
    · obtain rfl := Option.some.inj h
      refine ⟨hl.legal, hl.sent, hl.data, ?_, ?_⟩
      · rw [← hl.got, List.append_assoc, List.take_append_drop]
      · unfold ReaderAt
        rw [hr]
        exact hat

theorem chunk_isPrefix {x : Sent} {tail : List Sent} {got chunk : Bytes} {k : Nat} (hlegal : x.1.Legal)
    (hlt : got.length < x.1.size) (hpre : got ++ chunk <+: encodeAll (x :: tail)) (hneed : scan got = .need k)
    (hle : chunk.length ≤ k) : got ++ chunk <+: x.1.encode x.2 := by
  rw [encodeAll_cons] at hpre
  have hgot : got <+: x.1.encode x.2 :=
    List.prefix_of_prefix_length_le ((List.prefix_append got chunk).trans hpre) (List.prefix_append _ _)
      (by rw [encode_length]; omega)
  obtain ⟨k', hscan, -, hk'⟩ := scan_take hlegal x.2 hlt
  rw [← List.prefix_iff_eq_take.mp hgot, hneed, Scan.need.injEq] at hscan
  subst hscan
  refine List.prefix_of_prefix_length_le hpre (List.prefix_append _ _) ?_
  rw [encode_length, List.length_append]
  omega

theorem linkedBy_more {c d d' : Conn} {p p' : Pipe UInt8} {n : Nat} {got : Bytes} {x : Sent}
    {done tail : List Sent} (hl : LinkedBy c p d done (x :: tail)) (hbuf : d.readBuf = []) (hsent : p'.sent = p.sent)
    (hgot : p'.got = encodeAll done ++ got) (hmore : got.length < x.1.size)
    (hview : d'.readView = { d.readView with reader := .reading n got }) : LinkedBy c p' d' done (x :: tail) := by
  simp only [Conn.readView, ReadView.mk.injEq] at hview
  obtain ⟨hr, hbuf', hret⟩ := hview
  refine ⟨hl.legal, hsent.trans hl.sent, hl.data, by rw [hbuf', hret]; exact hl.got, ?_⟩
  rw [ReaderAt, hr]
  refine ⟨hbuf'.trans hbuf, hgot, ?_⟩
  intro y t heq
  obtain ⟨rfl, -⟩ := List.cons.inj heq
  exact hmore

theorem linkedBy_frame {c d : Conn} {p p' : Pipe UInt8} {n : Nat} {now : Int} {x : Sent} {done tail : List Sent}
    (hl : LinkedBy c p d done (x :: tail)) (hbuf : d.readBuf = []) (hsent : p'.sent = p.sent)
    (hgot : p'.got = encodeAll (done ++ [x])) :
    LinkedBy c p' (Conn.handleFrame n x.1 { d with lastActivityNs := now }) (done ++ [x]) tail := by
  obtain ⟨hret, hreader⟩ := handleFrame_reads n x.1 x.2 { d with lastActivityNs := now } hbuf
  refine ⟨by simpa using hl.legal, by simp [hsent, hl.sent], ?_, ?_, ?_⟩
  · rw [hl.data, ← dataOf_append, ← dataOf_append, List.append_assoc]
    rfl
  · have hold := hl.got
    rw [hbuf, List.append_nil] at hold
    rw [hret, dataOf_append, ← hold]
  · unfold ReaderAt
    rcases hreader with hr | ⟨hr, hbuf'⟩
    · rw [hr]
      exact hgot
    · rw [hr]
      exact ⟨hbuf', by rw [hgot, List.append_nil], fun y t _ => frame_size_pos _⟩

theorem linkedBy_recv {c d d' : Conn} {p p' : Pipe UInt8} {chunk : Bytes} {now : Int} {done rest : List Sent}
    (hl : LinkedBy c p d done rest) (hpull : p.pull chunk = some p') (h : d.recv chunk now = some d') :
    Link c p' d' := by
  obtain ⟨n, got, k, hr, hneed, hne, hle, hcases⟩ := recv_inv h
  obtain ⟨hsent, hgot'⟩ := Pipe.pull_eq_some hpull
  have hat := hl.at_
  rw [ReaderAt, hr] at hat
  obtain ⟨hbuf, hgot, hpart⟩ := hat
  rw [hgot, List.append_assoc] at hgot'
  have hpre : got ++ chunk <+: encodeAll rest := by
    have := p'.got_isPrefix_sent
    rw [hgot', hsent, hl.sent] at this
    exact (List.prefix_append_right_inj _).mp this
  cases rest with
  | nil => exact absurd (List.append_eq_nil_iff.mp (List.prefix_nil.mp hpre)).2 hne
  | cons x tail =>
    have hlegal : x.1.Legal := hl.legal x (by simp)
    have hin := chunk_isPrefix hlegal (hpart x tail rfl) hpre hneed hle
    have hfit : (got ++ chunk).length ≤ x.1.size := encode_length x.1 x.2 ▸ hin.length_le
    -- The scan of the bytes so far says which of the three cases of the step this is.
    rcases Nat.lt_or_eq_of_le hfit with hmore | hall
    · obtain ⟨k', hscan, -, -⟩ := scan_take hlegal x.2 hmore
      rw [← List.prefix_iff_eq_take.mp hin] at hscan
      rcases hcases with ⟨_, -, rfl⟩ | ⟨e, hfail, -⟩ | ⟨f, hframe, -⟩
      · exact ⟨done, x :: tail, linkedBy_more hl hbuf hsent hgot' hmore rfl⟩
      · rw [hscan] at hfail
        cases hfail
      · rw [hscan] at hframe
        cases hframe
    · have hwhole : got ++ chunk = x.1.encode x.2 := hin.eq_of_length (by rw [encode_length]; exact hall)
      have hscan := scan_encode hlegal x.2
      rw [← hwhole] at hscan
      rcases hcases with ⟨_, hneed', -⟩ | ⟨e, hfail, -⟩ | ⟨f, hframe, rfl⟩
      · rw [hscan] at hneed'
        cases hneed'
      · rw [hscan] at hfail
        cases hfail
      · rw [hscan, Scan.frame.injEq] at hframe
        subst hframe
        exact ⟨done ++ [x], tail, linkedBy_frame hl hbuf hsent (by rw [hgot', hwhole]; simp)⟩

theorem link_reads {pe : Personality} {c d d' : Conn} {p p' : Pipe UInt8} {a : Act} (h : Link c p d)
    (ha : a ≠ .recvFails) (hp : consume a p = some p') (hstep : d.step pe a = some d') : Link c p' d' := by
  obtain ⟨done, rest, hl⟩ := h
  by_cases hread : a.isRead
  · cases a with
    | read n =>
      obtain rfl := Option.some.inj hp
      exact ⟨done, rest, linkedBy_read hl hstep⟩
    | recv chunk now => exact linkedBy_recv hl hp hstep
    | recvFails => exact absurd rfl ha
    | _ => exact hread.elim
  · have hview := step_readView hstep hread
    have hsame : p = p' := by
      cases a with
      | recv chunk now => exact absurd trivial hread
      | _ => exact Option.some.inj hp
    have hreturned : d'.returned = d.returned := congrArg ReadView.returned hview
    have hbuf : d'.readBuf = d.readBuf := congrArg ReadView.readBuf hview
    subst hsame
    refine ⟨done, rest, hl.legal, hl.sent, hl.data, ?_, readerAt_of_readView hview hl.at_⟩
    rw [hreturned, hbuf]
    exact hl.got

/-! ## Whole runs -/

/-- What holds of each end, and what they have read of one another. -/
structure PairInv (P : Conn → Prop) (s : Pair) : Prop where
  a : P s.a
  b : P s.b
  toB : Link s.a s.ab s.b
  toA : Link s.b s.ba s.a

variable {P : Conn → Prop} {Q : Act → Prop}

theorem pairInv_step (hkeeps : ∀ {p c c' act}, P c → Q act → Conn.step p c act = some c' → P c')
    (hreads : ∀ {act}, Q act → act ≠ .recvFails) (pa pb : Personality) (s : Pair) (x : PairAct) (s' : Pair)
    (hs : PairInv P s) (hx : x.Ends Q) (h : s.step pa pb x = some s') : PairInv P s' := by
  cases x with
  | onA act =>
    simp only [Pair.step] at h
    split at h
    · rename_i ba a hba ha
      obtain rfl := Option.some.inj h
      exact ⟨hkeeps hs.a hx ha, hs.b, link_send hs.toB ha, link_reads hs.toA (hreads hx) hba ha⟩
    · cases h
  | onB act =>
    simp only [Pair.step] at h
    split at h
    · rename_i ab b hab hb
      obtain rfl := Option.some.inj h
      exact ⟨hs.a, hkeeps hs.b hx hb, link_reads hs.toB (hreads hx) hab hb, link_send hs.toA hb⟩
    · cases h
  | injectAB f pad =>
    simp only [Pair.step, Option.map_eq_some_iff] at h
    obtain ⟨ab, hab, rfl⟩ := h
    exact ⟨hs.a, hs.b, link_inject hs.toB hab, hs.toA⟩
  | injectBA f pad =>
    simp only [Pair.step, Option.map_eq_some_iff] at h
    obtain ⟨ba, hba, rfl⟩ := h
    exact ⟨hs.a, hs.b, hs.toB, link_inject hs.toA hba⟩

theorem pairInv_run (hkeeps : ∀ {p c c' act}, P c → Q act → Conn.step p c act = some c' → P c')
    (hreads : ∀ {act}, Q act → act ≠ .recvFails) (hfresh : P {}) {pa pb : Personality} {acts : List PairAct} {s : Pair}
    (hacts : ∀ x ∈ acts, x.Ends Q) (hrun : run (Pair.step pa pb) {} acts = some s) : PairInv P s :=
  run_invariant_when (pairInv_step hkeeps hreads pa pb) acts {} s ⟨hfresh, hfresh, link_init, link_init⟩
    (allSteps_of_mem acts ({} : Pair) hacts) hrun

/-- The sender is in a select that takes from the inbox, with no burst in hand. -/
def Sender.Waiting : Sender → Prop
  | .wait | .drain | .think => True
  | _ => False

/-- What the reader `d` owes to the writer `c` over the pipe `p`. -/
structure Delivered (c : Conn) (p : Pipe UInt8) (d : Conn) : Prop where
  /-- Nothing is lost, repeated or reordered. -/
  inOrder : d.returned <+: c.accepted
  /-- What is returned or buffered is the data of the DATA frames read so far, and nothing else. -/
  onlyData : ∃ fs : List Sent, encodeAll fs <+: p.got ∧ d.returned ++ d.readBuf = dataOf fs
  /-- When everything has drained, everything has arrived. -/
  complete : c.sender.Waiting → c.inbox = [] → p.unread = [] → d.readBuf = [] → d.returned = c.accepted

theorem held_of_waiting {s : Sender} (h : s.Waiting) : s.held = [] := by
  cases s with
  | taken | collect | flush => exact absurd h id
  | _ => rfl

theorem encodeAll_eq_nil {fs : List Sent} (h : encodeAll fs = []) : fs = [] := by
  cases fs with
  | nil => rfl
  | cons x fs =>
    have hlen := congrArg List.length h
    have := frame_size_pos x.1
    rw [encodeAll_cons, List.length_append, encode_length, List.length_nil] at hlen
    omega

theorem rest_nil_of_drained {c d : Conn} {p : Pipe UInt8} {done rest : List Sent} (hl : LinkedBy c p d done rest)
    (hp : p.unread = []) : rest = [] := by
  have hat := hl.at_
  have hall : p.got = encodeAll done ++ encodeAll rest := by
    rw [← hl.sent, ← p.got_append_unread, hp, List.append_nil]
  cases hr : d.reader with
  | none =>
    rw [ReaderAt, hr] at hat
    rw [hat, List.self_eq_append_right] at hall
    exact encodeAll_eq_nil hall
  | reading n got =>
    rw [ReaderAt, hr] at hat
    obtain ⟨-, hgot, hpart⟩ := hat
    rw [hgot, List.append_cancel_left_eq] at hall
    cases rest with
    | nil => rfl
    | cons x tail =>
      have := hpart x tail rfl
      rw [hall, encodeAll_cons, List.length_append, encode_length] at this
      omega

theorem delivered_of_link {c d : Conn} {p : Pipe UInt8} (hf : Flowing c) (h : Link c p d) : Delivered c p d := by
  obtain ⟨done, rest, hl⟩ := h
  have haccepted : c.accepted = d.returned ++ (d.readBuf ++ (dataOf rest ++ (c.sender.held ++ c.inbox.flatten))) := by
    rw [hf.order, hl.data, ← hl.got]
    simp
  have hread : encodeAll done <+: p.got := by
    have hat := hl.at_
    cases hr : d.reader with
    | none =>
      rw [ReaderAt, hr] at hat
      exact hat ▸ List.prefix_refl _
    | reading n got =>
      rw [ReaderAt, hr] at hat
      exact hat.2.1 ▸ List.prefix_append _ _
  refine ⟨⟨_, haccepted.symm⟩, ⟨done, hread, hl.got⟩, fun hwait hin hp hbuf => ?_⟩
  rw [haccepted, rest_nil_of_drained hl hp, held_of_waiting hwait, hin, hbuf]
  simp

/-- **End-to-end delivery.** -/
theorem pair_delivers (pa pb : Personality) (acts : List PairAct) (s : Pair) (hquiet : ∀ x ∈ acts, x.Quiet)
    (hrun : run (Pair.step pa pb) {} acts = some s) : Delivered s.a s.ab s.b ∧ Delivered s.b s.ba s.a := by
  have hinv : PairInv Flowing s := pairInv_run flowing_step Act.Quiet.ne_recvFails ⟨rfl, rfl, rfl⟩ hquiet hrun
  exact ⟨delivered_of_link hinv.a hinv.toB, delivered_of_link hinv.b hinv.toA⟩

/-- Three bytes in two frames with a padding frame between them, read in pieces. -/
def threeBytes : List PairAct :=
  [.onA (.write [7, 8, 9]), .onA (.writeSend 0), .onA .takeItem, .onA .startBurst, .onA .timer,
    .onA (.sendRound { apparentSize := 13 }), .injectAB { type := typePadding, payload := [5] } [],
    .onA (.sendRound { apparentSize := 13 }), .onA .flushed,
    .onB (.read 1), .onB (.recv [1, 0, 0, 0] 0), .onB (.recv [0, 0, 0, 0, 2, 0, 0] 0), .onB (.recv [7, 8] 0),
    .onB (.read 4),
    .onB (.read 4), .onB (.recv [8, 0, 0, 0, 0, 0, 0, 0, 1, 0, 0] 0), .onB (.recv [5] 0),
    .onB (.recv [1, 0, 0, 0, 0, 0, 0, 0, 1, 0, 0] 0), .onB (.recv [9] 0)]

theorem pair_delivers_three_bytes :
    ∃ s, run (Pair.step plain plain) {} threeBytes = some s ∧ s.b.returned = [7, 8, 9] ∧ s.a.accepted = [7, 8, 9] ∧
      Delivered s.a s.ab s.b ∧ Delivered s.b s.ba s.a := by
  have hruns : (run (Pair.step plain plain) {} threeBytes).map (fun s => (s.b.returned, s.a.accepted)) =
      some ([7, 8, 9], [7, 8, 9]) := by
    decide +kernel
  obtain ⟨s, hs, heq⟩ := Option.map_eq_some_iff.mp hruns
  obtain ⟨hreturned, haccepted⟩ := Prod.mk.inj heq
  refine ⟨s, hs, hreturned, haccepted, pair_delivers plain plain threeBytes s ?_ hs⟩
  simp [threeBytes, PairAct.Quiet, PairAct.Ends, Act.Quiet]

end Daxson.Bcl
