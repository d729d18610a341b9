import Daxson.Bcl.Writer

/-! # Whatever the peer sends

The other end may send any bytes, and a caller may read on after an error.
-/

open Lib.BigEndian Lib.Machine

namespace Daxson.Protocol

theorem scan_exact {got chunk : Bytes} {k : Nat} {f : Frame} (hneed : scan got = .need k) (hle : chunk.length ≤ k)
    (hframe : scan (got ++ chunk) = .frame f) : (got ++ chunk).length = f.size := by
  obtain ⟨hhdr, -, -, -, hpay, hpad, -, hsize⟩ := scan_frame hframe
  rw [List.length_append] at hhdr hsize ⊢
  unfold Frame.size at hsize ⊢
  rw [hpay, hpad] at hsize ⊢
  unfold scan at hneed
  split_ifs at hneed with hshort
  · obtain rfl := Scan.need.inj hneed
    omega
  · unfold frameHeaderSize at hshort
    rw [slice_append got chunk (by omega), slice_append got chunk (by omega)] at hsize ⊢
    dsimp only at hneed
    split_ifs at hneed
    · obtain rfl := Scan.need.inj hneed
      omega
    · obtain rfl := Scan.need.inj hneed
      omega

theorem scan_need_length {got : Bytes} {k : Nat} (h : scan got = .need k) :
    got.length < frameHeaderSize + maxPayloadSize + maxPaddingSize := by
  unfold scan at h
  split_ifs at h with hshort
  · omega
  · dsimp only at h
    split_ifs at h <;> omega

theorem encode_drop (f : Frame) (pad : Bytes) :
    (f.encode pad).drop (frameHeaderSize + f.payload.length) = (copyArr f.padLen.toNat pad).val := by
  have hsplit : f.encode pad = ([f.type] ++ beBytes 4 f.streamID.toNat ++ beBytes 4 f.payload.length ++
      beBytes 2 f.padLen.toNat ++ f.payload) ++ (copyArr f.padLen.toNat pad).val := by
    simp [Frame.encode]
  rw [hsplit]
  apply List.drop_left'
  simp only [List.length_append, List.length_singleton, beBytes_length, frameHeaderSize]

theorem encode_scanned {b : Bytes} {f : Frame} (h : scan b = .frame f) (hsize : b.length = f.size) :
    ∃ pad, b = f.encode pad := by
  have hpad : (b.drop (frameHeaderSize + f.payload.length)).length = f.padLen.toNat := by
    rw [List.length_drop, hsize]
    unfold Frame.size
    omega
  refine ⟨b.drop (frameHeaderSize + f.payload.length), ?_⟩
  conv_lhs => rw [← List.take_append_drop (frameHeaderSize + f.payload.length) b]
  conv_rhs => rw [← List.take_append_drop (frameHeaderSize + f.payload.length) (f.encode _)]
  rw [encode_of_scan h, encode_drop, copyArr_of_length hpad]

end Daxson.Protocol

namespace Daxson.Bcl

open Protocol

/-! ## What has been read -/

def Act.received : Act → Bytes
  | .recv chunk _ => chunk
  | _ => []

def Reader.got : Reader → Bytes
  | .none => []
  | .reading _ got => got

def Scan.failed : Scan → Bool
  | .fail _ => true
  | _ => false

/-- The step ends the read in progress with an error. -/
def Conn.readFails (c : Conn) : Act → Bool
  | .recvFails => true
  | .recv chunk _ => Scan.failed (scan (c.reader.got ++ chunk))
  | _ => false

/-- A stream in the pieces that the reads have taken: whole frames, and one other piece for every read that failed,
a header with impossible lengths or the part of a frame that had come. -/
inductive Parsed : Bytes → List Sent → Nat → Prop
  | nil : Parsed [] [] 0
  | frame {b : Bytes} {fs : List Sent} {n : Nat} (f : Frame) (pad : Bytes) (h : Parsed b fs n) (hlegal : f.Legal) :
      Parsed (b ++ f.encode pad) (fs ++ [(f, pad)]) n
  | refused {b : Bytes} {fs : List Sent} {n : Nat} (part : Bytes) (e : GoError) (h : Parsed b fs n)
      (hscan : scan part = .fail e) : Parsed (b ++ part) fs (n + 1)
  | cut {b : Bytes} {fs : List Sent} {n : Nat} (part : Bytes) (k : Nat) (h : Parsed b fs n)
      (hscan : scan part = .need k) : Parsed (b ++ part) fs (n + 1)

theorem parsed_zero {b : Bytes} {fs : List Sent} {n : Nat} (h : Parsed b fs n) (hn : n = 0) : b = encodeAll fs := by
  induction h with
  | nil => rfl
  | frame f pad _ _ ih => rw [ih hn, encodeAll_append, encodeAll_cons, encodeAll_nil, List.append_nil]
  | refused | cut => cases hn

/-- A channel of control frames. -/
structure ControlQueue (q : List Frame) : Prop where
  room : q.length ≤ controlCap
  legal : ∀ f ∈ q, f.Legal

/-- What the connection keeps of the stream, which is bounded. -/
structure Steady (c : Conn) : Prop where
  buf : c.readBuf.length ≤ maxPayloadSize
  inside : ∀ n got, c.reader = .reading n got → c.readBuf = [] ∧ ∃ k, scan got = .need k
  pings : ControlQueue c.pingCh
  pongs : ControlQueue c.pongCh

structure Reads (c : Conn) (stream : Bytes) (fs : List Sent) (fails : Nat) : Prop where
  parsed : ∃ b, Parsed b fs fails ∧ stream = b ++ c.reader.got
  data : c.returned ++ c.readBuf = dataOf fs

theorem step_queues {p : Personality} {c c' : Conn} {a : Act} (h : c.step p a = some c')
    (hrecv : ∀ chunk now, a ≠ .recv chunk now) : c'.pingCh <:+ c.pingCh ∧ c'.pongCh <:+ c.pongCh := by
  by_cases hcontrol : a.isControl
  · cases step_inv h with
    | recvPart | recvBad | recvFrame => exact absurd rfl (hrecv _ _)
    | takePing fault ping rest hch | drainPing fault ping rest hch =>
      obtain ⟨wire, hwire⟩ :=
        writeFrame_wire { type := typePong, payload := ping.payload } [] fault { c with pingCh := rest }
      simp [Conn.writePong, hwire, hch]
    | takePong pong rest hch | drainPong pong rest hch => simp [Conn.processPong, hch]
    | sendPing now fault =>
      obtain ⟨wire, hwire⟩ := writeFrame_wire { type := typePing, payload := randomBytes 8 } [] fault
        { c with pendingPingSent := now }
      simp [hwire]
    | _ => exact hcontrol.elim
  · have hview := step_control h hcontrol
    have hping : c'.pingCh = c.pingCh := congrArg ControlView.pingCh hview
    have hpong : c'.pongCh = c.pongCh := congrArg ControlView.pongCh hview
    rw [hping, hpong]
    exact ⟨List.suffix_rfl, List.suffix_rfl⟩

theorem ControlQueue.suffix {q q' : List Frame} (h : ControlQueue q) (hq : q' <:+ q) : ControlQueue q' :=
  ⟨hq.length_le.trans h.room, fun f hf => h.legal f (hq.mem hf)⟩

theorem ControlQueue.push {q : List Frame} (h : ControlQueue q) {f : Frame} (hf : f.Legal) (wanted : Prop)
    [Decidable wanted] :
    ControlQueue (if wanted ∧ q.length < controlCap then q ++ [f] else q) := by
  split_ifs with hroom
  · refine ⟨?_, ?_⟩
    · rw [List.length_append, List.length_singleton]
      exact hroom.2
    · simp only [List.mem_append, List.mem_singleton]
      rintro g (hg | rfl)
      · exact h.legal g hg
      · exact hf
  · exact h

/-! ## Every step -/

theorem steady_handleFrame {c : Conn} {n : Nat} {f : Frame} (hs : Steady c) (hbuf : c.readBuf = []) (hlegal : f.Legal) :
    Steady (c.handleFrame n f) := by
  have hcontrol := handleFrame_control n f c
  have hping : (c.handleFrame n f).pingCh = _ := congrArg ControlView.pingCh hcontrol
  have hpong : (c.handleFrame n f).pongCh = _ := congrArg ControlView.pongCh hcontrol
  have hrest : (c.handleFrame n f).readBuf = [] ∨ (c.handleFrame n f).readBuf = f.payload.drop n := by
    unfold Conn.handleFrame
    split_ifs <;> simp [hbuf]
  refine ⟨?_, ?_, hping ▸ hs.pings.push hlegal _, hpong ▸ hs.pongs.push hlegal _⟩
  · rcases hrest with hrest | hrest <;> rw [hrest]
    · exact Nat.zero_le _
    · rw [List.length_drop]
      exact (Nat.sub_le _ _).trans hlegal.1
  · intro n' got hreading
    rcases (handleFrame_reads n f [] c hbuf).2 with hnone | ⟨hstart, hempty⟩
    · rw [hnone] at hreading
      cases hreading
    · obtain ⟨-, rfl⟩ := Reader.reading.inj (hstart.symm.trans hreading)
      exact ⟨hempty, _, rfl⟩

theorem steady_of_views {c c' : Conn} (hs : Steady c) (hread : c'.readView = c.readView)
    (hping : c'.pingCh <:+ c.pingCh) (hpong : c'.pongCh <:+ c.pongCh) : Steady c' := by
  have hreader : c'.reader = c.reader := congrArg ReadView.reader hread
  have hbuf : c'.readBuf = c.readBuf := congrArg ReadView.readBuf hread
  refine ⟨hbuf ▸ hs.buf, ?_, hs.pings.suffix hping, hs.pongs.suffix hpong⟩
  rw [hreader, hbuf]
  exact hs.inside

theorem steady_step {p : Personality} {c c' : Conn} {a : Act} (hs : Steady c) (h : c.step p a = some c') :
    Steady c' := by
  by_cases hread : a.isRead
  · cases a with
    | read n =>
      cases step_inv h with
      | readFrame _ hreader hbuf =>
        refine ⟨hs.buf, fun n' got hreading => ?_, hs.pings, hs.pongs⟩
        obtain ⟨-, rfl⟩ := Reader.reading.inj hreading
        exact ⟨List.isEmpty_iff.mp hbuf, _, rfl⟩
      | readBuffered _ hreader hbuf =>
        refine ⟨?_, fun n' got hreading => ?_, hs.pings, hs.pongs⟩
        · exact (List.length_drop ▸ Nat.sub_le _ _ : (c.readBuf.drop n).length ≤ _).trans hs.buf
        · rw [hreader] at hreading
          cases hreading
    | recv chunk now =>
      obtain ⟨n, got, k, hreader, hneed, -, hle, hcases⟩ := recv_inv h
      have hbuf := (hs.inside n got hreader).1
      rcases hcases with ⟨k', hscan, rfl⟩ | ⟨e, hscan, rfl⟩ | ⟨f, hscan, rfl⟩
      · refine ⟨hs.buf, fun n' got' hreading => ?_, hs.pings, hs.pongs⟩
        obtain ⟨-, rfl⟩ := Reader.reading.inj hreading
        exact ⟨hbuf, k', hscan⟩
      · exact ⟨hs.buf, (fun _ _ hreading => by cases hreading), hs.pings, hs.pongs⟩
      · have hlegal := (scan_frame hscan).2.2.2.2.2.2.1
        exact steady_handleFrame (c := { c with lastActivityNs := now })
          ⟨hs.buf, hs.inside, hs.pings, hs.pongs⟩ hbuf hlegal
    | recvFails =>
      cases step_inv h with
      | recvFails => exact ⟨hs.buf, (fun _ _ hreading => by cases hreading), hs.pings, hs.pongs⟩
    | _ => exact hread.elim
  · have hqueues := step_queues h (fun _ _ ha => hread (ha ▸ trivial))
    exact steady_of_views hs (step_readView h hread) hqueues.1 hqueues.2

theorem reads_of_readView {c c' : Conn} {stream : Bytes} {fs : List Sent} {fails : Nat} (hr : Reads c stream fs fails)
    (hview : c'.readView = c.readView) : Reads c' stream fs fails := by
  have hreader : c'.reader = c.reader := congrArg ReadView.reader hview
  have hbuf : c'.readBuf = c.readBuf := congrArg ReadView.readBuf hview
  have hreturned : c'.returned = c.returned := congrArg ReadView.returned hview
  refine ⟨?_, ?_⟩
  · rw [hreader]
    exact hr.parsed
  · rw [hreturned, hbuf]
    exact hr.data

theorem reads_step {p : Personality} {c c' : Conn} {a : Act} {stream : Bytes} {fs : List Sent} {fails : Nat}
    (hs : Steady c) (hr : Reads c stream fs fails) (h : c.step p a = some c') :
    ∃ fs', Reads c' (stream ++ a.received) fs' (fails + if c.readFails a then 1 else 0) := by
  obtain ⟨⟨b, hparsed, rfl⟩, hdata⟩ := hr
  by_cases hread : a.isRead
  · cases a with
    | read n =>
      refine ⟨fs, ?_⟩
      cases step_inv h with
      | readFrame _ hreader hbuf =>
        refine ⟨⟨b, hparsed, ?_⟩, hdata⟩
        simp [hreader, Reader.got, Act.received]
      | readBuffered _ hreader hbuf =>
        refine ⟨⟨b, hparsed, ?_⟩, ?_⟩
        · simp [Act.received]
        · rw [← hdata]
          simp
    | recv chunk now =>
      obtain ⟨n, got, k, hreader, hneed, -, hle, hcases⟩ := recv_inv h
      have hgot : c.reader.got = got := by rw [hreader, Reader.got]
      have hbuf := (hs.inside n got hreader).1
      simp only [hgot, Act.received, Conn.readFails, List.append_assoc]
      rcases hcases with ⟨k', hscan, rfl⟩ | ⟨e, hscan, rfl⟩ | ⟨f, hscan, rfl⟩ <;> rw [hscan]
      · exact ⟨fs, ⟨b, hparsed, rfl⟩, hdata⟩
      · exact ⟨fs, ⟨_, .refused _ e hparsed hscan, (List.append_nil _).symm⟩, hdata⟩
      · have hlegal := (scan_frame hscan).2.2.2.2.2.2.1
        obtain ⟨pad, hpad⟩ := encode_scanned hscan (scan_exact hneed hle hscan)
        obtain ⟨hreturned, hnext⟩ := handleFrame_reads n f pad { c with lastActivityNs := now } hbuf
        refine ⟨fs ++ [(f, pad)], ⟨_, .frame f pad hparsed hlegal, ?_⟩, ?_⟩
        · rw [hpad]
          rcases hnext with hnone | ⟨hstart, -⟩
          · rw [hnone]
            exact (List.append_nil _).symm
          · rw [hstart]
            exact (List.append_nil _).symm
        · rw [hreturned, dataOf_append, ← hdata, hbuf, List.append_nil]
    | recvFails =>
      cases step_inv h with
      | recvFails hreader =>
        cases hgot : c.reader with
        | none => exact absurd hgot hreader
        | reading n got =>
          obtain ⟨-, k, hneed⟩ := hs.inside n got hgot
          exact ⟨fs, ⟨_, .cut got k hparsed hneed, rfl⟩, hdata⟩
    | _ => exact hread.elim
  · have hquiet : a.received = [] ∧ c.readFails a = false := by
      cases a with
      | read | recv | recvFails => exact absurd trivial hread
      | _ => exact ⟨rfl, rfl⟩
    rw [hquiet.1, hquiet.2, List.append_nil]
    exact ⟨fs, reads_of_readView ⟨⟨b, hparsed, rfl⟩, hdata⟩ (step_readView h hread)⟩

/-! ## The halves of a call -/

def SharedAct.received : SharedAct → Bytes
  | .other a => a.received
  | _ => []

def SharedConn.readFails (s : SharedConn) : SharedAct → Bool
  | .other a => s.conn.readFails a
  | _ => false

/-- The payload of the PING that the sender answers. A PONG has no padding. -/
def SharedConn.answering (s : SharedConn) : Nat :=
  match s.senderCall with
  | some (call, .pong) => call.total - frameHeaderSize
  | _ => 0

/-- A connection with the calls in progress, and what they keep of the stream. -/
structure SteadyCalls (s : SharedConn) : Prop where
  conn : Steady s.conn
  answer : s.answering ≤ maxPayloadSize

/-- What a half of a call leaves alone: it reads nothing, and takes at most a PING from its queue. -/
structure KeepsInput (c c' : Conn) : Prop where
  view : c'.readView = c.readView
  pings : c'.pingCh <:+ c.pingCh
  pongs : c'.pongCh = c.pongCh

theorem KeepsInput.trans {c c₁ c' : Conn} (h : KeepsInput c c₁) (h' : KeepsInput c₁ c') : KeepsInput c c' :=
  ⟨h'.view.trans h.view, h'.pings.trans h.pings, h'.pongs.trans h.pongs⟩

theorem KeepsInput.steady {c c' : Conn} (h : KeepsInput c c') (hs : Steady c) : Steady c' :=
  steady_of_views hs h.view h.pings (h.pongs ▸ List.suffix_rfl)

theorem senderReturn_input (job : Job) (err : Option GoError) (c : Conn) : KeepsInput c (c.senderReturn job err) := by
  unfold Conn.senderReturn
  split
  · exact ⟨rfl, List.suffix_rfl, rfl⟩
  · cases err <;> exact ⟨rfl, List.suffix_rfl, rfl⟩
  · exact ⟨rfl, List.suffix_rfl, rfl⟩

theorem writeOut_input (s : SharedConn) (call : Call) (fault : Option SysError) :
    KeepsInput s.conn (s.writeOut call fault).2 := by
  obtain ⟨wire, hwire⟩ := writeOut_wire s call fault
  rw [hwire]
  exact ⟨rfl, List.suffix_rfl, rfl⟩

theorem halves_input {p : Personality} {s s' : SharedConn} {a : SharedAct} (h : s.step p a = some s')
    (hhalf : ∀ a', a ≠ .other a') : KeepsInput s.conn s'.conn := by
  have htaken : ∀ {ping rest}, s.conn.pingCh = ping :: rest → KeepsInput s.conn { s.conn with pingCh := rest } :=
    fun {ping rest} hch => ⟨rfl, hch ▸ List.suffix_cons ping rest, rfl⟩
  cases shared_inv h with
  | other => exact absurd rfl (hhalf _)
  | @pongFails ping rest err _ hch =>
    exact (htaken hch).trans (senderReturn_input .pong (some err) { s.conn with pingCh := rest })
  | beginPong _ hch => exact htaken hch
  | beginData | beginPing => exact ⟨rfl, List.suffix_rfl, rfl⟩
  | endSender => exact (writeOut_input s _ _).trans (senderReturn_input _ _ _)
  | endPing => exact (writeOut_input s _ _).trans ⟨rfl, List.suffix_rfl, rfl⟩

theorem Placed.pong_le {payload pad : Bytes} {call : Call} {arrays : List Bytes}
    (h : Placed { type := typePong, payload := payload } pad call arrays) :
    call.total - frameHeaderSize ≤ maxPayloadSize := by
  have hlegal : payload.length ≤ maxPayloadSize := h.legal.1
  rw [h.total]
  simpa [Frame.size] using hlegal

theorem steadyCalls_step {p : Personality} {s s' : SharedConn} {a : SharedAct} (hs : SteadyCalls s)
    (h : s.step p a = some s') : SteadyCalls s' := by
  cases shared_inv h with
  | other _ _ _ hc => exact ⟨steady_step hs.conn hc, hs.answer⟩
  | pongFails _ hcall =>
    refine ⟨(halves_input h (by simp)).steady hs.conn, ?_⟩
    unfold SharedConn.answering
    rw [hcall]
    exact Nat.zero_le _
  | beginPong _ _ hplaced => exact ⟨(halves_input h (by simp)).steady hs.conn, hplaced.pong_le⟩
  | beginData | endSender => exact ⟨(halves_input h (by simp)).steady hs.conn, Nat.zero_le _⟩
  | beginPing | endPing => exact ⟨(halves_input h (by simp)).steady hs.conn, hs.answer⟩

theorem readsCalls_step {p : Personality} {s s' : SharedConn} {a : SharedAct} {stream : Bytes} {fs : List Sent}
    {fails : Nat} (hs : SteadyCalls s) (hr : Reads s.conn stream fs fails) (h : s.step p a = some s') :
    ∃ fs', Reads s'.conn (stream ++ a.received) fs' (fails + if s.readFails a then 1 else 0) := by
  cases a with
  | other a =>
    cases shared_inv h with
    | other _ _ _ hc => exact reads_step hs.conn hr hc
  | _ =>
    refine ⟨fs, ?_⟩
    have hread := reads_of_readView hr (halves_input h (by simp)).view
    rwa [← List.append_nil stream] at hread

/-! ## Every run -/

theorem reads_run {p : Personality} (acts : List SharedAct) {s s' : SharedConn} {stream : Bytes} {fs : List Sent}
    {fails : Nat} (hs : SteadyCalls s) (hr : Reads s.conn stream fs fails)
    (hrun : run (SharedConn.step p) s acts = some s') :
    SteadyCalls s' ∧ ∃ fs', Reads s'.conn (stream ++ acts.flatMap SharedAct.received) fs'
      (fails + count (SharedConn.step p) SharedConn.readFails s acts) := by
  induction acts generalizing s stream fs fails with
  | nil =>
    rw [run_nil, Option.some.injEq] at hrun
    subst hrun
    refine ⟨hs, fs, ?_⟩
    rw [List.flatMap_nil, List.append_nil]
    exact hr
  | cons a acts ih =>
    rw [run_cons, Option.bind_eq_some_iff] at hrun
    obtain ⟨s₁, hstep, hrun⟩ := hrun
    obtain ⟨fs₁, hr₁⟩ := readsCalls_step hs hr hstep
    obtain ⟨hs', fs', hr'⟩ := ih (steadyCalls_step hs hstep) hr₁ hrun
    refine ⟨hs', fs', ?_⟩
    rw [List.append_assoc, Nat.add_assoc] at hr'
    simp only [count, hstep, List.flatMap_cons]
    exact hr'

/-- The bytes of the peer that are kept: the frame in hand, the rest of a payload, and the payloads of the queues. -/
def Conn.heldFromPeer (c : Conn) : Nat :=
  c.reader.got.length + c.readBuf.length + ((c.pingCh ++ c.pongCh).map (·.payload.length)).sum

/-- These, and the PING that the sender answers. -/
def SharedConn.heldFromPeer (s : SharedConn) : Nat := s.conn.heldFromPeer + s.answering

theorem ControlQueue.sum_le {q : List Frame} (h : ControlQueue q) :
    (q.map (·.payload.length)).sum ≤ controlCap * maxPayloadSize := by
  have hsum := List.sum_le_card_nsmul (q.map (·.payload.length)) maxPayloadSize (by
    intro x hx
    obtain ⟨f, hf, rfl⟩ := List.mem_map.mp hx
    exact (h.legal f hf).1)
  rw [List.length_map, smul_eq_mul] at hsum
  exact hsum.trans (Nat.mul_le_mul_right _ h.room)

theorem Steady.held_le {c : Conn} (h : Steady c) : c.heldFromPeer ≤ 590849 := by
  have hpings := h.pings.sum_le
  have hpongs := h.pongs.sum_le
  have hread : c.reader.got.length + c.readBuf.length < frameHeaderSize + maxPayloadSize + maxPaddingSize := by
    cases hreader : c.reader with
    | none =>
      have hbuf := h.buf
      rw [Reader.got, List.length_nil, Nat.zero_add]
      unfold frameHeaderSize
      omega
    | reading n got =>
      obtain ⟨hbuf, k, hneed⟩ := h.inside n got hreader
      rw [hbuf, Reader.got]
      exact scan_need_length hneed
  unfold Conn.heldFromPeer
  rw [List.map_append, List.sum_append]
  unfold controlCap at hpings hpongs
  unfold maxPayloadSize at hpings hpongs hread
  unfold frameHeaderSize maxPaddingSize at hread
  omega

theorem SteadyCalls.held_le {s : SharedConn} (h : SteadyCalls s) : s.heldFromPeer ≤ 656384 := by
  have hconn := h.conn.held_le
  have hanswer := h.answer
  unfold maxPayloadSize at hanswer
  unfold SharedConn.heldFromPeer
  omega

/-- **Whatever the peer sends** is read in order, and at most 656384 bytes of it are kept. -/
theorem peer_stream_read (p : Personality) (acts : List SharedAct) (s : SharedConn)
    (hrun : run (SharedConn.step p) {} acts = some s) :
    ∃ b fs, Parsed b fs (count (SharedConn.step p) SharedConn.readFails {} acts) ∧
      (count (SharedConn.step p) SharedConn.readFails {} acts = 0 → b = encodeAll fs) ∧
      acts.flatMap SharedAct.received = b ++ s.conn.reader.got ∧ s.conn.returned ++ s.conn.readBuf = dataOf fs ∧
      s.heldFromPeer ≤ 656384 := by
  have hsteady : Steady {} :=
    ⟨Nat.zero_le _, (fun _ _ h => by cases h), ⟨Nat.zero_le _, by simp⟩, ⟨Nat.zero_le _, by simp⟩⟩
  have hreads : Reads {} [] [] 0 := ⟨⟨[], .nil, rfl⟩, rfl⟩
  obtain ⟨hs, fs, ⟨b, hparsed, hstream⟩, hdata⟩ := reads_run acts ⟨hsteady, Nat.zero_le _⟩ hreads hrun
  rw [Nat.zero_add] at hparsed
  exact ⟨b, fs, hparsed, parsed_zero hparsed, hstream, hdata, hs.held_le⟩

/-- A PING, answered while some data comes in pieces, then a header that announces four gigabytes, and another one
behind it. -/
def rudePeer : List SharedAct :=
  let ping := Frame.encode { type := typePing, payload := [1, 2] } []
  let data := Frame.encode { type := typeData, payload := [7, 8, 9], padLen := 1 } [0]
  [.other (.read 2), .other (.recv (ping.take 11) 0), .other (.recv (ping.drop 11) 0), .other (.recv (data.take 5) 0),
    .beginPong, .other (.recv ((data.take 11).drop 5) 0), .other (.recv ((data.drop 11).take 3) 0),
    .other (.recv (data.drop 14) 0), .other (.read 2), .other (.read 2),
    .other (.recv (0 :: List.replicate 8 255 ++ [0, 0]) 0), .other (.read 9), .other (.recv (data.take 11) 0)]

theorem peer_stream_read_rude :
    ∃ s b fs, run (SharedConn.step ⟨524288, 45000000000⟩) {} rudePeer = some s ∧ s.answering = 2 ∧ Parsed b fs 1 ∧
      rudePeer.flatMap SharedAct.received = b ++ s.conn.reader.got ∧
      s.conn.returned ++ s.conn.readBuf = dataOf fs ∧ s.heldFromPeer ≤ 656384 := by
  have hends : ((run (SharedConn.step ⟨524288, 45000000000⟩) {} rudePeer).map (·.answering)) = some 2 := by
    decide +kernel
  have hfails : count (SharedConn.step ⟨524288, 45000000000⟩) SharedConn.readFails {} rudePeer = 1 := by decide +kernel
  obtain ⟨s, hrun, hanswering⟩ := Option.map_eq_some_iff.mp hends
  obtain ⟨b, fs, hparsed, -, hrest⟩ := peer_stream_read _ rudePeer s hrun
  rw [hfails] at hparsed
  exact ⟨s, b, fs, hrun, hanswering, hparsed, hrest⟩

end Daxson.Bcl
