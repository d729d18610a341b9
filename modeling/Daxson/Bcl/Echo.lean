import Daxson.Bcl.Writer

/-! # PONGs echo PINGs

The PINGs that `Read` has received, and how each `writePong` has ended.
-/

open Lib.Machine

namespace Daxson.Bcl

open Protocol

/-! ## What the peer reads -/

/-- The frames that a peer reads off the wire, up to the first error. -/
def peerFrames (wire : Bytes) : List Frame :=
  ((readFrames (wire.length + 1) ⟨[wire], .eof, false⟩).takeWhile (·.isOk)).filterMap (·.toOption)

def pongOf (f : Frame) : Option Bytes := if f.type = typePong then some f.payload else none

def pongPayloads (wire : Bytes) : List Bytes := (peerFrames wire).filterMap pongOf

theorem readFrames_append (m k : Nat) (r : ByteReader) : ∃ more, readFrames (m + k) r = readFrames m r ++ more := by
  induction m generalizing r with
  | zero => exact ⟨readFrames k r, by simp [readFrames]⟩
  | succ m ih =>
    obtain ⟨more, hmore⟩ := ih (readFrame r).2
    refine ⟨more, ?_⟩
    rw [Nat.succ_add, readFrames, readFrames, hmore]
    rfl

theorem written_legal {sent : List Sent} (h : ∀ x ∈ sent, x.1.Legal) :
    written sent = encodeAll sent ∧ accepted sent = sent.map Prod.fst := by
  induction sent with
  | nil => exact ⟨rfl, rfl⟩
  | cons x sent ih =>
    obtain ⟨f, pad⟩ := x
    obtain ⟨hw, ha⟩ := ih fun y hy => h y (by simp [hy])
    have hx : f.Legal := h (f, pad) (by simp)
    constructor
    · unfold written at hw ⊢
      simp only [List.flatMap_cons, hw, encodeAll_cons, writeFrame_legal hx]
    · unfold accepted at ha ⊢
      rw [List.map_cons, List.filter_cons_of_pos (by simpa using hx), ha]

theorem length_le_encodeAll (sent : List Sent) : sent.length ≤ (encodeAll sent).length := by
  induction sent with
  | nil => exact Nat.zero_le _
  | cons x sent ih =>
    rw [encodeAll_cons, List.length_append, encode_length, List.length_cons]
    unfold Frame.size frameHeaderSize
    omega

theorem peerFrames_encodeAll {sent : List Sent} (h : ∀ x ∈ sent, x.1.Legal) :
    peerFrames (encodeAll sent) = sent.map Prod.fst := by
  obtain ⟨hwritten, haccepted⟩ := written_legal h
  have hread := readFrames_written sent ⟨[encodeAll sent], .eof, false⟩ (by simp [Lib.Reader.content, hwritten])
  rw [haccepted, List.length_map] at hread
  obtain ⟨k, hk⟩ := Nat.exists_eq_add_of_le (length_le_encodeAll sent)
  obtain ⟨more, hmore⟩ := readFrames_append (sent.length + 1) k ⟨[encodeAll sent], .eof, false⟩
  have hall : ∀ x ∈ (sent.map Prod.fst).map (Except.ok (ε := GoError)), x.isOk = true := by
    intro x hx
    obtain ⟨f, -, rfl⟩ := List.mem_map.mp hx
    rfl
  unfold peerFrames
  rw [hk, Nat.add_right_comm, hmore, hread, List.append_assoc, List.takeWhile_append_of_pos hall]
  simp [Except.isOk, Except.toBool, List.filterMap_map, Function.comp_def, Except.toOption]

/-! ## The watched connection -/

/-- A PING that `Read` has received. It is dropped when four were queued before it. -/
structure Ping where
  payload : Bytes
  dropped : Bool
  deriving DecidableEq, Repr

/-- A `writePong` that has returned. -/
structure Pong where
  payload : Bytes
  failed : Bool
  deriving DecidableEq, Repr

structure EchoConn where
  shared : SharedConn := {}
  received : List Ping := []
  /-- The payload of the `writePong` in progress. -/
  writing : Option Bytes := none
  pongs : List Pong := []

/-- The PING that a step completes for the `Read` in progress. -/
def Conn.heard (a : Act) (c : Conn) : List Ping :=
  match c.completes a with
  | some f => if f.type = typePing then [⟨f.payload, controlCap ≤ c.pingCh.length⟩] else []
  | none => []

/-- What a step adds to the record, given the connection behind it. -/
def EchoConn.watch (e : EchoConn) (a : SharedAct) (s : SharedConn) : EchoConn :=
  match a with
  | .other a => { e with shared := s, received := e.received ++ e.shared.conn.heard a }
  | .beginPong =>
    let payload := (e.shared.conn.pingCh.map Frame.payload).headD []
    -- A frame that is too large fails at once.
    if s.senderCall.isSome then { e with shared := s, writing := some payload }
    else { e with shared := s, pongs := e.pongs ++ [⟨payload, true⟩] }
  | .endSender fault =>
    match e.shared.senderCall with
    | some (call, _) =>
      let failed := (e.shared.writeOut call fault).1.isSome
      { e with shared := s, writing := none, pongs := e.pongs ++ e.writing.toList.map (Pong.mk · failed) }
    | none => { e with shared := s }
  | _ => { e with shared := s }

def EchoConn.step (p : Personality) (e : EchoConn) (a : SharedAct) : Option EchoConn :=
  (e.shared.step p a).map (e.watch a)

@[simp] theorem watch_shared (e : EchoConn) (a : SharedAct) (s : SharedConn) : (e.watch a s).shared = s := by
  unfold EchoConn.watch
  repeat' split
  all_goals rfl

/-- Watching disturbs nothing: every run is watched. -/
theorem run_watched {p : Personality} (acts : List SharedAct) (e : EchoConn) :
    (run (EchoConn.step p) e acts).map EchoConn.shared = run (SharedConn.step p) e.shared acts := by
  induction acts generalizing e with
  | nil => rfl
  | cons a acts ih =>
    simp only [run_cons, EchoConn.step]
    cases e.shared.step p a with
    | none => rfl
    | some s =>
      simp only [Option.map_some, Option.bind_some]
      rw [ih, watch_shared]

/-! ## One step -/

def kept (received : List Ping) : List Bytes := (received.filter fun x => !x.dropped).map Ping.payload

def answered (pongs : List Pong) : List Bytes := (pongs.filter fun x => !x.failed).map Pong.payload

@[simp] theorem kept_append (l m : List Ping) : kept (l ++ m) = kept l ++ kept m := by simp [kept]

@[simp] theorem answered_append (l m : List Pong) : answered (l ++ m) = answered l ++ answered m := by simp [answered]

theorem other_pings {p : Personality} {c c' : Conn} {a : Act} {o : Owner} (ho : a.owner = some o)
    (h : c.step p a = some c') : c'.pingCh.map Frame.payload = c.pingCh.map Frame.payload ++ kept (c.heard a) := by
  cases a with
  | takePing fault => cases ho
  | sendRound d => cases ho
  | sendPing now fault => cases ho
  | recv chunk now =>
    unfold Conn.heard
    obtain ⟨hpart, hview⟩ | ⟨n, f, hframe, hview⟩ := recv_control h
    · have hch : c'.pingCh = c.pingCh := congrArg ControlView.pingCh hview
      rw [hpart, hch]
      simp [kept]
    · rw [handleFrame_control] at hview
      have hch := congrArg ControlView.pingCh hview
      dsimp only [Conn.controlView] at hch
      rw [hframe, hch]
      by_cases hping : f.type = typePing <;> by_cases hroom : c.pingCh.length < controlCap <;>
        simp [hping, hroom, kept]
  | takePong =>
    cases step_inv h with
    | takePong | drainPong => simp [Conn.heard, Conn.completes, kept, Conn.processPong]
  | _ =>
    have hch := congrArg ControlView.pingCh (step_control h id)
    dsimp only [Conn.controlView] at hch
    rw [hch]
    simp [Conn.heard, Conn.completes, kept]

theorem answered_writing (writing : Option Bytes) (failed : Bool) :
    answered (writing.toList.map (Pong.mk · failed)) = if failed then [] else writing.toList := by
  cases writing <;> cases failed <;> rfl

theorem map_writing (writing : Option Bytes) (failed : Bool) :
    (writing.toList.map (Pong.mk · failed)).map Pong.payload = writing.toList := by
  cases writing <;> rfl

theorem senderReturn_pingCh (job : Job) (err : Option GoError) (c : Conn) :
    (c.senderReturn job err).pingCh = c.pingCh :=
  (senderReturn_keeps job err c).2.1

/-- The wire holds whole frames, and the PONGs among them carry the payloads. -/
def WireShows (wire : Bytes) (payloads : List Bytes) : Prop :=
  ∃ sent : List Sent, (∀ x ∈ sent, x.1.Legal) ∧ wire = encodeAll sent ∧
    (sent.map Prod.fst).filterMap pongOf = payloads

theorem WireShows.pongPayloads_eq {wire : Bytes} {payloads : List Bytes} (h : WireShows wire payloads) :
    pongPayloads wire = payloads := by
  obtain ⟨sent, hlegal, rfl, hpongs⟩ := h
  unfold pongPayloads
  rw [peerFrames_encodeAll hlegal]
  exact hpongs

theorem wireShows_writeOut {s : SharedConn} {payloads : List Bytes} (h : WireShows s.conn.wire payloads) {call : Call}
    {f : Frame} {pad : Bytes} (hlegal : f.Legal) (hslice : s.slice call = f.encode pad) (fault : Option SysError) :
    WireShows (s.writeOut call fault).2.wire
      (payloads ++ if (s.writeOut call fault).1.isSome then [] else (pongOf f).toList) := by
  unfold SharedConn.writeOut
  split
  · simpa using h
  · obtain ⟨sent, hsent, hwire, hpongs⟩ := h
    refine ⟨sent ++ [(f, pad)], ?_, ?_, ?_⟩
    · intro x hx
      rw [List.mem_append, List.mem_singleton] at hx
      obtain hx | rfl := hx
      · exact hsent x hx
      · exact hlegal
    · simp [hwire, hslice]
    · rw [List.map_append, List.filterMap_append, hpongs]
      cases hf : pongOf f <;> simp [hf]

theorem writeOut_pingCh (s : SharedConn) (call : Call) (fault : Option SysError) :
    (s.writeOut call fault).2.pingCh = s.conn.pingCh := by
  obtain ⟨wire, hwire⟩ := writeOut_wire s call fault
  rw [hwire]

/-- At most one call is in progress, its frame is in the buffer, and `writing` is the PONG among them. -/
inductive OneCall (e : EchoConn) : Prop
  | quiet (hs : e.shared.senderCall = none) (hp : e.shared.pingCall = none) (hw : e.writing = none)
  | sender (call : Call) (job : Job) (f : Frame) (pad : Bytes) (hs : e.shared.senderCall = some (call, job))
      (hp : e.shared.pingCall = none) (hw : e.writing = pongOf f) (hlegal : f.Legal)
      (hslice : e.shared.slice call = f.encode pad)
  | ping (call : Call) (f : Frame) (pad : Bytes) (hs : e.shared.senderCall = none)
      (hp : e.shared.pingCall = some call) (hw : e.writing = none) (hf : pongOf f = none) (hlegal : f.Legal)
      (hslice : e.shared.slice call = f.encode pad)

structure Echoes (e : EchoConn) : Prop where
  call : OneCall e
  wire : WireShows e.shared.conn.wire (answered e.pongs)
  order : kept e.received =
    e.pongs.map Pong.payload ++ (e.writing.toList ++ e.shared.conn.pingCh.map Frame.payload)

theorem OneCall.writing_of_idle {e : EchoConn} (h : OneCall e) (hs : e.shared.senderCall = none) :
    e.writing = none := by
  cases h with
  | quiet _ _ hw => exact hw
  | sender call job f pad hs' => rw [hs] at hs'; cases hs'
  | ping call f pad _ _ hw => exact hw

theorem echoes_other {e : EchoConn} (h : Echoes e) {c : Conn} {heard : List Ping} (hwire : c.wire = e.shared.conn.wire)
    (hpings : c.pingCh.map Frame.payload = e.shared.conn.pingCh.map Frame.payload ++ kept heard) :
    Echoes { e with shared := { e.shared with conn := c }, received := e.received ++ heard } where
  call := by
    cases h.call with
    | quiet hs hp hw => exact .quiet hs hp hw
    | sender call job f pad hs hp hw hlegal hslice => exact .sender call job f pad hs hp hw hlegal hslice
    | ping call f pad hs hp hw hf hlegal hslice => exact .ping call f pad hs hp hw hf hlegal hslice
  wire := by
    dsimp only
    rw [hwire]
    exact h.wire
  order := by
    dsimp only
    rw [kept_append, h.order, hpings]
    simp only [List.append_assoc]

theorem Echoes.order_of_idle {e : EchoConn} (h : Echoes e) (hs : e.shared.senderCall = none) :
    kept e.received = e.pongs.map Pong.payload ++ e.shared.conn.pingCh.map Frame.payload := by
  rw [h.order, h.call.writing_of_idle hs]
  rfl

theorem echoes_endSender {e : EchoConn} (h : Echoes e) {fault : Option SysError} {call : Call} {job : Job}
    (hcall : e.shared.senderCall = some (call, job)) :
    Echoes (e.watch (.endSender fault) { e.shared with
      senderCall := none
      conn := (e.shared.writeOut call fault).2.senderReturn job (e.shared.writeOut call fault).1 }) := by
  cases h.call with
  | quiet hs hp hw => simp [hs] at hcall
  | ping call f pad hs hp hw hf hlegal hslice => simp [hs] at hcall
  | sender call' job' f pad hs hp hw hlegal hslice =>
    obtain ⟨rfl, rfl⟩ := Prod.mk.inj (Option.some.inj (hs.symm.trans hcall))
    have hshows := wireShows_writeOut h.wire hlegal hslice fault
    unfold EchoConn.watch
    simp only [hs]
    refine ⟨.quiet rfl hp rfl, ?_, ?_⟩
    · dsimp only
      rw [answered_append, answered_writing, hw, senderReturn_wire]
      exact hshows
    · dsimp only
      rw [List.map_append, map_writing, senderReturn_pingCh, writeOut_pingCh, h.order]
      simp

theorem echoes_endPing {e : EchoConn} (h : Echoes e) {fault : Option SysError} {call : Call}
    (hcall : e.shared.pingCall = some call) :
    Echoes { e with shared := { e.shared with
      pingCall := none
      conn := (e.shared.writeOut call fault).2.keepaliveReturn (e.shared.writeOut call fault).1 } } := by
  cases h.call with
  | quiet hs hp hw => simp [hp] at hcall
  | sender call job f pad hs hp hw hlegal hslice => simp [hp] at hcall
  | ping call' f pad hs hp hw hf hlegal hslice =>
    obtain rfl := Option.some.inj (hp.symm.trans hcall)
    have hshows := wireShows_writeOut h.wire hlegal hslice fault
    rw [hf, Option.toList_none, ite_self, List.append_nil] at hshows
    refine ⟨.quiet hs rfl hw, hshows, ?_⟩
    change _ = _ ++ (_ ++ (e.shared.writeOut call' fault).2.pingCh.map Frame.payload)
    rw [writeOut_pingCh]
    exact h.order

theorem echoes_step {p : Personality} {e e' : EchoConn} {a : SharedAct} (h : Echoes e) (hex : Exclusive e.shared a)
    (hstep : e.step p a = some e') : Echoes e' := by
  obtain ⟨s, hs, rfl⟩ := Option.map_eq_some_iff.mp hstep
  cases shared_inv hs with
  | other ho _ _ hc => exact echoes_other h (step_wire ho hc) (other_pings ho hc)
  | pongFails err hidle hch =>
    have horder := h.order_of_idle hidle
    have hw := h.call.writing_of_idle hidle
    simp only [EchoConn.watch, hidle, hch, Option.isSome_none, Bool.false_eq_true, if_false, List.map_cons,
      List.headD_cons] at horder ⊢
    refine ⟨.quiet rfl hex hw, ?_, ?_⟩
    · rw [answered_append, senderReturn_wire]
      simpa [answered] using h.wire
    · rw [senderReturn_pingCh, hw, horder]
      simp
  | beginPong hidle hch hplaced =>
    have horder := h.order_of_idle hidle
    simp only [EchoConn.watch, hch, Option.isSome_some, if_true, List.map_cons, List.headD_cons] at horder ⊢
    exact ⟨.sender _ .pong _ [] rfl hex rfl hplaced.legal hplaced.slice, h.wire, horder⟩
  | beginData hidle _ _ hplaced =>
    have hw := h.call.writing_of_idle hidle
    exact ⟨.sender _ (.data _) (dataFrame _ _) _ rfl hex hw hplaced.legal hplaced.slice, h.wire, h.order⟩
  | beginPing _ _ hplaced =>
    have hw := h.call.writing_of_idle hex
    exact ⟨.ping _ _ [] hex rfl hw (by decide) hplaced.legal hplaced.slice, h.wire, h.order⟩
  | endSender hcall => exact echoes_endSender h hcall
  | endPing hcall => exact echoes_endPing h hcall

/-! ## Whole runs -/

theorem answered_sublist (pongs : List Pong) : List.Sublist (answered pongs) (pongs.map Pong.payload) :=
  List.Sublist.map _ List.filter_sublist

theorem kept_sublist (received : List Ping) : List.Sublist (kept received) (received.map Ping.payload) :=
  List.Sublist.map _ List.filter_sublist

/-- **PONGs echo PINGs**, where no call begins while the other goroutine is inside `WriteFrame`. -/
theorem pongs_echo_pings (p : Personality) (acts : List SharedAct) (e : EchoConn)
    (hex : AllSteps (EchoConn.step p) (fun e a => Exclusive e.shared a) {} acts)
    (hrun : run (EchoConn.step p) {} acts = some e) :
    List.Sublist (pongPayloads e.shared.conn.wire) (e.received.map Ping.payload) ∧
      pongPayloads e.shared.conn.wire = answered e.pongs ∧
      kept e.received =
        e.pongs.map Pong.payload ++ (e.writing.toList ++ e.shared.conn.pingCh.map Frame.payload) := by
  have hinit : Echoes {} := ⟨.quiet rfl rfl rfl, ⟨[], by simp, rfl, rfl⟩, rfl⟩
  have h := run_invariant_when (fun _ _ _ h hex hstep => echoes_step h hex hstep) acts {} e hinit hex hrun
  have hpongs := h.wire.pongPayloads_eq
  refine ⟨?_, hpongs, h.order⟩
  rw [hpongs]
  apply (answered_sublist e.pongs).trans
  apply List.Sublist.trans ?_ (kept_sublist e.received)
  rw [h.order]
  exact List.sublist_append_left _ _

theorem pongs_echo_pings_five :
    let p : Personality := { maxBurstBytes := 524288, keepaliveIdle := 45000000000 }
    let ping (b : UInt8) : Bytes := Frame.encode { type := typePing, payload := [b] } []
    let recv (b : UInt8) : List SharedAct := [.other (.recv ((ping b).take 11) 0), .other (.recv ((ping b).drop 11) 0)]
    let acts : List SharedAct :=
      .other (.read 16) :: (recv 1 ++ recv 2 ++ recv 3 ++ recv 4 ++ recv 5 ++ [.beginPong, .endSender none])
    ∃ e, run (EchoConn.step p) {} acts = some e ∧ e.received.map Ping.dropped = [false, false, false, false, true] ∧
      List.Sublist (pongPayloads e.shared.conn.wire) (e.received.map Ping.payload) ∧
      pongPayloads e.shared.conn.wire = answered e.pongs ∧
      kept e.received =
        e.pongs.map Pong.payload ++ (e.writing.toList ++ e.shared.conn.pingCh.map Frame.payload) := by
  intro p ping recv acts
  have hruns : ((run (EchoConn.step p) {} acts).map fun e => e.received.map Ping.dropped) =
      some [false, false, false, false, true] := by decide +kernel
  obtain ⟨e, he, hdropped⟩ := Option.map_eq_some_iff.mp hruns
  have hex : AllSteps (EchoConn.step p) (fun e a => Exclusive e.shared a) {} acts := by decide +kernel
  exact ⟨e, he, hdropped, pongs_echo_pings p acts e hex he⟩

/-- The keepalive writes out the sender's PONG in place of its own PING, so one PING is answered twice. -/
theorem pong_repeated :
    let p : Personality := { maxBurstBytes := 524288, keepaliveIdle := 45000000000 }
    let ping : Bytes := Frame.encode { type := typePing, payload := [1, 2, 3, 4, 5, 6, 7, 8] } []
    let acts : List SharedAct := [.other .keepaliveTimer, .other (.keepaliveCheck 45000000000), .other (.read 16),
      .other (.recv (ping.take 11) 45000000000), .other (.recv (ping.drop 11) 45000000000),
      .beginPing 45000000000, .beginPong, .endPing none, .endSender none]
    ((run (EchoConn.step p) {} acts).map fun e => (e.received, pongPayloads e.shared.conn.wire)) =
      some ([⟨[1, 2, 3, 4, 5, 6, 7, 8], false⟩], [[1, 2, 3, 4, 5, 6, 7, 8], [1, 2, 3, 4, 5, 6, 7, 8]]) := by
  decide +kernel

end Daxson.Bcl
