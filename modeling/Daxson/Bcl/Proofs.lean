import Daxson.Bcl.Spec

/-! # What a step of a shaped connection can do

Every law of the connection follows from what a step sends and what it does to the `Read` call.
-/

namespace Daxson.Bcl

open Protocol

/-! ## Frames on the wire -/

abbrev Sent := Frame × Bytes

def encodeAll (fs : List Sent) : Bytes := fs.flatMap fun x => x.1.encode x.2

def dataOf (fs : List Sent) : Bytes := fs.flatMap fun x => if x.1.type = typeData then x.1.payload else []

@[simp] theorem encodeAll_nil : encodeAll [] = [] := rfl

@[simp] theorem encodeAll_append (fs gs : List Sent) : encodeAll (fs ++ gs) = encodeAll fs ++ encodeAll gs :=
  List.flatMap_append

@[simp] theorem encodeAll_cons (x : Sent) (fs : List Sent) : encodeAll (x :: fs) = x.1.encode x.2 ++ encodeAll fs :=
  rfl

@[simp] theorem dataOf_nil : dataOf [] = [] := rfl

@[simp] theorem dataOf_append (fs gs : List Sent) : dataOf (fs ++ gs) = dataOf fs ++ dataOf gs :=
  List.flatMap_append

theorem dataOf_singleton (x : Sent) : dataOf [x] = if x.1.type = typeData then x.1.payload else [] := by
  simp [dataOf]

/-! ## The frames that the sender makes -/

theorem maxPayload_le (size : Int) : maxPayload size ≤ maxPayloadSize := by
  unfold maxPayload
  dsimp only
  split_ifs <;> omega

theorem selectPadding_le (target : Option Int) (n : Nat) : (selectPadding target n).toNat ≤ maxPaddingSize := by
  unfold selectPadding
  cases target with
  | none => exact Nat.zero_le _
  | some t =>
    dsimp only
    split_ifs with h0 hmax
    · decide
    · decide
    · have hle : (t - frameHeaderSize - n).toNat ≤ maxPaddingSize := by omega
      rw [UInt16.toNat_ofNat_of_lt' (by unfold maxPaddingSize at hle; change _ < 65536; omega)]
      exact hle

theorem dataFrame_legal (d : Round) (remaining : Bytes) : (dataFrame d remaining).Legal := by
  refine ⟨?_, selectPadding_le _ _⟩
  have := maxPayload_le d.apparentSize
  simp only [dataFrame, List.length_take]
  omega

theorem ping_legal : ({ type := typePing, payload := randomBytes 8 } : Frame).Legal := ⟨by decide, by decide⟩

theorem coalesceBurst_eq (chunks : List Bytes) : coalesceBurst chunks = chunks.flatten := by
  unfold coalesceBurst
  split
  · simp
  · rfl

theorem writeFrame_cases (f : Frame) (pad : Bytes) (fault : Option SysError) (c : Conn) :
    (∃ e, c.writeFrame f pad fault = (some e, c) ∧ (f.Legal → c.connClosed = true ∨ fault ≠ none)) ∨
      (f.Legal ∧ c.connClosed = false ∧ fault = none ∧
        c.writeFrame f pad fault = (none, { c with wire := c.wire ++ f.encode pad })) := by
  unfold Conn.writeFrame
  by_cases hlegal : f.Legal
  · rw [writeFrame_legal hlegal]
    cases hclosed : c.connClosed with
    | true => exact .inl ⟨_, rfl, fun _ => .inl rfl⟩
    | false =>
      cases fault with
      | some e => exact .inl ⟨_, rfl, fun _ => .inr (by simp)⟩
      | none => exact .inr ⟨hlegal, rfl, rfl, rfl⟩
  · left
    cases hw : Protocol.writeFrame f pad with
    | error e => exact ⟨e, rfl, fun h => absurd h hlegal⟩
    | ok b =>
      unfold Protocol.writeFrame at hw
      split_ifs at hw with h1 h2
      exact absurd ⟨by omega, by omega⟩ hlegal

theorem writeFrame_wire (f : Frame) (pad : Bytes) (fault : Option SysError) (c : Conn) :
    ∃ wire, (c.writeFrame f pad fault).2 = { c with wire := wire } := by
  rcases writeFrame_cases f pad fault c with ⟨e, heq, -⟩ | ⟨-, -, -, heq⟩
  · exact ⟨c.wire, by rw [heq]⟩
  · exact ⟨_, by rw [heq]⟩

theorem writeFrame_sender (f : Frame) (pad : Bytes) (fault : Option SysError) (c : Conn) :
    (c.writeFrame f pad fault).2.sender = c.sender := by
  obtain ⟨wire, hwire⟩ := writeFrame_wire f pad fault c
  rw [hwire]

/-! ## The steps that write or read a frame -/

/-- The sender is in one of its selects. -/
def Sender.Selects : Sender → Prop
  | .wait | .collect _ _ | .drain | .think => True
  | .taken _ | .flush _ | .stopped => False

theorem takePing_inv {c c' : Conn} {fault : Option SysError} (h : c.takePing fault = some c') :
    ∃ ping rest, c.pingCh = ping :: rest ∧ c.sender.Selects ∧
      let c₁ := Conn.writePong ping fault { c with pingCh := rest }
      (c.sender = .drain ∧ c' = { c₁ with sender := .think, state := .think } ∨ c.sender ≠ .drain ∧ c' = c₁) := by
  unfold Conn.takePing at h
  cases hch : c.pingCh with
  | nil => simp [hch] at h
  | cons ping rest =>
    rw [hch] at h
    refine ⟨ping, rest, rfl, ?_⟩
    cases hc : c.sender with
    | taken item => simp [hc] at h
    | flush remaining => simp [hc] at h
    | stopped => simp [hc] at h
    | drain =>
      rw [hc] at h
      exact ⟨trivial, .inl ⟨rfl, (Option.some.inj h).symm⟩⟩
    | _ =>
      rw [hc] at h
      exact ⟨trivial, .inr ⟨by simp, (Option.some.inj h).symm⟩⟩

theorem sendRound_inv {c c' : Conn} {d : Round} (h : c.sendRound d = some c') :
    ∃ remaining, c.sender = .flush remaining ∧ remaining.isEmpty = false ∧
      ((∃ e, c.writeFrame (dataFrame d remaining) d.pad d.fault = (some e, c) ∧
          (c.connClosed = true ∨ d.fault ≠ none) ∧
          c' = { Conn.endCycle c with
            writeErr := some (.wrap "bcl: write frame: %w" [] e), dropped := c.dropped ++ remaining }) ∨
        ∃ wire, c.writeFrame (dataFrame d remaining) d.pad d.fault = (none, { c with wire := wire }) ∧
          wire = c.wire ++ (dataFrame d remaining).encode d.pad ∧ c.connClosed = false ∧ d.fault = none ∧
          c' = { c with
            wire := wire, sender := .flush (remaining.drop (maxPayload d.apparentSize)), lastActivityNs := d.now
            dataSent := c.dataSent ++ (dataFrame d remaining).payload }) := by
  unfold Conn.sendRound at h
  split at h
  · rename_i remaining hs
    split_ifs at h with hempty
    dsimp only at h
    refine ⟨remaining, hs, by simpa using hempty, ?_⟩
    rcases writeFrame_cases (dataFrame d remaining) d.pad d.fault c with ⟨e, heq, hwhy⟩ | ⟨-, hopen, hfault, heq⟩
    · rw [heq] at h
      exact .inl ⟨e, heq, hwhy (dataFrame_legal d remaining), (Option.some.inj h).symm⟩
    · rw [heq] at h
      exact .inr ⟨_, heq, rfl, hopen, hfault, (Option.some.inj h).symm⟩
  · cases h

theorem sendPing_inv {c c' : Conn} {now : Int} {fault : Option SysError} (h : c.sendPing now fault = some c') :
    c.keepalive = .sendPing ∧
      let w := Conn.writeFrame { type := typePing, payload := randomBytes 8 } [] fault
        { c with pendingPingSent := now }
      c' = { w.2 with keepalive := if w.1.isSome then .stopped else .wait } := by
  unfold Conn.sendPing at h
  dsimp only
  generalize Conn.writeFrame { type := typePing, payload := randomBytes 8 } [] fault
    { c with pendingPingSent := now } = w at h ⊢
  obtain ⟨err, c₁⟩ := w
  cases hk : c.keepalive with
  | sendPing =>
    rw [hk] at h
    refine ⟨rfl, ?_⟩
    cases err <;> exact (Option.some.inj h).symm
  | _ => simp [hk] at h

theorem recv_inv {c c' : Conn} {chunk : Bytes} {now : Int} (h : c.recv chunk now = some c') :
    ∃ n got k, c.reader = .reading n got ∧ scan got = .need k ∧ chunk ≠ [] ∧ chunk.length ≤ k ∧
      ((∃ k', scan (got ++ chunk) = .need k' ∧ c' = { c with reader := .reading n (got ++ chunk) }) ∨
        (∃ e, scan (got ++ chunk) = .fail e ∧ c' = { c with reader := .none }) ∨
        ∃ f, scan (got ++ chunk) = .frame f ∧ c' = Conn.handleFrame n f { c with lastActivityNs := now }) := by
  unfold Conn.recv at h
  split at h
  · cases h
  · rename_i n got hreader
    split at h
    · rename_i k hneed
      split_ifs at h with hchunk
      simp only [Bool.or_eq_true, List.isEmpty_iff, decide_eq_true_eq, not_or, Nat.not_lt] at hchunk
      refine ⟨n, got, k, hreader, hneed, hchunk.1, hchunk.2, ?_⟩
      split at h
      · rename_i k' hscan
        exact .inl ⟨k', hscan, (Option.some.inj h).symm⟩
      · rename_i e hscan
        exact .inr (.inl ⟨e, hscan, (Option.some.inj h).symm⟩)
      · rename_i f hscan
        exact .inr (.inr ⟨f, hscan, (Option.some.inj h).symm⟩)
    · cases h

/-! ## Every step -/

/-- What a step can do. -/
inductive Stepped (p : Personality) (c : Conn) : Act → Conn → Prop
  | write (b : Bytes) : Stepped p c (.write b) (c.write b)
  | writeSend (i : Nat) (b : Bytes) (hb : c.writers[i]? = some b) (hroom : c.inbox.length < inboxCap) :
      Stepped p c (.writeSend i)
        { c with writers := c.writers.eraseIdx i, inbox := c.inbox ++ [b], accepted := c.accepted ++ b }
  | writeClosed (i : Nat) (hcancel : c.canceled = true) (hi : i < c.writers.length) :
      Stepped p c (.writeClosed i) { c with writers := c.writers.eraseIdx i }
  | readFrame (n : Nat) (hreader : c.reader = .none) (hbuf : c.readBuf.isEmpty = true) :
      Stepped p c (.read n) { c with reader := .reading n [] }
  | readBuffered (n : Nat) (hreader : c.reader = .none) (hbuf : c.readBuf.isEmpty = false) :
      Stepped p c (.read n) { c with returned := c.returned ++ c.readBuf.take n, readBuf := c.readBuf.drop n }
  | recvPart (chunk : Bytes) (now : Int) (n : Nat) (got : Bytes) (hreader : c.reader = .reading n got) (k : Nat)
      (hscan : scan (got ++ chunk) = .need k) :
      Stepped p c (.recv chunk now) { c with reader := .reading n (got ++ chunk) }
  | recvBad (chunk : Bytes) (now : Int) (n : Nat) (got : Bytes) (hreader : c.reader = .reading n got) (e : GoError)
      (hscan : scan (got ++ chunk) = .fail e) : Stepped p c (.recv chunk now) { c with reader := .none }
  | recvFrame (chunk : Bytes) (now : Int) (n : Nat) (f : Frame) (got : Bytes) (hreader : c.reader = .reading n got)
      (hscan : scan (got ++ chunk) = .frame f) :
      Stepped p c (.recv chunk now) (Conn.handleFrame n f { c with lastActivityNs := now })
  | recvFails (hreader : c.reader ≠ .none) : Stepped p c .recvFails { c with reader := .none }
  | takeFirst (item : Bytes) (rest : List Bytes) (hin : c.inbox = item :: rest)
      (hs : c.sender = .wait ∨ c.sender = .drain ∨ c.sender = .think) :
      Stepped p c .takeItem { c with inbox := rest, sender := .taken item }
  | startBurst (item : Bytes) (hs : c.sender = .taken item) :
      Stepped p c .startBurst { c with
        state := .burst, sender := .collect [item] item.length, depth := c.depth + 1 }
  | takeNext (item : Bytes) (rest : List Bytes) (hin : c.inbox = item :: rest) (burst : List Bytes) (total : Nat)
      (hs : c.sender = .collect burst total) :
      Stepped p c .takeItem { c with
        inbox := rest
        sender := if p.maxBurstBytes ≤ (total + item.length : Nat) then .flush (coalesceBurst (burst ++ [item]))
          else .collect (burst ++ [item]) (total + item.length) }
  | takePing (fault : Option SysError) (ping : Frame) (rest : List Frame) (hch : c.pingCh = ping :: rest)
      (hsel : c.sender.Selects) (hs : c.sender ≠ .drain) :
      Stepped p c (.takePing fault) (Conn.writePong ping fault { c with pingCh := rest })
  | drainPing (fault : Option SysError) (ping : Frame) (rest : List Frame) (hch : c.pingCh = ping :: rest)
      (hs : c.sender = .drain) :
      Stepped p c (.takePing fault)
        { Conn.writePong ping fault { c with pingCh := rest } with sender := .think, state := .think }
  | takePong (pong : Frame) (rest : List Frame) (hch : c.pongCh = pong :: rest) (hs : c.sender = .think) :
      Stepped p c .takePong (Conn.processPong { c with pongCh := rest })
  | drainPong (pong : Frame) (rest : List Frame) (hch : c.pongCh = pong :: rest) (hs : c.sender = .drain) :
      Stepped p c .takePong { Conn.processPong { c with pongCh := rest } with sender := .think, state := .think }
  | collected (burst : List Bytes) (total : Nat) (hs : c.sender = .collect burst total) :
      Stepped p c .timer { c with sender := .flush (coalesceBurst burst) }
  | drained (hs : c.sender = .drain) : Stepped p c .timer { c with sender := .think, state := .think }
  | rested (hs : c.sender = .think) : Stepped p c .timer { Conn.endCycle c with state := .idle }
  | stop (hcancel : c.canceled = true) (hs : c.sender = .wait) : Stepped p c .senderDone { c with sender := .stopped }
  | giveUp (hcancel : c.canceled = true) (burst : List Bytes) (total : Nat) (hs : c.sender = .collect burst total) :
      Stepped p c .senderDone { Conn.endCycle c with dropped := c.dropped ++ burst.flatten }
  | cut (hcancel : c.canceled = true) (hs : c.sender = .drain ∨ c.sender = .think) :
      Stepped p c .senderDone (Conn.endCycle c)
  | roundFails (d : Round) (remaining : Bytes) (e : GoError) (hs : c.sender = .flush remaining)
      (hwhy : c.connClosed = true ∨ d.fault ≠ none)
      (herr : c.writeFrame (dataFrame d remaining) d.pad d.fault = (some e, c)) :
      Stepped p c (.sendRound d) { Conn.endCycle c with
        writeErr := some (.wrap "bcl: write frame: %w" [] e), dropped := c.dropped ++ remaining }
  | round (d : Round) (remaining : Bytes) (hs : c.sender = .flush remaining) (hopen : c.connClosed = false)
      (hfault : d.fault = none) :
      Stepped p c (.sendRound d) { c with
        wire := c.wire ++ (dataFrame d remaining).encode d.pad
        sender := .flush (remaining.drop (maxPayload d.apparentSize)), lastActivityNs := d.now
        dataSent := c.dataSent ++ (dataFrame d remaining).payload }
  | flushed (hs : c.sender = .flush []) : Stepped p c .flushed { c with sender := .drain, state := .drain }
  | keepaliveBusy (hk : c.keepalive = .wait)
      (hst : ¬ (c.state = .idle ∨ c.state = .think)) : Stepped p c .keepaliveTimer c
  | keepaliveTimer (hk : c.keepalive = .wait) (hst : c.state = .idle ∨ c.state = .think) :
      Stepped p c .keepaliveTimer { c with keepalive := .checkIdle }
  | keepaliveCheck (now : Int) (hk : c.keepalive = .checkIdle) :
      Stepped p c (.keepaliveCheck now) { c with
        keepalive := if now - c.lastActivityNs < Int.tdiv p.keepaliveIdle 2 then .wait else .sendPing }
  | sendPing (now : Int) (fault : Option SysError) (hk : c.keepalive = .sendPing) (keepalive : Keepalive)
      (hnext : keepalive =
        if (Conn.writeFrame { type := typePing, payload := randomBytes 8 } [] fault
          { c with pendingPingSent := now }).1.isSome then .stopped else .wait) :
      Stepped p c (.sendPing now fault)
        { (Conn.writeFrame { type := typePing, payload := randomBytes 8 } [] fault
            { c with pendingPingSent := now }).2 with keepalive := keepalive }
  | keepaliveDone (hk : c.keepalive = .wait) (hcancel : c.canceled = true) :
      Stepped p c .keepaliveDone { c with keepalive := .stopped }
  | cancel : Stepped p c .cancel { c with canceled := true }
  | closeConn (hcancel : c.canceled = true) : Stepped p c .closeConn { c with connClosed := true }
  | closeReturn (hconn : c.connClosed = true) (hs : c.sender = .stopped) (hk : c.keepalive = .stopped) :
      Stepped p c .closeReturn { c with closed := true }

theorem takeItem_inv {p : Personality} {c c' : Conn} (h : c.takeItem p = some c') : Stepped p c .takeItem c' := by
  unfold Conn.takeItem at h
  cases hin : c.inbox with
  | nil => simp [hin] at h
  | cons item rest =>
    rw [hin] at h
    cases hs : c.sender with
    | taken | flush | stopped => simp [hs] at h
    | collect burst total =>
      rw [hs] at h
      have := @Stepped.takeNext p c item rest hin burst total hs
      dsimp only at h
      split_ifs at h with hfull
      · rw [if_pos hfull] at this
        exact Option.some.inj h ▸ this
      · rw [if_neg hfull] at this
        exact Option.some.inj h ▸ this
    | wait | drain | think =>
      rw [hs] at h
      exact Option.some.inj h ▸ .takeFirst item rest hin (by simp [hs])

theorem takePong_inv {p : Personality} {c c' : Conn} (h : c.takePong = some c') : Stepped p c .takePong c' := by
  unfold Conn.takePong at h
  split at h
  · cases h
  · rename_i pong rest hch
    split at h
    · rename_i hs
      exact Option.some.inj h ▸ .drainPong pong rest hch hs
    · rename_i hs
      exact Option.some.inj h ▸ .takePong pong rest hch hs
    · cases h

theorem timer_inv {p : Personality} {c c' : Conn} (h : c.timer = some c') : Stepped p c .timer c' := by
  unfold Conn.timer at h
  cases hs : c.sender with
  | collect burst total =>
    rw [hs] at h
    exact Option.some.inj h ▸ .collected burst total hs
  | drain =>
    rw [hs] at h
    exact Option.some.inj h ▸ .drained hs
  | think =>
    rw [hs] at h
    exact Option.some.inj h ▸ .rested hs
  | _ => simp [hs] at h

theorem senderDone_inv {p : Personality} {c c' : Conn} (h : c.senderDone = some c') : Stepped p c .senderDone c' := by
  unfold Conn.senderDone at h
  split_ifs at h with hcancel
  cases hs : c.sender with
  | wait =>
    rw [hs] at h
    exact Option.some.inj h ▸ .stop hcancel hs
  | collect burst total =>
    rw [hs] at h
    exact Option.some.inj h ▸ .giveUp hcancel burst total hs
  | drain | think =>
    rw [hs] at h
    exact Option.some.inj h ▸ .cut hcancel (by simp [hs])
  | _ => simp [hs] at h

theorem keepaliveTimer_inv {p : Personality} {c c' : Conn} (h : c.keepaliveTimer = some c') :
    Stepped p c .keepaliveTimer c' := by
  unfold Conn.keepaliveTimer at h
  split at h
  · rename_i hk
    split at h
    iterate 3
      · rename_i hst
        exact Option.some.inj h ▸ .keepaliveBusy hk (by simp [hst])
    · rename_i hburst hdrain hcongested
      refine Option.some.inj h ▸ .keepaliveTimer hk ?_
      cases hst : c.state with
      | idle => exact .inl rfl
      | think => exact .inr rfl
      | burst => exact absurd hst hburst
      | drain => exact absurd hst hdrain
      | congested => exact absurd hst hcongested
  · cases h

theorem step_inv {p : Personality} {c c' : Conn} {a : Act} (h : c.step p a = some c') : Stepped p c a c' := by
  cases a with
  | write b => exact Option.some.inj h ▸ .write b
  | writeSend i =>
    simp only [Conn.step, Conn.writeSend] at h
    cases hb : c.writers[i]? with
    | none => simp [hb] at h
    | some b =>
      rw [hb] at h
      dsimp only at h
      split_ifs at h with hroom
      exact Option.some.inj h ▸ .writeSend i b hb hroom
  | writeClosed i =>
    simp only [Conn.step, Conn.writeClosed, Bool.and_eq_true, decide_eq_true_eq] at h
    split_ifs at h with hwait
    exact Option.some.inj h ▸ .writeClosed i hwait.1 hwait.2
  | read n =>
    simp only [Conn.step, Conn.read] at h
    split at h
    · cases h
    · rename_i hreader
      split_ifs at h with hbuf
      · exact Option.some.inj h ▸ .readFrame n hreader hbuf
      · exact Option.some.inj h ▸ .readBuffered n hreader (by simpa using hbuf)
  | recv chunk now =>
    obtain ⟨n, got, k, hreader, -, -, -, ⟨k', hscan, rfl⟩ | ⟨e, hscan, rfl⟩ | ⟨f, hscan, rfl⟩⟩ := recv_inv h
    · exact .recvPart chunk now n got hreader k' hscan
    · exact .recvBad chunk now n got hreader e hscan
    · exact .recvFrame chunk now n f got hreader hscan
  | recvFails =>
    simp only [Conn.step, Conn.recvFails] at h
    cases hreader : c.reader with
    | none => simp [hreader] at h
    | reading n got =>
      rw [hreader] at h
      exact Option.some.inj h ▸ .recvFails (by simp [hreader])
  | takeItem => exact takeItem_inv h
  | startBurst =>
    simp only [Conn.step, Conn.startBurst] at h
    split at h
    · rename_i item hs
      exact Option.some.inj h ▸ .startBurst item hs
    · cases h
  | takePing fault =>
    obtain ⟨ping, rest, hch, hsel, ⟨hs, rfl⟩ | ⟨hs, rfl⟩⟩ := takePing_inv h
    · exact .drainPing fault ping rest hch hs
    · exact .takePing fault ping rest hch hsel hs
  | takePong => exact takePong_inv h
  | timer => exact timer_inv h
  | senderDone => exact senderDone_inv h
  | sendRound d =>
    obtain ⟨remaining, hs, -, ⟨e, herr, hwhy, rfl⟩ | ⟨_, -, rfl, hopen, hfault, rfl⟩⟩ := sendRound_inv h
    · exact .roundFails d remaining e hs hwhy herr
    · exact .round d remaining hs hopen hfault
  | flushed =>
    simp only [Conn.step, Conn.flushed] at h
    split at h
    · rename_i hs
      exact Option.some.inj h ▸ .flushed hs
    · cases h
  | keepaliveTimer => exact keepaliveTimer_inv h
  | keepaliveCheck now =>
    simp only [Conn.step, Conn.keepaliveCheck] at h
    cases hk : c.keepalive with
    | checkIdle =>
      rw [hk] at h
      have := @Stepped.keepaliveCheck p c now hk
      dsimp only at h
      split_ifs at h with hidle
      · rw [if_pos hidle] at this
        exact Option.some.inj h ▸ this
      · rw [if_neg hidle] at this
        exact Option.some.inj h ▸ this
    | _ => simp [hk] at h
  | sendPing now fault =>
    obtain ⟨hk, rfl⟩ := sendPing_inv h
    exact .sendPing now fault hk _ rfl
  | keepaliveDone =>
    simp only [Conn.step, Conn.keepaliveDone] at h
    cases hk : c.keepalive with
    | wait =>
      rw [hk] at h
      dsimp only at h
      split_ifs at h with hcancel
      exact Option.some.inj h ▸ .keepaliveDone hk hcancel
    | _ => simp [hk] at h
  | cancel => exact Option.some.inj h ▸ .cancel
  | closeConn =>
    simp only [Conn.step, Conn.closeConn] at h
    split_ifs at h with hcancel
    exact Option.some.inj h ▸ .closeConn hcancel
  | closeReturn =>
    simp only [Conn.step, Conn.closeReturn, Bool.and_eq_true, decide_eq_true_eq] at h
    split_ifs at h with hall
    exact Option.some.inj h ▸ .closeReturn hall.1.1 hall.1.2 hall.2

/-! ## The data on its way out -/

def Sender.held : Sender → Bytes
  | .taken item => item
  | .collect burst _ => burst.flatten
  | .flush remaining => remaining
  | _ => []

structure SendView where
  accepted : Bytes
  dataSent : Bytes
  held : Bytes
  queued : Bytes
  dropped : Bytes

def Conn.sendView (c : Conn) : SendView where
  accepted := c.accepted
  dataSent := c.dataSent
  held := c.sender.held
  queued := c.inbox.flatten
  dropped := c.dropped

/-- What a step does to the accepted bytes, given the frames that it puts on the wire. -/
inductive SendStep (c : Conn) (a : Act) (c' : Conn) : List Sent → Prop
  | stay (fs : List Sent) (hdata : dataOf fs = []) (hview : c'.sendView = c.sendView) : SendStep c a c' fs
  | accept (b : Bytes) (hview : c'.sendView =
      { c.sendView with accepted := c.accepted ++ b, queued := c.inbox.flatten ++ b }) : SendStep c a c' []
  | take (b q : Bytes) (hq : c.inbox.flatten = b ++ q)
      (hview : c'.sendView = { c.sendView with held := c.sender.held ++ b, queued := q }) : SendStep c a c' []
  | send (d : Round) (x : Sent) (rest : Bytes) (ha : a = .sendRound d) (hopen : c.connClosed = false)
      (hfault : d.fault = none) (htype : x.1.type = typeData) (hheld : c.sender.held = x.1.payload ++ rest)
      (hview : c'.sendView = { c.sendView with held := rest, dataSent := c.dataSent ++ x.1.payload }) :
      SendStep c a c' [x]
  | drop (hwhy : c.canceled = true ∨ c.connClosed = true ∨ ∃ d, a = .sendRound d ∧ d.fault ≠ none)
      (hview : c'.sendView = { c.sendView with held := [], dropped := c.dropped ++ c.sender.held }) :
      SendStep c a c' []

theorem sendView_eq {c : Conn} {v : SendView} (h : c.sendView = v) :
    c.accepted = v.accepted ∧ c.dataSent = v.dataSent ∧ c.sender.held = v.held ∧ c.inbox.flatten = v.queued ∧
      c.dropped = v.dropped := by
  subst h
  exact ⟨rfl, rfl, rfl, rfl, rfl⟩

theorem inOrder_or_drop {c c' : Conn} {a : Act} {fs : List Sent} (hs : SendStep c a c' fs)
    (h : c.accepted = c.dataSent ++ (c.sender.held ++ c.inbox.flatten)) :
    (c'.accepted = c'.dataSent ++ (c'.sender.held ++ c'.inbox.flatten) ∧ c'.dropped = c.dropped) ∨
      ((c.canceled = true ∨ c.connClosed = true ∨ ∃ d, a = .sendRound d ∧ d.fault ≠ none) ∧
        c'.sendView = { c.sendView with held := [], dropped := c.dropped ++ c.sender.held }) := by
  cases hs with
  | stay _ hdata hview =>
    obtain ⟨ha, hd, hh, hq, hdr⟩ := sendView_eq hview
    rw [ha, hd, hh, hq]
    exact .inl ⟨h, hdr⟩
  | accept b hview =>
    obtain ⟨ha, hd, hh, hq, hdr⟩ := sendView_eq hview
    rw [ha, hd, hh, hq, h]
    exact .inl ⟨by simp [Conn.sendView], hdr⟩
  | take b q hbq hview =>
    obtain ⟨ha, hd, hh, hq, hdr⟩ := sendView_eq hview
    rw [ha, hd, hh, hq]
    exact .inl ⟨by simp [Conn.sendView, h, hbq], hdr⟩
  | send d x rest ha' hopen hfault htype hheld hview =>
    obtain ⟨ha, hd, hh, hq, hdr⟩ := sendView_eq hview
    rw [ha, hd, hh, hq]
    exact .inl ⟨by simp [Conn.sendView, h, hheld], hdr⟩
  | drop hwhy hview => exact .inr ⟨hwhy, hview⟩

def Wired (c c' : Conn) (fs : List Sent) : Prop :=
  (∀ x ∈ fs, x.1.Legal) ∧ c'.wire = c.wire ++ encodeAll fs

theorem wired_nil {c c' : Conn} (h : c'.wire = c.wire) : Wired c c' [] := ⟨by simp, by simp [h]⟩

theorem stays {c c' : Conn} {a : Act} (hwire : c'.wire = c.wire) (hview : c'.sendView = c.sendView) :
    ∃ fs, Wired c c' fs ∧ SendStep c a c' fs :=
  ⟨[], wired_nil hwire, .stay [] rfl hview⟩

theorem control_sends {c c' : Conn} {a : Act} (c₀ : Conn) (f : Frame) (fault : Option SysError)
    (hf : f.type ≠ typeData) (hwire₀ : c₀.wire = c.wire) (hview : c'.sendView = c.sendView)
    (hwire : c'.wire = (c₀.writeFrame f [] fault).2.wire) : ∃ fs, Wired c c' fs ∧ SendStep c a c' fs := by
  rcases writeFrame_cases f [] fault c₀ with ⟨e, heq, -⟩ | ⟨hlegal, -, -, heq⟩
  · rw [heq] at hwire
    exact stays (hwire.trans hwire₀) hview
  · rw [heq] at hwire
    refine ⟨[(f, [])], ⟨by simpa using hlegal, ?_⟩, .stay _ (by simp [dataOf_singleton, hf]) hview⟩
    simp [hwire, hwire₀]

theorem writePong_view (ping : Frame) (fault : Option SysError) (c : Conn) :
    (c.writePong ping fault).sendView = c.sendView := by
  obtain ⟨wire, hwire⟩ := writeFrame_wire { type := typePong, payload := ping.payload } [] fault c
  unfold Conn.writePong
  rw [hwire]
  rfl

theorem handleFrame_sendView (n : Nat) (f : Frame) (c : Conn) :
    (c.handleFrame n f).sendView = c.sendView ∧ (c.handleFrame n f).wire = c.wire := by
  unfold Conn.handleFrame
  split_ifs <;> exact ⟨rfl, rfl⟩

theorem step_sends {p : Personality} {c c' : Conn} {a : Act} (h : c.step p a = some c') :
    ∃ fs, Wired c c' fs ∧ SendStep c a c' fs := by
  have hping : typePing ≠ typeData := by decide
  have hpong : typePong ≠ typeData := by decide
  cases step_inv h with
  | write b =>
    unfold Conn.write
    split_ifs <;> exact stays rfl rfl
  | writeSend i b => exact ⟨[], wired_nil rfl, .accept b (by simp [Conn.sendView])⟩
  | recvFrame chunk now n f =>
    obtain ⟨hview, hwire⟩ := handleFrame_sendView n f { c with lastActivityNs := now }
    exact stays hwire hview
  | takeFirst item rest hin hs =>
    refine ⟨[], wired_nil rfl, .take item rest.flatten (by rw [hin, List.flatten_cons]) ?_⟩
    rcases hs with hs | hs | hs <;> simp [Conn.sendView, Sender.held, hs]
  | takeNext item rest hin burst total hs =>
    refine ⟨[], wired_nil rfl, .take item rest.flatten (by rw [hin, List.flatten_cons]) ?_⟩
    split_ifs <;> simp [Conn.sendView, Sender.held, hs, coalesceBurst_eq]
  | takePing fault ping rest =>
    exact control_sends { c with pingCh := rest } _ fault hpong rfl (writePong_view ping fault _) rfl
  | drainPing fault ping rest hch hs =>
    have hview := writePong_view ping fault { c with pingCh := rest }
    refine control_sends { c with pingCh := rest } _ fault hpong rfl ?_ rfl
    simp only [Conn.sendView, SendView.mk.injEq] at hview ⊢
    exact ⟨hview.1, hview.2.1, by simp [Sender.held, hs], hview.2.2.2⟩
  | startBurst _ hs | drainPong _ _ _ hs | collected _ _ hs | drained hs | rested hs | stop _ hs | flushed hs =>
    exact stays rfl (by simp [Conn.sendView, Conn.endCycle, Conn.processPong, Sender.held, hs, coalesceBurst_eq])
  | giveUp hcancel burst total hs =>
    exact ⟨[], wired_nil rfl, .drop (.inl hcancel) (by simp [Conn.sendView, Conn.endCycle, Sender.held, hs])⟩
  | cut _ hs =>
    refine stays rfl ?_
    rcases hs with hs | hs <;> simp [Conn.sendView, Conn.endCycle, Sender.held, hs]
  | roundFails d remaining e hs hwhy =>
    refine ⟨[], wired_nil rfl, .drop (.inr ?_) (by simp [Conn.sendView, Conn.endCycle, Sender.held, hs])⟩
    exact hwhy.imp id fun hf => ⟨d, rfl, hf⟩
  | round d remaining hs hopen hfault =>
    refine ⟨[(dataFrame d remaining, d.pad)], ⟨by simpa using dataFrame_legal d remaining, by simp⟩, ?_⟩
    refine .send d _ (remaining.drop (maxPayload d.apparentSize)) rfl hopen hfault rfl ?_ ?_
    · rw [hs]
      exact (List.take_append_drop _ _).symm
    · simp [Conn.sendView, Sender.held]
  | sendPing now fault _ keepalive =>
    refine control_sends { c with pendingPingSent := now } { type := typePing, payload := randomBytes 8 } fault hping
      rfl ?_ rfl
    obtain ⟨wire, hwire⟩ := writeFrame_wire { type := typePing, payload := randomBytes 8 } [] fault
      { c with pendingPingSent := now }
    dsimp only
    rw [hwire]
    rfl
  | _ => exact stays rfl rfl

/-! ## The Read call -/

structure ReadView where
  reader : Reader
  readBuf : Bytes
  returned : Bytes

def Conn.readView (c : Conn) : ReadView where
  reader := c.reader
  readBuf := c.readBuf
  returned := c.returned

def Act.isRead : Act → Prop
  | .read _ | .recv _ _ | .recvFails => True
  | _ => False

def Conn.closeView (c : Conn) : Bool × Bool := (c.canceled, c.connClosed)

/-- The steps of the sender and of the keepalive leave both alone. -/
def KeepsAside (c c' : Conn) : Prop := c'.readView = c.readView ∧ c'.closeView = c.closeView

theorem writeFrame_aside (f : Frame) (pad : Bytes) (fault : Option SysError) (c : Conn) :
    KeepsAside c (c.writeFrame f pad fault).2 := by
  obtain ⟨wire, hwire⟩ := writeFrame_wire f pad fault c
  rw [hwire]
  exact ⟨rfl, rfl⟩

theorem step_readView {p : Personality} {c c' : Conn} {a : Act} (h : c.step p a = some c') (hread : ¬a.isRead) :
    c'.readView = c.readView := by
  cases step_inv h with
  | readFrame | readBuffered | recvPart | recvBad | recvFrame | recvFails => exact absurd trivial hread
  | write b =>
    unfold Conn.write
    split_ifs <;> rfl
  | takePing fault ping rest | drainPing fault ping rest =>
    exact (writeFrame_aside _ [] fault { c with pingCh := rest }).1
  | sendPing now fault => exact (writeFrame_aside _ [] fault { c with pendingPingSent := now }).1
  | _ => rfl

theorem handleFrame_closeView (n : Nat) (f : Frame) (c : Conn) : (c.handleFrame n f).closeView = c.closeView := by
  unfold Conn.handleFrame
  split_ifs <;> rfl

theorem step_closeView {p : Personality} {c c' : Conn} {a : Act} (h : c.step p a = some c') (ha : a ≠ .cancel)
    (hlive : c.canceled = false) : c'.closeView = c.closeView := by
  cases step_inv h with
  | cancel => exact absurd rfl ha
  | closeConn hcancel =>
    rw [hlive] at hcancel
    cases hcancel
  | recvFrame chunk now n f => exact handleFrame_closeView n f { c with lastActivityNs := now }
  | write b =>
    unfold Conn.write
    split_ifs <;> rfl
  | takePing fault ping rest | drainPing fault ping rest =>
    exact (writeFrame_aside _ [] fault { c with pingCh := rest }).2
  | sendPing now fault => exact (writeFrame_aside _ [] fault { c with pendingPingSent := now }).2
  | _ => rfl

theorem handleFrame_reads (n : Nat) (f : Frame) (pad : Bytes) (c : Conn) (hbuf : c.readBuf = []) :
    (c.handleFrame n f).returned ++ (c.handleFrame n f).readBuf = c.returned ++ dataOf [(f, pad)] ∧
      ((c.handleFrame n f).reader = .none ∨
        ((c.handleFrame n f).reader = .reading n [] ∧ (c.handleFrame n f).readBuf = [])) := by
  rw [dataOf_singleton]
  unfold Conn.handleFrame
  by_cases hdata : f.type = typeData
  · simp only [hdata, if_true]
    split_ifs with hempty
    · rw [List.isEmpty_iff] at hempty
      simp [hbuf, hempty]
    · simp [hbuf]
  · simp only [hdata, if_false]
    split_ifs <;> simp [hbuf]

/-! ## The control frames -/

structure ControlView where
  pingCh : List Frame
  pongCh : List Frame
  pendingPingSent : Int

def Conn.controlView (c : Conn) : ControlView where
  pingCh := c.pingCh
  pongCh := c.pongCh
  pendingPingSent := c.pendingPingSent

def Act.isControl : Act → Prop
  | .recv _ _ | .takePing _ | .takePong | .sendPing _ _ => True
  | _ => False

theorem step_control {p : Personality} {c c' : Conn} {a : Act} (h : c.step p a = some c') (ha : ¬a.isControl) :
    c'.controlView = c.controlView := by
  cases step_inv h with
  | recvPart | recvBad | recvFrame | takePing | drainPing | takePong | drainPong | sendPing => exact absurd trivial ha
  | write b =>
    unfold Conn.write
    split_ifs <;> rfl
  | _ => rfl

theorem handleFrame_control (n : Nat) (f : Frame) (c : Conn) :
    (c.handleFrame n f).controlView =
      { c.controlView with
        pingCh := if f.type = typePing ∧ c.pingCh.length < controlCap then c.pingCh ++ [f] else c.pingCh
        pongCh := if f.type = typePong ∧ c.pongCh.length < controlCap then c.pongCh ++ [f] else c.pongCh } := by
  have hping : typePing ≠ typeData ∧ typePing ≠ typePong := by decide
  have hpong : typePong ≠ typeData := by decide
  unfold Conn.handleFrame
  by_cases h1 : f.type = typePing
  · simp [h1, hping, Conn.controlView]
  · by_cases h2 : f.type = typePong
    · simp [h2, hping.2.symm, hpong, Conn.controlView]
    · simp only [h1, h2, if_false, false_and]
      split_ifs <;> rfl

/-- The frame that a chunk completes for the `Read` in progress. -/
def Conn.completes (a : Act) (c : Conn) : Option Frame :=
  match a, c.reader with
  | .recv chunk _, .reading _ got =>
    match scan (got ++ chunk) with
    | .frame f => some f
    | _ => none
  | _, _ => none

theorem recv_control {c c' : Conn} {chunk : Bytes} {now : Int} (h : c.recv chunk now = some c') :
    (c.completes (.recv chunk now) = none ∧ c'.controlView = c.controlView) ∨
      ∃ n f, c.completes (.recv chunk now) = some f ∧ c'.controlView = (c.handleFrame n f).controlView := by
  obtain ⟨n, got, k, hreader, -, -, -, ⟨_, hscan, rfl⟩ | ⟨_, hscan, rfl⟩ | ⟨f, hscan, rfl⟩⟩ := recv_inv h
  · exact .inl ⟨by simp [Conn.completes, hreader, hscan], rfl⟩
  · exact .inl ⟨by simp [Conn.completes, hreader, hscan], rfl⟩
  · refine .inr ⟨n, f, by simp [Conn.completes, hreader, hscan], ?_⟩
    rw [handleFrame_control, handleFrame_control]
    rfl

end Daxson.Bcl
