import Daxson.Connect.Chain
import Daxson.Lib.Crew
import Daxson.Tunnel.Client

/-! # The gauge of active streams

Nothing counts a stream of the client out.
-/

open Lib.Machine
open Lib.Crew (countP_set_add)

namespace Daxson.Tunnel

/-! ## The server -/

/-- Where a `handleStream` stands: the call that it is in. -/
inductive Handling where
  | readConnectRequest
  | dialContext
  /-- `writeConnectResponse` after a failed dial. -/
  | refuse
  /-- `writeConnectResponse` after a dial. -/
  | respond
  | relay
  | returned
  deriving DecidableEq, Repr

/-- The call returns, without or with an error. -/
def Handling.next : Handling → Bool → Option Handling
  | .readConnectRequest, ok => some (if ok then .dialContext else .returned)
  | .dialContext, ok => some (if ok then .respond else .refuse)
  | .refuse, _ => some .returned
  | .respond, ok => some (if ok then .relay else .returned)
  | .relay, _ => some .returned
  | .returned, _ => none

structure ServerStreams where
  metrics : Metrics := {}
  /-- Every stream that was accepted, in order. -/
  streams : List Handling := []
  deriving DecidableEq, Repr

inductive ServerAct where
  /-- `AcceptStream` returns a stream, and its `handleStream` starts. -/
  | accepted
  | callReturns (i : Nat) (ok : Bool)
  deriving DecidableEq, Repr

/-- The `i`-th `handleStream` goes on. Its deferred calls run when it returns. -/
def ServerStreams.goOn (i : Nat) (h : Handling) (s : ServerStreams) : ServerStreams where
  metrics := if h = .returned then s.metrics.recordStreamClose else s.metrics
  streams := s.streams.set i h

def ServerStreams.step (s : ServerStreams) : ServerAct → Option ServerStreams
  | .accepted => some { metrics := s.metrics.recordStreamOpen, streams := s.streams ++ [.readConnectRequest] }
  | .callReturns i ok => (s.streams[i]?.bind (·.next ok)).map fun h => s.goOn i h

/-- A stream is open until its `handleStream` has returned. -/
def Handling.isOpen (h : Handling) : Bool := h ≠ .returned

def ServerStreams.openStreams (s : ServerStreams) : Nat := s.streams.countP Handling.isOpen

theorem Handling.next_isOpen {h h' : Handling} {ok : Bool} (hnext : h.next ok = some h') : h.isOpen = true := by
  cases h with
  | returned => cases hnext
  | _ => rfl

theorem server_step_exact (s : ServerStreams) (a : ServerAct) (s' : ServerStreams)
    (hs : s.metrics.streamsActive = s.openStreams) (h : s.step a = some s') :
    s'.metrics.streamsActive = s'.openStreams := by
  unfold ServerStreams.openStreams at hs ⊢
  cases a with
  | accepted =>
    obtain rfl := Option.some.inj h
    simp [Metrics.recordStreamOpen, hs, Handling.isOpen]
  | callReturns i ok =>
    obtain ⟨h', hbind, rfl⟩ := Option.map_eq_some_iff.mp h
    obtain ⟨old, hold, hnext⟩ := Option.bind_eq_some_iff.mp hbind
    have hcount := countP_set_add (p := Handling.isOpen) hold h'
    rw [if_pos (Handling.next_isOpen hnext)] at hcount
    unfold ServerStreams.goOn
    by_cases hret : h' = .returned
    · subst hret
      rw [if_neg (by decide)] at hcount
      simp only [if_true, Metrics.recordStreamClose]
      omega
    · have hopen : h'.isOpen = true := decide_eq_true hret
      simp only [hopen, hret, if_true, if_false] at hcount ⊢
      omega

/-! ## The client -/

/-- How a call of `OpenStream` ends. -/
inductive OpenOutcome where
  | noSession (err : GoError)
  | openFails (err : GoError)
  /-- The stream is closed again. -/
  | requestFails (err : GoError)
  | responseFails (err : GoError)
  | opened
  deriving DecidableEq, Repr

def Metrics.openStream (o : OpenOutcome) (m : Metrics) : Option GoError × Metrics :=
  match o with
  | .noSession err => (some err, m)
  | .openFails err => (some (.wrap "tunnel: open stream: %w" [] err), m)
  | .requestFails err => (some (.wrap "tunnel: write connect request: %w" [] err), m)
  | .responseFails err => (some err, m)
  | .opened => (none, m.recordStreamOpen)

/-- A connection to one of the proxies. -/
inductive Proxied where
  | accepted
  /-- With its stream, in the reply or in the relay. -/
  | relaying
  | ended
  deriving DecidableEq, Repr

structure ClientStreams where
  metrics : Metrics := {}
  conns : List Proxied := []
  deriving DecidableEq, Repr

inductive ClientAct where
  | accepted (k : Proxy)
  | openStream (i : Nat) (o : OpenOutcome)
  /-- The handler returns, and its deferred calls close the connection and the stream. -/
  | ended (i : Nat)
  deriving DecidableEq, Repr

def ClientStreams.step (s : ClientStreams) : ClientAct → Option ClientStreams
  | .accepted k => some { metrics := s.metrics.recordProxyAccept k, conns := s.conns ++ [.accepted] }
  | .openStream i o =>
    if s.conns[i]? = some .accepted then
      let opened := s.metrics.openStream o
      -- A handler without a stream sends its refusal and returns.
      some { metrics := opened.2, conns := s.conns.set i (if opened.1.isNone then .relaying else .ended) }
    else none
  | .ended i =>
    if s.conns[i]? = some .accepted ∨ s.conns[i]? = some .relaying then
      some { s with conns := s.conns.set i .ended }
    else none

/-- What a step of the client can do. -/
inductive ClientStepped (s : ClientStreams) : ClientAct → ClientStreams → Prop
  | accepted (k : Proxy) :
      ClientStepped s (.accepted k) { metrics := s.metrics.recordProxyAccept k, conns := s.conns ++ [.accepted] }
  | opened (i : Nat) (hi : s.conns[i]? = some .accepted) :
      ClientStepped s (.openStream i .opened) {
        metrics := s.metrics.recordStreamOpen, conns := s.conns.set i .relaying }
  | failed (i : Nat) (o : OpenOutcome) (hi : s.conns[i]? = some .accepted) (ho : o ≠ .opened) :
      ClientStepped s (.openStream i o) { metrics := s.metrics, conns := s.conns.set i .ended }
  | refused (i : Nat) (hi : s.conns[i]? = some .accepted) :
      ClientStepped s (.ended i) { metrics := s.metrics, conns := s.conns.set i .ended }
  | ended (i : Nat) (hi : s.conns[i]? = some .relaying) :
      ClientStepped s (.ended i) { metrics := s.metrics, conns := s.conns.set i .ended }

theorem client_step_inv {s s' : ClientStreams} {a : ClientAct} (h : s.step a = some s') : ClientStepped s a s' := by
  cases a with
  | accepted k => exact Option.some.inj h ▸ .accepted k
  | openStream i o =>
    by_cases hi : s.conns[i]? = some .accepted
    · simp only [ClientStreams.step, hi, if_true] at h
      cases o with
      | opened => exact Option.some.inj h ▸ .opened i hi
      | _ => exact Option.some.inj h ▸ .failed i _ hi (by simp)
    · simp [ClientStreams.step, hi] at h
  | ended i =>
    dsimp only [ClientStreams.step] at h
    split_ifs at h with hi
    rcases hi with hi | hi
    · exact Option.some.inj h ▸ .refused i hi
    · exact Option.some.inj h ▸ .ended i hi

def Proxied.hasStream (c : Proxied) : Bool := c = .relaying

def ClientStreams.openStreams (s : ClientStreams) : Nat := s.conns.countP Proxied.hasStream

/-- A proxied connection ends that has a stream. -/
def ClientStreams.EndsStream (s : ClientStreams) (a : ClientAct) : Prop :=
  ∃ i, a = .ended i ∧ s.conns[i]? = some .relaying

/-- What a step does to the gauge and to the streams. -/
inductive StreamStep (s : ClientStreams) (a : ClientAct) (s' : ClientStreams) : Prop
  | same (hgauge : s'.metrics.streamsActive = s.metrics.streamsActive) (hopen : s'.openStreams = s.openStreams)
      (hnot : ¬s.EndsStream a)
  | opens (hgauge : s'.metrics.streamsActive = s.metrics.streamsActive + 1)
      (hopen : s'.openStreams = s.openStreams + 1) (hnot : ¬s.EndsStream a)
  | ends (hgauge : s'.metrics.streamsActive = s.metrics.streamsActive) (hopen : s'.openStreams + 1 = s.openStreams)
      (hends : s.EndsStream a)

theorem not_endsStream {s : ClientStreams} {a : ClientAct} (h : ∀ i, a ≠ .ended i) : ¬s.EndsStream a := by
  rintro ⟨i, rfl, -⟩
  exact h i rfl

theorem openStreams_set {s : ClientStreams} {i : Nat} {old : Proxied} (h : s.conns[i]? = some old) (m : Metrics)
    (new : Proxied) : (ClientStreams.mk m (s.conns.set i new)).openStreams + (if old.hasStream then 1 else 0) =
      s.openStreams + if new.hasStream then 1 else 0 := countP_set_add h new

theorem client_step_streams {s s' : ClientStreams} {a : ClientAct} (h : s.step a = some s') : StreamStep s a s' := by
  cases client_step_inv h with
  | accepted k =>
    apply StreamStep.same _ _ (not_endsStream (by simp))
    · cases k <;> rfl
    · simp [ClientStreams.openStreams, Proxied.hasStream]
  | opened i hi => exact .opens rfl (openStreams_set hi _ .relaying) (not_endsStream (by simp))
  | failed i o hi ho => exact .same rfl (openStreams_set hi _ .ended) (not_endsStream (by simp))
  | refused i hi =>
    refine .same rfl (openStreams_set hi _ .ended) ?_
    rintro ⟨j, hj, hrelay⟩
    rw [ClientAct.ended.injEq] at hj
    rw [← hj, hi] at hrelay
    cases hrelay
  | ended i hi => exact .ends rfl (openStreams_set hi _ .ended) ⟨i, rfl, hi⟩

theorem client_step_le (s : ClientStreams) (a : ClientAct) (s' : ClientStreams)
    (hs : (s.openStreams : Int) ≤ s.metrics.streamsActive) (h : s.step a = some s') :
    (s'.openStreams : Int) ≤ s'.metrics.streamsActive := by
  cases client_step_streams h with
  | same hgauge hopen => omega
  | opens hgauge hopen => omega
  | ends hgauge hopen => omega

theorem client_step_exact (s : ClientStreams) (a : ClientAct) (s' : ClientStreams)
    (hs : (s.openStreams : Int) ≤ s.metrics.streamsActive) (h : s.step a = some s') :
    s'.metrics.streamsActive = s'.openStreams ↔ s.metrics.streamsActive = s.openStreams ∧ ¬s.EndsStream a := by
  cases client_step_streams h with
  | same hgauge hopen hnot =>
    rw [and_iff_left hnot]
    omega
  | opens hgauge hopen hnot =>
    rw [and_iff_left hnot]
    omega
  | ends hgauge hopen hends =>
    constructor
    · intro heq
      omega
    · rintro ⟨-, hnot⟩
      exact absurd hends hnot

/-! ## Inside the client's process -/

/-- A client that is connected and serves both its proxies. -/
structure ClientProcess.InService (t : ClientProcess) : Prop where
  live : t.panicked = false
  running : t.returned = false
  met : t.met = .object
  session : t.session.isSome = true
  proxies : ∀ k, (t.proxy k).state = .serving ∧ (t.proxy k).met = .object

/-- The process has a handler for every connection that has not ended, and the same gauge. -/
structure ClientStreams.Mirrors (c : ClientStreams) (t : ClientProcess) : Prop where
  service : t.InService
  handlers : t.handlers = c.conns.countP (· ≠ .ended)
  gauge : t.metrics.streamsActive = c.metrics.streamsActive

theorem ClientProcess.InService.accepted {t : ClientProcess} (h : t.InService) (k : Proxy) :
    t.step (.accepted k) = some { t with metrics := t.metrics.recordProxyAccept k, handlers := t.handlers + 1 } := by
  simp [ClientProcess.step, h.live, h.running, h.proxies k, ClientProcess.record]

theorem ClientProcess.InService.streamOpened {t : ClientProcess} (h : t.InService) (hpos : 0 < t.handlers) :
    t.step .streamOpened = some { t with metrics := t.metrics.recordStreamOpen } := by
  simp [ClientProcess.step, h.live, h.running, h.met, h.session, hpos, ClientProcess.record]

theorem ClientProcess.InService.handlerDone {t : ClientProcess} (h : t.InService) (hpos : 0 < t.handlers) :
    t.step .handlerDone = some { t with handlers := t.handlers - 1 } := by
  simp [ClientProcess.step, h.live, h.running, hpos]

theorem ClientProcess.InService.update {t : ClientProcess} (h : t.InService) (m : Metrics) (n : Nat) :
    ({ t with metrics := m, handlers := n } : ClientProcess).InService where
  live := h.live
  running := h.running
  met := h.met
  session := h.session
  proxies k := by
    cases k
    · exact h.proxies .socks5
    · exact h.proxies .http

theorem ClientStreams.Mirrors.handler {c : ClientStreams} {t : ClientProcess} (h : c.Mirrors t) {i : Nat}
    {conn : Proxied} (hi : c.conns[i]? = some conn) (hlive : conn ≠ .ended) : 0 < t.handlers := by
  rw [h.handlers]
  exact List.countP_pos_iff.mpr ⟨conn, List.mem_of_getElem? hi, decide_eq_true hlive⟩

theorem ClientStreams.Mirrors.done {c : ClientStreams} {t : ClientProcess} (h : c.Mirrors t) {i : Nat}
    {conn : Proxied} (hi : c.conns[i]? = some conn) (hlive : conn ≠ .ended) :
    ∃ t', run ClientProcess.step t [.handlerDone] = some t' ∧
      (ClientStreams.mk c.metrics (c.conns.set i .ended)).Mirrors t' := by
  have hpos := h.handler hi hlive
  have hcount := countP_set_add (p := fun conn => decide (conn ≠ Proxied.ended)) hi .ended
  rw [if_pos (decide_eq_true hlive), if_neg (by simp)] at hcount
  refine ⟨{ t with handlers := t.handlers - 1 }, by rw [run_cons, h.service.handlerDone hpos]; rfl, ?_⟩
  refine ⟨h.service.update t.metrics (t.handlers - 1), ?_, h.gauge⟩
  have hhandlers := h.handlers
  dsimp only
  omega

theorem mirrors_step (c : ClientStreams) (a : ClientAct) (c' : ClientStreams) (t : ClientProcess) (h : c.Mirrors t)
    (hstep : c.step a = some c') : ∃ bs t', run ClientProcess.step t bs = some t' ∧ c'.Mirrors t' := by
  cases client_step_inv hstep with
  | accepted k =>
    refine ⟨[.accepted k], _, by rw [run_cons, h.service.accepted k]; rfl, h.service.update _ _, ?_, ?_⟩
    · simp [h.handlers]
    · cases k <;> exact h.gauge
  | opened i hi =>
    have hpos := h.handler hi (by simp)
    have hcount := countP_set_add (p := fun conn => decide (conn ≠ Proxied.ended)) hi .relaying
    rw [if_pos (by simp), if_pos (by simp)] at hcount
    refine ⟨[.streamOpened], _, by rw [run_cons, h.service.streamOpened hpos]; rfl, h.service.update _ _, ?_, ?_⟩
    · have hhandlers := h.handlers
      dsimp only
      omega
    · have hgauge := h.gauge
      simp only [Metrics.recordStreamOpen]
      omega
  | failed i o hi ho => exact ⟨[.handlerDone], h.done hi (by simp)⟩
  | refused i hi => exact ⟨[.handlerDone], h.done hi (by simp)⟩
  | ended i hi => exact ⟨[.handlerDone], h.done hi (by simp)⟩

/-- Every run of the streams is one of the client's process, with the same gauge. -/
theorem client_streams_in_process (acts : List ClientAct) (c : ClientStreams) (t : ClientProcess)
    (ht : ClientStreams.Mirrors {} t) (hrun : run ClientStreams.step {} acts = some c) :
    ∃ bs t', run ClientProcess.step t bs = some t' ∧ c.Mirrors t' :=
  run_simulation mirrors_step acts {} c t ht hrun

/-- A client gets there when it has connected and both its proxies listen. -/
example (reconnect : Config.ReconnectCfg) (socks5 http : Bytes) (hsocks5 : socks5 ≠ []) (hhttp : http ≠ []) :
    ∃ t, run ClientProcess.step
        { reconnect := reconnect, met := .object, socks5 := ⟨socks5, .object, .idle⟩, http := ⟨http, .object, .idle⟩ }
        [.connected, .startProxies, .listening .socks5, .listening .http] = some t ∧ ClientStreams.Mirrors {} t := by
  refine ⟨{ reconnect := reconnect, met := .object, socks5 := ⟨socks5, .object, .serving⟩
            http := ⟨http, .object, .serving⟩, metrics := { connectionsOutbound := 1 }, phase := .session
            session := some false, reconnects := 1 }, ?_, ⟨rfl, rfl, rfl, rfl, fun k => ?_⟩, rfl, rfl⟩
  · simp [ClientProcess.step, ClientProcess.connect, ClientProcess.record, ClientProcess.startProxy,
      ClientProcess.setProxy, ClientProcess.proxy, Metrics.recordConnect, hsocks5, hhttp]
  · cases k <;> exact ⟨rfl, rfl⟩

/-! ## Inside a `handleStream` -/

/-- Where the server of a proxied stream stands. -/
def Handling.ofHop : Connect.Hop Connect.Target → Handling
  | .request _ => .readConnectRequest
  | .opening _ => .dialContext
  | .answering ok => if ok then .respond else .refuse
  | .relaying _ _ => .relay
  | .closed => .returned

theorem received_handling (got : Bytes) :
    Handling.ofHop (Connect.serverParty.received got) = .readConnectRequest ∨
      ∃ ok, Handling.readConnectRequest.next ok = some (Handling.ofHop (Connect.serverParty.received got)) := by
  unfold Connect.Party.received
  split
  · exact Or.inl rfl
  · exact Or.inr ⟨false, rfl⟩
  · exact Or.inr ⟨true, rfl⟩

theorem hop_handling {l l' out out' : Connect.Link} {hop hop' : Connect.Hop Connect.Target} {a : Connect.HopAct}
    (h : hop.step Connect.serverParty l out a = some (l', hop', out')) :
    Handling.ofHop hop' = Handling.ofHop hop ∨ ∃ ok, (Handling.ofHop hop).next ok = some (Handling.ofHop hop') := by
  unfold Connect.Hop.step at h
  split at h
  · split at h
    · split_ifs at h
      simp only [Option.some.injEq, Prod.mk.injEq] at h
      exact h.2.1 ▸ received_handling _
    · cases h
  · simp only [Option.some.injEq, Prod.mk.injEq] at h
    exact h.2.1 ▸ Or.inr ⟨false, rfl⟩
  · rename_i ok o
    simp only [Option.some.injEq, Prod.mk.injEq] at h
    obtain ⟨-, rfl, -⟩ := h
    right
    cases ok with
    | false => exact ⟨true, rfl⟩
    | true =>
      refine ⟨o.err.isNone, ?_⟩
      cases o.err <;> rfl
  · obtain ⟨r, -, heq⟩ := Option.map_eq_some_iff.mp h
    simp only [Prod.mk.injEq] at heq
    exact heq.2.1 ▸ Or.inl rfl
  · obtain ⟨r, -, heq⟩ := Option.map_eq_some_iff.mp h
    simp only [Prod.mk.injEq] at heq
    exact heq.2.1 ▸ Or.inl rfl
  · cases h

theorem serverNode_handling {l l' : Connect.Link} {n n' : Connect.ServerNode} {a : Connect.ServerAct}
    (h : n.step l a = some (l', n')) :
    Handling.ofHop n'.hop = Handling.ofHop n.hop ∨
      ∃ ok, (Handling.ofHop n.hop).next ok = some (Handling.ofHop n'.hop) := by
  cases a with
  | hop a =>
    obtain ⟨⟨l₁, hop', out⟩, hhop, heq⟩ := Option.map_eq_some_iff.mp h
    simp only [Prod.mk.injEq] at heq
    exact heq.2 ▸ hop_handling hhop
  | dial ok =>
    dsimp only [Connect.ServerNode.step] at h
    split at h
    · rename_i t ht
      simp only [Option.some.injEq, Prod.mk.injEq] at h
      rw [ht, ← h.2]
      exact Or.inr ⟨ok, rfl⟩
    · cases h
  | targetSends b =>
    dsimp only [Connect.ServerNode.step] at h
    split_ifs at h
    simp only [Option.some.injEq, Prod.mk.injEq] at h
    exact h.2 ▸ Or.inl rfl
  | targetReads chunk =>
    obtain ⟨up, -, heq⟩ := Option.map_eq_some_iff.mp h
    simp only [Prod.mk.injEq] at heq
    exact heq.2 ▸ Or.inl rfl

/-! ## The gauges -/

/-- The server's gauge is exact. The client's is until a proxied connection with a stream ends. -/
theorem streams_gauge_iff (clientActs : List ClientAct) (c : ClientStreams)
    (hc : run ClientStreams.step {} clientActs = some c) (serverActs : List ServerAct) (s : ServerStreams)
    (hs : run ServerStreams.step {} serverActs = some s) :
    (c.metrics.streamsActive = c.openStreams ↔
      AllSteps ClientStreams.step (fun c a => ¬c.EndsStream a) {} clientActs) ∧
      s.metrics.streamsActive = s.openStreams := by
  constructor
  · rw [run_iff_allSteps_of client_step_le client_step_exact clientActs {} c le_rfl hc]
    exact and_iff_right rfl
  · exact run_invariant server_step_exact serverActs {} s rfl hs

theorem ended_stream_stays_counted :
    ∃ c, run ClientStreams.step {} [.accepted .socks5, .openStream 0 .opened, .ended 0] = some c ∧
      c.openStreams = 0 ∧ c.metrics.streamsActive = 1 := by
  exact ⟨_, rfl, rfl, rfl⟩

theorem streams_gauge_two_streams :
    ∃ c s,
      run ClientStreams.step {} [.accepted .socks5, .openStream 0 .opened, .accepted .http, .openStream 1 .opened] =
          some c ∧
        run ServerStreams.step {} [.accepted, .callReturns 0 true, .callReturns 0 false, .callReturns 0 true] =
          some s ∧
        (c.metrics.streamsActive = c.openStreams ↔
          AllSteps ClientStreams.step (fun c a => ¬c.EndsStream a) {}
            [.accepted .socks5, .openStream 0 .opened, .accepted .http, .openStream 1 .opened]) ∧
        s.metrics.streamsActive = s.openStreams :=
  have hc : run ClientStreams.step {}
      [.accepted .socks5, .openStream 0 .opened, .accepted .http, .openStream 1 .opened] = some _ := rfl
  have hs : run ServerStreams.step {}
      [.accepted, .callReturns 0 true, .callReturns 0 false, .callReturns 0 true] = some _ := rfl
  ⟨_, _, hc, hs, streams_gauge_iff _ _ hc _ _ hs⟩

end Daxson.Tunnel
