import Daxson.Relay.Process

/-! # The relay's upstream session

`connectUpstream` runs in one goroutine at a time, and only while the stored session is closed.
-/

open Lib.Machine Lib.Crew

namespace Daxson.Relay

open Auth
open Tunnel (Listening)
open Reconnect (Link Holds open_set open_dialed)

/-! ## One step -/

/-- What a step of `Run`, of `upstreamMaintain` or of the surroundings can do. -/
inductive MainStep (n : Node) : MainAct → Node → Option Worker → Prop where
  | dialFails (e : SysError) (err : GoError) (hp : n.phase.connecting = some .dial) :
      MainStep n (.connect (some e)) { n with phase := n.phase.after (.error err) } none
  | dialed (hp : n.phase.connecting = some .dial) :
      MainStep n (.connect none)
        { n with
          closed := n.closed ++ [false]
          phase := n.phase.after (.goesOn (.clientHandshake (.raw n.closed.length))) } none
  | refused (e : SysError) (err : GoError) (conn : Link)
      (hp : n.phase.connecting = some (.clientHandshake conn) ∨ n.phase.connecting = some (.newClientSession conn)) :
      MainStep n (.connect (some e)) { n.close conn with phase := n.phase.after (.error err) } none
  | authenticated (rawConn : Link) (hp : n.phase.connecting = some (.clientHandshake rawConn)) :
      MainStep n (.connect none) { n with phase := n.phase.after (.goesOn (.newClientSession (n.wrap rawConn))) } none
  | muxed (shapedConn : Link) (hp : n.phase.connecting = some (.newClientSession shapedConn)) :
      MainStep n (.connect none) { n with phase := n.phase.after (.goesOn (.closeOld shapedConn)) } none
  | closedOld (sess : Link) (closed : List Bool) (hp : n.phase.connecting = some (.closeOld sess))
      (hclosed : closed = n.upstreamSession.elim n.closed fun old => n.closed.set old.id true) :
      MainStep n (.connect none) { n with closed := closed, phase := n.phase.after (.goesOn (.store sess)) } none
  | stored (sess : Link) (hp : n.phase.connecting = some (.store sess)) :
      MainStep n (.connect none)
        { n with upstreamSession := some sess, phase := n.phase.after .connected } none
  | waits (a : MainAct) (m m' : Maintain) (hp : n.phase = .serving m) (hm : n.phase.connecting = none)
      (hm' : (Phase.serving m').connecting = none) : MainStep n a { n with phase := .serving m' } none
  | reconnects (hp : n.phase = .serving .isClosed)
      (hclosed : ∀ sess, n.upstreamSession = some sess → n.isOpen sess = false) :
      MainStep n .isClosed { n with phase := .serving (.connecting .dial) } none
  | breaks (sess : Link) (hs : n.upstreamSession = some sess) : MainStep n .breaks (n.close sess) none
  | newBreaks (sess : Link)
      (hp : n.phase.connecting = some (.closeOld sess) ∨ n.phase.connecting = some (.store sess)) :
      MainStep n .newBreaks (n.close sess) none
  | listens (a : MainAct) (loop : Listening) (listenerOpen cancelled : Bool)
      (hloop : loop = n.loop ∨ n.phase.isServing = true ∨ n.loop ≠ .start) :
      MainStep n a { n with loop := loop, listenerOpen := listenerOpen, cancelled := cancelled } none
  | accepted (conn : NetConn) :
      MainStep n (.accepted conn) { n with connectionsOutbound := n.connectionsOutbound + 1 }
        (some (.conn (.serverHandshake conn) false false false))
  | streamAccepted (hloop : n.loop ≠ .start) :
      MainStep n .streamAccepted n (some (.bridge .readConnectRequest none false false))

theorem connectUpstream_inv {n n' : Node} {err : Option SysError} {p : Connecting} {out : Outcome}
    (hp : n.phase.connecting = some p) (h : n.connectUpstream err p = some (n', out)) :
    MainStep n (.connect err) { n' with phase := n.phase.after out } none := by
  cases p <;> cases err <;> dsimp only [Node.connectUpstream] at h <;>
    first
    | cases h; done
    | obtain ⟨rfl, rfl⟩ := Prod.mk.inj (Option.some.inj h)
  · exact .dialed hp
  · exact .dialFails _ _ hp
  · exact .authenticated _ hp
  · exact .refused _ _ _ (.inl hp)
  · exact .muxed _ hp
  · exact .refused _ _ _ (.inr hp)
  · rename_i sess
    cases hold : n.upstreamSession with
    | none => exact .closedOld sess n.closed hp (by rw [hold]; rfl)
    | some old => exact .closedOld sess (n.closed.set old.id true) hp (by rw [hold]; rfl)
  · exact .stored _ hp

theorem main_inv {n n' : Node} {a : MainAct} {hired : Option Worker} (h : n.main a = some (n', hired)) :
    MainStep n a n' hired := by
  cases a with
  | connect err =>
    obtain ⟨p, hp, h⟩ := Option.bind_eq_some_iff.mp h
    obtain ⟨⟨n₁, out⟩, hn₁, heq⟩ := Option.map_eq_some_iff.mp h
    obtain ⟨rfl, rfl⟩ := Prod.mk.inj heq
    exact connectUpstream_inv hp hn₁
  | tick =>
    dsimp only [Node.main] at h
    split_ifs at h with hp
    obtain ⟨rfl, rfl⟩ := Prod.mk.inj (Option.some.inj h)
    exact .waits _ .wait .isClosed hp (by rw [hp]; rfl) rfl
  | maintainCancelled =>
    dsimp only [Node.main] at h
    split_ifs at h with hp
    obtain ⟨rfl, rfl⟩ := Prod.mk.inj (Option.some.inj h)
    exact .waits _ .wait .returned hp.1 (by rw [hp.1]; rfl) rfl
  | isClosed =>
    dsimp only [Node.main] at h
    by_cases hp : n.phase = .serving .isClosed
    · rw [if_pos hp] at h
      obtain ⟨rfl, rfl⟩ := Prod.mk.inj (Option.some.inj h)
      by_cases hopen : n.upstreamSession.any n.isOpen = true
      · rw [if_pos hopen]
        exact .waits _ .isClosed .wait hp (by rw [hp]; rfl) rfl
      · rw [if_neg hopen]
        refine .reconnects hp fun sess hsess => ?_
        rw [hsess] at hopen
        simpa using hopen
    · rw [if_neg hp] at h
      cases h
  | breaks =>
    obtain ⟨sess, hs, heq⟩ := Option.map_eq_some_iff.mp h
    obtain ⟨rfl, rfl⟩ := Prod.mk.inj heq
    exact .breaks sess hs
  | newBreaks =>
    dsimp only [Node.main] at h
    split at h
    · rename_i sess hp
      obtain ⟨rfl, rfl⟩ := Prod.mk.inj (Option.some.inj h)
      exact .newBreaks sess (.inl hp)
    · rename_i sess hp
      obtain ⟨rfl, rfl⟩ := Prod.mk.inj (Option.some.inj h)
      exact .newBreaks sess (.inr hp)
    · cases h
  | tlsInitFails e | listenFails e | listens =>
    dsimp only [Node.main] at h
    split_ifs at h with hp
    obtain ⟨rfl, rfl⟩ := Prod.mk.inj (Option.some.inj h)
    exact .listens _ _ _ _ (.inr (.inl hp.1))
  | accepted conn =>
    dsimp only [Node.main] at h
    split_ifs at h
    obtain ⟨rfl, rfl⟩ := Prod.mk.inj (Option.some.inj h)
    exact .accepted conn
  | streamAccepted =>
    dsimp only [Node.main] at h
    split_ifs at h with hloop
    obtain ⟨rfl, rfl⟩ := Prod.mk.inj (Option.some.inj h)
    exact .streamAccepted hloop
  | acceptFails =>
    dsimp only [Node.main] at h
    by_cases hp : n.loop = .accepting
    · rw [if_pos hp] at h
      obtain ⟨rfl, rfl⟩ := Prod.mk.inj (Option.some.inj h)
      split_ifs
      · exact .listens _ _ _ _ (.inr (.inr (by rw [hp]; exact fun h => by cases h)))
      · exact .listens _ n.loop n.listenerOpen n.cancelled (.inl rfl)
    · rw [if_neg hp] at h
      cases h
  | cancel =>
    obtain ⟨rfl, rfl⟩ := Prod.mk.inj (Option.some.inj h)
    exact .listens _ _ _ _ (.inl rfl)
  | closeListener =>
    dsimp only [Node.main] at h
    split_ifs at h
    obtain ⟨rfl, rfl⟩ := Prod.mk.inj (Option.some.inj h)
    exact .listens _ _ _ _ (.inl rfl)

/-! ## The owner of an open connection -/

def Node.Open (n : Node) (i : Nat) : Prop := n.closed[i]? = some false

/-- The connection that a `connectUpstream` has dialed. -/
def Connecting.held : Connecting → Option Link
  | .dial => none
  | .clientHandshake conn | .newClientSession conn | .closeOld conn | .store conn => some conn

def Phase.settingUp (p : Phase) : Option Link := p.connecting.bind Connecting.held

structure Node.Sound (n : Node) : Prop where
  unpanicked : n.panicked = false
  session : n.phase.isServing = true → n.upstreamSession.isSome = true
  unserved : n.phase.isServing = false → n.upstreamSession = none ∧ n.loop = .start
  owner : ∀ i, n.Open i → Holds n.phase.settingUp i ∨ Holds n.upstreamSession i
  /-- A new connection is dialed only when the stored session is closed. -/
  replaced : n.phase.connecting.isSome = true → ∀ sess, n.upstreamSession = some sess → ¬ n.Open sess.id
  bounded : ∀ conn, n.phase.settingUp = some conn ∨ n.upstreamSession = some conn → conn.id < n.closed.length

theorem after_goesOn {ph : Phase} {p : Connecting} (q : Connecting) (hp : ph.connecting = some p) :
    (ph.after (.goesOn q)).connecting = some q ∧ (ph.after (.goesOn q)).isServing = ph.isServing := by
  cases ph with
  | initial => exact ⟨rfl, rfl⟩
  | failed => cases hp
  | serving => exact ⟨rfl, rfl⟩

theorem after_connected {ph : Phase} {p : Connecting} (hp : ph.connecting = some p) :
    (ph.after .connected).connecting = none ∧ (ph.after .connected).isServing = true := by
  cases ph with
  | initial => exact ⟨rfl, rfl⟩
  | failed => cases hp
  | serving => exact ⟨rfl, rfl⟩

theorem after_error {ph : Phase} {p : Connecting} (e : GoError) (hp : ph.connecting = some p) :
    (ph.after (.error e)).connecting = none ∧ (ph.after (.error e)).isServing = ph.isServing := by
  cases ph with
  | initial => exact ⟨rfl, rfl⟩
  | failed => cases hp
  | serving => exact ⟨rfl, rfl⟩

theorem settingUp_eq {ph : Phase} {p : Connecting} (hp : ph.connecting = some p) : ph.settingUp = p.held := by
  unfold Phase.settingUp
  rw [hp]
  rfl

theorem settingUp_none {ph : Phase} (hp : ph.connecting = none) : ph.settingUp = none := by
  unfold Phase.settingUp
  rw [hp]
  rfl

theorem wrap_id (n : Node) (conn : Link) : (n.wrap conn).id = conn.id := by
  unfold Node.wrap
  split_ifs <;> rfl

theorem Node.Sound.only_held {n : Node} (h : n.Sound) {p : Connecting} (hp : n.phase.connecting = some p) (i : Nat)
    (hi : n.Open i) : Holds p.held i := by
  have hrep := h.replaced (by rw [hp]; rfl)
  rcases h.owner i hi with hheld | ⟨sess, hsess, rfl⟩
  · rwa [settingUp_eq hp] at hheld
  · exact absurd hi (hrep sess hsess)

theorem Node.Sound.none_open {n : Node} (h : n.Sound) {p : Connecting} (hp : n.phase.connecting = some p)
    (hheld : p.held = none) (i : Nat) : ¬ n.Open i := by
  intro hi
  obtain ⟨conn, hconn, -⟩ := h.only_held hp i hi
  rw [hheld] at hconn
  cases hconn

/-- A step that stores no session is sound if what is open afterwards has an owner. -/
theorem Node.Sound.moves {n : Node} (h : n.Sound) (closed : List Bool) (ph : Phase)
    (hserve : ph.isServing = n.phase.isServing) (hlen : n.closed.length ≤ closed.length)
    (hopen : ∀ i, closed[i]? = some false → Holds ph.settingUp i ∨ Holds n.upstreamSession i)
    (hstored : ph.connecting.isSome = true → ∀ sess, n.upstreamSession = some sess → closed[sess.id]? ≠ some false)
    (hheld : ∀ conn, ph.settingUp = some conn → conn.id < closed.length) :
    ({ n with closed := closed, phase := ph } : Node).Sound := by
  refine ⟨h.unpanicked, fun hs => h.session (hserve.symm.trans hs), fun hs => h.unserved (hserve.symm.trans hs),
    hopen, hstored, ?_⟩
  rintro conn (hc | hc)
  · exact hheld conn hc
  · exact (h.bounded conn (.inr hc)).trans_le hlen

theorem Node.Sound.goesOn {n : Node} (h : n.Sound) {p : Connecting} (hp : n.phase.connecting = some p)
    (q : Connecting) (closed : List Bool) (hlen : n.closed.length ≤ closed.length)
    (hopen : ∀ i, closed[i]? = some false → Holds q.held i)
    (hstored : ∀ sess, n.upstreamSession = some sess → closed[sess.id]? ≠ some false)
    (hheld : ∀ conn, q.held = some conn → conn.id < closed.length) :
    ({ n with closed := closed, phase := n.phase.after (.goesOn q) } : Node).Sound := by
  obtain ⟨hconn, hserve⟩ := after_goesOn q hp
  have hset := settingUp_eq hconn
  refine h.moves closed _ hserve hlen (fun i hi => .inl ?_) (fun _ => hstored) (fun conn hc => hheld conn ?_)
  · rw [hset]
    exact hopen i hi
  · rwa [hset] at hc

theorem Node.Sound.fails {n : Node} (h : n.Sound) {p : Connecting} (hp : n.phase.connecting = some p) (e : GoError)
    (closed : List Bool) (hlen : n.closed.length ≤ closed.length) (hopen : ∀ i : Nat, closed[i]? ≠ some false) :
    ({ n with closed := closed, phase := n.phase.after (.error e) } : Node).Sound := by
  obtain ⟨hconn, hserve⟩ := after_error e hp
  refine h.moves closed _ hserve hlen (fun i hi => absurd hi (hopen i)) (fun _ sess _ => hopen sess.id) ?_
  rw [settingUp_none hconn]
  exact fun conn hc => by cases hc

theorem Node.Sound.closes {n : Node} (h : n.Sound) (sess : Link) : (n.close sess).Sound := by
  have hsub : ∀ i, (n.close sess).Open i → n.Open i := fun i hi => (open_set.mp hi).1
  have hlen : (n.closed.set sess.id true).length = n.closed.length := List.length_set
  refine h.moves _ n.phase rfl hlen.ge (fun i hi => h.owner i (hsub i hi)) ?_ ?_
  · exact fun hc s hs hi => h.replaced hc s hs (hsub _ hi)
  · exact fun conn hc => (h.bounded conn (.inl hc)).trans_eq hlen.symm

/-- `upstreamMaintain` between two connections. -/
theorem Node.Sound.maintains {n : Node} (h : n.Sound) {m : Maintain} (m' : Maintain) (hp : n.phase = .serving m)
    (hm : n.phase.settingUp = none) (hm' : (Phase.serving m').settingUp = none)
    (hclosed : (Phase.serving m').connecting.isSome = true →
      ∀ sess, n.upstreamSession = some sess → ¬ n.Open sess.id) :
    ({ n with phase := .serving m' } : Node).Sound := by
  have hserve : (Phase.serving m').isServing = n.phase.isServing := by rw [hp]; rfl
  refine h.moves n.closed _ hserve le_rfl (fun i hi => ?_) hclosed ?_
  · have := h.owner i hi
    rwa [hm, ← hm'] at this
  · rw [hm']
    exact fun conn hc => by cases hc

theorem sound_main {n n' : Node} {a : MainAct} {hired : Option Worker} (h : n.Sound)
    (hstep : MainStep n a n' hired) : n'.Sound := by
  cases hstep with
  | dialFails e err hp => exact h.fails hp err n.closed le_rfl (h.none_open hp rfl)
  | dialed hp =>
    have hnone := h.none_open hp rfl
    refine h.goesOn hp _ _ (by simp) ?_ ?_ ?_
    · exact fun i hi => ⟨_, rfl, (open_dialed hnone hi).symm⟩
    · intro sess hsess
      rw [List.getElem?_append_left (h.bounded sess (.inr hsess))]
      exact hnone sess.id
    · rintro conn ⟨⟩
      simp [Link.id]
  | refused e err conn hp =>
    have hheld : ∃ p, n.phase.connecting = some p ∧ p.held = some conn := by
      rcases hp with hp | hp
      · exact ⟨_, hp, rfl⟩
      · exact ⟨_, hp, rfl⟩
    obtain ⟨p, hp, hheld⟩ := hheld
    refine h.fails hp err _ (by simp [Node.close]) fun i hi => ?_
    obtain ⟨hi, hne⟩ := open_set.mp hi
    obtain ⟨conn', hconn', rfl⟩ := h.only_held hp i hi
    exact hne (congrArg Link.id (Option.some.inj (hconn'.symm.trans hheld)))
  | authenticated rawConn hp =>
    refine h.goesOn hp _ n.closed le_rfl ?_ (h.replaced (by rw [hp]; rfl)) ?_
    · intro i hi
      obtain ⟨conn, hconn, rfl⟩ := h.only_held hp i hi
      obtain rfl : rawConn = conn := Option.some.inj hconn
      exact ⟨_, rfl, wrap_id n rawConn⟩
    · rintro conn ⟨⟩
      rw [wrap_id]
      exact h.bounded rawConn (.inl (settingUp_eq hp))
  | muxed shapedConn hp =>
    have hopen : ∀ i, n.Open i → Holds (some shapedConn) i := h.only_held hp
    refine h.goesOn hp _ n.closed le_rfl hopen (h.replaced (by rw [hp]; rfl)) ?_
    rintro conn ⟨⟩
    exact h.bounded shapedConn (.inl (settingUp_eq hp))
  | closedOld sess closed hp hclosed =>
    have hsub : ∀ i : Nat, closed[i]? = some false → n.Open i := by
      intro i hi
      rw [hclosed] at hi
      cases hold : n.upstreamSession with
      | none =>
        rw [hold] at hi
        exact hi
      | some old =>
        rw [hold] at hi
        exact (open_set.mp hi).1
    have hlen : closed.length = n.closed.length := by
      rw [hclosed]
      cases n.upstreamSession with
      | none => rfl
      | some old => exact List.length_set
    refine h.goesOn hp _ closed hlen.ge (fun i hi => h.only_held hp i (hsub i hi)) ?_ ?_
    · exact fun old hold hi => h.replaced (by rw [hp]; rfl) old hold (hsub _ hi)
    · rintro conn ⟨⟩
      rw [hlen]
      exact h.bounded sess (.inl (settingUp_eq hp))
  | stored sess hp =>
    obtain ⟨hconn, hserve⟩ := after_connected hp
    have hset := settingUp_none hconn
    refine ⟨h.unpanicked, fun _ => rfl, fun hs => ?_, ?_, ?_, ?_⟩
    · rw [hserve] at hs
      cases hs
    · exact fun i hi => .inr (h.only_held hp i hi)
    · dsimp only
      rw [hconn]
      exact fun hno => by cases hno
    · dsimp only
      rw [hset]
      rintro conn (hc | hc)
      · cases hc
      · rw [← Option.some.inj hc]
        exact h.bounded sess (.inl (settingUp_eq hp))
  | waits _ m m' hp hm hm' =>
    refine h.maintains m' hp (settingUp_none hm) (settingUp_none hm') ?_
    rw [hm']
    exact fun hno => by cases hno
  | reconnects hp hclosed =>
    refine h.maintains _ hp (by rw [hp]; rfl) rfl fun _ sess hsess hopen => ?_
    have hshut := hclosed sess hsess
    unfold Node.isOpen at hshut
    exact of_decide_eq_false hshut hopen
  | breaks sess hs | newBreaks sess hp => exact h.closes sess
  | listens _ loop listenerOpen cancelled hloop =>
    refine ⟨h.unpanicked, h.session, fun hs => ?_, h.owner, h.replaced, h.bounded⟩
    obtain ⟨hsess, hstart⟩ := h.unserved hs
    rcases hloop with rfl | hserve | hne
    · exact ⟨hsess, hstart⟩
    · rw [show n.phase.isServing = false from hs] at hserve
      cases hserve
    · exact absurd hstart hne
  | accepted conn => exact ⟨h.unpanicked, h.session, h.unserved, h.owner, h.replaced, h.bounded⟩
  | streamAccepted hloop => exact h

/-! ## Handlers and streams -/

/-- A bridge moves on, with its streams as they are. -/
inductive BridgeStage.Moves : BridgeStage → BridgeStage → Prop where
  | read : Moves .readConnectRequest .nilCheck
  | unread : Moves .readConnectRequest .downstreamClose
  | isNil : Moves .nilCheck .refuse
  | notNil : Moves .nilCheck .closedCheck
  | isClosed : Moves .closedCheck .refuse
  | notClosed : Moves .closedCheck .openStream
  | unopened : Moves .openStream .refuse
  | connected : Moves .connect .respond
  | refused : Moves .refuse .downstreamClose
  | responded : Moves .respond .relay
  | unresponded : Moves .respond .upstreamClose

/-- What a handler's or a stream's step can do. -/
inductive WorkStep (n : Node) : Worker → Node → Worker → Prop where
  | handshake (conn : NetConn) (stage : ConnStage) (r s u : Bool)
      (hstage : stage = .newServerSession ∨ stage = .rawClose) :
      WorkStep n (.conn (.serverHandshake conn) r s u) n (.conn stage r s u)
  | muxed (r s u : Bool) : WorkStep n (.conn .newServerSession r s u) n (.conn .recordSessionOpen r n.obfs false)
  | unmuxed (r s u : Bool) : WorkStep n (.conn .newServerSession r s u) n (.conn .rawClose r n.obfs true)
  | counted (r s u : Bool) :
      WorkStep n (.conn .recordSessionOpen r s u) { n with sessionsActive := n.sessionsActive + 1 }
        (.conn .acceptStream r s u)
  | ended (r s u : Bool) : WorkStep n (.conn .acceptStream r s u) n (.conn .recordSessionClose r s u)
  | uncounted (r s u : Bool) :
      WorkStep n (.conn .recordSessionClose r s u) { n with sessionsActive := n.sessionsActive - 1 }
        (.conn .sessClose r s u)
  | sessClosed (r s u : Bool) : WorkStep n (.conn .sessClose r s u) n (.conn .rawClose true false u)
  | rawClosed (r s u : Bool) : WorkStep n (.conn .rawClose r s u) n (.conn .returned true s u)
  | moved (st st' : BridgeStage) (up : Option Link) (uc dc : Bool) (hmove : st.Moves st') :
      WorkStep n (.bridge st up uc dc) n (.bridge st' up uc dc)
  | opened (sess : Link) (up : Option Link) (uc dc : Bool) (hopen : n.isOpen sess = true) :
      WorkStep n (.bridge .openStream up uc dc) n (.bridge .connect (some sess) false dc)
  | unconnected (up : Option Link) (uc dc : Bool) :
      WorkStep n (.bridge .connect up uc dc) n (.bridge .refuse up true dc)
  | relayed (up : Option Link) (uc dc : Bool) :
      WorkStep n (.bridge .relay up uc dc) n (.bridge .upstreamClose up true true)
  | upstreamClosed (up : Option Link) (uc dc : Bool) :
      WorkStep n (.bridge .upstreamClose up uc dc) n (.bridge .downstreamClose up true dc)
  | downstreamClosed (up : Option Link) (uc dc : Bool) :
      WorkStep n (.bridge .downstreamClose up uc dc) n (.bridge .returned up uc true)
  | panicked (st : BridgeStage) (up : Option Link) (uc dc : Bool) (hnil : n.upstreamSession = none) :
      WorkStep n (.bridge st up uc dc) { n with panicked := true } (.bridge .returned up uc dc)

theorem workConn_inv {cr : Crypto} {n n' : Node} {stage : ConnStage} {r s u : Bool} {a : WorkAct} {w' : Worker}
    (h : n.workConn cr r s u a stage = some (n', w')) : WorkStep n (.conn stage r s u) n' w' := by
  cases stage with
  | serverHandshake conn =>
    cases a with
    | handshake env =>
      obtain ⟨rfl, rfl⟩ := Prod.mk.inj (Option.some.inj h)
      apply WorkStep.handshake
      split
      · exact .inl rfl
      · exact .inr rfl
    | call => cases h
  | newServerSession =>
    cases a with
    | handshake => cases h
    | call ok =>
      cases ok <;> obtain ⟨rfl, rfl⟩ := Prod.mk.inj (Option.some.inj h)
      · exact .unmuxed r s u
      · exact .muxed r s u
  | returned => cases h
  | recordSessionOpen =>
    obtain ⟨rfl, rfl⟩ := Prod.mk.inj (Option.some.inj h)
    exact .counted r s u
  | acceptStream =>
    obtain ⟨rfl, rfl⟩ := Prod.mk.inj (Option.some.inj h)
    exact .ended r s u
  | recordSessionClose =>
    obtain ⟨rfl, rfl⟩ := Prod.mk.inj (Option.some.inj h)
    exact .uncounted r s u
  | sessClose =>
    obtain ⟨rfl, rfl⟩ := Prod.mk.inj (Option.some.inj h)
    exact .sessClosed r s u
  | rawClose =>
    obtain ⟨rfl, rfl⟩ := Prod.mk.inj (Option.some.inj h)
    exact .rawClosed r s u

theorem workBridge_inv {n n' : Node} {stage : BridgeStage} {up : Option Link} {uc dc ok : Bool} {w' : Worker}
    (h : n.workBridge up uc dc ok stage = some (n', w')) : WorkStep n (.bridge stage up uc dc) n' w' := by
  cases stage with
  | readConnectRequest =>
    cases ok <;> obtain ⟨rfl, rfl⟩ := Prod.mk.inj (Option.some.inj h)
    · exact .moved _ _ _ _ _ .unread
    · exact .moved _ _ _ _ _ .read
  | nilCheck =>
    obtain ⟨rfl, rfl⟩ := Prod.mk.inj (Option.some.inj h)
    by_cases hnil : n.upstreamSession = none
    · rw [if_pos hnil]
      exact .moved _ _ _ _ _ .isNil
    · rw [if_neg hnil]
      exact .moved _ _ _ _ _ .notNil
  | closedCheck =>
    dsimp only [Node.workBridge] at h
    split at h <;> obtain ⟨rfl, rfl⟩ := Prod.mk.inj (Option.some.inj h)
    · rename_i hnil
      exact .panicked _ _ _ _ hnil
    · split_ifs
      · exact .moved _ _ _ _ _ .notClosed
      · exact .moved _ _ _ _ _ .isClosed
  | openStream =>
    dsimp only [Node.workBridge] at h
    split at h <;> obtain ⟨rfl, rfl⟩ := Prod.mk.inj (Option.some.inj h)
    · rename_i hnil
      exact .panicked _ _ _ _ hnil
    · rename_i sess hsess
      split_ifs with hopen
      · exact .opened sess _ _ _ (Bool.and_eq_true_iff.mp hopen).2
      · exact .moved _ _ _ _ _ .unopened
  | connect =>
    cases ok <;> obtain ⟨rfl, rfl⟩ := Prod.mk.inj (Option.some.inj h)
    · exact .unconnected _ _ _
    · exact .moved _ _ _ _ _ .connected
  | refuse =>
    obtain ⟨rfl, rfl⟩ := Prod.mk.inj (Option.some.inj h)
    exact .moved _ _ _ _ _ .refused
  | respond =>
    cases ok <;> obtain ⟨rfl, rfl⟩ := Prod.mk.inj (Option.some.inj h)
    · exact .moved _ _ _ _ _ .unresponded
    · exact .moved _ _ _ _ _ .responded
  | relay =>
    obtain ⟨rfl, rfl⟩ := Prod.mk.inj (Option.some.inj h)
    exact .relayed _ _ _
  | upstreamClose =>
    obtain ⟨rfl, rfl⟩ := Prod.mk.inj (Option.some.inj h)
    exact .upstreamClosed _ _ _
  | downstreamClose =>
    obtain ⟨rfl, rfl⟩ := Prod.mk.inj (Option.some.inj h)
    exact .downstreamClosed _ _ _
  | returned => cases h

theorem work_inv {cr : Crypto} {n n' : Node} {w w' : Worker} {a : WorkAct} (h : n.work cr w a = some (n', w')) :
    WorkStep n w n' w' := by
  cases w with
  | conn stage r s u => exact workConn_inv h
  | bridge stage up uc dc =>
    cases a with
    | handshake => cases h
    | call ok => exact workBridge_inv h

theorem work_shared {n n' : Node} {w w' : Worker} (h : WorkStep n w n' w') (hs : n.upstreamSession ≠ none) :
    ∃ k, n' = { n with sessionsActive := k } := by
  cases h with
  | panicked st up uc dc hnil => exact absurd hnil hs
  | _ => exact ⟨_, rfl⟩

/-- A stream exists only with a session behind it. -/
def Worker.Backed (n : Node) : Worker → Prop
  | .bridge _ _ _ _ => n.upstreamSession.isSome = true
  | .conn _ _ _ _ => True

theorem Worker.Backed.mono {n n' : Node} {w : Worker} (h : w.Backed n)
    (hs : n.upstreamSession.isSome = true → n'.upstreamSession.isSome = true) : w.Backed n' := by
  cases w with
  | conn => trivial
  | bridge => exact hs h

theorem session_kept {n n' : Node} {a : MainAct} {hired : Option Worker} (hstep : MainStep n a n' hired)
    (hs : n.upstreamSession.isSome = true) : n'.upstreamSession.isSome = true := by
  cases hstep with
  | stored => rfl
  | _ => exact hs

theorem sound_work {n n' : Node} {w w' : Worker} (hn : n.Sound) (hw : w.Backed n) (h : WorkStep n w n' w') :
    n'.Sound ∧ w'.Backed n' ∧ n'.upstreamSession = n.upstreamSession := by
  cases h with
  | panicked st up uc dc hnil =>
    change n.upstreamSession.isSome = true at hw
    rw [hnil] at hw
    cases hw
  | handshake | muxed | unmuxed | counted | ended | uncounted | sessClosed | rawClosed =>
    exact ⟨⟨hn.unpanicked, hn.session, hn.unserved, hn.owner, hn.replaced, hn.bounded⟩, trivial, rfl⟩
  | moved | opened | unconnected | relayed | upstreamClosed | downstreamClosed => exact ⟨hn, hw, rfl⟩

theorem backed_main {n n' : Node} {a : MainAct} {hired : Option Worker} (hn : n.Sound)
    (hstep : MainStep n a n' hired) :
    n'.Sound ∧ (∀ w ∈ hired, w.Backed n') ∧ ∀ v : Worker, v.Backed n → v.Backed n' := by
  refine ⟨sound_main hn hstep, ?_, fun v hv => hv.mono (session_kept hstep)⟩
  cases hstep with
  | accepted conn =>
    rintro w ⟨⟩
    trivial
  | streamAccepted hloop =>
    rintro w ⟨⟩
    apply hn.session
    by_contra hno
    exact hloop (hn.unserved (by simpa using hno)).2
  | _ => exact fun w hw => by cases hw

theorem relay_sound {cr : Crypto} (acts : List (Turn MainAct WorkAct)) (n : Node) (c : Team Node Worker) (hn : n.Sound)
    (hrun : run (relaying cr) ⟨n, []⟩ acts = some c) : c.shared.Sound := by
  refine (run_each (S := Node.Sound) (P := fun n w => w.Backed n) ?_ ?_ acts ⟨n, []⟩ c ⟨hn, by simp⟩ hrun).1
  · intro n b n' hired hn h
    exact backed_main hn (main_inv h)
  · intro n w a n' w' hn hw h
    obtain ⟨hn', hw', hsession⟩ := sound_work hn hw (work_inv h)
    exact ⟨hn', hw', fun v hv => hv.mono (by rw [hsession]; exact id)⟩

theorem Node.Sound.unique {n : Node} (h : n.Sound) {i j : Nat} (hi : n.Open i) (hj : n.Open j) : i = j := by
  cases hc : n.phase.connecting with
  | none =>
    have hset := settingUp_none hc
    have hiown := h.owner i hi
    have hjown := h.owner j hj
    rw [hset] at hiown hjown
    rcases hiown with ⟨_, hno, -⟩ | ⟨s, hs, rfl⟩
    · cases hno
    rcases hjown with ⟨_, hno, -⟩ | ⟨t, ht, rfl⟩
    · cases hno
    rw [Option.some.inj (hs.symm.trans ht)]
  | some p =>
    obtain ⟨s, hs, rfl⟩ := h.only_held hc i hi
    obtain ⟨t, ht, rfl⟩ := h.only_held hc j hj
    rw [Option.some.inj (hs.symm.trans ht)]

theorem main_spares {n n' : Node} {a : MainAct} {hired : Option Worker} (h : n.Sound) (hstep : MainStep n a n' hired)
    (ha : a ≠ .breaks) {sess : Link} (hs : n.upstreamSession = some sess) (hopen : n.Open sess.id) :
    n'.upstreamSession = some sess ∧ n'.Open sess.id := by
  have hidle : ∀ p, n.phase.connecting ≠ some p := by
    intro p hp
    exact h.replaced (by rw [hp]; rfl) sess hs hopen
  cases hstep with
  | dialFails _ _ hp | dialed hp | authenticated _ hp | muxed _ hp | closedOld _ _ hp | stored _ hp =>
    exact absurd hp (hidle _)
  | refused _ _ _ hp | newBreaks _ hp => exact (hp.elim (fun hp => hidle _ hp) fun hp => hidle _ hp).elim
  | breaks => exact absurd rfl ha
  | waits | reconnects | listens | accepted | streamAccepted => exact ⟨hs, hopen⟩

theorem init_sound (obfs : Bool) (downstreamAuth : Handshaker) (listen : Bytes) :
    (newRelay obfs downstreamAuth listen).Sound := by
  refine ⟨rfl, (fun h => by cases h), fun _ => ⟨rfl, rfl⟩, fun i hi => ?_, (fun _ _ h => by cases h), ?_⟩
  · simp [Node.Open, newRelay] at hi
  · rintro conn (h | h) <;> cases h

/-- All calls of a `connectUpstream` succeed. -/
def connectCalls : List (Turn MainAct WorkAct) := List.replicate 5 (.main (.connect none))

/-- The relay connects, its session breaks while a stream is being bridged, and it connects again. -/
def brokenOnce : List (Turn MainAct WorkAct) :=
  connectCalls.append (
    .main .listens :: .main .streamAccepted :: .work 0 (.call true) :: .work 0 (.call true) :: .main .breaks ::
    .main .tick :: .main .isClosed :: connectCalls.append [.work 0 (.call true), .work 0 (.call true)])

end Daxson.Relay
