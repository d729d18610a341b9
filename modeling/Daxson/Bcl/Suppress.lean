import Daxson.Bcl.Writer

/-! # When the keepalive is silent

The keepalive reads the state that the sender sets, and starts its PING two steps later.
-/

open Lib.Machine

namespace Daxson.Bcl

open Protocol

/-- IDLE or THINK, where a PING may be sent. -/
def ConnState.Calm (st : ConnState) : Prop := st = .idle ∨ st = .think

instance (st : ConnState) : Decidable st.Calm := inferInstanceAs (Decidable (_ ∨ _))

theorem ConnState.calm_iff (st : ConnState) : st.Calm ↔ st ≠ .burst ∧ st ≠ .drain ∧ st ≠ .congested := by
  cases st <;> simp [Calm]

/-- The state is that of the sender's phase. -/
def Conn.Phased (c : Conn) : Prop :=
  match c.sender with
  | .collect _ _ | .flush _ => c.state = .burst
  | .drain => c.state = .drain
  | .think => c.state = .think
  | .wait | .stopped => c.state.Calm
  | .taken _ => True

/-- The keepalive has read the state and has not started its PING. -/
def SharedConn.Deciding (s : SharedConn) : Prop :=
  s.conn.keepalive = .checkIdle ∨ s.conn.keepalive = .sendPing ∧ s.pingCall = none

instance (s : SharedConn) : Decidable s.Deciding := inferInstanceAs (Decidable (_ ∨ _))

/-- The sender is inside the `WriteFrame` of a DATA frame. -/
def SharedConn.sendsData (s : SharedConn) : Bool :=
  match s.senderCall with
  | some (_, .data _) => true
  | _ => false

structure InPhase (s : SharedConn) : Prop where
  phased : s.conn.Phased
  calling : s.sendsData → ∃ remaining, s.conn.sender = .flush remaining

/-- The sender's cycle runs to its end: its DATA frames are written, and the context is not taken before
the think phase. -/
def uncut (s : SharedConn) : SharedAct → Bool
  | .other .senderDone => s.conn.state.Calm
  | .endSender fault => s.sendsData → fault = none ∧ s.conn.connClosed = false
  | _ => true

/-- BURST is not set while the keepalive decides. -/
def settled (s : SharedConn) : SharedAct → Bool
  | .other .startBurst => ¬ s.Deciding
  | _ => true

/-! ## What a step does to the phases -/

def Conn.phase (c : Conn) : Sender × ConnState := (c.sender, c.state)

theorem phased_congr {c c' : Conn} (hphase : c'.phase = c.phase) (h : c.Phased) : c'.Phased := by
  have hs : c'.sender = c.sender := congrArg Prod.fst hphase
  have hst : c'.state = c.state := congrArg Prod.snd hphase
  unfold Conn.Phased at h ⊢
  rw [hs, hst]
  exact h

theorem Conn.Phased.calm {c : Conn} (h : c.Phased) (hwait : c.sender = .wait) : c.state.Calm := by
  unfold Conn.Phased at h
  rw [hwait] at h
  exact h

theorem handleFrame_phase (n : Nat) (f : Frame) (c : Conn) :
    (c.handleFrame n f).phase = c.phase ∧ (c.handleFrame n f).keepalive = c.keepalive := by
  unfold Conn.handleFrame
  split_ifs <;> exact ⟨rfl, rfl⟩

theorem caller_phase {p : Personality} {c c' : Conn} {a : Act} (ho : a.owner = some .caller)
    (h : c.step p a = some c') : c'.phase = c.phase ∧ c'.keepalive = c.keepalive := by
  cases step_inv h with
  | write b =>
    unfold Conn.write
    split_ifs <;> exact ⟨rfl, rfl⟩
  | recvFrame chunk now n f => exact handleFrame_phase n f _
  | writeSend | writeClosed | readFrame | readBuffered | recvPart | recvBad | recvFails | cancel | closeConn
  | closeReturn => exact ⟨rfl, rfl⟩
  | _ => cases ho

theorem sender_phased {p : Personality} {c c' : Conn} {a : Act} (ho : a.owner = some .sender)
    (h : c.step p a = some c') (hph : c.Phased) (hcut : a = .senderDone → c.state.Calm) :
    c'.Phased ∧ c'.keepalive = c.keepalive ∧ (a ≠ .startBurst → c.state.Calm → c'.state.Calm) := by
  unfold Conn.Phased at hph
  cases step_inv h with
  | takeFirst | startBurst => simp [Conn.Phased]
  | takeNext item rest hin burst total hs =>
    rw [hs] at hph
    split_ifs <;> simp [Conn.Phased, hph]
  | takePong pong rest hch hs =>
    rw [hs] at hph
    simp [Conn.Phased, Conn.processPong, hs, hph, ConnState.Calm]
  | drainPong | drained | rested => simp [Conn.Phased, Conn.processPong, Conn.endCycle, ConnState.Calm]
  | collected burst total hs =>
    rw [hs] at hph
    simp [Conn.Phased, hph]
  | stop | giveUp | cut => exact ⟨hcut rfl, rfl, fun _ => id⟩
  | flushed hs =>
    rw [hs] at hph
    simp [Conn.Phased, hph, ConnState.Calm]
  | _ => cases ho

theorem keepalive_deciding {p : Personality} {c c' : Conn} {a : Act} (ho : a.owner = some .keepalive)
    (h : c.step p a = some c') :
    c'.phase = c.phase ∧
      (c'.keepalive = .checkIdle ∨ c'.keepalive = .sendPing → c.keepalive = .checkIdle ∨ c.state.Calm) := by
  cases step_inv h with
  | keepaliveBusy hk => exact ⟨rfl, by simp [hk]⟩
  | keepaliveTimer hk hst => exact ⟨rfl, fun _ => .inr hst⟩
  | keepaliveCheck now hk => exact ⟨rfl, fun _ => .inl hk⟩
  | keepaliveDone hk => exact ⟨rfl, by simp⟩
  | _ => cases ho

/-! ## What a call does to the phases -/

@[simp] theorem senderReturn_keepalive (job : Job) (err : Option GoError) (c : Conn) :
    (c.senderReturn job err).keepalive = c.keepalive :=
  (senderReturn_keeps job err c).2.2

theorem senderReturn_state (job : Job) (err : Option GoError) (c : Conn) :
    (c.senderReturn job err).state = c.state ∨ (c.senderReturn job err).state = .think := by
  unfold Conn.senderReturn
  split
  · exact .inr rfl
  · cases err <;> exact .inl rfl
  · exact .inl rfl

theorem senderReturn_pong (err : Option GoError) {c : Conn} (h : c.Phased) : (c.senderReturn .pong err).Phased := by
  unfold Conn.senderReturn
  split
  · rfl
  · rename_i heq _
    cases heq
  · exact h

theorem senderReturn_data (d : Round) {c : Conn} (h : c.Phased) : (c.senderReturn (.data d) none).Phased := by
  unfold Conn.senderReturn
  split
  · rename_i heq _
    cases heq
  · rename_i hs
    unfold Conn.Phased at h
    rw [hs] at h
    exact h
  · exact h

theorem writeOut_phase (s : SharedConn) (call : Call) (fault : Option SysError) :
    (s.writeOut call fault).2.phase = s.conn.phase ∧ (s.writeOut call fault).2.keepalive = s.conn.keepalive := by
  obtain ⟨wire, hwire⟩ := writeOut_wire s call fault
  rw [hwire]
  exact ⟨rfl, rfl⟩

/-! ## One step -/

theorem inPhase_other {p : Personality} {s : SharedConn} {a : Act} {o : Owner} {c : Conn} (h : InPhase s)
    (huncut : uncut s (.other a)) (ho : a.owner = some o) (hs : o = .sender → s.senderCall = none)
    (hc : s.conn.step p a = some c) : InPhase { s with conn := c } := by
  have hsame : c.phase = s.conn.phase → InPhase { s with conn := c } := by
    intro hphase
    refine ⟨phased_congr hphase h.phased, ?_⟩
    intro hcall
    obtain ⟨remaining, hflush⟩ := h.calling hcall
    exact ⟨remaining, (congrArg Prod.fst hphase).trans hflush⟩
  cases o with
  | caller => exact hsame (caller_phase ho hc).1
  | keepalive => exact hsame (keepalive_deciding ho hc).1
  | sender =>
    have hcut : a = .senderDone → s.conn.state.Calm := by
      rintro rfl
      exact of_decide_eq_true huncut
    refine ⟨(sender_phased ho hc h.phased hcut).1, ?_⟩
    intro hcall
    unfold SharedConn.sendsData at hcall
    rw [show s.senderCall = none from hs rfl] at hcall
    cases hcall

theorem inPhase_step {p : Personality} {s s' : SharedConn} {a : SharedAct} (h : InPhase s) (huncut : uncut s a)
    (hstep : s.step p a = some s') : InPhase s' := by
  cases shared_inv hstep with
  | other ho hs _ hc => exact inPhase_other h huncut ho hs hc
  | pongFails err hidle =>
    have hph : Conn.Phased { s.conn with pingCh := _ } := phased_congr rfl h.phased
    exact ⟨senderReturn_pong _ hph, by simp [SharedConn.sendsData, hidle]⟩
  | beginPong => exact ⟨phased_congr rfl h.phased, by simp [SharedConn.sendsData]⟩
  | beginData hidle hflush => exact ⟨h.phased, fun _ => ⟨_, hflush⟩⟩
  | beginPing => exact ⟨phased_congr rfl h.phased, h.calling⟩
  | @endSender fault call job hs =>
    have hph : (s.writeOut call fault).2.Phased := phased_congr (writeOut_phase s call fault).1 h.phased
    refine ⟨?_, by simp [SharedConn.sendsData]⟩
    cases job with
    | pong => exact senderReturn_pong _ hph
    | data d =>
      obtain ⟨rfl, hopen⟩ := of_decide_eq_true huncut (by simp [SharedConn.sendsData, hs])
      have hok : (s.writeOut call none).1 = none := by simp [SharedConn.writeOut, hopen]
      dsimp only
      rw [hok]
      exact senderReturn_data d hph
  | @endPing fault call =>
    have hphase := (writeOut_phase s call fault).1
    refine ⟨phased_congr hphase h.phased, ?_⟩
    intro hcall
    obtain ⟨remaining, hflush⟩ := h.calling hcall
    exact ⟨remaining, (congrArg Prod.fst hphase).trans hflush⟩

theorem deciding_other {p : Personality} {s : SharedConn} {a : Act} {o : Owner} {c : Conn} (h : InPhase s)
    (hcalm : s.Deciding → s.conn.state.Calm) (hsettled : settled s (.other a)) (huncut : uncut s (.other a))
    (ho : a.owner = some o) (hc : s.conn.step p a = some c) :
    SharedConn.Deciding { s with conn := c } → c.state.Calm := by
  have hkept : c.keepalive = s.conn.keepalive → SharedConn.Deciding { s with conn := c } → s.Deciding := by
    intro hk hd
    unfold SharedConn.Deciding at hd ⊢
    rw [← hk]
    exact hd
  intro hd
  cases o with
  | caller =>
    obtain ⟨hphase, hk⟩ := caller_phase ho hc
    have hst : c.state = s.conn.state := congrArg Prod.snd hphase
    rw [hst]
    exact hcalm (hkept hk hd)
  | keepalive =>
    obtain ⟨hphase, hwhy⟩ := keepalive_deciding ho hc
    have hst : c.state = s.conn.state := congrArg Prod.snd hphase
    rw [hst]
    rcases hwhy (hd.imp_right And.left) with hcheck | hst
    · exact hcalm (.inl hcheck)
    · exact hst
  | sender =>
    have hcut : a = .senderDone → s.conn.state.Calm := by
      rintro rfl
      exact of_decide_eq_true huncut
    obtain ⟨-, hk, hstays⟩ := sender_phased ho hc h.phased hcut
    have hs := hkept hk hd
    refine hstays ?_ (hcalm hs)
    rintro rfl
    exact of_decide_eq_true hsettled hs

theorem deciding_step {p : Personality} {s s' : SharedConn} {a : SharedAct} (h : InPhase s)
    (hcalm : s.Deciding → s.conn.state.Calm) (hsettled : settled s a) (huncut : uncut s a)
    (hstep : s.step p a = some s') : s'.Deciding → s'.conn.state.Calm := by
  -- A return of the sender leaves the state, or sets THINK.
  have hreturn : ∀ {c : Conn} (job : Job) (err : Option GoError), (c.state.Calm) →
      (c.senderReturn job err).state.Calm := by
    intro c job err hc
    rcases senderReturn_state job err c with hst | hst
    · rwa [hst]
    · exact .inr hst
  cases shared_inv hstep with
  | other ho _ _ hc => exact deciding_other h hcalm hsettled huncut ho hc
  | pongFails =>
    intro hd
    unfold SharedConn.Deciding at hd
    rw [senderReturn_keepalive] at hd
    exact hreturn _ _ (hcalm hd)
  | beginPong | beginData => exact hcalm
  | @endSender fault call =>
    obtain ⟨hphase, hk⟩ := writeOut_phase s call fault
    intro hd
    unfold SharedConn.Deciding at hd
    rw [senderReturn_keepalive, hk] at hd
    apply hreturn
    rw [show (s.writeOut call fault).2.state = s.conn.state from congrArg Prod.snd hphase]
    exact hcalm hd
  | beginPing _ hk =>
    rintro (hd | ⟨-, hd⟩)
    · cases hk.symm.trans hd
    · cases hd
  | endPing =>
    intro hd
    unfold SharedConn.Deciding Conn.keepaliveReturn at hd
    dsimp only at hd
    split_ifs at hd <;> simp at hd

theorem senderDone_cut {c c' : Conn} (hph : c.Phased) (hcut : ¬ c.state.Calm) (h : c.senderDone = some c') :
    c'.sender = .wait ∧ ¬ c'.state.Calm := by
  unfold Conn.Phased at hph
  unfold Conn.senderDone at h
  split_ifs at h
  split at h
  · simp_all
  · obtain rfl := Option.some.inj h
    exact ⟨rfl, hcut⟩
  · obtain rfl := Option.some.inj h
    exact ⟨rfl, hcut⟩
  · obtain rfl := Option.some.inj h
    exact ⟨rfl, hcut⟩
  · cases h

theorem senderReturn_failed {c : Conn} {d : Round} {remaining : Bytes} (hph : c.Phased)
    (hs : c.sender = .flush remaining) (e : GoError) :
    (c.senderReturn (.data d) (some e)).sender = .wait ∧ ¬ (c.senderReturn (.data d) (some e)).state.Calm := by
  unfold Conn.Phased at hph
  rw [hs] at hph
  have hburst : c.state = .burst := hph
  unfold Conn.senderReturn
  rw [hs]
  refine ⟨rfl, ?_⟩
  change ¬ c.state.Calm
  rw [hburst]
  decide

theorem cut_step {p : Personality} {s s' : SharedConn} {a : SharedAct} (h : InPhase s) (hcut : ¬ uncut s a)
    (hstep : s.step p a = some s') : s'.conn.sender = .wait ∧ ¬ s'.conn.state.Calm := by
  cases shared_inv hstep with
  | @other a _ _ _ _ _ hc =>
    cases a with
    | senderDone => exact senderDone_cut h.phased (by simpa [uncut] using hcut) hc
    | _ => exact absurd rfl hcut
  | @endSender fault call job hs =>
    have hfailed : ∃ d, job = .data d ∧ ∃ e, (s.writeOut call fault).1 = some e := by
      unfold uncut SharedConn.sendsData at hcut
      rw [hs] at hcut
      cases job with
      | pong => simp at hcut
      | data d =>
        refine ⟨d, rfl, ?_⟩
        unfold SharedConn.writeOut
        cases fault <;> cases hc : s.conn.connClosed <;> simp_all
    obtain ⟨d, rfl, e, he⟩ := hfailed
    obtain ⟨remaining, hflush⟩ := h.calling (by simp [SharedConn.sendsData, hs])
    have hphase := (writeOut_phase s call fault).1
    dsimp only
    rw [he]
    exact senderReturn_failed (phased_congr hphase h.phased) ((congrArg Prod.fst hphase).trans hflush) e
  | _ => exact absurd rfl hcut

/-! ## Whole runs -/

theorem uncut_iff {p : Personality} {s s' : SharedConn} {a : SharedAct} (h : InPhase s)
    (hstep : s.step p a = some s') :
    uncut s a ↔ ∀ s', s.step p a = some s' → s'.conn.sender = .wait → s'.conn.state.Calm := by
  constructor
  · intro huncut s' hstep hwait
    exact (inPhase_step h huncut hstep).phased.calm hwait
  · intro hcalm
    by_contra hcut
    obtain ⟨hwait, hno⟩ := cut_step h hcut hstep
    exact hno (hcalm s' hstep hwait)

theorem keepalive_suppressed (p : Personality) (acts : List SharedAct) (s : SharedConn)
    (hrun : run (SharedConn.step p) {} acts = some s) :
    (AllSteps (SharedConn.step p) (fun s a => settled s a ∧ uncut s a) {} acts →
      (∀ now s', s.step p (.beginPing now) = some s' → s.conn.state ≠ .burst ∧ s.conn.state ≠ .drain) ∧
        (s.conn.sender = .wait → s.conn.state = .idle ∨ s.conn.state = .think)) ∧
    (AllSteps (SharedConn.step p)
        (fun s a => ∀ s', s.step p a = some s' →
          s'.conn.sender = .wait → s'.conn.state = .idle ∨ s'.conn.state = .think) {} acts ↔
      AllSteps (SharedConn.step p) (fun s a => uncut s a) {} acts) := by
  have hinit : InPhase {} := ⟨.inl rfl, nofun⟩
  constructor
  · intro hgood
    have hstep : ∀ (s : SharedConn) (a : SharedAct) (s' : SharedConn),
        InPhase s ∧ (s.Deciding → s.conn.state.Calm) → settled s a ∧ uncut s a → s.step p a = some s' →
          InPhase s' ∧ (s'.Deciding → s'.conn.state.Calm) := by
      rintro s a s' ⟨h, hcalm⟩ ⟨hsettled, huncut⟩ hs
      exact ⟨inPhase_step h huncut hs, deciding_step h hcalm hsettled huncut hs⟩
    obtain ⟨h, hcalm⟩ := run_invariant_when hstep acts {} s ⟨hinit, fun _ => .inl rfl⟩ hgood hrun
    constructor
    · intro now s' hping
      cases shared_inv hping with
      | beginPing hp hk =>
        have hnow := (ConnState.calm_iff _).mp (hcalm (.inr ⟨hk, hp⟩))
        exact ⟨hnow.1, hnow.2.1⟩
    · intro hwait
      exact h.phased.calm hwait
  · have hkeep : ∀ (s : SharedConn) (a : SharedAct) (s' : SharedConn), InPhase s → uncut s a →
        s.step p a = some s' → InPhase s' := fun _ _ _ h huncut hs => inPhase_step h huncut hs
    exact (allSteps_iff_of_invariant hkeep (fun _ _ _ h hs => uncut_iff h hs) acts {} s hinit hrun).symm

theorem keepalive_suppressed_after_cycle :
    let p : Personality := { maxBurstBytes := 524288, keepaliveIdle := 45000000000 }
    let acts : List SharedAct := [.other (.write [7]), .other (.writeSend 0), .other .takeItem, .other .startBurst,
      .other .timer, .beginData { apparentSize := 64 }, .endSender none, .other .flushed, .other .timer, .other .timer,
      .other .keepaliveTimer, .other (.keepaliveCheck 45000000000)]
    ∃ s, run (SharedConn.step p) {} acts = some s ∧ s.conn.keepalive = .sendPing ∧
      ∀ now s', s.step p (.beginPing now) = some s' → s.conn.state ≠ .burst ∧ s.conn.state ≠ .drain := by
  intro p acts
  have hruns : ((run (SharedConn.step p) {} acts).map fun s => s.conn.keepalive) = some .sendPing := by
    decide +kernel
  obtain ⟨s, hs, hk⟩ := Option.map_eq_some_iff.mp hruns
  have hgood : AllSteps (SharedConn.step p) (fun s a => settled s a ∧ uncut s a) {} acts := by decide +kernel
  exact ⟨s, hs, hk, ((keepalive_suppressed p acts s hs).1 hgood).1⟩

/-- The keepalive sees IDLE before a burst, and a failed DATA frame leaves the sender waiting in BURST. -/
theorem keepalive_in_burst :
    let p : Personality := { maxBurstBytes := 524288, keepaliveIdle := 45000000000 }
    let race : List SharedAct := [.other (.write [7]), .other (.writeSend 0), .other .takeItem, .other .keepaliveTimer,
      .other (.keepaliveCheck 45000000000), .other .startBurst]
    let failed : List SharedAct := [.other (.write [7]), .other (.writeSend 0), .other .takeItem, .other .startBurst,
      .other .timer, .beginData { apparentSize := 64 }, .endSender (some (.other "connection reset by peer"))]
    ((run (SharedConn.step p) {} race).map fun s => (s.conn.state, (s.step p (.beginPing 45000000000)).isSome)) =
        some (.burst, true) ∧
      ((run (SharedConn.step p) {} failed).map fun s => (s.conn.sender, s.conn.state)) = some (.wait, .burst) ∧
      ((run (SharedConn.step p) {} (failed ++ [.other .keepaliveTimer])).map fun s =>
        (s.conn.state, s.conn.keepalive)) = some (.burst, .wait) := by
  decide +kernel

end Daxson.Bcl
