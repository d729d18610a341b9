import Daxson.Relay.Upstream
import Daxson.Tunnel.ServingProofs

/-! # The relay's downstream side -/

open Lib.Machine Lib.Crew

namespace Daxson.Relay

open Auth

/-- Between `RecordSessionOpen` and `RecordSessionClose`. -/
def Worker.counted : Worker → Bool
  | .conn .acceptStream _ _ _ | .conn .recordSessionClose _ _ _ => true
  | _ => false

/-- The downstream session exists: from `NewServerSession` until `sess.Close`. -/
def ConnStage.inSession : ConnStage → Bool
  | .recordSessionOpen | .acceptStream | .recordSessionClose | .sessClose => true
  | _ => false

/-- The upstream stream of a bridge is open only between `OpenStream` and the deferred calls. -/
def BridgeStage.streaming : BridgeStage → Bool
  | .connect | .respond | .relay | .upstreamClose => true
  | _ => false

/-- What a worker has closed, by where it stands. -/
def Worker.Tidy (obfs : Bool) : Worker → Prop
  | .conn stage rawClosed shaping unmuxed =>
    (stage = .returned → rawClosed = true) ∧
      shaping = (obfs && (unmuxed || stage.inSession)) ∧
      (unmuxed = true → stage = .rawClose ∨ stage = .returned)
  | .bridge stage upstream upstreamClosed downstreamClosed =>
    (stage = .returned → downstreamClosed = true) ∧
      (upstream.isSome = true → stage.streaming = true ∨ upstreamClosed = true) ∧
      (stage.streaming = true → upstream.isSome = true)

theorem relay_gauge {cr : Crypto} (acts : List (Turn MainAct WorkAct)) (c c' : Team Node Worker)
    (hc : c.shared.sessionsActive = c.workers.countP Worker.counted) (hrun : run (relaying cr) c acts = some c') :
    c'.shared.sessionsActive = c'.workers.countP Worker.counted := by
  refine run_gauge (f := Node.sessionsActive) ?_ ?_ acts c c' hc hrun
  · intro n b n' hired h
    cases main_inv h <;> simp [Node.close, Worker.counted]
  · intro n w a n' w' h
    cases work_inv h with
    | handshake conn stage r s u hstage => rcases hstage with rfl | rfl <;> simp [Worker.counted]
    | _ => simp [Worker.counted]

theorem tidy_work {n n' : Node} {w w' : Worker} (hw : w.Tidy n.obfs) (hback : w.Backed n) (h : WorkStep n w n' w') :
    w'.Tidy n.obfs ∧ n'.obfs = n.obfs := by
  cases h with
  | panicked st up uc dc hnil =>
    change n.upstreamSession.isSome = true at hback
    rw [hnil] at hback
    cases hback
  | handshake conn stage r s u hstage =>
    rcases hstage with rfl | rfl <;> simp_all [Worker.Tidy, ConnStage.inSession]
  | moved st st' up uc dc hmove => cases hmove <;> simp_all [Worker.Tidy, BridgeStage.streaming]
  | _ => simp_all [Worker.Tidy, ConnStage.inSession, BridgeStage.streaming]

theorem relay_tidy {cr : Crypto} (acts : List (Turn MainAct WorkAct)) (n : Node) (c : Team Node Worker) (hn : n.Sound)
    (hrun : run (relaying cr) ⟨n, []⟩ acts = some c) : ∀ w ∈ c.workers, w.Tidy n.obfs := by
  have h := run_each (S := fun n' => n'.Sound ∧ n'.obfs = n.obfs) (P := fun n' w => w.Backed n' ∧ w.Tidy n.obfs)
    ?_ ?_ acts ⟨n, []⟩ c ⟨⟨hn, rfl⟩, by simp⟩ hrun
  · exact fun w hw => (h.2 w hw).2
  · rintro m b m' hired ⟨hm, hobfs⟩ h
    have hstep := main_inv h
    obtain ⟨hsound, hhired, hkept⟩ := backed_main hm hstep
    refine ⟨⟨hsound, ?_⟩, fun w hw => ⟨hhired w hw, ?_⟩, fun v hv => ⟨hkept v hv.1, hv.2⟩⟩
    · cases hstep <;> exact hobfs
    · cases hstep with
      | accepted conn =>
        obtain rfl : _ = w := Option.some.inj hw
        simp [Worker.Tidy, ConnStage.inSession]
      | streamAccepted =>
        obtain rfl : _ = w := Option.some.inj hw
        simp [Worker.Tidy, BridgeStage.streaming]
      | _ => cases hw
  · rintro m w a m' w' ⟨hm, hobfs⟩ ⟨hback, hw⟩ h
    have hstep := work_inv h
    obtain ⟨hsound, hback', hsession⟩ := sound_work hm hback hstep
    rw [← hobfs] at hw
    obtain ⟨hw', hobfs'⟩ := tidy_work hw hback hstep
    rw [hobfs] at hw'
    exact ⟨⟨hsound, hobfs'.trans hobfs⟩, ⟨hback', hw'⟩, fun v hv => ⟨hv.1.mono (by rw [hsession]; exact id), hv.2⟩⟩

theorem relay_accounts (cr : Crypto) (obfs : Bool) (downstreamAuth : Handshaker) (listen : Bytes)
    (acts : List (Turn MainAct WorkAct)) (c : Team Node Worker)
    (hrun : run (relaying cr) ⟨newRelay obfs downstreamAuth listen, []⟩ acts = some c) :
    c.shared.sessionsActive = c.workers.countP Worker.counted ∧
      (∀ rawClosed shaping unmuxed, .conn .returned rawClosed shaping unmuxed ∈ c.workers →
        rawClosed = true ∧ (shaping = true ↔ obfs = true ∧ unmuxed = true)) ∧
      ∀ upstream upstreamClosed downstreamClosed,
        .bridge .returned upstream upstreamClosed downstreamClosed ∈ c.workers →
          downstreamClosed = true ∧ (upstream.isSome = true → upstreamClosed = true) := by
  have htidy := relay_tidy acts _ c (init_sound obfs downstreamAuth listen) hrun
  refine ⟨relay_gauge acts _ c (by simp [newRelay]) hrun, fun r s u hw => ?_, fun up uc dc hw => ?_⟩
  · obtain ⟨hclosed, hshaping, -⟩ := htidy _ hw
    exact ⟨hclosed rfl, by simp [hshaping, ConnStage.inSession, newRelay]⟩
  · obtain ⟨hclosed, hup, -⟩ := htidy _ hw
    refine ⟨hclosed rfl, fun hsome => ?_⟩
    rcases hup hsome with hno | hyes
    · cases hno
    · exact hyes

/-- A stream is bridged to its end beside a handler whose mux session fails. -/
def bridgedOnce : List (Turn MainAct WorkAct) :=
  connectCalls.append (
    .main .listens :: .main (.accepted Tunnel.helloConn) :: .work 0 (.handshake Tunnel.quietEnv) ::
    .main .streamAccepted :: .work 0 (.call false) :: .work 0 (.call true) ::
    List.replicate 9 (.work 1 (.call true)))

theorem relay_accounts_bridged_once :
    ∃ c, run (relaying Tunnel.lenientCrypto) ⟨newRelay true ⟨[]⟩ [], []⟩ bridgedOnce =
        some c ∧
      c.shared.sessionsActive = c.workers.countP Worker.counted ∧
      (∀ rawClosed shaping unmuxed, .conn .returned rawClosed shaping unmuxed ∈ c.workers →
        rawClosed = true ∧ (shaping = true ↔ true = true ∧ unmuxed = true)) ∧
      ∀ upstream upstreamClosed downstreamClosed,
        .bridge .returned upstream upstreamClosed downstreamClosed ∈ c.workers →
          downstreamClosed = true ∧ (upstream.isSome = true → upstreamClosed = true) := by
  have hends : (run (relaying Tunnel.lenientCrypto) ⟨newRelay true ⟨[]⟩ [], []⟩
      bridgedOnce).isSome = true := by decide +kernel
  obtain ⟨c, hrun⟩ := Option.isSome_iff_exists.mp hends
  exact ⟨c, hrun, relay_accounts _ _ _ _ _ _ hrun⟩

end Daxson.Relay
