import Daxson.Config
import Daxson.Lib.Machine

/-! # The client and its metrics

A `Record` call through a nil pointer is a panic, and a panic in one goroutine ends them all.
-/

open Lib.Machine

namespace Daxson.Tunnel

/-! ## Metrics -/

structure Metrics where
  connectionsOutbound : Nat := 0
  streamsActive : Int := 0
  reconnectsTotal : Nat := 0
  proxyAcceptsSOCKS5 : Nat := 0
  proxyAcceptsHTTP : Nat := 0
  deriving DecidableEq, Repr

/-- A `*Metrics`: nil, or the object that `New` has made. -/
inductive MetricsPtr where
  | nil
  | object
  deriving DecidableEq, Repr

inductive Proxy where
  | socks5
  | http
  deriving DecidableEq, Repr

def Metrics.recordConnect (m : Metrics) : Metrics := { m with connectionsOutbound := m.connectionsOutbound + 1 }
def Metrics.recordReconnect (m : Metrics) : Metrics := { m with reconnectsTotal := m.reconnectsTotal + 1 }
def Metrics.recordStreamOpen (m : Metrics) : Metrics := { m with streamsActive := m.streamsActive + 1 }
def Metrics.recordStreamClose (m : Metrics) : Metrics := { m with streamsActive := m.streamsActive - 1 }

def Metrics.recordProxyAccept (proxyType : Proxy) (m : Metrics) : Metrics :=
  match proxyType with
  | .socks5 => { m with proxyAcceptsSOCKS5 := m.proxyAcceptsSOCKS5 + 1 }
  | .http => { m with proxyAcceptsHTTP := m.proxyAcceptsHTTP + 1 }

/-! ## The processes -/

inductive Phase where
  | dialing (attempt : Nat)
  | backoff (attempt : Nat)
  | session
  | stopped
  deriving DecidableEq, Repr

inductive ProxyState where
  | idle
  | starting
  | serving
  | ended
  deriving DecidableEq, Repr

/-- A proxy server, from `NewServer`. -/
structure ProxyServer where
  addr : Bytes
  met : MetricsPtr
  state : ProxyState := .idle
  deriving DecidableEq, Repr

structure ClientProcess where
  reconnect : Config.ReconnectCfg
  met : MetricsPtr
  socks5 : ProxyServer
  http : ProxyServer
  metrics : Metrics := {}
  phase : Phase := .dialing 0
  /-- The stored session, and whether it is closed. -/
  session : Option Bool := none
  reconnects : Nat := 0
  /-- Accepted connections that a handler still serves. -/
  handlers : Nat := 0
  /-- `ctx`. -/
  cancelled : Bool := false
  /-- An error of a proxy is waiting in `errCh`. -/
  failed : Bool := false
  returned : Bool := false
  panicked : Bool := false
  deriving DecidableEq, Repr

def ClientProcess.proxy (s : ClientProcess) : Proxy → ProxyServer
  | .socks5 => s.socks5
  | .http => s.http

def ClientProcess.setProxy (s : ClientProcess) (k : Proxy) (state : ProxyState) : ClientProcess :=
  match k with
  | .socks5 => { s with socks5 := { s.socks5 with state := state } }
  | .http => { s with http := { s.http with state := state } }

/-- Call a `Record` method and go on with `next`. -/
def ClientProcess.record (s : ClientProcess) (ptr : MetricsPtr) (f : Metrics → Metrics)
    (next : ClientProcess → ClientProcess) : ClientProcess :=
  match ptr with
  | .nil => { s with panicked := true }
  | .object => next { s with metrics := f s.metrics }

inductive Act where
  /-- `connect` returns, without or with an error. -/
  | connected
  | connectFailed
  | backoffOver
  | backoffCancelled
  | sessionTick
  | sessionCancelled
  /-- The connection under the session breaks. -/
  | sessionBroke
  | signal
  | startProxies
  | listening (k : Proxy)
  | listenFailed (k : Proxy)
  | accepted (k : Proxy)
  | acceptFailed (k : Proxy)
  /-- `OpenStream` returns to a handler, without or with an error. -/
  | streamOpened
  | streamFailed
  | handlerDone
  /-- The command returns, and the process ends. -/
  | commandReturns
  deriving DecidableEq, Repr

/-- `connect` after its handshakes: the session is stored before the metric is recorded. -/
def ClientProcess.connect (s : ClientProcess) : ClientProcess :=
  { s with session := some false }.record s.met Metrics.recordConnect fun s =>
    { s with reconnects := s.reconnects + 1, phase := .session }

/-- The error branch of `Run`. -/
def ClientProcess.connectError (s : ClientProcess) (attempt : Nat) : ClientProcess :=
  if s.cancelled then { s with phase := .stopped }
  else
    s.record s.met Metrics.recordReconnect fun s =>
      if 0 ≤ s.reconnect.maxRetries.toInt ∧ s.reconnect.maxRetries.toInt ≤ attempt then { s with phase := .stopped }
      else { s with phase := .backoff attempt }

def ClientProcess.startProxy (s : ClientProcess) (k : Proxy) : ClientProcess :=
  if (s.proxy k).addr = [] then s else s.setProxy k .starting

def ClientProcess.step (s : ClientProcess) (a : Act) : Option ClientProcess :=
  if s.panicked || s.returned then none
  else
    match a with
    | .connected =>
      match s.phase with
      | .dialing _ => some s.connect
      | _ => none
    | .connectFailed =>
      match s.phase with
      | .dialing attempt => some (s.connectError attempt)
      | _ => none
    | .backoffOver =>
      match s.phase with
      | .backoff attempt => some { s with phase := .dialing (attempt + 1) }
      | _ => none
    | .backoffCancelled =>
      match s.phase with
      | .backoff _ => if s.cancelled then some { s with phase := .stopped } else none
      | _ => none
    | .sessionTick =>
      if s.phase = .session then
        some (if s.session = some true then { s with phase := .dialing 0 } else s)
      else none
    | .sessionCancelled =>
      -- `Run` dials once more and stops on the error of that.
      if s.phase = .session ∧ s.cancelled then some { s with session := some true, phase := .dialing 0 } else none
    | .sessionBroke => if s.session = some false then some { s with session := some true } else none
    | .signal => some { s with cancelled := true }
    | .startProxies =>
      if s.socks5.state = .idle ∧ s.http.state = .idle then some ((s.startProxy .socks5).startProxy .http) else none
    | .listening k => if (s.proxy k).state = .starting then some (s.setProxy k .serving) else none
    | .listenFailed k =>
      if (s.proxy k).state = .starting then some { s.setProxy k .ended with failed := true } else none
    | .accepted k =>
      if (s.proxy k).state = .serving then
        some (s.record (s.proxy k).met (Metrics.recordProxyAccept k) fun s => { s with handlers := s.handlers + 1 })
      else none
    | .acceptFailed k =>
      if (s.proxy k).state = .serving then some (if s.cancelled then s.setProxy k .ended else s) else none
    | .streamOpened =>
      if 0 < s.handlers ∧ s.session.isSome then some (s.record s.met Metrics.recordStreamOpen id) else none
    | .streamFailed => if 0 < s.handlers then some s else none
    | .handlerDone => if 0 < s.handlers then some { s with handlers := s.handlers - 1 } else none
    | .commandReturns => if s.cancelled ∨ s.failed then some { s with returned := true } else none

/-! ## When a run panics -/

/-- The pointer that an action records through, if it records anything. -/
def ClientProcess.recorder (s : ClientProcess) : Act → Option MetricsPtr
  | .connected | .streamOpened => some s.met
  | .connectFailed => if s.cancelled then none else some s.met
  | .accepted k => some (s.proxy k).met
  | _ => none

def ClientProcess.Quiet (s s' : ClientProcess) : Prop :=
  s'.panicked = s.panicked ∧ s'.met = s.met ∧ s'.socks5.met = s.socks5.met ∧ s'.http.met = s.http.met

/-- What recording through `ptr` does: a panic exactly when `ptr` is nil. -/
structure ClientProcess.Recorded (s : ClientProcess) (ptr : Option MetricsPtr) (s' : ClientProcess) : Prop where
  panicked : s'.panicked = true ↔ ptr = some .nil
  met : s'.met = s.met
  proxies : ∀ k, (s'.proxy k).met = (s.proxy k).met

theorem Quiet.recorded {s s' : ClientProcess} (h : s.Quiet s') (hs : s.panicked = false) : s.Recorded none s' := by
  obtain ⟨hpanic, hmet, hsocks, hhttp⟩ := h
  refine ⟨by simp [hpanic, hs], hmet, fun k => ?_⟩
  cases k
  · exact hsocks
  · exact hhttp

theorem record_recorded {s s₀ : ClientProcess} {ptr : MetricsPtr} {f : Metrics → Metrics}
    {next : ClientProcess → ClientProcess} (hs : s.panicked = false) (h₀ : s.Quiet s₀)
    (hnext : ∀ s : ClientProcess, s.Quiet (next s)) : s.Recorded (some ptr) (s₀.record ptr f next) := by
  obtain ⟨hpanic, hmet, hsocks, hhttp⟩ := h₀
  cases ptr with
  | nil =>
    refine ⟨by simp [ClientProcess.record], hmet, fun k => ?_⟩
    cases k
    · exact hsocks
    · exact hhttp
  | object =>
    obtain ⟨hpanic', hmet', hsocks', hhttp'⟩ := hnext { s₀ with metrics := f s₀.metrics }
    refine ⟨?_, hmet'.trans hmet, fun k => ?_⟩
    · change (next _).panicked = true ↔ _
      rw [hpanic']
      simp [hpanic, hs]
    · cases k
      · exact hsocks'.trans hsocks
      · exact hhttp'.trans hhttp

theorem setProxy_quiet (s : ClientProcess) (k : Proxy) (state : ProxyState) : s.Quiet (s.setProxy k state) := by
  cases k <;> exact ⟨rfl, rfl, rfl, rfl⟩

theorem connectError_recorded {s : ClientProcess} (hs : s.panicked = false) (attempt : Nat) :
    s.Recorded (s.recorder .connectFailed) (s.connectError attempt) := by
  unfold ClientProcess.connectError ClientProcess.recorder
  dsimp only
  split_ifs with hcancel
  · exact Quiet.recorded ⟨rfl, rfl, rfl, rfl⟩ hs
  · apply record_recorded hs ⟨rfl, rfl, rfl, rfl⟩
    intro s
    split_ifs <;> exact ⟨rfl, rfl, rfl, rfl⟩

theorem startProxies_quiet (s : ClientProcess) : s.Quiet ((s.startProxy .socks5).startProxy .http) := by
  unfold ClientProcess.startProxy
  split_ifs <;> exact ⟨rfl, rfl, rfl, rfl⟩

theorem step_recorded {s s' : ClientProcess} {a : Act} (h : s.step a = some s') :
    s.panicked = false ∧ s.Recorded (s.recorder a) s' := by
  unfold ClientProcess.step at h
  split at h
  · cases h
  rename_i hlive
  have hs : s.panicked = false := by simp at hlive; exact hlive.1
  refine ⟨hs, ?_⟩
  cases a with
  | connected =>
    dsimp only at h
    split at h
    · cases h
      exact record_recorded hs ⟨rfl, rfl, rfl, rfl⟩ fun s => ⟨rfl, rfl, rfl, rfl⟩
    · cases h
  | connectFailed =>
    dsimp only at h
    split at h
    · cases h
      exact connectError_recorded hs _
    · cases h
  | accepted k =>
    dsimp only at h
    split_ifs at h
    cases h
    exact record_recorded hs ⟨rfl, rfl, rfl, rfl⟩ fun s => ⟨rfl, rfl, rfl, rfl⟩
  | streamOpened =>
    dsimp only at h
    split_ifs at h
    cases h
    exact record_recorded hs ⟨rfl, rfl, rfl, rfl⟩ fun s => ⟨rfl, rfl, rfl, rfl⟩
  | backoffOver =>
    dsimp only at h
    split at h
    · cases h
      exact Quiet.recorded ⟨rfl, rfl, rfl, rfl⟩ hs
    · cases h
  | backoffCancelled =>
    dsimp only at h
    split at h
    · split_ifs at h
      cases h
      exact Quiet.recorded ⟨rfl, rfl, rfl, rfl⟩ hs
    · cases h
  | sessionTick =>
    dsimp only at h
    split_ifs at h <;> cases h <;> exact Quiet.recorded ⟨rfl, rfl, rfl, rfl⟩ hs
  | startProxies =>
    dsimp only at h
    split_ifs at h
    cases h
    exact Quiet.recorded (startProxies_quiet s) hs
  | listening k | listenFailed k =>
    dsimp only at h
    split_ifs at h
    cases h
    exact Quiet.recorded (setProxy_quiet s k _) hs
  | acceptFailed k =>
    dsimp only at h
    split_ifs at h <;> cases h
    · exact Quiet.recorded (setProxy_quiet s k _) hs
    · exact Quiet.recorded ⟨rfl, rfl, rfl, rfl⟩ hs
  | signal =>
    cases h
    exact Quiet.recorded ⟨rfl, rfl, rfl, rfl⟩ hs
  | sessionCancelled | sessionBroke | streamFailed | handlerDone | commandReturns =>
    dsimp only at h
    split_ifs at h
    cases h
    exact Quiet.recorded ⟨rfl, rfl, rfl, rfl⟩ hs

/-- Nothing is recorded: no success of `connect` or `OpenStream`, no accepted connection, and a failure of
`connect` only after the context is cancelled. -/
def ClientProcess.Silent (s : ClientProcess) (a : Act) : Prop := s.recorder a = none

instance (s : ClientProcess) (a : Act) : Decidable (s.Silent a) := inferInstanceAs (Decidable (s.recorder a = none))

def ClientProcess.AllPtrs (s : ClientProcess) (ptr : MetricsPtr) : Prop := s.met = ptr ∧ ∀ k, (s.proxy k).met = ptr

theorem recorder_of_allPtrs {s : ClientProcess} {ptr : MetricsPtr} (h : s.AllPtrs ptr) (a : Act) :
    s.recorder a = none ∨ s.recorder a = some ptr := by
  obtain ⟨hmet, hproxies⟩ := h
  cases a with
  | connected | streamOpened => exact .inr (congrArg some hmet)
  | accepted k => exact .inr (congrArg some (hproxies k))
  | connectFailed =>
    unfold ClientProcess.recorder
    dsimp only
    split_ifs
    · exact .inl rfl
    · exact .inr (congrArg some hmet)
  | _ => exact .inl rfl

theorem Recorded.allPtrs_iff {s s' : ClientProcess} {r : Option MetricsPtr} (h : s.Recorded r s') (ptr : MetricsPtr) :
    s'.AllPtrs ptr ↔ s.AllPtrs ptr := by
  simp only [ClientProcess.AllPtrs, h.met, h.proxies]

theorem run_nil_iff (as : List Act) (s t : ClientProcess) (hs : s.panicked = false) (hnil : s.AllPtrs .nil)
    (hrun : run ClientProcess.step s as = some t) :
    t.panicked = false ↔ AllSteps ClientProcess.step ClientProcess.Silent s as := by
  have hstep : ∀ (s : ClientProcess) a s', s.step a = some s' →
      (s'.panicked = false ∧ s'.AllPtrs .nil ↔ (s.panicked = false ∧ s.AllPtrs .nil) ∧ s.Silent a) := by
    intro s a s' h
    obtain ⟨hlive, hrec⟩ := step_recorded h
    rw [Recorded.allPtrs_iff hrec, ← Bool.not_eq_true, hrec.panicked]
    constructor
    · rintro ⟨hquiet, hptrs⟩
      exact ⟨⟨hlive, hptrs⟩, (recorder_of_allPtrs hptrs a).resolve_right hquiet⟩
    · rintro ⟨⟨-, hptrs⟩, hsilent⟩
      rw [ClientProcess.Silent] at hsilent
      exact ⟨by simp [hsilent], hptrs⟩
  have hptrs : t.AllPtrs .nil := by
    refine run_invariant (P := fun s => s.AllPtrs .nil) ?_ as s t hnil hrun
    intro s a s' h hs
    exact (Recorded.allPtrs_iff (step_recorded hs).2 _).mpr h
  have hiff := run_iff_allSteps hstep as s t hrun
  simpa [hs, hnil, hptrs] using hiff

theorem run_object_safe (as : List Act) (s t : ClientProcess) (hs : s.panicked = false) (hobj : s.AllPtrs .object)
    (hrun : run ClientProcess.step s as = some t) : t.panicked = false := by
  have hstep : ∀ (s : ClientProcess) a s', (s.panicked = false ∧ s.AllPtrs .object) → s.step a = some s' →
      s'.panicked = false ∧ s'.AllPtrs .object := by
    rintro s a s' ⟨-, hptrs⟩ h
    obtain ⟨-, hrec⟩ := step_recorded h
    refine ⟨?_, (Recorded.allPtrs_iff hrec _).mpr hptrs⟩
    rw [← Bool.not_eq_true, hrec.panicked]
    rcases recorder_of_allPtrs hptrs a with hnone | hsome
    · simp [hnone]
    · simp [hsome]
  exact (run_invariant hstep as s t ⟨hs, hobj⟩ hrun).1

end Daxson.Tunnel
