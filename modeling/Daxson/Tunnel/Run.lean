import Daxson.Tunnel.Client

/-! # `Client.Run`, step by step

Every connection that is dialed, who holds it, and every delay. The multiplier is an exact fraction.
-/

open Lib.Machine

namespace Daxson.Reconnect

/-- A dialed connection, by its number, or a shaped one around another. -/
inductive Link where
  | raw (id : Nat)
  | shaped (inner : Link)
  deriving DecidableEq, Repr

/-- The connection that a `Close` of the outermost wrapper closes. -/
def Link.id : Link → Nat
  | .raw id => id
  | .shaped inner => inner.id

structure RunCfg where
  reconnect : Config.ReconnectCfg
  multiplier : ℚ
  /-- `Transport.Obfs.Enabled`. -/
  obfs : Bool := false

def RunCfg.baseDelay (cfg : RunCfg) : Int64 := cfg.reconnect.baseDelay.duration
def RunCfg.maxDelay (cfg : RunCfg) : Int64 := cfg.reconnect.maxDelay.duration

/-- `obfs.Wrap`. -/
def wrap (cfg : RunCfg) (conn : Link) : Link := if cfg.obfs then .shaped conn else conn

/-- Where `Run` stands. -/
inductive Point where
  | dial
  /-- In the handshake. -/
  | auth (rawConn : Link)
  | mux (shapedConn : Link)
  /-- The session is made and not yet stored. -/
  | install (sess : Link)
  /-- It is stored, and `old` is not yet closed. -/
  | replace (old : Option Link)
  /-- `connect` has failed. -/
  | failed
  | wait
  /-- In `runSession`. -/
  | session (sess : Link)
  | returned
  | panicked
  deriving DecidableEq, Repr

structure Runner where
  backoff : Int64
  attempt : Nat := 0
  /-- For each dialed connection, whether it is closed. -/
  closed : List Bool := []
  /-- `c.session`, as the connection that it closes. -/
  session : Option Link := none
  point : Point := .dial
  cancelled : Bool := false
  -- History that the code does not keep.
  waits : List Int64 := []
  deriving DecidableEq, Repr

def Runner.start (cfg : RunCfg) : Runner := { backoff := cfg.baseDelay }

def Runner.close (conn : Link) (s : Runner) : Runner := { s with closed := s.closed.set conn.id true }

/-- A conversion to an integer type drops the fraction. -/
def truncate (q : ℚ) : Int := Int.tdiv q.num q.den

def nextBackoff (cfg : RunCfg) (backoff : Int64) : Int64 :=
  Int64.ofInt (truncate (min (cfg.maxDelay.toInt : ℚ) (backoff.toInt * cfg.multiplier)))

inductive Jitter where
  | delay (d : Int64)
  | panic
  deriving DecidableEq, Repr

/-- `jitter`, with what `rand.Int63n` draws; `none` for a number that it cannot draw. -/
def jitter (d draw : Int64) : Option Jitter :=
  if d ≤ 0 then some (.delay 0)
  else if d / 4 ≤ 0 then some .panic
  else if 0 ≤ draw ∧ draw < d / 4 then some (.delay draw)
  else none

def RunCfg.givesUp (cfg : RunCfg) (attempt : Nat) : Bool :=
  0 ≤ cfg.reconnect.maxRetries.toInt && cfg.reconnect.maxRetries.toInt ≤ attempt

inductive Act where
  | dialed
  | dialFails
  | authenticated
  | authFails
  | muxed
  | muxFails
  | store
  | closeOld
  /-- The error of `connect` is handled, up to the select. -/
  | retry (draw : Int64)
  | waited
  | waitCancelled
  /-- The ticker fires and `IsClosed` is asked. -/
  | tick (isClosed : Bool)
  | sessionCancelled
  /-- The mux closes a session of its own accord. -/
  | breaks (sess : Link)
  | cancel
  deriving DecidableEq, Repr

/-- The session that is made but not stored, the stored one, or the one that is to be closed. -/
def Runner.hasSession (s : Runner) (sess : Link) : Bool :=
  s.point = .install sess || s.session = some sess || s.point = .replace (some sess)

/-- The wait for the backoff and its jitter begins. -/
def Runner.await (s : Runner) : Jitter → Runner
  | .panic => { s with point := .panicked }
  | .delay d => { s with point := .wait, waits := s.waits ++ [s.backoff + d] }

/-- The branch of `Run` for a failed `connect`. -/
def Runner.retry (cfg : RunCfg) (draw : Int64) (s : Runner) : Option Runner :=
  if s.cancelled then some { s with point := .returned }
  else if cfg.givesUp s.attempt then some { s with point := .returned }
  else (jitter s.backoff draw).map s.await

def Runner.step (cfg : RunCfg) (s : Runner) (a : Act) : Option Runner :=
  match a with
  | .dialed =>
    if s.point = .dial then some { s with closed := s.closed ++ [false], point := .auth (.raw s.closed.length) }
    else none
  | .dialFails => if s.point = .dial then some { s with point := .failed } else none
  | .authenticated =>
    match s.point with
    | .auth rawConn => some { s with point := .mux (wrap cfg rawConn) }
    | _ => none
  | .authFails =>
    match s.point with
    | .auth rawConn => some { s.close rawConn with point := .failed }
    | _ => none
  | .muxed =>
    match s.point with
    | .mux shapedConn => some { s with point := .install shapedConn }
    | _ => none
  | .muxFails =>
    match s.point with
    | .mux shapedConn => some { s.close shapedConn with point := .failed }
    | _ => none
  | .store =>
    match s.point with
    | .install sess => some { s with session := some sess, point := .replace s.session }
    | _ => none
  | .closeOld =>
    match s.point with
    | .replace old =>
      let s := old.elim s fun old => s.close old
      -- `runSession` fails at once without a session.
      some { s with backoff := cfg.baseDelay, attempt := 0, point := s.session.elim .dial .session }
    | _ => none
  | .retry draw => if s.point = .failed then s.retry cfg draw else none
  | .waited =>
    if s.point = .wait then
      some { s with backoff := nextBackoff cfg s.backoff, attempt := s.attempt + 1, point := .dial }
    else none
  | .waitCancelled => if s.point = .wait ∧ s.cancelled then some { s with point := .returned } else none
  | .tick isClosed =>
    match s.point with
    | .session sess =>
      if isClosed then if s.closed[sess.id]? = some true then some { s with point := .dial } else none else some s
    | _ => none
  | .sessionCancelled =>
    match s.point with
    | .session sess => if s.cancelled then some { s.close sess with point := .dial } else none
    | _ => none
  | .breaks sess => if s.hasSession sess then some (s.close sess) else none
  | .cancel => some { s with cancelled := true }

/-- What a step can do. -/
inductive Stepped (cfg : RunCfg) (s : Runner) : Runner → Prop where
  | dialed (hp : s.point = .dial) :
      Stepped cfg s { s with closed := s.closed ++ [false], point := .auth (.raw s.closed.length) }
  | dialFails (hp : s.point = .dial) : Stepped cfg s { s with point := .failed }
  | authenticated (rawConn : Link) (hp : s.point = .auth rawConn) :
      Stepped cfg s { s with point := .mux (wrap cfg rawConn) }
  | authFails (rawConn : Link) (hp : s.point = .auth rawConn) :
      Stepped cfg s { s.close rawConn with point := .failed }
  | muxed (shapedConn : Link) (hp : s.point = .mux shapedConn) : Stepped cfg s { s with point := .install shapedConn }
  | muxFails (shapedConn : Link) (hp : s.point = .mux shapedConn) :
      Stepped cfg s { s.close shapedConn with point := .failed }
  | store (sess : Link) (hp : s.point = .install sess) :
      Stepped cfg s { s with session := some sess, point := .replace s.session }
  | closeOld (old : Option Link) (hp : s.point = .replace old) (closed : List Bool)
      (hclosed : closed = old.elim s.closed fun old => s.closed.set old.id true) :
      Stepped cfg s { s with
        closed := closed, backoff := cfg.baseDelay, attempt := 0
        point := s.session.elim .dial .session }
  | returned (hp : s.point = .failed ∨ s.point = .wait)
      (hwhy : s.cancelled = true ∨ s.point = .failed ∧ cfg.givesUp s.attempt = true) :
      Stepped cfg s { s with point := .returned }
  | panicked (hp : s.point = .failed) (hlive : s.cancelled = false) (hgo : cfg.givesUp s.attempt = false)
      (hj : ∃ draw, jitter s.backoff draw = some .panic) : Stepped cfg s { s with point := .panicked }
  | wait (draw d : Int64) (hp : s.point = .failed) (hlive : s.cancelled = false) (hgo : cfg.givesUp s.attempt = false)
      (hj : jitter s.backoff draw = some (.delay d)) :
      Stepped cfg s { s with point := .wait, waits := s.waits ++ [s.backoff + d] }
  | waited (hp : s.point = .wait) :
      Stepped cfg s { s with backoff := nextBackoff cfg s.backoff, attempt := s.attempt + 1, point := .dial }
  | tick (sess : Link) (hp : s.point = .session sess) (hclosed : s.closed[sess.id]? = some true) :
      Stepped cfg s { s with point := .dial }
  | idle : Stepped cfg s s
  | sessionCancelled (sess : Link) (hp : s.point = .session sess) (hcancel : s.cancelled = true) :
      Stepped cfg s { s.close sess with point := .dial }
  | breaks (sess : Link) : Stepped cfg s (s.close sess)
  | cancel : Stepped cfg s { s with cancelled := true }

theorem retry_inv {cfg : RunCfg} {s s' : Runner} {draw : Int64} (hp : s.point = .failed)
    (h : s.retry cfg draw = some s') : Stepped cfg s s' := by
  unfold Runner.retry at h
  split_ifs at h with hcancel hgive
  · obtain rfl := Option.some.inj h
    exact .returned (.inl hp) (.inl hcancel)
  · obtain rfl := Option.some.inj h
    exact .returned (.inl hp) (.inr ⟨hp, hgive⟩)
  · have hlive : s.cancelled = false := by simpa using hcancel
    have hgo : cfg.givesUp s.attempt = false := by simpa using hgive
    obtain ⟨j, hj, rfl⟩ := Option.map_eq_some_iff.mp h
    cases j with
    | panic => exact .panicked hp hlive hgo ⟨draw, hj⟩
    | delay d => exact .wait draw d hp hlive hgo hj

theorem step_inv {cfg : RunCfg} {s s' : Runner} {a : Act} (h : s.step cfg a = some s') : Stepped cfg s s' := by
  cases a <;> dsimp only [Runner.step] at h
  case dialed =>
    split_ifs at h with hp
    obtain rfl := Option.some.inj h
    exact .dialed hp
  case dialFails =>
    split_ifs at h with hp
    obtain rfl := Option.some.inj h
    exact .dialFails hp
  case authenticated =>
    split at h
    · rename_i rawConn hp
      obtain rfl := Option.some.inj h
      exact .authenticated rawConn hp
    · cases h
  case authFails =>
    split at h
    · rename_i rawConn hp
      obtain rfl := Option.some.inj h
      exact .authFails rawConn hp
    · cases h
  case muxed =>
    split at h
    · rename_i shapedConn hp
      obtain rfl := Option.some.inj h
      exact .muxed shapedConn hp
    · cases h
  case muxFails =>
    split at h
    · rename_i shapedConn hp
      obtain rfl := Option.some.inj h
      exact .muxFails shapedConn hp
    · cases h
  case store =>
    split at h
    · rename_i sess hp
      obtain rfl := Option.some.inj h
      exact .store sess hp
    · cases h
  case closeOld =>
    split at h
    · rename_i old hp
      obtain rfl := Option.some.inj h
      have := @Stepped.closeOld cfg s old hp _ rfl
      cases old <;> simpa [Runner.close] using this
    · cases h
  case retry draw =>
    split_ifs at h with hp
    exact retry_inv hp h
  case waited =>
    split_ifs at h with hp
    obtain rfl := Option.some.inj h
    exact .waited hp
  case waitCancelled =>
    split_ifs at h with hp
    obtain rfl := Option.some.inj h
    exact .returned (.inr hp.1) (.inl hp.2)
  case tick isClosed =>
    split at h
    · rename_i sess hp
      split_ifs at h with hask hclosed
      · obtain rfl := Option.some.inj h
        exact .tick sess hp hclosed
      · obtain rfl := Option.some.inj h
        exact .idle
    · cases h
  case sessionCancelled =>
    split at h
    · rename_i sess hp
      split_ifs at h with hcancel
      obtain rfl := Option.some.inj h
      exact .sessionCancelled sess hp hcancel
    · cases h
  case breaks sess =>
    split_ifs at h
    obtain rfl := Option.some.inj h
    exact .breaks sess
  case cancel =>
    obtain rfl := Option.some.inj h
    exact .cancel

/-! ## The client's process -/

open Tunnel (ClientProcess Phase)

/-- The phase of the client's process, which sees `connect` as one step and no panic of a delay. -/
def Point.phase (attempt : Nat) : Point → Phase
  | .dial | .auth _ | .mux _ | .install _ | .failed => .dialing attempt
  | .replace _ | .session _ => .session
  | .wait | .panicked => .backoff attempt
  | .returned => .stopped

/-- A process with the settings `cfg` and metrics, that has not ended. -/
structure Serves (cfg : RunCfg) (cancelled : Bool) (t : ClientProcess) : Prop where
  reconnect : t.reconnect = cfg.reconnect
  met : t.met = .object
  live : t.panicked = false ∧ t.returned = false
  cancelled : t.cancelled = cancelled

structure Follows (cfg : RunCfg) (s : Runner) (t : ClientProcess) : Prop where
  serves : Serves cfg s.cancelled t
  phase : t.phase = s.point.phase s.attempt
  stored : t.phase = .session → t.session = some false ∧ s.session.isSome
  attempt : ∀ sess, s.point = .session sess → s.attempt = 0

theorem Follows.stutter {cfg : RunCfg} {s s' : Runner} {t : ClientProcess} (h : Follows cfg s t)
    (hcancel : s'.cancelled = s.cancelled) (hphase : s'.point.phase s'.attempt = s.point.phase s.attempt)
    (hstored : s'.session = s.session) (hattempt : ∀ sess, s'.point = .session sess → s'.attempt = 0) :
    ∃ bs t', run ClientProcess.step t bs = some t' ∧ Follows cfg s' t' :=
  ⟨[], t, rfl, hcancel ▸ h.serves, h.phase.trans hphase.symm, hstored ▸ h.stored, hattempt⟩

theorem Serves.goto {cfg : RunCfg} {cancelled : Bool} {t : ClientProcess} (h : Serves cfg cancelled t) (phase : Phase)
    (session : Option Bool) : Serves cfg cancelled { t with phase := phase, session := session } :=
  ⟨h.reconnect, h.met, h.live, h.cancelled⟩

theorem Serves.connectError {cfg : RunCfg} {cancelled : Bool} {t : ClientProcess} (h : Serves cfg cancelled t)
    (attempt : Nat) :
    Serves cfg cancelled (t.connectError attempt) ∧
      (t.connectError attempt).phase =
        if cancelled || cfg.givesUp attempt then .stopped else .backoff attempt := by
  obtain ⟨hreconnect, hmet, hlive, rfl⟩ := h
  have hgives : (0 ≤ t.reconnect.maxRetries.toInt ∧ t.reconnect.maxRetries.toInt ≤ attempt) ↔
      cfg.givesUp attempt = true := by
    simp [RunCfg.givesUp, hreconnect]
  unfold ClientProcess.connectError ClientProcess.record
  rw [hmet]
  by_cases hcancel : t.cancelled = true
  · rw [if_pos hcancel, hcancel]
    exact ⟨⟨hreconnect, rfl, hlive, rfl⟩, rfl⟩
  · rw [if_neg hcancel, Bool.eq_false_iff.mpr hcancel]
    simp only [hgives, Bool.false_or]
    split_ifs
    · exact ⟨⟨hreconnect, rfl, hlive, rfl⟩, rfl⟩
    · exact ⟨⟨hreconnect, rfl, hlive, rfl⟩, rfl⟩

theorem Serves.connect {cfg : RunCfg} {cancelled : Bool} {t : ClientProcess} (h : Serves cfg cancelled t) :
    Serves cfg cancelled t.connect ∧ t.connect.phase = .session ∧ t.connect.session = some false := by
  obtain ⟨hreconnect, hmet, hlive, rfl⟩ := h
  unfold ClientProcess.connect ClientProcess.record
  rw [hmet]
  exact ⟨⟨hreconnect, rfl, hlive, rfl⟩, rfl, rfl⟩

theorem follows_visible {cfg : RunCfg} {s' : Runner} {t t' : ClientProcess} {a : Tunnel.Act}
    (hstep : t.step a = some t') (h : Follows cfg s' t') :
    ∃ bs t', run ClientProcess.step t bs = some t' ∧ Follows cfg s' t' :=
  ⟨[a], t', by rw [run_cons, hstep]; rfl, h⟩

theorem follows_step {cfg : RunCfg} {s s' : Runner} {t : ClientProcess} (h : Follows cfg s t)
    (hs : Stepped cfg s s') : ∃ bs t', run ClientProcess.step t bs = some t' ∧ Follows cfg s' t' := by
  have hlive : (t.panicked || t.returned) = false := by simp [h.serves.live]
  have hphase := h.phase
  cases hs with
  | dialed hp | dialFails hp | authenticated _ hp | authFails _ hp | muxed _ hp | muxFails _ hp =>
    exact h.stutter rfl (by rw [hp]; rfl) rfl (by simp)
  | store sess hp =>
    rw [hp] at hphase
    obtain ⟨hserves, hsession, hstored⟩ := h.serves.connect
    have hstep : t.step .connected = some t.connect := by simp [ClientProcess.step, hlive, hphase, Point.phase]
    exact follows_visible hstep ⟨hserves, hsession, fun _ => ⟨hstored, rfl⟩, by simp⟩
  | closeOld old hp closed hclosed =>
    rw [hp] at hphase
    obtain ⟨sess, hsess⟩ := Option.isSome_iff_exists.mp (h.stored hphase).2
    refine h.stutter rfl ?_ rfl fun _ _ => rfl
    simp [hp, hsess, Point.phase]
  | returned hp hwhy =>
    rcases hp with hp | hp
    · rw [hp] at hphase
      obtain ⟨hserves, hstopped⟩ := h.serves.connectError s.attempt
      have hwhy : (s.cancelled || cfg.givesUp s.attempt) = true := by simpa [hp] using hwhy
      rw [hwhy] at hstopped
      have hstep : t.step .connectFailed = some (t.connectError s.attempt) := by
        simp [ClientProcess.step, hlive, hphase, Point.phase]
      exact follows_visible hstep ⟨hserves, hstopped, by simp [hstopped], by simp⟩
    · rw [hp] at hphase
      have hcancel : t.cancelled = true := by simpa [hp, h.serves.cancelled] using hwhy
      have hstep : t.step .backoffCancelled = some { t with phase := .stopped } := by
        simp [ClientProcess.step, hlive, hphase, Point.phase, hcancel]
      exact follows_visible hstep ⟨h.serves.goto _ _, rfl, by simp, by simp⟩
  | panicked hp hcancel hgo | wait _ _ hp hcancel hgo =>
    rw [hp] at hphase
    obtain ⟨hserves, hbackoff⟩ := h.serves.connectError s.attempt
    rw [hcancel, hgo] at hbackoff
    have hstep : t.step .connectFailed = some (t.connectError s.attempt) := by
      simp [ClientProcess.step, hlive, hphase, Point.phase]
    exact follows_visible hstep ⟨hserves, hbackoff, by simp [hbackoff], by simp⟩
  | waited hp =>
    rw [hp] at hphase
    have hstep : t.step .backoffOver = some { t with phase := .dialing (s.attempt + 1) } := by
      simp [ClientProcess.step, hlive, hphase, Point.phase]
    exact follows_visible hstep ⟨h.serves.goto _ _, rfl, by simp, by simp⟩
  | tick sess hp hclosed =>
    -- The process learns only now that the session is closed.
    rw [hp] at hphase
    have hstored := (h.stored hphase).1
    have hattempt := h.attempt sess hp
    refine ⟨[.sessionBroke, .sessionTick], { t with phase := .dialing 0, session := some true }, ?_,
      h.serves.goto _ _, by simp [Point.phase, hattempt], by simp, by simp⟩
    simp [ClientProcess.step, h.serves.live, hphase, Point.phase, hstored]
  | idle => exact h.stutter rfl rfl rfl h.attempt
  | sessionCancelled sess hp hcancel =>
    rw [hp] at hphase
    have hattempt := h.attempt sess hp
    have hcancel : t.cancelled = true := h.serves.cancelled.trans hcancel
    have hstep : t.step .sessionCancelled = some { t with phase := .dialing 0, session := some true } := by
      simp [ClientProcess.step, hlive, hphase, Point.phase, hcancel]
    exact follows_visible hstep ⟨h.serves.goto _ _, by simp [Point.phase, Runner.close, hattempt], by simp, by simp⟩
  | breaks sess => exact h.stutter rfl rfl rfl h.attempt
  | cancel =>
    have hstep : t.step .signal = some { t with cancelled := true } := by simp [ClientProcess.step, hlive]
    exact follows_visible hstep ⟨⟨h.serves.reconnect, h.serves.met, h.serves.live, rfl⟩, h.phase, h.stored, h.attempt⟩

/-- Every run of `Run` step by step is a run of the client's process. -/
theorem run_follows {cfg : RunCfg} {acts : List Act} {s : Runner} (socks5 http : Tunnel.ProxyServer)
    (h : run (Runner.step cfg) (Runner.start cfg) acts = some s) :
    ∃ bs t, run ClientProcess.step { reconnect := cfg.reconnect, met := .object, socks5 := socks5, http := http } bs =
      some t ∧ Follows cfg s t :=
  run_simulation (fun _ _ _ _ hR hstep => follows_step hR (step_inv hstep)) acts _ _ _
    ⟨⟨rfl, rfl, ⟨rfl, rfl⟩, rfl⟩, rfl, by simp, by simp [Runner.start]⟩ h

end Daxson.Reconnect
