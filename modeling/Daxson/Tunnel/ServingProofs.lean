import Daxson.Tunnel.Serving

/-! # What the server's process shows -/

open Lib.Machine Lib.Crew

namespace Daxson.Tunnel

open Auth Telemetry

/-! ## The counters -/

/-- Between `RecordSessionOpen` and `RecordSessionClose`. -/
def Stage.counted : Stage → Bool
  | .openSession _ | .acceptStream _ | .closeSession _ | .recordSessionClose => true
  | _ => false

/-- The session exists: from `NewServerSession` until `sess.Close`. -/
def Stage.inSession : Stage → Bool
  | .recordSessionOpen _ | .openSession _ | .acceptStream _ | .closeSession _ | .recordSessionClose | .sessClose => true
  | _ => false

theorem serving_gauge {cr : Crypto} (acts : List (Turn MainAct HandlerAct)) (c c' : Team Serving Handler)
    (hc : c.shared.sessionsActive = c.workers.countP (·.stage.counted)) (hrun : run (serving cr) c acts = some c') :
    c'.shared.sessionsActive = c'.workers.countP (·.stage.counted) := by
  refine run_gauge (f := Serving.sessionsActive) ?_ ?_ acts c c' hc hrun
  · intro s b s' hired h
    cases main_inv h with
    | loop => simp
    | accepted => simp [Stage.counted]
    | resolved => simp
  · intro s h a s' h' hw
    cases work_inv hw with
    | ended sid hs => cases sid <;> simp [hs, Stage.counted]
    | _ => simp_all [Stage.counted]

theorem serving_inbound {cr : Crypto} (acts : List (Turn MainAct HandlerAct)) (c c' : Team Serving Handler)
    (hc : (c.shared.connectionsInbound : Int) = c.workers.countP fun _ => true)
    (hrun : run (serving cr) c acts = some c') :
    (c'.shared.connectionsInbound : Int) = c'.workers.countP fun _ => true := by
  refine run_gauge (f := fun s => (s.connectionsInbound : Int)) ?_ ?_ acts c c' hc hrun
  · intro s b s' hired h
    cases main_inv h with
    | loop => simp
    | accepted => simp
    | resolved => simp
  · intro s h a s' h' hw
    cases work_inv hw <;> simp

/-! ## The collector -/

/-- The collector shows the calls. -/
structure Serving.Told (s : Serving) : Prop where
  follows : ∀ c, s.collector = some c → Follows s.calls c
  untold : s.collector = none → s.calls = []

theorem Serving.Told.tell {s : Serving} (h : s.Told) (call : Call) : (s.tell call).Told := by
  unfold Serving.tell
  split
  · exact h
  · rename_i col hcol
    refine ⟨fun c hc => ?_, (fun hc => by cases hc)⟩
    rw [← Option.some.inj hc]
    exact (h.follows col hcol).step call

theorem Serving.Told.congr {s s' : Serving} (h : s.Told) (hcol : s'.collector = s.collector)
    (hcalls : s'.calls = s.calls) : s'.Told :=
  ⟨by rw [hcol, hcalls]; exact h.follows, by rw [hcol, hcalls]; exact h.untold⟩

theorem told_main {s s' : Serving} {a : MainAct} {hired : Option Handler} (hs : s.Told)
    (h : s.main a = some (s', hired)) : s'.Told := by
  cases main_inv h with
  | loop => exact hs.congr rfl rfl
  | accepted => exact hs.congr rfl rfl
  | resolved ptr name => exact hs.tell (.resolveISP ptr name)

theorem told_work {s s' : Serving} {h h' : Handler} (hs : s.Told) (hw : Worked s h s' h') : s'.Told := by
  cases hw with
  | probeTold now => exact hs.tell _
  | tracked now res => exact hs.tell (openCall now h.remote s.transport res)
  | untracked sid => exact hs.tell (.closeSession sid)
  | _ => exact hs.congr rfl rfl

/-- Between `RecordAuthFailure` and `RecordProbe`. -/
def Stage.reporting : Stage → Bool
  | .recordProbe => true
  | _ => false

/-- The failures that are counted and not reported yet. -/
def Serving.unreported (s : Serving) : Int := s.authFailures - (s.calls.filterMap Call.probe).length

theorem unreported_tell {s : Serving} (h : s.collector.isSome = true) (call : Call) :
    (s.tell call).unreported = s.unreported - (call.probe.toList.length : Int) := by
  obtain ⟨col, hcol⟩ := Option.isSome_iff_exists.mp h
  have hcalls : (s.tell call).calls = s.calls ++ [call] := by
    unfold Serving.tell
    rw [hcol]
  have hcall : (List.filterMap Call.probe [call]).length = call.probe.toList.length := by
    cases hp : call.probe <;> simp [hp]
  unfold Serving.unreported
  rw [tell_authFailures, hcalls, List.filterMap_append, List.length_append, hcall]
  push_cast
  omega

theorem serving_unreported {cr : Crypto} (acts : List (Turn MainAct HandlerAct)) (c c' : Team Serving Handler)
    (hcol : c.shared.collector.isSome = true) (hc : c.shared.unreported = c.workers.countP (·.stage.reporting))
    (hrun : run (serving cr) c acts = some c') : c'.shared.unreported = c'.workers.countP (·.stage.reporting) := by
  refine run_gauge_when (S := fun s => s.collector.isSome = true) ?_ ?_ acts c c' hcol hc hrun
  · intro s b s' hired hS h
    cases main_inv h with
    | loop => exact ⟨hS, by simp [Serving.unreported]⟩
    | accepted => exact ⟨hS, by simp [Serving.unreported, Stage.reporting]⟩
    | resolved ptr name => exact ⟨by simpa using hS, by simp [unreported_tell hS, Call.probe]⟩
  · intro s h a s' h' hS hw
    cases work_inv hw with
    | failureCounted hs =>
      refine ⟨hS, ?_⟩
      simp only [hs, Stage.reporting, Serving.unreported, Nat.cast_succ, Bool.false_eq_true, if_false, if_true]
      omega
    | probeTold now hs => exact ⟨by simpa using hS, by simp [unreported_tell hS, Call.probe, hs, Stage.reporting]⟩
    | tracked now res hs =>
      exact ⟨by simpa using hS, by simp [unreported_tell hS, openCall, Call.probe, hs, Stage.reporting]⟩
    | untracked sid hs => exact ⟨by simpa using hS, by simp [unreported_tell hS, Call.probe, hs, Stage.reporting]⟩
    | ended sid hs => exact ⟨hS, by cases sid <;> simp [hs, Stage.reporting]⟩
    | _ => exact ⟨hS, by simp_all [Serving.unreported, Stage.reporting]⟩

/-! ## What a handler leaves behind -/

/-- A returned handler has closed its connection, and the shaped connection runs while the session exists,
or for good when there was none. -/
structure Handler.Tidy (obfs : Bool) (h : Handler) : Prop where
  closed : h.stage = .returned → h.rawClosed = true
  shaping : h.unmuxed = false → h.shaping = (obfs && h.stage.inSession)
  abandoned : h.unmuxed = true → h.shaping = obfs ∧ (h.stage = .rawClose ∨ h.stage = .returned)

theorem tidy_work {s s' : Serving} {h h' : Handler} (ht : h.Tidy s.obfs) (hw : Worked s h s' h') :
    h'.Tidy s.obfs := by
  obtain ⟨hclosed, hshaping, habandoned⟩ := ht
  cases hu : h.unmuxed with
  | true =>
    obtain ⟨hobfs, hstage⟩ := habandoned hu
    cases hw with
    | returned hs => exact ⟨fun _ => rfl, fun hno => (by cases hu.symm.trans hno), fun _ => ⟨hobfs, .inr rfl⟩⟩
    | _ => simp_all
  | false =>
    have hrun := hshaping hu
    cases hw with
    | ended sid hs =>
      refine ⟨?_, fun _ => ?_, fun hno => (by cases hu.symm.trans hno)⟩
      · cases sid <;> simp
      · rw [hs] at hrun
        cases sid <;> exact hrun
    | _ => constructor <;> simp_all [Stage.inSession]

/-- What every state has in common with the first one. -/
structure Serving.Since (s t : Serving) : Prop where
  told : t.Told
  obfs : t.obfs = s.obfs
  telemetry : t.collector.isSome = s.collector.isSome

theorem since_main {s t t' : Serving} {a : MainAct} {hired : Option Handler} (ht : s.Since t)
    (h : t.main a = some (t', hired)) : s.Since t' := by
  refine ⟨told_main ht.told h, ?_, ?_⟩
  · cases main_inv h <;> simpa using ht.obfs
  · cases main_inv h <;> simpa using ht.telemetry

theorem since_work {s t t' : Serving} {h h' : Handler} (ht : s.Since t) (hw : Worked t h t' h') : s.Since t' := by
  refine ⟨told_work ht.told hw, ?_, ?_⟩
  · cases hw <;> simpa using ht.obfs
  · cases hw <;> simpa using ht.telemetry

theorem serving_tidy {cr : Crypto} (acts : List (Turn MainAct HandlerAct)) (s : Serving) (c' : Team Serving Handler)
    (hs : s.Told) (hrun : run (serving cr) ⟨s, []⟩ acts = some c') :
    s.Since c'.shared ∧ ∀ h ∈ c'.workers, h.Tidy s.obfs := by
  refine run_each (S := s.Since) (P := fun _ h => h.Tidy s.obfs) ?_ ?_ acts ⟨s, []⟩ c' ⟨⟨hs, rfl, rfl⟩, by simp⟩ hrun
  · intro t b t' hired ht h
    refine ⟨since_main ht h, ?_, fun _ hv => hv⟩
    cases main_inv h with
    | accepted remote conn =>
      rintro w ⟨⟩
      exact ⟨(fun h => by cases h), fun _ => by simp [Stage.inSession], fun h => by cases h⟩
    | _ => exact fun w hw => by cases hw
  · intro t w a t' w' ht hw hstep
    have hworked := work_inv hstep
    refine ⟨since_work ht hworked, ?_, fun _ hv => hv⟩
    rw [← ht.obfs] at hw ⊢
    exact tidy_work hw hworked

/-! ## The sessions -/

/-- The session is in the collector: from `OpenSession` until `CloseSession`. -/
def Stage.tracked : Stage → Option Bytes
  | .acceptStream sid => sid
  | .closeSession sid => some sid
  | _ => none

/-- What the dashboard should show of a handler: its session's ID and its peer. -/
def Handler.row (h : Handler) : Option (Bytes × Bytes) := h.stage.tracked.map fun sid => (sid, h.remote)

/-- What the calls so far show. -/
def Serving.shows (s : Serving) (row : Bytes × Bytes) : Prop :=
  (session row.1 s.calls).map (·.remoteAddr) = some row.2

def Stage.opening : Stage → Option Bytes
  | .openSession res => some (hexEncode res.sessionID.val)
  | _ => none

/-- The ID that a step opens a session under. -/
def openedID (c : Team Serving Handler) : Turn MainAct HandlerAct → Option Bytes
  | .work i (.goesOn _) => (c.workers[i]?).bind fun h => h.stage.opening
  | _ => none

/-- No session is opened under the ID of one that the collector has. The IDs are random, 16 bytes long. -/
def FreshID (c : Team Serving Handler) (a : Turn MainAct HandlerAct) : Prop :=
  ∀ id ∈ openedID c a, ∀ col ∈ c.shared.collector, id ∉ col.sessions

instance (c : Team Serving Handler) (a : Turn MainAct HandlerAct) : Decidable (FreshID c a) := by
  unfold FreshID
  infer_instance

theorem session_tell (s : Serving) (call : Call) (id : Bytes) :
    session id (s.tell call).calls =
      if s.collector.isSome then call.session id (session id s.calls) else session id s.calls := by
  unfold Serving.tell
  split
  · rename_i hnone
    rw [hnone]
    rfl
  · rename_i col hcol
    rw [hcol]
    exact session_concat id s.calls call

theorem shows_tell {s : Serving} {call : Call} (hcall : ∀ id cur, call.session id cur = cur) (row : Bytes × Bytes) :
    (s.tell call).shows row ↔ s.shows row := by
  unfold Serving.shows
  rw [session_tell, hcall, ite_self]

theorem not_shows_of_fresh {s : Serving} (hs : s.Told) {col : Collector} (hcol : s.collector = some col) {id : Bytes}
    (hfresh : id ∉ col.sessions) (remote : Bytes) : ¬ s.shows (id, remote) := by
  have hview := (hs.follows col hcol).sessions id
  unfold Collector.view at hview
  rw [AList.lookup_eq_none.mpr hfresh] at hview
  unfold Serving.shows
  rw [← hview]
  exact fun h => by cases h

theorem retag_tracked {s : Serving} {h : Handler} (now : Time) {res : ServerAuthResult}
    (hs : s.Told) (hfresh : ∀ col, s.collector = some col → hexEncode res.sessionID.val ∉ col.sessions) :
    Retag s.shows (s.tell (openCall now h.remote s.transport res)).shows none
      (Handler.row { h with
        stage := .acceptStream (if s.collector.isSome then some (hexEncode res.sessionID.val) else none) }) := by
  cases hcol : s.collector with
  | none =>
    refine .same none fun row => ?_
    unfold Serving.tell
    rw [hcol]
  | some col =>
    refine .take (hexEncode res.sessionID.val, h.remote) (not_shows_of_fresh hs hcol (hfresh col hcol) _) ?_
    rintro ⟨id, remote⟩
    have hafter : (s.tell (openCall now h.remote s.transport res)).shows (id, remote) ↔
        ((openCall now h.remote s.transport res).session id (session id s.calls)).map (·.remoteAddr) = some remote := by
      unfold Serving.shows
      rw [session_tell, hcol]
      rfl
    rw [hafter]
    simp only [openCall, Call.session]
    split_ifs with hid
    · subst hid
      have hno := not_shows_of_fresh hs hcol (hfresh col hcol) remote
      simp [hno, eq_comm]
    · have hne : id ≠ hexEncode res.sessionID.val := Ne.symm hid
      simp [hne, Serving.shows]

theorem retag_untracked {s : Serving} (hs : s.Told) {sid remote : Bytes} (hshown : s.shows (sid, remote)) :
    Retag s.shows (s.tell (.closeSession sid)).shows (some (sid, remote)) none := by
  refine .drop (sid, remote) ?_
  rintro ⟨id, r⟩
  have hsome : s.collector.isSome = true := by
    by_contra hnone
    have hcalls := hs.untold (by simpa using hnone)
    unfold Serving.shows at hshown
    rw [hcalls] at hshown
    cases hshown
  unfold Serving.shows at hshown ⊢
  rw [session_tell, if_pos hsome]
  simp only [Call.session]
  split_ifs with hid
  · subst hid
    refine ⟨(fun h => by cases h), ?_⟩
    rintro ⟨hne, heq⟩
    have hsame : r = remote := Option.some.inj (heq.symm.trans hshown)
    exact absurd (congrArg (Prod.mk _) hsame) hne
  · have hne : id ≠ sid := Ne.symm hid
    simp [hne]

theorem retag_work {c : Team Serving Handler} {i : Nat} {now : HandlerAct} {h h' : Handler} {s' : Serving}
    (hs : c.shared.Told) (htagged : Tagged Handler.row Serving.shows c) (hfresh : FreshID c (.work i now))
    (hi : c.workers[i]? = some h) {cr : Crypto} (hwork : c.shared.work cr h now = some (s', h')) :
    Retag c.shared.shows s'.shows h.row h'.row := by
  have hnone : ∀ {st : Stage}, h.stage = st → st.tracked = none → h.row = none := by
    rintro st rfl hst
    unfold Handler.row
    rw [hst]
    rfl
  cases work_inv hwork with
  | probeTold time hst =>
    rw [hnone hst rfl]
    exact .same none fun row => shows_tell (fun _ _ => rfl) row
  | tracked time res hst =>
    rw [hnone hst rfl]
    refine retag_tracked time hs fun col hcol => ?_
    cases now with
    | goesOn =>
      apply hfresh _ _ col hcol
      change (c.workers[i]?).bind _ = _
      rw [hi, Option.bind_some, hst]
      rfl
    | dispatched env p =>
      dsimp only [Serving.work] at hwork
      rw [hst] at hwork
      cases hwork
    | muxed ok =>
      dsimp only [Serving.work] at hwork
      rw [hst] at hwork
      cases hwork
  | ended sid hst =>
    have hrow : Handler.row { h with stage := sid.elim .recordSessionClose .closeSession } = h.row := by
      unfold Handler.row
      rw [hst]
      cases sid <;> rfl
    rw [hrow]
    exact .same _ fun _ => Iff.rfl
  | untracked sid hst =>
    have hrow : h.row = some (sid, h.remote) := by
      unfold Handler.row
      rw [hst]
      rfl
    rw [hrow]
    exact retag_untracked hs ((htagged.exact _).mpr ⟨i, h, hi, hrow⟩)
  | authenticated _ _ _ hst | failed _ _ hst | dropped _ _ hst | failureCounted hst | muxed _ hst | unmuxed _ hst
  | forwarded hst | counted _ hst | uncounted hst | sessClosed hst | returned hst =>
    rw [hnone hst rfl]
    exact .same none fun _ => Iff.rfl

theorem serving_tagged {cr : Crypto} (acts : List (Turn MainAct HandlerAct)) (s : Serving) (c' : Team Serving Handler)
    (hs : s.Told) (hempty : s.calls = []) (hfresh : AllSteps (serving cr) FreshID ⟨s, []⟩ acts)
    (hrun : run (serving cr) ⟨s, []⟩ acts = some c') : Tagged Handler.row Serving.shows c' := by
  refine run_tagged (S := Serving.Told) ?_ ?_ ?_ acts ⟨s, []⟩ c' hs ?_ hfresh hrun
  · intro c a c' hc hstep
    cases step_inv hstep with
    | main b s' hired h => exact told_main hc h
    | work i a w w' s' hi h => exact told_work hc (work_inv h)
  · intro s b s' hired _ h
    cases main_inv h with
    | loop => exact ⟨(fun w hw => by cases hw), fun _ => Iff.rfl⟩
    | accepted remote conn =>
      refine ⟨?_, fun _ => Iff.rfl⟩
      rintro w ⟨⟩
      rfl
    | resolved ptr name => exact ⟨(fun w hw => by cases hw), fun row => shows_tell (fun _ _ => rfl) row⟩
  · intro c i a w s' w' hS htagged hgood hi hwork
    exact retag_work hS htagged hgood hi hwork
  · refine ⟨fun i j w v k hi => by simp at hi, fun k => ?_⟩
    simp [Serving.shows, hempty, session]

/-! ## The process as a whole -/

/-- A server that has not begun to listen. -/
def Serving.init (server : Server) (listen : Bytes) (obfs : Bool) (transport : Bytes) (telemetry : Bool) : Serving where
  server := server
  listen := listen
  obfs := obfs
  transport := transport
  collector := if telemetry then some {} else none

theorem init_told (server : Server) (listen : Bytes) (obfs : Bool) (transport : Bytes) (telemetry : Bool) :
    (Serving.init server listen obfs transport telemetry).Told := by
  refine ⟨fun c hc => ?_, fun _ => rfl⟩
  unfold Serving.init at hc
  dsimp only at hc
  split_ifs at hc
  rw [← Option.some.inj hc]
  exact follows_execAll []

theorem server_accounts (cr : Crypto) (server : Server) (listen : Bytes) (obfs : Bool) (transport : Bytes)
    (telemetry : Bool) (acts : List (Turn MainAct HandlerAct)) (c : Team Serving Handler)
    (hrun : run (serving cr) ⟨Serving.init server listen obfs transport telemetry, []⟩ acts = some c) :
    c.shared.sessionsActive = c.workers.countP (·.stage.counted) ∧
      c.shared.connectionsInbound = c.workers.length ∧
      (telemetry = true → c.shared.authFailures =
        (c.shared.calls.filterMap Call.probe).length + c.workers.countP (·.stage.reporting)) ∧
      ∀ h ∈ c.workers, h.stage = .returned →
        h.rawClosed = true ∧ (h.shaping = true ↔ obfs = true ∧ h.unmuxed = true) := by
  have htidy := serving_tidy acts _ c (init_told server listen obfs transport telemetry) hrun
  have hinbound := serving_inbound acts _ c (by simp [Serving.init]) hrun
  refine ⟨serving_gauge acts _ c (by simp [Serving.init]) hrun, ?_, fun htel => ?_, fun h hh hret => ?_⟩
  · rw [List.countP_true] at hinbound
    exact_mod_cast hinbound
  · have hwaiting :=
      serving_unreported acts _ c (by simp [Serving.init, htel]) (by simp [Serving.init, Serving.unreported]) hrun
    unfold Serving.unreported at hwaiting
    omega
  · obtain ⟨hclosed, hshaping, habandoned⟩ := htidy.2 h hh
    refine ⟨hclosed hret, ?_⟩
    cases hu : h.unmuxed with
    | false =>
      rw [hshaping hu, hret]
      simp [Stage.inSession]
    | true =>
      rw [(habandoned hu).1]
      simp [Serving.init]

/-- Every token is valid. -/
def lenientCrypto : Crypto :=
  { hashCrypto with hmac := fun _ _ => List.replicate 32 0, hmac_length := fun _ _ => rfl }

def helloConn : NetConn where
  rx := { chunks := [1 :: List.replicate 48 0], fin := .eof }

/-- One client in its session, and one whose session has ended. -/
def twoClients : List (Turn MainAct HandlerAct) :=
  [.main .listens, .main (.accepted (ascii "192.0.2.1:5000") helloConn), .work 0 (.dispatched quietEnv {}),
    .work 0 (.muxed true), .work 0 (.goesOn 0), .work 0 (.goesOn 0),
    .main (.accepted (ascii "192.0.2.2:5000") helloConn),
    .work 1 (.dispatched { quietEnv with sid := copyArr 16 [9] } {}), .work 1 (.muxed true), .work 1 (.goesOn 0),
    .work 1 (.goesOn 0), .work 1 (.goesOn 0), .work 1 (.goesOn 0), .work 1 (.goesOn 0), .work 1 (.goesOn 0),
    .work 1 (.goesOn 0)]

/-- A scan besides, whose failure is counted and not reported yet. -/
def twoClientsAndScan : List (Turn MainAct HandlerAct) :=
  twoClients ++
    [.main (.accepted (ascii "192.0.2.3:5000") { rx := { chunks := [ascii "GET / HTTP/1.1"], fin := .eof } }),
    .work 2 (.dispatched quietEnv {}), .work 2 (.goesOn 0)]

theorem server_accounts_two_clients :
    ∃ c, run (serving lenientCrypto) ⟨Serving.init ⟨⟨[]⟩, none, []⟩ [] true [] true, []⟩ twoClientsAndScan = some c ∧
      c.shared.authFailures = 1 ∧ c.shared.sessionsActive = c.workers.countP (·.stage.counted) ∧
      c.shared.connectionsInbound = c.workers.length ∧
      (true = true → c.shared.authFailures =
        (c.shared.calls.filterMap Call.probe).length + c.workers.countP (·.stage.reporting)) ∧
      ∀ h ∈ c.workers, h.stage = .returned →
        h.rawClosed = true ∧ (h.shaping = true ↔ true = true ∧ h.unmuxed = true) :=
  have hrun : run (serving lenientCrypto) ⟨Serving.init ⟨⟨[]⟩, none, []⟩ [] true [] true, []⟩ twoClientsAndScan =
      some _ :=
    rfl
  ⟨_, hrun, rfl, server_accounts _ _ _ _ _ _ _ _ hrun⟩

theorem mem_rows {calls : List Call} {col : Collector} (h : Follows calls col) (row : Bytes × Bytes) :
    row ∈ col.snapshots.map (fun snap => (snap.sessionID, snap.remoteAddr)) ↔
      (session row.1 calls).map (·.remoteAddr) = some row.2 := by
  constructor
  · intro hrow
    obtain ⟨snap, hsnap, rfl⟩ := List.mem_map.mp hrow
    have hsession := (h.mem_snapshots snap.unresolved).mp (List.mem_map_of_mem hsnap)
    change session snap.sessionID calls = _ at hsession
    dsimp only
    rw [hsession]
    rfl
  · intro hrow
    obtain ⟨view, hview, hremote⟩ := Option.map_eq_some_iff.mp hrow
    have hid := session_id row.1 calls view hview
    obtain ⟨snap, hsnap, rfl⟩ := List.mem_map.mp ((h.mem_snapshots view).mpr (by rw [hid]; exact hview))
    exact List.mem_map.mpr ⟨snap, hsnap, Prod.ext hid hremote⟩

theorem row_counted (h : Handler) (hrow : h.row.isSome = true) : h.stage.counted = true := by
  unfold Handler.row at hrow
  generalize h.stage = st at hrow
  cases st <;> first | rfl | cases hrow

theorem dashboard_shows_sessions (cr : Crypto) (server : Server) (listen : Bytes) (obfs : Bool) (transport : Bytes)
    (acts : List (Turn MainAct HandlerAct)) (c : Team Serving Handler)
    (hfresh : AllSteps (serving cr) FreshID ⟨Serving.init server listen obfs transport true, []⟩ acts)
    (hrun : run (serving cr) ⟨Serving.init server listen obfs transport true, []⟩ acts = some c) :
    ∃ col, c.shared.collector = some col ∧
      (col.snapshots.map fun snap => (snap.sessionID, snap.remoteAddr)).Perm (c.workers.filterMap Handler.row) ∧
      (col.sessionCount : Int) ≤ c.shared.sessionsActive := by
  have hinit := init_told server listen obfs transport true
  have hsince := (serving_tidy acts _ c hinit hrun).1
  obtain ⟨col, hcol⟩ : ∃ col, c.shared.collector = some col :=
    Option.isSome_iff_exists.mp (hsince.telemetry.trans rfl)
  have hfollows := hsince.told.follows col hcol
  have htagged := serving_tagged acts _ c hinit rfl hfresh hrun
  have hnodup : (col.snapshots.map fun snap => (snap.sessionID, snap.remoteAddr)).Nodup := by
    apply List.Nodup.of_map Prod.fst
    rw [List.map_map]
    exact hfollows.snapshots_ids ▸ AList.keys_nodup _
  have hperm := htagged.perm hnodup (mem_rows hfollows)
  refine ⟨col, hcol, hperm, ?_⟩
  rw [serving_gauge acts _ c (by simp [Serving.init]) hrun]
  have hlen := hperm.length_eq
  rw [List.length_map, List.length_filterMap_eq_countP] at hlen
  unfold Collector.sessionCount
  rw [← hfollows.snapshots_ids, List.length_map, hlen]
  exact_mod_cast List.countP_mono_left fun h _ hrow => row_counted h hrow

theorem dashboard_shows_two_clients :
    ∃ c, run (serving lenientCrypto) ⟨Serving.init ⟨⟨[]⟩, none, []⟩ [] true [] true, []⟩ twoClients = some c ∧
      ∃ col, c.shared.collector = some col ∧
        (col.snapshots.map fun snap => (snap.sessionID, snap.remoteAddr)).Perm (c.workers.filterMap Handler.row) ∧
        (col.sessionCount : Int) ≤ c.shared.sessionsActive :=
  have hrun : run (serving lenientCrypto) ⟨Serving.init ⟨⟨[]⟩, none, []⟩ [] true [] true, []⟩ twoClients = some _ := rfl
  ⟨_, hrun, dashboard_shows_sessions _ _ _ _ _ _ _ (by decide +kernel) hrun⟩

end Daxson.Tunnel
