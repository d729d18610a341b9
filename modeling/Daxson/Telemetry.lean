import Daxson.Go
import Mathlib.Data.List.AList
import Mathlib.Data.List.DropRight

/-! # Session tracking

A record lives at an address of its own, and the map of sessions holds the address.
-/

namespace Daxson.Telemetry

/-- A point-in-time view of a session. -/
structure SessionSnapshot where
  sessionID : Bytes
  deviceID : Bytes
  deviceLabel : Bytes
  remoteAddr : Bytes
  isp : Bytes := []
  transport : Bytes
  authMode : Bytes
  connectedAt : Time
  lastSeenAt : Time
  bytesSent : Int := 0
  bytesRecv : Int := 0
  streams : Int := 0
  deriving DecidableEq, Repr

structure SessionRecord extends SessionSnapshot where
  closed : Bool := false
  deriving DecidableEq, Repr

def SessionRecord.snapshot (s : SessionRecord) : SessionSnapshot := s.toSessionSnapshot

structure ProbeEvent where
  time : Time
  remoteAddr : Bytes
  reason : Bytes
  deriving DecidableEq, Repr

@[ext]
structure TransportCounter where
  successes : Nat := 0
  failures : Nat := 0
  deriving DecidableEq, Repr

structure Collector where
  /-- The records that were ever made, by address. -/
  records : List SessionRecord := []
  sessions : AList (fun _ : Bytes => Nat) := ∅
  probes : List ProbeEvent := []
  transport : AList (fun _ : Bytes => TransportCounter) := ∅

namespace Collector

/-- `getOrCreateTransport`, with what its caller adds to the counter. -/
def countTransport (t : Bytes) (add : TransportCounter → TransportCounter) (c : Collector) : Collector :=
  let t := if t.isEmpty then ascii "unknown" else t
  { c with transport := c.transport.insert t (add ((c.transport.lookup t).getD {})) }

def recordTransportSuccess (t : Bytes) : Collector → Collector :=
  countTransport t fun tc => { tc with successes := tc.successes + 1 }

def recordTransportFailure (t : Bytes) : Collector → Collector :=
  countTransport t fun tc => { tc with failures := tc.failures + 1 }

/-- `OpenSession`: the address of the record. -/
def openSession (now : Time) (sid : ByteArr 16) (deviceID deviceLabel remoteAddr transport authMode : Bytes)
    (c : Collector) : Nat × Collector :=
  let record : SessionRecord := {
    sessionID := hexEncode sid.val, deviceID := deviceID, deviceLabel := deviceLabel, remoteAddr := remoteAddr
    transport := transport, authMode := authMode, connectedAt := now, lastSeenAt := now }
  let ptr := c.records.length
  let c := { c with records := c.records ++ [record], sessions := c.sessions.insert record.sessionID ptr }
  (ptr, c.recordTransportSuccess transport)

/-- The lookup that `OpenSession` starts comes back with a name. -/
def resolveISP (ptr : Nat) (name : Bytes) (c : Collector) : Collector :=
  { c with records := c.records.modify ptr fun rec => { rec with isp := name } }

def closeSession (sid : Bytes) (c : Collector) : Collector :=
  let records := match c.sessions.lookup sid with
    | some ptr => c.records.modify ptr fun rec => { rec with closed := true }
    | none => c.records
  { c with records := records, sessions := c.sessions.erase sid }

def recordProbe (now : Time) (remoteAddr reason : Bytes) (c : Collector) : Collector :=
  let probes := c.probes ++ [⟨now, remoteAddr, reason⟩]
  -- Only the last 1000 are kept.
  { c with probes := if probes.length > 1000 then probes.drop (probes.length - 1000) else probes }

/-! ## Snapshots -/

/-- `Sessions`, in the order of the map here and in any order in the code. -/
def snapshots (c : Collector) : List SessionSnapshot :=
  c.sessions.entries.filterMap fun e => (c.records[e.2]?).map (·.snapshot)

def sessionCount (c : Collector) : Nat := c.sessions.keys.length

def recentProbes (n : Nat) (c : Collector) : List ProbeEvent :=
  if c.probes.length > n then c.probes.drop (c.probes.length - n) else c.probes

def transportStats (c : Collector) : List (Bytes × TransportCounter) :=
  c.transport.entries.map fun e => (e.1, e.2)

end Collector

/-! ## The calls -/

inductive Call where
  | openSession (now : Time) (sid : ByteArr 16) (deviceID deviceLabel remoteAddr transport authMode : Bytes)
  | closeSession (sid : Bytes)
  | resolveISP (ptr : Nat) (name : Bytes)
  | recordProbe (now : Time) (remoteAddr reason : Bytes)
  | recordTransportFailure (transport : Bytes)

def Collector.exec (c : Collector) : Call → Collector
  | .openSession now sid deviceID deviceLabel remoteAddr transport authMode =>
    (c.openSession now sid deviceID deviceLabel remoteAddr transport authMode).2
  | .closeSession sid => c.closeSession sid
  | .resolveISP ptr name => c.resolveISP ptr name
  | .recordProbe now remoteAddr reason => c.recordProbe now remoteAddr reason
  | .recordTransportFailure transport => c.recordTransportFailure transport

def Collector.execAll (calls : List Call) (c : Collector) : Collector := calls.foldl Collector.exec c

/-- The probe that a call reports. -/
def Call.probe : Call → Option ProbeEvent
  | .recordProbe now remoteAddr reason => some ⟨now, remoteAddr, reason⟩
  | _ => none

/-- The transport that a call counts a success or a failure for. -/
def Call.counts : Call → Option (Bytes × Bool)
  | .openSession _ _ _ _ _ transport _ => some (if transport.isEmpty then ascii "unknown" else transport, true)
  | .recordTransportFailure transport => some (if transport.isEmpty then ascii "unknown" else transport, false)
  | _ => none

/-- What is left of the session `id` after a call: the view it was opened with, but for the ISP. -/
def Call.session (id : Bytes) (cur : Option SessionSnapshot) : Call → Option SessionSnapshot
  | .openSession now sid deviceID deviceLabel remoteAddr transport authMode =>
    if hexEncode sid.val = id then
      some { sessionID := id, deviceID := deviceID, deviceLabel := deviceLabel, remoteAddr := remoteAddr
             transport := transport, authMode := authMode, connectedAt := now, lastSeenAt := now }
    else cur
  | .closeSession sid => if sid = id then none else cur
  | _ => cur

def session (id : Bytes) (calls : List Call) : Option SessionSnapshot := calls.foldl (Call.session id) none

def SessionSnapshot.unresolved (s : SessionSnapshot) : SessionSnapshot := { s with isp := [] }

/-- The calls that counted a success and a failure for a transport. -/
def counter (t : Bytes) (calls : List Call) : TransportCounter where
  successes := calls.countP fun a => a.counts = some (t, true)
  failures := calls.countP fun a => a.counts = some (t, false)

/-- The view of a record of the map. -/
def Collector.view (id : Bytes) (c : Collector) : Option SessionSnapshot :=
  ((c.sessions.lookup id).bind fun ptr => c.records[ptr]?).map (·.snapshot.unresolved)

/-- The collector shows what the calls say. -/
structure Follows (calls : List Call) (c : Collector) : Prop where
  probes : c.probes = (calls.filterMap Call.probe).rtake 1000
  transport : ∀ t, (c.transport.lookup t).getD {} = counter t calls
  /-- A transport is listed when it has been counted. -/
  listed : ∀ t, t ∈ c.transport ↔ counter t calls ≠ {}
  sessions : ∀ id, c.view id = session id calls
  /-- No address dangles. -/
  bounded : ∀ id ptr, c.sessions.lookup id = some ptr → ptr < c.records.length

/-! ## One call -/

theorem rtake_rtake_concat {α : Type} (l : List α) (n : Nat) (x : α) :
    (l.rtake n ++ [x]).rtake n = (l ++ [x]).rtake n := by
  cases n with
  | zero => simp
  | succ n =>
    rw [List.rtake_concat_succ, List.rtake_concat_succ]
    simp only [List.rtake_eq_reverse_take_reverse, List.reverse_reverse, List.take_take]
    rw [Nat.min_eq_left (Nat.le_succ n)]

theorem drop_eq_rtake {α : Type} (l : List α) (n : Nat) :
    (if l.length > n then l.drop (l.length - n) else l) = l.rtake n := by
  unfold List.rtake
  split_ifs with h
  · rfl
  · rw [Nat.sub_eq_zero_of_le (by omega), List.drop_zero]

theorem countTransport_lookup (c : Collector) (t u : Bytes) (add : TransportCounter → TransportCounter) :
    (c.countTransport t add).transport.lookup u =
      if u = (if t.isEmpty then ascii "unknown" else t) then some (add ((c.transport.lookup u).getD {}))
      else c.transport.lookup u := by
  unfold Collector.countTransport
  dsimp only
  generalize (if t.isEmpty then ascii "unknown" else t) = t'
  split_ifs with h
  · rw [h, AList.lookup_insert]
  · rw [AList.lookup_insert_ne h]

theorem counter_concat (t : Bytes) (calls : List Call) (a : Call) :
    counter t (calls ++ [a]) = {
      successes := (counter t calls).successes + if a.counts = some (t, true) then 1 else 0
      failures := (counter t calls).failures + if a.counts = some (t, false) then 1 else 0 } := by
  simp [counter, List.countP_append, List.countP_cons]

theorem session_concat (id : Bytes) (calls : List Call) (a : Call) :
    session id (calls ++ [a]) = a.session id (session id calls) := by
  unfold session
  rw [List.foldl_append, List.foldl_cons, List.foldl_nil]

theorem probes_concat (calls : List Call) (a : Call) (ha : a.probe = none) :
    (calls ++ [a]).filterMap Call.probe = calls.filterMap Call.probe := by
  simp [List.filterMap_append, ha]

theorem Follows.transport_same {calls : List Call} {c : Collector} (h : Follows calls c) (c' : Collector) (a : Call)
    (hc : c'.transport = c.transport) (ha : a.counts = none) (t : Bytes) :
    (c'.transport.lookup t).getD {} = counter t (calls ++ [a]) ∧
      (t ∈ c'.transport ↔ counter t (calls ++ [a]) ≠ {}) := by
  have hsame : counter t (calls ++ [a]) = counter t calls := by simp [counter_concat, ha]
  rw [hc, hsame]
  exact ⟨h.transport t, h.listed t⟩

theorem Follows.transport_counted {calls : List Call} {c : Collector} (h : Follows calls c) {a : Call} (u : Bytes)
    (ok : Bool) (ha : a.counts = some (if u.isEmpty then ascii "unknown" else u, ok)) (t : Bytes)
    (add : TransportCounter → TransportCounter)
    (hadd : ∀ tc, add tc = ⟨tc.successes + if ok then 1 else 0, tc.failures + if ok then 0 else 1⟩) :
    ((c.countTransport u add).transport.lookup t).getD {} = counter t (calls ++ [a]) ∧
      (t ∈ (c.countTransport u add).transport ↔ counter t (calls ++ [a]) ≠ {}) := by
  rw [← AList.lookup_isSome, countTransport_lookup, counter_concat, ha]
  generalize (if u.isEmpty then ascii "unknown" else u) = u'
  by_cases htu : t = u'
  · subst htu
    rw [if_pos rfl, Option.getD_some, h.transport t, hadd]
    cases ok <;> simp
  · have hut : u' ≠ t := Ne.symm htu
    rw [if_neg htu, h.transport t, AList.lookup_isSome, h.listed t]
    simp [hut, TransportCounter.ext_iff]

theorem view_modify (c : Collector) (ptr : Nat) (f : SessionRecord → SessionRecord)
    (hf : ∀ r, (f r).snapshot.unresolved = r.snapshot.unresolved) (id : Bytes) :
    ({ c with records := c.records.modify ptr f } : Collector).view id = c.view id := by
  unfold Collector.view
  dsimp only
  cases c.sessions.lookup id with
  | none => rfl
  | some q =>
    rw [Option.bind_some, Option.bind_some, List.getElem?_modify]
    cases c.records[q]? with
    | none => rfl
    | some r =>
      simp only [Option.map_eq_map, Option.map_some]
      split_ifs
      · rw [hf r]
      · rfl

theorem Follows.openSession {calls : List Call} {c : Collector} (h : Follows calls c) (now : Time) (sid : ByteArr 16)
    (deviceID deviceLabel remoteAddr transport authMode : Bytes) :
    Follows (calls ++ [.openSession now sid deviceID deviceLabel remoteAddr transport authMode])
      (c.openSession now sid deviceID deviceLabel remoteAddr transport authMode).2 := by
  have htransport := fun t => h.transport_counted transport true rfl t
    (a := .openSession now sid deviceID deviceLabel remoteAddr transport authMode)
    (fun tc => { tc with successes := tc.successes + 1 }) fun _ => rfl
  refine ⟨?_, fun t => (htransport t).1, fun t => (htransport t).2, fun id => ?_, fun id ptr hptr => ?_⟩
  · rw [probes_concat _ _ rfl]
    exact h.probes
  · rw [session_concat, ← h.sessions id]
    unfold Collector.view
    change Option.map _ (((c.sessions.insert (hexEncode sid.val) c.records.length).lookup id).bind fun ptr =>
      (c.records ++ [_])[ptr]?) = _
    by_cases hid : hexEncode sid.val = id
    · subst hid
      rw [AList.lookup_insert, Option.bind_some, List.getElem?_concat_length]
      simp [Call.session, SessionRecord.snapshot, SessionSnapshot.unresolved]
    · rw [AList.lookup_insert_ne (Ne.symm hid), Call.session, if_neg hid]
      cases hl : c.sessions.lookup id with
      | none => rfl
      | some ptr => rw [Option.bind_some, Option.bind_some, List.getElem?_append_left (h.bounded id ptr hl)]
  · change (c.sessions.insert (hexEncode sid.val) c.records.length).lookup id = some ptr at hptr
    change ptr < (c.records ++ [_]).length
    rw [List.length_append, List.length_singleton]
    by_cases hid : id = hexEncode sid.val
    · subst hid
      rw [AList.lookup_insert, Option.some.injEq] at hptr
      omega
    · rw [AList.lookup_insert_ne hid] at hptr
      exact (h.bounded id ptr hptr).trans (Nat.lt_succ_self _)

theorem closeSession_view (c : Collector) (sid id : Bytes) :
    (c.closeSession sid).view id = if sid = id then none else c.view id := by
  have hrecords : (c.closeSession sid).view id = ({ c with sessions := c.sessions.erase sid } : Collector).view id := by
    unfold Collector.closeSession
    cases c.sessions.lookup sid with
    | none => rfl
    | some ptr =>
      exact view_modify { c with sessions := c.sessions.erase sid } ptr (fun r => { r with closed := true })
        (fun _ => rfl) id
  rw [hrecords]
  unfold Collector.view
  split_ifs with hid
  · rw [hid, AList.lookup_erase]
    rfl
  · rw [AList.lookup_erase_ne (Ne.symm hid)]

theorem closeSession_bounded {calls : List Call} {c : Collector} (h : Follows calls c) (sid id : Bytes) (ptr : Nat)
    (hptr : (c.closeSession sid).sessions.lookup id = some ptr) : ptr < (c.closeSession sid).records.length := by
  have hlen : (c.closeSession sid).records.length = c.records.length := by
    unfold Collector.closeSession
    cases c.sessions.lookup sid with
    | none => rfl
    | some ptr => exact List.length_modify _ _ _
  change (c.sessions.erase sid).lookup id = some ptr at hptr
  rw [hlen]
  by_cases hid : id = sid
  · rw [hid, AList.lookup_erase] at hptr
    cases hptr
  · rw [AList.lookup_erase_ne hid] at hptr
    exact h.bounded id ptr hptr

theorem Follows.step {calls : List Call} {c : Collector} (h : Follows calls c) (a : Call) :
    Follows (calls ++ [a]) (c.exec a) := by
  cases a with
  | openSession now sid deviceID deviceLabel remoteAddr transport authMode =>
    exact h.openSession now sid deviceID deviceLabel remoteAddr transport authMode
  | closeSession sid =>
    have htransport := fun t => h.transport_same (c.closeSession sid) (.closeSession sid) rfl rfl t
    refine ⟨?_, fun t => (htransport t).1, fun t => (htransport t).2, fun id => ?_, closeSession_bounded h sid⟩
    · rw [probes_concat _ _ rfl]
      exact h.probes
    · rw [session_concat, ← h.sessions id]
      exact closeSession_view c sid id
  | resolveISP ptr name =>
    have htransport := fun t => h.transport_same (c.resolveISP ptr name) (.resolveISP ptr name) rfl rfl t
    refine ⟨?_, fun t => (htransport t).1, fun t => (htransport t).2, fun id => ?_, fun id q hq => ?_⟩
    · rw [probes_concat _ _ rfl]
      exact h.probes
    · rw [session_concat, ← h.sessions id]
      exact view_modify c ptr (fun r => { r with isp := name }) (fun _ => rfl) id
    · exact (h.bounded id q hq).trans_eq (List.length_modify _ _ _).symm
  | recordProbe now remoteAddr reason =>
    have htransport := fun t => h.transport_same (c.recordProbe now remoteAddr reason)
      (.recordProbe now remoteAddr reason) rfl rfl t
    refine ⟨?_, fun t => (htransport t).1, fun t => (htransport t).2, fun id => ?_, h.bounded⟩
    · rw [List.filterMap_append]
      change (if _ then _ else _) = _
      rw [drop_eq_rtake, h.probes]
      exact rtake_rtake_concat _ _ _
    · rw [session_concat, ← h.sessions id]
      rfl
  | recordTransportFailure transport =>
    have htransport := fun t => h.transport_counted (a := .recordTransportFailure transport) transport false rfl t
      (fun tc => { tc with failures := tc.failures + 1 }) fun _ => rfl
    refine ⟨?_, fun t => (htransport t).1, fun t => (htransport t).2, fun id => ?_, h.bounded⟩
    · rw [probes_concat _ _ rfl]
      exact h.probes
    · rw [session_concat, ← h.sessions id]
      rfl

theorem follows_execAll (calls : List Call) : Follows calls (({} : Collector).execAll calls) := by
  induction calls using List.reverseRecOn with
  | nil => exact ⟨rfl, fun t => rfl, fun t => by simp [counter, Collector.execAll], fun id => rfl,
      fun id ptr h => by cases h⟩
  | append_singleton calls a ih =>
    unfold Collector.execAll at ih ⊢
    rw [List.foldl_concat]
    exact ih.step a

/-! ## What a snapshot shows -/

theorem session_id (id : Bytes) (calls : List Call) (s : SessionSnapshot) (h : session id calls = some s) :
    s.sessionID = id := by
  induction calls using List.reverseRecOn with
  | nil => cases h
  | append_singleton calls a ih =>
    rw [session_concat] at h
    cases a with
    | openSession now sid deviceID deviceLabel remoteAddr transport authMode =>
      dsimp only [Call.session] at h
      split_ifs at h
      · rw [← Option.some.inj h]
      · exact ih h
    | closeSession sid =>
      dsimp only [Call.session] at h
      split_ifs at h
      exact ih h
    | resolveISP | recordProbe | recordTransportFailure => exact ih h

theorem Follows.entry {calls : List Call} {c : Collector} (h : Follows calls c) {e : Sigma fun _ : Bytes => Nat}
    (he : e ∈ c.sessions.entries) :
    ∃ r, c.records[e.2]? = some r ∧ session e.1 calls = some r.snapshot.unresolved ∧ r.sessionID = e.1 := by
  have hlookup : c.sessions.lookup e.1 = some e.2 := AList.mem_lookup_iff.mpr he
  have hrec := List.getElem?_eq_getElem (h.bounded _ _ hlookup)
  have hview := h.sessions e.1
  unfold Collector.view at hview
  rw [hlookup, Option.bind_some, hrec] at hview
  exact ⟨_, hrec, hview.symm, session_id e.1 calls (SessionRecord.snapshot _).unresolved hview.symm⟩

theorem Follows.snapshots_ids {calls : List Call} {c : Collector} (h : Follows calls c) :
    c.snapshots.map (·.sessionID) = c.sessions.keys := by
  unfold Collector.snapshots AList.keys List.keys
  rw [List.map_filterMap, ← List.filterMap_eq_map]
  apply List.filterMap_congr
  intro e he
  obtain ⟨r, hr, -, hid⟩ := h.entry he
  rw [hr]
  exact congrArg some hid

theorem Follows.mem_snapshots {calls : List Call} {c : Collector} (h : Follows calls c) (s : SessionSnapshot) :
    s ∈ c.snapshots.map (·.unresolved) ↔ session s.sessionID calls = some s := by
  unfold Collector.snapshots
  simp only [List.mem_map, List.mem_filterMap, Option.map_eq_some_iff]
  constructor
  · rintro ⟨-, ⟨e, he, r, hr, rfl⟩, rfl⟩
    obtain ⟨r', hr', hsession, hid⟩ := h.entry he
    obtain rfl : r = r' := Option.some.inj (hr.symm.trans hr')
    exact (congrArg (session · calls) hid).trans hsession
  · intro hs
    have hview := h.sessions s.sessionID
    unfold Collector.view at hview
    rw [hs, Option.map_eq_some_iff] at hview
    obtain ⟨r, hr, hrs⟩ := hview
    obtain ⟨ptr, hptr, hr⟩ := Option.bind_eq_some_iff.mp hr
    exact ⟨r.snapshot, ⟨⟨s.sessionID, ptr⟩, AList.mem_lookup_iff.mp hptr, r, hr, rfl⟩, hrs⟩

theorem Follows.mem_stats {calls : List Call} {c : Collector} (h : Follows calls c) (t : Bytes)
    (tc : TransportCounter) : (t, tc) ∈ c.transportStats ↔ tc = counter t calls ∧ tc ≠ {} := by
  have hmem : (t, tc) ∈ c.transportStats ↔ c.transport.lookup t = some tc := by
    rw [← Option.mem_def, AList.mem_lookup_iff]
    unfold Collector.transportStats
    simp only [List.mem_map, Prod.mk.injEq]
    constructor
    · rintro ⟨e, he, rfl, rfl⟩
      exact he
    · intro he
      exact ⟨_, he, rfl, rfl⟩
  have hvalue := h.transport t
  have hlisted := h.listed t
  rw [← AList.lookup_isSome] at hlisted
  rw [hmem]
  cases hl : c.transport.lookup t with
  | none =>
    rw [hl] at hvalue hlisted
    simp only [Option.isSome_none, Bool.false_eq_true, false_iff, not_not, reduceCtorEq] at hlisted ⊢
    rintro ⟨rfl, hne⟩
    exact hne hlisted
  | some tc' =>
    rw [hl, Option.getD_some] at hvalue
    rw [hl, Option.isSome_some, eq_self, true_iff] at hlisted
    rw [Option.some.injEq, hvalue]
    constructor
    · rintro rfl
      exact ⟨rfl, hlisted⟩
    · exact fun h => h.1.symm

theorem collector_shows_history (calls : List Call) :
    (∀ n, (({} : Collector).execAll calls).recentProbes n = (calls.filterMap Call.probe).rtake (min n 1000)) ∧
      (∀ t tc, (t, tc) ∈ (({} : Collector).execAll calls).transportStats ↔ tc = counter t calls ∧ tc ≠ {}) ∧
      (∀ s, s ∈ (({} : Collector).execAll calls).snapshots.map (·.unresolved) ↔
        session s.sessionID calls = some s) ∧
      ((({} : Collector).execAll calls).snapshots.map (·.sessionID)).Nodup ∧
      (({} : Collector).execAll calls).sessionCount = (({} : Collector).execAll calls).snapshots.length := by
  have h := follows_execAll calls
  have hids := h.snapshots_ids
  refine ⟨fun n => ?_, h.mem_stats, h.mem_snapshots, ?_, ?_⟩
  · unfold Collector.recentProbes
    rw [drop_eq_rtake, h.probes]
    simp only [List.rtake_eq_reverse_take_reverse, List.reverse_reverse, List.take_take]
  · rw [hids]
    exact AList.keys_nodup _
  · unfold Collector.sessionCount
    rw [← hids, List.length_map]

end Daxson.Telemetry
