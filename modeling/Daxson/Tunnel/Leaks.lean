import Daxson.Tunnel.Run

/-! # The client's connections -/

open Lib.Machine

namespace Daxson.Reconnect

def Runner.Open (s : Runner) (i : Nat) : Prop := s.closed[i]? = some false

/-- The connection that `connect` is setting up. -/
def Point.settingUp : Point → Option Link
  | .auth conn | .mux conn | .install conn => some conn
  | _ => none

/-- The session that `connect` has replaced and is about to close. -/
def Point.replaced : Point → Option Link
  | .replace old => old
  | _ => none

def Holds (link : Option Link) (i : Nat) : Prop := ∃ conn, link = some conn ∧ conn.id = i

theorem wrap_id (cfg : RunCfg) (conn : Link) : (wrap cfg conn).id = conn.id := by
  unfold wrap
  split_ifs <;> rfl

theorem open_set {closed : List Bool} {i j : Nat} :
    (closed.set j true)[i]? = some false ↔ closed[i]? = some false ∧ i ≠ j := by
  rw [List.getElem?_set]
  by_cases hij : j = i
  · subst hij
    by_cases hj : j < closed.length <;> simp [hj]
  · simp [hij, Ne.symm hij]

theorem open_dialed {closed : List Bool} (hnone : ∀ i : Nat, closed[i]? ≠ some false) {i : Nat}
    (hi : (closed ++ [false])[i]? = some false) : i = closed.length := by
  rcases Nat.lt_trichotomy i closed.length with hlt | heq | hgt
  · rw [List.getElem?_append_left hlt] at hi
    exact absurd hi (hnone i)
  · exact heq
  · rw [List.getElem?_eq_none (by simpa using hgt)] at hi
    cases hi

theorem open_close {s : Runner} {conn : Link} {i : Nat} : (s.close conn).Open i ↔ s.Open i ∧ i ≠ conn.id := open_set

structure Owned (s : Runner) : Prop where
  owner : ∀ i, s.Open i → Holds s.point.settingUp i ∨ Holds s.session i ∨ Holds s.point.replaced i
  /-- A stored session is open only while it is new or runs. -/
  stored : ∀ sess, s.session = some sess → s.Open sess.id → s.point = .session sess ∨ ∃ old, s.point = .replace old
  bounded : ∀ conn, s.session = some conn ∨ s.point.settingUp = some conn → conn.id < s.closed.length

/-- Between two sessions, with nothing being set up. -/
def Point.atRest : Point → Bool
  | .dial | .failed | .wait | .returned | .panicked => true
  | _ => false

theorem Owned.none_open {s : Runner} (h : Owned s) (hrest : s.point.atRest = true) (i : Nat) : ¬ s.Open i := by
  intro hi
  have howner := h.owner i hi
  have hstored := h.stored
  generalize s.point = p at hrest howner hstored
  cases p with
  | dial | failed | wait | returned | panicked =>
    simp only [Point.settingUp, Point.replaced, Holds, reduceCtorEq, false_and, exists_false, false_or, or_false]
      at howner
    obtain ⟨sess, hsess, rfl⟩ := howner
    simpa using hstored sess hsess hi
  | _ => cases hrest

theorem Owned.only_settingUp {s : Runner} (h : Owned s) (conn : Link) (hup : s.point.settingUp = some conn) :
    (∀ i, s.Open i → i = conn.id) ∧ ∀ sess, s.session = some sess → ¬ s.Open sess.id := by
  have hstored : ∀ sess, s.session = some sess → ¬ s.Open sess.id := by
    intro sess hsess hopen
    rcases h.stored sess hsess hopen with hp | ⟨old, hp⟩
    · rw [hp] at hup
      cases hup
    · rw [hp] at hup
      cases hup
  refine ⟨fun i hi => ?_, hstored⟩
  rcases h.owner i hi with ⟨conn', hconn', rfl⟩ | ⟨sess, hsess, rfl⟩ | ⟨old, hold, -⟩
  · rw [hup] at hconn'
    rw [Option.some.inj hconn']
  · exact absurd hi (hstored sess hsess)
  · generalize s.point = p at hup hold
    cases p with
    | auth c | mux c | install c => cases hold
    | _ => cases hup

theorem Owned.only_session {s : Runner} (h : Owned s) {sess : Link} (hp : s.point = .session sess) (i : Nat)
    (hi : s.Open i) : i = sess.id := by
  rcases h.owner i hi with ⟨_, hup, -⟩ | ⟨stored, hstored, rfl⟩ | ⟨_, hold, -⟩
  · rw [hp] at hup
    cases hup
  · rcases h.stored stored hstored hi with hp' | ⟨old, hp'⟩
    · rw [hp] at hp'
      cases hp'
      rfl
    · rw [hp] at hp'
      cases hp'
  · rw [hp] at hold
    cases hold

theorem owned_none_open {s : Runner} (h : ∀ i, ¬ s.Open i) (hup : s.point.settingUp = none)
    (hbound : ∀ sess, s.session = some sess → sess.id < s.closed.length) : Owned s := by
  refine ⟨fun i hi => absurd hi (h i), fun sess _ hi => absurd hi (h sess.id), ?_⟩
  rintro conn (hsess | hconn)
  · exact hbound conn hsess
  · rw [hup] at hconn
    cases hconn

theorem owned_settingUp {s : Runner} {conn : Link} (hup : s.point.settingUp = some conn)
    (honly : (∀ i, s.Open i → i = conn.id) ∧ ∀ sess, s.session = some sess → ¬ s.Open sess.id)
    (hbound : conn.id < s.closed.length) (hsession : ∀ sess, s.session = some sess → sess.id < s.closed.length) :
    Owned s := by
  refine ⟨fun i hi => .inl ⟨conn, hup, (honly.1 i hi).symm⟩, fun sess hsess hi => absurd hi (honly.2 sess hsess), ?_⟩
  rintro c (hsess | hc)
  · exact hsession c hsess
  · rw [hup] at hc
    rw [← Option.some.inj hc]
    exact hbound

theorem owned_start (cfg : RunCfg) : Owned (Runner.start cfg) :=
  owned_none_open (fun i => by simp [Runner.Open, Runner.start]) rfl (by simp [Runner.start])

theorem owned_step {cfg : RunCfg} {s s' : Runner} (h : Owned s) (hs : Stepped cfg s s') : Owned s' := by
  have hsession : ∀ sess, s.session = some sess → sess.id < s.closed.length :=
    fun sess hsess => h.bounded sess (.inl hsess)
  cases hs with
  | dialed hp =>
    have hopen : ∀ i, (s.closed ++ [false])[i]? = some false → i = s.closed.length :=
      fun i => open_dialed (h.none_open (by rw [hp]; rfl))
    refine owned_settingUp rfl ⟨hopen, ?_⟩ (by simp [Link.id]) ?_
    · intro sess hsess hi
      have := hsession sess hsess
      have := hopen sess.id hi
      omega
    · intro sess hsess
      have := hsession sess hsess
      simp
      omega
  | dialFails hp => exact owned_none_open (h.none_open (by rw [hp]; rfl)) rfl hsession
  | authenticated rawConn hp =>
    have honly := h.only_settingUp rawConn (by rw [hp]; rfl)
    refine owned_settingUp rfl ?_ ?_ hsession
    · rw [wrap_id]
      exact honly
    · rw [wrap_id]
      exact h.bounded rawConn (.inr (by rw [hp]; rfl))
  | muxed shapedConn hp =>
    have hup : s.point.settingUp = some shapedConn := by rw [hp]; rfl
    exact owned_settingUp rfl (h.only_settingUp shapedConn hup) (h.bounded shapedConn (.inr hup)) hsession
  | authFails conn hp | muxFails conn hp =>
    refine owned_none_open (fun i hi => ?_) rfl (by simpa [Runner.close] using hsession)
    obtain ⟨hopen, hne⟩ := open_set.mp hi
    exact hne ((h.only_settingUp conn (by rw [hp]; rfl)).1 i hopen)
  | store sess hp =>
    have honly := h.only_settingUp sess (by rw [hp]; rfl)
    refine ⟨fun i hi => .inr (.inl ⟨sess, rfl, (honly.1 i hi).symm⟩), fun _ _ _ => .inr ⟨_, rfl⟩, ?_⟩
    rintro conn (hconn | hconn)
    · obtain rfl := Option.some.inj hconn
      exact h.bounded sess (.inr (by rw [hp]; rfl))
    · cases hconn
  | closeOld old hp closed hclosed =>
    have hshrink : ∀ i, closed[i]? = some false → s.Open i ∧ ¬ Holds old i := by
      intro i hi
      subst hclosed
      cases old with
      | none => exact ⟨hi, by simp [Holds]⟩
      | some old =>
        obtain ⟨hopen, hne⟩ := open_set.mp hi
        exact ⟨hopen, by simpa [Holds] using hne.symm⟩
    have hlength : closed.length = s.closed.length := by
      subst hclosed
      cases old <;> simp
    have howner : ∀ i, closed[i]? = some false → Holds s.session i := by
      intro i hi
      obtain ⟨hopen, hold⟩ := hshrink i hi
      rcases h.owner i hopen with ⟨_, hup, -⟩ | hheld | hheld
      · rw [hp] at hup
        cases hup
      · exact hheld
      · rw [hp] at hheld
        exact absurd hheld hold
    refine ⟨fun i hi => .inr (.inl (howner i hi)), fun sess hsess _ => .inl ?_, ?_⟩
    · change s.session.elim Point.dial .session = .session sess
      rw [show s.session = some sess from hsess]
      rfl
    · rintro conn (hconn | hconn)
      · exact hlength ▸ hsession conn hconn
      · change (s.session.elim Point.dial .session).settingUp = some conn at hconn
        cases hs : s.session <;> simp [hs, Point.settingUp] at hconn
  | returned hp => exact owned_none_open (h.none_open (by rcases hp with hp | hp <;> rw [hp] <;> rfl)) rfl hsession
  | panicked hp | wait _ _ hp | waited hp => exact owned_none_open (h.none_open (by rw [hp]; rfl)) rfl hsession
  | tick sess hp hclosed =>
    refine owned_none_open (fun i hi => ?_) rfl hsession
    obtain rfl := h.only_session hp i hi
    have hi : s.closed[sess.id]? = some false := hi
    simp [hclosed] at hi
  | idle => exact h
  | sessionCancelled sess hp =>
    refine owned_none_open (fun i hi => ?_) rfl (by simpa [Runner.close] using hsession)
    obtain ⟨hopen, hne⟩ := open_set.mp hi
    exact hne (h.only_session hp i hopen)
  | breaks sess =>
    refine ⟨fun i hi => h.owner i (open_close.mp hi).1, fun stored hstored hi => ?_, ?_⟩
    · exact h.stored stored hstored (open_close.mp hi).1
    · simpa [Runner.close] using h.bounded
  | cancel => exact ⟨h.owner, h.stored, h.bounded⟩

theorem owned_run {cfg : RunCfg} {acts : List Act} {s : Runner}
    (h : run (Runner.step cfg) (Runner.start cfg) acts = some s) : Owned s :=
  run_invariant (fun _ _ _ hs hstep => owned_step hs (step_inv hstep)) acts _ _ (owned_start cfg) h

theorem Runner.closed_or_open {s : Runner} {i : Nat} (hi : i < s.closed.length) :
    s.closed[i]? = some true ∨ s.Open i := by
  unfold Runner.Open
  rw [List.getElem?_eq_getElem hi]
  cases s.closed[i] <;> simp

/-- **No leaks.** Each dialed connection is closed or has its one owner. -/
theorem client_leaks_no_connection (cfg : RunCfg) (acts : List Act) (s : Runner)
    (h : run (Runner.step cfg) (Runner.start cfg) acts = some s) :
    (∀ i < s.closed.length, s.closed[i]? = some true ∨
      Holds s.point.settingUp i ∨ Holds s.session i ∨ Holds s.point.replaced i) ∧
    (∀ i j, s.Open i → s.Open j → ¬ Holds s.point.settingUp i → ¬ Holds s.point.settingUp j →
      ¬ Holds s.point.replaced i → ¬ Holds s.point.replaced j → i = j) ∧
    (s.point = .returned → ∀ i < s.closed.length, s.closed[i]? = some true) := by
  have howned := owned_run h
  refine ⟨fun i hi => ?_, fun i j hi hj hupi hupj holdi holdj => ?_, fun hp i hi => ?_⟩
  · exact (Runner.closed_or_open hi).imp_right (howned.owner i)
  · obtain ⟨sess, hsess, rfl⟩ := ((howned.owner i hi).resolve_left hupi).resolve_right holdi
    obtain ⟨sess', hsess', rfl⟩ := ((howned.owner j hj).resolve_left hupj).resolve_right holdj
    rw [hsess] at hsess'
    rw [Option.some.inj hsess']
  · exact (Runner.closed_or_open hi).resolve_right (howned.none_open (by rw [hp]; rfl) i)

def threeCfg : RunCfg where
  reconnect := { maxRetries := -1, baseDelay := ⟨8⟩, maxDelay := ⟨16⟩ }
  multiplier := 2
  obfs := true

def threeDials : List Act :=
  [.dialed, .authenticated, .muxed, .store, .closeOld, .breaks (.shaped (.raw 0)), .tick true, .dialed, .authFails,
    .retry 1, .waited, .dialed, .authenticated, .muxed, .store, .closeOld, .cancel, .sessionCancelled, .dialFails,
    .retry 0]

theorem three_connections_closed :
    ∃ s, run (Runner.step threeCfg) (Runner.start threeCfg) threeDials = some s ∧ s.closed.length = 3 ∧
      ∀ i < s.closed.length, s.closed[i]? = some true := by
  have hrun : run (Runner.step threeCfg) (Runner.start threeCfg) threeDials = some
      { backoff := 8, closed := [true, true, true], session := some (.shaped (.raw 2)), point := .returned
        cancelled := true, waits := [9] } := by
    decide +kernel
  exact ⟨_, hrun, rfl, (client_leaks_no_connection threeCfg threeDials _ hrun).2.2 rfl⟩

end Daxson.Reconnect
