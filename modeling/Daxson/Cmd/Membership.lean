import Daxson.Auth.Calls
import Daxson.Auth.Replay
import Daxson.Cmd.KeyRing
import Daxson.Registry.Standing
import Daxson.Tunnel.Enrolment

/-! # From `import` to `connect` -/

namespace Daxson.Cmd

open Auth Invite Registry
open Protocol (protocolVersion)

theorem dispatch_registers {cr : Crypto} {env : ServerEnv} {hs : Handshaker} {r : Registry} {c : NetConn}
    {res : ServerAuthResult} (h : (serverDispatch cr env hs (some r) c).1 = .ok res) (hmode : res.mode = .bootstrap) :
    ∃ token pub label, res.devicePub = some pub ∧
      (r.exec cr (.bootstrap env.now env.save token pub label)).1 = .bootstrap bootstrapStatusOK none ∧
      (serverDispatch cr env hs (some r) c).2.2 = some (r.exec cr (.bootstrap env.now env.save token pub label)).2 := by
  obtain ⟨q, -, hpub, hreply, hreg⟩ := serverDispatch_bootstrap h hmode
  exact ⟨_, _, _, hpub, hreply, hreg⟩

theorem authorized_of_enrolled {r : Registry} {pub : Bytes} (h : r.book.Enrolled pub) : Authorized pub r.data := by
  rw [← authorizeDevice_ok_iff 0 .ok, authorizeDevice_eq, h.1]
  rfl

/-- **From `import` to `connect`.** -/
theorem registered_device_admitted (cr : Crypto) (hs : Handshaker) (path : Bytes) (tmp : Option FileContent)
    (before after : List Op) (hdraws : ((before ++ after).filterMap Op.drawn).Nodup) (keyPath : Bytes)
    (fs : Identity.Files) (first : Identity.LoadEnv) (kp : Identity.KeyPair)
    (hfirst : (Identity.load cr first keyPath fs).1 = .ok kp)
    (hsign : ∀ m, cr.ed25519Verify kp.publicKey.val m (cr.ed25519Sign kp.privateKey.val m) = true)
    (env : ServerEnv) (c : NetConn) (res : ServerAuthResult)
    (hres : (serverDispatch cr env hs (some ((fresh path tmp).execAll cr before)) c).1 = .ok res)
    (hmode : res.mode = .bootstrap) (hpub : res.devicePub = some kp.publicKey.val)
    (hrev : ∀ t o, (((fresh path tmp).execAll cr before).authorizeDevice t o kp.publicKey.val).1 ≠ authStatusRevoked)
    (hafter : ∀ op ∈ after, ¬ op.Revokes cr kp.publicKey.val) (cmds : List Command)
    (hcmds : ∀ cmd ∈ cmds, cmd.isRotate = false) :
    ∃ r, (serverDispatch cr env hs (some ((fresh path tmp).execAll cr before)) c).2.2 = some r ∧
      ∀ later : Identity.LoadEnv, later.readErr = none →
        ∃ kp',
          (Identity.load cr later keyPath (execAll cr keyPath cmds (Identity.load cr first keyPath fs).2)).1 = .ok kp' ∧
          ∀ (cenv : ClientEnv) (senv : ServerEnv) (conn : NetConn), Clocked cenv.now → Clocked senv.now →
            |cenv.now.unix / 30 - senv.now.unix / 30| ≤ 1 →
            (Client.device kp'.toKeyPair).request cr cenv <+: conn.rx.content →
            Admits kp.publicKey.val (serverDispatch cr senv hs (some (r.execAll cr after)) conn).1 := by
  obtain ⟨token, pub, label, hkey, hreply, hreg⟩ := dispatch_registers hres hmode
  obtain rfl := Option.some.inj (hkey.symm.trans hpub)
  refine ⟨_, hreg, fun later hlater => ?_⟩
  -- The server's side: the registration is in the book, in memory and on disk.
  have hdraws' : ((before ++
      .bootstrap env.now env.save token kp.publicKey.val label :: after).filterMap Op.drawn).Nodup := by
    rw [List.filterMap_append] at hdraws ⊢
    exact hdraws
  have hprepared := prepared_execAll (prepared_fresh cr path tmp hdraws')
  have hknown : ((fresh path tmp).execAll cr before).book.live.devices kp.publicKey.val ≠ some true := by
    intro htrue
    apply hrev 0 .ok
    rw [authorizeDevice_eq, htrue]
    rfl
  have hauth := authorized_of_enrolled
    (enrolled_execAll (prepared_exec hprepared) hafter (enrolled_bootstrap hprepared hreply hknown))
  -- The device's side: its file has the keys, and no command has touched it.
  have hold := load_stores hfirst
  rw [(all_holds hold hcmds).1]
  obtain ⟨hfs, hfails⟩ := Identity.load_holds cr later hold
  cases hload : (Identity.load cr later keyPath (Identity.load cr first keyPath fs).2).1 with
  | error e => exact absurd hlater (hfails.mp ⟨e, hload⟩)
  | ok kp' =>
    refine ⟨kp', rfl, fun cenv senv conn hcenv hsenv hclose hin => ?_⟩
    have hstored := load_stores hload
    rw [hfs] at hstored
    have hkeys := hstored.inj hold
    rw [hkeys] at hin
    exact (device_admitted hs hsign hcenv hauth hsenv hclose hin).1

/-- The request of an `import` that has just made its keys. -/
def firstVisit : NetConn where
  rx := { chunks := [(Client.bootstrap guestToken.val enrolled []).request echoCrypto onTheTrain], fin := .eof }

def freshDevice : Identity.LoadEnv := { generated := .ok enrolled }

/-- The file cannot be read once, and then the wizard finds the keys. -/
def quietDays : List Command :=
  [.load { freshDevice with readErr := some (.other "too many open files") }, .init { load := freshDevice }]

/-- An invite, before anybody has used it. -/
def invited : Registry := (fresh [] none).execAll echoCrypto [.createInvite 0 .ok (.ok guestToken) [] 1 0]

theorem registered_device_admitted_after_a_week :
    ∃ r, (serverDispatch echoCrypto nextBucket ⟨[]⟩ (some invited) firstVisit).2.2 = some r ∧
      ∃ kp', (Identity.load echoCrypto freshDevice [] (execAll echoCrypto [] quietDays
          (Identity.load echoCrypto freshDevice [] fun _ => none).2)).1 = .ok kp' ∧
        ∀ (cenv : ClientEnv) (senv : ServerEnv) (conn : NetConn), Clocked cenv.now → Clocked senv.now →
          |cenv.now.unix / 30 - senv.now.unix / 30| ≤ 1 →
          (Client.device kp'.toKeyPair).request echoCrypto cenv <+: conn.rx.content →
          Admits enrolled.publicKey.val
            (serverDispatch echoCrypto senv ⟨[]⟩ (some (r.execAll echoCrypto eventfulWeek)) conn).1 := by
  have hunknown : ∀ t o, (invited.authorizeDevice t o enrolled.publicKey.val).1 ≠ authStatusRevoked := by
    intro t o
    have hstatus : (invited.authorizeDevice t o enrolled.publicKey.val).1 = authStatusUnknown := rfl
    rw [hstatus]
    decide
  unfold invited at hunknown ⊢
  obtain ⟨r, hreg, hlater⟩ := registered_device_admitted echoCrypto ⟨[]⟩ [] none
    [.createInvite 0 .ok (.ok guestToken) [] 1 0] eventfulWeek (by decide +kernel) [] (fun _ => none) freshDevice
    ⟨enrolled, Identity.shortID echoCrypto enrolled.publicKey.val, 0⟩ rfl (fun _ => beq_self_eq_true _) nextBucket
    firstVisit ⟨copyArr 16 [], some enrolled.publicKey.val, .bootstrap⟩ (by decide +kernel) rfl rfl hunknown
    (eventfulWeek_spares (by decide +kernel)) quietDays (by simp [quietDays, Command.isRotate])
  exact ⟨r, hreg, hlater freshDevice rfl⟩

end Daxson.Cmd
