import Daxson.Auth.Aligned
import Daxson.Auth.Network

/-! # Requests sent again

The server keeps no nonces.
-/

open Lib.Grow Lib.Machine

namespace Daxson.Auth

open Invite Registry
open Protocol (protocolVersion)

/-- The handshakes that take a request of the client. -/
def Takes (hs : Handshaker) (cenv : ClientEnv) (env : ServerEnv) : Client → Prop
  | .hmac h => h = hs ∧ env.sidErr = none ∧ env.write = .full ∧
      (cenv.now.unix / 30 = env.now.unix / 30 ∨ cenv.now.unix / 30 = env.now.unix / 30 - 1)
  | .device _ => |cenv.now.unix / 30 - env.now.unix / 30| ≤ 1
  | .bootstrap _ _ _ => False

/-- The registry lets the client in. -/
def Welcome (reg : Option Registry) : Client → Prop
  | .device kp => ∃ r, reg = some r ∧ Authorized kp.publicKey.val r.data
  | _ => True

theorem authorized_authorizeDevice {pub : Bytes} {r : Registry} (h : Authorized pub r.data) (now : Time)
    (o : SaveOutcome)
    (key : Bytes) : Authorized pub (r.authorizeDevice now o key).2.data := by
  unfold authorizeDevice
  cases hm : firstMatch (fun x : Device => bytesEqual x.pubKey key) r.data.devices with
  | none => exact h
  | some m =>
    obtain ⟨i, x⟩ := m
    dsimp only
    split_ifs
    · exact h
    · obtain ⟨j, y, hy, hrev⟩ := h
      rw [save_data]
      refine ⟨j, if j = i then { y with lastSeenAt := now } else y, ?_, by split_ifs <;> exact hrev⟩
      exact (firstMatch_modify _ (fun x : Device => { x with lastSeenAt := now })
        (fun _ => rfl) _ _).trans (by rw [hy]; rfl)

theorem dispatch_device_reg (cr : Crypto) (hs : Handshaker) (env : ServerEnv) (r : Registry) (c : NetConn) {t : Bytes}
    (hin : c.rx.content = msgTypeDeviceAuth :: t) :
    ∃ r', (serverDispatch cr env hs (some r) c).2.2 = some r' ∧
      (r' = r ∨ ∃ key, r' = (r.authorizeDevice env.now env.save key).2) := by
  obtain ⟨rx, hread, -⟩ := readFull_first hin
  unfold serverDispatch
  rw [hread]
  dsimp only
  rw [List.headD_cons, if_neg (by decide), if_pos rfl]
  refine ⟨_, rfl, ?_⟩
  unfold deviceServerHandshake
  rcases readFull (deviceAuthRequestSize - 1) rx with ⟨res, rx'⟩
  cases res with
  | error e => exact .inl rfl
  | ok remaining =>
    dsimp only
    unfold deviceAnswer
    cases unmarshalDeviceAuthRequest ([msgTypeDeviceAuth] ++ remaining) with
    | error e => exact .inl rfl
    | ok q =>
      dsimp only
      split_ifs
      · exact .inl rfl
      · exact .inl rfl
      · exact .inr ⟨q.pubKey.val, rfl⟩
      · exact .inr ⟨q.pubKey.val, rfl⟩

theorem goodRequest_append {cr : Crypto} {now : Time} {t : Bytes} (h : GoodRequest cr now t) (rest : Bytes) :
    GoodRequest cr now (t ++ rest) := by
  have hlen := h.complete
  refine ⟨by simp; omega, ?_, ?_⟩
  · rw [slice_append t rest (by omega)]
    exact h.fresh
  · rw [slice_append t rest (by omega), slice_append t rest (by omega), slice_append t rest (by omega),
      slice_append t rest (by omega)]
    exact h.signed

theorem device_admitted {cr : Crypto} (hs : Handshaker) {kp : KeyPair} {cenv : ClientEnv}
    (hsign : ∀ m, cr.ed25519Verify kp.publicKey.val m (cr.ed25519Sign kp.privateKey.val m) = true)
    (hcenv : Clocked cenv.now) {r : Registry} (hauth : Authorized kp.publicKey.val r.data) {env : ServerEnv}
    {c : NetConn}
    (hnow : Clocked env.now) (hopen : |cenv.now.unix / 30 - env.now.unix / 30| ≤ 1)
    (hin : (Client.device kp).request cr cenv <+: c.rx.content) :
    Admits kp.publicKey.val (serverDispatch cr env hs (some r) c).1 ∧
      ∃ r', (serverDispatch cr env hs (some r) c).2.2 = some r' ∧ Authorized kp.publicKey.val r'.data := by
  obtain ⟨rest, hrest⟩ := hin
  obtain ⟨t, hmarshal, hgood, hkey⟩ := deviceRequest_good cr kp cenv hnow hsign
    (by rw [bucketOf_toNat hcenv, bucketOf_toNat hnow]; exact hopen)
  have hcontent : c.rx.content = msgTypeDeviceAuth :: (t ++ rest) := by
    rw [← hrest]
    change (deviceRequest cr kp cenv).marshal ++ rest = _
    rw [hmarshal]
    rfl
  obtain ⟨rx, hrx, hdevice, -⟩ := serverDispatch_first cr env hs (some r) c hcontent (by decide)
  have hslice : slice (t ++ rest) 0 32 = kp.publicKey.val := by
    rw [slice_append t rest (by have := hgood.complete; omega), hkey]
  have hadmits := (deviceServerHandshake_admits_iff cr env hnow r { c with rx := rx } hrx kp.publicKey.val).mpr
    ⟨goodRequest_append hgood rest, hslice, hauth⟩
  obtain ⟨r', hr', hcases⟩ := dispatch_device_reg cr hs env r c hcontent
  rw [← hdevice r rfl rfl] at hadmits
  refine ⟨hadmits, r', hr', ?_⟩
  rcases hcases with rfl | ⟨key, rfl⟩
  · exact hauth
  · exact authorized_authorizeDevice hauth _ _ key

theorem copy_reopens {cr : Crypto} {hs : Handshaker} {client : Client} {cenv : ClientEnv}
    (hsign : ∀ kp, client = .device kp →
      ∀ m, cr.ed25519Verify kp.publicKey.val m (cr.ed25519Sign kp.privateKey.val m) = true)
    (hcenv : Clocked cenv.now) {w : World} (hwelcome : Welcome w.reg client) {env : ServerEnv} {c : NetConn}
    (hnow : Clocked env.now)
    (hopen : Takes hs cenv env client) (hin : client.request cr cenv <+: c.rx.content) :
    ∃ w', w.step cr hs (.arrive env c) = some w' ∧ w'.sessions.length = w.sessions.length + 1 ∧
      Welcome w'.reg client := by
  obtain ⟨rest, hrest⟩ := hin
  refine ⟨_, rfl, ?_⟩
  suffices hgoal : (∃ result, (serverDispatch cr env hs w.reg c).1 = .ok result) ∧
      Welcome (serverDispatch cr env hs w.reg c).2.2 client by
    obtain ⟨⟨result, hresult⟩, hafter⟩ := hgoal
    refine ⟨?_, hafter⟩
    change (w.sessions ++ w.opened env c (serverDispatch cr env hs w.reg c).1).length = _
    rw [hresult, List.length_append]
    rfl
  cases client with
  | hmac h =>
    obtain ⟨rfl, hsid, hwrite, hbucket⟩ := hopen
    have hhead : c.rx.content.head? = some protocolVersion := by
      rw [← hrest]
      rfl
    obtain ⟨hres, -, -, hreg⟩ := serverDispatch_hmac cr env h w.reg c hhead
    have hvalid : validToken cr h.psk env.now (h.request cr cenv.nonce cenv.now) = true := by
      unfold validToken
      rw [request_nonce, request_token, timeBucket_now hnow, timeBucket_before hnow, timeBucket_now hcenv,
        Bool.or_eq_true, beq_iff_eq, beq_iff_eq]
      rcases hbucket with hb | hb
      · exact .inl (by rw [hb])
      · exact .inr (by rw [hb])
    obtain ⟨sid, hsid⟩ := (serverHandshake_accepts_iff cr h cenv.nonce cenv.now env c hsid hwrite hrest.symm).mpr hvalid
    exact ⟨⟨_, by rw [hres, hsid]; rfl⟩, trivial⟩
  | device kp =>
    obtain ⟨r, hreg, hauth⟩ := hwelcome
    rw [hreg]
    obtain ⟨⟨sid, hadmits⟩, r', hr', hauth'⟩ := device_admitted hs (hsign kp rfl) hcenv hauth hnow hopen ⟨rest, hrest⟩
    exact ⟨⟨_, hadmits⟩, r', hr', hauth'⟩
  | bootstrap token kp label => exact hopen.elim

/-- **The server has no memory of requests.** -/
theorem copies_reopen (cr : Crypto) (hs : Handshaker) (client : Client) (cenv : ClientEnv)
    (hsign : ∀ kp, client = .device kp →
      ∀ m, cr.ed25519Verify kp.publicKey.val m (cr.ed25519Sign kp.privateKey.val m) = true)
    (hcenv : Clocked cenv.now) (w : World) (hwelcome : Welcome w.reg client) (copies : List (ServerEnv × NetConn))
    (hcopies : ∀ copy ∈ copies, Clocked copy.1.now ∧ Takes hs cenv copy.1 client ∧
      client.request cr cenv <+: copy.2.rx.content) :
    ∃ w', run (World.step cr hs) w (copies.map fun copy => .arrive copy.1 copy.2) = some w' ∧
      w'.sessions.length = w.sessions.length + copies.length := by
  induction copies generalizing w with
  | nil => exact ⟨w, rfl, rfl⟩
  | cons copy copies ih =>
    obtain ⟨hnow, hopen, hin⟩ := hcopies copy (by simp)
    obtain ⟨w₁, hstep, hlen, hstill⟩ := copy_reopens hsign hcenv hwelcome hnow hopen hin
    obtain ⟨w', hrun, hlen'⟩ := ih w₁ hstill fun copy hcopy => hcopies copy (by simp [hcopy])
    refine ⟨w', ?_, ?_⟩
    · rw [List.map_cons, run_cons, hstep]
      exact hrun
    · rw [hlen', hlen, List.length_cons]
      omega

def replayed : NetConn where
  rx := { chunks := [(deviceRequest echoCrypto enrolled onTheTrain).marshal], fin := .eof }

/-- The same bytes, three times within the minute, and the disk is full the second time. -/
def copiedThrice : List (ServerEnv × NetConn) :=
  [(nextBucket, replayed),
    ({ nextBucket with now := 75 * second, save := .writeFails 0 (.other "no space left on device") }, replayed),
    ({ nextBucket with now := 89 * second }, replayed)]

theorem copies_reopen_thrice :
    ∃ w', run (World.step echoCrypto ⟨[]⟩) ⟨some enrolledRegistry, [], [], [], []⟩
        (copiedThrice.map fun copy => .arrive copy.1 copy.2) = some w' ∧ w'.sessions.length = 3 := by
  refine copies_reopen echoCrypto ⟨[]⟩ (.device enrolled) onTheTrain ?_ ⟨by decide, by decide⟩ _ ?_ copiedThrice ?_
  · exact fun _ _ m => beq_self_eq_true _
  · exact ⟨enrolledRegistry, rfl, 0, _, rfl, rfl⟩
  · have hin : (Client.device enrolled).request echoCrypto onTheTrain <+: replayed.rx.content := ⟨[], rfl⟩
    unfold copiedThrice
    simp only [List.forall_mem_cons, List.not_mem_nil, false_implies, implies_true, and_true]
    exact ⟨⟨⟨by decide, by decide⟩, (by decide : |_| ≤ _), hin⟩, ⟨⟨by decide, by decide⟩, (by decide : |_| ≤ _), hin⟩,
      ⟨by decide, by decide⟩, (by decide : |_| ≤ _), hin⟩

end Daxson.Auth
