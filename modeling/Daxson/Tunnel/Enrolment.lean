import Daxson.Auth.Calls
import Daxson.Registry.Revocation
import Daxson.Registry.ShortID
import Daxson.Tunnel.Server

/-! # Registration and authorization

`Bootstrap` looks only at the invites, and `AuthorizeDevice` only at the first entry with the key.
-/

open Lib.Grow

namespace Daxson.Registry

open Invite

theorem register_revokedKey_iff (d : StoreData) (x : Device) (invites : List InviteRecord)
    (hx : x.revoked = false) :
    (Authorized x.pubKey { devices := d.devices ++ [x], invites := invites } ↔ ¬RevokedKey x.pubKey d) ∧
      (RevokedKey x.pubKey { devices := d.devices ++ [x], invites := invites } ↔ RevokedKey x.pubKey d) := by
  unfold Authorized RevokedKey
  rw [firstMatch_append_singleton _ _ x ((bytesEqual_iff _ _).mpr rfl)]
  cases firstMatch (fun y : Device => bytesEqual y.pubKey x.pubKey) d.devices with
  | none => simp [hx]
  | some m => obtain ⟨i, y⟩ := m; simp

theorem bootstrap_revokedKey_iff (cr : Crypto) (now : Time) (o : SaveOutcome) (token pub label : Bytes)
    (r : Registry) (h : (redeemable now token r.data).isSome) :
    (Authorized pub (r.bootstrap cr now o token pub label).2.data ↔ ¬RevokedKey pub r.data) ∧
      (RevokedKey pub (r.bootstrap cr now o token pub label).2.data ↔ RevokedKey pub r.data) := by
  obtain ⟨⟨i, found⟩, hred⟩ := Option.isSome_iff_exists.mp h
  rw [bootstrap_redeemed cr now o token pub label r hred, save_data]
  exact register_revokedKey_iff r.data (newDevice cr now pub label) _ rfl

end Daxson.Registry

namespace Daxson.Tunnel

open Invite Auth Registry
open Protocol (protocolVersion)

theorem handleConn_session_iff (cr : Crypto) (env : ServerEnv) (p : ProbeEnv) (s : Server) (c : NetConn)
    (res : ServerAuthResult) :
    (handleConn cr env p s c).fate = .session res ↔ (serverDispatch cr env s.hmacAuth s.reg c).1 = .ok res := by
  unfold handleConn
  rcases serverDispatch cr env s.hmacAuth s.reg c with ⟨res' | res', c', reg'⟩
  · dsimp only
    split_ifs <;> simp
  · simp

theorem handleConn_reg (cr : Crypto) (env : ServerEnv) (p : ProbeEnv) (s : Server) (c : NetConn) :
    (handleConn cr env p s c).reg = (serverDispatch cr env s.hmacAuth s.reg c).2.2 := by
  unfold handleConn
  rcases serverDispatch cr env s.hmacAuth s.reg c with ⟨res' | res', c', reg'⟩
  · dsimp only
    split_ifs <;> rfl
  · rfl

/-- The connection became a session of bootstrap mode for the key. -/
def BootstrapSession (h : Handled) (pub : Bytes) : Prop :=
  ∃ res, h.fate = .session res ∧ res.mode = .bootstrap ∧ res.devicePub = some pub

instance (h : Handled) (pub : Bytes) : Decidable (BootstrapSession h pub) :=
  decidable_of_iff ((match h.fate with
      | .session res => decide (res.mode = .bootstrap ∧ res.devicePub = some pub)
      | _ => false) = true) <| by
    unfold BootstrapSession
    cases h.fate <;> simp

theorem bootstrapSession_refused_iff {cr : Crypto} {env : ServerEnv} {p : ProbeEnv} {s : Server} {r : Registry}
    {c : NetConn} {pub : Bytes} (h : BootstrapSession (handleConn cr env p { s with reg := some r } c) pub) :
    ∃ r', (handleConn cr env p { s with reg := some r } c).reg = some r' ∧
      ∀ now o, (r'.authorizeDevice now o pub).1 = authStatusRevoked ↔ RevokedKey pub r.data := by
  obtain ⟨res, hfate, hmode, hpub⟩ := h
  rw [handleConn_session_iff] at hfate
  obtain ⟨q, -, hpub', hreply, hreg⟩ := serverDispatch_bootstrap hfate hmode
  obtain rfl : pub = q.devicePub.val := by simpa [hpub] using hpub'
  have hred : (redeemable env.now q.token.val r.data).isSome := by
    rw [← bootstrap_status_iff cr env.now env.save q.token.val q.devicePub.val (nullTrimBytes q.label.val)]
    exact (Reply.bootstrap.inj hreply).1
  refine ⟨_, (handleConn_reg cr env p { s with reg := some r } c).trans hreg, fun now o => ?_⟩
  rw [authorizeDevice_revoked_iff]
  exact (bootstrap_revokedKey_iff cr env.now env.save q.token.val q.devicePub.val (nullTrimBytes q.label.val) r hred).2

/-- A registration lets its key in exactly where the key's first entry was not revoked before. -/
theorem registration_agrees_iff (cr : Crypto) (r : Registry) :
    (∀ (now : Time) (o : SaveOutcome) (token pub label : Bytes),
      ((r.bootstrap cr now o token pub label).1.1 = bootstrapStatusOK → ∀ now' o',
          ((r.bootstrap cr now o token pub label).2.authorizeDevice now' o' pub).1 = Invite.authStatusOK) ↔
        (redeemable now token r.data = none ∨ ¬RevokedKey pub r.data)) ∧
      ∀ (env : ServerEnv) (p : ProbeEnv) (s : Server) (c : NetConn) (pub : Bytes),
        let h := handleConn cr env p { s with reg := some r } c
        (BootstrapSession h pub → ∃ r', h.reg = some r' ∧ ∀ now' o',
            (r'.authorizeDevice now' o' pub).1 ≠ authStatusRevoked) ↔
          (BootstrapSession h pub → ¬RevokedKey pub r.data) := by
  refine ⟨fun now o token pub label => ?_, fun env p s c pub => ?_⟩
  · simp only [bootstrap_status_iff, authorizeDevice_ok_iff]
    cases hred : redeemable now token r.data with
    | none => simp
    | some found =>
      have hiff := (bootstrap_revokedKey_iff cr now o token pub label r (by simp [hred])).1
      rw [hiff]
      exact ⟨fun h => .inr (h rfl 0 .ok), fun h _ _ _ => h.resolve_left (by simp)⟩
  · refine imp_congr_right fun hsess => ?_
    obtain ⟨r', hreg, hiff⟩ := bootstrapSession_refused_iff hsess
    constructor
    · rintro ⟨r'', hreg', hok⟩ hrev
      obtain rfl : r' = r'' := Option.some.inj (hreg.symm.trans hreg')
      exact hok 0 .ok ((hiff 0 .ok).mpr hrev)
    · intro hno
      exact ⟨r', hreg, fun now o => mt (hiff now o).mp hno⟩

/-- Both registrations of a revoked key are answered with OK, and the device mode refuses it. -/
theorem reregistered_key_refused :
    let tok : ByteArr 32 := ⟨List.replicate 32 7, rfl⟩
    let pub : Bytes := List.replicate 32 1
    let r := (fresh [] none).execAll hashCrypto
      [.createInvite 0 .ok (.ok tok) [] 5 0, .bootstrap 0 .ok tok.val pub [],
        .revokeDevice .ok (shortDeviceID hashCrypto pub)]
    let request : Bytes := [0x03] ++ tok.val ++ pub ++ List.replicate 80 0
    let env : ServerEnv := { now := 0, sid := ⟨List.replicate 16 0, rfl⟩, failBytes := ⟨List.replicate 16 0, rfl⟩ }
    let h := handleConn hashCrypto env {} { hmacAuth := ⟨[]⟩, reg := some r }
      { rx := { chunks := [request], fin := .eof } }
    (r.bootstrap hashCrypto 0 .ok tok.val pub []).1 = (bootstrapStatusOK, none) ∧
      ((r.bootstrap hashCrypto 0 .ok tok.val pub []).2.authorizeDevice 0 .ok pub).1 = authStatusRevoked ∧
      BootstrapSession h pub ∧
      (h.reg.map fun r' => (r'.authorizeDevice 0 .ok pub).1) = some authStatusRevoked := by
  decide +kernel

end Daxson.Tunnel
