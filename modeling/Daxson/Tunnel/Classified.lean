import Daxson.Auth.Aligned
import Daxson.Auth.Exact
import Daxson.Tunnel.Server

/-! # Which refusals count as failed authentications

`handleConn` tells a failed authentication from a broken connection by one sentinel error.
-/

open Lib.BigEndian

namespace Daxson.Tunnel

open Auth Invite Registry
open Protocol (protocolVersion)

/-- A success, or an error that `IsAuthFailed` knows. -/
def Classified : Except GoError ServerAuthResult → Prop
  | .ok _ => True
  | .error e => isAuthFailed e = true

/-- The stream begins with a request, whole for its mode. -/
def WholeRequest (b : Bytes) : Prop :=
  ∃ v t, b = v :: t ∧ (v = protocolVersion → 49 ≤ b.length) ∧ (v = msgTypeDeviceAuth → 121 ≤ b.length) ∧
    (v = msgTypeBootstrap → 145 ≤ b.length)

/-- What is behind the version byte fails the bucket test or the signature check. -/
def StaleOrUnsigned (cr : Crypto) (now : Time) (t : Bytes) : Prop :=
  (UInt64.ofNat (beVal (slice t 48 56)) < bucketOf now - 1 ∨ UInt64.ofNat (beVal (slice t 48 56)) > bucketOf now + 1) ∨
    cr.ed25519Verify (slice t 0 32) (slice t 0 32 ++ slice t 32 48 ++ slice t 48 56) (slice t 56 120) = false

/-! ## The modes -/

theorem serverHandshake_classified (cr : Crypto) (env : ServerEnv) (hs : Handshaker) (c : NetConn)
    (hsid : env.sidErr = none) (hw : env.write = .full) (hlen : 49 ≤ c.rx.content.length) :
    Classified (hmacResult (hs.serverHandshake cr env c).1) := by
  obtain ⟨rx, hread, -⟩ := readFull_ok 49 c.rx hlen
  unfold Handshaker.serverHandshake
  rw [show Protocol.authRequestSize = 49 from rfl, hread]
  dsimp only
  unfold Handshaker.answer
  rw [hsid, hw]
  split_ifs
  · exact rfl
  · exact rfl
  · trivial

theorem deviceServerHandshake_classified_iff (cr : Crypto) (env : ServerEnv) (r : Registry) (c : NetConn)
    (hlen : 120 ≤ c.rx.content.length) :
    Classified (deviceServerHandshake cr env [msgTypeDeviceAuth] r c).1 ↔
      ¬ StaleOrUnsigned cr env.now c.rx.content := by
  obtain ⟨rx, hread, -⟩ := readFull_ok 120 c.rx hlen
  obtain ⟨q, hq, hpub, hsig, hbucket, hmsg⟩ := unmarshal_fields msgTypeDeviceAuth hlen
  have hb : UInt64.ofNat (beVal (slice c.rx.content 48 56)) = q.timeBucket := by
    rw [← hbucket, UInt64.ofNat_toNat]
  unfold deviceServerHandshake
  rw [show deviceAuthRequestSize - 1 = 120 from rfl, hread]
  dsimp only
  unfold deviceAnswer StaleOrUnsigned
  rw [hq, hb, ← hmsg, ← hpub, ← hsig, ← verify_arrays]
  dsimp only
  split_ifs with hstale hverify hstatus
  · simp_all [Classified, isAuthFailed, GoError.is, errAuthFailed]
  · simp_all [Classified, isAuthFailed, GoError.is, errAuthFailed]
  · simp_all [Classified, isAuthFailed, GoError.is, errAuthFailed]
  · simp_all [Classified]

theorem bootstrapServerHandshake_classified (cr : Crypto) (env : ServerEnv) (r : Registry) (c : NetConn)
    (hsave : env.save = .ok) (hlen : 144 ≤ c.rx.content.length) :
    Classified (bootstrapServerHandshake cr env [msgTypeBootstrap] r c).1 := by
  obtain ⟨rx, hread, -⟩ := readFull_ok 144 c.rx hlen
  obtain ⟨q, hq⟩ := unmarshalBootstrapRequest_ok (b := [msgTypeBootstrap] ++ c.rx.content.take 144) (by
    rw [List.length_append, List.length_take, Nat.min_eq_left hlen]
    exact le_rfl)
  unfold bootstrapServerHandshake
  rw [show bootstrapRequestSize - 1 = 144 from rfl, hread]
  dsimp only
  unfold bootstrapAnswer
  rw [hq]
  dsimp only
  cases hred : redeemable env.now q.token.val r.data with
  | none =>
    obtain ⟨-, herr, hstatus⟩ := bootstrap_refused cr env.now env.save q.token.val q.devicePub.val
      (nullTrimBytes q.label.val) r hred
    rw [herr, if_pos (by simpa using hstatus)]
    rfl
  | some found =>
    obtain ⟨r', d, heq, -⟩ := bootstrap_saved cr env.now q.token.val q.devicePub.val (nullTrimBytes q.label.val) r
      (by simp [hred])
    rw [hsave, heq]
    trivial

/-! ## Dispatch -/

theorem serverDispatch_classified_iff (cr : Crypto) (env : ServerEnv) (hs : Handshaker) (reg : Option Registry)
    (c : NetConn) (hsave : env.save = .ok) (hsid : env.sidErr = none) (hw : env.write = .full)
    (hwhole : WholeRequest c.rx.content) :
    Classified (serverDispatch cr env hs reg c).1 ↔
      ¬ (reg.isSome ∧ ∃ t, c.rx.content = msgTypeDeviceAuth :: t ∧ StaleOrUnsigned cr env.now t) := by
  obtain ⟨v, t, hin, hlen1, hlen2, hlen3⟩ := hwhole
  rw [hin] at hlen1 hlen2 hlen3
  -- A bad device request needs the byte of the device mode.
  have hother : v ≠ msgTypeDeviceAuth → ¬ (reg.isSome ∧
      ∃ t, c.rx.content = msgTypeDeviceAuth :: t ∧ StaleOrUnsigned cr env.now t) := by
    rintro hv ⟨-, t', ht', -⟩
    rw [hin] at ht'
    exact hv (List.cons.inj ht').1
  by_cases h1 : v = protocolVersion
  · subst h1
    rw [(serverDispatch_hmac cr env hs reg c (by rw [hin]; rfl)).1]
    exact iff_of_true (serverHandshake_classified cr env hs c hsid hw (by rw [hin]; exact hlen1 rfl))
      (hother (by decide))
  obtain ⟨rx, hrx, hdevice, hbootstrap, hrefused⟩ := serverDispatch_first cr env hs reg c hin h1
  cases reg with
  | none =>
    rw [hrefused fun _ => rfl]
    exact iff_of_true rfl (by simp)
  | some r =>
    by_cases h2 : v = msgTypeDeviceAuth
    · subst h2
      have hlen : 120 ≤ rx.content.length := by
        have := hlen2 rfl
        rw [hrx]
        simpa using this
      rw [hdevice r rfl rfl, deviceServerHandshake_classified_iff cr env r { c with rx := rx } hlen, hin]
      simp [hrx]
    · by_cases h3 : v = msgTypeBootstrap
      · subst h3
        have hlen : 144 ≤ rx.content.length := by
          have := hlen3 rfl
          rw [hrx]
          simpa using this
        rw [hbootstrap r rfl rfl]
        exact iff_of_true (bootstrapServerHandshake_classified cr env r { c with rx := rx } hsave hlen) (hother h2)
      · rw [hrefused (by rintro (h | h) <;> contradiction)]
        exact iff_of_true rfl (hother h2)

/-- **Failed authentications** are classified, but for stale and unsigned device requests. -/
theorem failures_classified_iff (cr : Crypto) (env : ServerEnv) (p : ProbeEnv) (s : Server) (c : NetConn)
    (hsave : env.save = .ok) (hsid : env.sidErr = none) (hw : env.write = .full)
    (hwhole : WholeRequest c.rx.content) :
    (((∃ res, (serverDispatch cr env s.hmacAuth s.reg c).1 = .ok res) ∨
        ∃ e, (serverDispatch cr env s.hmacAuth s.reg c).1 = .error e ∧ isAuthFailed e = true) ↔
      ¬ (s.reg.isSome ∧ ∃ t, c.rx.content = msgTypeDeviceAuth :: t ∧ StaleOrUnsigned cr env.now t)) ∧
    ((∀ e, (handleConn cr env p s c).fate ≠ .dropped e) ↔
      ¬ (s.reg.isSome ∧ ∃ t, c.rx.content = msgTypeDeviceAuth :: t ∧ StaleOrUnsigned cr env.now t)) := by
  rw [← serverDispatch_classified_iff cr env s.hmacAuth s.reg c hsave hsid hw hwhole]
  unfold handleConn
  generalize serverDispatch cr env s.hmacAuth s.reg c = x
  obtain ⟨res, c', reg'⟩ := x
  cases res with
  | ok res => simp [Classified]
  | error e => cases he : isAuthFailed e <;> simp [Classified, he]

theorem stale_device_dropped :
    let cenv : ClientEnv := { now := 60 * second, nonce := copyArr 16 [] }
    let env : ServerEnv := { now := 120 * second, sid := copyArr 16 [], failBytes := copyArr 16 [] }
    let c : NetConn := { rx := { chunks := [(deviceRequest echoCrypto enrolled cenv).marshal], fin := .eof } }
    let s : Server := { hmacAuth := ⟨[]⟩, reg := some enrolledRegistry }
    ∃ e, (handleConn echoCrypto env {} s c).fate = .dropped e ∧ isAuthFailed e = false :=
  ⟨.new "device auth server: stale time bucket" [], by decide +kernel, by decide +kernel⟩

theorem failures_classified_unknown_version :
    let env : ServerEnv := { now := 120 * second, sid := copyArr 16 [], failBytes := copyArr 16 [] }
    let c : NetConn := { rx := { chunks := [[0x47]], fin := .eof } }
    ∀ e, (handleConn echoCrypto env {} { hmacAuth := ⟨[]⟩, reg := some enrolledRegistry } c).fate ≠ .dropped e := by
  intro env c
  have hwhole : WholeRequest c.rx.content := ⟨0x47, [], rfl, by decide, by decide, by decide⟩
  refine (failures_classified_iff echoCrypto env {} { hmacAuth := ⟨[]⟩, reg := some enrolledRegistry } c rfl rfl rfl
    hwhole).2.mpr ?_
  rintro ⟨-, t, ht, -⟩
  exact absurd (List.cons.inj ht).1 (by decide)

end Daxson.Tunnel
