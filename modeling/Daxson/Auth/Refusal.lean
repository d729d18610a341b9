import Daxson.Auth.Exact
import Daxson.Registry.Revocation

/-! # What a refusal tells the device

`AuthorizeDevice` keeps an unknown key and a revoked one apart, and the first byte of the response says which.
-/

open Lib.BigEndian Lib.Grow

namespace Daxson.Auth

open Invite Registry

/-- A request for the key `pub` that is signed and lies in the server's window of buckets, in the 120
bytes behind the version byte. -/
structure SignedRequest (cr : Crypto) (now : Time) (t pub : Bytes) : Prop where
  complete : 120 ≤ t.length
  key : slice t 0 32 = pub
  window : let b := UInt64.ofNat (beVal (slice t 48 56)); ¬(b < bucketOf now - 1 ∨ b > bucketOf now + 1)
  signed : cr.ed25519Verify pub (pub ++ slice t 32 48 ++ slice t 48 56) (slice t 56 120) = true

/-- No device has the key. -/
def AbsentKey (pub : Bytes) (d : StoreData) : Prop := ∀ x ∈ d.devices, x.pubKey ≠ pub

theorem authorizeDevice_absent {pub : Bytes} {r : Registry} (h : AbsentKey pub r.data) (now : Time) (o : SaveOutcome) :
    (r.authorizeDevice now o pub).1 = authStatusUnknown := by
  have hnone : firstMatch (fun x : Device => bytesEqual x.pubKey pub) r.data.devices = none := by
    rw [firstMatch_eq_none_iff]
    intro x hx
    rw [← Bool.not_eq_true, bytesEqual_iff]
    exact h x hx
  unfold authorizeDevice
  rw [hnone]

theorem deviceServerHandshake_response (cr : Crypto) (env : ServerEnv) (r : Registry) (c : NetConn) {pub : Bytes}
    (h : SignedRequest cr env.now c.rx.content pub) :
    (deviceServerHandshake cr env [msgTypeDeviceAuth] r c).2.1.tx =
      c.tx ++ env.write.delivered (StatusResponse.marshal ⟨(r.authorizeDevice env.now env.save pub).1, env.sid⟩) := by
  obtain ⟨hlen, hkey, hwindow, hsigned⟩ := h
  obtain ⟨rx, heq, -⟩ := readFull_ok 120 c.rx hlen
  obtain ⟨q, hq, hpub, hsig, hbucket, hmsg⟩ := unmarshal_fields msgTypeDeviceAuth hlen
  rw [hkey] at hpub hmsg
  have hverify : verify cr q.pubKey.val (signedMessage q.pubKey q.nonce q.timeBucket) q.sig.val = true := by
    rw [verify_arrays, hpub, hsig, hmsg]
    exact hsigned
  have hfresh : ¬(q.timeBucket < bucketOf env.now - 1 ∨ q.timeBucket > bucketOf env.now + 1) := by
    rw [← hbucket, UInt64.ofNat_toNat] at hwindow
    exact hwindow
  rw [hpub] at hverify
  unfold deviceServerHandshake
  rw [show deviceAuthRequestSize - 1 = 120 from rfl, heq]
  unfold deviceAnswer
  simp only [hq, hverify, Bool.not_true, Bool.false_eq_true, if_false, Bool.or_eq_true, decide_eq_true_eq, hfresh, hpub]
  split_ifs <;> rfl

theorem delivered_head_ne {a b : UInt8} (hab : a ≠ b) (o : WriteOutcome) {rest : Bytes} (hrest : rest ≠ []) :
    o.delivered (a :: rest) = o.delivered (b :: rest) ↔ ∃ e, o = .short 0 e := by
  have hlen : 0 < rest.length := List.length_pos_iff.mpr hrest
  cases o with
  | full => simp [WriteOutcome.delivered, hab]
  | short n e =>
    cases n with
    | zero => simp [WriteOutcome.delivered]
    | succ n =>
      obtain ⟨k, hk⟩ : ∃ k, min (n + 1) rest.length = k + 1 := ⟨min (n + 1) rest.length - 1, by omega⟩
      simp [WriteOutcome.delivered, hk, hab]

/-- The responses to an unknown and to a revoked key are alike exactly when none of a response goes out. -/
theorem refusals_alike_iff (cr : Crypto) (env : ServerEnv) (c : NetConn) (pub : Bytes) (r₁ r₂ : Registry)
    (hreq : SignedRequest cr env.now c.rx.content pub) (h₁ : AbsentKey pub r₁.data) (h₂ : RevokedKey pub r₂.data) :
    (deviceServerHandshake cr env [msgTypeDeviceAuth] r₁ c).2.1.tx =
        (deviceServerHandshake cr env [msgTypeDeviceAuth] r₂ c).2.1.tx ↔
      ∃ e, env.write = .short 0 e := by
  have hunknown := authorizeDevice_absent h₁ env.now env.save
  have hrevoked := (authorizeDevice_revoked_iff env.now env.save pub r₂).mpr h₂
  rw [deviceServerHandshake_response cr env r₁ c hreq, deviceServerHandshake_response cr env r₂ c hreq, hunknown,
    hrevoked, List.append_cancel_left_eq]
  have hstatus : authStatusUnknown ≠ authStatusRevoked := by decide
  have hsid : env.sid.val ≠ [] := List.length_pos_iff.mp (by rw [env.sid.property]; decide)
  exact delivered_head_ne hstatus env.write hsid

def pendingRequest : NetConn where
  rx := { chunks := [(deviceRequest echoCrypto enrolled { now := 60 * second, nonce := copyArr 16 [] }).marshal.drop 1],
          fin := .eof }

def revokedRegistry : Registry where
  data := { devices := enrolledRegistry.data.devices.map fun x => { x with revoked := true } }

theorem pendingRequest_signed :
    SignedRequest echoCrypto (60 * second) pendingRequest.rx.content enrolled.publicKey.val :=
  ⟨by decide +kernel, by decide +kernel, by decide +kernel, by decide +kernel⟩

theorem refusals_alike_unsent :
    let env : ServerEnv :=
      { now := 60 * second, sid := copyArr 16 [], failBytes := copyArr 16 [], write := .short 0 .closed }
    (deviceServerHandshake echoCrypto env [msgTypeDeviceAuth] {} pendingRequest).2.1.tx =
      (deviceServerHandshake echoCrypto env [msgTypeDeviceAuth] revokedRegistry pendingRequest).2.1.tx := by
  intro env
  apply (refusals_alike_iff echoCrypto env pendingRequest enrolled.publicKey.val {} revokedRegistry
    pendingRequest_signed (by simp [AbsentKey]) ⟨0, _, rfl, rfl⟩).mpr
  exact ⟨.closed, rfl⟩

theorem refusal_names_revocation :
    let env : ServerEnv := { now := 60 * second, sid := copyArr 16 [], failBytes := copyArr 16 [] }
    SignedRequest echoCrypto env.now pendingRequest.rx.content enrolled.publicKey.val ∧
      AbsentKey enrolled.publicKey.val ({} : Registry).data ∧ RevokedKey enrolled.publicKey.val revokedRegistry.data ∧
      (deviceServerHandshake echoCrypto env [msgTypeDeviceAuth] {} pendingRequest).2.1.tx =
        authStatusUnknown :: env.sid.val ∧
      (deviceServerHandshake echoCrypto env [msgTypeDeviceAuth] revokedRegistry pendingRequest).2.1.tx =
        authStatusRevoked :: env.sid.val :=
  ⟨pendingRequest_signed, by simp [AbsentKey], ⟨0, _, rfl, rfl⟩, by decide +kernel, by decide +kernel⟩

end Daxson.Auth
