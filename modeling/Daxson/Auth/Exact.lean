import Daxson.Auth.Agreement
import Daxson.Registry.ShortID

/-! # Device authentication is exact -/

open Lib.BigEndian

namespace Daxson.Auth

open Invite Registry
open Protocol (protocolVersion)

/-- The 120 bytes behind the version byte: PubKey, Nonce, TimeBucket and Sig. -/
structure GoodRequest (cr : Crypto) (now : Time) (t : Bytes) : Prop where
  complete : 120 ≤ t.length
  fresh : |(beVal (slice t 48 56) : Int) - now.unix / 30| ≤ 1
  signed : cr.ed25519Verify (slice t 0 32) (slice t 0 32 ++ slice t 32 48 ++ slice t 48 56) (slice t 56 120) = true

/-! ## The time bucket -/

/-- The times for which `now - 1` does not wrap. `Unix` is an `int64`. -/
structure Clocked (t : Time) : Prop where
  started : 30 * second ≤ t
  ranged : t.unix < 2 ^ 63

theorem unix_div_pos {t : Time} (h : 30 * second ≤ t) : 1 ≤ t.unix / 30 := by
  unfold Time.unix second at *
  rw [Int.fdiv_eq_ediv_of_nonneg _ (by norm_num)]
  omega

theorem bucketOf_toNat {t : Time} (h : Clocked t) : ((bucketOf t).toNat : Int) = t.unix / 30 := by
  have hpos := unix_div_pos h.started
  have hlt := h.ranged
  unfold bucketOf
  rw [Int.tdiv_eq_ediv_of_nonneg (by omega)]
  obtain ⟨n, hn⟩ := Int.eq_ofNat_of_zero_le (by omega : 0 ≤ t.unix / 30)
  rw [hn, Int.natCast_inj]
  unfold UInt64.ofInt
  simp
  omega

theorem stale_iff {t : Time} (h : Clocked t) (b : UInt64) :
    (b < bucketOf t - 1 ∨ b > bucketOf t + 1) ↔ ¬|(b.toNat : Int) - t.unix / 30| ≤ 1 := by
  have hnow := bucketOf_toNat h
  have hpos := unix_div_pos h.started
  have hlt := h.ranged
  generalize bucketOf t = now at hnow ⊢
  have hsub : (now - 1).toNat = now.toNat - 1 := by
    rw [UInt64.toNat_sub_of_le]
    · rfl
    · rw [UInt64.le_iff_toNat_le]
      change 1 ≤ now.toNat
      omega
  have hadd : (now + 1).toNat = now.toNat + 1 := by
    rw [UInt64.toNat_add]
    change (now.toNat + 1) % 2 ^ 64 = _
    omega
  rw [gt_iff_lt, UInt64.lt_iff_toNat_lt, UInt64.lt_iff_toNat_lt, hsub, hadd, abs_le]
  omega

/-! ## The fields -/

theorem unmarshal_fields (v : UInt8) {t : Bytes} (h : 120 ≤ t.length) :
    ∃ q, unmarshalDeviceAuthRequest ([v] ++ t.take 120) = .ok q ∧ q.pubKey.val = slice t 0 32 ∧
      q.sig.val = slice t 56 120 ∧ q.timeBucket.toNat = beVal (slice t 48 56) ∧
      signedMessage q.pubKey q.nonce q.timeBucket = slice t 0 32 ++ slice t 32 48 ++ slice t 48 56 := by
  have hb : (slice t 48 56).length = 8 := slice_length t (by omega)
  have hlen : deviceAuthRequestSize ≤ ([v] ++ t.take 120).length := by
    unfold deviceAuthRequestSize
    simp
    omega
  have hfield (lo hi : Nat) (hh : hi ≤ 120) : slice ([v] ++ t.take 120) (lo + 1) (hi + 1) = slice t lo hi :=
    slice_take t hh
  have hbucket : (UInt64.ofNat (beVal (slice t 48 56))).toNat = beVal (slice t 48 56) := by
    apply UInt64.toNat_ofNat_of_lt'
    have := beVal_lt (slice t 48 56)
    rw [hb] at this
    exact this
  have hpub : (copyArr 32 (slice t 0 32)).val = slice t 0 32 := copyArr_of_length (slice_length t (by omega))
  have hnonce : (copyArr 16 (slice t 32 48)).val = slice t 32 48 := copyArr_of_length (slice_length t (by omega))
  unfold unmarshalDeviceAuthRequest
  rw [if_neg (Nat.not_lt.mpr hlen), hfield 0 32 (by omega), hfield 32 48 (by omega),
    hfield 48 56 (by omega), hfield 56 120 (by omega)]
  refine ⟨_, rfl, hpub, copyArr_of_length (slice_length t h), hbucket, ?_⟩
  have hbytes := beBytes_beVal (slice t 48 56)
  rw [hb] at hbytes
  unfold signedMessage
  dsimp only
  rw [hbucket, hpub, hnonce, hbytes]

/-! ## The server's answer -/

theorem verify_arrays (cr : Crypto) (pub : ByteArr 32) (msg : Bytes) (sig : ByteArr 64) :
    verify cr pub.val msg sig.val = cr.ed25519Verify pub.val msg sig.val := by
  simp [verify, pub.property, sig.property]

/-- The server lets the device with the key `pub` in. -/
def Admits (pub : Bytes) (res : Except GoError ServerAuthResult) : Prop :=
  ∃ sid, res = .ok { sessionID := sid, devicePub := some pub, mode := .device }

theorem deviceAnswer_admits_iff (cr : Crypto) (env : ServerEnv) {full : Bytes} {q : DeviceAuthRequest} (r : Registry)
    (c : NetConn) (pub : Bytes) (hq : unmarshalDeviceAuthRequest full = .ok q) :
    Admits pub (deviceAnswer cr env full r c).1 ↔
      ¬(q.timeBucket < bucketOf env.now - 1 ∨ q.timeBucket > bucketOf env.now + 1) ∧
        verify cr q.pubKey.val (signedMessage q.pubKey q.nonce q.timeBucket) q.sig.val = true ∧
        Authorized q.pubKey.val r.data ∧ q.pubKey.val = pub := by
  unfold deviceAnswer Admits
  rw [hq, ← authorizeDevice_ok_iff env.now env.save]
  simp only
  split_ifs with hstale hsig hstatus <;> simp_all

theorem serverDispatch_first (cr : Crypto) (env : ServerEnv) (hs : Handshaker) (reg : Option Registry) (c : NetConn)
    {v : UInt8} {t : Bytes} (hin : c.rx.content = v :: t) (hv : v ≠ protocolVersion) :
    ∃ rx : ByteReader, rx.content = t ∧
      (∀ r, v = msgTypeDeviceAuth → reg = some r →
        (serverDispatch cr env hs reg c).1 = (deviceServerHandshake cr env [v] r { c with rx := rx }).1) ∧
      (∀ r, v = msgTypeBootstrap → reg = some r →
        (serverDispatch cr env hs reg c).1 = (bootstrapServerHandshake cr env [v] r { c with rx := rx }).1) ∧
      ((v = msgTypeDeviceAuth ∨ v = msgTypeBootstrap → reg = none) →
        (serverDispatch cr env hs reg c).1 = .error errAuthFailed) := by
  obtain ⟨rx, hread, hrx⟩ := readFull_first hin
  refine ⟨rx, hrx, ?_⟩
  unfold serverDispatch
  rw [hread]
  dsimp only
  rw [List.headD_cons, if_neg hv]
  refine ⟨?_, ?_, ?_⟩
  · rintro r rfl rfl
    rfl
  · rintro r rfl rfl
    rfl
  · intro hnone
    by_cases h2 : v = msgTypeDeviceAuth
    · rw [if_pos h2, hnone (.inl h2)]
    · rw [if_neg h2]
      by_cases h3 : v = msgTypeBootstrap
      · rw [if_pos h3, hnone (.inr h3)]
      · rw [if_neg h3]

theorem deviceServerHandshake_admits_iff (cr : Crypto) (env : ServerEnv) (hnow : Clocked env.now) (r : Registry)
    (c : NetConn) {t : Bytes} (hin : c.rx.content = t) (pub : Bytes) :
    Admits pub (deviceServerHandshake cr env [msgTypeDeviceAuth] r c).1 ↔
      GoodRequest cr env.now t ∧ slice t 0 32 = pub ∧ Authorized pub r.data := by
  unfold deviceServerHandshake
  by_cases hlen : 120 ≤ t.length
  · obtain ⟨rx, heq, -⟩ := readFull_ok 120 c.rx (by rw [hin]; exact hlen)
    obtain ⟨q, hq, hpub, hsig, hbucket, hmsg⟩ := unmarshal_fields msgTypeDeviceAuth hlen
    rw [show deviceAuthRequestSize - 1 = 120 from rfl, heq, hin]
    dsimp only
    rw [deviceAnswer_admits_iff cr env r _ pub hq, stale_iff hnow, verify_arrays, hpub, hsig, hbucket, hmsg, not_not]
    constructor
    · rintro ⟨hfresh, hsigned, hauth, rfl⟩
      exact ⟨⟨hlen, hfresh, hsigned⟩, rfl, hauth⟩
    · rintro ⟨hgood, rfl, hauth⟩
      exact ⟨hgood.fresh, hgood.signed, hauth, rfl⟩
  · obtain ⟨e, rx, heq, -⟩ := readFull_short 120 c.rx (by rw [hin]; omega)
    rw [show deviceAuthRequestSize - 1 = 120 from rfl, heq]
    constructor
    · rintro ⟨sid, h⟩
      cases h
    · rintro ⟨hgood, -⟩
      exact absurd hgood.complete hlen

/-! ## The client's request -/

theorem deviceRequest_good (cr : Crypto) (kp : KeyPair) (env : ClientEnv) {now : Time} (hnow : Clocked now)
    (hsign : ∀ m, cr.ed25519Verify kp.publicKey.val m (cr.ed25519Sign kp.privateKey.val m) = true)
    (hbucket : |((bucketOf env.now).toNat : Int) - (bucketOf now).toNat| ≤ 1) :
    ∃ t, (deviceRequest cr kp env).marshal = msgTypeDeviceAuth :: t ∧ GoodRequest cr now t ∧
      slice t 0 32 = kp.publicKey.val := by
  let req := deviceRequest cr kp env
  let t := req.pubKey.val ++ (req.nonce.val ++ (beBytes 8 req.timeBucket.toNat ++ req.sig.val))
  have hmarshal : req.marshal = msgTypeDeviceAuth :: t := rfl
  have hlen : t.length = 120 := by
    have := req.marshal_length
    rw [hmarshal] at this
    simpa using this
  -- The server's reading of the request gives the request back, so the slices are its fields.
  obtain ⟨q, hq, hpub, hsig, hb, hmsg⟩ := unmarshal_fields msgTypeDeviceAuth hlen.ge
  have hround : [msgTypeDeviceAuth] ++ t.take 120 = req.marshal := by
    rw [List.take_of_length_le hlen.le]
    rfl
  rw [hround, unmarshalDeviceAuthRequest_marshal, Except.ok.injEq] at hq
  subst hq
  have hkey : req.pubKey.val = kp.publicKey.val := congrArg Subtype.val (copyArr_val kp.publicKey)
  refine ⟨t, hmarshal, ⟨hlen.ge, ?_, ?_⟩, hpub.symm.trans hkey⟩
  · rw [← hb, ← bucketOf_toNat hnow]
    exact hbucket
  · rw [← hmsg, ← hpub, ← hsig, hkey]
    have hs : req.sig.val = cr.ed25519Sign kp.privateKey.val (signedMessage req.pubKey req.nonce req.timeBucket) :=
      copyArr_of_length (cr.ed25519Sign_length _ _)
    rw [hs]
    exact hsign _

/-- The server admits a device exactly on a complete, fresh and signed request of an authorized key. -/
theorem device_auth_exact (cr : Crypto) (env : ServerEnv) (hnow : Clocked env.now) :
    (∀ (hs : Handshaker) (reg : Option Registry) (c : NetConn) (t pub : Bytes),
      c.rx.content = msgTypeDeviceAuth :: t →
      (Admits pub (serverDispatch cr env hs reg c).1 ↔
        GoodRequest cr env.now t ∧ slice t 0 32 = pub ∧ ∃ r, reg = some r ∧ Authorized pub r.data)) ∧
    ∀ (kp : KeyPair) (cenv : ClientEnv) (c : NetConn),
      (∀ m, cr.ed25519Verify kp.publicKey.val m (cr.ed25519Sign kp.privateKey.val m) = true) →
      |((bucketOf cenv.now).toNat : Int) - (bucketOf env.now).toNat| ≤ 1 →
      ∃ t, (deviceHandshake cr kp cenv c).2.tx = c.tx ++ cenv.write.delivered (msgTypeDeviceAuth :: t) ∧
        GoodRequest cr env.now t ∧ slice t 0 32 = kp.publicKey.val := by
  constructor
  · intro hs reg c t pub hin
    obtain ⟨rx, hrx, hdevice, -, hrefused⟩ := serverDispatch_first cr env hs reg c hin (by decide)
    cases reg with
    | none =>
      rw [hrefused fun _ => rfl]
      simp [Admits]
    | some r =>
      rw [hdevice r rfl rfl, deviceServerHandshake_admits_iff cr env hnow r _ hrx pub]
      simp
  · intro kp cenv c hsign hbucket
    obtain ⟨t, ht, hgood, hkey⟩ := deviceRequest_good cr kp cenv hnow hsign hbucket
    exact ⟨t, by rw [deviceHandshake, statusExchange_tx, ht], hgood, hkey⟩

/-- A scheme that accepts the one signature it makes. -/
def echoCrypto : Crypto :=
  { hashCrypto with ed25519Verify := fun _ _ sig => sig == List.replicate 64 0xFF }

def enrolled : KeyPair := ⟨⟨List.replicate 32 7, rfl⟩, ⟨List.replicate 64 9, rfl⟩⟩

def enrolledRegistry : Registry where
  data := { devices := [{ pubKey := enrolled.publicKey.val, deviceID := [], label := [], registeredAt := 0 }] }

theorem device_auth_exact_one_behind :
    let cenv : ClientEnv := { now := 59 * second, nonce := copyArr 16 [] }
    let env : ServerEnv := { now := 60 * second, sid := copyArr 16 [], failBytes := copyArr 16 [] }
    ∃ t,
      (deviceHandshake echoCrypto enrolled cenv { rx := { chunks := [], fin := .eof } }).2.tx = msgTypeDeviceAuth :: t ∧
      Admits enrolled.publicKey.val (serverDispatch echoCrypto env ⟨[]⟩ (some enrolledRegistry)
        { rx := { chunks := [msgTypeDeviceAuth :: t], fin := .eof } }).1 := by
  intro cenv env
  obtain ⟨hserver, hclient⟩ := device_auth_exact echoCrypto env ⟨by decide, by decide⟩
  obtain ⟨t, htx, hgood, hkey⟩ := hclient enrolled cenv { rx := { chunks := [], fin := .eof } }
    (fun m => beq_self_eq_true _) (by decide)
  have hauth : Authorized enrolled.publicKey.val enrolledRegistry.data := ⟨0, _, rfl, rfl⟩
  refine ⟨t, htx, (hserver ⟨[]⟩ (some enrolledRegistry) _ t _ (List.append_nil _)).mpr ?_⟩
  exact ⟨hgood, hkey, enrolledRegistry, rfl, hauth⟩

end Daxson.Auth
