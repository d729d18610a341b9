import Daxson.Auth.Exact
import Daxson.Json.Proofs

/-! # The clock skew of the HMAC and device modes

The device mode takes the next bucket on both sides, and the HMAC mode only the one before.
-/

open Lib.BigEndian

namespace Daxson.Auth

open Invite

/-- HMAC takes the messages of one nonce to tokens of their own. A bucket is an `int64`. -/
def TokenInjective (cr : Crypto) (psk nonce : Bytes) : Prop :=
  ∀ a b : Int, 0 ≤ a → a < 2 ^ 63 → 0 ≤ b → b < 2 ^ 63 →
    computeToken cr psk nonce (formatInt a) = computeToken cr psk nonce (formatInt b) → a = b

/-! ## HMAC -/

theorem timeBucket_now {t : Time} (h : Clocked t) : timeBucket t = formatInt (t.unix / 30) := by
  have hpos := unix_div_pos h.started
  unfold timeBucket
  rw [Int.tdiv_eq_ediv_of_nonneg (by omega)]

theorem timeBucket_before {t : Time} (h : Clocked t) :
    timeBucket (t - 30 * second) = formatInt (t.unix / 30 - 1) := by
  have hpos := unix_div_pos h.started
  have hunix : (t - 30 * second).unix = t.unix - 30 := by
    unfold Time.unix second
    rw [Int.fdiv_eq_ediv_of_nonneg _ (by norm_num), Int.fdiv_eq_ediv_of_nonneg _ (by norm_num)]
    omega
  unfold timeBucket
  rw [hunix, Int.tdiv_eq_ediv_of_nonneg (by omega)]
  congr 1
  omega

theorem validToken_request_iff (cr : Crypto) (h : Handshaker) (nonce : ByteArr 16) {t u : Time} (ht : Clocked t)
    (hu : Clocked u) (hinj : TokenInjective cr h.psk nonce.val) :
    validToken cr h.psk t (h.request cr nonce u) = true ↔
      u.unix / 30 = t.unix / 30 ∨ u.unix / 30 = t.unix / 30 - 1 := by
  have htpos := unix_div_pos ht.started
  have hupos := unix_div_pos hu.started
  have htlt := ht.ranged
  have hult := hu.ranged
  unfold validToken
  rw [request_nonce, request_token, timeBucket_now ht, timeBucket_before ht, timeBucket_now hu, Bool.or_eq_true,
    beq_iff_eq, beq_iff_eq]
  constructor
  · rintro (heq | heq)
    · exact .inl (hinj _ _ (by omega) (by omega) (by omega) (by omega) heq)
    · exact .inr (hinj _ _ (by omega) (by omega) (by omega) (by omega) heq)
  · rintro (heq | heq)
    · exact .inl (by rw [heq])
    · exact .inr (by rw [heq])

theorem serverHandshake_accepts_iff (cr : Crypto) (h : Handshaker) (nonce : ByteArr 16) (u : Time) (env : ServerEnv)
    (c : NetConn) {rest : Bytes} (hsid : env.sidErr = none) (hw : env.write = .full)
    (hin : c.rx.content = h.request cr nonce u ++ rest) :
    (∃ sid, (h.serverHandshake cr env c).1 = .ok sid) ↔ validToken cr h.psk env.now (h.request cr nonce u) = true := by
  obtain ⟨rx, hread, -⟩ := readFull_ok Protocol.authRequestSize c.rx (by simp [hin])
  have hreq : c.rx.content.take Protocol.authRequestSize = h.request cr nonce u := by
    rw [hin]
    exact List.take_left' (request_length cr h nonce u)
  unfold Handshaker.serverHandshake
  rw [hread, hreq]
  dsimp only
  unfold Handshaker.answer
  rw [if_neg (by simp [Handshaker.request]), hsid, hw]
  cases hvalid : validToken cr h.psk env.now (h.request cr nonce u) with
  | false => simp
  | true => exact iff_of_true ⟨env.sid, rfl⟩ rfl

/-! ## Devices -/

def errStale : GoError := .new "device auth server: stale time bucket" []

theorem deviceAnswer_fresh_iff (cr : Crypto) (env : ServerEnv) (r : Registry) (c : NetConn) {full : Bytes}
    {q : DeviceAuthRequest} (hq : unmarshalDeviceAuthRequest full = .ok q) (hnow : Clocked env.now) :
    (deviceAnswer cr env full r c).1 ≠ .error errStale ↔ |(q.timeBucket.toNat : Int) - env.now.unix / 30| ≤ 1 := by
  have hstale := stale_iff hnow q.timeBucket
  unfold deviceAnswer
  rw [hq]
  dsimp only
  split_ifs with htest hverify hstatus
  · simp_all [errStale]
  · simp_all [errStale]
  · simp_all [errStale, errAuthFailed]
  · simp_all

theorem deviceServerHandshake_fresh_iff (cr : Crypto) (kp : KeyPair) (cenv : ClientEnv) (env : ServerEnv) (r : Registry)
    (d : NetConn) {rest : Bytes} (hnow : Clocked env.now) (hthen : Clocked cenv.now)
    (hin : msgTypeDeviceAuth :: d.rx.content = (deviceRequest cr kp cenv).marshal ++ rest) :
    (deviceServerHandshake cr env [msgTypeDeviceAuth] r d).1 ≠ .error errStale ↔
      |cenv.now.unix / 30 - env.now.unix / 30| ≤ 1 := by
  have hlen := (deviceRequest cr kp cenv).marshal_length
  have hall : (msgTypeDeviceAuth :: d.rx.content).length = 121 + rest.length := by
    rw [hin, List.length_append, hlen]
  obtain ⟨rx, hread, -⟩ := readFull_ok (deviceAuthRequestSize - 1) d.rx (by
    simp only [List.length_cons] at hall
    change 120 ≤ _
    omega)
  have hfull : [msgTypeDeviceAuth] ++ d.rx.content.take (deviceAuthRequestSize - 1) =
      (deviceRequest cr kp cenv).marshal := by
    have := congrArg (List.take 121) hin
    rw [List.take_left' hlen] at this
    exact this
  unfold deviceServerHandshake
  rw [hread]
  dsimp only
  rw [hfull, deviceAnswer_fresh_iff cr env r _ (unmarshalDeviceAuthRequest_marshal _) hnow]
  change |((bucketOf cenv.now).toNat : Int) - _| ≤ 1 ↔ _
  rw [bucketOf_toNat hthen]

/-! ## Both modes -/

/-- **Clock skew.** The two modes take the same requests exactly unless the client is one bucket ahead. -/
theorem clock_skew_alike_iff (cr : Crypto) (h : Handshaker) (kp : KeyPair) (env : ServerEnv) (cenv : ClientEnv)
    (r : Registry) (c d : NetConn) (rest rest' : Bytes) (hnow : Clocked env.now) (hthen : Clocked cenv.now)
    (hinj : TokenInjective cr h.psk cenv.nonce.val) (hsid : env.sidErr = none) (hw : env.write = .full)
    (hc : c.rx.content = h.request cr cenv.nonce cenv.now ++ rest)
    (hd : msgTypeDeviceAuth :: d.rx.content = (deviceRequest cr kp cenv).marshal ++ rest') :
    (((∃ sid, (h.serverHandshake cr env c).1 = .ok sid) ↔ |env.now.unix / 30 - cenv.now.unix / 30| ≤ 1) ∧
      ((deviceServerHandshake cr env [msgTypeDeviceAuth] r d).1 ≠ .error errStale ↔
        |env.now.unix / 30 - cenv.now.unix / 30| ≤ 1)) ↔
      cenv.now.unix / 30 ≠ env.now.unix / 30 + 1 := by
  rw [serverHandshake_accepts_iff cr h cenv.nonce cenv.now env c hsid hw hc,
    validToken_request_iff cr h cenv.nonce hnow hthen hinj,
    deviceServerHandshake_fresh_iff cr kp cenv env r d hnow hthen hd]
  generalize env.now.unix / 30 = t
  generalize cenv.now.unix / 30 = u
  rw [abs_sub_comm u t]
  constructor
  · rintro ⟨hmac, -⟩ rfl
    have := hmac.mpr (by rw [abs_le]; omega)
    omega
  · intro hne
    refine ⟨?_, Iff.rfl⟩
    rw [abs_le]
    omega

/-- A token that spells out its bucket. -/
def bucketCrypto : Crypto :=
  { echoCrypto with
    hmac := fun _ m => beBytes 32 (Json.digitsVal (m.drop 43))
    hmac_length := fun _ _ => beBytes_length _ _ }

theorem bucketCrypto_injective (psk : Bytes) (nonce : ByteArr 16) : TokenInjective bucketCrypto psk nonce.val := by
  -- The bucket begins behind the label, the 32 digits of the nonce and the colons.
  have hdrop (bucket : Bytes) :
      (ascii "daxson-v1:" ++ hexEncode nonce.val ++ ascii ":" ++ bucket).drop 43 = bucket := by
    apply List.drop_left'
    simp [hexEncode_length, nonce.property, ascii]
  have hval (x : Int) (hx : 0 ≤ x) (hlt : x < 2 ^ 63) :
      (beVal (computeToken bucketCrypto psk nonce.val (formatInt x)) : Int) = x := by
    unfold computeToken bucketCrypto
    dsimp only
    rw [hdrop, Json.formatInt_eq, if_neg (by omega), Json.digitsVal_decimal, beVal_beBytes, Nat.mod_eq_of_lt (by omega)]
    omega
  intro a b ha halt hb hblt heq
  rw [← hval a ha halt, heq, hval b hb hblt]

/-- The server is at 60 s and the client at 90 s: the key is taken and the token is not. -/
theorem client_ahead_refused :
    let cenv : ClientEnv := { now := 90 * second, nonce := copyArr 16 [] }
    let env : ServerEnv := { now := 60 * second, sid := copyArr 16 [], failBytes := copyArr 16 [] }
    let h : Handshaker := ⟨[1]⟩
    let conn (b : Bytes) : NetConn := { rx := { chunks := [b], fin := .eof } }
    TokenInjective bucketCrypto h.psk cenv.nonce.val ∧ |env.now.unix / 30 - cenv.now.unix / 30| ≤ 1 ∧
      (h.serverHandshake bucketCrypto env (conn (h.request bucketCrypto cenv.nonce cenv.now))).1.toOption = none ∧
      (deviceServerHandshake bucketCrypto env [msgTypeDeviceAuth] enrolledRegistry
        (conn ((deviceRequest bucketCrypto enrolled cenv).marshal.drop 1))).1.toOption.isSome = true :=
  ⟨bucketCrypto_injective _ _, by decide, by decide +kernel, by decide +kernel⟩

theorem clock_skew_two_behind :
    let cenv : ClientEnv := { now := 60 * second, nonce := copyArr 16 [] }
    let env : ServerEnv := { now := 120 * second, sid := copyArr 16 [], failBytes := copyArr 16 [] }
    let h : Handshaker := ⟨[1]⟩
    let conn (b : Bytes) : NetConn := { rx := { chunks := [b], fin := .eof } }
    (¬∃ sid, (h.serverHandshake bucketCrypto env (conn (h.request bucketCrypto cenv.nonce cenv.now))).1 = .ok sid) ∧
      (deviceServerHandshake bucketCrypto env [msgTypeDeviceAuth] enrolledRegistry
        (conn ((deviceRequest bucketCrypto enrolled cenv).marshal.drop 1))).1 = .error errStale := by
  intro cenv env h conn
  obtain ⟨hmac, hdevice⟩ := (clock_skew_alike_iff bucketCrypto h enrolled env cenv enrolledRegistry
    (conn (h.request bucketCrypto cenv.nonce cenv.now))
    (conn ((deviceRequest bucketCrypto enrolled cenv).marshal.drop 1)) [] []
    ⟨by decide, by decide⟩ ⟨by decide, by decide⟩ (bucketCrypto_injective _ _) rfl rfl rfl (by decide +kernel)).mpr
    (by decide)
  have hfar : ¬|env.now.unix / 30 - cenv.now.unix / 30| ≤ 1 := by decide
  exact ⟨fun hok => hfar (hmac.mp hok), not_not.mp fun hne => hfar (hdevice.mp hne)⟩

end Daxson.Auth
