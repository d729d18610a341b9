import Daxson.Auth.Spec
import Daxson.Registry.Proofs

/-! # What a dispatch can do

A complete request gets exactly one response of 17 bytes, and everything else gets none.
-/

open Lib

namespace Daxson.Auth

open Invite
open Protocol (protocolVersion)

/-! ## A client's own request -/

@[simp] theorem request_length (cr : Crypto) (h : Handshaker) (nonce : ByteArr 16) (now : Time) :
    (h.request cr nonce now).length = Protocol.authRequestSize := by
  simp [Handshaker.request, computeToken, nonce.property, cr.hmac_length, Protocol.authRequestSize]

theorem request_nonce (cr : Crypto) (h : Handshaker) (nonce : ByteArr 16) (now : Time) :
    slice (h.request cr nonce now) 1 17 = nonce.val :=
  slice_mid [protocolVersion] nonce.val _ 1 17 rfl (by simp [nonce.property])

theorem request_token (cr : Crypto) (h : Handshaker) (nonce : ByteArr 16) (now : Time) :
    slice (h.request cr nonce now) 17 49 = computeToken cr h.psk nonce.val (timeBucket now) := by
  have := slice_mid ([protocolVersion] ++ nonce.val) (computeToken cr h.psk nonce.val (timeBucket now)) []
    17 49 (by simp [nonce.property]) (by simp [nonce.property, computeToken, cr.hmac_length])
  simpa only [Handshaker.request, List.append_assoc, List.append_nil] using this

theorem validToken_request (cr : Crypto) (h : Handshaker) (nonce : ByteArr 16) (now : Time) :
    validToken cr h.psk now (h.request cr nonce now) = true := by
  simp [validToken, request_nonce, request_token]

/-! ## The answers -/

def responded (env : ServerEnv) (msg : Bytes) (c : NetConn) : NetConn :=
  { c with tx := c.tx ++ env.write.delivered msg }

/-- How `ServerHandshake` ends on a whole request with the right version. -/
inductive HmacAnswer (cr : Crypto) (h : Handshaker) (env : ServerEnv) (req : Bytes) (c : NetConn) :
    Except GoError (ByteArr 16) × NetConn → Prop
  | refused (e : GoError) (hno : validToken cr h.psk env.now req = false ∨ env.sidErr ≠ none) :
      HmacAnswer cr h env req c
        (.error e, responded env ([Protocol.authStatusFail] ++ env.failBytes.val) c)
  | unsent (e : GoError) (hno : env.write ≠ .full) :
      HmacAnswer cr h env req c (.error e, responded env ([Protocol.authStatusOK] ++ env.sid.val) c)
  | accepted (hvalid : validToken cr h.psk env.now req = true) (hsid : env.sidErr = none)
      (hwrite : env.write = .full) :
      HmacAnswer cr h env req c (.ok env.sid, responded env ([Protocol.authStatusOK] ++ env.sid.val) c)

theorem answer_cases (cr : Crypto) (h : Handshaker) (env : ServerEnv) (req : Bytes) (c : NetConn)
    (hv : req.headD 0 = protocolVersion) : HmacAnswer cr h env req c (h.answer cr env req c) := by
  unfold Handshaker.answer
  rw [if_neg (by rw [hv]; decide)]
  cases hvalid : validToken cr h.psk env.now req with
  | false => exact .refused _ (.inl hvalid)
  | true =>
    simp only [Bool.not_true, Bool.false_eq_true, if_false]
    cases hsid : env.sidErr with
    | some e => exact .refused _ (.inr (by simp [hsid]))
    | none =>
      simp only [NetConn.write]
      by_cases hw : env.write = .full
      · have herr : env.write.err = none := by rw [hw]; rfl
        rw [herr]
        exact .accepted hvalid hsid hw
      · obtain ⟨e, herr⟩ : ∃ e, env.write.err = some e := by
          cases ho : env.write with
          | full => exact absurd ho hw
          | short n e => exact ⟨e, rfl⟩
        rw [herr]
        exact .unsent _ hw

/-- How `deviceServerHandshake` ends on a whole request. -/
inductive DeviceAnswer (env : ServerEnv) (c : NetConn) :
    Except GoError ServerAuthResult × NetConn × Registry → Prop
  | refused (e : GoError) (resp : StatusResponse) (r : Registry) (hno : resp.status ≠ Invite.authStatusOK) :
      DeviceAnswer env c (.error e, responded env resp.marshal c, r)
  | accepted (pub : Bytes) (r : Registry) :
      DeviceAnswer env c
        (.ok { sessionID := env.sid, devicePub := some pub, mode := .device },
          responded env (StatusResponse.marshal ⟨Invite.authStatusOK, env.sid⟩) c, r)

theorem unmarshalDeviceAuthRequest_ok {b : Bytes} (h : deviceAuthRequestSize ≤ b.length) :
    ∃ q, unmarshalDeviceAuthRequest b = .ok q := by
  unfold unmarshalDeviceAuthRequest
  rw [if_neg (by omega)]
  exact ⟨_, rfl⟩

theorem rejected_ne_ok : authStatusRejected ≠ Invite.authStatusOK := by decide

theorem deviceAnswer_cases (cr : Crypto) (env : ServerEnv) (full : Bytes) (r : Registry) (c : NetConn)
    (hlen : deviceAuthRequestSize ≤ full.length) : DeviceAnswer env c (deviceAnswer cr env full r c) := by
  obtain ⟨q, hq⟩ := unmarshalDeviceAuthRequest_ok hlen
  unfold deviceAnswer
  rw [hq]
  simp only
  split_ifs with hstale hsig hstatus
  · exact .refused _ ⟨authStatusRejected, env.failBytes⟩ r rejected_ne_ok
  · exact .refused _ ⟨authStatusRejected, env.failBytes⟩ r rejected_ne_ok
  · exact .refused _ ⟨_, env.sid⟩ _ (by simpa using hstatus)
  · have hok : (r.authorizeDevice env.now env.save q.pubKey.val).1 = Invite.authStatusOK := by
      simpa using hstatus
    rw [hok]
    exact .accepted q.pubKey.val _

/-- How `bootstrapServerHandshake` ends on the request `q`. -/
inductive BootstrapAnswer (env : ServerEnv) (q : BootstrapRequest) (r : Registry) (c : NetConn) :
    Except GoError ServerAuthResult × NetConn × Registry → Prop
  | refused (e : GoError) (resp : StatusResponse) (hno : resp.status ≠ bootstrapStatusOK)
      (hred : Registry.redeemable env.now q.token.val r.data = none) :
      BootstrapAnswer env q r c (.error e, responded env resp.marshal c, r)
  /-- The invite is good but the store is not written: the response says OK all the same. -/
  | unsaved (e : GoError) (r' : Registry) (hred : (Registry.redeemable env.now q.token.val r.data).isSome)
      (hsave : env.save ≠ .ok) :
      BootstrapAnswer env q r c
        (.error e, responded env (StatusResponse.marshal ⟨bootstrapStatusOK, env.sid⟩) c, r')
  | accepted (r' : Registry) (d : Registry.StoreData) (hsave : env.save = .ok)
      (hfile : r'.disk.file = some (.json d)) (hdev : ∃ x ∈ d.devices, x.pubKey = q.devicePub.val) :
      BootstrapAnswer env q r c
        (.ok { sessionID := env.sid, devicePub := some q.devicePub.val, mode := .bootstrap },
          responded env (StatusResponse.marshal ⟨bootstrapStatusOK, env.sid⟩) c, r')

theorem unmarshalBootstrapRequest_ok {b : Bytes} (h : bootstrapRequestSize ≤ b.length) :
    ∃ q, unmarshalBootstrapRequest b = .ok q := by
  unfold unmarshalBootstrapRequest
  rw [if_neg (by omega)]
  exact ⟨_, rfl⟩

theorem bootstrapAnswer_cases (cr : Crypto) (env : ServerEnv) (full : Bytes) (q : BootstrapRequest)
    (r : Registry) (c : NetConn) (hq : unmarshalBootstrapRequest full = .ok q) :
    BootstrapAnswer env q r c (bootstrapAnswer cr env full r c) := by
  unfold bootstrapAnswer
  rw [hq]
  simp only
  cases hred : Registry.redeemable env.now q.token.val r.data with
  | none =>
    obtain ⟨hreg, herr, hstatus⟩ := Registry.bootstrap_refused cr env.now env.save q.token.val
      q.devicePub.val (nullTrimBytes q.label.val) r hred
    rw [hreg, herr, if_pos (by simpa using hstatus)]
    exact .refused _ ⟨_, env.sid⟩ hstatus hred
  | some found =>
    have hsome : (Registry.redeemable env.now q.token.val r.data).isSome := by simp [hred]
    by_cases hsave : env.save = .ok
    · obtain ⟨r', d, heq, hfile, hdev⟩ := Registry.bootstrap_saved cr env.now q.token.val q.devicePub.val
        (nullTrimBytes q.label.val) r hsome
      rw [hsave, heq]
      exact .accepted r' d hsave hfile hdev
    · obtain ⟨e, r', heq⟩ := Registry.bootstrap_unsaved cr env.now env.save q.token.val q.devicePub.val
        (nullTrimBytes q.label.val) r hsome hsave
      rw [heq]
      exact .unsaved _ r' hsome hsave

/-! ## Dispatch -/

/-- The stream ends inside the request that its first byte announces. -/
def Incomplete (reg : Option Registry) (b : Bytes) : Prop :=
  b = [] ∨ (b.head? = some protocolVersion ∧ b.length < Protocol.authRequestSize) ∨
    (reg.isSome ∧ b.head? = some msgTypeDeviceAuth ∧ b.length < deviceAuthRequestSize) ∨
    (reg.isSome ∧ b.head? = some msgTypeBootstrap ∧ b.length < bootstrapRequestSize)

def Unrecognised (b : Bytes) : Prop :=
  ∃ v, b.head? = some v ∧ v ≠ protocolVersion ∧ v ≠ msgTypeDeviceAuth ∧ v ≠ msgTypeBootstrap

def hmacResult : Except GoError (ByteArr 16) → Except GoError ServerAuthResult
  | .error e => .error e
  | .ok sid => .ok { sessionID := sid, mode := .hmac }

/-- How `ServerDispatch` ends on a connection `c`. `rx` is what is left to read. -/
inductive Dispatched (cr : Crypto) (env : ServerEnv) (hs : Handshaker) (c : NetConn) :
    Option Registry → Except GoError ServerAuthResult × NetConn × Option Registry → Prop
  | incomplete (reg : Option Registry) (e : GoError) (rx : ByteReader) (he : isAuthFailed e = false)
      (hin : Incomplete reg c.rx.content) :
      Dispatched cr env hs c reg (.error e, { c with rx := rx }, reg)
  | unrecognised (reg : Option Registry) (rx : ByteReader) (hin : Unrecognised c.rx.content)
      (hrx : rx.content = c.rx.content.drop 1) :
      Dispatched cr env hs c reg (.error errAuthFailed, { c with rx := rx }, reg)
  | disabled (rx : ByteReader) (resp : StatusResponse) (hno : resp.status ≠ Invite.authStatusOK)
      (hin : c.rx.content.head? = some msgTypeDeviceAuth ∨ c.rx.content.head? = some msgTypeBootstrap)
      (hrx : rx.content = c.rx.content.drop 1) :
      Dispatched cr env hs c none (.error errAuthFailed, responded env resp.marshal { c with rx := rx }, none)
  | hmac (reg : Option Registry) (rx : ByteReader) (res : Except GoError (ByteArr 16)) (c' : NetConn)
      (hin : c.rx.content.head? = some protocolVersion) (hlen : Protocol.authRequestSize ≤ c.rx.content.length)
      (hrx : rx.content = c.rx.content.drop Protocol.authRequestSize)
      (hans : HmacAnswer cr hs env (c.rx.content.take Protocol.authRequestSize) { c with rx := rx } (res, c')) :
      Dispatched cr env hs c reg (hmacResult res, c', reg)
  | device (r r' : Registry) (rx : ByteReader) (res : Except GoError ServerAuthResult) (c' : NetConn)
      (hin : c.rx.content.head? = some msgTypeDeviceAuth) (hlen : deviceAuthRequestSize ≤ c.rx.content.length)
      (hrx : rx.content = c.rx.content.drop deviceAuthRequestSize)
      (hans : DeviceAnswer env { c with rx := rx } (res, c', r')) :
      Dispatched cr env hs c (some r) (res, c', some r')
  | bootstrap (r r' : Registry) (rx : ByteReader) (q : BootstrapRequest)
      (res : Except GoError ServerAuthResult) (c' : NetConn)
      (hin : c.rx.content.head? = some msgTypeBootstrap) (hlen : bootstrapRequestSize ≤ c.rx.content.length)
      (hrx : rx.content = c.rx.content.drop bootstrapRequestSize)
      (hq : unmarshalBootstrapRequest (c.rx.content.take bootstrapRequestSize) = .ok q)
      (hans : BootstrapAnswer env q r { c with rx := rx } (res, c', r')) :
      Dispatched cr env hs c (some r) (res, c', some r')

theorem readFull_rest {rx : ByteReader} {v : UInt8} {t : Bytes} (n : Nat) (hrx : rx.content = t)
    (hlen : n + 1 ≤ (v :: t).length) :
    ∃ rx', readFull n rx = (.ok (t.take n), rx') ∧ rx'.content = (v :: t).drop (n + 1) := by
  obtain ⟨rx', heq, hrest⟩ := readFull_ok n rx (by rw [hrx]; simpa using hlen)
  exact ⟨rx', hrx ▸ heq, by rw [hrest, hrx]; rfl⟩

theorem serverHandshake_dispatched (cr : Crypto) (env : ServerEnv) (hs : Handshaker)
    (reg : Option Registry) (c : NetConn) (rx : ByteReader) (hin : c.rx.content.head? = some protocolVersion)
    (hrx : rx.content = c.rx.content) :
    Dispatched cr env hs c reg
      (match hs.serverHandshake cr env { c with rx := rx } with
        | (.error e, c) => (.error e, c, reg)
        | (.ok sid, c) => (.ok { sessionID := sid, mode := .hmac }, c, reg)) := by
  unfold Handshaker.serverHandshake
  by_cases hlen : Protocol.authRequestSize ≤ c.rx.content.length
  · obtain ⟨rx', heq, hrest⟩ := readFull_ok Protocol.authRequestSize rx (by rw [hrx]; exact hlen)
    have hhead : (c.rx.content.take Protocol.authRequestSize).headD 0 = protocolVersion := by
      rw [List.headD_eq_head?_getD, List.head?_take, if_neg (by decide), hin]
      rfl
    have hans := answer_cases cr hs env _ { c with rx := rx' } hhead
    rw [heq]
    simp only [hrx]
    rcases hres : hs.answer cr env (c.rx.content.take Protocol.authRequestSize) { c with rx := rx' } with ⟨res, c'⟩
    rw [hres] at hans
    have := Dispatched.hmac reg rx' res c' hin hlen (hrest.trans (by rw [hrx])) hans
    cases res <;> exact this
  · obtain ⟨e, rx', heq, -⟩ := readFull_short Protocol.authRequestSize rx (by rw [hrx]; omega)
    rw [heq]
    exact .incomplete reg _ rx' rfl (.inr (.inl ⟨hin, by omega⟩))

theorem deviceServerHandshake_dispatched (cr : Crypto) (env : ServerEnv) (hs : Handshaker) (r : Registry)
    (c : NetConn) (rx : ByteReader) {t : Bytes} (hin : c.rx.content = msgTypeDeviceAuth :: t)
    (hrx : rx.content = t) :
    Dispatched cr env hs c (some r)
      (let (res, c, r) := deviceServerHandshake cr env [msgTypeDeviceAuth] r { c with rx := rx }
       (res, c, some r)) := by
  unfold deviceServerHandshake
  by_cases hlen : deviceAuthRequestSize ≤ c.rx.content.length
  · obtain ⟨rx', heq, hrest⟩ := readFull_rest (deviceAuthRequestSize - 1) hrx (by rw [← hin]; exact hlen)
    rw [heq]
    refine .device r _ rx' _ _ (by rw [hin]; rfl) hlen (by rw [hrest, hin]; rfl) ?_
    exact deviceAnswer_cases cr env _ r _ (by rw [hin] at hlen; simp [deviceAuthRequestSize] at hlen ⊢; omega)
  · obtain ⟨e, rx', heq, -⟩ := readFull_short (deviceAuthRequestSize - 1) rx
      (by rw [hrx]; rw [hin] at hlen; simp [deviceAuthRequestSize] at hlen ⊢; omega)
    rw [heq]
    exact .incomplete _ _ rx' rfl (.inr (.inr (.inl ⟨rfl, by rw [hin]; rfl, by omega⟩)))

theorem bootstrapServerHandshake_dispatched (cr : Crypto) (env : ServerEnv) (hs : Handshaker) (r : Registry)
    (c : NetConn) (rx : ByteReader) {t : Bytes} (hin : c.rx.content = msgTypeBootstrap :: t)
    (hrx : rx.content = t) :
    Dispatched cr env hs c (some r)
      (let (res, c, r) := bootstrapServerHandshake cr env [msgTypeBootstrap] r { c with rx := rx }
       (res, c, some r)) := by
  unfold bootstrapServerHandshake
  by_cases hlen : bootstrapRequestSize ≤ c.rx.content.length
  · obtain ⟨rx', heq, hrest⟩ := readFull_rest (bootstrapRequestSize - 1) hrx (by rw [← hin]; exact hlen)
    have hfull : [msgTypeBootstrap] ++ t.take (bootstrapRequestSize - 1) =
        c.rx.content.take bootstrapRequestSize := by
      rw [hin]; rfl
    obtain ⟨q, hq⟩ := unmarshalBootstrapRequest_ok (b := c.rx.content.take bootstrapRequestSize)
      (by rw [List.length_take]; omega)
    rw [heq]
    simp only [hfull]
    exact .bootstrap r _ rx' q _ _ (by rw [hin]; rfl) hlen (by rw [hrest, hin]; rfl) hq
      (bootstrapAnswer_cases cr env _ q r _ hq)
  · obtain ⟨e, rx', heq, -⟩ := readFull_short (bootstrapRequestSize - 1) rx
      (by rw [hrx]; rw [hin] at hlen; simp [bootstrapRequestSize] at hlen ⊢; omega)
    rw [heq]
    exact .incomplete _ _ rx' rfl (.inr (.inr (.inr ⟨rfl, by rw [hin]; rfl, by omega⟩)))

theorem serverDispatch_cases (cr : Crypto) (env : ServerEnv) (hs : Handshaker) (reg : Option Registry)
    (c : NetConn) : Dispatched cr env hs c reg (serverDispatch cr env hs reg c) := by
  unfold serverDispatch
  cases hb : c.rx.content with
  | nil =>
    obtain ⟨e, rx, heq, -⟩ := readFull_short 1 c.rx (by simp [hb])
    rw [heq]
    exact .incomplete reg _ rx rfl (.inl hb)
  | cons v t =>
    obtain ⟨rx, heq, hrest⟩ := readFull_first hb
    have hrx : rx.content = c.rx.content.drop 1 := by rw [hrest, hb]; rfl
    rw [heq]
    dsimp only
    rw [List.headD_cons]
    by_cases h1 : v = protocolVersion
    · -- The version byte is put back, so the handshake reads the whole stream.
      rw [if_pos h1]
      refine serverHandshake_dispatched cr env hs reg c (rx.prepend [v]) (by rw [hb, h1]; rfl) ?_
      rw [Reader.content_prepend, hrest, hb]
      rfl
    rw [if_neg h1]
    by_cases h2 : v = msgTypeDeviceAuth
    · subst h2
      rw [if_pos rfl]
      cases reg with
      | none => exact .disabled rx ⟨authStatusRejected, env.failBytes⟩ rejected_ne_ok (.inl (by rw [hb]; rfl)) hrx
      | some r => exact deviceServerHandshake_dispatched cr env hs r c rx hb hrest
    rw [if_neg h2]
    by_cases h3 : v = msgTypeBootstrap
    · subst h3
      rw [if_pos rfl]
      cases reg with
      | none =>
        exact .disabled rx ⟨bootstrapStatusInvalidToken, env.failBytes⟩
          (by decide : bootstrapStatusInvalidToken ≠ Invite.authStatusOK) (.inr (by rw [hb]; rfl)) hrx
      | some r => exact bootstrapServerHandshake_dispatched cr env hs r c rx hb hrest
    rw [if_neg h3]
    exact .unrecognised reg rx ⟨v, by rw [hb]; rfl, h1, h2, h3⟩ hrx

/-! ## What a dispatch reads and writes -/

variable {cr : Crypto} {env : ServerEnv} {hs : Handshaker} {c c' : NetConn} {reg reg' : Option Registry}
variable {res : Except GoError ServerAuthResult}

def NoRequest (reg : Option Registry) (b : Bytes) : Prop := Incomplete reg b ∨ Unrecognised b

theorem not_noRequest {b : Bytes} {v : UInt8} (hv : b.head? = some v)
    (h : (v = protocolVersion ∧ Protocol.authRequestSize ≤ b.length) ∨
      (v = msgTypeDeviceAuth ∧ (reg = none ∨ deviceAuthRequestSize ≤ b.length)) ∨
      (v = msgTypeBootstrap ∧ (reg = none ∨ bootstrapRequestSize ≤ b.length))) : ¬NoRequest reg b := by
  have h12 : protocolVersion ≠ msgTypeDeviceAuth := by decide
  have h13 : protocolVersion ≠ msgTypeBootstrap := by decide
  have h23 : msgTypeDeviceAuth ≠ msgTypeBootstrap := by decide
  rintro ((rfl | ⟨hv', hlen⟩ | ⟨hreg, hv', hlen⟩ | ⟨hreg, hv', hlen⟩) | ⟨w, hw, h1, h2, h3⟩)
  · cases hv
  all_goals grind

theorem HmacAnswer.tx {h : Handshaker} {req : Bytes} {sid : Except GoError (ByteArr 16)}
    (ha : HmacAnswer cr h env req c (sid, c')) :
    c'.rx = c.rx ∧ ∃ msg : Bytes, msg.length = 17 ∧ c'.tx = c.tx ++ env.write.delivered msg := by
  cases ha with
  | refused e hno => exact ⟨rfl, _, by simp [env.failBytes.property], rfl⟩
  | unsent e hno => exact ⟨rfl, _, by simp [env.sid.property], rfl⟩
  | accepted hvalid hsid hwrite => exact ⟨rfl, _, by simp [env.sid.property], rfl⟩

theorem DeviceAnswer.tx {r : Registry} (ha : DeviceAnswer env c (res, c', r)) :
    c'.rx = c.rx ∧ ∃ msg : Bytes, msg.length = 17 ∧ c'.tx = c.tx ++ env.write.delivered msg := by
  cases ha with
  | refused e resp r hno => exact ⟨rfl, _, resp.marshal_length, rfl⟩
  | accepted pub r => exact ⟨rfl, _, StatusResponse.marshal_length _, rfl⟩

theorem BootstrapAnswer.tx {q : BootstrapRequest} {r r' : Registry}
    (ha : BootstrapAnswer env q r c (res, c', r')) :
    c'.rx = c.rx ∧ ∃ msg : Bytes, msg.length = 17 ∧ c'.tx = c.tx ++ env.write.delivered msg := by
  cases ha with
  | refused e resp hno hred => exact ⟨rfl, _, resp.marshal_length, rfl⟩
  | unsaved e r' hred hsave => exact ⟨rfl, _, StatusResponse.marshal_length _, rfl⟩
  | accepted r' d hsave hfile hdev => exact ⟨rfl, _, StatusResponse.marshal_length _, rfl⟩

theorem Dispatched.tx (h : Dispatched cr env hs c reg (res, c', reg')) :
    (NoRequest reg c.rx.content ∧ c'.tx = c.tx) ∨
      (¬NoRequest reg c.rx.content ∧
        ∃ msg : Bytes, msg.length = 17 ∧ c'.tx = c.tx ++ env.write.delivered msg) := by
  cases h with
  | incomplete _ e rx he hin => exact .inl ⟨.inl hin, rfl⟩
  | unrecognised _ rx hin hrx => exact .inl ⟨.inr hin, rfl⟩
  | disabled rx resp hno hin hrx =>
    refine .inr ⟨?_, _, resp.marshal_length, rfl⟩
    rcases hin with hin | hin
    · exact not_noRequest hin (.inr (.inl ⟨rfl, .inl rfl⟩))
    · exact not_noRequest hin (.inr (.inr ⟨rfl, .inl rfl⟩))
  | hmac _ rx sid _ hin hlen hrx hans => exact .inr ⟨not_noRequest hin (.inl ⟨rfl, hlen⟩), hans.tx.2⟩
  | device r r' rx _ _ hin hlen hrx hans =>
    exact .inr ⟨not_noRequest hin (.inr (.inl ⟨rfl, .inr hlen⟩)), hans.tx.2⟩
  | bootstrap r r' rx q _ _ hin hlen hrx hq hans =>
    exact .inr ⟨not_noRequest hin (.inr (.inr ⟨rfl, .inr hlen⟩)), hans.tx.2⟩

theorem Dispatched.rx {e : GoError} (h : Dispatched cr env hs c reg (.error e, c', reg'))
    (he : isAuthFailed e = true) :
    ∃ k, 0 < k ∧ k ≤ c.rx.content.length ∧ c'.rx.content = c.rx.content.drop k := by
  have hpos : ∀ {v : UInt8}, c.rx.content.head? = some v → 1 ≤ c.rx.content.length := by
    intro v hv
    rw [Nat.one_le_iff_ne_zero, Ne, List.length_eq_zero_iff]
    rintro hnil
    rw [hnil] at hv
    cases hv
  generalize hr : (Except.error e : Except GoError ServerAuthResult) = res at h
  cases h with
  | incomplete _ e' rx he' hin =>
    cases hr
    rw [he'] at he
    cases he
  | unrecognised _ rx hin hrx =>
    obtain ⟨v, hv, -⟩ := hin
    exact ⟨1, Nat.one_pos, hpos hv, hrx⟩
  | disabled rx resp hno hin hrx => exact ⟨1, Nat.one_pos, hin.elim hpos hpos, hrx⟩
  | hmac _ rx sid _ hin hlen hrx hans => exact ⟨_, by decide, hlen, hans.tx.1 ▸ hrx⟩
  | device r r' rx _ _ hin hlen hrx hans => exact ⟨_, by decide, hlen, hans.tx.1 ▸ hrx⟩
  | bootstrap r r' rx q _ _ hin hlen hrx hq hans => exact ⟨_, by decide, hlen, hans.tx.1 ▸ hrx⟩

end Daxson.Auth
