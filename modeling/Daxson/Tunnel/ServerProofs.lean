import Daxson.Auth.Proofs
import Daxson.Tunnel.Server

/-! # What a client learns before its session -/

namespace Daxson.Tunnel

open Invite Auth
open Protocol (protocolVersion authRequestSize)

/-! ## HMAC without a PSK -/

/-- The stream opens with a request whose token is made with the key of the empty PSK. -/
def OpensWithEmptyKey (cr : Crypto) (now : Time) (b : Bytes) : Prop :=
  b.head? = some protocolVersion ∧ authRequestSize ≤ b.length ∧
    validToken cr (new cr []).psk now (b.take authRequestSize) = true

theorem dispatch_hmac_iff (cr : Crypto) (env : ServerEnv) (hs : Handshaker) (reg : Option Registry)
    (c : NetConn) :
    (∃ res, (serverDispatch cr env hs reg c).1 = .ok res ∧ res.mode = .hmac) ↔
      (c.rx.content.head? = some protocolVersion ∧ authRequestSize ≤ c.rx.content.length ∧
        validToken cr hs.psk env.now (c.rx.content.take authRequestSize) = true) ∧
        env.sidErr = none ∧ env.write = .full := by
  have hd := serverDispatch_cases cr env hs reg c
  rcases hres : serverDispatch cr env hs reg c with ⟨res, c', reg'⟩
  rw [hres] at hd
  have h12 : protocolVersion ≠ msgTypeDeviceAuth := by decide
  have h13 : protocolVersion ≠ msgTypeBootstrap := by decide
  cases hd with
  | incomplete _ e rx he hin =>
    refine ⟨(fun ⟨_, h, _⟩ => nomatch h), fun ⟨⟨hv, hlen, _⟩, _⟩ => ?_⟩
    exact absurd (.inl hin) (not_noRequest hv (.inl ⟨rfl, hlen⟩))
  | unrecognised _ rx hin hrx =>
    refine ⟨(fun ⟨_, h, _⟩ => nomatch h), fun ⟨⟨hv, hlen, _⟩, _⟩ => ?_⟩
    exact absurd (.inr hin) (@not_noRequest reg _ _ hv (.inl ⟨rfl, hlen⟩))
  | disabled rx resp hno hin hrx =>
    refine ⟨(fun ⟨_, h, _⟩ => nomatch h), fun ⟨⟨hv, _⟩, _⟩ => ?_⟩
    rw [hv] at hin
    simp [h12, h13] at hin
  | hmac _ rx sid _ hin hlen hrx hans =>
    cases hans with
    | refused e hno =>
      refine ⟨(fun ⟨_, h, _⟩ => nomatch h), fun ⟨⟨_, _, hv⟩, hsid, _⟩ => ?_⟩
      rcases hno with hno | hno
      · rw [hno] at hv
        cases hv
      · exact absurd hsid hno
    | unsent e hno => exact ⟨(fun ⟨_, h, _⟩ => nomatch h), fun ⟨_, _, hw⟩ => absurd hw hno⟩
    | accepted hvalid hsid hwrite =>
      exact ⟨fun _ => ⟨⟨hin, hlen, hvalid⟩, hsid, hwrite⟩, fun _ => ⟨_, rfl, rfl⟩⟩
  | device r r' rx _ _ hin hlen hrx hans =>
    constructor
    · rintro ⟨res, h, hm⟩
      cases hans with
      | refused => cases h
      | accepted => cases h; cases hm
    · rintro ⟨⟨hv, -⟩, -⟩
      rw [hv] at hin
      simp [h12] at hin
  | bootstrap r r' rx q _ _ hin hlen hrx hq hans =>
    constructor
    · rintro ⟨res, h, hm⟩
      cases hans with
      | refused => cases h
      | unsaved => cases h
      | accepted => cases h; cases hm
    · rintro ⟨⟨hv, -⟩, -⟩
      rw [hv] at hin
      simp [h13] at hin

/-- **HMAC mode needs a PSK, but for the empty key.** -/
theorem hmac_needs_psk_iff (cr : Crypto) (cfg : Config) (reg : Option Registry) (env : ServerEnv)
    (c : NetConn) (_hmode : cfg.mode = .server) (_hvalid : cfg.validate = none) :
    (∀ res, (serverDispatch cr env (newServer cr cfg reg).hmacAuth (newServer cr cfg reg).reg c).1 = .ok res →
        res.mode = .hmac → cfg.server.auth.psk ≠ []) ↔
      cfg.server.auth.psk ≠ [] ∨
        ¬(OpensWithEmptyKey cr env.now c.rx.content ∧ env.sidErr = none ∧ env.write = .full) := by
  have hiff := dispatch_hmac_iff cr env (newServer cr cfg reg).hmacAuth (newServer cr cfg reg).reg c
  by_cases hpsk : cfg.server.auth.psk = []
  · have hkey : (newServer cr cfg reg).hmacAuth = new cr [] := by rw [← hpsk]; rfl
    rw [hkey] at hiff ⊢
    simp only [hpsk, ne_eq, not_true_eq_false, false_or, imp_false]
    rw [OpensWithEmptyKey, ← hiff]
    push Not
    rfl
  · simp [hpsk]

def identityOnly : Config where
  mode := .server
  server := {
    tls := { certFile := ascii "cert.pem", keyFile := ascii "key.pem" }
    identityKey := ascii "identity.json" }

/-- A quiet surrounding: the epoch, and every write succeeds. -/
def quietEnv : ServerEnv where
  now := 0
  sid := copyArr 16 [1, 2, 3]
  failBytes := copyArr 16 [4, 5, 6]

/-- A client that knows only that the PSK is empty, with the nonce 0. -/
def emptyKeyClient : NetConn where
  rx := { chunks := [(new hashCrypto []).request hashCrypto (copyArr 16 []) 0], fin := .eof }

theorem empty_psk_accepts_anyone :
    identityOnly.mode = .server ∧ identityOnly.validate = none ∧
      ¬(∀ res, (serverDispatch hashCrypto quietEnv (newServer hashCrypto identityOnly none).hmacAuth
          (newServer hashCrypto identityOnly none).reg emptyKeyClient).1 = .ok res →
        res.mode = .hmac → identityOnly.server.auth.psk ≠ []) := by
  refine ⟨rfl, by decide, fun h => ?_⟩
  have hcontent : emptyKeyClient.rx.content = (new hashCrypto []).request hashCrypto (copyArr 16 []) 0 := by
    simp [emptyKeyClient, Lib.Reader.content]
  obtain ⟨res, hres, hmode⟩ := (dispatch_hmac_iff hashCrypto quietEnv (new hashCrypto []) none emptyKeyClient).mpr
    ⟨⟨by rw [hcontent]; rfl, by simp [hcontent], by
      rw [hcontent, List.take_of_length_le (by simp)]
      exact validToken_request hashCrypto _ _ 0⟩, rfl, rfl⟩
  exact h res hres hmode rfl

theorem hmac_needs_psk_garbage :
    identityOnly.mode = .server ∧ identityOnly.validate = none ∧
      ((∀ res, (serverDispatch hashCrypto quietEnv (newServer hashCrypto identityOnly none).hmacAuth
          (newServer hashCrypto identityOnly none).reg { rx := { chunks := [[1, 2]], fin := .eof } }).1 = .ok res →
        res.mode = .hmac → identityOnly.server.auth.psk ≠ []) ↔
      identityOnly.server.auth.psk ≠ [] ∨
        ¬(OpensWithEmptyKey hashCrypto 0 [1, 2] ∧ quietEnv.sidErr = none ∧ quietEnv.write = .full)) :=
  ⟨rfl, by decide, hmac_needs_psk_iff hashCrypto identityOnly none quietEnv _ rfl (by decide)⟩

/-! ## The probe upstream -/

theorem forwardToProbeUpstream_prefix (s : Server) (p : ProbeEnv) (c : NetConn) :
    (forwardToProbeUpstream s p c).toUpstream <+: c.rx.content := by
  unfold forwardToProbeUpstream
  split_ifs
  · exact List.nil_prefix
  · cases p.dialErr with
    | some e => exact List.nil_prefix
    | none => exact List.take_prefix _ _

theorem forwarded_never_whole (cr : Crypto) (env : ServerEnv) (p : ProbeEnv) (s : Server) (c : NetConn)
    (e : GoError) (_hup : s.probeUpstream ≠ [])
    (herr : (serverDispatch cr env s.hmacAuth s.reg c).1 = .error e) (hfail : isAuthFailed e = true) :
    (∃ k, 0 < k ∧ (handleConn cr env p s c).forwarded <+: c.rx.content.drop k) ∧
      (handleConn cr env p s c).forwarded ≠ c.rx.content := by
  have hd := serverDispatch_cases cr env s.hmacAuth s.reg c
  rcases hres : serverDispatch cr env s.hmacAuth s.reg c with ⟨res, c', reg'⟩
  rw [hres] at hd herr
  obtain rfl : res = .error e := herr
  obtain ⟨k, hk, hlen, hrest⟩ := hd.rx hfail
  have hprefix : (handleConn cr env p s c).forwarded <+: c.rx.content.drop k := by
    rw [← hrest]
    simp only [handleConn, hres, hfail, if_true, Handled.forwarded]
    exact forwardToProbeUpstream_prefix s p c'
  refine ⟨⟨k, hk, hprefix⟩, fun heq => ?_⟩
  have := hprefix.length_le
  rw [heq, List.length_drop] at this
  omega

def frontedServer : Server where
  hmacAuth := new hashCrypto (ascii "a shared secret!")
  probeUpstream := ascii "127.0.0.1:80"

def httpProbe : NetConn where
  rx := { chunks := [ascii "GET / HTTP/1.1"], fin := .eof }

def openRelay : ProbeEnv where
  toUpstream := 100

theorem http_probe_beheaded :
    (serverDispatch hashCrypto quietEnv frontedServer.hmacAuth frontedServer.reg httpProbe).1 =
        .error errAuthFailed ∧
      isAuthFailed errAuthFailed = true ∧ frontedServer.probeUpstream ≠ [] ∧
      (handleConn hashCrypto quietEnv openRelay frontedServer httpProbe).forwarded =
        ascii "ET / HTTP/1.1" ∧
      httpProbe.rx.content = ascii "GET / HTTP/1.1" := by
  decide

theorem forwarded_never_whole_http :
    (∃ k, 0 < k ∧ (handleConn hashCrypto quietEnv openRelay frontedServer httpProbe).forwarded <+:
        httpProbe.rx.content.drop k) ∧
      (handleConn hashCrypto quietEnv openRelay frontedServer httpProbe).forwarded ≠ httpProbe.rx.content :=
  forwarded_never_whole hashCrypto quietEnv openRelay frontedServer httpProbe errAuthFailed (by decide)
    (by decide) (by decide)

/-! ## What an unaccepted client receives -/

theorem delivered_eq_nil_iff (o : WriteOutcome) {b : Bytes} (hb : 2 ≤ b.length) :
    o.delivered b = [] ↔ ∃ e, o = .short 0 e := by
  cases o with
  | full =>
    simp only [WriteOutcome.delivered, reduceCtorEq, exists_false, iff_false]
    rintro rfl
    simp at hb
  | short n e =>
    have : b ≠ [] := by
      rintro rfl
      simp at hb
    simp only [WriteOutcome.delivered, List.take_eq_nil_iff, this, or_false, WriteOutcome.short.injEq,
      exists_and_left, exists_eq', and_true]
    omega

theorem server_silent_iff (cr : Crypto) (env : ServerEnv) (p : ProbeEnv) (s : Server) (c : NetConn)
    (hfresh : c.tx = []) (hfail : ∀ res, (serverDispatch cr env s.hmacAuth s.reg c).1 ≠ .ok res) :
    (handleConn cr env p s c).conn.tx = [] ↔
      NoRequest s.reg c.rx.content ∨ ∃ e, env.write = .short 0 e := by
  have hd := serverDispatch_cases cr env s.hmacAuth s.reg c
  rcases hres : serverDispatch cr env s.hmacAuth s.reg c with ⟨res, c', reg'⟩
  rw [hres] at hd
  have hconn : (handleConn cr env p s c).conn = c' := by
    cases res with
    | ok res => exact absurd (by rw [hres]) (hfail res)
    | error e =>
      simp only [handleConn, hres]
      split_ifs <;> rfl
  rw [hconn]
  rcases hd.tx with ⟨hno, htx⟩ | ⟨hyes, msg, hlen, htx⟩
  · simp [hno, htx, hfresh]
  · rw [htx, hfresh, List.nil_append, delivered_eq_nil_iff env.write (by omega)]
    simp [hyes]

theorem prober_sees_rejection :
    (∀ res, (serverDispatch hashCrypto quietEnv frontedServer.hmacAuth frontedServer.reg
        { rx := { chunks := [[msgTypeDeviceAuth]], fin := .eof } }).1 ≠ .ok res) ∧
      (handleConn hashCrypto quietEnv openRelay frontedServer
        { rx := { chunks := [[msgTypeDeviceAuth]], fin := .eof } }).conn.tx =
          [authStatusRejected, 4, 5, 6, 0, 0, 0, 0, 0, 0, 0, 0, 0, 0, 0, 0, 0] := by
  refine ⟨fun res => ?_, by decide⟩
  have : (serverDispatch hashCrypto quietEnv frontedServer.hmacAuth frontedServer.reg
      { rx := { chunks := [[msgTypeDeviceAuth]], fin := .eof } }).1 = .error errAuthFailed := by decide
  rw [this]
  exact nofun

theorem server_silent_http :
    httpProbe.tx = [] ∧ ((handleConn hashCrypto quietEnv openRelay frontedServer httpProbe).conn.tx = [] ↔
      NoRequest frontedServer.reg httpProbe.rx.content ∨ ∃ e, quietEnv.write = .short 0 e) := by
  refine ⟨rfl, server_silent_iff hashCrypto quietEnv openRelay frontedServer httpProbe rfl fun res => ?_⟩
  have : (serverDispatch hashCrypto quietEnv frontedServer.hmacAuth frontedServer.reg httpProbe).1 =
      .error errAuthFailed := by decide
  rw [this]
  exact nofun

end Daxson.Tunnel
