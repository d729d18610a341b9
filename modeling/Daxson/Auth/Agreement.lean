import Daxson.Auth.Proofs

/-! # Agreement of the two ends

A client that gets a session ID has a server that accepted the same one, unless a bootstrap is not saved.
-/

open Lib

namespace Daxson.Auth

open Invite
open Protocol (protocolVersion)

inductive Client where
  | hmac (h : Handshaker)
  | device (kp : KeyPair)
  | bootstrap (token : Bytes) (kp : KeyPair) (label : Bytes)

def Client.handshake (cr : Crypto) (client : Client) (env : ClientEnv) (c : NetConn) :
    Except GoError (ByteArr 16) × NetConn :=
  match client with
  | .hmac h => h.clientHandshake cr env c
  | .device kp => deviceHandshake cr kp env c
  | .bootstrap token kp label => bootstrapClient token kp label env c

def Client.request (cr : Crypto) (client : Client) (env : ClientEnv) : Bytes :=
  match client with
  | .hmac h => h.request cr env.nonce env.now
  | .device kp => (deviceRequest cr kp env).marshal
  | .bootstrap token kp label => (bootstrapRequest token kp label env).marshal

/-! ## The client's end -/

theorem StatusResponse.exists_of_length {b : Bytes} (h : b.length = 17) :
    ∃ r : StatusResponse, b = r.marshal := by
  cases b with
  | nil => cases h
  | cons v t => exact ⟨⟨v, t, by simpa using h⟩, rfl⟩

theorem StatusResponse.marshal_injective {r r' : StatusResponse} (h : r.marshal = r'.marshal) : r = r' := by
  have h1 := unmarshalStatus_marshal "" r
  rw [h, unmarshalStatus_marshal, Except.ok.injEq] at h1
  exact h1.symm

/-- The stream opens with an OK response for `s`. -/
def Granted (s : ByteArr 16) (b : Bytes) : Prop :=
  StatusResponse.marshal ⟨bootstrapStatusOK, s⟩ <+: b

theorem granted_iff {s : ByteArr 16} {b : Bytes} {r : StatusResponse} (h : b.take 17 = r.marshal) :
    Granted s b ↔ r = ⟨bootstrapStatusOK, s⟩ := by
  rw [Granted, List.prefix_iff_eq_take, StatusResponse.marshal_length, h]
  exact ⟨fun he => (StatusResponse.marshal_injective he).symm, fun he => by rw [he]⟩

theorem not_granted {s : ByteArr 16} {b : Bytes} (h : b.length < 17) : ¬Granted s b := by
  intro hg
  have := hg.length_le
  rw [StatusResponse.marshal_length] at this
  omega

theorem readResponse_cases (rx : ByteReader) :
    (∃ e rx', readFull 17 rx = (.error e, rx') ∧ ∀ s, ¬Granted s rx.content) ∨
      ∃ (r : StatusResponse) (rx' : ByteReader), readFull 17 rx = (.ok r.marshal, rx') ∧
        ∀ s, Granted s rx.content ↔ r = ⟨bootstrapStatusOK, s⟩ := by
  by_cases hlen : 17 ≤ rx.content.length
  · obtain ⟨rx', heq, -⟩ := readFull_ok 17 rx hlen
    obtain ⟨r, hr⟩ := StatusResponse.exists_of_length (b := rx.content.take 17) (by rw [List.length_take]; omega)
    exact .inr ⟨r, rx', hr ▸ heq, fun s => granted_iff hr⟩
  · obtain ⟨e, rx', heq, -⟩ := readFull_short 17 rx (by omega)
    exact .inl ⟨e, rx', heq, fun s => not_granted (by omega)⟩

theorem write_full {o : WriteOutcome} (h : o = .full) (b : Bytes) (c : NetConn) :
    c.write o b = (none, { c with tx := c.tx ++ b }) := by
  rw [h]
  rfl

theorem write_failed {o : WriteOutcome} (h : o ≠ .full) (b : Bytes) (c : NetConn) :
    ∃ e c', c.write o b = (some e, c') := by
  cases o with
  | full => exact absurd rfl h
  | short n e => exact ⟨e, _, rfl⟩

theorem clientHandshake_ok_iff (cr : Crypto) (h : Handshaker) (env : ClientEnv) (c : NetConn) (s : ByteArr 16) :
    (h.clientHandshake cr env c).1 = .ok s ↔
      env.nonceErr = none ∧ env.write = .full ∧ Granted s c.rx.content := by
  unfold Handshaker.clientHandshake
  cases hn : env.nonceErr with
  | some e => simp
  | none =>
    by_cases hw : env.write = .full
    · rw [write_full hw]
      rcases readResponse_cases c.rx with ⟨e, rx', heq, hno⟩ | ⟨r, rx', heq, hiff⟩
      · simp [heq, Protocol.authResponseSize, hno]
      · have hsid : copyArr 16 (slice r.marshal 1 17) = r.sessionID := by
          have := copyArr_slice_mid [r.status] [] r.sessionID 1 17 rfl rfl
          simpa only [StatusResponse.marshal, List.append_nil] using this
        have hstatus : r.marshal.headD 0 = r.status := rfl
        simp only [Protocol.authResponseSize, heq, hsid, hstatus, hiff, hw, true_and]
        by_cases hok : r.status = Protocol.authStatusOK
        · rw [if_neg (by simp [hok])]
          obtain ⟨status, sid⟩ := r
          subst hok
          simp [Protocol.authStatusOK, bootstrapStatusOK]
        · rw [if_pos (by simpa using hok)]
          constructor
          · intro herr
            cases herr
          · rintro rfl
            exact absurd rfl hok
    · obtain ⟨e, c', heq⟩ := write_failed hw (h.request cr env.nonce env.now) c
      simp [heq, hw]

theorem statusExchange_ok_iff (sendErr recvErr what : String) (refusal : UInt8 → GoError) (req : Bytes)
    (env : ClientEnv) (c : NetConn) (s : ByteArr 16) :
    (statusExchange sendErr recvErr what bootstrapStatusOK refusal req env c).1 = .ok s ↔
      env.write = .full ∧ Granted s c.rx.content := by
  unfold statusExchange
  by_cases hw : env.write = .full
  · rw [write_full hw]
    rcases readResponse_cases c.rx with ⟨e, rx', heq, hno⟩ | ⟨r, rx', heq, hiff⟩
    · simp [heq, statusResponseSize, hno]
    · simp only [statusResponseSize, heq, unmarshalStatus_marshal, hiff, hw, true_and]
      obtain ⟨status, sid⟩ := r
      split_ifs with hok
      · simp_all
      · simp_all
  · obtain ⟨e, c', heq⟩ := write_failed hw req c
    simp [heq, hw]

theorem handshake_ok_iff (cr : Crypto) (client : Client) (env : ClientEnv) (c : NetConn) (s : ByteArr 16) :
    (client.handshake cr env c).1 = .ok s ↔
      ((∃ h, client = .hmac h) → env.nonceErr = none) ∧ env.write = .full ∧ Granted s c.rx.content := by
  cases client with
  | hmac h => simp [Client.handshake, clientHandshake_ok_iff]
  | device kp =>
    rw [Client.handshake, deviceHandshake, show Invite.authStatusOK = bootstrapStatusOK from rfl,
      statusExchange_ok_iff]
    simp
  | bootstrap token kp label =>
    rw [Client.handshake, bootstrapClient, statusExchange_ok_iff]
    simp

theorem statusExchange_tx (sendErr recvErr what : String) (ok : UInt8) (refusal : UInt8 → GoError) (req : Bytes)
    (env : ClientEnv) (c : NetConn) :
    (statusExchange sendErr recvErr what ok refusal req env c).2.tx = c.tx ++ env.write.delivered req := by
  unfold statusExchange
  cases hw : env.write with
  | full =>
    rw [write_full rfl]
    rcases readResponse_cases c.rx with ⟨e, rx', heq, -⟩ | ⟨r, rx', heq, -⟩
    · simp [statusResponseSize, heq, WriteOutcome.delivered]
    · simp only [statusResponseSize, heq, unmarshalStatus_marshal]
      split_ifs <;> rfl
  | short n e => rfl

theorem handshake_tx (cr : Crypto) (client : Client) (env : ClientEnv) (c : NetConn)
    (hn : (∃ h, client = .hmac h) → env.nonceErr = none) (hw : env.write = .full) :
    (client.handshake cr env c).2.tx = c.tx ++ client.request cr env := by
  cases client with
  | hmac h =>
    simp only [Client.handshake, Handshaker.clientHandshake, hn ⟨h, rfl⟩, write_full hw]
    rcases readResponse_cases c.rx with ⟨e, rx', heq, -⟩ | ⟨r, rx', heq, -⟩
    · simp [Protocol.authResponseSize, heq, Client.request]
    · simp only [Protocol.authResponseSize, heq]
      split_ifs <;> rfl
  | device kp =>
    rw [Client.handshake, deviceHandshake, statusExchange_tx, hw]
    rfl
  | bootstrap token kp label =>
    rw [Client.handshake, bootstrapClient, statusExchange_tx, hw]
    rfl

/-! ## The server's end -/

theorem granted_delivered {o : WriteOutcome} {msg : Bytes} {s : ByteArr 16} (hlen : msg.length = 17)
    (h : Granted s (o.delivered msg)) : o = .full ∧ msg = StatusResponse.marshal ⟨bootstrapStatusOK, s⟩ := by
  cases o with
  | full =>
    refine ⟨rfl, ?_⟩
    exact (h.eq_of_length (by rw [StatusResponse.marshal_length]; exact hlen.symm)).symm
  | short n e =>
    refine absurd h (not_granted ?_)
    simp only [WriteOutcome.delivered, List.length_take]
    omega

theorem granted_responded {env : ServerEnv} {resp : StatusResponse} {c : NetConn} {s : ByteArr 16}
    (hfresh : c.tx = []) (hg : Granted s (responded env resp.marshal c).tx) :
    env.write = .full ∧ resp.status = bootstrapStatusOK ∧ resp.sessionID = s := by
  simp only [responded, hfresh, List.nil_append] at hg
  obtain ⟨hw, hmsg⟩ := granted_delivered resp.marshal_length hg
  obtain rfl := StatusResponse.marshal_injective hmsg
  exact ⟨hw, rfl, rfl⟩

def Persisted (pub : Bytes) (reg : Option Registry) : Prop :=
  ∃ r d, reg = some r ∧ Registry.load none r.disk = .ok d ∧ ∃ x ∈ d.devices, x.pubKey = pub

/-- The stream is a bootstrap request that redeems an invite, and the store is not written. -/
def UnsavedRequest (env : ServerEnv) (reg : Option Registry) (b : Bytes) : Prop :=
  ∃ r q, reg = some r ∧ b.head? = some msgTypeBootstrap ∧
    unmarshalBootstrapRequest (b.take bootstrapRequestSize) = .ok q ∧
    (Registry.redeemable env.now q.token.val r.data).isSome ∧ env.save ≠ .ok

theorem granted_dispatched {cr : Crypto} {env : ServerEnv} {hs : Handshaker} {c c' : NetConn}
    {reg reg' : Option Registry} {res : Except GoError ServerAuthResult} {s : ByteArr 16}
    (hd : Dispatched cr env hs c reg (res, c', reg')) (hfresh : c.tx = []) (hg : Granted s c'.tx) :
    env.write = .full ∧
      ((∃ r, res = .ok r ∧ r.sessionID = s ∧
          ∀ q, c.rx.content.head? = some msgTypeBootstrap →
            unmarshalBootstrapRequest (c.rx.content.take bootstrapRequestSize) = .ok q →
              Persisted q.devicePub.val reg') ∨
        UnsavedRequest env reg c.rx.content) := by
  have h13 : protocolVersion ≠ msgTypeBootstrap := by decide
  have h23 : msgTypeDeviceAuth ≠ msgTypeBootstrap := by decide
  cases hd with
  | incomplete _ e rx he hin => exact absurd hg (not_granted (by simp [hfresh]))
  | unrecognised _ rx hin hrx => exact absurd hg (not_granted (by simp [hfresh]))
  | disabled rx resp hno hin hrx => exact absurd (granted_responded hfresh hg).2.1 hno
  | hmac _ rx sid _ hin hlen hrx hans =>
    cases hans with
    | refused e hno =>
      have hstatus := (@granted_responded env ⟨Protocol.authStatusFail, env.failBytes⟩ _ s hfresh hg).2.1
      exact absurd hstatus (by decide : Protocol.authStatusFail ≠ bootstrapStatusOK)
    | unsent e hno =>
      exact absurd (@granted_responded env ⟨Protocol.authStatusOK, env.sid⟩ _ s hfresh hg).1 hno
    | accepted hvalid hsid hwrite =>
      obtain ⟨-, -, hs⟩ := @granted_responded env ⟨Protocol.authStatusOK, env.sid⟩ _ s hfresh hg
      refine ⟨hwrite, .inl ⟨_, rfl, hs, fun q hq _ => ?_⟩⟩
      rw [hin, Option.some.injEq] at hq
      exact absurd hq h13
  | device r r' rx _ _ hin hlen hrx hans =>
    cases hans with
    | refused e resp r hno => exact absurd (granted_responded hfresh hg).2.1 hno
    | accepted pub r =>
      obtain ⟨hw, -, hs⟩ := granted_responded hfresh hg
      refine ⟨hw, .inl ⟨_, rfl, hs, fun q hq _ => ?_⟩⟩
      rw [hin, Option.some.injEq] at hq
      exact absurd hq h23
  | bootstrap r r' rx q _ _ hin hlen hrx hq hans =>
    cases hans with
    | refused e resp hno hred => exact absurd (granted_responded hfresh hg).2.1 hno
    | unsaved e _ hred hsave =>
      exact ⟨(granted_responded hfresh hg).1, .inr ⟨r, q, rfl, hin, hq, hred, hsave⟩⟩
    | accepted _ d hsave hfile hdev =>
      obtain ⟨hw, -, hs⟩ := granted_responded hfresh hg
      refine ⟨hw, .inl ⟨_, rfl, hs, fun q' _ hq' => ?_⟩⟩
      obtain rfl : q = q' := Except.ok.inj (hq.symm.trans hq')
      exact ⟨r', d, rfl, by simp [Registry.load, hfile], hdev⟩

theorem unsaved_dispatched {cr : Crypto} {env : ServerEnv} {hs : Handshaker} {c c' : NetConn}
    {reg reg' : Option Registry} {res : Except GoError ServerAuthResult}
    (hd : Dispatched cr env hs c reg (res, c', reg')) (hfresh : c.tx = []) (hw : env.write = .full)
    (hlen : bootstrapRequestSize ≤ c.rx.content.length) (hun : UnsavedRequest env reg c.rx.content) :
    (∃ e, res = .error e) ∧ Granted env.sid c'.tx := by
  obtain ⟨r, q, rfl, hv, hq, hred, hsave⟩ := hun
  have h13 : protocolVersion ≠ msgTypeBootstrap := by decide
  have h23 : msgTypeDeviceAuth ≠ msgTypeBootstrap := by decide
  have hyes := @not_noRequest (some r) _ _ hv (.inr (.inr ⟨rfl, .inr hlen⟩))
  cases hd with
  | incomplete _ e rx he hin => exact absurd (.inl hin) hyes
  | unrecognised _ rx hin hrx => exact absurd (.inr hin) hyes
  | hmac _ rx sid _ hin => exact absurd (Option.some.inj (hin.symm.trans hv)) h13
  | device _ r' rx _ _ hin => exact absurd (Option.some.inj (hin.symm.trans hv)) h23
  | bootstrap _ r' rx q' _ _ hin _ hrx hq' hans =>
    obtain rfl : q = q' := Except.ok.inj (hq.symm.trans hq')
    cases hans with
    | refused e resp hno hnone =>
      rw [hnone] at hred
      cases hred
    | unsaved e _ _ _ =>
      refine ⟨⟨e, rfl⟩, ?_⟩
      simp only [responded, hfresh, hw, WriteOutcome.delivered, List.nil_append]
      exact List.prefix_refl _
    | accepted _ d hok hfile hdev => exact absurd hok hsave

/-! ## Both ends together -/

/-- Each end receives exactly the bytes that the other end's writes delivered, in any chunks. -/
structure Linked (cr : Crypto) (client : Client) (cenv : ClientEnv) (senv : ServerEnv) (hs : Handshaker)
    (reg : Option Registry) (cc sc : NetConn) : Prop where
  clientFresh : cc.tx = []
  serverFresh : sc.tx = []
  toServer : sc.rx.content = (client.handshake cr cenv cc).2.tx
  toClient : cc.rx.content = (serverDispatch cr senv hs reg sc).2.1.tx

/-- A session ID that the client returns was accepted by the server, and a bootstrapped device is in
the registry file. -/
def Agree (cr : Crypto) (client : Client) (cenv : ClientEnv) (senv : ServerEnv) (hs : Handshaker)
    (reg : Option Registry) (cc sc : NetConn) : Prop :=
  ∀ s, (client.handshake cr cenv cc).1 = .ok s →
    (∃ res, (serverDispatch cr senv hs reg sc).1 = .ok res ∧ res.sessionID = s) ∧
      ∀ token kp label, client = .bootstrap token kp label →
        Persisted kp.publicKey.val (serverDispatch cr senv hs reg sc).2.2

/-- A bootstrap with a redeemable token over a working connection, while the store cannot be saved. -/
def UnsavedBootstrap (client : Client) (cenv : ClientEnv) (senv : ServerEnv) (reg : Option Registry) : Prop :=
  ∃ token kp label r, client = .bootstrap token kp label ∧ reg = some r ∧
    (Registry.redeemable senv.now (copyArr 32 token).val r.data).isSome ∧ senv.save ≠ .ok ∧
    cenv.write = .full ∧ senv.write = .full

theorem bootstrap_content {cr : Crypto} {token label b : Bytes} {kp : KeyPair} {env : ClientEnv}
    (hb : b = (Client.bootstrap token kp label).request cr env) :
    b.head? = some msgTypeBootstrap ∧ b.length = bootstrapRequestSize ∧
      unmarshalBootstrapRequest (b.take bootstrapRequestSize) = .ok (bootstrapRequest token kp label env) := by
  subst hb
  have hlen : ((Client.bootstrap token kp label).request cr env).length = bootstrapRequestSize :=
    BootstrapRequest.marshal_length _
  refine ⟨rfl, hlen, ?_⟩
  rw [← hlen, List.take_length]
  exact unmarshalBootstrapRequest_marshal _

theorem bootstrap_of_head {cr : Crypto} {client : Client} {env : ClientEnv}
    (h : (client.request cr env).head? = some msgTypeBootstrap) :
    ∃ token kp label, client = .bootstrap token kp label := by
  cases client with
  | hmac h' => exact absurd (Option.some.inj h) (by decide : protocolVersion ≠ msgTypeBootstrap)
  | device kp => exact absurd (Option.some.inj h) (by decide : msgTypeDeviceAuth ≠ msgTypeBootstrap)
  | bootstrap token kp label => exact ⟨token, kp, label, rfl⟩

/-- **The two ends agree**, but for a bootstrap that is not saved: it is answered with status 0 all the same. -/
theorem agree_iff_not_unsaved (cr : Crypto) (client : Client) (cenv : ClientEnv) (senv : ServerEnv)
    (hs : Handshaker) (reg : Option Registry) (cc sc : NetConn)
    (hl : Linked cr client cenv senv hs reg cc sc) :
    Agree cr client cenv senv hs reg cc sc ↔ ¬UnsavedBootstrap client cenv senv reg := by
  have hd := serverDispatch_cases cr senv hs reg sc
  rcases hres : serverDispatch cr senv hs reg sc with ⟨res, c', reg'⟩
  have htc := hl.toClient
  rw [hres] at hd htc
  simp only at htc
  constructor
  · rintro hagree ⟨token, kp, label, r, rfl, rfl, hred, hsave, hcw, hsw⟩
    have hnonce : (∃ h, Client.bootstrap token kp label = .hmac h) → cenv.nonceErr = none := by
      rintro ⟨h, hh⟩
      cases hh
    have hts := hl.toServer
    rw [handshake_tx cr _ cenv cc hnonce hcw, hl.clientFresh, List.nil_append] at hts
    obtain ⟨hv, hlen, hq⟩ := bootstrap_content hts
    obtain ⟨⟨e, rfl⟩, hg⟩ := unsaved_dispatched hd hl.serverFresh hsw hlen.ge ⟨r, _, rfl, hv, hq, hred, hsave⟩
    rw [← htc] at hg
    obtain ⟨⟨res', hok, -⟩, -⟩ := hagree senv.sid ((handshake_ok_iff cr _ cenv cc senv.sid).mpr ⟨hnonce, hcw, hg⟩)
    rw [hres] at hok
    cases hok
  · intro hno s hok
    obtain ⟨hnonce, hcw, hg⟩ := (handshake_ok_iff cr client cenv cc s).mp hok
    have hts := hl.toServer
    rw [handshake_tx cr client cenv cc hnonce hcw, hl.clientFresh, List.nil_append] at hts
    rw [htc] at hg
    obtain ⟨hsw, ⟨res', hres', hsid, hdev⟩ | ⟨r, q, rfl, hv, hq, hred, hsave⟩⟩ :=
      granted_dispatched hd hl.serverFresh hg
    · rw [hres]
      refine ⟨⟨res', hres', hsid⟩, ?_⟩
      rintro token kp label rfl
      obtain ⟨hv, -, hq⟩ := bootstrap_content hts
      simpa [bootstrapRequest] using hdev _ hv hq
    · -- The granting response of an unsaved request is what the condition excludes.
      obtain ⟨token, kp, label, rfl⟩ := bootstrap_of_head (hts ▸ hv)
      obtain ⟨-, -, hq'⟩ := bootstrap_content hts
      obtain rfl := Except.ok.inj (hq.symm.trans hq')
      exact absurd ⟨token, kp, label, r, rfl, rfl, hred, hsave, hcw, hsw⟩ hno

/-! ## One bootstrap, saved and not saved -/

def invitingRegistry : Registry where
  data := { invites := [{
    token := (copyArr 32 [7]).val, tokenID := ascii "ab", label := [], maxUses := 1, expiresAt := 0, createdAt := 0 }] }

def newcomer : Client := .bootstrap [7] ⟨copyArr 32 [9], copyArr 64 [9]⟩ (ascii "laptop")

def newcomerEnv : ClientEnv where
  now := 0
  nonce := copyArr 16 [3]

def bootstrapEnv (o : Registry.SaveOutcome) : ServerEnv where
  now := 0
  sid := copyArr 16 [1, 2, 3]
  failBytes := copyArr 16 []
  save := o

def newcomerConn : NetConn where
  rx := { chunks := [StatusResponse.marshal ⟨bootstrapStatusOK, copyArr 16 [1, 2, 3]⟩], fin := .eof }

def inviterConn : NetConn where
  rx := { chunks := [(newcomer.request hashCrypto newcomerEnv).take 10,
    (newcomer.request hashCrypto newcomerEnv).drop 10], fin := .eof }

theorem linked_bootstrap (o : Registry.SaveOutcome) (h : o = .ok ∨ o = .renameFails .closed) :
    Linked hashCrypto newcomer newcomerEnv (bootstrapEnv o) (new hashCrypto []) (some invitingRegistry)
      newcomerConn inviterConn := by
  rcases h with rfl | rfl
  · exact ⟨rfl, rfl, by decide +kernel, by decide +kernel⟩
  · exact ⟨rfl, rfl, by decide +kernel, by decide +kernel⟩

theorem agree_saved_bootstrap :
    (newcomer.handshake hashCrypto newcomerEnv newcomerConn).1 = .ok (copyArr 16 [1, 2, 3]) ∧
      (Agree hashCrypto newcomer newcomerEnv (bootstrapEnv .ok) (new hashCrypto []) (some invitingRegistry)
        newcomerConn inviterConn ↔
        ¬UnsavedBootstrap newcomer newcomerEnv (bootstrapEnv .ok) (some invitingRegistry)) :=
  ⟨by decide +kernel, agree_iff_not_unsaved _ _ _ _ _ _ _ _ (linked_bootstrap .ok (.inl rfl))⟩

theorem unsaved_bootstrap_disagrees :
    Linked hashCrypto newcomer newcomerEnv (bootstrapEnv (.renameFails .closed)) (new hashCrypto [])
        (some invitingRegistry) newcomerConn inviterConn ∧
      ¬Agree hashCrypto newcomer newcomerEnv (bootstrapEnv (.renameFails .closed)) (new hashCrypto [])
        (some invitingRegistry) newcomerConn inviterConn := by
  refine ⟨linked_bootstrap _ (.inr rfl), fun h => ?_⟩
  have hok : (newcomer.handshake hashCrypto newcomerEnv newcomerConn).1 = .ok (copyArr 16 [1, 2, 3]) := by
    decide +kernel
  obtain ⟨⟨res, hres, -⟩, -⟩ := h _ hok
  have herr : (serverDispatch hashCrypto (bootstrapEnv (.renameFails .closed)) (new hashCrypto [])
      (some invitingRegistry) inviterConn).1 = .error (.wrap "bootstrap server: %w" []
        (.wrap "registry: save after bootstrap: %w" [] (.sys .closed))) := by
    decide +kernel
  rw [herr] at hres
  cases hres

end Daxson.Auth
