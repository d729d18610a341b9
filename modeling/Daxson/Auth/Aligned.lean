import Daxson.Auth.Agreement

/-! # What a handshake leaves on the connection

A successful handshake has read its own message and nothing of what is behind it.
-/

open Lib

namespace Daxson.Auth

open Invite
open Protocol (protocolVersion)

def AuthMode.requestSize : AuthMode → Nat
  | .hmac => Protocol.authRequestSize
  | .device => deviceAuthRequestSize
  | .bootstrap => bootstrapRequestSize

def AuthMode.version : AuthMode → UInt8
  | .hmac => protocolVersion
  | .device => msgTypeDeviceAuth
  | .bootstrap => msgTypeBootstrap

/-! ## The server's end -/

theorem dispatch_consumes {cr : Crypto} {env : ServerEnv} {hs : Handshaker} {c c' : NetConn}
    {reg reg' : Option Registry} {res : ServerAuthResult} (h : Dispatched cr env hs c reg (.ok res, c', reg')) :
    c.rx.content.head? = some res.mode.version ∧ res.mode.requestSize ≤ c.rx.content.length ∧
      c'.rx.content = c.rx.content.drop res.mode.requestSize := by
  generalize hr : (Except.ok res : Except GoError ServerAuthResult) = r at h
  cases h with
  | incomplete _ e rx he hin => cases hr
  | unrecognised _ rx hin hrx => cases hr
  | disabled rx resp hno hin hrx => cases hr
  | hmac _ rx sid _ hin hlen hrx hans =>
    cases hans with
    | refused e hno => cases hr
    | unsent e hno => cases hr
    | accepted hvalid hsid hwrite =>
      cases hr
      exact ⟨hin, hlen, hrx⟩
  | device _ _ rx _ _ hin hlen hrx hans =>
    cases hans with
    | refused e resp r hno => cases hr
    | accepted pub r =>
      cases hr
      exact ⟨hin, hlen, hrx⟩
  | bootstrap _ _ rx q _ _ hin hlen hrx hq hans =>
    cases hans with
    | refused e resp hno hred => cases hr
    | unsaved e r' hred hsave => cases hr
    | accepted r' d hsave hfile hdev =>
      cases hr
      exact ⟨hin, hlen, hrx⟩

/-! ## The client's end -/

def Client.mode : Client → AuthMode
  | .hmac _ => .hmac
  | .device _ => .device
  | .bootstrap _ _ _ => .bootstrap

theorem client_request (cr : Crypto) (client : Client) (env : ClientEnv) :
    (client.request cr env).head? = some client.mode.version ∧
      (client.request cr env).length = client.mode.requestSize := by
  cases client with
  | hmac h => exact ⟨rfl, request_length cr h env.nonce env.now⟩
  | device kp => exact ⟨rfl, DeviceAuthRequest.marshal_length _⟩
  | bootstrap token kp label => exact ⟨rfl, BootstrapRequest.marshal_length _⟩

theorem read_behind_write {o : WriteOutcome} {b got : Bytes} {e : Option SysError} {c c₁ : NetConn} {n : Nat}
    {rx : ByteReader} (hw : c.write o b = (e, c₁)) (hread : readFull n c₁.rx = (.ok got, rx)) :
    n ≤ c.rx.content.length ∧ rx.content = c.rx.content.drop n := by
  have hrx : c₁.rx = c.rx := (congrArg (NetConn.rx ∘ Prod.snd) hw).symm
  obtain ⟨hlen, -, hrest⟩ := readFull_inv hread
  rw [hrx] at hlen hrest
  exact ⟨hlen, hrest⟩

theorem statusExchange_consumes {sendErr recvErr what : String} {ok : UInt8} {refusal : UInt8 → GoError}
    {req : Bytes} {env : ClientEnv} {c c' : NetConn} {sid : ByteArr 16}
    (h : statusExchange sendErr recvErr what ok refusal req env c = (.ok sid, c')) :
    17 ≤ c.rx.content.length ∧ c'.rx.content = c.rx.content.drop 17 := by
  unfold statusExchange at h
  split at h
  · cases h
  · rename_i c₁ hw
    split at h
    · cases h
    · rename_i buf rx hread
      split at h
      · cases h
      · split at h
        · cases h
          exact read_behind_write hw hread
        · cases h

theorem clientHandshake_consumes {cr : Crypto} {hs : Handshaker} {env : ClientEnv} {c c' : NetConn} {sid : ByteArr 16}
    (h : hs.clientHandshake cr env c = (.ok sid, c')) :
    17 ≤ c.rx.content.length ∧ c'.rx.content = c.rx.content.drop 17 := by
  unfold Handshaker.clientHandshake at h
  split at h
  · cases h
  · split at h
    · cases h
    · rename_i c₁ hw
      split at h
      · cases h
      · rename_i resp rx hread
        split at h
        · cases h
        · cases h
          exact read_behind_write hw hread

theorem client_consumes {cr : Crypto} {client : Client} {env : ClientEnv} {c c' : NetConn} {sid : ByteArr 16}
    (h : client.handshake cr env c = (.ok sid, c')) :
    17 ≤ c.rx.content.length ∧ c'.rx.content = c.rx.content.drop 17 := by
  cases client with
  | hmac hs => exact clientHandshake_consumes h
  | device kp => exact statusExchange_consumes h
  | bootstrap token kp label => exact statusExchange_consumes h

/-! ## The version byte put back -/

theorem answer_rx (cr : Crypto) (env : ServerEnv) (hs : Handshaker) (req : Bytes) (c : NetConn) (rx : ByteReader) :
    hs.answer cr env req { c with rx := rx } =
      ((hs.answer cr env req c).1, { (hs.answer cr env req c).2 with rx := rx }) := by
  unfold Handshaker.answer
  split_ifs
  · rfl
  · rfl
  · cases env.sidErr with
    | some e => rfl
    | none => cases env.write <;> rfl

theorem serverHandshake_congr (cr : Crypto) (env : ServerEnv) (hs : Handshaker) (c : NetConn) {rx : ByteReader}
    (hcontent : rx.content = c.rx.content) (hfin : rx.fin = c.rx.fin) :
    (hs.serverHandshake cr env { c with rx := rx }).1 = (hs.serverHandshake cr env c).1 ∧
      (hs.serverHandshake cr env { c with rx := rx }).2.tx = (hs.serverHandshake cr env c).2.tx ∧
      (hs.serverHandshake cr env { c with rx := rx }).2.rx.content = (hs.serverHandshake cr env c).2.rx.content := by
  obtain ⟨hres, hrest⟩ := readFull_congr Protocol.authRequestSize hcontent hfin
  unfold Handshaker.serverHandshake
  dsimp only
  generalize readFull Protocol.authRequestSize rx = x at hres hrest ⊢
  generalize readFull Protocol.authRequestSize c.rx = y at hres hrest ⊢
  obtain ⟨res, rx₁⟩ := x
  obtain ⟨res', rx₂⟩ := y
  obtain rfl : res = res' := hres
  cases res with
  | error e => exact ⟨rfl, rfl, hrest⟩
  | ok req =>
    dsimp only
    rw [answer_rx cr env hs req c rx₁, answer_rx cr env hs req c rx₂]
    exact ⟨rfl, rfl, hrest⟩

theorem serverDispatch_hmac (cr : Crypto) (env : ServerEnv) (hs : Handshaker) (reg : Option Registry) (c : NetConn)
    (hin : c.rx.content.head? = some protocolVersion) :
    (serverDispatch cr env hs reg c).1 = hmacResult (hs.serverHandshake cr env c).1 ∧
      (serverDispatch cr env hs reg c).2.1.tx = (hs.serverHandshake cr env c).2.tx ∧
      (serverDispatch cr env hs reg c).2.1.rx.content = (hs.serverHandshake cr env c).2.rx.content ∧
      (serverDispatch cr env hs reg c).2.2 = reg := by
  obtain ⟨t, ht⟩ := List.head?_eq_some_iff.mp hin
  obtain ⟨rx, hread, hrx⟩ := readFull_first ht
  have hfin : (rx.prepend [protocolVersion]).fin = c.rx.fin := by
    have := readFull_fin 1 c.rx
    rw [hread] at this
    exact this
  have hcontent : (rx.prepend [protocolVersion]).content = c.rx.content := by
    rw [Reader.content_prepend, hrx, ht]
    rfl
  obtain ⟨hres, htx, hrest⟩ := serverHandshake_congr cr env hs c hcontent hfin
  unfold serverDispatch
  rw [hread]
  dsimp only
  rw [if_pos (by rfl), ← hres, ← htx, ← hrest]
  generalize hs.serverHandshake cr env { c with rx := rx.prepend [protocolVersion] } = x
  obtain ⟨res, c'⟩ := x
  cases res <;> exact ⟨rfl, rfl, rfl, rfl⟩

theorem handshakes_leave_stream_aligned (cr : Crypto) (env : ServerEnv) (hs : Handshaker) (reg : Option Registry) :
    (∀ (c c' : NetConn) (res : ServerAuthResult) (reg' : Option Registry),
      serverDispatch cr env hs reg c = (.ok res, c', reg') →
      res.mode.requestSize ≤ c.rx.content.length ∧ c'.rx.content = c.rx.content.drop res.mode.requestSize ∧
        ∀ (client : Client) (cenv : ClientEnv) (rest : Bytes),
          c.rx.content = client.request cr cenv ++ rest → c'.rx.content = rest) ∧
    (∀ (client : Client) (cenv : ClientEnv) (c c' : NetConn) (sid : ByteArr 16),
      client.handshake cr cenv c = (.ok sid, c') →
      17 ≤ c.rx.content.length ∧ c'.rx.content = c.rx.content.drop 17) ∧
    (∀ c : NetConn, c.rx.content.head? = some 0x01 →
      (serverDispatch cr env hs reg c).1 = hmacResult (hs.serverHandshake cr env c).1 ∧
        (serverDispatch cr env hs reg c).2.1.tx = (hs.serverHandshake cr env c).2.tx ∧
        (serverDispatch cr env hs reg c).2.1.rx.content = (hs.serverHandshake cr env c).2.rx.content ∧
        (serverDispatch cr env hs reg c).2.2 = reg) := by
  refine ⟨?_, fun client cenv c c' sid h => client_consumes h, fun c hin => serverDispatch_hmac cr env hs reg c hin⟩
  intro c c' res reg' h
  have hd := serverDispatch_cases cr env hs reg c
  rw [h] at hd
  obtain ⟨hversion, hlen, hrest⟩ := dispatch_consumes hd
  refine ⟨hlen, hrest, ?_⟩
  intro client cenv rest hin
  obtain ⟨hhead, hsize⟩ := client_request cr client cenv
  have hmode : client.mode = res.mode := by
    rw [hin, List.head?_append, hhead, Option.some_or, Option.some.injEq] at hversion
    generalize client.mode = m at hversion ⊢
    generalize res.mode = m' at hversion ⊢
    cases m <;> cases m' <;> first | rfl | exact absurd hversion (by decide)
  rw [hrest, hin, ← hmode, ← hsize, List.drop_left]

end Daxson.Auth
