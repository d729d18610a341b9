import Daxson.Auth.Label
import Daxson.Auth.Skew
import Daxson.Invite.RoundTrip
import Daxson.Lib.Machine

/-! # Handshakes on an open network

Any bytes may arrive. The requests and links of the owners are recorded, and nothing else is to verify.
-/

open Lib.BigEndian Lib.Machine

namespace Daxson.Json

/-! ## JSON text has no control characters -/

def Printable (s : Bytes) : Prop := ∀ c ∈ s, 0x20 ≤ c

instance (s : Bytes) : Decidable (Printable s) := List.decidableBAll (0x20 ≤ ·) s

@[simp] theorem printable_append {s t : Bytes} : Printable (s ++ t) ↔ Printable s ∧ Printable t := by
  simp [Printable, or_imp, forall_and]

theorem printable_escapeByte (c : UInt8) : Printable (escapeByte c) := by
  have hall : ∀ n : Fin 256, Printable (escapeByte (UInt8.ofNat n)) := by decide +kernel
  simpa using hall ⟨c.toNat, c.toNat_lt⟩

theorem printable_escape {r : Rune} (h : r.Good) : Printable r.escape := by
  cases r with
  | invalid b => exact (by decide : Printable (ascii "\\ufffd"))
  | valid b =>
    cases b with
    | nil => exact absurd rfl (Whole.ne_nil h)
    | cons c rest =>
      cases rest with
      | nil => exact printable_escapeByte c
      | cons d rest =>
        have hb : Printable (c :: d :: rest) := by
          intro x hx
          rcases List.mem_cons.mp hx with rfl | hx
          · have hlead := Whole.front h
            rw [UInt8.lt_iff_toNat_lt] at hlead
            rw [UInt8.le_iff_toNat_le]
            exact (by decide : 0x20 ≤ 0x80).trans (Nat.not_lt.mp hlead)
          · have hcont := (whole_continuation h).2 x hx
            simp only [isContinuation, Bool.and_eq_true, decide_eq_true_eq] at hcont
            exact UInt8.le_trans (by decide) hcont.1
        change Printable (if (c :: d :: rest) = [0xE2, 0x80, 0xA8] then _
          else if (c :: d :: rest) = [0xE2, 0x80, 0xA9] then _ else _)
        split_ifs
        · decide
        · decide
        · exact hb

theorem printable_quote (s : Bytes) : Printable (quote s) := by
  have hbody : Printable ((runes s).flatMap Rune.escape) := by
    intro c hc
    obtain ⟨r, hr, hc⟩ := List.mem_flatMap.mp hc
    exact printable_escape (runes_good s r hr) c hc
  unfold quote
  rw [printable_append, printable_append]
  exact ⟨by decide, hbody, by decide⟩

theorem printable_formatInt (x : Int) : Printable (formatInt x) := by
  have hdec : Printable (decimal x.natAbs) := by
    intro c hc
    have hdigit := List.all_eq_true.mp (decimal_isDigit x.natAbs) c hc
    simp only [isDigit, Bool.and_eq_true, decide_eq_true_eq] at hdigit
    exact UInt8.le_trans (by decide) hdigit.1
  rw [formatInt_eq]
  split_ifs
  · exact printable_append.mpr ⟨(by decide : Printable [45]), hdec⟩
  · exact hdec

theorem printable_intercalate {sep : Bytes} (hsep : Printable sep) (xs : List Bytes) (h : ∀ x ∈ xs, Printable x) :
    Printable (sep.intercalate xs) := by
  induction xs with
  | nil => simp [List.intercalate, Printable]
  | cons x xs ih =>
    have hrest := ih fun x hx => h x (by simp [hx])
    cases xs with
    | nil => simpa [List.intercalate] using h x (by simp)
    | cons y ys =>
      rw [List.intercalate_cons_cons, printable_append, printable_append]
      exact ⟨⟨h x (by simp), hsep⟩, hrest⟩

theorem printable_object (fields : List (Bytes × Bytes)) (h : ∀ m ∈ fields, Printable m.2) :
    Printable (object fields) := by
  unfold object
  rw [printable_append, printable_append]
  refine ⟨by decide, printable_intercalate (by decide) _ fun x hx => ?_, by decide⟩
  obtain ⟨m, hm, rfl⟩ := List.mem_map.mp hx
  rw [printable_append]
  exact ⟨printable_quote m.1, printable_append.mpr ⟨(by decide : Printable [58]), h m hm⟩⟩

end Daxson.Json

namespace Daxson.Auth

open Invite Registry
open Json (Printable)
open Protocol (protocolVersion)

/-! ## What is signed -/

theorem printable_marshal (p : Payload) : Printable p.marshal := by
  have hbytes : ∀ s : GoSlice, Printable (bytesText s) := by
    intro s
    cases s with
    | none => exact (by decide : Printable (ascii "null"))
    | some b =>
      have hsafe : Printable (Lib.Base64.std.encode b) := by
        intro c hc
        have := htmlSafe_encode b c hc
        simp only [Json.htmlSafe, Bool.and_eq_true, decide_eq_true_eq] at this
        exact this.1.1
      unfold bytesText
      rw [Json.printable_append, Json.printable_append]
      exact ⟨by decide, hsafe, by decide⟩
  apply Json.printable_object
  intro m hm
  obtain ⟨⟨f, text⟩, hmem, rfl⟩ := List.mem_map.mp hm
  simp only [Payload.members, List.mem_cons, List.mem_append, Prod.mk.injEq] at hmem
  rcases hmem with ⟨-, rfl⟩ | ⟨-, rfl⟩ | ⟨-, rfl⟩ | ⟨-, rfl⟩ | h | h | h | h
  · exact Json.printable_formatInt _
  · exact Json.printable_quote _
  · exact hbytes _
  · exact hbytes _
  · obtain ⟨-, rfl⟩ := Prod.mk.inj (mem_omitEmpty h)
    exact Json.printable_quote _
  · obtain ⟨-, rfl⟩ := Prod.mk.inj (mem_omitEmpty h)
    exact Json.printable_formatInt _
  · obtain ⟨-, rfl⟩ := Prod.mk.inj (mem_omitEmpty h)
    exact Json.printable_formatInt _
  · obtain ⟨-, rfl⟩ := Prod.mk.inj (mem_omitEmpty h)
    exact hbytes _

theorem mem_beBytes (k v : Nat) (h : v < 256 ^ (k + 1)) : UInt8.ofNat (v / 256 ^ k) ∈ beBytes (k + 1) v := by
  induction k generalizing v with
  | zero => simp [beBytes]
  | succ k ih =>
    have hlt : v / 256 < 256 ^ (k + 1) := by
      rw [Nat.div_lt_iff_lt_mul (by norm_num), ← pow_succ]
      exact h
    unfold beBytes
    rw [pow_succ', ← Nat.div_div_eq_div_mul]
    exact List.mem_append_left _ (ih (v / 256) hlt)

/-- The top byte of a time bucket is a control character. -/
theorem signedMessage_not_printable (pub : ByteArr 32) (nonce : ByteArr 16) (bucket : UInt64)
    (h : bucket.toNat < 0x20 * 256 ^ 7) : ¬ Printable (signedMessage pub nonce bucket) := by
  intro hprint
  have htop : bucket.toNat / 256 ^ 7 < 0x20 := by omega
  have hmem := mem_beBytes 7 bucket.toNat (by omega)
  have hle := hprint _ (List.mem_append_right _ hmem)
  rw [UInt8.le_iff_toNat_le, UInt8.toNat_ofNat_of_lt' (htop.trans (by decide))] at hle
  exact absurd hle (Nat.not_le.mpr htop)

theorem signedMessage_injective {pub pub' : ByteArr 32} {nonce nonce' : ByteArr 16} {b b' : UInt64}
    (h : signedMessage pub nonce b = signedMessage pub' nonce' b') : pub = pub' ∧ nonce = nonce' ∧ b = b' := by
  unfold signedMessage at h
  obtain ⟨hfront, hb⟩ := List.append_inj h (by simp [pub.property, pub'.property, nonce.property, nonce'.property])
  obtain ⟨hpub, hnonce⟩ := List.append_inj hfront (by simp [pub.property, pub'.property])
  exact ⟨Subtype.ext hpub, Subtype.ext hnonce, UInt64.toNat_inj.mp (beBytes_inj b.toNat_lt b'.toNat_lt hb)⟩

/-- The message under a token of the PSK. -/
def tokenMessage (nonce bucket : Bytes) : Bytes := ascii "daxson-v1:" ++ hexEncode nonce ++ ascii ":" ++ bucket

theorem hexEncode_injective : Function.Injective hexEncode := by
  have hdigit : ∀ a b : UInt8, a < 16 → b < 16 → hexDigit a = hexDigit b → a.toNat = b.toNat := by
    intro a b ha hb h
    have hval := congrArg Json.hexVal h
    rw [Json.hexVal_hexDigit a ha, Json.hexVal_hexDigit b hb] at hval
    exact Option.some.inj hval
  have hhigh : ∀ x : UInt8, x / 16 < 16 := by
    intro x
    rw [UInt8.lt_iff_toNat_lt, UInt8.toNat_div]
    exact Nat.div_lt_of_lt_mul x.toNat_lt
  have hlow : ∀ x : UInt8, x % 16 < 16 := by
    intro x
    rw [UInt8.lt_iff_toNat_lt, UInt8.toNat_mod]
    exact Nat.mod_lt _ (by decide)
  have hbyte : ∀ x y : UInt8, hexDigit (x / 16) = hexDigit (y / 16) → hexDigit (x % 16) = hexDigit (y % 16) →
      x = y := by
    intro x y hd hm
    have hdiv := hdigit _ _ (hhigh x) (hhigh y) hd
    have hmod := hdigit _ _ (hlow x) (hlow y) hm
    rw [UInt8.toNat_div, UInt8.toNat_div] at hdiv
    rw [UInt8.toNat_mod, UInt8.toNat_mod] at hmod
    apply UInt8.toNat_inj.mp
    change x.toNat / 16 = y.toNat / 16 at hdiv
    change x.toNat % 16 = y.toNat % 16 at hmod
    omega
  intro s
  induction s with
  | nil =>
    intro t h
    cases t with
    | nil => rfl
    | cons y t => cases h
  | cons x s ih =>
    intro t h
    cases t with
    | nil => cases h
    | cons y t =>
      simp only [hexEncode, List.flatMap_cons, List.cons_append, List.nil_append, List.cons.injEq] at h
      rw [hbyte x y h.1 h.2.1, ih h.2.2]

theorem tokenMessage_injective {nonce nonce' bucket bucket' : Bytes} (hlen : nonce.length = nonce'.length)
    (h : tokenMessage nonce bucket = tokenMessage nonce' bucket') : nonce = nonce' ∧ bucket = bucket' := by
  unfold tokenMessage at h
  obtain ⟨hfront, hbucket⟩ := List.append_inj h (by simp [hexEncode_length, hlen])
  obtain ⟨hfront, -⟩ := List.append_inj hfront (by simp [hexEncode_length, hlen])
  exact ⟨hexEncode_injective (List.append_cancel_left hfront), hbucket⟩

theorem formatInt_injective {a b : Int} (ha : 0 ≤ a) (hb : 0 ≤ b) (h : formatInt a = formatInt b) : a = b := by
  rw [Json.formatInt_eq, Json.formatInt_eq, if_neg (by omega), if_neg (by omega)] at h
  have hval := congrArg Json.digitsVal h
  rw [Json.digitsVal_decimal, Json.digitsVal_decimal] at hval
  omega

/-! ## The network -/

/-- A session that the server has opened, with what was known when it did. -/
structure Session where
  result : ServerAuthResult
  now : Time
  stream : Bytes
  requests : List (Client × ClientEnv)
  reg : Option Registry

structure World where
  reg : Option Registry
  /-- The requests that owners of the PSK and of device keys have made. -/
  requests : List (Client × ClientEnv) := []
  /-- The invite links that owners of identity keys have signed. -/
  links : List (KeyPair × Payload) := []
  sessions : List Session := []
  /-- The links whose signature an import has checked. -/
  imported : List Payload := []

inductive Event where
  | request (client : Client) (env : ClientEnv)
  | sign (kp : KeyPair) (p : Payload)
  /-- A connection to the server. What it delivers is up to the network. -/
  | arrive (env : ServerEnv) (c : NetConn)
  | importLink (p : Payload)
  /-- A call of the CLI or of the dashboard. -/
  | manage (op : Registry.Op)

/-- The session of a handshake that succeeds. -/
def World.opened (w : World) (env : ServerEnv) (c : NetConn) : Except GoError ServerAuthResult → List Session
  | .ok result => [⟨result, env.now, c.rx.content, w.requests, w.reg⟩]
  | .error _ => []

def World.step (cr : Crypto) (hs : Handshaker) (w : World) : Event → Option World
  | .request client env => some { w with requests := w.requests ++ [(client, env)] }
  | .sign kp p => some { w with links := w.links ++ [(kp, p)] }
  | .arrive env c =>
    let (res, _, reg) := serverDispatch cr env hs w.reg c
    some { w with reg := reg, sessions := w.sessions ++ w.opened env c res }
  | .importLink p => if (p.verifySignature cr).1 = none then some { w with imported := w.imported ++ [p] } else none
  | .manage op => some { w with reg := w.reg.map fun r => (r.exec cr op).2 }

/-- An owner of the key has signed the message, as a request or as an invite. -/
def World.Signed (w : World) (pub : ByteArr 32) (msg : Bytes) : Prop :=
  (∃ kp env, (.device kp, env) ∈ w.requests ∧ kp.publicKey = pub ∧
    msg = signedMessage pub env.nonce (bucketOf env.now)) ∨
    ∃ kp p, (kp, p) ∈ w.links ∧ kp.publicKey = pub ∧ msg = p.message

/-- Of the messages that are checked, the token of the PSK and the signature of a key in `own` are not forged. -/
def Unforged (cr : Crypto) (hs : Handshaker) (own : ByteArr 32 → Prop) (w : World) : Event → Prop
  | .arrive env c =>
    (c.rx.content.head? = some protocolVersion →
      ∀ bucket ∈ [timeBucket env.now, timeBucket (env.now - 30 * second)],
        slice c.rx.content 17 49 = computeToken cr hs.psk (slice c.rx.content 1 17) bucket →
          ∃ made, (.hmac hs, made) ∈ w.requests ∧
            tokenMessage (slice c.rx.content 1 17) bucket = tokenMessage made.nonce.val (timeBucket made.now)) ∧
    (c.rx.content.head? = some msgTypeDeviceAuth → ∀ pub, own pub → slice c.rx.content 1 33 = pub.val →
      cr.ed25519Verify pub.val (slice c.rx.content 1 57) (slice c.rx.content 57 121) = true →
        w.Signed pub (slice c.rx.content 1 57))
  | .importLink p => ∀ pub, own pub → p.serverKey.bytes = pub.val →
      cr.ed25519Verify pub.val p.message p.sig.bytes = true → w.Signed pub p.message
  | _ => True

/-- The clocks of the server and of the owners. -/
def Event.Clocked : Event → Prop
  | .request _ env => Auth.Clocked env.now
  | .arrive env _ => Auth.Clocked env.now
  | _ => True

/-! ## What the server accepts -/

/-- How a session comes about. -/
inductive Accepted (cr : Crypto) (hs : Handshaker) (env : ServerEnv) (reg : Option Registry) (stream : Bytes) :
    ServerAuthResult → Prop where
  | hmac (hhead : stream.head? = some protocolVersion) (hlen : 49 ≤ stream.length)
      (hvalid : validToken cr hs.psk env.now (stream.take 49) = true) :
      Accepted cr hs env reg stream { sessionID := env.sid, mode := .hmac }
  | device (pub : Bytes) (r : Registry) (hreg : reg = some r) (hhead : stream.head? = some msgTypeDeviceAuth) :
      Accepted cr hs env reg stream { sessionID := env.sid, devicePub := some pub, mode := .device }
  | bootstrap (pub : Bytes) :
      Accepted cr hs env reg stream { sessionID := env.sid, devicePub := some pub, mode := .bootstrap }

section Accepted

variable {cr : Crypto} {hs : Handshaker} {env : ServerEnv} {reg : Option Registry} {c : NetConn}
variable {result : ServerAuthResult}

theorem dispatch_accepted (h : (serverDispatch cr env hs reg c).1 = .ok result) :
    Accepted cr hs env reg c.rx.content result := by
  have hd := serverDispatch_cases cr env hs reg c
  generalize serverDispatch cr env hs reg c = out at h hd
  cases hd with
  | incomplete | unrecognised | disabled => cases h
  | hmac reg rx res c' hin hlen hrx hans =>
    cases hans with
    | refused | unsent => cases h
    | accepted hvalid =>
      obtain rfl := Except.ok.inj h
      exact .hmac hin hlen hvalid
  | device r r' rx res c' hin hlen hrx hans =>
    cases hans with
    | refused => cases h
    | accepted pub =>
      obtain rfl := Except.ok.inj h
      exact .device pub r rfl hin
  | bootstrap r r' rx q res c' hin hlen hrx hq hans =>
    cases hans with
    | accepted =>
      obtain rfl := Except.ok.inj h
      exact .bootstrap _
    | _ => cases h

theorem validToken_bucket {psk : Bytes} {now : Time} (hnow : Clocked now) {req : Bytes}
    (h : validToken cr psk now req = true) :
    ∃ b : Int, formatInt b ∈ [timeBucket now, timeBucket (now - 30 * second)] ∧
      slice req 17 49 = computeToken cr psk (slice req 1 17) (formatInt b) ∧
      (b = now.unix / 30 ∨ b = now.unix / 30 - 1) := by
  unfold validToken at h
  rw [Bool.or_eq_true, beq_iff_eq, beq_iff_eq, timeBucket_now hnow, timeBucket_before hnow] at h
  rw [timeBucket_now hnow, timeBucket_before hnow]
  rcases h with h | h
  · exact ⟨_, by simp, h, .inl rfl⟩
  · exact ⟨_, by simp, h, .inr rfl⟩

end Accepted

/-! ## Authentic sessions -/

/-- The request is one that an owner of the PSK made less than a minute before, or in the same half minute. -/
def Session.Tokened (cr : Crypto) (hs : Handshaker) (s : Session) : Prop :=
  ∃ env, (.hmac hs, env) ∈ s.requests ∧ hs.request cr env.nonce env.now <+: s.stream ∧
    (env.now.unix / 30 = s.now.unix / 30 ∨ env.now.unix / 30 = s.now.unix / 30 - 1)

/-- The request is, up to its signature, one that an owner of the key made within a minute of now, and the registry
lists the key first as not revoked. -/
def Session.SignedBy (cr : Crypto) (pub : ByteArr 32) (s : Session) : Prop :=
  (∃ kp env, (.device kp, env) ∈ s.requests ∧ kp.publicKey = pub ∧
    s.stream.take 57 = (deviceRequest cr kp env).marshal.take 57 ∧ |env.now.unix - s.now.unix| < 60) ∧
  ∃ r, s.reg = some r ∧ Authorized pub.val r.data

theorem hmac_session {cr : Crypto} {hs : Handshaker} {own : ByteArr 32 → Prop} {w : World} {env : ServerEnv}
    {c : NetConn}
    (hclocked : ∀ q ∈ w.requests, Clocked q.2.now) (hnow : Clocked env.now)
    (hunforged : Unforged cr hs own w (.arrive env c)) (result : ServerAuthResult)
    (hhead : c.rx.content.head? = some protocolVersion) (hlen : 49 ≤ c.rx.content.length)
    (hvalid : validToken cr hs.psk env.now (c.rx.content.take 49) = true) :
    Session.Tokened cr hs ⟨result, env.now, c.rx.content, w.requests, w.reg⟩ := by
  obtain ⟨b, hchecked, htoken, hb⟩ := validToken_bucket hnow hvalid
  rw [slice_take _ le_rfl, slice_take _ (by norm_num)] at htoken
  obtain ⟨cenv, hmade, hmsg⟩ := hunforged.1 hhead _ hchecked htoken
  have hcenv := hclocked _ hmade
  have hnlen : (slice c.rx.content 1 17).length = cenv.nonce.val.length := by
    rw [slice_length _ (by omega), cenv.nonce.property]
  obtain ⟨hnonce, hbucket⟩ := tokenMessage_injective hnlen hmsg
  have hpos := unix_div_pos hnow.started
  have hcpos := unix_div_pos hcenv.started
  refine ⟨cenv, hmade, ?_, ?_⟩
  · have hwhole : c.rx.content.take 49 = hs.request cr cenv.nonce cenv.now := by
      rw [take_slice _ (by norm_num : 17 ≤ 49), take_slice _ (by norm_num : 1 ≤ 17), hnonce, htoken, hnonce, hbucket,
        List.take_one, hhead]
      simp [Handshaker.request, computeToken]
    rw [← hwhole]
    exact List.take_prefix _ _
  · rw [timeBucket_now hcenv] at hbucket
    obtain rfl := formatInt_injective (by omega) (by omega) hbucket
    exact hb

theorem deviceRequest_take (cr : Crypto) (kp : KeyPair) (env : ClientEnv) :
    (deviceRequest cr kp env).marshal.take 57 =
      msgTypeDeviceAuth :: signedMessage kp.publicKey env.nonce (bucketOf env.now) := by
  have hmarshal : (deviceRequest cr kp env).marshal =
      (msgTypeDeviceAuth :: signedMessage kp.publicKey env.nonce (bucketOf env.now)) ++
        (deviceRequest cr kp env).sig.val := by
    simp [deviceRequest, DeviceAuthRequest.marshal, signedMessage, copyArr_val]
  rw [hmarshal]
  apply List.take_left'
  simp [signedMessage, kp.publicKey.property, env.nonce.property]

theorem device_session {cr : Crypto} {hs : Handshaker} {own : ByteArr 32 → Prop} {w : World} {env : ServerEnv}
    {c : NetConn}
    (hclocked : ∀ q ∈ w.requests, Clocked q.2.now) (hnow : Clocked env.now)
    (hunforged : Unforged cr hs own w (.arrive env c)) (result : ServerAuthResult) {pub : ByteArr 32} (hown : own pub)
    {r : Registry} (hreg : w.reg = some r) (hhead : c.rx.content.head? = some msgTypeDeviceAuth)
    (hadmits : Admits pub.val (serverDispatch cr env hs w.reg c).1) :
    Session.SignedBy cr pub ⟨result, env.now, c.rx.content, w.requests, w.reg⟩ := by
  obtain ⟨t, hin⟩ := List.head?_eq_some_iff.mp hhead
  obtain ⟨rx, hrx, hdevice, -⟩ := serverDispatch_first cr env hs w.reg c hin (by decide)
  rw [hdevice r rfl hreg] at hadmits
  obtain ⟨hgood, hpub, hauth⟩ := (deviceServerHandshake_admits_iff cr env hnow r _ hrx pub.val).mp hadmits
  obtain ⟨q, -, hkey, -, hbucket, hmsg⟩ := unmarshal_fields msgTypeDeviceAuth hgood.complete
  obtain rfl : q.pubKey = pub := Subtype.ext (hkey.trans hpub)
  have hfields : t.take 56 = signedMessage q.pubKey q.nonce q.timeBucket := by
    rw [take_slice t (by norm_num : 48 ≤ 56), take_slice t (by norm_num : 32 ≤ 48), hmsg]
    rfl
  have hkeyAt : slice c.rx.content 1 33 = q.pubKey.val := by
    rw [hin, hkey]
    rfl
  have hmsgAt : slice c.rx.content 1 57 = signedMessage q.pubKey q.nonce q.timeBucket := by
    rw [hin, ← hfields]
    rfl
  have hsigAt : slice c.rx.content 57 121 = slice t 56 120 := by
    rw [hin]
    rfl
  have hsigned : w.Signed q.pubKey (signedMessage q.pubKey q.nonce q.timeBucket) := by
    rw [← hmsgAt]
    refine hunforged.2 hhead q.pubKey hown hkeyAt ?_
    rw [hmsgAt, hsigAt, hmsg, hkey]
    exact hgood.signed
  have hfresh := hgood.fresh
  rw [← hbucket, abs_le] at hfresh
  have hranged := hnow.ranged
  refine ⟨?_, r, hreg, hauth⟩
  rcases hsigned with ⟨kp, cenv, hmade, hkp, hsigned⟩ | ⟨kp, p, -, -, hsigned⟩
  · obtain ⟨-, hnonce, hb⟩ := signedMessage_injective hsigned
    refine ⟨kp, cenv, hmade, hkp, ?_, ?_⟩
    · dsimp only
      rw [deviceRequest_take, hkp, ← hsigned, ← hfields, hin]
      rfl
    · rw [hb, bucketOf_toNat (hclocked _ hmade)] at hfresh
      rw [abs_lt]
      dsimp only at hfresh ⊢
      omega
  · -- An invite is text and a time bucket is not.
    refine absurd ?_ (signedMessage_not_printable q.pubKey q.nonce q.timeBucket (by omega))
    rw [hsigned]
    exact printable_marshal _

theorem import_link {cr : Crypto} {hs : Handshaker} {own : ByteArr 32 → Prop} {w : World} {p : Payload}
    (hclocked : ∀ q ∈ w.requests, Clocked q.2.now) (hunforged : Unforged cr hs own w (.importLink p))
    (hverified : (p.verifySignature cr).1 = none) {pub : ByteArr 32} (hown : own pub)
    (hpub : p.serverKey.bytes = pub.val) :
    ∃ kp q, (kp, q) ∈ w.links ∧ kp.publicKey = pub ∧ q.message = p.message := by
  obtain ⟨-, -, hverify⟩ := (verifySignature_iff cr p).mp hverified
  rw [hpub] at hverify
  rcases hunforged pub hown hpub hverify with ⟨kp, env, hmade, -, hsigned⟩ | ⟨kp, q, hmade, hkp, hsigned⟩
  · have hlt := (hclocked _ hmade).ranged
    have hbucket := bucketOf_toNat (hclocked _ hmade)
    dsimp only at hlt hbucket
    refine absurd ?_ (signedMessage_not_printable pub env.nonce (bucketOf env.now) (by omega))
    rw [← hsigned]
    exact printable_marshal _
  · exact ⟨kp, q, hmade, hkp, hsigned.symm⟩

/-- Every session and every imported link goes back to an owner. -/
structure World.Authentic (cr : Crypto) (hs : Handshaker) (own : ByteArr 32 → Prop) (w : World) : Prop where
  clocked : ∀ q ∈ w.requests, Clocked q.2.now
  tokens : ∀ s ∈ w.sessions, s.result.mode = .hmac → s.Tokened cr hs
  devices : ∀ s ∈ w.sessions, s.result.mode = .device → ∀ pub, own pub → s.result.devicePub = some pub.val →
    s.SignedBy cr pub
  links : ∀ p ∈ w.imported, ∀ pub, own pub → p.serverKey.bytes = pub.val →
    ∃ kp q, (kp, q) ∈ w.links ∧ kp.publicKey = pub ∧ q.message = p.message

theorem authentic_step {cr : Crypto} {hs : Handshaker} {own : ByteArr 32 → Prop} {w w' : World} {e : Event}
    (h : w.Authentic cr hs own) (hgood : Unforged cr hs own w e ∧ e.Clocked) (hstep : w.step cr hs e = some w') :
    w'.Authentic cr hs own := by
  cases e with
  | request client env =>
    obtain rfl := Option.some.inj hstep
    refine ⟨?_, h.tokens, h.devices, h.links⟩
    intro q hq
    rcases List.mem_append.mp hq with hq | hq
    · exact h.clocked q hq
    · rw [List.mem_singleton.mp hq]
      exact hgood.2
  | sign kp p =>
    obtain rfl := Option.some.inj hstep
    refine ⟨h.clocked, h.tokens, h.devices, fun p' hp' pub hown hpub => ?_⟩
    obtain ⟨kp, q, hmem, hrest⟩ := h.links p' hp' pub hown hpub
    exact ⟨kp, q, List.mem_append_left _ hmem, hrest⟩
  | arrive env c =>
    obtain rfl := Option.some.inj hstep
    have hnew : ∀ s ∈ w.opened env c (serverDispatch cr env hs w.reg c).1, ∃ result,
        s = ⟨result, env.now, c.rx.content, w.requests, w.reg⟩ ∧ (serverDispatch cr env hs w.reg c).1 = .ok result := by
      intro s hs'
      cases hres : (serverDispatch cr env hs w.reg c).1 with
      | error e =>
        rw [hres] at hs'
        cases hs'
      | ok result =>
        rw [hres] at hs'
        exact ⟨result, List.mem_singleton.mp hs', rfl⟩
    refine ⟨h.clocked, fun s hs' hmode => ?_, fun s hs' hmode pub hown hpub => ?_, h.links⟩
    · rcases List.mem_append.mp hs' with hs' | hs'
      · exact h.tokens s hs' hmode
      · obtain ⟨result, rfl, hok⟩ := hnew s hs'
        cases dispatch_accepted hok with
        | hmac hhead hlen hvalid => exact hmac_session h.clocked hgood.2 hgood.1 _ hhead hlen hvalid
        | device | bootstrap => cases hmode
    · rcases List.mem_append.mp hs' with hs' | hs'
      · exact h.devices s hs' hmode pub hown hpub
      · obtain ⟨result, rfl, hok⟩ := hnew s hs'
        cases dispatch_accepted hok with
        | hmac | bootstrap => cases hmode
        | device key r hreg hhead =>
          obtain rfl : key = pub.val := Option.some.inj hpub
          exact device_session h.clocked hgood.2 hgood.1 _ hown hreg hhead ⟨env.sid, hok⟩
  | importLink p =>
    dsimp only [World.step] at hstep
    split_ifs at hstep with hverified
    obtain rfl := Option.some.inj hstep
    refine ⟨h.clocked, h.tokens, h.devices, fun p' hp' pub hown hpub => ?_⟩
    rcases List.mem_append.mp hp' with hp' | hp'
    · exact h.links p' hp' pub hown hpub
    · obtain rfl := List.mem_singleton.mp hp'
      exact import_link h.clocked hgood.1 hverified hown hpub
  | manage op =>
    obtain rfl := Option.some.inj hstep
    exact ⟨h.clocked, h.tokens, h.devices, h.links⟩

/-- A scheme whose signature of a 56 byte message holds the message. -/
def markedCrypto : Crypto :=
  { hashCrypto with
    ed25519Sign := fun _ msg => (copyArr 64 msg).val
    ed25519Verify := fun _ msg sig => decide (msg.length = 56 ∧ sig = msg ++ List.replicate 8 0)
    ed25519Sign_length := fun _ msg => (copyArr 64 msg).property }

def onTheTrain : ClientEnv where
  now := 59 * second
  nonce := copyArr 16 [3]

def copied : NetConn where
  rx := { chunks := [(deviceRequest markedCrypto enrolled onTheTrain).marshal], fin := .eof }

def nextBucket : ServerEnv where
  now := 60 * second
  sid := copyArr 16 []
  failBytes := copyArr 16 []

/-- A request is delivered by its device and once more by somebody who copied it. -/
def deliveredTwice : List Event :=
  [.request (.device enrolled) onTheTrain, .arrive nextBucket copied, .arrive nextBucket copied]

theorem copied_unforged {w : World} (h : (.device enrolled, onTheTrain) ∈ w.requests) :
    Unforged markedCrypto ⟨[]⟩ (· = enrolled.publicKey) w (.arrive nextBucket copied) := by
  have hhead : copied.rx.content.head? = some msgTypeDeviceAuth := rfl
  have hmsg : slice copied.rx.content 1 57 =
      signedMessage enrolled.publicKey onTheTrain.nonce (bucketOf onTheTrain.now) := by
    decide +kernel
  refine ⟨fun hno => ?_, fun _ pub hown _ _ => ?_⟩
  · rw [hhead] at hno
    exact absurd hno (by decide)
  · subst hown
    exact .inl ⟨enrolled, onTheTrain, h, rfl, hmsg⟩

end Daxson.Auth
