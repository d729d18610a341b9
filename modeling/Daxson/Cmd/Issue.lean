import Daxson.Dashboard

/-! # Issued links

The links of `daxson invite create` and of the dashboard, which has no server address to put into them.
-/

open Lib.Grow

namespace Daxson.Cmd

open Auth Invite Registry
open Dashboard (hour)

/-! ## The command -/

/-- `runInviteCreate`, with the results of `loadServerRegistry` and `tryLoadServerKey`. -/
def runInviteCreate (cr : Crypto) (env : IssueEnv) (serverKey : Except GoError (Option KeyPair))
    (server label : Bytes) (maxUses ttl : Int64) (reg : Except GoError Registry) : Except GoError (Bytes × Registry) :=
  match reg with
  | .error e => .error e
  | .ok reg =>
    match reg.createInvite cr env.now env.save env.draw label maxUses.toInt ttl.toInt with
    | (.error e, _) => .error e
    | (.ok rec, reg) =>
      let payload := recordPayload server rec
      match serverKey with
      | .ok (some key) => .ok ((signedBy cr key payload).encode, reg)
      | _ => .ok (payload.encode, reg)

/-! ## Redeeming at once -/

/-- The checks of an import at issue time, and the registry's answer to the token. -/
def Redeems (cr : Crypto) (now : Time) (link : Bytes) (reg : Registry) : Prop :=
  ∃ p, decode link = .ok p ∧ p.isExpired now = false ∧ (p.verifySignature cr).1 = none ∧
    ∀ o pub label, (reg.bootstrap cr now o p.token.bytes pub label).1.1 = bootstrapStatusOK

/-- No record before the new one stands in for it with an invite that is expired or used up. -/
def Unspent (now : Time) (token : Bytes) (d : StoreData) : Prop :=
  ∀ i inv, firstMatch (fun inv : InviteRecord => !inv.revoked && bytesEqual inv.token token) d.invites = some (i, inv) →
    inv.isExpired now = false ∧ inv.uses < inv.limit

theorem newInvite_unexpired (cr : Crypto) (now : Time) (tok label : Bytes) (maxUses ttl : Int) :
    (newInvite cr now tok label maxUses ttl).expiresAt = 0 ∨
      now.unix ≤ (newInvite cr now tok label maxUses ttl).expiresAt := by
  unfold newInvite
  dsimp only
  split_ifs with httl
  · right
    unfold Time.unix second
    rw [Int.fdiv_eq_ediv_of_nonneg _ (by norm_num), Int.fdiv_eq_ediv_of_nonneg _ (by norm_num)]
    exact Int.ediv_le_ediv (by norm_num) (by omega)
  · exact .inl rfl

theorem redeemable_issued (cr : Crypto) (now : Time) (tok label : Bytes) (maxUses ttl : Int) (d : StoreData) :
    (redeemable now tok { d with invites := d.invites ++ [newInvite cr now tok label maxUses ttl] }).isSome = true ↔
      Unspent now tok d := by
  have hmatch := firstMatch_append_singleton (fun inv : InviteRecord => !inv.revoked && bytesEqual inv.token tok)
    d.invites (newInvite cr now tok label maxUses ttl) (by simp [newInvite, bytesEqual_iff])
  unfold redeemable Unspent
  dsimp only
  rw [hmatch]
  cases firstMatch (fun inv : InviteRecord => !inv.revoked && bytesEqual inv.token tok) d.invites with
  | none =>
    have hfresh : (newInvite cr now tok label maxUses ttl).isExpired now = false := by
      rcases newInvite_unexpired cr now tok label maxUses ttl with hzero | hle
      · simp [InviteRecord.isExpired, hzero]
      · simp [InviteRecord.isExpired, hle]
    have hlimit : ¬ (newInvite cr now tok label maxUses ttl).limit ≤ (newInvite cr now tok label maxUses ttl).uses := by
      unfold InviteRecord.limit newInvite
      dsimp only
      split_ifs <;> omega
    simp [hfresh, hlimit]
  | some q =>
    obtain ⟨i, inv⟩ := q
    simp only [Option.getD_some, Option.some.injEq, Prod.mk.injEq]
    constructor
    · rintro h j inv' ⟨rfl, rfl⟩
      split_ifs at h with hexp hused
      · cases h
      · cases h
      · exact ⟨by simpa using hexp, by omega⟩
    · intro h
      obtain ⟨hexp, hused⟩ := h i inv ⟨rfl, rfl⟩
      rw [hexp, if_neg (by simp), if_neg (by omega)]
      rfl

theorem payload_unexpired {cr : Crypto} {now : Time} {tok label : Bytes} {maxUses ttl : Int} {p : Payload}
    (hclock : -2 ^ 63 ≤ (now + ttl : Time).unix ∧ (now + ttl : Time).unix < 2 ^ 63)
    (hp : p.expiresAt = Int64.ofInt (newInvite cr now tok label maxUses ttl).expiresAt) : p.isExpired now = false := by
  have hrange : (Int64.ofInt (newInvite cr now tok label maxUses ttl).expiresAt).toInt =
      (newInvite cr now tok label maxUses ttl).expiresAt := by
    apply Int64.toInt_ofInt_of_le <;> unfold newInvite <;> dsimp only <;> split_ifs <;> omega
  unfold Payload.isExpired
  rw [hp, hrange]
  rcases newInvite_unexpired cr now tok label maxUses ttl with hzero | hle
  · rw [hzero]
    rfl
  · simp [hle]

section Command

variable {cr : Crypto} {env : IssueEnv} {key : KeyPair} {server label : Bytes} {maxUses ttl : Int64} {tok : ByteArr 32}

/-- The payload of the command's link. -/
def issuedPayload (cr : Crypto) (env : IssueEnv) (key : KeyPair) (server label : Bytes) (maxUses ttl : Int64)
    (tok : ByteArr 32) : Payload :=
  signedBy cr key (recordPayload server (newInvite cr env.now tok.val label maxUses.toInt ttl.toInt))

theorem image_issued_sig : (issuedPayload cr env key server label maxUses ttl tok).image.sig =
    (issuedPayload cr env key server label maxUses ttl tok).sig :=
  if_neg (sign_sig_ne_nil cr key.privateKey _)

theorem decode_issued (hserver : server ≠ []) :
    decode (issuedPayload cr env key server label maxUses ttl tok).encode =
      .ok (issuedPayload cr env key server label maxUses ttl tok).image := by
  have hversion : (issuedPayload cr env key server label maxUses ttl tok).image.version = 1 := rfl
  have hread : (issuedPayload cr env key server label maxUses ttl tok).image.server ≠ [] :=
    mt (jsonString_eq_nil server).mp hserver
  have htoken : (issuedPayload cr env key server label maxUses ttl tok).image.token.bytes.length = 32 := tok.property
  rw [decode_encode]
  unfold Payload.check
  rw [if_neg (not_not.mpr hversion), if_neg hread, if_neg (not_not.mpr htoken)]

theorem issued_redeems_iff (key : KeyPair) {reg reg' : Registry} (hserver : server ≠ [])
    (hclock : -2 ^ 63 ≤ (env.now + ttl.toInt : Time).unix ∧ (env.now + ttl.toInt : Time).unix < 2 ^ 63)
    (hdata : reg'.data = { reg.data with
      invites := reg.data.invites ++ [newInvite cr env.now tok.val label maxUses.toInt ttl.toInt] }) :
    Redeems cr env.now (issuedPayload cr env key server label maxUses ttl tok).encode reg' ↔
      cr.ed25519Verify key.publicKey.val (issuedPayload cr env key server label maxUses ttl tok).image.message
        (issuedPayload cr env key server label maxUses ttl tok).sig.bytes = true ∧
          Unspent env.now tok.val reg.data := by
  have hexp : (issuedPayload cr env key server label maxUses ttl tok).image.isExpired env.now = false :=
    payload_unexpired hclock rfl
  have hverify : ((issuedPayload cr env key server label maxUses ttl tok).image.verifySignature cr).1 = none ↔
      cr.ed25519Verify key.publicKey.val (issuedPayload cr env key server label maxUses ttl tok).image.message
        (issuedPayload cr env key server label maxUses ttl tok).sig.bytes = true := by
    rw [verifySignature_iff, image_issued_sig]
    have hkey : (issuedPayload cr env key server label maxUses ttl tok).image.serverKey.bytes = key.publicKey.val := rfl
    rw [hkey]
    simp [key.publicKey.property, issuedPayload, signedBy, sign_sig_ne_nil]
  have hboot : (∀ o pub label', (reg'.bootstrap cr env.now o
      (issuedPayload cr env key server label maxUses ttl tok).image.token.bytes pub label').1.1 = bootstrapStatusOK) ↔
      Unspent env.now tok.val reg.data := by
    have htoken : (issuedPayload cr env key server label maxUses ttl tok).image.token.bytes = tok.val := rfl
    simp only [bootstrap_status_iff, htoken, hdata]
    rw [redeemable_issued]
    exact ⟨fun h => h .ok [] [], fun h _ _ _ => h⟩
  unfold Redeems
  rw [decode_issued hserver]
  simp only [Except.ok.injEq, exists_eq_left', hexp, hverify, hboot, true_and]

end Command

theorem decode_dashboard (cr : Crypto) (key : KeyPair) (rec : InviteRecord) :
    decode (signedBy cr key (recordPayload [] rec)).encode = .error (.new "invite: missing server address" []) := by
  have hversion : (signedBy cr key (recordPayload [] rec)).image.version = 1 := rfl
  have hserver : (signedBy cr key (recordPayload [] rec)).image.server = [] := rfl
  rw [decode_encode]
  unfold Payload.check
  rw [if_neg (not_not.mpr hversion), if_pos hserver]

/-- **Issued links.** Those of the dashboard never decode. -/
theorem issued_links_redeem_iff (cr : Crypto) (env : IssueEnv) (key : KeyPair) (reg : Registry)
    (hed : ∀ m, cr.ed25519Verify key.publicKey.val m (cr.ed25519Sign key.privateKey.val m) = true) :
    (∀ body resp reg', Dashboard.createInvite cr env (some key) body reg = (.ok resp, reg') →
      decode resp.link = .error (.new "invite: missing server address" [])) ∧
    ∀ server label maxUses ttl link reg', server ≠ [] → Json.validString label = true →
      -2 ^ 63 ≤ (env.now + ttl.toInt : Time).unix ∧ (env.now + ttl.toInt : Time).unix < 2 ^ 63 →
      runInviteCreate cr env (.ok (some key)) server label maxUses ttl (.ok reg) = .ok (link, reg') →
      ∃ tok p, env.draw = .ok tok ∧ p = issuedPayload cr env key server label maxUses ttl tok ∧ link = p.encode ∧
        (Redeems cr env.now link reg' ↔
          cr.ed25519Verify key.publicKey.val p.image.message p.sig.bytes = true ∧ Unspent env.now tok.val reg.data) ∧
        (p.image.message = p.message ↔ Json.validString server = true) ∧
        (Json.validString server = true → (Redeems cr env.now link reg' ↔ Unspent env.now tok.val reg.data)) := by
  constructor
  · intro body resp reg' h
    unfold Dashboard.createInvite at h
    cases body with
    | error e => cases h
    | ok body =>
      dsimp only at h
      split at h
      · cases h
      · cases h
        exact decode_dashboard cr key _
  · intro server label maxUses ttl link reg' hserver hlabel hclock h
    unfold runInviteCreate at h
    dsimp only at h
    split at h
    · cases h
    · rename_i rec r' hcreate
      obtain ⟨tok, hdraw, hrec, hdata⟩ := createInvite_ok hcreate
      subst hrec
      cases h
      have hredeems := issued_redeems_iff key hserver hclock hdata
      have hmessage := message_image_iff (issuedPayload cr env key server label maxUses ttl tok)
      refine ⟨tok, _, hdraw, rfl, rfl, hredeems, ?_, ?_⟩
      · rw [hmessage]
        exact and_iff_left hlabel
      · intro hutf8
        rw [hmessage.mpr ⟨hutf8, hlabel⟩] at hredeems
        exact hredeems.trans (and_iff_right (hed _))

def serverKeys : KeyPair := ⟨copyArr 32 [7], copyArr 64 [9]⟩

theorem issued_links_redeem_iff_first :
    let cr : Crypto := { hashCrypto with ed25519Verify := fun _ _ sig => sig == List.replicate 64 0xFF }
    ∃ link reg', runInviteCreate cr firstIssue (.ok (some serverKeys)) (ascii "vpn:443") (ascii "work") 1 (24 * hour)
      (.ok {}) = .ok (link, reg') ∧ Redeems cr firstIssue.now link reg' := by
  intro cr
  obtain ⟨-, hcommand⟩ := issued_links_redeem_iff cr firstIssue serverKeys {} (fun m => beq_self_eq_true _)
  refine ⟨_, _, rfl, ?_⟩
  obtain ⟨tok, p, -, -, -, -, -, hredeems⟩ := hcommand (ascii "vpn:443") (ascii "work") 1 (24 * hour) _ _ (by decide)
    (by decide +kernel) (by decide +kernel) rfl
  apply (hredeems (by decide +kernel)).mpr
  intro i inv h
  cases h

theorem dashboard_link_refused :
    ∃ resp reg', Dashboard.createInvite hashCrypto firstIssue (some serverKeys) (.ok {}) {} = (.ok resp, reg') ∧
      resp.link ≠ [] ∧ ¬ ∃ p, decode resp.link = .ok p := by
  refine ⟨_, _, rfl, by simp [Payload.encode, scheme, ascii], ?_⟩
  rintro ⟨p, hp⟩
  have hfail := decode_dashboard hashCrypto serverKeys
    (newInvite hashCrypto firstIssue.now (copyArr 32 [5]).val (ascii "invite") 1 (24 * hour).toInt)
  cases hp.symm.trans hfail

end Daxson.Cmd
