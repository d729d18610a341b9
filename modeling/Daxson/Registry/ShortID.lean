import Daxson.Registry.Proofs

/-! # Revocation by short ID

`RevokeDevice` and `RevokeInvite` stop at the first entry that carries the ID, which is a cut hash.
-/

open Lib.Grow

namespace Daxson.Registry

open Invite

/-- The device IDs are those of the keys. -/
def Tagged (cr : Crypto) (d : StoreData) : Prop :=
  ∀ x ∈ d.devices, x.deviceID = shortDeviceID cr x.pubKey

theorem tagged_plan {cr : Crypto} (op : Op) (d d' : StoreData) (hp : plan cr op d = some d')
    (h : Tagged cr d) : Tagged cr d' := by
  intro x hx
  rcases (plan_entries hp).1 x hx with hnew | ⟨y, hy, hkey, hid, -⟩
  · cases op with
    | bootstrap now o token pub label =>
      simp only [Op.device, Option.some.injEq] at hnew
      subst hnew
      rfl
    | _ => cases hnew
  · rw [hkey, hid]
    exact h y hy

/-- A registry whose file has not been written yet. -/
def fresh (path : Bytes) (tmp : Option FileContent) : Registry := { disk := { path := path, tmp := tmp } }

theorem tagged_execAll (cr : Crypto) (ops : List Op) (path : Bytes) (tmp : Option FileContent) :
    Tagged cr ((fresh path tmp).execAll cr ops).data := by
  have hempty : Tagged cr {} := by simp [Tagged]
  refine (holds_execAll tagged_plan ?_ ops (fresh path tmp) ⟨hempty, ?_⟩).1
  · intro d h y hy
    obtain ⟨x, hx, rfl⟩ := List.mem_map.mp hy
    exact h x hx
  · intro d hd
    simp only [fresh, Registry.load, Except.ok.injEq] at hd
    exact hd ▸ hempty

/-! ## Devices -/

/-- The key may log in: the first entry with it is not revoked. -/
def Authorized (pub : Bytes) (d : StoreData) : Prop :=
  ∃ i x, firstMatch (fun x : Device => bytesEqual x.pubKey pub) d.devices = some (i, x) ∧ x.revoked = false

theorem authorizeDevice_ok_iff (now : Time) (o : SaveOutcome) (pub : Bytes) (r : Registry) :
    (r.authorizeDevice now o pub).1 = authStatusOK ↔ Authorized pub r.data := by
  unfold authorizeDevice Authorized
  cases hm : firstMatch (fun x : Device => bytesEqual x.pubKey pub) r.data.devices with
  | none => simp [authStatusUnknown, authStatusOK]
  | some p =>
    obtain ⟨i, x⟩ := p
    cases hx : x.revoked <;> simp [hx, authStatusOK, authStatusRevoked]

/-- The first entry under the ID is one of this key: the entry that `RevokeDevice` revokes. -/
def FirstListed (id pub : Bytes) (d : StoreData) : Prop :=
  ∃ i x, firstMatch (fun x : Device => x.deviceID == id) d.devices = some (i, x) ∧ x.pubKey = pub

theorem authorized_revoked_iff {cr : Crypto} {d : StoreData} (ht : Tagged cr d) {pub : Bytes} {i : Nat}
    {x : Device} (hm : firstMatch (fun x : Device => x.deviceID == shortDeviceID cr pub) d.devices = some (i, x)) :
    Authorized pub { d with devices := d.devices.modify i fun x => { x with revoked := true } } ↔
      Authorized pub d ∧ x.pubKey ≠ pub := by
  obtain ⟨hi, -, hbefore⟩ := (firstMatch_eq_some_iff _ _ _ _).mp hm
  unfold Authorized
  rw [firstMatch_modify (fun x : Device => bytesEqual x.pubKey pub) (fun x => { x with revoked := true })
    (fun _ => rfl)]
  cases hk : firstMatch (fun x : Device => bytesEqual x.pubKey pub) d.devices with
  | none => simp
  | some p =>
    obtain ⟨j, y⟩ := p
    obtain ⟨hj, hy, hfirst⟩ := (firstMatch_eq_some_iff _ _ _ _).mp hk
    rw [bytesEqual_iff] at hy
    -- The entry with the key carries the ID, so it is not before `i`.
    have hij : i ≤ j := by
      by_contra hlt
      have := hbefore j y (by omega) hj
      rw [ht y (List.mem_of_getElem? hj), hy] at this
      simp at this
    have hsame : j = i ↔ x.pubKey = pub := by
      constructor
      · intro h
        subst h
        obtain rfl : x = y := Option.some.inj (hi.symm.trans hj)
        exact hy
      · intro h
        by_contra hne
        have := hfirst i x (by omega) hi
        rw [← h, ← Bool.not_eq_true, bytesEqual_iff] at this
        exact this rfl
    by_cases h : x.pubKey = pub
    · simp [hsame.mpr h, h]
    · simp [mt hsame.mp h, h]

/-- `RevokeDevice(id)` without an error leaves no key with this ID that may log in. -/
def DeviceRevocationComplete (cr : Crypto) (o : SaveOutcome) (id : Bytes) (r : Registry) : Prop :=
  (r.revokeDevice o id).1 = none → ∀ now o' pub, shortDeviceID cr pub = id →
    ((r.revokeDevice o id).2.authorizeDevice now o' pub).1 ≠ authStatusOK

theorem deviceRevocationComplete_iff {cr : Crypto} {r : Registry} (ht : Tagged cr r.data) (o : SaveOutcome)
    (id : Bytes) :
    DeviceRevocationComplete cr o id r ↔
      o ≠ .ok ∨ ∀ pub, shortDeviceID cr pub = id → Authorized pub r.data → FirstListed id pub r.data := by
  unfold DeviceRevocationComplete FirstListed revokeDevice
  cases hm : firstMatch (fun x : Device => x.deviceID == id) r.data.devices with
  | none =>
    -- No entry carries the ID, so no key with it is registered at all.
    refine iff_of_true (by simp) (.inr fun pub hpub ⟨j, y, hk, _⟩ => ?_)
    have hy := firstMatch_pos hk
    rw [bytesEqual_iff] at hy
    have hmem := List.mem_of_getElem? (firstMatch_getElem hk)
    have := (firstMatch_eq_none_iff _ _).mp hm y hmem
    rw [ht y hmem, hy, hpub] at this
    simp at this
  | some p =>
    obtain ⟨i, x⟩ := p
    dsimp only
    simp only [save_err_iff, authorizeDevice_ok_iff, save_data, ne_eq]
    have hiff : ∀ pub, shortDeviceID cr pub = id →
        (Authorized pub { r.data with devices := r.data.devices.modify i fun x => { x with revoked := true } } ↔
          Authorized pub r.data ∧ x.pubKey ≠ pub) := by
      rintro pub rfl
      exact authorized_revoked_iff ht hm
    constructor
    · intro h
      by_cases ho : o = .ok
      · refine .inr fun pub hpub ha => ⟨i, x, rfl, ?_⟩
        by_contra hne
        exact h ho 0 .ok pub hpub ((hiff pub hpub).mpr ⟨ha, hne⟩)
      · exact .inl ho
    · rintro (ho | h) ho' now o' pub hpub ha
      · exact ho ho'
      · obtain ⟨ha, hne⟩ := (hiff pub hpub).mp ha
        obtain ⟨i', x', heq, hx'⟩ := h pub hpub ha
        simp only [Option.some.injEq, Prod.mk.injEq] at heq
        exact hne (heq.2 ▸ hx')

/-! ## Invites -/

/-- The ID is the text, or the text is the beginning of it. -/
def IdMatches (p id : Bytes) : Prop := id = p ∨ p <+: id

theorem bootstrap_status_iff (cr : Crypto) (now : Time) (o : SaveOutcome) (token pub label : Bytes)
    (r : Registry) :
    (r.bootstrap cr now o token pub label).1.1 = bootstrapStatusOK ↔ (redeemable now token r.data).isSome := by
  cases hred : redeemable now token r.data with
  | none => simpa using (bootstrap_refused cr now o token pub label r hred).2.2
  | some p =>
    obtain ⟨i, found⟩ := p
    rw [bootstrap_redeemed cr now o token pub label r hred]
    cases o <;> simp [save, bootstrapStatusOK]

theorem redeemable_revoked (now : Time) (token : Bytes) (d : StoreData) (i : Nat) :
    (redeemable now token
        { d with invites := d.invites.modify i fun inv => { inv with revoked := true } }).isSome =
      (redeemable now token { d with invites := d.invites.eraseIdx i }).isSome := by
  have h := firstMatch_modify_eraseIdx (fun inv : InviteRecord => !inv.revoked && bytesEqual inv.token token)
    (fun inv => { inv with revoked := true }) (fun _ => rfl) d.invites i
  unfold redeemable
  dsimp only
  generalize firstMatch _ (d.invites.modify i _) = a at h ⊢
  generalize firstMatch _ (d.invites.eraseIdx i) = b at h ⊢
  cases a with
  | none =>
    cases b with
    | none => rfl
    | some b => cases h
  | some a =>
    cases b with
    | none => cases h
    | some b =>
      simp only [Option.map_some, Option.some.injEq] at h
      dsimp only
      rw [h]
      split_ifs <;> rfl

/-- `RevokeInvite(p)` without an error leaves no token with such an ID that may register a device. -/
def InviteRevocationComplete (cr : Crypto) (o : SaveOutcome) (p : Bytes) (r : Registry) : Prop :=
  (r.revokeInvite o p).1 = none → ∀ now o' token pub label, IdMatches p (shortHex cr token) →
    ((r.revokeInvite o p).2.bootstrap cr now o' token pub label).1.1 ≠ bootstrapStatusOK

/-- No token with such an ID is redeemable without the entry that `RevokeInvite` revokes. -/
def NoOtherInvite (cr : Crypto) (p : Bytes) (d : StoreData) : Prop :=
  ∀ i inv, firstMatch (fun inv : InviteRecord => inv.tokenID == p || p.isPrefixOf inv.tokenID) d.invites =
    some (i, inv) → ∀ now token, IdMatches p (shortHex cr token) →
      redeemable now token { d with invites := d.invites.eraseIdx i } = none

theorem inviteRevocationComplete_iff (cr : Crypto) (o : SaveOutcome) (p : Bytes) (r : Registry) :
    InviteRevocationComplete cr o p r ↔ o ≠ .ok ∨ NoOtherInvite cr p r.data := by
  unfold InviteRevocationComplete NoOtherInvite revokeInvite
  cases firstMatch (fun inv : InviteRecord => inv.tokenID == p || p.isPrefixOf inv.tokenID) r.data.invites with
  | none => simp
  | some q =>
    obtain ⟨i, inv⟩ := q
    dsimp only
    simp only [save_err_iff, ne_eq, bootstrap_status_iff, save_data, redeemable_revoked,
      Option.not_isSome_iff_eq_none]
    constructor
    · intro h
      by_cases ho : o = .ok
      · refine .inr fun i' inv' heq now token hid => ?_
        simp only [Option.some.injEq, Prod.mk.injEq] at heq
        exact heq.1 ▸ h ho now .ok token [] [] hid
      · exact .inl ho
    · rintro (ho | h) ho' now o' token pub label hid
      · exact absurd ho' ho
      · exact h i inv rfl now token hid

/-- In every reachable state, what it takes for the two revocations to be complete. -/
theorem revocation_complete_iff (cr : Crypto) (path : Bytes) (tmp : Option FileContent) (ops : List Op)
    (o : SaveOutcome) (id p : Bytes) :
    let r := (fresh path tmp).execAll cr ops
    (DeviceRevocationComplete cr o id r ↔
        o ≠ .ok ∨ ∀ pub, shortDeviceID cr pub = id → Authorized pub r.data → FirstListed id pub r.data) ∧
      (InviteRevocationComplete cr o p r ↔ o ≠ .ok ∨ NoOtherInvite cr p r.data) :=
  ⟨deviceRevocationComplete_iff (tagged_execAll cr ops path tmp) o id, inviteRevocationComplete_iff cr o p _⟩

/-- Two keys under the ID 693bcd and two tokens under 93613343: one of each stays in force. -/
theorem revocation_by_id_incomplete :
    let key1 : Bytes := List.replicate 30 0 ++ [0x0A, 0x4A]
    let key2 : Bytes := List.replicate 30 0 ++ [0x17, 0x1B]
    let tok1 : ByteArr 32 := ⟨List.replicate 30 0 ++ [0xC4, 0x93], rfl⟩
    let tok2 : ByteArr 32 := ⟨List.replicate 30 0 ++ [0xD3, 0xF4], rfl⟩
    let r := (fresh [] none).execAll hashCrypto
      [.createInvite 0 .ok (.ok tok1) [] 5 0, .createInvite 0 .ok (.ok tok2) [] 5 0,
        .bootstrap 0 .ok tok1.val key1 [], .bootstrap 0 .ok tok1.val key2 []]
    let id := shortDeviceID hashCrypto key1
    let p := shortHex hashCrypto tok1.val
    (shortDeviceID hashCrypto key2 = id ∧ (r.revokeDevice .ok id).1 = none ∧
        ((r.revokeDevice .ok id).2.authorizeDevice 0 .ok key2).1 = authStatusOK) ∧
      (shortHex hashCrypto tok2.val = p ∧ (r.revokeInvite .ok p).1 = none ∧
        ((r.revokeInvite .ok p).2.bootstrap hashCrypto 0 .ok tok2.val key1 []).1 = (bootstrapStatusOK, none)) := by
  decide +kernel

end Daxson.Registry
