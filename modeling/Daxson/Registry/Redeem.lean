import Daxson.Registry.Proofs

/-! # What Bootstrap decides -/

open Lib.Grow

namespace Daxson.Registry

open Invite

/-- An invite that a `Bootstrap` with this token looks at. -/
def Offers (d : StoreData) (token : Bytes) (inv : InviteRecord) : Prop :=
  inv ∈ d.invites ∧ inv.token = token ∧ inv.revoked = false

def InviteRecord.PastExpiry (now : Time) (inv : InviteRecord) : Prop :=
  inv.expiresAt ≠ 0 ∧ inv.expiresAt < now.unix

theorem isExpired_iff (now : Time) (inv : InviteRecord) : inv.isExpired now = true ↔ inv.PastExpiry now := by
  unfold InviteRecord.isExpired InviteRecord.PastExpiry
  simp

theorem newDevice_labelled (cr : Crypto) (now : Time) (pub label : Bytes) :
    (newDevice cr now pub label).label ≠ [] := by
  unfold newDevice
  dsimp only
  split_ifs with hempty
  · rw [show ascii "device-" = [100, 101, 118, 105, 99, 101, 45] by decide]
    exact List.cons_ne_nil _ _
  · simpa using hempty

section Found

variable {cr : Crypto} {now : Time} {token pub label : Bytes} {r : Registry}

theorem not_offers_of_none
    (h : firstMatch (fun inv : InviteRecord => !inv.revoked && bytesEqual inv.token token) r.data.invites = none)
    (inv : InviteRecord) : ¬ Offers r.data token inv := by
  rintro ⟨hmem, htoken, hrev⟩
  have := (firstMatch_eq_none_iff _ _).mp h inv hmem
  rw [hrev, (bytesEqual_iff _ _).mpr htoken] at this
  cases this

theorem offers_iff_of_some (hdistinct : (r.data.invites.map (·.token)).Nodup) {i : Nat} {found : InviteRecord}
    (h : firstMatch (fun inv : InviteRecord => !inv.revoked && bytesEqual inv.token token) r.data.invites =
      some (i, found)) (inv : InviteRecord) : Offers r.data token inv ↔ inv = found := by
  have hmem := List.mem_of_getElem? (firstMatch_getElem h)
  have hp := firstMatch_pos h
  rw [Bool.and_eq_true, Bool.not_eq_true', bytesEqual_iff] at hp
  constructor
  · rintro ⟨hinv, htoken, -⟩
    exact List.inj_on_of_nodup_map hdistinct hinv hmem (htoken.trans hp.2.symm)
  · rintro rfl
    exact ⟨hmem, hp.2, hp.1⟩

theorem bootstrap_found {i : Nat} {found : InviteRecord}
    (h : firstMatch (fun inv : InviteRecord => !inv.revoked && bytesEqual inv.token token) r.data.invites =
      some (i, found)) :
    (found.PastExpiry now → r.bootstrap cr now .ok token pub label = ((bootstrapStatusExpired, none), r)) ∧
    (¬ found.PastExpiry now → max 1 found.maxUses ≤ found.uses →
      r.bootstrap cr now .ok token pub label = ((bootstrapStatusUsed, none), r)) ∧
    (¬ found.PastExpiry now → found.uses < max 1 found.maxUses → ∃ disk,
      r.bootstrap cr now .ok token pub label = ((bootstrapStatusOK, none), {
        data := {
          devices := r.data.devices ++ [newDevice cr now pub label]
          invites := r.data.invites.modify i fun inv => { inv with uses := inv.uses + 1 } }
        disk := disk })) := by
  rw [← isExpired_iff, ← InviteRecord.limit_eq_max]
  unfold bootstrap
  rw [h]
  dsimp only
  refine ⟨?_, ?_, ?_⟩
  · intro hexp
    rw [if_pos hexp]
  · intro hexp hused
    rw [if_neg hexp, if_pos hused]
  · intro hexp hleft
    rw [if_neg hexp, if_neg (not_le.mpr hleft)]
    exact ⟨_, rfl⟩

end Found

theorem bootstrap_exact (cr : Crypto) (r : Registry) (hdistinct : (r.data.invites.map (·.token)).Nodup) (now : Time)
    (token pub label : Bytes) :
    let res := r.bootstrap cr now .ok token pub label
    (res.1 = (bootstrapStatusOK, none) ↔
      ∃ inv, Offers r.data token inv ∧ (inv.expiresAt = 0 ∨ now.unix ≤ inv.expiresAt) ∧
        inv.uses < max 1 inv.maxUses) ∧
    (res.1 = (bootstrapStatusInvalidToken, none) ↔ ¬ ∃ inv, Offers r.data token inv) ∧
    (res.1 = (bootstrapStatusExpired, none) ↔ ∃ inv, Offers r.data token inv ∧ inv.PastExpiry now) ∧
    (res.1 = (bootstrapStatusUsed, none) ↔
      ∃ inv, Offers r.data token inv ∧ ¬ inv.PastExpiry now ∧ max 1 inv.maxUses ≤ inv.uses) ∧
    (res.1 ≠ (bootstrapStatusOK, none) → res.2 = r) ∧
    (res.1 = (bootstrapStatusOK, none) →
      res.2.data.invites = r.data.invites.map
          (fun inv => if inv.token = token then { inv with uses := inv.uses + 1 } else inv) ∧
        ∃ dev, res.2.data.devices = r.data.devices ++ [dev] ∧ dev.pubKey = pub ∧
          dev.deviceID = shortDeviceID cr pub ∧ dev.label ≠ []) := by
  intro res
  have hlive : ∀ inv : InviteRecord, (inv.expiresAt = 0 ∨ now.unix ≤ inv.expiresAt) ↔ ¬ inv.PastExpiry now := by
    intro inv
    unfold InviteRecord.PastExpiry
    omega
  simp only [hlive]
  cases hm : firstMatch (fun inv : InviteRecord => !inv.revoked && bytesEqual inv.token token) r.data.invites with
  | none =>
    have hres : res = ((bootstrapStatusInvalidToken, none), r) := by
      simp only [res]
      unfold bootstrap
      rw [hm]
    have hno := not_offers_of_none hm
    rw [hres]
    dsimp only
    exact ⟨iff_of_false (by decide) fun ⟨inv, h, _⟩ => hno inv h, iff_of_true rfl fun ⟨inv, h⟩ => hno inv h,
      iff_of_false (by decide) fun ⟨inv, h, _⟩ => hno inv h, iff_of_false (by decide) fun ⟨inv, h, _⟩ => hno inv h,
      fun _ => rfl, fun hok => absurd hok (by decide)⟩
  | some m =>
    obtain ⟨i, found⟩ := m
    have hone := offers_iff_of_some hdistinct hm
    obtain ⟨hexpired, hused, hok⟩ := @bootstrap_found cr now token pub label r i found hm
    simp only [hone, exists_eq_left]
    by_cases hexp : found.PastExpiry now
    · rw [show res = _ from hexpired hexp]
      dsimp only
      exact ⟨iff_of_false (by decide) fun hlive => hlive.1 hexp, iff_of_false (by decide) (by simp),
        iff_of_true rfl hexp, iff_of_false (by decide) fun hmax => hmax.1 hexp, fun _ => rfl,
        fun hok => absurd hok (by decide)⟩
    · by_cases hleft : found.uses < max 1 found.maxUses
      · obtain ⟨disk, hredeemed⟩ := hok hexp hleft
        have htoken : found.token = token := ((hone found).mpr rfl).2.1
        have hmap := modify_eq_map (fun inv : InviteRecord => inv.token) hdistinct (firstMatch_getElem hm)
          fun inv => { inv with uses := inv.uses + 1 }
        rw [htoken] at hmap
        rw [show res = _ from hredeemed]
        dsimp only
        refine ⟨iff_of_true rfl ⟨hexp, hleft⟩, iff_of_false (by decide) (by simp), iff_of_false (by decide) hexp,
          iff_of_false (by decide) fun hmax => absurd hmax.2 (not_le.mpr hleft), fun hne => absurd rfl hne, ?_⟩
        intro _
        exact ⟨hmap, _, rfl, rfl, rfl, newDevice_labelled cr now pub label⟩
      · have hmax := not_lt.mp hleft
        rw [show res = _ from hused hexp hmax]
        dsimp only
        exact ⟨iff_of_false (by decide) fun hlt => hleft hlt.2, iff_of_false (by decide) (by simp),
          iff_of_false (by decide) hexp, iff_of_true rfl ⟨hexp, hmax⟩, fun _ => rfl, fun hok => absurd hok (by decide)⟩

theorem bootstrap_exact_second_use :
    let inv : InviteRecord :=
      { token := [1], tokenID := [], label := [], maxUses := 2, uses := 1, expiresAt := 0, createdAt := 0 }
    ([inv].map (·.token)).Nodup ∧
      ((Registry.bootstrap hashCrypto 0 .ok [1] [2] [] { data := { invites := [inv] } }).1 = (bootstrapStatusOK, none) ↔
        ∃ inv', Offers { invites := [inv] } [1] inv' ∧ (inv'.expiresAt = 0 ∨ (0 : Time).unix ≤ inv'.expiresAt) ∧
          inv'.uses < max 1 inv'.maxUses) :=
  ⟨by decide, (bootstrap_exact hashCrypto { data := { invites := [_] } } (by decide) 0 [1] [2] []).1⟩

end Daxson.Registry
