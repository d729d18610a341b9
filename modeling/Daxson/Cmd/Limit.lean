import Daxson.Cmd.Issue

/-! # The use limit of an invite

The help of `--max-uses` and the list of invites call a limit of 0 unlimited. `Bootstrap` takes it for 1.
-/

open Lib.Grow

namespace Daxson.Cmd

open Invite Registry

/-- The text "∞". -/
def unlimited : Bytes := [0xE2, 0x88, 0x9E]

/-- `maxStr` of `runInviteList`. -/
def maxStr (inv : InviteRecord) : Bytes := if inv.maxUses ≤ 0 then unlimited else formatInt inv.maxUses

theorem maxStr_unlimited_iff (inv : InviteRecord) : maxStr inv = unlimited ↔ inv.maxUses ≤ 0 := by
  unfold maxStr
  split_ifs with hm
  · simp [hm]
  · simp only [hm, iff_false]
    rw [Json.formatInt_eq, if_neg (by omega)]
    intro heq
    have hdigits := Json.decimal_isDigit inv.maxUses.natAbs
    rw [heq] at hdigits
    revert hdigits
    decide

/-! ## Attempts with one token -/

/-- What a `Bootstrap` call with a given token depends on. -/
structure Attempt where
  now : Time
  save : SaveOutcome := .ok
  pub : Bytes := []
  label : Bytes := []

def Attempt.result (cr : Crypto) (token : Bytes) (a : Attempt) (r : Registry) : (UInt8 × Option GoError) × Registry :=
  r.bootstrap cr a.now a.save token a.pub a.label

/-- How many of the attempts succeed, one after the other. -/
def successes (cr : Crypto) (token : Bytes) : List Attempt → Registry → Nat
  | [], _ => 0
  | a :: as, r =>
    (if (a.result cr token r).1 = (bootstrapStatusOK, none) then 1 else 0) +
      successes cr token as (a.result cr token r).2

/-- The invite that the token leads to. -/
def Found (token : Bytes) (inv : InviteRecord) (r : Registry) : Prop :=
  ∃ i, firstMatch (fun x : InviteRecord => !x.revoked && bytesEqual x.token token) r.data.invites = some (i, inv)

def usesLeft (inv : InviteRecord) : Int := inv.limit - inv.uses

section Attempts

variable (cr : Crypto) {token : Bytes} {inv : InviteRecord} {r : Registry}

theorem attempt_refused (a : Attempt) (hf : Found token inv r)
    (hwhy : inv.isExpired a.now = true ∨ inv.limit ≤ inv.uses) :
    (a.result cr token r).2 = r ∧ (a.result cr token r).1 ≠ (bootstrapStatusOK, none) := by
  obtain ⟨i, hi⟩ := hf
  have hnone : redeemable a.now token r.data = none := by
    unfold redeemable
    rw [hi]
    rcases hwhy with hexp | hused
    · simp [hexp]
    · simp [hused]
  obtain ⟨hsame, -, hstatus⟩ := bootstrap_refused cr a.now a.save token a.pub a.label r hnone
  exact ⟨hsame, fun hok => hstatus (congrArg Prod.fst hok)⟩

theorem attempt_redeemed (a : Attempt) (hf : Found token inv r) (hlive : inv.isExpired a.now = false)
    (hleft : inv.uses < inv.limit) :
    Found token { inv with uses := inv.uses + 1 } (a.result cr token r).2 ∧
      ((a.result cr token r).1 = (bootstrapStatusOK, none) ↔ a.save = .ok) := by
  obtain ⟨i, hi⟩ := hf
  have hred : redeemable a.now token r.data = some (i, inv) := by
    unfold redeemable
    rw [hi]
    simp [hlive, hleft]
  unfold Attempt.result
  rw [bootstrap_redeemed cr a.now a.save token a.pub a.label r hred]
  dsimp only
  constructor
  · refine ⟨i, ?_⟩
    rw [save_data]
    dsimp only
    rw [firstMatch_modify _ (fun inv : InviteRecord => { inv with uses := inv.uses + 1 }) (fun _ => rfl), hi]
    simp
  · rw [← save_err_iff a.save]
    cases (save a.save _).1 with
    | none => simp
    | some e => simp

theorem successes_le (as : List Attempt) (hf : Found token inv r) :
    (successes cr token as r : Int) ≤ max 0 (usesLeft inv) := by
  induction as generalizing r inv with
  | nil => simp [successes]
  | cons a as ih =>
    unfold successes
    by_cases hwhy : inv.isExpired a.now = true ∨ inv.limit ≤ inv.uses
    · obtain ⟨hsame, hfail⟩ := attempt_refused cr a hf hwhy
      rw [if_neg hfail, hsame]
      simpa using ih hf
    · simp only [not_or, Bool.not_eq_true, Int.not_le] at hwhy
      obtain ⟨hnext, -⟩ := attempt_redeemed cr a hf hwhy.1 hwhy.2
      have hrest := ih hnext
      have hleft : usesLeft { inv with uses := inv.uses + 1 } = usesLeft inv - 1 := by
        unfold usesLeft InviteRecord.limit
        dsimp only
        omega
      have hone : 1 ≤ usesLeft inv := by
        unfold usesLeft
        omega
      split_ifs <;> push_cast <;> omega

theorem successes_replicate (t : Time) (n : Nat) (hf : Found token inv r) (hlive : inv.isExpired t = false)
    (hleft : n ≤ usesLeft inv) : successes cr token (List.replicate n { now := t }) r = n := by
  induction n generalizing r inv with
  | zero => rfl
  | succ n ih =>
    unfold usesLeft at hleft ih
    obtain ⟨hnext, hok⟩ := attempt_redeemed cr { now := t } hf hlive (by omega)
    rw [List.replicate_succ]
    unfold successes
    rw [if_pos (hok.mpr rfl), ih hnext hlive (by unfold InviteRecord.limit at hleft ⊢; dsimp only; omega), Nat.add_comm]

end Attempts

/-! ## What is advertised -/

/-- The numbers of successful attempts, over all sequences that come before the invite expires. -/
def successCounts (cr : Crypto) (rec : InviteRecord) (r : Registry) : Set Nat :=
  { n | ∃ as : List Attempt, (∀ a ∈ as, rec.isExpired a.now = false) ∧ successes cr rec.token as r = n }

/-- What the list says of an invite, and the help text of the limit that it was created with. -/
def Advertised (inv : InviteRecord) (counts : Set Nat) : Prop :=
  if maxStr inv = unlimited then ¬BddAbove counts else IsGreatest counts inv.maxUses.toNat

theorem both_live (inv old : InviteRecord) : ∃ t : Time, inv.isExpired t = false ∧ old.isExpired t = false := by
  refine ⟨min inv.expiresAt old.expiresAt * second, ?_⟩
  have hunix : Time.unix (min inv.expiresAt old.expiresAt * second) = min inv.expiresAt old.expiresAt := by
    unfold Time.unix second
    exact Int.mul_fdiv_cancel _ (by norm_num)
  unfold InviteRecord.isExpired
  rw [hunix]
  simp

theorem successCounts_greatest (cr : Crypto) (rec : InviteRecord) {inv : InviteRecord} {r : Registry}
    (hf : Found rec.token inv r) : IsGreatest (successCounts cr rec r) (usesLeft inv).toNat := by
  constructor
  · obtain ⟨t, hrec, hinv⟩ := both_live rec inv
    by_cases hpos : 0 ≤ usesLeft inv
    · refine ⟨List.replicate (usesLeft inv).toNat { now := t }, ?_, ?_⟩
      · intro a ha
        rw [List.eq_of_mem_replicate ha]
        exact hrec
      · exact successes_replicate cr t _ hf hinv (by omega)
    · refine ⟨[], by simp, ?_⟩
      rw [Int.toNat_of_nonpos (by omega)]
      rfl
  · rintro n ⟨as, -, rfl⟩
    have := successes_le cr as hf
    omega

theorem found_created {cr : Crypto} {env : IssueEnv} {label : Bytes} {m ttl : Int} {reg reg' : Registry}
    {rec : InviteRecord} (h : reg.createInvite cr env.now env.save env.draw label m ttl = (.ok rec, reg')) :
    Found rec.token ((firstMatch (fun x : InviteRecord => !x.revoked && bytesEqual x.token rec.token)
      reg.data.invites).getD (reg.data.invites.length, rec)).2 reg' ∧ rec.maxUses = m ∧ usesLeft rec = max 1 m := by
  obtain ⟨tok, -, hrec, hdata⟩ := createInvite_ok h
  have hlive : (fun x : InviteRecord => !x.revoked && bytesEqual x.token rec.token) rec = true := by
    rw [hrec]
    simp [newInvite, bytesEqual_iff]
  refine ⟨?_, by rw [hrec]; rfl, ?_⟩
  · unfold Found
    rw [hdata]
    exact ⟨_, firstMatch_append_singleton _ reg.data.invites rec hlive⟩
  · unfold usesLeft
    rw [InviteRecord.limit_eq_max, hrec]
    simp [newInvite]

/-- The advertised limit is enforced exactly when it is positive and no older invite answers for the token. -/
theorem advertised_limit_iff (cr : Crypto) (env : IssueEnv) (label : Bytes) (m ttl : Int) (reg reg' : Registry)
    (rec : InviteRecord) (h : reg.createInvite cr env.now env.save env.draw label m ttl = (.ok rec, reg')) :
    Advertised rec (successCounts cr rec reg') ↔
      0 < m ∧ ∀ i old, firstMatch (fun x : InviteRecord => !x.revoked && bytesEqual x.token rec.token)
        reg.data.invites = some (i, old) → usesLeft old = m := by
  obtain ⟨hfound, hm, hnew⟩ := found_created h
  have hmax := successCounts_greatest cr rec hfound
  have hshown := maxStr_unlimited_iff rec
  rw [hm] at hshown
  unfold Advertised
  split_ifs with hinf
  · have hnone : ¬ 0 < m := Int.not_lt.mpr (hshown.mp hinf)
    simp only [hnone, false_and, iff_false, not_not]
    exact hmax.bddAbove
  · have hpos : 0 < m := Int.not_le.mp (mt hshown.mpr hinf)
    have hiff : IsGreatest (successCounts cr rec reg') m.toNat ↔ (usesLeft _).toNat = m.toNat :=
      ⟨fun hgreatest => hmax.unique hgreatest, fun heq => heq ▸ hmax⟩
    rw [hm, hiff]
    cases firstMatch (fun x : InviteRecord => !x.revoked && bytesEqual x.token rec.token) reg.data.invites with
    | none =>
      simp only [Option.getD_none, hnew, hpos, reduceCtorEq, false_implies, implies_true, and_true, iff_true]
      omega
    | some q =>
      obtain ⟨i, old⟩ := q
      simp only [Option.getD_some, Option.some.injEq, Prod.mk.injEq, hpos, true_and]
      constructor
      · rintro heq _ _ ⟨rfl, rfl⟩
        omega
      · intro hold
        rw [hold i old ⟨rfl, rfl⟩]

theorem advertised_limit_two :
    ∃ rec reg', createInvite hashCrypto 0 .ok (.ok (copyArr 32 [5])) (ascii "work") 2 0 {} = (.ok rec, reg') ∧
      Advertised rec (successCounts hashCrypto rec reg') := by
  refine ⟨_, _, rfl, ?_⟩
  exact (advertised_limit_iff hashCrypto firstIssue (ascii "work") 2 0 {} _ _ rfl).mpr ⟨by decide, by simp [firstMatch]⟩

theorem unlimited_invite_used_up :
    ∃ rec reg', createInvite hashCrypto 0 .ok (.ok (copyArr 32 [5])) (ascii "work") 0 0 {} = (.ok rec, reg') ∧
      maxStr rec = unlimited ∧ rec.expiresAt = 0 ∧
      let first := reg'.bootstrap hashCrypto 1 .ok rec.token [1] (ascii "laptop")
      first.1 = (bootstrapStatusOK, none) ∧
        (first.2.bootstrap hashCrypto 2 .ok rec.token [2] (ascii "phone")).1 = (bootstrapStatusUsed, none) :=
  ⟨_, _, rfl, by decide +kernel, rfl, by decide +kernel⟩

end Daxson.Cmd
