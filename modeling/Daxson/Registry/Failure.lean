import Daxson.Registry.Proofs

/-! # Calls that fail

Every call changes the memory first and saves then, and a `save` that fails does not take the change back.
-/

open Lib.Grow

namespace Daxson.Registry

open Invite

/-! ## What later calls can see -/

/-- The same but for `path.tmp`. -/
def SameView (r r' : Registry) : Prop :=
  r.data = r'.data ∧ r.disk.path = r'.disk.path ∧ r.disk.file = r'.disk.file

theorem save_sameView (o : SaveOutcome) {r r' : Registry} (h : SameView r r') :
    ∃ e s s', save o r = (e, s) ∧ save o r' = (e, s') ∧ SameView s s' := by
  refine ⟨(save o r).1, (save o r).2, (save o r').2, rfl, Prod.ext ?_ rfl, ?_⟩
  · cases o <;> rfl
  · obtain ⟨hdata, hpath, hfile⟩ := h
    cases o <;> simp [save, SameView, hdata, hpath, hfile]

theorem load_sameView (e : Option SysError) {r r' : Registry} (h : SameView r r') :
    Registry.load e r.disk = Registry.load e r'.disk := by
  obtain ⟨-, hpath, hfile⟩ := h
  unfold Registry.load
  rw [hpath, hfile]

theorem exec_sameView (cr : Crypto) (op : Op) {r r' : Registry} (h : SameView r r') :
    (r.exec cr op).1 = (r'.exec cr op).1 ∧ SameView (r.exec cr op).2 (r'.exec cr op).2 := by
  have hsave : ∀ o d, ∃ e s s', save o { r with data := d } = (e, s) ∧
      save o { r' with data := d } = (e, s') ∧ SameView s s' :=
    fun o d => save_sameView o ⟨rfl, h.2⟩
  -- The two revocations answer with the error of the save.
  have hdone : ∀ o d, Reply.done (save o { r with data := d }).1 = .done (save o { r' with data := d }).1 ∧
      SameView (save o { r with data := d }).2 (save o { r' with data := d }).2 := by
    intro o d
    obtain ⟨e, s, s', hs, hs', hview⟩ := hsave o d
    rw [hs, hs']
    exact ⟨rfl, hview⟩
  cases op with
  | load e =>
    simp only [exec, load_sameView e h]
    cases Registry.load e r'.disk with
    | error err => exact ⟨rfl, h⟩
    | ok d => exact ⟨rfl, rfl, h.2⟩
  | authorizeDevice now o pub =>
    simp only [exec, authorizeDevice, h.1]
    cases firstMatch (fun x : Device => bytesEqual x.pubKey pub) r'.data.devices with
    | none => exact ⟨rfl, h⟩
    | some m =>
      dsimp only
      split_ifs
      · exact ⟨rfl, h⟩
      · obtain ⟨e, s, s', hs, hs', hview⟩ := hsave o _
        rw [hs, hs']
        exact ⟨rfl, hview⟩
  | bootstrap now o token pub label =>
    simp only [exec, bootstrap, h.1]
    cases firstMatch (fun inv : InviteRecord => !inv.revoked && bytesEqual inv.token token) r'.data.invites with
    | none => exact ⟨rfl, h⟩
    | some m =>
      obtain ⟨i, found⟩ := m
      dsimp only
      split_ifs
      · exact ⟨rfl, h⟩
      · exact ⟨rfl, h⟩
      · obtain ⟨e, s, s', hs, hs', hview⟩ := hsave o _
        rw [hs, hs']
        cases e <;> exact ⟨rfl, hview⟩
  | createInvite now o draw label maxUses ttl =>
    simp only [exec, createInvite, h.1]
    cases draw with
    | error e => exact ⟨rfl, h⟩
    | ok tok =>
      dsimp only
      obtain ⟨e, s, s', hs, hs', hview⟩ := hsave o _
      rw [hs, hs']
      cases e <;> exact ⟨rfl, hview⟩
  | revokeInvite o tokenID =>
    simp only [exec, revokeInvite, h.1]
    cases firstMatch (fun inv : InviteRecord => inv.tokenID == tokenID || tokenID.isPrefixOf inv.tokenID)
        r'.data.invites with
    | none => exact ⟨rfl, h⟩
    | some m => exact hdone o _
  | revokeDevice o deviceID =>
    simp only [exec, revokeDevice, h.1]
    cases firstMatch (fun x : Device => x.deviceID == deviceID) r'.data.devices with
    | none => exact ⟨rfl, h⟩
    | some m => exact hdone o _

def replies (cr : Crypto) : List Op → Registry → List Reply
  | [], _ => []
  | op :: ops, r => (r.exec cr op).1 :: replies cr ops (r.exec cr op).2

theorem replies_sameView (cr : Crypto) (ops : List Op) {r r' : Registry} (h : SameView r r') :
    replies cr ops r = replies cr ops r' := by
  induction ops generalizing r r' with
  | nil => rfl
  | cons op ops ih =>
    obtain ⟨hreply, hview⟩ := exec_sameView cr op h
    simp only [replies, hreply, ih hview]

/-! ## Errors -/

/-- The error that a call of the four updates returns. -/
def Reply.err : Reply → Option GoError
  | .bootstrap _ e => e
  | .invite (.error e) => some e
  | .done e => e
  | _ => none

/-- If the call returns an error, then the data are as before, and every later call is answered as if
it had not been made. -/
def FailsCleanly (cr : Crypto) (op : Op) (r : Registry) : Prop :=
  (r.exec cr op).1.err ≠ none →
    (r.exec cr op).2.data = r.data ∧ ∀ ops, replies cr ops (r.exec cr op).2 = replies cr ops r

/-- The calls that report the error of their `save`. -/
def Op.reports : Op → Bool
  | .load _ => false
  | .authorizeDevice _ _ _ => false
  | _ => true

theorem exec_saved_err (cr : Crypto) (op : Op) (r : Registry) (hop : op.reports = true) {d : StoreData}
    (hp : plan cr op r.data = some d) : (r.exec cr op).1.err = none ↔ op.saveOutcome = .ok := by
  rw [← save_err_iff op.saveOutcome { r with data := d }]
  cases plan_inv hp with
  | authorizeDevice => cases hop
  | @bootstrap now o token pub label i found hred =>
    simp only [exec, bootstrap_redeemed cr now o token pub label r hred, Op.saveOutcome]
    cases (save o _).1 <;> simp [Reply.err]
  | @createInvite now o tok label maxUses ttl =>
    simp only [exec, createInvite, Op.saveOutcome]
    generalize save o _ = s
    obtain ⟨e, r'⟩ := s
    cases e <;> simp [Reply.err]
  | revokeInvite hm => simp only [exec, revokeInvite, hm, Op.saveOutcome, Reply.err]
  | revokeDevice hm => simp only [exec, revokeDevice, hm, Op.saveOutcome, Reply.err]

theorem failsCleanly_iff (cr : Crypto) (op : Op) (r : Registry) (hop : op.reports = true) :
    FailsCleanly cr op r ↔ op.saveOutcome = .ok ∨ ∀ d, plan cr op r.data = some d → d = r.data := by
  have heq := exec_eq_plan cr op r (by rintro e rfl; cases hop)
  unfold FailsCleanly
  cases hp : plan cr op r.data with
  | none =>
    rw [hp] at heq
    simp [heq]
  | some d =>
    rw [hp] at heq
    rw [heq, save_data, ne_eq, exec_saved_err cr op r hop hp]
    simp only [Option.some.injEq, forall_eq']
    constructor
    · intro h
      by_cases ho : op.saveOutcome = .ok
      · exact .inl ho
      · exact .inr (h ho).1
    · rintro (ho | rfl) hno
      · exact absurd ho hno
      · refine ⟨rfl, fun ops => replies_sameView cr ops ?_⟩
        refine ⟨save_data _ _, ?_, save_failed_file _ _ hno⟩
        cases op.saveOutcome <;> rfl

/-! ## The four updates -/

theorem modify_eq_self_iff {α : Type} (l : List α) (i : Nat) (f : α → α) :
    l.modify i f = l ↔ ∀ a, l[i]? = some a → f a = a := by
  constructor
  · intro h a ha
    have := congrArg (fun l => l[i]?) h
    simpa [List.getElem?_modify, ha] using this
  · intro h
    apply List.ext_getElem?
    intro j
    rw [List.getElem?_modify]
    split
    · rename_i hij
      subst hij
      cases ha : l[i]? with
      | none => rfl
      | some a => simp [h a ha]
    · simp

theorem bootstrap_same_iff (cr : Crypto) (now : Time) (o : SaveOutcome) (token pub label : Bytes) (d : StoreData) :
    (∀ d', plan cr (.bootstrap now o token pub label) d = some d' → d' = d) ↔ redeemable now token d = none := by
  cases hred : redeemable now token d with
  | none => simp [plan, hred]
  | some m =>
    -- The new device makes the list longer.
    simp only [plan, hred, Option.map_some, Option.some.injEq, forall_eq', reduceCtorEq, iff_false]
    intro h
    have := congrArg (fun d : StoreData => d.devices.length) h
    simp at this

theorem createInvite_same_iff (cr : Crypto) (now : Time) (o : SaveOutcome) (draw : Except SysError (ByteArr 32))
    (label : Bytes) (maxUses ttl : Int) (d : StoreData) :
    (∀ d', plan cr (.createInvite now o draw label maxUses ttl) d = some d' → d' = d) ↔
      ∃ e, draw = .error e := by
  cases draw with
  | error e => simp [plan]
  | ok tok =>
    simp only [plan, Option.some.injEq, forall_eq', reduceCtorEq, exists_false, iff_false]
    intro h
    have := congrArg (fun d : StoreData => d.invites.length) h
    simp at this

theorem revokeInvite_same_iff (cr : Crypto) (o : SaveOutcome) (tokenID : Bytes) (d : StoreData) :
    (∀ d', plan cr (.revokeInvite o tokenID) d = some d' → d' = d) ↔
      ∀ i inv, firstMatch (fun inv : InviteRecord => inv.tokenID == tokenID || tokenID.isPrefixOf inv.tokenID)
        d.invites = some (i, inv) → inv.revoked = true := by
  cases hm : firstMatch (fun inv : InviteRecord => inv.tokenID == tokenID || tokenID.isPrefixOf inv.tokenID)
      d.invites with
  | none => simp [plan, hm]
  | some m =>
    obtain ⟨i, inv⟩ := m
    have hi := firstMatch_getElem hm
    have hsame : ({ inv with revoked := true } : InviteRecord) = inv ↔ inv.revoked = true := by
      cases inv
      simp [eq_comm]
    cases d
    simp_all [plan, modify_eq_self_iff]

theorem revokeDevice_same_iff (cr : Crypto) (o : SaveOutcome) (deviceID : Bytes) (d : StoreData) :
    (∀ d', plan cr (.revokeDevice o deviceID) d = some d' → d' = d) ↔
      ∀ i x, firstMatch (fun x : Device => x.deviceID == deviceID) d.devices = some (i, x) →
        x.revoked = true := by
  cases hm : firstMatch (fun x : Device => x.deviceID == deviceID) d.devices with
  | none => simp [plan, hm]
  | some m =>
    obtain ⟨i, x⟩ := m
    have hi := firstMatch_getElem hm
    have hsame : ({ x with revoked := true } : Device) = x ↔ x.revoked = true := by
      cases x
      simp [eq_comm]
    cases d
    simp_all [plan, modify_eq_self_iff]

/-- A failed save leaves a trace, except for the revocation of what is revoked already. -/
theorem failed_update_iff (cr : Crypto) (r : Registry) :
    (∀ now o token pub label, FailsCleanly cr (.bootstrap now o token pub label) r ↔
        o = .ok ∨ redeemable now token r.data = none) ∧
      (∀ now o draw label maxUses ttl, FailsCleanly cr (.createInvite now o draw label maxUses ttl) r ↔
        o = .ok ∨ ∃ e, draw = .error e) ∧
      (∀ o tokenID, FailsCleanly cr (.revokeInvite o tokenID) r ↔
        o = .ok ∨ ∀ i inv, firstMatch (fun inv : InviteRecord => inv.tokenID == tokenID ||
          tokenID.isPrefixOf inv.tokenID) r.data.invites = some (i, inv) → inv.revoked = true) ∧
      (∀ o deviceID, FailsCleanly cr (.revokeDevice o deviceID) r ↔
        o = .ok ∨ ∀ i x, firstMatch (fun x : Device => x.deviceID == deviceID) r.data.devices = some (i, x) →
          x.revoked = true) := by
  refine ⟨?_, ?_, ?_, ?_⟩
  · intro now o token pub label
    rw [failsCleanly_iff _ _ _ rfl, bootstrap_same_iff]
    rfl
  · intro now o draw label maxUses ttl
    rw [failsCleanly_iff _ _ _ rfl, createInvite_same_iff]
    rfl
  · intro o tokenID
    rw [failsCleanly_iff _ _ _ rfl, revokeInvite_same_iff]
    rfl
  · intro o deviceID
    rw [failsCleanly_iff _ _ _ rfl, revokeDevice_same_iff]
    rfl

/-- After a failed rename `RevokeDevice` has revoked its device, and `Bootstrap` has enrolled its own. -/
theorem failed_update_leaves_trace :
    let tok : ByteArr 32 := ⟨List.replicate 32 7, rfl⟩
    let pub : Bytes := List.replicate 32 1
    let r : Registry := execAll hashCrypto [.createInvite 0 .ok (.ok tok) [] 5 0] {}
    let r' : Registry := execAll hashCrypto [.bootstrap 0 .ok tok.val pub []] r
    let fails : SaveOutcome := .renameFails (.other "disk full")
    let revoked := r'.revokeDevice fails (shortDeviceID hashCrypto pub)
    let registered := r.bootstrap hashCrypto 0 fails tok.val pub []
    (revoked.1 ≠ none ∧ (r'.authorizeDevice 0 .ok pub).1 = authStatusOK ∧
        (revoked.2.authorizeDevice 0 .ok pub).1 = authStatusRevoked) ∧
      (registered.1.2 ≠ none ∧ (r.authorizeDevice 0 .ok pub).1 = authStatusUnknown ∧
        (registered.2.authorizeDevice 0 .ok pub).1 = authStatusOK) := by
  decide +kernel

end Daxson.Registry
