import Daxson.Registry.Spec

/-! # What a registry call can do

Every call is its plan and one `save`, and every plan only appends entries or changes them in place.
-/

open Lib.Grow

namespace Daxson.Registry

open Invite

theorem bytesEqual_iff (a b : Bytes) : bytesEqual a b = true ↔ a = b := by
  unfold bytesEqual
  induction a generalizing b with
  | nil => cases b <;> simp
  | cons x a ih =>
    cases b with
    | nil => simp
    | cons y b =>
      have := ih b
      by_cases hlen : a.length = b.length <;> simp_all

theorem bytesEqual_congr {a b c : Bytes} (h : a = b) : bytesEqual a c = bytesEqual b c := by rw [h]

/-! ## save -/

@[simp] theorem save_data (o : SaveOutcome) (r : Registry) : (save o r).2.data = r.data := by
  cases o <;> rfl

@[simp] theorem save_ok (r : Registry) :
    save .ok r = (none, { r with disk := { r.disk with file := some (.json (jsonImage r.data)), tmp := none } }) :=
  rfl

theorem save_err_iff (o : SaveOutcome) (r : Registry) : (save o r).1 = none ↔ o = .ok := by
  cases o <;> simp [save]

theorem save_failed_file (o : SaveOutcome) (r : Registry) (h : o ≠ .ok) :
    (save o r).2.disk.file = r.disk.file := by
  cases o <;> simp_all [save]

theorem InviteRecord.limit_eq_max (inv : InviteRecord) : inv.limit = max 1 inv.maxUses := by
  unfold limit
  split <;> omega

/-! ## Plans -/

/-- The invite that a `Bootstrap` with this token redeems: not revoked, not expired, uses left. -/
def redeemable (now : Time) (token : Bytes) (d : StoreData) : Option (Nat × InviteRecord) :=
  match firstMatch (fun inv : InviteRecord => !inv.revoked && bytesEqual inv.token token) d.invites with
  | none => none
  | some (i, found) =>
    if found.isExpired now then none else if found.limit ≤ found.uses then none else some (i, found)

/-- The data that a call hands to `save`, or `none` when it returns before. -/
def plan (cr : Crypto) (op : Op) (d : StoreData) : Option StoreData :=
  match op with
  | .load _ => none
  | .authorizeDevice now _ pub =>
    match firstMatch (fun x : Device => bytesEqual x.pubKey pub) d.devices with
    | none => none
    | some (i, x) =>
      if x.revoked then none
      else some { d with devices := d.devices.modify i fun x => { x with lastSeenAt := now } }
  | .bootstrap now _ token pub label =>
    (redeemable now token d).map fun (i, _) => {
      devices := d.devices ++ [newDevice cr now pub label]
      invites := d.invites.modify i fun inv => { inv with uses := inv.uses + 1 } }
  | .createInvite now _ draw label maxUses ttl =>
    match draw with
    | .error _ => none
    | .ok tok => some { d with invites := d.invites ++ [newInvite cr now tok.val label maxUses ttl] }
  | .revokeInvite _ tokenID =>
    (firstMatch (fun inv : InviteRecord => inv.tokenID == tokenID || tokenID.isPrefixOf inv.tokenID)
      d.invites).map fun (i, _) =>
        { d with invites := d.invites.modify i fun inv => { inv with revoked := true } }
  | .revokeDevice _ deviceID =>
    (firstMatch (fun x : Device => x.deviceID == deviceID) d.devices).map fun (i, _) =>
      { d with devices := d.devices.modify i fun x => { x with revoked := true } }

theorem bootstrap_redeemed (cr : Crypto) (now : Time) (o : SaveOutcome) (token pub label : Bytes)
    (r : Registry) {i : Nat} {found : InviteRecord} (h : redeemable now token r.data = some (i, found)) :
    r.bootstrap cr now o token pub label =
      let s := save o { r with data := {
        devices := r.data.devices ++ [newDevice cr now pub label]
        invites := r.data.invites.modify i fun inv => { inv with uses := inv.uses + 1 } } }
      (match s.1 with
        | some e => (0, some (.wrap "registry: save after bootstrap: %w" [] e))
        | none => (bootstrapStatusOK, none), s.2) := by
  cases hm : firstMatch (fun inv : InviteRecord => !inv.revoked && bytesEqual inv.token token) r.data.invites with
  | none =>
    unfold redeemable at h
    rw [hm] at h
    cases h
  | some m =>
    obtain ⟨i', found'⟩ := m
    unfold redeemable at h
    unfold bootstrap
    rw [hm] at h ⊢
    dsimp only at h ⊢
    split_ifs at h with hexp huse
    simp only [Option.some.injEq, Prod.mk.injEq] at h
    obtain ⟨rfl, rfl⟩ := h
    simp only [hexp, huse, if_false, Bool.false_eq_true]
    cases o <;> rfl

theorem bootstrap_refused (cr : Crypto) (now : Time) (o : SaveOutcome) (token pub label : Bytes)
    (r : Registry) (h : redeemable now token r.data = none) :
    (r.bootstrap cr now o token pub label).2 = r ∧
      (r.bootstrap cr now o token pub label).1.2 = none ∧
      (r.bootstrap cr now o token pub label).1.1 ≠ bootstrapStatusOK := by
  cases hm : firstMatch (fun inv : InviteRecord => !inv.revoked && bytesEqual inv.token token) r.data.invites with
  | none =>
    unfold bootstrap
    rw [hm]
    exact ⟨rfl, rfl, (by decide : bootstrapStatusInvalidToken ≠ bootstrapStatusOK)⟩
  | some m =>
    obtain ⟨i, found⟩ := m
    unfold redeemable at h
    unfold bootstrap
    rw [hm] at h ⊢
    dsimp only at h ⊢
    split_ifs at h ⊢ with hexp huse
    · exact ⟨rfl, rfl, (by decide : bootstrapStatusExpired ≠ bootstrapStatusOK)⟩
    · exact ⟨rfl, rfl, (by decide : bootstrapStatusUsed ≠ bootstrapStatusOK)⟩

theorem bootstrap_saved (cr : Crypto) (now : Time) (token pub label : Bytes) (r : Registry)
    (h : (redeemable now token r.data).isSome) :
    ∃ r' d, r.bootstrap cr now .ok token pub label = ((bootstrapStatusOK, none), r') ∧
      r'.disk.file = some (.json d) ∧ ∃ x ∈ d.devices, x.pubKey = pub := by
  obtain ⟨⟨i, found⟩, hred⟩ := Option.isSome_iff_exists.mp h
  refine ⟨_, _, bootstrap_redeemed cr now .ok token pub label r hred, rfl, ?_⟩
  refine ⟨{ newDevice cr now pub label with label := jsonString (newDevice cr now pub label).label }, ?_, rfl⟩
  exact List.mem_map.mpr ⟨newDevice cr now pub label, by simp, rfl⟩

theorem bootstrap_unsaved (cr : Crypto) (now : Time) (o : SaveOutcome) (token pub label : Bytes)
    (r : Registry) (h : (redeemable now token r.data).isSome) (ho : o ≠ .ok) :
    ∃ e r', r.bootstrap cr now o token pub label = ((bootstrapStatusOK, some e), r') := by
  obtain ⟨⟨i, found⟩, hred⟩ := Option.isSome_iff_exists.mp h
  rw [bootstrap_redeemed cr now o token pub label r hred]
  cases o with
  | ok => exact absurd rfl ho
  | _ => exact ⟨_, _, rfl⟩

/-- Every call but `load` is its plan and, where there is one, a `save` of it. -/
theorem exec_eq_plan (cr : Crypto) (op : Op) (r : Registry) (hop : ∀ e, op ≠ .load e) :
    (r.exec cr op).2 =
      match plan cr op r.data with
      | none => r
      | some d => (save op.saveOutcome { r with data := d }).2 := by
  cases op with
  | load e => exact absurd rfl (hop e)
  | authorizeDevice now o pub =>
    simp only [exec, authorizeDevice, plan, Op.saveOutcome]
    cases firstMatch (fun x : Device => bytesEqual x.pubKey pub) r.data.devices with
    | none => rfl
    | some p =>
      simp only
      split_ifs <;> rfl
  | bootstrap now o token pub label =>
    simp only [exec, plan, Op.saveOutcome]
    cases hr : redeemable now token r.data with
    | none => exact (bootstrap_refused cr now o token pub label r hr).1
    | some p =>
      obtain ⟨i, found⟩ := p
      rw [bootstrap_redeemed cr now o token pub label r hr]
      rfl
  | createInvite now o draw label maxUses ttl =>
    simp only [exec, createInvite, plan, Op.saveOutcome]
    cases draw with
    | error e => rfl
    | ok tok =>
      simp only
      split <;> rename_i hs <;> simp [hs]
  | revokeInvite o tokenID =>
    simp only [exec, revokeInvite, plan, Op.saveOutcome]
    cases firstMatch (fun inv : InviteRecord => inv.tokenID == tokenID || tokenID.isPrefixOf inv.tokenID)
      r.data.invites <;> rfl
  | revokeDevice o deviceID =>
    simp only [exec, revokeDevice, plan, Op.saveOutcome]
    cases firstMatch (fun x : Device => x.deviceID == deviceID) r.data.devices <;> rfl

theorem exec_load_ok (cr : Crypto) (e : Option SysError) (r : Registry) {d : StoreData}
    (h : Registry.load e r.disk = .ok d) : (r.exec cr (.load e)).2 = { r with data := d } := by
  simp only [exec, h]

theorem exec_load_error (cr : Crypto) (e : Option SysError) (r : Registry) {err : GoError}
    (h : Registry.load e r.disk = .error err) : (r.exec cr (.load e)).2 = r := by
  simp only [exec, h]

theorem load_ok_none {e : Option SysError} {disk : Disk} {d : StoreData}
    (h : Registry.load e disk = .ok d) : Registry.load none disk = .ok d := by
  cases e with
  | none => exact h
  | some e => simp [Registry.load] at h

theorem load_eq_ok_iff (disk : Disk) (d : StoreData) :
    Registry.load none disk = .ok d ↔ (disk.file = none ∧ d = {}) ∨ disk.file = some (.json d) := by
  unfold Registry.load
  cases disk.file with
  | none => simp [eq_comm]
  | some f => cases f <;> simp

/-! ## Invariants of the data -/

/-- What a call leaves behind: the registry as it was, the data of the file, or its plan after a `save`. -/
inductive Executed (cr : Crypto) (op : Op) (r : Registry) : Registry → Prop
  | kept (hplan : plan cr op r.data = none) : Executed cr op r r
  | reloaded (d : StoreData) (hplan : plan cr op r.data = none) (hload : Registry.load none r.disk = .ok d) :
      Executed cr op r { r with data := d }
  | planned (d : StoreData) (hplan : plan cr op r.data = some d) :
      Executed cr op r (save op.saveOutcome { r with data := d }).2

theorem exec_cases (cr : Crypto) (op : Op) (r : Registry) : Executed cr op r (r.exec cr op).2 := by
  by_cases hop : ∃ e, op = .load e
  · obtain ⟨e, rfl⟩ := hop
    cases hl : Registry.load e r.disk with
    | error err =>
      rw [exec_load_error cr e r hl]
      exact .kept rfl
    | ok d =>
      rw [exec_load_ok cr e r hl]
      exact .reloaded d rfl (load_ok_none hl)
  · rw [exec_eq_plan cr op r (fun e he => hop ⟨e, he⟩)]
    cases hp : plan cr op r.data with
    | none => exact .kept hp
    | some d => exact .planned d hp

section Invariant

variable {cr : Crypto} {P : StoreData → Prop}

/-- `P` holds of the memory and of what a restart reads. -/
def Holds (P : StoreData → Prop) (r : Registry) : Prop :=
  P r.data ∧ ∀ d, Registry.load none r.disk = .ok d → P d

theorem holds_exec {op : Op} {r : Registry} (hplan : ∀ d, plan cr op r.data = some d → P r.data → P d)
    (hjson : ∀ d, P d → P (jsonImage d)) (h : Holds P r) : Holds P (r.exec cr op).2 := by
  have hcases := exec_cases cr op r
  generalize (r.exec cr op).2 = r' at hcases ⊢
  cases hcases with
  | kept => exact h
  | reloaded d hnone hload => exact ⟨h.2 d hload, h.2⟩
  | planned d' hp =>
    have hd' := hplan d' hp h.1
    refine ⟨by rw [save_data]; exact hd', fun d hd => ?_⟩
    by_cases ho : op.saveOutcome = .ok
    · rw [ho, save_ok] at hd
      simp only [Registry.load, Except.ok.injEq] at hd
      exact hd ▸ hjson d' hd'
    · rw [load_eq_ok_iff, save_failed_file _ _ ho, ← load_eq_ok_iff] at hd
      exact h.2 d hd

/-- A property that every plan and the trip through JSON keep holds along every run. -/
theorem holds_execAll (hplan : ∀ op d d', plan cr op d = some d' → P d → P d')
    (hjson : ∀ d, P d → P (jsonImage d)) (ops : List Op) (r : Registry) (h : Holds P r) :
    Holds P (r.execAll cr ops) := by
  induction ops generalizing r with
  | nil => exact h
  | cons op ops ih => exact ih (r.exec cr op).2 (holds_exec (hplan op r.data) hjson h)

end Invariant

/-! ## Changes

The five ways a plan changes the data.
-/

/-- A plan with the call that makes it. -/
inductive Planned (cr : Crypto) (d : StoreData) : Op → StoreData → Prop where
  | authorizeDevice {now : Time} {o : SaveOutcome} {pub : Bytes} {i : Nat} {x : Device}
      (hm : firstMatch (fun x : Device => bytesEqual x.pubKey pub) d.devices = some (i, x)) :
      Planned cr d (.authorizeDevice now o pub)
        { d with devices := d.devices.modify i fun x => { x with lastSeenAt := now } }
  | bootstrap {now : Time} {o : SaveOutcome} {token pub label : Bytes} {i : Nat} {found : InviteRecord}
      (hr : redeemable now token d = some (i, found)) :
      Planned cr d (.bootstrap now o token pub label) {
        devices := d.devices ++ [newDevice cr now pub label]
        invites := d.invites.modify i fun inv => { inv with uses := inv.uses + 1 } }
  | createInvite {now : Time} {o : SaveOutcome} {tok : ByteArr 32} {label : Bytes} {maxUses : Int} {ttl : Int} :
      Planned cr d (.createInvite now o (.ok tok) label maxUses ttl)
        { d with invites := d.invites ++ [newInvite cr now tok.val label maxUses ttl] }
  | revokeInvite {o : SaveOutcome} {tokenID : Bytes} {i : Nat} {found : InviteRecord}
      (hm : firstMatch (fun inv : InviteRecord => inv.tokenID == tokenID || tokenID.isPrefixOf inv.tokenID) d.invites =
        some (i, found)) :
      Planned cr d (.revokeInvite o tokenID)
        { d with invites := d.invites.modify i fun inv => { inv with revoked := true } }
  | revokeDevice {o : SaveOutcome} {deviceID : Bytes} {i : Nat} {x : Device}
      (hm : firstMatch (fun x : Device => x.deviceID == deviceID) d.devices = some (i, x)) :
      Planned cr d (.revokeDevice o deviceID)
        { d with devices := d.devices.modify i fun x => { x with revoked := true } }

theorem plan_inv {cr : Crypto} {op : Op} {d d' : StoreData} (h : plan cr op d = some d') : Planned cr d op d' := by
  cases op with
  | load e => cases h
  | authorizeDevice now o pub =>
    simp only [plan] at h
    split at h
    · cases h
    · rename_i i x hm
      split_ifs at h
      obtain rfl := Option.some.inj h
      exact .authorizeDevice hm
  | bootstrap now o token pub label =>
    obtain ⟨⟨i, found⟩, hr, rfl⟩ := Option.map_eq_some_iff.mp h
    exact .bootstrap hr
  | createInvite now o draw label maxUses ttl =>
    cases draw with
    | error e => cases h
    | ok tok =>
      obtain rfl := Option.some.inj h
      exact .createInvite
  | revokeInvite o tokenID =>
    obtain ⟨⟨i, found⟩, hm, rfl⟩ := Option.map_eq_some_iff.mp h
    exact .revokeInvite hm
  | revokeDevice o deviceID =>
    obtain ⟨⟨i, x⟩, hm, rfl⟩ := Option.map_eq_some_iff.mp h
    exact .revokeDevice hm

inductive Change : StoreData → StoreData → Prop where
  | seen (d : StoreData) (i : Nat) (now : Time) :
      Change d { d with devices := d.devices.modify i fun x => { x with lastSeenAt := now } }
  | register (d : StoreData) (i : Nat) (inv : InviteRecord) (x : Device)
      (hinv : d.invites[i]? = some inv) (hlimit : inv.uses < inv.limit) (hx : x.revoked = false) :
      Change d {
        devices := d.devices ++ [x]
        invites := d.invites.modify i fun inv => { inv with uses := inv.uses + 1 } }
  | create (d : StoreData) (inv : InviteRecord) (huses : inv.uses = 0) (hinv : inv.revoked = false) :
      Change d { d with invites := d.invites ++ [inv] }
  | revokeInvite (d : StoreData) (i : Nat) :
      Change d { d with invites := d.invites.modify i fun inv => { inv with revoked := true } }
  | revokeDevice (d : StoreData) (i : Nat) :
      Change d { d with devices := d.devices.modify i fun x => { x with revoked := true } }

theorem redeemable_spec {now : Time} {token : Bytes} {d : StoreData} {i : Nat} {found : InviteRecord}
    (h : redeemable now token d = some (i, found)) :
    d.invites[i]? = some found ∧ found.uses < found.limit ∧ found.token = token := by
  unfold redeemable at h
  split at h
  · cases h
  · rename_i i' found' hm
    split_ifs at h with hexp huse
    simp only [Option.some.injEq, Prod.mk.injEq] at h
    obtain ⟨rfl, rfl⟩ := h
    have hp := firstMatch_pos hm
    simp only [Bool.and_eq_true, bytesEqual_iff] at hp
    exact ⟨firstMatch_getElem hm, by omega, hp.2⟩

theorem plan_change {cr : Crypto} {op : Op} {d d' : StoreData} (h : plan cr op d = some d') :
    Change d d' := by
  cases plan_inv h with
  | authorizeDevice => exact .seen d _ _
  | bootstrap hr =>
    obtain ⟨hi, hlimit, -⟩ := redeemable_spec hr
    exact .register d _ _ _ hi hlimit rfl
  | createInvite => exact .create d _ rfl rfl
  | revokeInvite => exact .revokeInvite d _
  | revokeDevice => exact .revokeDevice d _

/-! ## Entries -/

/-- The device that a call appends. -/
def Op.device (cr : Crypto) : Op → Option Device
  | .bootstrap now _ _ pub label => some (newDevice cr now pub label)
  | _ => none

/-- The invite that a call appends. -/
def Op.invite (cr : Crypto) : Op → Option InviteRecord
  | .createInvite now _ (.ok tok) label maxUses ttl => some (newInvite cr now tok.val label maxUses ttl)
  | _ => none

theorem plan_entries {cr : Crypto} {op : Op} {d d' : StoreData} (h : plan cr op d = some d') :
    (∀ x ∈ d'.devices, op.device cr = some x ∨
        ∃ y ∈ d.devices, x.pubKey = y.pubKey ∧ x.deviceID = y.deviceID ∧ x.label = y.label) ∧
      (∀ x ∈ d'.invites, op.invite cr = some x ∨ ∃ y ∈ d.invites, x.label = y.label) := by
  have hdev : ∀ x ∈ d.devices, op.device cr = some x ∨
      ∃ y ∈ d.devices, x.pubKey = y.pubKey ∧ x.deviceID = y.deviceID ∧ x.label = y.label :=
    fun x hx => .inr ⟨x, hx, rfl, rfl, rfl⟩
  have hinv : ∀ x ∈ d.invites, op.invite cr = some x ∨ ∃ y ∈ d.invites, x.label = y.label :=
    fun x hx => .inr ⟨x, hx, rfl⟩
  cases plan_inv h with
  | authorizeDevice | revokeDevice =>
    refine ⟨fun x hx => .inr ?_, hinv⟩
    exact mem_modify (fun x y : Device => x.pubKey = y.pubKey ∧ x.deviceID = y.deviceID ∧ x.label = y.label) hx
      (fun _ => ⟨rfl, rfl, rfl⟩) (fun _ => ⟨rfl, rfl, rfl⟩)
  | bootstrap =>
    constructor
    · intro x hx
      simp only [List.mem_append, List.mem_singleton] at hx
      rcases hx with hx | rfl
      · exact hdev x hx
      · exact .inl rfl
    · intro x hx
      right
      exact mem_modify (fun x y : InviteRecord => x.label = y.label) hx (fun _ => rfl) (fun _ => rfl)
  | createInvite =>
    refine ⟨hdev, fun x hx => ?_⟩
    simp only [List.mem_append, List.mem_singleton] at hx
    rcases hx with hx | rfl
    · exact hinv x hx
    · exact .inl rfl
  | revokeInvite =>
    refine ⟨hdev, fun x hx => .inr ?_⟩
    exact mem_modify (fun x y : InviteRecord => x.label = y.label) hx (fun _ => rfl) (fun _ => rfl)

/-! ## Extensions -/

/-- The same registration, maybe seen again or revoked since. Labels are left out: JSON may
change them. -/
def Device.Le (a b : Device) : Prop :=
  a.pubKey = b.pubKey ∧ a.deviceID = b.deviceID ∧ a.registeredAt = b.registeredAt ∧
    (a.revoked = true → b.revoked = true)

/-- The same invite, maybe used or revoked since. -/
def InviteRecord.Le (a b : InviteRecord) : Prop :=
  a.token = b.token ∧ a.tokenID = b.tokenID ∧ a.maxUses = b.maxUses ∧ a.expiresAt = b.expiresAt ∧
    a.createdAt = b.createdAt ∧ a.uses ≤ b.uses ∧ (a.revoked = true → b.revoked = true)

/-- `d'` holds everything that `d` holds. -/
def Extends (d d' : StoreData) : Prop :=
  Grows Device.Le d.devices d'.devices ∧ Grows InviteRecord.Le d.invites d'.invites

theorem Device.le_refl (a : Device) : a.Le a := ⟨rfl, rfl, rfl, id⟩

theorem Device.le_trans (a b c : Device) (h1 : a.Le b) (h2 : b.Le c) : a.Le c :=
  ⟨h1.1.trans h2.1, h1.2.1.trans h2.2.1, h1.2.2.1.trans h2.2.2.1, h2.2.2.2 ∘ h1.2.2.2⟩

theorem InviteRecord.le_refl (a : InviteRecord) : a.Le a := ⟨rfl, rfl, rfl, rfl, rfl, Int.le_refl _, id⟩

theorem InviteRecord.le_trans (a b c : InviteRecord) (h1 : a.Le b) (h2 : b.Le c) : a.Le c := by
  obtain ⟨t1, i1, m1, e1, c1, u1, r1⟩ := h1
  obtain ⟨t2, i2, m2, e2, c2, u2, r2⟩ := h2
  exact ⟨t1.trans t2, i1.trans i2, m1.trans m2, e1.trans e2, c1.trans c2, Int.le_trans u1 u2, r2 ∘ r1⟩

theorem extends_refl (d : StoreData) : Extends d d :=
  ⟨grows_refl Device.le_refl _, grows_refl InviteRecord.le_refl _⟩

theorem extends_trans {a b c : StoreData} (h1 : Extends a b) (h2 : Extends b c) : Extends a c :=
  ⟨grows_trans Device.le_trans h1.1 h2.1, grows_trans InviteRecord.le_trans h1.2 h2.2⟩

theorem extends_jsonImage (d : StoreData) : Extends d (jsonImage d) :=
  ⟨grows_map _ _ fun _ => ⟨rfl, rfl, rfl, id⟩,
    grows_map _ _ fun _ => ⟨rfl, rfl, rfl, rfl, rfl, Int.le_refl _, id⟩⟩

theorem change_extends {d d' : StoreData} (h : Change d d') : Extends d d' := by
  have hdev := grows_refl Device.le_refl d.devices
  have hinv := grows_refl InviteRecord.le_refl d.invites
  cases h with
  | seen i now =>
    exact ⟨grows_modify Device.le_refl _ _ _ fun _ _ => ⟨rfl, rfl, rfl, id⟩, hinv⟩
  | register i inv x hi hlimit hx =>
    refine ⟨grows_append Device.le_refl _ _, grows_modify InviteRecord.le_refl _ _ _ fun a _ => ?_⟩
    exact ⟨rfl, rfl, rfl, rfl, rfl, by simp, id⟩
  | create inv huses hr => exact ⟨hdev, grows_append InviteRecord.le_refl _ _⟩
  | revokeInvite i =>
    refine ⟨hdev, grows_modify InviteRecord.le_refl _ _ _ fun a _ => ?_⟩
    exact ⟨rfl, rfl, rfl, rfl, rfl, Int.le_refl _, fun _ => rfl⟩
  | revokeDevice i =>
    exact ⟨grows_modify Device.le_refl _ _ _ fun _ _ => ⟨rfl, rfl, rfl, fun _ => rfl⟩, hinv⟩

theorem plan_extends {cr : Crypto} {op : Op} {d d' : StoreData} (h : plan cr op d = some d') :
    Extends d d' := change_extends (plan_change h)

end Daxson.Registry
