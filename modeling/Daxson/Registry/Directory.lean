import Daxson.Lib.Keyed
import Daxson.Lib.Refine
import Daxson.Registry.ShortID

/-! # What the registry is for

A registry is a directory in memory and one on disk. The entries and their order are how it is kept.
-/

open Lib.Grow Lib.Keyed Lib.Refine

namespace Daxson.Registry

open Invite

/-! ## Directories -/

structure Voucher where
  left : Int
  /-- Unix seconds; 0 = no expiry. -/
  expiresAt : Int
  revoked : Bool

def Voucher.Expired (v : Voucher) (now : Time) : Prop := v.expiresAt ≠ 0 ∧ v.expiresAt < now.unix

@[ext] structure Directory where
  /-- For a known key, whether it is revoked. -/
  devices : Bytes → Option Bool := fun _ => none
  invites : Bytes → Option Voucher := fun _ => none

/-- A key that is known already keeps its standing. -/
def Directory.register (d : Directory) (token : Bytes) (v : Voucher) (pub : Bytes) : Directory where
  devices := Function.update d.devices pub (some ((d.devices pub).getD false))
  invites := Function.update d.invites token (some { v with left := v.left - 1 })

def Directory.issue (d : Directory) (token : Bytes) (v : Voucher) : Directory :=
  { d with invites := Function.update d.invites token (some v) }

def Directory.revokeInvite (d : Directory) (token : Bytes) (v : Voucher) : Directory :=
  { d with invites := Function.update d.invites token (some { v with revoked := true }) }

def Directory.revokeDevice (d : Directory) (pub : Bytes) : Directory :=
  { d with devices := Function.update d.devices pub (some true) }

/-- The directory that calls are answered from, and the one that a restart finds. -/
structure Book where
  live : Directory := {}
  stored : Directory := {}

/-- A save that fails leaves the change in memory only. -/
def Book.commit (b : Book) (o : SaveOutcome) (d : Directory) : Book where
  live := d
  stored := if o = .ok then d else b.stored

/-- The calls on a book. `RevokeDevice` and `RevokeInvite` may pick any of the entries that the ID names. -/
inductive Book.Does (cr : Crypto) (b : Book) : Op → Reply → Book → Prop where
  | reloaded : Does cr b (.load none) (.loaded none) ⟨b.stored, b.stored⟩
  | unread (e : SysError) (err : GoError) : Does cr b (.load (some e)) (.loaded (some err)) b
  | unknown {now : Time} {o : SaveOutcome} {pub : Bytes} (hpub : b.live.devices pub = none) :
      Does cr b (.authorizeDevice now o pub) (.status authStatusUnknown) b
  | refused {now : Time} {o : SaveOutcome} {pub : Bytes} (hpub : b.live.devices pub = some true) :
      Does cr b (.authorizeDevice now o pub) (.status authStatusRevoked) b
  | authorized {now : Time} {o : SaveOutcome} {pub : Bytes} (hpub : b.live.devices pub = some false) :
      Does cr b (.authorizeDevice now o pub) (.status authStatusOK) (b.commit o b.live)
  | invalid {now : Time} {o : SaveOutcome} {token pub label : Bytes}
      (htoken : ∀ v, b.live.invites token = some v → v.revoked = true) :
      Does cr b (.bootstrap now o token pub label) (.bootstrap bootstrapStatusInvalidToken none) b
  | expired {now : Time} {o : SaveOutcome} {token pub label : Bytes} (v : Voucher)
      (htoken : b.live.invites token = some v) (hv : v.revoked = false) (hexp : v.Expired now) :
      Does cr b (.bootstrap now o token pub label) (.bootstrap bootstrapStatusExpired none) b
  | used {now : Time} {o : SaveOutcome} {token pub label : Bytes} (v : Voucher)
      (htoken : b.live.invites token = some v) (hv : v.revoked = false) (hexp : ¬ v.Expired now) (hleft : v.left ≤ 0) :
      Does cr b (.bootstrap now o token pub label) (.bootstrap bootstrapStatusUsed none) b
  | registered {now : Time} {o : SaveOutcome} {token pub label : Bytes} (v : Voucher) (err : Option GoError)
      (htoken : b.live.invites token = some v) (hv : v.revoked = false) (hexp : ¬ v.Expired now) (hleft : 0 < v.left)
      (herr : err = none ↔ o = .ok) :
      Does cr b (.bootstrap now o token pub label) (.bootstrap bootstrapStatusOK err)
        (b.commit o (b.live.register token v pub))
  | undrawn {now : Time} {o : SaveOutcome} {label : Bytes} {maxUses ttl : Int} (e : SysError) (err : GoError) :
      Does cr b (.createInvite now o (.error e) label maxUses ttl) (.invite (.error err)) b
  | issued {now : Time} {o : SaveOutcome} {tok : ByteArr 32} {label : Bytes} {maxUses ttl : Int}
      (res : Except GoError InviteRecord) (hres : (∃ inv, res = .ok inv ∧ inv.token = tok.val) ↔ o = .ok) :
      Does cr b (.createInvite now o (.ok tok) label maxUses ttl) (.invite res)
        (b.commit o (b.live.issue tok.val
          ⟨max 1 maxUses, if 0 < ttl then (now + ttl : Time).unix else 0, false⟩))
  | noInvite {o : SaveOutcome} {tokenID : Bytes} (err : GoError)
      (hnone : ∀ token, tokenID <+: shortHex cr token → b.live.invites token = none) :
      Does cr b (.revokeInvite o tokenID) (.done (some err)) b
  | inviteRevoked {o : SaveOutcome} {tokenID : Bytes} (token : Bytes) (v : Voucher) (err : Option GoError)
      (htoken : b.live.invites token = some v) (hid : tokenID <+: shortHex cr token) (herr : err = none ↔ o = .ok) :
      Does cr b (.revokeInvite o tokenID) (.done err) (b.commit o (b.live.revokeInvite token v))
  | noDevice {o : SaveOutcome} {deviceID : Bytes} (err : GoError)
      (hnone : ∀ pub, shortDeviceID cr pub = deviceID → b.live.devices pub = none) :
      Does cr b (.revokeDevice o deviceID) (.done (some err)) b
  | deviceRevoked {o : SaveOutcome} {deviceID : Bytes} (pub : Bytes) (err : Option GoError)
      (hpub : b.live.devices pub ≠ none) (hid : shortDeviceID cr pub = deviceID) (herr : err = none ↔ o = .ok) :
      Does cr b (.revokeDevice o deviceID) (.done err) (b.commit o (b.live.revokeDevice pub))

/-! ## The directory of a store -/

def InviteRecord.voucher (inv : InviteRecord) : Voucher := ⟨inv.limit - inv.uses, inv.expiresAt, inv.revoked⟩

def StoreData.directory (d : StoreData) : Directory where
  devices := view (·.pubKey) (·.revoked) d.devices
  invites := view (·.token) (·.voucher) d.invites

/-- The tokens are distinct, and the IDs are those of the keys and tokens. -/
structure StoreData.Sound (cr : Crypto) (d : StoreData) : Prop where
  deviceIDs : Tagged cr d
  tokenIDs : ∀ inv ∈ d.invites, inv.tokenID = shortHex cr inv.token
  distinct : (d.invites.map (·.token)).Nodup

@[simp] theorem directory_jsonImage (d : StoreData) : (jsonImage d).directory = d.directory :=
  Directory.ext (view_map (fun x : Device => { x with label := jsonString x.label }) (fun _ => rfl) (fun _ => rfl) _)
    (view_map (fun x : InviteRecord => { x with label := jsonString x.label }) (fun _ => rfl) (fun _ => rfl) _)

/-- The book that a registry keeps. -/
def book (r : Registry) : Book where
  live := r.data.directory
  stored := ((Registry.load none r.disk).toOption.getD {}).directory

theorem book_save (o : SaveOutcome) (r : Registry) (d : StoreData) :
    (save o { r with data := d }).2.book = r.book.commit o d.directory := by
  cases o with
  | ok =>
    change Book.mk d.directory (jsonImage d).directory = ⟨d.directory, _⟩
    rw [directory_jsonImage, if_pos rfl]
  | mkdirFails | marshalFails | writeFails | renameFails => rfl

theorem directory_devices (d : StoreData) (pub : Bytes) :
    d.directory.devices pub =
      (firstMatch (fun x : Device => bytesEqual x.pubKey pub) d.devices).map fun m => m.2.revoked := by
  have hp : (fun x : Device => bytesEqual x.pubKey pub) = fun x => decide (x.pubKey = pub) := by
    funext x
    rw [Bool.eq_iff_iff, bytesEqual_iff, decide_eq_true_iff]
  change (d.devices.find? fun x => decide (x.pubKey = pub)).map (·.revoked) = _
  rw [hp, ← firstMatch_snd, Option.map_map]
  rfl

theorem directory_invites {d : StoreData} (hdistinct : (d.invites.map (·.token)).Nodup) {token : Bytes} {i : Nat}
    {found : InviteRecord}
    (hm : firstMatch (fun inv : InviteRecord => !inv.revoked && bytesEqual inv.token token) d.invites =
      some (i, found)) :
    d.directory.invites token = some found.voucher ∧ found.revoked = false ∧ found.token = token := by
  have hp := firstMatch_pos hm
  simp only [Bool.and_eq_true, Bool.not_eq_true', bytesEqual_iff] at hp
  obtain ⟨hrev, rfl⟩ := hp
  have hi := firstMatch_getElem hm
  exact ⟨view_of_first hi (first_of_nodup hdistinct hi), hrev, rfl⟩

theorem isExpired_iff_voucher (inv : InviteRecord) (now : Time) :
    inv.isExpired now = true ↔ inv.voucher.Expired now := by
  simp [InviteRecord.isExpired, Voucher.Expired, InviteRecord.voucher]

/-! ## Calls -/

section Calls

variable {cr : Crypto} {r : Registry}

theorem authorizeDevice_does (now : Time) (o : SaveOutcome) (pub : Bytes) :
    r.book.Does cr (.authorizeDevice now o pub) (.status (r.authorizeDevice now o pub).1)
      (r.authorizeDevice now o pub).2.book := by
  have hlook := directory_devices r.data pub
  unfold authorizeDevice
  cases hm : firstMatch (fun x : Device => bytesEqual x.pubKey pub) r.data.devices with
  | none =>
    rw [hm] at hlook
    exact .unknown hlook
  | some m =>
    obtain ⟨i, x⟩ := m
    rw [hm] at hlook
    dsimp only [Option.map_some] at hlook ⊢
    split_ifs with hx
    · rw [hx] at hlook
      exact .refused hlook
    · rw [Bool.eq_false_iff.mpr hx] at hlook
      have hseen : StoreData.directory
          { r.data with devices := r.data.devices.modify i fun x => { x with lastSeenAt := now } } = r.data.directory :=
        Directory.ext (view_modify_same (fun x : Device => { x with lastSeenAt := now }) (fun _ => rfl)
          (fun _ => rfl) _ i) rfl
      dsimp only
      rw [book_save, hseen]
      exact .authorized hlook

theorem bootstrap_does (hdistinct : (r.data.invites.map (·.token)).Nodup) (now : Time) (o : SaveOutcome)
    (token pub label : Bytes) :
    r.book.Does cr (.bootstrap now o token pub label)
      (.bootstrap (r.bootstrap cr now o token pub label).1.1 (r.bootstrap cr now o token pub label).1.2)
      (r.bootstrap cr now o token pub label).2.book := by
  cases hm : firstMatch (fun inv : InviteRecord => !inv.revoked && bytesEqual inv.token token) r.data.invites with
  | none =>
    unfold bootstrap
    rw [hm]
    refine .invalid fun v hv => ?_
    obtain ⟨inv, hinv, rfl, rfl⟩ := exists_of_view hv
    have hno := (firstMatch_eq_none_iff _ _).mp hm inv hinv
    rw [(bytesEqual_iff inv.token inv.token).mpr rfl, Bool.and_true, Bool.not_eq_false'] at hno
    exact hno
  | some m =>
    obtain ⟨i, found⟩ := m
    obtain ⟨hlook, hrev, htoken⟩ := directory_invites hdistinct hm
    have hi := firstMatch_getElem hm
    by_cases hexp : found.isExpired now = true
    · unfold bootstrap
      rw [hm]
      dsimp only
      rw [if_pos hexp]
      exact .expired _ hlook hrev ((isExpired_iff_voucher found now).mp hexp)
    have hexp' : ¬ found.voucher.Expired now := fun h => hexp ((isExpired_iff_voucher found now).mpr h)
    by_cases huse : found.limit ≤ found.uses
    · unfold bootstrap
      rw [hm]
      dsimp only
      rw [if_neg hexp, if_pos huse]
      exact .used _ hlook hrev hexp' (by change found.limit - found.uses ≤ 0; omega)
    · have hred : redeemable now token r.data = some (i, found) := by
        unfold redeemable
        rw [hm]
        dsimp only
        rw [if_neg hexp, if_neg huse]
      rw [bootstrap_redeemed cr now o token pub label r hred]
      have hafter : StoreData.directory {
          devices := r.data.devices ++ [newDevice cr now pub label]
          invites := r.data.invites.modify i fun inv => { inv with uses := inv.uses + 1 } } =
          r.data.directory.register token found.voucher pub := by
        ext1
        · exact view_append_singleton _ _
        · subst htoken
          refine (view_modify_first (fun inv : InviteRecord => { inv with uses := inv.uses + 1 }) (fun _ => rfl) hi
            (first_of_nodup hdistinct hi)).trans ?_
          congr 2
          change Voucher.mk (found.limit - (found.uses + 1)) _ _ = ⟨found.limit - found.uses - 1, _, _⟩
          rw [sub_add_eq_sub_sub]
          rfl
      dsimp only
      rw [book_save, hafter]
      have hleft : 0 < found.voucher.left := by change 0 < found.limit - found.uses; omega
      cases o with
      | ok => exact .registered _ none hlook hrev hexp' hleft (by simp)
      | _ => exact .registered _ (some _) hlook hrev hexp' hleft (by simp)

theorem createInvite_does (now : Time) (o : SaveOutcome) (draw : Except SysError (ByteArr 32)) (label : Bytes)
    (maxUses ttl : Int) (hnew : ∀ tok, draw = .ok tok → ∀ inv ∈ r.data.invites, inv.token ≠ tok.val) :
    r.book.Does cr (.createInvite now o draw label maxUses ttl)
      (.invite (r.createInvite cr now o draw label maxUses ttl).1)
      (r.createInvite cr now o draw label maxUses ttl).2.book := by
  cases draw with
  | error e => exact .undrawn e _
  | ok tok =>
    have hafter : StoreData.directory
        { r.data with invites := r.data.invites ++ [newInvite cr now tok.val label maxUses ttl] } =
        r.data.directory.issue tok.val ⟨max 1 maxUses, if 0 < ttl then (now + ttl : Time).unix else 0, false⟩ := by
      ext1
      · rfl
      · have hnone : view (·.token) (·.voucher) r.data.invites
            (newInvite cr now tok.val label maxUses ttl).token = none :=
          view_eq_none_iff.mpr (hnew tok rfl)
        have hvoucher : (newInvite cr now tok.val label maxUses ttl).voucher =
            ⟨max 1 maxUses, if 0 < ttl then (now + ttl : Time).unix else 0, false⟩ := by
          simp [InviteRecord.voucher, InviteRecord.limit_eq_max, newInvite]
        refine (view_append_singleton _ _).trans ?_
        rw [hnone, Option.getD_none, hvoucher]
        rfl
    have hbook :=
      book_save o r { r.data with invites := r.data.invites ++ [newInvite cr now tok.val label maxUses ttl] }
    rw [hafter] at hbook
    unfold createInvite
    dsimp only
    cases o with
    | ok => exact hbook ▸ .issued (.ok _) (by simp [newInvite])
    | _ => exact hbook ▸ .issued (.error _) (by simp)

theorem revokeInvite_does (hsound : r.data.Sound cr) (o : SaveOutcome) (tokenID : Bytes) :
    r.book.Does cr (.revokeInvite o tokenID) (.done (r.revokeInvite o tokenID).1)
      (r.revokeInvite o tokenID).2.book := by
  unfold revokeInvite
  cases hm : firstMatch (fun inv : InviteRecord => inv.tokenID == tokenID || tokenID.isPrefixOf inv.tokenID)
      r.data.invites with
  | none =>
    refine .noInvite _ fun token htoken => view_eq_none_iff.mpr fun inv hinv heq => ?_
    have hno := (firstMatch_eq_none_iff _ _).mp hm inv hinv
    rw [Bool.or_eq_false_iff, hsound.tokenIDs inv hinv, heq, List.isPrefixOf_iff_prefix.mpr htoken] at hno
    cases hno.2
  | some m =>
    obtain ⟨i, found⟩ := m
    have hi := firstMatch_getElem hm
    have hfirst := first_of_nodup hsound.distinct hi
    have hid : tokenID <+: shortHex cr found.token := by
      have hp := firstMatch_pos hm
      rw [hsound.tokenIDs found (List.mem_of_getElem? hi), Bool.or_eq_true, beq_iff_eq,
        List.isPrefixOf_iff_prefix] at hp
      exact hp.elim (fun heq => heq ▸ List.prefix_rfl) id
    have hafter : StoreData.directory
        { r.data with invites := r.data.invites.modify i fun inv => { inv with revoked := true } } =
        r.data.directory.revokeInvite found.token found.voucher :=
      Directory.ext rfl (view_modify_first (fun inv : InviteRecord => { inv with revoked := true }) (fun _ => rfl) hi
        hfirst)
    dsimp only
    rw [book_save, hafter]
    exact .inviteRevoked found.token _ _ (view_of_first hi hfirst) hid (save_err_iff _ _)

theorem revokeDevice_does (hsound : r.data.Sound cr) (o : SaveOutcome) (deviceID : Bytes) :
    r.book.Does cr (.revokeDevice o deviceID) (.done (r.revokeDevice o deviceID).1)
      (r.revokeDevice o deviceID).2.book := by
  unfold revokeDevice
  cases hm : firstMatch (fun x : Device => x.deviceID == deviceID) r.data.devices with
  | none =>
    refine .noDevice _ fun pub hpub => view_eq_none_iff.mpr fun x hx heq => ?_
    have hno := (firstMatch_eq_none_iff _ _).mp hm x hx
    rw [hsound.deviceIDs x hx, heq, hpub, beq_self_eq_true] at hno
    cases hno
  | some m =>
    obtain ⟨i, x⟩ := m
    have hi := firstMatch_getElem hm
    have hid : shortDeviceID cr x.pubKey = deviceID := by
      have hp := firstMatch_pos hm
      rw [← hsound.deviceIDs x (List.mem_of_getElem? hi)]
      exact beq_iff_eq.mp hp
    -- An earlier entry with the same key has the same ID, so the search would have stopped there.
    have hfirst : ∀ (j : Nat) (y : Device), j < i → r.data.devices[j]? = some y → y.pubKey ≠ x.pubKey := by
      intro j y hj hy hkey
      have hbefore := ((firstMatch_eq_some_iff _ _ _ _).mp hm).2.2 j y hj hy
      rw [hsound.deviceIDs y (List.mem_of_getElem? hy), hkey, hid, beq_self_eq_true] at hbefore
      cases hbefore
    have hafter : StoreData.directory
        { r.data with devices := r.data.devices.modify i fun x => { x with revoked := true } } =
        r.data.directory.revokeDevice x.pubKey :=
      Directory.ext (view_modify_first (fun x : Device => { x with revoked := true }) (fun _ => rfl) hi hfirst) rfl
    have hknown : r.data.directory.devices x.pubKey = some x.revoked := view_of_first hi hfirst
    dsimp only
    rw [book_save, hafter]
    exact .deviceRevoked x.pubKey _ (by change r.data.directory.devices x.pubKey ≠ none; simp [hknown]) hid
      (save_err_iff _ _)

end Calls

/-! ## Runs -/

/-- The token that a call draws. -/
def Op.drawn : Op → Option Bytes
  | .createInvite _ _ (.ok tok) _ _ _ => some tok.val
  | _ => none

theorem plan_tokens {cr : Crypto} {op : Op} {d d' : StoreData} (h : plan cr op d = some d') :
    d'.invites.map (·.token) = d.invites.map (·.token) ++ op.drawn.toList := by
  cases plan_inv h with
  | authorizeDevice | revokeDevice => simp [Op.drawn]
  | bootstrap | revokeInvite => simp [Op.drawn, map_modify]
  | createInvite => simp [Op.drawn, newInvite]

theorem sound_jsonImage {cr : Crypto} (d : StoreData) (h : d.Sound cr) : (jsonImage d).Sound cr := by
  refine ⟨fun y hy => ?_, fun y hy => ?_, ?_⟩
  · obtain ⟨x, hx, rfl⟩ := List.mem_map.mp hy
    exact h.deviceIDs x hx
  · obtain ⟨x, hx, rfl⟩ := List.mem_map.mp hy
    exact h.tokenIDs x hx
  · unfold jsonImage
    rw [List.map_map]
    exact h.distinct

theorem sound_plan {cr : Crypto} {op : Op} {d d' : StoreData} (hp : plan cr op d = some d') (h : d.Sound cr)
    (hnew : ∀ token ∈ op.drawn, token ∉ d.invites.map (·.token)) : d'.Sound cr := by
  refine ⟨tagged_plan op d d' hp h.deviceIDs, fun x hx => ?_, ?_⟩
  · cases plan_inv hp with
    | authorizeDevice | revokeDevice => exact h.tokenIDs x hx
    | bootstrap | revokeInvite =>
      obtain ⟨y, hy, htoken, hid⟩ :=
        mem_modify (fun x y : InviteRecord => x.token = y.token ∧ x.tokenID = y.tokenID) hx (fun _ => ⟨rfl, rfl⟩)
          (fun _ => ⟨rfl, rfl⟩)
      rw [htoken, hid]
      exact h.tokenIDs y hy
    | createInvite =>
      rcases List.mem_append.mp hx with hx | hx
      · exact h.tokenIDs x hx
      · rw [List.mem_singleton.mp hx]
        rfl
  · rw [plan_tokens hp, List.nodup_append]
    refine ⟨h.distinct, by cases op.drawn <;> simp, fun t ht t' ht' => ?_⟩
    rintro rfl
    exact hnew t (by simpa using ht') ht

/-- The registry is sound, its file can be read, and the calls to come draw tokens that it does not have. -/
structure Prepared (cr : Crypto) (ops : List Op) (r : Registry) : Prop where
  sound : Holds (StoreData.Sound cr) r
  readable : ∃ d, Registry.load none r.disk = .ok d
  unused : Holds (fun d => ∀ token ∈ ops.filterMap Op.drawn, token ∉ d.invites.map (·.token)) r
  distinct : (ops.filterMap Op.drawn).Nodup

theorem readable_exec {cr : Crypto} {r : Registry} (h : ∃ d, Registry.load none r.disk = .ok d) (op : Op) :
    ∃ d, Registry.load none (r.exec cr op).2.disk = .ok d := by
  have hcases := exec_cases cr op r
  generalize (r.exec cr op).2 = r' at hcases ⊢
  cases hcases with
  | kept | reloaded => exact h
  | planned d =>
    by_cases ho : op.saveOutcome = .ok
    · rw [ho]
      exact ⟨jsonImage d, rfl⟩
    · obtain ⟨d', hd'⟩ := h
      refine ⟨d', ?_⟩
      rw [load_eq_ok_iff] at hd' ⊢
      rwa [save_failed_file _ _ ho]

theorem prepared_exec {cr : Crypto} {op : Op} {ops : List Op} {r : Registry} (h : Prepared cr (op :: ops) r) :
    Prepared cr ops (r.exec cr op).2 := by
  have hdrawn : (op :: ops).filterMap Op.drawn = op.drawn.toList ++ ops.filterMap Op.drawn := by
    cases hop : op.drawn <;> simp [hop]
  have hdistinct := h.distinct
  rw [hdrawn, List.nodup_append] at hdistinct
  refine ⟨?_, readable_exec h.readable op, ?_, hdistinct.2.1⟩
  · refine holds_exec (fun d hd hs => sound_plan hd hs fun token ht => ?_) sound_jsonImage h.sound
    exact h.unused.1 token (by rw [hdrawn]; simp [Option.mem_def.mp ht])
  · refine holds_exec (fun d hd hold token ht => ?_) (fun d hd => ?_) ⟨?_, ?_⟩
    · rw [plan_tokens hd, List.mem_append, not_or]
      exact ⟨hold token ht, fun hnew => hdistinct.2.2 token hnew token ht rfl⟩
    · unfold jsonImage
      rw [List.map_map]
      exact hd
    · exact fun token ht => h.unused.1 token (by rw [hdrawn]; exact List.mem_append_right _ ht)
    · exact fun d hd token ht => h.unused.2 d hd token (by rw [hdrawn]; exact List.mem_append_right _ ht)

theorem exec_does {cr : Crypto} {op : Op} {ops : List Op} {r : Registry} (h : Prepared cr (op :: ops) r) :
    r.book.Does cr op (r.exec cr op).1 (r.exec cr op).2.book := by
  cases op with
  | load e =>
    cases e with
    | some e => exact .unread e _
    | none =>
      obtain ⟨d, hd⟩ := h.readable
      have hexec : r.exec cr (.load none) = (.loaded none, { r with data := d }) := by simp only [exec, hd]
      have hafter : Book.mk r.book.stored r.book.stored = ({ r with data := d } : Registry).book := by
        unfold book
        rw [hd]
        rfl
      rw [hexec, ← hafter]
      exact .reloaded
  | authorizeDevice now o pub => exact authorizeDevice_does now o pub
  | bootstrap now o token pub label => exact bootstrap_does h.sound.1.distinct now o token pub label
  | createInvite now o draw label maxUses ttl =>
    refine createInvite_does now o draw label maxUses ttl fun tok htok inv hinv heq => ?_
    subst htok
    exact h.unused.1 tok.val (by simp [Op.drawn]) (List.mem_map.mpr ⟨inv, hinv, heq⟩)
  | revokeInvite o tokenID => exact revokeInvite_does h.sound.1 o tokenID
  | revokeDevice o deviceID => exact revokeDevice_does h.sound.1 o deviceID

theorem prepared_fresh (cr : Crypto) (path : Bytes) (tmp : Option FileContent) {ops : List Op}
    (hdraws : (ops.filterMap Op.drawn).Nodup) : Prepared cr ops (fresh path tmp) := by
  have hempty : StoreData.Sound cr {} := ⟨by simp [Tagged], by simp, List.nodup_nil⟩
  have hload : ∀ d, Registry.load none (fresh path tmp).disk = .ok d → d = {} := fun d hd => (Except.ok.inj hd).symm
  refine ⟨⟨hempty, fun d hd => hload d hd ▸ hempty⟩, ⟨{}, rfl⟩, ⟨by simp [fresh], fun d hd => ?_⟩, hdraws⟩
  rw [hload d hd]
  simp

theorem prepared_execAll {cr : Crypto} {ops ops' : List Op} {r : Registry} (h : Prepared cr (ops ++ ops') r) :
    Prepared cr ops' (r.execAll cr ops) := by
  induction ops generalizing r with
  | nil => exact h
  | cons op ops ih => exact ih (prepared_exec h)

theorem book_runs {cr : Crypto} {ops : List Op} {r : Registry} (h : Prepared cr ops r) :
    Runs (Book.Does cr) r.book (trace (fun r op => r.exec cr op) r ops) (r.execAll cr ops).book := by
  obtain ⟨b, hruns, -, hb⟩ := exists_runs (R := fun ops r b => Prepared cr ops r ∧ b = r.book)
    (fun op ops r b h => ⟨_, h.2 ▸ exec_does h.1, prepared_exec h.1, rfl⟩) ops r r.book ⟨h, rfl⟩
  exact hb ▸ hruns

theorem registry_keeps_book (cr : Crypto) (path : Bytes) (tmp : Option FileContent) (ops : List Op)
    (hdraws : (ops.filterMap Op.drawn).Nodup) :
    Runs (Book.Does cr) {} (trace (fun r op => r.exec cr op) (fresh path tmp) ops)
      ((fresh path tmp).execAll cr ops).book :=
  book_runs (prepared_fresh cr path tmp hdraws)

/-- The write after a registration fails, a restart forgets the device, and the same token registers it again. -/
def forgottenDevice : List Op :=
  let tok : ByteArr 32 := copyArr 32 (List.replicate 32 7)
  let pub : Bytes := List.replicate 32 1
  [.createInvite 0 .ok (.ok tok) [] 1 0, .bootstrap 0 (.renameFails (.other "no space left on device")) tok.val pub [],
    .load none, .authorizeDevice 1 .ok pub, .bootstrap 2 .ok tok.val pub [], .authorizeDevice 3 .ok pub,
    .revokeDevice .ok (shortDeviceID hashCrypto pub)]

theorem registry_keeps_book_forgotten_device :
    (forgottenDevice.filterMap Op.drawn).Nodup ∧
      Runs (Book.Does hashCrypto) {} (trace (fun r op => r.exec hashCrypto op) (fresh [] none) forgottenDevice)
        ((fresh [] none).execAll hashCrypto forgottenDevice).book := by
  have hdraws : (forgottenDevice.filterMap Op.drawn).Nodup := by
    unfold forgottenDevice
    exact List.nodup_singleton _
  exact ⟨hdraws, registry_keeps_book hashCrypto [] none forgottenDevice hdraws⟩

end Daxson.Registry
