import Daxson.Registry.ShortID

/-! # One entry for each device

`Bootstrap` appends an entry without a look at the keys that are there.
-/

open Lib.Grow

namespace Daxson.Registry

open Invite

def DistinctKeys (d : StoreData) : Prop := (d.devices.map (·.pubKey)).Nodup

instance (d : StoreData) : Decidable (DistinctKeys d) := inferInstanceAs (Decidable (List.Nodup _))

/-- One entry a key, and the count is the number of keys that may connect. -/
def OneEntryEach (r : Registry) : Prop :=
  DistinctKeys r.data ∧
    ∀ now o, r.deviceCount = Set.ncard { pub | (r.authorizeDevice now o pub).1 = authStatusOK }

/-- A registration brings a key that no entry has. -/
def NewKey (r : Registry) : Op → Prop
  | .bootstrap now _ token pub _ => (redeemable now token r.data).isSome → ∀ x ∈ r.data.devices, x.pubKey ≠ pub
  | _ => True

/-! ## The count -/

theorem deviceCount_eq (r : Registry) : r.deviceCount = (r.data.devices.filter fun x => !x.revoked).length := by
  have hfold : ∀ (l : List Device) (n : Nat),
      l.foldl (fun n x => if x.revoked then n else n + 1) n = n + (l.filter fun x => !x.revoked).length := by
    intro l
    induction l with
    | nil => exact fun n => rfl
    | cons x l ih =>
      intro n
      rw [List.foldl_cons, ih, List.filter_cons]
      cases x.revoked
      · simp
        omega
      · simp
  exact (hfold r.data.devices 0).trans (Nat.zero_add _)

theorem authorized_iff_of_distinct {d : StoreData} (h : DistinctKeys d) (pub : Bytes) :
    Authorized pub d ↔ pub ∈ (d.devices.filter fun x => !x.revoked).map (·.pubKey) := by
  simp only [List.mem_map, List.mem_filter, Bool.not_eq_true']
  constructor
  · rintro ⟨i, x, hm, hx⟩
    have hkey := firstMatch_pos hm
    rw [bytesEqual_iff] at hkey
    exact ⟨x, ⟨List.mem_of_getElem? (firstMatch_getElem hm), hx⟩, hkey⟩
  · rintro ⟨x, ⟨hmem, hx⟩, hkey⟩
    cases hm : firstMatch (fun x : Device => bytesEqual x.pubKey pub) d.devices with
    | none =>
      have := (firstMatch_eq_none_iff _ _).mp hm x hmem
      rw [(bytesEqual_iff _ _).mpr hkey] at this
      cases this
    | some p =>
      obtain ⟨i, y⟩ := p
      have hykey := firstMatch_pos hm
      rw [bytesEqual_iff] at hykey
      have hyx : y = x :=
        List.inj_on_of_nodup_map h (List.mem_of_getElem? (firstMatch_getElem hm)) hmem (hykey.trans hkey.symm)
      exact ⟨i, y, hm, hyx ▸ hx⟩

theorem oneEntryEach_iff (r : Registry) : OneEntryEach r ↔ DistinctKeys r.data := by
  refine ⟨And.left, ?_⟩
  intro h
  refine ⟨h, ?_⟩
  intro now o
  have hset : { pub | (r.authorizeDevice now o pub).1 = authStatusOK } =
      ((r.data.devices.filter fun x => !x.revoked).map (·.pubKey)).toFinset := by
    ext pub
    rw [List.coe_toFinset]
    exact (authorizeDevice_ok_iff now o pub r).trans (authorized_iff_of_distinct h pub)
  have hnodup : ((r.data.devices.filter fun x => !x.revoked).map (·.pubKey)).Nodup :=
    h.sublist (List.filter_sublist.map _)
  rw [hset, Set.ncard_coe_finset, List.toFinset_card_of_nodup hnodup, List.length_map, deviceCount_eq]

/-! ## One call -/

theorem plan_keys {cr : Crypto} {op : Op} {d d' : StoreData} (h : plan cr op d = some d') :
    d'.devices.map (·.pubKey) = d.devices.map (·.pubKey) ++ (op.device cr).toList.map (·.pubKey) := by
  cases plan_inv h with
  | authorizeDevice | revokeDevice =>
    simp only [Op.device, Option.toList_none, List.map_nil, List.append_nil]
    apply map_modify
    exact fun _ => rfl
  | bootstrap => exact List.map_append
  | createInvite | revokeInvite => exact (List.append_nil _).symm

theorem distinctKeys_plan_iff {cr : Crypto} {op : Op} {r : Registry} {d : StoreData} (h : DistinctKeys r.data)
    (hplan : plan cr op r.data = some d) : DistinctKeys d ↔ NewKey r op := by
  unfold DistinctKeys at h ⊢
  rw [plan_keys hplan]
  cases op with
  | bootstrap now o token pub label =>
    have hred : (redeemable now token r.data).isSome := by
      obtain ⟨p, hp, -⟩ := Option.map_eq_some_iff.mp hplan
      rw [hp]
      rfl
    have hiff : (r.data.devices.map (·.pubKey) ++ [pub]).Nodup ↔ pub ∉ r.data.devices.map (·.pubKey) := by
      rw [List.nodup_append_comm, List.singleton_append, List.nodup_cons, and_iff_left h]
    refine hiff.trans ?_
    simp [NewKey, hred]
  | _ =>
    simp only [Op.device, Option.toList_none, List.map_nil, List.append_nil]
    exact iff_of_true h trivial

theorem exec_planned {cr : Crypto} {op : Op} {r : Registry} {d : StoreData} (h : plan cr op r.data = some d) :
    (r.exec cr op).2.data = d := by
  have hcases := exec_cases cr op r
  generalize (r.exec cr op).2 = r' at hcases ⊢
  cases hcases with
  | kept hnone => cases hnone.symm.trans h
  | reloaded d' hnone hload => cases hnone.symm.trans h
  | planned d' hp =>
    rw [save_data]
    exact Option.some.inj (hp.symm.trans h)

theorem holds_distinct_exec {cr : Crypto} {op : Op} {r : Registry} (hnew : NewKey r op) (h : Holds DistinctKeys r) :
    Holds DistinctKeys (r.exec cr op).2 := by
  apply holds_exec _ _ h
  · intro d hplan hd
    exact (distinctKeys_plan_iff hd hplan).mpr hnew
  · intro d hd
    -- A label is all that JSON may change.
    unfold DistinctKeys jsonImage at *
    rw [List.map_map]
    exact hd

theorem newKey_of_distinct (cr : Crypto) {op : Op} {r : Registry} (h : DistinctKeys r.data)
    (h' : DistinctKeys (r.exec cr op).2.data) : NewKey r op := by
  cases hplan : plan cr op r.data with
  | some d =>
    rw [exec_planned hplan] at h'
    exact (distinctKeys_plan_iff h hplan).mp h'
  | none =>
    cases op with
    | bootstrap now o token pub label =>
      intro hred
      have hnone : redeemable now token r.data = none := Option.map_eq_none_iff.mp hplan
      rw [hnone] at hred
      cases hred
    | _ => trivial

/-! ## Whole runs -/

theorem oneEntryEach_run_iff (cr : Crypto) (ops : List Op) (r : Registry) (h : Holds DistinctKeys r) :
    (∀ n, OneEntryEach (r.execAll cr (ops.take n))) ↔
      ∀ n op, ops[n]? = some op → NewKey (r.execAll cr (ops.take n)) op := by
  induction ops generalizing r with
  | nil =>
    simp only [List.take_nil, List.getElem?_nil, reduceCtorEq, false_implies, implies_true, iff_true]
    exact fun _ => (oneEntryEach_iff r).mpr h.1
  | cons op ops ih =>
    constructor
    · intro hone
      have hnew : NewKey r op := newKey_of_distinct cr h.1 (hone 1).1
      have hrest := (ih (r.exec cr op).2 (holds_distinct_exec hnew h)).mp fun n => hone (n + 1)
      intro n op' hop
      cases n with
      | zero => exact Option.some.inj hop ▸ hnew
      | succ n => exact hrest n op' hop
    · intro hnew
      have hfirst : NewKey r op := hnew 0 op rfl
      have hrest := (ih (r.exec cr op).2 (holds_distinct_exec hfirst h)).mpr fun n op' => hnew (n + 1) op'
      intro n
      cases n with
      | zero => exact (oneEntryEach_iff r).mpr h.1
      | succ n => exact hrest n

/-- **One entry a device**, exactly if every registration brings a new key. -/
theorem one_entry_each_iff (cr : Crypto) (path : Bytes) (tmp : Option FileContent) (ops : List Op) :
    (∀ n, OneEntryEach ((fresh path tmp).execAll cr (ops.take n))) ↔
      ∀ n op, ops[n]? = some op → NewKey ((fresh path tmp).execAll cr (ops.take n)) op := by
  apply oneEntryEach_run_iff
  refine ⟨List.nodup_nil, ?_⟩
  intro d hd
  obtain rfl := Except.ok.inj hd
  exact List.nodup_nil

theorem device_registered_twice :
    let tok : ByteArr 32 := ⟨List.replicate 32 7, rfl⟩
    let pub : Bytes := List.replicate 32 1
    let r := (fresh [] none).execAll hashCrypto
      [.createInvite 0 .ok (.ok tok) [] 2 0, .bootstrap 0 .ok tok.val pub [], .bootstrap 0 .ok tok.val pub []]
    r.data.devices.map (·.pubKey) = [pub, pub] ∧ r.deviceCount = 2 ∧
      { key | (r.authorizeDevice 0 .ok key).1 = authStatusOK } = {pub} := by
  intro tok pub r
  have hkeys : r.data.devices.map (·.pubKey) = [pub, pub] := by decide +kernel
  have hok : (r.authorizeDevice 0 .ok pub).1 = authStatusOK := by decide +kernel
  refine ⟨hkeys, by decide +kernel, ?_⟩
  ext key
  constructor
  · intro hkey
    obtain ⟨i, x, hm, -⟩ := (authorizeDevice_ok_iff 0 .ok key r).mp hkey
    have hx := firstMatch_pos hm
    rw [bytesEqual_iff] at hx
    have hmem : key ∈ r.data.devices.map (·.pubKey) :=
      List.mem_map.mpr ⟨x, List.mem_of_getElem? (firstMatch_getElem hm), hx⟩
    rw [hkeys] at hmem
    simpa using hmem
  · rintro rfl
    exact hok

end Daxson.Registry
