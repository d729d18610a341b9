import Daxson.Registry.Proofs

/-! # Revocation is permanent

No call moves the first entry with a key or clears its flag.
-/

open Lib.Grow

namespace Daxson.Registry

open Invite

def RevokedKey (pub : Bytes) (d : StoreData) : Prop :=
  ∃ i x, firstMatch (fun x : Device => bytesEqual x.pubKey pub) d.devices = some (i, x) ∧ x.revoked = true

theorem revokedKey_extends {pub : Bytes} {d d' : StoreData} (h : Extends d d')
    (hd : RevokedKey pub d) : RevokedKey pub d' := by
  obtain ⟨i, x, hm, hx⟩ := hd
  obtain ⟨y, hy, hxy⟩ := firstMatch_grows (fun a b hab => bytesEqual_congr hab.1) h.1 hm
  exact ⟨i, y, hy, hxy.2.2.2 hx⟩

theorem authorizeDevice_revoked_iff (now : Time) (o : SaveOutcome) (pub : Bytes) (r : Registry) :
    (r.authorizeDevice now o pub).1 = authStatusRevoked ↔ RevokedKey pub r.data := by
  unfold authorizeDevice RevokedKey
  cases hm : firstMatch (fun x : Device => bytesEqual x.pubKey pub) r.data.devices with
  | none => simp [authStatusUnknown, authStatusRevoked]
  | some p =>
    obtain ⟨i, x⟩ := p
    cases hx : x.revoked <;> simp [hx, authStatusOK, authStatusRevoked]

/-- A restart would read back everything that is in memory. -/
def Synced (r : Registry) : Prop := ∃ d, Registry.load none r.disk = .ok d ∧ Extends r.data d

theorem synced_exec (cr : Crypto) (op : Op) (r : Registry) (hsave : op.saveOutcome = .ok)
    (h : Synced r) : Synced (r.exec cr op).2 ∧ Extends r.data (r.exec cr op).2.data := by
  obtain ⟨d, hload, hext⟩ := h
  have hcases := exec_cases cr op r
  generalize (r.exec cr op).2 = r' at hcases ⊢
  cases hcases with
  | kept => exact ⟨⟨d, hload, hext⟩, extends_refl _⟩
  | reloaded d' _ hload' =>
    obtain rfl : d' = d := Except.ok.inj (hload'.symm.trans hload)
    exact ⟨⟨d', hload, extends_refl _⟩, hext⟩
  | planned d' hp =>
    simp only [hsave, save_ok]
    exact ⟨⟨jsonImage d', rfl, extends_jsonImage d'⟩, plan_extends hp⟩

theorem synced_execAll (cr : Crypto) (ops : List Op) (r : Registry)
    (hsave : ∀ op ∈ ops, op.saveOutcome = .ok) (h : Synced r) :
    Synced (r.execAll cr ops) ∧ Extends r.data (r.execAll cr ops).data := by
  induction ops generalizing r with
  | nil => exact ⟨h, extends_refl _⟩
  | cons op ops ih =>
    obtain ⟨h1, hext1⟩ := synced_exec cr op r (hsave op (by simp)) h
    obtain ⟨h2, hext2⟩ := ih (r.exec cr op).2 (fun o ho => hsave o (by simp [ho])) h1
    exact ⟨h2, extends_trans hext1 hext2⟩

theorem execAll_append (cr : Crypto) (ops ops' : List Op) (r : Registry) :
    r.execAll cr (ops ++ ops') = (r.execAll cr ops).execAll cr ops' := List.foldl_append ..

/-- Once a key was answered with "revoked", no later call answers it with "OK". -/
theorem revoked_for_good (cr : Crypto) (disk : Disk) (d : StoreData) (hload : Registry.load none disk = .ok d)
    (pre post : List Op) (hsave : ∀ op ∈ pre ++ post, op.saveOutcome = .ok) (pub : Bytes)
    (now now' : Time) (o' : SaveOutcome)
    (hrev : ((execAll cr pre ⟨d, disk⟩).authorizeDevice now .ok pub).1 = authStatusRevoked) :
    ((execAll cr (pre ++ .authorizeDevice now .ok pub :: post) ⟨d, disk⟩).authorizeDevice now' o' pub).1 ≠
      authStatusOK := by
  have hpre := synced_execAll cr pre ⟨d, disk⟩ (fun op h => hsave op (by simp [h])) ⟨d, hload, extends_refl d⟩
  rw [authorizeDevice_revoked_iff] at hrev
  rw [execAll_append]
  have hpost := synced_execAll cr (.authorizeDevice now .ok pub :: post) (execAll cr pre ⟨d, disk⟩)
    (by
      intro op hop
      rcases List.mem_cons.mp hop with rfl | hop
      · rfl
      · exact hsave op (by simp [hop]))
    hpre.1
  have hrev' := revokedKey_extends hpost.2 hrev
  rw [← authorizeDevice_revoked_iff now' o' pub] at hrev'
  rw [hrev']
  decide

theorem revoked_for_good_reregistered :
    let tok : ByteArr 32 := ⟨List.replicate 32 7, rfl⟩
    let pub : Bytes := List.replicate 32 1
    let invite : Op := .createInvite 0 .ok (.ok tok) [] 5 0
    let register : Op := .bootstrap 0 .ok tok.val pub []
    let revoke : Op := .revokeDevice .ok (shortDeviceID hashCrypto pub)
    ((execAll hashCrypto ([invite, register, revoke] ++ .authorizeDevice 1 .ok pub :: [register, .load none])
      ⟨{}, {}⟩).authorizeDevice 2 .ok pub).1 ≠ authStatusOK :=
  revoked_for_good hashCrypto {} {} rfl
    [.createInvite 0 .ok (.ok ⟨List.replicate 32 7, rfl⟩) [] 5 0,
      .bootstrap 0 .ok (List.replicate 32 7) (List.replicate 32 1) [],
      .revokeDevice .ok (shortDeviceID hashCrypto (List.replicate 32 1))]
    [.bootstrap 0 .ok (List.replicate 32 7) (List.replicate 32 1) [], .load none]
    (by simp [Op.saveOutcome]) (List.replicate 32 1) 1 2 .ok (by decide +kernel)

end Daxson.Registry
