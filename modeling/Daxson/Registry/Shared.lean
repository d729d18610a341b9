import Daxson.Lib.Machine
import Daxson.Registry.Proofs

/-! # Several instances on one file

The server and each CLI process load their own copy of the registry and write the whole file back.
-/

open Lib.Grow Lib.Machine

namespace Daxson.Registry

open Invite

/-- The copies that processes hold, and the disk that they share. -/
structure Shared where
  insts : List StoreData := []
  disk : Disk := {}
  deriving DecidableEq, Repr

inductive SharedAct where
  | start (readErr : Option SysError)
  | call (i : Nat) (op : Op)

/-- The copy and the disk as one registry. -/
def Shared.inst (s : Shared) (i : Nat) : Option Registry := (s.insts[i]?).map fun d => ⟨d, s.disk⟩

def Shared.step (cr : Crypto) (s : Shared) : SharedAct → Option Shared
  | .start readErr =>
    match Registry.load readErr s.disk with
    | .ok d => some { s with insts := s.insts ++ [d] }
    | .error _ => some s
  | .call i op =>
    (s.inst i).map fun r =>
      let r' := (r.exec cr op).2
      { insts := s.insts.set i r'.data, disk := r'.disk }

/-! ## Updates and their effects -/

/-- What an update leaves in the file. -/
inductive Effect where
  | deviceRevoked (deviceID : Bytes)
  | inviteRevoked (tokenID : Bytes)
  | inviteCreated (inv : InviteRecord)
  | deviceRegistered (pub : Bytes)
  | usesAtLeast (token : Bytes) (n : Int)
  deriving DecidableEq

def Effect.In (d : StoreData) : Effect → Prop
  | .deviceRevoked deviceID =>
    ∃ i x, firstMatch (fun x : Device => x.deviceID == deviceID) d.devices = some (i, x) ∧ x.revoked = true
  | .inviteRevoked tokenID =>
    ∃ i inv, firstMatch (fun inv : InviteRecord => inv.tokenID == tokenID || tokenID.isPrefixOf inv.tokenID)
      d.invites = some (i, inv) ∧ inv.revoked = true
  | .inviteCreated inv => ∃ inv' ∈ d.invites, inv.Le inv'
  | .deviceRegistered pub => ∃ x ∈ d.devices, x.pubKey = pub
  | .usesAtLeast token n => ∃ inv ∈ d.invites, inv.token = token ∧ n ≤ inv.uses

/-- The effects that a call promises by returning success, from the data it started with. -/
def effects (op : Op) (reply : Reply) (d : StoreData) : List Effect :=
  match op, reply with
  | .revokeDevice _ deviceID, .done none => [.deviceRevoked deviceID]
  | .revokeInvite _ tokenID, .done none => [.inviteRevoked tokenID]
  | .createInvite .., .invite (.ok inv) => [.inviteCreated inv]
  | .bootstrap now _ token pub _, .bootstrap s none =>
    if s = bootstrapStatusOK then
      match redeemable now token d with
      | some (_, found) => [.deviceRegistered pub, .usesAtLeast token (found.uses + 1)]
      | none => []
    else []
  | _, _ => []

def Shared.effects (cr : Crypto) (s : Shared) : SharedAct → List Effect
  | .start _ => []
  | .call i op =>
    match s.inst i with
    | some r => Registry.effects op (r.exec cr op).1 r.data
    | none => []

def SavesOk : SharedAct → Prop
  | .start _ => True
  | .call _ op => op.saveOutcome = .ok

/-- Every effect of every completed call is in the file at the end of the run. The run is
arbitrary, so this is about every later content of the file. -/
def NoLostUpdate (cr : Crypto) (s : Shared) (run : List SharedAct) : Prop :=
  ∀ pre a post s₁ s₂ s₃, run = pre ++ a :: post →
    Lib.Machine.run (Shared.step cr) s pre = some s₁ → Shared.step cr s₁ a = some s₂ →
    Lib.Machine.run (Shared.step cr) s₂ post = some s₃ →
    ∀ e ∈ s₁.effects cr a, ∃ d, Registry.load none s₃.disk = .ok d ∧ e.In d

/-! ## Effects are kept by extensions -/

theorem effect_extends {d d' : StoreData} (h : Extends d d') {e : Effect} (he : e.In d) : e.In d' := by
  cases e with
  | deviceRevoked deviceID =>
    obtain ⟨i, x, hm, hx⟩ := he
    obtain ⟨y, hy, hxy⟩ := firstMatch_grows (fun a b hab => by rw [hab.2.1]) h.1 hm
    exact ⟨i, y, hy, hxy.2.2.2 hx⟩
  | inviteRevoked tokenID =>
    obtain ⟨i, inv, hm, hinv⟩ := he
    obtain ⟨inv', hm', hle⟩ := firstMatch_grows (fun a b hab => by rw [hab.2.1]) h.2 hm
    exact ⟨i, inv', hm', hle.2.2.2.2.2.2 hinv⟩
  | inviteCreated inv =>
    obtain ⟨inv₁, hmem, hle⟩ := he
    obtain ⟨inv₂, hmem₂, hle₂⟩ := grows_mem h.2 hmem
    exact ⟨inv₂, hmem₂, InviteRecord.le_trans _ _ _ hle hle₂⟩
  | deviceRegistered pub =>
    obtain ⟨x, hmem, hx⟩ := he
    obtain ⟨y, hy, hxy⟩ := grows_mem h.1 hmem
    exact ⟨y, hy, hxy.1.symm.trans hx⟩
  | usesAtLeast token n =>
    obtain ⟨inv, hmem, htok, hn⟩ := he
    obtain ⟨inv', hmem', hle⟩ := grows_mem h.2 hmem
    exact ⟨inv', hmem', hle.1.symm.trans htok, Int.le_trans hn hle.2.2.2.2.2.1⟩

theorem modify_firstMatch {α : Type} {p : α → Bool} {l : List α} {i : Nat} {a : α} (f : α → α)
    (hf : ∀ x, p (f x) = p x) (h : firstMatch p l = some (i, a)) :
    firstMatch p (l.modify i f) = some (i, f a) := by
  obtain ⟨hi, ha, hbefore⟩ := (firstMatch_eq_some_iff p l i a).mp h
  refine (firstMatch_eq_some_iff p _ i (f a)).mpr ⟨by simp [hi], (hf a).trans ha, fun j b hj hb => ?_⟩
  rw [List.getElem?_modify_ne _ _ (by omega)] at hb
  exact hbefore j b hj hb

theorem effects_in_plan (cr : Crypto) (op : Op) (r : Registry) {e : Effect}
    (he : e ∈ effects op (r.exec cr op).1 r.data) : ∃ d, plan cr op r.data = some d ∧ e.In d := by
  cases op with
  | load err => simp [effects] at he
  | authorizeDevice now o pub => simp [effects] at he
  | bootstrap now o token pub label =>
    cases hr : redeemable now token r.data with
    | none =>
      obtain ⟨-, herr, hstatus⟩ := bootstrap_refused cr now o token pub label r hr
      simp [exec, effects, herr, hstatus] at he
    | some p =>
      obtain ⟨i, found⟩ := p
      obtain ⟨hi, -, htok⟩ := redeemable_spec hr
      have he' : e = .deviceRegistered pub ∨ e = .usesAtLeast token (found.uses + 1) := by
        simp only [exec, bootstrap_redeemed cr now o token pub label r hr] at he
        cases o with
        | ok => simpa [effects, hr] using he
        | _ => simp [effects, save] at he
      refine ⟨_, congrArg (Option.map _) hr, ?_⟩
      rcases he' with rfl | rfl
      · exact ⟨newDevice cr now pub label, by simp, rfl⟩
      · refine ⟨{ found with uses := found.uses + 1 }, ?_, htok, Int.le_refl _⟩
        exact List.mem_of_getElem? (i := i) (by simp [hi])
  | createInvite now o draw label maxUses ttl =>
    cases draw with
    | error err => simp [effects, exec, createInvite] at he
    | ok tok =>
      have he' : e = .inviteCreated (newInvite cr now tok.val label maxUses ttl) := by
        cases o with
        | ok => simpa [effects, exec, createInvite] using he
        | _ => simp [effects, exec, createInvite, save] at he
      subst he'
      exact ⟨_, rfl, _, by simp, InviteRecord.le_refl _⟩
  | revokeInvite o tokenID =>
    cases hm : firstMatch (fun inv : InviteRecord => inv.tokenID == tokenID || tokenID.isPrefixOf inv.tokenID)
        r.data.invites with
    | none => simp [exec, revokeInvite, effects, hm] at he
    | some p =>
      obtain ⟨i, inv⟩ := p
      have he' : e = .inviteRevoked tokenID := by
        simp only [exec, revokeInvite, hm] at he
        cases o with
        | ok => simpa [effects] using he
        | _ => simp [effects, save] at he
      subst he'
      exact ⟨_, congrArg (Option.map _) hm, i, _, modify_firstMatch _ (fun _ => rfl) hm, rfl⟩
  | revokeDevice o deviceID =>
    cases hm : firstMatch (fun x : Device => x.deviceID == deviceID) r.data.devices with
    | none => simp [exec, revokeDevice, effects, hm] at he
    | some p =>
      obtain ⟨i, x⟩ := p
      have he' : e = .deviceRevoked deviceID := by
        simp only [exec, revokeDevice, hm] at he
        cases o with
        | ok => simpa [effects] using he
        | _ => simp [effects, save] at he
      subst he'
      exact ⟨_, congrArg (Option.map _) hm, i, _, modify_firstMatch _ (fun _ => rfl) hm, rfl⟩

/-! ## Runs of up-to-date copies -/

/-- A call that saves is made on a copy that already holds everything the file holds. -/
def UpToDate (cr : Crypto) (s : Shared) : SharedAct → Prop
  | .start _ => True
  | .call i op => ∀ r, s.inst i = some r → plan cr op r.data ≠ none →
      ∀ d, Registry.load none s.disk = .ok d → Extends d r.data

theorem exec_disk (cr : Crypto) (op : Op) (r : Registry) (hsave : op.saveOutcome = .ok) :
    (r.exec cr op).2.disk =
      match plan cr op r.data with
      | none => r.disk
      | some d => { r.disk with file := some (.json (jsonImage d)), tmp := none } := by
  have hcases := exec_cases cr op r
  generalize (r.exec cr op).2 = r' at hcases ⊢
  cases hcases with
  | kept hp => rw [hp]
  | reloaded d' hp _ => rw [hp]
  | planned d hp => simp [hp, hsave]

def FileHas (base : StoreData) (s : Shared) : Prop :=
  ∃ d, Registry.load none s.disk = .ok d ∧ Extends base d

theorem shared_call {cr : Crypto} {s s' : Shared} {i : Nat} {op : Op}
    (h : Shared.step cr s (.call i op) = some s') :
    ∃ r, s.inst i = some r ∧ r.disk = s.disk ∧ s'.disk = (r.exec cr op).2.disk := by
  simp only [Shared.step, Option.map_eq_some_iff] at h
  obtain ⟨r, hr, rfl⟩ := h
  refine ⟨r, hr, ?_, rfl⟩
  simp only [Shared.inst, Option.map_eq_some_iff] at hr
  obtain ⟨d, -, rfl⟩ := hr
  rfl

theorem fileHas_step {cr : Crypto} (base : StoreData) (s : Shared) (a : SharedAct) (s' : Shared)
    (h : FileHas base s) (hgood : SavesOk a ∧ UpToDate cr s a) (hstep : Shared.step cr s a = some s') :
    FileHas base s' := by
  obtain ⟨d, hload, hext⟩ := h
  cases a with
  | start e =>
    simp only [Shared.step] at hstep
    split at hstep <;> (obtain rfl := Option.some.inj hstep; exact ⟨d, hload, hext⟩)
  | call i op =>
    obtain ⟨r, hr, hdisk, hdisk'⟩ := shared_call hstep
    rw [exec_disk cr op r hgood.1, hdisk] at hdisk'
    cases hp : plan cr op r.data with
    | none =>
      simp only [hp] at hdisk'
      exact ⟨d, hdisk' ▸ hload, hext⟩
    | some d' =>
      -- The new file is the plan, and the copy it came from held the old file.
      simp only [hp] at hdisk'
      have hcopy := hgood.2 r hr (by rw [hp]; simp) d hload
      refine ⟨jsonImage d', by rw [hdisk']; rfl, ?_⟩
      exact extends_trans hext (extends_trans hcopy (extends_trans (plan_extends hp) (extends_jsonImage d')))

theorem effects_in_file {cr : Crypto} {s s' : Shared} {a : SharedAct} (hsave : SavesOk a)
    (hstep : Shared.step cr s a = some s') {e : Effect} (he : e ∈ s.effects cr a) :
    ∃ d, Registry.load none s'.disk = .ok d ∧ e.In d := by
  cases a with
  | start err => simp [Shared.effects] at he
  | call i op =>
    obtain ⟨r, hr, hdisk, hdisk'⟩ := shared_call hstep
    simp only [Shared.effects, hr] at he
    obtain ⟨d, hp, hin⟩ := effects_in_plan cr op r he
    rw [exec_disk cr op r hsave, hp] at hdisk'
    exact ⟨jsonImage d, by rw [hdisk']; rfl, effect_extends (extends_jsonImage d) hin⟩

/-- **No lost update**, where each saving call is made on a copy that holds all of the file. -/
theorem no_lost_update_when_up_to_date (cr : Crypto) (s : Shared) (run : List SharedAct)
    (hgood : AllSteps (Shared.step cr) (fun s a => SavesOk a ∧ UpToDate cr s a) s run) :
    NoLostUpdate cr s run := by
  rintro pre a post s₁ s₂ s₃ rfl hpre ha hpost e he
  obtain ⟨-, hrest⟩ := allSteps_append s s₁ pre (a :: post) hgood hpre
  obtain ⟨⟨hsave, -⟩, hrest⟩ := hrest
  obtain ⟨d, hload, hin⟩ := effects_in_file hsave ha he
  obtain ⟨d', hload', hext⟩ := run_invariant_when (fileHas_step d) post s₂ s₃
    ⟨d, hload, extends_refl d⟩ (hrest s₂ ha) hpost
  exact ⟨d', hload', effect_extends hext hin⟩

theorem no_lost_update_in_turn :
    let create (n : UInt8) : Op := .createInvite 0 .ok (.ok ⟨List.replicate 32 n, by simp⟩) [] 1 0
    NoLostUpdate hashCrypto {} [.start none, .call 0 (create 1), .start none, .call 1 (create 2)] := by
  intro create
  refine no_lost_update_when_up_to_date hashCrypto {} _ ⟨⟨trivial, trivial⟩, fun s hs => ?_⟩
  obtain rfl := Option.some.inj hs
  refine ⟨⟨rfl, fun r hr _ d hd => ?_⟩, fun s hs => ?_⟩
  · obtain rfl := Option.some.inj hr
    obtain rfl := Except.ok.inj hd
    exact extends_refl _
  obtain rfl := Option.some.inj hs
  refine ⟨⟨trivial, trivial⟩, fun s hs => ?_⟩
  obtain rfl := Option.some.inj hs
  refine ⟨⟨rfl, fun r hr _ d hd => ?_⟩, fun _ _ => trivial⟩
  obtain rfl := Option.some.inj hr
  obtain rfl := Except.ok.inj hd
  exact extends_refl _

/-- The server has a device, a CLI process revokes it, and a login writes the server's copy back. -/
theorem login_undoes_revocation :
    let tok : ByteArr 32 := ⟨List.replicate 32 7, rfl⟩
    let pub : Bytes := List.replicate 32 1
    let run : List SharedAct := [.start none, .call 0 (.createInvite 0 .ok (.ok tok) [] 1 0),
      .call 0 (.bootstrap 0 .ok tok.val pub []), .start none,
      .call 1 (.revokeDevice .ok (shortDeviceID hashCrypto pub)), .call 0 (.authorizeDevice 1 .ok pub)]
    (∀ a ∈ run, SavesOk a) ∧ ¬ NoLostUpdate hashCrypto {} run := by
  intro tok pub run
  refine ⟨by simp [run, SavesOk, Op.saveOutcome], fun h => ?_⟩
  let pre : List SharedAct := [.start none, .call 0 (.createInvite 0 .ok (.ok tok) [] 1 0),
    .call 0 (.bootstrap 0 .ok tok.val pub []), .start none]
  let revoke : SharedAct := .call 1 (.revokeDevice .ok (shortDeviceID hashCrypto pub))
  let login : SharedAct := .call 0 (.authorizeDevice 1 .ok pub)
  have heffects : (Lib.Machine.run (Shared.step hashCrypto) {} pre).map (·.effects hashCrypto revoke) =
      some [.deviceRevoked (shortDeviceID hashCrypto pub)] := by decide +kernel
  have hfile : ((Lib.Machine.run (Shared.step hashCrypto) {} (pre ++ revoke :: [login])).bind fun s =>
      (Registry.load none s.disk).toOption).map (·.devices.map (·.revoked)) = some [false] := by
    decide +kernel
  obtain ⟨s₁, hs₁, he⟩ := Option.map_eq_some_iff.mp heffects
  obtain ⟨d, hd, hrevoked⟩ := Option.map_eq_some_iff.mp hfile
  obtain ⟨s₃, hs₃, hd⟩ := Option.bind_eq_some_iff.mp hd
  rw [run_append, hs₁, Option.bind_some, run_cons, Option.bind_eq_some_iff] at hs₃
  obtain ⟨s₂, hs₂, hs₃⟩ := hs₃
  obtain ⟨d', hd', i, x, hx, hxr⟩ := h pre revoke [login] s₁ s₂ s₃ rfl hs₁ hs₂ hs₃
    (.deviceRevoked (shortDeviceID hashCrypto pub)) (by rw [he]; simp)
  obtain rfl : d' = d := by simpa [hd', Except.toOption] using hd
  have hmem : true ∈ d'.devices.map (·.revoked) :=
    List.mem_map.mpr ⟨x, List.mem_of_getElem? (firstMatch_getElem hx), hxr⟩
  rw [hrevoked] at hmem
  simp at hmem

end Daxson.Registry
