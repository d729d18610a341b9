import Daxson.Lib.Machine
import Daxson.Registry.Proofs

/-! # Crashes

`save` taken apart into its file-system steps. Only the rename touches the file.
-/

open Lib.Machine

namespace Daxson.Registry

inductive SaveStep where
  | mkdir
  | marshal
  | create
  | write
  | rename
  deriving DecidableEq, Repr

inductive Phase where
  | idle
  | saving (next : SaveStep)
  | down
  deriving DecidableEq, Repr

structure Process where
  data : StoreData := {}
  disk : Disk := {}
  phase : Phase := .down
  /-- The data at the last completed rename. -/
  renamed : Option StoreData := none
  deriving DecidableEq, Repr

inductive ProcessAct where
  /-- A call up to its `save`. -/
  | call (op : Op)
  | mkdir
  | marshal
  /-- `os.WriteFile` opens `path.tmp` and cuts what it held. -/
  | create
  /-- The first `n` bytes are in `path.tmp`. -/
  | write (n : Nat)
  | writeEnd
  | rename
  /-- The next step fails, and `save` returns its error. -/
  | fail
  | crash
  | load (readErr : Option SysError)

def Process.step (cr : Crypto) (p : Process) (a : ProcessAct) : Option Process :=
  match a with
  | .call op =>
    if p.phase = .idle then
      match plan cr op p.data with
      | none => some p
      | some d => some { p with data := d, phase := .saving .mkdir }
    else none
  | .mkdir => if p.phase = .saving .mkdir then some { p with phase := .saving .marshal } else none
  | .marshal => if p.phase = .saving .marshal then some { p with phase := .saving .create } else none
  | .create =>
    if p.phase = .saving .create then
      some { p with phase := .saving .write, disk := { p.disk with tmp := some (.torn (jsonImage p.data) 0) } }
    else none
  | .write n =>
    if p.phase = .saving .write then
      some { p with disk := { p.disk with tmp := some (.torn (jsonImage p.data) n) } }
    else none
  | .writeEnd =>
    if p.phase = .saving .write then
      some { p with phase := .saving .rename, disk := { p.disk with tmp := some (.json (jsonImage p.data)) } }
    else none
  | .rename =>
    if p.phase = .saving .rename then
      some { p with
        phase := .idle
        disk := { p.disk with file := p.disk.tmp, tmp := none }
        renamed := some p.data }
    else none
  | .fail => if p.phase = .idle ∨ p.phase = .down then none else some { p with phase := .idle }
  | .crash => if p.phase = .down then none else some { p with phase := .down, data := {} }
  | .load e =>
    if p.phase = .down then
      match Registry.load e p.disk with
      | .ok d => some { p with data := d, phase := .idle }
      | .error _ => some p
    else none

/-! ## Calls as runs -/

/-- The steps of a `save` with this outcome. -/
def SaveOutcome.acts : SaveOutcome → List ProcessAct
  | .ok => [.mkdir, .marshal, .create, .writeEnd, .rename]
  | .mkdirFails _ => [.fail]
  | .marshalFails _ => [.mkdir, .fail]
  | .writeFails n _ => [.mkdir, .marshal, .create, .write n, .fail]
  | .renameFails _ => [.mkdir, .marshal, .create, .writeEnd, .fail]

theorem save_run (cr : Crypto) (o : SaveOutcome) (r : Registry) (renamed : Option StoreData) :
    run (Process.step cr) ⟨r.data, r.disk, .saving .mkdir, renamed⟩ o.acts =
      some ⟨r.data, (save o r).2.disk, .idle, if o = .ok then some r.data else renamed⟩ := by
  cases o <;> simp [SaveOutcome.acts, Process.step, save]

/-- Every call is a run of its steps. -/
theorem exec_run (cr : Crypto) (op : Op) (r : Registry) (hop : ∀ e, op ≠ .load e) (renamed : Option StoreData) :
    ∃ acts renamed', run (Process.step cr) ⟨r.data, r.disk, .idle, renamed⟩ (.call op :: acts) =
      some ⟨(r.exec cr op).2.data, (r.exec cr op).2.disk, .idle, renamed'⟩ := by
  rw [exec_eq_plan cr op r hop]
  cases hp : plan cr op r.data with
  | none => exact ⟨[], renamed, by simp [Process.step, hp]⟩
  | some d =>
    refine ⟨op.saveOutcome.acts, if op.saveOutcome = .ok then some d else renamed, ?_⟩
    simp only [run_cons, Process.step, hp, if_true, Option.bind_some, save_data]
    exact save_run cr op.saveOutcome { r with data := d } renamed

/-! ## Labels

JSON gives back what was stored when every label is valid UTF-8.
-/

def ValidLabels (d : StoreData) : Prop :=
  (∀ x ∈ d.devices, jsonString x.label = x.label) ∧ ∀ x ∈ d.invites, jsonString x.label = x.label

theorem jsonImage_valid {d : StoreData} (h : ValidLabels d) : jsonImage d = d := by
  obtain ⟨devices, invites⟩ := d
  unfold jsonImage
  congr 1
  · conv_rhs => rw [← List.map_id devices]
    apply List.map_congr_left
    intro x hx
    rw [h.1 x hx]
    rfl
  · conv_rhs => rw [← List.map_id invites]
    apply List.map_congr_left
    intro x hx
    rw [h.2 x hx]
    rfl

/-- The label that the caller passes is valid UTF-8. -/
def Op.validLabel : Op → Prop
  | .bootstrap _ _ _ _ label => jsonString label = label
  | .createInvite _ _ _ label _ _ => jsonString label = label
  | _ => True

theorem newDevice_label (cr : Crypto) (now : Time) (pub label : Bytes) (h : jsonString label = label) :
    jsonString (newDevice cr now pub label).label = (newDevice cr now pub label).label := by
  have hdefault : ∀ b ∈ ascii "device-", b < 0x80 := by decide +kernel
  unfold newDevice
  dsimp only
  split
  · apply jsonString_ascii
    intro b hb
    rcases List.mem_append.mp hb with hb | hb
    · exact hdefault b hb
    · exact hexEncode_ascii _ b hb
  · exact h

theorem validLabels_plan {cr : Crypto} {op : Op} {d d' : StoreData} (hop : op.validLabel)
    (hp : plan cr op d = some d') (h : ValidLabels d) : ValidLabels d' := by
  obtain ⟨hdev, hinv⟩ := plan_entries hp
  constructor
  · intro x hx
    rcases hdev x hx with hnew | ⟨y, hy, -, -, hlabel⟩
    · cases op with
      | bootstrap now o token pub label =>
        simp only [Op.device, Option.some.injEq] at hnew
        exact hnew ▸ newDevice_label cr now pub label hop
      | _ => cases hnew
    · rw [hlabel]
      exact h.1 y hy
  · intro x hx
    rcases hinv x hx with hnew | ⟨y, hy, hlabel⟩
    · cases op with
      | createInvite now o draw label maxUses ttl =>
        cases draw with
        | error e => cases hnew
        | ok tok =>
          simp only [Op.invite, Option.some.injEq] at hnew
          exact hnew ▸ hop
      | _ => cases hnew
    · rw [hlabel]
      exact h.2 y hy

/-! ## The invariant -/

structure Consistent (p : Process) : Prop where
  file : p.disk.file = p.renamed.map .json
  labels : ValidLabels p.data
  renamedLabels : ∀ d, p.renamed = some d → ValidLabels d
  tmp : p.phase = .saving .rename → p.disk.tmp = some (.json p.data)

def ProcessAct.validLabel : ProcessAct → Prop
  | .call op => op.validLabel
  | _ => True

theorem validLabels_empty : ValidLabels {} := ⟨by simp, by simp⟩

theorem consistent_load {p : Process} (h : Consistent p) (left : Option FileContent) :
    Registry.load none { p.disk with tmp := left } = .ok (p.renamed.getD {}) := by
  unfold Registry.load
  rw [h.file]
  cases p.renamed <;> rfl

theorem consistent_step {cr : Crypto} {p : Process} {a : ProcessAct} {p' : Process} (h : Consistent p)
    (ha : a.validLabel) (hs : p.step cr a = some p') : Consistent p' := by
  unfold Process.step at hs
  cases a with
  | call op =>
    dsimp only at hs
    split at hs
    · cases hp : plan cr op p.data with
      | none =>
        rw [hp, Option.some.injEq] at hs
        exact hs ▸ h
      | some d =>
        rw [hp, Option.some.injEq] at hs
        subst hs
        exact ⟨h.file, validLabels_plan ha hp h.labels, h.renamedLabels, by simp⟩
    · cases hs
  | mkdir =>
    simp only [Option.ite_none_right_eq_some, Option.some.injEq] at hs
    obtain ⟨-, rfl⟩ := hs
    exact ⟨h.file, h.labels, h.renamedLabels, by simp⟩
  | marshal =>
    simp only [Option.ite_none_right_eq_some, Option.some.injEq] at hs
    obtain ⟨-, rfl⟩ := hs
    exact ⟨h.file, h.labels, h.renamedLabels, by simp⟩
  | create =>
    simp only [Option.ite_none_right_eq_some, Option.some.injEq] at hs
    obtain ⟨-, rfl⟩ := hs
    exact ⟨h.file, h.labels, h.renamedLabels, by simp⟩
  | write n =>
    simp only [Option.ite_none_right_eq_some, Option.some.injEq] at hs
    obtain ⟨hw, rfl⟩ := hs
    exact ⟨h.file, h.labels, h.renamedLabels, by simp [hw]⟩
  | writeEnd =>
    simp only [Option.ite_none_right_eq_some, Option.some.injEq] at hs
    obtain ⟨-, rfl⟩ := hs
    exact ⟨h.file, h.labels, h.renamedLabels, fun _ => by simp [jsonImage_valid h.labels]⟩
  | rename =>
    simp only [Option.ite_none_right_eq_some, Option.some.injEq] at hs
    obtain ⟨hr, rfl⟩ := hs
    refine ⟨h.tmp hr, h.labels, fun d hd => ?_, by simp⟩
    simp only [Option.some.injEq] at hd
    exact hd ▸ h.labels
  | fail =>
    simp only [Option.ite_none_left_eq_some, Option.some.injEq] at hs
    obtain ⟨-, rfl⟩ := hs
    exact ⟨h.file, h.labels, h.renamedLabels, by simp⟩
  | crash =>
    simp only [Option.ite_none_left_eq_some, Option.some.injEq] at hs
    obtain ⟨-, rfl⟩ := hs
    exact ⟨h.file, validLabels_empty, h.renamedLabels, by simp⟩
  | load e =>
    dsimp only at hs
    split at hs
    · cases hl : Registry.load e p.disk with
      | error err =>
        rw [hl, Option.some.injEq] at hs
        exact hs ▸ h
      | ok d =>
        rw [hl, Option.some.injEq] at hs
        subst hs
        refine ⟨h.file, ?_, h.renamedLabels, by simp⟩
        -- What is read back was renamed before, or the file was never there.
        have hd : Except.ok d = Except.ok (p.renamed.getD {}) :=
          (load_ok_none hl).symm.trans (consistent_load h p.disk.tmp)
        simp only [Except.ok.injEq] at hd
        cases hren : p.renamed with
        | none => simpa [hd, hren] using validLabels_empty
        | some d' => simpa [hd, hren] using h.renamedLabels d' hren
    · cases hs

/-- **Crashes.** `Load` gives the data of the last completed rename, whatever `path.tmp` holds. -/
theorem crash_consistent (cr : Crypto) (path : Bytes) (tmp : Option FileContent) (acts : List ProcessAct)
    (hlabels : ∀ a ∈ acts, a.validLabel) (p : Process)
    (hrun : run (Process.step cr) { disk := { path := path, tmp := tmp } } acts = some p)
    (left : Option FileContent) :
    Registry.load none { p.disk with tmp := left } = .ok (p.renamed.getD {}) := by
  have hinit : Consistent { disk := { path := path, tmp := tmp } } :=
    ⟨rfl, validLabels_empty, by simp, by simp⟩
  have hall : AllSteps (Process.step cr) (fun _ a => a.validLabel) _ acts :=
    allSteps_of_mem acts { disk := { path := path, tmp := tmp } } hlabels
  exact consistent_load (run_invariant_when (fun _ _ _ h ha hs => consistent_step h ha hs) acts _ p hinit hall hrun)
    left

theorem crash_consistent_mid_write :
    let tok : ByteArr 32 := ⟨List.replicate 32 7, rfl⟩
    let acts : List ProcessAct := [.load none, .call (.createInvite 0 .ok (.ok tok) (ascii "lab") 5 0), .mkdir,
      .marshal, .create, .writeEnd, .rename, .call (.bootstrap 0 .ok tok.val (List.replicate 32 1) []), .mkdir,
      .marshal, .create, .write 40, .crash]
    ∃ p, run (Process.step hashCrypto) { disk := { path := [], tmp := none } } acts = some p ∧
      p.phase = .down ∧ (p.renamed.map fun d => (d.devices.length, d.invites.length)) = some (0, 1) ∧
      ∀ left, Registry.load none { p.disk with tmp := left } = .ok (p.renamed.getD {}) := by
  intro tok acts
  have hrun : ((run (Process.step hashCrypto) { disk := { path := [], tmp := none } } acts).map fun p =>
      (p.phase, p.renamed.map fun d => (d.devices.length, d.invites.length))) = some (.down, some (0, 1)) := by
    decide +kernel
  obtain ⟨p, hp, heq⟩ := Option.map_eq_some_iff.mp hrun
  simp only [Prod.mk.injEq] at heq
  have hlabels : ∀ a ∈ acts, a.validLabel := by
    simp [acts, ProcessAct.validLabel, Op.validLabel]
    decide
  exact ⟨p, hp, heq.1, heq.2, crash_consistent hashCrypto [] none acts hlabels p hp⟩

end Daxson.Registry
