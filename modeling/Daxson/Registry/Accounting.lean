import Daxson.Registry.Proofs

/-! # Invite accounting

The books note, for every device entry, which invite its registration redeemed.
-/

open Lib.Grow

namespace Daxson.Registry

/-- A registry with the index of the redeemed invite for each device entry, in memory and on disk. -/
structure Books where
  reg : Registry := {}
  mem : List Nat := []
  file : List Nat := []

/-- The notes after a call that got as far as `save`. -/
def notes (op : Op) (b : Books) : List Nat :=
  match op with
  | .bootstrap now _ token _ _ =>
    match redeemable now token b.reg.data with
    | some (i, _) => b.mem ++ [i]
    | none => b.mem
  | _ => b.mem

def Books.exec (cr : Crypto) (op : Op) (b : Books) : Books where
  reg := (b.reg.exec cr op).2
  mem :=
    match op with
    | .load e => match Registry.load e b.reg.disk with
      | .ok _ => b.file
      | .error _ => b.mem
    | op => notes op b
  file :=
    match plan cr op b.reg.data, op.saveOutcome with
    | some _, .ok => notes op b
    | _, _ => b.file

def Books.execAll (cr : Crypto) (ops : List Op) (b : Books) : Books :=
  ops.foldl (fun b op => b.exec cr op) b

theorem books_reg (cr : Crypto) (ops : List Op) (b : Books) :
    (b.execAll cr ops).reg = b.reg.execAll cr ops := by
  induction ops generalizing b with
  | nil => rfl
  | cons op ops ih => exact ih (b.exec cr op)

def Account (notes : List Nat) (i : Nat) (inv : InviteRecord) : Prop :=
  inv.uses = notes.count i ∧ inv.uses ≤ max 1 inv.maxUses

/-- Every device entry has a note, every invite's account is right, and the uses add up. -/
structure Balanced (d : StoreData) (notes : List Nat) : Prop where
  noted : notes.length = d.devices.length
  known : ∀ i ∈ notes, i < d.invites.length
  account : ∀ i inv, d.invites[i]? = some inv → Account notes i inv
  total : (d.devices.length : Int) = (d.invites.map (·.uses)).sum

theorem sum_uses_modify (l : List InviteRecord) (i : Nat) (f : InviteRecord → InviteRecord) (c : Int)
    (hi : i < l.length) (hf : ∀ x, (f x).uses = x.uses + c) :
    ((l.modify i f).map (·.uses)).sum = (l.map (·.uses)).sum + c := by
  induction l generalizing i with
  | nil => simp at hi
  | cons a l ih =>
    cases i with
    | zero => simp only [List.modify_zero_cons, List.map_cons, List.sum_cons, hf]; ring
    | succ i =>
      have := ih i (by simpa using hi)
      simp only [List.modify_succ_cons, List.map_cons, List.sum_cons, this]
      ring

theorem balanced_nil : Balanced {} [] := ⟨rfl, by simp, by simp, rfl⟩

theorem balanced_jsonImage {d : StoreData} {t : List Nat} (h : Balanced d t) : Balanced (jsonImage d) t := by
  refine ⟨by simpa [jsonImage] using h.noted, by simpa [jsonImage] using h.known, ?_, ?_⟩
  · intro i inv hi
    simp only [jsonImage, List.getElem?_map, Option.map_eq_some_iff] at hi
    obtain ⟨inv', hi', rfl⟩ := hi
    exact h.account i inv' hi'
  · simpa [jsonImage, Function.comp_def] using h.total

theorem balanced_modify {d : StoreData} {t : List Nat} (h : Balanced d t) (i j : Nat)
    (f : Device → Device) (g : InviteRecord → InviteRecord)
    (hg : ∀ x, (g x).uses = x.uses ∧ (g x).maxUses = x.maxUses) :
    Balanced ⟨d.devices.modify i f, d.invites.modify j g⟩ t := by
  refine ⟨by simpa using h.noted, by simpa using h.known, ?_, ?_⟩
  · intro k inv hk
    rw [List.getElem?_modify] at hk
    obtain ⟨inv', hk', rfl⟩ := Option.map_eq_some_iff.mp hk
    have hacc := h.account k inv' hk'
    split_ifs
    · exact ⟨(hg inv').1.trans hacc.1, by rw [(hg inv').1, (hg inv').2]; exact hacc.2⟩
    · exact hacc
  · simpa [map_modify InviteRecord.uses _ fun x => (hg x).1] using h.total

theorem balanced_register {d : StoreData} {t : List Nat} (h : Balanced d t) {i : Nat} {inv : InviteRecord}
    (hi : d.invites[i]? = some inv) (hlimit : inv.uses < inv.limit) (x : Device) :
    Balanced ⟨d.devices ++ [x], d.invites.modify i fun inv => { inv with uses := inv.uses + 1 }⟩
      (t ++ [i]) := by
  have hlt : i < d.invites.length := (List.getElem?_eq_some_iff.mp hi).1
  refine ⟨by simp [h.noted], ?_, ?_, ?_⟩
  · intro k hk
    rcases List.mem_append.mp hk with hk | hk
    · simpa using h.known k hk
    · simp only [List.mem_singleton] at hk
      simpa [hk] using hlt
  · intro k inv' hk
    rw [List.getElem?_modify] at hk
    obtain ⟨inv₀, hk', rfl⟩ := Option.map_eq_some_iff.mp hk
    obtain ⟨hcount, hmax⟩ := h.account k inv₀ hk'
    by_cases hik : i = k
    · -- The redeemed invite: one more note, one more use.
      subst hik
      obtain rfl : inv₀ = inv := Option.some.inj (hk'.symm.trans hi)
      have hle := inv₀.limit_eq_max
      simp only [if_true, Account, List.count_append, List.count_singleton_self]
      push_cast
      omega
    · have hne : (i == k) = false := by simpa using hik
      simp only [hik, if_false, Account, List.count_append, List.count_singleton, hne,
        Bool.false_eq_true, Nat.add_zero]
      exact ⟨hcount, hmax⟩
  · rw [sum_uses_modify _ _ _ 1 hlt (fun _ => rfl), ← h.total]
    simp

theorem balanced_create {d : StoreData} {t : List Nat} (h : Balanced d t) (inv : InviteRecord)
    (huses : inv.uses = 0) : Balanced ⟨d.devices, d.invites ++ [inv]⟩ t := by
  refine ⟨h.noted, ?_, ?_, ?_⟩
  · intro i hi
    have := h.known i hi
    simp only [List.length_append, List.length_singleton]
    omega
  · intro i inv' hi
    rw [List.getElem?_append] at hi
    split_ifs at hi with hlt
    · exact h.account i inv' hi
    · -- The new invite: no note can name it yet.
      have hi0 : i - d.invites.length = 0 := by
        by_contra hne
        simp [hne] at hi
      have hnew : inv' = inv := by simpa [hi0] using hi.symm
      have hnone : t.count i = 0 := List.count_eq_zero.mpr fun hmem => hlt (h.known i hmem)
      subst hnew
      exact ⟨by rw [huses, hnone]; rfl, by rw [huses]; omega⟩
  · simpa [huses] using h.total

theorem plan_balanced {cr : Crypto} {op : Op} {b : Books} {d : StoreData}
    (hp : plan cr op b.reg.data = some d) (h : Balanced b.reg.data b.mem) : Balanced d (notes op b) := by
  have hsame : ∀ x : InviteRecord, (id x).uses = x.uses ∧ (id x).maxUses = x.maxUses := fun _ => ⟨rfl, rfl⟩
  cases plan_inv hp with
  | @authorizeDevice now o pub i x hm =>
    have := balanced_modify h i 0 (fun x => { x with lastSeenAt := now }) id hsame
    rw [List.modify_id] at this
    exact this
  | bootstrap hr =>
    obtain ⟨hi, hlimit, -⟩ := redeemable_spec hr
    simp only [notes, hr]
    exact balanced_register h hi hlimit _
  | createInvite => exact balanced_create h _ rfl
  | @revokeInvite o tokenID i found hm =>
    have := balanced_modify h 0 i id (fun inv => { inv with revoked := true }) (fun _ => ⟨rfl, rfl⟩)
    rw [List.modify_id] at this
    exact this
  | @revokeDevice o deviceID i x hm =>
    have := balanced_modify h i 0 (fun x => { x with revoked := true }) id hsame
    rw [List.modify_id] at this
    exact this

theorem notes_of_no_plan {cr : Crypto} {op : Op} {b : Books} (hp : plan cr op b.reg.data = none) :
    notes op b = b.mem := by
  cases op with
  | bootstrap now o token pub label =>
    simp only [plan, Option.map_eq_none_iff] at hp
    simp only [notes, hp]
  | _ => rfl

/-- Memory and file are balanced, and the file is a whole document. -/
def AllBalanced (b : Books) : Prop :=
  Balanced b.reg.data b.mem ∧ ∃ d, Registry.load none b.reg.disk = .ok d ∧ Balanced d b.file

theorem allBalanced_exec (cr : Crypto) (op : Op) (b : Books) (h : AllBalanced b) :
    AllBalanced (b.exec cr op) := by
  obtain ⟨hmem, d, hload, hfile⟩ := h
  by_cases hop : ∃ e, op = .load e
  · obtain ⟨e, rfl⟩ := hop
    cases hl : Registry.load e b.reg.disk with
    | error err =>
      simp only [AllBalanced, Books.exec, hl, exec_load_error cr e b.reg hl, plan]
      exact ⟨hmem, d, hload, hfile⟩
    | ok d' =>
      obtain rfl : d' = d := by simpa [load_ok_none hl] using hload
      simp only [AllBalanced, Books.exec, hl, exec_load_ok cr e b.reg hl, plan]
      exact ⟨hfile, d', hload, hfile⟩
  · have hnl : ∀ e, op ≠ .load e := fun e he => hop ⟨e, he⟩
    have hnotes : (b.exec cr op).mem = notes op b := by
      cases op with
      | load e => exact absurd rfl (hnl e)
      | _ => rfl
    have hreg : (b.exec cr op).reg = (b.reg.exec cr op).2 := rfl
    rw [exec_eq_plan cr op b.reg hnl] at hreg
    cases hp : plan cr op b.reg.data with
    | none =>
      simp only [hp] at hreg
      have hf : (b.exec cr op).file = b.file := by simp only [Books.exec, hp]
      rw [AllBalanced, hreg, hnotes, notes_of_no_plan hp, hf]
      exact ⟨hmem, d, hload, hfile⟩
    | some d' =>
      simp only [hp] at hreg
      have hbal := plan_balanced hp hmem
      rw [AllBalanced, hreg, hnotes, save_data]
      refine ⟨hbal, ?_⟩
      by_cases hok : op.saveOutcome = .ok
      · have hf : (b.exec cr op).file = notes op b := by simp only [Books.exec, hp, hok]
        rw [hf, hok, save_ok]
        exact ⟨jsonImage d', rfl, balanced_jsonImage hbal⟩
      · have hf : (b.exec cr op).file = b.file := by
          simp only [Books.exec, hp]
          split
          · rename_i heq; exact absurd heq hok
          · rfl
        rw [hf]
        refine ⟨d, ?_, hfile⟩
        rw [load_eq_ok_iff, save_failed_file _ _ hok, ← load_eq_ok_iff]
        exact hload

theorem allBalanced_execAll (cr : Crypto) (ops : List Op) (b : Books) (h : AllBalanced b) :
    AllBalanced (b.execAll cr ops) := by
  induction ops generalizing b with
  | nil => exact h
  | cons op ops ih => exact ih _ (allBalanced_exec cr op b h)

def InviteLaw (d : StoreData) (notes : List Nat) : Prop :=
  (∀ inv ∈ d.invites, 0 ≤ inv.uses ∧ inv.uses ≤ max 1 inv.maxUses) ∧
  (d.devices.length : Int) = (d.invites.map (·.uses)).sum ∧
  notes.length = d.devices.length ∧
  ∀ i inv, d.invites[i]? = some inv → (notes.count i : Int) ≤ max 1 inv.maxUses

theorem inviteLaw_of_balanced {d : StoreData} {t : List Nat} (h : Balanced d t) : InviteLaw d t := by
  refine ⟨?_, h.total, h.noted, ?_⟩
  · intro inv hinv
    obtain ⟨i, hi, rfl⟩ := List.getElem_of_mem hinv
    obtain ⟨hcount, hmax⟩ := h.account i d.invites[i] (List.getElem?_eq_getElem hi)
    exact ⟨by rw [hcount]; exact Int.natCast_nonneg _, hmax⟩
  · intro i inv hi
    obtain ⟨hcount, hmax⟩ := h.account i inv hi
    rw [← hcount]
    exact hmax

theorem invite_accounting (cr : Crypto) (path : Bytes) (ops : List Op) :
    let b := Books.execAll cr ops { reg := { disk := { path := path } } }
    b.reg = execAll cr ops { disk := { path := path } } ∧
    InviteLaw b.reg.data b.mem ∧
    ∃ d, Registry.load none b.reg.disk = .ok d ∧ InviteLaw d b.file := by
  obtain ⟨hmem, d, hload, hfile⟩ := allBalanced_execAll cr ops { reg := { disk := { path := path } } }
    ⟨balanced_nil, {}, rfl, balanced_nil⟩
  exact ⟨books_reg cr ops _, inviteLaw_of_balanced hmem, d, hload, inviteLaw_of_balanced hfile⟩

end Daxson.Registry
