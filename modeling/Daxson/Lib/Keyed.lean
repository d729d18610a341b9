import Daxson.Lib.Grow

/-! # A list as a table

The first entry with a key answers for it.
-/

open Lib.Grow

namespace Lib.Keyed

variable {α κ β : Type} {key : α → κ} {f : α → β}

theorem firstMatch_snd (p : α → Bool) (l : List α) : (firstMatch p l).map Prod.snd = l.find? p := by
  induction l with
  | nil => rfl
  | cons a l ih =>
    simp only [firstMatch, List.find?_cons]
    cases p a with
    | true => rfl
    | false => simpa [Function.comp_def] using ih

theorem first_of_nodup {l : List α} (hnodup : (l.map key).Nodup) {i : Nat} {a : α} (ha : l[i]? = some a) (j : Nat)
    (b : α) (hj : j < i) (hb : l[j]? = some b) : key b ≠ key a := by
  obtain ⟨hi, rfl⟩ := List.getElem?_eq_some_iff.mp ha
  obtain ⟨hj', rfl⟩ := List.getElem?_eq_some_iff.mp hb
  have hne := List.pairwise_iff_getElem.mp hnodup j i (by simpa using hj') (by simpa using hi) hj
  simpa using hne

variable [DecidableEq κ]

/-- What `f` reads in the first entry with the key. -/
def view (key : α → κ) (f : α → β) (l : List α) (k : κ) : Option β := (l.find? fun a => decide (key a = k)).map f

@[simp] theorem view_nil : view key f [] = fun _ => none := rfl

theorem view_cons (a : α) (l : List α) :
    view key f (a :: l) = Function.update (view key f l) (key a) (some (f a)) := by
  funext k
  unfold view Function.update
  rw [List.find?_cons]
  by_cases hk : key a = k
  · simp [hk]
  · simp [hk, Ne.symm hk]

theorem view_eq_none_iff {l : List α} {k : κ} : view key f l k = none ↔ ∀ a ∈ l, key a ≠ k := by
  simp [view]

theorem exists_of_view {l : List α} {k : κ} {b : β} (h : view key f l k = some b) : ∃ a ∈ l, key a = k ∧ f a = b := by
  obtain ⟨a, hfind, rfl⟩ := Option.map_eq_some_iff.mp h
  exact ⟨a, List.mem_of_find?_eq_some hfind, by simpa using List.find?_some hfind, rfl⟩

theorem view_append_singleton (l : List α) (a : α) :
    view key f (l ++ [a]) =
      Function.update (view key f l) (key a) (some ((view key f l (key a)).getD (f a))) := by
  induction l with
  | nil => exact view_cons a []
  | cons x l ih =>
    rw [List.cons_append, view_cons, view_cons, ih]
    by_cases hk : key x = key a
    · simp [hk]
    · rw [Function.update_of_ne (Ne.symm hk), Function.update_comm hk]

theorem view_map (g : α → α) (hkey : ∀ a, key (g a) = key a) (hf : ∀ a, f (g a) = f a) (l : List α) :
    view key f (l.map g) = view key f l := by
  induction l with
  | nil => rfl
  | cons a l ih => rw [List.map_cons, view_cons, view_cons, hkey, hf, ih]

theorem view_modify_same (g : α → α) (hkey : ∀ a, key (g a) = key a) (hf : ∀ a, f (g a) = f a) (l : List α) (i : Nat) :
    view key f (l.modify i g) = view key f l := by
  induction l generalizing i with
  | nil => simp
  | cons a l ih =>
    cases i with
    | zero => rw [List.modify_zero_cons, view_cons, view_cons, hkey, hf]
    | succ i => rw [List.modify_succ_cons, view_cons, view_cons, ih]

theorem view_modify_first (g : α → α) (hkey : ∀ a, key (g a) = key a) {l : List α} {i : Nat} {a : α}
    (ha : l[i]? = some a) (hfirst : ∀ (j : Nat) (b : α), j < i → l[j]? = some b → key b ≠ key a) :
    view key f (l.modify i g) = Function.update (view key f l) (key a) (some (f (g a))) := by
  induction l generalizing i with
  | nil => simp at ha
  | cons x l ih =>
    cases i with
    | zero =>
      obtain rfl : x = a := by simpa using ha
      rw [List.modify_zero_cons, view_cons, view_cons, hkey, Function.update_idem]
    | succ i =>
      have hx : key x ≠ key a := hfirst 0 x (by omega) rfl
      have hrest : view key f (l.modify i g) = Function.update (view key f l) (key a) (some (f (g a))) :=
        ih ha fun j b hj hb => hfirst (j + 1) b (by omega) hb
      rw [List.modify_succ_cons, view_cons, view_cons, hrest, Function.update_comm hx]

theorem view_of_first {l : List α} {i : Nat} {a : α} (ha : l[i]? = some a)
    (hfirst : ∀ (j : Nat) (b : α), j < i → l[j]? = some b → key b ≠ key a) : view key f l (key a) = some (f a) := by
  have hmatch : firstMatch (fun b => decide (key b = key a)) l = some (i, a) := by
    rw [firstMatch_eq_some_iff]
    exact ⟨ha, by simp, fun j b hj hb => by simpa using hfirst j b hj hb⟩
  unfold view
  rw [← firstMatch_snd, hmatch]
  rfl

end Lib.Keyed
