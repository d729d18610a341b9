import Mathlib.Tactic

/-! # Lists that only grow

No entry moves or goes away, so a search for the first match keeps finding the same entry.
-/

namespace Lib.Grow

variable {α : Type} {R : α → α → Prop}

def firstMatch (p : α → Bool) : List α → Option (Nat × α)
  | [] => none
  | a :: l => if p a then some (0, a) else (firstMatch p l).map fun (i, x) => (i + 1, x)

/-- Every entry of `l` is still in `l'`, at its index, and `R` says how it may have changed. -/
def Grows (R : α → α → Prop) (l l' : List α) : Prop :=
  ∀ (i : Nat) (a : α), l[i]? = some a → ∃ b, l'[i]? = some b ∧ R a b

theorem firstMatch_eq_some_iff (p : α → Bool) (l : List α) (i : Nat) (a : α) :
    firstMatch p l = some (i, a) ↔
      l[i]? = some a ∧ p a = true ∧ ∀ (j : Nat) (b : α), j < i → l[j]? = some b → p b = false := by
  induction l generalizing i with
  | nil => simp [firstMatch]
  | cons x l ih =>
    unfold firstMatch
    split
    · rename_i hx
      constructor
      · intro h
        simp only [Option.some.injEq, Prod.mk.injEq] at h
        obtain ⟨rfl, rfl⟩ := h
        exact ⟨rfl, hx, fun j b hj => absurd hj (Nat.not_lt_zero j)⟩
      · rintro ⟨hi, -, hbefore⟩
        cases i with
        | zero => simpa using hi
        | succ i =>
          have := hbefore 0 x (by omega) rfl
          rw [hx] at this
          cases this
    · rename_i hx
      cases i with
      | zero =>
        constructor
        · intro h
          obtain ⟨y, -, hy⟩ := Option.map_eq_some_iff.mp h
          simp at hy
        · rintro ⟨hi, ha, -⟩
          simp only [List.getElem?_cons_zero, Option.some.injEq] at hi
          exact absurd (hi ▸ ha) hx
      | succ i =>
        have hmap : ((firstMatch p l).map fun (i, x) => (i + 1, x)) = some (i + 1, a) ↔
            firstMatch p l = some (i, a) := by
          cases firstMatch p l with
          | none => simp
          | some y => obtain ⟨k, y⟩ := y; simp
        rw [hmap, ih]
        constructor
        · rintro ⟨hi, ha, hbefore⟩
          refine ⟨by simpa using hi, ha, fun j b hj hb => ?_⟩
          cases j with
          | zero =>
            simp only [List.getElem?_cons_zero, Option.some.injEq] at hb
            exact hb ▸ (Bool.not_eq_true _ ▸ hx : p x = false)
          | succ j => exact hbefore j b (by omega) (by simpa using hb)
        · rintro ⟨hi, ha, hbefore⟩
          exact ⟨by simpa using hi, ha, fun j b hj hb => hbefore (j + 1) b (by omega) (by simpa using hb)⟩

theorem firstMatch_getElem {p : α → Bool} {l : List α} {i : Nat} {a : α}
    (h : firstMatch p l = some (i, a)) : l[i]? = some a :=
  ((firstMatch_eq_some_iff p l i a).mp h).1

theorem firstMatch_pos {p : α → Bool} {l : List α} {i : Nat} {a : α}
    (h : firstMatch p l = some (i, a)) : p a = true :=
  ((firstMatch_eq_some_iff p l i a).mp h).2.1

theorem firstMatch_eq_none_iff (p : α → Bool) (l : List α) :
    firstMatch p l = none ↔ ∀ a ∈ l, p a = false := by
  induction l with
  | nil => simp [firstMatch]
  | cons x l ih =>
    unfold firstMatch
    cases hx : p x <;> simp [hx, ih]

theorem firstMatch_append_singleton (p : α → Bool) (l : List α) (a : α) (ha : p a = true) :
    firstMatch p (l ++ [a]) = some ((firstMatch p l).getD (l.length, a)) := by
  induction l with
  | nil => simp [firstMatch, ha]
  | cons x l ih =>
    simp only [List.cons_append, firstMatch, ih]
    cases p x with
    | true => simp
    | false => cases firstMatch p l <;> simp

theorem mem_modify (R : α → α → Prop) {f : α → α} {l : List α} {i : Nat} {a : α} (h : a ∈ l.modify i f)
    (hsame : ∀ a, R a a) (hf : ∀ a, R (f a) a) : ∃ b ∈ l, R a b := by
  obtain ⟨j, hj, rfl⟩ := List.getElem_of_mem h
  rw [List.getElem_modify]
  rw [List.length_modify] at hj
  refine ⟨l[j], List.getElem_mem hj, ?_⟩
  split
  · exact hf _
  · exact hsame _

theorem map_modify {β : Type} (key : α → β) (f : α → α) (hf : ∀ a, key (f a) = key a) (l : List α) (i : Nat) :
    (l.modify i f).map key = l.map key := by
  apply List.ext_getElem
  · simp
  · intro j hj _
    simp only [List.getElem_map, List.getElem_modify]
    split
    · exact hf _
    · rfl

theorem modify_eq_map {β : Type} [DecidableEq β] (key : α → β) {l : List α} (hnodup : (l.map key).Nodup) {i : Nat}
    {a : α} (h : l[i]? = some a) (f : α → α) :
    l.modify i f = l.map fun b => if key b = key a then f b else b := by
  obtain ⟨hi, rfl⟩ := List.getElem?_eq_some_iff.mp h
  apply List.ext_getElem
  · simp
  · intro j hj _
    rw [List.length_modify] at hj
    rw [List.getElem_modify, List.getElem_map]
    have hkey : key l[j] = key l[i] ↔ i = j := by
      have hi' : i < (l.map key).length := by simpa using hi
      have hj' : j < (l.map key).length := by simpa using hj
      have hinj : (l.map key)[j] = (l.map key)[i] ↔ j = i := hnodup.getElem_inj_iff
      rw [List.getElem_map, List.getElem_map] at hinj
      rw [hinj, eq_comm]
    simp only [hkey]

theorem firstMatch_modify (p : α → Bool) (f : α → α) (hf : ∀ a, p (f a) = p a) (l : List α) (i : Nat) :
    firstMatch p (l.modify i f) =
      (firstMatch p l).map fun (j, a) => (j, if j = i then f a else a) := by
  induction l generalizing i with
  | nil => simp [firstMatch]
  | cons x l ih =>
    cases i with
    | zero =>
      simp only [List.modify_zero_cons, firstMatch, hf]
      cases p x <;> simp [Function.comp_def]
    | succ i =>
      simp only [List.modify_succ_cons, firstMatch, ih]
      cases p x <;> simp [Function.comp_def]

/-- An entry that no longer matches might as well be gone. -/
theorem firstMatch_modify_eraseIdx (p : α → Bool) (f : α → α) (hf : ∀ a, p (f a) = false) (l : List α)
    (i : Nat) : (firstMatch p (l.modify i f)).map Prod.snd = (firstMatch p (l.eraseIdx i)).map Prod.snd := by
  induction l generalizing i with
  | nil => simp [firstMatch]
  | cons x l ih =>
    cases i with
    | zero => simp [firstMatch, hf, Function.comp_def]
    | succ i =>
      have := ih i
      simp only [List.modify_succ_cons, List.eraseIdx_cons_succ, firstMatch]
      cases p x <;> simp_all [Function.comp_def]

theorem grows_refl (hR : ∀ a, R a a) (l : List α) : Grows R l l := fun _ a h => ⟨a, h, hR a⟩

theorem grows_trans (hR : ∀ a b c, R a b → R b c → R a c) {l m n : List α} (h1 : Grows R l m)
    (h2 : Grows R m n) : Grows R l n := by
  intro i a ha
  obtain ⟨b, hb, hab⟩ := h1 i a ha
  obtain ⟨c, hc, hbc⟩ := h2 i b hb
  exact ⟨c, hc, hR a b c hab hbc⟩

theorem grows_append (hR : ∀ a, R a a) (l m : List α) : Grows R l (l ++ m) := by
  intro i a ha
  have hi : i < l.length := (List.getElem?_eq_some_iff.mp ha).1
  exact ⟨a, by rw [List.getElem?_append_left hi]; exact ha, hR a⟩

theorem grows_modify (hR : ∀ a, R a a) (l : List α) (i : Nat) (f : α → α)
    (hf : ∀ a, l[i]? = some a → R a (f a)) : Grows R l (l.modify i f) := by
  intro j a ha
  rw [List.getElem?_modify, ha]
  by_cases hij : i = j
  · subst hij
    exact ⟨f a, by simp, hf a ha⟩
  · exact ⟨a, by simp [hij], hR a⟩

theorem grows_map (l : List α) (f : α → α) (hf : ∀ a, R a (f a)) : Grows R l (l.map f) := by
  intro i a ha
  exact ⟨f a, by simp [ha], hf a⟩

theorem grows_mem {l l' : List α} (h : Grows R l l') {a : α} (ha : a ∈ l) : ∃ b ∈ l', R a b := by
  obtain ⟨i, hi, rfl⟩ := List.getElem_of_mem ha
  obtain ⟨b, hb, hR⟩ := h i l[i] (List.getElem?_eq_getElem hi)
  exact ⟨b, List.mem_of_getElem? hb, hR⟩

/-- The first match stays the first match as long as `R` keeps the property. -/
theorem firstMatch_grows {p : α → Bool} (hp : ∀ a b, R a b → p a = p b) {l l' : List α}
    (h : Grows R l l') {i : Nat} {a : α} (hm : firstMatch p l = some (i, a)) :
    ∃ b, firstMatch p l' = some (i, b) ∧ R a b := by
  obtain ⟨hi, ha, hbefore⟩ := (firstMatch_eq_some_iff p l i a).mp hm
  obtain ⟨b, hb, hR⟩ := h i a hi
  refine ⟨b, (firstMatch_eq_some_iff p l' i b).mpr ⟨hb, hp a b hR ▸ ha, fun j y hj hy => ?_⟩, hR⟩
  have hjl : j < l.length := lt_trans hj (List.getElem?_eq_some_iff.mp hi).1
  obtain ⟨x, hx, hxy⟩ := h j l[j] (List.getElem?_eq_getElem hjl)
  obtain rfl : y = x := Option.some.inj (hy.symm.trans hx)
  rw [← hp _ _ hxy]
  exact hbefore j l[j] hj (List.getElem?_eq_getElem hjl)

end Lib.Grow
