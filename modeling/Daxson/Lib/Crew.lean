import Daxson.Lib.Machine

/-! # Crews

Workers that share a state, in any interleaving. The main party may take on a worker.
-/

open Lib.Machine

namespace Lib.Crew

variable {σ ω α β κ : Type}

structure Team (σ ω : Type) where
  shared : σ
  workers : List ω := []

inductive Turn (β α : Type) where
  | main (b : β)
  | work (i : Nat) (a : α)
  deriving DecidableEq, Repr

variable (main : σ → β → Option (σ × Option ω)) (work : σ → ω → α → Option (σ × ω))

def step (c : Team σ ω) : Turn β α → Option (Team σ ω)
  | .main b => (main c.shared b).map fun (s, hired) => ⟨s, c.workers ++ hired.toList⟩
  | .work i a => (c.workers[i]?).bind fun w => (work c.shared w a).map fun (s, w') => ⟨s, c.workers.set i w'⟩

/-- What a step can do. -/
inductive Stepped (c : Team σ ω) : Turn β α → Team σ ω → Prop where
  | main (b : β) (s : σ) (hired : Option ω) (h : main c.shared b = some (s, hired)) :
      Stepped c (.main b) ⟨s, c.workers ++ hired.toList⟩
  | work (i : Nat) (a : α) (w w' : ω) (s : σ) (hi : c.workers[i]? = some w) (h : work c.shared w a = some (s, w')) :
      Stepped c (.work i a) ⟨s, c.workers.set i w'⟩

variable {main work}

theorem step_inv {c c' : Team σ ω} {a : Turn β α} (h : step main work c a = some c') : Stepped main work c a c' := by
  cases a with
  | main b =>
    obtain ⟨⟨s, hired⟩, hmain, rfl⟩ := Option.map_eq_some_iff.mp h
    exact .main b s hired hmain
  | work i a =>
    obtain ⟨w, hi, hw⟩ := Option.bind_eq_some_iff.mp h
    obtain ⟨⟨s, w'⟩, hwork, rfl⟩ := Option.map_eq_some_iff.mp hw
    exact .work i a w w' s hi hwork

/-! ## The shared state and every worker -/

/-- A property of the shared state and one of each worker, kept by what one party does alone. -/
theorem run_each {S : σ → Prop} {P : σ → ω → Prop}
    (hmain : ∀ s b s' hired, S s → main s b = some (s', hired) →
      S s' ∧ (∀ w ∈ hired, P s' w) ∧ ∀ v, P s v → P s' v)
    (hwork : ∀ s w a s' w', S s → P s w → work s w a = some (s', w') → S s' ∧ P s' w' ∧ ∀ v, P s v → P s' v)
    (as : List (Turn β α)) (c c' : Team σ ω) (hc : S c.shared ∧ ∀ w ∈ c.workers, P c.shared w)
    (hrun : run (step main work) c as = some c') : S c'.shared ∧ ∀ w ∈ c'.workers, P c'.shared w := by
  refine run_invariant (P := fun c => S c.shared ∧ ∀ w ∈ c.workers, P c.shared w) ?_ as c c' hc hrun
  rintro c a c' ⟨hs, hws⟩ hstep
  cases step_inv hstep with
  | main b s hired h =>
    obtain ⟨hs', hnew, hold⟩ := hmain _ _ _ _ hs h
    refine ⟨hs', fun w hw => ?_⟩
    rcases List.mem_append.mp hw with hw | hw
    · exact hold w (hws w hw)
    · exact hnew w (Option.mem_toList.mp hw)
  | work i a w w' s hi h =>
    obtain ⟨hs', hw', hold⟩ := hwork _ _ _ _ _ hs (hws w (List.mem_of_getElem? hi)) h
    refine ⟨hs', fun x hx => ?_⟩
    rcases List.mem_or_eq_of_mem_set hx with hx | rfl
    · exact hold x (hws x hx)
    · exact hw'

/-! ## Gauges -/

theorem countP_set_add {p : ω → Bool} {l : List ω} {i : Nat} {old : ω} (h : l[i]? = some old) (new : ω) :
    (l.set i new).countP p + (if p old then 1 else 0) = l.countP p + if p new then 1 else 0 := by
  obtain ⟨hi, rfl⟩ := List.getElem?_eq_some_iff.mp h
  rw [List.countP_set hi]
  have hold : (if p l[i] = true then 1 else 0) ≤ l.countP p := by
    split_ifs with hp
    · exact List.countP_pos_iff.mpr ⟨l[i], List.getElem_mem hi, hp⟩
    · exact Nat.zero_le _
  omega

/-- A gauge that each worker moves by its own part counts the workers. -/
theorem run_gauge_when {S : σ → Prop} {f : σ → Int} {p : ω → Bool}
    (hmain : ∀ s b s' hired, S s → main s b = some (s', hired) → S s' ∧ f s' = f s + (hired.toList.countP p : Int))
    (hwork : ∀ s w a s' w', S s → work s w a = some (s', w') →
      S s' ∧ f s' + (if p w then 1 else 0) = f s + if p w' then 1 else 0)
    (as : List (Turn β α)) (c c' : Team σ ω) (hS : S c.shared) (hc : f c.shared = c.workers.countP p)
    (hrun : run (step main work) c as = some c') : f c'.shared = c'.workers.countP p := by
  refine (run_invariant (P := fun c => S c.shared ∧ f c.shared = c.workers.countP p) ?_ as c c' ⟨hS, hc⟩ hrun).2
  rintro c a c' ⟨hS, hf⟩ hstep
  cases step_inv hstep with
  | main b s hired h =>
    obtain ⟨hS', hmoved⟩ := hmain _ _ _ _ hS h
    refine ⟨hS', ?_⟩
    dsimp only
    rw [List.countP_append]
    omega
  | work i a w w' s hi h =>
    obtain ⟨hS', hmoved⟩ := hwork _ _ _ _ _ hS h
    have hcount := countP_set_add (p := p) hi w'
    refine ⟨hS', ?_⟩
    dsimp only
    split_ifs at hmoved hcount <;> omega

theorem run_gauge {f : σ → Int} {p : ω → Bool}
    (hmain : ∀ s b s' hired, main s b = some (s', hired) → f s' = f s + (hired.toList.countP p : Int))
    (hwork : ∀ s w a s' w', work s w a = some (s', w') →
      f s' + (if p w then 1 else 0) = f s + if p w' then 1 else 0)
    (as : List (Turn β α)) (c c' : Team σ ω) (hc : f c.shared = c.workers.countP p)
    (hrun : run (step main work) c as = some c') : f c'.shared = c'.workers.countP p :=
  run_gauge_when (S := fun _ => True) (fun _ _ _ _ _ h => ⟨trivial, hmain _ _ _ _ h⟩)
    (fun _ _ _ _ _ _ h => ⟨trivial, hwork _ _ _ _ _ h⟩) as c c' trivial hc hrun

/-! ## Tags -/

/-- The workers' tags are different, and the table has them and no others. -/
structure Tagged (tag : ω → Option κ) (table : σ → κ → Prop) (c : Team σ ω) : Prop where
  distinct : ∀ (i j : Nat) (w v : ω) (k : κ), c.workers[i]? = some w → c.workers[j]? = some v → tag w = some k →
    tag v = some k → i = j
  exact : ∀ k, table c.shared k ↔ ∃ (i : Nat) (w : ω), c.workers[i]? = some w ∧ tag w = some k

/-- How a worker's step may change its tag and the table: not at all, or by a tag that is free, or by giving
its tag back. -/
inductive Retag (before after : κ → Prop) : Option κ → Option κ → Prop where
  | same (t : Option κ) (h : ∀ k, after k ↔ before k) : Retag before after t t
  | take (k : κ) (hfree : ¬ before k) (h : ∀ k', after k' ↔ k' = k ∨ before k') : Retag before after none (some k)
  | drop (k : κ) (h : ∀ k', after k' ↔ k' ≠ k ∧ before k') : Retag before after (some k) none

theorem tagged_hire {tag : ω → Option κ} {table : σ → κ → Prop} {c : Team σ ω} (h : Tagged tag table c) {s : σ}
    {hired : Option ω} (htag : ∀ w ∈ hired, tag w = none) (htable : ∀ k, table s k ↔ table c.shared k) :
    Tagged tag table ⟨s, c.workers ++ hired.toList⟩ := by
  have hold : ∀ (i : Nat) (w : ω) (k : κ), (c.workers ++ hired.toList)[i]? = some w → tag w = some k →
      c.workers[i]? = some w := by
    intro i w k hi hk
    by_cases hlt : i < c.workers.length
    · rwa [List.getElem?_append_left hlt] at hi
    · rw [List.getElem?_append_right (by omega)] at hi
      have hnone := htag w (Option.mem_toList.mp (List.mem_of_getElem? hi))
      rw [hnone] at hk
      cases hk
  refine ⟨fun i j w v k hi hj hw hv => ?_, fun k => ?_⟩
  · exact h.distinct i j w v k (hold i w k hi hw) (hold j v k hj hv) hw hv
  · rw [htable, h.exact]
    constructor
    · rintro ⟨i, w, hi, hk⟩
      refine ⟨i, w, ?_, hk⟩
      rw [List.getElem?_append_left (List.getElem?_eq_some_iff.mp hi).1]
      exact hi
    · rintro ⟨i, w, hi, hk⟩
      exact ⟨i, w, hold i w k hi hk, hk⟩

/-- A worker other than `i` has the tag. -/
def Elsewhere (tag : ω → Option κ) (workers : List ω) (i : Nat) (k : κ) : Prop :=
  ∃ (j : Nat) (v : ω), j ≠ i ∧ workers[j]? = some v ∧ tag v = some k

theorem elsewhere_set {tag : ω → Option κ} {workers : List ω} {i : Nat} (w : ω) (k : κ) :
    Elsewhere tag (workers.set i w) i k ↔ Elsewhere tag workers i k := by
  constructor
  · rintro ⟨j, v, hne, hj, hk⟩
    rw [List.getElem?_set_ne hne.symm] at hj
    exact ⟨j, v, hne, hj, hk⟩
  · rintro ⟨j, v, hne, hj, hk⟩
    rw [← List.getElem?_set_ne hne.symm (a := w)] at hj
    exact ⟨j, v, hne, hj, hk⟩

theorem some_tagged_iff {tag : ω → Option κ} {workers : List ω} {i : Nat} {w : ω} (hi : workers[i]? = some w) (k : κ) :
    (∃ (j : Nat) (v : ω), workers[j]? = some v ∧ tag v = some k) ↔ tag w = some k ∨ Elsewhere tag workers i k := by
  constructor
  · rintro ⟨j, v, hj, hk⟩
    by_cases hji : j = i
    · subst hji
      obtain rfl : w = v := Option.some.inj (hi.symm.trans hj)
      exact .inl hk
    · exact .inr ⟨j, v, hji, hj, hk⟩
  · rintro (hk | ⟨j, v, -, hj, hk⟩)
    · exact ⟨i, w, hi, hk⟩
    · exact ⟨j, v, hj, hk⟩

theorem Tagged.alone {tag : ω → Option κ} {table : σ → κ → Prop} {c : Team σ ω} (h : Tagged tag table c) {i : Nat}
    {w : ω} (hi : c.workers[i]? = some w) {k : κ} (hk : tag w = some k) : ¬ Elsewhere tag c.workers i k := by
  rintro ⟨j, v, hne, hj, hv⟩
  exact hne (h.distinct j i v w k hj hi hv hk)

theorem tagged_set {tag : ω → Option κ} {table : σ → κ → Prop} {c : Team σ ω} (h : Tagged tag table c) {s : σ}
    {i : Nat} {w w' : ω} (hi : c.workers[i]? = some w)
    (halone : ∀ k, tag w' = some k → ¬ Elsewhere tag c.workers i k)
    (htable : ∀ k, table s k ↔ tag w' = some k ∨ Elsewhere tag c.workers i k) :
    Tagged tag table ⟨s, c.workers.set i w'⟩ := by
  have hi' : (c.workers.set i w')[i]? = some w' :=
    List.getElem?_set_self (List.getElem?_eq_some_iff.mp hi).1
  refine ⟨fun j l x y k hj hl hx hy => ?_, fun k => ?_⟩
  · -- Of two workers with one tag neither is the new one, unless both are.
    by_cases hji : j = i <;> by_cases hli : l = i
    · rw [hji, hli]
    · subst hji
      obtain rfl : w' = x := Option.some.inj (hi'.symm.trans hj)
      exact absurd ((elsewhere_set w' k).mp ⟨l, y, hli, hl, hy⟩) (halone k hx)
    · subst hli
      obtain rfl : w' = y := Option.some.inj (hi'.symm.trans hl)
      exact absurd ((elsewhere_set w' k).mp ⟨j, x, hji, hj, hx⟩) (halone k hy)
    · rw [List.getElem?_set_ne (Ne.symm hji)] at hj
      rw [List.getElem?_set_ne (Ne.symm hli)] at hl
      exact h.distinct j l x y k hj hl hx hy
  · rw [some_tagged_iff hi', elsewhere_set]
    exact htable k

theorem tagged_move {tag : ω → Option κ} {table : σ → κ → Prop} {c : Team σ ω} (h : Tagged tag table c) {s : σ}
    {i : Nat} {w w' : ω} (hi : c.workers[i]? = some w)
    (hre : Retag (table c.shared) (table s) (tag w) (tag w')) : Tagged tag table ⟨s, c.workers.set i w'⟩ := by
  have hbefore : ∀ k, table c.shared k ↔ tag w = some k ∨ Elsewhere tag c.workers i k := fun k =>
    (h.exact k).trans (some_tagged_iff hi k)
  have halone : ∀ k, tag w = some k → ¬ Elsewhere tag c.workers i k := fun k hk => h.alone hi hk
  apply tagged_set h hi
  · intro k hk hother
    generalize tag w = t at *
    generalize tag w' = t' at *
    cases hre with
    | same => exact halone k hk hother
    | take k₀ hfree =>
      obtain rfl := Option.some.inj hk
      exact hfree ((hbefore k₀).mpr (.inr hother))
    | drop => cases hk
  · intro k
    generalize tag w = t at *
    generalize tag w' = t' at *
    cases hre with
    | same _ hsame => rw [hsame, hbefore]
    | take k₀ hfree htable =>
      rw [htable, hbefore]
      simp [eq_comm]
    | drop k₀ htable =>
      rw [htable, hbefore]
      constructor
      · rintro ⟨hne, hk | hother⟩
        · exact absurd (Option.some.inj hk).symm hne
        · exact .inr hother
      · rintro (hk | hother)
        · cases hk
        · refine ⟨?_, .inr hother⟩
          rintro rfl
          exact halone k rfl hother

/-- When every step that takes a tag takes a free one, the table is exact in every run. -/
theorem run_tagged {S : σ → Prop} {tag : ω → Option κ} {table : σ → κ → Prop} {good : Team σ ω → Turn β α → Prop}
    (hshared : ∀ c a c', S c.shared → step main work c a = some c' → S c'.shared)
    (hmain : ∀ s b s' hired, S s → main s b = some (s', hired) →
      (∀ w ∈ hired, tag w = none) ∧ ∀ k, table s' k ↔ table s k)
    (hwork : ∀ c i a w s' w', S c.shared → Tagged tag table c → good c (.work i a) → c.workers[i]? = some w →
      work c.shared w a = some (s', w') → Retag (table c.shared) (table s') (tag w) (tag w'))
    (as : List (Turn β α)) (c c' : Team σ ω) (hS : S c.shared) (hc : Tagged tag table c)
    (hgood : AllSteps (step main work) good c as) (hrun : run (step main work) c as = some c') :
    Tagged tag table c' := by
  refine (run_invariant_when (P := fun c => S c.shared ∧ Tagged tag table c) ?_ as c c' ⟨hS, hc⟩ hgood hrun).2
  rintro c a c' ⟨hS, hc⟩ hga hstep
  refine ⟨hshared c a c' hS hstep, ?_⟩
  cases step_inv hstep with
  | main b s hired h =>
    obtain ⟨htag, htable⟩ := hmain _ _ _ _ hS h
    exact tagged_hire hc htag htable
  | work i a w w' s hi h => exact tagged_move hc hi (hwork c i a w s w' hS hc hga hi h)

theorem Tagged.perm {tag : ω → Option κ} {table : σ → κ → Prop} {c : Team σ ω} (h : Tagged tag table c)
    {keys : List κ} (hnodup : keys.Nodup) (hkeys : ∀ k, k ∈ keys ↔ table c.shared k) :
    keys.Perm (c.workers.filterMap tag) := by
  have htags : (c.workers.filterMap tag).Nodup := by
    rw [List.Nodup, List.pairwise_filterMap, List.pairwise_iff_getElem]
    intro i j hi hj hij k hk k' hk' heq
    subst heq
    have := h.distinct i j _ _ k (List.getElem?_eq_getElem hi) (List.getElem?_eq_getElem hj) hk hk'
    omega
  rw [List.perm_ext_iff_of_nodup hnodup htags]
  intro k
  rw [hkeys, h.exact, List.mem_filterMap]
  constructor
  · rintro ⟨i, w, hi, hk⟩
    exact ⟨w, List.mem_of_getElem? hi, hk⟩
  · rintro ⟨w, hw, hk⟩
    obtain ⟨i, hi⟩ := List.mem_iff_getElem?.mp hw
    exact ⟨i, w, hi, hk⟩

end Lib.Crew
