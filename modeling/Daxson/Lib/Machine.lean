import Mathlib.Tactic

/-! # Machines and their runs

A machine is a partial step function. The rules below are the only inductions over runs.
-/

namespace Lib.Machine

variable {σ α : Type}

/-- The state after the actions, or `none` when one of them is not enabled. -/
def run (step : σ → α → Option σ) : σ → List α → Option σ
  | s, [] => some s
  | s, a :: as => (step s a).bind fun s' => run step s' as

/-- Every action of the run meets `good` in the state it is taken in. -/
def AllSteps (step : σ → α → Option σ) (good : σ → α → Prop) : σ → List α → Prop
  | _, [] => True
  | s, a :: as => good s a ∧ ∀ s', step s a = some s' → AllSteps step good s' as

variable {step : σ → α → Option σ} {good : σ → α → Prop}

@[simp] theorem run_nil (s : σ) : run step s [] = some s := rfl

@[simp] theorem run_cons (s : σ) (a : α) (as : List α) :
    run step s (a :: as) = (step s a).bind fun s' => run step s' as := rfl

theorem run_append (s : σ) (as bs : List α) :
    run step s (as ++ bs) = (run step s as).bind fun s' => run step s' bs := by
  induction as generalizing s with
  | nil => rfl
  | cons a as ih =>
    simp only [List.cons_append, run_cons, Option.bind_assoc]
    exact congrArg _ (funext ih)

theorem run_invariant_when {P : σ → Prop}
    (hstep : ∀ s a s', P s → good s a → step s a = some s' → P s') :
    ∀ (as : List α) (s t : σ), P s → AllSteps step good s as → run step s as = some t → P t := by
  intro as
  induction as with
  | nil =>
    intro s t hs _ hrun
    rw [run_nil, Option.some.injEq] at hrun
    exact hrun ▸ hs
  | cons a as ih =>
    intro s t hs hgood hrun
    obtain ⟨hga, hrest⟩ := hgood
    rw [run_cons, Option.bind_eq_some_iff] at hrun
    obtain ⟨s', hs', hrun⟩ := hrun
    exact ih s' t (hstep s a s' hs hga hs') (hrest s' hs') hrun

theorem allSteps_of_forall (h : ∀ s a, good s a) (as : List α) (s : σ) : AllSteps step good s as := by
  induction as generalizing s with
  | nil => trivial
  | cons a as ih => exact ⟨h s a, fun s' _ => ih s'⟩

theorem run_invariant {P : σ → Prop} (hstep : ∀ s a s', P s → step s a = some s' → P s')
    (as : List α) (s t : σ) (hs : P s) (hrun : run step s as = some t) : P t :=
  have hall : AllSteps step (fun _ _ => True) s as := allSteps_of_forall (fun _ _ => trivial) as s
  run_invariant_when (fun s a s' h _ => hstep s a s' h) as s t hs hall hrun

theorem allSteps_of_mem {p : α → Prop} (as : List α) (s : σ) (h : ∀ a ∈ as, p a) :
    AllSteps step (fun _ a => p a) s as := by
  induction as generalizing s with
  | nil => trivial
  | cons a as ih =>
    exact ⟨h a (by simp), fun s' _ => ih s' (fun b hb => h b (by simp [hb]))⟩

theorem allSteps_of_invariant {I : σ → Prop} {p : α → Prop}
    (hstep : ∀ s a s', I s → p a → step s a = some s' → I s') (hgood : ∀ s a, I s → p a → good s a)
    (as : List α) (s : σ) (hs : I s) (has : ∀ a ∈ as, p a) : AllSteps step good s as := by
  induction as generalizing s with
  | nil => trivial
  | cons a as ih =>
    have ha := has a (by simp)
    refine ⟨hgood s a hs ha, fun s' hs' => ?_⟩
    exact ih s' (hstep s a s' hs ha hs') fun b hb => has b (by simp [hb])

/-- A property that a step leaves true exactly when it is good is true exactly after good runs. -/
theorem run_iff_allSteps_of {I P : σ → Prop} (hkeep : ∀ s a s', I s → step s a = some s' → I s')
    (hstep : ∀ s a s', I s → step s a = some s' → (P s' ↔ P s ∧ good s a)) (as : List α) (s t : σ) (hs : I s)
    (hrun : run step s as = some t) : P t ↔ P s ∧ AllSteps step good s as := by
  induction as generalizing s with
  | nil =>
    rw [run_nil, Option.some.injEq] at hrun
    simp [hrun, AllSteps]
  | cons a as ih =>
    rw [run_cons, Option.bind_eq_some_iff] at hrun
    obtain ⟨s', hs', hrun⟩ := hrun
    rw [ih s' (hkeep s a s' hs hs') hrun, hstep s a s' hs hs']
    simp [AllSteps, hs', and_assoc]

theorem run_iff_allSteps {P : σ → Prop} (hstep : ∀ s a s', step s a = some s' → (P s' ↔ P s ∧ good s a))
    (as : List α) (s t : σ) (hrun : run step s as = some t) : P t ↔ P s ∧ AllSteps step good s as :=
  have hstep' : ∀ s a s', True → step s a = some s' → (P s' ↔ P s ∧ good s a) := fun s a s' _ => hstep s a s'
  run_iff_allSteps_of (fun _ _ _ _ _ => trivial) hstep' as s t trivial hrun

theorem allSteps_iff_of_invariant {I : σ → Prop} {good' : σ → α → Prop}
    (hkeep : ∀ s a s', I s → good s a → step s a = some s' → I s')
    (hiff : ∀ s a s', I s → step s a = some s' → (good s a ↔ good' s a))
    (as : List α) (s t : σ) (hs : I s) (hrun : run step s as = some t) :
    AllSteps step good s as ↔ AllSteps step good' s as := by
  induction as generalizing s with
  | nil => exact Iff.rfl
  | cons a as ih =>
    rw [run_cons, Option.bind_eq_some_iff] at hrun
    obtain ⟨s', hs', hrun⟩ := hrun
    simp only [AllSteps, hs', Option.some.injEq, forall_eq', ← hiff s a s' hs hs']
    apply and_congr_right
    intro hgood
    exact ih s' (hkeep s a s' hs hgood hs') hrun

/-- When every step has a run of another machine that keeps `R`, so has every run. -/
theorem run_simulation {τ β : Type} {step' : τ → β → Option τ} {R : σ → τ → Prop}
    (hstep : ∀ s a s' t, R s t → step s a = some s' → ∃ bs t', run step' t bs = some t' ∧ R s' t')
    (as : List α) (s s' : σ) (t : τ) (hR : R s t) (hrun : run step s as = some s') :
    ∃ bs t', run step' t bs = some t' ∧ R s' t' := by
  induction as generalizing s t with
  | nil =>
    rw [run_nil, Option.some.injEq] at hrun
    exact ⟨[], t, rfl, hrun ▸ hR⟩
  | cons a as ih =>
    rw [run_cons, Option.bind_eq_some_iff] at hrun
    obtain ⟨s₁, hs₁, hrun⟩ := hrun
    obtain ⟨bs₁, t₁, hbs₁, hR₁⟩ := hstep s a s₁ t hR hs₁
    obtain ⟨bs₂, t₂, hbs₂, hR₂⟩ := ih s₁ t₁ hR₁ hrun
    refine ⟨bs₁ ++ bs₂, t₂, ?_, hR₂⟩
    rw [run_append, hbs₁]
    exact hbs₂

/-- The number of actions that are `bad` in the state they are taken in. -/
def count (step : σ → α → Option σ) (bad : σ → α → Bool) : σ → List α → Nat
  | _, [] => 0
  | s, a :: as =>
    (if bad s a then 1 else 0) + match step s a with
      | none => 0
      | some s' => count step bad s' as

/-- A measure that only a bad action raises, by one, is bounded by their number. -/
theorem run_measure_le {P : σ → Prop} {f : σ → Nat} {bad : σ → α → Bool}
    (hstep : ∀ s a s', P s → step s a = some s' → P s' ∧ f s' ≤ f s + if bad s a then 1 else 0)
    (as : List α) (s t : σ) (hs : P s) (hrun : run step s as = some t) : f t ≤ f s + count step bad s as := by
  induction as generalizing s with
  | nil =>
    rw [run_nil, Option.some.injEq] at hrun
    rw [hrun]
    exact Nat.le_add_right _ _
  | cons a as ih =>
    rw [run_cons, Option.bind_eq_some_iff] at hrun
    obtain ⟨s', hs', hrun⟩ := hrun
    obtain ⟨hP, hf⟩ := hstep s a s' hs hs'
    have := ih s' hP hrun
    simp only [count, hs']
    omega

/-- The machine's own actions are at most the measure at the start and what the others have brought. -/
theorem run_own_le {m : σ → Int} {own : α → Bool} {brought : α → Nat}
    (hstep : ∀ s a s', step s a = some s' → m s' + (if own a then 1 else 0 : Nat) ≤ m s + brought a) (as : List α)
    (s t : σ) (hrun : run step s as = some t) : m t + as.countP own ≤ m s + (as.map brought).sum := by
  induction as generalizing s with
  | nil =>
    rw [run_nil, Option.some.injEq] at hrun
    rw [hrun]
    exact le_rfl
  | cons a as ih =>
    rw [run_cons, Option.bind_eq_some_iff] at hrun
    obtain ⟨s', hs', hrun⟩ := hrun
    have hfirst := hstep s a s' hs'
    have hrest := ih s' hrun
    rw [List.countP_cons, List.map_cons, List.sum_cons]
    omega

/-- A condition that can be evaluated can be evaluated along a run. -/
instance decidableAllSteps [∀ s a, Decidable (good s a)] : ∀ (s : σ) (as : List α), Decidable (AllSteps step good s as)
  | _, [] => .isTrue trivial
  | s, a :: as =>
    match hs : step s a with
    | none => decidable_of_iff (good s a) (by simp [AllSteps, hs])
    | some s' =>
      have := decidableAllSteps s' as
      decidable_of_iff (good s a ∧ AllSteps step good s' as) (by simp [AllSteps, hs])

theorem allSteps_append (s t : σ) (as bs : List α) (h : AllSteps step good s (as ++ bs))
    (hrun : run step s as = some t) : AllSteps step good s as ∧ AllSteps step good t bs := by
  induction as generalizing s with
  | nil =>
    rw [run_nil, Option.some.injEq] at hrun
    exact ⟨trivial, hrun ▸ h⟩
  | cons a as ih =>
    rw [run_cons, Option.bind_eq_some_iff] at hrun
    obtain ⟨s', hs', hrun⟩ := hrun
    obtain ⟨hga, hrest⟩ := h
    refine ⟨⟨hga, fun s'' hs'' => ?_⟩, (ih s' (hrest s' hs') hrun).2⟩
    obtain rfl : s' = s'' := Option.some.inj (hs'.symm.trans hs'')
    exact (ih s' (hrest s' hs') hrun).1

end Lib.Machine
