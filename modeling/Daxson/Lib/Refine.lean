import Mathlib.Tactic

/-! # Refinement

A program refines a specification when each trace of calls and replies is a run of it.
-/

namespace Lib.Refine

variable {σ τ α ο : Type}

/-- The calls with their replies. -/
def trace (step : σ → α → ο × σ) : σ → List α → List (α × ο)
  | _, [] => []
  | s, a :: as => (a, (step s a).1) :: trace step (step s a).2 as

/-- A run of a specification. -/
inductive Runs (spec : τ → α → ο → τ → Prop) : τ → List (α × ο) → τ → Prop where
  | nil (t : τ) : Runs spec t [] t
  | cons {t t' t'' : τ} {a : α} {o : ο} {rest : List (α × ο)} (hstep : spec t a o t') (hrest : Runs spec t' rest t'') :
      Runs spec t ((a, o) :: rest) t''

/-- Where each step keeps `R`, which may speak about the calls to come, every trace is a run of the specification. -/
theorem exists_runs {step : σ → α → ο × σ} {spec : τ → α → ο → τ → Prop} {R : List α → σ → τ → Prop}
    (hstep : ∀ a as s t, R (a :: as) s t → ∃ t', spec t a (step s a).1 t' ∧ R as (step s a).2 t')
    (as : List α) (s : σ) (t : τ) (h : R as s t) :
    ∃ t', Runs spec t (trace step s as) t' ∧ R [] (as.foldl (fun s a => (step s a).2) s) t' := by
  induction as generalizing s t with
  | nil => exact ⟨t, .nil t, h⟩
  | cons a as ih =>
    obtain ⟨t', hspec, hR⟩ := hstep a as s t h
    obtain ⟨t'', hruns, hend⟩ := ih _ t' hR
    exact ⟨t'', .cons hspec hruns, hend⟩

theorem Runs.invariant {spec : τ → α → ο → τ → Prop} {good : α → Prop} {P : τ → Prop}
    (hstep : ∀ t a o t', good a → spec t a o t' → P t → P t') {t t' : τ} {io : List (α × ο)}
    (hruns : Runs spec t io t') (hgood : ∀ x ∈ io, good x.1) (h : P t) : P t' := by
  induction hruns with
  | nil => exact h
  | cons hspec _ ih =>
    apply ih fun x hx => hgood x (List.mem_cons_of_mem _ hx)
    exact hstep _ _ _ _ (hgood _ List.mem_cons_self) hspec h

theorem fst_mem_of_trace {step : σ → α → ο × σ} {as : List α} {s : σ} {x : α × ο} (h : x ∈ trace step s as) :
    x.1 ∈ as := by
  induction as generalizing s with
  | nil => cases h
  | cons a as ih =>
    rcases List.mem_cons.mp h with rfl | h
    · exact List.mem_cons_self
    · exact List.mem_cons_of_mem a (ih h)

/-- What every good call keeps holds at the end, and what its reply then meets all replies meet. -/
theorem trace_invariant {step : σ → α → ο × σ} {good : α → Prop} {P : σ → Prop} {Q : ο → Prop}
    (hstep : ∀ s a, good a → P s → P (step s a).2 ∧ Q (step s a).1) (as : List α) (s : σ) (hgood : ∀ a ∈ as, good a)
    (h : P s) : P (as.foldl (fun s a => (step s a).2) s) ∧ ∀ x ∈ trace step s as, Q x.2 := by
  induction as generalizing s with
  | nil => exact ⟨h, by simp [trace]⟩
  | cons a as ih =>
    obtain ⟨hnext, hreply⟩ := hstep s a (hgood a List.mem_cons_self) h
    obtain ⟨hend, hreplies⟩ := ih _ (fun b hb => hgood b (List.mem_cons_of_mem _ hb)) hnext
    refine ⟨hend, fun x hx => ?_⟩
    rcases List.mem_cons.mp hx with rfl | hx
    · exact hreply
    · exact hreplies x hx

end Lib.Refine
