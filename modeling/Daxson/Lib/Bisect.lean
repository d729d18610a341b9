import Mathlib.Tactic

/-! # Bisection

The search for the first index at which a test fails.
-/

namespace Lib.Bisect

def bisectLoop (below : Nat → Bool) : Nat → Nat → Nat → Nat
  | 0, lo, _ => lo
  | fuel + 1, lo, hi =>
    if lo < hi then
      let mid := (lo + hi) / 2
      if below mid then bisectLoop below fuel (mid + 1) hi else bisectLoop below fuel lo mid
    else lo

/-- Each round at least halves the range, so `hi - lo` rounds are enough. -/
def bisect (below : Nat → Bool) (lo hi : Nat) : Nat := bisectLoop below (hi - lo) lo hi

variable {below : Nat → Bool} {n : Nat}

theorem bisectLoop_spec (hmono : ∀ i j, i ≤ j → j < n → below j = true → below i = true) (fuel lo hi : Nat)
    (hfuel : hi - lo ≤ fuel) (hle : lo ≤ hi) (hn : hi ≤ n) :
    lo ≤ bisectLoop below fuel lo hi ∧ bisectLoop below fuel lo hi ≤ hi ∧
      (∀ i, lo ≤ i → i < bisectLoop below fuel lo hi → below i = true) ∧
      (bisectLoop below fuel lo hi < hi → below (bisectLoop below fuel lo hi) = false) := by
  induction fuel generalizing lo hi with
  | zero =>
    unfold bisectLoop
    refine ⟨le_rfl, hle, fun i h1 h2 => by omega, fun h => by omega⟩
  | succ fuel ih =>
    unfold bisectLoop
    split_ifs with hlt
    · dsimp only
      cases hmid : below ((lo + hi) / 2) with
      | true =>
        -- Everything up to the middle is below, so the first failure is behind it.
        obtain ⟨h1, h2, h3, h4⟩ := ih ((lo + hi) / 2 + 1) hi (by omega) (by omega) hn
        rw [if_pos rfl]
        refine ⟨by omega, h2, fun i hi1 hi2 => ?_, h4⟩
        by_cases hi' : (lo + hi) / 2 + 1 ≤ i
        · exact h3 i hi' hi2
        · exact hmono i ((lo + hi) / 2) (by omega) (by omega) hmid
      | false =>
        obtain ⟨h1, h2, h3, h4⟩ := ih lo ((lo + hi) / 2) (by omega) (by omega) (by omega)
        rw [if_neg (by simp)]
        refine ⟨h1, by omega, h3, fun _ => ?_⟩
        rcases Nat.lt_or_eq_of_le h2 with hr | hr
        · exact h4 hr
        · rw [hr]
          exact hmid
    · exact ⟨le_rfl, hle, fun i h1 h2 => by omega, fun h => absurd h hlt⟩

theorem bisect_eq (hmono : ∀ i j, i ≤ j → j < n → below j = true → below i = true) {k : Nat} (hk : k ≤ n)
    (hbefore : ∀ i, i < k → below i = true) (hat : k < n → below k = false) : bisect below 0 n = k := by
  obtain ⟨-, hle, htrue, hfalse⟩ := bisectLoop_spec hmono (n - 0) 0 n le_rfl (Nat.zero_le _) le_rfl
  unfold bisect
  rcases Nat.lt_trichotomy (bisectLoop below (n - 0) 0 n) k with h | h | h
  · have := hfalse (by omega)
    rw [hbefore _ h] at this
    cases this
  · exact h
  · have := htrue k (Nat.zero_le _) h
    rw [hat (by omega)] at this
    cases this

theorem bisect_le (hmono : ∀ i j, i ≤ j → j < n → below j = true → below i = true) : bisect below 0 n ≤ n :=
  (bisectLoop_spec hmono (n - 0) 0 n le_rfl (Nat.zero_le _) le_rfl).2.1

end Lib.Bisect
