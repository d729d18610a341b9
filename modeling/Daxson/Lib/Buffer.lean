import Mathlib.Tactic

/-! # Buffers that are used again

A copy into a part of a buffer fails when the part is out of range.
-/

namespace Lib.Buffer

variable {α : Type}

/-- `b` is copied into `buf[lo:hi]`, and the copy stops at `hi`. -/
def copyTo (buf : List α) (lo hi : Nat) (b : List α) : Option (List α) :=
  if lo ≤ hi ∧ hi ≤ buf.length then
    some (buf.take lo ++ (b.take (hi - lo) ++ (buf.drop lo).drop (min b.length (hi - lo))))
  else none

theorem copyTo_append (filled old b : List α) {lo hi : Nat} (hlo : lo = filled.length)
    (hb : lo + b.length ≤ hi) (hhi : hi ≤ lo + old.length) :
    copyTo (filled ++ old) lo hi b = some ((filled ++ b) ++ old.drop b.length) := by
  subst hlo
  unfold copyTo
  rw [if_pos ⟨by omega, by rw [List.length_append]; exact hhi⟩, List.take_left, List.drop_left,
    List.take_of_length_le (by omega), Nat.min_eq_left (by omega), List.append_assoc]

/-- The copies of a list of parts, each with the range it is copied to. -/
def copyAll (buf : List α) : List (Nat × Nat × List α) → Option (List α)
  | [] => some buf
  | (lo, hi, part) :: parts => (copyTo buf lo hi part).bind fun buf => copyAll buf parts

/-- The parts lie side by side up to the end `n`. -/
def Tiles (n : Nat) : Nat → List (Nat × Nat × List α) → Prop
  | start, [] => start = n
  | start, (lo, hi, part) :: parts =>
    lo = start ∧ lo + part.length ≤ hi ∧ hi ≤ n ∧ Tiles n (lo + part.length) parts

theorem copyAll_append {n : Nat} (parts : List (Nat × Nat × List α)) (filled old : List α)
    (htiles : Tiles n filled.length parts) (hlen : filled.length + old.length = n) :
    copyAll (filled ++ old) parts = some (filled ++ (parts.map (·.2.2)).flatten) := by
  induction parts generalizing filled old with
  | nil =>
    -- No place is left behind the parts.
    have hold : old = [] := List.length_eq_zero_iff.mp (by simp only [Tiles] at htiles; omega)
    simp [copyAll, hold]
  | cons p parts ih =>
    obtain ⟨lo, hi, part⟩ := p
    obtain ⟨hlo, hpart, hhi, hrest⟩ := htiles
    have hstep := copyTo_append filled old part hlo hpart (by omega)
    have hnext := ih (filled ++ part) (old.drop part.length)
      (by rw [List.length_append, ← hlo]; exact hrest)
      (by rw [List.length_append, List.length_drop]; omega)
    rw [copyAll, hstep, Option.bind_some, hnext, List.map_cons, List.flatten_cons, List.append_assoc]

theorem copyAll_eq {n : Nat} (parts : List (Nat × Nat × List α)) (buf : List α) (hlen : buf.length = n)
    (htiles : Tiles n 0 parts) : copyAll buf parts = some (parts.map (·.2.2)).flatten := by
  apply copyAll_append parts [] buf htiles
  rw [List.length_nil, Nat.zero_add, hlen]

end Lib.Buffer
