import Mathlib.Tactic

/-! # Readers that deliver in chunks

The result of `readFull` depends on the items alone, not on the chunks.
-/

namespace Lib

variable {α ε : Type}

/-- What a reader still has to give. An empty chunk is a read that returns nothing. -/
structure Reader (α ε : Type) where
  chunks : List (List α)
  /-- The error of every read after the last chunk. -/
  fin : ε
  /-- The last chunk comes together with `fin`. -/
  finWithLast : Bool := false
  deriving DecidableEq, Repr

namespace Reader

def content (r : Reader α ε) : List α := r.chunks.flatten

def prepend (l : List α) (r : Reader α ε) : Reader α ε := { r with chunks := l :: r.chunks }

/-- One read into a buffer of `n`: at most one chunk, cut to the buffer. -/
def read (r : Reader α ε) (n : Nat) : List α × Option ε × Reader α ε :=
  match r.chunks with
  | [] => ([], some r.fin, r)
  | c :: cs =>
    if n < c.length then (c.take n, none, { r with chunks := c.drop n :: cs })
    else (c, if cs.isEmpty && r.finWithLast then some r.fin else none, { r with chunks := cs })

/-- Reads until `n` items came or a read failed. A read that takes no whole chunk fills the buffer,
so `chunks.length + 2` rounds are enough. -/
def readLoop : Nat → Nat → Reader α ε → List α × Option ε × Reader α ε
  | 0, _, r => ([], none, r)
  | fuel + 1, n, r =>
    if n = 0 then ([], none, r)
    else
      match r.read n with
      | (got, some e, r') => (got, some e, r')
      | (got, none, r') =>
        let (more, err, r'') := readLoop fuel (n - got.length) r'
        (got ++ more, err, r'')

/-- The `n` items asked for, or how many came before the reader failed. -/
def readFull (n : Nat) (r : Reader α ε) : Except (Nat × ε) (List α) × Reader α ε :=
  let (got, err, r') := readLoop (r.chunks.length + 2) n r
  if got.length < n then (.error (got.length, err.getD r.fin), r') else (.ok got, r')

/-- The `n` items asked for, or any error of a read, also one that came with the last item. -/
def readAll (n : Nat) (r : Reader α ε) : Except ε (List α) × Reader α ε :=
  match readLoop (r.chunks.length + 2) n r with
  | (_, some e, r') => (.error e, r')
  | (got, none, r') => (.ok got, r')

@[simp] theorem content_prepend (l : List α) (r : Reader α ε) :
    (r.prepend l).content = l ++ r.content := rfl

/-! ## One round of the loop -/

section Round

variable {fuel n : Nat} {c : List α} {cs : List (List α)} {fin : ε} {last : Bool}

theorem readLoop_end (hn : n ≠ 0) :
    readLoop (fuel + 1) n (⟨[], fin, last⟩ : Reader α ε) = ([], some fin, ⟨[], fin, last⟩) := by
  unfold readLoop
  rw [if_neg hn]
  rfl

theorem readLoop_cut (h : n < c.length) :
    readLoop (fuel + 2) n ⟨c :: cs, fin, last⟩ = (c.take n, none, ⟨c.drop n :: cs, fin, last⟩) := by
  unfold readLoop
  split_ifs with hn
  · subst hn
    rfl
  · have hlen : n - (c.take n).length = 0 := by simp; omega
    simp only [read, h, if_true, hlen, readLoop, List.append_nil]

theorem readLoop_last (hn : n ≠ 0) (h : c.length ≤ n) :
    readLoop (fuel + 1) n ⟨[c], fin, true⟩ = (c, some fin, ⟨[], fin, true⟩) := by
  unfold readLoop
  rw [if_neg hn]
  simp [read, Nat.not_lt.mpr h]

theorem readLoop_whole (hn : n ≠ 0) (h : c.length ≤ n) (hmore : (cs.isEmpty && last) = false) :
    readLoop (fuel + 1) n ⟨c :: cs, fin, last⟩ =
      (c ++ (readLoop fuel (n - c.length) ⟨cs, fin, last⟩).1, (readLoop fuel (n - c.length) ⟨cs, fin, last⟩).2) := by
  rw [readLoop, if_neg hn]
  simp [read, Nat.not_lt.mpr h, hmore]

end Round

/-- What one loop owes its caller: the first items, the rest, and the error when it came short. -/
def LoopPost (n : Nat) (r : Reader α ε) (res : List α × Option ε × Reader α ε) : Prop :=
  res.1 = r.content.take n ∧ res.2.2.content = r.content.drop n ∧ res.2.2.fin = r.fin ∧
    (r.content.length < n → res.2.1 = some r.fin)

theorem readLoop_spec (fuel n : Nat) (r : Reader α ε) (h : r.chunks.length + 1 < fuel) :
    LoopPost n r (readLoop fuel n r) := by
  induction fuel generalizing n r with
  | zero => omega
  | succ fuel ih =>
    obtain ⟨chunks, fin, last⟩ := r
    by_cases hn : n = 0
    · subst hn
      simp [readLoop, LoopPost]
    cases chunks with
    | nil =>
      rw [readLoop_end hn]
      simp [LoopPost, content]
    | cons c cs =>
      simp only [List.length_cons] at h
      rcases Nat.lt_or_ge n c.length with hc | hc
      · obtain ⟨k, rfl⟩ : ∃ k, fuel = k + 1 := ⟨fuel - 1, by omega⟩
        rw [readLoop_cut hc]
        simp only [LoopPost, content, List.flatten_cons]
        refine ⟨?_, ?_, trivial, ?_⟩
        · rw [List.take_append_of_le_length (by omega)]
        · rw [List.drop_append_of_le_length (by omega)]
        · rw [List.length_append]
          omega
      · cases hmore : cs.isEmpty && last with
        | true =>
          simp only [Bool.and_eq_true, List.isEmpty_iff] at hmore
          obtain ⟨rfl, rfl⟩ := hmore
          rw [readLoop_last hn hc]
          simp only [LoopPost, content, List.flatten_cons, List.flatten_nil, List.append_nil]
          refine ⟨?_, ?_, trivial, fun _ => trivial⟩
          · rw [List.take_of_length_le hc]
          · rw [List.drop_of_length_le hc]
        | false =>
          rw [readLoop_whole hn hc hmore]
          obtain ⟨hgot, hrest, hfin, herr⟩ := ih (n - c.length) ⟨cs, fin, last⟩ (by simp only; omega)
          simp only [content] at hgot hrest hfin herr
          simp only [LoopPost, content, List.flatten_cons]
          refine ⟨?_, ?_, hfin, ?_⟩
          · rw [hgot, List.take_append, List.take_of_length_le hc]
          · rw [hrest, List.drop_append, List.drop_of_length_le hc, List.nil_append]
          · intro hshort
            exact herr (by rw [List.length_append] at hshort; omega)

theorem readFull_ok (n : Nat) (r : Reader α ε) (h : n ≤ r.content.length) :
    (r.readFull n).1 = .ok (r.content.take n) ∧ (r.readFull n).2.content = r.content.drop n := by
  obtain ⟨hgot, hrest, -, -⟩ := readLoop_spec (r.chunks.length + 2) n r (by omega)
  have hlen : (readLoop (r.chunks.length + 2) n r).1.length = n := by
    rw [hgot, List.length_take]
    exact Nat.min_eq_left h
  unfold readFull
  simp only [hlen, Nat.lt_irrefl, if_false]
  exact ⟨congrArg _ hgot, hrest⟩

theorem readFull_short (n : Nat) (r : Reader α ε) (h : r.content.length < n) :
    (r.readFull n).1 = .error (r.content.length, r.fin) ∧ (r.readFull n).2.content = [] := by
  obtain ⟨hgot, hrest, -, herr⟩ := readLoop_spec (r.chunks.length + 2) n r (by omega)
  have hlen : (readLoop (r.chunks.length + 2) n r).1.length = r.content.length := by
    rw [hgot, List.length_take]
    exact Nat.min_eq_right (Nat.le_of_lt h)
  unfold readFull
  simp only [hlen, h, if_true, herr h, Option.getD_some]
  exact ⟨trivial, hrest.trans (List.drop_of_length_le (Nat.le_of_lt h))⟩

/-- The error comes together with the last item. -/
def errWithLast (r : Reader α ε) : Bool := r.finWithLast && r.chunks.getLast?.any fun c => !c.isEmpty

theorem errWithLast_cons {c : List α} {cs : List (List α)} {fin : ε} {last : Bool}
    (h : (cs.isEmpty && last) = false) : errWithLast ⟨c :: cs, fin, last⟩ = errWithLast ⟨cs, fin, last⟩ := by
  unfold errWithLast
  cases cs with
  | nil =>
    obtain rfl : last = false := h
    rfl
  | cons d ds => rw [List.getLast?_cons_cons]

theorem errWithLast_drop {n : Nat} {c : List α} {cs : List (List α)} {fin : ε} {last : Bool} (h : n < c.length) :
    errWithLast ⟨c.drop n :: cs, fin, last⟩ = errWithLast ⟨c :: cs, fin, last⟩ := by
  unfold errWithLast
  cases cs with
  | nil =>
    have hrest : (c.drop n).isEmpty = false := by simpa using h
    have hne : c.isEmpty = false := by
      cases c with
      | nil => exact absurd h (Nat.not_lt_zero n)
      | cons x xs => rfl
    simp [hne, hrest]
  | cons d ds => simp

theorem errWithLast_nil_content {r : Reader α ε} (h : r.content = []) : r.errWithLast = false := by
  unfold errWithLast
  cases hlast : r.chunks.getLast? with
  | none => simp
  | some c =>
    have hc : c = [] := List.flatten_eq_nil_iff.mp h c (List.mem_of_getLast? hlast)
    simp [hc]

/-- No error, exactly when the items are there and none comes with the last one. -/
theorem readLoop_err (fuel n : Nat) (r : Reader α ε) (h : r.chunks.length + 1 < fuel) :
    ((readLoop fuel n r).2.1 = none ↔ n ≤ r.content.length ∧ (n = r.content.length → r.errWithLast = false)) ∧
      ((readLoop fuel n r).2.1 = none → (readLoop fuel n r).2.2.errWithLast = r.errWithLast) := by
  induction fuel generalizing n r with
  | zero => omega
  | succ fuel ih =>
    obtain ⟨chunks, fin, last⟩ := r
    by_cases hn : n = 0
    · subst hn
      refine ⟨⟨fun _ => ⟨Nat.zero_le _, fun hlen => ?_⟩, fun _ => rfl⟩, fun _ => rfl⟩
      exact errWithLast_nil_content (List.length_eq_zero_iff.mp hlen.symm)
    cases chunks with
    | nil =>
      rw [readLoop_end hn]
      simp [content]
      omega
    | cons c cs =>
      simp only [List.length_cons] at h
      rcases Nat.lt_or_ge n c.length with hc | hc
      · obtain ⟨k, rfl⟩ : ∃ k, fuel = k + 1 := ⟨fuel - 1, by omega⟩
        rw [readLoop_cut hc]
        simp only [content, List.flatten_cons, List.length_append, true_iff, forall_const]
        exact ⟨⟨by omega, by omega⟩, errWithLast_drop hc⟩
      · cases hmore : cs.isEmpty && last with
        | true =>
          simp only [Bool.and_eq_true, List.isEmpty_iff] at hmore
          obtain ⟨rfl, rfl⟩ := hmore
          rw [readLoop_last hn hc]
          simp only [reduceCtorEq, false_iff, content, List.flatten_cons, List.flatten_nil, List.append_nil,
            false_implies, and_true]
          rintro ⟨hle, herr⟩
          have hlen : n = c.length := by omega
          have hne : c ≠ [] := by
            rintro rfl
            exact hn hlen
          have := herr hlen
          simp [errWithLast, hne] at this
        | false =>
          rw [readLoop_whole hn hc hmore, errWithLast_cons hmore]
          obtain ⟨hiff, hkeep⟩ := ih (n - c.length) ⟨cs, fin, last⟩ (by simp only; omega)
          refine ⟨hiff.trans ?_, hkeep⟩
          simp only [content, List.flatten_cons, List.length_append]
          constructor
          · rintro ⟨hle, herr⟩
            exact ⟨by omega, fun hlen => herr (by omega)⟩
          · rintro ⟨hle, herr⟩
            exact ⟨by omega, fun hlen => herr (by omega)⟩

theorem readAll_ok (n : Nat) (r : Reader α ε) (h : n ≤ r.content.length)
    (hclean : n = r.content.length → r.errWithLast = false) :
    ∃ r', r.readAll n = (.ok (r.content.take n), r') ∧ r'.content = r.content.drop n ∧
      r'.errWithLast = r.errWithLast := by
  obtain ⟨hgot, hrest, -, -⟩ := readLoop_spec (r.chunks.length + 2) n r (by omega)
  obtain ⟨hiff, hkeep⟩ := readLoop_err (r.chunks.length + 2) n r (by omega)
  have hnone := hiff.mpr ⟨h, hclean⟩
  refine ⟨(readLoop (r.chunks.length + 2) n r).2.2, ?_, hrest, hkeep hnone⟩
  unfold readAll
  rcases hl : readLoop (r.chunks.length + 2) n r with ⟨got, err, r'⟩
  rw [hl] at hgot hnone
  obtain rfl : err = none := hnone
  obtain rfl : got = r.content.take n := hgot
  rfl

theorem readAll_fails (n : Nat) (r : Reader α ε)
    (h : ¬ (n ≤ r.content.length ∧ (n = r.content.length → r.errWithLast = false))) :
    ∃ e r', r.readAll n = (.error e, r') := by
  obtain ⟨hiff, -⟩ := readLoop_err (r.chunks.length + 2) n r (by omega)
  unfold readAll
  rcases hl : readLoop (r.chunks.length + 2) n r with ⟨got, err, r'⟩
  rw [hl] at hiff
  cases err with
  | none => exact absurd (hiff.mp rfl) h
  | some e => exact ⟨e, r', rfl⟩

end Reader

end Lib
