import Daxson.Lib.Machine
import Daxson.Lib.Reader

/-! # Buffered readers

What was taken, what is buffered and what was never read are always the whole input, in order.
-/

namespace Lib

structure Buffered (α ε : Type) where
  rd : Reader α ε
  size : Nat
  buf : List α := []
  /-- The error of the last refill that had one. -/
  err : Option ε := none
  deriving DecidableEq, Repr

variable {α ε : Type}

/-! ## Single reads -/

namespace Reader

theorem read_content (r : Reader α ε) (n : Nat) : (r.read n).1 ++ (r.read n).2.2.content = r.content := by
  obtain ⟨chunks, fin, last⟩ := r
  cases chunks with
  | nil => rfl
  | cons c cs =>
    unfold read
    dsimp only
    by_cases hcut : n < c.length
    · rw [if_pos hcut]
      simp [content, ← List.append_assoc]
    · rw [if_neg hcut]
      rfl

end Reader

/-! ## Parsing from a buffer -/

/-- One read into the free part of the buffer. -/
def Buffered.fill (b : Buffered α ε) : Option (Buffered α ε) :=
  if b.buf.length < b.size then
    let got := b.rd.read (b.size - b.buf.length)
    some { b with rd := got.2.2, buf := b.buf ++ got.1, err := got.2.1.or b.err }
  else none

/-- Everything that is buffered, and the buffer without it. -/
def Buffered.drain (b : Buffered α ε) : List α × Buffered α ε := (b.buf, { b with buf := [] })

structure Parser (α ε : Type) where
  br : Buffered α ε
  taken : List α := []
  deriving DecidableEq, Repr

namespace Parser

inductive Op where
  | fill
  | take (k : Nat)
  deriving DecidableEq, Repr

def step (s : Parser α ε) : Op → Option (Parser α ε)
  | .fill => s.br.fill.map fun br => { s with br := br }
  | .take k =>
    if k ≤ s.br.buf.length then
      some { br := { s.br with buf := s.br.buf.drop k }, taken := s.taken ++ s.br.buf.take k }
    else none

def held (s : Parser α ε) : List α := s.taken ++ (s.br.buf ++ s.br.rd.content)

theorem step_held {s s' : Parser α ε} {op : Op} (h : s.step op = some s') : s'.held = s.held := by
  cases op with
  | fill =>
    obtain ⟨br, hfill, rfl⟩ := Option.map_eq_some_iff.mp h
    unfold Buffered.fill at hfill
    split_ifs at hfill with hfree
    obtain rfl := Option.some.inj hfill
    unfold held
    dsimp only
    rw [List.append_assoc, Reader.read_content]
  | take k =>
    simp only [step] at h
    split_ifs at h with hk
    obtain rfl := Option.some.inj h
    unfold held
    dsimp only
    rw [List.append_assoc, ← List.append_assoc (s.br.buf.take k), List.take_append_drop]

theorem run_held {s t : Parser α ε} {ops : List Op} (h : Machine.run step s ops = some t) : t.held = s.held :=
  Machine.run_invariant (fun _ _ _ hs hstep => (step_held hstep).trans hs) ops s t rfl h

end Parser

end Lib
