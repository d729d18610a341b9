import Mathlib.Tactic

/-! # Pipes

A reader pulls any piece at its cursor, so the sizes of the pieces are free and the order is not.
-/

namespace Lib

variable {α : Type}

structure Pipe (α : Type) where
  sent : List α := []
  read : Nat := 0
  inRange : read ≤ sent.length := by simp
  deriving DecidableEq, Repr

namespace Pipe

def got (p : Pipe α) : List α := p.sent.take p.read

def unread (p : Pipe α) : List α := p.sent.drop p.read

def push (l : List α) (p : Pipe α) : Pipe α where
  sent := p.sent ++ l
  read := p.read
  inRange := p.inRange.trans (by simp)

theorem prefix_le {l : List α} {p : Pipe α} (h : l <+: p.unread) : p.read + l.length ≤ p.sent.length := by
  have hle := h.length_le
  have := p.inRange
  rw [unread, List.length_drop] at hle
  omega

/-- Reads `l`, when that is what comes next. -/
def pull [DecidableEq α] (l : List α) (p : Pipe α) : Option (Pipe α) :=
  if h : l <+: p.unread then some { sent := p.sent, read := p.read + l.length, inRange := prefix_le h }
  else none

@[simp] theorem sent_push (l : List α) (p : Pipe α) : (p.push l).sent = p.sent ++ l := rfl

@[simp] theorem got_push (l : List α) (p : Pipe α) : (p.push l).got = p.got :=
  List.take_append_of_le_length p.inRange

theorem unread_push (l : List α) (p : Pipe α) : (p.push l).unread = p.unread ++ l :=
  List.drop_append_of_le_length p.inRange

theorem got_append_unread (p : Pipe α) : p.got ++ p.unread = p.sent := List.take_append_drop _ _

theorem got_isPrefix_sent (p : Pipe α) : p.got <+: p.sent := List.take_prefix _ _

theorem unread_eq_nil_iff (p : Pipe α) : p.unread = [] ↔ p.got = p.sent := by
  rw [← p.got_append_unread, List.self_eq_append_right]

theorem pull_eq_some [DecidableEq α] {l : List α} {p p' : Pipe α} (h : p.pull l = some p') :
    p'.sent = p.sent ∧ p'.got = p.got ++ l := by
  unfold pull at h
  split_ifs at h with hl
  obtain rfl := Option.some.inj h
  refine ⟨rfl, ?_⟩
  obtain ⟨rest, hrest⟩ := hl
  rw [unread] at hrest
  unfold got
  simp only
  rw [List.take_add, ← hrest, List.take_left]

end Pipe

end Lib
