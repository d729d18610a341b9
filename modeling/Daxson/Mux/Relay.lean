import Daxson.Go
import Daxson.Lib.Pipe

/-! # The two directions of a relayed stream -/

open Lib (Pipe)

namespace Daxson.Mux

inductive Copy where
  | reading
  | writing (buf : Bytes)
  | done
  deriving DecidableEq, Repr

inductive CopyAct where
  | read (chunk : Bytes)
  | write (o : WriteOutcome)
  /-- A read that returns no bytes and ends the copy. -/
  | stop
  deriving DecidableEq, Repr

def Copy.step (c : Copy) (src dst : Pipe UInt8) (a : CopyAct) : Option (Copy × Pipe UInt8 × Pipe UInt8) :=
  match c, a with
  | .reading, .read chunk =>
    if chunk = [] then none else (src.pull chunk).map fun src => (.writing chunk, src, dst)
  | .reading, .stop => some (.done, src, dst)
  | .writing buf, .write o => some (if o.err = none then .reading else .done, src, dst.push (o.delivered buf))
  | _, _ => none

/-- The copy has read `got` and written `wrote`. -/
def Copied (got wrote : Bytes) : Copy → Prop
  | .reading => wrote = got
  | .writing buf => wrote ++ buf = got
  | .done => wrote <+: got

theorem Copied.isPrefix {got wrote : Bytes} {c : Copy} (h : Copied got wrote c) : wrote <+: got := by
  cases c with
  | reading => exact h ▸ List.prefix_refl _
  | writing buf => exact ⟨buf, h⟩
  | done => exact h

theorem delivered_full {o : WriteOutcome} (h : o.err = none) (b : Bytes) : o.delivered b = b := by
  cases o with
  | full => rfl
  | short n e => cases h

theorem delivered_isPrefix (o : WriteOutcome) (b : Bytes) : o.delivered b <+: b := by
  cases o with
  | full => exact List.prefix_refl b
  | short n e => exact List.take_prefix _ _

/-- What a step of a copy can be. -/
inductive CopyStep (src dst : Pipe UInt8) : Copy → CopyAct → Copy → Pipe UInt8 → Pipe UInt8 → Prop
  | read (chunk : Bytes) (src' : Pipe UInt8) (hsent : src'.sent = src.sent) (hgot : src'.got = src.got ++ chunk) :
      CopyStep src dst .reading (.read chunk) (.writing chunk) src' dst
  | stop : CopyStep src dst .reading .stop .done src dst
  | write (buf : Bytes) (o : WriteOutcome) :
      CopyStep src dst (.writing buf) (.write o) (if o.err = none then .reading else .done) src
        (dst.push (o.delivered buf))

theorem copyStep_of_step {c c' : Copy} {src src' dst dst' : Pipe UInt8} {a : CopyAct}
    (h : c.step src dst a = some (c', src', dst')) : CopyStep src dst c a c' src' dst' := by
  unfold Copy.step at h
  split at h
  case h_1 chunk =>
    split_ifs at h
    obtain ⟨p, hp, heq⟩ := Option.map_eq_some_iff.mp h
    obtain ⟨rfl, rfl, rfl⟩ := heq
    exact .read chunk _ (Pipe.pull_eq_some hp).1 (Pipe.pull_eq_some hp).2
  case h_2 =>
    obtain ⟨rfl, rfl, rfl⟩ := Option.some.inj h
    exact .stop
  case h_3 buf o =>
    obtain ⟨rfl, rfl, rfl⟩ := Option.some.inj h
    exact .write buf o
  case h_4 => cases h

theorem copied_step {c c' : Copy} {src src' dst dst' : Pipe UInt8} {a : CopyAct} {got wrote : Bytes}
    (h : c.step src dst a = some (c', src', dst')) (hc : Copied got wrote c) :
    src'.sent = src.sent ∧ dst'.got = dst.got ∧
      ∃ g w, src'.got = src.got ++ g ∧ dst'.sent = dst.sent ++ w ∧ Copied (got ++ g) (wrote ++ w) c' := by
  cases copyStep_of_step h with
  | read chunk src' hsent hgot =>
    refine ⟨hsent, rfl, chunk, [], hgot, (List.append_nil _).symm, ?_⟩
    unfold Copied at hc ⊢
    rw [hc, List.append_nil]
  | stop =>
    refine ⟨rfl, rfl, [], [], (List.append_nil _).symm, (List.append_nil _).symm, ?_⟩
    rw [List.append_nil, List.append_nil]
    exact hc.isPrefix
  | write buf o =>
    refine ⟨rfl, Pipe.got_push _ _, [], o.delivered buf, (List.append_nil _).symm, rfl, ?_⟩
    rw [Copied] at hc
    rw [List.append_nil, ← hc]
    split_ifs with hok
    · rw [delivered_full hok, Copied]
    · exact (List.prefix_append_right_inj wrote).mpr (delivered_isPrefix o buf)

end Daxson.Mux
