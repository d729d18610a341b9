import Mathlib.Tactic

/-! # Big-endian numbers

`beBytes k v` is the low `k` bytes of `v`, most significant first, and `beVal` reads them back.
-/

namespace Lib.BigEndian

def beVal (l : List UInt8) : Nat := l.foldl (fun acc b => 256 * acc + b.toNat) 0

def beBytes : Nat → Nat → List UInt8
  | 0, _ => []
  | k + 1, v => beBytes k (v / 256) ++ [UInt8.ofNat v]

@[simp] theorem beBytes_length (k v : Nat) : (beBytes k v).length = k := by
  induction k generalizing v with
  | zero => rfl
  | succ k ih => simp [beBytes, ih]

theorem beVal_snoc (l : List UInt8) (b : UInt8) : beVal (l ++ [b]) = 256 * beVal l + b.toNat := by
  simp [beVal, List.foldl_append]

theorem beVal_beBytes (k v : Nat) : beVal (beBytes k v) = v % 256 ^ k := by
  induction k generalizing v with
  | zero => simp [beBytes, beVal, Nat.mod_one]
  | succ k ih =>
    rw [beBytes, beVal_snoc, ih, Nat.pow_succ', Nat.mod_mul]
    simp only [UInt8.toNat_ofNat']
    omega

theorem beBytes_inj {k v w : Nat} (hv : v < 256 ^ k) (hw : w < 256 ^ k) (h : beBytes k v = beBytes k w) : v = w := by
  have hval := congrArg beVal h
  rwa [beVal_beBytes, beVal_beBytes, Nat.mod_eq_of_lt hv, Nat.mod_eq_of_lt hw] at hval

theorem beVal_lt (l : List UInt8) : beVal l < 256 ^ l.length := by
  induction l using List.reverseRecOn with
  | nil => simp [beVal]
  | append_singleton l b ih =>
    have := b.toNat_lt
    rw [beVal_snoc, List.length_append, List.length_singleton, Nat.pow_succ]
    omega

theorem beBytes_beVal (l : List UInt8) : beBytes l.length (beVal l) = l := by
  induction l using List.reverseRecOn with
  | nil => rfl
  | append_singleton l b ih =>
    have hb := b.toNat_lt
    have hdiv : (256 * beVal l + b.toNat) / 256 = beVal l := by omega
    have hbyte : UInt8.ofNat (256 * beVal l + b.toNat) = b := by
      apply UInt8.toNat_inj.mp
      rw [UInt8.toNat_ofNat']
      omega
    rw [List.length_append, List.length_singleton, beVal_snoc, beBytes, hdiv, hbyte, ih]

end Lib.BigEndian
