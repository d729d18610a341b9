import Daxson.Lib.Reader
import Daxson.Lib.BigEndian

/-! # The Go types and library calls that the packages share

A connection is what its peer has sent, in chunks, and what has reached the peer.
-/

open Lib

namespace Daxson

abbrev Bytes := List UInt8

def ascii (s : String) : Bytes := s.toList.map fun c => UInt8.ofNat c.toNat

/-- A Go array `[n]byte`. -/
abbrev ByteArr (n : Nat) := { b : Bytes // b.length = n }

/-- `copy(dst[:], src)` into a fresh array: cut at the end, or zeros behind. -/
def copyArr (n : Nat) (src : Bytes) : ByteArr n :=
  ⟨src.take n ++ List.replicate (n - src.length) 0, by simp; omega⟩

theorem copyArr_of_length {n : Nat} {src : Bytes} (h : src.length = n) : (copyArr n src).val = src := by
  subst h
  simp [copyArr]

@[simp] theorem copyArr_val {n : Nat} (a : ByteArr n) : copyArr n a.val = a :=
  Subtype.ext (copyArr_of_length a.property)

/-- `b[lo:hi]`. -/
def slice (b : Bytes) (lo hi : Nat) : Bytes := (b.take hi).drop lo

theorem slice_take (b : Bytes) {lo hi k : Nat} (h : hi ≤ k) : slice (b.take k) lo hi = slice b lo hi := by
  unfold slice
  rw [List.take_take, Nat.min_eq_left h]

theorem slice_append (b c : Bytes) {lo hi : Nat} (h : hi ≤ b.length) : slice (b ++ c) lo hi = slice b lo hi := by
  unfold slice
  rw [List.take_append_of_le_length h]

theorem slice_length (b : Bytes) {lo hi : Nat} (h : hi ≤ b.length) : (slice b lo hi).length = hi - lo := by
  unfold slice
  rw [List.length_drop, List.length_take, Nat.min_eq_left h]

theorem take_slice (b : Bytes) {lo hi : Nat} (h : lo ≤ hi) : b.take hi = b.take lo ++ slice b lo hi := by
  have := List.take_append_drop lo (b.take hi)
  rw [List.take_take, Nat.min_eq_left h] at this
  exact this.symm

theorem slice_mid (pre x post : Bytes) (lo hi : Nat) (hlo : pre.length = lo)
    (hhi : pre.length + x.length = hi) : slice (pre ++ (x ++ post)) lo hi = x := by
  subst hlo hhi
  unfold slice
  rw [← List.append_assoc, List.take_append_of_le_length (by simp), List.take_of_length_le (by simp),
    List.drop_left]

theorem copyArr_slice_mid {n : Nat} (pre post : Bytes) (x : ByteArr n) (lo hi : Nat)
    (hlo : pre.length = lo) (hhi : lo + n = hi) :
    copyArr n (slice (pre ++ (x.val ++ post)) lo hi) = x := by
  rw [slice_mid pre x.val post lo hi hlo (by rw [x.property, hlo, hhi]), copyArr_val]

theorem copyArr_slice (b : Bytes) {n lo hi : Nat} (h : hi ≤ b.length) (hn : hi - lo = n) :
    (copyArr n (slice b lo hi)).val = slice b lo hi := by
  apply copyArr_of_length
  rw [slice_length b h, hn]

theorem take_one_eq {b : Bytes} (h : 1 ≤ b.length) : b.take 1 = [b.headD 0] := by
  cases b with
  | nil => simp at h
  | cons x t => rfl

theorem beBytes_slice (b : Bytes) {k lo hi : Nat} (h : hi ≤ b.length) (hk : hi - lo = k) :
    Lib.BigEndian.beBytes k (Lib.BigEndian.beVal (slice b lo hi)) = slice b lo hi := by
  have hlen : (slice b lo hi).length = hi - lo := slice_length b h
  rw [← hk, ← hlen]
  exact Lib.BigEndian.beBytes_beVal _

/-! ## Errors -/

/-- What the network, the file system or the random source reports. -/
inductive SysError where
  | eof
  | unexpectedEOF
  | closed
  | other (text : String)
  deriving DecidableEq, Repr

inductive GoError where
  | sys (err : SysError)
  /-- A package variable made by `errors.New`. -/
  | sentinel (text : String)
  /-- `errors.New`, or `fmt.Errorf` without a cause: the format and its arguments. -/
  | new (format : String) (args : List Bytes)
  /-- `fmt.Errorf` with `err` for `%w`. -/
  | wrap (format : String) (args : List Bytes) (err : GoError)
  deriving DecidableEq, Repr

/-- `errors.Is`: the error or one that it wraps. -/
def GoError.is : GoError → GoError → Bool
  | .wrap format args err, target => .wrap format args err == target || err.is target
  | err, target => err == target

/-! ## Times and numbers as text -/

abbrev Time := Int

def second : Int := 1000000000

def Time.unix (t : Time) : Int := Int.fdiv t second

/-- The zero `time.Time`, 1 January of year 1. -/
def zeroTime : Time := -62135596800 * second

/-- `time.Duration(x)` of a float, which drops the fraction. -/
def toDuration (x : ℚ) : Int := Int.tdiv x.num x.den

theorem toDuration_of_nonneg {x : ℚ} (hx : 0 ≤ x) : toDuration x = ⌊x⌋ := by
  unfold toDuration
  rw [Int.tdiv_eq_ediv_of_nonneg (Rat.num_nonneg.mpr hx), Rat.floor_def']

theorem le_toDuration {x : ℚ} {z : Int} (hz : 0 ≤ z) (h : (z : ℚ) ≤ x) : z ≤ toDuration x := by
  rw [toDuration_of_nonneg (le_trans (by exact_mod_cast hz) h)]
  exact Int.le_floor.mpr h

theorem toDuration_le {x : ℚ} {z : Int} (hx : 0 ≤ x) (h : x ≤ z) : toDuration x ≤ z := by
  rw [toDuration_of_nonneg hx]
  exact_mod_cast (Int.floor_le x).trans h

/-- `strconv.FormatInt(x, 10)`. -/
def formatInt (x : Int) : Bytes :=
  let digits := (Nat.toDigits 10 x.natAbs).map fun c => UInt8.ofNat c.toNat
  if x < 0 then 45 :: digits else digits

def hexDigit (n : UInt8) : UInt8 := if n < 10 then 48 + n else 87 + n

/-- `hex.EncodeToString`. -/
def hexEncode (b : Bytes) : Bytes := b.flatMap fun x => [hexDigit (x / 16), hexDigit (x % 16)]

/-! ## UTF-8 in JSON strings -/

/-- The length of the UTF-8 sequence at the front, by the ranges of `utf8.DecodeRune`. -/
def runeLen : Bytes → Option Nat
  | [] => none
  | b :: rest =>
    let tail (k : Nat) := k ≤ rest.length && (rest.take k).all fun x => 0x80 ≤ x && x ≤ 0xBF
    let second := rest.headD 0
    if b < 0x80 then some 1
    else if b < 0xC2 then none
    else if b < 0xE0 then if tail 1 then some 2 else none
    else if b < 0xF0 then
      if tail 2 && (b != 0xE0 || 0xA0 ≤ second) && (b != 0xED || second ≤ 0x9F) then some 3 else none
    else if b < 0xF5 then
      if tail 3 && (b != 0xF0 || 0x90 ≤ second) && (b != 0xF4 || second ≤ 0x8F) then some 4 else none
    else none

/-- The string that comes back from `encoding/json`: each byte that is no part of valid UTF-8 has
become U+FFFD. -/
def jsonString (s : Bytes) : Bytes := go s.length s
where
  go : Nat → Bytes → Bytes
    | 0, _ => []
    | _ + 1, [] => []
    | fuel + 1, b :: rest =>
      match runeLen (b :: rest) with
      | some n => (b :: rest).take n ++ go fuel ((b :: rest).drop n)
      | none => [0xEF, 0xBF, 0xBD] ++ go fuel rest

theorem jsonString_go_ascii (s : Bytes) (fuel : Nat) (hfuel : s.length ≤ fuel) (h : ∀ b ∈ s, b < 0x80) :
    jsonString.go fuel s = s := by
  induction s generalizing fuel with
  | nil => cases fuel <;> rfl
  | cons b s ih =>
    cases fuel with
    | zero => simp at hfuel
    | succ fuel =>
      have hlen : runeLen (b :: s) = some 1 := by
        unfold runeLen
        exact if_pos (h b (by simp))
      unfold jsonString.go
      rw [hlen]
      simp only [List.take_succ_cons, List.take_zero, List.drop_succ_cons, List.drop_zero, List.singleton_append]
      rw [ih fuel (by simpa using hfuel) fun c hc => h c (by simp [hc])]

theorem jsonString_ascii {s : Bytes} (h : ∀ b ∈ s, b < 0x80) : jsonString s = s :=
  jsonString_go_ascii s s.length le_rfl h

theorem hexEncode_length (s : Bytes) : (hexEncode s).length = 2 * s.length := by
  induction s with
  | nil => rfl
  | cons x s ih =>
    change (hexEncode s).length + 1 + 1 = 2 * (s.length + 1)
    omega

theorem hexEncode_ascii (s : Bytes) : ∀ b ∈ hexEncode s, b < 0x80 := by
  intro b hb
  have hdigit : ∀ n : UInt8, n.toNat < 16 → hexDigit n < 0x80 := by
    intro n hn
    unfold hexDigit
    split
    · rename_i h
      rw [UInt8.lt_iff_toNat_lt] at h ⊢
      simp at h ⊢
      omega
    · rw [UInt8.lt_iff_toNat_lt]
      simp
      omega
  simp only [hexEncode, List.mem_flatMap, List.mem_cons, List.not_mem_nil, or_false] at hb
  obtain ⟨x, -, rfl | rfl⟩ := hb
  · apply hdigit
    have := x.toNat_lt
    simp
    omega
  · apply hdigit
    simp
    omega

/-! ## Connections -/

abbrev ByteReader := Reader UInt8 SysError

/-- `io.ReadFull`: an end of file inside the buffer is unexpected. -/
def readFull (n : Nat) (r : ByteReader) : Except SysError Bytes × ByteReader :=
  match r.readFull n with
  | (.ok got, r') => (.ok got, r')
  | (.error (got, e), r') =>
    (.error (if 0 < got && e = .eof then .unexpectedEOF else e), r')

theorem readFull_ok (n : Nat) (r : ByteReader) (h : n ≤ r.content.length) :
    ∃ r', readFull n r = (.ok (r.content.take n), r') ∧ r'.content = r.content.drop n := by
  obtain ⟨hok, hrest⟩ := Reader.readFull_ok n r h
  refine ⟨(r.readFull n).2, ?_, hrest⟩
  unfold readFull
  rw [← Prod.mk.eta (p := r.readFull n), hok]

theorem readFull_first {r : ByteReader} {b : UInt8} {t : Bytes} (h : r.content = b :: t) :
    ∃ r', readFull 1 r = (.ok [b], r') ∧ r'.content = t := by
  obtain ⟨r', hread, hrest⟩ := readFull_ok 1 r (by simp [h])
  rw [h] at hread hrest
  exact ⟨r', hread, hrest⟩

theorem readFull_cut (n : Nat) (r : ByteReader) (h : r.content.length < n) :
    ∃ r', readFull n r =
      (.error (if 0 < r.content.length && r.fin = .eof then .unexpectedEOF else r.fin), r') ∧ r'.content = [] := by
  obtain ⟨herr, hrest⟩ := Reader.readFull_short n r h
  refine ⟨(r.readFull n).2, ?_, hrest⟩
  unfold readFull
  rw [← Prod.mk.eta (p := r.readFull n), herr]

theorem readFull_short (n : Nat) (r : ByteReader) (h : r.content.length < n) :
    ∃ e r', readFull n r = (.error e, r') ∧ r'.content = [] := by
  obtain ⟨r', hread, hrest⟩ := readFull_cut n r h
  exact ⟨_, r', hread, hrest⟩

theorem readFull_inv {n : Nat} {r r' : ByteReader} {got : Bytes} (h : readFull n r = (.ok got, r')) :
    n ≤ r.content.length ∧ got = r.content.take n ∧ r'.content = r.content.drop n := by
  by_cases hn : n ≤ r.content.length
  · obtain ⟨r'', heq, hrest⟩ := readFull_ok n r hn
    rw [heq] at h
    simp only [Prod.mk.injEq, Except.ok.injEq] at h
    obtain ⟨rfl, rfl⟩ := h
    exact ⟨hn, rfl, hrest⟩
  · obtain ⟨e, r'', heq, -⟩ := readFull_short n r (by omega)
    rw [heq] at h
    cases h

theorem readFull_fin (n : Nat) (r : ByteReader) : (readFull n r).2.fin = r.fin := by
  obtain ⟨-, -, hfin, -⟩ := Reader.readLoop_spec (r.chunks.length + 2) n r (by omega)
  rw [← hfin]
  unfold readFull Reader.readFull
  dsimp only
  split_ifs <;> rfl

theorem readFull_congr (n : Nat) {r s : ByteReader} (hcontent : r.content = s.content) (hfin : r.fin = s.fin) :
    (readFull n r).1 = (readFull n s).1 ∧ (readFull n r).2.content = (readFull n s).2.content := by
  by_cases h : n ≤ r.content.length
  · obtain ⟨r', hr, hr'⟩ := readFull_ok n r h
    obtain ⟨s', hs, hs'⟩ := readFull_ok n s (hcontent ▸ h)
    rw [hr, hs]
    exact ⟨by rw [hcontent], by rw [hr', hs', hcontent]⟩
  · obtain ⟨r', hr, hr'⟩ := readFull_cut n r (by omega)
    obtain ⟨s', hs, hs'⟩ := readFull_cut n s (by rw [← hcontent]; omega)
    rw [hr, hs]
    exact ⟨by rw [hcontent, hfin], by rw [hr', hs']⟩

theorem readFull_end (n : Nat) (r : ByteReader) (hn : 0 < n) (h : r.content = []) :
    (readFull n r).1 = .error r.fin := by
  obtain ⟨r', hread, -⟩ := readFull_cut n r (by simp [h, hn])
  rw [hread, h]
  rfl

/-- How one `Write` ends: all of it, or an error after fewer bytes. -/
inductive WriteOutcome where
  | full
  | short (n : Nat) (err : SysError)
  deriving DecidableEq, Repr

/-- The bytes of `b` that reach the peer. A failed write has delivered fewer than all. -/
def WriteOutcome.delivered (o : WriteOutcome) (b : Bytes) : Bytes :=
  match o with
  | .full => b
  | .short n _ => b.take (min n (b.length - 1))

def WriteOutcome.err : WriteOutcome → Option SysError
  | .full => none
  | .short _ e => some e

structure NetConn where
  /-- What the peer has sent and this end has not read. -/
  rx : ByteReader
  tx : Bytes := []
  deriving DecidableEq, Repr

def NetConn.write (o : WriteOutcome) (b : Bytes) (c : NetConn) : Option SysError × NetConn :=
  (o.err, { c with tx := c.tx ++ o.delivered b })

end Daxson
