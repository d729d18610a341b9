import Daxson.Go

/-! # `net`

`IP.String`, `JoinHostPort` and `SplitHostPort` of the standard library.
-/

open Lib Lib.BigEndian

namespace Daxson.Net

def appendDecimal (x : UInt8) : Bytes :=
  (if x ≥ 100 then [48 + x / 100] else []) ++ (if x ≥ 10 then [48 + x / 10 % 10] else []) ++ [48 + x % 10]

def appendHex (x : UInt16) : Bytes :=
  (if x ≥ 0x1000 then [hexDigit (x >>> 12).toUInt8] else []) ++
    (if x ≥ 0x100 then [hexDigit (x >>> 8 &&& 0xf).toUInt8] else []) ++
    (if x ≥ 0x10 then [hexDigit (x >>> 4 &&& 0xf).toUInt8] else []) ++ [hexDigit (x &&& 0xf).toUInt8]

/-- `To4`: four bytes, or sixteen that map an IPv4 address. -/
def to4 (ip : Bytes) : Option Bytes :=
  if ip.length = 4 then some ip
  else if ip.length = 16 ∧ slice ip 0 12 = List.replicate 10 0 ++ [0xff, 0xff] then some (slice ip 12 16)
  else none

def appendTo4 (ip : Bytes) : Bytes :=
  appendDecimal (ip.getD 0 0) ++ ascii "." ++ appendDecimal (ip.getD 1 0) ++ ascii "." ++
    appendDecimal (ip.getD 2 0) ++ ascii "." ++ appendDecimal (ip.getD 3 0)

/-- `v6u16` for each of the eight words. -/
def words (ip : Bytes) : List UInt16 :=
  (List.range 8).map fun i => UInt16.ofNat (beVal (slice ip (2 * i) (2 * i + 2)))

/-- Where the first of the longest runs of two or more zero words begins and ends. -/
def zeroRun (ws : List UInt16) : Nat × Nat :=
  (List.range 8).foldl (fun zero i =>
    let l := ((ws.drop i).takeWhile (· == 0)).length
    if l ≥ 2 ∧ l > zero.2 - zero.1 then (i, i + l) else zero) (255, 255)

/-- The second loop of `appendTo6`. Eight rounds are enough. -/
def appendWords (ws : List UInt16) (zeroStart zeroEnd : Nat) : Nat → Nat → Bytes
  | 0, _ => []
  | fuel + 1, i =>
    if i ≥ 8 then []
    else if i = zeroStart then
      ascii "::" ++
        if zeroEnd ≥ 8 then [] else appendHex (ws.getD zeroEnd 0) ++ appendWords ws zeroStart zeroEnd fuel (zeroEnd + 1)
    else (if i > 0 then ascii ":" else []) ++ (appendHex (ws.getD i 0) ++ appendWords ws zeroStart zeroEnd fuel (i + 1))

def appendTo6 (ip : Bytes) : Bytes :=
  let zero := zeroRun (words ip)
  appendWords (words ip) zero.1 zero.2 8 0

/-- `IP.String`. -/
def ipString (ip : Bytes) : Bytes :=
  if ip.length = 0 then ascii "<nil>"
  else if ip.length ≠ 4 ∧ ip.length ≠ 16 then ascii "?" ++ hexEncode ip
  else
    match to4 ip with
    | some p4 => appendTo4 p4
    | none => appendTo6 ip

example : ipString [0x20, 1, 0x0d, 0xb8, 0, 0, 0, 0, 0, 1, 0, 0, 0, 0, 0, 1] = ascii "2001:db8::1:0:0:1" := by decide

example : ipString (List.replicate 10 0 ++ [0xff, 0xff, 192, 0, 2, 10]) = ascii "192.0.2.10" := by decide

/-! ## How long the text is -/

theorem appendDecimal_length (x : UInt8) : (appendDecimal x).length ≤ 3 := by
  unfold appendDecimal
  split_ifs <;> simp

theorem appendHex_length (x : UInt16) : (appendHex x).length ≤ 4 := by
  unfold appendHex
  split_ifs <;> simp

theorem appendTo4_length (ip : Bytes) : (appendTo4 ip).length ≤ 15 := by
  have h0 := appendDecimal_length (ip.getD 0 0)
  have h1 := appendDecimal_length (ip.getD 1 0)
  have h2 := appendDecimal_length (ip.getD 2 0)
  have h3 := appendDecimal_length (ip.getD 3 0)
  have hdot : (ascii ".").length = 1 := rfl
  simp only [appendTo4, List.length_append, hdot]
  omega

theorem appendWords_length (ws : List UInt16) (zeroStart zeroEnd fuel i : Nat) :
    (appendWords ws zeroStart zeroEnd fuel i).length ≤ 6 * fuel := by
  have hcolons : (ascii "::").length = 2 := rfl
  have hcolon : (ascii ":").length = 1 := rfl
  induction fuel generalizing i with
  | zero => exact le_rfl
  | succ fuel ih =>
    have hend := appendHex_length (ws.getD zeroEnd 0)
    have hword := appendHex_length (ws.getD i 0)
    have hjump := ih (zeroEnd + 1)
    have hnext := ih (i + 1)
    unfold appendWords
    split_ifs <;> simp only [List.length_append, List.length_nil, hcolons, hcolon] <;> omega

theorem ipString_length {ip : Bytes} (h : ip.length = 4 ∨ ip.length = 16) : (ipString ip).length ≤ 48 := by
  unfold ipString
  rw [if_neg (by omega), if_neg (by omega)]
  cases to4 ip with
  | some p4 => exact (appendTo4_length p4).trans (by decide)
  | none => exact appendWords_length _ _ _ 8 0

/-! ## Host and port -/

def joinHostPort (host port : Bytes) : Bytes :=
  if 58 ∈ host then ascii "[" ++ host ++ ascii "]:" ++ port else host ++ ascii ":" ++ port

theorem joinHostPort_port_inj (host : Bytes) {port port' : Bytes} :
    joinHostPort host port = joinHostPort host port' ↔ port = port' := by
  unfold joinHostPort
  split_ifs <;> exact List.append_right_inj _

def missingPort (hostport : Bytes) : GoError := .new "address %s: missing port in address" [hostport]
def tooManyColons (hostport : Bytes) : GoError := .new "address %s: too many colons in address" [hostport]

def indexByte (s : Bytes) (c : UInt8) : Option Nat := s.findIdx? (· == c)

def lastIndexByte (s : Bytes) (c : UInt8) : Option Nat := (indexByte s.reverse c).map fun k => s.length - 1 - k

/-- The end of `SplitHostPort`: no bracket may come after `j` or `k`, and the port is behind `i`. -/
def splitPort (hostport host : Bytes) (j k i : Nat) : Except GoError (Bytes × Bytes) :=
  if 91 ∈ hostport.drop j then .error (.new "address %s: unexpected '[' in address" [hostport])
  else if 93 ∈ hostport.drop k then .error (.new "address %s: unexpected ']' in address" [hostport])
  else .ok (host, hostport.drop (i + 1))

/-- `net.SplitHostPort`. -/
def splitHostPort (hostport : Bytes) : Except GoError (Bytes × Bytes) :=
  match lastIndexByte hostport 58 with
  | none => .error (missingPort hostport)
  | some i =>
    if hostport.headD 0 = 91 then
      match indexByte hostport 93 with
      | none => .error (.new "address %s: missing ']' in address" [hostport])
      | some last =>
        if last + 1 = hostport.length then .error (missingPort hostport)
        else if last + 1 = i then splitPort hostport (slice hostport 1 last) 1 (last + 1) i
        else if hostport.getD (last + 1) 0 = 58 then .error (tooManyColons hostport)
        else .error (missingPort hostport)
    else if 58 ∈ hostport.take i then .error (tooManyColons hostport)
    else splitPort hostport (hostport.take i) 0 0 i

theorem indexByte_none {s : Bytes} {c : UInt8} (h : c ∉ s) : indexByte s c = none := by
  unfold indexByte
  rw [List.findIdx?_eq_none_iff]
  intro b hb
  rw [beq_eq_false_iff_ne]
  rintro rfl
  exact h hb

theorem indexByte_append {front : Bytes} {c : UInt8} (h : c ∉ front) (back : Bytes) :
    indexByte (front ++ c :: back) c = some front.length := by
  have hnone := indexByte_none h
  unfold indexByte at hnone ⊢
  rw [List.findIdx?_append, hnone]
  simp [List.findIdx?_cons]

theorem lastIndexByte_append (front : Bytes) {back : Bytes} {c : UInt8} (h : c ∉ back) :
    lastIndexByte (front ++ c :: back) c = some front.length := by
  unfold lastIndexByte
  have hrev : (front ++ c :: back).reverse = back.reverse ++ c :: front.reverse := by simp
  rw [hrev, indexByte_append (by simpa using h)]
  simp only [Option.map_some, List.length_reverse, List.length_append, List.length_cons, Option.some.injEq]
  omega

theorem lastIndexByte_none {s : Bytes} {c : UInt8} (h : c ∉ s) : lastIndexByte s c = none := by
  unfold lastIndexByte
  rw [indexByte_none (by simpa using h)]
  rfl

/-- Neither a colon nor a bracket. -/
def Plain (s : Bytes) : Prop := 58 ∉ s ∧ 91 ∉ s ∧ 93 ∉ s

theorem splitHostPort_plain {host port : Bytes} (hhost : Plain host) (hport : Plain port) :
    splitHostPort (host ++ 58 :: port) = .ok (host, port) := by
  obtain ⟨hh1, hh2, hh3⟩ := hhost
  obtain ⟨hp1, hp2, hp3⟩ := hport
  have hfirst : (host ++ 58 :: port).headD 0 ≠ 91 := by
    cases host with
    | nil => simp
    | cons b host =>
      intro hb
      exact hh2 (by simpa using Or.inl hb.symm)
  unfold splitHostPort
  rw [lastIndexByte_append host hp1]
  dsimp only
  rw [if_neg hfirst, List.take_left, if_neg hh1]
  unfold splitPort
  rw [List.drop_zero, if_neg (by simp [hh2, hp2]), if_neg (by simp [hh3, hp3])]
  simp

theorem splitHostPort_bare {host : Bytes} (h : 58 ∉ host) : splitHostPort host = .error (missingPort host) := by
  unfold splitHostPort
  rw [lastIndexByte_none h]

section Brackets

variable {v6 : Bytes}

theorem splitHostPort_bracketed {port : Bytes} (h1 : 91 ∉ v6) (h2 : 93 ∉ v6) (hport : Plain port) :
    splitHostPort (91 :: (v6 ++ 93 :: 58 :: port)) = .ok (v6, port) := by
  obtain ⟨hp1, hp2, hp3⟩ := hport
  have hcolon : 91 :: (v6 ++ 93 :: 58 :: port) = (91 :: (v6 ++ [93])) ++ 58 :: port := by simp
  have hclose : indexByte (91 :: (v6 ++ 93 :: 58 :: port)) 93 = some (v6.length + 1) :=
    indexByte_append (by simp [h2] : 93 ∉ 91 :: v6) _
  unfold splitHostPort
  rw [hclose, hcolon, lastIndexByte_append _ hp1]
  dsimp only
  rw [if_pos (by simp), if_neg (by simp), if_pos (by simp)]
  unfold splitPort
  rw [if_neg (by simp [h1, hp2]), if_neg (by simp [hp3])]
  simp [slice]

theorem splitHostPort_bracketed_bare (h1 : 58 ∈ v6) (h2 : 93 ∉ v6) :
    splitHostPort (91 :: (v6 ++ [93])) = .error (missingPort (91 :: (v6 ++ [93]))) := by
  obtain ⟨front, back, rfl, hback⟩ : ∃ front back, v6 = front ++ 58 :: back ∧ 58 ∉ back := by
    obtain ⟨back, front, hrev, hnot⟩ := List.eq_append_cons_of_mem (List.mem_reverse.mpr h1)
    refine ⟨front.reverse, back.reverse, ?_, by simpa using hnot⟩
    rw [← List.reverse_reverse v6, hrev]
    simp
  have hclose : indexByte (91 :: (front ++ 58 :: back ++ [93])) 93 = some ((front ++ 58 :: back).length + 1) :=
    indexByte_append (by simpa using h2 : 93 ∉ 91 :: (front ++ 58 :: back)) []
  have hcolon : 91 :: (front ++ 58 :: back ++ [93]) = (91 :: front) ++ 58 :: (back ++ [93]) := by simp
  unfold splitHostPort
  rw [hclose]
  rw [hcolon, lastIndexByte_append _ (by simpa using hback)]
  dsimp only
  rw [if_pos (by simp), if_pos (by simp; omega)]

end Brackets

end Daxson.Net
