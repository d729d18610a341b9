import Daxson.Lib.BigEndian

/-! # SHA-256 and HMAC-SHA256

Written so that it runs. The proofs that use it need the digest length only.
-/

namespace Lib.Sha256

open Lib.BigEndian

structure Words where
  a : UInt32
  b : UInt32
  c : UInt32
  d : UInt32
  e : UInt32
  f : UInt32
  g : UInt32
  h : UInt32
  deriving DecidableEq, Repr

def initial : Words :=
  ⟨0x6a09e667, 0xbb67ae85, 0x3c6ef372, 0xa54ff53a, 0x510e527f, 0x9b05688c, 0x1f83d9ab, 0x5be0cd19⟩

def roundConstants : List UInt32 :=
  [0x428a2f98, 0x71374491, 0xb5c0fbcf, 0xe9b5dba5, 0x3956c25b, 0x59f111f1, 0x923f82a4, 0xab1c5ed5,
   0xd807aa98, 0x12835b01, 0x243185be, 0x550c7dc3, 0x72be5d74, 0x80deb1fe, 0x9bdc06a7, 0xc19bf174,
   0xe49b69c1, 0xefbe4786, 0x0fc19dc6, 0x240ca1cc, 0x2de92c6f, 0x4a7484aa, 0x5cb0a9dc, 0x76f988da,
   0x983e5152, 0xa831c66d, 0xb00327c8, 0xbf597fc7, 0xc6e00bf3, 0xd5a79147, 0x06ca6351, 0x14292967,
   0x27b70a85, 0x2e1b2138, 0x4d2c6dfc, 0x53380d13, 0x650a7354, 0x766a0abb, 0x81c2c92e, 0x92722c85,
   0xa2bfe8a1, 0xa81a664b, 0xc24b8b70, 0xc76c51a3, 0xd192e819, 0xd6990624, 0xf40e3585, 0x106aa070,
   0x19a4c116, 0x1e376c08, 0x2748774c, 0x34b0bcb5, 0x391c0cb3, 0x4ed8aa4a, 0x5b9cca4f, 0x682e6ff3,
   0x748f82ee, 0x78a5636f, 0x84c87814, 0x8cc70208, 0x90befffa, 0xa4506ceb, 0xbef9a3f7, 0xc67178f2]

def rotr (x : UInt32) (n : UInt32) : UInt32 := (x >>> n) ||| (x <<< (32 - n))

/-- The message with its end mark and its bit length, a whole number of 64-byte blocks. -/
def pad (msg : List UInt8) : List UInt8 :=
  msg ++ 0x80 :: List.replicate ((119 - msg.length % 64) % 64) 0 ++ beBytes 8 (8 * msg.length)

def wordsOf : List UInt8 → List UInt32
  | a :: b :: c :: d :: rest => UInt32.ofNat (beVal [a, b, c, d]) :: wordsOf rest
  | _ => []

/-- One more word of the schedule, from the last sixteen. -/
def nextWord (w : List UInt32) : UInt32 :=
  let x := w.getD (w.length - 15) 0
  let y := w.getD (w.length - 2) 0
  let s0 := rotr x 7 ^^^ rotr x 18 ^^^ (x >>> 3)
  let s1 := rotr y 17 ^^^ rotr y 19 ^^^ (y >>> 10)
  w.getD (w.length - 16) 0 + s0 + w.getD (w.length - 7) 0 + s1

def schedule (block : List UInt8) : List UInt32 :=
  (List.range 48).foldl (fun w _ => w ++ [nextWord w]) (wordsOf block)

def round (v : Words) (kw : UInt32 × UInt32) : Words :=
  let s1 := rotr v.e 6 ^^^ rotr v.e 11 ^^^ rotr v.e 25
  let ch := (v.e &&& v.f) ^^^ (~~~v.e &&& v.g)
  let t1 := v.h + s1 + ch + kw.1 + kw.2
  let s0 := rotr v.a 2 ^^^ rotr v.a 13 ^^^ rotr v.a 22
  let maj := (v.a &&& v.b) ^^^ (v.a &&& v.c) ^^^ (v.b &&& v.c)
  ⟨t1 + (s0 + maj), v.a, v.b, v.c, v.d + t1, v.e, v.f, v.g⟩

def compress (h : Words) (block : List UInt8) : Words :=
  let v := (roundConstants.zip (schedule block)).foldl round h
  ⟨h.a + v.a, h.b + v.b, h.c + v.c, h.d + v.d, h.e + v.e, h.f + v.f, h.g + v.g, h.h + v.h⟩

def blocks : Nat → List UInt8 → List (List UInt8)
  | 0, _ => []
  | n + 1, l => l.take 64 :: blocks n (l.drop 64)

def sum256 (msg : List UInt8) : List UInt8 :=
  let p := pad msg
  let h := (blocks (p.length / 64) p).foldl compress initial
  [h.a, h.b, h.c, h.d, h.e, h.f, h.g, h.h].flatMap fun x => beBytes 4 x.toNat

@[simp] theorem sum256_length (msg : List UInt8) : (sum256 msg).length = 32 := by
  simp [sum256]

example : sum256 [] = beBytes 32 0xe3b0c44298fc1c149afbf4c8996fb92427ae41e4649b934ca495991b7852b855 := by
  decide +kernel

def blockKey (key : List UInt8) : List UInt8 :=
  let k := if 64 < key.length then sum256 key else key
  k ++ List.replicate (64 - k.length) 0

def hmac (key msg : List UInt8) : List UInt8 :=
  let k := blockKey key
  sum256 (k.map (· ^^^ 0x5c) ++ sum256 (k.map (· ^^^ 0x36) ++ msg))

@[simp] theorem hmac_length (key msg : List UInt8) : (hmac key msg).length = 32 := by
  simp [hmac]

end Lib.Sha256
