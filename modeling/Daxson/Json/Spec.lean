import Daxson.Go

/-! # JSON as `encoding/json` writes and reads it

The reader is one pass over the text. An error of the scanner is `none`.
-/

namespace Daxson.Json

/-! ## Runes -/

/-- A rune, or a byte that is no part of one. -/
inductive Rune where
  | valid (b : Bytes)
  | invalid (b : UInt8)
  deriving DecidableEq, Repr

/-- What `utf8.DecodeRune` finds from front to back. -/
def runes (s : Bytes) : List Rune := go s.length s
where
  go : Nat → Bytes → List Rune
    | 0, _ => []
    | _ + 1, [] => []
    | fuel + 1, b :: rest =>
      match runeLen (b :: rest) with
      | some n => .valid ((b :: rest).take n) :: go fuel ((b :: rest).drop n)
      | none => .invalid b :: go fuel rest

def Rune.isValid : Rune → Bool
  | .valid _ => true
  | .invalid _ => false

/-- `utf8.ValidString`. -/
def validString (s : Bytes) : Bool := (runes s).all Rune.isValid

def replacement : Bytes := [0xEF, 0xBF, 0xBD]

/-- The bytes that a rune comes back as. -/
def Rune.image : Rune → Bytes
  | .valid b => b
  | .invalid _ => replacement

/-! ## Writing -/

/-- `htmlSafeSet`. -/
def htmlSafe (b : UInt8) : Bool := 0x20 ≤ b && b < 0x80 && !([34, 38, 60, 62, 92] : Bytes).contains b

def escapeByte (b : UInt8) : Bytes :=
  if htmlSafe b then [b]
  else if b = 92 ∨ b = 34 then [92, b]
  else if b = 8 then ascii "\\b"
  else if b = 12 then ascii "\\f"
  else if b = 10 then ascii "\\n"
  else if b = 13 then ascii "\\r"
  else if b = 9 then ascii "\\t"
  else ascii "\\u00" ++ [hexDigit (b / 16), hexDigit (b % 16)]

def Rune.escape : Rune → Bytes
  | .invalid _ => ascii "\\ufffd"
  | .valid [c] => escapeByte c
  | .valid b =>
    if b = [0xE2, 0x80, 0xA8] then ascii "\\u2028"
    else if b = [0xE2, 0x80, 0xA9] then ascii "\\u2029"
    else b

/-- `appendString`, with HTML escaping. -/
def quote (s : Bytes) : Bytes := [34] ++ ((runes s).flatMap Rune.escape ++ [34])

/-- A struct, with the texts of the fields that are not left out. -/
def object (fields : List (Bytes × Bytes)) : Bytes :=
  [123] ++ (List.intercalate [44] (fields.map fun (name, text) => quote name ++ 58 :: text) ++ [125])

/-! ## Reading -/

inductive Value where
  | null
  | bool (b : Bool)
  | num (literal : Bytes)
  | str (s : Bytes)
  | arr (items : List Value)
  | obj (members : List (Bytes × Value))
  deriving Repr

def hexVal (c : UInt8) : Option Nat :=
  if 48 ≤ c ∧ c ≤ 57 then some (c.toNat - 48)
  else if 97 ≤ c ∧ c ≤ 102 then some (c.toNat - 87)
  else if 65 ≤ c ∧ c ≤ 70 then some (c.toNat - 55)
  else none

def hex4 : Bytes → Option (Nat × Bytes)
  | a :: b :: c :: d :: rest =>
    match hexVal a, hexVal b, hexVal c, hexVal d with
    | some a, some b, some c, some d => some (((a * 16 + b) * 16 + c) * 16 + d, rest)
    | _, _, _, _ => none
  | _ => none

/-- `utf8.EncodeRune`. -/
def encodeRune (r : Nat) : Bytes :=
  let tail (k : Nat) := UInt8.ofNat (0x80 + r / 64 ^ k % 64)
  if r < 0x80 then [UInt8.ofNat r]
  else if r < 0x800 then [UInt8.ofNat (0xC0 + r / 64), tail 0]
  else if r < 0x10000 then [UInt8.ofNat (0xE0 + r / 64 ^ 2), tail 1, tail 0]
  else [UInt8.ofNat (0xF0 + r / 64 ^ 3), tail 2, tail 1, tail 0]

/-- Behind `\u`: a surrogate stands for a rune only together with its other half. -/
def unescapeUnicode (s : Bytes) : Option (Bytes × Bytes) :=
  match hex4 s with
  | none => none
  | some (r, rest) =>
    if 0xD800 ≤ r ∧ r < 0xE000 then
      match rest with
      | 92 :: 117 :: more =>
        match hex4 more with
        | some (r', rest') =>
          if r < 0xDC00 ∧ 0xDC00 ≤ r' ∧ r' < 0xE000 then
            some (encodeRune (0x10000 + (r - 0xD800) * 0x400 + (r' - 0xDC00)), rest')
          else some (replacement, rest)
        | none => some (replacement, rest)
      | _ => some (replacement, rest)
    else some (encodeRune r, rest)

/-- Behind a backslash. -/
def unescape : Bytes → Option (Bytes × Bytes)
  | [] => none
  | c :: rest =>
    if c = 34 ∨ c = 92 ∨ c = 47 then some ([c], rest)
    else if c = 98 then some ([8], rest)
    else if c = 102 then some ([12], rest)
    else if c = 110 then some ([10], rest)
    else if c = 114 then some ([13], rest)
    else if c = 116 then some ([9], rest)
    else if c = 117 then unescapeUnicode rest
    else none

/-- A string behind its opening quote, unquoted. -/
def stringBody : Nat → Bytes → Option (Bytes × Bytes)
  | 0, _ => none
  | _ + 1, [] => none
  | fuel + 1, c :: rest =>
    if c = 34 then some ([], rest)
    else if c = 92 then
      match unescape rest with
      | none => none
      | some (b, rest) => (stringBody fuel rest).map fun (x, r) => (b ++ x, r)
    else if c < 0x20 then none
    else
      match runeLen (c :: rest) with
      | some n => (stringBody fuel ((c :: rest).drop n)).map fun (x, r) => ((c :: rest).take n ++ x, r)
      | none => (stringBody fuel rest).map fun (x, r) => (replacement ++ x, r)

def isDigit (c : UInt8) : Bool := 48 ≤ c && c ≤ 57

def afterDigits : Bytes → Option Bytes
  | [] => none
  | d :: rest => if isDigit d then some (rest.dropWhile isDigit) else none

def afterMinus : Bytes → Bytes
  | [] => []
  | c :: rest => if c = 45 then rest else c :: rest

/-- Past the integer part, which has no leading zero. -/
def afterInt : Bytes → Option Bytes
  | [] => none
  | d :: rest => if d = 48 then some rest else afterDigits (d :: rest)

def afterFrac : Bytes → Option Bytes
  | [] => some []
  | c :: rest => if c = 46 then afterDigits rest else some (c :: rest)

def afterSign : Bytes → Bytes
  | [] => []
  | c :: rest => if c = 43 ∨ c = 45 then rest else c :: rest

def afterExp : Bytes → Option Bytes
  | [] => some []
  | c :: rest => if c = 101 ∨ c = 69 then afterDigits (afterSign rest) else some (c :: rest)

def number (s : Bytes) : Option (Bytes × Bytes) :=
  (((afterInt (afterMinus s)).bind afterFrac).bind afterExp).map fun rest =>
    (s.take (s.length - rest.length), rest)

def isSpace (c : UInt8) : Bool := c = 32 || c = 9 || c = 10 || c = 13

def skipSpace (s : Bytes) : Bytes := s.dropWhile isSpace

def scalar (s : Bytes) : Option (Value × Bytes) :=
  if (ascii "null").isPrefixOf s then some (.null, s.drop 4)
  else if (ascii "true").isPrefixOf s then some (.bool true, s.drop 4)
  else if (ascii "false").isPrefixOf s then some (.bool false, s.drop 5)
  else (number s).map fun (literal, rest) => (.num literal, rest)

def maxNestingDepth : Nat := 10000

mutual

def value : Nat → Nat → Bytes → Option (Value × Bytes)
  | 0, _, _ => none
  | fuel + 1, depth, s =>
    match skipSpace s with
    | [] => none
    | c :: rest =>
      if c = 34 then (stringBody (rest.length + 1) rest).map fun (x, r) => (.str x, r)
      else if c = 123 then
        if maxNestingDepth ≤ depth then none
        else
          match skipSpace rest with
          | 125 :: rest => some (.obj [], rest)
          | rest => (members fuel (depth + 1) rest).map fun (m, r) => (.obj m, r)
      else if c = 91 then
        if maxNestingDepth ≤ depth then none
        else
          match skipSpace rest with
          | 93 :: rest => some (.arr [], rest)
          | rest => (items fuel (depth + 1) rest).map fun (l, r) => (.arr l, r)
      else scalar (c :: rest)

/-- The members of an object, up to its closing brace. -/
def members : Nat → Nat → Bytes → Option (List (Bytes × Value) × Bytes)
  | 0, _, _ => none
  | fuel + 1, depth, s =>
    match skipSpace s with
    | 34 :: rest =>
      match stringBody (rest.length + 1) rest with
      | none => none
      | some (key, rest) =>
        match skipSpace rest with
        | 58 :: rest =>
          match value fuel depth rest with
          | none => none
          | some (v, rest) =>
            match skipSpace rest with
            | 125 :: rest => some ([(key, v)], rest)
            | 44 :: rest => (members fuel depth rest).map fun (m, r) => ((key, v) :: m, r)
            | _ => none
        | _ => none
    | _ => none

/-- The items of an array, up to its closing bracket. -/
def items : Nat → Nat → Bytes → Option (List Value × Bytes)
  | 0, _, _ => none
  | fuel + 1, depth, s =>
    match value fuel depth s with
    | none => none
    | some (v, rest) =>
      match skipSpace rest with
      | 93 :: rest => some ([v], rest)
      | 44 :: rest => (items fuel depth rest).map fun (l, r) => (v :: l, r)
      | _ => none

end

/-- The one value of a text. Each round takes a byte, so the length is enough fuel. -/
def parse (s : Bytes) : Option Value :=
  match value (s.length + 1) 0 s with
  | some (v, rest) => if (skipSpace rest).isEmpty then some v else none
  | none => none

/-! ## Literals as integers -/

def digitsVal (ds : Bytes) : Nat := ds.foldl (fun v c => 10 * v + (c.toNat - 48)) 0

/-- `strconv.ParseUint(s, 10, 64)` without its range check. -/
def parseDigits (ds : Bytes) : Option Nat :=
  if ds.isEmpty || !ds.all isDigit then none else some (digitsVal ds)

/-- `strconv.ParseInt(s, 10, 64)`. -/
def parseInt (literal : Bytes) : Option Int64 :=
  if literal.head? = some 45 then
    (parseDigits literal.tail).bind fun v => if v ≤ 2 ^ 63 then some (Int64.ofInt (-v)) else none
  else (parseDigits literal).bind fun v => if v < 2 ^ 63 then some (Int64.ofInt v) else none

/-- `strconv.ParseUint` into a byte. -/
def parseByte (literal : Bytes) : Option UInt8 :=
  (parseDigits literal).bind fun v => if v ≤ 255 then some (UInt8.ofNat v) else none

end Daxson.Json
