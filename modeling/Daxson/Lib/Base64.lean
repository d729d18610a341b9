import Mathlib.Tactic

/-! # Base64

The decoder reports the offset of the byte that it stumbled over, and ignores the bits behind the last byte.
-/

namespace Lib.Base64

structure Encoding where
  char : Nat → UInt8
  value : UInt8 → Option Nat
  /-- `none` for an encoding without padding. -/
  padChar : Option UInt8
  value_char : ∀ n < 64, value (char n) = some n
  pad_value : ∀ c ∈ padChar, value c = none ∧ c ≠ 10 ∧ c ≠ 13

variable (e : Encoding)

def Encoding.pad (n : Nat) : List UInt8 := e.padChar.toList.flatMap fun c => List.replicate n c

def Encoding.encode : List UInt8 → List UInt8
  | [] => []
  | [a] => [e.char (a.toNat / 4), e.char (a.toNat % 4 * 16)] ++ e.pad 2
  | [a, b] =>
    [e.char (a.toNat / 4), e.char (a.toNat % 4 * 16 + b.toNat / 16), e.char (b.toNat % 16 * 4)] ++ e.pad 1
  | a :: b :: c :: rest =>
    e.char (a.toNat / 4) :: e.char (a.toNat % 4 * 16 + b.toNat / 16) ::
      e.char (b.toNat % 16 * 4 + c.toNat / 64) :: e.char (c.toNat % 64) :: Encoding.encode rest

/-- The bytes of a quantum of two to four digits. -/
def quantum (digits : List Nat) : List UInt8 :=
  let val := digits.getD 0 0 * 2 ^ 18 + digits.getD 1 0 * 2 ^ 12 + digits.getD 2 0 * 2 ^ 6 + digits.getD 3 0
  [UInt8.ofNat (val / 2 ^ 16), UInt8.ofNat (val / 2 ^ 8), UInt8.ofNat val].take (digits.length - 1)

def isNewline (c : UInt8) : Bool := c == 10 || c == 13

/-- Behind the first padding character, at offset `si`, with the digits of the last quantum. -/
def Encoding.decodePadding (src : List UInt8) (si : Nat) (digits : List Nat) : Except Nat (List UInt8) :=
  let finish (src : List UInt8) (si : Nat) : Except Nat (List UInt8) :=
    let rest := src.dropWhile isNewline
    if rest.isEmpty then .ok (quantum digits) else .error (si + (src.length - rest.length))
  if digits.length < 2 then .error (si - 1)
  else if digits.length = 2 then
    -- A second padding character is expected.
    let rest := src.dropWhile isNewline
    let si := si + (src.length - rest.length)
    match rest with
    | [] => .error si
    | c :: rest => if e.padChar = some c then finish rest (si + 1) else .error (si - 1)
  else finish src si

/-- The quantum loop at offset `si`, with the digits of the quantum so far. -/
def Encoding.decodeFrom : List UInt8 → Nat → List Nat → Except Nat (List UInt8)
  | [], si, digits =>
    if digits.length = 0 then .ok []
    else if digits.length = 1 || e.padChar.isSome then .error (si - digits.length)
    else .ok (quantum digits)
  | c :: src, si, digits =>
    match e.value c with
    | some v =>
      if digits.length = 3 then (Encoding.decodeFrom src (si + 1) []).map (quantum (digits ++ [v]) ++ ·)
      else Encoding.decodeFrom src (si + 1) (digits ++ [v])
    | none =>
      if isNewline c then Encoding.decodeFrom src (si + 1) digits
      else if e.padChar = some c then e.decodePadding src (si + 1) digits
      else .error si

def Encoding.decode (src : List UInt8) : Except Nat (List UInt8) := e.decodeFrom src 0 []

/-! ## Decoding what was encoded -/

theorem quantum_four (a b c : UInt8) :
    quantum [a.toNat / 4, a.toNat % 4 * 16 + b.toNat / 16, b.toNat % 16 * 4 + c.toNat / 64, c.toNat % 64] =
      [a, b, c] := by
  have ha := a.toNat_lt
  have hb := b.toNat_lt
  have hc := c.toNat_lt
  simp only [quantum, List.getD_cons_zero, List.getD_cons_succ, List.length_cons, List.length_nil, List.take_succ_cons,
    List.take_zero, List.cons.injEq, and_true]
  refine ⟨?_, ?_, ?_⟩ <;> rw [← UInt8.toNat_inj, UInt8.toNat_ofNat'] <;> omega

theorem quantum_three (a b : UInt8) :
    quantum [a.toNat / 4, a.toNat % 4 * 16 + b.toNat / 16, b.toNat % 16 * 4] = [a, b] := by
  have ha := a.toNat_lt
  have hb := b.toNat_lt
  simp [quantum]
  refine ⟨?_, ?_⟩ <;> rw [← UInt8.toNat_inj, UInt8.toNat_ofNat'] <;> omega

theorem quantum_two (a : UInt8) : quantum [a.toNat / 4, a.toNat % 4 * 16] = [a] := by
  have ha := a.toNat_lt
  simp [quantum]
  rw [← UInt8.toNat_inj, UInt8.toNat_ofNat']
  omega

variable {e}

theorem decodeFrom_digit {v : Nat} (hv : v < 64) (src : List UInt8) (si : Nat) {digits : List Nat}
    (hlen : digits.length < 3) :
    e.decodeFrom (e.char v :: src) si digits = e.decodeFrom src (si + 1) (digits ++ [v]) := by
  rw [Encoding.decodeFrom, e.value_char v hv]
  simp only
  rw [if_neg (by omega)]

theorem decodeFrom_pad (si : Nat) {digits : List Nat} {n : Nat} (hlen : digits.length + n = 4) (hn : n = 1 ∨ n = 2) :
    e.decodeFrom (e.pad n) si digits = .ok (quantum digits) := by
  have hdigits : digits.length = 2 ∨ digits.length = 3 := by omega
  unfold Encoding.pad
  cases hpad : e.padChar with
  | none =>
    rw [Option.toList_none, List.flatMap_nil, Encoding.decodeFrom, hpad, if_neg (by omega), if_neg]
    rcases hdigits with h | h <;> simp [h]
  | some c =>
    obtain ⟨hvalue, hlf, hcr⟩ := e.pad_value c hpad
    have hnl : isNewline c = false := by simp [isNewline, hlf, hcr]
    rcases hn with rfl | rfl
    · have h3 : digits.length = 3 := by omega
      simp [Encoding.decodeFrom, hvalue, hnl, hpad, Encoding.decodePadding, h3]
    · have h2 : digits.length = 2 := by omega
      simp [Encoding.decodeFrom, hvalue, hnl, hpad, Encoding.decodePadding, h2, List.replicate]

theorem decodeFrom_encode (b : List UInt8) (si : Nat) : e.decodeFrom (e.encode b) si [] = .ok b := by
  induction b using Encoding.encode.induct generalizing si with
  | case1 => rfl
  | case2 a =>
    have ha := a.toNat_lt
    rw [Encoding.encode, List.cons_append, List.cons_append, List.nil_append,
      decodeFrom_digit (by omega) _ _ (by decide),
      decodeFrom_digit (by omega) _ _ (by simp), decodeFrom_pad _ (by simp) (.inr rfl)]
    exact congrArg _ (quantum_two a)
  | case3 a b =>
    have ha := a.toNat_lt
    have hb := b.toNat_lt
    rw [Encoding.encode, List.cons_append, List.cons_append, List.cons_append, List.nil_append,
      decodeFrom_digit (by omega) _ _ (by decide), decodeFrom_digit (by omega) _ _ (by simp),
      decodeFrom_digit (by omega) _ _ (by simp), decodeFrom_pad _ (by simp) (.inl rfl)]
    exact congrArg _ (quantum_three a b)
  | case4 a b c rest ih =>
    have ha := a.toNat_lt
    have hb := b.toNat_lt
    have hc := c.toNat_lt
    rw [Encoding.encode, decodeFrom_digit (by omega) _ _ (by decide), decodeFrom_digit (by omega) _ _ (by simp),
      decodeFrom_digit (by omega) _ _ (by simp), Encoding.decodeFrom, e.value_char _ (Nat.mod_lt _ (by decide))]
    simp only [List.nil_append, List.cons_append, List.length_cons, List.length_nil, if_true, ih]
    rw [quantum_four]
    rfl

theorem decode_encode (b : List UInt8) : e.decode (e.encode b) = .ok b := decodeFrom_encode b 0

theorem decodeFrom_foreign (hpad : e.padChar = none) {c : UInt8} (hvalue : e.value c = none) (hnl : isNewline c = false)
    (pre post : List UInt8) (si : Nat) (digits : List Nat) :
    ∃ i, e.decodeFrom (pre ++ c :: post) si digits = .error i := by
  induction pre generalizing si digits with
  | nil =>
    refine ⟨si, ?_⟩
    rw [List.nil_append, Encoding.decodeFrom, hvalue]
    simp [hnl, hpad]
  | cons d pre ih =>
    rw [List.cons_append, Encoding.decodeFrom]
    cases e.value d with
    | none =>
      simp only [hpad, reduceCtorEq, if_false]
      split_ifs
      · exact ih _ _
      · exact ⟨_, rfl⟩
    | some v =>
      dsimp only
      split_ifs
      · obtain ⟨i, hi⟩ := ih (si + 1) []
        exact ⟨i, by rw [hi]; rfl⟩
      · exact ih _ _

/-! ## Characters and padding -/

theorem mem_pad {c : UInt8} {n : Nat} (h : c ∈ e.pad n) : e.padChar = some c := by
  unfold Encoding.pad at h
  cases hp : e.padChar with
  | none => simp [hp] at h
  | some d =>
    simp only [hp, Option.toList_some, List.flatMap_cons, List.flatMap_nil, List.append_nil] at h
    rw [List.eq_of_mem_replicate h]

theorem mem_encode {c : UInt8} {b : List UInt8} (h : c ∈ e.encode b) :
    (∃ n < 64, c = e.char n) ∨ e.padChar = some c := by
  induction b using Encoding.encode.induct with
  | case1 => cases h
  | case2 a =>
    have ha := a.toNat_lt
    simp only [Encoding.encode, List.mem_append, List.mem_cons, List.not_mem_nil, or_false] at h
    rcases h with (h | h) | h
    · exact .inl ⟨_, by omega, h⟩
    · exact .inl ⟨_, by omega, h⟩
    · exact .inr (mem_pad h)
  | case3 a b =>
    have ha := a.toNat_lt
    have hb := b.toNat_lt
    simp only [Encoding.encode, List.mem_append, List.mem_cons, List.not_mem_nil, or_false] at h
    rcases h with (h | h | h) | h
    · exact .inl ⟨_, by omega, h⟩
    · exact .inl ⟨_, by omega, h⟩
    · exact .inl ⟨_, by omega, h⟩
    · exact .inr (mem_pad h)
  | case4 a b c rest ih =>
    have ha := a.toNat_lt
    have hb := b.toNat_lt
    have hc := c.toNat_lt
    simp only [Encoding.encode, List.mem_cons] at h
    rcases h with h | h | h | h | h
    · exact .inl ⟨_, by omega, h⟩
    · exact .inl ⟨_, by omega, h⟩
    · exact .inl ⟨_, by omega, h⟩
    · exact .inl ⟨_, by omega, h⟩
    · exact ih h

/-- A text filled up to whole quanta. -/
def Encoding.repad (e : Encoding) (s : List UInt8) : List UInt8 := s ++ e.pad ((4 - s.length % 4) % 4)

theorem repad_encode (e' : Encoding) (hchar : e'.char = e.char) (hraw : e'.padChar = none) (b : List UInt8) :
    e.repad (e'.encode b) = e.encode b := by
  have hpad : ∀ n, e'.pad n = [] := by simp [Encoding.pad, hraw]
  induction b using Encoding.encode.induct with
  | case1 => simp [Encoding.repad, Encoding.encode, Encoding.pad]
  | case2 a => simp [Encoding.repad, Encoding.encode, hpad, hchar]
  | case3 a b => simp [Encoding.repad, Encoding.encode, hpad, hchar]
  | case4 a b c rest ih =>
    unfold Encoding.repad at ih ⊢
    simp [Encoding.encode, hchar, ← ih, Nat.add_mod_right, Nat.add_assoc]

/-! ## The two alphabets -/

/-- `A`-`Z`, `a`-`z`, `0`-`9`, and then `c62` and `c63`. -/
def charOf (c62 c63 : UInt8) (n : Nat) : UInt8 :=
  if n < 26 then UInt8.ofNat (65 + n)
  else if n < 52 then UInt8.ofNat (71 + n)
  else if n < 62 then UInt8.ofNat (n - 4)
  else if n = 62 then c62
  else c63

def valueOf (c62 c63 : UInt8) (c : UInt8) : Option Nat :=
  if 65 ≤ c ∧ c ≤ 90 then some (c.toNat - 65)
  else if 97 ≤ c ∧ c ≤ 122 then some (c.toNat - 71)
  else if 48 ≤ c ∧ c ≤ 57 then some (c.toNat + 4)
  else if c = c62 then some 62
  else if c = c63 then some 63
  else none

/-- With `+` and `/`, padded. -/
def std : Encoding where
  char := charOf 43 47
  value := valueOf 43 47
  padChar := some 61
  value_char := by decide
  pad_value := by
    rintro _ ⟨⟩
    decide

/-- With `-` and `_`, padded. -/
def url : Encoding where
  char := charOf 45 95
  value := valueOf 45 95
  padChar := some 61
  value_char := by decide
  pad_value := by
    rintro _ ⟨⟩
    decide

/-- With `-` and `_`, not padded. -/
def rawURL : Encoding where
  char := charOf 45 95
  value := valueOf 45 95
  padChar := none
  value_char := by decide
  pad_value := by simp

end Lib.Base64
