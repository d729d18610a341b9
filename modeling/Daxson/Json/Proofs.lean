import Daxson.Json.Spec

/-! # Reading back what was written

Every text is read with more text behind it, so the lemmas compose as the texts do.
-/

namespace Daxson.Json

/-! ## Runes -/

/-- The bytes of one rune, whatever stands behind them. -/
def Whole (b : Bytes) : Prop := ∀ t, runeLen (b ++ t) = some b.length

theorem Whole.ne_nil {b : Bytes} (h : Whole b) : b ≠ [] := by
  rintro rfl
  cases h []

theorem runeLen_whole {s : Bytes} {n : Nat} (h : runeLen s = some n) :
    n ≤ s.length ∧ Whole (s.take n) := by
  cases s with
  | nil => cases h
  | cons b rest =>
    have hlocal : ∀ k, 0 < k → k ≤ rest.length → ∀ t,
        (rest.take k ++ t).take k = rest.take k ∧ k ≤ (rest.take k ++ t).length ∧
          (rest.take k ++ t).headD 0 = rest.headD 0 := by
      intro k hk hlen t
      refine ⟨by simp [hlen], by simp [hlen], ?_⟩
      cases rest with
      | nil => simp at hlen; omega
      | cons c rest =>
        obtain ⟨k, rfl⟩ : ∃ j, k = j + 1 := ⟨k - 1, by omega⟩
        simp
    unfold runeLen at h
    dsimp only at h
    split_ifs at h with h1 h2 h3 h4 h5 h6 h7 h8 <;> cases h
    · refine ⟨by simp, fun t => ?_⟩
      simp [runeLen, h1]
    · simp only [Bool.and_eq_true, decide_eq_true_eq] at h4
      refine ⟨by simp; omega, fun t => ?_⟩
      obtain ⟨htake, hlen, -⟩ := hlocal 1 (by omega) h4.1 t
      simp only [List.take_succ_cons, List.cons_append, runeLen]
      rw [if_neg h1, if_neg h2, if_pos h3, if_pos]
      · simp [h4.1]
      · simp only [htake, h4.2, Bool.and_true, decide_eq_true_eq]
        exact hlen
    · simp only [Bool.and_eq_true, decide_eq_true_eq] at h6
      obtain ⟨⟨⟨hk, hcont⟩, hlow⟩, hhigh⟩ := h6
      refine ⟨by simp; omega, fun t => ?_⟩
      obtain ⟨htake, hlen, hhead⟩ := hlocal 2 (by omega) hk t
      simp only [List.take_succ_cons, List.cons_append, runeLen]
      rw [if_neg h1, if_neg h2, if_neg h3, if_pos h5, if_pos]
      · simp [hk]
      · simp only [htake, hhead, hcont, hlow, hhigh, Bool.and_true, decide_eq_true_eq]
        exact hlen
    · simp only [Bool.and_eq_true, decide_eq_true_eq] at h8
      obtain ⟨⟨⟨hk, hcont⟩, hlow⟩, hhigh⟩ := h8
      refine ⟨by simp; omega, fun t => ?_⟩
      obtain ⟨htake, hlen, hhead⟩ := hlocal 3 (by omega) hk t
      simp only [List.take_succ_cons, List.cons_append, runeLen]
      rw [if_neg h1, if_neg h2, if_neg h3, if_neg h5, if_pos h7, if_pos]
      · simp [hk]
      · simp only [htake, hhead, hcont, hlow, hhigh, Bool.and_true, decide_eq_true_eq]
        exact hlen

theorem runes_go_fuel {fuel fuel' : Nat} {s : Bytes} (h : s.length ≤ fuel) (h' : s.length ≤ fuel') :
    runes.go fuel s = runes.go fuel' s := by
  induction fuel generalizing fuel' s with
  | zero =>
    obtain rfl : s = [] := by simpa using h
    cases fuel' <;> rfl
  | succ fuel ih =>
    cases s with
    | nil => cases fuel' <;> rfl
    | cons b rest =>
      cases fuel' with
      | zero => simp at h'
      | succ fuel' =>
        simp only [List.length_cons, Nat.add_le_add_iff_right] at h h'
        unfold runes.go
        cases hn : runeLen (b :: rest) with
        | none => simp only [ih h h']
        | some n =>
          have hpos : n ≠ 0 := by
            rintro rfl
            exact (runeLen_whole hn).2.ne_nil rfl
          have hlen : ((b :: rest).drop n).length ≤ rest.length := by simp; omega
          simp only [ih (hlen.trans h) (hlen.trans h')]

@[simp] theorem runes_nil : runes [] = [] := rfl

theorem runes_invalid {b : UInt8} {rest : Bytes} (h : runeLen (b :: rest) = none) :
    runes (b :: rest) = .invalid b :: runes rest := by
  unfold runes
  rw [List.length_cons, runes.go, h]

theorem runes_whole {b : Bytes} (h : Whole b) (t : Bytes) : runes (b ++ t) = .valid b :: runes t := by
  cases b with
  | nil => exact absurd rfl h.ne_nil
  | cons c b =>
    have hlen := h t
    rw [List.cons_append] at hlen ⊢
    unfold runes
    rw [List.length_cons, runes.go, hlen]
    simp only [List.length_cons, List.take_succ_cons, List.take_left, List.drop_succ_cons, List.drop_left]
    exact congrArg _ (runes_go_fuel (by simp) le_rfl)

/-- A byte string is a rune and more, or an invalid byte and more. -/
theorem runes_induction {motive : Bytes → Prop} (nil : motive [])
    (whole : ∀ b t, Whole b → motive t → motive (b ++ t))
    (invalid : ∀ b t, runeLen (b :: t) = none → motive t → motive (b :: t)) (s : Bytes) : motive s := by
  induction hk : s.length using Nat.strong_induction_on generalizing s with
  | _ k ih =>
    cases s with
    | nil => exact nil
    | cons b rest =>
      cases hn : runeLen (b :: rest) with
      | none => exact invalid b rest hn (ih rest.length (by simp [← hk]) rest rfl)
      | some n =>
        obtain ⟨hlen, hw⟩ := runeLen_whole hn
        rw [← List.take_append_drop n (b :: rest)]
        refine whole _ _ hw (ih _ ?_ _ rfl)
        have := List.length_pos_of_ne_nil hw.ne_nil
        simp only [List.length_take, List.length_drop] at this ⊢
        omega

theorem jsonString_eq (s : Bytes) : jsonString s = (runes s).flatMap Rune.image := by
  have hgo : ∀ fuel s, jsonString.go fuel s = (runes.go fuel s).flatMap Rune.image := by
    intro fuel
    induction fuel with
    | zero => intro s; rfl
    | succ fuel ih =>
      intro s
      cases s with
      | nil => rfl
      | cons b rest =>
        unfold jsonString.go runes.go
        cases runeLen (b :: rest) with
        | none => simp only [ih, List.flatMap_cons]; rfl
        | some n => simp only [ih, List.flatMap_cons]; rfl
  exact hgo s.length s

theorem jsonString_valid {s : Bytes} (h : validString s = true) : jsonString s = s := by
  rw [jsonString_eq]
  induction s using runes_induction with
  | nil => rfl
  | whole b t hb ih =>
    simp only [validString, runes_whole hb, List.all_cons, Bool.and_eq_true] at h
    rw [runes_whole hb, List.flatMap_cons, ih h.2]
    rfl
  | invalid b t hb ih => simp [validString, runes_invalid hb, Rune.isValid] at h

/-! ## Strings that were no valid UTF-8 -/

def Rune.Good : Rune → Prop
  | .valid b => Whole b
  | .invalid _ => True

theorem runes_good (s : Bytes) : ∀ r ∈ runes s, r.Good := by
  induction s using runes_induction with
  | nil => simp
  | whole b t hb ih => simpa [runes_whole hb, Rune.Good, hb] using ih
  | invalid b t hb ih => simpa [runes_invalid hb, Rune.Good] using ih

theorem whole_replacement : Whole replacement := by
  intro t
  simp [replacement, runeLen]

/-- The rune that is read where `r` was written. -/
def Rune.repaired : Rune → Rune
  | .valid b => .valid b
  | .invalid _ => .valid replacement

theorem runes_image {rs : List Rune} (h : ∀ r ∈ rs, r.Good) :
    runes (rs.flatMap Rune.image) = rs.map Rune.repaired := by
  induction rs with
  | nil => rfl
  | cons r rs ih =>
    have hw : Whole r.image := by
      cases r with
      | valid b => exact h (.valid b) (by simp)
      | invalid b => exact whole_replacement
    rw [List.flatMap_cons, runes_whole hw, ih fun r hr => h r (by simp [hr])]
    cases r <;> rfl

/-- An invalid byte is written with three bytes more than the rune it is read as. -/
theorem quote_length (s : Bytes) :
    (quote s).length = (quote (jsonString s)).length + 3 * (runes s).countP (!·.isValid) := by
  unfold quote
  rw [jsonString_eq, runes_image (runes_good s)]
  simp only [List.length_append]
  generalize runes s = rs
  have hrs : (rs.flatMap Rune.escape).length =
      ((rs.map Rune.repaired).flatMap Rune.escape).length + 3 * rs.countP (!·.isValid) := by
    induction rs with
    | nil => rfl
    | cons r rs ih =>
      simp only [List.map_cons, List.flatMap_cons, List.length_append, List.countP_cons, ih]
      cases r with
      | valid b => simp [Rune.repaired, Rune.isValid]; omega
      | invalid b =>
        have : (Rune.invalid b).escape.length = (Rune.valid replacement).escape.length + 3 := rfl
        simp only [Rune.repaired, Rune.isValid, this]
        simp
        omega
  omega

theorem validString_iff (s : Bytes) : validString s = true ↔ (runes s).countP (!·.isValid) = 0 := by
  simp [validString, List.countP_eq_zero]

/-! ## A string is read back -/

theorem hexVal_hexDigit (n : UInt8) (h : n < 16) : hexVal (hexDigit n) = some n.toNat := by
  have hall : ∀ n : Nat, n < 16 → hexVal (hexDigit (UInt8.ofNat n)) = some n := by decide
  have hn := hall n.toNat h
  rwa [UInt8.ofNat_toNat] at hn

theorem unescapeUnicode_byte (c : UInt8) (h : c < 0x80) (t : Bytes) :
    unescapeUnicode ([48, 48, hexDigit (c / 16), hexDigit (c % 16)] ++ t) = some ([c], t) := by
  have hc : c.toNat < 128 := h
  have h4 : hex4 ([48, 48, hexDigit (c / 16), hexDigit (c % 16)] ++ t) = some (c.toNat, t) := by
    have hzero : hexVal 48 = some 0 := rfl
    have hhigh := hexVal_hexDigit (c / 16) (by rw [UInt8.lt_iff_toNat_lt]; simp; omega)
    have hlow := hexVal_hexDigit (c % 16) (by rw [UInt8.lt_iff_toNat_lt]; simp; omega)
    simp only [List.cons_append, List.nil_append, hex4, hzero, hhigh, hlow, UInt8.toNat_div, UInt8.toNat_mod]
    congr 2
    simp
    omega
  simp only [unescapeUnicode, h4]
  rw [if_neg (by omega)]
  simp [encodeRune, hc]

theorem escapeByte_unsafe (c : UInt8) (h : c < 0x80) (hsafe : htmlSafe c = false) :
    ∃ e, escapeByte c = 92 :: e ∧ ∀ t, unescape (e ++ t) = some ([c], t) := by
  unfold escapeByte
  rw [if_neg (by simp [hsafe])]
  split_ifs with h1 h2 h3 h4 h5 h6
  · refine ⟨[c], rfl, fun t => ?_⟩
    simp only [unescape, List.cons_append, List.nil_append]
    rw [if_pos (by tauto)]
  all_goals try (subst_vars; exact ⟨_, rfl, fun t => rfl⟩)
  exact ⟨[117, 48, 48, hexDigit (c / 16), hexDigit (c % 16)], rfl, unescapeUnicode_byte c h⟩

theorem Whole.single {c : UInt8} (h : Whole [c]) : c < 0x80 := by
  have hc := h []
  by_contra hge
  simp [runeLen, hge] at hc

theorem Whole.front {c d : UInt8} {b : Bytes} (h : Whole (c :: d :: b)) : ¬ c < 0x80 := by
  intro hlt
  have hc := h []
  simp [runeLen, hlt] at hc

theorem stringBody_whole {b : Bytes} (h : Whole b) (hfront : ∀ c, b.head? = some c → 0x20 ≤ c ∧ c ≠ 34 ∧ c ≠ 92)
    (fuel : Nat) (t : Bytes) :
    stringBody (fuel + 1) (b ++ t) = (stringBody fuel t).map fun (x, rest) => (b ++ x, rest) := by
  have hlen := h t
  cases b with
  | nil => exact absurd rfl h.ne_nil
  | cons c b =>
    obtain ⟨h1, h2, h3⟩ := hfront c rfl
    rw [List.cons_append] at hlen ⊢
    rw [stringBody, if_neg h2, if_neg h3, if_neg (UInt8.not_lt.mpr h1), hlen]
    simp

theorem stringBody_escapeByte {c : UInt8} (h : Whole [c]) (fuel : Nat) (t : Bytes) :
    stringBody (fuel + 1) (escapeByte c ++ t) = (stringBody fuel t).map fun (x, rest) => ([c] ++ x, rest) := by
  cases hsafe : htmlSafe c with
  | true =>
    have heq : escapeByte c = [c] := if_pos hsafe
    rw [heq]
    apply stringBody_whole h
    simp only [htmlSafe, Bool.and_eq_true, decide_eq_true_eq] at hsafe
    intro d hd
    cases hd
    refine ⟨hsafe.1.1, ?_, ?_⟩ <;> rintro rfl <;> exact absurd hsafe.2 (by decide)
  | false =>
    obtain ⟨e, heq, hread⟩ := escapeByte_unsafe c h.single hsafe
    rw [heq, List.cons_append, stringBody, if_neg (by decide), if_pos rfl, hread]

theorem stringBody_rune {r : Rune} (h : r.Good) (fuel : Nat) (t : Bytes) :
    stringBody (fuel + 1) (r.escape ++ t) = (stringBody fuel t).map fun (x, rest) => (r.image ++ x, rest) := by
  match r, h with
  | .invalid _, _ => rfl
  | .valid [], h => exact absurd rfl h.ne_nil
  | .valid [_], h => exact stringBody_escapeByte h fuel t
  | .valid (c :: d :: b), h =>
    have hge : ¬ c < 0x80 := h.front
    rw [Rune.escape.eq_3 _ (by simp)]
    split_ifs with h8 h9
    · rw [h8]
      rfl
    · rw [h9]
      rfl
    · apply stringBody_whole h
      rintro _ ⟨⟩
      refine ⟨UInt8.not_lt.mp fun hlt => hge (UInt8.lt_trans hlt (by decide)), ?_, ?_⟩ <;> rintro rfl <;>
        exact hge (by decide)

theorem stringBody_runes {rs : List Rune} (h : ∀ r ∈ rs, r.Good) (rest : Bytes) {fuel : Nat}
    (hfuel : rs.length < fuel) :
    stringBody fuel (rs.flatMap Rune.escape ++ 34 :: rest) = some (rs.flatMap Rune.image, rest) := by
  induction rs generalizing fuel with
  | nil =>
    obtain ⟨fuel, rfl⟩ : ∃ k, fuel = k + 1 := ⟨fuel - 1, by omega⟩
    rfl
  | cons r rs ih =>
    obtain ⟨fuel, rfl⟩ : ∃ k, fuel = k + 1 := ⟨fuel - 1, by omega⟩
    rw [List.flatMap_cons, List.append_assoc, stringBody_rune (h r (by simp)),
      ih (fun r hr => h r (by simp [hr])) (by simpa using hfuel)]
    rfl

theorem escape_ne_nil {r : Rune} (h : r.Good) : r.escape ≠ [] := by
  intro hnil
  have hread := stringBody_rune h 0 [34]
  rw [hnil] at hread
  cases hread

theorem length_le_escape {rs : List Rune} (h : ∀ r ∈ rs, r.Good) :
    rs.length ≤ (rs.flatMap Rune.escape).length := by
  induction rs with
  | nil => simp
  | cons r rs ih =>
    have hpos := List.length_pos_of_ne_nil (escape_ne_nil (h r (by simp)))
    have := ih fun r hr => h r (by simp [hr])
    simp only [List.flatMap_cons, List.length_cons, List.length_append]
    omega

theorem stringBody_quote (s rest : Bytes) :
    stringBody (((runes s).flatMap Rune.escape ++ 34 :: rest).length + 1)
      ((runes s).flatMap Rune.escape ++ 34 :: rest) = some (jsonString s, rest) := by
  rw [jsonString_eq]
  apply stringBody_runes (runes_good s)
  have := length_le_escape (runes_good s)
  simp only [List.length_append, List.length_cons]
  omega

/-! ## Decimal literals -/

def decimal (m : Nat) : Bytes := (Nat.toDigits 10 m).map fun c => UInt8.ofNat c.toNat

theorem decimal_eq (m : Nat) :
    decimal m = if m < 10 then [UInt8.ofNat (48 + m)] else decimal (m / 10) ++ [UInt8.ofNat (48 + m % 10)] := by
  have hchar : ∀ d, d < 10 → UInt8.ofNat (Nat.digitChar d).toNat = UInt8.ofNat (48 + d) := by decide
  unfold decimal
  rw [Nat.toDigits_eq_if (by decide)]
  split_ifs with h
  · simp [hchar m h]
  · simp [hchar (m % 10) (Nat.mod_lt m (by decide))]

theorem formatInt_eq (x : Int) :
    formatInt x = if x < 0 then 45 :: decimal x.natAbs else decimal x.natAbs := rfl

theorem isDigit_ofNat {d : Nat} (h : d < 10) : isDigit (UInt8.ofNat (48 + d)) = true := by
  have hall : ∀ d, d < 10 → isDigit (UInt8.ofNat (48 + d)) = true := by decide
  exact hall d h

theorem decimal_isDigit (m : Nat) : (decimal m).all isDigit = true := by
  induction m using Nat.strong_induction_on with
  | _ m ih =>
    rw [decimal_eq]
    split_ifs with h
    · simp only [List.all_cons, List.all_nil, isDigit_ofNat h, Bool.and_true]
    · simp only [List.all_append, List.all_cons, List.all_nil, ih (m / 10) (by omega),
        isDigit_ofNat (Nat.mod_lt m (by decide : 0 < 10)), Bool.and_true]

theorem digitsVal_decimal (m : Nat) : digitsVal (decimal m) = m := by
  induction m using Nat.strong_induction_on with
  | _ m ih =>
    have hdigit : ∀ d, d < 10 → (UInt8.ofNat (48 + d)).toNat - 48 = d := by decide
    rw [decimal_eq]
    split_ifs with h
    · simpa [digitsVal] using hdigit m h
    · have hlast := hdigit (m % 10) (Nat.mod_lt m (by decide))
      have hfront := ih (m / 10) (by omega)
      unfold digitsVal at hfront ⊢
      rw [List.foldl_append, hfront, List.foldl_cons, List.foldl_nil, hlast]
      omega

theorem decimal_front (m : Nat) : ∃ d ds, decimal m = d :: ds ∧ isDigit d = true ∧ (d = 48 → ds = []) := by
  induction m using Nat.strong_induction_on with
  | _ m ih =>
    rw [decimal_eq]
    split_ifs with h
    · exact ⟨_, [], rfl, isDigit_ofNat h, fun _ => rfl⟩
    · obtain ⟨d, ds, heq, hd, hzero⟩ := ih (m / 10) (by omega)
      refine ⟨d, ds ++ [UInt8.ofNat (48 + m % 10)], by rw [heq]; rfl, hd, ?_⟩
      intro h0
      -- a lone zero in front would be the number 0
      have hval := digitsVal_decimal (m / 10)
      rw [heq, hzero h0, h0] at hval
      have : m / 10 = 0 := hval.symm
      omega

theorem parseDigits_decimal (m : Nat) : parseDigits (decimal m) = some m := by
  obtain ⟨d, ds, heq, -⟩ := decimal_front m
  unfold parseDigits
  rw [decimal_isDigit, digitsVal_decimal]
  simp [heq]

theorem parseInt_formatInt (x : Int64) : parseInt (formatInt x.toInt) = some x := by
  have hlow := x.le_toInt
  have hhigh := x.toInt_lt
  rw [formatInt_eq]
  unfold parseInt
  split_ifs with hneg hhead hhead
  · rw [List.tail_cons, parseDigits_decimal, Option.bind_some, if_pos (by omega)]
    rw [show -(x.toInt.natAbs : Int) = x.toInt by omega, Int64.ofInt_toInt]
  · simp at hhead
  · obtain ⟨d, ds, heq, hd, -⟩ := decimal_front x.toInt.natAbs
    rw [heq] at hhead
    cases hhead
    cases hd
  · rw [parseDigits_decimal, Option.bind_some, if_pos (by omega)]
    rw [show (x.toInt.natAbs : Int) = x.toInt by omega, Int64.ofInt_toInt]

/-! ## Values and objects are read back -/

/-- Behind a member stands a comma or the closing brace. -/
def Ends (rest : Bytes) : Prop := ∃ r, rest = 44 :: r ∨ rest = 125 :: r

/-- `text` is read as `v` where a member ends. -/
def Reads (text : Bytes) (v : Value) : Prop :=
  ∀ fuel depth rest, Ends rest → value (fuel + 1) depth (text ++ rest) = some (v, rest)

theorem skipSpace_cons (c : UInt8) {t : Bytes} (h : isSpace c = false) : skipSpace (c :: t) = c :: t := by
  simp [skipSpace, h]

theorem reads_quote (s : Bytes) : Reads (quote s) (.str (jsonString s)) := by
  intro fuel depth rest _
  have htext : quote s ++ rest = 34 :: ((runes s).flatMap Rune.escape ++ 34 :: rest) := by simp [quote]
  rw [htext, value, skipSpace_cons _ rfl]
  dsimp only
  rw [if_pos rfl, stringBody_quote]
  rfl

theorem reads_null : Reads (ascii "null") .null := fun _ _ _ _ => rfl

theorem dropWhile_digits {ds rest : Bytes} (h : ds.all isDigit = true) (hrest : Ends rest) :
    (ds ++ rest).dropWhile isDigit = rest := by
  rw [List.dropWhile_append_of_pos (by simpa using h)]
  obtain ⟨r, rfl | rfl⟩ := hrest <;> rfl

theorem afterInt_decimal (m : Nat) {rest : Bytes} (hrest : Ends rest) :
    afterInt (decimal m ++ rest) = some rest := by
  obtain ⟨d, ds, heq, hd, hzero⟩ := decimal_front m
  have hall := decimal_isDigit m
  rw [heq] at hall ⊢
  rw [List.cons_append, afterInt]
  split_ifs with h0
  · rw [hzero h0]
    rfl
  · rw [afterDigits, if_pos hd, dropWhile_digits (by simp at hall ⊢; exact hall.2) hrest]

theorem number_formatInt (x : Int) {rest : Bytes} (hrest : Ends rest) :
    number (formatInt x ++ rest) = some (formatInt x, rest) := by
  have hint : afterInt (afterMinus (formatInt x ++ rest)) = some rest := by
    rw [formatInt_eq]
    split_ifs with hneg
    · exact afterInt_decimal _ hrest
    · obtain ⟨d, ds, heq, hd, -⟩ := decimal_front x.natAbs
      have hminus : d ≠ 45 := by rintro rfl; cases hd
      have := afterInt_decimal x.natAbs hrest
      rw [heq, List.cons_append] at this ⊢
      rwa [afterMinus, if_neg hminus]
  have hrest' : (afterFrac rest).bind afterExp = some rest := by
    obtain ⟨r, rfl | rfl⟩ := hrest <;> rfl
  unfold number
  rw [hint, Option.bind_some, hrest']
  simp

theorem scalar_number {c : UInt8} (hn : c ≠ 110) (ht : c ≠ 116) (hf : c ≠ 102) (text : Bytes) :
    scalar (c :: text) = (number (c :: text)).map fun (literal, rest) => (.num literal, rest) := by
  unfold scalar
  rw [if_neg, if_neg, if_neg]
  · simp [ascii, hf.symm]
  · simp [ascii, ht.symm]
  · simp [ascii, hn.symm]

theorem reads_formatInt (x : Int) : Reads (formatInt x) (.num (formatInt x)) := by
  intro fuel depth rest hrest
  have hnum := number_formatInt x hrest
  obtain ⟨c, text, htext, hc⟩ : ∃ c text, formatInt x = c :: text ∧ (c = 45 ∨ isDigit c = true) := by
    rw [formatInt_eq]
    split_ifs with hneg
    · exact ⟨45, _, rfl, .inl rfl⟩
    · obtain ⟨d, ds, heq, hd, -⟩ := decimal_front x.natAbs
      exact ⟨d, ds, heq, .inr hd⟩
  have hother : ∀ k : UInt8, k ≠ 45 → isDigit k = false → c ≠ k := by
    rintro k hk hdig rfl
    simp [hk, hdig] at hc
  rw [htext, List.cons_append] at hnum ⊢
  have hspace : isSpace c = false := by
    simp [isSpace, hother 32 (by decide) (by decide), hother 9 (by decide) (by decide),
      hother 10 (by decide) (by decide), hother 13 (by decide) (by decide)]
  rw [value, skipSpace_cons c hspace]
  dsimp only
  rw [if_neg (hother 34 (by decide) (by decide)), if_neg (hother 123 (by decide) (by decide)),
    if_neg (hother 91 (by decide) (by decide))]
  rw [scalar_number (hother 110 (by decide) (by decide)) (hother 116 (by decide) (by decide))
    (hother 102 (by decide) (by decide)), hnum]
  rfl

theorem members_member {text : Bytes} {v : Value} (h : Reads text v) (name : Bytes) (fuel depth : Nat) :
    (∀ rest, members (fuel + 2) depth (quote name ++ 58 :: (text ++ 125 :: rest)) =
        some ([(jsonString name, v)], rest)) ∧
      ∀ rest, members (fuel + 2) depth (quote name ++ 58 :: (text ++ 44 :: rest)) =
        (members (fuel + 1) depth rest).map fun (m, r) => ((jsonString name, v) :: m, r) := by
  have hquote : ∀ t, quote name ++ t = 34 :: ((runes name).flatMap Rune.escape ++ 34 :: t) := by
    intro t
    simp [quote]
  constructor
  · intro rest
    rw [hquote, members, skipSpace_cons _ rfl]
    simp only [stringBody_quote, skipSpace_cons 58 rfl, h fuel depth _ ⟨rest, .inr rfl⟩, skipSpace_cons 125 rfl]
  · intro rest
    rw [hquote, members, skipSpace_cons _ rfl]
    simp only [stringBody_quote, skipSpace_cons 58 rfl, h fuel depth _ ⟨rest, .inl rfl⟩, skipSpace_cons 44 rfl]

theorem members_object {fields : List (Bytes × Bytes × Value)} (hne : fields ≠ [])
    (hreads : ∀ f ∈ fields, Reads f.2.1 f.2.2) (depth : Nat) {fuel : Nat} (hfuel : fields.length < fuel) :
    members fuel depth (List.intercalate [44] (fields.map fun f => quote f.1 ++ 58 :: f.2.1) ++ [125]) =
      some (fields.map fun f => (jsonString f.1, f.2.2), []) := by
  induction fields generalizing fuel with
  | nil => exact absurd rfl hne
  | cons f fields ih =>
    obtain ⟨fuel, rfl⟩ : ∃ k, fuel = k + 2 := ⟨fuel - 2, by simp at hfuel; omega⟩
    obtain ⟨hlast, hmore⟩ := members_member (hreads f (by simp)) f.1 fuel depth
    cases fields with
    | nil => simpa using hlast []
    | cons g fields =>
      have ih' := ih (by simp) (fun f hf => hreads f (by simp [hf])) (show _ < fuel + 1 by simpa using hfuel)
      rw [List.map_cons, List.map_cons, List.intercalate_cons_cons]
      rw [List.map_cons] at ih'
      simp only [List.append_assoc, List.cons_append, List.nil_append, hmore] at ih' ⊢
      rw [ih']
      rfl

theorem length_le_members (fields : List (Bytes × Bytes × Value)) :
    fields.length ≤ (List.intercalate [44] (fields.map fun f => quote f.1 ++ 58 :: f.2.1)).length := by
  induction fields with
  | nil => simp
  | cons f fields ih =>
    cases fields with
    | nil => simp; omega
    | cons g fields =>
      rw [List.map_cons, List.map_cons, List.intercalate_cons_cons]
      rw [List.map_cons] at ih
      simp only [List.length_append, List.length_cons] at ih ⊢
      omega

theorem parse_object (fields : List (Bytes × Bytes × Value)) (hne : fields ≠ [])
    (hreads : ∀ f ∈ fields, Reads f.2.1 f.2.2) :
    parse (object (fields.map fun f => (f.1, f.2.1))) =
      some (.obj (fields.map fun f => (jsonString f.1, f.2.2))) := by
  have hobj : object (fields.map fun f => (f.1, f.2.1)) =
      123 :: (List.intercalate [44] (fields.map fun f => quote f.1 ++ 58 :: f.2.1) ++ [125]) := by
    simp [object, Function.comp_def]
  obtain ⟨more, hfront⟩ : ∃ more,
      List.intercalate [44] (fields.map fun f => quote f.1 ++ 58 :: f.2.1) ++ [125] = 34 :: more := by
    cases fields with
    | nil => exact absurd rfl hne
    | cons f fields => cases fields <;> simp [quote, List.intercalate_cons_cons]
  have hmembers := members_object hne hreads 1
    (show _ < (object (fields.map fun f => (f.1, f.2.1))).length by
      have := length_le_members fields
      rw [hobj]
      simp only [List.length_cons, List.length_append]
      omega)
  rw [hfront] at hmembers hobj
  unfold parse
  rw [value]
  simp only [hobj] at hmembers ⊢
  rw [skipSpace_cons _ rfl]
  dsimp only
  rw [if_neg (by decide), if_pos rfl, if_neg (by decide), skipSpace_cons _ rfl]
  simp only [List.length_cons] at hmembers ⊢
  simp [hmembers, skipSpace]

theorem object_length {fields : List (Bytes × Bytes)} (hne : fields ≠ []) :
    (object fields).length = 1 + (fields.map fun f => (quote f.1).length + f.2.length + 2).sum := by
  have hmembers : ∀ fields : List (Bytes × Bytes), fields ≠ [] →
      (List.intercalate [44] (fields.map fun f => quote f.1 ++ 58 :: f.2)).length + 1 =
        (fields.map fun f => (quote f.1).length + f.2.length + 2).sum := by
    intro fields hne
    induction fields with
    | nil => exact absurd rfl hne
    | cons f fields ih =>
      cases fields with
      | nil => simp; omega
      | cons g fields =>
        have ih' := ih (by simp)
        rw [List.map_cons] at ih'
        rw [List.map_cons, List.map_cons, List.intercalate_cons_cons, List.map_cons, List.sum_cons, ← ih']
        simp only [List.length_append, List.length_cons, List.length_nil]
        omega
  have := hmembers fields hne
  simp only [object, List.length_append, List.length_cons, List.length_nil]
  omega

/-! ## Texts without escapes -/

theorem runes_ascii {s : Bytes} (h : ∀ c ∈ s, c < 0x80) : runes s = s.map fun c => .valid [c] := by
  induction s with
  | nil => rfl
  | cons c s ih =>
    have hc : Whole [c] := by
      intro t
      simp [runeLen, h c (by simp)]
    have := runes_whole hc s
    rw [List.singleton_append] at this
    rw [this, ih fun d hd => h d (by simp [hd])]
    rfl

theorem quote_safe {s : Bytes} (h : ∀ c ∈ s, htmlSafe c = true) : quote s = [34] ++ (s ++ [34]) := by
  have hascii : ∀ c ∈ s, c < 0x80 := by
    intro c hc
    have := h c hc
    simp only [htmlSafe, Bool.and_eq_true, decide_eq_true_eq] at this
    exact this.1.2
  unfold quote
  rw [runes_ascii hascii, List.flatMap_map]
  congr 2
  have hescape : ∀ c ∈ s, Rune.escape (.valid [c]) = [c] := by
    intro c hc
    exact if_pos (h c hc)
  rw [List.flatMap_congr hescape]
  simp

end Daxson.Json
