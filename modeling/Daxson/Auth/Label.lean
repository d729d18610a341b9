import Daxson.Auth.Spec
import Daxson.Json.Proofs

/-! # The label of a bootstrap request

`BootstrapClient` cuts the label after 64 bytes, wherever a character ends.
-/

namespace Daxson.Json

/-! ## Cutting a text -/

def isContinuation (b : UInt8) : Bool := 0x80 ≤ b && b ≤ 0xBF

theorem whole_continuation {c : UInt8} {rest : Bytes} (h : Whole (c :: rest)) :
    isContinuation c = false ∧ ∀ x ∈ rest, isContinuation x = true := by
  have hlen := h []
  rw [List.append_nil] at hlen
  have htail : ∀ k, rest.length = k → ((rest.take k).all fun x => 0x80 ≤ x && x ≤ 0xBF) = true →
      ∀ x ∈ rest, isContinuation x = true := by
    rintro k rfl hall
    rw [List.take_length, List.all_eq_true] at hall
    exact hall
  have hlead : ¬ c < 0xC2 → isContinuation c = false := by
    intro hc
    simp only [isContinuation, Bool.and_eq_false_iff, decide_eq_false_iff_not]
    rw [UInt8.lt_iff_toNat_lt] at hc
    rw [UInt8.le_iff_toNat_le, UInt8.le_iff_toNat_le]
    simp only [UInt8.reduceToNat] at hc ⊢
    omega
  unfold runeLen at hlen
  dsimp only at hlen
  split_ifs at hlen with h1 h2 h3 h4 h5 h6 h7 h8 <;>
    simp only [List.length_cons, Option.some.injEq] at hlen
  · refine ⟨by simp [isContinuation, h1], ?_⟩
    simp [show rest = [] from List.length_eq_zero_iff.mp (by omega)]
  · simp only [Bool.and_eq_true] at h4
    exact ⟨hlead h2, htail 1 (by omega) h4.2⟩
  · simp only [Bool.and_eq_true] at h6
    exact ⟨hlead h2, htail 2 (by omega) h6.1.1.2⟩
  · simp only [Bool.and_eq_true] at h8
    exact ⟨hlead h2, htail 3 (by omega) h8.1.1.2⟩

theorem runeLen_cut {b : Bytes} (h : Whole b) {k : Nat} (hk : k < b.length) : runeLen (b.take k) = none := by
  cases hn : runeLen (b.take k) with
  | none => rfl
  | some n =>
    obtain ⟨hle, hwhole⟩ := runeLen_whole hn
    have hfront : (b.take k).take n ++ b.drop n = b := by
      rw [List.take_take, Nat.min_eq_left (by simp at hle; omega), List.take_append_drop]
    have hshort := hwhole (b.drop n)
    have hlong := h []
    rw [hfront] at hshort
    rw [List.append_nil, hshort] at hlong
    simp only [Option.some.injEq, List.length_take] at hlong hle
    omega

theorem validString_whole {b : Bytes} (h : Whole b) (t : Bytes) : validString (b ++ t) = validString t := by
  unfold validString
  rw [runes_whole h]
  rfl

theorem validString_invalid {b : UInt8} {rest : Bytes} (h : runeLen (b :: rest) = none) :
    validString (b :: rest) = false := by
  unfold validString
  rw [runes_invalid h]
  rfl

theorem validString_take_iff {s : Bytes} (h : validString s = true) (k : Nat) :
    validString (s.take k) = true ↔ ∀ b, s[k]? = some b → isContinuation b = false := by
  induction s using runes_induction generalizing k with
  | nil => simp [validString]
  | invalid b t hb ih =>
    rw [validString_invalid hb] at h
    cases h
  | whole b t hb ih =>
    rw [validString_whole hb] at h
    obtain ⟨c, rest, rfl⟩ := List.exists_cons_of_ne_nil hb.ne_nil
    obtain ⟨hlead, hrest⟩ := whole_continuation hb
    rcases Nat.lt_or_ge k (c :: rest).length with hk | hk
    · rw [List.take_append_of_le_length hk.le, List.getElem?_append_left hk]
      cases k with
      | zero => simpa [validString] using hlead
      | succ k =>
        -- The cut is inside the rune.
        have hcut := runeLen_cut hb hk
        rw [List.take_succ_cons] at hcut ⊢
        rw [validString_invalid hcut]
        simp only [List.length_cons, Nat.add_lt_add_iff_right] at hk
        simp [List.getElem?_eq_getElem hk, hrest _ (List.getElem_mem hk)]
    · rw [List.take_append, List.take_of_length_le hk, validString_whole hb, List.getElem?_append_right hk]
      exact ih h _

end Daxson.Json

namespace Daxson.Auth

open Invite Json

/-! ## What the registry is given -/

theorem nullTrimBytes_copyArr {s : Bytes} {n : Nat} (h : 0 ∉ s) :
    nullTrimBytes (copyArr n (s.take n)).val = s.take n := by
  have hkeep : ∀ b ∈ s.take n, (b != 0) = true := by
    intro b hb
    rw [bne_iff_ne]
    rintro rfl
    exact h (List.mem_of_mem_take hb)
  unfold nullTrimBytes copyArr
  dsimp only
  rw [List.take_take, Nat.min_self, List.takeWhile_append_of_pos hkeep]
  simp

theorem bootstrapServerHandshake_label (cr : Crypto) (env : ServerEnv) (reg : Registry) (c : NetConn)
    (q : BootstrapRequest) (rest : Bytes) (h : c.rx.content = q.marshal.tail ++ rest)
    (hversion : q.version = msgTypeBootstrap) :
    (bootstrapServerHandshake cr env [msgTypeBootstrap] reg c).2.2 =
      (reg.bootstrap cr env.now env.save q.token.val q.devicePub.val (nullTrimBytes q.label.val)).2 := by
  have hlen : q.marshal.tail.length = bootstrapRequestSize - 1 := by simp [bootstrapRequestSize]
  obtain ⟨rx, hread, -⟩ := readFull_ok (bootstrapRequestSize - 1) c.rx (by rw [h, List.length_append, hlen]; omega)
  have hfull : [msgTypeBootstrap] ++ c.rx.content.take (bootstrapRequestSize - 1) = q.marshal := by
    rw [h, ← hlen, List.take_left, ← hversion]
    rfl
  unfold bootstrapServerHandshake
  rw [hread]
  dsimp only
  rw [hfull]
  unfold bootstrapAnswer
  rw [unmarshalBootstrapRequest_marshal]
  dsimp only
  split
  · rfl
  · split_ifs <;> rfl

/-- The label that arrives is valid, and whole or cut, exactly when no character straddles the 64th byte. -/
theorem label_passed_valid_iff (token : Bytes) (kp : KeyPair) (label : Bytes) (cenv : ClientEnv)
    (hutf8 : validString label = true) (hnul : 0 ∉ label) :
    ∃ passed : Bytes,
      (∀ (cr : Crypto) (env : ServerEnv) (reg : Registry) (c : NetConn) (rest : Bytes),
        c.rx.content = (bootstrapRequest token kp label cenv).marshal.tail ++ rest →
        (bootstrapServerHandshake cr env [msgTypeBootstrap] reg c).2.2 =
          (reg.bootstrap cr env.now env.save (copyArr 32 token).val kp.publicKey.val passed).2) ∧
      ((validString passed = true ∧ (label.length ≤ 64 → passed = label) ∧ (64 < label.length → passed <+: label)) ↔
        ∀ b, label[64]? = some b → isContinuation b = false) := by
  refine ⟨label.take 64, ?_, ?_⟩
  · intro cr env reg c rest hc
    have hpassed := bootstrapServerHandshake_label cr env reg c (bootstrapRequest token kp label cenv) rest hc rfl
    have hlabel : nullTrimBytes (bootstrapRequest token kp label cenv).label.val = label.take 64 :=
      nullTrimBytes_copyArr hnul
    have hkey : (bootstrapRequest token kp label cenv).devicePub.val = kp.publicKey.val :=
      congrArg Subtype.val (copyArr_val kp.publicKey)
    rw [hlabel, hkey] at hpassed
    exact hpassed
  · rw [← validString_take_iff hutf8 64]
    constructor
    · intro h
      exact h.1
    · intro hvalid
      exact ⟨hvalid, List.take_of_length_le, fun _ => List.take_prefix 64 label⟩

def someKeys : KeyPair := ⟨copyArr 32 [7], copyArr 64 [9]⟩

def plainEnv : ServerEnv := { now := 0, sid := copyArr 16 [], failBytes := copyArr 16 [] }

def labelled (label : Bytes) : BootstrapRequest :=
  bootstrapRequest [5] someKeys label { now := 0, nonce := copyArr 16 [] }

theorem label_passed_valid_short :
    validString (ascii "laptop") = true ∧
      (bootstrapServerHandshake hashCrypto plainEnv [msgTypeBootstrap] {}
        { rx := { chunks := [(labelled (ascii "laptop")).marshal.tail], fin := .eof } }).2.2 =
      (Registry.bootstrap hashCrypto 0 .ok (copyArr 32 [5]).val someKeys.publicKey.val (ascii "laptop") {}).2 := by
  have hascii : validString (ascii "laptop") = true ∧ 0 ∉ ascii "laptop" := by decide +kernel
  obtain ⟨passed, hpassed, hiff⟩ := label_passed_valid_iff [5] someKeys (ascii "laptop")
    { now := 0, nonce := copyArr 16 [] } hascii.1 hascii.2
  have hnone : (ascii "laptop")[64]? = none := by decide +kernel
  obtain ⟨hvalid, hwhole, -⟩ := hiff.mpr (by simp [hnone])
  obtain rfl := hwhole (by decide +kernel)
  exact ⟨hvalid, hpassed hashCrypto plainEnv {} _ [] (by simp [Lib.Reader.content, labelled])⟩

theorem label_cut_inside_character :
    let label := List.replicate 63 0x61 ++ [0xC3, 0xA9]
    let reg : Registry := { data := { invites := [Registry.newInvite hashCrypto 0 (copyArr 32 [5]).val [] 1 0] } }
    let after := (bootstrapServerHandshake hashCrypto plainEnv [msgTypeBootstrap] reg
      { rx := { chunks := [(labelled label).marshal.tail], fin := .eof } }).2.2
    validString label = true ∧ 0 ∉ label ∧
      after.data.devices.map (·.label) = [List.replicate 63 0x61 ++ [0xC3]] ∧
      validString (List.replicate 63 0x61 ++ [0xC3]) = false := by
  decide +kernel

end Daxson.Auth
