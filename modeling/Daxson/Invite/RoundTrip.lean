import Daxson.Invite.Link
import Daxson.Json.Proofs

/-! # A signed link verifies

The length tells apart two payloads whose strings are read as the same runes.
-/

open Lib

namespace Daxson.Invite

open Json (Reads jsonString_valid quote_safe quote_length validString runes)

/-! ## Unmarshalling what was marshalled -/

def bytesValue : GoSlice → Json.Value
  | none => .null
  | some b => .str (Base64.std.encode b)

/-- What the member of a field is read as. -/
def Payload.value (p : Payload) : Field → Json.Value
  | .version => .num (formatInt p.version.toInt)
  | .server => .str (jsonString p.server)
  | .serverKey => bytesValue p.serverKey
  | .token => bytesValue p.token
  | .label => .str (jsonString p.label)
  | .maxUses => .num (formatInt p.maxUses.toInt)
  | .expiresAt => .num (formatInt p.expiresAt.toInt)
  | .sig => bytesValue p.sig

theorem htmlSafe_encode (b : Bytes) : ∀ c ∈ Base64.std.encode b, Json.htmlSafe c = true := by
  intro c hc
  have hchar : ∀ n < 64, Json.htmlSafe (Base64.std.char n) = true := by decide
  rcases Base64.mem_encode hc with ⟨n, hn, rfl⟩ | hpad
  · exact hchar n hn
  · cases hpad
    rfl

theorem reads_bytesText (s : GoSlice) : Reads (bytesText s) (bytesValue s) := by
  cases s with
  | none => exact Json.reads_null
  | some b =>
    have hsafe := htmlSafe_encode b
    have hread := Json.reads_quote (Base64.std.encode b)
    rw [quote_safe hsafe, jsonString_ascii] at hread
    · exact hread
    · intro c hc
      have := hsafe c hc
      simp only [Json.htmlSafe, Bool.and_eq_true, decide_eq_true_eq] at this
      exact this.1.2

theorem mem_omitEmpty {empty : Bool} {f : Field} {text : Bytes} {m : Field × Bytes}
    (h : m ∈ omitEmpty empty f text) : m = (f, text) := by
  unfold omitEmpty at h
  split_ifs at h
  · cases h
  · simpa using h

theorem members_reads (p : Payload) : ∀ m ∈ p.members, Reads m.2 (p.value m.1) := by
  intro m hm
  simp only [Payload.members, List.mem_cons, List.mem_append] at hm
  rcases hm with rfl | rfl | rfl | rfl | hm | hm | hm | hm
  · exact Json.reads_formatInt _
  · exact Json.reads_quote _
  · exact reads_bytesText _
  · exact reads_bytesText _
  · rw [mem_omitEmpty hm]
    exact Json.reads_quote _
  · rw [mem_omitEmpty hm]
    exact Json.reads_formatInt _
  · rw [mem_omitEmpty hm]
    exact Json.reads_formatInt _
  · rw [mem_omitEmpty hm]
    exact reads_bytesText _

theorem Field.name_ascii (f : Field) : jsonString f.name = f.name := by
  cases f <;> decide +kernel

theorem Field.ofKey_name (f : Field) : Field.ofKey f.name = some f := by
  cases f <;> decide +kernel

theorem parse_marshal (p : Payload) :
    Json.parse p.marshal = some (.obj (p.members.map fun m => (m.1.name, p.value m.1))) := by
  have hparse := Json.parse_object (p.members.map fun m => (m.1.name, m.2, p.value m.1))
    (by simp [Payload.members]) (by
      intro f hf
      obtain ⟨m, hm, rfl⟩ := List.mem_map.mp hf
      exact members_reads p m hm)
  simp only [List.map_map, Function.comp_def, Field.name_ascii] at hparse
  exact hparse

/-- The value of a field, put into another payload. -/
def Payload.copy (q : Payload) (p : Payload) : Field → Payload
  | .version => { q with version := p.version }
  | .server => { q with server := jsonString p.server }
  | .serverKey => { q with serverKey := p.serverKey }
  | .token => { q with token := p.token }
  | .label => { q with label := jsonString p.label }
  | .maxUses => { q with maxUses := p.maxUses }
  | .expiresAt => { q with expiresAt := p.expiresAt }
  | .sig => { q with sig := p.sig }

theorem decodeBytes_bytesValue (f : Field) (old s : GoSlice) : decodeBytes f old (bytesValue s) = (s, none) := by
  cases s with
  | none => rfl
  | some b => simp [bytesValue, decodeBytes, Base64.decode_encode]

theorem decodeMember_value (p q : Payload) (f : Field) :
    decodeMember (q, none) (f.name, p.value f) = (q.copy p f, none) := by
  unfold decodeMember
  rw [Field.ofKey_name]
  cases f <;>
    simp [Payload.set, Payload.value, Payload.copy, decodeInt, decodeString, decodeBytes_bytesValue,
      Json.parseInt_formatInt]

theorem decodeMembers_value (p : Payload) (ms : List (Field × Bytes)) (q : Payload) :
    (ms.map fun m => (m.1.name, p.value m.1)).foldl decodeMember (q, none) =
      (ms.foldl (fun q m => q.copy p m.1) q, none) := by
  induction ms generalizing q with
  | nil => rfl
  | cons m ms ih => rw [List.map_cons, List.foldl_cons, decodeMember_value, ih, List.foldl_cons]

/-- The payload that comes back: invalid UTF-8 is replaced, and an empty signature is none. -/
def Payload.image (p : Payload) : Payload :=
  { p with server := jsonString p.server, label := jsonString p.label
           sig := if p.sig.bytes = [] then none else p.sig }

theorem foldl_omitEmpty (p q : Payload) (empty : Bool) (f : Field) (text : Bytes) :
    (omitEmpty empty f text).foldl (fun q m => q.copy p m.1) q = if empty then q else q.copy p f := by
  unfold omitEmpty
  split_ifs <;> rfl

theorem unmarshal_marshal (p : Payload) : unmarshal p.marshal = .ok p.image := by
  have hcopied : p.members.foldl (fun q m => q.copy p m.1) {} = p.image := by
    simp only [Payload.members, List.foldl_cons, List.foldl_append, foldl_omitEmpty, decide_eq_true_eq]
    split_ifs <;> simp_all [Payload.copy, Payload.image, jsonString, jsonString.go]
  unfold unmarshal
  rw [parse_marshal]
  simp only [decodeMembers_value, hcopied]

/-! ## Two payloads with the same message -/

def badBytes (s : Bytes) : Nat := (runes s).countP (!·.isValid)

theorem jsonString_eq_nil (s : Bytes) : jsonString s = [] ↔ s = [] := by
  constructor
  · intro h
    rw [Json.jsonString_eq] at h
    induction s using Json.runes_induction with
    | nil => rfl
    | whole b t hb ih =>
      rw [Json.runes_whole hb, List.flatMap_cons] at h
      exact absurd (List.append_eq_nil_iff.mp h).1 hb.ne_nil
    | invalid b t hb ih =>
      rw [Json.runes_invalid hb, List.flatMap_cons] at h
      cases h
  · rintro rfl
    rfl

theorem image_sig (p : Payload) :
    omitEmpty (p.image.sig.bytes = []) .sig (bytesText p.image.sig) =
      omitEmpty (p.sig.bytes = []) .sig (bytesText p.sig) := by
  by_cases h : p.sig.bytes = []
  · have hnone : p.image.sig = none := if_pos h
    rw [hnone, h]
    rfl
  · have hsame : p.image.sig = p.sig := if_neg h
    rw [hsame]

theorem marshal_length (p : Payload) :
    p.marshal.length = p.image.marshal.length + 3 * (badBytes p.server + badBytes p.label) := by
  have hserver : (Json.quote p.server).length = (Json.quote p.image.server).length + 3 * badBytes p.server :=
    quote_length p.server
  have hlabel : (Json.quote p.label).length = (Json.quote p.image.label).length + 3 * badBytes p.label :=
    quote_length p.label
  have hempty : p.image.label = [] ↔ p.label = [] := jsonString_eq_nil p.label
  have hnone : p.label = [] → badBytes p.label = 0 := by
    intro h
    rw [h]
    rfl
  have hsum : ∀ p : Payload, p.marshal.length =
      1 + (p.members.map fun m => (Json.quote m.1.name).length + m.2.length + 2).sum := by
    intro p
    unfold Payload.marshal
    rw [Json.object_length (by simp [Payload.members]), List.map_map]
    rfl
  rw [hsum, hsum]
  unfold Payload.members
  rw [image_sig]
  have huses : p.image.maxUses = p.maxUses := rfl
  have hexpires : p.image.expiresAt = p.expiresAt := rfl
  rw [huses, hexpires]
  simp only [List.map_cons, List.sum_cons, List.map_append, List.sum_append]
  by_cases hl : p.label = []
  · rw [decide_eq_true hl, decide_eq_true (hempty.mpr hl)]
    have := hnone hl
    have hleft : ∀ text, omitEmpty true .label text = [] := fun _ => rfl
    simp only [hleft, Payload.image] at hserver ⊢
    omega
  · rw [decide_eq_false hl, decide_eq_false (mt hempty.mp hl)]
    have hone : ∀ text, omitEmpty false .label text = [(.label, text)] := fun _ => rfl
    simp only [hone, List.map_cons, List.sum_cons, Payload.image] at hserver hlabel ⊢
    omega

theorem marshal_injective (p q : Payload) (hserver : validString p.server = true) (hlabel : validString p.label = true)
    (h : q.marshal = p.marshal) : q.image = p.image ∧ q.server = p.server ∧ q.label = p.label := by
  have himage : q.image = p.image := by
    have := unmarshal_marshal q
    rw [h, unmarshal_marshal] at this
    exact (Except.ok.inj this).symm
  have hlen := marshal_length q
  rw [h, marshal_length p, himage] at hlen
  have hbad : badBytes p.server = 0 ∧ badBytes p.label = 0 :=
    ⟨(Json.validString_iff _).mp hserver, (Json.validString_iff _).mp hlabel⟩
  have hq : validString q.server = true ∧ validString q.label = true := by
    rw [Json.validString_iff, Json.validString_iff]
    change badBytes q.server = 0 ∧ badBytes q.label = 0
    omega
  refine ⟨himage, ?_, ?_⟩
  · have := congrArg Payload.server himage
    rwa [Payload.image, Payload.image, jsonString_valid hq.1, jsonString_valid hserver] at this
  · have := congrArg Payload.label himage
    rwa [Payload.image, Payload.image, jsonString_valid hq.2, jsonString_valid hlabel] at this

/-- Replaced bytes change the message, though not what it is read as. -/
theorem message_image_iff (p : Payload) :
    p.image.message = p.message ↔ validString p.server = true ∧ validString p.label = true := by
  have hmessage : p.image.message = ({ p with sig := none } : Payload).image.marshal := rfl
  constructor
  · intro h
    have hlen : p.message.length = p.image.message.length + 3 * (badBytes p.server + badBytes p.label) := by
      rw [hmessage]
      exact marshal_length { p with sig := none }
    rw [h] at hlen
    rw [Json.validString_iff, Json.validString_iff]
    change badBytes p.server = 0 ∧ badBytes p.label = 0
    omega
  · rintro ⟨hserver, hlabel⟩
    unfold Payload.image Payload.message
    rw [jsonString_valid hserver, jsonString_valid hlabel]

/-! ## White space around a link -/

/-- No word is empty or the front of another. -/
def PrefixFree (cut : List Bytes) : Prop := ∀ r ∈ cut, r ≠ [] ∧ ∀ r' ∈ cut, r' <+: r → r' = r

theorem spaceRunes_prefixFree : PrefixFree spaceRunes := by
  unfold PrefixFree
  decide +kernel

theorem spaceRunes_reverse_prefixFree : PrefixFree (spaceRunes.map List.reverse) := by
  unfold PrefixFree
  decide +kernel

theorem find_front {cut : List Bytes} (h : PrefixFree cut) {r : Bytes} (hr : r ∈ cut) (s : Bytes) :
    cut.find? (·.isPrefixOf (r ++ s)) = some r := by
  cases hfind : cut.find? (·.isPrefixOf (r ++ s)) with
  | none =>
    rw [List.find?_eq_none] at hfind
    exact absurd (by simp) (hfind r hr)
  | some r' =>
    have hmem := List.mem_of_find?_eq_some hfind
    have hpre : r' <+: r ++ s := List.isPrefixOf_iff_prefix.mp (by simpa using List.find?_some hfind)
    rcases List.prefix_or_prefix_of_prefix hpre (List.prefix_append r s) with hle | hle
    · rw [(h r hr).2 r' hmem hle]
    · rw [(h r' hmem).2 r hr hle]

theorem trimFront_words {cut : List Bytes} (h : PrefixFree cut) {s : Bytes} (hs : ∀ r ∈ cut, ¬ r <+: s)
    {rs : List Bytes} (hrs : ∀ r ∈ rs, r ∈ cut) {fuel : Nat} (hfuel : (rs.flatten ++ s).length ≤ fuel) :
    trimFront cut fuel (rs.flatten ++ s) = s := by
  induction rs generalizing fuel with
  | nil =>
    cases fuel with
    | zero => rfl
    | succ fuel =>
      have hnone : cut.find? (·.isPrefixOf s) = none := by
        rw [List.find?_eq_none]
        intro r hr
        rw [List.isPrefixOf_iff_prefix]
        exact hs r hr
      rw [List.flatten_nil, List.nil_append, trimFront, hnone]
  | cons r rs ih =>
    have hr := hrs r (by simp)
    have hpos := List.length_pos_of_ne_nil (h r hr).1
    rw [List.flatten_cons, List.append_assoc] at hfuel ⊢
    rw [List.length_append] at hfuel
    obtain ⟨fuel, rfl⟩ : ∃ k, fuel = k + 1 := ⟨fuel - 1, by omega⟩
    rw [trimFront, find_front h hr]
    simp only [List.drop_left]
    exact ih (fun r hr => hrs r (by simp [hr])) (by omega)

def White (s : Bytes) : Prop := ∃ rs : List Bytes, (∀ r ∈ rs, r ∈ spaceRunes) ∧ s = rs.flatten

theorem White.reverse {s : Bytes} (h : White s) :
    ∃ rs : List Bytes, (∀ r ∈ rs, r ∈ spaceRunes.map List.reverse) ∧ s.reverse = rs.flatten := by
  obtain ⟨rs, hrs, rfl⟩ := h
  refine ⟨(rs.map List.reverse).reverse, ?_, List.reverse_flatten⟩
  intro r hr
  rw [List.mem_reverse] at hr
  obtain ⟨r', hr', rfl⟩ := List.mem_map.mp hr
  exact List.mem_map_of_mem (hrs r' hr')

theorem not_prefix {r s t : Bytes} (hr : r ≠ []) (hs : s ≠ []) (h : r.head? ≠ s.head?) : ¬ r <+: s ++ t := by
  rintro ⟨u, hu⟩
  apply h
  rw [← List.head?_append_of_ne_nil r hr, hu, List.head?_append_of_ne_nil s hs]

theorem trimSpace_white {front back s : Bytes} (hfront : White front) (hback : White back) (hne : s ≠ [])
    (hfirst : ∀ r ∈ spaceRunes, r.head? ≠ s.head?) (hlast : ∀ r ∈ spaceRunes, r.getLast? ≠ s.getLast?) :
    trimSpace (front ++ (s ++ back)) = s := by
  obtain ⟨rs, hrs, rfl⟩ := hfront
  obtain ⟨rs', hrs', hrev⟩ := hback.reverse
  have hleft : trimFront spaceRunes (rs.flatten ++ (s ++ back)).length (rs.flatten ++ (s ++ back)) = s ++ back := by
    apply trimFront_words spaceRunes_prefixFree _ hrs le_rfl
    intro r hr
    exact not_prefix (spaceRunes_prefixFree r hr).1 hne (hfirst r hr)
  have hright : ∀ r ∈ spaceRunes.map List.reverse, ¬ r <+: s.reverse := by
    intro r hr
    obtain ⟨r', hr', rfl⟩ := List.mem_map.mp hr
    rw [← List.append_nil s.reverse]
    apply not_prefix (spaceRunes_reverse_prefixFree _ hr).1
    · simpa using hne
    · simpa using hlast r' hr'
  unfold trimSpace
  rw [hleft]
  dsimp only
  rw [List.reverse_append, hrev, trimFront_words spaceRunes_reverse_prefixFree hright hrs', List.reverse_reverse]
  rw [← hrev, ← List.reverse_append, List.length_reverse]

/-! ## The link -/

/-- The bytes behind the scheme: base64 characters and padding. -/
def LinkChar (c : UInt8) : Prop := (∃ n < 64, c = Base64.url.char n) ∨ c = 61

theorem linkChar_not_white {c : UInt8} (h : LinkChar c) : ∀ r ∈ spaceRunes, r.getLast? ≠ some c := by
  have hdigit : ∀ n < 64, ∀ r ∈ spaceRunes, r.getLast? ≠ some (Base64.url.char n) := by decide +kernel
  rcases h with ⟨n, hn, rfl⟩ | rfl
  · exact hdigit n hn
  · decide +kernel

theorem trimSpace_link {front back encoded : Bytes} (hfront : White front) (hback : White back)
    (h : ∀ c ∈ encoded, LinkChar c) : trimSpace (front ++ (scheme ++ encoded ++ back)) = scheme ++ encoded := by
  apply trimSpace_white hfront hback
  · simp [scheme, ascii]
  · have hhead : (scheme ++ encoded).head? = some 100 := rfl
    rw [hhead]
    decide +kernel
  · cases hlast : encoded.getLast? with
    | none =>
      obtain rfl : encoded = [] := by simpa using hlast
      rw [List.append_nil]
      decide +kernel
    | some c =>
      rw [List.getLast?_append, hlast]
      exact linkChar_not_white (h c (List.mem_of_getLast? hlast))

theorem decode_link {front back encoded data : Bytes} {p : Payload} (hfront : White front) (hback : White back)
    (hchars : ∀ c ∈ encoded, LinkChar c) (hdata : decodeBase64 encoded = .ok data)
    (hp : unmarshal data = .ok p) : decode (front ++ (scheme ++ encoded ++ back)) = p.check := by
  have hpre : scheme.isPrefixOf (scheme ++ encoded) = true := by simp
  unfold decode
  rw [trimSpace_link hfront hback hchars]
  dsimp only
  rw [hpre, List.drop_left, hdata]
  simp [hp]

theorem linkChar_rawURL {c : UInt8} {b : Bytes} (h : c ∈ Base64.rawURL.encode b) : LinkChar c := by
  rcases Base64.mem_encode h with hc | hpad
  · exact .inl hc
  · cases hpad

theorem repad_rawURL (b : Bytes) : Base64.url.repad (Base64.rawURL.encode b) = Base64.url.encode b :=
  Base64.repad_encode Base64.rawURL (show Base64.rawURL.char = Base64.url.char from rfl) rfl b

theorem linkChar_repad {c : UInt8} {b : Bytes} (h : c ∈ Base64.url.repad (Base64.rawURL.encode b)) : LinkChar c := by
  rw [repad_rawURL] at h
  rcases Base64.mem_encode h with hc | hpad
  · exact .inl hc
  · cases hpad
    exact .inr rfl

theorem decodeBase64_rawURL (b : Bytes) : decodeBase64 (Base64.rawURL.encode b) = .ok b := by
  unfold decodeBase64
  rw [Base64.decode_encode]

/-- Where padding was added, the unpadded decoder fails and the padded one takes over. -/
theorem decodeBase64_repad (b : Bytes) : decodeBase64 (Base64.url.repad (Base64.rawURL.encode b)) = .ok b := by
  cases hpad : Base64.url.pad ((4 - (Base64.rawURL.encode b).length % 4) % 4) with
  | nil =>
    unfold Base64.Encoding.repad
    rw [hpad, List.append_nil, decodeBase64_rawURL]
  | cons c pad =>
    have hc : c = 61 := by
      have hmem : c ∈ Base64.url.pad ((4 - (Base64.rawURL.encode b).length % 4) % 4) := by simp [hpad]
      simp only [Base64.Encoding.pad, Base64.url, Option.toList_some, List.flatMap_cons, List.flatMap_nil,
        List.append_nil] at hmem
      exact List.eq_of_mem_replicate hmem
    obtain ⟨i, hi⟩ := Base64.decodeFrom_foreign (e := Base64.rawURL) (c := 61) rfl rfl rfl
      (Base64.rawURL.encode b) pad 0 []
    have hfail : Base64.rawURL.decode (Base64.url.repad (Base64.rawURL.encode b)) = .error i := by
      unfold Base64.Encoding.repad
      rw [hpad, hc]
      exact hi
    unfold decodeBase64
    rw [hfail, repad_rawURL, Base64.decode_encode]

theorem decode_encode (p : Payload) : decode p.encode = p.image.check := by
  have hnone : White [] := ⟨[], by simp, rfl⟩
  have := decode_link hnone hnone (fun c hc => linkChar_rawURL hc) (decodeBase64_rawURL p.marshal) (unmarshal_marshal p)
  simpa [Payload.encode] using this

/-! ## Signing -/

/-- A payload that can be signed by the key pair and sent in a link. -/
structure Issuable (pub : ByteArr 32) (p : Payload) : Prop where
  version : p.version = 1
  server : p.server ≠ []
  token : p.token.bytes.length = 32
  serverUTF8 : validString p.server = true
  labelUTF8 : validString p.label = true
  serverKey : p.serverKey = some pub.val

variable {cr : Crypto} {priv : ByteArr 64} {pub : ByteArr 32} {p : Payload}

theorem sign_sig_ne_nil (cr : Crypto) (priv : ByteArr 64) (p : Payload) : (p.sign cr priv).sig.bytes ≠ [] := by
  intro h
  have hlen := cr.ed25519Sign_length priv.val p.message
  change cr.ed25519Sign priv.val p.message = [] at h
  rw [h] at hlen
  cases hlen

theorem image_sign (h : Issuable pub p) : (p.sign cr priv).image = p.sign cr priv := by
  unfold Payload.image
  rw [if_neg (sign_sig_ne_nil cr priv p)]
  change { p.sign cr priv with server := jsonString p.server, label := jsonString p.label } = p.sign cr priv
  rw [jsonString_valid h.serverUTF8, jsonString_valid h.labelUTF8]
  rfl

theorem check_sign (h : Issuable pub p) : (p.sign cr priv).check = .ok (p.sign cr priv) := by
  have hversion : (p.sign cr priv).version = 1 := h.version
  have hserver : (p.sign cr priv).server ≠ [] := h.server
  have htoken : (p.sign cr priv).token.bytes.length = 32 := h.token
  unfold Payload.check
  rw [if_neg (not_not.mpr hversion), if_neg hserver, if_neg (not_not.mpr htoken)]

theorem decode_sign (h : Issuable pub p) {front back : Bytes} (hfront : White front) (hback : White back) :
    decode (front ++ ((p.sign cr priv).encode ++ back)) = .ok (p.sign cr priv) ∧
      decode (front ++ (scheme ++ Base64.url.repad (Base64.rawURL.encode (p.sign cr priv).marshal) ++ back)) =
        .ok (p.sign cr priv) := by
  have hread := unmarshal_marshal (p.sign cr priv)
  rw [image_sign h] at hread
  constructor
  · rw [← check_sign h]
    exact decode_link hfront hback (fun c hc => linkChar_rawURL hc) (decodeBase64_rawURL _) hread
  · rw [← check_sign h]
    exact decode_link hfront hback (fun c hc => linkChar_repad hc) (decodeBase64_repad _) hread

theorem verifySignature_payload (cr : Crypto) (p : Payload) : (p.verifySignature cr).2 = p := by
  unfold Payload.verifySignature
  split_ifs <;> rfl

theorem verifySignature_iff (cr : Crypto) (p : Payload) :
    (p.verifySignature cr).1 = none ↔ p.serverKey.bytes.length = 32 ∧ p.sig.bytes ≠ [] ∧
      cr.ed25519Verify p.serverKey.bytes p.message p.sig.bytes = true := by
  unfold Payload.verifySignature
  split_ifs with hkey hsig
  · simp [hkey]
  · simp [List.length_eq_zero_iff.mp hsig]
  · have hne : p.sig.bytes ≠ [] := fun h => hsig (by simp [h])
    rw [not_not] at hkey
    change (if cr.ed25519Verify p.serverKey.bytes p.message p.sig.bytes then none else some _) = none ↔ _
    simp [hkey, hne]

theorem verifySignature_sign (h : Issuable pub p)
    (hed : ∀ m, cr.ed25519Verify pub.val m (cr.ed25519Sign priv.val m) = true) :
    (p.sign cr priv).verifySignature cr = (none, p.sign cr priv) := by
  have hkey : (p.sign cr priv).serverKey.bytes = pub.val := by
    change p.serverKey.bytes = pub.val
    rw [h.serverKey]
    rfl
  have hnone : ((p.sign cr priv).verifySignature cr).1 = none := by
    rw [verifySignature_iff, hkey]
    exact ⟨pub.property, sign_sig_ne_nil cr priv p, hed p.message⟩
  exact Prod.ext hnone (verifySignature_payload cr _)

theorem message_injective (h : Issuable pub p) {q : Payload} (hq : q.message = p.message) :
    { q with sig := none } = { p with sig := none } := by
  obtain ⟨himage, hserver, hlabel⟩ :=
    marshal_injective { p with sig := none } { q with sig := none } h.serverUTF8 h.labelUTF8 hq
  simp only [Payload.image, Payload.mk.injEq] at himage hserver hlabel ⊢
  tauto

theorem signed_link_verifies (cr : Crypto) (priv : ByteArr 64) (pub : ByteArr 32)
    (hed : ∀ m, cr.ed25519Verify pub.val m (cr.ed25519Sign priv.val m) = true) (p : Payload) (h : Issuable pub p) :
    (∀ front back, White front → White back →
      decode (front ++ ((p.sign cr priv).encode ++ back)) = .ok (p.sign cr priv) ∧
      decode (front ++ (scheme ++ Base64.url.repad (Base64.rawURL.encode (p.sign cr priv).marshal) ++ back)) =
        .ok (p.sign cr priv)) ∧
    (p.sign cr priv).verifySignature cr = (none, p.sign cr priv) ∧
    (p.sign cr priv).sig.bytes = cr.ed25519Sign priv.val p.message ∧
    ∀ q : Payload, ((q.verifySignature cr).1 = none ↔ q.serverKey.bytes.length = 32 ∧ q.sig.bytes ≠ [] ∧
        cr.ed25519Verify q.serverKey.bytes q.message q.sig.bytes = true) ∧
      ((q.version ≠ p.version ∨ q.server ≠ p.server ∨ q.serverKey ≠ p.serverKey ∨ q.token ≠ p.token ∨
        q.label ≠ p.label ∨ q.maxUses ≠ p.maxUses ∨ q.expiresAt ≠ p.expiresAt) → q.message ≠ p.message) := by
  refine ⟨fun front back => decode_sign h, verifySignature_sign h hed, rfl, fun q => ⟨verifySignature_iff cr q, ?_⟩⟩
  intro hdiff hq
  have hsame := message_injective h hq
  simp only [Payload.mk.injEq, and_true] at hsame
  tauto

theorem signed_link_verifies_pasted :
    let cr : Crypto := { hashCrypto with ed25519Verify := fun _ _ sig => sig == List.replicate 64 0xFF }
    let priv : ByteArr 64 := copyArr 64 []
    let pub : ByteArr 32 := copyArr 32 []
    let p : Payload := { version := 1, server := ascii "vpn:443", serverKey := some pub.val
                         token := some (List.replicate 32 5), label := ascii "work" }
    Issuable pub p ∧ decode ((p.sign cr priv).encode ++ ascii "\n") = .ok (p.sign cr priv) ∧
      (p.sign cr priv).verifySignature cr = (none, p.sign cr priv) ∧
      { p with maxUses := 100 }.message ≠ p.message := by
  intro cr priv pub p
  have hp : Issuable pub p := ⟨rfl, by decide, by decide, by decide +kernel, by decide +kernel, rfl⟩
  obtain ⟨hdecode, hverify, -, hmessage⟩ := signed_link_verifies cr priv pub (fun m => beq_self_eq_true _) p hp
  have hback : White (ascii "\n") := ⟨[[10]], by decide, rfl⟩
  exact ⟨hp, (hdecode [] _ ⟨[], by simp, rfl⟩ hback).1, hverify, (hmessage _).2 (by decide)⟩

end Daxson.Invite
