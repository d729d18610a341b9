import Daxson.Crypto
import Daxson.Json.Spec
import Daxson.Lib.Base64

/-! # Invite links

`Decode` does not check the signature. The texts of JSON scanner errors are left out.
-/

open Lib

namespace Daxson.Invite

/-- A Go slice of bytes; `none` is nil. -/
abbrev GoSlice := Option Bytes

def GoSlice.bytes (s : GoSlice) : Bytes := s.getD []

structure Payload where
  version : Int64 := 0
  server : Bytes := []
  serverKey : GoSlice := none
  token : GoSlice := none
  label : Bytes := []
  /-- Zero is a single use. -/
  maxUses : Int64 := 0
  /-- Unix seconds; zero is no expiry. -/
  expiresAt : Int64 := 0
  sig : GoSlice := none
  deriving DecidableEq

/-! ## The payload as JSON -/

inductive Field where
  | version | server | serverKey | token | label | maxUses | expiresAt | sig
  deriving DecidableEq, Repr

def Field.all : List Field := [.version, .server, .serverKey, .token, .label, .maxUses, .expiresAt, .sig]

/-- The `json` tag. -/
def Field.name : Field → Bytes
  | .version => ascii "v"
  | .server => ascii "server"
  | .serverKey => ascii "server_key"
  | .token => ascii "token"
  | .label => ascii "label"
  | .maxUses => ascii "max_uses"
  | .expiresAt => ascii "expires"
  | .sig => ascii "sig"

def Field.goType : Field → Bytes
  | .version | .maxUses => ascii "int"
  | .server | .label => ascii "string"
  | .serverKey | .token | .sig => ascii "[]uint8"
  | .expiresAt => ascii "int64"

/-- A `[]byte` in JSON. -/
def bytesText : GoSlice → Bytes
  | none => ascii "null"
  | some b => [34] ++ (Base64.std.encode b ++ [34])

def omitEmpty (empty : Bool) (f : Field) (text : Bytes) : List (Field × Bytes) := if empty then [] else [(f, text)]

def Payload.members (p : Payload) : List (Field × Bytes) :=
  (.version, formatInt p.version.toInt) :: (.server, Json.quote p.server) ::
  (.serverKey, bytesText p.serverKey) :: (.token, bytesText p.token) ::
  (omitEmpty (p.label = []) .label (Json.quote p.label) ++
    (omitEmpty (p.maxUses = 0) .maxUses (formatInt p.maxUses.toInt) ++
      (omitEmpty (p.expiresAt = 0) .expiresAt (formatInt p.expiresAt.toInt) ++
        omitEmpty (p.sig.bytes = []) .sig (bytesText p.sig))))

/-- `json.Marshal`. -/
def Payload.marshal (p : Payload) : Bytes := Json.object (p.members.map fun (f, text) => (f.name, text))

/-- `foldName`: keys are compared by simple case folding. -/
def foldName : Bytes → Bytes
  | 0xC5 :: 0xBF :: rest => 83 :: foldName rest
  | 0xE2 :: 0x84 :: 0xAA :: rest => 75 :: foldName rest
  | c :: rest => (if 97 ≤ c ∧ c ≤ 122 then c - 32 else c) :: foldName rest
  | [] => []

def Field.ofKey (key : Bytes) : Option Field := Field.all.find? fun f => foldName f.name == foldName key

def valueKind : Json.Value → Bytes
  | .null => ascii "null"
  | .bool _ => ascii "bool"
  | .num _ => ascii "number"
  | .str _ => ascii "string"
  | .arr _ => ascii "array"
  | .obj _ => ascii "object"

def typeError (f : Field) (what goType : Bytes) : GoError :=
  .new "json: cannot unmarshal %s into Go struct field Payload.%s of type %s" [what, f.name, goType]

def corruptInput (offset : Nat) : GoError := .new "illegal base64 data at input byte %d" [formatInt offset]

/-- What a member sets an integer field to, with the error that is saved. -/
def decodeInt (f : Field) (old : Int64) : Json.Value → Int64 × Option GoError
  | .null => (old, none)
  | .num literal =>
    match Json.parseInt literal with
    | some n => (n, none)
    | none => (old, some (typeError f (ascii "number " ++ literal) f.goType))
  | v => (old, some (typeError f (valueKind v) f.goType))

def decodeString (f : Field) (old : Bytes) : Json.Value → Bytes × Option GoError
  | .null => (old, none)
  | .str s => (s, none)
  | v => (old, some (typeError f (valueKind v) f.goType))

/-- One element of an array that is read into a `[]byte`. -/
def decodeElement (f : Field) (old : UInt8) : Json.Value → UInt8 × Option GoError
  | .null => (old, none)
  | .num literal =>
    match Json.parseByte literal with
    | some b => (b, none)
    | none => (old, some (typeError f (ascii "number " ++ literal) (ascii "uint8")))
  | v => (old, some (typeError f (valueKind v) (ascii "uint8")))

def decodeBytes (f : Field) (old : GoSlice) : Json.Value → GoSlice × Option GoError
  | .null => (none, none)
  | .str s =>
    match Base64.std.decode s with
    | .ok b => (some b, none)
    | .error offset => (old, some (corruptInput offset))
  | .arr items =>
    let elements := items.zipIdx.map fun (v, i) => decodeElement f (old.bytes.getD i 0) v
    (some (elements.map Prod.fst), elements.findSome? Prod.snd)
  | v => (old, some (typeError f (valueKind v) f.goType))

def Payload.set (p : Payload) (f : Field) (v : Json.Value) : Payload × Option GoError :=
  match f with
  | .version => let (x, e) := decodeInt f p.version v; ({ p with version := x }, e)
  | .server => let (x, e) := decodeString f p.server v; ({ p with server := x }, e)
  | .serverKey => let (x, e) := decodeBytes f p.serverKey v; ({ p with serverKey := x }, e)
  | .token => let (x, e) := decodeBytes f p.token v; ({ p with token := x }, e)
  | .label => let (x, e) := decodeString f p.label v; ({ p with label := x }, e)
  | .maxUses => let (x, e) := decodeInt f p.maxUses v; ({ p with maxUses := x }, e)
  | .expiresAt => let (x, e) := decodeInt f p.expiresAt v; ({ p with expiresAt := x }, e)
  | .sig => let (x, e) := decodeBytes f p.sig v; ({ p with sig := x }, e)

/-- One member of the object: unknown keys are skipped and the first error is kept. -/
def decodeMember (s : Payload × Option GoError) (m : Bytes × Json.Value) : Payload × Option GoError :=
  match Field.ofKey m.1 with
  | none => s
  | some f =>
    let (p, e) := s.1.set f m.2
    (p, s.2.or e)

/-- `json.Unmarshal` into a fresh payload. -/
def unmarshal (data : Bytes) : Except GoError Payload :=
  match Json.parse data with
  | none => .error (.new "json: syntax error" [])
  | some .null => .ok {}
  | some (.obj members) =>
    match members.foldl decodeMember ({}, none) with
    | (p, none) => .ok p
    | (_, some e) => .error e
  | some v => .error (.new "json: cannot unmarshal %s into Go value of type invite.Payload" [valueKind v])

/-! ## The link -/

def scheme : Bytes := ascii "daxson://v1/"

def Payload.encode (p : Payload) : Bytes := scheme ++ Base64.rawURL.encode p.marshal

/-- The runes of `unicode.IsSpace`, in UTF-8. -/
def spaceRunes : List Bytes :=
  [[9], [10], [11], [12], [13], [32], [0xC2, 0x85], [0xC2, 0xA0], [0xE1, 0x9A, 0x80], [0xE2, 0x80, 0x80],
    [0xE2, 0x80, 0x81], [0xE2, 0x80, 0x82], [0xE2, 0x80, 0x83], [0xE2, 0x80, 0x84], [0xE2, 0x80, 0x85],
    [0xE2, 0x80, 0x86], [0xE2, 0x80, 0x87], [0xE2, 0x80, 0x88], [0xE2, 0x80, 0x89], [0xE2, 0x80, 0x8A],
    [0xE2, 0x80, 0xA8], [0xE2, 0x80, 0xA9], [0xE2, 0x80, 0xAF], [0xE2, 0x81, 0x9F], [0xE3, 0x80, 0x80]]

/-- Drop what stands in `cut` from the front, again and again. -/
def trimFront (cut : List Bytes) : Nat → Bytes → Bytes
  | 0, s => s
  | fuel + 1, s =>
    match cut.find? (·.isPrefixOf s) with
    | some r => trimFront cut fuel (s.drop r.length)
    | none => s

/-- `strings.TrimSpace`. The back is trimmed as the front of the reversed text. -/
def trimSpace (s : Bytes) : Bytes :=
  let s := trimFront spaceRunes s.length s
  (trimFront (spaceRunes.map List.reverse) s.length s.reverse).reverse

/-- Unpadded base64url, and padded where that fails. -/
def decodeBase64 (encoded : Bytes) : Except GoError Bytes :=
  match Base64.rawURL.decode encoded with
  | .ok data => .ok data
  | .error _ =>
    match Base64.url.decode encoded with
    | .ok data => .ok data
    | .error offset => .error (.wrap "invite: invalid base64: %w" [] (corruptInput offset))

/-- The checks of `Decode` on the parsed payload. -/
def Payload.check (p : Payload) : Except GoError Payload :=
  if p.version ≠ 1 then .error (.new "invite: unsupported version %d (need v1)" [formatInt p.version.toInt])
  else if p.server = [] then .error (.new "invite: missing server address" [])
  else if p.token.bytes.length ≠ 32 then
    .error (.new "invite: token must be 32 bytes (got %d)" [formatInt p.token.bytes.length])
  else .ok p

def decode (link : Bytes) : Except GoError Payload :=
  let link := trimSpace link
  if !scheme.isPrefixOf link then
    let peek := if 40 < link.length then link.take 40 ++ ascii "..." else link
    .error (.new "invite: not a daxson:// link (got %q)" [peek])
  else
    match decodeBase64 (link.drop scheme.length) with
    | .error e => .error e
    | .ok data =>
      match unmarshal data with
      | .error e => .error (.wrap "invite: parse payload: %w" [] e)
      | .ok p => p.check

/-! ## The signature -/

/-- What is signed: the JSON with `Sig` nil. -/
def Payload.message (p : Payload) : Bytes := { p with sig := none }.marshal

/-- `Sign`. Marshalling this struct cannot fail. -/
def Payload.sign (cr : Crypto) (serverPrivKey : ByteArr 64) (p : Payload) : Payload :=
  { p with sig := some (cr.ed25519Sign serverPrivKey.val p.message) }

/-- `VerifySignature`, and the payload that it leaves behind. -/
def Payload.verifySignature (cr : Crypto) (p : Payload) : Option GoError × Payload :=
  if p.serverKey.bytes.length ≠ 32 then
    (some (.new "invite: server key length %d != 32" [formatInt p.serverKey.bytes.length]), p)
  else if p.sig.bytes.length = 0 then (some (.new "invite: missing signature" []), p)
  else
    let sig := p.sig
    let cleared := { p with sig := none }
    let err :=
      if cr.ed25519Verify p.serverKey.bytes cleared.marshal sig.bytes then none
      else some (.new "invite: signature verification failed — link may be tampered" [])
    (err, { cleared with sig := sig })

def Payload.isExpired (now : Time) (p : Payload) : Bool :=
  p.expiresAt ≠ 0 && p.expiresAt.toInt < now.unix

end Daxson.Invite
