import Daxson.Auth.Spec
import Daxson.Config.Profile
import Daxson.Invite.RoundTrip

/-! # `daxson import`

The signature is checked only where the link brings a server key.
-/

namespace Daxson.Cmd

open Auth Config Invite

variable {Doc : Type}

/-- `tlstransport.ClientTransport`. -/
structure ClientTransport where
  serverName : Bytes
  fingerprint : Bytes
  nextProtos : List Bytes
  insecure : Bool
  deriving DecidableEq, Repr

def newClientTransport (serverName fingerprint : Bytes) (nextProtos : List Bytes) (insecure : Bool) :
    ClientTransport where
  serverName := serverName
  fingerprint := if fingerprint = [] then ascii "chrome" else fingerprint
  nextProtos := if nextProtos = [] then [ascii "h2", ascii "http/1.1"] else nextProtos
  insecure := insecure

def extractHostname (addr : Bytes) : Bytes :=
  match addr.reverse.dropWhile (· != 58) with
  | [] => addr
  | _ :: front => front.reverse

structure ImportEnv (Doc : Type) where
  now : Time
  /-- `identity.Load`: the key pair and its device ID. -/
  identity : Except GoError (KeyPair × Bytes)
  /-- Empty where `os.Hostname` fails. -/
  hostname : Bytes
  dial : ClientTransport → Bytes → Except GoError NetConn
  handshake : ClientEnv
  save : SaveEnv Doc := {}
  keyPath : Bytes
  profilePath : Bytes → Bytes

structure ImportRun (Doc : Type) where
  err : Option GoError
  dialed : Option (ClientTransport × Bytes) := none
  /-- The arguments of `BootstrapClient`, if it was called. -/
  bootstrap : Option (Bytes × KeyPair × Bytes) := none
  files : Files Doc

/-- Steps 1 and 2: parse the link, and check expiry and signature. -/
def acceptLink (cr : Crypto) (now : Time) (link : Bytes) (noVerify : Bool) : Except GoError Payload :=
  match decode link with
  | .error e => .error e
  | .ok payload =>
    if payload.isExpired now then .error (.new "invite expired" [])
    else if 0 < payload.serverKey.bytes.length && !noVerify then
      match payload.verifySignature cr with
      | (some e, _) => .error e
      | (none, payload) => .ok payload
    else .ok payload

def importProfile (profileName keyPath : Bytes) (payload : Payload) : ClientProfile :=
  { clientProfileDefaults with
    version := 1, name := profileName, server := payload.server
    serverKey := payload.serverKey.bytes, deviceKey := keyPath }

def importTransport (payload : Payload) : ClientTransport :=
  newClientTransport (extractHostname payload.server) (ascii "chrome") [ascii "h2", ascii "http/1.1"] false

/-- Steps 4 and 5: dial, register, save. -/
def register (lib : Yaml.Library Doc) (env : ImportEnv Doc) (payload : Payload) (kp : KeyPair)
    (profileName deviceLabel : Bytes) (fs : Files Doc) : ImportRun Doc :=
  let tr := importTransport payload
  match env.dial tr payload.server with
  | .error e =>
    { err := some (.wrap "dial %s: %w" [payload.server] e), dialed := some (tr, payload.server), files := fs }
  | .ok conn =>
    let called := (payload.token.bytes, kp, deviceLabel)
    match bootstrapClient payload.token.bytes kp deviceLabel env.handshake conn with
    | (.error e, _) =>
      { err := some e, dialed := some (tr, payload.server), bootstrap := some called, files := fs }
    | (.ok _, _) =>
      let saved := saveClientProfile lib env.save (importProfile profileName env.keyPath payload)
        (env.profilePath profileName) fs
      { err := saved.1, dialed := some (tr, payload.server), bootstrap := some called, files := saved.2 }

def runImport (cr : Crypto) (lib : Yaml.Library Doc) (env : ImportEnv Doc) (link profileName deviceLabel : Bytes)
    (noVerify : Bool) (fs : Files Doc) : ImportRun Doc :=
  match acceptLink cr env.now link noVerify with
  | .error e => { err := some e, files := fs }
  | .ok payload =>
    match env.identity with
    | .error e => { err := some e, files := fs }
    | .ok (kp, deviceID) =>
      let label :=
        if deviceLabel ≠ [] then deviceLabel
        else if env.hostname ≠ [] then env.hostname
        else ascii "device-" ++ deviceID
      register lib env payload kp profileName label fs

/-! ## What an import has checked -/

theorem acceptLink_inv {cr : Crypto} {now : Time} {link : Bytes} {noVerify : Bool} {p : Payload}
    (h : acceptLink cr now link noVerify = .ok p) :
    decode link = .ok p ∧ p.isExpired now = false ∧
      (p.serverKey.bytes ≠ [] → noVerify = false → (p.verifySignature cr).1 = none) := by
  unfold acceptLink at h
  split at h
  · cases h
  · rename_i q hq
    split_ifs at h with hexp hcheck
    · split at h
      · cases h
      · rename_i q' hv
        have hsame := verifySignature_payload cr q
        rw [hv] at hsame
        cases h
        cases hsame
        exact ⟨hq, by simpa using hexp, fun _ _ => by rw [hv]⟩
    · cases h
      refine ⟨hq, by simpa using hexp, ?_⟩
      intro hkey hverify
      simp [hverify, List.length_pos_iff, hkey] at hcheck

theorem verifySignature_no_key {cr : Crypto} {p : Payload} (h : p.serverKey.bytes = []) :
    (p.verifySignature cr).1 ≠ none := by
  rw [ne_eq, verifySignature_iff, h]
  simp

theorem register_spec (lib : Yaml.Library Doc) (env : ImportEnv Doc) (p : Payload) (kp : KeyPair)
    (profileName label : Bytes) (fs : Files Doc) :
    let r := register lib env p kp profileName label fs
    r.dialed = some (importTransport p, p.server) ∧ (∀ call ∈ r.bootstrap, call = (p.token.bytes, kp, label)) ∧
      (r.err = none → r.bootstrap.isSome = true ∧
        ∃ data, lib.marshal (ClientProfile.type lib) (importProfile profileName env.keyPath p) = .ok data ∧
          r.files (env.profilePath profileName) = some data) := by
  intro r
  unfold r register
  dsimp only
  split
  · simp
  · split
    · simp
    · refine ⟨rfl, by simp, fun herr => ⟨rfl, saveClientProfile_ok herr⟩⟩

theorem runImport_cases (cr : Crypto) (lib : Yaml.Library Doc) (env : ImportEnv Doc)
    (link profileName deviceLabel : Bytes) (noVerify : Bool) (fs : Files Doc) :
    (∃ e, runImport cr lib env link profileName deviceLabel noVerify fs = { err := some e, files := fs }) ∨
      ∃ p kp label, acceptLink cr env.now link noVerify = .ok p ∧
        runImport cr lib env link profileName deviceLabel noVerify fs = register lib env p kp profileName label fs := by
  unfold runImport
  cases haccept : acceptLink cr env.now link noVerify with
  | error e => exact .inl ⟨e, rfl⟩
  | ok p =>
    cases hid : env.identity with
    | error e => exact .inl ⟨e, rfl⟩
    | ok key => exact .inr ⟨p, key.1, _, rfl, rfl⟩

/-- A registration is verified exactly when the link brings a server key. -/
theorem registration_verified_iff (cr : Crypto) (lib : Yaml.Library Doc) (env : ImportEnv Doc)
    (link profileName deviceLabel : Bytes) (fs : Files Doc)
    (hreached : (runImport cr lib env link profileName deviceLabel false fs).bootstrap.isSome = true) :
    ∃ p kp label, decode link = .ok p ∧
      (runImport cr lib env link profileName deviceLabel false fs).bootstrap = some (p.token.bytes, kp, label) ∧
      ((p.verifySignature cr).1 = none ↔ p.serverKey.bytes ≠ []) := by
  rcases runImport_cases cr lib env link profileName deviceLabel false fs with ⟨e, hrun⟩ | ⟨p, kp, label, haccept, hrun⟩
  · rw [hrun] at hreached
    cases hreached
  · obtain ⟨hdecode, -, hverify⟩ := acceptLink_inv haccept
    obtain ⟨-, hcall, -⟩ := register_spec lib env p kp profileName label fs
    rw [hrun] at hreached ⊢
    obtain ⟨call, hsome⟩ := Option.isSome_iff_exists.mp hreached
    refine ⟨p, kp, label, hdecode, by rw [hsome, hcall call hsome], ?_, fun hkey => hverify hkey rfl⟩
    intro hnone hkey
    exact verifySignature_no_key hkey hnone

/-- A server that answers every dial and every registration with success. -/
def welcomingEnv : ImportEnv Yaml.Node where
  now := 0
  identity := .ok (⟨copyArr 32 [7], copyArr 64 [9]⟩, ascii "0a1b2c")
  hostname := ascii "laptop"
  dial := fun _ _ => .ok { rx := { chunks := [bootstrapStatusOK :: List.replicate 16 0], fin := .eof } }
  handshake := { now := 0, nonce := copyArr 16 [] }
  keyPath := ascii "identity.json"
  profilePath := fun name => name ++ ascii ".yaml"

def unsignedPayload : Payload :=
  { version := 1, server := ascii "vpn:443", token := some (List.replicate 32 5) }

def signedPayload : Payload :=
  { unsignedPayload with serverKey := some (List.replicate 32 7), sig := some (List.replicate 64 0xFF) }

theorem registration_verified_iff_signed :
    let cr : Crypto := { hashCrypto with ed25519Verify := fun _ _ sig => sig == List.replicate 64 0xFF }
    ∃ p kp label, decode signedPayload.encode = .ok p ∧
      (runImport cr (Yaml.codec default) welcomingEnv signedPayload.encode (ascii "work")
        [] false fun _ => none).bootstrap =
        some (p.token.bytes, kp, label) ∧
      ((p.verifySignature cr).1 = none ↔ p.serverKey.bytes ≠ []) := by
  intro cr
  apply registration_verified_iff
  have hdecode : decode signedPayload.encode = .ok signedPayload := by
    rw [decode_encode]
    rfl
  simp only [runImport, acceptLink, hdecode]
  rfl

theorem stripped_link_registers :
    let refused :=
      runImport hashCrypto (Yaml.codec default) welcomingEnv signedPayload.encode (ascii "work") [] false fun _ => none
    let accepted := runImport hashCrypto (Yaml.codec default) welcomingEnv unsignedPayload.encode (ascii "work")
      [] false fun _ => none
    refused.bootstrap = none ∧ accepted.bootstrap.isSome = true ∧ accepted.err = none ∧
      decode unsignedPayload.encode = .ok unsignedPayload ∧ (unsignedPayload.verifySignature hashCrypto).1 ≠ none := by
  have hsigned : decode signedPayload.encode = .ok signedPayload := by
    rw [decode_encode]
    rfl
  have hunsigned : decode unsignedPayload.encode = .ok unsignedPayload := by
    rw [decode_encode]
    rfl
  refine ⟨?_, ?_, ?_, hunsigned, verifySignature_no_key rfl⟩
  · simp only [runImport, acceptLink, hsigned]
    rfl
  · simp only [runImport, acceptLink, hunsigned]
    rfl
  · simp only [runImport, acceptLink, hunsigned]
    rfl

end Daxson.Cmd
