import Daxson.Auth.Spec

/-! # The device's key store

What the surroundings decide is an environment: file system errors, the generated keys and the clock.
-/

namespace Daxson.Identity

structure KeyPair extends Auth.KeyPair where
  deviceID : Bytes
  createdAt : Time
  deriving DecidableEq

structure StoredKey where
  publicKey : Bytes
  privateKey : Bytes
  deviceID : Bytes
  createdAt : Time
  deriving DecidableEq, Repr

inductive KeyFile where
  | json (sk : StoredKey)
  /-- The first `n` bytes of a longer document. -/
  | torn (sk : StoredKey) (n : Nat)
  /-- Any other bytes, with what `json.Unmarshal` says of them. -/
  | text (b : Bytes) (err : GoError)
  deriving DecidableEq

abbrev Files := Bytes → Option KeyFile

def Files.write (path : Bytes) (file : KeyFile) (fs : Files) : Files := Function.update fs path (some file)

/-- `os.Rename`, which replaces the file at `newpath`. -/
def Files.rename (oldpath newpath : Bytes) (fs : Files) : Files :=
  Function.update (Function.update fs newpath (fs oldpath)) oldpath none

inductive SaveOutcome where
  | ok
  | mkdirFails (err : SysError)
  | marshalFails (err : SysError)
  /-- `WriteFile` fails before it has touched the file, after `n` bytes, or when it closes the file. -/
  | openFails (err : SysError)
  | writeFails (n : Nat) (err : SysError)
  | closeFails (err : SysError)
  deriving DecidableEq, Repr

structure LoadEnv where
  /-- An error of `ReadFile` other than that there is no file. -/
  readErr : Option SysError := none
  /-- `ed25519.GenerateKey`. -/
  generated : Except SysError Auth.KeyPair
  now : Time := 0
  saved : SaveOutcome := .ok

def shortID (cr : Crypto) (pub : Bytes) : Bytes := hexEncode ((cr.sha256 pub).take 3)

def generate (cr : Crypto) (env : LoadEnv) : Except GoError KeyPair :=
  match env.generated with
  | .error e => .error (.wrap "identity: generate: %w" [] (.sys e))
  | .ok pair => .ok { pair with deviceID := shortID cr pair.publicKey.val, createdAt := env.now }

/-- The document that `Save` writes. -/
def KeyPair.stored (kp : KeyPair) : StoredKey where
  publicKey := kp.publicKey.val
  privateKey := kp.privateKey.val
  deviceID := jsonString kp.deviceID
  createdAt := kp.createdAt

def save (o : SaveOutcome) (kp : KeyPair) (path : Bytes) (fs : Files) : Option GoError × Files :=
  match o with
  | .mkdirFails e => (some (.wrap "identity: mkdir: %w" [] (.sys e)), fs)
  | .marshalFails e => (some (.wrap "identity: marshal: %w" [] (.sys e)), fs)
  | .openFails e => (some (.wrap "identity: write %s: %w" [path] (.sys e)), fs)
  | .writeFails n e => (some (.wrap "identity: write %s: %w" [path] (.sys e)), fs.write path (.torn kp.stored n))
  | .closeFails e => (some (.wrap "identity: write %s: %w" [path] (.sys e)), fs.write path (.json kp.stored))
  | .ok => (none, fs.write path (.json kp.stored))

def generateAndSave (cr : Crypto) (env : LoadEnv) (path : Bytes) (fs : Files) : Except GoError KeyPair × Files :=
  match generate cr env with
  | .error e => (.error e, fs)
  | .ok kp =>
    match save env.saved kp path fs with
    | (some e, fs) => (.error e, fs)
    | (none, fs) => (.ok kp, fs)

def load (cr : Crypto) (env : LoadEnv) (path : Bytes) (fs : Files) : Except GoError KeyPair × Files :=
  match env.readErr with
  | some e => (.error (.wrap "identity: read %s: %w" [path] (.sys e)), fs)
  | none =>
    match fs path with
    | none => generateAndSave cr env path fs
    | some (.torn _ _) => (.error (.wrap "identity: parse %s: %w" [path] (.new "unexpected end of JSON input" [])), fs)
    | some (.text _ err) => (.error (.wrap "identity: parse %s: %w" [path] err), fs)
    | some (.json sk) =>
      if h : sk.publicKey.length = 32 ∧ sk.privateKey.length = 64 then
        (.ok {
          publicKey := ⟨sk.publicKey, h.1⟩, privateKey := ⟨sk.privateKey, h.2⟩
          deviceID := sk.deviceID, createdAt := sk.createdAt }, fs)
      else (.error (.new "identity: corrupt key file %s" [path]), fs)

/-! ## What a load leaves -/

/-- The file at `path` is whole and has the keys of `pair`. -/
def Files.Holds (fs : Files) (path : Bytes) (pair : Auth.KeyPair) : Prop :=
  ∃ sk, fs path = some (.json sk) ∧ sk.publicKey = pair.publicKey.val ∧ sk.privateKey = pair.privateKey.val

theorem Files.Holds.inj {fs : Files} {path : Bytes} {pair pair' : Auth.KeyPair} (h : fs.Holds path pair)
    (h' : fs.Holds path pair') : pair = pair' := by
  obtain ⟨sk, hsk, hpub, hpriv⟩ := h
  obtain ⟨sk', hsk', hpub', hpriv'⟩ := h'
  rw [hsk, Option.some.injEq, KeyFile.json.injEq] at hsk'
  subst hsk'
  cases pair
  cases pair'
  simp only [Auth.KeyPair.mk.injEq]
  exact ⟨Subtype.ext (hpub.symm.trans hpub'), Subtype.ext (hpriv.symm.trans hpriv')⟩

theorem write_same (path : Bytes) (file : KeyFile) (fs : Files) : fs.write path file path = some file := by
  simp [Files.write]

theorem write_other {path p : Bytes} (file : KeyFile) (fs : Files) (h : p ≠ path) : fs.write path file p = fs p := by
  simp [Files.write, h]

theorem holds_write_stored (fs : Files) (path : Bytes) (kp : KeyPair) :
    (fs.write path (.json kp.stored)).Holds path kp.toKeyPair :=
  ⟨kp.stored, write_same path _ fs, rfl, rfl⟩

/-- A load that has to make its keys does so, without a failure on the way. -/
def LoadEnv.Succeeds (env : LoadEnv) (pair : Auth.KeyPair) : Prop :=
  env.readErr = none ∧ env.generated = .ok pair ∧ env.saved = .ok

/-- The keys of a load that fails are in the file all the same. -/
def LoadEnv.FailsLate (env : LoadEnv) (pair : Auth.KeyPair) : Prop :=
  env.readErr = none ∧ env.generated = .ok pair ∧ ∃ e, env.saved = .closeFails e

/-- How the load of a missing file ends. -/
inductive Made (env : LoadEnv) (path : Bytes) (fs : Files) : Except GoError KeyPair × Files → Prop
  | ok (kp : KeyPair) (h : env.Succeeds kp.toKeyPair) : Made env path fs (.ok kp, fs.write path (.json kp.stored))
  | late (kp : KeyPair) (err : GoError) (h : env.FailsLate kp.toKeyPair) :
      Made env path fs (.error err, fs.write path (.json kp.stored))
  | torn (sk : StoredKey) (n : Nat) (err : GoError) (h : ∀ pair, ¬env.Succeeds pair ∧ ¬env.FailsLate pair) :
      Made env path fs (.error err, fs.write path (.torn sk n))
  | nothing (err : GoError) (h : ∀ pair, ¬env.Succeeds pair ∧ ¬env.FailsLate pair) : Made env path fs (.error err, fs)

theorem load_missing (cr : Crypto) (env : LoadEnv) {path : Bytes} {fs : Files} (hmissing : fs path = none) :
    Made env path fs (load cr env path fs) := by
  unfold load
  cases hread : env.readErr with
  | some e => exact .nothing _ fun pair => by simp [LoadEnv.Succeeds, LoadEnv.FailsLate, hread]
  | none =>
    simp only [hmissing, generateAndSave, generate]
    cases hgen : env.generated with
    | error e => exact .nothing _ fun pair => by simp [LoadEnv.Succeeds, LoadEnv.FailsLate, hgen]
    | ok pair =>
      cases hsaved : env.saved with
      | ok => exact .ok _ ⟨hread, hgen, hsaved⟩
      | closeFails e => exact .late _ _ ⟨hread, hgen, e, hsaved⟩
      | writeFails n e => exact .torn _ _ _ fun pair => by simp [LoadEnv.Succeeds, LoadEnv.FailsLate, hsaved]
      | _ => exact .nothing _ fun pair => by simp [LoadEnv.Succeeds, LoadEnv.FailsLate, hsaved]

theorem load_holds (cr : Crypto) (env : LoadEnv) {path : Bytes} {fs : Files} {pair : Auth.KeyPair}
    (h : fs.Holds path pair) :
    (load cr env path fs).2 = fs ∧ ((∃ e, (load cr env path fs).1 = .error e) ↔ env.readErr ≠ none) := by
  obtain ⟨sk, hsk, hpub, hpriv⟩ := h
  have hsizes : sk.publicKey.length = 32 ∧ sk.privateKey.length = 64 := by
    rw [hpub, hpriv]
    exact ⟨pair.publicKey.property, pair.privateKey.property⟩
  unfold load
  cases hread : env.readErr with
  | some e => simp
  | none => simp [hsk, hsizes]

end Daxson.Identity
