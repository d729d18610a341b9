import Daxson.Crypto
import Daxson.Invite.Wire
import Daxson.Lib.Grow

/-! # The device and invite registry

Each operation of `registry.go` reads the clock once.
-/

open Lib.Grow

namespace Daxson.Registry

open Invite

structure Device where
  pubKey : Bytes
  deviceID : Bytes
  label : Bytes
  registeredAt : Time
  lastSeenAt : Time := zeroTime
  revoked : Bool := false
  deriving DecidableEq, Repr

structure InviteRecord where
  token : Bytes
  tokenID : Bytes
  label : Bytes
  /-- 0 = single-use. -/
  maxUses : Int
  uses : Int := 0
  /-- Unix seconds; 0 = no expiry. -/
  expiresAt : Int
  createdAt : Time
  revoked : Bool := false
  deriving DecidableEq, Repr

def InviteRecord.isExpired (now : Time) (r : InviteRecord) : Bool :=
  r.expiresAt != 0 && r.expiresAt < now.unix

structure StoreData where
  devices : List Device := []
  invites : List InviteRecord := []
  deriving DecidableEq, Repr

/-- The data after `json.MarshalIndent` and `json.Unmarshal`. The keys, tokens and IDs are base64
and hex text, so only a label can change. -/
def jsonImage (d : StoreData) : StoreData where
  devices := d.devices.map fun x => { x with label := jsonString x.label }
  invites := d.invites.map fun x => { x with label := jsonString x.label }

/-! ## The file -/

/-- A whole document, or the first `n` bytes of one. -/
inductive FileContent where
  | json (d : StoreData)
  | torn (d : StoreData) (n : Nat)
  deriving DecidableEq, Repr

structure Disk where
  path : Bytes := []
  file : Option FileContent := none
  tmp : Option FileContent := none
  deriving DecidableEq, Repr

/-- `Load`, with the error of `os.ReadFile` when there is one. -/
def load (readErr : Option SysError) (disk : Disk) : Except GoError StoreData :=
  match readErr with
  | some e => .error (.wrap "registry: read %s: %w" [disk.path] (.sys e))
  | none =>
    match disk.file with
    | none => .ok {}
    | some (.json d) => .ok d
    | some (.torn _ _) =>
      .error (.wrap "registry: parse %s: %w" [disk.path] (.new "unexpected end of JSON input" []))

end Daxson.Registry

/-- One instance and the disk that it shares with the others. -/
structure Daxson.Registry where
  data : Daxson.Registry.StoreData := {}
  disk : Daxson.Registry.Disk := {}
  deriving DecidableEq, Repr

namespace Daxson.Registry

open Invite

inductive SaveOutcome where
  | ok
  | mkdirFails (err : SysError)
  | marshalFails (err : SysError)
  | writeFails (n : Nat) (err : SysError)
  | renameFails (err : SysError)
  deriving DecidableEq, Repr

/-- `save`: the whole store to `path.tmp`, then a rename. -/
def save (o : SaveOutcome) (r : Registry) : Option GoError × Registry :=
  let doc := jsonImage r.data
  match o with
  | .ok => (none, { r with disk := { r.disk with file := some (.json doc), tmp := none } })
  | .mkdirFails e => (some (.wrap "registry: mkdir: %w" [] (.sys e)), r)
  | .marshalFails e => (some (.sys e), r)
  | .writeFails n e =>
    (some (.wrap "registry: write tmp: %w" [] (.sys e)),
      { r with disk := { r.disk with tmp := some (.torn doc n) } })
  | .renameFails e => (some (.sys e), { r with disk := { r.disk with tmp := some (.json doc) } })

/-! ## The operations -/

def bytesEqual (a b : Bytes) : Bool :=
  if a.length != b.length then false else (a.zip b).all fun (x, y) => x == y

def shortDeviceID (cr : Crypto) (pub : Bytes) : Bytes := hexEncode ((cr.sha256 pub).take 3)

def shortHex (cr : Crypto) (b : Bytes) : Bytes := hexEncode ((cr.sha256 b).take 4)

def authorizeDevice (now : Time) (o : SaveOutcome) (pub : Bytes) (r : Registry) :
    UInt8 × Registry :=
  match firstMatch (fun d : Device => bytesEqual d.pubKey pub) r.data.devices with
  | none => (authStatusUnknown, r)
  | some (i, d) =>
    if d.revoked then (authStatusRevoked, r)
    else
      let devices := r.data.devices.modify i fun d => { d with lastSeenAt := now }
      -- The error of `save` is dropped.
      (authStatusOK, (save o { r with data := { r.data with devices := devices } }).2)

def InviteRecord.limit (inv : InviteRecord) : Int := if inv.maxUses ≤ 0 then 1 else inv.maxUses

def newDevice (cr : Crypto) (now : Time) (pub label : Bytes) : Device where
  pubKey := pub
  deviceID := shortDeviceID cr pub
  label := if label.isEmpty then ascii "device-" ++ shortDeviceID cr pub else label
  registeredAt := now

def bootstrap (cr : Crypto) (now : Time) (o : SaveOutcome) (token pub label : Bytes)
    (r : Registry) : (UInt8 × Option GoError) × Registry :=
  match firstMatch (fun inv : InviteRecord => !inv.revoked && bytesEqual inv.token token)
      r.data.invites with
  | none => ((bootstrapStatusInvalidToken, none), r)
  | some (i, found) =>
    if found.isExpired now then ((bootstrapStatusExpired, none), r)
    else if found.limit ≤ found.uses then ((bootstrapStatusUsed, none), r)
    else
      let data : StoreData := {
        devices := r.data.devices ++ [newDevice cr now pub label]
        invites := r.data.invites.modify i fun inv => { inv with uses := inv.uses + 1 } }
      match save o { r with data := data } with
      | (some e, r') => ((0, some (.wrap "registry: save after bootstrap: %w" [] e)), r')
      | (none, r') => ((bootstrapStatusOK, none), r')

def newInvite (cr : Crypto) (now : Time) (tok label : Bytes) (maxUses ttl : Int) : InviteRecord where
  token := tok
  tokenID := shortHex cr tok
  label := label
  maxUses := maxUses
  expiresAt := if 0 < ttl then (now + ttl : Time).unix else 0
  createdAt := now

/-- `CreateInvite`, with what `GenerateToken` drew. -/
def createInvite (cr : Crypto) (now : Time) (o : SaveOutcome)
    (draw : Except SysError (ByteArr 32)) (label : Bytes) (maxUses ttl : Int) (r : Registry) :
    Except GoError InviteRecord × Registry :=
  match draw with
  | .error e => (.error (.wrap "invite: generate token: %w" [] (.sys e)), r)
  | .ok tok =>
    let record := newInvite cr now tok.val label maxUses ttl
    match save o { r with data := { r.data with invites := r.data.invites ++ [record] } } with
    | (some e, r') => (.error e, r')
    | (none, r') => (.ok record, r')

def revokeInvite (o : SaveOutcome) (tokenID : Bytes) (r : Registry) :
    Option GoError × Registry :=
  match firstMatch (fun inv : InviteRecord => inv.tokenID == tokenID || tokenID.isPrefixOf inv.tokenID)
      r.data.invites with
  | none => (some (.new "registry: invite %q not found" [tokenID]), r)
  | some (i, _) =>
    let invites := r.data.invites.modify i fun inv => { inv with revoked := true }
    save o { r with data := { r.data with invites := invites } }

def revokeDevice (o : SaveOutcome) (deviceID : Bytes) (r : Registry) :
    Option GoError × Registry :=
  match firstMatch (fun d : Device => d.deviceID == deviceID) r.data.devices with
  | none => (some (.new "registry: device %q not found" [deviceID]), r)
  | some (i, _) =>
    let devices := r.data.devices.modify i fun d => { d with revoked := true }
    save o { r with data := { r.data with devices := devices } }

def deviceCount (r : Registry) : Nat := r.data.devices.foldl (fun n d => if d.revoked then n else n + 1) 0

/-! ## Runs -/

inductive Op where
  | load (readErr : Option SysError)
  | authorizeDevice (now : Time) (save : SaveOutcome) (pub : Bytes)
  | bootstrap (now : Time) (save : SaveOutcome) (token pub label : Bytes)
  | createInvite (now : Time) (save : SaveOutcome) (draw : Except SysError (ByteArr 32)) (label : Bytes)
      (maxUses ttl : Int)
  | revokeInvite (save : SaveOutcome) (tokenID : Bytes)
  | revokeDevice (save : SaveOutcome) (deviceID : Bytes)

inductive Reply where
  | loaded (err : Option GoError)
  | status (s : UInt8)
  | bootstrap (s : UInt8) (err : Option GoError)
  | invite (res : Except GoError InviteRecord)
  | done (err : Option GoError)

/-- One call. A restart is a `load` into a fresh instance; one that fails leaves no new instance. -/
def exec (cr : Crypto) (op : Op) (r : Registry) : Reply × Registry :=
  match op with
  | .load readErr =>
    match Registry.load readErr r.disk with
    | .ok d => (.loaded none, { r with data := d })
    | .error e => (.loaded (some e), r)
  | .authorizeDevice now o pub =>
    let (s, r') := r.authorizeDevice now o pub
    (.status s, r')
  | .bootstrap now o token pub label =>
    let ((s, e), r') := r.bootstrap cr now o token pub label
    (.bootstrap s e, r')
  | .createInvite now o draw label maxUses ttl =>
    let (res, r') := r.createInvite cr now o draw label maxUses ttl
    (.invite res, r')
  | .revokeInvite o tokenID =>
    let (e, r') := r.revokeInvite o tokenID
    (.done e, r')
  | .revokeDevice o deviceID =>
    let (e, r') := r.revokeDevice o deviceID
    (.done e, r')

def execAll (cr : Crypto) (ops : List Op) (r : Registry) : Registry :=
  ops.foldl (fun r op => (r.exec cr op).2) r

/-- How the call's `save` goes, where it has one. -/
def Op.saveOutcome : Op → SaveOutcome
  | .load _ => .ok
  | .authorizeDevice _ o _ => o
  | .bootstrap _ o _ _ _ => o
  | .createInvite _ o _ _ _ _ => o
  | .revokeInvite o _ => o
  | .revokeDevice o _ => o

end Daxson.Registry
