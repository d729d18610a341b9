import Daxson.Registry.Spec

/-! # The three handshakes

A server handshake reads the clock once. A read that times out is a reader that ends in that error.
-/

open Lib.BigEndian

namespace Daxson.Protocol

def protocolVersion : UInt8 := 0x01
def authRequestSize : Nat := 49
def authResponseSize : Nat := 17
def authStatusOK : UInt8 := 0x00
def authStatusFail : UInt8 := 0xFF

end Daxson.Protocol

namespace Daxson.Auth

open Invite
open Protocol (protocolVersion authRequestSize authResponseSize)

def errAuthFailed : GoError := .sentinel "auth: authentication failed"

def isAuthFailed (e : GoError) : Bool := e.is errAuthFailed

structure Handshaker where
  psk : Bytes
  deriving DecidableEq, Repr

/-- `New`: the key is the hash of the PSK string, whatever its length. -/
def new (cr : Crypto) (psk : Bytes) : Handshaker := ⟨cr.sha256 psk⟩

def timeBucket (t : Time) : Bytes := formatInt (Int.tdiv t.unix 30)

def computeToken (cr : Crypto) (psk nonce bucket : Bytes) : Bytes :=
  cr.hmac psk (ascii "daxson-v1:" ++ hexEncode nonce ++ ascii ":" ++ bucket)

/-- What the surroundings decide during one server handshake. -/
structure ServerEnv where
  now : Time
  /-- The random session ID, and the error of drawing it. -/
  sid : ByteArr 16
  sidErr : Option SysError := none
  failBytes : ByteArr 16
  write : WriteOutcome := .full
  save : Registry.SaveOutcome := .ok

structure ClientEnv where
  now : Time
  nonce : ByteArr 16
  nonceErr : Option SysError := none
  write : WriteOutcome := .full

/-! ## HMAC -/

def Handshaker.request (cr : Crypto) (h : Handshaker) (nonce : ByteArr 16) (now : Time) : Bytes :=
  [protocolVersion] ++ (nonce.val ++ computeToken cr h.psk nonce.val (timeBucket now))

def Handshaker.clientHandshake (cr : Crypto) (h : Handshaker) (env : ClientEnv) (c : NetConn) :
    Except GoError (ByteArr 16) × NetConn :=
  match env.nonceErr with
  | some e => (.error (.wrap "auth: generate nonce: %w" [] (.sys e)), c)
  | none =>
    match c.write env.write (h.request cr env.nonce env.now) with
    | (some e, c) => (.error (.wrap "auth: write request: %w" [] (.sys e)), c)
    | (none, c) =>
      match readFull authResponseSize c.rx with
      | (.error e, rx) => (.error (.wrap "auth: read response: %w" [] (.sys e)), { c with rx := rx })
      | (.ok resp, rx) =>
        if resp.headD 0 != Protocol.authStatusOK then (.error errAuthFailed, { c with rx := rx })
        else (.ok (copyArr 16 (slice resp 1 17)), { c with rx := rx })

/-- The token check of `ServerHandshake`, for the current and the previous bucket. -/
def validToken (cr : Crypto) (psk : Bytes) (now : Time) (req : Bytes) : Bool :=
  let nonce := slice req 1 17
  let token := slice req 17 49
  token == computeToken cr psk nonce (timeBucket now) ||
    token == computeToken cr psk nonce (timeBucket (now - 30 * second))

def writeFailResponse (env : ServerEnv) (c : NetConn) : NetConn :=
  (c.write env.write ([Protocol.authStatusFail] ++ env.failBytes.val)).2

/-- `ServerHandshake` after the request is read. -/
def Handshaker.answer (cr : Crypto) (h : Handshaker) (env : ServerEnv) (req : Bytes) (c : NetConn) :
    Except GoError (ByteArr 16) × NetConn :=
  if req.headD 0 != protocolVersion then (.error errAuthFailed, writeFailResponse env c)
  else if !validToken cr h.psk env.now req then (.error errAuthFailed, writeFailResponse env c)
  else
    match env.sidErr with
    | some e => (.error (.wrap "auth: generate session id: %w" [] (.sys e)), writeFailResponse env c)
    | none =>
      match c.write env.write ([Protocol.authStatusOK] ++ env.sid.val) with
      | (some e, c) => (.error (.wrap "auth: write response: %w" [] (.sys e)), c)
      | (none, c) => (.ok env.sid, c)

def Handshaker.serverHandshake (cr : Crypto) (h : Handshaker) (env : ServerEnv) (c : NetConn) :
    Except GoError (ByteArr 16) × NetConn :=
  match readFull authRequestSize c.rx with
  | (.error e, rx) => (.error (.wrap "auth: read request: %w" [] (.sys e)), { c with rx := rx })
  | (.ok req, rx) => h.answer cr env req { c with rx := rx }

/-! ## Clients of the device and bootstrap modes -/

/-- An identity key pair. `Load` refuses keys of other lengths. -/
structure KeyPair where
  publicKey : ByteArr 32
  privateKey : ByteArr 64
  deriving DecidableEq

/-- `uint64(t.Unix() / 30)`. -/
def bucketOf (t : Time) : UInt64 := UInt64.ofInt (Int.tdiv t.unix 30)

/-- The signed message: PubKey, Nonce, TimeBucket. -/
def signedMessage (pub : ByteArr 32) (nonce : ByteArr 16) (bucket : UInt64) : Bytes :=
  pub.val ++ nonce.val ++ beBytes 8 bucket.toNat

def deviceRequest (cr : Crypto) (kp : KeyPair) (env : ClientEnv) : DeviceAuthRequest :=
  let pub := copyArr 32 kp.publicKey.val
  let bucket := bucketOf env.now
  { version := msgTypeDeviceAuth
    pubKey := pub
    nonce := env.nonce
    timeBucket := bucket
    sig := copyArr 64 (cr.ed25519Sign kp.privateKey.val (signedMessage pub env.nonce bucket)) }

/-- The exchange that both client sides make: send `req`, read one status response, and turn each
status but `ok` into an error. -/
def statusExchange (sendErr recvErr what : String) (ok : UInt8) (refusal : UInt8 → GoError) (req : Bytes)
    (env : ClientEnv) (c : NetConn) : Except GoError (ByteArr 16) × NetConn :=
  match c.write env.write req with
  | (some e, c) => (.error (.wrap sendErr [] (.sys e)), c)
  | (none, c) =>
    match readFull statusResponseSize c.rx with
    | (.error e, rx) => (.error (.wrap recvErr [] (.sys e)), { c with rx := rx })
    | (.ok buf, rx) =>
      match unmarshalStatus what buf with
      | .error e => (.error e, { c with rx := rx })
      | .ok resp =>
        if resp.status = ok then (.ok resp.sessionID, { c with rx := rx })
        else (.error (refusal resp.status), { c with rx := rx })

def deviceRefusal (status : UInt8) : GoError :=
  if status = authStatusRevoked then .new "device auth: device has been revoked" []
  else if status = authStatusUnknown then
    .new "device auth: device not registered — run 'daxson import <link>'" []
  else .new "device auth: rejected (0x%02x)" [[status]]

def deviceHandshake (cr : Crypto) (kp : KeyPair) (env : ClientEnv) (c : NetConn) :
    Except GoError (ByteArr 16) × NetConn :=
  statusExchange "device auth: send: %w" "device auth: recv: %w" "device auth response" Invite.authStatusOK
    deviceRefusal (deviceRequest cr kp env).marshal env c

def bootstrapRequest (token : Bytes) (kp : KeyPair) (label : Bytes) (env : ClientEnv) : BootstrapRequest where
  version := msgTypeBootstrap
  token := copyArr 32 token
  devicePub := copyArr 32 kp.publicKey.val
  label := copyArr 64 (label.take 64)
  nonce := env.nonce

def bootstrapRefusal (status : UInt8) : GoError :=
  if status = bootstrapStatusInvalidToken then
    .new "bootstrap: invalid token — invite link may be wrong or for a different server" []
  else if status = bootstrapStatusExpired then .new "bootstrap: invite has expired" []
  else if status = bootstrapStatusUsed then .new "bootstrap: invite has already been used" []
  else .new "bootstrap: rejected (0x%02x)" [[status]]

def bootstrapClient (token : Bytes) (kp : KeyPair) (label : Bytes) (env : ClientEnv) (c : NetConn) :
    Except GoError (ByteArr 16) × NetConn :=
  statusExchange "bootstrap: send: %w" "bootstrap: recv: %w" "bootstrap response" bootstrapStatusOK
    bootstrapRefusal (bootstrapRequest token kp label env).marshal env c

/-! ## The server side of the device and bootstrap modes -/

inductive AuthMode where
  | hmac
  | device
  | bootstrap
  deriving DecidableEq, Repr

structure ServerAuthResult where
  sessionID : ByteArr 16
  devicePub : Option Bytes := none
  mode : AuthMode
  deriving DecidableEq

/-- Both failure writers: a status and random bytes, and the write error is dropped. -/
def writeStatusFail (env : ServerEnv) (status : UInt8) (c : NetConn) : NetConn :=
  (c.write env.write (StatusResponse.marshal ⟨status, env.failBytes⟩)).2

def writeDeviceAuthFail : ServerEnv → UInt8 → NetConn → NetConn := writeStatusFail
def writeBootstrapFail : ServerEnv → UInt8 → NetConn → NetConn := writeStatusFail

/-- `identity.Verify`. -/
def verify (cr : Crypto) (pub msg sig : Bytes) : Bool :=
  if pub.length != 32 || sig.length != 64 then false else cr.ed25519Verify pub msg sig

/-- `deviceServerHandshake` after the request is read. -/
def deviceAnswer (cr : Crypto) (env : ServerEnv) (full : Bytes) (reg : Registry) (c : NetConn) :
    Except GoError ServerAuthResult × NetConn × Registry :=
  match unmarshalDeviceAuthRequest full with
  | .error e => (.error e, c, reg)
  | .ok req =>
    let now := bucketOf env.now
    if req.timeBucket < now - 1 || req.timeBucket > now + 1 then
      (.error (.new "device auth server: stale time bucket" []),
        writeDeviceAuthFail env authStatusRejected c, reg)
    else if !verify cr req.pubKey.val (signedMessage req.pubKey req.nonce req.timeBucket) req.sig.val then
      (.error (.new "device auth server: invalid signature" []),
        writeDeviceAuthFail env authStatusRejected c, reg)
    else
      let (status, reg) := reg.authorizeDevice env.now env.save req.pubKey.val
      let c := (c.write env.write (StatusResponse.marshal ⟨status, env.sid⟩)).2
      if status != Invite.authStatusOK then (.error errAuthFailed, c, reg)
      else (.ok { sessionID := env.sid, devicePub := some req.pubKey.val, mode := .device }, c, reg)

def deviceServerHandshake (cr : Crypto) (env : ServerEnv) (firstByte : Bytes) (reg : Registry) (c : NetConn) :
    Except GoError ServerAuthResult × NetConn × Registry :=
  match readFull (deviceAuthRequestSize - 1) c.rx with
  | (.error e, rx) => (.error (.wrap "device auth server: read: %w" [] (.sys e)), { c with rx := rx }, reg)
  | (.ok remaining, rx) => deviceAnswer cr env (firstByte ++ remaining) reg { c with rx := rx }

def nullTrimBytes (b : Bytes) : Bytes := b.takeWhile (· != 0)

/-- `bootstrapServerHandshake` after the request is read. -/
def bootstrapAnswer (cr : Crypto) (env : ServerEnv) (full : Bytes) (reg : Registry) (c : NetConn) :
    Except GoError ServerAuthResult × NetConn × Registry :=
  match unmarshalBootstrapRequest full with
  | .error e => (.error e, c, reg)
  | .ok req =>
    let label := nullTrimBytes req.label.val
    let ((status, regErr), reg) := reg.bootstrap cr env.now env.save req.token.val req.devicePub.val label
    -- The response goes out before the error of the registry is looked at.
    let c := (c.write env.write (StatusResponse.marshal ⟨status, env.sid⟩)).2
    match regErr with
    | some e => (.error (.wrap "bootstrap server: %w" [] e), c, reg)
    | none =>
      if status != bootstrapStatusOK then (.error errAuthFailed, c, reg)
      else (.ok { sessionID := env.sid, devicePub := some req.devicePub.val, mode := .bootstrap }, c, reg)

def bootstrapServerHandshake (cr : Crypto) (env : ServerEnv) (firstByte : Bytes) (reg : Registry)
    (c : NetConn) : Except GoError ServerAuthResult × NetConn × Registry :=
  match readFull (bootstrapRequestSize - 1) c.rx with
  | (.error e, rx) => (.error (.wrap "bootstrap server: read: %w" [] (.sys e)), { c with rx := rx }, reg)
  | (.ok remaining, rx) => bootstrapAnswer cr env (firstByte ++ remaining) reg { c with rx := rx }

/-! ## Dispatch -/

/-- `ServerDispatch`. Without a registry, device and bootstrap auth are rejected. -/
def serverDispatch (cr : Crypto) (env : ServerEnv) (hs : Handshaker) (reg : Option Registry) (c : NetConn) :
    Except GoError ServerAuthResult × NetConn × Option Registry :=
  match readFull 1 c.rx with
  | (.error e, rx) => (.error (.wrap "auth dispatch: read version: %w" [] (.sys e)), { c with rx := rx }, reg)
  | (.ok vb, rx) =>
    let c := { c with rx := rx }
    let v := vb.headD 0
    if v = protocolVersion then
      -- The version byte goes in front of the connection again.
      match hs.serverHandshake cr env { c with rx := c.rx.prepend vb } with
      | (.error e, c) => (.error e, c, reg)
      | (.ok sid, c) => (.ok { sessionID := sid, mode := .hmac }, c, reg)
    else if v = msgTypeDeviceAuth then
      match reg with
      | none => (.error errAuthFailed, writeDeviceAuthFail env authStatusRejected c, none)
      | some r =>
        let (res, c, r) := deviceServerHandshake cr env vb r c
        (res, c, some r)
    else if v = msgTypeBootstrap then
      match reg with
      | none => (.error errAuthFailed, writeBootstrapFail env bootstrapStatusInvalidToken c, none)
      | some r =>
        let (res, c, r) := bootstrapServerHandshake cr env vb r c
        (res, c, some r)
    else (.error errAuthFailed, c, reg)

end Daxson.Auth
