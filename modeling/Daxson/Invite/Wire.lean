import Daxson.Go
import Daxson.Lib.Buffer

/-! # The auth messages on the wire

`store` is what a `Marshal` copies into its buffer, and `marshal` is the layout that comes of it.
-/

open Lib.BigEndian
open Lib.Buffer

namespace Daxson.Invite

def msgTypeDeviceAuth : UInt8 := 0x02
def msgTypeBootstrap : UInt8 := 0x03

def authStatusOK : UInt8 := 0x00
def authStatusRejected : UInt8 := 0x01
def authStatusRevoked : UInt8 := 0x02
def authStatusUnknown : UInt8 := 0x03

def bootstrapStatusOK : UInt8 := 0x00
def bootstrapStatusInvalidToken : UInt8 := 0x01
def bootstrapStatusExpired : UInt8 := 0x02
def bootstrapStatusUsed : UInt8 := 0x03

def needBytes (what : String) (need got : Nat) : GoError :=
  .new (what ++ ": need %d bytes, got %d") [formatInt need, formatInt got]

/-! ## Messages of a fixed size -/

section FixedSize

variable {μ : Type} {size : Nat}

/-- A message format of `size` bytes. A `Marshal` that stores out of its buffer has no result. -/
structure FixedSize (size : Nat) (marshal : μ → Option Bytes) (unmarshal : Bytes → Except GoError μ) : Prop where
  round_trip : ∀ m, ∃ b, marshal m = some b ∧ b.length = size ∧ unmarshal b = .ok m
  fails_iff : ∀ b, (∃ e, unmarshal b = .error e) ↔ b.length < size
  marshal_unmarshal : ∀ b m, unmarshal b = .ok m → marshal m = some (b.take size)

variable {layout : μ → Bytes} {unmarshal : Bytes → Except GoError μ}

theorem unmarshal_layout (hlen : ∀ m, (layout m).length = size) (hinj : Function.Injective layout)
    (hfails : ∀ b, (∃ e, unmarshal b = .error e) ↔ b.length < size)
    (hback : ∀ b m, unmarshal b = .ok m → layout m = b.take size) (m : μ) : unmarshal (layout m) = .ok m := by
  cases h : unmarshal (layout m) with
  | error e =>
    have hshort := (hfails _).mp ⟨e, h⟩
    rw [hlen] at hshort
    exact absurd hshort (lt_irrefl _)
  | ok m' =>
    have hsame := hback _ _ h
    rw [List.take_of_length_le (hlen m).le] at hsame
    rw [hinj hsame]

end FixedSize

/-! ## Device auth request -/

structure DeviceAuthRequest where
  version : UInt8
  pubKey : ByteArr 32
  nonce : ByteArr 16
  timeBucket : UInt64
  sig : ByteArr 64
  deriving DecidableEq

def deviceAuthRequestSize : Nat := 121

def DeviceAuthRequest.marshal (r : DeviceAuthRequest) : Bytes :=
  [r.version] ++ (r.pubKey.val ++ (r.nonce.val ++ (beBytes 8 r.timeBucket.toNat ++ r.sig.val)))

def DeviceAuthRequest.store (r : DeviceAuthRequest) : Option Bytes :=
  copyAll (List.replicate deviceAuthRequestSize 0)
    [(0, 1, [r.version]), (1, 33, r.pubKey.val), (33, 49, r.nonce.val),
      (49, 57, beBytes 8 r.timeBucket.toNat), (57, deviceAuthRequestSize, r.sig.val)]

def unmarshalDeviceAuthRequest (b : Bytes) : Except GoError DeviceAuthRequest :=
  if b.length < deviceAuthRequestSize then
    .error (needBytes "device auth request" deviceAuthRequestSize b.length)
  else
    .ok {
      version := b.headD 0
      pubKey := copyArr 32 (slice b 1 33)
      nonce := copyArr 16 (slice b 33 49)
      timeBucket := UInt64.ofNat (beVal (slice b 49 57))
      sig := copyArr 64 (slice b 57 121) }

@[simp] theorem DeviceAuthRequest.marshal_length (r : DeviceAuthRequest) : r.marshal.length = 121 := by
  simp [DeviceAuthRequest.marshal, r.pubKey.property, r.nonce.property, r.sig.property]

theorem DeviceAuthRequest.store_eq (r : DeviceAuthRequest) : r.store = some r.marshal := by
  unfold store
  rw [copyAll_eq _ _ List.length_replicate]
  · simp [marshal]
  · simp [Tiles, deviceAuthRequestSize, r.pubKey.property, r.nonce.property, r.sig.property]

theorem DeviceAuthRequest.marshal_injective : Function.Injective marshal := by
  intro r r' h
  unfold marshal at h
  obtain ⟨hversion, h⟩ := List.append_inj h rfl
  obtain ⟨hkey, h⟩ := List.append_inj h (r.pubKey.property.trans r'.pubKey.property.symm)
  obtain ⟨hnonce, h⟩ := List.append_inj h (r.nonce.property.trans r'.nonce.property.symm)
  obtain ⟨hbucket, hsig⟩ := List.append_inj h (by simp)
  have hsame := beBytes_inj r.timeBucket.toNat_lt r'.timeBucket.toNat_lt hbucket
  cases r
  cases r'
  simp only [mk.injEq]
  exact ⟨List.singleton_inj.mp hversion, Subtype.ext hkey, Subtype.ext hnonce, UInt64.toNat_inj.mp hsame,
    Subtype.ext hsig⟩

theorem unmarshalDeviceAuthRequest_fails (b : Bytes) :
    (∃ e, unmarshalDeviceAuthRequest b = .error e) ↔ b.length < deviceAuthRequestSize := by
  unfold unmarshalDeviceAuthRequest
  split_ifs with h <;> simp [h]

theorem marshal_unmarshalDeviceAuthRequest (b : Bytes) (r : DeviceAuthRequest)
    (h : unmarshalDeviceAuthRequest b = .ok r) : r.marshal = b.take deviceAuthRequestSize := by
  unfold unmarshalDeviceAuthRequest at h
  split_ifs at h with hlen
  injection h with h
  subst h
  have hsize : 121 ≤ b.length := not_lt.mp hlen
  have hbucket : beVal (slice b 49 57) < 2 ^ 64 := by
    have := beVal_lt (slice b 49 57)
    rwa [slice_length b (by omega)] at this
  unfold DeviceAuthRequest.marshal
  dsimp only
  rw [UInt64.toNat_ofNat_of_lt' hbucket, ← take_one_eq (by omega)]
  simp (disch := omega) only [copyArr_slice, beBytes_slice, ← List.append_assoc]
  rw [← take_slice b (by decide), ← take_slice b (by decide), ← take_slice b (by decide),
    ← take_slice b (by decide)]
  rfl

theorem unmarshalDeviceAuthRequest_marshal (r : DeviceAuthRequest) :
    unmarshalDeviceAuthRequest r.marshal = .ok r :=
  unmarshal_layout DeviceAuthRequest.marshal_length DeviceAuthRequest.marshal_injective
    unmarshalDeviceAuthRequest_fails marshal_unmarshalDeviceAuthRequest r

/-! ## Bootstrap request -/

structure BootstrapRequest where
  version : UInt8
  token : ByteArr 32
  devicePub : ByteArr 32
  /-- UTF-8, null-padded. -/
  label : ByteArr 64
  nonce : ByteArr 16
  deriving DecidableEq

def bootstrapRequestSize : Nat := 145

def BootstrapRequest.marshal (r : BootstrapRequest) : Bytes :=
  [r.version] ++ (r.token.val ++ (r.devicePub.val ++ (r.label.val ++ r.nonce.val)))

def BootstrapRequest.store (r : BootstrapRequest) : Option Bytes :=
  copyAll (List.replicate bootstrapRequestSize 0)
    [(0, 1, [r.version]), (1, 33, r.token.val), (33, 65, r.devicePub.val), (65, 129, r.label.val),
      (129, bootstrapRequestSize, r.nonce.val)]

def unmarshalBootstrapRequest (b : Bytes) : Except GoError BootstrapRequest :=
  if b.length < bootstrapRequestSize then
    .error (needBytes "bootstrap request" bootstrapRequestSize b.length)
  else
    .ok {
      version := b.headD 0
      token := copyArr 32 (slice b 1 33)
      devicePub := copyArr 32 (slice b 33 65)
      label := copyArr 64 (slice b 65 129)
      nonce := copyArr 16 (slice b 129 145) }

@[simp] theorem BootstrapRequest.marshal_length (r : BootstrapRequest) : r.marshal.length = 145 := by
  simp [BootstrapRequest.marshal, r.token.property, r.devicePub.property, r.label.property,
    r.nonce.property]

theorem BootstrapRequest.store_eq (r : BootstrapRequest) : r.store = some r.marshal := by
  unfold store
  rw [copyAll_eq _ _ List.length_replicate]
  · simp [marshal]
  · simp [Tiles, bootstrapRequestSize, r.token.property, r.devicePub.property, r.label.property, r.nonce.property]

theorem BootstrapRequest.marshal_injective : Function.Injective marshal := by
  intro r r' h
  unfold marshal at h
  obtain ⟨hversion, h⟩ := List.append_inj h rfl
  obtain ⟨htoken, h⟩ := List.append_inj h (r.token.property.trans r'.token.property.symm)
  obtain ⟨hpub, h⟩ := List.append_inj h (r.devicePub.property.trans r'.devicePub.property.symm)
  obtain ⟨hlabel, hnonce⟩ := List.append_inj h (r.label.property.trans r'.label.property.symm)
  cases r
  cases r'
  simp only [mk.injEq]
  exact ⟨List.singleton_inj.mp hversion, Subtype.ext htoken, Subtype.ext hpub, Subtype.ext hlabel,
    Subtype.ext hnonce⟩

theorem unmarshalBootstrapRequest_fails (b : Bytes) :
    (∃ e, unmarshalBootstrapRequest b = .error e) ↔ b.length < bootstrapRequestSize := by
  unfold unmarshalBootstrapRequest
  split_ifs with h <;> simp [h]

theorem marshal_unmarshalBootstrapRequest (b : Bytes) (r : BootstrapRequest)
    (h : unmarshalBootstrapRequest b = .ok r) : r.marshal = b.take bootstrapRequestSize := by
  unfold unmarshalBootstrapRequest at h
  split_ifs at h with hlen
  injection h with h
  subst h
  have hsize : 145 ≤ b.length := not_lt.mp hlen
  unfold BootstrapRequest.marshal
  dsimp only
  rw [← take_one_eq (by omega)]
  simp (disch := omega) only [copyArr_slice, ← List.append_assoc]
  rw [← take_slice b (by decide), ← take_slice b (by decide), ← take_slice b (by decide),
    ← take_slice b (by decide)]
  rfl

theorem unmarshalBootstrapRequest_marshal (r : BootstrapRequest) :
    unmarshalBootstrapRequest r.marshal = .ok r :=
  unmarshal_layout BootstrapRequest.marshal_length BootstrapRequest.marshal_injective
    unmarshalBootstrapRequest_fails marshal_unmarshalBootstrapRequest r

/-! ## The two responses -/

/-- A status and a session ID, the shape of both responses. -/
structure StatusResponse where
  status : UInt8
  sessionID : ByteArr 16
  deriving DecidableEq

def statusResponseSize : Nat := 17

def StatusResponse.marshal (r : StatusResponse) : Bytes := [r.status] ++ r.sessionID.val

def StatusResponse.store (r : StatusResponse) : Option Bytes :=
  copyAll (List.replicate statusResponseSize 0) [(0, 1, [r.status]), (1, statusResponseSize, r.sessionID.val)]

def unmarshalStatus (what : String) (b : Bytes) : Except GoError StatusResponse :=
  if b.length < statusResponseSize then .error (needBytes what statusResponseSize b.length)
  else .ok { status := b.headD 0, sessionID := copyArr 16 (slice b 1 17) }

abbrev DeviceAuthResponse := StatusResponse
abbrev BootstrapResponse := StatusResponse

def DeviceAuthResponse.store : DeviceAuthResponse → Option Bytes := StatusResponse.store
def BootstrapResponse.store : BootstrapResponse → Option Bytes := StatusResponse.store

def deviceAuthResponseSize : Nat := statusResponseSize
def bootstrapResponseSize : Nat := statusResponseSize

def unmarshalDeviceAuthResponse : Bytes → Except GoError DeviceAuthResponse :=
  unmarshalStatus "device auth response"

def unmarshalBootstrapResponse : Bytes → Except GoError BootstrapResponse :=
  unmarshalStatus "bootstrap response"

@[simp] theorem StatusResponse.marshal_length (r : StatusResponse) : r.marshal.length = 17 := by
  simp [StatusResponse.marshal, r.sessionID.property]

theorem StatusResponse.store_eq (r : StatusResponse) : r.store = some r.marshal := by
  unfold store
  rw [copyAll_eq _ _ List.length_replicate]
  · simp [marshal]
  · simp [Tiles, statusResponseSize, r.sessionID.property]

theorem StatusResponse.marshal_injective : Function.Injective marshal := by
  intro r r' h
  obtain ⟨hstatus, hid⟩ := List.append_inj h rfl
  cases r
  cases r'
  simp only [mk.injEq]
  exact ⟨List.singleton_inj.mp hstatus, Subtype.ext hid⟩

theorem unmarshalStatus_fails (what : String) (b : Bytes) :
    (∃ e, unmarshalStatus what b = .error e) ↔ b.length < statusResponseSize := by
  unfold unmarshalStatus
  split_ifs with h <;> simp [h]

theorem marshal_unmarshalStatus (what : String) (b : Bytes) (r : StatusResponse)
    (h : unmarshalStatus what b = .ok r) : r.marshal = b.take statusResponseSize := by
  unfold unmarshalStatus at h
  split_ifs at h with hlen
  injection h with h
  subst h
  have hsize : 17 ≤ b.length := not_lt.mp hlen
  unfold StatusResponse.marshal
  dsimp only
  rw [← take_one_eq (by omega)]
  simp (disch := omega) only [copyArr_slice]
  rw [← take_slice b (by decide)]
  rfl

theorem unmarshalStatus_marshal (what : String) (r : StatusResponse) :
    unmarshalStatus what r.marshal = .ok r :=
  unmarshal_layout StatusResponse.marshal_length StatusResponse.marshal_injective (unmarshalStatus_fails what)
    (marshal_unmarshalStatus what) r

theorem statusResponse_fixedSize (what : String) :
    FixedSize statusResponseSize StatusResponse.store (unmarshalStatus what) where
  round_trip r := ⟨r.marshal, r.store_eq, r.marshal_length, unmarshalStatus_marshal what r⟩
  fails_iff := unmarshalStatus_fails what
  marshal_unmarshal b r h := by rw [r.store_eq, marshal_unmarshalStatus what b r h]

/-- The four messages of the handshakes have their declared sizes and are read back. -/
theorem auth_messages_fixed_size :
    FixedSize deviceAuthRequestSize DeviceAuthRequest.store unmarshalDeviceAuthRequest ∧
      FixedSize deviceAuthResponseSize DeviceAuthResponse.store unmarshalDeviceAuthResponse ∧
      FixedSize bootstrapRequestSize BootstrapRequest.store unmarshalBootstrapRequest ∧
      FixedSize bootstrapResponseSize BootstrapResponse.store unmarshalBootstrapResponse := by
  refine ⟨?_, statusResponse_fixedSize _, ?_, statusResponse_fixedSize _⟩
  · refine ⟨fun r => ?_, unmarshalDeviceAuthRequest_fails, fun b r h => ?_⟩
    · exact ⟨r.marshal, r.store_eq, r.marshal_length, unmarshalDeviceAuthRequest_marshal r⟩
    · rw [r.store_eq, marshal_unmarshalDeviceAuthRequest b r h]
  · refine ⟨fun r => ?_, unmarshalBootstrapRequest_fails, fun b r h => ?_⟩
    · exact ⟨r.marshal, r.store_eq, r.marshal_length, unmarshalBootstrapRequest_marshal r⟩
    · rw [r.store_eq, marshal_unmarshalBootstrapRequest b r h]

end Daxson.Invite
