import Daxson.Go
import Daxson.Lib.Buffer

/-! # The payload of a STREAM_OPEN frame

The length of the address goes into one byte.
-/

open Lib.BigEndian Lib.Buffer

namespace Daxson.Protocol

structure StreamOpenPayload where
  addrType : UInt8
  addr : Bytes
  port : UInt16
  deriving DecidableEq, Repr

def StreamOpenPayload.marshal (p : StreamOpenPayload) : Option Bytes :=
  copyAll (List.replicate (4 + p.addr.length) 0)
    [(0, 1, [p.addrType]), (1, 2, [UInt8.ofNat p.addr.length]), (2, 4 + p.addr.length, p.addr),
      (2 + p.addr.length, 4 + p.addr.length, beBytes 2 p.port.toNat)]

def unmarshalStreamOpenPayload (b : Bytes) : Except GoError StreamOpenPayload :=
  if b.length < 4 then .error (.new "protocol: stream open payload too short" [])
  else
    let addrLen := (b.getD 1 0).toNat
    if b.length < 2 + addrLen + 2 then .error (.new "protocol: stream open payload truncated" [])
    else
      .ok {
        addrType := b.getD 0 0
        addr := slice b 2 (2 + addrLen)
        port := UInt16.ofNat (beVal (slice b (2 + addrLen) (4 + addrLen))) }

namespace StreamOpenPayload

variable (p : StreamOpenPayload)

/-- What `Marshal` writes, side by side. -/
def layout : Bytes := [p.addrType, UInt8.ofNat p.addr.length] ++ p.addr ++ beBytes 2 p.port.toNat

theorem marshal_eq : p.marshal = some p.layout := by
  unfold marshal
  rw [copyAll_eq _ _ List.length_replicate]
  · simp [layout]
  · simp [Tiles]
    omega

@[simp] theorem layout_length : p.layout.length = 4 + p.addr.length := by
  simp [layout]
  omega

theorem layout_getD_one : p.layout.getD 1 0 = UInt8.ofNat p.addr.length := rfl

variable {p} {q : StreamOpenPayload}

theorem layout_inj (hlen : p.addr.length = q.addr.length) (h : p.layout = q.layout) : p = q := by
  unfold layout at h
  obtain ⟨h, hport⟩ := List.append_inj h (by simp [hlen])
  obtain ⟨hhead, haddr⟩ := List.append_inj h rfl
  have hsame := beBytes_inj p.port.toNat_lt q.port.toNat_lt hport
  cases p
  cases q
  simp only [mk.injEq]
  exact ⟨(List.cons.inj hhead).1, haddr, UInt16.toNat_inj.mp hsame⟩

end StreamOpenPayload

variable {b : Bytes} {p : StreamOpenPayload}

theorem layout_of_unmarshal (h : unmarshalStreamOpenPayload b = .ok p) :
    p.addr.length = (b.getD 1 0).toNat ∧ p.layout = b.take (4 + (b.getD 1 0).toNat) := by
  unfold unmarshalStreamOpenPayload at h
  dsimp only at h
  split_ifs at h with hshort hcut
  injection h with h
  have haddr : p.addr = slice b 2 (2 + (b.getD 1 0).toNat) := by rw [← h]
  have hlen : p.addr.length = (b.getD 1 0).toNat := by
    rw [haddr, slice_length b (by omega)]
    omega
  have hhead : [p.addrType, UInt8.ofNat p.addr.length] = b.take 2 := by
    rw [hlen, UInt8.ofNat_toNat, ← h]
    rcases b with _ | ⟨x, _ | ⟨y, t⟩⟩
    · simp at hshort
    · simp at hshort
    · rfl
  have hport : beBytes 2 p.port.toNat = slice b (2 + (b.getD 1 0).toNat) (4 + (b.getD 1 0).toNat) := by
    have hlt := beVal_lt (slice b (2 + (b.getD 1 0).toNat) (4 + (b.getD 1 0).toNat))
    rw [slice_length b (by omega), show 4 + (b.getD 1 0).toNat - (2 + (b.getD 1 0).toNat) = 2 by omega] at hlt
    rw [← h, UInt16.toNat_ofNat_of_lt' hlt]
    exact beBytes_slice b (by omega) (by omega)
  refine ⟨hlen, ?_⟩
  unfold StreamOpenPayload.layout
  rw [hhead, hport, haddr, ← take_slice b (by omega), ← take_slice b (by omega)]

theorem unmarshal_marshal_ok (p : StreamOpenPayload) : ∃ q, unmarshalStreamOpenPayload p.layout = .ok q := by
  have hlen := p.layout_length
  have hbyte : (UInt8.ofNat p.addr.length).toNat ≤ p.addr.length := by
    rw [UInt8.toNat_ofNat']
    exact Nat.mod_le _ _
  unfold unmarshalStreamOpenPayload
  rw [if_neg (by omega)]
  dsimp only
  rw [p.layout_getD_one, if_neg (by omega)]
  exact ⟨_, rfl⟩

theorem unmarshal_marshal_iff (p : StreamOpenPayload) :
    p.marshal.map unmarshalStreamOpenPayload = some (.ok p) ↔ p.addr.length ≤ 255 := by
  obtain ⟨q, hq⟩ := unmarshal_marshal_ok p
  obtain ⟨hlen, hlayout⟩ := layout_of_unmarshal hq
  rw [p.layout_getD_one, UInt8.toNat_ofNat'] at hlen hlayout
  rw [p.marshal_eq, Option.map_some, hq, Option.some.injEq, Except.ok.injEq]
  constructor
  · intro h
    rw [h] at hlen
    omega
  · intro h
    rw [List.take_of_length_le (by rw [p.layout_length]; omega)] at hlayout
    exact StreamOpenPayload.layout_inj (by omega) hlayout

/-- A payload comes back exactly if its address has at most 255 bytes. -/
theorem stream_open_round_trip (p : StreamOpenPayload) :
    (p.marshal.map unmarshalStreamOpenPayload = some (.ok p) ↔ p.addr.length ≤ 255) ∧
      ∀ b q, unmarshalStreamOpenPayload b = .ok q → q.marshal = some (b.take (4 + (b.getD 1 0).toNat)) := by
  refine ⟨unmarshal_marshal_iff p, fun b q h => ?_⟩
  rw [q.marshal_eq, (layout_of_unmarshal h).2]

/-- With 256 bytes the length byte is zero, and the first two bytes of the address are the port. -/
theorem long_address_comes_back_empty :
    (StreamOpenPayload.mk 3 (List.replicate 256 97) 443).marshal.map unmarshalStreamOpenPayload =
      some (.ok ⟨3, [], 0x6161⟩) := by
  decide +kernel

end Daxson.Protocol
