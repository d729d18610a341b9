import Daxson.Connect.Codec

/-! # The relay's copy of the codec

The relay's copy checks no lengths, and fails when an error comes with the last byte.
-/

open Lib

namespace Daxson.Connect

/-- Both copies write the same bytes. The relay's never fails before it writes. -/
def SameWrite (t : Target) : Prop := Tunnel.writeConnectRequest t = .ok (Relay.writeConnectRequest t)

/-- Both fail, or both give the same target and leave the same bytes. -/
def SameRequest (r : ByteReader) : Prop :=
  (Tunnel.readConnectRequest r).1.toOption = (Relay.readConnectRequest r).1.toOption ∧
    ((Tunnel.readConnectRequest r).1.toOption.isSome →
      (Tunnel.readConnectRequest r).2.content = (Relay.readConnectRequest r).2.content)

def SameResponse (r : ByteReader) : Prop :=
  (Tunnel.readConnectResponse r).1.isSome = (Relay.readConnectResponse r).1.isSome

instance (r : ByteReader) : Decidable (SameRequest r) := inferInstanceAs (Decidable (_ ∧ (_ → _)))

instance (r : ByteReader) : Decidable (SameResponse r) := inferInstanceAs (Decidable (_ = _))

/-- The length that the header of a request gives for its address. -/
def addrLen (content : Bytes) : Nat := (content.getD 1 0).toNat

/-- All of a request is there. -/
def Whole (content : Bytes) : Prop := 2 ≤ content.length ∧ 4 + addrLen content ≤ content.length

/-! ## Writing -/

theorem sameWrite_iff (t : Target) : SameWrite t ↔ t.addr.length ≤ 255 := by
  unfold SameWrite Tunnel.writeConnectRequest
  rw [relay_writes]
  split_ifs with h
  · exact iff_of_false (fun heq => by cases heq) (by omega)
  · exact iff_of_true rfl (by omega)

/-! ## Reading a request -/

/-- The target at the front of a whole request. -/
def front (content : Bytes) : Target where
  addrType := content.getD 0 0
  addr := slice content 2 (2 + addrLen content)
  port := UInt16.ofNat (BigEndian.beVal (slice content (2 + addrLen content) (4 + addrLen content)))

theorem scan_front {content : Bytes} (h : Whole content) {refuseEmpty : Bool}
    (hempty : ¬ (refuseEmpty && addrLen content == 0) = true) :
    scan refuseEmpty (content.take (4 + addrLen content)) = .target (front content) := by
  have hlen : (content.take (4 + addrLen content)).length = 4 + addrLen content := by
    rw [List.length_take]
    exact Nat.min_eq_left h.2
  have hhead : ((content.take (4 + addrLen content)).getD 1 0).toNat = addrLen content := by
    rw [getD_take content (by omega)]
    rfl
  unfold scan
  simp only [hlen, hhead]
  rw [if_neg (by omega), if_neg hempty, if_neg (by omega), getD_take content (by omega), slice_take content (by omega),
    slice_take content (by omega)]
  rfl

theorem front_size {content : Bytes} (h : Whole content) :
    (content.take (4 + addrLen content)).length = 4 + (front content).addr.length := by
  have := h.2
  rw [List.length_take, front, slice_length content (by omega)]
  omega

theorem tunnel_request {r : ByteReader} (h : Whole r.content) (hne : addrLen r.content ≠ 0) :
    ∃ r', Tunnel.readConnectRequest r = (.ok (front r.content), r') ∧
      r'.content = r.content.drop (4 + addrLen r.content) :=
  tunnel_reads (scan_front h (by simpa using hne)) (front_size h) r (List.take_append_drop _ _).symm

theorem relay_request {r : ByteReader} (h : Whole r.content)
    (hclean : r.content.length = 4 + addrLen r.content → r.errWithLast = false) :
    ∃ r', Relay.readConnectRequest r = (.ok (front r.content), r') ∧
      r'.content = r.content.drop (4 + addrLen r.content) := by
  apply relay_reads (scan_front h (by simp)) (front_size h) r (List.take_append_drop _ _).symm
  intro hrest
  apply hclean
  have := h.2
  rw [List.drop_eq_nil_iff] at hrest
  omega

theorem tunnel_request_fails {r : ByteReader} (h : ¬ Whole r.content ∨ addrLen r.content = 0) :
    ∃ e r', Tunnel.readConnectRequest r = (.error e, r') := by
  unfold Tunnel.readConnectRequest
  by_cases hhdr : 2 ≤ r.content.length
  · obtain ⟨r1, h1, hr1⟩ := readFull_ok 2 r hhdr
    rw [h1]
    simp only [getD_take r.content (by decide : 1 < 2)]
    split_ifs with hzero
    · exact ⟨_, _, rfl⟩
    · have hshort : r1.content.length < (r.content.getD 1 0).toNat + 2 := by
        obtain hpart | hempty := h
        · simp only [Whole, addrLen] at hpart
          rw [hr1, List.length_drop]
          omega
        · exact absurd hempty hzero
      obtain ⟨e, r2, h2, -⟩ := readFull_short _ r1 hshort
      rw [h2]
      exact ⟨_, _, rfl⟩
  · obtain ⟨e, r1, h1, -⟩ := readFull_short 2 r (by omega)
    rw [h1]
    exact ⟨_, _, rfl⟩

theorem relay_request_fails {r : ByteReader}
    (h : ¬ Whole r.content ∨ (r.content.length = 4 + addrLen r.content ∧ r.errWithLast = true)) :
    ∃ e r', Relay.readConnectRequest r = (.error e, r') := by
  unfold Relay.readConnectRequest
  by_cases hhdr : 2 ≤ r.content.length ∧ (2 = r.content.length → r.errWithLast = false)
  · obtain ⟨r1, h1, hr1, hkeep⟩ := Reader.readAll_ok 2 r hhdr.1 hhdr.2
    rw [h1]
    simp only [getD_take r.content (by decide : 1 < 2)]
    obtain ⟨e, r2, h2⟩ := Reader.readAll_fails ((r.content.getD 1 0).toNat + 2) r1 (by
      rintro ⟨hall, hlast⟩
      rw [hr1, List.length_drop] at hall hlast
      rw [hkeep] at hlast
      obtain hpart | ⟨hend, herr⟩ := h
      · simp only [Whole, addrLen] at hpart
        omega
      · simp only [addrLen] at hend
        rw [hlast (by omega)] at herr
        cases herr)
    rw [h2]
    exact ⟨_, _, rfl⟩
  · obtain ⟨e, r1, h1⟩ := Reader.readAll_fails 2 r hhdr
    rw [h1]
    exact ⟨_, _, rfl⟩

theorem sameRequest_iff (r : ByteReader) :
    SameRequest r ↔ (Whole r.content →
      (addrLen r.content = 0 ↔ r.content.length = 4 + addrLen r.content ∧ r.errWithLast = true)) := by
  unfold SameRequest
  by_cases hwhole : Whole r.content
  · by_cases hempty : addrLen r.content = 0 <;>
      by_cases hlast : r.content.length = 4 + addrLen r.content ∧ r.errWithLast = true
    · obtain ⟨e, r1, h1⟩ := tunnel_request_fails (.inr hempty)
      obtain ⟨e', r2, h2⟩ := relay_request_fails (.inr hlast)
      simp only [h1, h2, Except.toOption, Option.isSome_none, Bool.false_eq_true, false_implies, and_self, true_iff]
      exact fun _ => iff_of_true hempty hlast
    · obtain ⟨e, r1, h1⟩ := tunnel_request_fails (.inr hempty)
      obtain ⟨r2, h2, -⟩ := relay_request hwhole (by simpa using hlast)
      simp only [h1, h2, Except.toOption, reduceCtorEq, false_and, false_iff]
      exact fun h => hlast ((h hwhole).mp hempty)
    · obtain ⟨r1, h1, -⟩ := tunnel_request hwhole hempty
      obtain ⟨e', r2, h2⟩ := relay_request_fails (.inr hlast)
      simp only [h1, h2, Except.toOption, reduceCtorEq, false_and, false_iff]
      exact fun h => hempty ((h hwhole).mpr hlast)
    · obtain ⟨r1, h1, hr1⟩ := tunnel_request hwhole hempty
      obtain ⟨r2, h2, hr2⟩ := relay_request hwhole (by simpa using hlast)
      simp only [h1, h2, hr1, hr2, implies_true, and_self, true_iff]
      exact fun _ => iff_of_false hempty hlast
  · obtain ⟨e, r1, h1⟩ := tunnel_request_fails (.inl hwhole)
    obtain ⟨e', r2, h2⟩ := relay_request_fails (.inl hwhole)
    simp only [h1, h2, Except.toOption, Option.isSome_none, Bool.false_eq_true, false_implies, and_self, true_iff]
    exact fun h => absurd h hwhole

/-! ## Reading a response -/

theorem refusals_agree (status : UInt8) : (Tunnel.refusal status).isSome = (Relay.refusal status).isSome := by
  unfold Tunnel.refusal Relay.refusal Tunnel.connectOK
  split_ifs <;> rfl

theorem sameResponse_iff (r : ByteReader) :
    SameResponse r ↔ ¬ (r.content = [Tunnel.connectOK] ∧ r.errWithLast = true) := by
  unfold SameResponse
  cases hr : r.content with
  | nil =>
    obtain ⟨e, r1, h1, -⟩ := readFull_short 1 r (by simp [hr])
    obtain ⟨e', r2, h2⟩ := Reader.readAll_fails 1 r (by simp [hr])
    unfold Tunnel.readConnectResponse Relay.readConnectResponse
    simp [h1, h2]
  | cons b rest =>
    obtain ⟨r1, h1, -⟩ := tunnel_reads_status r hr
    rw [h1]
    by_cases hlast : rest = [] ∧ r.errWithLast = true
    · obtain ⟨rfl, herr⟩ := hlast
      obtain ⟨e', r2, h2⟩ := Reader.readAll_fails 1 r (by simp [hr, herr])
      unfold Relay.readConnectResponse
      rw [h2]
      simp [herr, Tunnel.refusal]
    · obtain ⟨r2, h2, -⟩ := relay_reads_status r hr (by simpa using hlast)
      rw [h2, refusals_agree]
      refine iff_of_true rfl ?_
      rintro ⟨hone, herr⟩
      exact hlast ⟨(List.cons.inj hone).2, herr⟩

/-! ## The two copies -/

/-- **The two copies of the CONNECT codec.** -/
theorem codecs_agree_iff (t : Target) (req resp : ByteReader) :
    (SameWrite t ↔ t.addr.length ≤ 255) ∧
      (SameRequest req ↔ (Whole req.content →
        (addrLen req.content = 0 ↔ req.content.length = 4 + addrLen req.content ∧ req.errWithLast = true))) ∧
      (SameResponse resp ↔ ¬ (resp.content = [Tunnel.connectOK] ∧ resp.errWithLast = true)) :=
  ⟨sameWrite_iff t, sameRequest_iff req, sameResponse_iff resp⟩

/-- An address of 256 bytes, a request with no address, and an answer that comes with the end. -/
theorem codecs_differ :
    ¬ SameWrite ⟨3, List.replicate 256 97, 443⟩ ∧
      ¬ SameRequest ⟨[[3, 0, 1, 187]], .eof, false⟩ ∧
      ¬ SameRequest ⟨[[3, 1, 97, 1, 187]], .eof, true⟩ ∧
      ¬ SameResponse ⟨[[0]], .eof, true⟩ := by
  refine ⟨?_, by decide, by decide, by decide⟩
  rw [sameWrite_iff, List.length_replicate]
  decide

end Daxson.Connect
