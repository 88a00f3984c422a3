import SegmentTransfer.RoundTrip

/-! # Datagrams

The datagrams the two programs exchange are frames of packets with `TR = 0`.
`Carries` says what such a packet is made of; encoding keeps it, and decoding a
frame gives it back.
-/

namespace SegmentTransfer

open Bytes

/-- A packet with `TR = 0` of a type, numbered `seq` modulo 256, with payload `body`. -/
structure Carries (p : Pkt) (type seq : Nat) (body : List UInt8) : Prop where
  tr : p.tr = 0
  type : pktGetType p = type
  seqnum : p.seqnum = UInt8.ofNat seq
  length : p.length = htons (UInt16.ofNat body.length)
  payload : body ≠ [] → p.payload = .block body

/-- A frame of such a packet, advertising a window. -/
def IsFrame (crc32 : List UInt8 → UInt32) (type seq window : Nat) (body d : List UInt8) : Prop :=
  ∃ p, Carries p type seq body ∧ pktGetWindow p = window ∧ d = frame crc32 p body

variable {crc32 : List UInt8 → UInt32} {p : Pkt} {type seq window : Nat} {body d : List UInt8}

namespace Carries

variable (h : Carries p type seq body) (small : body.length ≤ maxPayloadSize)

include h small

theorem length_toNat : (ntohs p.length).toNat = body.length := by
  simp only [maxPayloadSize] at small
  rw [h.length, ntohs_htons, UInt16.toNat_ofNat']
  omega

theorem getLength_toNat : (pktGetLength p).toNat = body.length := by
  rw [pktGetLength_of_tr_zero h.tr, h.length_toNat small]

theorem getLength_eq_zero : pktGetLength p = 0 ↔ body = [] :=
  length_zero_iff (h.getLength_toNat small).symm

theorem getPayload : pktGetPayload p = if body = [] then .null else .block body := by
  simp only [pktGetPayload, h.getLength_eq_zero small]
  split
  · rfl
  · rename_i nonempty
    exact h.payload nonempty

theorem readable : (pktGetPayload p).read? (pktGetLength p).toNat = some body := by
  rw [h.getPayload small, h.getLength_toNat small]
  split
  · rename_i empty
    rw [empty]
    rfl
  · simp only [Payload.read?, Nat.le_refl, if_true, List.take_length]

theorem encode (crc32 : List UInt8 → UInt32) {n : Nat} (room : 16 + body.length ≤ n)
    (clock : Timeval) (buf : Buf n) (len : Nat) :
    ∃ e, pktEncode crc32 clock p buf len = .ok e ∧ e.status = .pktOk ∧
      Carries e.pkt type seq body ∧ pktGetWindow e.pkt = pktGetWindow p ∧
      IsFrame crc32 type seq (pktGetWindow p) body (e.buf.bytes.take e.len) := by
  have room' := room_le p room
  refine ⟨_, pktEncode_eq (h.readable small) room' buf len, rfl, ?_, rfl,
    { p with timestamp := clock.stamp }, ?_, rfl, ?_⟩
  · exact ⟨h.tr, h.type, h.seqnum, h.length, h.payload⟩
  · exact ⟨h.tr, h.type, h.seqnum, h.length, h.payload⟩
  · obtain ⟨rest, bytes⟩ := fill_written crc32 (show 12 + body.length +
      (if ({ p with timestamp := clock.stamp } : Pkt).tr = 0 then 4 else 0) ≤ n from room') buf
    simp only [bytes, List.take_left]

/-- Decoding a frame, read into any buffer and any packet. -/
theorem decode (crc32 : List UInt8 → UInt32) (buf : Buf 528) (dst : Pkt) :
    ∃ q, pktDecode crc32 (buf.fill (frame crc32 p body)) (frame crc32 p body).length dst =
        .ok (.pktOk, q) ∧
      pktGetTr q = 0 ∧ pktGetType q = type ∧ pktGetWindow q = pktGetWindow p ∧
      pktGetSeqnum q = UInt8.ofNat seq ∧ (pktGetLength q).toNat = body.length ∧
      pktGetPayload q = if body = [] then .null else .block body := by
  have lengthEq := @frame_length crc32 p body
  have fits : (frame crc32 p body).length ≤ 528 := by
    simp only [maxPayloadSize] at small
    rw [lengthEq]
    split <;> omega
  have bytes := Buf.fill_bytes buf fits
  have bodyLength := h.getLength_toNat small
  have decoded := pktDecode_frame (h.length_toNat small ▸ small) bodyLength.symm bytes
    (show 4 ≤ (frame crc32 p body).length by rw [lengthEq]; omega) dst
  obtain ⟨q, eq⟩ : ∃ q, q = received (frame crc32 p body ++ buf.bytes.drop
    (frame crc32 p body).length) dst := ⟨_, rfl⟩
  rw [← eq] at decoded
  rw [received_frame] at eq
  have tr : q.tr = 0 := by rw [eq]; exact h.tr
  have length : pktGetLength q = pktGetLength p := by
    rw [pktGetLength_of_tr_zero tr, pktGetLength_of_tr_zero h.tr, eq]
  refine ⟨q, decoded, (pktGetTr_eq_zero q).mpr tr, ?_, ?_, ?_, ?_, ?_⟩
  · rw [eq]
    exact h.type
  · rw [eq]
    rfl
  · rw [eq]
    exact h.seqnum
  · rw [length, bodyLength]
  · rw [pktGetPayload, length]
    simp only [h.getLength_eq_zero small]
    split
    · rfl
    · rename_i nonempty
      have nonzero : ntohs p.length ≠ 0 := by
        rw [← pktGetLength_of_tr_zero h.tr]
        exact fun zero => nonempty ((h.getLength_eq_zero small).mp zero)
      have payload := (frame_payload crc32 h.tr (h.length_toNat small).symm
        (buf.bytes.drop (frame crc32 p body).length)).1
      simp only [eq, nonzero, if_false, payload]

end Carries

theorem IsFrame.decode (h : IsFrame crc32 type seq window body d)
    (small : body.length ≤ maxPayloadSize) (buf : Buf 528) (dst : Pkt) :
    0 < d.length ∧ d.length ≤ 528 ∧ ∃ q, pktDecode crc32 (buf.fill d) d.length dst = .ok (.pktOk, q) ∧
      pktGetTr q = 0 ∧ pktGetType q = type ∧ pktGetWindow q = window ∧
      pktGetSeqnum q = UInt8.ofNat seq ∧ (pktGetLength q).toNat = body.length ∧
      pktGetPayload q = if body = [] then .null else .block body := by
  obtain ⟨p, carries, rfl, rfl⟩ := h
  have length := @frame_length crc32 p body
  refine ⟨by rw [length]; omega, ?_, carries.decode small crc32 buf dst⟩
  simp only [maxPayloadSize] at small
  rw [length]
  split <;> omega

end SegmentTransfer
