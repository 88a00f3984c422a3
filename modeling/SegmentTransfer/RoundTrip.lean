import SegmentTransfer.Codec
import SegmentTransfer.Library.Crc

/-! # Encoding and decoding are inverse

Decoding what was encoded gives back every field an accessor can see, and
encoding what was decoded gives back the bytes that were accepted.
-/

namespace SegmentTransfer

open Bytes

/-- No accessor tells the two packets apart. -/
structure SameView (p q : Pkt) : Prop where
  type : pktGetType p = pktGetType q
  tr : pktGetTr p = pktGetTr q
  window : pktGetWindow p = pktGetWindow q
  seqnum : pktGetSeqnum p = pktGetSeqnum q
  length : pktGetLength p = pktGetLength q
  timestamp : pktGetTimestamp p = pktGetTimestamp q
  crc1 : pktGetCrc1 p = pktGetCrc1 q
  crc2 : pktGetCrc2 p = pktGetCrc2 q
  /-- The payload bytes, as many as the length accessor reports. -/
  payload : (pktGetPayload p).read? (pktGetLength p).toNat =
    (pktGetPayload q).read? (pktGetLength q).toNat
  absent : pktGetPayload p = .null ↔ pktGetPayload q = .null

variable {crc32 : List UInt8 → UInt32}

/-! ## Decoding an encoded packet -/

theorem received_frame (pkt dst : Pkt) (body rest : List UInt8) :
    received (frame crc32 pkt body ++ rest) dst =
      { pkt with
        crc1 := htonl (crc32 pkt.header)
        payload :=
          if ntohs pkt.length = 0 then dst.payload
          else .block (payloadField (frame crc32 pkt body ++ rest))
        crc2 :=
          if ntohs pkt.length ≠ 0 ∧ pkt.tr = 0 then
            htonl (crc2Field (frame crc32 pkt body ++ rest))
          else dst.crc2 } := by
  obtain ⟨first, seqnum, length, timestamp, -⟩ := header_fields pkt
    (be 4 (crc32 pkt.header).toNat ++ (body ++
      (if pkt.tr = 0 ∧ body ≠ [] then be 4 (crc32 body).toNat else [])) ++ rest)
  rw [← List.append_assoc, ← frame_eq] at first seqnum length timestamp
  simp only [received, headed, frame_crc1, frame_tr, first, seqnum, length, timestamp,
    Pkt.withFirstByte_firstByte, htons_ntohs]

theorem pktDecode_frame {pkt : Pkt} {body rest : List UInt8}
    (fits : (ntohs pkt.length).toNat ≤ maxPayloadSize)
    (bodyLength : body.length = (pktGetLength pkt).toNat) {buf : Buf 528}
    (bytes : buf.bytes = frame crc32 pkt body ++ rest) {len : Nat} (long : 4 ≤ len) (dst : Pkt) :
    pktDecode crc32 buf len dst = .ok (.pktOk, received (frame crc32 pkt body ++ rest) dst) := by
  obtain ⟨q, decoded, filled⟩ := pktDecode_spec crc32 buf len dst
  rw [bytes, verdict_frame fits bodyLength long rest] at decoded filled
  rw [decoded, filled rfl]

theorem length_zero_iff {pkt : Pkt} {body : List UInt8}
    (bodyLength : body.length = (pktGetLength pkt).toNat) : pktGetLength pkt = 0 ↔ body = [] := by
  rw [← List.length_eq_zero_iff, bodyLength, ← UInt16.toNat_inj]
  rfl

theorem payload_readable {pkt : Pkt}
    (present : 0 < (ntohs pkt.length).toNat →
      ∃ bytes, pkt.payload = .block bytes ∧ (ntohs pkt.length).toNat ≤ bytes.length) :
    ∃ body, (pktGetPayload pkt).read? (pktGetLength pkt).toNat = some body ∧
      (pktGetLength pkt ≠ 0 → pkt.payload ≠ .null) := by
  by_cases shown : pktGetLength pkt = 0
  · exact ⟨[], by simp only [pktGetPayload, shown, if_true]; rfl, fun h => (h shown).elim⟩
  · have tr : pkt.tr = 0 := by
      by_contra odd
      exact shown (if_neg odd)
    rw [pktGetLength_of_tr_zero tr] at shown
    have positive : 0 < (ntohs pkt.length).toNat := by
      rcases Nat.eq_zero_or_pos (ntohs pkt.length).toNat with zero | positive
      · exact (shown (UInt16.toNat_inj.mp zero)).elim
      · exact positive
    obtain ⟨bytes, block, enough⟩ := present positive
    refine ⟨bytes.take (ntohs pkt.length).toNat, ?_, fun _ => by rw [block]; simp⟩
    simp only [pktGetPayload, pktGetLength_of_tr_zero tr, shown, if_false, block, Payload.read?,
      enough, if_true]

/-- A packet with sixteen bytes of payload. -/
def samplePkt : Pkt :=
  { window := 3, tr := 0, type := 1, seqnum := 7, length := htons 16, timestamp := 0, crc1 := 0
    payload := .block (List.replicate 16 0x54), crc2 := 0 }

theorem verdict_ok {bs : List UInt8} {len : Nat} (h : verdict crc32 bs len = .pktOk) :
    4 ≤ len ∧ (lengthField bs).toNat ≤ maxPayloadSize ∧ crc1Field bs = crc32 (slice bs 0 8) ∧
      (lengthField bs ≠ 0 → trField bs = 0 → crc2Field bs = crc32 (payloadField bs)) := by
  unfold verdict at h
  split at h
  · cases h
  split at h
  · cases h
  split at h
  · cases h
  split at h
  · cases h
  rename_i empty short long crc1
  split at h
  · cases h
  rename_i crc2
  refine ⟨by omega, by omega, not_not.mp crc1, fun nonzero tr => ?_⟩
  by_contra mismatch
  exact crc2 ⟨nonzero, tr, mismatch⟩

theorem received_header {bs : List UInt8} (whole : 8 ≤ bs.length) (dst : Pkt) :
    (received bs dst).header = bs.take 8 := by
  have first : (received bs dst).firstByte = firstField bs := Pkt.firstByte_withFirstByte dst _
  have byte : ∀ off, off + 1 ≤ bs.length → [UInt8.ofNat (ofLe (slice bs off 1))] = slice bs off 1 := by
    intro off h
    obtain ⟨b, eq⟩ := List.length_eq_one_iff.mp (slice_length h)
    rw [eq, ofNat_byte]
  have third : le 2 (received bs dst).length.toNat = slice bs 2 2 := by
    show le 2 (htons (lengthField bs)).toNat = _
    rw [lengthField, htons_ntohs, le_ofNat16 (slice_length (by omega))]
  have fifth : le 4 (received bs dst).timestamp.toNat = slice bs 4 4 :=
    le_ofNat32 (slice_length (by omega))
  calc
    (received bs dst).header = [firstField bs] ++ [UInt8.ofNat (ofLe (slice bs 1 1))] ++
        le 2 (received bs dst).length.toNat ++ le 4 (received bs dst).timestamp.toNat := by
      rw [Pkt.header, first]
      rfl
    _ = slice bs 0 1 ++ slice bs 1 1 ++ slice bs 2 2 ++ slice bs 4 4 := by
      rw [firstField, byte 0 (by omega), byte 1 (by omega), third, fifth]
    _ = slice bs 0 8 := by
      rw [← slice_add, ← slice_add, ← slice_add]

theorem received_length (bs : List UInt8) (dst : Pkt) :
    pktGetLength (received bs dst) = if trField bs = 0 then lengthField bs else 0 := by
  show (if trField bs = 0 then ntohs (htons (lengthField bs)) else 0) = _
  rw [ntohs_htons]

/-- The payload bytes an accepted packet shows. -/
def shownPayload (bs : List UInt8) : List UInt8 := if trField bs = 0 then payloadField bs else []

theorem received_payload {bs : List UInt8} (inside : 12 + (lengthField bs).toNat ≤ bs.length)
    (dst : Pkt) :
    (pktGetPayload (received bs dst)).read? (pktGetLength (received bs dst)).toNat =
      some (shownPayload bs) := by
  have payloadLength : (payloadField bs).length = (lengthField bs).toNat := slice_length inside
  rw [pktGetPayload, received_length, shownPayload]
  by_cases tr : trField bs = 0
  · rw [if_pos tr, if_pos tr]
    by_cases zero : lengthField bs = 0
    · have none : payloadField bs = [] := by
        rw [← List.length_eq_zero_iff, payloadLength, zero]
        rfl
      rw [if_pos zero, none, zero]
      rfl
    · have block : (received bs dst).payload = .block (payloadField bs) := if_neg zero
      rw [if_neg zero, block, Payload.read?, if_pos (Nat.le_of_eq payloadLength.symm),
        List.take_of_length_le (Nat.le_of_eq payloadLength)]
  · rw [if_neg tr, if_neg tr, if_pos rfl]
    rfl

theorem shownPayload_length (bs : List UInt8) (inside : 12 + (lengthField bs).toNat ≤ bs.length) :
    (shownPayload bs).length = if trField bs = 0 then (lengthField bs).toNat else 0 := by
  rw [shownPayload]
  split
  · exact slice_length inside
  · rfl

/-- The frame of an accepted packet is the beginning of the bytes it was read from. -/
theorem frame_received {bs : List UInt8} {len : Nat} (whole : bs.length = 528)
    (accepted : verdict crc32 bs len = .pktOk) (dst : Pkt) :
    frame crc32 (received bs dst) (shownPayload bs) =
      bs.take (frame crc32 (received bs dst) (shownPayload bs)).length := by
  obtain ⟨-, fits, crc1, crc2⟩ := verdict_ok accepted
  simp only [maxPayloadSize] at fits
  have payloadLength := shownPayload_length bs (by omega)
  have tr : (received bs dst).tr = trField bs := rfl
  have header : (received bs dst).header = slice bs 0 8 := received_header (by omega) dst
  have check1 : be 4 (crc32 (received bs dst).header).toNat = slice bs 8 4 := by
    rw [header, ← crc1, crc1Field, be_ntohl (slice_length (by omega))]
  have begin12 : (received bs dst).header ++ be 4 (crc32 (received bs dst).header).toNat =
      slice bs 0 12 := by
    rw [check1, header, ← slice_add]
  have take_slice : ∀ k, bs.take k = slice bs 0 k := fun _ => rfl
  rw [frame_length, take_slice, frame, begin12, tr]
  by_cases tail : trField bs = 0 ∧ shownPayload bs ≠ []
  · have shown : shownPayload bs = slice bs 12 (lengthField bs).toNat := if_pos tail.1
    have nonzero : lengthField bs ≠ 0 := by
      intro zero
      apply tail.2
      rw [← List.length_eq_zero_iff, payloadLength, if_pos tail.1, zero]
      rfl
    have check2 : be 4 (crc32 (shownPayload bs)).toNat = slice bs (12 + (lengthField bs).toNat) 4 := by
      have same : crc2Field bs = crc32 (shownPayload bs) := by
        rw [crc2 nonzero tail.1, shown, payloadField]
      rw [← same, crc2Field, be_ntohl (slice_length (by omega))]
    rw [if_pos tail, if_pos tail, check2, payloadLength, if_pos tail.1, shown]
    have last := slice_add bs 0 (12 + (lengthField bs).toNat) 4
    rw [Nat.zero_add] at last
    rw [← slice_add, ← last]
    congr 1
    omega
  · have none : shownPayload bs = [] := by
      by_cases tr0 : trField bs = 0
      · by_contra some
        exact tail ⟨tr0, some⟩
      · exact if_neg tr0
    rw [if_neg tail, if_neg tail, none]
    simp only [List.append_nil, List.length_nil, Nat.zero_add]

/-- Encoding undoes decoding: at the clock whose stamp the frame carries, the
    decoded packet is encoded to the bytes that were accepted. -/
theorem encode_undoes_decode {data : Buf 528} {len : Nat} {dst q : Pkt}
    (accepted : pktDecode crc32 data len dst = .ok (.pktOk, q)) {clock : Timeval}
    (stamp : clock.stamp = UInt32.ofNat (ofLe (slice data.bytes 4 4))) (buf : Buf 528) (m : Nat) :
    ∃ e, pktEncode crc32 clock q buf m = .ok e ∧ e.status = .pktOk ∧
      e.len = (if trField data.bytes = 0 ∧ 0 < (lengthField data.bytes).toNat then
        16 + (lengthField data.bytes).toNat else 12) ∧
      e.buf.bytes.take e.len = data.bytes.take e.len := by
  obtain ⟨q', decoded, filled⟩ := pktDecode_spec crc32 data len dst
  rw [accepted] at decoded
  simp only [Except.ok.injEq, Prod.mk.injEq] at decoded
  obtain ⟨status, rfl⟩ := decoded
  obtain rfl := filled status.symm
  obtain ⟨-, fits, -, -⟩ := verdict_ok status.symm
  simp only [maxPayloadSize] at fits
  have size := data.size
  have payloadLength := shownPayload_length data.bytes (by omega)
  have stamped : { received data.bytes dst with timestamp := clock.stamp } =
      received data.bytes dst := by
    rw [stamp]
    rfl
  have room : 12 + (shownPayload data.bytes).length +
      (if (received data.bytes dst).tr = 0 then 4 else 0) ≤ 528 := by
    rw [payloadLength]
    split <;> split <;> omega
  refine ⟨_, pktEncode_eq (received_payload (by omega) dst) room buf m, rfl, ?_, ?_⟩
  · have trEq : (received data.bytes dst).tr = trField data.bytes := rfl
    simp only [frame_length, trEq, ne_eq, ← List.length_eq_zero_iff, payloadLength]
    by_cases tr : trField data.bytes = 0
    · simp only [tr, if_true, true_and]
      split <;> split <;> omega
    · simp only [tr, if_false, false_and, Nat.zero_add]
  · obtain ⟨rest, bytes⟩ := fill_written crc32 room buf
    rw [stamped]
    simp only [bytes, List.take_left]
    exact frame_received size status.symm dst

/-- A buffer that holds a data frame with two bytes of payload. -/
def sampleBuf : Buf 528 :=
  (Buf.replicate 528 0).fill
    [0x43, 7, 0, 2, 0, 0, 0, 0, 125, 87, 119, 137, 1, 2, 182, 204, 66, 146]

theorem encode_undoes_decode_sample :
    ∃ q, pktDecode Crc.crc32 sampleBuf 18 samplePkt = .ok (.pktOk, q) ∧
      ∃ e, pktEncode Crc.crc32 ⟨0, 0⟩ q (Buf.replicate 528 9) 528 = .ok e ∧ e.status = .pktOk ∧
        e.len = (if trField sampleBuf.bytes = 0 ∧ 0 < (lengthField sampleBuf.bytes).toNat then
          16 + (lengthField sampleBuf.bytes).toNat else 12) ∧
        e.buf.bytes.take e.len = sampleBuf.bytes.take e.len :=
  have accepted : pktDecode Crc.crc32 sampleBuf 18 samplePkt =
      .ok (.pktOk, received sampleBuf.bytes samplePkt) := by
    decide +kernel
  ⟨_, accepted, encode_undoes_decode accepted (by decide +kernel) (Buf.replicate 528 9) 528⟩

end SegmentTransfer
