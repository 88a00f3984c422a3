import SegmentTransfer.Exercise
import SegmentTransfer.HeaderCalls

/-! # The two decoders

The decoder of the exercise beside that of the transfer code, on the same bytes.
The exercise takes DATA only, clears `TR` before it looks at the payload, so that
it asks for the second checksum of a truncated packet too, and reads one byte of
the timestamp.
-/

namespace SegmentTransfer

open Bytes Outcome

private theorem type_of_byte : ∀ b : BitVec 8, (b >>> 6).toNat = (b.extractLsb' 6 2).toNat := by decide

theorem typeField_shift (bs : List UInt8) : (firstField bs >>> 6).toNat = typeField bs :=
  type_of_byte (firstField bs).toBitVec

namespace Exercise

section

variable (crc32 : List UInt8 → UInt32)

/-- The status of the exercise's decoder. -/
def verdict (bs : List UInt8) (len : Nat) : PktStatusCode :=
  if len = 0 then .eUnconsistent
  else if len < 4 then .eNoheader
  else if typeField bs = 0 then .eType
  else if typeField bs ≠ ptypeData then .eTr
  else if (lengthField bs).toNat > maxPayloadSize then .eLength
  else if crc1Field bs ≠ crc32 (slice bs 0 8) then .eCrc
  else if lengthField bs ≠ 0 ∧ crc2Field bs ≠ crc32 (payloadField bs) then .eCrc
  else .pktOk

end

/-- The packet a successful decoder of the exercise leaves. -/
def received (bs : List UInt8) (pkt : Pkt) : Pkt :=
  { pkt with
    type := 1, tr := 0, window := BitVec.ofNat 5 (firstField bs &&& 31).toNat
    seqnum := UInt8.ofNat (ofLe (slice bs 1 1))
    length := htons (lengthField bs)
    timestamp := ofChar (UInt8.ofNat (ofLe (slice bs 4 1)))
    crc1 := htonl (crc1Field bs)
    payload := if lengthField bs = 0 then pkt.payload else .block (payloadField bs)
    crc2 := if lengthField bs = 0 then pkt.crc2 else htonl (crc2Field bs) }

variable {crc32 : List UInt8 → UInt32}

/-- The payload's half of the decoder. -/
theorem decodePayload_spec (crc32 : List UInt8 → UInt32) (data : Buf 528) {pkt : Pkt}
    (tr : pkt.tr = 0) (length : pkt.length = htons (lengthField data.bytes))
    (fits : (lengthField data.bytes).toNat ≤ maxPayloadSize) :
    ∃ q, decodePayload crc32 data (lengthField data.bytes) pkt =
        .ok (if lengthField data.bytes ≠ 0 ∧
            crc2Field data.bytes ≠ crc32 (payloadField data.bytes) then .eCrc else .pktOk, q) ∧
      (¬(lengthField data.bytes ≠ 0 ∧ crc2Field data.bytes ≠ crc32 (payloadField data.bytes)) →
        q =
          { pkt with
            payload :=
              if lengthField data.bytes = 0 then pkt.payload else .block (payloadField data.bytes)
            crc2 :=
              if lengthField data.bytes = 0 then pkt.crc2 else htonl (crc2Field data.bytes) }) := by
  by_cases zero : lengthField data.bytes = 0
  · refine ⟨pkt, ?_, fun _ => ?_⟩
    · simp only [decodePayload, zero, if_true, ne_eq, not_true_eq_false, false_and, if_false]
      rfl
    · simp only [zero, if_true]
  have inside : 12 + (lengthField data.bytes).toNat + 4 ≤ 528 := by
    simp only [maxPayloadSize] at fits
    omega
  have payloadLength : (payloadField data.bytes).length = (lengthField data.bytes).toNat :=
    slice_length (by rw [data.size]; omega)
  have whole : (payloadField data.bytes).take (lengthField data.bytes).toNat =
      payloadField data.bytes := List.take_of_length_le (Nat.le_of_eq payloadLength)
  have crc2Eq : ntohl (UInt32.ofNat (ofLe (slice data.bytes (12 + (lengthField data.bytes).toNat) 4)))
      = crc2Field data.bytes := rfl
  have payloadRead : orFail Fault.bufferRead (data.read? 12 (lengthField data.bytes).toNat) =
      .ok (payloadField data.bytes) := read_inside data (by omega)
  have set := pktSetPayload_fits pkt (payloadField data.bytes) zero fits
  rw [whole] at set
  have shown : pktGetTr { pkt with
      length := htons (lengthField data.bytes), payload := .block (payloadField data.bytes) } = 0 :=
    (pktGetTr_eq_zero _).mpr tr
  have held : pktGetPayload { pkt with
      length := htons (lengthField data.bytes), payload := .block (payloadField data.bytes) } =
        .block (payloadField data.bytes) := by
    simp only [pktGetPayload, pktGetLength, tr, if_true, ntohs_htons, if_neg zero]
  have readable : Payload.read? (.block (payloadField data.bytes)) (lengthField data.bytes).toNat =
      some (payloadField data.bytes) := by
    rw [Payload.read?, if_pos (Nat.le_of_eq payloadLength.symm), whole]
  simp only [decodePayload, zero, if_false, payloadRead, ok_bind, set, ne_eq, not_true_eq_false,
    shown, read_inside data inside, crc2Eq, held, readable, orFail_some, not_false_eq_true, true_and]
  by_cases crc2 : crc2Field data.bytes = crc32 (payloadField data.bytes)
  · simp only [crc2, not_true_eq_false, if_false]
    refine ⟨_, rfl, fun _ => ?_⟩
    simp only [← crc2, length]
  · simp only [crc2, not_false_eq_true, if_true]
    exact ⟨_, rfl, fun h => (h trivial).elim⟩

theorem typeField_le (bs : List UInt8) : typeField bs ≤ 3 :=
  Nat.le_of_lt_succ ((firstField bs).toBitVec.extractLsb' 6 2).isLt

private theorem low_bits : ∀ b : BitVec 8, (b &&& 31).toNat ≤ 31 := by decide

theorem pktSetWindow_low (pkt : Pkt) (b : UInt8) :
    pktSetWindow pkt (b &&& 31) =
      (.pktOk, { pkt with window := BitVec.ofNat 5 (b &&& 31).toNat }) :=
  if_neg (Nat.not_lt.mpr (low_bits b.toBitVec))

/-- The decoder of the exercise stays inside a buffer of 528 bytes, and this is what it returns. -/
theorem pktDecode_spec (crc32 : List UInt8 → UInt32) (data : Buf 528) (len : Nat) (pkt : Pkt) :
    ∃ q, pktDecode crc32 data len pkt = .ok (verdict crc32 data.bytes len, q) ∧
      (verdict crc32 data.bytes len = .pktOk → q = received data.bytes pkt) := by
  have lengthEq : ntohs (UInt16.ofNat (ofLe (slice data.bytes 2 2))) = lengthField data.bytes := rfl
  have crc1Eq : ntohl (UInt32.ofNat (ofLe (slice data.bytes 8 4))) = crc1Field data.bytes := rfl
  have firstEq : UInt8.ofNat (ofLe (slice data.bytes 0 1)) = firstField data.bytes := rfl
  have typeEq := typeField_shift data.bytes
  unfold verdict
  by_cases empty : len = 0
  · exact ⟨pkt, by simp only [pktDecode, empty, if_true]; rfl, by simp [empty]⟩
  by_cases short : len < 4
  · exact ⟨pkt, by simp only [pktDecode, empty, short, if_true, if_false]; rfl, by simp [empty, short]⟩
  simp only [pktDecode, empty, short, if_false, read_inside data (show 0 + 1 ≤ 528 by decide),
    read_inside data (show 1 + 1 ≤ 528 by decide),
    read_inside data (show 2 + 2 ≤ 528 by decide),
    read_inside data (show 4 + 1 ≤ 528 by decide),
    read_inside data (show 8 + 4 ≤ 528 by decide),
    read_inside data (show 0 + 8 ≤ 528 by decide), ok_bind, firstEq, typeEq,
    pktSetSeqnum_status, pktSetTimestamp_status, pktSetCrc1_status, ne_eq, not_true_eq_false,
    lengthEq, crc1Eq]
  by_cases untyped : typeField data.bytes = 0
  · have refused : pktSetType pkt 0 = (.eType, pkt) := rfl
    simp only [untyped, refused, reduceCtorEq, not_false_eq_true, if_true]
    exact ⟨_, rfl, fun h => by cases h⟩
  have named : typeField data.bytes = ptypeData ∨ typeField data.bytes = ptypeAck ∨
      typeField data.bytes = ptypeNack := by
    have small := typeField_le data.bytes
    simp only [ptypeData, ptypeAck, ptypeNack]
    omega
  have set : pktSetType pkt (typeField data.bytes) =
      (.pktOk, { pkt with type := BitVec.ofNat 2 (typeField data.bytes) }) := if_pos named
  simp only [set, untyped, not_true_eq_false, if_false]
  by_cases isData : typeField data.bytes = ptypeData
  · have cleared : pktSetTr { pkt with type := BitVec.ofNat 2 ptypeData } 0 =
        (.pktOk, { pkt with type := 1, tr := 0 }) := rfl
    simp only [isData, cleared, not_true_eq_false, if_false, pktSetWindow_low, pktSetSeqnum]
    by_cases long : (lengthField data.bytes).toNat > maxPayloadSize
    · simp only [pktSetLength_long _ long, long, reduceCtorEq, not_false_eq_true, if_true]
      exact ⟨_, rfl, fun h => by cases h⟩
    have fits : (lengthField data.bytes).toNat ≤ maxPayloadSize := Nat.not_lt.mp long
    simp only [pktSetLength_fits _ fits, long, not_true_eq_false, if_false, pktSetTimestamp]
    by_cases crc1 : crc1Field data.bytes = crc32 (slice data.bytes 0 8)
    · simp only [crc1, not_true_eq_false, if_false, pktSetCrc1]
      let headed : Pkt :=
        { pkt with
          type := 1, tr := 0, window := BitVec.ofNat 5 (firstField data.bytes &&& 31).toNat
          seqnum := UInt8.ofNat (ofLe (slice data.bytes 1 1))
          length := htons (lengthField data.bytes)
          timestamp := ofChar (UInt8.ofNat (ofLe (slice data.bytes 4 1)))
          crc1 := htonl (crc32 (slice data.bytes 0 8)) }
      obtain ⟨q, decoded, filled⟩ :=
        decodePayload_spec crc32 data (show headed.tr = 0 from rfl) rfl fits
      refine ⟨q, decoded, fun accepted => ?_⟩
      rw [filled fun bad => by rw [if_pos bad] at accepted; cases accepted]
      simp only [received, crc1, headed]
    · simp only [crc1, not_false_eq_true, if_true]
      exact ⟨_, rfl, fun h => by cases h⟩
  · have other : pktSetTr { pkt with type := BitVec.ofNat 2 (typeField data.bytes) } 0 =
        (.eTr, { pkt with type := BitVec.ofNat 2 (typeField data.bytes) }) := by
      have small := typeField_le data.bytes
      apply if_neg
      simp only [pktGetType, BitVec.toNat_ofNat]
      omega
    simp only [isData, other, reduceCtorEq, not_false_eq_true, if_true]
    exact ⟨_, rfl, fun h => by cases h⟩

end Exercise

/-! ## Both decoders on one buffer -/

end SegmentTransfer
