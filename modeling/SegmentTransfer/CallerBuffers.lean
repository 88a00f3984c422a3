import SegmentTransfer.HeaderCalls
import SegmentTransfer.Receiver

/-! # The callers' buffers

`pkt_encode` does not look at the room it is given and `pkt_decode` reads past
the length it is given. What keeps both inside the arrays of their callers is
that no call stores a LENGTH of more than 512.
-/

namespace SegmentTransfer

open Bytes Outcome

variable {crc32 : List UInt8 → UInt32} {n : Nat}

/-- Packets that calls, copies and encoders make of those of `pkt_new`. Copies refer to one payload,
    so what a packet refers to may also change by a call on another. -/
inductive Made (crc32 : List UInt8 → UInt32) : Pkt → Prop where
  | new (memory : Pkt) : Made crc32 (pktNew memory)
  | call {pkt pkt' : Pkt} {call : PacketCall} {status : PktStatusCode} :
      Made crc32 pkt → call.apply crc32 pkt = .ok (status, pkt') → Made crc32 pkt'
  | copy {source : Pkt} : Made crc32 source → Made crc32 (pktCopy source)
  | encode {n : Nat} {pkt : Pkt} {clock : Timeval} {buf : Buf n} {len : Nat} {e : Encoded n} :
      Made crc32 pkt → pktEncode crc32 clock pkt buf len = .ok e → Made crc32 e.pkt
  | shared {pkt : Pkt} (payload : Payload) : Made crc32 pkt → Made crc32 { pkt with payload }

theorem Made.length {pkt : Pkt} (made : Made crc32 pkt) :
    (ntohs pkt.length).toNat ≤ maxPayloadSize := by
  induction made with
  | new memory => exact (pktNew_headerValid memory).length
  | call _ called ih => exact PacketCall.length ih called
  | copy _ ih => exact ih
  | encode _ encoded ih =>
      obtain ⟨-, crc1, crc2, kept⟩ := pktEncode_cases encoded
      rw [kept]
      exact ih
  | shared _ _ ih => exact ih

theorem pktEncode_inside (crc32 : List UInt8 → UInt32) {pkt : Pkt}
    (fits : (ntohs pkt.length).toNat ≤ maxPayloadSize) (clock : Timeval) (buf : Buf 528) (len : Nat) :
    (∃ e, pktEncode crc32 clock pkt buf len = .ok e) ∨
      ((pktGetPayload pkt).read? (pktGetLength pkt).toNat = none ∧
        pktEncode crc32 clock pkt buf len = .error .payloadRead) := by
  cases readable : (pktGetPayload pkt).read? (pktGetLength pkt).toNat with
  | none => exact .inr ⟨rfl, pktEncode_unreadable readable (by omega) buf len⟩
  | some body =>
      have short : body.length ≤ maxPayloadSize := by
        rw [Payload.read?_length readable]
        exact pktGetLength_le fits
      exact .inl ⟨_, pktEncode_eq readable (room_528 pkt short) buf len⟩

theorem pktEncode_empty (crc32 : List UInt8 → UInt32) {pkt : Pkt} (none : pktGetLength pkt = 0)
    (room : 16 ≤ n) (clock : Timeval) (buf : Buf n) (len : Nat) :
    ∃ e, pktEncode crc32 clock pkt buf len = .ok e :=
  ⟨_, pktEncode_eq (read_bare none) (room_le pkt room) buf len⟩

/-- A reply fits the 20 bytes of `send_ack`, whatever it is to say. -/
theorem sendAck_inside (crc32 : List UInt8 → UInt32) (clock : Timeval) (stack : Buf 20)
    (pktAck : Pkt) (seqnum : Int) (ack : Nat) (timeData : UInt32) (window : Nat) :
    ∃ r, sendAck crc32 clock stack pktAck seqnum ack timeData window = .ok r := by
  obtain ⟨p, typed⟩ : ∃ p, (if ack = ptypeAck then
        pktSetType { pktAck with seqnum := UInt8.ofInt (seqnum + 1) } ptypeAck
      else if ack = ptypeNack then
        pktSetType { pktAck with seqnum := UInt8.ofInt (seqnum + 1) } ptypeNack
      else (.pktOk, { pktAck with seqnum := UInt8.ofInt (seqnum + 1) })) =
        (PktStatusCode.pktOk, p) := by
    split
    · exact ⟨_, rfl⟩
    · split
      · exact ⟨_, rfl⟩
      · exact ⟨_, rfl⟩
  have payload := fun p : Pkt =>
    pktSetPayload_fits p [] (show (0 : UInt16).toNat ≤ maxPayloadSize from Nat.zero_le _)
  simp only [sendAck, pktSetSeqnum, typed, pktSetTimestamp, pktSetWindow, ne_eq, not_true_eq_false,
    if_false]
  have ends : ∀ p : Pkt, pktGetLength p = 0 → ∃ r, (pktEncode crc32 clock p stack 20 >>= fun e =>
      if e.status ≠ .pktOk then pure (e.pkt, [])
      else pure (e.pkt, [e.buf.bytes.take e.len])) = .ok r := by
    intro p empty
    obtain ⟨e, encoded⟩ := pktEncode_empty crc32 empty (by omega) clock stack 20
    rw [encoded, ok_bind]
    split <;> exact ⟨_, rfl⟩
  by_cases wide : (UInt8.ofNat window).toNat > maxWindowSize
  · simp only [wide, if_true, reduceCtorEq, not_false_eq_true]
    exact ⟨_, rfl⟩
  · simp only [wide, if_false, payload, not_true_eq_false]
    apply ends
    rw [pktGetLength, ntohs_htons, ite_self]

/-- Encoding a packet, or a reply from it, and decoding into it stay inside the 528 or 20 bytes that
    the callers have; an encoder only stops for a payload that is not there. -/
theorem codec_inside {pkt : Pkt} (made : Made crc32 pkt) :
    (∀ (clock : Timeval) (buf : Buf 528) (len : Nat),
      (∃ e, pktEncode crc32 clock pkt buf len = .ok e) ∨
        ((pktGetPayload pkt).read? (pktGetLength pkt).toNat = none ∧
          pktEncode crc32 clock pkt buf len = .error .payloadRead)) ∧
      (pkt.tr = 0 → ∀ (clock : Timeval) (stack : Buf 20) (seqnum : Int) (ack : Nat)
        (timeData : UInt32) (window : Nat),
        ∃ r, sendAck crc32 clock stack pkt seqnum ack timeData window = .ok r) ∧
      ∀ (data : Buf 528) (len : Nat), ∃ r, pktDecode crc32 data len pkt = .ok r := by
  refine ⟨pktEncode_inside crc32 made.length, ?_, ?_⟩
  · intro _ clock stack seqnum ack timeData window
    exact sendAck_inside crc32 clock stack pkt seqnum ack timeData window
  · intro data len
    obtain ⟨q, decoded, -⟩ := pktDecode_spec crc32 data len pkt
    exact ⟨_, decoded⟩

/-- A packet with the longest payload there can be is encoded. -/
theorem codec_inside_sample :
    ∃ e, pktEncode Crc.crc32 ⟨0, 0⟩
      (pktSetPayload (pktNew samplePkt) ((List.range (512 : UInt16).toNat).map fun _ => 7) 512).2
      (.replicate 528 0) 528 = .ok e := by
  have made : Made Crc.crc32
      (pktSetPayload (pktNew samplePkt) ((List.range (512 : UInt16).toNat).map fun _ => 7) 512).2 :=
    @Made.call Crc.crc32 _ _ (.setPayload (fun _ => 7) 512) .pktOk (.new samplePkt) rfl
  obtain ⟨body, readable⟩ :=
    (pktSetPayload_backed (pktNew_backed samplePkt) (fun _ => 7) 512).readable
  rcases (codec_inside made).1 ⟨0, 0⟩ (.replicate 528 0) 528 with encoded | ⟨absent, -⟩
  · exact encoded
  · rw [readable] at absent
    cases absent

end SegmentTransfer
