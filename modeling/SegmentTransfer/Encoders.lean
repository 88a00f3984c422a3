import SegmentTransfer.Exercise
import SegmentTransfer.RoundTrip

/-! # The two encoders

Run at the time its packet is stamped with, the encoder of the transfer code
leaves what the exercise's does. The exercise's looks at the room it is given,
but the size it asks for counts a checksum only behind a payload, and it writes
one with every packet whose `TR` is 0.
-/

namespace SegmentTransfer

open Bytes Outcome

variable {crc32 : List UInt8 → UInt32} {n : Nat} {pkt : Pkt} {body : List UInt8}

/-- Both encoders accept, and the datagrams they leave in 528 bytes are the same. -/
theorem encoders_agree
    (present : (pktGetPayload pkt).read? (pktGetLength pkt).toNat = some body)
    (fits : body.length ≤ maxPayloadSize) {clock : Timeval} (now : clock.stamp = pkt.timestamp)
    (theirs ours : Buf 528) (len : Nat) :
    ∃ buf e, Exercise.pktEncode crc32 pkt theirs 528 = .ok (.pktOk, buf, e.len) ∧
      pktEncode crc32 clock pkt ours len = .ok e ∧ e.status = .pktOk ∧
      buf.bytes.take e.len = e.buf.bytes.take e.len := by
  have room := room_528 pkt fits
  have stamped : { pkt with timestamp := clock.stamp } = pkt := by
    rw [now]
  have encoded := @pktEncode_eq crc32 528 clock pkt body present room ours len
  rw [stamped] at encoded
  refine ⟨_, _, Exercise.pktEncode_eq present room theirs (frame_528 crc32 pkt fits), encoded, rfl, ?_⟩
  obtain ⟨rest, left⟩ := fill_written crc32 room theirs
  obtain ⟨rest', right⟩ := fill_written crc32 room ours
  simp only [left, right, List.take_left]

/-- A DATA packet of sixteen bytes, stamped 0. -/
theorem encoders_agree_sample :
    ∃ buf e, Exercise.pktEncode Crc.crc32 samplePkt (.replicate 528 0) 528 =
        .ok (.pktOk, buf, e.len) ∧
      pktEncode Crc.crc32 ⟨0, 0⟩ samplePkt (.replicate 528 255) 528 = .ok e ∧ e.status = .pktOk ∧
      buf.bytes.take e.len = e.buf.bytes.take e.len :=
  @encoders_agree Crc.crc32 samplePkt (List.replicate 16 0x54) (by decide) (by decide) ⟨0, 0⟩ rfl
    (.replicate 528 0) (.replicate 528 255) 528

namespace Exercise

/-- How many bytes the frame of a packet has. -/
def frameSize (pkt : Pkt) : Nat :=
  let length := (pktGetLength pkt).toNat
  (if pkt.tr = 0 ∧ length > 0 then length + 4 else length) + 12

/-- Given `len` bytes, the encoder refuses when the frame does not fit and changes nothing, and
    encodes when it does; in neither case does it write behind the `len` bytes, whatever is there. -/
def KeepsToSize (crc32 : List UInt8 → UInt32) (pkt : Pkt) (len : Nat) : Prop :=
  ∀ n, len ≤ n → ∀ buf : Buf n, ∃ status out left,
    pktEncode crc32 pkt buf len = .ok (status, out, left) ∧
      if len < frameSize pkt then status = .eNomem ∧ out = buf ∧ left = len
      else status = .pktOk ∧ left = frameSize pkt ∧ out.bytes.drop len = buf.bytes.drop len

theorem frame_frameSize (crc32 : List UInt8 → UInt32)
    (present : (pktGetPayload pkt).read? (pktGetLength pkt).toNat = some body) :
    (frame crc32 pkt body).length = frameSize pkt := by
  have nonempty : body.length > 0 ↔ body ≠ [] := List.length_pos_iff
  simp only [frame_length, frameSize, ← Payload.read?_length present, nonempty]

theorem pktEncode_refuses {len : Nat} (few : len < frameSize pkt) (buf : Buf n) :
    pktEncode crc32 pkt buf len = .ok (.eNomem, buf, len) := by
  unfold frameSize at few
  unfold pktEncode
  simp only [pktGetTr_eq_zero, if_pos few]
  rfl

theorem pktEncode_overruns (tr : pkt.tr = 0) (empty : pktGetLength pkt = 0) {len : Nat}
    (header : 12 ≤ len) (short : len < 16) : ¬ KeepsToSize crc32 pkt len := by
  have present := read_bare empty
  have size := frame_frameSize crc32 present
  have bare := @frame_bare_length crc32 pkt
  have room := @room_le 16 pkt [] (by simp)
  have long : (written crc32 pkt []).length = 16 := by
    simp [written_length, tr]
  have same : ∀ b : UInt8, KeepsToSize crc32 pkt len →
      (written crc32 pkt []).drop len = List.replicate (16 - len) b := by
    intro b keeps
    obtain ⟨status, out, left, encoded, rest⟩ := keeps 16 (by omega) (.replicate 16 b)
    have enough : (frame crc32 pkt []).length ≤ len := by omega
    rw [pktEncode_eq present room _ enough] at encoded
    cases encoded
    rw [if_neg (by omega), Buf.fill_bytes _ (by omega)] at rest
    simpa only [Buf.replicate, long, List.drop_replicate, Nat.sub_self, List.replicate_zero,
      List.append_nil] using rest.2.2
  intro keeps
  have both := (same 0 keeps).symm.trans (same 1 keeps)
  rw [List.replicate_right_inj (by omega)] at both
  cases both

/-- The encoder keeps to the size it is given, except with `TR = 0`, no payload and 12 to 15 bytes. -/
theorem keepsToSize_iff
    (present : (pktGetPayload pkt).read? (pktGetLength pkt).toNat = some body) (len : Nat) :
    KeepsToSize crc32 pkt len ↔
      ¬ (pkt.tr = 0 ∧ pktGetLength pkt = 0 ∧ 12 ≤ len ∧ len < 16) := by
  constructor
  · rintro keeps ⟨tr, empty, header, short⟩
    exact pktEncode_overruns tr empty header short keeps
  · intro other n inside buf
    by_cases few : len < frameSize pkt
    · refine ⟨_, _, _, pktEncode_refuses few buf, ?_⟩
      simp only [few, if_true, and_self]
    · have size := frame_frameSize crc32 present
      have length := Payload.read?_length present
      have fits : (written crc32 pkt body).length ≤ len := by
        rw [written_length, length]
        unfold frameSize at few
        have zero : pktGetLength pkt = 0 ↔ (pktGetLength pkt).toNat = 0 := UInt16.toNat_inj.symm
        by_cases tr : pkt.tr = 0
        · simp only [tr, zero, true_and, if_true] at other few ⊢
          split at few <;> omega
        · simp only [tr, false_and, if_false] at few ⊢
          omega
      have room : 12 + body.length + (if pkt.tr = 0 then 4 else 0) ≤ n := by
        rw [← @written_length crc32]
        exact Nat.le_trans fits inside
      refine ⟨_, _, _, pktEncode_eq present room buf (by omega), ?_⟩
      rw [if_neg few]
      refine ⟨rfl, size, ?_⟩
      rw [Buf.fill_bytes buf (Nat.le_trans fits inside), List.drop_append,
        List.drop_eq_nil_of_le fits, List.nil_append, List.drop_drop, Nat.add_sub_cancel' fits]

/-- A packet with sixteen bytes of payload, and as many bytes as its frame has. -/
theorem keepsToSize_iff_sample :
    KeepsToSize Crc.crc32 samplePkt 32 ↔
      ¬ (samplePkt.tr = 0 ∧ pktGetLength samplePkt = 0 ∧ 12 ≤ 32 ∧ 32 < 16) :=
  @keepsToSize_iff Crc.crc32 samplePkt (List.replicate 16 0x54) (by decide) 32

/-- A new packet and the 12 bytes its frame has. -/
theorem size_overrun :
    ¬ ∀ (pkt : Pkt) (body : List UInt8),
      (pktGetPayload pkt).read? (pktGetLength pkt).toNat = some body →
      body.length ≤ maxPayloadSize → ∀ len, KeepsToSize Crc.crc32 pkt len := by
  intro all
  have keeps := all (pktNew zeroPkt) [] (by decide) (by decide) 12
  exact pktEncode_overruns rfl (by decide) (Nat.le_refl 12) (by decide) keeps

end Exercise

end SegmentTransfer
