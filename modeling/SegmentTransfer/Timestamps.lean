import SegmentTransfer.ReceiverRefinement

/-! # Timestamps

`pkt_encode` stamps every packet with the clock, and with it the replies, which
are to carry the time of the packet they answer. `adapt_rtt` takes the time that
went by on another scale than the stamp it is to be compared with.
-/

namespace SegmentTransfer

open Bytes Outcome

variable {crc32 : List UInt8 → UInt32}

/-! ## The time in a reply -/

/-- A datagram that decodes to a reply about a packet sent at `timeData`. -/
def IsEcho (crc32 : List UInt8 → UInt32) (ack : Nat) (seqnum : Int) (timeData : UInt32)
    (window : Nat) (d : List UInt8) : Prop :=
  ∀ (buf : Buf 528) (dst : Pkt), ∃ q, pktDecode crc32 (buf.fill d) d.length dst = .ok (.pktOk, q) ∧
    pktGetTimestamp q = timeData ∧ pktGetType q = ack ∧ pktGetWindow q = window ∧
    ((pktGetSeqnum q).toNat : Int) = (seqnum + 1) % 256

theorem sendAck_frame (crc32 : List UInt8 → UInt32) (pktAck : Pkt) {ack : Nat}
    (kind : ack = ptypeAck ∨ ack = ptypeNack) {window : Nat} (fits : window ≤ maxWindowSize)
    {seqnum : Int} {seq : Nat} (numbered : UInt8.ofInt (seqnum + 1) = UInt8.ofNat seq)
    (clock : Timeval) (stack : Buf 20) (timeData : UInt32) :
    ∃ p, sendAck crc32 clock stack pktAck seqnum ack timeData window =
      .ok (p, [frame crc32 (replyPkt pktAck ack seq clock.stamp window) []]) := by
  obtain ⟨e, encoded, status, -, sent⟩ :=
    replyPkt_encode crc32 pktAck ack seq timeData window clock stack
  exact ⟨e.pkt, sent ▸ sendAck_eq crc32 pktAck kind fits numbered clock stack timeData encoded status⟩

theorem replyPkt_decoded (pktAck : Pkt) {ack : Nat} (kind : ack = ptypeAck ∨ ack = ptypeNack)
    {window : Nat} (fits : window ≤ maxWindowSize) (seq : Nat) (stamp : UInt32) (buf : Buf 528)
    (dst : Pkt) :
    ∃ q, pktDecode crc32 (buf.fill (frame crc32 (replyPkt pktAck ack seq stamp window) []))
          (frame crc32 (replyPkt pktAck ack seq stamp window) []).length dst = .ok (.pktOk, q) ∧
      pktGetTimestamp q = stamp ∧ pktGetType q = ack ∧ pktGetWindow q = window ∧
      pktGetSeqnum q = UInt8.ofNat seq := by
  let pkt := replyPkt pktAck ack seq stamp window
  obtain ⟨stored, none⟩ := replyPkt_length pktAck ack seq stamp window
  have length : (frame crc32 pkt []).length = 12 := frame_bare_length pkt
  have bytes := Buf.fill_bytes buf (show (frame crc32 pkt []).length ≤ 528 by omega)
  have decoded := @pktDecode_frame crc32 pkt [] _ (stored ▸ Nat.zero_le _) (by rw [none]; rfl) _ bytes _
    (show 4 ≤ (frame crc32 pkt []).length by omega) dst
  rw [received_frame] at decoded
  refine ⟨_, decoded, rfl, ?_, (ofNat_window fits).2, rfl⟩
  rcases kind with rfl | rfl <;> rfl

/-- `send_ack` echoes the time it is given exactly when that is the time of its own clock. -/
theorem sendAck_echoes_iff (crc32 : List UInt8 → UInt32) (pktAck : Pkt) (seqnum : Int) {ack : Nat}
    (kind : ack = ptypeAck ∨ ack = ptypeNack) (timeData : UInt32) {window : Nat}
    (fits : window ≤ maxWindowSize) (clock : Timeval) (stack : Buf 20) :
    (∃ p d, sendAck crc32 clock stack pktAck seqnum ack timeData window = .ok (p, [d]) ∧
      IsEcho crc32 ack seqnum timeData window d) ↔ clock.stamp = timeData := by
  let seq := ((seqnum + 1) % 256).toNat
  have number : (UInt8.ofNat seq).toNat = seq := by
    rw [UInt8.toNat_ofNat']
    omega
  have numbered : UInt8.ofInt (seqnum + 1) = UInt8.ofNat seq := by
    apply UInt8.toNat_inj.mp
    rw [number, UInt8.ofInt, UInt8.toNat_ofNat']
    omega
  obtain ⟨p, sent⟩ := sendAck_frame crc32 pktAck kind fits numbered clock stack timeData
  constructor
  · rintro ⟨p', d, sent', echo⟩
    rw [sent] at sent'
    cases sent'
    obtain ⟨q, decoded, timestamp, -⟩ := echo (.replicate 528 0) pktAck
    obtain ⟨q', decoded', stamp, -⟩ :=
      replyPkt_decoded pktAck kind fits seq clock.stamp (.replicate 528 0) pktAck
    rw [decoded] at decoded'
    cases decoded'
    rw [← stamp, timestamp]
  · intro same
    refine ⟨p, _, sent, fun buf dst => ?_⟩
    obtain ⟨q, decoded, stamp, type, advertised, seqnumOf⟩ :=
      @replyPkt_decoded crc32 pktAck ack kind window fits seq clock.stamp buf dst
    refine ⟨q, decoded, stamp.trans same, type, advertised, ?_⟩
    rw [seqnumOf, number]
    omega

/-- A reply to a packet stamped 5, sent at that time. -/
theorem sendAck_echoes_sample :
    ∃ p d, sendAck Crc.crc32 ⟨0, 5⟩ (.replicate 20 0) samplePkt 7 ptypeAck 5 receiverWindow =
        .ok (p, [d]) ∧
      IsEcho Crc.crc32 ptypeAck 7 5 receiverWindow d :=
  (sendAck_echoes_iff Crc.crc32 samplePkt 7 (.inl rfl) 5 receiverWindow_fits ⟨0, 5⟩
    (.replicate 20 0)).mpr rfl

/-- One microsecond later the reply carries another time. -/
theorem sendAck_no_echo :
    ¬ ∀ (crc32 : List UInt8 → UInt32) (pktAck : Pkt) (seqnum : Int) (ack : Nat) (timeData : UInt32)
      (window : Nat) (clock : Timeval) (stack : Buf 20), ack = ptypeAck ∨ ack = ptypeNack →
      window ≤ maxWindowSize →
      ∃ p d, sendAck crc32 clock stack pktAck seqnum ack timeData window = .ok (p, [d]) ∧
        IsEcho crc32 ack seqnum timeData window d := by
  intro echoes
  let pktAck := pktNew samplePkt
  obtain ⟨p, d, sent, echo⟩ := echoes Crc.crc32 pktAck 7 ptypeAck 5 receiverWindow ⟨0, 6⟩
    (.replicate 20 0) (.inl rfl) receiverWindow_fits
  obtain ⟨p', sent'⟩ := @sendAck_frame Crc.crc32 pktAck ptypeAck (.inl rfl) _ receiverWindow_fits 7 8
    rfl ⟨0, 6⟩ (.replicate 20 0) 5
  rw [sent] at sent'
  cases sent'
  obtain ⟨q, decoded, timestamp, -⟩ := echo (.replicate 528 0) pktAck
  obtain ⟨q', decoded', stamp, -⟩ := @replyPkt_decoded Crc.crc32 pktAck ptypeAck (.inl rfl) _
    receiverWindow_fits 8 (Timeval.stamp ⟨0, 6⟩) (.replicate 528 0) pktAck
  rw [decoded] at decoded'
  cases decoded'
  rw [timestamp] at stamp
  exact absurd stamp (by decide)

/-! ## The round-trip sample -/

/-- `dif` of `adapt_rtt`: computed in 64 bits and converted to `int`. -/
def adaptRttDif (tv1 : Timeval) (timestamp : UInt32) : Int :=
  (100000 * tv1.usec + tv1.sec - timestamp.toNat).bmod (2 ^ 32)

/-- The microseconds from one time to another. -/
def Timeval.elapsed (sent tv1 : Timeval) : Int :=
  (tv1.sec - sent.sec) * 1000000 + (tv1.usec - sent.usec)

/-- The time went by that `adapt_rtt` computes exactly when the two scales agree on the time of
    receipt, modulo 2^32. -/
theorem adaptRttDif_elapsed_iff {sent tv1 : Timeval} (later : 0 ≤ sent.elapsed tv1)
    (soon : sent.elapsed tv1 < 2 ^ 31) :
    adaptRttDif tv1 sent.stamp = sent.elapsed tv1 ↔
      (99999 * tv1.usec - 999999 * tv1.sec) % 2 ^ 32 = 0 := by
  have stamp : (sent.stamp.toNat : Int) = (sent.sec * 1000000 + sent.usec) % 2 ^ 32 := by
    rw [Timeval.stamp, UInt32.ofInt, UInt32.toNat_ofNat']
    omega
  -- the stamp and the time of sending differ by a multiple of 2^32
  have whole : sent.elapsed tv1 - (100000 * tv1.usec + tv1.sec - sent.stamp.toNat) =
      999999 * tv1.sec - 99999 * tv1.usec - 2 ^ 32 * ((sent.sec * 1000000 + sent.usec) / 2 ^ 32) := by
    unfold Timeval.elapsed
    omega
  rw [adaptRttDif, Int.bmod_eq_iff (by omega), whole]
  generalize (sent.sec * 1000000 + sent.usec) / 2 ^ 32 = high
  omega

/-- Once in some thousand seconds the scales agree at one microsecond. -/
theorem adaptRttDif_elapsed_sample :
    adaptRttDif ⟨1477000781, 416557⟩ (Timeval.stamp ⟨1477000780, 900000⟩) = 516557 :=
  (@adaptRttDif_elapsed_iff ⟨1477000780, 900000⟩ ⟨1477000781, 416557⟩ (by decide) (by decide)).mpr
    (by decide)

/-- One microsecond went by, and another number is computed. -/
theorem adaptRttDif_wrong :
    ¬ ∀ sent tv1 : Timeval, 0 ≤ sent.usec → sent.usec < 1000000 → 0 ≤ tv1.usec →
      tv1.usec < 1000000 → 0 ≤ sent.elapsed tv1 → sent.elapsed tv1 < 2 ^ 31 →
      adaptRttDif tv1 sent.stamp = sent.elapsed tv1 := by
  intro agrees
  have same := agrees ⟨1477000000, 0⟩ ⟨1477000000, 1⟩ (by decide) (by decide) (by decide) (by decide)
    (by decide) (by decide)
  exact absurd same (by decide)

end SegmentTransfer
