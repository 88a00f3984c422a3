import SegmentTransfer.Nack
import SegmentTransfer.Reassembly

/-! # How the receiver ends

`receive_data` leaves its loop at any data packet without payload, whatever its
number. When such a packet only arrives with the number expected, everything
before it was written. What a packet with `TR = 1` does to the payloads of the
slots is not seen here.
-/

namespace SegmentTransfer

open Bytes Outcome

/-- The data packets of a transfer of `total` segments, each near enough to the segments written:
    a segment, the end packet, or a segment truncated on the way. -/
inductive InTransfer (crc32 : List UInt8 → UInt32) (chunk : Nat → List UInt8) (total : Nat)
    (written : Nat) : List UInt8 → Prop where
  | segment {n window d} : n < total → IsFrame crc32 ptypeData n window (chunk n) d →
      written ≤ n + 253 → n ≤ written + 255 → InTransfer crc32 chunk total written d
  | ending {window d} : IsFrame crc32 ptypeData total window [] d → total ≤ written + 255 →
      InTransfer crc32 chunk total written d
  | truncated {n d} : IsTruncated crc32 n d → InTransfer crc32 chunk total written d

/-- A packet with `TR = 0` and without payload only comes with the number expected. -/
def Receiver.EndsExpected (crc32 : List UInt8 → UInt32) (r : Receiver) (arrival : Arrival) : Prop :=
  r.endFile = false → ∀ d q, arrival.datagram = some (some d) →
    pktDecode crc32 (r.packetEncoded.fill d) (min d.length 528) r.pktRcv = .ok (.pktOk, q) →
    pktGetTr q = 0 → pktGetLength q = 0 → (pktGetSeqnum q).toNat = r.seqExp

variable {crc32 : List UInt8 → UInt32} {chunk : Nat → List UInt8} {total : Nat}

namespace Protocol.Receiver

variable {a : Receiver}

theorem listens_iff : a.listens = true ↔ a.returned = false ∧ a.endFile = false := by
  simp [listens]

theorem Ordered.empty (h : Ordered total a) (whole : a.done = total) : a.Empty := by
  intro i three
  cases content : a.slots i with
  | none => rfl
  | some m =>
      have held := h.held i three m content
      have inside := h.inside i three m content
      omega

/-- With everything in order, the end packet has the number expected exactly when nothing is
    missing before it and nothing held after. -/
theorem Ordered.ending_iff (h : Ordered total a) (close : total ≤ a.done + 255) :
    total % 256 = a.done % 256 ↔ a.done = total ∧ a.Empty := by
  constructor
  · intro expected
    have below := h.below
    have whole : a.done = total := by omega
    exact ⟨whole, h.empty whole⟩
  · rintro ⟨whole, -⟩
    rw [whole]

end Protocol.Receiver

namespace Receiver

variable {r r' : Receiver} {arrival : Arrival} {out : List (List UInt8)}

theorem pass_deaf (deaf : r.returned = true ∨ r.endFile = true) (arrival : Arrival) :
    r.pass crc32 arrival = r.pass crc32 { arrival with datagram := none } := by
  rcases deaf with returned | ended
  · simp only [pass, returned, if_true]
  · simp only [pass, ended, Bool.true_eq_false, if_false]

/-- What has been written is in order; once the end was taken, it is everything. -/
structure Ending (chunk : Nat → List UInt8) (total : Nat) (r : Receiver) (a : Protocol.Receiver) :
    Prop where
  shown : r.Shows chunk a
  ordered : Protocol.Receiver.Ordered total a
  whole : a.endFile = true → a.done = total

theorem Ending.start (chunk : Nat → List UInt8) (total : Nat) (memoryRcv memoryAck : Pkt)
    (buf : Buf 528) : Ending chunk total (.start memoryRcv memoryAck buf) .start where
  shown := .start chunk memoryRcv memoryAck buf
  ordered :=
    { toGathered := Protocol.Receiver.start_ordered.mono (Nat.zero_le total)
      missing := Protocol.Receiver.start_ordered.missing }
  whole := fun ended => by cases ended

theorem Ending.quiet {a : Protocol.Receiver} (h : Ending chunk total r a)
    (nothing : arrival.datagram = none) (passed : r.pass crc32 arrival = .ok (r', out)) :
    ∃ a', Ending chunk total r' a' := by
  have agree : Agree (ShowsReceived crc32 chunk) (r.pass crc32 arrival) (a.pass none) :=
    h.shown.pass (nothing ▸ .none)
  obtain ⟨⟨a', acks⟩, passed', shown', -⟩ := agree.of_ok_left passed
  rcases Protocol.Receiver.pass_cases passed' with ⟨-, n, mark, some, -⟩ | ⟨-, n, some, -⟩ |
    ⟨-, written, slots, same, -⟩
  · cases some
  · cases some
  · refine ⟨a', shown', h.ordered.congr written slots, ?_⟩
    intro ended
    rw [Protocol.Receiver.done, written]
    exact h.whole (same ▸ ended)

theorem Ending.segment (chunks : ∀ n, chunk n ≠ [] ∧ (chunk n).length ≤ maxPayloadSize)
    {a : Protocol.Receiver} (h : Ending chunk total r a) (listens : a.listens = true) {n window : Nat}
    {d : List UInt8} (new : n < total) (framed : IsFrame crc32 ptypeData n window (chunk n) d)
    (behind : a.done ≤ n + 253) (ahead : n ≤ a.done + 255)
    (datagram : arrival.datagram = some (some d)) (passed : r.pass crc32 arrival = .ok (r', out)) :
    ∃ a', Ending chunk total r' a' := by
  obtain ⟨a', drained, ordered, same⟩ :=
    Protocol.Receiver.arrival_ordered h.ordered new behind ahead
  have agree : Agree (ShowsReceived crc32 chunk) (r.pass crc32 arrival) (a.pass (some (.seg n 0))) :=
    h.shown.pass (datagram ▸ .some ⟨(chunks n).1, (chunks n).2, window, framed⟩)
  obtain ⟨⟨a'', acks⟩, passed', shown', -⟩ := agree.of_ok_left passed
  rw [Protocol.Receiver.pass_seg listens drained] at passed'
  cases passed'
  refine ⟨a', shown', ordered, ?_⟩
  intro ended
  simp [Protocol.Receiver.listens, ← same.1, ended] at listens

theorem Ending.ending {a : Protocol.Receiver} (h : Ending chunk total r a)
    (listens : a.listens = true) {window : Nat} {d : List UInt8}
    (framed : IsFrame crc32 ptypeData total window [] d) (close : total ≤ a.done + 255)
    (datagram : arrival.datagram = some (some d)) (expected : r.EndsExpected crc32 arrival)
    (passed : r.pass crc32 arrival = .ok (r', out)) : ∃ a', Ending chunk total r' a' := by
  obtain ⟨-, open_⟩ := Protocol.Receiver.listens_iff.mp listens
  obtain ⟨-, fits, q, decoded, tr, -, -, seqnum, length, -⟩ :=
    framed.decode (Nat.zero_le _) r.packetEncoded r.pktRcv
  rw [← Nat.min_eq_left fits] at decoded
  have number : total % 256 = a.done % 256 := by
    have same := expected (h.shown.endFile.trans open_) d q datagram decoded tr
      (UInt16.toNat_inj.mp length)
    rw [seqnum, h.shown.seqExp] at same
    rw [← same]
    exact (UInt8.toNat_ofNat' ..).symm
  obtain ⟨whole, -⟩ := (h.ordered.ending_iff close).mp number
  have agree : Agree (ShowsReceived crc32 chunk) (r.pass crc32 arrival) (a.pass (some (.fin total))) :=
    h.shown.pass (datagram ▸ .some ⟨window, framed⟩)
  obtain ⟨⟨a', acks⟩, passed', shown', -⟩ := agree.of_ok_left passed
  rw [Protocol.Receiver.pass_fin listens] at passed'
  cases passed'
  exact ⟨_, shown', h.ordered.congr rfl rfl, fun _ => whole⟩

theorem Ending.truncated {a : Protocol.Receiver} (h : Ending chunk total r a)
    (listens : a.listens = true) {n : Nat} {d : List UInt8} (truncated : IsTruncated crc32 n d)
    (datagram : arrival.datagram = some (some d)) (passed : r.pass crc32 arrival = .ok (r', out)) :
    ∃ a', Ending chunk total r' a' := by
  obtain ⟨running, open_⟩ := Protocol.Receiver.listens_iff.mp listens
  obtain ⟨q, p, nack, received, tr, -⟩ :=
    receivePacket_truncated truncated h.shown.ackTr arrival.clock arrival.stack
  have reads : r.pass crc32 arrival =
      r.receivePacket crc32 arrival.clock arrival.stack (some d) := by
    simp only [Receiver.pass, h.shown.returned, running, h.shown.endFile, open_, Bool.false_eq_true,
      if_false, if_true, datagram]
  rw [reads, received] at passed
  cases passed
  exact ⟨a, { h.shown with ackTr := tr }, h.ordered, h.whole⟩

theorem Ending.pass (chunks : ∀ n, chunk n ≠ [] ∧ (chunk n).length ≤ maxPayloadSize)
    {a : Protocol.Receiver} (h : Ending chunk total r a)
    (arrives : arrival.datagram = none ∨
      ∃ d, arrival.datagram = some (some d) ∧ InTransfer crc32 chunk total r.writes.length d)
    (expected : r.EndsExpected crc32 arrival) (passed : r.pass crc32 arrival = .ok (r', out)) :
    ∃ a', Ending chunk total r' a' := by
  cases listens : a.listens with
  | false =>
      have deaf : r.returned = true ∨ r.endFile = true := by
        rw [h.shown.returned, h.shown.endFile]
        simpa [Protocol.Receiver.listens, Classical.or_iff_not_imp_left] using listens
      rw [pass_deaf deaf] at passed
      exact h.quiet rfl passed
  | true =>
      have length : r.writes.length = a.done := by
        rw [h.shown.writes, List.length_map]
        rfl
      rcases arrives with nothing | ⟨d, datagram, valid⟩
      · exact h.quiet nothing passed
      · cases valid with
        | segment new framed behind ahead =>
            rw [length] at behind ahead
            exact h.segment chunks listens new framed behind ahead datagram passed
        | ending framed close =>
            rw [length] at close
            exact h.ending listens framed close datagram expected passed
        | truncated truncated => exact h.truncated listens truncated datagram passed

end Receiver

end SegmentTransfer
