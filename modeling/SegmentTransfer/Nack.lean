import SegmentTransfer.SendWindow

/-! # Negative acknowledgements

A segment that arrives with `TR = 1` is answered by a NACK with the number after
its own. What `send_data` does with a NACK is send two datagrams, the frame of a
slot and the bytes of its structure, or none.
-/

namespace SegmentTransfer

open Bytes Outcome

variable {crc32 : List UInt8 → UInt32} {ready : Ready} {it it' : Iteration}

/-! ## The receiver -/

/-- A data packet with `TR = 1`, numbered `n` modulo 256: header and checksum. -/
def IsTruncated (crc32 : List UInt8 → UInt32) (n : Nat) (d : List UInt8) : Prop :=
  ∃ p : Pkt, p.tr = 1 ∧ pktGetType p = ptypeData ∧ p.seqnum = UInt8.ofNat n ∧
    (ntohs p.length).toNat ≤ maxPayloadSize ∧ d = frame crc32 p []

theorem IsTruncated.decode {n : Nat} {d : List UInt8} (h : IsTruncated crc32 n d) (buf : Buf 528)
    (dst : Pkt) :
    d.length = 12 ∧ ∃ q, pktDecode crc32 (buf.fill d) d.length dst = .ok (.pktOk, q) ∧
      pktGetTr q = 1 ∧ pktGetType q = ptypeData ∧ pktGetSeqnum q = UInt8.ofNat n := by
  obtain ⟨p, tr, type, seqnum, fits, rfl⟩ := h
  have length : (frame crc32 p []).length = 12 := frame_bare_length p
  have none : pktGetLength p = 0 := if_neg (by rw [tr]; decide)
  have bytes := Buf.fill_bytes buf (show (frame crc32 p []).length ≤ 528 by omega)
  have decoded := pktDecode_frame fits (by rw [none]; rfl) bytes
    (show 4 ≤ (frame crc32 p []).length by omega) dst
  rw [received_frame] at decoded
  exact ⟨length, _, decoded, congrArg BitVec.toNat tr, type, seqnum⟩

theorem receivePacket_truncated {n : Nat} {d : List UInt8} (h : IsTruncated crc32 n d) {r : Receiver}
    (ackTr : r.pktAck.tr = 0) (clock : Timeval) (stack : Buf 20) :
    ∃ q p nack, r.receivePacket crc32 clock stack (some d) =
        .ok ({ r with packetEncoded := r.packetEncoded.fill d, pktRcv := q, pktAck := p }, [nack]) ∧
      p.tr = 0 ∧ pktGetTr q = 1 ∧ pktGetSeqnum q = UInt8.ofNat n ∧
      IsFrame crc32 ptypeNack (n + 1) receiverWindow [] nack := by
  obtain ⟨length, q, decoded, tr, type, seqnum⟩ := h.decode r.packetEncoded r.pktRcv
  have byte : (pktGetSeqnum q).toNat = n % 256 := by
    rw [seqnum]
    exact UInt8.toNat_ofNat' ..
  have number : UInt8.ofInt (((pktGetSeqnum q).toNat : Int) + 1) = UInt8.ofNat (n + 1) := by
    calc
      UInt8.ofInt (((pktGetSeqnum q).toNat : Int) + 1) =
          UInt8.ofInt (((n % 256 + 1 : Nat) : Int) - 1 + 1) := by
        rw [byte, Int.sub_add_cancel, Int.natCast_succ]
      _ = UInt8.ofNat (n % 256 + 1) := ofInt_pred _
      _ = UInt8.ofNat (n + 1) := by
        rw [← ofNat_mod (n + 1), ← ofNat_mod (n % 256 + 1), Nat.mod_add_mod]
  obtain ⟨p, nack, sent, tr', framed⟩ := sendAck_spec crc32 ackTr (.inr rfl)
    receiverWindow_fits number clock stack (pktGetTimestamp q)
  refine ⟨q, p, nack, ?_, tr', tr, seqnum, framed⟩
  have fits : min d.length 528 = d.length := by omega
  have some : ¬ d.length = 0 := by omega
  simp only [Receiver.receivePacket, fits, some, if_false, decoded, ok_bind, type, and_self, if_true,
    Receiver.handleData, tr, Receiver.reply, sent]
  rfl

/-! ## The sender -/

theorem handleNack_out (h : handleNack crc32 ready it = .ok it') :
    it'.out = it.out ∨ ∃ frame raw, it'.out = it.out ++ [frame, raw] := by
  obtain ⟨slot, -, rest⟩ := bind_eq_ok.mp h
  obtain ⟨x, -, rest⟩ := bind_eq_ok.mp rest
  split at rest
  · cases rest
    exact .inl rfl
  · obtain ⟨oldest, -, rest⟩ := bind_eq_ok.mp rest
    obtain ⟨pkt, -, rest⟩ := bind_eq_ok.mp rest
    cases rest
    exact .inr ⟨_, _, rfl⟩

theorem replyPart_out (ranges : it.sender.Ranges) (running : it.sender.phase ≠ .returned)
    (h : replyPart crc32 ready it = .ok it') :
    it'.out = it.out ∨ ∃ frame raw, it'.out = it.out ++ [frame, raw] := by
  rcases replyPart_cases h with ⟨-, q, buf, rfl⟩ | ⟨p, buf, -, replied⟩
  · exact .inl rfl
  rcases @handleReply_cases crc32 ready { it with sender := it.sender.withReply p buf } it'
    (ranges.withReply p buf) running replied with ⟨-, rfl⟩ | ⟨-, nack | rfl⟩
  · exact .inl rfl
  · have sent := handleNack_out nack
    exact sent
  · exact .inl rfl

/-- A sender with a segment outstanding, in a pass that reads the answer to a copy of it with
    `TR = 1`. -/
structure Nacked (crc32 : List UInt8 → UInt32) where
  s : Sender
  reachable : (senderLoop crc32).Reachable s
  ready : Ready
  it : Iteration
  read : filePart crc32 ready s.begin = .ok it
  running : it.sender.phase ≠ .returned
  n : Nat
  sent : n < it.sender.seqInd
  outstanding : it.sender.steps ≤ n
  r : Receiver
  r' : Receiver
  clock : Timeval
  stack : Buf 20
  copy : List UInt8
  nack : List UInt8
  answered : r.receivePacket crc32 clock stack (some copy) = .ok (r', [nack])
  truncated : pktGetTr r'.pktRcv = 1
  number : pktGetSeqnum r'.pktRcv = UInt8.ofNat n
  arrives : ready.sfd = some (some nack)

/-- The index is that of a slot in the window, it holds the segment, and only its frame is sent. -/
def Nacked.Recovers (c : Nacked crc32) : Prop :=
  ∃ (p : Pkt) (slot : Nat) (held : Pkt) (e : Encoded 528) (it' : Iteration),
    handled crc32 c.ready c.it = some p ∧
    nackSlot (c.it.sender.withReply p c.it.sender.packetEncoded).widened = .ok slot ∧
    slot < (c.it.sender.withReply p c.it.sender.packetEncoded).widened.window ∧
    c.it.sender.buffer slot = some held ∧ pktGetSeqnum held = UInt8.ofNat c.n ∧
    (∃ buf, pktEncode crc32 c.ready.replyClock held buf 528 = .ok e) ∧
    replyPart crc32 c.ready c.it = .ok it' ∧ it'.out = c.it.out ++ [e.buf.bytes.take e.len]

theorem Nacked.not_one (c : Nacked crc32) (h : replyPart crc32 c.ready c.it = .ok it')
    (d : List UInt8) : it'.out ≠ c.it.out ++ [d] := by
  intro one
  have ranges := (Sender.Ranges.of_reachable c.reachable).read c.read
  rcases replyPart_out ranges c.running h with none | ⟨frame, raw, two⟩
  · rw [none] at one
    simp at one
  · rw [two] at one
    simp at one

/-- No NACK has the segment it is about sent again, and nothing else. -/
theorem nack_never_recovers (c : Nacked crc32) : ¬ c.Recovers := by
  rintro ⟨p, slot, held, e, it', -, -, -, -, -, -, replied, one⟩
  exact c.not_one replied _ one

/-- The first segment is outstanding, and a copy of it arrives with `TR = 1`. -/
theorem nack_unanswered : ¬ ∀ c : Nacked Crc.crc32, c.Recovers := by
  intro recovers
  have begun := (Leads.start Crc.crc32 (Sender.AcksInRange Crc.crc32) seven).read rfl sevens
    (@Protocol.Sender.read_first 1 (by omega))
  obtain ⟨s, reach, shown⟩ := begun
  let copied : Pkt := { samplePkt with tr := 1, seqnum := 0, length := htons 1 }
  have truncated : IsTruncated Crc.crc32 0 (frame Crc.crc32 copied []) :=
    ⟨copied, rfl, rfl, rfl, by decide, rfl⟩
  obtain ⟨q, p, nack, answered, -, tr, number, -⟩ :=
    @receivePacket_truncated Crc.crc32 0 _ truncated (.start firstPkt firstPkt (.replicate 528 0)) rfl
      ⟨0, 0⟩ (.replicate 20 0)
  have sent : 0 < s.begin.sender.seqInd := Nat.lt_of_lt_of_eq Nat.one_pos shown.seqInd.symm
  have outstanding : s.begin.sender.steps ≤ 0 := Nat.le_of_eq shown.steps
  let c : Nacked Crc.crc32 :=
    { s, reachable := reach.of_restrict, ready := .still none (some (some nack)), it := s.begin
      read := filePart_unread rfl _, running := shown.running rfl, n := 0, sent, outstanding
      r := _, r' := _, clock := _, stack := _, copy := _, nack, answered
      truncated := tr, number, arrives := rfl }
  obtain ⟨p, slot, held, e, it', -, -, -, -, -, -, replied, one⟩ := recovers c
  exact c.not_one replied _ one

end SegmentTransfer
