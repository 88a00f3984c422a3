import SegmentTransfer.OldestSegment

/-! # When the timer sends a segment again

The timer of the main loop finds the oldest segment outstanding in its slot, as
long as every reply that is decoded is in order, whatever refused ones leave in
`pkt_ack`.
-/

namespace SegmentTransfer

open Bytes Outcome

variable {crc32 : List UInt8 → UInt32} {chunk : Nat → List UInt8} {w : Nat} {ready : Ready}
  {it it' : Iteration}

/-! ## What a refused reply leaves -/

/-- Chunks are read as before, and every reply that is decoded is in order. -/
def Sender.DecodedInOrder (crc32 : List UInt8 → UInt32) (chunk : Nat → List UInt8) (w : Nat)
    (s : Sender) (ready : Ready) : Prop :=
  s.ReadsChunks chunk ready ∧ ∀ it d q, filePart crc32 ready s.begin = .ok it →
    ready.sfd = some (some d) →
    pktDecode crc32 (it.sender.packetEncoded.fill d) (min d.length 528) it.sender.pktAck =
      .ok (.pktOk, q) → it.sender.AckInOrder w q

/-- The header of an ACK with a window of 31, with a length that is refused. -/
def refusedReply : List UInt8 := [0x9f, 0, 0xff, 0xff]

theorem refusedReply_left (s : Sender) :
    ∃ q, pktDecode Crc.crc32 (s.packetEncoded.fill refusedReply) 4 s.pktAck = .ok (.eLength, q) ∧
      pktGetType q = ptypeAck ∧ pktGetWindow q = 31 := by
  have bytes := s.packetEncoded.fill_bytes (show refusedReply.length ≤ 528 by simp [refusedReply])
  have first : firstField (s.packetEncoded.fill refusedReply).bytes = 0x9f := by
    rw [bytes]
    rfl
  have field : Bytes.slice (s.packetEncoded.fill refusedReply).bytes 2 2 = [0xff, 0xff] := by
    rw [bytes]
    rfl
  have long : (lengthField (s.packetEncoded.fill refusedReply).bytes).toNat > maxPayloadSize := by
    rw [lengthField, field]
    decide
  refine ⟨_, pktDecode_long Crc.crc32 _ (Nat.le_refl 4) long s.pktAck, ?_, ?_⟩
  · rw [first]
    rfl
  · rw [first]
    rfl

/-- A refused reply, and then a read that gives nothing: what the reply left in `pkt_ack` is
    handled. -/
theorem refusal_handled :
    ∃ (q : Pkt) (left s' : Sender),
      pktDecode Crc.crc32 ((Buf.replicate 528 0).fill refusedReply) 4
        (Sender.start false firstPkt (.replicate 528 0)).pktAck = .ok (.eLength, q) ∧
      (Sender.start false firstPkt (.replicate 528 0)).pass Crc.crc32
        (.still none (some (some refusedReply))) = .ok (left, []) ∧
      left.phase = .main ∧ left.window = 1 ∧
      left.pass Crc.crc32 (.still none (some (some []))) = .ok (s', []) ∧ s'.window = 31 := by
  let s := Sender.start false firstPkt (.replicate 528 0)
  obtain ⟨q, refused, ack, window⟩ := refusedReply_left s
  let left := s.withReply q (s.packetEncoded.fill refusedReply)
  have length : min refusedReply.length 528 = 4 := rfl
  have replied : replyPart Crc.crc32 (.still none (some (some refusedReply))) s.begin =
      .ok left.begin := by
    simp only [replyPart, Ready.still, Option.getD_some, length, Sender.begin, refused, ok_bind]
    rfl
  have first : s.pass Crc.crc32 (.still none (some (some refusedReply))) = .ok (left, []) :=
    Sender.pass_replied rfl rfl rfl replied (fun gone => by cases gone) rfl
  -- it is still there when the next read gives nothing
  have ranges : left.Ranges := (Sender.Ranges.start false firstPkt _).withReply q _
  obtain ⟨buf, acked⟩ := @replyPart_ack Crc.crc32 (.still none (some (some []))) left.begin ranges
    (fun gone => by cases gone) q rfl ack
  have second := @Sender.pass_replied Crc.crc32 _ _ left rfl rfl rfl acked
    (fun gone => by cases gone) rfl
  refine ⟨q, left, _, refused, first, rfl, rfl, second, ?_⟩
  show (left.withReply q buf).widened.window = 31
  rw [Sender.widened_window, show (left.withReply q buf).pktAck = q from rfl, window]
  rfl

/-- A read that gives nothing has what a refused reply left in `pkt_ack` handled. -/
theorem window_unchecked :
    ¬ ∀ (chunk : Nat → List UInt8) (w : Nat) (s : Sender), w ≤ maxWindowSize →
      ((senderLoop Crc.crc32).restrict (Sender.DecodedInOrder Crc.crc32 chunk w)).Reachable s →
      s.window = (if s.lastAck = none then 1 else max 1 w) ∧ s.smallSeq = s.steps % 256 ∧
        s.smallInd = s.steps % s.window ∧
        (s.steps < s.seqInd → s.seqInd ≤ s.steps + s.window →
          ∃ p, s.buffer (s.smallInd % s.window) = some p ∧ IsSegment chunk s.steps p) := by
  intro ordered
  obtain ⟨q, left, s', refused, first, main, -, second, window⟩ := refusal_handled
  have begins : ((senderLoop Crc.crc32).restrict
      (Sender.DecodedInOrder Crc.crc32 seven receiverWindow)).Reachable
        (.start false firstPkt (.replicate 528 0)) := .of_init ⟨_, _, _, rfl⟩
  have refuses : (Sender.start false firstPkt (.replicate 528 0)).DecodedInOrder Crc.crc32 seven
      receiverWindow (.still none (some (some refusedReply))) := by
    refine ⟨fun _ b bs nothing => (by cases nothing), ?_⟩
    intro it d p read same decoded
    rw [filePart_unread rfl] at read
    cases read
    cases same
    have status := refused.symm.trans decoded
    cases status
  have reads : left.DecodedInOrder Crc.crc32 seven receiverWindow
      (.still none (some (some []))) := by
    refine ⟨fun _ b bs nothing => (by cases nothing), ?_⟩
    intro it d p read same decoded
    cases same
    cases decoded
  have reach := (begins.step ⟨⟨rfl, _, first⟩, refuses⟩).step ⟨⟨main, _, second⟩, reads⟩
  have advertised := (ordered seven receiverWindow _ receiverWindow_fits reach).1
  rw [window, receiverWindow] at advertised
  split at advertised <;> omega

/-! ## The timer -/

/-- What the timer sends is a segment that was sent and not acknowledged. -/
def Iteration.Legitimate (chunk : Nat → List UInt8) (it : Iteration) : Prop :=
  ∃ n p, it.sender.steps ≤ n ∧ n < it.sender.seqInd ∧
    it.sender.buffer (it.sender.smallInd % it.sender.window) = some p ∧ IsSegment chunk n p

/-- A file of `total` chunks, always readable, and replies that are ACKs in order with a window
    of three. -/
def Sender.FromFile (crc32 : List UInt8 → UInt32) (chunk : Nat → List UInt8) (total : Nat)
    (s : Sender) (ready : Ready) : Prop :=
  s.file = true ∧ ready.fd = fileRead chunk total s.seqInd true ∧ s.RepliesInOrder crc32 3 ready

variable {total : Nat}

theorem Iteration.Ringed.legitimate_iff (h : it.Ringed crc32 chunk w) :
    it.Legitimate chunk ↔ it.sender.steps < it.sender.seqInd := by
  obtain ⟨a, shown, ringed⟩ := h
  constructor
  · rintro ⟨n, p, low, high, -⟩
    omega
  · intro outstanding
    rw [shown.sender.steps, shown.sender.seqInd] at outstanding
    obtain ⟨m, low, high, held⟩ := ringed.slots.latest ringed.positive outstanding
    obtain ⟨p, here, segment⟩ := shown.sender.slot held
    refine ⟨m, p, ?_, ?_, ?_, segment⟩
    · rw [shown.sender.steps]
      exact low
    · rw [shown.sender.seqInd]
      exact high
    · rw [shown.sender.smallInd, shown.sender.window, ringed.smallInd, Nat.mod_mod]
      exact here

theorem Sender.FromFile.inOrder {s : Sender}
    (chunks : ∀ n, chunk n ≠ [] ∧ (chunk n).length ≤ maxPayloadSize)
    (h : s.FromFile crc32 chunk total ready) : s.InOrder crc32 chunk 3 ready := by
  refine ⟨?_, h.2.2⟩
  intro _ b bs some
  rw [h.2.1, fileRead, if_pos rfl] at some
  split at some
  · cases some
  · rw [Option.some.injEq, Option.some.injEq] at some
    rw [← some]
    exact List.take_of_length_le (chunks s.seqInd).2

theorem filePart_file {s : Sender} (chunks : ∀ n, chunk n ≠ [] ∧ (chunk n).length ≤ maxPayloadSize)
    (fd : ready.fd = fileRead chunk total s.seqInd true)
    (read : filePart crc32 ready s.begin = .ok it) (unsent : it.sent = false) :
    (s.fdSet = false ∧ it = s.begin) ∨
      (s.fdSet = true ∧ s.seqInd = total ∧ it = { s with endFile := true }.begin) ∨
      it.sender.phase = .returned := by
  rcases filePart_cases read with ⟨unset | nothing, rfl⟩ | ⟨-, -, rfl⟩ | ⟨set, ends, rfl⟩ |
    ⟨b, bs, -, -, sends⟩
  · exact .inl ⟨unset, rfl⟩
  · rw [fd, fileRead, if_pos rfl] at nothing
    cases nothing
  · exact .inr (.inr rfl)
  · rw [ends, fileRead, if_pos rfl] at fd
    refine .inr (.inl ⟨set, ?_, rfl⟩)
    by_contra unfinished
    rw [if_neg unfinished] at fd
    exact (chunks s.seqInd).1 (Option.some.inj (Option.some.inj fd)).symm
  · obtain ⟨pktSend, buffer, buf, rfl | ⟨out, rfl⟩⟩ := sendChunk_cases sends
    · exact .inr (.inr rfl)
    · cases unsent

theorem Sender.Ringed.acked {s : Sender} (h : s.Ringed crc32 chunk w) : s.steps ≤ s.seqInd := by
  obtain ⟨a, shown, ringed⟩ := h
  rw [shown.steps, shown.seqInd]
  exact ringed.acked

theorem Sender.Ringed.fdSet {s : Sender} (h : s.Ringed crc32 chunk w) (stays : s.stays = true)
    (idle : s.steps = s.seqInd) : s.fdSet = true := by
  obtain ⟨a, shown, ringed⟩ := h
  have positive := ringed.positive
  have ended : s.endFile = false := by
    cases ended : s.endFile with
    | false => rfl
    | true => simp [Sender.stays, ended] at stays
  have room : s.isNotFull = true := by
    apply decide_eq_true
    rw [shown.seqExp, shown.smallSeq, ← shown.seqInd, ← shown.steps, idle, shown.window]
    omega
  simp [Sender.fdSet, ended, room]

/-- What the timer sends is a segment still to be acknowledged, unless the end of the file was just
    read with none outstanding. -/
theorem timer_legitimate_iff (chunks : ∀ n, chunk n ≠ [] ∧ (chunk n).length ≤ maxPayloadSize)
    {s : Sender}
    (reach : ((senderLoop crc32).restrict (Sender.FromFile crc32 chunk total)).Reachable s)
    (main : s.phase = .main) (stays : s.stays = true) (file : s.FromFile crc32 chunk total ready)
    (read : filePart crc32 ready s.begin = .ok it) (running : it.sender.phase ≠ .returned)
    (replied : replyPart crc32 ready it = .ok it')
    (timer : it'.sent = false ∧ it'.ackReceived = false ∧ it'.sender.file = true) :
    it'.Legitimate chunk ↔ ¬ (s.fdSet = true ∧ s.seqInd = total ∧ s.steps = s.seqInd) := by
  obtain ⟨unsent, unanswered, -⟩ := timer
  have ringed := Sender.Ringed.of_reachable (reach.weaken fun s ready => Sender.FromFile.inOrder chunks)
  obtain ⟨reads, replies⟩ := file.inOrder chunks
  have ringedIt := (filePart_ringed (ringed.begin main) reads read).resolve_right
    fun returned => running returned.1
  obtain ⟨ringedIt', answered⟩ := replyPart_ringed ringedIt (fun p => replies it p read) replied
  rw [ringedIt'.legitimate_iff]
  rcases answered with handled | ⟨q, buf, rfl⟩
  · rw [handled] at unanswered
    cases unanswered
  have acked := ringed.acked
  rcases filePart_file chunks file.2.1 read unsent with ⟨unset, rfl⟩ | ⟨set, ends, rfl⟩ | gone
  · -- nothing was read, so the window is full
    have outstanding : s.steps < s.seqInd := by
      apply Nat.lt_of_le_of_ne acked
      intro idle
      rw [ringed.fdSet stays idle] at unset
      cases unset
    exact iff_of_true outstanding fun ended => Nat.ne_of_lt outstanding ended.2.2
  · show s.steps < s.seqInd ↔ _
    constructor
    · intro outstanding ended
      exact Nat.ne_of_lt outstanding ended.2.2
    · intro more
      apply Nat.lt_of_le_of_ne acked
      intro idle
      exact more ⟨set, ends, idle⟩
  · exact (running gone).elim

/-! ## A file of one segment, and an empty one -/

theorem first_read : ∃ s,
    ((senderLoop Crc.crc32).restrict (Sender.FromFile Crc.crc32 seven 1)).Reachable s ∧
      s.Shows Crc.crc32 seven { Protocol.Sender.begun with file := true } := by
  obtain ⟨s, ds, passed, shown⟩ := Sender.start_reads true
  have begins : ((senderLoop Crc.crc32).restrict (Sender.FromFile Crc.crc32 seven 1)).Reachable
      (.start true firstPkt (.replicate 528 0)) := .of_init ⟨_, _, _, rfl⟩
  have file : (Sender.start true firstPkt (.replicate 528 0)).FromFile Crc.crc32 seven 1
      (.still (fileRead seven 1 0 true) none) :=
    ⟨rfl, rfl, fun it p _ nothing => by cases nothing⟩
  exact ⟨s, begins.step ⟨⟨rfl, ds, passed⟩, file⟩, shown⟩

/-- No ACK comes, so segment 0 is sent again. -/
theorem timer_legitimate_iff_sample : ∃ it : Iteration, it.Legitimate seven := by
  obtain ⟨s, reach, shown⟩ := first_read
  let ready : Ready := .still (fileRead seven 1 s.seqInd true) none
  have full : s.fdSet = false := shown.fdSet
  have file : s.FromFile Crc.crc32 seven 1 ready :=
    ⟨shown.file, rfl, fun it p _ nothing => by cases nothing⟩
  have read : filePart Crc.crc32 ready s.begin = .ok s.begin := if_pos full
  have replied : replyPart Crc.crc32 ready s.begin = .ok s.begin := rfl
  have legitimate := (timer_legitimate_iff sevens reach shown.phase shown.stays file read
    (shown.running rfl) replied ⟨rfl, rfl, shown.file⟩).mpr
  refine ⟨s.begin, legitimate ?_⟩
  rintro ⟨set, -⟩
  rw [full] at set
  cases set

/-- The file is empty, and the timer turns to a slot that was never filled. -/
theorem timer_unfilled :
    ¬ ∀ (chunk : Nat → List UInt8) (total : Nat) (s : Sender) (ready : Ready) (it it' : Iteration),
      (∀ n, chunk n ≠ [] ∧ (chunk n).length ≤ maxPayloadSize) →
      ((senderLoop Crc.crc32).restrict (Sender.FromFile Crc.crc32 chunk total)).Reachable s →
      s.phase = .main → s.stays = true → s.FromFile Crc.crc32 chunk total ready →
      filePart Crc.crc32 ready s.begin = .ok it → it.sender.phase ≠ .returned →
      replyPart Crc.crc32 ready it = .ok it' →
      it'.sent = false ∧ it'.ackReceived = false ∧ it'.sender.file = true →
      it'.Legitimate chunk := by
  intro legitimate
  let s := Sender.start true firstPkt (.replicate 528 0)
  let ready : Ready := .still (fileRead seven 0 0 true) none
  have file : s.FromFile Crc.crc32 seven 0 ready :=
    ⟨rfl, rfl, fun it p _ nothing => by cases nothing⟩
  obtain ⟨n, p, -, sent, -⟩ := legitimate seven 0 s ready { s with endFile := true }.begin
    { s with endFile := true }.begin sevens (.of_init ⟨_, _, _, rfl⟩) rfl rfl file rfl
    (fun gone => by cases gone) rfl ⟨rfl, rfl, rfl⟩
  exact Nat.not_lt_zero n sent

end SegmentTransfer
