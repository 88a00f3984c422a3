import SegmentTransfer.Library.Transition
import SegmentTransfer.SenderRefinement

/-! # What a pass of the sender changes

`send_data` alone, whatever the file gives and whatever replies come. A pass
reads a segment, the end of the file or nothing; it handles one reply or none;
sending a slot again touches no counter. From this the counters keep their
ranges in every run, and the sequence numbers are counts modulo 256.
-/

namespace SegmentTransfer

open Bytes Outcome

/-- The main loop of `send_data`. -/
def senderLoop (crc32 : List UInt8 → UInt32) : Transition Sender Ready where
  init s := ∃ file memory buf, s = .start file memory buf
  step s ready s' := s.phase = .main ∧ ∃ out, s.pass crc32 ready = .ok (s', out)

/-- What the counters of the sender keep. -/
structure Sender.Counts (s : Sender) : Prop where
  seqExp : s.seqExp = s.seqInd % 256
  smallSeq : s.smallSeq = s.steps % 256
  positive : 0 < s.window
  fits : s.window ≤ maxWindowSize

/-- The counters in their ranges; `fail` is never set. -/
structure Sender.Ranges (s : Sender) : Prop where
  counts : s.Counts
  inside : s.smallInd < s.window
  quiet : s.fail = 0

/-- None of the counters is touched. -/
structure Sender.SameCounters (s s' : Sender) : Prop where
  seqExp : s'.seqExp = s.seqExp
  seqInd : s'.seqInd = s.seqInd
  smallSeq : s'.smallSeq = s.smallSeq
  steps : s'.steps = s.steps
  window : s'.window = s.window

/-- Nothing is read or acknowledged, and neither the place in the slots nor `fail` changes. -/
structure Sender.SameRanges (s s' : Sender) : Prop extends s.SameCounters s' where
  smallInd : s'.smallInd = s.smallInd
  fail : s'.fail = s.fail

/-- Where a pass of the main loop begins. -/
def Sender.begin (s : Sender) : Iteration :=
  { sender := s, sent := false, ackReceived := false, out := [] }

namespace Sender

variable {s s' : Sender}

theorem Counts.congr (h : s.Counts) (same : s.SameCounters s') : s'.Counts where
  seqExp := by rw [same.seqExp, same.seqInd, h.seqExp]
  smallSeq := by rw [same.smallSeq, same.steps, h.smallSeq]
  positive := by rw [same.window]; exact h.positive
  fits := by rw [same.window]; exact h.fits

theorem Ranges.congr (h : s.Ranges) (same : s.SameRanges s') : s'.Ranges where
  counts := h.counts.congr same.toSameCounters
  inside := by rw [same.smallInd, same.window]; exact h.inside
  quiet := same.fail.trans h.quiet

theorem Ranges.start (file : Bool) (memory : Pkt) (buf : Buf 528) :
    (Sender.start file memory buf).Ranges where
  counts := ⟨rfl, rfl, Nat.one_pos, show 1 ≤ maxWindowSize by decide⟩
  inside := Nat.one_pos
  quiet := rfl

end Sender

/-! ## Sending a slot again -/

/-- Only slots, the buffer and whether the program goes on may have changed. -/
def Sender.Resent (s s' : Sender) : Prop :=
  ∃ buffer buf phase, s' = { s with buffer, packetEncoded := buf, phase } ∧
    (phase = s.phase ∨ phase = .returned)

variable {crc32 : List UInt8 → UInt32} {ready : Ready} {it it' : Iteration}

namespace Sender.Resent

variable {s s' : Sender}

theorem refl (s : Sender) : s.Resent s := ⟨_, _, _, rfl, .inl rfl⟩

theorem same (h : s.Resent s') : s.SameRanges s' := by
  obtain ⟨buffer, buf, phase, rfl, -⟩ := h
  exact ⟨⟨rfl, rfl, rfl, rfl, rfl⟩, rfl, rfl⟩

theorem endFile (h : s.Resent s') : s'.endFile = s.endFile := by
  obtain ⟨buffer, buf, phase, rfl, -⟩ := h
  rfl

theorem phase (h : s.Resent s') : s'.phase = s.phase ∨ s'.phase = .returned := by
  obtain ⟨buffer, buf, phase, rfl, which⟩ := h
  exact which

end Sender.Resent

theorem encodeSlot_resent {clock : Timeval} {slot : Nat} {s : Sender} {x : Sender × Encoded 528}
    (h : encodeSlot crc32 clock slot s = .ok x) :
    ∃ buffer buf, x.1 = { s with buffer, packetEncoded := buf } := by
  obtain ⟨p, -, rest⟩ := bind_eq_ok.mp h
  obtain ⟨e, -, rest⟩ := bind_eq_ok.mp rest
  cases rest
  exact ⟨_, _, rfl⟩

theorem sendSlot_resent {clock : Timeval} {slot : Nat} (h : sendSlot crc32 clock slot it = .ok it') :
    it.sender.Resent it'.sender := by
  obtain ⟨x, encoded, rest⟩ := bind_eq_ok.mp h
  obtain ⟨buffer, buf, eq⟩ := encodeSlot_resent encoded
  split at rest <;> cases rest <;> rw [eq]
  · exact ⟨buffer, buf, .returned, rfl, .inr rfl⟩
  · exact ⟨buffer, buf, it.sender.phase, rfl, .inl rfl⟩

theorem timerPart_resent (h : timerPart crc32 ready it = .ok it') : it.sender.Resent it'.sender := by
  unfold timerPart at h
  split at h
  · obtain ⟨slot, -, sends⟩ := bind_eq_ok.mp h
    exact sendSlot_resent sends
  · cases h
    exact .refl _

theorem handleNack_resent (h : handleNack crc32 ready it = .ok it') :
    it.sender.Resent it'.sender := by
  obtain ⟨slot, -, rest⟩ := bind_eq_ok.mp h
  obtain ⟨x, encoded, rest⟩ := bind_eq_ok.mp rest
  obtain ⟨buffer, buf, eq⟩ := encodeSlot_resent encoded
  split at rest
  · cases rest
    rw [eq]
    exact ⟨buffer, buf, .returned, rfl, .inr rfl⟩
  · obtain ⟨oldest, -, rest⟩ := bind_eq_ok.mp rest
    obtain ⟨pkt, -, rest⟩ := bind_eq_ok.mp rest
    cases rest
    rw [eq]
    exact ⟨buffer, buf, it.sender.phase, rfl, .inl rfl⟩

/-! ## Reading the file -/

theorem filePart_cases (h : filePart crc32 ready it = .ok it') :
    ((it.sender.fdSet = false ∨ ready.fd = none) ∧ it' = it) ∨
      (it.sender.fdSet = true ∧ ready.fd = some none ∧
        it' = { it with sender := { it.sender with phase := .returned } }) ∨
      (it.sender.fdSet = true ∧ ready.fd = some (some []) ∧
        it' = { it with sender := { it.sender with endFile := true } }) ∨
      ∃ b bs, it.sender.fdSet = true ∧ ready.fd = some (some (b :: bs)) ∧
        sendChunk crc32 ready.sendClock ((b :: bs).take maxPayloadSize) it = .ok it' := by
  unfold filePart at h
  split at h
  · rename_i unset
    cases h
    exact .inl ⟨.inl unset, rfl⟩
  · rename_i set
    rw [Bool.not_eq_false] at set
    split at h
    · rename_i nothing
      cases h
      exact .inl ⟨.inr nothing, rfl⟩
    · rename_i fails
      cases h
      exact .inr (.inl ⟨set, fails, rfl⟩)
    · rename_i ends
      cases h
      exact .inr (.inr (.inl ⟨set, ends, rfl⟩))
    · rename_i b bs chunk
      exact .inr (.inr (.inr ⟨b, bs, set, chunk, h⟩))

theorem filePart_unread (nothing : ready.fd = none) (it : Iteration) :
    filePart crc32 ready it = .ok it := by
  simp only [filePart, nothing, ite_self]
  rfl

theorem sendChunk_cases {clock : Timeval} {chunk : List UInt8}
    (h : sendChunk crc32 clock chunk it = .ok it') :
    ∃ pktSend buffer buf,
      it' = { it with sender := { it.sender with
        bufferEmpty := true, pktSend, buffer, packetEncoded := buf, phase := .returned } } ∨
      ∃ out, it' = { it with
        sender := { it.sender with
          bufferEmpty := true, pktSend, buffer, packetEncoded := buf
          seqExp := (it.sender.seqExp + 1) % 256, seqInd := it.sender.seqInd + 1 }
        sent := true, out } := by
  obtain ⟨slot, -, rest⟩ := bind_eq_ok.mp h
  obtain ⟨e, -, rest⟩ := bind_eq_ok.mp rest
  simp only at rest
  split at rest
  · cases rest
    exact ⟨_, _, _, .inl rfl⟩
  split at rest
  · cases rest
  · cases rest
    exact ⟨_, _, _, .inr ⟨_, rfl⟩⟩

/-! ## Handling a reply -/

/-- The packet `send_data` handles in a pass: the one decoded from the datagram read, or after a
    read that gave nothing the one it had. -/
def handled (crc32 : List UInt8 → UInt32) (ready : Ready) (it : Iteration) : Option Pkt :=
  match ready.sfd with
  | none => none
  | some result =>
      let reply := result.getD []
      let length := min reply.length 528
      if length = 0 then some it.sender.pktAck
      else
        match pktDecode crc32 (it.sender.packetEncoded.fill reply) length it.sender.pktAck with
        | .ok (.pktOk, q) => some q
        | _ => none

/-- With a packet in `pkt_ack` and the buffer it was decoded from. -/
def Sender.withReply (s : Sender) (p : Pkt) (buf : Buf 528) : Sender :=
  { s with pktAck := p, packetEncoded := buf }

/-- With no packet to handle only `pkt_ack` and the buffer may change; a packet is handled once it
    is in `pkt_ack`. -/
theorem replyPart_cases (h : replyPart crc32 ready it = .ok it') :
    (handled crc32 ready it = none ∧ ∃ q buf,
        it' = { it with sender := it.sender.withReply q buf }) ∨
      ∃ p buf, handled crc32 ready it = some p ∧
        handleReply crc32 ready { it with sender := it.sender.withReply p buf } = .ok it' := by
  cases there : ready.sfd with
  | none =>
      simp only [replyPart, handled, there] at h ⊢
      cases h
      exact .inl ⟨trivial, _, _, rfl⟩
  | some result =>
      simp only [replyPart, handled, there] at h ⊢
      split at h
      · rename_i empty
        rw [if_pos empty]
        exact .inr ⟨_, _, rfl, h⟩
      · rename_i nonempty
        rw [if_neg nonempty]
        obtain ⟨⟨status, q⟩, decoded, rest⟩ := bind_eq_ok.mp h
        rw [decoded]
        split at rest
        · rename_i refused
          cases rest
          refine .inl ⟨?_, _, _, rfl⟩
          cases status <;> first | rfl | exact (refused rfl).elim
        · rename_i accepted
          rw [not_not] at accepted
          cases accepted
          exact .inr ⟨_, _, rfl, rest⟩

/-- Every reply may widen the window. -/
def Sender.widened (s : Sender) : Sender :=
  let window := if pktGetWindow s.pktAck > s.window then pktGetWindow s.pktAck else s.window
  { s with window, pktSend := (pktSetWindow s.pktSend (UInt8.ofNat window)).2 }

/-- How far the number of a packet is ahead of `small_seq`, modulo 256. -/
def Sender.ahead (s : Sender) (p : Pkt) : Nat := ((pktGetSeqnum p).toNat + 256 - s.smallSeq) % 256

/-- What an ACK does: the window moves up to its number. -/
def Sender.acknowledged (s : Sender) : Sender :=
  let smallInd := (s.smallInd + s.ahead s.pktAck) % s.window
  { s with
    smallSeq := (pktGetSeqnum s.pktAck).toNat, smallInd, steps := s.steps + s.ahead s.pktAck
    lastAck := some (pktGetSeqnum s.pktAck).toNat
    bufferEmpty := if s.endFile = true ∧ smallInd = s.seqExp then false else s.bufferEmpty }

theorem handleReply_eq (crc32 : List UInt8 → UInt32) (ready : Ready) (it : Iteration) :
    handleReply crc32 ready it =
      let it₁ := { it with sender := it.sender.widened, ackReceived := true }
      if pktGetType it.sender.pktAck = ptypeAck then handleAck crc32 ready it₁
      else if pktGetType it.sender.pktAck = ptypeNack then handleNack crc32 ready it₁
      else .ok it₁ := rfl

theorem handleAck_eq (ranges : it.sender.Ranges) (running : it.sender.phase ≠ .returned) :
    handleAck crc32 ready it = .ok { it with sender := it.sender.acknowledged } := by
  have moved : adaptBuffer it.sender.smallSeq (pktGetSeqnum it.sender.pktAck).toNat
      it.sender.smallInd it.sender.window =
        .ok ((pktGetSeqnum it.sender.pktAck).toNat,
          (it.sender.smallInd + it.sender.ahead it.sender.pktAck) % it.sender.window,
          it.sender.ahead it.sender.pktAck) := by
    apply adaptBuffer_spec
    · rw [ranges.counts.smallSeq]
      exact Nat.mod_lt _ (by decide)
    · exact (pktGetSeqnum it.sender.pktAck).toNat_lt
    · exact ranges.inside
  simp only [handleAck, moved, ok_bind, failPart, ranges.quiet, Nat.zero_ne_one, if_false, pure_eq_ok,
    running, Sender.acknowledged]
  split <;> simp only

namespace Sender

variable {s : Sender}

theorem widened_window (s : Sender) :
    s.widened.window = max s.window (pktGetWindow s.pktAck) := by
  unfold widened
  grind

theorem pktGetWindow_le (pkt : Pkt) : pktGetWindow pkt ≤ maxWindowSize :=
  Nat.le_of_lt_succ pkt.window.isLt

theorem Ranges.withReply (h : s.Ranges) (p : Pkt) (buf : Buf 528) : (s.withReply p buf).Ranges :=
  h.congr ⟨⟨rfl, rfl, rfl, rfl, rfl⟩, rfl, rfl⟩

theorem Ranges.widened (h : s.Ranges) : s.widened.Ranges := by
  have advertised := pktGetWindow_le s.pktAck
  obtain ⟨⟨seqExp, smallSeq, positive, fits⟩, inside, quiet⟩ := h
  refine ⟨⟨seqExp, smallSeq, ?_, ?_⟩, ?_, quiet⟩
  · rw [widened_window]
    omega
  · rw [widened_window]
    omega
  · rw [widened_window]
    exact inside.trans_le (Nat.le_max_left _ _)

theorem Ranges.acknowledged (h : s.Ranges) : s.acknowledged.Ranges := by
  obtain ⟨⟨seqExp, smallSeq, positive, fits⟩, -, quiet⟩ := h
  have byte := (pktGetSeqnum s.pktAck).toNat_lt
  refine ⟨⟨seqExp, ?_, positive, fits⟩, Nat.mod_lt _ positive, quiet⟩
  simp only [Sender.acknowledged, Sender.ahead, smallSeq]
  omega

end Sender

theorem handleReply_ack (ranges : it.sender.Ranges) (running : it.sender.phase ≠ .returned)
    (ack : pktGetType it.sender.pktAck = ptypeAck) :
    handleReply crc32 ready it =
      .ok { it with sender := it.sender.widened.acknowledged, ackReceived := true } := by
  rw [handleReply_eq]
  simp only [ack, if_true]
  exact @handleAck_eq crc32 ready { it with sender := it.sender.widened, ackReceived := true }
    ranges.widened running

theorem handleReply_cases (ranges : it.sender.Ranges) (running : it.sender.phase ≠ .returned)
    (h : handleReply crc32 ready it = .ok it') :
    (pktGetType it.sender.pktAck = ptypeAck ∧
        it' = { it with sender := it.sender.widened.acknowledged, ackReceived := true }) ∨
      (pktGetType it.sender.pktAck ≠ ptypeAck ∧
        (handleNack crc32 ready { it with sender := it.sender.widened, ackReceived := true } =
            .ok it' ∨
          it' = { it with sender := it.sender.widened, ackReceived := true })) := by
  by_cases ack : pktGetType it.sender.pktAck = ptypeAck
  · rw [handleReply_ack ranges running ack] at h
    cases h
    exact .inl ⟨ack, rfl⟩
  · rw [handleReply_eq] at h
    simp only [ack, if_false] at h
    split at h
    · exact .inr ⟨ack, .inl h⟩
    · cases h
      exact .inr ⟨ack, .inr rfl⟩

theorem replyPart_handled {p : Pkt} (some : handled crc32 ready it = some p) :
    ∃ buf, replyPart crc32 ready it =
      handleReply crc32 ready { it with sender := it.sender.withReply p buf } := by
  cases there : ready.sfd with
  | none =>
      simp only [handled, there] at some
      cases some
  | some result =>
      simp only [replyPart, handled, there] at some ⊢
      split at some
      · rename_i empty
        cases some
        rw [if_pos empty]
        exact ⟨_, rfl⟩
      · rename_i nonempty
        rw [if_neg nonempty]
        split at some
        · rename_i q decoded
          cases some
          rw [decoded]
          exact ⟨_, rfl⟩
        · cases some

theorem replyPart_ack (ranges : it.sender.Ranges) (running : it.sender.phase ≠ .returned) {p : Pkt}
    (some : handled crc32 ready it = some p) (ack : pktGetType p = ptypeAck) :
    ∃ buf, replyPart crc32 ready it =
      .ok { it with
        sender := (it.sender.withReply p buf).widened.acknowledged, ackReceived := true } := by
  obtain ⟨buf, replied⟩ := replyPart_handled some
  have handles := @handleReply_ack crc32 ready { it with sender := it.sender.withReply p buf }
    (ranges.withReply p buf) running ack
  exact ⟨buf, replied.trans handles⟩

theorem replyPart_moves (ranges : it.sender.Ranges) (running : it.sender.phase ≠ .returned)
    (h : replyPart crc32 ready it = .ok it') :
    (handled crc32 ready it = none ∧ ∃ q buf,
        it' = { it with sender := it.sender.withReply q buf }) ∨
      ∃ p buf, handled crc32 ready it = some p ∧
        ((pktGetType p = ptypeAck ∧
            it' = { it with
              sender := (it.sender.withReply p buf).widened.acknowledged
              ackReceived := true }) ∨
          (pktGetType p ≠ ptypeAck ∧
            (it.sender.withReply p buf).widened.Resent it'.sender)) := by
  rcases replyPart_cases h with none | ⟨p, buf, some, replied⟩
  · exact .inl none
  refine .inr ⟨p, buf, some, ?_⟩
  rcases @handleReply_cases crc32 ready { it with sender := it.sender.withReply p buf } it'
    (ranges.withReply p buf) running replied with acked | ⟨other, nack | rfl⟩
  · exact .inl acked
  · exact .inr ⟨other, handleNack_resent nack⟩
  · exact .inr ⟨other, .refl _⟩

/-- No reply moves the window back or makes it smaller. -/
structure Sender.Advances (s s' : Sender) : Prop where
  seqInd : s'.seqInd = s.seqInd
  steps : s.steps ≤ s'.steps
  window : s.window ≤ s'.window
  endFile : s'.endFile = s.endFile
  phase : s'.phase = s.phase ∨ s'.phase = .returned

theorem Sender.Resent.advances {s s' : Sender} (h : s.Resent s') : s.Advances s' := by
  obtain ⟨buffer, buf, phase, rfl, which⟩ := h
  exact ⟨rfl, Nat.le_refl _, Nat.le_refl _, rfl, which⟩

theorem Sender.widened_advances (s : Sender) : s.Advances s.widened where
  seqInd := rfl
  steps := Nat.le_refl _
  window := by
    rw [Sender.widened_window]
    exact Nat.le_max_left _ _
  endFile := rfl
  phase := .inl rfl

theorem replyPart_ranges (ranges : it.sender.Ranges) (running : it.sender.phase ≠ .returned)
    (h : replyPart crc32 ready it = .ok it') :
    it'.sender.Ranges ∧ it.sender.Advances it'.sender := by
  rcases replyPart_moves ranges running h with ⟨-, q, buf, rfl⟩ | ⟨p, buf, -, ⟨-, rfl⟩ | ⟨-, resent⟩⟩
  · exact ⟨ranges.withReply q buf, ⟨rfl, Nat.le_refl _, Nat.le_refl _, rfl, .inl rfl⟩⟩
  all_goals
    have kept := ranges.withReply p buf
    have wide := Sender.widened_advances (it.sender.withReply p buf)
  · exact ⟨kept.widened.acknowledged, ⟨rfl, Nat.le_add_right _ _, wide.window, rfl, .inl rfl⟩⟩
  · have sent := resent.advances
    exact ⟨kept.widened.congr resent.same, ⟨sent.seqInd, sent.steps, wide.window.trans sent.window,
      sent.endFile, sent.phase⟩⟩

theorem filePart_ranges (ranges : it.sender.Ranges) (h : filePart crc32 ready it = .ok it') :
    it'.sender.Ranges := by
  rcases filePart_cases h with ⟨-, rfl⟩ | ⟨-, -, rfl⟩ | ⟨-, -, rfl⟩ | ⟨b, bs, -, -, sends⟩
  · exact ranges
  · exact ranges.congr ⟨⟨rfl, rfl, rfl, rfl, rfl⟩, rfl, rfl⟩
  · exact ranges.congr ⟨⟨rfl, rfl, rfl, rfl, rfl⟩, rfl, rfl⟩
  · obtain ⟨pktSend, buffer, buf, rfl | ⟨out, rfl⟩⟩ := sendChunk_cases sends
    · exact ranges.congr ⟨⟨rfl, rfl, rfl, rfl, rfl⟩, rfl, rfl⟩
    · obtain ⟨⟨seqExp, smallSeq, positive, fits⟩, inside, quiet⟩ := ranges
      refine ⟨⟨?_, smallSeq, positive, fits⟩, inside, quiet⟩
      simp only [seqExp]
      omega

theorem Sender.Ranges.read {s : Sender} (h : s.Ranges)
    (read : filePart crc32 ready s.begin = .ok it) : it.sender.Ranges :=
  @filePart_ranges crc32 ready s.begin it h read

/-! ## A pass and a run -/

/-- The parts of a pass: it stops after the file or after the reply, or goes through. -/
theorem Sender.pass_parts {s s' : Sender} {out : List (List UInt8)} (main : s.phase = .main)
    (h : s.pass crc32 ready = .ok (s', out)) :
    (s.stays = true ∧ ∃ it, filePart crc32 ready s.begin = .ok it ∧
        ((it.sender.phase = .returned ∧ s' = it.sender) ∨
          (it.sender.phase ≠ .returned ∧ ∃ it₁, replyPart crc32 ready it = .ok it₁ ∧
            ((it₁.sender.phase = .returned ∧ s' = it₁.sender) ∨
              (it₁.sender.phase ≠ .returned ∧ ∃ it₂, timerPart crc32 ready it₁ = .ok it₂ ∧
                s' = it₂.sender))))) ∨
      (s.stays = false ∧ s.buildEnd crc32 ready = .ok s') := by
  simp only [Sender.pass, main] at h
  split at h
  · rename_i stays
    obtain ⟨it', passed, rest⟩ := bind_eq_ok.mp h
    cases rest
    obtain ⟨it, read, rest⟩ := bind_eq_ok.mp passed
    refine .inl ⟨stays, it, read, ?_⟩
    split at rest
    · rename_i gone
      cases rest
      exact .inl ⟨gone, rfl⟩
    · rename_i running
      obtain ⟨it₁, replied, rest⟩ := bind_eq_ok.mp rest
      refine .inr ⟨running, it₁, replied, ?_⟩
      split at rest
      · rename_i gone
        cases rest
        exact .inl ⟨gone, rfl⟩
      · rename_i running₁
        exact .inr ⟨running₁, it', rest, rfl⟩
  · rename_i leaves
    obtain ⟨t, built, rest⟩ := bind_eq_ok.mp h
    cases rest
    exact .inr ⟨(Bool.not_eq_true _).mp leaves, built⟩

theorem Sender.buildEnd_cases {s s' : Sender} (h : s.buildEnd crc32 ready = .ok s') :
    ∃ pktSend buf phase tmp, s' = { s with pktSend, packetEncoded := buf, phase, tmp } ∧
      phase ≠ .main := by
  obtain ⟨e, -, rest⟩ := bind_eq_ok.mp h
  simp only at rest
  split at rest
  · cases rest
    exact ⟨_, _, .returned, _, rfl, fun same => by cases same⟩
  · cases rest
    exact ⟨_, _, .closing, _, rfl, fun same => by cases same⟩

/-- A pass that only handles a reply: the file is not ready, and the timer only works for one given
    by name. -/
theorem Sender.pass_replied {s : Sender} (main : s.phase = .main) (stays : s.stays = true)
    (nothing : ready.fd = none) (replied : replyPart crc32 ready s.begin = .ok it)
    (running : it.sender.phase ≠ .returned) (file : it.sender.file = false) :
    s.pass crc32 ready = .ok (it.sender, it.out) := by
  have read : filePart crc32 ready
      { sender := s, sent := false, ackReceived := false, out := [] } = .ok s.begin :=
    filePart_unread nothing _
  have begun : s.begin.sender.phase ≠ .returned := by simp [Sender.begin, main]
  simp only [Sender.pass, main, stays, if_true, Sender.mainPass, read, ok_bind, begun, if_false,
    replied, running, timerPart, file, Bool.false_eq_true, and_false, pure_eq_ok]

theorem Sender.pass_ranges {s s' : Sender} {out : List (List UInt8)} (main : s.phase = .main)
    (ranges : s.Ranges) (h : s.pass crc32 ready = .ok (s', out)) : s'.Ranges := by
  rcases s.pass_parts main h with ⟨-, it, read, rest⟩ | ⟨-, built⟩
  · have ranges := ranges.read read
    rcases rest with ⟨-, rfl⟩ | ⟨running, it₁, replied, rest⟩
    · exact ranges
    have ranges := (replyPart_ranges ranges running replied).1
    rcases rest with ⟨-, rfl⟩ | ⟨-, it₂, timed, rfl⟩
    · exact ranges
    · exact ranges.congr (timerPart_resent timed).same
  · obtain ⟨pktSend, buf, phase, tmp, rfl, -⟩ := Sender.buildEnd_cases built
    exact ranges.congr ⟨⟨rfl, rfl, rfl, rfl, rfl⟩, rfl, rfl⟩

theorem Sender.Ranges.of_reachable {s : Sender} (reach : (senderLoop crc32).Reachable s) :
    s.Ranges := by
  apply reach.induct
  · rintro _ ⟨file, memory, buf, rfl⟩
    exact .start file memory buf
  · rintro s ready s' ranges ⟨main, out, passed⟩
    exact s.pass_ranges main ranges passed

end SegmentTransfer
