import SegmentTransfer.Library.Ring
import SegmentTransfer.SendWindow

/-! # The slot of the oldest segment

`send_data` alone, with replies that are ACKs in order and all advertise one
window. The window is one until the first of them and stays what it is then;
segments go to the slots of a ring of that size, so the slot at `small_ind`
holds the oldest segment not acknowledged, or one that was read after it. A read
that gives nothing has `pkt_ack` handled again, so there it must not hold what a
refused datagram left. The timer sends what the slot holds, also when nothing is
outstanding.
-/

namespace SegmentTransfer

open Bytes Outcome

namespace Protocol

namespace Sender

/-- With `w` advertised by every ACK. -/
structure Ringed (w : Nat) (a : Sender) : Prop where
  window : (a.lastAck = none ∧ a.window = 1 ∧ a.acked = 0 ∧ a.sent ≤ 1 ∧
    (a.sent = 1 → a.bufferEmpty = true)) ∨ (a.lastAck ≠ none ∧ a.window = max 1 w)
  smallInd : a.smallInd = a.acked % a.window
  acked : a.acked ≤ a.sent
  slots : Ring.Recent a.slots id a.window a.sent

namespace Ringed

variable {w : Nat} {a : Sender}

theorem start (w : Nat) (file : Bool) : Ringed w (.start file) where
  window := .inl ⟨rfl, rfl, rfl, Nat.zero_le _, fun one => by cases one⟩
  smallInd := rfl
  acked := Nat.le_refl _
  slots := .none _ _ _

theorem positive (h : a.Ringed w) : 0 < a.window := by
  rcases h.window with ⟨-, window, -⟩ | ⟨-, window⟩ <;> omega

theorem first_read (h : a.Ringed w) (set : a.fdSet = true) : a.lastAck ≠ none ∨ a.sent = 0 := by
  rcases h.window with ⟨-, window, acked, few, started⟩ | ⟨some, -⟩
  · right
    by_contra nonzero
    have one : a.sent = 1 := by omega
    simp [fdSet, isNotFull, started one, one, acked, window] at set
  · exact .inl some

theorem read (h : a.Ringed w) (set : a.fdSet = true) :
    Ringed w { a with
      bufferEmpty := true, slots := Function.update a.slots (a.sent % a.window) (some a.sent)
      sent := a.sent + 1 } where
  window := by
    rcases h.window with ⟨none, window, acked, -⟩ | later
    · have zero := (h.first_read set).resolve_left (fun some => some none)
      exact .inl ⟨none, window, acked, Nat.le_of_eq (congrArg (· + 1) zero), fun _ => rfl⟩
    · exact .inr later
  smallInd := h.smallInd
  acked := Nat.le_succ_of_le h.acked
  slots := h.slots.push

end Ringed

end Sender

/-- An ACK for segments sent moves the window to its number. -/
theorem handleAck_ringed {w k : Nat} {it : Iteration} (h : it.sender.Ringed w)
    (low : it.sender.acked ≤ k) (high : k ≤ it.sender.sent) (near : k < it.sender.acked + 256) :
    (handleAck k w it).sender.Ringed w ∧ (handleAck k w it).sender.acked = k := by
  have moved : it.sender.acked + advance it.sender.acked k = k := by
    unfold advance
    omega
  have wide : (if w > it.sender.window then w else it.sender.window) = max 1 w := by
    rcases h.window with ⟨-, window, -⟩ | ⟨-, window⟩ <;> rw [window] <;> split <;> omega
  have slots : Ring.Recent it.sender.slots id (max 1 w) it.sender.sent := by
    rcases h.window with ⟨-, window, -, few, -⟩ | ⟨-, window⟩
    · have first := h.slots
      rw [window] at first
      exact first.resize few _
    · rw [← window]
      exact h.slots
  have place : (it.sender.smallInd + advance it.sender.acked k) % max 1 w = k % max 1 w := by
    rw [h.smallInd]
    rcases h.window with ⟨-, window, zero, -⟩ | ⟨-, window⟩
    · rw [zero, Nat.zero_mod, Nat.zero_add]
      rw [zero, Nat.zero_add] at moved
      rw [moved]
    · rw [window, Nat.mod_add_mod, moved]
  refine ⟨?_, moved⟩
  simp only [handleAck, wide, place, moved]
  exact
    { window := .inr ⟨Option.some_ne_none k, rfl⟩
      smallInd := rfl
      acked := high
      slots := slots }

end Protocol

/-! ## The programs -/

/-- The packet is an ACK that advertises `w` and acknowledges segments sent. -/
def Sender.AckInOrder (s : Sender) (w : Nat) (p : Pkt) : Prop :=
  pktGetType p = ptypeAck ∧ pktGetWindow p = w ∧
    ∃ a, s.steps ≤ a ∧ a ≤ s.seqInd ∧ (pktGetSeqnum p).toNat = a % 256

/-- Every reply handled is such an ACK, or a read gave nothing and `pkt_ack` is the copy of `pkt_send`
    made at the start. -/
def Sender.RepliesInOrder (crc32 : List UInt8 → UInt32) (w : Nat) (s : Sender) (ready : Ready) :
    Prop :=
  ∀ it p, filePart crc32 ready s.begin = .ok it → handled crc32 ready it = some p →
    it.sender.AckInOrder w p ∨ (pktGetType p = ptypeData ∧ pktGetWindow p = 1)

/-- Chunk `n` is what the read for segment `n` gives. -/
def Sender.ReadsChunks (chunk : Nat → List UInt8) (s : Sender) (ready : Ready) : Prop :=
  s.fdSet = true → ∀ b bs, ready.fd = some (some (b :: bs)) →
    (b :: bs).take maxPayloadSize = chunk s.seqInd

/-- The sender shows one whose slots are a ring. -/
def Sender.Ringed (crc32 : List UInt8 → UInt32) (chunk : Nat → List UInt8) (w : Nat) (s : Sender) :
    Prop :=
  ∃ a, s.Shows crc32 chunk a ∧ a.Ringed w

/-- The sender during a pass of the main loop. -/
def Iteration.Ringed (crc32 : List UInt8 → UInt32) (chunk : Nat → List UInt8) (w : Nat)
    (it : Iteration) : Prop :=
  ∃ a, it.Shows crc32 chunk a ∧ a.sender.Ringed w

variable {crc32 : List UInt8 → UInt32} {chunk : Nat → List UInt8} {w : Nat} {ready : Ready}
  {it it' : Iteration}

theorem Iteration.Ringed.returned (h : it.Ringed crc32 chunk w) :
    Sender.Ringed crc32 chunk w { it.sender with phase := .returned } := by
  obtain ⟨a, shown, ringed⟩ := h
  refine ⟨{ a.sender with phase := .returned }, ?_, ?_⟩
  · exact { shown.sender with phase := rfl, ending := fun closing => by cases closing }
  · exact { ringed with }

theorem filePart_ringed (h : it.Ringed crc32 chunk w) (chunks : it.sender.ReadsChunks chunk ready)
    (read : filePart crc32 ready it = .ok it') :
    it'.Ringed crc32 chunk w ∨
      (it'.sender.phase = .returned ∧ it'.sender.Ringed crc32 chunk w) := by
  rcases filePart_cases read with ⟨-, rfl⟩ | ⟨-, -, rfl⟩ | ⟨-, -, rfl⟩ | ⟨b, bs, set, some, sends⟩
  · exact .inl h
  · exact .inr ⟨rfl, h.returned⟩
  · obtain ⟨a, shown, ringed⟩ := h
    refine .inl ⟨{ a with sender := { a.sender with endFile := true } }, ?_, ?_⟩
    · exact { shown with sender := { shown.sender with endFile := rfl } }
    · exact { ringed with }
  · obtain ⟨a, shown, ringed⟩ := h
    have here : (b :: bs).take maxPayloadSize = chunk a.sender.sent := by
      rw [chunks set b bs some, shown.sender.seqInd]
    have nonempty : chunk a.sender.sent ≠ [] := by
      rw [← here]
      exact List.cons_ne_nil _ _
    have small : (chunk a.sender.sent).length ≤ maxPayloadSize := by
      rw [← here]
      exact List.length_take_le _ _
    rw [here] at sends
    obtain ⟨a', sent, shown'⟩ :=
      (shown.sendChunk nonempty small ready.sendClock).of_ok_left sends
    obtain ⟨-, rfl⟩ := Protocol.sendChunk_ok sent
    exact .inl ⟨_, shown', ringed.read (shown.sender.fdSet ▸ set)⟩

theorem Iteration.Shows.withReply {a : Protocol.Iteration} (h : it.Shows crc32 chunk a) (p : Pkt)
    (buf : Bytes.Buf 528) :
    Iteration.Shows crc32 chunk { it with sender := it.sender.withReply p buf } a :=
  { h with sender := { h.sender with ending := fun closing => by simp [h.main] at closing } }

theorem Iteration.Shows.other {a : Protocol.Iteration} (h : it.Shows crc32 chunk a)
    (type : pktGetType it.sender.pktAck = ptypeData)
    (narrow : pktGetWindow it.sender.pktAck ≤ it.sender.window)
    (replied : handleReply crc32 ready it = .ok it') :
    it'.Shows crc32 chunk { a with ackReceived := true } := by
  rw [handleReply_eq] at replied
  simp only [type, show ptypeData ≠ ptypeAck by decide, show ptypeData ≠ ptypeNack by decide,
    if_false] at replied
  cases replied
  have shown := h.sender
  have window : it.sender.widened.window = a.sender.window := by
    rw [Sender.widened_window, Nat.max_eq_left narrow, shown.window]
  obtain ⟨tr, kept⟩ := pktSetWindow_keeps it.sender.pktSend
    (UInt8.ofNat it.sender.widened.window)
  exact
    { h with
      ackReceived := rfl
      sender :=
        { shown with
          window := window
          sendTr := tr.trans shown.sendTr
          sendType := kept.trans shown.sendType
          ending := fun closing => by simp [h.main] at closing } }

/-- A reply that is handled is in order; otherwise only `pkt_ack` and the buffer change. -/
theorem replyPart_ringed (h : it.Ringed crc32 chunk w)
    (replies : ∀ p, handled crc32 ready it = some p →
      it.sender.AckInOrder w p ∨ (pktGetType p = ptypeData ∧ pktGetWindow p = 1))
    (replied : replyPart crc32 ready it = .ok it') :
    it'.Ringed crc32 chunk w ∧
      (it'.ackReceived = true ∨ ∃ q buf, it' = { it with sender := it.sender.withReply q buf }) := by
  obtain ⟨a, shown, ringed⟩ := h
  rcases replyPart_cases replied with ⟨-, q, buf, rfl⟩ | ⟨p, buf, some, handles⟩
  · exact ⟨⟨a, shown.withReply q buf, ringed⟩, .inr ⟨q, buf, rfl⟩⟩
  have read := shown.withReply p buf
  rcases replies p some with ⟨ack, window, k, low, high, number⟩ | ⟨data, one⟩
  · -- the number is that of the first segment, from the oldest on, that it can mean
    rw [shown.sender.steps] at low
    rw [shown.sender.seqInd] at high
    let first := a.sender.acked + (k + 256 - a.sender.acked % 256) % 256
    have seqnum : pktGetSeqnum p = UInt8.ofNat first := by
      apply UInt8.toNat_inj.mp
      rw [number, UInt8.toNat_ofNat']
      omega
    obtain ⟨a', same, shown'⟩ := (read.handleAck ready ack seqnum window).of_ok_left handles
    cases same
    have moved := (Protocol.handleAck_ringed ringed (show a.sender.acked ≤ first by omega)
      (show first ≤ a.sender.sent by omega) (by omega)).1
    exact ⟨⟨_, shown', moved⟩, .inl shown'.ackReceived⟩
  · have positive := ringed.positive
    have narrow : pktGetWindow p ≤ it.sender.window := by
      rw [one, shown.sender.window]
      exact positive
    have shown' := read.other data narrow handles
    exact ⟨⟨_, shown', ringed⟩, .inl shown'.ackReceived⟩

theorem timerPart_ringed (h : it.Ringed crc32 chunk w) (timed : timerPart crc32 ready it = .ok it') :
    it'.Ringed crc32 chunk w := by
  obtain ⟨a, shown, ringed⟩ := h
  obtain ⟨a', same, shown'⟩ := (shown.timerPart ready).of_ok_left timed
  rcases Protocol.timerPart_cases same with rfl | ⟨slot, n, -, rfl⟩
  · exact ⟨_, shown', ringed⟩
  · exact ⟨_, shown', ringed⟩

namespace Sender

variable {s s' : Sender}

theorem Ringed.start (crc32 : List UInt8 → UInt32) (chunk : Nat → List UInt8) (w : Nat) (file : Bool)
    (memory : Pkt) (buf : Bytes.Buf 528) : (Sender.start file memory buf).Ringed crc32 chunk w :=
  ⟨.start file, .start crc32 chunk file memory buf, .start w file⟩

theorem Ringed.begin (h : s.Ringed crc32 chunk w) (main : s.phase = .main) :
    s.begin.Ringed crc32 chunk w := by
  obtain ⟨a, shown, ringed⟩ := h
  refine ⟨a.begin, ?_, ringed⟩
  exact
    { sender := shown, main := shown.phase.symm.trans main, sent := rfl, ackReceived := rfl
      out := .nil }

theorem Ringed.pass {out : List (List UInt8)} (h : s.Ringed crc32 chunk w) (main : s.phase = .main)
    (chunks : s.ReadsChunks chunk ready) (replies : s.RepliesInOrder crc32 w ready)
    (passed : s.pass crc32 ready = .ok (s', out)) : s'.Ringed crc32 chunk w := by
  rcases s.pass_parts main passed with ⟨-, it, read, rest⟩ | ⟨-, built⟩
  · have reads := filePart_ringed (h.begin main) chunks read
    rcases rest with ⟨gone, rfl⟩ | ⟨running, it₁, replied, rest⟩
    · rcases reads with ⟨a, shown, ringed⟩ | ⟨-, returned⟩
      · exact ⟨a.sender, shown.sender, ringed⟩
      · exact returned
    have ringed := reads.resolve_right fun returned => running returned.1
    obtain ⟨ringed, -⟩ := replyPart_ringed ringed (fun p => replies it p read) replied
    rcases rest with ⟨-, rfl⟩ | ⟨-, it₂, timed, rfl⟩
    · obtain ⟨a, shown, ringed⟩ := ringed
      exact ⟨a.sender, shown.sender, ringed⟩
    · obtain ⟨a, shown, ringed⟩ := timerPart_ringed ringed timed
      exact ⟨a.sender, shown.sender, ringed⟩
  · obtain ⟨a, shown, ringed⟩ := h
    obtain ⟨a', same, shown'⟩ := (shown.buildEnd ready).of_ok_left built
    cases same
    exact ⟨_, shown', { ringed with }⟩

/-- The conditions of a run with replies in order. -/
def InOrder (crc32 : List UInt8 → UInt32) (chunk : Nat → List UInt8) (w : Nat) (s : Sender)
    (ready : Ready) : Prop :=
  s.ReadsChunks chunk ready ∧ s.RepliesInOrder crc32 w ready

theorem Ringed.of_reachable
    (reach : ((senderLoop crc32).restrict (InOrder crc32 chunk w)).Reachable s) :
    s.Ringed crc32 chunk w := by
  apply reach.induct
  · rintro _ ⟨file, memory, buf, rfl⟩
    exact .start crc32 chunk w file memory buf
  · rintro s ready s' ringed ⟨⟨main, out, passed⟩, chunks, replies⟩
    exact ringed.pass main chunks replies passed

end Sender

/-- The packet of segment `n`. -/
def IsSegment (chunk : Nat → List UInt8) (n : Nat) (p : Pkt) : Prop :=
  (pktGetSeqnum p).toNat = n % 256 ∧ pktGetPayload p = .block (chunk n) ∧
    (pktGetLength p).toNat = (chunk n).length

theorem Sender.Shows.slot {s : Sender} {a : Protocol.Sender} (h : s.Shows crc32 chunk a) {i n : Nat}
    (held : a.slots i = some n) : ∃ p, s.buffer i = some p ∧ IsSegment chunk n p := by
  have here := h.buffer i
  rw [held] at here
  cases content : s.buffer i with
  | none =>
      rw [content] at here
      exact here.elim
  | some p =>
      rw [content] at here
      obtain ⟨carries, nonempty, small⟩ := here
      refine ⟨p, rfl, ?_, ?_, carries.getLength_toNat small⟩
      · rw [pktGetSeqnum, carries.seqnum]
        exact UInt8.toNat_ofNat' ..
      · rw [carries.getPayload small, if_neg nonempty]

/-- When every reply is an ACK in order and all advertise `w`, the window is one until the first of
    them and then `w`, and the slot of the oldest segment holds it while no more than `window`
    segments are outstanding. -/
theorem oldest_segment {s : Sender}
    (reach : ((senderLoop crc32).restrict (Sender.InOrder crc32 chunk w)).Reachable s) :
    s.window = (if s.lastAck = none then 1 else max 1 w) ∧ s.smallSeq = s.steps % 256 ∧
      s.smallInd = s.steps % s.window ∧
      (s.steps < s.seqInd → s.seqInd ≤ s.steps + s.window →
        ∃ p, s.buffer (s.smallInd % s.window) = some p ∧ IsSegment chunk s.steps p) := by
  obtain ⟨a, shown, ringed⟩ := Sender.Ringed.of_reachable reach
  have place : s.smallInd = s.steps % s.window := by
    rw [shown.smallInd, shown.steps, shown.window, ringed.smallInd]
  refine ⟨?_, ?_, place, ?_⟩
  · rw [shown.window, shown.lastAck]
    rcases ringed.window with ⟨none, window, -⟩ | ⟨some, window⟩
    · rw [none, window]
      rfl
    · rw [window]
      cases last : a.lastAck with
      | none => exact (some last).elim
      | some k => rfl
  · rw [shown.smallSeq, shown.steps]
  · intro outstanding close
    rw [shown.steps, shown.seqInd] at outstanding
    rw [shown.steps, shown.seqInd, shown.window] at close
    have held := ringed.slots a.acked outstanding close
    rw [place, Nat.mod_mod, shown.steps, shown.window]
    exact shown.slot held

theorem Sender.inOrder_admits (chunks : ∀ n, chunk n ≠ [] ∧ (chunk n).length ≤ maxPayloadSize) :
    Admits crc32 (Sender.InOrder crc32 chunk receiverWindow) chunk where
  chunks := by
    intro s a total shown acked room more
    refine ⟨?_, fun it p read nothing => by cases nothing⟩
    intro _ b bs some
    simp only [Ready.still, fileRead, if_true, more, if_false, Option.some.injEq] at some
    rw [← some, shown.seqInd]
    exact List.take_of_length_le (chunks a.sent).2
  acks := by
    intro s a k d shown low high framed
    refine ⟨fun _ b bs nothing => (by cases nothing), ?_⟩
    intro it p read decoded
    rw [filePart_unread rfl] at read
    cases read
    let ready : Ready := .still none (some (some d))
    obtain ⟨q, decoded', ack, advertised, seqnum⟩ :=
      handled_frame framed (show ready.sfd = _ from rfl) s.begin
    rw [decoded'] at decoded
    cases decoded
    refine .inl ⟨ack, advertised, k, ?_, ?_, ?_⟩
    · exact Nat.le_trans (Nat.le_of_eq shown.steps) low
    · exact Nat.le_trans high (Nat.le_of_eq shown.seqInd.symm)
    · rw [seqnum]
      exact UInt8.toNat_ofNat' ..

/-- Three ACKs have come, and segment 3 is outstanding in slot 0 of a window of three. -/
theorem oldest_segment_sample :
    ∃ (s : Sender) (p : Pkt), s.seqInd = 4 ∧ s.steps = 3 ∧ s.window = 3 ∧ s.smallInd = 0 ∧
      s.buffer (s.smallInd % s.window) = some p ∧ IsSegment seven 3 p := by
  obtain ⟨slots, ⟨s, reach, shown⟩, -⟩ :=
    Leads.onward (@Sender.inOrder_admits Crc.crc32 _ sevens) sevens (show 0 < 3 by decide) (by decide)
  obtain ⟨-, -, -, held⟩ := oldest_segment reach
  have steps : s.steps = 3 := shown.steps
  have seqInd : s.seqInd = 4 := shown.seqInd
  have window : s.window = 3 := shown.window
  obtain ⟨p, here, segment⟩ := held (by omega) (by omega)
  rw [steps] at segment
  exact ⟨s, p, seqInd, steps, window, shown.smallInd, here, segment⟩

end SegmentTransfer
