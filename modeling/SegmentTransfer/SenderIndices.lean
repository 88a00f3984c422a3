import SegmentTransfer.SendWindow

/-! # The indices of the sender

`send_data` takes remainders by `window` and looks up slots at `seq_ind % window`
and `small_ind % window`. The window only ever takes values of a 5-bit field above
the first, so a remainder by it is defined and below 31. Only the index computed
for a NACK is not such a remainder.
-/

namespace SegmentTransfer

open Bytes Outcome

/-- A remainder by zero, an index outside `buffer`, or a loop that goes on. -/
def Fault.OfIndex (fault : Fault) : Prop :=
  fault = .divisionByZero ∨ fault = .slotIndex ∨ fault = .loopSpent

instance (fault : Fault) : Decidable fault.OfIndex :=
  inferInstanceAs (Decidable (fault = .divisionByZero ∨ fault = .slotIndex ∨ fault = .loopSpent))

variable {crc32 : List UInt8 → UInt32} {ready : Ready} {it : Iteration}

/-! ## Where nothing is indexed -/

theorem pktEncode_fails {n : Nat} (clock : Timeval) (pkt : Pkt) (buf : Buf n) (len : Nat) :
    OnlyFails (fun fault => ¬ fault.OfIndex) (pktEncode crc32 clock pkt buf len) := by
  simp only [pktEncode]
  refine .orFail_bind (by decide) fun buf₁ => .orFail_bind (by decide) fun head =>
    .orFail_bind (by decide) fun buf₂ => ?_
  split
  · exact .ok _
  refine .orFail_bind (by decide) fun body => .orFail_bind (by decide) fun buf₃ => ?_
  split
  · exact .orFail_bind (by decide) fun buf₄ => .ok _
  · exact .ok _

theorem encodeSlot_fails (clock : Timeval) (slot : Nat) (s : Sender) :
    OnlyFails (fun fault => ¬ fault.OfIndex) (encodeSlot crc32 clock slot s) :=
  .orFail_bind (by decide) fun pkt => (pktEncode_fails clock pkt _ _).bind fun _ => .ok _

theorem sendSlot_fails (clock : Timeval) (slot : Nat) (it : Iteration) :
    OnlyFails (fun fault => ¬ fault.OfIndex) (sendSlot crc32 clock slot it) := by
  apply (encodeSlot_fails clock slot _).bind
  intro encoded
  split <;> exact .ok _

/-! ## The indices of a pass -/

theorem Sender.Ranges.slot {s : Sender} (ranges : s.Ranges) (i : Nat) :
    slotOf i s.window = .ok (i % s.window) :=
  slotOf_eq ranges.counts.positive ranges.counts.fits i

theorem filePart_fails (ranges : it.sender.Ranges) :
    OnlyFails (fun fault => ¬ fault.OfIndex) (filePart crc32 ready it) := by
  unfold filePart
  split
  · exact .ok _
  split
  · exact .ok _
  · exact .ok _
  · exact .ok _
  · simp only [sendChunk, ranges.slot, ok_bind]
    apply (pktEncode_fails _ _ _ _).bind
    intro e
    split
    · exact .ok _
    split
    · exact .error (by decide)
    · exact .ok _

theorem timerPart_fails (ranges : it.sender.Ranges) :
    OnlyFails (fun fault => ¬ fault.OfIndex) (timerPart crc32 ready it) := by
  unfold timerPart
  split
  · rw [ranges.slot, ok_bind]
    exact sendSlot_fails _ _ it
  · exact .ok _

theorem handleNack_fails (ranges : it.sender.Ranges) :
    OnlyFails (fun fault => fault.OfIndex → fault = .slotIndex) (handleNack crc32 ready it) := by
  have slot : OnlyFails (fun fault => fault.OfIndex → fault = .slotIndex) (nackSlot it.sender) := by
    simp only [nackSlot, if_neg (Nat.ne_of_gt ranges.counts.positive)]
    split
    · exact .ok _
    · exact .error fun _ => rfl
  apply slot.bind
  intro index
  apply OnlyFails.bind_ok
  · constructor
    intro fault failed indexed
    exact ((encodeSlot_fails _ index _).of_error fault failed indexed).elim
  · intro encoded returned
    obtain ⟨buffer, buf, same⟩ := encodeSlot_resent returned
    have kept := ranges.slot it.sender.smallInd
    split
    · exact .ok _
    · simp only [same, kept, ok_bind]
      exact .orFail_bind (fun indexed => absurd indexed (by decide))
        fun _ => .ok _

theorem handleReply_fails (ranges : it.sender.Ranges) (running : it.sender.phase ≠ .returned) :
    OnlyFails (fun fault => pktGetType it.sender.pktAck = ptypeNack ∧
      (fault.OfIndex → fault = .slotIndex)) (handleReply crc32 ready it) := by
  by_cases ack : pktGetType it.sender.pktAck = ptypeAck
  · rw [handleReply_ack ranges running ack]
    exact .ok _
  rw [handleReply_eq]
  simp only [ack, if_false]
  split
  · rename_i nack
    constructor
    intro fault failed
    exact ⟨nack, (@handleNack_fails crc32 ready
      { it with sender := it.sender.widened, ackReceived := true } ranges.widened).of_error fault failed⟩
  · exact .ok _

/-- Only the handling of a NACK fails. -/
theorem replyPart_fails (ranges : it.sender.Ranges) (running : it.sender.phase ≠ .returned) :
    OnlyFails (fun fault => (∃ p, handled crc32 ready it = some p ∧ pktGetType p = ptypeNack) ∧
      (fault.OfIndex → fault = .slotIndex)) (replyPart crc32 ready it) := by
  have handles : ∀ p buf, handled crc32 ready it = some p →
      OnlyFails (fun fault => (∃ p, handled crc32 ready it = some p ∧ pktGetType p = ptypeNack) ∧
        (fault.OfIndex → fault = .slotIndex))
        (handleReply crc32 ready { it with sender := it.sender.withReply p buf }) := by
    intro p buf here
    constructor
    intro fault failed
    have both := (@handleReply_fails crc32 ready { it with sender := it.sender.withReply p buf }
      (ranges.withReply p buf) running).of_error fault failed
    exact ⟨⟨p, here, both.1⟩, both.2⟩
  cases there : ready.sfd with
  | none =>
      simp only [replyPart, there]
      exact .ok _
  | some result =>
      simp only [replyPart, there]
      split
      · rename_i empty
        have here : handled crc32 ready it = some it.sender.pktAck := by
          simp only [handled, there, if_pos empty]
        exact handles _ _ here
      · rename_i nonempty
        obtain ⟨q, decoded, -⟩ := pktDecode_spec crc32 (it.sender.packetEncoded.fill (result.getD []))
          (min (result.getD []).length 528) it.sender.pktAck
        rw [decoded, ok_bind]
        split
        · exact .ok _
        · rename_i accepted
          simp only [not_not] at accepted
          have here : handled crc32 ready it = some q := by
            simp only [handled, there, if_neg nonempty, decoded, accepted]
          exact handles q _ here

theorem Sender.pass_fails {s : Sender} (main : s.phase = .main) (ranges : s.Ranges) {fault : Fault}
    (failed : s.pass crc32 ready = .error fault) (indexed : fault.OfIndex) :
    fault = .slotIndex ∧ ∃ it p, filePart crc32 ready s.begin = .ok it ∧
      handled crc32 ready it = some p ∧ pktGetType p = ptypeNack := by
  simp only [Sender.pass, main] at failed
  split at failed
  · rcases bind_eq_error.mp failed with failed | ⟨it, -, returned⟩
    · rcases bind_eq_error.mp failed with failed | ⟨it, read, failed⟩
      · exact ((@filePart_fails crc32 ready s.begin ranges).of_error fault failed indexed).elim
      split at failed
      · cases failed
      rename_i running
      have ranges := ranges.read read
      rcases bind_eq_error.mp failed with failed | ⟨it₁, replied, failed⟩
      · obtain ⟨nack, only⟩ := (replyPart_fails ranges running).of_error fault failed
        exact ⟨only indexed, it, nack.choose, read, nack.choose_spec⟩
      split at failed
      · cases failed
      · have ranges := (replyPart_ranges ranges running replied).1
        exact ((timerPart_fails ranges).of_error fault failed indexed).elim
    · cases returned
  · rcases bind_eq_error.mp failed with failed | ⟨t, -, returned⟩
    · rcases bind_eq_error.mp failed with failed | ⟨e, -, failed⟩
      · exact ((pktEncode_fails _ _ _ _).of_error fault failed indexed).elim
      · split at failed <;> cases failed
    · cases returned

/-- In every run the counters are in their ranges, and in no pass is there a remainder by zero, a
    loop that goes on, or an index outside `buffer` other than that for a NACK. -/
theorem indices_in_range {s : Sender} (reach : (senderLoop crc32).Reachable s) :
    1 ≤ s.window ∧ s.window ≤ maxWindowSize ∧ s.smallSeq < 256 ∧ s.seqExp < 256 ∧
      s.smallInd < s.window ∧
      ∀ ready fault, s.phase = .main → s.pass crc32 ready = .error fault →
        fault ≠ .divisionByZero ∧ fault ≠ .loopSpent ∧
          (fault = .slotIndex → ∃ it p, filePart crc32 ready s.begin = .ok it ∧
            handled crc32 ready it = some p ∧ pktGetType p = ptypeNack) := by
  have ranges := Sender.Ranges.of_reachable reach
  have counts := ranges.counts
  have seqExp := counts.seqExp
  have smallSeq := counts.smallSeq
  refine ⟨counts.positive, counts.fits, by omega, by omega, ranges.inside, ?_⟩
  intro ready fault main failed
  have fails := fun indexed => s.pass_fails main ranges failed indexed
  refine ⟨?_, ?_, ?_⟩
  · rintro rfl
    cases (fails (by decide)).1
  · rintro rfl
    cases (fails (by decide)).1
  · rintro rfl
    exact (fails (by decide)).2

/-- With two segments acknowledged and one outstanding, a NACK for segment 20 is looked for at
    index 40. -/
theorem indices_in_range_sample : ∃ (s : Sender) (ready : Ready), s.steps = 2 ∧ s.seqInd = 3 ∧
    s.window = 3 ∧ s.smallInd < s.window ∧ s.pass Crc.crc32 ready = .error .slotIndex ∧
      ∃ it p, filePart Crc.crc32 ready s.begin = .ok it ∧ handled Crc.crc32 ready it = some p ∧
        pktGetType p = ptypeNack := by
  obtain ⟨slots, ⟨s, reach, shown⟩, -⟩ :=
    Leads.onward (Leads.inRange_admits Crc.crc32 seven) sevens Nat.two_pos (by omega)
  obtain ⟨-, d, -, framed⟩ := sendAck_numbered Crc.crc32 (.inr rfl) 20
  let ready : Ready := .still none (some (some d))
  obtain ⟨p, there, nack, advertised, seqnum⟩ :=
    handled_frame framed (show ready.sfd = _ from rfl) s.begin
  obtain ⟨buf, replied⟩ := replyPart_handled there
  have window : (s.withReply p buf).widened.window = 3 := by
    rw [Sender.widened_window]
    show max s.window (pktGetWindow p) = 3
    rw [shown.window, advertised]
    rfl
  have outside : nackSlot (s.withReply p buf).widened = .error .slotIndex := by
    have seq : (pktGetSeqnum (s.withReply p buf).widened.pktAck).toNat = 20 :=
      congrArg UInt8.toNat seqnum
    have smallSeq : (s.withReply p buf).widened.smallSeq = 2 := shown.smallSeq
    have smallInd : (s.withReply p buf).widened.smallInd = 2 := shown.smallInd
    simp only [nackSlot, seq, smallSeq, smallInd, window]
    rfl
  have fails : replyPart Crc.crc32 ready s.begin = .error .slotIndex := by
    rw [replied, handleReply_eq]
    show (if pktGetType p = ptypeAck then _ else if pktGetType p = ptypeNack then _ else _) = _
    rw [if_neg (by rw [nack]; decide), if_pos nack]
    exact bind_eq_error.mpr (.inl outside)
  have failed : s.pass Crc.crc32 ready = .error .slotIndex := by
    have read : filePart Crc.crc32 ready s.begin = .ok s.begin := filePart_unread rfl _
    have passed : s.mainPass Crc.crc32 ready = .error .slotIndex := by
      refine bind_eq_error.mpr (.inr ⟨_, read, ?_⟩)
      rw [if_neg (shown.running rfl)]
      exact bind_eq_error.mpr (.inl fails)
    simp only [Sender.pass, shown.phase, shown.stays]
    exact bind_eq_error.mpr (.inl passed)
  obtain ⟨-, -, -, -, inside, passes⟩ := indices_in_range reach.of_restrict
  exact ⟨s, ready, shown.steps, shown.seqInd, shown.window, inside, failed,
    (passes ready _ shown.phase failed).2.2 rfl⟩

end SegmentTransfer
