import SegmentTransfer.SegmentTimer
import SegmentTransfer.Replies

/-! # An ACK that enlarges the window

The segments outstanding stay in their slots when an ACK advertises a wider
window, and are looked for around the wider one from then on. Slots beyond the
window were never filled, so a segment that went around its end is not found.
-/

namespace SegmentTransfer

open Bytes Outcome

variable {crc32 : List UInt8 → UInt32} {ready : Ready} {it it' : Iteration} {s s' : Sender}

/-- The number of the segment in a slot. -/
def Sender.numberAt (s : Sender) (i : Nat) : Option Nat :=
  (s.buffer i).map fun p => (pktGetSeqnum p).toNat

/-- The first `k` segments from `small_seq` on are in the slots from `small_ind` on, modulo
    `window`. -/
def Sender.Sits (s : Sender) (k : Nat) : Prop :=
  Ring.From s.numberAt (fun i => (s.smallSeq + i) % 256) s.window s.smallInd k

/-- No slot beyond the window was filled. -/
def Sender.Bounded (s : Sender) : Prop := ∀ i, s.window ≤ i → s.buffer i = none

/-! ## The slots that are filled -/

theorem encodeSlot_filled {clock : Timeval} {slot : Nat} {x : Sender × Encoded 528}
    (h : encodeSlot crc32 clock slot s = .ok x) :
    ∀ i, s.buffer i = none → x.1.buffer i = none := by
  obtain ⟨p, held, rest⟩ := bind_eq_ok.mp h
  obtain ⟨e, -, rest⟩ := bind_eq_ok.mp rest
  cases rest
  intro i empty
  have apart : i ≠ slot := by
    rintro rfl
    rw [empty] at held
    cases held
  exact (Function.update_of_ne apart ..).trans empty

theorem timerPart_filled (h : timerPart crc32 ready it = .ok it') :
    ∀ i, it.sender.buffer i = none → it'.sender.buffer i = none := by
  unfold timerPart at h
  split at h
  · obtain ⟨slot, -, sends⟩ := bind_eq_ok.mp h
    obtain ⟨x, encoded, rest⟩ := bind_eq_ok.mp sends
    split at rest <;> cases rest <;> exact encodeSlot_filled encoded
  · cases h
    exact fun _ empty => empty

theorem handleNack_filled (h : handleNack crc32 ready it = .ok it') :
    ∀ i, it.sender.buffer i = none → it'.sender.buffer i = none := by
  obtain ⟨slot, -, rest⟩ := bind_eq_ok.mp h
  obtain ⟨x, encoded, rest⟩ := bind_eq_ok.mp rest
  split at rest
  · cases rest
    exact encodeSlot_filled encoded
  · obtain ⟨oldest, -, rest⟩ := bind_eq_ok.mp rest
    obtain ⟨pkt, -, rest⟩ := bind_eq_ok.mp rest
    cases rest
    exact encodeSlot_filled encoded

theorem replyPart_filled (ranges : it.sender.Ranges) (running : it.sender.phase ≠ .returned)
    (h : replyPart crc32 ready it = .ok it') :
    ∀ i, it.sender.buffer i = none → it'.sender.buffer i = none := by
  rcases replyPart_cases h with ⟨-, q, buf, rfl⟩ | ⟨p, buf, -, handles⟩
  · exact fun _ empty => empty
  rcases @handleReply_cases crc32 ready { it with sender := it.sender.withReply p buf } it'
    (ranges.withReply p buf) running handles with ⟨-, rfl⟩ | ⟨-, nack | rfl⟩
  · exact fun _ empty => empty
  · have filled := handleNack_filled nack
    exact filled
  · exact fun _ empty => empty

theorem filePart_bounded (bounded : it.sender.Bounded) (h : filePart crc32 ready it = .ok it') :
    it'.sender.Bounded := by
  rcases filePart_cases h with ⟨-, rfl⟩ | ⟨-, -, rfl⟩ | ⟨-, -, rfl⟩ | ⟨b, bs, -, -, sends⟩
  · exact bounded
  · exact bounded
  · exact bounded
  · obtain ⟨slot, placed, rest⟩ := bind_eq_ok.mp sends
    have inside : slot < it.sender.window := by
      obtain ⟨positive, rfl⟩ := slotOf_ok placed
      exact Nat.mod_lt _ positive
    have kept : ∀ (pkt : Pkt) (i : Nat), it.sender.window ≤ i →
        Function.update it.sender.buffer slot (some pkt) i = none := by
      intro pkt i beyond
      rw [Function.update_of_ne (by omega)]
      exact bounded i beyond
    obtain ⟨e, -, rest⟩ := bind_eq_ok.mp rest
    simp only at rest
    split at rest
    · cases rest
      exact kept _
    split at rest
    · cases rest
    · cases rest
      exact kept _

theorem Sender.Bounded.of_reachable (reach : (senderLoop crc32).Reachable s) : s.Bounded := by
  have inv : s.Ranges ∧ s.Bounded := by
    apply reach.induct (P := fun s => s.Ranges ∧ s.Bounded)
    · rintro _ ⟨file, memory, buf, rfl⟩
      exact ⟨.start file memory buf, fun _ _ => rfl⟩
    · rintro s ready s' ⟨ranges, bounded⟩ ⟨main, out, passed⟩
      refine ⟨s.pass_ranges main ranges passed, ?_⟩
      rcases s.pass_parts main passed with ⟨-, it, read, rest⟩ | ⟨-, built⟩
      · have bounded := @filePart_bounded crc32 ready s.begin it bounded read
        have ranges := ranges.read read
        rcases rest with ⟨-, rfl⟩ | ⟨running, it₁, replied, rest⟩
        · exact bounded
        have wider := (replyPart_ranges ranges running replied).2.window
        have bounded₁ : it₁.sender.Bounded := fun i beyond =>
          replyPart_filled ranges running replied i (bounded i (wider.trans beyond))
        rcases rest with ⟨-, rfl⟩ | ⟨-, it₂, timed, rfl⟩
        · exact bounded₁
        · intro i beyond
          rw [(timerPart_resent timed).same.window] at beyond
          exact timerPart_filled timed i (bounded₁ i beyond)
      · obtain ⟨pktSend, buf, phase, tmp, rfl, -⟩ := Sender.buildEnd_cases built
        exact bounded
  exact inv.2

/-! ## Growing -/

/-- In every run, an ACK in order that enlarges the window leaves the segments outstanding where they
    are looked for exactly when they did not go around its end. -/
theorem grown_sits_iff (reach : (senderLoop crc32).Reachable s)
    (read : filePart crc32 ready s.begin = .ok it) (running : it.sender.phase ≠ .returned)
    (within : it.sender.outstanding ≤ it.sender.window)
    (sits : it.sender.Sits it.sender.outstanding) {p : Pkt}
    (decoded : handled crc32 ready it = some p) (ack : pktGetType p = ptypeAck)
    (inOrder : it.sender.ahead p < it.sender.outstanding)
    (wider : it.sender.window < pktGetWindow p) :
    (∃ it', replyPart crc32 ready it = .ok it' ∧
        it'.sender.Sits (it.sender.outstanding - it.sender.ahead p)) ↔
      it.sender.smallInd + it.sender.outstanding ≤ it.sender.window := by
  have ranges := (Sender.Ranges.of_reachable reach).read read
  have bounded := @filePart_bounded crc32 ready s.begin it (Sender.Bounded.of_reachable reach) read
  obtain ⟨buf, replied⟩ := replyPart_ack ranges running decoded ack
  have fits := ranges.counts.fits
  have byte := (pktGetSeqnum p).toNat_lt
  have small : it.sender.smallSeq < 256 := by
    rw [ranges.counts.smallSeq]
    exact Nat.mod_lt _ (by omega)
  have window : (it.sender.withReply p buf).widened.window = pktGetWindow p := by
    rw [Sender.widened_window]
    exact Nat.max_eq_right (Nat.le_of_lt wider)
  -- what is looked for then is the rest of the old ring, around the new one
  have rest : ∀ k, (it.sender.withReply p buf).widened.acknowledged.Sits k ↔
      Ring.From it.sender.numberAt (fun i => (it.sender.smallSeq + (it.sender.ahead p + i)) % 256)
        (pktGetWindow p) ((it.sender.smallInd + it.sender.ahead p) % pktGetWindow p) k := by
    intro k
    have number : ∀ i, ((pktGetSeqnum p).toNat + i) % 256 =
        (it.sender.smallSeq + (it.sender.ahead p + i)) % 256 := by
      intro i
      unfold Sender.ahead
      omega
    rw [← window]
    simp only [← number]
    rfl
  have grown := sits.grown_iff ranges.inside within wider
    (fun i beyond => by rw [Sender.numberAt, bounded i beyond]; rfl)
    (fun i few m few' same => by simp only [maxWindowSize] at fits; omega) inOrder
  rw [← grown, ← rest]
  constructor
  · rintro ⟨it', replied', found⟩
    rw [replied] at replied'
    cases replied'
    exact found
  · intro found
    exact ⟨_, replied, found⟩

theorem Sender.Shows.sits {chunk : Nat → List UInt8} {a : Protocol.Sender}
    (h : s.Shows crc32 chunk a) {k : Nat}
    (held : ∀ i < k, a.slots ((a.smallInd + i) % a.window) = some (a.acked + i)) : s.Sits k := by
  intro i few
  obtain ⟨p, here, number, -⟩ := h.slot (held i few)
  rw [← h.smallInd, ← h.window] at here
  have same : (s.smallSeq + i) % 256 = (a.acked + i) % 256 := by
    rw [h.smallSeq, Nat.mod_add_mod]
  rw [Sender.numberAt, here, Option.map_some, number, ← same]

/-- Two segments are outstanding, the first of them numbered `n`, when an ACK opens a window of
    four. -/
theorem four_opened {n k : Nat} (some_ : 0 < n) (few : n < 200) (low : n ≤ k) (high : k ≤ n + 1) :
    ∃ (s : Sender) (ready : Ready) (p : Pkt), (senderLoop Crc.crc32).Reachable s ∧
      filePart Crc.crc32 ready s.begin = .ok s.begin ∧ s.begin.sender.phase ≠ .returned ∧
      s.begin.sender.window = 3 ∧ s.begin.sender.smallInd = n % 3 ∧
      s.begin.sender.outstanding = 2 ∧ s.begin.sender.Sits 2 ∧
      handled Crc.crc32 ready s.begin = some p ∧ pktGetType p = ptypeAck ∧
      s.begin.sender.ahead p = k - n ∧ pktGetWindow p = 4 := by
  obtain ⟨slots, leads⟩ :=
    @Leads.rounds Crc.crc32 _ _ (Leads.inRange_admits Crc.crc32 seven) sevens n some_ (by omega)
  have one := leads.read rfl sevens
    (@Protocol.Sender.read_standing (n + 2) n n slots (by omega) (by omega) (by omega))
  have two := one.read rfl sevens
    (@Protocol.Sender.read_standing (n + 2) n (n + 1) _ (by omega) (by omega) (by omega))
  have four : 4 ≤ maxWindowSize := by simp [maxWindowSize]
  obtain ⟨-, d, -, -, framed⟩ := sendAck_spec Crc.crc32 (show firstPkt.tr = 0 from rfl) (.inl rfl)
    four (ofInt_pred k) ⟨0, 0⟩ (.replicate 20 0) 0
  obtain ⟨s, ready, p, reach, shown, running, read, -, decoded, ack, seqnum, advertised⟩ :=
    two.replied rfl framed
  refine ⟨s, ready, p, reach, read, running, shown.window, shown.smallInd, ?_, ?_, decoded, ack, ?_,
    advertised⟩
  · rw [Sender.begin, Sender.outstanding, shown.seqExp, shown.smallSeq]
    simp only [Protocol.Sender.standing]
    omega
  · apply @Sender.Shows.sits _ s seven _ shown
    intro i few
    obtain rfl | rfl : i = 0 ∨ i = 1 := by omega
    · have apart : (n % 3 + 0) % 3 ≠ (n + 1) % 3 := by omega
      exact (Function.update_of_ne apart ..).trans (by simp [Protocol.Sender.standing])
    · simp [Protocol.Sender.standing]
  · rw [Sender.begin, Sender.ahead, seqnum, shown.smallSeq, UInt8.toNat_ofNat']
    simp only [Protocol.Sender.standing]
    omega

/-- With the segments 1 and 2 in the slots 1 and 2, a window of four does no harm. -/
theorem grown_sits_iff_sample : ∃ it' : Iteration, it'.sender.Sits 2 := by
  obtain ⟨s, ready, p, reach, read, running, window, smallInd, outstanding, sits, decoded, ack,
    ahead, advertised⟩ := @four_opened 1 1 (by omega) (by omega) (by omega) (by omega)
  rw [← outstanding] at sits
  obtain ⟨it', -, found⟩ := (grown_sits_iff reach read running (by omega) sits decoded ack
    (by omega) (by omega)).mpr (by omega)
  rw [outstanding, ahead] at found
  exact ⟨it', found⟩

/-- With the segments 2 and 3 in the slots 2 and 0, an ACK for the first of them that opens a window
    of four has the other looked for in slot 3. -/
theorem grown_lost :
    ¬ ∀ (s : Sender) (ready : Ready) (it : Iteration) (p : Pkt),
      (senderLoop Crc.crc32).Reachable s → filePart Crc.crc32 ready s.begin = .ok it →
      it.sender.phase ≠ .returned → it.sender.outstanding ≤ it.sender.window →
      it.sender.Sits it.sender.outstanding → handled Crc.crc32 ready it = some p →
      pktGetType p = ptypeAck → it.sender.ahead p < it.sender.outstanding →
      it.sender.window < pktGetWindow p →
      ∃ it', replyPart Crc.crc32 ready it = .ok it' ∧
        it'.sender.Sits (it.sender.outstanding - it.sender.ahead p) := by
  intro finds
  obtain ⟨s, ready, p, reach, read, running, window, smallInd, outstanding, sits, decoded, ack,
    ahead, advertised⟩ := @four_opened 2 3 (by omega) (by omega) (by omega) (by omega)
  obtain ⟨it', replied, found⟩ := finds s ready s.begin p reach read running (by omega)
    (outstanding ▸ sits) decoded ack (by omega) (by omega)
  have ranges := (Sender.Ranges.of_reachable reach).read read
  obtain ⟨buf, replied'⟩ := replyPart_ack ranges running decoded ack
  rw [replied'] at replied
  cases replied
  have wide : (s.begin.sender.withReply p buf).widened.window = 4 := by
    rw [Sender.widened_window]
    show max s.begin.sender.window (pktGetWindow p) = 4
    rw [window, advertised]
    rfl
  have place : (s.begin.sender.withReply p buf).widened.acknowledged.smallInd = 3 := by
    show (s.begin.sender.smallInd + s.begin.sender.ahead p) %
      (s.begin.sender.withReply p buf).widened.window = 3
    rw [wide, smallInd, ahead]
  have here := found 0 (by omega)
  rw [place, show (s.begin.sender.withReply p buf).widened.acknowledged.window = 4 from wide] at here
  have empty := Sender.Bounded.of_reachable reach 3 (Nat.le_of_eq window)
  have none : (s.buffer 3).map (fun p => (pktGetSeqnum p).toNat) = some _ := here
  rw [empty] at none
  cases none

end SegmentTransfer
