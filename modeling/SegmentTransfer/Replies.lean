import SegmentTransfer.SendWindow

/-! # Replies the sender does not expect

Runs of `send_data` in which any reply may come. An ACK moves the window up to
its number, however far ahead of `small_seq` that is, so one that acknowledges
nothing outstanding only does no harm when it repeats `small_seq`.
-/

namespace SegmentTransfer

open Bytes Outcome

variable {crc32 : List UInt8 → UInt32} {ready : Ready} {it it' : Iteration}

/-! ## Stale ACKs -/

/-- The number of the packet is `small_seq`, or beyond the segments outstanding. -/
def Sender.Stale (s : Sender) (p : Pkt) : Prop := s.ahead p = 0 ∨ s.outstanding < s.ahead p

/-- The window stands where it stood. -/
def Sender.SamePlace (s s' : Sender) : Prop := s'.smallSeq = s.smallSeq ∧ s'.smallInd = s.smallInd

theorem samePlace_acknowledged {s : Sender} (ranges : s.Ranges) (p : Pkt) (buf : Buf 528) :
    s.SamePlace (s.withReply p buf).widened.acknowledged ↔ s.ahead p = 0 := by
  have byte := (pktGetSeqnum p).toNat_lt
  have small := ranges.counts.smallSeq
  have inside := (ranges.withReply p buf).widened.inside
  have smallSeq : (s.withReply p buf).widened.acknowledged.smallSeq = (pktGetSeqnum p).toNat := rfl
  have smallInd : (s.withReply p buf).widened.acknowledged.smallInd =
      (s.smallInd + s.ahead p) % (s.withReply p buf).widened.window := rfl
  rw [Sender.SamePlace, smallSeq, smallInd]
  constructor
  · rintro ⟨number, -⟩
    unfold Sender.ahead
    omega
  · intro zero
    constructor
    · unfold Sender.ahead at zero
      omega
    · rw [zero]
      exact Nat.mod_eq_of_lt inside

/-- In every run, a stale ACK leaves the window where it is exactly when it is not ahead of the
    segments outstanding. -/
theorem stale_ack_harmless_iff {s : Sender} (reach : (senderLoop crc32).Reachable s)
    (read : filePart crc32 ready s.begin = .ok it) (running : it.sender.phase ≠ .returned) {p : Pkt}
    (decoded : handled crc32 ready it = some p) (ack : pktGetType p = ptypeAck) :
    (it.sender.Stale p →
        ∃ it', replyPart crc32 ready it = .ok it' ∧ it.sender.SamePlace it'.sender) ↔
      ¬ it.sender.outstanding < it.sender.ahead p := by
  have ranges := (Sender.Ranges.of_reachable reach).read read
  obtain ⟨buf, replied⟩ := replyPart_ack ranges running decoded ack
  have same := samePlace_acknowledged ranges p buf
  constructor
  · intro harmless beyond
    obtain ⟨it', replied', kept⟩ := harmless (.inr beyond)
    rw [replied] at replied'
    cases replied'
    have zero := same.mp kept
    omega
  · intro near stale
    refine ⟨_, replied, same.mpr ?_⟩
    exact stale.resolve_right near

theorem Leads.replied {C : Sender → Ready → Prop} {chunk : Nat → List UInt8} {a : Protocol.Sender}
    (h : Leads crc32 C chunk a) (main : a.phase = .main) {kind k window : Nat} {d : List UInt8}
    (framed : IsFrame crc32 kind k window [] d) :
    ∃ (s : Sender) (ready : Ready) (p : Pkt),
      (senderLoop crc32).Reachable s ∧ s.Shows crc32 chunk a ∧
      s.begin.sender.phase ≠ .returned ∧
      filePart crc32 ready s.begin = .ok s.begin ∧ ready.sfd = some (some d) ∧
      handled crc32 ready s.begin = some p ∧ pktGetType p = kind ∧
      pktGetSeqnum p = UInt8.ofNat k ∧ pktGetWindow p = window := by
  obtain ⟨s, reach, shown⟩ := h
  let ready : Ready := .still none (some (some d))
  obtain ⟨p, read, type, advertised, seqnum⟩ := handled_frame framed (show ready.sfd = _ from rfl) s.begin
  exact ⟨s, ready, p, reach.of_restrict, shown, shown.running main,
    filePart_unread rfl _, rfl, read, type, seqnum, advertised⟩

theorem Leads.answered {C : Sender → Ready → Prop} {chunk : Nat → List UInt8} {a : Protocol.Sender}
    (h : Leads crc32 C chunk a) (main : a.phase = .main) {kind : Nat}
    (reply : kind = ptypeAck ∨ kind = ptypeNack) (k : Nat) :
    ∃ (s : Sender) (ready : Ready) (d : List UInt8) (p : Pkt),
      (senderLoop crc32).Reachable s ∧ s.Shows crc32 chunk a ∧
      s.begin.sender.phase ≠ .returned ∧
      filePart crc32 ready s.begin = .ok s.begin ∧ ready.sfd = some (some d) ∧
      (∃ pktAck, sendAck crc32 ⟨0, 0⟩ (.replicate 20 0) firstPkt ((k : Int) - 1) kind 0 receiverWindow =
        .ok (pktAck, [d])) ∧
      handled crc32 ready s.begin = some p ∧ pktGetType p = kind ∧
      pktGetSeqnum p = UInt8.ofNat k := by
  obtain ⟨pktAck, d, sent, framed⟩ := sendAck_numbered crc32 reply k
  obtain ⟨s, ready, p, reach, shown, running, read, there, decoded, type, seqnum, -⟩ :=
    h.replied main framed
  exact ⟨s, ready, d, p, reach, shown, running, read, there, ⟨pktAck, sent⟩, decoded, type, seqnum⟩

/-- The ACK of the first segment, read again. -/
theorem stale_ack_harmless_iff_sample :
    ∃ (s : Sender) (ready : Ready) (p : Pkt), handled Crc.crc32 ready s.begin = some p ∧
      ((s.begin.sender.Stale p → ∃ it', replyPart Crc.crc32 ready s.begin = .ok it' ∧
          s.begin.sender.SamePlace it'.sender) ↔
        ¬ s.begin.sender.outstanding < s.begin.sender.ahead p) := by
  obtain ⟨slots, leads⟩ :=
    Leads.rounds (Leads.inRange_admits Crc.crc32 seven) sevens Nat.one_pos (by omega)
  obtain ⟨s, ready, d, p, reach, -, running, read, -, -, decoded, ack, -⟩ :=
    leads.answered rfl (.inl rfl) 1
  exact ⟨s, ready, p, decoded, stale_ack_harmless_iff reach read running decoded ack⟩

/-- A second copy of the first ACK, once two segments are acknowledged, sends the window 255 steps
    on. -/
theorem stale_ack_moves :
    ¬ ∀ (s : Sender) (ready : Ready) (it : Iteration) (p : Pkt),
      (senderLoop Crc.crc32).Reachable s → filePart Crc.crc32 ready s.begin = .ok it →
      it.sender.phase ≠ .returned → it.sender.outstanding ≤ it.sender.window →
      handled Crc.crc32 ready it = some p → pktGetType p = ptypeAck → it.sender.Stale p →
      ∃ it', replyPart Crc.crc32 ready it = .ok it' ∧ it.sender.SamePlace it'.sender := by
  intro harmless
  obtain ⟨slots, leads⟩ :=
    Leads.rounds (Leads.inRange_admits Crc.crc32 seven) sevens Nat.two_pos (by omega)
  obtain ⟨s, ready, d, p, reach, shown, running, read, -, -, decoded, ack, seqnum⟩ :=
    leads.answered rfl (.inl rfl) 1
  have none : s.begin.sender.outstanding = 0 := by
    simp [Sender.begin, Sender.outstanding, shown.seqExp, shown.smallSeq, Protocol.Sender.standing]
  have beyond : s.begin.sender.ahead p = 255 := by
    simp [Sender.begin, Sender.ahead, seqnum, shown.smallSeq, Protocol.Sender.standing]
  obtain ⟨it', replied, kept⟩ := harmless s ready s.begin p reach read running
    (by rw [none]; exact Nat.zero_le _) decoded ack (.inr (by omega))
  have ranges := (Sender.Ranges.of_reachable reach).read read
  obtain ⟨buf, replied'⟩ := replyPart_ack ranges running decoded ack
  rw [replied'] at replied
  cases replied
  have zero := (samePlace_acknowledged ranges p buf).mp kept
  omega

end SegmentTransfer
