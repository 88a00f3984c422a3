import SegmentTransfer.Counters
import SegmentTransfer.Delivery

/-! # The send window

`send_data` alone, whatever the file gives and whatever replies come. When chunks
are only read while fewer than `window` segments are outstanding, no more than
`window` ever are.
-/

namespace SegmentTransfer

open Outcome

/-- A chunk is only read when fewer than `window` segments are outstanding. -/
def Sender.ReadsInWindow (s : Sender) (ready : Ready) : Prop :=
  s.fdSet = true → (∃ b bs, ready.fd = some (some (b :: bs))) → s.outstanding < s.window

/-- The ACK read, if one is, acknowledges a number between the oldest segment not
    acknowledged and the next one to send. -/
def Sender.AcksInRange (crc32 : List UInt8 → UInt32) (s : Sender) (ready : Ready) : Prop :=
  ∀ it d q, filePart crc32 ready { sender := s, sent := false, ackReceived := false, out := [] } =
      .ok it → ready.sfd = some (some d) →
    pktDecode crc32 (it.sender.packetEncoded.fill d) (min d.length 528) it.sender.pktAck =
      .ok (.pktOk, q) → pktGetType q = ptypeAck →
    ∃ a, it.sender.steps ≤ a ∧ a ≤ it.sender.seqInd ∧ (pktGetSeqnum q).toNat = a % 256

/-- What a pass reads while the clocks stand still. -/
def Ready.still (fd sfd : Option ReadResult) : Ready where
  fd := fd
  sfd := sfd
  sendClock := ⟨0, 0⟩
  replyClock := ⟨0, 0⟩
  timerClock := ⟨0, 0⟩
  memory _ := 0

/-- No more than `window` segments are outstanding. -/
def Sender.Within (s : Sender) : Prop := s.seqInd ≤ s.steps + s.window

variable {crc32 : List UInt8 → UInt32} {ready : Ready} {it it' : Iteration}

namespace Sender

variable {s s' : Sender}

theorem Within.congr (h : s.Within) (same : s.SameCounters s') : s'.Within := by
  rw [Within, same.seqInd, same.steps, same.window]
  exact h

theorem Within.advances (h : s.Within) (advances : s.Advances s') : s'.Within := by
  have := advances.steps
  have := advances.window
  rw [Within, advances.seqInd]
  unfold Within at h
  omega

theorem Within.succ (h : s.Within) (counts : s.Counts) (room : s.outstanding < s.window) :
    s.seqInd + 1 ≤ s.steps + s.window := by
  have fits := counts.fits
  have positive := counts.positive
  simp only [Within, outstanding, counts.seqExp, counts.smallSeq, maxWindowSize] at *
  omega

end Sender

theorem filePart_within (ranges : it.sender.Ranges) (within : it.sender.Within)
    (room : it.sender.ReadsInWindow ready) (h : filePart crc32 ready it = .ok it') :
    it'.sender.Within := by
  rcases filePart_cases h with ⟨-, rfl⟩ | ⟨-, -, rfl⟩ | ⟨-, -, rfl⟩ | ⟨b, bs, set, chunk, sends⟩
  · exact within
  · exact within
  · exact within
  · obtain ⟨pktSend, buffer, buf, rfl | ⟨out, rfl⟩⟩ := sendChunk_cases sends
    · exact within
    · exact within.succ ranges.counts (room set ⟨b, bs, chunk⟩)

theorem Sender.pass_within {s s' : Sender} {out : List (List UInt8)} (main : s.phase = .main)
    (ranges : s.Ranges) (within : s.Within) (room : s.ReadsInWindow ready)
    (h : s.pass crc32 ready = .ok (s', out)) : s'.Within := by
  rcases s.pass_parts main h with ⟨-, it, read, rest⟩ | ⟨-, built⟩
  · have within := @filePart_within crc32 ready s.begin it ranges within room read
    rcases rest with ⟨-, rfl⟩ | ⟨running, it₁, replied, rest⟩
    · exact within
    have ranges := ranges.read read
    have within := within.advances (replyPart_ranges ranges running replied).2
    rcases rest with ⟨-, rfl⟩ | ⟨-, it₂, timed, rfl⟩
    · exact within
    · exact within.congr (timerPart_resent timed).same.toSameCounters
  · obtain ⟨pktSend, buf, phase, tmp, rfl, -⟩ := Sender.buildEnd_cases built
    exact within

/-- As long as chunks are only read when fewer than `window` segments are outstanding,
    at most `window` segments were sent and not acknowledged. -/
theorem window_bound {s : Sender}
    (reach : ((senderLoop crc32).restrict Sender.ReadsInWindow).Reachable s) :
    s.seqInd ≤ s.steps + s.window := by
  have inv : s.Ranges ∧ s.Within := by
    apply reach.induct (P := fun s => s.Ranges ∧ s.Within)
    · rintro _ ⟨file, memory, buf, rfl⟩
      exact ⟨.start file memory buf, Nat.zero_le _⟩
    · rintro s ready s' ⟨ranges, within⟩ ⟨⟨main, out, passed⟩, room⟩
      exact ⟨s.pass_ranges main ranges passed, s.pass_within main ranges within room passed⟩
  exact inv.2

/-- Every chunk is one byte. -/
def seven (_ : Nat) : List UInt8 := [7]

theorem sevens (n : Nat) : seven n ≠ [] ∧ (seven n).length ≤ maxPayloadSize :=
  singleton_payload 7

theorem Sender.start_reads (file : Bool) : ∃ s ds,
    (Sender.start file firstPkt (.replicate 528 0)).pass Crc.crc32
        (.still (fileRead seven 1 0 true) none) = .ok (s, ds) ∧
      s.Shows Crc.crc32 seven { Protocol.Sender.begun with file } := by
  have agree : Agree (ShowsSent Crc.crc32 seven)
      ((Sender.start file firstPkt (.replicate 528 0)).pass Crc.crc32
        (.still (fileRead seven 1 0 true) none))
      ((Protocol.Sender.start file).pass 1 true none) :=
    (Sender.Shows.start Crc.crc32 seven file firstPkt _).pass (fun _ => sevens 0) rfl .none
  have first : (Protocol.Sender.start file).pass 1 true none =
      .ok ({ Protocol.Sender.begun with file }, [.seg 0 1]) := by
    cases file <;> rfl
  obtain ⟨⟨s, ds⟩, passed, shown, -⟩ := agree.of_ok_right first
  exact ⟨s, ds, passed, shown⟩

/-! ## Runs that keep to a condition -/

theorem Sender.Shows.running {chunk : Nat → List UInt8} {s : Sender} {a : Protocol.Sender}
    (h : s.Shows crc32 chunk a) (main : a.phase = .main) : s.begin.sender.phase ≠ .returned := by
  intro returned
  have both : SenderPhase.main = .returned := (h.phase.trans main).symm.trans returned
  cases both

theorem sendAck_numbered (crc32 : List UInt8 → UInt32) {kind : Nat}
    (reply : kind = ptypeAck ∨ kind = ptypeNack) (k : Nat) :
    ∃ pktAck d, sendAck crc32 ⟨0, 0⟩ (.replicate 20 0) firstPkt ((k : Int) - 1) kind 0
        receiverWindow = .ok (pktAck, [d]) ∧ IsFrame crc32 kind k receiverWindow [] d := by
  have tr : firstPkt.tr = 0 := rfl
  obtain ⟨pktAck, d, sent, -, framed⟩ :=
    sendAck_spec crc32 tr reply receiverWindow_fits (ofInt_pred k) ⟨0, 0⟩ (.replicate 20 0) 0
  exact ⟨pktAck, d, sent, framed⟩

theorem handled_frame {kind k window : Nat} {d : List UInt8} (framed : IsFrame crc32 kind k window [] d)
    (there : ready.sfd = some (some d)) (it : Iteration) :
    ∃ p, handled crc32 ready it = some p ∧ pktGetType p = kind ∧ pktGetWindow p = window ∧
      pktGetSeqnum p = UInt8.ofNat k := by
  obtain ⟨positive, fits, p, decoded, -, type, advertised, seqnum, -⟩ :=
    framed.decode (Nat.zero_le _) it.sender.packetEncoded it.sender.pktAck
  refine ⟨p, ?_, type, advertised, seqnum⟩
  simp only [handled, there, Option.getD_some, Nat.min_eq_left fits, Nat.ne_of_gt positive, if_false,
    decoded]

/-- Some run of the sender's loop in which every pass meets `C` leads to the sender `a`. -/
def Leads (crc32 : List UInt8 → UInt32) (C : Sender → Ready → Prop) (chunk : Nat → List UInt8)
    (a : Protocol.Sender) : Prop :=
  ∃ s, ((senderLoop crc32).restrict C).Reachable s ∧ s.Shows crc32 chunk a

/-- The condition is met by a pass that reads a chunk with room in the window, and by one that reads an
    ACK in range. -/
structure Admits (crc32 : List UInt8 → UInt32) (C : Sender → Ready → Prop)
    (chunk : Nat → List UInt8) : Prop where
  chunks : ∀ {s : Sender} {a : Protocol.Sender} {total : Nat}, s.Shows crc32 chunk a →
    a.acked ≤ a.sent → a.sent < a.acked + a.window → a.sent ≠ total →
    C s (.still (fileRead chunk total a.sent true) none)
  acks : ∀ {s : Sender} {a : Protocol.Sender} {k : Nat} {d : List UInt8}, s.Shows crc32 chunk a →
    a.acked ≤ k → k ≤ a.sent → IsFrame crc32 ptypeAck k receiverWindow [] d →
    C s (.still none (some (some d)))

namespace Leads

open Protocol.Sender (standing read_first ack_first read_standing ack_standing)

variable {crc32 : List UInt8 → UInt32} {C : Sender → Ready → Prop} {chunk : Nat → List UInt8}
  {a a' : Protocol.Sender} {total : Nat} {out : List Protocol.Item}

theorem start (crc32 : List UInt8 → UInt32) (C : Sender → Ready → Prop)
    (chunk : Nat → List UInt8) : Leads crc32 C chunk (.start false) :=
  ⟨_, .of_init ⟨false, firstPkt, .replicate 528 0, rfl⟩, .start crc32 chunk false _ _⟩

theorem pass (h : Leads crc32 C chunk a) (main : a.phase = .main)
    (chunks : ∀ n, chunk n ≠ [] ∧ (chunk n).length ≤ maxPayloadSize) {fdReady : Bool}
    {sfd : Option ReadResult} {reply : Option (Nat × Nat)} (arrives : ShowsReply crc32 sfd reply)
    (passed : a.pass total fdReady reply = .ok (a', out))
    (meets : ∀ s, s.Shows crc32 chunk a → C s (.still (fileRead chunk total a.sent fdReady) sfd)) :
    Leads crc32 C chunk a' := by
  obtain ⟨s, reach, shown⟩ := h
  let ready : Ready := .still (fileRead chunk total a.sent fdReady) sfd
  have agree : Agree (ShowsSent crc32 chunk) (s.pass crc32 ready) (a.pass total fdReady reply) :=
    shown.pass (fun _ => chunks _) rfl arrives
  obtain ⟨⟨s', ds⟩, sends, shown', -⟩ := agree.of_ok_right passed
  exact ⟨s', reach.step ⟨⟨shown.phase.trans main, ds, sends⟩, meets s shown⟩, shown'⟩

theorem next (h : Leads crc32 C chunk a) (admits : Admits crc32 C chunk) (main : a.phase = .main)
    (chunks : ∀ n, chunk n ≠ [] ∧ (chunk n).length ≤ maxPayloadSize) (acked : a.acked ≤ a.sent)
    (room : a.sent < a.acked + a.window) (more : a.sent ≠ total)
    (passed : a.pass total true none = .ok (a', out)) : Leads crc32 C chunk a' :=
  h.pass main chunks .none passed fun _ shown => admits.chunks shown acked room more

theorem ack (h : Leads crc32 C chunk a) (admits : Admits crc32 C chunk) (main : a.phase = .main)
    (chunks : ∀ n, chunk n ≠ [] ∧ (chunk n).length ≤ maxPayloadSize) {k : Nat}
    (low : a.acked ≤ k) (high : k ≤ a.sent)
    (passed : a.pass total false (some (k, receiverWindow)) = .ok (a', out)) :
    Leads crc32 C chunk a' := by
  obtain ⟨p, d, -, framed⟩ := sendAck_numbered crc32 (.inl rfl) k
  exact h.pass main chunks (.some framed) passed fun _ shown => admits.acks shown low high framed

theorem rounds (admits : Admits crc32 C chunk)
    (chunks : ∀ n, chunk n ≠ [] ∧ (chunk n).length ≤ maxPayloadSize) {k : Nat}
    (some : 0 < k) (few : k < 256) : ∃ slots, Leads crc32 C chunk (standing k k slots) := by
  induction k, some using Nat.le_induction with
  | base =>
      have first := (Leads.start crc32 C chunk).next admits rfl chunks (Nat.le_refl 0)
        Nat.one_pos (Nat.zero_ne_one) (@read_first 1 (by omega))
      exact ⟨_, first.ack admits rfl chunks (Nat.zero_le _) (Nat.le_refl _) (ack_first 0)⟩
  | succ k _ ih =>
      obtain ⟨slots, leads⟩ := ih (by omega)
      have sent := leads.next admits rfl chunks (Nat.le_refl k) (show k < k + 3 by omega)
        (show k ≠ k + 1 by omega)
        (@read_standing (k + 1) k k slots (by omega) (by omega) (by omega))
      exact ⟨_, sent.ack admits rfl chunks (Nat.le_succ k) (Nat.le_refl _) (ack_standing 0)⟩

theorem onward (admits : Admits crc32 C chunk)
    (chunks : ∀ n, chunk n ≠ [] ∧ (chunk n).length ≤ maxPayloadSize) {k : Nat}
    (some : 0 < k) (few : k < 253) : ∃ slots, Leads crc32 C chunk (standing k (k + 1) slots) ∧
      slots (k % 3) = Option.some k := by
  obtain ⟨slots, leads⟩ := rounds admits chunks some (by omega)
  refine ⟨_, leads.next admits rfl chunks (Nat.le_refl k) (show k < k + 3 by omega)
    (show k ≠ k + 1 by omega)
    (@read_standing (k + 1) k k slots (by omega) (by omega) (by omega)), ?_⟩
  exact Function.update_self ..

end Leads

theorem Sender.readsInWindow_admits (chunk : Nat → List UInt8) :
    Admits crc32 Sender.ReadsInWindow chunk where
  chunks := by
    intro s a total shown acked room more set some
    rw [Sender.outstanding, shown.seqExp, shown.smallSeq, shown.window]
    omega
  acks := by
    intro s a k d shown low high framed set some
    obtain ⟨b, bs, nothing⟩ := some
    cases nothing

/-- Four segments are sent, three of them acknowledged. -/
theorem window_bound_sample : ∃ s : Sender, s.seqInd = 4 ∧ s.steps = 3 ∧
    s.seqInd ≤ s.steps + s.window := by
  obtain ⟨slots, ⟨s, reach, shown⟩, -⟩ := @Leads.onward Crc.crc32 _ seven
    (Sender.readsInWindow_admits seven) sevens 3 (by omega) (by omega)
  exact ⟨s, shown.seqInd, shown.steps, window_bound reach⟩

/-! ## Runs in which every ACK is in range -/

namespace Leads

open Protocol.Sender (standing read_standing)

variable {crc32 : List UInt8 → UInt32} {chunk : Nat → List UInt8} {a a' : Protocol.Sender}
  {total : Nat} {out : List Protocol.Item}

theorem inRange_admits (crc32 : List UInt8 → UInt32) (chunk : Nat → List UInt8) :
    Admits crc32 (Sender.AcksInRange crc32) chunk where
  chunks := by
    intro s a total shown acked room more it d q filed read
    cases read
  acks := by
    intro s a k d shown low high framed it d' q filed read decoded _
    cases read
    rw [filePart_unread rfl] at filed
    cases filed
    obtain ⟨-, fits, q', decoded', -, -, -, seqnum, -⟩ :=
      framed.decode (Nat.zero_le _) s.packetEncoded s.pktAck
    rw [Nat.min_eq_left fits, decoded'] at decoded
    cases decoded
    rw [shown.steps, shown.seqInd, seqnum]
    exact ⟨k, low, high, UInt8.toNat_ofNat' ..⟩

theorem read (h : Leads crc32 (Sender.AcksInRange crc32) chunk a) (main : a.phase = .main)
    (chunks : ∀ n, chunk n ≠ [] ∧ (chunk n).length ≤ maxPayloadSize)
    (passed : a.pass total true none = .ok (a', out)) :
    Leads crc32 (Sender.AcksInRange crc32) chunk a' :=
  h.pass main chunks .none passed fun _ _ _ _ _ _ nothing => by cases nothing

theorem onwards (chunks : ∀ n, chunk n ≠ [] ∧ (chunk n).length ≤ maxPayloadSize) (j : Nat)
    (few : 253 + j < 2 ^ 31) :
    ∃ slots, Leads crc32 (Sender.AcksInRange crc32) chunk (standing 253 (253 + j) slots) := by
  induction j with
  | zero => exact rounds (inRange_admits crc32 chunk) chunks (by omega) (by omega)
  | succ j ih =>
      obtain ⟨slots, leads⟩ := ih (by omega)
      exact ⟨_, leads.read rfl chunks
        (@read_standing (253 + j + 1) 253 (253 + j) slots (by omega) (by omega) (by omega))⟩

end Leads

/-- Four segments are outstanding with a window of three. -/
theorem window_overrun :
    ¬ ∀ s, ((senderLoop Crc.crc32).restrict (Sender.AcksInRange Crc.crc32)).Reachable s →
      s.seqInd ≤ s.steps + s.window := by
  intro bound
  obtain ⟨slots, s, reach, shown⟩ := @Leads.onwards Crc.crc32 _ sevens 4 (by omega)
  have := bound s reach
  rw [shown.seqInd, shown.steps, shown.window] at this
  simp [Protocol.Sender.standing] at this

end SegmentTransfer
