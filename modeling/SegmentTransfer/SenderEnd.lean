import SegmentTransfer.SendWindow

/-! # How the sender ends

The main loop is left in the pass after the one that reads the end of the file,
whatever is outstanding then. Only when the end is read with nothing left to be
acknowledged does the end packet follow the acknowledgement of every segment.
-/

namespace SegmentTransfer

open Bytes Outcome

variable {crc32 : List UInt8 → UInt32} {ready : Ready} {it it' : Iteration}

/-- All of `send_data`, pass by pass. -/
def sendData (crc32 : List UInt8 → UInt32) : Transition Sender Ready where
  init s := ∃ file memory buf, s = .start file memory buf
  step s ready s' := ∃ out, s.pass crc32 ready = .ok (s', out)

/-- Every segment sent was acknowledged. -/
def Sender.Drained (s : Sender) : Prop := s.smallSeq = s.seqExp ∧ s.seqInd ≤ s.steps

/-- How far the reply of this pass moves the window. -/
def Sender.moves (crc32 : List UInt8 → UInt32) (ready : Ready) (s : Sender) : Nat :=
  match handled crc32 ready s.begin with
  | some p => if pktGetType p = ptypeAck then s.ahead p else 0
  | none => 0

/-- The end of the file is only read when the reply of the same pass, if there is one, leaves
    nothing to be acknowledged. -/
def Sender.EndsDrained (crc32 : List UInt8 → UInt32) (s : Sender) (ready : Ready) : Prop :=
  s.phase = .main → s.fdSet = true → ready.fd = some (some []) →
    (s.smallSeq + s.moves crc32 ready) % 256 = s.seqExp ∧
      s.seqInd ≤ s.steps + s.moves crc32 ready

/-- The window was moved by `n`, and no segment was added. -/
structure Sender.MovedBy (n : Nat) (s s' : Sender) : Prop where
  seqExp : s'.seqExp = s.seqExp
  seqInd : s'.seqInd = s.seqInd
  smallSeq : s'.smallSeq = (s.smallSeq + n) % 256
  steps : s'.steps = s.steps + n
  endFile : s'.endFile = s.endFile
  phase : s'.phase = s.phase ∨ s'.phase = .returned

namespace Sender.MovedBy

variable {s s' s'' : Sender} {n : Nat}

theorem of_same (ranges : s.Ranges) (same : s.SameCounters s') (endFile : s'.endFile = s.endFile)
    (phase : s'.phase = s.phase ∨ s'.phase = .returned) : s.MovedBy 0 s' where
  seqExp := same.seqExp
  seqInd := same.seqInd
  smallSeq := by
    have small := ranges.counts.smallSeq
    rw [same.smallSeq]
    omega
  steps := same.steps
  endFile := endFile
  phase := phase

theorem resent (h : s.MovedBy n s') (resent : s'.Resent s'') : s.MovedBy n s'' := by
  obtain ⟨buffer, buf, phase, rfl, which⟩ := resent
  refine ⟨h.seqExp, h.seqInd, h.smallSeq, h.steps, h.endFile, ?_⟩
  rcases which with rfl | rfl
  · exact h.phase
  · exact .inr rfl

theorem drained_iff (h : s.MovedBy n s') :
    s'.Drained ↔ (s.smallSeq + n) % 256 = s.seqExp ∧ s.seqInd ≤ s.steps + n := by
  rw [Drained, h.smallSeq, h.seqExp, h.seqInd, h.steps]

end Sender.MovedBy

theorem replyPart_moved {s : Sender} (ranges : s.Ranges) (running : s.phase ≠ .returned)
    (h : replyPart crc32 ready s.begin = .ok it') :
    s.MovedBy (s.moves crc32 ready) it'.sender := by
  unfold Sender.moves
  rcases @replyPart_moves crc32 ready s.begin it' ranges running h with
    ⟨nothing, q, buf, rfl⟩ | ⟨p, buf, some, ⟨ack, rfl⟩ | ⟨other, resent⟩⟩
  · rw [nothing]
    exact .of_same ranges ⟨rfl, rfl, rfl, rfl, rfl⟩ rfl (.inl rfl)
  · rw [some]
    simp only [ack, if_true]
    have byte := (pktGetSeqnum p).toNat_lt
    have small := ranges.counts.smallSeq
    have number : (pktGetSeqnum p).toNat = (s.smallSeq + s.ahead p) % 256 := by
      unfold Sender.ahead
      omega
    exact ⟨rfl, rfl, number, rfl, rfl, .inl rfl⟩
  · rw [some]
    simp only [other, if_false]
    have widened : s.MovedBy 0 (s.withReply p buf).widened := by
      have small := ranges.counts.smallSeq
      have number : s.smallSeq = (s.smallSeq + 0) % 256 := by omega
      exact ⟨rfl, rfl, number, rfl, rfl, .inl rfl⟩
    exact widened.resent resent

theorem filePart_ends {s : Sender} (fresh : s.endFile = false)
    (read : filePart crc32 ready s.begin = .ok it) (running : it.sender.phase ≠ .returned)
    (ended : it.sender.endFile = true) :
    s.fdSet = true ∧ ready.fd = some (some []) ∧ it = { s with endFile := true }.begin := by
  rcases filePart_cases read with ⟨-, rfl⟩ | ⟨-, -, rfl⟩ | ⟨set, ends, rfl⟩ | ⟨b, bs, -, -, sends⟩
  · exact (Bool.false_ne_true (fresh.symm.trans ended)).elim
  · exact (running rfl).elim
  · exact ⟨set, ends, rfl⟩
  · obtain ⟨pktSend, buffer, buf, rfl | ⟨out, rfl⟩⟩ := sendChunk_cases sends
    · exact (running rfl).elim
    · exact (Bool.false_ne_true (fresh.symm.trans ended)).elim

/-- After the pass that reads the end of the file everything is acknowledged exactly when the
    reply of that pass leaves nothing to be. -/
theorem Sender.pass_drained_iff {s s' : Sender} {out : List (List UInt8)} (main : s.phase = .main)
    (ranges : s.Ranges) (fresh : s.endFile = false) (h : s.pass crc32 ready = .ok (s', out))
    (running : s'.phase ≠ .returned) (ended : s'.endFile = true) :
    s'.Drained ↔ s.EndsDrained crc32 ready := by
  rcases s.pass_parts main h with ⟨-, it, read, rest⟩ | ⟨leaves, -⟩
  · rcases rest with ⟨gone, rfl⟩ | ⟨reading, it₁, replied, rest⟩
    · exact (running gone).elim
    have start := ranges.read read
    have kept := (replyPart_ranges start reading replied).2.endFile
    have resent : it₁.sender.Resent s' := by
      rcases rest with ⟨-, rfl⟩ | ⟨-, it₂, timed, rfl⟩
      · exact .refl _
      · exact timerPart_resent timed
    rw [resent.endFile, kept] at ended
    obtain ⟨set, ends, rfl⟩ := filePart_ends fresh read reading ended
    have moved := (replyPart_moved start reading replied).resent resent
    rw [moved.drained_iff]
    constructor
    · intro drained _ _ _
      exact drained
    · intro drained
      exact drained main set ends
  · simp [Sender.stays, fresh] at leaves

theorem Sender.closingPass_cases {s s' : Sender} {out : List (List UInt8)}
    (h : s.closingPass crc32 ready = .ok (s', out)) :
    ∃ buf q phase, s' = { s with packetEncoded := buf, pktAck := q, phase } ∧
      (phase = s.phase ∨ phase = .returned) := by
  simp only [Sender.closingPass] at h
  split at h
  · cases h
    exact ⟨_, _, _, rfl, .inl rfl⟩
  · obtain ⟨decoded, -, rest⟩ := bind_eq_ok.mp h
    split at rest
    · cases rest
      exact ⟨_, _, _, rfl, .inr rfl⟩
    · cases rest
      exact ⟨_, _, _, rfl, .inl rfl⟩

/-- What holds in a run in which the end of the file is read with nothing outstanding. -/
structure Sender.Orderly (s : Sender) : Prop where
  ranges : s.Ranges
  drained : s.endFile = true → s.phase ≠ .returned → s.Drained
  closing : s.phase = .closing → s.endFile = true

theorem Sender.Orderly.start (file : Bool) (memory : Pkt) (buf : Buf 528) :
    (Sender.start file memory buf).Orderly where
  ranges := .start file memory buf
  drained := fun ended => by cases ended
  closing := fun closing => by cases closing

theorem filePart_phase (h : filePart crc32 ready it = .ok it') :
    it'.sender.phase = it.sender.phase ∨ it'.sender.phase = .returned := by
  rcases filePart_cases h with ⟨-, rfl⟩ | ⟨-, -, rfl⟩ | ⟨-, -, rfl⟩ | ⟨b, bs, -, -, sends⟩
  · exact .inl rfl
  · exact .inr rfl
  · exact .inl rfl
  · obtain ⟨pktSend, buffer, buf, rfl | ⟨out, rfl⟩⟩ := sendChunk_cases sends
    · exact .inr rfl
    · exact .inl rfl

theorem Sender.pass_stays {s s' : Sender} {out : List (List UInt8)} (main : s.phase = .main)
    (ranges : s.Ranges) (h : s.pass crc32 ready = .ok (s', out)) (closing : s'.phase = .closing) :
    s.endFile = true := by
  rcases s.pass_parts main h with ⟨-, it, read, rest⟩ | ⟨leaves, -⟩
  · have reads := filePart_phase read
    rw [show s.begin.sender.phase = .main from main] at reads
    rcases rest with ⟨gone, rfl⟩ | ⟨reading, it₁, replied, rest⟩
    · rw [gone] at closing
      cases closing
    have start := ranges.read read
    have replies := (replyPart_ranges start reading replied).2.phase
    rcases rest with ⟨gone, rfl⟩ | ⟨running, it₂, timed, rfl⟩
    · rw [gone] at closing
      cases closing
    have timer := (timerPart_resent timed).phase
    rw [closing, replies.resolve_right running, reads.resolve_right reading] at timer
    rcases timer with other | other <;> cases other
  · cases ended : s.endFile with
    | false => simp [Sender.stays, ended] at leaves
    | true => rfl

theorem Sender.Orderly.pass {s s' : Sender} {out : List (List UInt8)} (h : s.Orderly)
    (ends : s.EndsDrained crc32 ready) (passed : s.pass crc32 ready = .ok (s', out)) :
    s'.Orderly := by
  cases phase : s.phase with
  | main =>
      have ranges := s.pass_ranges phase h.ranges passed
      cases ended : s.endFile with
      | false =>
          refine ⟨ranges, ?_, ?_⟩
          · intro now running
            exact (s.pass_drained_iff phase h.ranges ended passed running now).mpr ends
          · intro closing
            have := s.pass_stays phase h.ranges passed closing
            rw [ended] at this
            cases this
      | true =>
          rcases s.pass_parts phase passed with ⟨stays, -⟩ | ⟨-, built⟩
          · simp [Sender.stays, ended] at stays
          · obtain ⟨pktSend, buf, phase', tmp, rfl, -⟩ := Sender.buildEnd_cases built
            have drained := h.drained ended (by simp [phase])
            exact ⟨ranges, fun _ _ => drained, fun _ => ended⟩
  | closing =>
      rw [Sender.pass, phase] at passed
      obtain ⟨buf, q, phase', rfl, -⟩ := Sender.closingPass_cases passed
      have ended := h.closing phase
      have drained := h.drained ended (by simp [phase])
      have ranges := @Sender.Ranges.congr s { s with packetEncoded := buf, pktAck := q, phase := phase' }
        h.ranges ⟨⟨rfl, rfl, rfl, rfl, rfl⟩, rfl, rfl⟩
      exact ⟨ranges, fun _ _ => drained, fun _ => ended⟩
  | returned =>
      rw [Sender.pass, phase] at passed
      cases passed
      exact h

/-- When the end of the file is only read with nothing outstanding, the end packet is only sent
    once every segment is acknowledged. -/
theorem ends_drained {s : Sender}
    (reach : ((sendData crc32).restrict (Sender.EndsDrained crc32)).Reachable s)
    (closing : s.phase = .closing) : s.smallSeq = s.seqExp ∧ s.seqInd ≤ s.steps := by
  have orderly : s.Orderly := by
    apply reach.induct
    · rintro _ ⟨file, memory, buf, rfl⟩
      exact .start file memory buf
    · rintro s ready s' orderly ⟨⟨out, passed⟩, ends⟩
      exact orderly.pass ends passed
  exact orderly.drained (orderly.closing closing) (by simp [closing])

namespace Protocol.Sender

variable {a n : Nat} {slots : Nat → Option Nat}

theorem end_standing (test : ((n % 256 : Nat) : Int) - (a % 256 : Nat) < 3) :
    (standing a n slots).pass n true none = .ok ({ standing a n slots with endFile := true }, []) := by
  let it : Iteration :=
    { sender := { standing a n slots with endFile := true }, sent := false, ackReceived := false
      out := [] }
  have read : filePart n true (begin (standing a n slots)) = .ok it := by
    have set : (begin (standing a n slots)).sender.fdSet = true := standing_fdSet test
    rw [filePart, if_neg (by simp [set]), if_neg (by simp)]
    exact if_pos rfl
  exact pass_main it rfl rfl read rfl

theorem leave_ended {s : Sender} {total : Nat} {fdReady : Bool} {reply : Option (Nat × Nat)}
    (main : s.phase = .main) (ended : s.endFile = true) :
    s.pass total fdReady reply = .ok ({ s with phase := .closing }, []) := by
  have leaves : s.stays = false := by simp [stays, ended]
  simp only [pass, main, leaves]
  rfl

theorem end_answered (test : ((n % 256 : Nat) : Int) - (a % 256 : Nat) < 3) (k : Nat) :
    ∃ s, (standing a n slots).pass n true (some (k, receiverWindow)) = .ok (s, []) ∧
      s.phase = .main ∧ s.endFile = true ∧ s.sent = n := by
  let it : Iteration :=
    { sender := { standing a n slots with endFile := true }, sent := false, ackReceived := false
      out := [] }
  have read : filePart n true (begin (standing a n slots)) = .ok it := by
    have set : (begin (standing a n slots)).sender.fdSet = true := standing_fdSet test
    rw [filePart, if_neg (by simp [set]), if_neg (by simp)]
    exact if_pos rfl
  exact ⟨_, pass_main (handleAck k receiverWindow it) rfl rfl read rfl, rfl, rfl, rfl⟩

end Protocol.Sender

theorem senderLoop_sendData {C : Sender → Ready → Prop} {s : Sender}
    (reach : ((senderLoop crc32).restrict C).Reachable s) :
    ((sendData crc32).restrict C).Reachable s := by
  apply reach.induct
  · intro s start
    exact .of_init start
  · rintro s ready s' before ⟨⟨-, passed⟩, meets⟩
    exact before.step ⟨passed, meets⟩

theorem Sender.Shows.moves_ack {chunk : Nat → List UInt8} {s : Sender} {a : Protocol.Sender}
    (h : s.Shows crc32 chunk a) {k window : Nat} {d : List UInt8}
    (framed : IsFrame crc32 ptypeAck k window [] d) (there : ready.sfd = some (some d)) :
    s.moves crc32 ready = Protocol.advance a.acked k := by
  obtain ⟨p, read, ack, -, seqnum⟩ := handled_frame framed there s.begin
  rw [Sender.moves, read]
  simp only [ack, if_true, Sender.ahead, seqnum, h.smallSeq, UInt8.toNat_ofNat', Protocol.advance]

theorem Sender.endsDrained_admits {chunk : Nat → List UInt8}
    (chunks : ∀ n, chunk n ≠ [] ∧ (chunk n).length ≤ maxPayloadSize) :
    Admits crc32 (Sender.EndsDrained crc32) chunk where
  chunks := by
    intro s a total shown acked room more main set nothing
    simp only [Ready.still, fileRead, if_true, more, if_false, Option.some.injEq] at nothing
    exact ((chunks _).1 nothing).elim
  acks := by
    intro s a k d shown low high framed main set nothing
    cases nothing

theorem closing_begun {C : Sender → Ready → Prop} (admits : Admits Crc.crc32 C seven)
    (meets : ∀ s ready, s.phase = .main → s.EndsDrained Crc.crc32 ready → C s ready) :
    ∃ s a, ((sendData Crc.crc32).restrict C).Reachable s ∧ s.Shows Crc.crc32 seven a ∧
      a.phase = .closing ∧ a.sent = 3 := by
  obtain ⟨slots, leads, -⟩ := Leads.onward admits sevens Nat.two_pos (by omega)
  obtain ⟨d, framed⟩ : ∃ d, IsFrame Crc.crc32 ptypeAck 3 receiverWindow [] d := by
    obtain ⟨-, d, -, framed⟩ := sendAck_numbered Crc.crc32 (.inl rfl) 3
    exact ⟨d, framed⟩
  obtain ⟨a, ended, main, endFile, sent⟩ :=
    @Protocol.Sender.end_answered 2 3 slots (by omega) 3
  have last := leads.pass rfl sevens (.some framed) ended fun s shown => by
    apply meets s _ shown.phase
    intro _ _ _
    rw [shown.moves_ack framed rfl, shown.smallSeq, shown.seqExp, shown.seqInd, shown.steps]
    show (2 % 256 + Protocol.advance 2 3) % 256 = 3 % 256 ∧ 3 ≤ 2 + Protocol.advance 2 3
    decide
  have left := last.pass main sevens .none
    (@Protocol.Sender.leave_ended a 3 false none main endFile)
    fun s shown => meets s _ (shown.phase.trans main) fun _ _ nothing => by cases nothing
  obtain ⟨s, reach, shown⟩ := left
  exact ⟨s, _, senderLoop_sendData reach, shown, rfl, sent⟩

/-- Three segments were sent, and the last ACK is read with the end of the file. -/
theorem ends_drained_sample : ∃ s : Sender, s.phase = .closing ∧ s.seqInd = 3 ∧
    s.smallSeq = s.seqExp ∧ s.seqInd ≤ s.steps := by
  obtain ⟨s, a, reach, shown, closing, sent⟩ :=
    closing_begun (Sender.endsDrained_admits sevens) fun _ _ _ drained => drained
  have closing : s.phase = .closing := shown.phase.trans closing
  exact ⟨s, closing, shown.seqInd.trans sent, ends_drained reach closing⟩

/-- The end of the file is read while the second segment is outstanding, and the loop is left. -/
theorem ends_outstanding :
    ¬ ∀ s, (sendData Crc.crc32).Reachable s → s.phase = .closing →
      s.smallSeq = s.seqExp ∧ s.seqInd ≤ s.steps := by
  intro orderly
  obtain ⟨slots, leads⟩ :=
    Leads.rounds (Leads.inRange_admits Crc.crc32 seven) sevens Nat.one_pos (by omega)
  have sent := leads.read rfl sevens
    (@Protocol.Sender.read_standing 2 1 1 slots (by omega) (by omega) (by omega))
  have ended := sent.read rfl sevens (Protocol.Sender.end_standing (by omega))
  obtain ⟨s, reach, shown⟩ := ended.read rfl sevens (@Protocol.Sender.leave_ended _ 2 _ _ rfl rfl)
  have drained := orderly s (senderLoop_sendData reach).of_restrict shown.phase
  rw [shown.seqInd, shown.steps] at drained
  have none : (2 : Nat) ≤ 1 := drained.2
  omega

end SegmentTransfer
