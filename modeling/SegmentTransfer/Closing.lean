import SegmentTransfer.HeaderCalls
import SegmentTransfer.SenderEnd

/-! # The closing loop

One array is both the end packet that is sent again and again and where the
answers are read. The loop ends with whatever `pkt_decode` accepts there: after
a read error that is the end packet itself, and a datagram that is refused is
sent in its place from then on.
-/

namespace SegmentTransfer

open Bytes Outcome

variable {crc32 : List UInt8 → UInt32} {ready : Ready} {it it' : Iteration} {s s' : Sender}

/-- The datagram is the encoding of `pkt_send`, a data packet without payload numbered `seq_exp`. -/
def Sender.IsEnd (crc32 : List UInt8 → UInt32) (s : Sender) (d : List UInt8) : Prop :=
  Carries s.pktSend ptypeData s.seqExp [] ∧ d = frame crc32 s.pktSend []

/-- What the closing loop sends. -/
def Sender.endPacket (s : Sender) : List UInt8 := s.packetEncoded.bytes.take s.tmp

/-- A datagram was read that decodes to an ACK. -/
def Sender.ReadsAck (crc32 : List UInt8 → UInt32) (s : Sender) (ready : Ready) : Prop :=
  ∃ d q, ready.sfd = some (some d) ∧
    pktDecode crc32 (s.packetEncoded.fill d) (min d.length 528) s.pktAck = .ok (.pktOk, q) ∧
    pktGetType q = ptypeAck

/-- What the closing loop reads, if anything, is a datagram that either is accepted as an ACK, or is
    refused and leaves the end packet in the array. -/
def Sender.AnswersAck (crc32 : List UInt8 → UInt32) (s : Sender) (ready : Ready) : Prop :=
  s.phase = .closing → ∀ result, ready.sfd = some result →
    ∃ d status q, result = some d ∧
      pktDecode crc32 (s.packetEncoded.fill d) (min d.length 528) s.pktAck = .ok (status, q) ∧
      ((status = .pktOk ∧ pktGetType q = ptypeAck) ∨
        (status ≠ .pktOk ∧ (s.packetEncoded.fill d).bytes.take s.tmp = s.endPacket))

/-- `pkt_send` is a data packet in every run, and in the closing loop the array holds the end
    packet. -/
structure Sender.Closes (crc32 : List UInt8 → UInt32) (s : Sender) : Prop where
  ranges : s.Ranges
  tr : s.pktSend.tr = 0
  type : pktGetType s.pktSend = ptypeData
  holds : s.phase = .closing → s.IsEnd crc32 s.endPacket

/-! ## The packet that is sent -/

theorem filePart_pktSend (h : filePart crc32 ready it = .ok it') :
    it'.sender.pktSend.tr = it.sender.pktSend.tr ∧
      pktGetType it'.sender.pktSend = pktGetType it.sender.pktSend := by
  rcases filePart_cases h with ⟨-, rfl⟩ | ⟨-, -, rfl⟩ | ⟨-, -, rfl⟩ | ⟨b, bs, -, -, sends⟩
  · exact ⟨rfl, rfl⟩
  · exact ⟨rfl, rfl⟩
  · exact ⟨rfl, rfl⟩
  · obtain ⟨slot, -, rest⟩ := bind_eq_ok.mp sends
    obtain ⟨e, encoded, rest⟩ := bind_eq_ok.mp rest
    obtain ⟨status, crc1, crc2, stamped⟩ := pktEncode_cases encoded
    obtain ⟨payload, kept⟩ := pktSetPayload_keeps it.sender.pktSend ((b :: bs).take maxPayloadSize)
      (UInt16.ofNat ((b :: bs).take maxPayloadSize).length)
    have same : e.pkt.tr = it.sender.pktSend.tr ∧
        pktGetType e.pkt = pktGetType it.sender.pktSend := by
      rw [stamped, pktSetSeqnum, kept]
      exact ⟨rfl, rfl⟩
    simp only [status, ne_eq, not_true_eq_false, if_false] at rest
    split at rest
    · cases rest
    · cases rest
      exact same

theorem replyPart_pktSend (ranges : it.sender.Ranges) (running : it.sender.phase ≠ .returned)
    (h : replyPart crc32 ready it = .ok it') :
    it'.sender.pktSend.tr = it.sender.pktSend.tr ∧
      pktGetType it'.sender.pktSend = pktGetType it.sender.pktSend := by
  rcases replyPart_moves ranges running h with
    ⟨-, q, buf, rfl⟩ | ⟨p, buf, -, ⟨-, rfl⟩ | ⟨-, resent⟩⟩
  · exact ⟨rfl, rfl⟩
  · exact pktSetWindow_keeps _ _
  · obtain ⟨buffer, buf', phase, eq, -⟩ := resent
    rw [eq]
    exact pktSetWindow_keeps _ _

namespace Sender

theorem buildEnd_holds (tr : s.pktSend.tr = 0) (type : pktGetType s.pktSend = ptypeData)
    (h : s.buildEnd crc32 ready = .ok s') :
    s'.pktSend.tr = 0 ∧ pktGetType s'.pktSend = ptypeData ∧ s'.IsEnd crc32 s'.endPacket := by
  have carries : Carries { s.pktSend with length := htons 0, seqnum := UInt8.ofNat s.seqExp }
      ptypeData s.seqExp [] := ⟨tr, type, rfl, rfl, fun nonempty => (nonempty rfl).elim⟩
  have room := @room_528 s.pktSend [] (Nat.zero_le _)
  have encoded := @pktEncode_eq crc32 528 ready.sendClock _ []
    (carries.readable (Nat.zero_le _)) room s.packetEncoded 528
  simp only [buildEnd, pktSetLength_fits s.pktSend (show (0 : UInt16).toNat ≤ maxPayloadSize from
    Nat.zero_le _), pktSetSeqnum, encoded, ok_bind, ne_eq, not_true_eq_false, if_false] at h
  cases h
  refine ⟨tr, type, ⟨tr, type, rfl, rfl, fun nonempty => (nonempty rfl).elim⟩, ?_⟩
  obtain ⟨rest, bytes⟩ := @fill_written 528 crc32
    { s.pktSend with
      length := htons 0, seqnum := UInt8.ofNat s.seqExp, timestamp := ready.sendClock.stamp }
    [] room s.packetEncoded
  rw [endPacket]
  simp only [bytes, List.take_left]
  rfl

theorem end_decoded (holds : s.IsEnd crc32 s.endPacket) :
    ∃ q, pktDecode crc32 (s.packetEncoded.fill []) (2 ^ 64 - 1) s.pktAck = .ok (.pktOk, q) := by
  obtain ⟨carries, frame_⟩ := holds
  have bytes : (s.packetEncoded.fill []).bytes =
      frame crc32 s.pktSend [] ++ s.packetEncoded.bytes.drop s.tmp := by
    rw [← frame_, endPacket, List.take_append_drop, Buf.fill_bytes _ (Nat.zero_le _)]
    rfl
  exact ⟨_, pktDecode_frame (carries.length_toNat (Nat.zero_le _) ▸ Nat.zero_le _)
    (carries.getLength_toNat (Nat.zero_le _)).symm bytes (by omega) s.pktAck⟩

section

variable {d : List UInt8} {status : PktStatusCode} {q : Pkt} (there : ready.sfd = some (some d))

include there

theorem readsAck_iff
    (decoded : pktDecode crc32 (s.packetEncoded.fill d) (min d.length 528) s.pktAck =
      .ok (.pktOk, q)) :
    s.ReadsAck crc32 ready ↔ pktGetType q = ptypeAck := by
  constructor
  · rintro ⟨d', q', there', decoded', ack⟩
    rw [there] at there'
    cases there'
    rw [decoded] at decoded'
    cases decoded'
    exact ack
  · exact fun ack => ⟨d, q, there, decoded, ack⟩

theorem answersAck_iff (closing : s.phase = .closing)
    (decoded : pktDecode crc32 (s.packetEncoded.fill d) (min d.length 528) s.pktAck =
      .ok (status, q)) :
    s.AnswersAck crc32 ready ↔ (status = .pktOk ∧ pktGetType q = ptypeAck) ∨
      (status ≠ .pktOk ∧ (s.packetEncoded.fill d).bytes.take s.tmp = s.endPacket) := by
  constructor
  · intro answers
    obtain ⟨d', status', q', same, decoded', outcome⟩ := answers closing (some d) there
    cases same
    rw [decoded] at decoded'
    cases decoded'
    exact outcome
  · rintro outcome _ result there'
    rw [there] at there'
    cases there'
    exact ⟨d, status, q, rfl, decoded, outcome⟩

end

/-- A pass of the closing loop sends the end packet, and sends it again or ends with an ACK exactly
    when it is answered by nothing or by an ACK. -/
theorem closingPass_iff {out : List (List UInt8)} (closing : s.phase = .closing)
    (holds : s.IsEnd crc32 s.endPacket) (h : s.closingPass crc32 ready = .ok (s', out)) :
    out = [s.endPacket] ∧
      ((s'.phase = .returned → s.ReadsAck crc32 ready) ∧
        (s'.phase = .closing → s'.IsEnd crc32 s'.endPacket) ↔ s.AnswersAck crc32 ready) := by
  have goes : s.phase ≠ .returned := by simp [closing]
  cases there : ready.sfd with
  | none =>
      simp only [closingPass, there] at h
      cases h
      refine ⟨rfl, iff_of_true ⟨fun gone => (goes gone).elim, fun _ => holds⟩ ?_⟩
      intro _ result some
      rw [there] at some
      cases some
  | some result =>
      simp only [closingPass, there] at h
      obtain ⟨⟨status, q⟩, decoded, rest⟩ := bind_eq_ok.mp h
      cases result with
      | none =>
          obtain ⟨q', accepted⟩ := end_decoded holds
          have same := accepted.symm.trans decoded
          cases same
          cases rest
          refine ⟨rfl, iff_of_false ?_ ?_⟩
          · rintro ⟨read, -⟩
            obtain ⟨d, q, some, -⟩ := read rfl
            rw [there] at some
            cases some
          · intro answers
            obtain ⟨d, -, -, some, -⟩ := answers closing none there
            cases some
      | some d =>
          simp only [Option.getD_some] at decoded rest
          rw [answersAck_iff there closing decoded]
          by_cases accepted : status = .pktOk
          · subst accepted
            cases rest
            rw [readsAck_iff there decoded]
            refine ⟨rfl, ?_⟩
            simp
          · rw [if_neg accepted] at rest
            cases rest
            refine ⟨rfl, ?_⟩
            constructor
            · rintro ⟨-, kept⟩
              exact .inr ⟨accepted, (kept closing).2.trans holds.2.symm⟩
            · rintro (⟨same, -⟩ | ⟨-, kept⟩)
              · exact (accepted same).elim
              · exact ⟨fun gone => (goes gone).elim, fun _ => ⟨holds.1, kept.trans holds.2⟩⟩

theorem Closes.start (crc32 : List UInt8 → UInt32) (file : Bool) (memory : Pkt) (buf : Buf 528) :
    (Sender.start file memory buf).Closes crc32 where
  ranges := .start file memory buf
  tr := rfl
  type := rfl
  holds := fun closing => by cases closing

theorem Closes.main {out : List (List UInt8)} (h : s.Closes crc32) (main : s.phase = .main)
    (passed : s.pass crc32 ready = .ok (s', out)) : s'.Closes crc32 := by
  have ranges := s.pass_ranges main h.ranges passed
  rcases s.pass_parts main passed with ⟨stays, it, read, rest⟩ | ⟨-, built⟩
  · have open_ : s'.phase ≠ .closing := by
      intro closing
      have ended := s.pass_stays main h.ranges passed closing
      simp [Sender.stays, ended] at stays
    obtain ⟨tr, type⟩ := filePart_pktSend read
    have tr₁ : it.sender.pktSend.tr = 0 := tr.trans h.tr
    have type₁ : pktGetType it.sender.pktSend = ptypeData := type.trans h.type
    rcases rest with ⟨-, rfl⟩ | ⟨running, it₁, replied, rest⟩
    · exact ⟨ranges, tr₁, type₁, fun closing => (open_ closing).elim⟩
    obtain ⟨tr, type⟩ := replyPart_pktSend (h.ranges.read read) running replied
    have tr₂ : it₁.sender.pktSend.tr = 0 := tr.trans tr₁
    have type₂ : pktGetType it₁.sender.pktSend = ptypeData := type.trans type₁
    rcases rest with ⟨-, rfl⟩ | ⟨-, it₂, timed, rfl⟩
    · exact ⟨ranges, tr₂, type₂, fun closing => (open_ closing).elim⟩
    · obtain ⟨buffer, buf, phase, eq, -⟩ := timerPart_resent timed
      refine ⟨ranges, ?_, ?_, fun closing => (open_ closing).elim⟩
      · rw [eq]
        exact tr₂
      · rw [eq]
        exact type₂
  · obtain ⟨tr, type, holds⟩ := buildEnd_holds h.tr h.type built
    exact ⟨ranges, tr, type, fun _ => holds⟩

theorem Closes.pass {out : List (List UInt8)} (h : s.Closes crc32)
    (answers : s.AnswersAck crc32 ready) (passed : s.pass crc32 ready = .ok (s', out)) :
    s'.Closes crc32 := by
  cases phase : s.phase with
  | main => exact h.main phase passed
  | closing =>
      rw [Sender.pass, phase] at passed
      have kept := ((closingPass_iff phase (h.holds phase) passed).2.mpr answers).2
      obtain ⟨buf, q, phase', rfl, -⟩ := Sender.closingPass_cases passed
      exact ⟨h.ranges.congr ⟨⟨rfl, rfl, rfl, rfl, rfl⟩, rfl, rfl⟩, h.tr, h.type, kept⟩
  | returned =>
      rw [Sender.pass, phase] at passed
      cases passed
      exact h

theorem Closes.of_reachable
    (reach : ((sendData crc32).restrict (Sender.AnswersAck crc32)).Reachable s) : s.Closes crc32 := by
  apply reach.induct
  · rintro _ ⟨file, memory, buf, rfl⟩
    exact .start crc32 file memory buf
  · rintro s ready s' closes ⟨⟨out, passed⟩, answers⟩
    exact closes.pass answers passed

end Sender

/-- In a run in which the closing loop is only answered by ACKs, or by datagrams that are refused and
    leave the end packet in the array, every datagram of the closing loop is the end packet, and it
    is sent again or the loop ends with an ACK exactly when this pass is answered so, too. -/
theorem closing_handshake
    (reach : ((sendData crc32).restrict (Sender.AnswersAck crc32)).Reachable s)
    (closing : s.phase = .closing) {out : List (List UInt8)}
    (passed : s.pass crc32 ready = .ok (s', out)) :
    (∃ d, out = [d] ∧ s.IsEnd crc32 d) ∧
      ((s'.phase = .returned → s.ReadsAck crc32 ready) ∧
        (s'.phase = .closing → s'.IsEnd crc32 s'.endPacket) ↔ s.AnswersAck crc32 ready) := by
  have closes := Sender.Closes.of_reachable reach
  rw [Sender.pass, closing] at passed
  obtain ⟨sent, goes⟩ := Sender.closingPass_iff closing (closes.holds closing) passed
  exact ⟨⟨_, sent, closes.holds closing⟩, goes⟩

theorem Sender.answersAck_frame {k window : Nat} {d : List UInt8}
    (framed : IsFrame crc32 ptypeAck k window [] d) (there : ready.sfd = some (some d)) :
    s.AnswersAck crc32 ready := by
  intro _ result read
  obtain ⟨-, fits, q, decoded, -, type, -⟩ :=
    framed.decode (Nat.zero_le _) s.packetEncoded s.pktAck
  refine ⟨d, .pktOk, q, (Option.some.inj (there.symm.trans read)).symm, ?_, .inl ⟨rfl, type⟩⟩
  rw [Nat.min_eq_left fits]
  exact decoded

theorem Sender.answersAck_admits (chunk : Nat → List UInt8) :
    Admits crc32 (Sender.AnswersAck crc32) chunk where
  chunks := by
    intro s a total shown acked room more closing result read
    cases read
  acks := fun shown low high framed => Sender.answersAck_frame framed rfl

/-- Three segments are sent and acknowledged, and an ACK answers the end packet. -/
theorem closing_handshake_sample : ∃ (s s' : Sender) (ready : Ready) (d : List UInt8),
    s.seqInd = 3 ∧ s.pass Crc.crc32 ready = .ok (s', [d]) ∧ s'.phase = .returned ∧
      s.IsEnd Crc.crc32 d ∧ s.ReadsAck Crc.crc32 ready := by
  obtain ⟨s, a, reach, shown, ended, sent⟩ := closing_begun (Sender.answersAck_admits seven)
    fun s ready main _ closing => by rw [main] at closing; cases closing
  have closing : s.phase = .closing := shown.phase.trans ended
  obtain ⟨-, answer, -, framed⟩ := sendAck_numbered Crc.crc32 (.inl rfl) 4
  let ready : Ready := .still none (some (some answer))
  have answered := @Sender.Shows.closingPass _ seven s a ready shown ended _ (.some framed)
  obtain ⟨⟨s', out⟩, passed, shown', -⟩ := answered.of_ok_right rfl
  have passed : s.pass Crc.crc32 ready = .ok (s', out) := by
    rw [Sender.pass, closing]
    exact passed
  obtain ⟨⟨d, rfl, isEnd⟩, goes⟩ := closing_handshake reach closing passed
  exact ⟨s, s', ready, d, shown.seqInd.trans sent, passed, shown'.phase, isEnd,
    (goes.mpr (Sender.answersAck_frame framed rfl)).1 shown'.phase⟩

/-- The first read of the closing loop fails, and the sender takes its own packet for the ACK. -/
theorem read_error_ends :
    ¬ ∀ (s s' : Sender) (ready : Ready) (out : List (List UInt8)),
      (sendData Crc.crc32).Reachable s → s.phase = .closing →
      s.pass Crc.crc32 ready = .ok (s', out) →
      (∃ d, out = [d] ∧ s.IsEnd Crc.crc32 d) ∧
        (s'.phase = .returned → s.ReadsAck Crc.crc32 ready) := by
  intro acked
  obtain ⟨s, a, reach, shown, ended, -⟩ := closing_begun (Sender.answersAck_admits seven)
    fun s ready main _ closing => by rw [main] at closing; cases closing
  have closing : s.phase = .closing := shown.phase.trans ended
  obtain ⟨q, decoded⟩ := Sender.end_decoded ((Sender.Closes.of_reachable reach).holds closing)
  have passed : s.pass Crc.crc32 (.still none (some none)) =
      .ok ({ s with packetEncoded := s.packetEncoded.fill [], pktAck := q, phase := .returned },
        [s.endPacket]) := by
    simp only [Sender.pass, closing, Sender.closingPass, Ready.still, Option.getD_none, decoded,
      ok_bind, if_true]
    rfl
  obtain ⟨d, -, some, -⟩ := (acked _ _ _ _ reach.of_restrict closing passed).2 rfl
  cases some

end SegmentTransfer
