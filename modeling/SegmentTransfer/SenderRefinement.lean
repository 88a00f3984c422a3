import SegmentTransfer.ReceiverRefinement

/-! # The sender follows the protocol

`Shows` relates the variables of `send_data` to the protocol's sender: the two
sequence numbers are the counts modulo 256, and a slot holds the packet of its
segment. Given the same chunk, the same readiness and the frame of the same
ACK, a pass keeps it and sends the frames of the protocol's datagrams.
-/

namespace SegmentTransfer

open Bytes Outcome

/-! ## The loop of `adapt_buffer` -/

theorem adaptBuffer_spec {smallSeq seq smallInd window : Nat} (small : smallSeq < 256)
    (byte : seq < 256) (inside : smallInd < window) :
    adaptBuffer smallSeq seq smallInd window =
      .ok (seq, (smallInd + (seq + 256 - smallSeq) % 256) % window, (seq + 256 - smallSeq) % 256) := by
  let trace : Nat → Nat × Nat × Nat := fun i => ((smallSeq + i) % 256, (smallInd + i) % window, i)
  have begins : trace 0 = (smallSeq, smallInd, 0) := by
    simp only [trace, Nat.add_zero, Nat.mod_eq_of_lt small, Nat.mod_eq_of_lt inside]
  have ends : trace ((seq + 256 - smallSeq) % 256) =
      (seq, (smallInd + (seq + 256 - smallSeq) % 256) % window, (seq + 256 - smallSeq) % 256) := by
    simp only [trace, Prod.mk.injEq, and_true]
    omega
  rw [← ends, adaptBuffer, ← begins]
  apply whileLoop_trace trace (by omega)
  · intro i before
    constructor
    · simp only [trace, bne_iff_ne, ne_eq]
      omega
    · rw [if_neg (by omega)]
      simp only [trace, Nat.mod_add_mod, Nat.add_assoc]
  · simp only [trace, bne_eq_false_iff_eq]
    omega

/-! ## The relation -/

/-- What a slot holds of the segment the protocol has there. -/
def ShowsPkt (chunk : Nat → List UInt8) : Option Pkt → Option Nat → Prop
  | none, none => True
  | some p, some n =>
      Carries p ptypeData n (chunk n) ∧ chunk n ≠ [] ∧ (chunk n).length ≤ maxPayloadSize
  | _, _ => False

structure Sender.Shows (crc32 : List UInt8 → UInt32) (chunk : Nat → List UInt8) (s : Sender)
    (a : Protocol.Sender) : Prop where
  file : s.file = a.file
  phase : s.phase = a.phase
  endFile : s.endFile = a.endFile
  bufferEmpty : s.bufferEmpty = a.bufferEmpty
  window : s.window = a.window
  smallInd : s.smallInd = a.smallInd
  seqInd : s.seqInd = a.sent
  seqExp : s.seqExp = a.sent % 256
  smallSeq : s.smallSeq = a.acked % 256
  steps : s.steps = a.acked
  lastAck : s.lastAck = a.lastAck.map (· % 256)
  fail : s.fail = 0
  sendTr : s.pktSend.tr = 0
  sendType : pktGetType s.pktSend = ptypeData
  buffer : ∀ i, ShowsPkt chunk (s.buffer i) (a.slots i)
  inside : a.smallInd < a.window
  ending : a.phase = .closing →
    ∃ window, IsFrame crc32 ptypeData a.sent window [] (s.packetEncoded.bytes.take s.tmp)

/-- The two sides of a pass under way. -/
structure Iteration.Shows (crc32 : List UInt8 → UInt32) (chunk : Nat → List UInt8) (it : Iteration)
    (a : Protocol.Iteration) : Prop where
  sender : it.sender.Shows crc32 chunk a.sender
  main : a.sender.phase = .main
  sent : it.sent = a.sent
  ackReceived : it.ackReceived = a.ackReceived
  out : List.Forall₂ (ShowsItem crc32 chunk) it.out a.out

/-- What reading the next of `total` chunks gives. -/
def fileRead (chunk : Nat → List UInt8) (total sent : Nat) (fdReady : Bool) : Option ReadResult :=
  if fdReady then some (some (if sent = total then [] else chunk sent)) else none

/-- What is read from the socket, and the ACK it is with the window it advertises. -/
inductive ShowsReply (crc32 : List UInt8 → UInt32) :
    Option ReadResult → Option (Nat × Nat) → Prop where
  | none : ShowsReply crc32 none none
  | some {d a window} : IsFrame crc32 ptypeAck a window [] d →
      ShowsReply crc32 (some (some d)) (some (a, window))

variable {crc32 : List UInt8 → UInt32} {chunk : Nat → List UInt8}

theorem showsPkt_update {buffer : Nat → Option Pkt} {slots : Nat → Option Nat}
    (h : ∀ i, ShowsPkt chunk (buffer i) (slots i)) {j : Nat} {p : Option Pkt} {n : Option Nat}
    (here : ShowsPkt chunk p n) (i : Nat) :
    ShowsPkt chunk (Function.update buffer j p i) (Function.update slots j n i) := by
  by_cases same : i = j
  · rw [same, Function.update_self, Function.update_self]
    exact here
  · rw [Function.update_of_ne same, Function.update_of_ne same]
    exact h i

namespace Sender.Shows

variable {s : Sender} {a : Protocol.Sender}

theorem isNotFull (h : s.Shows crc32 chunk a) : s.isNotFull = a.isNotFull := by
  rw [Sender.isNotFull, Protocol.Sender.isNotFull, h.seqExp, h.smallSeq, h.window]

theorem fdSet (h : s.Shows crc32 chunk a) : s.fdSet = a.fdSet := by
  rw [Sender.fdSet, Protocol.Sender.fdSet, h.isNotFull, h.endFile, h.bufferEmpty]

theorem stays (h : s.Shows crc32 chunk a) : s.stays = a.stays := by
  rw [Sender.stays, Protocol.Sender.stays, h.endFile, h.bufferEmpty]

end Sender.Shows

namespace Iteration.Shows

variable {it : Iteration} {a : Protocol.Iteration}

theorem chunkPkt {p : Pkt} (tr : p.tr = 0) (type : pktGetType p = ptypeData) {n : Nat}
    {body : List UInt8} (small : body.length ≤ maxPayloadSize) :
    Carries (pktSetSeqnum (pktSetPayload p body (UInt16.ofNat body.length)).2 (UInt8.ofNat (n % 256))).2
      ptypeData n body := by
  have fits : (UInt16.ofNat body.length).toNat = body.length := by
    simp only [maxPayloadSize] at small
    rw [UInt16.toNat_ofNat']
    omega
  rw [pktSetPayload_fits p body (fits.symm ▸ small), fits, List.take_length]
  exact ⟨tr, type, ofNat_mod n, rfl, fun _ => rfl⟩

theorem sendChunk (h : it.Shows crc32 chunk a) (nonempty : chunk a.sender.sent ≠ [])
    (small : (chunk a.sender.sent).length ≤ maxPayloadSize) (clock : Timeval) :
    Agree (Iteration.Shows crc32 chunk) (sendChunk crc32 clock (chunk a.sender.sent) it)
      (Protocol.sendChunk a) := by
  have shown := h.sender
  have carries := @chunkPkt it.sender.pktSend shown.sendTr shown.sendType a.sender.sent _ small
  have room : 16 + (chunk a.sender.sent).length ≤ 528 := by
    simp only [maxPayloadSize] at small
    omega
  obtain ⟨e, encoded, status, kept, -, framed⟩ :=
    carries.encode small crc32 room clock it.sender.packetEncoded 528
  simp only [SegmentTransfer.sendChunk, Protocol.sendChunk, shown.seqInd, shown.window, shown.seqExp]
  cases slotOf a.sender.sent a.sender.window with
  | error fault => exact .error fault
  | ok slot =>
      simp only [ok_bind, encoded, status, ne_eq, not_true_eq_false, if_false]
      split
      · exact .error Fault.intOverflow
      · refine .ok
          { sender := ?_, main := h.main, sent := rfl, ackReceived := h.ackReceived
            out := List.rel_append h.out (.cons ⟨nonempty, small, _, framed⟩ .nil) }
        exact
          { shown with
            bufferEmpty := rfl
            window := rfl
            seqInd := rfl
            seqExp := by simp only [Nat.mod_add_mod]
            sendTr := kept.tr
            sendType := kept.type
            buffer := showsPkt_update shown.buffer ⟨carries, nonempty, small⟩
            ending := fun closing => by simp [h.main] at closing }

theorem filePart (h : it.Shows crc32 chunk a) {total : Nat}
    (chunks : a.sender.sent ≠ total →
      chunk a.sender.sent ≠ [] ∧ (chunk a.sender.sent).length ≤ maxPayloadSize)
    {ready : Ready} {fdReady : Bool}
    (read : ready.fd = fileRead chunk total a.sender.sent fdReady) :
    Agree (Iteration.Shows crc32 chunk) (filePart crc32 ready it)
      (Protocol.filePart total fdReady a) := by
  simp only [SegmentTransfer.filePart, Protocol.filePart, h.sender.fdSet, read, fileRead]
  split
  · exact .ok h
  · cases fdReady with
    | false => exact .ok h
    | true =>
        simp only [if_true, Bool.true_eq_false, if_false]
        by_cases ends : a.sender.sent = total
        · rw [if_pos ends, if_pos ends]
          exact .ok { h with sender := { h.sender with endFile := rfl } }
        · obtain ⟨nonempty, small⟩ := chunks ends
          have sends := h.sendChunk nonempty small ready.sendClock
          simp only [ends, if_false]
          cases content : chunk a.sender.sent with
          | nil => exact (nonempty content).elim
          | cons b bs =>
              rw [content] at sends small
              simp only [List.take_of_length_le small]
              exact sends

/-- An ACK moves the window as far as the counts modulo 256 tell. -/
theorem handleAck (h : it.Shows crc32 chunk a) {ack window : Nat} (ready : Ready)
    (type : pktGetType it.sender.pktAck = ptypeAck)
    (seqnum : pktGetSeqnum it.sender.pktAck = UInt8.ofNat ack)
    (advertised : pktGetWindow it.sender.pktAck = window) :
    Agree (Iteration.Shows crc32 chunk) (handleReply crc32 ready it)
      (.ok (Protocol.handleAck ack window a)) := by
  have shown := h.sender
  have number : (UInt8.ofNat ack).toNat = ack % 256 := UInt8.toNat_ofNat' ..
  have grown : a.sender.smallInd < (if window > a.sender.window then window else a.sender.window) := by
    have := shown.inside
    split <;> omega
  have moved := adaptBuffer_spec (Nat.mod_lt a.sender.acked (show 0 < 256 by decide))
    (Nat.mod_lt ack (show 0 < 256 by decide)) grown
  have notReturned : it.sender.phase ≠ .returned := by simp [shown.phase, h.main]
  simp only [handleReply, type, if_true, SegmentTransfer.handleAck, seqnum, advertised, number,
    shown.window, shown.smallSeq, shown.smallInd, moved, ok_bind, failPart, shown.fail, Nat.zero_ne_one,
    if_false, pure_eq_ok, notReturned, shown.endFile, shown.seqExp, Protocol.handleAck,
    Protocol.advance]
  generalize (if window > a.sender.window then window else a.sender.window) = wide at grown
  obtain ⟨tr, kept⟩ := pktSetWindow_keeps it.sender.pktSend (UInt8.ofNat wide)
  by_cases ends : a.sender.endFile = true ∧
      (a.sender.smallInd + (ack % 256 + 256 - a.sender.acked % 256) % 256) % wide =
        a.sender.sent % 256
  all_goals
    first
      | simp only [eq_true ends, if_true]
      | simp only [eq_false ends, if_false]
    refine .ok { sender := ?_, main := h.main, sent := h.sent, ackReceived := rfl, out := h.out }
    exact
      { shown with
        endFile := rfl, seqExp := rfl, bufferEmpty := by first | rfl | exact shown.bufferEmpty
        window := rfl, smallInd := rfl
        smallSeq := by
          show ack % 256 = _
          simp only
          omega
        steps := by rw [shown.steps]
        lastAck := rfl
        fail := rfl
        sendTr := tr.trans shown.sendTr
        sendType := kept.trans shown.sendType
        inside := Nat.mod_lt _ (Nat.zero_lt_of_lt grown)
        ending := fun closing => by simp [h.main] at closing }

theorem replyPart (h : it.Shows crc32 chunk a) {ready : Ready} {reply : Option (Nat × Nat)}
    (arrives : ShowsReply crc32 ready.sfd reply) :
    Agree (Iteration.Shows crc32 chunk) (replyPart crc32 ready it)
      (.ok (Protocol.replyPart reply a)) := by
  rw [SegmentTransfer.replyPart]
  generalize ready.sfd = sfd at arrives
  cases arrives with
  | none => exact .ok h
  | @some d ack window framed =>
      obtain ⟨positive, fits, q, decoded, -, type, advertised, seqnum, -, -⟩ :=
        framed.decode (Nat.zero_le _) it.sender.packetEncoded it.sender.pktAck
      simp only [Option.getD_some, Nat.min_eq_left fits, Nat.ne_of_gt positive, if_false, decoded,
        ok_bind, ne_eq, not_true_eq_false]
      refine handleAck ?_ ready type seqnum advertised
      exact { h with sender := { h.sender with ending := fun closing => by simp [h.main] at closing } }

/-- A slot is sent again with a new timestamp, so with new checksums. -/
theorem sendSlot (h : it.Shows crc32 chunk a) (clock : Timeval) (slot : Nat) :
    Agree (Iteration.Shows crc32 chunk) (sendSlot crc32 clock slot it)
      (do
        let n ← orFail Fault.unfilledSlot (a.sender.slots slot)
        return { a with out := a.out ++ [.seg n a.sender.sent] }) := by
  have shown := h.sender
  have here := shown.buffer slot
  simp only [SegmentTransfer.sendSlot, encodeSlot]
  cases held : it.sender.buffer slot with
  | none =>
      cases content : a.sender.slots slot with
      | none => exact .error Fault.unfilledSlot
      | some n =>
          rw [held, content] at here
          exact here.elim
  | some p =>
      cases content : a.sender.slots slot with
      | none =>
          rw [held, content] at here
          exact here.elim
      | some n =>
          rw [held, content] at here
          obtain ⟨carries, nonempty, small⟩ := here
          have room : 16 + (chunk n).length ≤ 528 := by
            simp only [maxPayloadSize] at small
            omega
          obtain ⟨e, encoded, status, kept, -, framed⟩ :=
            carries.encode small crc32 room clock it.sender.packetEncoded 528
          simp only [orFail_some, ok_bind, encoded, pure_eq_ok, status, ne_eq, not_true_eq_false,
            if_false]
          have kept' : ∀ i, ShowsPkt chunk (Function.update it.sender.buffer slot (some e.pkt) i)
              (a.sender.slots i) := by
            have := @showsPkt_update chunk _ _ shown.buffer slot (some e.pkt) (some n)
              ⟨kept, nonempty, small⟩
            rwa [← content, Function.update_eq_self] at this
          exact .ok
            { h with
              sender :=
                { shown with
                  buffer := kept'
                  ending := fun closing => by simp [h.main] at closing }
              out := List.rel_append h.out (.cons ⟨nonempty, small, _, framed⟩ .nil) }

theorem timerPart (h : it.Shows crc32 chunk a) (ready : Ready) :
    Agree (Iteration.Shows crc32 chunk) (timerPart crc32 ready it) (Protocol.timerPart a) := by
  have shown := h.sender
  simp only [SegmentTransfer.timerPart, Protocol.timerPart, h.sent, h.ackReceived, shown.file,
    shown.smallInd, shown.window]
  split
  · cases slotOf a.sender.smallInd a.sender.window with
    | error fault => exact .error fault
    | ok slot => exact h.sendSlot ready.timerClock slot
  · exact .ok h

end Iteration.Shows

/-- The outcomes of a pass on both sides. -/
def ShowsSent (crc32 : List UInt8 → UInt32) (chunk : Nat → List UInt8)
    (x : Sender × List (List UInt8)) (y : Protocol.Sender × List Protocol.Item) : Prop :=
  x.1.Shows crc32 chunk y.1 ∧ List.Forall₂ (ShowsItem crc32 chunk) x.2 y.2

namespace Sender.Shows

variable {s : Sender} {a : Protocol.Sender} {ready : Ready}

theorem start (crc32 : List UInt8 → UInt32) (chunk : Nat → List UInt8) (file : Bool) (memory : Pkt)
    (buf : Buf 528) : (Sender.start file memory buf).Shows crc32 chunk (.start file) where
  file := rfl
  phase := rfl
  endFile := rfl
  bufferEmpty := rfl
  window := rfl
  smallInd := rfl
  seqInd := rfl
  seqExp := rfl
  smallSeq := rfl
  steps := rfl
  lastAck := rfl
  fail := rfl
  sendTr := rfl
  sendType := rfl
  buffer := fun _ => trivial
  inside := Nat.zero_lt_one
  ending := fun closing => by cases closing

theorem mainPass (h : s.Shows crc32 chunk a) (main : a.phase = .main) {total : Nat}
    (chunks : a.sent ≠ total → chunk a.sent ≠ [] ∧ (chunk a.sent).length ≤ maxPayloadSize)
    {fdReady : Bool} (read : ready.fd = fileRead chunk total a.sent fdReady)
    {reply : Option (Nat × Nat)} (arrives : ShowsReply crc32 ready.sfd reply) :
    Agree (Iteration.Shows crc32 chunk) (s.mainPass crc32 ready) (a.mainPass total fdReady reply) := by
  have staying : ∀ {it : Iteration} {b : Protocol.Iteration}, it.Shows crc32 chunk b →
      it.sender.phase ≠ .returned := by
    intro it b shown
    simp [shown.sender.phase, shown.main]
  have begins : Iteration.Shows crc32 chunk
      { sender := s, sent := false, ackReceived := false, out := [] }
      { sender := a, sent := false, ackReceived := false, out := [] } :=
    { sender := h, main := main, sent := rfl, ackReceived := rfl, out := .nil }
  apply (begins.filePart chunks read).bind
  intro it b shown
  rw [if_neg (staying shown)]
  obtain ⟨it', replied, shown'⟩ := (shown.replyPart arrives).of_ok_right rfl
  simp only [replied, ok_bind, staying shown', if_false]
  exact shown'.timerPart ready

theorem buildEnd (h : s.Shows crc32 chunk a) (ready : Ready) :
    Agree (Sender.Shows crc32 chunk) (s.buildEnd crc32 ready) (.ok { a with phase := .closing }) := by
  have sized : pktSetLength s.pktSend 0 = (.pktOk, { s.pktSend with length := htons 0 }) :=
    pktSetLength_fits s.pktSend (by decide)
  have carries : Carries (pktSetSeqnum (pktSetLength s.pktSend 0).2 (UInt8.ofNat (a.sent % 256))).2
      ptypeData a.sent [] := by
    rw [sized]
    exact ⟨h.sendTr, h.sendType, ofNat_mod a.sent, rfl, fun nonempty => (nonempty rfl).elim⟩
  obtain ⟨e, encoded, status, kept, -, framed⟩ :=
    carries.encode (Nat.zero_le _) crc32 (show 16 + ([] : List UInt8).length ≤ 528 by simp)
      ready.sendClock s.packetEncoded 528
  simp only [Sender.buildEnd, h.seqExp, encoded, ok_bind, status, ne_eq, not_true_eq_false, if_false]
  exact .ok
    { h with
      phase := rfl, seqExp := rfl, sendTr := kept.tr, sendType := kept.type
      ending := fun _ => ⟨_, framed⟩ }

theorem closingPass (h : s.Shows crc32 chunk a) (closing : a.phase = .closing)
    {reply : Option (Nat × Nat)} (arrives : ShowsReply crc32 ready.sfd reply) :
    Agree (ShowsSent crc32 chunk) (s.closingPass crc32 ready)
      (if reply.isSome then .ok ({ a with phase := .returned }, [.fin a.sent])
        else .ok (a, [.fin a.sent])) := by
  have out : List.Forall₂ (ShowsItem crc32 chunk) [s.packetEncoded.bytes.take s.tmp] [.fin a.sent] :=
    .cons (h.ending closing) .nil
  simp only [Sender.closingPass]
  generalize ready.sfd = sfd at arrives
  cases arrives with
  | none => exact .ok ⟨h, out⟩
  | @some d ack window framed =>
      obtain ⟨positive, fits, q, decoded, -⟩ := framed.decode (Nat.zero_le _) s.packetEncoded s.pktAck
      simp only [Option.getD_some, Nat.min_eq_left fits, decoded, ok_bind, if_true]
      exact .ok ⟨{ h with phase := rfl, ending := fun again => by cases again }, out⟩

theorem pass (h : s.Shows crc32 chunk a) {total : Nat}
    (chunks : a.sent ≠ total → chunk a.sent ≠ [] ∧ (chunk a.sent).length ≤ maxPayloadSize)
    {fdReady : Bool} (read : ready.fd = fileRead chunk total a.sent fdReady)
    {reply : Option (Nat × Nat)} (arrives : ShowsReply crc32 ready.sfd reply) :
    Agree (ShowsSent crc32 chunk) (s.pass crc32 ready) (a.pass total fdReady reply) := by
  simp only [Sender.pass, Protocol.Sender.pass, h.phase, h.stays]
  cases phase : a.phase with
  | main =>
      simp only
      split
      · apply (h.mainPass phase chunks read arrives).bind
        exact fun it b shown => .ok ⟨shown.sender, shown.out⟩
      · obtain ⟨s', built, shown⟩ := (h.buildEnd ready).of_ok_right rfl
        rw [built]
        exact .ok ⟨shown, .nil⟩
  | closing => exact h.closingPass phase arrives
  | returned => exact .ok ⟨h, .nil⟩

end Sender.Shows

end SegmentTransfer
