import SegmentTransfer.SenderPointers
import SegmentTransfer.SenderEnd

/-! # No pointer of the sender dangles

Every pass of `send_data` with its pointers is that of the sender without blocks,
whatever comes from the file and from the socket: a slot's packet and its payload
are allocated whenever they are used. They still are when `send_data` returns,
and nothing points to them any more.
-/

namespace SegmentTransfer.Blocks

open Bytes Outcome

variable {crc32 : List UInt8 → UInt32} {ready : Ready}

/-! ## The parts of a pass -/

section

variable {it : Iteration}

theorem Sender.Sound.iteration (h : it.sender.Sound) : it.Viewed it.view :=
  ⟨h.viewed rfl, rfl, rfl, rfl⟩

theorem sendSlot_viewed (h : it.sender.Sound) (clock : Timeval) (slot : Nat) :
    Agree Iteration.Viewed (sendSlot crc32 clock slot it)
      (SegmentTransfer.sendSlot crc32 clock slot it.view) := by
  refine (h.encodeSlot clock slot).bind ?_
  rintro ⟨s, e⟩ ⟨v, e'⟩ ⟨sound, left, right, status, -⟩
  simp only at left right status
  subst left right
  simp only [status, ne_eq, not_true_eq_false, if_false]
  exact .ok ⟨sound.viewed rfl, rfl, rfl, rfl⟩

/-- The packet a chunk is placed in. -/
def Sender.chunkPkt (s : Sender) (chunk : List UInt8) : Pkt :=
  { s.pktSend with
    seqnum := UInt8.ofNat s.seqExp, length := htons (UInt16.ofNat chunk.length)
    payload := some s.table.next }

theorem setChunk_eq {s : Sender} (tr : s.pktSend.tr = 0) {chunk : List UInt8} (nonempty : chunk ≠ [])
    (fits : chunk.length ≤ maxPayloadSize) :
    setChunk chunk { s with bufferEmpty := true } =
        { s with
          bufferEmpty := true, pktSend := s.chunkPkt chunk
          table := s.table.replace false s.pktSend.payload chunk } ∧
      (SegmentTransfer.pktSetSeqnum (SegmentTransfer.pktSetPayload s.view.pktSend chunk
          (UInt16.ofNat chunk.length)).2 (UInt8.ofNat s.seqExp)).2 =
        (s.chunkPkt chunk).view (s.table.replace false s.pktSend.payload chunk) := by
  have length : (UInt16.ofNat chunk.length).toNat = chunk.length := by
    simp only [maxPayloadSize] at fits
    rw [UInt16.toNat_ofNat']
    omega
  have small : (UInt16.ofNat chunk.length).toNat ≤ maxPayloadSize := by
    rw [length]
    exact fits
  have nonzero : UInt16.ofNat chunk.length ≠ 0 := by
    intro zero
    rw [zero] at length
    exact nonempty (List.length_eq_zero_iff.mp length.symm)
  have whole : chunk.take (UInt16.ofNat chunk.length).toNat = chunk := by
    rw [length, List.take_length]
  constructor
  · have kept : decide (s.pktSend.tr ≠ 0 ∨ UInt16.ofNat chunk.length = 0) = false :=
      decide_eq_false (by simp [tr, nonzero])
    have payload := pktSetPayload_fits s.table s.pktSend chunk small
    rw [kept, whole] at payload
    simp only [setChunk, payload]
    rfl
  · have there : Table.at (s.table.replace false s.pktSend.payload chunk) (some s.table.next) =
        .block chunk := Table.at_block Heap.replace_get_self
    rw [SegmentTransfer.pktSetPayload_fits s.view.pktSend chunk small, whole]
    simp only [Pkt.view, Sender.chunkPkt, there]
    rfl

theorem sendChunk_viewed (h : it.sender.Sound) (clock : Timeval) {chunk : List UInt8}
    (nonempty : chunk ≠ []) (fits : chunk.length ≤ maxPayloadSize) :
    Agree Iteration.Viewed (sendChunk crc32 clock chunk it)
      (SegmentTransfer.sendChunk crc32 clock chunk it.view) := by
  let t := it.sender.table.replace false it.sender.pktSend.payload chunk
  let q := it.sender.chunkPkt chunk
  obtain ⟨set, viewed⟩ := setChunk_eq h.tr nonempty fits
  have payload : (q.view t).payload = .block chunk := Table.at_block Heap.replace_get_self
  unfold sendChunk storeChunk SegmentTransfer.sendChunk
  have scalars : it.view.sender.seqInd = it.sender.seqInd ∧
      it.view.sender.window = it.sender.window ∧ it.view.sender.seqExp = it.sender.seqExp ∧
      it.view.sender.packetEncoded = it.sender.packetEncoded ∧
      it.view.sender.pktSend = it.sender.view.pktSend := ⟨rfl, rfl, rfl, rfl, rfl⟩
  simp only [scalars, pktCopy, set, viewed]
  cases slotOf it.sender.seqInd it.sender.window with
  | error fault => exact .error fault
  | ok slot =>
      simp only [ok_bind]
      cases encoded : pktEncode crc32 clock (q.view t) it.sender.packetEncoded 528 with
      | error fault => exact .error fault
      | ok e =>
          obtain ⟨status, crc1, crc2, left⟩ := pktEncode_cases encoded
          simp only [ok_bind, pure_eq_ok, status, ne_eq, not_true_eq_false, if_false]
          split
          · exact .error _
          · have tr : e.pkt.tr = 0 := by
              rw [left]
              exact h.tr
            have sound : (it.sender.withChunk slot q chunk e.pkt e.buf).Sound := h.withChunk rfl tr
            have same := @Sender.Sound.withChunk_view it.sender slot q chunk e.pkt e.buf h rfl
              (by rw [left]; exact payload)
            exact .ok ⟨sound.viewed same.symm, rfl, rfl, rfl⟩

theorem filePart_viewed (h : it.sender.Sound) :
    Agree Iteration.Viewed (filePart crc32 ready it)
      (SegmentTransfer.filePart crc32 ready it.view) := by
  unfold filePart SegmentTransfer.filePart
  have fdSet : it.view.sender.fdSet = it.sender.view.fdSet := rfl
  rw [fdSet]
  split
  · exact .ok h.iteration
  cases ready.fd with
  | none => exact .ok h.iteration
  | some result =>
      cases result with
      | none => exact .ok ⟨h.leave_viewed rfl rfl, rfl, rfl, rfl⟩
      | some bytes =>
          cases bytes with
          | nil =>
              have ended : Sender.Sound { it.sender with endFile := true } := { h with }
              exact .ok ⟨ended.viewed rfl, rfl, rfl, rfl⟩
          | cons b bs =>
              apply sendChunk_viewed h
              · simp [maxPayloadSize]
              · rw [List.length_take]
                exact Nat.min_le_left ..

theorem timerPart_viewed (h : it.sender.Sound) :
    Agree Iteration.Viewed (timerPart crc32 ready it)
      (SegmentTransfer.timerPart crc32 ready it.view) := by
  have same : it.view.sent = it.sent ∧ it.view.ackReceived = it.ackReceived ∧
      it.view.sender.file = it.sender.file ∧ it.view.sender.smallInd = it.sender.smallInd ∧
      it.view.sender.window = it.sender.window := ⟨rfl, rfl, rfl, rfl, rfl⟩
  unfold timerPart SegmentTransfer.timerPart
  simp only [same]
  split
  · cases slotOf it.sender.smallInd it.sender.window with
    | error fault => exact .error fault
    | ok slot => exact sendSlot_viewed h _ slot
  · exact .ok h.iteration

/-! ## A reply -/

/-- A datagram is decoded into `pkt_ack`; the payload released, if any, was its own. -/
theorem Sender.Sound.decode {s : Sender} (h : s.Sound) (data : Buf 528) (len : Nat) :
    ∃ status q t', pktDecode crc32 data len s.pktAck s.table = .ok (status, q, t') ∧
      SegmentTransfer.pktDecode crc32 data len (s.pktAck.view s.table) = .ok (status, q.view t') ∧
      Sound { s with packetEncoded := data, pktAck := q, table := t' } ∧
      view { s with packetEncoded := data, pktAck := q, table := t' } =
        { s.view with packetEncoded := data, pktAck := q.view t' } := by
  obtain ⟨status, q, t', decoded, decoded', outcome⟩ := pktDecode_spec crc32 data len s.pktAck s.table
  refine ⟨status, q, t', decoded, decoded', ?_⟩
  rcases outcome with ⟨takes, payload, rfl⟩ | ⟨none, payload, rfl⟩
  · -- every other payload is kept
    have stays : ∀ {b bytes}, s.table.get b = some bytes → s.pktAck.payload ≠ some b →
        (s.table.taken data.bytes s.pktAck.payload).get b = some bytes :=
      fun block other => Heap.replace_get block fun _ => other
    have kept : ∀ {p}, s.table.Holds p → (∀ b, p = some b → s.pktAck.payload ≠ some b) →
        Table.at (s.table.taken data.bytes s.pktAck.payload) p = s.table.at p :=
      fun holds other => Table.at_replace holds _ (fun _ => other) _
    have sendApart : ∀ b, s.pktSend.payload = some b → s.pktAck.payload ≠ some b :=
      fun b pointer reply => h.apart b reply pointer
    constructor
    · exact
        { h with
          send := h.send.replace (fun _ => sendApart) _
          ack := payload ▸ s.table.holds_new _ _ _
          apart := by
            intro b reply pointer
            rw [payload] at reply
            exact h.send.ne_next (pointer.trans reply.symm)
          stored := by
            intro a p there
            obtain ⟨b, bytes, held, block, reply, last⟩ := h.stored a p there
            refine ⟨b, bytes, held, stays block reply, fun new => ?_, last⟩
            rw [payload] at new
            exact Nat.lt_irrefl _ (Option.some.inj new ▸ Heap.lt_next block) }
    · have slots : (fun i => (s.slot i).map (·.view (s.table.taken data.bytes s.pktAck.payload))) =
          s.view.buffer := by
        funext i
        cases held : s.buffer i with
        | none => simp only [view, slot, held, Option.bind_none, Option.map_none]
        | some a =>
            obtain ⟨p, there, here, viewed⟩ := h.behind held
            obtain ⟨b, bytes, pointer, block, reply, -⟩ := h.stored a p there
            have same := p.view_congr (kept (p := p.payload)
              (fun c equal => by
                cases pointer.symm.trans equal
                exact ⟨bytes, block⟩)
              (fun c equal => by
                cases pointer.symm.trans equal
                exact reply))
            rw [here, viewed, Option.map_some, same]
      have send := s.pktSend.view_congr (kept h.send sendApart)
      exact congrArg₂ (fun pktSend buffer => ({ s.view with
        packetEncoded := data, pktAck := q.view _, pktSend, buffer } : SegmentTransfer.Sender))
        send slots
  · exact ⟨{ h with ack := payload ▸ h.ack, apart := payload ▸ h.apart
                    stored := fun a p there => by
                      simp only [Stored, payload]
                      exact h.stored a p there }, rfl⟩

theorem failPart_viewed (h : it.sender.Sound) :
    Agree Iteration.Viewed (failPart crc32 ready it)
      (SegmentTransfer.failPart crc32 ready it.view) := by
  have same : it.view.sender.fail = it.sender.fail ∧ it.view.sender.smallInd = it.sender.smallInd ∧
      it.view.sender.window = it.sender.window := ⟨rfl, rfl, rfl⟩
  unfold failPart SegmentTransfer.failPart
  simp only [same]
  split
  · cases slotOf it.sender.smallInd it.sender.window with
    | error fault => exact .error fault
    | ok slot =>
        refine (sendSlot_viewed h _ slot).bind ?_
        rintro it' v ⟨seen, same⟩
        refine .ok ⟨{ phase := seen.phase, seqInd := seen.seqInd, running := fun run => ?_,
                      gone := fun gone => { seen.gone gone with } }, same⟩
        obtain ⟨sound, viewed⟩ := seen.running run
        exact ⟨{ sound with }, by simp only [viewed]; rfl⟩
  · exact .ok h.iteration

theorem handleAck_viewed (h : it.sender.Sound) :
    Agree Iteration.Viewed (handleAck crc32 ready it)
      (SegmentTransfer.handleAck crc32 ready it.view) := by
  have same : it.view.sender.smallSeq = it.sender.smallSeq ∧
      it.view.sender.smallInd = it.sender.smallInd ∧ it.view.sender.window = it.sender.window ∧
      (pktGetSeqnum it.view.sender.pktAck).toNat = it.sender.pktAck.seqnum.toNat ∧
      it.view.sender.steps = it.sender.steps := ⟨rfl, rfl, rfl, rfl, rfl⟩
  unfold handleAck SegmentTransfer.handleAck
  simp only [same]
  cases adaptBuffer it.sender.smallSeq it.sender.pktAck.seqnum.toNat it.sender.smallInd
      it.sender.window with
  | error fault => exact .error fault
  | ok moved =>
      obtain ⟨smallSeq, smallInd, i⟩ := moved
      simp only [ok_bind]
      let it' : Iteration := { it with
        sender := { it.sender with
          smallSeq, smallInd, steps := it.sender.steps + i
          lastAck := some it.sender.pktAck.seqnum.toNat } }
      have moved : it'.sender.Sound := { h with }
      refine (@failPart_viewed crc32 ready it' moved).bind ?_
      rintro it' v ⟨seen, same⟩
      rw [seen.phase]
      by_cases gone : it'.sender.phase = .returned
      · rw [if_pos gone, if_pos gone]
        exact .ok ⟨seen, same⟩
      · obtain ⟨sound, viewed⟩ := seen.running gone
        rw [if_neg gone, if_neg gone, viewed]
        have scalars : it'.sender.view.endFile = it'.sender.endFile ∧
          it'.sender.view.smallInd = it'.sender.smallInd ∧
          it'.sender.view.seqExp = it'.sender.seqExp := ⟨rfl, rfl, rfl⟩
        simp only [scalars]
        split
        · have emptied : Sender.Sound { it'.sender with bufferEmpty := false } := { sound with }
          exact .ok ⟨emptied.viewed rfl, same⟩
        · exact .ok ⟨seen, same⟩

theorem handleNack_viewed (h : it.sender.Sound) :
    Agree Iteration.Viewed (handleNack crc32 ready it)
      (SegmentTransfer.handleNack crc32 ready it.view) := by
  unfold handleNack SegmentTransfer.handleNack
  have sender : it.view.sender = it.sender.view := rfl
  rw [sender]
  cases nackSlot it.sender.view with
  | error fault => exact .error fault
  | ok slot =>
      refine (h.encodeSlot _ slot).bind ?_
      rintro ⟨s, e⟩ ⟨v, e'⟩ ⟨sound, left, right, status, -⟩
      simp only at left right status
      subst left right
      have same : s.view.smallInd = s.smallInd ∧ s.view.window = s.window := ⟨rfl, rfl⟩
      simp only [status, ne_eq, not_true_eq_false, if_false, same]
      cases slotOf s.smallInd s.window with
      | error fault => exact .error fault
      | ok oldest =>
          have behind : s.view.buffer oldest = (s.slot oldest).map (·.view s.table) := rfl
          simp only [ok_bind, behind]
          cases s.slot oldest with
          | none => exact .error _
          | some p => exact .ok ⟨sound.viewed rfl, rfl, rfl, rfl⟩

theorem handleReply_viewed (h : it.sender.Sound) :
    Agree Iteration.Viewed (handleReply crc32 ready it)
      (SegmentTransfer.handleReply crc32 ready it.view) := by
  have same : pktGetWindow it.view.sender.pktAck = it.sender.pktAck.window.toNat ∧
      it.view.sender.window = it.sender.window ∧
      pktGetType it.view.sender.pktAck = it.sender.pktAck.type.toNat := ⟨rfl, rfl, rfl⟩
  unfold handleReply SegmentTransfer.handleReply
  simp only [same]
  generalize (if it.sender.pktAck.window.toNat > it.sender.window then
    it.sender.pktAck.window.toNat else it.sender.window) = window
  let q := it.sender.pktSend.put
    (pktSetWindow (it.sender.pktSend.view it.sender.table) (UInt8.ofNat window)).2
  have payload : (pktSetWindow (it.sender.pktSend.view it.sender.table) (UInt8.ofNat window)).2.payload =
      it.sender.table.at it.sender.pktSend.payload := by
    unfold pktSetWindow
    split <;> rfl
  have viewed : q.view it.sender.table =
      (pktSetWindow (it.sender.pktSend.view it.sender.table) (UInt8.ofNat window)).2 :=
    Pkt.put_view payload
  let it' : Iteration := { it with
    sender := { it.sender with window, pktSend := q }, ackReceived := true }
  have sound : it'.sender.Sound :=
    { h.setSend (q := q) ((pktSetWindow_keeps _ _).1.trans h.tr) rfl with }
  have view : it'.view = { it.view with
      sender := { it.view.sender with
        window, pktSend := (pktSetWindow it.view.sender.pktSend (UInt8.ofNat window)).2 }
      ackReceived := true } := by
    simp only [Iteration.view, Sender.view, it', viewed]
    rfl
  rw [← view]
  split
  · exact handleAck_viewed sound
  · split
    · exact handleNack_viewed sound
    · exact .ok sound.iteration

theorem replyPart_viewed (h : it.sender.Sound) :
    Agree Iteration.Viewed (replyPart crc32 ready it)
      (SegmentTransfer.replyPart crc32 ready it.view) := by
  unfold replyPart SegmentTransfer.replyPart
  cases ready.sfd with
  | none => exact .ok h.iteration
  | some result =>
      have same : it.view.sender.packetEncoded = it.sender.packetEncoded ∧
        it.view.sender.pktAck = it.sender.pktAck.view it.sender.table := ⟨rfl, rfl⟩
      simp only [same]
      split
      · have read : Sender.Sound { it.sender with
            packetEncoded := it.sender.packetEncoded.fill (result.getD []) } := { h with }
        exact @handleReply_viewed crc32 ready { it with sender := _ } read
      · obtain ⟨status, q, t', decoded, decoded', sound, viewed⟩ :=
          @Sender.Sound.decode crc32 it.sender h (it.sender.packetEncoded.fill (result.getD []))
            (min (result.getD []).length 528)
        let it' : Iteration := { it with sender := { it.sender with
          packetEncoded := it.sender.packetEncoded.fill (result.getD []), pktAck := q
          table := t' } }
        have view : it'.view = { it.view with sender := { it.view.sender with
            packetEncoded := it.sender.packetEncoded.fill (result.getD [])
            pktAck := q.view t' } } := by
          simp only [Iteration.view, it', viewed]
        simp only [decoded, decoded', ok_bind]
        rw [← view]
        split
        · exact .ok sound.iteration
        · exact handleReply_viewed sound

end

/-! ## A pass -/

namespace Sender

variable {s : Sender}

theorem Sound.mainPass (h : s.Sound) :
    Agree Iteration.Viewed (s.mainPass crc32 ready) (s.view.mainPass crc32 ready) := by
  unfold Sender.mainPass SegmentTransfer.Sender.mainPass
  have opening := @filePart_viewed crc32 ready
    { sender := s, sent := false, ackReceived := false, out := [] } h
  refine opening.bind ?_
  rintro it v seen
  rw [seen.sender.phase]
  by_cases gone : it.sender.phase = .returned
  · rw [if_pos gone, if_pos gone]
    exact .ok seen
  obtain ⟨sound, viewed⟩ := seen.viewed gone
  subst viewed
  rw [if_neg gone, if_neg gone]
  refine (replyPart_viewed sound).bind ?_
  rintro it' v seen
  rw [seen.sender.phase]
  by_cases gone : it'.sender.phase = .returned
  · rw [if_pos gone, if_pos gone]
    exact .ok seen
  obtain ⟨sound, viewed⟩ := seen.viewed gone
  subst viewed
  rw [if_neg gone, if_neg gone]
  exact timerPart_viewed sound

theorem Sound.buildEnd (h : s.Sound) :
    Agree Viewed (s.buildEnd crc32 ready) (s.view.buildEnd crc32 ready) := by
  let q : Pkt := { s.pktSend with length := htons 0, seqnum := UInt8.ofNat s.seqExp }
  have set : (pktSetSeqnum (pktSetLength s.view.pktSend 0).2 (UInt8.ofNat s.seqExp)).2 =
      q.view s.table := by
    rw [pktSetLength_fits _ (show (0 : UInt16).toNat ≤ maxPayloadSize by decide)]
    rfl
  have put : (s.pktSend.put (pktSetLength (s.pktSend.view s.table) 0).2).put (pktSetSeqnum
      ((s.pktSend.put (pktSetLength (s.pktSend.view s.table) 0).2).view s.table)
      (UInt8.ofNat s.seqExp)).2 = q := by
    rw [pktSetLength_fits _ (show (0 : UInt16).toNat ≤ maxPayloadSize by decide)]
    rfl
  have same : s.view.seqExp = s.seqExp ∧ s.view.packetEncoded = s.packetEncoded := ⟨rfl, rfl⟩
  unfold Sender.buildEnd SegmentTransfer.Sender.buildEnd
  simp only [same, set, put]
  cases encoded : pktEncode crc32 ready.sendClock (q.view s.table) s.packetEncoded 528 with
  | error fault => exact .error fault
  | ok e =>
      obtain ⟨status, crc1, crc2, left⟩ := pktEncode_cases encoded
      simp only [ok_bind, status, ne_eq, not_true_eq_false, if_false]
      have tr : (q.put e.pkt).tr = 0 := by
        rw [show (q.put e.pkt).tr = e.pkt.tr from rfl, left]
        exact h.tr
      have sound : Sound { s with
          pktSend := q.put e.pkt, packetEncoded := e.buf, phase := .closing, tmp := e.len } :=
        { h.setSend tr rfl with running := fun gone => by cases gone }
      have viewed : (q.put e.pkt).view s.table = e.pkt := by
        apply Pkt.put_view
        rw [left]
        rfl
      exact .ok (sound.viewed (by simp only [view, viewed]; rfl))

theorem Sound.answered (h : s.Sound) (data : Buf 528) (len : Nat) (out : List (List UInt8)) :
    Agree (fun x y => x.1.Viewed y.1 ∧ y.2 = x.2)
      (do
        let decoded ← pktDecode crc32 data len s.pktAck s.table
        let s := { s with packetEncoded := data, pktAck := decoded.2.1, table := decoded.2.2 }
        if decoded.1 = .pktOk then return (s.leave, out)
        return (s, out))
      (do
        let decoded ← SegmentTransfer.pktDecode crc32 data len s.view.pktAck
        let v := { s.view with packetEncoded := data, pktAck := decoded.2 }
        if decoded.1 = .pktOk then return ({ v with phase := .returned }, out)
        return (v, out)) := by
  obtain ⟨status, q, t', decoded, decoded', sound, viewed⟩ := @Sound.decode crc32 s h data len
  have same : s.view.pktAck = s.pktAck.view s.table := rfl
  simp only [same, decoded, decoded', ok_bind]
  split
  · exact .ok ⟨sound.leave_viewed rfl rfl, rfl⟩
  · exact .ok ⟨sound.viewed viewed.symm, rfl⟩

theorem Sound.closingPass (h : s.Sound) :
    Agree (fun x y => x.1.Viewed y.1 ∧ y.2 = x.2) (s.closingPass crc32 ready)
      (s.view.closingPass crc32 ready) := by
  unfold Sender.closingPass SegmentTransfer.Sender.closingPass
  cases ready.sfd with
  | none => exact .ok ⟨h.viewed rfl, rfl⟩
  | some result =>
      cases result with
      | none => exact h.answered _ _ _
      | some reply => exact h.answered _ _ _

theorem Viewed.pass {v : SegmentTransfer.Sender} (seen : s.Viewed v) :
    Agree (fun x y => x.1.Viewed y.1 ∧ y.2 = x.2) (s.pass crc32 ready) (v.pass crc32 ready) := by
  cases phase : s.phase with
  | returned =>
      simp only [Sender.pass, SegmentTransfer.Sender.pass, seen.phase, phase]
      exact .ok ⟨seen, rfl⟩
  | main =>
      obtain ⟨sound, rfl⟩ := seen.running (by simp [phase])
      simp only [Sender.pass, SegmentTransfer.Sender.pass, seen.phase, phase]
      split
      · refine sound.mainPass.bind ?_
        rintro it v seen
        exact .ok ⟨seen.sender, seen.same.2.2⟩
      · refine sound.buildEnd.bind ?_
        rintro s' v seen
        exact .ok ⟨seen, rfl⟩
  | closing =>
      obtain ⟨sound, rfl⟩ := seen.running (by simp [phase])
      simp only [Sender.pass, SegmentTransfer.Sender.pass, seen.phase, phase]
      exact sound.closingPass

end Sender

/-- The whole of `send_data`, whatever it reads from the file and from the socket. -/
def senderPasses (crc32 : List UInt8 → UInt32) : Transition Sender Ready where
  init s := ∃ file memory buf, s = .start file memory buf
  step s ready s' := ∃ out, s.pass crc32 ready = .ok (s', out)

theorem sender_simulated (crc32 : List UInt8 → UInt32) :
    Transition.Simulates (senderPasses crc32) (sendData crc32) Sender.Viewed where
  init := by
    rintro _ ⟨file, memory, buf, rfl⟩
    exact ⟨_, ⟨file, memory, buf, rfl⟩, (Sender.Sound.start file memory buf).viewed rfl⟩
  step := by
    rintro s v ready s' seen ⟨out, passed⟩
    obtain ⟨⟨v', out'⟩, passed', seen', -⟩ := seen.pass.of_ok_left passed
    exact ⟨v', ⟨out', passed'⟩, seen'⟩

theorem sender_simulates (crc32 : List UInt8 → UInt32) :
    Transition.Simulates (sendData crc32) (senderPasses crc32)
      (fun v s => s.Viewed v) where
  init := by
    rintro _ ⟨file, memory, buf, rfl⟩
    exact ⟨_, ⟨file, memory, buf, rfl⟩, (Sender.Sound.start file memory buf).viewed rfl⟩
  step := by
    rintro v s ready v' seen ⟨out, passed⟩
    obtain ⟨⟨s', out'⟩, passed', seen', -⟩ := seen.pass.of_ok_right passed
    exact ⟨s', ⟨out', passed'⟩, seen'⟩

variable {s : Sender}

/-- Whatever comes from the file and from the socket, a running `send_data` is viewed as one without
    blocks that runs likewise, and behind every pointer of `buffer` are a packet and a payload that
    are allocated. -/
theorem slots_allocated (reach : (senderPasses crc32).Reachable s) (running : s.phase ≠ .returned) :
    (sendData crc32).Reachable s.view ∧
      ∀ i a, s.buffer i = some a → ∃ p b bytes, s.packets.get a = some p ∧ p.payload = some b ∧
        s.table.get b = some bytes ∧ s.view.buffer i = some (p.view s.table) := by
  obtain ⟨v, reach', seen⟩ := (sender_simulated crc32).reachable reach
  obtain ⟨sound, rfl⟩ := seen.running running
  refine ⟨reach', fun i a pointer => ?_⟩
  obtain ⟨p, there, -, viewed⟩ := sound.behind pointer
  obtain ⟨b, bytes, payload, block, -⟩ := sound.stored a p there
  exact ⟨p, b, bytes, there, payload, block, viewed⟩

theorem two_sent : ∃ v a, (sendData Crc.crc32).Reachable v ∧
    v.Shows Crc.crc32 seven a ∧ a.phase = .main ∧ a.stays = true ∧ a.fdSet = true ∧ a.sent = 2 := by
  obtain ⟨slots, v, reach, shown⟩ :=
    Leads.rounds (Leads.inRange_admits Crc.crc32 seven) sevens Nat.two_pos (by omega)
  exact ⟨v, _, (senderLoop_sendData reach).of_restrict, shown, rfl, rfl, rfl, rfl⟩

theorem slots_allocated_sample : ∃ s : Sender, s.seqInd = 2 ∧ (sendData Crc.crc32).Reachable s.view := by
  obtain ⟨v, a, reach, shown, main, -, -, sent⟩ := two_sent
  obtain ⟨s, reach', seen⟩ := (sender_simulates Crc.crc32).reachable reach
  have running : s.phase ≠ .returned := by
    rw [← seen.phase, shown.phase, main]
    simp
  exact ⟨s, seen.seqInd.symm.trans (shown.seqInd.trans sent), (slots_allocated reach' running).1⟩

end SegmentTransfer.Blocks
