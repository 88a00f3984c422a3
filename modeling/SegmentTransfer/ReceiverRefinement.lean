import Mathlib.Data.List.Forall2
import SegmentTransfer.Datagram
import SegmentTransfer.Protocol

/-! # The receiver follows the protocol

`Shows` relates the variables of `receive_data` to the protocol's receiver:
indices and sequence numbers are the number of segments written modulo 3 and
256, and a slot holds the length and the bytes of its segment. Every pass keeps
it and sends the ACK the protocol sends.
-/

namespace SegmentTransfer

open Bytes Outcome

/-! ## Replies -/

theorem ofNat_window {window : Nat} (h : window ≤ maxWindowSize) :
    ¬ (UInt8.ofNat window).toNat > maxWindowSize ∧
      (BitVec.ofNat 5 (UInt8.ofNat window).toNat).toNat = window := by
  simp only [maxWindowSize] at *
  simp only [UInt8.toNat_ofNat', BitVec.toNat_ofNat]
  omega

theorem ofNat_mod (n : Nat) : UInt8.ofNat (n % 256) = UInt8.ofNat n := by
  apply UInt8.toNat_inj.mp
  simp only [UInt8.toNat_ofNat']
  omega

theorem ofInt_pred (k : Nat) : UInt8.ofInt ((k : Int) - 1 + 1) = UInt8.ofNat k := by
  apply UInt8.toNat_inj.mp
  rw [Int.sub_add_cancel, UInt8.ofInt]
  simp only [UInt8.toNat_ofNat']
  omega

/-- The packet `send_ack` encodes. -/
def replyPkt (pktAck : Pkt) (ack seq : Nat) (timeData : UInt32) (window : Nat) : Pkt :=
  { pktAck with
    seqnum := UInt8.ofNat seq, type := BitVec.ofNat 2 ack, timestamp := timeData
    window := BitVec.ofNat 5 (UInt8.ofNat window).toNat, length := htons 0, payload := .block [] }

theorem replyPkt_length (pktAck : Pkt) (ack seq : Nat) (timeData : UInt32) (window : Nat) :
    (ntohs (replyPkt pktAck ack seq timeData window).length).toNat = 0 ∧
      pktGetLength (replyPkt pktAck ack seq timeData window) = 0 := by
  have stored : ntohs (replyPkt pktAck ack seq timeData window).length = 0 := ntohs_htons 0
  refine ⟨by rw [stored]; rfl, ?_⟩
  rw [pktGetLength, stored, ite_self]

theorem replyPkt_encode (crc32 : List UInt8 → UInt32) (pktAck : Pkt) (ack seq : Nat)
    (timeData : UInt32) (window : Nat) (clock : Timeval) (stack : Buf 20) :
    ∃ e, pktEncode crc32 clock (replyPkt pktAck ack seq timeData window) stack 20 = .ok e ∧
      e.status = .pktOk ∧ e.pkt.payload = .block [] ∧
      e.buf.bytes.take e.len = frame crc32 (replyPkt pktAck ack seq clock.stamp window) [] := by
  let pkt := replyPkt pktAck ack seq timeData window
  have none : pktGetLength pkt = 0 := (replyPkt_length pktAck ack seq timeData window).2
  have room := @room_le 20 pkt [] (by simp)
  obtain ⟨rest, bytes⟩ :=
    @fill_written 20 crc32 (replyPkt pktAck ack seq clock.stamp window) [] room stack
  refine ⟨_, pktEncode_eq (read_bare none) room stack 20, rfl, rfl, ?_⟩
  exact bytes ▸ List.take_left

theorem pktSetType_reply {ack : Nat} (kind : ack = ptypeAck ∨ ack = ptypeNack) (pkt : Pkt)
    (set : PktStatusCode × Pkt) :
    (if ack = ptypeAck then pktSetType pkt ptypeAck
      else if ack = ptypeNack then pktSetType pkt ptypeNack else set) =
      (.pktOk, { pkt with type := BitVec.ofNat 2 ack }) := by
  rcases kind with rfl | rfl <;> rfl

theorem sendAck_eq (crc32 : List UInt8 → UInt32) (pktAck : Pkt) {ack : Nat}
    (kind : ack = ptypeAck ∨ ack = ptypeNack) {window : Nat} (fits : window ≤ maxWindowSize)
    {seqnum : Int} {seq : Nat} (numbered : UInt8.ofInt (seqnum + 1) = UInt8.ofNat seq)
    (clock : Timeval) (stack : Buf 20) (timeData : UInt32) {e : Encoded 20}
    (encoded : pktEncode crc32 clock (replyPkt pktAck ack seq timeData window) stack 20 = .ok e)
    (status : e.status = .pktOk) :
    sendAck crc32 clock stack pktAck seqnum ack timeData window =
      .ok (e.pkt, [e.buf.bytes.take e.len]) := by
  have payload := fun p : Pkt =>
    pktSetPayload_fits p [] (show (0 : UInt16).toNat ≤ maxPayloadSize by decide)
  unfold replyPkt at encoded
  simp only [sendAck, pktSetSeqnum, numbered, pktSetType_reply kind, pktSetTimestamp, pktSetWindow,
    (ofNat_window fits).1, if_false, payload, ne_eq, not_true_eq_false, List.take_nil, encoded,
    ok_bind, status]
  rfl

theorem sendAck_spec (crc32 : List UInt8 → UInt32) {pktAck : Pkt} (tr : pktAck.tr = 0) {ack : Nat}
    (kind : ack = ptypeAck ∨ ack = ptypeNack) {window : Nat} (fits : window ≤ maxWindowSize)
    {seqnum : Int} {seq : Nat} (numbered : UInt8.ofInt (seqnum + 1) = UInt8.ofNat seq)
    (clock : Timeval) (stack : Buf 20) (timeData : UInt32) :
    ∃ p d, sendAck crc32 clock stack pktAck seqnum ack timeData window = .ok (p, [d]) ∧
      p.tr = 0 ∧ IsFrame crc32 ack seq window [] d := by
  have typeOf : (BitVec.ofNat 2 ack).toNat = ack := by
    rcases kind with rfl | rfl <;> rfl
  have carries : Carries (replyPkt pktAck ack seq timeData window) ack seq [] :=
    ⟨tr, typeOf, rfl, rfl, fun h => (h rfl).elim⟩
  obtain ⟨e, encoded, status, kept, -, framed⟩ :=
    carries.encode (Nat.zero_le _) crc32 (show 16 + ([] : List UInt8).length ≤ 20 by simp) clock stack 20
  have window' : pktGetWindow (replyPkt pktAck ack seq timeData window) = window :=
    (ofNat_window fits).2
  rw [window'] at framed
  exact ⟨e.pkt, e.buf.bytes.take e.len,
    sendAck_eq crc32 pktAck kind fits numbered clock stack timeData encoded status, kept.tr, framed⟩

/-! ## The relation -/

/-- What a slot holds of the segment the protocol has there. -/
def ShowsSlot (chunk : Nat → List UInt8) (slots : Slots) (i : Nat) : Option Nat → Prop
  | none => slots.len i = -1
  | some n => slots.len i = (chunk n).length ∧ slots.payload i = .block (chunk n)

namespace Receiver

structure Shows (chunk : Nat → List UInt8) (r : Receiver) (a : Protocol.Receiver) : Prop where
  index : r.index = a.done % 3
  seqExp : r.seqExp = a.done % 256
  slots : ∀ i < 3, ShowsSlot chunk r.slots i (a.slots i)
  writes : r.writes = a.written.map chunk
  ackTr : r.pktAck.tr = 0
  endFile : r.endFile = a.endFile
  count : r.count = a.count
  returned : r.returned = a.returned

end Receiver

/-- A datagram to the receiver and what it stands for. -/
def ShowsItem (crc32 : List UInt8 → UInt32) (chunk : Nat → List UInt8) (d : List UInt8) :
    Protocol.Item → Prop
  | .seg n _ => chunk n ≠ [] ∧ (chunk n).length ≤ maxPayloadSize ∧
      ∃ window, IsFrame crc32 ptypeData n window (chunk n) d
  | .fin n => ∃ window, IsFrame crc32 ptypeData n window [] d

/-- A datagram to the sender and the ACK it is. -/
def ShowsAck (crc32 : List UInt8 → UInt32) (d : List UInt8) (a : Nat) : Prop :=
  IsFrame crc32 ptypeAck a receiverWindow [] d

/-- What a pass reads and what that stands for. -/
inductive ShowsArrival (crc32 : List UInt8 → UInt32) (chunk : Nat → List UInt8) :
    Option ReadResult → Option Protocol.Item → Prop where
  | none : ShowsArrival crc32 chunk none none
  | some {d item} : ShowsItem crc32 chunk d item → ShowsArrival crc32 chunk (some (some d)) (some item)

/-- The outcomes of a pass on both sides. -/
def ShowsReceived (crc32 : List UInt8 → UInt32) (chunk : Nat → List UInt8)
    (x : Receiver × List (List UInt8)) (y : Protocol.Receiver × List Nat) : Prop :=
  x.1.Shows chunk y.1 ∧ List.Forall₂ (ShowsAck crc32) x.2 y.2

variable {crc32 : List UInt8 → UInt32} {chunk : Nat → List UInt8}

theorem receivePacket_frame {n window : Nat} {body d : List UInt8}
    (framed : IsFrame crc32 ptypeData n window body d) (small : body.length ≤ maxPayloadSize)
    (r : Receiver) (clock : Timeval) (stack : Buf 20) :
    ∃ q, r.receivePacket crc32 clock stack (some d) =
        ({ r with packetEncoded := r.packetEncoded.fill d, pktRcv := q } : Receiver).handleData
          crc32 clock stack ∧
      pktGetTr q = 0 ∧ pktGetSeqnum q = UInt8.ofNat n ∧ (pktGetLength q).toNat = body.length ∧
      pktGetPayload q = if body = [] then .null else .block body := by
  obtain ⟨positive, fits, q, decoded, tr, type, -, seqnum, length, payload⟩ :=
    framed.decode small r.packetEncoded r.pktRcv
  refine ⟨q, ?_, tr, seqnum, length, payload⟩
  simp only [Receiver.receivePacket, Nat.min_eq_left fits, Nat.ne_of_gt positive, if_false, decoded,
    ok_bind, type, and_self, if_true]

theorem showsSlot_store {slots : Slots} {held : Nat → Option Nat}
    (h : ∀ i < 3, ShowsSlot chunk slots i (held i)) {j : Nat} {len : Int} {payload : Payload}
    {content : Option Nat} (here : ShowsSlot chunk (slots.store j len payload) j content) :
    ∀ i < 3, ShowsSlot chunk (slots.store j len payload) i (Function.update held j content i) := by
  intro i below
  by_cases same : i = j
  · rw [same, Function.update_self]
    exact here
  · have old := h i below
    rw [Function.update_of_ne same]
    revert old
    cases held i with
    | none => exact (Function.update_of_ne same ..).trans
    | some m =>
        rintro ⟨length, bytes⟩
        exact ⟨(Function.update_of_ne same ..).trans length, (Function.update_of_ne same ..).trans bytes⟩

namespace Receiver.Shows

variable {r : Receiver} {a : Protocol.Receiver}

theorem start (chunk : Nat → List UInt8) (memoryRcv memoryAck : Pkt) (buf : Buf 528) :
    Shows chunk (.start memoryRcv memoryAck buf) .start where
  index := rfl
  seqExp := rfl
  slots := fun i below => if_pos (by omega)
  writes := rfl
  ackTr := rfl
  endFile := rfl
  count := rfl
  returned := rfl

theorem occupied (h : Shows chunk r a) : r.occupied = a.occupied := by
  have here := h.slots (a.done % 3) (Nat.mod_lt _ (by decide))
  rw [Receiver.occupied, Protocol.Receiver.occupied, h.index]
  revert here
  cases a.slots (a.done % 3) with
  | none =>
      intro here
      rw [show r.slots.len _ = -1 from here]
      rfl
  | some n =>
      intro here
      simp only [here.1, Option.isSome_some, bne_iff_ne, ne_eq]
      omega

theorem writeSlot (h : Shows chunk r a) (occupied : a.occupied = true) :
    Agree (Shows chunk) (r.writeSlot receiverWindow) a.writeSlot := by
  have here := h.slots (a.done % 3) (Nat.mod_lt _ (by decide))
  rw [Protocol.Receiver.occupied] at occupied
  obtain ⟨n, held⟩ := Option.isSome_iff_exists.mp occupied
  rw [held] at here
  have body : (r.slots.payload (a.done % 3)).read? (r.slots.len (a.done % 3)).toNat =
      some (chunk n) := by
    rw [here.2, here.1, Int.toNat_natCast, Payload.read?, if_pos (Nat.le_refl _), List.take_length]
  simp only [Receiver.writeSlot, Protocol.Receiver.writeSlot, h.index, body, held, orFail_some,
    ok_bind]
  refine .ok
    { index := ?_, seqExp := ?_, slots := showsSlot_store h.slots (Function.update_self ..)
      writes := ?_, ackTr := h.ackTr
      endFile := h.endFile, count := h.count, returned := h.returned }
  · simp only [Protocol.Receiver.done, List.length_append, List.length_singleton, receiverWindow]
    omega
  · simp only [h.seqExp, Protocol.Receiver.done, List.length_append, List.length_singleton]
    omega
  · simp only [h.writes, List.map_append, List.map_singleton]

theorem drain (h : Shows chunk r a) :
    Agree (Shows chunk) (r.drain receiverWindow) a.drain :=
  Agree.whileLoop (fun _ _ related => related.occupied)
    (fun _ _ related enter => writeSlot related (related.occupied ▸ enter)) receiverWindow h

theorem place (h : Shows chunk r a) {n : Nat} (nonempty : chunk n ≠ [])
    (length : (pktGetLength r.pktRcv).toNat = (chunk n).length)
    (payload : pktGetPayload r.pktRcv = if chunk n = [] then .null else .block (chunk n)) :
    Shows chunk
      { r with
        slots := addBuffer r.index (UInt8.ofNat n).toNat r.seqExp r.pktRcv receiverWindow r.slots }
      (a.place n) := by
  have number : (UInt8.ofNat n).toNat = n % 256 := UInt8.toNat_ofNat' ..
  rw [Protocol.Receiver.place, addBuffer, number, h.index, h.seqExp]
  split
  · rw [length, payload, if_neg nonempty]
    exact
      { index := rfl, seqExp := rfl
        slots := showsSlot_store h.slots ⟨Function.update_self .., Function.update_self ..⟩
        writes := h.writes, ackTr := h.ackTr, endFile := h.endFile, count := h.count
        returned := h.returned }
  · exact
      { index := rfl, seqExp := rfl, slots := h.slots
        writes := h.writes, ackTr := h.ackTr, endFile := h.endFile, count := h.count
        returned := h.returned }

theorem reply (h : Shows chunk r a) (clock : Timeval) (stack : Buf 20) :
    ∃ r' d, r.reply crc32 clock stack ((r.seqExp : Int) - 1) ptypeAck = .ok (r', [d]) ∧
      Shows chunk r' a ∧ ShowsAck crc32 d a.done := by
  have number : UInt8.ofInt ((r.seqExp : Int) - 1 + 1) = UInt8.ofNat a.done := by
    rw [ofInt_pred, h.seqExp, ofNat_mod]
  obtain ⟨p, d, sent, tr, framed⟩ := sendAck_spec crc32 h.ackTr (.inl rfl)
    receiverWindow_fits number clock stack (pktGetTimestamp r.pktRcv)
  refine ⟨{ r with pktAck := p }, d, ?_, ?_, framed⟩
  · simp only [Receiver.reply, sent, ok_bind]
    rfl
  · exact { h with ackTr := tr }

theorem handleSegment (h : Shows chunk r a) (clock : Timeval) (stack : Buf 20) {n : Nat}
    (nonempty : chunk n ≠ []) (tr : pktGetTr r.pktRcv = 0)
    (seqnum : pktGetSeqnum r.pktRcv = UInt8.ofNat n)
    (length : (pktGetLength r.pktRcv).toNat = (chunk n).length)
    (payload : pktGetPayload r.pktRcv = if chunk n = [] then .null else .block (chunk n)) :
    Agree (ShowsReceived crc32 chunk) (r.handleData crc32 clock stack)
      (do let a ← (a.place n).drain; return (a, [a.done])) := by
  have full : pktGetLength r.pktRcv ≠ 0 := by
    intro zero
    rw [zero] at length
    exact nonempty (List.length_eq_zero_iff.mp length.symm)
  simp only [handleData, tr, seqnum, full, Nat.zero_ne_one, if_false]
  apply ((h.place nonempty length payload).drain).bind
  intro r' a' drained
  obtain ⟨r'', d, replied, shown, acked⟩ := @reply crc32 chunk r' a' drained clock stack
  rw [replied]
  exact .ok ⟨shown, .cons acked .nil⟩

/-- Every pass keeps the relation and sends the ACKs of the protocol. -/
theorem pass (h : Shows chunk r a) {arrival : Arrival} {item : Option Protocol.Item}
    (arrives : ShowsArrival crc32 chunk arrival.datagram item) :
    Agree (ShowsReceived crc32 chunk) (r.pass crc32 arrival) (a.pass item) := by
  simp only [Receiver.pass, Protocol.Receiver.pass, h.returned, h.endFile, h.count]
  split
  · exact .ok ⟨h, .nil⟩
  · split
    · generalize arrival.datagram = datagram at arrives
      cases arrives with
      | none => exact .ok ⟨h, .nil⟩
      | @some d item shown =>
          cases item with
          | seg n mark =>
              obtain ⟨nonempty, small, window, framed⟩ := shown
              obtain ⟨q, received, tr, seqnum, length, payload⟩ :=
                receivePacket_frame framed small r arrival.clock arrival.stack
              have stored : Shows chunk
                  { r with packetEncoded := r.packetEncoded.fill d, pktRcv := q } a := { h with }
              simp only [received]
              exact stored.handleSegment arrival.clock arrival.stack nonempty tr seqnum length payload
          | fin n =>
              obtain ⟨window, framed⟩ := shown
              obtain ⟨q, received, tr, -, length, -⟩ :=
                receivePacket_frame framed (Nat.zero_le _) r arrival.clock arrival.stack
              have empty : pktGetLength q = 0 := UInt16.toNat_inj.mp length
              simp only [received, handleData, tr, empty, Nat.zero_ne_one, if_false, if_true]
              exact .ok ⟨{ h with endFile := rfl }, .nil⟩
    · split
      · obtain ⟨r', d, replied, shown, acked⟩ := @reply crc32 chunk r a h arrival.clock arrival.stack
        simp only [replied, ok_bind]
        exact .ok ⟨{ shown with count := by rw [shown.count] }, .cons acked .nil⟩
      · exact .ok ⟨{ h with endFile := rfl, count := rfl, returned := rfl }, .nil⟩

end Receiver.Shows

end SegmentTransfer
