import SegmentTransfer.Receiver

/-! # The sender

`send_data`, one pass of its two loops at a time. What `select`, `read` and
`gettimeofday` answer are inputs of a pass; allocations and writes succeed.
`adapt_rtt` works on a copy of `tv` and changes nothing the loop reads, so the
round-trip estimate is left out.
-/

namespace SegmentTransfer

open Bytes Outcome

/-- Where `send_data` is: its loop, the loop that sends the end packet, or gone. -/
inductive SenderPhase where
  | main
  | closing
  | returned
  deriving DecidableEq, Repr

/-- The variables of `send_data`. -/
structure Sender where
  /-- `file != NULL`. -/
  file : Bool
  phase : SenderPhase
  endFile : Bool
  smallSeq : Nat
  smallInd : Nat
  seqInd : Nat
  /-- As in the source, set once something was read. -/
  bufferEmpty : Bool
  seqExp : Nat
  window : Nat
  fail : Nat
  pktSend : Pkt
  pktAck : Pkt
  packetEncoded : Buf 528
  /-- The slots assigned so far. -/
  buffer : Nat → Option Pkt
  /-- `tmp` of the closing loop: the length of the end packet. -/
  tmp : Nat
  /-- For the proofs only: how often `adapt_buffer` has advanced `small_seq`. -/
  steps : Nat
  /-- For the proofs only: the sequence number of the last ACK processed. -/
  lastAck : Option Nat

/-- What one pass finds: the results of the two reads that `select` reports, the clock at each
    of the encodings and the memory that follows a header and its checksum in a slot. -/
structure Ready where
  fd : Option ReadResult
  sfd : Option ReadResult
  sendClock : Timeval
  replyClock : Timeval
  timerClock : Timeval
  memory : Nat → UInt8

/-- The variables local to a pass, and the datagrams it sends. -/
structure Iteration where
  sender : Sender
  sent : Bool
  ackReceived : Bool
  out : List (List UInt8)

/-- The loop of `adapt_buffer`, on `small_seq`, `small_ind` and `i`. -/
def adaptBuffer (smallSeq seq smallInd window : Nat) : Except Fault (Nat × Nat × Nat) :=
  whileLoop (fun v => v.1 != seq % 256)
    (fun v =>
      if window = 0 then .error .divisionByZero
      else .ok ((v.1 + 1) % 256, (v.2.1 + 1) % window, v.2.2 + 1))
    .loopSpent 256 (smallSeq, smallInd, 0)

/-- The index `i % window` of `buffer`. -/
def slotOf (i window : Nat) : Except Fault Nat :=
  if window = 0 then .error .divisionByZero
  else if i % window < maxWindowSize then .ok (i % window)
  else .error .slotIndex

theorem slotOf_eq {window : Nat} (positive : 0 < window) (fits : window ≤ maxWindowSize) (i : Nat) :
    slotOf i window = .ok (i % window) := by
  have inside : i % window < maxWindowSize := (Nat.mod_lt i positive).trans_le fits
  rw [slotOf, if_neg (Nat.ne_of_gt positive), if_pos inside]

theorem slotOf_ok {i window slot : Nat} (h : slotOf i window = .ok slot) :
    0 < window ∧ slot = i % window := by
  unfold slotOf at h
  split at h
  · cases h
  · split at h
    · cases h
      exact ⟨by omega, rfl⟩
    · cases h

/-- The index of `buffer` computed for a NACK: `seq` is a byte, so `seq += 256` leaves it as it is. -/
def nackSlot (s : Sender) : Except Fault Nat :=
  let seq := (pktGetSeqnum s.pktAck).toNat
  let index : Int := ((s.smallInd % s.window + seq : Nat) : Int) + ((seq : Int) - s.smallSeq)
  if s.window = 0 then .error .divisionByZero
  else if 0 ≤ index ∧ index < maxWindowSize then .ok index.toNat
  else .error .slotIndex

/-- The bytes at a slot's structure, as `write(sfd, buffer[index], tmp)` sends them. -/
def rawStruct (pkt : Pkt) (memory : Nat → UInt8) (len : Nat) : List UInt8 :=
  (pkt.header ++ le 4 pkt.crc1.toNat ++ (List.range len).map memory).take len

namespace Sender

def start (file : Bool) (memorySend : Pkt) (packetEncoded : Buf 528) : Sender :=
  let pktSend := (pktSetWindow (pktNew memorySend) 1).2
  { file, phase := .main, endFile := false, smallSeq := 0, smallInd := 0, seqInd := 0
    bufferEmpty := false, seqExp := 0, window := 1, fail := 0
    pktSend := pktSend, pktAck := pktCopy pktSend, packetEncoded
    buffer := fun _ => none, tmp := 0, steps := 0, lastAck := none }

/-- `isNotFull`. -/
def isNotFull (s : Sender) : Bool := (s.seqExp : Int) - s.smallSeq < s.window

/-- Whether the file is in the set given to `select`. -/
def fdSet (s : Sender) : Bool := !s.endFile && (!s.bufferEmpty || s.isNotFull)

end Sender

section

variable (crc32 : List UInt8 → UInt32)

/-- Encoding `buffer[slot]` into `packet_encoded`, which updates the packet in its slot. -/
def encodeSlot (clock : Timeval) (slot : Nat) (s : Sender) :
    Except Fault (Sender × Encoded 528) := do
  let pkt ← orFail .unfilledSlot (s.buffer slot)
  let e ← pktEncode crc32 clock pkt s.packetEncoded 528
  return ({ s with buffer := Function.update s.buffer slot (some e.pkt), packetEncoded := e.buf }, e)

/-- Sending `buffer[slot]` again. -/
def sendSlot (clock : Timeval) (slot : Nat) (it : Iteration) : Except Fault Iteration := do
  let encoded ← encodeSlot crc32 clock slot it.sender
  if encoded.2.status ≠ .pktOk then
    return { it with sender := { encoded.1 with phase := .returned } }
  return { it with
    sender := encoded.1
    out := it.out ++ [encoded.2.buf.bytes.take encoded.2.len] }

/-- A segment read from the file is stored in a slot and sent. -/
def sendChunk (clock : Timeval) (chunk : List UInt8) (it : Iteration) : Except Fault Iteration := do
  let s := { it.sender with bufferEmpty := true }
  let pktSend := (pktSetPayload s.pktSend chunk (UInt16.ofNat chunk.length)).2
  let pktSend := (pktSetSeqnum pktSend (UInt8.ofNat s.seqExp)).2
  let slot ← slotOf s.seqInd s.window
  let s := { s with buffer := Function.update s.buffer slot (some (pktCopy pktSend)) }
  let e ← pktEncode crc32 clock pktSend s.packetEncoded 528
  let s := { s with pktSend := e.pkt, packetEncoded := e.buf }
  if e.status ≠ .pktOk then return { it with sender := { s with phase := .returned } }
  if 2 ^ 31 ≤ s.seqInd + 1 then throw .intOverflow
  return { it with
    sender := { s with seqExp := (s.seqExp + 1) % 256, seqInd := s.seqInd + 1 }
    sent := true
    out := it.out ++ [e.buf.bytes.take e.len] }

/-- `if(FD_ISSET(fd, &read_set))`: at most 512 bytes are read. -/
def filePart (ready : Ready) (it : Iteration) : Except Fault Iteration :=
  if it.sender.fdSet = false then return it
  else
    match ready.fd with
    | none => return it
    | some none => return { it with sender := { it.sender with phase := .returned } }
    | some (some []) => return { it with sender := { it.sender with endFile := true } }
    | some (some (b :: bs)) => sendChunk crc32 ready.sendClock ((b :: bs).take maxPayloadSize) it

/-- `if(fail == 1)`: nothing ever sets it. -/
def failPart (ready : Ready) (it : Iteration) : Except Fault Iteration :=
  if it.sender.fail = 1 then do
    let slot ← slotOf it.sender.smallInd it.sender.window
    let it ← sendSlot crc32 ready.replyClock slot it
    return { it with sender := { it.sender with fail := 0 } }
  else return it

/-- What is done with an ACK. -/
def handleAck (ready : Ready) (it : Iteration) : Except Fault Iteration := do
  let s := it.sender
  let seq := (pktGetSeqnum s.pktAck).toNat
  let (smallSeq, smallInd, i) ← adaptBuffer s.smallSeq seq s.smallInd s.window
  let s := { s with smallSeq, smallInd, steps := s.steps + i, lastAck := some seq }
  let it ← failPart crc32 ready { it with sender := s }
  if it.sender.phase = .returned then return it
  if it.sender.endFile ∧ it.sender.smallInd = it.sender.seqExp then
    return { it with sender := { it.sender with bufferEmpty := false } }
  return it

/-- What is done with a NACK. -/
def handleNack (ready : Ready) (it : Iteration) : Except Fault Iteration := do
  let slot ← nackSlot it.sender
  let encoded ← encodeSlot crc32 ready.replyClock slot it.sender
  if encoded.2.status ≠ .pktOk then
    return { it with sender := { encoded.1 with phase := .returned } }
  -- between the two writes the number in the oldest slot is printed
  let oldest ← slotOf encoded.1.smallInd encoded.1.window
  let _ ← orFail .unfilledSlot (encoded.1.buffer oldest)
  return { it with
    sender := encoded.1
    out := it.out ++ [encoded.2.buf.bytes.take encoded.2.len,
      rawStruct encoded.2.pkt ready.memory encoded.2.len] }

/-- What is done with the reply in `pkt_ack`, however it came there. -/
def handleReply (ready : Ready) (it : Iteration) : Except Fault Iteration :=
  let s := it.sender
  let window1 := pktGetWindow s.pktAck
  let window := if window1 > s.window then window1 else s.window
  let s := { s with window, pktSend := (pktSetWindow s.pktSend (UInt8.ofNat window)).2 }
  let it := { it with sender := s, ackReceived := true }
  if pktGetType s.pktAck = ptypeAck then handleAck crc32 ready it
  else if pktGetType s.pktAck = ptypeNack then handleNack crc32 ready it
  else return it

/-- `if(FD_ISSET(sfd, &read_set))`: only a reply that was read is decoded, but one that was
    not is handled all the same. -/
def replyPart (ready : Ready) (it : Iteration) : Except Fault Iteration :=
  match ready.sfd with
  | none => return it
  | some result => do
      let reply := result.getD []
      let length := min reply.length 528
      let s := { it.sender with packetEncoded := it.sender.packetEncoded.fill reply }
      if length = 0 then handleReply crc32 ready { it with sender := s }
      else
        let decoded ← pktDecode crc32 s.packetEncoded length s.pktAck
        let it := { it with sender := { s with pktAck := decoded.2 } }
        if decoded.1 ≠ .pktOk then return it
        else handleReply crc32 ready it

/-- The retransmission timer. -/
def timerPart (ready : Ready) (it : Iteration) : Except Fault Iteration :=
  if it.sent = false ∧ it.ackReceived = false ∧ it.sender.file then do
    let slot ← slotOf it.sender.smallInd it.sender.window
    sendSlot crc32 ready.timerClock slot it
  else return it

namespace Sender

/-- A pass of the main loop. -/
def mainPass (ready : Ready) (s : Sender) : Except Fault Iteration := do
  let it ← filePart crc32 ready { sender := s, sent := false, ackReceived := false, out := [] }
  if it.sender.phase = .returned then return it
  let it ← replyPart crc32 ready it
  if it.sender.phase = .returned then return it
  timerPart crc32 ready it

/-- After the main loop, the end packet is built. -/
def buildEnd (ready : Ready) (s : Sender) : Except Fault Sender := do
  let pktSend := (pktSetLength s.pktSend 0).2
  let pktSend := (pktSetSeqnum pktSend (UInt8.ofNat s.seqExp)).2
  let e ← pktEncode crc32 ready.sendClock pktSend s.packetEncoded 528
  let s := { s with pktSend := e.pkt, packetEncoded := e.buf }
  if e.status ≠ .pktOk then return { s with phase := .returned }
  return { s with phase := .closing, tmp := e.len }

/-- A pass of the closing loop: the length is converted to `size_t`. -/
def closingPass (ready : Ready) (s : Sender) : Except Fault (Sender × List (List UInt8)) := do
  let out := [s.packetEncoded.bytes.take s.tmp]
  match ready.sfd with
  | none => return (s, out)
  | some result =>
      let length := match result with
        | none => 2 ^ 64 - 1
        | some reply => min reply.length 528
      let s := { s with packetEncoded := s.packetEncoded.fill (result.getD []) }
      let decoded ← pktDecode crc32 s.packetEncoded length s.pktAck
      let s := { s with pktAck := decoded.2 }
      if decoded.1 = .pktOk then return ({ s with phase := .returned }, out)
      return (s, out)

/-- `while(buffer_empty==1 || endFile == 0) { if(endFile == 1) break;`. -/
def stays (s : Sender) : Bool := (s.bufferEmpty || !s.endFile) && !s.endFile

/-- A pass of whichever loop the sender is in, with the datagrams it sends. -/
def pass (ready : Ready) (s : Sender) : Except Fault (Sender × List (List UInt8)) :=
  match s.phase with
  | .main =>
      if s.stays then do
        let it ← mainPass crc32 ready s
        return (it.sender, it.out)
      else do
        let s ← buildEnd crc32 ready s
        return (s, [])
  | .closing => closingPass crc32 ready s
  | .returned => return (s, [])

end Sender

end

end SegmentTransfer
