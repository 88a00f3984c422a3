import SegmentTransfer.Blocks
import SegmentTransfer.Sender

/-! # The sender's blocks

`send_data` with its pointers: `buffer` has addresses of packets from `pkt_new`,
and packets have addresses of payloads. A packet in `buffer` shares its payload
with `pkt_send` until the next chunk is read. Nothing ever releases one of them
while `send_data` runs.
-/

namespace SegmentTransfer.Blocks

open Bytes Outcome

/-- The variables of `send_data`, with the pointers in `buffer` and the two tables of blocks. -/
structure Sender where
  file : Bool
  phase : SenderPhase
  endFile : Bool
  smallSeq : Nat
  smallInd : Nat
  seqInd : Nat
  bufferEmpty : Bool
  seqExp : Nat
  window : Nat
  fail : Nat
  pktSend : Pkt
  pktAck : Pkt
  packetEncoded : Buf 528
  buffer : Nat → Option Nat
  tmp : Nat
  /-- For the proofs only, as without blocks. -/
  steps : Nat
  lastAck : Option Nat
  /-- The packets that `buffer` points to. -/
  packets : Heap Pkt
  table : Table

structure Iteration where
  sender : Sender
  sent : Bool
  ackReceived : Bool
  out : List (List UInt8)

namespace Sender

/-- The packet behind a slot. -/
def slot (s : Sender) (i : Nat) : Option Pkt := (s.buffer i).bind s.packets.get

/-- The sender with what its pointers refer to. -/
def view (s : Sender) : SegmentTransfer.Sender where
  file := s.file
  phase := s.phase
  endFile := s.endFile
  smallSeq := s.smallSeq
  smallInd := s.smallInd
  seqInd := s.seqInd
  bufferEmpty := s.bufferEmpty
  seqExp := s.seqExp
  window := s.window
  fail := s.fail
  pktSend := s.pktSend.view s.table
  pktAck := s.pktAck.view s.table
  packetEncoded := s.packetEncoded
  buffer := fun i => (s.slot i).map (·.view s.table)
  tmp := s.tmp
  steps := s.steps
  lastAck := s.lastAck

def start (file : Bool) (memorySend : SegmentTransfer.Pkt) (packetEncoded : Buf 528) : Sender :=
  let pktSend := (pktNew memorySend).put
    (pktSetWindow ((pktNew memorySend).view .empty) 1).2
  { file, phase := .main, endFile := false, smallSeq := 0, smallInd := 0, seqInd := 0
    bufferEmpty := false, seqExp := 0, window := 1, fail := 0
    pktSend := pktSend, pktAck := pktSend, packetEncoded
    buffer := fun _ => none, tmp := 0, steps := 0, lastAck := none, packets := .empty
    table := .empty }

/-- `send_data` returns: `pkt_del` releases the payloads of its two packets. -/
def leave (s : Sender) : Sender :=
  { s with
    phase := .returned, table := (s.table.free s.pktSend.payload).free s.pktAck.payload }

end Sender

/-- The variables local to a pass with what the pointers refer to. -/
def Iteration.view (it : Iteration) : SegmentTransfer.Iteration where
  sender := it.sender.view
  sent := it.sent
  ackReceived := it.ackReceived
  out := it.out

section

variable (crc32 : List UInt8 → UInt32)

/-- Encoding the packet that `buffer[slot]` points to. -/
def encodeSlot (clock : Timeval) (slot : Nat) (s : Sender) :
    Except Fault (Sender × Encoded 528) := do
  let a ← orFail .unfilledSlot (s.buffer slot)
  let pkt ← orFail .unfilledSlot (s.packets.get a)
  let e ← pktEncode crc32 clock (pkt.view s.table) s.packetEncoded 528
  return ({ s with packets := s.packets.set a (pkt.put e.pkt), packetEncoded := e.buf }, e)

/-- Sending it. -/
def sendSlot (clock : Timeval) (slot : Nat) (it : Iteration) : Except Fault Iteration := do
  let encoded ← encodeSlot crc32 clock slot it.sender
  if encoded.2.status ≠ .pktOk then return { it with sender := encoded.1.leave }
  return { it with
    sender := encoded.1
    out := it.out ++ [encoded.2.buf.bytes.take encoded.2.len] }

/-- The bytes read are placed in `pkt_send`. -/
def setChunk (chunk : List UInt8) (s : Sender) : Sender :=
  let set := pktSetPayload s.table s.pktSend chunk (UInt16.ofNat chunk.length)
  { s with
    pktSend := set.2.1.put (pktSetSeqnum (set.2.1.view set.2.2) (UInt8.ofNat s.seqExp)).2
    table := set.2.2 }

/-- A segment read from the file is stored in a new packet, a copy of `pkt_send`, and encoded. -/
def storeChunk (clock : Timeval) (chunk : List UInt8) (s : Sender) :
    Except Fault (Sender × Encoded 528) := do
  let s := setChunk chunk { s with bufferEmpty := true }
  let slot ← slotOf s.seqInd s.window
  let s := { s with
    packets := s.packets.malloc s.pktSend
    buffer := Function.update s.buffer slot (some s.packets.next) }
  let e ← pktEncode crc32 clock (s.pktSend.view s.table) s.packetEncoded 528
  return ({ s with pktSend := s.pktSend.put e.pkt, packetEncoded := e.buf }, e)

/-- Sending it. -/
def sendChunk (clock : Timeval) (chunk : List UInt8) (it : Iteration) : Except Fault Iteration := do
  let stored ← storeChunk crc32 clock chunk it.sender
  let s := stored.1
  if stored.2.status ≠ .pktOk then return { it with sender := s.leave }
  if 2 ^ 31 ≤ s.seqInd + 1 then throw .intOverflow
  return { it with
    sender := { s with seqExp := (s.seqExp + 1) % 256, seqInd := s.seqInd + 1 }
    sent := true
    out := it.out ++ [stored.2.buf.bytes.take stored.2.len] }

/-- `if(FD_ISSET(fd, &read_set))`. -/
def filePart (ready : Ready) (it : Iteration) : Except Fault Iteration :=
  if it.sender.view.fdSet = false then return it
  else
    match ready.fd with
    | none => return it
    | some none => return { it with sender := it.sender.leave }
    | some (some []) => return { it with sender := { it.sender with endFile := true } }
    | some (some (b :: bs)) => sendChunk crc32 ready.sendClock ((b :: bs).take maxPayloadSize) it

/-- `if(fail == 1)`. -/
def failPart (ready : Ready) (it : Iteration) : Except Fault Iteration :=
  if it.sender.fail = 1 then do
    let slot ← slotOf it.sender.smallInd it.sender.window
    let it ← sendSlot crc32 ready.replyClock slot it
    return { it with sender := { it.sender with fail := 0 } }
  else return it

/-- What is done with an ACK. -/
def handleAck (ready : Ready) (it : Iteration) : Except Fault Iteration := do
  let s := it.sender
  let seq := s.pktAck.seqnum.toNat
  let (smallSeq, smallInd, i) ← adaptBuffer s.smallSeq seq s.smallInd s.window
  let s := { s with smallSeq, smallInd, steps := s.steps + i, lastAck := some seq }
  let it ← failPart crc32 ready { it with sender := s }
  if it.sender.phase = .returned then return it
  if it.sender.endFile ∧ it.sender.smallInd = it.sender.seqExp then
    return { it with sender := { it.sender with bufferEmpty := false } }
  return it

/-- What is done with a NACK. -/
def handleNack (ready : Ready) (it : Iteration) : Except Fault Iteration := do
  let slot ← nackSlot it.sender.view
  let encoded ← encodeSlot crc32 ready.replyClock slot it.sender
  if encoded.2.status ≠ .pktOk then return { it with sender := encoded.1.leave }
  let oldest ← slotOf encoded.1.smallInd encoded.1.window
  let _ ← orFail .unfilledSlot (encoded.1.slot oldest)
  return { it with
    sender := encoded.1
    out := it.out ++ [encoded.2.buf.bytes.take encoded.2.len,
      rawStruct encoded.2.pkt ready.memory encoded.2.len] }

/-- What is done with the reply in `pkt_ack`. -/
def handleReply (ready : Ready) (it : Iteration) : Except Fault Iteration :=
  let s := it.sender
  let window1 := s.pktAck.window.toNat
  let window := if window1 > s.window then window1 else s.window
  let s := { s with
    window, pktSend := s.pktSend.put (pktSetWindow (s.pktSend.view s.table) (UInt8.ofNat window)).2 }
  let it := { it with sender := s, ackReceived := true }
  if s.pktAck.type.toNat = ptypeAck then handleAck crc32 ready it
  else if s.pktAck.type.toNat = ptypeNack then handleNack crc32 ready it
  else return it

/-- `if(FD_ISSET(sfd, &read_set))`. -/
def replyPart (ready : Ready) (it : Iteration) : Except Fault Iteration :=
  match ready.sfd with
  | none => return it
  | some result => do
      let reply := result.getD []
      let length := min reply.length 528
      let s := { it.sender with packetEncoded := it.sender.packetEncoded.fill reply }
      if length = 0 then handleReply crc32 ready { it with sender := s }
      else
        let decoded ← pktDecode crc32 s.packetEncoded length s.pktAck s.table
        let it := { it with sender := { s with pktAck := decoded.2.1, table := decoded.2.2 } }
        if decoded.1 ≠ .pktOk then return it
        else handleReply crc32 ready it

/-- The retransmission timer. -/
def timerPart (ready : Ready) (it : Iteration) : Except Fault Iteration :=
  if it.sent = false ∧ it.ackReceived = false ∧ it.sender.file then do
    let slot ← slotOf it.sender.smallInd it.sender.window
    sendSlot crc32 ready.timerClock slot it
  else return it

namespace Sender

/-- A pass of the main loop. -/
def mainPass (ready : Ready) (s : Sender) : Except Fault Iteration := do
  let it ← filePart crc32 ready { sender := s, sent := false, ackReceived := false, out := [] }
  if it.sender.phase = .returned then return it
  let it ← replyPart crc32 ready it
  if it.sender.phase = .returned then return it
  timerPart crc32 ready it

/-- After the main loop, the end packet is built. -/
def buildEnd (ready : Ready) (s : Sender) : Except Fault Sender := do
  let pktSend := s.pktSend.put (pktSetLength (s.pktSend.view s.table) 0).2
  let pktSend := pktSend.put (pktSetSeqnum (pktSend.view s.table) (UInt8.ofNat s.seqExp)).2
  let e ← pktEncode crc32 ready.sendClock (pktSend.view s.table) s.packetEncoded 528
  let s := { s with pktSend := pktSend.put e.pkt, packetEncoded := e.buf }
  if e.status ≠ .pktOk then return s.leave
  return { s with phase := .closing, tmp := e.len }

/-- A pass of the closing loop. -/
def closingPass (ready : Ready) (s : Sender) : Except Fault (Sender × List (List UInt8)) := do
  let out := [s.packetEncoded.bytes.take s.tmp]
  match ready.sfd with
  | none => return (s, out)
  | some result =>
      let length := match result with
        | none => 2 ^ 64 - 1
        | some reply => min reply.length 528
      let s := { s with packetEncoded := s.packetEncoded.fill (result.getD []) }
      let decoded ← pktDecode crc32 s.packetEncoded length s.pktAck s.table
      let s := { s with pktAck := decoded.2.1, table := decoded.2.2 }
      if decoded.1 = .pktOk then return (s.leave, out)
      return (s, out)

/-- A pass of whichever loop the sender is in, with the datagrams it sends. -/
def pass (ready : Ready) (s : Sender) : Except Fault (Sender × List (List UInt8)) :=
  match s.phase with
  | .main =>
      if s.view.stays then do
        let it ← mainPass crc32 ready s
        return (it.sender, it.out)
      else do
        let s ← buildEnd crc32 ready s
        return (s, [])
  | .closing => closingPass crc32 ready s
  | .returned => return (s, [])

end Sender

end

end SegmentTransfer.Blocks
