import Mathlib.Logic.Function.Basic
import SegmentTransfer.Codec

/-! # The receiver

The loop of `receive_data`, one pass at a time. What `select`, `read` and
`gettimeofday` answer, and what the stack of `send_ack` held, are inputs of a
pass; writes to the output file and to the socket succeed. The `PAYLOAD` pointer
of a slot is modelled by the block it refers to.
-/

namespace SegmentTransfer

open Bytes Outcome

/-- What `read` returns: nothing is stored when it fails. -/
abbrev ReadResult := Option (List UInt8)

/-- The arrays `buffer_len` and `buffer_payload`. -/
structure Slots where
  len : Nat → Int
  payload : Nat → Payload

namespace Slots

def store (slots : Slots) (i : Nat) (len : Int) (payload : Payload) : Slots where
  len := Function.update slots.len i len
  payload := Function.update slots.payload i payload

def clear (slots : Slots) (i : Nat) : Slots := slots.store i (-1) .null

/-- The arrays when `receive_data` starts: `memset(buffer_len, -1, 31)` sets 31 bytes,
    that is seven elements and three bytes of the eighth. -/
def initial : Slots where
  len := fun i => if i < 7 then -1 else if i = 7 then 0xFFFFFF else 0
  payload := fun _ => .null

end Slots

/-- The window test of `add_buffer`. -/
def InWindow (seqRcv seqExp window : Nat) : Prop :=
  (seqRcv ≤ seqExp + window - 1 ∧ seqExp ≤ seqRcv) ∨
    (256 < seqExp + window - 1 ∧ seqRcv ≤ (seqExp + window - 1) % 256)

instance (seqRcv seqExp window : Nat) : Decidable (InWindow seqRcv seqExp window) :=
  inferInstanceAs (Decidable ((seqRcv ≤ seqExp + window - 1 ∧ seqExp ≤ seqRcv) ∨
    (256 < seqExp + window - 1 ∧ seqRcv ≤ (seqExp + window - 1) % 256)))

/-- The slot `add_buffer` computes. -/
def realInd (index seqRcv seqExp window : Nat) : Nat :=
  (index + ((if seqRcv < seqExp then seqRcv + 256 else seqRcv) - seqExp)) % window

/-- `add_buffer`. -/
def addBuffer (index seqRcv seqExp : Nat) (pktRcv : Pkt) (window : Nat) (slots : Slots) : Slots :=
  if InWindow seqRcv seqExp window then
    slots.store (realInd index seqRcv seqExp window) (pktGetLength pktRcv).toNat
      (pktGetPayload pktRcv)
  else slots

/-- The variables of `receive_data`, with everything it has written to the file. -/
structure Receiver where
  index : Nat
  seqExp : Nat
  slots : Slots
  pktRcv : Pkt
  pktAck : Pkt
  packetEncoded : Buf 528
  endFile : Bool
  count : Nat
  returned : Bool
  writes : List (List UInt8)

/-- `int window = 3`. -/
def receiverWindow : Nat := 3

theorem receiverWindow_fits : receiverWindow ≤ maxWindowSize := by
  simp [receiverWindow, maxWindowSize]

/-- What one pass finds: what `read` returns when `select` reports a datagram, the clock and
    the memory `buf` of `send_ack` is placed in. -/
structure Arrival where
  datagram : Option ReadResult
  clock : Timeval
  stack : Buf 20

namespace Receiver

def start (memoryRcv memoryAck : Pkt) (packetEncoded : Buf 528) : Receiver where
  index := 0
  seqExp := 0
  slots := .initial
  pktRcv := pktNew memoryRcv
  pktAck := pktNew memoryAck
  packetEncoded := packetEncoded
  endFile := false
  count := 0
  returned := false
  writes := []

/-- Whether the slot at `index` is occupied: `buffer_len[index] != -1`. -/
def occupied (r : Receiver) : Bool := r.slots.len r.index != -1

/-- The body of the loop that empties the slots. -/
def writeSlot (window : Nat) (r : Receiver) : Except Fault Receiver := do
  let body ← orFail .payloadRead ((r.slots.payload r.index).read? (r.slots.len r.index).toNat)
  return { r with
    writes := r.writes ++ [body]
    slots := r.slots.clear r.index
    index := (r.index + 1) % window
    seqExp := (r.seqExp + 1) % 256 }

/-- `while (buffer_len[index] != -1)`. -/
def drain (window : Nat) (r : Receiver) : Except Fault Receiver :=
  whileLoop occupied (writeSlot window) .loopSpent window r

end Receiver

section

variable (crc32 : List UInt8 → UInt32)

/-- `send_ack`: the reply packet it leaves and the datagram it sends, if any. -/
def sendAck (clock : Timeval) (stack : Buf 20) (pktAck : Pkt) (seqnum : Int) (ack : Nat)
    (timeData : UInt32) (window : Nat) : Except Fault (Pkt × List (List UInt8)) := do
  let set := pktSetSeqnum pktAck (UInt8.ofInt (seqnum + 1))
  if set.1 ≠ .pktOk then return (set.2, [])
  let set :=
    if ack = ptypeAck then pktSetType set.2 ptypeAck
    else if ack = ptypeNack then pktSetType set.2 ptypeNack
    else set
  if set.1 ≠ .pktOk then return (set.2, [])
  let set := pktSetTimestamp set.2 timeData
  let set := pktSetWindow set.2 (UInt8.ofNat window)
  if set.1 ≠ .pktOk then return (set.2, [])
  let set := pktSetPayload set.2 [] 0
  if set.1 ≠ .pktOk then return (set.2, [])
  let e ← pktEncode crc32 clock set.2 stack 20
  if e.status ≠ .pktOk then return (e.pkt, [])
  return (e.pkt, [e.buf.bytes.take e.len])

namespace Receiver

/-- A reply about what was last decoded; a failure to send is only reported. -/
def reply (clock : Timeval) (stack : Buf 20) (seqnum : Int) (ack : Nat) (r : Receiver) :
    Except Fault (Receiver × List (List UInt8)) := do
  let sent ← sendAck crc32 clock stack r.pktAck seqnum ack (pktGetTimestamp r.pktRcv) receiverWindow
  return ({ r with pktAck := sent.1 }, sent.2)

/-- What is done with a valid data packet. -/
def handleData (clock : Timeval) (stack : Buf 20) (r : Receiver) :
    Except Fault (Receiver × List (List UInt8)) := do
  let seqRcv := (pktGetSeqnum r.pktRcv).toNat
  if pktGetTr r.pktRcv = 1 then reply crc32 clock stack seqRcv ptypeNack r
  else if pktGetLength r.pktRcv = 0 then return ({ r with endFile := true }, [])
  else
    let slots := addBuffer r.index seqRcv r.seqExp r.pktRcv receiverWindow r.slots
    let r ← drain receiverWindow { r with slots }
    reply crc32 clock stack ((r.seqExp : Int) - 1) ptypeAck r

/-- A pass in which `select` reports the socket: `read` keeps at most 528 bytes. -/
def receivePacket (clock : Timeval) (stack : Buf 20) (r : Receiver) :
    ReadResult → Except Fault (Receiver × List (List UInt8))
  | none => return ({ r with returned := true }, [])
  | some datagram => do
      let length := min datagram.length 528
      let r := { r with packetEncoded := r.packetEncoded.fill datagram }
      if length = 0 then return (r, [])
      let decoded ← pktDecode crc32 r.packetEncoded length r.pktRcv
      let r := { r with pktRcv := decoded.2 }
      if decoded.1 = .pktOk ∧ pktGetType r.pktRcv = ptypeData then handleData crc32 clock stack r
      else return (r, [])

/-- A pass of one of the two loops of `receive_data`, with the datagrams it sends. -/
def pass (arrival : Arrival) (r : Receiver) : Except Fault (Receiver × List (List UInt8)) :=
  if r.returned then return (r, [])
  else if r.endFile = false then
    match arrival.datagram with
    | none => return (r, [])
    | some result => receivePacket crc32 arrival.clock arrival.stack r result
  else if r.count < 11 then do
    let sent ← reply crc32 arrival.clock arrival.stack ((r.seqExp : Int) - 1) ptypeAck r
    return ({ sent.1 with count := sent.1.count + 1 }, sent.2)
  else return ({ r with returned := true }, [])

end Receiver

end

end SegmentTransfer
