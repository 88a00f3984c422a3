import SegmentTransfer.Library.Heap
import SegmentTransfer.ReceiverRefinement

/-! # Payload blocks

The receiver with its `PAYLOAD` pointers: addresses in a table of blocks, to
which `pkt_set_payload` adds one and from which its `free` takes one. `add_buffer`
keeps the pointer of the packet just decoded, so slots and `pkt_rcv` may refer to
the same block. `view` gives back the packet of the other modules, with what its
pointer refers to.
-/

namespace SegmentTransfer.Blocks

open Bytes Outcome

/-- The payload blocks that are allocated. -/
abbrev Table := Heap (List UInt8)

/-- What a pointer refers to. -/
def Table.at (t : Table) : Option Nat → Payload
  | none => .null
  | some a =>
      match t.get a with
      | some bytes => .block bytes
      | none => .freed

/-- `struct pkt`, with the address in `PAYLOAD`. -/
structure Pkt where
  window : BitVec 5
  tr : BitVec 1
  type : BitVec 2
  seqnum : UInt8
  length : UInt16
  timestamp : UInt32
  crc1 : UInt32
  payload : Option Nat
  crc2 : UInt32

namespace Pkt

/-- The packet with what its pointer refers to. -/
def view (p : Pkt) (t : Table) : SegmentTransfer.Pkt :=
  { window := p.window, tr := p.tr, type := p.type, seqnum := p.seqnum, length := p.length
    timestamp := p.timestamp, crc1 := p.crc1, payload := t.at p.payload, crc2 := p.crc2 }

/-- The fields of a packet, with a pointer of its own. -/
def withPointer (pkt : SegmentTransfer.Pkt) (payload : Option Nat) : Pkt :=
  { window := pkt.window, tr := pkt.tr, type := pkt.type, seqnum := pkt.seqnum, length := pkt.length
    timestamp := pkt.timestamp, crc1 := pkt.crc1, payload, crc2 := pkt.crc2 }

/-- After calls that leave the pointer alone. -/
def put (p : Pkt) (pkt : SegmentTransfer.Pkt) : Pkt := withPointer pkt p.payload

/-- `pkt_get_length`. -/
def getLength (p : Pkt) : UInt16 := if p.tr = 0 then ntohs p.length else 0

/-- `pkt_get_payload`. -/
def getPayload (p : Pkt) : Option Nat := if p.getLength = 0 then none else p.payload

end Pkt

/-- `pkt_new`. -/
def pktNew (memory : SegmentTransfer.Pkt) : Pkt := .withPointer (SegmentTransfer.pktNew memory) none

/-- `pkt_set_payload`. -/
def pktSetPayload (t : Table) (pkt : Pkt) (data : List UInt8) (length : UInt16) :
    PktStatusCode × Pkt × Table :=
  let sized := pktSetLength (pkt.view t) length
  let pkt := pkt.put sized.2
  let t := if pkt.getPayload = none then t.free pkt.payload else t
  if sized.1 = .pktOk then
    (.pktOk, { pkt with payload := some t.next }, t.malloc (data.take length.toNat))
  else (sized.1, pkt, t)

section

variable (crc32 : List UInt8 → UInt32) {n : Nat}

/-- The end of `pkt_decode`, from "Décodage payload" on. -/
def decodePayload (data : Buf n) (pktLength : UInt16) (pkt : Pkt) (t : Table) :
    Except Fault (PktStatusCode × Pkt × Table) := do
  if pktLength = 0 then return (.pktOk, pkt, t)
  let payloadBytes ← orFail .bufferRead (data.read? 12 pktLength.toNat)
  let set := pktSetPayload t pkt payloadBytes pktLength
  if set.1 ≠ .pktOk then return set
  if pktGetTr (set.2.1.view set.2.2) ≠ 0 then return set
  let crc2Bytes ← orFail .bufferRead (data.read? (12 + pktLength.toNat) 4)
  let crc2 := ntohl (UInt32.ofNat (ofLe crc2Bytes))
  let body ← orFail .payloadRead ((set.2.2.at set.2.1.getPayload).read? pktLength.toNat)
  if crc2 ≠ crc32 body then return (.eCrc, set.2)
  let last := pktSetCrc2 (set.2.1.view set.2.2) crc2
  return (last.1, set.2.1.put last.2, set.2.2)

/-- `pkt_decode`. -/
def pktDecode (data : Buf n) (len : Nat) (pkt : Pkt) (t : Table) :
    Except Fault (PktStatusCode × Pkt × Table) := do
  if len = 0 then return (.eUnconsistent, pkt, t)
  if len < 4 then return (.eNoheader, pkt, t)
  let first ← orFail .bufferRead (data.read? 0 1)
  let seen := (pkt.view t).withFirstByte (UInt8.ofNat (ofLe first))
  let second ← orFail .bufferRead (data.read? 1 1)
  let set := pktSetSeqnum seen (UInt8.ofNat (ofLe second))
  if set.1 ≠ .pktOk then return (set.1, pkt.put set.2, t)
  let lengthBytes ← orFail .bufferRead (data.read? 2 2)
  let pktLength := ntohs (UInt16.ofNat (ofLe lengthBytes))
  let set := pktSetLength set.2 pktLength
  if set.1 ≠ .pktOk then return (set.1, pkt.put set.2, t)
  let timestampBytes ← orFail .bufferRead (data.read? 4 4)
  let set := pktSetTimestamp set.2 (UInt32.ofNat (ofLe timestampBytes))
  if set.1 ≠ .pktOk then return (set.1, pkt.put set.2, t)
  let crc1Bytes ← orFail .bufferRead (data.read? 8 4)
  let crc1 := ntohl (UInt32.ofNat (ofLe crc1Bytes))
  let head ← orFail .bufferRead (data.read? 0 8)
  if crc1 ≠ crc32 head then return (.eCrc, pkt.put set.2, t)
  let set := pktSetCrc1 set.2 crc1
  if set.1 ≠ .pktOk then return (set.1, pkt.put set.2, t)
  decodePayload crc32 data pktLength (pkt.put set.2) t

/-- `send_ack`. -/
def sendAck (clock : Timeval) (stack : Buf 20) (pktAck : Pkt) (t : Table) (seqnum : Int) (ack : Nat)
    (timeData : UInt32) (window : Nat) : Except Fault (Pkt × Table × List (List UInt8)) := do
  let set := pktSetSeqnum (pktAck.view t) (UInt8.ofInt (seqnum + 1))
  if set.1 ≠ .pktOk then return (pktAck.put set.2, t, [])
  let set :=
    if ack = ptypeAck then pktSetType set.2 ptypeAck
    else if ack = ptypeNack then pktSetType set.2 ptypeNack
    else set
  if set.1 ≠ .pktOk then return (pktAck.put set.2, t, [])
  let set := pktSetTimestamp set.2 timeData
  let set := pktSetWindow set.2 (UInt8.ofNat window)
  if set.1 ≠ .pktOk then return (pktAck.put set.2, t, [])
  let set := pktSetPayload t (pktAck.put set.2) [] 0
  if set.1 ≠ .pktOk then return (set.2.1, set.2.2, [])
  let e ← pktEncode crc32 clock (set.2.1.view set.2.2) stack 20
  if e.status ≠ .pktOk then return (set.2.1.put e.pkt, set.2.2, [])
  return (set.2.1.put e.pkt, set.2.2, [e.buf.bytes.take e.len])

end

/-- The variables of `receive_data`, with the pointers in `buffer_payload` and the table. -/
structure Receiver where
  index : Nat
  seqExp : Nat
  len : Nat → Int
  payload : Nat → Option Nat
  pktRcv : Pkt
  pktAck : Pkt
  packetEncoded : Buf 528
  endFile : Bool
  count : Nat
  returned : Bool
  writes : List (List UInt8)
  table : Table
  /-- For the proofs only: the payload of the packet that `add_buffer` stored last in a slot. -/
  stored : Nat → List UInt8

/-- `add_buffer`. -/
def addBuffer (index seqRcv seqExp window : Nat) (r : Receiver) : Receiver :=
  if InWindow seqRcv seqExp window then
    let i := realInd index seqRcv seqExp window
    let bytes := (r.table.at r.pktRcv.getPayload).read? r.pktRcv.getLength.toNat
    { r with
      len := Function.update r.len i r.pktRcv.getLength.toNat
      payload := Function.update r.payload i r.pktRcv.getPayload
      stored := Function.update r.stored i (bytes.getD []) }
  else r

namespace Receiver

def start (memoryRcv memoryAck : SegmentTransfer.Pkt) (packetEncoded : Buf 528) : Receiver where
  index := 0
  seqExp := 0
  len := Slots.initial.len
  payload := fun _ => none
  pktRcv := pktNew memoryRcv
  pktAck := pktNew memoryAck
  packetEncoded := packetEncoded
  endFile := false
  count := 0
  returned := false
  writes := []
  table := .empty
  stored := fun _ => []

/-- `buffer_len[index] != -1`. -/
def occupied (r : Receiver) : Bool := r.len r.index != -1

/-- The body of the loop that empties the slots: the block is looked up to be written. -/
def writeSlot (window : Nat) (r : Receiver) : Except Fault Receiver := do
  let body ← orFail .payloadRead ((r.table.at (r.payload r.index)).read? (r.len r.index).toNat)
  return { r with
    writes := r.writes ++ [body]
    len := Function.update r.len r.index (-1)
    payload := Function.update r.payload r.index none
    index := (r.index + 1) % window
    seqExp := (r.seqExp + 1) % 256 }

/-- `while (buffer_len[index] != -1)`. -/
def drain (window : Nat) (r : Receiver) : Except Fault Receiver :=
  whileLoop occupied (writeSlot window) .loopSpent window r

/-- `receive_data` returns: `pkt_del` releases the payloads of its packets. -/
def leave (r : Receiver) : Receiver :=
  { r with returned := true, table := (r.table.free r.pktRcv.payload).free r.pktAck.payload }

section

variable (crc32 : List UInt8 → UInt32)

/-- A reply about what was last decoded. -/
def reply (clock : Timeval) (stack : Buf 20) (seqnum : Int) (ack : Nat) (r : Receiver) :
    Except Fault (Receiver × List (List UInt8)) := do
  let sent ← sendAck crc32 clock stack r.pktAck r.table seqnum ack r.pktRcv.timestamp receiverWindow
  return ({ r with pktAck := sent.1, table := sent.2.1 }, sent.2.2)

/-- What is done with a valid data packet. -/
def handleData (clock : Timeval) (stack : Buf 20) (r : Receiver) :
    Except Fault (Receiver × List (List UInt8)) := do
  let seqRcv := r.pktRcv.seqnum.toNat
  if r.pktRcv.tr.toNat = 1 then reply crc32 clock stack seqRcv ptypeNack r
  else if r.pktRcv.getLength = 0 then return ({ r with endFile := true }, [])
  else
    let r ← drain receiverWindow (addBuffer r.index seqRcv r.seqExp receiverWindow r)
    reply crc32 clock stack ((r.seqExp : Int) - 1) ptypeAck r

/-- A pass in which `select` reports the socket. -/
def receivePacket (clock : Timeval) (stack : Buf 20) (r : Receiver) :
    ReadResult → Except Fault (Receiver × List (List UInt8))
  | none => return (r.leave, [])
  | some datagram => do
      let length := min datagram.length 528
      let r := { r with packetEncoded := r.packetEncoded.fill datagram }
      if length = 0 then return (r, [])
      let decoded ← pktDecode crc32 r.packetEncoded length r.pktRcv r.table
      let r := { r with pktRcv := decoded.2.1, table := decoded.2.2 }
      if decoded.1 = .pktOk ∧ r.pktRcv.type.toNat = ptypeData then handleData crc32 clock stack r
      else return (r, [])

/-- A pass of one of the two loops of `receive_data`, with the datagrams it sends. -/
def pass (arrival : Arrival) (r : Receiver) : Except Fault (Receiver × List (List UInt8)) :=
  if r.returned then return (r, [])
  else if r.endFile = false then
    match arrival.datagram with
    | none => return (r, [])
    | some result => receivePacket crc32 arrival.clock arrival.stack r result
  else if r.count < 11 then do
    let sent ← reply crc32 arrival.clock arrival.stack ((r.seqExp : Int) - 1) ptypeAck r
    return ({ sent.1 with count := sent.1.count + 1 }, sent.2)
  else return (r.leave, [])

end

end Receiver

/-! ## What the calls do to the blocks -/

variable {crc32 : List UInt8 → UInt32} {t : Table} {p : Option Nat} {a : Nat} {bytes : List UInt8}

theorem Table.at_block (there : t.get a = some bytes) : t.at (some a) = .block bytes := by
  simp only [Table.at, there]

theorem Table.at_replace (holds : t.Holds p) (release : Bool) {old : Option Nat}
    (apart : release = true → ∀ a, p = some a → old ≠ some a) (new : List UInt8) :
    Table.at (t.replace release old new) p = t.at p := by
  cases p with
  | none => rfl
  | some a =>
      obtain ⟨bytes, there⟩ := holds a rfl
      have kept := @Heap.replace_get _ t a bytes release old new there fun go => apart go a rfl
      rw [Table.at_block there, Table.at_block kept]

theorem Pkt.view_congr {t t' : Table} (p : Pkt) (same : t'.at p.payload = t.at p.payload) :
    p.view t' = p.view t := by
  simp only [Pkt.view, same]

/-- `pkt_set_payload` puts a new block in place of the old one. Only when `pkt_get_length` is 0 is
    the old one released. -/
theorem pktSetPayload_fits (t : Table) (pkt : Pkt) (data : List UInt8) {length : UInt16}
    (h : length.toNat ≤ maxPayloadSize) :
    pktSetPayload t pkt data length =
      (.pktOk, { pkt with length := htons length, payload := some t.next },
        t.replace (decide (pkt.tr ≠ 0 ∨ length = 0)) pkt.payload (data.take length.toNat)) := by
  simp only [pktSetPayload, pktSetLength_fits _ h, if_true, Pkt.put, Pkt.withPointer, Pkt.view,
    Pkt.getPayload, Pkt.getLength, ntohs_htons]
  by_cases tr : pkt.tr = 0#1
  · by_cases zero : length = 0
    · simp [tr, zero, Heap.replace]
    · cases old : pkt.payload with
      | none => simp [tr, zero, Heap.replace, Heap.free]
      | some a => simp [tr, zero, Heap.replace]
  · simp [tr, Heap.replace]

/-- The decoder stores a payload. -/
def Takes (crc32 : List UInt8 → UInt32) (bs : List UInt8) (len : Nat) : Prop :=
  4 ≤ len ∧ (lengthField bs).toNat ≤ maxPayloadSize ∧ crc1Field bs = crc32 (slice bs 0 8) ∧
    lengthField bs ≠ 0

/-- The blocks once the payload is stored, for a packet that had the pointer `old`. -/
def Table.taken (t : Table) (bs : List UInt8) (old : Option Nat) : Table :=
  t.replace (decide (trField bs ≠ 0)) old (payloadField bs)

theorem Table.at_taken (t : Table) (bs : List UInt8) (old : Option Nat) :
    Table.at (t.taken bs old) (some t.next) = .block (payloadField bs) :=
  Table.at_block Heap.replace_get_self

theorem decodePayload_spec (data : Buf 528) {pkt : Pkt} (t : Table)
    (tr : pkt.tr = trField data.bytes) (length : pkt.length = htons (lengthField data.bytes))
    (fits : (lengthField data.bytes).toNat ≤ maxPayloadSize) (nonzero : lengthField data.bytes ≠ 0) :
    ∃ status q, q.payload = some t.next ∧
      decodePayload crc32 data (lengthField data.bytes) pkt t =
        .ok (status, q, t.taken data.bytes pkt.payload) ∧
      SegmentTransfer.decodePayload crc32 data (lengthField data.bytes) (pkt.view t) =
        .ok (status, q.view (t.taken data.bytes pkt.payload)) := by
  have inside : 12 + (lengthField data.bytes).toNat + 4 ≤ 528 := by
    simp only [maxPayloadSize] at fits
    omega
  have payloadLength : (payloadField data.bytes).length = (lengthField data.bytes).toNat :=
    slice_length (by rw [data.size]; omega)
  have whole : (payloadField data.bytes).take (lengthField data.bytes).toNat =
      payloadField data.bytes := List.take_of_length_le (Nat.le_of_eq payloadLength)
  have payloadRead : orFail Fault.bufferRead (data.read? 12 (lengthField data.bytes).toNat) =
      .ok (payloadField data.bytes) := read_inside data (by omega)
  have crc2Eq : ntohl (UInt32.ofNat (ofLe (slice data.bytes (12 + (lengthField data.bytes).toNat) 4)))
      = crc2Field data.bytes := rfl
  have there := t.at_taken data.bytes pkt.payload
  have set : pktSetPayload t pkt (payloadField data.bytes) (lengthField data.bytes) =
      (.pktOk, { pkt with payload := some t.next }, t.taken data.bytes pkt.payload) := by
    rw [pktSetPayload_fits _ _ _ fits, whole, ← length, tr]
    simp [nonzero, Table.taken]
  have set' : SegmentTransfer.pktSetPayload (pkt.view t) (payloadField data.bytes)
      (lengthField data.bytes) =
        (.pktOk, Pkt.view { pkt with payload := some t.next } (t.taken data.bytes pkt.payload)) := by
    rw [SegmentTransfer.pktSetPayload_fits _ _ fits, whole, ← length]
    simp only [Pkt.view, there]
  have getTr : ∀ v, pktGetTr (Pkt.view { pkt with payload := some t.next } v) = 0 ↔
      trField data.bytes = 0 := by
    intro v
    rw [pktGetTr_eq_zero, ← tr]
    rfl
  simp only [decodePayload, SegmentTransfer.decodePayload, nonzero, if_false, payloadRead, ok_bind,
    set, set', ne_eq, not_true_eq_false, getTr]
  by_cases tr0 : trField data.bytes = 0
  · have get : Pkt.getPayload { pkt with payload := some t.next } = some t.next := by
      simp [Pkt.getPayload, Pkt.getLength, tr, tr0, length, nonzero]
    have get' : pktGetPayload (Pkt.view { pkt with payload := some t.next }
        (t.taken data.bytes pkt.payload)) = .block (payloadField data.bytes) := by
      simp [pktGetPayload, pktGetLength, Pkt.view, tr, tr0, length, nonzero, there]
    simp only [tr0, not_true_eq_false, if_false, read_inside data inside, ok_bind, crc2Eq, get, get',
      there, Payload.read?, payloadLength, Nat.le_refl, if_true, whole, orFail_some]
    by_cases crc2 : crc2Field data.bytes = crc32 (payloadField data.bytes)
    · simp only [crc2, not_true_eq_false, if_false]
      exact ⟨_, _, rfl, rfl, rfl⟩
    · simp only [crc2, not_false_eq_true, if_true]
      exact ⟨_, { pkt with payload := some t.next }, rfl, rfl, rfl⟩
  · simp only [tr0, not_false_eq_true, if_true]
    exact ⟨_, { pkt with payload := some t.next }, rfl, rfl, rfl⟩

/-- `pkt_decode` does to the packet viewed what it does to the packet. The pointer changes when a
    payload is stored, and only then. -/
theorem pktDecode_spec (crc32 : List UInt8 → UInt32) (data : Buf 528) (len : Nat) (pkt : Pkt)
    (t : Table) :
    ∃ status q t', pktDecode crc32 data len pkt t = .ok (status, q, t') ∧
      SegmentTransfer.pktDecode crc32 data len (pkt.view t) = .ok (status, q.view t') ∧
      ((Takes crc32 data.bytes len ∧ q.payload = some t.next ∧
          t' = t.taken data.bytes pkt.payload) ∨
        (¬ Takes crc32 data.bytes len ∧ q.payload = pkt.payload ∧ t' = t)) := by
  have lengthEq : ntohs (UInt16.ofNat (ofLe (slice data.bytes 2 2))) = lengthField data.bytes := rfl
  have crc1Eq : ntohl (UInt32.ofNat (ofLe (slice data.bytes 8 4))) = crc1Field data.bytes := rfl
  by_cases short : len < 4
  · have none : ¬ Takes crc32 data.bytes len := fun takes => Nat.not_le.mpr short takes.1
    by_cases empty : len = 0
    · simp only [pktDecode, SegmentTransfer.pktDecode, empty, if_true]
      exact ⟨_, pkt, t, rfl, rfl, .inr ⟨empty ▸ none, rfl, rfl⟩⟩
    · simp only [pktDecode, SegmentTransfer.pktDecode, empty, short, if_true, if_false]
      exact ⟨_, pkt, t, rfl, rfl, .inr ⟨none, rfl, rfl⟩⟩
  have empty : ¬ len = 0 := by omega
  simp only [pktDecode, SegmentTransfer.pktDecode, empty, short, if_false,
    read_inside data (show 0 + 1 ≤ 528 by omega), read_inside data (show 1 + 1 ≤ 528 by omega),
    read_inside data (show 2 + 2 ≤ 528 by omega), read_inside data (show 4 + 4 ≤ 528 by omega),
    read_inside data (show 8 + 4 ≤ 528 by omega), read_inside data (show 0 + 8 ≤ 528 by omega),
    ok_bind, pktSetSeqnum_status, pktSetTimestamp_status, pktSetCrc1_status, ne_eq,
    not_true_eq_false, lengthEq, crc1Eq]
  by_cases long : (lengthField data.bytes).toNat > maxPayloadSize
  · simp only [pktSetLength_long _ long, reduceCtorEq, not_false_eq_true, if_true]
    exact ⟨_, _, _, rfl, rfl, .inr ⟨fun takes => Nat.not_le.mpr long takes.2.1, rfl, rfl⟩⟩
  have fits : (lengthField data.bytes).toNat ≤ maxPayloadSize := Nat.not_lt.mp long
  simp only [pktSetLength_fits _ fits, not_true_eq_false, if_false]
  by_cases crc1 : crc1Field data.bytes = crc32 (slice data.bytes 0 8)
  · simp only [← crc1, not_true_eq_false, if_false]
    by_cases zero : lengthField data.bytes = 0
    · simp only [decodePayload, SegmentTransfer.decodePayload, zero, if_true]
      exact ⟨_, _, _, rfl, rfl, .inr ⟨fun takes => takes.2.2.2 zero, rfl, rfl⟩⟩
    · have takes : Takes crc32 data.bytes len := ⟨Nat.not_lt.mp short, fits, crc1, zero⟩
      obtain ⟨status, q, payload, decoded, decoded'⟩ := @decodePayload_spec crc32 data
        (pkt.put (headed data.bytes (pkt.view t))) t rfl rfl fits zero
      exact ⟨status, q, _, decoded, decoded', .inl ⟨takes, payload, rfl⟩⟩
  · simp only [crc1, not_false_eq_true, if_true]
    exact ⟨_, _, _, rfl, rfl, .inr ⟨fun takes => crc1 takes.2.2.1, rfl, rfl⟩⟩

theorem takes_of_accepted {data : Buf 528} {len : Nat} {pkt : SegmentTransfer.Pkt} {q : Pkt}
    (decoded : SegmentTransfer.pktDecode crc32 data len pkt = .ok (.pktOk, q.view t)) :
    q.tr = trField data.bytes ∧ (q.getLength ≠ 0 → Takes crc32 data.bytes len ∧
      (payloadField data.bytes).length = q.getLength.toNat) := by
  obtain ⟨q', spec, filled⟩ := SegmentTransfer.pktDecode_spec crc32 data len pkt
  rw [decoded] at spec
  simp only [Except.ok.injEq, Prod.mk.injEq] at spec
  obtain ⟨accepted, same⟩ := spec
  obtain ⟨four, fits, crc1, -⟩ := verdict_ok accepted.symm
  have left := same.trans (filled accepted.symm)
  have tr : q.tr = trField data.bytes := congrArg SegmentTransfer.Pkt.tr left
  have length : q.length = htons (lengthField data.bytes) := congrArg SegmentTransfer.Pkt.length left
  refine ⟨tr, fun nonzero => ?_⟩
  have zero : q.tr = 0 := by
    by_contra other
    exact nonzero (if_neg other)
  have get : q.getLength = lengthField data.bytes := by
    rw [Pkt.getLength, if_pos zero, length, ntohs_htons]
  rw [get] at nonzero ⊢
  refine ⟨⟨four, fits, crc1, nonzero⟩, slice_length ?_⟩
  simp only [maxPayloadSize] at fits
  rw [data.size]
  omega

/-- `send_ack` likewise: the packet it encodes gets a new, empty block for its old one. -/
theorem sendAck_spec (crc32 : List UInt8 → UInt32) (pktAck : Pkt) (t : Table) {ack : Nat}
    (kind : ack = ptypeAck ∨ ack = ptypeNack) (seqnum : Int) (clock : Timeval) (stack : Buf 20)
    (timeData : UInt32) :
    ∃ q out, sendAck crc32 clock stack pktAck t seqnum ack timeData receiverWindow =
        .ok (q, t.replace true pktAck.payload [], out) ∧
      SegmentTransfer.sendAck crc32 clock stack (pktAck.view t) seqnum ack timeData receiverWindow =
        .ok (q.view (t.replace true pktAck.payload []), out) ∧
      q.payload = some t.next := by
  let seq := (UInt8.ofInt (seqnum + 1)).toNat
  let t' : Table := t.replace true pktAck.payload []
  let pkt := replyPkt (pktAck.view t) ack seq timeData receiverWindow
  let pkt' : Pkt := .withPointer pkt (some t.next)
  have numbered : UInt8.ofInt (seqnum + 1) = UInt8.ofNat seq := UInt8.ofNat_toNat.symm
  have there : Table.at t' (some t.next) = .block [] := Table.at_block Heap.replace_get_self
  have viewed : pkt'.view t' = pkt := by
    simp only [pkt', Pkt.withPointer, Pkt.view, there]
    rfl
  obtain ⟨e, encoded, status, left, -⟩ := replyPkt_encode crc32 (pktAck.view t) ack seq timeData
    receiverWindow clock stack
  have set : pktSetPayload t (pktAck.put { pktAck.view t with
      seqnum := UInt8.ofNat seq, type := BitVec.ofNat 2 ack, timestamp := timeData
      window := BitVec.ofNat 5 (UInt8.ofNat receiverWindow).toNat }) [] 0 = (.pktOk, pkt', t') := by
    rw [pktSetPayload_fits t _ [] (show (0 : UInt16).toNat ≤ maxPayloadSize by decide)]
    simp [pkt', t', Pkt.put, Pkt.withPointer, Pkt.view, pkt, replyPkt]
  refine ⟨pkt'.put e.pkt, [e.buf.bytes.take e.len], ?_, ?_, rfl⟩
  · simp only [sendAck, pktSetSeqnum, numbered, pktSetType_reply kind, pktSetTimestamp, pktSetWindow,
      (ofNat_window receiverWindow_fits).1, if_false, ne_eq, not_true_eq_false, set, viewed, pkt,
      encoded, ok_bind, status]
    rfl
  · rw [sendAck_eq crc32 (pktAck.view t) kind receiverWindow_fits numbered clock stack timeData encoded
      status]
    have same : (pkt'.put e.pkt).view t' = e.pkt := by
      simp only [Pkt.put, Pkt.withPointer, Pkt.view, pkt', there, ← left]
    rw [same]

end SegmentTransfer.Blocks
