import SegmentTransfer.Library.Bytes
import SegmentTransfer.Library.Outcome

/-! # The packet structure and its accessors

`struct pkt` as the transfer code declares it, with the status codes, the
setters and the getters. The two multi-byte header fields that travel in
network byte order are stored that way, as in the source; the host is
little-endian. The payload pointer is modelled by what it points to, and code
that reads what it may not read stops with a `Fault`.
-/

namespace SegmentTransfer

open Bytes

/-- Undefined behaviour the C code would run into; a run that meets one stops. -/
inductive Fault where
  /-- Reading a payload that is absent, freed or too short. -/
  | payloadRead
  /-- Reading outside a byte array. -/
  | bufferRead
  /-- Writing outside a byte array. -/
  | bufferWrite
  /-- Indexing a slot array outside its bounds. -/
  | slotIndex
  /-- Using a slot of the sender's `buffer` that was never assigned. -/
  | unfilledSlot
  /-- A remainder by zero. -/
  | divisionByZero
  /-- Overflowing a signed counter. -/
  | intOverflow
  /-- A loop that does not end. -/
  | loopSpent
  /-- Releasing a block that was released before. -/
  | doubleFree
  deriving DecidableEq, Repr

/-- `pkt_status_code`. -/
inductive PktStatusCode where
  | pktOk
  | eType
  | eTr
  | eLength
  | eCrc
  | eWindow
  | eSeqnum
  | eNomem
  | eNoheader
  | eUnconsistent
  deriving DecidableEq, Repr

/-- `PTYPE_DATA`. -/
def ptypeData : Nat := 1

/-- `PTYPE_ACK`. -/
def ptypeAck : Nat := 2

/-- `PTYPE_NACK`. -/
def ptypeNack : Nat := 3

/-- `MAX_PAYLOAD_SIZE`. -/
def maxPayloadSize : Nat := 512

/-- `MAX_WINDOW_SIZE`. -/
def maxWindowSize : Nat := 31

theorem singleton_payload (b : UInt8) : [b] ≠ [] ∧ [b].length ≤ maxPayloadSize := by
  simp [maxPayloadSize]

/-! ## Byte orders -/

/-- Host to network order, 16 bits: the bytes of the host's representation, read backwards. -/
def htons (x : UInt16) : UInt16 := UInt16.ofNat (ofBe (le 2 x.toNat))

/-- Network to host order, 16 bits. -/
def ntohs (x : UInt16) : UInt16 := htons x

/-- Host to network order, 32 bits. -/
def htonl (x : UInt32) : UInt32 := UInt32.ofNat (ofBe (le 4 x.toNat))

/-- Network to host order, 32 bits. -/
def ntohl (x : UInt32) : UInt32 := htonl x

theorem le_htons (x : UInt16) : le 2 (htons x).toNat = be 2 x.toNat := by
  have small : ofBe (le 2 x.toNat) < 256 ^ 2 := by
    simpa only [le_length] using ofBe_lt (le 2 x.toNat)
  have value : (htons x).toNat = ofBe (le 2 x.toNat) := by
    simp only [htons, UInt16.toNat_ofNat']
    exact Nat.mod_eq_of_lt small
  have bytes := le_ofLe (le 2 x.toNat).reverse
  rw [List.length_reverse, le_length] at bytes
  rw [value, ofBe, bytes, be]

theorem le_htonl (x : UInt32) : le 4 (htonl x).toNat = be 4 x.toNat := by
  have small : ofBe (le 4 x.toNat) < 256 ^ 4 := by
    simpa only [le_length] using ofBe_lt (le 4 x.toNat)
  have value : (htonl x).toNat = ofBe (le 4 x.toNat) := by
    simp only [htonl, UInt32.toNat_ofNat']
    exact Nat.mod_eq_of_lt small
  have bytes := le_ofLe (le 4 x.toNat).reverse
  rw [List.length_reverse, le_length] at bytes
  rw [value, ofBe, bytes, be]

@[simp] theorem ntohs_htons (x : UInt16) : ntohs (htons x) = x := by
  apply UInt16.toNat_inj.mp
  have := x.toNat_lt
  rw [ntohs, htons, le_htons, ofBe_be, UInt16.toNat_ofNat']
  omega

@[simp] theorem htons_ntohs (x : UInt16) : htons (ntohs x) = x := ntohs_htons x

@[simp] theorem ntohl_htonl (x : UInt32) : ntohl (htonl x) = x := by
  apply UInt32.toNat_inj.mp
  have := x.toNat_lt
  rw [ntohl, htonl, le_htonl, ofBe_be, UInt32.toNat_ofNat']
  omega

@[simp] theorem htonl_ntohl (x : UInt32) : htonl (ntohl x) = x := ntohl_htonl x

theorem be_ntohs {bs : List UInt8} (h : bs.length = 2) :
    be 2 (ntohs (UInt16.ofNat (ofLe bs))).toNat = bs := by
  rw [← le_htons, htons_ntohs, le_ofNat16 h]

theorem be_ntohl {bs : List UInt8} (h : bs.length = 4) :
    be 4 (ntohl (UInt32.ofNat (ofLe bs))).toNat = bs := by
  rw [← le_htonl, htonl_ntohl, le_ofNat32 h]

/-! ## The structure -/

/-- What the `PAYLOAD` pointer refers to. -/
inductive Payload where
  | null
  | freed
  | block (bytes : List UInt8)
  deriving DecidableEq, Repr

namespace Payload

/-- The first `k` bytes, when there are that many. -/
def read? : Payload → Nat → Option (List UInt8)
  | .block bytes, k => if k ≤ bytes.length then some (bytes.take k) else none
  | _, 0 => some []
  | _, _ + 1 => none

/-- `free`: a null pointer stays null, any other no longer refers to a block. That a block was released
    before is looked at where that can be. -/
def free : Payload → Payload
  | .null => .null
  | _ => .freed

end Payload

/-- `struct pkt`; `length`, `crc1` and `crc2` hold the stored, network-order values. -/
structure Pkt where
  window : BitVec 5
  tr : BitVec 1
  type : BitVec 2
  seqnum : UInt8
  length : UInt16
  timestamp : UInt32
  crc1 : UInt32
  payload : Payload
  crc2 : UInt32
  deriving DecidableEq, Repr

/-- `pkt_new`: the fields it does not set keep what the allocated memory held. -/
def pktNew (memory : Pkt) : Pkt :=
  { memory with
    payload := .null, type := 1, tr := 0, window := 0, length := htons 0, timestamp := 0, crc1 := 0 }

/-- `pkt_copy`: the structure only, so both packets refer to one payload. -/
def pktCopy (source : Pkt) : Pkt := source

/-! ## Getters -/

def pktGetType (pkt : Pkt) : Nat := pkt.type.toNat

def pktGetTr (pkt : Pkt) : Nat := pkt.tr.toNat

def pktGetWindow (pkt : Pkt) : Nat := pkt.window.toNat

def pktGetSeqnum (pkt : Pkt) : UInt8 := pkt.seqnum

def pktGetLength (pkt : Pkt) : UInt16 := if pkt.tr = 0 then ntohs pkt.length else 0

def pktGetTimestamp (pkt : Pkt) : UInt32 := pkt.timestamp

def pktGetCrc1 (pkt : Pkt) : UInt32 := ntohl pkt.crc1

def pktGetCrc2 (pkt : Pkt) : UInt32 :=
  if pktGetTr pkt = 0 ∧ pktGetLength pkt ≠ 0 then ntohl pkt.crc2 else 0

def pktGetPayload (pkt : Pkt) : Payload := if pktGetLength pkt = 0 then .null else pkt.payload

theorem pktGetLength_le {pkt : Pkt} (fits : (ntohs pkt.length).toNat ≤ maxPayloadSize) :
    (pktGetLength pkt).toNat ≤ maxPayloadSize := by
  unfold pktGetLength
  split
  · exact fits
  · exact Nat.zero_le _

theorem read_bare {pkt : Pkt} (none : pktGetLength pkt = 0) :
    (pktGetPayload pkt).read? (pktGetLength pkt).toNat = some [] := by
  rw [pktGetPayload, if_pos none, none]
  rfl

/-! ## Setters -/

def pktSetType (pkt : Pkt) (type : Nat) : PktStatusCode × Pkt :=
  if type = ptypeData ∨ type = ptypeAck ∨ type = ptypeNack then
    (.pktOk, { pkt with type := BitVec.ofNat 2 type })
  else (.eType, pkt)

def pktSetTr (pkt : Pkt) (tr : UInt8) : PktStatusCode × Pkt :=
  if pktGetType pkt = ptypeData then
    if tr.toNat > 1 then (.eTr, pkt) else (.pktOk, { pkt with tr := BitVec.ofNat 1 tr.toNat })
  else (.eTr, pkt)

def pktSetWindow (pkt : Pkt) (window : UInt8) : PktStatusCode × Pkt :=
  if window.toNat > maxWindowSize then (.eWindow, pkt)
  else (.pktOk, { pkt with window := BitVec.ofNat 5 window.toNat })

def pktSetSeqnum (pkt : Pkt) (seqnum : UInt8) : PktStatusCode × Pkt :=
  (.pktOk, { pkt with seqnum := seqnum })

def pktSetLength (pkt : Pkt) (length : UInt16) : PktStatusCode × Pkt :=
  if length.toNat > maxPayloadSize then (.eLength, pkt)
  else (.pktOk, { pkt with length := htons length })

def pktSetTimestamp (pkt : Pkt) (timestamp : UInt32) : PktStatusCode × Pkt :=
  (.pktOk, { pkt with timestamp := timestamp })

def pktSetCrc1 (pkt : Pkt) (crc1 : UInt32) : PktStatusCode × Pkt :=
  (.pktOk, { pkt with crc1 := htonl crc1 })

def pktSetCrc2 (pkt : Pkt) (crc2 : UInt32) : PktStatusCode × Pkt :=
  (.pktOk, { pkt with crc2 := htonl crc2 })

/-- `pkt_set_payload`: `data` is the memory at the argument of that name. The old
    block is released only when the accessor, after the new length is stored,
    reports no payload. -/
def pktSetPayload (pkt : Pkt) (data : List UInt8) (length : UInt16) : PktStatusCode × Pkt :=
  let sized := pktSetLength pkt length
  let kept :=
    if pktGetPayload sized.2 = .null then { sized.2 with payload := sized.2.payload.free }
    else sized.2
  if sized.1 = .pktOk then
    (.pktOk, { kept with payload := .block (data.take length.toNat) })
  else (sized.1, kept)

@[simp] theorem pktSetSeqnum_status (pkt : Pkt) (seqnum : UInt8) :
    (pktSetSeqnum pkt seqnum).1 = .pktOk := rfl

@[simp] theorem pktSetTimestamp_status (pkt : Pkt) (timestamp : UInt32) :
    (pktSetTimestamp pkt timestamp).1 = .pktOk := rfl

@[simp] theorem pktSetCrc1_status (pkt : Pkt) (crc1 : UInt32) :
    (pktSetCrc1 pkt crc1).1 = .pktOk := rfl

@[simp] theorem pktSetCrc2_status (pkt : Pkt) (crc2 : UInt32) :
    (pktSetCrc2 pkt crc2).1 = .pktOk := rfl

theorem pktSetLength_fits (pkt : Pkt) {length : UInt16} (h : length.toNat ≤ maxPayloadSize) :
    pktSetLength pkt length = (.pktOk, { pkt with length := htons length }) :=
  if_neg (Nat.not_lt.mpr h)

theorem pktSetLength_long (pkt : Pkt) {length : UInt16} (h : length.toNat > maxPayloadSize) :
    pktSetLength pkt length = (.eLength, pkt) := if_pos h

theorem pktSetWindow_keeps (pkt : Pkt) (window : UInt8) :
    (pktSetWindow pkt window).2.tr = pkt.tr ∧
      pktGetType (pktSetWindow pkt window).2 = pktGetType pkt := by
  unfold pktSetWindow
  split <;> exact ⟨rfl, rfl⟩

theorem pktSetPayload_fits (pkt : Pkt) (data : List UInt8) {length : UInt16}
    (h : length.toNat ≤ maxPayloadSize) :
    pktSetPayload pkt data length =
      (.pktOk,
        { pkt with length := htons length, payload := .block (data.take length.toNat) }) := by
  simp only [pktSetPayload, pktSetLength_fits pkt h, if_true, Prod.mk.injEq, true_and]
  split <;> rfl

theorem pktGetTr_setPayload (pkt : Pkt) (data : List UInt8) {length : UInt16}
    (h : length.toNat ≤ maxPayloadSize) :
    pktGetTr (pktSetPayload pkt data length).2 = pktGetTr pkt := by
  rw [pktSetPayload_fits pkt data h]
  rfl

theorem pktGetPayload_setPayload (pkt : Pkt) (data : List UInt8) {length : UInt16}
    (h : length.toNat ≤ maxPayloadSize) (tr : pkt.tr = 0) (nonempty : length ≠ 0) :
    pktGetPayload (pktSetPayload pkt data length).2 = .block (data.take length.toNat) := by
  rw [pktSetPayload_fits pkt data h]
  simp only [pktGetPayload, pktGetLength, tr, if_true, ntohs_htons, nonempty, if_false]

/-! ## The header in memory -/

/-- The first byte of the structure: GCC puts the first bit-field in the low bits. -/
def Pkt.firstByte (pkt : Pkt) : UInt8 := UInt8.ofBitVec (pkt.type ++ (pkt.tr ++ pkt.window))

/-- Copying one byte over the three bit-fields. -/
def Pkt.withFirstByte (pkt : Pkt) (b : UInt8) : Pkt :=
  { pkt with
    window := b.toBitVec.extractLsb' 0 5
    tr := b.toBitVec.extractLsb' 5 1
    type := b.toBitVec.extractLsb' 6 2 }

/-- The first eight bytes of the structure, as `memcpy(buf, pkt, 8)` copies them. -/
def Pkt.header (pkt : Pkt) : List UInt8 :=
  [pkt.firstByte, pkt.seqnum] ++ le 2 pkt.length.toNat ++ le 4 pkt.timestamp.toNat

private theorem fields_of_append : ∀ (t : BitVec 2) (r : BitVec 1) (w : BitVec 5),
    (t ++ (r ++ w)).extractLsb' 0 5 = w ∧ (t ++ (r ++ w)).extractLsb' 5 1 = r ∧
      (t ++ (r ++ w)).extractLsb' 6 2 = t := by
  decide

private theorem append_of_fields : ∀ b : BitVec 8,
    b.extractLsb' 6 2 ++ (b.extractLsb' 5 1 ++ b.extractLsb' 0 5) = b := by
  decide

theorem Pkt.withFirstByte_firstByte (p q : Pkt) :
    q.withFirstByte p.firstByte = { q with window := p.window, tr := p.tr, type := p.type } := by
  obtain ⟨window, tr, type⟩ := fields_of_append p.type p.tr p.window
  simp only [Pkt.withFirstByte, Pkt.firstByte, window, tr, type]

theorem Pkt.firstByte_withFirstByte (pkt : Pkt) (b : UInt8) : (pkt.withFirstByte b).firstByte = b := by
  simp only [Pkt.firstByte, Pkt.withFirstByte, append_of_fields]

@[simp] theorem Pkt.header_length (pkt : Pkt) : pkt.header.length = 8 := by
  simp only [Pkt.header, List.length_append, List.length_cons, List.length_nil, le_length]

end SegmentTransfer
