import SegmentTransfer.Library.Stdio
import SegmentTransfer.Packet

/-! # Records

`struct record` of the exercise on encoding structures, with its accessors and
the two functions that put it on a stream and take it off again. The first half
of the header is written as it lies in memory, where GCC puts `TYPE` in the low
bits, and the second in network byte order. Allocations may fail, streams may be
full or end early, and variables that are not initialised are inputs.
-/

namespace SegmentTransfer

open Bytes Outcome Stdio

/-- `struct record`; a payload pointer that is null refers to nothing. -/
structure Record where
  type : BitVec 15
  f : BitVec 1
  length : UInt16
  payload : Option (List UInt8)
  uuid : UInt32
  deriving DecidableEq, Repr

/-- `record_init`: the UUID keeps what the memory held. -/
def recordInit (memory : Record) : Record :=
  { memory with type := 0, f := 0, length := 0, payload := none }

def recordFree (r : Record) : Record :=
  if r.length ≠ 0 then { r with length := 0, payload := none } else r

def recordGetType (r : Record) : Nat := r.type.toNat

def recordSetType (r : Record) (type : Int) : Record := { r with type := BitVec.ofInt 15 type }

def recordGetLength (r : Record) : Nat := r.length.toNat

/-- `record_set_payload`: `buf` is the memory at the argument of that name, if it is not null, and
    `realloc` whether there is memory to be had. A negative `n` asks for more than there is. -/
def recordSetPayload (realloc : Bool) (r : Record) (buf : Option (List UInt8)) (n : Int) :
    Except Fault (Int × Record) :=
  match buf with
  | none => return (0, recordFree r)
  | some bytes =>
      if n = 0 then return (0, recordFree r)
      else if realloc = false ∨ n < 0 then return (-1, { r with payload := none })
      else if bytes.length < n then throw .bufferRead
      else return (0, { r with payload := some (bytes.take n.toNat), length := UInt16.ofInt n })

/-- `record_get_payload`: `n` bytes are copied, whatever the length. -/
def recordGetPayload {m : Nat} (r : Record) (buf : Buf m) (n : Int) : Except Fault (Int × Buf m) := do
  let block ← orFail .payloadRead r.payload
  if n < 0 ∨ block.length < n then throw .payloadRead
  let buf ← orFail .bufferWrite (buf.write? 0 (block.take n.toNat))
  return (if r.length.toNat < n then r.length.toNat else n, buf)

def recordHasFooter (r : Record) : Nat := r.f.toNat

def recordDeleteFooter (r : Record) : Record := if r.f ≠ 0 then { r with f := 0, uuid := 0 } else r

def recordSetUuid (r : Record) (uuid : UInt32) : Record := { r with f := 1, uuid }

def recordGetUuid (r : Record) : UInt32 := if r.f = 0 then 0 else r.uuid

/-! ## The header in memory -/

/-- The first half of the header, as a 16-bit integer. -/
def Record.half (r : Record) : UInt16 := UInt16.ofBitVec (r.f ++ r.type)

/-- Storing an integer over the first half of the header. -/
def Record.withHalf (r : Record) (y : UInt16) : Record :=
  { r with type := y.toBitVec.extractLsb' 0 15, f := y.toBitVec.extractLsb' 15 1 }

theorem Record.withHalf_half (p r : Record) :
    r.withHalf p.half = { r with type := p.type, f := p.f } := by
  have low : (p.f ++ p.type).extractLsb' 0 15 = p.type := by
    grind
  have high : (p.f ++ p.type).extractLsb' 15 1 = p.f := by
    grind
  simp only [withHalf, half, low, high]

theorem Record.half_withHalf (r : Record) (y : UInt16) : (r.withHalf y).half = y := by
  have whole : y.toBitVec.extractLsb' 15 1 ++ y.toBitVec.extractLsb' 0 15 = y.toBitVec := by
    grind
  simp only [half, withHalf, whole]

/-- The bytes read, over those a variable held. -/
def overlay (bytes : List UInt8) (old : List UInt8) : List UInt8 := bytes ++ old.drop bytes.length

/-! ## Writing -/

def writeFooter (r : Record) (count : Int) (f : Sink) : Except Fault (Int × Sink) :=
  if r.f = 1 then
    let footer := fwrite 4 (le 4 r.uuid.toNat) f
    if footer.1 ≠ 1 then return (-1, footer.2) else return (count + footer.1 * 4, footer.2)
  else return (count, f)

/-- The payload, when there is one, and what follows it. -/
def writePayload (r : Record) (count : Int) (f : Sink) : Except Fault (Int × Sink) :=
  if r.length ≠ 0 then do
    let block ← orFail .payloadRead r.payload
    if block.length < r.length.toNat then throw .payloadRead
    let body := fwrite 1 (block.take r.length.toNat) f
    if body.1 ≠ r.length.toNat then return (-1, body.2) else writeFooter r (count + body.1) body.2
  else writeFooter r count f

/-- `record_write`. -/
def recordWrite (r : Record) (f : Sink) : Except Fault (Int × Sink) :=
  let y := fwrite 2 (le 2 r.half.toNat) f
  if y.1 ≠ 1 then return (-1, y.2)
  else
    let y1 := fwrite 2 (le 2 (htons r.length).toNat) y.2
    if y1.1 ≠ 1 then return (-1, y1.2) else writePayload r (y.1 * 2 + y1.1 * 2 : Nat) y1.2

/-! ## Reading -/

/-- What a call of `record_read` finds: its variables before they are assigned, and whether its
    two allocations succeed. -/
structure ReadLocals where
  y : UInt16
  y1 : UInt16
  malloc : Bool
  realloc : Bool

/-- What a call of `record_read` leaves: its result, the record and the rest of the stream. -/
structure RecordRead where
  count : Int
  record : Record
  rest : List UInt8

def readFooter (r : Record) (count : Int) (f : List UInt8) : RecordRead :=
  if r.f = 1 then
    let footer := fread 4 1 f
    let r := { r with uuid := UInt32.ofNat (ofLe (overlay footer.bytes (le 4 r.uuid.toNat))) }
    if footer.items ≠ 1 then ⟨-1, r, footer.rest⟩ else ⟨count + footer.items * 4, r, footer.rest⟩
  else ⟨count, r, f⟩

/-- The payload, when the header announces one, and what follows it. A payload that comes whole is
    stored, and whether that worked is not looked at. -/
def readPayload (locals : ReadLocals) (r : Record) (count : Int) (f : List UInt8) :
    Except Fault RecordRead :=
  if r.length ≠ 0 then do
    let body := fread 1 r.length.toNat f
    if locals.malloc = false ∧ body.bytes ≠ [] then throw .bufferWrite
    if body.items ≠ r.length.toNat then return ⟨-1, r, body.rest⟩
    let set ← recordSetPayload locals.realloc r (some body.bytes) r.length.toNat
    return readFooter set.2 (count + body.items) body.rest
  else return readFooter r count f

/-- `record_read`: a header cut short is not noticed, as `fread` never returns `-1`. -/
def recordRead (locals : ReadLocals) (r : Record) (f : List UInt8) : Except Fault RecordRead :=
  let first := fread 2 1 f
  let y := UInt16.ofNat (ofLe (overlay first.bytes (le 2 locals.y.toNat)))
  let r := r.withHalf y
  let second := fread 2 1 first.rest
  let y1 := UInt16.ofNat (ofLe (overlay second.bytes (le 2 locals.y1.toNat)))
  let r := { r with length := ntohs y1 }
  readPayload locals r (first.items * 2 + second.items * 2 : Nat) second.rest

end SegmentTransfer
