import SegmentTransfer.Codec
import SegmentTransfer.Library.Crc

/-! # The exercise's packet codec

`pkt_encode` and `pkt_decode` of the exercise on the segment format. The
structure and its accessors are those of the transfer code, except for the
allocation of the payload; the encoder packs the first byte by hand and copies
the others, the decoder goes through the setters. `char` is signed, and
allocations succeed.
-/

namespace SegmentTransfer.Exercise

open Bytes Outcome

/-- `pkt_new`: the payload is a block of zeros; the sequence number keeps what the memory held. -/
def pktNew (memory : Pkt) : Pkt :=
  { memory with
    payload := .block (List.replicate 512 0), type := 1, tr := 0, window := 0, length := htons 0
    timestamp := 0, crc1 := 0, crc2 := 0 }

/-- `pkt_set_payload`: `data` is the memory at the argument of that name. Reallocating to no bytes
    frees the block. -/
def pktSetPayload (pkt : Pkt) (data : List UInt8) (length : UInt16) : PktStatusCode × Pkt :=
  let sized := pktSetLength pkt length
  if sized.1 = .pktOk then
    (.pktOk,
      { sized.2 with
        payload := if length = 0 then .null else .block (data.take length.toNat) })
  else sized

/-- A `char` converted to an unsigned 32-bit integer. -/
def ofChar (c : UInt8) : UInt32 :=
  if c.toNat < 128 then UInt32.ofNat c.toNat else UInt32.ofNat (c.toNat + (2 ^ 32 - 2 ^ 8))

section

variable (crc32 : List UInt8 → UInt32) {n : Nat}

/-- The first byte as the encoder packs it. -/
def packedByte (pkt : Pkt) : UInt8 :=
  UInt8.ofNat ((pktGetType pkt <<< 6 ||| pktGetTr pkt <<< 5) ||| pktGetWindow pkt)

/-- `pkt_encode`, with the status, the buffer and `*len`. -/
def pktEncode (pkt : Pkt) (buf : Buf n) (len : Nat) : Except Fault (PktStatusCode × Buf n × Nat) := do
  let length := (pktGetLength pkt).toNat
  let lengthTot := if pktGetTr pkt = 0 ∧ length > 0 then length + 4 else length
  if len < lengthTot + 12 then return (.eNomem, buf, len)
  let buf ← orFail .bufferWrite (buf.write? 0 [packedByte pkt])
  let buf ← orFail .bufferWrite (buf.write? 1 (slice pkt.header 1 7))
  let head ← orFail .bufferRead (buf.read? 0 8)
  let buf ← orFail .bufferWrite (buf.write? 8 (le 4 (htonl (crc32 head)).toNat))
  let body ← orFail .payloadRead ((pktGetPayload pkt).read? length)
  let buf ← orFail .bufferWrite (buf.write? 12 body)
  if pktGetTr pkt = 0 then
    let buf ← orFail .bufferWrite (buf.write? (length + 12) (le 4 (htonl (crc32 body)).toNat))
    return (.pktOk, buf, lengthTot + 12)
  return (.pktOk, buf, lengthTot + 12)

/-- The end of `pkt_decode`, from "Décodage payload" on. -/
def decodePayload (data : Buf n) (pktLength : UInt16) (pkt : Pkt) :
    Except Fault (PktStatusCode × Pkt) := do
  if pktLength = 0 then return (.pktOk, pkt)
  let payloadBytes ← orFail .bufferRead (data.read? 12 pktLength.toNat)
  let set := pktSetPayload pkt payloadBytes pktLength
  if set.1 ≠ .pktOk then return set
  if pktGetTr set.2 ≠ 0 then return set
  let crc2Bytes ← orFail .bufferRead (data.read? (12 + pktLength.toNat) 4)
  let crc2 := ntohl (UInt32.ofNat (ofLe crc2Bytes))
  let body ← orFail .payloadRead ((pktGetPayload set.2).read? pktLength.toNat)
  if crc2 ≠ crc32 body then return (.eCrc, set.2)
  return pktSetCrc2 set.2 crc2

/-- `pkt_decode`. -/
def pktDecode (data : Buf n) (len : Nat) (pkt : Pkt) : Except Fault (PktStatusCode × Pkt) := do
  if len = 0 then return (.eUnconsistent, pkt)
  if len < 4 then return (.eNoheader, pkt)
  let first ← orFail .bufferRead (data.read? 0 1)
  let hd := UInt8.ofNat (ofLe first)
  let set := pktSetType pkt (hd >>> 6).toNat
  if set.1 ≠ .pktOk then return set
  let set := pktSetTr set.2 0
  if set.1 ≠ .pktOk then return set
  let set := pktSetWindow set.2 (hd &&& 31)
  if set.1 ≠ .pktOk then return set
  let second ← orFail .bufferRead (data.read? 1 1)
  let set := pktSetSeqnum set.2 (UInt8.ofNat (ofLe second))
  if set.1 ≠ .pktOk then return set
  let lengthBytes ← orFail .bufferRead (data.read? 2 2)
  let pktLength := ntohs (UInt16.ofNat (ofLe lengthBytes))
  let set := pktSetLength set.2 pktLength
  if set.1 ≠ .pktOk then return set
  -- one `char` is read where four bytes were written
  let fifth ← orFail .bufferRead (data.read? 4 1)
  let set := pktSetTimestamp set.2 (ofChar (UInt8.ofNat (ofLe fifth)))
  if set.1 ≠ .pktOk then return set
  let crc1Bytes ← orFail .bufferRead (data.read? 8 4)
  let crc1 := ntohl (UInt32.ofNat (ofLe crc1Bytes))
  let head ← orFail .bufferRead (data.read? 0 8)
  if crc1 ≠ crc32 head then return (.eCrc, set.2)
  let set := pktSetCrc1 set.2 crc1
  if set.1 ≠ .pktOk then return set
  decodePayload crc32 data pktLength set.2

end

/-! ## What the encoder leaves -/

variable {crc32 : List UInt8 → UInt32} {n : Nat}

private theorem packed_append : ∀ (t : BitVec 2) (r : BitVec 1) (w : BitVec 5),
    UInt8.ofNat ((t.toNat <<< 6 ||| r.toNat <<< 5) ||| w.toNat) = UInt8.ofBitVec (t ++ (r ++ w)) := by
  decide

theorem packedByte_eq (pkt : Pkt) : packedByte pkt = pkt.firstByte :=
  packed_append pkt.type pkt.tr pkt.window

/-- Encoding a packet whose payload is there, with room for its frame. -/
theorem pktEncode_eq {pkt : Pkt} {body : List UInt8}
    (present : (pktGetPayload pkt).read? (pktGetLength pkt).toNat = some body)
    (room : 12 + body.length + (if pkt.tr = 0 then 4 else 0) ≤ n) (buf : Buf n) {len : Nat}
    (enough : (frame crc32 pkt body).length ≤ len) :
    pktEncode crc32 pkt buf len =
      .ok (.pktOk, buf.fill (written crc32 pkt body), (frame crc32 pkt body).length) := by
  have bodyLength : (pktGetLength pkt).toNat = body.length := (Payload.read?_length present).symm
  have nonempty : body.length > 0 ↔ body ≠ [] := List.length_pos_iff
  have split : pkt.header = [packedByte pkt] ++ slice pkt.header 1 7 := by
    rw [packedByte_eq]
    rfl
  have header8 : slice (buf.fill pkt.header).bytes 0 8 = pkt.header := by
    rw [Buf.fill_slice buf (by simp; omega) (by simp)]
    simpa using slice_self pkt.header
  have fits : ¬ len < (if pkt.tr = 0 ∧ body ≠ [] then body.length + 4 else body.length) + 12 := by
    rw [← @frame_length crc32]
    exact Nat.not_lt.mpr enough
  rw [bodyLength] at present
  unfold pktEncode
  simp only [bodyLength, pktGetTr_eq_zero, nonempty, if_neg fits]
  rw [Buf.write?_zero buf (by simp; omega), orFail_some, ok_bind,
    Buf.write?_fill buf (show [packedByte pkt].length = 1 from rfl)
      (by rw [slice_length (by simp)]; omega), orFail_some, ok_bind, ← split,
    Buf.read?_inside _ (by omega), orFail_some, ok_bind, header8, le_htonl,
    Buf.write?_fill buf (by simp) (by simp; omega), orFail_some, ok_bind, present, orFail_some,
    ok_bind, Buf.write?_fill buf (by simp) (by omega), orFail_some, ok_bind, frame_length]
  by_cases tr : pkt.tr = 0
  · simp only [tr, if_true] at room
    simp only [tr, if_true, le_htonl, true_and]
    rw [Buf.write?_fill buf (by simp; omega) (by simp; omega), orFail_some, ok_bind]
    simp only [written, tr, if_true, pure_eq_ok]
  · simp only [tr, if_false, written, List.append_nil, false_and, pure_eq_ok]

/-! ## What the decoder returns -/

private theorem fields_unpacked : ∀ (t : BitVec 2) (r : BitVec 1) (w : BitVec 5),
    (UInt8.ofBitVec (t ++ (r ++ w)) >>> 6).toNat = t.toNat ∧
      UInt8.ofBitVec (t ++ (r ++ w)) &&& 31 = UInt8.ofNat w.toNat := by
  decide

theorem type_unpacked (pkt : Pkt) : (pkt.firstByte >>> 6).toNat = pktGetType pkt :=
  (fields_unpacked pkt.type pkt.tr pkt.window).1

theorem window_unpacked (pkt : Pkt) : pkt.firstByte &&& 31 = UInt8.ofNat (pktGetWindow pkt) :=
  (fields_unpacked pkt.type pkt.tr pkt.window).2

theorem pktSetType_known {dst pkt : Pkt} (known : pktGetType pkt ≠ 0) :
    pktSetType dst (pktGetType pkt) = (.pktOk, { dst with type := pkt.type }) := by
  have small := pkt.type.isLt
  have named : pktGetType pkt = ptypeData ∨ pktGetType pkt = ptypeAck ∨ pktGetType pkt = ptypeNack := by
    simp only [pktGetType, ptypeData, ptypeAck, ptypeNack] at known ⊢
    omega
  have kept : BitVec.ofNat 2 (pktGetType pkt) = pkt.type := by
    simp [pktGetType]
  rw [pktSetType, if_pos named, kept]

theorem pktSetWindow_get (dst pkt : Pkt) :
    pktSetWindow dst (UInt8.ofNat (pktGetWindow pkt)) = (.pktOk, { dst with window := pkt.window }) := by
  have small := pkt.window.isLt
  have fits : (UInt8.ofNat (pktGetWindow pkt)).toNat = pktGetWindow pkt := by
    simp only [pktGetWindow, UInt8.toNat_ofNat']
    omega
  have narrow : ¬ pktGetWindow pkt > maxWindowSize := by
    simp only [pktGetWindow, maxWindowSize]
    omega
  have kept : BitVec.ofNat 5 (pktGetWindow pkt) = pkt.window := by
    simp [pktGetWindow]
  rw [pktSetWindow, fits, if_neg narrow, kept]

/-- The packet the decoder makes of a frame: of the timestamp the low byte counts. -/
def decoded (crc32 : List UInt8 → UInt32) (pkt dst : Pkt) (body : List UInt8) : Pkt :=
  { pkt with
    timestamp := ofChar (UInt8.ofNat pkt.timestamp.toNat)
    crc1 := htonl (crc32 pkt.header)
    payload := if body = [] then dst.payload else .block body
    crc2 := if body = [] then dst.crc2 else htonl (crc32 body) }

theorem pktSetPayload_fits (pkt : Pkt) (data : List UInt8) {length : UInt16} (nonzero : length ≠ 0)
    (h : length.toNat ≤ maxPayloadSize) :
    pktSetPayload pkt data length =
      (.pktOk,
        { pkt with length := htons length, payload := .block (data.take length.toNat) }) := by
  simp only [pktSetPayload, pktSetLength_fits pkt h, if_true, if_neg nonzero]

/-- With `TR = 0` the payload is stored once its checksum is found right. -/
theorem decodePayload_frame {pkt : Pkt} {body : List UInt8} (tr : pkt.tr = 0)
    (bodyLength : body.length = (ntohs pkt.length).toNat)
    (fits : body.length ≤ maxPayloadSize) {data : Buf 528} {rest : List UInt8}
    (bytes : data.bytes = frame crc32 pkt body ++ rest) {q : Pkt} (qtr : q.tr = 0)
    (qlength : q.length = pkt.length) :
    decodePayload crc32 data (ntohs pkt.length) q =
      .ok (.pktOk,
        { q with
          payload := if body = [] then q.payload else .block body
          crc2 := if body = [] then q.crc2 else htonl (crc32 body) }) := by
  by_cases zero : ntohs pkt.length = 0
  · have empty : body = [] := by
      rw [zero] at bodyLength
      exact List.eq_nil_of_length_eq_zero bodyLength
    simp only [decodePayload, zero, if_true, empty]
    rfl
  have nonempty : body ≠ [] := by
    rintro rfl
    exact zero (UInt16.toNat_inj.mp bodyLength.symm)
  obtain ⟨payload, crc2⟩ := frame_payload crc32 tr bodyLength rest
  have checked := crc2 nonempty
  rw [← bytes] at payload checked
  rw [payloadField, bytes, frame_lengthField, ← bytes] at payload
  rw [crc2Field, bytes, frame_lengthField, ← bytes] at checked
  have small : (ntohs pkt.length).toNat ≤ maxPayloadSize := bodyLength ▸ fits
  have whole : body.take (ntohs pkt.length).toNat = body :=
    List.take_of_length_le (Nat.le_of_eq bodyLength)
  have inside : 12 + (ntohs pkt.length).toNat + 4 ≤ 528 := by
    simp only [maxPayloadSize] at small
    omega
  have shown : pktGetTr { q with length := htons (ntohs pkt.length), payload := .block body } = 0 :=
    (pktGetTr_eq_zero _).mpr qtr
  have held : pktGetPayload { q with length := htons (ntohs pkt.length), payload := .block body } =
      .block body := by
    simp only [pktGetPayload, pktGetLength, qtr, if_true, ntohs_htons, if_neg zero]
  have readable : Payload.read? (.block body) (ntohs pkt.length).toNat = some body := by
    rw [Payload.read?, if_pos (Nat.le_of_eq bodyLength.symm), whole]
  simp only [decodePayload, if_neg zero,
    read_inside data (show 12 + (ntohs pkt.length).toNat ≤ 528 by omega),
    ok_bind, payload, pktSetPayload_fits q body zero small, ne_eq, not_true_eq_false, if_false, whole,
    shown, read_inside data inside, checked, held, readable, orFail_some, if_neg nonempty, pktSetCrc2]
  rw [← qlength, htons_ntohs]
  rfl

/-- A DATA frame is accepted. -/
theorem pktDecode_data {pkt : Pkt} {body : List UInt8} (data : pktGetType pkt = ptypeData)
    (tr : pkt.tr = 0) (bodyLength : body.length = (ntohs pkt.length).toNat)
    (fits : body.length ≤ maxPayloadSize) {buf : Buf 528} {rest : List UInt8}
    (bytes : buf.bytes = frame crc32 pkt body ++ rest) {len : Nat} (long : 4 ≤ len) (dst : Pkt) :
    pktDecode crc32 buf len dst = .ok (.pktOk, decoded crc32 pkt dst body) := by
  obtain ⟨first, seqnum, length, timestamp, header⟩ := header_fields pkt
    (be 4 (crc32 pkt.header).toNat ++ (body ++
      (if pkt.tr = 0 ∧ body ≠ [] then be 4 (crc32 body).toNat else [])) ++ rest)
  have fifth : slice (pkt.header ++ (be 4 (crc32 pkt.header).toNat ++ (body ++
      (if pkt.tr = 0 ∧ body ≠ [] then be 4 (crc32 body).toNat else [])) ++ rest)) 4 1 =
        [UInt8.ofNat pkt.timestamp.toNat] := by
    rw [slice_append_left (by simp)]
    rfl
  have crc1 := frame_crc1 crc32 pkt body rest
  rw [← List.append_assoc, ← frame_eq, ← bytes] at first seqnum length timestamp header fifth
  rw [← bytes] at crc1
  rw [firstField] at first
  rw [lengthField] at length
  rw [crc1Field] at crc1
  have known : pktGetType pkt ≠ 0 := by
    rw [data]
    decide
  have setTr : pktSetTr { dst with type := pkt.type } 0 =
      (.pktOk, { dst with type := pkt.type, tr := 0 }) := if_pos data
  have small : (ntohs pkt.length).toNat ≤ maxPayloadSize := bodyLength ▸ fits
  simp only [pktDecode, if_neg (show ¬ len = 0 by omega), if_neg (Nat.not_lt.mpr long),
    read_inside buf (show 0 + 1 ≤ 528 by decide), ok_bind, first, type_unpacked,
    pktSetType_known known, ne_eq, not_true_eq_false, if_false, setTr,
    window_unpacked, pktSetWindow_get, read_inside buf (show 1 + 1 ≤ 528 by decide), seqnum,
    pktSetSeqnum, read_inside buf (show 2 + 2 ≤ 528 by decide), length, pktSetLength_fits _ small,
    read_inside buf (show 4 + 1 ≤ 528 by decide), fifth, ofNat_byte, pktSetTimestamp,
    read_inside buf (show 8 + 4 ≤ 528 by decide), crc1, header,
    read_inside buf (show 0 + 8 ≤ 528 by decide), pktSetCrc1]
  rw [decodePayload_frame tr bodyLength fits bytes rfl (htons_ntohs _)]
  simp only [decoded, htons_ntohs, tr]

theorem pktDecode_reply {pkt : Pkt} {body : List UInt8} (known : pktGetType pkt ≠ 0)
    (reply : pktGetType pkt ≠ ptypeData) {buf : Buf 528} {rest : List UInt8}
    (bytes : buf.bytes = frame crc32 pkt body ++ rest) {len : Nat} (long : 4 ≤ len) (dst : Pkt) :
    pktDecode crc32 buf len dst = .ok (.eTr, { dst with type := pkt.type }) := by
  have first : UInt8.ofNat (ofLe (slice buf.bytes 0 1)) = pkt.firstByte := by
    rw [bytes, frame_eq, List.append_assoc]
    exact (header_fields pkt _).1
  have set : pktSetTr { dst with type := pkt.type } 0 = (.eTr, { dst with type := pkt.type }) :=
    if_neg reply
  simp only [pktDecode, if_neg (show ¬ len = 0 by omega), if_neg (Nat.not_lt.mpr long),
    read_inside buf (show 0 + 1 ≤ 528 by decide), ok_bind, first, type_unpacked,
    pktSetType_known known, ne_eq, not_true_eq_false, if_false, set, reduceCtorEq, not_false_eq_true,
    if_true, pure_eq_ok]

/-! ## The round trip -/

/-- A packet with `TR = 0` as the setters leave it, and its payload. -/
structure Settable (pkt : Pkt) (body : List UInt8) : Prop where
  known : pktGetType pkt ≠ 0
  tr : pkt.tr = 0
  fits : body.length ≤ maxPayloadSize
  present : (pktGetPayload pkt).read? (pktGetLength pkt).toNat = some body

/-- A new packet after a call of every setter. -/
def build (memory : Pkt) (type : Nat) (window seqnum : UInt8) (timestamp : UInt32)
    (payload : List UInt8) : Pkt :=
  let pkt := (pktSetTr (pktSetType (pktNew memory) type).2 0).2
  let pkt := (pktSetTimestamp (pktSetSeqnum (pktSetWindow pkt window).2 seqnum).2 timestamp).2
  (pktSetPayload pkt payload (UInt16.ofNat payload.length)).2

theorem build_settable (memory : Pkt) {type : Nat}
    (known : type = ptypeData ∨ type = ptypeAck ∨ type = ptypeNack) (window seqnum : UInt8)
    (timestamp : UInt32) {payload : List UInt8} (fits : payload.length ≤ maxPayloadSize) :
    Settable (build memory type window seqnum timestamp payload) payload ∧
      pktGetType (build memory type window seqnum timestamp payload) = type ∧
      (build memory type window seqnum timestamp payload).timestamp = timestamp := by
  have length : (UInt16.ofNat payload.length).toNat = payload.length := by
    simp only [maxPayloadSize] at fits
    rw [UInt16.toNat_ofNat']
    omega
  have typed : pktGetType (pktSetTr (pktSetType (pktNew memory) type).2 0).2 = type ∧
      (pktSetTr (pktSetType (pktNew memory) type).2 0).2.tr = 0 := by
    rcases known with rfl | rfl | rfl <;> exact ⟨rfl, rfl⟩
  simp only [build, pktSetPayload, pktSetLength_fits _ (length.symm ▸ fits), if_true, pktSetTimestamp,
    pktSetSeqnum]
  generalize (pktSetTr (pktSetType (pktNew memory) type).2 0).2 = pkt at typed
  obtain ⟨tr, kept⟩ := pktSetWindow_keeps pkt window
  generalize (pktSetWindow pkt window).2 = pkt' at tr kept
  refine ⟨⟨?_, tr.trans typed.2, fits, ?_⟩, kept.trans typed.1, trivial⟩
  · have nonzero : type ≠ 0 := by
      rcases known with rfl | rfl | rfl <;> decide
    exact fun zero => nonzero ((kept.trans typed.1).symm.trans zero)
  · simp only [pktGetPayload, pktGetLength, tr.trans typed.2, if_true, ntohs_htons, length]
    by_cases zero : UInt16.ofNat payload.length = 0
    · rw [zero] at length
      rw [if_pos zero, List.eq_nil_of_length_eq_zero length.symm]
      rfl
    · simp only [if_neg zero, Payload.read?, List.take_length, Nat.le_refl, if_true]

/-- Encoding into 528 bytes and decoding into a new packet succeed, and the packet decoded shows
    what the one encoded does. -/
def RoundTrips (crc32 : List UInt8 → UInt32) (pkt : Pkt) (buf : Buf 528) (memory : Pkt) : Prop :=
  ∃ encoded len q, pktEncode crc32 pkt buf 528 = .ok (.pktOk, encoded, len) ∧
    pktDecode crc32 encoded len (pktNew memory) = .ok (.pktOk, q) ∧
    pktGetType q = pktGetType pkt ∧ pktGetTr q = pktGetTr pkt ∧
    pktGetWindow q = pktGetWindow pkt ∧ pktGetSeqnum q = pktGetSeqnum pkt ∧
    pktGetLength q = pktGetLength pkt ∧ pktGetTimestamp q = pktGetTimestamp pkt ∧
    (pktGetPayload q).read? (pktGetLength q).toNat =
      (pktGetPayload pkt).read? (pktGetLength pkt).toNat

theorem ofChar_low (t : UInt32) :
    ofChar (UInt8.ofNat t.toNat) = t ↔ t.toNat < 128 ∨ 2 ^ 32 - 128 ≤ t.toNat := by
  have small := t.toNat_lt
  rw [← UInt32.toNat_inj, ofChar, UInt8.toNat_ofNat']
  split <;> rw [UInt32.toNat_ofNat'] <;> omega

theorem Settable.length {pkt : Pkt} {body : List UInt8} (h : Settable pkt body) :
    body.length = (ntohs pkt.length).toNat := by
  have length := Payload.read?_length h.present
  rwa [pktGetLength_of_tr_zero h.tr] at length

theorem Settable.encode {pkt : Pkt} {body : List UInt8} (h : Settable pkt body) (buf : Buf 528) :
    ∃ encoded rest len, pktEncode crc32 pkt buf 528 = .ok (.pktOk, encoded, len) ∧
      encoded.bytes = frame crc32 pkt body ++ rest ∧ 4 ≤ len := by
  have room := room_528 pkt h.fits
  have long := @frame_length crc32 pkt body
  obtain ⟨rest, bytes⟩ := fill_written crc32 room buf
  exact ⟨_, rest, _, pktEncode_eq h.present room buf (frame_528 crc32 pkt h.fits), bytes, by omega⟩

theorem Settable.decoded_payload {pkt : Pkt} {body : List UInt8} (h : Settable pkt body) (dst : Pkt) :
    (pktGetPayload (decoded crc32 pkt dst body)).read?
      (pktGetLength (decoded crc32 pkt dst body)).toNat = some body := by
  have same : pktGetLength (decoded crc32 pkt dst body) = pktGetLength pkt := rfl
  have length := Payload.read?_length h.present
  rw [pktGetPayload, same, ← length]
  by_cases empty : body = []
  · have zero : pktGetLength pkt = 0 := by
      rw [empty] at length
      exact UInt16.toNat_inj.mp length.symm
    rw [if_pos zero, empty]
    rfl
  · have nonzero : pktGetLength pkt ≠ 0 := by
      intro zero
      rw [zero] at length
      exact empty (List.eq_nil_of_length_eq_zero length)
    simp only [if_neg nonzero, decoded, if_neg empty, Payload.read?, Nat.le_refl, if_true,
      List.take_length]

/-- The round trip succeeds for DATA packets whose timestamp fits a `char`, and for no other. -/
theorem roundTrips_iff {pkt : Pkt} {body : List UInt8} (settable : Settable pkt body) (buf : Buf 528)
    (memory : Pkt) :
    RoundTrips crc32 pkt buf memory ↔
      pktGetType pkt = ptypeData ∧ (pkt.timestamp.toNat < 128 ∨ 2 ^ 32 - 128 ≤ pkt.timestamp.toNat) := by
  obtain ⟨encoded, rest, len, sent, bytes, long⟩ := @Settable.encode crc32 pkt body settable buf
  by_cases data : pktGetType pkt = ptypeData
  · have accepted := pktDecode_data data settable.tr settable.length settable.fits bytes long
      (pktNew memory)
    rw [← ofChar_low]
    constructor
    · rintro ⟨encoded', len', q, sent', received, -, -, -, -, -, timestamp, -⟩
      rw [sent] at sent'
      cases sent'
      rw [accepted] at received
      cases received
      exact ⟨data, timestamp⟩
    · rintro ⟨-, timestamp⟩
      exact ⟨encoded, len, _, sent, accepted, rfl, rfl, rfl, rfl, rfl, timestamp,
        (settable.decoded_payload _).trans settable.present.symm⟩
  · have refused := pktDecode_reply settable.known data bytes long (pktNew memory)
    constructor
    · rintro ⟨encoded', len', q, sent', received, -⟩
      rw [sent] at sent'
      cases sent'
      rw [refused] at received
      cases received
    · exact fun both => (data both.1).elim

/-- A packet of zeros. -/
def zeroPkt : Pkt := ⟨0, 0, 0, 0, 0, 0, 0, .null, 0⟩

/-- The DATA packet with timestamp 5 and one byte of payload. -/
theorem roundTrips_iff_sample :
    RoundTrips Crc.crc32 (build zeroPkt ptypeData 3 7 5 [65]) (.replicate 528 0) zeroPkt ↔
      pktGetType (build zeroPkt ptypeData 3 7 5 [65]) = ptypeData ∧
        ((build zeroPkt ptypeData 3 7 5 [65]).timestamp.toNat < 128 ∨
          2 ^ 32 - 128 ≤ (build zeroPkt ptypeData 3 7 5 [65]).timestamp.toNat) :=
  roundTrips_iff (build_settable zeroPkt (.inl rfl) 3 7 5 (by decide)).1 _ _

/-- An ACK built by the setters is refused with `E_TR`. -/
theorem reply_refused :
    ¬ ∀ type, (type = ptypeData ∨ type = ptypeAck ∨ type = ptypeNack) →
      ∀ (window seqnum : UInt8) (timestamp : UInt32) (payload : List UInt8),
        window.toNat ≤ maxWindowSize → payload.length ≤ maxPayloadSize →
        RoundTrips Crc.crc32 (build zeroPkt type window seqnum timestamp payload) (.replicate 528 0)
          zeroPkt := by
  intro all
  obtain ⟨encoded, len, q, sent, received, -⟩ :=
    all ptypeAck (.inr (.inl rfl)) 3 7 0 [] (by decide) (by decide)
  obtain ⟨settable, type, -⟩ :=
    @build_settable zeroPkt ptypeAck (.inr (.inl rfl)) 3 7 0 [] (by decide)
  obtain ⟨encoded', rest, len', sent', bytes, long⟩ :=
    @Settable.encode Crc.crc32 _ _ settable (.replicate 528 0)
  rw [sent'] at sent
  cases sent
  have refused := pktDecode_reply settable.known (by rw [type]; decide) bytes long (pktNew zeroPkt)
  rw [refused] at received
  cases received

end SegmentTransfer.Exercise
