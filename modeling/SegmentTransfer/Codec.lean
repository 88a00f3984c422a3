import SegmentTransfer.Packet

/-! # Encoding and decoding packets

`pkt_encode` and `pkt_decode`, over an arbitrary checksum function of bytes.
The two are summed up by the frame that an encoder leaves in its buffer
(`frame`), the status a decoder returns (`verdict`) and the packet it fills
(`received`); later modules use these and never open the two functions again.
-/

namespace SegmentTransfer

open Bytes Outcome

/-- `struct timeval`. -/
structure Timeval where
  sec : Int
  usec : Int
  deriving DecidableEq, Repr

/-- `tv.tv_sec * 1000000 + tv.tv_usec`, as converted to a 32-bit timestamp. -/
def Timeval.stamp (tv : Timeval) : UInt32 := UInt32.ofInt (tv.sec * 1000000 + tv.usec)

/-- What `pkt_encode` leaves behind: its status, the packet it updated, the buffer and `*len`. -/
structure Encoded (n : Nat) where
  status : PktStatusCode
  pkt : Pkt
  buf : Buf n
  len : Nat

section

variable (crc32 : List UInt8 → UInt32) {n : Nat}

/-- `pkt_encode`; `clock` is what `gettimeofday` returns. -/
def pktEncode (clock : Timeval) (pkt : Pkt) (buf : Buf n) (len : Nat) :
    Except Fault (Encoded n) := do
  let length := (pktGetLength pkt).toNat
  let pkt := (pktSetTimestamp pkt clock.stamp).2
  let lengthTot := if pktGetTr pkt = 0 ∧ length > 0 then length + 4 else length
  let buf ← orFail .bufferWrite (buf.write? 0 pkt.header)
  let head ← orFail .bufferRead (buf.read? 0 8)
  let crc1 := crc32 head
  let buf ← orFail .bufferWrite (buf.write? 8 (le 4 (htonl crc1).toNat))
  let stored := pktSetCrc1 pkt crc1
  if stored.1 ≠ .pktOk then return { status := .eCrc, pkt := stored.2, buf, len }
  let pkt := stored.2
  let body ← orFail .payloadRead ((pktGetPayload pkt).read? length)
  let buf ← orFail .bufferWrite (buf.write? 12 body)
  if pktGetTr pkt = 0 then
    let crc2 := crc32 body
    let buf ← orFail .bufferWrite (buf.write? (length + 12) (le 4 (htonl crc2).toNat))
    return { status := .pktOk, pkt := (pktSetCrc2 pkt crc2).2, buf, len := lengthTot + 12 }
  return { status := .pktOk, pkt, buf, len := lengthTot + 12 }

/-- The end of `pkt_decode`, from "Décodage payload" on, once the header is accepted. -/
def decodePayload (data : Buf n) (pktLength : UInt16) (pkt : Pkt) :
    Except Fault (PktStatusCode × Pkt) := do
  if pktLength = 0 then return (.pktOk, pkt)
  let payloadBytes ← orFail .bufferRead (data.read? 12 pktLength.toNat)
  let set := pktSetPayload pkt payloadBytes pktLength
  if set.1 ≠ .pktOk then return set
  if pktGetTr set.2 ≠ 0 then return set
  let crc2Bytes ← orFail .bufferRead (data.read? (12 + pktLength.toNat) 4)
  let crc2 := ntohl (UInt32.ofNat (ofLe crc2Bytes))
  let body ← orFail .payloadRead ((pktGetPayload set.2).read? pktLength.toNat)
  if crc2 ≠ crc32 body then return (.eCrc, set.2)
  return pktSetCrc2 set.2 crc2

/-- `pkt_decode`. -/
def pktDecode (data : Buf n) (len : Nat) (pkt : Pkt) : Except Fault (PktStatusCode × Pkt) := do
  if len = 0 then return (.eUnconsistent, pkt)
  if len < 4 then return (.eNoheader, pkt)
  let first ← orFail .bufferRead (data.read? 0 1)
  let pkt := pkt.withFirstByte (UInt8.ofNat (ofLe first))
  let second ← orFail .bufferRead (data.read? 1 1)
  let set := pktSetSeqnum pkt (UInt8.ofNat (ofLe second))
  if set.1 ≠ .pktOk then return set
  let lengthBytes ← orFail .bufferRead (data.read? 2 2)
  let pktLength := ntohs (UInt16.ofNat (ofLe lengthBytes))
  let set := pktSetLength set.2 pktLength
  if set.1 ≠ .pktOk then return set
  let timestampBytes ← orFail .bufferRead (data.read? 4 4)
  let set := pktSetTimestamp set.2 (UInt32.ofNat (ofLe timestampBytes))
  if set.1 ≠ .pktOk then return set
  let crc1Bytes ← orFail .bufferRead (data.read? 8 4)
  let crc1 := ntohl (UInt32.ofNat (ofLe crc1Bytes))
  let head ← orFail .bufferRead (data.read? 0 8)
  if crc1 ≠ crc32 head then return (.eCrc, set.2)
  let set := pktSetCrc1 set.2 crc1
  if set.1 ≠ .pktOk then return set
  decodePayload crc32 data pktLength set.2

end

/-! ## What an encoder leaves -/

section

variable (crc32 : List UInt8 → UInt32)

/-- The bytes an encoder writes; with `TR = 0` a checksum follows even an empty payload. -/
def written (pkt : Pkt) (body : List UInt8) : List UInt8 :=
  pkt.header ++ be 4 (crc32 pkt.header).toNat ++ body ++
    (if pkt.tr = 0 then be 4 (crc32 body).toNat else [])

/-- The datagram: what an encoder wrote, up to the length it reports. -/
def frame (pkt : Pkt) (body : List UInt8) : List UInt8 :=
  pkt.header ++ be 4 (crc32 pkt.header).toNat ++ body ++
    (if pkt.tr = 0 ∧ body ≠ [] then be 4 (crc32 body).toNat else [])

/-- The packet after encoding: both checksums are stored in it. -/
def checksummed (pkt : Pkt) (body : List UInt8) : Pkt :=
  { pkt with
    crc1 := htonl (crc32 pkt.header)
    crc2 := if pkt.tr = 0 then htonl (crc32 body) else pkt.crc2 }

end

variable {crc32 : List UInt8 → UInt32} {n : Nat}

theorem Payload.read?_length {p : Payload} {k : Nat} {body : List UInt8}
    (h : p.read? k = some body) : body.length = k := by
  cases p with
  | null | freed =>
      cases k with
      | zero =>
          cases h
          rfl
      | succ k => cases h
  | block bytes =>
      simp only [Payload.read?] at h
      split at h
      · cases h
        simp only [List.length_take]
        omega
      · cases h

theorem pktGetTr_eq_zero (pkt : Pkt) : pktGetTr pkt = 0 ↔ pkt.tr = 0 := by
  simp only [pktGetTr, ← BitVec.toNat_inj]
  rfl

theorem frame_length (pkt : Pkt) (body : List UInt8) :
    (frame crc32 pkt body).length =
      (if pkt.tr = 0 ∧ body ≠ [] then body.length + 4 else body.length) + 12 := by
  simp only [frame, List.length_append, Pkt.header_length, be_length]
  split
  · simp only [be_length]
    omega
  · simp only [List.length_nil]
    omega

theorem frame_bare_length (pkt : Pkt) : (frame crc32 pkt []).length = 12 := by
  rw [frame_length]
  simp

theorem written_length (pkt : Pkt) (body : List UInt8) :
    (written crc32 pkt body).length = 12 + body.length + (if pkt.tr = 0 then 4 else 0) := by
  simp only [written, List.length_append, Pkt.header_length, be_length]
  split <;> simp

theorem frame_528 (crc32 : List UInt8 → UInt32) (pkt : Pkt) {body : List UInt8}
    (fits : body.length ≤ maxPayloadSize) : (frame crc32 pkt body).length ≤ 528 := by
  simp only [maxPayloadSize] at fits
  rw [frame_length]
  split <;> omega

theorem written_eq_frame (crc32 : List UInt8 → UInt32) (pkt : Pkt) (body : List UInt8) :
    ∃ extra, written crc32 pkt body = frame crc32 pkt body ++ extra := by
  by_cases tr : pkt.tr = 0
  · by_cases empty : body = []
    · exact ⟨be 4 (crc32 []).toNat, by simp [written, frame, tr, empty]⟩
    · exact ⟨[], by simp [written, frame, tr, empty]⟩
  · exact ⟨[], by simp only [written, frame, tr, if_false, false_and, List.append_nil]⟩

theorem fill_written (crc32 : List UInt8 → UInt32) {pkt : Pkt} {body : List UInt8}
    (room : 12 + body.length + (if pkt.tr = 0 then 4 else 0) ≤ n) (buf : Buf n) :
    ∃ rest, (buf.fill (written crc32 pkt body)).bytes = frame crc32 pkt body ++ rest := by
  obtain ⟨extra, eq⟩ := written_eq_frame crc32 pkt body
  rw [Buf.fill_bytes buf (by rw [written_length]; exact room)]
  exact ⟨extra ++ buf.bytes.drop (written crc32 pkt body).length, by
    conv_lhs => rw [eq]
    rw [List.append_assoc, eq]⟩

theorem room_le (pkt : Pkt) {body : List UInt8} (room : 16 + body.length ≤ n) :
    12 + body.length + (if pkt.tr = 0 then 4 else 0) ≤ n := by
  split <;> omega

theorem room_528 (pkt : Pkt) {body : List UInt8} (fits : body.length ≤ maxPayloadSize) :
    12 + body.length + (if pkt.tr = 0 then 4 else 0) ≤ 528 := by
  apply room_le
  simp only [maxPayloadSize] at fits
  omega

/-- Encoding a packet whose payload is present into a buffer with room for it. -/
theorem pktEncode_eq {clock : Timeval} {pkt : Pkt} {body : List UInt8}
    (present : (pktGetPayload pkt).read? (pktGetLength pkt).toNat = some body)
    (room : 12 + body.length + (if pkt.tr = 0 then 4 else 0) ≤ n) (buf : Buf n) (len : Nat) :
    pktEncode crc32 clock pkt buf len =
      .ok
        { status := .pktOk
          pkt := checksummed crc32 { pkt with timestamp := clock.stamp } body
          buf := buf.fill (written crc32 { pkt with timestamp := clock.stamp } body)
          len := (frame crc32 { pkt with timestamp := clock.stamp } body).length } := by
  have bodyLength : (pktGetLength pkt).toNat = body.length := (Payload.read?_length present).symm
  have nonempty : body.length > 0 ↔ body ≠ [] := List.length_pos_iff
  -- the timestamp and the first checksum leave the payload where it is
  have samePayload : ∀ t c, pktGetPayload { pkt with timestamp := t, crc1 := c } = pktGetPayload pkt :=
    fun _ _ => rfl
  have header8 : ∀ p : Pkt, slice (buf.fill p.header).bytes 0 8 = p.header := by
    intro p
    rw [Buf.fill_slice buf (by simp; omega) (by simp)]
    simpa using slice_self p.header
  rw [bodyLength] at present
  unfold pktEncode
  simp only [pktSetTimestamp, pktSetCrc1, pktSetCrc2, bodyLength, ne_eq, not_true_eq_false,
    if_false]
  rw [Buf.write?_zero buf (by simp; omega), orFail_some, ok_bind,
    Buf.read?_inside _ (by omega), orFail_some, ok_bind, header8, le_htonl,
    Buf.write?_fill buf (by simp) (by simp; omega), orFail_some, ok_bind, samePayload,
    present, orFail_some, ok_bind, Buf.write?_fill buf (by simp) (by omega), orFail_some, ok_bind]
  have trSame : ∀ t c, pktGetTr { pkt with timestamp := t, crc1 := c } = pktGetTr pkt :=
    fun _ _ => rfl
  have trStamped : ∀ t, pktGetTr { pkt with timestamp := t } = pktGetTr pkt := fun _ => rfl
  rw [frame_length]
  simp only [trSame, nonempty, pktGetTr_eq_zero]
  by_cases tr : pkt.tr = 0
  · simp only [tr, if_true] at room
    simp only [tr, if_true, le_htonl]
    rw [Buf.write?_fill buf (by simp; omega) (by simp; omega), orFail_some, ok_bind]
    simp only [written, checksummed, if_true]
    rfl
  · simp only [tr, if_false, written, checksummed, List.append_nil]
    rfl

theorem pktEncode_cases {clock : Timeval} {pkt : Pkt} {buf : Buf n} {len : Nat} {e : Encoded n}
    (h : pktEncode crc32 clock pkt buf len = .ok e) :
    e.status = .pktOk ∧ ∃ crc1 crc2, e.pkt = { pkt with timestamp := clock.stamp, crc1, crc2 } := by
  unfold pktEncode at h
  obtain ⟨buf₁, -, h⟩ := bind_eq_ok.mp h
  obtain ⟨head, -, h⟩ := bind_eq_ok.mp h
  obtain ⟨buf₂, -, h⟩ := bind_eq_ok.mp h
  simp only [pktSetCrc1_status, ne_eq, not_true_eq_false, if_false] at h
  obtain ⟨body, -, h⟩ := bind_eq_ok.mp h
  obtain ⟨buf₃, -, h⟩ := bind_eq_ok.mp h
  split at h
  · obtain ⟨buf₄, -, h⟩ := bind_eq_ok.mp h
    cases h
    exact ⟨rfl, _, _, rfl⟩
  · cases h
    exact ⟨rfl, _, _, rfl⟩

theorem pktEncode_unreadable {clock : Timeval} {pkt : Pkt}
    (absent : (pktGetPayload pkt).read? (pktGetLength pkt).toNat = none) (room : 12 ≤ n)
    (buf : Buf n) (len : Nat) : pktEncode crc32 clock pkt buf len = .error .payloadRead := by
  have samePayload : ∀ t c, pktGetPayload { pkt with timestamp := t, crc1 := c } = pktGetPayload pkt :=
    fun _ _ => rfl
  unfold pktEncode
  simp only [pktSetTimestamp, pktSetCrc1, ne_eq, not_true_eq_false, if_false]
  rw [Buf.write?_zero buf (by simp; omega), orFail_some, ok_bind,
    Buf.read?_inside _ (by omega), orFail_some, ok_bind,
    Buf.write?_fill buf (by simp) (by simp; omega), orFail_some, ok_bind, samePayload, absent]
  rfl

/-! ## What a decoder returns -/

/-- The fields a decoder reads, from the bytes of its buffer. -/
def firstField (bs : List UInt8) : UInt8 := UInt8.ofNat (ofLe (slice bs 0 1))

def trField (bs : List UInt8) : BitVec 1 := (firstField bs).toBitVec.extractLsb' 5 1

def lengthField (bs : List UInt8) : UInt16 := ntohs (UInt16.ofNat (ofLe (slice bs 2 2)))

def crc1Field (bs : List UInt8) : UInt32 := ntohl (UInt32.ofNat (ofLe (slice bs 8 4)))

def payloadField (bs : List UInt8) : List UInt8 := slice bs 12 (lengthField bs).toNat

def crc2Field (bs : List UInt8) : UInt32 :=
  ntohl (UInt32.ofNat (ofLe (slice bs (12 + (lengthField bs).toNat) 4)))

/-- The status of a decoder. -/
def verdict (crc32 : List UInt8 → UInt32) (bs : List UInt8) (len : Nat) : PktStatusCode :=
  if len = 0 then .eUnconsistent
  else if len < 4 then .eNoheader
  else if (lengthField bs).toNat > maxPayloadSize then .eLength
  else if crc1Field bs ≠ crc32 (slice bs 0 8) then .eCrc
  else if lengthField bs ≠ 0 ∧ trField bs = 0 ∧ crc2Field bs ≠ crc32 (payloadField bs) then .eCrc
  else .pktOk

/-- The packet once the decoder has read the header and accepted its checksum. -/
def headed (bs : List UInt8) (pkt : Pkt) : Pkt :=
  { pkt.withFirstByte (firstField bs) with
    seqnum := UInt8.ofNat (ofLe (slice bs 1 1))
    length := htons (lengthField bs)
    timestamp := UInt32.ofNat (ofLe (slice bs 4 4))
    crc1 := htonl (crc1Field bs) }

/-- The packet a successful decoder leaves. -/
def received (bs : List UInt8) (pkt : Pkt) : Pkt :=
  { headed bs pkt with
    payload := if lengthField bs = 0 then pkt.payload else .block (payloadField bs)
    crc2 := if lengthField bs ≠ 0 ∧ trField bs = 0 then htonl (crc2Field bs) else pkt.crc2 }

theorem read_inside (data : Buf n) {off k : Nat} (inside : off + k ≤ n) :
    orFail Fault.bufferRead (data.read? off k) = .ok (slice data.bytes off k) := by
  rw [Buf.read?_inside data inside, orFail_some]

/-- The payload's half of a decoder, on a 528-byte buffer. -/
theorem decodePayload_spec (crc32 : List UInt8 → UInt32) (data : Buf 528) {pkt : Pkt}
    (tr : pkt.tr = trField data.bytes)
    (length : pkt.length = htons (lengthField data.bytes))
    (fits : (lengthField data.bytes).toNat ≤ maxPayloadSize) :
    ∃ q, decodePayload crc32 data (lengthField data.bytes) pkt =
        .ok (if lengthField data.bytes ≠ 0 ∧ trField data.bytes = 0 ∧
            crc2Field data.bytes ≠ crc32 (payloadField data.bytes) then .eCrc else .pktOk, q) ∧
      (¬(lengthField data.bytes ≠ 0 ∧ trField data.bytes = 0 ∧
          crc2Field data.bytes ≠ crc32 (payloadField data.bytes)) →
        q =
          { pkt with
            payload :=
              if lengthField data.bytes = 0 then pkt.payload else .block (payloadField data.bytes)
            crc2 :=
              if lengthField data.bytes ≠ 0 ∧ trField data.bytes = 0 then
                htonl (crc2Field data.bytes)
              else pkt.crc2 }) := by
  by_cases zero : lengthField data.bytes = 0
  · refine ⟨pkt, ?_, fun _ => ?_⟩
    · simp only [decodePayload, zero, if_true, ne_eq, not_true_eq_false, false_and, if_false]
      rfl
    · simp only [zero, if_true, ne_eq, not_true_eq_false, false_and, if_false]
  have inside : 12 + (lengthField data.bytes).toNat + 4 ≤ 528 := by
    simp only [maxPayloadSize] at fits
    omega
  have payloadLength : (payloadField data.bytes).length = (lengthField data.bytes).toNat :=
    slice_length (by rw [data.size]; omega)
  have whole : (payloadField data.bytes).take (lengthField data.bytes).toNat =
      payloadField data.bytes := List.take_of_length_le (Nat.le_of_eq payloadLength)
  have crc2Eq : ntohl (UInt32.ofNat (ofLe (slice data.bytes (12 + (lengthField data.bytes).toNat) 4)))
      = crc2Field data.bytes := rfl
  have ok : (pktSetPayload pkt (payloadField data.bytes) (lengthField data.bytes)).1 = .pktOk := by
    rw [pktSetPayload_fits _ _ fits]
  have payloadRead : orFail Fault.bufferRead (data.read? 12 (lengthField data.bytes).toNat) =
      .ok (payloadField data.bytes) := read_inside data (by omega)
  simp only [decodePayload, zero, if_false, payloadRead, ok_bind, ok, ne_eq, not_true_eq_false,
    pktGetTr_setPayload _ _ fits, pktGetTr_eq_zero, tr]
  by_cases tr0 : trField data.bytes = 0
  · simp only [tr0, not_true_eq_false, if_false, not_false_eq_true, true_and, if_true]
    rw [pktGetPayload_setPayload _ _ fits (tr.trans tr0) zero, whole, Payload.read?,
      if_pos (Nat.le_of_eq payloadLength.symm), whole, orFail_some, read_inside data inside]
    simp only [ok_bind, crc2Eq]
    by_cases crc2 : crc2Field data.bytes = crc32 (payloadField data.bytes)
    · simp only [crc2, not_true_eq_false, if_false]
      refine ⟨_, rfl, fun _ => ?_⟩
      simp only [pktSetPayload_fits _ _ fits, whole, tr, tr0, length]
    · simp only [crc2, not_false_eq_true, if_true]
      exact ⟨_, rfl, fun h => (h trivial).elim⟩
  · simp only [tr0, not_false_eq_true, if_true, true_and, false_and, if_false]
    rw [pktSetPayload_fits _ _ fits, whole]
    exact ⟨_, rfl, fun _ => by simp only [tr, length]⟩

/-- A decoder of a whole 528-byte buffer stays inside it, and this is what it returns. -/
theorem pktDecode_spec (crc32 : List UInt8 → UInt32) (data : Buf 528) (len : Nat) (pkt : Pkt) :
    ∃ q, pktDecode crc32 data len pkt = .ok (verdict crc32 data.bytes len, q) ∧
      (verdict crc32 data.bytes len = .pktOk → q = received data.bytes pkt) := by
  have lengthEq : ntohs (UInt16.ofNat (ofLe (slice data.bytes 2 2))) = lengthField data.bytes := rfl
  have crc1Eq : ntohl (UInt32.ofNat (ofLe (slice data.bytes 8 4))) = crc1Field data.bytes := rfl
  unfold verdict
  by_cases empty : len = 0
  · exact ⟨pkt, by simp only [pktDecode, empty, if_true]; rfl, by simp [empty]⟩
  by_cases short : len < 4
  · exact ⟨pkt, by simp only [pktDecode, empty, short, if_true, if_false]; rfl, by simp [empty, short]⟩
  simp only [pktDecode, empty, short, if_false, read_inside data (show 0 + 1 ≤ 528 by decide),
    read_inside data (show 1 + 1 ≤ 528 by decide),
    read_inside data (show 2 + 2 ≤ 528 by decide),
    read_inside data (show 4 + 4 ≤ 528 by decide),
    read_inside data (show 8 + 4 ≤ 528 by decide),
    read_inside data (show 0 + 8 ≤ 528 by decide), ok_bind,
    pktSetSeqnum_status, pktSetTimestamp_status, pktSetCrc1_status, ne_eq, not_true_eq_false,
    lengthEq, crc1Eq]
  by_cases long : (lengthField data.bytes).toNat > maxPayloadSize
  · simp only [pktSetLength_long _ long, long, reduceCtorEq, not_false_eq_true, if_true]
    exact ⟨_, rfl, fun h => by cases h⟩
  have fits : (lengthField data.bytes).toNat ≤ maxPayloadSize := Nat.not_lt.mp long
  simp only [pktSetLength_fits _ fits, long, not_true_eq_false, if_false]
  by_cases crc1 : crc1Field data.bytes = crc32 (slice data.bytes 0 8)
  · obtain ⟨q, decoded, filled⟩ :=
      decodePayload_spec crc32 data (show (headed data.bytes pkt).tr = _ from rfl) rfl fits
    simp only [← crc1, not_true_eq_false, if_false]
    refine ⟨q, decoded, fun accepted => filled fun bad => ?_⟩
    rw [if_pos bad] at accepted
    cases accepted
  · simp only [crc1, not_false_eq_true, if_true]
    exact ⟨_, rfl, fun h => by cases h⟩

theorem pktDecode_long (crc32 : List UInt8 → UInt32) (data : Buf 528) {len : Nat} (four : 4 ≤ len)
    (long : (lengthField data.bytes).toNat > maxPayloadSize) (pkt : Pkt) :
    pktDecode crc32 data len pkt =
      .ok (.eLength,
        { pkt.withFirstByte (firstField data.bytes) with
          seqnum := UInt8.ofNat (ofLe (slice data.bytes 1 1)) }) := by
  have empty : ¬ len = 0 := by omega
  have short : ¬ len < 4 := by omega
  have lengthEq : ntohs (UInt16.ofNat (ofLe (slice data.bytes 2 2))) = lengthField data.bytes := rfl
  simp only [pktDecode, empty, short, if_false, read_inside data (show 0 + 1 ≤ 528 by omega),
    read_inside data (show 1 + 1 ≤ 528 by omega), read_inside data (show 2 + 2 ≤ 528 by omega),
    ok_bind, pktSetSeqnum_status, ne_eq, not_true_eq_false, lengthEq, pktSetLength_long _ long,
    reduceCtorEq, not_false_eq_true, if_true]
  rfl

/-! ## Decoding a frame -/

theorem ntohl_be32 (x : UInt32) : ntohl (UInt32.ofNat (ofLe (be 4 x.toNat))) = x := ntohl_htonl x

theorem header_fields (pkt : Pkt) (rest : List UInt8) :
    firstField (pkt.header ++ rest) = pkt.firstByte ∧
    UInt8.ofNat (ofLe (slice (pkt.header ++ rest) 1 1)) = pkt.seqnum ∧
    lengthField (pkt.header ++ rest) = ntohs pkt.length ∧
    UInt32.ofNat (ofLe (slice (pkt.header ++ rest) 4 4)) = pkt.timestamp ∧
    slice (pkt.header ++ rest) 0 8 = pkt.header := by
  have inside : ∀ off k, off + k ≤ 8 →
      slice (pkt.header ++ rest) off k = slice pkt.header off k := by
    intro off k h
    exact slice_append_left (by rw [Pkt.header_length]; exact h)
  have first : slice pkt.header 0 1 = [pkt.firstByte] := rfl
  have second : slice pkt.header 1 1 = [pkt.seqnum] := rfl
  have third : slice pkt.header 2 2 = le 2 pkt.length.toNat := rfl
  have fifth : slice pkt.header 4 4 = le 4 pkt.timestamp.toNat := rfl
  refine ⟨?_, ?_, ?_, ?_, ?_⟩
  · rw [firstField, inside 0 1 (by omega), first, ofNat_byte]
  · rw [inside 1 1 (by omega), second, ofNat_byte]
  · rw [lengthField, inside 2 2 (by omega), third, ofNat_le16]
  · rw [inside 4 4 (by omega), fifth, ofNat_le32]
  · rw [inside 0 8 (by omega)]
    rfl

theorem frame_eq (pkt : Pkt) (body : List UInt8) :
    frame crc32 pkt body = pkt.header ++ (be 4 (crc32 pkt.header).toNat ++ (body ++
      (if pkt.tr = 0 ∧ body ≠ [] then be 4 (crc32 body).toNat else []))) := by
  simp only [frame, List.append_assoc]

theorem frame_crc1 (crc32 : List UInt8 → UInt32) (pkt : Pkt) (body rest : List UInt8) :
    crc1Field (frame crc32 pkt body ++ rest) = crc32 pkt.header := by
  have field : slice (frame crc32 pkt body ++ rest) 8 4 = be 4 (crc32 pkt.header).toNat := by
    have := slice_middle pkt.header (be 4 (crc32 pkt.header).toNat)
      (body ++ (if pkt.tr = 0 ∧ body ≠ [] then be 4 (crc32 body).toNat else []) ++ rest)
    simpa only [Pkt.header_length, be_length, frame, List.append_assoc] using this
  rw [crc1Field, field, ntohl_be32]

theorem frame_tr (pkt : Pkt) (body rest : List UInt8) :
    trField (frame crc32 pkt body ++ rest) = pkt.tr := by
  rw [trField, frame_eq, List.append_assoc, (header_fields pkt _).1]
  exact congrArg Pkt.tr (Pkt.withFirstByte_firstByte pkt pkt)

theorem frame_lengthField (pkt : Pkt) (body rest : List UInt8) :
    lengthField (frame crc32 pkt body ++ rest) = ntohs pkt.length := by
  rw [frame_eq, List.append_assoc, (header_fields pkt _).2.2.1]

theorem frame_payload (crc32 : List UInt8 → UInt32) {pkt : Pkt} {body : List UInt8} (tr : pkt.tr = 0)
    (bodyLength : body.length = (ntohs pkt.length).toNat) (rest : List UInt8) :
    payloadField (frame crc32 pkt body ++ rest) = body ∧
      (body ≠ [] → crc2Field (frame crc32 pkt body ++ rest) = crc32 body) := by
  constructor
  · have := slice_middle (pkt.header ++ be 4 (crc32 pkt.header).toNat) body
      ((if pkt.tr = 0 ∧ body ≠ [] then be 4 (crc32 body).toNat else []) ++ rest)
    rw [payloadField, frame_lengthField, ← bodyLength]
    simpa only [Pkt.header_length, be_length, frame, List.append_assoc, List.length_append] using this
  · intro nonempty
    have field : slice (frame crc32 pkt body ++ rest) (12 + body.length) 4 =
        be 4 (crc32 body).toNat := by
      have := slice_middle (pkt.header ++ be 4 (crc32 pkt.header).toNat ++ body)
        (be 4 (crc32 body).toNat) rest
      simpa only [Pkt.header_length, be_length, frame, List.append_assoc, List.length_append, tr,
        nonempty, ne_eq, not_false_eq_true, and_self, if_true, ← Nat.add_assoc, Nat.reduceAdd]
        using this
    rw [crc2Field, frame_lengthField, ← bodyLength, field, ntohl_be32]

theorem pktGetLength_of_tr_zero {pkt : Pkt} (tr : pkt.tr = 0) :
    pktGetLength pkt = ntohs pkt.length := if_pos tr

theorem verdict_frame {pkt : Pkt} {body : List UInt8} {len : Nat}
    (fits : (ntohs pkt.length).toNat ≤ maxPayloadSize)
    (bodyLength : body.length = (pktGetLength pkt).toNat) (long : 4 ≤ len) (rest : List UInt8) :
    verdict crc32 (frame crc32 pkt body ++ rest) len = .pktOk := by
  have header : slice (frame crc32 pkt body ++ rest) 0 8 = pkt.header := by
    rw [frame_eq, List.append_assoc, (header_fields pkt _).2.2.2.2]
  rw [verdict, if_neg (by omega), if_neg (by omega), frame_lengthField, if_neg (by omega),
    frame_crc1, header, if_neg (by simp), frame_tr]
  apply if_neg
  rintro ⟨nonzero, tr, mismatch⟩
  rw [pktGetLength_of_tr_zero tr] at bodyLength
  obtain ⟨payload, crc2⟩ := frame_payload crc32 tr bodyLength rest
  have nonempty : body ≠ [] := by
    rintro rfl
    exact nonzero (UInt16.toNat_inj.mp bodyLength.symm)
  exact mismatch (by rw [crc2 nonempty, payload])

end SegmentTransfer
