import SegmentTransfer.Truncation

/-! # Corrupted frames are refused

The checksum is the standard CRC-32. A frame in which up to four consecutive
bytes of one region were overwritten is never accepted: the checksum stored and
the bytes it covers are in different regions, so only one of them moved. The
same goes for a frame cut to its header whose `TR` bit was set on the way: the
first checksum is taken of the header as it is, `TR` included.
-/

namespace SegmentTransfer

open Bytes Outcome

/-- The bytes `off .. off + k` lie inside one region of a frame with `n` bytes of payload. -/
def InRegion (n off k : Nat) : Prop :=
  off + k ≤ 8 ∨ (8 ≤ off ∧ off + k ≤ 12) ∨
    (0 < n ∧ ((12 ≤ off ∧ off + k ≤ 12 + n) ∨ (12 + n ≤ off ∧ off + k ≤ 16 + n)))

theorem checks_of_verdict {crc32 : List UInt8 → UInt32} {bs : List UInt8} {n len : Nat}
    (length : (lengthField bs).toNat = n) (tr : trField bs = 0)
    (accepted : verdict crc32 bs len = .pktOk) :
    crc1Field bs = crc32 (slice bs 0 8) ∧
      (0 < n → ntohl (UInt32.ofNat (ofLe (slice bs (12 + n) 4))) = crc32 (slice bs 12 n)) := by
  obtain ⟨-, -, crc1, crc2⟩ := verdict_ok accepted
  refine ⟨crc1, fun positive => ?_⟩
  have nonzero : lengthField bs ≠ 0 := by
    intro zero
    rw [zero] at length
    exact absurd length (Nat.ne_of_lt positive)
  have := crc2 nonzero tr
  rwa [crc2Field, payloadField, length] at this

theorem ntohl_ofLe_inj {as bs : List UInt8} (fourA : as.length = 4) (fourB : bs.length = 4)
    (h : ntohl (UInt32.ofNat (ofLe as)) = ntohl (UInt32.ofNat (ofLe bs))) : as = bs := by
  rw [← be_ntohl fourA, h, be_ntohl fourB]

section

variable {buf data : Buf 528} {off : Nat} {d : List UInt8}

theorem crc32_slice_ne (modified : buf.write? off d = some data) (changed : data ≠ buf)
    (burst : d.length ≤ 4) {a k : Nat} (left : a ≤ off) (right : off + d.length ≤ a + k) :
    Crc.crc32 (slice data.bytes a k) ≠ Crc.crc32 (slice buf.bytes a k) := by
  obtain ⟨pre, post, new, old⟩ := Buf.write?_slice_inside modified left right
  have inside : (slice buf.bytes off d.length).length = d.length := by
    apply slice_length
    rw [buf.size]
    exact (Buf.write?_bytes modified).1
  rw [new, old]
  exact Crc.crc32_ne_of_burst inside.symm burst (Buf.write?_ne modified changed).symm

theorem slice_ne (modified : buf.write? off d = some data) (changed : data ≠ buf) {a k : Nat}
    (left : a ≤ off) (right : off + d.length ≤ a + k) :
    slice data.bytes a k ≠ slice buf.bytes a k := by
  obtain ⟨pre, post, new, old⟩ := Buf.write?_slice_inside modified left right
  rw [new, old]
  intro same
  exact Buf.write?_ne modified changed
    (List.append_cancel_left (List.append_cancel_right same)).symm

/-- Of a checksum and the bytes it covers, one moved and the other did not. -/
theorem refused_of_accepted (modified : buf.write? off d = some data) (changed : data ≠ buf)
    (burst : d.length ≤ 4) {n len len' : Nat} (region : InRegion n off d.length)
    (fits : n ≤ maxPayloadSize) (length : (lengthField buf.bytes).toNat = n)
    (tr : trField buf.bytes = 0) (accepted : verdict Crc.crc32 buf.bytes len = .pktOk) :
    verdict Crc.crc32 data.bytes len' ≠ .pktOk := by
  intro accepted'
  simp only [maxPayloadSize] at fits
  obtain ⟨crc1, crc2⟩ := checks_of_verdict length tr accepted
  have right1 := (verdict_ok accepted').2.2.1
  rcases region with header | ⟨after, before⟩ | region
  · have unmoved := Buf.write?_slice_outside modified
      (show 8 + 4 ≤ off ∨ off + d.length ≤ 8 from .inr header)
    rw [crc1Field, unmoved] at right1
    exact crc32_slice_ne modified changed burst (Nat.zero_le off)
      (by rw [Nat.zero_add]; exact header) (right1.symm.trans crc1)
  · have unmoved := Buf.write?_slice_outside modified
      (show 0 + 8 ≤ off ∨ off + d.length ≤ 0 from .inl after)
    rw [unmoved, ← crc1] at right1
    have same := ntohl_ofLe_inj (slice_length (by rw [data.size]; omega))
      (slice_length (by rw [buf.size]; omega)) right1
    exact slice_ne modified changed after before same
  · obtain ⟨positive, region⟩ := region
    have header : data.bytes.take 12 = buf.bytes.take 12 := by
      refine Buf.write?_slice_outside modified (a := 0) (.inl ?_)
      rcases region with h | h <;> omega
    have length' : (lengthField data.bytes).toNat = n := by
      rw [lengthField_congr header (by omega), length]
    have tr' : trField data.bytes = 0 := by rw [trField_congr header (by omega), tr]
    have right2 := (checks_of_verdict length' tr' accepted').2 positive
    have wrong2 := crc2 positive
    rcases region with ⟨after, before⟩ | ⟨after, before⟩
    · rw [Buf.write?_slice_outside modified (.inr before)] at right2
      exact crc32_slice_ne modified changed burst after before (right2.symm.trans wrong2)
    · rw [Buf.write?_slice_outside modified (a := 12) (.inl after), ← wrong2] at right2
      have same := ntohl_ofLe_inj (slice_length (by rw [data.size]; omega))
        (slice_length (by rw [buf.size]; omega)) right2
      exact slice_ne modified changed after (by omega) same

end

theorem encoded_frame {crc32 : List UInt8 → UInt32} {pkt : Pkt} (tr : pkt.tr = 0)
    (fits : (ntohs pkt.length).toNat ≤ maxPayloadSize)
    (present : 0 < (ntohs pkt.length).toNat →
      ∃ bytes, pkt.payload = .block bytes ∧ (ntohs pkt.length).toNat ≤ bytes.length)
    {clock : Timeval} {buf : Buf 528} {room : Nat} {e : Encoded 528}
    (encoded : pktEncode crc32 clock pkt buf room = .ok e) :
    ∃ body rest, body.length = (pktGetLength pkt).toNat ∧
      e.buf.bytes = frame crc32 { pkt with timestamp := clock.stamp } body ++ rest ∧
      e.len = (frame crc32 { pkt with timestamp := clock.stamp } body).length := by
  obtain ⟨body, readable, -⟩ := payload_readable present
  have bodyLength := Payload.read?_length readable
  have lengthEq : pktGetLength pkt = ntohs pkt.length := pktGetLength_of_tr_zero tr
  have space := room_528 pkt (show body.length ≤ maxPayloadSize by rwa [bodyLength, lengthEq])
  rw [pktEncode_eq readable space buf room, Except.ok.injEq] at encoded
  subst encoded
  obtain ⟨rest, bytes⟩ := fill_written crc32 (show 12 + body.length +
    (if ({ pkt with timestamp := clock.stamp } : Pkt).tr = 0 then 4 else 0) ≤ 528 from space) buf
  exact ⟨body, rest, bodyLength, bytes, rfl⟩

/-- An encoded frame in which up to four consecutive bytes of one region were
    overwritten, changing any bit at all, is refused. -/
theorem corruption_detected {pkt : Pkt} (tr : pkt.tr = 0)
    (fits : (ntohs pkt.length).toNat ≤ maxPayloadSize)
    (present : 0 < (ntohs pkt.length).toNat →
      ∃ bytes, pkt.payload = .block bytes ∧ (ntohs pkt.length).toNat ≤ bytes.length)
    {clock : Timeval} {buf : Buf 528} {room : Nat} {e : Encoded 528}
    (encoded : pktEncode Crc.crc32 clock pkt buf room = .ok e)
    {off : Nat} {d : List UInt8} (burst : d.length ≤ 4)
    (region : InRegion (ntohs pkt.length).toNat off d.length)
    {data : Buf 528} (modified : e.buf.write? off d = some data) (changed : data ≠ e.buf)
    (len : Nat) (dst : Pkt) :
    ∃ status q, pktDecode Crc.crc32 data len dst = .ok (status, q) ∧ status ≠ .pktOk := by
  obtain ⟨body, rest, bodyLength, bytes, -⟩ := encoded_frame tr fits present encoded
  let stamped : Pkt := { pkt with timestamp := clock.stamp }
  have accepted : verdict Crc.crc32 (frame Crc.crc32 stamped body ++ rest) 528 = .pktOk :=
    @verdict_frame Crc.crc32 stamped body 528 fits bodyLength (by omega) rest
  have length := @frame_lengthField Crc.crc32 stamped body rest
  have trSame := @frame_tr Crc.crc32 stamped body rest
  rw [← bytes] at accepted length trSame
  obtain ⟨q, decoded, -⟩ := pktDecode_spec Crc.crc32 data len dst
  exact ⟨_, q, decoded, refused_of_accepted modified changed burst region fits
    (congrArg UInt16.toNat length) (trSame.trans tr) accepted⟩

theorem corruption_detected_sample :
    ∃ e data, pktEncode Crc.crc32 ⟨1, 5⟩ samplePkt (Buf.replicate 528 0) 528 = .ok e ∧
      e.buf.write? 20 [1, 2, 3, 4] = some data ∧
      ∃ status q, pktDecode Crc.crc32 data e.len samplePkt = .ok (status, q) ∧ status ≠ .pktOk := by
  have readable : (pktGetPayload samplePkt).read? (pktGetLength samplePkt).toNat =
      some (List.replicate 16 0x54) := by decide
  have encoded := @pktEncode_eq Crc.crc32 528 ⟨1, 5⟩ samplePkt _ readable (by decide)
    (Buf.replicate 528 0) 528
  have modified := (Option.some_get (show (((Buf.replicate 528 0).fill
    (written Crc.crc32 { samplePkt with timestamp := Timeval.stamp ⟨1, 5⟩ }
      (List.replicate 16 0x54))).write? 20 [1, 2, 3, 4]).isSome by decide)).symm
  exact ⟨_, _, encoded, modified,
    corruption_detected (show samplePkt.tr = 0 by decide)
      (show (ntohs samplePkt.length).toNat ≤ maxPayloadSize by decide)
      (fun _ => ⟨List.replicate 16 0x54, rfl, by decide⟩) encoded (by decide)
      (show InRegion (ntohs samplePkt.length).toNat 20 4 from .inr (.inr (by decide))) modified
      (by decide +kernel) _ samplePkt⟩

/-! ## Truncated segments -/

/-- What a network that truncates makes of a frame. -/
def truncated (d : List UInt8) : List UInt8 :=
  match d.take 12 with
  | [] => []
  | b :: bs => (b ||| 0x20) :: bs

private theorem tr_bit : ∀ (t : BitVec 2) (r : BitVec 1) (w : BitVec 5),
    UInt8.ofBitVec (t ++ (r ++ w)) ||| 0x20 = UInt8.ofBitVec (t ++ (1#1 ++ w)) := by
  decide

theorem truncated_frame {crc32 : List UInt8 → UInt32} (pkt : Pkt) (body : List UInt8) :
    truncated (frame crc32 pkt body) =
      ({ pkt with tr := 1 } : Pkt).header ++ be 4 (crc32 pkt.header).toNat := by
  have cut : (frame crc32 pkt body).take 12 = pkt.header ++ be 4 (crc32 pkt.header).toNat := by
    rw [frame_eq, ← List.append_assoc]
    apply List.take_left'
    rw [List.length_append, Pkt.header_length, be_length]
  have first : pkt.firstByte ||| 0x20 = ({ pkt with tr := 1 } : Pkt).firstByte := tr_bit _ _ _
  rw [truncated, cut]
  simp only [Pkt.header, List.cons_append, first]

theorem pktDecode_crc1 {crc32 : List UInt8 → UInt32} {n : Nat} (data : Buf n) (whole : 12 ≤ n)
    {len : Nat} (long : 4 ≤ len) (fits : (lengthField data.bytes).toNat ≤ maxPayloadSize)
    (wrong : crc1Field data.bytes ≠ crc32 (slice data.bytes 0 8)) (dst : Pkt) :
    ∃ q, pktDecode crc32 data len dst = .ok (.eCrc, q) := by
  have empty : ¬ len = 0 := by omega
  have short : ¬ len < 4 := by omega
  have lengthEq : ntohs (UInt16.ofNat (ofLe (slice data.bytes 2 2))) = lengthField data.bytes := rfl
  have crc1Eq : ntohl (UInt32.ofNat (ofLe (slice data.bytes 8 4))) = crc1Field data.bytes := rfl
  simp only [pktDecode, empty, short, if_false, read_inside data (show 0 + 1 ≤ n by omega),
    read_inside data (show 1 + 1 ≤ n by omega), read_inside data (show 2 + 2 ≤ n by omega),
    read_inside data (show 4 + 4 ≤ n by omega), read_inside data (show 8 + 4 ≤ n by omega),
    read_inside data (show 0 + 8 ≤ n by omega), ok_bind, pktSetSeqnum_status, pktSetTimestamp_status,
    ne_eq, not_true_eq_false, lengthEq, crc1Eq, pktSetLength_fits _ fits, wrong, not_false_eq_true,
    if_true]
  exact ⟨_, rfl⟩

/-- The decoder takes the twelve bytes for a truncated copy of the packet. -/
def Recognised (crc32 : List UInt8 → UInt32) {n : Nat} (data : Buf n) (pkt dst : Pkt) : Prop :=
  ∃ q, pktDecode crc32 data 12 dst = .ok (.pktOk, q) ∧ pktGetTr q = 1 ∧ pktGetLength q = 0 ∧
    pktGetType q = pktGetType pkt ∧ pktGetWindow q = pktGetWindow pkt ∧
    pktGetSeqnum q = pktGetSeqnum pkt ∧ pktGetTimestamp q = pktGetTimestamp pkt

theorem truncated_crc1 {pkt : Pkt} (tr : pkt.tr = 0) {body bs : List UInt8}
    (cut : bs.take 12 = truncated (frame Crc.crc32 pkt body)) :
    lengthField bs = ntohs pkt.length ∧ crc1Field bs ≠ Crc.crc32 (slice bs 0 8) := by
  let set : Pkt := { pkt with tr := 1 }
  have bytes : bs = set.header ++ (be 4 (Crc.crc32 pkt.header).toNat ++ bs.drop 12) := by
    rw [← List.append_assoc, ← truncated_frame, ← cut, List.take_append_drop]
  obtain ⟨-, -, length, -, header⟩ :=
    header_fields set (be 4 (Crc.crc32 pkt.header).toNat ++ bs.drop 12)
  have field : slice bs 8 4 = be 4 (Crc.crc32 pkt.header).toNat := by
    have := slice_middle set.header (be 4 (Crc.crc32 pkt.header).toNat) (bs.drop 12)
    rwa [Pkt.header_length, be_length, List.append_assoc, ← bytes] at this
  rw [← bytes] at length header
  refine ⟨length, ?_⟩
  rw [crc1Field, field, ntohl_be32, header]
  have moved : pkt.firstByte ≠ set.firstByte := by
    intro same
    have fields := pkt.withFirstByte_firstByte pkt
    rw [same, Pkt.withFirstByte_firstByte] at fields
    have : (1 : BitVec 1) = pkt.tr := congrArg Pkt.tr fields
    rw [tr] at this
    cases this
  let rest := [pkt.seqnum] ++ le 2 pkt.length.toNat ++ le 4 pkt.timestamp.toNat
  have short : [pkt.firstByte].length ≤ 4 := Nat.one_le_ofNat
  exact @Crc.crc32_ne_of_burst [] [pkt.firstByte] [set.firstByte] rest rfl short (by simpa using moved)

theorem truncated_length {crc32 : List UInt8 → UInt32} (pkt : Pkt) (body : List UInt8) :
    (truncated (frame crc32 pkt body)).length = 12 := by
  rw [truncated_frame, List.length_append, Pkt.header_length, be_length]

theorem truncated_refused {pkt : Pkt} (tr : pkt.tr = 0)
    (fits : (ntohs pkt.length).toNat ≤ maxPayloadSize) {body : List UInt8} {n : Nat} {data : Buf n}
    (cut : data.bytes.take 12 = truncated (frame Crc.crc32 pkt body)) (dst : Pkt) :
    ∃ q, pktDecode Crc.crc32 data 12 dst = .ok (.eCrc, q) := by
  obtain ⟨length, wrong⟩ := truncated_crc1 tr cut
  have whole : 12 ≤ n := by
    have twelve := congrArg List.length cut
    rw [truncated_length, List.length_take, data.size] at twelve
    omega
  exact pktDecode_crc1 data whole (show 4 ≤ 12 by decide) (length ▸ fits) wrong dst

/-- No frame cut to its header is recognised once its `TR` is set. -/
theorem truncation_unrecognised {pkt : Pkt} (tr : pkt.tr = 0)
    (fits : (ntohs pkt.length).toNat ≤ maxPayloadSize)
    (present : 0 < (ntohs pkt.length).toNat →
      ∃ bytes, pkt.payload = .block bytes ∧ (ntohs pkt.length).toNat ≤ bytes.length)
    {clock : Timeval} {buf : Buf 528} {room : Nat} {e : Encoded 528}
    (encoded : pktEncode Crc.crc32 clock pkt buf room = .ok e) {n : Nat} {data : Buf n}
    (cut : data.bytes.take 12 = truncated (e.buf.bytes.take e.len)) (dst : Pkt) :
    ¬ Recognised Crc.crc32 data e.pkt dst := by
  obtain ⟨body, rest, -, bytes, length⟩ := encoded_frame tr fits present encoded
  let stamped : Pkt := { pkt with timestamp := clock.stamp }
  rw [bytes, length, List.take_left] at cut
  obtain ⟨q, refused⟩ := @truncated_refused stamped tr fits body n data cut dst
  rintro ⟨q', accepted, -⟩
  rw [refused] at accepted
  cases accepted

theorem sample_truncated :
    ∃ (e : Encoded 528) (data : Buf 12),
      pktEncode Crc.crc32 ⟨1, 5⟩ samplePkt (Buf.replicate 528 0) 528 = .ok e ∧
      data.bytes = truncated (e.buf.bytes.take e.len) ∧
      ∃ q, pktDecode Crc.crc32 data 12 samplePkt = .ok (.eCrc, q) := by
  have readable : (pktGetPayload samplePkt).read? (pktGetLength samplePkt).toNat =
      some (List.replicate 16 0x54) := by decide
  have encoded := @pktEncode_eq Crc.crc32 528 ⟨1, 5⟩ samplePkt _ readable (by decide)
    (Buf.replicate 528 0) 528
  let stamped : Pkt := { samplePkt with timestamp := Timeval.stamp ⟨1, 5⟩ }
  let data : Buf 12 :=
    ⟨truncated (frame Crc.crc32 stamped (List.replicate 16 0x54)), truncated_length _ _⟩
  obtain ⟨rest, bytes⟩ := @fill_written 528 Crc.crc32 stamped (List.replicate 16 0x54) (by decide)
    (Buf.replicate 528 0)
  have whole : data.bytes.take 12 = truncated (frame Crc.crc32 stamped (List.replicate 16 0x54)) :=
    List.take_of_length_le (Nat.le_of_eq data.size)
  refine ⟨_, data, encoded, ?_, truncated_refused rfl (by decide) whole samplePkt⟩
  rw [bytes, List.take_left]

theorem truncation_unrecognised_sample :
    ∃ (e : Encoded 528) (data : Buf 12),
      pktEncode Crc.crc32 ⟨1, 5⟩ samplePkt (Buf.replicate 528 0) 528 = .ok e ∧
      data.bytes = truncated (e.buf.bytes.take e.len) ∧
      ¬ Recognised Crc.crc32 data e.pkt samplePkt := by
  obtain ⟨e, data, encoded, cut, -⟩ := sample_truncated
  have whole : data.bytes.take 12 = truncated (e.buf.bytes.take e.len) := by
    rw [← cut]
    exact List.take_of_length_le (Nat.le_of_eq data.size)
  exact ⟨e, data, encoded, cut,
    truncation_unrecognised (show samplePkt.tr = 0 by decide)
      (show (ntohs samplePkt.length).toNat ≤ maxPayloadSize by decide)
      (fun _ => ⟨List.replicate 16 0x54, rfl, by decide⟩) encoded whole samplePkt⟩

/-- The frame of one segment is cut and its `TR` set. -/
theorem truncation_refused :
    ¬ ∀ (pkt : Pkt) (clock : Timeval) (buf : Buf 528) (room : Nat) (e : Encoded 528) (data : Buf 12)
      (dst : Pkt), pktGetType pkt = ptypeData → pkt.tr = 0 → 0 < (ntohs pkt.length).toNat →
      (ntohs pkt.length).toNat ≤ maxPayloadSize →
      (∃ bytes, pkt.payload = .block bytes ∧ (ntohs pkt.length).toNat ≤ bytes.length) →
      pktEncode Crc.crc32 clock pkt buf room = .ok e →
      data.bytes = truncated (e.buf.bytes.take e.len) → Recognised Crc.crc32 data e.pkt dst := by
  intro recognised
  obtain ⟨e, data, encoded, cut, q, refused⟩ := sample_truncated
  obtain ⟨q', accepted, -⟩ := recognised samplePkt ⟨1, 5⟩ (Buf.replicate 528 0) 528 e data samplePkt
    rfl rfl (by decide) (by decide) ⟨List.replicate 16 0x54, rfl, by decide⟩ encoded cut
  rw [refused] at accepted
  cases accepted

end SegmentTransfer
