import SegmentTransfer.Library.Transition
import SegmentTransfer.RoundTrip

/-! # Sequences of calls on a packet

Any setters and decoders, one after another, on a packet from `pkt_new`. A
decoder copies the header byte by byte before it has checked it, so what a
packet keeps depends on where a decoder gives up.
-/

namespace SegmentTransfer

open Bytes Outcome

variable {crc32 : List UInt8 → UInt32} {n : Nat}

/-! ## Where a decoder gives up -/

/-- What a decoder returns and the packet it leaves, over a buffer of any size. -/
inductive Decodes (crc32 : List UInt8 → UInt32) (data : Buf n) (len : Nat) (pkt : Pkt) :
    PktStatusCode → Pkt → Prop where
  /-- No header. -/
  | short {status} : len < 4 → status ≠ .pktOk → Decodes crc32 data len pkt status pkt
  /-- A LENGTH that is refused: the first two bytes are copied. -/
  | long : 4 ≤ len → maxPayloadSize < (lengthField data.bytes).toNat →
      Decodes crc32 data len pkt .eLength
        { pkt.withFirstByte (firstField data.bytes) with
          seqnum := UInt8.ofNat (ofLe (slice data.bytes 1 1)) }
  /-- A wrong checksum of the header: all of it is copied. -/
  | header : 4 ≤ len → (lengthField data.bytes).toNat ≤ maxPayloadSize →
      crc1Field data.bytes ≠ crc32 (slice data.bytes 0 8) →
      Decodes crc32 data len pkt .eCrc { headed data.bytes pkt with crc1 := pkt.crc1 }
  /-- A header alone. -/
  | bare : 4 ≤ len → crc1Field data.bytes = crc32 (slice data.bytes 0 8) →
      lengthField data.bytes = 0 → Decodes crc32 data len pkt .pktOk (headed data.bytes pkt)
  /-- A payload is stored, whatever its checksum. -/
  | payload {status crc2} : 4 ≤ len → (lengthField data.bytes).toNat ≤ maxPayloadSize →
      crc1Field data.bytes = crc32 (slice data.bytes 0 8) → lengthField data.bytes ≠ 0 →
      (payloadField data.bytes).length = (lengthField data.bytes).toNat →
      Decodes crc32 data len pkt status
        { headed data.bytes pkt with payload := .block (payloadField data.bytes), crc2 }

theorem orFail_read {data : Buf n} {off k : Nat} {bs : List UInt8}
    (h : orFail Fault.bufferRead (data.read? off k) = .ok bs) :
    off + k ≤ n ∧ bs = slice data.bytes off k := by
  unfold Buf.read? at h
  split at h
  · rename_i inside
    cases h
    exact ⟨inside, rfl⟩
  · cases h

theorem decodePayload_cases {data : Buf n} {pkt q : Pkt} {status : PktStatusCode}
    (fits : (lengthField data.bytes).toNat ≤ maxPayloadSize)
    (length : pkt.length = htons (lengthField data.bytes))
    (h : decodePayload crc32 data (lengthField data.bytes) pkt = .ok (status, q)) :
    (lengthField data.bytes = 0 ∧ status = .pktOk ∧ q = pkt) ∨
      (lengthField data.bytes ≠ 0 ∧
        (payloadField data.bytes).length = (lengthField data.bytes).toNat ∧
        ∃ crc2, q = { pkt with payload := .block (payloadField data.bytes), crc2 }) := by
  unfold decodePayload at h
  split at h
  · rename_i zero
    cases h
    exact .inl ⟨zero, rfl, rfl⟩
  rename_i nonzero
  obtain ⟨bytes, read, h⟩ := bind_eq_ok.mp h
  obtain ⟨inside, rfl⟩ := orFail_read read
  have whole : (payloadField data.bytes).length = (lengthField data.bytes).toNat :=
    slice_length (by rw [data.size]; exact inside)
  have set : pktSetPayload pkt (slice data.bytes 12 (lengthField data.bytes).toNat)
      (lengthField data.bytes) =
        (.pktOk, { pkt with payload := .block (payloadField data.bytes) }) := by
    rw [pktSetPayload_fits _ _ fits, ← length,
      show slice data.bytes 12 (lengthField data.bytes).toNat = payloadField data.bytes from rfl,
      List.take_of_length_le (Nat.le_of_eq whole)]
  simp only [set, ne_eq, not_true_eq_false, if_false] at h
  refine .inr ⟨nonzero, whole, ?_⟩
  split at h
  · cases h
    exact ⟨_, rfl⟩
  obtain ⟨crc2, -, h⟩ := bind_eq_ok.mp h
  obtain ⟨body, -, h⟩ := bind_eq_ok.mp h
  split at h <;> cases h <;> exact ⟨_, rfl⟩

theorem Decodes.of_ok {data : Buf n} {len : Nat} {pkt q : Pkt} {status : PktStatusCode}
    (h : pktDecode crc32 data len pkt = .ok (status, q)) : Decodes crc32 data len pkt status q := by
  unfold pktDecode at h
  split at h
  · cases h
    exact .short (by omega) (by simp)
  split at h
  · rename_i few
    cases h
    exact .short few (by simp)
  rename_i some
  have four : 4 ≤ len := Nat.not_lt.mp some
  obtain ⟨first, read, h⟩ := bind_eq_ok.mp h
  obtain ⟨-, rfl⟩ := orFail_read read
  obtain ⟨second, read, h⟩ := bind_eq_ok.mp h
  obtain ⟨-, rfl⟩ := orFail_read read
  simp only [pktSetSeqnum_status, ne_eq, not_true_eq_false, if_false] at h
  obtain ⟨third, read, h⟩ := bind_eq_ok.mp h
  obtain ⟨-, rfl⟩ := orFail_read read
  rw [show ntohs (UInt16.ofNat (ofLe (slice data.bytes 2 2))) = lengthField data.bytes from rfl] at h
  by_cases long : maxPayloadSize < (lengthField data.bytes).toNat
  · simp only [pktSetLength_long _ long, reduceCtorEq, not_false_eq_true, if_true] at h
    cases h
    exact .long four long
  have fits := Nat.not_lt.mp long
  simp only [pktSetLength_fits _ fits, not_true_eq_false, if_false, pktSetTimestamp_status,
    pktSetCrc1_status] at h
  obtain ⟨fifth, read, h⟩ := bind_eq_ok.mp h
  obtain ⟨-, rfl⟩ := orFail_read read
  obtain ⟨ninth, read, h⟩ := bind_eq_ok.mp h
  obtain ⟨-, rfl⟩ := orFail_read read
  obtain ⟨head, read, h⟩ := bind_eq_ok.mp h
  obtain ⟨-, rfl⟩ := orFail_read read
  rw [show ntohl (UInt32.ofNat (ofLe (slice data.bytes 8 4))) = crc1Field data.bytes from rfl] at h
  split at h
  · rename_i wrong
    cases h
    exact .header four fits wrong
  · rename_i right
    rw [not_not] at right
    rcases @decodePayload_cases crc32 n data (headed data.bytes pkt) q status fits rfl h with
      ⟨zero, rfl, rfl⟩ | ⟨nonzero, whole, crc2, rfl⟩
    · exact .bare four right zero
    · exact .payload four fits right nonzero whole

/-! ## Calls -/

/-- A call on a packet; `memory` is what `data` points to in `pkt_set_payload`. -/
inductive PacketCall where
  | setType (type : Nat)
  | setTr (tr : UInt8)
  | setWindow (window : UInt8)
  | setSeqnum (seqnum : UInt8)
  | setLength (length : UInt16)
  | setTimestamp (timestamp : UInt32)
  | setCrc1 (crc1 : UInt32)
  | setCrc2 (crc2 : UInt32)
  | setPayload (memory : Nat → UInt8) (length : UInt16)
  | decode {n : Nat} (data : Buf n) (len : Nat)

/-- The call releases a block that a call before it released: `pkt_set_payload` does when it reports no
    payload after storing the length, and `pkt_decode` when it comes to call it with `TR` set. -/
def PacketCall.FreesAgain (crc32 : List UInt8 → UInt32) (pkt : Pkt) : PacketCall → Prop
  | .setPayload _ length =>
      pkt.payload = .freed ∧ pktGetLength (pktSetLength pkt length).2 = 0
  | .decode data len =>
      pkt.payload = .freed ∧ 4 ≤ len ∧ (lengthField data.bytes).toNat ≤ maxPayloadSize ∧
        crc1Field data.bytes = crc32 (slice data.bytes 0 8) ∧ lengthField data.bytes ≠ 0 ∧
        trField data.bytes ≠ 0
  | _ => False

instance (pkt : Pkt) : (call : PacketCall) → Decidable (call.FreesAgain crc32 pkt)
  | .setPayload _ length => inferInstanceAs (Decidable (pkt.payload = .freed ∧
      pktGetLength (pktSetLength pkt length).2 = 0))
  | .decode data len => inferInstanceAs (Decidable (pkt.payload = .freed ∧ 4 ≤ len ∧
      (lengthField data.bytes).toNat ≤ maxPayloadSize ∧
        crc1Field data.bytes = crc32 (slice data.bytes 0 8) ∧ lengthField data.bytes ≠ 0 ∧
        trField data.bytes ≠ 0))
  | .setType _ | .setTr _ | .setWindow _ | .setSeqnum _ | .setLength _ | .setTimestamp _
  | .setCrc1 _ | .setCrc2 _ => inferInstanceAs (Decidable False)

/-- What a call that releases nothing twice returns, and the packet it leaves. -/
def PacketCall.outcome (crc32 : List UInt8 → UInt32) (pkt : Pkt) :
    PacketCall → Except Fault (PktStatusCode × Pkt)
  | .setType type => .ok (pktSetType pkt type)
  | .setTr tr => .ok (pktSetTr pkt tr)
  | .setWindow window => .ok (pktSetWindow pkt window)
  | .setSeqnum seqnum => .ok (pktSetSeqnum pkt seqnum)
  | .setLength length => .ok (pktSetLength pkt length)
  | .setTimestamp timestamp => .ok (pktSetTimestamp pkt timestamp)
  | .setCrc1 crc1 => .ok (pktSetCrc1 pkt crc1)
  | .setCrc2 crc2 => .ok (pktSetCrc2 pkt crc2)
  | .setPayload memory length =>
      .ok (pktSetPayload pkt ((List.range length.toNat).map memory) length)
  | .decode data len => pktDecode crc32 data len pkt

/-- What the call returns, and the packet it leaves. -/
def PacketCall.apply (crc32 : List UInt8 → UInt32) (pkt : Pkt) (call : PacketCall) :
    Except Fault (PktStatusCode × Pkt) :=
  if call.FreesAgain crc32 pkt then .error .doubleFree else call.outcome crc32 pkt

theorem PacketCall.apply_eq_ok {pkt : Pkt} {call : PacketCall} {left : PktStatusCode × Pkt} :
    call.apply crc32 pkt = .ok left ↔
      ¬ call.FreesAgain crc32 pkt ∧ call.outcome crc32 pkt = .ok left := by
  unfold apply
  split
  · rename_i again
    exact iff_of_false (fun failed => by cases failed) fun both => both.1 again
  · rename_i once
    exact ⟨fun returned => ⟨once, returned⟩, And.right⟩

/-- Any calls, on a packet from `pkt_new`. -/
def packetCalls (crc32 : List UInt8 → UInt32) : Transition Pkt PacketCall where
  init pkt := ∃ memory, pkt = pktNew memory
  step pkt call pkt' := ∃ status, call.apply crc32 pkt = .ok (status, pkt')

/-! ## The payload behind the length -/

/-- The payload exists and has at least `k` bytes. -/
def Pkt.HasPayload (pkt : Pkt) (k : Nat) : Prop :=
  ∃ bytes, pkt.payload = .block bytes ∧ k ≤ bytes.length

/-- What `pkt_get_length` says can be read can be. -/
def Pkt.Backed (pkt : Pkt) : Prop :=
  0 < (pktGetLength pkt).toNat → pkt.HasPayload (pktGetLength pkt).toNat

/-- The payload is long enough for a LENGTH of `length`. -/
def Pkt.Covers (pkt : Pkt) (length : UInt16) : Prop :=
  0 < length.toNat → pkt.HasPayload length.toNat

/-- The call shows no more of the payload than there is: `TR` is only cleared, and LENGTH only
    set or decoded without its payload, when the payload is long enough. -/
def PacketCall.Covered (crc32 : List UInt8 → UInt32) (pkt : Pkt) : PacketCall → Prop
  | .setTr tr => pktGetType pkt = ptypeData → tr = 0 → pkt.Covers (ntohs pkt.length)
  | .setLength length => pkt.tr = 0 → length.toNat ≤ maxPayloadSize → pkt.Covers length
  | .decode data len => 4 ≤ len → trField data.bytes = 0 →
      (maxPayloadSize < (lengthField data.bytes).toNat → pkt.Covers (ntohs pkt.length)) ∧
        ((lengthField data.bytes).toNat ≤ maxPayloadSize →
          crc1Field data.bytes ≠ crc32 (slice data.bytes 0 8) →
          pkt.Covers (lengthField data.bytes))
  | _ => True

theorem Pkt.backed_iff (pkt : Pkt) : pkt.Backed ↔ (pkt.tr = 0 → pkt.Covers (ntohs pkt.length)) := by
  unfold Backed Covers
  by_cases tr : pkt.tr = 0
  · simp only [tr, forall_const, pktGetLength_of_tr_zero tr]
  · have none : pktGetLength pkt = 0 := if_neg tr
    rw [none]
    exact iff_of_true (fun positive => (Nat.lt_irrefl 0 positive).elim) fun zero => (tr zero).elim

theorem Pkt.Backed.readable {pkt : Pkt} (h : pkt.Backed) :
    ∃ body, (pktGetPayload pkt).read? (pktGetLength pkt).toNat = some body := by
  by_cases none : pktGetLength pkt = 0
  · exact ⟨[], read_bare none⟩
  · obtain ⟨bytes, block, enough⟩ := h (toNat16_pos.mpr none)
    rw [pktGetPayload, if_neg none, block, Payload.read?, if_pos enough]
    exact ⟨_, rfl⟩

theorem pktSetPayload_backed {pkt : Pkt} (h : pkt.Backed) (memory : Nat → UInt8) (length : UInt16) :
    (pktSetPayload pkt ((List.range length.toNat).map memory) length).2.Backed := by
  by_cases long : length.toNat > maxPayloadSize
  · simp only [pktSetPayload, pktSetLength_long pkt long, reduceCtorEq, if_false]
    split
    · rename_i nothing
      -- the block is released: `pkt_get_length` is 0, or there was none
      intro positive
      obtain ⟨bytes, block, -⟩ := h positive
      have shown : pktGetLength pkt ≠ 0 := fun zero => by
        rw [show pktGetLength { pkt with payload := pkt.payload.free } = pktGetLength pkt from rfl,
          zero] at positive
        exact Nat.lt_irrefl 0 positive
      rw [pktGetPayload, if_neg shown, block] at nothing
      cases nothing
    · exact h
  · rw [pktSetPayload_fits _ _ (Nat.not_lt.mp long), Pkt.backed_iff]
    intro _ _
    refine ⟨_, rfl, ?_⟩
    rw [ntohs_htons]
    simp

theorem pktSetTr_backed_iff {pkt : Pkt} (h : pkt.Backed) (tr : UInt8) :
    (pktSetTr pkt tr).2.Backed ↔
      (pktGetType pkt = ptypeData → tr = 0 → pkt.Covers (ntohs pkt.length)) := by
  unfold pktSetTr
  split
  · rename_i data
    split
    · rename_i large
      have nonzero : tr ≠ 0 := by
        rintro rfl
        cases large
      simp [h, nonzero]
    · rename_i small
      have bit : BitVec.ofNat 1 tr.toNat = 0#1 ↔ tr = 0 := by
        rw [← UInt8.toNat_inj, ← BitVec.toNat_inj, BitVec.toNat_ofNat, BitVec.toNat_ofNat,
          UInt8.toNat_zero]
        omega
      rw [Pkt.backed_iff]
      simp only [data, forall_const]
      exact imp_congr bit Iff.rfl
  · rename_i other
    simp [h, other]

theorem pktSetLength_backed_iff {pkt : Pkt} (h : pkt.Backed) (length : UInt16) :
    (pktSetLength pkt length).2.Backed ↔
      (pkt.tr = 0 → length.toNat ≤ maxPayloadSize → pkt.Covers length) := by
  by_cases long : length.toNat > maxPayloadSize
  · have unfit : ¬ length.toNat ≤ maxPayloadSize := Nat.not_le.mpr long
    simp [pktSetLength_long pkt long, h, unfit]
  · have fits := Nat.not_lt.mp long
    rw [pktSetLength_fits pkt fits, Pkt.backed_iff]
    simp only [fits, forall_const, ntohs_htons]
    rfl

theorem Decodes.backed_iff {data : Buf n} {len : Nat} {pkt pkt' : Pkt} {status : PktStatusCode}
    (decodes : Decodes crc32 data len pkt status pkt') (h : pkt.Backed) :
    pkt'.Backed ↔ (PacketCall.decode data len).Covered crc32 pkt := by
  cases decodes with
  | short few _ =>
      have not : ¬ 4 ≤ len := Nat.not_le.mpr few
      simp [h, PacketCall.Covered, not]
  | long four long =>
      have unfit : ¬ (lengthField data.bytes).toNat ≤ maxPayloadSize := Nat.not_le.mpr long
      rw [Pkt.backed_iff]
      simp only [PacketCall.Covered, four, long, unfit, forall_const, false_imp_iff, and_true]
      rfl
  | header four fits wrong =>
      have short : ¬ maxPayloadSize < (lengthField data.bytes).toNat := Nat.not_lt.mpr fits
      rw [Pkt.backed_iff]
      simp only [PacketCall.Covered, four, fits, short, wrong, ne_eq, not_false_eq_true,
        forall_const, false_imp_iff, true_and, headed, ntohs_htons]
      rfl
  | bare four right zero =>
      have short : ¬ maxPayloadSize < (lengthField data.bytes).toNat := by
        rw [zero]
        exact Nat.not_lt_zero _
      rw [Pkt.backed_iff]
      simp [PacketCall.Covered, headed, zero, right, Pkt.Covers, maxPayloadSize]
  | payload four fits right nonzero whole =>
      have short : ¬ maxPayloadSize < (lengthField data.bytes).toNat := Nat.not_lt.mpr fits
      rw [Pkt.backed_iff]
      simp [PacketCall.Covered, headed, right, short, Pkt.Covers, Pkt.HasPayload, whole]

theorem PacketCall.left {set : PktStatusCode × Pkt} {status : PktStatusCode} {pkt' : Pkt}
    (called : Except.ok (ε := Fault) set = .ok (status, pkt')) : pkt' = set.2 := by
  rw [Except.ok.inj called]

theorem PacketCall.backed_iff {call : PacketCall} {pkt pkt' : Pkt} (h : pkt.Backed)
    {status : PktStatusCode} (called : call.apply crc32 pkt = .ok (status, pkt')) :
    pkt'.Backed ↔ call.Covered crc32 pkt := by
  obtain ⟨-, called⟩ := PacketCall.apply_eq_ok.mp called
  cases call with
  | setType type =>
      rw [PacketCall.left called, pktSetType]
      split <;> exact iff_of_true h trivial
  | setTr tr =>
      rw [PacketCall.left called]
      exact pktSetTr_backed_iff h tr
  | setWindow window =>
      rw [PacketCall.left called, pktSetWindow]
      split <;> exact iff_of_true h trivial
  | setSeqnum | setTimestamp | setCrc1 | setCrc2 =>
      rw [PacketCall.left called]
      exact iff_of_true h trivial
  | setLength length =>
      rw [PacketCall.left called]
      exact pktSetLength_backed_iff h length
  | setPayload memory length =>
      rw [PacketCall.left called]
      exact iff_of_true (pktSetPayload_backed h memory length) trivial
  | decode data len => exact (Decodes.of_ok called).backed_iff h

theorem pktNew_backed (memory : Pkt) : (pktNew memory).Backed := by
  intro positive
  rw [show pktGetLength (pktNew memory) = 0 from ntohs_htons 0] at positive
  exact (Nat.lt_irrefl 0 positive).elim

/-- In a run in which no call shows more of the payload than there is, what `pkt_get_length` says
    can be read, and a call that does is the only one after which it cannot. -/
theorem payload_backed {pkt : Pkt}
    (reach : ((packetCalls crc32).restrict
      fun pkt call => call.Covered crc32 pkt).Reachable pkt) :
    pkt.Backed ∧ (∃ body, (pktGetPayload pkt).read? (pktGetLength pkt).toNat = some body) ∧
      ∀ call pkt', (packetCalls crc32).step pkt call pkt' →
        (pkt'.Backed ↔ call.Covered crc32 pkt) := by
  have backed : pkt.Backed := by
    apply reach.induct
    · rintro _ ⟨memory, rfl⟩
      exact pktNew_backed memory
    · rintro pkt call pkt' backed ⟨⟨status, called⟩, covered⟩
      exact (PacketCall.backed_iff backed called).mpr covered
  refine ⟨backed, backed.readable, ?_⟩
  rintro call pkt' ⟨status, called⟩
  exact PacketCall.backed_iff backed called

/-- A packet that was given one byte can be encoded. -/
theorem payload_backed_sample :
    ∃ body, (pktGetPayload (pktSetPayload (pktNew samplePkt) [7] 1).2).read? 1 = some body := by
  have begins : ((packetCalls Crc.crc32).restrict
      fun pkt call => call.Covered Crc.crc32 pkt).Reachable (pktNew samplePkt) :=
    .of_init ⟨_, rfl⟩
  have call : (packetCalls Crc.crc32).step (pktNew samplePkt) (.setPayload (fun _ => 7) 1)
      (pktSetPayload (pktNew samplePkt) [7] 1).2 := ⟨_, rfl⟩
  exact (payload_backed (begins.step ⟨call, trivial⟩)).2.1

/-- `pkt_set_length` alone. -/
theorem length_unbacked :
    ¬ ∀ pkt, (packetCalls Crc.crc32).Reachable pkt → pkt.Backed := by
  intro backed
  have begins : (packetCalls Crc.crc32).Reachable (pktNew samplePkt) := .of_init ⟨_, rfl⟩
  have set := begins.step (a := .setLength 1) ⟨_, rfl⟩
  obtain ⟨bytes, block, -⟩ := backed _ set (by decide)
  cases block

end SegmentTransfer
