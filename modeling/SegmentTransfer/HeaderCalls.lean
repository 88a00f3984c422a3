import SegmentTransfer.PacketCalls

/-! # Header fields after any calls

The setters keep the fields of a packet to those that may be sent; a decoder
copies the first byte before it checks anything.
-/

namespace SegmentTransfer

open Bytes Outcome

variable {crc32 : List UInt8 → UInt32} {n : Nat}

/-- The fields are those of a packet that may be sent. -/
structure Pkt.HeaderValid (pkt : Pkt) : Prop where
  type : pktGetType pkt = ptypeData ∨ pktGetType pkt = ptypeAck ∨ pktGetType pkt = ptypeNack
  tr : pktGetTr pkt = 1 → pktGetType pkt = ptypeData
  window : pktGetWindow pkt ≤ maxWindowSize
  length : (ntohs pkt.length).toNat ≤ maxPayloadSize

/-- The type in the first byte. -/
def typeField (bs : List UInt8) : Nat := ((firstField bs).toBitVec.extractLsb' 6 2).toNat

/-- A decoder accepts. -/
def PacketCall.Accepted (crc32 : List UInt8 → UInt32) (pkt : Pkt) : PacketCall → Prop
  | .decode data len => ∃ q, pktDecode crc32 data len pkt = .ok (.pktOk, q)
  | _ => True

/-- `TR` is clear when the packet is made a reply, and what is decoded has a type, and `TR` only
    with DATA. -/
def PacketCall.Coherent (pkt : Pkt) : PacketCall → Prop
  | .setType type => type = ptypeAck ∨ type = ptypeNack → pktGetTr pkt = 0
  | .decode data _ => typeField data.bytes ≠ 0 ∧
      (trField data.bytes = 1 → typeField data.bytes = ptypeData)
  | _ => True

theorem Pkt.headerValid_iff (pkt : Pkt) :
    pkt.HeaderValid ↔ pktGetType pkt ≠ 0 ∧ (pkt.tr = 1 → pktGetType pkt = ptypeData) ∧
      (ntohs pkt.length).toNat ≤ maxPayloadSize := by
  have four := pkt.type.isLt
  have set : pktGetTr pkt = 1 ↔ pkt.tr = 1 := by
    rw [pktGetTr, ← BitVec.toNat_inj]
    rfl
  have some : pktGetType pkt ≠ 0 ↔
      pktGetType pkt = ptypeData ∨ pktGetType pkt = ptypeAck ∨ pktGetType pkt = ptypeNack := by
    simp only [pktGetType, ptypeData, ptypeAck, ptypeNack]
    omega
  rw [some, ← set]
  constructor
  · rintro ⟨type, tr, -, length⟩
    exact ⟨type, tr, length⟩
  · rintro ⟨type, tr, length⟩
    exact ⟨type, tr, Nat.le_of_lt_succ pkt.window.isLt, length⟩

theorem pktSetType_headerValid_iff {pkt : Pkt} (h : pkt.HeaderValid) (type : Nat) :
    (pktSetType pkt type).2.HeaderValid ↔
      (type = ptypeAck ∨ type = ptypeNack → pktGetTr pkt = 0) := by
  unfold pktSetType
  split
  · rename_i known
    have kept : pktGetType { pkt with type := BitVec.ofNat 2 type } = type := by
      rcases known with rfl | rfl | rfl <;> rfl
    have bit := pkt.tr.isLt
    have set : pkt.tr = 1 ↔ pktGetTr pkt = 1 := by
      rw [pktGetTr, ← BitVec.toNat_inj]
      rfl
    rw [Pkt.headerValid_iff, kept]
    simp only [set, h.length, and_true]
    simp only [pktGetTr, ptypeData, ptypeAck, ptypeNack] at *
    omega
  · rename_i unknown
    rw [not_or] at unknown
    exact iff_of_true h fun reply => (unknown.2 reply).elim

theorem pktSetLength_length {pkt : Pkt} (h : (ntohs pkt.length).toNat ≤ maxPayloadSize)
    (length : UInt16) : (ntohs (pktSetLength pkt length).2.length).toNat ≤ maxPayloadSize := by
  by_cases long : length.toNat > maxPayloadSize
  · rw [pktSetLength_long pkt long]
    exact h
  · rw [pktSetLength_fits pkt (Nat.not_lt.mp long), ntohs_htons]
    exact Nat.not_lt.mp long

theorem pktSetPayload_keeps (pkt : Pkt) (data : List UInt8) (length : UInt16) :
    ∃ payload, (pktSetPayload pkt data length).2 =
      { pkt with length := (pktSetLength pkt length).2.length, payload } := by
  by_cases long : length.toNat > maxPayloadSize
  · simp only [pktSetPayload, pktSetLength_long pkt long, reduceCtorEq, if_false]
    split
    · exact ⟨_, rfl⟩
    · exact ⟨_, rfl⟩
  · rw [pktSetPayload_fits _ _ (Nat.not_lt.mp long), pktSetLength_fits pkt (Nat.not_lt.mp long)]
    exact ⟨_, rfl⟩

theorem Decodes.length {data : Buf n} {len : Nat} {pkt pkt' : Pkt} {status : PktStatusCode}
    (h : Decodes crc32 data len pkt status pkt') (fits : (ntohs pkt.length).toNat ≤ maxPayloadSize) :
    (ntohs pkt'.length).toNat ≤ maxPayloadSize := by
  cases h with
  | short | long => exact fits
  | header _ small | payload _ small =>
      simp only [headed, ntohs_htons]
      exact small
  | bare _ _ zero =>
      simp only [headed, ntohs_htons, zero]
      exact Nat.zero_le _

theorem PacketCall.length {call : PacketCall} {pkt pkt' : Pkt} {status : PktStatusCode}
    (fits : (ntohs pkt.length).toNat ≤ maxPayloadSize)
    (called : call.apply crc32 pkt = .ok (status, pkt')) :
    (ntohs pkt'.length).toNat ≤ maxPayloadSize := by
  obtain ⟨-, called⟩ := PacketCall.apply_eq_ok.mp called
  cases call with
  | setType type =>
      rw [PacketCall.left called, pktSetType]
      split <;> exact fits
  | setTr tr =>
      rw [PacketCall.left called, pktSetTr]
      split
      · split <;> exact fits
      · exact fits
  | setWindow window =>
      rw [PacketCall.left called, pktSetWindow]
      split <;> exact fits
  | setSeqnum | setTimestamp | setCrc1 | setCrc2 =>
      rw [PacketCall.left called]
      exact fits
  | setLength length =>
      rw [PacketCall.left called]
      exact pktSetLength_length fits length
  | setPayload memory length =>
      obtain ⟨payload, kept⟩ := pktSetPayload_keeps pkt ((List.range length.toNat).map memory) length
      rw [PacketCall.left called, kept]
      exact pktSetLength_length fits length
  | decode data len => exact (Decodes.of_ok called).length fits

/-- A call that decodes nothing it refuses keeps the fields valid exactly when it is coherent. -/
theorem PacketCall.headerValid_iff {call : PacketCall} {pkt pkt' : Pkt} (h : pkt.HeaderValid)
    (accepted : call.Accepted crc32 pkt) {status : PktStatusCode}
    (called : call.apply crc32 pkt = .ok (status, pkt')) :
    pkt'.HeaderValid ↔ call.Coherent pkt := by
  have fits := PacketCall.length h.length called
  have same : pktGetType pkt' = pktGetType pkt → pkt'.tr = pkt.tr → pkt'.HeaderValid := by
    intro type tr
    obtain ⟨some, data, -⟩ := pkt.headerValid_iff.mp h
    rw [Pkt.headerValid_iff, type, tr]
    exact ⟨some, data, fits⟩
  obtain ⟨-, called⟩ := PacketCall.apply_eq_ok.mp called
  cases call with
  | setType type =>
      rw [PacketCall.left called]
      exact pktSetType_headerValid_iff h type
  | setTr tr =>
      apply iff_of_true _ trivial
      rw [PacketCall.left called, pktSetTr]
      split
      · rename_i data
        split
        · exact h
        · rw [Pkt.headerValid_iff]
          exact ⟨(pkt.headerValid_iff.mp h).1, fun _ => data, h.length⟩
      · exact h
  | setWindow window =>
      obtain ⟨tr, type⟩ := pktSetWindow_keeps pkt window
      rw [← PacketCall.left called] at tr type
      exact iff_of_true (same type tr) trivial
  | setLength length =>
      have kept : pktGetType pkt' = pktGetType pkt ∧ pkt'.tr = pkt.tr := by
        rw [PacketCall.left called, pktSetLength]
        split <;> exact ⟨rfl, rfl⟩
      exact iff_of_true (same kept.1 kept.2) trivial
  | setSeqnum | setTimestamp | setCrc1 | setCrc2 =>
      rw [PacketCall.left called] at same ⊢
      exact iff_of_true (same rfl rfl) trivial
  | setPayload memory length =>
      obtain ⟨payload, kept⟩ := pktSetPayload_keeps pkt ((List.range length.toNat).map memory) length
      rw [← PacketCall.left called] at kept
      exact iff_of_true (same (by rw [kept]; rfl) (by rw [kept])) trivial
  | decode data len =>
      obtain ⟨q, decoded⟩ := accepted
      rw [show (PacketCall.decode data len).outcome crc32 pkt = pktDecode crc32 data len pkt from rfl,
        decoded] at called
      cases called
      have decodes := Decodes.of_ok decoded
      have header : pktGetType pkt' = typeField data.bytes ∧ pkt'.tr = trField data.bytes := by
        cases decodes with
        | short _ refused => exact (refused rfl).elim
        | bare | payload => exact ⟨rfl, rfl⟩
      rw [Pkt.headerValid_iff, header.1, header.2]
      simp only [fits, and_true]
      rfl

theorem pktNew_headerValid (memory : Pkt) : (pktNew memory).HeaderValid where
  type := .inl rfl
  tr := fun _ => rfl
  window := Nat.zero_le _
  length := by
    rw [show ntohs (pktNew memory).length = 0 from ntohs_htons 0]
    exact Nat.zero_le _

/-- In a run in which every call is coherent the fields are valid, and a call that is not is the
    only one that breaks them. -/
theorem header_valid {pkt : Pkt}
    (reach : ((packetCalls crc32).restrict
      fun pkt call => call.Accepted crc32 pkt ∧ call.Coherent pkt).Reachable pkt) :
    pkt.HeaderValid ∧ ∀ call pkt', (packetCalls crc32).step pkt call pkt' →
      call.Accepted crc32 pkt → (pkt'.HeaderValid ↔ call.Coherent pkt) := by
  have valid : pkt.HeaderValid := by
    apply reach.induct
    · rintro _ ⟨memory, rfl⟩
      exact pktNew_headerValid memory
    · rintro pkt call pkt' valid ⟨⟨status, called⟩, accepted, coherent⟩
      exact (PacketCall.headerValid_iff valid accepted called).mpr coherent
  refine ⟨valid, ?_⟩
  rintro call pkt' ⟨status, called⟩ accepted
  exact PacketCall.headerValid_iff valid accepted called

/-- A new packet is made a NACK while its `TR` is clear. -/
theorem header_valid_sample : (pktSetType (pktNew samplePkt) ptypeNack).2.HeaderValid := by
  have begins : ((packetCalls Crc.crc32).restrict fun pkt call =>
      call.Accepted Crc.crc32 pkt ∧ call.Coherent pkt).Reachable (pktNew samplePkt) :=
    .of_init ⟨_, rfl⟩
  have call : (packetCalls Crc.crc32).step (pktNew samplePkt) (.setType ptypeNack)
      (pktSetType (pktNew samplePkt) ptypeNack).2 := ⟨_, rfl⟩
  exact (header_valid (begins.step ⟨call, trivial, fun _ => rfl⟩)).1

/-- A datagram with the type 0 and the right checksum is accepted. -/
theorem header_invalid :
    ¬ ∀ pkt, ((packetCalls Crc.crc32).restrict
      fun pkt call => call.Accepted Crc.crc32 pkt).Reachable pkt → pkt.HeaderValid := by
  intro valid
  let pkt : Pkt := { pktNew samplePkt with type := 0 }
  let data := (Buf.replicate 528 0).fill (frame Crc.crc32 pkt [])
  have length : (frame Crc.crc32 pkt []).length = 12 := frame_bare_length pkt
  have stored : ntohs pkt.length = 0 := ntohs_htons 0
  have shown : pktGetLength pkt = 0 := stored
  have bytes := Buf.fill_bytes (.replicate 528 0)
    (show (frame Crc.crc32 pkt []).length ≤ 528 by omega)
  have decoded := @pktDecode_frame Crc.crc32 pkt [] _ (stored ▸ Nat.zero_le _) (by rw [shown]; rfl)
    data bytes 12 (by omega) (pktNew samplePkt)
  have begins : ((packetCalls Crc.crc32).restrict
      fun pkt call => call.Accepted Crc.crc32 pkt).Reachable (pktNew samplePkt) := .of_init ⟨_, rfl⟩
  have after := valid _ (begins.step (a := .decode data 12) ⟨⟨_, decoded⟩, ⟨_, decoded⟩⟩)
  rw [received_frame] at after
  exact (Pkt.headerValid_iff _).mp after |>.1 rfl

end SegmentTransfer
