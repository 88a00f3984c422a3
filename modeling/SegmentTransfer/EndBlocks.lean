import SegmentTransfer.HeldSlots

/-! # How the receiver with its blocks ends

A packet with `TR = 1` and a LENGTH releases the block of the last payload. As
long as none comes while a slot needs that block, and packets without payload
only come with the number expected, the receiver ends with every segment
written and no slot occupied.
-/

namespace SegmentTransfer.Blocks

open Bytes Outcome

/-- The passes of a receiver to which the data packets of a transfer come. -/
def transfer (crc32 : List UInt8 → UInt32) (chunk : Nat → List UInt8) (total : Nat) :
    Transition Receiver Arrival where
  init r := ∃ memoryRcv memoryAck buf, r = .start memoryRcv memoryAck buf
  step r arrival r' :=
    (arrival.datagram = none ∨ ∃ d, arrival.datagram = some (some d) ∧
      InTransfer crc32 chunk total r.writes.length d) ∧
      ∃ out, r.pass crc32 arrival = .ok (r', out)

/-- A packet with `TR = 0` and without payload only comes with the number expected. -/
def Receiver.EndsExpected (crc32 : List UInt8 → UInt32) (r : Receiver) (arrival : Arrival) : Prop :=
  r.endFile = false → ∀ d q t', arrival.datagram = some (some d) →
    pktDecode crc32 (r.packetEncoded.fill d) (min d.length 528) r.pktRcv r.table =
      .ok (.pktOk, q, t') →
    q.tr = 0 → q.getLength = 0 → q.seqnum.toNat = r.seqExp

/-- The conditions under which the receiver ends in order. -/
def Receiver.EndsInOrder (crc32 : List UInt8 → UInt32) (r : Receiver) (arrival : Arrival) : Prop :=
  r.EndsExpected crc32 arrival ∧ r.KeepsSlots crc32 arrival

variable {crc32 : List UInt8 → UInt32} {chunk : Nat → List UInt8} {total : Nat} {r r' : Receiver}
  {arrival : Arrival} {out : List (List UInt8)}

theorem Receiver.EndsExpected.view (h : r.EndsExpected crc32 arrival) :
    r.view.EndsExpected crc32 arrival := by
  intro open_ d q' there decoded' tr zero
  obtain ⟨status, q, t', decoded, decodedView, -⟩ :=
    pktDecode_spec crc32 (r.packetEncoded.fill d) (min d.length 528) r.pktRcv r.table
  have same : SegmentTransfer.pktDecode crc32 (r.packetEncoded.fill d) (min d.length 528)
      (r.pktRcv.view r.table) = .ok (.pktOk, q') := decoded'
  rw [decodedView] at same
  cases same
  exact h open_ d q t' there decoded ((pktGetTr_eq_zero _).mp tr) zero

/-- The receiver is viewed as one whose segments are in order. -/
def Receiver.Ending (chunk : Nat → List UInt8) (total : Nat) (r : Receiver) : Prop :=
  ∃ c a, r.Viewed c ∧ c.Ending chunk total a

theorem Receiver.Ending.pass (chunks : ∀ n, chunk n ≠ [] ∧ (chunk n).length ≤ maxPayloadSize)
    (h : r.Ending chunk total)
    (arrives : arrival.datagram = none ∨ ∃ d, arrival.datagram = some (some d) ∧
      InTransfer crc32 chunk total r.writes.length d)
    (conditions : r.EndsInOrder crc32 arrival) (passed : r.pass crc32 arrival = .ok (r', out)) :
    r'.Ending chunk total := by
  obtain ⟨c, a, viewed, ending⟩ := h
  obtain ⟨expected, keeps⟩ := conditions
  obtain ⟨⟨c', out'⟩, passed', viewed', -⟩ := (viewed.pass keeps).of_ok_left passed
  cases running : r.returned with
  | true =>
      have left : c.returned = true := viewed.returned.trans running
      simp only [SegmentTransfer.Receiver.pass, left, if_true] at passed'
      cases passed'
      exact ⟨c, a, viewed', ending⟩
  | false =>
      obtain ⟨-, rfl⟩ := viewed.running running
      obtain ⟨a', ending'⟩ := ending.pass chunks arrives expected.view passed'
      exact ⟨c', a', viewed', ending'⟩

/-- In every run of a transfer in which packets without payload only come with the number expected,
    and no packet releases a block that a slot needs, the receiver ends with every segment written
    and nothing held. -/
theorem ends_in_order (chunks : ∀ n, chunk n ≠ [] ∧ (chunk n).length ≤ maxPayloadSize)
    (reach : ((transfer crc32 chunk total).restrict (Receiver.EndsInOrder crc32)).Reachable r)
    (ended : r.endFile = true) :
    r.seqExp = total % 256 ∧ r.writes = (List.range total).map chunk ∧ ∀ i < 3, r.len i = -1 := by
  have inv : r.Ending chunk total := by
    apply reach.induct
    · rintro _ ⟨memoryRcv, memoryAck, buf, rfl⟩
      exact ⟨_, _, (Receiver.Sound.start memoryRcv memoryAck buf).viewed,
        .start chunk total memoryRcv memoryAck buf⟩
    · rintro r arrival r' ending ⟨⟨arrives, out, passed⟩, conditions⟩
      exact ending.pass chunks arrives conditions passed
  obtain ⟨c, a, viewed, shown, ordered, whole⟩ := inv
  have done := whole (shown.endFile ▸ viewed.endFile ▸ ended)
  have empty := ordered.empty done
  refine ⟨?_, ?_, ?_⟩
  · rw [← viewed.seqExp, shown.seqExp, done]
  · rw [← viewed.writes, shown.writes, ordered.written, done]
  · intro i three
    have here := shown.slots i three
    rw [empty i three] at here
    rw [← viewed.len]
    exact here

/-! ## Two transfers -/

theorem transfer_takes {C : Receiver → Arrival → Prop} {c : SegmentTransfer.Receiver}
    {a a' : Protocol.Receiver} {item : Protocol.Item} {acks : List Nat} {d : List UInt8}
    (reach : ((transfer crc32 chunk total).restrict C).Reachable r) (seen : r.Viewed c)
    (h : c.Shows chunk a) (shown : ShowsItem crc32 chunk d item)
    (arrives : InTransfer crc32 chunk total r.writes.length d)
    (passed : a.pass (some item) = .ok (a', acks))
    (meets : C r ⟨some (some d), ⟨0, 0⟩, .replicate 20 0⟩) :
    ∃ r' c', ((transfer crc32 chunk total).restrict C).Reachable r' ∧ r'.Viewed c' ∧
      c'.Shows chunk a' := by
  obtain ⟨r', c', out, received, seen', shown'⟩ := seen.takes h shown passed ⟨0, 0⟩ (.replicate 20 0)
  exact ⟨r', c', reach.step ⟨⟨.inr ⟨d, rfl, arrives⟩, out, received⟩, meets⟩, seen', shown'⟩

theorem Receiver.EndsInOrder.of_item {c : SegmentTransfer.Receiver} {a : Protocol.Receiver}
    {item : Protocol.Item} {d : List UInt8} (seen : r.Viewed c) (h : c.Shows chunk a)
    (shown : ShowsItem crc32 chunk d item) (number : ∀ m, item = .fin m → m % 256 = a.done % 256)
    (clock : Timeval) (stack : Buf 20) :
    r.EndsInOrder crc32 ⟨some (some d), clock, stack⟩ := by
  refine ⟨?_, Receiver.keepsSlots_item shown rfl⟩
  intro _ d' q t' same decoded _ zero
  cases same
  obtain ⟨q', decodedView, meaning⟩ := shown.decode r.packetEncoded (r.pktRcv.view r.table)
  obtain ⟨status, q₁, t₁, decoded₁, decodedView₁, -⟩ :=
    pktDecode_spec crc32 (r.packetEncoded.fill d) (min d.length 528) r.pktRcv r.table
  rw [decoded] at decoded₁
  cases decoded₁
  rw [Nat.min_eq_left (shownItem_frame shown).1, decodedView] at decodedView₁
  cases decodedView₁
  rw [← seen.seqExp, h.seqExp]
  exact (meaning a.done).mpr number zero

/-- Segment 1 is held, segment 0 has both written, and the end packet follows. -/
theorem ends_in_order_sample :
    ∃ r : Receiver, r.endFile = true ∧ r.seqExp = 2 % 256 ∧
      r.writes = (List.range 2).map seven ∧ ∀ i < 3, r.len i = -1 := by
  have segment := fun n => isFrame_dataPkt Crc.crc32 n (seven n)
  have ending := isFrame_dataPkt Crc.crc32 2 []
  have item : ∀ n, ShowsItem Crc.crc32 seven _ (.seg n 0) :=
    fun n => ⟨(sevens n).1, (sevens n).2, 1, segment n⟩
  have last : ShowsItem Crc.crc32 seven _ (.fin 2) := ⟨1, ending⟩
  have seen₀ := (Receiver.Sound.start firstPkt firstPkt (.replicate 528 0)).viewed
  have shown₀ := SegmentTransfer.Receiver.Shows.start seven firstPkt firstPkt (.replicate 528 0)
  have begins : ((transfer Crc.crc32 seven 2).restrict (Receiver.EndsInOrder Crc.crc32)).Reachable
      (.start firstPkt firstPkt (.replicate 528 0)) := .of_init ⟨_, _, _, rfl⟩
  obtain ⟨r₁, c₁, held, seen₁, shown₁⟩ := transfer_takes begins seen₀ shown₀ (item 1)
    (.segment (by decide) (segment 1) (by decide) (by decide)) rfl
    (.of_item seen₀ shown₀ (item 1) (fun _ fin => by cases fin) _ _)
  have none₁ : r₁.writes = [] := seen₁.writes.symm.trans shown₁.writes
  obtain ⟨r₂, c₂, filled, seen₂, shown₂⟩ := transfer_takes held seen₁ shown₁ (item 0)
    (.segment (by decide) (segment 0) (by simp [none₁]) (Nat.zero_le _)) rfl
    (.of_item seen₁ shown₁ (item 0) (fun _ fin => by cases fin) _ _)
  obtain ⟨r₃, c₃, ended, seen₃, shown₃⟩ := transfer_takes filled seen₂ shown₂ last
    (.ending ending (by omega)) rfl
    (.of_item seen₂ shown₂ last (fun _ fin => by cases fin; rfl) _ _)
  have endFile : r₃.endFile = true := seen₃.endFile.symm.trans shown₃.endFile
  exact ⟨r₃, endFile, ends_in_order sevens ended endFile⟩

/-- The end packet overtakes segment 0, and segment 1 is held. -/
theorem ends_overtaken :
    ¬ ∀ (chunk : Nat → List UInt8) (total : Nat) (r : Receiver),
      (∀ n, chunk n ≠ [] ∧ (chunk n).length ≤ maxPayloadSize) →
      (transfer Crc.crc32 chunk total).Reachable r → r.endFile = true →
      r.seqExp = total % 256 ∧ r.writes = (List.range total).map chunk ∧ ∀ i < 3, r.len i = -1 := by
  intro ordered
  have segment := isFrame_dataPkt Crc.crc32 1 (seven 1)
  have ending := isFrame_dataPkt Crc.crc32 2 []
  have item : ShowsItem Crc.crc32 seven _ (.seg 1 0) := ⟨(sevens 1).1, (sevens 1).2, 1, segment⟩
  have last : ShowsItem Crc.crc32 seven _ (.fin 2) := ⟨1, ending⟩
  have begins : ((transfer Crc.crc32 seven 2).restrict (Receiver.KeepsSlots Crc.crc32)).Reachable
      (.start firstPkt firstPkt (.replicate 528 0)) := .of_init ⟨_, _, _, rfl⟩
  obtain ⟨r₁, c₁, held, seen₁, shown₁⟩ := transfer_takes begins
    (Receiver.Sound.start firstPkt firstPkt (.replicate 528 0)).viewed (.start seven _ _ _) item
    (.segment (by decide) segment (by decide) (by decide)) rfl (Receiver.keepsSlots_item item rfl)
  obtain ⟨r₂, c₂, ended, seen₂, shown₂⟩ := transfer_takes held seen₁ shown₁ last
    (.ending ending (by omega)) rfl (Receiver.keepsSlots_item last rfl)
  obtain ⟨-, written, -⟩ :=
    ordered seven 2 r₂ sevens ended.of_restrict (seen₂.endFile.symm.trans shown₂.endFile)
  rw [← seen₂.writes, shown₂.writes] at written
  exact absurd (congrArg List.length written) (by decide)

end SegmentTransfer.Blocks
