import SegmentTransfer.SlotBlocks

/-! # Slots that keep their bytes

A receiver none of whose slots loses its block does what the receiver without a
table of blocks does. That is so as long as no datagram with `TR = 1` releases
the block of the payload decoded last while a slot still needs it.
-/

namespace SegmentTransfer

open Bytes Outcome

namespace Blocks

namespace Receiver

variable {crc32 : List UInt8 → UInt32} {r r' : Receiver}

theorem Sound.handleData (h : r.Sound) (clock : Timeval) (stack : Buf 20)
    (stored : r.pktRcv.getLength ≠ 0 → ∃ a bytes, r.pktRcv.payload = some a ∧
      r.table.get a = some bytes ∧ bytes.length = r.pktRcv.getLength.toNat) :
    ∃ r' out, r.handleData crc32 clock stack = .ok (r', out) ∧ r'.Sound ∧
      r.view.handleData crc32 clock stack = .ok (r'.view, out) := by
  have tr : pktGetTr r.view.pktRcv = r.pktRcv.tr.toNat := rfl
  have length : pktGetLength r.view.pktRcv = r.pktRcv.getLength := rfl
  have seqnum : pktGetSeqnum r.view.pktRcv = r.pktRcv.seqnum := rfl
  unfold Receiver.handleData SegmentTransfer.Receiver.handleData
  simp only [tr, length, seqnum]
  by_cases one : r.pktRcv.tr.toNat = 1
  · simp only [one, if_true]
    exact h.reply clock stack _ (.inr rfl)
  by_cases ending : r.pktRcv.getLength = 0
  · simp only [one, if_false, ending, if_true]
    exact ⟨_, _, rfl, { h with }, rfl⟩
  · obtain ⟨a, bytes, pointer, there, whole⟩ := stored ending
    obtain ⟨r₁, drained, sound, drained'⟩ :=
      (h.addBuffer pointer there whole ending r.pktRcv.seqnum.toNat).drain
    rw [view_addBuffer _ _ _ _ r rfl] at drained'
    obtain ⟨r', out, sent, sound', sent'⟩ :=
      @Sound.reply crc32 r₁ sound clock stack ((r₁.seqExp : Int) - 1) ptypeAck (.inl rfl)
    refine ⟨r', out, ?_, sound', ?_⟩
    · simp only [one, if_false, ending, drained, ok_bind, sent]
    · have index : r.view.index = r.index := rfl
      have seqExp : r.view.seqExp = r.seqExp := rfl
      simp only [index, seqExp] at drained'
      simp only [one, if_false, ending, index, seqExp, drained', ok_bind]
      exact sent'

theorem Sound.receivePacket (h : r.Sound) (clock : Timeval) (stack : Buf 20) (d : List UInt8)
    (keeps : Takes crc32 (r.packetEncoded.fill d).bytes (min d.length 528) →
      trField (r.packetEncoded.fill d).bytes ≠ 0 →
      ∀ i < 3, r.len i ≠ -1 → r.payload i ≠ r.pktRcv.payload) :
    ∃ r' out, r.receivePacket crc32 clock stack (some d) = .ok (r', out) ∧ r'.Sound ∧
      r.view.receivePacket crc32 clock stack (some d) = .ok (r'.view, out) := by
  obtain ⟨status, q, t', decoded, decoded', sound, viewed, takes⟩ :=
    h.decode (r.packetEncoded.fill d) (min d.length 528) keeps
  have type : pktGetType (q.view t') = q.type.toNat := rfl
  have pktRcv : r.view.pktRcv = r.pktRcv.view r.table := rfl
  have packetEncoded : r.view.packetEncoded = r.packetEncoded := rfl
  simp only [Receiver.receivePacket, SegmentTransfer.Receiver.receivePacket, packetEncoded, pktRcv,
    decoded, decoded', ok_bind, type]
  split
  · exact ⟨_, _, rfl, { h with }, rfl⟩
  split
  · rename_i data
    rw [data.1] at decoded'
    obtain ⟨-, accepted⟩ := takes_of_accepted decoded'
    have handled := @Sound.handleData crc32 _ sound clock stack fun nonzero => by
      obtain ⟨taken, length⟩ := accepted nonzero
      exact ⟨_, _, (takes taken).1, (takes taken).2, length⟩
    rw [viewed] at handled
    exact handled
  · refine ⟨_, _, rfl, sound, ?_⟩
    rw [viewed]
    rfl

/-- While the receiver runs, it is sound and `c` is what it is viewed as. When it has returned, they
    have written the same and left the same slots occupied. -/
structure Viewed (r : Receiver) (c : SegmentTransfer.Receiver) : Prop where
  returned : c.returned = r.returned
  writes : c.writes = r.writes
  seqExp : c.seqExp = r.seqExp
  endFile : c.endFile = r.endFile
  len : c.slots.len = r.len
  running : r.returned = false → r.Sound ∧ c = r.view

theorem Sound.viewed (h : r.Sound) : r.Viewed r.view := ⟨rfl, rfl, rfl, rfl, rfl, fun _ => ⟨h, rfl⟩⟩

theorem Viewed.leave {c : SegmentTransfer.Receiver} (left : c = { r.view with returned := true }) :
    r.leave.Viewed c := by
  subst left
  exact ⟨rfl, rfl, rfl, rfl, rfl, fun running => by cases running⟩

/-- A pass that keeps the slots is the pass of the receiver viewed. -/
theorem Sound.pass (h : r.Sound) (running : r.returned = false) {arrival : Arrival}
    (keeps : r.KeepsSlots crc32 arrival) :
    ∃ r' c out, r.pass crc32 arrival = .ok (r', out) ∧ r.view.pass crc32 arrival = .ok (c, out) ∧
      r'.Viewed c := by
  have same : r.view.returned = false ∧ r.view.endFile = r.endFile ∧ r.view.count = r.count :=
    ⟨running, rfl, rfl⟩
  unfold Receiver.pass SegmentTransfer.Receiver.pass
  simp only [running, same, Bool.false_eq_true, if_false]
  cases ended : r.endFile with
  | false =>
      simp only [if_true]
      cases there : arrival.datagram with
      | none => exact ⟨r, r.view, [], rfl, rfl, h.viewed⟩
      | some result =>
          cases result with
          | none => exact ⟨_, _, _, rfl, rfl, .leave rfl⟩
          | some d =>
              obtain ⟨r', out, received, sound, received'⟩ :=
                h.receivePacket arrival.clock arrival.stack d (keeps ended d there)
              exact ⟨r', _, out, received, received', sound.viewed⟩
  | true =>
      simp only [Bool.true_eq_false, if_false]
      by_cases more : r.count < 11
      · obtain ⟨r', out, sent, sound, sent'⟩ := @Sound.reply crc32 r h arrival.clock arrival.stack
          ((r.seqExp : Int) - 1) ptypeAck (.inl rfl)
        have seqExp : r.view.seqExp = r.seqExp := rfl
        have sound' : Sound { r' with count := r'.count + 1 } := { sound with }
        simp only [more, if_true, sent, ok_bind, seqExp, sent']
        exact ⟨_, _, _, rfl, rfl, sound'.viewed⟩
      · simp only [more, if_false]
        exact ⟨_, _, _, rfl, rfl, .leave (by simp only [view, ended])⟩

theorem pass_reads (running : r.returned = false) (listens : r.endFile = false) {arrival : Arrival}
    {d : List UInt8} (there : arrival.datagram = some (some d)) :
    r.pass crc32 arrival = r.receivePacket crc32 arrival.clock arrival.stack (some d) := by
  simp only [Receiver.pass, running, listens, there, Bool.false_eq_true, if_false, if_true]

theorem not_slotsHeld {i a : Nat} (three : i < 3) (occupied : r.len i ≠ -1)
    (pointer : r.payload i = some a) (gone : r.table.get a = none) : ¬ r.SlotsHeld := by
  intro held
  obtain ⟨b, pointer', there, -⟩ := held i three occupied
  rw [pointer] at pointer'
  cases pointer'
  rw [gone] at there
  cases there

/-- The block of a slot is released, and the slot stays occupied: with `TR = 1` there is at most a
    reply. -/
theorem Sound.pass_breaks (h : r.Sound) (running : r.returned = false) {arrival : Arrival}
    (breaks : ¬ r.KeepsSlots crc32 arrival) :
    ∃ r' out, r.pass crc32 arrival = .ok (r', out) ∧ r'.returned = false ∧ ¬ r'.SlotsHeld := by
  simp only [KeepsSlots, not_forall, not_not] at breaks
  obtain ⟨listens, d, there, takes, tr, i, three, occupied, same⟩ := breaks
  obtain ⟨a, pointer, block, -⟩ := h.slotsHeld i three occupied
  obtain ⟨status, q, t', decoded, decoded', ⟨-, -, rfl⟩ | ⟨none, -⟩⟩ :=
    pktDecode_spec crc32 (r.packetEncoded.fill d) (min d.length 528) r.pktRcv r.table
  · have gone : (r.table.taken (r.packetEncoded.fill d).bytes r.pktRcv.payload).get a = none := by
      rw [Table.taken, ← same, pointer, decide_eq_true tr]
      exact Heap.replace_gone block
    have below : a < (r.table.taken (r.packetEncoded.fill d).bytes r.pktRcv.payload).next :=
      (Heap.lt_next block).trans (Heap.lt_replace_next ..)
    have some_ : ¬ min d.length 528 = 0 := by
      have := takes.1
      omega
    rw [pass_reads running listens there]
    simp only [Receiver.receivePacket, some_, if_false, decoded, ok_bind]
    split
    · rename_i data
      rw [data.1] at decoded'
      have one : q.tr.toNat = 1 := by
        have bit := (takes_of_accepted decoded').1
        have nonzero : q.tr.toNat ≠ 0 := by
          intro zero
          exact tr (bit.symm.trans ((pktGetTr_eq_zero (q.view r.table)).mp zero))
        omega
      simp only [Receiver.handleData, one, if_true]
      obtain ⟨p, out, sent, -⟩ := reply_spec crc32 arrival.clock arrival.stack q.seqnum.toNat
        (.inr rfl) { r with
          packetEncoded := r.packetEncoded.fill d, pktRcv := q
          table := r.table.taken (r.packetEncoded.fill d).bytes r.pktRcv.payload }
      refine ⟨_, out, sent, running, not_slotsHeld three occupied pointer ?_⟩
      exact Heap.replace_none gone below
    · exact ⟨_, _, rfl, running, not_slotsHeld three occupied pointer gone⟩
  · exact (none takes).elim

/-- A segment ahead of the one expected shares its block with `pkt_rcv`. -/
theorem receivePacket_shares {d : List UInt8} {q : Pkt} {t' : Table}
    (decoded : pktDecode crc32 (r.packetEncoded.fill d) (min d.length 528) r.pktRcv r.table =
      .ok (.pktOk, q, t'))
    (data : q.type.toNat = ptypeData) (tr : q.tr.toNat = 0) (nonempty : q.getLength ≠ 0)
    (window : InWindow q.seqnum.toNat r.seqExp receiverWindow)
    (ahead : r.index ≠ realInd r.index q.seqnum.toNat r.seqExp receiverWindow)
    (missing : r.len r.index = -1) (clock : Timeval) (stack : Buf 20) :
    ∃ r' out, r.receivePacket crc32 clock stack (some d) = .ok (r', out) ∧
      r'.returned = r.returned ∧ r'.endFile = r.endFile ∧
      r'.len (realInd r.index q.seqnum.toNat r.seqExp receiverWindow) = q.getLength.toNat ∧
      r'.payload (realInd r.index q.seqnum.toNat r.seqExp receiverWindow) = r'.pktRcv.payload := by
  have some_ : ¬ min d.length 528 = 0 := by
    intro zero
    simp only [pktDecode, zero, if_true] at decoded
    cases decoded
  have one : ¬ q.tr.toNat = 1 := by omega
  let r₁ : Receiver := { r with
    packetEncoded := r.packetEncoded.fill d, pktRcv := q, table := t' }
  let r₂ := Blocks.addBuffer r.index q.seqnum.toNat r.seqExp receiverWindow r₁
  have empty : r₂.occupied = false := by
    simp [r₂, r₁, Blocks.addBuffer, window, occupied, Function.update_of_ne ahead, missing]
  have drained : r₂.drain receiverWindow = .ok r₂ := by
    simp [Receiver.drain, whileLoop, receiverWindow, empty]
  obtain ⟨p, out, sent, -⟩ := @reply_spec crc32 clock stack ((r₂.seqExp : Int) - 1) ptypeAck (.inl rfl) r₂
  have get : q.getPayload = q.payload := if_neg nonempty
  refine ⟨{ r₂ with pktAck := p, table := r₂.table.replace true r₂.pktAck.payload [] }, out, ?_, ?_⟩
  · simp only [Receiver.receivePacket, some_, if_false, decoded, ok_bind, data, and_self, if_true,
      Receiver.handleData, one, nonempty]
    exact (congrArg (· >>= _) drained).trans sent
  · simp [r₂, r₁, Blocks.addBuffer, window, get]

end Receiver

variable {crc32 : List UInt8 → UInt32} {r : Receiver}

theorem Receiver.Viewed.pass {r : Receiver} {c : SegmentTransfer.Receiver} (seen : r.Viewed c)
    {arrival : Arrival} (keeps : r.KeepsSlots crc32 arrival) :
    Agree (fun x y => x.1.Viewed y.1 ∧ y.2 = x.2) (r.pass crc32 arrival) (c.pass crc32 arrival) := by
  cases running : r.returned with
  | true =>
      have left : c.returned = true := seen.returned.trans running
      simp only [Receiver.pass, SegmentTransfer.Receiver.pass, running, left, if_true]
      exact .ok ⟨seen, rfl⟩
  | false =>
      obtain ⟨sound, rfl⟩ := seen.running running
      obtain ⟨r', c, out, passed, passed', seen'⟩ := sound.pass running keeps
      rw [passed, passed']
      exact .ok ⟨seen', rfl⟩

theorem receiver_simulated (crc32 : List UInt8 → UInt32) :
    Transition.Simulates ((receiverLoop crc32).restrict (Receiver.KeepsSlots crc32))
      (SegmentTransfer.receiverLoop crc32) Receiver.Viewed where
  init := by
    rintro _ ⟨memoryRcv, memoryAck, buf, rfl⟩
    exact ⟨_, ⟨memoryRcv, memoryAck, buf, rfl⟩, (Receiver.Sound.start memoryRcv memoryAck buf).viewed⟩
  step := by
    rintro r c arrival r' viewed ⟨⟨out, passed⟩, keeps⟩
    obtain ⟨⟨c', out'⟩, passed', viewed', -⟩ := (viewed.pass keeps).of_ok_left passed
    exact ⟨c', ⟨out', passed'⟩, viewed'⟩

/-- In every run in which no datagram with `TR = 1` has a payload stored while a slot needs the block
    of the last one, every occupied slot keeps its bytes. A pass then succeeds and keeps them exactly
    when it reads no such datagram. -/
theorem slots_held
    (reach : ((receiverLoop crc32).restrict (Receiver.KeepsSlots crc32)).Reachable r)
    (running : r.returned = false) :
    r.SlotsHeld ∧ ∀ arrival,
      (∃ r' out, r.pass crc32 arrival = .ok (r', out) ∧ (r'.returned = false → r'.SlotsHeld)) ↔
        r.KeepsSlots crc32 arrival := by
  obtain ⟨c, -, viewed⟩ := (receiver_simulated crc32).reachable reach
  obtain ⟨sound, -⟩ := viewed.running running
  refine ⟨sound.slotsHeld, fun arrival => ⟨?_, ?_⟩⟩
  · rintro ⟨r', out, passed, held⟩
    by_contra breaks
    obtain ⟨r'', out', passed', running', lost⟩ := sound.pass_breaks running breaks
    rw [passed] at passed'
    cases passed'
    exact lost (held running')
  · intro keeps
    obtain ⟨r', c, out, passed, -, viewed'⟩ := sound.pass running keeps
    exact ⟨r', out, passed, fun running' => (viewed'.running running').1.slotsHeld⟩

/-! ## Datagrams with `TR = 0` -/

theorem Receiver.keepsSlots_frame {arrival : Arrival}
    (framed : ∀ d, arrival.datagram = some (some d) → d.length ≤ 528 ∧
      ∃ p body, p.tr = 0 ∧ d = frame crc32 p body) : r.KeepsSlots crc32 arrival := by
  intro _ d there _ tr
  obtain ⟨fits, p, body, clear, rfl⟩ := framed d there
  rw [Buf.fill_bytes r.packetEncoded fits, frame_tr, clear] at tr
  exact (tr rfl).elim

theorem shownItem_frame {chunk : Nat → List UInt8} {d : List UInt8} {item : Protocol.Item}
    (shown : ShowsItem crc32 chunk d item) :
    d.length ≤ 528 ∧ ∃ p body, p.tr = 0 ∧ d = frame crc32 p body := by
  cases item with
  | seg m mark =>
      obtain ⟨-, small, window, p, carries, -, rfl⟩ := shown
      exact ⟨frame_528 crc32 p small, p, _, carries.tr, rfl⟩
  | fin m =>
      obtain ⟨window, p, carries, -, rfl⟩ := shown
      exact ⟨frame_528 crc32 p (Nat.zero_le _), p, _, carries.tr, rfl⟩

theorem Receiver.keepsSlots_item {chunk : Nat → List UInt8} {d : List UInt8} {item : Protocol.Item}
    (shown : ShowsItem crc32 chunk d item) {arrival : Arrival}
    (there : arrival.datagram = some (some d)) : r.KeepsSlots crc32 arrival := by
  apply Receiver.keepsSlots_frame
  intro d' same
  rw [there] at same
  cases same
  exact shownItem_frame shown

theorem Receiver.Viewed.takes {c : SegmentTransfer.Receiver} {chunk : Nat → List UInt8}
    {a a' : Protocol.Receiver} {item : Protocol.Item} {acks : List Nat} {d : List UInt8}
    (seen : r.Viewed c) (h : c.Shows chunk a) (shown : ShowsItem crc32 chunk d item)
    (passed : a.pass (some item) = .ok (a', acks)) (clock : Timeval) (stack : Buf 20) :
    ∃ r' c' out, r.pass crc32 ⟨some (some d), clock, stack⟩ = .ok (r', out) ∧ r'.Viewed c' ∧
      c'.Shows chunk a' := by
  obtain ⟨c', out', received, shown'⟩ := h.takes shown passed clock stack
  obtain ⟨⟨r', out⟩, passed', seen', -⟩ :=
    (seen.pass (Receiver.keepsSlots_item shown rfl)).of_ok_right received
  exact ⟨r', c', out, passed', seen', shown'⟩

/-! ## A segment that is ahead -/

theorem takes_truncated {p : SegmentTransfer.Pkt} (tr : p.tr = 1)
    (fits : (ntohs p.length).toNat ≤ maxPayloadSize) (nonzero : ntohs p.length ≠ 0) (buf : Buf 528) :
    Takes crc32 (buf.fill (frame crc32 p [])).bytes (min (frame crc32 p []).length 528) ∧
      trField (buf.fill (frame crc32 p [])).bytes ≠ 0 := by
  have length : (frame crc32 p []).length = 12 := frame_bare_length p
  have none : pktGetLength p = 0 := if_neg (by rw [tr]; decide)
  rw [Buf.fill_bytes buf (by omega), Takes, frame_lengthField, frame_tr, tr]
  have accepted := verdict_ok (@verdict_frame crc32 p [] 12 fits (by rw [none]; rfl) (by omega)
    (buf.bytes.drop (frame crc32 p []).length))
  exact ⟨⟨by omega, fits, accepted.2.2.1, nonzero⟩, by decide⟩

/-- Segment 1 arrives first. -/
theorem ahead_held : ∃ r,
    ((receiverLoop Crc.crc32).restrict (Receiver.KeepsSlots Crc.crc32)).Reachable r ∧
      r.returned = false ∧ r.endFile = false ∧ r.len 1 = 1 ∧ r.payload 1 = r.pktRcv.payload := by
  let d := frame Crc.crc32 (dataPkt 1 (seven 1)) (seven 1)
  let arrival : Arrival := ⟨some (some d), ⟨0, 0⟩, .replicate 20 0⟩
  let r₀ := Receiver.start firstPkt firstPkt (.replicate 528 0)
  obtain ⟨-, fits, q', decodedView, tr, type, -, seqnum, length, -⟩ :=
    (isFrame_dataPkt Crc.crc32 1 (seven 1)).decode (sevens 1).2 r₀.packetEncoded
      (r₀.pktRcv.view r₀.table)
  obtain ⟨status, q, t', decoded, decoded', -⟩ :=
    pktDecode_spec Crc.crc32 (r₀.packetEncoded.fill d) d.length r₀.pktRcv r₀.table
  rw [decodedView] at decoded'
  cases decoded'
  have number : q.seqnum.toNat = 1 := congrArg UInt8.toNat seqnum
  have one : q.getLength.toNat = 1 := length
  have nonempty : q.getLength ≠ 0 := by
    intro zero
    rw [zero] at one
    cases one
  have shares := @Receiver.receivePacket_shares Crc.crc32 r₀ d q t'
    (by rw [Nat.min_eq_left fits]; exact decoded) type tr nonempty (by rw [number]; decide)
    (by rw [number]; decide) rfl ⟨0, 0⟩ (.replicate 20 0)
  rw [number, one] at shares
  obtain ⟨r, out, received, returned, endFile, len, pointer⟩ := shares
  have begins : ((receiverLoop Crc.crc32).restrict (Receiver.KeepsSlots Crc.crc32)).Reachable r₀ :=
    .of_init ⟨_, _, _, rfl⟩
  have keeps : r₀.KeepsSlots Crc.crc32 arrival := by
    intro _ _ _ _ _ i three occupied
    exact (occupied (if_pos (by omega))).elim
  have passed : r₀.pass Crc.crc32 arrival = .ok (r, out) := by
    rw [Receiver.pass_reads rfl rfl rfl]
    exact received
  exact ⟨r, begins.step ⟨⟨out, passed⟩, keeps⟩, returned, endFile, len, pointer⟩

/-- A segment that came ahead of the one expected keeps its bytes. -/
theorem slots_held_sample : ∃ r : Receiver, r.len 1 = 1 ∧ r.SlotsHeld := by
  obtain ⟨r, reach, running, -, len, -⟩ := ahead_held
  exact ⟨r, len, (slots_held reach running).1⟩

/-- Segment 1 is held, a datagram with `TR = 1` and a LENGTH arrives, and its block is released. -/
theorem slot_dangles :
    ¬ ∀ r : Receiver, (receiverLoop Crc.crc32).Reachable r → r.returned = false → r.SlotsHeld := by
  intro held
  obtain ⟨r, reach, running, listens, len, pointer⟩ := ahead_held
  let copied : SegmentTransfer.Pkt := { firstPkt with tr := 1 }
  let arrival : Arrival := ⟨some (some (frame Crc.crc32 copied [])), ⟨0, 0⟩, .replicate 20 0⟩
  obtain ⟨takes, tr⟩ := @takes_truncated Crc.crc32 copied rfl (by decide) (by decide) r.packetEncoded
  obtain ⟨c, -, viewed⟩ := (receiver_simulated Crc.crc32).reachable reach
  obtain ⟨sound, -⟩ := viewed.running running
  have breaks : ¬ r.KeepsSlots Crc.crc32 arrival := by
    intro keeps
    exact keeps listens _ rfl takes tr 1 (by omega) (by omega) pointer
  obtain ⟨r', out, passed, running', lost⟩ := sound.pass_breaks running breaks
  exact lost (held r' (reach.of_restrict.step (a := arrival) ⟨out, passed⟩) running')

end Blocks

end SegmentTransfer
