import SegmentTransfer.SenderBlocks

/-! # What the sender's pointers keep

Every slot in use has a packet of its own with a payload of its own, and so has
the packet that is built. Each step of a pass keeps it so.
-/

namespace SegmentTransfer.Blocks

open Bytes Outcome

variable {crc32 : List UInt8 → UInt32} {ready : Ready}

theorem Pkt.put_view {p : Pkt} {t : Table} {pkt : SegmentTransfer.Pkt}
    (same : pkt.payload = t.at p.payload) : (p.put pkt).view t = pkt := by
  simp only [Pkt.put, Pkt.withPointer, Pkt.view, ← same]

/-- A packet handed out: its payload is there, is not that of the replies, and is that of
    `pkt_send` if it is the last. -/
def Sender.Stored (s : Sender) (a : Nat) (p : Pkt) : Prop :=
  ∃ b bytes, p.payload = some b ∧ s.table.get b = some bytes ∧ s.pktAck.payload ≠ some b ∧
    (s.pktSend.payload = some b ↔ a + 1 = s.seqInd)

/-- The pointers of a sender that is running. -/
structure Sender.Sound (s : Sender) : Prop where
  running : s.phase ≠ .returned
  tr : s.pktSend.tr = 0
  send : s.table.Holds s.pktSend.payload
  ack : s.table.Holds s.pktAck.payload
  apart : ∀ b, s.pktAck.payload = some b → s.pktSend.payload ≠ some b
  handed : s.packets.next = s.seqInd
  there : ∀ a < s.seqInd, ∃ p, s.packets.get a = some p
  stored : ∀ a p, s.packets.get a = some p → s.Stored a p
  distinct : ∀ a a' p p' b, s.packets.get a = some p → s.packets.get a' = some p' →
    p.payload = some b → p'.payload = some b → a = a'
  slots : ∀ i a, s.buffer i = some a → a < s.seqInd
  own : ∀ i j a, s.buffer i = some a → s.buffer j = some a → i = j

/-- What nothing points to any more when `send_data` has returned: the `n` packets handed out, and
    every payload of one but that of the last. -/
structure Sender.Lost (s : Sender) (n : Nat) : Prop where
  packets : ∀ a, (∃ p, s.packets.get a = some p) ↔ a < n
  payloads : ∀ a p, s.packets.get a = some p →
    ∃ b, p.payload = some b ∧ ((∃ bytes, s.table.get b = some bytes) ↔ a + 1 ≠ n)
  distinct : ∀ a a' p p' b, s.packets.get a = some p → s.packets.get a' = some p' →
    p.payload = some b → p'.payload = some b → a = a'

/-- While the sender runs, it is sound and `v` is what it is viewed as. -/
structure Sender.Viewed (s : Sender) (v : SegmentTransfer.Sender) : Prop where
  phase : v.phase = s.phase
  seqInd : v.seqInd = s.seqInd
  running : s.phase ≠ .returned → s.Sound ∧ v = s.view
  gone : s.phase = .returned → s.Lost s.seqInd

structure Iteration.Viewed (it : Iteration) (v : SegmentTransfer.Iteration) : Prop where
  sender : it.sender.Viewed v.sender
  same : v.sent = it.sent ∧ v.ackReceived = it.ackReceived ∧ v.out = it.out

theorem Iteration.Viewed.viewed {it : Iteration} {v : SegmentTransfer.Iteration} (seen : it.Viewed v)
    (running : it.sender.phase ≠ .returned) : it.sender.Sound ∧ v = it.view := by
  obtain ⟨sound, same⟩ := seen.sender.running running
  obtain ⟨sent, ackReceived, out⟩ := seen.same
  refine ⟨sound, ?_⟩
  cases v
  simp only at same sent ackReceived out
  simp only [same, sent, ackReceived, out, Iteration.view]

namespace Sender

variable {s : Sender}

theorem Sound.viewed (h : s.Sound) {v : SegmentTransfer.Sender} (same : v = s.view) : s.Viewed v where
  phase := congrArg SegmentTransfer.Sender.phase same
  seqInd := congrArg SegmentTransfer.Sender.seqInd same
  running := fun _ => ⟨h, same⟩
  gone := fun gone => (h.running gone).elim

theorem Sound.leave (h : s.Sound) : s.leave.Lost s.seqInd where
  packets := by
    intro a
    constructor
    · rintro ⟨p, there⟩
      exact h.handed ▸ Heap.lt_next there
    · exact h.there a
  payloads := by
    intro a p there
    obtain ⟨b, bytes, payload, block, reply, last⟩ := h.stored a p there
    refine ⟨b, payload, ?_⟩
    rw [ne_eq, ← last]
    constructor
    · rintro ⟨bytes', kept⟩ same
      have gone : (s.table.free s.pktSend.payload).get b = none := by
        rw [same, Heap.free_get_self]
      rw [show s.leave.table.get b = _ from Heap.free_get_none s.pktAck.payload gone] at kept
      cases kept
    · intro other
      exact ⟨bytes, (Heap.free_get reply).trans ((Heap.free_get other).trans block)⟩
  distinct := h.distinct

theorem Sound.leave_viewed (h : s.Sound) {v : SegmentTransfer.Sender} (gone : v.phase = .returned)
    (seqInd : v.seqInd = s.seqInd) : s.leave.Viewed v :=
  ⟨gone, seqInd, fun running => (running rfl).elim, fun _ => h.leave⟩

theorem Sound.start (file : Bool) (memory : SegmentTransfer.Pkt) (buf : Buf 528) :
    Sound (.start file memory buf) where
  running := fun gone => by cases gone
  tr := rfl
  send := fun _ pointer => by cases pointer
  ack := fun _ pointer => by cases pointer
  apart := fun _ pointer => by cases pointer
  handed := rfl
  there := fun a below => (Nat.not_lt_zero a below).elim
  stored := fun _ _ there => by cases there
  distinct := fun _ _ _ _ _ there => by cases there
  slots := fun _ _ pointer => by cases pointer
  own := fun _ _ _ pointer => by cases pointer

theorem Sound.behind (h : s.Sound) {i a : Nat} (pointer : s.buffer i = some a) :
    ∃ p, s.packets.get a = some p ∧ s.slot i = some p ∧
      s.view.buffer i = some (p.view s.table) := by
  obtain ⟨p, there⟩ := h.there a (h.slots i a pointer)
  have held : s.slot i = some p := by
    rw [slot, pointer, Option.bind_some, there]
  exact ⟨p, there, held, by simp only [view, held, Option.map_some]⟩

theorem Sound.setSend (h : s.Sound) {q : Pkt} (tr : q.tr = 0) (payload : q.payload = s.pktSend.payload) :
    Sound { s with pktSend := q } :=
  { h with
    tr := tr
    send := by
      simp only [payload]
      exact h.send
    apart := by
      simp only [payload]
      exact h.apart
    stored := by
      intro a p there
      simp only [Stored, payload]
      exact h.stored a p there }

/-! ## Sending a slot again -/

/-- A packet is encoded, which leaves its payload alone. -/
theorem Sound.setSlot (h : s.Sound) {i a : Nat} {p : Pkt} {pkt : SegmentTransfer.Pkt} {buf : Buf 528}
    (pointer : s.buffer i = some a) (there : s.packets.get a = some p)
    (payload : pkt.payload = s.table.at p.payload) :
    Sound { s with packets := s.packets.set a (p.put pkt), packetEncoded := buf } ∧
      view { s with packets := s.packets.set a (p.put pkt), packetEncoded := buf } =
        { s.view with
          buffer := Function.update s.view.buffer i (some pkt), packetEncoded := buf } := by
  have self := Heap.set_get_self there (p.put pkt)
  have others : ∀ b, b ≠ a → (s.packets.set a (p.put pkt)).get b = s.packets.get b :=
    fun b apart => Heap.set_get apart _
  constructor
  · exact
      { h with
        there := by
          intro b below
          by_cases same : b = a
          · subst same
            exact ⟨_, self⟩
          · obtain ⟨q, old⟩ := h.there b below
            exact ⟨q, (others b same).trans old⟩
        stored := by
          intro b q new
          by_cases same : b = a
          · subst same
            cases self.symm.trans new
            exact h.stored b p there
          · exact h.stored b q ((others b same).symm.trans new)
        distinct := by
          -- each packet still has the payload that it had
          have before : ∀ b q, (s.packets.set a (p.put pkt)).get b = some q →
              ∃ q', s.packets.get b = some q' ∧ q'.payload = q.payload := by
            intro b q new
            by_cases same : b = a
            · subst same
              cases self.symm.trans new
              exact ⟨p, there, rfl⟩
            · exact ⟨q, (others b same).symm.trans new, rfl⟩
          intro b b' q q' c new new' here here'
          obtain ⟨o, old, held⟩ := before b q new
          obtain ⟨o', old', held'⟩ := before b' q' new'
          exact h.distinct b b' o o' c old old' (held.trans here) (held'.trans here') }
  · have slots : (fun j => (((s.buffer j).bind (s.packets.set a (p.put pkt)).get).map
        (·.view s.table))) = Function.update s.view.buffer i (some pkt) := by
      funext j
      by_cases same : j = i
      · rw [same, Function.update_self, pointer, Option.bind_some, self, Option.map_some,
          Pkt.put_view payload]
      · rw [Function.update_of_ne same]
        cases other : s.buffer j with
        | none => simp only [view, slot, other, Option.bind_none]
        | some b =>
            have apart : b ≠ a := fun equal => same (h.own j i a (equal ▸ other) pointer)
            simp only [view, slot, other, Option.bind_some, others b apart]
    rw [← slots]
    rfl

theorem Sound.encodeSlot (h : s.Sound) (clock : Timeval) (slot : Nat) :
    Agree (fun x y => x.1.Sound ∧ y.1 = x.1.view ∧ y.2 = x.2 ∧ x.2.status = .pktOk ∧
        x.1.phase = s.phase)
      (encodeSlot crc32 clock slot s) (SegmentTransfer.encodeSlot crc32 clock slot s.view) := by
  unfold Blocks.encodeSlot SegmentTransfer.encodeSlot
  cases pointer : s.buffer slot with
  | none =>
      have nothing : s.view.buffer slot = none := by
        simp only [view, Sender.slot, pointer, Option.bind_none, Option.map_none]
      rw [nothing]
      exact .error _
  | some a =>
      obtain ⟨p, there, -, viewed⟩ := h.behind pointer
      have packetEncoded : s.view.packetEncoded = s.packetEncoded := rfl
      rw [viewed]
      simp only [orFail_some, ok_bind, there, packetEncoded]
      cases encoded : pktEncode crc32 clock (p.view s.table) s.packetEncoded 528 with
      | error fault => exact .error fault
      | ok e =>
          obtain ⟨status, crc1, crc2, left⟩ := pktEncode_cases encoded
          have payload : e.pkt.payload = s.table.at p.payload := by rw [left]; rfl
          obtain ⟨sound, same⟩ := @setSlot s h slot a p e.pkt e.buf pointer there payload
          exact .ok ⟨sound, same.symm, rfl, status, rfl⟩

end Sender

/-! ## Reading a chunk -/

/-- A chunk is read: a new packet with a new payload, which are those of `pkt_send`. -/
def Sender.withChunk (s : Sender) (slot : Nat) (q : Pkt) (chunk : List UInt8)
    (e : SegmentTransfer.Pkt) (buf : Buf 528) : Sender :=
  { s with
    bufferEmpty := true, table := s.table.replace false s.pktSend.payload chunk
    packets := s.packets.malloc q, buffer := Function.update s.buffer slot (some s.packets.next)
    pktSend := q.put e, packetEncoded := buf, seqExp := (s.seqExp + 1) % 256, seqInd := s.seqInd + 1 }

section

variable {s : Sender} {slot : Nat} {q : Pkt} {chunk : List UInt8} {e : SegmentTransfer.Pkt}
  {buf : Buf 528}

theorem Sender.Sound.unused (h : s.Sound) (i : Nat) : s.buffer i ≠ some s.packets.next := by
  intro there
  have below := h.slots i _ there
  rw [h.handed] at below
  exact Nat.lt_irrefl _ below

theorem Sender.Sound.withChunk (h : s.Sound) (pointer : q.payload = some s.table.next)
    (tr : e.tr = 0) : (s.withChunk slot q chunk e buf).Sound where
  running := h.running
  tr := tr
  send := by
    rw [show (s.withChunk slot q chunk e buf).pktSend.payload = _ from pointer]
    exact Heap.holds_new s.table false s.pktSend.payload chunk
  ack := h.ack.replace (fun release => by cases release) chunk
  apart := fun b reply here => h.ack.ne_next (reply.trans (here.symm.trans pointer))
  handed := congrArg (· + 1) h.handed
  there := by
    intro a below
    rcases Nat.lt_succ_iff_lt_or_eq.mp below with before | rfl
    · obtain ⟨p, there⟩ := h.there a before
      exact ⟨p, (Heap.malloc_get (Heap.lt_next there) q).trans there⟩
    · exact ⟨q, by rw [← h.handed]; exact Heap.malloc_get_self ..⟩
  stored := by
    intro a p here
    have inside : a < s.packets.next + 1 := Heap.lt_next here
    rcases Nat.lt_succ_iff_lt_or_eq.mp inside with before | rfl
    · obtain ⟨b, bytes, payload, block, reply, -⟩ :=
        h.stored a p ((Heap.malloc_get before q).symm.trans here)
      have other : some b ≠ some s.table.next :=
        fun equal => Nat.lt_irrefl _ (Option.some.inj equal ▸ Heap.lt_next block)
      have block' : (s.table.replace false s.pktSend.payload chunk).get b = some bytes :=
        Heap.replace_get block (fun release => by cases release)
      refine ⟨b, bytes, payload, block', reply,
        iff_of_false (fun last => other (last.symm.trans pointer)) ?_⟩
      rw [h.handed] at before
      exact fun last => Nat.ne_of_lt before (Nat.succ.inj last)
    · cases (Heap.malloc_get_self s.packets q).symm.trans here
      exact ⟨s.table.next, chunk, pointer, Heap.replace_get_self, h.ack.ne_next,
        iff_of_true pointer (congrArg (· + 1) h.handed)⟩
  distinct := by
    have fresh : ∀ a p, s.packets.get a = some p → p.payload ≠ some s.table.next := by
      intro a p there same
      obtain ⟨b, bytes, payload, block, -⟩ := h.stored a p there
      exact Nat.lt_irrefl _ (Option.some.inj (payload.symm.trans same) ▸ Heap.lt_next block)
    -- a packet is an old one or the one with the new payload
    have cases_ : ∀ a p, (s.packets.malloc q).get a = some p →
        s.packets.get a = some p ∨ a = s.packets.next ∧ p = q := by
      intro a p here
      rcases Nat.lt_succ_iff_lt_or_eq.mp (Heap.lt_next here) with before | rfl
      · exact .inl ((Heap.malloc_get before q).symm.trans here)
      · exact .inr ⟨rfl, Option.some.inj (here.symm.trans (Heap.malloc_get_self ..))⟩
    intro a a' p p' b here here' payload payload'
    rcases cases_ a p here with old | ⟨rfl, rfl⟩ <;> rcases cases_ a' p' here' with old' | ⟨rfl, rfl⟩
    · exact h.distinct a a' p p' b old old' payload payload'
    · exact (fresh a p old (payload.trans (payload'.symm.trans pointer))).elim
    · exact (fresh a' p' old' (payload'.trans (payload.symm.trans pointer))).elim
    · rfl
  slots := by
    intro i a here
    by_cases new : i = slot
    · subst new
      simp only [Sender.withChunk, Function.update_self, Option.some.injEq] at here
      rw [← here, h.handed]
      exact Nat.lt_succ_self _
    · simp only [Sender.withChunk, Function.update_of_ne new] at here
      exact Nat.lt_succ_of_lt (h.slots i a here)
  own := by
    intro i j a here here'
    simp only [Sender.withChunk, Function.update_apply] at here here'
    split at here <;> split at here'
    · rename_i new new'
      rw [new, new']
    · exact (h.unused j (here'.trans here.symm)).elim
    · exact (h.unused i (here.trans here'.symm)).elim
    · exact h.own i j a here here'

theorem Sender.Sound.withChunk_view (h : s.Sound) (pointer : q.payload = some s.table.next)
    (payload : e.payload = .block chunk) :
    (s.withChunk slot q chunk e buf).view =
      { s.view with
        bufferEmpty := true
        buffer := Function.update s.view.buffer slot
          (some (q.view (s.table.replace false s.pktSend.payload chunk)))
        pktSend := e, packetEncoded := buf, seqExp := (s.seqExp + 1) % 256
        seqInd := s.seqInd + 1 } := by
  have kept : ∀ {p}, s.table.Holds p →
      Table.at (s.table.replace false s.pktSend.payload chunk) p = s.table.at p :=
    fun holds => Table.at_replace holds false (fun release => by cases release) chunk
  have slots : (fun i => ((s.withChunk slot q chunk e buf).slot i).map
      (·.view (s.table.replace false s.pktSend.payload chunk))) =
      Function.update s.view.buffer slot
        (some (q.view (s.table.replace false s.pktSend.payload chunk))) := by
    funext i
    by_cases new : i = slot
    · subst new
      have here : (s.withChunk i q chunk e buf).slot i = some q := by
        simp only [Sender.slot, Sender.withChunk, Function.update_self, Option.bind_some]
        exact Heap.malloc_get_self ..
      rw [here, Option.map_some, Function.update_self]
    · rw [Function.update_of_ne new]
      cases held : s.buffer i with
      | none =>
          simp only [Sender.view, Sender.slot, Sender.withChunk, Function.update_of_ne new, held,
            Option.bind_none, Option.map_none]
      | some a =>
          obtain ⟨p, there, -, viewed⟩ := h.behind held
          obtain ⟨b, bytes, payload, block, -⟩ := h.stored a p there
          have here : (s.withChunk slot q chunk e buf).slot i = some p := by
            simp only [Sender.slot, Sender.withChunk, Function.update_of_ne new, held,
              Option.bind_some]
            exact (Heap.malloc_get (Heap.lt_next there) q).trans there
          rw [here, viewed, Option.map_some, p.view_congr (kept ?_)]
          intro c equal
          cases payload.symm.trans equal
          exact ⟨bytes, block⟩
  have send : (q.put e).view (s.table.replace false s.pktSend.payload chunk) = e := by
    apply Pkt.put_view
    rw [pointer, payload, Table.at_block Heap.replace_get_self]
  have ack := s.pktAck.view_congr (kept h.ack)
  rw [← slots, Sender.view]
  simp only [Sender.withChunk] at slots ⊢
  rw [send, ack]
  rfl

end

end SegmentTransfer.Blocks
