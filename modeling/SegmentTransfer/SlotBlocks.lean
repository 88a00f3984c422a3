import SegmentTransfer.Blocks
import SegmentTransfer.ReceiverEnd

/-! # The blocks behind the slots

A slot has the pointer that `pkt_rcv` had when `add_buffer` filled it, so the
block is shared until the next payload is decoded. That decoding leaves the old
block alone when `TR` is 0, and releases it when `TR` is 1. In runs in which no
slot needs the block that is released, every slot keeps its bytes, and the
receiver does what the receiver without a table of blocks does.
-/

namespace SegmentTransfer

/-- Any arrivals, at a receiver that has just started. -/
def receiverLoop (crc32 : List UInt8 → UInt32) : Transition Receiver Arrival where
  init r := ∃ memoryRcv memoryAck buf, r = .start memoryRcv memoryAck buf
  step r arrival r' := ∃ out, r.pass crc32 arrival = .ok (r', out)

namespace Blocks

open Bytes Outcome

/-- Any arrivals, at a receiver that has just started. -/
def receiverLoop (crc32 : List UInt8 → UInt32) : Transition Receiver Arrival where
  init r := ∃ memoryRcv memoryAck buf, r = .start memoryRcv memoryAck buf
  step r arrival r' := ∃ out, r.pass crc32 arrival = .ok (r', out)

/-- What a slot has: a block that is there, with the bytes stored, and not that of the replies. -/
structure Slot (t : Table) (reply : Option Nat) (len : Int) (p : Option Nat) (bytes : List UInt8) :
    Prop where
  filled : len ≠ -1 → p ≠ none
  block : ∀ a, p = some a → t.get a = some bytes ∧ len = bytes.length ∧ reply ≠ some a

theorem Slot.empty (t : Table) (reply : Option Nat) (bytes : List UInt8) :
    Slot t reply (-1) none bytes where
  filled := fun occupied => (occupied rfl).elim
  block := fun _ pointer => by cases pointer

section

variable {t : Table} {reply reply' p old : Option Nat} {len : Int} {bytes : List UInt8}

theorem Slot.holds (h : Slot t reply len p bytes) : t.Holds p := by
  intro a pointer
  exact ⟨bytes, (h.block a pointer).1⟩

theorem Slot.replace (h : Slot t reply len p bytes) {release : Bool}
    (apart : release = true → ∀ a, p = some a → old ≠ some a)
    (own : ∀ a, p = some a → reply' ≠ some a) (new : List UInt8) :
    Slot (t.replace release old new) reply' len p bytes where
  filled := h.filled
  block := by
    intro a pointer
    obtain ⟨there, length, -⟩ := h.block a pointer
    exact ⟨Heap.replace_get there fun go => apart go a pointer, length, own a pointer⟩

end

namespace Receiver

/-- The receiver with what its pointers refer to. -/
def view (r : Receiver) : SegmentTransfer.Receiver where
  index := r.index
  seqExp := r.seqExp
  slots := { len := r.len, payload := fun i => r.table.at (r.payload i) }
  pktRcv := r.pktRcv.view r.table
  pktAck := r.pktAck.view r.table
  packetEncoded := r.packetEncoded
  endFile := r.endFile
  count := r.count
  returned := r.returned
  writes := r.writes

/-- Every occupied slot refers to a block that is there, with the bytes that were stored. -/
def SlotsHeld (r : Receiver) : Prop :=
  ∀ i < 3, r.len i ≠ -1 → ∃ a, r.payload i = some a ∧ r.table.get a = some (r.stored i) ∧
    r.len i = (r.stored i).length

/-- No datagram with `TR = 1` has a payload stored while a slot needs the block of the last one. -/
def KeepsSlots (crc32 : List UInt8 → UInt32) (r : Receiver) (arrival : Arrival) : Prop :=
  r.endFile = false → ∀ d, arrival.datagram = some (some d) →
    Takes crc32 (r.packetEncoded.fill d).bytes (min d.length 528) →
    trField (r.packetEncoded.fill d).bytes ≠ 0 →
    ∀ i < 3, r.len i ≠ -1 → r.payload i ≠ r.pktRcv.payload

/-- The pointers of a receiver that is running. -/
structure Sound (r : Receiver) : Prop where
  index : r.index < 3
  slots : ∀ i < 3, Slot r.table r.pktAck.payload (r.len i) (r.payload i) (r.stored i)
  others : ∀ i, 3 ≤ i → r.payload i = none
  rcv : r.table.Holds r.pktRcv.payload
  ack : r.table.Holds r.pktAck.payload
  apart : ∀ a, r.pktAck.payload = some a → r.pktRcv.payload ≠ some a

variable {crc32 : List UInt8 → UInt32} {r r' : Receiver}

theorem Sound.slotsHeld (h : r.Sound) : r.SlotsHeld := by
  intro i three occupied
  obtain ⟨a, pointer⟩ := Option.ne_none_iff_exists'.mp ((h.slots i three).filled occupied)
  obtain ⟨there, length, -⟩ := (h.slots i three).block a pointer
  exact ⟨a, pointer, there, length⟩

theorem Sound.slot (h : r.Sound) {i a : Nat} (pointer : r.payload i = some a) :
    i < 3 ∧ r.table.get a = some (r.stored i) ∧ r.len i = (r.stored i).length ∧
      r.pktAck.payload ≠ some a := by
  by_cases three : i < 3
  · exact ⟨three, (h.slots i three).block a pointer⟩
  · rw [h.others i (Nat.not_lt.mp three)] at pointer
    cases pointer

theorem Sound.holds (h : r.Sound) (i : Nat) : r.table.Holds (r.payload i) := by
  intro a pointer
  exact ⟨r.stored i, (h.slot pointer).2.1⟩

theorem SlotsHeld.read (h : r.SlotsHeld) {i : Nat} (three : i < 3) (occupied : r.len i ≠ -1) :
    (r.table.at (r.payload i)).read? (r.len i).toNat = some (r.stored i) := by
  obtain ⟨a, pointer, there, length⟩ := h i three occupied
  rw [pointer, Table.at_block there, length, Int.toNat_natCast, Payload.read?, if_pos (Nat.le_refl _),
    List.take_length]

theorem Sound.start (memoryRcv memoryAck : SegmentTransfer.Pkt) (buf : Buf 528) :
    Sound (.start memoryRcv memoryAck buf) where
  index := Nat.zero_lt_succ 2
  slots := by
    intro i three
    have empty : (Receiver.start memoryRcv memoryAck buf).len i = -1 := if_pos (by omega)
    rw [empty]
    exact .empty _ _ _
  others := fun _ _ => rfl
  rcv := fun _ pointer => by cases pointer
  ack := fun _ pointer => by cases pointer
  apart := fun _ pointer => by cases pointer

/-! ## The slots -/

theorem at_update (t : Table) (pointers : Nat → Option Nat) (i : Nat) (p : Option Nat) :
    (fun j => t.at (Function.update pointers i p j)) =
      Function.update (fun j => t.at (pointers j)) i (t.at p) :=
  Function.comp_update (fun p => t.at p) pointers i p

theorem writeSlot_view (window : Nat) (r : Receiver) :
    Agree (fun r c => c = r.view) (r.writeSlot window) (r.view.writeSlot window) := by
  cases body : (r.table.at (r.payload r.index)).read? (r.len r.index).toNat with
  | none =>
      simp only [writeSlot, SegmentTransfer.Receiver.writeSlot, view, body]
      exact .error _
  | some bytes =>
      simp only [writeSlot, SegmentTransfer.Receiver.writeSlot, view, body]
      apply Agree.ok
      simp only [Slots.clear, Slots.store, at_update]
      rfl

theorem drain_view (window : Nat) (r : Receiver) :
    Agree (fun r c => c = r.view) (r.drain window) (r.view.drain window) := by
  apply Agree.whileLoop
  · rintro r _ rfl
    rfl
  · rintro r _ rfl _
    exact writeSlot_view window r
  · rfl

theorem view_addBuffer (index seqRcv seqExp window : Nat) (r : Receiver)
    {c : SegmentTransfer.Receiver} (viewed : c = r.view) :
    (addBuffer index seqRcv seqExp window r).view =
      { c with slots := SegmentTransfer.addBuffer index seqRcv seqExp c.pktRcv window c.slots } := by
  subst viewed
  have payload : pktGetPayload (r.pktRcv.view r.table) = r.table.at r.pktRcv.getPayload := by
    have length : pktGetLength (r.pktRcv.view r.table) = r.pktRcv.getLength := rfl
    unfold pktGetPayload Pkt.getPayload
    rw [length]
    split <;> rfl
  unfold addBuffer SegmentTransfer.addBuffer
  split
  · simp only [view, Slots.store, at_update, payload]
    rfl
  · rfl

/-- How many of the three slots are occupied. -/
def load (r : Receiver) : Nat :=
  (if r.len 0 = -1 then 0 else 1) + (if r.len 1 = -1 then 0 else 1) +
    (if r.len 2 = -1 then 0 else 1)

theorem load_le (r : Receiver) : r.load ≤ 3 := by
  unfold load
  grind

theorem Sound.setSlot (h : r.Sound) {i : Nat} (three : i < 3) {len : Int} {p : Option Nat}
    {bytes : List UInt8} (slot : Slot r.table r.pktAck.payload len p bytes) :
    Sound { r with
      len := Function.update r.len i len
      payload := Function.update r.payload i p
      stored := Function.update r.stored i bytes } :=
  { h with
    slots := by
      intro j below
      by_cases same : j = i
      · simp only [same, Function.update_self]
        exact slot
      · simp only [Function.update_of_ne same]
        exact h.slots j below
    others := by
      intro j beyond
      have apart : j ≠ i := by omega
      simp only [Function.update_of_ne apart]
      exact h.others j beyond }

theorem Sound.writeSlot (h : r.Sound) (enter : r.occupied = true) :
    ∃ r', r.writeSlot receiverWindow = .ok r' ∧ r'.Sound ∧ r'.load < r.load := by
  have occupied : r.len r.index ≠ -1 := by simpa [Receiver.occupied] using enter
  have body := h.slotsHeld.read h.index occupied
  have emptied := h.setSlot h.index (.empty _ _ (r.stored r.index))
  rw [Function.update_eq_self] at emptied
  refine ⟨_, by rw [Receiver.writeSlot, body]; rfl, ?_, ?_⟩
  · exact { emptied with index := Nat.mod_lt _ (by decide) }
  · have index := h.index
    have cases_ : r.index = 0 ∨ r.index = 1 ∨ r.index = 2 := by omega
    unfold load
    rcases cases_ with at_ | at_ | at_ <;> rw [at_] at occupied <;> simp [at_, occupied]

theorem Sound.drain (h : r.Sound) :
    ∃ r', r.drain receiverWindow = .ok r' ∧ r'.Sound ∧
      r.view.drain receiverWindow = .ok r'.view := by
  have ends : ∃ r', r.drain receiverWindow = .ok r' ∧ r'.Sound ∧ r'.occupied = false :=
    whileLoop_variant load (fun _ sound enter => sound.writeSlot enter) h (load_le r)
  obtain ⟨r', drained, sound, -⟩ := ends
  obtain ⟨c, drained', rfl⟩ := (drain_view receiverWindow r).of_ok_left drained
  exact ⟨r', drained, sound, drained'⟩

theorem Sound.addBuffer (h : r.Sound) {a : Nat} {bytes : List UInt8}
    (pointer : r.pktRcv.payload = some a) (there : r.table.get a = some bytes)
    (length : bytes.length = r.pktRcv.getLength.toNat) (nonzero : r.pktRcv.getLength ≠ 0)
    (seqRcv : Nat) : (addBuffer r.index seqRcv r.seqExp receiverWindow r).Sound := by
  unfold Blocks.addBuffer
  split
  · have get : r.pktRcv.getPayload = some a := (if_neg nonzero).trans pointer
    have body : ((r.table.at r.pktRcv.getPayload).read? r.pktRcv.getLength.toNat).getD [] = bytes := by
      rw [get, Table.at_block there, ← length, Payload.read?, if_pos (Nat.le_refl _), List.take_length]
      rfl
    have slot : Slot r.table r.pktAck.payload r.pktRcv.getLength.toNat r.pktRcv.getPayload bytes :=
      { filled := fun _ => by simp [get]
        block := by
          intro b same
          rw [get] at same
          cases same
          exact ⟨there, by rw [length], fun reply => h.apart a reply pointer⟩ }
    rw [← body] at slot
    exact h.setSlot (Nat.mod_lt _ (by decide)) slot
  · exact h

/-! ## New blocks -/

theorem reply_spec (crc32 : List UInt8 → UInt32) (clock : Timeval) (stack : Buf 20) (seqnum : Int)
    {ack : Nat} (kind : ack = ptypeAck ∨ ack = ptypeNack) (r : Receiver) :
    ∃ q out, r.reply crc32 clock stack seqnum ack =
        .ok ({ r with pktAck := q, table := r.table.replace true r.pktAck.payload [] }, out) ∧
      q.payload = some r.table.next ∧
      r.view.reply crc32 clock stack seqnum ack =
        .ok ({ r.view with pktAck := q.view (r.table.replace true r.pktAck.payload []) }, out) := by
  obtain ⟨q, out, sent, sent', payload⟩ :=
    sendAck_spec crc32 r.pktAck r.table kind seqnum clock stack r.pktRcv.timestamp
  refine ⟨q, out, ?_, payload, ?_⟩
  · simp only [Receiver.reply, sent, ok_bind]
    rfl
  · simp only [SegmentTransfer.Receiver.reply, view, pktGetTimestamp, Pkt.view] at sent' ⊢
    simp only [sent', ok_bind]
    rfl

theorem Sound.reply (h : r.Sound) (clock : Timeval) (stack : Buf 20) (seqnum : Int) {ack : Nat}
    (kind : ack = ptypeAck ∨ ack = ptypeNack) :
    ∃ r' out, r.reply crc32 clock stack seqnum ack = .ok (r', out) ∧ r'.Sound ∧
      r.view.reply crc32 clock stack seqnum ack = .ok (r'.view, out) := by
  obtain ⟨q, out, sent, payload, sent'⟩ := reply_spec crc32 clock stack seqnum kind r
  have apartSlot : ∀ i a, r.payload i = some a → r.pktAck.payload ≠ some a :=
    fun _ _ pointer => (h.slot pointer).2.2.2
  have apartRcv : ∀ a, r.pktRcv.payload = some a → r.pktAck.payload ≠ some a :=
    fun a pointer reply => h.apart a reply pointer
  refine ⟨_, out, sent, ?_, ?_⟩
  · exact
      { index := h.index
        slots := by
          intro i three
          apply (h.slots i three).replace (fun _ => apartSlot i)
          rintro a pointer same
          rw [payload] at same
          exact (h.slots i three).holds.ne_next (pointer.trans same.symm)
        others := h.others
        rcv := h.rcv.replace (fun _ => apartRcv) []
        ack := payload ▸ r.table.holds_new true r.pktAck.payload []
        apart := by
          intro a pointer same
          rw [payload] at pointer
          exact h.rcv.ne_next (same.trans pointer.symm) }
  · have slots : ∀ i, Table.at (r.table.replace true r.pktAck.payload []) (r.payload i) =
        r.table.at (r.payload i) := fun i => Table.at_replace (h.holds i) true (fun _ => apartSlot i) []
    have rcv := r.pktRcv.view_congr (Table.at_replace h.rcv true (fun _ => apartRcv) [])
    rw [sent']
    simp only [view, slots, rcv]

/-- A datagram is decoded, and no slot loses its block. -/
theorem Sound.decode (h : r.Sound) (data : Buf 528) (len : Nat)
    (keeps : Takes crc32 data.bytes len → trField data.bytes ≠ 0 →
      ∀ i < 3, r.len i ≠ -1 → r.payload i ≠ r.pktRcv.payload) :
    ∃ status q t', pktDecode crc32 data len r.pktRcv r.table = .ok (status, q, t') ∧
      SegmentTransfer.pktDecode crc32 data len (r.pktRcv.view r.table) =
        .ok (status, q.view t') ∧
      Sound { r with packetEncoded := data, pktRcv := q, table := t' } ∧
      view { r with packetEncoded := data, pktRcv := q, table := t' } =
        { r.view with packetEncoded := data, pktRcv := q.view t' } ∧
      (Takes crc32 data.bytes len →
        q.payload = some r.table.next ∧ t'.get r.table.next = some (payloadField data.bytes)) := by
  obtain ⟨status, q, t', decoded, decoded', outcome⟩ := pktDecode_spec crc32 data len r.pktRcv r.table
  refine ⟨status, q, t', decoded, decoded', ?_⟩
  rcases outcome with ⟨takes, payload, rfl⟩ | ⟨none, payload, rfl⟩
  · have apartSlot : decide (trField data.bytes ≠ 0) = true → ∀ i a, r.payload i = some a →
        r.pktRcv.payload ≠ some a := by
      intro release i a pointer same
      obtain ⟨three, -, length, -⟩ := h.slot pointer
      exact keeps takes (of_decide_eq_true release) i three (by omega) (pointer.trans same.symm)
    have slots := fun i => Table.at_replace (h.holds i) _ (fun go => apartSlot go i)
      (payloadField data.bytes)
    have ack := r.pktAck.view_congr (Table.at_replace h.ack (decide (trField data.bytes ≠ 0))
      (fun _ => h.apart) (payloadField data.bytes))
    refine ⟨?_, ?_, fun _ => ⟨payload, Heap.replace_get_self⟩⟩
    · exact
        { index := h.index
          slots := by
            intro i three
            apply (h.slots i three).replace (fun go => apartSlot go i)
            exact fun _ pointer => (h.slot pointer).2.2.2
          others := h.others
          rcv := payload ▸ r.table.holds_new _ _ _
          ack := h.ack.replace (fun _ => h.apart) _
          apart := by
            intro a pointer same
            rw [payload] at same
            exact h.ack.ne_next (pointer.trans same.symm) }
    · simp only [view, Table.taken, slots, ack]
  · refine ⟨?_, rfl, fun takes => (none takes).elim⟩
    exact { h with rcv := payload ▸ h.rcv, apart := payload ▸ h.apart }

end Receiver

end Blocks

end SegmentTransfer
