import SegmentTransfer.Library.Transition
import SegmentTransfer.ReceiverRefinement

/-! # The receiver puts segments back in order

As long as each segment arrives at most 255 ahead of the number of segments
written and at most 253 behind it, the two window tests on sequence numbers
modulo 256 mean what they should, so the receiver writes the segments in order.
-/

namespace SegmentTransfer

open Outcome

namespace Protocol.Receiver

variable {a a' : Receiver} {n bound : Nat}

/-- Everything written is in order and each slot holds the one segment of the window that belongs
    there; `bound` is above every segment seen. -/
structure Gathered (bound : Nat) (a : Receiver) : Prop where
  written : a.written = List.range a.done
  inside : ∀ i < 3, ∀ m, a.slots i = some m → a.done ≤ m ∧ m ≤ a.done + 2 ∧ m % 3 = i
  below : a.done ≤ bound
  held : ∀ i < 3, ∀ m, a.slots i = some m → m < bound

/-- After a pass the next segment is missing. -/
structure Ordered (bound : Nat) (a : Receiver) : Prop extends Gathered bound a where
  missing : a.slots (a.done % 3) = none

theorem inWindow_close {e : Nat} (behind : e ≤ n + 253) (ahead : n ≤ e + 255)
    (accepted : InWindow (n % 256) (e % 256) receiverWindow) :
    e ≤ n ∧ n ≤ e + 2 ∧ realInd (e % 3) (n % 256) (e % 256) receiverWindow = n % 3 := by
  have near : e ≤ n ∧ n ≤ e + 2 := by
    simp only [InWindow, receiverWindow] at accepted
    omega
  refine ⟨near.1, near.2, ?_⟩
  simp only [realInd, receiverWindow]
  split <;> omega

theorem place_gathered (h : Gathered bound a) (new : n < bound) (behind : a.done ≤ n + 253)
    (ahead : n ≤ a.done + 255) : Gathered bound (a.place n) := by
  unfold place
  split
  · rename_i accepted
    obtain ⟨lower, upper, slot⟩ := inWindow_close behind ahead accepted
    rw [slot]
    have content : ∀ i < 3, ∀ m, Function.update a.slots (n % 3) (some n) i = some m →
        (m = n ∧ i = n % 3) ∨ a.slots i = some m := by
      intro i _ m here
      by_cases same : i = n % 3
      · rw [same, Function.update_self] at here
        exact .inl ⟨(Option.some.inj here).symm, same⟩
      · rw [Function.update_of_ne same] at here
        exact .inr here
    refine { written := h.written, inside := ?_, below := h.below, held := ?_ }
    · intro i three m here
      rcases content i three m here with ⟨rfl, rfl⟩ | old
      · exact ⟨lower, upper, rfl⟩
      · exact h.inside i three m old
    · intro i three m here
      rcases content i three m here with ⟨rfl, -⟩ | old
      · exact new
      · exact h.held i three m old
  · exact h

/-- The loop is where it was. -/
def SameLoop (a a' : Receiver) : Prop :=
  a'.endFile = a.endFile ∧ a'.count = a.count ∧ a'.returned = a.returned

theorem place_sameLoop (n : Nat) (a : Receiver) : SameLoop a (a.place n) := by
  unfold place
  split <;> exact ⟨rfl, rfl, rfl⟩

/-- How many of the three slots are occupied. -/
def load (a : Receiver) : Nat :=
  (a.slots 0).toList.length + (a.slots 1).toList.length + (a.slots 2).toList.length

theorem writeSlot_gathered (h : Gathered bound a) (enter : a.occupied = true) :
    ∃ a', a.writeSlot = .ok a' ∧ Gathered bound a' ∧ SameLoop a a' ∧ a'.load < a.load := by
  obtain ⟨m, here⟩ := Option.isSome_iff_exists.mp enter
  have three : a.done % 3 < 3 := Nat.mod_lt _ (by decide)
  obtain ⟨lower, upper, slot⟩ := h.inside _ three m here
  have next : m = a.done := by omega
  refine ⟨{ a with written := a.written ++ [m], slots := Function.update a.slots (a.done % 3) none },
    ?_, ?_, ⟨rfl, rfl, rfl⟩, ?_⟩
  · simp only [writeSlot, here, orFail_some, ok_bind]
    rfl
  · have done' : Receiver.done
        { a with written := a.written ++ [m], slots := Function.update a.slots (a.done % 3) none } =
        a.done + 1 := by
      simp only [done, List.length_append, List.length_singleton]
    have other : ∀ i < 3, ∀ k, Function.update a.slots (a.done % 3) none i = some k →
        i ≠ a.done % 3 ∧ a.slots i = some k := by
      intro i _ k content
      by_cases same : i = a.done % 3
      · rw [same, Function.update_self] at content
        cases content
      · rw [Function.update_of_ne same] at content
        exact ⟨same, content⟩
    have room := h.held _ three m here
    refine { written := ?_, inside := ?_, below := ?_, held := ?_ }
    · rw [done', List.range_succ, ← h.written, next]
    · intro i below k content
      obtain ⟨apart, old⟩ := other i below k content
      obtain ⟨low, high, place⟩ := h.inside i below k old
      rw [done']
      omega
    · rw [done']
      omega
    · exact fun i below k content => h.held i below k (other i below k content).2
  · have cases3 : a.done % 3 = 0 ∨ a.done % 3 = 1 ∨ a.done % 3 = 2 := by omega
    rcases cases3 with zero | one | two
    · rw [zero] at here
      simp [load, zero, here]
    · rw [one] at here
      simp [load, one, here]
    · rw [two] at here
      simp [load, two, here]

theorem load_le (a : Receiver) : a.load ≤ receiverWindow := by
  have one : ∀ o : Option Nat, o.toList.length ≤ 1 := by
    intro o
    cases o <;> simp
  have := one (a.slots 0)
  have := one (a.slots 1)
  have := one (a.slots 2)
  simp only [load, receiverWindow]
  omega

theorem arrival_ordered (h : Ordered bound a) (new : n < bound) (behind : a.done ≤ n + 253)
    (ahead : n ≤ a.done + 255) :
    ∃ a', (a.place n).drain = .ok a' ∧ Ordered bound a' ∧ SameLoop a a' := by
  obtain ⟨a', drained, ⟨gathered, same⟩, stop⟩ :
      ∃ t, (a.place n).drain = .ok t ∧ (Gathered bound t ∧ SameLoop a t) ∧ occupied t = false := by
    refine whileLoop_variant load ?_
      ⟨place_gathered h.toGathered new behind ahead, place_sameLoop n a⟩ (load_le _)
    rintro s ⟨gathered, same⟩ enter
    obtain ⟨s', written, gathered', same', less⟩ := writeSlot_gathered gathered enter
    exact ⟨s', written,
      ⟨gathered', same'.1.trans same.1, same'.2.1.trans same.2.1, same'.2.2.trans same.2.2⟩, less⟩
  rw [occupied, Option.isSome_eq_false_iff, Option.isNone_iff_eq_none] at stop
  exact ⟨a', drained, { gathered with missing := stop }, same⟩

theorem place_near (low : a.done ≤ n) (high : n ≤ a.done + 2) (small : a.done % 256 < 253) :
    a.place n = { a with slots := Function.update a.slots (n % 3) (some n) } := by
  have accepted : InWindow (n % 256) (a.done % 256) receiverWindow := by
    simp only [InWindow, receiverWindow]
    omega
  obtain ⟨-, -, slot⟩ := inWindow_close (low.trans (Nat.le_add_right n 253)) (by omega) accepted
  rw [place, if_pos accepted, slot]

theorem arrival_waits (h : Ordered bound a) (behind : a.done ≤ n + 253) (ahead : n ≤ a.done + 255)
    (other : n ≠ a.done) : (a.place n).drain = .ok (a.place n) := by
  have idle : (a.place n).occupied = false := by
    have missing := h.missing
    unfold place
    split
    · rename_i accepted
      obtain ⟨lower, upper, slot⟩ := inWindow_close behind ahead accepted
      have apart : a.done % 3 ≠ n % 3 := by omega
      show (Function.update a.slots _ (some n) (a.done % 3)).isSome = false
      rw [slot, Function.update_of_ne apart, missing]
      rfl
    · rw [occupied, missing]
      rfl
  exact whileLoop_trace (fun _ => a.place n) (Nat.zero_le _) (fun i none => by omega) idle

theorem Gathered.mono (h : Gathered bound a) {bound' : Nat} (le : bound ≤ bound') :
    Gathered bound' a where
  written := h.written
  inside := h.inside
  below := h.below.trans le
  held := fun i three m here => Nat.lt_of_lt_of_le (h.held i three m here) le

theorem Gathered.congr (h : Gathered bound a) (written : a'.written = a.written)
    (slots : a'.slots = a.slots) : Gathered bound a' where
  written := by rw [done, written]; exact h.written
  inside := by rw [done, written, slots]; exact h.inside
  below := by rw [done, written]; exact h.below
  held := by rw [slots]; exact h.held

theorem Ordered.congr (h : Ordered bound a) (written : a'.written = a.written)
    (slots : a'.slots = a.slots) : Ordered bound a' where
  toGathered := h.toGathered.congr written slots
  missing := by rw [done, written, slots]; exact h.missing

/-- No slot is occupied. -/
def Empty (a : Receiver) : Prop := ∀ i < 3, a.slots i = none

/-- With nothing held, a segment whose number modulo 256 is the one expected is written at once. -/
theorem arrival_expected (empty : a.Empty) (expected : n % 256 = a.done % 256) :
    ∃ slots, (a.place n).drain = .ok { a with written := a.written ++ [n], slots } ∧
      ∀ i < 3, slots i = none := by
  have three : a.done % 3 < 3 := Nat.mod_lt _ (by decide)
  have accepted : InWindow (n % 256) (a.done % 256) receiverWindow := by
    simp only [InWindow, receiverWindow]
    omega
  have slot : realInd (a.done % 3) (n % 256) (a.done % 256) receiverWindow = a.done % 3 := by
    simp only [realInd, receiverWindow, expected, Nat.lt_irrefl, if_false, Nat.sub_self]
    omega
  have next : (a.done + 1) % 3 < 3 ∧ (a.done + 1) % 3 ≠ a.done % 3 := by omega
  let slots := Function.update (Function.update a.slots (a.done % 3) (some n)) (a.done % 3) none
  have emptied : ∀ i < 3, slots i = none := by
    intro i below
    by_cases same : i = a.done % 3
    · simp only [slots, same, Function.update_self]
    · simp only [slots, Function.update_of_ne same, empty i below]
  let trace : Nat → Receiver := fun i =>
    if i = 0 then a.place n else { a with written := a.written ++ [n], slots }
  have placed : a.place n = { a with slots := Function.update a.slots (a.done % 3) (some n) } := by
    rw [place, if_pos accepted, slot]
  have done' : Receiver.done { a with written := a.written ++ [n], slots } = a.done + 1 := by
    simp only [done, List.length_append, List.length_singleton]
  refine ⟨slots, ?_, emptied⟩
  apply whileLoop_trace trace (show 1 ≤ receiverWindow by decide)
  · intro i first
    obtain rfl : i = 0 := by omega
    have here : (a.place n).slots ((a.place n).done % 3) = some n := by
      simp only [placed]
      exact Function.update_self ..
    refine ⟨by simp only [trace, occupied, if_true, here, Option.isSome_some], ?_⟩
    simp only [trace, if_true, writeSlot, here, orFail_some, ok_bind]
    simp only [placed]
    rfl
  · show occupied { a with written := a.written ++ [n], slots } = false
    rw [occupied, done']
    show (slots ((a.done + 1) % 3)).isSome = false
    rw [emptied _ next.1]
    rfl

theorem arrival_old (empty : a.Empty) (old : n < a.done) (close : a.done ≤ n + 3) :
    (a.place n).drain = .ok a := by
  have rejected : ¬ InWindow (n % 256) (a.done % 256) receiverWindow := by
    simp only [InWindow, receiverWindow]
    omega
  rw [place, if_neg rejected]
  apply whileLoop_trace (fun _ => a) (Nat.zero_le _) (fun i none => by omega)
  rw [occupied, empty _ (Nat.mod_lt _ (by decide))]
  rfl

theorem start_ordered : Ordered 0 start where
  written := rfl
  inside := fun _ _ _ here => by cases here
  below := Nat.le_refl _
  held := fun _ _ _ here => by cases here
  missing := rfl

end Protocol.Receiver

/-! ## The stream of data packets -/

/-- A data packet with `TR = 0` that carries chunk `n`, near enough to the segments written. -/
structure Arrives (crc32 : List UInt8 → UInt32) (chunk : Nat → List UInt8) (r : Receiver) (n : Nat)
    (d : List UInt8) : Prop where
  valid : ∃ window, IsFrame crc32 ptypeData n window (chunk n) d
  behind : r.writes.length ≤ n + 253
  ahead : n ≤ r.writes.length + 255

/-- The passes of a receiver to which such packets arrive, each with the number it carries. -/
def stream (crc32 : List UInt8 → UInt32) (chunk : Nat → List UInt8) :
    Transition Receiver (Nat × Arrival) where
  init r := ∃ memoryRcv memoryAck buf, r = .start memoryRcv memoryAck buf
  step r label r' :=
    (∃ d, label.2.datagram = some (some d) ∧ Arrives crc32 chunk r label.1 d) ∧
      ∃ out, r.pass crc32 label.2 = .ok (r', out)

/-- What was written is the beginning of the stream, and the slots hold what follows. -/
structure Reassembled (chunk : Nat → List UInt8) (r : Receiver) : Prop where
  output : r.writes.flatten = ((List.range r.writes.length).map chunk).flatten
  seqExp : r.seqExp = r.writes.length % 256
  index : r.index = r.writes.length % 3
  missing : r.slots.len r.index = -1
  ahead : ∀ i < 3, i ≠ r.index → r.slots.len i = -1 ∨
    ∃ m, (m = r.writes.length + 1 ∨ m = r.writes.length + 2) ∧ m % 3 = i ∧
      r.slots.len i = (chunk m).length ∧ r.slots.payload i = .block (chunk m)

/-- What the stream keeps: the receiver shows a protocol receiver with its segments in order. -/
def Gathering (chunk : Nat → List UInt8) (r : Receiver) : Prop :=
  ∃ a bound, r.Shows chunk a ∧ Protocol.Receiver.Ordered bound a ∧ a.endFile = false ∧
    a.returned = false

variable {crc32 : List UInt8 → UInt32} {chunk : Nat → List UInt8}

theorem Gathering.reassembled {r : Receiver} (h : Gathering chunk r) : Reassembled chunk r := by
  obtain ⟨a, bound, shown, ordered, -, -⟩ := h
  have length : r.writes.length = a.done := by
    rw [shown.writes, List.length_map]
    rfl
  refine
    { output := ?_, seqExp := by rw [length, shown.seqExp], index := by rw [length, shown.index]
      missing := ?_, ahead := ?_ }
  · rw [length, shown.writes, ordered.written]
  · have here := shown.slots (a.done % 3) (Nat.mod_lt _ (by decide))
    rw [ordered.missing] at here
    rw [shown.index]
    exact here
  · intro i three apart
    have here := shown.slots i three
    have inside := ordered.inside i three
    revert here inside
    cases a.slots i with
    | none => exact fun here _ => .inl here
    | some m =>
        intro here inside
        obtain ⟨lower, upper, place⟩ := inside m rfl
        rw [shown.index] at apart
        refine .inr ⟨m, ?_, place, here.1, here.2⟩
        rw [length]
        omega

theorem Gathering.arrival (chunks : ∀ n, chunk n ≠ [] ∧ (chunk n).length ≤ maxPayloadSize)
    {r : Receiver} (h : Gathering chunk r) {n : Nat} {d : List UInt8}
    (arrives : Arrives crc32 chunk r n d) {arrival : Arrival}
    (datagram : arrival.datagram = some (some d)) :
    ∃ r' ack, r.pass crc32 arrival = .ok (r', [ack]) ∧ Gathering chunk r' ∧
      ShowsAck crc32 ack r'.writes.length := by
  obtain ⟨a, bound, shown, ordered, running, staying⟩ := h
  have length : r.writes.length = a.done := by
    rw [shown.writes, List.length_map]
    rfl
  obtain ⟨valid, behind, ahead⟩ := arrives
  rw [length] at behind ahead
  obtain ⟨a', drained, ordered', same⟩ := Protocol.Receiver.arrival_ordered
    { toGathered := ordered.mono (Nat.le_max_left bound (n + 1)), missing := ordered.missing }
    (Nat.lt_of_lt_of_le (Nat.lt_succ_self n) (Nat.le_max_right bound (n + 1))) behind ahead
  have passed : a.pass (some (.seg n 0)) = .ok (a', [a'.done]) :=
    Protocol.Receiver.pass_seg (by simp [Protocol.Receiver.listens, running, staying]) drained
  have agree : Agree (ShowsReceived crc32 chunk) (r.pass crc32 arrival) (a.pass (some (.seg n 0))) :=
    shown.pass (datagram ▸ .some ⟨(chunks n).1, (chunks n).2, valid⟩)
  obtain ⟨⟨r', acks⟩, received, shown', acked⟩ := agree.of_ok_right passed
  cases acked with
  | @cons ack _ acks' _ here rest =>
      cases rest
      have length' : r'.writes.length = a'.done := by
        rw [shown'.writes, List.length_map]
        rfl
      exact ⟨r', ack, received,
        ⟨a', _, shown', ordered', same.1.trans running, same.2.2.trans staying⟩, length' ▸ here⟩

theorem gathering_reachable (chunks : ∀ n, chunk n ≠ [] ∧ (chunk n).length ≤ maxPayloadSize)
    {r : Receiver} (h : (stream crc32 chunk).Reachable r) : Gathering chunk r := by
  apply h.induct
  · rintro _ ⟨memoryRcv, memoryAck, buf, rfl⟩
    exact ⟨.start, 0, .start chunk memoryRcv memoryAck buf, Protocol.Receiver.start_ordered, rfl, rfl⟩
  · rintro s label t gathering ⟨⟨d, datagram, arrives⟩, out, passed⟩
    obtain ⟨r', ack, passed', gathering', -⟩ := gathering.arrival chunks arrives datagram
    rw [passed'] at passed
    cases passed
    exact gathering'

/-- After every arrival the receiver has written the beginning of the stream, holds
    nothing but segments that follow it, and answers with the number it expects. -/
theorem reassembly (chunks : ∀ n, chunk n ≠ [] ∧ (chunk n).length ≤ maxPayloadSize)
    {r : Receiver} (reach : (stream crc32 chunk).Reachable r) {n : Nat} {d : List UInt8}
    (arrives : Arrives crc32 chunk r n d) (clock : Timeval) (stack : Bytes.Buf 20) :
    ∃ r' ack, r.pass crc32 ⟨some (some d), clock, stack⟩ = .ok (r', [ack]) ∧
      Reassembled chunk r' ∧ IsFrame crc32 ptypeAck r'.writes.length receiverWindow [] ack := by
  obtain ⟨r', ack, passed, gathering, acked⟩ :=
    (gathering_reachable chunks reach).arrival chunks arrives
      (show (⟨some (some d), clock, stack⟩ : Arrival).datagram = some (some d) from rfl)
  exact ⟨r', ack, passed, gathering.reassembled, acked⟩

/-- A packet that carries one byte, the first of a stream. -/
def firstPkt : Pkt :=
  { window := 1, tr := 0, type := 1, seqnum := 0, length := htons 1, timestamp := 0, crc1 := 0
    payload := .block [0], crc2 := 0 }

/-- A data packet with `TR = 0`. -/
def dataPkt (n : Nat) (body : List UInt8) : Pkt :=
  { firstPkt with
    seqnum := UInt8.ofNat n, length := htons (UInt16.ofNat body.length), payload := .block body }

theorem isFrame_dataPkt (crc32 : List UInt8 → UInt32) (n : Nat) (body : List UInt8) :
    IsFrame crc32 ptypeData n 1 body (frame crc32 (dataPkt n body) body) :=
  ⟨dataPkt n body, ⟨rfl, rfl, rfl, rfl, fun _ => rfl⟩, rfl, rfl⟩

theorem Receiver.Shows.takes {r : Receiver} {a a' : Protocol.Receiver} {item : Protocol.Item}
    {acks : List Nat} {d : List UInt8} (h : r.Shows chunk a) (shown : ShowsItem crc32 chunk d item)
    (passed : a.pass (some item) = .ok (a', acks)) (clock : Timeval) (stack : Bytes.Buf 20) :
    ∃ r' out, r.pass crc32 ⟨some (some d), clock, stack⟩ = .ok (r', out) ∧ r'.Shows chunk a' := by
  have agree : Agree (ShowsReceived crc32 chunk) (r.pass crc32 ⟨some (some d), clock, stack⟩)
      (a.pass (some item)) := h.pass (.some shown)
  obtain ⟨⟨r', out⟩, received, shown', -⟩ := agree.of_ok_right passed
  exact ⟨r', out, received, shown'⟩

/-- Segment 2 comes first, then segment 0 twice, and segment 1 last. -/
theorem reassembly_sample :
    ∃ (r r' : Receiver) (d ack : List UInt8), r.writes = [[0]] ∧ r.slots.payload 2 = .block [2] ∧
      r.pass Crc.crc32 ⟨some (some d), ⟨1, 5⟩, .replicate 20 0⟩ = .ok (r', [ack]) ∧
      Reassembled (fun n => [UInt8.ofNat n]) r' ∧
      IsFrame Crc.crc32 ptypeAck r'.writes.length receiverWindow [] ack := by
  let chunk : Nat → List UInt8 := fun n => [UInt8.ofNat n]
  have chunks : ∀ n, chunk n ≠ [] ∧ (chunk n).length ≤ maxPayloadSize := fun _ => singleton_payload _
  have segment := fun n => isFrame_dataPkt Crc.crc32 n (chunk n)
  have item : ∀ n, ShowsItem Crc.crc32 chunk _ (.seg n 0) :=
    fun n => ⟨(chunks n).1, (chunks n).2, 1, segment n⟩
  have shown₀ := Receiver.Shows.start chunk firstPkt firstPkt (.replicate 528 0)
  obtain ⟨r₁, out₁, held, shown₁⟩ := shown₀.takes (item 2) rfl ⟨1, 2⟩ (.replicate 20 0)
  obtain ⟨r₂, out₂, first, shown₂⟩ := shown₁.takes (item 0) rfl ⟨1, 3⟩ (.replicate 20 0)
  obtain ⟨r₃, out₃, again, shown₃⟩ := shown₂.takes (item 0) rfl ⟨1, 4⟩ (.replicate 20 0)
  have arrives : ∀ (r : Receiver) (n : Nat) (written : List Nat), r.writes = written.map chunk →
      n ≤ 2 → written.length ≤ 1 →
      Arrives Crc.crc32 chunk r n (frame Crc.crc32 (dataPkt n (chunk n)) (chunk n)) := by
    intro r n written same small few
    have length : r.writes.length = written.length := by rw [same, List.length_map]
    exact ⟨⟨1, segment n⟩, by omega, by omega⟩
  have begins : (stream Crc.crc32 chunk).Reachable (.start firstPkt firstPkt (.replicate 528 0)) :=
    .of_init ⟨_, _, _, rfl⟩
  have reach₁ := begins.step (a := (2, _))
    ⟨⟨_, rfl, arrives _ 2 _ shown₀.writes (by decide) (by decide)⟩, out₁, held⟩
  have reach₂ := reach₁.step (a := (0, _))
    ⟨⟨_, rfl, arrives _ 0 _ shown₁.writes (by decide) (by decide)⟩, out₂, first⟩
  have reach₃ := reach₂.step (a := (0, _))
    ⟨⟨_, rfl, arrives _ 0 _ shown₂.writes (by decide) (by decide)⟩, out₃, again⟩
  obtain ⟨r', ack, passed, whole, acked⟩ := reassembly chunks reach₃
    (arrives _ 1 _ shown₃.writes (by decide) (by decide)) ⟨1, 5⟩ (.replicate 20 0)
  exact ⟨r₃, r', _, ack, shown₃.writes, (shown₃.slots 2 (by decide)).2, passed, whole, acked⟩

end SegmentTransfer
