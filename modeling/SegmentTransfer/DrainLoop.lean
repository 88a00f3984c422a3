import SegmentTransfer.Library.Ring
import SegmentTransfer.Receiver
import SegmentTransfer.RoundTrip

/-! # The loop of `receive_data` that empties the slots

The loop goes around the slots from `index` on for as long as they are occupied.
Each iteration empties the slot it leaves, so when all are occupied it stops
where it began.
-/

namespace SegmentTransfer

open Outcome

namespace Slots

variable {slots : Slots} {window index n : Nat}

/-- The longest run of occupied slots from `index` on, around the `window` slots, has `n` slots. -/
structure HasRun (slots : Slots) (window index n : Nat) : Prop where
  fits : n ≤ window
  occupied : ∀ i < n, slots.len ((index + i) % window) ≠ -1
  ends : n < window → slots.len ((index + n) % window) = -1

theorem exists_run (slots : Slots) (window index : Nat) : ∃ n, slots.HasRun window index n := by
  by_cases empty : ∃ i, i < window ∧ slots.len ((index + i) % window) = -1
  · obtain ⟨before, here⟩ := Nat.find_spec empty
    have occupied : ∀ i < Nat.find empty, slots.len ((index + i) % window) ≠ -1 := by
      intro i earlier none
      exact Nat.find_min empty earlier ⟨Nat.lt_trans earlier before, none⟩
    exact ⟨Nat.find empty, Nat.le_of_lt before, occupied, fun _ => here⟩
  · have occupied : ∀ i < window, slots.len ((index + i) % window) ≠ -1 :=
      fun i inside none => empty ⟨i, inside, none⟩
    exact ⟨window, Nat.le_refl _, occupied, fun less => (Nat.lt_irrefl _ less).elim⟩

/-- The arrays after the `n` slots from `index` on are emptied. -/
def clearRun (slots : Slots) (window index : Nat) : Nat → Slots
  | 0 => slots
  | n + 1 => (slots.clearRun window index n).clear ((index + n) % window)

theorem clearRun_other {j : Nat} (outside : ∀ i < n, (index + i) % window ≠ j) :
    (slots.clearRun window index n).len j = slots.len j ∧
      (slots.clearRun window index n).payload j = slots.payload j := by
  induction n with
  | zero => exact ⟨rfl, rfl⟩
  | succ n ih =>
      have apart : j ≠ (index + n) % window := (outside n (by omega)).symm
      have before := ih fun i less => outside i (by omega)
      simp only [clearRun, clear, store, Function.update_of_ne apart, before, and_self]

theorem clearRun_run (fits : n ≤ window) {i : Nat} (less : i < n) :
    (slots.clearRun window index n).len ((index + i) % window) = -1 ∧
      (slots.clearRun window index n).payload ((index + i) % window) = .null := by
  induction n with
  | zero => omega
  | succ n ih =>
      by_cases last : i = n
      · simp only [clearRun, clear, store, last, Function.update_self, and_self]
      · have apart : (index + i) % window ≠ (index + n) % window :=
          Ring.slot_ne (by omega) (by omega)
        have before := ih (by omega) (by omega)
        simp only [clearRun, clear, store, Function.update_of_ne apart, before, and_self]

theorem HasRun.stops (run : slots.HasRun window index n) (positive : 0 < window) :
    (slots.clearRun window index n).len ((index + n) % window) = -1 := by
  by_cases all : n = window
  · subst all
    have first := @clearRun_run slots n index n (Nat.le_refl n) 0 positive
    rw [Nat.add_zero] at first
    rw [Nat.add_mod_right]
    exact first.1
  · have less : n < window := Nat.lt_of_le_of_ne run.fits all
    have outside : ∀ i < n, (index + i) % window ≠ (index + n) % window :=
      fun i before => Ring.slot_ne (by omega) (by omega)
    rw [(clearRun_other outside).1]
    exact run.ends less

/-- The payloads of the occupied slots can be read. -/
def Hold (slots : Slots) (window : Nat) (body : Nat → List UInt8) : Prop :=
  ∀ j < window, slots.len j ≠ -1 →
    (slots.payload j).read? (slots.len j).toNat = some (body j)

end Slots

namespace Receiver

variable {r : Receiver} {window : Nat} {body : Nat → List UInt8}

/-- The receiver after `n` iterations, when slot `j` holds `body j`. -/
def drained (r : Receiver) (window : Nat) (body : Nat → List UInt8) (n : Nat) : Receiver :=
  { r with
    index := (r.index + n) % window
    seqExp := (r.seqExp + n) % 256
    slots := r.slots.clearRun window r.index n
    writes := r.writes ++ (List.range n).map fun i => body ((r.index + i) % window) }

theorem writeSlot_drained (hold : r.slots.Hold window body) (inside : r.index < window) {i : Nat}
    (less : i < window) (occupied : r.slots.len ((r.index + i) % window) ≠ -1) :
    (r.drained window body i).occupied = true ∧
      (r.drained window body i).writeSlot window = .ok (r.drained window body (i + 1)) := by
  have outside : ∀ k < i, (r.index + k) % window ≠ (r.index + i) % window :=
    fun k before => Ring.slot_ne (by omega) (by omega)
  obtain ⟨length, payload⟩ := @Slots.clearRun_other r.slots window r.index i _ outside
  have read := hold _ (Nat.mod_lt _ (Nat.zero_lt_of_lt inside)) occupied
  constructor
  · simpa only [Receiver.occupied, drained, length, bne_iff_ne, ne_eq] using occupied
  · simp only [writeSlot, drained, length, payload, read, orFail_some, ok_bind, Nat.mod_add_mod,
      Nat.add_assoc, List.range_succ, List.map_append, List.map_singleton, List.append_assoc,
      pure_eq_ok, Slots.clearRun]

/-- The loop ends after as many iterations as there are slots in the run, having written their
    payloads in the order of the run and emptied them. -/
theorem drain_run (inside : r.index < window) (byte : r.seqExp < 256)
    (hold : r.slots.Hold window body) :
    ∃ n, r.slots.HasRun window r.index n ∧ r.drain window = .ok (r.drained window body n) ∧
      (∀ fuel, whileLoop occupied (writeSlot window) .loopSpent fuel r =
        if n ≤ fuel then .ok (r.drained window body n) else .error .loopSpent) ∧
      (∀ i < n, (r.drained window body n).slots.len ((r.index + i) % window) = -1 ∧
        (r.drained window body n).slots.payload ((r.index + i) % window) = .null) ∧
      (∀ j, (∀ i < n, (r.index + i) % window ≠ j) →
        (r.drained window body n).slots.len j = r.slots.len j ∧
          (r.drained window body n).slots.payload j = r.slots.payload j) ∧
      (r.drained window body n).occupied = false := by
  obtain ⟨n, run⟩ := r.slots.exists_run window r.index
  have stops := run.stops (Nat.zero_lt_of_lt inside)
  have begins : r.drained window body 0 = r := by
    simp only [drained, Nat.add_zero, Nat.mod_eq_of_lt inside, Nat.mod_eq_of_lt byte,
      Slots.clearRun, List.range_zero, List.map_nil, List.append_nil]
  have go : ∀ i, i < n → (r.drained window body i).occupied = true ∧
      (r.drained window body i).writeSlot window = .ok (r.drained window body (i + 1)) := by
    intro i less
    exact writeSlot_drained hold inside (Nat.lt_of_lt_of_le less run.fits) (run.occupied i less)
  have stop : (r.drained window body n).occupied = false := by
    simpa only [Receiver.occupied, drained, bne_eq_false_iff_eq] using stops
  have loop : ∀ fuel, whileLoop occupied (writeSlot window) .loopSpent fuel r =
      if n ≤ fuel then .ok (r.drained window body n) else .error .loopSpent := by
    intro fuel
    have exact_ := @whileLoop_exact _ _ _ _ Fault.loopSpent fuel n (r.drained window body) go stop
    rw [begins] at exact_
    exact exact_
  have done : r.drain window = .ok (r.drained window body n) := by
    rw [drain, loop, if_pos run.fits]
  exact ⟨n, run, done, loop, fun i less => Slots.clearRun_run run.fits less,
    fun j outside => Slots.clearRun_other outside, stop⟩

/-- Of five slots the last and the first are occupied. -/
def aroundTheEnd : Receiver where
  index := 4
  seqExp := 255
  slots :=
    { len := fun j => if j = 4 ∨ j = 0 then 1 else -1
      payload := fun j => .block [UInt8.ofNat j] }
  pktRcv := samplePkt
  pktAck := samplePkt
  packetEncoded := .replicate 528 0
  endFile := false
  count := 0
  returned := false
  writes := []

theorem drain_run_sample :
    ∃ n, aroundTheEnd.slots.HasRun 5 4 n ∧ aroundTheEnd.drain 5 =
      .ok (aroundTheEnd.drained 5 (fun j => [UInt8.ofNat j]) n) := by
  have hold : aroundTheEnd.slots.Hold 5 fun j => [UInt8.ofNat j] := by
    intro j _ occupied
    have there : aroundTheEnd.slots.len j = 1 := by
      by_cases here : j = 4 ∨ j = 0
      · exact if_pos here
      · exact (occupied (if_neg here)).elim
    rw [there]
    rfl
  obtain ⟨n, run, drained, -⟩ := @drain_run aroundTheEnd 5 _ (by decide) (by decide) hold
  exact ⟨n, run, drained⟩

end Receiver

end SegmentTransfer
