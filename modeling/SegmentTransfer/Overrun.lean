import SegmentTransfer.Network
import SegmentTransfer.Reassembly

/-! # Where the window test fails

Once 253 segments were sent and acknowledged, `small_seq` is 253, and no byte
exceeds it by three: `isNotFull` holds whatever was sent since. So the sender
reads on while nothing is acknowledged, and when the segment it sends then and
the 255 that follow are lost, the receiver takes the next one for it.
-/

namespace SegmentTransfer

open Bytes Outcome

namespace Protocol

namespace Sender

variable {total a n : Nat} {slots : Nat → Option Nat}

/-- A sender that reads from the standard input, with `n` segments sent of which `a` were
    acknowledged. -/
def standing (a n : Nat) (slots : Nat → Option Nat) : Sender where
  file := false
  phase := .main
  endFile := false
  bufferEmpty := true
  window := 3
  smallInd := a % 3
  sent := n
  acked := a
  lastAck := some a
  slots := slots

theorem standing_fdSet (test : ((n % 256 : Nat) : Int) - (a % 256 : Nat) < 3) :
    (standing a n slots).fdSet = true := by
  have room : (standing a n slots).isNotFull = true := decide_eq_true test
  rw [fdSet, room]
  rfl

theorem read_standing (more : n ≠ total) (small : n + 1 < 2 ^ 31)
    (test : ((n % 256 : Nat) : Int) - (a % 256 : Nat) < 3) :
    (standing a n slots).pass total true none =
      .ok (standing a (n + 1) (Function.update slots (n % 3) (some n)), [.seg n (n + 1)]) := by
  have slot : slotOf n 3 = .ok (n % 3) := slotOf_eq (by omega) (by decide) n
  let it : Iteration :=
    { sender := standing a (n + 1) (Function.update slots (n % 3) (some n)), sent := true
      ackReceived := false, out := [.seg n (n + 1)] }
  have read : filePart total true (begin (standing a n slots)) = .ok it := by
    have set : (begin (standing a n slots)).sender.fdSet = true := standing_fdSet test
    have unfinished : ¬ (begin (standing a n slots)).sender.sent = total := more
    rw [filePart, if_neg (by simp [set]), if_neg (by simp), if_neg unfinished]
    simp only [sendChunk, begin, standing, slot, ok_bind, show ¬ 2 ^ 31 ≤ n + 1 by omega, if_false]
    rfl
  exact pass_main it rfl rfl read rfl

theorem ack_standing (total : Nat) :
    (standing a n slots).pass total false (some (a + 1, receiverWindow)) =
      .ok (standing (a + 1) n slots, []) := by
  have one : advance a (a + 1) = 1 := by
    unfold advance
    omega
  have next : (a % 3 + 1) % 3 = (a + 1) % 3 := by omega
  have handled : handleAck (a + 1) receiverWindow (begin (standing a n slots)) =
      { begin (standing (a + 1) n slots) with ackReceived := true } := by
    simp only [handleAck, begin, standing, one, receiverWindow, Nat.lt_irrefl, if_false, next]
    rfl
  have unread : filePart total false (begin (standing a n slots)) =
      .ok (begin (standing a n slots)) := by
    unfold filePart
    split <;> rfl
  apply pass_main { begin (standing (a + 1) n slots) with ackReceived := true } rfl rfl unread
  rw [replyPart, handled]
  rfl

/-- A sender that has sent its first segment with a window of one. -/
def begun : Sender where
  file := false
  phase := .main
  endFile := false
  bufferEmpty := true
  window := 1
  smallInd := 0
  sent := 1
  acked := 0
  lastAck := none
  slots := Function.update (fun _ => none) 0 (some 0)

theorem read_first (more : 0 ≠ total) :
    (start false).pass total true none = .ok (begun, [.seg 0 1]) := by
  have unfinished : ¬ (begin (start false)).sender.sent = total := more
  let it : Iteration := { sender := begun, sent := true, ackReceived := false, out := [.seg 0 1] }
  have read : filePart total true (begin (start false)) = .ok it := by
    rw [filePart, if_neg (by decide), if_neg (by decide), if_neg unfinished]
    rfl
  exact pass_main it rfl rfl read rfl

theorem ack_first (total : Nat) :
    begun.pass total false (some (1, receiverWindow)) = .ok (standing 1 1 begun.slots, []) := rfl

end Sender

end Protocol

/-! ## The whole transfer -/

namespace Protocol.State

/-- A transfer from the standard input with nothing in flight and nothing held. -/
structure Calm (n : State) (a sent : Nat) : Prop where
  snd : ∃ slots, n.snd = .standing a sent slots
  written : n.rcv.written = List.range a
  empty : n.rcv.Empty
  listens : n.rcv.listens = true
  toRcv : n.toRcv = []
  toSnd : n.toSnd = []

variable {total a sent : Nat} {n : State}

theorem receives_expected {k mark : Nat} (toRcv : n.toRcv = [.seg k mark]) (empty : n.rcv.Empty)
    (listens : n.rcv.listens = true) (expected : k % 256 = n.rcv.done % 256) :
    ∃ slots, n.step total .receives =
        .ok { n with
          rcv := { n.rcv with written := n.rcv.written ++ [k], slots }
          toRcv := [], toSnd := n.toSnd ++ [n.rcv.done + 1] } ∧
      ∀ i < 3, slots i = none := by
  obtain ⟨slots, drained, emptied⟩ := Receiver.arrival_expected empty expected
  refine ⟨slots, ?_, emptied⟩
  have passed : n.rcv.pass (some (.seg k mark)) =
      .ok ({ n.rcv with written := n.rcv.written ++ [k], slots }, [n.rcv.done + 1]) := by
    rw [Receiver.pass_seg listens drained]
    simp only [Receiver.done, List.length_append, List.length_singleton]
  simp only [step, Event.receives, toRcv, List.head?_cons, if_true, passed, ok_bind, listens]
  rfl

namespace Calm

theorem reads (h : Calm n a sent) (more : sent ≠ total) (small : sent + 1 < 2 ^ 31)
    (test : ((sent % 256 : Nat) : Int) - (a % 256 : Nat) < 3) :
    ∃ slots, n.step total .reads =
      .ok { n with snd := .standing a (sent + 1) slots, toRcv := [.seg sent (sent + 1)] } := by
  obtain ⟨slots, snd⟩ := h.snd
  refine ⟨Function.update slots (sent % 3) (some sent), ?_⟩
  simp only [step, Event.reads, snd, Bool.false_eq_true, if_false,
    Sender.read_standing more small test, ok_bind, h.toRcv, List.nil_append, Bool.false_and]
  rfl

theorem round (h : Calm n a a) (reach : (system false total).Reachable n) (more : a ≠ total)
    (small : a + 1 < 2 ^ 31) : ∃ n', (system false total).Reachable n' ∧ Calm n' (a + 1) (a + 1) := by
  have done : n.rcv.done = a := by
    rw [Receiver.done, h.written, List.length_range]
  obtain ⟨slots, read⟩ := h.reads more small (by omega)
  have sent := reach.step read
  obtain ⟨held, received, emptied⟩ :=
    @receives_expected total { n with snd := .standing a (a + 1) slots, toRcv := [.seg a (a + 1)] }
      a (a + 1) rfl h.empty h.listens (by rw [done])
  have written := sent.step received
  have answered : step total
      { snd := .standing a (a + 1) slots
        rcv := { n.rcv with written := n.rcv.written ++ [a], slots := held }
        toRcv := [], toSnd := n.toSnd ++ [n.rcv.done + 1] } .answers =
      .ok
        { snd := .standing (a + 1) (a + 1) slots
          rcv := { n.rcv with written := n.rcv.written ++ [a], slots := held }
          toRcv := [], toSnd := [] } := by
    simp only [step, Event.answers, h.toSnd, done, List.nil_append, List.head?_cons, Option.map_some,
      if_true, Sender.ack_standing, ok_bind]
    rfl
  exact ⟨_, written.step answered,
    { snd := ⟨slots, rfl⟩
      written := by
        simp only [h.written, List.range_succ]
      empty := emptied, listens := h.listens, toRcv := rfl, toSnd := rfl }⟩

theorem lose (h : Calm n a sent) (reach : (system false total).Reachable n) (more : sent ≠ total)
    (small : sent + 1 < 2 ^ 31) (test : ((sent % 256 : Nat) : Int) - (a % 256 : Nat) < 3) :
    ∃ n', (system false total).Reachable n' ∧ Calm n' a (sent + 1) := by
  obtain ⟨slots, read⟩ := h.reads more small test
  have sends := reach.step read
  exact ⟨_, sends.step (show step total _ (.loseData 0) = .ok _ from rfl),
    { h with snd := ⟨slots, rfl⟩, toRcv := rfl }⟩

theorem first (more : 0 ≠ total) : ∃ n', (system false total).Reachable n' ∧ Calm n' 1 1 := by
  have read : step total (.start false) .reads =
      .ok { snd := .begun, rcv := .start, toRcv := [.seg 0 1], toSnd := [] } := by
    simp only [step, Event.reads, State.start, Bool.false_eq_true, if_false,
      Sender.read_first more, ok_bind]
    rfl
  obtain ⟨held, received, emptied⟩ :=
    @receives_expected total { snd := .begun, rcv := .start, toRcv := [.seg 0 1], toSnd := [] }
      0 1 rfl (fun _ _ => rfl) rfl rfl
  have answered : step total
      { snd := .begun, rcv := { Receiver.start with written := [0], slots := held }
        toRcv := [], toSnd := [1] } .answers =
      .ok
        { snd := .standing 1 1 Sender.begun.slots
          rcv := { Receiver.start with written := [0], slots := held }
          toRcv := [], toSnd := [] } := by
    simp only [step, Event.answers, List.head?_cons, Option.map_some, if_true, Sender.ack_first,
      ok_bind]
    rfl
  have begins : (system false total).Reachable (.start false) := .of_init rfl
  exact ⟨_, ((begins.step read).step received).step answered,
    { snd := ⟨_, rfl⟩, written := rfl, empty := emptied, listens := rfl, toRcv := rfl, toSnd := rfl }⟩

theorem rounds (k : Nat) (some : 0 < k) (few : k ≤ total) (small : k < 2 ^ 31) :
    ∃ n, (system false total).Reachable n ∧ Calm n k k := by
  induction k, some using Nat.le_induction with
  | base => exact first (by omega)
  | succ k _ ih =>
      obtain ⟨n, reach, calm⟩ := ih (by omega) (by omega)
      exact calm.round reach (by omega) small

theorem losses (j : Nat) (few : 253 + j ≤ total) (small : 253 + j < 2 ^ 31) :
    ∃ n, (system false total).Reachable n ∧ Calm n 253 (253 + j) := by
  induction j with
  | zero => exact rounds 253 (by decide) few small
  | succ j ih =>
      obtain ⟨n, reach, calm⟩ := ih (by omega) (by omega)
      exact calm.lose reach (by omega) small (by omega)

end Calm

theorem overtaken (long : 510 ≤ total) :
    ∃ n, (system false total).Reachable n ∧ n.rcv.written = List.range 253 ++ [509] := by
  obtain ⟨n, reach, calm⟩ := Calm.losses 256 (show 253 + 256 ≤ total by omega) (by decide)
  have done : n.rcv.done = 253 := by
    rw [Receiver.done, calm.written, List.length_range]
  obtain ⟨slots, read⟩ := calm.reads (show 509 ≠ total by omega) (by decide) (by decide)
  obtain ⟨held, received, -⟩ :=
    @receives_expected total { n with snd := .standing 253 510 slots, toRcv := [.seg 509 510] }
      509 510 rfl calm.empty calm.listens (by rw [done])
  exact ⟨_, (reach.step read).step received, congrArg (· ++ [509]) calm.written⟩

end Protocol.State

end SegmentTransfer
