import SegmentTransfer.Network
import SegmentTransfer.SenderMemory
import SegmentTransfer.HeldSlots

/-! # The two programs with their blocks

The transfer over a lossy network with the pointers of both programs. What is in
flight to the receiver has `TR = 0`, so no slot ever loses its block: the transfer
is that of the two programs without blocks, step for step and fault for fault.
-/

namespace SegmentTransfer.Blocks

open Bytes Outcome

/-- Whether a pass looks at the socket. -/
def Receiver.listens (r : Receiver) : Bool := !r.returned && !r.endFile

structure Network where
  snd : Sender
  rcv : Receiver
  input : List (List UInt8)
  toRcv : List (List UInt8)
  toSnd : List (List UInt8)

namespace Network

def step (crc32 : List UInt8 → UInt32) (n : Network) : Event → Except Fault Network
  | .sender fdReady sfdReady sendClock replyClock timerClock memory => do
      let ready : Ready :=
        { fd := if fdReady then some (some (n.input.headD [])) else none
          sfd := if sfdReady then n.toSnd.head?.map some else none
          sendClock, replyClock, timerClock, memory }
      let sent ← n.snd.pass crc32 ready
      return { n with
        snd := sent.1
        input := if fdReady && n.snd.view.wants then n.input.tail else n.input
        toRcv := n.toRcv ++ sent.2
        toSnd := if sfdReady && n.snd.view.listens then n.toSnd.tail else n.toSnd }
  | .receiver arrives clock stack => do
      let datagram := if arrives then n.toRcv.head?.map some else none
      let replied ← n.rcv.pass crc32 { datagram, clock, stack }
      return { n with
        rcv := replied.1
        toRcv := if arrives && n.rcv.listens then n.toRcv.tail else n.toRcv
        toSnd := n.toSnd ++ replied.2 }
  | .loseData i => return { n with toRcv := n.toRcv.eraseIdx i }
  | .loseAck i => return { n with toSnd := n.toSnd.eraseIdx i }

/-- Before the first pass, whatever the memory the two programs were given. -/
def Starts (file : Bool) (input : List (List UInt8)) (n : Network) : Prop :=
  ∃ memorySend memoryRcv memoryAck bufSend bufRcv,
    n =
      { snd := .start file memorySend bufSend
        rcv := .start memoryRcv memoryAck bufRcv
        input, toRcv := [], toSnd := [] }

/-- Both programs are viewed as those without blocks, with the same datagrams in flight. -/
structure Viewed (b : Network) (n : SegmentTransfer.Network) : Prop where
  snd : b.snd.Viewed n.snd
  rcv : b.rcv.Viewed n.rcv
  input : n.input = b.input
  toRcv : n.toRcv = b.toRcv
  toSnd : n.toSnd = b.toSnd

end Network

/-- The transfer of an input, given as the chunks its reads return. -/
def network (crc32 : List UInt8 → UInt32) (file : Bool) (input : List (List UInt8)) :
    Transition Network Event where
  init := Network.Starts file input
  step n event n' := n.step crc32 event = .ok n'

variable {crc32 : List UInt8 → UInt32}

/-! ## The receiver's passes -/

theorem Receiver.Viewed.listens {r : Receiver} {c : SegmentTransfer.Receiver} (seen : r.Viewed c) :
    c.listens = r.listens := by
  rw [SegmentTransfer.Receiver.listens, Receiver.listens, seen.returned]
  cases running : r.returned with
  | false =>
      obtain ⟨-, rfl⟩ := seen.running running
      rfl
  | true => rfl

/-! ## The sender's -/

theorem Sender.Viewed.listens {s : Sender} {v : SegmentTransfer.Sender} (seen : s.Viewed v) :
    v.listens = s.view.listens ∧ v.wants = s.view.wants := by
  by_cases gone : s.phase = .returned
  · have phase : s.view.phase = .returned := gone
    simp only [SegmentTransfer.Sender.listens, SegmentTransfer.Sender.wants, seen.phase, gone, phase,
      true_and]
    rfl
  · obtain ⟨-, rfl⟩ := seen.running gone
    exact ⟨rfl, rfl⟩

/-! ## The network -/

variable {input : List (List UInt8)} {b : Network} {n : SegmentTransfer.Network} {a : Protocol.State}

theorem Network.Viewed.step (seen : b.Viewed n) (shown : n.Shows crc32 input a) (event : Event) :
    Agree Network.Viewed (b.step crc32 event) (n.step crc32 event) := by
  cases event with
  | sender fdReady sfdReady sendClock replyClock timerClock memory =>
      simp only [Network.step, SegmentTransfer.Network.step, seen.input, seen.toSnd, seen.toRcv,
        seen.snd.listens.1, seen.snd.listens.2]
      refine seen.snd.pass.bind ?_
      rintro ⟨s', out⟩ ⟨v', out'⟩ ⟨seen', same⟩
      simp only at same
      subst same
      exact .ok { snd := seen', rcv := seen.rcv, input := rfl, toRcv := rfl, toSnd := rfl }
  | receiver arrives clock stack =>
      simp only [Network.step, SegmentTransfer.Network.step, seen.toSnd, seen.toRcv, seen.rcv.listens]
      have keeps : b.rcv.KeepsSlots crc32
          { datagram := if arrives then b.toRcv.head?.map some else none, clock, stack } := by
        apply Receiver.keepsSlots_frame
        intro d there
        cases arrives with
        | false => cases there
        | true =>
            obtain ⟨d', first, same⟩ := Option.map_eq_some_iff.mp there
            cases same
            obtain ⟨rest, toRcv⟩ := List.head?_eq_some_iff.mp first
            have items := shown.toRcv
            rw [seen.toRcv, toRcv] at items
            obtain ⟨item, -, here, -, -⟩ := List.forall₂_cons_left_iff.mp items
            exact shownItem_frame here
      refine (seen.rcv.pass keeps).bind ?_
      rintro ⟨r', out⟩ ⟨c', out'⟩ ⟨seen', same⟩
      simp only at same
      subst same
      exact .ok { snd := seen.snd, rcv := seen', input := seen.input, toRcv := rfl, toSnd := rfl }
  | loseData i =>
      exact .ok { seen with toRcv := by simp only [seen.toRcv] }
  | loseAck i =>
      exact .ok { seen with toSnd := by simp only [seen.toSnd] }

/-- In step with the transfer without blocks, whose datagrams are those of the protocol. -/
def Network.Follows (crc32 : List UInt8 → UInt32) (input : List (List UInt8)) (b : Network)
    (n : SegmentTransfer.Network) : Prop :=
  b.Viewed n ∧ ∃ a, n.Shows crc32 input a

theorem Network.Starts.viewed {file : Bool} (starts : b.Starts file input) :
    ∃ n, SegmentTransfer.Network.Starts file input n ∧ b.Viewed n := by
  obtain ⟨memorySend, memoryRcv, memoryAck, bufSend, bufRcv, rfl⟩ := starts
  exact ⟨_, ⟨memorySend, memoryRcv, memoryAck, bufSend, bufRcv, rfl⟩,
    { snd := (Sender.Sound.start file memorySend bufSend).viewed rfl
      rcv := (Receiver.Sound.start memoryRcv memoryAck bufRcv).viewed
      input := rfl, toRcv := rfl, toSnd := rfl }⟩

theorem network_simulated (crc32 : List UInt8 → UInt32) (file : Bool) (readable : Readable input) :
    Transition.Simulates (network crc32 file input) (SegmentTransfer.network crc32 file input)
      (Network.Follows crc32 input) where
  init := by
    intro b starts
    obtain ⟨n, starts', seen⟩ := starts.viewed
    obtain ⟨a, -, shown⟩ := (follows crc32 file readable).init n starts'
    exact ⟨n, starts', seen, a, shown⟩
  step := by
    rintro b n event b' ⟨seen, a, shown⟩ next
    obtain ⟨n', next', seen'⟩ := (seen.step shown event).of_ok_left next
    obtain ⟨a', -, shown'⟩ := (follows crc32 file readable).step n a event n' shown next'
    exact ⟨n', next', seen', a', shown'⟩

/-- However the two programs take turns and whatever is lost, the transfer with its blocks is viewed
    as one without that goes the same way from there, fault for fault, and as long as a program runs
    every pointer in its slots refers to a block that is allocated. -/
theorem transfer_allocated (crc32 : List UInt8 → UInt32) (file : Bool) (readable : Readable input)
    (reach : (network crc32 file input).Reachable b) :
    (∃ n, (SegmentTransfer.network crc32 file input).Reachable n ∧ b.Viewed n ∧
      ∀ event, Agree Network.Viewed (b.step crc32 event) (n.step crc32 event)) ∧
    (b.rcv.returned = false → b.rcv.SlotsHeld) ∧
    (b.snd.phase ≠ .returned → ∀ i a, b.snd.buffer i = some a → ∃ p c bytes,
      b.snd.packets.get a = some p ∧ p.payload = some c ∧ b.snd.table.get c = some bytes) := by
  obtain ⟨n, reach', seen, a, shown⟩ := (network_simulated crc32 file readable).reachable reach
  refine ⟨⟨n, reach', seen, seen.step shown⟩, ?_, ?_⟩
  · intro running
    exact (seen.rcv.running running).1.slotsHeld
  · intro running i a pointer
    obtain ⟨sound, -⟩ := seen.snd.running running
    obtain ⟨p, there, -⟩ := sound.behind pointer
    obtain ⟨c, bytes, payload, block, -⟩ := sound.stored a p there
    exact ⟨p, c, bytes, there, payload, block⟩

/-- One byte was read and written. -/
theorem transfer_allocated_sample : ∃ b : Network, b.rcv.writes = [[7]] ∧ b.rcv.SlotsHeld := by
  have readable : Readable [[7]] := by decide
  have simulates : Transition.Simulates (SegmentTransfer.network Crc.crc32 false [[7]])
      (network Crc.crc32 false [[7]]) (fun n b => Network.Follows Crc.crc32 [[7]] b n) :=
    { init := by
        rintro n starts
        obtain ⟨a, -, shown⟩ := (follows Crc.crc32 false readable).init n starts
        obtain ⟨memorySend, memoryRcv, memoryAck, bufSend, bufRcv, rfl⟩ := starts
        exact ⟨_, ⟨memorySend, memoryRcv, memoryAck, bufSend, bufRcv, rfl⟩,
          { snd := (Sender.Sound.start false memorySend bufSend).viewed rfl
            rcv := (Receiver.Sound.start memoryRcv memoryAck bufRcv).viewed
            input := rfl, toRcv := rfl, toSnd := rfl }, a, shown⟩
      step := by
        rintro n b event n' ⟨seen, a, shown⟩ next
        obtain ⟨b', next', seen'⟩ := (seen.step shown event).of_ok_right next
        obtain ⟨a', -, shown'⟩ := (follows Crc.crc32 false readable).step n a event n' shown next
        exact ⟨b', next', seen', a', shown'⟩ }
  have begins : (Protocol.system false 1).Reachable (.start false) := .of_init rfl
  have read := begins.step (a := Event.reads) rfl
  have written := read.step (a := Event.receives) rfl
  obtain ⟨n, reach, shown⟩ := (followed Crc.crc32 false readable).reachable written
  obtain ⟨b, reach', seen, -⟩ := simulates.reachable reach
  have writes : b.rcv.writes = [[7]] := by
    rw [← seen.rcv.writes, shown.rcv.writes]
    rfl
  have running : b.rcv.returned = false := by
    rw [← seen.rcv.returned, shown.rcv.returned]
    rfl
  exact ⟨b, writes, (transfer_allocated Crc.crc32 false readable reach').2.1 running⟩

end SegmentTransfer.Blocks
