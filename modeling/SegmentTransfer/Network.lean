import SegmentTransfer.Library.Transition
import SegmentTransfer.SenderRefinement

/-! # A whole transfer

The two programs, the chunks not yet read from the input and the datagrams in
flight. The two channels are queues: a datagram may wait in its queue for as
long as it takes, or be lost, but is not altered, duplicated or overtaken. Each
step is a pass of one of the programs or the loss of a datagram.
-/

namespace SegmentTransfer

open Bytes Outcome

inductive Event where
  /-- A pass of the sender: whether `select` reports the file and the socket, and the rest it finds. -/
  | sender (fdReady sfdReady : Bool) (sendClock replyClock timerClock : Timeval)
      (memory : Nat → UInt8)
  /-- A pass of the receiver: whether `select` reports the socket, and the rest it finds. -/
  | receiver (arrives : Bool) (clock : Timeval) (stack : Buf 20)
  /-- The loss of a datagram on its way to the receiver. -/
  | loseData (i : Nat)
  /-- The loss of a datagram on its way to the sender. -/
  | loseAck (i : Nat)

namespace Event

/-- A pass of the sender that reads the file and not the socket. -/
def reads : Event := .sender true false ⟨0, 0⟩ ⟨0, 0⟩ ⟨0, 0⟩ fun _ => 0

/-- A pass of the sender that reads the socket and not the file. -/
def answers : Event := .sender false true ⟨0, 0⟩ ⟨0, 0⟩ ⟨0, 0⟩ fun _ => 0

/-- A pass of the sender that reads neither. -/
def waits : Event := .sender false false ⟨0, 0⟩ ⟨0, 0⟩ ⟨0, 0⟩ fun _ => 0

/-- A pass of the receiver that reads its socket. -/
def receives : Event := .receiver true ⟨0, 0⟩ (.replicate 20 0)

end Event

namespace Sender

/-- Whether a pass looks at the socket. -/
def listens (s : Sender) : Bool :=
  match s.phase with
  | .main => s.stays
  | .closing => true
  | .returned => false

/-- Whether a pass would read the file. -/
def wants (s : Sender) : Bool := s.phase == .main && s.stays && s.fdSet

end Sender

/-- Whether a pass looks at the socket. -/
def Receiver.listens (r : Receiver) : Bool := !r.returned && !r.endFile

structure Network where
  snd : Sender
  rcv : Receiver
  input : List (List UInt8)
  toRcv : List (List UInt8)
  toSnd : List (List UInt8)

namespace Network

/-- The bytes written to the output file. -/
def output (n : Network) : List UInt8 := n.rcv.writes.flatten

def step (crc32 : List UInt8 → UInt32) (n : Network) : Event → Except Fault Network
  | .sender fdReady sfdReady sendClock replyClock timerClock memory => do
      let ready : Ready :=
        { fd := if fdReady then some (some (n.input.headD [])) else none
          sfd := if sfdReady then n.toSnd.head?.map some else none
          sendClock, replyClock, timerClock, memory }
      let sent ← n.snd.pass crc32 ready
      return { n with
        snd := sent.1
        input := if fdReady && n.snd.wants then n.input.tail else n.input
        toRcv := n.toRcv ++ sent.2
        toSnd := if sfdReady && n.snd.listens then n.toSnd.tail else n.toSnd }
  | .receiver arrives clock stack => do
      let datagram := if arrives then n.toRcv.head?.map some else none
      let replied ← n.rcv.pass crc32 { datagram, clock, stack }
      return { n with
        rcv := replied.1
        toRcv := if arrives && n.rcv.listens then n.toRcv.tail else n.toRcv
        toSnd := n.toSnd ++ replied.2 }
  | .loseData i => return { n with toRcv := n.toRcv.eraseIdx i }
  | .loseAck i => return { n with toSnd := n.toSnd.eraseIdx i }

/-- Before the first pass, whatever the memory the two programs were given. -/
def Starts (file : Bool) (input : List (List UInt8)) (n : Network) : Prop :=
  ∃ memorySend memoryRcv memoryAck bufSend bufRcv,
    n =
      { snd := .start file memorySend bufSend
        rcv := .start memoryRcv memoryAck bufRcv
        input, toRcv := [], toSnd := [] }

end Network

/-- The transfer of an input, given as the chunks its reads return. -/
def network (crc32 : List UInt8 → UInt32) (file : Bool) (input : List (List UInt8)) :
    Transition Network Event where
  init := Network.Starts file input
  step n event n' := n.step crc32 event = .ok n'

/-- Reads return between 1 and 512 bytes, until the end of the input. -/
def Readable (input : List (List UInt8)) : Prop :=
  ∀ chunk ∈ input, chunk ≠ [] ∧ chunk.length ≤ maxPayloadSize

instance (input : List (List UInt8)) : Decidable (Readable input) :=
  inferInstanceAs (Decidable (∀ chunk ∈ input, chunk ≠ [] ∧ chunk.length ≤ maxPayloadSize))

/-! ## In numbers of segments -/

namespace Protocol

structure State where
  snd : Sender
  rcv : Receiver
  toRcv : List Item
  toSnd : List Nat

namespace State

def step (total : Nat) (n : State) : Event → Except Fault State
  | .sender fdReady sfdReady _ _ _ _ => do
      let reply := if sfdReady then n.toSnd.head?.map (·, receiverWindow) else none
      let sent ← n.snd.pass total fdReady reply
      return { n with
        snd := sent.1
        toRcv := n.toRcv ++ sent.2
        toSnd := if sfdReady && n.snd.listens then n.toSnd.tail else n.toSnd }
  | .receiver arrives _ _ => do
      let replied ← n.rcv.pass (if arrives then n.toRcv.head? else none)
      return { n with
        rcv := replied.1
        toRcv := if arrives && n.rcv.listens then n.toRcv.tail else n.toRcv
        toSnd := n.toSnd ++ replied.2 }
  | .loseData i => return { n with toRcv := n.toRcv.eraseIdx i }
  | .loseAck i => return { n with toSnd := n.toSnd.eraseIdx i }

def start (file : Bool) : State where
  snd := .start file
  rcv := .start
  toRcv := []
  toSnd := []

end State

/-- The state after a list of events. -/
def State.after (total : Nat) (n : State) (events : List Event) : Except Fault State :=
  events.foldlM (fun n event => n.step total event) n

/-- The transfer of `total` segments. -/
def system (file : Bool) (total : Nat) : Transition State Event where
  init n := n = .start file
  step n event n' := n.step total event = .ok n'

theorem reachable_after {file : Bool} {total : Nat} {n n' : State} {events : List Event}
    (h : n.after total events = .ok n') (reach : (system file total).Reachable n) :
    (system file total).Reachable n' := by
  induction events generalizing n with
  | nil =>
      cases h
      exact reach
  | cons event events ih =>
      obtain ⟨m, first, rest⟩ := bind_eq_ok.mp (List.foldlM_cons.symm.trans h)
      exact ih rest (reach.step first)

end Protocol

/-! ## The programs follow the protocol -/

/-- The chunk a segment carries. -/
def chunkOf (input : List (List UInt8)) (n : Nat) : List UInt8 := input.getD n []

theorem chunkOf_inside {input : List (List UInt8)} {n : Nat} (h : n < input.length) :
    chunkOf input n = input[n] := by
  rw [chunkOf, List.getD_eq_getElem?_getD, List.getElem?_eq_getElem h, Option.getD_some]

structure Network.Shows (crc32 : List UInt8 → UInt32) (input : List (List UInt8)) (n : Network)
    (a : Protocol.State) : Prop where
  snd : n.snd.Shows crc32 (chunkOf input) a.snd
  rcv : n.rcv.Shows (chunkOf input) a.rcv
  sent : a.snd.sent ≤ input.length
  unread : n.input = input.drop a.snd.sent
  toRcv : List.Forall₂ (ShowsItem crc32 (chunkOf input)) n.toRcv a.toRcv
  toSnd : List.Forall₂ (ShowsAck crc32) n.toSnd a.toSnd

section

variable {α β : Type} {R : α → β → Prop} {xs : List α} {ys : List β}

theorem forall₂_tail (h : List.Forall₂ R xs ys) : List.Forall₂ R xs.tail ys.tail := by
  cases h with
  | nil => exact .nil
  | cons _ rest => exact rest

theorem forall₂_eraseIdx (h : List.Forall₂ R xs ys) (i : Nat) :
    List.Forall₂ R (xs.eraseIdx i) (ys.eraseIdx i) := by
  induction h generalizing i with
  | nil => exact .nil
  | cons first rest ih =>
      cases i with
      | zero => exact rest
      | succ i => exact .cons first (ih i)

end

namespace Network.Shows

variable {crc32 : List UInt8 → UInt32} {input : List (List UInt8)} {n : Network} {a : Protocol.State}

theorem start {file : Bool} (h : Network.Starts file input n) : n.Shows crc32 input (.start file) := by
  obtain ⟨memorySend, memoryRcv, memoryAck, bufSend, bufRcv, rfl⟩ := h
  exact
    { snd := .start crc32 _ file memorySend bufSend, rcv := .start _ memoryRcv memoryAck bufRcv
      sent := Nat.zero_le _, unread := rfl, toRcv := .nil, toSnd := .nil }

theorem sndListens (h : n.Shows crc32 input a) : n.snd.listens = a.snd.listens := by
  cases phase : a.snd.phase <;>
    simp only [Sender.listens, Protocol.Sender.listens, h.snd.phase, phase, h.snd.stays]

theorem wants (h : n.Shows crc32 input a) : n.snd.wants = a.snd.wants := by
  rw [Sender.wants, Protocol.Sender.wants, h.snd.phase, h.snd.stays, h.snd.fdSet]

theorem rcvListens (h : n.Shows crc32 input a) : n.rcv.listens = a.rcv.listens := by
  rw [Receiver.listens, Protocol.Receiver.listens, h.rcv.returned, h.rcv.endFile]

theorem fileRead (h : n.Shows crc32 input a) (fdReady : Bool) :
    (if fdReady then some (some (n.input.headD [])) else none) =
      fileRead (chunkOf input) input.length a.snd.sent fdReady := by
  have head : n.input.headD [] =
      if a.snd.sent = input.length then [] else chunkOf input a.snd.sent := by
    have := h.sent
    rw [h.unread]
    split
    · rename_i ends
      rw [ends, List.drop_length]
      rfl
    · have inside : a.snd.sent < input.length := by omega
      rw [List.drop_eq_getElem_cons inside, List.headD_cons, chunkOf_inside inside]
  rw [SegmentTransfer.fileRead, head]

theorem reply (h : n.Shows crc32 input a) (sfdReady : Bool) :
    ShowsReply crc32 (if sfdReady then n.toSnd.head?.map some else none)
      (if sfdReady then a.toSnd.head?.map (·, receiverWindow) else none) := by
  cases sfdReady with
  | false => exact .none
  | true =>
      have toSnd := h.toSnd
      revert toSnd
      generalize n.toSnd = ds, a.toSnd = acks
      intro toSnd
      cases toSnd with
      | nil => exact .none
      | cons first _ => exact .some first

theorem arrival (h : n.Shows crc32 input a) (arrives : Bool) :
    ShowsArrival crc32 (chunkOf input) (if arrives then n.toRcv.head?.map some else none)
      (if arrives then a.toRcv.head? else none) := by
  cases arrives with
  | false => exact .none
  | true =>
      have toRcv := h.toRcv
      revert toRcv
      generalize n.toRcv = ds, a.toRcv = items
      intro toRcv
      cases toRcv with
      | nil => exact .none
      | cons first _ => exact .some first

theorem chunks (h : n.Shows crc32 input a) (readable : Readable input)
    (more : a.snd.sent ≠ input.length) :
    chunkOf input a.snd.sent ≠ [] ∧ (chunkOf input a.snd.sent).length ≤ maxPayloadSize := by
  have inside : a.snd.sent < input.length := by
    have := h.sent
    omega
  rw [chunkOf_inside inside]
  exact readable _ (List.getElem_mem inside)

theorem unread_after (h : n.Shows crc32 input a) {fdReady : Bool} {reply : Option (Nat × Nat)}
    {snd' : Protocol.Sender} {items : List Protocol.Item}
    (moved : a.snd.pass input.length fdReady reply = .ok (snd', items)) :
    snd'.sent ≤ input.length ∧
      (if fdReady && a.snd.wants then n.input.tail else n.input) = input.drop snd'.sent := by
  have inside := h.sent
  rw [Protocol.Sender.pass_sent moved, h.unread]
  cases reads : fdReady && a.snd.wants with
  | false =>
      simp only [Bool.false_eq_true, false_and, if_false]
      exact ⟨inside, trivial⟩
  | true =>
      simp only [if_true, true_and, List.tail_drop]
      split
      · exact ⟨by omega, rfl⟩
      · refine ⟨inside, ?_⟩
        rw [List.drop_eq_nil_of_le (by omega), List.drop_eq_nil_of_le (by omega)]

theorem sender_step (h : n.Shows crc32 input a) (readable : Readable input)
    (fdReady sfdReady : Bool) (sendClock replyClock timerClock : Timeval) (memory : Nat → UInt8) :
    Agree (Network.Shows crc32 input)
      (n.step crc32 (.sender fdReady sfdReady sendClock replyClock timerClock memory))
      (a.step input.length (.sender fdReady sfdReady sendClock replyClock timerClock memory)) := by
  have passed : Agree (ShowsSent crc32 (chunkOf input))
      (n.snd.pass crc32
        { fd := if fdReady then some (some (n.input.headD [])) else none
          sfd := if sfdReady then n.toSnd.head?.map some else none
          sendClock, replyClock, timerClock, memory })
      (a.snd.pass input.length fdReady
        (if sfdReady then a.toSnd.head?.map (·, receiverWindow) else none)) :=
    h.snd.pass (h.chunks readable) (h.fileRead fdReady) (h.reply sfdReady)
  simp only [Network.step, Protocol.State.step, h.wants, h.sndListens]
  cases moved : a.snd.pass input.length fdReady
      (if sfdReady then a.toSnd.head?.map (·, receiverWindow) else none) with
  | error fault =>
      rw [moved] at passed
      rw [passed.of_error_right]
      exact .error fault
  | ok next =>
      obtain ⟨snd', items⟩ := next
      obtain ⟨⟨snd, out⟩, sends, shown, shownOut⟩ := passed.of_ok_right moved
      obtain ⟨inside, unread⟩ := h.unread_after moved
      rw [sends]
      refine .ok
        { snd := shown, rcv := h.rcv, sent := inside, unread := unread
          toRcv := List.rel_append h.toRcv shownOut, toSnd := ?_ }
      simp only
      split
      · exact forall₂_tail h.toSnd
      · exact h.toSnd

theorem receiver_step (h : n.Shows crc32 input a) (arrives : Bool) (clock : Timeval)
    (stack : Buf 20) :
    Agree (Network.Shows crc32 input) (n.step crc32 (.receiver arrives clock stack))
      (a.step input.length (.receiver arrives clock stack)) := by
  have passed : Agree (ShowsReceived crc32 (chunkOf input))
      (n.rcv.pass crc32
        { datagram := if arrives then n.toRcv.head?.map some else none, clock, stack })
      (a.rcv.pass (if arrives then a.toRcv.head? else none)) :=
    h.rcv.pass (h.arrival arrives)
  simp only [Network.step, Protocol.State.step, h.rcvListens]
  apply passed.bind
  rintro ⟨rcv, out⟩ ⟨rcv', acks⟩ ⟨shown, shownOut⟩
  refine .ok
    { snd := h.snd, rcv := shown, sent := h.sent, unread := h.unread, toRcv := ?_
      toSnd := List.rel_append h.toSnd shownOut }
  simp only
  split
  · exact forall₂_tail h.toRcv
  · exact h.toRcv

theorem step (h : n.Shows crc32 input a) (readable : Readable input) (event : Event) :
    Agree (Network.Shows crc32 input) (n.step crc32 event) (a.step input.length event) := by
  cases event with
  | sender => exact h.sender_step readable ..
  | receiver => exact h.receiver_step ..
  | loseData i => exact .ok { h with toRcv := forall₂_eraseIdx h.toRcv i }
  | loseAck i => exact .ok { h with toSnd := forall₂_eraseIdx h.toSnd i }

end Network.Shows

section

variable {crc32 : List UInt8 → UInt32} {file : Bool} {input : List (List UInt8)}

theorem follows (crc32 : List UInt8 → UInt32) (file : Bool) (readable : Readable input) :
    Transition.Simulates (network crc32 file input) (Protocol.system file input.length)
      (Network.Shows crc32 input) where
  init := fun _ starts => ⟨.start file, rfl, .start starts⟩
  step := by
    intro n a event n' shown next
    exact (shown.step readable event).of_ok_left next

theorem followed (crc32 : List UInt8 → UInt32) (file : Bool) (readable : Readable input) :
    Transition.Simulates (Protocol.system file input.length) (network crc32 file input)
      (fun a n => n.Shows crc32 input a) where
  init := by
    rintro _ rfl
    let memory : Pkt :=
      { window := 0, tr := 0, type := 0, seqnum := 0, length := 0, timestamp := 0, crc1 := 0
        payload := .null, crc2 := 0 }
    have starts : Network.Starts file input
        { snd := .start file memory (.replicate 528 0)
          rcv := .start memory memory (.replicate 528 0)
          input, toRcv := [], toSnd := [] } := ⟨_, _, _, _, _, rfl⟩
    exact ⟨_, starts, .start starts⟩
  step := by
    intro a n event a' shown next
    exact (shown.step readable event).of_ok_right next

end

end SegmentTransfer
