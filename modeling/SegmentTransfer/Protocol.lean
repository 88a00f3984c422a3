import SegmentTransfer.Sender

/-! # The protocol in numbers of segments

The transfer without bytes: a data packet is the number of the segment it
carries, an ACK is the number of segments written when it was sent, and both
parties count from the start of the transfer. Sequence numbers are these counts
modulo 256, and the two parties compare them as the programs do. Later modules
show that the programs follow this protocol step for step and prove what holds
of its runs.
-/

namespace SegmentTransfer.Protocol

open Outcome

/-- A datagram to the receiver; `mark` is how many segments had been sent by then. -/
inductive Item where
  | seg (n mark : Nat)
  | fin (n : Nat)
  deriving DecidableEq, Repr

/-! ## The receiver -/

structure Receiver where
  /-- The segments written, in order. -/
  written : List Nat
  slots : Nat → Option Nat
  endFile : Bool
  count : Nat
  returned : Bool

namespace Receiver

def start : Receiver where
  written := []
  slots := fun _ => none
  endFile := false
  count := 0
  returned := false

/-- The number of segments written. -/
def done (r : Receiver) : Nat := r.written.length

/-- Segment `n` arrives. -/
def place (n : Nat) (r : Receiver) : Receiver :=
  if InWindow (n % 256) (r.done % 256) receiverWindow then
    { r with
      slots := Function.update r.slots
        (realInd (r.done % 3) (n % 256) (r.done % 256) receiverWindow) (some n) }
  else r

def occupied (r : Receiver) : Bool := (r.slots (r.done % 3)).isSome

def writeSlot (r : Receiver) : Except Fault Receiver := do
  let n ← orFail .payloadRead (r.slots (r.done % 3))
  return { r with written := r.written ++ [n], slots := Function.update r.slots (r.done % 3) none }

def drain (r : Receiver) : Except Fault Receiver :=
  whileLoop occupied writeSlot .loopSpent receiverWindow r

/-- A pass of one of the receiver's loops, with the ACKs it sends. -/
def pass (arrival : Option Item) (r : Receiver) : Except Fault (Receiver × List Nat) :=
  if r.returned then return (r, [])
  else if r.endFile = false then
    match arrival with
    | none => return (r, [])
    | some (.seg n _) => do
        let r ← drain (place n r)
        return (r, [r.done])
    | some (.fin _) => return ({ r with endFile := true }, [])
  else if r.count < 11 then return ({ r with count := r.count + 1 }, [r.done])
  else return ({ r with returned := true }, [])

end Receiver

namespace Receiver

def listens (r : Receiver) : Bool := !r.returned && !r.endFile

theorem pass_seg {r r' : Receiver} {n mark : Nat} (listening : r.listens = true)
    (drained : (r.place n).drain = .ok r') : r.pass (some (.seg n mark)) = .ok (r', [r'.done]) := by
  simp only [listens, Bool.and_eq_true, Bool.not_eq_true'] at listening
  simp only [pass, listening.1, listening.2, Bool.false_eq_true, if_false, if_true, drained, ok_bind]
  rfl

theorem pass_fin {r : Receiver} {n : Nat} (listening : r.listens = true) :
    r.pass (some (.fin n)) = .ok ({ r with endFile := true }, []) := by
  simp only [listens, Bool.and_eq_true, Bool.not_eq_true'] at listening
  simp only [pass, listening.1, listening.2, Bool.false_eq_true, if_false, if_true]
  rfl

/-- A pass takes a segment, takes the end packet, or writes nothing. -/
theorem pass_cases {arrival : Option Item} {r r' : Receiver} {acks : List Nat}
    (h : r.pass arrival = .ok (r', acks)) :
    (r.listens = true ∧ ∃ n mark, arrival = some (.seg n mark) ∧ (r.place n).drain = .ok r' ∧
        acks = [r'.done]) ∨
      (r.listens = true ∧ ∃ n, arrival = some (.fin n) ∧ r' = { r with endFile := true } ∧
        acks = []) ∨
      ((r.listens = false ∨ arrival = none) ∧ r'.written = r.written ∧ r'.slots = r.slots ∧
        r'.endFile = r.endFile ∧ (acks = [] ∨ acks = [r'.done])) := by
  unfold pass at h
  split at h
  · rename_i returned
    cases h
    exact .inr (.inr ⟨.inl (by simp [listens, returned]), rfl, rfl, rfl, .inl rfl⟩)
  rename_i running
  split at h
  · rename_i open_
    have listening : r.listens = true := by simp [listens, running, open_]
    split at h
    · cases h
      exact .inr (.inr ⟨.inr rfl, rfl, rfl, rfl, .inl rfl⟩)
    · rename_i n mark
      obtain ⟨t, drained, rest⟩ := bind_eq_ok.mp h
      cases rest
      exact .inl ⟨listening, n, mark, rfl, drained, rfl⟩
    · rename_i n
      cases h
      exact .inr (.inl ⟨listening, n, rfl, rfl, rfl⟩)
  rename_i ended
  have deaf : r.listens = false := by simp [listens, ended]
  split at h
  · cases h
    exact .inr (.inr ⟨.inl deaf, rfl, rfl, rfl, .inr rfl⟩)
  · cases h
    exact .inr (.inr ⟨.inl deaf, rfl, rfl, rfl, .inl rfl⟩)

end Receiver

/-! ## The sender -/

structure Sender where
  file : Bool
  phase : SenderPhase
  endFile : Bool
  bufferEmpty : Bool
  window : Nat
  smallInd : Nat
  /-- How many segments were sent. -/
  sent : Nat
  /-- How many times the window has moved. -/
  acked : Nat
  lastAck : Option Nat
  slots : Nat → Option Nat

structure Iteration where
  sender : Sender
  sent : Bool
  ackReceived : Bool
  out : List Item

namespace Sender

def start (file : Bool) : Sender where
  file := file
  phase := .main
  endFile := false
  bufferEmpty := false
  window := 1
  smallInd := 0
  sent := 0
  acked := 0
  lastAck := none
  slots := fun _ => none

def isNotFull (s : Sender) : Bool :=
  ((s.sent % 256 : Nat) : Int) - (s.acked % 256 : Nat) < s.window

def fdSet (s : Sender) : Bool := !s.endFile && (!s.bufferEmpty || s.isNotFull)

def stays (s : Sender) : Bool := (s.bufferEmpty || !s.endFile) && !s.endFile

end Sender

def sendChunk (it : Iteration) : Except Fault Iteration := do
  let s := it.sender
  let slot ← slotOf s.sent s.window
  if 2 ^ 31 ≤ s.sent + 1 then throw .intOverflow
  return { it with
    sender := { s with
      bufferEmpty := true
      slots := Function.update s.slots slot (some s.sent)
      sent := s.sent + 1 }
    sent := true
    out := it.out ++ [.seg s.sent (s.sent + 1)] }

/-- Of `total` segments the next one is read, or the end of the file. -/
def filePart (total : Nat) (fdReady : Bool) (it : Iteration) : Except Fault Iteration :=
  if it.sender.fdSet = false then return it
  else if fdReady = false then return it
  else if it.sender.sent = total then return { it with sender := { it.sender with endFile := true } }
  else sendChunk it

/-- How far the ACK `a` moves the window. -/
def advance (acked a : Nat) : Nat := (a % 256 + 256 - acked % 256) % 256

/-- The ACK `a`, advertising a window, is handled. -/
def handleAck (a window : Nat) (it : Iteration) : Iteration :=
  let s := it.sender
  let window := if window > s.window then window else s.window
  let smallInd := (s.smallInd + advance s.acked a) % window
  { it with
    sender := { s with
      window
      smallInd
      acked := s.acked + advance s.acked a
      lastAck := some a
      bufferEmpty := if s.endFile ∧ smallInd = s.sent % 256 then false else s.bufferEmpty }
    ackReceived := true }

def replyPart (reply : Option (Nat × Nat)) (it : Iteration) : Iteration :=
  match reply with
  | none => it
  | some (a, window) => handleAck a window it

def timerPart (it : Iteration) : Except Fault Iteration :=
  if it.sent = false ∧ it.ackReceived = false ∧ it.sender.file then do
    let slot ← slotOf it.sender.smallInd it.sender.window
    let n ← orFail .unfilledSlot (it.sender.slots slot)
    return { it with out := it.out ++ [.seg n it.sender.sent] }
  else return it

namespace Sender

def mainPass (total : Nat) (fdReady : Bool) (reply : Option (Nat × Nat)) (s : Sender) :
    Except Fault Iteration := do
  let it ← filePart total fdReady { sender := s, sent := false, ackReceived := false, out := [] }
  timerPart (replyPart reply it)

/-- A pass of whichever loop the sender is in, with the datagrams it sends. -/
def pass (total : Nat) (fdReady : Bool) (reply : Option (Nat × Nat)) (s : Sender) :
    Except Fault (Sender × List Item) :=
  match s.phase with
  | .main =>
      if s.stays then do
        let it ← mainPass total fdReady reply s
        return (it.sender, it.out)
      else return ({ s with phase := .closing }, [])
  | .closing =>
      if reply.isSome then return ({ s with phase := .returned }, [.fin s.sent])
      else return (s, [.fin s.sent])
  | .returned => return (s, [])

/-- Whether a pass looks at the socket. -/
def listens (s : Sender) : Bool :=
  match s.phase with
  | .main => s.stays
  | .closing => true
  | .returned => false

end Sender

/-! ## What a pass of the sender can do -/

theorem sendChunk_ok {it it' : Iteration} (h : sendChunk it = .ok it') :
    0 < it.sender.window ∧
      it' = { it with
        sender := { it.sender with
          bufferEmpty := true
          slots := Function.update it.sender.slots (it.sender.sent % it.sender.window)
            (some it.sender.sent)
          sent := it.sender.sent + 1 }
        sent := true
        out := it.out ++ [.seg it.sender.sent (it.sender.sent + 1)] } := by
  obtain ⟨slot, found, rest⟩ := bind_eq_ok.mp h
  obtain ⟨positive, rfl⟩ := slotOf_ok found
  split at rest
  · cases rest
  · cases rest
    exact ⟨positive, rfl⟩

/-- Nothing is read, the end of the file is, or a segment is. -/
theorem filePart_cases {total : Nat} {fdReady : Bool} {it it' : Iteration}
    (h : filePart total fdReady it = .ok it') :
    ((it.sender.fdSet && fdReady) = false ∧ it' = it) ∨
      ((it.sender.fdSet && fdReady) = true ∧ it.sender.sent = total ∧
        it' = { it with sender := { it.sender with endFile := true } }) ∨
      ((it.sender.fdSet && fdReady) = true ∧ it.sender.sent ≠ total ∧ 0 < it.sender.window ∧
        it' = { it with
          sender := { it.sender with
            bufferEmpty := true
            slots := Function.update it.sender.slots (it.sender.sent % it.sender.window)
              (some it.sender.sent)
            sent := it.sender.sent + 1 }
          sent := true
          out := it.out ++ [.seg it.sender.sent (it.sender.sent + 1)] }) := by
  unfold filePart at h
  split at h
  · rename_i unset
    cases h
    exact .inl ⟨by rw [unset, Bool.false_and], rfl⟩
  · rename_i set
    rw [Bool.not_eq_false] at set
    split at h
    · rename_i unready
      cases h
      exact .inl ⟨by rw [unready, Bool.and_false], rfl⟩
    · rename_i ready
      rw [Bool.not_eq_false] at ready
      split at h
      · rename_i ends
        cases h
        exact .inr (.inl ⟨by rw [set, ready]; rfl, ends, rfl⟩)
      · rename_i more
        obtain ⟨positive, rfl⟩ := sendChunk_ok h
        exact .inr (.inr ⟨by rw [set, ready]; rfl, more, positive, rfl⟩)

theorem timerPart_cases {it it' : Iteration} (h : timerPart it = .ok it') :
    it' = it ∨ ∃ slot n, it.sender.slots slot = some n ∧
      it' = { it with out := it.out ++ [.seg n it.sender.sent] } := by
  unfold timerPart at h
  split at h
  · obtain ⟨slot, -, rest⟩ := bind_eq_ok.mp h
    obtain ⟨n, held, rest⟩ := bind_eq_ok.mp rest
    cases content : it.sender.slots slot with
    | none =>
        rw [content] at held
        cases held
    | some m =>
        rw [content] at held
        cases held
        cases rest
        exact .inr ⟨slot, n, content, rfl⟩
  · cases h
    exact .inl rfl

namespace Sender

/-- Whether a pass would read the file. -/
def wants (s : Sender) : Bool := s.phase == .main && s.stays && s.fdSet

/-- Where a pass of the main loop begins. -/
def begin (s : Sender) : Iteration := { sender := s, sent := false, ackReceived := false, out := [] }

variable {total : Nat} {fdReady : Bool} {reply : Option (Nat × Nat)} {s s' : Sender}
  {out : List Item}

theorem pass_main (it' : Iteration) (main : s.phase = .main) (stays : s.stays = true)
    {it : Iteration} (read : filePart total fdReady s.begin = .ok it)
    (timed : timerPart (replyPart reply it) = .ok it') :
    s.pass total fdReady reply = .ok (it'.sender, it'.out) := by
  have passed : s.mainPass total fdReady reply = .ok it' := bind_eq_ok.mpr ⟨it, read, timed⟩
  simp only [pass, main, stays, if_true, passed, ok_bind]
  rfl

/-- A pass is one of the main loop, the step out of it, one of the closing loop or nothing. -/
theorem pass_cases (h : s.pass total fdReady reply = .ok (s', out)) :
    (s.phase = .main ∧ s.stays = true ∧ ∃ it it', filePart total fdReady s.begin = .ok it ∧
        timerPart (replyPart reply it) = .ok it' ∧ s' = it'.sender ∧ out = it'.out) ∨
      (s.phase = .main ∧ s.stays = false ∧ s' = { s with phase := .closing } ∧ out = []) ∨
      (s.phase = .closing ∧ out = [.fin s.sent] ∧
        s' = if reply.isSome then { s with phase := .returned } else s) ∨
      (s.phase = .returned ∧ s' = s ∧ out = []) := by
  unfold pass at h
  split at h
  · rename_i main
    split at h
    · rename_i stays
      obtain ⟨it', passed, rest⟩ := bind_eq_ok.mp h
      obtain ⟨it, read, timed⟩ := bind_eq_ok.mp passed
      cases rest
      exact .inl ⟨main, stays, it, it', read, timed, rfl, rfl⟩
    · rename_i leaves
      cases h
      exact .inr (.inl ⟨main, (Bool.not_eq_true _).mp leaves, rfl, rfl⟩)
  · rename_i closing
    split at h
    · rename_i some
      cases h
      exact .inr (.inr (.inl ⟨closing, rfl, (if_pos some).symm⟩))
    · rename_i none
      cases h
      exact .inr (.inr (.inl ⟨closing, rfl, (if_neg none).symm⟩))
  · rename_i gone
    cases h
    exact .inr (.inr (.inr ⟨gone, rfl, rfl⟩))

theorem pass_stayed (main : s.phase = .main) (stays : s.stays = true)
    (h : s.pass total fdReady reply = .ok (s', out)) :
    ∃ it it', filePart total fdReady s.begin = .ok it ∧ timerPart (replyPart reply it) = .ok it' ∧
      s' = it'.sender ∧ out = it'.out := by
  rcases pass_cases h with ⟨-, -, parts⟩ | ⟨-, leaves, -⟩ | ⟨closing, -⟩ | ⟨gone, -⟩
  · exact parts
  · rw [stays] at leaves
    cases leaves
  · rw [main] at closing
    cases closing
  · rw [main] at gone
    cases gone

theorem replyPart_sent (reply : Option (Nat × Nat)) (it : Iteration) :
    (replyPart reply it).sender.sent = it.sender.sent := by
  cases reply <;> rfl

theorem pass_sent (h : s.pass total fdReady reply = .ok (s', out)) :
    s'.sent = if (fdReady && s.wants) = true ∧ s.sent ≠ total then s.sent + 1 else s.sent := by
  rcases pass_cases h with ⟨main, stays, it, it', read, timed, rfl, -⟩ | ⟨main, leaves, rfl, -⟩ |
    ⟨closing, -, rfl⟩ | ⟨gone, rfl, -⟩
  · have timer : it'.sender.sent = it.sender.sent := by
      rw [← replyPart_sent reply it]
      rcases timerPart_cases timed with rfl | ⟨slot, n, -, rfl⟩ <;> rfl
    have wants : (fdReady && s.wants) = (s.fdSet && fdReady) := by
      rw [Sender.wants, main, stays, Bool.and_comm]
      rfl
    rw [timer, wants]
    rcases filePart_cases read with ⟨unread, rfl⟩ | ⟨ready, ends, rfl⟩ | ⟨ready, more, -, rfl⟩
    · exact (if_neg (by rw [show (s.fdSet && fdReady) = false from unread]; simp)).symm
    · exact (if_neg (fun both => both.2 ends)).symm
    · exact (if_pos ⟨ready, more⟩).symm
  · rw [if_neg (by simp [Sender.wants, leaves])]
  · have quiet : ¬ ((fdReady && s.wants) = true ∧ s.sent ≠ total) := by
      simp [Sender.wants, closing]
    rw [if_neg quiet]
    split <;> rfl
  · rw [if_neg (by simp [Sender.wants, gone])]

end Sender

end SegmentTransfer.Protocol
