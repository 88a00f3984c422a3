import Mathlib.Data.List.InsertIdx
import SegmentTransfer.Delivery

/-! # Datagrams out of order

The transfer over a network that also duplicates datagrams and lets them overtake
each other, for any length of time. Each one to the receiver is marked with the
number of segments sent when it was. A receiver that has written at most 250
segments more than that still tells the segment by its number modulo 256, so the
output stays the beginning of the input, as long as the replies keep their order
and the sender its window.
-/

namespace SegmentTransfer

open Outcome

/-! ## A channel that keeps no order -/

section

variable {α β : Type}

/-- Element `i` comes first. -/
def overtake (i : Nat) (l : List α) : List α := l[i]?.toList ++ l.eraseIdx i

/-- A copy of element `i` comes first. -/
def duplicate (i : Nat) (l : List α) : List α := l[i]?.toList ++ l

theorem mem_overtake {i : Nat} {l : List α} {x : α} (h : x ∈ overtake i l) : x ∈ l := by
  rcases List.mem_append.mp h with first | rest
  · exact List.mem_of_getElem? (Option.mem_toList.mp first)
  · exact (List.eraseIdx_sublist l i).subset rest

theorem mem_duplicate {i : Nat} {l : List α} {x : α} (h : x ∈ duplicate i l) : x ∈ l := by
  rcases List.mem_append.mp h with first | rest
  · exact List.mem_of_getElem? (Option.mem_toList.mp first)
  · exact rest

theorem map_overtake (f : α → β) (i : Nat) (l : List α) :
    (overtake i l).map f = overtake i (l.map f) := by
  simp only [overtake, List.map_append, List.getElem?_map, List.eraseIdx_map,
    Option.toList_map]

theorem map_duplicate (f : α → β) (i : Nat) (l : List α) :
    (duplicate i l).map f = duplicate i (l.map f) := by
  simp only [duplicate, List.map_append, List.getElem?_map, Option.toList_map]

variable {R : α → β → Prop} {xs : List α} {ys : List β}

theorem forall₂_getElem? (h : List.Forall₂ R xs ys) (i : Nat) :
    List.Forall₂ R xs[i]?.toList ys[i]?.toList := by
  induction h generalizing i with
  | nil => exact .nil
  | cons first _ ih =>
      cases i with
      | zero => exact .cons first .nil
      | succ i => exact ih i

theorem forall₂_overtake (h : List.Forall₂ R xs ys) (i : Nat) :
    List.Forall₂ R (overtake i xs) (overtake i ys) :=
  List.rel_append (forall₂_getElem? h i) (forall₂_eraseIdx h i)

theorem forall₂_duplicate (h : List.Forall₂ R xs ys) (i : Nat) :
    List.Forall₂ R (duplicate i xs) (duplicate i ys) :=
  List.rel_append (forall₂_getElem? h i) h

end

/-! ## The network -/

inductive Disturbance where
  /-- A pass of one of the programs, or a loss. -/
  | event (event : Event)
  /-- A datagram on its way to the receiver overtakes those before it. -/
  | overtake (i : Nat)
  /-- A datagram on its way to the receiver is duplicated. -/
  | duplicate (i : Nat)
  /-- A reply overtakes those before it. -/
  | overtakeAck (i : Nat)
  /-- A reply is duplicated. -/
  | duplicateAck (i : Nat)

/-- A transfer, with the number of segments sent when each datagram to the receiver was. -/
structure Disordered where
  network : Network
  marks : List Nat

namespace Disordered

/-- The marks of what is in flight after an event. -/
def marked (n n' : Network) (marks : List Nat) : Event → List Nat
  | .sender _ _ _ _ _ _ =>
      marks ++ List.replicate (n'.toRcv.length - n.toRcv.length) n'.snd.seqInd
  | .receiver arrives _ _ => if arrives && n.rcv.listens then marks.tail else marks
  | .loseData i => marks.eraseIdx i
  | .loseAck _ => marks

def step (crc32 : List UInt8 → UInt32) (d : Disordered) : Disturbance → Except Fault Disordered
  | .event event => do
      let n ← d.network.step crc32 event
      return { network := n, marks := marked d.network n d.marks event }
  | .overtake i =>
      return { network := { d.network with toRcv := SegmentTransfer.overtake i d.network.toRcv }
               marks := SegmentTransfer.overtake i d.marks }
  | .duplicate i =>
      return { network := { d.network with toRcv := SegmentTransfer.duplicate i d.network.toRcv }
               marks := SegmentTransfer.duplicate i d.marks }
  | .overtakeAck i =>
      return { d with
        network := { d.network with toSnd := SegmentTransfer.overtake i d.network.toSnd } }
  | .duplicateAck i =>
      return { d with
        network := { d.network with toSnd := SegmentTransfer.duplicate i d.network.toSnd } }

/-- Chunks are read inside the window, no datagram is read after the receiver has written more than
    250 segments beyond its mark, and the replies keep their order. -/
def Timely (d : Disordered) : Disturbance → Prop
  | .event (.sender fdReady sfdReady sendClock replyClock timerClock memory) =>
      d.network.ReadsInWindow (.sender fdReady sfdReady sendClock replyClock timerClock memory)
  | .event (.receiver true _ _) => d.network.rcv.listens = true →
      ∀ mark, d.marks.head? = some mark → d.network.rcv.writes.length ≤ mark + 250
  | .overtakeAck _ | .duplicateAck _ => False
  | _ => True

end Disordered

/-- The transfer of an input over such a network. -/
def disordered (crc32 : List UInt8 → UInt32) (file : Bool) (input : List (List UInt8)) :
    Transition Disordered Disturbance where
  init d := Network.Starts file input d.network ∧ d.marks = []
  step d disturbance d' := d.step crc32 disturbance = .ok d'

/-! ## In numbers of segments -/

namespace Protocol

def State.disturb (total : Nat) (n : State) : Disturbance → Except Fault State
  | .event event => n.step total event
  | .overtake i => return { n with toRcv := overtake i n.toRcv }
  | .duplicate i => return { n with toRcv := duplicate i n.toRcv }
  | .overtakeAck i => return { n with toSnd := overtake i n.toSnd }
  | .duplicateAck i => return { n with toSnd := duplicate i n.toSnd }

def State.Timely (total : Nat) (n : State) : Disturbance → Prop
  | .event (.sender fdReady sfdReady sendClock replyClock timerClock memory) =>
      n.ReadsInWindow total (.sender fdReady sfdReady sendClock replyClock timerClock memory)
  | .event (.receiver true _ _) => n.rcv.listens = true →
      ∀ item, n.toRcv.head? = some item → n.rcv.done ≤ item.mark + 250
  | .overtakeAck _ | .duplicateAck _ => False
  | _ => True

/-- The transfer of `total` segments. -/
def disturbed (file : Bool) (total : Nat) : Transition State Disturbance where
  init n := n = .start file
  step n disturbance n' := n.disturb total disturbance = .ok n'

theorem Sender.Steady.emits {total : Nat} {fdReady : Bool} {reply : Option (Nat × Nat)}
    {s s' : Sender} {items out : List Item} (steady : s.Steady total)
    (emitted : ∀ x ∈ items, s.Emits x)
    (advertised : ∀ a window, reply = some (a, window) → window = receiverWindow)
    (h : s.pass total fdReady reply = .ok (s', out)) :
    s'.Steady total ∧ ∀ x ∈ items ++ out, s'.Emits x := by
  have none : s.Sends [] := ⟨fun _ member => (List.not_mem_nil member).elim, .nil⟩
  obtain ⟨steady', sends⟩ := steady.pass none advertised h
  refine ⟨steady', fun x member => ?_⟩
  rcases List.mem_append.mp member with old | new
  · have alone : s.Sends [x] :=
      { emitted := fun y same => List.mem_singleton.mp same ▸ emitted x old
        sorted := List.pairwise_singleton _ _ }
    exact (steady.pass alone advertised h).2.emitted x
      (List.mem_append_left _ (List.mem_singleton.mpr rfl))
  · exact sends.emitted x new

/-- All that holds of the two parties in order holds of them here; of what is in flight only that
    it was sent. -/
structure Disorderly (total : Nat) (n : State) : Prop where
  core : Delivering total { n with toRcv := [] }
  emitted : ∀ x ∈ n.toRcv, n.snd.Emits x

namespace Disorderly

variable {total : Nat} {n n' : State}

theorem start (file : Bool) (total : Nat) : Disorderly total (.start file) where
  core := .start file total
  emitted := fun _ member => (List.not_mem_nil member).elim

theorem subset (h : Disorderly total n) {items : List Item} {acks : List Nat}
    (old : ∀ x ∈ items, x ∈ n.toRcv) (fewer : acks.Sublist n.toSnd) :
    Disorderly total { n with toRcv := items, toSnd := acks } where
  core := h.core.sublist (.refl _) fewer
  emitted := fun x member => h.emitted x (old x member)

theorem sender (h : Disorderly total n) {fdReady sfdReady : Bool} {s' : Sender} {out : List Item}
    (passed : n.snd.pass total fdReady
      (if sfdReady then n.toSnd.head?.map (·, receiverWindow) else none) = .ok (s', out))
    (room : fdReady = true → n.snd.wants = true → n.snd.sent ≠ total →
      advance n.snd.acked n.snd.sent < n.snd.window) :
    Disorderly total
      { n with
        snd := s', toRcv := n.toRcv ++ out
        toSnd := if sfdReady && n.snd.listens then n.toSnd.tail else n.toSnd } := by
  have moved := h.core.sender passed room
  exact
    { core := moved.sublist (List.nil_sublist _) (.refl _)
      emitted := (h.core.steady.emits h.emitted (fun _ _ => advertised_by_receiver) passed).2 }

theorem arrival (h : Disorderly total n) {k mark : Nat} (member : Item.seg k mark ∈ n.toRcv)
    (timely : n.rcv.done ≤ mark + 250) :
    ∃ r', (n.rcv.place k).drain = .ok r' ∧ Receiver.Ordered n.snd.sent r' ∧
      Receiver.SameLoop n.rcv r' := by
  obtain ⟨before, close, late⟩ := h.emitted _ member
  have near : n.snd.sent ≤ n.snd.acked + 3 := h.core.near
  have behind : n.snd.acked ≤ n.rcv.done := h.core.acknowledged.behind
  exact Receiver.arrival_ordered h.core.ordered (Nat.lt_of_lt_of_le before late) (by omega) (by omega)

theorem receiver (h : Disorderly total n) {arrives : Bool} {r' : Receiver} {acks : List Nat}
    (passed : n.rcv.pass (if arrives then n.toRcv.head? else none) = .ok (r', acks))
    (timely : arrives = true → n.rcv.listens = true →
      ∀ item, n.toRcv.head? = some item → n.rcv.done ≤ item.mark + 250) :
    Disorderly total
      { n with
        rcv := r'
        toRcv := if arrives && n.rcv.listens then n.toRcv.tail else n.toRcv
        toSnd := n.toSnd ++ acks } := by
  have ordered : Receiver.Ordered n.snd.sent r' := by
    rcases Receiver.pass_cases passed with ⟨listens, k, mark, arrival, drained, -⟩ |
      ⟨-, k, -, rfl, -⟩ | ⟨-, written, slots, -, -⟩
    · cases arrives with
      | false => cases arrival
      | true =>
          obtain ⟨r'', drained', ordered, -⟩ := h.arrival (List.mem_of_mem_head? arrival)
            (timely rfl listens _ arrival)
          rw [drained] at drained'
          cases drained'
          exact ordered
    · exact h.core.ordered.congr rfl rfl
    · exact h.core.ordered.congr written slots
  refine
    { core :=
        { acknowledged := h.core.acknowledged.receiver passed [], steady := h.core.steady
          sends := h.core.sends, near := h.core.near, ordered := ordered
          marks := fun _ member => (List.not_mem_nil member).elim }
      emitted := fun x member => h.emitted x ?_ }
  revert member
  simp only
  split
  · exact List.mem_of_mem_tail
  · exact id

theorem step (h : Disorderly total n) {disturbance : Disturbance}
    (next : n.disturb total disturbance = .ok n') (timely : n.Timely total disturbance) :
    Disorderly total n' := by
  cases disturbance with
  | event event =>
      cases event with
      | sender fdReady sfdReady _ _ _ _ =>
          obtain ⟨⟨s', out⟩, passed, rest⟩ := bind_eq_ok.mp next
          cases rest
          apply h.sender passed
          rintro rfl
          exact timely
      | receiver arrives _ _ =>
          obtain ⟨⟨r', acks⟩, passed, rest⟩ := bind_eq_ok.mp next
          cases rest
          apply h.receiver passed
          rintro rfl
          exact timely
      | loseData i =>
          cases next
          exact h.subset (fun _ member => (List.eraseIdx_sublist _ _).subset member) (.refl _)
      | loseAck i =>
          cases next
          exact h.subset (fun _ => id) (List.eraseIdx_sublist _ _)
  | overtake i =>
      cases next
      exact h.subset (fun _ => mem_overtake) (.refl _)
  | duplicate i =>
      cases next
      exact h.subset (fun _ => mem_duplicate) (.refl _)
  | overtakeAck i | duplicateAck i => exact timely.elim

theorem of_reachable {file : Bool}
    (h : ((disturbed file total).restrict (State.Timely total)).Reachable n) : Disorderly total n :=
  h.induct (fun _ starts => starts ▸ start file total) fun _ _ _ inv next => inv.step next.1 next.2

end Disorderly

theorem Sender.pass_marked {total : Nat} {fdReady : Bool} {reply : Option (Nat × Nat)}
    {s s' : Sender} {out : List Item} (h : s.pass total fdReady reply = .ok (s', out)) :
    ∀ x ∈ out, x.mark = s'.sent := by
  rcases pass_cases h with ⟨-, -, it, it', read, timed, rfl, rfl⟩ | ⟨-, -, -, rfl⟩ |
    ⟨-, rfl, rfl⟩ | ⟨-, -, rfl⟩
  · have before : ∀ x ∈ it.out, x.mark = it.sender.sent := by
      rcases filePart_cases read with ⟨-, rfl⟩ | ⟨-, -, rfl⟩ | ⟨-, -, -, rfl⟩
      · exact fun _ member => by cases member
      · exact fun _ member => by cases member
      · intro x member
        rw [List.mem_singleton.mp member, Item.mark]
    have between : (replyPart reply it).out = it.out := by
      cases reply <;> rfl
    have sent := replyPart_sent reply it
    rcases timerPart_cases timed with rfl | ⟨slot, n, -, rfl⟩
    · rw [between, sent]
      exact before
    · intro x member
      rw [between] at member
      rcases List.mem_append.mp member with old | new
      · exact (before x old).trans sent.symm
      · rw [List.mem_singleton.mp new, Item.mark]
  · exact fun _ member => by cases member
  · intro x member
    rw [List.mem_singleton.mp member, Item.mark]
    split <;> rfl
  · exact fun _ member => by cases member

end Protocol

/-! ## The programs -/

structure Disordered.Shows (crc32 : List UInt8 → UInt32) (input : List (List UInt8))
    (d : Disordered) (a : Protocol.State) : Prop where
  network : d.network.Shows crc32 input a
  marks : d.marks = a.toRcv.map Protocol.Item.mark

section

variable {crc32 : List UInt8 → UInt32} {file : Bool} {input : List (List UInt8)} {d : Disordered}
  {a : Protocol.State}

/-- The marks follow the datagrams. -/
theorem Disordered.Shows.marked (h : d.Shows crc32 input a) {event : Event} {n' : Network}
    {a' : Protocol.State} (next : d.network.step crc32 event = .ok n')
    (next' : a.step input.length event = .ok a') (shown : n'.Shows crc32 input a') :
    Disordered.marked d.network n' d.marks event = a'.toRcv.map Protocol.Item.mark := by
  have lengths := h.network.toRcv.length_eq
  have lengths' := shown.toRcv.length_eq
  cases event with
  | sender fdReady sfdReady _ _ _ _ =>
      obtain ⟨⟨s', out⟩, passed, rest⟩ := bind_eq_ok.mp next'
      cases rest
      have new : out.map Protocol.Item.mark = List.replicate out.length s'.sent := by
        refine List.eq_replicate_iff.mpr ⟨List.length_map _, fun m member => ?_⟩
        obtain ⟨x, inside, rfl⟩ := List.mem_map.mp member
        exact Protocol.Sender.pass_marked passed x inside
      have count : n'.toRcv.length - d.network.toRcv.length = out.length := by
        simp only [List.length_append] at lengths'
        omega
      simp only [Disordered.marked, h.marks, List.map_append, new, count, shown.snd.seqInd]
  | receiver arrives _ _ =>
      obtain ⟨⟨r', acks⟩, passed, rest⟩ := bind_eq_ok.mp next'
      cases rest
      simp only [Disordered.marked, h.marks, h.network.rcvListens]
      split
      · rw [List.map_tail]
      · rfl
  | loseData i =>
      cases next'
      simp only [Disordered.marked, h.marks, List.eraseIdx_map]
  | loseAck i =>
      cases next'
      exact h.marks

theorem Disordered.Shows.step (h : d.Shows crc32 input a) (readable : Readable input)
    (disturbance : Disturbance) :
    Agree (Disordered.Shows crc32 input) (d.step crc32 disturbance)
      (a.disturb input.length disturbance) := by
  cases disturbance with
  | event event =>
      have agree := h.network.step readable event
      simp only [Disordered.step, Protocol.State.disturb]
      cases next : d.network.step crc32 event with
      | error fault =>
          rw [next] at agree
          rw [agree.of_error_left]
          exact .error fault
      | ok n' =>
          obtain ⟨a', next', shown⟩ := agree.of_ok_left next
          rw [next']
          exact .ok ⟨shown, h.marked next next' shown⟩
  | overtake i =>
      exact .ok
        { network := { h.network with toRcv := forall₂_overtake h.network.toRcv i }
          marks := by rw [h.marks, map_overtake] }
  | duplicate i =>
      exact .ok
        { network := { h.network with toRcv := forall₂_duplicate h.network.toRcv i }
          marks := by rw [h.marks, map_duplicate] }
  | overtakeAck i =>
      exact .ok
        { network := { h.network with toSnd := forall₂_overtake h.network.toSnd i }
          marks := h.marks }
  | duplicateAck i =>
      exact .ok
        { network := { h.network with toSnd := forall₂_duplicate h.network.toSnd i }
          marks := h.marks }

theorem follows_disturbed (crc32 : List UInt8 → UInt32) (file : Bool) (readable : Readable input) :
    Transition.Simulates (disordered crc32 file input) (Protocol.disturbed file input.length)
      (Disordered.Shows crc32 input) where
  init := fun _ starts =>
    ⟨.start file, rfl, { network := .start starts.1, marks := starts.2 }⟩
  step := fun _ _ disturbance _ shown next => (shown.step readable disturbance).of_ok_left next

theorem followed_disturbed (crc32 : List UInt8 → UInt32) (file : Bool) (readable : Readable input) :
    Transition.Simulates (Protocol.disturbed file input.length) (disordered crc32 file input)
      (fun a d => d.Shows crc32 input a) where
  init := by
    rintro _ rfl
    obtain ⟨n, starts, shown⟩ := (followed crc32 file readable).init _ rfl
    exact ⟨⟨n, []⟩, ⟨starts, rfl⟩, { network := shown, marks := rfl }⟩
  step := fun _ _ disturbance _ shown next => (shown.step readable disturbance).of_ok_right next

theorem Disordered.Shows.timely (h : d.Shows crc32 input a) {disturbance : Disturbance} :
    d.Timely disturbance ↔ a.Timely input.length disturbance := by
  cases disturbance with
  | event event =>
      cases event with
      | sender => exact h.network.readsInWindow
      | receiver arrives clock stack =>
          cases arrives with
          | false => exact .rfl
          | true =>
              have written : d.network.rcv.writes.length = a.rcv.done := by
                rw [h.network.rcv.writes, List.length_map]
                rfl
              simp only [Disordered.Timely, Protocol.State.Timely, h.network.rcvListens, h.marks,
                written, List.head?_map, Option.map_eq_some_iff, forall_exists_index, and_imp,
                forall_apply_eq_imp_iff₂]
      | loseData => exact .rfl
      | loseAck => exact .rfl
  | overtake | duplicate | overtakeAck | duplicateAck => exact .rfl

/-- Whatever datagrams to the receiver are lost, duplicated or overtaken, and whatever ACKs are
    lost, the output is a prefix of the input. -/
theorem disordered_prefix (readable : Readable input)
    (reach : ((disordered crc32 file input).restrict Disordered.Timely).Reachable d) :
    d.network.output <+: input.flatten := by
  obtain ⟨a, reach', shown⟩ := ((follows_disturbed crc32 file readable).restrict Disordered.Timely
    (Protocol.State.Timely input.length) fun _ _ _ shown => shown.timely.mp).reachable reach
  have inv := Protocol.Disorderly.of_reachable reach'
  have inside : a.rcv.done ≤ input.length := inv.core.ordered.below.trans inv.core.steady.sent
  rw [shown.network.output inv.core.ordered.written inside]
  exact (input.take_prefix _).flatten

theorem three_disordered : ∃ d : Disordered,
    ((disordered Crc.crc32 false [[7], [8], [9]]).restrict Disordered.Timely).Reachable d ∧
      d.network.rcv.writes = [[7], [8], [9]] := by
  have readable : Readable [[7], [8], [9]] := by decide
  have begins : ((Protocol.disturbed false 3).restrict (Protocol.State.Timely 3)).Reachable
      (.start false) := .of_init rfl
  have first := begins.step (a := Disturbance.event .reads) ⟨rfl, fun _ _ => by decide⟩
  have written := first.step (a := Disturbance.event .receives)
    ⟨rfl, fun _ item here => by cases here; decide⟩
  have acknowledged := written.step (a := Disturbance.event .answers) ⟨rfl, trivial⟩
  have second := acknowledged.step (a := Disturbance.event .reads) ⟨rfl, fun _ _ => by decide⟩
  have third := second.step (a := Disturbance.event .reads) ⟨rfl, fun _ _ => by decide⟩
  have overtaken := third.step (a := Disturbance.overtake 1) ⟨rfl, trivial⟩
  have doubled := overtaken.step (a := Disturbance.duplicate 0) ⟨rfl, trivial⟩
  have ahead := doubled.step (a := Disturbance.event .receives)
    ⟨rfl, fun _ item here => by cases here; decide⟩
  have again := ahead.step (a := Disturbance.event .receives)
    ⟨rfl, fun _ item here => by cases here; decide⟩
  have last := again.step (a := Disturbance.event .receives)
    ⟨rfl, fun _ item here => by cases here; decide⟩
  obtain ⟨d, reach, shown⟩ := ((followed_disturbed Crc.crc32 false readable).restrict
    (Protocol.State.Timely 3) Disordered.Timely fun _ _ _ shown => shown.timely.mpr).reachable last
  exact ⟨d, reach, shown.network.rcv.writes⟩

theorem disordered_prefix_sample : ∃ d : Disordered, d.network.output = [7, 8, 9] ∧
    d.network.output <+: [[7], [8], [9]].flatten := by
  obtain ⟨d, reach, writes⟩ := three_disordered
  exact ⟨d, by rw [Network.output, writes]; rfl, disordered_prefix (by decide) reach⟩

end

end SegmentTransfer
