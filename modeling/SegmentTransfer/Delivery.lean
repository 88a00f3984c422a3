import Mathlib.Data.List.Infix
import SegmentTransfer.Overrun
import SegmentTransfer.Window

/-! # What a run delivers when the sender's window is respected

The test `isNotFull` subtracts two bytes as integers, so it can let the sender
read a segment when three are outstanding already. In the runs where it does
not, every segment in flight is near the one the receiver expects, and the
output is the beginning of the input. If moreover the receiver takes the end
packet only when it expects its number, nothing is missing at the end.
-/

namespace SegmentTransfer

open Outcome

/-- How far `seq_exp` is ahead of `small_seq`, modulo 256. -/
def Sender.outstanding (s : Sender) : Nat := (s.seqExp + 256 - s.smallSeq) % 256

/-- A chunk is only read when fewer than `window` segments are outstanding. -/
def Network.ReadsInWindow (n : Network) : Event → Prop
  | .sender true _ _ _ _ _ => n.snd.wants = true → n.input ≠ [] → n.snd.outstanding < n.snd.window
  | _ => True

/-- A packet without payload is only taken when it has the number expected. -/
def Network.EndsExpected (crc32 : List UInt8 → UInt32) (n : Network) : Event → Prop
  | .receiver true _ _ => n.rcv.listens = true → ∀ d q, n.toRcv.head? = some d →
      pktDecode crc32 (n.rcv.packetEncoded.fill d) d.length n.rcv.pktRcv = .ok (.pktOk, q) →
      pktGetLength q = 0 → (pktGetSeqnum q).toNat = n.rcv.seqExp
  | _ => True

namespace Protocol

def State.ReadsInWindow (total : Nat) (n : State) : Event → Prop
  | .sender true _ _ _ _ _ => n.snd.wants = true → n.snd.sent ≠ total →
      advance n.snd.acked n.snd.sent < n.snd.window
  | _ => True

def State.EndsExpected (n : State) : Event → Prop
  | .receiver true _ _ => n.rcv.listens = true → ∀ k, n.toRcv.head? = some (.fin k) →
      k % 256 = n.rcv.done % 256
  | _ => True

/-- Three segments at most are outstanding, and the receiver has them in order. -/
structure Delivering (total : Nat) (n : State) : Prop where
  acknowledged : Acknowledged n
  steady : n.snd.Steady total
  sends : n.snd.Sends n.toRcv
  near : n.snd.sent ≤ n.snd.acked + 3
  ordered : Receiver.Ordered n.snd.sent n.rcv
  marks : ∀ x ∈ n.toRcv, Receiver.Gathered x.mark n.rcv

namespace Delivering

variable {total : Nat} {n n' : State}

theorem start (file : Bool) (total : Nat) : Delivering total (.start file) where
  acknowledged := .start file
  steady := .start file total
  sends := { emitted := fun _ member => (List.not_mem_nil member).elim, sorted := .nil }
  near := Nat.zero_le _
  ordered := Receiver.start_ordered
  marks := fun _ member => (List.not_mem_nil member).elim

theorem near_sender (h : Delivering total n) {fdReady : Bool} {reply : Option (Nat × Nat)}
    {s' : Sender} {out : List Item} (passed : n.snd.pass total fdReady reply = .ok (s', out))
    (room : fdReady = true → n.snd.wants = true → n.snd.sent ≠ total →
      advance n.snd.acked n.snd.sent < n.snd.window) :
    n.snd.sent ≤ s'.sent ∧ s'.sent ≤ s'.acked + 3 := by
  have sent := Sender.pass_sent passed
  have more : n.snd.acked ≤ s'.acked := by
    rcases Sender.pass_acked passed with ⟨acked, -⟩ | ⟨-, a, window, -, acked, -⟩ <;> omega
  have near := h.near
  have behind := h.acknowledged.behind
  have below := h.ordered.below
  split at sent
  · rename_i reads
    obtain ⟨ready, unfinished⟩ := reads
    obtain ⟨fdReady, wants⟩ := Bool.and_eq_true_iff.mp ready
    have free := room fdReady wants unfinished
    have narrow : n.snd.window ≤ 3 := by
      rcases h.steady.window with ⟨window, -⟩ | window <;> omega
    simp only [advance] at free
    omega
  · omega

theorem sender (h : Delivering total n) {fdReady sfdReady : Bool} {s' : Sender} {out : List Item}
    (passed : n.snd.pass total fdReady
      (if sfdReady then n.toSnd.head?.map (·, receiverWindow) else none) = .ok (s', out))
    (room : fdReady = true → n.snd.wants = true → n.snd.sent ≠ total →
      advance n.snd.acked n.snd.sent < n.snd.window) :
    Delivering total
      { n with
        snd := s', toRcv := n.toRcv ++ out
        toSnd := if sfdReady && n.snd.listens then n.toSnd.tail else n.toSnd } := by
  obtain ⟨more, near⟩ := h.near_sender passed room
  obtain ⟨steady, sends⟩ := h.steady.pass h.sends (fun _ _ => advertised_by_receiver) passed
  refine
    { acknowledged := h.acknowledged.sender passed, steady := steady, sends := sends, near := near
      ordered := { toGathered := h.ordered.mono more, missing := h.ordered.missing }
      marks := ?_ }
  intro x member
  rcases List.mem_append.mp member with old | new
  · exact h.marks x old
  · exact h.ordered.mono (Sender.pass_marks passed x new)

theorem arrival (h : Delivering total n) {k mark : Nat} {rest : List Item}
    (toRcv : n.toRcv = .seg k mark :: rest) {r' : Receiver} (drained : (n.rcv.place k).drain = .ok r') :
    Receiver.Ordered mark r' ∧ Receiver.SameLoop n.rcv r' := by
  have member : Item.seg k mark ∈ n.toRcv := toRcv ▸ List.mem_cons_self
  obtain ⟨before, close, late⟩ := h.sends.emitted _ member
  have gathered := h.marks _ member
  have := gathered.below
  have := h.near
  have := h.acknowledged.behind
  simp only [Item.mark] at *
  obtain ⟨r'', drained', ordered, same⟩ :=
    Receiver.arrival_ordered { toGathered := gathered, missing := h.ordered.missing } before
      (by omega) (by omega)
  rw [drained] at drained'
  cases drained'
  exact ⟨ordered, same⟩

/-- The receiver's pass, whatever is left of the datagrams in flight. -/
theorem receiver (h : Delivering total n) {arrives : Bool} {r' : Receiver} {acks : List Nat}
    (passed : n.rcv.pass (if arrives then n.toRcv.head? else none) = .ok (r', acks)) :
    Delivering total
      { n with
        rcv := r'
        toRcv := if arrives && n.rcv.listens then n.toRcv.tail else n.toRcv
        toSnd := n.toSnd ++ acks } := by
  have acknowledged := h.acknowledged.receiver passed
    (if arrives && n.rcv.listens then n.toRcv.tail else n.toRcv)
  have fewer : (if arrives && n.rcv.listens then n.toRcv.tail else n.toRcv).Sublist n.toRcv := by
    split
    · exact List.tail_sublist _
    · exact .refl _
  -- unless a segment is taken, the receiver holds and has written what it had
  have quiet : r'.written = n.rcv.written → r'.slots = n.rcv.slots →
      Delivering total
        { n with
          rcv := r'
          toRcv := if arrives && n.rcv.listens then n.toRcv.tail else n.toRcv
          toSnd := n.toSnd ++ acks } := by
    intro written slots
    exact
      { acknowledged := acknowledged, steady := h.steady, sends := h.sends.sublist fewer
        near := h.near, ordered := h.ordered.congr written slots
        marks := fun x member => (h.marks x (fewer.subset member)).congr written slots }
  rcases Receiver.pass_cases passed with ⟨listens, k, mark, arrival, drained, rfl⟩ |
    ⟨-, k, -, rfl, -⟩ | ⟨-, written, slots, -, -⟩
  · cases arrives with
    | false => cases arrival
    | true =>
        simp only [listens, Bool.and_self, if_true] at *
        cases toRcv : n.toRcv with
        | nil =>
            rw [toRcv] at arrival
            cases arrival
        | cons first rest =>
            rw [toRcv] at arrival
            cases arrival
            obtain ⟨ordered, -⟩ := h.arrival toRcv drained
            have sorted := h.sends.sorted
            have sends := h.sends.sublist fewer
            have emits := h.sends.emitted (.seg k mark) (toRcv ▸ List.mem_cons_self)
            rw [toRcv] at sorted sends acknowledged
            exact
              { acknowledged := acknowledged, steady := h.steady, sends := sends, near := h.near
                ordered := { toGathered := ordered.mono emits.2.2, missing := ordered.missing }
                marks := fun x member =>
                  ordered.mono (List.rel_of_pairwise_cons sorted member) }
  · exact quiet rfl rfl
  · exact quiet written slots

theorem sublist (h : Delivering total n) {items : List Item} {acks : List Nat}
    (fewerItems : items.Sublist n.toRcv) (fewerAcks : acks.Sublist n.toSnd) :
    Delivering total { n with toRcv := items, toSnd := acks } where
  acknowledged := h.acknowledged.sublist fewerAcks items
  steady := h.steady
  sends := h.sends.sublist fewerItems
  near := h.near
  ordered := h.ordered
  marks := fun x member => h.marks x (fewerItems.subset member)

theorem step (h : Delivering total n) {event : Event} (next : n.step total event = .ok n')
    (room : n.ReadsInWindow total event) : Delivering total n' := by
  cases event with
  | sender fdReady sfdReady _ _ _ _ =>
      obtain ⟨⟨s', out⟩, passed, rest⟩ := bind_eq_ok.mp next
      cases rest
      apply h.sender passed
      rintro rfl
      exact room
  | receiver arrives _ _ =>
      obtain ⟨⟨r', acks⟩, passed, rest⟩ := bind_eq_ok.mp next
      cases rest
      exact h.receiver passed
  | loseData i =>
      cases next
      exact h.sublist (List.eraseIdx_sublist _ _) (.refl _)
  | loseAck i =>
      cases next
      exact h.sublist (.refl _) (List.eraseIdx_sublist _ _)

theorem of_reachable {file : Bool}
    (h : ((system file total).restrict (State.ReadsInWindow total)).Reachable n) :
    Delivering total n :=
  h.induct (fun _ starts => starts ▸ start file total) fun _ _ _ inv next => inv.step next.1 next.2

end Delivering

/-- At the end of the transfer every segment was written. -/
structure Delivered (total : Nat) (n : State) : Prop where
  delivering : Delivering total n
  complete : n.rcv.endFile = true → n.rcv.done = total

namespace Delivered

variable {total : Nat} {n n' : State}

theorem ending (h : Delivering total n) {k : Nat} {rest : List Item}
    (toRcv : n.toRcv = .fin k :: rest) (expected : k % 256 = n.rcv.done % 256) :
    n.rcv.done = total := by
  have member : Item.fin k ∈ n.toRcv := toRcv ▸ List.mem_cons_self
  obtain ⟨last, left⟩ := h.sends.emitted _ member
  have sent := h.steady.ended (h.steady.left left)
  have := h.ordered.below
  have := h.near
  have := h.acknowledged.behind
  omega

theorem step (h : Delivered total n) {event : Event} (next : n.step total event = .ok n')
    (room : n.ReadsInWindow total event) (expected : n.EndsExpected event) : Delivered total n' := by
  refine ⟨h.delivering.step next room, ?_⟩
  cases event with
  | sender fdReady sfdReady _ _ _ _ =>
      obtain ⟨⟨s', out⟩, passed, rest⟩ := bind_eq_ok.mp next
      cases rest
      exact h.complete
  | receiver arrives _ _ =>
      obtain ⟨⟨r', acks⟩, passed, rest⟩ := bind_eq_ok.mp next
      cases rest
      intro ended
      rcases Receiver.pass_cases passed with ⟨listens, k, mark, arrival, drained, -⟩ |
        ⟨listens, k, arrival, rfl, -⟩ | ⟨-, written, -, same, -⟩
      · cases arrives with
        | false => cases arrival
        | true =>
            obtain ⟨rest, toRcv⟩ := List.head?_eq_some_iff.mp arrival
            obtain ⟨-, same⟩ := h.delivering.arrival toRcv drained
            have open_ : n.rcv.endFile = false := by
              simp only [Receiver.listens, Bool.and_eq_true, Bool.not_eq_true'] at listens
              exact listens.2
            rw [same.1, open_] at ended
            cases ended
      · cases arrives with
        | false => cases arrival
        | true =>
            obtain ⟨rest, toRcv⟩ := List.head?_eq_some_iff.mp arrival
            have whole : n.rcv.done = total :=
              ending h.delivering toRcv (expected listens k arrival)
            exact whole
      · rw [same] at ended
        exact (congrArg List.length written).trans (h.complete ended)
  | loseData i =>
      cases next
      exact h.complete
  | loseAck i =>
      cases next
      exact h.complete

theorem of_reachable {file : Bool}
    (h : ((system file total).restrict fun n event =>
      n.ReadsInWindow total event ∧ n.EndsExpected event).Reachable n) : Delivered total n := by
  apply h.induct
  · rintro _ rfl
    exact ⟨.start file total, fun ended => by cases ended⟩
  · rintro _ _ _ inv ⟨next, room, expected⟩
    exact inv.step next room expected

end Delivered

end Protocol

/-! ## Runs of the protocol -/

namespace Protocol.State

/-- Of three segments the first two are lost and sent again, the second of them when the third has
    arrived; the last ACK arrives before the end packet is sent. -/
theorem three_segments : ∃ held n, ((system true 3).restrict fun n event =>
      n.ReadsInWindow 3 event ∧ n.EndsExpected event).Reachable held ∧
    ((system true 3).restrict fun n event =>
      n.ReadsInWindow 3 event ∧ n.EndsExpected event).Reachable n ∧
    held.rcv.written = [0] ∧ held.rcv.slots 2 = some 2 ∧ n.rcv.endFile = true := by
  have begins : ((system true 3).restrict fun n event =>
    n.ReadsInWindow 3 event ∧ n.EndsExpected event).Reachable (.start true) := .of_init rfl
  have read := begins.step (a := Event.reads) ⟨rfl, fun _ _ => by decide, trivial⟩
  have lost := read.step (a := Event.loseData 0) ⟨rfl, trivial, trivial⟩
  have again := lost.step (a := Event.waits) ⟨rfl, trivial, trivial⟩
  have first := again.step (a := Event.receives) ⟨rfl, trivial, fun _ k fin => by cases fin⟩
  have widened := first.step (a := Event.answers) ⟨rfl, trivial, trivial⟩
  have second := widened.step (a := Event.reads) ⟨rfl, fun _ _ => by decide, trivial⟩
  have third := second.step (a := Event.reads) ⟨rfl, fun _ _ => by decide, trivial⟩
  have gap := third.step (a := Event.loseData 0) ⟨rfl, trivial, trivial⟩
  have held := gap.step (a := Event.receives) ⟨rfl, trivial, fun _ k fin => by cases fin⟩
  have repeated := held.step (a := Event.answers) ⟨rfl, trivial, trivial⟩
  have resent := repeated.step (a := Event.waits) ⟨rfl, trivial, trivial⟩
  have filled := resent.step (a := Event.receives) ⟨rfl, trivial, fun _ k fin => by cases fin⟩
  have released := filled.step (a := Event.answers) ⟨rfl, trivial, trivial⟩
  have ended := released.step (a := Event.reads) ⟨rfl, fun _ more => (more rfl).elim, trivial⟩
  have stale := ended.step (a := Event.loseData 0) ⟨rfl, trivial, trivial⟩
  have left := stale.step (a := Event.waits) ⟨rfl, trivial, trivial⟩
  have sent := left.step (a := Event.waits) ⟨rfl, trivial, trivial⟩
  have last := sent.step (a := Event.receives) ⟨rfl, trivial, fun _ k fin => by cases fin; rfl⟩
  exact ⟨_, _, held, last, rfl, rfl, rfl⟩

theorem cut_short :
    ∃ n, (system false 2).Reachable n ∧ n.rcv.endFile = true ∧ n.rcv.written = [0] := by
  have run : ∃ n, State.after 2 (.start false)
      [.reads, .receives, .answers, .reads, .loseData 0, .reads, .waits, .waits, .receives] = .ok n ∧
      n.rcv.endFile = true ∧ n.rcv.written = [0] := ⟨_, rfl, rfl, rfl⟩
  obtain ⟨n, passed, ended, written⟩ := run
  exact ⟨n, reachable_after passed (.of_init rfl), ended, written⟩

end Protocol.State

/-! ## The programs -/

theorem map_chunkOf {input : List (List UInt8)} {k : Nat} (h : k ≤ input.length) :
    (List.range k).map (chunkOf input) = input.take k := by
  apply List.ext_getElem
  · simp only [List.length_map, List.length_range, List.length_take]
    omega
  · intro i inside _
    simp only [List.length_map, List.length_range] at inside
    simp only [List.getElem_map, List.getElem_range, List.getElem_take]
    exact chunkOf_inside (by omega)

section

variable {crc32 : List UInt8 → UInt32} {file : Bool} {input : List (List UInt8)} {n : Network}
  {a : Protocol.State}

theorem Network.Shows.output (h : n.Shows crc32 input a)
    (written : a.rcv.written = List.range a.rcv.done) (inside : a.rcv.done ≤ input.length) :
    n.output = (input.take a.rcv.done).flatten := by
  rw [Network.output, h.rcv.writes, written, map_chunkOf inside]

theorem Network.Shows.readsInWindow (h : n.Shows crc32 input a) {event : Event} :
    n.ReadsInWindow event ↔ a.ReadsInWindow input.length event := by
  cases event with
  | sender fdReady _ _ _ _ _ =>
      cases fdReady with
      | false => exact .rfl
      | true =>
          have unread : n.input ≠ [] ↔ a.snd.sent ≠ input.length := by
            rw [h.unread, ne_eq, List.drop_eq_nil_iff]
            have := h.sent
            omega
          simp only [Network.ReadsInWindow, Protocol.State.ReadsInWindow, h.wants, unread,
            Sender.outstanding, h.snd.seqExp, h.snd.smallSeq, h.snd.window, Protocol.advance]
  | receiver arrives clock stack => exact .rfl
  | loseData i => exact .rfl
  | loseAck i => exact .rfl

theorem ShowsItem.decode {d : List UInt8} {item : Protocol.Item} {chunk : Nat → List UInt8}
    (h : ShowsItem crc32 chunk d item) (buf : Bytes.Buf 528) (dst : Pkt) :
    ∃ q, pktDecode crc32 (buf.fill d) d.length dst = .ok (.pktOk, q) ∧
      ∀ k, (pktGetLength q = 0 → (pktGetSeqnum q).toNat = k % 256) ↔
        ∀ m, item = .fin m → m % 256 = k % 256 := by
  cases item with
  | seg m mark =>
      obtain ⟨nonempty, small, window, framed⟩ := h
      obtain ⟨-, -, q, decoded, -, -, -, -, length, -⟩ := framed.decode small buf dst
      refine ⟨q, decoded, fun k => ⟨fun _ _ fin => (by cases fin), fun _ zero => ?_⟩⟩
      rw [zero] at length
      exact (nonempty (List.length_eq_zero_iff.mp length.symm)).elim
  | fin m =>
      obtain ⟨window, framed⟩ := h
      obtain ⟨-, -, q, decoded, -, -, -, seqnum, length, -⟩ :=
        framed.decode (Nat.zero_le _) buf dst
      have zero : pktGetLength q = 0 := UInt16.toNat_inj.mp length
      have number : (pktGetSeqnum q).toNat = m % 256 := by
        rw [seqnum]
        exact UInt8.toNat_ofNat' ..
      refine ⟨q, decoded, fun k => ⟨fun same j fin => ?_, fun same _ => ?_⟩⟩
      · cases fin
        rw [← number, same zero]
      · rw [number, same m rfl]

theorem Network.Shows.endsExpected (h : n.Shows crc32 input a) {event : Event} :
    n.EndsExpected crc32 event ↔ a.EndsExpected event := by
  cases event with
  | sender _ _ _ _ _ _ => exact .rfl
  | receiver arrives clock stack =>
      cases arrives with
      | false => exact .rfl
      | true =>
          simp only [Network.EndsExpected, Protocol.State.EndsExpected, h.rcvListens, h.rcv.seqExp]
          have toRcv := h.toRcv
          revert toRcv
          generalize n.toRcv = ds, a.toRcv = items
          intro toRcv
          cases toRcv with
          | nil => simp only [List.head?_nil, reduceCtorEq, false_implies, implies_true]
          | @cons d item _ _ first _ =>
              obtain ⟨q, decoded, meaning⟩ := first.decode n.rcv.packetEncoded n.rcv.pktRcv
              simp only [List.head?_cons, Option.some.injEq]
              refine imp_congr_right fun _ => ⟨fun same k fin => ?_, fun same d' q' eq decoded' => ?_⟩
              · exact (meaning a.rcv.done).mp (same d q rfl decoded) k fin
              · cases eq
                rw [decoded] at decoded'
                cases decoded'
                exact (meaning a.rcv.done).mpr same
  | loseData i => exact .rfl
  | loseAck i => exact .rfl

/-- As long as chunks are only read when fewer than `window` segments are outstanding, and
    whatever is lost, the output is a prefix of the input. -/
theorem output_prefix (readable : Readable input)
    (reach : ((network crc32 file input).restrict Network.ReadsInWindow).Reachable n) :
    n.output <+: input.flatten := by
  obtain ⟨a, reach', shown⟩ := ((follows crc32 file readable).restrict Network.ReadsInWindow
    (Protocol.State.ReadsInWindow input.length)
    fun _ _ _ shown => shown.readsInWindow.mp).reachable reach
  have inv := Protocol.Delivering.of_reachable reach'
  have inside : a.rcv.done ≤ input.length := inv.ordered.below.trans inv.steady.sent
  rw [shown.output inv.ordered.written inside]
  exact (input.take_prefix _).flatten

/-- Of three segments the second is lost, and the third waits for it in its slot. -/
theorem output_prefix_sample : ∃ n : Network, n.rcv.writes = [[0]] ∧
    n.rcv.slots.payload 2 = .block [3] ∧ n.output <+: [[0], [1, 2], [3]].flatten := by
  have readable : Readable [[0], [1, 2], [3]] := by decide
  obtain ⟨a, -, reach, -, written, held, -⟩ := Protocol.State.three_segments
  obtain ⟨n, reach', shown⟩ := ((followed Crc.crc32 true readable).restrict
    (Protocol.State.ReadsInWindow 3) Network.ReadsInWindow
    fun _ _ _ shown => shown.readsInWindow.mpr).reachable (reach.weaken fun _ _ both => both.1)
  have one : n.rcv.writes = [[0]] := by
    rw [shown.rcv.writes, written]
    rfl
  have slot := shown.rcv.slots 2 (by decide)
  rw [held] at slot
  have waits : n.rcv.slots.payload 2 = .block [3] := slot.2
  exact ⟨n, one, waits, output_prefix readable reach'⟩

/-- 510 reads of one byte: 0 from each of the first 256, then 1. -/
def overtakenInput : List (List UInt8) := (List.range 510).map fun n => [UInt8.ofNat (n / 256)]

/-- Byte 253 of the output is 1, and byte 253 of the input is 0. -/
theorem output_overtaken :
    ¬ ∀ (file : Bool) (input : List (List UInt8)) (n : Network), Readable input →
      (network Crc.crc32 file input).Reachable n → n.output <+: input.flatten := by
  intro safe
  have readable : Readable overtakenInput := by
    intro chunk member
    obtain ⟨n, -, rfl⟩ := List.mem_map.mp member
    exact singleton_payload _
  have length : overtakenInput.length = 510 := by
    rw [overtakenInput, List.length_map, List.length_range]
  obtain ⟨a, reach, written⟩ := Protocol.State.overtaken (Nat.le_of_eq length.symm)
  obtain ⟨n, reach', shown⟩ := (followed Crc.crc32 false readable).reachable reach
  obtain ⟨rest, whole⟩ := safe false overtakenInput n readable reach'
  have chunk : chunkOf overtakenInput 509 = [1] := by
    rw [chunkOf_inside (by omega)]
    simp only [overtakenInput, List.getElem_map, List.getElem_range]
    rfl
  have zeros : ∀ k ≤ 256, (overtakenInput.take k).flatten = List.replicate k 0 := by
    intro k small
    induction k with
    | zero => rfl
    | succ k ih =>
        rw [List.take_succ_eq_append_getElem (by omega), List.flatten_append, ih (by omega),
          List.replicate_succ']
        have : UInt8.ofNat (k / 256) = 0 := by rw [Nat.div_eq_of_lt (by omega)]; rfl
        simp only [overtakenInput, List.getElem_map, List.getElem_range, this, List.flatten_singleton]
  have output : n.output = List.replicate 253 0 ++ [1] := by
    rw [Network.output, shown.rcv.writes, written, List.map_append, List.flatten_append,
      map_chunkOf (by omega), zeros 253 (by decide)]
    simp only [List.map_cons, List.map_nil, chunk, List.flatten_singleton]
  have input : overtakenInput.flatten =
      (List.replicate 253 0 ++ [0]) ++ (overtakenInput.drop 254).flatten := by
    rw [← List.replicate_succ', ← zeros 254 (by decide), ← List.flatten_append,
      List.take_append_drop]
  rw [output, input, List.append_assoc, List.append_assoc, List.append_right_inj,
    List.singleton_append, List.singleton_append, List.cons.injEq] at whole
  exact absurd whole.1 (by decide)

/-- If moreover the receiver takes the end packet only when it has the number expected,
    the output is the whole input when the receiver leaves its loop. -/
theorem output_complete (readable : Readable input)
    (reach : ((network crc32 file input).restrict fun n event =>
      n.ReadsInWindow event ∧ n.EndsExpected crc32 event).Reachable n)
    (ended : n.rcv.endFile = true) : n.output = input.flatten := by
  obtain ⟨a, reach', shown⟩ := ((follows crc32 file readable).restrict
    (fun n event => n.ReadsInWindow event ∧ n.EndsExpected crc32 event)
    (fun a event => a.ReadsInWindow input.length event ∧ a.EndsExpected event)
    fun _ _ _ shown both =>
      ⟨shown.readsInWindow.mp both.1, shown.endsExpected.mp both.2⟩).reachable reach
  have inv := Protocol.Delivered.of_reachable reach'
  have done := inv.complete (shown.rcv.endFile ▸ ended)
  rw [shown.output inv.delivering.ordered.written (Nat.le_of_eq done), done, List.take_length]

/-- The same transfer delivers all three. -/
theorem output_complete_sample :
    ∃ n : Network, n.rcv.endFile = true ∧ n.output = [[0], [1, 2], [3]].flatten := by
  have readable : Readable [[0], [1, 2], [3]] := by decide
  obtain ⟨-, a, -, reach, -, -, ended⟩ := Protocol.State.three_segments
  obtain ⟨n, reach', shown⟩ := ((followed Crc.crc32 true readable).restrict
    (fun a event => a.ReadsInWindow 3 event ∧ a.EndsExpected event)
    (fun n event => n.ReadsInWindow event ∧ n.EndsExpected Crc.crc32 event)
    fun _ _ _ shown both =>
      ⟨shown.readsInWindow.mpr both.1, shown.endsExpected.mpr both.2⟩).reachable reach
  have ended' : n.rcv.endFile = true := shown.rcv.endFile.trans ended
  exact ⟨n, ended', output_complete readable reach' ended'⟩

/-- The second of two bytes is missing from the output. -/
theorem output_cut_short :
    ¬ ∀ (file : Bool) (input : List (List UInt8)) (n : Network), Readable input →
      (network Crc.crc32 file input).Reachable n → n.rcv.endFile = true →
      n.output = input.flatten := by
  intro complete
  have readable : Readable [[0], [1]] := by decide
  obtain ⟨a, reach, ended, written⟩ := Protocol.State.cut_short
  obtain ⟨n, reach', shown⟩ := (followed Crc.crc32 false readable).reachable reach
  have whole := complete false [[0], [1]] n readable reach' (shown.rcv.endFile.trans ended)
  rw [Network.output, shown.rcv.writes, written] at whole
  exact absurd whole (by decide)

end

end SegmentTransfer
