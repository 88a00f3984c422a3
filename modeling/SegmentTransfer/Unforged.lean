import SegmentTransfer.Disorder
import SegmentTransfer.WrittenAsHeard

/-! # A network that forges nothing

Datagrams may be lost, delayed, duplicated and overtaken without any bound, those
to the receiver and its replies. Each place of the output still has a chunk that was sent, with a
number that is right modulo 256. A transfer of at most 255 chunks has no two
such chunks for one place, so its output is never wrong.
-/

namespace SegmentTransfer

open Outcome

namespace Protocol

theorem Receiver.Each.arrival {Q : Nat → Nat → Prop} {a a' : Receiver} {m : Nat}
    (each : Receiver.Each Q a) (new : ∀ k, Suits m a.done k → Q k m)
    (drained : (a.place m).drain = .ok a') : Receiver.Each Q a' := by
  have placed := each.place (fun _ _ old _ => old) new
  exact (whileLoop_invariant (fun _ _ each _ next => Receiver.Each.writeSlot each next) placed
    drained).1

/-- What is in flight was sent, and what is written or held was, with the number of its place. -/
structure Unforged (total : Nat) (n : State) : Prop where
  steady : n.snd.Steady total
  emitted : ∀ x ∈ n.toRcv, n.snd.Emits x
  placed : Receiver.Each (fun k m => m % 256 = k % 256 ∧ m < n.snd.sent) n.rcv

namespace Unforged

variable {total : Nat} {n n' : State}

theorem start (file : Bool) (total : Nat) : Unforged total (.start file) where
  steady := .start file total
  emitted := fun _ member => (List.not_mem_nil member).elim
  placed := .start _

theorem subset (h : Unforged total n) {items : List Item} {acks : List Nat}
    (old : ∀ x ∈ items, x ∈ n.toRcv) : Unforged total { n with toRcv := items, toSnd := acks } where
  steady := h.steady
  emitted := fun x member => h.emitted x (old x member)
  placed := h.placed

theorem receiver (h : Unforged total n) {arrives : Bool} {r' : Receiver} {acks : List Nat}
    (passed : n.rcv.pass (if arrives then n.toRcv.head? else none) = .ok (r', acks)) :
    Receiver.Each (fun k m => m % 256 = k % 256 ∧ m < n.snd.sent) r' := by
  rcases Receiver.pass_cases passed with ⟨-, m, mark, arrival, drained, -⟩ | ⟨-, k, -, rfl, -⟩ |
    ⟨-, written, slots, -, -⟩
  · cases arrives with
    | false => cases arrival
    | true =>
        obtain ⟨before, -, late⟩ := h.emitted _ (List.mem_of_mem_head? arrival)
        exact h.placed.arrival (fun k suits => ⟨suits.number, Nat.lt_of_lt_of_le before late⟩) drained
  · exact h.placed.congr rfl rfl
  · exact h.placed.congr written slots

theorem step (h : Unforged total n) {disturbance : Disturbance}
    (next : n.disturb total disturbance = .ok n') : Unforged total n' := by
  cases disturbance with
  | event event =>
      cases event with
      | sender fdReady sfdReady _ _ _ _ =>
          obtain ⟨⟨s', out⟩, passed, rest⟩ := bind_eq_ok.mp next
          cases rest
          obtain ⟨steady, emitted⟩ :=
            h.steady.emits h.emitted (fun _ _ => advertised_by_receiver) passed
          have more : n.snd.sent ≤ s'.sent := by
            have sent := Sender.pass_sent passed
            split at sent <;> omega
          exact
            { steady := steady, emitted := emitted
              placed :=
                { written := fun k m there =>
                    (h.placed.written k m there).imp_right (Nat.lt_of_lt_of_le · more)
                  held := fun k m low high there =>
                    (h.placed.held k m low high there).imp_right (Nat.lt_of_lt_of_le · more) } }
      | receiver arrives _ _ =>
          obtain ⟨⟨r', acks⟩, passed, rest⟩ := bind_eq_ok.mp next
          cases rest
          refine { steady := h.steady, emitted := fun x member => h.emitted x ?_,
                   placed := h.receiver passed }
          revert member
          simp only
          split
          · exact List.mem_of_mem_tail
          · exact id
      | loseData i =>
          cases next
          exact h.subset fun _ member => (List.eraseIdx_sublist _ _).subset member
      | loseAck i =>
          cases next
          exact h.subset fun _ => id
  | overtake i =>
      cases next
      exact h.subset fun _ => mem_overtake
  | duplicate i =>
      cases next
      exact h.subset fun _ => mem_duplicate
  | overtakeAck i | duplicateAck i =>
      cases next
      exact h.subset fun _ => id

theorem of_reachable {file : Bool} (h : (disturbed file total).Reachable n) : Unforged total n :=
  h.induct (fun _ starts => starts ▸ start file total) fun _ _ _ inv next => inv.step next

theorem in_order (h : Unforged total n) (short : total ≤ 255) :
    n.rcv.written = List.range n.rcv.done ∧ n.rcv.done ≤ total := by
  have sent := h.steady.sent
  have exact_ : ∀ k m, k ≤ total → n.rcv.written[k]? = some m → m = k ∧ m < total := by
    intro k m low there
    obtain ⟨number, before⟩ := h.placed.written k m there
    omega
  have below : n.rcv.done ≤ total := by
    by_contra beyond
    have inside : total < n.rcv.written.length := Nat.not_le.mp beyond
    have last := exact_ total _ (Nat.le_refl _) (List.getElem?_eq_getElem inside)
    omega
  refine ⟨?_, below⟩
  apply List.ext_getElem
  · rw [List.length_range, Receiver.done]
  · intro k inside _
    rw [List.getElem_range]
    have within : k ≤ total := (Nat.le_of_lt inside).trans below
    exact (exact_ k _ within (List.getElem?_eq_getElem inside)).1

end Unforged

end Protocol

/-! ## The programs -/

variable {crc32 : List UInt8 → UInt32} {file : Bool} {input : List (List UInt8)} {d : Disordered}

/-- Whatever is lost, delayed, duplicated or overtaken, at every place of the output is a chunk that
    was sent and whose number is that of the place modulo 256. -/
theorem disordered_places (readable : Readable input)
    (reach : (disordered crc32 file input).Reachable d) {k : Nat} {bytes : List UInt8}
    (there : d.network.rcv.writes[k]? = some bytes) :
    ∃ m, m % 256 = k % 256 ∧ m < d.network.snd.seqInd ∧ input[m]? = some bytes := by
  obtain ⟨a, reach', shown⟩ := (follows_disturbed crc32 file readable).reachable reach
  have unforged := Protocol.Unforged.of_reachable reach'
  rw [shown.network.rcv.writes, List.getElem?_map, Option.map_eq_some_iff] at there
  obtain ⟨m, there, rfl⟩ := there
  obtain ⟨number, before⟩ := unforged.placed.written k m there
  have inside : m < input.length := Nat.lt_of_lt_of_le before unforged.steady.sent
  refine ⟨m, number, by rw [shown.network.snd.seqInd]; exact before, ?_⟩
  rw [List.getElem?_eq_getElem inside, chunkOf_inside inside]

/-- The output of a transfer of at most 255 chunks is a prefix of its input. -/
theorem short_prefix (readable : Readable input) (short : input.length ≤ 255)
    (reach : (disordered crc32 file input).Reachable d) :
    d.network.output <+: input.flatten := by
  obtain ⟨a, reach', shown⟩ := (follows_disturbed crc32 file readable).reachable reach
  obtain ⟨written, inside⟩ := (Protocol.Unforged.of_reachable reach').in_order short
  rw [shown.network.output written inside]
  exact (input.take_prefix _).flatten

theorem three_unforged : ∃ d : Disordered,
    (disordered Crc.crc32 false [[7], [8], [9]]).Reachable d ∧
      d.network.rcv.writes = [[7], [8], [9]] := by
  obtain ⟨d, reach, writes⟩ := three_disordered
  have step : ∀ (d : Disordered) (disturbance : Disturbance) (d' : Disordered),
      d.step Crc.crc32 disturbance = .ok d' →
      (disordered Crc.crc32 false [[7], [8], [9]]).Reachable d →
      (disordered Crc.crc32 false [[7], [8], [9]]).Reachable d' :=
    fun _ _ _ next reach => reach.step next
  have overtaken := step d (.overtakeAck 1) _ rfl reach.of_restrict
  exact ⟨_, step _ (.duplicateAck 0) _ rfl overtaken, writes⟩

theorem disordered_places_sample :
    ∃ m, m % 256 = 2 % 256 ∧ [[7], [8], [9]][m]? = some [(9 : UInt8)] := by
  obtain ⟨d, reach, writes⟩ := three_unforged
  obtain ⟨m, number, -, chunk⟩ :=
    disordered_places (k := 2) (by decide) reach (by rw [writes]; rfl)
  exact ⟨m, number, chunk⟩

theorem short_prefix_sample : ∃ d : Disordered, d.network.output = [7, 8, 9] ∧
    d.network.output <+: [[7], [8], [9]].flatten := by
  obtain ⟨d, reach, writes⟩ := three_unforged
  exact ⟨d, by rw [Network.output, writes]; rfl, short_prefix (by decide) (by decide) reach⟩

end SegmentTransfer
