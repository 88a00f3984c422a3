import SegmentTransfer.Network

/-! # The sender releases only what was written

An ACK names the number of segments written when it was sent, so the ACKs in
flight are in order and none is ahead of the receiver. The sender moves its
window by the distance modulo 256 from the last ACK, which is never more than
the distance itself.
-/

namespace SegmentTransfer

open Outcome

namespace Protocol

theorem advance_le {acked a : Nat} (h : acked ≤ a) :
    acked + advance acked a ≤ a ∧ (acked + advance acked a) % 256 = a % 256 := by
  unfold advance
  omega

namespace Sender

variable {total : Nat} {fdReady : Bool} {reply : Option (Nat × Nat)} {s s' : Sender}
  {out : List Item}

theorem pass_acked (h : s.pass total fdReady reply = .ok (s', out)) :
    (s'.acked = s.acked ∧ s'.lastAck = s.lastAck) ∨
      (s.listens = true ∧ ∃ a window, reply = some (a, window) ∧
        s'.acked = s.acked + advance s.acked a ∧ s'.lastAck = some a) := by
  rcases pass_cases h with ⟨main, stays, it, it', read, timed, rfl, -⟩ | ⟨-, -, rfl, -⟩ |
    ⟨-, -, rfl⟩ | ⟨-, rfl, -⟩
  · have before : it.sender.acked = s.acked ∧ it.sender.lastAck = s.lastAck := by
      rcases filePart_cases read with ⟨-, rfl⟩ | ⟨-, -, rfl⟩ | ⟨-, -, -, rfl⟩ <;> exact ⟨rfl, rfl⟩
    have after : it'.sender.acked = (replyPart reply it).sender.acked ∧
        it'.sender.lastAck = (replyPart reply it).sender.lastAck := by
      rcases timerPart_cases timed with rfl | ⟨slot, n, -, rfl⟩ <;> exact ⟨rfl, rfl⟩
    rw [after.1, after.2]
    cases reply with
    | none => exact .inl before
    | some answer =>
        obtain ⟨a, window⟩ := answer
        refine .inr ⟨by rw [listens, main]; exact stays, a, window, rfl, ?_, rfl⟩
        simp only [replyPart, handleAck, before.1]
  · exact .inl ⟨rfl, rfl⟩
  · split <;> exact .inl ⟨rfl, rfl⟩
  · exact .inl ⟨rfl, rfl⟩

end Sender

namespace Receiver

variable {r r' : Receiver}

theorem place_written (n : Nat) (r : Receiver) : (r.place n).written = r.written := by
  unfold place
  split <;> rfl

theorem drain_done (h : r.drain = .ok r') : r.done ≤ r'.done := by
  refine (whileLoop_invariant (I := fun t => r.done ≤ t.done) ?_ (Nat.le_refl _) h).1
  intro s t le _ written
  obtain ⟨n, -, rest⟩ := bind_eq_ok.mp written
  cases rest
  simp only [done, List.length_append, List.length_singleton] at *
  omega

theorem pass_done {arrival : Option Item} {acks : List Nat} (h : r.pass arrival = .ok (r', acks)) :
    r.done ≤ r'.done ∧ (acks = [] ∨ acks = [r'.done]) := by
  rcases pass_cases h with ⟨-, n, mark, -, drained, rfl⟩ | ⟨-, n, -, rfl, rfl⟩ |
    ⟨-, written, -, -, sent⟩
  · have := drain_done drained
    rw [done, place_written] at this
    exact ⟨this, .inr rfl⟩
  · exact ⟨Nat.le_refl _, .inl rfl⟩
  · exact ⟨Nat.le_of_eq (congrArg List.length written).symm, sent⟩

end Receiver

/-- The ACKs in flight are in order, none behind the sender or ahead of the receiver. -/
structure Acknowledged (n : State) : Prop where
  sorted : n.toSnd.Pairwise (· ≤ ·)
  between : ∀ a ∈ n.toSnd, n.snd.acked ≤ a ∧ a ≤ n.rcv.done
  behind : n.snd.acked ≤ n.rcv.done
  last : n.snd.acked % 256 = n.snd.lastAck.getD 0 % 256

namespace Acknowledged

variable {n : State} {acks : List Nat}

theorem start (file : Bool) : Acknowledged (.start file) where
  sorted := .nil
  between := fun _ member => by cases member
  behind := Nat.le_refl _
  last := rfl

theorem sublist (h : Acknowledged n) (fewer : acks.Sublist n.toSnd) (items : List Item) :
    Acknowledged { n with toSnd := acks, toRcv := items } where
  sorted := h.sorted.sublist fewer
  between := fun a member => h.between a (fewer.subset member)
  behind := h.behind
  last := h.last

theorem sender (h : Acknowledged n) {total : Nat} {fdReady sfdReady : Bool} {s' : Sender}
    {out items : List Item}
    (passed : n.snd.pass total fdReady
      (if sfdReady then n.toSnd.head?.map (·, receiverWindow) else none) = .ok (s', out)) :
    Acknowledged
      { n with
        snd := s', toRcv := items
        toSnd := if sfdReady && n.snd.listens then n.toSnd.tail else n.toSnd } := by
  rcases Sender.pass_acked passed with ⟨acked, lastAck⟩ | ⟨listens, a, window, reply, acked, lastAck⟩
  · have fewer : (if sfdReady && n.snd.listens then n.toSnd.tail else n.toSnd).Sublist n.toSnd := by
      split
      · exact List.tail_sublist _
      · exact .refl _
    have kept := h.sublist fewer items
    exact
      { sorted := kept.sorted
        between := fun b member => acked ▸ kept.between b member
        behind := acked ▸ h.behind
        last := by
          simp only [acked, lastAck]
          exact h.last }
  · cases ready : sfdReady with
    | false =>
        rw [ready] at reply
        cases reply
    | true =>
        have sorted := h.sorted
        have between := h.between
        simp only [ready, if_true] at reply
        simp only [listens, Bool.and_true, if_true]
        cases toSnd : n.toSnd with
        | nil =>
            rw [toSnd] at reply
            cases reply
        | cons first rest =>
            rw [toSnd] at reply sorted between
            cases reply
            obtain ⟨low, high⟩ := between a List.mem_cons_self
            obtain ⟨moved, same⟩ := advance_le low
            rw [← acked] at moved same
            exact
              { sorted := sorted.of_cons
                between := by
                  intro b member
                  exact ⟨moved.trans (List.rel_of_pairwise_cons sorted member),
                    (between b (List.mem_cons_of_mem a member)).2⟩
                behind := moved.trans high
                last := by rw [lastAck]; exact same }

theorem receiver (h : Acknowledged n) {arrival : Option Item} {r' : Receiver}
    (passed : n.rcv.pass arrival = .ok (r', acks)) (items : List Item) :
    Acknowledged { n with rcv := r', toRcv := items, toSnd := n.toSnd ++ acks } := by
  obtain ⟨more, sent⟩ := Receiver.pass_done passed
  have between : ∀ a ∈ n.toSnd, n.snd.acked ≤ a ∧ a ≤ r'.done := by
    intro a member
    exact ⟨(h.between a member).1, (h.between a member).2.trans more⟩
  have behind := h.behind.trans more
  rcases sent with rfl | rfl
  · rw [List.append_nil]
    exact { sorted := h.sorted, between := between, behind := behind, last := h.last }
  · refine { sorted := ?_, between := ?_, behind := behind, last := h.last }
    · refine List.pairwise_append.mpr ⟨h.sorted, List.pairwise_singleton _ _, ?_⟩
      intro a member b new
      rw [List.mem_singleton.mp new]
      exact (between a member).2
    · intro a member
      rcases List.mem_append.mp member with old | new
      · exact between a old
      · rw [List.mem_singleton.mp new]
        exact ⟨behind, Nat.le_refl _⟩

theorem step (h : Acknowledged n) {total : Nat} {event : Event} {n' : State}
    (next : n.step total event = .ok n') : Acknowledged n' := by
  cases event with
  | sender fdReady sfdReady _ _ _ _ =>
      obtain ⟨⟨s', out⟩, passed, rest⟩ := bind_eq_ok.mp next
      cases rest
      exact h.sender passed
  | receiver arrives _ _ =>
      obtain ⟨⟨r', acks⟩, passed, rest⟩ := bind_eq_ok.mp next
      cases rest
      exact h.receiver passed _
  | loseData i =>
      cases next
      exact h.sublist (.refl _) _
  | loseAck i =>
      cases next
      exact h.sublist (List.eraseIdx_sublist _ _) _

theorem of_reachable {file : Bool} {total : Nat} (h : (system file total).Reachable n) :
    Acknowledged n :=
  h.induct (fun _ starts => starts ▸ start file) fun _ _ _ inv next => inv.step next

end Acknowledged

end Protocol

/-- However many datagrams are lost in whichever direction, the sender has released at
    most as many segments as the receiver has written, and that number is the last
    ACK's modulo 256. -/
theorem released_le_written {crc32 : List UInt8 → UInt32} {file : Bool}
    {input : List (List UInt8)} (readable : Readable input) {n : Network}
    (reach : (network crc32 file input).Reachable n) :
    n.snd.steps ≤ n.rcv.writes.length ∧ n.snd.steps % 256 = n.snd.lastAck.getD 0 := by
  obtain ⟨a, reach', shown⟩ := (follows crc32 file readable).reachable reach
  have inv := Protocol.Acknowledged.of_reachable reach'
  refine ⟨?_, ?_⟩
  · rw [shown.snd.steps, shown.rcv.writes, List.length_map]
    exact inv.behind
  · rw [shown.snd.steps, shown.snd.lastAck, inv.last]
    cases a.snd.lastAck <;> rfl

/-- Of three segments the second is lost and sent again, and the ACK of the first on its way to the
    sender: one segment is released, and all three are written. -/
theorem released_le_written_sample : ∃ n : Network, n.snd.steps = 1 ∧ n.rcv.writes.length = 3 ∧
    n.snd.steps ≤ n.rcv.writes.length ∧ n.snd.steps % 256 = n.snd.lastAck.getD 0 := by
  have readable : Readable [[0], [1, 2], [3]] := by decide
  have run : ∃ a, Protocol.State.after 3 (.start true)
      [.reads, .receives, .loseAck 0, .waits, .receives, .answers, .reads, .loseData 0, .reads,
        .receives, .loseAck 0, .waits, .receives] = .ok a ∧
      a.snd.acked = 1 ∧ a.rcv.written = [0, 1, 2] := ⟨_, rfl, rfl, rfl⟩
  obtain ⟨a, passed, acked, written⟩ := run
  obtain ⟨n, reach, shown⟩ := (followed Crc.crc32 true readable).reachable
    (Protocol.reachable_after passed (.of_init rfl))
  have three : n.rcv.writes.length = 3 := by
    rw [shown.rcv.writes, written]
    rfl
  exact ⟨n, shown.snd.steps.trans acked, three, released_le_written readable reach⟩

end SegmentTransfer
