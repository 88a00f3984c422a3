import SegmentTransfer.Delivery

/-! # Losses that nothing makes good

Without the timer, which only works for a file given by name and not after its
end was read, a segment that is lost is lost for good, and the receiver writes
nothing more.
-/

namespace SegmentTransfer

open Outcome

namespace Protocol

/-- Without the timer only the next segment is sent. -/
theorem Sender.pass_timerless {total : Nat} {fdReady : Bool} {reply : Option (Nat × Nat)}
    {s s' : Sender} {out : List Item} (timerless : s.file = false ∨ s.endFile = true)
    (passed : s.pass total fdReady reply = .ok (s', out)) :
    (∀ k mark, .seg k mark ∈ out → k = s.sent) ∧ (s'.file = false ∨ s'.endFile = true) := by
  rcases pass_cases passed with ⟨-, stays, it, it', read, timed, rfl, rfl⟩ | ⟨-, -, rfl, rfl⟩ |
    ⟨-, rfl, rfl⟩ | ⟨-, rfl, rfl⟩
  · have nameless : s.file = false := by
      refine timerless.resolve_right fun ended => ?_
      simp [Sender.stays, ended] at stays
    have before : it.sender.file = false ∧ ∀ k mark, .seg k mark ∈ it.out → k = s.sent := by
      rcases filePart_cases read with ⟨-, rfl⟩ | ⟨-, -, rfl⟩ | ⟨-, -, -, rfl⟩
      · exact ⟨nameless, fun _ _ member => by cases member⟩
      · exact ⟨nameless, fun _ _ member => by cases member⟩
      · refine ⟨nameless, fun k mark member => ?_⟩
        cases List.mem_singleton.mp member
        rfl
    have between : (replyPart reply it).sender.file = it.sender.file ∧
        (replyPart reply it).out = it.out := by
      cases reply <;> exact ⟨rfl, rfl⟩
    have idle : timerPart (replyPart reply it) = .ok (replyPart reply it) := by
      simp only [timerPart, between.1, before.1, Bool.false_eq_true, and_false, if_false, pure_eq_ok]
    rw [idle] at timed
    cases timed
    rw [between.1, between.2]
    exact ⟨before.2, .inl before.1⟩
  · exact ⟨(fun _ _ member => by cases member), timerless⟩
  · refine ⟨(fun k mark member => by cases List.mem_singleton.mp member), ?_⟩
    split <;> exact timerless
  · exact ⟨(fun _ _ member => by cases member), timerless⟩

/-- The segment expected was sent, is not in flight, and nothing sends it again. -/
structure Lost (total : Nat) (written : List Nat) (n : State) : Prop where
  delivering : Delivering total n
  timerless : n.snd.file = false ∨ n.snd.endFile = true
  kept : n.rcv.written = written
  sent : n.rcv.done < n.snd.sent
  gone : ∀ mark, .seg n.rcv.done mark ∉ n.toRcv

namespace Lost

variable {total : Nat} {written : List Nat} {n n' : State}

theorem sender (h : Lost total written n) {fdReady : Bool} {reply : Option (Nat × Nat)}
    {s' : Sender} {out : List Item} {acks : List Nat}
    (passed : n.snd.pass total fdReady reply = .ok (s', out))
    (delivering : Delivering total { n with snd := s', toRcv := n.toRcv ++ out, toSnd := acks }) :
    Lost total written { n with snd := s', toRcv := n.toRcv ++ out, toSnd := acks } := by
  obtain ⟨new, timerless⟩ := Sender.pass_timerless h.timerless passed
  have more := Sender.pass_sent passed
  have sent := h.sent
  refine
    { delivering := delivering, timerless := timerless, kept := h.kept
      sent := by
        show n.rcv.done < s'.sent
        split at more <;> omega
      gone := fun mark member => ?_ }
  rcases List.mem_append.mp member with old | here
  · exact h.gone mark old
  · have : n.rcv.done = n.snd.sent := new _ mark here
    omega

theorem receiver (h : Lost total written n) {arrives : Bool} {r' : Receiver} {acks : List Nat}
    (passed : n.rcv.pass (if arrives then n.toRcv.head? else none) = .ok (r', acks)) :
    r'.written = n.rcv.written := by
  rcases Receiver.pass_cases passed with ⟨-, k, mark, arrival, drained, -⟩ | ⟨-, k, -, rfl, -⟩ |
    ⟨-, same, -⟩
  · cases arrives with
    | false => cases arrival
    | true =>
        have member : Item.seg k mark ∈ n.toRcv := List.mem_of_mem_head? arrival
        have other : k ≠ n.rcv.done := by
          rintro rfl
          exact h.gone mark member
        obtain ⟨before, close, late⟩ := h.delivering.sends.emitted _ member
        have below := (h.delivering.marks _ member).below
        have near := h.delivering.near
        have behind := h.delivering.acknowledged.behind
        simp only [Item.mark] at below
        rw [Receiver.arrival_waits h.delivering.ordered (by omega) (by omega) other] at drained
        cases drained
        exact Receiver.place_written k n.rcv
  · rfl
  · exact same

theorem step (h : Lost total written n) {event : Event} (next : n.step total event = .ok n')
    (room : n.ReadsInWindow total event) : Lost total written n' := by
  have delivering := h.delivering.step next room
  cases event with
  | sender fdReady sfdReady _ _ _ _ =>
      obtain ⟨⟨s', out⟩, passed, rest⟩ := bind_eq_ok.mp next
      cases rest
      exact h.sender passed delivering
  | receiver arrives _ _ =>
      obtain ⟨⟨r', acks⟩, passed, rest⟩ := bind_eq_ok.mp next
      cases rest
      have same := h.receiver passed
      have done : r'.done = n.rcv.done := congrArg List.length same
      refine
        { delivering := delivering, timerless := h.timerless, kept := same.trans h.kept
          sent := done ▸ h.sent, gone := fun mark member => ?_ }
      rw [done] at member
      revert member
      simp only
      split
      · exact fun member => h.gone mark (List.mem_of_mem_tail member)
      · exact h.gone mark
  | loseData i =>
      cases next
      exact
        { h with
          delivering := delivering
          gone := fun mark member => h.gone mark ((List.eraseIdx_sublist _ _).subset member) }
  | loseAck i =>
      cases next
      exact { h with delivering := delivering }

end Lost

end Protocol

/-! ## The programs -/

/-- The datagram carries the segment that the receiver expects. -/
def Network.Carries (crc32 : List UInt8 → UInt32) (n : Network) (d : List UInt8) : Prop :=
  ∃ q, pktDecode crc32 (n.rcv.packetEncoded.fill d) d.length n.rcv.pktRcv = .ok (.pktOk, q) ∧
    pktGetLength q ≠ 0 ∧ (pktGetSeqnum q).toNat = n.rcv.seqExp

section

variable {crc32 : List UInt8 → UInt32} {file : Bool} {input : List (List UInt8)} {n : Network}

theorem Network.Shows.lost {a : Protocol.State} (h : n.Shows crc32 input a)
    (inv : Protocol.Delivering input.length a) (timerless : n.snd.file = false ∨ n.snd.endFile = true)
    (sent : n.rcv.writes.length < n.snd.seqInd) (gone : ∀ d ∈ n.toRcv, ¬ n.Carries crc32 d) :
    Protocol.Lost input.length a.rcv.written a := by
  have written : n.rcv.writes.length = a.rcv.done := by
    rw [h.rcv.writes, List.length_map]
    rfl
  refine
    { delivering := inv, timerless := by rwa [← h.snd.file, ← h.snd.endFile], kept := rfl
      sent := by rwa [← written, ← h.snd.seqInd], gone := fun mark member => ?_ }
  obtain ⟨d, inside, nonempty, small, window, framed⟩ :
      ∃ d ∈ n.toRcv, ShowsItem crc32 (chunkOf input) d (.seg a.rcv.done mark) := by
    have toRcv := h.toRcv
    revert toRcv member
    generalize n.toRcv = ds, a.toRcv = items
    intro member toRcv
    induction toRcv with
    | nil => cases member
    | cons first _ ih =>
        rcases List.mem_cons.mp member with rfl | later
        · exact ⟨_, List.mem_cons_self, first⟩
        · obtain ⟨d, inside, shown⟩ := ih later
          exact ⟨d, List.mem_cons_of_mem _ inside, shown⟩
  obtain ⟨-, -, q, decoded, -, -, -, seqnum, length, -⟩ :=
    framed.decode small n.rcv.packetEncoded n.rcv.pktRcv
  refine gone d inside ⟨q, decoded, fun zero => ?_, ?_⟩
  · rw [zero] at length
    exact nonempty (List.length_eq_zero_iff.mp length.symm)
  · rw [seqnum, h.rcv.seqExp]
    exact UInt8.toNat_ofNat' ..

/-- Without the timer (the input is not a file given by name, or has been read to its end) a
    segment that was lost is never sent again: if the one the receiver expects was sent and none
    of the datagrams in flight carries it, nothing more is ever written. -/
theorem lost_for_good (readable : Readable input)
    (reach : ((network crc32 file input).restrict Network.ReadsInWindow).Reachable n)
    (timerless : n.snd.file = false ∨ n.snd.endFile = true)
    (sent : n.rcv.writes.length < n.snd.seqInd) (gone : ∀ d ∈ n.toRcv, ¬ n.Carries crc32 d)
    {events : List Event} {n' : Network}
    (run : ((network crc32 file input).restrict Network.ReadsInWindow).Run n events n') :
    n'.output = n.output := by
  have follows := (follows crc32 file readable).restrict Network.ReadsInWindow
    (Protocol.State.ReadsInWindow input.length) fun _ _ _ shown => shown.readsInWindow.mp
  obtain ⟨a, reach', shown⟩ := follows.reachable reach
  obtain ⟨a', run', shown'⟩ := follows.run shown run
  have lost := shown.lost (Protocol.Delivering.of_reachable reach') timerless sent gone
  have kept := (run'.preserves (fun _ _ _ inv next => inv.step next.1 next.2) lost).kept
  rw [Network.output, Network.output, shown.rcv.writes, shown'.rcv.writes, kept]

/-- The one byte read from the terminal was lost. -/
theorem lost_for_good_sample : ∃ n : Network, n.snd.seqInd = 1 ∧ ∀ events n',
    ((network Crc.crc32 false [[7]]).restrict Network.ReadsInWindow).Run n events n' →
      n'.output = [] := by
  have readable : Readable [[7]] := by decide
  have begins : ((Protocol.system false 1).restrict (Protocol.State.ReadsInWindow 1)).Reachable
      (.start false) := .of_init rfl
  have read := begins.step (a := Event.reads) ⟨rfl, fun _ _ => by decide⟩
  have lost := read.step (a := Event.loseData 0) ⟨rfl, trivial⟩
  obtain ⟨n, reach, shown⟩ := ((followed Crc.crc32 false readable).restrict
    (Protocol.State.ReadsInWindow 1) Network.ReadsInWindow
    fun _ _ _ shown => shown.readsInWindow.mpr).reachable lost
  have writes : n.rcv.writes = [] := shown.rcv.writes
  have sent : n.snd.seqInd = 1 := shown.snd.seqInd
  have none : n.toRcv = [] := List.forall₂_nil_right_iff.mp shown.toRcv
  refine ⟨n, sent, fun events n' run => ?_⟩
  rw [lost_for_good readable reach (.inl shown.snd.file) (by rw [writes, sent]; decide)
    (fun d member => by rw [none] at member; cases member) run, Network.output, writes]
  rfl

end

end SegmentTransfer
