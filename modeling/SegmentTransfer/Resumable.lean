import SegmentTransfer.Completion
import SegmentTransfer.SegmentTimer

/-! # Passes while losses are repaired

What arrives at a receiver that lacks a segment, and what a sender does whose file
can always be read: with room in the window it reads, and with a full window it
handles an ACK or lets the timer send the oldest segment outstanding again.
-/

namespace SegmentTransfer

open Outcome

namespace Protocol

/-! ## The receiver -/

namespace Receiver

variable {bound : Nat} {r r' : Receiver} {k m : Nat}

theorem arrival_grows (expected : k = r.done) (drained : (r.place k).drain = .ok r') : r.done < r'.done := by
  have accepted : InWindow (k % 256) (r.done % 256) receiverWindow := by
    simp only [InWindow, receiverWindow]
    omega
  have slot : realInd (r.done % 3) (k % 256) (r.done % 256) receiverWindow = r.done % 3 := by
    simp only [realInd, receiverWindow, expected, Nat.lt_irrefl, if_false, Nat.sub_self]
    omega
  have placed : r.place k = { r with slots := Function.update r.slots (r.done % 3) (some k) } := by
    rw [place, if_pos accepted, slot]
  have enter : (r.place k).occupied = true := by
    rw [occupied, done, place_written, placed]
    show (Function.update r.slots (r.done % 3) (some k) (r.done % 3)).isSome = true
    rw [Function.update_self]
    rfl
  -- until the segment is written its slot keeps the loop going
  have ended := whileLoop_invariant
    (I := fun t : Receiver => r.done < t.done ∨ (t.done = r.done ∧ t.occupied = true)) ?_
    (.inr ⟨congrArg List.length (place_written k r), enter⟩) drained
  · rcases ended with ⟨grown | ⟨-, going⟩, stop⟩
    · exact grown
    · rw [going] at stop
      cases stop
  · intro s t kept _ written
    obtain ⟨m, -, rest⟩ := bind_eq_ok.mp written
    cases rest
    left
    simp only [done, List.length_append, List.length_singleton] at *
    omega

/-- The segment was written, or waits in its slot. -/
def Has (r : Receiver) (m : Nat) : Prop := m < r.done ∨ r.slots (m % 3) = some m

theorem Has.place (h : r.Has m) (gathered : Gathered bound r) (behind : r.done ≤ k + 253)
    (ahead : k ≤ r.done + 255) : (r.place k).Has m := by
  rw [Has, done, place_written]
  refine h.imp_right fun held => ?_
  obtain ⟨low, high, -⟩ := gathered.inside _ (Nat.mod_lt _ (by decide)) m held
  unfold Receiver.place
  split
  · rename_i accepted
    obtain ⟨lower, upper, slot⟩ := inWindow_close behind ahead accepted
    simp only [slot]
    by_cases same : m = k
    · rw [same, Function.update_self]
    · rw [Function.update_of_ne (by omega), held]
  · exact held

theorem Has.drain (h : r.Has m) (gathered : Gathered bound r) (drained : r.drain = .ok r') :
    r'.Has m := by
  refine (whileLoop_invariant (I := fun t => Gathered bound t ∧ t.Has m) ?_ ⟨gathered, h⟩
    drained).1.2
  rintro s t ⟨gathered, has⟩ enter written
  obtain ⟨t', written', gathered', -⟩ := writeSlot_gathered gathered enter
  rw [written] at written'
  cases written'
  refine ⟨gathered', ?_⟩
  obtain ⟨first, here, rest⟩ := bind_eq_ok.mp written
  cases rest
  have grown : done { s with
      written := s.written ++ [first]
      slots := Function.update s.slots (s.done % 3) none } = s.done + 1 := by
    simp only [done, List.length_append, List.length_singleton]
  rcases has with before | held
  · exact .inl (grown ▸ Nat.lt_succ_of_lt before)
  · obtain ⟨low, high, -⟩ := gathered.inside _ (Nat.mod_lt _ (by decide)) m held
    rcases Nat.eq_or_lt_of_le low with same | later
    · exact .inl (grown ▸ same ▸ Nat.lt_succ_self _)
    · right
      show Function.update s.slots (s.done % 3) none (m % 3) = some m
      rw [Function.update_of_ne (by omega), held]

theorem missing_early {first : Nat} (h : Ordered bound r)
    (has : ∀ m, first ≤ m → m < bound → r.Has m) : r.done < first ∨ r.done = bound := by
  by_contra! late
  have below := h.below
  rcases has r.done late.1 (by omega) with before | held
  · exact Nat.lt_irrefl _ before
  · rw [h.missing] at held
    cases held

end Receiver

/-! ## The sender -/

theorem Sender.pass_left {total : Nat} {fdReady : Bool} {reply : Option (Nat × Nat)}
    {s s' : Sender} {out : List Item} (left : s.phase ≠ .main)
    (passed : s.pass total fdReady reply = .ok (s', out)) : s'.phase ≠ .main := by
  rcases pass_cases passed with ⟨main, -⟩ | ⟨main, -⟩ | ⟨-, -, rfl⟩ | ⟨-, rfl, -⟩
  · exact (left main).elim
  · exact (left main).elim
  · split
    · exact fun again => by cases again
    · exact left
  · exact left

theorem Sender.Ringed.pass {total : Nat} {fdReady : Bool} {reply : Option (Nat × Nat)}
    {s s' : Sender} {out : List Item} (h : s.Ringed 3)
    (honest : ∀ a window, reply = some (a, window) →
      window = 3 ∧ s.acked ≤ a ∧ a ≤ s.sent ∧ a < s.acked + 256)
    (passed : s.pass total fdReady reply = .ok (s', out)) : s'.Ringed 3 := by
  rcases pass_cases passed with ⟨-, -, it, it', read, timed, rfl, -⟩ | ⟨-, -, rfl, -⟩ |
    ⟨-, -, rfl⟩ | ⟨-, rfl, -⟩
  · have before : it.sender.Ringed 3 ∧ it.sender.acked = s.acked ∧ s.sent ≤ it.sender.sent := by
      rcases filePart_cases read with ⟨-, rfl⟩ | ⟨-, -, rfl⟩ | ⟨ready, -, -, rfl⟩
      · exact ⟨h, rfl, Nat.le_refl _⟩
      · exact ⟨{ h with }, rfl, Nat.le_refl _⟩
      · exact ⟨h.read (Bool.and_eq_true_iff.mp ready).1, rfl, Nat.le_succ _⟩
    have between : (replyPart reply it).sender.Ringed 3 := by
      cases reply with
      | none => exact before.1
      | some answer =>
          obtain ⟨a, window⟩ := answer
          obtain ⟨rfl, low, high, near⟩ := honest a window rfl
          obtain ⟨ringed, acked, more⟩ := before
          exact (handleAck_ringed ringed (acked ▸ low) (high.trans more) (acked ▸ near)).1
    rcases timerPart_cases timed with rfl | ⟨slot, n, -, rfl⟩ <;> exact between
  · exact { h with }
  · split
    · exact { h with }
    · exact h
  · exact h

theorem Sender.pass_busy {total : Nat} {fdReady : Bool} {reply : Option (Nat × Nat)}
    {s s' : Sender} {out : List Item}
    (busy : s.endFile = false → 0 < s.sent → s.bufferEmpty = true)
    (passed : s.pass total fdReady reply = .ok (s', out)) :
    s'.endFile = false → 0 < s'.sent → s'.bufferEmpty = true := by
  rcases pass_cases passed with ⟨-, -, it, it', read, timed, rfl, -⟩ | ⟨-, -, rfl, -⟩ |
    ⟨-, -, rfl⟩ | ⟨-, rfl, -⟩
  · have before : it.sender.endFile = false → 0 < it.sender.sent → it.sender.bufferEmpty = true := by
      rcases filePart_cases read with ⟨-, rfl⟩ | ⟨-, -, rfl⟩ | ⟨-, -, -, rfl⟩
      · exact busy
      · exact fun open_ => by cases open_
      · exact fun _ _ => rfl
    have between : (replyPart reply it).sender.endFile = false → 0 < (replyPart reply it).sender.sent →
        (replyPart reply it).sender.bufferEmpty = true := by
      cases reply with
      | none => exact before
      | some answer =>
          intro open_ some
          have open_ : it.sender.endFile = false := open_
          simp only [replyPart, handleAck, open_, Bool.false_eq_true, false_and, if_false]
          exact before open_ some
    rcases timerPart_cases timed with rfl | ⟨slot, n, -, rfl⟩ <;> exact between
  · exact busy
  · split <;> exact busy
  · exact busy

/-- The sender when it has read and sent the next segment. -/
def Sender.read (s : Sender) : Sender :=
  { s with
    bufferEmpty := true
    slots := Function.update s.slots (s.sent % s.window) (some s.sent)
    sent := s.sent + 1 }

/-! ## Passes of a sender whose file can be read -/

/-- A sender in its main loop, with a file given by name that has not ended. -/
structure Resumable (total : Nat) (n : State) : Prop where
  delivering : Delivering total n
  ringed : n.snd.Ringed 3
  file : n.snd.file = true
  main : n.snd.phase = .main
  open_ : n.snd.endFile = false
  busy : 0 < n.snd.sent → n.snd.bufferEmpty = true
  listening : n.rcv.endFile = false ∧ n.rcv.count = 0 ∧ n.rcv.returned = false

namespace Resumable

variable {total : Nat} {n n' : State}

theorem first (h : Resumable total n) {item : Item} {rest : List Item}
    (toRcv : n.toRcv = item :: rest) :
    ∃ k mark r', item = .seg k mark ∧ (n.rcv.place k).drain = .ok r' := by
  have emits : n.snd.Emits item := h.delivering.sends.emitted _ (toRcv ▸ List.mem_cons_self)
  cases item with
  | fin k => exact (emits.2 h.main).elim
  | seg k mark =>
      obtain ⟨before, close, late⟩ := emits
      have near := h.delivering.near
      have behind := h.delivering.acknowledged.behind
      obtain ⟨r', drained, -⟩ := Receiver.arrival_ordered h.delivering.ordered
        (Nat.lt_of_lt_of_le before late) (show n.rcv.done ≤ k + 253 by
          have := (h.delivering.marks _ (toRcv ▸ List.mem_cons_self)).below
          simp only [Item.mark] at this
          omega) (by omega)
      exact ⟨k, mark, r', rfl, drained⟩

theorem receives (h : Resumable total n) {k mark : Nat} {rest : List Item} {r' : Receiver}
    (toRcv : n.toRcv = .seg k mark :: rest) (drained : (n.rcv.place k).drain = .ok r') :
    n.step total .receives =
        .ok { n with rcv := r', toRcv := rest, toSnd := n.toSnd ++ [r'.done] } ∧
      Resumable total { n with rcv := r', toRcv := rest, toSnd := n.toSnd ++ [r'.done] } := by
  obtain ⟨open_, count, running⟩ := h.listening
  have listens : n.rcv.listens = true := by simp [Receiver.listens, open_, running]
  have next : n.step total .receives =
      .ok { n with rcv := r', toRcv := rest, toSnd := n.toSnd ++ [r'.done] } := by
    simp only [State.step, Event.receives, if_true, toRcv, List.head?_cons,
      Receiver.pass_seg listens drained, ok_bind, listens, Bool.and_self, List.tail_cons, pure_eq_ok]
  obtain ⟨-, ended, counted, returned⟩ := h.delivering.arrival toRcv drained
  exact ⟨next,
    { delivering := h.delivering.step next trivial, ringed := h.ringed, file := h.file
      main := h.main, open_ := h.open_, busy := h.busy
      listening := ⟨ended.trans open_, counted.trans count, returned.trans running⟩ }⟩

theorem stays (h : Resumable total n) : n.snd.stays = true := by simp [Sender.stays, h.open_]

theorem unread (h : Resumable total n) (full : n.snd.isNotFull = false) :
    n.snd.acked < n.snd.sent ∧ filePart total true n.snd.begin = .ok n.snd.begin := by
  have room := of_decide_eq_false full
  have positive := h.ringed.positive
  have acked := h.ringed.acked
  have outstanding : n.snd.acked < n.snd.sent := by
    refine Nat.lt_of_le_of_ne acked fun same => ?_
    rw [same] at room
    omega
  have unset : n.snd.begin.sender.fdSet = false := by
    simp [Sender.begin, Sender.fdSet, h.open_, h.busy (Nat.zero_lt_of_lt outstanding), full]
  exact ⟨outstanding, by rw [filePart, if_pos unset]; rfl⟩

/-- The sender reads the next chunk and sends it. -/
theorem reads (h : Resumable total n) (notFull : n.snd.isNotFull = true)
    (more : n.snd.sent < total) (long : total + 1 < 2 ^ 31)
    (room : n.snd.sent < n.snd.acked + n.snd.window) :
    n.step total .reads =
        .ok { n with
          snd := n.snd.read, toRcv := n.toRcv ++ [.seg n.snd.sent (n.snd.sent + 1)] } ∧
      Resumable total
        { n with snd := n.snd.read, toRcv := n.toRcv ++ [.seg n.snd.sent (n.snd.sent + 1)] } := by
  have set : n.snd.fdSet = true := by simp [Sender.fdSet, h.open_, notFull]
  let it : Iteration :=
    { sender := n.snd.read, sent := true, ackReceived := false
      out := [.seg n.snd.sent (n.snd.sent + 1)] }
  have read : filePart total true n.snd.begin = .ok it := by
    have small : ¬ 2 ^ 31 ≤ n.snd.sent + 1 := by omega
    simp only [filePart, sendChunk, Sender.begin, set, Bool.true_eq_false, if_false, more.ne,
      h.delivering.steady.slot, small, ok_bind, List.nil_append]
    rfl
  have passed : n.snd.pass total true none = .ok (it.sender, it.out) :=
    Sender.pass_main it h.main h.stays read rfl
  have next : n.step total .reads =
      .ok { n with
        snd := n.snd.read, toRcv := n.toRcv ++ [.seg n.snd.sent (n.snd.sent + 1)] } := by
    simp only [State.step, Event.reads, Bool.false_eq_true, if_false, passed, ok_bind, Bool.false_and,
      pure_eq_ok]
    rfl
  have inside : n.ReadsInWindow total .reads := by
    intro _ _
    have acked := h.ringed.acked
    have near := h.delivering.near
    unfold advance
    omega
  exact ⟨next,
    { delivering := h.delivering.step next inside, ringed := h.ringed.read set, file := h.file
      main := h.main, open_ := h.open_, busy := fun _ => rfl, listening := h.listening }⟩

/-- With a full window the sender handles the first ACK. -/
theorem answers (h : Resumable total n) (full : n.snd.isNotFull = false) {a : Nat}
    {acks : List Nat} (toSnd : n.toSnd = a :: acks) :
    ∃ s', n.step total .both = .ok { n with snd := s', toSnd := acks } ∧
      s'.sent = n.snd.sent ∧ s'.acked = a ∧ Resumable total { n with snd := s', toSnd := acks } := by
  obtain ⟨low, high⟩ := h.delivering.acknowledged.between a (toSnd ▸ List.mem_cons_self)
  have near := h.delivering.near
  have below := h.delivering.ordered.below
  have passed : n.snd.pass total true (some (a, receiverWindow)) =
      .ok ((handleAck a receiverWindow n.snd.begin).sender, []) :=
    Sender.pass_main _ h.main h.stays (h.unread full).2 rfl
  have heard : n.snd.listens = true := by rw [Sender.listens, h.main]; exact h.stays
  let s' := (handleAck a receiverWindow n.snd.begin).sender
  have next : n.step total .both = .ok { n with snd := s', toSnd := acks } := by
    simp only [State.step, Event.both, if_true, toSnd, List.head?_cons, Option.map_some, passed,
      ok_bind, heard, Bool.and_self, List.tail_cons, List.append_nil, pure_eq_ok]
    rfl
  have ringed := h.ringed.pass (fun b window same => by
    cases same
    exact ⟨rfl, low, high.trans below, by omega⟩) passed
  have acked : s'.acked = a := by
    show n.snd.acked + advance n.snd.acked a = a
    unfold advance
    omega
  have inside : n.ReadsInWindow total .both := by
    intro wants
    have set : n.snd.fdSet = true := (Bool.and_eq_true_iff.mp wants).2
    have outstanding := (h.unread full).1
    simp [Sender.fdSet, h.open_, h.busy (Nat.zero_lt_of_lt outstanding), full] at set
  exact ⟨s', next, rfl, acked,
    { delivering := h.delivering.step next inside, ringed := ringed, file := h.file
      main := h.main, open_ := h.open_
      busy := Sender.pass_busy (fun _ => h.busy) passed h.open_, listening := h.listening }⟩

/-- With a full window and no ACK the timer sends the oldest segment outstanding. -/
theorem resends (h : Resumable total n) (full : n.snd.isNotFull = false) :
    n.step total .reads =
        .ok { n with toRcv := n.toRcv ++ [.seg n.snd.acked n.snd.sent] } ∧
      Resumable total { n with toRcv := n.toRcv ++ [.seg n.snd.acked n.snd.sent] } := by
  obtain ⟨outstanding, unread⟩ := h.unread full
  have near := h.delivering.near
  have held : n.snd.slots (n.snd.smallInd % n.snd.window) = some n.snd.acked := by
    rw [h.ringed.smallInd, Nat.mod_mod]
    refine h.ringed.slots _ outstanding ?_
    rcases h.ringed.window with ⟨-, window, acked, few, -⟩ | ⟨-, window⟩
    · omega
    · rw [window]
      omega
  have timed : timerPart (replyPart none n.snd.begin) =
      .ok { n.snd.begin with out := [.seg n.snd.acked n.snd.sent] } := by
    simp only [timerPart, replyPart, Sender.begin, h.file, and_self, if_true,
      h.delivering.steady.slot, ok_bind, held, orFail_some, List.nil_append, pure_eq_ok]
  have passed := Sender.pass_main _ h.main h.stays unread timed
  have next : n.step total .reads =
      .ok { n with toRcv := n.toRcv ++ [.seg n.snd.acked n.snd.sent] } := by
    simp only [State.step, Event.reads, Bool.false_eq_true, if_false, passed, ok_bind, Bool.false_and,
      pure_eq_ok]
    rfl
  have inside : n.ReadsInWindow total .reads := by
    intro wants
    have set : n.snd.fdSet = true := (Bool.and_eq_true_iff.mp wants).2
    simp [Sender.fdSet, h.open_, h.busy (Nat.zero_lt_of_lt outstanding), full] at set
  exact ⟨next,
    { delivering := h.delivering.step next inside, ringed := h.ringed, file := h.file
      main := h.main, open_ := h.open_, busy := h.busy, listening := h.listening }⟩

/-- With everything sent received, and an ACK for it, nothing is missing any more. -/
theorem completing (h : Resumable total n) (arrived : n.toRcv = []) (all : n.rcv.done = n.snd.sent)
    {acks : List Nat} (answered : n.toSnd = acks ++ [n.rcv.done]) : Completing true total n := by
  obtain ⟨open_, count, running⟩ := h.listening
  have behind := h.delivering.acknowledged.behind
  have near := h.delivering.near
  have level : n.rcv.Level :=
    { empty := fun i three => by
        cases held : n.rcv.slots i with
        | none => rfl
        | some m =>
            have := h.delivering.ordered.inside i three m held
            have := h.delivering.ordered.held i three m held
            omega
      written := h.delivering.ordered.written }
  have trail : AckTrail n.snd.acked n.toSnd n.rcv.done := by
    have sorted := h.delivering.acknowledged.sorted
    have between := h.delivering.acknowledged.between
    rw [answered] at sorted between ⊢
    exact .of_sorted sorted (fun a member => (between a member).1) (by omega)
  exact
    { sameFile := h.file, steady := h.delivering.steady, sends := h.delivering.sends, level := level
      trail := by rw [arrived, all]; exact .nil _
      complete := fun ended => by rw [open_] at ended; cases ended
      acks := fun _ => trail
      ends := fun ended => by rw [open_] at ended; cases ended
      unanswered := fun _ => count ▸ Nat.zero_le _
      waiting := fun _ => ⟨count, running⟩
      counted := count ▸ Nat.zero_le _
      finished := fun returned => by rw [running] at returned; cases returned
      last := fun returned => by rw [h.main] at returned; cases returned }

end Resumable

end Protocol

end SegmentTransfer
