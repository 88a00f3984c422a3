import SegmentTransfer.Library.Liveness
import SegmentTransfer.Lossless

/-! # The ACKs of a transfer that loses nothing

Nothing between the two programs is out of step while nothing is lost: the ACKs
in flight lead the sender to what the receiver has written, the receiver listens
as long as the sender is in its main loop, and every pass it makes after the end
packet leaves an ACK for the sender.
-/

namespace SegmentTransfer

open Outcome

namespace Protocol

/-- From `a` segments acknowledged, the ACKs in flight lead to `d`, each by fewer than 256. -/
inductive AckTrail : Nat → List Nat → Nat → Prop where
  | nil (a) : AckTrail a [] a
  | cons {a b acks d} : a ≤ b → b < a + 256 → AckTrail b acks d → AckTrail a (b :: acks) d

theorem AckTrail.snoc {a d d' : Nat} {acks : List Nat} (h : AckTrail a acks d) (low : d ≤ d')
    (high : d' < d + 256) : AckTrail a (acks ++ [d']) d' := by
  induction h with
  | nil => exact .cons low high (.nil _)
  | cons first second _ ih => exact .cons first second (ih low high)

theorem AckTrail.of_sorted {a d : Nat} {acks : List Nat} (sorted : (acks ++ [d]).Pairwise (· ≤ ·))
    (low : ∀ b ∈ acks ++ [d], a ≤ b) (near : d < a + 256) : AckTrail a (acks ++ [d]) d := by
  induction acks generalizing a with
  | nil => exact .cons (low d List.mem_cons_self) near (.nil d)
  | cons b acks ih =>
      have first := low b List.mem_cons_self
      have later : ∀ c ∈ acks ++ [d], b ≤ c := fun c => List.rel_of_pairwise_cons sorted
      have last : b ≤ d := later d (by simp)
      exact .cons first (by omega) (ih sorted.of_cons later (by omega))

theorem advance_near {a b : Nat} (low : a ≤ b) (high : b < a + 256) : a + advance a b = b := by
  unfold advance
  omega

/-! ## What one pass of the receiver does -/

namespace Receiver

variable {r r' : Receiver} {acks : List Nat}

theorem pass_heard (level : r.Level) (listening : r.listens = true) {item : Item}
    {rest : List Item} {n : Nat} (trail : Trail r.done (item :: rest) n)
    (passed : r.pass (some item) = .ok (r', acks)) :
    ((∀ k, item ≠ .fin k) ∧ acks = [r'.done] ∧ r.done ≤ r'.done ∧ r'.done ≤ r.done + 1 ∧
        SameLoop r r') ∨
      (item = .fin r.done ∧ acks = [] ∧ r' = { r with endFile := true }) := by
  cases trail with
  | @next _ mark _ _ trail =>
      obtain ⟨slots, drained, -⟩ := arrival_expected level.empty (n := r.done) rfl
      rw [pass_seg listening drained] at passed
      cases passed
      have grown : done { r with written := r.written ++ [r.done], slots } = r.done + 1 := by
        simp only [done, List.length_append, List.length_singleton]
      exact .inl ⟨by simp, rfl, grown ▸ Nat.le_succ _, Nat.le_of_eq grown, rfl, rfl, rfl⟩
  | again old close trail =>
      rw [pass_seg listening (arrival_old level.empty old close)] at passed
      cases passed
      exact .inl ⟨by simp, rfl, Nat.le_refl _, Nat.le_succ _, rfl, rfl, rfl⟩
  | fin trail =>
      rw [pass_fin listening] at passed
      cases passed
      exact .inr ⟨rfl, rfl, rfl⟩

theorem pass_last (deaf : r.listens = false) {arrival : Option Item}
    (passed : r.pass arrival = .ok (r', acks)) :
    (r.returned = true ∧ r' = r ∧ acks = []) ∨
      (r.returned = false ∧ r.endFile = true ∧
        ((r.count < 11 ∧ r' = { r with count := r.count + 1 } ∧ acks = [r.done]) ∨
          (11 ≤ r.count ∧ r' = { r with returned := true } ∧ acks = []))) := by
  unfold pass at passed
  split at passed
  · rename_i returned
    cases passed
    exact .inl ⟨returned, rfl, rfl⟩
  rename_i running
  rw [Bool.not_eq_true] at running
  split at passed
  · rename_i staying
    simp [listens, running, staying] at deaf
  rename_i left
  rw [Bool.not_eq_false] at left
  split at passed
  · rename_i few
    cases passed
    exact .inr ⟨running, left, .inl ⟨few, rfl, rfl⟩⟩
  · rename_i enough
    cases passed
    exact .inr ⟨running, left, .inr ⟨Nat.le_of_not_lt enough, rfl, rfl⟩⟩

end Receiver

/-! ## What one pass of the sender does -/

namespace Sender

variable {total : Nat} {fdReady : Bool} {reply : Option (Nat × Nat)} {s s' : Sender}
  {out : List Item}

/-- A pass of the main loop that is not its end leaves the sender there. -/
theorem pass_stays (main : s.phase = .main) (stays : s.stays = true)
    (h : s.pass total fdReady reply = .ok (s', out)) :
    s'.phase = .main ∧
      (s'.endFile = true ↔ s.endFile = true ∨ (fdReady && s.wants) = true ∧ s.sent = total) := by
  obtain ⟨it, it', read, timed, rfl, -⟩ := pass_stayed main stays h
  have wants : s.wants = s.fdSet := by simp only [wants, main, stays, beq_self_eq_true, Bool.true_and]
  have before : it.sender.phase = .main ∧
      (it.sender.endFile = true ↔
        s.endFile = true ∨ (fdReady && s.wants) = true ∧ s.sent = total) := by
    rw [wants, Bool.and_comm]
    rcases filePart_cases read with ⟨unread, rfl⟩ | ⟨set, ends, rfl⟩ | ⟨-, more, -, rfl⟩
    · have unread : (s.fdSet && fdReady) = false := unread
      simp only [begin, main, unread, Bool.false_eq_true, false_and, or_false, and_self]
    · have set : (s.fdSet && fdReady) = true := set
      have ends : s.sent = total := ends
      exact ⟨main, by simp only [set, ends, and_self, or_true]⟩
    · have more : s.sent ≠ total := more
      simp only [begin, main, more, and_false, or_false, and_self]
  have after : it'.sender.phase = (replyPart reply it).sender.phase ∧
      it'.sender.endFile = (replyPart reply it).sender.endFile := by
    rcases timerPart_cases timed with rfl | ⟨slot, n, -, rfl⟩ <;> exact ⟨rfl, rfl⟩
  rw [after.1, after.2]
  cases reply <;> exact before

/-- Such a pass handles the ACK it reads, and follows the ACKs in flight. -/
theorem pass_follows {acks : List Nat} {d : Nat} {sfdReady : Bool} (main : s.phase = .main)
    (stays : s.stays = true) (trail : AckTrail s.acked acks d)
    (h : s.pass total fdReady (if sfdReady then acks.head?.map (·, receiverWindow) else none) =
      .ok (s', out)) :
    AckTrail s'.acked (if sfdReady then acks.tail else acks) d := by
  have moved : ∀ reply, s.pass total fdReady reply = .ok (s', out) →
      s'.acked = s.acked + (reply.map fun answer => advance s.acked answer.1).getD 0 := by
    intro reply h
    obtain ⟨it, it', read, timed, rfl, -⟩ := pass_stayed main stays h
    have before : it.sender.acked = s.acked := by
      rcases filePart_cases read with ⟨-, rfl⟩ | ⟨-, -, rfl⟩ | ⟨-, -, -, rfl⟩ <;> rfl
    have after : it'.sender.acked = (replyPart reply it).sender.acked := by
      rcases timerPart_cases timed with rfl | ⟨slot, n, -, rfl⟩ <;> rfl
    rw [after]
    cases reply with
    | none => exact before
    | some answer => simp only [replyPart, handleAck, before, Option.map_some, Option.getD_some]
  have acked := moved _ h
  cases sfdReady with
  | false =>
      simp only [Bool.false_eq_true, if_false, Option.map_none, Option.getD_none] at acked ⊢
      rw [acked]
      exact trail
  | true =>
      simp only [if_true] at acked ⊢
      cases trail with
      | nil =>
          rw [acked]
          exact .nil _
      | cons low high trail =>
          simp only [List.head?_cons, Option.map_some, Option.getD_some, advance_near low high] at acked
          rw [acked]
          exact trail

theorem pass_answered {a window : Nat} (main : s.phase = .main) (stays : s.stays = true)
    (unread : (s.fdSet && fdReady) = false)
    (h : s.pass total fdReady (some (a, window)) = .ok (s', out)) : out = [] := by
  obtain ⟨it, it', read, timed, -, rfl⟩ := pass_stayed main stays h
  have same : it = s.begin := by
    rcases filePart_cases read with ⟨-, same⟩ | ⟨set, -, -⟩ | ⟨set, -, -, -⟩
    · exact same
    · rw [show (s.begin.sender.fdSet && fdReady) = false from unread] at set
      cases set
    · rw [show (s.begin.sender.fdSet && fdReady) = false from unread] at set
      cases set
  rw [same] at timed
  cases timed
  rfl

end Sender

/-! ## Runs without loss -/

/-- What a run without loss keeps of the ACKs and the end packets. -/
structure Completing (file : Bool) (total : Nat) (n : State) : Prop extends Exact file total n where
  acks : n.snd.phase = .main → AckTrail n.snd.acked n.toSnd n.rcv.done
  ends : n.rcv.endFile = true → n.snd.phase ≠ .main
  unanswered : n.snd.phase = .closing → n.rcv.count ≤ n.toSnd.length
  waiting : n.rcv.endFile = false → n.rcv.count = 0 ∧ n.rcv.returned = false
  counted : n.rcv.count ≤ 11
  finished : n.rcv.returned = true → 11 ≤ n.rcv.count
  last : n.snd.phase = .returned → n.rcv.endFile = true ∨ .fin total ∈ n.toRcv

namespace Completing

variable {file : Bool} {total : Nat} {n n' : State}

theorem start (file : Bool) (total : Nat) : Completing file total (.start file) where
  toExact := .start file total
  acks := fun _ => .nil 0
  ends := fun ended => by cases ended
  unanswered := fun closing => by cases closing
  waiting := fun _ => ⟨rfl, rfl⟩
  counted := Nat.zero_le _
  finished := fun returned => by cases returned
  last := fun returned => by cases returned

theorem listening (h : Completing file total n) (main : n.snd.phase = .main) :
    n.rcv.listens = true ∧ n.rcv.count = 0 := by
  cases ended : n.rcv.endFile with
  | true => exact (h.ends ended main).elim
  | false =>
      obtain ⟨count, running⟩ := h.waiting ended
      simp [Receiver.listens, ended, running, count]

theorem sender (h : Completing file total n) {fdReady sfdReady : Bool} {s' : Sender}
    {out : List Item}
    (passed : n.snd.pass total fdReady
      (if sfdReady then n.toSnd.head?.map (·, receiverWindow) else none) = .ok (s', out)) :
    Completing file total
      { n with
        snd := s', toRcv := n.toRcv ++ out
        toSnd := if sfdReady && n.snd.listens then n.toSnd.tail else n.toSnd } := by
  have kept := h.toExact.sender passed (if sfdReady && n.snd.listens then n.toSnd.tail else n.toSnd)
  -- the receiver listens as long as the sender is in its main loop
  have open_ : n.snd.phase = .main → n.rcv.endFile = false := by
    intro main
    have listens := (h.listening main).1
    simp only [Receiver.listens, Bool.and_eq_true, Bool.not_eq_true'] at listens
    exact listens.2
  cases stays : n.snd.phase == .main && n.snd.stays with
  | true =>
      obtain ⟨main, stays⟩ := Bool.and_eq_true_iff.mp stays
      rw [beq_iff_eq] at main
      have heard : n.snd.listens = true := by rw [Sender.listens, main]; exact stays
      have main' := (Sender.pass_stays main stays passed).1
      refine
        { toExact := kept, acks := fun _ => ?_
          ends := fun ended => by rw [open_ main] at ended; cases ended
          unanswered := fun closing => by rw [main'] at closing; cases closing
          waiting := h.waiting, counted := h.counted, finished := h.finished
          last := fun returned => by rw [main'] at returned; cases returned }
      simp only [heard, Bool.and_true]
      exact Sender.pass_follows main stays (h.acks main) passed
  | false =>
      rcases Sender.pass_cases passed with ⟨main, staying, -⟩ | ⟨main, leaves, rfl, rfl⟩ |
        ⟨closing, rfl, rfl⟩ | ⟨gone, rfl, rfl⟩
      · simp [main, staying] at stays
      · have deaf : n.snd.listens = false := by rw [Sender.listens, main]; exact leaves
        have count := (h.listening main).2
        exact
          { toExact := kept
            acks := fun again => by cases again
            ends := fun _ again => by cases again
            unanswered := fun _ => count ▸ Nat.zero_le _
            waiting := h.waiting, counted := h.counted, finished := h.finished
            last := fun returned => by cases returned }
      · have sent : n.snd.sent = total := h.steady.ended (h.steady.left (by simp [closing]))
        have heard : n.snd.listens = true := by rw [Sender.listens, closing]
        have few := h.unanswered closing
        cases answered : (if sfdReady then n.toSnd.head?.map (·, receiverWindow) else none).isSome with
        | true =>
            simp only [answered, if_true] at kept ⊢
            exact
              { toExact := kept
                acks := fun again => by cases again
                ends := fun _ again => by cases again
                unanswered := fun again => by cases again
                waiting := h.waiting, counted := h.counted, finished := h.finished
                last := fun _ => .inr (List.mem_append.mpr (.inr (by rw [sent]; exact .head _))) }
        | false =>
            simp only [answered, Bool.false_eq_true, if_false] at kept ⊢
            -- nothing was read, so no ACK is missing
            have same : (if sfdReady && n.snd.listens then n.toSnd.tail else n.toSnd) = n.toSnd := by
              cases sfdReady with
              | false => rfl
              | true =>
                  cases toSnd : n.toSnd with
                  | nil => simp
                  | cons first rest => simp [toSnd] at answered
            rw [same] at kept ⊢
            exact
              { toExact := kept
                acks := fun again => by simp [closing] at again
                ends := fun _ again => by simp [closing] at again
                unanswered := fun _ => few
                waiting := h.waiting, counted := h.counted, finished := h.finished
                last := fun returned => by simp [closing] at returned }
      · have deaf : n.snd.listens = false := by rw [Sender.listens, gone]
        exact
          { toExact := kept
            acks := fun again => by simp [gone] at again
            ends := fun _ again => by simp [gone] at again
            unanswered := fun again => by simp [gone] at again
            waiting := h.waiting, counted := h.counted, finished := h.finished
            last := fun _ => (h.last gone).imp_right fun member => List.mem_append_left _ member }

/-- A receiver that has read the end packet answers, and counts its answers. -/
theorem receiver_left (h : Completing file total n) (deaf : n.rcv.listens = false)
    {arrival : Option Item} {r' : Receiver} {acks : List Nat}
    (passed : n.rcv.pass arrival = .ok (r', acks))
    (kept : Exact file total { n with rcv := r', toSnd := n.toSnd ++ acks }) :
    Completing file total { n with rcv := r', toSnd := n.toSnd ++ acks } := by
  have left : n.rcv.endFile = true := by
    cases ended : n.rcv.endFile with
    | true => rfl
    | false => simp [Receiver.listens, ended, (h.waiting ended).2] at deaf
  have notMain := h.ends left
  rcases Receiver.pass_last deaf passed with ⟨returned, rfl, rfl⟩ |
    ⟨-, -, ⟨few, rfl, rfl⟩ | ⟨enough, rfl, rfl⟩⟩
  · rw [List.append_nil] at kept ⊢
    exact { h with toExact := kept }
  · refine
      { toExact := kept
        acks := fun main => (notMain main).elim
        ends := fun _ => notMain
        unanswered := fun closing => ?_
        waiting := fun open_ => by simp [left] at open_
        counted := few
        finished := fun returned => Nat.le_succ_of_le (h.finished returned)
        last := fun _ => .inl left }
    have := h.unanswered closing
    simp only [List.length_append, List.length_singleton]
    omega
  · rw [List.append_nil] at kept ⊢
    exact
      { toExact := kept
        acks := fun main => (notMain main).elim
        ends := fun _ => notMain
        unanswered := h.unanswered
        waiting := fun open_ => by simp [left] at open_
        counted := h.counted
        finished := fun _ => enough
        last := fun _ => .inl left }

/-- A receiver that listens takes the first datagram and answers it, or reads the end packet. -/
theorem receiver_heard (h : Completing file total n) (listens : n.rcv.listens = true)
    {item : Item} {rest : List Item} (toRcv : n.toRcv = item :: rest) {r' : Receiver}
    {acks : List Nat} (passed : n.rcv.pass (some item) = .ok (r', acks))
    (kept : Exact file total { n with rcv := r', toRcv := rest, toSnd := n.toSnd ++ acks }) :
    Completing file total { n with rcv := r', toRcv := rest, toSnd := n.toSnd ++ acks } := by
  have open_ : n.rcv.endFile = false := by
    simp only [Receiver.listens, Bool.and_eq_true, Bool.not_eq_true'] at listens
    exact listens.2
  obtain ⟨count, running⟩ := h.waiting open_
  rcases Receiver.pass_heard h.level listens (toRcv ▸ h.trail) passed with
    ⟨segment, rfl, low, high, ended, counted, returned⟩ | ⟨rfl, rfl, rfl⟩
  · refine
      { toExact := kept
        acks := fun main => (h.acks main).snoc low (by omega)
        ends := fun left => by simp [ended, open_] at left
        unanswered := fun _ => ?_
        waiting := fun _ => ⟨counted.trans count, returned.trans running⟩
        counted := counted ▸ h.counted
        finished := fun left => by simp [returned, running] at left
        last := fun gone => .inr ?_ }
    · rw [counted, count]
      exact Nat.zero_le _
    · rcases h.last gone with left | member
      · simp [open_] at left
      · rw [toRcv] at member
        exact (List.mem_cons.mp member).resolve_left (segment _ ·.symm)
  · have emits : n.snd.Emits (.fin n.rcv.done) :=
      h.sends.emitted _ (toRcv ▸ List.mem_cons_self)
    have notMain : n.snd.phase ≠ .main := emits.2
    rw [List.append_nil] at kept ⊢
    exact
      { toExact := kept
        acks := fun main => (notMain main).elim
        ends := fun _ => notMain
        unanswered := fun _ => count ▸ Nat.zero_le _
        waiting := fun open_ => by cases open_
        counted := h.counted
        finished := fun left => by simp [running] at left
        last := fun _ => .inl rfl }

theorem receiver (h : Completing file total n) {arrives : Bool} {r' : Receiver} {acks : List Nat}
    (passed : n.rcv.pass (if arrives then n.toRcv.head? else none) = .ok (r', acks)) :
    Completing file total
      { n with
        rcv := r'
        toRcv := if arrives && n.rcv.listens then n.toRcv.tail else n.toRcv
        toSnd := n.toSnd ++ acks } := by
  obtain ⟨r'', acks', passed', kept⟩ := h.toExact.receiver arrives
  rw [passed] at passed'
  cases passed'
  cases listens : n.rcv.listens with
  | false =>
      simp only [listens, Bool.and_false] at kept ⊢
      exact h.receiver_left listens passed kept
  | true =>
      have quiet : n.rcv.pass none = .ok (r', acks) →
          Exact file total { n with rcv := r', toSnd := n.toSnd ++ acks } →
          Completing file total { n with rcv := r', toSnd := n.toSnd ++ acks } := by
        intro passed kept
        rw [Receiver.pass_none listens] at passed
        cases passed
        rw [List.append_nil] at kept ⊢
        exact { h with toExact := kept }
      simp only [listens, Bool.and_true] at kept ⊢
      cases arrives with
      | false => exact quiet passed kept
      | true =>
          cases toRcv : n.toRcv with
          | nil =>
              simp only [toRcv, if_true, List.tail_nil] at passed kept ⊢
              rw [← toRcv] at kept ⊢
              exact quiet passed kept
          | cons item rest =>
              simp only [toRcv] at passed kept
              exact h.receiver_heard listens toRcv passed kept

theorem step (h : Completing file total n) {event : Event} (next : n.step total event = .ok n')
    (lossless : event.Lossless file) : Completing file total n' := by
  cases event with
  | sender fdReady sfdReady _ _ _ _ =>
      obtain ⟨⟨s', out⟩, passed, rest⟩ := bind_eq_ok.mp next
      cases rest
      exact h.sender passed
  | receiver arrives _ _ =>
      obtain ⟨⟨r', acks⟩, passed, rest⟩ := bind_eq_ok.mp next
      cases rest
      exact h.receiver passed
  | loseData i => exact lossless.elim
  | loseAck i => exact lossless.elim

theorem of_reachable
    (h : ((system file total).restrict fun _ event => event.Lossless file).Reachable n) :
    Completing file total n :=
  h.induct (fun _ starts => starts ▸ start file total) fun _ _ _ inv next => inv.step next.1 next.2

end Completing

end Protocol

end SegmentTransfer
