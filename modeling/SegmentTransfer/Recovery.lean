import SegmentTransfer.Resumable

/-! # Which losses are made good

Only the timer sends a segment again, and only in a pass of the main loop that
reads nothing. A regular file can always be read, so the timer waits for a full
window. While two chunks are left to fill it, and its numbers are not those at
which it never looks full, any loss is made good: the timer sends the oldest
segment outstanding, the receiver writes it and whatever it held, and the ACK
takes the sender on.
-/

namespace SegmentTransfer

open Outcome

namespace Protocol

/-- Nothing is in flight to the receiver, and it lacks no segment from `first` on. -/
structure Mending (total first : Nat) (n : State) : Prop extends Resumable total n where
  arrived : n.toRcv = []
  sent : first ≤ n.snd.sent
  close : first ≤ n.snd.acked + 3
  behind : n.rcv.done < first ∨ n.snd.sent = first
  has : ∀ m, first ≤ m → m < n.snd.sent → n.rcv.Has m

theorem Resumable.leads_arrived {total : Nat} {n : State} (h : Resumable total n) :
    ((system true total).restrict fun _ event => event.Lossless true).Leads
      (Mending total n.snd.sent) n := by
  refine Transition.Leads.descend (I := fun n' => Resumable total n' ∧ n'.snd = n.snd)
    (fun n' => n'.toRcv.length) ?_ ⟨h, rfl⟩
  rintro m ⟨h, same⟩
  cases toRcv : m.toRcv with
  | nil =>
      refine .inl { toResumable := h, arrived := toRcv, sent := by rw [same], close := ?_
                    behind := .inr (by rw [same]), has := fun k late before => ?_ }
      · rw [← same]
        exact h.delivering.near
      · rw [same] at before
        omega
  | cons item rest =>
      obtain ⟨k, mark, r', rfl, drained⟩ := h.first toRcv
      obtain ⟨next, kept⟩ := h.receives toRcv drained
      refine .inr ⟨_, _, ⟨next, trivial⟩, ⟨kept, same⟩, ?_⟩
      simp only [List.length_cons]
      omega

namespace Mending

variable {total first : Nat} {n : State}

theorem lacking (h : Mending total first n) :
    n.snd.acked ≤ n.rcv.done ∧ (n.rcv.done < first ∨ n.rcv.done = n.snd.sent) :=
  ⟨h.delivering.acknowledged.behind, Receiver.missing_early h.delivering.ordered h.has⟩

theorem room (h : Mending total first n)
    (numbers : ∀ m < first, first ≤ m + 3 → m % 256 < 253) (notFull : n.snd.isNotFull = true) :
    n.snd.sent < n.snd.acked + n.snd.window := by
  have open_ := of_decide_eq_true notFull
  have positive := h.ringed.positive
  have acked := h.ringed.acked
  have near := h.delivering.near
  have close := h.close
  obtain ⟨behind, lacking⟩ := h.lacking
  have low : n.snd.acked < first → n.snd.acked % 256 < 253 := fun old => numbers _ old close
  have late : first ≤ n.snd.acked → n.snd.sent = first := fun late =>
    h.behind.resolve_left (by omega)
  rcases h.ringed.window with ⟨-, window, zero, few, -⟩ | ⟨-, window⟩
  · rw [window] at open_ ⊢
    rw [zero] at open_
    omega
  · rw [show max 1 3 = 3 from rfl] at window
    rw [window] at open_ ⊢
    omega

/-- With a lost segment outstanding, a chunk that is read reaches the receiver. -/
theorem leads_filled (h : Mending total first n) (enough : first + 2 ≤ total)
    (long : total + 1 < 2 ^ 31) (numbers : ∀ m < first, first ≤ m + 3 → m % 256 < 253)
    (notFull : n.snd.isNotFull = true) (lost : n.rcv.done < first) :
    ((system true total).restrict fun _ event => event.Lossless true).Leads
      (fun n' => Mending total first n' ∧ n'.snd.acked = n.snd.acked ∧
        n'.snd.sent = n.snd.sent + 1 ∧ n'.rcv.done = n.rcv.done ∧
        n'.toSnd.length = n.toSnd.length + 1) n := by
  have room := h.room numbers notFull
  have sent := h.sent
  have near := h.close
  obtain ⟨behind, -⟩ := h.lacking
  have window : n.snd.window ≤ 3 := by
    rcases h.ringed.window with ⟨-, window, -⟩ | ⟨-, window⟩ <;> omega
  obtain ⟨next, resumable⟩ := h.reads notFull (by omega) long room
  rw [h.arrived, List.nil_append] at next resumable
  refine .step ⟨next, fun _ => rfl⟩ ?_
  -- it is put into its slot, for an earlier one is missing
  have small : n.rcv.done % 256 < 253 := numbers _ lost (by omega)
  have placed := Receiver.place_near (a := n.rcv) (n := n.snd.sent) (by omega) (by omega) small
  have drained := Receiver.arrival_waits h.delivering.ordered (n := n.snd.sent) (by omega)
    (by omega) (by omega)
  have done : (n.rcv.place n.snd.sent).done = n.rcv.done := by
    rw [Receiver.done, Receiver.place_written, Receiver.done]
  obtain ⟨received, resumable⟩ := resumable.receives rfl drained
  refine .step ⟨received, trivial⟩ (.here ⟨?_, rfl, rfl, done, by simp⟩)
  refine { toResumable := resumable, arrived := rfl, sent := Nat.le_succ_of_le sent, close := near
           behind := .inl (done.symm ▸ lost), has := fun m late before => ?_ }
  rcases Nat.lt_succ_iff_lt_or_eq.mp before with old | rfl
  · exact (h.has m late old).place h.delivering.ordered.toGathered (by omega) (by omega)
  · right
    show (n.rcv.place n.snd.sent).slots (n.snd.sent % 3) = some n.snd.sent
    rw [placed]
    exact Function.update_self ..

/-- The receiver answers the segment sent again with an ACK that takes the sender on. -/
theorem leads_resent (h : Mending total first n) (full : n.snd.isNotFull = false)
    (silent : n.toSnd = []) :
    ((system true total).restrict fun _ event => event.Lossless true).Leads
      (fun n' => Resumable total n' ∧ n'.snd = n.snd ∧ n'.toRcv = [] ∧
        n'.toSnd = [n'.rcv.done] ∧ n.snd.acked < n'.rcv.done ∧
        ∀ m, first ≤ m → m < n.snd.sent → n'.rcv.Has m) n := by
  obtain ⟨outstanding, -⟩ := h.unread full
  obtain ⟨behind, -⟩ := h.lacking
  have near := h.delivering.near
  have ordered := h.delivering.ordered
  have below := ordered.below
  obtain ⟨next, resumable⟩ := h.resends full
  rw [h.arrived, List.nil_append] at next resumable
  refine .step ⟨next, fun _ => rfl⟩ ?_
  obtain ⟨k, mark, r', same, drained⟩ := resumable.first rfl
  cases same
  obtain ⟨received, resumable⟩ := resumable.receives rfl drained
  refine .step ⟨received, trivial⟩ (.here ⟨resumable, rfl, rfl, ?_, ?_, fun m late before => ?_⟩)
  · show n.toSnd ++ [r'.done] = [r'.done]
    rw [silent, List.nil_append]
  · show n.snd.acked < r'.done
    rcases Nat.eq_or_lt_of_le behind with expected | written
    · have := Receiver.arrival_grows expected drained
      omega
    · have := Receiver.drain_done drained
      rw [Receiver.done, Receiver.place_written] at this
      exact Nat.lt_of_lt_of_le written this
  · have placed := (h.has m late before).place ordered.toGathered (k := n.snd.acked) (by omega)
      (by omega)
    exact placed.drain
      (Receiver.place_gathered ordered.toGathered outstanding (by omega) (by omega)) drained

theorem leads_completing (h : Mending total first n) (enough : first + 2 ≤ total)
    (long : total + 1 < 2 ^ 31) (numbers : ∀ m < first, first ≤ m + 3 → m % 256 < 253)
    (notFull : n.snd.isNotFull = true) (all : n.rcv.done = n.snd.sent) :
    ((system true total).restrict fun _ event => event.Lossless true).Leads
      (Completing true total) n := by
  have sent : n.snd.sent = first := h.behind.resolve_left (by have := h.sent; omega)
  obtain ⟨next, resumable⟩ := h.reads notFull (by omega) long (h.room numbers notFull)
  rw [h.arrived, List.nil_append] at next resumable
  refine .step ⟨next, fun _ => rfl⟩ ?_
  obtain ⟨k, mark, r', same, drained⟩ := resumable.first rfl
  cases same
  obtain ⟨received, resumable⟩ := resumable.receives rfl drained
  refine .step ⟨received, trivial⟩ (.here (resumable.completing rfl ?_ rfl))
  have grown := Receiver.arrival_grows all.symm drained
  have below : r'.done ≤ n.snd.sent + 1 := resumable.delivering.ordered.below
  show r'.done = n.snd.sent + 1
  omega

/-- How far the sender is from `first`, then what it still reads or handles before the timer. -/
def left (first : Nat) (n : State) : ℕ ×ₗ ℕ :=
  toLex (first - n.snd.acked, 2 * (n.rcv.done + 3 - n.snd.sent) + n.toSnd.length)

theorem left_lt {n' : State} (h : first - n'.snd.acked < first - n.snd.acked ∨
    first - n'.snd.acked = first - n.snd.acked ∧
      2 * (n'.rcv.done + 3 - n'.snd.sent) + n'.toSnd.length <
        2 * (n.rcv.done + 3 - n.snd.sent) + n.toSnd.length) : left first n' < left first n := by
  simpa only [left, Prod.Lex.toLex_lt_toLex] using h

theorem answered (h : Mending total first n) (full : n.snd.isNotFull = false) {a : Nat}
    {acks : List Nat} (toSnd : n.toSnd = a :: acks) :
    ∃ n', n.step total .both = .ok n' ∧ Mending total first n' ∧ n'.snd.acked = a ∧
      n.snd.acked ≤ a ∧ n'.snd.sent = n.snd.sent ∧ n'.rcv = n.rcv ∧ n'.toSnd = acks := by
  obtain ⟨s', next, sent, acked, resumable⟩ := h.answers full toSnd
  have low := (h.delivering.acknowledged.between a (toSnd ▸ List.mem_cons_self)).1
  have close := h.close
  refine ⟨_, next, ?_, acked, low, sent, rfl, rfl⟩
  exact
    { toResumable := resumable, arrived := h.arrived, sent := sent.symm ▸ h.sent
      close := by
        show first ≤ s'.acked + 3
        omega
      behind := h.behind.imp_right sent.trans
      has := fun m late before => h.has m late (sent ▸ before) }

/-- Until nothing is missing the programs get on. -/
theorem progress (h : Mending total first n) (enough : first + 2 ≤ total)
    (long : total + 1 < 2 ^ 31) (numbers : ∀ m < first, first ≤ m + 3 → m % 256 < 253) :
    ((system true total).restrict fun _ event => event.Lossless true).Leads
      (fun n' => Completing true total n' ∨ Mending total first n' ∧ left first n' < left first n)
      n := by
  obtain ⟨behind, lacking⟩ := h.lacking
  cases full : n.snd.isNotFull with
  | true =>
      rcases lacking with lost | all
      · refine (h.leads_filled enough long numbers full lost).mono ?_
        rintro n' ⟨kept, acked, sent, done, acks⟩
        have room := h.room numbers full
        have window : n.snd.window ≤ 3 := by
          rcases h.ringed.window with ⟨-, window, -⟩ | ⟨-, window⟩ <;> omega
        exact .inr ⟨kept, left_lt (.inr ⟨by rw [acked], by omega⟩)⟩
      · exact (h.leads_completing enough long numbers full all).mono fun n' => .inl
  | false =>
      cases toSnd : n.toSnd with
      | cons a acks =>
          obtain ⟨n', next, kept, acked, low, sent, rcv, toSnd'⟩ := h.answered full toSnd
          refine .step ⟨next, fun _ => rfl⟩ (.here (.inr ⟨kept, left_lt ?_⟩))
          rw [rcv, sent, acked, toSnd', toSnd, List.length_cons]
          omega
      | nil =>
          refine (h.leads_resent full toSnd).trans ?_
          rintro n' ⟨resumable, snd, arrived, answer, further, has⟩
          rcases Receiver.missing_early resumable.delivering.ordered (snd ▸ has) with lost | all
          · -- more was lost: the ACK makes room for the next round
            have mending : Mending total first n' :=
              { toResumable := resumable, arrived := arrived, sent := snd ▸ h.sent
                close := snd ▸ h.close, behind := .inl lost, has := snd ▸ has }
            obtain ⟨n'', next, kept, acked, -⟩ := mending.answered (snd ▸ full) answer
            exact .step ⟨next, fun _ => rfl⟩ (.here (.inr ⟨kept, left_lt (.inl (by omega))⟩))
          · have answered : n'.toSnd = [] ++ [n'.rcv.done] := answer
            exact .here (.inl (resumable.completing arrived all answered))

end Mending

theorem Resumable.leads_returned {total : Nat} {n : State} (h : Resumable total n)
    (enough : 3 ≤ total) (long : total + 1 < 2 ^ 31) (more : n.snd.sent + 2 ≤ total)
    (numbers : ∀ m < n.snd.sent, n.snd.sent ≤ m + 3 → m % 256 < 253) :
    ((system true total).restrict fun _ event => event.Lossless true).Leads
      (fun n => Completing true total n ∧ n.snd.phase = .returned ∧ n.rcv.returned = true) n := by
  have mended : ((system true total).restrict fun _ event => event.Lossless true).Leads
      (Completing true total) n :=
    h.leads_arrived.trans fun m mending =>
      .rounds (Mending.left n.snd.sent) (fun _ kept => kept.progress more long numbers) mending
  exact mended.trans fun m completing => completing.leads_returned (fun _ => enough) long

/-- What the runs of the protocol that read inside the window have besides. -/
structure Tended (file : Bool) (total : Nat) (n : State) : Prop where
  sameFile : n.snd.file = file
  delivering : Delivering total n
  ringed : n.snd.Ringed 3
  busy : n.snd.endFile = false → 0 < n.snd.sent → n.snd.bufferEmpty = true
  ends : n.rcv.endFile = true → n.snd.phase ≠ .main
  waiting : n.rcv.endFile = false → n.rcv.count = 0 ∧ n.rcv.returned = false

namespace Tended

variable {file : Bool} {total : Nat} {n n' : State}

theorem start (file : Bool) (total : Nat) : Tended file total (.start file) where
  sameFile := rfl
  delivering := .start file total
  ringed := .start 3 file
  busy := fun _ sent => by cases sent
  ends := fun ended => by cases ended
  waiting := fun _ => ⟨rfl, rfl⟩

theorem step (h : Tended file total n) {event : Event} (next : n.step total event = .ok n')
    (room : n.ReadsInWindow total event) : Tended file total n' := by
  have delivering := h.delivering.step next room
  cases event with
  | sender fdReady sfdReady _ _ _ _ =>
      obtain ⟨⟨s', out⟩, passed, rest⟩ := bind_eq_ok.mp next
      cases rest
      refine
        { sameFile := (Sender.pass_trail h.delivering.steady passed).2.trans h.sameFile
          delivering := delivering, ringed := h.ringed.pass ?_ passed
          busy := Sender.pass_busy h.busy passed
          ends := fun ended => Sender.pass_left (h.ends ended) passed, waiting := h.waiting }
      intro a window reply
      have member : a ∈ n.toSnd := by
        cases sfdReady with
        | false => cases reply
        | true =>
            obtain ⟨b, first, same⟩ := Option.map_eq_some_iff.mp reply
            cases same
            exact List.mem_of_mem_head? first
      obtain ⟨low, high⟩ := h.delivering.acknowledged.between a member
      have near := h.delivering.near
      have below := h.delivering.ordered.below
      exact ⟨advertised_by_receiver reply, low, high.trans below, by omega⟩
  | receiver arrives _ _ =>
      obtain ⟨⟨r', acks⟩, passed, rest⟩ := bind_eq_ok.mp next
      cases rest
      -- a datagram that is taken is the first in flight
      have first : ∀ item, (if arrives then n.toRcv.head? else none) = some item →
          ∃ rest, n.toRcv = item :: rest := by
        intro item arrival
        cases arrives with
        | false => cases arrival
        | true => exact List.head?_eq_some_iff.mp arrival
      rcases Receiver.pass_cases passed with ⟨-, k, mark, arrival, drained, -⟩ |
        ⟨-, k, arrival, rfl, -⟩ | ⟨quiet, -, -, same, -⟩
      · obtain ⟨rest, toRcv⟩ := first _ arrival
        obtain ⟨-, ended, counted, returned⟩ := h.delivering.arrival toRcv drained
        exact
          { sameFile := h.sameFile, delivering := delivering, ringed := h.ringed, busy := h.busy
            ends := fun left => h.ends (ended ▸ left)
            waiting := fun open_ => counted ▸ returned ▸ h.waiting (ended ▸ open_) }
      · obtain ⟨rest, toRcv⟩ := first _ arrival
        have emits : n.snd.Emits (.fin k) :=
          h.delivering.sends.emitted _ (toRcv ▸ List.mem_cons_self)
        exact
          { sameFile := h.sameFile, delivering := delivering, ringed := h.ringed, busy := h.busy
            ends := fun _ => emits.2
            waiting := fun open_ => by cases open_ }
      · refine
          { sameFile := h.sameFile, delivering := delivering, ringed := h.ringed, busy := h.busy
            ends := fun left => h.ends (same ▸ left)
            waiting := fun open_ => ?_ }
        have listening : n.rcv.endFile = false := same ▸ open_
        obtain ⟨count, running⟩ := h.waiting listening
        have listens : n.rcv.listens = true := by simp [Receiver.listens, listening, running]
        rw [quiet.resolve_left (by simp [listens]), Receiver.pass_none listens] at passed
        cases passed
        exact ⟨count, running⟩
  | loseData i =>
      cases next
      exact { h with delivering := delivering }
  | loseAck i =>
      cases next
      exact { h with delivering := delivering }

theorem of_reachable
    (h : ((system file total).restrict (State.ReadsInWindow total)).Reachable n) : Tended file total n :=
  h.induct (fun _ starts => starts ▸ start file total) fun _ _ _ inv next => inv.step next.1 next.2

theorem resumable (h : Tended true total n) (main : n.snd.phase = .main)
    (open_ : n.snd.endFile = false) : Resumable total n := by
  have running : n.rcv.endFile = false := by
    cases ended : n.rcv.endFile with
    | false => rfl
    | true => exact (h.ends ended main).elim
  exact
    { delivering := h.delivering, ringed := h.ringed, file := h.sameFile
      main := main, open_ := open_, busy := h.busy open_
      listening := ⟨running, h.waiting running⟩ }

end Tended

end Protocol

/-! ## The programs -/

section

variable {crc32 : List UInt8 → UInt32} {input : List (List UInt8)} {n : Network}

theorem Network.resumable (readable : Readable input)
    (reach : ((network crc32 true input).restrict Network.ReadsInWindow).Reachable n)
    (main : n.snd.phase = .main) (open_ : n.snd.endFile = false) :
    ∃ a, Protocol.Resumable input.length a ∧ n.Shows crc32 input a := by
  obtain ⟨a, reach', shown⟩ := ((follows crc32 true readable).restrict Network.ReadsInWindow
    (Protocol.State.ReadsInWindow input.length)
    fun _ _ _ shown => shown.readsInWindow.mp).reachable reach
  exact ⟨a, (Protocol.Tended.of_reachable reach').resumable (shown.snd.phase.symm.trans main)
    (shown.snd.endFile.symm.trans open_), shown⟩

/-- Whatever was lost while chunks were only read inside the window, a run without loss can take
    both programs to their end with the whole input in the output: as long as the sender is in its
    main loop, two chunks at least of the file given by name are left, and the last three segments
    it sent have numbers below 253. -/
theorem loss_repaired (readable : Readable input) (enough : 3 ≤ input.length)
    (long : input.length + 1 < 2 ^ 31)
    (reach : ((network crc32 true input).restrict Network.ReadsInWindow).Reachable n)
    (main : n.snd.phase = .main) (open_ : n.snd.endFile = false)
    (more : n.snd.seqInd + 2 ≤ input.length)
    (numbers : ∀ m < n.snd.seqInd, n.snd.seqInd ≤ m + 3 → m % 256 < 253) :
    ((network crc32 true input).restrict fun _ event => event.Lossless true).Leads
      (fun n => n.snd.phase = .returned ∧ n.rcv.returned = true ∧ n.output = input.flatten) n := by
  obtain ⟨a, resumable, shown⟩ := Network.resumable readable reach main open_
  rw [shown.snd.seqInd] at more numbers
  exact shown.leads_complete readable (resumable.leads_returned enough long more numbers)

/-- Of a file of six chunks the second and the third were lost, and everything is received. -/
theorem loss_repaired_sample : ∃ n : Network, n.snd.phase = .returned ∧ n.rcv.returned = true ∧
    n.output = [5, 6, 7, 8, 9, 10] := by
  have readable : Readable [[5], [6], [7], [8], [9], [10]] := by decide
  have begins : ((Protocol.system true 6).restrict (Protocol.State.ReadsInWindow 6)).Reachable
      (.start true) := .of_init rfl
  have first := begins.step (a := Event.reads) ⟨rfl, fun _ _ => by decide⟩
  have written := first.step (a := Event.receives) ⟨rfl, trivial⟩
  have answered := written.step (a := Event.both) ⟨rfl, fun wants => by cases wants⟩
  have second := answered.step (a := Event.reads) ⟨rfl, fun _ _ => by decide⟩
  have third := second.step (a := Event.reads) ⟨rfl, fun _ _ => by decide⟩
  have lost := third.step (a := Event.loseData 0) ⟨rfl, trivial⟩
  have gone := lost.step (a := Event.loseData 0) ⟨rfl, trivial⟩
  obtain ⟨n, reach, shown⟩ := ((followed Crc.crc32 true readable).restrict
    (Protocol.State.ReadsInWindow 6) Network.ReadsInWindow
    fun _ _ _ shown => shown.readsInWindow.mpr).reachable gone
  have sent : n.snd.seqInd = 3 := shown.snd.seqInd
  obtain ⟨-, n', -, done⟩ := loss_repaired readable (by decide) (by decide) reach
    shown.snd.phase shown.snd.endFile (by rw [sent]; decide) (fun m _ _ => by omega)
  exact ⟨n', done⟩

end

end SegmentTransfer
