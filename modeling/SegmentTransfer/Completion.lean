import Mathlib.Data.Prod.Lex
import SegmentTransfer.Completing

/-! # A transfer that loses nothing can be completed

Wherever a run without loss has come to, the two programs can go on to the end:
the sender reads what is left, the receiver takes what is in flight and then the
end packet. The same way leads to a receiver that has returned before the sender
reads any of its last ACKs. If these are lost, the sender never returns.
-/

namespace SegmentTransfer

open Outcome

/-- Nothing is lost but ACKs, and a regular file can always be read. -/
def Event.AcksLost (file : Bool) : Event → Prop
  | .sender fdReady _ _ _ _ _ => file = true → fdReady = true
  | .receiver _ _ _ => True
  | .loseData _ => False
  | .loseAck _ => True

theorem Event.Lossless.acksLost {file : Bool} {event : Event} (h : event.Lossless file) :
    event.AcksLost file := by
  cases event with
  | sender => exact h
  | receiver => trivial
  | loseData => exact h
  | loseAck => trivial

/-- A pass of the sender that reads the file and the socket. -/
def Event.both : Event := .sender true true ⟨0, 0⟩ ⟨0, 0⟩ ⟨0, 0⟩ fun _ => 0

namespace Protocol

/-! ## What is left to do -/

/-- The passes the receiver still makes after the end packet, and one for taking it. -/
def Receiver.toGo (r : Receiver) : Nat :=
  if r.returned then 0 else if r.endFile then 12 - r.count else 13

/-- What the sender still reads, with the end of the file and the step out of the loop. -/
def State.unread (total : Nat) (n : State) : Nat :=
  total - n.snd.sent + (if n.snd.endFile then 0 else 1) + (if n.snd.phase = .main then 1 else 0)

/-- The datagrams in flight; the end packet counts from the moment it is due. -/
def State.flight (total : Nat) (n : State) : Nat :=
  2 * n.toRcv.length + n.toSnd.length +
    if n.snd.phase = .closing ∧ .fin total ∉ n.toRcv then 3 else 0

def State.left (total : Nat) (n : State) : ℕ ×ₗ ℕ ×ₗ ℕ :=
  toLex (n.unread total, toLex (n.rcv.toGo, n.flight total))

theorem State.left_lt {total : Nat} {n n' : State}
    (h : n'.unread total < n.unread total ∨ n'.unread total = n.unread total ∧
      (n'.rcv.toGo < n.rcv.toGo ∨ n'.rcv.toGo = n.rcv.toGo ∧ n'.flight total < n.flight total)) :
    n'.left total < n.left total := by
  simpa only [State.left, Prod.Lex.toLex_lt_toLex] using h

namespace Completing

variable {file : Bool} {total : Nat} {n : State}

/-- Some step that loses nothing leaves less to do, and the sender does not return in it. -/
def Goes (file : Bool) (total : Nat) (n : State) : Prop :=
  ∃ event n', (n.step total event = .ok n' ∧ event.Lossless file) ∧ n'.left total < n.left total ∧
    (n'.snd.phase = .returned → n.snd.phase = .returned)

theorem goes (h : Completing file total n) (enough : file = true → 3 ≤ total)
    (long : total + 1 < 2 ^ 31) (event : Event) (lossless : event.Lossless file)
    (less : ∀ n', n.step total event = .ok n' → n'.left total < n.left total ∧
      (n'.snd.phase = .returned → n.snd.phase = .returned)) : Goes file total n := by
  cases next : n.step total event with
  | ok n' => exact ⟨event, n', ⟨next, lossless⟩, less n' next⟩
  | error fault =>
      have overflow := (h.fault enough lossless next).2
      have sent := h.steady.sent
      omega

theorem receives (h : Completing file total n) (enough : file = true → 3 ≤ total)
    (long : total + 1 < 2 ^ 31) (listens : n.rcv.listens = true) (some : n.toRcv ≠ []) :
    Goes file total n := by
  refine h.goes enough long .receives trivial fun n' next => ?_
  obtain ⟨⟨r', acks⟩, passed, rest⟩ := bind_eq_ok.mp next
  cases rest
  obtain ⟨item, rest, toRcv⟩ := List.exists_cons_of_ne_nil some
  have trail := h.trail
  simp only [toRcv, if_true, List.head?_cons] at trail passed
  have open_ : n.rcv.endFile = false := by
    simp only [Receiver.listens, Bool.and_eq_true, Bool.not_eq_true'] at listens
    exact listens.2
  obtain ⟨count, running⟩ := h.waiting open_
  simp only [listens, Bool.and_true, if_true, toRcv, List.tail_cons]
  refine ⟨State.left_lt (.inr ⟨rfl, ?_⟩), id⟩
  rcases Receiver.pass_heard h.level listens trail passed with
    ⟨segment, rfl, -, -, ended, counted, returned⟩ | ⟨rfl, rfl, rfl⟩
  · have kept : Item.fin total ∈ item :: rest ↔ Item.fin total ∈ rest := by
      simp only [List.mem_cons, (segment total).symm, false_or]
    refine .inr ⟨by simp only [Receiver.toGo, ended, counted, returned], ?_⟩
    simp only [State.flight, toRcv, kept, List.length_cons, List.length_append, List.length_nil]
    omega
  · refine .inl ?_
    simp only [Receiver.toGo, running, open_, count, Bool.false_eq_true, if_false, if_true]
    decide

theorem returns (h : Completing file total n) (enough : file = true → 3 ≤ total)
    (long : total + 1 < 2 ^ 31) (ended : n.rcv.endFile = true) (running : n.rcv.returned = false) :
    Goes file total n := by
  refine h.goes enough long .receives trivial fun n' next => ?_
  obtain ⟨⟨r', acks⟩, passed, rest⟩ := bind_eq_ok.mp next
  cases rest
  have deaf : n.rcv.listens = false := by simp [Receiver.listens, ended]
  refine ⟨State.left_lt (.inr ⟨rfl, .inl ?_⟩), id⟩
  rcases Receiver.pass_last deaf passed with ⟨returned, -, -⟩ | ⟨-, -, rest⟩
  · rw [running] at returned
    cases returned
  · have counted := h.counted
    rcases rest with ⟨few, rfl, -⟩ | ⟨-, rfl, -⟩
    all_goals
      simp only [Receiver.toGo, running, ended, Bool.false_eq_true, if_false, if_true]
      omega

/-- In its main loop the sender reads, waits for an ACK or leaves it. -/
theorem main_goes (h : Completing file total n) (enough : file = true → 3 ≤ total)
    (long : total + 1 < 2 ^ 31) (main : n.snd.phase = .main) : Goes file total n := by
  have sent := h.steady.sent
  cases ended : n.snd.endFile with
  | true =>
      have leaves : n.snd.stays = false := by simp [Sender.stays, ended]
      refine h.goes enough long .reads (fun _ => rfl) fun n' next => ?_
      obtain ⟨⟨s', out⟩, passed, rest⟩ := bind_eq_ok.mp next
      cases rest
      rcases Sender.pass_cases passed with ⟨-, stays, -⟩ | ⟨-, -, rfl, -⟩ | ⟨closing, -, -⟩ |
        ⟨gone, -, -⟩
      · rw [leaves] at stays
        cases stays
      · refine ⟨State.left_lt (.inl ?_), fun gone => by cases gone⟩
        simp [State.unread, main]
      · rw [main] at closing
        cases closing
      · rw [main] at gone
        cases gone
  | false =>
      have stays : n.snd.stays = true := by simp [Sender.stays, ended]
      have heard : n.snd.listens = true := by rw [Sender.listens, main]; exact stays
      have wants : n.snd.wants = n.snd.fdSet := by
        simp only [Sender.wants, main, stays, beq_self_eq_true, Bool.true_and]
      cases set : n.snd.fdSet with
      | true =>
          refine h.goes enough long .reads (fun _ => rfl) fun n' next => ?_
          obtain ⟨⟨s', out⟩, passed, rest⟩ := bind_eq_ok.mp next
          cases rest
          have read := Sender.pass_sent passed
          obtain ⟨main', ended'⟩ := Sender.pass_stays main stays passed
          simp only [wants, set, ended, Bool.true_and, true_and, Bool.false_eq_true, false_or] at read ended'
          refine ⟨State.left_lt (.inl ?_), fun gone => by simp [main'] at gone⟩
          simp only [State.unread, main, main', ended]
          by_cases last : n.snd.sent = total
          · simp [read, last, ended'.mpr last]
          · rw [if_pos last] at read
            have open_ : s'.endFile = false := by simpa [last] using ended'
            simp only [read, open_, Bool.false_eq_true, if_false]
            omega
      | false =>
          cases toSnd : n.toSnd with
          | cons first rest =>
              refine h.goes enough long .both (fun _ => rfl) fun n' next => ?_
              obtain ⟨⟨s', out⟩, passed, last⟩ := bind_eq_ok.mp next
              cases last
              have read := Sender.pass_sent passed
              obtain ⟨main', ended'⟩ := Sender.pass_stays main stays passed
              simp only [wants, set, ended, Bool.and_false, Bool.false_eq_true, false_and, if_false,
                or_self, iff_false, Bool.not_eq_true] at read ended'
              simp only [if_true, toSnd, List.head?_cons, Option.map_some] at passed
              obtain rfl := Sender.pass_answered main stays (by rw [set, Bool.false_and]) passed
              refine ⟨State.left_lt (.inr ⟨?_, .inr ⟨rfl, ?_⟩⟩), fun gone => by simp [main'] at gone⟩
              · simp only [State.unread, read, ended', ended, main', main]
              · simp [State.flight, heard, toSnd, main', main]
          | nil =>
              -- the window is full, so a segment is still on its way to the receiver
              have acked := h.acks main
              rw [toSnd] at acked
              have full : n.snd.isNotFull = false := by
                simp only [Sender.fdSet, ended, Bool.not_false, Bool.true_and,
                  Bool.or_eq_false_iff] at set
                exact set.2
              have room := of_decide_eq_false full
              have positive : 0 < n.snd.window := Nat.zero_lt_of_lt h.steady.inside
              refine h.receives enough long (h.listening main).1 fun toRcv => ?_
              have trail := h.trail
              rw [toRcv] at trail
              generalize n.rcv.done = d, n.snd.acked = a, n.snd.sent = m at acked trail room
              cases acked
              cases trail
              omega

theorem closing_goes (h : Completing file total n) (enough : file = true → 3 ≤ total)
    (long : total + 1 < 2 ^ 31) (left : n.snd.phase ≠ .main) (listens : n.rcv.listens = true) :
    Goes file total n := by
  by_cases due : .fin total ∈ n.toRcv
  · exact h.receives enough long listens (List.ne_nil_of_mem due)
  refine h.goes enough long .reads (fun _ => rfl) fun n' next => ?_
  obtain ⟨⟨s', out⟩, passed, rest⟩ := bind_eq_ok.mp next
  cases rest
  rcases Sender.pass_cases passed with ⟨main, -⟩ | ⟨main, -⟩ | ⟨closing, rfl, rfl⟩ | ⟨gone, -, -⟩
  · exact (left main).elim
  · exact (left main).elim
  · have sent : n.snd.sent = total := h.steady.ended (h.steady.left left)
    refine ⟨State.left_lt (.inr ⟨rfl, .inr ⟨rfl, ?_⟩⟩), fun gone => by simp [closing] at gone⟩
    simp [State.flight, closing, due, sent]
    omega
  · rcases h.last gone with ended | member
    · simp [Receiver.listens, ended] at listens
    · exact (due member).elim

theorem progress (h : Completing file total n) (enough : file = true → 3 ≤ total)
    (long : total + 1 < 2 ^ 31) :
    (n.snd.phase ≠ .main ∧ n.rcv.returned = true) ∨ Goes file total n := by
  by_cases main : n.snd.phase = .main
  · exact .inr (h.main_goes enough long main)
  · cases ended : n.rcv.endFile with
    | true =>
        cases returned : n.rcv.returned with
        | true => exact .inl ⟨main, rfl⟩
        | false => exact .inr (h.returns enough long ended returned)
    | false =>
        have running := (h.waiting ended).2
        exact .inr (h.closing_goes enough long main (by simp [Receiver.listens, ended, running]))

theorem leads (h : Completing file total n) (enough : file = true → 3 ≤ total)
    (long : total + 1 < 2 ^ 31) :
    ((system file total).restrict fun _ event => event.Lossless file).Leads
      (fun n' => Completing file total n' ∧ n'.snd.phase ≠ .main ∧ n'.rcv.returned = true ∧
        (n'.snd.phase = .returned → n.snd.phase = .returned)) n := by
  refine Transition.Leads.descend
    (I := fun n' => Completing file total n' ∧ (n'.snd.phase = .returned → n.snd.phase = .returned))
    (State.left total) ?_ ⟨h, id⟩
  rintro n' ⟨h', stays⟩
  rcases h'.progress enough long with ⟨left, returned⟩ | ⟨event, n'', next, less, stays'⟩
  · exact .inl ⟨h', left, returned, stays⟩
  · exact .inr ⟨event, n'', next, ⟨h'.step next.1 next.2, stays ∘ stays'⟩, less⟩

theorem complete_of_returned (h : Completing file total n) (returned : n.rcv.returned = true) :
    n.rcv.written = List.range n.rcv.done ∧ n.rcv.done = total := by
  refine ⟨h.level.written, h.complete ?_⟩
  cases ended : n.rcv.endFile with
  | true => rfl
  | false => rw [(h.waiting ended).2] at returned; cases returned

theorem answered (h : Completing file total n) (closing : n.snd.phase = .closing)
    (returned : n.rcv.returned = true) : n.toSnd ≠ [] := by
  intro none
  have few := h.unanswered closing
  have many := h.finished returned
  rw [none, List.length_nil] at few
  omega

theorem leads_returned (h : Completing file total n) (enough : file = true → 3 ≤ total)
    (long : total + 1 < 2 ^ 31) :
    ((system file total).restrict fun _ event => event.Lossless file).Leads
      (fun n => Completing file total n ∧ n.snd.phase = .returned ∧ n.rcv.returned = true) n := by
  refine (h.leads enough long).trans fun n ⟨h, left, returned, _⟩ => ?_
  cases phase : n.snd.phase with
  | main => exact (left phase).elim
  | returned => exact .here ⟨h, phase, returned⟩
  | closing =>
      obtain ⟨ack, acks, toSnd⟩ := List.exists_cons_of_ne_nil (h.answered phase returned)
      have next : n.step total .both = .ok
          { n with
            snd := { n.snd with phase := .returned }
            toRcv := n.toRcv ++ [.fin n.snd.sent], toSnd := acks } := by
        simp only [State.step, Event.both, if_true, toSnd, List.head?_cons, Option.map_some,
          Sender.pass, phase, Option.isSome_some, pure_eq_ok, ok_bind, Sender.listens, Bool.and_self,
          List.tail_cons]
      exact .step ⟨next, fun _ => rfl⟩ (.here ⟨h.step next fun _ => rfl, rfl, returned⟩)

end Completing

/-! ## A sender that never returns -/

/-- The receiver has returned and none of its ACKs is left for a sender that waits for one. -/
structure Stranded (n : State) : Prop where
  silent : n.rcv.returned = true
  unheard : n.toSnd = []
  closing : n.snd.phase = .closing

namespace Stranded

variable {total : Nat} {n n' : State}

theorem step (h : Stranded n) {event : Event} (next : n.step total event = .ok n') :
    Stranded n' := by
  cases event with
  | sender fdReady sfdReady _ _ _ _ =>
      obtain ⟨⟨s', out⟩, passed, rest⟩ := bind_eq_ok.mp next
      cases rest
      have none : (if sfdReady then n.toSnd.head?.map (·, receiverWindow) else none) = none := by
        simp [h.unheard]
      rw [none] at passed
      simp only [Sender.pass, h.closing, Option.isSome_none, Bool.false_eq_true, if_false,
        pure_eq_ok] at passed
      cases passed
      exact { silent := h.silent, unheard := by simp [h.unheard], closing := h.closing }
  | receiver arrives _ _ =>
      obtain ⟨⟨r', acks⟩, passed, rest⟩ := bind_eq_ok.mp next
      cases rest
      simp only [Receiver.pass, h.silent, if_true, pure_eq_ok] at passed
      cases passed
      exact { silent := h.silent, unheard := by simp [h.unheard], closing := h.closing }
  | loseData i =>
      cases next
      exact { h with }
  | loseAck i =>
      cases next
      exact { silent := h.silent, unheard := by simp [h.unheard], closing := h.closing }

theorem run (h : Stranded n) {file : Bool} {events : List Event}
    (run : (system file total).Run n events n') : Stranded n' :=
  run.preserves (fun _ _ _ inv next => inv.step next) h

end Stranded

theorem leads_unheard (file : Bool) (total : Nat) (n : State) :
    ((system file total).restrict fun _ event => event.AcksLost file).Leads
      (fun n' => n' = { n with toSnd := [] }) n := by
  refine Transition.Leads.descend (I := fun n' => { n' with toSnd := [] } = { n with toSnd := [] })
    (fun n' => n'.toSnd.length) ?_ rfl
  intro n' same
  cases toSnd : n'.toSnd with
  | nil => exact .inl (by rw [← same, ← toSnd])
  | cons ack acks =>
      exact .inr ⟨.loseAck 0, { n' with toSnd := n'.toSnd.eraseIdx 0 }, ⟨rfl, trivial⟩, same, by
        simp [toSnd]⟩

end Protocol

/-! ## The programs -/

section

variable {crc32 : List UInt8 → UInt32} {file : Bool} {input : List (List UInt8)} {n : Network}

theorem Network.completing (readable : Readable input)
    (reach : ((network crc32 file input).restrict fun _ event => event.Lossless file).Reachable n) :
    ∃ a, Protocol.Completing file input.length a ∧ n.Shows crc32 input a := by
  obtain ⟨a, reach', shown⟩ := ((follows crc32 file readable).restrict
    (fun _ event => event.Lossless file) (fun _ event => event.Lossless file)
    fun _ _ _ _ lossless => lossless).reachable reach
  exact ⟨a, .of_reachable reach', shown⟩

theorem Network.Shows.leads_complete {a : Protocol.State} (shown : n.Shows crc32 input a)
    (readable : Readable input) {C : Event → Prop}
    (leads : ((Protocol.system file input.length).restrict fun _ event => C event).Leads
      (fun a => Protocol.Completing file input.length a ∧ a.snd.phase = .returned ∧
        a.rcv.returned = true) a) :
    ((network crc32 file input).restrict fun _ event => C event).Leads
      (fun n => n.snd.phase = .returned ∧ n.rcv.returned = true ∧ n.output = input.flatten) n := by
  refine leads.transfer ((followed crc32 file readable).restrict (fun _ event => C event)
    (fun _ event => C event) fun _ _ _ _ meets => meets) shown ?_
  rintro b m shown ⟨h, gone, returned⟩
  obtain ⟨written, done⟩ := h.complete_of_returned returned
  refine ⟨shown.snd.phase.trans gone, shown.rcv.returned.trans returned, ?_⟩
  rw [shown.output written (Nat.le_of_eq done), done, List.take_length]

/-- From wherever a run without loss has come to, some run without loss takes both programs to
    their end, with the whole input in the output. -/
theorem lossless_completes (readable : Readable input) (enough : file = true → 3 ≤ input.length)
    (long : input.length + 1 < 2 ^ 31)
    (reach : ((network crc32 file input).restrict fun _ event => event.Lossless file).Reachable n) :
    ((network crc32 file input).restrict fun _ event => event.Lossless file).Leads
      (fun n => n.snd.phase = .returned ∧ n.rcv.returned = true ∧ n.output = input.flatten) n := by
  obtain ⟨a, completing, shown⟩ := Network.completing readable reach
  exact shown.leads_complete readable (completing.leads_returned enough long)

theorem starts_lossless (crc32 : List UInt8 → UInt32) (file : Bool) (input : List (List UInt8)) :
    ∃ n, ((network crc32 file input).restrict fun _ event => event.Lossless file).Reachable n ∧
      n.snd.phase = .main := by
  let memory : Pkt := ⟨0, 0, 0, 0, 0, 0, 0, .null, 0⟩
  exact ⟨_, .of_init ⟨memory, memory, memory, .replicate 528 0, .replicate 528 0, rfl⟩, rfl⟩

/-- A regular file of three chunks is transferred to the end. -/
theorem lossless_completes_sample : ∃ n : Network, n.snd.phase = .returned ∧
    n.rcv.returned = true ∧ n.output = [7, 8, 9] := by
  obtain ⟨n, reach, -⟩ := starts_lossless Crc.crc32 true [[7], [8], [9]]
  obtain ⟨-, n', -, done⟩ :=
    lossless_completes (by decide) (fun _ => by decide) (by decide) reach
  exact ⟨n', done⟩

/-- From wherever a run without loss has come to before the sender returns, the loss of ACKs alone
    can leave the output complete and the sender in its closing loop for ever. -/
theorem sender_stranded (readable : Readable input) (enough : file = true → 3 ≤ input.length)
    (long : input.length + 1 < 2 ^ 31)
    (reach : ((network crc32 file input).restrict fun _ event => event.Lossless file).Reachable n)
    (running : n.snd.phase ≠ .returned) :
    ((network crc32 file input).restrict fun _ event => event.AcksLost file).Leads
      (fun n => n.rcv.returned = true ∧ n.output = input.flatten ∧
        ∀ events n', (network crc32 file input).Run n events n' → n'.snd.phase = .closing) n := by
  obtain ⟨a, completing, shown⟩ := Network.completing readable reach
  have leads : ((Protocol.system file input.length).restrict fun _ event =>
      event.AcksLost file).Leads
      (fun b => (b.rcv.written = List.range b.rcv.done ∧ b.rcv.done = input.length) ∧
        Protocol.Stranded b) a := by
    have received := (completing.leads enough long).weaken fun _ _ lossless => lossless.acksLost
    refine received.trans fun b ⟨h, left, returned, stays⟩ => ?_
    have closing : b.snd.phase = .closing := by
      cases phase : b.snd.phase with
      | main => exact (left phase).elim
      | closing => rfl
      | returned => exact (running (shown.snd.phase.trans (stays phase))).elim
    refine (Protocol.leads_unheard file input.length b).mono ?_
    rintro c rfl
    exact ⟨h.complete_of_returned returned, returned, rfl, closing⟩
  refine leads.transfer ((followed crc32 file readable).restrict
    (fun _ event => event.AcksLost file) (fun _ event => event.AcksLost file)
    fun _ _ _ _ meets => meets) shown ?_
  rintro b m shown ⟨⟨written, done⟩, stranded⟩
  refine ⟨shown.rcv.returned.trans stranded.silent, ?_, fun events m' run => ?_⟩
  · rw [shown.output written (Nat.le_of_eq done), done, List.take_length]
  · obtain ⟨b', run', shown'⟩ := (follows crc32 file readable).run shown run
    exact shown'.snd.phase.trans (stranded.run run').closing

/-- A regular file of three chunks was transferred, and the sender goes on with its end packet. -/
theorem sender_stranded_sample : ∃ n : Network, n.rcv.returned = true ∧ n.output = [7, 8, 9] ∧
    ∀ events n', (network Crc.crc32 true [[7], [8], [9]]).Run n events n' →
      n'.snd.phase = .closing := by
  obtain ⟨n, reach, main⟩ := starts_lossless Crc.crc32 true [[7], [8], [9]]
  obtain ⟨-, n', -, stranded⟩ := sender_stranded (by decide) (fun _ => by decide) (by decide)
    reach (by simp [main])
  exact ⟨n', stranded⟩

end

end SegmentTransfer
