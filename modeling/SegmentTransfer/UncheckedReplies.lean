import SegmentTransfer.SegmentTimer
import SegmentTransfer.Replies

/-! # Replies that were not checked

`send_data` handles `pkt_ack` also when a read from the socket gives nothing.
What is there then is what was handled before, or what a datagram that was
refused has left; only if neither would move the window is it moved by checked
replies alone.
-/

namespace SegmentTransfer

open Bytes Outcome

variable {crc32 : List UInt8 → UInt32} {ready : Ready} {it it' : Iteration} {s s' : Sender}

/-- The window stands as it stood. -/
def Sender.Unmoved (s s' : Sender) : Prop :=
  s'.smallSeq = s.smallSeq ∧ s'.smallInd = s.smallInd ∧ s'.window = s.window

/-- The pass reads a datagram that `pkt_decode` accepts. -/
def Sender.Checked (crc32 : List UInt8 → UInt32) (s : Sender) (ready : Ready) : Prop :=
  ∃ d it q, ready.sfd = some (some d) ∧ filePart crc32 ready s.begin = .ok it ∧
    pktDecode crc32 (it.sender.packetEncoded.fill d) (min d.length 528) it.sender.pktAck =
      .ok (.pktOk, q)

/-- Handling the packet would move the window: it advertises a wider one, or is an ACK with another
    number than `small_seq`. -/
def Sender.Moving (s : Sender) (p : Pkt) : Prop :=
  s.window < pktGetWindow p ∨ (pktGetType p = ptypeAck ∧ s.ahead p ≠ 0)

/-- The socket is read in this pass and gives nothing, while `pkt_ack` would move the window. -/
def Sender.Leftover (s : Sender) (ready : Ready) : Prop :=
  s.stays = true ∧ ¬ (s.fdSet = true ∧ ready.fd = some none) ∧
    (ready.sfd = some none ∨ ready.sfd = some (some [])) ∧ s.Moving s.pktAck

theorem Sender.Unmoved.refl (s : Sender) : s.Unmoved s := ⟨rfl, rfl, rfl⟩

theorem Sender.Resent.unmoved {s₀ : Sender} (h : s.Resent s') : s₀.Unmoved s' ↔ s₀.Unmoved s := by
  obtain ⟨buffer, buf, phase, rfl, -⟩ := h
  rfl

/-- Reading the file leaves the window and `pkt_ack`, and the pass goes on unless the file could
    not be read. -/
theorem filePart_unmoved (h : filePart crc32 ready it = .ok it') :
    it.sender.Unmoved it'.sender ∧ it'.sender.pktAck = it.sender.pktAck ∧
      (it.sender.phase ≠ .returned →
        (it'.sender.phase = .returned ↔ it.sender.fdSet = true ∧ ready.fd = some none)) := by
  rcases filePart_cases h with ⟨unread, rfl⟩ | ⟨set, fails, rfl⟩ | ⟨-, ends, rfl⟩ |
    ⟨b, bs, -, chunk, sends⟩
  · refine ⟨.refl _, rfl, fun running => iff_of_false running ?_⟩
    rintro ⟨set, fails⟩
    rcases unread with unset | nothing
    · rw [set] at unset
      cases unset
    · rw [fails] at nothing
      cases nothing
  · exact ⟨.refl _, rfl, fun _ => iff_of_true rfl ⟨set, fails⟩⟩
  · refine ⟨.refl _, rfl, fun running => iff_of_false running ?_⟩
    rintro ⟨-, fails⟩
    rw [ends] at fails
    cases fails
  · obtain ⟨slot, -, rest⟩ := bind_eq_ok.mp sends
    obtain ⟨e, encoded, rest⟩ := bind_eq_ok.mp rest
    simp only [(pktEncode_cases encoded).1, ne_eq, not_true_eq_false, if_false] at rest
    split at rest
    · cases rest
    · cases rest
      refine ⟨.refl _, rfl, fun running => iff_of_false running ?_⟩
      rintro ⟨-, fails⟩
      rw [chunk] at fails
      cases fails

/-- What is handled was accepted in this pass, or is what a read that gave nothing left. -/
theorem handled_cases {p : Pkt} (some : handled crc32 ready it = some p) :
    (∃ d, ready.sfd = .some (.some d) ∧
        pktDecode crc32 (it.sender.packetEncoded.fill d) (min d.length 528) it.sender.pktAck =
          .ok (.pktOk, p)) ∨
      ((ready.sfd = .some none ∨ ready.sfd = .some (.some [])) ∧ p = it.sender.pktAck) := by
  cases there : ready.sfd with
  | none =>
      simp only [handled, there] at some
      cases some
  | some result =>
      simp only [handled, there] at some
      split at some
      · rename_i empty
        cases some
        refine .inr ⟨?_, rfl⟩
        cases result with
        | none => exact .inl rfl
        | some d =>
            have nothing : d = [] := by
              rw [← List.length_eq_zero_iff]
              rw [Option.getD_some] at empty
              omega
            exact .inr (congrArg _ (congrArg _ nothing))
      · rename_i nonempty
        cases result with
        | none => exact (nonempty rfl).elim
        | some d =>
            refine .inl ⟨d, rfl, ?_⟩
            rw [Option.getD_some] at some
            split at some
            · rename_i q decoded
              cases some
              exact decoded
            · cases some

theorem handled_left (nothing : ready.sfd = some none ∨ ready.sfd = some (some [])) :
    handled crc32 ready it = some it.sender.pktAck := by
  rcases nothing with there | there
  · simp only [handled, there]
    rfl
  · simp only [handled, there]
    rfl

theorem Sender.Checked.read (h : s.Checked crc32 ready) :
    ¬ (ready.sfd = some none ∨ ready.sfd = some (some [])) := by
  obtain ⟨d, it, q, there, -, decoded⟩ := h
  rintro (none | empty)
  · rw [there] at none
    cases none
  · rw [there] at empty
    cases empty
    cases decoded

/-- A reply moves the window when it is one that does. -/
theorem replyPart_unmoved_iff (ranges : it.sender.Ranges) (running : it.sender.phase ≠ .returned)
    (h : replyPart crc32 ready it = .ok it') :
    it.sender.Unmoved it'.sender ↔
      ∀ p, handled crc32 ready it = some p → ¬ it.sender.Moving p := by
  have wide : ∀ p buf, (it.sender.withReply p buf).widened.window = it.sender.window ↔
      ¬ it.sender.window < pktGetWindow p := by
    intro p buf
    rw [Sender.widened_window]
    show max it.sender.window (pktGetWindow p) = it.sender.window ↔ _
    omega
  rcases replyPart_moves ranges running h with
    ⟨none, q, buf, rfl⟩ | ⟨p, buf, some, ⟨ack, rfl⟩ | ⟨other, resent⟩⟩
  · apply iff_of_true
    · exact ⟨rfl, rfl, rfl⟩
    · intro p some
      rw [none] at some
      cases some
  · have same := samePlace_acknowledged ranges p buf
    simp only [some, Option.some.injEq, forall_eq', Sender.Moving, ack, true_and, not_or, not_not]
    constructor
    · rintro ⟨smallSeq, smallInd, window⟩
      exact ⟨(wide p buf).mp window, same.mp ⟨smallSeq, smallInd⟩⟩
    · rintro ⟨narrow, zero⟩
      obtain ⟨smallSeq, smallInd⟩ := same.mpr zero
      exact ⟨smallSeq, smallInd, (wide p buf).mpr narrow⟩
  · simp only [some, Option.some.injEq, forall_eq', Sender.Moving, other, false_and, or_false]
    rw [resent.unmoved, ← wide p buf]
    constructor
    · rintro ⟨-, -, window⟩
      exact window
    · intro window
      exact ⟨rfl, rfl, window⟩

/-- A pass moves the window when it handles a reply that does. -/
theorem Sender.pass_unmoved_iff {out : List (List UInt8)} (main : s.phase = .main)
    (ranges : s.Ranges) (h : s.pass crc32 ready = .ok (s', out)) :
    s.Unmoved s' ↔ (s.stays = true → ∀ it p, filePart crc32 ready s.begin = .ok it →
      it.sender.phase ≠ .returned → handled crc32 ready it = some p → ¬ s.Moving p) := by
  rcases s.pass_parts main h with ⟨stays, it, read, rest⟩ | ⟨leaves, built⟩
  · obtain ⟨⟨smallSeq, smallInd, window⟩, -, -⟩ := filePart_unmoved read
    have from_ : ∀ t, s.Unmoved t ↔ it.sender.Unmoved t := by
      intro t
      rw [Sender.Unmoved, Sender.Unmoved, smallSeq, smallInd, window]
      rfl
    have moving : ∀ p, s.Moving p ↔ it.sender.Moving p := by
      intro p
      rw [Sender.Moving, Sender.Moving, Sender.ahead, Sender.ahead, smallSeq, window]
      rfl
    simp only [stays, forall_const, from_, moving]
    rcases rest with ⟨gone, rfl⟩ | ⟨running, it₁, replied, rest⟩
    · apply iff_of_true (.refl _)
      intro it' p read' running
      rw [read] at read'
      cases read'
      exact (running gone).elim
    · have resent : it₁.sender.Resent s' := by
        rcases rest with ⟨-, rfl⟩ | ⟨-, it₂, timed, rfl⟩
        · exact .refl _
        · exact timerPart_resent timed
      rw [resent.unmoved, replyPart_unmoved_iff (ranges.read read) running replied]
      constructor
      · intro still it' p read' _ some
        rw [read] at read'
        cases read'
        exact still p some
      · intro still p some
        exact still it p read running some
  · obtain ⟨pktSend, buf, phase, tmp, rfl, -⟩ := Sender.buildEnd_cases built
    apply iff_of_true ⟨rfl, rfl, rfl⟩
    intro stays
    rw [leaves] at stays
    cases stays

/-- In every run, a pass moves the window for a reply it has checked, exactly when it does not find
    one in `pkt_ack` in place of a datagram. -/
theorem only_checked_iff (reach : (senderLoop crc32).Reachable s) (main : s.phase = .main)
    {out : List (List UInt8)} (passed : s.pass crc32 ready = .ok (s', out)) :
    (¬ s.Unmoved s' → s.Checked crc32 ready) ↔ ¬ s.Leftover ready := by
  have moved := s.pass_unmoved_iff main (Sender.Ranges.of_reachable reach) passed
  constructor
  · rintro checked ⟨stays, opens, nothing, moving⟩
    have unread : s.Unmoved s' := by
      by_contra moves
      exact (checked moves).read nothing
    rcases s.pass_parts main passed with ⟨-, it, read, -⟩ | ⟨leaves, -⟩
    · obtain ⟨-, same, goes⟩ := filePart_unmoved read
      have running : it.sender.phase ≠ .returned := by
        intro gone
        exact opens ((goes (by simp [Sender.begin, main])).mp gone)
      have some := @handled_left crc32 ready it nothing
      rw [same] at some
      exact moved.mp unread stays it _ read running some moving
    · rw [leaves] at stays
      cases stays
  · intro clean moves
    rw [moved] at moves
    simp only [not_forall, not_not, exists_prop] at moves
    obtain ⟨stays, it, p, read, running, some, moving⟩ := moves
    obtain ⟨-, same, goes⟩ := filePart_unmoved read
    rcases handled_cases some with ⟨d, there, decoded⟩ | ⟨nothing, rfl⟩
    · exact ⟨d, it, p, there, read, decoded⟩
    · exfalso
      apply clean
      rw [same] at moving
      refine ⟨stays, ?_, nothing, moving⟩
      intro fails
      exact running ((goes (by simp [Sender.begin, main])).mpr fails)

/-- Before there was a reply, an empty datagram moves nothing. -/
theorem only_checked_iff_sample : ∃ s',
    (Sender.start false firstPkt (.replicate 528 0)).pass Crc.crc32
      (.still none (some (some []))) = .ok (s', []) ∧
      (Sender.start false firstPkt (.replicate 528 0)).Unmoved s' := by
  let s := Sender.start false firstPkt (.replicate 528 0)
  let ready : Ready := .still none (some (some []))
  obtain ⟨s', passed⟩ : ∃ s', s.pass Crc.crc32 ready = .ok (s', []) := ⟨_, rfl⟩
  have begins : (senderLoop Crc.crc32).Reachable s := .of_init ⟨_, _, _, rfl⟩
  have clean : ¬ s.Leftover ready := by
    rintro ⟨-, -, -, wider | ⟨ack, -⟩⟩
    · exact absurd wider (by decide)
    · exact absurd ack (by decide)
  refine ⟨s', passed, ?_⟩
  by_contra moves
  exact ((only_checked_iff begins rfl passed).mpr clean moves).read (.inr rfl)

/-- The header of a refused reply moves the window when the next datagram is empty. -/
theorem refused_moves :
    ¬ ∀ (s s' : Sender) (ready : Ready) (out : List (List UInt8)),
      (senderLoop Crc.crc32).Reachable s → s.phase = .main →
      s.pass Crc.crc32 ready = .ok (s', out) → ¬ s.Unmoved s' → s.Checked Crc.crc32 ready := by
  intro checks
  obtain ⟨q, left, s', -, first, main, one, second, wide⟩ := refusal_handled
  have begins : (senderLoop Crc.crc32).Reachable (.start false firstPkt (.replicate 528 0)) :=
    .of_init ⟨_, _, _, rfl⟩
  have checked := checks left s' _ _ (begins.step ⟨rfl, _, first⟩) main second
  refine (checked ?_).read (.inr rfl)
  rintro ⟨-, -, window⟩
  omega

end SegmentTransfer
