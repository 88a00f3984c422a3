import SegmentTransfer.Delivery

/-! # A transfer that loses nothing is exact

The sender may run any number of segments ahead, for its window test does not
hold it back. What keeps the receiver in order is the channel: read from the
segment the receiver expects, the datagrams in flight lead to the number of
segments sent, each either the next segment or one of the last three again.
-/

namespace SegmentTransfer

open Outcome

/-- Nothing is lost, and a regular file can always be read. -/
def Event.Lossless (file : Bool) : Event → Prop
  | .sender fdReady _ _ _ _ _ => file = true → fdReady = true
  | .receiver _ _ _ => True
  | .loseData _ => False
  | .loseAck _ => False

namespace Protocol

/-- From a receiver that expects segment `e`, the datagrams lead to one that expects `n`. -/
inductive Trail : Nat → List Item → Nat → Prop where
  | nil (e) : Trail e [] e
  | next {e mark rest n} : Trail (e + 1) rest n → Trail e (.seg e mark :: rest) n
  | again {e k mark rest n} : k < e → e ≤ k + 3 → Trail e rest n → Trail e (.seg k mark :: rest) n
  | fin {e rest n} : Trail e rest n → Trail e (.fin e :: rest) n

theorem Trail.append {e n m : Nat} {items more : List Item} (h : Trail e items n)
    (h' : Trail n more m) : Trail e (items ++ more) m := by
  induction h with
  | nil => exact h'
  | next _ ih => exact .next (ih h')
  | again old close _ ih => exact .again old close (ih h')
  | fin _ ih => exact .fin (ih h')

theorem Trail.le {e n : Nat} {items : List Item} (h : Trail e items n) : e ≤ n := by
  induction h with
  | nil => exact Nat.le_refl _
  | next _ ih => omega
  | again _ _ _ ih => exact ih
  | fin _ ih => exact ih

/-! ## The sender -/

namespace Sender

variable {total : Nat} {fdReady : Bool} {reply : Option (Nat × Nat)} {s s' : Sender}
  {out : List Item}

theorem begin_sound (steady : s.Steady total) (main : s.phase = .main) :
    s.begin.Sound total [] where
  main := main
  steady := steady
  sends := { emitted := fun _ member => (List.not_mem_nil member).elim, sorted := .nil }

theorem pass_trail (steady : s.Steady total) (h : s.pass total fdReady reply = .ok (s', out)) :
    Trail s.sent out s'.sent ∧ s'.file = s.file := by
  rcases pass_cases h with ⟨main, stays, it, it', read, timed, rfl, rfl⟩ | ⟨-, -, rfl, rfl⟩ |
    ⟨-, rfl, rfl⟩ | ⟨-, rfl, rfl⟩
  · have sound := (begin_sound steady main).filePart read
    have first : Trail s.sent it.out it.sender.sent ∧ it.sender.file = s.file := by
      rcases filePart_cases read with ⟨-, rfl⟩ | ⟨-, -, rfl⟩ | ⟨-, -, -, rfl⟩
      · exact ⟨.nil _, rfl⟩
      · exact ⟨.nil _, rfl⟩
      · exact ⟨.next (.nil _), rfl⟩
    have kept : (replyPart reply it).out = it.out ∧ (replyPart reply it).sender.sent = it.sender.sent ∧
        (replyPart reply it).sender.slots = it.sender.slots ∧
        (replyPart reply it).sender.file = it.sender.file := by
      cases reply <;> exact ⟨rfl, rfl, rfl, rfl⟩
    obtain ⟨same, sent, slots, file⟩ := kept
    rcases timerPart_cases timed with rfl | ⟨slot, k, held, rfl⟩
    · rw [same, sent, file]
      exact first
    · rw [slots] at held
      obtain ⟨old, close, -⟩ := (sound.steady.slots slot k).mp held
      simp only [same, sent, file]
      exact ⟨first.1.append (.again old close (.nil _)), first.2⟩
  · exact ⟨.nil _, rfl⟩
  · split <;> exact ⟨.fin (.nil _), rfl⟩
  · exact ⟨.nil _, rfl⟩

theorem Steady.slot (steady : s.Steady total) (i : Nat) :
    slotOf i s.window = .ok (i % s.window) := by
  have small : 0 < s.window ∧ s.window ≤ 3 := by
    rcases steady.window with ⟨window, -⟩ | window <;> omega
  exact slotOf_eq small.1 (small.2.trans (by decide)) i

theorem Steady.filled (steady : s.Steady total) (enough : 3 ≤ s.sent ∨ s.window = 1 ∧ s.sent = 1) :
    ∃ k, s.slots (s.smallInd % s.window) = some k := by
  have inside := steady.inside
  rw [Nat.mod_eq_of_lt inside]
  rcases enough with many | ⟨window, one⟩
  · refine ⟨s.sent - 1 - (s.sent + 2 - s.smallInd) % 3, (steady.slots _ _).mpr ?_⟩
    have : s.smallInd < 3 := by
      rcases steady.window with ⟨window, -⟩ | window <;> omega
    omega
  · exact ⟨0, (steady.slots _ _).mpr (by omega)⟩

theorem Steady.filled_of_unset (steady : s.Steady total) (stays : s.stays = true)
    (unset : s.fdSet = false) : 3 ≤ s.sent ∨ s.window = 1 ∧ s.sent = 1 := by
  have full : s.isNotFull = false := by
    simp only [Sender.stays, Bool.and_eq_true, Bool.not_eq_true'] at stays
    simp only [fdSet, stays.2, Bool.not_false, Bool.true_and, Bool.or_eq_false_iff] at unset
    exact unset.2
  have := of_decide_eq_false full
  rcases steady.window with ⟨window, acked, one, -⟩ | window
  · rw [window, acked] at this
    omega
  · rw [window] at this
    omega

theorem filePart_fault {it : Iteration} (steady : it.sender.Steady total) {fault : Fault}
    (h : filePart total fdReady it = .error fault) :
    fault = .intOverflow ∧ 2 ^ 31 ≤ it.sender.sent + 1 := by
  unfold filePart at h
  split at h
  · cases h
  split at h
  · cases h
  split at h
  · cases h
  · simp only [sendChunk, steady.slot, ok_bind] at h
    split at h
    · rename_i overflow
      cases h
      exact ⟨rfl, overflow⟩
    · cases h

theorem timerPart_fault {it : Iteration} (steady : s.Steady total) (stays : s.stays = true)
    (regular : s.file = true → fdReady = true ∧ 3 ≤ total)
    (read : filePart total fdReady s.begin = .ok it) {fault : Fault} :
    timerPart (replyPart reply it) ≠ .error fault := by
  intro h
  unfold timerPart at h
  split at h
  · rename_i idle
    obtain ⟨unsent, unanswered, file⟩ := idle
    cases reply with
    | some answer => cases unanswered
    | none =>
        obtain ⟨ready, long⟩ : fdReady = true ∧ 3 ≤ total := by
          apply regular
          rcases filePart_cases read with ⟨-, rfl⟩ | ⟨-, -, rfl⟩ | ⟨-, -, -, rfl⟩ <;> exact file
        obtain ⟨k, held⟩ : ∃ k, it.sender.slots (it.sender.smallInd % it.sender.window) = some k ∧
            slotOf it.sender.smallInd it.sender.window =
              .ok (it.sender.smallInd % it.sender.window) := by
          rcases filePart_cases read with ⟨unread, rfl⟩ | ⟨-, ends, rfl⟩ | ⟨-, -, -, rfl⟩
          · rw [ready, Bool.and_true] at unread
            obtain ⟨k, held⟩ := steady.filled (steady.filled_of_unset stays unread)
            exact ⟨k, held, steady.slot _⟩
          · obtain ⟨k, held⟩ := steady.filled (.inl (long.trans (Nat.le_of_eq ends.symm)))
            exact ⟨k, held, steady.slot _⟩
          · cases unsent
        simp only [replyPart, held.1, held.2, ok_bind, orFail_some, pure_eq_ok, reduceCtorEq] at h
  · cases h

theorem pass_fault (steady : s.Steady total) (regular : s.file = true → fdReady = true ∧ 3 ≤ total)
    {fault : Fault} (h : s.pass total fdReady reply = .error fault) :
    fault = .intOverflow ∧ 2 ^ 31 ≤ s.sent + 1 := by
  unfold pass at h
  split at h
  · split at h
    · rename_i stays
      rcases bind_eq_error.mp h with failed | ⟨it, -, returned⟩
      · rcases bind_eq_error.mp failed with failed | ⟨it, read, failed⟩
        · exact @filePart_fault total fdReady s.begin steady fault failed
        · exact (timerPart_fault steady stays regular read failed).elim
      · cases returned
    · cases h
  · split at h <;> cases h
  · cases h

end Sender

/-! ## The receiver -/

namespace Receiver

variable {r : Receiver} {items : List Item} {n : Nat}

/-- Nothing is held and everything written is in order. -/
structure Level (r : Receiver) : Prop where
  empty : r.Empty
  written : r.written = List.range r.done

theorem pass_deaf (deaf : r.listens = false) (arrival : Option Item) :
    ∃ count returned acks, r.pass arrival = .ok ({ r with count, returned }, acks) := by
  unfold pass
  split
  · exact ⟨_, _, _, rfl⟩
  · rename_i running
    split
    · rename_i staying
      simp [listens, running, staying] at deaf
    · split
      · exact ⟨_, _, _, rfl⟩
      · exact ⟨_, _, _, rfl⟩

theorem pass_none (listening : r.listens = true) : r.pass none = .ok (r, []) := by
  simp only [listens, Bool.and_eq_true, Bool.not_eq_true'] at listening
  simp only [pass, listening.1, listening.2, Bool.false_eq_true, if_false, if_true]
  rfl

theorem pass_listening (level : r.Level) (listening : r.listens = true)
    {item : Item} {rest : List Item} (trail : Trail r.done (item :: rest) n) :
    ∃ r' acks, r.pass (some item) = .ok (r', acks) ∧ r'.Level ∧ Trail r'.done rest n ∧
      (r'.endFile = true → item = .fin r'.done) := by
  have staying : r.endFile = false := by
    simp only [listens, Bool.and_eq_true, Bool.not_eq_true'] at listening
    exact listening.2
  cases trail with
  | @next _ mark _ _ trail =>
      obtain ⟨slots, drained, emptied⟩ := arrival_expected level.empty (n := r.done) rfl
      have grown : done { r with written := r.written ++ [r.done], slots } = r.done + 1 := by
        simp only [done, List.length_append, List.length_singleton]
      refine ⟨_, _, pass_seg listening drained, { empty := emptied, written := ?_ }, ?_, ?_⟩
      · rw [grown, List.range_succ, ← level.written]
      · rw [grown]
        exact trail
      · intro ended
        rw [staying] at ended
        cases ended
  | again old close trail =>
      refine ⟨r, _, pass_seg listening (arrival_old level.empty old close), level, trail, ?_⟩
      intro ended
      rw [staying] at ended
      cases ended
  | fin trail =>
      have level' : Level { r with endFile := true } := ⟨level.empty, level.written⟩
      exact ⟨_, [], pass_fin listening, level', trail, fun _ => rfl⟩

end Receiver

/-! ## Runs without loss -/

/-- The datagrams in flight lead from what was written to what was sent. -/
structure Exact (file : Bool) (total : Nat) (n : State) : Prop where
  sameFile : n.snd.file = file
  steady : n.snd.Steady total
  sends : n.snd.Sends n.toRcv
  level : n.rcv.Level
  trail : Trail n.rcv.done n.toRcv n.snd.sent
  complete : n.rcv.endFile = true → n.rcv.done = total

namespace Exact

variable {file : Bool} {total : Nat} {n n' : State}

theorem start (file : Bool) (total : Nat) : Exact file total (.start file) where
  sameFile := rfl
  steady := .start file total
  sends := { emitted := fun _ member => (List.not_mem_nil member).elim, sorted := .nil }
  level := { empty := fun _ _ => rfl, written := rfl }
  trail := .nil 0
  complete := fun ended => by cases ended

theorem last (h : Exact file total n) {k : Nat} (member : Item.fin k ∈ n.toRcv) : k = total := by
  obtain ⟨last, left⟩ := h.sends.emitted _ member
  exact last.trans (h.steady.ended (h.steady.left left))

theorem advance (h : Exact file total n) {r' : Receiver} {items : List Item} (acks : List Nat)
    (fewer : items.Sublist n.toRcv) (level : r'.Level) (trail : Trail r'.done items n.snd.sent)
    (complete : r'.endFile = true → r'.done = total) :
    Exact file total { n with rcv := r', toRcv := items, toSnd := acks } where
  sameFile := h.sameFile
  steady := h.steady
  sends := h.sends.sublist fewer
  level := level
  trail := trail
  complete := complete

/-- A pass of the receiver never fails. -/
theorem receiver (h : Exact file total n) (arrives : Bool) :
    ∃ r' acks, n.rcv.pass (if arrives then n.toRcv.head? else none) = .ok (r', acks) ∧
      Exact file total
        { n with
          rcv := r'
          toRcv := if arrives && n.rcv.listens then n.toRcv.tail else n.toRcv
          toSnd := n.toSnd ++ acks } := by
  cases listening : n.rcv.listens with
  | false =>
      obtain ⟨count, returned, acks, passed⟩ :=
        Receiver.pass_deaf listening (if arrives then n.toRcv.head? else none)
      rw [Bool.and_false]
      have level : Receiver.Level { n.rcv with count, returned } := ⟨h.level.empty, h.level.written⟩
      exact ⟨_, acks, passed, h.advance _ (.refl _) level h.trail h.complete⟩
  | true =>
      rw [Bool.and_true]
      have quiet : ∃ r' acks, n.rcv.pass none = .ok (r', acks) ∧ Exact file total
          { n with rcv := r', toRcv := n.toRcv, toSnd := n.toSnd ++ acks } :=
        ⟨_, _, Receiver.pass_none listening, h.advance _ (.refl _) h.level h.trail h.complete⟩
      cases arrives with
      | false => exact quiet
      | true =>
          cases toRcv : n.toRcv with
          | nil =>
              rw [toRcv] at quiet
              exact quiet
          | cons item rest =>
              have trail := h.trail
              rw [toRcv] at trail
              obtain ⟨r', acks, passed, level, trail', ended⟩ :=
                Receiver.pass_listening h.level listening trail
              refine ⟨r', acks, passed, h.advance _ ?_ level trail' fun end_ => ?_⟩
              · rw [toRcv]
                exact List.sublist_cons_self _ _
              · exact h.last (toRcv ▸ ended end_ ▸ List.mem_cons_self)

theorem sender (h : Exact file total n) {fdReady sfdReady : Bool} {s' : Sender} {out : List Item}
    (passed : n.snd.pass total fdReady
      (if sfdReady then n.toSnd.head?.map (·, receiverWindow) else none) = .ok (s', out))
    (acks : List Nat) :
    Exact file total { n with snd := s', toRcv := n.toRcv ++ out, toSnd := acks } := by
  obtain ⟨trail, sameFile⟩ := Sender.pass_trail h.steady passed
  obtain ⟨steady, sends⟩ := h.steady.pass h.sends (fun _ _ => advertised_by_receiver) passed
  exact
    { sameFile := sameFile.trans h.sameFile, steady := steady, sends := sends, level := h.level
      trail := h.trail.append trail, complete := h.complete }

theorem step (h : Exact file total n) {event : Event} (next : n.step total event = .ok n')
    (lossless : event.Lossless file) : Exact file total n' := by
  cases event with
  | sender fdReady sfdReady _ _ _ _ =>
      obtain ⟨⟨s', out⟩, passed, rest⟩ := bind_eq_ok.mp next
      cases rest
      exact h.sender passed _
  | receiver arrives _ _ =>
      obtain ⟨⟨r', acks⟩, passed, rest⟩ := bind_eq_ok.mp next
      cases rest
      obtain ⟨r'', acks', passed', exact_⟩ := h.receiver arrives
      rw [passed] at passed'
      cases passed'
      exact exact_
  | loseData i => exact lossless.elim
  | loseAck i => exact lossless.elim

theorem fault (h : Exact file total n) (enough : file = true → 3 ≤ total) {event : Event}
    (lossless : event.Lossless file) {fault : Fault} (failed : n.step total event = .error fault) :
    fault = .intOverflow ∧ 2 ^ 31 ≤ n.snd.sent + 1 := by
  cases event with
  | sender fdReady sfdReady _ _ _ _ =>
      rcases bind_eq_error.mp failed with failed | ⟨sent, -, returned⟩
      · refine Sender.pass_fault h.steady (fun regular => ?_) failed
        rw [h.sameFile] at regular
        exact ⟨lossless regular, enough regular⟩
      · cases returned
  | receiver arrives _ _ =>
      obtain ⟨r', acks, passed, -⟩ := h.receiver arrives
      rcases bind_eq_error.mp failed with failed | ⟨replied, -, returned⟩
      · rw [passed] at failed
        cases failed
      · cases returned
  | loseData i => exact lossless.elim
  | loseAck i => exact lossless.elim

theorem of_reachable
    (h : ((system file total).restrict fun _ event => event.Lossless file).Reachable n) :
    Exact file total n :=
  h.induct (fun _ starts => starts ▸ start file total) fun _ _ _ inv next => inv.step next.1 next.2

end Exact

end Protocol

/-! ## The programs -/

section

variable {crc32 : List UInt8 → UInt32} {file : Bool} {input : List (List UInt8)} {n : Network}

/-- As long as no datagram is lost, no step fails before the segments overflow `seq_ind` (no
    slot is used unfilled), the output is a prefix of the input, and it is the whole input
    when the receiver leaves its loop. -/
theorem lossless_exact (readable : Readable input) (enough : file = true → 3 ≤ input.length)
    (reach : ((network crc32 file input).restrict fun _ event => event.Lossless file).Reachable n) :
    (∀ event fault, event.Lossless file → n.step crc32 event = .error fault →
        fault = .intOverflow ∧ 2 ^ 31 ≤ n.snd.seqInd + 1) ∧
      n.output <+: input.flatten ∧ (n.rcv.endFile = true → n.output = input.flatten) := by
  obtain ⟨a, reach', shown⟩ := ((follows crc32 file readable).restrict
    (fun _ event => event.Lossless file) (fun _ event => event.Lossless file)
    fun _ _ _ _ lossless => lossless).reachable reach
  have inv := Protocol.Exact.of_reachable reach'
  have inside : a.rcv.done ≤ input.length := inv.trail.le.trans inv.steady.sent
  have output := shown.output inv.level.written inside
  refine ⟨?_, ?_, ?_⟩
  · intro event fault lossless failed
    have agree := shown.step readable event
    rw [failed] at agree
    rw [shown.snd.seqInd]
    exact inv.fault enough lossless agree.of_error_left
  · rw [output]
    exact (input.take_prefix _).flatten
  · intro ended
    have done := inv.complete (shown.rcv.endFile ▸ ended)
    rw [output, done, List.take_length]

/-- A regular file of three chunks, after the first was sent, received and acknowledged. -/
theorem lossless_exact_sample :
    ∃ n : Network, n.output = [7] ∧
      (∀ event fault, event.Lossless true → n.step Crc.crc32 event = .error fault →
        fault = .intOverflow ∧ 2 ^ 31 ≤ n.snd.seqInd + 1) ∧
      n.output <+: [[7], [8], [9]].flatten ∧
      (n.rcv.endFile = true → n.output = [[7], [8], [9]].flatten) := by
  have readable : Readable [[7], [8], [9]] := by decide
  have begins : ((Protocol.system true 3).restrict fun _ event => event.Lossless true).Reachable
      (.start true) := .of_init rfl
  have read := begins.step (a := Event.reads) ⟨rfl, fun _ => rfl⟩
  have received := read.step (a := Event.receives) ⟨rfl, trivial⟩
  obtain ⟨n, reach, shown⟩ := ((followed Crc.crc32 true readable).restrict
    (fun _ event => event.Lossless true) (fun _ event => event.Lossless true)
    fun _ _ _ _ lossless => lossless).reachable received
  refine ⟨n, ?_, lossless_exact readable (fun _ => by decide) reach⟩
  rw [Network.output, shown.rcv.writes]
  rfl

end

end SegmentTransfer
