import SegmentTransfer.Acknowledgement

/-! # What the sender keeps and sends

In every run the three slots hold the last three segments sent, so whatever is
sent again was sent at most three segments ago, and the end packet follows all
segments. Nothing here depends on the window test or on what is lost.
-/

namespace SegmentTransfer.Protocol

open Outcome

/-- How many segments had been sent when a datagram was. -/
def Item.mark : Item → Nat
  | .seg _ mark => mark
  | .fin n => n

/-- A datagram of a sender: one of the three last segments of its time, or the end. -/
def Sender.Emits (s : Sender) : Item → Prop
  | .seg n mark => n < mark ∧ mark ≤ n + 3 ∧ mark ≤ s.sent
  | .fin n => n = s.sent ∧ s.phase ≠ .main

/-- The sender's own variables. -/
structure Sender.Steady (total : Nat) (s : Sender) : Prop where
  window : (s.window = 1 ∧ s.acked = 0 ∧ s.sent ≤ 1 ∧
    (s.sent = 1 → s.bufferEmpty = true ∨ s.endFile = true)) ∨ s.window = 3
  inside : s.smallInd < s.window
  slots : ∀ i m, s.slots i = some m ↔ m < s.sent ∧ s.sent ≤ m + 3 ∧ i = m % 3
  sent : s.sent ≤ total
  ended : s.endFile = true → s.sent = total
  left : s.phase ≠ .main → s.endFile = true

/-- The datagrams on their way come from the sender, in the order it sent them. -/
structure Sender.Sends (s : Sender) (items : List Item) : Prop where
  emitted : ∀ x ∈ items, s.Emits x
  sorted : items.Pairwise (fun x y => x.mark ≤ y.mark)

namespace Sender

variable {total : Nat} {s s' : Sender} {items : List Item}

theorem Steady.start (file : Bool) (total : Nat) : Steady total (.start file) where
  window := .inl ⟨rfl, rfl, Nat.zero_le _, fun h => by cases h⟩
  inside := Nat.zero_lt_one
  slots := by
    intro i m
    constructor
    · intro held
      cases held
    · rintro ⟨before, -, -⟩
      exact (Nat.not_lt_zero m before).elim
  sent := Nat.zero_le _
  ended := fun h => by cases h
  left := fun h => (h rfl).elim

theorem Emits.mono {x : Item} (h : s.Emits x) (main : s.phase = .main) (le : s.sent ≤ s'.sent) :
    s'.Emits x := by
  cases x with
  | seg n mark => exact ⟨h.1, h.2.1, h.2.2.trans le⟩
  | fin n => exact (h.2 main).elim

theorem Sends.sublist (h : s.Sends items) {fewer : List Item} (sub : fewer.Sublist items) :
    s.Sends fewer where
  emitted := fun x member => h.emitted x (sub.subset member)
  sorted := h.sorted.sublist sub

theorem Sends.snoc (h : s.Sends items) {x : Item} (emits : s.Emits x) (mark : x.mark = s.sent) :
    s.Sends (items ++ [x]) where
  emitted := by
    intro y member
    rcases List.mem_append.mp member with old | new
    · exact h.emitted y old
    · rw [List.mem_singleton.mp new]
      exact emits
  sorted := by
    refine List.pairwise_append.mpr ⟨h.sorted, List.pairwise_singleton _ _, ?_⟩
    intro y member z new
    rw [List.mem_singleton.mp new, mark]
    have emits := h.emitted y member
    cases y with
    | seg n mark => exact emits.2.2
    | fin n => exact Nat.le_of_eq emits.1

theorem Steady.first_read (steady : s.Steady total) (set : s.fdSet = true) :
    s.window = 3 ∨ (s.window = 1 ∧ s.sent = 0) := by
  rcases steady.window with ⟨window, acked, few, started⟩ | window
  · refine .inr ⟨window, ?_⟩
    by_contra nonzero
    have one : s.sent = 1 := by omega
    rcases started one with started | ended
    · simp [fdSet, isNotFull, started, one, acked, window] at set
    · simp [fdSet, ended] at set
  · exact .inl window

theorem Steady.store (steady : s.Steady total) (set : s.fdSet = true) (i m : Nat) :
    Function.update s.slots (s.sent % s.window) (some s.sent) i = some m ↔
      m < s.sent + 1 ∧ s.sent + 1 ≤ m + 3 ∧ i = m % 3 := by
  have slot : s.sent % s.window = s.sent % 3 := by
    rcases steady.first_read set with window | ⟨window, zero⟩
    · rw [window]
    · rw [window, zero]
  rw [slot]
  by_cases same : i = s.sent % 3
  · rw [same, Function.update_self, Option.some.injEq]
    omega
  · rw [Function.update_of_ne same, steady.slots]
    omega

end Sender

/-- The invariant during a pass, with the datagrams sent before it. -/
structure Iteration.Sound (total : Nat) (before : List Item) (it : Iteration) : Prop where
  main : it.sender.phase = .main
  steady : it.sender.Steady total
  sends : it.sender.Sends (before ++ it.out)

namespace Iteration.Sound

variable {total : Nat} {before : List Item} {it it' : Iteration}

theorem filePart (h : it.Sound total before) {fdReady : Bool}
    (read : Protocol.filePart total fdReady it = .ok it') : it'.Sound total before := by
  obtain ⟨main, steady, sends⟩ := h
  rcases filePart_cases read with ⟨-, rfl⟩ | ⟨-, ends, rfl⟩ | ⟨ready, more, -, rfl⟩
  · exact ⟨main, steady, sends⟩
  · refine ⟨main, ?_, ⟨sends.emitted, sends.sorted⟩⟩
    exact
      { steady with
        window := steady.window.imp_left fun ⟨window, acked, sent, _⟩ =>
          ⟨window, acked, sent, fun _ => .inr rfl⟩
        ended := fun _ => ends
        left := fun left => (left main).elim }
  · have set := (Bool.and_eq_true_iff.mp ready).1
    have sent := steady.sent
    refine ⟨main, ?_, ?_⟩
    · refine
        { window := ?_, inside := steady.inside, slots := steady.store set, sent := ?_, ended := ?_
          left := fun left => (left main).elim }
      · rcases steady.window with ⟨window, acked, -, -⟩ | window
        · rcases steady.first_read set with wide | ⟨-, zero⟩
          · exact .inr wide
          · exact .inl ⟨window, acked, by simp only [zero]; omega, fun _ => .inl rfl⟩
        · exact .inr window
      · simp only
        omega
      · intro ended
        have := steady.ended ended
        omega
    · have kept : Sender.Sends
          { it.sender with
            bufferEmpty := true
            slots := Function.update it.sender.slots (it.sender.sent % it.sender.window)
              (some it.sender.sent)
            sent := it.sender.sent + 1 } (before ++ it.out) :=
        { emitted := fun x member => (sends.emitted x member).mono main (Nat.le_succ _)
          sorted := sends.sorted }
      rw [← List.append_assoc]
      exact kept.snoc ⟨Nat.lt_succ_self _, by omega, Nat.le_refl _⟩ rfl

theorem replyPart (h : it.Sound total before) {reply : Option (Nat × Nat)}
    (advertised : ∀ a window, reply = some (a, window) → window = receiverWindow) :
    (replyPart reply it).Sound total before := by
  cases reply with
  | none => exact h
  | some answer =>
      obtain ⟨a, window⟩ := answer
      obtain rfl := advertised a window rfl
      obtain ⟨main, steady, sends⟩ := h
      have wide : (if receiverWindow > it.sender.window then receiverWindow else it.sender.window) =
          3 := by
        rcases steady.window with ⟨window, -⟩ | window <;> rw [window] <;> rfl
      refine ⟨main, ?_,
        ⟨fun x member => (sends.emitted x member).mono main (Nat.le_refl _), sends.sorted⟩⟩
      exact
        { window := .inr wide
          inside := by
            simp only [Protocol.replyPart, handleAck, wide]
            exact Nat.mod_lt _ (by decide)
          slots := steady.slots, sent := steady.sent, ended := steady.ended, left := steady.left }

theorem timerPart (h : it.Sound total before) (timed : Protocol.timerPart it = .ok it') :
    it'.Sound total before := by
  rcases timerPart_cases timed with rfl | ⟨slot, n, held, rfl⟩
  · exact h
  · obtain ⟨lower, upper, -⟩ := (h.steady.slots slot n).mp held
    refine ⟨h.main, h.steady, ?_⟩
    rw [← List.append_assoc]
    exact h.sends.snoc ⟨lower, upper, Nat.le_refl _⟩ rfl

end Iteration.Sound

namespace Sender

variable {total : Nat} {fdReady : Bool} {s s' : Sender} {items out : List Item}

/-- Every pass keeps the slots and sends what they hold. -/
theorem Steady.pass (steady : s.Steady total) (sends : s.Sends items) {reply : Option (Nat × Nat)}
    (advertised : ∀ a window, reply = some (a, window) → window = receiverWindow)
    (h : s.pass total fdReady reply = .ok (s', out)) :
    s'.Steady total ∧ s'.Sends (items ++ out) := by
  rcases pass_cases h with ⟨main, stays, it, it', read, timed, rfl, rfl⟩ | ⟨main, leaves, rfl, rfl⟩ |
    ⟨closing, rfl, rfl⟩ | ⟨gone, rfl, rfl⟩
  · have begins : Iteration.Sound total items s.begin :=
      ⟨main, steady, by simpa only [begin, List.append_nil] using sends⟩
    have sound := ((begins.filePart read).replyPart advertised).timerPart timed
    exact ⟨sound.steady, sound.sends⟩
  · have ended : s.endFile = true := by
      cases ended : s.endFile with
      | true => rfl
      | false => simp [stays, ended] at leaves
    rw [List.append_nil]
    refine ⟨{ steady with left := fun _ => ended }, ?_, sends.sorted⟩
    exact fun x member => (sends.emitted x member).mono main (Nat.le_refl _)
  · have kept : s.Sends (items ++ [.fin s.sent]) :=
      sends.snoc ⟨rfl, by rw [closing]; simp⟩ rfl
    split
    · refine ⟨{ steady with left := fun _ => steady.left (by rw [closing]; simp) }, ?_, kept.sorted⟩
      intro x member
      have emits := kept.emitted x member
      cases x with
      | seg n mark => exact emits
      | fin n => exact ⟨emits.1, by simp⟩
    · exact ⟨steady, kept⟩
  · rw [List.append_nil]
    exact ⟨steady, sends⟩

theorem pass_marks {reply : Option (Nat × Nat)} (h : s.pass total fdReady reply = .ok (s', out)) :
    ∀ x ∈ out, s.sent ≤ x.mark := by
  rcases pass_cases h with ⟨-, -, it, it', read, timed, -, rfl⟩ | ⟨-, -, -, rfl⟩ |
    ⟨-, rfl, -⟩ | ⟨-, -, rfl⟩
  · have before : s.sent ≤ it.sender.sent ∧ ∀ x ∈ it.out, s.sent ≤ x.mark := by
      rcases filePart_cases read with ⟨-, rfl⟩ | ⟨-, -, rfl⟩ | ⟨-, -, -, rfl⟩
      · exact ⟨Nat.le_refl _, fun _ member => by cases member⟩
      · exact ⟨Nat.le_refl _, fun _ member => by cases member⟩
      · refine ⟨Nat.le_succ _, fun x member => ?_⟩
        rw [List.mem_singleton.mp member]
        exact Nat.le_succ _
    have between : (replyPart reply it).out = it.out := by
      cases reply <;> rfl
    have sent := replyPart_sent reply it
    rcases timerPart_cases timed with rfl | ⟨slot, n, -, rfl⟩
    · rw [between]
      exact before.2
    · intro x member
      rw [between] at member
      rcases List.mem_append.mp member with old | new
      · exact before.2 x old
      · rw [List.mem_singleton.mp new, Item.mark, sent]
        exact before.1
  · exact fun _ member => by cases member
  · intro x member
    rw [List.mem_singleton.mp member]
    exact Nat.le_refl _
  · exact fun _ member => by cases member

end Sender

theorem advertised_by_receiver {sfdReady : Bool} {acks : List Nat} {a window : Nat}
    (h : (if sfdReady then acks.head?.map (·, receiverWindow) else none) = some (a, window)) :
    window = receiverWindow := by
  cases sfdReady with
  | false => cases h
  | true =>
      cases acks with
      | nil => cases h
      | cons first rest =>
          cases h
          rfl

end SegmentTransfer.Protocol
